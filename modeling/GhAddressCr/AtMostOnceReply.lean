import GhAddressCr.OutboxTransitions
import Mathlib.Data.List.Count

/-!
# At most one reply

How often a reply takes effect on GitHub. Its row admits a call once it is planned or
failed, so a failed row must mean that nothing was posted. A result says so when GitHub
refused the call; a reconciliation says so when it still speaks of the attempt its process
found unknown, and when the reading of the thread shows every reply already posted.
-/
namespace GhAddressCr.SideEffectExecution

open RuntimeStore SideEffectOutbox

variable {P : Type} {site : Site P} {w : World P}

theorem outboxCommandId_inj {a b : EffectType} {k l : String}
    (h : outboxCommandId a.value k = outboxCommandId b.value l) : a = b ∧ k = l := by
  have hlist : "outbox_".toList ++ a.value.toList ++ "\x00".toList ++ k.toList =
      "outbox_".toList ++ b.value.toList ++ "\x00".toList ++ l.toList := by
    have htext := congrArg String.toList h
    simpa [outboxCommandId, String.toList_append] using htext
  cases a <;> cases b <;> simp [EffectType.value] at hlist ⊢
  · exact String.toList_injective hlist
  · exact String.toList_injective hlist

/-- The number of times the reply took effect. -/
def posted (site : Site P) (w : World P) (effect : SideEffect) : Nat :=
  w.replies.count (effect.key site)

def IsReply (effect : SideEffect) : Prop := effect.effectType = .githubReply

/-- Two replies of one command are one reply. -/
theorem posted_congr {effect other : SideEffect}
    (h : effect.commandId site = other.commandId site) :
    posted site w effect = posted site w other := by
  obtain ⟨-, hkey⟩ := outboxCommandId_inj h
  unfold posted
  rw [hkey]

/-- The command's row has not gone back behind the attempt a process read as unknown, and
while it is that attempt nobody executes it. -/
def Observed (site : Site P) (w : World P) (effect : SideEffect) (read : OutboxRow) : Prop :=
  ∃ row, w.store.outbox[effect.commandId site]? = some row ∧
    read.attemptCount ≤ row.attemptCount ∧
    (row.attemptCount = read.attemptCount → row.status ≠ .planned ∧ row.status ≠ .inFlight)

/-- The command's row is at the attempt that was read. -/
def SameAttempt (site : Site P) (w : World P) (effect : SideEffect) (read : OutboxRow) : Prop :=
  ∀ row, w.store.outbox[effect.commandId site]? = some row →
    row.attemptCount = read.attemptCount

/-- What a process's activity says about the replies posted so far. -/
def Accounts (site : Site P) (w : World P) : Activity → Prop
  | .listLatest effect read | .listViewer effect read =>
      IsReply effect ∧ Observed site w effect read
  | .reconciling effect read =>
      IsReply effect ∧ Observed site w effect read ∧
        (SameAttempt site w effect read → posted site w effect = 0)
  | .guarded effect _ .call => IsReply effect → posted site w effect = 0
  | .finishing effect (some _) (.failed _) _ => IsReply effect → posted site w effect = 0
  | .finishing _ none ended _ => ∃ url, ended = .succeeded url
  | _ => True

/-- A row of a reply, and how often that reply was posted. -/
structure RowAccounts (row : OutboxRow) (posts : Nat) : Prop where
  boundary : row.retryBoundary = some .reconcileOnly
  once : posts ≤ 1
  unposted : row.status = .planned ∨ row.status = .failed → posts = 0

structure ReplyAccounts (site : Site P) (w : World P) : Prop where
  absent : ∀ effect, IsReply effect → w.store.outbox[effect.commandId site]? = none →
    posted site w effect = 0
  row : ∀ effect row, IsReply effect → w.store.outbox[effect.commandId site]? = some row →
    RowAccounts row (posted site w effect)
  activity : ∀ p, Accounts site w (w.activity p)

theorem RowChange.attemptCount {p : P} {committed : Store} {commandId : String}
    {row row' : OutboxRow} (h : RowChange site w p committed commandId row row') :
    row'.attemptCount = row.attemptCount + 1 ∨
      (row'.attemptCount = row.attemptCount ∧ row'.status ≠ .planned ∧
        row'.status ≠ .inFlight) := by
  cases h with
  | begun => exact Or.inl rfl
  | @finished _ _ ended =>
      cases ended <;> simp [resultRow, OutboxResult.status, AttemptEnd.result]
  | demoted => simp [unknownRow]
  | @reconciled _ ended =>
      cases ended <;> simp [resultRow, OutboxResult.status, AttemptEnd.result]
  | reconciledNoEffect => simp [resultRow, OutboxResult.status]

/-- An observed command stays observed. -/
theorem Observed.evolve {p : P} {w' : World P} {effect : SideEffect} {read : OutboxRow}
    (h : Observed site w effect read) (hrows : RowsEvolve site w p w'.store) :
    Observed site w' effect read := by
  obtain ⟨row, hrow, hle, hquiet⟩ := h
  obtain ⟨row', hrow', rfl | hchange⟩ := hrows.kept _ row hrow
  · exact ⟨row', hrow', hle, hquiet⟩
  · refine ⟨row', hrow', ?_, ?_⟩
    · rcases hchange.attemptCount with hnext | ⟨hsame, -⟩ <;> omega
    · intro heq
      rcases hchange.attemptCount with hnext | ⟨-, hplanned, hflight⟩
      · omega
      · exact ⟨hplanned, hflight⟩

/-- While the attempt that was read is over, a commit that leaves the command at it finds
it there. -/
theorem SameAttempt.of_evolve {p : P} {w' : World P} {effect : SideEffect} {read : OutboxRow}
    (hobserved : Observed site w effect read) (hrows : RowsEvolve site w p w'.store)
    (h : SameAttempt site w' effect read) : SameAttempt site w effect read := by
  obtain ⟨row, hrow, hle, -⟩ := hobserved
  intro other hother
  rw [hrow] at hother
  have hsame := Option.some.inj hother
  subst hsame
  obtain ⟨row', hrow', rfl | hchange⟩ := hrows.kept _ row hrow
  · exact h row' hrow'
  · have hnew := h row' hrow'
    rcases hchange.attemptCount with hnext | ⟨hsame, -⟩ <;> omega

/-- What an activity accounts for is kept by a commit of another process. -/
theorem Accounts.evolve {p : P} {w' : World P} {activity : Activity}
    (h : Accounts site w activity) (hrows : RowsEvolve site w p w'.store)
    (hreplies : w'.replies = w.replies) : Accounts site w' activity := by
  have hposted : posted site w' = posted site w := by
    funext effect
    unfold posted
    rw [hreplies]
  cases activity with
  | listLatest effect read => exact ⟨h.1, h.2.evolve hrows⟩
  | listViewer effect read => exact ⟨h.1, h.2.evolve hrows⟩
  | reconciling effect read =>
      obtain ⟨hreply, hobserved, hzero⟩ := h
      refine ⟨hreply, hobserved.evolve hrows, ?_⟩
      intro hsame
      rw [hposted]
      exact hzero (hsame.of_evolve hobserved hrows)
  | guarded effect token phase =>
      cases phase with
      | call => exact fun hreply => (congrFun hposted effect).trans (h hreply)
      | read => trivial
      | plan => trivial
      | mark => trivial
  | finishing effect owner ended phase =>
      cases owner with
      | none => exact h
      | some token =>
          cases ended with
          | succeeded url => trivial
          | failed error => exact fun hreply => (congrFun hposted effect).trans (h hreply)
  | _ => trivial

/-- The row accounts for the same posts after a permitted change, provided a process that
reconciles does so at the attempt it read. -/
theorem RowAccounts.change {p : P} {committed : Store} {effect : SideEffect}
    {row row' : OutboxRow} (h : ReplyAccounts site w)
    (hrow : RowAccounts row (posted site w effect)) (hreply : IsReply effect)
    (hchange : RowChange site w p committed (effect.commandId site) row row')
    (hsafe : ∀ other read, w.activity p = .reconciling other read →
      SameAttempt site w other read) : RowAccounts row' (posted site w effect) := by
  have hsameReply : ∀ other : SideEffect, other.commandId site = effect.commandId site →
      IsReply other := by
    intro other hcommand
    exact (outboxCommandId_inj hcommand).1.trans hreply
  cases hchange with
  | begun acting command enters =>
      refine ⟨hrow.boundary, hrow.once, ?_⟩
      intro hstatus
      rcases hstatus with hplanned | hfailed
      · cases hplanned
      · cases hfailed
  | @finished other token ended acting command =>
      refine ⟨hrow.boundary, hrow.once, ?_⟩
      intro hstatus
      have haccounts := h.activity p
      rw [acting] at haccounts
      cases ended with
      | succeeded url =>
          simp [resultRow, OutboxResult.status, AttemptEnd.result] at hstatus
      | failed error =>
          rw [← posted_congr command]
          exact haccounts (hsameReply other command)
  | demoted =>
      refine ⟨hrow.boundary, hrow.once, ?_⟩
      intro hstatus
      simp [unknownRow] at hstatus
  | @reconciled other ended acting command =>
      refine ⟨hrow.boundary, hrow.once, ?_⟩
      intro hstatus
      have haccounts := h.activity p
      rw [acting] at haccounts
      obtain ⟨url, rfl⟩ := haccounts
      simp [resultRow, OutboxResult.status, AttemptEnd.result] at hstatus
  | @reconciledNoEffect read other acting command =>
      refine ⟨hrow.boundary, hrow.once, ?_⟩
      intro _
      have haccounts := h.activity p
      rw [acting] at haccounts
      rw [← posted_congr command]
      exact haccounts.2.2 (hsafe other read acting)

/-- A commit that posts nothing keeps the accounts. -/
theorem ReplyAccounts.evolve (h : ReplyAccounts site w) {p : P} {w' : World P}
    (hothers : ∀ q, q ≠ p → w'.activity q = w.activity q)
    (hrows : RowsEvolve site w p w'.store) (hreplies : w'.replies = w.replies)
    (hsafe : w'.store.outbox = w.store.outbox ∨ ∀ other read,
      w.activity p = .reconciling other read → SameAttempt site w other read)
    (hp : Accounts site w' (w'.activity p)) : ReplyAccounts site w' := by
  have hposted : posted site w' = posted site w := by
    funext effect
    unfold posted
    rw [hreplies]
  constructor
  · intro effect hreply hnone
    rw [hposted]
    cases hrow : w.store.outbox[effect.commandId site]? with
    | none => exact h.absent effect hreply hrow
    | some row =>
        obtain ⟨row', hrow', -⟩ := hrows.kept _ row hrow
        rw [hnone] at hrow'
        cases hrow'
  · intro effect row' hreply hrow'
    rw [hposted]
    cases hrow : w.store.outbox[effect.commandId site]? with
    | none =>
        obtain ⟨other, session, revision, hcommand, rfl⟩ := hrows.added _ row' hrow hrow'
        have hzero := h.absent effect hreply hrow
        have htype : other.effectType = .githubReply :=
          (outboxCommandId_inj hcommand).1.trans hreply
        refine ⟨?_, by omega, fun _ => hzero⟩
        simp [plannedRow, SideEffect.command, retryBoundaryFor, htype, EffectType.value]
    | some row =>
        have hold := h.row effect row hreply hrow
        rcases hsafe with hsame | hsafe
        · rw [hsame, hrow] at hrow'
          have hrow' := Option.some.inj hrow'
          exact hrow' ▸ hold
        · obtain ⟨new, hnew, hkept⟩ := hrows.kept _ row hrow
          rw [hrow'] at hnew
          have hnew := Option.some.inj hnew
          subst hnew
          rcases hkept with rfl | hchange
          · exact hold
          · exact hold.change h hreply hchange hsafe
  · intro q
    by_cases hsame : q = p
    · exact hsame ▸ hp
    · rw [hothers q hsame]
      exact (h.activity q).evolve hrows hreplies

theorem IsReply.commandId_eq {effect other : SideEffect} (hreply : IsReply effect)
    (hother : IsReply other) (hkey : effect.key site = other.key site) :
    other.commandId site = effect.commandId site := by
  have htype : other.effectType = effect.effectType := Eq.trans hother (Eq.symm hreply)
  unfold SideEffect.commandId
  rw [htype, hkey]

theorem posted_of_post {effect : SideEffect} {w' : World P}
    (hreplies : w'.replies = effect.key site :: w.replies) (other : SideEffect) :
    posted site w' other =
      posted site w other + if effect.key site = other.key site then 1 else 0 := by
  unfold posted
  rw [hreplies, List.count_cons]
  simp

theorem posted_of_post_ne {effect other : SideEffect} {w' : World P}
    (hreplies : w'.replies = effect.key site :: w.replies)
    (hne : effect.key site ≠ other.key site) : posted site w' other = posted site w other := by
  simp [posted_of_post hreplies other, hne]

/-- The row of the reply that is posted is in flight, so it admits no other call. -/
theorem RowAccounts.post {effect other : SideEffect} {row : OutboxRow} {w' : World P}
    (h : RowAccounts row (posted site w other)) (hzero : posted site w effect = 0)
    (hstatus : row.status = .inFlight) (hcommand : other.commandId site = effect.commandId site)
    (hkey : effect.key site = other.key site)
    (hreplies : w'.replies = effect.key site :: w.replies) :
    RowAccounts row (posted site w' other) := by
  have hother : posted site w other = 0 := (posted_congr hcommand).trans hzero
  have hcount := posted_of_post hreplies other
  simp only [hkey, if_true] at hcount
  refine ⟨h.boundary, by omega, fun hidle => ?_⟩
  simp [hstatus] at hidle

/-- What the other processes account for is kept by a call: they do not guard its command, and an
attempt they read of it is over. -/
theorem Accounts.post (hinv : Invariant site w) {p q : P} (hne : q ≠ p) {effect : SideEffect}
    {token : String} (hactivity : w.activity p = .guarded effect token .call)
    (hreply : IsReply effect) {w' : World P} (hstore : w'.store = w.store)
    (hreplies : w'.replies = effect.key site :: w.replies)
    (hold : Accounts site w (w.activity q)) : Accounts site w' (w.activity q) := by
  obtain ⟨row, hrow, hstatus, -⟩ : InFlightUnder w (effect.commandId site) token := by
    have hconsistent := hinv.consistent p
    rwa [hactivity] at hconsistent
  have hobserved : ∀ other read, Observed site w other read → Observed site w' other read := by
    intro other read hread
    unfold Observed
    rwa [hstore]
  have hguarded : ∀ other token', (w.activity q).guard = some (other, token') →
      IsReply other → posted site w other = 0 → posted site w' other = 0 := by
    intro other token' hguard hother hnone
    by_cases hkey : effect.key site = other.key site
    · have hq : Guards site w q (effect.commandId site) token' :=
        ⟨other, hguard, hreply.commandId_eq hother hkey⟩
      exact absurd (hinv.guards_unique hq (.guarded hactivity rfl)) hne
    · rw [posted_of_post_ne hreplies hkey]
      exact hnone
  revert hold
  cases hq : w.activity q with
  | listLatest other read => exact fun hold => ⟨hold.1, hobserved _ _ hold.2⟩
  | listViewer other read => exact fun hold => ⟨hold.1, hobserved _ _ hold.2⟩
  | reconciling other read =>
      intro hold
      obtain ⟨hother, hread, hnone⟩ := hold
      refine ⟨hother, hobserved _ _ hread, ?_⟩
      intro hattempt
      have hattempt : SameAttempt site w other read := by
        unfold SameAttempt at hattempt ⊢
        rwa [hstore] at hattempt
      by_cases hkey : effect.key site = other.key site
      · -- The command is in flight, so it has left the attempt that was read.
        obtain ⟨row', hrow', -, hquiet⟩ := hread
        have hnow := hattempt row' hrow'
        rw [hreply.commandId_eq hother hkey, hrow] at hrow'
        have hrow' := Option.some.inj hrow'
        subst hrow'
        exact absurd hstatus (hquiet hnow).2
      · rw [posted_of_post_ne hreplies hkey]
        exact hnone hattempt
  | guarded other token' phase =>
      cases phase with
      | call =>
          exact fun hold hother => hguarded other token' (by rw [hq]; rfl) hother (hold hother)
      | read => exact fun _ => trivial
      | plan => exact fun _ => trivial
      | mark => exact fun _ => trivial
  | finishing other owner ended phase =>
      cases owner with
      | none => exact id
      | some token' =>
          cases ended with
          | succeeded url => exact fun _ => trivial
          | failed error =>
              exact fun hold hother => hguarded other token' (by rw [hq]; rfl) hother (hold hother)
  | _ => exact fun _ => trivial

theorem ReplyAccounts.post (hinv : Invariant site w) (h : ReplyAccounts site w) {p : P}
    {effect : SideEffect} {token : String}
    (hactivity : w.activity p = .guarded effect token .call) (hreply : IsReply effect)
    {w' : World P} (hstore : w'.store = w.store)
    (hreplies : w'.replies = effect.key site :: w.replies)
    (hothers : ∀ q, q ≠ p → w'.activity q = w.activity q)
    (hp : Accounts site w' (w'.activity p)) : ReplyAccounts site w' := by
  have hzero : posted site w effect = 0 := by
    have haccounts := h.activity p
    rw [hactivity] at haccounts
    exact haccounts hreply
  obtain ⟨row, hrow, hstatus, -⟩ : InFlightUnder w (effect.commandId site) token := by
    have hconsistent := hinv.consistent p
    rwa [hactivity] at hconsistent
  constructor
  · intro other hother hnone
    by_cases hkey : effect.key site = other.key site
    · rw [hreply.commandId_eq hother hkey, hstore, hrow] at hnone
      cases hnone
    · rw [posted_of_post_ne hreplies hkey]
      exact h.absent other hother (hstore ▸ hnone)
  · intro other row' hother hrow'
    rw [hstore] at hrow'
    have hold := h.row other row' hother hrow'
    by_cases hkey : effect.key site = other.key site
    · have hsame := hreply.commandId_eq hother hkey
      rw [hsame, hrow] at hrow'
      have hrow' := Option.some.inj hrow'
      subst hrow'
      exact hold.post hzero hstatus hsame hkey hreplies
    · rw [posted_of_post_ne hreplies hkey]
      exact hold
  · intro q
    by_cases hsame : q = p
    · exact hsame ▸ hp
    · rw [hothers q hsame]
      exact (h.activity q).post hinv hsame hactivity hreply hstore hreplies

theorem ReplyAccounts.initial (hidle : ∀ p, w.activity p = .idle) (houtbox : w.store.outbox = ∅)
    (hreplies : w.replies = []) : ReplyAccounts site w where
  absent effect _ _ := by simp [posted, hreplies]
  row effect row _ hrow := by simp [houtbox] at hrow
  activity p := by
    rw [hidle p]
    trivial

/-- Reading back a thread shows every reply posted so far to the reader, and a command is
reconciled to no effect at the attempt that was read. -/
def ReadBackHolds (site : Site P) : TransitionSystem.StepCondition (World P) (Label P) :=
  fun w label _ =>
    match label with
    | .advance p choice =>
        match w.activity p with
        -- Nothing follows from a listing that fails, or leaves the thread out or unchecked.
        | .listViewer effect _ => ¬ choice.listingFails → choice.viewerReplyChecked →
            w.threads (site.threadId effect.itemId) ≠ [] → effect.key site ∈ w.replies →
              viewerReplied (w.threads (site.threadId effect.itemId)) (site.login p) = true
        | .reconciling effect read => SameAttempt site w effect read
        | _ => True
    | _ => True

/-- A thread that is listed with all its comments, and shows no reply of the reader, has none. -/
theorem Accounts.reconciling {choice : Choice} {effect : SideEffect} {read : OutboxRow}
    {p : P} {w' : World P} (hactivity : w.activity p = .listViewer effect read)
    (h : Accounts site w (.listViewer effect read))
    (hcondition : ReadBackHolds site w (.advance p choice) w')
    (hnever : ¬(choice.listingFails ∨ w.threads (site.threadId effect.itemId) = [] ∨
      !choice.viewerReplyChecked ∨
      viewerReplied (w.threads (site.threadId effect.itemId)) (site.login p))) :
    Accounts site w (.reconciling effect read) := by
  simp only [not_or] at hnever
  obtain ⟨hlisted, hcomments, hchecked, hunseen⟩ := hnever
  refine ⟨h.1, h.2, fun _ => List.count_eq_zero.mpr fun hmem => ?_⟩
  simp only [ReadBackHolds, hactivity] at hcondition
  exact hunseen (hcondition hlisted (by simpa using hchecked) hcomments hmem)

theorem Accounts.stateRead (effect : SideEffect) (recovered : Bool) :
    Accounts site w (stateRead site w effect recovered) := by
  unfold SideEffectExecution.stateRead
  split
  case h_1 => trivial
  case h_2 row hrow =>
      cases hstatus : row.status with
      | inFlight => cases recovered <;> trivial
      | succeeded =>
          dsimp only
          split <;> trivial
      | unknown =>
          dsimp only
          split
          case isTrue hreply =>
              exact ⟨hreply, row, hrow, le_rfl, fun _ => by simp [hstatus]⟩
          case isFalse => trivial
      | planned => trivial
      | failed => trivial

/-- What a performed call leaves as it was. -/
theorem performCall_ok [DecidableEq P] {p : P} {effect : SideEffect} {url : String} {w' : World P}
    (h : performCall site w p effect url = some w') :
    w'.store = w.store ∧ w'.activity = w.activity ∧ (IsReply effect →
      w'.replies = effect.key site :: w.replies) ∧
      (¬ IsReply effect → w'.replies = w.replies) := by
  unfold performCall at h
  split at h
  case h_1 htype =>
      unfold postReply at h
      dsimp only at h
      split at h
      case isTrue =>
          have hw' := Option.some.inj h
          subst hw'
          exact ⟨rfl, rfl, fun _ => rfl, fun hother => absurd htype hother⟩
      case isFalse => cases h
  case h_2 htype =>
      have hw' := Option.some.inj h
      subst hw'
      refine ⟨rfl, rfl, fun hreply => ?_, fun _ => rfl⟩
      rw [IsReply, htype] at hreply
      cases hreply

instance (effect : SideEffect) (read : OutboxRow) : Decidable (SameAttempt site w effect read) :=
  match h : w.store.outbox[effect.commandId site]? with
  | none => isTrue fun row hrow => by simp [h] at hrow
  | some row =>
      if hsame : row.attemptCount = read.attemptCount then
        isTrue fun other hother => by
          have heq := Option.some.inj (h.symm.trans hother)
          exact heq ▸ hsame
      else isFalse fun hall => hsame (hall row h)

instance (label : Label P) (w' : World P) : Decidable (ReadBackHolds site w label w') := by
  unfold ReadBackHolds
  cases label with
  | advance p choice =>
      dsimp only
      split <;> infer_instance
  | _ => exact instDecidableTrue

section Steps

variable [DecidableEq P] {p : P}

theorem Accounts.setActivity {activity : Activity} (h : Accounts site w activity) :
    Accounts site (w.setActivity p activity) ((w.setActivity p activity).activity p) := by
  have hself : (w.setActivity p activity).activity p = activity := Function.update_self _ _ _
  rw [hself]
  exact h.evolve (.refl p (w.setActivity p activity).store rfl) rfl

theorem Accounts.stop : Accounts site (w.stop p) ((w.stop p).activity p) := by
  have hself : (w.stop p).activity p = .idle := Function.update_self _ _ _
  rw [hself]
  trivial

theorem Accounts.commit {activity : Activity} {result : StoreResult Store}
    (h : ∀ store, result = .ok store →
      Accounts site { w.setActivity p activity with store := store } activity) :
    Accounts site (w.commit p activity result) ((w.commit p activity result).activity p) := by
  cases result with
  | error e => exact Accounts.stop
  | ok store =>
      have hself : Function.update w.activity p activity p = activity :=
        Function.update_self _ _ _
      show Accounts site { w.setActivity p activity with store := store }
        (Function.update w.activity p activity p)
      rw [hself]
      exact h store rfl

theorem Accounts.commitAndStop {result : StoreResult Store} :
    Accounts site (w.commitAndStop p result) ((w.commitAndStop p result).activity p) := by
  have hself : Function.update w.activity p .idle p = .idle := Function.update_self _ _ _
  cases result with
  | error e => exact Accounts.stop
  | ok store =>
      show Accounts site { w.stop p with store := store } (Function.update w.activity p .idle p)
      rw [hself]
      trivial

@[simp] theorem commit_replies (activity : Activity) (result : StoreResult Store) :
    (w.commit p activity result).replies = w.replies := by
  cases result <;> rfl

@[simp] theorem commitAndStop_replies (result : StoreResult Store) :
    (w.commitAndStop p result).replies = w.replies := by
  cases result <;> rfl

/-- One step inside an execution guard. -/
theorem ReplyAccounts.advanceGuarded (hinv : Invariant site w) (h : ReplyAccounts site w)
    {choice : Choice} {effect : SideEffect} {token : String} {phase : GuardPhase} {w' : World P}
    (hactivity : w.activity p = .guarded effect token phase)
    (hstep : advanceGuarded site w p choice effect token phase = some w') :
    ReplyAccounts site w' := by
  have hspec := StepSpec.advanceGuarded hinv hactivity hstep
  have hquiet : w'.replies = w.replies → Accounts site w' (w'.activity p) →
      ReplyAccounts site w' := by
    intro hreplies hp
    refine h.evolve hspec.others hspec.rows hreplies (Or.inr ?_) hp
    intro other read hother
    rw [hactivity] at hother
    cases hother
  have haccounts := h.activity p
  rw [hactivity] at haccounts
  cases phase with
  | read =>
      simp only [SideEffectExecution.advanceGuarded] at hstep
      split at hstep
      case h_1 next hbegin =>
          have hnext : next = .plan ∨ next = .mark := by
            unfold beginPhase at hbegin
            split at hbegin
            · exact Or.inl (Option.some.inj hbegin).symm
            · split at hbegin
              · exact Or.inr (Option.some.inj hbegin).symm
              · cases hbegin
          have hw' := Option.some.inj hstep
          subst hw'
          refine hquiet rfl (Accounts.setActivity ?_)
          rcases hnext with rfl | rfl <;> trivial
      case h_2 =>
          have hw' := Option.some.inj hstep
          subst hw'
          exact hquiet rfl Accounts.stop
  | plan =>
      have hw' := Option.some.inj hstep
      subst hw'
      exact hquiet (commit_replies _ _) (Accounts.commit fun store hstore => trivial)
  | mark =>
      have hw' := Option.some.inj hstep
      subst hw'
      refine hquiet (commit_replies _ _) (Accounts.commit ?_)
      intro store hstore hreply
      obtain ⟨commit, hmark⟩ := StoreResult.map_fst_ok hstore
      obtain ⟨row, hrow, henters, -⟩ := markOutboxInFlight_ok hmark
      have hrowAccounts := h.row effect row hreply hrow
      -- A reply's unknown row may not enter flight, so the row was planned or failed.
      rcases entersFlight_iff.mp henters with hplanned | hfailed | ⟨-, hidempotent⟩
      · exact hrowAccounts.unposted (Or.inl hplanned)
      · exact hrowAccounts.unposted (Or.inr hfailed)
      · rw [hrowAccounts.boundary] at hidempotent
        cases hidempotent
  | call =>
      simp only [SideEffectExecution.advanceGuarded] at hstep
      have hcall : ∀ url w₁, performCall site w p effect url = some w₁ →
          w'.store = w₁.store → w'.replies = w₁.replies → Accounts site w' (w'.activity p) →
          ReplyAccounts site w' := by
        intro url w₁ hperform hstore hreplies hp
        obtain ⟨hstore₁, -, hposts, hkeeps⟩ := performCall_ok hperform
        by_cases hreply : IsReply effect
        · exact h.post hinv hactivity hreply (hstore.trans hstore₁)
            (hreplies.trans (hposts hreply)) hspec.others hp
        · exact hquiet (hreplies.trans (hkeeps hreply)) hp
      split at hstep
      case h_1 error hend =>
          have hw' := Option.some.inj hstep
          subst hw'
          exact hquiet rfl (Accounts.setActivity haccounts)
      case h_2 url hend =>
          obtain ⟨w₁, hperform, hw'⟩ := Option.bind_eq_some_iff.mp hstep
          have hw' := Option.some.inj hw'
          subst hw'
          exact hcall url w₁ hperform rfl rfl (Accounts.setActivity trivial)
      case h_3 url hend =>
          obtain ⟨w₁, hperform, hw'⟩ := Option.bind_eq_some_iff.mp hstep
          have hw' := Option.some.inj hw'
          subst hw'
          exact hcall url w₁ hperform rfl rfl Accounts.stop

/-- The recording of a result keeps the accounts. -/
theorem ReplyAccounts.advanceFinishing (hinv : Invariant site w) (h : ReplyAccounts site w)
    {effect : SideEffect} {owner : Option String} {ended : AttemptEnd} {phase : FinishPhase}
    (hactivity : w.activity p = .finishing effect owner ended phase) :
    ReplyAccounts site (advanceFinishing site w p effect owner ended phase) := by
  have hspec := StepSpec.advanceFinishing hinv hactivity
  have haccounts := h.activity p
  have hconsistent := hinv.consistent p
  rw [hactivity] at haccounts hconsistent
  have hphase : phase = .read ∨ phase = .record := by
    cases owner with
    | none => exact hconsistent.2
    | some token => exact hconsistent.2
  have hsafe : ∀ other read, w.activity p = .reconciling other read →
      SameAttempt site w other read := by
    intro other read hother
    rw [hactivity] at hother
    cases hother
  rcases hphase with rfl | rfl
  · refine h.evolve hspec.others hspec.rows rfl (Or.inr hsafe) (Accounts.setActivity ?_)
    cases owner with
    | none => exact haccounts
    | some token => cases ended <;> exact haccounts
  · exact h.evolve hspec.others hspec.rows (commitAndStop_replies _) (Or.inr hsafe)
      Accounts.commitAndStop

/-- One step of a process, under the condition, keeps the accounts. -/
theorem ReplyAccounts.advance (hinv : Invariant site w) (h : ReplyAccounts site w)
    {choice : Choice} {w' : World P} (hstep : advance site w p choice = some w')
    (hcondition : ReadBackHolds site w (.advance p choice) w') : ReplyAccounts site w' := by
  have hspec := StepSpec.advance hinv hstep
  have hsafe : ∀ other read, w.activity p = .reconciling other read →
      SameAttempt site w other read := by
    intro other read hother
    simp only [ReadBackHolds, hother] at hcondition
    exact hcondition
  have hquiet : w'.replies = w.replies → Accounts site w' (w'.activity p) →
      ReplyAccounts site w' := by
    intro hreplies hp
    exact h.evolve hspec.others hspec.rows hreplies (Or.inr hsafe) hp
  have haccounts := h.activity p
  unfold SideEffectExecution.advance at hstep
  split at hstep
  case h_1 => cases hstep
  case h_2 resume hactivity =>
      have hw' := Option.some.inj hstep
      subst hw'
      exact hquiet rfl (Accounts.setActivity trivial)
  case h_3 resume hactivity =>
      have hw' := Option.some.inj hstep
      subst hw'
      refine hquiet rfl (Accounts.setActivity ?_)
      cases resume <;> trivial
  case h_4 dead resume hactivity =>
      have hw' := Option.some.inj hstep
      subst hw'
      exact hquiet rfl (Accounts.setActivity trivial)
  case h_5 command remaining dead resume hactivity =>
      have hw' := Option.some.inj hstep
      subst hw'
      exact hquiet rfl (Accounts.setActivity trivial)
  case h_6 dead resume hactivity =>
      have hw' := Option.some.inj hstep
      subst hw'
      refine hquiet (commit_replies _ _) (Accounts.commit fun store hstore => ?_)
      cases resume <;> trivial
  case h_7 effect recovered hactivity =>
      have hw' := Option.some.inj hstep
      subst hw'
      exact hquiet rfl (Accounts.setActivity (Accounts.stateRead effect recovered))
  case h_8 effect hactivity =>
      split at hstep <;>
      · have hw' := Option.some.inj hstep
        subst hw'
        exact hquiet rfl (Accounts.setActivity trivial)
  case h_9 effect hactivity =>
      split at hstep
      · have hw' := Option.some.inj hstep
        subst hw'
        exact hquiet rfl Accounts.stop
      · have hw' := Option.some.inj hstep
        subst hw'
        exact hquiet rfl (Accounts.setActivity trivial)
  case h_10 effect read hactivity =>
      rw [hactivity] at haccounts
      split at hstep
      · have hw' := Option.some.inj hstep
        subst hw'
        exact hquiet rfl (Accounts.setActivity haccounts)
      · split at hstep
        case h_1 url hfound =>
            have hw' := Option.some.inj hstep
            subst hw'
            exact hquiet rfl (Accounts.setActivity ⟨url, rfl⟩)
        case h_2 =>
            have hw' := Option.some.inj hstep
            subst hw'
            exact hquiet rfl (Accounts.setActivity haccounts)
  case h_11 effect read hactivity =>
      rw [hactivity] at haccounts
      dsimp only at hstep
      split at hstep
      case isTrue =>
          have hw' := Option.some.inj hstep
          subst hw'
          exact hquiet rfl Accounts.stop
      case isFalse hnever =>
          have hw' := Option.some.inj hstep
          subst hw'
          exact hquiet rfl
            (Accounts.setActivity (haccounts.reconciling hactivity hcondition hnever))
  case h_12 effect read hactivity =>
      have hw' := Option.some.inj hstep
      subst hw'
      exact hquiet (commit_replies _ _) (Accounts.commit fun store hstore => trivial)
  case h_13 effect hactivity =>
      split at hstep
      · have hw' := Option.some.inj hstep
        subst hw'
        exact hquiet rfl Accounts.stop
      · split at hstep
        · cases hstep
        · have hw' := Option.some.inj hstep
          have hself : w'.activity p = .guarded effect choice.token .read := by
            rw [← hw']
            exact Function.update_self _ _ _
          have hreplies : w'.replies = w.replies := by rw [← hw']; rfl
          exact hquiet hreplies (by rw [hself]; trivial)
  case h_14 effect token phase hactivity => exact h.advanceGuarded hinv hactivity hstep
  case h_15 effect owner ended phase hactivity =>
      rw [← Option.some.inj hstep]
      exact h.advanceFinishing hinv hactivity

/-- The executions of a session that has no side effect yet. -/
def publishing (site : Site P) : TransitionSystem (World P) (Label P) :=
  .ofNext (fun w => Initial w ∧ w.store.outbox = ∅ ∧ w.replies = []) (step site)

theorem ReplyAccounts.step (hinv : Invariant site w) (h : ReplyAccounts site w)
    {label : Label P} {w' : World P} (hstep : step site w label = some w')
    (hcondition : ReadBackHolds site w label w') : ReplyAccounts site w' := by
  have hcongr : ∀ {p} {activity : Activity}, Accounts site w activity →
      ReplyAccounts site (w.setActivity p activity) := by
    intro p activity hactivity
    refine h.evolve (fun q hne => Function.update_of_ne hne _ _) (.refl p _ rfl) rfl (Or.inl rfl)
      (Accounts.setActivity hactivity)
  cases label with
  | recover p =>
      simp only [SideEffectExecution.step] at hstep
      split at hstep
      · rw [← Option.some.inj hstep]
        exact hcongr trivial
      · cases hstep
  | publish p effect =>
      simp only [SideEffectExecution.step] at hstep
      split at hstep
      · rw [← Option.some.inj hstep]
        exact hcongr trivial
      · cases hstep
  | advance p choice => exact h.advance hinv hstep hcondition
  | stop p =>
      rw [← Option.some.inj hstep]
      exact h.evolve (fun q hne => Function.update_of_ne hne _ _) (.refl p _ rfl) rfl
        (Or.inl rfl) Accounts.stop
  | write write =>
      simp only [SideEffectExecution.step] at hstep
      split at hstep
      case h_1 store hstore =>
          have houtbox := SessionWrite.apply_outbox hstore
          rw [← Option.some.inj hstep]
          refine ⟨?_, ?_, ?_⟩
          · intro effect hreply hnone
            exact h.absent effect hreply (houtbox ▸ hnone)
          · intro effect row hreply hrow
            exact h.row effect row hreply (houtbox ▸ hrow)
          · intro p
            exact (h.activity p).evolve (.refl p store houtbox) rfl
      case h_2 => cases hstep
  | comment thread comment =>
      rw [← Option.some.inj hstep]
      exact ⟨h.absent, h.row, fun p => (h.activity p).evolve (.refl p w.store rfl) rfl⟩
  | removeComment thread index =>
      rw [← Option.some.inj hstep]
      exact ⟨h.absent, h.row, fun p => (h.activity p).evolve (.refl p w.store rfl) rfl⟩

/-- In a run whose steps meet the condition, a reply takes effect at most once. -/
theorem reply_posted_at_most_once (site : Site P)
    (h : (publishing site).ReachableUnder (ReadBackHolds site) w) (effect : SideEffect)
    (hreply : effect.effectType = .githubReply) : posted site w effect ≤ 1 := by
  have hboth : Invariant site w ∧ ReplyAccounts site w := by
    refine h.invariant (fun w => Invariant site w ∧ ReplyAccounts site w) ?_ ?_
    · intro w hinit
      obtain ⟨hinitial, houtbox, hreplies⟩ := hinit
      exact ⟨hinitial.invariant, .initial hinitial.idle houtbox hreplies⟩
    · intro w label w' hold hstep hcondition
      exact ⟨(hold.1.step hstep).1, hold.2.step hold.1 hstep hcondition⟩
  obtain ⟨-, haccounts⟩ := hboth
  cases hrow : w.store.outbox[effect.commandId site]? with
  | none =>
      have hzero := haccounts.absent effect hreply hrow
      omega
  | some row => exact (haccounts.row effect row hreply hrow).once

end Steps

theorem reviewedThread_publishing :
    (publishing twoPublishers).ReachableUnder (ReadBackHolds twoPublishers) reviewedThread :=
  .start ⟨reviewedThread_initial, rfl, rfl⟩

/-- One publisher dies before its call; another finds nothing posted, and posts. -/
def repeatedAttempt : List (Label Bool) :=
  beginReply false "first" ++ [.advance false {}, .stop false, .publish true firstReply] ++
    List.replicate 9 (.advance true {}) ++
    [.advance true {}, .advance true { token := "second" }, .advance true {}, .advance true {},
      .advance true { callEnd := .returned "https://github.test/reply" }]

/-- Between the first publisher's reading of the thread and its reconciliation, the second
one makes an attempt of its own, posts, dies and is recovered. -/
def overtakenReconciliation : List (Label Bool) :=
  beginReply false "first" ++ [.advance false {}, .stop false, .publish false firstReply] ++
    List.replicate 9 (.advance false {}) ++
    [.publish true firstReply, .advance true {}, .advance true {}, .advance true {},
      .advance true {}, .advance true { token := "second" }, .advance true {}, .advance true {},
      .advance true { callEnd := .lost "https://github.test/reply" }, .recover true] ++
    List.replicate 4 (.advance true {}) ++
    [.advance false {}, .advance false { token := "third" }, .advance false {},
      .advance false {}, .advance false { callEnd := .returned "https://github.test/again" }]

theorem publisher_runs :
    (((TransitionSystem.run
        (fun w label => (step twoPublishers w label).filter fun w' =>
          ReadBackHolds twoPublishers w label w')
        reviewedThread repeatedAttempt).filter fun w =>
          0 < posted twoPublishers w firstReply).isSome &&
      ((TransitionSystem.run (step twoPublishers) reviewedThread overtakenReconciliation).filter
        fun w => posted twoPublishers w firstReply = 2).isSome) = true := by
  decide +kernel

theorem reply_posted_at_most_once_repeatedAttempt : ∃ w,
    (publishing twoPublishers).ReachableUnder (ReadBackHolds twoPublishers) w ∧
    0 < posted twoPublishers w firstReply ∧ posted twoPublishers w firstReply ≤ 1 := by
  have hruns : ((TransitionSystem.run
      (fun w label => (step twoPublishers w label).filter fun w' =>
        ReadBackHolds twoPublishers w label w')
      reviewedThread repeatedAttempt).filter fun w =>
        0 < posted twoPublishers w firstReply).isSome = true :=
    ((Bool.and_eq_true _ _).mp publisher_runs).1
  obtain ⟨w, hw⟩ := Option.isSome_iff_exists.mp hruns
  obtain ⟨hrun, hposted⟩ := Option.filter_eq_some_iff.mp hw
  have hreach := TransitionSystem.reachableUnder_of_run _ reviewedThread_publishing hrun
  exact ⟨w, hreach, by simpa using hposted,
    reply_posted_at_most_once twoPublishers hreach firstReply rfl⟩

theorem overtakenReconciliation_posts_twice :
    ¬ ∀ w, (publishing twoPublishers).Reachable w → ∀ effect : SideEffect,
      effect.effectType = .githubReply → posted twoPublishers w effect ≤ 1 := by
  have hruns : ((TransitionSystem.run (step twoPublishers) reviewedThread
      overtakenReconciliation).filter fun w =>
        posted twoPublishers w firstReply = 2).isSome = true :=
    ((Bool.and_eq_true _ _).mp publisher_runs).2
  obtain ⟨w, hw⟩ := Option.isSome_iff_exists.mp hruns
  obtain ⟨hrun, hposted⟩ := Option.filter_eq_some_iff.mp hw
  have hreach : (publishing twoPublishers).Reachable w :=
    TransitionSystem.reachable_of_run _ (.start ⟨reviewedThread_initial, rfl, rfl⟩) hrun
  have hposted : posted twoPublishers w firstReply = 2 := by simpa using hposted
  intro hclaim
  have honce := hclaim w hreach firstReply rfl
  omega

end GhAddressCr.SideEffectExecution
