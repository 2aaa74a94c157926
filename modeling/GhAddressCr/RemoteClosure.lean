import GhAddressCr.RestingCommands

/-!
# Remote closure

A thread that is observed resolved is closed, and so is a finding that a sync misses, whoever
holds them. Beside a run of commands stands what was observed: the items closed in these ways,
and not observed unresolved, reported or reopened since. An item that was at rest when it was
closed stays closed. Where a lease is on it, the projection of claims overwrites its state,
and the end of the lease opens it.
-/
namespace GhAddressCr

open PyText GithubThreadState RuntimeStore

/-- An item whose state is terminal needs nothing more. -/
theorem Settled.of_terminal {item : Dict} {state : String}
    (hstate : lower (item.textOr "state" "") = state)
    (hterminal : state ∈ githubThreadTerminalStates) : Settled item := by
  have hwords : ∀ word ∈ githubThreadTerminalStates, word ∉ githubThreadClaimableStates ∧
      word ≠ "publish_ready" ∧ word ≠ "claimed" ∧ word ≠ "" := by decide +kernel
  have hsolid : ∀ word ∈ githubThreadTerminalStates,
      (word.toList.all fun c => !isSpace c) = true := by decide +kernel
  obtain ⟨hclaimable, hready, hclaimed, hnonempty⟩ := hwords state hterminal
  have hblanks : ∀ c ∈ state.toList, isSpace c = false := by
    simpa using hsolid state hterminal
  have htruthy : (item.get "state").truthy = true := by
    by_contra hfalse
    have hempty := Dict.textOr_eq_empty.mpr (Bool.not_eq_true _ ▸ hfalse)
    rw [hempty] at hstate
    exact hnonempty hstate.symm
  have hnormalized : normalizedThreadState item = state := by
    unfold normalizedThreadState
    rw [strip_eq_self_of_lower (by rw [hstate]; exact hblanks), hstate]
    simp [hnonempty]
  have htext : lower (item.get "state").text = state := by
    rw [← Dict.textOr_of_truthy "" htruthy, hstate]
  refine ⟨?_, ?_, ?_⟩
  · have hthread : isClaimableGithubThread item = false := by
      simp [isClaimableGithubThread, hnormalized, hnonempty, hclaimable]
    have hlocal : lower ((item.get "state").orElse
        ((item.get "status").orElse (.str "open"))).text = state := by
      rw [Value.orElse, if_pos htruthy, htext]
    unfold itemIsOpen
    rw [hthread, hlocal]
    simp [hclaimable]
  · unfold isPublishReady
    rw [hstate]
    simp [hready]
  · intro hget
    rw [hget] at htext
    exact hclaimed (htext.symm.trans (by decide))

theorem resolvedState_terminal (item : Dict) :
    lower ((resolvedState item).orElse (.str "")).text ∈ githubThreadTerminalStates := by
  unfold resolvedState
  simp only
  split
  · next hcontains => exact List.contains_iff_mem.mp hcontains
  · decide

theorem get_state_applyViewerReplyEvidence (thread item : Dict) (currentLogin : Option String) :
    (applyViewerReplyEvidence thread item currentLogin).get "state" = item.get "state" := by
  unfold applyViewerReplyEvidence
  simp only
  split <;> simp

/-- A resolved thread is closed whatever state its item is in. -/
theorem mergeSingleRemoteThread_settled {thread : Dict} (hresolved : threadIsResolved thread = true)
    (threadId : String) (existing : Option Dict) (currentLogin : Option String) :
    Settled (mergeSingleRemoteThread thread threadId existing currentLogin) := by
  refine Settled.of_terminal rfl ?_
  unfold Dict.textOr mergeSingleRemoteThread
  simp only [get_state_applyViewerReplyEvidence, determineMergedThreadState, hresolved, if_true]
  simp only [Dict.get_set, String.reduceEq, if_false, if_true]
  exact resolvedState_terminal _

theorem syncClosedItem_settled (now : Int) (item : Dict) : Settled (syncClosedItem now item) := by
  have hstate : lower ((syncClosedItem now item).textOr "state" "") = "closed" := by
    have hget : (syncClosedItem now item).get "state" = .str "closed" := by simp [syncClosedItem]
    rw [Dict.textOr, hget]
    decide
  exact .of_terminal hstate (by decide)

/-- The closed items once a thread is observed. -/
def observeThread (closed : List String) (thread : Dict) : List String :=
  match threadItemId? thread with
  | none => closed
  | some id => if threadIsResolved thread then id :: closed else closed.filter (· ≠ id)

/-- The findings of a source that a sync misses. -/
def missingItems (s : Session) (source : String) (incoming : List String) : List String :=
  (s.items.toList.filter fun row => isMissing source incoming row.1 row.2).map (·.1)

/-- The closed items once a write is made. -/
def SessionOp.closedAfter (s : Session) (closed : List String) : SessionOp → List String
  | .refresh threads _ => threads.foldl observeThread closed
  | .ingest findings source sync _ =>
      let incoming := findings.map (·.itemId)
      let reported := closed.filter (!incoming.contains ·)
      if sync then missingItems s source incoming ++ reported else reported
  | .reopen itemId _ => closed.filter (· ≠ itemId)
  | _ => closed

theorem mem_missingItems {s : Session} {source : String} {incoming : List String} {id : String} :
    id ∈ missingItems s source incoming ↔
      (s.items[id]?).any (isMissing source incoming id) = true := by
  unfold missingItems
  rw [List.mem_map]
  constructor
  · rintro ⟨row, hrow, rfl⟩
    obtain ⟨hmem, hmissing⟩ := List.mem_filter.mp hrow
    rw [Std.ExtTreeMap.mem_toList_iff_getElem?_eq_some.mp hmem]
    exact hmissing
  · intro h
    obtain ⟨item, hitem, hmissing⟩ := (Option.any_eq_true _ _).mp h
    exact ⟨(id, item), List.mem_filter.mpr
      ⟨Std.ExtTreeMap.mem_toList_iff_getElem?_eq_some.mpr hitem, hmissing⟩, rfl⟩

/-- An item is closed by the last thread observed of it. -/
theorem refresh_atRest (currentLogin : Option String) (threads : List Dict) {s : Session}
    {closed : List String} {id : String} (hunheld : Unheld s id)
    (hclosed : id ∈ closed → AtRest s id) (h : id ∈ threads.foldl observeThread closed) :
    AtRest (sessionWithRemoteThreads s threads currentLogin) id := by
  unfold sessionWithRemoteThreads
  induction threads generalizing s closed with
  | nil => exact hclosed h
  | cons thread threads ih =>
      let merged : Session := { s with items := mergeRemoteThread currentLogin s.items thread }
      refine @ih merged (observeThread closed thread) hunheld (fun hmem => ⟨hunheld, ?_⟩) h
      intro item hitem
      have hmerged : (mergeRemoteThread currentLogin s.items thread)[id]? = some item := hitem
      unfold observeThread threadItemId? at hmem
      unfold mergeRemoteThread at hmerged
      cases hthread : given? (threadIdentifier thread) with
      | none =>
          simp only [hthread] at hmem hmerged
          exact (hclosed hmem).settled item hmerged
      | some threadId =>
          simp only [hthread, Option.map_some] at hmem hmerged
          rw [Std.ExtTreeMap.getElem?_insert] at hmerged
          split at hmerged
          · next hsame =>
            obtain rfl := Option.some.inj hmerged
            have hid : "github-thread:" ++ threadId = id := Std.compare_eq_iff_eq.mp hsame
            split at hmem
            · next hresolved => exact mergeSingleRemoteThread_settled hresolved _ _ _
            · simp [hid] at hmem
          · next hother =>
            have hne : id ≠ "github-thread:" ++ threadId := fun hid =>
              hother (Std.compare_eq_iff_eq.mpr hid.symm)
            refine (hclosed ?_).settled item hmerged
            split at hmem
            · exact (List.mem_cons.mp hmem).resolve_left hne
            · exact (List.mem_filter.mp hmem).1

/-- An item that a sync misses is closed. -/
theorem ingest_closes {s : Session} {findings : List LocalFinding} {source id : String}
    (now : Int)
    (hmissing : (s.items[id]?).any (isMissing source (findings.map (·.itemId)) id) = true)
    {closed : Dict}
    (hclosed : (ingestNativeFindings s findings source true now).items[id]? = some closed) :
    ∃ item, closed = syncClosedItem now item := by
  obtain ⟨item, hitem, hmiss⟩ := (Option.any_eq_true _ _).mp hmissing
  have hincoming : id ∉ findings.map (·.itemId) := by
    have hnot := (Bool.and_eq_true _ _).mp hmiss |>.2
    simpa using hnot
  obtain ⟨-, hkept⟩ := ingestFindings_items findings source now s.items
  simp only [ingestNativeFindings, if_true, Std.ExtTreeMap.getElem?_map, hkept id hincoming,
    hitem, Option.map_some, hmiss, Option.some.injEq] at hclosed
  exact ⟨item, hclosed.symm⟩

namespace CommandRun

variable {P : Type} [DecidableEq P]

/-- A run of commands, and the items closed in it. -/
structure ObservedRun (P : Type) where
  run : CommandRun P
  closed : List String

/-- The closed items once a step is made. -/
def ObservedRun.closedAfter (observed : ObservedRun P) : CommandLabel P → List String
  | .perform op => op.closedAfter observed.run.session observed.closed
  | _ => observed.closed

def ObservedRun.next (observed : ObservedRun P) (label : CommandLabel P) :
    Option (ObservedRun P) :=
  (observed.run.next label).map fun run => ⟨run, observed.closedAfter label⟩

/-- The runs of commands from a fresh session, in which nothing was observed. -/
def observedRuns : TransitionSystem (ObservedRun P) (CommandLabel P) :=
  .ofNext (fun observed => IsFresh observed.run.session ∧
    observed.run.activity = (fun _ => .idle) ∧ observed.closed = []) ObservedRun.next

/-- An item is closed only when no lease is on it, and is left alone as long as it is closed. -/
def LeavesClosed : TransitionSystem.StepCondition (ObservedRun P) (CommandLabel P) :=
  fun observed label _ => ∀ id ∈ observed.closedAfter label,
    Unheld observed.run.session id ∧ ¬ observed.run.Reclaims label id

omit [DecidableEq P] in
/-- A closed item that a step leaves alone was closed before, unless a sync has just missed it. -/
theorem closed_before {observed : ObservedRun P} {label : CommandLabel P} {id : String}
    (hrefresh : ∀ threads login, label ≠ .perform (.refresh threads login))
    (hid : id ∈ observed.closedAfter label) (hleft : ¬ observed.run.Reclaims label id) :
    (∃ findings source now, label = .perform (.ingest findings source true now) ∧
        (observed.run.session.items[id]?).any
          (isMissing source (findings.map (·.itemId)) id) = true) ∨
      id ∈ observed.closed ∧ ¬ observed.run.Disturbs label id := by
  cases label with
  | perform op =>
      cases op with
      | claim pending => exact Or.inr ⟨hid, hleft⟩
      | reject submission => exact Or.inr ⟨hid, hleft⟩
      | refresh threads login => exact absurd rfl (hrefresh threads login)
      | reopen itemId now =>
          obtain ⟨hclosed, hother⟩ := List.mem_filter.mp hid
          exact Or.inr ⟨hclosed, fun hsame : itemId = id => by simp [hsame] at hother⟩
      | ingest findings source sync now =>
          simp only [ObservedRun.closedAfter, SessionOp.closedAfter] at hid
          have hreported : ∀ {closed : List String},
              id ∈ closed.filter (!(findings.map (·.itemId)).contains ·) →
                id ∈ closed ∧ id ∉ findings.map (·.itemId) := by
            intro closed hmem
            obtain ⟨hclosed, hother⟩ := List.mem_filter.mp hmem
            exact ⟨hclosed, by simpa using hother⟩
          cases sync with
          | true =>
              rw [if_pos rfl, List.mem_append, mem_missingItems] at hid
              by_cases hmissing : (observed.run.session.items[id]?).any
                  (isMissing source (findings.map (·.itemId)) id) = true
              · exact Or.inl ⟨findings, source, now, rfl, hmissing⟩
              · obtain ⟨hclosed, hother⟩ := hreported (hid.resolve_left hmissing)
                exact Or.inr ⟨hclosed, not_or.mpr ⟨hother, fun h => hmissing h.2⟩⟩
          | false =>
              obtain ⟨hclosed, hother⟩ := hreported hid
              exact Or.inr ⟨hclosed, not_or.mpr ⟨hother, fun h => Bool.false_ne_true h.1⟩⟩
      | _ => exact Or.inr ⟨hid, fun h => h⟩
  | claimOneShot p pending => exact Or.inr ⟨hid, hleft⟩
  | compensate p => exact Or.inr ⟨hid, hleft⟩
  | _ => exact Or.inr ⟨hid, fun h => h⟩

/-- The closed items are at rest. -/
structure ClosureInvariant (observed : ObservedRun P) : Prop where
  leasesKeyed : LeasesKeyed observed.run.session
  itemsKeyed : ItemsKeyed observed.run.session
  closed : ∀ id ∈ observed.closed, AtRest observed.run.session id

omit [DecidableEq P] in
/-- What a step writes leaves the closed items at rest, and puts those it closes to rest. -/
theorem Writes.closed_atRest {observed : ObservedRun P} {label : CommandLabel P}
    {session : Session} {id : String} (hinv : ClosureInvariant observed)
    (hwrites : Writes observed.run label session) (hid : id ∈ observed.closedAfter label)
    (hunheld : Unheld observed.run.session id) (hleft : ¬ observed.run.Reclaims label id) :
    AtRest session id := by
  by_cases hrefresh : ∃ threads login, label = .perform (.refresh threads login)
  · obtain ⟨threads, login, rfl⟩ := hrefresh
    cases hwrites with
    | perform _ _ _ happly =>
        obtain rfl := Option.some.inj happly
        exact refresh_atRest login threads hunheld (hinv.closed id) hid
  · rcases closed_before (fun threads login h => hrefresh ⟨threads, login, h⟩) hid hleft with
      ⟨findings, source, now, rfl, hmissing⟩ | ⟨hclosed, hundisturbed⟩
    · cases hwrites with
      | perform _ _ _ happly =>
          obtain rfl := Option.some.inj happly
          refine ⟨hunheld, fun after hafter => ?_⟩
          obtain ⟨item, rfl⟩ := ingest_closes now hmissing hafter
          exact syncClosedItem_settled now item
    · obtain ⟨hunheld', hstays⟩ := (hwrites.orderly hinv.leasesKeyed hinv.itemsKeyed).2 id
        hundisturbed (hinv.closed id hclosed)
      exact hstays.atRest (hinv.closed id hclosed) hunheld'

theorem ClosureInvariant.next {observed after : ObservedRun P} {label : CommandLabel P}
    (hinv : ClosureInvariant observed) (h : observed.next label = some after)
    (hleaves : LeavesClosed observed label after) : ClosureInvariant after := by
  obtain ⟨run, hrun, rfl⟩ := Option.map_eq_some_iff.mp h
  refine ⟨next_leasesKeyed hinv.leasesKeyed hrun,
    (next_orderly hinv.leasesKeyed hrun hinv.itemsKeyed).1, fun id hid => ?_⟩
  obtain ⟨hunheld, hleft⟩ := hleaves id hid
  rcases next_writes hrun with ⟨hsame, hnone⟩ | ⟨session, hwrites, hview⟩
  · rcases closed_before (fun threads login => hnone _) hid hleft with
      ⟨findings, source, now, hlabel, -⟩ | ⟨hclosed, -⟩
    · exact absurd hlabel (hnone _)
    · rw [hsame]
      exact hinv.closed id hclosed
  · have hrest := hwrites.closed_atRest hinv hid hunheld hleft
    have hkeyed := (hwrites.orderly hinv.leasesKeyed hinv.itemsKeyed).1
    obtain ⟨hunheld', hstays⟩ := (committedView_letsRest hview hkeyed).2 id (fun h => h) hrest
    exact hstays.atRest hrest hunheld'

/-- A command may claim the item once nobody holds it. -/
def Claimable (s : Session) (id : String) : Prop :=
  ∃ item, s.items[id]? = some item ∧ itemIsOpen item = true

/-- Where every item is at rest when it is closed and no step goes back to it, no closed item is
made claimable again, whichever leases end. -/
theorem closure_survives {observed : ObservedRun P}
    (h : observedRuns.ReachableUnder LeavesClosed observed) {id : String}
    (hid : id ∈ observed.closed) : ¬ Claimable observed.run.session id := by
  have hinv : ClosureInvariant observed := by
    refine h.invariant ClosureInvariant ?_ fun before label after hbefore hstep hleaves =>
      hbefore.next hstep hleaves
    rintro start ⟨hfresh, -, hnone⟩
    refine ⟨hfresh.audited.1, hfresh.itemsKeyed, fun id hclosed => ?_⟩
    · rw [hnone] at hclosed
      cases hclosed
  rintro ⟨item, hitem, hopen⟩
  rw [((hinv.closed id hid).settled item hitem).notOpen] at hopen
  cases hopen

def newObservedRun (P : Type) : ObservedRun P := ⟨newRun P, []⟩

def resolvedThread : Dict := reviewThread.set "isResolved" (.bool true)

def lintFinding : LocalFinding where
  itemId := "local-finding:1"
  title := "Unused import"
  path := "a.py"
  line := 3
  body := "Remove it."
  optional := (none, none, none, none, none)

/-- Long after a lease of an hour was granted. -/
def muchLater : Int := 7200 * 1000000

instance (s : Session) (id : String) : Decidable (Unheld s id) :=
  decidable_of_iff (∀ row ∈ s.leases.toList, row.2.isActive = true → row.2.itemId ≠ id) (by
    simp [Unheld, Std.ExtTreeMap.mem_toList_iff_getElem?_eq_some])

instance (run : CommandRun P) (label : CommandLabel P) (id : String) :
    Decidable (run.Reclaims label id) := by
  -- By the cases alone: `split` would put equations of labels into the instance.
  induction label using CommandLabel.casesOn with
  | perform op => induction op using SessionOp.casesOn <;> unfold Reclaims <;> infer_instance
  | compensate p =>
      dsimp only [Reclaims]
      generalize run.activity p = activity
      induction activity using Activity.casesOn <;> infer_instance
  | _ => unfold Reclaims; infer_instance

instance (observed after : ObservedRun P) (label : CommandLabel P) :
    Decidable (LeavesClosed observed label after) :=
  inferInstanceAs (Decidable (∀ id ∈ observed.closedAfter label,
    Unheld observed.run.session id ∧ ¬ observed.run.Reclaims label id))

/-- A sync misses a finding while a batch holds a thread, and the lease of the batch runs out. -/
theorem closure_survives_missedFinding : ∃ observed : ObservedRun Unit,
    Claimable observed.run.session "github-thread:T" ∧ "local-finding:1" ∈ observed.closed ∧
      ¬ Claimable observed.run.session "local-finding:1" := by
  have hrun : (TransitionSystem.run (fun observed label => (ObservedRun.next observed label).filter
      fun after => LeavesClosed observed label after) (newObservedRun Unit)
      [.perform (.refresh [reviewThread] none), .perform (.ingest [lintFinding] "lint" false 0),
        .claimBatch () (batchArgs "1"), .perform (.ingest [] "lint" true 1),
        .perform (.reclaim muchLater)]).any (fun observed =>
          (observed.run.session.items["github-thread:T"]?).any itemIsOpen &&
            observed.closed.contains "local-finding:1") = true := by decide +kernel
  obtain ⟨observed, hreached, hends⟩ := (Option.any_eq_true _ _).mp hrun
  obtain ⟨hopen, hclosed⟩ := (Bool.and_eq_true _ _).mp hends
  have hmem : "local-finding:1" ∈ observed.closed := List.contains_iff_mem.mp hclosed
  refine ⟨observed, (Option.any_eq_true _ _).mp hopen, hmem, closure_survives
    (TransitionSystem.reachableUnder_of_run _ (.start ⟨newRun_fresh.1, rfl, rfl⟩) hreached) hmem⟩

/-- A thread is resolved while a batch holds it, and the end of the lease opens it. -/
theorem closure_survives_leasedThread : ∃ (observed : ObservedRun Unit) (id : String),
    observedRuns.Reachable observed ∧ id ∈ observed.closed ∧
      Claimable observed.run.session id := by
  have hrun : (TransitionSystem.run ObservedRun.next (newObservedRun Unit)
      [.perform (.refresh [reviewThread] none), .claimBatch () (batchArgs "1"),
        .perform (.refresh [resolvedThread] none), .perform (.reclaim muchLater)]).any
        (fun observed => observed.closed.contains "github-thread:T" &&
          (observed.run.session.items["github-thread:T"]?).any itemIsOpen) = true := by
    decide +kernel
  obtain ⟨observed, hreached, hends⟩ := (Option.any_eq_true _ _).mp hrun
  obtain ⟨hclosed, hopen⟩ := (Bool.and_eq_true _ _).mp hends
  exact ⟨observed, "github-thread:T", TransitionSystem.reachable_of_run _
    (.start ⟨newRun_fresh.1, rfl, rfl⟩) hreached, List.contains_iff_mem.mp hclosed,
    (Option.any_eq_true _ _).mp hopen⟩

end CommandRun
end GhAddressCr
