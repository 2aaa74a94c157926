import GhAddressCr.EvidenceIdentity
import GhAddressCr.OutboxTransitions
import Mathlib.Data.Fintype.EquivFin
import Mathlib.Data.Set.Finite.Lemmas

/-!
# Replies whose call raised

The call that posts a reply may raise after the reply has appeared. What the publisher records
then depends on the exception: only one that is no `GitHubError` leaves the command in flight, and
a later run finds it unknown and reads GitHub back.
-/
namespace GhAddressCr.SideEffectExecution

open RuntimeStore SideEffectOutbox PyText

/-- How running `gh` ends. A command that timed out or could not be started has a return code. -/
inductive GhCall where
  | completed (returncode : ℤ) (stdout stderr : String)
  /-- `FileNotFoundError`. -/
  | missing
  /-- Another exception, or the death of the process. -/
  | escaped

/-- What the call raises: a `GitHubError` with this text, or another exception. -/
inductive CallError where
  | github (detail : String)
  | escaped
  deriving DecidableEq

/-- `_format_graphql_errors`. -/
def formatGraphqlErrors : Value → String
  | .list errors =>
      let messages := (errors.filterMap Value.toDict?).map fun error =>
        strip (error.textOr "message" "")
      let text := "; ".intercalate (messages.filter (· ≠ ""))
      if text = "" then "GraphQL request failed." else text
  | errors => errors.text

/-- `value.get(key, {})`; `none` where an `AttributeError` escapes. -/
def getOrEmpty (value : Value) (key : String) : Option Value :=
  value.toDict?.map fun fields => (fields[key]?).getD (.dict [])

/-- The object that `post_reply` reads the url of the reply from. -/
def replyComment (payload : Value) : Option Dict := do
  let data ← getOrEmpty payload "data"
  let reply ← getOrEmpty data "addPullRequestReviewThreadReply"
  let comment ← getOrEmpty reply "comment"
  comment.toDict?

section Call

variable (loads : String → Except String Value)

/-- `json.loads(stdout or "{}")`. -/
def decodeOutput (stdout : String) : Except String Value :=
  loads (if stdout = "" then "\x7b\x7d" else stdout)

/-- `_read_json` with one attempt, as mutations have. -/
def readJson : GhCall → Except CallError Value
  | .escaped => .error .escaped
  | .missing => .error (.github "Missing GitHub CLI `gh` on PATH.")
  | .completed returncode stdout stderr =>
      if returncode ≠ 0 then
        let detail := if stderr ≠ "" then stderr else if stdout ≠ "" then stdout
          else "GitHub command failed."
        .error (.github (strip detail))
      else
        match decodeOutput loads stdout with
        | .error text => .error (.github ("GitHub response was not valid JSON: " ++ text))
        | .ok payload =>
            if (payload.field "errors").truthy then
              .error (.github (formatGraphqlErrors (payload.field "errors")))
            else .ok payload

/-- `post_reply`: the url of the reply. -/
def callPostReply (call : GhCall) : Except CallError String :=
  match readJson loads call with
  | .error error => .error error
  | .ok payload =>
      match replyComment payload with
      | none => .error .escaped
      | some comment =>
          let incomplete := CallError.github "GitHub reply response did not include comment.url."
          match comment.get "url" with
          | .str url => if strip url = "" then .error incomplete else .ok url
          | _ => .error incomplete

/-- The call ends in an exception that is no `GitHubError`: of its own, or because the answer has
something else where the comment's object belongs. -/
def EscapesGithubError : GhCall → Prop
  | .escaped => True
  | .missing => False
  | .completed returncode stdout _ => returncode = 0 ∧ ∃ payload,
      decodeOutput loads stdout = .ok payload ∧ (payload.field "errors").truthy = false ∧
        replyComment payload = none

variable {loads}

theorem callPostReply_escaped_iff {call : GhCall} :
    callPostReply loads call = .error .escaped ↔ EscapesGithubError loads call := by
  cases call with
  | escaped => exact iff_of_true rfl trivial
  | missing => exact iff_of_false (by simp [callPostReply, readJson]) (by simp [EscapesGithubError])
  | completed returncode stdout stderr =>
      unfold callPostReply readJson EscapesGithubError
      by_cases hcode : returncode = 0
      · cases hdecoded : decodeOutput loads stdout with
        | error text => simp [hcode, hdecoded]
        | ok payload =>
            cases herrors : (payload.field "errors").truthy with
            | true => simp [hcode, hdecoded, herrors]
            | false =>
                cases hcomment : replyComment payload with
                | none => simp [hcode, hdecoded, herrors, hcomment]
                | some comment =>
                    simp only [hcode, hdecoded, ne_eq, not_true_eq_false, if_false, herrors,
                      Bool.false_eq_true, hcomment]
                    refine iff_of_false ?_ (by simp [hcomment])
                    split
                    · split <;> simp
                    · simp
      · simp [hcode]

end Call

variable {P : Type} [DecidableEq P] (site : Site P)

/-- What `_execute_github_side_effect` does with an exception of the call. -/
def afterRaise (w : World P) (p : P) (effect : SideEffect) (token : String) : CallError → World P
  | .github detail => w.setActivity p (.finishing effect (some token) (.failed detail) .read)
  | .escaped => w.stop p

/-- The activity lists the thread for a command in doubt. -/
def ReadsBack (commandId : String) : Activity → Prop
  | .listLatest effect _ | .listViewer effect _ => effect.commandId site = commandId
  | _ => False

/-- The activity is about to post the reply of a command. -/
def AboutToCall (commandId : String) : Activity → Prop
  | .guarded effect _ .call => effect.commandId site = commandId
  | _ => False

/-- The worlds that these processes reach, whatever happens around them, before one of them reads
GitHub back for the command. -/
inductive UnreadRun (actors : P → Prop) (commandId : String) (start : World P) : World P → Prop
  | start : UnreadRun actors commandId start start
  | next {w w' : World P} {label : Label P} (run : UnreadRun actors commandId start w)
      (step : step site w label = some w') (acting : ∀ q, label.process = some q → actors q)
      (unread : ∀ q, actors q → ¬ ReadsBack site commandId (w'.activity q)) :
      UnreadRun actors commandId start w'

/-- The activity does nothing with the command beyond entering its guard. -/
def Quiet (commandId : String) : Activity → Prop
  | .guarded effect _ phase => effect.commandId site = commandId → phase = .read
  | .finishing effect _ _ _ | .reconciling effect _ | .listLatest effect _ | .listViewer effect _ =>
      effect.commandId site ≠ commandId
  | _ => True

/-- The command is in doubt, and these processes leave it so. -/
structure KeptOpen (actors : P → Prop) (commandId : String) (w : World P) : Prop where
  invariant : Invariant site w
  row : ∃ row, w.store.outbox[commandId]? = some row ∧
    (row.status = .inFlight ∨ row.status = .unknown) ∧ row.retryBoundary = some .reconcileOnly
  quiet : ∀ q, actors q → Quiet site commandId (w.activity q)

variable {site} {w w' : World P} {p : P} {commandId : String}

@[simp] theorem World.setActivity_activity (activity : Activity) :
    (w.setActivity p activity).activity p = activity := Function.update_self _ _ _

@[simp] theorem World.stop_activity : (w.stop p).activity p = .idle := Function.update_self _ _ _

theorem World.commit_activity (activity : Activity) (result : StoreResult Store) :
    (w.commit p activity result).activity p = activity ∨
      (w.commit p activity result).activity p = .idle := by
  cases result with
  | ok store => exact Or.inl (World.setActivity_activity _)
  | error stop => exact Or.inr World.stop_activity

theorem World.commitAndStop_activity (result : StoreResult Store) :
    (w.commitAndStop p result).activity p = .idle := by
  cases result with
  | ok store => exact World.stop_activity
  | error stop => exact World.stop_activity

theorem Quiet.commit {activity : Activity} {result : StoreResult Store}
    (h : Quiet site commandId activity) :
    Quiet site commandId ((w.commit p activity result).activity p) := by
  rcases World.commit_activity (w := w) (p := p) activity result with hsame | hidle
  · rw [hsame]
    exact h
  · rw [hidle]
    trivial

omit [DecidableEq P] in
/-- A command in doubt is not begun again. -/
theorem beginPhase_of_open {effect : SideEffect} {row : OutboxRow}
    (hrow : w.store.outbox[effect.commandId site]? = some row)
    (hopen : row.status = .inFlight ∨ row.status = .unknown)
    (hboundary : row.retryBoundary = some .reconcileOnly) : beginPhase site w effect = none := by
  have henters : entersFlight row = false := by
    unfold entersFlight
    rcases hopen with hstatus | hstatus <;> simp [hstatus, hboundary]
  unfold beginPhase
  simp only [hrow, henters, Bool.false_eq_true, if_false]

theorem quiet_advanceGuarded {choice : Choice} {effect : SideEffect} {token : String}
    {phase : GuardPhase}
    (hopen : effect.commandId site = commandId → beginPhase site w effect = none)
    (hquiet : Quiet site commandId (.guarded effect token phase))
    (h : advanceGuarded site w p choice effect token phase = some w') :
    Quiet site commandId (w'.activity p) := by
  cases phase with
  | read =>
      simp only [advanceGuarded] at h
      split at h
      · next next hnext =>
        obtain rfl := Option.some.inj h
        rw [World.setActivity_activity]
        intro hcommand
        rw [hopen hcommand] at hnext
        cases hnext
      · obtain rfl := Option.some.inj h
        rw [World.stop_activity]
        trivial
  | plan =>
      obtain rfl := Option.some.inj h
      exact Quiet.commit fun hcommand => absurd (hquiet hcommand) (by simp)
  | mark =>
      obtain rfl := Option.some.inj h
      exact Quiet.commit fun hcommand => absurd (hquiet hcommand) (by simp)
  | call =>
      have hother : effect.commandId site ≠ commandId := fun hcommand =>
        absurd (hquiet hcommand) (by simp)
      simp only [advanceGuarded] at h
      split at h
      · obtain rfl := Option.some.inj h
        rw [World.setActivity_activity]
        exact hother
      · obtain ⟨posted, -, h⟩ := Option.bind_eq_some_iff.mp h
        obtain rfl := Option.some.inj h
        rw [World.setActivity_activity]
        exact hother
      · obtain ⟨posted, -, h⟩ := Option.bind_eq_some_iff.mp h
        obtain rfl := Option.some.inj h
        rw [World.stop_activity]
        trivial

theorem quiet_advanceFinishing {effect : SideEffect} {owner : Option String} {ended : AttemptEnd}
    {phase : FinishPhase} (hother : effect.commandId site ≠ commandId) :
    Quiet site commandId ((advanceFinishing site w p effect owner ended phase).activity p) := by
  cases phase with
  | read =>
      unfold advanceFinishing
      rw [World.setActivity_activity]
      exact hother
  | plan => exact Quiet.commit hother
  | mark => exact Quiet.commit hother
  | record =>
      unfold advanceFinishing
      rw [World.commitAndStop_activity]
      trivial

omit [DecidableEq P] in
theorem quiet_afterRecovery (resume : Option SideEffect) :
    Quiet site commandId (afterRecovery resume) := by
  cases resume <;> trivial

omit [DecidableEq P] in
theorem quiet_stateRead {effect : SideEffect} {recovered : Bool} :
    ¬ ReadsBack site commandId (stateRead site w effect recovered) →
      Quiet site commandId (stateRead site w effect recovered) := by
  unfold stateRead
  split
  · exact fun _ => trivial
  · split
    · split <;> exact fun _ => trivial
    · split <;> exact fun _ => trivial
    · split
      · exact fun hunread => hunread
      · exact fun _ => trivial
    · exact fun _ => trivial
    · exact fun _ => trivial

/-- A step of a process that does not read back leaves the command alone. -/
theorem quiet_advance {choice : Choice}
    (hopen : ∃ row, w.store.outbox[commandId]? = some row ∧
      (row.status = .inFlight ∨ row.status = .unknown) ∧ row.retryBoundary = some .reconcileOnly)
    (hquiet : Quiet site commandId (w.activity p)) (h : advance site w p choice = some w')
    (hunread : ¬ ReadsBack site commandId (w'.activity p)) :
    Quiet site commandId (w'.activity p) := by
  obtain ⟨row, hrow, hstatus, hboundary⟩ := hopen
  have hbegin : ∀ effect : SideEffect, effect.commandId site = commandId →
      beginPhase site w effect = none := fun effect hcommand =>
    beginPhase_of_open (by rw [hcommand, hrow]) hstatus hboundary
  unfold SideEffectExecution.advance at h
  split at h
  case h_1 => cases h
  case h_2 resume hactivity =>
      obtain rfl := Option.some.inj h
      rw [World.setActivity_activity]
      trivial
  case h_3 resume hactivity =>
      obtain rfl := Option.some.inj h
      rw [World.setActivity_activity]
      exact quiet_afterRecovery resume
  case h_4 dead resume hactivity =>
      obtain rfl := Option.some.inj h
      rw [World.setActivity_activity]
      trivial
  case h_5 command remaining dead resume hactivity =>
      obtain rfl := Option.some.inj h
      rw [World.setActivity_activity]
      trivial
  case h_6 dead resume hactivity =>
      obtain rfl := Option.some.inj h
      exact Quiet.commit (quiet_afterRecovery resume)
  case h_7 effect recovered hactivity =>
      obtain rfl := Option.some.inj h
      rw [World.setActivity_activity] at hunread ⊢
      exact quiet_stateRead hunread
  case h_8 effect hactivity =>
      split at h
      · obtain rfl := Option.some.inj h
        rw [World.setActivity_activity]
        trivial
      · obtain rfl := Option.some.inj h
        rw [World.setActivity_activity]
        trivial
  case h_9 effect hactivity =>
      split at h
      · obtain rfl := Option.some.inj h
        rw [World.stop_activity]
        trivial
      · obtain rfl := Option.some.inj h
        rw [World.setActivity_activity]
        trivial
  case h_10 effect row hactivity =>
      rw [hactivity] at hquiet
      split at h
      · obtain rfl := Option.some.inj h
        rw [World.setActivity_activity]
        exact hquiet
      · split at h
        · obtain rfl := Option.some.inj h
          rw [World.setActivity_activity]
          exact hquiet
        · obtain rfl := Option.some.inj h
          rw [World.setActivity_activity]
          exact hquiet
  case h_11 effect row hactivity =>
      rw [hactivity] at hquiet
      dsimp only at h
      split at h
      · obtain rfl := Option.some.inj h
        rw [World.stop_activity]
        trivial
      · obtain rfl := Option.some.inj h
        rw [World.setActivity_activity]
        exact hquiet
  case h_12 effect row hactivity =>
      obtain rfl := Option.some.inj h
      exact Quiet.commit trivial
  case h_13 effect hactivity =>
      split at h
      · obtain rfl := Option.some.inj h
        rw [World.stop_activity]
        trivial
      · split at h
        · cases h
        · obtain rfl := Option.some.inj h
          have hself : Function.update w.activity p (.guarded effect choice.token .read) p =
            .guarded effect choice.token .read := Function.update_self _ _ _
          show Quiet site commandId (Function.update w.activity p _ p)
          rw [hself]
          exact fun _ => rfl
  case h_14 effect token phase hactivity =>
      rw [hactivity] at hquiet
      exact quiet_advanceGuarded (hbegin effect) hquiet h
  case h_15 effect owner ended phase hactivity =>
      rw [hactivity] at hquiet
      obtain rfl := Option.some.inj h
      exact quiet_advanceFinishing hquiet

theorem KeptOpen.next {actors : P → Prop} {label : Label P} (h : KeptOpen site actors commandId w)
    (hstep : step site w label = some w') (hacting : ∀ q, label.process = some q → actors q)
    (hunread : ∀ q, actors q → ¬ ReadsBack site commandId (w'.activity q)) :
    KeptOpen site actors commandId w' := by
  obtain ⟨hinvariant, hrows⟩ := h.invariant.step hstep
  obtain ⟨row, hrow, hstatus, hboundary⟩ := h.row
  refine ⟨hinvariant, ?_, ?_⟩
  · rcases hrows with ⟨q, hq, hevolve⟩ | hsame
    · obtain ⟨row', hrow', rfl | hchange⟩ := hevolve.kept commandId row hrow
      · exact ⟨row', hrow', hstatus, hboundary⟩
      · have hquiet := h.quiet q (hacting q hq)
        cases hchange with
        | begun acting command enters =>
            rcases enters with henters | henters | ⟨-, hidempotent⟩
            · rcases hstatus with hstatus | hstatus <;> simp [hstatus] at henters
            · rcases hstatus with hstatus | hstatus <;> simp [hstatus] at henters
            · rw [hboundary] at hidempotent
              cases hidempotent
        | finished acting command =>
            rw [acting] at hquiet
            exact absurd command hquiet
        | demoted => exact ⟨_, hrow', Or.inr rfl, hboundary⟩
        | reconciled acting command =>
            rw [acting] at hquiet
            exact absurd command hquiet
        | reconciledNoEffect acting command =>
            rw [acting] at hquiet
            exact absurd command hquiet
    · exact ⟨row, by rw [hsame, hrow], hstatus, hboundary⟩
  · intro q hq
    have hkept : w'.activity q = w.activity q → Quiet site commandId (w'.activity q) := by
      intro hsame
      rw [hsame]
      exact h.quiet q hq
    cases label with
    | recover p =>
        simp only [SideEffectExecution.step] at hstep
        split at hstep
        · obtain rfl := Option.some.inj hstep
          by_cases hp : q = p
          · rw [hp, World.setActivity_activity]
            trivial
          · exact hkept (Function.update_of_ne hp _ _)
        · cases hstep
    | publish p effect =>
        simp only [SideEffectExecution.step] at hstep
        split at hstep
        · obtain rfl := Option.some.inj hstep
          by_cases hp : q = p
          · rw [hp, World.setActivity_activity]
            trivial
          · exact hkept (Function.update_of_ne hp _ _)
        · cases hstep
    | advance p choice =>
        by_cases hp : q = p
        · rw [hp] at hq ⊢
          exact quiet_advance h.row (h.quiet p hq) hstep (hunread p hq)
        · exact hkept ((StepSpec.advance h.invariant hstep).others q hp)
    | stop p =>
        obtain rfl := Option.some.inj hstep
        by_cases hp : q = p
        · rw [hp, World.stop_activity]
          trivial
        · exact hkept (Function.update_of_ne hp _ _)
    | write write =>
        simp only [SideEffectExecution.step] at hstep
        split at hstep
        · obtain rfl := Option.some.inj hstep
          exact hkept rfl
        · cases hstep
    | comment thread comment =>
        obtain rfl := Option.some.inj hstep
        exact hkept rfl
    | removeComment thread index =>
        obtain rfl := Option.some.inj hstep
        exact hkept rfl

theorem KeptOpen.run {actors : P → Prop} {start : World P}
    (h : KeptOpen site actors commandId start) (hrun : UnreadRun site actors commandId start w) :
    KeptOpen site actors commandId w := by
  induction hrun with
  | start => exact h
  | next _ hstep hacting hunread ih => exact ih.next hstep hacting hunread

omit [DecidableEq P] in
theorem KeptOpen.not_aboutToCall {actors : P → Prop} {q : P}
    (h : KeptOpen site actors commandId w) (hq : actors q) :
    ¬ AboutToCall site commandId (w.activity q) := by
  have hquiet := h.quiet q hq
  intro hcall
  cases hactivity : w.activity q with
  | guarded effect token phase =>
      rw [hactivity] at hquiet hcall
      cases phase with
      | call => exact nomatch hquiet hcall
      | _ => exact hcall
  | _ =>
      rw [hactivity] at hcall
      exact hcall

/-- A commit of one record is made unless another record has its identifier. -/
theorem commitOutbox_exists {store : Store} (rows : Rows OutboxRow) (record : EvidenceRecord)
    (hhash : hashPayload record.payload = record.payloadHash)
    (hid : ∀ row ∈ store.evidence, row.record.recordId = record.recordId → row.record = record) :
    ∃ committed commit, commitOutbox store rows [record] = .ok (committed, commit) ∧
      committed.outbox = rows := by
  have hwritten : ∃ evidence, writeEvidenceRecord store.evidence record (store.latestRevision + 1) =
      .ok evidence := by
    have hrequired : require (hashPayload record.payload = record.payloadHash)
        (.persistenceInvalid ("Evidence record " ++ record.recordId.text ++
          " has a payload hash mismatch.")) = .ok () := require_ok.mpr hhash
    unfold writeEvidenceRecord
    simp only [hrequired]
    cases hfind : store.evidence.find? (·.record.recordId == record.recordId) with
    | none => exact ⟨_, rfl⟩
    | some existing =>
        have hsame := hid existing (List.mem_of_find?_eq_some hfind)
          (by simpa using List.find?_some hfind)
        have hrequired' : ∀ error, require (existing.record = record) error = .ok () := fun _ =>
          require_ok.mpr hsame
        simp only [hrequired']
        exact ⟨_, rfl⟩
  obtain ⟨evidence, hevidence⟩ := hwritten
  have hcommit : ∃ result, commitOutbox store rows [record] = .ok result := by
    unfold commitOutbox writeEvidence
    simp only [List.foldlM_cons, List.foldlM_nil, hevidence]
    exact ⟨_, rfl⟩
  obtain ⟨⟨committed, commit⟩, hcommit⟩ := hcommit
  obtain ⟨⟨added, hcommitted⟩, -, -⟩ := commitOutbox_ok hcommit
  exact ⟨committed, commit, hcommit, by rw [hcommitted]⟩

omit [DecidableEq P] in
/-- A failure that the row accepts is committed with its evidence. -/
theorem recordOutboxResult_of_failure {store : Store} {commandId : String} {row : OutboxRow}
    {result : OutboxResult} {evidence : List EvidenceRecord} {ownerToken : Option String}
    (hresult : result.succeeded = false) (hrow : store.outbox[commandId]? = some row)
    (haccepts : acceptsResult row ownerToken = true) :
    recordOutboxResult store commandId result evidence ownerToken =
      commitOutbox store (store.outbox.insert commandId (resultRow row result)) evidence := by
  have hrequired : ∀ error, require (result.succeeded = true →
      evidence ≠ [] ∧ result.externalResultReference.getD "" ≠ "") error = .ok () := by
    intro error
    refine require_ok.mpr ?_
    intro hsucceeded
    rw [hresult] at hsucceeded
    cases hsucceeded
  unfold recordOutboxResult
  simp only [hrequired, hrow, haccepts, if_true]
  rfl

/-- A token that was not handed out before. -/
theorem exists_fresh_token (issued : List String) : ∃ token, token ∉ issued := by
  have hinjective : Function.Injective fun n : ℕ => String.ofList (List.replicate n 'a') := by
    intro m n h
    have hlength := congrArg (fun text : String => text.toList.length) h
    simpa using hlength
  obtain ⟨token, -, hfresh⟩ :=
    (Set.infinite_range_of_injective hinjective).exists_notMem_finset issued.toFinset
  exact ⟨token, by simpa using hfresh⟩

variable (site) in
omit [DecidableEq P] in
/-- The attempt at an effect at another time is recorded under an identifier of its own. -/
theorem exists_fresh_attempt (effect : SideEffect) (evidence : List EvidenceRow) :
    ∃ timestamp, ∀ row ∈ evidence, row.record.recordId ≠
      (SideEffect.record site { effect with timestamp } .inFlight none none).recordId := by
  have hinjective : Function.Injective fun timestamp : ℤ =>
      (SideEffect.record site { effect with timestamp } .inFlight none none).recordId := by
    intro t u h
    have hdict := congrArg (Dict.get · "timestamp") (LedgerEvent.stableId_injective h)
    simpa [Dict.ofFields, Dict.get_insert] using hdict
  obtain ⟨_, ⟨timestamp, rfl⟩, hfresh⟩ :=
    (Set.infinite_range_of_injective hinjective).exists_notMem_finset
    (evidence.map (·.record.recordId)).toFinset
  refine ⟨timestamp, fun row hrow hsame => hfresh ?_⟩
  exact List.mem_toFinset.mpr (List.mem_map.mpr ⟨row, hrow, hsame⟩)

variable (site) in
/-- One process has acted alone in an unread run. -/
structure ActsAlone (actors : P → Prop) (commandId : String) (p : P) (start w : World P) :
    Prop where
  run : UnreadRun site actors commandId start w
  others : ∀ q, actors q → q ≠ p → w.activity q = .idle

section Alone

variable {actors : P → Prop} {start : World P}

theorem ActsAlone.next (label : Label P) (h : ActsAlone site actors commandId p start w)
    (hp : actors p) (hlabel : label.process = some p) (hstep : step site w label = some w')
    (hkept : ∀ q, q ≠ p → w'.activity q = w.activity q)
    (hunread : ¬ ReadsBack site commandId (w'.activity p)) :
    ActsAlone site actors commandId p start w' := by
  have hothers : ∀ q, actors q → q ≠ p → w'.activity q = .idle := fun q hq hne => by
    rw [hkept q hne, h.others q hq hne]
  refine ⟨h.run.next hstep ?_ ?_, hothers⟩
  · intro q hq
    rw [hlabel] at hq
    exact Option.some.inj hq ▸ hp
  · intro q hq
    by_cases hne : q = p
    · rwa [hne]
    · rw [hothers q hq hne]
      exact fun hread => hread

theorem ActsAlone.setActivity (label : Label P) {activity : Activity}
    (h : ActsAlone site actors commandId p start w) (hp : actors p)
    (hlabel : label.process = some p) (hstep : step site w label = some (w.setActivity p activity))
    (hunread : ¬ ReadsBack site commandId activity) :
    ActsAlone site actors commandId p start (w.setActivity p activity) :=
  h.next label hp hlabel hstep (fun _ hq => Function.update_of_ne hq _ _)
    (by rwa [World.setActivity_activity])

/-- A failed command whose lock is free is executed again without reading anything. -/
theorem ActsAlone.repost {effect : SideEffect} {row : OutboxRow}
    (h : ActsAlone site actors (effect.commandId site) p start w) (hp : actors p)
    (hidle : w.activity p = .idle) (hfree : w.locks (effect.commandId site) = none)
    (hrow : w.store.outbox[effect.commandId site]? = some row) (hfailed : row.status = .failed) :
    ∃ w', UnreadRun site actors (effect.commandId site) start w' ∧
      AboutToCall site (effect.commandId site) (w'.activity p) := by
  obtain ⟨token, hfresh⟩ := exists_fresh_token w.issued
  obtain ⟨timestamp, hrecord⟩ := exists_fresh_attempt site effect w.store.evidence
  have hcommand : ({ effect with timestamp } : SideEffect).commandId site =
    effect.commandId site := rfl
  generalize ({ effect with timestamp } : SideEffect) = again at hrecord hcommand
  have henters : entersFlight row = true := by simp [entersFlight, hfailed]
  have hread : ActsAlone site actors (effect.commandId site) p start
      (w.setActivity p (.readState again false)) :=
    h.setActivity (.publish p again) hp rfl (by simp [step, hidle]) (by simp [ReadsBack])
  have hacquire : ActsAlone site actors (effect.commandId site) p start
      ((w.setActivity p (.readState again false)).setActivity p (.acquire again)) := by
    refine hread.setActivity (.advance p {}) hp rfl ?_ (by simp [ReadsBack])
    have hstate : stateRead site (w.setActivity p (.readState again false)) again false =
        .acquire again := by
      have hsame : (w.setActivity p (.readState again false)).store.outbox[again.commandId site]? =
          some row := by rw [hcommand]; exact hrow
      unfold stateRead
      simp only [hsame, hfailed]
    simp only [step, advance, World.setActivity_activity, hstate]
  generalize hthere : (w.setActivity p (.readState again false)).setActivity p (.acquire again) =
    there at hacquire
  have hactivity : there.activity p = .acquire again := by rw [← hthere, World.setActivity_activity]
  have hstore : there.store = w.store := by rw [← hthere]; rfl
  have hlocks : there.locks (again.commandId site) = none := by
    rw [← hthere, hcommand]
    exact hfree
  have hissued : token ∉ there.issued := by
    rw [← hthere]
    exact hfresh
  let guarded : World P := { there.setActivity p (.guarded again token .read) with
    locks := Function.update there.locks (again.commandId site) (some p)
    issued := token :: there.issued }
  have hguarded : guarded.activity p = .guarded again token .read := Function.update_self _ _ _
  have hbegun : ActsAlone site actors (effect.commandId site) p start guarded := by
    refine hacquire.next (.advance p { token }) hp rfl ?_
      (fun q hq => Function.update_of_ne hq _ _) (by rw [hguarded]; exact fun hread => hread)
    simp only [step, advance, hactivity, World.lockHeld, hlocks, Option.isSome_none, Bool.or_false,
      Bool.false_eq_true, if_false, if_neg hissued]
    rfl
  have hphase : beginPhase site guarded again = some .mark := by
    have hsame : guarded.store.outbox[again.commandId site]? = some row := by
      show there.store.outbox[again.commandId site]? = some row
      rw [hstore, hcommand, hrow]
    unfold beginPhase
    simp only [hsame, henters, if_true]
  have hmark : ActsAlone site actors (effect.commandId site) p start
      (guarded.setActivity p (.guarded again token .mark)) := by
    refine hbegun.setActivity (.advance p {}) hp rfl ?_ (fun hread => hread)
    simp only [step, advance, hguarded, advanceGuarded, hphase]
  obtain ⟨committed, commit, hcommit, -⟩ := commitOutbox_exists
    (w.store.outbox.insert (again.commandId site) (inFlightRow row (some token)))
    (again.record site .inFlight none none) rfl
    (fun evidence hmem hsame => absurd hsame (hrecord evidence hmem))
  have hmarked : markOutboxInFlight w.store (again.commandId site) (some token)
      [again.record site .inFlight none none] = .ok (committed, commit) := by
    unfold markOutboxInFlight
    simp only [hcommand, hrow, henters, if_true]
    rw [hcommand] at hcommit
    exact hcommit
  let calling : World P := { (guarded.setActivity p (.guarded again token .mark)).setActivity p
    (.guarded again token .call) with store := committed }
  have hcalling : calling.activity p = .guarded again token .call := Function.update_self _ _ _
  have hcalled : ActsAlone site actors (effect.commandId site) p start calling := by
    refine hmark.next (.advance p {}) hp rfl ?_ (fun q hq => Function.update_of_ne hq _ _)
      (by rw [hcalling]; exact fun hread => hread)
    have hsame : (guarded.setActivity p (.guarded again token .mark)).store = w.store := hstore
    simp only [step, advance, World.setActivity_activity, advanceGuarded, hsame, hmarked]
    rfl
  refine ⟨calling, hcalled.run, ?_⟩
  rw [hcalling]
  exact hcommand

/-- A recorded failure leaves the command failed, its lock free and its process done. -/
theorem ActsAlone.fail {effect : SideEffect} {token detail : String}
    (h : ActsAlone site actors (effect.commandId site) p start w) (hp : actors p)
    (hactivity : w.activity p =
      .finishing effect (some token) (AttemptEnd.failed detail) .read)
    (hflight : InFlightUnder w (effect.commandId site) token)
    (hlock : w.locks (effect.commandId site) = some p)
    (hid : ∀ row ∈ w.store.evidence,
      row.record.recordId = ((AttemptEnd.failed detail).record site effect).recordId →
        row.record = (AttemptEnd.failed detail).record site effect) :
    ∃ w' row, ActsAlone site actors (effect.commandId site) p start w' ∧
      w'.activity p = .idle ∧ w'.locks (effect.commandId site) = none ∧
      w'.store.outbox[effect.commandId site]? = some row ∧ row.status = .failed := by
  obtain ⟨row, hrow, hstatus, howner⟩ := hflight
  have hphase : finishPhase site w effect = .record := by
    unfold finishPhase
    simp [hrow, hstatus]
  have hread : ActsAlone site actors (effect.commandId site) p start
      (w.setActivity p (.finishing effect (some token) (.failed detail) .record)) := by
    refine h.setActivity (.advance p {}) hp rfl ?_ (fun hread => hread)
    simp only [step, advance, hactivity, advanceFinishing, hphase]
  obtain ⟨committed, commit, hcommit, houtbox⟩ := commitOutbox_exists
    (w.store.outbox.insert (effect.commandId site)
      (resultRow row (AttemptEnd.failed detail).result))
    ((AttemptEnd.failed detail).record site effect) rfl hid
  have haccepts : acceptsResult row (some token) = true := by
    simp [acceptsResult, hstatus, howner]
  have hrecorded : recordOutboxResult w.store (effect.commandId site)
      (AttemptEnd.failed detail).result [(AttemptEnd.failed detail).record site effect]
      (some token) = .ok (committed, commit) := by
    rw [recordOutboxResult_of_failure rfl hrow haccepts, hcommit]
  let failed : World P := { (w.setActivity p
    (.finishing effect (some token) (.failed detail) .record)).stop p with store := committed }
  have hidle : failed.activity p = .idle := Function.update_self _ _ _
  refine ⟨failed, resultRow row (AttemptEnd.failed detail).result, ?_, hidle, ?_, ?_, rfl⟩
  · refine hread.next (.advance p {}) hp rfl ?_ (fun q hq => Function.update_of_ne hq _ _)
      (by rw [hidle]; exact fun hread => hread)
    have hsame : (w.setActivity p (.finishing effect (some token) (.failed detail) .record)).store =
        w.store := rfl
    simp only [step, advance, World.setActivity_activity, advanceFinishing, hsame, hrecorded]
    rfl
  · show (if w.locks (effect.commandId site) = some p then none
      else w.locks (effect.commandId site)) = none
    rw [if_pos hlock]
  · show committed.outbox[effect.commandId site]? = _
    rw [houtbox]
    exact Std.ExtTreeMap.getElem?_insert_self

end Alone

/-- The process that posted, and those that start afterwards. -/
def LaterActors (w : World P) (p q : P) : Prop := q = p ∨ w.activity q = .idle

/-- No later execution posts the reply before GitHub was read back. -/
def NeverBlindlyRetried (site : Site P) (actors : P → Prop) (effect : SideEffect) (w : World P) :
    Prop :=
  ∀ w', UnreadRun site actors (effect.commandId site) w w' →
    ∀ q, actors q → ¬ AboutToCall site (effect.commandId site) (w'.activity q)

omit [DecidableEq P] in
theorem postReply_some {effect : SideEffect} {url : String} {posted : World P}
    (h : postReply site w p effect url = some posted) :
    posted.store = w.store ∧ posted.activity = w.activity ∧ posted.locks = w.locks ∧
      posted.issued = w.issued := by
  unfold postReply at h
  simp only at h
  split at h
  · obtain rfl := Option.some.inj h
    exact ⟨rfl, rfl, rfl, rfl⟩
  · cases h

/-- The world in which a process has posted its reply, and is about to hear of it. -/
structure Posted (site : Site P) (w posted : World P) (p : P) (effect : SideEffect)
    (token : String) : Prop where
  invariant : Invariant site posted
  activity : posted.activity = w.activity
  store : posted.store = w.store
  flight : InFlightUnder posted (effect.commandId site) token
  lock : posted.locks (effect.commandId site) = some p

theorem Posted.of_reachable {posted : World P} {effect : SideEffect} {token url : String}
    (hreach : (executions site).Reachable w)
    (hactivity : w.activity p = .guarded effect token .call)
    (hposted : postReply site w p effect url = some posted) :
    Posted site w posted p effect token := by
  have hinvariant := Invariant.of_reachable hreach
  obtain ⟨hstore, hactivities, hlocks, hissued⟩ := postReply_some hposted
  have hflight : InFlightUnder w (effect.commandId site) token := by
    have hconsistent := hinvariant.consistent p
    rw [hactivity] at hconsistent
    exact hconsistent
  have hlock := (hinvariant.locked p effect token (by rw [hactivity]; rfl)).1
  refine ⟨hinvariant.congr (by rw [hstore]) hactivities hlocks hissued, hactivities, hstore, ?_, ?_⟩
  · unfold InFlightUnder
    rw [hstore]
    exact hflight
  · rw [hlocks, hlock]

/-- An exception that is no `GitHubError` leaves the command in doubt. -/
theorem Posted.keptOpen {posted : World P} {effect : SideEffect} {token : String} {row : OutboxRow}
    (h : Posted site w posted p effect token)
    (hrow : w.store.outbox[effect.commandId site]? = some row)
    (hboundary : row.retryBoundary = some .reconcileOnly) :
    KeptOpen site (LaterActors w p) (effect.commandId site) (posted.stop p) := by
  obtain ⟨read, hread, hstatus, -⟩ := h.flight
  rw [h.store] at hread
  obtain rfl := Option.some.inj (hrow.symm.trans hread)
  refine ⟨(StepSpec.stop h.invariant).1, ⟨row, ?_, Or.inl hstatus, hboundary⟩, ?_⟩
  · show posted.store.outbox[effect.commandId site]? = some row
    rw [h.store, hrow]
  · intro q hq
    by_cases hsame : q = p
    · rw [hsame, World.stop_activity]
      trivial
    · have hidle : (posted.stop p).activity q = .idle := by
        rw [← hq.resolve_left hsame, ← h.activity]
        exact Function.update_of_ne hsame _ _
      rw [hidle]
      trivial

/-- A `GitHubError` has the reply posted again, unread. -/
theorem Posted.blind_retry {posted : World P} {effect : SideEffect} {token detail : String}
    (h : Posted site w posted p effect token)
    (hid : ∀ row ∈ w.store.evidence,
      row.record.recordId = ((AttemptEnd.failed detail).record site effect).recordId →
        row.record = (AttemptEnd.failed detail).record site effect) :
    ∃ w', UnreadRun site (LaterActors w p) (effect.commandId site)
        (afterRaise posted p effect token (.github detail)) w' ∧
      AboutToCall site (effect.commandId site) (w'.activity p) := by
  have hp : LaterActors w p p := Or.inl rfl
  have hstart : ActsAlone site (LaterActors w p) (effect.commandId site) p
      (afterRaise posted p effect token (.github detail))
      (afterRaise posted p effect token (.github detail)) := by
    refine ⟨.start, ?_⟩
    intro q hq hne
    rw [← hq.resolve_left hne, ← h.activity]
    exact Function.update_of_ne hne _ _
  have hevidence : posted.store.evidence = w.store.evidence := by rw [h.store]
  obtain ⟨failed, row, hfailed, hidle, hfree, hrow, hstatus⟩ := hstart.fail hp
    (World.setActivity_activity _) h.flight h.lock
    (by
      intro row hmem
      exact hid row (hevidence ▸ hmem))
  exact hfailed.repost hp hidle hfree hrow hstatus

/-- A reply that appeared although its call raised is not posted again unread exactly when the
exception was no `GitHubError`. -/
theorem ambiguous_reply_kept_open_iff (site : Site P) {w posted : World P} {p : P}
    {effect : SideEffect} {token url : String} {row : OutboxRow}
    (loads : String → Except String Value) (call : GhCall) {error : CallError}
    (hreach : (executions site).Reachable w)
    (hactivity : w.activity p = .guarded effect token .call)
    (hrow : w.store.outbox[effect.commandId site]? = some row)
    (hboundary : row.retryBoundary = some .reconcileOnly)
    (hposted : postReply site w p effect url = some posted)
    (hraised : callPostReply loads call = .error error)
    (hid : ∀ detail, error = .github detail → ∀ row ∈ w.store.evidence,
      row.record.recordId = ((AttemptEnd.failed detail).record site effect).recordId →
        row.record = (AttemptEnd.failed detail).record site effect) :
    NeverBlindlyRetried site (LaterActors w p) effect
        (afterRaise posted p effect token error) ↔
      EscapesGithubError loads call := by
  have hworld := Posted.of_reachable hreach hactivity hposted
  rw [← callPostReply_escaped_iff, hraised]
  cases error with
  | escaped =>
      refine iff_of_true ?_ rfl
      intro w' hrun q hq
      exact ((hworld.keptOpen hrow hboundary).run hrun).not_aboutToCall hq
  | github detail =>
      refine iff_of_false ?_ (by simp)
      intro hnever
      obtain ⟨w', hrun, hcalls⟩ := hworld.blind_retry (hid detail rfl)
      exact hnever w' hrun p (Or.inl rfl) hcalls

/-- An answer whose comment is null. -/
def nullComment : String :=
  "\x7b\"data\": \x7b\"addPullRequestReviewThreadReply\": \x7b\"comment\": null\x7d\x7d\x7d"

def nullCommentPayload : Value :=
  .dict [("data", .dict [("addPullRequestReviewThreadReply", .dict [("comment", .null)])])]

/-- `json.loads` on that answer; every other text is rejected. -/
def loadsNullComment (text : String) : Except String Value :=
  if text = nullComment then .ok nullCommentPayload
  else .error "Expecting value: line 1 column 1 (char 0)"

/-- `run_cmd` on a reply that GitHub did not answer in time. -/
def timedOut : GhCall := .completed 124 "" "\nCommand timed out after 60.0 seconds."

/-- The first publisher, about to post its reply. -/
def firstCall : Option (World Bool) :=
  TransitionSystem.run (step twoPublishers) reviewedThread
    (beginReply false "first" ++ [.advance false {}])

/-- What the first publisher's world satisfies before its call. -/
def ReadyToPost (w : World Bool) : Bool :=
  w.activity false == .guarded firstReply "first" .call &&
    (w.store.outbox[firstReply.commandId twoPublishers]?).any
      (·.retryBoundary == some .reconcileOnly) &&
    (postReply twoPublishers w false firstReply "https://github.test/reply").isSome &&
    w.store.evidence.all fun row => row.record.recordId !=
      ((AttemptEnd.failed "Command timed out after 60.0 seconds.").record twoPublishers
        firstReply).recordId

theorem firstCall_readyToPost : firstCall.any ReadyToPost = true := by
  decide +kernel

/-- The first publisher's world before its call, and after its reply appeared. -/
theorem exists_firstCall : ∃ (w posted : World Bool) (row : OutboxRow),
    (executions twoPublishers).Reachable w ∧
      w.activity false = .guarded firstReply "first" .call ∧
      w.store.outbox[firstReply.commandId twoPublishers]? = some row ∧
      row.retryBoundary = some .reconcileOnly ∧
      postReply twoPublishers w false firstReply "https://github.test/reply" = some posted ∧
      ∀ row ∈ w.store.evidence, row.record.recordId ≠
        ((AttemptEnd.failed "Command timed out after 60.0 seconds.").record twoPublishers
          firstReply).recordId := by
  obtain ⟨w, hrun, hready⟩ := (Option.any_eq_true _ _).mp firstCall_readyToPost
  simp only [ReadyToPost, Bool.and_eq_true, beq_iff_eq, List.all_eq_true, bne_iff_ne] at hready
  obtain ⟨⟨⟨hactivity, hrow⟩, hposted⟩, hfresh⟩ := hready
  obtain ⟨row, hrow, hboundary⟩ := (Option.any_eq_true _ _).mp hrow
  obtain ⟨posted, hposted⟩ := Option.isSome_iff_exists.mp hposted
  exact ⟨w, posted, row, TransitionSystem.reachable_of_run _ (.start reviewedThread_initial) hrun,
    hactivity, hrow, by simpa using hboundary, hposted, hfresh⟩

theorem reply_without_comment_kept_open : ∃ w posted : World Bool,
    postReply twoPublishers w false firstReply "https://github.test/reply" = some posted ∧
      NeverBlindlyRetried twoPublishers (LaterActors w false) firstReply
        (afterRaise posted false firstReply "first" .escaped) := by
  obtain ⟨w, posted, row, hreach, hactivity, hrow, hboundary, hposted, -⟩ := exists_firstCall
  have hescapes : EscapesGithubError loadsNullComment (.completed 0 nullComment "") := by
    refine ⟨rfl, nullCommentPayload, ?_, ?_, ?_⟩ <;> decide +kernel
  have hraised : callPostReply loadsNullComment (.completed 0 nullComment "") = .error .escaped :=
    callPostReply_escaped_iff.mpr hescapes
  exact ⟨w, posted, hposted, (ambiguous_reply_kept_open_iff twoPublishers loadsNullComment
    (.completed 0 nullComment "") hreach hactivity hrow hboundary hposted hraised
    (by simp)).mpr hescapes⟩

/-- The reply appeared before the command timed out, and the next run posts it again. -/
theorem timed_out_reply_posted_again : ∃ w posted : World Bool,
    (executions twoPublishers).Reachable w ∧
      w.activity false = .guarded firstReply "first" .call ∧
      postReply twoPublishers w false firstReply "https://github.test/reply" = some posted ∧
      callPostReply loadsNullComment timedOut =
        .error (.github "Command timed out after 60.0 seconds.") ∧
      ¬ NeverBlindlyRetried twoPublishers (LaterActors w false) firstReply
        (afterRaise posted false firstReply "first"
          (.github "Command timed out after 60.0 seconds.")) := by
  obtain ⟨w, posted, row, hreach, hactivity, -, -, hposted, hfresh⟩ := exists_firstCall
  refine ⟨w, posted, hreach, hactivity, hposted, by decide +kernel, ?_⟩
  intro hnever
  obtain ⟨w', hrun, hcalls⟩ := (Posted.of_reachable hreach hactivity hposted).blind_retry
    fun row hrow hsame => absurd hsame (hfresh row hrow)
  exact hnever w' hrun false (Or.inl rfl) hcalls

end GhAddressCr.SideEffectExecution
