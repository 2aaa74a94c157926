import GhAddressCr.RemoteClosure

/-!
# Answered findings

An accepted response on a local finding marks it handled and lifts its block. The final gate
asks for evidence only where the state of the finding is terminal in its own vocabulary, which
has no word for the states that clarifying, deferring and rejecting leave behind.
-/
namespace GhAddressCr

open PyText GithubThreadState RuntimeStore

/-- An active lease on the item ends, and of the items that one alone is rewritten. -/
structure AcceptsOn (s s' : Session) (itemId : String) (f : Dict → Dict) : Prop where
  ended : ∃ (leaseId : String) (held ended : Lease),
    s.leases[leaseId]? = some held ∧ held.isActive = true ∧ held.itemId = itemId ∧
      s'.leases[leaseId]? = some ended ∧ ended.isActive = false
  claims : NoNewClaims s s'
  items : ∀ id : String,
    s'.items[id]? = if id = itemId then (s.items[id]?).map f else s.items[id]?

/-- No other lease is on the item, so none is left. -/
theorem AcceptsOn.unheld {s s' : Session} {itemId : String} {f : Dict → Dict}
    (h : AcceptsOn s s' itemId f) (hone : (activeItemIds s.leases).Nodup) : Unheld s' itemId := by
  obtain ⟨leaseId, held, ended, hheld, hactive, hon, hended, hinactive⟩ := h.ended
  intro key lease' hlease' hactive' hitem
  obtain ⟨lease, hlease, hleaseActive, hterms⟩ := h.claims key lease' hlease' hactive'
  have hsame : lease'.itemId = lease.itemId := congrArg (·.1) hterms
  have hkey : key = leaseId := nodup_activeItemIds.mp hone key leaseId lease held hlease hheld
    hleaseActive hactive (by rw [← hsame, hitem, hon])
  subst hkey
  rw [hended] at hlease'
  obtain rfl := Option.some.inj hlease'
  rw [hinactive] at hactive'
  cases hactive'

theorem submitLease_items {s s' : Session} {leaseId : String} {args : SubmitArgs} {lease : Lease}
    (h : submitLease s leaseId args = (s', .ok lease)) : s'.items = s.items := by
  unfold submitLease at h
  split at h
  · simp at h
  · repeat' split at h
    all_goals simp only [raiseSubmissionError, Prod.mk.injEq, reduceCtorEq, and_false,
      Except.ok.injEq] at h
    rw [← h.1]
    rfl

theorem acceptLease_ended {s s' : Session} {leaseId : String} {now : Int} {lease : Lease}
    (h : acceptLease s leaseId now = (s', .ok lease)) :
    s'.leases[leaseId]? = some lease ∧ lease.isActive = false := by
  unfold acceptLease at h
  split at h
  · simp at h
  · split at h
    · simp at h
    · obtain ⟨rfl, haccepted⟩ := Prod.mk.inj h
      obtain rfl := Except.ok.inj haccepted
      exact ⟨by simp [appendLeaseEvent], rfl⟩

theorem submitAndAcceptLease_ok {s s' : Session} {leaseId : String} {args : SubmitArgs}
    {lease : Lease} (h : submitAndAcceptLease s leaseId args = (s', .ok lease)) :
    AcceptsOn s s' args.itemId id := by
  obtain ⟨held, hheld, hactive, hon⟩ := submitAndAcceptLease_held h
  have hsubmitClaims := submitLease_noNewClaims s leaseId args
  unfold submitAndAcceptLease at h
  split at h
  · simp at h
  · next submitted _ hsubmit =>
    have haccept : (acceptLease submitted leaseId args.now).1 = s' := by rw [h]
    have hitems : s'.items = s.items := by
      rw [← haccept, acceptLease_items, submitLease_items hsubmit]
    have hacceptClaims := acceptLease_noNewClaims submitted leaseId args.now
    rw [haccept] at hacceptClaims
    rw [hsubmit] at hsubmitClaims
    obtain ⟨hended, hinactive⟩ := acceptLease_ended h
    exact ⟨⟨leaseId, held, lease, hheld, hactive, hon, hended, hinactive⟩,
      hsubmitClaims.trans hacceptClaims, fun id => by simp [hitems]⟩

/-- A lease that is stale or gone is refused without a trace on the tables. -/
theorem submitLease_stale {s s' : Session} {leaseId reasonCode detail : String}
    {args : SubmitArgs} {recovery : Option LeaseRecoveryState}
    (h : submitLease s leaseId args = (s', .error (.submission reasonCode detail recovery)))
    (hreason : reasonCode = "STALE_LEASE" ∨ reasonCode = "LEASE_NOT_FOUND") :
    s'.leases = s.leases ∧ s'.items = s.items := by
  unfold submitLease at h
  split at h
  · obtain ⟨rfl, -⟩ := Prod.mk.inj h
    exact ⟨rfl, rfl⟩
  · repeat' split at h
    all_goals simp only [raiseSubmissionError, Prod.mk.injEq, reduceCtorEq, and_false,
      Except.error.injEq, LeaseError.submission.injEq] at h
    all_goals obtain ⟨rfl, rfl, -⟩ := h
    all_goals first
      | exact ⟨rfl, rfl⟩
      | simp at hreason

theorem finishAcceptance_accepted {s s' : Session} {response : Dict}
    {prepared : PreparedSubmission} {now : Int} {record : EvidenceRecord}
    (h : finishAcceptance s response prepared now = (s', .accepted record)) :
    record.itemId = prepared.itemId ∧ s'.leases = s.leases ∧ ∀ id : String,
      s'.items[id]? = if id = prepared.itemId then
        (s.items[id]?).map (applyResponseToItem · response now) else s.items[id]? := by
  unfold finishAcceptance at h
  split at h
  · simp at h
  · simp only [Prod.mk.injEq, Acceptance.accepted.injEq] at h
    obtain ⟨rfl, rfl⟩ := h
    exact ⟨rfl, modifyItem_leases _ _ _, getElem?_modifyItem _ _ _⟩

/-- The lease was submitted from a session with the same tables. -/
theorem AcceptsOn.finish {s before submitted s' : Session} {response : Dict}
    {prepared : PreparedSubmission} {now : Int} {record : EvidenceRecord}
    (hleases : before.leases = s.leases) (hitems : before.items = s.items)
    (h : AcceptsOn before submitted prepared.itemId id)
    (hfinish : finishAcceptance submitted response prepared now = (s', .accepted record)) :
    record.itemId = prepared.itemId ∧
      AcceptsOn s s' prepared.itemId fun item => applyResponseToItem item response now := by
  obtain ⟨hrecord, hsame, hwritten⟩ := finishAcceptance_accepted hfinish
  refine ⟨hrecord, ?_, ?_, fun id => ?_⟩
  · obtain ⟨leaseId, held, ended, hended⟩ := h.ended
    exact ⟨leaseId, held, ended, by rw [← hleases, hsame]; exact hended⟩
  · intro key lease hlease hactive
    rw [hsame] at hlease
    rw [← hleases]
    exact h.claims key lease hlease hactive
  · rw [hwritten, h.items, hitems]
    split <;> simp

theorem acceptSubmission_accepted {s s' : Session} {response : Dict}
    {prepared : PreparedSubmission} {now : Int} {record : EvidenceRecord}
    (h : acceptActionResponseSubmission s response prepared now = (s', .ok (.accepted record))) :
    record.itemId = prepared.itemId ∧
      AcceptsOn s s' prepared.itemId fun item => applyResponseToItem item response now := by
  unfold acceptActionResponseSubmission at h
  split at h
  · next submitted lease hsubmit =>
    simp only [Prod.mk.injEq, Except.ok.injEq] at h
    exact (submitAndAcceptLease_ok hsubmit).finish rfl rfl (Prod.ext h.1 h.2)
  · next refused reasonCode detail recovery hrefused =>
    simp only at h
    split at h
    · simp [rejectResponse] at h
    · next rebound hrebound =>
      have hreason : reasonCode = "STALE_LEASE" ∨ reasonCode = "LEASE_NOT_FOUND" := by
        by_contra hother
        rw [if_neg hother] at hrebound
        cases hrebound
      obtain ⟨hleases, hitems⟩ :=
        submitLease_stale (submitAndAcceptLease_error hrefused) hreason
      split at h
      · next submitted lease hsubmit =>
        simp only [Prod.mk.injEq, Except.ok.injEq] at h
        have hfinish : finishAcceptance submitted response (prepared.rebind rebound) now =
            (s', .accepted record) := Prod.ext h.1 h.2
        exact @AcceptsOn.finish s refused submitted s' response (prepared.rebind rebound) now
          record hleases hitems (submitAndAcceptLease_ok hsubmit) hfinish
      · simp at h
  · simp at h

/-- The session a response is checked on in its transaction. -/
def withMetadata (session : Session) (metadata : Option Dict) : Session :=
  match metadata with
  | some metadata => session.setMetadata metadata
  | none => session

/-- The item a response is for and its resolution, where the response passes the checks. -/
def checkedAnswer (session : Session) (metadata : Option Dict) (submission : ResponseSubmission)
    (response : Dict) : Option (PreparedSubmission × Dict) :=
  match prepareActionResponseSubmission (withMetadata session metadata) submission.files response
      submission.now with
  | (_, .ok (expanded, prepared)) => some (prepared, expanded)
  | _ => none

theorem acceptMutation_accepted {s s' : Session} {metadata : Option Dict}
    {submission : ResponseSubmission} {response : Dict} {record : EvidenceRecord}
    (hkeyed : LeasesKeyed s)
    (h : acceptMutation metadata submission response s = .ok (s', .ok (.accepted record))) :
    ∃ prepared expanded, checkedAnswer s metadata submission response = some (prepared, expanded) ∧
      s.items[record.itemId]? = some prepared.item ∧
      AcceptsOn s s' record.itemId fun item =>
        applyResponseToItem item expanded submission.now := by
  have hleases : (withMetadata s metadata).leases = s.leases := by cases metadata <;> rfl
  have hitems : (withMetadata s metadata).items = s.items := by cases metadata <;> rfl
  have hloaded : LeasesKeyed (withMetadata s metadata) := by
    unfold LeasesKeyed
    rw [hleases]
    exact hkeyed
  unfold acceptMutation at h
  simp only at h
  split at h
  · cases h
  · cases h
  · next session expanded prepared hprepare =>
    have hprepared : prepareActionResponseSubmission (withMetadata s metadata) submission.files
        response submission.now = (session, .ok (expanded, prepared)) := hprepare
    have hfrom := prepare_from hloaded hprepared
    obtain rfl : session = withMetadata s metadata := prepare_same hprepared
    split at h
    · next accepted acceptance haccept =>
      simp only [Except.ok.injEq, Prod.mk.injEq] at h
      obtain ⟨rfl, rfl⟩ := h
      obtain ⟨hrecord, haccepts⟩ := acceptSubmission_accepted haccept
      refine ⟨prepared, expanded, by simp only [checkedAnswer, hprepared], ?_, ?_⟩
      · rw [hrecord, ← hitems]
        exact hfrom.item
      · rw [hrecord]
        refine ⟨?_, ?_, ?_⟩
        · rw [← hleases]
          exact haccepts.ended
        · unfold NoNewClaims
          rw [← hleases]
          exact haccepts.claims
        · rw [← hitems]
          exact haccepts.items
    · simp at h
    · cases h

theorem applyResponseToItem_fixed {item response : Dict} (now : Int)
    (hlocal : item.get "item_kind" ≠ .str "github_thread")
    (hfix : (response.get "resolution").text = "fix") :
    (applyResponseToItem item response now).get "state" = .str "fixed" := by
  simp [applyResponseToItem, hlocal, applyResponseToLocalItem, hfix]

/-- Nothing is to be done about the item, and the gate asks for its evidence. -/
structure Answered (item : Dict) : Prop where
  settled : Settled item
  terminal : isTerminalLocalItem item = true

theorem SameStanding.answered {item item' : Dict} (h : SameStanding item item')
    (hitem : Answered item) : Answered item' := by
  refine ⟨h.settled hitem.settled, ?_⟩
  unfold isTerminalLocalItem itemState
  rw [h.get (by decide), h.get (by decide)]
  exact hitem.terminal

/-- A finding that was fixed or closed is answered for both. -/
theorem Answered.of_state {item : Dict} {state : String} (hget : item.get "state" = .str state)
    (hstate : state = "fixed" ∨ state = "closed") : Answered item := by
  have hlower : lower (item.textOr "state" "") = state := by
    rw [Dict.textOr, hget]
    rcases hstate with rfl | rfl <;> decide
  refine ⟨.of_terminal hlower ?_, ?_⟩
  · rcases hstate with rfl | rfl <;> decide
  · have htruthy : (Value.str state).truthy = true := by rcases hstate with rfl | rfl <;> decide
    unfold isTerminalLocalItem itemState
    rw [hget, Value.orElse, if_pos htruthy, Value.text_str]
    rcases hstate with rfl | rfl <;> decide

/-- The item is not counted as blocking, nor asked for its evidence. -/
def EscapesGate (item : Dict) : Prop :=
  isLocalBlocking item = false ∧ isTerminalLocalItem item = false

instance (item : Dict) : Decidable (EscapesGate item) := inferInstanceAs (Decidable (_ ∧ _))

namespace CommandRun

variable {P : Type} [DecidableEq P]

/-- A run of commands, and the findings marked by an accepted response that were not reported
again since. -/
structure AnsweredRun (P : Type) where
  run : CommandRun P
  answered : List String

/-- The finding that a response is accepted for. -/
def acceptedFinding (session : Session) (metadata : Option Dict) (submission : ResponseSubmission)
    (response : Dict) : Option String :=
  match acceptMutation metadata submission response session with
  | .ok (_, .ok (.accepted record)) =>
      if (session.items[record.itemId]?).any (·.get "item_kind" ≠ .str "github_thread") then
        some record.itemId
      else none
  | _ => none

/-- The findings marked by a response once a step is made. -/
def AnsweredRun.answeredAfter (state : AnsweredRun P) : CommandLabel P → List String
  | .perform (.accept metadata submission response) =>
      (acceptedFinding state.run.session metadata submission response).toList ++ state.answered
  | .perform (.refresh threads _) =>
      state.answered.filter (!(threads.filterMap threadItemId?).contains ·)
  | .perform (.ingest findings _ _ _) =>
      state.answered.filter (!(findings.map (·.itemId)).contains ·)
  | .perform (.reopen itemId _) => state.answered.filter (· ≠ itemId)
  | _ => state.answered

def AnsweredRun.next (state : AnsweredRun P) (label : CommandLabel P) : Option (AnsweredRun P) :=
  (state.run.next label).map fun run => ⟨run, state.answeredAfter label⟩

/-- The runs of commands from a fresh session, in which no response was accepted. -/
def answeredRuns : TransitionSystem (AnsweredRun P) (CommandLabel P) :=
  .ofNext (fun state => IsFresh state.run.session ∧
    state.run.activity = (fun _ => .idle) ∧ state.answered = []) AnsweredRun.next

/-- A response that is accepted for a finding fixes it. -/
def FixesFinding (session : Session) : CommandLabel P → Prop
  | .perform (.accept metadata submission response) =>
      acceptedFinding session metadata submission response ≠ none →
        ∀ answer ∈ checkedAnswer session metadata submission response,
          (answer.2.get "resolution").text = "fix"
  | _ => True

/-- Findings are fixed by the responses to them, and left alone from there on. -/
def OnlyFixes : TransitionSystem.StepCondition (AnsweredRun P) (CommandLabel P) :=
  fun state label _ => FixesFinding state.run.session label ∧
    ∀ id ∈ state.answeredAfter label, ¬ state.run.Reclaims label id

/-- At most one lease is on an item, and the answered findings are at rest where the gate asks
for their evidence. -/
structure AnswerInvariant (state : AnsweredRun P) : Prop where
  leasesKeyed : LeasesKeyed state.run.session
  itemsKeyed : ItemsKeyed state.run.session
  oneActive : (activeItemIds state.run.session.leases).Nodup
  unheld : ∀ id ∈ state.answered, Unheld state.run.session id
  answered : ∀ id ∈ state.answered, ∀ item, state.run.session.items[id]? = some item →
    Answered item

theorem acceptedFinding_some {session : Session} {metadata : Option Dict}
    {submission : ResponseSubmission} {response : Dict} {id : String}
    (h : acceptedFinding session metadata submission response = some id) :
    ∃ after record, acceptMutation metadata submission response session =
        .ok (after, .ok (.accepted record)) ∧ record.itemId = id ∧
      ∀ item, session.items[id]? = some item → item.get "item_kind" ≠ .str "github_thread" := by
  unfold acceptedFinding at h
  split at h
  · next after record haccept =>
    split at h
    · next hlocal =>
      obtain rfl := Option.some.inj h
      exact ⟨after, record, haccept, rfl, fun item hitem => by simpa [hitem] using hlocal⟩
    · cases h
  · cases h

/-- A finding that a response has fixed is at rest, where the gate asks for its evidence. -/
theorem accepted_answered {s s' : Session} {metadata : Option Dict}
    {submission : ResponseSubmission} {response : Dict} {id : String} (hkeyed : LeasesKeyed s)
    (hone : (activeItemIds s.leases).Nodup)
    (happly : (SessionOp.accept metadata submission response).apply s = some s')
    (hfinding : acceptedFinding s metadata submission response = some id)
    (hfix : ∀ answer ∈ checkedAnswer s metadata submission response,
      (answer.2.get "resolution").text = "fix") :
    Unheld s' id ∧ ∀ item, s'.items[id]? = some item → Answered item := by
  obtain ⟨after, record, haccept, rfl, hlocal⟩ := acceptedFinding_some hfinding
  simp only [SessionOp.apply, haccept, Except.toOption, Option.map_some,
    Option.some.injEq] at happly
  subst happly
  obtain ⟨prepared, expanded, hanswer, hitem, haccepts⟩ := acceptMutation_accepted hkeyed haccept
  refine ⟨haccepts.unheld hone, fun item' hitem' => ?_⟩
  rw [haccepts.items, if_pos rfl, hitem, Option.map_some] at hitem'
  obtain rfl := Option.some.inj hitem'
  exact .of_state (applyResponseToItem_fixed submission.now (hlocal _ hitem)
    (hfix (prepared, expanded) hanswer)) (Or.inl rfl)

omit [DecidableEq P] in
/-- An answered finding was answered just now, or before by a response that the step leaves
standing or that a sync has just closed over. -/
theorem answered_before {state : AnsweredRun P} {label : CommandLabel P} {id : String}
    (hid : id ∈ state.answeredAfter label) (hleft : ¬ state.run.Reclaims label id) :
    (∃ metadata submission response, label = .perform (.accept metadata submission response) ∧
        acceptedFinding state.run.session metadata submission response = some id) ∨
      id ∈ state.answered ∧ (¬ state.run.Disturbs label id ∨
        ∃ findings source now, label = .perform (.ingest findings source true now) ∧
          (state.run.session.items[id]?).any
            (isMissing source (findings.map (·.itemId)) id) = true) := by
  cases label with
  | perform op =>
      cases op with
      | claim pending => exact Or.inr ⟨hid, Or.inl hleft⟩
      | reject submission => exact Or.inr ⟨hid, Or.inl hleft⟩
      | accept metadata submission response =>
          rcases List.mem_append.mp hid with hnew | hold
          · exact Or.inl ⟨metadata, submission, response, rfl, by simpa using hnew⟩
          · exact Or.inr ⟨hold, Or.inl fun h => h⟩
      | refresh threads login =>
          obtain ⟨hold, hother⟩ := List.mem_filter.mp hid
          exact Or.inr ⟨hold, Or.inl (by simpa [Disturbs] using hother)⟩
      | reopen itemId now =>
          obtain ⟨hold, hother⟩ := List.mem_filter.mp hid
          exact Or.inr ⟨hold, Or.inl fun hsame : itemId = id => by simp [hsame] at hother⟩
      | ingest findings source sync now =>
          obtain ⟨hold, hother⟩ := List.mem_filter.mp hid
          have hincoming : id ∉ findings.map (·.itemId) := by simpa using hother
          refine Or.inr ⟨hold, ?_⟩
          by_cases hmissing : sync = true ∧ (state.run.session.items[id]?).any
              (isMissing source (findings.map (·.itemId)) id) = true
          · obtain ⟨rfl, hmissing⟩ := hmissing
            exact Or.inr ⟨findings, source, now, rfl, hmissing⟩
          · exact Or.inl (not_or.mpr ⟨hincoming, hmissing⟩)
      | _ => exact Or.inr ⟨hid, Or.inl fun h => h⟩
  | claimOneShot p pending => exact Or.inr ⟨hid, Or.inl hleft⟩
  | compensate p => exact Or.inr ⟨hid, Or.inl hleft⟩
  | _ => exact Or.inr ⟨hid, Or.inl fun h => h⟩

omit [DecidableEq P] in
theorem Writes.answered {state : AnsweredRun P} {label : CommandLabel P} {session : Session}
    {id : String} (hinv : AnswerInvariant state) (hwrites : Writes state.run label session)
    (hfixes : FixesFinding state.run.session label) (hid : id ∈ state.answeredAfter label)
    (hleft : ¬ state.run.Reclaims label id) :
    Unheld session id ∧ ∀ item, session.items[id]? = some item → Answered item := by
  rcases answered_before hid hleft with ⟨metadata, submission, response, rfl, hfinding⟩ |
    ⟨hold, hundisturbed | ⟨findings, source, now, rfl, hmissing⟩⟩
  · cases hwrites with
    | perform _ _ _ happly =>
        exact accepted_answered hinv.leasesKeyed hinv.oneActive happly hfinding
          (hfixes (by simp [hfinding]))
  · have hrest : AtRest state.run.session id :=
      ⟨hinv.unheld id hold, fun item hitem => (hinv.answered id hold item hitem).settled⟩
    obtain ⟨hunheld, hstays⟩ :=
      (hwrites.orderly hinv.leasesKeyed hinv.itemsKeyed).2 id hundisturbed hrest
    refine ⟨hunheld, fun item' hitem' => ?_⟩
    obtain ⟨item, hitem, hstands⟩ := hstays item' hitem'
    exact hstands.answered (hinv.answered id hold item hitem)
  · cases hwrites with
    | perform _ _ _ happly =>
        obtain rfl := Option.some.inj happly
        refine ⟨hinv.unheld id hold, fun item hitem => ?_⟩
        obtain ⟨before, rfl⟩ := ingest_closes now hmissing hitem
        exact .of_state (by simp [syncClosedItem]) (Or.inr rfl)

theorem AnswerInvariant.next {state after : AnsweredRun P} {label : CommandLabel P}
    (hinv : AnswerInvariant state) (h : state.next label = some after)
    (hfixes : OnlyFixes state label after) : AnswerInvariant after := by
  obtain ⟨run, hrun, rfl⟩ := Option.map_eq_some_iff.mp h
  have hkeyed := next_leasesKeyed hinv.leasesKeyed hrun
  have hitems := (next_orderly hinv.leasesKeyed hrun hinv.itemsKeyed).1
  rcases next_writes hrun with ⟨hsame, hnone⟩ | ⟨session, hwrites, hview⟩
  · have hold : ∀ id ∈ state.answeredAfter label, id ∈ state.answered := by
      intro id hid
      rcases answered_before hid (hfixes.2 id hid) with ⟨_, _, _, hlabel, -⟩ | ⟨hold, -⟩
      · exact absurd hlabel (hnone _)
      · exact hold
    refine ⟨hkeyed, hitems, ?_, fun id hid => ?_, fun id hid => ?_⟩
    · rw [hsame]
      exact hinv.oneActive
    · rw [hsame]
      exact hinv.unheld id (hold id hid)
    · rw [hsame]
      exact hinv.answered id (hold id hid)
  · have hwritten : ∀ id ∈ state.answeredAfter label,
        Unheld session id ∧ ∀ item, session.items[id]? = some item → Answered item := fun id hid =>
      hwrites.answered hinv hfixes.1 hid (hfixes.2 id hid)
    have hshown := committedView_letsRest hview (hwrites.orderly hinv.leasesKeyed hinv.itemsKeyed).1
    refine ⟨hkeyed, hitems, ?_, fun id hid => ?_, fun id hid item' hitem' => ?_⟩
    · obtain ⟨hnodup, hsession⟩ := committedView_ok.mp hview
      rw [hsession]
      exact hnodup
    · obtain ⟨hunheld, hanswered⟩ := hwritten id hid
      exact (hshown.2 id (fun h => h) ⟨hunheld, fun item hitem =>
        (hanswered item hitem).settled⟩).1
    · obtain ⟨hunheld, hanswered⟩ := hwritten id hid
      obtain ⟨item, hitem, hstands⟩ := (hshown.2 id (fun h => h) ⟨hunheld, fun item hitem =>
        (hanswered item hitem).settled⟩).2 item' hitem'
      exact hstands.answered (hanswered item hitem)

/-- Where findings are only ever fixed and then left alone, the gate asks for the evidence of
every finding that a response has marked, and none escapes it. -/
theorem answered_findings_terminal {state : AnsweredRun P}
    (h : answeredRuns.ReachableUnder OnlyFixes state) {id : String} {item : Dict}
    (hid : id ∈ state.answered) (hitem : state.run.session.items[id]? = some item) :
    isTerminalLocalItem item = true ∧ ¬ EscapesGate item := by
  have hinv : AnswerInvariant state := by
    refine h.invariant AnswerInvariant ?_ fun before label after hbefore hstep hfixes =>
      hbefore.next hstep hfixes
    rintro start ⟨hfresh, -, hnone⟩
    refine ⟨hfresh.audited.1, hfresh.itemsKeyed, ?_, ?_, ?_⟩
    · rw [hfresh.leases]
      decide
    · rw [hnone]
      nofun
    · rw [hnone]
      nofun
  have hterminal := (hinv.answered id hid item hitem).terminal
  exact ⟨hterminal, fun hescapes => by simp [hescapes.2] at hterminal⟩

def newAnsweredRun (P : Type) : AnsweredRun P := ⟨newRun P, []⟩

instance (session : Session) (label : CommandLabel P) : Decidable (FixesFinding session label) := by
  induction label using CommandLabel.casesOn with
  | perform op => induction op using SessionOp.casesOn <;> unfold FixesFinding <;> infer_instance
  | _ => unfold FixesFinding; infer_instance

instance (state after : AnsweredRun P) (label : CommandLabel P) :
    Decidable (OnlyFixes state label after) :=
  inferInstanceAs (Decidable (FixesFinding state.run.session label ∧
    ∀ id ∈ state.answeredAfter label, ¬ state.run.Reclaims label id))

/-- A request for an item, with the fields that a request must have. -/
def briefRequest (itemId : String) : Dict :=
  let item := Dict.ofFields
    [("item_id", .str itemId), ("item_kind", .str "finding"), ("allowed_actions", .list [])]
  Dict.ofFields
    [("schema_version", .str "1.1"), ("request_id", .str "r"), ("session_id", .str "s"),
      ("lease_id", .str "l"), ("agent_role", .str "fixer"), ("item", item.toValue),
      ("allowed_actions", .list []), ("required_evidence", .list []),
      ("forbidden_actions", .list [])]

/-- A claim on an item that was classified so. -/
def briefClaim (itemId classification : String) (now : Int) : PendingClaim where
  itemId
  role := "fixer"
  agentId := "agent"
  leaseId := "l"
  requestId := "r"
  requestHash := (requestHash (briefRequest itemId)).toOption.getD ""
  requestPath := "/w/r.json"
  responseSkeletonPath := "/w/s.json"
  request := briefRequest itemId
  classification := (Dict.ofFields [("classification", .str classification)]).toValue
  decision := .str classification
  metadata := { updates := ∅, removed := [] }
  now
  sessionId := "session"

/-- A response to the request. -/
def briefAnswer (fields : List (String × Value)) : Dict :=
  Dict.ofFields ([("request_id", .str "r"), ("lease_id", .str "l"), ("agent_id", .str "agent"),
    ("note", .str "why")] ++ fields)

def clarifyingAnswer : Dict :=
  briefAnswer [("resolution", .str "clarify"), ("reply_markdown", .str "Because.")]

def fixWithEvidence : Dict :=
  briefAnswer [("resolution", .str "fix"), ("files", .list [.str "a.py"]),
    ("validation_commands", .list [.str "pytest"])]

def briefSubmission (itemId : String) (response : Dict) (now : Int) : ResponseSubmission where
  response
  now
  files := Std.ExtTreeMap.ofList [("/w/r.json", .json (briefRequest itemId).toValue)] compare
  prNumber := "1"
  observed := none
  prCommitShas := none

/-- An item is claimed, and the response to it is accepted. -/
def answerItem (itemId classification : String) (response : Dict) (now : Int) :
    List (CommandLabel Unit) :=
  [.perform (.claim (briefClaim itemId classification now)),
    .perform (.accept none (briefSubmission itemId response now) response)]

def answerFinding (classification : String) (response : Dict) : List (CommandLabel Unit) :=
  .perform (.ingest [lintFinding] "lint" false 0) ::
    answerItem "local-finding:1" classification response 1

theorem answered_findings_terminal_fixed : ∃ (state : AnsweredRun Unit) (item : Dict),
    "local-finding:1" ∈ state.answered ∧
      state.run.session.items["local-finding:1"]? = some item ∧
      isTerminalLocalItem item = true ∧ ¬ EscapesGate item := by
  have hrun : (TransitionSystem.run (fun state label => (AnsweredRun.next state label).filter
      fun after => OnlyFixes state label after) (newAnsweredRun Unit)
      (answerFinding "fix" fixWithEvidence)).any (fun state =>
        state.answered.contains "local-finding:1" &&
          (state.run.session.items["local-finding:1"]?).isSome) = true := by decide +kernel
  obtain ⟨state, hreached, hends⟩ := (Option.any_eq_true _ _).mp hrun
  obtain ⟨hanswered, hpresent⟩ := (Bool.and_eq_true _ _).mp hends
  obtain ⟨item, hitem⟩ := Option.isSome_iff_exists.mp hpresent
  have hmem : "local-finding:1" ∈ state.answered := List.contains_iff_mem.mp hanswered
  exact ⟨state, item, hmem, hitem, answered_findings_terminal
    (TransitionSystem.reachableUnder_of_run _ (.start ⟨newRun_fresh.1, rfl, rfl⟩) hreached)
    hmem hitem⟩

/-- A finding that is clarified is neither counted as blocking nor asked for its evidence. -/
theorem answered_findings_terminal_clarified :
    ∃ (state : AnsweredRun Unit) (id : String) (item : Dict),
      answeredRuns.Reachable state ∧ id ∈ state.answered ∧
        state.run.session.items[id]? = some item ∧
        item.get "item_kind" = .str "local_finding" ∧ item.get "handled" = .bool true ∧
        isTerminalLocalItem item = false ∧ EscapesGate item := by
  have hrun : (TransitionSystem.run AnsweredRun.next (newAnsweredRun Unit)
      (answerFinding "clarify" clarifyingAnswer)).any (fun state =>
        state.answered.contains "local-finding:1" &&
          (state.run.session.items["local-finding:1"]?).any fun item =>
            item.get "item_kind" = .str "local_finding" ∧ item.get "handled" = .bool true ∧
              isTerminalLocalItem item = false ∧ EscapesGate item) = true := by decide +kernel
  obtain ⟨state, hreached, hends⟩ := (Option.any_eq_true _ _).mp hrun
  obtain ⟨hanswered, hescapes⟩ := (Bool.and_eq_true _ _).mp hends
  obtain ⟨item, hitem, hescapes⟩ := (Option.any_eq_true _ _).mp hescapes
  exact ⟨state, "local-finding:1", item, TransitionSystem.reachable_of_run _
    (.start ⟨newRun_fresh.1, rfl, rfl⟩) hreached, List.contains_iff_mem.mp hanswered, hitem,
    of_decide_eq_true hescapes⟩

end CommandRun
end GhAddressCr
