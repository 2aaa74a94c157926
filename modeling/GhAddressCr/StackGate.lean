import GhAddressCr.StackContext

/-!
# The stack gate

The final gates of the members of a stack segment are run bottom-up, and the verdicts are
combined with a second observation of the stack into one.
-/
namespace GhAddressCr

/-- What the final gate of one pull request reports, as far as the stack gate reads it. -/
structure GateResult where
  counts : List (String × Nat)
  failureCodes : List String
  waitingOn : Option String
  nextAction : String
  logicValidationSignals : List Dict
  deriving DecidableEq

namespace GateResult

def passed (layer : GateResult) : Bool := layer.failureCodes.isEmpty

def reasonCode (layer : GateResult) : Option String := layer.failureCodes.head?

end GateResult

/-- What `evaluate_stack_gate` is given besides the opening context. `evaluateMember` yields
`none` where it raises `SessionError`. -/
structure StackGateInputs where
  sessionExists : String → Bool
  evaluateMember : String → Option GateResult
  closingContext : StackContext
  checkRequirement : Option String

structure MemberOutcome where
  prNumber : String
  position : Int
  reasonCode : Option String
  layerReasonCode : Option String
  layerWaitingOn : Option String
  counts : List (String × Nat)
  layerNextAction : Option String
  deriving DecidableEq

def MemberOutcome.status (outcome : MemberOutcome) : String :=
  if outcome.reasonCode = none then "PASSED" else "FAILED"

structure StackGateResult where
  repo : String
  selectedPrNumber : String
  stackContext : StackContext
  coveredPrNumbers : List String
  memberOutcomes : List MemberOutcome
  checkRequirement : Option String
  reasonCode : Option String := none
  firstBlockedPrNumber : Option String := none
  firstBlockedItemKind : Option String := none
  deriving DecidableEq

def StackGateResult.passed (result : StackGateResult) : Bool := result.reasonCode = none

/-- `bool(member.merge_queue_state)`. -/
def PullRequestMemberFact.isQueued (member : PullRequestMemberFact) : Bool :=
  member.mergeQueueState.any (· ≠ "")

/-- `_member_preflight_reason`. -/
def memberPreflightReason (member : PullRequestMemberFact) (sessionExists : String → Bool) :
    Option String :=
  if member.state = .closed then some "STACK_MEMBER_CLOSED"
  else if member.isDraft then some "STACK_MEMBER_DRAFT"
  else if member.isQueued then some "STACK_MEMBER_QUEUED"
  else if !sessionExists member.prNumber then some "STACK_MEMBER_SESSION_MISSING"
  else none

/-- The signals that explain a failure code with the kind of an item. -/
def blockingSignalTypes : Option String → List String
  | some "FINAL_GATE_MISSING_VALIDATION_EVIDENCE" => ["missing_required_evidence"]
  | some "FINAL_GATE_STALE_REVISION_EVIDENCE" => ["stale_revision_evidence"]
  | some "FINAL_GATE_UNBOUND_REVISION_EVIDENCE" => ["unbound_revision_evidence"]
  | _ => []

/-- `_layer_blocking_item_kind`. -/
def layerBlockingItemKind (layer : Option GateResult) : Option String :=
  layer.bind fun layer =>
    let types := blockingSignalTypes layer.reasonCode
    (layer.logicValidationSignals.find? fun row =>
      row.get "gate_effect" = .str "blocking" &&
        types.any fun type => row.get "signal_type" = .str type).bind fun signal =>
      let kind := PyText.strip (signal.textOr "item_kind" "")
      if kind = "" then none else some kind

/-- The gate run of one member: its reason to block, if any, and the result of its gate. -/
def evaluateStackMember (inputs : StackGateInputs) (member : PullRequestMemberFact) :
    Option String × Option GateResult :=
  match memberPreflightReason member inputs.sessionExists with
  | some reason => (some reason, none)
  | none =>
      match inputs.evaluateMember member.prNumber with
      | none => (some "STACK_MEMBER_SESSION_INVALID", none)
      | some layer =>
          if layer.passed then (none, some layer) else (some "STACK_MEMBER_BLOCKED", some layer)

def memberOutcome (inputs : StackGateInputs) (member : PullRequestMemberFact) : MemberOutcome :=
  let (reason, layer) := evaluateStackMember inputs member
  { prNumber := member.prNumber
    position := member.position
    reasonCode := reason
    layerReasonCode := layer.bind (·.reasonCode)
    layerWaitingOn := layer.bind (·.waitingOn)
    counts := (layer.map (·.counts)).getD []
    layerNextAction := layer.map (·.nextAction) }

/-- The variables of the loop over the members. -/
structure GateProgress where
  outcomes : List MemberOutcome := []
  reason : Option String := none
  firstBlocked : Option String := none
  firstBlockedItemKind : Option String := none

/-- The body of the loop over the members. -/
def gateMember (inputs : StackGateInputs) (progress : GateProgress)
    (member : PullRequestMemberFact) : GateProgress :=
  let (memberReason, layer) := evaluateStackMember inputs member
  let progress := { progress with
    outcomes := progress.outcomes ++ [memberOutcome inputs member] }
  if progress.reason = none ∧ memberReason ≠ none then
    { progress with
      reason := memberReason
      firstBlocked := some member.prNumber
      firstBlockedItemKind := layerBlockingItemKind layer }
  else progress

/-- The closing observation shows the stack of the opening one. -/
def sameObservation (opening closing : StackContext) : Bool :=
  closing.availability = opening.availability &&
    closing.selectedPrNumber = opening.selectedPrNumber &&
    closing.topologyFingerprint = opening.topologyFingerprint

def evaluateStackGate (repo selectedPrNumber : String) (context : StackContext)
    (inputs : StackGateInputs) : StackGateResult :=
  if context.availability = .unavailable ∨ context.availability = .invalid then
    { repo, selectedPrNumber, stackContext := context, coveredPrNumbers := []
      memberOutcomes := [], checkRequirement := inputs.checkRequirement
      reasonCode := context.diagnosticCode }
  else
    let segment := projectStackSegment context
    let progress := segment.includedMembers.foldl (gateMember inputs) {}
    let result : StackGateResult :=
      { repo, selectedPrNumber, stackContext := context
        coveredPrNumbers := segment.includedMembers.map (·.prNumber)
        memberOutcomes := progress.outcomes
        checkRequirement := inputs.checkRequirement
        reasonCode := progress.reason
        firstBlockedPrNumber := progress.firstBlocked
        firstBlockedItemKind := progress.firstBlockedItemKind }
    if sameObservation context inputs.closingContext then result
    else { result with
      stackContext := inputs.closingContext
      reasonCode := some "STACK_CONTEXT_STALE"
      firstBlockedPrNumber := none
      firstBlockedItemKind := none }

theorem gateMember_outcomes (inputs : StackGateInputs) (progress : GateProgress)
    (member : PullRequestMemberFact) :
    (gateMember inputs progress member).outcomes =
      progress.outcomes ++ [memberOutcome inputs member] := by
  unfold gateMember
  simp only
  split <;> rfl

theorem gateMember_reason (inputs : StackGateInputs) (progress : GateProgress)
    (member : PullRequestMemberFact) :
    (gateMember inputs progress member).reason =
      progress.reason.or (evaluateStackMember inputs member).1 := by
  unfold gateMember
  cases hreason : progress.reason <;> cases hmember : (evaluateStackMember inputs member).1 <;>
    simp [hmember]

theorem foldl_gateMember_outcomes (inputs : StackGateInputs)
    (members : List PullRequestMemberFact) (progress : GateProgress) :
    (members.foldl (gateMember inputs) progress).outcomes =
      progress.outcomes ++ members.map (memberOutcome inputs) := by
  induction members generalizing progress with
  | nil => simp
  | cons member members ih => simp [ih, gateMember_outcomes]

/-- The reason the loop ends with is that of the lowest blocked member. -/
theorem foldl_gateMember_reason (inputs : StackGateInputs)
    (members : List PullRequestMemberFact) (progress : GateProgress) :
    (members.foldl (gateMember inputs) progress).reason =
      progress.reason.or (members.findSome? fun member =>
        (evaluateStackMember inputs member).1) := by
  induction members generalizing progress with
  | nil => simp
  | cons member members ih =>
      rw [List.foldl_cons, ih, gateMember_reason, Option.or_assoc, List.findSome?_cons]
      cases (evaluateStackMember inputs member).1 <;> simp

/-- A member is ready: open to merging, known to the runtime, and passed by its own gate. -/
structure MemberReady (inputs : StackGateInputs) (member : PullRequestMemberFact) : Prop where
  notClosed : member.state ≠ .closed
  notDraft : member.isDraft = false
  notQueued : member.isQueued = false
  hasSession : inputs.sessionExists member.prNumber = true
  gatePassed : ∃ layer, inputs.evaluateMember member.prNumber = some layer ∧ layer.passed = true

/-- A ready member that is not merged is open. -/
theorem MemberReady.isOpen {inputs : StackGateInputs} {member : PullRequestMemberFact}
    (h : MemberReady inputs member) (hmerged : member.state ≠ .merged) :
    member.state = .openState := by
  have hclosed := h.notClosed
  cases hstate : member.state with
  | openState => rfl
  | closed => exact absurd hstate hclosed
  | merged => exact absurd hstate hmerged

theorem memberPreflightReason_eq_none {member : PullRequestMemberFact}
    {sessionExists : String → Bool} :
    memberPreflightReason member sessionExists = none ↔
      member.state ≠ .closed ∧ member.isDraft = false ∧ member.isQueued = false ∧
        sessionExists member.prNumber = true := by
  unfold memberPreflightReason
  by_cases hclosed : member.state = .closed
  · simp [hclosed]
  · cases hdraft : member.isDraft <;> cases hqueued : member.isQueued <;>
      simp [hclosed]

theorem evaluateStackMember_eq_none {inputs : StackGateInputs} {member : PullRequestMemberFact} :
    (evaluateStackMember inputs member).1 = none ↔ MemberReady inputs member := by
  unfold evaluateStackMember
  cases hpreflight : memberPreflightReason member inputs.sessionExists with
  | some reason =>
      simp only [reduceCtorEq, false_iff]
      intro hready
      have hnone := memberPreflightReason_eq_none.mpr
        ⟨hready.notClosed, hready.notDraft, hready.notQueued, hready.hasSession⟩
      simp [hpreflight] at hnone
  | none =>
      obtain ⟨hclosed, hdraft, hqueued, hsession⟩ := memberPreflightReason_eq_none.mp hpreflight
      simp only
      constructor
      · intro h
        split at h
        · cases h
        · next layer hlayer =>
          split at h
          · next hpassed => exact ⟨hclosed, hdraft, hqueued, hsession, layer, hlayer, hpassed⟩
          · cases h
      · intro hready
        obtain ⟨layer, hlayer, hpassed⟩ := hready.gatePassed
        simp [hlayer, hpassed]

/-- The members a stack segment has to pass on: every unmerged member up to the position of
the selected one. An unstacked pull request stands alone. -/
def RequiredMember (context : StackContext) (member : PullRequestMemberFact) : Prop :=
  match context.availability with
  | .absent => context.selectedPr = some member
  | .present => member ∈ context.members ∧ member.state ≠ .merged ∧
      ∃ selectedPr, context.selectedPr = some selectedPr ∧
        member.position ≤ selectedPr.position
  | _ => False

theorem StackContext.Valid.mem_includedMembers {context : StackContext} (h : context.Valid)
    (member : PullRequestMemberFact) :
    member ∈ (projectStackSegment context).includedMembers ↔ RequiredMember context member := by
  unfold projectStackSegment RequiredMember
  cases havailable : context.availability with
  | absent =>
      obtain ⟨selectedPr, hselected, -⟩ := h.selected (.inl havailable)
      simp [hselected, eq_comm]
  | present =>
      obtain ⟨selectedPr, hselected, -⟩ := h.selected (.inr havailable)
      obtain ⟨-, hposition⟩ := h.placed selectedPr havailable hselected
      simp only [hselected, hposition, List.mem_filter, decide_eq_true_eq, Option.some.injEq,
        exists_eq_left', and_assoc]
  | unavailable => simp
  | invalid => simp

/-- The context carries the facts of a pull request. -/
def StackContext.Usable (context : StackContext) : Prop :=
  context.availability = .absent ∨ context.availability = .present

theorem StackContext.usable_iff (context : StackContext) :
    context.Usable ↔ ¬ (context.availability = .unavailable ∨ context.availability = .invalid) := by
  unfold StackContext.Usable
  cases context.availability <;> simp

theorem evaluateStackGate_memberOutcomes {context : StackContext} (h : context.Usable)
    (repo selectedPrNumber : String) (inputs : StackGateInputs) :
    (evaluateStackGate repo selectedPrNumber context inputs).memberOutcomes =
      (projectStackSegment context).includedMembers.map (memberOutcome inputs) := by
  have houtcomes := foldl_gateMember_outcomes inputs
    (projectStackSegment context).includedMembers {}
  unfold evaluateStackGate
  rw [if_neg (context.usable_iff.mp h)]
  simp only
  split <;> simpa using houtcomes

/-- A valid context passes exactly when every required member is ready and the closing
observation is the opening one. -/
theorem evaluateStackGate_passed_iff {context : StackContext} (h : context.Valid)
    (repo selectedPrNumber : String) (inputs : StackGateInputs) :
    (evaluateStackGate repo selectedPrNumber context inputs).passed = true ↔
      context.Usable ∧ (∀ member, RequiredMember context member → MemberReady inputs member) ∧
        sameObservation context inputs.closingContext = true := by
  by_cases husable : context.Usable
  · have hreason := foldl_gateMember_reason inputs
      (projectStackSegment context).includedMembers {}
    unfold evaluateStackGate StackGateResult.passed
    rw [if_neg (context.usable_iff.mp husable)]
    by_cases hsame : sameObservation context inputs.closingContext = true
    · simp only [hsame, if_true, hreason, Option.none_or, decide_eq_true_eq,
        List.findSome?_eq_none_iff, evaluateStackMember_eq_none, h.mem_includedMembers, husable,
        true_and, and_true]
    · simp [hsame]
  · have hfailed : context.availability = .unavailable ∨ context.availability = .invalid := by
      by_contra hne
      exact husable (context.usable_iff.mpr hne)
    have hdiagnosed := h.diagnosed hfailed
    unfold evaluateStackGate StackGateResult.passed
    rw [if_pos hfailed]
    simp only [husable, false_and, iff_false, decide_eq_true_eq]
    intro hnone
    simp [hnone] at hdiagnosed

theorem MemberReady.outcome_status {inputs : StackGateInputs} {member : PullRequestMemberFact}
    (h : MemberReady inputs member) : (memberOutcome inputs member).status = "PASSED" := by
  have hreason := evaluateStackMember_eq_none.mpr h
  simp [memberOutcome, MemberOutcome.status, hreason]

/-- The selected pull request of a usable context is required unless it is merged already. -/
theorem StackContext.Valid.requiredMember_selectedPr {context : StackContext} (h : context.Valid)
    (husable : context.Usable) {selectedPr : PullRequestMemberFact}
    (hselected : context.selectedPr = some selectedPr) (hmerged : selectedPr.state ≠ .merged) :
    RequiredMember context selectedPr := by
  unfold RequiredMember
  rcases husable with habsent | hpresent
  · rw [habsent]
    exact hselected
  · rw [hpresent]
    exact ⟨(h.placed selectedPr hpresent hselected).1, hmerged, selectedPr, hselected, le_rfl⟩

/-- A pass covers the unmerged part of the segment: every unmerged member up to the selected
one was evaluated, is open and ready, and the closing observation shows the same stack. -/
theorem evaluateStackGate_passed_segment {payload : Dict} {context : StackContext}
    (h : projectStackContext payload = some context) (repo selectedPrNumber : String)
    (inputs : StackGateInputs)
    (hpassed : (evaluateStackGate repo selectedPrNumber context inputs).passed = true) :
    context.Usable ∧
      (∀ member, RequiredMember context member →
        MemberReady inputs member ∧ (member.state ≠ .merged → member.state = .openState) ∧
          memberOutcome inputs member ∈
            (evaluateStackGate repo selectedPrNumber context inputs).memberOutcomes ∧
          (memberOutcome inputs member).status = "PASSED") ∧
      (∃ selectedPr, context.selectedPr = some selectedPr ∧
        selectedPr.prNumber = context.selectedPrNumber ∧
        (selectedPr.state ≠ .merged → RequiredMember context selectedPr ∧
          (evaluateStackGate repo selectedPrNumber context inputs).memberOutcomes ≠ [])) ∧
      inputs.closingContext.availability = context.availability ∧
      inputs.closingContext.selectedPrNumber = context.selectedPrNumber ∧
      inputs.closingContext.topologyFingerprint = context.topologyFingerprint := by
  have hvalid := projectStackContext_valid h
  obtain ⟨husable, hready, hsame⟩ :=
    (evaluateStackGate_passed_iff hvalid repo selectedPrNumber inputs).mp hpassed
  have houtcomes := evaluateStackGate_memberOutcomes husable repo selectedPrNumber inputs
  have hevaluated : ∀ member, RequiredMember context member → memberOutcome inputs member ∈
      (evaluateStackGate repo selectedPrNumber context inputs).memberOutcomes := by
    intro member hmember
    rw [houtcomes]
    exact List.mem_map_of_mem ((hvalid.mem_includedMembers member).mpr hmember)
  obtain ⟨selectedPr, hselected, hnumber⟩ := hvalid.selected husable
  simp only [sameObservation, Bool.and_eq_true, decide_eq_true_eq, and_assoc] at hsame
  refine ⟨husable, ?_, ⟨selectedPr, hselected, hnumber, ?_⟩, hsame⟩
  · intro member hmember
    have hmember_ready := hready member hmember
    exact ⟨hmember_ready, hmember_ready.isOpen, hevaluated member hmember,
      hmember_ready.outcome_status⟩
  · intro hmerged
    have hrequired := hvalid.requiredMember_selectedPr husable hselected hmerged
    exact ⟨hrequired, List.ne_nil_of_mem (hevaluated selectedPr hrequired)⟩

/-- One member row of a stack based on `main`. -/
def sampleMemberRow (position : Int) (prNumber state base head : String) : Value :=
  (Dict.ofFields
    [("position", .int position), ("pr_number", .str prNumber), ("state", .str state),
      ("base_ref_name", .str base), ("head_ref_name", .str head), ("head_oid", .str "c0ffee"),
      ("head_tree_oid", .str "7ee5")]).toValue

/-- An observation of a stack of two pull requests, the upper one selected. -/
def sampleStackObservation (lower upper : String) : Dict :=
  Dict.ofFields
    [("schema_version", .str "stack_observation.v1"), ("availability", .str "present"),
      ("repo", .str "octo/example"), ("selected_pr_number", .str "102"),
      ("observed_at", .str "2026-08-01T12:00:00Z"), ("stack_node_id", .str "S_1"),
      ("stack_number", .int 7), ("trunk_ref_name", .str "main"), ("reported_size", .int 2),
      ("members", .list
        [sampleMemberRow 1 "101" lower "main" "feature/base",
          sampleMemberRow 2 "102" upper "feature/base" "feature/top"])]

/-- Every member has a session and passes its gate, and the stack has not changed. -/
def sampleGateInputs (context : StackContext) : StackGateInputs where
  sessionExists _ := true
  evaluateMember _ := some ⟨[], [], none, "", []⟩
  closingContext := context
  checkRequirement := none

theorem evaluateStackGate_passed_segment_open :
    ∃ context, projectStackContext (sampleStackObservation "OPEN" "OPEN") = some context ∧
      context.Usable ∧
      (evaluateStackGate "octo/example" "102" context (sampleGateInputs context)).memberOutcomes
        ≠ [] := by
  have h : (projectStackContext (sampleStackObservation "OPEN" "OPEN")).any (fun context =>
      (evaluateStackGate "octo/example" "102" context (sampleGateInputs context)).passed &&
        context.selectedPr.any (·.state ≠ .merged)) = true := by
    decide +kernel
  obtain ⟨context, hcontext, hcheck⟩ := (Option.any_eq_true _ _).mp h
  obtain ⟨hpassed, hopen⟩ := (Bool.and_eq_true _ _).mp hcheck
  obtain ⟨husable, -, ⟨selectedPr, hselected, -, hcovered⟩, -⟩ :=
    evaluateStackGate_passed_segment hcontext "octo/example" "102" _ hpassed
  have hmerged : selectedPr.state ≠ .merged := by simpa [hselected] using hopen
  exact ⟨context, hcontext, husable, (hcovered hmerged).2⟩

/-- A stack merged up to the selected pull request passes with no member evaluated. -/
theorem evaluateStackGate_passed_nothing_evaluated :
    ∃ context, projectStackContext (sampleStackObservation "MERGED" "MERGED") = some context ∧
      (evaluateStackGate "octo/example" "102" context (sampleGateInputs context)).passed = true ∧
      (evaluateStackGate "octo/example" "102" context (sampleGateInputs context)).memberOutcomes
        = [] := by
  have h : (projectStackContext (sampleStackObservation "MERGED" "MERGED")).any (fun context =>
      (evaluateStackGate "octo/example" "102" context (sampleGateInputs context)).passed &&
        decide ((evaluateStackGate "octo/example" "102" context
          (sampleGateInputs context)).memberOutcomes = [])) = true := by
    decide +kernel
  obtain ⟨context, hcontext, hcheck⟩ := (Option.any_eq_true _ _).mp h
  obtain ⟨hpassed, hempty⟩ := (Bool.and_eq_true _ _).mp hcheck
  exact ⟨context, hcontext, hpassed, of_decide_eq_true hempty⟩

end GhAddressCr
