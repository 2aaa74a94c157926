import GhAddressCr.FinalGateSoundness
import GhAddressCr.StackRevisions

/-!
# Logic validation and the verdict of a session

The gate reads a session twice: the kernel turns its rows into facts, and logic validation turns
them into signals, which block where an item claims more than its state or than evidence for the
pull request's current tree shows.
-/
namespace GhAddressCr.LogicValidation

open PyText GithubThreadState

mutual

/-- `_has_content`, which looks into lists and mappings. -/
def hasContent : Value → Bool
  | .null => false
  | .str s => strip s ≠ ""
  | .list values => anyValueHasContent values
  | .dict fields => anyFieldHasContent fields
  | value => value.truthy

def anyValueHasContent : List Value → Bool
  | [] => false
  | value :: rest => hasContent value || anyValueHasContent rest

def anyFieldHasContent : List (String × Value) → Bool
  | [] => false
  | (_, value) :: rest => hasContent value || anyFieldHasContent rest

end

/-- The first choice that an item or its response names. -/
def choice? (source : Dict) : Option Value :=
  (["resolution", "decision", "action"].map source.get).find? hasContent

/-- `_github_resolution`. -/
def githubResolution (item : Dict) : String :=
  let sources := (item.get "accepted_response").toDict?.toList ++ [item]
  let classification := (item.get "classification_evidence").field "classification"
  let resolution := (sources.findSome? choice?).or ((some classification).filter hasContent)
  (resolution.map fun value => lower (strip value.text)).getD ""

def nonMutatingGithubResolutions : List String := ["clarify", "defer", "reject"]

def mutatingGithubResolutions : List String := ["fix", "fixed"]

/-- `_requires_validation_evidence`. -/
def requiresValidationEvidence (item : Dict) : Bool :=
  let state := item.textOr "state" ""
  match item.textOr "item_kind" "" with
  | "local_finding" => localTerminalStates.contains state
  | "github_thread" =>
      let resolution := githubResolution item
      if nonMutatingGithubResolutions.contains resolution ||
          ["clarified", "deferred", "rejected"].contains state then false
      else if mutatingGithubResolutions.contains resolution ||
          (item.get "accepted_response").toDict?.isSome then
        githubThreadTerminalStates.contains state
      else false
  | _ => false

/-- What an item claims of itself. -/
def completionClaim (item : Dict) : String :=
  ((item.get "completion_claim").orElse ((item.get "claim").orElse (.str ""))).text

/-- `_has_state_contradiction`. -/
def hasStateContradiction (item : Dict) : Bool :=
  let state := item.textOr "state" ""
  let terminalStates :=
    if item.textOr "item_kind" "" = "github_thread" then githubThreadTerminalStates
    else localTerminalStates
  ["ready_to_publish", "fixed", "handled"].contains (completionClaim item) &&
    !(terminalStates.contains state || state == "handled")

/-- A row's own validation fields hold a success. -/
def hasRecordedSuccess (source : Dict) : Bool :=
  ["validation_evidence", "validation_commands", "validation_results"].any fun key =>
    validationEvidenceHasSuccess (source.get key)

/-- The bindings of the evidence outside of the rows' own validation fields. -/
def attachedBindings (item : Dict) : List Value :=
  match (item.get "evidence").toDict? with
  | some evidence =>
      if validationEvidenceHasSuccess (evidence.get "validation") ||
          validationEvidenceHasSuccess (evidence.get "validation_evidence") then
        [item.get "revision_binding"]
      else []
  | none =>
      if hasContent (item.get "resolution_note") &&
          ["accept", "manual", "sync"].contains (lower (item.textOr "decision" "")) then
        [item.get "revision_binding"]
      else []

/-- `_validation_evidence_bindings`. -/
def validationEvidenceBindings (item : Dict) : List Value :=
  (if hasRecordedSuccess item then [item.get "revision_binding"] else []) ++
    (match (item.get "accepted_response").toDict? with
    | some response =>
        if hasRecordedSuccess response then [response.get "revision_binding"] else []
    | none => []) ++
    attachedBindings item

inductive RevisionStatus where
  | current | stale | unbound
  deriving DecidableEq, Repr

def RevisionStatus.value : RevisionStatus → String
  | .current => "current"
  | .stale => "stale"
  | .unbound => "unbound"

/-- `revision_evidence_status`. -/
def revisionEvidenceStatus (binding : Value) (currentContext : StackContext) : RevisionStatus :=
  match compareRevisionBinding binding.toDict? currentContext with
  | none => .current
  | some reason => if reason = "FINAL_GATE_UNBOUND_REVISION_EVIDENCE" then .unbound else .stale

/-- `_item_revision_evidence_status`: the best status of the item's evidence. -/
def itemRevisionEvidenceStatus (item : Dict) (stackContext : StackContext) : RevisionStatus :=
  let statuses := (validationEvidenceBindings item).map (revisionEvidenceStatus · stackContext)
  if statuses.contains .current then .current
  else if statuses.contains .stale then .stale
  else .unbound

/-- `_is_low_confidence`. -/
def isLowConfidence (item : Dict) : Bool :=
  ["low", "advisory"].contains
    (lower ((item.get "logic_confidence").orElse ((item.get "confidence").orElse (.str ""))).text)

structure LogicValidationSignal where
  signalId : String
  itemId : String
  signalType : String
  confidence : String
  explanation : String
  recommendedAction : String
  itemKind : Option String := none
  gateEffect : String := "advisory"
  deriving DecidableEq

namespace LogicValidationSignal

def toDict (signal : LogicValidationSignal) : Dict :=
  (Dict.ofFields
    [("signal_id", .str signal.signalId), ("item_id", .str signal.itemId),
      ("signal_type", .str signal.signalType), ("confidence", .str signal.confidence),
      ("explanation", .str signal.explanation),
      ("recommended_action", .str signal.recommendedAction),
      ("gate_effect", .str signal.gateEffect)]).setIfSome "item_kind"
    (signal.itemKind.map .str)

/-- `_signal`, about this item. -/
def about (item : Dict) (signalType confidence explanation recommendedAction gateEffect : String) :
    LogicValidationSignal where
  signalId := "logic:" ++ signalType ++ ":" ++ item.textOr "item_id" ""
  itemId := item.textOr "item_id" ""
  itemKind := some (item.textOr "item_kind" "")
  signalType
  confidence
  explanation
  recommendedAction
  gateEffect

def stateContradiction (item : Dict) : LogicValidationSignal :=
  about item "state_contradiction" "high"
    "Item claims publish readiness while runtime state is not terminal."
    "Refresh runtime state and submit the missing evidence before final-gate." "blocking"

def missingRequiredEvidence (item : Dict) : LogicValidationSignal :=
  about item "missing_required_evidence" "high"
    "Terminal work item is missing validation evidence."
    "Record validation evidence or reopen the item before final-gate." "blocking"

def revisionEvidence (item : Dict) (status : RevisionStatus) : LogicValidationSignal :=
  about item (status.value ++ "_revision_evidence") "high"
    "Validation evidence does not prove the current stacked-member revision."
    "Refresh the stack and rerun validation for this PR layer." "blocking"

def lowConfidenceAdvisory (item : Dict) : LogicValidationSignal :=
  about item "low_confidence_advisory" "low"
    "Item carries a low-confidence logic validation marker."
    ("Review the rationale if more evidence is available; " ++
      "this advisory does not block completion.") "advisory"

@[simp] theorem gateEffect_stateContradiction (item : Dict) :
    (stateContradiction item).gateEffect = "blocking" := rfl

@[simp] theorem gateEffect_missingRequiredEvidence (item : Dict) :
    (missingRequiredEvidence item).gateEffect = "blocking" := rfl

@[simp] theorem gateEffect_revisionEvidence (item : Dict) (status : RevisionStatus) :
    (revisionEvidence item status).gateEffect = "blocking" := rfl

@[simp] theorem gateEffect_lowConfidenceAdvisory (item : Dict) :
    (lowConfidenceAdvisory item).gateEffect = "advisory" := rfl

end LogicValidationSignal

/-- One round of the loop of `generate_logic_validation_signals`. -/
def itemSignal (stackContext : Option StackContext) (item : Dict) :
    Option LogicValidationSignal :=
  let status := stackContext.map (itemRevisionEvidenceStatus item)
  if item.textOr "item_id" "" = "" then none
  else if hasStateContradiction item then some (.stateContradiction item)
  else if requiresValidationEvidence item ∧ validationEvidenceBindings item = [] then
    some (.missingRequiredEvidence item)
  else if requiresValidationEvidence item ∧ status.any (· ≠ .current) then
    status.map (.revisionEvidence item)
  else if isLowConfidence item then some (.lowConfidenceAdvisory item)
  else none

/-- `_session_items`; `none` where a `TypeError` escapes. -/
def sessionItems (session : Dict) : Option (List Dict) :=
  match (session.get "items").orElse (.dict []) with
  | .dict fields => some (fields.filterMap fun field => field.2.toDict?)
  | .list values => some (values.filterMap Value.toDict?)
  | .str _ => some []
  | _ => none

/-- The stack context that was cached with the session, where it says that there is a stack. -/
def cachedPresentStack (session : Dict) : Option Dict :=
  (((session.get "metadata").field "pull_request_context").field "stack_context").toDict?.filter
    (·.get "availability" = .str "present")

/-- `_current_stack_context`; the outer `none` where an `AttributeError` escapes. -/
def currentStackContext (session : Dict) : Option (Option StackContext) :=
  match cachedPresentStack session with
  | none => some none
  | some payload =>
      (stackContextFromSerialized payload (session.textOr "repo" "")
        (session.textOr "pr_number" "")).map some

def generateLogicValidationSignals (session : Dict) : Option (List LogicValidationSignal) := do
  let items ← sessionItems session
  let stackContext ← currentStackContext session
  pure (items.filterMap (itemSignal stackContext))

/-- `GateResult`, with all that a gate run reports. -/
structure GateResult where
  repo : String
  prNumber : String
  counts : FinalGateCounts
  failureCodes : List FailureCode
  checkRequirement : Option String
  logicValidationSignals : List Dict
  replyEvidenceBlockers : List ReplyEvidenceDetail
  historicalReplyItems : List ReplyEvidenceDetail
  stackContext : Option Dict

def GateResult.passed (result : GateResult) : Bool := result.failureCodes.isEmpty

/-- `cached_stack_context`. -/
def cachedStackContext (session : Dict) : Option Dict :=
  let observed := (session.get "metadata").field "pull_request_context"
  if observed.field "authoritative" = .bool false then (observed.field "stack_context").toDict?
  else none

/-- The arguments of `evaluate_final_gate` besides the session. -/
structure Observations where
  remoteThreads : List Dict := []
  pendingReviews : List Dict := []
  currentLogin : Option String := none
  checkRuns : List Dict := []
  checkRequirement : Option String := none

def Observations.bundle (observations : Observations) (items signals : List Dict) :
    EvidenceBundle where
  items
  remoteThreads := observations.remoteThreads
  pendingReviews := observations.pendingReviews
  currentLogin := observations.currentLogin
  checkRuns := observations.checkRuns
  checkRequirement := observations.checkRequirement
  logicValidationSignals := signals

/-- `none` where a `TypeError` or an `AttributeError` escapes, and the text of a `ValueError`. -/
def evaluateFinalGate (session : Dict) (observations : Observations) :
    Option (Except String GateResult) := do
  let signals ← generateLogicValidationSignals session
  let items ← sessionItems session
  let facts := buildFinalGateFacts (observations.bundle items (signals.map (·.toDict)))
  pure <| (projectFinalGate facts observations.currentLogin observations.checkRequirement).map
    fun projection =>
      { repo := session.textOr "repo" ""
        prNumber := session.textOr "pr_number" ""
        counts := projection.counts
        failureCodes := (evaluateFinalGatePolicy projection).failureCodes
        checkRequirement := observations.checkRequirement
        logicValidationSignals := signals.map (·.toDict)
        replyEvidenceBlockers := projection.missingReplyItems
        historicalReplyItems := projection.historicalReplyItems
        stackContext := cachedStackContext session }

/-- Evidence that the item carries, with the binding it is judged by. -/
inductive Evidence (item : Dict) : Value → Prop where
  | recorded : hasRecordedSuccess item → Evidence item (item.get "revision_binding")
  | accepted {response : Dict} : (item.get "accepted_response").toDict? = some response →
      hasRecordedSuccess response → Evidence item (response.get "revision_binding")
  | attached {evidence : Dict} : (item.get "evidence").toDict? = some evidence →
      (validationEvidenceHasSuccess (evidence.get "validation") ||
        validationEvidenceHasSuccess (evidence.get "validation_evidence")) →
      Evidence item (item.get "revision_binding")
  | noted : (item.get "evidence").toDict? = none → hasContent (item.get "resolution_note") →
      lower (item.textOr "decision" "") ∈ ["accept", "manual", "sync"] →
      Evidence item (item.get "revision_binding")

theorem evidence_of_attached {item : Dict} {binding : Value}
    (h : binding ∈ attachedBindings item) : Evidence item binding := by
  unfold attachedBindings at h
  split at h
  · next evidence hevidence =>
    split at h
    · next hsuccess =>
      obtain rfl := List.mem_singleton.mp h
      exact .attached hevidence hsuccess
    · cases h
  · next hnone =>
    split at h
    · next hnote =>
      rw [Bool.and_eq_true, List.contains_iff_mem] at hnote
      obtain rfl := List.mem_singleton.mp h
      exact .noted hnone hnote.1 hnote.2
    · cases h

theorem mem_validationEvidenceBindings {item : Dict} {binding : Value} :
    binding ∈ validationEvidenceBindings item ↔ Evidence item binding := by
  unfold validationEvidenceBindings
  rw [List.mem_append, List.mem_append]
  constructor
  · rintro ((hrecorded | haccepted) | hattached)
    · split at hrecorded
      · next hsuccess =>
        obtain rfl := List.mem_singleton.mp hrecorded
        exact .recorded hsuccess
      · cases hrecorded
    · split at haccepted
      · next response hresponse =>
        split at haccepted
        · next hsuccess =>
          obtain rfl := List.mem_singleton.mp haccepted
          exact .accepted hresponse hsuccess
        · cases haccepted
      · cases haccepted
    · exact evidence_of_attached hattached
  · intro h
    cases h with
    | recorded hsuccess => simp [hsuccess]
    | accepted hresponse hsuccess => simp [hresponse, hsuccess]
    | attached hevidence hsuccess =>
        right
        simp only [attachedBindings, hevidence, hsuccess, if_true, List.mem_singleton]
    | noted hnone hnote hdecision =>
        right
        have hcontains := List.contains_iff_mem.mpr hdecision
        simp only [attachedBindings, hnone, hnote, hcontains, Bool.and_self, if_true,
          List.mem_singleton]

theorem revisionEvidenceStatus_current {binding : Value} {context : StackContext} :
    revisionEvidenceStatus binding context = .current ↔
      compareRevisionBinding binding.toDict? context = none := by
  unfold revisionEvidenceStatus
  cases compareRevisionBinding binding.toDict? context with
  | none => simp
  | some reason => by_cases h : reason = "FINAL_GATE_UNBOUND_REVISION_EVIDENCE" <;> simp [h]

theorem itemRevisionEvidenceStatus_current {item : Dict} {context : StackContext} :
    itemRevisionEvidenceStatus item context = .current ↔
      ∃ binding, Evidence item binding ∧
        compareRevisionBinding binding.toDict? context = none := by
  have hcontains : ((validationEvidenceBindings item).map
      (revisionEvidenceStatus · context)).contains .current = true ↔
        ∃ binding, Evidence item binding ∧
          compareRevisionBinding binding.toDict? context = none := by
    simp only [List.contains_iff_mem, List.mem_map, mem_validationEvidenceBindings,
      revisionEvidenceStatus_current]
  rw [← hcontains]
  unfold itemRevisionEvidenceStatus
  simp only
  split
  · next hcurrent => simp only [hcurrent]
  · next hcurrent =>
    refine iff_of_false ?_ hcurrent
    split <;> simp

/-- The item's state bears out a claim that it is done. -/
def Settled (item : Dict) : Prop :=
  item.textOr "state" "" = "handled" ∨ item.textOr "state" "" ∈
    if item.textOr "item_kind" "" = "github_thread" then githubThreadTerminalStates
    else localTerminalStates

theorem hasStateContradiction_eq_false {item : Dict} :
    hasStateContradiction item = false ↔
      (completionClaim item ∈ ["ready_to_publish", "fixed", "handled"] → Settled item) := by
  unfold hasStateContradiction Settled
  generalize (if item.textOr "item_kind" "" = "github_thread" then githubThreadTerminalStates
    else localTerminalStates) = terminal
  rw [← Bool.not_eq_true, Bool.and_eq_true, List.contains_iff_mem, Bool.not_eq_true',
    ← Bool.not_eq_true, Bool.or_eq_true, beq_iff_eq, List.contains_iff_mem]
  tauto

/-- The binding is one of the current tree of a pull request in a stack. -/
def ProvesRevision (current : StackContext) (binding : Value) : Prop :=
  ∃ given, binding.toDict? = some given ∧ current.availability = .present ∧ BoundTo current given

theorem provesRevision_iff {current : StackContext} (h : Observed current) {binding : Value} :
    compareRevisionBinding binding.toDict? current = none ↔ ProvesRevision current binding := by
  unfold ProvesRevision
  cases hbinding : binding.toDict? with
  | none => simp [compareRevisionBinding]
  | some given => simpa using h.bindable.compareRevisionBinding_some given

/-- Nothing that the item says of itself blocks the gate: what it claims is settled, and what it
needs evidence for has evidence, for the current tree where there is a stack. -/
structure Justified (context : Option StackContext) (item : Dict) : Prop where
  settled : completionClaim item ∈ ["ready_to_publish", "fixed", "handled"] → Settled item
  evidenced : requiresValidationEvidence item → ∃ binding, Evidence item binding ∧
    ∀ current, context = some current → ProvesRevision current binding

section Signals

variable {context : Option StackContext} {item : Dict}

/-- Without a blocking signal there is evidence, current where there is a stack. -/
theorem evidence_of_unblocked (hobserved : ∀ current, context = some current → Observed current)
    (hsome : validationEvidenceBindings item ≠ [])
    (hstatus : ¬ (context.map (itemRevisionEvidenceStatus item)).any (· ≠ .current)) :
    ∃ binding, Evidence item binding ∧
      ∀ current, context = some current → ProvesRevision current binding := by
  cases context with
  | none =>
      obtain ⟨binding, hbinding⟩ := List.exists_mem_of_ne_nil _ hsome
      have hevidence := mem_validationEvidenceBindings.mp hbinding
      exact ⟨binding, hevidence, fun _ hnone => absurd hnone (by simp)⟩
  | some current =>
      have hcurrent : itemRevisionEvidenceStatus item current = .current := by
        by_contra hnot
        exact hstatus (by simpa using hnot)
      obtain ⟨binding, hbinding, hcompare⟩ := itemRevisionEvidenceStatus_current.mp hcurrent
      refine ⟨binding, hbinding, fun other hother => ?_⟩
      rw [← Option.some.inj hother]
      exact (provesRevision_iff (hobserved current rfl)).mp hcompare

theorem Justified.status (h : Justified context item)
    (hobserved : ∀ current, context = some current → Observed current)
    (hrequired : requiresValidationEvidence item) :
    validationEvidenceBindings item ≠ [] ∧
      ¬ (context.map (itemRevisionEvidenceStatus item)).any (· ≠ .current) := by
  obtain ⟨binding, hbinding, hcurrent⟩ := h.evidenced hrequired
  refine ⟨List.ne_nil_of_mem (mem_validationEvidenceBindings.mpr hbinding), ?_⟩
  cases context with
  | none => simp
  | some current =>
      have hcompare := (provesRevision_iff (hobserved current rfl)).mpr (hcurrent current rfl)
      simp [itemRevisionEvidenceStatus_current.mpr ⟨binding, hbinding, hcompare⟩]

/-- A signal about a named item blocks exactly when the item is not justified. -/
theorem itemSignal_blocking_iff (hobserved : ∀ current, context = some current → Observed current)
    (hnamed : item.textOr "item_id" "" ≠ "") :
    (∀ signal, itemSignal context item = some signal → signal.gateEffect ≠ "blocking") ↔
      Justified context item := by
  unfold itemSignal
  simp only [if_neg hnamed]
  by_cases hcontradiction : hasStateContradiction item = true
  · simp only [if_pos hcontradiction, Option.some.injEq, forall_eq',
      LogicValidationSignal.gateEffect_stateContradiction, ne_eq, not_true, false_iff]
    intro h
    simp [hasStateContradiction_eq_false.mpr h.settled] at hcontradiction
  rw [if_neg hcontradiction]
  have hsettled := hasStateContradiction_eq_false.mp (Bool.eq_false_iff.mpr hcontradiction)
  by_cases hmissing : requiresValidationEvidence item ∧ validationEvidenceBindings item = []
  · simp only [if_pos hmissing, Option.some.injEq, forall_eq',
      LogicValidationSignal.gateEffect_missingRequiredEvidence, ne_eq, not_true, false_iff]
    exact fun h => (h.status hobserved hmissing.1).1 hmissing.2
  rw [if_neg hmissing]
  by_cases hoff : requiresValidationEvidence item ∧
      (context.map (itemRevisionEvidenceStatus item)).any (· ≠ .current)
  · obtain ⟨hrequired, hany⟩ := hoff
    rw [if_pos ⟨hrequired, hany⟩]
    refine iff_of_false (fun h => ?_) fun h => (h.status hobserved hrequired).2 hany
    obtain ⟨status, hstatus⟩ := Option.isSome_iff_exists.mp (Option.isSome_of_any hany)
    exact h _ (by rw [hstatus, Option.map_some]) rfl
  · rw [if_neg hoff]
    refine iff_of_true (fun signal hsignal => ?_) ⟨hsettled, fun hrequired => ?_⟩
    · split at hsignal
      · rw [← Option.some.inj hsignal, LogicValidationSignal.gateEffect_lowConfidenceAdvisory]
        decide
      · cases hsignal
    · exact evidence_of_unblocked hobserved (fun hempty => hmissing ⟨hrequired, hempty⟩)
        fun hany => hoff ⟨hrequired, hany⟩

/-- An item without an id has no signal. -/
theorem itemSignal_of_unnamed (h : item.textOr "item_id" "" = "") :
    itemSignal context item = none := by
  simp only [itemSignal, if_pos h]

end Signals

@[simp] theorem get_toDict_gateEffect (signal : LogicValidationSignal) :
    signal.toDict.get "gate_effect" = .str signal.gateEffect := by
  simp [LogicValidationSignal.toDict, Dict.ofFields, Dict.get_insert]

theorem observed_of_currentStackContext {session : Dict} {context : Option StackContext}
    (h : currentStackContext session = some context) :
    ∀ current, context = some current → Observed current := by
  unfold currentStackContext at h
  split at h
  · rintro current rfl
    cases h
  · obtain ⟨reread, hreread, rfl⟩ := Option.map_eq_some_iff.mp h
    intro current hcurrent
    rw [← Option.some.inj hcurrent]
    exact .reread hreread

/-- The rows and the observations leave nothing open. -/
def Observations.Clear (observations : Observations) (items signals : List Dict) : Prop :=
  let bundle := observations.bundle items signals
  GateClear bundle bundle.PendingForLogin fun item => hasValidationEvidence item

/-- The gate is run on the session, and passes. -/
def Passes (session : Dict) (observations : Observations) : Prop :=
  ∃ result, evaluateFinalGate session observations = some (.ok result) ∧ result.passed

section Verdict

variable {session : Dict} {items : List Dict} {context : Option StackContext}
  (observations : Observations)

theorem passes_iff_finalGatePassed (hitems : sessionItems session = some items)
    (hcontext : currentStackContext session = some context) :
    Passes session observations ↔ finalGatePassed (observations.bundle items
      ((items.filterMap (itemSignal context)).map (·.toDict))) = .ok true := by
  unfold Passes evaluateFinalGate generateLogicValidationSignals finalGatePassed
  simp only [hitems, hcontext, Option.bind_eq_bind, Option.bind_some, Option.pure_def,
    Option.some.injEq, Observations.bundle]
  cases projectFinalGate _ observations.currentLogin observations.checkRequirement with
  | error text => simp [Except.map]
  | ok projection => simp [Except.map, GateResult.passed]

/-- Where a session cannot be read, the gate ends in an error. -/
theorem readable_of_passes (h : Passes session observations) :
    (∃ items, sessionItems session = some items) ∧
      ∃ context, currentStackContext session = some context := by
  obtain ⟨result, hresult, -⟩ := h
  unfold evaluateFinalGate generateLogicValidationSignals at hresult
  cases hitems : sessionItems session with
  | none => simp [hitems] at hresult
  | some items =>
      cases hcontext : currentStackContext session with
      | none => simp [hitems, hcontext] at hresult
      | some context => exact ⟨⟨items, rfl⟩, context, rfl⟩

/-- Signals add one condition to clear evidence. -/
theorem Observations.clear_iff (signals : List Dict) :
    observations.Clear items signals ↔
      observations.Clear items [] ∧
        ∀ signal ∈ signals, signal.get "gate_effect" ≠ .str "blocking" := by
  constructor
  · intro h
    exact ⟨⟨h.threads, h.reviews, h.githubItems, h.replies, h.localItems, h.validation, nofun,
      h.checks⟩, h.signals⟩
  · rintro ⟨h, hsignals⟩
    exact ⟨h.threads, h.reviews, h.githubItems, h.replies, h.localItems, h.validation, hsignals,
      h.checks⟩

theorem signals_unblocked_iff (hobserved : ∀ current, context = some current → Observed current) :
    (∀ signal ∈ (items.filterMap (itemSignal context)).map (·.toDict),
      signal.get "gate_effect" ≠ .str "blocking") ↔
      ∀ item ∈ items, item.textOr "item_id" "" ≠ "" → Justified context item := by
  have hsignals : (∀ signal ∈ (items.filterMap (itemSignal context)).map (·.toDict),
      signal.get "gate_effect" ≠ .str "blocking") ↔
        ∀ item ∈ items, ∀ signal, itemSignal context item = some signal →
          signal.gateEffect ≠ "blocking" := by
    simp only [List.forall_mem_map, List.mem_filterMap, forall_exists_index, and_imp,
      get_toDict_gateEffect, ne_eq, Value.str.injEq]
    exact ⟨fun h item hitem signal hsignal => h signal item hitem hsignal,
      fun h signal item hitem hsignal => h item hitem signal hsignal⟩
  rw [hsignals]
  refine forall₂_congr fun item _ => ?_
  by_cases hnamed : item.textOr "item_id" "" = ""
  · simp [itemSignal_of_unnamed hnamed, hnamed]
  · simp only [itemSignal_blocking_iff hobserved hnamed, ne_eq, hnamed, not_false_eq_true,
      true_imp_iff]

end Verdict

/-- The gate passes a session exactly when it can be read, its rows and the observations leave
nothing open, and every item with an id is justified in the stack that was observed. -/
theorem passes_iff (session : Dict) (observations : Observations) :
    Passes session observations ↔ ∃ items context, sessionItems session = some items ∧
      currentStackContext session = some context ∧ observations.Clear items [] ∧
      ∀ item ∈ items, item.textOr "item_id" "" ≠ "" → Justified context item := by
  have key {items : List Dict} {context : Option StackContext}
      (hitems : sessionItems session = some items)
      (hcontext : currentStackContext session = some context) :
      Passes session observations ↔ observations.Clear items [] ∧
        ∀ item ∈ items, item.textOr "item_id" "" ≠ "" → Justified context item := by
    rw [passes_iff_finalGatePassed observations hitems hcontext, finalGatePassed_iff]
    refine (observations.clear_iff _).trans (and_congr_right fun _ => ?_)
    exact signals_unblocked_iff (observed_of_currentStackContext hcontext)
  constructor
  · intro h
    obtain ⟨⟨items, hitems⟩, context, hcontext⟩ := readable_of_passes observations h
    exact ⟨items, context, hitems, hcontext, (key hitems hcontext).mp h⟩
  · rintro ⟨items, context, hitems, hcontext, h⟩
    exact (key hitems hcontext).mpr h

/-- A note of text is read alike by both layers. -/
theorem hasContent_text {note : Value} (h : note = .null ∨ ∃ text, note = .str text) :
    GhAddressCr.hasContent note = hasContent note := by
  obtain rfl | ⟨text, rfl⟩ := h
  · simp [GhAddressCr.hasContent, hasContent]
  · simp [GhAddressCr.hasContent, hasContent]

theorem hasAttachedEvidence_iff {item : Dict} (hnote : item.get "resolution_note" = .null ∨
    ∃ text, item.get "resolution_note" = .str text) :
    attachedBindings item ≠ [] ↔
      validationEvidenceHasSuccess ((item.get "evidence").field "validation") = true ∨
        validationEvidenceHasSuccess ((item.get "evidence").field "validation_evidence") = true ∨
          hasResolutionNote item = true := by
  unfold attachedBindings hasResolutionNote Value.field
  rw [hasContent_text hnote]
  cases hevidence : (item.get "evidence").toDict? with
  | none =>
      simp only [Option.map_none, Option.getD_none, validationEvidenceHasSuccess,
        Option.isNone_none, Bool.true_and, Bool.false_eq_true, false_or]
      split <;> simp_all
  | some evidence =>
      simp only [Option.map_some, Option.getD_some, Option.isNone_some, Bool.false_and,
        Bool.false_eq_true, or_false, ← Bool.or_eq_true]
      split <;> simp_all

/-- The kernel and logic validation agree on which items have evidence, as far as the item itself
goes and its note is a text: an accepted response counts for logic validation alone. -/
theorem layers_agree {item : Dict} (haccepted : (item.get "accepted_response").toDict? = none)
    (hnote : item.get "resolution_note" = .null ∨
      ∃ text, item.get "resolution_note" = .str text) :
    hasValidationEvidence item = true ↔ ∃ binding, Evidence item binding := by
  have hbindings : (∃ binding, Evidence item binding) ↔
      hasRecordedSuccess item = true ∨ attachedBindings item ≠ [] := by
    simp only [← mem_validationEvidenceBindings, validationEvidenceBindings, haccepted]
    rw [← List.isEmpty_eq_false_iff_exists_mem, List.isEmpty_eq_false_iff]
    cases hasRecordedSuccess item <;> simp
  rw [hbindings, hasAttachedEvidence_iff hnote]
  simp only [hasValidationEvidence, hasValidationSuccess, hasRecordedSuccess, Bool.or_eq_true,
    or_assoc]

theorem itemSignal_restacked {context moved : StackContext} (h : Restacked context moved)
    (item : Dict) : itemSignal (some moved) item = itemSignal (some context) item := by
  have hstatus (binding : Value) :
      revisionEvidenceStatus binding moved = revisionEvidenceStatus binding context := by
    rw [revisionEvidenceStatus, revisionEvidenceStatus, h.compare]
  have hitem : itemRevisionEvidenceStatus item moved = itemRevisionEvidenceStatus item context := by
    simp only [itemRevisionEvidenceStatus, hstatus]
  simp only [itemSignal, Option.map_some, hitem]

/-- Evidence is judged by the item's own binding, or is that of its accepted response. -/
theorem Evidence.source {item : Dict} {binding : Value} (h : Evidence item binding) :
    binding = item.get "revision_binding" ∨
      ∃ response, (item.get "accepted_response").toDict? = some response ∧
        hasRecordedSuccess response ∧ binding = response.get "revision_binding" := by
  cases h with
  | recorded _ => exact .inl rfl
  | accepted hresponse hsuccess => exact .inr ⟨_, hresponse, hsuccess, rfl⟩
  | attached _ _ => exact .inl rfl
  | noted _ _ _ => exact .inl rfl

/-- A binding proves one tree. -/
theorem ProvesRevision.tree {context moved : StackContext} {binding : Value}
    (h : ProvesRevision context binding) (h' : ProvesRevision moved binding) :
    context.selectedPr.map (·.headTreeOid) = moved.selectedPr.map (·.headTreeOid) := by
  obtain ⟨given, hgiven, -, hbound⟩ := h
  obtain ⟨given', hgiven', -, hbound'⟩ := h'
  obtain rfl : given = given' := Option.some.inj (hgiven.symm.trans hgiven')
  obtain ⟨member, hmember, htree, -⟩ := hbound.tree
  obtain ⟨member', hmember', htree', -⟩ := hbound'.tree
  have hsame : member.headTreeOid = member'.headTreeOid :=
    Value.str.inj (htree.symm.trans htree')
  rw [hmember, hmember', Option.map_some, Option.map_some, hsame]

/-- An item with evidence for two trees has evidence of its own and an accepted response with
another binding. -/
theorem accepted_of_two_trees {context moved : StackContext} {item : Dict}
    {binding binding' : Value}
    (hevidence : Evidence item binding) (hproves : ProvesRevision context binding)
    (hevidence' : Evidence item binding') (hproves' : ProvesRevision moved binding')
    (htrees : context.selectedPr.map (·.headTreeOid) ≠ moved.selectedPr.map (·.headTreeOid)) :
    ∃ response, (item.get "accepted_response").toDict? = some response ∧
      hasRecordedSuccess response ∧
      response.get "revision_binding" ≠ item.get "revision_binding" := by
  have hne : binding ≠ binding' := by
    rintro rfl
    exact htrees (hproves.tree hproves')
  obtain hown | ⟨response, hresponse, hsuccess, hbinding⟩ := hevidence.source
  · obtain hown' | ⟨response, hresponse, hsuccess, hbinding⟩ := hevidence'.source
    · exact absurd (hown.trans hown'.symm) hne
    · exact ⟨response, hresponse, hsuccess, hown ▸ hbinding ▸ hne.symm⟩
  · obtain hown' | ⟨response', hresponse', -, hbinding'⟩ := hevidence'.source
    · exact ⟨response, hresponse, hsuccess, hown' ▸ hbinding ▸ hne⟩
    · obtain rfl := Option.some.inj (hresponse.symm.trans hresponse')
      exact absurd (hbinding.trans hbinding'.symm) hne

/-- Of two sessions with the same items, whose pull request was observed in a stack, the verdict
is the same where the stack was only restacked; where the tree changed, an item that needs
evidence passes in both only by an accepted response with a binding of its own. -/
theorem verdict_follows_tree {session other : Dict} {context moved : StackContext}
    (hitems : sessionItems other = sessionItems session)
    (hcontext : currentStackContext session = some (some context))
    (hmoved : currentStackContext other = some (some moved)) :
    (Restacked context moved →
      generateLogicValidationSignals other = generateLogicValidationSignals session ∧
      ∀ observations, Passes other observations ↔ Passes session observations) ∧
    (context.selectedPr.map (·.headTreeOid) ≠ moved.selectedPr.map (·.headTreeOid) →
      ∀ observations observations', Passes session observations → Passes other observations' →
        ∀ items, sessionItems session = some items → ∀ item ∈ items,
          item.textOr "item_id" "" ≠ "" → requiresValidationEvidence item →
          ∃ response, (item.get "accepted_response").toDict? = some response ∧
            hasRecordedSuccess response ∧
            response.get "revision_binding" ≠ item.get "revision_binding") := by
  constructor
  · intro hrestacked
    have hsignal := funext (itemSignal_restacked hrestacked)
    have hsignals : generateLogicValidationSignals other =
        generateLogicValidationSignals session := by
      simp only [generateLogicValidationSignals, hitems, hcontext, hmoved, Option.bind_eq_bind,
        Option.bind_some, hsignal]
    refine ⟨hsignals, fun observations => ?_⟩
    cases hread : sessionItems session with
    | none =>
        refine iff_of_false (fun h => ?_) fun h => ?_
        · obtain ⟨⟨items, hsome⟩, -⟩ := readable_of_passes observations h
          simp [hitems, hread] at hsome
        · obtain ⟨⟨items, hsome⟩, -⟩ := readable_of_passes observations h
          simp [hread] at hsome
    | some items =>
        rw [passes_iff_finalGatePassed observations (hitems.trans hread) hmoved,
          passes_iff_finalGatePassed observations hread hcontext, hsignal]
  · intro htrees observations observations' hpasses hpasses' items hread item hitem hnamed
      hrequired
    obtain ⟨items₁, context₁, hitems₁, hcontext₁, -, hjustified⟩ := (passes_iff _ _).mp hpasses
    obtain ⟨items₂, context₂, hitems₂, hcontext₂, -, hjustified'⟩ := (passes_iff _ _).mp hpasses'
    obtain rfl := Option.some.inj (hread.symm.trans hitems₁)
    obtain rfl := Option.some.inj (hread.symm.trans (hitems.symm.trans hitems₂))
    obtain rfl := Option.some.inj (hcontext.symm.trans hcontext₁)
    obtain rfl := Option.some.inj (hmoved.symm.trans hcontext₂)
    obtain ⟨binding, hevidence, hproves⟩ := (hjustified item hitem hnamed).evidenced hrequired
    obtain ⟨binding', hevidence', hproves'⟩ := (hjustified' item hitem hnamed).evidenced hrequired
    exact accepted_of_two_trees hevidence (hproves context rfl) hevidence' (hproves' moved rfl)
      htrees

/-- A pull request of a stack, as it is serialized. -/
def sampleMember (position : Int) (number base head headOid : String) : Value :=
  .dict
    [("position", .int position), ("pr_number", .str number), ("state", .str "OPEN"),
      ("is_draft", .bool false), ("base_ref_name", .str base), ("head_ref_name", .str head),
      ("head_oid", .str headOid), ("head_tree_oid", .str ("t" ++ number)),
      ("merge_queue_state", .null)]

/-- A fixed finding in the upper of two pull requests, with evidence for its tree. -/
def sampleStackSession (headOid : String) : Dict :=
  Dict.ofFields
    [("repo", .str "o/r"), ("pr_number", .str "2"),
      ("items", .list [.dict
        [("item_id", .str "local:1"), ("item_kind", .str "local_finding"), ("state", .str "fixed"),
          ("validation_commands", .list [.str "make"]),
          ("revision_binding", .dict
            [("schema_version", .str revisionBindingSchemaVersion), ("pr_number", .str "2"),
              ("head_tree_oid", .str "t2")])]]),
      ("metadata", .dict [("pull_request_context", .dict [("stack_context", .dict
        [("availability", .str "present"),
          ("stack", .dict
            [("number", .int 1), ("trunk_ref_name", .str "main"), ("size", .int 2),
              ("members", .list
                [sampleMember 1 "1" "main" "a" "h1", sampleMember 2 "2" "a" "b" headOid])])])])])]

/-- Both revisions of the upper pull request are judged alike. -/
theorem verdict_follows_tree_rebased : ∃ context moved : StackContext,
    context.selectedPr.map (·.headOid) = some "x" ∧ moved.selectedPr.map (·.headOid) = some "y" ∧
      generateLogicValidationSignals (sampleStackSession "x") = some [] ∧
      generateLogicValidationSignals (sampleStackSession "y") =
        generateLogicValidationSignals (sampleStackSession "x") ∧
      ∀ observations, Passes (sampleStackSession "y") observations ↔
        Passes (sampleStackSession "x") observations := by
  have h : (((currentStackContext (sampleStackSession "x")).bind id).any fun context =>
      ((currentStackContext (sampleStackSession "y")).bind id).any fun moved =>
        context.selectedPr.map (·.headOid) = some "x" ∧
          moved.selectedPr.map (·.headOid) = some "y" ∧
          generateLogicValidationSignals (sampleStackSession "x") = some [] ∧
          sessionItems (sampleStackSession "y") = sessionItems (sampleStackSession "x") ∧
          moved.availability = context.availability ∧
          moved.selectedPrNumber = context.selectedPrNumber ∧
          moved.stackNumber = context.stackNumber ∧
          (moved.selectedPr.map fun member => (member.prNumber, member.headTreeOid)) =
            context.selectedPr.map fun member => (member.prNumber, member.headTreeOid)) = true := by
    decide +kernel
  obtain ⟨context, hcontext, h⟩ := (Option.any_eq_true _ _).mp h
  obtain ⟨moved, hmoved, h⟩ := (Option.any_eq_true _ _).mp h
  obtain ⟨hx, hy, hsignals, hitems, havailability, hnumber, hstack, hselected⟩ :=
    of_decide_eq_true h
  obtain ⟨_, hcurrent, rfl⟩ := Option.bind_eq_some_iff.mp hcontext
  obtain ⟨_, hcurrent', rfl⟩ := Option.bind_eq_some_iff.mp hmoved
  have hsame := (verdict_follows_tree hitems hcurrent hcurrent').1
    ⟨havailability, hnumber, hstack, hselected⟩
  exact ⟨context, moved, hx, hy, hsignals, hsame.1, hsame.2⟩

end GhAddressCr.LogicValidation
