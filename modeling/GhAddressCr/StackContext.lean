import GhAddressCr.Session
import Mathlib.Data.List.Sort

/-!
# Stack contexts

An observation of the stack a pull request belongs to is validated into a context: the
ordered members, the selected one, and a fingerprint of the topology. Everything a check on
stacks decides is decided on such a context.
-/
namespace GhAddressCr

open PyText

inductive PullRequestState where
  | openState | closed | merged
  deriving DecidableEq, Repr

namespace PullRequestState

def value : PullRequestState → String
  | .openState => "OPEN"
  | .closed => "CLOSED"
  | .merged => "MERGED"

/-- The state with this text, if it is one of `PULL_REQUEST_STATES`. -/
def parse (text : String) : Option PullRequestState :=
  [openState, closed, merged].find? (·.value == text)

end PullRequestState

structure PullRequestMemberFact where
  position : Int
  prNumber : String
  state : PullRequestState
  isDraft : Bool
  baseRefName : String
  headRefName : String
  headOid : String
  headTreeOid : String
  mergeQueueState : Option String
  deriving DecidableEq

/-- The name of a value's type in an error text. -/
def typeName : Value → String
  | .null => "NoneType"
  | .bool _ => "bool"
  | .int _ => "int"
  | .float _ _ => "float"
  | .str _ => "str"
  | .time _ => "datetime.datetime"
  | .list _ => "list"
  | .dict _ => "dict"

/-- The text of the error `int(value)` raises. -/
def intErrorText : Value → String
  | .str s =>
      let digits := ((stripChars s.toList).takeWhile fun c => (digit? c).isSome).length
      if maxIntDigits < digits then
        "Exceeds the limit (4300 digits) for integer string conversion: value has " ++
          toString digits ++ " digits; use sys.set_int_max_str_digits() to increase the limit"
      else "invalid literal for int() with base 10: " ++ Value.reprStr s
  | value =>
      "int() argument must be a string, a bytes-like object or a real number, not \x27" ++
        typeName value ++ "\x27"

/-- `int(value)`, or the text of its error. -/
def intOrError (value : Value) : Except String Int :=
  match value.toInt? with
  | some number => .ok number
  | none => .error (intErrorText value)

/-- The ranges of the characters that are digits but not decimal ones. -/
def otherDigitRanges : List (Nat × Nat) :=
  [(0xb2, 0xb3), (0xb9, 0xb9), (0x1369, 0x1371), (0x19da, 0x19da), (0x2070, 0x2070),
    (0x2074, 0x2079), (0x2080, 0x2089), (0x2460, 0x2468), (0x2474, 0x247c), (0x2488, 0x2490),
    (0x24ea, 0x24ea), (0x24f5, 0x24fd), (0x24ff, 0x24ff), (0x2776, 0x277e), (0x2780, 0x2788),
    (0x278a, 0x2792), (0x10a40, 0x10a43), (0x10e60, 0x10e68), (0x11052, 0x1105a),
    (0x1f100, 0x1f10a)]

/-- `text.isdigit()`. -/
def isDigitText (text : String) : Bool :=
  text ≠ "" && text.toList.all fun c =>
    (digit? c).isSome || otherDigitRanges.any fun r => r.1 ≤ c.toNat && c.toNat ≤ r.2

namespace PullRequestMemberFact

/-- `PullRequestMemberFact.from_dict`, or the text of the error it raises. -/
def fromDict (payload : Dict) : Except String PullRequestMemberFact := do
  let position ← intOrError ((payload.get "position").orElse (.int 0))
  let prNumber := strip (payload.textOr "pr_number" "")
  let baseRefName := strip (payload.textOr "base_ref_name" "")
  let headRefName := strip (payload.textOr "head_ref_name" "")
  let headOid := strip (payload.textOr "head_oid" "")
  let headTreeOid := strip (payload.textOr "head_tree_oid" "")
  let queueState := payload.get "merge_queue_state"
  if position < 1 then throw "invalid_position"
  if !isDigitText prNumber then throw "invalid_pr_number"
  if (← intOrError (.str prNumber)) < 1 then throw "invalid_pr_number"
  match PullRequestState.parse (upper (payload.textOr "state" "")) with
  | none => throw "invalid_member_state"
  | some state =>
      if baseRefName = "" then throw "missing_base_ref"
      if headRefName = "" then throw "missing_head_ref"
      if headOid = "" then throw "missing_head_oid"
      -- The head branch of a merged member is usually deleted, so its tree gates nothing.
      if headTreeOid = "" ∧ state ≠ .merged then throw "missing_head_tree_oid"
      return {
        position, prNumber, state, baseRefName, headRefName, headOid, headTreeOid
        isDraft := (payload.get "is_draft").truthy
        mergeQueueState := if queueState.truthy then some (lower queueState.text) else none }

def toDict (member : PullRequestMemberFact) : Dict :=
  Dict.ofFields
    [("position", .int member.position), ("pr_number", .str member.prNumber),
      ("state", .str member.state.value), ("is_draft", .bool member.isDraft),
      ("base_ref_name", .str member.baseRefName), ("head_ref_name", .str member.headRefName),
      ("head_oid", .str member.headOid), ("head_tree_oid", .str member.headTreeOid),
      ("merge_queue_state", (member.mergeQueueState.map .str).getD .null)]

end PullRequestMemberFact

/-- What reading one member row raises: a row that is no mapping escapes the handlers. -/
inductive MemberError where
  | attributeError
  | reported (text : String)
  deriving DecidableEq

/-- `PullRequestMemberFact.from_dict` on a row as it was received. -/
def memberOfRow (row : Value) : Except MemberError PullRequestMemberFact :=
  match row.toDict? with
  | none => .error .attributeError
  | some payload => (PullRequestMemberFact.fromDict payload).mapError .reported

inductive StackAvailability where
  | absent | present | unavailable | invalid
  deriving DecidableEq, Repr

namespace StackAvailability

def value : StackAvailability → String
  | .absent => "absent"
  | .present => "present"
  | .unavailable => "unavailable"
  | .invalid => "invalid"

/-- The availability with this text, if it is one of `STACK_AVAILABILITIES`. -/
def parse (text : String) : Option StackAvailability :=
  [absent, present, unavailable, invalid].find? (·.value == text)

end StackAvailability

structure StackContext where
  availability : StackAvailability
  repo : String
  selectedPrNumber : String
  observedAt : String
  stackNodeId : Option String := none
  stackNumber : Option Int := none
  trunkRefName : Option String := none
  reportedSize : Option Int := none
  selectedPosition : Option Int := none
  members : List PullRequestMemberFact := []
  selectedPr : Option PullRequestMemberFact := none
  topologyFingerprint : Option Digest := none
  diagnosticCode : Option String := none
  invalidInvariant : Option String := none
  diagnosticCause : Option String := none
  deriving DecidableEq

def stackObservationSchemaVersion : String := "stack_observation.v1"

/-- `_invalid_context`. -/
def invalidContext (repo selectedPrNumber observedAt invariant : String) : StackContext where
  availability := .invalid
  repo
  selectedPrNumber
  observedAt
  diagnosticCode := some "STACK_CONTEXT_INVALID"
  invalidInvariant := some invariant

/-- `_fingerprint_absent`. -/
def fingerprintAbsent (repo : String) (selectedPr : PullRequestMemberFact) : Digest :=
  ⟨(Dict.ofFields [("repo", .str repo), ("selected_pr", selectedPr.toDict.toValue)]).toValue⟩

/-- `_fingerprint_present`. -/
def fingerprintPresent (context : StackContext) : Digest :=
  let text := fun value : Option String => (value.map Value.str).getD .null
  let number := fun value : Option Int => (value.map Value.int).getD .null
  ⟨(Dict.ofFields
    [("repo", .str context.repo), ("stack_node_id", text context.stackNodeId),
      ("stack_number", number context.stackNumber),
      ("trunk_ref_name", text context.trunkRefName),
      ("reported_size", number context.reportedSize),
      ("members", .list (context.members.map (·.toDict.toValue)))]).toValue⟩

/-- The chain of the unmerged members: each is based on the head of the one below. -/
def dependencyChainHolds : List PullRequestMemberFact → Bool
  | lower :: upper :: rest =>
      upper.baseRefName == lower.headRefName && dependencyChainHolds (upper :: rest)
  | _ => true

/-- `_stack_invariant_failure`. -/
def stackInvariantFailure (members : List PullRequestMemberFact)
    (selectedPrNumber trunkRefName : String) : Option String :=
  let unmerged := members.dropWhile (·.state = .merged)
  if members.length < 2 then some "stack_requires_two_members"
  else if members.map (·.position) ≠ (List.range members.length).map fun i => (i : Int) + 1 then
    some "positions_not_contiguous"
  else if ¬ (members.map (·.prNumber)).Nodup then some "duplicate_member_pr_number"
  else if members.countP (·.prNumber = selectedPrNumber) ≠ 1 then
    some "selected_member_missing_or_duplicate"
  else if unmerged.any (·.state = .merged) then some "merged_members_not_prefix"
  else
    match unmerged with
    | [] => none
    | lowest :: _ =>
        if lowest.baseRefName ≠ trunkRefName then some "lowest_unmerged_base_mismatch"
        else if !dependencyChainHolds unmerged then some "dependency_chain_mismatch"
        else none

/-- The root fields of an observation. -/
structure ObservationHeader where
  repo : String
  selectedPrNumber : String
  observedAt : String

namespace ObservationHeader

def invalid (header : ObservationHeader) (invariant : String) : StackContext :=
  invalidContext header.repo header.selectedPrNumber header.observedAt invariant

end ObservationHeader

/-- An unstacked observation; `none` where an `AttributeError` escapes. -/
def projectAbsent (header : ObservationHeader) (payload : Dict) : Option StackContext :=
  if !payload.has "selected_pr" then some (header.invalid "\x27selected_pr\x27")
  else
    match memberOfRow (payload.get "selected_pr") with
    | .error .attributeError => none
    | .error (.reported text) => some (header.invalid text)
    | .ok selectedPr =>
        if selectedPr.prNumber ≠ header.selectedPrNumber then
          some (header.invalid "selected_member_mismatch")
        else some {
          availability := .absent, repo := header.repo
          selectedPrNumber := header.selectedPrNumber, observedAt := header.observedAt
          selectedPr := some selectedPr
          topologyFingerprint := some (fingerprintAbsent header.repo selectedPr) }

/-- The context of members that satisfy the stack invariants, up to its fingerprint. -/
def stackedContext (header : ObservationHeader) (payload : Dict)
    (members : List PullRequestMemberFact) (selectedPr : PullRequestMemberFact)
    (stackNodeId : String) (stackNumber : Int) : StackContext where
  availability := .present
  repo := header.repo
  selectedPrNumber := header.selectedPrNumber
  observedAt := header.observedAt
  stackNodeId := some stackNodeId
  stackNumber := some stackNumber
  trunkRefName := some (strip (payload.textOr "trunk_ref_name" ""))
  reportedSize := (payload.get "reported_size").toInt?
  selectedPosition := some selectedPr.position
  members
  selectedPr := some selectedPr

/-- A stacked observation whose member rows have been read. -/
def projectMembers (header : ObservationHeader) (payload : Dict)
    (facts : List PullRequestMemberFact) : Option StackContext :=
  let members := facts.insertionSort fun a b => a.position ≤ b.position
  let trunkRefName := strip (payload.textOr "trunk_ref_name" "")
  match stackInvariantFailure members header.selectedPrNumber trunkRefName with
  | some invariant => some (header.invalid invariant)
  | none =>
      (members.find? (·.prNumber = header.selectedPrNumber)).map fun selectedPr =>
        let stackNodeId := strip (payload.textOr "stack_node_id" "")
        if stackNodeId = "" then header.invalid "missing_stack_node_id"
        else
          match (payload.get "stack_number").toInt? with
          | none => header.invalid "invalid_stack_number"
          | some stackNumber =>
              if stackNumber < 1 then header.invalid "invalid_stack_number"
              else
                let context := stackedContext header payload members selectedPr stackNodeId
                  stackNumber
                { context with topologyFingerprint := some (fingerprintPresent context) }

/-- A stacked observation; `none` where an `AttributeError` escapes. -/
def projectPresent (header : ObservationHeader) (payload : Dict) : Option StackContext :=
  match payload.get "members" with
  | .list rows =>
      if (payload.get "reported_size").toInt? ≠ some (rows.length : Int) then
        some (header.invalid "reported_size_mismatch")
      else
        match rows.mapM memberOfRow with
        | .error .attributeError => none
        | .error (.reported text) => some (header.invalid text)
        | .ok facts => projectMembers header payload facts
  | _ => some (header.invalid "members_not_array")

def projectStackContext (payload : Dict) : Option StackContext :=
  let header : ObservationHeader :=
    { repo := strip (payload.textOr "repo" "")
      selectedPrNumber := strip (payload.textOr "selected_pr_number" "")
      observedAt := strip (payload.textOr "observed_at" "") }
  if payload.get "schema_version" ≠ .str stackObservationSchemaVersion then
    some (header.invalid "unsupported_schema")
  else
    match StackAvailability.parse (lower (payload.textOr "availability" "invalid")) with
    | none => some (header.invalid "invalid_availability")
    | some .unavailable =>
        some {
          availability := .unavailable, repo := header.repo
          selectedPrNumber := header.selectedPrNumber, observedAt := header.observedAt
          diagnosticCode := some "STACK_CONTEXT_UNAVAILABLE"
          diagnosticCause :=
            if (payload.get "diagnostic_cause").truthy then
              some (payload.get "diagnostic_cause").text
            else none }
    | some .invalid => some (header.invalid (payload.textOr "invalid_invariant" "upstream_invalid"))
    | some .absent => projectAbsent header payload
    | some .present => projectPresent header payload

/-- The selected pull request of a context that carries stack facts is one of them, and a
context that carries none says why. -/
structure StackContext.Valid (context : StackContext) : Prop where
  diagnosed : context.availability = .unavailable ∨ context.availability = .invalid →
    context.diagnosticCode.isSome
  selected : context.availability = .absent ∨ context.availability = .present →
    ∃ selectedPr, context.selectedPr = some selectedPr ∧
      selectedPr.prNumber = context.selectedPrNumber
  placed : ∀ selectedPr, context.availability = .present → context.selectedPr = some selectedPr →
    selectedPr ∈ context.members ∧ context.selectedPosition = some selectedPr.position

theorem ObservationHeader.invalid_valid (header : ObservationHeader) (invariant : String) :
    (header.invalid invariant).Valid where
  diagnosed _ := rfl
  selected h := by simp [ObservationHeader.invalid, invalidContext] at h
  placed _ h := by simp [ObservationHeader.invalid, invalidContext] at h

theorem projectAbsent_valid {header : ObservationHeader} {payload : Dict}
    {context : StackContext} (h : projectAbsent header payload = some context) :
    context.Valid := by
  unfold projectAbsent at h
  split at h
  · obtain rfl := Option.some.inj h
    exact header.invalid_valid _
  · split at h
    · cases h
    · obtain rfl := Option.some.inj h
      exact header.invalid_valid _
    · split at h
      · obtain rfl := Option.some.inj h
        exact header.invalid_valid _
      · next selectedPr _ hnumber =>
        obtain rfl := Option.some.inj h
        have hnumber : selectedPr.prNumber = header.selectedPrNumber := by
          simpa using hnumber
        exact ⟨by simp, fun _ => ⟨selectedPr, rfl, hnumber⟩, by simp⟩

theorem projectMembers_valid {header : ObservationHeader} {payload : Dict}
    {facts : List PullRequestMemberFact} {context : StackContext}
    (h : projectMembers header payload facts = some context) : context.Valid := by
  unfold projectMembers at h
  simp only at h
  split at h
  · obtain rfl := Option.some.inj h
    exact header.invalid_valid _
  · obtain ⟨selectedPr, hfind, rfl⟩ := Option.map_eq_some_iff.mp h
    have hmem := List.mem_of_find?_eq_some hfind
    have hnumber : selectedPr.prNumber = header.selectedPrNumber := by
      simpa using List.find?_some hfind
    split
    · exact header.invalid_valid _
    · split
      · exact header.invalid_valid _
      · split
        · exact header.invalid_valid _
        · refine ⟨by simp [stackedContext], fun _ => ⟨selectedPr, rfl, hnumber⟩, ?_⟩
          intro other _ hother
          obtain rfl : selectedPr = other := by simpa [stackedContext] using hother
          exact ⟨hmem, rfl⟩

theorem projectPresent_valid {header : ObservationHeader} {payload : Dict}
    {context : StackContext} (h : projectPresent header payload = some context) :
    context.Valid := by
  unfold projectPresent at h
  split at h
  · split at h
    · obtain rfl := Option.some.inj h
      exact header.invalid_valid _
    · split at h
      · cases h
      · obtain rfl := Option.some.inj h
        exact header.invalid_valid _
      · exact projectMembers_valid h
  · obtain rfl := Option.some.inj h
    exact header.invalid_valid _

/-- Every context that an observation projects to is valid. -/
theorem projectStackContext_valid {payload : Dict} {context : StackContext}
    (h : projectStackContext payload = some context) : context.Valid := by
  unfold projectStackContext at h
  simp only at h
  split at h
  · obtain rfl := Option.some.inj h
    exact ObservationHeader.invalid_valid _ _
  · split at h
    · obtain rfl := Option.some.inj h
      exact ObservationHeader.invalid_valid _ _
    · obtain rfl := Option.some.inj h
      exact ⟨fun _ => rfl, by simp, by simp⟩
    · obtain rfl := Option.some.inj h
      exact ObservationHeader.invalid_valid _ _
    · exact projectAbsent_valid h
    · exact projectPresent_valid h

structure StackSegmentProjection where
  mergedPrefix : List PullRequestMemberFact
  includedMembers : List PullRequestMemberFact
  excludedUpperMembers : List PullRequestMemberFact
  deriving DecidableEq

def projectStackSegment (context : StackContext) : StackSegmentProjection :=
  match context.availability, context.selectedPr, context.selectedPosition with
  | .absent, some selectedPr, _ => ⟨[], [selectedPr], []⟩
  | .present, _, some selectedPosition =>
      let active := context.members.filter (·.state ≠ .merged)
      { mergedPrefix := context.members.filter (·.state = .merged)
        includedMembers := active.filter (·.position ≤ selectedPosition)
        excludedUpperMembers := active.filter (selectedPosition < ·.position) }
  | _, _, _ => ⟨[], [], []⟩

def revisionBindingSchemaVersion : String := "revision_binding.v2"

/-- A digest as it is written into a document. -/
def Digest.toValue (digest : Digest) : Value := .dict [("sha256", digest.document)]

def revisionBindingForContext (context : StackContext) : Option Dict :=
  match context.availability, context.selectedPr, context.stackNumber with
  | .present, some selected, some stackNumber =>
      some (Dict.ofFields
        [("schema_version", .str revisionBindingSchemaVersion),
          ("pr_number", .str selected.prNumber), ("head_oid", .str selected.headOid),
          ("head_tree_oid", .str selected.headTreeOid), ("stack_number", .int stackNumber),
          ("stack_position", .int selected.position),
          ("topology_fingerprint", (context.topologyFingerprint.map (·.toValue)).getD .null),
          ("captured_at", .str context.observedAt)])
  | _, _, _ => none

/-- `compare_revision_binding`: why a binding is no longer current, if it is not. -/
def compareRevisionBinding (binding : Option Dict) (current : StackContext) : Option String :=
  match binding with
  | none => some "FINAL_GATE_UNBOUND_REVISION_EVIDENCE"
  | some binding =>
      if binding.textOr "pr_number" "" ≠ current.selectedPrNumber then
        some "STACK_ACTION_CONTEXT_MISMATCH"
      else
        match current.availability with
        | .invalid => some "STACK_CONTEXT_INVALID"
        | .unavailable => some "STACK_CONTEXT_UNAVAILABLE"
        | .absent => some "STALE_REQUEST_CONTEXT"
        | .present =>
            match revisionBindingForContext current with
            | none => some "STACK_CONTEXT_UNAVAILABLE"
            | some expected =>
                -- The other fields of a binding are kept for audit only.
                if ["schema_version", "pr_number", "head_tree_oid"].any fun field =>
                    binding.get field ≠ expected.get field then
                  some "STALE_REQUEST_CONTEXT"
                else none

end GhAddressCr
