import GhAddressCr.RequestDocuments
import GhAddressCr.StackShape

/-!
# Bindings to a revision

Evidence is bound to the tree of the pull request it was given for. A binding is compared with
the current context by schema, number and tree alone, and a context that was written into a
document reads back with the same binding.
-/
namespace GhAddressCr

open PyText

namespace PullRequestMemberFact

/-- What a mapping has to say for a member to be read from it. -/
structure ReadFrom (payload : Dict) (member : PullRequestMemberFact) : Prop where
  position : intOrError ((payload.get "position").orElse (.int 0)) = .ok member.position
  positive : 1 ≤ member.position
  prNumber : strip (payload.textOr "pr_number" "") = member.prNumber
  digits : isDigitText member.prNumber = true
  number : ∃ number : Int, intOrError (.str member.prNumber) = .ok number ∧ 1 ≤ number
  state : PullRequestState.parse (upper (payload.textOr "state" "")) = some member.state
  isDraft : (payload.get "is_draft").truthy = member.isDraft
  baseRefName : strip (payload.textOr "base_ref_name" "") = member.baseRefName
  headRefName : strip (payload.textOr "head_ref_name" "") = member.headRefName
  headOid : strip (payload.textOr "head_oid" "") = member.headOid
  headTreeOid : strip (payload.textOr "head_tree_oid" "") = member.headTreeOid
  based : member.baseRefName ≠ ""
  headed : member.headRefName ≠ ""
  identified : member.headOid ≠ ""
  treed : member.headTreeOid = "" → member.state = .merged
  queue : (if (payload.get "merge_queue_state").truthy then
    some (lower (payload.get "merge_queue_state").text) else none) = member.mergeQueueState

theorem readFrom_of_fromDict {payload : Dict} {member : PullRequestMemberFact}
    (h : fromDict payload = .ok member) : ReadFrom payload member := by
  unfold fromDict at h
  simp only [bind, Except.bind, pure, Except.pure, throw, throwThe, MonadExceptOf.throw] at h
  generalize hqueue : (if (payload.get "merge_queue_state").truthy then
    some (lower (payload.get "merge_queue_state").text) else none) = queue at h
  repeat' split at h
  all_goals try cases h
  next _ position hposition hpositive hdigits _ number hnumber hnumberPositive _ state hstate
      hbase hhead hoid htree =>
    exact {
      position := hposition
      positive := by simpa using hpositive
      prNumber := rfl
      digits := by simpa using hdigits
      number := ⟨number, hnumber, by simpa using hnumberPositive⟩
      state := hstate
      isDraft := rfl
      baseRefName := rfl
      headRefName := rfl
      headOid := rfl
      headTreeOid := rfl
      based := hbase
      headed := hhead
      identified := hoid
      treed := fun hempty => not_not.mp fun hmerged => htree ⟨hempty, hmerged⟩
      queue := hqueue }

theorem ReadFrom.fromDict {payload : Dict} {member : PullRequestMemberFact}
    (h : ReadFrom payload member) : fromDict payload = .ok member := by
  obtain ⟨number, hnumber, hpositive⟩ := h.number
  have htree : ¬ (member.headTreeOid = "" ∧ member.state ≠ .merged) :=
    fun hmissing => hmissing.2 (h.treed hmissing.1)
  have hposition := h.positive
  unfold PullRequestMemberFact.fromDict
  simp only [h.position, h.prNumber, h.digits, hnumber, h.state, h.baseRefName, h.headRefName,
    h.headOid, h.headTreeOid, h.isDraft, h.queue, h.based, h.headed, h.identified, htree, bind,
    Except.bind, pure, Except.pure, Int.not_lt.mpr hposition, Int.not_lt.mpr hpositive,
    Bool.not_true, Bool.false_eq_true, if_false]

theorem textOr_of_str {d : Dict} {key text : String} (h : d.get key = .str text) :
    d.textOr key "" = text := by
  unfold Dict.textOr Value.orElse
  rw [h]
  by_cases hempty : text = ""
  · simp [hempty]
  · simp [hempty]

/-- A member that was read is read again from its own fields. -/
theorem ReadFrom.toDict {payload : Dict} {member : PullRequestMemberFact}
    (h : ReadFrom payload member) : ReadFrom member.toDict member := by
  have htext : ∀ (key text : String), member.toDict.get key = .str text → strip text = text →
      strip (member.toDict.textOr key "") = text := by
    intro key text hget hstrip
    rw [textOr_of_str hget, hstrip]
  have hposition := h.positive
  constructor
  · have hget : member.toDict.get "position" = .int member.position := by
      simp [PullRequestMemberFact.toDict, Dict.ofFields, Dict.get_insert]
    have htruthy : (Value.int member.position).truthy = true := by
      simp only [Value.truthy, bne_iff_ne, ne_eq]
      omega
    rw [hget, Value.orElse, if_pos htruthy]
    rfl
  · exact h.positive
  · refine htext _ _ ?_ ?_
    · simp [PullRequestMemberFact.toDict, Dict.ofFields, Dict.get_insert]
    · rw [← h.prNumber, strip_strip]
  · exact h.digits
  · exact h.number
  · have hget : member.toDict.get "state" = .str member.state.value := by
      simp [PullRequestMemberFact.toDict, Dict.ofFields, Dict.get_insert]
    rw [textOr_of_str hget]
    cases member.state <;> decide
  · simp [PullRequestMemberFact.toDict, Dict.ofFields, Dict.get_insert]
  · refine htext _ _ ?_ ?_
    · simp [PullRequestMemberFact.toDict, Dict.ofFields, Dict.get_insert]
    · rw [← h.baseRefName, strip_strip]
  · refine htext _ _ ?_ ?_
    · simp [PullRequestMemberFact.toDict, Dict.ofFields, Dict.get_insert]
    · rw [← h.headRefName, strip_strip]
  · refine htext _ _ ?_ ?_
    · simp [PullRequestMemberFact.toDict, Dict.ofFields, Dict.get_insert]
    · rw [← h.headOid, strip_strip]
  · refine htext _ _ ?_ ?_
    · simp [PullRequestMemberFact.toDict, Dict.ofFields, Dict.get_insert]
    · rw [← h.headTreeOid, strip_strip]
  · exact h.based
  · exact h.headed
  · exact h.identified
  · exact h.treed
  · have hget : member.toDict.get "merge_queue_state" =
        (member.mergeQueueState.map .str).getD .null := by
      simp [PullRequestMemberFact.toDict, Dict.ofFields, Dict.get_insert]
    rw [hget, ← h.queue]
    split
    · next hgiven =>
      have hlower : lower (payload.get "merge_queue_state").text ≠ "" :=
        fun hempty => Value.text_ne_empty hgiven (lower_eq_empty.mp hempty)
      simp [hlower]
    · simp

end PullRequestMemberFact

theorem memberOfRow_read {row : Value} {member : PullRequestMemberFact}
    (h : memberOfRow row = .ok member) : ∃ payload, member.ReadFrom payload := by
  unfold memberOfRow at h
  split at h
  · cases h
  · next payload _ =>
    cases hread : PullRequestMemberFact.fromDict payload with
    | error text => simp [hread, Except.mapError] at h
    | ok found =>
        simp only [hread, Except.mapError, Except.ok.injEq] at h
        subst h
        exact ⟨payload, PullRequestMemberFact.readFrom_of_fromDict hread⟩

theorem memberOfRow_toDict {payload : Dict} {member : PullRequestMemberFact}
    (h : member.ReadFrom payload) : memberOfRow member.toDict.toValue = .ok member := by
  unfold memberOfRow
  rw [Value.toDict?_toValue]
  simp only [h.toDict.fromDict, Except.mapError]

/-- A present context whose fingerprint is its own. -/
def presentContext (header : ObservationHeader) (trunkRefName stackNodeId : String)
    (stackNumber : Int) (members : List PullRequestMemberFact)
    (selectedPr : PullRequestMemberFact) : StackContext :=
  let context : StackContext := {
    availability := .present, repo := header.repo
    selectedPrNumber := header.selectedPrNumber, observedAt := header.observedAt
    stackNodeId := some stackNodeId, stackNumber := some stackNumber
    trunkRefName := some trunkRefName, reportedSize := some (members.length : Int)
    selectedPosition := some selectedPr.position, members, selectedPr := some selectedPr }
  { context with topologyFingerprint := some (fingerprintPresent context) }

/-- The members of a present context, as they were read. -/
structure ReadMembers (header : ObservationHeader) (trunkRefName : String)
    (members : List PullRequestMemberFact) (selectedPr : PullRequestMemberFact) : Prop where
  read : ∀ member ∈ members, ∃ payload, member.ReadFrom payload
  sorted : members.Pairwise fun a b => a.position ≤ b.position
  passes : stackInvariantFailure members header.selectedPrNumber trunkRefName = none
  selected : members.find? (·.prNumber = header.selectedPrNumber) = some selectedPr
  trunk : strip trunkRefName = trunkRefName

/-- The contexts the projector makes of an observation with this header. -/
inductive ProjectsTo (header : ObservationHeader) : StackContext → Prop where
  | invalid (invariant : String) : ProjectsTo header (header.invalid invariant)
  | unavailable (cause : Option String) : ProjectsTo header {
      availability := .unavailable, repo := header.repo
      selectedPrNumber := header.selectedPrNumber, observedAt := header.observedAt
      diagnosticCode := some "STACK_CONTEXT_UNAVAILABLE", diagnosticCause := cause }
  | absent {payload : Dict} {selectedPr : PullRequestMemberFact} :
      selectedPr.ReadFrom payload → selectedPr.prNumber = header.selectedPrNumber →
      ProjectsTo header {
        availability := .absent, repo := header.repo
        selectedPrNumber := header.selectedPrNumber, observedAt := header.observedAt
        selectedPr := some selectedPr
        topologyFingerprint := some (fingerprintAbsent header.repo selectedPr) }
  | present {trunkRefName stackNodeId : String} {stackNumber : Int}
      {members : List PullRequestMemberFact} {selectedPr : PullRequestMemberFact} :
      ReadMembers header trunkRefName members selectedPr → stackNodeId ≠ "" → 1 ≤ stackNumber →
      ProjectsTo header
        (presentContext header trunkRefName stackNodeId stackNumber members selectedPr)

theorem mapM_memberOfRow_read {rows : List Value} {facts : List PullRequestMemberFact}
    (h : rows.mapM memberOfRow = .ok facts) :
    facts.length = rows.length ∧ ∀ member ∈ facts, ∃ payload, member.ReadFrom payload := by
  induction rows generalizing facts with
  | nil =>
      obtain rfl : [] = facts := by simpa [pure, Except.pure] using h
      simp
  | cons row rows ih =>
      rw [List.mapM_cons] at h
      cases hrow : memberOfRow row with
      | error error => simp [hrow, bind, Except.bind] at h
      | ok member =>
          cases hrest : rows.mapM memberOfRow with
          | error error => simp [hrow, hrest, bind, Except.bind] at h
          | ok rest =>
              simp only [hrow, hrest, bind, Except.bind, pure, Except.pure, Except.ok.injEq] at h
              subst h
              obtain ⟨hlength, hread⟩ := ih hrest
              refine ⟨by simp [hlength], fun found hfound => ?_⟩
              rcases List.mem_cons.mp hfound with rfl | hfound
              · exact memberOfRow_read hrow
              · exact hread found hfound

theorem mapM_memberOfRow_toDict {members : List PullRequestMemberFact}
    (h : ∀ member ∈ members, ∃ payload, member.ReadFrom payload) :
    (members.map (·.toDict.toValue)).mapM memberOfRow = .ok members := by
  induction members with
  | nil => rfl
  | cons member members ih =>
      obtain ⟨payload, hread⟩ := h member List.mem_cons_self
      have hrest := ih fun other hother => h other (List.mem_cons_of_mem member hother)
      rw [List.map_cons, List.mapM_cons, memberOfRow_toDict hread, hrest]
      rfl

theorem projectMembers_projectsTo {header : ObservationHeader} {payload : Dict}
    {facts : List PullRequestMemberFact} {context : StackContext}
    (hread : ∀ member ∈ facts, ∃ payload, member.ReadFrom payload)
    (hsize : (payload.get "reported_size").toInt? = some (facts.length : Int))
    (h : projectMembers header payload facts = some context) : ProjectsTo header context := by
  unfold projectMembers at h
  simp only at h
  split at h
  · obtain rfl := Option.some.inj h
    exact .invalid _
  · next hpasses =>
    obtain ⟨selectedPr, hfind, hcontext⟩ := Option.map_eq_some_iff.mp h
    split at hcontext
    · subst hcontext
      exact .invalid _
    · next hnode =>
      split at hcontext
      · subst hcontext
        exact .invalid _
      · next stackNumber _ =>
        split at hcontext
        · subst hcontext
          exact .invalid _
        · next hpositive =>
          subst hcontext
          have hmembers : ReadMembers header (strip (payload.textOr "trunk_ref_name" ""))
              (facts.insertionSort fun a b => a.position ≤ b.position) selectedPr := by
            refine ⟨fun member hmember => ?_, ?_, hpasses, hfind, strip_strip _⟩
            · exact hread member ((List.mem_insertionSort _).mp hmember)
            · exact PassesInvariants.positions_sorted (.of_none hpasses)
          have hpresent : ProjectsTo header _ := .present hmembers hnode (Int.not_lt.mp hpositive)
          unfold presentContext at hpresent
          simp only [List.length_insertionSort] at hpresent
          unfold stackedContext
          rw [hsize]
          exact hpresent

/-- The header of an observation. -/
def headerOf (payload : Dict) : ObservationHeader where
  repo := strip (payload.textOr "repo" "")
  selectedPrNumber := strip (payload.textOr "selected_pr_number" "")
  observedAt := strip (payload.textOr "observed_at" "")

theorem projectAbsent_projectsTo {header : ObservationHeader} {payload : Dict}
    {context : StackContext} (h : projectAbsent header payload = some context) :
    ProjectsTo header context := by
  unfold projectAbsent at h
  split at h
  · obtain rfl := Option.some.inj h
    exact .invalid _
  · split at h
    · cases h
    · obtain rfl := Option.some.inj h
      exact .invalid _
    · next selectedPr hrow =>
      obtain ⟨row, hread⟩ := memberOfRow_read hrow
      split at h
      · obtain rfl := Option.some.inj h
        exact .invalid _
      · next hnumber =>
        obtain rfl := Option.some.inj h
        exact .absent hread (not_not.mp hnumber)

theorem projectPresent_projectsTo {header : ObservationHeader} {payload : Dict}
    {context : StackContext} (h : projectPresent header payload = some context) :
    ProjectsTo header context := by
  unfold projectPresent at h
  split at h
  · split at h
    · obtain rfl := Option.some.inj h
      exact .invalid _
    · next hsize =>
      split at h
      · cases h
      · obtain rfl := Option.some.inj h
        exact .invalid _
      · next facts hfacts =>
        obtain ⟨hlength, hread⟩ := mapM_memberOfRow_read hfacts
        rw [← hlength] at hsize
        exact projectMembers_projectsTo hread (not_not.mp hsize) h
  · obtain rfl := Option.some.inj h
    exact .invalid _

theorem projectStackContext_projectsTo {payload : Dict} {context : StackContext}
    (h : projectStackContext payload = some context) :
    ProjectsTo (headerOf payload) context := by
  unfold projectStackContext at h
  simp only [show ObservationHeader.mk (strip (payload.textOr "repo" ""))
    (strip (payload.textOr "selected_pr_number" "")) (strip (payload.textOr "observed_at" "")) =
      headerOf payload from rfl] at h
  split at h
  · obtain rfl := Option.some.inj h
    exact .invalid _
  · split at h
    · obtain rfl := Option.some.inj h
      exact .invalid _
    · obtain rfl := Option.some.inj h
      exact .unavailable _
    · obtain rfl := Option.some.inj h
      exact .invalid _
    · exact projectAbsent_projectsTo h
    · exact projectPresent_projectsTo h

/-- The stack facts of a present context, as a document holds them. -/
def stackFields (context : StackContext) : Dict :=
  Dict.ofFields
    [("number", optionalNumber context.stackNumber),
      ("trunk_ref_name", optionalText context.trunkRefName),
      ("size", optionalNumber context.reportedSize),
      ("selected_position", optionalNumber context.selectedPosition),
      ("members", .list (context.members.map (·.toDict.toValue)))]

/-- What a document says of the context it was written from. -/
structure Serializes (context : StackContext) (payload : Dict) : Prop where
  availability : payload.get "availability" = .str context.availability.value
  observedAt : payload.get "observed_at" = .str context.observedAt
  fingerprint : payload.get "topology_fingerprint" =
    (context.topologyFingerprint.map (·.toValue)).getD .null
  selectedPr : payload.get "selected_pr" =
    (context.selectedPr.map (·.toDict.toValue)).getD .null
  stack : context.availability = .present →
    payload.get "stack" = (stackFields context).toValue

theorem StackContext.get_toDict (context : StackContext) {key : String} (hstack : key ≠ "stack")
    (hdiagnostic : key ≠ "diagnostic") :
    context.toDict.get key =
      (((Dict.ofFields
        [("schema_version", .str stackContextSchemaVersion),
          ("availability", .str context.availability.value),
          ("observed_at", .str context.observedAt)]).setIfSome "topology_fingerprint"
        (context.topologyFingerprint.map (·.toValue))).setIfSome "selected_pr"
        (context.selectedPr.map (·.toDict.toValue))).get key := by
  unfold StackContext.toDict
  simp only
  rw [Dict.get_setIfSome, if_neg hdiagnostic.symm]
  split
  · rw [Dict.get_set, if_neg hstack.symm]
  · rfl

theorem StackContext.toDict_serializes (context : StackContext) :
    Serializes context context.toDict := by
  constructor
  · rw [context.get_toDict (by decide) (by decide)]
    simp [Dict.ofFields, Dict.get_insert]
  · rw [context.get_toDict (by decide) (by decide)]
    simp [Dict.ofFields, Dict.get_insert]
  · rw [context.get_toDict (by decide) (by decide)]
    simp [Dict.ofFields, Dict.get_insert]
  · rw [context.get_toDict (by decide) (by decide)]
    simp [Dict.ofFields, Dict.get_insert]
  · intro hpresent
    unfold StackContext.toDict
    simp only
    rw [Dict.get_setIfSome, if_neg (by decide), if_pos hpresent, Dict.get_set, if_pos rfl]
    rfl

/-- The observation that `stack_context_from_serialized` makes of a document. -/
def serializedObservation (payload : Dict) (repo prNumber : String) : Dict :=
  let availability := payload.textOr "availability" "invalid"
  let stack := payload.get "stack"
  let observation := Dict.ofFields
    [("schema_version", .str stackObservationSchemaVersion), ("availability", .str availability),
      ("repo", .str repo), ("selected_pr_number", .str prNumber),
      ("observed_at", .str (payload.textOr "observed_at" ""))]
  if availability = "present" then
    observation.update (Dict.ofFields
      [("stack_node_id", .str "serialized-context"), ("stack_number", stack.field "number"),
        ("trunk_ref_name", stack.field "trunk_ref_name"),
        ("reported_size", stack.field "size"), ("members", stack.field "members")])
  else if payload.get "selected_pr" ≠ .null then
    observation.set "selected_pr" (payload.get "selected_pr")
  else observation

/-- What the observation of a document says. -/
structure ObservesAgain (context : StackContext) (repo prNumber : String)
    (observation : Dict) : Prop where
  schema : observation.get "schema_version" = .str stackObservationSchemaVersion
  availability : StackAvailability.parse (lower (observation.textOr "availability" "invalid")) =
    some context.availability
  repo : observation.get "repo" = .str repo
  prNumber : observation.get "selected_pr_number" = .str prNumber
  observedAt : observation.get "observed_at" = .str context.observedAt
  selectedPr : context.availability ≠ .present →
    observation.get "selected_pr" = (context.selectedPr.map (·.toDict.toValue)).getD .null
  number : context.availability = .present →
    observation.get "stack_number" = optionalNumber context.stackNumber
  trunk : context.availability = .present →
    observation.get "trunk_ref_name" = optionalText context.trunkRefName
  size : context.availability = .present →
    observation.get "reported_size" = optionalNumber context.reportedSize
  members : context.availability = .present →
    observation.get "members" = .list (context.members.map (·.toDict.toValue))
  node : context.availability = .present →
    observation.get "stack_node_id" = .str "serialized-context"

theorem availability_textOr {context : StackContext} {payload : Dict} (default : String)
    (h : payload.get "availability" = .str context.availability.value) :
    payload.textOr "availability" default = context.availability.value := by
  unfold Dict.textOr Value.orElse
  rw [h]
  cases context.availability <;> rfl

theorem Serializes.observesAgain {context : StackContext} {payload : Dict}
    (h : Serializes context payload) (repo prNumber : String) :
    ObservesAgain context repo prNumber (serializedObservation payload repo prNumber) := by
  have havailability := availability_textOr "invalid" h.availability
  have hobserved : payload.textOr "observed_at" "" = context.observedAt :=
    PullRequestMemberFact.textOr_of_str h.observedAt
  have hparse : ∀ observation : Dict,
      observation.get "availability" = .str context.availability.value →
      StackAvailability.parse (lower (observation.textOr "availability" "invalid")) =
        some context.availability := by
    intro observation hobservation
    rw [availability_textOr "invalid" hobservation]
    cases context.availability <;> decide
  unfold serializedObservation
  simp only [havailability, hobserved]
  by_cases hpresent : context.availability = .present
  · have hstack : ∀ key, (payload.get "stack").field key = (stackFields context).get key := by
      intro key
      rw [h.stack hpresent, Value.field, Value.toDict?_toValue]
      rfl
    simp only [hpresent, StackAvailability.value, if_true, hstack]
    constructor
    · simp [Dict.get_update, Dict.ofFields, Dict.get_insert, Dict.has_insert]
    · refine hparse _ ?_
      simp [Dict.get_update, Dict.ofFields, Dict.get_insert, Dict.has_insert, hpresent,
        StackAvailability.value]
    all_goals
      simp [Dict.get_update, Dict.ofFields, Dict.get_insert, Dict.has_insert, stackFields,
        hpresent]
  · have hvalue : context.availability.value ≠ "present" := by
      revert hpresent
      cases context.availability <;> decide
    simp only [if_neg hvalue, h.selectedPr]
    constructor
    · split <;> simp [Dict.ofFields, Dict.get_insert]
    · refine hparse _ ?_
      split <;> simp [Dict.ofFields, Dict.get_insert]
    · split <;> simp [Dict.ofFields, Dict.get_insert]
    · split <;> simp [Dict.ofFields, Dict.get_insert]
    · split <;> simp [Dict.ofFields, Dict.get_insert]
    · intro _
      split
      · simp
      · next hnone => simp [Dict.ofFields, Dict.get_insert, not_not.mp hnone]
    all_goals exact fun hcontrary => absurd hcontrary hpresent

/-- The fields of a context that evidence depends on. -/
structure SameObservation (context other : StackContext) : Prop where
  availability : other.availability = context.availability
  members : other.members = context.members
  selectedPrNumber : other.selectedPrNumber = context.selectedPrNumber
  selectedPosition : other.selectedPosition = context.selectedPosition
  selectedPr : other.selectedPr = context.selectedPr
  fingerprint : other.topologyFingerprint = context.topologyFingerprint
  stackNumber : other.stackNumber = context.stackNumber
  observedAt : other.observedAt = context.observedAt

theorem SameObservation.revisionBinding {context other : StackContext}
    (h : SameObservation context other) :
    revisionBindingForContext other = revisionBindingForContext context := by
  unfold revisionBindingForContext
  rw [h.availability, h.selectedPr, h.stackNumber, h.fingerprint, h.observedAt]

theorem SameObservation.compare {context other : StackContext} (h : SameObservation context other)
    (binding : Option Dict) :
    compareRevisionBinding binding other = compareRevisionBinding binding context := by
  unfold compareRevisionBinding
  rw [h.selectedPrNumber, h.availability, h.revisionBinding]

theorem stackContextFromSerialized_eq (payload : Dict) (repo prNumber : String) :
    stackContextFromSerialized payload repo prNumber =
      (projectStackContext (serializedObservation payload repo prNumber)).map fun context =>
        if payload.textOr "availability" "invalid" = "present" ∧
            (payload.get "topology_fingerprint").truthy then
          { context with
            topologyFingerprint := some (Digest.ofValue (payload.get "topology_fingerprint")) }
        else context :=
  rfl

section Reloading

variable {header : ObservationHeader} {context : StackContext} {repo prNumber : String}
  {observation : Dict}

theorem ObservesAgain.headerOf_eq (h : ObservesAgain context repo prNumber observation) :
    headerOf observation = ⟨strip repo, strip prNumber, strip context.observedAt⟩ := by
  unfold headerOf
  rw [PullRequestMemberFact.textOr_of_str h.repo, PullRequestMemberFact.textOr_of_str h.prNumber,
    PullRequestMemberFact.textOr_of_str h.observedAt]

theorem ObservesAgain.project (h : ObservesAgain context repo prNumber observation)
    (hheader : headerOf observation = header) :
    projectStackContext observation =
      match context.availability with
      | .unavailable => some {
          availability := .unavailable, repo := header.repo
          selectedPrNumber := header.selectedPrNumber, observedAt := header.observedAt
          diagnosticCode := some "STACK_CONTEXT_UNAVAILABLE"
          diagnosticCause :=
            if (observation.get "diagnostic_cause").truthy then
              some (observation.get "diagnostic_cause").text
            else none }
      | .invalid =>
          some (header.invalid (observation.textOr "invalid_invariant" "upstream_invalid"))
      | .absent => projectAbsent header observation
      | .present => projectPresent header observation := by
  subst hheader
  unfold projectStackContext
  simp only [h.schema, h.availability, ne_eq, not_true_eq_false, if_false]
  cases context.availability <;> rfl

theorem projectAbsent_again {member : PullRequestMemberFact} {payload : Dict}
    (hread : member.ReadFrom payload) (hnumber : member.prNumber = header.selectedPrNumber)
    (hselected : observation.get "selected_pr" = member.toDict.toValue) :
    projectAbsent header observation = some {
      availability := .absent, repo := header.repo
      selectedPrNumber := header.selectedPrNumber, observedAt := header.observedAt
      selectedPr := some member
      topologyFingerprint := some (fingerprintAbsent header.repo member) } := by
  have hhas : observation.has "selected_pr" = true := by
    unfold Dict.has
    cases hrow : observation["selected_pr"]? with
    | none => simp [Dict.get, hrow, Dict.toValue] at hselected
    | some row => rfl
  unfold projectAbsent
  rw [hselected, memberOfRow_toDict hread]
  simp [hhas, hnumber]

theorem projectPresent_again {trunkRefName node : String} {stackNumber : Int}
    {members : List PullRequestMemberFact} {selectedPr : PullRequestMemberFact}
    (hmembers : ReadMembers header trunkRefName members selectedPr) (hpositive : 1 ≤ stackNumber)
    (hnode : strip node = node) (hnamed : node ≠ "")
    (hrows : observation.get "members" = .list (members.map (·.toDict.toValue)))
    (hsize : observation.get "reported_size" = .int members.length)
    (hnumber : observation.get "stack_number" = .int stackNumber)
    (htrunk : observation.get "trunk_ref_name" = .str trunkRefName)
    (hid : observation.get "stack_node_id" = .str node) :
    projectPresent header observation =
      some (presentContext header trunkRefName node stackNumber members selectedPr) := by
  have hsorted : members.insertionSort (fun a b => a.position ≤ b.position) = members :=
    hmembers.sorted.insertionSort_eq
  unfold projectPresent
  simp only [hrows, hsize, Value.toInt?, List.length_map, ne_eq, not_true_eq_false, if_false,
    mapM_memberOfRow_toDict hmembers.read]
  unfold projectMembers
  simp only [hsorted, PullRequestMemberFact.textOr_of_str htrunk, hmembers.trunk, hmembers.passes,
    hmembers.selected, Option.map_some, PullRequestMemberFact.textOr_of_str hid, hnode, hnamed,
    if_false, hnumber, Value.toInt?, Int.not_lt.mpr hpositive]
  unfold stackedContext presentContext
  simp only [PullRequestMemberFact.textOr_of_str htrunk, hmembers.trunk, hsize, Value.toInt?]

/-- The context read back from what was written of a projected one. -/
theorem ProjectsTo.reload (hprojected : ProjectsTo header context)
    (hheader : header = ⟨strip repo, strip prNumber, strip context.observedAt⟩) :
    ∃ reloaded, stackContextFromSerialized context.toDict repo prNumber = some reloaded ∧
      SameObservation context reloaded := by
  have hserializes := context.toDict_serializes
  have hobserves := hserializes.observesAgain repo prNumber
  have hproject := hobserves.project (hobserves.headerOf_eq.trans hheader.symm)
  have havailability := availability_textOr "invalid" hserializes.availability
  rw [stackContextFromSerialized_eq, hproject, havailability, hserializes.fingerprint]
  cases hprojected with
  | invalid invariant =>
      refine ⟨_, rfl, ?_⟩
      constructor <;> rfl
  | unavailable cause =>
      refine ⟨_, rfl, ?_⟩
      constructor <;> rfl
  | absent hread hnumber =>
      have hagain := projectAbsent_again hread hnumber (hobserves.selectedPr nofun)
      refine ⟨_, (congrArg (Option.map _) hagain).trans rfl, ?_⟩
      constructor <;> rfl
  | present hmembers hnamed hpositive =>
      have hagain := projectPresent_again hmembers hpositive (by decide : strip _ = _)
        (by decide) (hobserves.members rfl) (hobserves.size rfl) (hobserves.number rfl)
        (hobserves.trunk rfl) (hobserves.node rfl)
      refine ⟨_, (congrArg (Option.map _) hagain).trans rfl, ?_⟩
      constructor <;> rfl

end Reloading

/-- A context that was written down and read back carries the same binding. -/
theorem stackContextFromSerialized_toDict {payload : Dict} {context : StackContext}
    {repo prNumber : String} (h : projectStackContext payload = some context)
    (hrepo : strip repo = context.repo) (hnumber : strip prNumber = context.selectedPrNumber) :
    ∃ reloaded, stackContextFromSerialized context.toDict repo prNumber = some reloaded ∧
      SameObservation context reloaded ∧
      revisionBindingForContext reloaded = revisionBindingForContext context ∧
      ∀ binding, compareRevisionBinding binding reloaded =
        compareRevisionBinding binding context := by
  have hprojected := projectStackContext_projectsTo h
  have hheader : headerOf payload = ⟨strip repo, strip prNumber, strip context.observedAt⟩ := by
    rw [hrepo, hnumber]
    cases hprojected <;> simp [headerOf, ObservationHeader.invalid, invalidContext, presentContext]
  obtain ⟨reloaded, hreload, hsame⟩ := hprojected.reload hheader
  exact ⟨reloaded, hreload, hsame, hsame.revisionBinding, hsame.compare⟩

/-- A stack of two open pull requests, read back for the same selection. -/
theorem stackContextFromSerialized_toDict_open : ∃ context reloaded,
    projectStackContext (sampleStackObservation "OPEN" "OPEN") = some context ∧
      stackContextFromSerialized context.toDict "octo/example" "102" = some reloaded ∧
      reloaded.stackNodeId ≠ context.stackNodeId ∧
      revisionBindingForContext context ≠ none ∧
      revisionBindingForContext reloaded = revisionBindingForContext context := by
  have h : (projectStackContext (sampleStackObservation "OPEN" "OPEN")).any (fun context =>
      strip "octo/example" = context.repo ∧ strip "102" = context.selectedPrNumber ∧
        (stackContextFromSerialized context.toDict "octo/example" "102").all (fun reloaded =>
          reloaded.stackNodeId ≠ context.stackNodeId) ∧
        revisionBindingForContext context ≠ none) = true := by
    decide +kernel
  obtain ⟨context, hcontext, hcheck⟩ := (Option.any_eq_true _ _).mp h
  obtain ⟨hrepo, hnumber, hnode, hbound⟩ := of_decide_eq_true hcheck
  obtain ⟨reloaded, hreload, -, hbinding, -⟩ :=
    stackContextFromSerialized_toDict hcontext hrepo hnumber
  rw [hreload] at hnode
  exact ⟨context, reloaded, hcontext, hreload, by simpa using hnode, hbound, hbinding⟩

/-- The contexts that evidence is compared with. -/
inductive Observed : StackContext → Prop where
  | projected {payload : Dict} {context : StackContext} :
      projectStackContext payload = some context → Observed context
  | reread {payload : Dict} {repo prNumber : String} {context : StackContext} :
      stackContextFromSerialized payload repo prNumber = some context → Observed context
  | selected {context : StackContext} (prNumber : String) :
      Observed context → Observed (stackContextForMember context prNumber)

/-- A present context has a number and a selected member, and its unmerged members have trees. -/
structure Bindable (context : StackContext) : Prop where
  numbered : context.availability = .present → context.stackNumber.isSome
  selected : context.availability = .present →
    ∃ member ∈ context.members, context.selectedPr = some member ∧
      member.prNumber = context.selectedPrNumber
  treed : ∀ member ∈ context.members, member.headTreeOid = "" → member.state = .merged

theorem ProjectsTo.bindable {header : ObservationHeader} {context : StackContext}
    (h : ProjectsTo header context) : Bindable context := by
  cases h with
  | invalid invariant => exact ⟨nofun, nofun, nofun⟩
  | unavailable cause => exact ⟨nofun, nofun, nofun⟩
  | absent hread hnumber => exact ⟨nofun, nofun, nofun⟩
  | present hmembers hnamed hpositive =>
      refine ⟨fun _ => rfl, fun _ => ⟨_, List.mem_of_find?_eq_some hmembers.selected, rfl, ?_⟩, ?_⟩
      · have hnumber := List.find?_some hmembers.selected
        exact of_decide_eq_true hnumber
      · intro member hmember
        obtain ⟨payload, hread⟩ := hmembers.read member hmember
        exact hread.treed

theorem Bindable.stackContextForMember {context : StackContext} (h : Bindable context)
    (prNumber : String) : Bindable (stackContextForMember context prNumber) := by
  unfold GhAddressCr.stackContextForMember
  split
  · exact h
  · next hpresent =>
    split
    · exact ⟨nofun, nofun, nofun⟩
    · next selected hfind =>
      refine ⟨h.numbered, fun _ => ⟨selected, List.mem_of_find?_eq_some hfind, rfl, ?_⟩, h.treed⟩
      simpa using List.find?_some hfind

theorem Observed.bindable {context : StackContext} (h : Observed context) : Bindable context := by
  induction h with
  | projected h => exact (projectStackContext_projectsTo h).bindable
  | reread h =>
      rw [stackContextFromSerialized_eq] at h
      obtain ⟨context, hcontext, rfl⟩ := Option.map_eq_some_iff.mp h
      have hbindable := (projectStackContext_projectsTo hcontext).bindable
      split
      · exact ⟨hbindable.numbered, hbindable.selected, hbindable.treed⟩
      · exact hbindable
  | selected prNumber _ ih => exact ih.stackContextForMember prNumber

/-- A binding of the current content: its schema, its pull request and its tree. -/
structure BoundTo (current : StackContext) (binding : Dict) : Prop where
  schema : binding.get "schema_version" = .str revisionBindingSchemaVersion
  prNumber : binding.get "pr_number" = .str current.selectedPrNumber
  tree : ∃ member, current.selectedPr = some member ∧
    binding.get "head_tree_oid" = .str member.headTreeOid ∧
      (member.headTreeOid = "" → member.state = .merged)

/-- The two contexts differ in nothing but commits, positions and fingerprints, as far as a
binding is concerned. -/
structure Restacked (context other : StackContext) : Prop where
  availability : other.availability = context.availability
  selectedPrNumber : other.selectedPrNumber = context.selectedPrNumber
  stackNumber : other.stackNumber = context.stackNumber
  selectedPr : (other.selectedPr.map fun member => (member.prNumber, member.headTreeOid)) =
    context.selectedPr.map fun member => (member.prNumber, member.headTreeOid)

theorem revisionBindingForContext_of_present {context : StackContext}
    {member : PullRequestMemberFact} (hpresent : context.availability = .present)
    (hselected : context.selectedPr = some member) (hnumbered : context.stackNumber.isSome) :
    ∃ expected, revisionBindingForContext context = some expected ∧
      expected.get "schema_version" = .str revisionBindingSchemaVersion ∧
      expected.get "pr_number" = .str member.prNumber ∧
      expected.get "head_tree_oid" = .str member.headTreeOid := by
  obtain ⟨stackNumber, hnumber⟩ := Option.isSome_iff_exists.mp hnumbered
  unfold revisionBindingForContext
  rw [hpresent, hselected, hnumber]
  refine ⟨_, rfl, ?_, ?_, ?_⟩ <;> simp [Dict.ofFields, Dict.get_insert]

theorem Bindable.compareRevisionBinding_some {current : StackContext} (h : Bindable current)
    (binding : Dict) :
    compareRevisionBinding (some binding) current = none ↔
      current.availability = .present ∧ BoundTo current binding := by
  unfold compareRevisionBinding
  simp only
  by_cases hpresent : current.availability = .present
  · obtain ⟨member, hmember, hselected, hnumber⟩ := h.selected hpresent
    obtain ⟨expected, hexpected, hschema, hprNumber, htree⟩ :=
      revisionBindingForContext_of_present hpresent hselected (h.numbered hpresent)
    simp only [hpresent, hexpected]
    constructor
    · intro hnone
      split at hnone
      · cases hnone
      · split at hnone
        · cases hnone
        · next hsame =>
          simp only [List.any_cons, List.any_nil, Bool.or_false, Bool.or_eq_true,
            decide_eq_true_eq, not_or, not_not] at hsame
          obtain ⟨hsameSchema, hsameNumber, hsameTree⟩ := hsame
          refine ⟨trivial, hsameSchema.trans hschema, ?_, member, hselected,
            hsameTree.trans htree, h.treed member hmember⟩
          rw [← hnumber]
          exact hsameNumber.trans hprNumber
    · rintro ⟨-, hbound⟩
      obtain ⟨bound, hboundSelected, hboundTree, -⟩ := hbound.tree
      obtain rfl : member = bound := Option.some.inj (hselected.symm.trans hboundSelected)
      rw [if_neg (not_not.mpr (PullRequestMemberFact.textOr_of_str hbound.prNumber)), if_neg]
      simp [hbound.schema, hschema, hbound.prNumber, hprNumber, hnumber, hboundTree, htree]
  · constructor
    · intro hnone
      split at hnone
      · cases hnone
      · revert hnone hpresent
        cases current.availability <;> simp
    · exact fun hcurrent => absurd hcurrent.1 hpresent

/-- Restacking a context changes no field of its binding that is compared. -/
theorem Restacked.revisionBinding {context other : StackContext} (h : Restacked context other) :
    (revisionBindingForContext other = none ∧ revisionBindingForContext context = none) ∨
      ∃ expected moved, revisionBindingForContext context = some expected ∧
        revisionBindingForContext other = some moved ∧
        ∀ field ∈ ["schema_version", "pr_number", "head_tree_oid"],
          moved.get field = expected.get field := by
  have hselectedPr := h.selectedPr
  unfold revisionBindingForContext
  rw [h.availability, h.stackNumber]
  cases hselected : context.selectedPr with
  | none =>
      rw [hselected, Option.map_none, Option.map_eq_none_iff] at hselectedPr
      left
      rw [hselectedPr]
      cases context.availability <;> exact ⟨rfl, rfl⟩
  | some member =>
      rw [hselected, Option.map_some, Option.map_eq_some_iff] at hselectedPr
      obtain ⟨moved, hmoved, hfields⟩ := hselectedPr
      obtain ⟨hnumber, htree⟩ := Prod.mk.inj hfields
      rw [hmoved]
      cases context.availability <;> cases context.stackNumber <;> try exact .inl ⟨rfl, rfl⟩
      refine .inr ⟨_, _, rfl, rfl, fun field hfield => ?_⟩
      rcases hfield with _ | ⟨_, _ | ⟨_, _ | ⟨_, hfield⟩⟩⟩
      · simp [Dict.ofFields, Dict.get_insert]
      · simp [Dict.ofFields, Dict.get_insert, hnumber]
      · simp [Dict.ofFields, Dict.get_insert, htree]
      · cases hfield

theorem Restacked.compare {context other : StackContext} (h : Restacked context other)
    (binding : Option Dict) :
    compareRevisionBinding binding other = compareRevisionBinding binding context := by
  cases binding with
  | none => rfl
  | some binding =>
      unfold compareRevisionBinding
      simp only [h.selectedPrNumber, h.availability]
      obtain ⟨hother, hcontext⟩ | ⟨expected, moved, hcontext, hother, hsame⟩ := h.revisionBinding
      · rw [hother, hcontext]
      · have hany : (["schema_version", "pr_number", "head_tree_oid"].any fun field =>
            binding.get field ≠ moved.get field) =
            ["schema_version", "pr_number", "head_tree_oid"].any fun field =>
              binding.get field ≠ expected.get field := by
          simp only [List.any_cons, List.any_nil, hsame _ List.mem_cons_self,
            hsame "pr_number" (by simp), hsame "head_tree_oid" (by simp)]
        rw [hother, hcontext]
        simp only [hany]

/-- Evidence of one context is current in another when both are of one pull request and one
tree, which is empty for merged pull requests only. -/
theorem compareRevisionBinding_current {current : StackContext} (h : Observed current) :
    (∀ binding : Option Dict, compareRevisionBinding binding current = none ↔
      ∃ given, binding = some given ∧ current.availability = .present ∧
        BoundTo current given) ∧
    (∀ (binding : Option Dict) (other : StackContext), Restacked current other →
      compareRevisionBinding binding other = compareRevisionBinding binding current) ∧
    ∀ (captured : StackContext) (given : Dict), revisionBindingForContext captured = some given →
      compareRevisionBinding (some given) current = none →
      captured.selectedPr.map (·.headTreeOid) = current.selectedPr.map (·.headTreeOid) := by
  refine ⟨fun binding => ?_, fun binding other hrestacked => hrestacked.compare binding,
    fun captured given hgiven hnone => ?_⟩
  · cases binding with
    | none => simp [compareRevisionBinding]
    | some given => simpa using h.bindable.compareRevisionBinding_some given
  · obtain ⟨-, hbound⟩ := (h.bindable.compareRevisionBinding_some given).mp hnone
    obtain ⟨member, hselected, htree, -⟩ := hbound.tree
    unfold revisionBindingForContext at hgiven
    split at hgiven
    · next capturedPr _ _ hcaptured _ =>
      rw [← Option.some.inj hgiven] at htree
      simp only [Dict.ofFields, List.foldl_cons, List.foldl_nil] at htree
      simp [Dict.get_insert] at htree
      rw [hcaptured, hselected, Option.map_some, Option.map_some, htree]
    · cases hgiven

/-- Evidence of the open upper pull request is current in its own context. -/
theorem compareRevisionBinding_current_open : ∃ context given,
    projectStackContext (sampleStackObservation "OPEN" "OPEN") = some context ∧
      compareRevisionBinding (some given) context = none ∧ BoundTo context given := by
  have h : (projectStackContext (sampleStackObservation "OPEN" "OPEN")).any (fun context =>
      (revisionBindingForContext context).any fun given =>
        compareRevisionBinding (some given) context = none) = true := by
    decide +kernel
  obtain ⟨context, hcontext, hbound⟩ := (Option.any_eq_true _ _).mp h
  obtain ⟨given, -, hnone⟩ := (Option.any_eq_true _ _).mp hbound
  have hcurrent := (compareRevisionBinding_current (.projected hcontext)).1 (some given)
  obtain ⟨_, hgiven, -, hboundTo⟩ := hcurrent.mp (of_decide_eq_true hnone)
  obtain rfl := Option.some.inj hgiven
  exact ⟨context, given, hcontext, of_decide_eq_true hnone, hboundTo⟩

/-- A stack whose merged lower pull request, the selected one, has no readable tree. -/
def sampleUntreedObservation : Dict :=
  ((sampleStackObservation "MERGED" "OPEN").set "selected_pr_number" (.str "101")).set "members"
    (.list
      [(Dict.ofFields
        [("position", .int 1), ("pr_number", .str "101"), ("state", .str "MERGED"),
          ("base_ref_name", .str "main"), ("head_ref_name", .str "feature/base"),
          ("head_oid", .str "c0ffee")]).toValue,
        sampleMemberRow 2 "102" "OPEN" "main" "feature/top"])

/-- Evidence captured without a tree is current for a merged pull request without one. -/
theorem compareRevisionBinding_untreed : ∃ context given,
    projectStackContext sampleUntreedObservation = some context ∧
      revisionBindingForContext context = some given ∧
      given.get "head_tree_oid" = .str "" ∧ compareRevisionBinding (some given) context = none := by
  have h : (projectStackContext sampleUntreedObservation).any (fun context =>
      (revisionBindingForContext context).any fun given =>
        given.get "head_tree_oid" = .str "" ∧
          compareRevisionBinding (some given) context = none) = true := by
    decide +kernel
  obtain ⟨context, hcontext, hbound⟩ := (Option.any_eq_true _ _).mp h
  obtain ⟨given, hgiven, hcheck⟩ := (Option.any_eq_true _ _).mp hbound
  obtain ⟨htree, hnone⟩ := of_decide_eq_true hcheck
  exact ⟨context, given, hcontext, hgiven, htree, hnone⟩

end GhAddressCr
