import GhAddressCr.ActionSubmission

/-!
# Requests and their files

A request is hashed when it is issued and again from its file when a response arrives. The file
is written with the keys of every object sorted. Reading it back gives the request that was
issued, as long as no text was made of an object whose keys were in another order; items that
come from the store have them sorted.
-/
namespace GhAddressCr

open PyText

namespace Value

mutual

/-- The value that is read back after it was written as JSON with sorted keys. -/
def throughJson : Value → Value
  | .time instant => .str (Value.time instant).text
  | .list values => .list (throughJsonList values)
  | .dict fields => (Dict.ofFields (throughJsonFields fields)).toValue
  | value => value

def throughJsonList : List Value → List Value
  | [] => []
  | value :: values => throughJson value :: throughJsonList values

def throughJsonFields : List (String × Value) → List (String × Value)
  | [] => []
  | (key, value) :: fields => (key, throughJson value) :: throughJsonFields fields

end

/-- The value is as a file or the store gives it back: JSON whose objects have their keys
sorted. -/
def IsStored (value : Value) : Prop := throughJson value = value

theorem stored_str (s : String) : IsStored (.str s) := by simp [IsStored, throughJson]

theorem stored_texts (texts : List String) : IsStored (.list (texts.map .str)) := by
  unfold IsStored throughJson
  congr 1
  induction texts with
  | nil => rfl
  | cons text texts ih => simp [throughJsonList, throughJson, ih]

theorem stored_list {values : List Value} (h : ∀ value ∈ values, IsStored value) :
    IsStored (.list values) := by
  unfold IsStored throughJson
  congr 1
  induction values with
  | nil => rfl
  | cons value values ih =>
      rw [throughJsonList, h value (by simp), ih fun other hother => h other (by simp [hother])]

end Value

def Dict.IsStored (d : Dict) : Prop := ∀ (key : String) (value : Value), d[key]? = some value →
  value.IsStored

namespace Dict

theorem IsStored.asValue {d : Dict} (h : d.IsStored) : d.toValue.IsStored := by
  have hfields : ∀ fields : List (String × Value), (∀ field ∈ fields, field.2.IsStored) →
      Value.throughJsonFields fields = fields := by
    intro fields hsorted
    induction fields with
    | nil => rfl
    | cons field fields ih =>
        obtain ⟨key, value⟩ := field
        rw [Value.throughJsonFields, hsorted (key, value) (by simp),
          ih fun other hother => hsorted other (by simp [hother])]
  unfold Value.IsStored toValue Value.throughJson
  rw [hfields d.toList fun field hfield =>
    h field.1 field.2 (Std.ExtTreeMap.mem_toList_iff_getElem?_eq_some.mp hfield), ofFields_toList,
    toValue]

theorem IsStored.set {d : Dict} (h : d.IsStored) (key : String) {value : Value}
    (hvalue : value.IsStored) : (d.set key value).IsStored := by
  intro other found hfound
  rw [getElem?_set] at hfound
  split at hfound
  · obtain rfl := Option.some.inj hfound
    exact hvalue
  · exact h other found hfound

theorem IsStored.pop {d : Dict} (h : d.IsStored) (key : String) : (d.pop key).IsStored := by
  intro other found hfound
  rw [getElem?_pop] at hfound
  split at hfound
  · cases hfound
  · exact h other found hfound

theorem IsStored.setIfSome {d : Dict} (h : d.IsStored) (key : String) {value : Option Value}
    (hvalue : ∀ found ∈ value, found.IsStored) : (d.setIfSome key value).IsStored := by
  cases value with
  | none => exact h
  | some found => exact h.set key (hvalue found rfl)

theorem stored_empty : Dict.IsStored ∅ := by
  intro key value h
  simp at h

theorem stored_ofFields {fields : List (String × Value)} (h : ∀ field ∈ fields, field.2.IsStored) :
    (ofFields fields).IsStored := by
  have hfold : ∀ d : Dict, d.IsStored →
      (fields.foldl (fun d field => d.insert field.1 field.2) d).IsStored := by
    induction fields with
    | nil => exact fun d hd => hd
    | cons field fields ih =>
        intro d hd
        exact ih (fun other hother => h other (by simp [hother])) _
          (hd.set field.1 (h field (by simp)))
  exact hfold ∅ stored_empty

end Dict

/-- The document of a file that was written and read back. -/
def readBack (document : Dict) : Option Dict := document.toValue.throughJson.toDict?

theorem readBack_stored {document : Dict} (h : document.IsStored) :
    readBack document = some document := by
  have hvalue : document.toValue.throughJson = document.toValue := h.asValue
  rw [readBack, hvalue, Value.toDict?_toValue]

/-- Where the skeleton of the response is written is no part of the request. -/
theorem fromDict_setSkeletonPath (request : Dict) (path : Value) :
    ActionRequest.fromDict (request.set "response_skeleton_path" path) =
      ActionRequest.fromDict request := by
  have hlookup : ∀ key : String, "response_skeleton_path" ≠ key →
      (request.set "response_skeleton_path" path)[key]? = request[key]? := by
    intro key hkey
    rw [Dict.getElem?_set, if_neg hkey]
  have hget : ∀ key : String, "response_skeleton_path" ≠ key →
      (request.set "response_skeleton_path" path).get key = request.get key := by
    intro key hkey
    rw [Dict.get_set, if_neg hkey]
  unfold ActionRequest.fromDict ActionRequest.ofFields Dict.textOr
  simp only [hlookup "request_id" (by decide), hlookup "session_id" (by decide),
    hlookup "lease_id" (by decide), hlookup "agent_role" (by decide), hlookup "item" (by decide),
    hlookup "allowed_actions" (by decide), hlookup "required_evidence" (by decide),
    hget "repository_context" (by decide), hget "forbidden_actions" (by decide),
    hget "handling_boundary" (by decide), hget "resume_command" (by decide),
    hget "schema_version" (by decide)]

theorem requestHash_of_fromDict {document : Dict} {request : ActionRequest} {hash : String}
    (h : ActionRequest.fromDict document = .ok request) (hhash : request.stableHash = some hash) :
    requestHash document = .ok hash := by
  simp only [requestHash, h, hhash]

/-- The items and the version a document was read with. -/
theorem fromDict_eq_ok {document : Dict} {request : ActionRequest}
    (h : ActionRequest.fromDict document = .ok request) :
    request.schemaVersion ∈ supportedProtocolVersions ∧
      ∃ item, document["item"]? = some item ∧ WorkItem.fromDict item = some request.item := by
  unfold ActionRequest.fromDict at h
  simp only at h
  split at h
  · cases h
  · next hversion =>
    split at h
    · next read hfields =>
      obtain rfl := Except.ok.inj h
      unfold ActionRequest.ofFields at hfields
      obtain ⟨_, -, hfields⟩ := Option.bind_eq_some_iff.mp hfields
      obtain ⟨_, -, hfields⟩ := Option.bind_eq_some_iff.mp hfields
      obtain ⟨_, -, hfields⟩ := Option.bind_eq_some_iff.mp hfields
      obtain ⟨_, -, hfields⟩ := Option.bind_eq_some_iff.mp hfields
      obtain ⟨_, -, hfields⟩ := Option.bind_eq_some_iff.mp hfields
      obtain ⟨value, hvalue, hfields⟩ := Option.bind_eq_some_iff.mp hfields
      obtain ⟨item, hitem, hfields⟩ := Option.bind_eq_some_iff.mp hfields
      obtain ⟨_, -, hfields⟩ := Option.bind_eq_some_iff.mp hfields
      obtain ⟨_, -, hfields⟩ := Option.bind_eq_some_iff.mp hfields
      obtain ⟨_, -, hfields⟩ := Option.bind_eq_some_iff.mp hfields
      obtain ⟨_, -, hfields⟩ := Option.bind_eq_some_iff.mp hfields
      have hread : read.schemaVersion = document.textOr "schema_version" "" ∧ read.item = item := by
        simp only at hfields
        split at hfields
        all_goals
          obtain ⟨_, -, hfields⟩ := Option.bind_eq_some_iff.mp hfields
          obtain ⟨_, -, hfields⟩ := Option.bind_eq_some_iff.mp hfields
          obtain ⟨_, -, hfields⟩ := Option.bind_eq_some_iff.mp hfields
          obtain rfl := Option.some.inj hfields
          exact ⟨rfl, rfl⟩
      obtain ⟨hschema, rfl⟩ := hread
      exact ⟨by simpa [hschema] using hversion, value, hvalue, hitem⟩
    · cases h

/-- The evidence and the envelope of an item are read as they are written. -/
theorem workItem_fromDict_eq_some {value : Value} {payload : Dict} {item : WorkItem}
    (hpayload : value.toDict? = some payload) (h : WorkItem.fromDict value = some item) :
    item.classificationEvidence = payload.get "classification_evidence" ∧
      item.replyEvidence = payload.get "reply_evidence" ∧
      optionalDict (payload.get "untrusted_content") = some item.untrustedContent := by
  unfold WorkItem.fromDict at h
  rw [hpayload] at h
  simp only [Option.bind_eq_bind, Option.bind_eq_some_iff, Option.pure_def, Option.some.injEq,
    exists_eq_left'] at h
  obtain ⟨-, -, -, -, -, -, -, -, -, -, -, -, envelope, henvelope, rfl⟩ := h
  exact ⟨rfl, rfl, henvelope⟩

theorem untrustedContentEnvelope_stored (item : Dict) : (untrustedContentEnvelope item).IsStored := by
  have htext : ∀ text : String, (Value.str text).IsStored := Value.stored_str
  have hstart : ∀ source body : String,
      (Dict.ofFields [("source", .str source), ("body", .str body)]).IsStored := fun source body =>
    Dict.stored_ofFields (by simp [htext])
  unfold untrustedContentEnvelope
  simp only [List.foldl_cons, List.foldl_nil]
  have hadd : ∀ (d : Dict) (field : String), d.IsStored →
      (if (item.get field).truthy then d.set field (.str (item.get field).text) else d).IsStored := by
    intro d field hd
    split
    · exact hd.set field (htext _)
    · exact hd
  have htexts := hadd _ "latest_body" (hadd _ "first_body"
    (hstart (if item.textOr "item_kind" "" == "github_thread" then "github_review_thread"
      else "local_finding_producer") (item.textOr "body" "")))
  split
  · exact htexts.set _ (htext _)
  · split
    · exact htexts.set _ (htext _)
    · exact htexts

theorem requestItemProjection_stored {item : Dict} (h : item.IsStored) :
    (requestItemProjection item).IsStored :=
  (((h.pop _).pop _).pop _).set _ (untrustedContentEnvelope_stored item).asValue

/-- Values of one kind are sorted without being changed. -/
theorem sortedValues_subset {values sorted : List Value} (h : sortedValues values = some sorted) :
    ∀ value ∈ sorted, value ∈ values := by
  unfold sortedValues at h
  simp only at h
  split at h
  · obtain rfl := Option.some.inj h
    exact fun value hvalue => (List.mem_insertionSort _).mp hvalue
  · split at h
    · obtain rfl := Option.some.inj h
      exact fun value hvalue => (List.mem_insertionSort _).mp hvalue
    · split at h
      · obtain rfl := Option.some.inj h
        exact fun value hvalue => hvalue
      · cases h

theorem Value.stored_of_mem {values : List Value} (h : (Value.list values).IsStored) :
    ∀ value ∈ values, value.IsStored := by
  have hlist : Value.throughJsonList values = values := by
    unfold Value.IsStored Value.throughJson at h
    exact Value.list.inj h
  clear h
  induction values with
  | nil => simp
  | cons value values ih =>
      rw [Value.throughJsonList] at hlist
      obtain ⟨hvalue, hvalues⟩ := List.cons.inj hlist
      intro other hother
      rcases List.mem_cons.mp hother with rfl | hother
      · exact hvalue
      · exact ih hvalues other hother

theorem iterate_stored {value : Value} {values : List Value} (h : iterate value = some values)
    (hsorted : value.IsStored) : ∀ element ∈ values, element.IsStored := by
  cases value with
  | list elements =>
      obtain rfl := Option.some.inj h
      exact Value.stored_of_mem hsorted
  | dict fields =>
      obtain rfl := Option.some.inj h
      intro element helement
      obtain ⟨field, -, rfl⟩ := List.mem_map.mp helement
      exact Value.stored_str field.1
  | str s =>
      obtain rfl := Option.some.inj h
      intro element helement
      obtain ⟨c, -, rfl⟩ := List.mem_map.mp helement
      exact Value.stored_str (String.singleton c)
  | _ => cases h

theorem githubThreadFixBoundary_stored (item : Dict) : (githubThreadFixBoundary item).IsStored := by
  refine Dict.stored_ofFields fun field hfield => ?_
  simp only [List.mem_cons, List.not_mem_nil, or_false] at hfield
  rcases hfield with rfl | rfl | rfl | rfl | rfl | rfl | rfl | rfl <;>
    first
      | exact Value.stored_str _
      | exact Value.stored_texts _

theorem Dict.IsStored.get {d : Dict} (h : d.IsStored) (key : String) : (d.get key).IsStored := by
  unfold Dict.get
  cases hkey : d[key]? with
  | none => simp [Value.IsStored, Value.throughJson]
  | some value => exact h key value hkey

/-- The document that is built for an item and a session with sorted keys has sorted keys. -/
theorem buildActionRequest_stored {session : Session} {item request : Dict}
    {context : RequestContext} (h : buildActionRequest session item context = some request)
    (hroot : session.root.IsStored) (hitem : item.IsStored)
    (hcontext : context.repositoryContext.IsStored) : request.IsStored := by
  unfold buildActionRequest at h
  obtain ⟨sessionId, hsession, h⟩ := Option.bind_eq_some_iff.mp h
  obtain ⟨actions, hactions, h⟩ := Option.bind_eq_some_iff.mp h
  obtain ⟨allowed, hallowed, h⟩ := Option.bind_eq_some_iff.mp h
  obtain rfl := Option.some.inj h
  have hallowedSorted : (Value.list allowed).IsStored := by
    have hgiven : ((item.get "allowed_actions").orElse
        (.list (terminalResolutions.map .str))).IsStored := by
      unfold Value.orElse
      split
      · exact hitem.get _
      · exact Value.stored_texts _
    exact Value.stored_list fun value hvalue =>
      iterate_stored hactions hgiven value (sortedValues_subset hallowed value hvalue)
  have hprojected := (requestItemProjection_stored hitem).set "state" (Value.stored_str "claimed")
  refine Dict.IsStored.setIfSome (Dict.stored_ofFields fun field hfield => ?_) _ ?_
  · simp only [List.mem_cons, List.not_mem_nil, or_false] at hfield
    rcases hfield with rfl | rfl | rfl | rfl | rfl | rfl | rfl | rfl | rfl | rfl | rfl <;>
      first
        | exact Value.stored_str _
        | exact Value.stored_texts _
        | exact hroot _ _ hsession
        | exact hprojected.asValue
        | exact hallowedSorted
        | exact hcontext.asValue
  · intro found hfound
    obtain ⟨boundary, hboundary, rfl⟩ := Option.map_eq_some_iff.mp hfound
    unfold handlingBoundarySummary at hboundary
    split at hboundary
    · cases hboundary
    · split at hboundary
      · obtain rfl := Option.some.inj hboundary
        exact (githubThreadFixBoundary_stored item).asValue
      · cases hboundary

/-- A field that `to_dict` gives back as it is: null or an object. -/
def IsOptionalObject (value : Value) : Prop := value = .null ∨ value.toDict?.isSome = true

instance (value : Value) : Decidable (IsOptionalObject value) := inferInstanceAs (Decidable (_ ∨ _))

theorem optionalMapping_some {value : Value} {mapping : Option Value}
    (h : WorkItem.optionalMapping value = some mapping) :
    mapping = none ∧ value = .null ∨ ∃ fields : Dict, mapping = some fields.toValue ∧
      value.toMapping? = some fields ∧ value ≠ .null := by
  unfold WorkItem.optionalMapping at h
  split at h
  · exact Or.inl ⟨(Option.some.inj h).symm, rfl⟩
  · next value hvalue =>
    obtain ⟨fields, hfields, hmapping⟩ := Option.map_eq_some_iff.mp h
    exact Or.inr ⟨fields, hmapping.symm, hfields, hvalue⟩

theorem unlessNull_getD (value : Value) : (WorkItem.unlessNull value).getD .null = value := by
  cases value <;> rfl

theorem stringTuple_texts (texts : List String) :
    stringTuple (.list (texts.map .str)) = some texts := by
  have htexts : (texts.map Value.str).map (·.text) = texts := by
    induction texts with
    | nil => rfl
    | cons text texts ih => simp [ih]
  simp only [stringTuple, iterate, Option.map_some, htexts]

theorem mapM_toMapping (records : List Dict) :
    (records.map (·.toValue)).mapM Value.toMapping? = some records := by
  induction records with
  | nil => rfl
  | cons record records ih =>
      have hrecord : record.toValue.toMapping? = some record := by
        rw [Dict.toValue, Value.toMapping?, Dict.ofFields_toList]
      rw [List.map_cons, List.mapM_cons, hrecord, ih]
      rfl

theorem optionalDict_toValue (value : Option Dict) :
    optionalDict ((value.map (·.toValue)).getD .null) = some value := by
  cases value with
  | none => rfl
  | some fields =>
      show (fields.toValue.toDict?).map some = some (some fields)
      rw [Value.toDict?_toValue]
      rfl

/-- An item is read back with its evidence as the objects that were written. -/
theorem workItem_fromDict_toDict {item : WorkItem} {document : Dict}
    (h : item.toDict = some document) : ∃ classification reply,
      WorkItem.optionalMapping item.classificationEvidence = some classification ∧
      WorkItem.optionalMapping item.replyEvidence = some reply ∧
      WorkItem.fromDict document.toValue = some { item with
        classificationEvidence := classification.getD .null
        replyEvidence := reply.getD .null } := by
  unfold WorkItem.toDict at h
  obtain ⟨classification, hclassification, h⟩ := Option.bind_eq_some_iff.mp h
  obtain ⟨reply, hreply, h⟩ := Option.bind_eq_some_iff.mp h
  have hdocument := (Option.some.inj h).symm
  simp only at hdocument
  refine ⟨classification, reply, hclassification, hreply, ?_⟩
  have hlookup : document["item_id"]? = some (.str item.itemId) ∧
      document["item_kind"]? = some (.str item.itemKind) ∧
      document["source"]? = some (.str item.source) ∧
      document["title"]? = some (.str item.title) ∧
      document["body"]? = some (.str item.body) ∧
      document["state"]? = some (.str item.state) := by
    rw [hdocument]
    simp only [Dict.getElem?_setIfSome, Dict.ofFields, List.foldl_cons, List.foldl_nil,
      Std.ExtTreeMap.getElem?_insert, Std.LawfulEqCmp.compare_eq_iff_eq, String.reduceEq, if_false,
      if_true, and_self]
  have hget : document.get "allowed_actions" = .list (item.allowedActions.map .str) ∧
      document.get "path" = item.path ∧ document.get "line" = item.line ∧
      document.get "classification_evidence" = classification.getD .null ∧
      document.get "reply_evidence" = reply.getD .null ∧
      document.get "conflict_keys" = (if item.conflictKeys = [] then none
        else some (Value.list (item.conflictKeys.map .str))).getD .null ∧
      document.get "untrusted_content" = (item.untrustedContent.map (·.toValue)).getD .null := by
    rw [hdocument]
    simp only [Dict.get_setIfSome, Dict.ofFields, List.foldl_cons, List.foldl_nil, Dict.get_insert,
      String.reduceEq, if_false, if_true, Dict.get_empty, unlessNull_getD, and_self]
  have hvalidation : (document["validation_evidence"]?).getD (.list []) =
      .list (item.validationEvidence.map (·.toValue)) := by
    rw [hdocument]
    simp only [Dict.getElem?_setIfSome, Dict.ofFields, List.foldl_cons, List.foldl_nil,
      Std.ExtTreeMap.getElem?_insert, Std.LawfulEqCmp.compare_eq_iff_eq, String.reduceEq, if_false,
      if_true, Std.ExtTreeMap.getElem?_empty, Option.or_none]
    by_cases hempty : item.validationEvidence = [] <;> simp [hempty]
  obtain ⟨hid, hkind, hsource, htitle, hbody, hstate⟩ := hlookup
  obtain ⟨hactions, hpath, hline, hclassified, hreplied, hconflicts, huntrusted⟩ := hget
  have hkeys : stringTuple (document.get "conflict_keys") = some item.conflictKeys := by
    rw [hconflicts]
    by_cases hempty : item.conflictKeys = []
    · simp [hempty, stringTuple]
    · simp [hempty, stringTuple_texts]
  unfold WorkItem.fromDict
  rw [Value.toDict?_toValue]
  simp only [Option.pure_def, Option.bind_eq_bind, Option.bind_some, hid, hkind, hactions,
    stringTuple_texts, hkeys, hvalidation, iterate, mapM_toMapping, huntrusted,
    optionalDict_toValue, Dict.textIfGiven, hsource, htitle, hbody, hstate, hpath, hline,
    hclassified, hreplied, Option.map_some, Option.getD_some, Value.text_str]

/-- A request is read back with the evidence of its item as the objects that were written. -/
theorem actionRequest_fromDict_toDict {request : ActionRequest} {document : Dict}
    (h : request.toDict = some document)
    (hversion : request.schemaVersion ∈ supportedProtocolVersions) : ∃ classification reply,
      WorkItem.optionalMapping request.item.classificationEvidence = some classification ∧
      WorkItem.optionalMapping request.item.replyEvidence = some reply ∧
      ActionRequest.fromDict document = .ok { request with
        item := { request.item with
          classificationEvidence := classification.getD .null
          replyEvidence := reply.getD .null } } := by
  unfold ActionRequest.toDict at h
  obtain ⟨item, hitem, hdocument⟩ := Option.map_eq_some_iff.mp h
  obtain ⟨classification, reply, hclassification, hreply, hread⟩ :=
    workItem_fromDict_toDict hitem
  simp only at hdocument
  refine ⟨classification, reply, hclassification, hreply, ?_⟩
  have hlookup : document["request_id"]? = some (.str request.requestId) ∧
      document["session_id"]? = some (.str request.sessionId) ∧
      document["lease_id"]? = some (.str request.leaseId) ∧
      document["agent_role"]? = some (.str request.agentRole.value) ∧
      document["item"]? = some item.toValue ∧
      document["allowed_actions"]? = some (.list (request.allowedActions.map .str)) ∧
      document["required_evidence"]? = some (.list (request.requiredEvidence.map .str)) := by
    rw [← hdocument]
    simp only [Dict.getElem?_setIfSome, Dict.ofFields, List.foldl_cons, List.foldl_nil,
      Std.ExtTreeMap.getElem?_insert, Std.LawfulEqCmp.compare_eq_iff_eq, String.reduceEq, if_false,
      if_true, and_self]
  have hget : document.get "schema_version" = .str request.schemaVersion ∧
      document.get "repository_context" = request.repositoryContext.toValue ∧
      document.get "forbidden_actions" = .list (request.forbiddenActions.map .str) ∧
      document.get "resume_command" = request.resumeCommand ∧
      document.get "handling_boundary" =
        (request.handlingBoundary.map (·.toValue)).getD .null := by
    rw [← hdocument]
    simp only [Dict.get_setIfSome, Dict.ofFields, List.foldl_cons, List.foldl_nil, Dict.get_insert,
      String.reduceEq, if_false, if_true, Dict.get_empty, unlessNull_getD, and_self]
  obtain ⟨hrequest, hsession, hlease, hrole, hitemValue, hactions, hevidence⟩ := hlookup
  obtain ⟨hschema, hcontext, hforbidden, hresume, hboundary⟩ := hget
  have hschemaVersion : document.textOr "schema_version" "" = request.schemaVersion := by
    rw [Dict.textOr, hschema]
    unfold Value.orElse
    split
    · rfl
    · next hempty => simpa using (by simpa using hempty : request.schemaVersion = "").symm
  have hrepository : request.repositoryContext.toValue.toMapping? =
      some request.repositoryContext := by
    rw [Dict.toValue, Value.toMapping?, Dict.ofFields_toList]
  have hrole' : AgentRole.parse request.agentRole.value = some request.agentRole :=
    AgentRole.parse_eq_some.mpr rfl
  have hnotNull : ¬ request.repositoryContext.toValue = .null := by simp [Dict.toValue]
  have hfields : ActionRequest.ofFields document request.schemaVersion = some { request with
      item := { request.item with
        classificationEvidence := classification.getD .null
        replyEvidence := reply.getD .null } } := by
    unfold ActionRequest.ofFields
    simp only [Option.pure_def, Option.bind_eq_bind, Option.bind_some, hrequest, hsession, hlease,
      hrole, Value.text_str, hrole', hitemValue, hread, hactions, hevidence, stringTuple_texts,
      hcontext, if_neg hnotNull, hrepository, hforbidden, hboundary, optionalDict_toValue, hresume]
  unfold ActionRequest.fromDict
  simp only [hschemaVersion, hfields]
  simp [hversion]

/-- Evidence is copied without being changed when it is null or an object. -/
theorem optionalMapping_getD_iff {value : Value} (h : value.IsStored) :
    (∃ mapping, WorkItem.optionalMapping value = some mapping ∧ mapping.getD .null = value) ↔
      IsOptionalObject value := by
  constructor
  · rintro ⟨mapping, hmapping, hvalue⟩
    rcases optionalMapping_some hmapping with ⟨-, hnull⟩ | ⟨fields, rfl, -, -⟩
    · exact Or.inl hnull
    · right
      rw [← hvalue, Option.getD_some, Value.toDict?_toValue, Option.isSome_some]
  · intro hobject
    rcases hobject with rfl | hobject
    · exact ⟨none, rfl, rfl⟩
    · cases value with
      | dict fields =>
          have hfields : (Dict.ofFields (Value.throughJsonFields fields)).toValue = .dict fields :=
            h
          rw [← hfields]
          refine ⟨some _, ?_, rfl⟩
          show (Dict.toValue _).toMapping?.map (fun fields : Dict => some fields.toValue) = _
          rw [Dict.toValue, Value.toMapping?, Dict.ofFields_toList]
          rfl
      | _ => cases hobject

theorem WorkItem.toDict_isSome {item : WorkItem} {classification reply : Option Value}
    (hclassification : WorkItem.optionalMapping item.classificationEvidence = some classification)
    (hreply : WorkItem.optionalMapping item.replyEvidence = some reply) :
    ∃ document, item.toDict = some document := by
  unfold WorkItem.toDict
  rw [hclassification, hreply]
  exact ⟨_, rfl⟩

/-- A request is read back from its own document when the evidence of its item is null or an
object. -/
theorem fromDict_toDict_iff {request : ActionRequest}
    (hversion : request.schemaVersion ∈ supportedProtocolVersions)
    (hclassification : request.item.classificationEvidence.IsStored)
    (hreply : request.item.replyEvidence.IsStored) :
    (∃ document, request.toDict = some document ∧
        ActionRequest.fromDict document = .ok request) ↔
      IsOptionalObject request.item.classificationEvidence ∧
        IsOptionalObject request.item.replyEvidence := by
  rw [← optionalMapping_getD_iff hclassification, ← optionalMapping_getD_iff hreply]
  constructor
  · rintro ⟨document, hdocument, hread⟩
    obtain ⟨classification, reply, hclassified, hreplied, hback⟩ :=
      actionRequest_fromDict_toDict hdocument hversion
    have hitem := congrArg ActionRequest.item (Except.ok.inj (hread.symm.trans hback))
    exact ⟨⟨classification, hclassified, (congrArg WorkItem.classificationEvidence hitem).symm⟩,
      ⟨reply, hreplied, (congrArg WorkItem.replyEvidence hitem).symm⟩⟩
  · rintro ⟨⟨classification, hclassified, hsame⟩, ⟨reply, hreplied, hsameReply⟩⟩
    obtain ⟨item, hitem⟩ := WorkItem.toDict_isSome hclassified hreplied
    have hdocument : ∃ document, request.toDict = some document := by
      unfold ActionRequest.toDict
      rw [hitem]
      exact ⟨_, rfl⟩
    obtain ⟨document, hdocument⟩ := hdocument
    obtain ⟨classification', reply', hclassified', hreplied', hback⟩ :=
      actionRequest_fromDict_toDict hdocument hversion
    obtain rfl := Option.some.inj (hclassified.symm.trans hclassified')
    obtain rfl := Option.some.inj (hreplied.symm.trans hreplied')
    refine ⟨document, hdocument, ?_⟩
    rw [hback, hsame, hsameReply]

/-- The document of a request without the envelope of its item. -/
def withoutEnvelope (document : Dict) : Dict :=
  document.set "item" ((((document.get "item").toDict?).getD ∅).pop "untrusted_content").toValue

/-- The hash that was computed for a request before there was an envelope. -/
def ActionRequest.stableHashBeforeEnvelope (request : ActionRequest) : Option String :=
  request.toDict.map fun document => Digest.text ⟨(withoutEnvelope document).toValue⟩

theorem ActionRequest.stableHash_eq_beforeEnvelope {request : ActionRequest}
    (h : request.item.untrustedContent = none) :
    request.stableHash = request.stableHashBeforeEnvelope := by
  unfold stableHash stableHashBeforeEnvelope
  cases hdocument : request.toDict with
  | none => rfl
  | some document =>
      have hsame : withoutEnvelope document = document := by
        unfold toDict at hdocument
        obtain ⟨item, hitem, rfl⟩ := Option.map_eq_some_iff.mp hdocument
        have habsent : item["untrusted_content"]? = none := by
          unfold WorkItem.toDict at hitem
          obtain ⟨classification, -, hitem⟩ := Option.bind_eq_some_iff.mp hitem
          obtain ⟨reply, -, hitem⟩ := Option.bind_eq_some_iff.mp hitem
          rw [← Option.some.inj hitem]
          simp only [h, Option.map_none, Dict.getElem?_setIfSome, Dict.ofFields, List.foldl_cons,
            List.foldl_nil, Std.ExtTreeMap.getElem?_insert, Std.LawfulEqCmp.compare_eq_iff_eq,
            String.reduceEq, if_false, Std.ExtTreeMap.getElem?_empty, ite_self, Option.or_none]
        have hpop : item.pop "untrusted_content" = item := Dict.ext fun key => by
          rw [Dict.getElem?_pop]
          split
          · next hkey => rw [← hkey, habsent]
          · rfl
        refine Dict.ext fun key => ?_
        unfold withoutEnvelope
        rw [Dict.getElem?_set]
        split
        · next hkey =>
          rw [← hkey]
          simp only [Dict.get_setIfSome, Dict.getElem?_setIfSome, Dict.ofFields, List.foldl_cons,
            List.foldl_nil, Dict.get_insert, Std.ExtTreeMap.getElem?_insert,
            Std.LawfulEqCmp.compare_eq_iff_eq, String.reduceEq, if_false, if_true,
            Value.toDict?_toValue, Option.getD_some, hpop]
        · rfl
      rw [Option.map_some, Option.map_some, hsame]

/-- A file that was written before there was an envelope still hashes as it did. -/
theorem requestHash_beforeEnvelope {document : Dict} {request : ActionRequest} {hash : String}
    (h : ActionRequest.fromDict document = .ok request)
    (henvelope : (document.get "item").field "untrusted_content" = .null)
    (hhash : request.stableHashBeforeEnvelope = some hash) : requestHash document = .ok hash := by
  obtain ⟨-, value, hvalue, hitem⟩ := fromDict_eq_ok h
  refine requestHash_of_fromDict h ?_
  rw [ActionRequest.stableHash_eq_beforeEnvelope, hhash]
  have hget : document.get "item" = value := by rw [Dict.get, hvalue, Option.getD_some]
  cases hpayload : value.toDict? with
  | none =>
      unfold WorkItem.fromDict at hitem
      rw [hpayload] at hitem
      cases hitem
  | some payload =>
      obtain ⟨-, -, hread⟩ := workItem_fromDict_eq_some hpayload hitem
      rw [hget, Value.field, hpayload] at henvelope
      have habsent : payload.get "untrusted_content" = .null := henvelope
      rw [habsent] at hread
      exact (Option.some.inj hread).symm

/-- The fields of the built document that carry the item. -/
theorem buildActionRequest_item {session : Session} {item request : Dict}
    {context : RequestContext} (h : buildActionRequest session item context = some request) :
    request["item"]? = some ((requestItemProjection item).set "state" (.str "claimed")).toValue ∧
      request.get "request_id" = .str context.requestId := by
  unfold buildActionRequest at h
  obtain ⟨sessionId, hsession, h⟩ := Option.bind_eq_some_iff.mp h
  obtain ⟨actions, hactions, h⟩ := Option.bind_eq_some_iff.mp h
  obtain ⟨allowed, hallowed, h⟩ := Option.bind_eq_some_iff.mp h
  obtain rfl := Option.some.inj h
  simp only [Dict.get_setIfSome, Dict.getElem?_setIfSome, Dict.ofFields, List.foldl_cons,
    List.foldl_nil, Dict.get_insert, Std.ExtTreeMap.getElem?_insert,
    Std.LawfulEqCmp.compare_eq_iff_eq, String.reduceEq, if_false, if_true, and_self]

/-- The evidence of an issued request's item is that of the session's item. -/
theorem issued_evidence {session : Session} {item request : Dict} {context : RequestContext}
    {issued : ActionRequest} (hbuild : buildActionRequest session item context = some request)
    (hread : ActionRequest.fromDict request = .ok issued) :
    issued.item.classificationEvidence = item.get "classification_evidence" ∧
      issued.item.replyEvidence = item.get "reply_evidence" := by
  obtain ⟨-, value, hvalue, hitem⟩ := fromDict_eq_ok hread
  rw [(buildActionRequest_item hbuild).1] at hvalue
  obtain rfl := Option.some.inj hvalue
  obtain ⟨hclassification, hreply, -⟩ := workItem_fromDict_eq_some (Value.toDict?_toValue _) hitem
  rw [hclassification, hreply]
  simp [requestItemProjection]

/-- A request that is issued for an item of the store is read back from its file, with the hash
it was issued with. It is read back from its own document when the evidence of the item is null
or an object, and a file without an envelope hashes as it did before there was one. -/
theorem issued_request_round_trips {session : Session} {item request : Dict}
    {context : RequestContext} {issued : ActionRequest}
    (hbuild : buildActionRequest session item context = some request)
    (hissued : ActionRequest.fromDict request = .ok issued) (hroot : session.root.IsStored)
    (hitem : item.IsStored) (hcontext : context.repositoryContext.IsStored) :
    (∀ path : String, ∃ written,
      readBack (request.set "response_skeleton_path" (.str path)) = some written ∧
      ActionRequest.fromDict written = .ok issued ∧
      ∀ hash, issued.stableHash = some hash → requestHash written = .ok hash ∧
        ∀ (files : FileSystem) (lease : Lease) (response : Dict),
          lease.requestPath.getD "" ≠ "" →
          files[lease.requestPath.getD ""]? = some (.json written.toValue) →
          (response.get "request_id").text = context.requestId →
          expectedRequestHashForResponse files response lease = .ok hash) ∧
    ((∃ document, issued.toDict = some document ∧
        ActionRequest.fromDict document = .ok issued) ↔
      IsOptionalObject (item.get "classification_evidence") ∧
        IsOptionalObject (item.get "reply_evidence")) ∧
    ∀ (document : Dict) (old : ActionRequest) (hash : String), document.IsStored →
      (document.get "item").field "untrusted_content" = .null →
      ActionRequest.fromDict document = .ok old → old.stableHashBeforeEnvelope = some hash →
      ∃ written, readBack document = some written ∧ requestHash written = .ok hash := by
  refine ⟨fun path => ?_, ?_, fun document old hash hstored henvelope hold hhash => ?_⟩
  · have hwritten : (request.set "response_skeleton_path" (.str path)).IsStored :=
      (buildActionRequest_stored hbuild hroot hitem hcontext).set _ (Value.stored_str path)
    have hread : ActionRequest.fromDict (request.set "response_skeleton_path" (.str path)) =
        .ok issued := by
      rw [fromDict_setSkeletonPath, hissued]
    refine ⟨_, readBack_stored hwritten, hread, fun hash hhash => ?_⟩
    have hrequestHash := requestHash_of_fromDict hread hhash
    refine ⟨hrequestHash, fun files lease response hpath hfile hnamed => ?_⟩
    have hrequestId : (request.set "response_skeleton_path" (.str path)).textOr "request_id" "" =
        context.requestId := by
      rw [Dict.textOr, Dict.get_set, if_neg (by decide), (buildActionRequest_item hbuild).2]
      unfold Value.orElse
      split
      · rfl
      · next hempty => simpa using (by simpa using hempty : context.requestId = "").symm
    unfold expectedRequestHashForResponse
    simp only [if_pos hpath, hfile, Value.toDict?_toValue, hrequestHash, hnamed, hrequestId,
      ne_eq, not_true_eq_false, if_false]
  · obtain ⟨hclassification, hreply⟩ := issued_evidence hbuild hissued
    rw [fromDict_toDict_iff (fromDict_eq_ok hissued).1, hclassification, hreply]
    · rw [hclassification]
      exact hitem.get _
    · rw [hreply]
      exact hitem.get _
  · exact ⟨document, readBack_stored hstored, requestHash_beforeEnvelope hold henvelope hhash⟩

/-- A finding as it is stored, with its evidence of a reply. -/
def storedFinding (replyEvidence : Value) : Dict :=
  Dict.ofFields
    [("item_id", .str "finding:1"), ("item_kind", .str "local_finding"), ("title", .str "Leak"),
      ("classification_evidence", (Dict.ofFields [("classification", .str "fix")]).toValue),
      ("reply_evidence", replyEvidence)]

def storedFindingSession : Session where
  root := Dict.ofFields [("session_id", .str "session:1")]
  items := ∅
  leases := ∅
  leaseEvents := []

def storedFindingContext : RequestContext where
  repo := "acme/app"
  prNumber := "7"
  role := "fixer"
  requestId := "req_1"
  leaseId := "lease_1"
  repositoryContext := Dict.ofFields [("repo", .str "acme/app"), ("pr_number", .str "7")]

theorem storedFinding_stored {replyEvidence : Value} (h : replyEvidence.IsStored) :
    (storedFinding replyEvidence).IsStored := by
  have hclassification : (Dict.ofFields [("classification", .str "fix")]).IsStored :=
    Dict.stored_ofFields (by simp [Value.stored_str])
  exact Dict.stored_ofFields (by simp [Value.stored_str, h, hclassification.asValue])

theorem issued_request_round_trips_finding : ∃ request issued,
    buildActionRequest storedFindingSession (storedFinding .null) storedFindingContext =
      some request ∧
    ActionRequest.fromDict request = .ok issued ∧
    ∃ document, issued.toDict = some document ∧ ActionRequest.fromDict document = .ok issued := by
  obtain ⟨request, hbuild, hread⟩ := (Option.any_eq_true
    (fun request => (ActionRequest.fromDict request).toOption.isSome)
    (buildActionRequest storedFindingSession (storedFinding .null) storedFindingContext)).mp
      (by decide +kernel)
  cases hissued : ActionRequest.fromDict request with
  | error stop =>
      rw [hissued] at hread
      cases hread
  | ok issued =>
      have hroot : storedFindingSession.root.IsStored :=
        Dict.stored_ofFields (by simp [Value.stored_str])
      have hcontext : storedFindingContext.repositoryContext.IsStored :=
        Dict.stored_ofFields (by simp [Value.stored_str])
      refine ⟨request, issued, hbuild, hissued, ?_⟩
      exact (issued_request_round_trips hbuild hissued hroot (storedFinding_stored rfl)
        hcontext).2.1.mpr (by decide +kernel)

/-- A finding in memory whose title is an object with unsorted keys. -/
def unsortedFinding : Dict :=
  (storedFinding .null).set "title" (.dict [("line", .int 3), ("file", .str "a.py")])

theorem unsorted_title_changes_hash : ∃ request written issuedHash readHash,
    buildActionRequest storedFindingSession unsortedFinding storedFindingContext =
      some request ∧
    readBack request = some written ∧ requestHash request = .ok issuedHash ∧
    requestHash written = .ok readHash ∧ issuedHash ≠ readHash := by
  obtain ⟨request, hbuild, hwritten⟩ := (Option.any_eq_true
    (fun request => (readBack request).any fun written =>
      match requestHash request, requestHash written with
      | .ok issuedHash, .ok readHash => issuedHash != readHash
      | _, _ => false)
    (buildActionRequest storedFindingSession unsortedFinding storedFindingContext)).mp
      (by decide +kernel)
  obtain ⟨written, hback, hhashes⟩ := (Option.any_eq_true _ _).mp hwritten
  split at hhashes
  · next issuedHash readHash hissued hread =>
    exact ⟨request, written, issuedHash, readHash, hbuild, hback, hissued, hread,
      by simpa using hhashes⟩
  · cases hhashes

/-- An empty list of reply evidence is read back as an empty object. -/
theorem listed_reply_evidence_changes : ∃ request issued,
    buildActionRequest storedFindingSession (storedFinding (.list [])) storedFindingContext =
      some request ∧
    ActionRequest.fromDict request = .ok issued ∧
    (∃ document, issued.toDict = some document) ∧
    ¬ ∃ document, issued.toDict = some document ∧
      ActionRequest.fromDict document = .ok issued := by
  obtain ⟨request, hbuild, hread⟩ := (Option.any_eq_true
    (fun request => match ActionRequest.fromDict request with
      | .ok issued => issued.toDict.isSome
      | .error _ => false)
    (buildActionRequest storedFindingSession (storedFinding (.list []))
      storedFindingContext)).mp (by decide +kernel)
  cases hissued : ActionRequest.fromDict request with
  | error stop =>
      rw [hissued] at hread
      cases hread
  | ok issued =>
      rw [hissued] at hread
      obtain ⟨hclassification, hreply⟩ := issued_evidence hbuild hissued
      have hstored : (storedFinding (.list [])).IsStored := storedFinding_stored rfl
      refine ⟨request, issued, hbuild, hissued, Option.isSome_iff_exists.mp hread, ?_⟩
      rw [fromDict_toDict_iff (fromDict_eq_ok hissued).1, hclassification, hreply]
      · decide +kernel
      · rw [hclassification]
        exact hstored.get _
      · rw [hreply]
        exact hstored.get _

/-- An item that is not as the store gives it, and one whose evidence is a list. -/
theorem requests_changed_by_round_trip :
    (∃ request written issuedHash readHash,
      buildActionRequest storedFindingSession unsortedFinding storedFindingContext =
        some request ∧
      readBack request = some written ∧ requestHash request = .ok issuedHash ∧
      requestHash written = .ok readHash ∧ issuedHash ≠ readHash) ∧
    ∃ request issued,
      buildActionRequest storedFindingSession (storedFinding (.list [])) storedFindingContext =
        some request ∧
      ActionRequest.fromDict request = .ok issued ∧
      (∃ document, issued.toDict = some document) ∧
      ¬ ∃ document, issued.toDict = some document ∧
        ActionRequest.fromDict document = .ok issued :=
  ⟨unsorted_title_changes_hash, listed_reply_evidence_changes⟩

end GhAddressCr
