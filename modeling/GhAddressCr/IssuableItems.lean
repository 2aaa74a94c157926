import GhAddressCr.CommandFrames
import GhAddressCr.RequestRoundTrip

/-!
# Items that requests can be issued for

What one command stores on an item is read by another, when the item is selected again and a
request is built for it. The validation of an accepted response is stored on a finding as it was
given, while a request reads it as records.
-/
namespace GhAddressCr

open PyText GithubThreadState RuntimeStore

/-- The entries of a value as records; `none` where one is none. -/
def records? (value : Value) : Option (List Dict) :=
  (iterate value).bind fun entries => entries.mapM Value.toMapping?

/-- The validation evidence of an item. -/
def validationEvidence (item : Dict) : Value := (item["validation_evidence"]?).getD (.list [])

/-- The actions an item allows. -/
def offeredActions (item : Dict) : Value :=
  (item.get "allowed_actions").orElse (.list (terminalResolutions.map .str))

/-- What a request is built from can be read. -/
structure Presentable (item : Dict) : Prop where
  itemId : (item["item_id"]?).isSome = true
  itemKind : (item["item_kind"]?).isSome = true
  offered : ((iterate (offeredActions item)).bind sortedValues).isSome = true
  actions : (stringTuple (item.get "allowed_actions")).isSome = true
  conflictKeys : (stringTuple (item.get "conflict_keys")).isSome = true
  validation : (records? (validationEvidence item)).isSome = true
  evidence : ∀ field ∈ evidenceFields, (WorkItem.optionalMapping (item.get field)).isSome = true

/-- A request for the item is built, and read and hashed without an error. -/
def RequestBuilds (session : Session) (item : Dict) (context : RequestContext) : Prop :=
  ∃ request issued hash, buildActionRequest session item context = some request ∧
    ActionRequest.fromDict request = .ok issued ∧ issued.stableHash = some hash

theorem SameRequest.presentable {item item' : Dict} (h : SameRequest item item')
    (hitem : Presentable item) : Presentable item' := by
  have hget : ∀ field ∈ requestFields, item'.get field = item.get field := by
    intro field hfield
    unfold Dict.get
    rw [h.fields field hfield]
  refine ⟨?_, ?_, ?_, ?_, ?_, ?_, fun field hfield => ?_⟩
  · rw [h.fields _ (by decide)]
    exact hitem.itemId
  · rw [h.fields _ (by decide)]
    exact hitem.itemKind
  · unfold offeredActions
    rw [hget _ (by decide)]
    exact hitem.offered
  · rw [hget _ (by decide)]
    exact hitem.actions
  · rw [hget _ (by decide)]
    exact hitem.conflictKeys
  · unfold validationEvidence
    rw [h.fields _ (by decide)]
    exact hitem.validation
  · rcases h.evidence field hfield with hsame | hwritten
    · unfold Dict.get
      rw [hsame]
      exact hitem.evidence field hfield
    · cases hvalue : item'.get field with
      | dict fields => rfl
      | _ => simp [hvalue, Value.toDict?] at hwritten

/-- The fields of an item that a request takes out or writes. -/
def rewrittenFields : List String :=
  ["body", "first_body", "latest_body", "untrusted_content", "state"]

/-- The item of a request as it is shown. -/
theorem shownItem_lookup (item : Dict) (key : String) (hkey : key ∉ rewrittenFields) :
    ((requestItemProjection item).set "state" (.str "claimed"))[key]? = item[key]? := by
  simp only [rewrittenFields, List.mem_cons, List.not_mem_nil, or_false, not_or] at hkey
  obtain ⟨hbody, hfirst, hlatest, hcontent, hstate⟩ := hkey
  rw [Dict.getElem?_set, if_neg (Ne.symm hstate)]
  unfold requestItemProjection
  rw [Dict.getElem?_set, if_neg (Ne.symm hcontent), Dict.getElem?_pop, if_neg (Ne.symm hlatest),
    Dict.getElem?_pop, if_neg (Ne.symm hfirst), Dict.getElem?_pop, if_neg (Ne.symm hbody)]

theorem shownItem_get (item : Dict) (key : String) (hkey : key ∉ rewrittenFields) :
    ((requestItemProjection item).set "state" (.str "claimed")).get key = item.get key := by
  unfold Dict.get
  rw [shownItem_lookup item key hkey]

/-- The item of a request is read, with the evidence of the session's item. -/
theorem shownItem_reads {item : Dict} (h : Presentable item) : ∃ shown,
    WorkItem.fromDict ((requestItemProjection item).set "state" (.str "claimed")).toValue =
      some shown := by
  have hcontent : ((requestItemProjection item).set "state" (.str "claimed")).get
      "untrusted_content" = (untrustedContentEnvelope item).toValue := by
    simp [requestItemProjection]
  obtain ⟨itemId, hitemId⟩ := Option.isSome_iff_exists.mp h.itemId
  obtain ⟨itemKind, hitemKind⟩ := Option.isSome_iff_exists.mp h.itemKind
  obtain ⟨actions, hactions⟩ := Option.isSome_iff_exists.mp h.actions
  obtain ⟨keys, hkeys⟩ := Option.isSome_iff_exists.mp h.conflictKeys
  obtain ⟨records, hrecords⟩ := Option.isSome_iff_exists.mp h.validation
  obtain ⟨entries, hentries, hmapped⟩ := Option.bind_eq_some_iff.mp hrecords
  unfold validationEvidence at hentries
  unfold WorkItem.fromDict
  simp only [Value.toDict?_toValue, shownItem_lookup item "item_id" (by decide),
    shownItem_lookup item "item_kind" (by decide),
    shownItem_lookup item "validation_evidence" (by decide),
    shownItem_get item "allowed_actions" (by decide),
    shownItem_get item "conflict_keys" (by decide), hcontent, hitemId,
    hitemKind, hactions, hkeys, hentries, hmapped, Option.bind_eq_bind, Option.bind_some]
  simp only [Dict.toValue, optionalDict, Value.toDict?, Option.map_some, Option.bind_some]
  exact ⟨_, rfl⟩

/-- The fields of a built document that reading it needs. -/
structure BuiltFields (request item : Dict) (context : RequestContext) : Prop where
  version : request.get "schema_version" = .str protocolVersion
  requestId : request["request_id"]? = some (.str context.requestId)
  sessionId : (request["session_id"]?).isSome = true
  leaseId : request["lease_id"]? = some (.str context.leaseId)
  role : request["agent_role"]? = some (.str context.role)
  item : request["item"]? =
    some ((requestItemProjection item).set "state" (.str "claimed")).toValue
  actions : ∃ actions, request["allowed_actions"]? = some (.list actions)
  required : ∃ required, request["required_evidence"]? = some (.list required)
  repository : request.get "repository_context" = context.repositoryContext.toValue
  forbidden : ∃ forbidden, request.get "forbidden_actions" = .list forbidden
  boundary : ∃ boundary : Option Dict,
    request.get "handling_boundary" = (boundary.map (·.toValue)).getD .null

theorem buildActionRequest_fields {session : Session} {item request : Dict}
    {context : RequestContext} (h : buildActionRequest session item context = some request) :
    BuiltFields request item context := by
  unfold buildActionRequest at h
  obtain ⟨sessionId, hsession, h⟩ := Option.bind_eq_some_iff.mp h
  obtain ⟨actions, hactions, h⟩ := Option.bind_eq_some_iff.mp h
  obtain ⟨allowed, hallowed, h⟩ := Option.bind_eq_some_iff.mp h
  obtain rfl := Option.some.inj h
  constructor
  all_goals
    simp only [Dict.get_setIfSome, Dict.getElem?_setIfSome, Dict.ofFields, List.foldl_cons,
      List.foldl_nil, Dict.get_insert, Dict.get_empty, Std.ExtTreeMap.getElem?_insert,
      Std.LawfulEqCmp.compare_eq_iff_eq, String.reduceEq, if_false, if_true, Option.isSome_some,
      Option.some.injEq, Value.list.injEq, exists_eq']
  exact ⟨_, rfl⟩

/-- A built document is read where its item and its role are. -/
theorem BuiltFields.reads {request item : Dict} {context : RequestContext}
    (hfields : BuiltFields request item context) (h : Presentable item)
    (hrole : (AgentRole.parse context.role).isSome = true) :
    ∃ issued, ActionRequest.fromDict request = .ok issued := by
  obtain ⟨shown, hshown⟩ := shownItem_reads h
  obtain ⟨role, hroleValue⟩ := Option.isSome_iff_exists.mp hrole
  obtain ⟨sessionId, hsessionId⟩ := Option.isSome_iff_exists.mp hfields.sessionId
  obtain ⟨actions, hactions⟩ := hfields.actions
  obtain ⟨required, hrequired⟩ := hfields.required
  obtain ⟨forbidden, hforbidden⟩ := hfields.forbidden
  obtain ⟨boundary, hboundary⟩ := hfields.boundary
  have hversion : request.textOr "schema_version" "" = "1.1" := by
    rw [Dict.textOr, hfields.version]
    decide
  have hoptional : optionalDict ((boundary.map (·.toValue)).getD .null) = some boundary :=
    optionalDict_toValue boundary
  have htexts : ∀ values : List Value,
      stringTuple (.list values) = some (values.map (·.text)) := fun values => rfl
  have hread : ∃ issued, ActionRequest.ofFields request "1.1" = some issued := by
    unfold ActionRequest.ofFields
    simp only [hfields.requestId, hsessionId, hfields.leaseId, hfields.role, hfields.item, hshown,
      hactions, hrequired, hfields.repository, hforbidden, hboundary, hoptional, htexts,
      hroleValue, Value.text_str, Option.bind_eq_bind, Option.bind_some]
    exact ⟨_, rfl⟩
  obtain ⟨issued, hissued⟩ := hread
  refine ⟨issued, ?_⟩
  unfold ActionRequest.fromDict
  simp only [hversion, hissued]
  rfl

/-- The request for an item that can be presented is built and read. -/
theorem requestBuilds_of_presentable {session : Session} {item : Dict} {context : RequestContext}
    (hsession : (session.root["session_id"]?).isSome = true)
    (hrole : (AgentRole.parse context.role).isSome = true) (h : Presentable item) :
    RequestBuilds session item context := by
  obtain ⟨sessionId, hsessionId⟩ := Option.isSome_iff_exists.mp hsession
  obtain ⟨sorted, hsorted⟩ := Option.isSome_iff_exists.mp h.offered
  obtain ⟨actions, hactions, hsort⟩ := Option.bind_eq_some_iff.mp hsorted
  unfold offeredActions at hactions
  have hbuilt : ∃ request, buildActionRequest session item context = some request := by
    unfold buildActionRequest
    simp only [hsessionId, hactions, hsort, Option.bind_eq_bind, Option.bind_some]
    exact ⟨_, rfl⟩
  obtain ⟨request, hrequest⟩ := hbuilt
  obtain ⟨issued, hissued⟩ := (buildActionRequest_fields hrequest).reads h hrole
  obtain ⟨hclassification, hreply⟩ := issued_evidence hrequest hissued
  obtain ⟨classification, hclassified⟩ := Option.isSome_iff_exists.mp
    (h.evidence "classification_evidence" (by decide))
  obtain ⟨reply, hreplied⟩ := Option.isSome_iff_exists.mp (h.evidence "reply_evidence" (by decide))
  rw [← hclassification] at hclassified
  rw [← hreply] at hreplied
  obtain ⟨document, hdocument⟩ := WorkItem.toDict_isSome hclassified hreplied
  have hhash : ∃ hash, issued.stableHash = some hash := by
    unfold ActionRequest.stableHash ActionRequest.toDict
    rw [hdocument]
    exact ⟨_, rfl⟩
  obtain ⟨hash, hhash⟩ := hhash
  exact ⟨request, issued, hash, hrequest, hissued, hhash⟩

/-- A request is built and read for no other item. -/
theorem RequestBuilds.presentable {session : Session} {item : Dict} {context : RequestContext}
    (h : RequestBuilds session item context) : Presentable item := by
  obtain ⟨request, issued, hash, hbuild, hread, hhash⟩ := h
  have hoffered : ((iterate (offeredActions item)).bind sortedValues).isSome = true := by
    unfold buildActionRequest at hbuild
    obtain ⟨_, -, hbuild⟩ := Option.bind_eq_some_iff.mp hbuild
    obtain ⟨actions, hactions, hbuild⟩ := Option.bind_eq_some_iff.mp hbuild
    obtain ⟨sorted, hsorted, -⟩ := Option.bind_eq_some_iff.mp hbuild
    unfold offeredActions
    rw [hactions, Option.bind_some, hsorted]
    rfl
  obtain ⟨-, value, hvalue, hitem⟩ := fromDict_eq_ok hread
  rw [(buildActionRequest_item hbuild).1] at hvalue
  obtain rfl := Option.some.inj hvalue
  obtain ⟨hclassification, hreply⟩ := issued_evidence hbuild hread
  have hdocument : ∃ document, issued.item.toDict = some document := by
    unfold ActionRequest.stableHash ActionRequest.toDict at hhash
    cases hdict : issued.item.toDict with
    | none => simp [hdict] at hhash
    | some document => exact ⟨document, rfl⟩
  obtain ⟨document, hdocument⟩ := hdocument
  obtain ⟨classification, reply, hclassified, hreplied, -⟩ := workItem_fromDict_toDict hdocument
  rw [hclassification] at hclassified
  rw [hreply] at hreplied
  unfold WorkItem.fromDict at hitem
  rw [Value.toDict?_toValue] at hitem
  obtain ⟨payload, hpayload, hitem⟩ := Option.bind_eq_some_iff.mp hitem
  obtain rfl := Option.some.inj hpayload
  obtain ⟨itemId, hitemId, hitem⟩ := Option.bind_eq_some_iff.mp hitem
  obtain ⟨itemKind, hitemKind, hitem⟩ := Option.bind_eq_some_iff.mp hitem
  obtain ⟨actions, hactions, hitem⟩ := Option.bind_eq_some_iff.mp hitem
  obtain ⟨keys, hkeys, hitem⟩ := Option.bind_eq_some_iff.mp hitem
  obtain ⟨entries, hentries, hitem⟩ := Option.bind_eq_some_iff.mp hitem
  obtain ⟨records, hrecords, -⟩ := Option.bind_eq_some_iff.mp hitem
  rw [shownItem_lookup item "item_id" (by decide)] at hitemId
  rw [shownItem_lookup item "item_kind" (by decide)] at hitemKind
  rw [shownItem_get item "allowed_actions" (by decide)] at hactions
  rw [shownItem_get item "conflict_keys" (by decide)] at hkeys
  rw [shownItem_lookup item "validation_evidence" (by decide)] at hentries
  refine ⟨by rw [hitemId]; rfl, by rw [hitemKind]; rfl, hoffered, by rw [hactions]; rfl,
    by rw [hkeys]; rfl, ?_, ?_⟩
  · unfold records? validationEvidence
    rw [hentries, Option.bind_some, hrecords]
    rfl
  · intro field hfield
    simp only [evidenceFields, List.mem_cons, List.not_mem_nil, or_false] at hfield
    rcases hfield with rfl | rfl
    · rw [hclassified]
      rfl
    · rw [hreplied]
      rfl

/-- Evidence that reads as records is stored. -/
theorem Presentable.setValidation {item : Dict} (h : Presentable item) {evidence : Value}
    (hevidence : (records? evidence).isSome = true) :
    Presentable (item.set "validation_evidence" evidence) := by
  have hother : ∀ key : String, "validation_evidence" ≠ key →
      (item.set "validation_evidence" evidence)[key]? = item[key]? := by
    intro key hkey
    rw [Dict.getElem?_set, if_neg hkey]
  have hget : ∀ key : String, "validation_evidence" ≠ key →
      (item.set "validation_evidence" evidence).get key = item.get key := by
    intro key hkey
    rw [Dict.get_set, if_neg hkey]
  refine ⟨?_, ?_, ?_, ?_, ?_, ?_, fun field hfield => ?_⟩
  · rw [hother _ (by decide)]
    exact h.itemId
  · rw [hother _ (by decide)]
    exact h.itemKind
  · unfold offeredActions
    rw [hget _ (by decide)]
    exact h.offered
  · rw [hget _ (by decide)]
    exact h.actions
  · rw [hget _ (by decide)]
    exact h.conflictKeys
  · unfold validationEvidence
    rw [Dict.getElem?_set, if_pos rfl]
    exact hevidence
  · have hne : "validation_evidence" ≠ field := by
      rintro rfl
      exact absurd hfield (by decide)
    rw [hget _ hne]
    exact h.evidence field hfield

/-- A response is stored on a finding with its validation as it was given. -/
theorem Presentable.applyToLocal {item response : Dict} (now : Int) (h : Presentable item)
    (hrecords : (records? (listField response "validation_commands")).isSome = true) :
    Presentable (applyResponseToLocalItem item response now) := by
  unfold applyResponseToLocalItem
  simp only [List.foldl_cons, List.foldl_nil]
  let resolution := (response.get "resolution").text
  let noted := (((((item.set "state" (.str (if resolution = "fix" then "fixed" else
    resolution))).set "status" (.str (localStatusForResolution resolution))).set "blocking"
    (.bool false)).set "handled" (.bool true)).set "handled_at" (.time now)).set
    "resolution_note" (response.get "note")
  have hnoted : SameRequest item noted :=
    ((((((SameRequest.refl item).set _ (by decide)).set _ (by decide)).set _
      (by decide)).set _ (by decide)).set _ (by decide)).set _ (by decide)
  have hstored := (hnoted.presentable h).setValidation hrecords
  refine SameRequest.presentable ?_ hstored
  exact ((((((((SameRequest.refl _).setIfSome _ (by decide)).set _ (by decide)).set _
    (by decide)).set _ (by decide)).setIfSome _ (by decide)).setIfSome _
    (by decide)).setIfSome _ (by decide)).setIfSome _ (by decide)

/-- An item that is created or taken over, with its id and its kind. -/
theorem presentable_named {existing : Option Dict} {named : Dict}
    (h : ∀ item ∈ existing, Presentable item) (hid : (named["item_id"]?).isSome = true)
    (hkind : (named["item_kind"]?).isSome = true)
    (hother : ∀ field ∈ requestFields ++ evidenceFields, field ≠ "item_id" →
      field ≠ "item_kind" → named[field]? = (existing.getD ∅)[field]?) : Presentable named := by
  have hget : ∀ field ∈ requestFields ++ evidenceFields, field ≠ "item_id" →
      field ≠ "item_kind" → named.get field = (existing.getD ∅).get field := by
    intro field hfield hneId hneKind
    unfold Dict.get
    rw [hother field hfield hneId hneKind]
  have hevidence : ∀ field ∈ evidenceFields,
      field ∈ requestFields ++ evidenceFields ∧ field ≠ "item_id" ∧ field ≠ "item_kind" := by
    decide
  cases existing with
  | none =>
      refine ⟨hid, hkind, ?_, ?_, ?_, ?_, fun field hfield => ?_⟩
      · unfold offeredActions
        rw [hget _ (by decide) (by decide) (by decide), Option.getD_none, Dict.get_empty]
        decide
      · rw [hget _ (by decide) (by decide) (by decide), Option.getD_none, Dict.get_empty]
        rfl
      · rw [hget _ (by decide) (by decide) (by decide), Option.getD_none, Dict.get_empty]
        rfl
      · unfold validationEvidence
        rw [hother _ (by decide) (by decide) (by decide), Option.getD_none]
        decide
      · obtain ⟨hmem, hneId, hneKind⟩ := hevidence field hfield
        rw [hget field hmem hneId hneKind, Option.getD_none, Dict.get_empty]
        rfl
  | some item =>
      have hitem := h item rfl
      refine ⟨hid, hkind, ?_, ?_, ?_, ?_, fun field hfield => ?_⟩
      · unfold offeredActions
        rw [hget _ (by decide) (by decide) (by decide)]
        exact hitem.offered
      · rw [hget _ (by decide) (by decide) (by decide)]
        exact hitem.actions
      · rw [hget _ (by decide) (by decide) (by decide)]
        exact hitem.conflictKeys
      · unfold validationEvidence
        rw [hother _ (by decide) (by decide) (by decide)]
        exact hitem.validation
      · obtain ⟨hmem, hneId, hneKind⟩ := hevidence field hfield
        rw [hget field hmem hneId hneKind]
        exact hitem.evidence field hfield

theorem ingestedItem_presentable (finding : LocalFinding) (source : String) (now : Int)
    {existing : Option Dict} (h : ∀ item ∈ existing, Presentable item) :
    Presentable (ingestedItem finding source now existing) := by
  have hupdate : ∀ key : String, ((existing.getD ∅).update (finding.fields source))[key]? =
      (finding.fields source)[key]?.or (existing.getD ∅)[key]? := fun key =>
    KeyedRows.getElem?_overwrite _ _ key
  have hnamed : Presentable ((existing.getD ∅).update (finding.fields source)) := by
    refine presentable_named h ?_ ?_ fun field hfield hneId hneKind => ?_
    · rw [hupdate]
      simp [LocalFinding.fields, Dict.getElem?_setIfSome_of_ne, Dict.ofFields]
    · rw [hupdate]
      simp [LocalFinding.fields, Dict.getElem?_setIfSome_of_ne, Dict.ofFields]
    · rw [hupdate]
      simp only [requestFields, evidenceFields, List.cons_append, List.nil_append, List.mem_cons,
        List.not_mem_nil, or_false] at hfield
      rcases hfield with rfl | rfl | rfl | rfl | rfl | rfl | rfl
      · exact absurd rfl hneId
      · exact absurd rfl hneKind
      all_goals simp [LocalFinding.fields, Dict.getElem?_setIfSome_of_ne, Dict.ofFields]
  refine SameRequest.presentable ?_ hnamed
  exact ((((((((((((SameRequest.refl _).setDefault _ (by decide)).set _ (by decide)).set _
    (by decide)).set _ (by decide)).set _ (by decide)).set _ (by decide)).set _
    (by decide)).setDefault _ (by decide)).setDefault _ (by decide)).setDefault _
    (by decide)).setDefault _ (by decide))

theorem keepsRequest_describeThread (thread : Dict) : KeepsRequest (describeThread thread) := by
  intro item
  unfold describeThread
  simp only [List.foldl_cons, List.foldl_nil]
  exact ((((((SameRequest.refl item).set _ (by decide)).set _ (by decide)).set _
    (by decide)).set _ (by decide)).setIfSome _ (by decide)).setIfSome _ (by decide)

theorem keepsRequest_determineState (thread : Dict) :
    KeepsRequest (determineMergedThreadState thread) := by
  intro item
  unfold determineMergedThreadState
  simp only
  split
  · exact (((((SameRequest.refl item).set _ (by decide)).set _ (by decide)).set _
      (by decide)).set _ (by decide)).set _ (by decide)
  · split
    · exact ((((SameRequest.refl item).set _ (by decide)).set _ (by decide)).set _
        (by decide)).set _ (by decide)
    · split
      · exact ((((SameRequest.refl item).set _ (by decide)).set _ (by decide)).set _
          (by decide)).set _ (by decide)
      · exact ((((SameRequest.refl item).set _ (by decide)).set _ (by decide)).set _
          (by decide)).set _ (by decide)

theorem keepsRequest_viewerReply (thread : Dict) (currentLogin : Option String) :
    KeepsRequest fun item => applyViewerReplyEvidence thread item currentLogin := by
  intro item
  show SameRequest item (applyViewerReplyEvidence thread item currentLogin)
  unfold applyViewerReplyEvidence
  simp only
  split
  · refine ((SameRequest.setEvidence (SameRequest.refl item) (by decide)
      (replyEvidence_isObject _ _)).set _ (by decide)).set _ (by decide)
  · exact .refl item

theorem mergeSingleRemoteThread_presentable (thread : Dict) (threadId : String)
    {existing : Option Dict} (currentLogin : Option String)
    (h : ∀ item ∈ existing, Presentable item) :
    Presentable (mergeSingleRemoteThread thread threadId existing currentLogin) := by
  have hdefault : ∀ (d : Dict) (key field : String) (value : Value), key ≠ field →
      (d.setDefault key value)[field]? = d[field]? := by
    intro d key field value hne
    unfold Dict.setDefault
    split
    · rfl
    · rw [Dict.getElem?_set, if_neg hne]
  have hgiven : ∀ (d : Dict) (key : String) (value : Value),
      ((d.setDefault key value)[key]?).isSome = true := by
    intro d key value
    unfold Dict.setDefault
    split
    · next hhas => exact hhas
    · rw [Dict.getElem?_set, if_pos rfl]
      rfl
  let identified := (existing.getD ∅).setDefault "item_id" (.str ("github-thread:" ++ threadId))
  let named := identified.setDefault "item_kind" (.str "github_thread")
  have hnamed : Presentable named := by
    refine presentable_named h ?_ (hgiven identified _ _) fun field _ hneId hneKind => ?_
    · rw [hdefault identified _ _ _ (by decide)]
      exact hgiven _ _ _
    · rw [hdefault identified _ _ _ (Ne.symm hneKind), hdefault _ _ _ _ (Ne.symm hneId)]
  refine SameRequest.presentable ?_ hnamed
  unfold mergeSingleRemoteThread
  have hsource := (((SameRequest.refl named).setDefault (.str "github")
    (by decide : "source" ∉ _)).set (.str threadId) (by decide : "thread_id" ∉ _)).set
    (.str threadId) (by decide : "origin_ref" ∉ _)
  exact ((hsource.trans (keepsRequest_describeThread thread _)).trans
    (keepsRequest_determineState thread _)).trans
    (keepsRequest_viewerReply thread currentLogin _)

theorem ItemNote.write_presentable (written : ItemNote) {item : Dict} (h : Presentable item)
    (hrecords : ∀ commands revisionBinding fixReply,
      written = .validation commands revisionBinding fixReply →
        (records? (.list commands)).isSome = true) : Presentable (written.write item) := by
  cases written with
  | reviewPriority evidence =>
      exact ((SameRequest.refl item).set _ (by decide)).presentable h
  | postedReply replyUrl login =>
      refine SameRequest.presentable ?_ h
      exact (((SameRequest.refl item).set _ (by decide)).set _ (by decide)).setEvidence
        (by decide) (replyEvidence_isObject _ _)
  | validation commands revisionBinding fixReply =>
      have hstored := h.setValidation (hrecords commands revisionBinding fixReply rfl)
      exact (((SameRequest.refl _).setIfSome _ (by decide)).set _ (by decide)).presentable hstored

/-- Requests can be built for all items. -/
structure Issuable (s : Session) : Prop where
  sessionId : (s.root["session_id"]?).isSome = true
  items : ∀ (id : String) (item : Dict), s.items[id]? = some item → Presentable item

theorem RequestFrame.issuable {rewritten : String → Prop} {s s' : Session}
    (h : RequestFrame rewritten s s') (hs : Issuable s)
    (hrewritten : ∀ (id : String) (item : Dict), rewritten id → s'.items[id]? = some item →
      Presentable item) : Issuable s' := by
  refine ⟨by rw [h.sessionId]; exact hs.sessionId, fun id item' hitem' => ?_⟩
  rcases h.items id item' hitem' with hid | ⟨item, hitem, hsame⟩
  · exact hrewritten id item' hid hitem'
  · exact hsame.presentable (hs.items id item hitem)

theorem KeepsRequests.issuable {s s' : Session} (h : KeepsRequests s s') (hs : Issuable s) :
    Issuable s' := RequestFrame.issuable h hs fun _ _ hnever => hnever.elim

theorem Issuable.insertItem {items : Rows Dict} {itemId : String} {item : Dict}
    (h : ∀ (id : String) (found : Dict), items[id]? = some found → Presentable found)
    (hitem : Presentable item) : ∀ (id : String) (found : Dict),
      (items.insert itemId item)[id]? = some found → Presentable found := by
  intro id found hfound
  simp only [Std.ExtTreeMap.getElem?_insert, Std.compare_eq_iff_eq] at hfound
  split at hfound
  · obtain rfl := Option.some.inj hfound
    exact hitem
  · exact h id found hfound

theorem ingest_issuable {s : Session} (hs : Issuable s) (findings : List LocalFinding)
    (source : String) (sync : Bool) (now : Int) :
    Issuable (ingestNativeFindings s findings source sync now) := by
  have hfold : ∀ (incoming : List LocalFinding) (items : Rows Dict),
      (∀ (id : String) (item : Dict), items[id]? = some item → Presentable item) →
      ∀ (id : String) (item : Dict), (incoming.foldl (fun items finding =>
        items.insert finding.itemId (ingestedItem finding source now items[finding.itemId]?))
        items)[id]? = some item → Presentable item := by
    intro incoming
    induction incoming with
    | nil => exact fun _ hitems => hitems
    | cons finding incoming ih =>
        intro items hitems
        rw [List.foldl_cons]
        exact ih _ (Issuable.insertItem hitems
          (ingestedItem_presentable finding source now fun item hitem => hitems _ item hitem))
  have htaken := hfold findings s.items hs.items
  unfold ingestNativeFindings
  simp only
  split
  · refine ⟨hs.sessionId, fun id item hitem => ?_⟩
    rw [Std.ExtTreeMap.getElem?_map] at hitem
    obtain ⟨found, hfound, rfl⟩ := Option.map_eq_some_iff.mp hitem
    have hpresent := htaken id found hfound
    split
    · refine SameRequest.presentable ?_ hpresent
      exact ((((((SameRequest.refl found).set _ (by decide)).set _ (by decide)).set _
        (by decide)).set _ (by decide)).set _ (by decide)).set _ (by decide)
    · exact hpresent
  · exact ⟨hs.sessionId, htaken⟩

theorem refresh_issuable {s : Session} (hs : Issuable s) (threads : List Dict)
    (currentLogin : Option String) :
    Issuable (sessionWithRemoteThreads s threads currentLogin) := by
  have hfold : ∀ (observed : List Dict) (items : Rows Dict),
      (∀ (id : String) (item : Dict), items[id]? = some item → Presentable item) →
      ∀ (id : String) (item : Dict), (observed.foldl (mergeRemoteThread currentLogin)
        items)[id]? = some item → Presentable item := by
    intro observed
    induction observed with
    | nil => exact fun _ hitems => hitems
    | cons thread observed ih =>
        intro items hitems
        rw [List.foldl_cons]
        refine ih _ ?_
        unfold mergeRemoteThread
        split
        · exact hitems
        · next threadId _ =>
          exact Issuable.insertItem hitems (mergeSingleRemoteThread_presentable thread threadId
            currentLogin fun item hitem => hitems _ item hitem)
  exact ⟨hs.sessionId, hfold threads s.items hs.items⟩

theorem note_issuable {s : Session} (hs : Issuable s) (itemId : String) {written : ItemNote}
    (hrecords : ∀ commands revisionBinding fixReply,
      written = .validation commands revisionBinding fixReply →
        (records? (.list commands)).isSome = true) :
    Issuable (s.modifyItem itemId written.write) := by
  refine ⟨by rw [modifyItem_root]; exact hs.sessionId, fun id item' hitem' => ?_⟩
  rw [getElem?_modifyItem] at hitem'
  split at hitem'
  · obtain ⟨item, hitem, rfl⟩ := Option.map_eq_some_iff.mp hitem'
    exact written.write_presentable (hs.items id item hitem) hrecords
  · exact hs.items id item' hitem'

namespace CommandRun

variable {P : Type} [DecidableEq P]

/-- A response that is accepted on a finding gives its validation as records. -/
def StoresRecords (session : Session) : CommandLabel P → Prop
  | .perform (.accept metadata submission response) =>
      acceptedFinding session metadata submission response ≠ none →
        ∀ answer ∈ checkedAnswer session metadata submission response,
          (records? (listField answer.2 "validation_commands")).isSome = true
  | _ => True

omit [DecidableEq P] in
theorem accept_issuable {s s' : Session} {metadata : Option Dict}
    {submission : ResponseSubmission} {response : Dict} {result : Except Rejection Acceptance}
    (hkeyed : LeasesKeyed s) (hs : Issuable s)
    (h : acceptMutation metadata submission response s = .ok (s', result))
    (hrecords : StoresRecords s
      (.perform (.accept metadata submission response) : CommandLabel P)) : Issuable s' := by
  refine (acceptMutation_frame h).issuable hs fun id item' hid hitem' => ?_
  obtain ⟨after, record, haccept, rfl, hlocal⟩ := acceptedFinding_some hid
  obtain ⟨rfl, rfl⟩ := Prod.mk.inj (Except.ok.inj (h.symm.trans haccept))
  obtain ⟨prepared, expanded, hanswer, hitem, haccepts⟩ := acceptMutation_accepted hkeyed haccept
  rw [haccepts.items, if_pos rfl, hitem, Option.map_some] at hitem'
  obtain rfl := Option.some.inj hitem'
  rw [applyResponseToItem, if_neg (hlocal _ hitem)]
  exact (hs.items _ _ hitem).applyToLocal submission.now
    (hrecords (by simp [hid]) (prepared, expanded) hanswer)

/-- `record_validation_evidence` records what it has normalized: objects. -/
def isNormalized : CommandLabel P → Bool
  | .perform (.note _ (.validation commands _ _)) =>
      commands.all fun command => command.toDict?.isSome
  | _ => true

omit [DecidableEq P] in
theorem records?_of_normalized {commands : List Value}
    (h : (commands.all fun command => command.toDict?.isSome) = true) :
    (records? (.list commands)).isSome = true := by
  show (commands.mapM Value.toMapping?).isSome = true
  induction commands with
  | nil => rfl
  | cons command commands ih =>
      rw [List.all_cons, Bool.and_eq_true] at h
      obtain ⟨records, hrecords⟩ := Option.isSome_iff_exists.mp (ih h.2)
      cases command with
      | dict fields =>
          rw [List.mapM_cons, hrecords]
          rfl
      | _ => simp [Value.toDict?] at h

omit [DecidableEq P] in
theorem perform_issuable {s s' : Session} {op : SessionOp} (hkeyed : LeasesKeyed s)
    (hs : Issuable s) (h : op.apply s = some s')
    (hrecords : StoresRecords s (.perform op : CommandLabel P))
    (hnormal : isNormalized (.perform op : CommandLabel P) = true) : Issuable s' := by
  cases op with
  | claim pending =>
      simp only [SessionOp.apply] at h
      obtain ⟨lease, hclaim⟩ := toOption_map_fst h
      exact (commitClaim_keepsRequests hclaim).issuable hs
  | refuse args =>
      simp only [SessionOp.apply] at h
      split at h
      · next refused reasonCode hrefused =>
        obtain rfl := Option.some.inj h
        exact (refusedClaim_keepsRequests hrefused).issuable hs
      · cases h
  | reenter args files =>
      obtain ⟨reentry, hreenter, hrebuilt⟩ := Option.bind_eq_some_iff.mp h
      have hok : reenterClaim s args files = .ok reentry := by
        cases heq : reenterClaim s args files with
        | error e => simp [heq, Except.toOption] at hreenter
        | ok found => simpa [heq, Except.toOption] using hreenter
      exact (reenterClaim_keepsRequests hok hrebuilt).issuable hs
  | reject submission =>
      simp only [SessionOp.apply] at h
      split at h
      · next rejected rejection heq =>
        obtain rfl := Option.some.inj h
        exact (preflight_keepsRequests heq).issuable hs
      · cases h
  | accept metadata submission response =>
      simp only [SessionOp.apply] at h
      obtain ⟨result, haccept⟩ := toOption_map_fst h
      exact accept_issuable hkeyed hs haccept hrecords
  | answerBatch submission =>
      have hbatch := submitBatch_keepsRequests hkeyed submission
      simp only [SessionOp.apply] at h
      split at h
      · cases h
      · next answered result _ heq =>
        obtain rfl := Option.some.inj h
        rw [heq] at hbatch
        exact hbatch.issuable hs
  | reclaim now =>
      simp only [SessionOp.apply] at h
      obtain ⟨expired, hreclaim⟩ := toOption_map_fst h
      exact (reclaimLeases_keepsRequests hreclaim).issuable hs
  | releaseClaimed leaseId now reason =>
      obtain rfl := Option.some.inj h
      exact (releaseClaimedLease_keepsRequests s leaseId now reason).issuable hs
  | releaseStale itemIds agentId now =>
      obtain rfl := Option.some.inj h
      exact (releaseStaleLeases_keepsRequests itemIds agentId now s).issuable hs
  | classify args =>
      simp only [SessionOp.apply] at h
      obtain ⟨released, hclassify⟩ := toOption_map_fst h
      exact (recordClassification_keepsRequests hclassify).issuable hs
  | reopen itemId now =>
      simp only [SessionOp.apply] at h
      obtain ⟨_, hreopen⟩ := toOption_map_fst h
      exact (reopen_keepsRequests hreopen).issuable hs
  | refresh threads currentLogin =>
      obtain rfl := Option.some.inj h
      exact refresh_issuable hs threads currentLogin
  | ingest findings source sync now =>
      obtain rfl := Option.some.inj h
      exact ingest_issuable hs findings source sync now
  | publish replies login now =>
      obtain rfl := Option.some.inj h
      exact (publishItems_keepsRequests replies login now s).issuable hs
  | note itemId written =>
      obtain rfl := Option.some.inj h
      refine note_issuable hs itemId fun commands revisionBinding fixReply hwritten => ?_
      subst hwritten
      exact records?_of_normalized hnormal
  | describe field value =>
      simp only [SessionOp.apply] at h
      split at h
      · cases h
      · next hfield =>
        obtain rfl := Option.some.inj h
        refine ⟨?_, hs.items⟩
        show ((s.root.set field value)["session_id"]?).isSome = true
        rw [Dict.getElem?_set, if_neg hfield]
        exact hs.sessionId

omit [DecidableEq P] in
theorem Writes.issuable {run : CommandRun P} {label : CommandLabel P} {session : Session}
    (hkeyed : LeasesKeyed run.session) (hs : Issuable run.session)
    (h : Writes run label session) (hrecords : StoresRecords run.session label)
    (hnormal : isNormalized label = true) : Issuable session := by
  cases h with
  | perform op _ _ happly => exact perform_issuable hkeyed hs happly hrecords hnormal
  | claimBatch p args _ transition _ hbatch => exact (commitBatch_keepsRequests hbatch).issuable hs
  | compensate p plans _ =>
      exact (rollback_keepsRequests (createdRows run.session plans) run.session).issuable hs
  | claimOneShot p claim _ lease _ hcommit => exact (commitClaim_keepsRequests hcommit).issuable hs
  | reenterOneShot p args files reentry _ hreenter hrebuilt =>
      exact (reenterClaim_keepsRequests hreenter hrebuilt).issuable hs
  | rollback p preexisting leaseId acquisition now reasonCode _ =>
      unfold rollbackOneShot
      split
      · exact hs
      · exact (releaseClaimedLease_keepsRequests _ _ _ _).issuable hs

/-- One step, where validation evidence is recorded as it is normalized. -/
def issueNext (run : CommandRun P) (label : CommandLabel P) : Option (CommandRun P) :=
  if isNormalized label then run.next label else none

/-- The runs of commands from a fresh session, which has its id. -/
def issueRuns : TransitionSystem (CommandRun P) (CommandLabel P) :=
  .ofNext (fun run => IsFresh run.session ∧ run.activity = (fun _ => .idle) ∧
    (run.session.root["session_id"]?).isSome = true) issueNext

/-- Whatever item is selected, the request for it is built and read. -/
def IssuesEveryEligible (s : Session) : Prop :=
  ∀ (args : IssueArgs) (itemId : String) (item : Dict),
    nextItem (expireAndReturn s args.now) args.itemId = (itemId, some item) →
    ∀ (refreshed : Session) (context : RequestContext),
      refreshStackContext (selectedSession s args itemId (itemToIssue s args itemId item))
        args.observed = .ok refreshed →
      context.role = args.role → (AgentRole.parse args.role).isSome = true →
      RequestBuilds refreshed (itemToIssue s args itemId item) context

theorem Issuable.issuesEveryEligible {s : Session} (hs : Issuable s) : IssuesEveryEligible s := by
  intro args itemId item hnext refreshed context hrefresh hrole hparse
  have hselected := (selectedSession_keepsRequests hnext).issuable hs
  have hrefreshed := (refreshStackContext_keepsRequests hrefresh).issuable hselected
  have hitem : Presentable (itemToIssue s args itemId item) :=
    hselected.items itemId _ (by simp [selectedSession])
  exact requestBuilds_of_presentable hrefreshed.sessionId (by rw [hrole]; exact hparse) hitem

theorem issueNext_invariant {run after : CommandRun P} {label : CommandLabel P}
    (hinv : LeasesKeyed run.session ∧ Issuable run.session) (h : run.issueNext label = some after)
    (hrecords : StoresRecords run.session label) :
    LeasesKeyed after.session ∧ Issuable after.session := by
  unfold issueNext at h
  split at h
  · next hnormal =>
    refine ⟨next_leasesKeyed hinv.1 h, ?_⟩
    rcases next_writes h with ⟨hsame, -⟩ | ⟨session, hwrites, hview⟩
    · rw [hsame]
      exact hinv.2
    · exact (committedView_keepsRequests hview).issuable
        (hwrites.issuable hinv.1 hinv.2 hrecords hnormal)
  · cases h

/-- Where the responses that are accepted on findings give their validation as records, every
eligible item can be issued. -/
theorem eligible_items_issuable {run : CommandRun P}
    (h : issueRuns.ReachableUnder (fun run label _ => StoresRecords run.session label) run) :
    IssuesEveryEligible run.session := by
  have hinv : LeasesKeyed run.session ∧ Issuable run.session := by
    refine h.invariant (fun run => LeasesKeyed run.session ∧ Issuable run.session) ?_
      fun before label after hbefore hstep hrecords => issueNext_invariant hbefore hstep hrecords
    rintro start ⟨hfresh, -, hsession⟩
    refine ⟨hfresh.audited.1, hsession, fun id item hitem => ?_⟩
    rw [hfresh.items] at hitem
    simp at hitem
  exact Issuable.issuesEveryEligible hinv.2

instance (session : Session) (label : CommandLabel P) : Decidable (StoresRecords session label) := by
  induction label using CommandLabel.casesOn with
  | perform op => induction op using SessionOp.casesOn <;> unfold StoresRecords <;> infer_instance
  | _ => unfold StoresRecords; infer_instance

def fixWithRecords : Dict :=
  let record := Dict.ofFields [("command", .str "pytest"), ("result", .str "passed")]
  briefAnswer [("resolution", .str "fix"), ("files", .list [.str "a.py"]),
    ("validation_commands", .list [record.toValue])]

/-- A finding is fixed with the response, and its producer reports it again. -/
def fixAndReport (response : Dict) : List (CommandLabel Unit) :=
  answerFinding "fix" response ++ [.perform (.ingest [lintFinding] "lint" false 2)]

/-- A fixer asks for the finding, in a pull request without a stack. -/
def findingIssue : IssueArgs where
  repo := "octo/example"
  prNumber := "102"
  role := "fixer"
  agentId := "agent"
  itemId := "local-finding:1"
  now := 3
  token := "2"
  workspaceDir := "/w"
  observed := {
    availability := .absent, repo := "octo/example", selectedPrNumber := "102"
    observedAt := "2026-08-01T12:00:00Z" }
  canonical := []

/-- The finding, where it is selected. -/
def selectedFinding (session : Session) : Option Dict :=
  (nextItem (expireAndReturn session findingIssue.now) findingIssue.itemId).2

theorem eligible_items_issuable_records : ∃ run : CommandRun Unit,
    (selectedFinding run.session).isSome = true ∧ IssuesEveryEligible run.session := by
  have hrun : (TransitionSystem.run (fun run label => (issueNext run label).filter
      fun _ => StoresRecords run.session label) (newRun Unit) (fixAndReport fixWithRecords)).any
        (fun run => (selectedFinding run.session).isSome) = true := by decide +kernel
  obtain ⟨run, hreached, hselected⟩ := (Option.any_eq_true _ _).mp hrun
  have hstart : (issueRuns (P := Unit)).ReachableUnder
      (fun run label _ => StoresRecords run.session label) (newRun Unit) :=
    .start ⟨newRun_fresh.1, newRun_fresh.2, by decide +kernel⟩
  exact ⟨run, hselected, eligible_items_issuable
    (TransitionSystem.reachableUnder_of_run _ hstart hreached)⟩

/-- A command that was given as a text is no record, and no request is built for the finding. -/
theorem text_validation_blocks_request : ∃ run : CommandRun Unit,
    issueRuns.Reachable run ∧ ¬ IssuesEveryEligible run.session := by
  have hrun : (TransitionSystem.run issueNext (newRun Unit) (fixAndReport fixWithEvidence)).any
      (fun run =>
        (nextItem (expireAndReturn run.session findingIssue.now) findingIssue.itemId).1 =
          "local-finding:1" ∧
        (selectedFinding run.session).any fun item =>
          let issued := itemToIssue run.session findingIssue "local-finding:1" item
          (records? (validationEvidence issued)).isNone ∧
            (refreshStackContext (selectedSession run.session findingIssue "local-finding:1"
              issued) findingIssue.observed).toOption.isSome) = true := by decide +kernel
  obtain ⟨run, hreached, hends⟩ := (Option.any_eq_true _ _).mp hrun
  obtain ⟨hid, hitem⟩ := of_decide_eq_true hends
  obtain ⟨item, hselected, hissued⟩ := (Option.any_eq_true _ _).mp hitem
  obtain ⟨htexts, hrefreshes⟩ := of_decide_eq_true hissued
  obtain ⟨refreshed, hrefreshed⟩ := Option.isSome_iff_exists.mp hrefreshes
  have hstart : (issueRuns (P := Unit)).Reachable (newRun Unit) :=
    .start ⟨newRun_fresh.1, newRun_fresh.2, by decide +kernel⟩
  refine ⟨run, TransitionSystem.reachable_of_run _ hstart hreached, fun hall => ?_⟩
  have hnext : nextItem (expireAndReturn run.session findingIssue.now) findingIssue.itemId =
      ("local-finding:1", some item) := Prod.ext hid hselected
  have hok : refreshStackContext (selectedSession run.session findingIssue "local-finding:1"
      (itemToIssue run.session findingIssue "local-finding:1" item)) findingIssue.observed =
        .ok refreshed := by
    revert hrefreshed
    cases refreshStackContext (selectedSession run.session findingIssue "local-finding:1"
      (itemToIssue run.session findingIssue "local-finding:1" item)) findingIssue.observed with
    | error reasonCode => exact fun h => by cases h
    | ok session => exact fun h => congrArg _ (Option.some.inj h)
  have hbuilds := hall findingIssue "local-finding:1" item hnext refreshed
    { repo := "octo/example", prNumber := "102", role := "fixer", requestId := "req", leaseId := "l2"
      repositoryContext := ∅ } hok rfl (by decide)
  have hrecords := hbuilds.presentable.validation
  rw [Option.isNone_iff_eq_none] at htexts
  rw [htexts] at hrecords
  cases hrecords

end CommandRun
end GhAddressCr
