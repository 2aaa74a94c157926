import GhAddressCr.CommittedViews
import GhAddressCr.RequestDocuments

/-!
# Sessions as documents

A session with typed leases is a payload whose leases are the documents of their fields. On such
payloads the tables of documents do what the typed store does: they derive the same claims, commit
the same rows, show the same view of a commit and load the same session.
-/
namespace GhAddressCr

namespace Lease

/-- The fields of a lease, ready for JSON but for the times. -/
def document (lease : Lease) : Dict :=
  let fields := Dict.ofFields
    [("lease_id", .str lease.leaseId), ("item_id", .str lease.itemId),
      ("agent_id", .str lease.agentId), ("role", .str lease.role.value),
      ("status", .str lease.status.value), ("created_at", .time lease.createdAt),
      ("expires_at", .time lease.expiresAt), ("resume_token", optionalText lease.resumeToken),
      ("request_hash", .str lease.requestHash), ("request_id", optionalText lease.requestId),
      ("request_path", optionalText lease.requestPath),
      ("conflict_keys", .list (lease.conflictKeys.map Value.str))]
  ((fields.setIfSome "submitted_at" (lease.submittedAt.map Value.time)).setIfSome "completed_at"
    (lease.completedAt.map Value.time)).setIfSome "reason" (lease.reason.map Value.str)

variable (lease : Lease)

theorem document_identifiers : lease.document.get "lease_id" = .str lease.leaseId ∧
    lease.document.get "item_id" = .str lease.itemId ∧
    lease.document.get "agent_id" = .str lease.agentId ∧
    lease.document.get "role" = .str lease.role.value ∧
    lease.document.get "status" = .str lease.status.value := by
  simp [document, Dict.get_setIfSome, Dict.ofFields, Dict.get_insert]

theorem document_times : lease.document.get "created_at" = .time lease.createdAt ∧
    lease.document.get "expires_at" = .time lease.expiresAt ∧
    lease.document[("submitted_at" : String)]? = lease.submittedAt.map Value.time ∧
    lease.document[("completed_at" : String)]? = lease.completedAt.map Value.time := by
  simp [document, Dict.get_setIfSome, Dict.getElem?_setIfSome, Dict.ofFields, Dict.get_insert]

theorem document_request : lease.document.get "resume_token" = optionalText lease.resumeToken ∧
    lease.document.get "request_hash" = .str lease.requestHash ∧
    lease.document.get "request_id" = optionalText lease.requestId ∧
    lease.document.get "request_path" = optionalText lease.requestPath ∧
    lease.document.get "conflict_keys" = .list (lease.conflictKeys.map Value.str) ∧
    lease.document[("reason" : String)]? = lease.reason.map Value.str := by
  simp [document, Dict.get_setIfSome, Dict.getElem?_setIfSome, Dict.ofFields, Dict.get_insert]

theorem optionalText_inj {text other : Option String} (h : optionalText text = optionalText other) :
    text = other := by
  cases text <;> cases other <;> simp_all [optionalText]

section Injective

variable {lease other : Lease}

theorem identifiers_of_document (h : lease.document = other.document) :
    lease.leaseId = other.leaseId ∧ lease.itemId = other.itemId ∧
      lease.agentId = other.agentId ∧ lease.role = other.role ∧ lease.status = other.status := by
  obtain ⟨hid, hitem, hagent, hrole, hstatus⟩ := lease.document_identifiers
  obtain ⟨hid', hitem', hagent', hrole', hstatus'⟩ := other.document_identifiers
  have hroles : lease.role.value = other.role.value := by
    rw [h, hrole'] at hrole
    exact (Value.str.inj hrole).symm
  have hstatuses : lease.status.value = other.status.value := by
    rw [h, hstatus'] at hstatus
    exact (Value.str.inj hstatus).symm
  refine ⟨?_, ?_, ?_, ?_, ?_⟩
  · rw [h, hid'] at hid
    exact (Value.str.inj hid).symm
  · rw [h, hitem'] at hitem
    exact (Value.str.inj hitem).symm
  · rw [h, hagent'] at hagent
    exact (Value.str.inj hagent).symm
  · have hparse := AgentRole.parse_eq_some.mpr hroles
    rw [AgentRole.parse_eq_some.mpr rfl] at hparse
    exact (Option.some.inj hparse).symm
  · cases hone : lease.status <;> cases htwo : other.status <;> simp_all [LeaseStatus.value]

theorem times_of_document (h : lease.document = other.document) :
    lease.createdAt = other.createdAt ∧ lease.expiresAt = other.expiresAt ∧
      lease.submittedAt = other.submittedAt ∧ lease.completedAt = other.completedAt := by
  obtain ⟨hcreated, hexpires, hsubmitted, hcompleted⟩ := lease.document_times
  obtain ⟨hcreated', hexpires', hsubmitted', hcompleted'⟩ := other.document_times
  rw [h] at hcreated hexpires hsubmitted hcompleted
  exact ⟨Value.time.inj (hcreated.symm.trans hcreated'),
    Value.time.inj (hexpires.symm.trans hexpires'),
    Option.map_injective (fun _ _ => Value.time.inj) (hsubmitted.symm.trans hsubmitted'),
    Option.map_injective (fun _ _ => Value.time.inj) (hcompleted.symm.trans hcompleted')⟩

theorem request_of_document (h : lease.document = other.document) :
    lease.resumeToken = other.resumeToken ∧ lease.requestHash = other.requestHash ∧
      lease.requestId = other.requestId ∧ lease.requestPath = other.requestPath ∧
        lease.conflictKeys = other.conflictKeys ∧ lease.reason = other.reason := by
  obtain ⟨htoken, hhash, hrequest, hpath, hkeys, hreason⟩ := lease.document_request
  obtain ⟨htoken', hhash', hrequest', hpath', hkeys', hreason'⟩ := other.document_request
  rw [h] at htoken hhash hrequest hpath hkeys hreason
  exact ⟨optionalText_inj (htoken.symm.trans htoken'), Value.str.inj (hhash.symm.trans hhash'),
    optionalText_inj (hrequest.symm.trans hrequest'), optionalText_inj (hpath.symm.trans hpath'),
    List.map_injective_iff.mpr (fun _ _ => Value.str.inj)
      (Value.list.inj (hkeys.symm.trans hkeys')),
    Option.map_injective (fun _ _ => Value.str.inj) (hreason.symm.trans hreason')⟩

/-- A lease can be read off its document. -/
theorem document_inj (h : lease.document = other.document) : lease = other := by
  have hidentifiers := identifiers_of_document h
  have htimes := times_of_document h
  have hrequest := request_of_document h
  cases lease
  cases other
  simp_all

end Injective

theorem sortKeys_optionalText (text : Option String) :
    (optionalText text).sortKeys = optionalText text := by
  cases text <;> rfl

theorem sortKeys_texts (texts : List String) :
    Value.sortKeys (.list (texts.map Value.str)) = .list (texts.map Value.str) := by
  show Value.list (Value.sortKeysList _) = _
  rw [Value.sortKeysList_eq, List.map_map]
  rfl

/-- No value of a document has keys that are out of order. -/
theorem sortKeys_document : lease.document.sortKeys = lease.document := by
  have hoptional : ∀ (d : Dict) (key : String) (value : Option Value),
      (value.map Value.sortKeys = value) → d.sortKeys = d →
        (d.setIfSome key value).sortKeys = d.setIfSome key value := by
    intro d key value hvalue hd
    cases value with
    | none => exact hd
    | some value =>
        show (d.set key value).sortKeys = d.set key value
        rw [Dict.sortKeys_set, hd, Option.some.inj hvalue]
  unfold document
  refine hoptional _ _ _ ?_ (hoptional _ _ _ ?_ (hoptional _ _ _ ?_ ?_))
  · cases lease.reason <;> rfl
  · cases lease.completedAt <;> rfl
  · cases lease.submittedAt <;> rfl
  · rw [← Dict.ofFields_sortKeysFields]
    simp only [Value.sortKeysFields, sortKeys_optionalText, sortKeys_texts]
    rfl

end Lease

namespace SessionTables

open RuntimeStore (projectClaim)

/-- The table of leases as documents. -/
def leaseDocuments (leases : Rows Lease) : Rows Dict := leases.map fun _ lease => lease.document

theorem holdsItem_document (lease : Lease) : holdsItem lease.document = lease.isActive := by
  unfold holdsItem Lease.isActive
  rw [lease.document_identifiers.2.2.2.2]
  cases lease.status <;> decide

theorem itemIdText_document (lease : Lease) : itemIdText lease.document = lease.itemId := by
  unfold itemIdText Dict.textOr
  rw [lease.document_identifiers.2.1]
  by_cases hempty : lease.itemId = ""
  · rw [hempty]
    rfl
  · simp [Value.orElse, hempty, Value.text]

theorem withLeaseIds_leaseDocuments (leases : Rows Lease) :
    withLeaseIds (leaseDocuments leases) = leaseDocuments leases := by
  unfold withLeaseIds leaseDocuments
  rw [Std.ExtTreeMap.map_map]
  congr 1
  funext leaseId lease
  have hhas : lease.document.has "lease_id" = true := by
    cases h : lease.document[("lease_id" : String)]? with
    | none =>
        have hget := lease.document_identifiers.1
        unfold Dict.get at hget
        rw [h] at hget
        cases hget
    | some value => simp [Dict.has, h]
  unfold Dict.setDefault
  rw [if_pos hhas]

theorem values_leaseDocuments (leases : Rows Lease) :
    (leaseDocuments leases).toList.map (·.2) = (leases.toList.map (·.2)).map Lease.document := by
  unfold leaseDocuments
  rw [Std.ExtTreeMap.toList_map, List.map_map, List.map_map]
  rfl

theorem activeItemIds_leaseDocuments (leases : Rows Lease) :
    activeItemIds (leaseDocuments leases) = RuntimeStore.activeItemIds leases := by
  unfold activeItemIds RuntimeStore.activeItemIds
  rw [values_leaseDocuments, List.filter_map, List.map_map]
  have hholds : holdsItem ∘ Lease.document = Lease.isActive := funext holdsItem_document
  have hitem : itemIdText ∘ Lease.document = (·.itemId) := funext itemIdText_document
  rw [hholds, hitem]

theorem activeLeaseOf_leaseDocuments (leases : Rows Lease) (itemId : String) :
    activeLeaseOf (leaseDocuments leases) itemId =
      (RuntimeStore.activeLeaseOf leases itemId).map Lease.document := by
  unfold activeLeaseOf RuntimeStore.activeLeaseOf
  rw [values_leaseDocuments, List.find?_map]
  congr 2
  funext lease
  show (holdsItem lease.document && itemIdText lease.document == itemId) = _
  rw [holdsItem_document, itemIdText_document]

theorem projectItem_document (item : Dict) (lease : Option Lease) :
    projectItem item (lease.map Lease.document) = projectClaim item lease := by
  cases lease with
  | none => rfl
  | some lease =>
      obtain ⟨hid, -, hagent, -, -⟩ := lease.document_identifiers
      obtain ⟨hcreated, hexpires, -, -⟩ := lease.document_times
      simp only [Option.map_some, projectItem, hid, hagent, hcreated, hexpires]
      rfl

/-- The claims that are derived from leases are those that are derived from their documents. -/
theorem deriveItemClaimProjection_leaseDocuments (items : Rows Dict) (leases : Rows Lease) :
    deriveItemClaimProjection items (leaseDocuments leases) =
      (RuntimeStore.deriveItemClaimProjection items leases).map fun derived =>
        (derived, leaseDocuments leases) := by
  have hhashable : ∀ row ∈ (leaseDocuments leases).toList, hashable (row.2.get "status") = true := by
    unfold leaseDocuments
    rw [Std.ExtTreeMap.toList_map, List.forall_mem_map]
    intro row _
    rw [row.2.document_identifiers.2.2.2.2]
    rfl
  unfold deriveItemClaimProjection RuntimeStore.deriveItemClaimProjection
  simp only [withLeaseIds_leaseDocuments, activeItemIds_leaseDocuments,
    activeLeaseOf_leaseDocuments, projectItem_document]
  unfold require
  rw [if_pos hhashable]
  split <;> rfl

section Read

variable (fromIsoformat : String → Option Int)

/-- No time of a document is a text. -/
theorem document_time_ne_str (lease : Lease) {field : String} (h : field ∈ leaseDatetimeFields)
    (text : String) : lease.document.get field ≠ .str text := by
  have hoptional : ∀ time : Option Int, (time.map Value.time).getD .null ≠ .str text := by
    intro time
    cases time <;> simp
  obtain ⟨hcreated, hexpires, hsubmitted, hcompleted⟩ := lease.document_times
  simp only [leaseDatetimeFields, List.mem_cons, List.not_mem_nil, or_false] at h
  rcases h with rfl | rfl | rfl | rfl
  · rw [hcreated]
    simp
  · rw [hexpires]
    simp
  · rw [Dict.get, hsubmitted]
    exact hoptional _
  · rw [Dict.get, hcompleted]
    exact hoptional _

/-- The times of a document are read as they are. -/
theorem coerceLeaseDatetimes_document (lease : Lease) :
    coerceLeaseDatetimes fromIsoformat lease.document = some lease.document := by
  have hfields : ∀ fields : List String, (∀ field ∈ fields, field ∈ leaseDatetimeFields) →
      fields.foldlM (coerceField fromIsoformat) lease.document = some lease.document := by
    intro fields hfields
    induction fields with
    | nil => rfl
    | cons field fields ih =>
        have hfield : coerceField fromIsoformat lease.document field = some lease.document := by
          unfold coerceField
          split
          · next text htext =>
            exact absurd htext (document_time_ne_str lease (hfields field (by simp)) text)
          · rfl
        rw [List.foldlM_cons, hfield]
        exact ih fun other hother => hfields other (by simp [hother])
  exact hfields _ fun _ h => h

theorem readLeases_leaseDocuments (leases : Rows Lease) :
    readLeases fromIsoformat (leaseDocuments leases) = .ok (leaseDocuments leases) := by
  have hread : ∀ row ∈ (leaseDocuments leases).toList,
      (coerceLeaseDatetimes fromIsoformat row.2).isSome = true := by
    unfold leaseDocuments
    rw [Std.ExtTreeMap.toList_map, List.forall_mem_map]
    intro row _
    rw [coerceLeaseDatetimes_document]
    rfl
  unfold readLeases require
  simp only [withLeaseIds_leaseDocuments]
  rw [if_pos hread]
  refine congrArg Except.ok ?_
  unfold leaseDocuments
  rw [Std.ExtTreeMap.map_map]
  simp only [coerceLeaseDatetimes_document, Option.getD_some]

theorem readRows_leaseDocuments (items : Rows Dict) (leases : Rows Lease) :
    readRows fromIsoformat items (leaseDocuments leases) =
      (RuntimeStore.deriveItemClaimProjection items leases).map fun derived =>
        (derived, leaseDocuments leases) := by
  unfold readRows
  rw [readLeases_leaseDocuments]
  exact deriveItemClaimProjection_leaseDocuments items leases

end Read

/-- The payload of a session. -/
def sessionDocument (session : Session) : Dict :=
  ((session.root.set "items" (rowsValue session.items)).set "leases"
    (rowsValue (leaseDocuments session.leases))).set "lease_events"
      (.list (session.leaseEvents.map Dict.toValue))

/-- The rows of leases, with the leases as documents. -/
def leaseRowDocuments (rows : Rows GhAddressCr.LeaseRow) : Rows LeaseRow :=
  rows.map fun _ row => ⟨row.lease.document, row.transitionRevision⟩

/-- The tables of a store, with the leases as documents. -/
def storeTables (store : Store) : Tables where
  sessionId := RuntimeStore.sessionId store.root
  root := store.root
  revision := store.sessionRevision
  items := store.items
  leases := leaseRowDocuments store.leases
  leaseEvents := store.leaseEvents.map Dict.toValue

/-- The root holds none of the keys that the tables and the revision are given under. -/
def PlainRoot (root : Dict) : Prop :=
  ∀ key ∈ ["items", "leases", "lease_events", "persistence"], root[key]? = none

/-- The session that is loaded is the one that the tables of documents load. -/
theorem loadSnapshot_storeTables {store : Store} (fromIsoformat : String → Option Int)
    (hid : RuntimeStore.sessionId store.root ≠ "") :
    loadSnapshot fromIsoformat (storeTables store) =
      (RuntimeStore.loadSnapshot store).map fun session =>
        (sessionDocument session, store.sessionRevision) := by
  have hshown : (store.root.get "session_id").truthy = true := by
    simpa using mt Dict.textOr_eq_empty.mpr hid
  have hfiled : ((storeTables store).root.get "session_id").text = (storeTables store).sessionId :=
    (Dict.textOr_of_truthy "" hshown).symm
  have hleases : ((storeTables store).leases.map fun _ row => row.payload) =
      leaseDocuments (RuntimeStore.leasePayloads store.leases) := by
    unfold storeTables leaseRowDocuments leaseDocuments RuntimeStore.leasePayloads
    rw [Std.ExtTreeMap.map_map, Std.ExtTreeMap.map_map]
  unfold loadSnapshot RuntimeStore.loadSnapshot
  simp only [if_pos hfiled, hleases, readRows_leaseDocuments]
  show _ = Except.map _ ((RuntimeStore.deriveItemClaimProjection
    (RuntimeStore.itemPayloads (storeTables store).items) _) >>= _)
  cases RuntimeStore.deriveItemClaimProjection
    (RuntimeStore.itemPayloads (storeTables store).items)
    (RuntimeStore.leasePayloads store.leases) <;> rfl

/-- A commit shows the view that it shows of the session's document. -/
theorem committedView_sessionDocument (fromIsoformat : String → Option Int) {session : Session}
    (hroot : PlainRoot session.root) :
    committedView fromIsoformat (sessionDocument session) =
      (RuntimeStore.committedView session).map sessionDocument := by
  have hitems : ((sessionDocument session).get "items").toDict? =
      some (session.items.map fun _ item => item.toValue) := by
    simp [sessionDocument, toDict?_rowsValue]
  have hleases : ((sessionDocument session).get "leases").toDict? =
      some ((leaseDocuments session.leases).map fun _ lease => lease.toValue) := by
    simp [sessionDocument, toDict?_rowsValue]
  have hrest : ∀ items leases, (((((sessionDocument session).pop "items").pop "leases").pop
      "persistence").set "items" items).set "leases" leases =
        ((session.root.set "items" items).set "leases" leases).set "lease_events"
          (.list (session.leaseEvents.map Dict.toValue)) := by
    intro items leases
    refine Dict.ext fun key => ?_
    have hpersistence := hroot "persistence" (by simp)
    simp only [sessionDocument, Dict.getElem?_set, Dict.getElem?_pop]
    grind
  unfold committedView RuntimeStore.committedView
  rw [hitems, hleases, Option.getD_some, Option.getD_some, objects_toValue, objects_toValue]
  simp only [hrest]
  show readRows _ _ _ >>= _ = _
  rw [readRows_leaseDocuments]
  cases RuntimeStore.deriveItemClaimProjection session.items session.leases <;> rfl

/-- The keys of all objects in the session are in order, as they are once it was stored. -/
structure InOrder (session : Session) : Prop where
  root : session.root.sortKeys = session.root
  items : ∀ (itemId : String) item, session.items[itemId]? = some item → item.sortKeys = item
  events : ∀ event ∈ session.leaseEvents, event.sortKeys = event

theorem sortKeys_projectClaim {item : Dict} (h : item.sortKeys = item) (lease : Option Lease) :
    (projectClaim item lease).sortKeys = projectClaim item lease := by
  have hset : ∀ {d : Dict} (key : String) (value : Value), d.sortKeys = d →
      value.sortKeys = value → (d.set key value).sortKeys = d.set key value := by
    intro d key value hd hvalue
    rw [Dict.sortKeys_set, hd, hvalue]
  have hpop : ∀ {d : Dict} (key : String), d.sortKeys = d →
      (d.pop key).sortKeys = d.pop key := by
    intro d key hd
    rw [Dict.sortKeys_pop, hd]
  cases lease with
  | none =>
      have hstate : ∀ {d : Dict}, d.sortKeys = d →
          (RuntimeStore.clearedClaim d).sortKeys = RuntimeStore.clearedClaim d := fun hd =>
        hpop _ (hset _ _ (hset _ _ (hset _ _ hd rfl) rfl) rfl)
      by_cases hclaimed : item.get "state" = .str "claimed"
      · rw [RuntimeStore.projectClaim_none_claimed hclaimed]
        exact hstate (hset _ _ (hset _ _ h rfl) rfl)
      · rw [RuntimeStore.projectClaim_none_unclaimed hclaimed]
        exact hstate h
  | some lease =>
      exact hset _ _ (hset _ _ (hset _ _ (hset _ _ (hset _ _ h rfl) rfl) rfl) rfl) rfl

theorem sortRows_projectedItems {items : Rows Dict} {leases : Rows Lease}
    (h : ∀ (itemId : String) item, items[itemId]? = some item → item.sortKeys = item) :
    sortRows (RuntimeStore.projectedItems items leases) =
      RuntimeStore.projectedItems items leases := by
  refine Std.ExtTreeMap.ext_getElem? fun itemId => ?_
  unfold sortRows
  rw [Std.ExtTreeMap.getElem?_map, RuntimeStore.getElem?_projectedItems]
  cases hitem : items[itemId]? with
  | none => rfl
  | some item => exact congrArg some (sortKeys_projectClaim (h itemId item hitem) _)

theorem sortRows_leaseDocuments (leases : Rows Lease) :
    sortRows (leaseDocuments leases) = leaseDocuments leases := by
  unfold sortRows leaseDocuments
  rw [Std.ExtTreeMap.map_map]
  simp only [Lease.sortKeys_document]

/-- Every field of a document can be bound to a column. -/
theorem bindError?_document (lease : Lease) {column : String} (h : column ∈ leaseColumns) :
    bindError? (lease.document.get column) = none := by
  have htext : ∀ text : Option String, bindError? (optionalText text) = none := by
    intro text
    cases text <;> rfl
  have htime : ∀ time : Option Int, bindError? ((time.map Value.time).getD .null) = none := by
    intro time
    cases time <;> rfl
  obtain ⟨hcreated, hexpires, hsubmitted, hcompleted⟩ := lease.document_times
  obtain ⟨htoken, hhash, hrequest, hpath, -, -⟩ := lease.document_request
  simp only [leaseColumns, List.mem_cons, List.not_mem_nil, or_false] at h
  rcases h with rfl | rfl | rfl | rfl | rfl | rfl | rfl | rfl
  · rw [hrequest, htext]
  · rw [hhash]
    rfl
  · rw [hpath, htext]
  · rw [htoken, htext]
  · rw [hcreated]
    rfl
  · rw [hexpires]
    rfl
  · rw [Dict.get, hsubmitted, htime]
  · rw [Dict.get, hcompleted, htime]

/-- The document of a lease is stored if its conflict keys are listed once each. -/
theorem checkLease_document (lease : Lease) :
    checkLease lease.document = require lease.conflictKeys.Nodup RuntimeStore.integrityError := by
  have hkeys : (lease.document.get "conflict_keys").orElse (.list []) =
      .list (lease.conflictKeys.map Value.str) := by
    rw [lease.document_request.2.2.2.2.1]
    cases lease.conflictKeys <;> rfl
  have htexts : (lease.conflictKeys.map Value.str).map Value.text = lease.conflictKeys := by
    rw [List.map_map]
    exact List.map_id _
  have hbound : (leaseColumns.findSome? fun column => bindError? (lease.document.get column)) =
      none := List.findSome?_eq_none_iff.mpr fun _ => bindError?_document lease
  unfold checkLease
  rw [hbound, hkeys]
  show require _ _ = _
  rw [htexts]

/-- Rows that are checked one after the other are checked as a whole. -/
theorem forM_require {α : Type} (rows : List α) (condition : α → Prop)
    [DecidablePred condition] (error : StoreError) :
    (rows.forM fun row => require (condition row) error) =
      require (∀ row ∈ rows, condition row) error := by
  induction rows with
  | nil => simp [require]
  | cons row rows ih =>
      show (require (condition row) error >>= fun _ =>
        rows.forM fun row => require (condition row) error) = _
      rw [ih]
      unfold require
      by_cases hrow : condition row
      · rw [if_pos hrow]
        simp only [List.forall_mem_cons, hrow, true_and]
        rfl
      · have hall : ¬ ∀ other ∈ row :: rows, condition other := fun h => hrow (h row (by simp))
        rw [if_neg hrow, if_neg hall]
        rfl

/-- The leases whose documents a write changes are those that it changes. -/
theorem changed_leaseDocuments (stored : Rows GhAddressCr.LeaseRow) (leases : Rows Lease) :
    ((leaseDocuments leases).toList.filter fun row =>
      (leaseRowDocuments stored)[row.1]?.map (·.payload) != some row.2.sortKeys).map (·.2) =
        (RuntimeStore.changedLeases stored leases).map Lease.document := by
  have hsame : ∀ row : String × Lease,
      ((leaseRowDocuments stored)[row.1]?.map (·.payload) != some row.2.document.sortKeys) =
        (stored[row.1]?.map (·.lease) != some row.2) := by
    intro row
    unfold leaseRowDocuments
    rw [Std.ExtTreeMap.getElem?_map, Option.map_map, Lease.sortKeys_document]
    cases hrow : stored[row.1]? with
    | none => rfl
    | some prior =>
        by_cases hlease : prior.lease = row.2
        · simp [hlease]
        · have hdocument : prior.lease.document ≠ row.2.document :=
            fun h => hlease (Lease.document_inj h)
          show (!(some prior.lease.document == some row.2.document)) = !(some prior.lease == some row.2)
          rw [beq_eq_false_iff_ne.mpr fun h => hdocument (Option.some.inj h),
            beq_eq_false_iff_ne.mpr fun h => hlease (Option.some.inj h)]
  unfold leaseDocuments RuntimeStore.changedLeases
  rw [Std.ExtTreeMap.toList_map, List.filter_map, List.map_map, List.map_map]
  have hfilter : (fun row : String × Dict =>
      (leaseRowDocuments stored)[row.1]?.map (·.payload) != some row.2.sortKeys) ∘
        (fun row : String × Lease => (row.1, row.2.document)) =
      fun row => stored[row.1]?.map (·.lease) != some row.2 := funext hsame
  rw [hfilter]
  rfl

theorem leaseRows_leaseDocuments (stored : Rows GhAddressCr.LeaseRow) (leases : Rows Lease)
    (revision : Nat) :
    leaseRows (leaseRowDocuments stored) (leaseDocuments leases) revision =
      leaseRowDocuments (RuntimeStore.leaseRows stored leases revision) := by
  refine Std.ExtTreeMap.ext_getElem? fun leaseId => ?_
  unfold leaseRows leaseRowDocuments leaseDocuments RuntimeStore.leaseRows
  simp only [Std.ExtTreeMap.getElem?_map]
  cases hlease : leases[leaseId]? with
  | none => rfl
  | some lease =>
      cases hrow : stored[leaseId]? with
      | none => rfl
      | some prior =>
          refine congrArg some ?_
          show (if prior.lease.document = lease.document then _ else _) = _
          by_cases hsame : prior.lease = lease
          · simp [hsame]
          · have hdocument : prior.lease.document ≠ lease.document :=
              fun h => hsame (Lease.document_inj h)
            simp [hsame, hdocument]

/-- The changed documents are checked as the changed leases are. -/
theorem checkLeaseRows_leaseDocuments {stored : Rows GhAddressCr.LeaseRow} {leases : Rows Lease}
    (revision : Nat) (hnodup : (RuntimeStore.activeItemIds leases).Nodup) :
    (((leaseDocuments leases).toList.filter fun row =>
      (leaseRowDocuments stored)[row.1]?.map (·.payload) != some row.2.sortKeys).forM
        fun row => checkLease row.2) =
      RuntimeStore.checkLeaseRows (RuntimeStore.leaseRows stored leases revision)
        (RuntimeStore.changedLeases stored leases) := by
  have hvalues : ∀ rows : List (String × Dict), (rows.forM fun row => checkLease row.2) =
      (rows.map (·.2)).forM checkLease := fun rows => List.forM_map.symm
  have hdocuments : ∀ changed : List Lease, (changed.map Lease.document).forM checkLease =
      changed.forM fun lease => require lease.conflictKeys.Nodup RuntimeStore.integrityError := by
    intro changed
    exact List.forM_map.trans (congrArg changed.forM (funext checkLease_document))
  rw [hvalues, changed_leaseDocuments, hdocuments, forM_require]
  unfold RuntimeStore.checkLeaseRows require
  simp only [RuntimeStore.leasePayloads_leaseRows, hnodup, and_true]

theorem rootOf_sessionDocument {session : Session} (hroot : PlainRoot session.root) :
    rootOf (sessionDocument session) = session.root := by
  refine Dict.ext fun key => ?_
  simp only [rootOf, sessionDocument, Dict.getElem?_set, Dict.getElem?_pop]
  have hkeys := hroot key
  grind

/-- Writing a session's document writes the session, each over the same rows. -/
theorem writeSession_sessionDocument (store : Store) {session : Session} (revision : Nat)
    (hroot : PlainRoot session.root) (h : InOrder session) :
    writeSession (storeTables store) (sessionDocument session) revision =
      (RuntimeStore.writeSession store session revision).map fun written =>
        (storeTables written, sessionDocument { session with
          items := RuntimeStore.projectedItems session.items session.leases }) := by
  have hitems : tableOf (sessionDocument session) "items" =
      .ok (session.items.map fun _ item => item.toValue) := by
    simp [tableOf, sessionDocument, Dict.getElem?_set, toDict?_rowsValue]
  have hleases : tableOf (sessionDocument session) "leases" =
      .ok ((leaseDocuments session.leases).map fun _ lease => lease.toValue) := by
    simp [tableOf, sessionDocument, Dict.getElem?_set, toDict?_rowsValue]
  have hevents : eventsOf (sessionDocument session) =
      .ok (session.leaseEvents.map Dict.toValue) := by
    simp [eventsOf, sessionDocument, Dict.getElem?_set]
  unfold writeSession RuntimeStore.writeSession
  simp only [rootOf_sessionDocument hroot, hitems, hleases, hevents]
  show (require (RuntimeStore.sessionId session.root ≠ "") _ >>= fun _ => _) = _
  have hstored : (if RuntimeStore.sessionId session.root = (storeTables store).sessionId then
      (storeTables store).leases else ∅) = leaseRowDocuments
        (if RuntimeStore.sessionId session.root = RuntimeStore.sessionId store.root then store.leases
          else ∅) := by
    show (if RuntimeStore.sessionId session.root = RuntimeStore.sessionId store.root then
      leaseRowDocuments store.leases else ∅) = _
    split_ifs
    · rfl
    · simp [leaseRowDocuments]
  have hordered : (session.leaseEvents.map Dict.toValue).map Value.sortKeys =
      session.leaseEvents.map Dict.toValue := by
    rw [List.map_map]
    refine List.map_congr_left fun event hevent => ?_
    show event.toValue.sortKeys = event.toValue
    rw [Dict.sortKeys_toValue, h.events event hevent]
  have hnormalized : ∀ items : Rows Dict, ((sessionDocument session).set "items"
      (rowsValue items)).set "leases" (rowsValue (leaseDocuments session.leases)) =
        sessionDocument { session with items := items } := by
    intro items
    refine Dict.ext fun key => ?_
    simp only [sessionDocument, Dict.getElem?_set]
    grind
  by_cases hid : RuntimeStore.sessionId session.root = ""
  · unfold require
    rw [if_neg (not_not.mpr hid)]
    rfl
  rw [require, if_pos hid]
  simp only [Except.bind, bind, objects_toValue, deriveItemClaimProjection_leaseDocuments]
  cases hderived : RuntimeStore.deriveItemClaimProjection session.items session.leases with
  | error e => rfl
  | ok items =>
      obtain ⟨hnodup, rfl⟩ := RuntimeStore.deriveItemClaimProjection_ok.mp hderived
      simp only [Except.map]
      have htext : session.root.textOr "session_id" "" = RuntimeStore.sessionId session.root := rfl
      rw [htext, hstored, sortRows_projectedItems h.items, sortRows_leaseDocuments, h.root, hordered,
        checkLeaseRows_leaseDocuments revision hnodup, leaseRows_leaseDocuments, hnormalized]
      cases RuntimeStore.checkLeaseRows _ _ <;> rfl

end SessionTables
end GhAddressCr
