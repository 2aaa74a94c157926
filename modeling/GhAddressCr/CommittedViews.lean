import GhAddressCr.Leases
import GhAddressCr.SessionViews

/-!
# Committed views and reloads

A commit returns a view of the payload it wrote, patched in memory; a load rebuilds the payload
from its rows. Here the payload is any object that is ready for JSON, with keys missing, to spare
or of the wrong shape.
-/
namespace GhAddressCr

namespace Value

mutual

/-- The value that the text of a JSON-ready value decodes to: the keys of its objects are sorted.
`==` compares objects without the order of their keys. -/
def sortKeys : Value → Value
  | .list values => .list (sortKeysList values)
  | .dict fields => (Dict.ofFields (sortKeysFields fields)).toValue
  | value => value

def sortKeysList : List Value → List Value
  | [] => []
  | value :: values => sortKeys value :: sortKeysList values

def sortKeysFields : List (String × Value) → List (String × Value)
  | [] => []
  | (key, value) :: fields => (key, sortKeys value) :: sortKeysFields fields

end

end Value

def Dict.sortKeys (d : Dict) : Dict := d.map fun _ value => value.sortKeys

namespace SessionTables

open RuntimeStore (projectClaim)

structure LeaseRow where
  payload : Dict
  transitionRevision : Nat
  deriving DecidableEq

/-- The tables of one session. A text of JSON is shown as the value it decodes to. -/
structure Tables where
  /-- `sessions.session_id`, under which the other rows are filed. -/
  sessionId : String
  /-- `sessions.payload_json`. -/
  root : Dict
  revision : Nat
  items : Rows ItemRow
  leases : Rows LeaseRow
  leaseEvents : List Value
  deriving DecidableEq

/-- The objects of a table; another value has no `get`. -/
def objects (table : Dict) : StoreResult (Rows Dict) := do
  require (∀ row ∈ table.toList, row.2.toDict?.isSome = true) (.raised "AttributeError")
  return table.map fun _ value => value.toDict?.getD ∅

/-- The table of objects as a value. -/
def rowsValue (rows : Rows Dict) : Value := Dict.toValue (rows.map fun _ row => row.toValue)

/-- `str(lease.get("item_id") or "")`. -/
def itemIdText (lease : Dict) : String := lease.textOr "item_id" ""

/-- `lease.get("status") in {"active", "submitted"}`. -/
def holdsItem (lease : Dict) : Bool :=
  lease.get "status" = .str "active" || lease.get "status" = .str "submitted"

/-- A value that is a key of a set; the others raise `TypeError`. -/
def hashable : Value → Bool
  | .list _ | .dict _ => false
  | _ => true

def activeItemIds (leases : Rows Dict) : List String :=
  ((leases.toList.map (·.2)).filter holdsItem).map itemIdText

def activeLeaseOf (leases : Rows Dict) (itemId : String) : Option Dict :=
  (leases.toList.map (·.2)).find? fun lease => holdsItem lease && itemIdText lease == itemId

/-- The claim fields of an item, after its active lease. -/
def projectItem (item : Dict) : Option Dict → Dict
  | none => projectClaim item none
  | some lease =>
      ((((item.set "state" (.str "claimed")).set "active_lease_id"
        (.str (lease.get "lease_id").text)).set "claimed_by" (lease.get "agent_id")).set
        "claimed_at" (lease.get "created_at")).set "lease_expires_at" (lease.get "expires_at")

def withLeaseIds (leases : Rows Dict) : Rows Dict :=
  leases.map fun leaseId lease => lease.setDefault "lease_id" (.str leaseId)

/-- `_derive_item_claim_projection`: the items and the leases as it leaves them. -/
def deriveItemClaimProjection (items leases : Rows Dict) : StoreResult (Rows Dict × Rows Dict) := do
  let leases := withLeaseIds leases
  require (∀ row ∈ leases.toList, hashable (row.2.get "status") = true) (.raised "TypeError")
  require (activeItemIds leases).Nodup
    (.persistenceInvalid "Multiple active leases reference one item.")
  return (items.map fun itemId item => projectItem item (activeLeaseOf leases itemId), leases)

def shapeError : StoreError :=
  .persistenceInvalid "Session items, leases, and lease events have invalid shapes."

/-- `normalized.pop(key, {})`, which must be an object. -/
def tableOf (payload : Dict) (key : String) : StoreResult Dict :=
  match payload[key]? with
  | none => .ok ∅
  | some value => value.toDict?.elim (.error shapeError) .ok

/-- `normalized.pop("lease_events", [])`, which must be a list. -/
def eventsOf (payload : Dict) : StoreResult (List Value) :=
  match payload[("lease_events" : String)]? with
  | none => .ok []
  | some (.list events) => .ok events
  | some _ => .error shapeError

/-- The fields of the session's own row. -/
def rootOf (payload : Dict) : Dict :=
  (((payload.pop "items").pop "leases").pop "lease_events").pop "persistence"

/-- The columns a lease's fields are bound to as they are. -/
def leaseColumns : List String :=
  ["request_id", "request_hash", "request_path", "resume_token", "created_at", "expires_at",
    "submitted_at", "completed_at"]

/-- What binding a value to a column raises. -/
def bindError? : Value → Option String
  | .list _ | .dict _ => some "sqlite3.ProgrammingError"
  | .int i => if -2 ^ 63 ≤ i ∧ i < 2 ^ 63 then none else some "OverflowError"
  | _ => none

/-- `_insert_lease`: the fields are bound, and the conflict keys are listed once each. -/
def checkLease (lease : Dict) : StoreResult Unit :=
  match leaseColumns.findSome? fun column => bindError? (lease.get column) with
  | some error => .error (.raised error)
  | none =>
      match iterate ((lease.get "conflict_keys").orElse (.list [])) with
      | none => .error (.raised "TypeError")
      | some keys => require (keys.map Value.text).Nodup RuntimeStore.integrityError

/-- `_write_leases`: unchanged rows stay as they are. -/
def leaseRows (stored : Rows LeaseRow) (leases : Rows Dict) (revision : Nat) : Rows LeaseRow :=
  leases.map fun leaseId lease =>
    match stored[leaseId]? with
    | some prior => if prior.payload = lease then prior else ⟨lease, revision⟩
    | none => ⟨lease, revision⟩

def sortRows (rows : Rows Dict) : Rows Dict := rows.map fun _ row => row.sortKeys

/-- `_write_session`: the tables, and the payload, whose items and leases it projects in place. -/
def writeSession (tables : Tables) (payload : Dict) (revision : Nat) :
    StoreResult (Tables × Dict) := do
  let root := rootOf payload
  let sessionId := root.textOr "session_id" ""
  require (sessionId ≠ "") (.persistenceInvalid "Session ID is required.")
  let items ← tableOf payload "items"
  let leases ← tableOf payload "leases"
  let leaseEvents ← eventsOf payload
  let leases ← objects leases
  let items ← objects items
  let (items, leases) ← deriveItemClaimProjection items leases
  -- Deleting the row of another session deletes its items, leases and events.
  let kept := sessionId = tables.sessionId
  let storedItems := if kept then tables.items else ∅
  let storedLeases := if kept then tables.leases else ∅
  (leases.toList.filter fun row => storedLeases[row.1]?.map (·.payload) != some row.2.sortKeys).forM
    fun row => checkLease row.2
  return ({
    sessionId := sessionId
    root := root.sortKeys
    revision := revision
    items := RuntimeStore.itemRows storedItems (sortRows items) revision
    leases := leaseRows storedLeases (sortRows leases) revision
    leaseEvents := leaseEvents.map Value.sortKeys },
    (payload.set "items" (rowsValue items)).set "leases" (rowsValue leases))

section Read

variable (fromIsoformat : String → Option Int)

/-- `_LEASE_DATETIME_FIELDS`. -/
def leaseDatetimeFields : List String := ["created_at", "expires_at", "submitted_at", "completed_at"]

/-- One field of `_coerce_lease_datetimes`; `none` where it raises `ValueError`. -/
def coerceField (lease : Dict) (field : String) : Option Dict :=
  match lease.get field with
  | .str value =>
      if value = "" then some lease
      else (fromIsoformat value).map fun instant => lease.set field (.time instant)
  | _ => some lease

/-- `_coerce_lease_datetimes`. -/
def coerceLeaseDatetimes (lease : Dict) : Option Dict :=
  leaseDatetimeFields.foldlM (coerceField fromIsoformat) lease

/-- The leases with their identifiers and their times. -/
def readLeases (leases : Rows Dict) : StoreResult (Rows Dict) := do
  let leases := withLeaseIds leases
  require (∀ row ∈ leases.toList, (coerceLeaseDatetimes fromIsoformat row.2).isSome = true)
    (.raised "ValueError")
  return leases.map fun _ lease => (coerceLeaseDatetimes fromIsoformat lease).getD lease

/-- The leases read, and the claims derived from them. -/
def readRows (items leases : Rows Dict) : StoreResult (Rows Dict × Rows Dict) := do
  let leases ← readLeases fromIsoformat leases
  deriveItemClaimProjection items leases

/-- `_committed_view`. -/
def committedView (payload : Dict) : StoreResult Dict := do
  let rest := ((payload.pop "items").pop "leases").pop "persistence"
  let items ← objects (((payload.get "items").toDict?).getD ∅)
  let leases ← objects (((payload.get "leases").toDict?).getD ∅)
  let (items, leases) ← readRows fromIsoformat items leases
  return (rest.set "items" (rowsValue items)).set "leases" (rowsValue leases)

/-- `_load_snapshot`: the payload and its revision. -/
def loadSnapshot (tables : Tables) : StoreResult (Dict × Nat) := do
  let sessionId := (tables.root.get "session_id").text
  let found := sessionId = tables.sessionId
  let items := if found then RuntimeStore.itemPayloads tables.items else ∅
  let leases := if found then tables.leases.map fun _ row => row.payload else ∅
  let events := if found then tables.leaseEvents else []
  let (items, leases) ← readRows fromIsoformat items leases
  return (((tables.root.set "items" (rowsValue items)).set "leases" (rowsValue leases)).set
    "lease_events" (.list events), tables.revision)

end Read

end SessionTables

namespace Dict

variable (d : Dict) (key : String) (value : Value)

theorem getElem?_sortKeys : d.sortKeys[key]? = d[key]?.map Value.sortKeys := by
  simp [sortKeys]

theorem get_sortKeys : d.sortKeys.get key = (d.get key).sortKeys := by
  unfold get
  rw [getElem?_sortKeys]
  cases d[key]? <;> rfl

theorem has_sortKeys : d.sortKeys.has key = d.has key := by
  unfold has
  rw [getElem?_sortKeys]
  cases d[key]? <;> rfl

theorem sortKeys_set : (d.set key value).sortKeys = d.sortKeys.set key value.sortKeys := by
  refine Dict.ext fun other => ?_
  rw [getElem?_sortKeys, getElem?_set, getElem?_set, getElem?_sortKeys]
  split_ifs <;> rfl

theorem sortKeys_pop : (d.pop key).sortKeys = d.sortKeys.pop key := by
  refine Dict.ext fun other => ?_
  rw [getElem?_sortKeys, getElem?_pop, getElem?_pop, getElem?_sortKeys]
  split_ifs <;> rfl

theorem sortKeys_setDefault :
    (d.setDefault key value).sortKeys = d.sortKeys.setDefault key value.sortKeys := by
  unfold setDefault
  rw [has_sortKeys]
  split
  · rfl
  · exact sortKeys_set d key value

theorem setDefault_self : (d.setDefault key value).setDefault key value = d.setDefault key value := by
  have hhas : (d.setDefault key value).has key = true := by
    unfold setDefault
    split
    · next h => exact h
    · simp
  generalize d.setDefault key value = filled at hhas ⊢
  unfold setDefault
  rw [if_pos hhas]

theorem ofFields_sortKeysFields (fields : List (String × Value)) :
    ofFields (Value.sortKeysFields fields) = (ofFields fields).sortKeys := by
  have hfold : ∀ d : Dict, (Value.sortKeysFields fields).foldl (fun d f => d.insert f.1 f.2)
      d.sortKeys = (fields.foldl (fun d f => d.insert f.1 f.2) d).sortKeys := by
    induction fields with
    | nil => intro d; rfl
    | cons field fields ih =>
        intro d
        have hrest := ih (d.set field.1 field.2)
        rw [sortKeys_set] at hrest
        exact hrest
  have hempty : (∅ : Dict).sortKeys = ∅ := by
    refine Dict.ext fun other => ?_
    simp [getElem?_sortKeys]
  have hall := hfold ∅
  rw [hempty] at hall
  exact hall

theorem has_foldl_insert (fields : List (String × Value)) :
    ∀ {d : Dict}, d.has key = true →
      (fields.foldl (fun d f => d.insert f.1 f.2) d).has key = true := by
  induction fields with
  | nil => exact fun h => h
  | cons field fields ih =>
      intro d h
      refine ih (d := d.set field.1 field.2) ?_
      rw [has_set, h, Bool.or_true]

theorem isEmpty_toList_ofFields (fields : List (String × Value)) :
    (ofFields fields).toList.isEmpty = fields.isEmpty := by
  cases fields with
  | nil => rfl
  | cons field fields =>
      have hhas : (ofFields (field :: fields)).has field.1 = true :=
        has_foldl_insert field.1 fields (d := (∅ : Dict).set field.1 field.2) (by simp)
      obtain ⟨value, hvalue⟩ := Option.isSome_iff_exists.mp hhas
      have hmem := Std.ExtTreeMap.mem_toList_iff_getElem?_eq_some.mpr hvalue
      cases hlist : (ofFields (field :: fields)).toList with
      | nil =>
          rw [hlist] at hmem
          cases hmem
      | cons first rest => rfl

theorem sortKeys_toValue : d.toValue.sortKeys = d.sortKeys.toValue := by
  show (ofFields (Value.sortKeysFields d.toList)).toValue = _
  rw [ofFields_sortKeysFields, ofFields_toList]

end Dict

namespace Value

theorem sortKeysList_eq (values : List Value) : sortKeysList values = values.map sortKeys := by
  induction values with
  | nil => rfl
  | cons value values ih => rw [sortKeysList, ih, List.map_cons]

theorem truthy_sortKeys (value : Value) : value.sortKeys.truthy = value.truthy := by
  cases value with
  | list values => cases values <;> rfl
  | dict fields =>
      show (!(Dict.ofFields (sortKeysFields fields)).toList.isEmpty) = !fields.isEmpty
      rw [Dict.ofFields_sortKeysFields, Dict.sortKeys, Std.ExtTreeMap.toList_map, List.isEmpty_map,
        Dict.isEmpty_toList_ofFields]
  | _ => rfl

/-- The value reads as the same text from JSON. All do but the ones with an object inside whose
keys are not sorted. -/
def ReadsSame (value : Value) : Prop := value.sortKeys.text = value.text

instance (value : Value) : Decidable (ReadsSame value) := inferInstanceAs (Decidable (_ = _))

theorem readsSame_str (s : String) : ReadsSame (.str s) := rfl

theorem sortKeys_eq_str {value : Value} {s : String} : value.sortKeys = .str s ↔ value = .str s := by
  cases value with
  | dict fields => exact iff_of_false (by simp [sortKeys, Dict.toValue]) (by simp)
  | list values => exact iff_of_false (by simp [sortKeys]) (by simp)
  | _ => exact Iff.rfl

end Value

theorem Dict.textOr_sortKeys {d : Dict} {key : String} (default : String)
    (h : (d.get key).ReadsSame) : d.sortKeys.textOr key default = d.textOr key default := by
  unfold Dict.textOr Value.orElse
  rw [Dict.get_sortKeys, Value.truthy_sortKeys]
  split
  · exact h
  · rfl

namespace SessionTables

open RuntimeStore (projectClaim)

theorem toDict?_rowsValue (rows : Rows Dict) :
    (rowsValue rows).toDict? = some (rows.map fun _ row => row.toValue) :=
  Value.toDict?_toValue _

theorem objects_toValue (rows : Rows Dict) :
    objects (rows.map fun _ row => row.toValue) = .ok rows := by
  have hobjects : ∀ row ∈ Std.ExtTreeMap.toList (rows.map fun _ row => row.toValue),
      row.2.toDict?.isSome = true := by
    intro row hrow
    rw [Std.ExtTreeMap.toList_map] at hrow
    obtain ⟨entry, -, rfl⟩ := List.mem_map.mp hrow
    rw [Value.toDict?_toValue]
    rfl
  unfold objects require
  rw [if_pos hobjects]
  refine congrArg Except.ok ?_
  rw [Std.ExtTreeMap.map_map]
  simp

theorem sortKeys_rowsValue (rows : Rows Dict) :
    (rowsValue rows).sortKeys = rowsValue (sortRows rows) := by
  unfold rowsValue
  rw [Dict.sortKeys_toValue]
  congr 1
  unfold Dict.sortKeys sortRows
  rw [Std.ExtTreeMap.map_map, Std.ExtTreeMap.map_map]
  simp only [Dict.sortKeys_toValue]

theorem withLeaseIds_idem (leases : Rows Dict) :
    withLeaseIds (withLeaseIds leases) = withLeaseIds leases := by
  unfold withLeaseIds
  rw [Std.ExtTreeMap.map_map]
  congr 1
  funext leaseId lease
  exact Dict.setDefault_self lease "lease_id" _

theorem withLeaseIds_sortRows (leases : Rows Dict) :
    withLeaseIds (sortRows leases) = sortRows (withLeaseIds leases) := by
  unfold withLeaseIds sortRows
  rw [Std.ExtTreeMap.map_map, Std.ExtTreeMap.map_map]
  congr 1
  funext leaseId lease
  rw [Dict.sortKeys_setDefault]
  rfl

section Leases

variable {change : Dict → Dict} {leases : Rows Dict}

/-- A change of the leases that the claims do not see. -/
structure KeepsClaims (change : Dict → Dict) (leases : Rows Dict) : Prop where
  holds : ∀ (leaseId : String) lease, leases[leaseId]? = some lease →
    holdsItem (change lease) = holdsItem lease
  itemId : ∀ (leaseId : String) lease, leases[leaseId]? = some lease →
    holdsItem lease = true → itemIdText (change lease) = itemIdText lease
  status : ∀ (leaseId : String) lease, leases[leaseId]? = some lease →
    hashable ((change lease).get "status") = hashable (lease.get "status")

theorem mem_values {lease : Dict} (h : lease ∈ leases.toList.map (·.2)) :
    ∃ leaseId : String, leases[leaseId]? = some lease := by
  obtain ⟨entry, hentry, rfl⟩ := List.mem_map.mp h
  exact ⟨entry.1, Std.ExtTreeMap.mem_toList_iff_getElem?_eq_some.mp hentry⟩

theorem values_map : (leases.map fun _ lease => change lease).toList.map (·.2) =
    (leases.toList.map (·.2)).map change := by
  rw [Std.ExtTreeMap.toList_map, List.map_map, List.map_map]
  rfl

theorem KeepsClaims.activeItemIds (h : KeepsClaims change leases) :
    activeItemIds (leases.map fun _ lease => change lease) = activeItemIds leases := by
  have hlist : ∀ rows : List Dict,
      (∀ lease ∈ rows, ∃ leaseId : String, leases[leaseId]? = some lease) →
      ((rows.map change).filter holdsItem).map itemIdText =
        (rows.filter holdsItem).map itemIdText := by
    intro rows
    induction rows with
    | nil => exact fun _ => rfl
    | cons lease rows ih =>
        intro hrows
        obtain ⟨leaseId, hlease⟩ := hrows lease (by simp)
        have hrest := ih fun other hother => hrows other (by simp [hother])
        rw [List.map_cons, List.filter_cons, List.filter_cons, h.holds leaseId lease hlease]
        split
        · next hholds =>
          rw [List.map_cons, List.map_cons, hrest, h.itemId leaseId lease hlease hholds]
        · exact hrest
  unfold SessionTables.activeItemIds
  rw [values_map]
  exact hlist _ fun lease hlease => mem_values hlease

theorem KeepsClaims.activeLeaseOf (h : KeepsClaims change leases) (itemId : String) :
    activeLeaseOf (leases.map fun _ lease => change lease) itemId =
      (activeLeaseOf leases itemId).map change := by
  have hlist : ∀ rows : List Dict,
      (∀ lease ∈ rows, ∃ leaseId : String, leases[leaseId]? = some lease) →
      (rows.map change).find? (fun lease => holdsItem lease && itemIdText lease == itemId) =
        (rows.find? fun lease => holdsItem lease && itemIdText lease == itemId).map change := by
    intro rows
    induction rows with
    | nil => exact fun _ => rfl
    | cons lease rows ih =>
        intro hrows
        obtain ⟨leaseId, hlease⟩ := hrows lease (by simp)
        have hsame : (holdsItem (change lease) && itemIdText (change lease) == itemId) =
            (holdsItem lease && itemIdText lease == itemId) := by
          rw [h.holds leaseId lease hlease]
          cases hholds : holdsItem lease with
          | false => rfl
          | true => rw [h.itemId leaseId lease hlease hholds]
        rw [List.map_cons, List.find?_cons, List.find?_cons, hsame]
        split
        · rfl
        · exact ih fun other hother => hrows other (by simp [hother])
  unfold SessionTables.activeLeaseOf
  rw [values_map]
  exact hlist _ fun lease hlease => mem_values hlease

end Leases

section Times

variable {fromIsoformat : String → Option Int}

theorem coerceField_sortKeys (lease : Dict) (field : String) :
    coerceField fromIsoformat lease.sortKeys field =
      (coerceField fromIsoformat lease field).map Dict.sortKeys := by
  unfold coerceField
  rw [Dict.get_sortKeys]
  cases lease.get field with
  | str value =>
      show (if value = "" then some lease.sortKeys else (fromIsoformat value).map fun instant =>
        lease.sortKeys.set field (.time instant)) = _
      simp only
      split
      · rfl
      · cases fromIsoformat value with
        | none => rfl
        | some instant =>
            exact congrArg some (Dict.sortKeys_set lease field (.time instant)).symm
  | _ => rfl

theorem coerceLeaseDatetimes_sortKeys (lease : Dict) :
    coerceLeaseDatetimes fromIsoformat lease.sortKeys =
      (coerceLeaseDatetimes fromIsoformat lease).map Dict.sortKeys := by
  unfold coerceLeaseDatetimes
  generalize leaseDatetimeFields = fields
  induction fields generalizing lease with
  | nil => rfl
  | cons field fields ih =>
      rw [List.foldlM_cons, List.foldlM_cons, coerceField_sortKeys]
      cases coerceField fromIsoformat lease field with
      | none => rfl
      | some coerced => exact ih coerced

theorem coerceField_get {lease coerced : Dict} {field key : String} (hkey : field ≠ key)
    (h : coerceField fromIsoformat lease field = some coerced) : coerced.get key = lease.get key := by
  unfold coerceField at h
  split at h
  · split at h
    · rw [← Option.some.inj h]
    · obtain ⟨instant, -, rfl⟩ := Option.map_eq_some_iff.mp h
      rw [Dict.get_set, if_neg hkey]
  · rw [← Option.some.inj h]

/-- Only the times of a lease are coerced. -/
theorem coerceLeaseDatetimes_get {lease coerced : Dict} {key : String}
    (hkey : key ∉ leaseDatetimeFields)
    (h : coerceLeaseDatetimes fromIsoformat lease = some coerced) :
    coerced.get key = lease.get key := by
  unfold coerceLeaseDatetimes at h
  generalize leaseDatetimeFields = fields at h hkey
  induction fields generalizing lease with
  | nil => rw [← Option.some.inj h]
  | cons field fields ih =>
      rw [List.foldlM_cons] at h
      obtain ⟨first, hfirst, h⟩ := Option.bind_eq_some_iff.mp h
      rw [ih h fun hmem => hkey (List.mem_cons_of_mem _ hmem)]
      exact coerceField_get (fun hsame => hkey (hsame ▸ List.mem_cons_self)) hfirst

/-- The lease as it is read. -/
def coerced (fromIsoformat : String → Option Int) (lease : Dict) : Dict :=
  (coerceLeaseDatetimes fromIsoformat lease).getD lease

theorem coerced_get {lease : Dict} {key : String} (hkey : key ∉ leaseDatetimeFields) :
    (coerced fromIsoformat lease).get key = lease.get key := by
  unfold coerced
  cases h : coerceLeaseDatetimes fromIsoformat lease with
  | none => rfl
  | some read => exact coerceLeaseDatetimes_get hkey h

theorem coerced_sortKeys (lease : Dict) :
    coerced fromIsoformat lease.sortKeys = (coerced fromIsoformat lease).sortKeys := by
  unfold coerced
  rw [coerceLeaseDatetimes_sortKeys]
  cases coerceLeaseDatetimes fromIsoformat lease <;> rfl

theorem keepsClaims_coerced (leases : Rows Dict) :
    KeepsClaims (coerced fromIsoformat) leases where
  holds _ lease _ := by
    unfold holdsItem
    rw [coerced_get (by decide)]
  itemId _ lease _ _ := by
    unfold itemIdText Dict.textOr
    rw [coerced_get (by decide)]
  status _ lease _ := by rw [coerced_get (by decide)]

theorem coerced_has {lease : Dict} {key : String} (h : lease.has key = true) :
    (coerced fromIsoformat lease).has key = true := by
  have hfield : ∀ {before after : Dict} {field : String}, before.has key = true →
      coerceField fromIsoformat before field = some after → after.has key = true := by
    intro before after field hbefore hafter
    unfold coerceField at hafter
    split at hafter
    · split at hafter
      · rwa [← Option.some.inj hafter]
      · obtain ⟨instant, -, rfl⟩ := Option.map_eq_some_iff.mp hafter
        rw [Dict.has_set, hbefore, Bool.or_true]
    · rwa [← Option.some.inj hafter]
  have hall : ∀ {before after : Dict} (fields : List String), before.has key = true →
      fields.foldlM (coerceField fromIsoformat) before = some after → after.has key = true := by
    intro before after fields
    induction fields generalizing before with
    | nil =>
        intro hbefore hafter
        rwa [← Option.some.inj hafter]
    | cons field fields ih =>
        intro hbefore hafter
        rw [List.foldlM_cons] at hafter
        obtain ⟨first, hfirst, hafter⟩ := Option.bind_eq_some_iff.mp hafter
        exact ih (hfield hbefore hfirst) hafter
  unfold coerced
  cases hread : coerceLeaseDatetimes fromIsoformat lease with
  | none => exact h
  | some read => exact hall leaseDatetimeFields h hread

end Times

theorem hashable_sortKeys (value : Value) : hashable value.sortKeys = hashable value := by
  cases value <;> rfl

theorem holdsItem_sortKeys (lease : Dict) : holdsItem lease.sortKeys = holdsItem lease := by
  unfold holdsItem
  rw [Dict.get_sortKeys]
  simp only [Value.sortKeys_eq_str]

/-- Sorting keys changes no claim when the items' identifiers read the same. -/
theorem keepsClaims_sortKeys {leases : Rows Dict}
    (h : ∀ (leaseId : String) lease, leases[leaseId]? = some lease → holdsItem lease = true →
      (lease.get "item_id").ReadsSame) : KeepsClaims Dict.sortKeys leases where
  holds _ lease _ := holdsItem_sortKeys lease
  itemId leaseId lease hlease hholds := Dict.textOr_sortKeys "" (h leaseId lease hlease hholds)
  status _ lease _ := by rw [Dict.get_sortKeys, hashable_sortKeys]

theorem deriveItemClaimProjection_ok {items leases : Rows Dict} {derived : Rows Dict × Rows Dict} :
    deriveItemClaimProjection items leases = .ok derived ↔
      (∀ row ∈ (withLeaseIds leases).toList, hashable (row.2.get "status") = true) ∧
        (activeItemIds (withLeaseIds leases)).Nodup ∧
        derived = (items.map fun itemId item =>
          projectItem item (activeLeaseOf (withLeaseIds leases) itemId), withLeaseIds leases) := by
  unfold deriveItemClaimProjection
  rw [StoreResult.bind_ok]
  constructor
  · rintro ⟨_, hhashable, h⟩
    obtain ⟨_, hnodup, h⟩ := StoreResult.bind_ok.mp h
    exact ⟨require_ok.mp hhashable, require_ok.mp hnodup, (StoreResult.pure_ok.mp h).symm⟩
  · rintro ⟨hhashable, hnodup, rfl⟩
    refine ⟨(), require_ok.mpr hhashable, ?_⟩
    exact StoreResult.bind_ok.mpr ⟨(), require_ok.mpr hnodup, rfl⟩

/-- The item is not shown as claimed without a lease. -/
def Returned (item : Dict) : Option Dict → Prop
  | none => item.get "state" ≠ .str "claimed"
  | some _ => True

theorem Returned.map {item : Dict} {lease : Option Dict} {change : Dict → Dict}
    (h : Returned item lease) : Returned item (lease.map change) := by
  cases lease with
  | none => exact h
  | some held => trivial

theorem returned_projectItem (item : Dict) (lease : Option Dict) :
    Returned (projectItem item lease) lease := by
  cases lease with
  | some lease => trivial
  | none =>
      obtain ⟨base, hbase, hitem⟩ := RuntimeStore.projectClaim_none_cleared item
      show (projectClaim item none).get "state" ≠ .str "claimed"
      rw [hitem, RuntimeStore.get_state_clearedClaim]
      exact hbase

theorem sortKeys_projectItem {item : Dict} {lease : Option Dict} (h : Returned item lease)
    (hid : ∀ held ∈ lease, (held.get "lease_id").ReadsSame) :
    projectItem item.sortKeys (lease.map Dict.sortKeys) = (projectItem item lease).sortKeys := by
  cases lease with
  | none =>
      have hsorted : item.sortKeys.get "state" ≠ .str "claimed" := by
        rw [Dict.get_sortKeys, Ne, Value.sortKeys_eq_str]
        exact h
      show projectClaim item.sortKeys none = (projectClaim item none).sortKeys
      rw [RuntimeStore.projectClaim_none_unclaimed h,
        RuntimeStore.projectClaim_none_unclaimed hsorted]
      unfold RuntimeStore.clearedClaim
      rw [Dict.sortKeys_pop, Dict.sortKeys_set, Dict.sortKeys_set, Dict.sortKeys_set]
      rfl
  | some held =>
      have htext : (held.get "lease_id").sortKeys.text = (held.get "lease_id").text := hid held rfl
      unfold projectItem
      simp only [Option.map_some, Dict.sortKeys_set, Dict.get_sortKeys]
      rw [htext]
      rfl

theorem hashable_sortRows (leases : Rows Dict) :
    (∀ row ∈ (sortRows leases).toList, hashable (row.2.get "status") = true) ↔
      ∀ row ∈ leases.toList, hashable (row.2.get "status") = true := by
  unfold sortRows
  rw [Std.ExtTreeMap.toList_map, List.forall_mem_map]
  simp only [Dict.get_sortKeys, hashable_sortKeys]

/-- The identifiers in the leases that hold items read as the same texts from JSON. -/
def LeasesReadSame (leases : Rows Dict) : Prop :=
  ∀ (leaseId : String) lease, leases[leaseId]? = some lease → holdsItem lease = true →
    (lease.get "item_id").ReadsSame ∧ (lease.get "lease_id").ReadsSame

theorem activeLeaseOf_some {leases : Rows Dict} {itemId : String} {lease : Dict}
    (h : activeLeaseOf leases itemId = some lease) :
    ∃ leaseId : String, leases[leaseId]? = some lease ∧ holdsItem lease = true := by
  unfold activeLeaseOf at h
  obtain ⟨leaseId, hlease⟩ := mem_values (List.mem_of_find?_eq_some h)
  have hholds := List.find?_some h
  simp only [Bool.and_eq_true] at hholds
  exact ⟨leaseId, hlease, hholds.1⟩

/-- Deriving the claims of rows with sorted keys sorts the keys of what is derived. -/
theorem deriveItemClaimProjection_sortRows {items leases : Rows Dict}
    (hids : withLeaseIds leases = leases) (hreads : LeasesReadSame leases)
    (hreturned : ∀ (itemId : String) item, items[itemId]? = some item →
      Returned item (activeLeaseOf leases itemId)) :
    deriveItemClaimProjection (sortRows items) (sortRows leases) =
      (deriveItemClaimProjection items leases).map fun derived =>
        (sortRows derived.1, sortRows derived.2) := by
  have hkeeps : KeepsClaims Dict.sortKeys leases :=
    keepsClaims_sortKeys fun leaseId lease hlease hholds => (hreads leaseId lease hlease hholds).1
  have hitems : ((sortRows items).map fun itemId item =>
      projectItem item (activeLeaseOf (sortRows leases) itemId)) =
        sortRows (items.map fun itemId item => projectItem item (activeLeaseOf leases itemId)) := by
    refine Std.ExtTreeMap.ext_getElem? fun itemId => ?_
    unfold sortRows
    simp only [Std.ExtTreeMap.getElem?_map]
    cases hitem : items[itemId]? with
    | none => rfl
    | some item =>
        have hactive : activeLeaseOf (leases.map fun _ lease => lease.sortKeys) itemId =
          (activeLeaseOf leases itemId).map Dict.sortKeys := hkeeps.activeLeaseOf itemId
        refine congrArg some ?_
        rw [hactive]
        refine sortKeys_projectItem (hreturned itemId item hitem) ?_
        intro held hheld
        obtain ⟨leaseId, hlease, hholds⟩ := activeLeaseOf_some hheld
        exact (hreads leaseId held hlease hholds).2
  have hnodup : activeItemIds (sortRows leases) = activeItemIds leases := hkeeps.activeItemIds
  unfold deriveItemClaimProjection
  rw [withLeaseIds_sortRows, hids]
  simp only [hashable_sortRows, hnodup, hitems]
  unfold require
  split_ifs <;> rfl

section Times

variable {fromIsoformat : String → Option Int}

theorem readLeases_sortRows (leases : Rows Dict) :
    readLeases fromIsoformat (sortRows leases) =
      (readLeases fromIsoformat leases).map sortRows := by
  have hsome : (∀ row ∈ (sortRows (withLeaseIds leases)).toList,
      (coerceLeaseDatetimes fromIsoformat row.2).isSome = true) ↔
        ∀ row ∈ (withLeaseIds leases).toList,
          (coerceLeaseDatetimes fromIsoformat row.2).isSome = true := by
    unfold sortRows
    rw [Std.ExtTreeMap.toList_map, List.forall_mem_map]
    simp only [coerceLeaseDatetimes_sortKeys, Option.isSome_map]
  have hrows : ((sortRows (withLeaseIds leases)).map fun _ lease =>
      (coerceLeaseDatetimes fromIsoformat lease).getD lease) =
        sortRows ((withLeaseIds leases).map fun _ lease =>
          (coerceLeaseDatetimes fromIsoformat lease).getD lease) := by
    unfold sortRows
    rw [Std.ExtTreeMap.map_map, Std.ExtTreeMap.map_map]
    congr 1
    funext leaseId lease
    exact coerced_sortKeys lease
  unfold readLeases
  rw [withLeaseIds_sortRows]
  simp only [hsome, hrows]
  unfold require
  split_ifs <;> rfl

theorem readLeases_ok {leases read : Rows Dict} (h : readLeases fromIsoformat leases = .ok read) :
    read = (withLeaseIds leases).map fun _ lease => coerced fromIsoformat lease := by
  unfold readLeases at h
  obtain ⟨_, -, h⟩ := StoreResult.bind_ok.mp h
  exact (StoreResult.pure_ok.mp h).symm

/-- The leases that are read have their identifiers. -/
theorem withLeaseIds_coerced (leases : Rows Dict) :
    withLeaseIds ((withLeaseIds leases).map fun _ lease => coerced fromIsoformat lease) =
      (withLeaseIds leases).map fun _ lease => coerced fromIsoformat lease := by
  refine Std.ExtTreeMap.ext_getElem? fun leaseId => ?_
  unfold withLeaseIds
  simp only [Std.ExtTreeMap.getElem?_map]
  cases leases[leaseId]? with
  | none => rfl
  | some lease =>
      have hhas : (lease.setDefault "lease_id" (.str leaseId)).has "lease_id" = true := by
        unfold Dict.setDefault
        split
        · next h => exact h
        · simp
      have hread := @coerced_has fromIsoformat _ _ hhas
      refine congrArg some ?_
      show Dict.setDefault _ _ _ = _
      unfold Dict.setDefault at hread ⊢
      rw [if_pos hread]

end Times

/-- The texts that the store makes of the session's identifier and of the identifiers in the leases
that hold items are the same once the payload was written as JSON. -/
structure IdentifiersReadSame (payload : Dict) : Prop where
  session : (payload.get "session_id").ReadsSame
  leases : ∀ table : Dict, (payload.get "leases").toDict? = some table →
    ∀ (leaseId : String) value lease, table[leaseId]? = some value → value.toDict? = some lease →
      holdsItem lease = true → (lease.get "item_id").ReadsSame ∧ (lease.get "lease_id").ReadsSame

theorem objects_ok {table : Dict} {rows : Rows Dict} (h : objects table = .ok rows) :
    rows = table.map fun _ value => value.toDict?.getD ∅ := by
  unfold objects at h
  obtain ⟨_, -, h⟩ := StoreResult.bind_ok.mp h
  exact (StoreResult.pure_ok.mp h).symm

theorem tableOf_leases {payload table : Dict} {leaseId : String} {value : Value}
    (h : tableOf payload "leases" = .ok table) (hvalue : table[leaseId]? = some value) :
    (payload.get "leases").toDict? = some table := by
  unfold tableOf at h
  split at h
  · obtain rfl := Except.ok.inj h
    simp at hvalue
  · next found hfound =>
    unfold Dict.get
    rw [hfound]
    cases htable : found.toDict? with
    | none => simp [htable] at h
    | some read =>
        rw [htable] at h
        obtain rfl := Except.ok.inj h
        exact htable

/-- A lease that is written has the identifiers it was given. -/
theorem IdentifiersReadSame.written {payload table : Dict} {rows : Rows Dict}
    (h : IdentifiersReadSame payload) (htable : tableOf payload "leases" = .ok table)
    (hrows : objects table = .ok rows) : LeasesReadSame (withLeaseIds rows) := by
  intro leaseId lease hlease hholds
  obtain rfl := objects_ok hrows
  unfold withLeaseIds at hlease
  simp only [Std.ExtTreeMap.getElem?_map, Option.map_map, Option.map_eq_some_iff] at hlease
  obtain ⟨value, hvalue, rfl⟩ := hlease
  have hgiven := h.leases table (tableOf_leases htable hvalue) leaseId value
  simp only [Function.comp_apply] at hholds ⊢
  have hsame : ∀ key, "lease_id" ≠ key →
      ((value.toDict?.getD ∅).setDefault "lease_id" (.str leaseId)).get key =
        (value.toDict?.getD ∅).get key := fun key hkey =>
    Dict.get_setDefault_of_ne _ (.str leaseId) hkey
  have hheld : holdsItem (value.toDict?.getD ∅) = true := by
    unfold holdsItem at hholds ⊢
    rwa [hsame "status" (by decide)] at hholds
  cases hdict : value.toDict? with
  | none =>
      rw [hdict] at hheld
      simp [holdsItem] at hheld
  | some object =>
      rw [hdict] at hsame hheld
      obtain ⟨hitem, hid⟩ := hgiven object hvalue hdict hheld
      refine ⟨by rw [hsame "item_id" (by decide)]; exact hitem, ?_⟩
      unfold Dict.setDefault
      split
      · exact hid
      · rw [Option.getD_some, Dict.get_set, if_pos rfl]
        exact Value.readsSame_str leaseId

/-- The rows of a payload, before anything is derived. -/
def rowsOf (payload : Dict) (key : String) : Rows Dict :=
  (((payload.get key).toDict?).getD ∅).map fun _ value => value.toDict?.getD ∅

theorem rowsOf_ok {payload table : Dict} {key : String} {rows : Rows Dict}
    (htable : tableOf payload key = .ok table) (hrows : objects table = .ok rows) :
    rows = rowsOf payload key := by
  rw [objects_ok hrows, rowsOf]
  congr 1
  unfold tableOf at htable
  unfold Dict.get
  cases hvalue : payload[key]? with
  | none =>
      rw [hvalue] at htable
      exact (Except.ok.inj htable).symm
  | some value =>
      rw [hvalue] at htable
      cases hdict : value.toDict? with
      | none => simp [hdict] at htable
      | some read =>
          simp only [hdict, Option.elim_some] at htable
          simp [hdict, Except.ok.inj htable]

/-- What a write leaves in the tables and in the payload. -/
structure Written (payload : Dict) (revision : Nat) (tables : Tables) (normalized : Dict)
    (events : List Value) (items leases : Rows Dict) : Prop where
  sessionId : tables.sessionId = (payload.get "session_id").text
  root : tables.root = (rootOf payload).sortKeys
  revision : tables.revision = revision
  itemPayloads : RuntimeStore.itemPayloads tables.items = sortRows items
  leasePayloads : tables.leases.map (fun _ row => row.payload) = sortRows leases
  eventPayloads : tables.leaseEvents = events.map Value.sortKeys
  normalized : normalized = (payload.set "items" (rowsValue items)).set "leases" (rowsValue leases)
  ids : withLeaseIds leases = leases
  givenLeases : leases = withLeaseIds (rowsOf payload "leases")
  givenItems : items = (rowsOf payload "items").map fun itemId item =>
    projectItem item (activeLeaseOf leases itemId)
  hashable : ∀ row ∈ leases.toList, SessionTables.hashable (row.2.get "status") = true
  nodup : (activeItemIds leases).Nodup

theorem Written.returned {payload normalized : Dict} {revision : Nat} {tables : Tables}
    {events : List Value} {items leases : Rows Dict}
    (hw : Written payload revision tables normalized events items leases)
    (itemId : String) (item : Dict) (hitem : items[itemId]? = some item) :
    Returned item (activeLeaseOf leases itemId) := by
  rw [hw.givenItems, Std.ExtTreeMap.getElem?_map] at hitem
  obtain ⟨before, -, rfl⟩ := Option.map_eq_some_iff.mp hitem
  exact returned_projectItem before _

theorem payloads_leaseRows (stored : Rows LeaseRow) (leases : Rows Dict) (revision : Nat) :
    (leaseRows stored leases revision).map (fun _ row => row.payload) = leases := by
  refine Std.ExtTreeMap.ext_getElem? fun leaseId => ?_
  simp only [leaseRows, Std.ExtTreeMap.getElem?_map]
  cases leases[leaseId]? with
  | none => rfl
  | some lease =>
      cases stored[leaseId]? with
      | none => rfl
      | some prior =>
          by_cases h : prior.payload = lease <;> simp [h]

theorem eventsOf_list {payload : Dict} {events : List Value}
    (h : payload[("lease_events" : String)]? = some (.list events)) :
    eventsOf payload = .ok events := by
  unfold eventsOf
  rw [h]

theorem writeSession_ok {tables tables' : Tables} {payload normalized : Dict} {revision : Nat}
    {events : List Value} (hevents : eventsOf payload = .ok events)
    (h : writeSession tables payload revision = .ok (tables', normalized)) :
    ∃ items leases, Written payload revision tables' normalized events items leases ∧
      (IdentifiersReadSame payload → LeasesReadSame leases) := by
  unfold writeSession at h
  simp only at h
  obtain ⟨_, hsession, h⟩ := StoreResult.bind_ok.mp h
  obtain ⟨itemTable, hitemTable, h⟩ := StoreResult.bind_ok.mp h
  obtain ⟨leaseTable, htable, h⟩ := StoreResult.bind_ok.mp h
  obtain ⟨written, hwritten, h⟩ := StoreResult.bind_ok.mp h
  obtain ⟨given, hgiven, h⟩ := StoreResult.bind_ok.mp h
  obtain ⟨items, hitems, h⟩ := StoreResult.bind_ok.mp h
  obtain ⟨derived, hderived, h⟩ := StoreResult.bind_ok.mp h
  obtain ⟨hhashable, hnodup, rfl⟩ := deriveItemClaimProjection_ok.mp hderived
  obtain ⟨_, -, h⟩ := StoreResult.bind_ok.mp h
  obtain ⟨rfl, rfl⟩ := Prod.mk.inj (StoreResult.pure_ok.mp h)
  refine ⟨items.map fun itemId item => projectItem item (activeLeaseOf (withLeaseIds given) itemId),
    withLeaseIds given, ?_, fun hids => hids.written htable hgiven⟩
  have hroot : (rootOf payload).get "session_id" = payload.get "session_id" := by
    simp [rootOf]
  have hpresent : ((rootOf payload).get "session_id").truthy = true := by
    by_contra hfalse
    exact require_ok.mp hsession (Dict.textOr_eq_empty.mpr (by simpa using hfalse))
  have hlist : written = events := Except.ok.inj (hwritten.symm.trans hevents)
  constructor
  · show (rootOf payload).textOr "session_id" "" = _
    rw [Dict.textOr_of_truthy "" hpresent, hroot]
  · rfl
  · rfl
  · exact RuntimeStore.itemPayloads_itemRows _ _ _
  · exact payloads_leaseRows _ _ _
  · rw [hlist]
  · rfl
  · exact withLeaseIds_idem given
  · rw [rowsOf_ok htable hgiven]
  · rw [rowsOf_ok hitemTable hitems]
  · exact hhashable
  · exact hnodup

/-- What reading and deriving the written rows gives, from the tables and in memory. -/
theorem readRows_sortRows {fromIsoformat : String → Option Int} {items leases : Rows Dict}
    (hids : withLeaseIds leases = leases) (hreads : LeasesReadSame leases)
    (hreturned : ∀ (itemId : String) item, items[itemId]? = some item →
      Returned item (activeLeaseOf leases itemId)) :
    readRows fromIsoformat (sortRows items) (sortRows leases) =
      (readRows fromIsoformat items leases).map fun derived =>
        (sortRows derived.1, sortRows derived.2) := by
  unfold readRows
  rw [readLeases_sortRows]
  cases hread : readLeases fromIsoformat leases with
  | error e => rfl
  | ok read =>
      have hcoerced : read = leases.map fun _ lease => coerced fromIsoformat lease := by
        rw [readLeases_ok hread, hids]
      have hkeeps := @keepsClaims_coerced fromIsoformat leases
      refine deriveItemClaimProjection_sortRows ?_ ?_ ?_
      · have hall := @withLeaseIds_coerced fromIsoformat leases
        rw [hids] at hall
        rw [hcoerced, hall]
      · intro leaseId lease hlease hholds
        rw [hcoerced, Std.ExtTreeMap.getElem?_map] at hlease
        obtain ⟨before, hbefore, rfl⟩ := Option.map_eq_some_iff.mp hlease
        rw [hkeeps.holds leaseId before hbefore] at hholds
        rw [coerced_get (by decide), coerced_get (by decide)]
        exact hreads leaseId before hbefore hholds
      · intro itemId item hitem
        rw [hcoerced, hkeeps.activeLeaseOf itemId]
        exact (hreturned itemId item hitem).map

/-- The claim of an item, from the lease that is read for it, is the one its given lease makes. -/
def SameClaim : Option Dict → Option Dict → Prop
  | none, none => True
  | some read, some given => (read.get "lease_id").text = (given.get "lease_id").text ∧
      ∀ field ∈ ["agent_id", "created_at", "expires_at"], read.get field = (given.get field).sortKeys
  | _, _ => False

theorem projectItem_sortKeys_iff {item : Dict} {read given : Option Dict} (h : Returned item given) :
    projectItem item.sortKeys read = (projectItem item given).sortKeys ↔ SameClaim read given := by
  cases read with
  | none =>
      cases given with
      | none => exact iff_of_true (@sortKeys_projectItem item none h (by simp)) trivial
      | some given =>
          refine iff_of_false (fun heq => ?_) id
          have hstate := congrArg (fun d : Dict => d.get "state") heq
          exact returned_projectItem item.sortKeys none
            (hstate.trans (by simp [Dict.get_sortKeys, projectItem, Value.sortKeys]))
  | some read =>
      cases given with
      | none =>
          refine iff_of_false (fun heq => ?_) id
          have hstate := congrArg (fun d : Dict => d.get "state") heq
          have hclaimed : (projectItem item.sortKeys (some read)).get "state" = .str "claimed" := by
            simp [projectItem]
          simp only [hclaimed, Dict.get_sortKeys] at hstate
          exact returned_projectItem item none (Value.sortKeys_eq_str.mp hstate.symm)
      | some given =>
          simp only [SameClaim, List.forall_mem_cons, List.not_mem_nil, false_implies,
            implies_true, and_true]
          unfold projectItem
          simp only [Dict.sortKeys_set]
          constructor
          · intro heq
            have hfield (field : String) := congrArg (fun d : Dict => d.get field) heq
            have hid := hfield "active_lease_id"
            have hby := hfield "claimed_by"
            have hat := hfield "claimed_at"
            have hexpires := hfield "lease_expires_at"
            simp [Value.sortKeys] at hid hby hat hexpires
            exact ⟨hid, hby, hat, hexpires⟩
          · rintro ⟨hid, hby, hat, hexpires⟩
            rw [hid, hby, hat, hexpires]
            rfl

/-- Read back from JSON, the leases claim each of the items as they do now. -/
def ClaimsReadSame (items leases : Rows Dict) : Prop :=
  (activeItemIds (sortRows leases)).Nodup ∧
    ∀ itemId : String, itemId ∈ items →
      SameClaim (activeLeaseOf (sortRows leases) itemId) (activeLeaseOf leases itemId)

/-- The payloads whose rows a load finds again, and finds to make the same claims: the session's
identifier reads the same from JSON and, if the times of the leases can be read, the leases claim
each item alike; or it does not read the same, and there is no row to be found. -/
def ReadsAlike (fromIsoformat : String → Option Int) (payload : Dict) : Prop :=
  if (payload.get "session_id").ReadsSame then
    ∀ leases, readLeases fromIsoformat (rowsOf payload "leases") = .ok leases →
      ClaimsReadSame (rowsOf payload "items") leases
  else rowsOf payload "items" = ∅ ∧ rowsOf payload "leases" = ∅ ∧ eventsOf payload = .ok []

section Reload

/-- The payload that a load puts together. -/
def snapshotOf (tables : Tables) (items leases : Rows Dict) (events : List Value) : Dict :=
  ((tables.root.set "items" (rowsValue items)).set "leases" (rowsValue leases)).set
    "lease_events" (.list events)

/-- The view of the payload that was written. -/
def viewOf (normalized : Dict) (items leases : Rows Dict) : Dict :=
  ((((normalized.pop "items").pop "leases").pop "persistence").set "items"
    (rowsValue items)).set "leases" (rowsValue leases)

theorem rowsValue_inj {rows others : Rows Dict} (h : rowsValue rows = rowsValue others) :
    rows = others := by
  have hobjects := congrArg (fun value => value.toDict?.map objects) h
  simp only [toDict?_rowsValue, Option.map_some, objects_toValue] at hobjects
  exact Except.ok.inj (Option.some.inj hobjects)

variable {fromIsoformat : String → Option Int} {tables : Tables} {payload normalized : Dict}
  {revision : Nat} {events : List Value} {items leases : Rows Dict}

theorem committedView_of_written
    (hw : Written payload revision tables normalized events items leases) :
    committedView fromIsoformat normalized =
      (readRows fromIsoformat items leases).map fun derived =>
        viewOf normalized derived.1 derived.2 := by
  have hitems : ((normalized.get "items").toDict?).getD ∅ = items.map fun _ row => row.toValue := by
    rw [hw.normalized, Dict.get_set, if_neg (by decide), Dict.get_set, if_pos rfl,
      toDict?_rowsValue]
    rfl
  have hleases : ((normalized.get "leases").toDict?).getD ∅ =
      leases.map fun _ row => row.toValue := by
    rw [hw.normalized, Dict.get_set, if_pos rfl, toDict?_rowsValue]
    rfl
  unfold committedView
  simp only [hitems, hleases, objects_toValue]
  show (do let derived ← readRows fromIsoformat items leases; _) = _
  cases readRows fromIsoformat items leases <;> rfl

/-- The two agree when the rows and the events do. -/
theorem snapshotOf_eq_viewOf (hw : Written payload revision tables normalized events items leases)
    (hevents : payload[("lease_events" : String)]? = some (.list events))
    {items' leases' derivedItems derivedLeases : Rows Dict} {events' : List Value} :
    snapshotOf tables items' leases' events' =
        (viewOf normalized derivedItems derivedLeases).sortKeys ↔
      items' = sortRows derivedItems ∧ leases' = sortRows derivedLeases ∧
        events' = events.map Value.sortKeys := by
  have hlist : (Value.list events).sortKeys = .list (events.map Value.sortKeys) := by
    rw [Value.sortKeys, Value.sortKeysList_eq]
  constructor
  · intro heq
    have hfield (key : String) := congrArg (fun d : Dict => d[key]?) heq
    have hitems := hfield "items"
    have hleases := hfield "leases"
    have hlogged := hfield "lease_events"
    simp only [snapshotOf, viewOf, Dict.getElem?_set, Dict.getElem?_pop, Dict.getElem?_sortKeys,
      hw.normalized] at hitems hleases hlogged
    simp [sortKeys_rowsValue] at hitems hleases
    simp [hevents, hlist] at hlogged
    exact ⟨rowsValue_inj hitems, rowsValue_inj hleases, hlogged⟩
  · rintro ⟨rfl, rfl, rfl⟩
    refine Dict.ext fun key => ?_
    rw [snapshotOf, viewOf, hw.root, hw.normalized, rootOf]
    simp only [Dict.getElem?_set, Dict.getElem?_pop, Dict.getElem?_sortKeys]
    by_cases hkey : "lease_events" = key
    · subst hkey
      simp [hevents, hlist]
    · by_cases hleases : "leases" = key
      · simp [hkey, hleases, sortKeys_rowsValue]
      · by_cases hitems : "items" = key
        · simp [hkey, hleases, hitems, sortKeys_rowsValue]
        · simp [hkey, hleases, hitems]

/-- The rows are found under the text that the identifier of the session has after JSON. -/
theorem loadSnapshot_of_written
    (hw : Written payload revision tables normalized events items leases) :
    loadSnapshot fromIsoformat tables =
      if (payload.get "session_id").ReadsSame then
        (readRows fromIsoformat (sortRows items) (sortRows leases)).map fun derived =>
          (snapshotOf tables derived.1 derived.2 (events.map Value.sortKeys), revision)
      else .ok (snapshotOf tables ∅ ∅ [], revision) := by
  have hroot : (tables.root.get "session_id").text = (payload.get "session_id").sortKeys.text := by
    rw [hw.root, Dict.get_sortKeys]
    simp [rootOf]
  unfold loadSnapshot
  simp only [hroot, hw.sessionId, hw.itemPayloads, hw.leasePayloads, hw.eventPayloads, hw.revision]
  by_cases hsame : (payload.get "session_id").ReadsSame
  · have htext : (payload.get "session_id").sortKeys.text = (payload.get "session_id").text := hsame
    simp only [htext, if_true, if_pos hsame]
    cases readRows fromIsoformat (sortRows items) (sortRows leases) <;> rfl
  · have htext : ¬(payload.get "session_id").sortKeys.text = (payload.get "session_id").text := hsame
    simp only [htext, if_false, if_neg hsame]
    rfl

/-- Claims are derived alike from rows that were read back exactly when the leases claim each of the
items alike. -/
theorem deriveItemClaimProjection_sortRows_iff (hids : withLeaseIds leases = leases)
    (hhashable : ∀ row ∈ leases.toList, hashable (row.2.get "status") = true)
    (hnodup : (activeItemIds leases).Nodup)
    (hreturned : ∀ (itemId : String) item, items[itemId]? = some item →
      Returned item (activeLeaseOf leases itemId)) :
    deriveItemClaimProjection (sortRows items) (sortRows leases) =
        (deriveItemClaimProjection items leases).map (fun derived =>
          (sortRows derived.1, sortRows derived.2)) ↔ ClaimsReadSame items leases := by
  have hsorted : withLeaseIds (sortRows leases) = sortRows leases := by
    rw [withLeaseIds_sortRows, hids]
  have hview : deriveItemClaimProjection items leases = .ok
      (items.map fun itemId item => projectItem item (activeLeaseOf leases itemId), leases) := by
    rw [deriveItemClaimProjection_ok, hids]
    exact ⟨hhashable, hnodup, rfl⟩
  rw [hview, Except.map, deriveItemClaimProjection_ok, hsorted]
  refine ⟨fun h => ⟨h.2.1, fun itemId hitem => ?_⟩,
    fun h => ⟨(hashable_sortRows leases).mpr hhashable, h.1, ?_⟩⟩
  · have hrow := congrArg (fun rows : Rows Dict => rows[itemId]?) (Prod.mk.inj h.2.2).1
    obtain ⟨item, hitem⟩ := Option.isSome_iff_exists.mp
      (Std.ExtTreeMap.isSome_getElem?_iff_mem.mpr hitem)
    simp only [sortRows, Std.ExtTreeMap.getElem?_map, hitem, Option.map_some] at hrow
    exact (projectItem_sortKeys_iff (hreturned itemId item hitem)).mp (Option.some.inj hrow).symm
  · refine Prod.ext (Std.ExtTreeMap.ext_getElem? fun itemId => ?_) rfl
    simp only [sortRows, Std.ExtTreeMap.getElem?_map]
    cases hitem : items[itemId]? with
    | none => rfl
    | some item =>
        have hmem : itemId ∈ items := Std.ExtTreeMap.isSome_getElem?_iff_mem.mp (by simp [hitem])
        exact congrArg some
          ((projectItem_sortKeys_iff (hreturned itemId item hitem)).mpr (h.2 itemId hmem)).symm

theorem readRows_sortRows_iff
    (hw : Written payload revision tables normalized events items leases) :
    readRows fromIsoformat (sortRows items) (sortRows leases) =
        (readRows fromIsoformat items leases).map (fun derived =>
          (sortRows derived.1, sortRows derived.2)) ↔
      ∀ read, readLeases fromIsoformat (rowsOf payload "leases") = .ok read →
        ClaimsReadSame (rowsOf payload "items") read := by
  have hgiven : readLeases fromIsoformat (rowsOf payload "leases") =
      readLeases fromIsoformat leases := by
    unfold readLeases
    rw [hw.givenLeases, withLeaseIds_idem]
  have hmem (itemId : String) : itemId ∈ rowsOf payload "items" ↔ itemId ∈ items := by
    rw [hw.givenItems, Std.ExtTreeMap.mem_map]
  unfold readRows
  rw [readLeases_sortRows, hgiven]
  cases hread : readLeases fromIsoformat leases with
  | error e => exact iff_of_true rfl fun read h => absurd h (by simp)
  | ok read =>
      have hcoerced : read = leases.map fun _ lease => coerced fromIsoformat lease := by
        rw [readLeases_ok hread, hw.ids]
      have hkeeps := @keepsClaims_coerced fromIsoformat leases
      have hids : withLeaseIds read = read := by
        have hall := @withLeaseIds_coerced fromIsoformat leases
        rwa [hw.ids, ← hcoerced] at hall
      have hhashable : ∀ row ∈ read.toList, hashable (row.2.get "status") = true := by
        rw [hcoerced, Std.ExtTreeMap.toList_map, List.forall_mem_map]
        intro row hrow
        rw [coerced_get (by decide)]
        exact hw.hashable row hrow
      have hderive := @deriveItemClaimProjection_sortRows_iff items read hids hhashable
        (by rw [hcoerced, hkeeps.activeItemIds]; exact hw.nodup) fun itemId item hitem => by
          rw [hcoerced, hkeeps.activeLeaseOf itemId]
          exact (hw.returned itemId item hitem).map
      simp only [Except.ok.injEq, forall_eq', ClaimsReadSame, hmem] at hderive ⊢
      exact hderive

theorem derived_empty {derived : Rows Dict × Rows Dict}
    (hw : Written payload revision tables normalized events items leases)
    (h : readRows fromIsoformat items leases = .ok derived) :
    (derived.1 = ∅ ↔ rowsOf payload "items" = ∅) ∧
      (derived.2 = ∅ ↔ rowsOf payload "leases" = ∅) := by
  obtain ⟨read, hread, h⟩ := StoreResult.bind_ok.mp h
  obtain ⟨-, -, rfl⟩ := deriveItemClaimProjection_ok.mp h
  obtain rfl := readLeases_ok hread
  rw [hw.givenItems, hw.givenLeases]
  simp [Std.ExtTreeMap.eq_empty_iff_forall_not_mem, withLeaseIds]

theorem sortRows_eq_empty {rows : Rows Dict} : sortRows rows = ∅ ↔ rows = ∅ := by
  simp [Std.ExtTreeMap.eq_empty_iff_forall_not_mem, sortRows]

end Reload

/-- A load after a write returns the view the commit reports, up to the order of keys, exactly when
the payload's rows are found and claimed alike after JSON; so it does when its identifiers read the
same. -/
theorem loadSnapshot_eq_committedView (fromIsoformat : String → Option Int)
    {tables tables' : Tables} {payload normalized : Dict} {revision : Nat} {events : List Value}
    (hevents : payload[("lease_events" : String)]? = some (.list events))
    (h : writeSession tables payload revision = .ok (tables', normalized)) :
    (loadSnapshot fromIsoformat tables' =
        (committedView fromIsoformat normalized).map (fun view => (view.sortKeys, revision)) ↔
      ReadsAlike fromIsoformat payload) ∧
    (IdentifiersReadSame payload → ReadsAlike fromIsoformat payload) := by
  obtain ⟨items, leases, hw, hreads⟩ := writeSession_ok (eventsOf_list hevents) h
  refine ⟨?_, fun hids => ?_⟩
  · rw [loadSnapshot_of_written hw, committedView_of_written hw, ReadsAlike]
    by_cases hsame : (payload.get "session_id").ReadsSame
    · rw [if_pos hsame, if_pos hsame, ← readRows_sortRows_iff hw]
      cases readRows fromIsoformat (sortRows items) (sortRows leases) <;>
        cases readRows fromIsoformat items leases <;>
        simp [Except.map, snapshotOf_eq_viewOf hw hevents, Prod.ext_iff]
    · rw [if_neg hsame, if_neg hsame, eventsOf_list hevents]
      cases hrows : readRows fromIsoformat items leases with
      | error e =>
          refine iff_of_false (by simp [Except.map]) fun ⟨hitems, hleases, _⟩ => ?_
          rw [hw.givenItems, hw.givenLeases, hitems, hleases] at hrows
          cases hrows
      | ok derived =>
          obtain ⟨hitems, hleases⟩ := derived_empty hw hrows
          simp [Except.map, snapshotOf_eq_viewOf hw hevents, sortRows_eq_empty, ← hitems, ← hleases]
  · rw [ReadsAlike, if_pos hids.session, ← readRows_sortRows_iff hw]
    exact readRows_sortRows hw.ids (hreads hids) hw.returned

def noTables : Tables where
  sessionId := ""
  root := ∅
  revision := 0
  items := ∅
  leases := ∅
  leaseEvents := []

/-- One item, claimed by a lease, and metadata whose keys are not sorted. -/
def claimedPayload : Dict :=
  Dict.ofFields [
    ("session_id", .str "session"),
    ("metadata", .dict [("round", .int 2), ("author", .str "agent")]),
    ("items", .dict [("item", .dict [("state", .str "open")])]),
    ("leases", .dict [("lease", .dict [("status", .str "active"), ("item_id", .str "item"),
      ("agent_id", .str "agent"), ("created_at", .str "2026-01-01T00:00:00Z")])]),
    ("lease_events", .list [.dict [("status", .str "active"), ("lease_id", .str "lease")]])]

/-- `datetime.fromisoformat` on the time of that lease. -/
def newYear (text : String) : Option Int :=
  if text = "2026-01-01T00:00:00Z" then some 1767225600000000 else none

/-- The lease of that payload. -/
def claimedLeases : Dict :=
  Dict.ofFields [("lease", .dict [("status", .str "active"), ("item_id", .str "item"),
    ("agent_id", .str "agent"), ("created_at", .str "2026-01-01T00:00:00Z")])]

theorem claimedPayload_facts : (claimedPayload.get "session_id").ReadsSame ∧
    (claimedPayload.get "leases").toDict? = some claimedLeases ∧
    (claimedLeases.toList.all fun row => row.2.toDict?.all fun lease =>
      (lease.get "item_id").ReadsSame && (lease.get "lease_id").ReadsSame) = true ∧
    (writeSession noTables claimedPayload 1).toOption.isSome = true ∧
    claimedPayload[("lease_events" : String)]? =
      some (.list [.dict [("status", .str "active"), ("lease_id", .str "lease")]]) := by
  decide +kernel

theorem claimedPayload_readsSame : IdentifiersReadSame claimedPayload where
  session := claimedPayload_facts.1
  leases := by
    intro table htable leaseId value lease hvalue hlease _
    obtain ⟨-, htable', hall, -⟩ := claimedPayload_facts
    rw [htable'] at htable
    obtain rfl := Option.some.inj htable
    have hrow := List.all_eq_true.mp hall (leaseId, value)
      (Std.ExtTreeMap.mem_toList_iff_getElem?_eq_some.mpr hvalue)
    rw [hlease] at hrow
    simpa using hrow

theorem claimed_session_reloads : ∃ tables normalized,
    writeSession noTables claimedPayload 1 = .ok (tables, normalized) ∧
      ReadsAlike newYear claimedPayload ∧
      loadSnapshot newYear tables =
        (committedView newYear normalized).map fun view => (view.sortKeys, 1) := by
  obtain ⟨-, -, -, hwritten, hevents⟩ := claimedPayload_facts
  cases hwrite : writeSession noTables claimedPayload 1 with
  | error e =>
      rw [hwrite] at hwritten
      cases hwritten
  | ok result =>
      obtain ⟨hiff, halike⟩ := loadSnapshot_eq_committedView newYear hevents hwrite
      have hreads := halike claimedPayload_readsSame
      exact ⟨result.1, result.2, rfl, hreads, hiff.mpr hreads⟩

/-- A session whose identifier is an object with unsorted keys. -/
def objectSession : Dict :=
  Dict.ofFields [
    ("session_id", .dict [("repo", .str "owner/repo"), ("number", .int 7)]),
    ("items", .dict [("item", .dict [("state", .str "open")])]),
    ("leases", .dict []),
    ("lease_events", .list [])]

/-- The item is filed under a text of the identifier that the reload does not make again: the view
has the item, the reload has none. -/
theorem objectSession_loses_items : ∃ tables normalized view loaded,
    writeSession noTables objectSession 1 = .ok (tables, normalized) ∧
      committedView newYear normalized = .ok view ∧
      loadSnapshot newYear tables = .ok (loaded, 1) ∧
      (view.get "items").toDict? ≠ some ∅ ∧ (loaded.get "items").toDict? = some ∅ := by
  have hrun : (writeSession noTables objectSession 1).toOption.any (fun written =>
      (committedView newYear written.2).toOption.any fun view =>
        (loadSnapshot newYear written.1).toOption.any fun loaded =>
          loaded.2 == 1 && decide ((view.get "items").toDict? ≠ some ∅) &&
            decide ((loaded.1.get "items").toDict? = some ∅)) = true := by
    decide +kernel
  obtain ⟨⟨tables, normalized⟩, hwrite, hrun⟩ := StoreResult.exists_ok hrun
  obtain ⟨view, hview, hrun⟩ := StoreResult.exists_ok hrun
  obtain ⟨⟨loaded, revision⟩, hload, hrun⟩ := StoreResult.exists_ok hrun
  simp only [Bool.and_eq_true, beq_iff_eq, decide_eq_true_eq] at hrun
  obtain ⟨⟨rfl, hitems⟩, hnone⟩ := hrun
  exact ⟨tables, normalized, view, loaded, hwrite, hview, hload, hitems, hnone⟩

end SessionTables
end GhAddressCr
