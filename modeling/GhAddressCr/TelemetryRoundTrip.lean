import GhAddressCr.TelemetrySafety

/-!
# Stored telemetry events

An event that a record was normalized to is written to the store and read back. The loader checks
every field again; it refuses none, and gives the event back with its fingerprint.
-/
namespace GhAddressCr

open PyText TelemetrySafety

namespace Dict

theorem mem_of_getElem?_ofFields {fields : List (String × Value)} {key : String} {value : Value}
    (h : (ofFields fields)[key]? = some value) : (key, value) ∈ fields := by
  have hfold : ∀ d : Dict, (fields.foldl (fun d f => d.insert f.1 f.2) d)[key]? = some value →
      d[key]? = some value ∨ (key, value) ∈ fields := by
    clear h
    induction fields with
    | nil => exact fun d hd => Or.inl hd
    | cons field fields ih =>
        intro d hd
        rcases ih _ hd with hinsert | hmem
        · rw [Std.ExtTreeMap.getElem?_insert] at hinsert
          split at hinsert
          · next hkey =>
            have hname : field.1 = key := Std.LawfulEqCmp.compare_eq_iff_eq.mp hkey
            obtain rfl := Option.some.inj hinsert
            exact Or.inr (hname ▸ List.mem_cons_self)
          · exact Or.inl hinsert
        · exact Or.inr (List.mem_cons_of_mem _ hmem)
  rcases hfold ∅ h with hempty | hmem
  · simp at hempty
  · exact hmem

/-- A mapping whose values are changed looks up the changed values. -/
theorem getElem?_ofFields_map (f : Value → Value) (fields : List (String × Value)) (key : String) :
    (ofFields (fields.map fun field => (field.1, f field.2)))[key]? =
      (ofFields fields)[key]?.map f := by
  have hfold : ∀ d e : Dict, (∀ key : String, e[key]? = d[key]?.map f) →
      ((fields.map fun field => (field.1, f field.2)).foldl
        (fun d field => d.insert field.1 field.2) e)[key]? =
      (fields.foldl (fun d field => d.insert field.1 field.2) d)[key]?.map f := by
    induction fields with
    | nil => exact fun d e h => h key
    | cons field fields ih =>
        intro d e h
        refine ih _ _ fun other => ?_
        rw [Std.ExtTreeMap.getElem?_insert, Std.ExtTreeMap.getElem?_insert, h other]
        split_ifs <;> rfl
  exact hfold ∅ ∅ fun other => by simp

end Dict

namespace Value

theorem throughJsonFields_eq_map (fields : List (String × Value)) :
    throughJsonFields fields = fields.map fun field => (field.1, field.2.throughJson) := by
  induction fields with
  | nil => rfl
  | cons field fields ih =>
      obtain ⟨key, value⟩ := field
      rw [throughJsonFields, ih, List.map_cons]

theorem canonFields_eq_map (fields : List (String × Value)) :
    canonFields fields = fields.map fun field => (field.1, field.2.canon) := by
  induction fields with
  | nil => rfl
  | cons field fields ih =>
      obtain ⟨key, value⟩ := field
      rw [canonFields, ih, List.map_cons]

end Value

theorem mem_parts_toValue {part : Part} {d : Dict} : part ∈ parts d.toValue ↔
    ∃ (key : String) (value : Value), d[key]? = some value ∧
      (part = .key key ∨ part ∈ parts value) := by
  rw [Dict.toValue, parts, mem_partsOfFields]
  constructor
  · rintro ⟨⟨key, value⟩, hfield, hpart⟩
    exact ⟨key, value, Std.ExtTreeMap.mem_toList_iff_getElem?_eq_some.mp hfield, hpart⟩
  · rintro ⟨key, value, hvalue, hpart⟩
    exact ⟨(key, value), Std.ExtTreeMap.mem_toList_iff_getElem?_eq_some.mpr hvalue, hpart⟩

/-- A mapping has no parts but those of the literal it is built from. -/
theorem mem_parts_ofFields {part : Part} {fields : List (String × Value)}
    (h : part ∈ parts (Dict.ofFields fields).toValue) : part ∈ partsOfFields fields := by
  obtain ⟨key, value, hvalue, hpart⟩ := mem_parts_toValue.mp h
  exact mem_partsOfFields.mpr ⟨(key, value), Dict.mem_of_getElem?_ofFields hvalue, hpart⟩

mutual

/-- Writing and reading adds no part to a value without instants. -/
theorem mem_parts_throughJson {part : Part} (value : Value)
    (hvalue : ∀ instant, Part.instant instant ∉ parts value) (h : part ∈ parts value.throughJson) :
    part ∈ parts value := by
  cases value with
  | dict fields =>
      rw [Value.throughJson] at h
      have hfields := mem_parts_ofFields h
      rw [parts] at hvalue ⊢
      exact mem_partsOfFields_throughJson fields hvalue hfields
  | list values =>
      rw [Value.throughJson, parts] at h
      rw [parts] at hvalue ⊢
      exact mem_partsOfItems_throughJson values hvalue h
  | time instant => exact absurd (by simp [parts]) (hvalue instant)
  | _ => simpa [Value.throughJson] using h

theorem mem_partsOfFields_throughJson {part : Part} (fields : List (String × Value))
    (hfields : ∀ instant, Part.instant instant ∉ partsOfFields fields)
    (h : part ∈ partsOfFields (Value.throughJsonFields fields)) : part ∈ partsOfFields fields := by
  cases fields with
  | nil => exact h
  | cons field fields =>
      obtain ⟨key, value⟩ := field
      simp only [partsOfFields, List.mem_cons, List.mem_append, not_or] at hfields ⊢
      simp only [Value.throughJsonFields, partsOfFields, List.mem_cons, List.mem_append] at h
      rcases h with hkey | hvalue | hrest
      · exact Or.inl hkey
      · exact Or.inr (Or.inl
          (mem_parts_throughJson value (fun instant => (hfields instant).2.1) hvalue))
      · exact Or.inr (Or.inr
          (mem_partsOfFields_throughJson fields (fun instant => (hfields instant).2.2) hrest))

theorem mem_partsOfItems_throughJson {part : Part} (values : List Value)
    (hvalues : ∀ instant, Part.instant instant ∉ partsOfItems values)
    (h : part ∈ partsOfItems (Value.throughJsonList values)) : part ∈ partsOfItems values := by
  cases values with
  | nil => exact h
  | cons value values =>
      simp only [partsOfItems, List.mem_append, not_or] at hvalues ⊢
      simp only [Value.throughJsonList, partsOfItems, List.mem_append] at h
      rcases h with hvalue | hrest
      · exact Or.inl (mem_parts_throughJson value (fun instant => (hvalues instant).1) hvalue)
      · exact Or.inr
          (mem_partsOfItems_throughJson values (fun instant => (hvalues instant).2) hrest)

end

mutual

/-- A value without instants is read back as a value that is `==` to it. -/
theorem canon_throughJson (value : Value)
    (h : ∀ instant, Part.instant instant ∉ parts value) : value.throughJson.canon = value.canon := by
  cases value with
  | dict fields =>
      rw [parts] at h
      have hfields := canon_throughJson_fields fields h
      simp only [Value.throughJson, Dict.toValue, Value.canon]
      congr 2
      refine Dict.ext fun key => ?_
      rw [Value.canonFields_eq_map, Value.canonFields_eq_map, Dict.getElem?_ofFields_map,
        Dict.getElem?_ofFields_map, Dict.ofFields_toList, Value.throughJsonFields_eq_map,
        Dict.getElem?_ofFields_map, Option.map_map]
      cases hlookup : (Dict.ofFields fields)[key]? with
      | none => rfl
      | some value =>
          exact congrArg some (hfields (key, value) (Dict.mem_of_getElem?_ofFields hlookup))
  | list values =>
      rw [parts] at h
      rw [Value.throughJson, Value.canon, Value.canon, canon_throughJson_items values h]
  | time instant => exact absurd (by simp [parts]) (h instant)
  | _ => simp [Value.throughJson]

theorem canon_throughJson_fields (fields : List (String × Value))
    (h : ∀ instant, Part.instant instant ∉ partsOfFields fields) :
    ∀ field ∈ fields, field.2.throughJson.canon = field.2.canon := by
  cases fields with
  | nil => simp
  | cons field fields =>
      obtain ⟨key, value⟩ := field
      simp only [partsOfFields, List.mem_cons, List.mem_append, not_or] at h
      intro other hother
      rcases List.mem_cons.mp hother with rfl | hother
      · exact canon_throughJson value fun instant => (h instant).2.1
      · exact canon_throughJson_fields fields (fun instant => (h instant).2.2) other hother

theorem canon_throughJson_items (values : List Value)
    (h : ∀ instant, Part.instant instant ∉ partsOfItems values) :
    Value.canonList (Value.throughJsonList values) = Value.canonList values := by
  cases values with
  | nil => rfl
  | cons value values =>
      simp only [partsOfItems, List.mem_append, not_or] at h
      rw [Value.throughJsonList, Value.canonList, Value.canonList,
        canon_throughJson value fun instant => (h instant).1,
        canon_throughJson_items values fun instant => (h instant).2]

end

theorem readBack_ofFields (fields : List (String × Value)) : readBack (Dict.ofFields fields) =
    some (Dict.ofFields (fields.map fun field => (field.1, field.2.throughJson))) := by
  rw [readBack, Dict.toValue, Value.throughJson, Value.toDict?_toValue]
  refine congrArg some (Dict.ext fun key => ?_)
  rw [Value.throughJsonFields_eq_map, Dict.getElem?_ofFields_map, Dict.getElem?_ofFields_map,
    Dict.ofFields_toList]

def hexDigits : List Char := "0123456789abcdef".toList

theorem mem_hexDigits_of_all {cs : List Char} (h : cs.all hexDigits.contains = true) :
    ∀ c ∈ cs, c ∈ hexDigits :=
  fun c hc => List.contains_iff_mem.mp (List.all_eq_true.mp h c hc)

theorem lowered_hex {value : String} (h : ∀ c ∈ value.toList, c ∈ hexDigits) :
    lowered value = value.toList := by
  have hdigits : (hexDigits.all fun c => (if c.toNat = 0x130 then ['i', Char.ofNat 0x307]
      else [lowerChar c]) = [c]) = true := by decide
  have hdigit : ∀ c ∈ hexDigits, (if c.toNat = 0x130 then ['i', Char.ofNat 0x307]
      else [lowerChar c]) = [c] :=
    fun c hc => of_decide_eq_true (List.all_eq_true.mp hdigits c hc)
  have hchars : ∀ cs : List Char, (∀ c ∈ cs, c ∈ hexDigits) →
      (cs.flatMap fun c => if c.toNat = 0x130 then ['i', Char.ofNat 0x307] else [lowerChar c]) =
        cs := by
    intro cs hcs
    induction cs with
    | nil => rfl
    | cons c cs ih =>
        rw [List.flatMap_cons, hdigit c (hcs c List.mem_cons_self),
          ih fun other hother => hcs other (List.mem_cons_of_mem _ hother)]
        rfl
  exact hchars value.toList h

/-- A text of digits mentions no word with another letter. -/
theorem mentions_hex {cs : List Char} (h : ∀ c ∈ cs, c ∈ hexDigits) {marker : String}
    (hmarker : marker.toList.any (fun c => !hexDigits.contains c) = true) :
    mentions cs marker = false := by
  obtain ⟨c, hc, hother⟩ := List.any_eq_true.mp hmarker
  refine decide_eq_false fun hmentioned => ?_
  have hdigit := h c (hmentioned.subset hc)
  simp [hdigit] at hother

theorem isUnsafeText_hex {value : String} (h : ∀ c ∈ value.toList, c ∈ hexDigits) :
    isUnsafeText value = false := by
  have hnone : ∀ markers : List String,
      (markers.all fun marker => marker.toList.any fun c => !hexDigits.contains c) = true →
        markers.any (mentions value.toList) = false := by
    intro markers hmarkers
    rw [List.any_eq_false]
    intro marker hmarker
    rw [mentions_hex h (List.all_eq_true.mp hmarkers marker hmarker)]
    exact Bool.false_ne_true
  have hword : ∀ marker : String, (marker.toList.any fun c => !hexDigits.contains c) = true →
      mentions value.toList marker = false := fun marker hmarker => mentions_hex h hmarker
  rw [isUnsafeText_eq_false]
  refine ⟨?_, ?_, ?_⟩
  · rw [containsTokenMarker, lowered_hex h]
    simp only [hnone tokenMarkers (by decide), hword "bearer" (by decide),
      hword "sk-" (by decide), Bool.false_and, Bool.or_self]
  · rw [containsPrivateIdentifier, lowered_hex h]
    exact hnone privateIdentifierMarkers (by decide)
  · rw [looksLikeUnnecessaryAbsolutePath, lowered_hex h]
    simp only [hnone pathMarkers (by decide), hword ":\\" (by decide), Bool.false_and,
      Bool.or_self]

theorem containsControlCharacter_hex {value : String} (h : ∀ c ∈ value.toList, c ∈ hexDigits) :
    containsControlCharacter value = false := by
  have hdigits : (hexDigits.all fun c =>
      !(c.toNat == 10 || c.toNat == 13 || c.toNat == 9)) = true := by decide
  have hdigit : ∀ c ∈ hexDigits, (c.toNat == 10 || c.toNat == 13 || c.toNat == 9) = false :=
    fun c hc => Bool.not_eq_true' _ ▸ List.all_eq_true.mp hdigits c hc
  rw [containsControlCharacter, List.any_eq_false]
  intro c hc
  rw [hdigit c (h c hc)]
  exact Bool.false_ne_true

section Accepted

variable {library : StandardLibrary}

theorem safeIdentityLabel_eq_ok {value field result : String} :
    (telemetrySafety library).safeIdentityLabel value field = .ok result ↔
      containsControlCharacter value = false ∧ isUnsafeText value = false ∧ value = result := by
  simp only [SafetyChecks.safeIdentityLabel, check_bind_eq_ok, reject_eq_ok, telemetrySafety,
    isUnsafeText_eq_false, pure, Except.pure, Except.ok.injEq, and_assoc]

theorem safeSessionText_eq_ok {name value result : String} :
    (telemetrySafety library).safeSessionText name value = .ok result ↔
      isUnsafeText value = false ∧ value = result := by
  simp only [SafetyChecks.safeSessionText, check_bind_eq_ok, reject_eq_ok, telemetrySafety,
    isUnsafeText_eq_false, pure, Except.pure, Except.ok.injEq, and_assoc]

theorem safeOperation_eq_ok {value result : String} :
    (telemetrySafety library).safeOperation value = .ok result ↔
      containsControlCharacter value = false ∧ isUnsafeText value = false ∧ value = result := by
  simp only [SafetyChecks.safeOperation, check_bind_eq_ok, reject_eq_ok, telemetrySafety,
    isUnsafeText_eq_false, pure, Except.pure, Except.ok.injEq, and_assoc]

theorem safeSourceLabel_eq_ok {value result : String} :
    (telemetrySafety library).safeSourceLabel value = .ok result ↔
      value ≠ "runtime" ∧ containsControlCharacter value = false ∧ isUnsafeText value = false ∧
        value = result := by
  simp only [SafetyChecks.safeSourceLabel, check_bind_eq_ok, reject_eq_ok, telemetrySafety,
    isUnsafeText_eq_false, pure, Except.pure, Except.ok.injEq, and_assoc, beq_eq_false_iff_ne, ne_eq]

/-- A check that lets a value through lets its result through. -/
theorem Returns.again {check : String → Except String String} (hcheck : Returns check)
    {value result : String} (h : check value = .ok result) : check result = .ok result := by
  obtain rfl := hcheck h
  exact h

theorem safeOptionalTimestamp_again {checks : SafetyChecks} {value : Value} {field text : String}
    (h : checks.safeOptionalTimestamp value field = .ok (some text)) :
    checks.safeOptionalTimestamp (.str text) field = .ok (some text) := by
  have hne : text ≠ "" := fun hempty => safeOptionalTimestamp_ne_empty h (congrArg some hempty)
  have htruthy : (Value.str text).truthy = true := by simpa using hne
  unfold SafetyChecks.safeOptionalTimestamp at h ⊢
  rw [if_pos htruthy]
  split at h
  · obtain ⟨checked, hchecked, h⟩ := bind_ok_iff.mp h
    obtain ⟨⟨⟩, hiso, h⟩ := bind_ok_iff.mp h
    obtain rfl := Option.some.inj (Except.ok.inj h)
    exact bind_ok_iff.mpr ⟨checked, (returns_safeIdentityLabel field).again hchecked,
      bind_ok_iff.mpr ⟨(), hiso, rfl⟩⟩
  · cases h

theorem optionalLabel_some {value : Value} {check : String → Except String String}
    {result : Option String} (h : optionalLabel value check = .ok result) {text : String}
    (htext : text ∈ result) : value.truthy = true ∧ check value.text = .ok text := by
  unfold optionalLabel at h
  split at h
  · next htruthy =>
    cases hcheck : check value.text with
    | error message => simp [hcheck, Except.map] at h
    | ok checked =>
        rw [hcheck] at h
        obtain rfl := Except.ok.inj h
        obtain rfl := Option.some.inj htext
        exact ⟨htruthy, rfl⟩
  · obtain rfl := Except.ok.inj h
    cases htext

theorem eventDurationMs_nonneg {checks : SafetyChecks} {payload : Dict} {duration : Int}
    (h : eventDurationMs checks payload = .ok duration) : 0 ≤ duration := by
  unfold eventDurationMs at h
  split at h
  · obtain ⟨-, -, h⟩ := bind_ok_iff.mp h
    obtain ⟨found, -, h⟩ := bind_ok_iff.mp h
    obtain ⟨⟨⟩, hnegative, h⟩ := bind_ok_iff.mp h
    obtain rfl := Except.ok.inj h
    simpa using reject_ok hnegative
  · obtain ⟨⟨⟩, hnegative, h⟩ := bind_ok_iff.mp h
    obtain rfl := Except.ok.inj h
    simpa using reject_ok hnegative
  · cases h

/-- The fields that a stored event must have. -/
def requiredFields (event : ExternalTelemetryEvent) : List (String × String) :=
  [("schema_version", event.schemaVersion), ("source_session_id", event.sourceSessionId),
    ("event_id", event.eventId), ("kind", event.kind), ("operation", event.operation),
    ("status", event.status)]

/-- What normalizing makes sure of, as the loader checks it. -/
structure Accepted (library : StandardLibrary) (event : ExternalTelemetryEvent) : Prop where
  normalized : IsNormalized (telemetrySafety library) event
  source : (telemetrySafety library).safeSourceLabel event.source = .ok event.source
  source_ne_empty : event.source ≠ ""
  required : ∀ row ∈ requiredFields event, row.2 ≠ "" ∧
    sanitizeStoredIdentityField (telemetrySafety library) row.1 row.2 = .ok row.2
  duration : 0 ≤ event.durationMs
  startedAt : ∀ text ∈ event.startedAt,
    (telemetrySafety library).safeOptionalTimestamp (.str text) "started_at" = .ok (some text)
  endedAt : ∀ text ∈ event.endedAt,
    (telemetrySafety library).safeOptionalTimestamp (.str text) "ended_at" = .ok (some text)
  correlation : ∀ text ∈ event.correlationId,
    (telemetrySafety library).safeCorrelationId text = .ok text
  metadata : ∃ metadata, event.metadata = some metadata ∧ IsSafeValue metadata.toValue

theorem sessionText_ne_empty (value : Value) : sessionText value ≠ "" := by
  unfold sessionText
  split
  · split_ifs with hempty
    · decide
    · exact hempty
  · decide

theorem missingFields_eq_nil {payload : Dict} {sourceText : String}
    (h : missingFields payload sourceText = []) : sourceText ≠ "" ∧
      ∀ key ∈ ["kind", "operation", "status"], (payload.get key).truthy = true := by
  obtain ⟨hsource, hkeys⟩ := List.append_eq_nil_iff.mp h
  refine ⟨fun hempty => ?_, fun key hkey => ?_⟩
  · rw [if_pos hempty] at hsource
    cases hsource
  · simpa using List.filter_eq_nil_iff.mp hkeys key hkey

theorem textOr_ne_empty (payload : Dict) (key : String) {default : String} (h : default ≠ "") :
    payload.textOr key default ≠ "" := by
  unfold Dict.textOr Value.orElse
  split
  · next htruthy => exact Value.text_ne_empty htruthy
  · exact h

theorem deriveEventId_safe (event : ExternalTelemetryEvent) :
    (telemetrySafety library).safeIdentityLabel (deriveEventId (telemetrySafety library) event)
      "event_id" = .ok (deriveEventId (telemetrySafety library) event) :=
  safeIdentityLabel_eq_ok.mpr ⟨containsControlCharacter_hex (library.hexdigest_digits _),
    isUnsafeText_hex (library.hexdigest_digits _), rfl⟩

/-- Every event that a record is normalized to is accepted. -/
theorem accepted_normalizeExternalEvent {payload : Value} {declaredSource : String}
    {event : ExternalTelemetryEvent}
    (h : normalizeExternalEvent (telemetrySafety library) payload declaredSource = .ok event) :
    Accepted library event := by
  have hnormalized := isNormalized_normalizeExternalEvent h
  unfold normalizeExternalEvent at h
  obtain ⟨payload, -, h⟩ := bind_ok_iff.mp h
  obtain ⟨⟨⟩, hpresent, h⟩ := bind_ok_iff.mp h
  obtain ⟨source, hsource, h⟩ := bind_ok_iff.mp h
  obtain ⟨schemaVersion, hschema, h⟩ := bind_ok_iff.mp h
  obtain ⟨kind, hkind, h⟩ := bind_ok_iff.mp h
  obtain ⟨status, hstatus, h⟩ := bind_ok_iff.mp h
  obtain ⟨⟨⟩, hknownKind, h⟩ := bind_ok_iff.mp h
  obtain ⟨⟨⟩, hknownStatus, h⟩ := bind_ok_iff.mp h
  obtain ⟨durationMs, hduration, h⟩ := bind_ok_iff.mp h
  obtain ⟨metadata, hmetadata, h⟩ := bind_ok_iff.mp h
  obtain ⟨sourceSessionId, hsession, h⟩ := bind_ok_iff.mp h
  obtain ⟨operationValue, hoperationValue, h⟩ := bind_ok_iff.mp h
  obtain ⟨operation, hoperation, h⟩ := bind_ok_iff.mp h
  obtain ⟨startedAt, hstarted, h⟩ := bind_ok_iff.mp h
  obtain ⟨endedAt, hended, h⟩ := bind_ok_iff.mp h
  obtain ⟨correlationId, hcorrelation, h⟩ := bind_ok_iff.mp h
  obtain ⟨eventId, hevent, h⟩ := bind_ok_iff.mp h
  obtain rfl := Except.ok.inj h
  obtain ⟨hsourceText, htruthy⟩ := missingFields_eq_nil (by simpa using reject_ok hpresent)
  have hlabel : ∀ field, Returns ((telemetrySafety library).safeIdentityLabel · field) :=
    fun field => returns_safeIdentityLabel field
  have hsession' : Returns ((telemetrySafety library).safeSessionText "source_session_id") :=
    returns_safeSessionText _
  have hoperationText : payload.get "operation" = .str operationValue := by
    cases hvalue : payload.get "operation" with
    | str text =>
        rw [hvalue] at hoperationValue
        exact congrArg Value.str (Except.ok.inj hoperationValue)
    | _ =>
        rw [hvalue] at hoperationValue
        cases hoperationValue
  refine
    { normalized := hnormalized
      source := returns_safeSourceLabel.again hsource
      source_ne_empty := by
        show source ≠ ""
        rw [returns_safeSourceLabel hsource]
        exact hsourceText
      required := ?_
      duration := eventDurationMs_nonneg hduration
      startedAt := ?_
      endedAt := ?_
      correlation := ?_
      metadata := ?_ }
  · simp only [requiredFields, ExternalTelemetryEvent.fingerprinted, List.forall_mem_cons,
      List.not_mem_nil, false_imp_iff, implies_true, and_true]
    refine ⟨⟨?_, ?_⟩, ⟨?_, ?_⟩, ⟨?_, ?_⟩, ⟨?_, ?_⟩, ⟨?_, ?_⟩, ⟨?_, ?_⟩⟩
    · rw [hlabel _ hschema]
      exact textOr_ne_empty payload _ (by decide)
    · exact (hlabel _).again hschema
    · rw [hsession' hsession]
      exact sessionText_ne_empty _
    · exact hsession'.again hsession
    · cases eventId with
      | none => exact library.hexdigest_ne_empty _
      | some text =>
          obtain ⟨hgiven, htext⟩ := optionalLabel_some hevent rfl
          rw [Option.getD_some, hlabel _ htext]
          exact Value.text_ne_empty hgiven
    · cases eventId with
      | none => exact deriveEventId_safe _
      | some text => exact (hlabel _).again (optionalLabel_some hevent rfl).2
    · rw [hlabel _ hkind]
      exact Value.text_ne_empty (htruthy "kind" (by simp))
    · exact bind_ok_iff.mpr ⟨kind, (hlabel _).again hkind, bind_ok_iff.mpr ⟨(), hknownKind, rfl⟩⟩
    · have hgiven := htruthy "operation" (by simp)
      rw [hoperationText] at hgiven
      rw [returns_safeOperation hoperation]
      simpa using hgiven
    · exact returns_safeOperation.again hoperation
    · rw [hlabel _ hstatus]
      exact Value.text_ne_empty (htruthy "status" (by simp))
    · exact bind_ok_iff.mpr ⟨status, (hlabel _).again hstatus,
        bind_ok_iff.mpr ⟨(), hknownStatus, rfl⟩⟩
  · intro text htext
    obtain rfl : startedAt = some text := htext
    exact safeOptionalTimestamp_again hstarted
  · intro text htext
    obtain rfl : endedAt = some text := htext
    exact safeOptionalTimestamp_again hended
  · intro text htext
    exact (returns_safeSessionText _).again (optionalLabel_some hcorrelation htext).2
  · obtain ⟨hdict, hsafe⟩ := safeMetadata_eq_ok.mp hmetadata
    refine ⟨metadata, rfl, fun part hpart => hsafe part ?_⟩
    cases hvalue : metadataOf payload with
    | dict fields =>
        rw [hvalue] at hdict
        obtain rfl := Option.some.inj hdict
        rw [parts]
        exact mem_parts_ofFields hpart
    | _ =>
        rw [hvalue] at hdict
        cases hdict

theorem storedRequiredString_of_safe {checks : SafetyChecks} {payload : Dict}
    {field value : String} (hfield : payload.get field = .str value) (hne : value ≠ "")
    (hcheck : sanitizeStoredIdentityField checks field value = .ok value) :
    storedRequiredString checks payload field = .ok (some value) := by
  simp only [storedRequiredString, hfield, if_neg hne, hcheck, Except.map]

theorem storedOptionalTimestamp_of_safe {checks : SafetyChecks} {value : Option String}
    {field : String} (h : ∀ text ∈ value,
      checks.safeOptionalTimestamp (.str text) field = .ok (some text)) :
    storedOptionalTimestamp checks (optionalText value) field = .ok value := by
  cases value with
  | none => rfl
  | some text => exact h text rfl

theorem storedCorrelation_of_safe {checks : SafetyChecks} {value : Option String}
    (h : ∀ text ∈ value, checks.safeCorrelationId text = .ok text) :
    storedCorrelation checks (optionalText value) = .ok value := by
  cases value with
  | none => rfl
  | some text =>
      show (checks.safeCorrelationId text).map some = .ok (some text)
      rw [h text rfl]
      rfl

theorem get_metadata_toDict (event : ExternalTelemetryEvent) :
    event.toDict.get "metadata" = (event.metadata.getD ∅).toValue := by
  simp [ExternalTelemetryEvent.toDict, Dict.ofFields, Dict.get_insert]

/-- The loader gives an accepted event back. -/
theorem loadStoredExternalEvent_of_accepted {event : ExternalTelemetryEvent}
    (h : Accepted library event) :
    loadStoredExternalEvent (telemetrySafety library) event.toDict = .ok event := by
  obtain ⟨metadata, hmetadata, hsafe⟩ := h.metadata
  obtain ⟨esource, eschema, esession, eevent, ekind, eoperation, estatus, eduration, estarted,
    eended, ecorrelation, efingerprint⟩ := event.get_toDict
  have emetadata := get_metadata_toDict event
  have hrow : ∀ field value, (field, value) ∈ requiredFields event →
      event.toDict.get field = .str value →
      storedRequiredString (telemetrySafety library) event.toDict field = .ok (some value) :=
    fun field value hmem hget =>
      storedRequiredString_of_safe hget (h.required _ hmem).1 (h.required _ hmem).2
  have hsource : storedSource event.toDict = .ok event.source := by
    have htruthy : (Value.str event.source).truthy = true := by simpa using h.source_ne_empty
    simp only [storedSource, esource, htruthy]
    rfl
  have hduration : storedDuration (.int event.durationMs) = .ok event.durationMs := by
    have hnegative : decide (event.durationMs < 0) = false := by simpa using h.duration
    simp only [storedDuration, hnegative]
    rfl
  have hvalue : storedMetadata (telemetrySafety library) metadata.toValue = .ok metadata := by
    rw [storedMetadata, if_neg (by simp [Dict.toValue])]
    exact safeMetadata_eq_ok.mpr ⟨Value.toDict?_toValue metadata, hsafe⟩
  have hmissing : (!(missingStored [("schema_version", some event.schemaVersion),
      ("source_session_id", some event.sourceSessionId), ("event_id", some event.eventId),
      ("kind", some event.kind), ("operation", some event.operation),
      ("status", some event.status)]).isEmpty) = false := rfl
  unfold loadStoredExternalEvent
  simp only [hsource, h.source, hrow "schema_version" _ (by simp [requiredFields]) eschema,
    hrow "source_session_id" _ (by simp [requiredFields]) esession,
    hrow "event_id" _ (by simp [requiredFields]) eevent,
    hrow "kind" _ (by simp [requiredFields]) ekind,
    hrow "operation" _ (by simp [requiredFields]) eoperation,
    hrow "status" _ (by simp [requiredFields]) estatus, hmissing, eduration, hduration, emetadata,
    hmetadata, Option.getD_some, hvalue, estarted, storedOptionalTimestamp_of_safe h.startedAt,
    eended, storedOptionalTimestamp_of_safe h.endedAt, ecorrelation,
    storedCorrelation_of_safe h.correlation, efingerprint, bind, Except.bind, reject,
    storedFingerprint, Bool.false_eq_true, if_false]
  have hsame : ({ event with metadata := some metadata } : ExternalTelemetryEvent) = event := by
    rw [← hmetadata]
  have hfingerprint : event.eventFingerprint =
      eventFingerprint (telemetrySafety library) { event with metadata := some metadata } := by
    rw [hsame]
    exact h.normalized.fingerprint
  rw [if_pos hfingerprint, hsame]
  rfl

/-- The metadata that is read back. -/
def Dict.throughJson (d : Dict) : Dict := Dict.ofFields (Value.throughJsonFields d.toList)

theorem toValue_throughJson (d : Dict) : d.toValue.throughJson = d.throughJson.toValue := by
  rw [Dict.toValue, Value.throughJson, Dict.throughJson]

theorem readBack_toDict (event : ExternalTelemetryEvent) : readBack event.toDict =
    some { event with metadata := some (event.metadata.getD ∅).throughJson }.toDict := by
  have hoptional : ∀ text : Option String, (optionalText text).throughJson = optionalText text := by
    intro text
    cases text <;> simp [optionalText, Value.throughJson]
  unfold ExternalTelemetryEvent.toDict
  rw [readBack_ofFields]
  simp only [List.map_cons, List.map_nil, Value.throughJson, hoptional, toValue_throughJson,
    Option.getD_some]

/-- Events are equal, with metadata compared by `==`. -/
def ExternalTelemetryEvent.PyEq (event other : ExternalTelemetryEvent) : Prop :=
  { event with metadata := none } = { other with metadata := none } ∧
    event.metadata.map (·.toValue.canon) = other.metadata.map (·.toValue.canon)

/-- An accepted event stays accepted when its metadata are written and read back. -/
theorem Accepted.throughJson {event : ExternalTelemetryEvent} {metadata : Dict}
    (h : Accepted library event) (hmetadata : event.metadata = some metadata) :
    Accepted library { event with metadata := some metadata.throughJson } where
  normalized := ⟨h.normalized.fingerprint, h.normalized.startedAt, h.normalized.endedAt⟩
  source := h.source
  source_ne_empty := h.source_ne_empty
  required := h.required
  duration := h.duration
  startedAt := h.startedAt
  endedAt := h.endedAt
  correlation := h.correlation
  metadata := by
    obtain ⟨found, hfound, hsafe⟩ := h.metadata
    obtain rfl : metadata = found := Option.some.inj (hmetadata.symm.trans hfound)
    refine ⟨_, rfl, fun part hpart => hsafe part ?_⟩
    rw [← toValue_throughJson] at hpart
    exact mem_parts_throughJson _ (fun instant hinstant => (hsafe _ hinstant).2 instant rfl) hpart

/-- A stored event is neither refused nor changed when it is read back. -/
theorem stored_event_round_trip {payload : Value} {declaredSource : String}
    {event : ExternalTelemetryEvent}
    (h : normalizeExternalEvent (telemetrySafety library) payload declaredSource = .ok event) :
    ∃ stored loaded, readBack event.toDict = some stored ∧
      loadStoredExternalEvent (telemetrySafety library) stored = .ok loaded ∧
      loaded.PyEq event ∧ loaded.eventFingerprint = event.eventFingerprint ∧
      loaded.identity = event.identity := by
  have haccepted := accepted_normalizeExternalEvent h
  obtain ⟨metadata, hmetadata, hsafe⟩ := haccepted.metadata
  have hread := readBack_toDict event
  rw [hmetadata, Option.getD_some] at hread
  refine ⟨_, { event with metadata := some metadata.throughJson }, hread,
    loadStoredExternalEvent_of_accepted (haccepted.throughJson hmetadata), ⟨rfl, ?_⟩, rfl, rfl⟩
  have hcanon := canon_throughJson metadata.toValue fun instant hinstant =>
    (hsafe _ hinstant).2 instant rfl
  rw [toValue_throughJson] at hcanon
  rw [hmetadata, Option.map_some, Option.map_some, hcanon]

end Accepted

/-- What the standard library gives for one record. -/
def sampleLibrary : StandardLibrary where
  isIsoTimestamp text := text = "2026-01-01T00:00:00Z" ∨ text = "2026-01-01T00:00:05Z"
  millisecondsBetween started ended :=
    if started = "2026-01-01T00:00:00Z" ∧ ended = "2026-01-01T00:00:05Z" then .ok 5000
    else .error "started_at and ended_at must be ISO timestamps"
  hexdigest _ := "bb1b6faf9009d23e9e7a4834cb0ee8cf93f40dd1ba6258389056cb0766c79db0"
  hexdigest_ne_empty _ := by decide
  hexdigest_digits _ := mem_hexDigits_of_all (by decide)

def samplePayload : Value :=
  .dict [("event_id", .str "one"), ("source_session_id", .str "session-1"),
    ("kind", .str "command"), ("operation", .str "tests"), ("status", .str "success"),
    ("started_at", .str "2026-01-01T00:00:00Z"), ("ended_at", .str "2026-01-01T00:00:05Z"),
    ("metadata", .dict [("suite", .str "core"),
      ("counts", .dict [("passed", .int 12), ("failed", .list [.int 1, .null])])])]

theorem stored_event_round_trip_sample : ∃ event stored loaded,
    normalizeExternalEvent (telemetrySafety sampleLibrary) samplePayload "agent" = .ok event ∧
      readBack event.toDict = some stored ∧
      loadStoredExternalEvent (telemetrySafety sampleLibrary) stored = .ok loaded ∧
      loaded.PyEq event ∧ loaded.eventFingerprint = event.eventFingerprint ∧
      loaded.identity = event.identity := by
  have hok : (normalizeExternalEvent (telemetrySafety sampleLibrary) samplePayload
      "agent").isOk = true := by decide +kernel
  cases hnormalized : normalizeExternalEvent (telemetrySafety sampleLibrary) samplePayload
      "agent" with
  | error message =>
      rw [hnormalized] at hok
      cases hok
  | ok event =>
      obtain ⟨stored, loaded, hstored⟩ := stored_event_round_trip hnormalized
      exact ⟨event, stored, loaded, rfl, hstored⟩

end GhAddressCr
