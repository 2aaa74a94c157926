import GhAddressCr.TelemetryImport
import GhAddressCr.TelemetryRoundTrip

/-!
# Unsafe telemetry is not stored

Whatever is imported, and wherever an import crashes, no text at any depth of a stored event has
unsafe content. An import one of whose records is refused as unsafe stores nothing; a record that
is refused as malformed before its unsafe text is looked at does not stop the import.
-/
namespace GhAddressCr.TelemetryImport

open PyText SeparatedLines TelemetrySafety

/-- The text of a part, if it is one. -/
def stringOf : Part → Option String
  | .key name => some name
  | .text text => some text
  | .instant _ => none

/-- The keys and the texts of a value, at any depth. -/
def stringsOf (value : Value) : List String := (parts value).filterMap stringOf

/-- No text of the event has a token marker, a private identifier or an absolute path. -/
def SafeEvent (event : ExternalTelemetryEvent) : Prop :=
  ∀ text ∈ stringsOf event.toDict.toValue, containsTokenMarker text = false ∧
    containsPrivateIdentifier text = false ∧ looksLikeUnnecessaryAbsolutePath text = false

section Events

variable {library : StandardLibrary}

theorem isUnsafeText_of_sanitized {field value : String}
    (h : sanitizeStoredIdentityField (telemetrySafety library) field value = .ok value) :
    isUnsafeText value = false := by
  unfold sanitizeStoredIdentityField at h
  split_ifs at h
  · obtain ⟨kind, hkind, -⟩ := bind_ok_iff.mp h
    exact (safeIdentityLabel_eq_ok.mp hkind).2.1
  · obtain ⟨status, hstatus, -⟩ := bind_ok_iff.mp h
    exact (safeIdentityLabel_eq_ok.mp hstatus).2.1
  · exact (safeSessionText_eq_ok.mp h).1
  · exact (safeOperation_eq_ok.mp h).2.1
  · exact (safeIdentityLabel_eq_ok.mp h).2.1

theorem isUnsafeText_of_timestamp {text field : String} {result : Option String}
    (htruthy : text ≠ "")
    (h : (telemetrySafety library).safeOptionalTimestamp (.str text) field = .ok result) :
    isUnsafeText text = false := by
  have htruthy' : (Value.str text).truthy = true := by simpa using htruthy
  unfold SafetyChecks.safeOptionalTimestamp at h
  rw [if_pos htruthy'] at h
  obtain ⟨checked, hchecked, -⟩ := bind_ok_iff.mp h
  exact (safeIdentityLabel_eq_ok.mp hchecked).2.1

/-- The part has no unsafe content. -/
def Part.HoldsNothingUnsafe (part : Part) : Prop :=
  ∀ text ∈ stringOf part, isUnsafeText text = false

theorem holdsNothingUnsafe_of_isSafe {part : Part} (h : part.IsSafe) :
    Part.HoldsNothingUnsafe part := by
  intro text htext
  cases part with
  | key name =>
      obtain rfl := Option.some.inj htext
      exact h.2.1
  | text value =>
      obtain rfl := Option.some.inj htext
      exact h
  | instant time => cases htext

/-- The names of the fields of an event. -/
def eventFieldNames : List String :=
  ["schema_version", "source", "source_session_id", "event_id", "kind", "operation", "status",
    "duration_ms", "started_at", "ended_at", "metadata", "correlation_id", "event_fingerprint"]

theorem isUnsafeText_eventFieldNames : ∀ name ∈ eventFieldNames, isUnsafeText name = false := by
  decide +kernel

theorem holdsNothingUnsafe_fields {fields : List (String × Value)} {part : Part}
    (h : ∀ field ∈ fields, field.1 ∈ eventFieldNames ∧
      ∀ part ∈ parts field.2, Part.HoldsNothingUnsafe part)
    (hpart : part ∈ partsOfFields fields) : Part.HoldsNothingUnsafe part := by
  obtain ⟨field, hfield, rfl | hvalue⟩ := mem_partsOfFields.mp hpart
  · intro text htext
    obtain rfl := Option.some.inj htext
    exact isUnsafeText_eventFieldNames _ (h field hfield).1
  · exact (h field hfield).2 part hvalue

theorem holdsNothingUnsafe_optionalText {text : Option String}
    (h : ∀ value ∈ text, isUnsafeText value = false) :
    ∀ part ∈ parts (optionalText text), Part.HoldsNothingUnsafe part := by
  intro part hpart
  cases text with
  | none => simp [optionalText, parts] at hpart
  | some value =>
      obtain rfl : part = .text value := by simpa [optionalText, parts] using hpart
      intro found hfound
      obtain rfl := Option.some.inj hfound
      exact h value rfl

theorem holdsNothingUnsafe_str {value : String} (h : isUnsafeText value = false) :
    ∀ part ∈ parts (.str value), Part.HoldsNothingUnsafe part := by
  have hsome : ∀ found ∈ some value, isUnsafeText found = false := by simpa using h
  exact holdsNothingUnsafe_optionalText hsome

/-- Every text of an accepted event has been checked. -/
theorem safeEvent_of_accepted {event : ExternalTelemetryEvent} (h : Accepted library event) :
    SafeEvent event := by
  obtain ⟨metadata, hmetadata, hsafe⟩ := h.metadata
  have hrequired : ∀ field value, (field, value) ∈ requiredFields event →
      ∀ part ∈ parts (.str value), Part.HoldsNothingUnsafe part := fun field value hmem =>
    holdsNothingUnsafe_str (isUnsafeText_of_sanitized (h.required (field, value) hmem).2)
  have hdigest : isUnsafeText event.eventFingerprint = false := by
    rw [h.normalized.fingerprint]
    exact isUnsafeText_hex (library.hexdigest_digits _)
  have hmetadataParts : ∀ part ∈ parts (event.metadata.getD ∅).toValue,
      Part.HoldsNothingUnsafe part := by
    rw [hmetadata]
    exact fun part hpart => holdsNothingUnsafe_of_isSafe (hsafe part hpart).1
  have hstarted := holdsNothingUnsafe_optionalText fun text htext =>
    isUnsafeText_of_timestamp (fun hempty => h.normalized.startedAt (hempty ▸ htext))
      (h.startedAt text htext)
  have hended := holdsNothingUnsafe_optionalText fun text htext =>
    isUnsafeText_of_timestamp (fun hempty => h.normalized.endedAt (hempty ▸ htext))
      (h.endedAt text htext)
  have hcorrelation := holdsNothingUnsafe_optionalText fun text htext =>
    (safeSessionText_eq_ok.mp (h.correlation text htext)).1
  have hrow := fun field value hmem => hrequired field value (by simpa [requiredFields] using hmem)
  have hsource := holdsNothingUnsafe_str (safeSourceLabel_eq_ok.mp h.source).2.2.1
  have hparts : ∀ part ∈ parts event.toDict.toValue, Part.HoldsNothingUnsafe part := by
    intro part hpart
    have hfields := mem_parts_ofFields hpart
    refine holdsNothingUnsafe_fields ?_ hfields
    simp only [List.forall_mem_cons, List.not_mem_nil, false_imp_iff, implies_true, and_true]
    refine ⟨?_, ?_, ?_, ?_, ?_, ?_, ?_, ?_, ?_, ?_, ?_, ?_, ?_⟩
    · exact ⟨by simp [eventFieldNames], hrow "schema_version" _ (by simp)⟩
    · exact ⟨by simp [eventFieldNames], hsource⟩
    · exact ⟨by simp [eventFieldNames], hrow "source_session_id" _ (by simp)⟩
    · exact ⟨by simp [eventFieldNames], hrow "event_id" _ (by simp)⟩
    · exact ⟨by simp [eventFieldNames], hrow "kind" _ (by simp)⟩
    · exact ⟨by simp [eventFieldNames], hrow "operation" _ (by simp)⟩
    · exact ⟨by simp [eventFieldNames], hrow "status" _ (by simp)⟩
    · exact ⟨by simp [eventFieldNames], by simp [parts]⟩
    · exact ⟨by simp [eventFieldNames], hstarted⟩
    · exact ⟨by simp [eventFieldNames], hended⟩
    · exact ⟨by simp [eventFieldNames], hmetadataParts⟩
    · exact ⟨by simp [eventFieldNames], hcorrelation⟩
    · exact ⟨by simp [eventFieldNames], holdsNothingUnsafe_str hdigest⟩
  intro text htext
  obtain ⟨part, hpart, hstring⟩ := List.mem_filterMap.mp htext
  exact isUnsafeText_eq_false.mp (hparts part hpart text hstring)

theorem safeEvent_of_isNormalForm {event : ExternalTelemetryEvent}
    (h : IsNormalForm (telemetrySafety library) event) : SafeEvent event := by
  obtain ⟨payload, source, hevent⟩ := h
  exact safeEvent_of_accepted (accepted_normalizeExternalEvent hevent)

end Events

namespace EventStore

theorem mem_write {store : EventStore} {line : StoredLine} {ended : Bool}
    {event : ExternalTelemetryEvent} (h : .event event ∈ (store.write line ended).lines) :
    .event event ∈ store.lines ∨ line = .event event := by
  unfold write at h
  split at h
  · rcases List.mem_append.mp h with hold | hnew
    · exact Or.inl hold
    · exact Or.inr (List.mem_singleton.mp hnew).symm
  · rcases List.mem_append.mp h with hold | hnew
    · exact Or.inl (List.dropLast_subset _ hold)
    · cases List.mem_singleton.mp hnew

theorem mem_append {store : EventStore} {events : List ExternalTelemetryEvent}
    {event : ExternalTelemetryEvent} (h : .event event ∈ (store.append events).lines) :
    .event event ∈ store.lines ∨ event ∈ events := by
  induction events generalizing store with
  | nil => exact Or.inl h
  | cons first events ih =>
      rcases ih h with hwritten | hrest
      · rcases mem_write hwritten with hold | hnew
        · exact Or.inl hold
        · exact Or.inr (StoredLine.event.inj hnew ▸ List.mem_cons_self)
      · exact Or.inr (List.mem_cons_of_mem _ hrest)

/-- A crash stores whole events of the import, or none. -/
theorem mem_appendPart {store : EventStore} {events : List ExternalTelemetryEvent} {written : Nat}
    {fragment : Fragment} {event : ExternalTelemetryEvent}
    (h : .event event ∈ (store.appendPart events written fragment).lines) :
    .event event ∈ store.lines ∨ event ∈ events := by
  have htaken : .event event ∈ (store.append (events.take written)).lines →
      .event event ∈ store.lines ∨ event ∈ events := fun hmem =>
    (mem_append hmem).imp id fun hevent => List.mem_of_mem_take hevent
  unfold appendPart at h
  simp only at h
  split at h
  · exact htaken h
  · next next rest hdrop =>
    have hnext : next ∈ events := List.mem_of_mem_drop (hdrop ▸ List.mem_cons_self)
    split at h
    · exact htaken h
    · rcases mem_write h with hold | hnew
      · exact htaken hold
      · cases hnew
    · rcases mem_write h with hold | hnew
      · exact htaken hold
      · exact Or.inr (StoredLine.event.inj hnew ▸ hnext)

end EventStore

section Stored

variable {checks : SafetyChecks} {loads : String → Except String Value}
  {getAdapter : String → String → Option TelemetryAdapter}

/-- The stored events that were not there before are normalized events of the import. -/
theorem mem_commit {files : Files} {source fmt raw : String} {commit : Commit}
    (hcommit : (importOutcome checks loads getAdapter files source fmt raw).commit = some commit)
    {event : ExternalTelemetryEvent} (hevent : event ∈ commit.events) :
    IsNormalForm checks event := by
  rcases importOutcome_cases checks loads getAdapter files source fmt raw with
    ⟨hnone, -⟩ | ⟨existing, valid, processed, -, hvalid, hp, ho, -⟩
  · rw [hnone] at hcommit
    cases hcommit
  · rw [ho] at hcommit
    obtain rfl := outcomeOf_commit hcommit
    exact hvalid event (hp.fromInput event hevent)

theorem mem_step {files files' : Files} {label : Label}
    (hstep : step checks loads getAdapter files label = some files')
    {event : ExternalTelemetryEvent} (hevent : .event event ∈ files'.events.lines) :
    .event event ∈ files.events.lines ∨ IsNormalForm checks event := by
  have hfiles : ∀ source fmt raw, .event event ∈ (files.commit
      (importOutcome checks loads getAdapter files source fmt raw).commit).events.lines →
        .event event ∈ files.events.lines ∨ IsNormalForm checks event := by
    intro source fmt raw hmem
    cases hcommit : (importOutcome checks loads getAdapter files source fmt raw).commit with
    | none =>
        rw [hcommit] at hmem
        exact Or.inl hmem
    | some commit =>
        rw [hcommit] at hmem
        exact (EventStore.mem_append hmem).imp id (mem_commit hcommit)
  cases label with
  | imported source fmt raw =>
      obtain rfl := Option.some.inj hstep
      exact hfiles source fmt raw hevent
  | crashed source fmt raw point =>
      obtain rfl := Option.some.inj hstep
      unfold crash at hevent
      cases hcommit : (importOutcome checks loads getAdapter files source fmt raw).commit with
      | none =>
          rw [hcommit] at hevent
          exact Or.inl hevent
      | some commit =>
          rw [hcommit] at hevent
          cases point with
          | beforeWrites => exact Or.inl hevent
          | afterFingerprints written fragment =>
              exact (EventStore.mem_appendPart hevent).imp id (mem_commit hcommit)
          | afterAppend => exact (EventStore.mem_append hevent).imp id (mem_commit hcommit)

/-- The record is refused as unsafe: the first check that it fails is a safety check. -/
def RefusedAsUnsafe (result : Except String ExternalTelemetryEvent) : Prop :=
  ∃ message, result = .error message ∧ message.startsWith "UNSAFE:" = true

variable (checks loads) in
/-- A record of the input is refused as unsafe, by the adapter or after it. -/
def HasUnsafeRecord (raw source : String) : TelemetryAdapter → Prop
  | .genericAgentJsonl => ∃ line ∈ splitLines isLineEnd (universalNewlines raw.toList),
      stripChars line ≠ [] ∧ ∃ payload, loads (String.ofList line) = .ok payload ∧
        RefusedAsUnsafe (normalizeExternalEvent checks payload source)
  | .registered parse => ∃ result, parse raw source = .ok result ∧ (result.unsafeSeen = true ∨
      ∃ event ∈ result.events,
        RefusedAsUnsafe (normalizeExternalEvent checks event.toDict.toValue source))

theorem parseLine_unsafeSeen {source : String} {before : TelemetryParseResult}
    {line : List Char × Nat} (h : before.unsafeSeen = true) :
    (parseLine checks loads source before line).unsafeSeen = true := by
  unfold parseLine
  simp only
  split
  · exact h
  · split
    · exact h
    · unfold ofNormalized
      split
      · exact h
      · split
        · rfl
        · exact h

theorem parseLine_refused {source : String} {before : TelemetryParseResult} {line : List Char}
    {number : Nat} {payload : Value} (hblank : stripChars line ≠ [])
    (hloads : loads (String.ofList line) = .ok payload)
    (hrefused : RefusedAsUnsafe (normalizeExternalEvent checks payload source)) :
    (parseLine checks loads source before (line, number)).unsafeSeen = true := by
  obtain ⟨message, hmessage, hunsafe⟩ := hrefused
  unfold parseLine
  simp only [if_neg hblank, hloads, ofNormalized, hmessage]
  rw [if_pos hunsafe]

theorem parseGeneric_unsafeSeen {raw source : String}
    (h : HasUnsafeRecord checks loads raw source .genericAgentJsonl) :
    (parseGeneric checks loads raw source).unsafeSeen = true := by
  obtain ⟨line, hline, hblank, payload, hloads, hrefused⟩ := h
  unfold parseGeneric
  have hnumbered : ∃ number, (line, number) ∈
      (splitLines isLineEnd (universalNewlines raw.toList)).zipIdx 1 := by
    rw [← List.zipIdx_map_fst 1 (splitLines isLineEnd (universalNewlines raw.toList))] at hline
    obtain ⟨⟨found, number⟩, hmem, rfl⟩ := List.mem_map.mp hline
    exact ⟨number, hmem⟩
  obtain ⟨number, hmem⟩ := hnumbered
  generalize (splitLines isLineEnd (universalNewlines raw.toList)).zipIdx 1 = lines at hmem
  have hkept : ∀ (rest : List (List Char × Nat)) (before : TelemetryParseResult),
      before.unsafeSeen = true →
        (rest.foldl (parseLine checks loads source) before).unsafeSeen = true := by
    intro rest
    induction rest with
    | nil => exact fun before h => h
    | cons first rest ih => exact fun before h => ih _ (parseLine_unsafeSeen h)
  obtain ⟨before, after, rfl⟩ := List.append_of_mem hmem
  rw [List.foldl_append, List.foldl_cons]
  exact hkept after _ (parseLine_refused hblank hloads hrefused)

theorem processEvent_unsafeSeen {trusted : Bool} {source : String} {before : ProcessedEvents}
    {indexed : ExternalTelemetryEvent × Nat} (h : before.unsafeSeen = true) :
    (processEvent checks trusted source before indexed).unsafeSeen = true := by
  unfold processEvent
  simp only
  split
  · split
    · rfl
    · exact h
  · split
    · exact h
    · exact h

theorem processEvent_refused {trusted : Bool} {source : String} {before : ProcessedEvents}
    {event : ExternalTelemetryEvent} {number : Nat}
    (hrefused : RefusedAsUnsafe (normalized checks trusted source event)) :
    (processEvent checks trusted source before (event, number)).unsafeSeen = true := by
  obtain ⟨message, hmessage, hunsafe⟩ := hrefused
  unfold processEvent
  simp only [hmessage]
  rw [if_pos hunsafe]

theorem processImportedEvents_unsafeSeen {trusted : Bool} {source : String}
    {existing : Finset String} {result : TelemetryParseResult}
    (h : result.unsafeSeen = true ∨
      ∃ event ∈ result.events, RefusedAsUnsafe (normalized checks trusted source event)) :
    (processImportedEvents checks trusted source existing result).unsafeSeen = true := by
  have hkept : ∀ (rest : List (ExternalTelemetryEvent × Nat)) (before : ProcessedEvents),
      before.unsafeSeen = true →
        (rest.foldl (processEvent checks trusted source) before).unsafeSeen = true := by
    intro rest
    induction rest with
    | nil => exact fun before h => h
    | cons first rest ih => exact fun before h => ih _ (processEvent_unsafeSeen h)
  unfold processImportedEvents
  rcases h with hseen | ⟨event, hevent, hrefused⟩
  · exact hkept _ _ hseen
  · rw [← List.zipIdx_map_fst 0 result.events] at hevent
    obtain ⟨⟨found, number⟩, hmem, rfl⟩ := List.mem_map.mp hevent
    generalize result.events.zipIdx = rows at hmem
    obtain ⟨before, after, rfl⟩ := List.append_of_mem hmem
    rw [List.foldl_append, List.foldl_cons]
    exact hkept after _ (processEvent_refused hrefused)

theorem outcomeOf_unsafeSeen {processed : ProcessedEvents} (h : processed.unsafeSeen = true) :
    (outcomeOf processed).commit = none := by
  simp [outcomeOf, h]

/-- An import one of whose records is refused as unsafe writes no events. -/
theorem importOutcome_unsafe {files : Files} {source fmt raw : String} {adapter : TelemetryAdapter}
    (hadapter : getAdapter fmt source = some adapter)
    (h : HasUnsafeRecord checks loads raw source adapter) :
    (importOutcome checks loads getAdapter files source fmt raw).commit = none := by
  unfold importOutcome
  rw [hadapter]
  cases hload : loadImportState checks files with
  | error diagnostics => rfl
  | ok existing =>
      cases adapter with
      | genericAgentJsonl =>
          refine outcomeOf_unsafeSeen (processImportedEvents_unsafeSeen (Or.inl ?_))
          exact parseGeneric_unsafeSeen h
      | registered parse =>
          obtain ⟨result, hparse, hunsafe⟩ := h
          have hresult : TelemetryAdapter.parse checks loads raw source (.registered parse) =
              .ok result := hparse
          simp only [hresult]
          exact outcomeOf_unsafeSeen (processImportedEvents_unsafeSeen hunsafe)

end Stored

/-- No reachable store holds an event with unsafe content, and an import one of whose records is
refused as unsafe adds no event, wherever it crashes. -/
theorem unsafe_telemetry_not_stored (library : StandardLibrary)
    (loads : String → Except String Value)
    (getAdapter : String → String → Option TelemetryAdapter) {files : Files}
    (hreach : (imports (telemetrySafety library) loads getAdapter).Reachable files) :
    (∀ event, .event event ∈ files.events.lines → SafeEvent event) ∧
      ∀ source fmt raw adapter, getAdapter fmt source = some adapter →
        HasUnsafeRecord (telemetrySafety library) loads raw source adapter →
        (importExternalTelemetry (telemetrySafety library) loads getAdapter files source fmt
            raw).1.events = files.events ∧
          ∀ point, (crash files (importOutcome (telemetrySafety library) loads getAdapter files
            source fmt raw) point).events = files.events := by
  constructor
  · refine hreach.invariant
      (fun files => ∀ event, .event event ∈ files.events.lines → SafeEvent event) ?_ ?_
    · rintro files rfl event hevent
      cases hevent
    · intro files label files' hsafe hstep event hevent
      rcases mem_step hstep hevent with hold | hnew
      · exact hsafe event hold
      · exact safeEvent_of_isNormalForm hnew
  · intro source fmt raw adapter hadapter hunsafe
    have hcommit : (importOutcome (telemetrySafety library) loads getAdapter files source fmt
        raw).commit = none := importOutcome_unsafe hadapter hunsafe
    constructor
    · simp only [importExternalTelemetry, hcommit, Files.commit]
    · intro point
      simp only [crash, hcommit]

/-- What the standard library gives for the event of the sample record. -/
def recordLibrary : StandardLibrary :=
  { sampleLibrary with
    hexdigest := fun _ => "8a0d6d1c73e1ae1a1e3cf3812ebe38c60acda3fe0e82ea8b878da9a590169e8d"
    hexdigest_ne_empty := fun _ => by decide
    hexdigest_digits := fun _ => mem_hexDigits_of_all (by decide) }

/-- A record whose operation has a token, of some kind. -/
def tokenLine (kind : String) : String :=
  "\x7b\"kind\": \"" ++ kind ++ "\", \"operation\": \"push ghp_1\", " ++
    "\"status\": \"success\", \"duration_ms\": 5\x7d"

def tokenPayload (kind : String) : Value :=
  .dict [("kind", .str kind), ("operation", .str "push ghp_1"), ("status", .str "success"),
    ("duration_ms", .int 5)]

/-- `json.loads` on these lines. -/
def loadsSamples (text : String) : Except String Value :=
  if text = recordLine "one" then .ok (recordPayload "one")
  else if text = tokenLine "command" then .ok (tokenPayload "command")
  else if text = tokenLine "chat" then .ok (tokenPayload "chat")
  else .error "Expecting value"

def importSamples (files : Files) (raw : String) : Files :=
  (importExternalTelemetry (telemetrySafety recordLibrary) loadsSamples packageAdapters files
    "agent" "agent-jsonl" raw).1

/-- A record that is refused for its kind does not stop the import, though its operation has a
token. -/
theorem malformed_record_hides_token :
    (tokenPayload "chat").field "operation" = .str "push ghp_1" ∧
      containsTokenMarker "push ghp_1" = true ∧
      (importSamples {} (tokenLine "chat" ++ "\n" ++ recordLine "one")).events.lines.length = 1 := by
  decide +kernel

theorem unsafe_telemetry_not_stored_sample :
    (importSamples {} (recordLine "one")).events.lines.length = 1 ∧
      (∀ event, .event event ∈ (importSamples {} (recordLine "one")).events.lines →
        SafeEvent event) ∧
      (importSamples (importSamples {} (recordLine "one"))
          (recordLine "one" ++ "\n" ++ tokenLine "command")).events =
        (importSamples {} (recordLine "one")).events := by
  have hreach : (imports (telemetrySafety recordLibrary) loadsSamples packageAdapters).Reachable
      (importSamples {} (recordLine "one")) :=
    .next (TransitionSystem.Reachable.start rfl)
      (rfl : step (telemetrySafety recordLibrary) loadsSamples packageAdapters {}
        (.imported "agent" "agent-jsonl" (recordLine "one")) =
          some (importSamples {} (recordLine "one")))
  obtain ⟨hsafe, hrefused⟩ := unsafe_telemetry_not_stored recordLibrary loadsSamples
    packageAdapters hreach
  have hline : (tokenLine "command").toList ∈ splitLines isLineEnd
      (universalNewlines (recordLine "one" ++ "\n" ++ tokenLine "command").toList) := by
    decide +kernel
  have hunsafe : HasUnsafeRecord (telemetrySafety recordLibrary) loadsSamples
      (recordLine "one" ++ "\n" ++ tokenLine "command") "agent" .genericAgentJsonl := by
    refine ⟨_, hline, by decide +kernel, tokenPayload "command", by decide +kernel,
      "UNSAFE:unsafe operation label", ?_, by decide +kernel⟩
    decide +kernel
  refine ⟨by decide +kernel, hsafe, ?_⟩
  exact (hrefused "agent" "agent-jsonl" _ .genericAgentJsonl rfl hunsafe).1

end GhAddressCr.TelemetryImport
