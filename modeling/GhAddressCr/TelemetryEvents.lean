import GhAddressCr.EvidenceLedger

/-!
# External telemetry events

How a record of a host becomes a normalized event, how the event is stored, and how it is read
back from the store. Both ways check the same texts, so an event keeps its identity.
-/
namespace GhAddressCr

open PyText

structure ExternalTelemetryEvent where
  schemaVersion : String
  source : String
  sourceSessionId : String
  eventId : String
  kind : String
  operation : String
  status : String
  durationMs : Int
  startedAt : Option String := none
  endedAt : Option String := none
  metadata : Option Dict := none
  correlationId : Option String := none
  eventFingerprint : String := ""
  deriving DecidableEq

namespace ExternalTelemetryEvent

def identity (event : ExternalTelemetryEvent) : String :=
  if event.eventFingerprint ≠ "" then event.eventFingerprint
  else event.source ++ ":" ++ event.sourceSessionId ++ ":" ++ event.eventId

def toDict (event : ExternalTelemetryEvent) : Dict :=
  Dict.ofFields [
    ("schema_version", .str event.schemaVersion),
    ("source", .str event.source),
    ("source_session_id", .str event.sourceSessionId),
    ("event_id", .str event.eventId),
    ("kind", .str event.kind),
    ("operation", .str event.operation),
    ("status", .str event.status),
    ("duration_ms", .int event.durationMs),
    ("started_at", optionalText event.startedAt),
    ("ended_at", optionalText event.endedAt),
    ("metadata", (event.metadata.getD ∅).toValue),
    ("correlation_id", optionalText event.correlationId),
    ("event_fingerprint", .str event.eventFingerprint)]

/-- What is read back of an event's record. -/
theorem get_toDict (event : ExternalTelemetryEvent) :
    event.toDict.get "source" = .str event.source ∧
      event.toDict.get "schema_version" = .str event.schemaVersion ∧
      event.toDict.get "source_session_id" = .str event.sourceSessionId ∧
      event.toDict.get "event_id" = .str event.eventId ∧
      event.toDict.get "kind" = .str event.kind ∧
      event.toDict.get "operation" = .str event.operation ∧
      event.toDict.get "status" = .str event.status ∧
      event.toDict.get "duration_ms" = .int event.durationMs ∧
      event.toDict.get "started_at" = optionalText event.startedAt ∧
      event.toDict.get "ended_at" = optionalText event.endedAt ∧
      event.toDict.get "correlation_id" = optionalText event.correlationId ∧
      event.toDict.get "event_fingerprint" = .str event.eventFingerprint := by
  simp [toDict, Dict.ofFields, Dict.get_insert]

end ExternalTelemetryEvent

def safeStatuses : List String := ["success", "failure", "timeout", "cancelled", "unknown"]

def safeKinds : List String := ["tool_call", "command", "wait", "retry", "validation", "agent_step"]

/-- The searches of `telemetry_safety`, and what `datetime` and the digests say of texts. -/
structure SafetyChecks where
  containsTokenMarker : String → Bool
  containsPrivateIdentifier : String → Bool
  looksLikeUnnecessaryAbsolutePath : String → Bool
  /-- `_safe_metadata`. -/
  safeMetadata : Value → Except String Dict
  isIsoTimestamp : String → Bool
  /-- The milliseconds between two time stamps; an error where they do not compare. -/
  millisecondsBetween : String → String → Except String Int
  /-- The digits of `sha256` and of `uuid5`. -/
  hexdigest : Digest → String

/-- `_contains_control_character`. -/
def containsControlCharacter (value : String) : Bool :=
  value.toList.any fun c => c.toNat == 10 || c.toNat == 13 || c.toNat == 9

/-- Raise when a text is found unsafe. -/
def reject (found : Bool) (message : String) : Except String Unit :=
  if found then .error message else .ok ()

namespace SafetyChecks

variable (checks : SafetyChecks)

/-- `_safe_operation`. -/
def safeOperation (operation : String) : Except String String := do
  reject (containsControlCharacter operation) "UNSAFE:unsafe control character in operation label"
  reject (checks.containsTokenMarker operation) "UNSAFE:unsafe operation label"
  reject (checks.containsPrivateIdentifier operation)
    "UNSAFE:unsafe private identifier in operation label"
  reject (checks.looksLikeUnnecessaryAbsolutePath operation)
    "UNSAFE:unsafe absolute path in operation label"
  return operation

/-- `_safe_source_label`. -/
def safeSourceLabel (source : String) : Except String String := do
  reject (source == "runtime") "UNSAFE:reserved source label: runtime"
  reject (containsControlCharacter source) "UNSAFE:unsafe control character in source label"
  reject (checks.containsTokenMarker source) "UNSAFE:unsafe source label"
  reject (checks.containsPrivateIdentifier source)
    "UNSAFE:unsafe private identifier in source label"
  reject (checks.looksLikeUnnecessaryAbsolutePath source)
    "UNSAFE:unsafe absolute path in source label"
  return source

/-- `_safe_source_session_id`; `_safe_correlation_id` raises with its own name in the text. -/
def safeSessionText (name value : String) : Except String String := do
  reject (checks.containsTokenMarker value) ("UNSAFE:unsafe " ++ name)
  reject (checks.containsPrivateIdentifier value) ("UNSAFE:unsafe " ++ name)
  reject (checks.looksLikeUnnecessaryAbsolutePath value) ("UNSAFE:unsafe absolute path in " ++ name)
  return value

def safeSourceSessionId (value : String) : Except String String :=
  checks.safeSessionText "source_session_id" value

def safeCorrelationId (value : String) : Except String String :=
  checks.safeSessionText "correlation_id" value

/-- `_safe_identity_label`. -/
def safeIdentityLabel (value field : String) : Except String String := do
  reject (containsControlCharacter value) ("UNSAFE:unsafe control character in " ++ field)
  reject (checks.containsTokenMarker value) ("UNSAFE:unsafe " ++ field)
  reject (checks.containsPrivateIdentifier value) ("UNSAFE:unsafe private identifier in " ++ field)
  reject (checks.looksLikeUnnecessaryAbsolutePath value)
    ("UNSAFE:unsafe absolute path in " ++ field)
  return value

/-- `_safe_optional_timestamp`. -/
def safeOptionalTimestamp (value : Value) (field : String) : Except String (Option String) := do
  if value.truthy then
    let text ← checks.safeIdentityLabel value.text field
    reject (!checks.isIsoTimestamp text) (field ++ " must be an ISO timestamp")
    return some text
  else return none

/-- `_safe_diagnostic_text`. -/
def safeDiagnosticText (value : String) : String :=
  if containsControlCharacter value || checks.containsTokenMarker value ||
      checks.containsPrivateIdentifier value || checks.looksLikeUnnecessaryAbsolutePath value then
    "[redacted]"
  else value

end SafetyChecks

section Normalize

variable (checks : SafetyChecks)

/-- `event_fingerprint`. -/
def eventFingerprint (event : ExternalTelemetryEvent) : String :=
  let correlation := event.correlationId.getD ""
  let eventIdentity :=
    if correlation ≠ "" ∧ event.startedAt.getD "" ≠ "" ∧ event.endedAt.getD "" ≠ "" then correlation
    else if correlation ≠ "" then correlation ++ ":" ++ event.eventId
    else event.eventId
  checks.hexdigest (hashPayload (Dict.ofFields [
    ("source", .str event.source),
    ("source_session_id", .str event.sourceSessionId),
    ("event_identity", .str eventIdentity),
    ("kind", .str event.kind),
    ("operation", .str event.operation),
    ("duration_ms", .int event.durationMs),
    ("started_at", optionalText event.startedAt),
    ("ended_at", optionalText event.endedAt),
    ("status", .str event.status),
    ("correlation_id", optionalText event.correlationId)]))

/-- `derive_event_id`: a digest of the fields of an event that has no identifier. -/
def deriveEventId (event : ExternalTelemetryEvent) : String :=
  checks.hexdigest (stableId "uuid5" (Dict.ofFields [
    ("source", .str event.source),
    ("source_session_id", .str event.sourceSessionId),
    ("kind", .str event.kind),
    ("operation", .str event.operation),
    ("status", .str event.status),
    ("duration_ms", .int event.durationMs),
    ("started_at", optionalText event.startedAt),
    ("ended_at", optionalText event.endedAt),
    ("correlation_id", optionalText event.correlationId)]))

/-- The event under its fingerprint. -/
def ExternalTelemetryEvent.fingerprinted (event : ExternalTelemetryEvent) :
    ExternalTelemetryEvent :=
  { event with eventFingerprint := GhAddressCr.eventFingerprint checks event }

/-- `event_duration_ms`. -/
def eventDurationMs (payload : Dict) : Except String Int :=
  match payload.get "duration_ms" with
  | .null => do
      let started := payload.get "started_at"
      let ended := payload.get "ended_at"
      reject (!started.truthy || !ended.truthy)
        "duration_ms or started_at plus ended_at is required"
      let duration ← checks.millisecondsBetween started.text ended.text
      reject (duration < 0) "event duration must be non-negative"
      return duration
  | .int value => do
      reject (value < 0) "duration_ms must be non-negative"
      return value
  | _ => .error "duration_ms must be an integer"

/-- The names of the required fields that a record does not have. -/
def missingFields (payload : Dict) (sourceText : String) : List String :=
  (if sourceText = "" then ["source"] else []) ++
    ["kind", "operation", "status"].filter fun key => !(payload.get key).truthy

/-- A text that is one of the known values of its field. -/
def knownLabel (value field : String) (known : List String) : Except String Unit :=
  reject (!known.contains value) ("unsupported " ++ field ++ ": " ++ value)

def operationText : Value → Except String String
  | .str operation => .ok operation
  | _ => .error "operation must be a string"

/-- The session of a record, as far as it names one. -/
def sessionText : Value → String
  | .str session => if session = "" then "unknown-session" else session
  | _ => "unknown-session"

/-- A checked text, or none where the record has none. -/
def optionalLabel (value : Value) (check : String → Except String String) :
    Except String (Option String) :=
  if value.truthy then (check value.text).map some else .ok none

/-- `metadata or {}`. -/
def metadataOf (payload : Dict) : Value := (payload.get "metadata").orElse (.dict [])

/-- `normalize_external_event`. -/
def normalizeExternalEvent (payload : Value) (declaredSource : String) :
    Except String ExternalTelemetryEvent := do
  let payload ← (payload.toDict?).elim (.error "record must be a JSON object") .ok
  let sourceText := payload.textOr "source" declaredSource
  let missing := missingFields payload sourceText
  reject (!missing.isEmpty) ("missing required field(s): " ++ ", ".intercalate missing)
  let source ← checks.safeSourceLabel sourceText
  let schemaVersion ← checks.safeIdentityLabel (payload.textOr "schema_version" "1.0")
    "schema_version"
  let kind ← checks.safeIdentityLabel (payload.get "kind").text "kind"
  let status ← checks.safeIdentityLabel (payload.get "status").text "status"
  knownLabel kind "kind" safeKinds
  knownLabel status "status" safeStatuses
  let durationMs ← eventDurationMs checks payload
  let metadata ← checks.safeMetadata (metadataOf payload)
  let sourceSessionId ← checks.safeSourceSessionId (sessionText (payload.get "source_session_id"))
  let operation ← operationText (payload.get "operation")
  let operation ← checks.safeOperation operation
  let startedAt ← checks.safeOptionalTimestamp (payload.get "started_at") "started_at"
  let endedAt ← checks.safeOptionalTimestamp (payload.get "ended_at") "ended_at"
  let correlationId ← optionalLabel (payload.get "correlation_id") checks.safeCorrelationId
  let eventId ← optionalLabel (payload.get "event_id") (checks.safeIdentityLabel · "event_id")
  let event : ExternalTelemetryEvent :=
    { schemaVersion, source, sourceSessionId, eventId := "", kind, operation, status, durationMs
      startedAt, endedAt, metadata := some metadata, correlationId }
  return { event with eventId := eventId.getD (deriveEventId checks event) }.fingerprinted checks

end Normalize

section Stored

variable (checks : SafetyChecks)

/-- `sanitize_stored_identity_field`. -/
def sanitizeStoredIdentityField (field value : String) : Except String String :=
  if field = "kind" then do
    let kind ← checks.safeIdentityLabel value field
    knownLabel kind "kind" safeKinds
    return kind
  else if field = "status" then do
    let status ← checks.safeIdentityLabel value field
    knownLabel status "status" safeStatuses
    return status
  else if field = "source_session_id" then checks.safeSourceSessionId value
  else if field = "operation" then checks.safeOperation value
  else checks.safeIdentityLabel value field

/-- One required field of `extract_stored_required_strings`; none where it is missing. -/
def storedRequiredString (payload : Dict) (field : String) : Except String (Option String) :=
  match payload.get field with
  | .null => .ok none
  | .str value =>
      if value = "" then .ok none
      else (sanitizeStoredIdentityField checks field value).map some
  | _ => .error (field ++ " must be a string")

/-- `stored_optional_timestamp`. -/
def storedOptionalTimestamp (value : Value) (field : String) : Except String (Option String) :=
  match value with
  | .null => .ok none
  | .str text => checks.safeOptionalTimestamp (.str text) field
  | _ => .error (field ++ " must be a string")

def storedSource (payload : Dict) : Except String String := do
  let source := payload.get "source"
  reject (!source.truthy) "missing required field(s): source"
  match source with
  | .str source => return source
  | _ => .error "source must be a string"

def storedDuration : Value → Except String Int
  | .int value => do
      reject (value < 0) "duration_ms must be non-negative"
      return value
  | _ => .error "duration_ms must be an integer"

def storedMetadata (value : Value) : Except String Dict :=
  checks.safeMetadata (if value = .null then .dict [] else value)

def storedCorrelation : Value → Except String (Option String)
  | .null => .ok none
  | .str value => (checks.safeCorrelationId value).map some
  | _ => .error "correlation_id must be a string"

def storedFingerprint : Value → Except String String
  | .null => .ok ""
  | .str value => .ok value
  | _ => .error "event_fingerprint must be a string"

/-- The required fields of a stored record that are missing. -/
def missingStored (values : List (String × Option String)) : List String :=
  (values.filter fun value => value.2.isNone).map (·.1)

/-- `load_stored_external_event`. -/
def loadStoredExternalEvent (payload : Dict) : Except String ExternalTelemetryEvent := do
  let source ← storedSource payload
  let source ← checks.safeSourceLabel source
  let schemaVersion ← storedRequiredString checks payload "schema_version"
  let sourceSessionId ← storedRequiredString checks payload "source_session_id"
  let eventId ← storedRequiredString checks payload "event_id"
  let kind ← storedRequiredString checks payload "kind"
  let operation ← storedRequiredString checks payload "operation"
  let status ← storedRequiredString checks payload "status"
  let missing := missingStored [("schema_version", schemaVersion),
    ("source_session_id", sourceSessionId), ("event_id", eventId), ("kind", kind),
    ("operation", operation), ("status", status)]
  reject (!missing.isEmpty) ("missing required field(s): " ++ ", ".intercalate missing)
  let durationMs ← storedDuration (payload.get "duration_ms")
  let metadata ← storedMetadata checks (payload.get "metadata")
  let startedAt ← storedOptionalTimestamp checks (payload.get "started_at") "started_at"
  let endedAt ← storedOptionalTimestamp checks (payload.get "ended_at") "ended_at"
  let correlationId ← storedCorrelation checks (payload.get "correlation_id")
  let stored ← storedFingerprint (payload.get "event_fingerprint")
  let event : ExternalTelemetryEvent :=
    { schemaVersion := schemaVersion.getD "", source, sourceSessionId := sourceSessionId.getD ""
      eventId := eventId.getD "", kind := kind.getD "", operation := operation.getD ""
      status := status.getD "", durationMs, startedAt, endedAt, metadata := some metadata
      correlationId, eventFingerprint := stored }
  return if event.eventFingerprint = eventFingerprint checks event then event
    else event.fingerprinted checks

end Stored

theorem bind_ok_iff {ε α β : Type} {x : Except ε α} {f : α → Except ε β} {b : β} :
    (x >>= f) = .ok b ↔ ∃ a, x = .ok a ∧ f a = .ok b := by
  cases x with
  | error e => simp [bind, Except.bind]
  | ok a => simp [bind, Except.bind]

section Identity

variable {checks : SafetyChecks}

/-- A check that raises or gives the text back. -/
def Returns (check : String → Except String String) : Prop :=
  ∀ ⦃value result⦄, check value = .ok result → result = value

theorem returns_of_rejections {found : String → Bool} {message : String}
    {rest : String → Except String String} (h : Returns rest) :
    Returns fun value => (do reject (found value) message; rest value) := by
  intro value result hresult
  obtain ⟨-, -, hrest⟩ := bind_ok_iff.mp hresult
  exact h hrest

theorem returns_pure : Returns fun value => pure value := fun _ _ h => (Except.ok.inj h).symm

theorem returns_safeIdentityLabel (field : String) :
    Returns (checks.safeIdentityLabel · field) :=
  returns_of_rejections (returns_of_rejections (returns_of_rejections
    (returns_of_rejections returns_pure)))

theorem returns_safeSessionText (name : String) : Returns (checks.safeSessionText name) :=
  returns_of_rejections (returns_of_rejections (returns_of_rejections returns_pure))

theorem returns_safeOperation : Returns checks.safeOperation :=
  returns_of_rejections (returns_of_rejections (returns_of_rejections
    (returns_of_rejections returns_pure)))

theorem returns_safeSourceLabel : Returns checks.safeSourceLabel :=
  returns_of_rejections (returns_of_rejections (returns_of_rejections
    (returns_of_rejections (returns_of_rejections returns_pure))))

theorem returns_sanitizeStoredIdentityField (field : String) :
    Returns (sanitizeStoredIdentityField checks field) := by
  intro value result h
  unfold sanitizeStoredIdentityField at h
  split_ifs at h
  · obtain ⟨kind, hkind, h⟩ := bind_ok_iff.mp h
    obtain ⟨-, -, h⟩ := bind_ok_iff.mp h
    obtain rfl := Except.ok.inj h
    exact returns_safeIdentityLabel field hkind
  · obtain ⟨status, hstatus, h⟩ := bind_ok_iff.mp h
    obtain ⟨-, -, h⟩ := bind_ok_iff.mp h
    obtain rfl := Except.ok.inj h
    exact returns_safeIdentityLabel field hstatus
  · exact returns_safeSessionText _ h
  · exact returns_safeOperation h
  · exact returns_safeIdentityLabel field h

theorem map_some_ok {check : String → Except String String} (hcheck : Returns check)
    {value : String} {result : Option String} (h : (check value).map some = .ok result) :
    result = some value := by
  cases hresult : check value with
  | error message => simp [hresult, Except.map] at h
  | ok checked =>
      rw [hresult] at h
      obtain rfl := Except.ok.inj h
      rw [hcheck hresult]

/-- A required field that is there is read as it was written. -/
theorem storedRequiredString_ok {payload : Dict} {field value : String} {result : Option String}
    (hfield : payload.get field = .str value)
    (h : storedRequiredString checks payload field = .ok result) (hsome : result ≠ none) :
    result.getD "" = value := by
  unfold storedRequiredString at h
  rw [hfield] at h
  simp only at h
  split at h
  · obtain rfl := Except.ok.inj h
    exact absurd rfl hsome
  · rw [map_some_ok (returns_sanitizeStoredIdentityField field) h]
    rfl

theorem storedOptionalTimestamp_ok {value result : Option String} {field : String}
    (hvalue : value ≠ some "")
    (h : storedOptionalTimestamp checks (optionalText value) field = .ok result) :
    result = value := by
  cases value with
  | none => exact (Except.ok.inj h).symm
  | some text =>
      have htext : text ≠ "" := fun hempty => hvalue (by rw [hempty])
      have htruthy : (Value.str text).truthy = true := by simpa using htext
      change checks.safeOptionalTimestamp (.str text) field = .ok result at h
      unfold SafetyChecks.safeOptionalTimestamp at h
      rw [if_pos htruthy] at h
      obtain ⟨checked, hchecked, h⟩ := bind_ok_iff.mp h
      obtain ⟨-, -, h⟩ := bind_ok_iff.mp h
      obtain rfl := Except.ok.inj h
      rw [returns_safeIdentityLabel field hchecked]
      rfl

theorem storedCorrelation_ok {value result : Option String}
    (h : storedCorrelation checks (optionalText value) = .ok result) : result = value := by
  cases value with
  | none => exact (Except.ok.inj h).symm
  | some text => exact map_some_ok (returns_safeSessionText _) h

theorem reject_ok {found : Bool} {message : String} {result : Unit}
    (h : reject found message = .ok result) : found = false := by
  unfold reject at h
  cases found with
  | true => cases h
  | false => rfl

/-- What normalizing makes of the fields that decide the identity. -/
structure IsNormalized (checks : SafetyChecks) (event : ExternalTelemetryEvent) : Prop where
  fingerprint : event.eventFingerprint = eventFingerprint checks event
  startedAt : event.startedAt ≠ some ""
  endedAt : event.endedAt ≠ some ""

theorem safeOptionalTimestamp_ne_empty {value : Value} {field : String} {result : Option String}
    (h : checks.safeOptionalTimestamp value field = .ok result) : result ≠ some "" := by
  unfold SafetyChecks.safeOptionalTimestamp at h
  split at h
  · next htruthy =>
    obtain ⟨text, htext, h⟩ := bind_ok_iff.mp h
    obtain ⟨-, -, h⟩ := bind_ok_iff.mp h
    obtain rfl := Except.ok.inj h
    rw [returns_safeIdentityLabel field htext]
    intro hempty
    exact Value.text_ne_empty htruthy (Option.some.inj hempty)
  · obtain rfl := Except.ok.inj h
    exact Option.some_ne_none "" |>.symm

theorem isNormalized_normalizeExternalEvent {payload : Value} {declaredSource : String}
    {event : ExternalTelemetryEvent}
    (h : normalizeExternalEvent checks payload declaredSource = .ok event) :
    IsNormalized checks event := by
  unfold normalizeExternalEvent at h
  obtain ⟨payload, -, h⟩ := bind_ok_iff.mp h
  obtain ⟨-, -, h⟩ := bind_ok_iff.mp h
  obtain ⟨source, -, h⟩ := bind_ok_iff.mp h
  obtain ⟨schemaVersion, -, h⟩ := bind_ok_iff.mp h
  obtain ⟨kind, -, h⟩ := bind_ok_iff.mp h
  obtain ⟨status, -, h⟩ := bind_ok_iff.mp h
  obtain ⟨-, -, h⟩ := bind_ok_iff.mp h
  obtain ⟨-, -, h⟩ := bind_ok_iff.mp h
  obtain ⟨durationMs, -, h⟩ := bind_ok_iff.mp h
  obtain ⟨metadata, -, h⟩ := bind_ok_iff.mp h
  obtain ⟨sourceSessionId, -, h⟩ := bind_ok_iff.mp h
  obtain ⟨operationValue, -, h⟩ := bind_ok_iff.mp h
  obtain ⟨operation, -, h⟩ := bind_ok_iff.mp h
  obtain ⟨startedAt, hstarted, h⟩ := bind_ok_iff.mp h
  obtain ⟨endedAt, hended, h⟩ := bind_ok_iff.mp h
  obtain ⟨correlationId, -, h⟩ := bind_ok_iff.mp h
  obtain ⟨eventId, -, h⟩ := bind_ok_iff.mp h
  obtain rfl := Except.ok.inj h
  exact ⟨rfl, safeOptionalTimestamp_ne_empty hstarted, safeOptionalTimestamp_ne_empty hended⟩

theorem storedSource_ok {payload : Dict} {source result : String}
    (hsource : payload.get "source" = .str source) (h : storedSource payload = .ok result) :
    result = source := by
  unfold storedSource at h
  rw [hsource] at h
  obtain ⟨-, -, h⟩ := bind_ok_iff.mp h
  exact (Except.ok.inj h).symm

theorem storedDuration_ok {value result : Int} (h : storedDuration (.int value) = .ok result) :
    result = value := by
  obtain ⟨-, -, h⟩ := bind_ok_iff.mp h
  exact (Except.ok.inj h).symm

/-- Nothing is missing only when every field is there. -/
theorem missingStored_empty {values : List (String × Option String)}
    (h : (!(missingStored values).isEmpty) = false) : ∀ value ∈ values, value.2 ≠ none := by
  intro value hvalue hnone
  have hempty : missingStored values = [] := by simpa using h
  have hmem : value.1 ∈ missingStored values :=
    List.mem_map.mpr ⟨value, List.mem_filter.mpr ⟨hvalue, by simp [hnone]⟩, rfl⟩
  rw [hempty] at hmem
  cases hmem

/-- A stored event that is read back is the event again, up to its metadata. -/
theorem loadStoredExternalEvent_toDict {event loaded : ExternalTelemetryEvent}
    (hnormalized : IsNormalized checks event)
    (h : loadStoredExternalEvent checks event.toDict = .ok loaded) :
    ∃ metadata, loaded = { event with metadata } := by
  unfold loadStoredExternalEvent at h
  obtain ⟨stored, hstored, h⟩ := bind_ok_iff.mp h
  obtain ⟨source, hsource, h⟩ := bind_ok_iff.mp h
  obtain ⟨schemaVersion, hschema, h⟩ := bind_ok_iff.mp h
  obtain ⟨sourceSessionId, hsession, h⟩ := bind_ok_iff.mp h
  obtain ⟨eventId, hevent, h⟩ := bind_ok_iff.mp h
  obtain ⟨kind, hkind, h⟩ := bind_ok_iff.mp h
  obtain ⟨operation, hoperation, h⟩ := bind_ok_iff.mp h
  obtain ⟨status, hstatus, h⟩ := bind_ok_iff.mp h
  obtain ⟨_, hpresent, h⟩ := bind_ok_iff.mp h
  obtain ⟨durationMs, hduration, h⟩ := bind_ok_iff.mp h
  obtain ⟨metadata, -, h⟩ := bind_ok_iff.mp h
  obtain ⟨startedAt, hstarted, h⟩ := bind_ok_iff.mp h
  obtain ⟨endedAt, hended, h⟩ := bind_ok_iff.mp h
  obtain ⟨correlationId, hcorrelation, h⟩ := bind_ok_iff.mp h
  obtain ⟨fingerprint, hfingerprint, h⟩ := bind_ok_iff.mp h
  obtain rfl := Except.ok.inj h
  have hthere := missingStored_empty (reject_ok hpresent)
  simp only [List.mem_cons, List.not_mem_nil, or_false, forall_eq_or_imp, forall_eq] at hthere
  obtain ⟨hschema', hsession', hevent', hkind', hoperation', hstatus'⟩ := hthere
  obtain ⟨esource, eschema, esession, eevent, ekind, eoperation, estatus, eduration, estarted,
    eended, ecorrelation, efingerprint⟩ := event.get_toDict
  rw [eduration] at hduration
  rw [estarted] at hstarted
  rw [eended] at hended
  rw [ecorrelation] at hcorrelation
  rw [efingerprint] at hfingerprint
  refine ⟨some metadata, ?_⟩
  have hloaded : ({ schemaVersion := schemaVersion.getD "", source
                    sourceSessionId := sourceSessionId.getD "", eventId := eventId.getD ""
                    kind := kind.getD "", operation := operation.getD "", status := status.getD ""
                    durationMs, startedAt, endedAt, metadata := some metadata, correlationId
                    eventFingerprint := fingerprint } : ExternalTelemetryEvent) =
      { event with metadata := some metadata } := by
    rw [storedRequiredString_ok eschema hschema hschema',
      storedRequiredString_ok esession hsession hsession',
      storedRequiredString_ok eevent hevent hevent',
      storedRequiredString_ok ekind hkind hkind',
      storedRequiredString_ok eoperation hoperation hoperation',
      storedRequiredString_ok estatus hstatus hstatus',
      returns_safeSourceLabel hsource, storedSource_ok esource hstored,
      storedDuration_ok hduration, storedOptionalTimestamp_ok hnormalized.startedAt hstarted,
      storedOptionalTimestamp_ok hnormalized.endedAt hended, storedCorrelation_ok hcorrelation,
      ← Except.ok.inj hfingerprint]
  rw [hloaded]
  have hsame : eventFingerprint checks { event with metadata := some metadata } =
      eventFingerprint checks event := rfl
  rw [if_pos]
  rw [hsame]
  exact hnormalized.fingerprint

end Identity

end GhAddressCr
