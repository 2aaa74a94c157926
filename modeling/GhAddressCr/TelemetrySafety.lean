import Mathlib.Data.List.Infix
import GhAddressCr.JsonText
import GhAddressCr.RequestRoundTrip
import GhAddressCr.TelemetryEvents

/-!
# Safe telemetry

The searches for tokens, private identifiers and absolute paths, and the check of metadata, which
goes through every key and every value. What it lets through is safe at any depth, and stays so
when it is written and read back.
-/
namespace GhAddressCr.TelemetrySafety

open PyText

/-- `value.lower()`; the dotted capital I is the only character that lowers to two. -/
def lowered (value : String) : List Char :=
  value.toList.flatMap fun c => if c.toNat = 0x130 then ['i', Char.ofNat 0x307] else [lowerChar c]

/-- `marker in text`. -/
def mentions (cs : List Char) (marker : String) : Bool := decide (marker.toList <:+: cs)

/-- `pattern.search(text)`: the pattern is tried at every place, with the character before it. -/
def search (pattern : Option Char → List Char → Bool) (before : Option Char) : List Char → Bool
  | [] => pattern before []
  | c :: cs => pattern before (c :: cs) || search pattern (some c) cs

/-- `[a-z0-9]`. -/
def isLowerAlnum (c : Char) : Bool := ('a' ≤ c && c ≤ 'z') || ('0' ≤ c && c ≤ '9')

/-- `[a-zA-Z]`. -/
def isLetter (c : Char) : Bool := ('a' ≤ c && c ≤ 'z') || ('A' ≤ c && c ≤ 'Z')

/-- `_BEARER_RE`. -/
def bearerPattern (before : Option Char) (cs : List Char) : Bool :=
  before.all (!isLowerAlnum ·) &&
    (dropPrefix? "bearer".toList cs).any fun rest => rest.head?.any isSpace

/-- `_SK_RE`. -/
def skPattern (before : Option Char) (cs : List Char) : Bool :=
  before.all (!isLowerAlnum ·) &&
    (dropPrefix? "sk-".toList cs).any fun rest => rest.head?.any isLowerAlnum

/-- `_DRIVE_RE`. -/
def drivePattern (before : Option Char) (cs : List Char) : Bool :=
  before.all isSpace && cs.head?.any isLetter &&
    (dropPrefix? [':', JsonText.backslash] cs.tail).any fun rest => rest.head?.any (!isSpace ·)

/-- `[_-]`. -/
def isJoint (c : Char) : Bool := c == '_' || c == '-'

/-- `(^|[_-])word($|[_-])`; the end may have a line end behind it. -/
def wordPattern (word : String) (before : Option Char) (cs : List Char) : Bool :=
  before.all isJoint &&
    (dropPrefix? word.toList cs).any fun rest =>
      rest.head?.all isJoint || rest == [Char.ofNat 10]

def tokenMarkers : List String := ["ghp_", "github_pat_", "xoxb-", "token="]

/-- `_contains_token_marker`. -/
def containsTokenMarker (value : String) : Bool :=
  let cs := lowered value
  tokenMarkers.any (mentions cs) || (mentions cs "bearer" && search bearerPattern none cs) ||
    (mentions cs "sk-" && search skPattern none cs)

def privateIdentifierMarkers : List String :=
  ["username", "user-id", "user_id", "machine-id", "machine_id", "machine-name", "machine_name",
    "host-id", "host_id", "host-name", "host_name"]

/-- `_contains_private_identifier`. -/
def containsPrivateIdentifier (value : String) : Bool :=
  privateIdentifierMarkers.any (mentions (lowered value))

def pathMarkers : List String :=
  ["/users/", "/private/", "/home/", "/root/", "/workspace/", "/tmp/", "/var/", "/opt/", "/mnt/",
    "/builds/", "/runner/work/", "c:\\users\\"]

/-- `_looks_like_unnecessary_absolute_path`. -/
def looksLikeUnnecessaryAbsolutePath (value : String) : Bool :=
  pathMarkers.any (mentions (lowered value)) ||
    (mentions value.toList ":\\" && search drivePattern none value.toList)

/-- A text that none of the searches may find anything in. -/
def isUnsafeText (value : String) : Bool :=
  containsTokenMarker value || containsPrivateIdentifier value ||
    looksLikeUnnecessaryAbsolutePath value

def unsafeMetadataKeys : List String :=
  ["token", "access_token", "authorization", "password", "secret", "credential", "raw_prompt",
    "prompt", "username", "user", "machine_id", "host_id"]

def unsafeMetadataKeyMarkers : List String :=
  ["token", "authorization", "password", "secret", "credential", "prompt"]

/-- `_is_unsafe_metadata_key`. -/
def isUnsafeMetadataKey (key : String) : Bool :=
  let cs := lowered key
  if ["token_input_count", "token_output_count", "token_total_count"].any (·.toList == cs) then
    false
  else
    unsafeMetadataKeys.any (·.toList == cs) ||
      unsafeMetadataKeyMarkers.any (fun marker =>
        mentions cs marker && search (wordPattern marker) none cs) ||
      (mentions cs "key" && search (wordPattern "key") none cs)

/-- The checks of a key. -/
def rejectUnsafeKey (key : String) : Except String Unit := do
  reject (isUnsafeMetadataKey key) ("UNSAFE:unsafe metadata field: " ++ key)
  reject (containsTokenMarker key) ("UNSAFE:unsafe token in metadata field key: " ++ key)
  reject (containsPrivateIdentifier key)
    ("UNSAFE:unsafe private identifier in metadata field key: " ++ key)
  reject (looksLikeUnnecessaryAbsolutePath key)
    ("UNSAFE:unsafe absolute path in metadata field key: " ++ key)
  reject (containsControlCharacter key)
    ("UNSAFE:unsafe control character in metadata field key: " ++ key)

/-- The checks of a text. -/
def rejectUnsafeText (keyPath value : String) : Except String Unit := do
  reject (containsTokenMarker value) ("UNSAFE:unsafe metadata value at " ++ keyPath)
  reject (containsPrivateIdentifier value)
    ("UNSAFE:unsafe private identifier in metadata value at " ++ keyPath)
  reject (looksLikeUnnecessaryAbsolutePath value)
    ("UNSAFE:unsafe absolute path in metadata value at " ++ keyPath)

mutual

/-- `_validate_safe_metadata_value`. -/
def validateSafeMetadataValue (keyPath : String) : Value → Except String Unit
  | .dict fields => validateFields keyPath fields
  | .list values => validateItems keyPath 0 values
  | .str text => rejectUnsafeText keyPath text
  | .time instant => rejectUnsafeText keyPath (Value.time instant).text
  | _ => .ok ()

def validateFields (keyPath : String) : List (String × Value) → Except String Unit
  | [] => .ok ()
  | (key, value) :: fields => do
      rejectUnsafeKey key
      validateSafeMetadataValue (keyPath ++ "." ++ key) value
      validateFields keyPath fields

def validateItems (keyPath : String) (index : Nat) : List Value → Except String Unit
  | [] => .ok ()
  | value :: values => do
      validateSafeMetadataValue (keyPath ++ "[" ++ toString index ++ "]") value
      validateItems keyPath (index + 1) values

end

mutual

/-- `json.dumps` does not raise: the value holds no instant. -/
def isSerializable : Value → Bool
  | .dict fields => areFieldsSerializable fields
  | .list values => areSerializable values
  | .time _ => false
  | _ => true

def areFieldsSerializable : List (String × Value) → Bool
  | [] => true
  | (_, value) :: fields => isSerializable value && areFieldsSerializable fields

def areSerializable : List Value → Bool
  | [] => true
  | value :: values => isSerializable value && areSerializable values

end

/-- `_safe_metadata`. -/
def safeMetadata (metadata : Value) : Except String Dict :=
  match metadata.toDict? with
  | none => .error "metadata must be an object"
  | some result => do
      validateSafeMetadataValue "metadata" metadata
      reject (!isSerializable metadata)
        ("metadata contains non-JSON serializable or non-finite values: " ++
          "Object of type datetime is not JSON serializable")
      return result

/-- What `datetime`, `hashlib` and `uuid` give. -/
structure StandardLibrary where
  isIsoTimestamp : String → Bool
  millisecondsBetween : String → String → Except String Int
  hexdigest : Digest → String
  hexdigest_ne_empty : ∀ digest, hexdigest digest ≠ ""
  hexdigest_digits : ∀ digest, ∀ c ∈ (hexdigest digest).toList,
    c ∈ "0123456789abcdef".toList

/-- The checks of `telemetry_safety`. -/
def telemetrySafety (library : StandardLibrary) : SafetyChecks where
  containsTokenMarker := containsTokenMarker
  containsPrivateIdentifier := containsPrivateIdentifier
  looksLikeUnnecessaryAbsolutePath := looksLikeUnnecessaryAbsolutePath
  safeMetadata := safeMetadata
  isIsoTimestamp := library.isIsoTimestamp
  millisecondsBetween := library.millisecondsBetween
  hexdigest := library.hexdigest

/-- A key or a text of a value, at any depth. -/
inductive Part where
  | key (name : String)
  | text (text : String)
  | instant (instant : Int)

/-- The checks of metadata let the part through. -/
def Part.IsSafe : Part → Prop
  | .key name => isUnsafeMetadataKey name = false ∧ isUnsafeText name = false ∧
      containsControlCharacter name = false
  | .text value => isUnsafeText value = false
  | .instant time => isUnsafeText (Value.time time).text = false

mutual

def parts : Value → List Part
  | .dict fields => partsOfFields fields
  | .list values => partsOfItems values
  | .str text => [.text text]
  | .time instant => [.instant instant]
  | _ => []

def partsOfFields : List (String × Value) → List Part
  | [] => []
  | (key, value) :: fields => .key key :: (parts value ++ partsOfFields fields)

def partsOfItems : List Value → List Part
  | [] => []
  | value :: values => parts value ++ partsOfItems values

end

theorem mem_partsOfFields {part : Part} {fields : List (String × Value)} :
    part ∈ partsOfFields fields ↔
      ∃ field ∈ fields, part = .key field.1 ∨ part ∈ parts field.2 := by
  induction fields with
  | nil => simp [partsOfFields]
  | cons field fields ih =>
      simp only [partsOfFields, List.mem_cons, List.mem_append, ih, exists_eq_or_imp, or_assoc]

theorem reject_eq_ok {found : Bool} {message : String} :
    reject found message = .ok () ↔ found = false := by
  cases found <;> simp [reject]

theorem check_bind_eq_ok {α : Type} {check : Except String Unit} {rest : Except String α}
    {result : α} : (do check; rest) = .ok result ↔ check = .ok () ∧ rest = .ok result := by
  cases check with
  | error message => simp [bind, Except.bind]
  | ok _ => simp [bind, Except.bind]

theorem isUnsafeText_eq_false {value : String} : isUnsafeText value = false ↔
    containsTokenMarker value = false ∧ containsPrivateIdentifier value = false ∧
      looksLikeUnnecessaryAbsolutePath value = false := by
  simp only [isUnsafeText, Bool.or_eq_false_iff, and_assoc]

theorem rejectUnsafeKey_eq_ok {key : String} :
    rejectUnsafeKey key = .ok () ↔ (Part.key key).IsSafe := by
  simp only [rejectUnsafeKey, check_bind_eq_ok, reject_eq_ok, Part.IsSafe, isUnsafeText_eq_false,
    and_assoc]

theorem rejectUnsafeText_eq_ok {keyPath value : String} :
    rejectUnsafeText keyPath value = .ok () ↔ isUnsafeText value = false := by
  simp only [rejectUnsafeText, check_bind_eq_ok, reject_eq_ok, isUnsafeText_eq_false]

mutual

/-- The check of metadata goes through every part of it. -/
theorem validateSafeMetadataValue_eq_ok (keyPath : String) (value : Value) :
    validateSafeMetadataValue keyPath value = .ok () ↔ ∀ part ∈ parts value, part.IsSafe := by
  cases value with
  | dict fields =>
      rw [validateSafeMetadataValue, parts]
      exact validateFields_eq_ok keyPath fields
  | list values =>
      rw [validateSafeMetadataValue, parts]
      exact validateItems_eq_ok keyPath 0 values
  | str text => simp [validateSafeMetadataValue, parts, rejectUnsafeText_eq_ok, Part.IsSafe]
  | time instant =>
      simp [validateSafeMetadataValue, parts, rejectUnsafeText_eq_ok, Part.IsSafe]
  | _ => simp [validateSafeMetadataValue, parts]

theorem validateFields_eq_ok (keyPath : String) (fields : List (String × Value)) :
    validateFields keyPath fields = .ok () ↔ ∀ part ∈ partsOfFields fields, part.IsSafe := by
  cases fields with
  | nil => simp [validateFields, partsOfFields]
  | cons field fields =>
      obtain ⟨key, value⟩ := field
      simp only [validateFields, check_bind_eq_ok, rejectUnsafeKey_eq_ok,
        validateSafeMetadataValue_eq_ok _ value, validateFields_eq_ok keyPath fields, partsOfFields,
        List.forall_mem_cons, List.forall_mem_append]

theorem validateItems_eq_ok (keyPath : String) (index : Nat) (values : List Value) :
    validateItems keyPath index values = .ok () ↔ ∀ part ∈ partsOfItems values, part.IsSafe := by
  cases values with
  | nil => simp [validateItems, partsOfItems]
  | cons value values =>
      simp only [validateItems, check_bind_eq_ok, validateSafeMetadataValue_eq_ok _ value,
        validateItems_eq_ok keyPath (index + 1) values, partsOfItems, List.forall_mem_append]

end

mutual

theorem isSerializable_iff (value : Value) :
    isSerializable value = true ↔ ∀ instant, Part.instant instant ∉ parts value := by
  cases value with
  | dict fields =>
      rw [isSerializable, parts]
      exact areFieldsSerializable_iff fields
  | list values =>
      rw [isSerializable, parts]
      exact areSerializable_iff values
  | time instant =>
      simp only [isSerializable, Bool.false_eq_true, parts, List.mem_singleton, Part.instant.injEq,
        false_iff, not_forall, not_not]
      exact ⟨instant, rfl⟩
  | _ => simp [isSerializable, parts]

theorem areFieldsSerializable_iff (fields : List (String × Value)) :
    areFieldsSerializable fields = true ↔
      ∀ instant, Part.instant instant ∉ partsOfFields fields := by
  cases fields with
  | nil => simp [areFieldsSerializable, partsOfFields]
  | cons field fields =>
      obtain ⟨key, value⟩ := field
      simp [areFieldsSerializable, partsOfFields, isSerializable_iff value,
        areFieldsSerializable_iff fields, forall_and]

theorem areSerializable_iff (values : List Value) :
    areSerializable values = true ↔ ∀ instant, Part.instant instant ∉ partsOfItems values := by
  cases values with
  | nil => simp [areSerializable, partsOfItems]
  | cons value values =>
      simp [areSerializable, partsOfItems, isSerializable_iff value, areSerializable_iff values,
        forall_and]

end

/-- Metadata that may be stored: every part is safe, and none is an instant. -/
def IsSafeValue (value : Value) : Prop :=
  ∀ part ∈ parts value, part.IsSafe ∧ ∀ instant, part ≠ .instant instant

theorem safeMetadata_eq_ok {metadata : Value} {result : Dict} :
    safeMetadata metadata = .ok result ↔ metadata.toDict? = some result ∧ IsSafeValue metadata := by
  unfold safeMetadata
  cases metadata.toDict? with
  | none => simp
  | some found =>
      have hvalue : IsSafeValue metadata ↔ (∀ part ∈ parts metadata, part.IsSafe) ∧
          ∀ instant, Part.instant instant ∉ parts metadata := by
        constructor
        · exact fun h => ⟨fun part hpart => (h part hpart).1,
            fun instant hinstant => (h _ hinstant).2 instant rfl⟩
        · exact fun h part hpart => ⟨h.1 part hpart, fun instant hinstant =>
            h.2 instant (hinstant ▸ hpart)⟩
      rw [hvalue, ← isSerializable_iff, ← validateSafeMetadataValue_eq_ok "metadata"]
      simp only [check_bind_eq_ok, reject_eq_ok, Bool.not_eq_false', Option.some.injEq, pure,
        Except.pure, Except.ok.injEq]
      tauto

end GhAddressCr.TelemetrySafety
