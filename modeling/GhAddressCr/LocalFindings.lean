import GhAddressCr.FindingBlocks
import GhAddressCr.JsonText
import GhAddressCr.Session
import GhAddressCr.Severity

/-!
# Findings of local producers

A payload of findings is decoded and normalized as a whole before the session is touched. Each
finding gets the id of its item from its source and a fingerprint of its fields; the session's
items are then updated under these ids. JSON decoding, the lower case of a text and the hash are
parameters.
-/
namespace GhAddressCr.LocalFindings

open PyText JsonText

section Records

variable (loads : List Char → Option Value)

/-- `_parse_ndjson`; the error names the first line that is not JSON. -/
def parseNdjson (payload : List Char) (failed : Bool) : Except String (List Value) :=
  let lines := (splitlines payload).filter fun line => stripChars line ≠ []
  if lines = [] ∧ failed then .error "Invalid JSON."
  else (lines.zipIdx 1).mapM fun numbered =>
    match loads numbered.1 with
    | some record => .ok record
    | none => .error ("Invalid NDJSON input on line " ++ toString numbered.2 ++ ".")

/-- The list under the first of the keys that has one. -/
def wrappedRecords? (data : Dict) : Option (List Value) :=
  ["findings", "issues", "results"].findSome? fun key =>
    match data.get key with
    | .list records => some records
    | _ => none

def parseRecords (raw : List Char) : Except String (List Value) :=
  let payload := stripChars raw
  if payload = [] then .ok []
  else if payload.head? = some '[' then
    match loads payload with
    | none => parseNdjson loads payload true
    | some (.list records) => .ok records
    | some _ => .error "Expected a JSON array."
  else if payload.head? = some (Char.ofNat 123) then
    match loads payload with
    | none => parseNdjson loads payload true
    | some data =>
        match data.toDict? with
        | none => .error "Expected a JSON object."
        | some fields => .ok ((wrappedRecords? fields).getD [data])
  else parseNdjson loads payload false

end Records

/-- The fields that are copied when they are given. -/
def copiedFields : List String :=
  ["start_line", "end_line", "severity", "category", "confidence", "head_sha"]

/-- `record.get(a) or record.get(b) or record.get(c)`. -/
def firstGiven (record : Dict) (a b c : String) : Value :=
  ((record.get a).orElse (record.get b)).orElse (record.get c)

def copyField (record normalized : Dict) (field : String) : Dict :=
  if record.has field ∧ record.get field ≠ .null ∧ record.get field ≠ .str "" then
    normalized.set field (record.get field)
  else normalized

def normalizeFinding (value : Value) : Except String Dict :=
  match value.toDict? with
  | none => .error "Each finding must be a JSON object."
  | some record =>
      let path := firstGiven record "path" "file" "filename"
      let line := firstGiven record "line" "start_line" "position"
      let title := (firstGiven record "title" "rule" "check").orElse (.str "Imported review finding")
      let body := (firstGiven record "body" "message" "description").orElse title
      if path.truthy = false then .error "Each finding must include path/file/filename."
      else if line = .null ∨ line = .str "" then
        .error "Each finding must include line/start_line/position."
      else
        match line.toInt? with
        | none => .error ("Invalid line value: " ++ line.text)
        | some number =>
            .ok (copiedFields.foldl (copyField record)
              (Dict.ofFields [("title", .str title.text), ("path", .str path.text),
                ("line", .int number), ("body", .str body.text)]))

/-- `re.sub(r"\s+", " ", text)`. -/
def collapseSpaces : List Char → List Char
  | [] => []
  | c :: cs =>
      if isSpace c then
        if cs.head?.any isSpace then collapseSpaces cs else ' ' :: collapseSpaces cs
      else c :: collapseSpaces cs

section Identity

variable (lowercase : List Char → List Char) (digest : String → String)

def normalizeText (text : String) : List Char :=
  lowercase (collapseSpaces (stripChars text.toList))

/-- `str(finding.get(key, ""))`. -/
def fieldText (finding : Dict) (key : String) : String :=
  if finding.has key then (finding.get key).text else ""

/-- The fields that make a finding what it is: its path, its line range, and its category, title
and body in their normal form. -/
def identity (finding : Dict) : List (List Char) :=
  [(fieldText finding "path").toList,
    (((finding.get "start_line").orElse (finding.get "line")).orElse (.str "")).text.toList,
    ((finding.get "end_line").orElse (.str "")).text.toList,
    normalizeText lowercase (fieldText finding "category"),
    normalizeText lowercase (fieldText finding "title"),
    normalizeText lowercase (fieldText finding "body")]

def fingerprintFinding (finding : Dict) : String :=
  digest (String.ofList (join '|' (identity lowercase finding)))

/-- `json.dumps({"source": source, "fingerprint": fingerprint}, sort_keys=True)`, compactly. -/
def identityDocument (source fingerprint : String) : List Char :=
  Char.ofNat 123 :: escapeText "fingerprint" ++ ':' :: escapeText fingerprint ++
    ',' :: escapeText "source" ++ ':' :: escapeText source ++ [Char.ofNat 125]

def localFindingItemId (source : String) (finding : Dict) : String :=
  "local-finding:" ++ digest (String.ofList
    (identityDocument source (fingerprintFinding lowercase digest finding)))

def withLocalItemFields (source : String) (finding : Dict) : Dict :=
  ((finding.set "item_id" (.str (localFindingItemId lowercase digest source finding))).set
    "item_kind" (.str "local_finding")).set "source" (.str source)

end Identity

section Payload

variable (loads : List Char → Option Value) (lowercase : List Char → List Char)
  (digest : String → String)

/-- The findings of a payload, each in its normal form. -/
def normalizedRecords (source raw : String) : Except String (List Dict) :=
  if source ∈ ["review-to-findings", "finding-blocks"] then FindingBlocks.parseFindingBlocks raw
  else if source ∈ ["json", "code-review", "adapter"] then do
    let records ← parseRecords loads raw.toList
    records.mapM normalizeFinding
  else .error ("Unsupported findings source: " ++ source)

def normalizeFindingsPayload (source raw : String) : Except String (List Dict) :=
  (normalizedRecords loads source raw).map (·.map (withLocalItemFields lowercase digest source))

/-- A finding of the payload under the name of its producer. -/
def resourced (formatSource source : String) (finding : Dict) : Dict :=
  if source ≠ formatSource then
    withLocalItemFields lowercase digest source
      (((finding.pop "item_id").pop "item_kind").pop "source")
  else finding

/-- The findings of a payload that `_ingest_native_findings` takes in. -/
def nativeFindings (source raw : String) : Except String (List Dict) :=
  if strip raw = "" then
    .error "Findings input is empty. Use [] for an explicit empty producer result."
  else
    let formatSource := if source = "adapter" then "adapter" else "json"
    (normalizeFindingsPayload loads lowercase digest formatSource raw).map
      (·.map (resourced lowercase digest formatSource source))

end Payload

/-- The severity that the finding states, on the item. -/
def withSeverity (source : String) (finding item : Dict) : Dict :=
  let rawSeverity := finding.get "severity"
  let evidence := severityEvidence rawSeverity "producer_payload"
    (if rawSeverity = .null then none else some (strip rawSeverity.text)) (.str source)
  if evidence.isSome ∨ rawSeverity ≠ .null then applySeverityEvidence item evidence else item

/-- The item of a finding that is open again. -/
def opened (now : Int) (item : Dict) : Dict :=
  let item := (item.setDefault "created_at" (.time now)).set "updated_at" (.time now)
  let item := (item.set "status" (.str "OPEN")).set "state" (.str "open")
  let item := (item.set "blocking" (.bool true)).set "handled" (.bool false)
  let item := (item.set "needs_human" (.bool false)).setDefault "history" (.list [])
  let item := (item.setDefault "reply_posted" (.bool false)).setDefault "reply_url" .null
  item.setDefault "validation_commands" (.list [])

/-- The item of a finding that has come in. -/
def observedItem (source : String) (now : Int) (finding : Dict) (existing : Option Dict) : Dict :=
  opened now (withSeverity source finding
    ((existing.getD ∅).update (finding.pop "severity")))

/-- `str(finding["item_id"])`. -/
def itemIdOf (finding : Dict) : String := (finding.get "item_id").text

/-- The loop over the findings. -/
def observeFindings (source : String) (now : Int) (findings : List Dict) (items : Rows Dict) :
    Rows Dict :=
  findings.foldl
    (fun items finding =>
      items.insert (itemIdOf finding) (observedItem source now finding items[itemIdOf finding]?))
    items

/-- The item of a finding that its producer no longer reports. -/
def handledItem (now : Int) (item : Dict) : Dict :=
  let item := (item.set "status" (.str "CLOSED")).set "state" (.str "closed")
  let item := (item.set "blocking" (.bool false)).set "handled" (.bool true)
  (item.set "handled_at" (.time now)).set "updated_at" (.time now)

/-- The item is a finding of the source. -/
def isLocalOf (source : String) (item : Dict) : Prop :=
  item.get "item_kind" = .str "local_finding" ∧ item.get "source" = .str source

instance (source : String) (item : Dict) : Decidable (isLocalOf source item) :=
  inferInstanceAs (Decidable (_ ∧ _))

/-- The items of the source that did not come in are closed. -/
def closeMissing (source : String) (now : Int) (incoming : List String) (items : Rows Dict) :
    Rows Dict :=
  items.map fun itemId item =>
    if isLocalOf source item ∧ itemId ∉ incoming then handledItem now item else item

/-- The items after the findings have come in. -/
def ingestedItems (source : String) (now : Int) (sync : Bool) (findings : List Dict)
    (items : Rows Dict) : Rows Dict :=
  let items := observeFindings source now findings items
  if sync then closeMissing source now (findings.map itemIdOf) items else items

/-- `_ingest_native_findings`: the session it leaves, and the findings that came in or the error
it raises. -/
def ingestNativeFindings (loads : List Char → Option Value) (lowercase : List Char → List Char)
    (digest : String → String) (source raw : String) (sync : Bool) (now : Int)
    (session : Session) : Session × Except String (List Dict) :=
  match nativeFindings loads lowercase digest source raw with
  | .error message => (session, .error message)
  | .ok findings =>
      ({ session with items := ingestedItems source now sync findings session.items },
        .ok findings)

end GhAddressCr.LocalFindings
