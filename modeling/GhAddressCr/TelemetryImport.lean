import GhAddressCr.LedgerLines
import GhAddressCr.TelemetryEvents
import GhAddressCr.TransitionSystem
import Mathlib.Data.Finset.Card
import Mathlib.Data.List.Dedup

/-!
# Imports of external telemetry

An import replaces the file of known fingerprints, then appends its events to the event store,
then its summary to the import ledger. A later import takes an event for a duplicate when its
fingerprint is known, whether or not the event is in the store.
-/
namespace GhAddressCr.TelemetryImport

open PyText SeparatedLines

structure TelemetryParseResult where
  events : List ExternalTelemetryEvent
  rejectedCount : Nat
  unsafeSeen : Bool
  malformedSeen : Bool
  diagnostics : List String
  eventsAreNormalized : Bool := false

/-- The adapter of the package, or a registered one; `parse` fails with the name of an
exception. -/
inductive TelemetryAdapter where
  | genericAgentJsonl
  | registered (parse : String → String → Except String TelemetryParseResult)

section Adapters

variable (checks : SafetyChecks) (loads : String → Except String Value)

/-- The outcome of one record: the event, or a rejection as `UNSAFE` or as malformed. -/
def ofNormalized (result : Except String ExternalTelemetryEvent) (place : String)
    (diagnostic : String → String) (before : TelemetryParseResult) : TelemetryParseResult :=
  match result with
  | .ok event => { before with events := before.events ++ [event] }
  | .error message =>
      if message.startsWith "UNSAFE:" then
        { before with
          unsafeSeen := true
          diagnostics := before.diagnostics ++ [place ++ diagnostic (message.drop 7).toString]
          rejectedCount := before.rejectedCount + 1 }
      else
        { before with
          malformedSeen := true
          diagnostics := before.diagnostics ++ [place ++ diagnostic message]
          rejectedCount := before.rejectedCount + 1 }

/-- One line of `GenericAgentJsonlAdapter.parse`. -/
def parseLine (source : String) (before : TelemetryParseResult) (line : List Char × Nat) :
    TelemetryParseResult :=
  let place := "line " ++ toString line.2 ++ ": "
  if stripChars line.1 = [] then before
  else
    match loads (String.ofList line.1) with
    | .error message =>
        { before with
          malformedSeen := true
          rejectedCount := before.rejectedCount + 1
          diagnostics := before.diagnostics ++ [place ++ "invalid JSON: " ++ message] }
    | .ok payload => ofNormalized (normalizeExternalEvent checks payload source) place id before

/-- `GenericAgentJsonlAdapter.parse`. -/
def parseGeneric (raw source : String) : TelemetryParseResult :=
  ((splitLines isLineEnd (universalNewlines raw.toList)).zipIdx 1).foldl
    (parseLine checks loads source)
    { events := [], rejectedCount := 0, unsafeSeen := false, malformedSeen := false
      diagnostics := [], eventsAreNormalized := true }

def TelemetryAdapter.parse (raw source : String) :
    TelemetryAdapter → Except String TelemetryParseResult
  | .genericAgentJsonl => .ok (parseGeneric checks loads raw source)
  | .registered parse => parse raw source

/-- The events of the package's own adapter are not normalized again. -/
def trustedNormalizedEvents (adapter : TelemetryAdapter) (result : TelemetryParseResult) : Bool :=
  match adapter with
  | .genericAgentJsonl => result.eventsAreNormalized
  | .registered _ => false

end Adapters

/-- A line of the event store: an event, or a text that is no JSON record. -/
inductive StoredLine where
  | event (event : ExternalTelemetryEvent)
  | torn (error : String)
  deriving DecidableEq

/-- `external-telemetry.jsonl`. Its last line may have no line end after a crash. -/
structure EventStore where
  lines : List StoredLine := []
  ended : Bool := true
  deriving DecidableEq

/-- What a crash leaves of the line it interrupted. -/
inductive Fragment where
  | nothing
  /-- Part of the record. -/
  | torn (error : String)
  /-- The record without its line end. -/
  | unended
  deriving DecidableEq

namespace EventStore

/-- Write another line; it is glued to a last line that has no line end. -/
def write (store : EventStore) (line : StoredLine) (ended : Bool) : EventStore :=
  if store.ended then { lines := store.lines ++ [line], ended }
  else { lines := store.lines.dropLast ++ [.torn "Extra data"], ended }

/-- `_append_external_events`. -/
def append (store : EventStore) (events : List ExternalTelemetryEvent) : EventStore :=
  events.foldl (fun store event => store.write (.event event) true) store

/-- The part of an append that a crash lets happen. -/
def appendPart (store : EventStore) (events : List ExternalTelemetryEvent) (written : Nat)
    (fragment : Fragment) : EventStore :=
  let store := store.append (events.take written)
  match events.drop written with
  | [] => store
  | event :: _ =>
      match fragment with
      | .nothing => store
      | .torn error => store.write (.torn error) false
      | .unended => store.write (.event event) false

/-- How often an event of this identity is in the store. -/
def timesStored (store : EventStore) (identity : String) : Nat :=
  store.lines.countP fun
    | .event event => event.identity == identity
    | .torn _ => false

end EventStore

inductive ImportStatus where
  | success | partialSuccess | failed
  deriving DecidableEq

def ImportStatus.value : ImportStatus → String
  | .success => "SUCCESS"
  | .partialSuccess => "PARTIAL"
  | .failed => "FAILED"

structure ImportSummary where
  status : ImportStatus
  reasonCode : String
  acceptedCount : Nat
  rejectedCount : Nat
  duplicateCount : Nat
  acceptedFingerprints : List String
  duplicateFingerprints : List String
  diagnostics : List String
  deriving DecidableEq

/-- The files of a workspace that imports write. -/
structure Files where
  events : EventStore := {}
  /-- `telemetry-fingerprints.json`. -/
  fingerprints : Option (Finset String) := none
  /-- `telemetry-imports.jsonl`. -/
  imports : List ImportSummary := []
  deriving DecidableEq

section Load

variable (checks : SafetyChecks)

/-- One line of `load_external_events_with_diagnostics`. -/
def loadLine (line : StoredLine × Nat) : Except String ExternalTelemetryEvent :=
  let place := "external telemetry line " ++ toString line.2 ++ ": "
  match line.1 with
  | .torn error => .error (place ++ "invalid JSON: " ++ error)
  | .event event =>
      match loadStoredExternalEvent checks event.toDict with
      | .ok event => .ok event
      | .error message => .error (place ++ checks.safeDiagnosticText message)

/-- The error of a result. -/
def errorOf {α : Type} : Except String α → Option String
  | .ok _ => none
  | .error message => some message

/-- `load_external_events_with_diagnostics`. -/
def loadExternalEventsWithDiagnostics (store : EventStore) :
    List ExternalTelemetryEvent × List String :=
  let results := (store.lines.zipIdx 1).map (loadLine checks)
  (results.filterMap Except.toOption, results.filterMap errorOf)

/-- `_load_import_state`: the known fingerprints, or the diagnostics of a corrupted store. -/
def loadImportState (files : Files) : Except (List String) (Finset String) :=
  let (existing, diagnostics) := loadExternalEventsWithDiagnostics checks files.events
  if diagnostics ≠ [] then .error diagnostics
  else .ok (files.fingerprints.getD ∅ ∪ (existing.map (·.identity)).toFinset)

end Load

/-- `_ProcessedEventsResult`, with the known fingerprints and the diagnostics. -/
structure ProcessedEvents where
  accepted : List ExternalTelemetryEvent := []
  acceptedFingerprints : List String := []
  duplicateFingerprints : List String := []
  observedSessions : Finset String := ∅
  duplicateCount : Nat := 0
  unsafeSeen : Bool
  malformedSeen : Bool
  rejectedCount : Nat
  existingFingerprints : Finset String
  diagnostics : List String

def failedImportSummary (reasonCode : String) (diagnostics : List String) : ImportSummary where
  status := .failed
  reasonCode := reasonCode
  acceptedCount := 0
  rejectedCount := 0
  duplicateCount := 0
  acceptedFingerprints := []
  duplicateFingerprints := []
  diagnostics := diagnostics

/-- `_resolve_import_status`. -/
def resolveImportStatus (accepted : List ExternalTelemetryEvent)
    (rejectedCount duplicateCount : Nat) (unsafeSeen ambiguousSeen malformedSeen : Bool) :
    ImportStatus × String × Option String :=
  if ambiguousSeen then (.failed, "AMBIGUOUS_TELEMETRY_SESSION", none)
  else if unsafeSeen then (.failed, "UNSAFE_TELEMETRY_CONTENT", none)
  else if accepted ≠ [] then
    if rejectedCount = 0 then (.success, "TELEMETRY_IMPORTED", none)
    else (.partialSuccess, "TELEMETRY_PARTIAL", none)
  else if duplicateCount ≠ 0 ∧ rejectedCount = 0 then
    (.failed, "DUPLICATE_TELEMETRY_IMPORT", some "All telemetry events were duplicates.")
  else if malformedSeen then (.failed, "MALFORMED_TELEMETRY", none)
  else (.failed, "MALFORMED_TELEMETRY", some "No telemetry events were provided.")

/-- `_reported_source_label`. -/
def reportedSourceLabel (checks : SafetyChecks) (source : String) : String :=
  if containsControlCharacter source || checks.containsTokenMarker source ||
      checks.containsPrivateIdentifier source || checks.looksLikeUnnecessaryAbsolutePath source then
    "[redacted]"
  else source

/-- `_reported_format_label`. -/
def reportedFormatLabel (checks : SafetyChecks) (fmt : String) : String :=
  if containsControlCharacter fmt then "[redacted]" else reportedSourceLabel checks fmt

/-- The fingerprints an import records and the events it appends. -/
structure Commit where
  fingerprints : Finset String
  events : List ExternalTelemetryEvent
  deriving DecidableEq

/-- What an import writes: its events, if it accepts any, and its summary. -/
structure ImportOutcome where
  commit : Option Commit
  summary : ImportSummary
  deriving DecidableEq

section Import

variable (checks : SafetyChecks) (loads : String → Except String Value)
  (getAdapter : String → String → Option TelemetryAdapter)

/-- The normalized event of an adapter's event. -/
def normalized (trusted : Bool) (source : String) (event : ExternalTelemetryEvent) :
    Except String ExternalTelemetryEvent :=
  if trusted then .ok event else normalizeExternalEvent checks event.toDict.toValue source

/-- One event of `_process_imported_events`. -/
def processEvent (trusted : Bool) (source : String) (before : ProcessedEvents)
    (indexed : ExternalTelemetryEvent × Nat) : ProcessedEvents :=
  let place := "event index " ++ toString indexed.2 ++ ": "
  match normalized checks trusted source indexed.1 with
  | .error message =>
      if message.startsWith "UNSAFE:" then
        { before with
          unsafeSeen := true
          diagnostics := before.diagnostics ++
            [place ++ checks.safeDiagnosticText (message.drop 7).toString]
          rejectedCount := before.rejectedCount + 1 }
      else
        { before with
          malformedSeen := true
          diagnostics := before.diagnostics ++ [place ++ checks.safeDiagnosticText message]
          rejectedCount := before.rejectedCount + 1 }
  | .ok event =>
      let before := { before with
        observedSessions := insert event.sourceSessionId before.observedSessions }
      if event.identity ∈ before.existingFingerprints then
        { before with
          duplicateCount := before.duplicateCount + 1
          duplicateFingerprints := before.duplicateFingerprints ++ [event.identity] }
      else
        { before with
          existingFingerprints := insert event.identity before.existingFingerprints
          acceptedFingerprints := before.acceptedFingerprints ++ [event.identity]
          accepted := before.accepted ++ [event] }

/-- `_process_imported_events`. -/
def processImportedEvents (trusted : Bool) (source : String) (existing : Finset String)
    (result : TelemetryParseResult) : ProcessedEvents :=
  result.events.zipIdx.foldl (processEvent checks trusted source)
    { unsafeSeen := result.unsafeSeen, malformedSeen := result.malformedSeen
      rejectedCount := result.rejectedCount, existingFingerprints := existing
      diagnostics := result.diagnostics.map checks.safeDiagnosticText }

/-- `import_external_telemetry` from the processed events on, up to its writes. -/
def outcomeOf (processed : ProcessedEvents) : ImportOutcome :=
  let ambiguousSeen : Bool := 1 < processed.observedSessions.card
  let discarded := processed.unsafeSeen || ambiguousSeen
  let accepted := if discarded then [] else processed.accepted
  let acceptedFingerprints := if discarded then [] else processed.acceptedFingerprints
  let rejectedCount := processed.rejectedCount + (if discarded then processed.accepted.length else 0)
  let ambiguity := "ambiguous telemetry session: multiple source_session_id values in one import"
  let (status, reasonCode, extra) := resolveImportStatus accepted rejectedCount
    processed.duplicateCount processed.unsafeSeen ambiguousSeen processed.malformedSeen
  { commit :=
      if accepted ≠ [] ∧ status ≠ .failed then some ⟨processed.existingFingerprints, accepted⟩
      else none
    summary :=
      { status
        reasonCode
        acceptedCount := accepted.length
        rejectedCount
        duplicateCount := processed.duplicateCount
        acceptedFingerprints
        duplicateFingerprints := processed.duplicateFingerprints
        diagnostics := processed.diagnostics ++ (if ambiguousSeen then [ambiguity] else []) ++
          extra.toList } }

/-- `import_external_telemetry`, up to its writes. -/
def importOutcome (files : Files) (source fmt raw : String) : ImportOutcome :=
  match getAdapter fmt source with
  | none => ⟨none, failedImportSummary "UNSUPPORTED_TELEMETRY_FORMAT"
      ["Unsupported telemetry format: " ++ reportedFormatLabel checks fmt]⟩
  | some adapter =>
      match loadImportState checks files with
      | .error diagnostics => ⟨none, failedImportSummary "CORRUPTED_TELEMETRY_STORE" diagnostics⟩
      | .ok existing =>
          match adapter.parse checks loads raw source with
          | .error exception => ⟨none, failedImportSummary "MALFORMED_TELEMETRY"
              ["Adapter parsing failed: " ++ exception]⟩
          | .ok result => outcomeOf (processImportedEvents checks
              (trustedNormalizedEvents adapter result) source existing result)

/-- The files once an import has written its events. -/
def Files.commit (files : Files) : Option Commit → Files
  | none => files
  | some commit =>
      { files with
        fingerprints := some commit.fingerprints
        events := files.events.append commit.events }

/-- `import_external_telemetry`. -/
def importExternalTelemetry (files : Files) (source fmt raw : String) : Files × ImportSummary :=
  let outcome := importOutcome checks loads getAdapter files source fmt raw
  let files := files.commit outcome.commit
  ({ files with imports := files.imports ++ [outcome.summary] }, outcome.summary)

/-- Where an import crashes. -/
inductive CrashPoint where
  | beforeWrites
  /-- The fingerprints are replaced; so many events are appended, and part of the next. -/
  | afterFingerprints (written : Nat) (fragment : Fragment)
  /-- The summary is missing or torn; nothing reads it back. -/
  | afterAppend
  deriving DecidableEq

/-- The files that a crashed import leaves. -/
def crash (files : Files) (outcome : ImportOutcome) (point : CrashPoint) : Files :=
  match outcome.commit, point with
  | none, _ => files
  | some _, .beforeWrites => files
  | some commit, .afterFingerprints written fragment =>
      { files with
        fingerprints := some commit.fingerprints
        events := files.events.appendPart commit.events written fragment }
  | some commit, .afterAppend => files.commit (some commit)

inductive Label where
  | imported (source fmt raw : String)
  | crashed (source fmt raw : String) (point : CrashPoint)
  deriving DecidableEq

def step (files : Files) : Label → Option Files
  | .imported source fmt raw =>
      some (importExternalTelemetry checks loads getAdapter files source fmt raw).1
  | .crashed source fmt raw point =>
      some (crash files (importOutcome checks loads getAdapter files source fmt raw) point)

/-- The runs of imports of a workspace that has none of the files yet. -/
def imports : TransitionSystem Files Label :=
  .ofNext (· = {}) (step checks loads getAdapter)

/-- The step does not stop between the two writes that belong together. -/
def OutsideWindow : TransitionSystem.StepCondition Files Label
  | files, .crashed source fmt raw (.afterFingerprints written _), _ =>
      ∀ commit, (importOutcome checks loads getAdapter files source fmt raw).commit = some commit →
        commit.events.length ≤ written
  | _, _, _ => True

/-- The import took its input in: it accepted events of it, or knew them all. -/
def ImportSummary.Completed (summary : ImportSummary) : Prop :=
  summary.status ≠ .failed ∨ summary.reasonCode = "DUPLICATE_TELEMETRY_IMPORT"

/-- The events of an adapter's result that normalize. -/
def validEvents (trusted : Bool) (source : String) (events : List ExternalTelemetryEvent) :
    List ExternalTelemetryEvent :=
  events.filterMap fun event => (normalized checks trusted source event).toOption

/-- The events of an input that normalize. -/
def eventsOf (source fmt raw : String) : List ExternalTelemetryEvent :=
  match getAdapter fmt source with
  | none => []
  | some adapter =>
      match adapter.parse checks loads raw source with
      | .error _ => []
      | .ok result =>
          validEvents checks (trustedNormalizedEvents adapter result) source result.events

end Import

namespace EventStore

variable {store : EventStore}

theorem append_of_ended (hended : store.ended = true) (events : List ExternalTelemetryEvent) :
    store.append events = { lines := store.lines ++ events.map .event, ended := true } := by
  induction events generalizing store with
  | nil =>
      show store = _
      rw [← hended]
      simp
  | cons event events ih =>
      have hwrite : store.write (.event event) true =
          { lines := store.lines ++ [.event event], ended := true } := by
        unfold write
        rw [if_pos hended]
      show (store.write (.event event) true).append events = _
      rw [hwrite, ih rfl]
      simp

/-- A crash after the last event leaves nothing out. -/
theorem appendPart_of_length_le {events : List ExternalTelemetryEvent} {written : Nat}
    (h : events.length ≤ written) (fragment : Fragment) :
    store.appendPart events written fragment = store.append events := by
  unfold appendPart
  rw [List.take_of_length_le h, List.drop_of_length_le h]

end EventStore

section Processing

variable (checks : SafetyChecks)

/-- What the loop over the events of an input keeps, with the events gone through. -/
structure Processing (initial : Finset String) (valid : List ExternalTelemetryEvent)
    (processed : ProcessedEvents) : Prop where
  existing : processed.existingFingerprints =
    initial ∪ (processed.accepted.map (·.identity)).toFinset
  nodup : (processed.accepted.map (·.identity)).Nodup
  fresh : ∀ event ∈ processed.accepted, event.identity ∉ initial
  fromInput : ∀ event ∈ processed.accepted, event ∈ valid
  seen : ∀ event ∈ valid, event.identity ∈ processed.existingFingerprints

theorem Processing.event {initial : Finset String} {valid : List ExternalTelemetryEvent}
    {processed : ProcessedEvents} (trusted : Bool) (source : String)
    (h : Processing initial valid processed) (indexed : ExternalTelemetryEvent × Nat) :
    Processing initial (valid ++ (normalized checks trusted source indexed.1).toOption.toList)
      (processEvent checks trusted source processed indexed) := by
  unfold processEvent
  cases hnormalized : normalized checks trusted source indexed.1 with
  | error message =>
      have hvalid : valid ++ (Except.toOption (.error message :
          Except String ExternalTelemetryEvent)).toList = valid := by simp [Except.toOption]
      rw [hvalid]
      simp only
      split
      · exact ⟨h.existing, h.nodup, h.fresh, h.fromInput, h.seen⟩
      · exact ⟨h.existing, h.nodup, h.fresh, h.fromInput, h.seen⟩
  | ok event =>
      have hvalid : (Except.toOption (.ok event :
          Except String ExternalTelemetryEvent)).toList = [event] := rfl
      rw [hvalid]
      simp only
      split
      · next hknown =>
        refine ⟨h.existing, h.nodup, h.fresh, ?_, ?_⟩
        · intro other hother
          exact List.mem_append_left _ (h.fromInput other hother)
        · intro other hother
          rcases List.mem_append.mp hother with hold | hnew
          · exact h.seen other hold
          · rw [List.mem_singleton.mp hnew]
            exact hknown
      · next hunknown =>
        have hunion := hunknown
        rw [h.existing, Finset.mem_union, not_or] at hunion
        refine ⟨?_, ?_, ?_, ?_, ?_⟩
        · ext identity
          simp only [h.existing, List.map_append, List.map_cons, List.map_nil,
            List.toFinset_append, Finset.mem_insert, Finset.mem_union, List.mem_toFinset,
            List.mem_singleton]
          tauto
        · rw [List.map_append, List.map_cons, List.map_nil, List.nodup_append]
          refine ⟨h.nodup, List.nodup_singleton _, ?_⟩
          intro first hfirst second hsecond hsame
          rw [List.mem_singleton.mp hsecond] at hsame
          exact hunion.2 (List.mem_toFinset.mpr (hsame ▸ hfirst))
        · intro other hother
          rcases List.mem_append.mp hother with hold | hnew
          · exact h.fresh other hold
          · rw [List.mem_singleton.mp hnew]
            exact hunion.1
        · intro other hother
          rcases List.mem_append.mp hother with hold | hnew
          · exact List.mem_append_left _ (h.fromInput other hold)
          · exact List.mem_append_right _ hnew
        · intro other hother
          rcases List.mem_append.mp hother with hold | hnew
          · exact Finset.mem_insert_of_mem (h.seen other hold)
          · rw [List.mem_singleton.mp hnew]
            exact Finset.mem_insert_self _ _

theorem Processing.events {initial : Finset String} (trusted : Bool) (source : String)
    (indexed : List (ExternalTelemetryEvent × Nat)) :
    ∀ {valid : List ExternalTelemetryEvent} {processed : ProcessedEvents},
      Processing initial valid processed →
      Processing initial (valid ++ validEvents checks trusted source (indexed.map (·.1)))
        (indexed.foldl (processEvent checks trusted source) processed) := by
  induction indexed with
  | nil =>
      intro valid processed h
      simpa [validEvents] using h
  | cons first indexed ih =>
      intro valid processed h
      have hfirst := h.event checks trusted source first
      have hrest := ih hfirst
      rw [List.append_assoc] at hrest
      have hsplit : (normalized checks trusted source first.1).toOption.toList ++
          validEvents checks trusted source (indexed.map (·.1)) =
            validEvents checks trusted source ((first :: indexed).map (·.1)) := by
        unfold validEvents
        rw [List.map_cons, List.filterMap_cons]
        cases (normalized checks trusted source first.1).toOption <;> rfl
      rw [hsplit] at hrest
      exact hrest

/-- What processing the events of an input comes to. -/
theorem processing_processImportedEvents (trusted : Bool) (source : String)
    (existing : Finset String) (result : TelemetryParseResult) :
    Processing existing (validEvents checks trusted source result.events)
      (processImportedEvents checks trusted source existing result) := by
  have hstart : Processing existing [] 
      { unsafeSeen := result.unsafeSeen, malformedSeen := result.malformedSeen
        rejectedCount := result.rejectedCount, existingFingerprints := existing
        diagnostics := result.diagnostics.map checks.safeDiagnosticText } := by
    constructor <;> simp
  have hall := hstart.events checks trusted source result.events.zipIdx
  rw [List.nil_append, List.zipIdx_map_fst] at hall
  exact hall

end Processing

theorem outcomeOf_commit {processed : ProcessedEvents} {commit : Commit}
    (h : (outcomeOf processed).commit = some commit) :
    commit = ⟨processed.existingFingerprints, processed.accepted⟩ := by
  unfold outcomeOf at h
  simp only at h
  by_cases hdiscarded :
      (processed.unsafeSeen || decide (1 < processed.observedSessions.card)) = true
  · simp [hdiscarded] at h
  · simp only [if_neg hdiscarded] at h
    split at h
    · exact (Option.some.inj h).symm
    · cases h

theorem resolveImportStatus_of_accepted {accepted : List ExternalTelemetryEvent}
    (h : accepted ≠ []) (rejectedCount duplicateCount : Nat) (malformedSeen : Bool) :
    (resolveImportStatus accepted rejectedCount duplicateCount false false malformedSeen).1 ≠
      .failed := by
  unfold resolveImportStatus
  by_cases hrejected : rejectedCount = 0 <;> simp [h, hrejected]

/-- A completed import writes every event it accepted. -/
theorem outcomeOf_completed {processed : ProcessedEvents}
    (h : (outcomeOf processed).summary.Completed) :
    (outcomeOf processed).commit = some ⟨processed.existingFingerprints, processed.accepted⟩ ∨
      ((outcomeOf processed).commit = none ∧ processed.accepted = []) := by
  unfold ImportSummary.Completed outcomeOf at h
  unfold outcomeOf
  simp only at h ⊢
  cases hseen : processed.unsafeSeen with
  | true =>
      simp only [hseen, Bool.true_or, if_true] at h
      unfold resolveImportStatus at h
      split at h
      · simp at h
      · simp at h
  | false =>
      cases hambiguous : decide (1 < processed.observedSessions.card) with
      | true =>
          simp only [hambiguous, Bool.or_true, if_true] at h
          unfold resolveImportStatus at h
          simp at h
      | false =>
          simp only [Bool.or_false, Bool.false_eq_true, if_false]
          by_cases haccepted : processed.accepted = []
          · exact Or.inr ⟨by simp [haccepted], haccepted⟩
          · exact Or.inl (if_pos ⟨haccepted, resolveImportStatus_of_accepted haccepted _ _ _⟩)

section Sound

variable {checks : SafetyChecks} {loads : String → Except String Value}
  {getAdapter : String → String → Option TelemetryAdapter}

/-- The store holds these events, each once, and every known fingerprint is one of theirs. -/
structure Sound (checks : SafetyChecks) (files : Files) (events : List ExternalTelemetryEvent) :
    Prop where
  store : files.events = { lines := events.map .event, ended := true }
  normalized : ∀ event ∈ events, IsNormalized checks event
  nodup : (events.map (·.identity)).Nodup
  known : ∀ fingerprint ∈ files.fingerprints.getD ∅, fingerprint ∈ events.map (·.identity)

theorem loadLine_identities {events : List ExternalTelemetryEvent}
    (h : ∀ event ∈ events, IsNormalized checks event) :
    ∀ start, (((events.map StoredLine.event).zipIdx start).map (loadLine checks)).filterMap
        errorOf = [] →
      ((((events.map StoredLine.event).zipIdx start).map (loadLine checks)).filterMap
        Except.toOption).map (·.identity) = events.map (·.identity) := by
  induction events with
  | nil => intro start _; rfl
  | cons event events ih =>
      intro start hok
      have hrest := ih (fun other hother => h other (by simp [hother])) (start + 1)
      simp only [List.map_cons, List.zipIdx_cons] at hok ⊢
      cases hload : loadStoredExternalEvent checks event.toDict with
      | error message =>
          have hline : ∃ text, loadLine checks (.event event, start) = .error text :=
            ⟨_, by unfold loadLine; simp only [hload]; rfl⟩
          obtain ⟨text, hline⟩ := hline
          rw [hline, List.filterMap_cons] at hok
          cases hok
      | ok loaded =>
          have hline : loadLine checks (.event event, start) = .ok loaded := by
            unfold loadLine
            simp only [hload]
          obtain ⟨metadata, rfl⟩ :=
            loadStoredExternalEvent_toDict (h event (by simp)) hload
          rw [hline] at hok ⊢
          exact congrArg (event.identity :: ·) (hrest hok)

/-- Of sound files exactly the stored identities are known. -/
theorem Sound.mem_loadImportState {files : Files} {events : List ExternalTelemetryEvent}
    {existing : Finset String} (h : Sound checks files events)
    (hload : loadImportState checks files = .ok existing) (identity : String) :
    identity ∈ existing ↔ identity ∈ events.map (·.identity) := by
  unfold loadImportState loadExternalEventsWithDiagnostics at hload
  rw [h.store] at hload
  simp only at hload
  split at hload
  · cases hload
  · next hclean =>
    obtain rfl := Except.ok.inj hload
    rw [Finset.mem_union, List.mem_toFinset,
      loadLine_identities h.normalized 1 (by simpa using hclean)]
    exact ⟨fun hmem => hmem.elim (h.known identity) id, Or.inr⟩

/-- An event that some record is normalized to. -/
def IsNormalForm (checks : SafetyChecks) (event : ExternalTelemetryEvent) : Prop :=
  ∃ payload source, normalizeExternalEvent checks payload source = .ok event

theorem IsNormalForm.isNormalized {event : ExternalTelemetryEvent}
    (h : IsNormalForm checks event) : IsNormalized checks event := by
  obtain ⟨payload, source, hevent⟩ := h
  exact isNormalized_normalizeExternalEvent hevent

/-- The events of the package's own adapter are normalized. -/
theorem isNormalForm_parseGeneric {raw source : String} :
    ∀ event ∈ (parseGeneric checks loads raw source).events, IsNormalForm checks event := by
  unfold parseGeneric
  generalize (splitLines isLineEnd (universalNewlines raw.toList)).zipIdx 1 = lines
  have hall : ∀ before : TelemetryParseResult,
      (∀ event ∈ before.events, IsNormalForm checks event) → ∀ event ∈ (lines.foldl (parseLine checks loads source) before).events,
        IsNormalForm checks event := by
    induction lines with
    | nil => exact fun before hbefore => hbefore
    | cons line lines ih =>
        intro before hbefore
        refine ih _ ?_
        unfold parseLine
        simp only
        split
        · exact hbefore
        · split
          · exact hbefore
          · next payload hpayload =>
            unfold ofNormalized
            split
            · next event hevent =>
              intro other hother
              rcases List.mem_append.mp hother with hold | hnew
              · exact hbefore other hold
              · rw [List.mem_singleton.mp hnew]
                exact ⟨payload, source, hevent⟩
            · split
              · exact hbefore
              · exact hbefore
  exact hall _ (by simp)

theorem isNormalForm_validEvents {adapter : TelemetryAdapter} {raw source : String}
    {result : TelemetryParseResult} (hparse : adapter.parse checks loads raw source = .ok result) :
    ∀ event ∈ validEvents checks (trustedNormalizedEvents adapter result) source result.events,
      IsNormalForm checks event := by
  intro event hevent
  obtain ⟨given, hgiven, hnormalized⟩ := List.mem_filterMap.mp hevent
  unfold TelemetryImport.normalized at hnormalized
  split at hnormalized
  · next htrusted =>
    cases adapter with
    | genericAgentJsonl =>
        obtain rfl := Except.ok.inj hparse
        obtain rfl := Option.some.inj hnormalized
        exact isNormalForm_parseGeneric _ hgiven
    | registered parse => cases htrusted
  · cases hresult : normalizeExternalEvent checks given.toDict.toValue source with
    | error message =>
        rw [hresult] at hnormalized
        cases hnormalized
    | ok normalizedEvent =>
        rw [hresult] at hnormalized
        obtain rfl := Option.some.inj hnormalized
        exact ⟨_, _, hresult⟩

variable (checks loads getAdapter) in
/-- An import that reads its files gets as far as processing the events of its input. -/
theorem importOutcome_cases (files : Files) (source fmt raw : String) :
    ((importOutcome checks loads getAdapter files source fmt raw).commit = none ∧
      ¬ (importOutcome checks loads getAdapter files source fmt raw).summary.Completed) ∨
    ∃ existing valid processed, loadImportState checks files = .ok existing ∧
      (∀ event ∈ valid, IsNormalForm checks event) ∧ Processing existing valid processed ∧
      importOutcome checks loads getAdapter files source fmt raw = outcomeOf processed ∧
      eventsOf checks loads getAdapter source fmt raw = valid := by
  unfold importOutcome eventsOf
  cases getAdapter fmt source with
  | none => exact Or.inl ⟨rfl, by simp [ImportSummary.Completed, failedImportSummary]⟩
  | some adapter =>
      cases hload : loadImportState checks files with
      | error diagnostics =>
          exact Or.inl ⟨rfl, by simp [ImportSummary.Completed, failedImportSummary]⟩
      | ok existing =>
          cases hparse : adapter.parse checks loads raw source with
          | error exception =>
              simp only [hparse]
              exact Or.inl ⟨trivial, by simp [ImportSummary.Completed, failedImportSummary]⟩
          | ok result =>
              simp only [hparse]
              exact Or.inr ⟨existing, _, _, rfl, isNormalForm_validEvents hparse,
                processing_processImportedEvents checks _ source existing result, rfl, rfl⟩

/-- The files after the writes of an import. -/
theorem Sound.commit {files : Files} {events : List ExternalTelemetryEvent} {source fmt raw : String}
    {commit : Commit} (h : Sound checks files events)
    (hcommit : (importOutcome checks loads getAdapter files source fmt raw).commit = some commit) :
    Sound checks (files.commit (some commit)) (events ++ commit.events) := by
  rcases importOutcome_cases checks loads getAdapter files source fmt raw with
    ⟨hnone, -⟩ | ⟨existing, valid, processed, hload, hvalid, hp, ho, -⟩
  · rw [hnone] at hcommit
    cases hcommit
  · rw [ho] at hcommit
    obtain rfl := outcomeOf_commit hcommit
    have hfresh : ∀ event ∈ processed.accepted, event.identity ∉ events.map (·.identity) := by
      intro event hevent hmem
      exact hp.fresh event hevent ((h.mem_loadImportState hload _).mpr hmem)
    constructor
    · show files.events.append processed.accepted = _
      rw [h.store, EventStore.append_of_ended rfl, List.map_append]
    · intro event hevent
      rcases List.mem_append.mp hevent with hold | hnew
      · exact h.normalized event hold
      · exact (hvalid event (hp.fromInput event hnew)).isNormalized
    · rw [List.map_append, List.nodup_append]
      refine ⟨h.nodup, hp.nodup, ?_⟩
      intro first hfirst second hsecond hsame
      obtain ⟨event, hevent, rfl⟩ := List.mem_map.mp hsecond
      exact hfresh event hevent (hsame ▸ hfirst)
    · intro fingerprint hknown
      have hmem : fingerprint ∈ processed.existingFingerprints := hknown
      rw [hp.existing, Finset.mem_union, List.mem_toFinset] at hmem
      rw [List.map_append, List.mem_append]
      exact hmem.imp (h.mem_loadImportState hload _).mp id

/-- After a completed import the store has the events of the input, each once. -/
theorem Sound.imported {files : Files} {events : List ExternalTelemetryEvent}
    {source fmt raw : String} (h : Sound checks files events)
    (hcompleted : (importOutcome checks loads getAdapter files source fmt raw).summary.Completed) :
    ∃ stored, Sound checks (files.commit
        (importOutcome checks loads getAdapter files source fmt raw).commit) stored ∧
      ∀ event ∈ eventsOf checks loads getAdapter source fmt raw,
        event.identity ∈ stored.map (·.identity) := by
  rcases importOutcome_cases checks loads getAdapter files source fmt raw with
    ⟨-, hfailed⟩ | ⟨existing, valid, processed, hload, -, hp, ho, hv⟩
  · exact absurd hcompleted hfailed
  · have hmem := h.mem_loadImportState hload
    rw [hv]
    rcases outcomeOf_completed (ho ▸ hcompleted) with hcommit | ⟨hnone, hempty⟩
    · rw [← ho] at hcommit
      refine ⟨events ++ processed.accepted, hcommit ▸ h.commit hcommit, ?_⟩
      intro event hevent
      have hseen := hp.seen event hevent
      rw [hp.existing, Finset.mem_union, List.mem_toFinset] at hseen
      rw [List.map_append, List.mem_append]
      exact hseen.imp (hmem _).mp id
    · rw [← ho] at hnone
      refine ⟨events, by rw [hnone]; exact h, ?_⟩
      intro event hevent
      have hseen := hp.seen event hevent
      rw [hp.existing, hempty] at hseen
      exact (hmem _).mp (by simpa using hseen)

theorem Sound.timesStored {files : Files} {events : List ExternalTelemetryEvent}
    (h : Sound checks files events) {identity : String}
    (hmem : identity ∈ events.map (·.identity)) :
    files.events.timesStored identity = 1 := by
  have hcount : files.events.timesStored identity = (events.map (·.identity)).count identity := by
    rw [h.store]
    unfold EventStore.timesStored
    rw [List.countP_map, List.count, List.countP_map]
    rfl
  rw [hcount]
  exact List.count_eq_one_of_mem h.nodup hmem

/-- Sound files stay sound when only the import ledger grows. -/
theorem Sound.congr {files files' : Files} {events : List ExternalTelemetryEvent}
    (h : Sound checks files events) (hevents : files'.events = files.events)
    (hfingerprints : files'.fingerprints = files.fingerprints) : Sound checks files' events where
  store := by rw [hevents, h.store]
  normalized := h.normalized
  nodup := h.nodup
  known := by
    rw [hfingerprints]
    exact h.known

/-- A step outside the window keeps the files sound. -/
theorem Sound.step {files files' : Files} {events : List ExternalTelemetryEvent} {label : Label}
    (h : Sound checks files events) (hstep : step checks loads getAdapter files label = some files')
    (houtside : OutsideWindow checks loads getAdapter files label files') :
    ∃ stored, Sound checks files' stored := by
  have hcommit : ∀ source fmt raw, ∃ stored, Sound checks (files.commit
      (importOutcome checks loads getAdapter files source fmt raw).commit) stored := by
    intro source fmt raw
    cases hcommit : (importOutcome checks loads getAdapter files source fmt raw).commit with
    | none => exact ⟨events, h⟩
    | some commit => exact ⟨_, h.commit hcommit⟩
  cases label with
  | imported source fmt raw =>
      obtain rfl := Option.some.inj hstep
      obtain ⟨stored, hstored⟩ := hcommit source fmt raw
      exact ⟨stored, hstored.congr rfl rfl⟩
  | crashed source fmt raw point =>
      obtain rfl := Option.some.inj hstep
      obtain ⟨stored, hstored⟩ := hcommit source fmt raw
      unfold crash
      cases hnone : (importOutcome checks loads getAdapter files source fmt raw).commit with
      | none => exact ⟨events, h⟩
      | some commit =>
          rw [hnone] at hstored
          cases point with
          | beforeWrites => exact ⟨events, h⟩
          | afterAppend => exact ⟨stored, hstored⟩
          | afterFingerprints written fragment =>
              have hlength : commit.events.length ≤ written := houtside commit hnone
              refine ⟨stored, hstored.congr ?_ rfl⟩
              exact EventStore.appendPart_of_length_le hlength fragment

end Sound

/-- Where no import crashed between its two writes, every event of an input that an import took in
is in the store exactly once. -/
theorem imported_exactly_once (checks : SafetyChecks) (loads : String → Except String Value)
    (getAdapter : String → String → Option TelemetryAdapter) {files : Files}
    (hreach : (imports checks loads getAdapter).ReachableUnder
      (OutsideWindow checks loads getAdapter) files) (source fmt raw : String)
    (hcompleted :
      (importExternalTelemetry checks loads getAdapter files source fmt raw).2.Completed) :
    ∀ event ∈ eventsOf checks loads getAdapter source fmt raw,
      (importExternalTelemetry checks loads getAdapter files source fmt raw).1.events.timesStored
        event.identity = 1 := by
  have hsound : ∃ events, Sound checks files events := by
    refine hreach.invariant (fun files => ∃ events, Sound checks files events) ?_ ?_
    · rintro files rfl
      exact ⟨[], ⟨rfl, by simp, by simp, by simp⟩⟩
    · rintro files label files' ⟨events, hevents⟩ hstep houtside
      exact hevents.step hstep houtside
  obtain ⟨events, hevents⟩ := hsound
  obtain ⟨stored, hstored, hall⟩ := hevents.imported hcompleted
  intro event hevent
  exact (hstored.congr rfl rfl).timesStored (hall event hevent)

/-- Checks that find nothing unsafe, and read no time stamps. -/
def plainChecks : SafetyChecks where
  containsTokenMarker _ := false
  containsPrivateIdentifier _ := false
  looksLikeUnnecessaryAbsolutePath _ := false
  safeMetadata value := (value.toDict?).elim (.error "metadata must be an object") .ok
  isIsoTimestamp _ := false
  millisecondsBetween _ _ := .error "started_at and ended_at must be ISO timestamps"
  hexdigest := Digest.text

def packageAdapters (fmt _source : String) : Option TelemetryAdapter :=
  if fmt = "agent-jsonl" then some .genericAgentJsonl else none

/-- A record of a command, as a line of JSON. -/
def recordLine (eventId : String) : String :=
  "\x7b\"event_id\": \"" ++ eventId ++ "\", \"kind\": \"command\", \"operation\": \"tests\", " ++
    "\"status\": \"success\", \"duration_ms\": 5\x7d"

def recordPayload (eventId : String) : Value :=
  .dict [("event_id", .str eventId), ("kind", .str "command"), ("operation", .str "tests"),
    ("status", .str "success"), ("duration_ms", .int 5)]

/-- `json.loads` on the records of two events. -/
def loadsRecords (text : String) : Except String Value :=
  if text = recordLine "one" then .ok (recordPayload "one")
  else if text = recordLine "two" then .ok (recordPayload "two")
  else .error "Expecting value"

def importRecords (files : Files) (raw : String) : Files × ImportSummary :=
  importExternalTelemetry plainChecks loadsRecords packageAdapters files "agent" "agent-jsonl" raw

def recordEvents (raw : String) : List ExternalTelemetryEvent :=
  eventsOf plainChecks loadsRecords packageAdapters "agent" "agent-jsonl" raw

/-- The files after a crash that recorded a fingerprint and appended nothing. -/
def crashedFiles : Option Files :=
  TransitionSystem.run (step plainChecks loadsRecords packageAdapters) {}
    [.crashed "agent" "agent-jsonl" (recordLine "one") (.afterFingerprints 0 .nothing)]

/-- Two imports of both records in turn, the first of which crashes at its start. -/
def importBoth (files : Files) : Option (Files × ImportSummary) :=
  (step plainChecks loadsRecords packageAdapters files (.crashed "agent" "agent-jsonl"
    (recordLine "one" ++ "\n" ++ recordLine "two") .beforeWrites)).map fun files =>
      importRecords files (recordLine "one" ++ "\n" ++ recordLine "two")

/-- The files after an import whose summary is lost to a crash. -/
def unsummarizedFiles : Files :=
  crash {} (importOutcome plainChecks loadsRecords packageAdapters {} "agent" "agent-jsonl"
    (recordLine "one")) .afterAppend

theorem import_runs :
    (importRecords unsummarizedFiles (recordLine "one" ++ "\n" ++ recordLine "two")).2.status =
        .success ∧
      crashedFiles.any (fun files => (importBoth files).any fun both =>
        (importRecords files (recordLine "one")).2.reasonCode == "DUPLICATE_TELEMETRY_IMPORT" &&
        both.2.status == .success &&
        (recordEvents (recordLine "one")).any fun event =>
          (recordEvents (recordLine "one" ++ "\n" ++ recordLine "two")).contains event &&
          (importRecords files (recordLine "one")).1.events.timesStored event.identity == 0 &&
          both.1.events.timesStored event.identity == 0) = true := by
  decide +kernel

theorem retried_import_exactly_once :
    (importRecords unsummarizedFiles (recordLine "one" ++ "\n" ++ recordLine "two")).2.status =
        .success ∧
      ∀ event ∈ recordEvents (recordLine "one" ++ "\n" ++ recordLine "two"),
        (importRecords unsummarizedFiles
          (recordLine "one" ++ "\n" ++ recordLine "two")).1.events.timesStored event.identity = 1 := by
  have hreach : (imports plainChecks loadsRecords packageAdapters).ReachableUnder
      (OutsideWindow plainChecks loadsRecords packageAdapters) unsummarizedFiles :=
    .next (.start rfl)
      (rfl : step plainChecks loadsRecords packageAdapters {}
        (.crashed "agent" "agent-jsonl" (recordLine "one") .afterAppend) = some unsummarizedFiles)
      trivial
  obtain ⟨hstatus, -⟩ := import_runs
  exact ⟨hstatus, imported_exactly_once plainChecks loadsRecords packageAdapters hreach "agent"
    "agent-jsonl" _ (Or.inl fun hfailed => nomatch hstatus.symm.trans hfailed)⟩

/-- The event is lost for an import of the same input, which counts it as a duplicate, and for a
successful import of an input that has it. -/
theorem crashed_import_loses_event : ∃ files both,
    crashedFiles = some files ∧ importBoth files = some both ∧
      (importRecords files (recordLine "one")).2.reasonCode = "DUPLICATE_TELEMETRY_IMPORT" ∧
      both.2.status = .success ∧
      ∃ event ∈ recordEvents (recordLine "one"),
        event ∈ recordEvents (recordLine "one" ++ "\n" ++ recordLine "two") ∧
        (importRecords files (recordLine "one")).1.events.timesStored event.identity = 0 ∧
        both.1.events.timesStored event.identity = 0 := by
  obtain ⟨-, hrun⟩ := import_runs
  obtain ⟨files, hfiles, hrun⟩ := (Option.any_eq_true _ _).mp hrun
  obtain ⟨both, hboth, hrun⟩ := (Option.any_eq_true _ _).mp hrun
  simp only [Bool.and_eq_true, beq_iff_eq, List.any_eq_true, List.contains_iff_mem] at hrun
  obtain ⟨⟨hreason, hstatus⟩, event, hevent, ⟨hboth', hlost⟩, hlost'⟩ := hrun
  exact ⟨files, both, hfiles, hboth, hreason, hstatus, event, hevent, hboth', hlost, hlost'⟩

end GhAddressCr.TelemetryImport
