import GhAddressCr.Binary64
import GhAddressCr.CommittedViews
import GhAddressCr.CrMetrics
import Mathlib.Data.Prod.Lex

/-!
# The lifecycle of reviews

When each item of a session was observed, addressed and verified, as its ledger tells, and how
long the stages took. The events come in any order; those that cannot be placed in time are
skipped, and items whose stages do not follow each other are excluded.
-/
namespace GhAddressCr.CrMetrics

open PyText OrderStatistics Binary64

/-- `int` of a float. -/
def truncate (x : ℚ) : Int := if 0 ≤ x then ⌊x⌋ else ⌈x⌉

/-- `_percentile`; none where the selection raises. -/
def percentile (values : List Int) (q : ℚ) : Option Int :=
  let rank := max 1 ⌈toDouble (toDouble q * toDouble values.length)⌉
  selectKth values (rank - 1).toNat

/-- `_median`. -/
def median (values : List Int) : Option Int :=
  let midpoint := values.length / 2
  if values.length % 2 = 1 then selectKth values midpoint
  else do
    let low ← selectKth values (midpoint - 1)
    let high ← selectKth values midpoint
    return truncate (toDouble ((low + high : ℚ) / 2))

structure Distribution where
  median : Option Int
  p90 : Option Int
  max : Option Int
  min : Option Int
  sampleCount : Nat
  excluded : Nat
  deriving DecidableEq

/-- `_distribution`. -/
def distribution (values : List Int) (total : Nat) : Option Distribution :=
  if values = [] then
    some { median := none, p90 := none, max := none, min := none, sampleCount := 0
           excluded := total }
  else do
    let middle ← median values
    let p90 ← percentile values (9 / 10)
    return { median := some middle, p90 := some p90, max := values.max?, min := values.min?
             sampleCount := values.length, excluded := total - values.length }

/-- What `datetime.fromisoformat` makes of a text: an instant on the clock of no zone, or on a
clock that is `offset` ahead of UTC. Instants count microseconds. -/
inductive IsoReading where
  | invalid
  | naive (instant : Int)
  | aware (wall offset : Int)

/-- The first and the last instant that a `datetime` can hold. -/
def minDatetime : Int := -62135596800000000

def maxDatetime : Int := 253402300799999999

/-- The instant is outside the range of `datetime` in UTC. -/
def IsoReading.outOfRange : IsoReading → Bool
  | .aware wall offset => wall - offset < minDatetime || maxDatetime < wall - offset
  | _ => false

/-- `text.replace("Z", "+00:00")`. -/
def withUtcOffset (text : String) : String :=
  String.ofList (text.toList.flatMap fun c => if c = 'Z' then "+00:00".toList else [c])

/-- `_duration_ms`, whose quotient and product are floats. -/
def durationMs (start stop : Option Int) : Option Int :=
  match start, stop with
  | some start, some stop =>
      if stop < start then none
      else some (truncate (toDouble (toDouble ((stop - start : ℚ) / 1000000) * 1000)))
  | _, _ => none

/-- The first of the best rows of a list. -/
def firstBest {α : Type*} (better : α → α → Bool) (rows : List α) : Option α :=
  rows.foldl
    (fun best row =>
      match best with
      | none => some row
      | some best => if better row best then some row else some best)
    none

/-- The texts of a list without repetitions, in the order they come first. -/
def firstSeen : List String → List String
  | [] => []
  | text :: texts => text :: (firstSeen texts).filter (· ≠ text)

/-- An event with the instant of its time stamp. -/
abbrev Entry := Int × Dict

section Events

variable (fromisoformat : String → IsoReading)

/-- `parse_iso_datetime`. -/
def parseIsoDatetime (value : Value) : Except String (Option Int) :=
  match value with
  | .str text =>
      match fromisoformat (withUtcOffset text) with
      | .invalid => .ok none
      | .naive instant => .ok (some instant)
      | .aware wall offset =>
          if (IsoReading.aware wall offset).outOfRange then .error "OverflowError"
          else .ok (some (wall - offset))
  | _ => .ok none

def recordId (event : Dict) : String := event.textOr "record_id" ""

/-- The text of an event, which tells two records under one id apart. -/
def encoded (event : Dict) : Value := event.toValue.sortKeys

/-- The events without the repetitions of a record, and how many of those differ from it. -/
def dedupe (seen : Rows Value) : List Dict → List Dict × Nat
  | [] => ([], 0)
  | event :: events =>
      if recordId event = "" then
        let rest := dedupe seen events
        (event :: rest.1, rest.2)
      else
        match seen[recordId event]? with
        | some earlier =>
            let rest := dedupe seen events
            (rest.1, rest.2 + if earlier = encoded event then 0 else 1)
        | none =>
            let rest := dedupe (seen.insert (recordId event) (encoded event)) events
            (event :: rest.1, rest.2)

def uniqueEvents (events : List Dict) : List Dict := (dedupe ∅ events).1

def stampEvents (events : List Dict) : Except String (List (Dict × Option Int)) :=
  events.mapM fun event => do
    let instant ← parseIsoDatetime fromisoformat (event.get "timestamp")
    return (event, instant)

/-- The stamped events that are about an item. -/
def validEntries (stamped : List (Dict × Option Int)) : List Entry :=
  stamped.filterMap fun row =>
    if (row.1.get "item_id").truthy then row.2.map fun instant => (instant, row.1) else none

def sessionText (event : Dict) : String := event.textOr "session_id" ""

/-- The session of the latest of the entries. -/
def latestSession (entries : List Entry) : String :=
  match firstBest (fun row best => decide (best.1 < row.1)) entries with
  | some latest => sessionText latest.2
  | none => ""

/-- The entries of the latest session. -/
def sessionEntries (entries : List Entry) : List Entry :=
  entries.filter fun row => sessionText row.2 = latestSession entries

def itemText (event : Dict) : String := (event.get "item_id").text

/-- The entries of each item, in the order the items come first. -/
def byItem (entries : List Entry) : List (String × List Entry) :=
  (firstSeen (entries.map fun row => itemText row.2)).map fun itemId =>
    (itemId, entries.filter fun row => itemText row.2 = itemId)

structure PreparedEvents where
  sessionId : String
  byItem : List (String × List Entry)
  diagnostics : List String

def preparationDiagnostics (dropped conflicting : Nat) : List String :=
  (if dropped = 0 then []
    else ["skipped " ++ toString dropped ++
      " event(s) with missing or unparseable timestamp"]) ++
  (if conflicting = 0 then []
    else ["conflicting duplicate evidence record(s): " ++ toString conflicting])

/-- `_prepare_lifecycle_events`. -/
def prepareLifecycleEvents (events : List Dict) : Except String PreparedEvents := do
  let (unique, conflicting) := dedupe ∅ events
  let stamped ← stampEvents fromisoformat unique
  let entries := validEntries stamped
  return {
    sessionId := latestSession entries
    byItem := byItem (sessionEntries entries)
    diagnostics :=
      preparationDiagnostics (stamped.countP fun row => row.2.isNone) conflicting }

end Events

def times (entries : List Entry) : List Int := entries.map (·.1)

def ofType (eventType : String) (entries : List Entry) : List Entry :=
  entries.filter fun row => row.2.get "event_type" = .str eventType

/-- The kind that an observation gives its item. -/
def observedKind (event : Dict) : Except String (Option String) :=
  match ((event.get "payload").orElse (.dict [])).toDict? with
  | none => .error "AttributeError"
  | some payload =>
      .ok (if (payload.get "item_kind").truthy then some (payload.get "item_kind").text else none)

/-- The kinds that the observations give their item. -/
def observedKinds (observations : List Entry) : Except String (List String) := do
  let kinds ← observations.mapM fun row => observedKind row.2
  return firstSeen (kinds.filterMap id)

/-- `_verified_timestamp`. -/
def verifiedTimestamp (itemKind : String) (entries accepted : List Entry) : Option Int :=
  if itemKind = "github_thread" then (times (ofType "response_published" entries)).min?
  else if itemKind = "local_finding" then
    let lastRejection := (times (ofType "verification_rejected" entries)).max?
    (times (accepted.filter fun row => row.2.get "role" = .str "verifier" ∧
      lastRejection.all fun rejected => rejected < row.1)).min?
  else none

structure StageDurations where
  observedToAddressed : Option Int
  addressedToVerified : Option Int
  observedToVerified : Option Int
  deriving DecidableEq

structure EventCounts where
  addressAttempts : Nat
  responseRejections : Nat
  verificationRejections : Nat
  publishBlocked : Nat
  deriving DecidableEq

structure LifecycleItem where
  itemId : String
  itemKind : String
  observationProvenance : String
  observedAt : Int
  addressedAt : Option Int
  verifiedAt : Option Int
  durations : StageDurations
  counts : EventCounts
  firstPassVerified : Option Bool
  exclusionReasons : List String
  deriving DecidableEq

/-- Nothing excludes the item. -/
def LifecycleItem.eligible (item : LifecycleItem) : Bool := item.exclusionReasons.isEmpty

/-- The response that addressed an item, if any did. -/
def addressAcceptances (entries : List Entry) : List Entry :=
  (ofType "response_accepted" entries).filter fun row => row.2.get "role" ≠ .str "verifier"

def eventCounts (entries : List Entry) : EventCounts where
  addressAttempts := (addressAcceptances entries).length
  responseRejections := (ofType "response_rejected" entries).length
  verificationRejections := (ofType "verification_rejected" entries).length
  publishBlocked := (ofType "publish_blocked" entries).length

/-- A single accepted response, and nothing sent back. -/
def EventCounts.firstPass (counts : EventCounts) : Bool :=
  counts.addressAttempts = 1 && counts.responseRejections = 0 &&
    counts.verificationRejections = 0 && counts.publishBlocked = 0

def stageDurations (observedAt : Int) (addressedAt verifiedAt : Option Int) : StageDurations where
  observedToAddressed := durationMs (some observedAt) addressedAt
  addressedToVerified := durationMs addressedAt verifiedAt
  observedToVerified := durationMs (some observedAt) verifiedAt

/-- Why an item is excluded. -/
def exclusions (observed : Bool) (kinds : List String) (addressedAt verifiedAt : Option Int)
    (durations : StageDurations) : List String :=
  (if observed then [] else ["observation_inferred"]) ++
  (if 1 < kinds.length then ["item_kind_ambiguous"]
    else if kinds = [] then ["item_kind_unknown"] else []) ++
  (if addressedAt = none then ["addressed_at_missing"] else []) ++
  (if verifiedAt = none then ["verified_at_missing"] else []) ++
  (if addressedAt ≠ none ∧ durations.observedToAddressed = none then ["addressed_before_observed"]
    else []) ++
  (if verifiedAt ≠ none ∧ durations.observedToVerified = none then ["verified_before_observed"]
    else []) ++
  (if addressedAt ≠ none ∧ verifiedAt ≠ none ∧ durations.addressedToVerified = none then
    ["verified_before_addressed"] else [])

/-- `min(...)` of instants. -/
def earliest (instants : List Int) : Except String Int :=
  match instants.min? with
  | some instant => .ok instant
  | none => .error "ValueError"

/-- The item, as first observed at an instant and with the kinds that it was given. -/
def lifecycleItem (itemId : String) (entries : List Entry) (observedAt : Int)
    (kinds : List String) : LifecycleItem :=
  let observed := !(ofType "finding_observed" entries).isEmpty
  let itemKind := if kinds.length = 1 then kinds.headD "" else ""
  let addressedAt := (times (addressAcceptances entries)).min?
  let verifiedAt := verifiedTimestamp itemKind entries (ofType "response_accepted" entries)
  let counts := eventCounts entries
  let durations := stageDurations observedAt addressedAt verifiedAt
  { itemId, itemKind, observedAt, addressedAt, verifiedAt, durations, counts
    observationProvenance := if observed then "finding_observed" else "first_evidence"
    firstPassVerified := verifiedAt.map fun _ => counts.firstPass
    exclusionReasons := exclusions observed kinds addressedAt verifiedAt durations }

/-- `_project_lifecycle_item`. -/
def projectLifecycleItem (itemId : String) (entries : List Entry) :
    Except String LifecycleItem := do
  let observations := ofType "finding_observed" entries
  let observedAt ← earliest (times (if observations.isEmpty then entries else observations))
  let kinds ← observedKinds observations
  return lifecycleItem itemId entries observedAt kinds

structure StageCandidate where
  itemId : String
  stage : String
  durationMs : Int
  deriving DecidableEq

/-- The slowest stage comes first, then the item and the stage in order. -/
def StageCandidate.key (candidate : StageCandidate) : Int ×ₗ (String ×ₗ String) :=
  toLex (-candidate.durationMs, toLex (candidate.itemId, candidate.stage))

/-- The stages of an eligible item; none where one of them has no duration. -/
def stageCandidates (item : LifecycleItem) : Option (List StageCandidate) := do
  let addressed ← item.durations.observedToAddressed
  let verified ← item.durations.addressedToVerified
  return [⟨item.itemId, "observed_to_addressed", addressed⟩,
    ⟨item.itemId, "addressed_to_verified", verified⟩]

/-- `round(count / total, 4)`. -/
def ratio (count total : Nat) : Option ℚ :=
  if total = 0 then none
  else some (toDouble (roundHalfEven (toDouble ((count : ℚ) / total) * 10000) / 10000))

structure Friction where
  count : Nat
  denominator : Nat
  perVerifiedItem : Option ℚ
  excluded : Nat
  deriving DecidableEq

structure Aggregates where
  verifiedItems : Nat
  eligibleItems : Nat
  excludedItems : Nat
  observedToAddressed : Distribution
  addressedToVerified : Distribution
  observedToVerified : Distribution
  slowestStage : Option StageCandidate
  firstPassNumerator : Nat
  firstPassRate : Option ℚ
  addressAttempts : Friction
  responseRejections : Friction
  verificationRejections : Friction
  publishBlocked : Friction
  deriving DecidableEq

def friction (items : List LifecycleItem) (verified : Nat) (count : EventCounts → Nat) : Friction :=
  let total := (items.map fun item => count item.counts).sum
  { count := total, denominator := verified, perVerifiedItem := ratio total verified
    excluded := items.length - verified }

/-- `_lifecycle_aggregates`; none where it raises. -/
def lifecycleAggregates (items : List LifecycleItem) : Option Aggregates := do
  let eligible := items.filter (·.eligible)
  let verified := items.filter (·.verifiedAt.isSome)
  let total := items.length
  let addressed ← eligible.mapM (·.durations.observedToAddressed)
  let stages ← eligible.mapM (·.durations.addressedToVerified)
  let whole ← eligible.mapM (·.durations.observedToVerified)
  let candidates ← eligible.mapM stageCandidates
  let observedToAddressed ← distribution addressed total
  let addressedToVerified ← distribution stages total
  let observedToVerified ← distribution whole total
  let firstPass := verified.countP fun item => item.firstPassVerified = some true
  return {
    verifiedItems := verified.length
    eligibleItems := eligible.length
    excludedItems := total - eligible.length
    observedToAddressed, addressedToVerified, observedToVerified
    slowestStage := firstBest (fun row best => decide (row.key < best.key)) candidates.flatten
    firstPassNumerator := firstPass
    firstPassRate := ratio firstPass verified.length
    addressAttempts := friction items verified.length (·.addressAttempts)
    responseRejections := friction items verified.length (·.responseRejections)
    verificationRejections := friction items verified.length (·.verificationRejections)
    publishBlocked := friction items verified.length (·.publishBlocked) }

structure LifecycleReport where
  sessionId : String
  items : List LifecycleItem
  aggregates : Aggregates
  completeness : String
  reasonCode : String
  firstObservedToMergeReady : Option Int
  lastVerifiedToMergeReady : Option Int
  diagnostics : List String

/-- The instants at which the eligible items were verified. -/
def verifiedTimes (items : List LifecycleItem) : Except String (List Int) :=
  (items.filter (·.eligible)).mapM fun item =>
    match item.verifiedAt with
    | some instant => .ok instant
    | none => .error "AssertionError"

/-- `project_cr_lifecycle`. -/
def projectCrLifecycle (fromisoformat : String → IsoReading) (events : List Dict)
    (gateCompletedAt : Option String) : Except String LifecycleReport := do
  let prepared ← prepareLifecycleEvents fromisoformat events
  let items ← prepared.byItem.mapM fun row => projectLifecycleItem row.1 row.2
  let verified ← verifiedTimes items
  let gateTime ←
    if gateCompletedAt.getD "" = "" then .ok none
    else parseIsoDatetime fromisoformat (.str (gateCompletedAt.getD ""))
  let observed := (items.filter (·.eligible)).map (·.observedAt)
  match lifecycleAggregates items with
  | none => .error "TypeError"
  | some aggregates =>
      return {
        sessionId := prepared.sessionId
        items, aggregates
        completeness :=
          if items.isEmpty then "empty"
          else if aggregates.excludedItems = 0 then "complete" else "partial"
        reasonCode := if items.isEmpty then "CR_LEDGER_EMPTY" else "CR_LIFECYCLE_READY"
        firstObservedToMergeReady := durationMs observed.min? gateTime
        lastVerifiedToMergeReady := durationMs verified.max? gateTime
        diagnostics := prepared.diagnostics }

end GhAddressCr.CrMetrics
