import GhAddressCr.Session

/-!
# Evidence records

Records identified by the digest of their content, and the attempts at a side effect that
they document. A time stamp counts microseconds.
-/
namespace GhAddressCr

def optionalText (value : Option String) : Value := (value.map Value.str).getD .null

/-- `payload_hash(payload)`. -/
def hashPayload (payload : Dict) : Digest := ⟨payload.toValue⟩

/-- `_stable_id(prefix, payload)`. -/
def stableId (label : String) (payload : Dict) : Digest :=
  ⟨.list [.str label, payload.toValue]⟩

/-- The digest as a text. -/
def Digest.text (digest : Digest) : String := digest.document.text

def EvidenceRecord.new (sessionId itemId : String) (leaseId : Option String)
    (agentId role eventType : String) (payload : Dict) (timestamp : Int) : EvidenceRecord where
  recordId := stableId "ev" (Dict.ofFields [
    ("timestamp", .time timestamp),
    ("session_id", .str sessionId),
    ("item_id", .str itemId),
    ("lease_id", optionalText leaseId),
    ("agent_id", .str agentId),
    ("role", .str role),
    ("event_type", .str eventType),
    ("payload_hash", .str (hashPayload payload).text)])
  timestamp := timestamp
  sessionId := sessionId
  itemId := itemId
  leaseId := leaseId
  agentId := agentId
  role := role
  eventType := eventType
  payload := payload
  payloadHash := hashPayload payload

inductive AttemptStatus where
  | inFlight | succeeded | failed
  deriving DecidableEq, Repr

def AttemptStatus.value : AttemptStatus → String
  | .inFlight => "in_flight"
  | .succeeded => "succeeded"
  | .failed => "failed"

/-- One attempt at a side effect; the publisher's have no retry count or back-off. -/
structure SideEffectAttempt where
  sessionId : String
  itemId : String
  sideEffectType : String
  idempotencyKey : String
  status : AttemptStatus
  lastError : Option String
  externalUrl : Option String
  timestamp : Int
  deriving DecidableEq

namespace SideEffectAttempt

def attemptId (attempt : SideEffectAttempt) : Digest :=
  stableId "attempt" (Dict.ofFields [
    ("timestamp", .time attempt.timestamp),
    ("session_id", .str attempt.sessionId),
    ("item_id", .str attempt.itemId),
    ("side_effect_type", .str attempt.sideEffectType),
    ("idempotency_key", .str attempt.idempotencyKey),
    ("status", .str attempt.status.value),
    ("retry_count", .int 0),
    ("backoff_until", .null),
    ("last_error", optionalText attempt.lastError),
    ("external_url", optionalText attempt.externalUrl)])

def toJson (attempt : SideEffectAttempt) : Dict :=
  Dict.ofFields [
    ("attempt_id", .str attempt.attemptId.text),
    ("session_id", .str attempt.sessionId),
    ("item_id", .str attempt.itemId),
    ("side_effect_type", .str attempt.sideEffectType),
    ("idempotency_key", .str attempt.idempotencyKey),
    ("status", .str attempt.status.value),
    ("retry_count", .int 0),
    ("backoff_until", .null),
    ("last_error", optionalText attempt.lastError),
    ("external_url", optionalText attempt.externalUrl)]

/-- The record the ledger keeps of an attempt. -/
def record (attempt : SideEffectAttempt) (leaseId : Option String) (agentId : String) :
    EvidenceRecord :=
  EvidenceRecord.new attempt.sessionId attempt.itemId leaseId agentId "publisher"
    "side_effect_attempt" attempt.toJson attempt.timestamp

end SideEffectAttempt
end GhAddressCr
