import GhAddressCr.GithubThreadState

/-!
# Sessions

The state a command loads, changes and commits: the session's root fields, its items, its
leases and their events, the evidence buffered until the next commit, and the revision the
loaded copy describes.
-/
namespace GhAddressCr

/-- Rows keyed by their identifier, in identifier order, as the store loads them. -/
abbrev Rows (α : Type) := Std.ExtTreeMap String α compare

inductive AgentRole where
  | coordinator | reviewProducer | triage | fixer | verifier | publisher | gatekeeper
  deriving DecidableEq, Repr

namespace AgentRole

def value : AgentRole → String
  | .coordinator => "coordinator"
  | .reviewProducer => "review_producer"
  | .triage => "triage"
  | .fixer => "fixer"
  | .verifier => "verifier"
  | .publisher => "publisher"
  | .gatekeeper => "gatekeeper"

def all : List AgentRole :=
  [.coordinator, .reviewProducer, .triage, .fixer, .verifier, .publisher, .gatekeeper]

/-- The role with this value; `none` where the parse raises `ValueError`. -/
def parse (value : String) : Option AgentRole := all.find? (·.value == value)

theorem parse_eq_some {value : String} {role : AgentRole} :
    parse value = some role ↔ role.value = value := by
  constructor
  · intro h
    simpa using List.find?_some h
  · rintro rfl
    cases role <;> decide

end AgentRole

inductive LeaseStatus where
  | active | submitted | accepted | rejected | expired | released
  deriving DecidableEq, Repr

namespace LeaseStatus

def value : LeaseStatus → String
  | .active => "active"
  | .submitted => "submitted"
  | .accepted => "accepted"
  | .rejected => "rejected"
  | .expired => "expired"
  | .released => "released"

/-- `ACTIVE_LEASE_STATUSES`; the other statuses are terminal. -/
def isActive : LeaseStatus → Bool
  | .active | .submitted => true
  | _ => false

end LeaseStatus

/-- An agent's claim on one item. Instants count microseconds. -/
structure Lease where
  leaseId : String
  itemId : String
  agentId : String
  role : AgentRole
  status : LeaseStatus
  createdAt : Int
  expiresAt : Int
  resumeToken : Option String
  requestHash : String
  requestId : Option String
  requestPath : Option String
  conflictKeys : List String
  submittedAt : Option Int := none
  completedAt : Option Int := none
  reason : Option String := none
  deriving DecidableEq

/-- The lease still holds its item. -/
def Lease.isActive (lease : Lease) : Bool := lease.status.isActive

/-- The digest of a document. Digests are taken to be injective, so the document itself
stands for its digest. -/
structure Digest where
  document : Value
  deriving DecidableEq

structure EvidenceRecord where
  recordId : Digest
  timestamp : Int
  sessionId : String
  itemId : String
  leaseId : Option String
  agentId : String
  role : String
  eventType : String
  payload : Dict
  payloadHash : Digest
  deriving DecidableEq

/-- A session as a command holds it. -/
structure Session where
  /-- `session_id`, `repo`, `pr_number`, `status`, `metadata` and the other root fields. -/
  root : Dict
  items : Rows Dict
  leases : Rows Lease
  leaseEvents : List Dict
  /-- `_pending_evidence_records`. -/
  pendingEvidence : List EvidenceRecord := []
  /-- `persistence.revision`: the committed revision this copy describes. -/
  revision : Option Nat := none
  deriving DecidableEq

end GhAddressCr
