import GhAddressCr.StoreOperations

/-!
# Identities of evidence

A record is identified by the digest of its content and of the second it was made in, and a
record whose identity is committed is not written again. Rejections of requests get an identity
of their own. Events are counted here as the program appends them, and compared with the rows.
-/
namespace GhAddressCr

/-- `_utc_now`: an instant without its microseconds. -/
def wholeSecond (now : Int) : Int := now - now % 1000000

/-- An event as a command appends it to the ledger. -/
structure LedgerEvent where
  sessionId : String
  itemId : String
  leaseId : Option String
  agentId : String
  role : String
  eventType : String
  payload : Dict
  now : Int
  /-- The random identifier that a rejection of a request gets. -/
  identifier : Option String := none
  deriving DecidableEq

namespace LedgerEvent

def record (event : LedgerEvent) : EvidenceRecord :=
  let record := EvidenceRecord.new event.sessionId event.itemId event.leaseId event.agentId
    event.role event.eventType event.payload (wholeSecond event.now)
  match event.identifier with
  | none => record
  | some identifier => { record with recordId := ⟨.str ("ev_" ++ identifier)⟩ }

/-- The two events fall in one second, and nothing that is hashed tells them apart. -/
structure SameContent (event other : LedgerEvent) : Prop where
  second : wholeSecond event.now = wholeSecond other.now
  sessionId : event.sessionId = other.sessionId
  itemId : event.itemId = other.itemId
  leaseId : event.leaseId = other.leaseId
  agentId : event.agentId = other.agentId
  role : event.role = other.role
  eventType : event.eventType = other.eventType
  payloadHash : (hashPayload event.payload).text = (hashPayload other.payload).text

/-- Two events of one identity: they share a random identifier, or have none and the same
content. -/
def SameIdentity (event other : LedgerEvent) : Prop :=
  event.identifier = other.identifier ∧ (event.identifier = none → SameContent event other)

theorem optionalText_injective {text other : Option String}
    (h : optionalText text = optionalText other) : text = other := by
  cases text <;> cases other <;> simp_all [optionalText]

theorem stableId_injective {label : String} {payload other : Dict}
    (h : stableId label payload = stableId label other) : payload = other := by
  have hvalues : payload.toValue = other.toValue := by
    simpa [stableId] using h
  have hdict := congrArg Value.toDict? hvalues
  simpa using hdict

theorem recordId_new_eq_iff (event other : LedgerEvent)
    (hnone : event.identifier = none) (hother : other.identifier = none) :
    event.record.recordId = other.record.recordId ↔ SameContent event other := by
  have hrecord : ∀ e : LedgerEvent, e.identifier = none → e.record.recordId =
      stableId "ev" (Dict.ofFields [
        ("timestamp", .time (wholeSecond e.now)), ("session_id", .str e.sessionId),
        ("item_id", .str e.itemId), ("lease_id", optionalText e.leaseId),
        ("agent_id", .str e.agentId), ("role", .str e.role), ("event_type", .str e.eventType),
        ("payload_hash", .str (hashPayload e.payload).text)]) := by
    intro e he
    simp only [record, he]
    rfl
  rw [hrecord event hnone, hrecord other hother]
  constructor
  · intro h
    have hdict := stableId_injective h
    have hget := fun key => congrArg (Dict.get · key) hdict
    have hsecond := hget "timestamp"
    have hsession := hget "session_id"
    have hitem := hget "item_id"
    have hlease := hget "lease_id"
    have hagent := hget "agent_id"
    have hrole := hget "role"
    have htype := hget "event_type"
    have hpayload := hget "payload_hash"
    simp [Dict.ofFields, Dict.get_insert] at hsecond hsession hitem hlease hagent hrole htype
    simp [Dict.ofFields, Dict.get_insert] at hpayload
    exact ⟨hsecond, hsession, hitem, optionalText_injective hlease, hagent, hrole, htype, hpayload⟩
  · intro h
    rw [h.second, h.sessionId, h.itemId, h.leaseId, h.agentId, h.role, h.eventType, h.payloadHash]

theorem recordId_eq_iff (event other : LedgerEvent) :
    event.record.recordId = other.record.recordId ↔ SameIdentity event other := by
  cases hevent : event.identifier with
  | none =>
      cases hother : other.identifier with
      | none =>
          rw [recordId_new_eq_iff event other hevent hother]
          simp [SameIdentity, hevent, hother]
      | some identifier =>
          simp [SameIdentity, record, hevent, hother, EvidenceRecord.new, stableId]
  | some identifier =>
      cases hother : other.identifier with
      | none => simp [SameIdentity, record, hevent, hother, EvidenceRecord.new, stableId]
      | some identifier' => simp [SameIdentity, record, hevent, hother]

end LedgerEvent

open RuntimeStore

/-- The store, and every event that an operation committed. -/
structure LedgerRun where
  store : Option Store
  events : List LedgerEvent

/-- An operation, and the events that its command appends with it. -/
structure LedgerStep where
  operation : StoreOperation
  events : List LedgerEvent

/-- The operation runs with these events; nothing is committed when it raises. -/
def LedgerRun.next (run : LedgerRun) (step : LedgerStep) : Option LedgerRun :=
  if step.operation.records run.store = step.events.map (·.record) then
    match step.operation.apply run.store with
    | .ok committed => some ⟨some committed, run.events ++ step.events⟩
    | .error _ => some run
  else none

def ledgerRuns : TransitionSystem LedgerRun LedgerStep :=
  .ofNext (fun run => run.store = none ∧ run.events = []) LedgerRun.next

/-- Every row is of a committed event and every committed event has its row. -/
structure LedgerInvariant (run : LedgerRun) : Prop where
  keyed : EvidenceKeyed (evidenceOf run.store)
  members : ∀ record, record ∈ (evidenceOf run.store).map (·.record) ↔
    record ∈ run.events.map (·.record)

theorem LedgerInvariant.next {run run' : LedgerRun} {step : LedgerStep}
    (hinv : LedgerInvariant run) (h : run.next step = some run') : LedgerInvariant run' := by
  unfold LedgerRun.next at h
  split at h
  · next hrecords =>
    split at h
    · next committed hcommitted =>
      obtain rfl := Option.some.inj h
      obtain ⟨-, hgrows⟩ := StoreOperation.apply_evidence hinv.keyed hcommitted
      refine ⟨hgrows.keyed, fun record => ?_⟩
      rw [List.map_append, List.mem_append, ← hinv.members, ← hrecords]
      constructor
      · intro hrow
        obtain ⟨added, hadded, hnew⟩ := hgrows.added
        have hrow : record ∈ committed.evidence.map (·.record) := hrow
        rw [hadded] at hrow
        exact (List.mem_append.mp hrow).imp_right fun hadded => (hnew record hadded).1
      · rintro (hbefore | happended)
        · exact hgrows.mem hbefore
        · exact hgrows.holds record happended
    · obtain rfl := Option.some.inj h
      exact hinv
  · cases h

theorem ledgerInvariant_of_reachable {run : LedgerRun} (h : ledgerRuns.Reachable run) :
    LedgerInvariant run := by
  refine h.invariant LedgerInvariant ?_ fun _ _ _ hinv hnext => hinv.next hnext
  rintro ⟨store, events⟩ ⟨rfl, rfl⟩
  exact ⟨List.nodup_nil, fun record => Iff.rfl⟩

/-- Two committed events have one record exactly when they have one identity. -/
theorem LedgerInvariant.record_eq_iff {run : LedgerRun} (hinv : LedgerInvariant run)
    {event other : LedgerEvent} (hevent : event ∈ run.events) (hother : other ∈ run.events) :
    event.record = other.record ↔ event.SameIdentity other := by
  rw [← LedgerEvent.recordId_eq_iff]
  constructor
  · intro hsame
    rw [hsame]
  · intro hsame
    have hrow : ∀ e ∈ run.events, e.record ∈ (evidenceOf run.store).map (·.record) :=
      fun e he => (hinv.members _).mpr (List.mem_map_of_mem he)
    exact List.inj_on_of_nodup_map hinv.keyed (hrow event hevent) (hrow other hother) hsame

/-- The ledger has as many rows of every kind as events of it were committed, exactly when no
two of the committed events have one identity. -/
theorem evidence_rows_per_event {run : LedgerRun} (h : ledgerRuns.Reachable run) :
    (∀ kind : String, (evidenceOf run.store).countP (·.record.eventType = kind) =
      run.events.countP (·.eventType = kind)) ↔
    run.events.Pairwise fun event other => ¬ event.SameIdentity other := by
  have hinv := ledgerInvariant_of_reachable h
  have hkind : ∀ event : LedgerEvent, event.record.eventType = event.eventType := by
    intro event
    unfold LedgerEvent.record
    cases event.identifier <;> rfl
  have hnodup : ((evidenceOf run.store).map (·.record)).Nodup := List.Nodup.of_map _ hinv.keyed
  have hcounts := AppendOnlyLog.countP_eq_iff_nodup EvidenceRecord.eventType hnodup hinv.members
  have hrows : ∀ kind, ((evidenceOf run.store).map (·.record)).countP (·.eventType = kind) =
      (evidenceOf run.store).countP (·.record.eventType = kind) := by
    intro kind
    rw [List.countP_map]
    rfl
  have hevents : ∀ kind, (run.events.map (·.record)).countP (·.eventType = kind) =
      run.events.countP (·.eventType = kind) := by
    intro kind
    rw [List.countP_map]
    exact List.countP_congr fun event _ => by simp [hkind]
  simp only [hrows, hevents] at hcounts
  rw [hcounts, List.Nodup, List.pairwise_map]
  exact List.Pairwise.iff_of_mem fun hevent hother => not_congr (hinv.record_eq_iff hevent hother)

/-- `append_side_effect_attempt`. -/
def SideEffectAttempt.event (attempt : SideEffectAttempt) (leaseId : Option String)
    (agentId : String) : LedgerEvent where
  sessionId := attempt.sessionId
  itemId := attempt.itemId
  leaseId := leaseId
  agentId := agentId
  role := "publisher"
  eventType := "side_effect_attempt"
  payload := attempt.toJson
  now := attempt.timestamp

def replyCommand : OutboxCommand where
  commandId := "command"
  effectType := "github_reply"
  idempotencyKey := "key"
  operationCategory := "github_reply"
  retryBoundary := some (retryBoundaryFor "github_reply")

def replyAttempt : SideEffectAttempt where
  sessionId := "octo/example#7"
  itemId := "item"
  sideEffectType := "github_reply"
  idempotencyKey := "key"
  status := .inFlight
  lastError := none
  externalUrl := none
  timestamp := 0

def failedReply : SideEffectAttempt := { replyAttempt with status := .failed }

def planReply : LedgerStep :=
  ⟨.transact (fun session => .ok (session, ())) none [] [replyCommand], []⟩

def attemptReply (agentId : String) : LedgerStep :=
  ⟨.markOutboxInFlight "command" (some "owner") [(replyAttempt.event none agentId).record],
    [replyAttempt.event none agentId]⟩

def recordFailedReply : LedgerStep :=
  ⟨.recordOutboxResult "command" { succeeded := false } [(failedReply.event none "agent").record]
    (some "owner"), [failedReply.event none "agent"]⟩

def bootstrapLedger : LedgerStep := ⟨.bootstrap openedSession [], []⟩

/-- A reply fails, and an agent tries it again in the second of the first attempt. -/
def retriedReply (agentId : String) : List LedgerStep :=
  [bootstrapLedger, planReply, attemptReply "agent", recordFailedReply, attemptReply agentId]

def ledgerAfter (steps : List LedgerStep) : Option LedgerRun :=
  TransitionSystem.run LedgerRun.next ⟨none, []⟩ steps

theorem ledgerAfter_reachable {steps : List LedgerStep} {run : LedgerRun}
    (h : ledgerAfter steps = some run) : ledgerRuns.Reachable run :=
  TransitionSystem.reachable_of_run steps (.start ⟨rfl, rfl⟩) h

theorem retriedReply_runs :
    ((ledgerAfter (retriedReply "other")).any fun run =>
        decide (run.events = [replyAttempt.event none "agent", failedReply.event none "agent",
          replyAttempt.event none "other"])) = true ∧
      ((ledgerAfter (retriedReply "agent")).any fun run =>
        decide ((evidenceOf run.store).countP (·.record.eventType = "side_effect_attempt") = 2 ∧
          run.events.countP (·.eventType = "side_effect_attempt") = 3)) = true ∧
      (hashPayload replyAttempt.toJson).text ≠ (hashPayload failedReply.toJson).text := by
  decide +kernel

/-- Three attempts were committed, the outbox counts two tries, and two rows are left. -/
theorem evidence_rows_per_event_collapsed :
    ∃ run, ledgerRuns.Reachable run ∧
      (evidenceOf run.store).countP (·.record.eventType = "side_effect_attempt") = 2 ∧
      run.events.countP (·.eventType = "side_effect_attempt") = 3 := by
  obtain ⟨run, hrun, hcounts⟩ := (Option.any_eq_true _ _).mp retriedReply_runs.2.1
  exact ⟨run, ledgerAfter_reachable hrun, of_decide_eq_true hcounts⟩

/-- When another agent makes the second try, each of the three attempts has its row. -/
theorem evidence_rows_per_event_attempted :
    ∃ run, ledgerRuns.Reachable run ∧ run.events.length = 3 ∧ ∀ kind : String,
      (evidenceOf run.store).countP (·.record.eventType = kind) =
        run.events.countP (·.eventType = kind) := by
  obtain ⟨hother, -, hhash⟩ := retriedReply_runs
  obtain ⟨run, hrun, hevents⟩ := (Option.any_eq_true _ _).mp hother
  have hevents := of_decide_eq_true hevents
  have hreachable := ledgerAfter_reachable hrun
  have hagents : ∀ attempt : SideEffectAttempt, ¬ (attempt.event none "agent").SameIdentity
      (replyAttempt.event none "other") := fun attempt hsame =>
    absurd (hsame.2 rfl).agentId (by simp [SideEffectAttempt.event])
  have hpayloads : ¬ (replyAttempt.event none "agent").SameIdentity
      (failedReply.event none "agent") := fun hsame => hhash (hsame.2 rfl).payloadHash
  refine ⟨run, hreachable, by rw [hevents]; rfl, (evidence_rows_per_event hreachable).mpr ?_⟩
  rw [hevents]
  simp [hagents, hpayloads]

end GhAddressCr
