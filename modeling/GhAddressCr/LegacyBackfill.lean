import GhAddressCr.SchemaUpgrade
import GhAddressCr.StoreOperations

/-!
# Backfilling the outbox from a legacy ledger

A legacy ledger is imported record by record, and a record that is there already is not written
again. The outbox rows are derived from what was written, so a repeated line of the ledger
counts once, at its first place.
-/
namespace GhAddressCr.RuntimeStore

/-- The attempt that a record documents. -/
def attemptOf (record : EvidenceRecord) : Option RecordedAttempt :=
  if record.eventType = "side_effect_attempt" then RecordedAttempt.fromJson record.payload
  else none

/-- The records of the attempts at a side effect, in the order of the ledger. -/
def effectRecords (ledger : List EvidenceRecord) (effect : String × String) :
    List EvidenceRecord :=
  ledger.filter fun record => (attemptOf record).any (·.key = effect)

def effectAttempts (ledger : List EvidenceRecord) (effect : String × String) :
    List RecordedAttempt :=
  (effectRecords ledger effect).filterMap attemptOf

def isInFlight (record : EvidenceRecord) : Bool := (attemptOf record).any (·.status = "in_flight")

namespace RecordedAttempt

/-- The status that an attempt leaves its side effect in: open, if the attempt was interrupted or
its success has no reference. -/
def outcome (attempt : RecordedAttempt) : Option OutboxStatus :=
  (backfillStatus attempt.status).map fun status =>
    if status = .succeeded ∧ attempt.externalUrl.truthy = false then .unknown else status

theorem outcome_of_inFlight {attempt : RecordedAttempt} (h : attempt.status = "in_flight") :
    attempt.outcome = some .unknown := by
  simp [outcome, h, backfillStatus]

theorem backfillRow_spec {attempt : RecordedAttempt} {sessionId : String}
    {attempts revision : Nat} {row : OutboxRow}
    (h : attempt.backfillRow sessionId attempts revision = .ok row) :
    attempt.outcome = some row.status ∧ row.attemptCount = attempts := by
  unfold backfillRow at h
  split at h
  · cases h
  · next status hstatus =>
    obtain ⟨reference, -, h⟩ := StoreResult.bind_ok.mp h
    obtain rfl := StoreResult.pure_ok.mp h
    exact ⟨by simp [outcome, hstatus], rfl⟩

end RecordedAttempt

theorem readableAttempts_eq (evidence : List EvidenceRow) :
    readableAttempts evidence = (evidence.map (·.record)).filterMap attemptOf := by
  induction evidence with
  | nil => rfl
  | cons row evidence ih =>
      unfold readableAttempts at ih ⊢
      by_cases hattempt : row.record.eventType = "side_effect_attempt"
      · simp [hattempt, List.filterMap_cons, attemptOf, ih]
      · simp [hattempt, attemptOf, ih]

theorem filter_key_attempts (ledger : List EvidenceRecord) (effect : String × String) :
    (ledger.filterMap attemptOf).filter (·.key = effect) = effectAttempts ledger effect := by
  unfold effectAttempts effectRecords
  induction ledger with
  | nil => rfl
  | cons record ledger ih =>
      cases hattempt : attemptOf record with
      | none => simp [hattempt, ih]
      | some attempt =>
          by_cases hkey : attempt.key = effect <;> simp [hattempt, hkey, ih]

theorem countP_inFlight (ledger : List EvidenceRecord) (effect : String × String) :
    (effectAttempts ledger effect).countP (·.status = "in_flight") =
      (effectRecords ledger effect).countP isInFlight := by
  unfold effectAttempts
  rw [List.countP_filterMap]
  refine List.countP_congr fun record _ => ?_
  unfold isInFlight
  cases attemptOf record <;> simp

/-- Each recorded side effect has one latest attempt, the last one recorded for it. -/
theorem mem_latestAttempts {attempts : List RecordedAttempt} {attempt : RecordedAttempt} :
    attempt ∈ latestAttempts attempts ↔
      (attempts.filter (·.key = attempt.key)).getLast? = some attempt := by
  have hlast : ∀ effect : String × String, attempts.reverse.find? (·.key = effect) =
      (attempts.filter (·.key = effect)).getLast? := by
    intro effect
    rw [← List.head?_filter, List.filter_reverse, List.head?_reverse]
  unfold latestAttempts
  simp only [List.mem_filterMap, List.mem_eraseDups, hlast]
  constructor
  · rintro ⟨effect, -, hfound⟩
    have hmem := List.mem_of_getLast? hfound
    have hkey : attempt.key = effect := by simpa using (List.mem_filter.mp hmem).2
    rw [hkey]
    exact hfound
  · intro hfound
    have hmem := (List.mem_filter.mp (List.mem_of_getLast? hfound)).1
    exact ⟨attempt.key, List.mem_map_of_mem hmem, hfound⟩

theorem foldlM_backfillAttempt_rows {sessionId : String} {attempts latest : List RecordedAttempt}
    {revision : Nat} {rows rows' : Rows OutboxRow} (hkeys : (latest.map (·.key)).Nodup)
    (hmissing : ∀ attempt ∈ latest, ¬ attempt.hasRow rows = true)
    (h : latest.foldlM (backfillAttempt sessionId attempts revision) rows = .ok rows') :
    (∀ (commandId : String) (row : OutboxRow), rows[commandId]? = some row →
      rows'[commandId]? = some row) ∧
      ∀ attempt ∈ latest, ∃ row, rows'[attempt.commandId]? = some row ∧
        attempt.backfillRow sessionId
          (attempts.countP fun other => other.key = attempt.key ∧ other.status = "in_flight")
          revision = .ok row := by
  induction latest generalizing rows with
  | nil =>
      obtain rfl : rows = rows' := by simpa using h
      exact ⟨fun _ _ hrow => hrow, by simp⟩
  | cons attempt latest ih =>
      obtain ⟨hfresh, hkeys⟩ := List.nodup_cons.mp hkeys
      rw [List.foldlM_cons] at h
      obtain ⟨middle, hmiddle, hrest⟩ := StoreResult.bind_ok.mp h
      obtain ⟨row, hrow, hfree, rfl⟩ :=
        (backfillAttempt_ok (hmissing attempt (by simp))).mp hmiddle
      have hothers : ∀ other ∈ latest,
          ¬ other.hasRow (rows.insert attempt.commandId row) = true := by
        intro other hother
        have hne : attempt.key ≠ other.key := fun heq =>
          hfresh (List.mem_map.mpr ⟨other, hother, heq.symm⟩)
        rw [RecordedAttempt.hasRow_insert hfree
          (by rw [RecordedAttempt.backfillRow_key hrow]; exact hne)]
        exact hmissing other (by simp [hother])
      obtain ⟨hkept, hlatest⟩ := ih hkeys hothers hrest
      constructor
      · intro commandId old hold
        refine hkept commandId old ?_
        rw [KeyedRows.getElem?_insert_of_ne rows row ?_]
        · exact hold
        · rintro rfl
          rw [hfree] at hold
          cases hold
      · intro other hother
        rcases List.mem_cons.mp hother with rfl | hother
        · exact ⟨row, hkept _ row (by simp), hrow⟩
        · exact hlatest other hother

/-- What an imported ledger leaves: its records without repetitions, and the rows of the last
attempts among them. -/
theorem importLegacy_rows {legacy : LegacyInput} {ledger : List EvidenceRecord} {store : Store}
    (h : importLegacy legacy = .ok store) (hledger : legacy.evidence = some ledger) :
    store.evidence.map (·.record) = ledger.eraseDups ∧
      ∀ attempt ∈ latestAttempts (readableAttempts store.evidence), ∃ row sessionId,
        store.outbox[attempt.commandId]? = some row ∧
        attempt.backfillRow sessionId ((readableAttempts store.evidence).countP fun other =>
          other.key = attempt.key ∧ other.status = "in_flight") 1 = .ok row := by
  unfold importLegacy at h
  split at h
  · cases h
  · cases h
  · next payload evidence hpayload hevidence =>
    obtain rfl := Option.some.inj (hevidence.symm.trans hledger)
    obtain ⟨created, hcreated, h⟩ := StoreResult.bind_ok.mp h
    obtain ⟨-, -, -, houtbox, hwritten⟩ := createStore_ok hcreated
    unfold backfillOutboxFromEvidence at h
    obtain ⟨attempts, hattempts, h⟩ := StoreResult.bind_ok.mp h
    obtain ⟨rows, hrows, h⟩ := StoreResult.bind_ok.mp h
    obtain rfl := StoreResult.pure_ok.mp h
    obtain ⟨-, rfl⟩ := recordedAttempts_ok.mp hattempts
    have hlog : created.evidence.map (·.record) = ([] ++ evidence).eraseDups :=
      AppendOnlyLog.writeAll_eraseDups (foldlM_writeEvidenceRecord_write hwritten)
    refine ⟨hlog, fun attempt hattempt => ?_⟩
    rw [houtbox] at hrows
    obtain ⟨-, hbackfilled⟩ := foldlM_backfillAttempt_rows
      (nodup_latestAttempts _) (fun attempt _ => by simp [RecordedAttempt.hasRow]) hrows
    obtain ⟨row, hrow, hvalue⟩ := hbackfilled attempt hattempt
    exact ⟨row, _, hrow, hvalue⟩

/-- The row of a recorded side effect says what the ledger says: the outcome of the last attempt
recorded for it and the number of attempts begun, and never a status that is retried when the
last attempt is open. -/
def FollowsLedger (store : Store) (ledger : List EvidenceRecord) (effect : String × String) :
    Prop :=
  ∃ row last, store.outbox[outboxCommandId effect.1 effect.2]? = some row ∧
    (row.effectType, row.idempotencyKey) = effect ∧
    (effectAttempts ledger effect).getLast? = some last ∧ last.outcome = some row.status ∧
    row.attemptCount = (effectAttempts ledger effect).countP (·.status = "in_flight") ∧
    (last.status = "in_flight" → row.status ≠ .planned ∧ row.status ≠ .failed)

/-- The outcome of the last of some records of attempts. -/
def lastOutcome (records : List EvidenceRecord) : Option OutboxStatus :=
  (records.getLast?.bind attemptOf).bind (·.outcome)

/-- No attempt begun is on two equal lines, and the last line that repeats no earlier one has the
outcome of the last line. -/
def RepetitionsHarmless (ledger : List EvidenceRecord) (effect : String × String) : Prop :=
  ((effectRecords ledger effect).filter isInFlight).Nodup ∧
    lastOutcome (effectRecords ledger effect).eraseDups = lastOutcome (effectRecords ledger effect)

instance (ledger : List EvidenceRecord) (effect : String × String) :
    Decidable (RepetitionsHarmless ledger effect) := inferInstanceAs (Decidable (_ ∧ _))

/-- The last attempt at an effect is what its last record documents. -/
theorem getLast?_effectAttempts (ledger : List EvidenceRecord) (effect : String × String) :
    (effectAttempts ledger effect).getLast? =
      (effectRecords ledger effect).getLast?.bind attemptOf := by
  have hreadable : ∀ record ∈ effectRecords ledger effect, (attemptOf record).isSome = true := by
    intro record hrecord
    have hkey := (List.mem_filter.mp hrecord).2
    cases hattempt : attemptOf record with
    | none => simp [hattempt] at hkey
    | some attempt => rfl
  unfold effectAttempts
  rcases List.eq_nil_or_concat (effectRecords ledger effect) with hnil | ⟨front, record, hlast⟩
  · simp [hnil]
  · obtain ⟨attempt, hattempt⟩ := Option.isSome_iff_exists.mp
      (hreadable record (by rw [hlast]; simp))
    simp [hlast, hattempt]

theorem outcome_last {ledger : List EvidenceRecord} {effect : String × String}
    {last : RecordedAttempt} (h : (effectAttempts ledger effect).getLast? = some last) :
    lastOutcome (effectRecords ledger effect) = last.outcome := by
  rw [getLast?_effectAttempts] at h
  simp [lastOutcome, h]

/-- The records of an effect are stored without their repetitions. -/
theorem effectRecords_eraseDups (ledger : List EvidenceRecord) (effect : String × String) :
    effectRecords ledger.eraseDups effect = (effectRecords ledger effect).eraseDups :=
  AppendOnlyLog.filter_eraseDups _ ledger

/-- The row that an import derives for a recorded side effect. -/
theorem importLegacy_row {legacy : LegacyInput} {ledger : List EvidenceRecord} {store : Store}
    (h : importLegacy legacy = .ok store) (hledger : legacy.evidence = some ledger)
    {effect : String × String} (hrecorded : effectRecords ledger effect ≠ []) :
    ∃ row, store.outbox[outboxCommandId effect.1 effect.2]? = some row ∧
      (row.effectType, row.idempotencyKey) = effect ∧
      lastOutcome (effectRecords ledger effect).eraseDups = some row.status ∧
      row.attemptCount = (effectRecords ledger effect).eraseDups.countP isInFlight := by
  obtain ⟨hstored, hrows⟩ := importLegacy_rows h hledger
  have hattempts : readableAttempts store.evidence = ledger.eraseDups.filterMap attemptOf := by
    rw [readableAttempts_eq, hstored]
  obtain ⟨record, hrecord⟩ := List.exists_mem_of_ne_nil _ hrecorded
  have hstoredRecord : record ∈ effectRecords ledger.eraseDups effect := by
    rw [effectRecords_eraseDups]
    exact List.mem_eraseDups.mpr hrecord
  have hnonempty : effectAttempts ledger.eraseDups effect ≠ [] := by
    obtain ⟨attempt, hattempt, -⟩ :=
      (Option.any_eq_true _ _).mp (List.mem_filter.mp hstoredRecord).2
    exact List.ne_nil_of_mem (List.mem_filterMap.mpr ⟨record, hstoredRecord, hattempt⟩)
  obtain ⟨last, hlast⟩ := Option.ne_none_iff_exists'.mp
    (mt List.getLast?_eq_none_iff.mp hnonempty)
  have hkey : last.key = effect := by
    rw [← filter_key_attempts] at hlast
    simpa using (List.mem_filter.mp (List.mem_of_getLast? hlast)).2
  have hlatest : last ∈ latestAttempts (readableAttempts store.evidence) := by
    rw [mem_latestAttempts, hattempts, hkey, filter_key_attempts]
    exact hlast
  obtain ⟨row, sessionId, hrow, hvalue⟩ := hrows last hlatest
  obtain ⟨hstatus, hcount⟩ := RecordedAttempt.backfillRow_spec hvalue
  have hcommand : last.commandId = outboxCommandId effect.1 effect.2 := by
    rw [← hkey]
    rfl
  refine ⟨row, by rw [← hcommand]; exact hrow, ?_, ?_, ?_⟩
  · rw [RecordedAttempt.backfillRow_key hvalue, hkey]
  · rw [← effectRecords_eraseDups, outcome_last hlast, hstatus]
  · rw [hcount, ← effectRecords_eraseDups, ← countP_inFlight, ← filter_key_attempts, hattempts,
      hkey, List.countP_filter]
    refine List.countP_congr fun attempt _ => ?_
    simp [and_comm]

/-- The row that an import derives for a side effect follows the ledger exactly when the lines
that are repeated there are harmless. -/
theorem backfilled_row_follows_iff {legacy : LegacyInput} {ledger : List EvidenceRecord}
    {store : Store} (h : importLegacy legacy = .ok store) (hledger : legacy.evidence = some ledger)
    {effect : String × String} (hrecorded : effectRecords ledger effect ≠ []) :
    FollowsLedger store ledger effect ↔ RepetitionsHarmless ledger effect := by
  obtain ⟨row, hrow, heffect, hstatus, hcount⟩ := importLegacy_row h hledger hrecorded
  unfold RepetitionsHarmless
  rw [← AppendOnlyLog.countP_eraseDups_eq_iff, hstatus]
  constructor
  · rintro ⟨found, last, hfound, -, hlast, houtcome, hfoundCount, -⟩
    obtain rfl := Option.some.inj (hrow.symm.trans hfound)
    rw [← hcount, hfoundCount, countP_inFlight, outcome_last hlast, houtcome]
    exact ⟨rfl, rfl⟩
  · rintro ⟨hsame, hlastStatus⟩
    obtain ⟨record, hrecord⟩ := Option.ne_none_iff_exists'.mp
      (mt List.getLast?_eq_none_iff.mp hrecorded)
    cases hlast : (effectAttempts ledger effect).getLast? with
    | none =>
        rw [getLast?_effectAttempts] at hlast
        simp [lastOutcome, hlast] at hlastStatus
    | some last =>
        have houtcome : last.outcome = some row.status := by
          rw [← outcome_last hlast, hlastStatus]
        refine ⟨row, last, hrow, heffect, hlast, houtcome, ?_, fun hopen => ?_⟩
        · rw [hcount, hsame, countP_inFlight]
        · rw [RecordedAttempt.outcome_of_inFlight hopen, Option.some.injEq] at houtcome
          simp [← houtcome]

/-- An attempt at the reply to a thread, recorded at the start of the clock. -/
def legacyReply (status : AttemptStatus) : EvidenceRecord :=
  SideEffectAttempt.record
    { sessionId := "s", itemId := "i", sideEffectType := "github_reply", idempotencyKey := "k"
      status := status, lastError := none, externalUrl := none, timestamp := 0 } none "a"

/-- The reply failed, was begun again within the second and was interrupted. -/
def retriedLines : List EvidenceRecord :=
  [legacyReply .inFlight, legacyReply .failed, legacyReply .inFlight]

def retriedLedger : LegacyInput where
  session := some
    { root := Dict.ofFields [("session_id", .str "s")], items := ∅, leases := ∅, leaseEvents := [] }
  evidence := some retriedLines

theorem retriedLines_recorded :
    effectRecords retriedLines ("github_reply", "k") ≠ [] ∧
      (effectAttempts retriedLines ("github_reply", "k")).countP (·.status = "in_flight") = 2 := by
  decide +kernel

theorem retriedLedger_imported : ∃ store row, importLegacy retriedLedger = .ok store ∧
    store.outbox[outboxCommandId "github_reply" "k"]? = some row ∧ row.attemptCount = 1 := by
  have hrun : (importLegacy retriedLedger).toOption.any (fun store =>
      store.outbox[outboxCommandId "github_reply" "k"]?.any (·.attemptCount == 1)) = true := by
    decide +kernel
  obtain ⟨store, hstore, hrow⟩ := StoreResult.exists_ok hrun
  obtain ⟨row, hfound, hcount⟩ := (Option.any_eq_true _ _).mp hrow
  exact ⟨store, row, hstore, hfound, by simpa using hcount⟩

theorem backfilled_row_follows_retried : ∃ store, importLegacy retriedLedger = .ok store ∧
    (FollowsLedger store retriedLines ("github_reply", "k") ↔
      RepetitionsHarmless retriedLines ("github_reply", "k")) := by
  obtain ⟨store, row, hstore, -⟩ := retriedLedger_imported
  exact ⟨store, hstore, backfilled_row_follows_iff hstore rfl retriedLines_recorded.1⟩

/-- The interrupted retry is lost: it is a line of the ledger that is there already. -/
theorem retried_reply_forgotten : ¬ ∀ (legacy : LegacyInput) (ledger : List EvidenceRecord)
    (store : Store) (effect : String × String), importLegacy legacy = .ok store →
      legacy.evidence = some ledger → effectRecords ledger effect ≠ [] →
      FollowsLedger store ledger effect := by
  intro hclaim
  obtain ⟨store, row, hstore, hrow, hcount⟩ := retriedLedger_imported
  obtain ⟨found, last, hfound, -, -, -, hattempts, -⟩ := hclaim retriedLedger retriedLines store
    ("github_reply", "k") hstore rfl retriedLines_recorded.1
  obtain rfl := Option.some.inj (hrow.symm.trans hfound)
  rw [hcount, retriedLines_recorded.2] at hattempts
  cases hattempts

end GhAddressCr.RuntimeStore
