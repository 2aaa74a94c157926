import GhAddressCr.SideEffectExecution

/-!
# The invariant of the executions

What stays true of the outbox, the locks and everything the processes remember. An
executor is known by its owner token: the token is handed out with the execution lock, so
a token whose guard is gone never comes back, and a row in flight under a live executor's
token is changed by that executor only.
-/
namespace GhAddressCr.SideEffectExecution

open RuntimeStore SideEffectOutbox

variable {P : Type} (site : Site P) (w : World P)

/-- The process executes the command under this owner token. -/
def Guards (p : P) (commandId token : String) : Prop :=
  ∃ effect : SideEffect, (w.activity p).guard = some (effect, token) ∧
    effect.commandId site = commandId

/-- Nobody executes the command under the token it had in flight, now or later. -/
def Dead (command : InFlightCommand) : Prop :=
  ∀ token, command.2 = some token → token ∈ w.issued ∧ ∀ q, ¬ Guards site w q command.1 token

def InFlightUnder (commandId token : String) : Prop :=
  ∃ row, w.store.outbox[commandId]? = some row ∧ row.status = .inFlight ∧
    row.ownerToken = some token

/-- Beyond its planning, and in flight only under an owner. -/
def Settled (row : OutboxRow) : Prop :=
  row.status ≠ .planned ∧ ¬(row.status = .inFlight ∧ row.ownerToken = none)

def SettledCommand (commandId : String) : Prop :=
  ∃ row, w.store.outbox[commandId]? = some row ∧ Settled row

/-- What stays true of everything a process remembers. -/
def Consistent : Activity → Prop
  | .probing remaining dead _ =>
      (∀ command ∈ remaining, ∀ token, command.2 = some token → token ∈ w.issued) ∧
        ∀ command ∈ dead, Dead site w command
  | .demoting dead _ => ∀ command ∈ dead, Dead site w command
  | .listLatest effect _ | .listViewer effect _ | .reconciling effect _ =>
      SettledCommand w (effect.commandId site)
  | .guarded effect token .call => InFlightUnder w (effect.commandId site) token
  | .finishing effect (some token) _ phase =>
      InFlightUnder w (effect.commandId site) token ∧ (phase = .read ∨ phase = .record)
  | .finishing effect none _ phase =>
      SettledCommand w (effect.commandId site) ∧ (phase = .read ∨ phase = .record)
  | _ => True

structure Invariant : Prop where
  consistent : ∀ p, Consistent site w (w.activity p)
  locked : ∀ p effect token, (w.activity p).guard = some (effect, token) →
    w.locks (effect.commandId site) = some p ∧ token ∈ w.issued
  tokenIssued : ∀ (commandId : String) row token, w.store.outbox[commandId]? = some row →
    row.ownerToken = some token → token ∈ w.issued
  reference : ∀ (commandId : String) row, w.store.outbox[commandId]? = some row →
    HasReference row

/-- The permitted changes of a row in a step of one process, with what it was doing. -/
inductive RowChange (p : P) (committed : Store) (commandId : String) :
    OutboxRow → OutboxRow → Prop where
  /-- Planned, failed or, for a repeatable effect, unknown to in flight, by a new executor. -/
  | begun {row : OutboxRow} {effect : SideEffect} {token : String}
      (acting : w.activity p = .guarded effect token .mark)
      (command : effect.commandId site = commandId)
      (enters : row.status = .planned ∨ row.status = .failed ∨
        (row.status = .unknown ∧ row.retryBoundary = some .idempotent)) :
      RowChange p committed commandId row (inFlightRow row (some token))
  /-- In flight to succeeded or failed, under the executor's own token. -/
  | finished {row : OutboxRow} {effect : SideEffect} {token : String} {ended : AttemptEnd}
      (acting : w.activity p = .finishing effect (some token) ended .record)
      (command : effect.commandId site = commandId)
      (inFlight : row.status = .inFlight) (owned : row.ownerToken = some token)
      (reference : HasReference (resultRow row ended.result))
      (recorded : Recorded w.store committed (ended.record site effect)) :
      RowChange p committed commandId row (resultRow row ended.result)
  /-- In flight to unknown, once nobody holds the lock under the row's token. -/
  | demoted {row : OutboxRow} (inFlight : row.status = .inFlight)
      (dead : ∀ token, row.ownerToken = some token → ∀ q, ¬ Guards site w q commandId token) :
      RowChange p committed commandId row (unknownRow row)
  /-- Unknown to succeeded or failed, outside any guard, by what GitHub shows. -/
  | reconciled {row : OutboxRow} {effect : SideEffect} {ended : AttemptEnd}
      (acting : w.activity p = .finishing effect none ended .record)
      (command : effect.commandId site = commandId)
      (unknown : row.status = .unknown)
      (reference : HasReference (resultRow row ended.result))
      (recorded : Recorded w.store committed (ended.record site effect)) :
      RowChange p committed commandId row (resultRow row ended.result)
  /-- Unknown to failed, outside any guard, when nothing was posted. -/
  | reconciledNoEffect {row read : OutboxRow} {effect : SideEffect}
      (acting : w.activity p = .reconciling effect read)
      (command : effect.commandId site = commandId)
      (unknown : row.status = .unknown) :
      RowChange p committed commandId row
        (resultRow row { succeeded := false, errorType := some "reconciled_no_effect" })

/-- What a commit of a process may do to the table: change rows as permitted, and plan. -/
structure RowsEvolve (p : P) (committed : Store) : Prop where
  kept : ∀ (commandId : String) row, w.store.outbox[commandId]? = some row →
    ∃ row', committed.outbox[commandId]? = some row' ∧
      (row' = row ∨ RowChange site w p committed commandId row row')
  added : ∀ (commandId : String) row', w.store.outbox[commandId]? = none →
    committed.outbox[commandId]? = some row' → ∃ (effect : SideEffect) (session : String) (revision : Nat),
      effect.commandId site = commandId ∧
      row' = plannedRow session (effect.command site) revision

variable {site w}

theorem Guards.of_guard {p : P} {effect : SideEffect} {token : String}
    (h : (w.activity p).guard = some (effect, token)) :
    Guards site w p (effect.commandId site) token :=
  ⟨effect, h, rfl⟩

theorem Guards.guarded {p : P} {effect : SideEffect} {token commandId : String}
    {phase : GuardPhase} (acting : w.activity p = .guarded effect token phase)
    (command : effect.commandId site = commandId) : Guards site w p commandId token :=
  ⟨effect, by simp [acting, Activity.guard], command⟩

theorem Guards.finishing {p : P} {effect : SideEffect} {token commandId : String}
    {ended : AttemptEnd} {phase : FinishPhase}
    (acting : w.activity p = .finishing effect (some token) ended phase)
    (command : effect.commandId site = commandId) : Guards site w p commandId token :=
  ⟨effect, by simp [acting, Activity.guard], command⟩

/-- The lock of a command has one holder. -/
theorem Invariant.guards_unique (h : Invariant site w) {p q : P} {commandId token other : String}
    (hp : Guards site w p commandId token) (hq : Guards site w q commandId other) : p = q := by
  obtain ⟨effect, hguard, hcommand⟩ := hp
  obtain ⟨effect', hguard', hcommand'⟩ := hq
  have hlock := (h.locked p effect token hguard).1
  have hlock' := (h.locked q effect' other hguard').1
  rw [hcommand] at hlock
  rw [hcommand', hlock] at hlock'
  exact Option.some.inj hlock'

/-- A row that changes under a live executor's token is changed by that executor. -/
theorem RowChange.of_guards (h : Invariant site w) {p q : P} {committed : Store}
    {commandId token : String} {row row' : OutboxRow}
    (hchange : RowChange site w p committed commandId row row')
    (hstatus : row.status = .inFlight) (htoken : row.ownerToken = some token)
    (hq : Guards site w q commandId token) : p = q := by
  cases hchange with
  | begun _ _ enters => simp [hstatus] at enters
  | finished acting command => exact h.guards_unique (.finishing acting command) hq
  | demoted _ dead => exact absurd hq (dead token htoken q)
  | reconciled _ _ unknown => simp [hstatus] at unknown
  | reconciledNoEffect _ _ unknown => simp [hstatus] at unknown

theorem RowChange.settled {p : P} {committed : Store} {commandId : String}
    {row row' : OutboxRow} (hchange : RowChange site w p committed commandId row row') :
    Settled row' := by
  cases hchange with
  | begun => simp [Settled, inFlightRow]
  | @finished _ _ ended =>
      cases ended <;> simp [Settled, resultRow, OutboxResult.status, AttemptEnd.result]
  | demoted => simp [Settled, unknownRow]
  | @reconciled _ ended =>
      cases ended <;> simp [Settled, resultRow, OutboxResult.status, AttemptEnd.result]
  | reconciledNoEffect => simp [Settled, resultRow, OutboxResult.status]

theorem RowChange.not_succeeded {p : P} {committed : Store} {commandId : String} {row row' : OutboxRow}
    (h : RowChange site w p committed commandId row row') : row.status ≠ .succeeded := by
  intro hsucceeded
  cases h with
  | begun _ _ enters => simp [hsucceeded] at enters
  | finished _ _ inFlight => simp [hsucceeded] at inFlight
  | demoted inFlight => simp [hsucceeded] at inFlight
  | reconciled _ _ unknown => simp [hsucceeded] at unknown
  | reconciledNoEffect _ _ unknown => simp [hsucceeded] at unknown

theorem RowChange.recorded {p : P} {committed : Store} {commandId : String} {row row' : OutboxRow}
    (h : RowChange site w p committed commandId row row') (hsucceeded : row'.status = .succeeded) :
    ∃ (effect : SideEffect) (url : String), row'.externalResultReference = some url ∧
      Recorded w.store committed (effect.record site .succeeded (some url) none) := by
  have hended : ∀ (effect : SideEffect) (ended : AttemptEnd),
      (resultRow row ended.result).status = .succeeded →
      Recorded w.store committed (ended.record site effect) →
      ∃ (effect : SideEffect) (url : String),
        (resultRow row ended.result).externalResultReference = some url ∧
        Recorded w.store committed (effect.record site .succeeded (some url) none) := by
    intro effect ended hstatus hrecorded
    cases ended with
    | succeeded url => exact ⟨effect, url, rfl, hrecorded⟩
    | failed error => cases hstatus
  cases h with
  | begun => cases hsucceeded
  | finished _ _ _ _ _ recorded => exact hended _ _ hsucceeded recorded
  | demoted => cases hsucceeded
  | reconciled _ _ _ _ recorded => exact hended _ _ hsucceeded recorded
  | reconciledNoEffect => cases hsucceeded

theorem RowsEvolve.refl (p : P) (committed : Store) (h : committed.outbox = w.store.outbox) :
    RowsEvolve site w p committed where
  kept commandId row hrow := ⟨row, by rw [h, hrow], Or.inl rfl⟩
  added commandId row' hnone hsome := by
    rw [h, hnone] at hsome
    cases hsome

/-- A commit that changes one row as permitted. -/
theorem RowsEvolve.insert {p : P} {committed : Store} {commandId : String}
    {row row' : OutboxRow} (hrow : w.store.outbox[commandId]? = some row)
    (hcommitted : committed.outbox = w.store.outbox.insert commandId row')
    (hchange : RowChange site w p committed commandId row row') :
    RowsEvolve site w p committed where
  kept other old hold := by
    by_cases hsame : commandId = other
    · subst hsame
      rw [hrow] at hold
      have hold := Option.some.inj hold
      subst hold
      exact ⟨row', by simp [hcommitted], Or.inr hchange⟩
    · exact ⟨old, by rw [hcommitted, KeyedRows.getElem?_insert_of_ne _ _ hsame, hold],
        Or.inl rfl⟩
  added other new hnone hsome := by
    have hne : commandId ≠ other := by
      intro hsame
      rw [← hsame, hrow] at hnone
      cases hnone
    rw [hcommitted, KeyedRows.getElem?_insert_of_ne _ _ hne, hnone] at hsome
    cases hsome

theorem RowChange.tokenIssued (h : Invariant site w) {p : P} {committed : Store}
    {commandId token : String} {row row' : OutboxRow}
    (hchange : RowChange site w p committed commandId row row')
    (htoken : row'.ownerToken = some token) : token ∈ w.issued := by
  cases hchange with
  | begun acting =>
      have hsame := Option.some.inj htoken
      subst hsame
      exact (h.locked p _ _ (by rw [acting]; rfl)).2
  | finished => simp [resultRow] at htoken
  | demoted => simp [unknownRow] at htoken
  | reconciled => simp [resultRow] at htoken
  | reconciledNoEffect => simp [resultRow] at htoken

theorem RowChange.hasReference {p : P} {committed : Store} {commandId : String}
    {row row' : OutboxRow} (hchange : RowChange site w p committed commandId row row') :
    HasReference row' := by
  cases hchange with
  | begun => simp [HasReference, inFlightRow]
  | finished _ _ _ _ reference => exact reference
  | demoted => simp [HasReference, unknownRow]
  | reconciled _ _ _ reference => exact reference
  | reconciledNoEffect => simp [HasReference, resultRow, OutboxResult.status]

theorem SettledCommand.evolve {p : P} {committed : Store} {commandId : String}
    (hrows : RowsEvolve site w p committed) (h : SettledCommand w commandId) :
    ∃ row, committed.outbox[commandId]? = some row ∧ Settled row := by
  obtain ⟨row, hrow, hsettled⟩ := h
  obtain ⟨row', hrow', rfl | hchange⟩ := hrows.kept commandId row hrow
  · exact ⟨row', hrow', hsettled⟩
  · exact ⟨row', hrow', hchange.settled⟩

theorem InFlightUnder.evolve (hinv : Invariant site w) {p q : P} {committed : Store}
    {commandId token : String} (hrows : RowsEvolve site w p committed)
    (hq : Guards site w q commandId token) (hne : q ≠ p)
    (h : InFlightUnder w commandId token) :
    ∃ row, committed.outbox[commandId]? = some row ∧ row.status = .inFlight ∧
      row.ownerToken = some token := by
  obtain ⟨row, hrow, hstatus, htoken⟩ := h
  obtain ⟨row', hrow', rfl | hchange⟩ := hrows.kept commandId row hrow
  · exact ⟨row', hrow', hstatus, htoken⟩
  · exact absurd (hchange.of_guards hinv hstatus htoken hq).symm hne

/-- A process goes on to another activity, under the guard it had or under none. -/
structure Moves (w w' : World P) (p : P) : Prop where
  others : ∀ q, q ≠ p → w'.activity q = w.activity q
  guard : ∀ effect token, (w'.activity p).guard = some (effect, token) →
    (w.activity p).guard = some (effect, token)
  issued : w'.issued = w.issued
  locks : ∀ q commandId, w.locks commandId = some q →
    (q ≠ p ∨ (w'.activity p).guard.isSome) → w'.locks commandId = some q

theorem Moves.guards {w' : World P} {p : P} (h : Moves w w' p) {q : P}
    {commandId token : String} (hq : Guards site w' q commandId token) :
    Guards site w q commandId token := by
  obtain ⟨effect, hguard, hcommand⟩ := hq
  by_cases hsame : q = p
  · subst hsame
    exact ⟨effect, h.guard effect token hguard, hcommand⟩
  · rw [h.others q hsame] at hguard
    exact ⟨effect, hguard, hcommand⟩

theorem Moves.dead {w' : World P} {p : P} (h : Moves w w' p) {command : InFlightCommand}
    (hdead : Dead site w command) : Dead site w' command := by
  intro token htoken
  obtain ⟨hissued, hnone⟩ := hdead token htoken
  exact ⟨h.issued ▸ hissued, fun q hq => hnone q (h.guards hq)⟩

/-- What another process remembers survives a process's commit. -/
theorem Consistent.moves (hinv : Invariant site w) {w' : World P} {p q : P}
    (hmoves : Moves w w' p) (hrows : RowsEvolve site w p w'.store) (hne : q ≠ p) :
    Consistent site w' (w.activity q) := by
  have hold := hinv.consistent q
  revert hold
  have hflight : ∀ effect token, (w.activity q).guard = some (effect, token) →
      InFlightUnder w (effect.commandId site) token →
      InFlightUnder w' (effect.commandId site) token := by
    intro effect token hguard hunder
    exact hunder.evolve hinv hrows (Guards.of_guard hguard) hne
  cases hactivity : w.activity q with
  | probing remaining dead resume =>
      intro hold
      exact ⟨fun command hmem token htoken => hmoves.issued ▸ hold.1 command hmem token htoken,
        fun command hmem => hmoves.dead (hold.2 command hmem)⟩
  | demoting dead resume =>
      intro hold command hmem
      exact hmoves.dead (hold command hmem)
  | listLatest effect row => exact fun hold => SettledCommand.evolve hrows hold
  | listViewer effect row => exact fun hold => SettledCommand.evolve hrows hold
  | reconciling effect row => exact fun hold => SettledCommand.evolve hrows hold
  | guarded effect token phase =>
      intro hold
      cases phase with
      | call => exact hflight effect token (by rw [hactivity]; rfl) hold
      | read => trivial
      | plan => trivial
      | mark => trivial
  | finishing effect owner ended phase =>
      intro hold
      cases owner with
      | none => exact ⟨SettledCommand.evolve hrows hold.1, hold.2⟩
      | some token => exact ⟨hflight effect token (by rw [hactivity]; rfl) hold.1, hold.2⟩
  | idle => exact fun _ => trivial
  | readInFlight _ => exact fun _ => trivial
  | readState _ _ => exact fun _ => trivial
  | probeOwner _ => exact fun _ => trivial
  | confirmOwner _ => exact fun _ => trivial
  | acquire _ => exact fun _ => trivial

/-- A move keeps the invariant when what the process now remembers is consistent. -/
theorem Invariant.moves (h : Invariant site w) {w' : World P} {p : P} (hmoves : Moves w w' p)
    (hrows : RowsEvolve site w p w'.store)
    (hconsistent : Consistent site w' (w'.activity p)) : Invariant site w' where
  consistent q := by
    by_cases hsame : q = p
    · exact hsame ▸ hconsistent
    · rw [hmoves.others q hsame]
      exact Consistent.moves h hmoves hrows hsame
  locked q effect token hguard := by
    have hold : (w.activity q).guard = some (effect, token) := by
      by_cases hsame : q = p
      · subst hsame
        exact hmoves.guard effect token hguard
      · rwa [hmoves.others q hsame] at hguard
    obtain ⟨hlock, hissued⟩ := h.locked q effect token hold
    refine ⟨hmoves.locks q _ hlock ?_, hmoves.issued ▸ hissued⟩
    by_cases hsame : q = p
    · subst hsame
      exact Or.inr (by rw [hguard]; rfl)
    · exact Or.inl hsame
  tokenIssued commandId row' token hrow' htoken := by
    rw [hmoves.issued]
    cases hrow : w.store.outbox[commandId]? with
    | none =>
        obtain ⟨effect, session, revision, -, rfl⟩ := hrows.added commandId row' hrow hrow'
        cases htoken
    | some row =>
        obtain ⟨new, hnew, hkept⟩ := hrows.kept commandId row hrow
        rw [hrow'] at hnew
        have hnew := Option.some.inj hnew
        subst hnew
        rcases hkept with rfl | hchange
        · exact h.tokenIssued commandId row' token hrow htoken
        · exact hchange.tokenIssued h htoken
  reference commandId row' hrow' := by
    cases hrow : w.store.outbox[commandId]? with
    | none =>
        obtain ⟨effect, session, revision, -, rfl⟩ := hrows.added commandId row' hrow hrow'
        intro hsucceeded
        cases hsucceeded
    | some row =>
        obtain ⟨new, hnew, hkept⟩ := hrows.kept commandId row hrow
        rw [hrow'] at hnew
        have hnew := Option.some.inj hnew
        subst hnew
        rcases hkept with rfl | hchange
        · exact h.reference commandId row' hrow
        · exact hchange.hasReference

theorem Initial.invariant (h : Initial w) : Invariant site w where
  consistent p := by
    rw [h.idle p]
    trivial
  locked p effect token hguard := by
    rw [h.idle p] at hguard
    cases hguard
  tokenIssued := h.tokenIssued
  reference := h.reference

/-- The invariant speaks of the outbox, the locks, the activities and the tokens only. -/
theorem Invariant.congr (h : Invariant site w) {w' : World P}
    (houtbox : w'.store.outbox = w.store.outbox) (hactivity : w'.activity = w.activity)
    (hlocks : w'.locks = w.locks) (hissued : w'.issued = w.issued) : Invariant site w' where
  consistent p := by
    have hdead : Dead site w' = Dead site w := by
      funext command
      unfold Dead Guards
      rw [hactivity, hissued]
    have hflight : InFlightUnder w' = InFlightUnder w := by
      unfold InFlightUnder
      rw [houtbox]
    have hsettled : SettledCommand w' = SettledCommand w := by
      unfold SettledCommand
      rw [houtbox]
    have hold := h.consistent p
    rw [hactivity]
    unfold Consistent at hold ⊢
    rw [hdead, hflight, hsettled, hissued]
    exact hold
  locked p effect token hguard := by
    rw [hactivity] at hguard
    rw [hlocks, hissued]
    exact h.locked p effect token hguard
  tokenIssued commandId row token hrow htoken := by
    rw [houtbox] at hrow
    rw [hissued]
    exact h.tokenIssued commandId row token hrow htoken
  reference commandId row hrow := by
    rw [houtbox] at hrow
    exact h.reference commandId row hrow

theorem not_guards_of_unlocked (h : Invariant site w) {commandId : String}
    (hfree : w.locks commandId = none) (q : P) (token : String) :
    ¬ Guards site w q commandId token := by
  intro hguards
  obtain ⟨effect, hguard, hcommand⟩ := hguards
  have hlock := (h.locked q effect token hguard).1
  rw [hcommand, hfree] at hlock
  cases hlock

theorem unlocked_of_not_lockHeld {commandId : String} {choice : Choice}
    (h : ¬ w.lockHeld commandId choice = true) : w.locks commandId = none := by
  unfold World.lockHeld at h
  have hfree : choice.contended = false ∧ w.locks commandId = none := by simpa using h
  exact hfree.2

theorem settledCommand_of_unknown {commandId : String} {row : OutboxRow}
    (hrow : w.store.outbox[commandId]? = some row) (hstatus : row.status = .unknown) :
    SettledCommand w commandId :=
  ⟨row, hrow, by simp [Settled, hstatus]⟩

theorem entersFlight_iff {row : OutboxRow} :
    entersFlight row = true ↔ row.status = .planned ∨ row.status = .failed ∨
      (row.status = .unknown ∧ row.retryBoundary = some .idempotent) := by
  unfold entersFlight
  cases row.status <;> simp

/-- A settled row takes a result without an owner token only when it is unknown. -/
theorem unknown_of_acceptsResult {row : OutboxRow} (hsettled : Settled row)
    (haccepts : acceptsResult row none = true) : row.status = .unknown := by
  unfold acceptsResult at haccepts
  simp only [Bool.or_eq_true, Bool.and_eq_true, beq_iff_eq, or_self] at haccepts
  rcases haccepts with hunknown | hunowned
  · exact hunknown
  · exact absurd hunowned hsettled.2

theorem plan_rowsEvolve {p : P} {effect : SideEffect} {expected : Option Nat} {store : Store}
    (h : plan site w effect expected = .ok store) : RowsEvolve site w p store := by
  obtain ⟨result, htransact⟩ := StoreResult.map_fst_ok h
  obtain ⟨current, session, -, -, -, hcommit, -, -⟩ := transact_ok htransact
  obtain ⟨written, added, final, hwritten, -, hfinal, rfl⟩ := commitSession_ok hcommit
  obtain ⟨habsent, hfinal⟩ := writeOutbox_singleton hfinal
  have houtbox := (writeSession_ok hwritten).1
  have habsent : w.store.outbox[effect.commandId site]? = none := houtbox ▸ habsent
  have hinsert : (advanceRevision final (w.store.sessionRevision + 1)).outbox =
      w.store.outbox.insert (effect.commandId site)
        (plannedRow (sessionId written.root) (effect.command site)
          (w.store.sessionRevision + 1)) := by
    rw [hfinal, ← houtbox]
    rfl
  constructor
  · intro commandId row hrow
    have hne : effect.commandId site ≠ commandId := by
      intro hsame
      rw [← hsame, habsent] at hrow
      cases hrow
    exact ⟨row, by rw [hinsert, KeyedRows.getElem?_insert_of_ne _ _ hne, hrow], Or.inl rfl⟩
  · intro commandId row' hnone hrow'
    rw [hinsert] at hrow'
    by_cases hsame : effect.commandId site = commandId
    · subst hsame
      have hplanned : plannedRow (sessionId written.root) (effect.command site)
          (w.store.sessionRevision + 1) = row' := by simpa using hrow'
      exact ⟨effect, _, _, rfl, hplanned.symm⟩
    · rw [KeyedRows.getElem?_insert_of_ne _ _ hsame, hnone] at hrow'
      cases hrow'

theorem demoteDead_rowsEvolve {p : P} {dead : List InFlightCommand} {store : Store}
    (hdead : ∀ command ∈ dead, Dead site w command)
    (h : (demoteDead w.store dead).map (·.1) = .ok store) : RowsEvolve site w p store := by
  obtain ⟨commit, hdemote⟩ := StoreResult.map_fst_ok h
  have houtbox := demoteDead_ok hdemote
  constructor
  · intro commandId row hrow
    rcases getElem?_foldl_demote dead commandId w.store.outbox with hkept | hdemoted
    · exact ⟨row, by rw [houtbox, hkept, hrow], Or.inl rfl⟩
    · obtain ⟨row', hrow', hmem, hstatus, hunknown⟩ := hdemoted
      rw [hrow] at hrow'
      have hsame := Option.some.inj hrow'
      subst hsame
      refine ⟨unknownRow row, by rw [houtbox, hunknown], Or.inr (.demoted hstatus ?_)⟩
      intro token htoken
      exact (hdead _ hmem token htoken).2
  · intro commandId row' hnone hrow'
    rcases getElem?_foldl_demote dead commandId w.store.outbox with hkept | hdemoted
    · rw [houtbox, hkept, hnone] at hrow'
      cases hrow'
    · obtain ⟨row, hrow, -⟩ := hdemoted
      rw [hnone] at hrow
      cases hrow

theorem AttemptEnd.hasReference {ended : AttemptEnd} (row : OutboxRow)
    (h : ended.result.succeeded = true → ended.result.externalResultReference.getD "" ≠ "") :
    HasReference (resultRow row ended.result) := by
  cases ended with
  | succeeded url => exact fun _ => h rfl
  | failed error => simp [HasReference, resultRow, OutboxResult.status, AttemptEnd.result]

end GhAddressCr.SideEffectExecution
