import GhAddressCr.TransitionSystem

/-!
# Exclusive transactions

Any number of parties write one database, each in a transaction that holds its lock alone. Once it
has the lock, a party plans its statements from what is committed and from the files beside the
database. A statement may raise and a party may stop anywhere; the transaction is then rolled
back, but what its statements did to the files stays.
-/
namespace GhAddressCr.ExclusiveTransactions

variable {ι ε σ φ : Type}

/-- One statement on the view of the transaction and on the files; it may raise. -/
abbrev Statement (ε σ φ : Type) := σ × φ → Except ε (σ × φ)

/-- A statement that leaves the files alone. -/
def Statement.ofView (statement : σ → Except ε σ) : Statement ε σ φ := fun (view, files) =>
  (statement view).map fun view => (view, files)

/-- The statements one after another. -/
def execute (statements : List (Statement ε σ φ)) (start : σ × φ) : Except ε (σ × φ) :=
  statements.foldlM (fun state statement => statement state) start

@[simp] theorem execute_nil (start : σ × φ) :
    execute ([] : List (Statement ε σ φ)) start = .ok start := rfl

theorem execute_cons (statement : Statement ε σ φ) (statements : List (Statement ε σ φ))
    (start : σ × φ) :
    execute (statement :: statements) start = statement start >>= execute statements := by
  rw [execute, List.foldlM_cons]
  rfl

theorem execute_append (statements rest : List (Statement ε σ φ)) (start : σ × φ) :
    execute (statements ++ rest) start = execute statements start >>= execute rest := by
  simp only [execute, List.foldlM_append]
  rfl

theorem execute_ofView_cons_ok {statement : σ → Except ε σ} {statements : List (Statement ε σ φ)}
    {view : σ} {files : φ} {result : σ × φ} :
    execute (.ofView statement :: statements) (view, files) = .ok result ↔
      ∃ view', statement view = .ok view' ∧ execute statements (view', files) = .ok result := by
  rw [execute_cons]
  simp only [Statement.ofView]
  cases statement view with
  | error error => simp [Except.map, bind, Except.bind]
  | ok view' => simp [Except.map, bind, Except.bind]

/-- The transaction that holds the lock: whose it is, its view, and the statements to come. -/
structure Transaction (ι ε σ φ : Type) where
  party : ι
  view : σ
  rest : List (Statement ε σ φ)

structure Database (ι ε σ φ : Type) where
  committed : σ
  files : φ
  transaction : Option (Transaction ι ε σ φ) := none

inductive Step (ι : Type) where
  | begin (party : ι)
  | statement
  | commit
  /-- The party crashes, or rolls back. -/
  | stop

section Runs

variable (plan : ι → σ → φ → List (Statement ε σ φ))

/-- One step of the database; `none` where it cannot be taken. -/
def Database.next (database : Database ι ε σ φ) : Step ι → Option (Database ι ε σ φ)
  | .begin party =>
      match database.transaction with
      -- Another party holds the lock.
      | some _ => none
      | none =>
          let statements := plan party database.committed database.files
          some { database with transaction := some ⟨party, database.committed, statements⟩ }
  | .statement =>
      match database.transaction with
      | some ⟨party, view, statement :: rest⟩ =>
          match statement (view, database.files) with
          | .ok (view', files) =>
              some { database with files := files, transaction := some ⟨party, view', rest⟩ }
          | .error _ => some { database with transaction := none }
      | _ => none
  | .commit =>
      match database.transaction with
      | some ⟨_, view, []⟩ => some { database with committed := view, transaction := none }
      | _ => none
  | .stop => some { database with transaction := none }

def databaseRuns (start : σ) (files : φ) : TransitionSystem (Database ι ε σ φ) (Step ι) :=
  .ofNext (· = { committed := start, files := files }) (Database.next plan)

theorem reachable_next {plan : ι → σ → φ → List (Statement ε σ φ)} {start : σ} {files : φ}
    {database database' : Database ι ε σ φ} {step : Step ι}
    (h : (databaseRuns plan start files).Reachable database)
    (hnext : database.next plan step = some database') :
    (databaseRuns plan start files).Reachable database' :=
  TransitionSystem.Reachable.next (l := step) h hnext

/-- The open transaction has run the first part of what its party planned under the lock, from
files that `Q` held of. -/
def Underway (Q : φ → Prop) (database : Database ι ε σ φ) (transaction : Transaction ι ε σ φ) :
    Prop :=
  ∃ done files, Q files ∧
    plan transaction.party database.committed files = done ++ transaction.rest ∧
    execute done (database.committed, files) = .ok (transaction.view, database.files)

variable {plan}

/-- What complete plans preserve holds of everything that is ever committed, and what each
statement preserves holds of the files; an open transaction is underway. -/
theorem invariant_of_reachable (P : σ → Prop) (Q : φ → Prop) {start : σ} {files : φ}
    (hstart : P start) (hfiles : Q files)
    (hplan : ∀ party committed files committed' files', P committed → Q files →
      execute (plan party committed files) (committed, files) = .ok (committed', files') →
      P committed')
    (hstatement : ∀ party committed planned, ∀ statement ∈ plan party committed planned,
      Q planned → ∀ view files view' files', Q files →
      statement (view, files) = .ok (view', files') → Q files')
    {database : Database ι ε σ φ} (h : (databaseRuns plan start files).Reachable database) :
    P database.committed ∧ Q database.files ∧ ∀ transaction,
      database.transaction = some transaction → Underway plan Q database transaction := by
  refine h.invariant (fun database => P database.committed ∧ Q database.files ∧ ∀ transaction,
    database.transaction = some transaction → Underway plan Q database transaction) ?_ ?_
  · rintro _ rfl
    exact ⟨hstart, hfiles, by simp⟩
  · rintro database label database' ⟨hcommitted, hcurrent, hunderway⟩ hnext
    cases label with
    | begin party =>
        simp only [databaseRuns, TransitionSystem.ofNext, Database.next] at hnext
        split at hnext
        · cases hnext
        · obtain rfl := Option.some.inj hnext
          refine ⟨hcommitted, hcurrent, ?_⟩
          rintro _ ⟨⟩
          exact ⟨[], database.files, hcurrent, rfl, rfl⟩
    | statement =>
        simp only [databaseRuns, TransitionSystem.ofNext, Database.next] at hnext
        split at hnext
        · next party view statement rest htransaction =>
          obtain ⟨done, start, hstart, hplanned, hexecuted⟩ := hunderway _ htransaction
          split at hnext
          · next view' files' hran =>
            obtain rfl := Option.some.inj hnext
            have hmem : statement ∈ plan party database.committed start := by
              rw [hplanned]
              simp
            refine ⟨hcommitted, hstatement _ _ _ _ hmem hstart _ _ _ _ hcurrent hran, ?_⟩
            rintro _ ⟨⟩
            refine ⟨done ++ [statement], start, hstart,
              by rw [hplanned, List.append_assoc]; rfl, ?_⟩
            rw [execute_append, hexecuted]
            show execute [statement] (view, database.files) = _
            rw [execute_cons, hran]
            rfl
          · obtain rfl := Option.some.inj hnext
            exact ⟨hcommitted, hcurrent, by simp⟩
        · cases hnext
    | commit =>
        simp only [databaseRuns, TransitionSystem.ofNext, Database.next] at hnext
        split at hnext
        · next party view htransaction =>
          obtain ⟨done, start, hstart, hplanned, hexecuted⟩ := hunderway _ htransaction
          obtain rfl := Option.some.inj hnext
          rw [List.append_nil] at hplanned
          refine ⟨?_, hcurrent, by simp⟩
          exact hplan party _ start _ _ hcommitted hstart (by rw [hplanned]; exact hexecuted)
        · cases hnext
    | stop =>
        obtain rfl := Option.some.inj hnext
        exact ⟨hcommitted, hcurrent, by simp⟩

end Runs
end GhAddressCr.ExclusiveTransactions
