import GhAddressCr.StoreOperations
import Mathlib.Logic.Function.Basic

/-!
# Exported artifacts

The files a workspace keeps of its store: `session.json`, `evidence.jsonl` and the metadata of
the latter. The store remembers how each was last written. New evidence is appended to the file
while it looks as it was left, and the file is written anew otherwise.
-/
namespace GhAddressCr.RuntimeStore

abbrev Bytes := List UInt8

structure ArtifactFile where
  content : Bytes
  mtime : Int
  deriving DecidableEq

inductive ArtifactKind where
  | sessionJson | evidenceJsonl | evidenceJsonlMetadata
  deriving DecidableEq, Repr

inductive ArtifactStatus where
  | current | dirty | failed
  deriving DecidableEq, Repr

/-- A row of `artifact_materializations`. -/
structure ArtifactRow where
  sourceRevision : Nat
  status : ArtifactStatus
  errorType : Option String
  /-- The size and the modification time of the file when it was written. -/
  size : Option Nat
  mtime : Option Int
  lastSequence : Option Nat
  deriving DecidableEq

/-- A workspace: its database, the rows on its artifacts, and their files. -/
structure Workspace where
  store : Option Store
  artifacts : ArtifactKind → Option ArtifactRow
  files : ArtifactKind → Option ArtifactFile

/-- `_artifact_matches`. -/
def artifactMatches (row : ArtifactRow) (file : Option ArtifactFile) : Bool :=
  match row.size, row.mtime, file with
  | some size, some mtime, some file => file.content.length == size && file.mtime == mtime
  | _, _, _ => false

/-- `_appendable_sequence`: where an append resumes, if the file need not be written anew. -/
def appendableSequence (row : Option ArtifactRow) (file : Option ArtifactFile)
    (lastSequence : Nat) : Option Nat :=
  match row with
  | none => none
  | some row =>
      match row.status, row.lastSequence with
      | .failed, _ | _, none => none
      | _, some start =>
          if lastSequence < start ∨ artifactMatches row file = false then none else some start

/-- The arguments of one `_materialize` call and what it meets. -/
structure Materialization where
  includeSession : Bool
  fullRebuild : Bool
  expectedRevision : Option Nat
  sessionContent : Bytes
  metadataContent : Bytes
  /-- The modification time a file written now gets. -/
  mtime : ArtifactKind → Int

section Exports

variable (encode : EvidenceRecord → Bytes)

/-- The lines of the evidence rows, in ledger order. -/
def renderEvidence (evidence : List EvidenceRow) : Bytes :=
  AppendOnlyLog.render (fun row : EvidenceRow => encode row.record) evidence

/-- `evidence.jsonl` when `written` bytes of what `_materialize_evidence` appends to it are in
the file. A file that is written anew replaces the old one at once. -/
def exportedEvidence (row : Option ArtifactRow) (file : Option ArtifactFile)
    (evidence : List EvidenceRow) (mtime : Int) (written : Option Nat) : Option ArtifactFile :=
  match appendableSequence row file evidence.length with
  | some start =>
      let added := renderEvidence encode (evidence.drop start)
      let added := (written.map added.take).getD added
      -- Opening a file to append nothing leaves it as it is.
      if added = [] then file else file.map fun file => ⟨file.content ++ added, mtime⟩
  | none => if written.isSome then file else some ⟨renderEvidence encode evidence, mtime⟩

/-- How far a materialization came. -/
inductive Progress where
  | started
  | sessionWritten
  | evidenceBegun (written : Nat)
  | evidenceWritten
  | metadataWritten
  deriving DecidableEq

def Progress.rank : Progress → Nat
  | .started => 0
  | .sessionWritten => 1
  | .evidenceBegun _ => 2
  | .evidenceWritten => 3
  | .metadataWritten => 4

/-- The evidence row that decides between appending and writing anew. -/
def Materialization.evidenceRow (m : Materialization) (w : Workspace) : Option ArtifactRow :=
  if m.fullRebuild then none else w.artifacts .evidenceJsonl

/-- The files once a materialization came this far. -/
def filesAfter (m : Materialization) (w : Workspace) (store : Store) (progress : Progress) :
    ArtifactKind → Option ArtifactFile
  | .sessionJson =>
      if m.includeSession ∧ 1 ≤ progress.rank then
        some ⟨m.sessionContent, m.mtime .sessionJson⟩
      else w.files .sessionJson
  | .evidenceJsonl =>
      let exported := exportedEvidence encode (m.evidenceRow w) (w.files .evidenceJsonl)
        store.evidence (m.mtime .evidenceJsonl)
      match progress with
      | .started | .sessionWritten => w.files .evidenceJsonl
      | .evidenceBegun written => exported (some written)
      | .evidenceWritten | .metadataWritten => exported none
  | .evidenceJsonlMetadata =>
      if 4 ≤ progress.rank then
        some ⟨m.metadataContent, m.mtime .evidenceJsonlMetadata⟩
      else w.files .evidenceJsonlMetadata

/-- `kinds`. -/
def Materialization.writes (m : Materialization) (kind : ArtifactKind) : Bool :=
  m.includeSession || kind != .sessionJson

/-- The row of an artifact that was written. -/
def currentRow (revision : Nat) (file : Option ArtifactFile) (lastSequence : Option Nat) :
    ArtifactRow where
  sourceRevision := revision
  status := .current
  errorType := none
  size := file.map (·.content.length)
  mtime := file.map (·.mtime)
  lastSequence := lastSequence

/-- The row of an artifact whose materialization raised. -/
def failedRow (revision : Nat) (errorType : String) : ArtifactRow where
  sourceRevision := revision
  status := .failed
  errorType := some errorType
  size := none
  mtime := none
  lastSequence := none

/-- A materialization that ends well; `none` where it raises. -/
def materialize (w : Workspace) (m : Materialization) : Option Workspace :=
  match w.store with
  | none => none
  | some store =>
      if m.expectedRevision.all (· = store.latestRevision) then
        let files := filesAfter encode m w store .metadataWritten
        some { w with
          files
          artifacts := fun kind =>
            if m.writes kind then
              some (currentRow store.latestRevision (files kind)
                (if kind = .evidenceJsonl then some store.evidence.length else none))
            else w.artifacts kind }
      else none

/-- A materialization that ends early. An exception is recorded in the rows, unless recording
it raises too; a crash rolls the rows back. -/
def interruptMaterialize (w : Workspace) (m : Materialization) (progress : Progress)
    (recorded : Option String) : Workspace :=
  match w.store with
  | none => w
  | some store =>
      let files := filesAfter encode m w store progress
      match recorded with
      | none => { w with files }
      | some errorType => { w with
          files
          artifacts := fun kind =>
            if m.writes kind then some (failedRow store.latestRevision errorType)
            else w.artifacts kind }

/-- What `recover_artifacts` finds of one artifact: it is stale or failed, or it drifted. -/
def needsRepair (w : Workspace) (revision : Nat) (kind : ArtifactKind) : Bool × Bool :=
  match w.artifacts kind with
  | none => (true, false)
  | some row =>
      if row.sourceRevision < revision ∨ row.status ≠ .current then (true, false)
      else if artifactMatches row (w.files kind) then (false, false)
      else (true, true)

def artifactKinds : List ArtifactKind := [.sessionJson, .evidenceJsonl, .evidenceJsonlMetadata]

/-- `recover_artifacts`, where it does not raise. -/
def recoverArtifacts (w : Workspace) (m : Materialization) : Option Workspace :=
  match w.store with
  | none => none
  | some store =>
      if artifactKinds.any fun kind =>
          (w.artifacts kind).any fun row => store.latestRevision < row.sourceRevision then none
      else
        let found := artifactKinds.map (needsRepair w store.latestRevision)
        if found.any (·.1) then
          materialize encode w { m with
            includeSession := true, expectedRevision := none
            fullRebuild := found.any (·.2) }
        else some w

/-- `_advance_revision` marks what was current. -/
def dirtied (row : ArtifactRow) : ArtifactRow :=
  if row.status = .current then { row with status := .dirty } else row

/-- The workspace after an operation of the store, which may have raised. -/
def Workspace.operate (w : Workspace) (operation : StoreOperation) : Workspace :=
  match operation.apply w.store with
  | .error _ => w
  | .ok committed =>
      { w with
        store := some committed
        artifacts :=
          if operation.writes w.store then fun kind => (w.artifacts kind).map dirtied
          else w.artifacts }

inductive WorkspaceStep where
  | operate (operation : StoreOperation)
  | materialize (m : Materialization)
  | interrupt (m : Materialization) (progress : Progress) (recorded : Option String)
  | recoverArtifacts (m : Materialization)
  /-- Something else writes or removes a file. -/
  | edit (kind : ArtifactKind) (file : Option ArtifactFile)

def Workspace.next (w : Workspace) : WorkspaceStep → Option Workspace
  | .operate operation => some (w.operate operation)
  | .materialize m => RuntimeStore.materialize encode w m
  | .interrupt m progress recorded => some (interruptMaterialize encode w m progress recorded)
  | .recoverArtifacts m => RuntimeStore.recoverArtifacts encode w m
  | .edit kind file => some { w with files := Function.update w.files kind file }

/-- A workspace whose store is not initialized, with whatever files. -/
def Workspace.Fresh (w : Workspace) : Prop := w.store = none ∧ w.artifacts = fun _ => none

def workspaceRuns : TransitionSystem Workspace WorkspaceStep :=
  .ofNext Workspace.Fresh (Workspace.next encode)

/-- An edit of `evidence.jsonl` leaves it another size or another modification time than the
store remembers of it. -/
def Detectable (w : Workspace) (step : WorkspaceStep) (_ : Workspace) : Prop :=
  match step with
  | .edit .evidenceJsonl file =>
      ∀ row, w.artifacts .evidenceJsonl = some row → artifactMatches row file = false
  | _ => True

/-- The row that is not failed names a start of the ledger, all of it while the row is current;
a file that looks as the row says holds that start. -/
structure Remembers (store : Store) (row : ArtifactRow) (file : Option ArtifactFile)
    (mark : Nat) : Prop where
  lastSequence : row.lastSequence = some mark
  bounded : mark ≤ store.evidence.length
  current : row.status = .current → mark = store.evidence.length
  size : row.size = some (renderEvidence encode (store.evidence.take mark)).length
  content : ∀ found, file = some found → artifactMatches row file = true →
    found.content = renderEvidence encode (store.evidence.take mark)

structure ExportInvariant (w : Workspace) : Prop where
  blank : w.store = none → w.artifacts .evidenceJsonl = none
  keyed : EvidenceKeyed (evidenceOf w.store)
  remembers : ∀ store row, w.store = some store → w.artifacts .evidenceJsonl = some row →
    row.status ≠ .failed → ∃ mark, Remembers encode store row (w.files .evidenceJsonl) mark

variable {encode}

theorem artifactMatches_file {row : ArtifactRow} {file : Option ArtifactFile}
    (h : artifactMatches row file = true) :
    ∃ found, file = some found ∧ row.size = some found.content.length := by
  unfold artifactMatches at h
  split at h
  · next size mtime found hsize hmtime =>
    obtain ⟨hlength, -⟩ := (Bool.and_eq_true _ _).mp h
    have hlength : found.content.length = size := by simpa using hlength
    exact ⟨found, rfl, by rw [hsize, hlength]⟩
  · cases h

/-- Appending is chosen for a row that is not failed, and for a file that looks as it says. -/
theorem appendableSequence_some {row : Option ArtifactRow} {file : Option ArtifactFile}
    {lastSequence start : Nat} (h : appendableSequence row file lastSequence = some start) :
    ∃ found, row = some found ∧ found.status ≠ .failed ∧ found.lastSequence = some start ∧
      artifactMatches found file = true := by
  unfold appendableSequence at h
  split at h
  · cases h
  · next row =>
    split at h
    · cases h
    · cases h
    · next status start' hstatus hsequence hfailed =>
      split at h
      · cases h
      · next hkept =>
        obtain rfl := Option.some.inj h
        refine ⟨row, rfl, ?_, hsequence, ?_⟩
        · intro hcontrary
          simp_all
        · simpa using (not_or.mp hkept).2

theorem renderEvidence_take_drop (evidence : List EvidenceRow) (mark : Nat) :
    renderEvidence encode (evidence.take mark) ++ renderEvidence encode (evidence.drop mark) =
      renderEvidence encode evidence :=
  AppendOnlyLog.render_take_drop _ evidence mark

theorem Remembers.weaken {store : Store} {row : ArtifactRow} {file file' : Option ArtifactFile}
    {mark : Nat} (h : Remembers encode store row file mark)
    (hcontent : ∀ found, file' = some found → artifactMatches row file' = true →
      found.content = renderEvidence encode (store.evidence.take mark)) :
    Remembers encode store row file' mark :=
  ⟨h.lastSequence, h.bounded, h.current, h.size, hcontent⟩

/-- More evidence leaves the start of the ledger as it is. -/
theorem Remembers.grow {store committed : Store} {row : ArtifactRow} {file : Option ArtifactFile}
    {mark : Nat} {added : List EvidenceRow} (h : Remembers encode store row file mark)
    (hadded : committed.evidence = store.evidence ++ added) :
    Remembers encode committed (dirtied row) file mark := by
  have htake : committed.evidence.take mark = store.evidence.take mark := by
    rw [hadded, List.take_append_of_le_length h.bounded]
  have hmatches : artifactMatches (dirtied row) file = artifactMatches row file := by
    unfold dirtied
    split <;> rfl
  refine ⟨?_, ?_, ?_, ?_, ?_⟩
  · rw [← h.lastSequence]
    unfold dirtied
    split <;> rfl
  · have hbounded := h.bounded
    rw [hadded, List.length_append]
    omega
  · intro hcurrent
    unfold dirtied at hcurrent
    split at hcurrent
    · cases hcurrent
    · next hstatus => exact absurd hcurrent hstatus
  · rw [htake, ← h.size]
    unfold dirtied
    split <;> rfl
  · rw [htake, hmatches]
    exact h.content

/-- The evidence the file holds once the export is complete. -/
theorem exportedEvidence_content {w : Workspace} {store : Store} (hinv : ExportInvariant encode w)
    (hstore : w.store = some store) (m : Materialization) :
    ∃ file, exportedEvidence encode (m.evidenceRow w) (w.files .evidenceJsonl) store.evidence
        (m.mtime .evidenceJsonl) none = some file ∧
      file.content = renderEvidence encode store.evidence := by
  unfold exportedEvidence
  cases happend : appendableSequence (m.evidenceRow w) (w.files .evidenceJsonl)
      store.evidence.length with
  | none => exact ⟨_, rfl, rfl⟩
  | some start =>
      obtain ⟨row, hrow, hstatus, hsequence, hmatches⟩ := appendableSequence_some happend
      have hartifact : w.artifacts .evidenceJsonl = some row := by
        unfold Materialization.evidenceRow at hrow
        split at hrow
        · cases hrow
        · exact hrow
      obtain ⟨mark, hremembers⟩ := hinv.remembers store row hstore hartifact hstatus
      obtain rfl : mark = start := Option.some.inj (hremembers.lastSequence.symm.trans hsequence)
      obtain ⟨found, hfound, -⟩ := artifactMatches_file hmatches
      have hcontent := hremembers.content found hfound hmatches
      have hsplit : renderEvidence encode (store.evidence.take mark) ++
          renderEvidence encode (store.evidence.drop mark) = renderEvidence encode store.evidence :=
        renderEvidence_take_drop store.evidence mark
      simp only [Option.map_none, Option.getD_none, hfound]
      split
      · next hempty =>
        refine ⟨found, rfl, ?_⟩
        rw [hcontent, ← hsplit, hempty, List.append_nil]
      · refine ⟨_, rfl, ?_⟩
        rw [← hsplit, ← hcontent]

/-- However far an export came, a file that looks as the row says still holds what it says. -/
theorem exportedEvidence_remembered {w : Workspace} {store : Store} {row : ArtifactRow}
    {mark : Nat} (m : Materialization) (written : Option Nat)
    (hartifact : w.artifacts .evidenceJsonl = some row)
    (h : Remembers encode store row (w.files .evidenceJsonl) mark) :
    Remembers encode store row
      (exportedEvidence encode (m.evidenceRow w) (w.files .evidenceJsonl) store.evidence
        (m.mtime .evidenceJsonl) written) mark := by
  refine h.weaken fun found hfound hmatches => ?_
  obtain ⟨_, hsame, hsize⟩ := artifactMatches_file hmatches
  obtain rfl := Option.some.inj (hfound.symm.trans hsame)
  have hlength : found.content.length =
      (renderEvidence encode (store.evidence.take mark)).length :=
    (Option.some.inj (h.size.symm.trans hsize)).symm
  unfold exportedEvidence at hfound hmatches
  cases happend : appendableSequence (m.evidenceRow w) (w.files .evidenceJsonl)
      store.evidence.length with
  | none =>
      simp only [happend] at hfound hmatches
      split at hfound
      · next hwritten =>
        rw [if_pos hwritten] at hmatches
        exact h.content found hfound hmatches
      · obtain rfl := Option.some.inj hfound
        exact (AppendOnlyLog.render_take_of_length _ hlength.le).symm
  | some start =>
      simp only [happend] at hfound hmatches
      obtain ⟨decided, hdecided, -, -, hdecidedMatches⟩ := appendableSequence_some happend
      have hsameRow : decided = row := by
        unfold Materialization.evidenceRow at hdecided
        split at hdecided
        · cases hdecided
        · exact Option.some.inj (hdecided.symm.trans hartifact)
      subst hsameRow
      split at hfound
      · next hempty =>
        rw [if_pos hempty] at hmatches
        exact h.content found hfound hmatches
      · next hnonempty =>
        obtain ⟨before, hbefore, hafter⟩ := Option.map_eq_some_iff.mp hfound
        have hcontent := h.content before hbefore hdecidedMatches
        rw [← hafter, List.length_append, hcontent] at hlength
        exact absurd (List.eq_nil_of_length_eq_zero (by omega)) hnonempty

theorem ExportInvariant.operate {w : Workspace} (hinv : ExportInvariant encode w)
    (operation : StoreOperation) : ExportInvariant encode (w.operate operation) := by
  unfold Workspace.operate
  cases happly : operation.apply w.store with
  | error error => exact hinv
  | ok committed =>
      obtain ⟨⟨added, hadded⟩, hgrows⟩ := StoreOperation.apply_evidence hinv.keyed happly
      refine ⟨nofun, hgrows.keyed, ?_⟩
      intro store row hstore hrow hstatus
      obtain rfl := Option.some.inj hstore
      cases hbefore : w.store with
      | none =>
          have hblank := hinv.blank hbefore
          simp only at hrow
          split at hrow
          · simp [hblank] at hrow
          · simp [hblank] at hrow
      | some before =>
          rw [hbefore] at hadded
          simp only at hrow
          split at hrow
          · obtain ⟨previous, hprevious, rfl⟩ := Option.map_eq_some_iff.mp hrow
            have hprevious_status : previous.status ≠ .failed := by
              intro hfailed
              simp [dirtied, hfailed] at hstatus
            obtain ⟨mark, hremembers⟩ :=
              hinv.remembers before previous hbefore hprevious hprevious_status
            exact ⟨mark, hremembers.grow hadded⟩
          · next hnothing =>
            obtain ⟨mark, hremembers⟩ := hinv.remembers before row hbefore hrow hstatus
            have hsame :=
              StoreOperation.apply_of_not_writes happly hbefore (by simpa using hnothing)
            rw [hsame]
            exact ⟨mark, hremembers⟩

theorem filesAfter_remembered {w : Workspace} {store : Store} {row : ArtifactRow} {mark : Nat}
    (m : Materialization) (progress : Progress) (hartifact : w.artifacts .evidenceJsonl = some row)
    (h : Remembers encode store row (w.files .evidenceJsonl) mark) :
    Remembers encode store row (filesAfter encode m w store progress .evidenceJsonl) mark := by
  cases progress with
  | started => exact h
  | sessionWritten => exact h
  | evidenceBegun written => exact exportedEvidence_remembered m (some written) hartifact h
  | evidenceWritten => exact exportedEvidence_remembered m none hartifact h
  | metadataWritten => exact exportedEvidence_remembered m none hartifact h

theorem ExportInvariant.interrupt {w : Workspace} (hinv : ExportInvariant encode w)
    (m : Materialization) (progress : Progress) (recorded : Option String) :
    ExportInvariant encode (interruptMaterialize encode w m progress recorded) := by
  unfold interruptMaterialize
  split
  · exact hinv
  · next store hstore =>
    have hblank : w.store ≠ none := by simp [hstore]
    split
    · refine ⟨fun hnone => absurd hnone hblank, hinv.keyed, ?_⟩
      intro other row hother hrow hstatus
      obtain rfl := Option.some.inj (hstore.symm.trans hother)
      obtain ⟨mark, hremembers⟩ := hinv.remembers store row hstore hrow hstatus
      exact ⟨mark, filesAfter_remembered m progress hrow hremembers⟩
    · next errorType =>
      refine ⟨fun hnone => absurd hnone hblank, hinv.keyed, ?_⟩
      intro other row _ hrow hstatus
      have hwrites : m.writes .evidenceJsonl = true := by simp [Materialization.writes]
      simp only [hwrites, if_true] at hrow
      rw [← Option.some.inj hrow] at hstatus
      exact absurd rfl hstatus

/-- A materialization that ends well leaves the whole ledger in the file. -/
theorem materialize_content {w w' : Workspace} (hinv : ExportInvariant encode w)
    {m : Materialization} (h : materialize encode w m = some w') :
    ∃ store file, w.store = some store ∧ w'.store = some store ∧
      w'.files .evidenceJsonl = some file ∧
      file.content = renderEvidence encode store.evidence ∧
      w'.artifacts .evidenceJsonl =
        some (currentRow store.latestRevision (some file) (some store.evidence.length)) := by
  unfold materialize at h
  cases hstore : w.store with
  | none => simp [hstore] at h
  | some store =>
      simp only [hstore] at h
      split at h
      · obtain rfl := Option.some.inj h
        obtain ⟨file, hfile, hcontent⟩ := exportedEvidence_content hinv hstore m
        have hwritten : filesAfter encode m w store .metadataWritten .evidenceJsonl = some file :=
          hfile
        have hwrites : m.writes .evidenceJsonl = true := by simp [Materialization.writes]
        refine ⟨store, file, rfl, rfl, hwritten, hcontent, ?_⟩
        simp only [hwrites, hwritten, if_true]
      · cases h

theorem ExportInvariant.materialize {w w' : Workspace} (hinv : ExportInvariant encode w)
    {m : Materialization} (h : RuntimeStore.materialize encode w m = some w') :
    ExportInvariant encode w' := by
  obtain ⟨store, file, hstore, hstore', hfile, hcontent, hrow⟩ := materialize_content hinv h
  refine ⟨fun hnone => absurd (hstore'.symm.trans hnone) nofun, ?_, ?_⟩
  · rw [hstore', ← hstore]
    exact hinv.keyed
  · intro other row hother hother_row _
    obtain rfl := Option.some.inj (hstore'.symm.trans hother)
    obtain rfl := Option.some.inj (hrow.symm.trans hother_row)
    have hall : store.evidence.take store.evidence.length = store.evidence := List.take_length
    refine ⟨store.evidence.length, rfl, le_rfl, fun _ => rfl, ?_, fun found hfound _ => ?_⟩
    · rw [hall, ← hcontent]
      rfl
    · obtain rfl := Option.some.inj (hfile.symm.trans hfound)
      rw [hall, hcontent]

theorem recoverArtifacts_some {w w' : Workspace} {m : Materialization}
    (h : recoverArtifacts encode w m = some w') :
    w' = w ∨ ∃ repair, materialize encode w repair = some w' := by
  unfold recoverArtifacts at h
  split at h
  · cases h
  · simp only at h
    split at h
    · cases h
    · split at h
      · exact .inr ⟨_, h⟩
      · exact .inl (Option.some.inj h).symm

/-- Recovery that finds every artifact as it was left writes nothing. -/
theorem recoverArtifacts_content {w w' : Workspace} (hinv : ExportInvariant encode w)
    {m : Materialization} (h : recoverArtifacts encode w m = some w') :
    ∃ store file, w.store = some store ∧ w'.store = some store ∧
      w'.files .evidenceJsonl = some file ∧
      file.content = renderEvidence encode store.evidence := by
  unfold recoverArtifacts at h
  cases hstore : w.store with
  | none => simp [hstore] at h
  | some store =>
      simp only [hstore] at h
      split at h
      · cases h
      · split at h
        · obtain ⟨found, file, hfound, hstore', hfile, hcontent, -⟩ := materialize_content hinv h
          obtain rfl := Option.some.inj (hstore.symm.trans hfound)
          exact ⟨store, file, rfl, hstore', hfile, hcontent⟩
        · next hrepairs =>
          obtain rfl := Option.some.inj h
          have hevidence : (needsRepair w store.latestRevision .evidenceJsonl).1 = false := by
            simp [artifactKinds] at hrepairs
            exact hrepairs.2.1
          unfold needsRepair at hevidence
          cases hartifact : w.artifacts .evidenceJsonl with
          | none => simp [hartifact] at hevidence
          | some row =>
              simp only [hartifact] at hevidence
              split at hevidence
              · cases hevidence
              · next hcurrent =>
                split at hevidence
                · next hmatches =>
                  have hstatus : row.status = .current :=
                    not_not.mp (not_or.mp hcurrent).2
                  obtain ⟨mark, hremembers⟩ := hinv.remembers store row hstore hartifact
                    (by rw [hstatus]; decide)
                  obtain ⟨found, hfound, -⟩ := artifactMatches_file hmatches
                  refine ⟨store, found, rfl, hstore, hfound, ?_⟩
                  have hcontent := hremembers.content found hfound hmatches
                  rwa [hremembers.current hstatus, List.take_length] at hcontent
                · cases hevidence

theorem ExportInvariant.next {w w' : Workspace} {step : WorkspaceStep}
    (hinv : ExportInvariant encode w) (h : w.next encode step = some w')
    (hdetectable : Detectable w step w') : ExportInvariant encode w' := by
  cases step with
  | operate operation =>
      obtain rfl := Option.some.inj h
      exact hinv.operate operation
  | materialize m => exact hinv.materialize h
  | interrupt m progress recorded =>
      obtain rfl := Option.some.inj h
      exact hinv.interrupt m progress recorded
  | recoverArtifacts m =>
      obtain rfl | ⟨repair, hrepair⟩ := recoverArtifacts_some h
      · exact hinv
      · exact hinv.materialize hrepair
  | edit kind file =>
      obtain rfl := Option.some.inj h
      refine ⟨hinv.blank, hinv.keyed, fun store row hstore hrow hstatus => ?_⟩
      obtain ⟨mark, hremembers⟩ := hinv.remembers store row hstore hrow hstatus
      refine ⟨mark, hremembers.weaken fun found hfound hmatches => ?_⟩
      simp only at hfound hmatches
      by_cases hkind : kind = .evidenceJsonl
      · subst hkind
        rw [Function.update_self] at hmatches
        exact absurd hmatches (by simp [hdetectable row hrow])
      · rw [Function.update_of_ne (Ne.symm hkind)] at hfound hmatches
        exact hremembers.content found hfound hmatches

theorem exportInvariant_of_reachable {w : Workspace}
    (h : (workspaceRuns encode).ReachableUnder Detectable w) : ExportInvariant encode w := by
  refine h.invariant (ExportInvariant encode) ?_ ?_
  · rintro w ⟨hstore, hartifacts⟩
    refine ⟨fun _ => by rw [hartifacts], ?_, fun store row hsome => ?_⟩
    · rw [hstore]
      exact List.nodup_nil
    · exact absurd (hstore.symm.trans hsome) nofun
  · intro w step w' hinv hnext hdetectable
    exact hinv.next hnext hdetectable

/-- After every export that ends well, and every recovery, `evidence.jsonl` is what writing all
the committed evidence anew gives, each record once. -/
theorem evidence_jsonl_exported {w w' : Workspace}
    (h : (workspaceRuns encode).ReachableUnder Detectable w) {step : WorkspaceStep}
    (hstep : (∃ m, step = .materialize m) ∨ ∃ m, step = .recoverArtifacts m)
    (hnext : w.next encode step = some w') :
    ∃ store file, w.store = some store ∧ w'.store = some store ∧
      w'.files .evidenceJsonl = some file ∧
      file.content = renderEvidence encode store.evidence ∧
      (store.evidence.map (·.record.recordId)).Nodup := by
  have hinv := exportInvariant_of_reachable h
  have hkeyed : ∀ store, w.store = some store →
      (store.evidence.map (·.record.recordId)).Nodup := by
    intro store hstore
    have hkeyed := hinv.keyed
    rw [hstore] at hkeyed
    simpa [EvidenceKeyed, AppendOnlyLog.Keyed, evidenceOf, Function.comp_def] using hkeyed
  obtain ⟨m, rfl⟩ | ⟨m, rfl⟩ := hstep
  · obtain ⟨store, file, hstore, hstore', hfile, hcontent, -⟩ := materialize_content hinv hnext
    exact ⟨store, file, hstore, hstore', hfile, hcontent, hkeyed store hstore⟩
  · obtain ⟨store, file, hstore, hstore', hfile, hcontent⟩ := recoverArtifacts_content hinv hnext
    exact ⟨store, file, hstore, hstore', hfile, hcontent, hkeyed store hstore⟩

/-- A stand-in for the canonical text of a record. -/
def identifierBytes (record : EvidenceRecord) : Bytes :=
  record.recordId.text.toList.map fun c => c.toNat.toUInt8

def emptyWorkspace : Workspace := ⟨none, fun _ => none, fun _ => none⟩

def evidenceExport : Materialization where
  includeSession := false
  fullRebuild := false
  expectedRevision := none
  sessionContent := []
  metadataContent := []
  mtime _ := 5

/-- A store of one record. -/
def openedWorkspace : Workspace :=
  emptyWorkspace.operate (.bootstrap openedSession [observedRecord])

/-- A second record, appended to the exported first one up to its third byte. -/
def crashedWorkspace (w : Workspace) : Workspace :=
  interruptMaterialize identifierBytes
    (w.operate (.transact (fun session => .ok (session, ())) none
      [EvidenceRecord.new "octo/example#7" "item" none "agent" "fixer" "response_accepted" ∅ 0] []))
    evidenceExport (.evidenceBegun 3) none

/-- The export after the crash writes both records anew. -/
theorem evidence_jsonl_exported_crashed : ∃ w w' store file,
    materialize identifierBytes openedWorkspace evidenceExport = some w ∧
      materialize identifierBytes (crashedWorkspace w) evidenceExport = some w' ∧
      w'.store = some store ∧ store.evidence.length = 2 ∧ w'.files .evidenceJsonl = some file ∧
      file.content = renderEvidence identifierBytes store.evidence := by
  have hrun : ((materialize identifierBytes openedWorkspace evidenceExport).bind fun w =>
      materialize identifierBytes (crashedWorkspace w) evidenceExport).any (fun w' =>
        w'.store.all fun store => store.evidence.length = 2) = true := by
    decide +kernel
  obtain ⟨w', hw', hlength⟩ := (Option.any_eq_true _ _).mp hrun
  obtain ⟨w, hw, hexport⟩ := Option.bind_eq_some_iff.mp hw'
  have hopened : (workspaceRuns identifierBytes).ReachableUnder Detectable openedWorkspace :=
    .next (l := .operate (.bootstrap openedSession [observedRecord])) (.start ⟨rfl, rfl⟩) rfl
      trivial
  have hcrashed : (workspaceRuns identifierBytes).ReachableUnder Detectable
      (crashedWorkspace w) :=
    .next (l := .interrupt evidenceExport (.evidenceBegun 3) none)
      (.next (l := .operate _) (.next (l := .materialize evidenceExport) hopened hw trivial) rfl
        trivial) rfl trivial
  obtain ⟨store, file, -, hstore, hfile, hcontent, -⟩ :=
    evidence_jsonl_exported hcrashed (.inl ⟨evidenceExport, rfl⟩) hexport
  rw [hstore] at hlength
  exact ⟨w, w', store, file, hw, hexport, hstore, by simpa using hlength, hfile, hcontent⟩

/-- Mutations of working sets leave the session its id. -/
def KeepsSession (w : Workspace) (step : WorkspaceStep) (_ : Workspace) : Prop :=
  match step with
  | .operate operation => operation.keepsSession w.store = true
  | _ => True

/-- The step commits to the database, more than the rows on its artifacts. -/
def WorkspaceStep.Commits (w : Workspace) (step : WorkspaceStep) : Prop :=
  ∃ operation committed, step = .operate operation ∧ operation.writes w.store = true ∧
    operation.apply w.store = .ok committed

theorem materialize_store {w w' : Workspace} {m : Materialization}
    (h : materialize encode w m = some w') : w'.store = w.store := by
  unfold materialize at h
  split at h
  · cases h
  · simp only at h
    split at h
    · obtain rfl := Option.some.inj h
      rfl
    · cases h

theorem interruptMaterialize_store (w : Workspace) (m : Materialization) (progress : Progress)
    (recorded : Option String) :
    (interruptMaterialize encode w m progress recorded).store = w.store := by
  unfold interruptMaterialize
  split
  · rfl
  · simp only
    split <;> rfl

/-- A step that is no operation of the store leaves it alone. -/
theorem Workspace.next_store {w w' : Workspace} {step : WorkspaceStep}
    (h : w.next encode step = some w') (hstep : ∀ operation, step ≠ .operate operation) :
    w'.store = w.store := by
  cases step with
  | operate operation => exact absurd rfl (hstep operation)
  | materialize m => exact materialize_store h
  | interrupt m progress recorded =>
      obtain rfl := Option.some.inj h
      exact interruptMaterialize_store w m progress recorded
  | recoverArtifacts m =>
      obtain rfl | ⟨repair, hrepair⟩ := recoverArtifacts_some h
      · rfl
      · exact materialize_store hrepair
  | edit kind file =>
      obtain rfl := Option.some.inj h
      rfl

theorem Workspace.next_counters {w w' : Workspace} {step : WorkspaceStep}
    (hagree : (counters w.store).1 = (counters w.store).2) (h : w.next encode step = some w')
    (hkeeps : KeepsSession w step w') :
    (step.Commits w →
      counters w'.store = ((counters w.store).1 + 1, (counters w.store).2 + 1)) ∧
    (¬ step.Commits w → counters w'.store = counters w.store) := by
  by_cases hoperate : ∃ operation, step = .operate operation
  · obtain ⟨operation, rfl⟩ := hoperate
    obtain rfl := Option.some.inj h
    unfold Workspace.operate
    cases happly : operation.apply w.store with
    | error error =>
        refine ⟨?_, fun _ => rfl⟩
        rintro ⟨other, committed, hother, -, hcommitted⟩
        obtain rfl := WorkspaceStep.operate.inj hother
        exact absurd (happly.symm.trans hcommitted) nofun
    | ok committed =>
        have hcounters := StoreOperation.apply_counters hagree hkeeps happly
        simp only
        constructor
        · rintro ⟨other, _, hother, hwrites, -⟩
          obtain rfl := WorkspaceStep.operate.inj hother
          rw [hcounters, if_pos hwrites]
        · intro hnot
          rw [hcounters, if_neg fun hwrites => hnot ⟨operation, committed, rfl, hwrites, happly⟩]
  · have hstore := Workspace.next_store h fun operation hsame => hoperate ⟨operation, hsame⟩
    rw [hstore]
    refine ⟨?_, fun _ => rfl⟩
    rintro ⟨operation, _, rfl, -⟩
    exact absurd ⟨operation, rfl⟩ hoperate

/-- The two revision counters agree in every workspace. A step that commits raises both by one,
and every other step, one that raises or only writes artifacts, leaves both. -/
theorem revision_counters_agree {w : Workspace}
    (h : (workspaceRuns encode).ReachableUnder KeepsSession w) :
    (∀ store, w.store = some store → store.sessionRevision = store.latestRevision) ∧
    ∀ (step : WorkspaceStep) (w' : Workspace), w.next encode step = some w' →
      KeepsSession w step w' →
      (step.Commits w →
        counters w'.store = ((counters w.store).1 + 1, (counters w.store).2 + 1)) ∧
      (¬ step.Commits w → counters w'.store = counters w.store) := by
  have hagree : (counters w.store).1 = (counters w.store).2 := by
    refine h.invariant (fun w => (counters w.store).1 = (counters w.store).2) ?_ ?_
    · rintro w ⟨hstore, -⟩
      rw [hstore]
      rfl
    · intro w step w' hagree hnext hkeeps
      obtain ⟨hcommits, hother⟩ := Workspace.next_counters hagree hnext hkeeps
      by_cases hstep : step.Commits w
      · rw [hcommits hstep, hagree]
      · rw [hother hstep, hagree]
  refine ⟨fun store hstore => ?_, fun step w' hnext hkeeps =>
    Workspace.next_counters hagree hnext hkeeps⟩
  rw [hstore] at hagree
  exact hagree.symm

def unchangedSession : StoreOperation := .transact (fun session => .ok (session, ())) none [] []

/-- A transaction after the first one raises both counters to two. -/
theorem revision_counters_agree_transact :
    counters (openedWorkspace.operate unchangedSession).store = (2, 2) := by
  have hopened : (workspaceRuns identifierBytes).ReachableUnder KeepsSession openedWorkspace :=
    .next (l := .operate (.bootstrap openedSession [observedRecord])) (.start ⟨rfl, rfl⟩) rfl rfl
  have hcommits : WorkspaceStep.Commits openedWorkspace (.operate unchangedSession) := by
    have hok : (unchangedSession.apply openedWorkspace.store).toOption.any (fun _ => true) =
        true := by
      decide +kernel
    obtain ⟨committed, hcommitted, -⟩ := StoreResult.exists_ok hok
    exact ⟨_, committed, rfl, rfl, hcommitted⟩
  have hcounters : counters openedWorkspace.store = (1, 1) := by decide +kernel
  obtain ⟨hraised, -⟩ := (revision_counters_agree hopened).2 (.operate unchangedSession)
    (openedWorkspace.operate unchangedSession) rfl rfl
  rw [hraised hcommits, hcounters]

end Exports

end GhAddressCr.RuntimeStore
