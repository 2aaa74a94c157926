import GhAddressCr.BundleSafety

/-!
# Imports and their recovery bundles

The import is committed after the bundle has its name. It has its bundle from then on, whatever
power is lost, if no process comes to an end before it flushed the name.
-/
namespace GhAddressCr.RecoveryBundle

open SharedPrograms AdvisoryLocks CrashingFiles

section Imports

variable (sha256 : Content → String) (still : Prop)

/-- No loss of power changes what has the name of the bundle, where something has. -/
def Settled (volume : Disk) : Prop :=
  ∀ bundle, volume.look .workspace .bundle = some bundle →
    ∀ entries ∈ workspaceCandidates volume, entries.lookup .bundle = some bundle

def inputHash (inputs : LegacyInputs) (artifact : Artifact) : Option String :=
  (inputs artifact).map fun data => sha256 (.bytes data)

/-- The hashes taken are those of the legacy files, apart from some. -/
def Hashed (inputs : LegacyInputs) (rest : List Artifact) (files : FileHashes) : Prop :=
  ∀ artifact, artifact ∉ rest → files.of artifact = inputHash sha256 inputs artifact

/-- A bundle that verifies; in `still` runs, with the hashes of the legacy files. -/
def Bundled (inputs : LegacyInputs) (volume : Disk) (folder : Directory) : Prop :=
  volume.look .workspace .bundle = some (.folder folder) ∧
    bundleVerifies sha256 volume (.folder folder) = true ∧
    (still → ∃ hashes, legacyInputHashes sha256 inputs = some hashes ∧
      manifestOf volume (.folder folder) = some (.manifest "legacy-v1" hashes))

/-- What a process knows of the legacy files, when nobody else writes them. -/
def Copies (process : ℕ) (inputs : LegacyInputs) (volume : Disk) : Phase → Prop
  | .copying rest files => still → Hashed sha256 inputs rest files
  | .filling artifact copied rest files => still →
      Hashed sha256 inputs (artifact :: rest) files ∧
        volume.contents (.copy process artifact) = .bytes copied ∧
        ∃ data, inputs artifact = some data ∧ copied <+: data
  | .flushing artifact rest files | .hashing artifact rest files => still →
      Hashed sha256 inputs (artifact :: rest) files ∧
        ∃ data, inputs artifact = some data ∧
          volume.contents (.copy process artifact) = .bytes data
  | .dumping files | .flushingManifest files | .replacing files | .syncingStaging files =>
      still → legacyInputHashes sha256 inputs = some files
  | .publishing => still → ∃ hashes, legacyInputHashes sha256 inputs = some hashes ∧
      manifestOf volume (.folder (.staged process)) = some (.manifest "legacy-v1" hashes)
  | .syncingWorkspace => Bundled sha256 still inputs volume (.staged process)
  | .hashingInputs => ∃ folder, Bundled sha256 still inputs volume folder
  | .committing hashes => ∃ folder, Bundled sha256 still inputs volume folder ∧
      (still → legacyInputHashes sha256 inputs = some hashes)
  | _ => True

variable {sha256 still} {before : Disk} {process : ℕ} {inputs : LegacyInputs}
  {disk disk' : Storage} {volume volume' : Disk} {phase after : Phase} {action : Action}
  {files : FileHashes}

theorem Settled.of_directory (h : Settled volume)
    (hsame : volume'.directory .workspace = volume.directory .workspace) : Settled volume' := by
  unfold Settled workspaceCandidates Volume.look at h ⊢
  rw [hsame]
  exact h

theorem Settled.setWorkspace {entries : Entries Name Directory Inode} (h : Settled volume)
    (hbundle : entries.lookup .bundle = volume.look .workspace .bundle) :
    Settled (volume.setEntries .workspace entries) := by
  intro bundle hlook candidate hcandidate
  rw [Volume.look_setEntries, hbundle] at hlook
  rcases mem_candidates_setEntries.mp hcandidate with rfl | hold
  · rw [hbundle, hlook]
  · exact h bundle hlook candidate hold

theorem settled_setAside (h : Settled volume) :
    Settled (volume.rename .workspace .bundle (.aside (.drawn process))) := by
  cases hbundle : volume.look .workspace .bundle with
  | none =>
      unfold Volume.rename
      rw [hbundle]
      exact h
  | some bundle =>
      rw [Volume.rename_eq hbundle]
      intro other hlook
      rw [Volume.look_setEntries, Volume.lookup_rename, if_neg (by simp), if_pos rfl] at hlook
      cases hlook

theorem settled_flushed (volume : Disk) : Settled (volume.fsyncDirectory .workspace) := by
  intro bundle hlook entries hentries
  rw [Volume.look_fsyncDirectory] at hlook
  have hnow : entries = (volume.directory .workspace).now := by
    simpa [workspaceCandidates] using hentries
  rw [hnow]
  exact hlook

/-- The process only looks at the disk, or commits. -/
def Phase.looks : Phase → Bool
  | .checking | .sweeping | .examining | .hashingInputs | .committing _ => true
  | _ => false

theorem advance_looks (hphase : phase.looks = true)
    (h : advance sha256 process inputs disk phase action = some (disk', after)) :
    disk'.volume = disk.volume := by
  unfold advance at h
  repeat' split at h
  all_goals first | (cases hphase; done) | cases h
  all_goals rfl

theorem settled_removing {tag : Tag} {folder : Directory} (hroot : folder ≠ .workspace)
    (hsettled : Settled disk.volume)
    (h : advance sha256 process inputs disk (.removing tag folder) action = some (disk', after)) :
    Settled disk'.volume := by
  cases action with
  | unlink name =>
      simp only [advance] at h
      split at h
      · cases h
        exact hsettled.of_directory (Volume.directory_setEntries_of_ne hroot.symm)
      · cases h
  | step =>
      simp only [advance] at h
      split at h
      · cases h
        refine hsettled.setWorkspace ?_
        rw [Volume.lookup_erase, if_neg (by simp)]
        rfl
      · cases h
  | fail =>
      cases h
      exact hsettled
  | _ => cases h

/-- Only the rename that publishes a bundle leaves its name open, until the workspace directory
is flushed. -/
theorem settled_advance (hsound : Sound sha256 before disk.volume)
    (hfacts : Facts sha256 process disk.volume phase)
    (hsettled : phase ≠ .syncingWorkspace → Settled disk.volume)
    (hafter : after ≠ .syncingWorkspace) (hraised : after ≠ .raised .syncingWorkspace)
    (h : advance sha256 process inputs disk phase action = some (disk', after)) :
    Settled disk'.volume := by
  cases hfills : phase.fills with
  | true =>
      have hphase : phase ≠ .syncingWorkspace := fun heq => by simp [heq, Phase.fills] at hfills
      exact (hsettled hphase).of_directory ((advance_inside hfills h).directory _ (by simp))
  | false =>
  cases hlooks : phase.looks with
  | true =>
      have hphase : phase ≠ .syncingWorkspace := fun heq => by simp [heq, Phase.looks] at hlooks
      rw [advance_looks hlooks h]
      exact hsettled hphase
  | false =>
  cases phase with
  | removing tag folder =>
      have hroot : folder ≠ .workspace := fun heq =>
        hsound.rooted _ (now_mem_candidates disk.volume) _ (heq ▸ hfacts.2)
      exact settled_removing hroot (hsettled (by simp)) h
  | settingAside =>
      cases action <;> cases h
      · exact settled_setAside (hsettled (by simp))
      · exact hsettled (by simp)
  | making =>
      cases action <;> cases h
      · refine (hsettled (by simp)).setWorkspace ?_
        rw [Volume.lookup_insert, if_neg (by simp)]
        rfl
      · exact hsettled (by simp)
  | publishing =>
      cases action <;> try cases h
      · simp only [advance] at h
        split at h
        · cases h
          exact hsettled (by simp)
        · cases h
          exact absurd rfl hafter
      · exact hsettled (by simp)
  | syncingWorkspace =>
      cases action <;> cases h
      · exact settled_flushed disk.volume
      · exact absurd rfl hraised
  | idle | waiting | committed | rolledBack | raised _ | stopped _ =>
      rw [advance_unlocked_disk rfl h]
      exact hsettled (by simp)
  | checking | sweeping | examining | hashingInputs | committing _ => cases hlooks
  | _ => cases hfills

theorem Bundled.of_same {folder : Directory} (h : Bundled sha256 still inputs volume folder)
    (hlook : volume'.look .workspace .bundle = volume.look .workspace .bundle)
    (hsame : Volume.SameFolder folder volume volume') :
    Bundled sha256 still inputs volume' folder := by
  refine ⟨hlook.trans h.1, (bundleVerifies_same hsame).trans h.2.1, fun hstill => ?_⟩
  obtain ⟨hashes, hinputs, hmanifest⟩ := h.2.2 hstill
  exact ⟨hashes, hinputs, (manifestOf_same hsame).trans hmanifest⟩

theorem copies_examining
    (h : advance sha256 process inputs disk .examining action = some (disk', after)) :
    Copies sha256 still process inputs disk'.volume after := by
  cases action <;> try cases h
  · simp only [advance] at h
    split at h
    · cases h
      trivial
    · next bundle hbundle =>
        split at h
        · cases h
          trivial
        · next manifest hmanifest =>
            split at h
            · next hverifies =>
                split at h
                · next hashes hhashes =>
                    simp only [Option.some.injEq, Prod.mk.injEq] at h
                    obtain ⟨rfl, rfl⟩ := h
                    split
                    · next hsame =>
                        cases bundle with
                        | file file => cases hverifies
                        | folder folder =>
                            exact ⟨folder, hbundle, hverifies,
                              fun _ => ⟨hashes, hhashes, hsame ▸ hmanifest⟩⟩
                    · trivial
                · cases h
                  trivial
            · cases h
              trivial
  · trivial

theorem legacyInputHashes_of_hashed (h : Hashed sha256 inputs [] files)
    (hsession : files.session.isSome = true) (hothers : files.others = []) :
    legacyInputHashes sha256 inputs = some files := by
  have hfirst : files.session = inputHash sha256 inputs .session := h .session (by simp)
  have hsecond : files.evidence = inputHash sha256 inputs .evidence := h .evidence (by simp)
  obtain ⟨session, evidence, others⟩ := files
  simp only at hfirst hsecond hothers hsession
  cases hinput : inputs .session with
  | none => simp [hfirst, inputHash, hinput] at hsession
  | some data =>
      simp only [inputHash, hinput, Option.map_some] at hfirst
      simp [legacyInputHashes, hinput, hfirst, hsecond, hothers, inputHash]

theorem copies_copying {rest : List Artifact}
    (hfacts : Facts sha256 process disk.volume (.copying rest files))
    (hcopies : Copies sha256 still process inputs disk.volume (.copying rest files))
    (h : advance sha256 process inputs disk (.copying rest files) action = some (disk', after)) :
    Copies sha256 still process inputs disk'.volume after := by
  obtain ⟨hbuilding, hpending⟩ := hfacts
  cases rest with
  | nil =>
      cases action <;> cases h
      · intro hstill
        exact legacyInputHashes_of_hashed (hcopies hstill) (by simpa using hpending.session)
          hbuilding.supported
      · trivial
  | cons artifact rest =>
      cases action <;> try cases h
      · simp only [advance] at h
        split at h
        · next hinput =>
            cases h
            intro hstill
            obtain ⟨data, hdata⟩ := Option.isSome_iff_exists.mp hinput
            exact ⟨hcopies hstill, Volume.contents_write, data, hdata, List.nil_prefix⟩
        · next hinput =>
            cases h
            split
            · next hevidence =>
                subst hevidence
                intro hstill other hother
                by_cases hskipped : other = .evidence
                · subst hskipped
                  have hmissing := hpending.missing .evidence List.mem_cons_self
                  rw [hmissing, inputHash, Option.not_isSome_iff_eq_none.mp hinput, Option.map_none]
                · exact hcopies hstill other (by simp [hskipped, hother])
            · trivial
      · trivial

theorem copies_filling {artifact : Artifact} {copied : List UInt8} {rest : List Artifact}
    (hcopies : Copies sha256 still process inputs disk.volume (.filling artifact copied rest files))
    (h : advance sha256 process inputs disk (.filling artifact copied rest files) action =
      some (disk', after)) : Copies sha256 still process inputs disk'.volume after := by
  cases action <;> try cases h
  · simp only [advance] at h
    split at h
    · next hunread =>
        cases h
        intro hstill
        obtain ⟨hhashed, hcontents, data, hdata, hprefix⟩ := hcopies hstill
        have hlength : data.length ≤ copied.length := by
          simpa [unread, hdata, List.drop_eq_nil_iff] using hunread
        have hwhole := hprefix.eq_of_length_le hlength
        exact ⟨hhashed, data, hdata, hwhole ▸ hcontents⟩
    · cases h
  · simp only [advance] at h
    split at h
    · cases h
    · cases h
      intro hstill
      obtain ⟨hhashed, hcontents, data, hdata, suffix, rfl⟩ := hcopies hstill
      refine ⟨hhashed, Volume.contents_write, copied ++ suffix, hdata, ?_⟩
      rw [unread, hdata, Option.getD_some, List.drop_left]
      exact (List.prefix_append_right_inj copied).mpr (List.take_prefix _ suffix)
  · trivial

theorem copies_hashing {artifact : Artifact} {rest : List Artifact}
    (hcopies : Copies sha256 still process inputs volume (.hashing artifact rest files)) :
    Copies sha256 still process inputs volume
      (.copying rest (files.set (sha256 (volume.contents (.copy process artifact))) artifact)) := by
  intro hstill other hother
  obtain ⟨hhashed, data, hdata, hcontents⟩ := hcopies hstill
  by_cases hsame : other = artifact
  · subst hsame
    have hof : ∀ hash, (files.set hash other).of other = some hash := by
      intro hash
      cases other <;> rfl
    rw [hof, hcontents, inputHash, hdata, Option.map_some]
  · have hof : ∀ hash, (files.set hash artifact).of other = files.of other := by
      intro hash
      cases artifact <;> cases other <;> first | rfl | exact absurd rfl hsame
    rw [hof]
    exact hhashed other (by simp [hsame, hother])

theorem copies_publishing (hfacts : Facts sha256 process disk.volume .publishing)
    (hcopies : Copies sha256 still process inputs disk.volume .publishing)
    (h : advance sha256 process inputs disk .publishing action = some (disk', after)) :
    Copies sha256 still process inputs disk'.volume after := by
  obtain ⟨⟨files, hfiles⟩, howned⟩ := hfacts
  cases action <;> try cases h
  · simp only [advance] at h
    split at h
    · cases h
      trivial
    · cases h
      have hsame : Volume.SameFolder (.staged process) disk.volume
          (disk.volume.rename .workspace (.staging (.drawn process)) .bundle) :=
        Volume.sameFolder_rename (by simp) _ _
      refine ⟨?_, (hfiles.of_same hsame).verifies, fun hstill => ?_⟩
      · rw [Volume.rename_eq howned, Volume.look_setEntries, Volume.lookup_rename, if_pos rfl]
      · obtain ⟨hashes, hinputs, hmanifest⟩ := hcopies hstill
        exact ⟨hashes, hinputs, (manifestOf_same hsame).trans hmanifest⟩
  · trivial

theorem copies_advance (hfacts : Facts sha256 process disk.volume phase)
    (hcopies : Copies sha256 still process inputs disk.volume phase)
    (h : advance sha256 process inputs disk phase action = some (disk', after)) :
    Copies sha256 still process inputs disk'.volume after := by
  cases phase with
  | checking =>
      cases action <;> try cases h
      · simp only [advance] at h
        split at h
        · cases h
          split <;> trivial
        · cases h
          trivial
      · simp only [advance] at h
        split at h <;> cases h <;> trivial
      · trivial
  | sweeping =>
      cases action <;> try cases h
      · simp only [advance] at h
        split at h <;> cases h
        trivial
      · simp only [advance] at h
        split at h <;> cases h <;> trivial
      · trivial
  | removing tag folder =>
      cases action <;> try cases h
      · simp only [advance] at h
        split at h <;> cases h
        trivial
      · simp only [advance] at h
        split at h <;> cases h
        trivial
      · trivial
  | examining => exact copies_examining h
  | settingAside => cases action <;> cases h <;> trivial
  | making =>
      cases action <;> cases h
      · intro _ artifact hartifact
        cases artifact <;> simp at hartifact
      · trivial
  | copying rest files => exact copies_copying hfacts hcopies h
  | filling artifact copied rest files => exact copies_filling hcopies h
  | flushing artifact rest files =>
      cases action <;> cases h
      · exact hcopies
      · trivial
  | hashing artifact rest files =>
      cases action <;> cases h
      · exact copies_hashing hcopies
      · trivial
  | dumping files =>
      cases action <;> cases h
      · exact hcopies
      · exact hcopies
      · trivial
  | flushingManifest files =>
      cases action <;> cases h
      · exact hcopies
      · trivial
  | replacing files =>
      cases action <;> cases h
      · exact hcopies
      · trivial
  | syncingStaging files =>
      cases action <;> cases h
      · intro hstill
        obtain ⟨hbuilding, hsession, hmanifest, hflushed⟩ := hfacts
        exact ⟨files, hcopies hstill,
          (hbuilding.published hsession hmanifest hflushed).manifestOf⟩
      · trivial
  | publishing => exact copies_publishing hfacts hcopies h
  | syncingWorkspace =>
      cases action <;> cases h
      · exact ⟨.staged process, hcopies.of_same Volume.look_fsyncDirectory
          (Volume.sameFolder_fsyncDirectory (by simp))⟩
      · trivial
  | hashingInputs =>
      cases action <;> try cases h
      · simp only [advance] at h
        split at h
        · next hashes hhashes =>
            cases h
            obtain ⟨folder, hbundled⟩ := hcopies
            exact ⟨folder, hbundled, fun _ => hhashes⟩
        · cases h
          trivial
      · trivial
  | committing hashes =>
      cases action <;> try cases h
      · simp only [advance] at h
        split at h <;> cases h <;> trivial
      · trivial
  | discarding => cases action <;> cases h <;> trivial
  | _ =>
      cases action <;> cases h
      trivial

/-- The database and the bundle fit together. -/
structure Recorded (sha256 : Content → String) (still : Prop) (s : Shared) : Prop where
  /-- Nothing but the empty database is ever replaced. -/
  first : ∀ content ∈ s.disk.database.candidates, content ≠ .empty →
    s.disk.database.now = content
  /-- An import has its bundle under its name, and no loss of power takes it. -/
  bundle : ∀ hashes, Database.imported hashes ∈ s.disk.database.candidates →
    ∃ folder, (∀ entries ∈ workspaceCandidates s.disk.volume,
        entries.lookup .bundle = some (.folder folder)) ∧
      bundleVerifies sha256 s.disk.volume (.folder folder) = true ∧
      (still → manifestOf s.disk.volume (.folder folder) =
        some (.manifest "legacy-v1" hashes))
  settled : s.locks () = none → Settled s.disk.volume

/-- What a process with the lock knows of the database and of the bundle. -/
structure Importing (sha256 : Content → String) (still : Prop) (process : ℕ) (s : Shared)
    (here : Process) : Prop where
  settled : here.runs s.boot = true → here.phase.locked = true → here.phase ≠ .syncingWorkspace →
    Settled s.disk.volume
  empty : here.runs s.boot = true → here.phase.locked = true → here.phase ≠ .checking →
    ∀ content ∈ s.disk.database.candidates, content = .empty
  copies : here.runs s.boot = true →
    Copies sha256 still process s.inputs s.disk.volume here.phase

/-- No process comes to an end between the rename that publishes a bundle and the flush of the
workspace directory. -/
def Flushes (_ : Action) (here : Process) : Prop :=
  here.phase ≠ .raised .syncingWorkspace ∧ here.phase ≠ .stopped .syncingWorkspace

/-- In `still` runs nobody else writes the legacy files. -/
def Keeps (still : Prop) : Drift → Prop
  | .edit _ _ => ¬ still
  | .losePower _ _ _ => True

instance (action : Action) (here : Process) : Decidable (Flushes action here) :=
  inferInstanceAs (Decidable (_ ∧ _))

instance (still : Prop) [Decidable still] (change : Drift) : Decidable (Keeps still change) :=
  match change with
  | .edit _ _ => inferInstanceAs (Decidable (¬ still))
  | .losePower _ _ _ => inferInstanceAs (Decidable True)

theorem Recorded.empty {s : Shared} (h : Recorded sha256 still s)
    (hnow : s.disk.database.now = .empty) :
    ∀ content ∈ s.disk.database.candidates, content = .empty := by
  intro content hcontent
  by_contra hother
  exact hother ((h.first content hcontent hother).symm.trans hnow)

/-- Only the last step of a process writes the database. -/
theorem advance_database
    (h : advance sha256 process inputs disk phase action = some (disk', after)) :
    disk'.database = disk.database ∨
      (phase = .checking ∧ after = .committed ∧ disk.database.now = .empty ∧
        disk' = { disk with database := disk.database.set .bootstrapped }) ∨
      ∃ hashes, phase = .committing hashes ∧ after = .committed ∧
        disk' = { disk with database := disk.database.set (.imported hashes) } := by
  unfold advance at h
  repeat' split at h
  all_goals cases h
  all_goals first
    | exact Or.inl rfl
    | exact Or.inr (Or.inl ⟨rfl, rfl, by assumption, rfl⟩)
    | exact Or.inr (Or.inr ⟨_, rfl, rfl, rfl⟩)

/-- A process goes on under the lock only where the database is empty. -/
theorem advance_checking (hafter : after.locked = true)
    (h : advance sha256 process inputs disk .checking action = some (disk', after)) :
    disk.database.now = .empty := by
  cases action <;> try cases h
  · simp only [advance] at h
    split at h
    · next hempty => exact hempty
    · cases h
      cases hafter
  · simp only [advance] at h
    split at h
    · next hempty => exact hempty
    · cases h
      cases hafter
  · cases hafter

variable {s s' : Shared} {here here' : Process} {next : Storage}

theorem Copies.of_inputs {inputs' : LegacyInputs}
    (h : Copies sha256 still process inputs volume phase) (hsame : still → inputs' = inputs) :
    Copies sha256 still process inputs' volume phase := by
  by_cases hstill : still
  · rw [hsame hstill]
    exact h
  · have hbundled : ∀ folder, Bundled sha256 still inputs volume folder →
        Bundled sha256 still inputs' volume folder :=
      fun _ hfolder => ⟨hfolder.1, hfolder.2.1, fun hany => absurd hany hstill⟩
    cases phase with
    | copying | filling | flushing | hashing | dumping | flushingManifest | replacing
      | syncingStaging | publishing => exact fun hany => absurd hany hstill
    | syncingWorkspace => exact hbundled _ h
    | hashingInputs =>
        obtain ⟨folder, hfolder⟩ := h
        exact ⟨folder, hbundled folder hfolder⟩
    | committing hashes =>
        obtain ⟨folder, hfolder, _⟩ := h
        exact ⟨folder, hbundled folder hfolder, fun hany => absurd hany hstill⟩
    | _ => trivial

theorem copies_of_unlocked (hphase : phase.locked = false) :
    Copies sha256 still process inputs volume phase := by
  cases phase with
  | idle | waiting | committed | rolledBack | raised _ | stopped _ => trivial
  | _ => cases hphase

/-- What the import of a process rests on, besides. -/
structure RelyStill (still : Prop) (process : ℕ) (s s' : Shared) : Prop extends
    Rely process s s' where
  inputs : still → s'.inputs = s.inputs

theorem Importing.stable (h : Importing sha256 still process s here)
    (hat : At sha256 process s here) (hrely : RelyStill still process s s') :
    Importing sha256 still process s' here := by
  rcases hrely.change with ⟨hboot, _, hdisk⟩ | ⟨hboot, _⟩
  · have hsame : here.runs s'.boot = true → here.phase.locked = true → s'.disk = s.disk := by
      intro hruns hlocked
      rw [hboot] at hruns
      refine hdisk ((hat.lock ()).mpr ?_)
      simp [hruns, hlocked]
    refine ⟨fun hruns hlocked hphase => ?_, fun hruns hlocked hphase => ?_, fun hruns => ?_⟩
    · rw [hsame hruns hlocked]
      exact h.settled (hboot ▸ hruns) hlocked hphase
    · rw [hsame hruns hlocked]
      exact h.empty (hboot ▸ hruns) hlocked hphase
    · cases hlocked : here.phase.locked with
      | true =>
          rw [hsame hruns hlocked]
          exact (h.copies (hboot ▸ hruns)).of_inputs hrely.inputs
      | false => exact copies_of_unlocked hlocked
  · have hold : here.boot ≠ s'.boot := by have := hat.boot; omega
    have hruns : here.runs s'.boot = false := by simp [Process.runs, hold]
    constructor <;> simp [hruns]

/-- The database and the bundle after a step under the lock. -/
theorem recorded_advance
    (hrecorded : Recorded sha256 still s) (himporting : Importing sha256 still process s here)
    (hruns : here.runs s.boot = true)
    (hadvance : advance sha256 process s.inputs s.disk here.phase action = some (next, after))
    (hsettled : (settle s here next after).1.locks () = none → Settled next.volume) :
    Recorded sha256 still (settle s here next after).1 := by
  rcases advance_database hadvance with hsame | ⟨_, _, hnow, rfl⟩ | ⟨hashes, hphase, _, rfl⟩
  · refine ⟨?_, ?_, hsettled⟩
    · show ∀ content ∈ next.database.candidates, content ≠ .empty → next.database.now = content
      rw [hsame]
      exact hrecorded.first
    · intro hashes hmem
      have hold : Database.imported hashes ∈ s.disk.database.candidates := by
        rw [← hsame]
        exact hmem
      have hvolume : next.volume = s.disk.volume := by
        cases hlocked : here.phase.locked with
        | false => rw [advance_unlocked_disk hlocked hadvance]
        | true =>
            by_cases hchecking : here.phase = .checking
            · rw [hchecking] at hadvance
              exact advance_looks rfl hadvance
            · exact absurd (himporting.empty hruns hlocked hchecking _ hold) (by simp)
      have hbundle := hrecorded.bundle hashes hold
      rw [← hvolume] at hbundle
      exact hbundle
  · have hempty := hrecorded.empty hnow
    refine ⟨fun content hcontent hother => ?_, fun hashes hmem => ?_, hsettled⟩
    · rcases Slot.mem_candidates_set.mp hcontent with rfl | hold
      · rfl
      · exact absurd (hempty content hold) hother
    · rcases Slot.mem_candidates_set.mp hmem with hcommitted | hold
      · cases hcommitted
      · exact absurd (hempty _ hold) (by simp)
  · have hlocked : here.phase.locked = true := by rw [hphase]; rfl
    have hempty := himporting.empty hruns hlocked (by simp [hphase])
    have hcopies := himporting.copies hruns
    rw [hphase] at hcopies
    obtain ⟨folder, ⟨hlook, hverifies, hmanifest⟩, hinputs⟩ := hcopies
    refine ⟨fun content hcontent hother => ?_, fun recorded hmem => ?_, hsettled⟩
    · rcases Slot.mem_candidates_set.mp hcontent with rfl | hold
      · rfl
      · exact absurd (hempty content hold) hother
    · rcases Slot.mem_candidates_set.mp hmem with hcommitted | hold
      · cases hcommitted
        refine ⟨folder, himporting.settled hruns hlocked (by simp [hphase]) _ hlook, hverifies,
          fun hstill => ?_⟩
        obtain ⟨found, hfound, hlisted⟩ := hmanifest hstill
        rw [hinputs hstill] at hfound
        cases hfound
        exact hlisted
      · exact absurd (hempty _ hold) (by simp)

theorem importing_advance
    (hfacts : Facts sha256 process s.disk.volume here.phase)
    (hrecorded : Recorded sha256 still s) (himporting : Importing sha256 still process s here)
    (hruns : here.runs s.boot = true)
    (hsettled : after.locked = true → after ≠ .syncingWorkspace → Settled next.volume)
    (hadvance : advance sha256 process s.inputs s.disk here.phase action = some (next, after)) :
    Importing sha256 still process (settle s here next after).1 (settle s here next after).2 := by
  refine ⟨fun _ => hsettled, fun _ hlocked _ => ?_,
    fun _ => copies_advance hfacts (himporting.copies hruns) hadvance⟩
  have hafter : after.locked = true := hlocked
  have hbefore : here.phase.locked = true := by
    by_contra hunlocked
    have hover := advance_unlocked (by simpa using hunlocked) hadvance
    simp [not_over_of_locked hafter] at hover
  have hsame : next.database = s.disk.database := by
    rcases advance_database hadvance with hsame | ⟨_, rfl, _, _⟩ | ⟨_, _, rfl, _⟩
    · exact hsame
    · cases hafter
    · cases hafter
  show ∀ content ∈ next.database.candidates, content = .empty
  rw [hsame]
  by_cases hchecking : here.phase = .checking
  · rw [hchecking] at hadvance
    exact hrecorded.empty (advance_checking hafter hadvance)
  · exact himporting.empty hruns hbefore hchecking

/-- Where the lock is given back, the bundle is settled. -/
theorem settled_settle (hrecorded : Recorded sha256 still s)
    (hat : At sha256 process s here) (hruns : here.runs s.boot = true)
    (hunlocked : here.phase.locked = false → next = s.disk)
    (hsettled : here.phase.locked = true → after.locked = false → Settled next.volume)
    (hfree : (settle s here next after).1.locks () = none) : Settled next.volume := by
  cases hlocked : here.phase.locked with
  | false =>
      rw [hunlocked hlocked]
      refine hrecorded.settled ?_
      simpa [settle, hlocked] using hfree
  | true =>
      cases hafter : after.locked with
      | false => exact hsettled hlocked hafter
      | true =>
          have hheld := (hat.lock ()).mpr (by simp [hruns, hlocked])
          simp [settle, hlocked, hafter, hheld] at hfree

theorem recorded_act (hsound : Sound sha256 before s.disk.volume)
    (hrecorded : Recorded sha256 still s) (hat : At sha256 process s here)
    (himporting : Importing sha256 still process s here)
    (h : act sha256 process action s here = some (s', here')) (hflushes : Flushes action here') :
    Recorded sha256 still s' ∧ Importing sha256 still process s' here' ∧ s'.inputs = s.inputs := by
  rcases act_cases h with ⟨hphase, rfl, rfl⟩ | ⟨hruns, hphase, locks, hlock, rfl, rfl⟩ |
    ⟨hruns, hidle, disk, after, hsettle, hstep⟩
  · refine ⟨hrecorded, ⟨fun _ hlocked => ?_, fun _ hlocked => ?_, fun _ => trivial⟩, rfl⟩
    · cases hlocked
    · cases hlocked
  · obtain ⟨hfree, rfl⟩ := tryAcquire_eq_some.mp hlock
    refine ⟨⟨hrecorded.first, hrecorded.bundle, fun hnone => ?_⟩,
      ⟨fun _ _ _ => hrecorded.settled hfree, fun _ _ hchecking => absurd rfl hchecking,
        fun _ => trivial⟩, rfl⟩
    simp at hnone
  · have hresult : s' = (settle s here disk after).1 ∧ here' = (settle s here disk after).2 :=
      ⟨congrArg Prod.fst hsettle, congrArg Prod.snd hsettle⟩
    obtain ⟨rfl, rfl⟩ := hresult
    have hraised : after ≠ .raised .syncingWorkspace := hflushes.1
    have hstopped : after ≠ .stopped .syncingWorkspace := hflushes.2
    rcases hstep with ⟨rfl, hend⟩ | hadvance
    · have hover : after.over = true := by
        rcases hend with rfl | ⟨_, rfl⟩ <;> rfl
      have hafter : after.locked = false := by
        cases hlocked : after.locked with
        | false => rfl
        | true => simp [not_over_of_locked hlocked] at hover
      refine ⟨⟨hrecorded.first, hrecorded.bundle, ?_⟩, ⟨fun _ hlocked => ?_, fun _ hlocked => ?_,
        fun _ => copies_of_unlocked hafter⟩, rfl⟩
      · refine settled_settle hrecorded hat hruns (fun _ => rfl) fun hlocked _ => ?_
        refine himporting.settled hruns hlocked fun hsyncing => ?_
        rcases hend with rfl | ⟨hwaiting, _⟩
        · exact hstopped (by rw [hsyncing])
        · rw [hwaiting] at hsyncing
          cases hsyncing
      · exact absurd (hafter.symm.trans hlocked) (by simp)
      · exact absurd (hafter.symm.trans hlocked) (by simp)
    · have hfacts := hat.facts hruns
      have hsettled : here.phase.locked = true → after ≠ .syncingWorkspace →
          Settled disk.volume := fun hlocked hafter =>
        settled_advance hsound hfacts (himporting.settled hruns hlocked) hafter hraised hadvance
      refine ⟨recorded_advance hrecorded himporting hruns hadvance ?_,
        importing_advance hfacts hrecorded himporting hruns ?_ hadvance, rfl⟩
      · refine settled_settle hrecorded hat hruns
          (fun hlocked => advance_unlocked_disk hlocked hadvance) fun hlocked hafter => ?_
        refine hsettled hlocked fun hsyncing => ?_
        rw [hsyncing] at hafter
        cases hafter
      · intro hafter hnot
        refine hsettled ?_ hnot
        by_contra hunlocked
        have hover := advance_unlocked (by simpa using hunlocked) hadvance
        simp [not_over_of_locked hafter] at hover

theorem recorded_drift {change : Drift} (hsound : Sound sha256 before s.disk.volume)
    (hrecorded : Recorded sha256 still s) (h : drift change s = some s')
    (hkeeps : Keeps still change) :
    Recorded sha256 still s' ∧ (still → s'.inputs = s.inputs) := by
  cases change with
  | edit artifact data =>
      cases h
      exact ⟨⟨hrecorded.first, hrecorded.bundle, hrecorded.settled⟩,
        fun hstill => absurd hstill hkeeps⟩
  | losePower back torn databaseBack =>
      cases h
      refine ⟨⟨fun content hcontent _ => ?_, fun hashes hmem => ?_, fun _ bundle hlook entries
        hentries => ?_⟩, fun _ => rfl⟩
      · exact (Slot.mem_candidates_lose.mp hcontent).symm
      · have hold := Slot.now_lose_mem s.disk.database databaseBack
        rw [← Slot.mem_candidates_lose.mp hmem] at hold
        obtain ⟨folder, hbundle, hverifies, hmanifest⟩ := hrecorded.bundle hashes hold
        have hdurable := (hsound.kept _ (now_mem_candidates _) .bundle rfl folder
          (hbundle _ (now_mem_candidates _))).1
        have hsame := hdurable.losePower back torn
        refine ⟨folder, fun entries hentries => ?_, (bundleVerifies_same hsame).trans hverifies,
          fun hstill => (manifestOf_same hsame).trans (hmanifest hstill)⟩
        rw [Slot.mem_candidates_lose.mp hentries]
        exact hbundle _ (Slot.now_lose_mem _ _)
      · rw [Slot.mem_candidates_lose.mp hentries]
        exact hlook

theorem opening_recorded {machine : State ℕ Shared Process} (hbefore : Before before)
    (h : (openingRuns sha256 before).ReachableUnder (onSteps Flushes (Keeps still)) machine) :
    Sound sha256 before machine.shared.disk.volume ∧ Recorded sha256 still machine.shared := by
  refine (invariant (fun s => Sound sha256 before s.disk.volume ∧ Recorded sha256 still s)
    (fun process s here => At sha256 process s here ∧ Importing sha256 still process s here)
    (RelyStill still) ?_ ?_ ?_ ?_ h).1
  · intro s hinit
    have hstart : Sound sha256 before s.shared.disk.volume ∧
        ∀ process, At sha256 process s.shared (s.locals process) :=
      opening_sound hbefore (.start hinit)
    obtain ⟨hlocals, _, _, hdisk⟩ := hinit
    refine ⟨⟨hstart.1, ⟨?_, ?_, fun _ => ?_⟩⟩, fun process => ⟨hstart.2 process, ?_⟩⟩
    · rw [hdisk]
      intro content hcontent hother
      exact absurd (by simpa [Slot.candidates] using hcontent) hother
    · rw [hdisk]
      intro hashes hmem
      simp [Slot.candidates] at hmem
    · rw [hdisk]
      intro bundle hlook entries hentries
      rw [hbefore.candidates hentries]
      exact hlook
    · rw [hlocals]
      refine ⟨fun _ hlocked => ?_, fun _ hlocked => ?_, fun _ => trivial⟩
      · cases hlocked
      · cases hlocked
  · intro process action shared here shared' here' hinv hat hstep hok
    have hresult := opening_act hbefore hinv.1 hat.1 hstep
    have hrecorded := recorded_act hinv.1 hinv.2 hat.1 hat.2 hstep hok
    exact ⟨⟨hresult.1.sound, hrecorded.1⟩, ⟨hresult.2.1, hrecorded.2.1⟩,
      fun other hother => ⟨hresult.2.2 other hother, fun _ => hrecorded.2.2⟩⟩
  · intro change shared shared' hinv hstep hok
    have hresult := opening_drift hinv.1 hstep
    have hrecorded := recorded_drift hinv.1 hinv.2 hstep hok
    exact ⟨⟨hresult.1, hrecorded.1⟩, fun process => ⟨hresult.2.1 process, hrecorded.2⟩⟩
  · intro process shared shared' here _ hat hrely
    exact ⟨hat.1.stable hrely.toRely, hat.2.stable hat.1 hrely⟩

/-- An import that the database holds has its bundle: under its name, verified, and on the disk
for every loss of power; and where nobody else wrote the legacy files, with the hashes that the
migration records. -/
theorem import_has_bundle {machine : State ℕ Shared Process} (hbefore : Before before)
    (h : (openingRuns sha256 before).ReachableUnder (onSteps Flushes (Keeps still)) machine)
    {hashes : FileHashes}
    (himported : Database.imported hashes ∈ machine.shared.disk.database.candidates) :
    ∃ folder, Kept machine.shared.disk.volume folder ∧
      machine.shared.disk.volume.look .workspace .bundle = some (.folder folder) ∧
      bundleVerifies sha256 machine.shared.disk.volume (.folder folder) = true ∧
      (still → manifestOf machine.shared.disk.volume (.folder folder) =
        some (.manifest "legacy-v1" hashes)) := by
  have hrecorded := (opening_recorded hbefore h).2
  obtain ⟨folder, hbundle, hverifies, hmanifest⟩ := hrecorded.bundle hashes himported
  exact ⟨folder, fun entries hentries => ⟨.bundle, rfl, hbundle entries hentries⟩,
    hbundle _ (now_mem_candidates _), hverifies, hmanifest⟩

end Imports

/-- What the migration records then. -/
def sampleHashes : FileHashes := { session := some (sampleHash (.bytes [123, 125])) }

/-- The first process dies before it flushes the workspace directory; the second one finds its
bundle whole, and imports; then the power is lost. -/
def unflushedRun : List (Label ℕ Action Drift) :=
  steps 0 ([.start] ++ List.replicate 7 .step ++ [.piece 2] ++ List.replicate 10 .step ++
    [.stop]) ++
    steps 1 ([.start] ++ List.replicate 6 .step) ++
    [.drift (.losePower (fun directory => if directory = .workspace then 1 else 0)
      (fun _ => .bytes []) 0)]

theorem sample_imports :
    (runUnder (opening sampleHash) Flushes (Keeps True) sampleMachine sampleRun).map
      (fun machine => (machine.shared.disk.database.now,
        machine.shared.disk.volume.look .workspace .bundle)) =
      some (.imported sampleHashes, some (.folder (.staged 1))) ∧
    (runUnder (opening sampleHash) (fun _ _ => True) (Keeps True) sampleMachine unflushedRun).map
      (fun machine => (machine.shared.disk.database.now,
        machine.shared.disk.volume.look .workspace .bundle,
        machine.shared.disk.volume.look .workspace (.staging (.drawn 0)))) =
      some (.imported sampleHashes, none, some (.folder (.staged 0))) := by
  decide +kernel

theorem import_has_bundle_sample : ∃ machine : State ℕ Shared Process, ∃ folder,
    Kept machine.shared.disk.volume folder ∧
    machine.shared.disk.volume.look .workspace .bundle = some (.folder folder) ∧
    manifestOf machine.shared.disk.volume (.folder folder) =
      some (.manifest "legacy-v1" sampleHashes) := by
  obtain ⟨machine, hmachine, hfacts⟩ := Option.map_eq_some_iff.mp sample_imports.1
  obtain ⟨hcommitted, _⟩ := Prod.mk.inj hfacts
  have hmem : Database.imported sampleHashes ∈ machine.shared.disk.database.candidates := by
    rw [← hcommitted]
    exact Slot.now_mem
  obtain ⟨folder, hkept, hlook, _, hmanifest⟩ := import_has_bundle incompleteBundle_before
    (reachable_runUnder (sampleMachine_reachable _) hmachine) hmem
  exact ⟨machine, folder, hkept, hlook, hmanifest trivial⟩

/-- Without the flush a loss of power takes the bundle of an import back to its staging name. -/
theorem import_without_flush : ∃ machine : State ℕ Shared Process,
    (openingRuns sampleHash incompleteBundle).Reachable machine ∧
    machine.shared.disk.database.now = .imported sampleHashes ∧
    machine.shared.disk.volume.look .workspace .bundle = none := by
  obtain ⟨machine, hmachine, hfacts⟩ := Option.map_eq_some_iff.mp sample_imports.2
  obtain ⟨hcommitted, hrest⟩ := Prod.mk.inj hfacts
  exact ⟨machine, (reachable_runUnder (sampleMachine_reachable _) hmachine).reachable, hcommitted,
    (Prod.mk.inj hrest).1⟩

end GhAddressCr.RecoveryBundle
