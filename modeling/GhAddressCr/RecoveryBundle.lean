import GhAddressCr.AdvisoryLocks
import GhAddressCr.CrashingFiles
import GhAddressCr.SharedPrograms

/-!
# The recovery bundle of a legacy import

Any number of processes open one session that may still be in its legacy files. Whoever has the
lock of the database copies the files into a staging directory, writes their hashes beside them,
flushes all of it, publishes the directory by a rename and then commits the import. Here every file
operation is a step of its own; each can fail, a process can stop between any two, and the power
can be lost at any time.
-/
namespace GhAddressCr.RecoveryBundle

open SharedPrograms AdvisoryLocks CrashingFiles

/-- The legacy files, in the order they are copied. -/
inductive Artifact where
  | session
  | evidence
deriving DecidableEq

/-- A random suffix: of a name from before, or the one a process draws. -/
inductive Tag where
  | earlier (number : ℕ)
  | drawn (process : ℕ)
deriving DecidableEq

inductive Directory where
  | workspace
  | earlier (number : ℕ)
  /-- The staging directory that a process makes. -/
  | staged (process : ℕ)
deriving DecidableEq

inductive Name where
  /-- `legacy-v1-recovery`. -/
  | bundle
  /-- `legacy-v1-recovery.tmp-…`. -/
  | staging (tag : Tag)
  /-- `legacy-v1-recovery.superseded-…`, or `.incomplete-…`. -/
  | aside (tag : Tag)
  | artifact (artifact : Artifact)
  /-- `manifest.json`. -/
  | manifest
  /-- `manifest.json.….tmp`. -/
  | temporary (process : ℕ)
  | other (text : String)
deriving DecidableEq

inductive Inode where
  | earlier (number : ℕ)
  | copy (process : ℕ) (artifact : Artifact)
  | manifest (process : ℕ)
deriving DecidableEq

/-- `files` of a manifest: the hash of each file, and of those it does not support. -/
structure FileHashes where
  session : Option String := none
  evidence : Option String := none
  others : List (String × String) := []
deriving DecidableEq

inductive Content where
  | bytes (data : List UInt8)
  /-- The text of an object with these fields. -/
  | manifest (formatVersion : String) (files : FileHashes)
deriving DecidableEq

/-- What the database of the store holds. -/
inductive Database where
  | empty
  | bootstrapped
  /-- The legacy session, with the hashes that the migration records. -/
  | imported (hashes : FileHashes)
deriving DecidableEq

abbrev Disk := Volume Directory Name Inode Content

/-- The bytes of a legacy file, where there is one. -/
abbrev LegacyInputs := Artifact → Option (List UInt8)

structure Storage where
  database : Slot Database := ⟨.empty, []⟩
  volume : Disk

def FileHashes.of (files : FileHashes) : Artifact → Option String
  | .session => files.session
  | .evidence => files.evidence

def FileHashes.set (files : FileHashes) (hash : String) : Artifact → FileHashes
  | .session => { files with session := some hash }
  | .evidence => { files with evidence := some hash }

def Name.isStaging : Name → Bool
  | .staging _ => true
  | _ => false

section Program

variable (sha256 : Content → String)

/-- What `manifest.json` of a bundle holds. -/
def manifestOf (volume : Disk) : Node Directory Inode → Option Content
  | .folder folder =>
      match volume.look folder .manifest with
      | some (.file file) => some (volume.contents file)
      | _ => none
  | .file _ => none

/-- The file of a bundle has the hash that its manifest lists. -/
def copyMatches (volume : Disk) (folder : Directory) (files : FileHashes) (artifact : Artifact) :
    Bool :=
  match files.of artifact with
  | some hash =>
      match volume.look folder (.artifact artifact) with
      | some (.file file) => sha256 (volume.contents file) = hash
      | _ => false
  | none => true

/-- A bundle that verifies against its own manifest. -/
def bundleVerifies (volume : Disk) : Node Directory Inode → Bool
  | .folder folder =>
      match manifestOf volume (.folder folder) with
      | some (.manifest formatVersion files) =>
          formatVersion = "legacy-v1" && files.others.isEmpty &&
            copyMatches sha256 volume folder files .session &&
            copyMatches sha256 volume folder files .evidence
      | _ => false
  | .file _ => false

/-- `_verify_recovery_bundle` raises nothing. -/
def verifyRecoveryBundle (volume : Disk) : Bool :=
  (volume.look .workspace .bundle).all (bundleVerifies sha256 volume)

/-- `_legacy_input_hashes`; without a session file it raises. -/
def legacyInputHashes (inputs : LegacyInputs) : Option FileHashes :=
  (inputs .session).map fun session =>
    { session := some (sha256 (.bytes session))
      evidence := (inputs .evidence).map fun evidence => sha256 (.bytes evidence) }

/-- Where a process is. -/
inductive Phase where
  | idle
  /-- Before `BEGIN EXCLUSIVE`. -/
  | waiting
  | checking
  | sweeping
  /-- In the `rmtree` of a leftover. -/
  | removing (tag : Tag) (folder : Directory)
  | examining
  | settingAside
  | making
  | copying (rest : List Artifact) (files : FileHashes)
  | filling (artifact : Artifact) (copied : List UInt8) (rest : List Artifact) (files : FileHashes)
  | flushing (artifact : Artifact) (rest : List Artifact) (files : FileHashes)
  | hashing (artifact : Artifact) (rest : List Artifact) (files : FileHashes)
  /-- In `write_json_durable`, of the manifest. -/
  | dumping (files : FileHashes)
  | flushingManifest (files : FileHashes)
  | replacing (files : FileHashes)
  | discarding
  | syncingStaging (files : FileHashes)
  | publishing
  | syncingWorkspace
  | hashingInputs
  | committing (hashes : FileHashes)
  | committed
  /-- Another process initialized the store. -/
  | rolledBack
  | raised (during : Phase)
  | stopped (during : Phase)
deriving DecidableEq

/-- The process has the lock of the database. -/
def Phase.locked : Phase → Bool
  | .idle | .waiting | .committed | .rolledBack | .raised _ | .stopped _ => false
  | _ => true

def Phase.over : Phase → Bool
  | .committed | .rolledBack | .raised _ | .stopped _ => true
  | _ => false

inductive Action where
  | start
  /-- The next operation of the program. -/
  | step
  /-- `bootstrap`, with a payload of its own. -/
  | bootstrap
  /-- A match of the glob. -/
  | leftover (tag : Tag)
  | unlink (name : Name)
  /-- That many bytes of a copy. -/
  | piece (count : ℕ)
  /-- Part of the manifest's text. -/
  | flushBuffer (data : List UInt8)
  /-- The next operation raises. -/
  | fail
  /-- The process dies. -/
  | stop
deriving DecidableEq

/-- What is left to copy of a legacy file. -/
def unread (inputs : LegacyInputs) (artifact : Artifact) (copied : List UInt8) : List UInt8 :=
  ((inputs artifact).getD []).drop copied.length

/-- A process under the lock: what it does to the disk, and where it is then. -/
def advance (process : ℕ) (inputs : LegacyInputs) (disk : Storage) :
    Phase → Action → Option (Storage × Phase)
  -- _initialize
  | .checking, .step =>
      if disk.database.now = .empty then
        some (disk, if (inputs .session).isSome then .sweeping else .raised .checking)
      else some (disk, .rolledBack)
  | .checking, .bootstrap =>
      if disk.database.now = .empty then
        some ({ disk with database := disk.database.set .bootstrapped }, .committed)
      else some (disk, .rolledBack)
  -- _create_recovery_bundle: rmtree of each staging leftover
  | .sweeping, .leftover tag =>
      match disk.volume.look .workspace (.staging tag) with
      | some (.folder folder) => some (disk, .removing tag folder)
      | some (.file _) => some (disk, .raised .sweeping)
      | none => none
  | .removing tag folder, .unlink name =>
      if (disk.volume.look folder name).isSome then
        some ({ disk with volume := disk.volume.unlink folder name }, .removing tag folder)
      else none
  | .removing tag folder, .step =>
      if (disk.volume.directory folder).now = ∅ then
        some ({ disk with volume := disk.volume.unlink .workspace (.staging tag) }, .sweeping)
      else none
  | .sweeping, .step =>
      if ∀ name ∈ (disk.volume.directory .workspace).now.keys, name.isStaging = false then
        some (disk, .examining)
      else none
  | .examining, .step =>
      match disk.volume.look .workspace .bundle with
      | none => some (disk, .making)
      | some bundle =>
          match manifestOf disk.volume bundle with
          | none => some (disk, .settingAside)
          | some manifest =>
              if bundleVerifies sha256 disk.volume bundle then
                match legacyInputHashes sha256 inputs with
                | some hashes =>
                    some (disk, if manifest = .manifest "legacy-v1" hashes then .hashingInputs
                      else .settingAside)
                | none => some (disk, .raised .examining)
              else some (disk, .raised .examining)
  | .settingAside, .step =>
      some ({ disk with volume := disk.volume.rename .workspace .bundle (.aside (.drawn process)) },
        .making)
  | .making, .step =>
      some ({ disk with
        volume := disk.volume.link .workspace (.staging (.drawn process))
          (.folder (.staged process)) }, .copying [.session, .evidence] {})
  -- shutil.copy2, fsync_file and the hash of the copy
  | .copying (artifact :: rest) files, .step =>
      if (inputs artifact).isSome then
        some ({ disk with
          volume := (disk.volume.link (.staged process) (.artifact artifact)
            (.file (.copy process artifact))).write (.copy process artifact) (.bytes []) },
          .filling artifact [] rest files)
      else
        some (disk, if artifact = .evidence then .copying rest files
          else .raised (.copying (artifact :: rest) files))
  | .filling artifact copied rest files, .piece count =>
      if (unread inputs artifact copied).take count = [] then none
      else
        let read := copied ++ (unread inputs artifact copied).take count
        some ({ disk with volume := disk.volume.write (.copy process artifact) (.bytes read) },
          .filling artifact read rest files)
  | .filling artifact copied rest files, .step =>
      if unread inputs artifact copied = [] then
        some (disk, .flushing artifact rest files)
      else none
  | .flushing artifact rest files, .step =>
      some ({ disk with volume := disk.volume.fsync (.copy process artifact) },
        .hashing artifact rest files)
  | .hashing artifact rest files, .step =>
      some (disk, .copying rest
        (files.set (sha256 (disk.volume.contents (.copy process artifact))) artifact))
  -- write_json_durable
  | .copying [] files, .step =>
      some ({ disk with
        volume := (disk.volume.link (.staged process) (.temporary process)
          (.file (.manifest process))).write (.manifest process) (.bytes []) }, .dumping files)
  | .dumping files, .flushBuffer data =>
      some ({ disk with volume := disk.volume.write (.manifest process) (.bytes data) },
        .dumping files)
  | .dumping files, .step =>
      some ({ disk with
        volume := disk.volume.write (.manifest process) (.manifest "legacy-v1" files) },
        .flushingManifest files)
  | .flushingManifest files, .step =>
      some ({ disk with volume := disk.volume.fsync (.manifest process) }, .replacing files)
  | .replacing files, .step =>
      some ({ disk with
        volume := disk.volume.rename (.staged process) (.temporary process) .manifest },
        .syncingStaging files)
  | .discarding, .step =>
      some (if (disk.volume.look (.staged process) (.temporary process)).isSome then
          { disk with volume := disk.volume.unlink (.staged process) (.temporary process) }
        else disk, .raised .discarding)
  | .syncingStaging _, .step =>
      some ({ disk with volume := disk.volume.fsyncDirectory (.staged process) }, .publishing)
  -- os.rename and fsync_directory of the workspace
  | .publishing, .step =>
      if (disk.volume.look .workspace .bundle).isSome then some (disk, .raised .publishing)
      else
        some ({ disk with
          volume := disk.volume.rename .workspace (.staging (.drawn process)) .bundle },
          .syncingWorkspace)
  | .syncingWorkspace, .step =>
      some ({ disk with volume := disk.volume.fsyncDirectory .workspace }, .hashingInputs)
  -- _initialize: the hashes of the migration, and the commit
  | .hashingInputs, .step =>
      match legacyInputHashes sha256 inputs with
      | some hashes => some (disk, .committing hashes)
      | none => some (disk, .raised .hashingInputs)
  | .committing hashes, .step =>
      if verifyRecoveryBundle sha256 disk.volume then
        some ({ disk with database := disk.database.set (.imported hashes) }, .committed)
      else some (disk, .raised (.committing hashes))
  | .dumping _, .fail | .flushingManifest _, .fail | .replacing _, .fail =>
      some (disk, .discarding)
  | phase, .fail => some (disk, .raised phase)
  | _, _ => none

example (process : ℕ) (inputs : LegacyInputs) (disk : Storage) :
    advance sha256 process inputs disk .committed .step = none := by
  simp only [advance]

structure Shared where
  /-- How often the machine was started again. -/
  boot : ℕ := 0
  locks : LockTable Unit ℕ := free
  inputs : LegacyInputs
  disk : Storage

/-- A process; no process outlives a loss of power. -/
structure Process where
  boot : ℕ := 0
  phase : Phase := .idle
deriving DecidableEq

def Process.runs (here : Process) (boot : ℕ) : Bool := here.boot = boot && !here.phase.over

/-- The lock is given back with the transaction. -/
def settle (s : Shared) (here : Process) (disk : Storage) (after : Phase) : Shared × Process :=
  ({ s with
    disk := disk
    locks := if here.phase.locked && !after.locked then release s.locks (some ()) else s.locks },
    { here with phase := after })

/-- One step of a process that runs. -/
def move (process : ℕ) (s : Shared) (here : Process) : Phase → Action → Option (Shared × Process)
  | .waiting, .step =>
      match tryAcquire s.locks () process with
      | some locks => some ({ s with locks := locks }, { here with phase := .checking })
      | none => some (s, { here with phase := .raised .waiting })
  | phase, .stop => some (settle s here s.disk (.stopped phase))
  | phase, action =>
      (advance sha256 process s.inputs s.disk phase action).map fun (disk, after) =>
        settle s here disk after

def act (process : ℕ) (action : Action) (s : Shared) (here : Process) :
    Option (Shared × Process) :=
  match here.phase, action with
  | .idle, .start => some (s, ⟨s.boot, .waiting⟩)
  | .idle, _ => none
  | phase, action => if here.runs s.boot then move sha256 process s here phase action else none

inductive Drift where
  /-- Another program writes or removes a legacy file. -/
  | edit (artifact : Artifact) (data : Option (List UInt8))
  /-- How far each directory and the database go back, and what is left of the other files. -/
  | losePower (back : Directory → ℕ) (torn : Inode → Content) (databaseBack : ℕ)

def drift : Drift → Shared → Option Shared
  | .edit artifact data, s =>
      some { s with inputs := Function.update s.inputs artifact data }
  | .losePower back torn databaseBack, s =>
      some { s with
        boot := s.boot + 1
        locks := free
        disk :=
          { database := s.disk.database.lose databaseBack
            volume := s.disk.volume.losePower back torn } }

def opening : Program ℕ Shared Process Action Drift := ⟨act sha256, drift⟩

/-- The name of a bundle, or of one that was renamed aside. -/
def Name.isKept : Name → Bool
  | .bundle | .aside _ => true
  | _ => false

/-- The disk as earlier builds left it, before any process. -/
structure Before (volume : Disk) : Prop where
  flushed : (volume.directory .workspace).unflushed = []
  tree : Volume.NamedOnce (volume.directory .workspace).now
  folders : ∀ name folder, volume.look .workspace name = some (.folder folder) →
    ∃ number, folder = .earlier number
  files : ∀ number file, volume.Lists (.earlier number) file → ∃ number, file = .earlier number
  drawn : ∀ process, volume.look .workspace (.staging (.drawn process)) = none ∧
    volume.look .workspace (.aside (.drawn process)) = none
  staged : ∀ process, volume.directory (.staged process) = ⟨∅, []⟩
  kept : ∀ name folder, name.isKept = true → volume.look .workspace name = some (.folder folder) →
    volume.Durable folder

def openingRuns (volume : Disk) :
    TransitionSystem (State ℕ Shared Process) (Label ℕ Action Drift) :=
  runs (opening sha256) fun s =>
    s.locals = (fun _ => {}) ∧ s.shared.boot = 0 ∧ s.shared.locks = free ∧
      s.shared.disk = { volume := volume }

end Program

/-- What is in a staging directory: the copies so far, and one file more. -/
def listing (process : ℕ) (extra : Option (Name × Inode)) (files : FileHashes) (name : Name) :
    Option (Node Directory Inode) :=
  match extra, name with
  | some (added, file), name =>
      if name = added then some (.file file) else copies process files name
  | none, name => copies process files name
where
  copies (process : ℕ) (files : FileHashes) : Name → Option (Node Directory Inode)
    | .artifact artifact => (files.of artifact).map fun _ => .file (.copy process artifact)
    | _ => none

section Bundles

variable (sha256 : Content → String)

/-- The copies are on the disk, with the hashes that were taken of them. -/
structure Staging (process : ℕ) (extra : Option (Name × Inode)) (files : FileHashes)
    (volume : Disk) : Prop where
  entries : ∀ name, volume.look (.staged process) name = listing process extra files name
  flushed : ∀ artifact, (files.of artifact).isSome → volume.flushed (.copy process artifact) = true
  hashes : ∀ artifact hash, files.of artifact = some hash →
    sha256 (volume.contents (.copy process artifact)) = hash
  supported : files.others = []

/-- A staging directory with its manifest, flushed. -/
structure Published (process : ℕ) (files : FileHashes) (volume : Disk) : Prop extends
    Staging sha256 process (some (.manifest, .manifest process)) files volume where
  onDisk : (volume.directory (.staged process)).unflushed = []
  manifest : volume.contents (.manifest process) = .manifest "legacy-v1" files
  manifestFlushed : volume.flushed (.manifest process) = true
  session : files.session.isSome = true

def Whole (process : ℕ) (volume : Disk) : Prop := ∃ files, Published sha256 process files volume

variable {sha256} {process : ℕ} {files : FileHashes} {volume volume' : Disk}

theorem Published.look_manifest (h : Published sha256 process files volume) :
    volume.look (.staged process) .manifest = some (.file (.manifest process)) := by
  simp [h.entries, listing]

theorem Published.look_artifact (h : Published sha256 process files volume)
    (artifact : Artifact) : volume.look (.staged process) (.artifact artifact) =
      (files.of artifact).map fun _ => .file (.copy process artifact) := by
  simp [h.entries, listing, listing.copies]

theorem Published.manifestOf (h : Published sha256 process files volume) :
    manifestOf volume (.folder (.staged process)) = some (.manifest "legacy-v1" files) := by
  simp [RecoveryBundle.manifestOf, h.look_manifest, h.manifest]

theorem Published.copyMatches (h : Published sha256 process files volume) (artifact : Artifact) :
    copyMatches sha256 volume (.staged process) files artifact = true := by
  cases hhash : files.of artifact with
  | none => simp [RecoveryBundle.copyMatches, hhash]
  | some hash =>
      simp [RecoveryBundle.copyMatches, hhash, h.look_artifact, h.hashes artifact hash hhash]

theorem Published.verifies (h : Published sha256 process files volume) :
    bundleVerifies sha256 volume (.folder (.staged process)) = true := by
  simp [bundleVerifies, h.manifestOf, h.supported, h.copyMatches]

/-- The files of a published staging directory are the process's own. -/
theorem Published.owned (h : Published sha256 process files volume) {file : Inode}
    (hfile : volume.Lists (.staged process) file) :
    file = .manifest process ∨
      ∃ artifact, (files.of artifact).isSome ∧ file = .copy process artifact := by
  obtain ⟨name, hlook⟩ := hfile
  rw [h.entries] at hlook
  by_cases hname : name = .manifest
  · subst hname
    left
    simpa [listing, eq_comm] using hlook
  · right
    cases name with
    | artifact artifact =>
        simp only [listing, hname, if_false, listing.copies, Option.map_eq_some_iff] at hlook
        obtain ⟨hash, hhash, hcopy⟩ := hlook
        cases hcopy
        exact ⟨artifact, by simp [hhash], rfl⟩
    | manifest => exact absurd rfl hname
    | _ => simp [listing, listing.copies, hname] at hlook

theorem Published.durable (h : Published sha256 process files volume) :
    volume.Durable (.staged process) where
  directory := h.onDisk
  files := fun file hfile => by
    rcases h.owned hfile with rfl | ⟨artifact, hcopy, rfl⟩
    · exact h.manifestFlushed
    · exact h.flushed artifact hcopy

theorem Published.of_same (h : Published sha256 process files volume)
    (hsame : Volume.SameFolder (.staged process) volume volume') :
    Published sha256 process files volume' := by
  have hmanifest : volume.Lists (.staged process) (.manifest process) :=
    ⟨.manifest, h.look_manifest⟩
  have hcopy : ∀ artifact, (files.of artifact).isSome →
      volume.Lists (.staged process) (.copy process artifact) := by
    intro artifact hhash
    obtain ⟨hash, hhash⟩ := Option.isSome_iff_exists.mp hhash
    exact ⟨.artifact artifact, by simp [h.look_artifact, hhash]⟩
  exact {
    entries := fun name => by rw [hsame.look, h.entries]
    flushed := fun artifact hhash => by
      rw [hsame.flushed _ (hcopy artifact hhash)]
      exact h.flushed artifact hhash
    hashes := fun artifact hash hhash => by
      rw [hsame.contents _ (hcopy artifact (by simp [hhash]))]
      exact h.hashes artifact hash hhash
    supported := h.supported
    onDisk := by rw [hsame.directory]; exact h.onDisk
    manifest := by rw [hsame.contents _ hmanifest]; exact h.manifest
    manifestFlushed := by rw [hsame.flushed _ hmanifest]; exact h.manifestFlushed
    session := h.session }

/-- What a bundle verifies against is in its folder. -/
theorem manifestOf_same {folder : Directory} (hsame : Volume.SameFolder folder volume volume') :
    manifestOf volume' (.folder folder) = manifestOf volume (.folder folder) := by
  unfold manifestOf
  simp only [hsame.look]
  split
  · next file hlook => rw [hsame.contents file ⟨_, hlook⟩]
  · rfl

theorem bundleVerifies_same {folder : Directory}
    (hsame : Volume.SameFolder folder volume volume') :
    bundleVerifies sha256 volume' (.folder folder) =
      bundleVerifies sha256 volume (.folder folder) := by
  have hcopy : ∀ files artifact, copyMatches sha256 volume' folder files artifact =
      copyMatches sha256 volume folder files artifact := by
    intro files artifact
    unfold copyMatches
    simp only [hsame.look]
    split
    · split
      · next file hlook => rw [hsame.contents file ⟨_, hlook⟩]
      · rfl
    · rfl
  simp only [bundleVerifies, manifestOf_same hsame, hcopy]

end Bundles

end GhAddressCr.RecoveryBundle
