import Mathlib.Data.Finmap
import Mathlib.Logic.Function.Basic

/-!
# Files that a loss of power can tear

A volume of directories and files. A change of a directory is one change of all its entries, and a
loss of power takes the directory back to what it was at some time since it was last flushed. A
file that was not flushed since it was written can be left with anything. What a folder holds
survives once it and its files are flushed.
-/
namespace GhAddressCr.CrashingFiles

structure Slot (V : Type) where
  now : V
  /-- What it was before, back to the last flush. -/
  unflushed : List V := []

namespace Slot

variable {V : Type}

def set (slot : Slot V) (value : V) : Slot V := ⟨value, slot.now :: slot.unflushed⟩

def flush (slot : Slot V) : Slot V := ⟨slot.now, []⟩

/-- What a loss of power can leave. -/
def candidates (slot : Slot V) : List V := slot.now :: slot.unflushed

/-- A loss of power, that many changes back. -/
def lose (slot : Slot V) (back : ℕ) : Slot V := ⟨slot.candidates.getD back slot.now, []⟩

variable {slot : Slot V} {value other : V}

theorem now_mem : slot.now ∈ slot.candidates := List.mem_cons_self

@[simp] theorem now_set : (slot.set value).now = value := rfl

@[simp] theorem now_flush : slot.flush.now = slot.now := rfl

@[simp] theorem mem_candidates_set :
    other ∈ (slot.set value).candidates ↔ other = value ∨ other ∈ slot.candidates := by
  simp [set, candidates]

@[simp] theorem mem_candidates_flush : other ∈ slot.flush.candidates ↔ other = slot.now := by
  simp [flush, candidates]

theorem eq_now_of_flushed (h : slot.unflushed = []) (hmem : other ∈ slot.candidates) :
    other = slot.now := by
  simpa [candidates, h] using hmem

@[simp] theorem mem_candidates_lose {back : ℕ} :
    other ∈ (slot.lose back).candidates ↔ other = (slot.lose back).now := by
  simp [lose, candidates]

theorem now_lose_mem (slot : Slot V) (back : ℕ) : (slot.lose back).now ∈ slot.candidates := by
  show slot.candidates.getD back slot.now ∈ slot.candidates
  rw [List.getD_eq_getElem?_getD]
  cases hvalue : slot.candidates[back]? with
  | none => exact now_mem
  | some value => exact List.mem_of_getElem? hvalue

theorem lose_of_flushed (h : slot.unflushed = []) (back : ℕ) : slot.lose back = slot := by
  have hnow : (slot.lose back).now = slot.now := eq_now_of_flushed h (now_lose_mem slot back)
  cases slot with
  | mk now unflushed =>
      subst h
      simpa [lose] using hnow

end Slot

/-- What an entry of a directory names. -/
inductive Node (δ ι : Type) where
  | file (file : ι)
  | folder (folder : δ)
deriving DecidableEq

variable {δ ν ι κ : Type}

abbrev Entries (ν δ ι : Type) := Finmap fun _ : ν => Node δ ι

structure Volume (δ ν ι κ : Type) where
  directory : δ → Slot (Entries ν δ ι)
  contents : ι → κ
  flushed : ι → Bool

namespace Volume

section Operations

variable (volume : Volume δ ν ι κ)

def look [DecidableEq ν] (directory : δ) (name : ν) : Option (Node δ ι) :=
  (volume.directory directory).now.lookup name

def setEntries [DecidableEq δ] (directory : δ) (entries : Entries ν δ ι) : Volume δ ν ι κ :=
  { volume with
    directory := Function.update volume.directory directory
      ((volume.directory directory).set entries) }

def link [DecidableEq δ] [DecidableEq ν] (directory : δ) (name : ν) (node : Node δ ι) :
    Volume δ ν ι κ :=
  volume.setEntries directory ((volume.directory directory).now.insert name node)

def unlink [DecidableEq δ] [DecidableEq ν] (directory : δ) (name : ν) : Volume δ ν ι κ :=
  volume.setEntries directory ((volume.directory directory).now.erase name)

/-- What one name names is under another, in one change of the directory. -/
def rename [DecidableEq δ] [DecidableEq ν] (directory : δ) (source target : ν) :
    Volume δ ν ι κ :=
  match volume.look directory source with
  | some node => volume.setEntries directory
      (((volume.directory directory).now.erase source).insert target node)
  | none => volume

def write [DecidableEq ι] (file : ι) (content : κ) : Volume δ ν ι κ :=
  { volume with
    contents := Function.update volume.contents file content
    flushed := Function.update volume.flushed file false }

def fsync [DecidableEq ι] (file : ι) : Volume δ ν ι κ :=
  { volume with flushed := Function.update volume.flushed file true }

def fsyncDirectory [DecidableEq δ] (directory : δ) : Volume δ ν ι κ :=
  { volume with
    directory := Function.update volume.directory directory (volume.directory directory).flush }

/-- A loss of power: how far each directory goes back, and what is in the files. -/
def losePower (back : δ → ℕ) (torn : ι → κ) : Volume δ ν ι κ where
  directory := fun directory => (volume.directory directory).lose (back directory)
  contents := fun file => if volume.flushed file then volume.contents file else torn file
  flushed := fun _ => true

end Operations

section Directories

variable [DecidableEq δ] {volume : Volume δ ν ι κ} {directory other : δ} {entries : Entries ν δ ι}

@[simp] theorem directory_setEntries : (volume.setEntries directory entries).directory directory =
    (volume.directory directory).set entries := by
  simp [setEntries]

theorem directory_setEntries_of_ne (h : other ≠ directory) :
    (volume.setEntries directory entries).directory other = volume.directory other := by
  simp [setEntries, h]

@[simp] theorem directory_fsyncDirectory : (volume.fsyncDirectory directory).directory directory =
    (volume.directory directory).flush := by
  simp [fsyncDirectory]

theorem directory_fsyncDirectory_of_ne (h : other ≠ directory) :
    (volume.fsyncDirectory directory).directory other = volume.directory other := by
  simp [fsyncDirectory, h]

@[simp] theorem contents_setEntries :
    (volume.setEntries directory entries).contents = volume.contents := rfl

@[simp] theorem flushed_setEntries :
    (volume.setEntries directory entries).flushed = volume.flushed := rfl

@[simp] theorem contents_fsyncDirectory :
    (volume.fsyncDirectory directory).contents = volume.contents := rfl

@[simp] theorem flushed_fsyncDirectory :
    (volume.fsyncDirectory directory).flushed = volume.flushed := rfl

variable [DecidableEq ν] {name : ν} {node : Node δ ι}

@[simp] theorem look_setEntries :
    (volume.setEntries directory entries).look directory name = entries.lookup name := by
  simp [look]

theorem look_setEntries_of_ne (h : other ≠ directory) :
    (volume.setEntries directory entries).look other name = volume.look other name := by
  simp [look, directory_setEntries_of_ne h]

@[simp] theorem look_fsyncDirectory :
    (volume.fsyncDirectory directory).look other name = volume.look other name := by
  by_cases h : other = directory
  · simp [look, h]
  · simp [look, directory_fsyncDirectory_of_ne h]

theorem rename_eq {source target : ν} (h : volume.look directory source = some node) :
    volume.rename directory source target = volume.setEntries directory
      (((volume.directory directory).now.erase source).insert target node) := by
  simp [rename, h]

end Directories

section Files

variable [DecidableEq ι] {volume : Volume δ ν ι κ} {file written : ι} {content : κ}

@[simp] theorem directory_write : (volume.write file content).directory = volume.directory := rfl

@[simp] theorem directory_fsync : (volume.fsync file).directory = volume.directory := rfl

@[simp] theorem contents_fsync : (volume.fsync file).contents = volume.contents := rfl

@[simp] theorem contents_write : (volume.write file content).contents file = content := by
  simp [write]

@[simp] theorem flushed_fsync : (volume.fsync file).flushed file = true := by
  simp [fsync]

theorem contents_write_of_ne (h : file ≠ written) :
    (volume.write written content).contents file = volume.contents file := by
  simp [write, h]

theorem flushed_write_of_ne (h : file ≠ written) :
    (volume.write written content).flushed file = volume.flushed file := by
  simp [write, h]

theorem flushed_fsync_of_ne (h : file ≠ written) :
    (volume.fsync written).flushed file = volume.flushed file := by
  simp [fsync, h]

variable [DecidableEq ν] {directory : δ} {name : ν}

@[simp] theorem look_write : (volume.write file content).look directory name =
    volume.look directory name := rfl

@[simp] theorem look_fsync : (volume.fsync file).look directory name =
    volume.look directory name := rfl

end Files

/-- The entries of a directory after a rename. -/
theorem lookup_rename [DecidableEq ν] {entries : Entries ν δ ι} {node : Node δ ι}
    {source target name : ν} :
    ((entries.erase source).insert target node).lookup name =
      if name = target then some node
      else if name = source then none
      else entries.lookup name := by
  by_cases htarget : name = target
  · subst htarget
    simp
  · by_cases hsource : name = source
    · subst hsource
      simp [htarget, Finmap.lookup_insert_of_ne]
    · simp [htarget, hsource, Finmap.lookup_insert_of_ne, Finmap.lookup_erase_ne]

theorem lookup_insert [DecidableEq ν] {entries : Entries ν δ ι} {node : Node δ ι}
    {target name : ν} :
    (entries.insert target node).lookup name =
      if name = target then some node else entries.lookup name := by
  by_cases htarget : name = target
  · subst htarget
    simp
  · simp [htarget, Finmap.lookup_insert_of_ne]

theorem lookup_erase [DecidableEq ν] {entries : Entries ν δ ι} {target name : ν} :
    (entries.erase target).lookup name = if name = target then none else entries.lookup name := by
  by_cases htarget : name = target
  · subst htarget
    simp
  · simp [htarget, Finmap.lookup_erase_ne]

/-- No folder has two names in a directory. -/
def NamedOnce [DecidableEq ν] (entries : Entries ν δ ι) : Prop :=
  ∀ name name' folder, entries.lookup name = some (.folder folder) →
    entries.lookup name' = some (.folder folder) → name = name'

section NamedOnce

variable [DecidableEq ν] {entries : Entries ν δ ι}

theorem NamedOnce.erase (h : NamedOnce entries) (target : ν) :
    NamedOnce (entries.erase target) := by
  intro name name' folder hname hname'
  rw [lookup_erase] at hname hname'
  split_ifs at hname hname'
  exact h name name' folder hname hname'

theorem NamedOnce.insert (h : NamedOnce entries) {node : Node δ ι}
    (hnode : ∀ name, entries.lookup name ≠ some node) (target : ν) :
    NamedOnce (entries.insert target node) := by
  intro name name' folder hname hname'
  rw [lookup_insert] at hname hname'
  split_ifs at hname hname' with htarget htarget' htarget'
  · rw [htarget, htarget']
  · exact absurd (hname'.trans hname.symm) (hnode name')
  · exact absurd (hname.trans hname'.symm) (hnode name)
  · exact h name name' folder hname hname'

theorem NamedOnce.rename (h : NamedOnce entries) {node : Node δ ι} {source : ν}
    (hsource : entries.lookup source = some node) (target : ν) :
    NamedOnce ((entries.erase source).insert target node) := by
  intro name name' folder hname hname'
  rw [lookup_rename] at hname hname'
  have honly : ∀ other, node = .folder folder → other ≠ source →
      entries.lookup other ≠ some (.folder folder) := by
    intro other hnode hother hlookup
    exact hother (h other source folder hlookup (hnode ▸ hsource))
  split_ifs at hname hname' with htarget htarget' hsource' hsource'' htarget'
  · rw [htarget, htarget']
  · exact absurd hname' (honly name' (Option.some.inj hname) hsource')
  · exact absurd hname (honly name (Option.some.inj hname') hsource'')
  · exact h name name' folder hname hname'

end NamedOnce

section Folders

variable [DecidableEq ν] {volume volume' volume'' : Volume δ ν ι κ} {folder : δ}

/-- A file of a folder. -/
def Lists (volume : Volume δ ν ι κ) (folder : δ) (file : ι) : Prop :=
  ∃ name, volume.look folder name = some (.file file)

/-- A folder and its files are as they were. -/
structure SameFolder (folder : δ) (volume volume' : Volume δ ν ι κ) : Prop where
  directory : volume'.directory folder = volume.directory folder
  contents : ∀ file, volume.Lists folder file → volume'.contents file = volume.contents file
  flushed : ∀ file, volume.Lists folder file → volume'.flushed file = volume.flushed file

/-- A folder that is on the disk with its files. -/
structure Durable (volume : Volume δ ν ι κ) (folder : δ) : Prop where
  directory : (volume.directory folder).unflushed = []
  files : ∀ file, volume.Lists folder file → volume.flushed file = true

theorem SameFolder.refl (folder : δ) (volume : Volume δ ν ι κ) : SameFolder folder volume volume :=
  ⟨rfl, fun _ _ => rfl, fun _ _ => rfl⟩

theorem SameFolder.look (h : SameFolder folder volume volume') (name : ν) :
    volume'.look folder name = volume.look folder name := by
  simp [Volume.look, h.directory]

theorem SameFolder.lists (h : SameFolder folder volume volume') {file : ι} :
    volume'.Lists folder file ↔ volume.Lists folder file := by
  simp [Lists, h.look]

theorem SameFolder.trans (h : SameFolder folder volume volume')
    (h' : SameFolder folder volume' volume'') : SameFolder folder volume volume'' where
  directory := h'.directory.trans h.directory
  contents := fun file hfile => (h'.contents file (h.lists.mpr hfile)).trans (h.contents file hfile)
  flushed := fun file hfile => (h'.flushed file (h.lists.mpr hfile)).trans (h.flushed file hfile)

theorem Durable.of_same (h : volume.Durable folder) (hsame : SameFolder folder volume volume') :
    volume'.Durable folder where
  directory := by rw [hsame.directory]; exact h.directory
  files := fun file hfile => by
    have hlisted := hsame.lists.mp hfile
    rw [hsame.flushed file hlisted]
    exact h.files file hlisted

/-- A loss of power leaves a folder that is on the disk. -/
theorem Durable.losePower (h : volume.Durable folder) (back : δ → ℕ) (torn : ι → κ) :
    SameFolder folder volume (volume.losePower back torn) where
  directory := Slot.lose_of_flushed h.directory (back folder)
  contents := fun file hfile => by simp [Volume.losePower, h.files file hfile]
  flushed := fun file hfile => by simp [Volume.losePower, h.files file hfile]

variable {file : ι} {content : κ}

variable [DecidableEq δ] {directory : δ}

theorem sameFolder_setEntries (h : folder ≠ directory) (entries : Entries ν δ ι) :
    SameFolder folder volume (volume.setEntries directory entries) :=
  ⟨directory_setEntries_of_ne h, fun _ _ => rfl, fun _ _ => rfl⟩

theorem sameFolder_fsyncDirectory (h : folder ≠ directory) :
    SameFolder folder volume (volume.fsyncDirectory directory) :=
  ⟨directory_fsyncDirectory_of_ne h, fun _ _ => rfl, fun _ _ => rfl⟩

theorem sameFolder_rename (h : folder ≠ directory) (source target : ν) :
    SameFolder folder volume (volume.rename directory source target) := by
  unfold rename
  cases volume.look directory source with
  | none => exact .refl folder volume
  | some node => exact sameFolder_setEntries h _

end Folders

end Volume

end GhAddressCr.CrashingFiles
