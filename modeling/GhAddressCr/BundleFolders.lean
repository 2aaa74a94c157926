import GhAddressCr.RecoveryBundle

/-!
# Bundles that no step and no loss of power changes

What holds of the disk whichever process runs: the entries of the workspace directory, as they are
and as a loss of power can leave them, name each directory once; a bundle they name is whole and
flushed, or the one from before, as it was; and what is swept away is no bundle. Each change that a
process makes keeps that.
-/
namespace GhAddressCr.RecoveryBundle

open SharedPrograms AdvisoryLocks CrashingFiles

section Soundness

variable (sha256 : Content → String) (before : Disk)

/-- What a loss of power can leave of the workspace directory. -/
def workspaceCandidates (volume : Disk) : List (Entries Name Directory Inode) :=
  (volume.directory .workspace).candidates

/-- A folder of before is as it was; a staging directory is whole. -/
def Genuine (volume : Disk) : Directory → Prop
  | .workspace => False
  | .earlier number => Volume.SameFolder (.earlier number) before volume
  | .staged process => Whole sha256 process volume

structure Sound (volume : Disk) : Prop where
  rooted : ∀ entries ∈ workspaceCandidates volume, ∀ name,
    entries.lookup name ≠ some (.folder .workspace)
  tree : ∀ entries ∈ workspaceCandidates volume, Volume.NamedOnce entries
  /-- What is swept away is no bundle, however far the workspace goes back. -/
  apart : ∀ tag folder, volume.look .workspace (.staging tag) = some (.folder folder) →
    ∀ entries ∈ workspaceCandidates volume, ∀ name, name.isKept = true →
    entries.lookup name ≠ some (.folder folder)
  kept : ∀ entries ∈ workspaceCandidates volume, ∀ name, name.isKept = true → ∀ folder,
    entries.lookup name = some (.folder folder) →
    volume.Durable folder ∧ Genuine sha256 before volume folder
  origin : ∀ entries ∈ workspaceCandidates volume, ∀ node, entries.lookup .bundle = some node →
    (∃ process, node = .folder (.staged process)) ∨ before.look .workspace .bundle = some node

/-- A bundle that no loss of power takes away. -/
def Kept (volume : Disk) (folder : Directory) : Prop :=
  ∀ entries ∈ workspaceCandidates volume, ∃ name, name.isKept = true ∧
    entries.lookup name = some (.folder folder)

/-- Nothing was staged under the name that a process draws. -/
structure Unstaged (process : ℕ) (volume : Disk) : Prop where
  folder : ∀ entries ∈ workspaceCandidates volume, ∀ name,
    entries.lookup name ≠ some (.folder (.staged process))
  name : ∀ entries ∈ workspaceCandidates volume,
    entries.lookup (.staging (.drawn process)) = none
  empty : volume.directory (.staged process) = ⟨∅, []⟩

/-- Neither was anything renamed aside. -/
structure Unused (process : ℕ) (volume : Disk) : Prop extends Unstaged process volume where
  aside : ∀ entries ∈ workspaceCandidates volume, entries.lookup (.aside (.drawn process)) = none

/-- What a step of a process keeps of the disk. -/
structure Carries (process : ℕ) (volume volume' : Disk) : Prop where
  sound : Sound sha256 before volume'
  unused : ∀ other, other ≠ process → Unused other volume → Unused other volume'
  kept : ∀ folder, Kept volume folder →
    Kept volume' folder ∧ Volume.SameFolder folder volume volume'

/-- New entries of the workspace directory: they name what was named before or what the process
staged, nothing twice, and every bundle stays. -/
structure Replaces (process : ℕ) (volume : Disk) (entries : Entries Name Directory Inode) :
    Prop where
  folders : ∀ name folder, entries.lookup name = some (.folder folder) →
    (∃ name', volume.look .workspace name' = some (.folder folder)) ∨ folder = .staged process
  tree : Volume.NamedOnce entries
  apart : ∀ tag folder, entries.lookup (.staging tag) = some (.folder folder) →
    ∀ candidate ∈ workspaceCandidates volume, ∀ name, name.isKept = true →
    candidate.lookup name ≠ some (.folder folder)
  kept : ∀ name, name.isKept = true → ∀ folder, entries.lookup name = some (.folder folder) →
    (∃ name', name'.isKept = true ∧ volume.look .workspace name' = some (.folder folder)) ∨
      Whole sha256 process volume ∧ folder = .staged process
  stays : ∀ name, name.isKept = true → ∀ folder,
    volume.look .workspace name = some (.folder folder) →
    ∃ name', name'.isKept = true ∧ entries.lookup name' = some (.folder folder)
  /-- No name is taken that another process may draw. -/
  others : ∀ other, other ≠ process → ∀ name,
    name = .staging (.drawn other) ∨ name = .aside (.drawn other) →
    volume.look .workspace name = none → entries.lookup name = none
  origin : ∀ node, entries.lookup .bundle = some node →
    (∃ process, node = .folder (.staged process)) ∨ volume.look .workspace .bundle = some node

variable {sha256 before} {process : ℕ} {volume volume' : Disk}

theorem now_mem_candidates (volume : Disk) :
    (volume.directory .workspace).now ∈ workspaceCandidates volume := Slot.now_mem

theorem Genuine.of_same {folder : Directory} (h : Genuine sha256 before volume folder)
    (hsame : Volume.SameFolder folder volume volume') : Genuine sha256 before volume' folder := by
  cases folder with
  | workspace => exact h
  | earlier number => exact Volume.SameFolder.trans h hsame
  | staged owner =>
      obtain ⟨files, hfiles⟩ := h
      exact ⟨files, hfiles.of_same hsame⟩

/-- Nothing changes in the workspace, and the bundles are as they were. -/
theorem Sound.frame (h : Sound sha256 before volume)
    (hworkspace : volume'.directory .workspace = volume.directory .workspace)
    (hsame : ∀ entries ∈ workspaceCandidates volume, ∀ name, name.isKept = true → ∀ folder,
      entries.lookup name = some (.folder folder) → Volume.SameFolder folder volume volume') :
    Sound sha256 before volume' := by
  have hcandidates : workspaceCandidates volume' = workspaceCandidates volume := by
    simp [workspaceCandidates, hworkspace]
  exact {
    rooted := by rw [hcandidates]; exact h.rooted
    tree := by rw [hcandidates]; exact h.tree
    apart := fun tag folder hlook => by
      rw [hcandidates]
      rw [Volume.look, hworkspace] at hlook
      exact h.apart tag folder hlook
    kept := by
      rw [hcandidates]
      intro entries hentries name hname folder hlookup
      have hbefore := h.kept entries hentries name hname folder hlookup
      have hfolder := hsame entries hentries name hname folder hlookup
      exact ⟨hbefore.1.of_same hfolder, hbefore.2.of_same hfolder⟩
    origin := by rw [hcandidates]; exact h.origin }

theorem Carries.refl (h : Sound sha256 before volume) (process : ℕ) :
    Carries sha256 before process volume volume :=
  ⟨h, fun _ _ hunused => hunused, fun folder hkept => ⟨hkept, .refl folder volume⟩⟩

/-- The same for a step whose changes are elsewhere. -/
theorem Carries.frame (h : Sound sha256 before volume)
    (hworkspace : volume'.directory .workspace = volume.directory .workspace)
    (hsame : ∀ entries ∈ workspaceCandidates volume, ∀ name, name.isKept = true → ∀ folder,
      entries.lookup name = some (.folder folder) → Volume.SameFolder folder volume volume')
    (hstaged : ∀ other, other ≠ process → Unused other volume →
      volume'.directory (.staged other) = volume.directory (.staged other)) :
    Carries sha256 before process volume volume' := by
  have hcandidates : workspaceCandidates volume' = workspaceCandidates volume := by
    simp [workspaceCandidates, hworkspace]
  refine ⟨h.frame hworkspace hsame, fun other hother hunused => ?_, fun folder hkept => ?_⟩
  · exact {
      folder := by rw [hcandidates]; exact hunused.folder
      name := by rw [hcandidates]; exact hunused.name
      empty := by rw [hstaged other hother hunused]; exact hunused.empty
      aside := by rw [hcandidates]; exact hunused.aside }
  · obtain ⟨name, hname, hlookup⟩ := hkept _ (now_mem_candidates volume)
    refine ⟨?_, hsame _ (now_mem_candidates volume) name hname folder hlookup⟩
    unfold Kept
    rw [hcandidates]
    exact hkept

theorem mem_candidates_setEntries {entries candidate : Entries Name Directory Inode} :
    candidate ∈ workspaceCandidates (volume.setEntries .workspace entries) ↔
      candidate = entries ∨ candidate ∈ workspaceCandidates volume := by
  simp [workspaceCandidates]

theorem Replaces.not_workspace {entries : Entries Name Directory Inode}
    (h : Replaces sha256 process volume entries) (hsound : Sound sha256 before volume)
    {name : Name} : entries.lookup name ≠ some (.folder .workspace) := by
  intro hlookup
  rcases h.folders name .workspace hlookup with ⟨name', hlook⟩ | hstaged
  · exact hsound.rooted _ (now_mem_candidates volume) name' hlook
  · cases hstaged

theorem Sound.same_setEntries (h : Sound sha256 before volume)
    (entries : Entries Name Directory Inode) {candidate : Entries Name Directory Inode}
    {name : Name} {folder : Directory} (hcandidate : candidate ∈ workspaceCandidates volume)
    (hlookup : candidate.lookup name = some (.folder folder)) :
    Volume.SameFolder folder volume (volume.setEntries .workspace entries) := by
  refine Volume.sameFolder_setEntries (fun hroot => ?_) entries
  exact h.rooted candidate hcandidate name (hroot ▸ hlookup)

theorem Replaces.sound {entries : Entries Name Directory Inode}
    (h : Replaces sha256 process volume entries) (hsound : Sound sha256 before volume) :
    Sound sha256 before (volume.setEntries .workspace entries) where
  rooted := fun candidate hcandidate name => by
    rcases mem_candidates_setEntries.mp hcandidate with rfl | hold
    · exact h.not_workspace hsound
    · exact hsound.rooted candidate hold name
  tree := fun candidate hcandidate => by
    rcases mem_candidates_setEntries.mp hcandidate with rfl | hold
    · exact h.tree
    · exact hsound.tree candidate hold
  apart := fun tag folder hlook candidate hcandidate name hname => by
    rw [Volume.look_setEntries] at hlook
    rcases mem_candidates_setEntries.mp hcandidate with rfl | hold
    · intro hlookup
      rw [h.tree _ _ _ hlookup hlook] at hname
      cases hname
    · exact h.apart tag folder hlook candidate hold name hname
  kept := fun candidate hcandidate name hname folder hlookup => by
    rcases mem_candidates_setEntries.mp hcandidate with rfl | hold
    · rcases h.kept name hname folder hlookup with ⟨name', hname', hlook⟩ | ⟨hwhole, rfl⟩
      · have hbefore := hsound.kept _ (now_mem_candidates volume) name' hname' folder hlook
        have hsame := hsound.same_setEntries candidate (now_mem_candidates volume) hlook
        exact ⟨hbefore.1.of_same hsame, hbefore.2.of_same hsame⟩
      · obtain ⟨files, hfiles⟩ := hwhole
        have hsame : Volume.SameFolder (.staged process) volume
            (volume.setEntries .workspace candidate) :=
          Volume.sameFolder_setEntries (by simp) candidate
        exact ⟨hfiles.durable.of_same hsame, ⟨files, hfiles.of_same hsame⟩⟩
    · have hbefore := hsound.kept candidate hold name hname folder hlookup
      have hsame := hsound.same_setEntries entries hold hlookup
      exact ⟨hbefore.1.of_same hsame, hbefore.2.of_same hsame⟩
  origin := fun candidate hcandidate node hlookup => by
    rcases mem_candidates_setEntries.mp hcandidate with rfl | hold
    · rcases h.origin node hlookup with hstaged | hlook
      · exact Or.inl hstaged
      · exact hsound.origin _ (now_mem_candidates volume) node hlook
    · exact hsound.origin candidate hold node hlookup

theorem Unstaged.setWorkspace {entries : Entries Name Directory Inode}
    (h : Unstaged process volume)
    (hfolder : ∀ name, entries.lookup name ≠ some (.folder (.staged process)))
    (hname : entries.lookup (.staging (.drawn process)) = none) :
    Unstaged process (volume.setEntries .workspace entries) where
  folder := fun candidate hcandidate name => by
    rcases mem_candidates_setEntries.mp hcandidate with rfl | hold
    · exact hfolder name
    · exact h.folder candidate hold name
  name := fun candidate hcandidate => by
    rcases mem_candidates_setEntries.mp hcandidate with rfl | hold
    · exact hname
    · exact h.name candidate hold
  empty := by
    rw [Volume.directory_setEntries_of_ne (by simp)]
    exact h.empty

theorem Unused.setWorkspace {entries : Entries Name Directory Inode} (h : Unused process volume)
    (hfolder : ∀ name, entries.lookup name ≠ some (.folder (.staged process)))
    (hname : entries.lookup (.staging (.drawn process)) = none)
    (haside : entries.lookup (.aside (.drawn process)) = none) :
    Unused process (volume.setEntries .workspace entries) where
  toUnstaged := h.toUnstaged.setWorkspace hfolder hname
  aside := fun candidate hcandidate => by
    rcases mem_candidates_setEntries.mp hcandidate with rfl | hold
    · exact haside
    · exact h.aside candidate hold

theorem Replaces.unused {entries : Entries Name Directory Inode}
    (h : Replaces sha256 process volume entries) {other : ℕ} (hother : other ≠ process)
    (hunused : Unused other volume) : Unused other (volume.setEntries .workspace entries) := by
  refine hunused.setWorkspace (fun name hlookup => ?_) ?_ ?_
  · rcases h.folders name _ hlookup with ⟨name', hlook⟩ | hstaged
    · exact hunused.folder _ (now_mem_candidates volume) name' hlook
    · cases hstaged
      exact hother rfl
  · exact h.others other hother _ (Or.inl rfl) (hunused.name _ (now_mem_candidates volume))
  · exact h.others other hother _ (Or.inr rfl) (hunused.aside _ (now_mem_candidates volume))

theorem Replaces.carries {entries : Entries Name Directory Inode}
    (h : Replaces sha256 process volume entries) (hsound : Sound sha256 before volume) :
    Carries sha256 before process volume (volume.setEntries .workspace entries) where
  sound := h.sound hsound
  unused := fun _ hother hunused => h.unused hother hunused
  kept := fun folder hkept => by
    obtain ⟨name, hname, hlook⟩ := hkept _ (now_mem_candidates volume)
    refine ⟨fun candidate hcandidate => ?_,
      hsound.same_setEntries entries (now_mem_candidates volume) hlook⟩
    rcases mem_candidates_setEntries.mp hcandidate with rfl | hold
    · exact h.stays name hname folder hlook
    · exact hkept candidate hold

theorem carries_removeLeftover (h : Sound sha256 before volume) (tag : Tag) :
    Carries sha256 before process volume (volume.unlink .workspace (.staging tag)) := by
  refine Replaces.carries ?_ h
  have hsub : ∀ name node,
      ((volume.directory .workspace).now.erase (.staging tag)).lookup name = some node →
      volume.look .workspace name = some node := by
    intro name node hlookup
    rw [Volume.lookup_erase] at hlookup
    split at hlookup
    · cases hlookup
    · exact hlookup
  exact {
    folders := fun name folder hlookup => Or.inl ⟨name, hsub name _ hlookup⟩
    tree := (h.tree _ (now_mem_candidates volume)).erase _
    apart := fun tag' folder hlookup => h.apart tag' folder (hsub _ _ hlookup)
    kept := fun name hname folder hlookup => Or.inl ⟨name, hname, hsub _ _ hlookup⟩
    stays := fun name hname folder hlook => by
      refine ⟨name, hname, ?_⟩
      have hne : name ≠ .staging tag := fun heq => by simp [heq, Name.isKept] at hname
      rw [Volume.lookup_erase, if_neg hne]
      exact hlook
    others := fun other _ name _ hlook => by
      rw [Volume.lookup_erase]
      split
      · rfl
      · exact hlook
    origin := fun node hlookup => Or.inr (hsub _ _ hlookup) }

/-- Under its new name a bundle is what it was. -/
theorem carries_setAside (h : Sound sha256 before volume)
    (haside : volume.look .workspace (.aside (.drawn process)) = none) :
    Carries sha256 before process volume
      (volume.rename .workspace .bundle (.aside (.drawn process))) := by
  cases hbundle : volume.look .workspace .bundle with
  | none =>
      have hrename : volume.rename .workspace .bundle (.aside (.drawn process)) = volume := by
        simp [Volume.rename, hbundle]
      rw [hrename]
      exact .refl h process
  | some bundle =>
      rw [Volume.rename_eq hbundle]
      refine Replaces.carries ?_ h
      have hlookup : ∀ name,
          (((volume.directory .workspace).now.erase .bundle).insert (.aside (.drawn process))
            bundle).lookup name =
          if name = .aside (.drawn process) then some bundle
          else if name = .bundle then none else volume.look .workspace name :=
        fun name => Volume.lookup_rename
      have hkeptname : (Name.aside (.drawn process)).isKept = true := rfl
      exact {
        folders := fun name folder hname => by
          rw [hlookup] at hname
          left
          split_ifs at hname
          · exact ⟨.bundle, hname ▸ hbundle⟩
          · exact ⟨name, hname⟩
        tree := (h.tree _ (now_mem_candidates volume)).rename hbundle _
        apart := fun tag folder hname => by
          rw [hlookup] at hname
          simp only [reduceCtorEq, if_false] at hname
          exact h.apart tag folder hname
        kept := fun name hkept folder hname => by
          rw [hlookup] at hname
          left
          split_ifs at hname
          · exact ⟨.bundle, rfl, hname ▸ hbundle⟩
          · exact ⟨name, hkept, hname⟩
        stays := fun name hkept folder hlook => by
          by_cases hname : name = .bundle
          · subst hname
            refine ⟨.aside (.drawn process), rfl, ?_⟩
            rw [hlookup, if_pos rfl, ← hbundle, hlook]
          · refine ⟨name, hkept, ?_⟩
            have hne : name ≠ .aside (.drawn process) := by
              rintro rfl
              simp [haside] at hlook
            rw [hlookup, if_neg hne, if_neg hname, hlook]
        others := fun other hother name hname hlook => by
          rw [hlookup]
          rcases hname with rfl | rfl
          · simpa using hlook
          · simpa [hother] using hlook
        origin := fun node hname => by
          rw [hlookup] at hname
          simp at hname }

theorem carries_make (h : Sound sha256 before volume) (hunstaged : Unstaged process volume) :
    Carries sha256 before process volume
      (volume.link .workspace (.staging (.drawn process)) (.folder (.staged process))) := by
  refine Replaces.carries ?_ h
  have hlookup : ∀ name, ((volume.directory .workspace).now.insert (.staging (.drawn process))
      (.folder (.staged process))).lookup name =
      if name = .staging (.drawn process) then some (.folder (.staged process))
      else volume.look .workspace name :=
    fun name => Volume.lookup_insert
  have hfolder := hunstaged.folder _ (now_mem_candidates volume)
  exact {
    folders := fun name folder hname => by
      rw [hlookup] at hname
      split_ifs at hname
      · right
        simpa [eq_comm] using hname
      · exact Or.inl ⟨name, hname⟩
    tree := (h.tree _ (now_mem_candidates volume)).insert hfolder _
    apart := fun tag folder hname candidate hcandidate name hkept => by
      rw [hlookup] at hname
      split_ifs at hname
      · rw [← hname]
        exact hunstaged.folder candidate hcandidate name
      · exact h.apart tag folder hname candidate hcandidate name hkept
    kept := fun name hkept folder hname => by
      have hne : name ≠ .staging (.drawn process) := fun heq => by simp [heq, Name.isKept] at hkept
      rw [hlookup, if_neg hne] at hname
      exact Or.inl ⟨name, hkept, hname⟩
    stays := fun name hkept folder hlook => by
      have hne : name ≠ .staging (.drawn process) := fun heq => by simp [heq, Name.isKept] at hkept
      exact ⟨name, hkept, by rw [hlookup, if_neg hne]; exact hlook⟩
    others := fun other hother name hname hlook => by
      rw [hlookup]
      rcases hname with rfl | rfl
      · simpa [hother] using hlook
      · simpa using hlook
    origin := fun node hname => by
      rw [hlookup] at hname
      exact Or.inr (by simpa using hname) }

theorem carries_publish (h : Sound sha256 before volume) (hwhole : Whole sha256 process volume)
    (howned : volume.look .workspace (.staging (.drawn process)) =
      some (.folder (.staged process)))
    (hfree : volume.look .workspace .bundle = none) :
    Carries sha256 before process volume
      (volume.rename .workspace (.staging (.drawn process)) .bundle) := by
  rw [Volume.rename_eq howned]
  refine Replaces.carries ?_ h
  have hlookup : ∀ name, (((volume.directory .workspace).now.erase
      (.staging (.drawn process))).insert .bundle (.folder (.staged process))).lookup name =
      if name = .bundle then some (.folder (.staged process))
      else if name = .staging (.drawn process) then none else volume.look .workspace name :=
    fun name => Volume.lookup_rename
  exact {
    folders := fun name folder hname => by
      rw [hlookup] at hname
      split_ifs at hname
      · right
        simpa [eq_comm] using hname
      · exact Or.inl ⟨name, hname⟩
    tree := (h.tree _ (now_mem_candidates volume)).rename howned _
    apart := fun tag folder hname => by
      rw [hlookup, if_neg (by simp)] at hname
      split_ifs at hname
      exact h.apart tag folder hname
    kept := fun name hkept folder hname => by
      rw [hlookup] at hname
      split_ifs at hname
      · exact Or.inr ⟨hwhole, by simpa [eq_comm] using hname⟩
      · exact Or.inl ⟨name, hkept, hname⟩
    stays := fun name hkept folder hlook => by
      have hbundle : name ≠ .bundle := by
        rintro rfl
        simp [hfree] at hlook
      have hne : name ≠ .staging (.drawn process) := fun heq => by simp [heq, Name.isKept] at hkept
      exact ⟨name, hkept, by rw [hlookup, if_neg hbundle, if_neg hne]; exact hlook⟩
    others := fun other hother name hname hlook => by
      rw [hlookup]
      rcases hname with rfl | rfl
      · simpa [hother] using hlook
      · simpa using hlook
    origin := fun node hname => by
      rw [hlookup, if_pos rfl] at hname
      exact Or.inl ⟨process, by simpa [eq_comm] using hname⟩ }

/-- Fewer states to go back to, and the bundles are as they were. -/
theorem Sound.fewer (h : Sound sha256 before volume)
    (hfewer : ∀ entries ∈ workspaceCandidates volume', entries = (volume'.directory .workspace).now)
    (hnow : (volume'.directory .workspace).now ∈ workspaceCandidates volume)
    (hsame : ∀ folder, volume.Durable folder → folder ≠ .workspace →
      Volume.SameFolder folder volume volume') : Sound sha256 before volume' where
  rooted := fun entries hentries => by
    rw [hfewer entries hentries]
    exact h.rooted _ hnow
  tree := fun entries hentries => by
    rw [hfewer entries hentries]
    exact h.tree _ hnow
  apart := fun tag folder hlook entries hentries name hname hlookup => by
    rw [hfewer entries hentries] at hlookup
    rw [h.tree _ hnow _ _ folder hlookup hlook] at hname
    cases hname
  kept := fun entries hentries name hname folder hlookup => by
    rw [hfewer entries hentries] at hlookup
    have hbefore := h.kept _ hnow name hname folder hlookup
    have hfolder := hsame folder hbefore.1 fun hroot => h.rooted _ hnow name (hroot ▸ hlookup)
    exact ⟨hbefore.1.of_same hfolder, hbefore.2.of_same hfolder⟩
  origin := fun entries hentries => by
    rw [hfewer entries hentries]
    exact h.origin _ hnow

theorem carries_syncWorkspace (h : Sound sha256 before volume) :
    Carries sha256 before process volume (volume.fsyncDirectory .workspace) := by
  have hfewer : ∀ entries ∈ workspaceCandidates (volume.fsyncDirectory .workspace),
      entries = (volume.directory .workspace).now := by
    intro entries hentries
    simpa [workspaceCandidates] using hentries
  have hsame : ∀ folder, folder ≠ .workspace →
      Volume.SameFolder folder volume (volume.fsyncDirectory .workspace) :=
    fun folder hfolder => Volume.sameFolder_fsyncDirectory hfolder
  refine ⟨h.fewer (by simpa using hfewer) (by simpa using now_mem_candidates volume)
    (fun folder _ hfolder => hsame folder hfolder), fun other _ hunused => ?_,
    fun folder hkept => ?_⟩
  · exact {
      folder := fun entries hentries => by
        rw [hfewer entries hentries]
        exact hunused.folder _ (now_mem_candidates volume)
      name := fun entries hentries => by
        rw [hfewer entries hentries]
        exact hunused.name _ (now_mem_candidates volume)
      empty := by
        rw [Volume.directory_fsyncDirectory_of_ne (by simp)]
        exact hunused.empty
      aside := fun entries hentries => by
        rw [hfewer entries hentries]
        exact hunused.aside _ (now_mem_candidates volume) }
  · obtain ⟨name, hname, hlookup⟩ := hkept _ (now_mem_candidates volume)
    refine ⟨fun entries hentries => ?_, hsame folder fun hroot =>
      h.rooted _ (now_mem_candidates volume) name (hroot ▸ hlookup)⟩
    rw [hfewer entries hentries]
    exact ⟨name, hname, hlookup⟩

/-- A leftover is swept away entry by entry. -/
theorem carries_unlinkLeftover (h : Sound sha256 before volume) {tag : Tag} {folder : Directory}
    (hlook : volume.look .workspace (.staging tag) = some (.folder folder)) (name : Name) :
    Carries sha256 before process volume (volume.unlink folder name) := by
  have hroot : folder ≠ .workspace := fun heq =>
    h.rooted _ (now_mem_candidates volume) _ (heq ▸ hlook)
  refine .frame h ?_ ?_ ?_
  · exact Volume.directory_setEntries_of_ne hroot.symm
  · intro entries hentries name' hname kept hlookup
    refine Volume.sameFolder_setEntries (fun heq => ?_) _
    exact h.apart tag folder hlook entries hentries name' hname (heq ▸ hlookup)
  · intro other _ hunused
    refine Volume.directory_setEntries_of_ne fun heq => ?_
    exact hunused.folder _ (now_mem_candidates volume) _ (heq ▸ hlook)

/-- A file that a process makes. -/
def Inode.ownedBy (process : ℕ) : Inode → Prop
  | .earlier _ => False
  | .copy owner _ | .manifest owner => owner = process

/-- What a process does in its staging directory, and with its files. -/
structure Inside (process : ℕ) (volume volume' : Disk) : Prop where
  directory : ∀ directory, directory ≠ .staged process →
    volume'.directory directory = volume.directory directory
  contents : ∀ file, ¬ file.ownedBy process → volume'.contents file = volume.contents file
  flushed : ∀ file, ¬ file.ownedBy process → volume'.flushed file = volume.flushed file

theorem Inside.refl (process : ℕ) (volume : Disk) : Inside process volume volume :=
  ⟨fun _ _ => rfl, fun _ _ => rfl, fun _ _ => rfl⟩

theorem Inside.trans {volume'' : Disk} (h : Inside process volume volume')
    (h' : Inside process volume' volume'') : Inside process volume volume'' where
  directory := fun directory hdirectory =>
    (h'.directory directory hdirectory).trans (h.directory directory hdirectory)
  contents := fun file hfile => (h'.contents file hfile).trans (h.contents file hfile)
  flushed := fun file hfile => (h'.flushed file hfile).trans (h.flushed file hfile)

theorem inside_setEntries (entries : Entries Name Directory Inode) :
    Inside process volume (volume.setEntries (.staged process) entries) :=
  ⟨fun _ h => Volume.directory_setEntries_of_ne h, fun _ _ => rfl, fun _ _ => rfl⟩

theorem inside_fsyncDirectory :
    Inside process volume (volume.fsyncDirectory (.staged process)) :=
  ⟨fun _ h => Volume.directory_fsyncDirectory_of_ne h, fun _ _ => rfl, fun _ _ => rfl⟩

theorem inside_write (file : Inode) (hfile : file.ownedBy process) (content : Content) :
    Inside process volume (volume.write file content) :=
  ⟨fun _ _ => rfl, fun _ h => Volume.contents_write_of_ne fun heq => h (heq ▸ hfile),
    fun _ h => Volume.flushed_write_of_ne fun heq => h (heq ▸ hfile)⟩

theorem inside_fsync (file : Inode) (hfile : file.ownedBy process) :
    Inside process volume (volume.fsync file) :=
  ⟨fun _ _ => rfl, fun _ _ => rfl, fun _ h => Volume.flushed_fsync_of_ne fun heq => h (heq ▸ hfile)⟩

/-- The process's staging directory has its name still. -/
def Owned (process : ℕ) (volume : Disk) : Prop :=
  volume.look .workspace (.staging (.drawn process)) = some (.folder (.staged process))

theorem Owned.of_inside (h : Owned process volume) (hinside : Inside process volume volume') :
    Owned process volume' := by
  unfold Owned Volume.look
  rw [hinside.directory .workspace (by simp)]
  exact h

/-- No bundle has a file of a process that still stages. -/
theorem Genuine.not_ownedBy {folder : Directory} (hfiles : ∀ number file,
      before.Lists (.earlier number) file → ∃ number, file = .earlier number)
    (h : Genuine sha256 before volume folder) (hfolder : folder ≠ .staged process) {file : Inode}
    (hlists : volume.Lists folder file) : ¬ file.ownedBy process := by
  cases folder with
  | workspace => exact h.elim
  | earlier number =>
      have hsame : Volume.SameFolder (.earlier number) before volume := h
      obtain ⟨number', rfl⟩ := hfiles number file (hsame.lists.mp hlists)
      exact id
  | staged owner =>
      obtain ⟨files, hpublished⟩ := h
      intro howned
      rcases hpublished.owned hlists with rfl | ⟨artifact, _, rfl⟩
      · exact hfolder (congrArg _ howned)
      · exact hfolder (congrArg _ howned)

theorem carries_inside (hbefore : Before before) (h : Sound sha256 before volume)
    (howned : Owned process volume) (hinside : Inside process volume volume') :
    Carries sha256 before process volume volume' := by
  refine .frame h (hinside.directory .workspace (by simp)) ?_ ?_
  · intro entries hentries name hname folder hlookup
    have hfolder : folder ≠ .staged process := fun heq =>
      h.apart _ _ howned entries hentries name hname (heq ▸ hlookup)
    have hgenuine := (h.kept entries hentries name hname folder hlookup).2
    exact ⟨hinside.directory folder hfolder,
      fun file hfile => hinside.contents file
        (hgenuine.not_ownedBy hbefore.files hfolder hfile),
      fun file hfile => hinside.flushed file
        (hgenuine.not_ownedBy hbefore.files hfolder hfile)⟩
  · intro other hother _
    exact hinside.directory _ fun heq => hother (by simpa using heq)

theorem Sound.losePower (h : Sound sha256 before volume) (back : Directory → ℕ)
    (torn : Inode → Content) : Sound sha256 before (volume.losePower back torn) :=
  h.fewer (fun _ hentries => Slot.mem_candidates_lose.mp hentries)
    (Slot.now_lose_mem _ _) fun _ hdurable _ => hdurable.losePower back torn

theorem Kept.losePower {folder : Directory} (h : Kept volume folder)
    (hsound : Sound sha256 before volume) (back : Directory → ℕ) (torn : Inode → Content) :
    Kept (volume.losePower back torn) folder ∧
      Volume.SameFolder folder volume (volume.losePower back torn) := by
  constructor
  · intro entries hentries
    rw [Slot.mem_candidates_lose.mp hentries]
    exact h _ (Slot.now_lose_mem _ _)
  · obtain ⟨name, hname, hlookup⟩ := h _ (now_mem_candidates volume)
    have hdurable := (hsound.kept _ (now_mem_candidates volume) name hname folder hlookup).1
    exact hdurable.losePower back torn

theorem Unused.losePower (h : Unused process volume) (back : Directory → ℕ)
    (torn : Inode → Content) : Unused process (volume.losePower back torn) where
  folder := fun entries hentries => by
    rw [Slot.mem_candidates_lose.mp hentries]
    exact h.folder _ (Slot.now_lose_mem _ _)
  name := fun entries hentries => by
    rw [Slot.mem_candidates_lose.mp hentries]
    exact h.name _ (Slot.now_lose_mem _ _)
  empty := by
    have hflushed : (volume.directory (.staged process)).unflushed = [] := by rw [h.empty]
    exact (Slot.lose_of_flushed hflushed _).trans h.empty
  aside := fun entries hentries => by
    rw [Slot.mem_candidates_lose.mp hentries]
    exact h.aside _ (Slot.now_lose_mem _ _)

end Soundness

end GhAddressCr.RecoveryBundle
