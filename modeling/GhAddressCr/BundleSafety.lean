import GhAddressCr.BundleFolders

/-!
# The recovery bundle in every run

At each point of the program a process knows what is in its staging directory; the lock keeps the
others away from it. So a bundle under its name is whole at any time, and no bundle is ever lost.
-/
namespace GhAddressCr.RecoveryBundle

open SharedPrograms AdvisoryLocks CrashingFiles

section Program

variable {sha256 : Content → String} {before : Disk} {process : ℕ} {volume volume' : Disk}

variable (sha256) in
/-- What a process knows of its staging directory while it fills it. -/
structure Building (process : ℕ) (extra : Option (Name × Inode)) (files : FileHashes)
    (volume : Disk) : Prop extends Staging sha256 process extra files volume where
  name : Owned process volume

/-- The files that are still to be copied. -/
structure Pending (rest : List Artifact) (files : FileHashes) : Prop where
  session : .session ∈ rest ∨ files.session.isSome = true
  once : rest.Nodup
  missing : ∀ artifact ∈ rest, files.of artifact = none

variable (sha256) in
/-- What holds of the disk at a point of the program. -/
def Facts (process : ℕ) (volume : Disk) : Phase → Prop
  | .idle | .waiting | .checking | .sweeping | .examining | .settingAside =>
      Unused process volume
  | .removing tag folder =>
      Unused process volume ∧ volume.look .workspace (.staging tag) = some (.folder folder)
  | .making => Unstaged process volume
  | .copying rest files => Building sha256 process none files volume ∧ Pending rest files
  | .filling artifact _ rest files | .flushing artifact rest files =>
      Building sha256 process (some (.artifact artifact, .copy process artifact)) files volume ∧
        Pending (artifact :: rest) files
  | .hashing artifact rest files =>
      Building sha256 process (some (.artifact artifact, .copy process artifact)) files volume ∧
        Pending (artifact :: rest) files ∧ volume.flushed (.copy process artifact) = true
  | .dumping files =>
      Building sha256 process (some (.temporary process, .manifest process)) files volume ∧
        files.session.isSome = true
  | .flushingManifest files =>
      Building sha256 process (some (.temporary process, .manifest process)) files volume ∧
        files.session.isSome = true ∧
        volume.contents (.manifest process) = .manifest "legacy-v1" files
  | .replacing files =>
      Building sha256 process (some (.temporary process, .manifest process)) files volume ∧
        files.session.isSome = true ∧
        volume.contents (.manifest process) = .manifest "legacy-v1" files ∧
        volume.flushed (.manifest process) = true
  | .discarding => Owned process volume
  | .syncingStaging files =>
      Building sha256 process (some (.manifest, .manifest process)) files volume ∧
        files.session.isSome = true ∧
        volume.contents (.manifest process) = .manifest "legacy-v1" files ∧
        volume.flushed (.manifest process) = true
  | .publishing => Whole sha256 process volume ∧ Owned process volume
  | .syncingWorkspace | .hashingInputs | .committing _ | .committed | .rolledBack | .raised _
  | .stopped _ => True

variable {files : FileHashes} {extra : Option (Name × Inode)}

/-- The staging directory is empty at first. -/
theorem Unstaged.building (h : Unstaged process volume) :
    Building sha256 process none {}
      (volume.link .workspace (.staging (.drawn process)) (.folder (.staged process))) where
  entries := fun name => by
    have hempty : volume.look (.staged process) name = none := by
      simp [Volume.look, h.empty]
    have hlisting : listing process none {} name = none := by
      cases name with
      | artifact artifact => cases artifact <;> rfl
      | _ => rfl
    rw [Volume.link, Volume.look_setEntries_of_ne (by simp), hempty, hlisting]
  flushed := fun artifact hhash => by cases artifact <;> cases hhash
  hashes := fun artifact hash hhash => by cases artifact <;> cases hhash
  supported := rfl
  name := by simp [Owned, Volume.link]

/-- A file is written that no hash was taken of. -/
theorem Building.write (h : Building sha256 process extra files volume) {file : Inode}
    (hfile : ∀ artifact, (files.of artifact).isSome → file ≠ .copy process artifact)
    (content : Content) : Building sha256 process extra files (volume.write file content) where
  entries := h.entries
  flushed := fun artifact hhash => by
    rw [Volume.flushed_write_of_ne (hfile artifact hhash).symm]
    exact h.flushed artifact hhash
  hashes := fun artifact hash hhash => by
    rw [Volume.contents_write_of_ne (hfile artifact (by simp [hhash])).symm]
    exact h.hashes artifact hash hhash
  supported := h.supported
  name := h.name

theorem Building.fsync (h : Building sha256 process extra files volume) (file : Inode) :
    Building sha256 process extra files (volume.fsync file) where
  entries := h.entries
  flushed := fun artifact hhash => by
    by_cases hfile : Inode.copy process artifact = file
    · simp [hfile]
    · rw [Volume.flushed_fsync_of_ne hfile]
      exact h.flushed artifact hhash
  hashes := h.hashes
  supported := h.supported
  name := h.name

/-- A new file in the staging directory. -/
theorem Building.create (h : Building sha256 process none files volume) {file : Inode}
    (hfile : ∀ artifact, (files.of artifact).isSome → file ≠ .copy process artifact)
    (name : Name) (content : Content) :
    Building sha256 process (some (name, file)) files
      ((volume.link (.staged process) name (.file file)).write file content) := by
  refine Building.write ?_ hfile content
  exact {
    entries := fun other => by
      rw [Volume.link, Volume.look_setEntries, Volume.lookup_insert]
      simp only [listing]
      split
      · rfl
      · exact h.entries other
    flushed := h.flushed
    hashes := h.hashes
    supported := h.supported
    name := h.name.of_inside (inside_setEntries _) }

/-- The hash of a copy is taken when the copy is on the disk. -/
theorem Building.hash {artifact : Artifact}
    (h : Building sha256 process (some (.artifact artifact, .copy process artifact)) files volume)
    (hflushed : volume.flushed (.copy process artifact) = true) :
    Building sha256 process none
      (files.set (sha256 (volume.contents (.copy process artifact))) artifact) volume := by
  have hof : ∀ hash other, (files.set hash artifact).of other =
      if other = artifact then some hash else files.of other := by
    intro hash other
    cases artifact <;> cases other <;> rfl
  exact {
    entries := fun name => by
      rw [h.entries]
      cases name with
      | artifact other =>
          simp only [listing, listing.copies, hof, Name.artifact.injEq]
          split
          · next heq => simp [heq]
          · rfl
      | _ => rfl
    flushed := fun other hhash => by
      rw [hof] at hhash
      split at hhash
      · next heq => exact heq ▸ hflushed
      · exact h.flushed other hhash
    hashes := fun other hash hhash => by
      rw [hof] at hhash
      split at hhash
      · next heq => rw [heq]; exact Option.some.inj hhash
      · exact h.hashes other hash hhash
    supported := by cases artifact <;> exact h.supported
    name := h.name }

/-- The manifest gets its name. -/
theorem Building.replace
    (h : Building sha256 process (some (.temporary process, .manifest process)) files volume) :
    Building sha256 process (some (.manifest, .manifest process)) files
      (volume.rename (.staged process) (.temporary process) .manifest) := by
  have htemporary : volume.look (.staged process) (.temporary process) =
      some (.file (.manifest process)) := by simp [h.entries, listing]
  rw [Volume.rename_eq htemporary]
  exact {
    entries := fun name => by
      have hbefore : (volume.directory (.staged process)).now.lookup name = _ := h.entries name
      rw [Volume.look_setEntries, Volume.lookup_rename, hbefore]
      simp only [listing]
      split_ifs with hmanifest htemporary
      · rfl
      · simp [htemporary, listing.copies]
      · rfl
    flushed := h.flushed
    hashes := h.hashes
    supported := h.supported
    name := h.name.of_inside (inside_setEntries _) }

theorem Building.published
    (h : Building sha256 process (some (.manifest, .manifest process)) files volume)
    (hsession : files.session.isSome = true)
    (hmanifest : volume.contents (.manifest process) = .manifest "legacy-v1" files)
    (hflushed : volume.flushed (.manifest process) = true) :
    Published sha256 process files (volume.fsyncDirectory (.staged process)) where
  entries := fun name => by rw [Volume.look_fsyncDirectory, h.entries]
  flushed := h.flushed
  hashes := h.hashes
  supported := h.supported
  onDisk := by simp [Slot.flush]
  manifest := hmanifest
  manifestFlushed := hflushed
  session := hsession

theorem Pending.hash {artifact : Artifact} {rest : List Artifact}
    (h : Pending (artifact :: rest) files) (hash : String) :
    Pending rest (files.set hash artifact) where
  session := by
    rcases h.session with hmem | hsome
    · rcases List.mem_cons.mp hmem with rfl | hrest
      · exact Or.inr rfl
      · exact Or.inl hrest
    · right
      cases artifact with
      | session => rfl
      | evidence => exact hsome
  once := (List.nodup_cons.mp h.once).2
  missing := fun other hother => by
    have hne : other ≠ artifact := fun heq => (List.nodup_cons.mp h.once).1 (heq ▸ hother)
    have hmissing := h.missing other (List.mem_cons_of_mem _ hother)
    cases artifact <;> cases other <;> first | exact absurd rfl hne | exact hmissing

/-- A missing evidence ledger is passed over. -/
theorem Pending.skip {rest : List Artifact} (h : Pending (.evidence :: rest) files) :
    Pending rest files where
  session := by simpa using h.session
  once := (List.nodup_cons.mp h.once).2
  missing := fun other hother => h.missing other (List.mem_cons_of_mem _ hother)

theorem Pending.not_copied {artifact : Artifact} {rest : List Artifact}
    (h : Pending (artifact :: rest) files) (other : Artifact) (hother : (files.of other).isSome) :
    Inode.copy process artifact ≠ .copy process other := by
  intro heq
  cases heq
  simp [h.missing artifact List.mem_cons_self] at hother

variable {inputs : LegacyInputs} {disk disk' : Storage} {phase after : Phase} {action : Action}

/-- The process fills its staging directory. -/
def Phase.fills : Phase → Bool
  | .copying _ _ | .filling _ _ _ _ | .flushing _ _ _ | .hashing _ _ _ | .dumping _
  | .flushingManifest _ | .replacing _ | .discarding | .syncingStaging _ => true
  | _ => false

/-- There it changes nothing else. -/
theorem advance_inside (hphase : phase.fills = true)
    (h : advance sha256 process inputs disk phase action = some (disk', after)) :
    Inside process disk.volume disk'.volume := by
  cases phase with
  | copying rest files =>
      cases rest with
      | nil =>
          cases action <;> cases h
          · exact (inside_setEntries _).trans (inside_write (.manifest process) rfl _)
          · exact .refl process _
      | cons artifact rest =>
          cases action <;> try cases h
          · simp only [advance] at h
            split at h
            · cases h
              exact (inside_setEntries _).trans
                (inside_write (.copy process artifact) rfl _)
            · cases h
              exact .refl process _
          · exact .refl process _
  | filling artifact copied rest files =>
      cases action <;> try cases h
      · simp only [advance] at h
        split at h
        · cases h
          exact .refl process _
        · cases h
      · simp only [advance] at h
        split at h
        · cases h
        · cases h
          exact inside_write (.copy process artifact) rfl _
      · exact .refl process _
  | flushing artifact rest files =>
      cases action <;> cases h
      · exact inside_fsync (.copy process artifact) rfl
      · exact .refl process _
  | hashing artifact rest files => cases action <;> cases h <;> exact .refl process _
  | dumping files =>
      cases action <;> cases h
      · exact inside_write (.manifest process) rfl _
      · exact inside_write (.manifest process) rfl _
      · exact .refl process _
  | flushingManifest files =>
      cases action <;> cases h
      · exact inside_fsync (.manifest process) rfl
      · exact .refl process _
  | replacing files =>
      cases action <;> cases h
      · show Inside process disk.volume
          (disk.volume.rename (.staged process) (.temporary process) .manifest)
        unfold Volume.rename
        split
        · exact inside_setEntries _
        · exact .refl process _
      · exact .refl process _
  | discarding =>
      cases action <;> cases h
      · split
        · exact inside_setEntries _
        · exact .refl process _
      · exact .refl process _
  | syncingStaging files =>
      cases action <;> cases h
      · exact inside_fsyncDirectory
      · exact .refl process _
  | _ => cases hphase

/-- What a step of a process leads to. -/
def Leads (sha256 : Content → String) (before : Disk) (process : ℕ) (volume : Disk)
    (disk' : Storage) (after : Phase) : Prop :=
  Carries sha256 before process volume disk'.volume ∧ Facts sha256 process disk'.volume after

/-- The volume is as it was. -/
theorem Leads.stay (h : Sound sha256 before volume) (hvolume : disk'.volume = volume)
    (hafter : Facts sha256 process volume after) :
    Leads sha256 before process volume disk' after := by
  subst hvolume
  exact ⟨.refl h process, hafter⟩

/-- The volume changes in the staging directory only. -/
theorem Leads.inside (hbefore : Before before) (h : Sound sha256 before volume)
    (howned : Owned process volume) (hinside : Inside process volume disk'.volume)
    (hafter : Facts sha256 process disk'.volume after) :
    Leads sha256 before process volume disk' after :=
  ⟨carries_inside hbefore h howned hinside, hafter⟩

theorem leads_fail (hsound : Sound sha256 before disk.volume)
    (hfacts : Facts sha256 process disk.volume phase)
    (h : advance sha256 process inputs disk phase .fail = some (disk', after)) :
    Leads sha256 before process disk.volume disk' after := by
  cases phase with
  | dumping files =>
      cases h
      exact .stay hsound rfl hfacts.1.name
  | flushingManifest files =>
      cases h
      exact .stay hsound rfl hfacts.1.name
  | replacing files =>
      cases h
      exact .stay hsound rfl hfacts.1.name
  | copying rest files => cases rest <;> cases h <;> exact .stay hsound rfl trivial
  | _ =>
      cases h
      exact .stay hsound rfl trivial

theorem leads_checking (hsound : Sound sha256 before disk.volume)
    (hfacts : Unused process disk.volume)
    (hfail : action ≠ .fail)
    (h : advance sha256 process inputs disk .checking action = some (disk', after)) :
    Leads sha256 before process disk.volume disk' after := by
  cases action with
  | step =>
      simp only [advance] at h
      split at h
      · split at h
        · cases h
          exact .stay hsound rfl hfacts
        · cases h
          exact .stay hsound rfl trivial
      · cases h
        exact .stay hsound rfl trivial
  | bootstrap =>
      simp only [advance] at h
      split at h
      · cases h
        exact .stay hsound rfl trivial
      · cases h
        exact .stay hsound rfl trivial
  | fail => exact absurd rfl hfail
  | _ => cases h

theorem leads_sweeping (hsound : Sound sha256 before disk.volume)
    (hfacts : Unused process disk.volume)
    (hfail : action ≠ .fail)
    (h : advance sha256 process inputs disk .sweeping action = some (disk', after)) :
    Leads sha256 before process disk.volume disk' after := by
  cases action with
  | leftover tag =>
      simp only [advance] at h
      split at h
      · next folder hlook =>
          cases h
          exact .stay hsound rfl ⟨hfacts, hlook⟩
      · cases h
        exact .stay hsound rfl trivial
      · cases h
  | step =>
      simp only [advance] at h
      split at h
      · cases h
        exact .stay hsound rfl hfacts
      · cases h
  | fail => exact absurd rfl hfail
  | _ => cases h

theorem Unused.unlinkLeftover (h : Unused process volume) (tag : Tag) :
    Unused process (volume.unlink .workspace (.staging tag)) := by
  have hnow := now_mem_candidates volume
  refine h.setWorkspace (fun name hlookup => ?_) ?_ ?_
  · rw [Volume.lookup_erase] at hlookup
    split at hlookup
    · cases hlookup
    · exact h.folder _ hnow name hlookup
  · rw [Volume.lookup_erase]
    split
    · rfl
    · exact h.name _ hnow
  · rw [Volume.lookup_erase, if_neg (by simp)]
    exact h.aside _ hnow

theorem Unused.unlinkElsewhere (h : Unused process volume) {folder : Directory}
    (hroot : folder ≠ .workspace) (hstaged : folder ≠ .staged process) (name : Name) :
    Unused process (volume.unlink folder name) := by
  have hcandidates : workspaceCandidates (volume.unlink folder name) =
      workspaceCandidates volume := by
    simp [workspaceCandidates, Volume.unlink, Volume.directory_setEntries_of_ne hroot.symm]
  exact {
    folder := by rw [hcandidates]; exact h.folder
    name := by rw [hcandidates]; exact h.name
    empty := by
      rw [Volume.unlink, Volume.directory_setEntries_of_ne hstaged.symm]
      exact h.empty
    aside := by rw [hcandidates]; exact h.aside }

theorem Unstaged.setAside (h : Unstaged process volume) :
    Unstaged process (volume.rename .workspace .bundle (.aside (.drawn process))) := by
  have hnow := now_mem_candidates volume
  unfold Volume.rename
  split
  · next bundle hbundle =>
      refine h.setWorkspace (fun name hlookup => ?_) ?_
      · rw [Volume.lookup_rename] at hlookup
        split_ifs at hlookup
        · cases hlookup
          exact h.folder _ hnow .bundle hbundle
        · exact h.folder _ hnow name hlookup
      · rw [Volume.lookup_rename, if_neg (by simp), if_neg (by simp)]
        exact h.name _ hnow
  · exact h

theorem leads_removing {tag : Tag} {folder : Directory} (hsound : Sound sha256 before disk.volume)
    (hfacts : Facts sha256 process disk.volume (.removing tag folder))
    (hfail : action ≠ .fail)
    (h : advance sha256 process inputs disk (.removing tag folder) action = some (disk', after)) :
    Leads sha256 before process disk.volume disk' after := by
  obtain ⟨hunused, hlook⟩ := hfacts
  have hroot : folder ≠ .workspace := fun heq =>
    hsound.rooted _ (now_mem_candidates disk.volume) _ (heq ▸ hlook)
  have hstaged : folder ≠ .staged process := fun heq =>
    hunused.folder _ (now_mem_candidates disk.volume) _ (heq ▸ hlook)
  cases action with
  | unlink name =>
      simp only [advance] at h
      split at h
      · cases h
        refine ⟨carries_unlinkLeftover hsound hlook name,
          hunused.unlinkElsewhere hroot hstaged name, ?_⟩
        rw [Volume.unlink, Volume.look_setEntries_of_ne hroot.symm]
        exact hlook
      · cases h
  | step =>
      simp only [advance] at h
      split at h
      · cases h
        exact ⟨carries_removeLeftover hsound tag, hunused.unlinkLeftover tag⟩
      · cases h
  | fail => exact absurd rfl hfail
  | _ => cases h

theorem leads_examining (hsound : Sound sha256 before disk.volume)
    (hfacts : Unused process disk.volume)
    (hfail : action ≠ .fail)
    (h : advance sha256 process inputs disk .examining action = some (disk', after)) :
    Leads sha256 before process disk.volume disk' after := by
  cases action with
  | step =>
      simp only [advance] at h
      split at h
      · cases h
        exact .stay hsound rfl hfacts.toUnstaged
      · split at h
        · cases h
          exact .stay hsound rfl hfacts
        · split at h
          · split at h
            · simp only [Option.some.injEq, Prod.mk.injEq] at h
              obtain ⟨hdisk, rfl⟩ := h
              subst hdisk
              split
              · exact .stay hsound rfl trivial
              · exact .stay hsound rfl hfacts
            · cases h
              exact .stay hsound rfl trivial
          · cases h
            exact .stay hsound rfl trivial
  | fail => exact absurd rfl hfail
  | _ => cases h

theorem leads_copying {rest : List Artifact} (hbefore : Before before)
    (hsound : Sound sha256 before disk.volume)
    (hfacts : Facts sha256 process disk.volume (.copying rest files))
    (hfail : action ≠ .fail)
    (h : advance sha256 process inputs disk (.copying rest files) action = some (disk', after)) :
    Leads sha256 before process disk.volume disk' after := by
  obtain ⟨hbuilding, hpending⟩ := hfacts
  have hinside := advance_inside rfl h
  cases rest with
  | nil =>
      cases action with
      | step =>
          cases h
          refine .inside hbefore hsound hbuilding.name hinside ⟨?_, ?_⟩
          · exact hbuilding.create (by simp) (.temporary process) (.bytes [])
          · simpa using hpending.session
      | fail => exact absurd rfl hfail
      | _ => cases h
  | cons artifact rest =>
      cases action with
      | step =>
          simp only [advance] at h
          split at h
          · cases h
            refine .inside hbefore hsound hbuilding.name hinside ⟨?_, hpending⟩
            exact hbuilding.create hpending.not_copied (.artifact artifact) (.bytes [])
          · cases h
            refine .stay hsound rfl ?_
            cases artifact with
            | evidence => exact ⟨hbuilding, hpending.skip⟩
            | session => trivial
      | fail => exact absurd rfl hfail
      | _ => cases h

theorem leads_filling {artifact : Artifact} {copied : List UInt8} {rest : List Artifact}
    (hbefore : Before before) (hsound : Sound sha256 before disk.volume)
    (hfacts : Facts sha256 process disk.volume (.filling artifact copied rest files))
    (hfail : action ≠ .fail)
    (h : advance sha256 process inputs disk (.filling artifact copied rest files) action =
      some (disk', after)) : Leads sha256 before process disk.volume disk' after := by
  obtain ⟨hbuilding, hpending⟩ := hfacts
  have hinside := advance_inside rfl h
  cases action with
  | piece count =>
      simp only [advance] at h
      split at h
      · cases h
      · cases h
        refine .inside hbefore hsound hbuilding.name hinside ⟨?_, hpending⟩
        exact hbuilding.write hpending.not_copied _
  | step =>
      simp only [advance] at h
      split at h
      · cases h
        exact .stay hsound rfl ⟨hbuilding, hpending⟩
      · cases h
  | fail => exact absurd rfl hfail
  | _ => cases h

theorem leads_dumping (hbefore : Before before) (hsound : Sound sha256 before disk.volume)
    (hfacts : Facts sha256 process disk.volume (.dumping files))
    (hfail : action ≠ .fail)
    (h : advance sha256 process inputs disk (.dumping files) action = some (disk', after)) :
    Leads sha256 before process disk.volume disk' after := by
  obtain ⟨hbuilding, hsession⟩ := hfacts
  have hinside := advance_inside rfl h
  cases action with
  | flushBuffer data =>
      cases h
      refine .inside hbefore hsound hbuilding.name hinside ⟨?_, hsession⟩
      exact hbuilding.write (by simp) _
  | step =>
      cases h
      refine .inside hbefore hsound hbuilding.name hinside ⟨?_, hsession, ?_⟩
      · exact hbuilding.write (by simp) _
      · exact Volume.contents_write
  | fail => exact absurd rfl hfail
  | _ => cases h

theorem leads_discarding (hbefore : Before before) (hsound : Sound sha256 before disk.volume)
    (hfacts : Owned process disk.volume)
    (hfail : action ≠ .fail)
    (h : advance sha256 process inputs disk .discarding action = some (disk', after)) :
    Leads sha256 before process disk.volume disk' after := by
  have hinside := advance_inside rfl h
  cases action with
  | step =>
      cases h
      exact .inside hbefore hsound hfacts hinside trivial
  | fail => exact absurd rfl hfail
  | _ => cases h

theorem leads_publishing (hsound : Sound sha256 before disk.volume)
    (hfacts : Facts sha256 process disk.volume .publishing)
    (hfail : action ≠ .fail)
    (h : advance sha256 process inputs disk .publishing action = some (disk', after)) :
    Leads sha256 before process disk.volume disk' after := by
  obtain ⟨hwhole, howned⟩ := hfacts
  cases action with
  | step =>
      simp only [advance] at h
      split at h
      · cases h
        exact .stay hsound rfl trivial
      · next hfree =>
          cases h
          exact ⟨carries_publish hsound hwhole howned (by simpa using hfree), trivial⟩
  | fail => exact absurd rfl hfail
  | _ => cases h

/-- At every point of the program a step keeps the disk sound and leads to what holds next. -/
theorem leads_advance (hbefore : Before before) (hsound : Sound sha256 before disk.volume)
    (hfacts : Facts sha256 process disk.volume phase)
    (h : advance sha256 process inputs disk phase action = some (disk', after)) :
    Leads sha256 before process disk.volume disk' after := by
  by_cases hfail : action = .fail
  · subst hfail
    exact leads_fail hsound hfacts h
  cases phase with
  | checking => exact leads_checking hsound hfacts hfail h
  | sweeping => exact leads_sweeping hsound hfacts hfail h
  | removing tag folder => exact leads_removing hsound hfacts hfail h
  | examining => exact leads_examining hsound hfacts hfail h
  | settingAside =>
      cases action <;> cases h <;> try exact absurd rfl hfail
      have haside := hfacts.aside _ (now_mem_candidates disk.volume)
      exact ⟨carries_setAside hsound haside, hfacts.toUnstaged.setAside⟩
  | making =>
      cases action <;> cases h <;> try exact absurd rfl hfail
      refine ⟨carries_make hsound hfacts, hfacts.building, ?_⟩
      exact ⟨by simp, by decide, by simp [FileHashes.of]⟩
  | copying rest files => exact leads_copying hbefore hsound hfacts hfail h
  | filling artifact copied rest files => exact leads_filling hbefore hsound hfacts hfail h
  | flushing artifact rest files =>
      have hinside := advance_inside rfl h
      cases action <;> cases h <;> try exact absurd rfl hfail
      obtain ⟨hbuilding, hpending⟩ := hfacts
      exact .inside hbefore hsound hbuilding.name hinside
        ⟨hbuilding.fsync _, hpending, Volume.flushed_fsync⟩
  | hashing artifact rest files =>
      cases action <;> cases h <;> try exact absurd rfl hfail
      obtain ⟨hbuilding, hpending, hflushed⟩ := hfacts
      exact .stay hsound rfl ⟨hbuilding.hash hflushed, hpending.hash _⟩
  | dumping files => exact leads_dumping hbefore hsound hfacts hfail h
  | flushingManifest files =>
      have hinside := advance_inside rfl h
      cases action <;> cases h <;> try exact absurd rfl hfail
      obtain ⟨hbuilding, hsession, hmanifest⟩ := hfacts
      exact .inside hbefore hsound hbuilding.name hinside
        ⟨hbuilding.fsync _, hsession, hmanifest, Volume.flushed_fsync⟩
  | replacing files =>
      have hinside := advance_inside rfl h
      cases action <;> cases h <;> try exact absurd rfl hfail
      obtain ⟨hbuilding, hsession, hmanifest, hflushed⟩ := hfacts
      have htemporary : disk.volume.look (.staged process) (.temporary process) =
          some (.file (.manifest process)) := by simp [hbuilding.entries, listing]
      refine .inside hbefore hsound hbuilding.name hinside ⟨hbuilding.replace, hsession, ?_, ?_⟩
      · rw [Volume.rename_eq htemporary]
        exact hmanifest
      · rw [Volume.rename_eq htemporary]
        exact hflushed
  | discarding => exact leads_discarding hbefore hsound hfacts hfail h
  | syncingStaging files =>
      have hinside := advance_inside rfl h
      cases action <;> cases h <;> try exact absurd rfl hfail
      obtain ⟨hbuilding, hsession, hmanifest, hflushed⟩ := hfacts
      exact .inside hbefore hsound hbuilding.name hinside
        ⟨⟨files, hbuilding.published hsession hmanifest hflushed⟩, hbuilding.name.of_inside hinside⟩
  | publishing => exact leads_publishing hsound hfacts hfail h
  | syncingWorkspace =>
      cases action <;> cases h <;> try exact absurd rfl hfail
      exact ⟨carries_syncWorkspace hsound, trivial⟩
  | hashingInputs =>
      cases action <;> try cases h
      · simp only [advance] at h
        split at h
        · cases h
          exact .stay hsound rfl trivial
        · cases h
          exact .stay hsound rfl trivial
      · exact absurd rfl hfail
  | committing hashes =>
      cases action <;> try cases h
      · simp only [advance] at h
        split at h
        · cases h
          exact .stay hsound rfl trivial
        · cases h
          exact .stay hsound rfl trivial
      · exact absurd rfl hfail
  | _ =>
      cases action <;> cases h
      exact absurd rfl hfail

variable (sha256) in
structure At (process : ℕ) (s : Shared) (here : Process) : Prop where
  idle : here.phase = .idle → Unused process s.disk.volume
  facts : here.runs s.boot = true → Facts sha256 process s.disk.volume here.phase
  lock : Held s.locks process
    (if here.runs s.boot && here.phase.locked then some () else none)
  boot : here.boot ≤ s.boot

/-- What a process may rely on when another takes a step, or the power is lost. -/
structure Rely (process : ℕ) (s s' : Shared) : Prop where
  unused : Unused process s.disk.volume → Unused process s'.disk.volume
  change : (s'.boot = s.boot ∧ Untouched process s.locks s'.locks ∧
    (s.locks () = some process → s'.disk = s.disk)) ∨ (s.boot < s'.boot ∧ s'.locks = free)

theorem facts_of_unlocked (h : Facts sha256 process volume phase) (hphase : phase.locked = false)
    (hunused : Unused process volume → Unused process volume') :
    Facts sha256 process volume' phase := by
  cases phase with
  | idle => exact hunused h
  | waiting => exact hunused h
  | committed | rolledBack | raised _ | stopped _ => trivial
  | _ => cases hphase

theorem At.stable {s s' : Shared} {here : Process} (h : At sha256 process s here)
    (hrely : Rely process s s') : At sha256 process s' here := by
  have hidle : here.phase = .idle → Unused process s'.disk.volume :=
    fun hphase => hrely.unused (h.idle hphase)
  rcases hrely.change with ⟨hboot, hlocks, hdisk⟩ | ⟨hboot, hlocks⟩
  · refine ⟨hidle, fun hruns => ?_, ?_, by rw [hboot]; exact h.boot⟩
    · rw [hboot] at hruns
      have hfacts := h.facts hruns
      cases hlocked : here.phase.locked with
      | true =>
          have hheld := h.lock ()
          rw [hdisk (hheld.mpr (by simp [hruns, hlocked]))]
          exact hfacts
      | false => exact facts_of_unlocked hfacts hlocked hrely.unused
    · rw [hboot]
      exact h.lock.of_untouched hlocks
  · have hold : here.boot ≠ s'.boot := by have := h.boot; omega
    have hruns : here.runs s'.boot = false := by simp [Process.runs, hold]
    refine ⟨hidle, fun hrun => ?_, ?_, by have := h.boot; omega⟩
    · rw [hruns] at hrun
      cases hrun
    · simp only [hruns, Bool.false_and, hlocks]
      exact held_free process

variable {s s' : Shared} {here here' : Process}

/-- What a process does: it starts, takes the lock, or goes a step and gives the lock back where
it comes to an end. -/
theorem act_cases (h : act sha256 process action s here = some (s', here')) :
    (here.phase = .idle ∧ s' = s ∧ here' = ⟨s.boot, .waiting⟩) ∨
    (here.runs s.boot = true ∧ here.phase = .waiting ∧
      ∃ locks, tryAcquire s.locks () process = some locks ∧ s' = { s with locks := locks } ∧
        here' = { here with phase := .checking }) ∨
    (here.runs s.boot = true ∧ here.phase ≠ .idle ∧
      ∃ disk after, (s', here') = settle s here disk after ∧
        (disk = s.disk ∧ (after = .stopped here.phase ∨
            here.phase = .waiting ∧ after = .raised .waiting) ∨
          advance sha256 process s.inputs s.disk here.phase action = some (disk, after))) := by
  unfold act at h
  split at h
  · next hphase =>
      cases h
      exact Or.inl ⟨hphase, rfl, rfl⟩
  · cases h
  · next hidle _ =>
      split at h
      · next hruns =>
          right
          unfold move at h
          split at h
          · next hphase _ =>
              split at h
              · next locks hlock =>
                  cases h
                  exact Or.inl ⟨hruns, hphase, locks, hlock, rfl, rfl⟩
              · cases h
                refine Or.inr ⟨hruns, hidle, s.disk, .raised .waiting, ?_,
                  Or.inl ⟨rfl, Or.inr ⟨hphase, rfl⟩⟩⟩
                simp [settle, hphase, Phase.locked]
          · right
            exact ⟨hruns, hidle, s.disk, .stopped here.phase, (Option.some.inj h).symm,
              Or.inl ⟨rfl, Or.inl rfl⟩⟩
          · right
            obtain ⟨⟨disk, after⟩, hadvance, hsettle⟩ := Option.map_eq_some_iff.mp h
            exact ⟨hruns, hidle, disk, after, hsettle.symm, Or.inr hadvance⟩
      · cases h

theorem not_over_of_locked (h : phase.locked = true) : phase.over = false := by
  cases phase <;> first | rfl | cases h

theorem over_not_idle (h : phase.over = true) : phase ≠ .idle := by
  rintro rfl
  cases h

theorem facts_of_over (h : phase.over = true) : Facts sha256 process volume phase := by
  cases phase with
  | committed | rolledBack | raised _ | stopped _ => trivial
  | _ => cases h

/-- No process goes back to its start. -/
theorem advance_not_idle
    (h : advance sha256 process inputs disk phase action = some (disk', after)) :
    after ≠ .idle := by
  rintro rfl
  unfold advance at h
  repeat' split at h
  all_goals cases h

/-- Without the lock a process only comes to an end. -/
theorem advance_unlocked (hphase : phase.locked = false)
    (h : advance sha256 process inputs disk phase action = some (disk', after)) :
    after.over = true := by
  cases phase with
  | idle | waiting | committed | rolledBack | raised _ | stopped _ =>
      cases action <;> cases h
      rfl
  | _ => cases hphase

theorem advance_unlocked_disk (hphase : phase.locked = false)
    (h : advance sha256 process inputs disk phase action = some (disk', after)) :
    disk' = disk := by
  cases phase with
  | idle | waiting | committed | rolledBack | raised _ | stopped _ =>
      cases action <;> cases h
      rfl
  | _ => cases hphase

theorem At.settle {after : Phase} {next : Storage} (h : At sha256 process s here)
    (hruns : here.runs s.boot = true) (hidle : after ≠ .idle)
    (hunlocked : here.phase.locked = false → after.over = true)
    (hfacts : Facts sha256 process next.volume after) :
    At sha256 process (settle s here next after).1 (settle s here next after).2 where
  idle := fun hphase => absurd hphase hidle
  facts := fun _ => hfacts
  lock := by
    have hheld := h.lock
    rw [hruns, Bool.true_and] at hheld
    cases hlocked : here.phase.locked with
    | true =>
        rw [hlocked] at hheld
        cases hafter : after.locked with
        | true =>
            have hruns' : ({ here with phase := after } : Process).runs s.boot = true := by
              have hboot := (Bool.and_eq_true_iff.mp hruns).1
              simpa [Process.runs, not_over_of_locked hafter] using hboot
            simpa [RecoveryBundle.settle, hlocked, hafter, hruns'] using hheld
        | false =>
            simpa [RecoveryBundle.settle, hlocked, hafter] using hheld.release
    | false =>
        rw [hlocked] at hheld
        have hafter : after.locked = false := by
          cases hafter : after.locked with
          | true => exact absurd (hunlocked hlocked) (by simp [not_over_of_locked hafter])
          | false => rfl
        simpa [RecoveryBundle.settle, hlocked, hafter] using hheld
  boot := h.boot

theorem rely_settle {other : ℕ} {next : Storage} (hother : other ≠ process)
    (h : At sha256 process s here) (hruns : here.runs s.boot = true)
    (hnext : here.phase.locked = false → next = s.disk)
    (hunused : Unused other s.disk.volume → Unused other next.volume) :
    Rely other s (settle s here next after).1 where
  unused := hunused
  change := by
    have hheld := h.lock
    rw [hruns, Bool.true_and] at hheld
    refine Or.inl ⟨rfl, ?_, fun hlock => ?_⟩
    · show Untouched other s.locks (if here.phase.locked && !after.locked then
        release s.locks (some ()) else s.locks)
      split
      · next hrelease =>
          rw [(Bool.and_eq_true_iff.mp hrelease).1] at hheld
          exact untouched_release hother hheld
      · exact .refl other s.locks
    · cases hlocked : here.phase.locked with
      | false => exact hnext hlocked
      | true =>
          rw [hlocked] at hheld
          have hholder := (hheld ()).mpr rfl
          rw [hlock] at hholder
          exact absurd (Option.some.inj hholder) hother

/-- A step of a process keeps the disk sound, and changes nothing that the others rely on. -/
theorem opening_act (hbefore : Before before) (hsound : Sound sha256 before s.disk.volume)
    (hat : At sha256 process s here)
    (h : act sha256 process action s here = some (s', here')) :
    Carries sha256 before process s.disk.volume s'.disk.volume ∧ At sha256 process s' here' ∧
      ∀ other, other ≠ process → Rely other s s' := by
  rcases act_cases h with ⟨hphase, rfl, rfl⟩ | ⟨hruns, hphase, locks, hlock, rfl, rfl⟩ |
    ⟨hruns, hidle, disk, after, hsettle, hstep⟩
  · have hheld := hat.lock
    simp only [hphase, Phase.locked, Bool.and_false] at hheld
    refine ⟨.refl hsound process, ⟨fun hwaiting => (by cases hwaiting), fun _ => hat.idle hphase,
      by simpa [Phase.locked] using hheld, le_rfl⟩, fun other _ => ?_⟩
    exact ⟨id, Or.inl ⟨rfl, .refl other s'.locks, fun _ => rfl⟩⟩
  · have hheld := hat.lock
    simp only [hphase, Phase.locked, Bool.and_false] at hheld
    have hunused : Unused process s.disk.volume := by
      have hfacts := hat.facts hruns
      rw [hphase] at hfacts
      exact hfacts
    have hruns' : ({ here with phase := .checking } : Process).runs s.boot = true := by
      have hboot := (Bool.and_eq_true_iff.mp hruns).1
      simpa [Process.runs, Phase.over] using hboot
    refine ⟨.refl hsound process, ⟨fun hchecking => (by cases hchecking), fun _ => hunused, ?_,
      hat.boot⟩, fun other hother => ?_⟩
    · simp only [hruns', Phase.locked, Bool.and_true]
      exact hheld.acquire hlock
    · exact ⟨id, Or.inl ⟨rfl, untouched_acquire hother hlock, fun _ => rfl⟩⟩
  · have hresult : s' = (settle s here disk after).1 ∧ here' = (settle s here disk after).2 :=
      ⟨congrArg Prod.fst hsettle, congrArg Prod.snd hsettle⟩
    obtain ⟨rfl, rfl⟩ := hresult
    rcases hstep with ⟨rfl, hend⟩ | hadvance
    · have hover : after.over = true := by
        rcases hend with rfl | ⟨_, rfl⟩ <;> rfl
      refine ⟨.refl hsound process, hat.settle hruns (over_not_idle hover) (fun _ => hover)
        (facts_of_over hover), fun other hother => ?_⟩
      exact rely_settle hother hat hruns (fun _ => rfl) id
    · have hleads := leads_advance hbefore hsound (hat.facts hruns) hadvance
      refine ⟨hleads.1, hat.settle hruns (advance_not_idle hadvance)
        (fun hunlocked => advance_unlocked hunlocked hadvance) hleads.2, fun other hother => ?_⟩
      exact rely_settle hother hat hruns (fun hunlocked => advance_unlocked_disk hunlocked hadvance)
        (hleads.1.unused other hother)

theorem opening_drift {change : Drift} (hsound : Sound sha256 before s.disk.volume)
    (h : drift change s = some s') :
    Sound sha256 before s'.disk.volume ∧ (∀ process, Rely process s s') ∧
      ∀ folder, Kept s.disk.volume folder → Kept s'.disk.volume folder ∧
        Volume.SameFolder folder s.disk.volume s'.disk.volume := by
  cases change with
  | edit artifact data =>
      cases h
      exact ⟨hsound, fun other => ⟨id, Or.inl ⟨rfl, .refl other s.locks, fun _ => rfl⟩⟩,
        fun folder hkept => ⟨hkept, .refl folder _⟩⟩
  | losePower back torn databaseBack =>
      cases h
      exact ⟨hsound.losePower back torn,
        fun _ => ⟨fun hunused => hunused.losePower back torn,
          Or.inr ⟨Nat.lt_succ_self s.boot, rfl⟩⟩,
        fun _ hkept => hkept.losePower hsound back torn⟩

end Program

section Runs

variable {sha256 : Content → String} {before : Disk}

theorem Before.candidates (h : Before before) {entries : Entries Name Directory Inode}
    (hentries : entries ∈ workspaceCandidates before) :
    entries = (before.directory .workspace).now :=
  Slot.eq_now_of_flushed h.flushed hentries

theorem Before.sound (h : Before before) : Sound sha256 before before where
  rooted := fun entries hentries name hlookup => by
    rw [h.candidates hentries] at hlookup
    obtain ⟨number, hnumber⟩ := h.folders name _ hlookup
    cases hnumber
  tree := fun entries hentries => by
    rw [h.candidates hentries]
    exact h.tree
  apart := fun tag folder hlook entries hentries name hname hlookup => by
    rw [h.candidates hentries] at hlookup
    rw [h.tree _ _ folder hlookup hlook] at hname
    cases hname
  kept := fun entries hentries name hname folder hlookup => by
    rw [h.candidates hentries] at hlookup
    obtain ⟨number, rfl⟩ := h.folders name folder hlookup
    exact ⟨h.kept name _ hname hlookup, .refl _ before⟩
  origin := fun entries hentries node hlookup => by
    rw [h.candidates hentries] at hlookup
    exact Or.inr hlookup

theorem Before.unused (h : Before before) (process : ℕ) : Unused process before where
  folder := fun entries hentries name hlookup => by
    rw [h.candidates hentries] at hlookup
    obtain ⟨number, hnumber⟩ := h.folders name _ hlookup
    cases hnumber
  name := fun entries hentries => by
    rw [h.candidates hentries]
    exact (h.drawn process).1
  empty := h.staged process
  aside := fun entries hentries => by
    rw [h.candidates hentries]
    exact (h.drawn process).2

variable {s s' : State ℕ Shared Process}

/-- The disk is sound in every state, and so is what each process knows. -/
theorem opening_sound (hbefore : Before before) (h : (openingRuns sha256 before).Reachable s) :
    Sound sha256 before s.shared.disk.volume ∧
      ∀ process, At sha256 process s.shared (s.locals process) := by
  refine invariant (fun s => Sound sha256 before s.disk.volume) (At sha256) Rely ?_ ?_ ?_ ?_
    (reachable_onSteps h)
  · intro s hinit
    obtain ⟨hlocals, hboot, hlocks, hdisk⟩ := hinit
    rw [hdisk]
    refine ⟨hbefore.sound, fun process => ?_⟩
    have hunused : Unused process s.shared.disk.volume := by
      rw [hdisk]
      exact hbefore.unused process
    rw [hlocals]
    refine ⟨fun _ => hunused, fun _ => hunused, ?_, Nat.zero_le _⟩
    simpa [Phase.locked, hlocks] using held_free process
  · intro process action shared here shared' here' hsound hat hstep _
    have hresult := opening_act hbefore hsound hat hstep
    exact ⟨hresult.1.sound, hresult.2⟩
  · intro change shared shared' hsound hstep _
    have hresult := opening_drift hsound hstep
    exact ⟨hresult.1, hresult.2.1⟩
  · intro process shared shared' here _ hat hrely
    exact hat.stable hrely

/-- Whatever fails, stops or loses its power, a bundle under its name is one that a process
published whole, or the one that was there before, as it was. -/
theorem published_bundle_whole (hbefore : Before before)
    (h : (openingRuns sha256 before).Reachable s) {bundle : Node Directory Inode}
    (hbundle : s.shared.disk.volume.look .workspace .bundle = some bundle) :
    (∃ process files, bundle = .folder (.staged process) ∧
      Published sha256 process files s.shared.disk.volume ∧
      bundleVerifies sha256 s.shared.disk.volume bundle = true) ∨
    (before.look .workspace .bundle = some bundle ∧
      ∀ folder, bundle = .folder folder →
        Volume.SameFolder folder before s.shared.disk.volume) := by
  have hsound := (opening_sound hbefore h).1
  have hnow := now_mem_candidates s.shared.disk.volume
  rcases hsound.origin _ hnow bundle hbundle with ⟨process, rfl⟩ | hold
  · obtain ⟨files, hfiles⟩ := (hsound.kept _ hnow .bundle rfl _ hbundle).2
    exact Or.inl ⟨process, files, rfl, hfiles, hfiles.verifies⟩
  · refine Or.inr ⟨hold, ?_⟩
    rintro folder rfl
    obtain ⟨number, rfl⟩ := hbefore.folders .bundle folder hold
    exact (hsound.kept _ hnow .bundle rfl _ hbundle).2

/-- No load fails on the bundle when none would have failed on the one that was there before. -/
theorem verifyRecoveryBundle_kept (hbefore : Before before)
    (h : (openingRuns sha256 before).Reachable s)
    (hverified : verifyRecoveryBundle sha256 before = true) :
    verifyRecoveryBundle sha256 s.shared.disk.volume = true := by
  unfold verifyRecoveryBundle at hverified ⊢
  rw [Option.all_eq_true] at hverified ⊢
  intro bundle hbundle
  rcases published_bundle_whole hbefore h hbundle with ⟨_, _, _, _, hverifies⟩ | ⟨hold, hsame⟩
  · exact hverifies
  · have hverifies := hverified bundle hold
    cases bundle with
    | file file => cases hverifies
    | folder folder => rw [bundleVerifies_same (hsame folder rfl)]; exact hverifies

/-- A bundle that no loss of power takes away is never lost, nor is anything in it changed: it
keeps its name, or one beside it. -/
theorem bundle_never_lost (hbefore : Before before)
    (h : (openingRuns sha256 before).Reachable s)
    (hrun : (runsFrom (opening sha256) s).Reachable s') {folder : Directory}
    (hkept : Kept s.shared.disk.volume folder) :
    Kept s'.shared.disk.volume folder ∧
      Volume.SameFolder folder s.shared.disk.volume s'.shared.disk.volume := by
  have hstart := opening_sound hbefore h
  refine (invariant (fun s' => Sound sha256 before s'.disk.volume ∧ Kept s'.disk.volume folder ∧
    Volume.SameFolder folder s.shared.disk.volume s'.disk.volume) (At sha256) Rely ?_ ?_ ?_ ?_
    (reachable_onSteps hrun)).1.2
  · rintro s' rfl
    exact ⟨⟨hstart.1, hkept, .refl folder _⟩, hstart.2⟩
  · intro process action shared here shared' here' hinv hat hstep _
    have hresult := opening_act hbefore hinv.1 hat hstep
    have hfolder := hresult.1.kept folder hinv.2.1
    exact ⟨⟨hresult.1.sound, hfolder.1, hinv.2.2.trans hfolder.2⟩, hresult.2⟩
  · intro change shared shared' hinv hstep _
    have hresult := opening_drift hinv.1 hstep
    have hfolder := hresult.2.2 folder hinv.2.1
    exact ⟨⟨hresult.1, hfolder.1, hinv.2.2.trans hfolder.2⟩, hresult.2.1⟩
  · intro process shared shared' here _ hat hrely
    exact hat.stable hrely

end Runs

/-- The hash of the one legacy file below. -/
def sampleHash : Content → String
  | .bytes [123, 125] => "44136fa355b3678a1146ad16f7e8649e94fb4fc21fe77e8310c060f61caaff8a"
  | _ => ""

def sampleEntries : Directory → Entries Name Directory Inode
  | .workspace => (∅ : Entries Name Directory Inode).insert .bundle (.folder (.earlier 0))
  | .earlier 0 =>
      (∅ : Entries Name Directory Inode).insert (.artifact .session) (.file (.earlier 0))
  | _ => ∅

/-- An earlier build stopped before it wrote a manifest. -/
def incompleteBundle : Disk :=
  { directory := fun directory => ⟨sampleEntries directory, []⟩
    contents := fun _ => .bytes [123]
    flushed := fun _ => true }

theorem look_incompleteBundle {name : Name} {node : Node Directory Inode}
    (h : incompleteBundle.look .workspace name = some node) :
    name = .bundle ∧ node = .folder (.earlier 0) := by
  have hlookup : ((∅ : Entries Name Directory Inode).insert .bundle
      (.folder (.earlier 0))).lookup name = some node := h
  rw [Volume.lookup_insert] at hlookup
  split at hlookup
  · next hname => exact ⟨hname, (Option.some.inj hlookup).symm⟩
  · simp at hlookup

theorem incompleteBundle_before : Before incompleteBundle where
  flushed := rfl
  tree := fun _ _ _ hname hname' =>
    (look_incompleteBundle hname).1.trans (look_incompleteBundle hname').1.symm
  folders := fun name folder hlook => by
    have hfolder := (look_incompleteBundle hlook).2
    exact ⟨0, by simpa using hfolder⟩
  files := fun number file hfile => by
    obtain ⟨name, hlook⟩ := hfile
    cases number with
    | zero =>
        have hlookup : ((∅ : Entries Name Directory Inode).insert (.artifact .session)
            (.file (.earlier 0))).lookup name = some (.file file) := hlook
        rw [Volume.lookup_insert] at hlookup
        split at hlookup
        · exact ⟨0, by simpa [eq_comm] using hlookup⟩
        · simp at hlookup
    | succ number => simp [Volume.look, incompleteBundle, sampleEntries] at hlook
  drawn := fun process => by
    constructor
    · exact Option.eq_none_iff_forall_ne_some.mpr fun node hlook => by
        cases (look_incompleteBundle hlook).1
    · exact Option.eq_none_iff_forall_ne_some.mpr fun node hlook => by
        cases (look_incompleteBundle hlook).1
  staged := fun _ => rfl
  kept := fun name folder _ hlook => ⟨rfl, fun _ _ => rfl⟩

def sampleMachine : State ℕ Shared Process :=
  { shared :=
      { inputs := fun artifact => if artifact = .session then some [123, 125] else none
        disk := { volume := incompleteBundle } }
    locals := fun _ => {} }

def steps (process : ℕ) (actions : List Action) : List (Label ℕ Action Drift) :=
  actions.map fun action => .act process action

/-- The first process sets the bundle aside and loses its power in the copy; the second one sweeps
its staging directory away and imports. -/
def sampleRun : List (Label ℕ Action Drift) :=
  steps 0 ([.start] ++ List.replicate 7 .step ++ [.piece 1]) ++
    [.drift (.losePower (fun _ => 0) (fun _ => .bytes []) 0)] ++
    steps 1 ([.start] ++ List.replicate 2 .step ++
      [.leftover (.drawn 0), .unlink (.artifact .session)] ++ List.replicate 5 .step ++
      [.piece 1, .piece 1] ++ List.replicate 5 .step ++ [.flushBuffer [123]] ++
      List.replicate 8 .step)

theorem sample_published :
    (runUnder (opening sampleHash) (fun _ _ => True) (fun _ => True) sampleMachine sampleRun).map
      (fun machine => machine.shared.disk.volume.look .workspace .bundle) =
      some (some (.folder (.staged 1))) := by
  decide +kernel

theorem sampleMachine_reachable
    (ok : TransitionSystem.StepCondition (State ℕ Shared Process) (Label ℕ Action Drift)) :
    (openingRuns sampleHash incompleteBundle).ReachableUnder ok sampleMachine :=
  .start ⟨rfl, rfl, rfl, rfl⟩

theorem published_bundle_whole_import : ∃ machine : State ℕ Shared Process,
    machine.shared.disk.volume.look .workspace .bundle = some (.folder (.staged 1)) ∧
    ∃ files, Published sampleHash 1 files machine.shared.disk.volume := by
  obtain ⟨machine, hmachine, hbundle⟩ := Option.map_eq_some_iff.mp sample_published
  have hreached := (reachable_runUnder (sampleMachine_reachable _) hmachine).reachable
  refine ⟨machine, hbundle, ?_⟩
  rcases published_bundle_whole incompleteBundle_before hreached hbundle with
    ⟨process, files, hprocess, hfiles, _⟩ | ⟨hold, _⟩
  · cases hprocess
    exact ⟨files, hfiles⟩
  · cases (look_incompleteBundle hold).2

/-- The incomplete bundle is still there when the other has its name, as it was. -/
theorem bundle_never_lost_import : ∃ machine : State ℕ Shared Process,
    machine.shared.disk.volume.look .workspace .bundle = some (.folder (.staged 1)) ∧
    Kept machine.shared.disk.volume (.earlier 0) ∧
    Volume.SameFolder (.earlier 0) incompleteBundle machine.shared.disk.volume := by
  obtain ⟨machine, hmachine, hbundle⟩ := Option.map_eq_some_iff.mp sample_published
  have hkept : Kept incompleteBundle (.earlier 0) := by
    intro entries hentries
    rw [incompleteBundle_before.candidates hentries]
    exact ⟨.bundle, rfl, rfl⟩
  refine ⟨machine, hbundle, ?_⟩
  exact bundle_never_lost incompleteBundle_before
    (sampleMachine_reachable TransitionSystem.anyStep)
    (reachable_runUnder (reachable_self _) hmachine).reachable hkept

end GhAddressCr.RecoveryBundle
