import GhAddressCr.Leases
import GhAddressCr.TransitionSystem

/-!
# Active leases do not conflict

Conflicts are looked for only when a lease is claimed. Afterwards a lease keeps its item,
agent, role and keys and can only leave the active statuses, so a pair that was free of
conflict stays so.
-/
namespace GhAddressCr

open PyText

@[simp] theorem appendLeaseEvent_leases (s : Session) (l : Lease) (e : String) (now : Int)
    (reason : Option String) : (appendLeaseEvent s l e now reason).leases = s.leases := rfl

@[simp] theorem appendLeaseRecoveryEvent_leases (s : Session) (r : LeaseRecoveryState)
    (now : Int) : (appendLeaseRecoveryEvent s r now).leases = s.leases := rfl

@[simp] theorem returnExpiredItemsToOpen_leases (s : Session) (expired : List Lease) :
    (returnExpiredItemsToOpen s expired).leases = s.leases := by
  unfold returnExpiredItemsToOpen
  induction expired generalizing s with
  | nil => rfl
  | cons l expired ih =>
      rw [List.foldl_cons, ih]
      split
      · split <;> rfl
      · rfl

@[simp] theorem openClaimedItem_leases (s : Session) (l : Lease) :
    (openClaimedItem s l).leases = s.leases := by
  unfold openClaimedItem
  split
  · dsimp only
    split <;> rfl
  · rfl

@[simp] theorem expireLease_leases (s : Session) (key : String) (l : Lease) (now : Int) :
    (expireLease s key l now).leases = s.leases.insert key (expiredLease l now) := by
  simp [expireLease]

/-- What a claim compares: the item, the holder and the keys of a lease. -/
def Lease.terms (l : Lease) : String × String × AgentRole × List String :=
  (l.itemId, l.agentId, l.role, l.conflictKeys)

/-- Every active lease of the second session was active, on the same terms, in the first. -/
def NoNewClaims (s s' : Session) : Prop :=
  ∀ (key : String) (l' : Lease), s'.leases[key]? = some l' → l'.isActive →
    ∃ l : Lease, s.leases[key]? = some l ∧ l.isActive ∧ l'.terms = l.terms

theorem NoNewClaims.refl (s : Session) : NoNewClaims s s :=
  fun _ l h ha => ⟨l, h, ha, rfl⟩

theorem NoNewClaims.trans {s s' s'' : Session} (h : NoNewClaims s s') (h' : NoNewClaims s' s'') :
    NoNewClaims s s'' := by
  intro key l'' hl'' ha''
  obtain ⟨l', hl', ha', ht'⟩ := h' key l'' hl'' ha''
  obtain ⟨l, hl, ha, ht⟩ := h key l' hl' ha'
  exact ⟨l, hl, ha, ht'.trans ht⟩

/-- Writing back a lease on its own terms makes no claim. -/
theorem NoNewClaims.insert {s s' : Session} {key : String} {l l' : Lease}
    (hs : s'.leases = s.leases.insert key l') (hl : s.leases[key]? = some l)
    (ha : l'.isActive → l.isActive) (ht : l'.terms = l.terms) : NoNewClaims s s' := by
  intro other m hm hma
  rw [hs, Std.ExtTreeMap.getElem?_insert] at hm
  by_cases hk : key = other
  · subst hk
    simp only [Std.compare_self, if_true, Option.some.injEq] at hm
    subst hm
    exact ⟨l, hl, ha hma, ht⟩
  · simp only [Std.compare_eq_iff_eq, hk, if_false] at hm
    exact ⟨m, hm, hma, rfl⟩

/-- Ending a lease makes no claim, whatever was held under its key. -/
theorem NoNewClaims.insert_inactive {s s' : Session} {key : String} {l' : Lease}
    (hs : s'.leases = s.leases.insert key l') (ha : l'.isActive = false) : NoNewClaims s s' := by
  intro other m hm hma
  rw [hs, Std.ExtTreeMap.getElem?_insert] at hm
  by_cases hk : key = other
  · subst hk
    simp only [Std.compare_self, if_true, Option.some.injEq] at hm
    subst hm
    simp [ha] at hma
  · simp only [Std.compare_eq_iff_eq, hk, if_false] at hm
    exact ⟨m, hm, hma, rfl⟩

theorem expireLease_noNewClaims (s : Session) (key : String) (l : Lease) (now : Int) :
    NoNewClaims s (expireLease s key l now) :=
  .insert_inactive (expireLease_leases s key l now) rfl

theorem expireLeases_noNewClaims (s : Session) (now : Int) :
    NoNewClaims s (expireLeases s now).1 := by
  have key : ∀ (rows : List (String × Lease)) (acc : Session × List Lease),
      NoNewClaims acc.1 (rows.foldl (expireLeaseIfDue now) acc).1 := by
    intro rows
    induction rows with
    | nil => exact fun acc => .refl acc.1
    | cons row rows ih =>
        intro acc
        refine .trans ?_ (ih _)
        unfold expireLeaseIfDue
        split
        · exact expireLease_noNewClaims _ _ _ _
        · exact .refl _
  exact key _ (s, [])

theorem submitLease_noNewClaims (s : Session) (leaseId : String) (args : SubmitArgs) :
    NoNewClaims s (submitLease s leaseId args).1 := by
  have raised : ∀ code detail lease,
      NoNewClaims s (raiseSubmissionError s code detail lease args).1 :=
    fun _ _ _ => .refl s
  unfold submitLease
  split
  · exact .refl s
  · rename_i lease hl
    split_ifs with h₁ h₂ h₃ h₄ h₅ h₆ h₇
    · exact raised _ _ _
    · exact raised _ _ _
    · exact raised _ _ _
    · exact raised _ _ _
    · exact raised _ _ _
    · exact expireLease_noNewClaims _ _ _ _
    · exact raised _ _ _
    · refine .insert (l := lease) rfl hl (fun _ => ?_) rfl
      rw [Lease.isActive, not_not.mp h₂]
      rfl

theorem acceptLease_noNewClaims (s : Session) (leaseId : String) (now : Int) :
    NoNewClaims s (acceptLease s leaseId now).1 := by
  unfold acceptLease
  split
  · exact .refl s
  · split_ifs
    · exact .refl s
    · exact .insert_inactive rfl rfl

theorem releaseLease_noNewClaims (s : Session) (leaseId : String) (now : Int)
    (reason : Option String) : NoNewClaims s (releaseLease s leaseId now reason).1 := by
  unfold releaseLease
  split
  · exact .refl s
  · split_ifs
    · exact .refl s
    · exact .insert_inactive rfl rfl

theorem releaseClaimedLease_noNewClaims (s : Session) (leaseId : String) (now : Int)
    (reason : String) : NoNewClaims s (releaseClaimedLease s leaseId now reason).1 := by
  have h := releaseLease_noNewClaims s leaseId now (some reason)
  unfold releaseClaimedLease
  split
  · exact .refl s
  · split_ifs
    · exact .refl s
    · split
      · rename_i session released heq
        rw [heq] at h
        intro key l' hl'
        rw [returnExpiredItemsToOpen_leases] at hl'
        exact h key l' hl'
      · rename_i session error heq
        rw [heq] at h
        exact h

/-- A way to read a key as the hunk of a path, from one line to another. -/
abbrev HunkReading := String → String → Nat → Nat → Prop

def IsNumeral (cs : List Char) (n : Nat) : Prop :=
  cs ≠ [] ∧ (∀ c ∈ cs, IsAsciiDigit c) ∧ numeralValue cs = n

/-- `key` is the text `hunk:path:a-b`, the two ends in decimal. -/
def NamesHunk : HunkReading := fun key path a b =>
  ∃ as bs, IsNumeral as a ∧ IsNumeral bs b ∧
    key = "hunk:" ++ path ++ ":" ++ String.ofList as ++ "-" ++ String.ofList bs

/-- `key` is the text `hunk:path:a-b` for line numbers from 1 on that the interpreter
converts. -/
def NamesLines : HunkReading := fun key path a b =>
  0 < a ∧ 0 < b ∧ ∃ as bs, IsNumeral as a ∧ IsNumeral bs b ∧
    as.length ≤ maxIntDigits ∧ bs.length ≤ maxIntDigits ∧
    key = "hunk:" ++ path ++ ":" ++ String.ofList as ++ "-" ++ String.ofList bs

/-- The lease claims this line of the path. -/
def ClaimsLine (names : HunkReading) (l : Lease) (path : String) (line : Nat) : Prop :=
  ∃ key ∈ l.conflictKeys, ∃ a b, names key path a b ∧ a ≤ line ∧ line ≤ b

/-- The lease claims some hunk of the path. -/
def ClaimsHunkOf (names : HunkReading) (l : Lease) (path : String) : Prop :=
  ∃ key ∈ l.conflictKeys, ∃ a b, names key path a b

/-- The lease claims the whole path. -/
def ClaimsFile (l : Lease) (path : String) : Prop := "file:" ++ path ∈ l.conflictKeys

/-- The two leases claim nothing in common. -/
structure Disjoint (names : HunkReading) (l l' : Lease) : Prop where
  keys : ∀ key ∈ l.conflictKeys, key ∉ l'.conflictKeys
  lines : ∀ path line, ClaimsLine names l path line → ¬ ClaimsLine names l' path line
  file_hunk : ∀ path, ClaimsFile l path → ¬ ClaimsHunkOf names l' path
  hunk_file : ∀ path, ClaimsHunkOf names l path → ¬ ClaimsFile l' path

theorem Disjoint.symm {names : HunkReading} {l l' : Lease} (h : Disjoint names l l') :
    Disjoint names l' l where
  keys key hk hk' := h.keys key hk' hk
  lines path line hl hl' := h.lines path line hl' hl
  file_hunk path hf hh := h.hunk_file path hh hf
  hunk_file path hh hf := h.file_hunk path hf hh

theorem coercePositiveInt_numeral {cs : List Char} {n : Nat} (h : IsNumeral cs n) (hn : 0 < n)
    (hlen : cs.length ≤ maxIntDigits) : coercePositiveInt (.str (String.ofList cs)) = some n := by
  obtain ⟨hne, hd, rfl⟩ := h
  simp [coercePositiveInt, Value.toInt?, parseInt_numeral hne hd hlen, hn]

theorem IsNumeral.not_mem {cs : List Char} {n : Nat} (h : IsNumeral cs n) {c : Char}
    (hc : ¬ IsAsciiDigit c) : c ∉ cs :=
  fun hm => hc (h.2.1 c hm)

/-- The parser reads every key the text form allows. -/
theorem parseHunkKey_of_namesLines {key path : String} {a b : Nat}
    (h : NamesLines key path a b) : parseHunkKey key = some (path, a, b) := by
  obtain ⟨ha, hb, as, bs, has, hbs, hla, hlb, rfl⟩ := h
  have hcolon : ':' ∉ as ++ '-' :: bs := by
    simp [has.not_mem (c := ':') (by decide), hbs.not_mem (c := ':') (by decide)]
  have hdash : '-' ∉ as := has.not_mem (by decide)
  have hkey : ("hunk:" ++ path ++ ":" ++ String.ofList as ++ "-" ++ String.ofList bs).toList =
      "hunk:".toList ++ (path.toList ++ ':' :: (as ++ '-' :: bs)) := by
    simp
  rw [parseHunkKey, hkey, dropPrefix?_append]
  simp only [rpartition_append _ hcolon, partition_append hdash,
    coercePositiveInt_numeral has ha hla, coercePositiveInt_numeral hbs hb hlb,
    String.ofList_toList]

theorem mem_filePaths {keys : List String} {path : String} (h : "file:" ++ path ∈ keys) :
    path ∈ filePaths keys := by
  have hd : dropPrefix? "file:".toList ("file:" ++ path).toList = some path.toList := by
    rw [String.toList_append, dropPrefix?_append]
  refine List.mem_map.mpr ⟨"file:" ++ path, List.mem_filter.mpr ⟨h, ?_⟩, ?_⟩
  · simp only [startsWith, hd, Option.isSome_some]
  · simp only [removePrefix, hd, String.ofList_toList]

/-- Where a claim finds no overlap, the two leases claim nothing in common. -/
theorem disjoint_of_conflictOverlap_eq_nil {l existing : Lease}
    (h : conflictOverlap l.conflictKeys existing = []) : Disjoint NamesLines l existing := by
  simp only [conflictOverlap, hunkOverlap, List.append_eq_nil_iff] at h
  obtain ⟨hshared, ⟨hnew, hold⟩, hhunks⟩ := h
  have hfile : ∀ {keys other path}, hunksOfFiles keys (filePaths other) = [] →
      "file:" ++ path ∈ other → ∀ key ∈ keys, ∀ a b, ¬ NamesLines key path a b := by
    intro keys other path hnil hf key hk a b hn
    have hmem : key ∈ hunksOfFiles keys (filePaths other) := by
      refine List.mem_filter.mpr ⟨hk, ?_⟩
      simp [parseHunkKey_of_namesLines hn, mem_filePaths hf]
    simp [hnil] at hmem
  refine ⟨?_, ?_, ?_, ?_⟩
  · intro key hk hk'
    have hmem : key ∈ l.conflictKeys.filter existing.conflictKeys.contains := by
      simp [hk, hk']
    simp [hshared] at hmem
  · rintro path line ⟨key, hk, a, b, hn, hal, hlb⟩ ⟨key', hk', a', b', hn', hal', hlb'⟩
    have hcommon : hunkIntersection (path, a, b) (path, a', b') ≠ none := by
      rw [hunkIntersection, if_pos ⟨rfl, le_trans hal hlb', le_trans hal' hlb⟩]
      simp
    rw [List.flatMap_eq_nil_iff] at hhunks
    have hinner := hhunks (path, a, b)
      (List.mem_filterMap.mpr ⟨key, hk, parseHunkKey_of_namesLines hn⟩)
    rw [List.filterMap_eq_nil_iff] at hinner
    exact hcommon (hinner (path, a', b')
      (List.mem_filterMap.mpr ⟨key', hk', parseHunkKey_of_namesLines hn'⟩))
  · rintro path hf ⟨key, hk, a, b, hn⟩
    exact hfile hold hf key hk a b hn
  · rintro path ⟨key, hk, a, b, hn⟩ hf
    exact hfile hnew hf key hk a b hn

/-- The check of a claim passed against an existing lease. -/
def Admits (existing l : Lease) (args : ClaimArgs) : Prop :=
  existing.itemId ≠ l.itemId ∧
    (conflictOverlap l.conflictKeys existing = [] ∨
      (isReadOnlyRole l.role.value ∧ isReadOnlyRole existing.role.value) ∨
      sameAgentGithubThreadFileOverlapAllowed existing args
        (conflictOverlap l.conflictKeys existing))

theorem admits_of_claimConflict?_eq_none {existing l : Lease} {args : ClaimArgs}
    (ha : existing.isActive) (hrole : l.role.value = args.role)
    (h : claimConflict? l.itemId l.conflictKeys args existing = none) :
    Admits existing l args := by
  unfold claimConflict? at h
  simp only [ha, Bool.not_true, Bool.false_eq_true, if_false] at h
  split_ifs at h with hitem hconflict
  refine ⟨hitem, ?_⟩
  rw [hrole]
  by_cases hempty : conflictOverlap l.conflictKeys existing = []
  · exact .inl hempty
  · by_cases hread : isReadOnlyRole args.role ∧ isReadOnlyRole existing.role.value
    · exact .inr (.inl hread)
    · refine .inr (.inr ?_)
      by_contra hallowed
      apply hconflict
      have hread' :
          (isReadOnlyRole args.role && isReadOnlyRole existing.role.value) = false := by
        simpa using hread
      simp only [hread', Bool.not_false, Bool.and_true, List.isEmpty_eq_false_iff.mpr hempty,
        Bool.eq_false_iff.mpr hallowed]

/-- A granted claim adds one active lease, which every active lease of the session after
expiry admits. -/
theorem claimLease_ok {s s' : Session} {item : Dict} {args : ClaimArgs} {l : Lease}
    (h : claimLease s item args = (s', .ok l)) :
    l.isActive ∧ l.agentId = args.agentId ∧ l.role.value = args.role ∧
      s'.leases = (expireLeases s args.now).1.leases.insert l.leaseId l ∧
      ∀ (key : String) (existing : Lease),
        (expireLeases s args.now).1.leases[key]? = some existing → existing.isActive →
          Admits existing l args := by
  unfold claimLease at h
  dsimp only at h
  split_ifs at h
  · simp at h
  · split at h
    · simp at h
    · split at h
      · simp at h
      · rename_i keys _ _ hnone
        split at h
        · simp at h
        · rename_i role hrole
          simp only [Prod.mk.injEq, Except.ok.injEq] at h
          obtain ⟨rfl, rfl⟩ := h
          have hvalue : role.value = args.role := AgentRole.parse_eq_some.mp hrole
          refine ⟨rfl, rfl, hvalue, rfl, ?_⟩
          intro key existing hex ha
          have hmem : (key, existing) ∈ (expireLeases s args.now).1.leases.toList :=
            Std.ExtTreeMap.mem_toList_iff_getElem?_eq_some.mpr hex
          rw [List.findSome?_eq_none_iff] at hnone
          exact admits_of_claimConflict?_eq_none ha hvalue (hnone _ hmem)

theorem claimLease_error {s s' : Session} {item : Dict} {args : ClaimArgs} {e : LeaseError}
    (h : claimLease s item args = (s', .error e)) : NoNewClaims s s' := by
  have hexpire := expireLeases_noNewClaims s args.now
  unfold claimLease at h
  dsimp only at h
  split_ifs at h
  · cases h; exact hexpire
  · split at h
    · cases h; exact hexpire
    · split at h
      · cases h; exact hexpire
      · split at h
        · cases h; exact hexpire
        · simp at h

/-- When a lease was granted, and whether with the same-agent flag. -/
structure Grant where
  serial : Nat
  allowSameAgentOverlap : Bool
  deriving DecidableEq

/-- A session in use, with the time of its last operation and the grants made so far. -/
structure LeaseRun where
  session : Session
  now : Int
  grants : Rows Grant
  granted : Nat

inductive LeaseOp where
  | claim (item : Dict) (args : ClaimArgs)
  | reclaim (item : Dict) (args : ClaimArgs)
  | submit (leaseId : String) (args : SubmitArgs)
  | accept (leaseId : String) (now : Int)
  | release (leaseId : String) (now : Int) (reason : Option String)
  | releaseClaimed (leaseId : String) (now : Int) (reason : String)
  | expire (now : Int)

namespace LeaseOp

def now : LeaseOp → Int
  | .claim _ args => args.now
  | .reclaim _ args => args.now
  | .submit _ args => args.now
  | .accept _ now => now
  | .release _ now _ => now
  | .releaseClaimed _ now _ => now
  | .expire now => now

/-- The session after a claim, with the grant it made. -/
def recordClaim (r : LeaseRun) (allow : Bool) :
    Session × Except LeaseError Lease → LeaseRun
  | (session, .ok lease) =>
      { r with
        session
        grants := r.grants.insert lease.leaseId ⟨r.granted, allow⟩
        granted := r.granted + 1 }
  | (session, .error _) => { r with session }

def apply (op : LeaseOp) (r : LeaseRun) : LeaseRun :=
  let r := { r with now := op.now }
  match op with
  | .claim item args =>
      recordClaim r args.allowSameAgentGithubThreadFileOverlap (claimLease r.session item args)
  | .reclaim item args => recordClaim r false (reclaimLease r.session item args)
  | .submit leaseId args => { r with session := (submitLease r.session leaseId args).1 }
  | .accept leaseId now => { r with session := (acceptLease r.session leaseId now).1 }
  | .release leaseId now reason =>
      { r with session := (releaseLease r.session leaseId now reason).1 }
  | .releaseClaimed leaseId now reason =>
      { r with session := (releaseClaimedLease r.session leaseId now reason).1 }
  | .expire now => { r with session := (expireLeases r.session now).1 }

end LeaseOp

/-- Runs of lease operations at times that never go back, from a session without leases. -/
def leaseSystem : TransitionSystem LeaseRun LeaseOp where
  init r := r.session.leases = ∅ ∧ r.grants = ∅ ∧ r.granted = 0
  step r op r' := r.now ≤ op.now ∧ r' = op.apply r

/-- Two fixer leases of one agent, the later granted with the same-agent flag, that share
only file and hunk keys, where the earlier one holds a GitHub thread. -/
structure FixerExempt (r : LeaseRun) (key : String) (earlier : Lease) (key' : String)
    (later : Lease) : Prop where
  earlier_role : earlier.role = .fixer
  later_role : later.role = .fixer
  agent : earlier.agentId = later.agentId
  granted : ∃ g g', r.grants[key]? = some g ∧ r.grants[key']? = some g' ∧
    g.serial < g'.serial ∧ g'.allowSameAgentOverlap
  shared : ∀ k ∈ earlier.conflictKeys, k ∈ later.conflictKeys →
    startsWith k "file:" ∨ startsWith k "hunk:"
  thread : holdsGithubThread earlier

/-- The pairs that may overlap. -/
def Exempt (r : LeaseRun) (key : String) (l : Lease) (key' : String) (l' : Lease) : Prop :=
  (isReadOnlyRole l.role.value ∧ isReadOnlyRole l'.role.value) ∨
    FixerExempt r key l key' l' ∨ FixerExempt r key' l' key l

/-- Any two active leases are on different items and, unless exempt, claim nothing in
common. -/
def ConflictFree (names : HunkReading) (r : LeaseRun) : Prop :=
  ∀ (key key' : String) (l l' : Lease), key ≠ key' → r.session.leases[key]? = some l →
    r.session.leases[key']? = some l' → l.isActive → l'.isActive →
    l.itemId ≠ l'.itemId ∧ (Exempt r key l key' l' ∨ Disjoint names l l')

/-- What a run keeps: freedom from conflict, and a grant on record for every active lease. -/
structure LeaseInvariant (r : LeaseRun) : Prop where
  free : ConflictFree NamesLines r
  granted : ∀ (key : String) (l : Lease), r.session.leases[key]? = some l → l.isActive →
    ∃ g, r.grants[key]? = some g ∧ g.serial < r.granted

theorem FixerExempt.of_terms {r r' : LeaseRun} {key key' : String} {l l' m m' : Lease}
    (h : FixerExempt r key l key' l') (hm : m.terms = l.terms) (hm' : m'.terms = l'.terms)
    (hg : r'.grants[key]? = r.grants[key]?) (hg' : r'.grants[key']? = r.grants[key']?) :
    FixerExempt r' key m key' m' := by
  simp only [Lease.terms, Prod.mk.injEq] at hm hm'
  obtain ⟨-, hagent, hrole, hkeys⟩ := hm
  obtain ⟨-, hagent', hrole', hkeys'⟩ := hm'
  refine ⟨hrole.trans h.earlier_role, hrole'.trans h.later_role, ?_, ?_, ?_, ?_⟩
  · rw [hagent, hagent', h.agent]
  · rw [hg, hg']
    exact h.granted
  · rw [hkeys, hkeys']
    exact h.shared
  · rw [holdsGithubThread, hkeys]
    exact h.thread

theorem Disjoint.of_terms {names : HunkReading} {l l' m m' : Lease} (h : Disjoint names l l')
    (hm : m.terms = l.terms) (hm' : m'.terms = l'.terms) : Disjoint names m m' := by
  simp only [Lease.terms, Prod.mk.injEq] at hm hm'
  obtain ⟨-, -, -, hkeys⟩ := hm
  obtain ⟨-, -, -, hkeys'⟩ := hm'
  constructor
  · simpa only [hkeys, hkeys'] using h.keys
  · simpa only [ClaimsLine, hkeys, hkeys'] using h.lines
  · simpa only [ClaimsFile, ClaimsHunkOf, hkeys, hkeys'] using h.file_hunk
  · simpa only [ClaimsFile, ClaimsHunkOf, hkeys, hkeys'] using h.hunk_file

theorem Exempt.of_terms {r r' : LeaseRun} {key key' : String} {l l' m m' : Lease}
    (h : Exempt r key l key' l') (hm : m.terms = l.terms) (hm' : m'.terms = l'.terms)
    (hg : r'.grants[key]? = r.grants[key]?) (hg' : r'.grants[key']? = r.grants[key']?) :
    Exempt r' key m key' m' := by
  rcases h with hread | hfixer | hfixer
  · left
    simp only [Lease.terms, Prod.mk.injEq] at hm hm'
    rw [hm.2.2.1, hm'.2.2.1]
    exact hread
  · exact .inr (.inl (hfixer.of_terms hm hm' hg hg'))
  · exact .inr (.inr (hfixer.of_terms hm' hm hg' hg))

theorem Exempt.symm {r : LeaseRun} {key key' : String} {l l' : Lease}
    (h : Exempt r key l key' l') : Exempt r key' l' key l := by
  rcases h with ⟨hl, hl'⟩ | h | h
  · exact .inl ⟨hl', hl⟩
  · exact .inr (.inr h)
  · exact .inr (.inl h)

/-- The invariant survives every change that makes no new claim and no grant. -/
theorem LeaseInvariant.of_noNewClaims {r r' : LeaseRun} (h : LeaseInvariant r)
    (hs : NoNewClaims r.session r'.session) (hg : r'.grants = r.grants)
    (hn : r'.granted = r.granted) : LeaseInvariant r' := by
  constructor
  · intro key key' l l' hne hl hl' ha ha'
    obtain ⟨m, hm, hma, ht⟩ := hs key l hl ha
    obtain ⟨m', hm', hma', ht'⟩ := hs key' l' hl' ha'
    obtain ⟨hitem, hpair⟩ := h.free key key' m m' hne hm hm' hma hma'
    have hi : l.itemId = m.itemId := congrArg Prod.fst ht
    have hi' : l'.itemId = m'.itemId := congrArg Prod.fst ht'
    refine ⟨by rwa [hi, hi'], ?_⟩
    rcases hpair with hexempt | hdisjoint
    · exact .inl (hexempt.of_terms ht ht' (by rw [hg]) (by rw [hg]))
    · exact .inr (hdisjoint.of_terms ht ht')
  · intro key l hl ha
    obtain ⟨m, hm, hma, -⟩ := hs key l hl ha
    rw [hg, hn]
    exact h.granted key m hm hma

/-- An admitted lease is exempt from, or disjoint from, the one that admits it. -/
theorem Admits.compatible {r : LeaseRun} {key key' : String} {existing l : Lease}
    {args : ClaimArgs} (h : Admits existing l args) (hagent : l.agentId = args.agentId)
    (hrole : l.role.value = args.role) {g : Grant} {serial : Nat}
    (hg : r.grants[key]? = some g) (hserial : g.serial < serial)
    (hg' : r.grants[key']? = some ⟨serial, args.allowSameAgentGithubThreadFileOverlap⟩) :
    existing.itemId ≠ l.itemId ∧
      (Exempt r key existing key' l ∨ Disjoint NamesLines existing l) := by
  refine ⟨h.1, ?_⟩
  rcases h.2 with hnil | ⟨hread, hread'⟩ | hallowed
  · exact .inr (disjoint_of_conflictOverlap_eq_nil hnil).symm
  · exact .inl (.inl ⟨hread', hread⟩)
  · simp only [sameAgentGithubThreadFileOverlapAllowed, Bool.and_eq_true, beq_iff_eq] at hallowed
    obtain ⟨⟨⟨⟨⟨⟨hallow, hfixer⟩, hsame⟩, hsameAgent⟩, -⟩, hfile⟩, hthread⟩ := hallowed
    have hl : l.role = .fixer := by
      have := AgentRole.parse_eq_some.mpr (hrole.trans hfixer)
      exact (Option.some.inj this).symm
    have he : existing.role = .fixer := by
      have := AgentRole.parse_eq_some.mpr (hsame.trans hfixer)
      exact (Option.some.inj this).symm
    refine .inl (.inr (.inl ⟨he, hl, hsameAgent.trans hagent.symm,
      ⟨g, _, hg, hg', hserial, hallow⟩, ?_, hthread⟩))
    intro k hk hk'
    have hmem : k ∈ conflictOverlap l.conflictKeys existing :=
      List.mem_append_left _ (List.mem_filter.mpr ⟨hk', by simpa using hk⟩)
    simpa using List.all_eq_true.mp hfile k hmem

/-- The invariant survives a granted claim. -/
theorem LeaseInvariant.claim {r : LeaseRun} {s' : Session} {item : Dict} {args : ClaimArgs}
    {l : Lease} (h : LeaseInvariant r) (hc : claimLease r.session item args = (s', .ok l)) :
    LeaseInvariant (LeaseOp.recordClaim r args.allowSameAgentGithubThreadFileOverlap
      (s', .ok l)) := by
  obtain ⟨ha, hagent, hrole, hleases, hadmits⟩ := claimLease_ok hc
  have hs : NoNewClaims r.session (expireLeases r.session args.now).1 :=
    expireLeases_noNewClaims _ _
  set s := (expireLeases r.session args.now).1 with hsdef
  set r' := LeaseOp.recordClaim r args.allowSameAgentGithubThreadFileOverlap (s', .ok l) with hr'
  have hnew : r'.grants[l.leaseId]? =
      some ⟨r.granted, args.allowSameAgentGithubThreadFileOverlap⟩ := by
    simp [hr', LeaseOp.recordClaim]
  have hold : ∀ key, l.leaseId ≠ key → r'.grants[key]? = r.grants[key]? := by
    intro key hne
    simp [hr', LeaseOp.recordClaim, Std.ExtTreeMap.getElem?_insert, hne]
  have hlease : ∀ key, l.leaseId ≠ key → r'.session.leases[key]? = s.leases[key]? := by
    intro key hne
    simp [hr', LeaseOp.recordClaim, hleases, Std.ExtTreeMap.getElem?_insert, hne]
  have hself : ∀ m, r'.session.leases[l.leaseId]? = some m → m = l := by
    intro m hm
    simpa [hr', LeaseOp.recordClaim, hleases, eq_comm] using hm
  have hbase : LeaseInvariant { r with session := s } := h.of_noNewClaims hs rfl rfl
  -- A pair of the new lease and an earlier one.
  have hmixed : ∀ (key : String) (m : Lease), l.leaseId ≠ key → s.leases[key]? = some m →
      m.isActive → m.itemId ≠ l.itemId ∧
        (Exempt r' key m l.leaseId l ∨ Disjoint NamesLines m l) := by
    intro key m hne hm hma
    obtain ⟨g, hg, hserial⟩ := hbase.granted key m hm hma
    exact (hadmits key m hm hma).compatible hagent hrole ((hold key hne).trans hg) hserial hnew
  constructor
  · intro key key' m m' hne hm hm' hma hma'
    by_cases hk : l.leaseId = key
    · subst hk
      obtain rfl := hself m hm
      rw [hlease key' hne] at hm'
      obtain ⟨hitem, hpair⟩ := hmixed key' m' hne hm' hma'
      exact ⟨hitem.symm, hpair.imp Exempt.symm Disjoint.symm⟩
    · rw [hlease key hk] at hm
      by_cases hk' : l.leaseId = key'
      · subst hk'
        obtain rfl := hself m' hm'
        exact hmixed key m hk hm hma
      · rw [hlease key' hk'] at hm'
        obtain ⟨hitem, hpair⟩ := hbase.free key key' m m' hne hm hm' hma hma'
        exact ⟨hitem, hpair.imp (fun hx => hx.of_terms rfl rfl (hold key hk) (hold key' hk')) id⟩
  · intro key m hm hma
    by_cases hk : l.leaseId = key
    · subst hk
      exact ⟨_, hnew, Nat.lt_succ_self _⟩
    · rw [hlease key hk] at hm
      obtain ⟨g, hg, hserial⟩ := hbase.granted key m hm hma
      exact ⟨g, (hold key hk).trans hg, Nat.lt_succ_of_lt hserial⟩

theorem LeaseInvariant.recordClaim {r : LeaseRun} (h : LeaseInvariant r) (item : Dict)
    (args : ClaimArgs) :
    LeaseInvariant (LeaseOp.recordClaim r args.allowSameAgentGithubThreadFileOverlap
      (claimLease r.session item args)) := by
  rcases hc : claimLease r.session item args with ⟨s', e | l⟩
  · exact h.of_noNewClaims (claimLease_error hc) rfl rfl
  · exact h.claim hc

/-- Each operation keeps the invariant. -/
theorem LeaseInvariant.apply {r : LeaseRun} (op : LeaseOp) (h : LeaseInvariant r) :
    LeaseInvariant (op.apply r) := by
  have htime : LeaseInvariant { r with now := op.now } := h.of_noNewClaims (.refl _) rfl rfl
  cases op with
  | claim item args => exact htime.recordClaim item args
  | reclaim item args =>
      have hexpired : LeaseInvariant
          { r with now := args.now, session := (expireLeases r.session args.now).1 } :=
        htime.of_noNewClaims (expireLeases_noNewClaims _ _) rfl rfl
      exact hexpired.recordClaim item
        { args with conflictKeys := none, allowSameAgentGithubThreadFileOverlap := false }
  | submit leaseId args =>
      exact htime.of_noNewClaims (submitLease_noNewClaims _ _ _) rfl rfl
  | accept leaseId now => exact htime.of_noNewClaims (acceptLease_noNewClaims _ _ _) rfl rfl
  | release leaseId now reason =>
      exact htime.of_noNewClaims (releaseLease_noNewClaims _ _ _ _) rfl rfl
  | releaseClaimed leaseId now reason =>
      exact htime.of_noNewClaims (releaseClaimedLease_noNewClaims _ _ _ _) rfl rfl
  | expire now => exact htime.of_noNewClaims (expireLeases_noNewClaims _ _) rfl rfl

/-- In every run the active leases are free of conflict, where hunk keys are read as line
numbers from 1 on. -/
theorem active_leases_conflictFree :
    ∀ r, leaseSystem.Reachable r → ConflictFree NamesLines r := by
  intro r hr
  refine (hr.invariant LeaseInvariant ?_ ?_).free
  · rintro s ⟨hleases, -, -⟩
    constructor
    · intro key key' l l' _ hl
      simp [hleases] at hl
    · intro key l hl
      simp [hleases] at hl
  · rintro s op s' hinv ⟨-, rfl⟩
    exact hinv.apply op

def emptyLeaseRun : LeaseRun := ⟨⟨∅, ∅, ∅, [], [], none⟩, 0, ∅, 0⟩

/-- A claim of an item that brings its own conflict key. -/
def claimWithKey (itemId key agentId leaseId : String) : LeaseOp :=
  .claim (Dict.ofFields [("item_id", .str itemId), ("conflict_keys", .list [.str key])])
    { agentId, role := "fixer", requestHash := "", leaseId, now := 0 }

/-- Two claims of one file; the hunk of the first starts at line 0, which the parser does
not read as a line. -/
def zeroLineClaims : LeaseRun :=
  (claimWithKey "b" "hunk:f.py:3-4" "y" "lease_b").apply
    ((claimWithKey "a" "hunk:f.py:0-5" "x" "lease_a").apply emptyLeaseRun)

theorem zeroLineClaims_reachable : leaseSystem.Reachable zeroLineClaims := by
  have h₀ : leaseSystem.Reachable emptyLeaseRun := .start ⟨rfl, rfl, rfl⟩
  have h₁ := h₀.next (l := claimWithKey "a" "hunk:f.py:0-5" "x" "lease_a") ⟨le_rfl, rfl⟩
  exact h₁.next (l := claimWithKey "b" "hunk:f.py:3-4" "y" "lease_b") ⟨le_rfl, rfl⟩

theorem zeroLineClaims_conflictFree : ConflictFree NamesLines zeroLineClaims :=
  active_leases_conflictFree _ zeroLineClaims_reachable

/-- Read with a line 0, hunk keys can overlap. -/
theorem zeroLineClaims_overlap :
    ¬ ∀ r, leaseSystem.Reachable r → ConflictFree NamesHunk r := by
  intro h
  have hleases : ∃ l l', zeroLineClaims.session.leases["lease_a"]? = some l ∧
      zeroLineClaims.session.leases["lease_b"]? = some l' ∧ l.isActive ∧ l'.isActive ∧
      l.role = .fixer ∧ l'.role = .fixer ∧ l.agentId ≠ l'.agentId ∧
      "hunk:f.py:0-5" ∈ l.conflictKeys ∧ "hunk:f.py:3-4" ∈ l'.conflictKeys := by
    refine ⟨_, _, rfl, rfl, ?_⟩
    decide
  obtain ⟨l, l', hl, hl', ha, ha', hrole, hrole', hagent, hkey, hkey'⟩ := hleases
  obtain ⟨-, hexempt | hdisjoint⟩ := h _ zeroLineClaims_reachable _ _ l l' (by decide) hl hl' ha ha'
  · rcases hexempt with ⟨hread, -⟩ | hfixer | hfixer
    · rw [hrole] at hread
      exact absurd hread (by decide)
    · exact hagent hfixer.agent
    · exact hagent hfixer.agent.symm
  · refine hdisjoint.lines "f.py" 3 ⟨_, hkey, 0, 5, ?_, by omega, by omega⟩
      ⟨_, hkey', 3, 4, ?_, by omega, by omega⟩
    · exact ⟨['0'], ['5'], ⟨by simp, by simp [IsAsciiDigit], rfl⟩,
        ⟨by simp, by simp [IsAsciiDigit], rfl⟩, by decide⟩
    · exact ⟨['3'], ['4'], ⟨by simp, by simp [IsAsciiDigit], rfl⟩,
        ⟨by simp, by simp [IsAsciiDigit], rfl⟩, by decide⟩

end GhAddressCr
