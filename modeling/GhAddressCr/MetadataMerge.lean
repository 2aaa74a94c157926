import GhAddressCr.SessionChanges

/-!
# Metadata merged into a commit

A command changes its own copy of the metadata and commits only what it changed. What the merge
leaves under a key is decided by that key alone: the command's outcome where the command touched
it, and what is committed elsewhere.
-/
namespace GhAddressCr

namespace MetadataDelta

/-- The metadata that a commit writes over `metadata`. -/
def merge (delta : MetadataDelta) (metadata : Dict) : Dict :=
  delta.removed.foldl Dict.pop (metadata.update delta.updates)

/-- The keys that a delta touches. -/
def keys (delta : MetadataDelta) : List String := delta.updates.keys ++ delta.removed

theorem getElem?_merge (delta : MetadataDelta) (metadata : Dict) (key : String) :
    (delta.merge metadata)[key]? =
      if key ∈ delta.removed then none else delta.updates[key]?.or metadata[key]? := by
  have hupdate : (metadata.update delta.updates)[key]? = delta.updates[key]?.or metadata[key]? :=
    KeyedRows.getElem?_overwrite metadata delta.updates key
  rw [← hupdate]
  exact KeyedRows.getElem?_discard (metadata.update delta.updates) delta.removed key

theorem getElem?_merge_of_notMem {delta : MetadataDelta} {metadata : Dict} {key : String}
    (hkey : key ∉ delta.keys) : (delta.merge metadata)[key]? = metadata[key]? := by
  simp only [keys, List.mem_append, not_or, KeyedRows.mem_keys_iff, not_not] at hkey
  rw [getElem?_merge, if_neg hkey.2, hkey.1, Option.none_or]

/-- On a key that it touches, a delta does not depend on what is there. -/
theorem getElem?_merge_of_mem {delta : MetadataDelta} {metadata metadata' : Dict} {key : String}
    (hkey : key ∈ delta.keys) : (delta.merge metadata)[key]? = (delta.merge metadata')[key]? := by
  rw [getElem?_merge, getElem?_merge]
  split_ifs with hremoved
  · rfl
  · have hupdated : delta.updates[key]? ≠ none := by
      simp only [keys, List.mem_append, KeyedRows.mem_keys_iff] at hkey
      exact hkey.resolve_right hremoved
    obtain ⟨value, hvalue⟩ := Option.ne_none_iff_exists'.mp hupdated
    rw [hvalue, Option.some_or, Option.some_or]

/-- Deltas that touch no key in common can be merged in either order. -/
theorem merge_comm {delta other : MetadataDelta} (hdisjoint : ∀ key ∈ delta.keys, key ∉ other.keys)
    (metadata : Dict) : other.merge (delta.merge metadata) = delta.merge (other.merge metadata) := by
  refine Dict.ext fun key => ?_
  by_cases hkey : key ∈ delta.keys
  · rw [getElem?_merge_of_notMem (hdisjoint key hkey)]
    exact getElem?_merge_of_mem hkey
  · rw [getElem?_merge_of_notMem hkey]
    by_cases hother : key ∈ other.keys
    · exact getElem?_merge_of_mem hother
    · rw [getElem?_merge_of_notMem hother, getElem?_merge_of_notMem hother,
        getElem?_merge_of_notMem hkey]

@[simp] theorem merge_empty (metadata : Dict) : merge ⟨∅, []⟩ metadata = metadata := by
  refine Dict.ext fun key => getElem?_merge_of_notMem ?_
  simp [keys]

end MetadataDelta

/-- The command removed the key, added it, or gave it another value. -/
def changesKey (base changed : Dict) (key : String) : Bool :=
  match base[key]?, changed[key]? with
  | some before, some after => !before.pyEq after
  | none, none => false
  | _, _ => true

/-- A lookup in the entries of a mapping that pass a test. -/
theorem getElem?_ofFields_filter (d : Dict) (p : String × Value → Bool) (key : String) :
    (Dict.ofFields (d.toList.filter p))[key]? = d[key]?.filter fun value => p (key, value) := by
  have hrows : (d.toList.filter p).Pairwise fun a b => a.1 ≠ b.1 :=
    (KeyedRows.pairwise_ne_toList d).filter p
  have hlookup : (Dict.ofFields (d.toList.filter p))[key]? =
      (d[key]?.filter fun value => p (key, value)).or (∅ : Dict)[key]? := by
    refine KeyedRows.getElem?_foldl_insert (d.toList.filter p) ∅ hrows key _ fun value => ?_
    rw [Option.filter_eq_some_iff, List.mem_filter, Std.ExtTreeMap.mem_toList_iff_getElem?_eq_some]
  rw [hlookup, Std.ExtTreeMap.getElem?_empty, Option.or_none]

theorem getElem?_metadataDelta_updates (base changed : Dict) (key : String) :
    (metadataDelta base.toValue changed.toValue).updates[key]? =
      changed[key]?.filter fun after => !base[key]?.any (·.pyEq after) := by
  simp only [metadataDelta, Value.toDict?_toValue, Option.getD_some]
  exact getElem?_ofFields_filter changed _ key

theorem mem_metadataDelta_removed {base changed : Dict} {key : String} :
    key ∈ (metadataDelta base.toValue changed.toValue).removed ↔
      base[key]? ≠ none ∧ changed[key]? = none := by
  simp only [metadataDelta, Value.toDict?_toValue, Option.getD_some, List.mem_filter,
    KeyedRows.mem_keys_iff, Dict.has, Bool.not_eq_true', Option.isSome_eq_false_iff,
    Option.isNone_iff_eq_none]

/-- The command's outcome for the keys it changed, and the committed value for the others. -/
theorem getElem?_merge_metadataDelta (base changed metadata : Dict) (key : String) :
    ((metadataDelta base.toValue changed.toValue).merge metadata)[key]? =
      if changesKey base changed key then changed[key]? else metadata[key]? := by
  rw [MetadataDelta.getElem?_merge, getElem?_metadataDelta_updates]
  simp only [mem_metadataDelta_removed, changesKey]
  rcases Option.eq_none_or_eq_some base[key]? with hbase | ⟨before, hbase⟩
  · rcases Option.eq_none_or_eq_some changed[key]? with hchanged | ⟨after, hchanged⟩ <;>
      simp [hbase, hchanged]
  · rcases Option.eq_none_or_eq_some changed[key]? with hchanged | ⟨after, hchanged⟩
    · simp [hbase, hchanged]
    · cases hsame : before.pyEq after <;> simp [hbase, hchanged, hsame, Option.filter]

theorem setMetadata_setMetadata (session : Session) (metadata metadata' : Dict) :
    (session.setMetadata metadata).setMetadata metadata' = session.setMetadata metadata' := by
  have hroot : (session.root.set "metadata" metadata.toValue).set "metadata" metadata'.toValue =
      session.root.set "metadata" metadata'.toValue := by
    refine Dict.ext fun key => ?_
    simp only [Dict.getElem?_set]
    split_ifs <;> rfl
  simp only [Session.setMetadata, hroot]

theorem metadata?_setMetadata (session : Session) (metadata : Dict) :
    (session.setMetadata metadata).metadata? = some metadata := by
  simp [Session.metadata?, Session.setMetadata]

theorem applyMetadataDelta_setMetadata (session : Session) (metadata : Dict)
    (delta : MetadataDelta) : applyMetadataDelta (session.setMetadata metadata) delta =
      session.setMetadata (delta.merge metadata) := by
  unfold applyMetadataDelta
  rw [metadata?_setMetadata, Option.getD_some, setMetadata_setMetadata]
  rfl

theorem expireLeases_root (session : Session) (now : Int) :
    (expireLeases session now).1.root = session.root := by
  unfold expireLeases
  generalize session.leases.toList = rows
  suffices h : ∀ acc : Session × List Lease,
      (rows.foldl (expireLeaseIfDue now) acc).1.root = acc.1.root from h (session, [])
  induction rows with
  | nil => exact fun acc => rfl
  | cons row rows ih =>
      intro acc
      rw [List.foldl_cons, ih]
      unfold expireLeaseIfDue
      split_ifs
      · simp [expireLease, appendLeaseEvent]
      · rfl

theorem claimLease_root {session session' : Session} {item : Dict} {args : ClaimArgs}
    {lease : Lease} (h : claimLease session item args = (session', .ok lease)) :
    session'.root = session.root := by
  unfold claimLease at h
  simp only at h
  repeat' split at h
  all_goals simp only [Prod.mk.injEq, reduceCtorEq, and_false, Except.ok.injEq] at h
  obtain ⟨rfl, -⟩ := h
  exact expireLeases_root session args.now

/-- A claim that commits leaves the metadata that its delta merges into the committed one. -/
theorem commitClaim_metadata {session committed : Session} {metadata : Dict} {claim : PendingClaim}
    {lease : Lease} (hmetadata : session.metadata? = some metadata)
    (h : commitClaim claim session = .ok (committed, lease)) :
    committed.metadata? = some (claim.metadata.merge metadata) := by
  have hexpired : (expireAndReturn session claim.now).metadata? = some metadata := by
    rw [← hmetadata, Session.metadata?, Session.metadata?, expireAndReturn,
      returnExpiredItemsToOpen_root, expireLeases_root]
  unfold commitClaim at h
  simp only at h
  split at h
  · cases h
  · split at h
    · cases h
    · next hclaim =>
      obtain ⟨rfl, -⟩ := Prod.mk.inj (Except.ok.inj h)
      rw [Session.metadata?, modifyItem_root, claimLease_root hclaim]
      show (applyMetadataDelta (expireAndReturn session claim.now) claim.metadata).metadata? = _
      unfold applyMetadataDelta
      rw [metadata?_setMetadata, hexpired]
      rfl

/-- Committing a delta keeps what other writers committed, a delta of nothing changes nothing,
and deltas over different keys can be committed in either order. -/
theorem metadata_deltas_merge (session : Session) (base changed metadata : Dict) :
    (∃ merged, applyMetadataDelta (session.setMetadata metadata)
        (metadataDelta base.toValue changed.toValue) = session.setMetadata merged ∧
      ∀ key : String, merged[key]? =
        if changesKey base changed key then changed[key]? else metadata[key]?) ∧
    applyMetadataDelta (session.setMetadata metadata) ⟨∅, []⟩ = session.setMetadata metadata ∧
    ∀ delta other : MetadataDelta, (∀ key ∈ delta.keys, key ∉ other.keys) →
      applyMetadataDelta (applyMetadataDelta (session.setMetadata metadata) delta) other =
        applyMetadataDelta (applyMetadataDelta (session.setMetadata metadata) other) delta := by
  refine ⟨⟨_, applyMetadataDelta_setMetadata session metadata _,
    getElem?_merge_metadataDelta base changed metadata⟩, ?_, fun delta other hdisjoint => ?_⟩
  · rw [applyMetadataDelta_setMetadata, MetadataDelta.merge_empty]
  · simp only [applyMetadataDelta_setMetadata, MetadataDelta.merge_comm hdisjoint metadata]

/-- One command records its round, another one drops a flag and names the reviewer. -/
theorem metadata_deltas_merge_rounds :
    let first : MetadataDelta := ⟨Dict.ofFields [("round", .int 2)], []⟩
    let second : MetadataDelta := ⟨Dict.ofFields [("reviewer", .str "agent")], ["stale"]⟩
    let session : Session := ⟨∅, ∅, ∅, [], [], none⟩
    let metadata := Dict.ofFields [("round", .int 1), ("stale", .bool true)]
    applyMetadataDelta (applyMetadataDelta (session.setMetadata metadata) first) second =
      applyMetadataDelta (applyMetadataDelta (session.setMetadata metadata) second) first := by
  intro first second session metadata
  obtain ⟨-, -, hcommute⟩ := metadata_deltas_merge session ∅ ∅ metadata
  refine hcommute first second fun key hkey => ?_
  simp only [first, second, MetadataDelta.keys, Dict.ofFields, List.foldl_cons, List.foldl_nil,
    List.append_nil, KeyedRows.mem_keys_iff, List.mem_append, List.mem_singleton,
    Std.ExtTreeMap.getElem?_insert, Std.LawfulEqCmp.compare_eq_iff_eq] at hkey ⊢
  have hround : "round" = key := by
    by_contra hne
    simp [hne] at hkey
  subst hround
  simp

end GhAddressCr
