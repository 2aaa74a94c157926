import Mathlib.Tactic.TypeStar
import Std.Data.ExtTreeMap

/-!
# Tables of keyed rows

Bulk changes of a finite map, as loops over keys, and what a lookup finds after each.
-/
namespace GhAddressCr.KeyedRows

open Std

variable {κ α : Type*} {cmp : κ → κ → Ordering} [TransCmp cmp] [LawfulEqCmp cmp]

/-- Write every row of `new` into `base`. -/
def overwrite (base new : ExtTreeMap κ α cmp) : ExtTreeMap κ α cmp :=
  new.toList.foldl (fun table row => table.insert row.1 row.2) base

/-- Drop the rows under `keys`. -/
def discard (base : ExtTreeMap κ α cmp) (keys : List κ) : ExtTreeMap κ α cmp :=
  keys.foldl (fun table key => table.erase key) base

/-- Only the rows under `keys`. -/
def restrict (base : ExtTreeMap κ α cmp) (keys : List κ) : ExtTreeMap κ α cmp :=
  keys.foldl
    (fun table key =>
      match base[key]? with
      | some row => table.insert key row
      | none => table)
    ∅

theorem getElem?_insert_of_ne (table : ExtTreeMap κ α cmp) {key other : κ} (row : α)
    (h : key ≠ other) : (table.insert key row)[other]? = table[other]? := by
  simp [ExtTreeMap.getElem?_insert, h]

theorem getElem?_erase_of_ne (table : ExtTreeMap κ α cmp) {key other : κ} (h : key ≠ other) :
    (table.erase key)[other]? = table[other]? := by
  simp [ExtTreeMap.getElem?_erase, h]

theorem mem_keys_iff (table : ExtTreeMap κ α cmp) (key : κ) :
    key ∈ table.keys ↔ table[key]? ≠ none := by
  rw [ExtTreeMap.mem_keys, ← Option.isSome_iff_ne_none, ExtTreeMap.isSome_getElem?_iff_mem]

/-- A lookup after inserting rows with distinct keys, one after another. -/
theorem getElem?_foldl_insert (rows : List (κ × α)) (base : ExtTreeMap κ α cmp)
    (hrows : rows.Pairwise fun a b => a.1 ≠ b.1) (key : κ) (row : Option α)
    (hrow : ∀ v, row = some v ↔ (key, v) ∈ rows) :
    (rows.foldl (fun table row => table.insert row.1 row.2) base)[key]? = row.or base[key]? := by
  induction rows generalizing base row with
  | nil =>
      have hnone : row = none := by
        rw [Option.eq_none_iff_forall_ne_some]
        intro v hv
        exact absurd ((hrow v).mp hv) List.not_mem_nil
      simp [hnone]
  | cons r rows ih =>
      rw [List.foldl_cons]
      obtain ⟨hhead, htail⟩ := List.pairwise_cons.mp hrows
      by_cases hk : r.1 = key
      · have hnotin : ∀ v, (key, v) ∉ rows := by
          intro v hv
          exact hhead _ hv hk
        have hr : row = some r.2 := (hrow r.2).mpr (by rw [← hk]; exact List.mem_cons_self)
        rw [ih _ htail none (by simpa using hnotin), hr, Option.none_or, hk]
        simp
      · have hrow' : ∀ v, row = some v ↔ (key, v) ∈ rows := by
          intro v
          rw [hrow v, List.mem_cons, or_iff_right]
          rintro rfl
          exact hk rfl
        rw [ih _ htail row hrow', getElem?_insert_of_ne _ _ hk]

theorem pairwise_ne_toList (table : ExtTreeMap κ α cmp) :
    table.toList.Pairwise fun a b => a.1 ≠ b.1 :=
  (ExtTreeMap.distinct_keys_toList (t := table)).imp fun h heq =>
    h (by rw [heq]; exact ReflCmp.compare_self)

theorem getElem?_overwrite (base new : ExtTreeMap κ α cmp) (key : κ) :
    (overwrite base new)[key]? = new[key]?.or base[key]? :=
  getElem?_foldl_insert new.toList base (pairwise_ne_toList new) key new[key]? fun _ =>
    ExtTreeMap.mem_toList_iff_getElem?_eq_some.symm

theorem getElem?_discard [DecidableEq κ] (base : ExtTreeMap κ α cmp) (keys : List κ) (key : κ) :
    (discard base keys)[key]? = if key ∈ keys then none else base[key]? := by
  unfold discard
  induction keys generalizing base with
  | nil => simp
  | cons k keys ih =>
      rw [List.foldl_cons, ih]
      by_cases hk : k = key
      · subst hk
        simp
      · simp [getElem?_erase_of_ne base hk, Ne.symm hk]

theorem getElem?_restrict [DecidableEq κ] (base : ExtTreeMap κ α cmp) (keys : List κ) (key : κ) :
    (restrict base keys)[key]? = if key ∈ keys then base[key]? else none := by
  have general : ∀ table : ExtTreeMap κ α cmp,
      (keys.foldl (fun table key => match base[key]? with
        | some row => table.insert key row
        | none => table) table)[key]? =
      if key ∈ keys then base[key]?.or table[key]? else table[key]? := by
    induction keys with
    | nil => simp
    | cons k keys ih =>
        intro table
        rw [List.foldl_cons, ih]
        by_cases hk : k = key
        · subst hk
          cases h : base[k]? <;> simp
        · cases h : base[k]? with
          | none => simp [Ne.symm hk]
          | some row => simp [Ne.symm hk, getElem?_insert_of_ne table row hk]
  have hstart := general ∅
  simpa [restrict] using hstart

end GhAddressCr.KeyedRows
