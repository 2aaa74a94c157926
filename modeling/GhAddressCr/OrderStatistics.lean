import Mathlib.Data.List.Sort
import Mathlib.Data.List.Perm.Basic
import Mathlib.Tactic.Ring

/-!
# Order statistics

A list sorted by a linear order, and how it splits around a pivot: what is below the pivot comes
first, then the pivot as often as it occurs, then what is above.
-/
namespace OrderStatistics

variable {α : Type*} [LinearOrder α]

/-- The list in order. -/
def sorted (values : List α) : List α := values.mergeSort (· ≤ ·)

theorem sorted_perm (values : List α) : (sorted values).Perm values :=
  List.mergeSort_perm values _

@[simp] theorem length_sorted (values : List α) : (sorted values).length = values.length :=
  (sorted_perm values).length_eq

@[simp] theorem mem_sorted {value : α} {values : List α} : value ∈ sorted values ↔ value ∈ values :=
  (sorted_perm values).mem_iff

theorem sorted_pairwise (values : List α) : (sorted values).Pairwise (· ≤ ·) := by
  have htrans : ∀ a b c : α, decide (a ≤ b) = true → decide (b ≤ c) = true →
      decide (a ≤ c) = true := by
    intro a b c hab hbc
    simp only [decide_eq_true_eq] at hab hbc ⊢
    exact hab.trans hbc
  have htotal : ∀ a b : α, (decide (a ≤ b) || decide (b ≤ a)) = true := by
    intro a b
    simp only [Bool.or_eq_true, decide_eq_true_eq]
    exact le_total a b
  simpa [sorted] using List.pairwise_mergeSort htrans htotal values

/-- Only one arrangement of a list is in order. -/
theorem sorted_unique {values ordered : List α} (hperm : ordered.Perm values)
    (hordered : ordered.Pairwise (· ≤ ·)) : sorted values = ordered :=
  ((sorted_perm values).trans hperm.symm).eq_of_pairwise
    (fun _ _ _ _ hab hba => le_antisymm hab hba) (sorted_pairwise values) hordered

theorem sorted_congr {values values' : List α} (hperm : values.Perm values') :
    sorted values = sorted values' :=
  sorted_unique ((sorted_perm values').trans hperm.symm) (sorted_pairwise values')

/-- What is below a pivot, the pivot, and what is above it make up the list. -/
theorem partition_perm (pivot : α) (values : List α) :
    (values.filter (· < pivot) ++ values.filter (· = pivot) ++ values.filter (pivot < ·)).Perm
      values := by
  induction values with
  | nil => simp
  | cons value values ih =>
      rcases lt_trichotomy value pivot with hlow | rfl | hhigh
      · simp only [List.filter_cons, hlow, hlow.ne, hlow.not_gt, decide_true, decide_false, if_true,
          Bool.false_eq_true, if_false, List.cons_append]
        exact ih.cons value
      · simp only [List.filter_cons, lt_irrefl, decide_true, decide_false, if_true,
          Bool.false_eq_true, if_false, List.append_assoc, List.cons_append]
        rw [List.append_assoc] at ih
        exact List.perm_middle.trans (ih.cons value)
      · simp only [List.filter_cons, hhigh, hhigh.ne', hhigh.not_gt, decide_true, decide_false,
          if_true, Bool.false_eq_true, if_false]
        exact List.perm_middle.trans (ih.cons value)

theorem sorted_partition (pivot : α) (values : List α) :
    sorted values = sorted (values.filter (· < pivot)) ++ values.filter (· = pivot) ++
      sorted (values.filter (pivot < ·)) := by
  apply sorted_unique
  · refine (List.Perm.append ?_ (sorted_perm _)).trans (partition_perm pivot values)
    exact (sorted_perm _).append_right _
  · refine List.pairwise_append.mpr ⟨List.pairwise_append.mpr ⟨sorted_pairwise _, ?_, ?_⟩,
      sorted_pairwise _, ?_⟩
    · refine List.pairwise_of_forall_mem_list fun a ha b hb => ?_
      have ha' := (List.mem_filter.mp ha).2
      have hb' := (List.mem_filter.mp hb).2
      simp only [decide_eq_true_eq] at ha' hb'
      rw [ha', hb']
    · intro low hlow middle hmiddle
      have hbelow := (List.mem_filter.mp (mem_sorted.mp hlow)).2
      have hpivot := (List.mem_filter.mp hmiddle).2
      simp only [decide_eq_true_eq] at hbelow hpivot
      rw [hpivot]
      exact hbelow.le
    · intro low hlow high hhigh
      have habove := (List.mem_filter.mp (mem_sorted.mp hhigh)).2
      simp only [decide_eq_true_eq] at habove
      rcases List.mem_append.mp hlow with hlow | hlow
      · have hbelow := (List.mem_filter.mp (mem_sorted.mp hlow)).2
        simp only [decide_eq_true_eq] at hbelow
        exact (hbelow.trans habove).le
      · have hpivot := (List.mem_filter.mp hlow).2
        simp only [decide_eq_true_eq] at hpivot
        rw [hpivot]
        exact habove.le

end OrderStatistics
