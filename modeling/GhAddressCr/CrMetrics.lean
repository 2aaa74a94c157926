import GhAddressCr.OrderStatistics

/-!
# Metrics of handled reviews

Order statistics by the median of medians: a group's median is taken of every five values, and
the median of those splits the list. Every recursion is on a shorter list.
-/
namespace GhAddressCr.CrMetrics

open OrderStatistics

section Select

variable {α : Type*} [LinearOrder α]

/-- The values in groups of five, the last of which may be shorter. -/
def groups (values : List α) : List (List α) :=
  (List.range ((values.length + 4) / 5)).map fun i => (values.drop (5 * i)).take 5

/-- The median of each group. -/
def medians (values : List α) : List α :=
  (groups values).filterMap fun group => (sorted group)[group.length / 2]?

theorem mem_of_mem_medians {value : α} {values : List α} (h : value ∈ medians values) :
    value ∈ values := by
  obtain ⟨group, hgroup, hvalue⟩ := List.mem_filterMap.mp h
  obtain ⟨i, -, rfl⟩ := List.mem_map.mp hgroup
  have hmem : value ∈ (values.drop (5 * i)).take 5 := mem_sorted.mp (List.mem_of_getElem? hvalue)
  exact List.mem_of_mem_drop (List.mem_of_mem_take hmem)

theorem length_medians (values : List α) : (medians values).length = (values.length + 4) / 5 := by
  have hsome : ∀ group ∈ groups values,
      ∃ median, (sorted group)[group.length / 2]? = some median := by
    intro group hgroup
    obtain ⟨i, hi, rfl⟩ := List.mem_map.mp hgroup
    have hlt := List.mem_range.mp hi
    refine ⟨_, List.getElem?_eq_getElem ?_⟩
    rw [length_sorted, List.length_take, List.length_drop]
    omega
  have hlength : (medians values).length = (groups values).length := by
    unfold medians
    generalize groups values = all at hsome
    induction all with
    | nil => rfl
    | cons group all ih =>
        obtain ⟨median, hmedian⟩ := hsome group List.mem_cons_self
        have hrest := ih fun other hother => hsome other (List.mem_cons_of_mem group hother)
        simp only [List.filterMap_cons, hmedian, List.length_cons, hrest]
  rw [hlength, groups, List.length_map, List.length_range]

def lows (pivot : α) (values : List α) : List α := values.filter (· < pivot)

def pivots (pivot : α) (values : List α) : List α := values.filter (· = pivot)

def highs (pivot : α) (values : List α) : List α := values.filter (pivot < ·)

theorem length_partition (pivot : α) (values : List α) :
    (lows pivot values).length + (pivots pivot values).length + (highs pivot values).length =
      values.length := by
  have hlength := (partition_perm pivot values).length_eq
  simp only [List.length_append] at hlength
  exact hlength

/-- Where the pivot is one of the values, each side of it is shorter than the list. -/
theorem length_pivots_pos {pivot : α} {values : List α} (hpivot : pivot ∈ values) :
    0 < (pivots pivot values).length :=
  List.length_pos_of_mem (List.mem_filter.mpr ⟨hpivot, by simp⟩)

/-- `_select_kth` on an index that is in range. -/
def select (values : List α) (index : Nat) (hindex : index < values.length) :
    { value // value ∈ values } :=
  if hshort : values.length ≤ 5 then
    ⟨(sorted values).get ⟨index, by simpa using hindex⟩, mem_sorted.mp (List.get_mem _ _)⟩
  else
    match select (medians values) ((medians values).length / 2)
        (by rw [length_medians]; omega) with
    | ⟨pivot, hmedian⟩ =>
        have hpivot : 0 < (pivots pivot values).length :=
          length_pivots_pos (mem_of_mem_medians hmedian)
        have hlength := length_partition pivot values
        if hlow : index < (lows pivot values).length then
          let value := select (lows pivot values) index hlow
          ⟨value.1, (List.mem_filter.mp value.2).1⟩
        else if hmiddle : index < (lows pivot values).length + (pivots pivot values).length then
          ⟨pivot, mem_of_mem_medians hmedian⟩
        else
          let value := select (highs pivot values)
            (index - (lows pivot values).length - (pivots pivot values).length) (by omega)
          ⟨value.1, (List.mem_filter.mp value.2).1⟩
termination_by values.length
decreasing_by
  · rw [length_medians]
    omega
  · omega
  · omega

/-- `_select_kth`; none where the index is out of range. -/
def selectKth (values : List α) (index : Nat) : Option α :=
  if hindex : index < values.length then some (select values index hindex).1 else none

theorem sorted_split (pivot : α) (values : List α) :
    sorted values = sorted (lows pivot values) ++ pivots pivot values ++
      sorted (highs pivot values) :=
  sorted_partition pivot values

theorem getElem?_pivots {pivot : α} {values : List α} {index : Nat}
    (hindex : index < (pivots pivot values).length) :
    (pivots pivot values)[index]? = some pivot := by
  have hmem := List.getElem_mem hindex
  have hequal := (List.mem_filter.mp hmem).2
  simp only [decide_eq_true_eq] at hequal
  rw [List.getElem?_eq_getElem hindex, hequal]

/-- A selection is the value at that place of the sorted list. -/
theorem getElem?_sorted (values : List α) (index : Nat) (hindex : index < values.length) :
    (sorted values)[index]? = some (select values index hindex).1 := by
  induction values, index, hindex using select.induct with
  | case1 values index hindex hshort =>
      rw [select, dif_pos hshort]
      exact List.getElem?_eq_getElem (by simpa using hindex)
  | case2 values index hindex hlong pivot hmedian hselected hpivot hlength hlow _ ih =>
      rw [select, dif_neg hlong, hselected]
      simp only [dif_pos hlow]
      rw [sorted_split pivot, List.append_assoc, List.getElem?_append_left (by simpa using hlow),
        ih]
  | case3 values index hindex hlong pivot hmedian hselected hpivot hlength hlow hmiddle _ =>
      rw [select, dif_neg hlong, hselected]
      simp only [dif_neg hlow, dif_pos hmiddle]
      rw [sorted_split pivot, List.append_assoc, List.getElem?_append_right (by simp; omega),
        List.getElem?_append_left (by simp; omega)]
      exact getElem?_pivots (by simp; omega)
  | case4 values index hindex hlong pivot hmedian hselected hpivot hlength hlow hmiddle _ ih =>
      rw [select, dif_neg hlong, hselected]
      simp only [dif_neg hlow, dif_neg hmiddle]
      rw [sorted_split pivot, List.append_assoc, List.getElem?_append_right (by simp; omega),
        List.getElem?_append_right (by simp; omega), length_sorted, ih]

/-- A selection depends on the values in order only. -/
theorem selectKth_eq (values : List α) (index : Nat) :
    selectKth values index = (sorted values)[index]? := by
  unfold selectKth
  split_ifs with hindex
  · exact (getElem?_sorted values index hindex).symm
  · exact (List.getElem?_eq_none (by simpa using hindex)).symm

/-- `_select_kth` returns, and returns the value at the index in the sorted list. -/
theorem selectKth_eq_sorted (values : List α) (index : Nat) (hindex : index < values.length) :
    ∃ value, selectKth values index = some value ∧ value ∈ values ∧
      (sorted values)[index]? = some value := by
  have hvalue := getElem?_sorted values index hindex
  exact ⟨(select values index hindex).1, (selectKth_eq values index).trans hvalue,
    (select values index hindex).2, hvalue⟩

end Select

theorem selectKth_eq_sorted_repeated :
    ∃ value, selectKth [3, 1, 2, 3, 1, 3, 0] 4 = some value ∧ value ∈ [3, 1, 2, 3, 1, 3, 0] ∧
      (sorted [3, 1, 2, 3, 1, 3, 0])[4]? = some value :=
  selectKth_eq_sorted [3, 1, 2, 3, 1, 3, 0] 4 (by decide)

end GhAddressCr.CrMetrics
