import Mathlib.Data.List.Basic

/-!
# Separated lines

A text that is written line by line and read back by splitting it. The reader may see more line
ends than the writer writes, so a line is read back as it was written only when it has none of
them inside.
-/
namespace SeparatedLines

variable {α : Type*}

/-- The lines of a text, without the elements that end them. An unended last line counts if it
is not empty. -/
def splitLines (isEnd : α → Bool) : List α → List (List α)
  | [] => []
  | c :: cs =>
      if isEnd c then [] :: splitLines isEnd cs
      else
        match splitLines isEnd cs with
        | [] => [[c]]
        | line :: rest => (c :: line) :: rest

/-- The text of lines that are each ended by `stop`. -/
def joinLines (stop : α) (lines : List (List α)) : List α :=
  lines.flatMap fun line => line ++ [stop]

@[simp] theorem joinLines_nil (stop : α) : joinLines stop [] = [] := rfl

@[simp] theorem joinLines_cons (stop : α) (line : List α) (lines : List (List α)) :
    joinLines stop (line :: lines) = line ++ stop :: joinLines stop lines := by
  simp [joinLines]

/-- A text up to its first line end. -/
theorem exists_firstEnd {isEnd : α → Bool} {text : List α} (h : ∃ c ∈ text, isEnd c = true) :
    ∃ line c rest, text = line ++ c :: rest ∧ isEnd c = true ∧ ∀ d ∈ line, isEnd d = false := by
  induction text with
  | nil => simp at h
  | cons first text ih =>
      by_cases hfirst : isEnd first = true
      · exact ⟨[], first, text, rfl, hfirst, by simp⟩
      · have hrest : ∃ c ∈ text, isEnd c = true := by
          obtain ⟨c, hc, hend⟩ := h
          rcases List.mem_cons.mp hc with rfl | hc
          · exact absurd hend hfirst
          · exact ⟨c, hc, hend⟩
        obtain ⟨line, c, rest, rfl, hend, hline⟩ := ih hrest
        refine ⟨first :: line, c, rest, rfl, hend, fun d hd => ?_⟩
        rcases List.mem_cons.mp hd with rfl | hd
        · simpa using hfirst
        · exact hline d hd

section Split

variable {isEnd : α → Bool} {stop : α} (hstop : isEnd stop = true)
include hstop

theorem splitLines_append {line : List α} (h : ∀ c ∈ line, isEnd c = false) (rest : List α) :
    splitLines isEnd (line ++ stop :: rest) = line :: splitLines isEnd rest := by
  induction line with
  | nil => simp [splitLines, hstop]
  | cons c line ih =>
      have hc : isEnd c = false := h c (by simp)
      have hline := ih fun other hother => h other (by simp [hother])
      rw [List.cons_append, splitLines, hline, if_neg (by simp [hc])]

/-- Lines without line ends inside are read back as they were written. -/
theorem splitLines_joinLines {lines : List (List α)}
    (h : ∀ line ∈ lines, ∀ c ∈ line, isEnd c = false) :
    splitLines isEnd (joinLines stop lines) = lines := by
  induction lines with
  | nil => rfl
  | cons line lines ih =>
      rw [joinLines_cons, splitLines_append hstop (h line (by simp)),
        ih fun other hother => h other (by simp [hother])]

end Split

section Count

variable {isEnd : α → Bool}

/-- The number of lines with an element that shows. -/
def inkedLines (isInk : α → Bool) (lines : List (List α)) : ℕ :=
  lines.countP fun line => line.any isInk

variable {isInk : α → Bool} {stop : α} (hstop : isEnd stop = true)
include hstop

theorem inkedLines_le_append (text rest : List α) :
    inkedLines isInk (splitLines isEnd rest) ≤
      inkedLines isInk (splitLines isEnd (text ++ stop :: rest)) := by
  induction hlength : text.length using Nat.strongRecOn generalizing text with
  | ind size ih =>
      by_cases hend : ∃ c ∈ text, isEnd c = true
      · obtain ⟨line, c, tail, rfl, hc, hline⟩ := exists_firstEnd hend
        have htail := ih tail.length (by simp at hlength; omega) tail rfl
        rw [List.append_assoc, List.cons_append, splitLines_append hc hline]
        simp only [inkedLines, List.countP_cons] at htail ⊢
        omega
      · have hline : ∀ c ∈ text, isEnd c = false := by simpa using hend
        rw [splitLines_append hstop hline]
        simp [inkedLines, List.countP_cons]

variable (hink : ∀ c, isEnd c = true → isInk c = false)
include hink

/-- A text with an element that shows takes at least one of the lines. -/
theorem inkedLines_lt_append {text : List α} (h : text.any isInk = true) (rest : List α) :
    inkedLines isInk (splitLines isEnd rest) <
      inkedLines isInk (splitLines isEnd (text ++ stop :: rest)) := by
  induction hlength : text.length using Nat.strongRecOn generalizing text with
  | ind size ih =>
      by_cases hend : ∃ c ∈ text, isEnd c = true
      · obtain ⟨line, c, tail, rfl, hc, hline⟩ := exists_firstEnd hend
        rw [List.append_assoc, List.cons_append, splitLines_append hc hline]
        by_cases htail : tail.any isInk = true
        · have hmore := ih tail.length (by simp at hlength; omega) htail rfl
          simp only [inkedLines, List.countP_cons] at hmore ⊢
          omega
        · have hshown : line.any isInk = true := by
            simpa [hink c hc, htail] using h
          have hmore : inkedLines isInk (splitLines isEnd rest) ≤
              inkedLines isInk (splitLines isEnd (tail ++ stop :: rest)) :=
            inkedLines_le_append hstop tail rest
          simp only [inkedLines, List.countP_cons, if_pos hshown] at hmore ⊢
          omega
      · have hline : ∀ c ∈ text, isEnd c = false := by simpa using hend
        rw [splitLines_append hstop hline]
        simp [inkedLines, h]

/-- A line end between two elements that show. -/
def Broken (isEnd isInk : α → Bool) (line : List α) : Prop :=
  ∃ before c after, line = before ++ c :: after ∧ isEnd c = true ∧
    before.any isInk = true ∧ after.any isInk = true

theorem length_le_inkedLines {lines : List (List α)}
    (h : ∀ line ∈ lines, line.any isInk = true) :
    lines.length ≤ inkedLines isInk (splitLines isEnd (joinLines stop lines)) := by
  induction lines with
  | nil => simp
  | cons line lines ih =>
      have hlines := ih fun other hother => h other (by simp [hother])
      have hline := inkedLines_lt_append hstop hink (h line (by simp)) (joinLines stop lines)
      rw [joinLines_cons, List.length_cons]
      omega

/-- With a broken line there are more lines to read than were written. -/
theorem length_lt_inkedLines {lines : List (List α)} (h : ∀ line ∈ lines, line.any isInk = true)
    (hbroken : ∃ line ∈ lines, Broken isEnd isInk line) :
    lines.length < inkedLines isInk (splitLines isEnd (joinLines stop lines)) := by
  induction lines with
  | nil => simp at hbroken
  | cons line lines ih =>
      have hall : ∀ other ∈ lines, other.any isInk = true := fun other hother =>
        h other (by simp [hother])
      rw [joinLines_cons, List.length_cons]
      obtain ⟨other, hother, hbreak⟩ := hbroken
      rcases List.mem_cons.mp hother with rfl | hother
      · obtain ⟨before, c, after, rfl, hc, hbefore, hafter⟩ := hbreak
        have hlines := length_le_inkedLines hstop hink hall
        have htail := inkedLines_lt_append hstop hink hafter (joinLines stop lines)
        have hhead := inkedLines_lt_append hc hink hbefore (after ++ stop :: joinLines stop lines)
        rw [List.append_assoc, List.cons_append]
        omega
      · have hlines := ih hall ⟨other, hother, hbreak⟩
        have hline := inkedLines_lt_append hstop hink (h line (by simp)) (joinLines stop lines)
        omega

end Count

end SeparatedLines
