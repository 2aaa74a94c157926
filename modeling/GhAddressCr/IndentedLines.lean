import GhAddressCr.LedgerLines

/-!
# Indented lines

Texts as lines that are separated by newlines, and `textwrap.dedent`, which takes off the blanks
that every line starts with. Indenting the lines of a text does not change what is left.
-/
namespace GhAddressCr.PyText

open SeparatedLines

/-- The characters left by `str.rstrip()`. -/
def rstripChars (cs : List Char) : List Char := cs.rdropWhile isSpace

/-- The characters left by `str.lstrip()`. -/
def lstripChars (cs : List Char) : List Char := cs.dropWhile isSpace

/-- `text.splitlines()`. -/
def splitlines (text : List Char) : List (List Char) :=
  splitLines isLineEnd (universalNewlines text)

theorem stripChars_sublist (cs : List Char) : (stripChars cs).Sublist cs :=
  ((List.rdropWhile_prefix isSpace _).sublist).trans (List.dropWhile_suffix _).sublist

theorem rstripChars_append {front back : List Char} (h : rstripChars back ≠ []) :
    rstripChars (front ++ back) = front ++ rstripChars back := by
  simp only [rstripChars, List.rdropWhile, List.reverse_append] at h ⊢
  have hback : back.reverse.dropWhile isSpace ≠ [] := fun hnil => h (by simp [hnil])
  rw [List.dropWhile_append, if_neg (by simpa using hback)]
  simp

theorem rstripChars_of_blank {cs : List Char} (h : ∀ c ∈ cs, isSpace c = true) :
    rstripChars cs = [] := by
  simpa [rstripChars, List.rdropWhile_eq_nil_iff] using h

theorem rstripChars_of_stripped {cs : List Char} (h : stripChars cs = cs) :
    rstripChars cs = cs := by
  conv_rhs => rw [← h]
  conv_lhs => rw [← h]
  exact List.rdropWhile_idempotent isSpace (cs.dropWhile isSpace)

theorem lstripChars_of_stripped {cs : List Char} (h : stripChars cs = cs) :
    lstripChars cs = cs := by
  refine (List.dropWhile_suffix isSpace).eq_of_length_le ?_
  have hlength := ((List.rdropWhile_prefix isSpace (cs.dropWhile isSpace)).length_le)
  rwa [show (cs.dropWhile isSpace).rdropWhile isSpace = cs from h] at hlength

theorem join_cons (sep : Char) (piece : List Char) {rest : List (List Char)} (h : rest ≠ []) :
    join sep (piece :: rest) = piece ++ sep :: join sep rest := by
  cases rest with
  | nil => exact absurd rfl h
  | cons next rest => rfl

theorem split_ne_nil (sep : Char) (text : List Char) : split sep text ≠ [] := by
  cases text with
  | nil => simp [split]
  | cons c text =>
      simp only [split]
      split
      · simp
      · split <;> simp

theorem split_append {sep : Char} {piece : List Char} (h : sep ∉ piece) (rest : List Char) :
    split sep (piece ++ sep :: rest) = piece :: split sep rest := by
  induction piece with
  | nil =>
      simp only [List.nil_append, split]
      split
      · next hnil => exact absurd hnil (split_ne_nil sep rest)
      · next hsplit => simp [hsplit]
  | cons c piece ih =>
      simp only [List.mem_cons, not_or] at h
      rw [List.cons_append, split, ih h.2]
      simp [Ne.symm h.1]

theorem split_of_notMem {sep : Char} {piece : List Char} (h : sep ∉ piece) :
    split sep piece = [piece] := by
  induction piece with
  | nil => rfl
  | cons c piece ih =>
      simp only [List.mem_cons, not_or] at h
      rw [split, ih h.2]
      simp [Ne.symm h.1]

/-- Pieces without separators inside are found again. -/
theorem split_join {sep : Char} {pieces : List (List Char)} (hne : pieces ≠ [])
    (h : ∀ piece ∈ pieces, sep ∉ piece) : split sep (join sep pieces) = pieces := by
  induction pieces with
  | nil => exact absurd rfl hne
  | cons piece rest ih =>
      by_cases hrest : rest = []
      · subst hrest
        exact split_of_notMem (h piece (by simp))
      · rw [join_cons sep piece hrest, split_append (h piece (by simp)),
          ih hrest fun other hother => h other (by simp [hother])]

theorem join_split (sep : Char) (text : List Char) : join sep (split sep text) = text := by
  induction text with
  | nil => rfl
  | cons c text ih =>
      rw [split]
      split
      · next hnil => exact absurd hnil (split_ne_nil sep text)
      · next piece rest hsplit =>
          rw [hsplit] at ih
          split
          · next hsep => rw [join_cons sep [] (by simp), ih, hsep, List.nil_append]
          · by_cases hrest : rest = []
            · subst hrest
              simpa [join] using ih
            · rw [join_cons sep _ hrest] at ih ⊢
              rw [List.cons_append, ih]

theorem mem_split {sep : Char} {text piece : List Char} (h : piece ∈ split sep text) :
    sep ∉ piece ∧ ∀ c ∈ piece, c ∈ text := by
  induction text generalizing piece with
  | nil =>
      obtain rfl : piece = [] := by simpa [split] using h
      simp
  | cons c text ih =>
      rw [split] at h
      split at h
      · next hnil => exact absurd hnil (split_ne_nil sep text)
      · next first rest hsplit =>
          have hfirst := ih (hsplit ▸ List.mem_cons_self)
          have hrest : ∀ other ∈ rest, sep ∉ other ∧ ∀ d ∈ other, d ∈ text :=
            fun other hother => ih (hsplit ▸ List.mem_cons_of_mem _ hother)
          split at h
          · rcases List.mem_cons.mp h with rfl | h
            · simp
            rcases List.mem_cons.mp h with rfl | h
            · exact ⟨hfirst.1, fun d hd => List.mem_cons_of_mem _ (hfirst.2 d hd)⟩
            · exact ⟨(hrest piece h).1, fun d hd => List.mem_cons_of_mem _ ((hrest piece h).2 d hd)⟩
          · next hsep =>
            rcases List.mem_cons.mp h with rfl | h
            · refine ⟨fun hmem => ?_, fun d hd => ?_⟩
              · rcases List.mem_cons.mp hmem with rfl | hmem
                · exact hsep rfl
                · exact hfirst.1 hmem
              · rcases List.mem_cons.mp hd with rfl | hd
                · simp
                · exact List.mem_cons_of_mem _ (hfirst.2 d hd)
            · exact ⟨(hrest piece h).1, fun d hd => List.mem_cons_of_mem _ ((hrest piece h).2 d hd)⟩

theorem mem_splitLines {isEnd : Char → Bool} {text line : List Char}
    (h : line ∈ splitLines isEnd text) : ∀ c ∈ line, isEnd c = false ∧ c ∈ text := by
  induction text generalizing line with
  | nil => simp [splitLines] at h
  | cons first text ih =>
      rw [splitLines] at h
      split at h
      · rcases List.mem_cons.mp h with rfl | h
        · simp
        · exact fun c hc => ⟨(ih h c hc).1, List.mem_cons_of_mem _ (ih h c hc).2⟩
      · next hfirst =>
        have hhead : isEnd first = false := by simpa using hfirst
        split at h
        · obtain rfl : line = [first] := by simpa using h
          simpa using hhead
        · next start rest hsplit =>
            rcases List.mem_cons.mp h with rfl | h
            · intro c hc
              rcases List.mem_cons.mp hc with rfl | hc
              · exact ⟨hhead, by simp⟩
              · have hstart := ih (hsplit ▸ List.mem_cons_self) c hc
                exact ⟨hstart.1, List.mem_cons_of_mem _ hstart.2⟩
            · intro c hc
              have hline := ih (hsplit ▸ List.mem_cons_of_mem _ h) c hc
              exact ⟨hline.1, List.mem_cons_of_mem _ hline.2⟩

theorem splitLines_of_unended {isEnd : Char → Bool} {line : List Char} (hne : line ≠ [])
    (h : ∀ c ∈ line, isEnd c = false) : splitLines isEnd line = [line] := by
  induction line with
  | nil => exact absurd rfl hne
  | cons c line ih =>
      rw [splitLines, if_neg (by simp [h c (by simp)])]
      by_cases hline : line = []
      · simp [hline, splitLines]
      · rw [ih hline fun d hd => h d (by simp [hd])]

/-- Lines without ends inside, the last of them not empty, are found again. -/
theorem splitLines_join {isEnd : Char → Bool} {sep : Char} (hsep : isEnd sep = true)
    {lines : List (List Char)} {last : List Char} (hlast : last ≠ [])
    (h : ∀ line ∈ lines ++ [last], ∀ c ∈ line, isEnd c = false) :
    splitLines isEnd (join sep (lines ++ [last])) = lines ++ [last] := by
  induction lines with
  | nil => exact splitLines_of_unended hlast (h last (by simp))
  | cons line lines ih =>
      rw [List.cons_append, join_cons sep line (by simp),
        splitLines_append hsep (h line (by simp)),
        ih fun other hother => h other (by simp_all)]

/-- `splitlines` finds the lines of a text again if only newlines end lines in it. -/
theorem splitlines_join {lines : List (List Char)} {last : List Char} (hlast : last ≠ [])
    (h : ∀ line ∈ lines ++ [last], ∀ c ∈ line, isLineEnd c = false) :
    splitlines (join newline (lines ++ [last])) = lines ++ [last] := by
  have hreturn : ∀ c ∈ join newline (lines ++ [last]), c.toNat ≠ 13 := by
    intro c hc hcode
    rcases Value.mem_join.1 hc with rfl | hc
    · exact absurd hcode (by decide)
    · obtain ⟨line, hline, hc⟩ := List.mem_flatten.mp hc
      have hend : isLineEnd c = true := by simp [isLineEnd, hcode]
      rw [h line hline c hc] at hend
      cases hend
  rw [splitlines, universalNewlines_eq_self hreturn, splitLines_join isLineEnd_newline hlast h]

/-- The blanks that an indentation is made of. -/
def isIndent (c : Char) : Bool := c == ' ' || c == Char.ofNat 9

/-- The longest common start of two texts. -/
def commonStart : List Char → List Char → List Char
  | c :: cs, d :: ds => if c = d then c :: commonStart cs ds else []
  | _, _ => []

/-- A line of blanks alone counts as empty. -/
def clearBlank (line : List Char) : List Char := if line.all isIndent then [] else line

/-- The blanks that every line with something on it starts with. -/
def margin (lines : List (List Char)) : List Char :=
  match (lines.filter (· ≠ [])).map (·.takeWhile isIndent) with
  | [] => []
  | first :: rest => rest.foldl commonStart first

/-- A line without the margin. -/
def cutMargin (margin line : List Char) : List Char := (dropPrefix? margin line).getD line

/-- `textwrap.dedent` of the lines of a text. -/
def dedentLines (lines : List (List Char)) : List (List Char) :=
  let cleared := lines.map clearBlank
  cleared.map (cutMargin (margin cleared))

/-- `textwrap.dedent(text)`. -/
def dedent (text : List Char) : List Char :=
  join newline (dedentLines (split newline text))

/-- A line behind `pad`; an empty line stays empty. -/
def indentLine (pad line : List Char) : List Char := if line = [] then [] else pad ++ line

@[simp] theorem indentLine_nil (pad : List Char) : indentLine pad [] = [] := rfl

theorem commonStart_append (pad cs ds : List Char) :
    commonStart (pad ++ cs) (pad ++ ds) = pad ++ commonStart cs ds := by
  induction pad with
  | nil => rfl
  | cons c pad ih => simp [commonStart, ih]

theorem commonStart_isPrefix (cs ds : List Char) :
    commonStart cs ds <+: cs ∧ commonStart cs ds <+: ds := by
  induction cs generalizing ds with
  | nil => simp [commonStart]
  | cons c cs ih =>
      cases ds with
      | nil => simp [commonStart]
      | cons d ds =>
          by_cases hsame : c = d
          · subst hsame
            simpa [commonStart] using ih ds
          · simp [commonStart, hsame]

theorem foldl_commonStart_append (pad first : List Char) (rest : List (List Char)) :
    (rest.map (pad ++ ·)).foldl commonStart (pad ++ first) =
      pad ++ rest.foldl commonStart first := by
  induction rest generalizing first with
  | nil => rfl
  | cons next rest ih =>
      rw [List.map_cons, List.foldl_cons, commonStart_append, ih]
      rfl

theorem foldl_commonStart_isPrefix (first : List Char) (rest : List (List Char)) :
    rest.foldl commonStart first <+: first ∧
      ∀ other ∈ rest, rest.foldl commonStart first <+: other := by
  induction rest generalizing first with
  | nil => simp
  | cons next rest ih =>
      obtain ⟨hstart, hrest⟩ := ih (commonStart first next)
      have hcommon := commonStart_isPrefix first next
      refine ⟨hstart.trans hcommon.1, fun other hother => ?_⟩
      rcases List.mem_cons.mp hother with rfl | hother
      · exact hstart.trans hcommon.2
      · exact hrest other hother

theorem margin_isPrefix {lines : List (List Char)} {line : List Char} (hmem : line ∈ lines)
    (hne : line ≠ []) : margin lines <+: line := by
  have hindent : line.takeWhile isIndent ∈
      (lines.filter (· ≠ [])).map (·.takeWhile isIndent) :=
    List.mem_map_of_mem (List.mem_filter.mpr ⟨hmem, by simpa using hne⟩)
  have hstart : margin lines <+: line.takeWhile isIndent := by
    unfold margin
    generalize (lines.filter (· ≠ [])).map (·.takeWhile isIndent) = indents at hindent ⊢
    cases indents with
    | nil => simp at hindent
    | cons first rest =>
        have hcommon := foldl_commonStart_isPrefix first rest
        rcases List.mem_cons.mp hindent with hfirst | hrest
        · exact hfirst ▸ hcommon.1
        · exact hcommon.2 _ hrest
  exact hstart.trans (List.takeWhile_prefix _)

theorem cutMargin_eq {front line rest : List Char} (h : front ++ rest = line) :
    cutMargin front line = rest := by
  rw [cutMargin, ← h, dropPrefix?_append, Option.getD_some]

theorem mem_cutMargin {front line : List Char} {c : Char} (h : c ∈ cutMargin front line) :
    c ∈ line := by
  unfold cutMargin at h
  cases hdrop : dropPrefix? front line with
  | none => simpa [hdrop] using h
  | some rest =>
      rw [dropPrefix?_eq_some.mp hdrop]
      rw [hdrop] at h
      exact List.mem_append_right _ h

/-- Dedenting adds no characters. -/
theorem mem_dedent {text : List Char} {c : Char} (h : c ∈ dedent text) :
    c = newline ∨ c ∈ text := by
  rcases Value.mem_join.1 h with rfl | hmem
  · exact Or.inl rfl
  · right
    obtain ⟨line, hline, hc⟩ := List.mem_flatten.mp hmem
    obtain ⟨cleared, hcleared, rfl⟩ := List.mem_map.mp hline
    obtain ⟨piece, hpiece, rfl⟩ := List.mem_map.mp hcleared
    have hclear := mem_cutMargin hc
    unfold clearBlank at hclear
    split at hclear
    · simp at hclear
    · exact (mem_split hpiece).2 c hclear

section Pad

variable {pad : List Char} (hpad : pad.all isIndent = true)
include hpad

theorem clearBlank_indentLine (line : List Char) :
    clearBlank (indentLine pad line) = indentLine pad (clearBlank line) := by
  by_cases hnil : line = []
  · subst hnil
    rfl
  · have hall : (pad ++ line).all isIndent = line.all isIndent := by
      rw [List.all_append, hpad, Bool.true_and]
    rw [indentLine, if_neg hnil, clearBlank, clearBlank, hall]
    split
    · rfl
    · rw [indentLine, if_neg hnil]

theorem takeWhile_pad (line : List Char) :
    (pad ++ line).takeWhile isIndent = pad ++ line.takeWhile isIndent :=
  List.takeWhile_append_of_pos (by simpa using hpad)

/-- Indenting lines that are not all empty widens their margin. -/
theorem margin_indent {lines : List (List Char)} (h : lines.filter (· ≠ []) ≠ []) :
    margin (lines.map (indentLine pad)) = pad ++ margin lines := by
  have hfilter : ((lines.map (indentLine pad)).filter (· ≠ [])).map (·.takeWhile isIndent) =
      ((lines.filter (· ≠ [])).map (·.takeWhile isIndent)).map (pad ++ ·) := by
    clear h
    induction lines with
    | nil => rfl
    | cons line lines ih =>
        by_cases hnil : line = []
        · subst hnil
          simpa using ih
        · have hne : indentLine pad line ≠ [] := by simp [indentLine, hnil]
          rw [List.map_cons, List.filter_cons_of_pos (by simpa using hne),
            List.filter_cons_of_pos (by simpa using hnil), List.map_cons, List.map_cons,
            List.map_cons, ih, indentLine, if_neg hnil, takeWhile_pad hpad]
  unfold margin
  rw [hfilter]
  cases hindents : (lines.filter (· ≠ [])).map (·.takeWhile isIndent) with
  | nil => exact absurd (List.map_eq_nil_iff.mp hindents) h
  | cons first rest => exact foldl_commonStart_append pad first rest

/-- Dedenting takes off any common indentation, so it does not see another one in front. -/
theorem dedentLines_indent (lines : List (List Char)) :
    dedentLines (lines.map (indentLine pad)) = dedentLines lines := by
  have hcleared : (lines.map (indentLine pad)).map clearBlank =
      (lines.map clearBlank).map (indentLine pad) := by
    simp only [List.map_map]
    exact List.map_congr_left fun line _ => clearBlank_indentLine hpad line
  unfold dedentLines
  simp only [hcleared]
  generalize lines.map clearBlank = cleared
  rw [List.map_map]
  refine List.map_congr_left fun line hline => ?_
  show cutMargin (margin (cleared.map (indentLine pad))) (indentLine pad line) = _
  by_cases hnil : line = []
  · subst hnil
    have hcut : ∀ front : List Char, cutMargin front [] = [] := by
      intro front
      cases front <;> rfl
    rw [indentLine_nil, hcut, hcut]
  · have hshown : cleared.filter (· ≠ []) ≠ [] :=
      List.ne_nil_of_mem (List.mem_filter.mpr ⟨hline, by simpa using hnil⟩)
    obtain ⟨rest, hrest⟩ := margin_isPrefix hline hnil
    rw [margin_indent hpad hshown, cutMargin_eq hrest, indentLine, if_neg hnil]
    exact cutMargin_eq (by rw [List.append_assoc, hrest])

end Pad

end GhAddressCr.PyText
