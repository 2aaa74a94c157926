import Mathlib.Data.List.DropRight
import Mathlib.Data.String.Basic

/-!
# Python text

The operations of `str` that programs over JSON records use, on the characters of a
string. Each one is a structural recursion, so that it computes in the kernel.
Case mapping is exact for every character whose image contains an ASCII character;
other characters are left alone, since the programs compare the result with ASCII words.
-/
namespace GhAddressCr.PyText

/-- `str.isspace` for one character. -/
def isSpace (c : Char) : Bool :=
  let n := c.toNat
  (9 ≤ n && n ≤ 13) || (28 ≤ n && n ≤ 32) || n == 0x85 || n == 0xa0 || n == 0x1680 ||
    (0x2000 ≤ n && n ≤ 0x200a) || n == 0x2028 || n == 0x2029 || n == 0x202f || n == 0x205f ||
    n == 0x3000

/-- The characters left by `str.strip()`. -/
def stripChars (cs : List Char) : List Char :=
  ((cs.dropWhile isSpace).reverse.dropWhile isSpace).reverse

/-- `str.strip()`. -/
def strip (s : String) : String :=
  String.ofList (stripChars s.toList)

/-- `str.lower()` of one character; the Kelvin sign is the only one outside ASCII that
lowers to an ASCII character alone. -/
def lowerChar (c : Char) : Char :=
  if 'A' ≤ c ∧ c ≤ 'Z' then Char.ofNat (c.toNat + 32)
  else if c.toNat = 0x212a then 'k'
  else c

/-- `str.lower()`. -/
def lower (s : String) : String :=
  String.ofList (s.toList.map lowerChar)

/-- `str.upper()` of one character: the dotless i, the long s, the sharp s and the
Latin ligatures are the ones outside ASCII with an ASCII image. -/
def upperChar (c : Char) : List Char :=
  if 'a' ≤ c ∧ c ≤ 'z' then [Char.ofNat (c.toNat - 32)]
  else match c.toNat with
    | 0x131 => ['I']
    | 0x17f => ['S']
    | 0xdf => ['S', 'S']
    | 0xfb00 => ['F', 'F']
    | 0xfb01 => ['F', 'I']
    | 0xfb02 => ['F', 'L']
    | 0xfb03 => ['F', 'F', 'I']
    | 0xfb04 => ['F', 'F', 'L']
    | 0xfb05 => ['S', 'T']
    | 0xfb06 => ['S', 'T']
    | _ => [c]

/-- `str.upper()`. -/
def upper (s : String) : String :=
  String.ofList (s.toList.flatMap upperChar)

/-- Drop `pre` from the front of `cs`, if it is there. -/
def dropPrefix? : (pre cs : List Char) → Option (List Char)
  | [], cs => some cs
  | _ :: _, [] => none
  | p :: pre, c :: cs => if p = c then dropPrefix? pre cs else none

/-- `s.startswith(pre)`. -/
def startsWith (s pre : String) : Bool :=
  (dropPrefix? pre.toList s.toList).isSome

/-- `s.removeprefix(pre)`. -/
def removePrefix (s pre : String) : String :=
  match dropPrefix? pre.toList s.toList with
  | some rest => String.ofList rest
  | none => s

/-- `partition` at the first `sep`; `none` when `sep` does not occur. -/
def partition (sep : Char) : List Char → Option (List Char × List Char)
  | [] => none
  | c :: cs =>
      if c = sep then some ([], cs)
      else (partition sep cs).map fun p => (c :: p.1, p.2)

/-- `rpartition` at the last `sep`; `none` when `sep` does not occur. -/
def rpartition (sep : Char) (cs : List Char) : Option (List Char × List Char) :=
  (partition sep cs.reverse).map fun p => (p.2.reverse, p.1.reverse)

/-- `split(sep)`: the pieces between the separators, empty ones included. -/
def split (sep : Char) : List Char → List (List Char)
  | [] => [[]]
  | c :: cs =>
      match split sep cs with
      | [] => [[]]
      | piece :: rest => if c = sep then [] :: piece :: rest else (c :: piece) :: rest

example : split ',' ['a', ','] = [['a'], []] := by simp [split]

/-- `sep.join(pieces)` for a one-character separator. -/
def join (sep : Char) : List (List Char) → List Char
  | [] => []
  | [piece] => piece
  | piece :: rest => piece ++ sep :: join sep rest

/-- The components `posixpath.normpath` keeps, most recent first. -/
def normComponents (rooted : Bool) (kept : List (List Char)) :
    List (List Char) → List (List Char)
  | [] => kept
  | comp :: rest =>
      if comp = [] ∨ comp = ['.'] then normComponents rooted kept rest
      else if comp ≠ ['.', '.'] ∨ (!rooted && kept.isEmpty) ∨ kept.head? = some ['.', '.'] then
        normComponents rooted (comp :: kept) rest
      else normComponents rooted kept.tail rest

/-- `posixpath.normpath(path)`. -/
def normPath (path : List Char) : List Char :=
  let slashes := (path.takeWhile (· = '/')).length
  let initial := if slashes = 2 then 2 else min slashes 1
  let comps := normComponents (0 < initial) [] (split '/' path)
  let normalized := List.replicate initial '/' ++ join '/' comps.reverse
  if normalized = [] then ['.'] else normalized

@[simp] theorem dropPrefix?_append (pre cs : List Char) :
    dropPrefix? pre (pre ++ cs) = some cs := by
  induction pre with
  | nil => rfl
  | cons p pre ih => simp [dropPrefix?, ih]

theorem dropPrefix?_eq_some {pre cs rest : List Char} :
    dropPrefix? pre cs = some rest ↔ cs = pre ++ rest := by
  induction pre generalizing cs with
  | nil => simp [dropPrefix?]
  | cons p pre ih =>
      cases cs with
      | nil => simp [dropPrefix?]
      | cons c cs =>
          by_cases h : p = c
          · simp [dropPrefix?, h, ih]
          · simp [dropPrefix?, h, Ne.symm h]

theorem partition_append {sep : Char} {before : List Char} (h : sep ∉ before)
    (after : List Char) :
    partition sep (before ++ sep :: after) = some (before, after) := by
  induction before with
  | nil => simp [partition]
  | cons c before ih =>
      simp only [List.mem_cons, not_or] at h
      simp [partition, Ne.symm h.1, ih h.2]

theorem rpartition_append {sep : Char} (before : List Char) {after : List Char}
    (h : sep ∉ after) :
    rpartition sep (before ++ sep :: after) = some (before, after) := by
  have hp : partition sep (before ++ sep :: after).reverse =
      some (after.reverse, before.reverse) := by
    rw [List.reverse_append, List.reverse_cons, List.append_assoc]
    exact partition_append (by simpa using h) before.reverse
  rw [rpartition, hp]
  simp

/-- The zeros of the Unicode decimal digit ranges. -/
def decimalZeros : List Nat :=
  [0x30, 0x660, 0x6f0, 0x7c0, 0x966, 0x9e6, 0xa66, 0xae6, 0xb66, 0xbe6, 0xc66, 0xce6, 0xd66,
    0xde6, 0xe50, 0xed0, 0xf20, 0x1040, 0x1090, 0x17e0, 0x1810, 0x1946, 0x19d0, 0x1a80, 0x1a90,
    0x1b50, 0x1bb0, 0x1c40, 0x1c50, 0xa620, 0xa8d0, 0xa900, 0xa9d0, 0xa9f0, 0xaa50, 0xabf0,
    0xff10, 0x104a0, 0x10d30, 0x11066, 0x110f0, 0x11136, 0x111d0, 0x112f0, 0x11450, 0x114d0,
    0x11650, 0x116c0, 0x11730, 0x118e0, 0x11950, 0x11c50, 0x11d50, 0x11da0, 0x11f50, 0x16a60,
    0x16ac0, 0x16b50, 0x1d7ce, 0x1d7d8, 0x1d7e2, 0x1d7ec, 0x1d7f6, 0x1e140, 0x1e2f0, 0x1e4f0,
    0x1e950, 0x1fbf0]

/-- The value of a decimal digit, in any script. -/
def digit? (c : Char) : Option Nat :=
  (decimalZeros.find? fun z => z ≤ c.toNat && c.toNat < z + 10).map (c.toNat - ·)

/-- Read digits, with single underscores between them, onto an accumulated value. The flag
says whether the previous character was a digit. -/
def readDigits : (value : Nat) → (afterDigit : Bool) → List Char → Option Nat
  | value, afterDigit, [] => if afterDigit then some value else none
  | value, afterDigit, c :: cs =>
      if c = '_' then
        if afterDigit then readDigits value false cs else none
      else (digit? c).bind fun d => readDigits (10 * value + d) true cs

/-- The most digits the interpreter converts. -/
def maxIntDigits : Nat := 4300

/-- `int(text)`; `none` where it raises `ValueError`. -/
def parseInt (cs : List Char) : Option Int :=
  let cs := stripChars cs
  let (negative, body) :=
    match cs with
    | '-' :: body => (true, body)
    | '+' :: body => (false, body)
    | _ => (false, cs)
  if maxIntDigits < (body.filter (· ≠ '_')).length then none
  else (readDigits 0 false body).map fun n => if negative then -(n : Int) else n

/-- `c` is an ASCII digit. -/
def IsAsciiDigit (c : Char) : Prop := '0' ≤ c ∧ c ≤ '9'

instance (c : Char) : Decidable (IsAsciiDigit c) := inferInstanceAs (Decidable (_ ∧ _))

/-- The value of a decimal numeral, most significant digit first. -/
def numeralValue (cs : List Char) : Nat :=
  cs.foldl (fun n c => 10 * n + (c.toNat - '0'.toNat)) 0

theorem isSpace_eq_false_of_isAsciiDigit {c : Char} (h : IsAsciiDigit c) :
    isSpace c = false := by
  have h0 : 48 ≤ c.toNat := h.1
  have h9 : c.toNat ≤ 57 := h.2
  simp [isSpace]
  omega

theorem digit?_of_isAsciiDigit {c : Char} (h : IsAsciiDigit c) :
    digit? c = some (c.toNat - '0'.toNat) := by
  have h0 : 48 ≤ c.toNat := h.1
  have h9 : c.toNat ≤ 57 := h.2
  have hc : c.toNat < 58 := by omega
  simp [digit?, decimalZeros, h0, hc]

theorem stripChars_eq_self {cs : List Char} (h : ∀ c ∈ cs, isSpace c = false) :
    stripChars cs = cs := by
  have key : ∀ ds : List Char, (∀ c ∈ ds, isSpace c = false) → ds.dropWhile isSpace = ds := by
    intro ds hds
    cases ds with
    | nil => rfl
    | cons d ds => simp [hds d (by simp)]
  rw [stripChars, key cs h, key cs.reverse (by simpa using h), List.reverse_reverse]

theorem readDigits_numeral {cs : List Char} (h : ∀ c ∈ cs, IsAsciiDigit c) (value : Nat) :
    readDigits value true cs =
      some (cs.foldl (fun n c => 10 * n + (c.toNat - '0'.toNat)) value) := by
  induction cs generalizing value with
  | nil => simp [readDigits]
  | cons c cs ih =>
      have hc : IsAsciiDigit c := h c (by simp)
      have hne : c ≠ '_' := by
        rintro rfl
        exact absurd hc (by decide)
      rw [readDigits, if_neg hne, digit?_of_isAsciiDigit hc]
      exact ih (fun d hd => h d (by simp [hd])) _

/-- `int` reads back every nonempty decimal numeral that is not too long. -/
theorem parseInt_numeral {cs : List Char} (hne : cs ≠ []) (h : ∀ c ∈ cs, IsAsciiDigit c)
    (hlen : cs.length ≤ maxIntDigits) : parseInt cs = some (numeralValue cs : Int) := by
  have hstrip : stripChars cs = cs :=
    stripChars_eq_self fun c hc => isSpace_eq_false_of_isAsciiDigit (h c hc)
  cases cs with
  | nil => exact absurd rfl hne
  | cons c cs =>
      have hc : IsAsciiDigit c := h c (by simp)
      have hminus : c ≠ '-' := by rintro rfl; exact absurd hc (by decide)
      have hplus : c ≠ '+' := by rintro rfl; exact absurd hc (by decide)
      have hunder : c ≠ '_' := by rintro rfl; exact absurd hc (by decide)
      have hfew : ¬ maxIntDigits < ((c :: cs).filter (· ≠ '_')).length :=
        Nat.not_lt.mpr (le_trans (List.length_filter_le _ _) hlen)
      have hread : readDigits 0 false (c :: cs) = some (numeralValue (c :: cs)) := by
        rw [readDigits, if_neg hunder, digit?_of_isAsciiDigit hc]
        exact readDigits_numeral (fun d hd => h d (by simp [hd])) _
      simp only [parseInt, hstrip]
      split
      · rename_i heq; simp_all
      · rename_i heq; simp_all
      · rw [if_neg hfew, hread]
        rfl

theorem stripChars_stripChars (cs : List Char) : stripChars (stripChars cs) = stripChars cs := by
  have hfront : (stripChars cs).dropWhile isSpace = stripChars cs := by
    rw [List.dropWhile_eq_self_iff]
    intro hlength
    have hstart : stripChars cs <+: cs.dropWhile isSpace := List.rdropWhile_prefix isSpace _
    have hdropped := List.dropWhile_eq_self_iff.mp
      (List.dropWhile_idempotent isSpace cs) (hlength.trans_le hstart.length_le)
    rwa [hstart.getElem hlength]
  show ((stripChars cs).dropWhile isSpace).rdropWhile isSpace = stripChars cs
  rw [hfront]
  exact List.rdropWhile_idempotent isSpace (cs.dropWhile isSpace)

@[simp] theorem strip_strip (s : String) : strip (strip s) = strip s := by
  simp only [strip, String.toList_ofList, stripChars_stripChars]

theorem isUpper_iff (c : Char) : ('A' ≤ c ∧ c ≤ 'Z') ↔ 65 ≤ c.toNat ∧ c.toNat ≤ 90 := by
  simp only [Char.le_def, UInt32.le_iff_toNat_le]
  exact Iff.rfl

theorem lowerChar_lowerChar (c : Char) : lowerChar (lowerChar c) = lowerChar c := by
  by_cases hupper : 'A' ≤ c ∧ c ≤ 'Z'
  · have hrange := (isUpper_iff c).mp hupper
    have hvalid : (c.toNat + 32).isValidChar := Or.inl (by omega)
    have hnat : (Char.ofNat (c.toNat + 32)).toNat = c.toNat + 32 := by
      rw [Char.ofNat, dif_pos hvalid]
      rfl
    have hlower : lowerChar c = Char.ofNat (c.toNat + 32) := if_pos hupper
    rw [hlower]
    have hnotUpper : ¬ ('A' ≤ Char.ofNat (c.toNat + 32) ∧ Char.ofNat (c.toNat + 32) ≤ 'Z') := by
      rw [isUpper_iff]
      omega
    unfold lowerChar
    rw [if_neg hnotUpper, if_neg (by omega)]
  · by_cases hkelvin : c.toNat = 0x212a
    · have hlower : lowerChar c = 'k' := by
        unfold lowerChar
        rw [if_neg hupper, if_pos hkelvin]
      rw [hlower]
      decide
    · have hlower : lowerChar c = c := by
        unfold lowerChar
        rw [if_neg hupper, if_neg hkelvin]
      rw [hlower, hlower]

@[simp] theorem lower_lower (s : String) : lower (lower s) = lower s := by
  have hchars : ∀ cs : List Char, (cs.map lowerChar).map lowerChar = cs.map lowerChar := by
    intro cs
    rw [List.map_map]
    exact List.map_congr_left fun c _ => lowerChar_lowerChar c
  simp only [lower, String.toList_ofList, hchars]

theorem lower_eq_empty {s : String} : lower s = "" ↔ s = "" := by
  rw [← String.toList_inj, ← String.toList_inj]
  simp [lower]

theorem lowerChar_of_isSpace {c : Char} (h : isSpace c = true) : lowerChar c = c := by
  have hrange : ¬ ('A' ≤ c ∧ c ≤ 'Z') ∧ c.toNat ≠ 0x212a := by
    rw [isUpper_iff]
    simp only [isSpace, Bool.or_eq_true, Bool.and_eq_true, decide_eq_true_eq, beq_iff_eq] at h
    omega
  unfold lowerChar
  rw [if_neg hrange.1, if_neg hrange.2]

/-- A text whose lower case has no blanks has none itself. -/
theorem strip_eq_self_of_lower {s : String} (h : ∀ c ∈ (lower s).toList, isSpace c = false) :
    strip s = s := by
  have hchars : ∀ c ∈ s.toList, isSpace c = false := by
    intro c hc
    by_contra hspace
    have hspace : isSpace c = true := by simpa using hspace
    have hlower : c ∈ (lower s).toList := by
      simp only [lower, String.toList_ofList, List.mem_map]
      exact ⟨c, hc, lowerChar_of_isSpace hspace⟩
    rw [h c hlower] at hspace
    cases hspace
  rw [strip, stripChars_eq_self hchars, String.ofList_toList]

end GhAddressCr.PyText
