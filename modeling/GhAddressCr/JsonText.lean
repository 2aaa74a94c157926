import GhAddressCr.LedgerLines
import Mathlib.Tactic.IntervalCases

/-!
# JSON text in ASCII

`json.dumps` with its default escapes writes printable ASCII characters only. Its texts delimit
themselves: a scan that counts brackets outside of strings finds the end of a value, whatever
comes behind the value.
-/
namespace GhAddressCr.JsonText

open PyText

def hex4 (n : ℕ) : List Char :=
  [Nat.digitChar (n / 4096), Nat.digitChar (n / 256 % 16), Nat.digitChar (n / 16 % 16),
    Nat.digitChar (n % 16)]

def backslash : Char := Char.ofNat 92

def quote : Char := Char.ofNat 34

/-- `\uXXXX`. -/
def unicodeEscape (n : ℕ) : List Char := backslash :: 'u' :: hex4 n

/-- One character of a text, as `json.dumps` writes it; characters beyond the basic plane are
written as two surrogates. -/
def escapeChar (c : Char) : List Char :=
  if c = quote ∨ c = backslash then [backslash, c]
  else if c.toNat = 10 then [backslash, 'n']
  else if c.toNat = 13 then [backslash, 'r']
  else if c.toNat = 9 then [backslash, 't']
  else if c.toNat = 12 then [backslash, 'f']
  else if c.toNat = 8 then [backslash, 'b']
  else if 32 ≤ c.toNat ∧ c.toNat < 127 then [c]
  else if c.toNat < 65536 then unicodeEscape c.toNat
  else unicodeEscape (55296 + (c.toNat - 65536) / 1024) ++
    unicodeEscape (56320 + (c.toNat - 65536) % 1024)

def escapeText (s : String) : List Char := quote :: s.toList.flatMap escapeChar ++ [quote]

def hexValue (c : Char) : ℕ := if c.toNat < 58 then c.toNat - 48 else c.toNat - 87

theorem hexValue_digitChar {d : ℕ} (h : d < 16) : hexValue (Nat.digitChar d) = d := by
  interval_cases d <;> rfl

/-- The number that four hexadecimal digits stand for. -/
def readHex4 : List Char → ℕ
  | a :: b :: c :: d :: _ =>
      4096 * hexValue a + 256 * hexValue b + 16 * hexValue c + hexValue d
  | _ => 0

theorem readHex4_hex4 {n : ℕ} (h : n < 65536) (rest : List Char) :
    readHex4 (hex4 n ++ rest) = n := by
  simp only [hex4, List.cons_append, readHex4]
  rw [hexValue_digitChar (by omega), hexValue_digitChar (by omega), hexValue_digitChar (by omega),
    hexValue_digitChar (by omega)]
  omega

/-- The character that a written text starts with. -/
def readChar : List Char → Option Char
  | first :: second :: rest =>
      if first ≠ backslash then some first
      else if second = 'n' then some (Char.ofNat 10)
      else if second = 'r' then some (Char.ofNat 13)
      else if second = 't' then some (Char.ofNat 9)
      else if second = 'f' then some (Char.ofNat 12)
      else if second = 'b' then some (Char.ofNat 8)
      else if second = 'u' then
        let n := readHex4 rest
        if 55296 ≤ n ∧ n < 56320 then
          some (Char.ofNat (65536 + (n - 55296) * 1024 + (readHex4 (rest.drop 6) - 56320)))
        else some (Char.ofNat n)
      else some second
  | [first] => some first
  | [] => none

theorem readChar_plain {c : Char} (h : c ≠ backslash) (rest : List Char) :
    readChar (c :: rest) = some c := by
  cases rest with
  | nil => rfl
  | cons second rest => simp [readChar, h]

theorem readChar_unicodeEscape {n : ℕ} (h : n < 65536) (hplain : ¬ (55296 ≤ n ∧ n < 56320))
    (rest : List Char) : readChar (unicodeEscape n ++ rest) = some (Char.ofNat n) := by
  have hread := readHex4_hex4 h rest
  simp only [unicodeEscape, List.cons_append, readChar, hread]
  simp [hplain]

theorem readChar_surrogates {high low : ℕ} (hhigh : high < 1024) (hlow : low < 1024)
    (rest : List Char) :
    readChar (unicodeEscape (55296 + high) ++ (unicodeEscape (56320 + low) ++ rest)) =
      some (Char.ofNat (65536 + high * 1024 + low)) := by
  have hfirst := readHex4_hex4 (n := 55296 + high) (by omega)
    (unicodeEscape (56320 + low) ++ rest)
  have hdrop : (hex4 (55296 + high) ++ (unicodeEscape (56320 + low) ++ rest)).drop 6 =
      hex4 (56320 + low) ++ rest := rfl
  have hsecond := readHex4_hex4 (n := 56320 + low) (by omega) rest
  rw [unicodeEscape, List.cons_append, List.cons_append]
  simp only [readChar, hfirst, hdrop, hsecond]
  rw [if_neg (by decide), if_neg (by decide), if_neg (by decide), if_neg (by decide),
    if_neg (by decide), if_neg (by decide), if_pos trivial, if_pos (by omega)]
  have hcode : 65536 + (55296 + high - 55296) * 1024 + (56320 + low - 56320) =
      65536 + high * 1024 + low := by omega
  rw [hcode]

theorem charOf_toNat {c : Char} {n : ℕ} (h : c.toNat = n) : Char.ofNat n = c := by
  rw [← h, Char.ofNat_toNat]

/-- A written character is read back, whatever follows it. -/
theorem readChar_escapeChar (c : Char) (rest : List Char) :
    readChar (escapeChar c ++ rest) = some c := by
  unfold escapeChar
  split
  · next h => rcases h with rfl | rfl <;> rfl
  next hplain =>
  obtain ⟨-, hslash⟩ := not_or.mp hplain
  split
  · next h => exact congrArg some (charOf_toNat h)
  split
  · next h => exact congrArg some (charOf_toNat h)
  split
  · next h => exact congrArg some (charOf_toNat h)
  split
  · next h => exact congrArg some (charOf_toNat h)
  split
  · next h => exact congrArg some (charOf_toNat h)
  split
  · exact readChar_plain hslash rest
  split
  · next hsmall =>
    have hvalid : ¬ (55296 ≤ c.toNat ∧ c.toNat < 56320) := by
      rcases c.valid with h | h
      · have hlow : c.toNat < 55296 := h
        omega
      · have hhigh : 57343 < c.toNat := h.1
        omega
    rw [readChar_unicodeEscape hsmall hvalid, Char.ofNat_toNat]
  · next hlarge =>
    have hrange : c.toNat < 1114112 := by
      rcases c.valid with h | h
      · have hlow : c.toNat < 55296 := h
        omega
      · exact h.2
    rw [List.append_assoc, readChar_surrogates (by omega) (by omega)]
    refine congrArg some (charOf_toNat ?_)
    omega

theorem escapeChar_ne_nil (c : Char) : ∃ first rest, escapeChar c = first :: rest := by
  have hread := readChar_escapeChar c []
  rw [List.append_nil] at hread
  cases hcs : escapeChar c with
  | nil =>
      rw [hcs] at hread
      cases hread
  | cons first rest => exact ⟨first, rest, rfl⟩

/-- No written character starts with a quote. -/
theorem head_escapeChar {c first : Char} {rest : List Char} (h : escapeChar c = first :: rest) :
    first ≠ quote := by
  rintro rfl
  have hread := readChar_escapeChar c []
  rw [h, List.append_nil, readChar_plain (by decide)] at hread
  obtain rfl := Option.some.inj hread
  have hquote : escapeChar quote = [backslash, quote] := rfl
  rw [hquote] at h
  exact absurd (List.cons.inj h).1 (by decide)

theorem flatMap_escapeChar_inj {s t : List Char} {rest other : List Char}
    (h : s.flatMap escapeChar ++ quote :: rest = t.flatMap escapeChar ++ quote :: other) :
    s = t ∧ rest = other := by
  have hclosed : ∀ (c : Char) (text tail more : List Char),
      (c :: text).flatMap escapeChar ++ tail ≠ quote :: more := by
    intro c text tail more hsame
    obtain ⟨first, body, hbody⟩ := escapeChar_ne_nil c
    rw [List.flatMap_cons, hbody, List.cons_append, List.cons_append] at hsame
    exact head_escapeChar hbody (List.cons.inj hsame).1
  induction s generalizing t with
  | nil =>
      cases t with
      | nil => exact ⟨rfl, (List.cons.inj h).2⟩
      | cons d t => exact absurd h.symm (hclosed d t _ _)
  | cons c s ih =>
      cases t with
      | nil => exact absurd h (hclosed c s _ _)
      | cons d t =>
          rw [List.flatMap_cons, List.flatMap_cons, List.append_assoc, List.append_assoc] at h
          have hsame : c = d := by
            have hread := congrArg readChar h
            rw [readChar_escapeChar, readChar_escapeChar] at hread
            exact Option.some.inj hread
          subst hsame
          obtain ⟨rfl, rfl⟩ := ih (List.append_cancel_left h)
          exact ⟨rfl, rfl⟩

/-- A written text delimits itself. -/
theorem escapeText_append_inj {s t : String} {rest other : List Char}
    (h : escapeText s ++ rest = escapeText t ++ other) : s = t ∧ rest = other := by
  simp only [escapeText, List.cons_append, List.append_assoc] at h
  obtain ⟨hchars, hrest⟩ := flatMap_escapeChar_inj (List.cons.inj h).2
  exact ⟨String.toList_inj.mp hchars, hrest⟩

end GhAddressCr.JsonText
