import GhAddressCr.EvidenceLedger
import GhAddressCr.SeparatedLines
import Mathlib.Data.List.Sort

/-!
# Ledger files

Evidence is appended to a ledger file as one line of JSON for each record. An import of a legacy
workspace reads the file back. It ends a line where `str.splitlines` does, so the characters
that JSON leaves as they are and that end a line there tear a record apart.
-/
namespace GhAddressCr

open PyText SeparatedLines

namespace Value

/-- One character of a text in JSON; only what JSON requires is escaped. -/
def dumpsChar (c : Char) : List Char :=
  let backslash := Char.ofNat 92
  if c.toNat = 34 ∨ c.toNat = 92 then [backslash, c]
  else if c.toNat = 10 then [backslash, 'n']
  else if c.toNat = 13 then [backslash, 'r']
  else if c.toNat = 9 then [backslash, 't']
  else if c.toNat = 12 then [backslash, 'f']
  else if c.toNat = 8 then [backslash, 'b']
  else if c.toNat < 32 then
    [backslash, 'u', '0', '0', Nat.digitChar (c.toNat / 16), Nat.digitChar (c.toNat % 16)]
  else [c]

def dumpsText (s : String) : List Char :=
  Char.ofNat 34 :: s.toList.flatMap dumpsChar ++ [Char.ofNat 34]

/-- `json.dumps(value, ensure_ascii=False, sort_keys=True, separators=(",", ":"))`; `none` where
it raises `TypeError`. -/
def dumps : Value → Option (List Char)
  | .null => some "null".toList
  | .bool b => some (if b then "true" else "false").toList
  | .int i => some (toString i).toList
  | .float m e => some (reprFloat m e).toList
  | .str s => some (dumpsText s)
  | .time _ => none
  | .list values => (dumpsList values).map fun texts => '[' :: join ',' texts ++ [']']
  | .dict fields => (dumpsFields fields).map fun texts =>
      Char.ofNat 123 :: join ',' ((texts.insertionSort fun a b => a.1 ≤ b.1).map fun field =>
        dumpsText field.1 ++ ':' :: field.2) ++ [Char.ofNat 125]
where
  dumpsList : List Value → Option (List (List Char))
    | [] => some []
    | value :: values => do
        let text ← dumps value
        let texts ← dumpsList values
        return text :: texts
  dumpsFields : List (String × Value) → Option (List (String × List Char))
    | [] => some []
    | (key, value) :: fields => do
        let text ← dumps value
        let texts ← dumpsFields fields
        return (key, text) :: texts

mutual

/-- The texts in a value, keys included. -/
def texts : Value → List String
  | .str s => [s]
  | .list values => textsList values
  | .dict fields => textsFields fields
  | _ => []

def textsList : List Value → List String
  | [] => []
  | value :: values => texts value ++ textsList values

def textsFields : List (String × Value) → List String
  | [] => []
  | (key, value) :: fields => key :: texts value ++ textsFields fields

end

/-! Numbers are written in printable ASCII characters. -/

/-- Only printable ASCII characters. -/
def Printable (cs : List Char) : Prop := ∀ c ∈ cs, 32 ≤ c.toNat ∧ c.toNat < 128

instance (cs : List Char) : Decidable (Printable cs) :=
  decidable_of_iff (cs.all (fun c => 32 ≤ c.toNat ∧ c.toNat < 128) = true) (by simp [Printable])

theorem Printable.append {cs ds : List Char} (h : Printable cs) (h' : Printable ds) :
    Printable (cs ++ ds) := by
  intro c hc
  rcases List.mem_append.mp hc with hc | hc
  · exact h c hc
  · exact h' c hc

theorem Printable.of_subset {cs ds : List Char} (h : Printable cs) (hsub : ds ⊆ cs) :
    Printable ds := fun c hc => h c (hsub hc)

theorem printable_zeros (n : ℕ) : Printable (List.replicate n '0') := by
  intro c hc
  rw [(List.mem_replicate.mp hc).2]
  decide

theorem printable_digits (n : ℕ) : Printable (toString n).toList := by
  intro c hc
  have hmem : c ∈ Nat.toDigits 10 n := by simpa using hc
  have hdigit := Nat.isDigit_of_mem_toDigits (by decide) (by decide) hmem
  simp only [Char.isDigit, Bool.and_eq_true, decide_eq_true_eq] at hdigit
  have hlow : 48 ≤ c.toNat := hdigit.1
  have hhigh : c.toNat ≤ 57 := hdigit.2
  exact ⟨by omega, by omega⟩

theorem printable_int (i : ℤ) : Printable (toString i).toList := by
  cases i with
  | ofNat n => exact printable_digits n
  | negSucc n =>
      have hminus : (toString (Int.negSucc n)).toList = ['-'] ++ (toString (n + 1)).toList := by
        simp [toString, Int.repr]
      rw [hminus]
      exact Printable.append (by simp [Printable]) (printable_digits (n + 1))

theorem printable_reprFloat (m e : ℤ) : Printable (reprFloat m e).toList := by
  unfold reprFloat
  by_cases hzero : m = 0
  · rw [if_pos hzero]
    simp [Printable]
  rw [if_neg hzero]
  have hcore : Printable
      (((toString m.natAbs).toList.reverse.dropWhile (· == '0')).reverse) := by
    refine (printable_digits m.natAbs).of_subset fun c hc => ?_
    exact List.mem_reverse.mp ((List.dropWhile_sublist _).subset (List.mem_reverse.mp hc))
  have hsign : Printable (if m < 0 then "-" else "").toList := by split <;> simp [Printable]
  simp only
  generalize ((toString m.natAbs).toList.reverse.dropWhile (· == '0')).reverse = core at hcore ⊢
  have htake : ∀ n, Printable (core.take n) := fun n =>
    hcore.of_subset fun c hc => List.mem_of_mem_take hc
  have hdrop : ∀ n, Printable (core.drop n) := fun n =>
    hcore.of_subset fun c hc => List.mem_of_mem_drop hc
  split
  · split
    · simp only [String.toList_append, String.toList_ofList]
      exact (hsign.append (by simp [Printable])).append ((printable_zeros _).append hcore)
    · split
      · simp only [String.toList_append, String.toList_ofList]
        exact (hsign.append (hcore.append (printable_zeros _))).append (by simp [Printable])
      · simp only [String.toList_append, String.toList_ofList]
        exact ((hsign.append (htake _)).append (by simp [Printable])).append (hdrop _)
  · simp only [String.toList_append, String.toList_ofList]
    refine (((hsign.append (htake 1)).append ?_).append ?_).append ?_
    · split
      · simp [Printable]
      · simp only [String.toList_append, String.toList_ofList]
        exact Printable.append (by simp [Printable]) (hdrop 1)
    · split <;> simp [Printable]
    · split
      · rw [String.toList_append]
        exact Printable.append (by simp [Printable]) (printable_digits _)
      · exact printable_digits _

/-- One escaped character: it shows, and what is outside ASCII is the character itself. -/
theorem mem_dumpsChar {c d : Char} (h : d ∈ dumpsChar c) :
    32 ≤ d.toNat ∧ (128 ≤ d.toNat → d = c) := by
  have hhex : ∀ n < 16, 32 ≤ (Nat.digitChar n).toNat ∧ (Nat.digitChar n).toNat < 128 := by decide
  have hword : ∀ cs : List Char, Printable cs → d ∈ cs → 32 ≤ d.toNat ∧ (128 ≤ d.toNat → d = c) :=
    fun cs hcs hd => ⟨(hcs d hd).1, fun hlarge => absurd (hcs d hd).2 (by omega)⟩
  unfold dumpsChar at h
  simp only at h
  split at h
  · next hquote =>
    rcases List.mem_cons.mp h with rfl | h
    · exact ⟨by decide, fun hlarge => absurd hlarge (by decide)⟩
    · obtain rfl := List.mem_singleton.mp h
      exact ⟨by omega, fun _ => rfl⟩
  · split_ifs at h with hnewline hreturn htab hfeed hback hcontrol
    · exact hword _ (by simp [Printable]) h
    · exact hword _ (by simp [Printable]) h
    · exact hword _ (by simp [Printable]) h
    · exact hword _ (by simp [Printable]) h
    · exact hword _ (by simp [Printable]) h
    · have hstart : Printable [Char.ofNat 92, 'u', '0', '0'] := by simp [Printable]
      refine hword _ (hstart.append ?_) h
      intro e he
      simp only [List.mem_cons, List.not_mem_nil, or_false] at he
      rcases he with rfl | rfl
      · exact hhex _ (by omega)
      · exact hhex _ (by omega)
    · obtain rfl := List.mem_singleton.mp h
      exact ⟨by omega, fun _ => rfl⟩

theorem dumpsChar_of_large {c : Char} (h : 128 ≤ c.toNat) : dumpsChar c = [c] := by
  unfold dumpsChar
  simp only
  rw [if_neg (by omega), if_neg (by omega), if_neg (by omega), if_neg (by omega),
    if_neg (by omega), if_neg (by omega), if_neg (by omega)]

/-- A text in JSON shows, and outside ASCII it has the characters that the written texts have. -/
structure Carries (text : List Char) (written : Char → Prop) : Prop where
  shows : ∀ c ∈ text, 32 ≤ c.toNat
  large : ∀ c, 128 ≤ c.toNat → (c ∈ text ↔ written c)

theorem Printable.carries {cs : List Char} (h : Printable cs) : Carries cs fun _ => False where
  shows c hc := (h c hc).1
  large c hlarge := by
    have hsmall : c ∉ cs := fun hc => absurd (h c hc).2 (by omega)
    simp [hsmall]

theorem Carries.append {cs ds : List Char} {p q : Char → Prop} (h : Carries cs p)
    (h' : Carries ds q) : Carries (cs ++ ds) fun c => p c ∨ q c where
  shows c hc := by
    rcases List.mem_append.mp hc with hc | hc
    · exact h.shows c hc
    · exact h'.shows c hc
  large c hlarge := by
    rw [List.mem_append, h.large c hlarge, h'.large c hlarge]

theorem Carries.congr {cs : List Char} {p q : Char → Prop} (h : Carries cs p)
    (hpq : ∀ c, p c ↔ q c) : Carries cs q where
  shows := h.shows
  large c hlarge := by rw [h.large c hlarge, hpq]

theorem Carries.of_mem {cs ds : List Char} {p : Char → Prop} (h : Carries cs p)
    (hmem : ∀ c, c ∈ ds ↔ c ∈ cs) : Carries ds p where
  shows c hc := h.shows c ((hmem c).mp hc)
  large c hlarge := by rw [hmem, h.large c hlarge]

theorem mem_join {sep c : Char} {pieces : List (List Char)} :
    (c ∈ join sep pieces → c = sep ∨ c ∈ pieces.flatten) ∧
      (c ∈ pieces.flatten → c ∈ join sep pieces) := by
  induction pieces with
  | nil => simp [join]
  | cons piece pieces ih =>
      cases pieces with
      | nil => simpa [join] using Or.inr
      | cons next pieces =>
          simp only [join, List.mem_append, List.mem_cons, List.flatten_cons] at ih ⊢
          tauto

theorem Carries.join {pieces : List (List Char)} {p : Char → Prop} {sep : Char}
    (h : Carries pieces.flatten p) (hsep : Printable [sep]) : Carries (join sep pieces) p where
  shows c hc := by
    rcases mem_join.1 hc with rfl | hc
    · exact (hsep c (by simp)).1
    · exact h.shows c hc
  large c hlarge := by
    rw [← h.large c hlarge]
    refine ⟨fun hc => ?_, mem_join.2⟩
    rcases mem_join.1 hc with rfl | hc
    · exact absurd (hsep c (by simp)).2 (by omega)
    · exact hc

theorem carries_dumpsText (s : String) : Carries (dumpsText s) (· ∈ s.toList) := by
  have hquote : Printable [Char.ofNat 34] := by simp [Printable]
  have hbody : Carries (s.toList.flatMap dumpsChar) (· ∈ s.toList) := by
    constructor
    · intro d hd
      obtain ⟨c, -, hdc⟩ := List.mem_flatMap.mp hd
      exact (mem_dumpsChar hdc).1
    · intro d hlarge
      rw [List.mem_flatMap]
      constructor
      · rintro ⟨c, hc, hdc⟩
        rw [(mem_dumpsChar hdc).2 hlarge]
        exact hc
      · intro hd
        exact ⟨d, hd, by simp [dumpsChar_of_large hlarge]⟩
  have hall := (hquote.carries.append hbody).append hquote.carries
  exact hall.congr fun c => by simp

mutual

/-- Outside ASCII, a value in JSON has the characters of its texts. -/
theorem carries_dumps : ∀ (value : Value) {text : List Char}, dumps value = some text →
    Carries text fun c => ∃ s ∈ value.texts, c ∈ s.toList
  | .null, text, h => by
      obtain rfl := Option.some.inj h
      exact (Printable.carries (by simp [Printable])).congr fun c => by simp [texts]
  | .bool b, text, h => by
      obtain rfl := Option.some.inj h
      refine (Printable.carries ?_).congr fun c => by simp [texts]
      cases b <;> simp [Printable]
  | .int i, text, h => by
      obtain rfl := Option.some.inj h
      exact (printable_int i).carries.congr fun c => by simp [texts]
  | .float m e, text, h => by
      obtain rfl := Option.some.inj h
      exact (printable_reprFloat m e).carries.congr fun c => by simp [texts]
  | .str s, text, h => by
      obtain rfl := Option.some.inj h
      exact (carries_dumpsText s).congr fun c => by simp [texts]
  | .time t, text, h => by cases h
  | .list values, text, h => by
      obtain ⟨pieces, hpieces, rfl⟩ := Option.map_eq_some_iff.mp h
      have hopen : Printable ['['] := by simp [Printable]
      have hclose : Printable [']'] := by simp [Printable]
      have hcomma : Printable [','] := by simp [Printable]
      have hlist := (carries_dumpsList values hpieces).join hcomma
      exact ((hopen.carries.append hlist).append hclose.carries).congr fun c => by simp [texts]
  | .dict fields, text, h => by
      obtain ⟨pairs, hpairs, rfl⟩ := Option.map_eq_some_iff.mp h
      have hopen : Printable [Char.ofNat 123] := by simp [Printable]
      have hclose : Printable [Char.ofNat 125] := by simp [Printable]
      have hcomma : Printable [','] := by simp [Printable]
      have hsorted : ∀ c, c ∈ ((pairs.insertionSort fun a b => a.1 ≤ b.1).map fun field =>
          dumpsText field.1 ++ ':' :: field.2).flatten ↔
            c ∈ (pairs.map fun field => dumpsText field.1 ++ ':' :: field.2).flatten := by simp
      have hjoined := ((carries_dumpsFields fields hpairs).of_mem hsorted).join hcomma
      exact ((hopen.carries.append hjoined).append hclose.carries).congr fun c => by simp [texts]

theorem carries_dumpsList : ∀ (values : List Value) {pieces : List (List Char)},
    dumps.dumpsList values = some pieces →
      Carries pieces.flatten fun c => ∃ s ∈ textsList values, c ∈ s.toList
  | [], pieces, h => by
      obtain rfl := Option.some.inj h
      exact (Printable.carries (by simp [Printable])).congr fun c => by simp [textsList]
  | value :: values, pieces, h => by
      obtain ⟨text, htext, h⟩ := Option.bind_eq_some_iff.mp h
      obtain ⟨rest, hrest, h⟩ := Option.bind_eq_some_iff.mp h
      obtain rfl := Option.some.inj h
      have hall := (carries_dumps value htext).append (carries_dumpsList values hrest)
      exact hall.congr fun c => by simp [textsList, or_and_right, exists_or]

theorem carries_dumpsFields : ∀ (fields : List (String × Value))
    {pairs : List (String × List Char)}, dumps.dumpsFields fields = some pairs →
      Carries (pairs.map fun field => dumpsText field.1 ++ ':' :: field.2).flatten
        fun c => ∃ s ∈ textsFields fields, c ∈ s.toList
  | [], pairs, h => by
      obtain rfl := Option.some.inj h
      exact (Printable.carries (by simp [Printable])).congr fun c => by simp [textsFields]
  | (key, value) :: fields, pairs, h => by
      obtain ⟨text, htext, h⟩ := Option.bind_eq_some_iff.mp h
      obtain ⟨rest, hrest, h⟩ := Option.bind_eq_some_iff.mp h
      obtain rfl := Option.some.inj h
      have hcolon : Printable [':'] := by simp [Printable]
      have hfield := (carries_dumpsText key).append
        (hcolon.carries.append (carries_dumps value htext))
      have hall := hfield.append (carries_dumpsFields fields hrest)
      exact hall.congr fun c => by simp [textsFields, or_and_right, exists_or, or_assoc]

end

/-! A rendering of ASCII texts is ASCII. -/

/-- No text in the value has a character outside ASCII. -/
def Ascii (value : Value) : Prop := ∀ text ∈ value.texts, ∀ c ∈ text.toList, c.toNat < 128

theorem ascii_reprStr {s : String} (h : ∀ c ∈ s.toList, c.toNat < 128) :
    ∀ c ∈ (reprStr s).toList, c.toNat < 128 := by
  have hhex : ∀ n < 16, (Nat.digitChar n).toNat < 128 := by decide
  intro c hc
  simp only [reprStr, String.toList_ofList, List.cons_append, List.mem_cons, List.mem_append,
    List.mem_flatMap, List.not_mem_nil, or_false] at hc
  have hquote : ∀ d : Char, d = (if s.toList.contains (Char.ofNat 39) &&
      !s.toList.contains (Char.ofNat 34) then Char.ofNat 34 else Char.ofNat 39) →
      d.toNat < 128 := by
    rintro d rfl
    split <;> decide
  generalize (if s.toList.contains (Char.ofNat 39) && !s.toList.contains (Char.ofNat 34) then
    Char.ofNat 34 else Char.ofNat 39) = quote at hc hquote
  rcases hc with hc | ⟨d, hd, hc⟩ | hc
  · exact hquote c hc
  · have hlow := h d hd
    split_ifs at hc <;> simp only [List.mem_cons, List.not_mem_nil, or_false] at hc
    · rcases hc with rfl | rfl
      · decide
      · exact hlow
    · rcases hc with rfl | rfl <;> decide
    · rcases hc with rfl | rfl <;> decide
    · rcases hc with rfl | rfl <;> decide
    · rcases hc with rfl | rfl | rfl | rfl
      · decide
      · decide
      · exact hhex _ (by omega)
      · exact hhex _ (by omega)
    · rw [hc]
      exact hlow
  · exact hquote c hc

mutual

/-- A rendering shows no character that the texts do not have. -/
theorem ascii_repr : ∀ {value : Value}, value.Ascii → ∀ c ∈ value.repr.toList, c.toNat < 128
  | .null, _ => by simp [repr]
  | .bool b, _ => by cases b <;> simp [repr]
  | .int i, _ => fun c hc => (printable_int i c hc).2
  | .time t, _ => fun c hc => (printable_int t c hc).2
  | .float m e, _ => fun c hc => (printable_reprFloat m e c hc).2
  | .str s, h => ascii_reprStr (h s (by simp [texts]))
  | .list values, h => by
      have hall := ascii_reprList h
      have hopen : Printable "[".toList := by simp [Printable]
      have hclose : Printable "]".toList := by simp [Printable]
      simp only [repr, String.toList_append, List.mem_append]
      rintro c ((hc | hc) | hc)
      · exact (hopen c hc).2
      · exact hall c hc
      · exact (hclose c hc).2
  | .dict fields, h => by
      have hall := ascii_reprFields h
      have hopen : Printable "\x7b".toList := by simp [Printable]
      have hclose : Printable "\x7d".toList := by simp [Printable]
      simp only [repr, String.toList_append, List.mem_append]
      rintro c ((hc | hc) | hc)
      · exact (hopen c hc).2
      · exact hall c hc
      · exact (hclose c hc).2

theorem ascii_reprList : ∀ {values : List Value},
    (∀ text ∈ textsList values, ∀ c ∈ text.toList, c.toNat < 128) →
      ∀ c ∈ (reprList values).toList, c.toNat < 128
  | [], _ => by simp [reprList]
  | [value], h => by
      have hvalue : value.Ascii := fun text ht => h text (by simp [textsList, ht])
      simpa [reprList] using ascii_repr hvalue
  | value :: other :: values, h => by
      have hvalue : value.Ascii := fun text ht => h text (by simp [textsList, ht])
      have hrest := @ascii_reprList (other :: values)
        fun text ht => h text (by rw [textsList]; exact List.mem_append_right _ ht)
      have hcomma : Printable ", ".toList := by simp [Printable]
      simp only [reprList, String.toList_append, List.mem_append]
      rintro c ((hc | hc) | hc)
      · exact ascii_repr hvalue c hc
      · exact (hcomma c hc).2
      · exact hrest c hc

theorem ascii_reprFields : ∀ {fields : List (String × Value)},
    (∀ text ∈ textsFields fields, ∀ c ∈ text.toList, c.toNat < 128) →
      ∀ c ∈ (reprFields fields).toList, c.toNat < 128
  | [], _ => by simp [reprFields]
  | [(key, value)], h => by
      have hkey := ascii_reprStr (h key (by simp [textsFields]))
      have hvalue : value.Ascii := fun text ht => h text (by simp [textsFields, ht])
      have hcolon : Printable ": ".toList := by simp [Printable]
      simp only [reprFields, String.toList_append, List.mem_append]
      rintro c ((hc | hc) | hc)
      · exact hkey c hc
      · exact (hcolon c hc).2
      · exact ascii_repr hvalue c hc
  | (key, value) :: other :: fields, h => by
      have hkey := ascii_reprStr (h key (by simp [textsFields]))
      have hvalue : value.Ascii := fun text ht => h text (by simp [textsFields, ht])
      have hrest := @ascii_reprFields (other :: fields)
        fun text ht => h text (by rw [textsFields]; exact List.mem_append_right _ ht)
      have hcolon : Printable ": ".toList := by simp [Printable]
      have hcomma : Printable ", ".toList := by simp [Printable]
      simp only [reprFields, String.toList_append, List.mem_append]
      rintro c ((((hc | hc) | hc) | hc) | hc)
      · exact hkey c hc
      · exact (hcolon c hc).2
      · exact ascii_repr hvalue c hc
      · exact (hcomma c hc).2
      · exact hrest c hc

end

theorem ascii_text {value : Value} (h : value.Ascii) : ∀ c ∈ value.text.toList, c.toNat < 128 := by
  cases value with
  | str s => exact h s (by simp [texts])
  | null | bool | int | time | float | list | dict => exact ascii_repr h

theorem ascii_str {s : String} (h : ∀ c ∈ s.toList, c.toNat < 128) : (Value.str s).Ascii := by
  intro text ht
  obtain rfl : text = s := by simpa [texts] using ht
  exact h

theorem ascii_textsFields {fields : List (String × Value)}
    (h : ∀ field ∈ fields, (∀ c ∈ field.1.toList, c.toNat < 128) ∧ field.2.Ascii) :
    ∀ text ∈ textsFields fields, ∀ c ∈ text.toList, c.toNat < 128 := by
  induction fields with
  | nil => simp [textsFields]
  | cons field fields ih =>
      obtain ⟨hkey, hvalue⟩ := h field List.mem_cons_self
      intro text ht
      rw [textsFields] at ht
      rcases List.mem_append.mp ht with ht | ht
      · rcases List.mem_cons.mp ht with rfl | ht
        · exact hkey
        · exact hvalue text ht
      · exact ih (fun other hother => h other (List.mem_cons_of_mem field hother)) text ht

theorem ascii_ofFields {fields : List (String × Value)}
    (h : ∀ field ∈ fields, (∀ c ∈ field.1.toList, c.toNat < 128) ∧ field.2.Ascii) :
    (Dict.ofFields fields).toValue.Ascii := by
  have hfold : ∀ (fields : List (String × Value)) (d : Dict),
      (∀ field ∈ fields, (∀ c ∈ field.1.toList, c.toNat < 128) ∧ field.2.Ascii) →
      (∀ field ∈ d.toList, (∀ c ∈ field.1.toList, c.toNat < 128) ∧ field.2.Ascii) →
      ∀ field ∈ (fields.foldl (fun d f => d.insert f.1 f.2) d).toList,
        (∀ c ∈ field.1.toList, c.toNat < 128) ∧ field.2.Ascii := by
    intro fields
    induction fields with
    | nil => exact fun d _ hd => hd
    | cons field fields ih =>
        intro d hfields hd
        refine ih _ (fun other hother => hfields other (List.mem_cons_of_mem field hother)) ?_
        intro other hother
        have hfound := Std.ExtTreeMap.mem_toList_iff_getElem?_eq_some.mp hother
        rw [Std.ExtTreeMap.getElem?_insert] at hfound
        split at hfound
        · next hkey =>
          obtain ⟨hname, hvalue⟩ := hfields field List.mem_cons_self
          rw [← Option.some.inj hfound, ← Std.LawfulEqCmp.compare_eq_iff_eq.mp hkey]
          exact ⟨hname, hvalue⟩
        · exact hd other (Std.ExtTreeMap.mem_toList_iff_getElem?_eq_some.mpr hfound)
  exact ascii_textsFields (hfold fields ∅ h (by simp))

theorem ascii_list {values : List Value} (h : ∀ value ∈ values, value.Ascii) :
    (Value.list values).Ascii := by
  induction values with
  | nil => simp [Ascii, texts, textsList]
  | cons value values ih =>
      intro text ht
      rw [texts, textsList] at ht
      rcases List.mem_append.mp ht with ht | ht
      · exact h value List.mem_cons_self text ht
      · exact ih (fun other hother => h other (List.mem_cons_of_mem value hother)) text ht

theorem ascii_null : Value.null.Ascii := by simp [Ascii, texts]

end Value

/-- An `EvidenceRecord` as its file holds it. -/
structure LedgerRecord where
  recordId : String
  timestamp : String
  sessionId : String
  itemId : String
  leaseId : Value
  agentId : String
  role : String
  eventType : String
  payload : Dict
  payloadHash : String
  deriving DecidableEq

namespace LedgerRecord

def toJson (record : LedgerRecord) : Dict :=
  Dict.ofFields
    [("record_id", .str record.recordId), ("timestamp", .str record.timestamp),
      ("session_id", .str record.sessionId), ("item_id", .str record.itemId),
      ("lease_id", record.leaseId), ("agent_id", .str record.agentId), ("role", .str record.role),
      ("event_type", .str record.eventType), ("payload", record.payload.toValue),
      ("payload_hash", .str record.payloadHash)]

/-- `EvidenceRecord.new` with the time stamp as a text. -/
def new (sessionId itemId : String) (leaseId : Option String) (agentId role eventType : String)
    (payload : Dict) (timestamp : String) : LedgerRecord where
  recordId := (stableId "ev" (Dict.ofFields [
    ("timestamp", .str timestamp), ("session_id", .str sessionId), ("item_id", .str itemId),
    ("lease_id", optionalText leaseId), ("agent_id", .str agentId), ("role", .str role),
    ("event_type", .str eventType), ("payload_hash", .str (hashPayload payload).text)])).text
  timestamp := timestamp
  sessionId := sessionId
  itemId := itemId
  leaseId := optionalText leaseId
  agentId := agentId
  role := role
  eventType := eventType
  payload := payload
  payloadHash := (hashPayload payload).text

/-- `from_json`; `none` where it raises. -/
def fromJson (value : Dict) : Option LedgerRecord := do
  let recordId ← value["record_id"]?
  let timestamp ← value["timestamp"]?
  let sessionId ← value["session_id"]?
  let itemId ← value["item_id"]?
  let agentId ← value["agent_id"]?
  let role ← value["role"]?
  let eventType ← value["event_type"]?
  let payload ← ((value.get "payload").orElse (.dict [])).toMapping?
  let payloadHash ← value["payload_hash"]?
  return {
    recordId := recordId.text, timestamp := timestamp.text, sessionId := sessionId.text
    itemId := itemId.text, leaseId := value.get "lease_id", agentId := agentId.text
    role := role.text, eventType := eventType.text, payload, payloadHash := payloadHash.text }

theorem fromJson_toJson (record : LedgerRecord) : fromJson record.toJson = some record := by
  have hlookup : record.toJson["record_id"]? = some (.str record.recordId) ∧
      record.toJson["timestamp"]? = some (.str record.timestamp) ∧
      record.toJson["session_id"]? = some (.str record.sessionId) ∧
      record.toJson["item_id"]? = some (.str record.itemId) ∧
      record.toJson["agent_id"]? = some (.str record.agentId) ∧
      record.toJson["role"]? = some (.str record.role) ∧
      record.toJson["event_type"]? = some (.str record.eventType) ∧
      record.toJson["payload_hash"]? = some (.str record.payloadHash) := by
    simp only [toJson, Dict.ofFields, List.foldl_cons, List.foldl_nil,
      Std.ExtTreeMap.getElem?_insert, Std.LawfulEqCmp.compare_eq_iff_eq, String.reduceEq, if_false,
      if_true, and_self]
  have hget : record.toJson.get "lease_id" = record.leaseId ∧
      record.toJson.get "payload" = record.payload.toValue := by
    simp only [toJson, Dict.ofFields, List.foldl_cons, List.foldl_nil, Dict.get_insert,
      String.reduceEq, if_false, if_true, and_self]
  obtain ⟨hid, htime, hsession, hitem, hagent, hrole, hevent, hhash⟩ := hlookup
  have hpayload : (record.payload.toValue.orElse (.dict [])).toMapping? = some record.payload := by
    unfold Value.orElse
    split
    · rw [Dict.toValue, Value.toMapping?, Dict.ofFields_toList]
    · next hempty =>
      have hlist : record.payload.toList = [] := by
        simpa [Dict.toValue, Value.truthy] using hempty
      rw [Value.toMapping?, ← hlist, Dict.ofFields_toList]
  unfold fromJson
  simp only [hid, htime, hsession, hitem, hagent, hrole, hevent, hhash, hget, hpayload,
    Option.pure_def, Option.bind_eq_bind, Option.bind_some, Value.text_str]

end LedgerRecord

/-- The end of a line as it is written. -/
def newline : Char := Char.ofNat 10

/-- `EvidenceLedger.append`, on the content of the file if there is one; `none` where the record
is not JSON. -/
def appendRecord (ledger : Option (List Char)) (record : LedgerRecord) : Option (List Char) :=
  record.toJson.toValue.dumps.map fun text => ledger.getD [] ++ (text ++ [newline])

/-- Records appended one after the other. -/
def appendRecords : Option (List Char) → List LedgerRecord → Option (Option (List Char))
  | ledger, [] => some ledger
  | ledger, record :: records => do
      let content ← appendRecord ledger record
      appendRecords (some content) records

/-- The text a file is read as: every line end of a text file becomes a newline. -/
def universalNewlines : List Char → List Char
  | [] => []
  | c :: cs =>
      if c.toNat = 13 then
        if cs.head?.any (·.toNat = 10) then universalNewlines cs
        else newline :: universalNewlines cs
      else c :: universalNewlines cs

/-- The characters that end a line for `str.splitlines`. -/
def isLineEnd (c : Char) : Bool :=
  let n := c.toNat
  (10 ≤ n && n ≤ 13) || (28 ≤ n && n ≤ 30) || n == 0x85 || n == 0x2028 || n == 0x2029

section Reader

variable (loads : List Char → Option Value)

/-- The record of one line, as `json.loads` decodes it; `none` where it is malformed. -/
def readLegacyLine (line : List Char) : Option Dict := do
  let value ← loads line
  let raw ← value.toDict?
  let record ← LedgerRecord.fromJson raw
  if (hashPayload record.payload).text = record.payloadHash then some record.toJson else none

/-- `_read_legacy_evidence`; `none` where the ledger is malformed. -/
def readLegacyEvidence : Option (List Char) → Option (List Dict)
  | none => some []
  | some content =>
      ((splitLines isLineEnd (universalNewlines content)).filter (stripChars · ≠ [])).mapM
        (readLegacyLine loads)

end Reader

theorem universalNewlines_eq_self {cs : List Char} (h : ∀ c ∈ cs, c.toNat ≠ 13) :
    universalNewlines cs = cs := by
  induction cs with
  | nil => rfl
  | cons c cs ih =>
      rw [universalNewlines, if_neg (h c (by simp)), ih fun d hd => h d (by simp [hd])]

theorem stripChars_ne_nil_iff {cs : List Char} :
    stripChars cs ≠ [] ↔ cs.any (fun c => !isSpace c) = true := by
  have hempty : stripChars cs = [] ↔ ∀ c ∈ cs, isSpace c = true := by
    have hblank : cs.dropWhile isSpace = [] ↔ ∀ c ∈ cs, isSpace c = true :=
      List.dropWhile_eq_nil_iff
    unfold stripChars
    rw [List.reverse_eq_nil_iff, List.dropWhile_eq_nil_iff, ← hblank]
    constructor
    · intro h
      by_contra hne
      have hhead := List.head_dropWhile_not isSpace hne
      have hspace := h _ (List.mem_reverse.mpr (List.head_mem hne))
      rw [hhead] at hspace
      cases hspace
    · intro h
      simp [h]
  rw [ne_eq, hempty]
  simp

theorem appendRecords_eq_some {records : List LedgerRecord} {start ledger : Option (List Char)}
    (h : appendRecords start records = some ledger) : ∃ lines : List (List Char),
      records.mapM (fun record => record.toJson.toValue.dumps) = some lines ∧
      ledger.getD [] = start.getD [] ++ joinLines newline lines := by
  induction records generalizing start with
  | nil =>
      obtain rfl := Option.some.inj h
      exact ⟨[], rfl, by simp⟩
  | cons record records ih =>
      rw [appendRecords] at h
      obtain ⟨content, hcontent, h⟩ := Option.bind_eq_some_iff.mp h
      unfold appendRecord at hcontent
      obtain ⟨text, htext, rfl⟩ := Option.map_eq_some_iff.mp hcontent
      obtain ⟨lines, hlines, hledger⟩ := ih h
      refine ⟨text :: lines, ?_, ?_⟩
      · rw [List.mapM_cons, htext, hlines]
        rfl
      · rw [hledger]
        simp

theorem readLegacyEvidence_getD (loads : List Char → Option Value) (ledger : Option (List Char)) :
    readLegacyEvidence loads ledger = readLegacyEvidence loads (some (ledger.getD [])) := by
  cases ledger with
  | none => rfl
  | some content => rfl

/-- The characters that end a line and that JSON leaves as they are. -/
def isUnescapedEnd (c : Char) : Bool :=
  let n := c.toNat
  n == 0x85 || n == 0x2028 || n == 0x2029

/-- A record that its own line gives back: it has the hash of its payload, and none of its texts
has a character that tears the line. -/
def LedgerRecord.ReadsBack (record : LedgerRecord) : Prop :=
  record.payloadHash = (hashPayload record.payload).text ∧
    ∀ text ∈ record.toJson.toValue.texts, ∀ c ∈ text.toList, isUnescapedEnd c = false

theorem isSpace_of_isLineEnd {c : Char} (h : isLineEnd c = true) : (!isSpace c) = false := by
  have hspace : isSpace c = true := by
    simp only [isLineEnd, isSpace, Bool.or_eq_true, Bool.and_eq_true, decide_eq_true_eq,
      beq_iff_eq] at h ⊢
    omega
  rw [hspace]
  rfl

theorem isLineEnd_newline : isLineEnd newline = true := by decide

theorem isLineEnd_eq_isUnescapedEnd {c : Char} (h : 32 ≤ c.toNat) :
    isLineEnd c = isUnescapedEnd c := by
  rw [Bool.eq_iff_iff]
  simp only [isLineEnd, isUnescapedEnd, Bool.or_eq_true, Bool.and_eq_true, decide_eq_true_eq,
    beq_iff_eq]
  omega

theorem large_of_isUnescapedEnd {c : Char} (h : isUnescapedEnd c = true) : 128 ≤ c.toNat := by
  simp only [isUnescapedEnd, Bool.or_eq_true, beq_iff_eq] at h
  omega

section Line

variable {document : Dict} {line : List Char} (h : document.toValue.dumps = some line)
include h

theorem dumps_eq_braces : ∃ body, line = Char.ofNat 123 :: body ++ [Char.ofNat 125] := by
  obtain ⟨pairs, -, rfl⟩ := Option.map_eq_some_iff.mp h
  exact ⟨_, rfl⟩

theorem shows_of_dumps : ∀ c ∈ line, 32 ≤ c.toNat := (Value.carries_dumps _ h).shows

/-- A line without such a character is one line for the reader. -/
theorem isLineEnd_of_dumps
    (hwhole : ∀ text ∈ document.toValue.texts, ∀ c ∈ text.toList, isUnescapedEnd c = false) :
    ∀ c ∈ line, isLineEnd c = false := by
  intro c hc
  rw [isLineEnd_eq_isUnescapedEnd (shows_of_dumps h c hc)]
  by_contra hend
  have hunescaped : isUnescapedEnd c = true := by simpa using hend
  obtain ⟨text, htext, hmem⟩ :=
    ((Value.carries_dumps _ h).large c (large_of_isUnescapedEnd hunescaped)).mp hc
  exact hend (hwhole text htext c hmem)

/-- A line with such a character is torn between its braces. -/
theorem broken_of_dumps {text : String} {c : Char} (htext : text ∈ document.toValue.texts)
    (hc : c ∈ text.toList) (hend : isUnescapedEnd c = true) :
    Broken isLineEnd (fun c => !isSpace c) line := by
  have hlarge := large_of_isUnescapedEnd hend
  have hmem : c ∈ line := ((Value.carries_dumps _ h).large c hlarge).mpr ⟨text, htext, hc⟩
  have hlineEnd : isLineEnd c = true := by
    rw [isLineEnd_eq_isUnescapedEnd (by omega), hend]
  obtain ⟨body, rfl⟩ := dumps_eq_braces h
  have hbody : c ∈ body := by
    simp only [List.cons_append, List.mem_cons, List.mem_append, List.not_mem_nil, or_false] at hmem
    rcases hmem with rfl | hmem | rfl
    · exact absurd hend (by decide)
    · exact hmem
    · exact absurd hend (by decide)
  obtain ⟨before, after, rfl⟩ := List.append_of_mem hbody
  exact ⟨Char.ofNat 123 :: before, c, after ++ [Char.ofNat 125], by simp, hlineEnd,
    by simp [show isSpace (Char.ofNat 123) = false by decide],
    by simp [show isSpace (Char.ofNat 125) = false by decide]⟩

theorem inked_of_dumps : line.any (fun c => !isSpace c) = true := by
  obtain ⟨body, rfl⟩ := dumps_eq_braces h
  simp [show isSpace (Char.ofNat 123) = false by decide]

end Line

theorem forall₂_of_mapM {α β : Type*} {f : α → Option β} {xs : List α} {ys : List β}
    (h : xs.mapM f = some ys) : List.Forall₂ (fun x y => f x = some y) xs ys := by
  induction xs generalizing ys with
  | nil =>
      obtain rfl := Option.some.inj h
      exact .nil
  | cons x xs ih =>
      rw [List.mapM_cons] at h
      obtain ⟨y, hy, h⟩ := Option.bind_eq_some_iff.mp h
      obtain ⟨rest, hrest, h⟩ := Option.bind_eq_some_iff.mp h
      obtain rfl := Option.some.inj h
      exact .cons hy (ih hrest)

section Read

variable {loads : List Char → Option Value} {records : List LedgerRecord}
  {lines : List (List Char)}
  (hlines : List.Forall₂ (fun record line => record.toJson.toValue.dumps = some line) records lines)
  (hloads : ∀ record ∈ records, ∀ line, record.toJson.toValue.dumps = some line →
    loads line = some record.toJson.toValue)

theorem readLegacyLine_eq {record : LedgerRecord} {line : List Char}
    (hline : loads line = some record.toJson.toValue) :
    readLegacyLine loads line =
      if (hashPayload record.payload).text = record.payloadHash then some record.toJson
      else none := by
  simp only [readLegacyLine, hline, Option.bind_eq_bind, Option.bind_some, Value.toDict?_toValue,
    LedgerRecord.fromJson_toJson]

include hlines

theorem line_of_record {record : LedgerRecord} (h : record ∈ records) :
    ∃ line ∈ lines, record.toJson.toValue.dumps = some line := by
  induction hlines with
  | nil => cases h
  | cons hline _ ih =>
      rcases List.mem_cons.mp h with rfl | h
      · exact ⟨_, by simp, hline⟩
      · obtain ⟨line, hmem, hdumps⟩ := ih h
        exact ⟨line, by simp [hmem], hdumps⟩

theorem record_of_line {line : List Char} (h : line ∈ lines) :
    ∃ record ∈ records, record.toJson.toValue.dumps = some line := by
  induction hlines with
  | nil => cases h
  | cons hline _ ih =>
      rcases List.mem_cons.mp h with rfl | h
      · exact ⟨_, by simp, hline⟩
      · obtain ⟨record, hmem, hdumps⟩ := ih h
        exact ⟨record, by simp [hmem], hdumps⟩

/-- The text of the file is read as it was written. -/
theorem universalNewlines_joinLines :
    universalNewlines (joinLines newline lines) = joinLines newline lines := by
  refine universalNewlines_eq_self fun c hc => ?_
  obtain ⟨line, hline, hmem⟩ := List.mem_flatMap.mp hc
  obtain ⟨record, -, hdumps⟩ := record_of_line hlines hline
  rcases List.mem_append.mp hmem with hmem | hmem
  · have hshows := shows_of_dumps hdumps c hmem
    omega
  · rw [List.mem_singleton.mp hmem]
    decide

/-- More lines are read than records were written when a line is torn. -/
theorem read_torn_ne {content : List Dict}
    (htorn : ∃ line ∈ lines, Broken isLineEnd (fun c => !isSpace c) line)
    (hread : readLegacyEvidence loads (some (joinLines newline lines)) = some content) :
    content.length ≠ records.length := by
  have hink : ∀ line ∈ lines, line.any (fun c => !isSpace c) = true := by
    intro line hline
    obtain ⟨record, -, hdumps⟩ := record_of_line hlines hline
    exact inked_of_dumps hdumps
  have hmore := length_lt_inkedLines isLineEnd_newline (fun c => isSpace_of_isLineEnd) hink htorn
  rw [readLegacyEvidence, universalNewlines_joinLines hlines] at hread
  have hcount := (forall₂_of_mapM hread).length_eq
  have hsame : ((splitLines isLineEnd (joinLines newline lines)).filter
      (stripChars · ≠ [])).length =
        inkedLines (fun c => !isSpace c) (splitLines isLineEnd (joinLines newline lines)) := by
    rw [inkedLines, List.countP_eq_length_filter]
    congr 2
    funext line
    rw [Bool.eq_iff_iff, decide_eq_true_eq]
    exact stripChars_ne_nil_iff
  have hrecords := hlines.length_eq
  omega

include hloads

theorem read_whole (hwhole : ∀ line ∈ lines, ∀ c ∈ line, isLineEnd c = false) :
    readLegacyEvidence loads (some (joinLines newline lines)) = some (records.map (·.toJson)) ↔
      ∀ record ∈ records, record.payloadHash = (hashPayload record.payload).text := by
  have hfilter : lines.filter (stripChars · ≠ []) = lines := by
    refine List.filter_eq_self.mpr fun line hline => ?_
    obtain ⟨record, -, hdumps⟩ := record_of_line hlines hline
    exact decide_eq_true (stripChars_ne_nil_iff.mpr (inked_of_dumps hdumps))
  rw [readLegacyEvidence, universalNewlines_joinLines hlines,
    splitLines_joinLines isLineEnd_newline hwhole, hfilter]
  clear hfilter hwhole
  induction hlines with
  | nil => simp
  | cons hline _ ih =>
      have hrest := ih fun record hrecord => hloads record (by simp [hrecord])
      rw [List.mapM_cons, readLegacyLine_eq (hloads _ (by simp) _ hline), List.map_cons,
        List.forall_mem_cons]
      constructor
      · intro h
        obtain ⟨document, hdocument, h⟩ := Option.bind_eq_some_iff.mp h
        obtain ⟨documents, hdocuments, h⟩ := Option.bind_eq_some_iff.mp h
        obtain ⟨-, rfl⟩ := List.cons.inj (Option.some.inj h)
        split at hdocument
        · next hhash => exact ⟨hhash.symm, hrest.mp hdocuments⟩
        · cases hdocument
      · rintro ⟨hhash, hall⟩
        rw [if_pos hhash.symm, hrest.mpr hall]
        rfl

end Read

/-- A ledger file is read back exactly when each of its records is read back from its line. -/
theorem legacy_ledger_reads_back_iff {loads : List Char → Option Value}
    {records : List LedgerRecord} {ledger : Option (List Char)}
    (hledger : appendRecords none records = some ledger)
    (hloads : ∀ record ∈ records, ∀ line, record.toJson.toValue.dumps = some line →
      loads line = some record.toJson.toValue) :
    readLegacyEvidence loads ledger = some (records.map (·.toJson)) ↔
      ∀ record ∈ records, record.ReadsBack := by
  obtain ⟨lines, hdumps, hcontent⟩ := appendRecords_eq_some hledger
  have hlines := forall₂_of_mapM hdumps
  rw [readLegacyEvidence_getD, hcontent, Option.getD_none, List.nil_append]
  by_cases hwhole : ∀ record ∈ records, ∀ text ∈ record.toJson.toValue.texts,
      ∀ c ∈ text.toList, isUnescapedEnd c = false
  · have hends : ∀ line ∈ lines, ∀ c ∈ line, isLineEnd c = false := by
      intro line hline
      obtain ⟨record, hrecord, hdumped⟩ := record_of_line hlines hline
      exact isLineEnd_of_dumps hdumped (hwhole record hrecord)
    rw [read_whole hlines hloads hends]
    exact forall₂_congr fun record hrecord => ⟨fun hhash => ⟨hhash, hwhole record hrecord⟩, (·.1)⟩
  · push Not at hwhole
    obtain ⟨record, hrecord, text, htext, c, hc, hend⟩ := hwhole
    have hend : isUnescapedEnd c = true := by simpa using hend
    have htorn : ∃ line ∈ lines, Broken isLineEnd (fun c => !isSpace c) line := by
      obtain ⟨line, hline, hdumped⟩ := line_of_record hlines hrecord
      exact ⟨line, hline, broken_of_dumps hdumped htext hc hend⟩
    constructor
    · intro hread
      exact absurd (List.length_map _) (read_torn_ne hlines htorn hread)
    · intro hall
      have hnone := (hall record hrecord).2 text htext c hc
      rw [hend] at hnone
      cases hnone

/-- A record of a reviewer's note. -/
def noteRecord (note : String) : LedgerRecord :=
  LedgerRecord.new "session:1" "finding:1" none "agent" "fixer" "evidence_submitted"
    (Dict.ofFields [("note", .str note)]) "2024-01-01T00:00:00Z"

/-- What `json.loads` gives for the lines of records. -/
def loadsLinesOf (records : List LedgerRecord) (line : List Char) : Option Value :=
  (records.find? fun record => record.toJson.toValue.dumps = some line).map (·.toJson.toValue)

theorem loadsLinesOf_correct {records : List LedgerRecord}
    (hdistinct : (records.map (·.toJson.toValue.dumps)).Nodup) : ∀ record ∈ records, ∀ line,
      record.toJson.toValue.dumps = some line →
        loadsLinesOf records line = some record.toJson.toValue := by
  intro record hrecord line hline
  have hsome : (records.find? fun other => other.toJson.toValue.dumps = some line).isSome := by
    rw [List.find?_isSome]
    exact ⟨record, hrecord, by simpa using hline⟩
  obtain ⟨found, hfound⟩ := Option.isSome_iff_exists.mp hsome
  have hdumps : found.toJson.toValue.dumps = some line := by simpa using List.find?_some hfound
  have hsame : found = record := List.inj_on_of_nodup_map hdistinct
    (List.mem_of_find?_eq_some hfound) hrecord (hdumps.trans hline.symm)
  rw [loadsLinesOf, hfound, hsame, Option.map_some]

/-- A record of ASCII texts is a document of ASCII texts, its digests included. -/
theorem LedgerRecord.ascii_new {sessionId itemId agentId role eventType timestamp : String}
    {payload : Dict} (hpayload : payload.toValue.Ascii)
    (h : ∀ text ∈ [sessionId, itemId, agentId, role, eventType, timestamp],
      ∀ c ∈ text.toList, c.toNat < 128) :
    (LedgerRecord.new sessionId itemId none agentId role eventType payload
      timestamp).toJson.toValue.Ascii := by
  simp only [List.forall_mem_cons] at h
  obtain ⟨hsession, hitem, hagent, hrole, hevent, htime, -⟩ := h
  have hhash := Value.ascii_text hpayload
  have hnone : (optionalText none).Ascii := Value.ascii_null
  have hid : (Value.list [.str "ev", (Dict.ofFields [("timestamp", .str timestamp),
      ("session_id", .str sessionId), ("item_id", .str itemId),
      ("lease_id", optionalText none), ("agent_id", .str agentId), ("role", .str role),
      ("event_type", .str eventType),
      ("payload_hash", .str (hashPayload payload).text)]).toValue]).Ascii := by
    refine Value.ascii_list ?_
    simp only [List.forall_mem_cons]
    refine ⟨Value.ascii_str (by simp), Value.ascii_ofFields ?_, by simp⟩
    simp only [List.forall_mem_cons]
    exact ⟨⟨by simp, Value.ascii_str htime⟩, ⟨by simp, Value.ascii_str hsession⟩, ⟨by simp, Value.ascii_str hitem⟩,
      ⟨by simp, hnone⟩, ⟨by simp, Value.ascii_str hagent⟩, ⟨by simp, Value.ascii_str hrole⟩,
      ⟨by simp, Value.ascii_str hevent⟩, ⟨by simp, Value.ascii_str hhash⟩, by simp⟩
  refine Value.ascii_ofFields ?_
  simp only [List.forall_mem_cons]
  exact ⟨⟨by simp, Value.ascii_str (Value.ascii_text hid)⟩, ⟨by simp, Value.ascii_str htime⟩,
    ⟨by simp, Value.ascii_str hsession⟩, ⟨by simp, Value.ascii_str hitem⟩, ⟨by simp, hnone⟩,
    ⟨by simp, Value.ascii_str hagent⟩, ⟨by simp, Value.ascii_str hrole⟩,
    ⟨by simp, Value.ascii_str hevent⟩, ⟨by simp, hpayload⟩, ⟨by simp, Value.ascii_str hhash⟩,
    by simp⟩

theorem plain_notes_written : (appendRecords none [noteRecord "begun", noteRecord "done"]).isSome ∧
    ([noteRecord "begun", noteRecord "done"].map (·.toJson.toValue.dumps)).Nodup := by
  decide +kernel

/-- Two notes are two lines, in their order. -/
theorem plain_note_reads_back : ∃ ledger,
    appendRecords none [noteRecord "begun", noteRecord "done"] = some ledger ∧
      readLegacyEvidence (loadsLinesOf [noteRecord "begun", noteRecord "done"]) ledger =
        some [(noteRecord "begun").toJson, (noteRecord "done").toJson] := by
  obtain ⟨hwritten, hdistinct⟩ := plain_notes_written
  obtain ⟨ledger, hledger⟩ := Option.isSome_iff_exists.mp hwritten
  refine ⟨ledger, hledger, ?_⟩
  refine (legacy_ledger_reads_back_iff hledger (loadsLinesOf_correct hdistinct)).mpr ?_
  have hnote : ∀ note ∈ ["begun", "done"], (noteRecord note).ReadsBack := by
    intro note hnote
    have hall : (note.toList.all fun c => c.toNat < 128) = true := by
      simp only [List.mem_cons, List.not_mem_nil, or_false] at hnote
      rcases hnote with rfl | rfl <;> decide
    have hchars : ∀ c ∈ note.toList, c.toNat < 128 := by
      simpa using hall
    refine ⟨rfl, fun text htext c hc => ?_⟩
    have hascii : (noteRecord note).toJson.toValue.Ascii :=
      LedgerRecord.ascii_new (Value.ascii_ofFields (by simpa [Value.Ascii, Value.texts] using hchars))
        (by simp)
    have hlow := hascii text htext c hc
    simp only [isUnescapedEnd, Bool.or_eq_false_iff, beq_eq_false_iff_ne]
    omega
  simp only [List.forall_mem_cons, List.not_mem_nil, false_implies, implies_true, and_true] at hnote ⊢
  exact hnote

/-- A note with a Unicode line separator: the program's own ledger is malformed to the reader. -/
theorem separated_note_torn :
    ∃ ledger, appendRecords none [noteRecord "a\u2028b"] = some ledger ∧
      readLegacyEvidence (loadsLinesOf [noteRecord "a\u2028b"]) ledger = none := by
  have hwritten : ((appendRecords none [noteRecord "a\u2028b"]).any fun ledger =>
      (readLegacyEvidence (loadsLinesOf [noteRecord "a\u2028b"]) ledger).isNone) = true := by
    decide +kernel
  obtain ⟨ledger, hledger, hread⟩ := (Option.any_eq_true _ _).mp hwritten
  exact ⟨ledger, hledger, Option.isNone_iff_eq_none.mp hread⟩

end GhAddressCr
