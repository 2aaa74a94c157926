import GhAddressCr.CommittedViews
import GhAddressCr.JsonText

/-!
# The session projection

`session.json` is written in two ways: by encoding the payload that a load rebuilds, or by putting
together the texts that the rows hold. The rows keep characters outside ASCII as they are, and
the projection escapes them, so the texts of the rows are escaped as they are put together.
-/
namespace GhAddressCr.SessionProjection

open PyText JsonText SessionTables Value

/-- The characters from this one on are escaped. -/
def escapeFrom (first : ℕ) (text : List Char) : List Char :=
  text.flatMap fun c => if c.toNat < first then [c] else escapeChar c

/-- `_ascii_json_fragment`. -/
def asciiJsonFragment (fragment : List Char) : List Char := escapeFrom 128 fragment

/-- The one character of ASCII that an encoder escapes and JSON does not. -/
def del : Char := Char.ofNat 127

/-- `DEL` escaped, and nothing else. -/
def escapeDel (text : List Char) : List Char :=
  text.flatMap fun c => if c = del then escapeChar del else [c]

section Escape

variable {first : ℕ} {cs ds : List Char}

@[simp] theorem escapeFrom_nil : escapeFrom first [] = [] := rfl

@[simp] theorem escapeFrom_append :
    escapeFrom first (cs ++ ds) = escapeFrom first cs ++ escapeFrom first ds :=
  List.flatMap_append

theorem escapeFrom_cons (c : Char) :
    escapeFrom first (c :: cs) = escapeFrom first [c] ++ escapeFrom first cs := by
  simp [escapeFrom]

theorem escapeFrom_of_lt (h : ∀ c ∈ cs, c.toNat < first) : escapeFrom first cs = cs := by
  induction cs with
  | nil => rfl
  | cons c cs ih =>
      rw [escapeFrom_cons, ih fun d hd => h d (List.mem_cons_of_mem c hd)]
      simp [escapeFrom, h c List.mem_cons_self]

theorem escapeFrom_join {sep : Char} (hsep : sep.toNat < first) (pieces : List (List Char)) :
    escapeFrom first (join sep pieces) = join sep (pieces.map (escapeFrom first)) := by
  induction pieces with
  | nil => rfl
  | cons piece pieces ih =>
      cases pieces with
      | nil => rfl
      | cons next pieces =>
          show escapeFrom first (piece ++ sep :: join sep (next :: pieces)) = _
          rw [escapeFrom_append, escapeFrom_cons, ih]
          simp [escapeFrom, hsep, join]

@[simp] theorem escapeDel_append : escapeDel (cs ++ ds) = escapeDel cs ++ escapeDel ds :=
  List.flatMap_append

theorem escapeDel_cons (c : Char) : escapeDel (c :: cs) = escapeDel [c] ++ escapeDel cs := by
  simp [escapeDel]

theorem escapeDel_of_notMem (h : del ∉ cs) : escapeDel cs = cs := by
  induction cs with
  | nil => rfl
  | cons c cs ih =>
      have hc : c ≠ del := fun heq => h (heq ▸ List.mem_cons_self)
      rw [escapeDel_cons, ih fun hmem => h (List.mem_cons_of_mem c hmem)]
      simp [escapeDel, hc]

theorem escapeDel_join {sep : Char} (hsep : sep ≠ del) (pieces : List (List Char)) :
    escapeDel (join sep pieces) = join sep (pieces.map escapeDel) := by
  induction pieces with
  | nil => rfl
  | cons piece pieces ih =>
      cases pieces with
      | nil => rfl
      | cons next pieces =>
          show escapeDel (piece ++ sep :: join sep (next :: pieces)) = _
          rw [escapeDel_append, escapeDel_cons, ih]
          simp [escapeDel, hsep, join]

end Escape

theorem toNat_digitChar_lt {n : ℕ} (h : n < 16) : (Nat.digitChar n).toNat < 127 :=
  (by decide : ∀ n < 16, (Nat.digitChar n).toNat < 127) n h

theorem toNat_lt_of_mem_unicodeEscape {n : ℕ} (hn : n < 65536) {d : Char}
    (h : d ∈ unicodeEscape n) : d.toNat < 127 := by
  simp only [unicodeEscape, hex4, List.mem_cons, List.not_mem_nil, or_false] at h
  rcases h with rfl | rfl | rfl | rfl | rfl | rfl
  · decide
  · decide
  all_goals exact toNat_digitChar_lt (by omega)

/-- Escapes are printable ASCII. -/
theorem toNat_lt_of_mem_escapeChar {c d : Char} (h : d ∈ escapeChar c) : d.toNat < 127 := by
  unfold escapeChar at h
  split_ifs at h with hquote hnewline hreturn htab hfeed hback hplain hbasic
  · rcases List.mem_cons.mp h with rfl | h
    · decide
    · obtain rfl := List.mem_singleton.mp h
      rcases hquote with rfl | rfl <;> decide
  all_goals try
    (simp only [List.mem_cons, List.not_mem_nil, or_false] at h
     rcases h with rfl | rfl <;> decide)
  · obtain rfl := List.mem_singleton.mp h
    exact hplain.2
  · exact toNat_lt_of_mem_unicodeEscape hbasic h
  · have hrange : c.toNat < 1114112 := by
      rcases c.valid with h | h
      · have hlow : c.toNat < 55296 := h
        omega
      · exact h.2
    rcases List.mem_append.mp h with h | h
    · exact toNat_lt_of_mem_unicodeEscape (by omega) h
    · exact toNat_lt_of_mem_unicodeEscape (by omega) h

/-- Below `DEL` the two encoders agree. -/
theorem dumpsChar_of_lt {c : Char} (h : c.toNat < 127) : dumpsChar c = escapeChar c := by
  have hcode {n : ℕ} {d : Char} (hd : d.toNat = n) : c = d ↔ c.toNat = n :=
    ⟨fun heq => heq ▸ hd, fun heq => Char.toNat_inj.mp (heq.trans hd.symm)⟩
  have hquote : c = quote ↔ c.toNat = 34 := hcode rfl
  have hslash : c = backslash ↔ c.toNat = 92 := hcode rfl
  unfold dumpsChar escapeChar
  simp only [hquote, hslash]
  split_ifs with hescaped hnewline hreturn htab hfeed hback hcontrol
  all_goals try rfl
  all_goals try omega
  have hhigh : c.toNat / 4096 = 0 := by omega
  have hmiddle : c.toNat / 256 % 16 = 0 := by omega
  have hlow : c.toNat / 16 % 16 = c.toNat / 16 := by omega
  simp only [unicodeEscape, hex4, hhigh, hmiddle, hlow]
  rfl

/-- Escaping what an encoder requires of JSON is encoding in ASCII. -/
theorem escapeFrom_dumpsChar (c : Char) : escapeFrom 127 (dumpsChar c) = escapeChar c := by
  by_cases hlarge : 127 ≤ c.toNat
  · have hplain : dumpsChar c = [c] := by
      unfold dumpsChar
      simp only
      rw [if_neg (by omega), if_neg (by omega), if_neg (by omega), if_neg (by omega),
        if_neg (by omega), if_neg (by omega), if_neg (by omega)]
    rw [hplain]
    simp [escapeFrom, Nat.not_lt.mpr hlarge]
  · rw [dumpsChar_of_lt (by omega), escapeFrom_of_lt fun d hd => toNat_lt_of_mem_escapeChar hd]

theorem escapeFrom_dumpsText (s : String) : escapeFrom 127 (dumpsText s) = escapeText s := by
  have hquote : escapeFrom 127 [Char.ofNat 34] = [quote] := by decide
  have hbody (cs : List Char) :
      escapeFrom 127 (cs.flatMap dumpsChar) = cs.flatMap escapeChar := by
    induction cs with
    | nil => rfl
    | cons c cs ih => simp [ih, escapeFrom_dumpsChar]
  unfold dumpsText escapeText
  rw [List.cons_append, escapeFrom_cons, escapeFrom_append, hbody, hquote]
  rfl

theorem del_notMem_of_lt {cs : List Char} (h : ∀ c ∈ cs, c.toNat < 127) : del ∉ cs :=
  fun hmem => absurd (h del hmem) (by decide)

/-- `DEL` is all that the escapes of the rows leave to the encoder. -/
theorem escapeDel_escapeFrom (cs : List Char) :
    escapeDel (escapeFrom 128 cs) = escapeFrom 127 cs := by
  induction cs with
  | nil => rfl
  | cons c cs ih =>
      rw [escapeFrom_cons, escapeDel_append, ih, escapeFrom_cons c]
      congr 1
      by_cases hsmall : c.toNat < 128
      · by_cases hplain : c.toNat < 127
        · have hne : del ∉ [c] := del_notMem_of_lt (by simpa using hplain)
          simp only [escapeFrom, List.flatMap_cons, List.flatMap_nil, if_pos hsmall, if_pos hplain,
            List.append_nil]
          exact escapeDel_of_notMem hne
        · have hdel : c = del := Char.toNat_inj.mp (show c.toNat = 127 by omega)
          subst hdel
          rfl
      · have hlarge : ¬ c.toNat < 127 := by omega
        simp only [escapeFrom, List.flatMap_cons, List.flatMap_nil, if_neg hsmall, if_neg hlarge,
          List.append_nil]
        exact escapeDel_of_notMem (del_notMem_of_lt fun d hd => toNat_lt_of_mem_escapeChar hd)

theorem del_notMem_escapeDel (cs : List Char) : del ∉ escapeDel cs := by
  intro hmem
  obtain ⟨c, -, hc⟩ := List.mem_flatMap.mp hmem
  split at hc
  · exact del_notMem_of_lt (fun d hd => toNat_lt_of_mem_escapeChar hd) hc
  · next hne => exact hne (List.mem_singleton.mp hc).symm

section Numbers

variable {p : Char → Prop} (hdigit : ∀ c : Char, c.isDigit = true → p c)

include hdigit

theorem forall_digits (n : ℕ) : ∀ c ∈ (toString n).toList, p c := by
  intro c hc
  have hmem : c ∈ Nat.toDigits 10 n := by simpa using hc
  exact hdigit c (Nat.isDigit_of_mem_toDigits (by decide) (by decide) hmem)

/-- The characters of a number. -/
theorem forall_int (hminus : p '-') (i : ℤ) : ∀ c ∈ (toString i).toList, p c := by
  cases i with
  | ofNat n => exact forall_digits hdigit n
  | negSucc n =>
      have htext : (toString (Int.negSucc n)).toList = '-' :: (toString (n + 1)).toList := by
        simp [toString, Int.repr]
      rw [htext, List.forall_mem_cons]
      exact ⟨hminus, forall_digits hdigit (n + 1)⟩

theorem forall_reprFloat (hsign : p '-') (hplus : p '+') (hpoint : p '.') (hexp : p 'e')
    (m e : ℤ) : ∀ c ∈ (reprFloat m e).toList, p c := by
  have hzero : p '0' := hdigit '0' rfl
  have hzeros (n : ℕ) : ∀ c ∈ List.replicate n '0', p c := fun c hc =>
    (List.mem_replicate.mp hc).2 ▸ hzero
  have hcore : ∀ c ∈ ((toString m.natAbs).toList.reverse.dropWhile (· == '0')).reverse, p c :=
    fun c hc => forall_digits hdigit m.natAbs c
      (List.mem_reverse.mp ((List.dropWhile_sublist _).subset (List.mem_reverse.mp hc)))
  unfold reprFloat
  by_cases hm : m = 0
  · rw [if_pos hm]
    simp [hzero, hpoint]
  rw [if_neg hm]
  simp only
  generalize ((toString m.natAbs).toList.reverse.dropWhile (· == '0')).reverse = core at hcore ⊢
  have htake (n : ℕ) : ∀ c ∈ core.take n, p c := fun c hc => hcore c (List.mem_of_mem_take hc)
  have hdrop (n : ℕ) : ∀ c ∈ core.drop n, p c := fun c hc => hcore c (List.mem_of_mem_drop hc)
  have hminus : ∀ c ∈ (if m < 0 then "-" else "").toList, p c := by
    split <;> simp [hsign]
  split
  · split
    · simp only [String.toList_append, String.toList_ofList, List.forall_mem_append]
      exact ⟨⟨hminus, by simp [hzero, hpoint]⟩, hzeros _, hcore⟩
    · split
      · simp only [String.toList_append, String.toList_ofList, List.forall_mem_append]
        exact ⟨⟨hminus, hcore, hzeros _⟩, by simp [hzero, hpoint]⟩
      · simp only [String.toList_append, String.toList_ofList, List.forall_mem_append]
        exact ⟨⟨⟨hminus, htake _⟩, by simp [hpoint]⟩, hdrop _⟩
  · simp only [String.toList_append, String.toList_ofList, List.forall_mem_append]
    refine ⟨⟨⟨⟨hminus, htake 1⟩, ?_⟩, ?_⟩, ?_⟩
    · split
      · simp
      · simp only [String.toList_append, String.toList_ofList, List.forall_mem_append]
        exact ⟨by simp [hpoint], hdrop 1⟩
    · split <;> simp [hsign, hplus, hexp]
    · split
      · rw [String.toList_append, List.forall_mem_append]
        exact ⟨by simp [hzero], forall_digits hdigit _⟩
      · exact forall_digits hdigit _

end Numbers

/-- `_projection_object`. -/
def projectionObject (fragments : List (String × List Char)) : List Char :=
  Char.ofNat 123 :: join ',' ((fragments.insertionSort fun a b => a.1 ≤ b.1).map fun fragment =>
    escapeText fragment.1 ++ ':' :: fragment.2) ++ [Char.ofNat 125]

/-- `_projection_array`. -/
def projectionArray (fragments : List (List Char)) : List Char := '[' :: join ',' fragments ++ [']']

section Encoder

variable (isoformat : ℤ → String)

mutual

/-- `_projection_dumps`; instants are written by `json_ready`. -/
def projectionDumps : Value → List Char
  | .null => "null".toList
  | .bool b => (if b then "true" else "false").toList
  | .int i => (toString i).toList
  | .float m e => (reprFloat m e).toList
  | .str s => escapeText s
  | .time instant => escapeText (isoformat instant)
  | .list values => projectionArray (projectionDumpsList values)
  | .dict fields => projectionObject (projectionDumpsFields fields)

def projectionDumpsList : List Value → List (List Char)
  | [] => []
  | value :: values => projectionDumps value :: projectionDumpsList values

def projectionDumpsFields : List (String × Value) → List (String × List Char)
  | [] => []
  | (key, value) :: fields => (key, projectionDumps value) :: projectionDumpsFields fields

end

end Encoder

section Texts

theorem toNat_lt_of_isDigit (c : Char) (h : c.isDigit = true) : c.toNat < 127 := by
  simp only [Char.isDigit, Bool.and_eq_true, decide_eq_true_eq] at h
  have hhigh : c.toNat ≤ 57 := h.2
  omega

theorem escapeFrom_projectionObject (pairs : List (String × List Char)) :
    escapeFrom 127 (Char.ofNat 123 ::
      join ',' ((pairs.insertionSort fun a b => a.1 ≤ b.1).map fun field =>
        dumpsText field.1 ++ ':' :: field.2) ++ [Char.ofNat 125]) =
      projectionObject (pairs.map fun pair => (pair.1, escapeFrom 127 pair.2)) := by
  have hopen : escapeFrom 127 [Char.ofNat 123] = [Char.ofNat 123] := by decide
  have hclose : escapeFrom 127 [Char.ofNat 125] = [Char.ofNat 125] := by decide
  have hcolon : escapeFrom 127 [':'] = [':'] := by decide
  have hfield (field : String × List Char) : escapeFrom 127 (dumpsText field.1 ++ ':' :: field.2) =
      escapeText field.1 ++ ':' :: escapeFrom 127 field.2 := by
    rw [escapeFrom_append, escapeFrom_cons ':', escapeFrom_dumpsText, hcolon]
    rfl
  have hsorted : (pairs.map fun pair => (pair.1, escapeFrom 127 pair.2)).insertionSort
      (fun a b => a.1 ≤ b.1) =
        (pairs.insertionSort fun a b => a.1 ≤ b.1).map fun pair =>
          (pair.1, escapeFrom 127 pair.2) :=
    (List.map_insertionSort _ _ (fun pair => (pair.1, escapeFrom 127 pair.2)) pairs
      fun a _ b _ => Iff.rfl).symm
  unfold projectionObject
  rw [hsorted, List.cons_append, escapeFrom_cons, escapeFrom_append,
    escapeFrom_join (by decide), hopen, hclose, List.map_map, List.map_map]
  simp only [Function.comp_def, hfield]
  rfl

variable {isoformat : ℤ → String}

mutual

/-- The encoder in ASCII writes what the encoder of the rows writes, with every character from
`DEL` on escaped. -/
theorem projectionDumps_eq : ∀ (value : Value) {text : List Char}, dumps value = some text →
    projectionDumps isoformat value = escapeFrom 127 text
  | .null, text, h => by
      obtain rfl := Option.some.inj h
      rw [projectionDumps]
      decide
  | .bool b, text, h => by
      obtain rfl := Option.some.inj h
      rw [projectionDumps]
      cases b <;> decide
  | .int i, text, h => by
      obtain rfl := Option.some.inj h
      rw [projectionDumps]
      exact (escapeFrom_of_lt (forall_int toNat_lt_of_isDigit (by decide) i)).symm
  | .float m e, text, h => by
      obtain rfl := Option.some.inj h
      rw [projectionDumps]
      exact (escapeFrom_of_lt (forall_reprFloat toNat_lt_of_isDigit (by decide) (by decide)
        (by decide) (by decide) m e)).symm
  | .str s, text, h => by
      obtain rfl := Option.some.inj h
      rw [projectionDumps, escapeFrom_dumpsText]
  | .time instant, text, h => by cases h
  | .list values, text, h => by
      obtain ⟨texts, htexts, rfl⟩ := Option.map_eq_some_iff.mp h
      rw [projectionDumps, projectionDumpsList_eq values htexts, List.cons_append, escapeFrom_cons,
        escapeFrom_append, escapeFrom_join (by decide)]
      rfl
  | .dict fields, text, h => by
      obtain ⟨pairs, hpairs, rfl⟩ := Option.map_eq_some_iff.mp h
      rw [projectionDumps, projectionDumpsFields_eq fields hpairs]
      exact (escapeFrom_projectionObject pairs).symm

theorem projectionDumpsList_eq : ∀ (values : List Value) {texts : List (List Char)},
    dumps.dumpsList values = some texts →
      projectionDumpsList isoformat values = texts.map (escapeFrom 127)
  | [], texts, h => by
      obtain rfl := Option.some.inj h
      rfl
  | value :: values, texts, h => by
      simp only [dumps.dumpsList, Option.bind_eq_bind, Option.bind_eq_some_iff] at h
      obtain ⟨text, htext, rest, hrest, heq⟩ := h
      obtain rfl := Option.some.inj heq
      rw [projectionDumpsList, projectionDumps_eq value htext, projectionDumpsList_eq values hrest,
        List.map_cons]

theorem projectionDumpsFields_eq : ∀ (fields : List (String × Value))
    {pairs : List (String × List Char)}, dumps.dumpsFields fields = some pairs →
      projectionDumpsFields isoformat fields =
        pairs.map fun pair => (pair.1, escapeFrom 127 pair.2)
  | [], pairs, h => by
      obtain rfl := Option.some.inj h
      rfl
  | (key, value) :: fields, pairs, h => by
      simp only [dumps.dumpsFields, Option.bind_eq_bind, Option.bind_eq_some_iff] at h
      obtain ⟨text, htext, rest, hrest, heq⟩ := h
      obtain rfl := Option.some.inj heq
      rw [projectionDumpsFields, projectionDumps_eq value htext,
        projectionDumpsFields_eq fields hrest, List.map_cons]

end

end Texts

/-- An object whose members are written already. -/
def objectOf (fragments : Rows (List Char)) : List Char := projectionObject fragments.toList

def schemaVersion : ℤ := 3

/-- `{"schema_version": SCHEMA_VERSION, "revision": revision}`. -/
def persistence (revision : ℕ) : Value :=
  .dict [("schema_version", .int schemaVersion), ("revision", .int revision)]

/-- `payload_json` of a row. -/
def rowText (payload : Value) : List Char := payload.dumps.getD []

/-- `_projection_rows`. -/
def projectionRows (payloads : Rows Dict) : List Char :=
  objectOf (payloads.map fun _ payload => asciiJsonFragment (rowText payload.toValue))

def leasePayloads (tables : Tables) : Rows Dict := tables.leases.map fun _ row => row.payload

/-- The members of the projection, as `_write_session_projection_from_rows` puts them together. -/
def projectionFields (isoformat : ℤ → String) (tables : Tables) : Rows (List Char) :=
  let fields := tables.root.map fun _ value => projectionDumps isoformat value
  (((fields.insert "items" (projectionRows (RuntimeStore.itemPayloads tables.items))).insert
    "leases" (projectionRows (leasePayloads tables))).insert "lease_events"
      (projectionArray (tables.leaseEvents.map fun event =>
        asciiJsonFragment (rowText event)))).insert "persistence"
        (projectionDumps isoformat (persistence tables.revision))

/-- What `_write_session_projection_from_rows` writes. -/
def sessionProjectionFromRows (isoformat : ℤ → String) (tables : Tables) : List Char :=
  objectOf (projectionFields isoformat tables) ++ [newline]

/-- What `_write_session_projection` writes. -/
def sessionProjection (isoformat : ℤ → String) (payload : Dict) (revision : ℕ) : List Char :=
  projectionDumps isoformat (payload.set "persistence" (persistence revision)).toValue ++ [newline]

section Members

variable {isoformat : ℤ → String}

theorem projectionDumpsFields_eq_map (fields : List (String × Value)) :
    projectionDumpsFields isoformat fields =
      fields.map fun field => (field.1, projectionDumps isoformat field.2) := by
  induction fields with
  | nil => rfl
  | cons field fields ih => rw [projectionDumpsFields, ih, List.map_cons]

theorem projectionDumpsList_eq_map (values : List Value) :
    projectionDumpsList isoformat values = values.map (projectionDumps isoformat) := by
  induction values with
  | nil => rfl
  | cons value values ih => rw [projectionDumpsList, ih, List.map_cons]

theorem projectionDumps_toValue (d : Dict) :
    projectionDumps isoformat d.toValue =
      objectOf (d.map fun _ value => projectionDumps isoformat value) := by
  rw [Dict.toValue, projectionDumps, projectionDumpsFields_eq_map, objectOf,
    Std.ExtTreeMap.toList_map]

theorem projectionDumps_rowsValue (rows : Rows Dict) :
    projectionDumps isoformat (rowsValue rows) =
      objectOf (rows.map fun _ row => projectionDumps isoformat row.toValue) := by
  rw [rowsValue, projectionDumps_toValue, Std.ExtTreeMap.map_map]

theorem escapeDel_escapeText (s : String) : escapeDel (escapeText s) = escapeText s := by
  refine escapeDel_of_notMem (del_notMem_of_lt fun d hd => ?_)
  simp only [escapeText, List.cons_append, List.mem_cons, List.mem_append, List.mem_flatMap,
    List.not_mem_nil, or_false] at hd
  obtain rfl | ⟨c, -, hc⟩ | rfl := hd
  · decide
  · exact toNat_lt_of_mem_escapeChar hc
  · decide

theorem escapeDel_projectionObject (pairs : List (String × List Char)) :
    escapeDel (projectionObject pairs) =
      projectionObject (pairs.map fun pair => (pair.1, escapeDel pair.2)) := by
  have hopen : escapeDel [Char.ofNat 123] = [Char.ofNat 123] := by decide
  have hclose : escapeDel [Char.ofNat 125] = [Char.ofNat 125] := by decide
  have hcolon : escapeDel [':'] = [':'] := by decide
  have hfield (field : String × List Char) : escapeDel (escapeText field.1 ++ ':' :: field.2) =
      escapeText field.1 ++ ':' :: escapeDel field.2 := by
    rw [escapeDel_append, escapeDel_cons ':', escapeDel_escapeText, hcolon]
    rfl
  have hsorted : (pairs.map fun pair => (pair.1, escapeDel pair.2)).insertionSort
      (fun a b => a.1 ≤ b.1) =
        (pairs.insertionSort fun a b => a.1 ≤ b.1).map fun pair => (pair.1, escapeDel pair.2) :=
    (List.map_insertionSort _ _ (fun pair => (pair.1, escapeDel pair.2)) pairs
      fun a _ b _ => Iff.rfl).symm
  unfold projectionObject
  rw [hsorted, List.cons_append, escapeDel_cons, escapeDel_append, escapeDel_join (by decide),
    hopen, hclose, List.map_map, List.map_map]
  simp only [Function.comp_def, hfield]
  rfl

theorem escapeDel_objectOf (fragments : Rows (List Char)) :
    escapeDel (objectOf fragments) = objectOf (fragments.map fun _ text => escapeDel text) := by
  rw [objectOf, objectOf, escapeDel_projectionObject, Std.ExtTreeMap.toList_map]

theorem escapeDel_projectionArray (fragments : List (List Char)) :
    escapeDel (projectionArray fragments) = projectionArray (fragments.map escapeDel) := by
  unfold projectionArray
  rw [List.cons_append, escapeDel_cons, escapeDel_append, escapeDel_join (by decide)]
  rfl

/-- What the encoder writes has no `DEL`. -/
theorem escapeDel_projectionDumps {value : Value} (h : value.dumps.isSome) :
    escapeDel (projectionDumps isoformat value) = projectionDumps isoformat value := by
  obtain ⟨text, htext⟩ := Option.isSome_iff_exists.mp h
  rw [projectionDumps_eq value htext, ← escapeDel_escapeFrom]
  exact escapeDel_of_notMem (del_notMem_escapeDel _)

/-- The fragment of a row, with `DEL` escaped, is what the encoder writes. -/
theorem escapeDel_fragment {value : Value} (h : value.dumps.isSome) :
    escapeDel (asciiJsonFragment (rowText value)) = projectionDumps isoformat value := by
  obtain ⟨text, htext⟩ := Option.isSome_iff_exists.mp h
  rw [projectionDumps_eq value htext, rowText, htext, Option.getD_some]
  exact escapeDel_escapeFrom text

end Members

/-- The columns of JSON texts hold nothing else. -/
structure HoldsJson (tables : Tables) : Prop where
  root : ∀ (key : String) value, tables.root[key]? = some value → value.dumps.isSome
  items : ∀ (itemId : String) row, tables.items[itemId]? = some row →
    row.payload.toValue.dumps.isSome
  leases : ∀ (leaseId : String) row, tables.leases[leaseId]? = some row →
    row.payload.toValue.dumps.isSome
  leaseEvents : ∀ event ∈ tables.leaseEvents, event.dumps.isSome

/-- The payload of the tables, with the rows as they are stored. -/
def storedPayload (tables : Tables) : Dict :=
  ((tables.root.set "items" (rowsValue (RuntimeStore.itemPayloads tables.items))).set "leases"
    (rowsValue (leasePayloads tables))).set "lease_events" (.list tables.leaseEvents)

section Rows

variable {isoformat : ℤ → String} {tables : Tables}

theorem dumps_persistence (revision : ℕ) : (persistence revision).dumps.isSome := rfl

/-- Escaping `DEL` in the fragments of a table writes it as the encoder does. -/
theorem escapeDel_projectionRows {payloads : Rows Dict}
    (h : ∀ (key : String) payload, payloads[key]? = some payload → payload.toValue.dumps.isSome) :
    escapeDel (projectionRows payloads) = projectionDumps isoformat (rowsValue payloads) := by
  rw [projectionRows, escapeDel_objectOf, projectionDumps_rowsValue, Std.ExtTreeMap.map_map]
  congr 1
  refine Std.ExtTreeMap.ext_getElem? fun key => ?_
  rw [Std.ExtTreeMap.getElem?_map, Std.ExtTreeMap.getElem?_map]
  cases hrow : payloads[key]? with
  | none => rfl
  | some payload => exact congrArg some (escapeDel_fragment (h key payload hrow))

theorem escapeDel_events {events : List Value} (h : ∀ event ∈ events, event.dumps.isSome) :
    escapeDel (projectionArray (events.map fun event => asciiJsonFragment (rowText event))) =
      projectionDumps isoformat (.list events) := by
  rw [escapeDel_projectionArray, projectionDumps, projectionDumpsList_eq_map, List.map_map]
  congr 1
  exact List.map_congr_left fun event hevent => escapeDel_fragment (h event hevent)

/-- Escaping `DEL` in the projection of the rows gives the projection of their payload. -/
theorem escapeDel_projectionFromRows (h : HoldsJson tables) :
    escapeDel (sessionProjectionFromRows isoformat tables) =
      sessionProjection isoformat (storedPayload tables) tables.revision := by
  have hitems : ∀ (key : String) payload,
      (RuntimeStore.itemPayloads tables.items)[key]? = some payload →
        payload.toValue.dumps.isSome := by
    intro key payload hpayload
    rw [RuntimeStore.itemPayloads, Std.ExtTreeMap.getElem?_map, Option.map_eq_some_iff] at hpayload
    obtain ⟨row, hrow, rfl⟩ := hpayload
    exact h.items key row hrow
  have hleases : ∀ (key : String) payload, (leasePayloads tables)[key]? = some payload →
      payload.toValue.dumps.isSome := by
    intro key payload hpayload
    rw [leasePayloads, Std.ExtTreeMap.getElem?_map, Option.map_eq_some_iff] at hpayload
    obtain ⟨row, hrow, rfl⟩ := hpayload
    exact h.leases key row hrow
  have hnewline : escapeDel [newline] = [newline] := by decide
  have hfields : (projectionFields isoformat tables).map (fun _ text => escapeDel text) =
      ((storedPayload tables).set "persistence" (persistence tables.revision)).map
        fun _ value => projectionDumps isoformat value := by
    refine Std.ExtTreeMap.ext_getElem? fun key => ?_
    simp only [projectionFields, storedPayload, Dict.set, Std.ExtTreeMap.getElem?_map,
      Std.ExtTreeMap.getElem?_insert]
    split_ifs
    · exact congrArg some (escapeDel_projectionDumps (dumps_persistence tables.revision))
    · exact congrArg some (escapeDel_events h.leaseEvents)
    · exact congrArg some (escapeDel_projectionRows hleases)
    · exact congrArg some (escapeDel_projectionRows hitems)
    · cases hvalue : tables.root[key]? with
      | none => rfl
      | some value => exact congrArg some (escapeDel_projectionDumps (h.root key value hvalue))
  rw [sessionProjectionFromRows, escapeDel_append, escapeDel_objectOf, hfields, hnewline,
    sessionProjection, projectionDumps_toValue]

theorem escapeDel_eq_self_iff {cs : List Char} : escapeDel cs = cs ↔ del ∉ cs :=
  ⟨fun h => h ▸ del_notMem_escapeDel cs, escapeDel_of_notMem⟩

theorem del_mem_fragment {text : List Char} : del ∈ asciiJsonFragment text ↔ del ∈ text := by
  unfold asciiJsonFragment escapeFrom
  rw [List.mem_flatMap]
  constructor
  · rintro ⟨c, hc, hmem⟩
    split at hmem
    · exact List.mem_singleton.mp hmem ▸ hc
    · exact absurd hmem (del_notMem_of_lt fun d hd => toNat_lt_of_mem_escapeChar hd)
  · intro hmem
    exact ⟨del, hmem, by decide⟩

theorem del_mem_join {sep : Char} (hsep : sep ≠ del) {pieces : List (List Char)} :
    del ∈ join sep pieces ↔ ∃ piece ∈ pieces, del ∈ piece := by
  rw [← List.mem_flatten]
  constructor
  · intro h
    exact (mem_join.1 h).resolve_left fun heq => hsep heq.symm
  · exact mem_join.2

theorem del_mem_projectionArray {fragments : List (List Char)} :
    del ∈ projectionArray fragments ↔ ∃ fragment ∈ fragments, del ∈ fragment := by
  have hopen : del ≠ '[' := by decide
  have hclose : del ≠ ']' := by decide
  rw [← del_mem_join (by decide : (',' : Char) ≠ del)]
  simp [projectionArray, hopen, hclose]

theorem del_mem_objectOf {fragments : Rows (List Char)} :
    del ∈ objectOf fragments ↔
      ∃ (key : String) (text : List Char), fragments[key]? = some text ∧ del ∈ text := by
  have hopen : del ≠ Char.ofNat 123 := by decide
  have hclose : del ≠ Char.ofNat 125 := by decide
  have hcolon : del ≠ ':' := by decide
  have hkey (key : String) : del ∉ escapeText key := by
    rw [← escapeDel_escapeText]
    exact del_notMem_escapeDel _
  have hmember : del ∈ objectOf fragments ↔ ∃ row ∈ fragments.toList, del ∈ row.2 := by
    simp only [objectOf, projectionObject, List.cons_append, List.mem_cons, List.mem_append, hopen,
      hclose, del_mem_join (by decide : (',' : Char) ≠ del), List.mem_map, List.not_mem_nil,
      or_false, false_or, List.mem_insertionSort]
    constructor
    · rintro ⟨_, ⟨row, hrow, rfl⟩, hmem⟩
      refine ⟨row, hrow, ?_⟩
      simpa [hkey, hcolon] using hmem
    · rintro ⟨row, hrow, hmem⟩
      exact ⟨_, ⟨row, hrow, rfl⟩, by simp [hmem]⟩
  rw [hmember]
  constructor
  · rintro ⟨row, hrow, hmem⟩
    exact ⟨row.1, row.2, Std.ExtTreeMap.mem_toList_iff_getElem?_eq_some.mp hrow, hmem⟩
  · rintro ⟨key, text, hrow, hmem⟩
    exact ⟨(key, text), Std.ExtTreeMap.mem_toList_iff_getElem?_eq_some.mpr hrow, hmem⟩

theorem del_notMem_projectionDumps {value : Value} (h : value.dumps.isSome) :
    del ∉ projectionDumps isoformat value :=
  escapeDel_eq_self_iff.mp (escapeDel_projectionDumps h)

theorem del_mem_projectionRows {payloads : Rows Dict} :
    del ∈ projectionRows payloads ↔ ∃ (key : String) (payload : Dict),
      payloads[key]? = some payload ∧ del ∈ rowText payload.toValue := by
  simp only [projectionRows, del_mem_objectOf, Std.ExtTreeMap.getElem?_map, Option.map_eq_some_iff]
  constructor
  · rintro ⟨key, _, ⟨payload, hrow, rfl⟩, hmem⟩
    exact ⟨key, payload, hrow, del_mem_fragment.mp hmem⟩
  · rintro ⟨key, payload, hrow, hmem⟩
    exact ⟨key, _, ⟨payload, hrow, rfl⟩, del_mem_fragment.mpr hmem⟩

/-- Some row of the tables has a `DEL` in its text. -/
def HasDel (tables : Tables) : Prop :=
  (∃ (itemId : String) (payload : Dict),
    (RuntimeStore.itemPayloads tables.items)[itemId]? = some payload ∧
      del ∈ rowText payload.toValue) ∨
  (∃ (leaseId : String) (payload : Dict), (leasePayloads tables)[leaseId]? = some payload ∧
    del ∈ rowText payload.toValue) ∨
  ∃ event ∈ tables.leaseEvents, del ∈ rowText event

theorem del_mem_events {events : List Value} :
    del ∈ projectionArray (events.map fun event => asciiJsonFragment (rowText event)) ↔
      ∃ event ∈ events, del ∈ rowText event := by
  rw [del_mem_projectionArray]
  constructor
  · rintro ⟨_, hfragment, hmem⟩
    obtain ⟨event, hevent, rfl⟩ := List.mem_map.mp hfragment
    exact ⟨event, hevent, del_mem_fragment.mp hmem⟩
  · rintro ⟨event, hevent, hmem⟩
    exact ⟨_, List.mem_map.mpr ⟨event, hevent, rfl⟩, del_mem_fragment.mpr hmem⟩

theorem del_mem_projectionFromRows (h : HoldsJson tables) :
    del ∈ sessionProjectionFromRows isoformat tables ↔ HasDel tables := by
  have hnewline : del ≠ newline := by decide
  have hfields : del ∈ sessionProjectionFromRows isoformat tables ↔
      ∃ (key : String) (text : List Char),
        (projectionFields isoformat tables)[key]? = some text ∧ del ∈ text := by
    rw [sessionProjectionFromRows, List.mem_append, del_mem_objectOf]
    simp [hnewline]
  rw [hfields]
  constructor
  · rintro ⟨key, text, hrow, hmem⟩
    simp only [projectionFields, Std.ExtTreeMap.getElem?_insert] at hrow
    split_ifs at hrow
    · cases hrow
      exact absurd hmem (del_notMem_projectionDumps (dumps_persistence tables.revision))
    · cases hrow
      exact .inr (.inr (del_mem_events.mp hmem))
    · cases hrow
      exact .inr (.inl (del_mem_projectionRows.mp hmem))
    · cases hrow
      exact .inl (del_mem_projectionRows.mp hmem)
    · rw [Std.ExtTreeMap.getElem?_map, Option.map_eq_some_iff] at hrow
      obtain ⟨value, hvalue, rfl⟩ := hrow
      exact absurd hmem (del_notMem_projectionDumps (h.root key value hvalue))
  · rintro (hitems | hleases | hevents)
    · refine ⟨"items", _, ?_, del_mem_projectionRows.mpr hitems⟩
      rw [projectionFields]
      simp only [Std.ExtTreeMap.getElem?_insert]
      rfl
    · refine ⟨"leases", _, ?_, del_mem_projectionRows.mpr hleases⟩
      rw [projectionFields]
      simp only [Std.ExtTreeMap.getElem?_insert]
      rfl
    · refine ⟨"lease_events", _, ?_, del_mem_events.mpr hevents⟩
      rw [projectionFields]
      simp only [Std.ExtTreeMap.getElem?_insert]
      rfl

/-- The two ways to write the payload of the tables differ in nothing but `DEL`, which the rows
keep as it is. -/
theorem projections_of_stored (h : HoldsJson tables) :
    sessionProjection isoformat (storedPayload tables) tables.revision =
      escapeDel (sessionProjectionFromRows isoformat tables) ∧
    (sessionProjectionFromRows isoformat tables =
      sessionProjection isoformat (storedPayload tables) tables.revision ↔ ¬ HasDel tables) := by
  have hescaped := @escapeDel_projectionFromRows isoformat tables h
  refine ⟨hescaped.symm, ?_⟩
  rw [← hescaped, eq_comm, escapeDel_eq_self_iff, del_mem_projectionFromRows h]

end Rows

section Load

variable {fromIsoformat : String → Option ℤ} {isoformat : ℤ → String} {tables : Tables}

variable (isoformat) in
/-- The mappings are written alike. -/
def SameTexts (d d' : Dict) : Prop :=
  ∀ key : String, d[key]?.map (projectionDumps isoformat) = d'[key]?.map (projectionDumps isoformat)

namespace SameTexts

variable {d d' d'' : Dict}

theorem refl (d : Dict) : SameTexts isoformat d d := fun _ => rfl

theorem trans (h : SameTexts isoformat d d') (h' : SameTexts isoformat d' d'') :
    SameTexts isoformat d d'' := fun key => (h key).trans (h' key)

theorem set (h : SameTexts isoformat d d') (key : String) {value value' : Value}
    (hvalue : projectionDumps isoformat value = projectionDumps isoformat value') :
    SameTexts isoformat (d.set key value) (d'.set key value') := by
  intro other
  rw [Dict.getElem?_set, Dict.getElem?_set]
  split_ifs
  · exact congrArg some hvalue
  · exact h other

theorem get (h : SameTexts isoformat d d') (key : String) :
    projectionDumps isoformat (d.get key) = projectionDumps isoformat (d'.get key) := by
  have hkey := h key
  unfold Dict.get
  cases hd : d[key]? with
  | none =>
      rw [hd, Option.map_none, eq_comm, Option.map_eq_none_iff] at hkey
      rw [hkey]
  | some value =>
      rw [hd, Option.map_some, eq_comm, Option.map_eq_some_iff] at hkey
      obtain ⟨value', hvalue', hsame⟩ := hkey
      rw [hvalue']
      exact hsame.symm

theorem toValue (h : SameTexts isoformat d d') :
    projectionDumps isoformat d.toValue = projectionDumps isoformat d'.toValue := by
  rw [projectionDumps_toValue, projectionDumps_toValue]
  congr 1
  refine Std.ExtTreeMap.ext_getElem? fun key => ?_
  rw [Std.ExtTreeMap.getElem?_map, Std.ExtTreeMap.getElem?_map]
  exact h key

end SameTexts

variable (fromIsoformat isoformat) in
/-- The times of a lease that are read are written as they were. -/
def PrintsBack (fields : List String) (lease : Dict) : Prop :=
  ∀ field ∈ fields, ∀ (text : String) (instant : ℤ), lease.get field = .str text →
    fromIsoformat text = some instant → isoformat instant = text

theorem coerceField_sameTexts {lease read : Dict} {field : String}
    (hprints : PrintsBack fromIsoformat isoformat [field] lease)
    (h : coerceField fromIsoformat lease field = some read) : SameTexts isoformat lease read := by
  unfold coerceField at h
  split at h
  · next value hvalue =>
    split at h
    · rw [← Option.some.inj h]
      exact .refl lease
    · obtain ⟨instant, hinstant, rfl⟩ := Option.map_eq_some_iff.mp h
      intro key
      rw [Dict.getElem?_set]
      split_ifs with hkey
      · subst hkey
        have hprinted := hprints field List.mem_cons_self value instant hvalue hinstant
        have hentry : lease[field]? = some (.str value) := by
          unfold Dict.get at hvalue
          cases hfield : lease[field]? with
          | none => simp [hfield] at hvalue
          | some found => simpa [hfield] using hvalue
        rw [hentry, Option.map_some, Option.map_some, projectionDumps, projectionDumps, hprinted]
      · rfl
  · rw [← Option.some.inj h]
    exact .refl lease

theorem coerceFields_sameTexts {fields : List String} (hnodup : fields.Nodup) {lease read : Dict}
    (hprints : PrintsBack fromIsoformat isoformat fields lease)
    (h : fields.foldlM (coerceField fromIsoformat) lease = some read) :
    SameTexts isoformat lease read := by
  induction fields generalizing lease with
  | nil =>
      rw [← Option.some.inj h]
      exact .refl lease
  | cons field fields ih =>
      rw [List.foldlM_cons, Option.bind_eq_bind, Option.bind_eq_some_iff] at h
      obtain ⟨coerced, hcoerced, hrest⟩ := h
      obtain ⟨hnew, hnodup⟩ := List.nodup_cons.mp hnodup
      have hfirst : PrintsBack fromIsoformat isoformat [field] lease := fun other hother =>
        hprints other (List.mem_singleton.mp hother ▸ List.mem_cons_self)
      refine (coerceField_sameTexts hfirst hcoerced).trans (ih hnodup ?_ hrest)
      intro other hother text instant hget
      have hne : field ≠ other := fun heq => hnew (heq ▸ hother)
      rw [coerceField_get hne hcoerced] at hget
      exact hprints other (List.mem_cons_of_mem field hother) text instant hget

theorem coerced_sameTexts {lease : Dict}
    (hprints : PrintsBack fromIsoformat isoformat leaseDatetimeFields lease) :
    SameTexts isoformat lease (coerced fromIsoformat lease) := by
  unfold coerced
  cases h : coerceLeaseDatetimes fromIsoformat lease with
  | none => exact .refl lease
  | some read => exact coerceFields_sameTexts (by decide) hprints h

/-- An item shows the times of its lease as they are written. -/
theorem projectItem_sameTexts (item : Dict) {lease : Dict}
    (hprints : PrintsBack fromIsoformat isoformat leaseDatetimeFields lease) :
    SameTexts isoformat (projectItem item (some lease))
      (projectItem item (some (coerced fromIsoformat lease))) := by
  have hsame := coerced_sameTexts hprints
  have hid : (coerced fromIsoformat lease).get "lease_id" = lease.get "lease_id" :=
    coerced_get (by decide)
  simp only [projectItem, hid]
  exact ((((SameTexts.refl _).set _ (hsame.get _)).set _ (hsame.get _)).set _ (hsame.get _))

variable (fromIsoformat isoformat) in
/-- The rows belong to the session, show the claims of their leases, and have times that are
written as they are read. -/
structure AtRest (tables : Tables) : Prop where
  filed : (tables.root.get "session_id").text = tables.sessionId
  derived : deriveItemClaimProjection (RuntimeStore.itemPayloads tables.items)
    (leasePayloads tables) = .ok (RuntimeStore.itemPayloads tables.items, leasePayloads tables)
  times : ∀ (leaseId : String) lease, (leasePayloads tables)[leaseId]? = some lease →
    PrintsBack fromIsoformat isoformat leaseDatetimeFields lease

section Rest

variable (hrest : AtRest fromIsoformat isoformat tables)

include hrest

theorem AtRest.identified : withLeaseIds (leasePayloads tables) = leasePayloads tables := by
  obtain ⟨-, -, hderived⟩ := deriveItemClaimProjection_ok.mp hrest.derived
  exact (Prod.mk.inj hderived).2.symm

/-- The items at rest are those that their leases derive. -/
theorem AtRest.item {itemId : String} {item : Dict}
    (hitem : (RuntimeStore.itemPayloads tables.items)[itemId]? = some item) :
    projectItem item (activeLeaseOf (leasePayloads tables) itemId) = item := by
  obtain ⟨-, -, hderived⟩ := deriveItemClaimProjection_ok.mp hrest.derived
  rw [hrest.identified] at hderived
  have hitems := congrArg (fun rows : Rows Dict => rows[itemId]?) (Prod.mk.inj hderived).1
  simp only [Std.ExtTreeMap.getElem?_map, hitem, Option.map_some, Option.some.injEq] at hitems
  exact hitems.symm

/-- The rows as they are read are written as they are stored. -/
theorem AtRest.readRows {items leases : Rows Dict}
    (hread : readRows fromIsoformat (RuntimeStore.itemPayloads tables.items)
      (leasePayloads tables) = .ok (items, leases)) :
    projectionDumps isoformat (rowsValue items) =
        projectionDumps isoformat (rowsValue (RuntimeStore.itemPayloads tables.items)) ∧
      projectionDumps isoformat (rowsValue leases) =
        projectionDumps isoformat (rowsValue (leasePayloads tables)) := by
  obtain ⟨read, hleases, hderive⟩ := StoreResult.bind_ok.mp hread
  have hcoerced := readLeases_ok hleases
  rw [hrest.identified] at hcoerced
  subst hcoerced
  obtain ⟨-, -, hderived⟩ := deriveItemClaimProjection_ok.mp hderive
  have hids := @withLeaseIds_coerced fromIsoformat (leasePayloads tables)
  rw [hrest.identified] at hids
  rw [hids] at hderived
  obtain ⟨rfl, rfl⟩ := Prod.mk.inj hderived
  rw [projectionDumps_rowsValue, projectionDumps_rowsValue, projectionDumps_rowsValue,
    projectionDumps_rowsValue]
  constructor
  · congr 1
    refine Std.ExtTreeMap.ext_getElem? fun itemId => ?_
    simp only [Std.ExtTreeMap.getElem?_map, Option.map_map]
    cases hitem : (RuntimeStore.itemPayloads tables.items)[itemId]? with
    | none => rfl
    | some item =>
        refine congrArg some ?_
        simp only [Function.comp_apply]
        have hactive :=
          (@keepsClaims_coerced fromIsoformat (leasePayloads tables)).activeLeaseOf itemId
        rw [hactive]
        have hitemRest := hrest.item hitem
        cases hlease : activeLeaseOf (leasePayloads tables) itemId with
        | none => rw [hlease] at hitemRest; rw [Option.map_none, hitemRest]
        | some lease =>
            rw [hlease] at hitemRest
            obtain ⟨leaseId, hrow, -⟩ := activeLeaseOf_some hlease
            have hsame := projectItem_sameTexts item (hrest.times leaseId lease hrow)
            rw [Option.map_some, ← hsame.toValue, hitemRest]
  · congr 1
    refine Std.ExtTreeMap.ext_getElem? fun leaseId => ?_
    simp only [Std.ExtTreeMap.getElem?_map, Option.map_map]
    cases hlease : (leasePayloads tables)[leaseId]? with
    | none => rfl
    | some lease =>
        exact congrArg some (coerced_sameTexts (hrest.times leaseId lease hlease)).toValue.symm

/-- The payload that a load rebuilds is written as the stored one. -/
theorem AtRest.sessionProjection {payload : Dict} {revision : ℕ}
    (hload : loadSnapshot fromIsoformat tables = .ok (payload, revision)) :
    SessionProjection.sessionProjection isoformat payload revision =
      SessionProjection.sessionProjection isoformat (storedPayload tables) tables.revision := by
  unfold loadSnapshot at hload
  simp only [hrest.filed, if_true] at hload
  obtain ⟨⟨items, leases⟩, hread, hpayload⟩ := StoreResult.bind_ok.mp hload
  obtain ⟨hitems, hleases⟩ := hrest.readRows hread
  obtain ⟨rfl, rfl⟩ := Prod.mk.inj (StoreResult.pure_ok.mp hpayload)
  unfold SessionProjection.sessionProjection storedPayload
  congr 1
  exact ((((SameTexts.refl tables.root).set _ hitems).set _ hleases).set _ rfl).set _ rfl
    |>.toValue

end Rest

end Load

section Write

variable {items leases : Rows Dict}

/-- The claim fields are shown as they are shown already. -/
theorem projectItem_idem (item : Dict) (lease : Option Dict) :
    projectItem (projectItem item lease) lease = projectItem item lease := by
  cases lease with
  | none => exact RuntimeStore.projectClaim_idem item none
  | some lease =>
      refine Dict.ext fun key => ?_
      simp only [projectItem, Dict.getElem?_set]
      split_ifs <;> rfl

/-- What was derived once derives itself. -/
theorem deriveItemClaimProjection_derived {derived : Rows Dict × Rows Dict}
    (h : deriveItemClaimProjection items leases = .ok derived) :
    deriveItemClaimProjection derived.1 derived.2 = .ok derived := by
  obtain ⟨hhashable, hnodup, rfl⟩ := deriveItemClaimProjection_ok.mp h
  rw [deriveItemClaimProjection_ok]
  simp only [withLeaseIds_idem]
  refine ⟨hhashable, hnodup, Prod.ext (Std.ExtTreeMap.ext_getElem? fun itemId => ?_) rfl⟩
  simp only [Std.ExtTreeMap.getElem?_map, Option.map_map]
  cases items[itemId]? with
  | none => rfl
  | some item => exact congrArg some (projectItem_idem item _).symm

/-- A write reads the events, and derives the claims of the rows that it leaves in the payload. -/
theorem writeSession_derived {tables tables' : Tables} {payload normalized : Dict} {revision : ℕ}
    (h : writeSession tables payload revision = .ok (tables', normalized)) :
    ∃ events items leases, eventsOf payload = .ok events ∧
      deriveItemClaimProjection items leases = .ok (items, leases) ∧
      normalized = (payload.set "items" (rowsValue items)).set "leases" (rowsValue leases) := by
  unfold writeSession at h
  simp only at h
  obtain ⟨_, -, h⟩ := StoreResult.bind_ok.mp h
  obtain ⟨itemTable, -, h⟩ := StoreResult.bind_ok.mp h
  obtain ⟨leaseTable, -, h⟩ := StoreResult.bind_ok.mp h
  obtain ⟨events, hevents, h⟩ := StoreResult.bind_ok.mp h
  obtain ⟨given, -, h⟩ := StoreResult.bind_ok.mp h
  obtain ⟨items, -, h⟩ := StoreResult.bind_ok.mp h
  obtain ⟨derived, hderived, h⟩ := StoreResult.bind_ok.mp h
  obtain ⟨_, -, h⟩ := StoreResult.bind_ok.mp h
  obtain ⟨-, rfl⟩ := Prod.mk.inj (StoreResult.pure_ok.mp h)
  exact ⟨events, derived.1, derived.2, hevents, deriveItemClaimProjection_derived hderived, rfl⟩

/-- A write leaves the tables at rest. -/
theorem AtRest.of_written {fromIsoformat : String → Option ℤ} {isoformat : ℤ → String}
    {tables tables' : Tables} {payload normalized : Dict} {revision : ℕ}
    (hids : IdentifiersReadSame payload)
    (htimes : ∀ (leaseId : String) lease, (leasePayloads tables')[leaseId]? = some lease →
      PrintsBack fromIsoformat isoformat leaseDatetimeFields lease)
    (h : writeSession tables payload revision = .ok (tables', normalized)) :
    AtRest fromIsoformat isoformat tables' := by
  obtain ⟨events, items', leases', hevents, hderived, hnormalized⟩ := writeSession_derived h
  obtain ⟨items, leases, hw, hreads⟩ := writeSession_ok hevents h
  have hsame := hw.normalized.symm.trans hnormalized
  obtain rfl : leases = leases' := by
    have hfield := congrArg (fun d : Dict => d.get "leases") hsame
    simp only [Dict.get_set, if_pos] at hfield
    exact rowsValue_inj hfield
  obtain rfl : items = items' := by
    have hfield := congrArg (fun d : Dict => d.get "items") hsame
    simp only [Dict.get_set] at hfield
    exact rowsValue_inj hfield
  have hroot : (rootOf payload).get "session_id" = payload.get "session_id" := by
    simp [rootOf]
  refine ⟨?_, ?_, htimes⟩
  · rw [hw.root, hw.sessionId, Dict.get_sortKeys, hroot]
    exact hids.session
  · show deriveItemClaimProjection _ (tables'.leases.map fun _ row => row.payload) =
      .ok (_, tables'.leases.map fun _ row => row.payload)
    rw [hw.itemPayloads, hw.leasePayloads,
      deriveItemClaimProjection_sortRows hw.ids (hreads hids) hw.returned, hderived]
    rfl

end Write

/-- Of tables at rest, the projection that is put together from the rows is that of the payload
which a load rebuilds, but for `DEL`: the rows show it, and the encoder escapes it. So the two are
the same bytes exactly when no row has a `DEL`. -/
theorem projections_agree {fromIsoformat : String → Option ℤ} {isoformat : ℤ → String}
    {tables : Tables} {payload : Dict} {revision : ℕ}
    (hrest : AtRest fromIsoformat isoformat tables) (hjson : HoldsJson tables)
    (hload : loadSnapshot fromIsoformat tables = .ok (payload, revision)) :
    sessionProjection isoformat payload revision =
      escapeDel (sessionProjectionFromRows isoformat tables) ∧
    (sessionProjectionFromRows isoformat tables = sessionProjection isoformat payload revision ↔
      ¬ HasDel tables) := by
  rw [hrest.sessionProjection hload]
  exact projections_of_stored hjson

/-- So after every write of a payload that is read as it is written, the projection put together
from the rows and the one encoded from a load differ in the escapes of `DEL` only. -/
theorem written_projections_agree {fromIsoformat : String → Option ℤ} {isoformat : ℤ → String}
    {tables tables' : Tables} {payload normalized loaded : Dict} {revision read : ℕ}
    (hids : IdentifiersReadSame payload)
    (htimes : ∀ (leaseId : String) lease, (leasePayloads tables')[leaseId]? = some lease →
      PrintsBack fromIsoformat isoformat leaseDatetimeFields lease)
    (hjson : HoldsJson tables')
    (h : writeSession tables payload revision = .ok (tables', normalized))
    (hload : loadSnapshot fromIsoformat tables' = .ok (loaded, read)) :
    sessionProjection isoformat loaded read =
      escapeDel (sessionProjectionFromRows isoformat tables') ∧
    (sessionProjectionFromRows isoformat tables' = sessionProjection isoformat loaded read ↔
      ¬ HasDel tables') :=
  projections_agree (AtRest.of_written hids htimes h) hjson hload

/-- One item, claimed by a lease. As in a new session, there is no list of events yet. -/
def deletedTitle : Dict :=
  Dict.ofFields [
    ("session_id", .str "session"),
    ("items", .dict [("item", .dict [("state", .str "open"), ("title", .str "\u007f")])]),
    ("leases", .dict [("lease", .dict [("status", .str "active"), ("item_id", .str "item"),
      ("created_at", .str "2026-01-01T00:00:00Z")])])]

def deletedLeases : Dict :=
  Dict.ofFields [("lease", .dict [("status", .str "active"), ("item_id", .str "item"),
    ("created_at", .str "2026-01-01T00:00:00Z")])]

/-- `isoformat` of the time of that lease. -/
def printNewYear (instant : ℤ) : String :=
  if instant = 1767225600000000 then "2026-01-01T00:00:00Z" else ""

theorem newYear_printsBack (fields : List String) (lease : Dict) :
    PrintsBack newYear printNewYear fields lease := by
  intro field _ text instant _ h
  unfold newYear at h
  split at h
  · next htext =>
    rw [← Option.some.inj h, htext]
    rfl
  · cases h

/-- The columns of the tables are read by a run. -/
def holdsJson (tables : Tables) : Bool :=
  (tables.root.toList.all fun row => row.2.dumps.isSome) &&
    (tables.items.toList.all fun row => row.2.payload.toValue.dumps.isSome) &&
    (tables.leases.toList.all fun row => row.2.payload.toValue.dumps.isSome) &&
    tables.leaseEvents.all fun event => event.dumps.isSome

theorem holdsJson_sound {tables : Tables} (h : holdsJson tables = true) : HoldsJson tables := by
  simp only [holdsJson, Bool.and_eq_true, List.all_eq_true] at h
  obtain ⟨⟨⟨hroot, hitems⟩, hleases⟩, hevents⟩ := h
  refine ⟨fun key value hvalue => ?_, fun key row hrow => ?_, fun key row hrow => ?_, hevents⟩
  · exact hroot (key, value) (Std.ExtTreeMap.mem_toList_iff_getElem?_eq_some.mpr hvalue)
  · exact hitems (key, row) (Std.ExtTreeMap.mem_toList_iff_getElem?_eq_some.mpr hrow)
  · exact hleases (key, row) (Std.ExtTreeMap.mem_toList_iff_getElem?_eq_some.mpr hrow)

theorem deletedTitle_facts : (deletedTitle.get "session_id").ReadsSame ∧
    (deletedTitle.get "leases").toDict? = some deletedLeases ∧
    (deletedLeases.toList.all fun row => row.2.toDict?.all fun lease =>
      (lease.get "item_id").ReadsSame && (lease.get "lease_id").ReadsSame) = true ∧
    ((writeSession noTables deletedTitle 1).toOption.any fun written =>
      holdsJson written.1 && (loadSnapshot newYear written.1).toOption.any fun loaded =>
        decide (sessionProjectionFromRows printNewYear written.1 ≠
          sessionProjection printNewYear loaded.1 loaded.2)) = true := by
  decide +kernel

theorem deletedTitle_readsSame : IdentifiersReadSame deletedTitle where
  session := deletedTitle_facts.1
  leases := by
    intro table htable leaseId value lease hvalue hlease _
    obtain ⟨-, htable', hall, -⟩ := deletedTitle_facts
    rw [htable'] at htable
    obtain rfl := Option.some.inj htable
    have hrow := List.all_eq_true.mp hall (leaseId, value)
      (Std.ExtTreeMap.mem_toList_iff_getElem?_eq_some.mpr hvalue)
    rw [hlease] at hrow
    simpa using hrow

/-- The title is escaped in the one and shown in the other. -/
theorem deletedTitle_differs : ∃ tables normalized loaded read,
    writeSession noTables deletedTitle 1 = .ok (tables, normalized) ∧
      loadSnapshot newYear tables = .ok (loaded, read) ∧
      sessionProjection printNewYear loaded read =
        escapeDel (sessionProjectionFromRows printNewYear tables) ∧
      HasDel tables := by
  obtain ⟨-, -, -, hrun⟩ := deletedTitle_facts
  obtain ⟨⟨tables, normalized⟩, hwrite, hrun⟩ := StoreResult.exists_ok hrun
  obtain ⟨hjson, hrun⟩ := Bool.and_eq_true_iff.mp hrun
  obtain ⟨⟨loaded, read⟩, hload, hdiffer⟩ := StoreResult.exists_ok hrun
  obtain ⟨hescaped, hsame⟩ := written_projections_agree deletedTitle_readsSame
    (fun _ lease _ => newYear_printsBack leaseDatetimeFields lease) (holdsJson_sound hjson) hwrite
    hload
  exact ⟨tables, normalized, loaded, read, hwrite, hload, hescaped,
    not_not.mp (mt hsame.mpr (of_decide_eq_true hdiffer))⟩

end GhAddressCr.SessionProjection
