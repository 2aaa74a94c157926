import GhAddressCr.IndentedLines

/-!
# Finding blocks

Findings as fenced blocks of text. A block has header lines, `key: value`, and a body that starts
at a line `body: |` and runs to the closing fence. The reader splits its text where
`str.splitlines` does, so a body keeps its lines only if nothing but newlines ends them.
-/
namespace GhAddressCr

open PyText

namespace FindingBlocks

/-- Case-insensitive matching of a small letter; the dotted capital I and the dotless i match
an i. -/
def matchesLetter (letter c : Char) : Bool :=
  lowerChar c == letter || (letter == 'i' && (c.toNat == 0x130 || c.toNat == 0x131))

/-- Drop a word from the front, in any case. -/
def dropWord? : (word cs : List Char) → Option (List Char)
  | [], cs => some cs
  | _ :: _, [] => none
  | letter :: word, c :: cs => if matchesLetter letter c then dropWord? word cs else none

def fence : List Char := "```".toList

/-- `FINDING_FENCE.match(line)`. -/
def isFindingFence (line : List Char) : Bool :=
  ((dropPrefix? fence line).any fun rest =>
    ["finding", "review-finding"].any fun word =>
      (dropWord? word.toList rest).any fun spaces => spaces.all isSpace)

/-- `CLOSING_FENCE.match(line)`. -/
def isClosingFence (line : List Char) : Bool :=
  (dropPrefix? fence line).any fun spaces => spaces.all isSpace

/-- `FIELD_ALIASES.get(key, key)`. -/
def fieldName (key : String) : String :=
  match key with
  | "file" | "filename" => "path"
  | "start_line" | "position" => "line"
  | "rule" | "check" => "title"
  | "message" | "description" => "body"
  | _ => key

def allowedFields : List String :=
  ["title", "path", "line", "body", "severity", "category", "confidence", "head_sha"]

/-- The loop of `extract_finding_blocks`, with the lines of the open block. -/
def extractBlocks : (current : Option (List (List Char))) → List (List Char) →
    Except String (List (List Char))
  | none, [] => .ok []
  | some _, [] => .error "Unterminated finding block. Close it with ```."
  | none, line :: rest =>
      if isFindingFence line then extractBlocks (some []) rest else extractBlocks none rest
  | some current, line :: rest =>
      if isClosingFence line then (extractBlocks none rest).map (join newline current :: ·)
      else extractBlocks (some (current ++ [line])) rest

def extractFindingBlocks (raw : List Char) : Except String (List (List Char)) :=
  extractBlocks none (splitlines raw)

/-- What `_parse_block_lines` has read. -/
structure BlockState where
  fields : Dict
  bodyLines : List (List Char)
  inBody : Bool

/-- One line of a block. -/
def readBlockLine (state : BlockState) (rawLine : List Char) : Except String BlockState :=
  let line := rstripChars rawLine
  if state.inBody then .ok { state with bodyLines := state.bodyLines ++ [line] }
  else if stripChars line = [] then .ok state
  else
    match partition ':' line with
    | none => .error ("Invalid finding line: " ++ Value.reprStr (String.ofList line))
    | some (before, after) =>
        let key := fieldName (lower (String.ofList (stripChars before)))
        let value := lstripChars after
        if key ∉ allowedFields then .error ("Unsupported finding field: " ++ key)
        else if key = "body" then
          .ok { state with
            inBody := true
            bodyLines :=
              if value = ['|'] ∨ value = ['>'] ∨ value = [] then state.bodyLines
              else state.bodyLines ++ [value] }
        else .ok { state with fields := state.fields.set key (.str (String.ofList value)) }

/-- `_parse_block_lines`. -/
def parseBlockLines (block : List Char) : Except String BlockState :=
  (splitlines block).foldlM readBlockLine { fields := ∅, bodyLines := [], inBody := false }

/-- The first field that a block must have and that is missing or blank. -/
def missingField? (fields : Dict) : Option String :=
  ["title", "path", "line"].find? fun required =>
    !fields.has required || strip (fields.get required).text == ""

/-- Copy a field of the block that is there and not empty. -/
def copyOptional (fields finding : Dict) (optional : String) : Dict :=
  if fields.has optional ∧ fields.get optional ≠ .str "" then
    finding.set optional (fields.get optional)
  else finding

def parseFindingBlock (block : List Char) : Except String Dict := do
  let state ← parseBlockLines block
  match missingField? state.fields with
  | some required => .error ("Each finding block must include a " ++ required ++ ".")
  | none =>
      if state.bodyLines = [] then .error "Each finding block must include a body."
      else
        let body := stripChars (dedent (join newline state.bodyLines))
        if body = [] then .error "Each finding block must include a non-empty body."
        else
          match parseInt (state.fields.get "line").text.toList with
          | none => .error ("Invalid line value: " ++ (state.fields.get "line").repr)
          | some line =>
              .ok (["severity", "category", "confidence", "head_sha"].foldl
                (copyOptional state.fields)
                (Dict.ofFields [("title", .str (strip (state.fields.get "title").text)),
                  ("path", .str (strip (state.fields.get "path").text)),
                  ("line", .int line), ("body", .str (String.ofList body))]))

def parseFindingBlocks (raw : String) : Except String (List Dict) :=
  let payload := stripChars raw.toList
  if payload = [] then .ok []
  else
    match extractFindingBlocks payload with
    | .error message => .error message
    | .ok [] => .error "No fixed `finding` blocks found. Use fenced ```finding blocks."
    | .ok blocks => blocks.mapM parseFindingBlock

/-- The value of a header: one stripped line with something on it. -/
structure HeaderText where
  text : String
  ne_empty : text ≠ ""
  stripped : strip text = text
  single_line : newline ∉ text.toList

/-- A body: stripped and dedented lines, without blanks at their ends, that close no fence. -/
structure BodyText where
  text : String
  ne_empty : text ≠ ""
  stripped : strip text = text
  dedented : dedent text.toList = text.toList
  no_trailing : ∀ line ∈ split newline text.toList, rstripChars line = line
  unfenced : ∀ line ∈ split newline text.toList, isClosingFence line = false

/-- A finding that a block can hold. Its line has no more digits than the interpreter converts. -/
structure Finding where
  title : HeaderText
  path : HeaderText
  line : Int
  line_short : (toString line.natAbs).length ≤ maxIntDigits
  body : BodyText
  severity : Option HeaderText
  category : Option HeaderText
  confidence : Option HeaderText
  headSha : Option HeaderText

/-- The entries that are there. -/
def presentTexts (entries : List (String × Option HeaderText)) : List (String × String) :=
  entries.filterMap fun entry => entry.2.map fun value => (entry.1, value.text)

/-- Set every entry. -/
def setTexts (fields : Dict) (texts : List (String × String)) : Dict :=
  texts.foldl (fun fields entry => fields.set entry.1 (.str entry.2)) fields

def Finding.optionals (finding : Finding) : List (String × Option HeaderText) :=
  [("severity", finding.severity), ("category", finding.category),
    ("confidence", finding.confidence), ("head_sha", finding.headSha)]

/-- The finding as the reader returns it. -/
def Finding.toDict (finding : Finding) : Dict :=
  setTexts
    (Dict.ofFields [("title", .str finding.title.text), ("path", .str finding.path.text),
      ("line", .int finding.line), ("body", .str finding.body.text)])
    (presentTexts finding.optionals)

/-- The header lines of the finding, in order. -/
def Finding.headers (finding : Finding) : List (String × String) :=
  ("title", finding.title.text) :: ("path", finding.path.text) ::
    ("line", toString finding.line) :: presentTexts finding.optionals

def headerLine (entry : String × String) : List Char :=
  entry.1.toList ++ ':' :: ' ' :: entry.2.toList

/-- The lines between the fences, the body behind `pad`. -/
def Finding.contentLines (pad : ℕ) (finding : Finding) : List (List Char) :=
  finding.headers.map headerLine ++ "body: |".toList ::
    (split newline finding.body.text.toList).map (List.replicate pad ' ' ++ ·)

def Finding.blockLines (pad : ℕ) (finding : Finding) : List (List Char) :=
  "```finding".toList :: finding.contentLines pad ++ [fence]

/-- Findings as blocks one after the other. -/
def renderFindings (pad : ℕ) (findings : List Finding) : String :=
  String.ofList (join newline (findings.flatMap (·.blockLines pad)))

/-- Nothing but a newline ends a line in the text. -/
def Unbroken (text : String) : Prop := ∀ c ∈ text.toList, isLineEnd c = true → c = newline

/-- Nothing but a newline ends a line in the texts of the finding. -/
def Finding.Unbroken (finding : Finding) : Prop :=
  FindingBlocks.Unbroken finding.body.text ∧
    ∀ entry ∈ finding.headers, FindingBlocks.Unbroken entry.2

theorem isAsciiDigit_of_mem_toString {n : ℕ} {c : Char} (h : c ∈ (toString n).toList) :
    IsAsciiDigit c := by
  have hmem : c ∈ Nat.toDigits 10 n := by simpa using h
  have hdigit := Nat.isDigit_of_mem_toDigits (by decide) (by decide) hmem
  simp only [Char.isDigit, Bool.and_eq_true, decide_eq_true_eq] at hdigit
  exact hdigit

theorem toString_toList_ne_nil (n : ℕ) : (toString n).toList ≠ [] := by
  simp

theorem numeralValue_toString (n : ℕ) : numeralValue (toString n).toList = n := by
  have hdigits : (toString n).toList = Nat.toDigits 10 n := by simp
  rw [hdigits]
  exact (Nat.ofDigitChars_eq_foldl.symm).trans Nat.ofDigitChars_ten_toDigits

theorem toString_negSucc (n : ℕ) :
    (toString (Int.negSucc n)).toList = '-' :: (toString (n + 1)).toList := by
  simp [toString, Int.repr]

theorem isSpace_of_numeral {i : ℤ} {c : Char} (h : c ∈ (toString i).toList) :
    isSpace c = false := by
  cases i with
  | ofNat n => exact isSpace_eq_false_of_isAsciiDigit (isAsciiDigit_of_mem_toString h)
  | negSucc n =>
      rw [toString_negSucc] at h
      rcases List.mem_cons.mp h with rfl | h
      · rfl
      · exact isSpace_eq_false_of_isAsciiDigit (isAsciiDigit_of_mem_toString h)

theorem parseInt_negative {cs : List Char} (hne : cs ≠ []) (h : ∀ c ∈ cs, IsAsciiDigit c)
    (hlen : cs.length ≤ maxIntDigits) : parseInt ('-' :: cs) = some (-(numeralValue cs : Int)) := by
  have hstrip : stripChars ('-' :: cs) = '-' :: cs := by
    refine stripChars_eq_self fun c hc => ?_
    rcases List.mem_cons.mp hc with rfl | hc
    · rfl
    · exact isSpace_eq_false_of_isAsciiDigit (h c hc)
  have hfew : ¬ maxIntDigits < (cs.filter (· ≠ '_')).length :=
    Nat.not_lt.mpr (le_trans (List.length_filter_le _ _) hlen)
  have hread : readDigits 0 false cs = some (numeralValue cs) := by
    cases cs with
    | nil => exact absurd rfl hne
    | cons c cs =>
        have hc : IsAsciiDigit c := h c (by simp)
        have hunder : c ≠ '_' := by rintro rfl; exact absurd hc (by decide)
        rw [readDigits, if_neg hunder, digit?_of_isAsciiDigit hc]
        exact readDigits_numeral (fun d hd => h d (by simp [hd])) _
  simp only [parseInt, hstrip]
  rw [if_neg hfew, hread]
  rfl

/-- A number is read back from its decimal numeral. -/
theorem parseInt_toString {i : ℤ} (h : (toString i.natAbs).length ≤ maxIntDigits) :
    parseInt (toString i).toList = some i := by
  cases i with
  | ofNat n =>
      have hread := parseInt_numeral (toString_toList_ne_nil n)
        (fun c hc => isAsciiDigit_of_mem_toString hc) h
      rwa [numeralValue_toString] at hread
  | negSucc n =>
      have hread := parseInt_negative (toString_toList_ne_nil (n + 1))
        (fun c hc => isAsciiDigit_of_mem_toString hc) h
      rw [toString_negSucc, hread, numeralValue_toString]
      rfl

section Entries

variable {entries : List (String × Option HeaderText)}

theorem mem_presentTexts {key text : String} :
    (key, text) ∈ presentTexts entries ↔
      ∃ value : HeaderText, (key, some value) ∈ entries ∧ value.text = text := by
  simp only [presentTexts, List.mem_filterMap, Option.map_eq_some_iff, Prod.mk.injEq]
  constructor
  · rintro ⟨⟨key, given⟩, hmem, value, rfl, rfl, rfl⟩
    exact ⟨value, hmem, rfl⟩
  · rintro ⟨value, hmem, rfl⟩
    exact ⟨(key, some value), hmem, value, rfl, rfl, rfl⟩

theorem presentTexts_keys_sublist :
    ((presentTexts entries).map Prod.fst).Sublist (entries.map Prod.fst) := by
  induction entries with
  | nil => simp [presentTexts]
  | cons entry entries ih =>
      obtain ⟨key, given⟩ := entry
      cases given with
      | none => exact ih.cons key
      | some value => exact ih.cons_cons key

theorem getElem?_setTexts_of_notMem (fields : Dict) {texts : List (String × String)} {key : String}
    (h : key ∉ texts.map Prod.fst) : (setTexts fields texts)[key]? = fields[key]? := by
  induction texts generalizing fields with
  | nil => rfl
  | cons entry texts ih =>
      simp only [List.map_cons, List.mem_cons, not_or] at h
      show (setTexts (fields.set entry.1 (.str entry.2)) texts)[key]? = _
      rw [ih _ h.2, Dict.getElem?_set, if_neg (Ne.symm h.1)]

theorem getElem?_setTexts_of_mem (fields : Dict) {texts : List (String × String)}
    {key text : String} (hnodup : (texts.map Prod.fst).Nodup) (h : (key, text) ∈ texts) :
    (setTexts fields texts)[key]? = some (.str text) := by
  induction texts generalizing fields with
  | nil => simp at h
  | cons entry texts ih =>
      rw [List.map_cons, List.nodup_cons] at hnodup
      show (setTexts (fields.set entry.1 (.str entry.2)) texts)[key]? = _
      rcases List.mem_cons.mp h with rfl | h
      · rw [getElem?_setTexts_of_notMem _ hnodup.1, Dict.getElem?_set, if_pos rfl]
      · exact ih _ hnodup.2 h

variable (hnodup : (entries.map Prod.fst).Nodup)
include hnodup

/-- What setting the entries that are there leaves under the key of an entry. -/
theorem getElem?_setTexts_entry (fields : Dict) {key : String} {given : Option HeaderText}
    (h : (key, given) ∈ entries) :
    (setTexts fields (presentTexts entries))[key]? =
      (given.map fun value => Value.str value.text).or fields[key]? := by
  cases given with
  | some value =>
      exact getElem?_setTexts_of_mem fields (hnodup.sublist presentTexts_keys_sublist)
        (mem_presentTexts.mpr ⟨value, h, rfl⟩)
  | none =>
      refine getElem?_setTexts_of_notMem fields fun hmem => ?_
      obtain ⟨⟨other, text⟩, hother, rfl⟩ := List.mem_map.mp hmem
      obtain ⟨value, hvalue, -⟩ := mem_presentTexts.mp hother
      have hsame := List.inj_on_of_nodup_map hnodup h hvalue rfl
      cases hsame

omit hnodup in
/-- Copying the entries of a block sets those that are there. -/
theorem foldl_copyOptional {fields : Dict} (finding : Dict)
    (h : ∀ entry ∈ entries, fields[entry.1]? = entry.2.map fun value => Value.str value.text) :
    (entries.map Prod.fst).foldl (copyOptional fields) finding =
      setTexts finding (presentTexts entries) := by
  induction entries generalizing finding with
  | nil => rfl
  | cons entry entries ih =>
      obtain ⟨key, given⟩ := entry
      have hkey : fields[key]? = given.map fun value => Value.str value.text := h (key, given) (by simp)
      have hrest := fun finding => ih finding fun other hother => h other (by simp [hother])
      rw [List.map_cons, List.foldl_cons, hrest]
      cases given with
      | none =>
          have hmissing : copyOptional fields finding key = finding := by
            simp [copyOptional, Dict.has, hkey]
          rw [hmissing]
          rfl
      | some value =>
          have hcopied : copyOptional fields finding key = finding.set key (.str value.text) := by
            simp [copyOptional, Dict.has, Dict.get, hkey, value.ne_empty]
          rw [hcopied]
          rfl

end Entries

/-- The keys of the header lines. -/
def headerKeys : List String :=
  ["title", "path", "line", "severity", "category", "confidence", "head_sha"]

/-- The check of each character, for texts that are written out. -/
theorem isLineEnd_of_all {cs : List Char} (h : (cs.all fun c => !isLineEnd c) = true) :
    ∀ c ∈ cs, isLineEnd c = false := by
  simpa using h

/-- A header key has no colon, is its own name and is allowed. -/
theorem headerKey_facts : ∀ key ∈ headerKeys, ':' ∉ key.toList ∧
    fieldName (lower (String.ofList (stripChars key.toList))) = key ∧ key ∈ allowedFields ∧
      key ≠ "body" ∧ (key.toList.all fun c => !isLineEnd c) = true ∧
        key.toList.head? ≠ some '`' := by
  decide +kernel

namespace Finding

variable (finding : Finding)

/-- The numeral of the line as the value of a header. -/
def lineText : HeaderText where
  text := toString finding.line
  ne_empty := by
    intro hempty
    have hread := parseInt_toString finding.line_short
    rw [hempty] at hread
    cases hread
  stripped := by
    rw [strip, stripChars_eq_self fun c hc => isSpace_of_numeral hc, String.ofList_toList]
  single_line hmem := by
    have hspace := isSpace_of_numeral hmem
    cases hspace

/-- The entries of the header lines, in order. -/
def entries : List (String × Option HeaderText) :=
  ("title", some finding.title) :: ("path", some finding.path) ::
    ("line", some finding.lineText) :: finding.optionals

theorem headers_eq : finding.headers = presentTexts finding.entries := rfl

theorem entries_keys : finding.entries.map Prod.fst = headerKeys := rfl

theorem entries_keys_nodup : (finding.entries.map Prod.fst).Nodup := by
  rw [entries_keys]
  decide

theorem mem_headerKeys {entry : String × String} (h : entry ∈ finding.headers) :
    entry.1 ∈ headerKeys := by
  rw [headers_eq] at h
  obtain ⟨value, hmem, -⟩ := mem_presentTexts.mp h
  exact finding.entries_keys ▸ List.mem_map_of_mem hmem

theorem exists_headerText {entry : String × String} (h : entry ∈ finding.headers) :
    ∃ value : HeaderText, value.text = entry.2 := by
  rw [headers_eq] at h
  obtain ⟨value, -, htext⟩ := mem_presentTexts.mp h
  exact ⟨value, htext⟩

end Finding

theorem HeaderText.stripChars_eq (value : HeaderText) :
    stripChars value.text.toList = value.text.toList := by
  have hstripped := congrArg String.toList value.stripped
  rwa [strip, String.toList_ofList] at hstripped

theorem HeaderText.toList_ne_nil (value : HeaderText) : value.text.toList ≠ [] := by
  simpa using value.ne_empty

/-- A header line sets its field. -/
theorem readBlockLine_header (fields : Dict) {key : String} (hkey : key ∈ headerKeys)
    (value : HeaderText) :
    readBlockLine { fields := fields, bodyLines := [], inBody := false }
        (headerLine (key, value.text)) =
      .ok { fields := fields.set key (.str value.text), bodyLines := [], inBody := false } := by
  obtain ⟨hcolon, hname, hallowed, hbody, -, -⟩ := headerKey_facts key hkey
  have hvalue := value.stripChars_eq
  have hline : headerLine (key, value.text) = (key.toList ++ [':', ' ']) ++ value.text.toList := by
    simp [headerLine]
  have hright : rstripChars (headerLine (key, value.text)) = headerLine (key, value.text) := by
    rw [hline, rstripChars_append (by rw [rstripChars_of_stripped hvalue]; exact value.toList_ne_nil),
      rstripChars_of_stripped hvalue]
  have hshown : stripChars (headerLine (key, value.text)) ≠ [] := by
    rw [stripChars_ne_nil_iff, List.any_eq_true]
    exact ⟨':', by simp [headerLine], rfl⟩
  have hsplit : partition ':' (headerLine (key, value.text)) =
      some (key.toList, ' ' :: value.text.toList) := partition_append hcolon _
  have hleft : lstripChars (' ' :: value.text.toList) = value.text.toList :=
    lstripChars_of_stripped hvalue
  unfold readBlockLine
  simp only [hright]
  rw [if_neg (by simp), if_neg hshown, hsplit]
  simp only [hname, hleft]
  rw [if_neg (by simpa using hallowed), if_neg hbody, String.ofList_toList]

/-- The header lines of a block set its fields. -/
theorem readHeaders (fields : Dict) {headers : List (String × String)}
    (h : ∀ entry ∈ headers, entry.1 ∈ headerKeys ∧ ∃ value : HeaderText, value.text = entry.2) :
    (headers.map headerLine).foldlM readBlockLine
        { fields := fields, bodyLines := [], inBody := false } =
      .ok { fields := setTexts fields headers, bodyLines := [], inBody := false } := by
  induction headers generalizing fields with
  | nil => rfl
  | cons entry headers ih =>
      obtain ⟨key, text⟩ := entry
      obtain ⟨hkey, value, rfl⟩ := h (key, text) (by simp)
      rw [List.map_cons, List.foldlM_cons, readBlockLine_header fields hkey value]
      exact ih _ fun other hother => h other (by simp [hother])

/-- The line that starts the body. -/
theorem readBodyStart (fields : Dict) :
    readBlockLine { fields := fields, bodyLines := [], inBody := false } "body: |".toList =
      .ok { fields := fields, bodyLines := [], inBody := true } := by
  have hkey : fieldName (lower (String.ofList (stripChars "body".toList))) = "body" := rfl
  have hright : rstripChars "body: |".toList = "body: |".toList := rfl
  have hshown : stripChars "body: |".toList ≠ [] := by decide
  have hsplit : partition ':' "body: |".toList = some ("body".toList, [' ', '|']) := rfl
  have hleft : lstripChars [' ', '|'] = ['|'] := rfl
  unfold readBlockLine
  simp only [hright]
  rw [if_neg (by simp), if_neg hshown, hsplit]
  simp only [hkey, hleft]
  simp [allowedFields]

/-- The lines of the body are kept without the blanks at their ends. -/
theorem readBodyLines (fields : Dict) (lines read : List (List Char)) :
    lines.foldlM readBlockLine { fields := fields, bodyLines := read, inBody := true } =
      .ok { fields := fields, bodyLines := read ++ lines.map rstripChars, inBody := true } := by
  induction lines generalizing read with
  | nil => simp [pure, Except.pure]
  | cons line lines ih =>
      have hline : readBlockLine { fields := fields, bodyLines := read, inBody := true } line =
          .ok { fields := fields, bodyLines := read ++ [rstripChars line], inBody := true } := by
        simp [readBlockLine]
      rw [List.foldlM_cons, hline]
      refine (ih _).trans ?_
      simp

theorem isSpace_newline : isSpace newline = true := rfl

theorem rstripChars_indented (pad : ℕ) {line : List Char} (h : rstripChars line = line) :
    rstripChars (List.replicate pad ' ' ++ line) = indentLine (List.replicate pad ' ') line := by
  by_cases hnil : line = []
  · subst hnil
    refine rstripChars_of_blank fun c hc => ?_
    rw [List.append_nil] at hc
    rw [(List.mem_replicate.mp hc).2]
    rfl
  · rw [rstripChars_append (by rwa [h]), h, indentLine, if_neg hnil]

theorem join_append_singleton (sep : Char) {pieces : List (List Char)} (h : pieces ≠ [])
    (last : List Char) : join sep (pieces ++ [last]) = join sep pieces ++ sep :: last := by
  induction pieces with
  | nil => exact absurd rfl h
  | cons piece pieces ih =>
      by_cases hnil : pieces = []
      · subst hnil
        rfl
      · rw [List.cons_append, join_cons sep piece (by simp), ih hnil, join_cons sep piece hnil]
        simp

/-- The last line of a stripped text is not empty. -/
theorem exists_lastLine {text : List Char} (hne : text ≠ []) (h : rstripChars text = text) :
    ∃ (lines : List (List Char)) (last : List Char), last ≠ [] ∧
      split newline text = lines ++ [last] := by
  obtain ⟨lines, last, hsplit⟩ : ∃ lines last, split newline text = lines ++ [last] :=
    ⟨_, _, (List.dropLast_append_getLast (split_ne_nil newline text)).symm⟩
  refine ⟨lines, last, ?_, hsplit⟩
  rintro rfl
  have htext : join newline (lines ++ [[]]) = text := hsplit ▸ join_split newline text
  by_cases hnil : lines = []
  · subst hnil
    exact hne htext.symm
  · rw [join_append_singleton newline hnil] at htext
    have hstripped : rstripChars (join newline lines ++ [newline]) ≠
        join newline lines ++ [newline] := by
      rw [rstripChars, List.rdropWhile_concat_pos _ _ _ isSpace_newline]
      intro hsame
      have hlength := congrArg List.length hsame
      have hshort := (List.rdropWhile_prefix isSpace (join newline lines)).length_le
      simp only [List.length_append, List.length_singleton] at hlength
      omega
    exact hstripped (htext ▸ h)

namespace BodyText

variable (body : BodyText)

theorem toList_ne_nil : body.text.toList ≠ [] := by
  simpa using body.ne_empty

theorem stripChars_eq : stripChars body.text.toList = body.text.toList := by
  have hstripped := congrArg String.toList body.stripped
  rwa [strip, String.toList_ofList] at hstripped

/-- The lines of a body behind some blanks, without the blanks at their ends. -/
theorem read_lines (pad : ℕ) :
    ((split newline body.text.toList).map (List.replicate pad ' ' ++ ·)).map rstripChars =
      (split newline body.text.toList).map (indentLine (List.replicate pad ' ')) := by
  rw [List.map_map]
  exact List.map_congr_left fun line hline =>
    rstripChars_indented pad (body.no_trailing line hline)

/-- Reading the lines of a body takes off the blanks in front of them. -/
theorem dedent_lines (pad : ℕ) :
    dedent (join newline
      ((split newline body.text.toList).map (indentLine (List.replicate pad ' ')))) =
        body.text.toList := by
  have hpieces : ∀ line ∈ (split newline body.text.toList).map
      (indentLine (List.replicate pad ' ')), newline ∉ line := by
    intro line hline hmem
    obtain ⟨piece, hpiece, rfl⟩ := List.mem_map.mp hline
    unfold indentLine at hmem
    split at hmem
    · simp at hmem
    · rcases List.mem_append.mp hmem with hpad | hmem
      · exact absurd (List.mem_replicate.mp hpad).2 (by decide)
      · exact (mem_split hpiece).1 hmem
  rw [dedent, split_join (by simpa using split_ne_nil _ _) hpieces,
    dedentLines_indent (by simp [isIndent])]
  exact body.dedented

end BodyText

namespace Finding

variable (finding : Finding) (pad : ℕ)

/-- The fields of the block that the finding is written as. -/
def fields : Dict := setTexts ∅ finding.headers

theorem getElem?_fields {key : String} {given : Option HeaderText}
    (h : (key, given) ∈ finding.entries) :
    finding.fields[key]? = given.map fun value => Value.str value.text := by
  rw [fields, headers_eq, getElem?_setTexts_entry finding.entries_keys_nodup ∅ h]
  simp

/-- What `_parse_block_lines` has read at the end of the block. -/
def blockState : BlockState where
  fields := finding.fields
  bodyLines := (split newline finding.body.text.toList).map (indentLine (List.replicate pad ' '))
  inBody := true

theorem read_contentLines :
    (finding.contentLines pad).foldlM readBlockLine
        { fields := ∅, bodyLines := [], inBody := false } = .ok (finding.blockState pad) := by
  have hheaders := readHeaders ∅ fun entry hentry =>
    ⟨finding.mem_headerKeys hentry, finding.exists_headerText hentry⟩
  have hbody := readBodyLines finding.fields
    ((split newline finding.body.text.toList).map (List.replicate pad ' ' ++ ·)) []
  rw [finding.body.read_lines pad, List.nil_append] at hbody
  rw [contentLines, List.foldlM_append, hheaders]
  show ("body: |".toList :: _).foldlM readBlockLine
    { fields := finding.fields, bodyLines := [], inBody := false } = _
  rw [List.foldlM_cons, readBodyStart]
  exact hbody

/-- The fields that a block must have are there. -/
theorem missingField_fields : missingField? finding.fields = none := by
  have hblank : ∀ (key : String) (value : HeaderText), (key, some value) ∈ finding.entries →
      (!finding.fields.has key || strip (finding.fields.get key).text == "") = false := by
    intro key value hmem
    have hfound := finding.getElem?_fields hmem
    simp [Dict.has, Dict.get, hfound, value.stripped, value.ne_empty]
  rw [missingField?, List.find?_eq_none]
  intro key hkey
  rw [Bool.not_eq_true]
  simp only [List.mem_cons, List.not_mem_nil, or_false] at hkey
  rcases hkey with rfl | rfl | rfl
  · exact hblank _ finding.title (by simp [entries])
  · exact hblank _ finding.path (by simp [entries])
  · exact hblank _ finding.lineText (by simp [entries])

theorem get_fields (key : String) (value : HeaderText) (h : (key, some value) ∈ finding.entries) :
    finding.fields.get key = .str value.text := by
  rw [Dict.get, finding.getElem?_fields h]
  rfl

theorem copyOptional_fields (start : Dict) :
    ["severity", "category", "confidence", "head_sha"].foldl (copyOptional finding.fields) start =
      setTexts start (presentTexts finding.optionals) := by
  show (finding.optionals.map Prod.fst).foldl (copyOptional finding.fields) start = _
  apply foldl_copyOptional
  intro entry hentry
  exact finding.getElem?_fields
    (List.mem_cons_of_mem _ (List.mem_cons_of_mem _ (List.mem_cons_of_mem _ hentry)))

section Written

variable {finding pad} (hclean : finding.Unbroken)
include hclean

/-- No line of the block is broken by a character of the finding. -/
theorem unbroken_contentLines {line : List Char} (hline : line ∈ finding.contentLines pad) :
    ∀ c ∈ line, isLineEnd c = false := by
  intro c hc
  rcases List.mem_append.mp hline with hheader | hline
  · obtain ⟨entry, hentry, rfl⟩ := List.mem_map.mp hheader
    obtain ⟨value, hvalue⟩ := finding.exists_headerText hentry
    rcases List.mem_append.mp hc with hkey | hc
    · have hkeys := (headerKey_facts _ (finding.mem_headerKeys hentry)).2.2.2.2.1
      exact isLineEnd_of_all hkeys c hkey
    rcases List.mem_cons.mp hc with rfl | hc
    · rfl
    rcases List.mem_cons.mp hc with rfl | hc
    · rfl
    · by_contra hend
      obtain rfl := hclean.2 entry hentry c hc (by simpa using hend)
      exact value.single_line (hvalue ▸ hc)
  rcases List.mem_cons.mp hline with rfl | hline
  · exact isLineEnd_of_all (by decide) c hc
  · obtain ⟨piece, hpiece, rfl⟩ := List.mem_map.mp hline
    rcases List.mem_append.mp hc with hpad | hc
    · rw [(List.mem_replicate.mp hpad).2]
      rfl
    · by_contra hend
      obtain rfl := hclean.1 c ((mem_split hpiece).2 c hc) (by simpa using hend)
      exact (mem_split hpiece).1 hc

theorem splitlines_block :
    splitlines (join newline (finding.contentLines pad)) = finding.contentLines pad := by
  obtain ⟨lines, last, hlast, hsplit⟩ := exists_lastLine finding.body.toList_ne_nil
    (rstripChars_of_stripped finding.body.stripChars_eq)
  have hlines : ∃ front, finding.contentLines pad =
      front ++ [List.replicate pad ' ' ++ last] := by
    refine ⟨finding.headers.map headerLine ++ "body: |".toList ::
      lines.map (List.replicate pad ' ' ++ ·), ?_⟩
    rw [contentLines, hsplit]
    simp
  obtain ⟨front, hfront⟩ := hlines
  rw [hfront]
  refine splitlines_join (by simp [hlast]) fun line hline => ?_
  rw [← hfront] at hline
  exact unbroken_contentLines hclean hline

/-- A block gives its finding back. -/
theorem parseFindingBlock_block :
    parseFindingBlock (join newline (finding.contentLines pad)) = .ok finding.toDict := by
  have hread : parseBlockLines (join newline (finding.contentLines pad)) =
      .ok (finding.blockState pad) := by
    rw [parseBlockLines, splitlines_block hclean, read_contentLines]
  have hfields : (finding.blockState pad).fields = finding.fields := rfl
  have hbody : dedent (join newline (finding.blockState pad).bodyLines) =
      finding.body.text.toList := finding.body.dedent_lines pad
  have hline : parseInt finding.lineText.text.toList = some finding.line :=
    parseInt_toString finding.line_short
  have htitle := finding.get_fields "title" finding.title (by simp [entries])
  have hpath := finding.get_fields "path" finding.path (by simp [entries])
  have hnumber := finding.get_fields "line" finding.lineText (by simp [entries])
  have hlines : (finding.blockState pad).bodyLines ≠ [] := by
    simpa [blockState] using split_ne_nil newline finding.body.text.toList
  unfold parseFindingBlock
  rw [hread]
  show (match missingField? finding.fields with | some required => _ | none => _) = _
  rw [finding.missingField_fields]
  simp only
  rw [if_neg hlines, hbody, finding.body.stripChars_eq, if_neg finding.body.toList_ne_nil, hfields,
    hnumber, Value.text_str, hline]
  simp only
  rw [finding.copyOptional_fields, htitle, hpath]
  simp only [Value.text_str, finding.title.stripped, finding.path.stripped, String.ofList_toList]
  rfl

theorem unbroken_blockLines {line : List Char} (hline : line ∈ finding.blockLines pad) :
    ∀ c ∈ line, isLineEnd c = false := by
  rcases List.mem_cons.mp hline with rfl | hline
  · exact isLineEnd_of_all (by decide)
  rcases List.mem_append.mp hline with hline | hline
  · exact unbroken_contentLines hclean hline
  · obtain rfl := List.mem_singleton.mp hline
    exact isLineEnd_of_all (by decide)

end Written

/-- No line between the fences of a block closes it. -/
theorem not_closing_contentLines {line : List Char} (hline : line ∈ finding.contentLines pad) :
    isClosingFence line = false := by
  have hstart : ∀ c cs, c ≠ '`' → isClosingFence (c :: cs) = false := by
    intro c cs hc
    have hdrop : dropPrefix? fence (c :: cs) = none := by
      simp [fence, dropPrefix?, Ne.symm hc]
    rw [isClosingFence, hdrop]
    rfl
  rcases List.mem_append.mp hline with hheader | hline
  · obtain ⟨entry, hentry, rfl⟩ := List.mem_map.mp hheader
    have hhead := (headerKey_facts _ (finding.mem_headerKeys hentry)).2.2.2.2.2
    unfold headerLine
    cases hkey : entry.1.toList with
    | nil => exact hstart ':' _ (by decide)
    | cons c cs => exact hstart c _ fun hc => hhead (by rw [hkey, hc]; rfl)
  rcases List.mem_cons.mp hline with rfl | hline
  · rfl
  · obtain ⟨piece, hpiece, rfl⟩ := List.mem_map.mp hline
    cases pad with
    | zero => exact finding.body.unfenced piece hpiece
    | succ pad => exact hstart ' ' _ (by decide)

end Finding

theorem extractBlocks_outside (line : List Char) (rest : List (List Char)) :
    extractBlocks none (line :: rest) =
      if isFindingFence line then extractBlocks (some []) rest else extractBlocks none rest := rfl

theorem extractBlocks_inside (current : List (List Char)) (line : List Char)
    (rest : List (List Char)) :
    extractBlocks (some current) (line :: rest) =
      if isClosingFence line then (extractBlocks none rest).map (join newline current :: ·)
      else extractBlocks (some (current ++ [line])) rest := rfl

theorem extractBlocks_content {content : List (List Char)}
    (h : ∀ line ∈ content, isClosingFence line = false) (current rest : List (List Char)) :
    extractBlocks (some current) (content ++ fence :: rest) =
      (extractBlocks none rest).map (join newline (current ++ content) :: ·) := by
  induction content generalizing current with
  | nil =>
      have hclosing : isClosingFence fence = true := rfl
      rw [List.nil_append, extractBlocks_inside, if_pos hclosing, List.append_nil]
  | cons line content ih =>
      have hopen : isClosingFence line = false := h line (by simp)
      rw [List.cons_append, extractBlocks_inside, if_neg (by simp [hopen]),
        ih fun other hother => h other (by simp [hother])]
      simp

/-- The blocks of the rendered findings are found one after the other. -/
theorem extractBlocks_render (pad : ℕ) (findings : List Finding) :
    extractBlocks none (findings.flatMap (·.blockLines pad)) =
      .ok (findings.map fun finding => join newline (finding.contentLines pad)) := by
  induction findings with
  | nil => rfl
  | cons finding findings ih =>
      have hfence : isFindingFence "```finding".toList = true := by decide +kernel
      have hopen : ∀ line ∈ finding.contentLines pad, isClosingFence line = false :=
        fun line => finding.not_closing_contentLines pad
      have hblock := extractBlocks_content hopen [] (findings.flatMap (·.blockLines pad))
      rw [List.flatMap_cons, Finding.blockLines, List.cons_append, List.cons_append,
        extractBlocks_outside, if_pos hfence, List.append_assoc, List.singleton_append, hblock, ih]
      rfl

theorem stripChars_of_ends {c d : Char} (hc : isSpace c = false) (hd : isSpace d = false)
    {text mid front : List Char} (hstart : text = c :: mid) (hend : text = front ++ [d]) :
    stripChars text = text := by
  have hleft : text.dropWhile isSpace = text := by
    rw [hstart, List.dropWhile_cons_of_neg (by simp [hc])]
  show (text.dropWhile isSpace).rdropWhile isSpace = text
  rw [hleft, hend, List.rdropWhile_concat_neg _ _ _ (by simp [hd])]

section Render

variable (pad : ℕ) {findings : List Finding}

/-- A rendered list of findings starts and ends with fences. -/
theorem exists_lines (hne : findings ≠ []) : ∃ lines,
    findings.flatMap (·.blockLines pad) = "```finding".toList :: lines ++ [fence] := by
  obtain ⟨first, rest, rfl⟩ := List.exists_cons_of_ne_nil hne
  obtain ⟨front, last, hlast⟩ : ∃ front last, first :: rest = front ++ [last] :=
    ⟨_, _, (List.dropLast_append_getLast (by simp)).symm⟩
  cases front with
  | nil =>
      obtain ⟨rfl, rfl⟩ := List.cons.inj hlast
      exact ⟨first.contentLines pad, by simp [Finding.blockLines]⟩
  | cons other front =>
      obtain ⟨rfl, rfl⟩ := List.cons.inj hlast
      refine ⟨first.contentLines pad ++ fence :: (front.flatMap (·.blockLines pad) ++
        "```finding".toList :: last.contentLines pad), ?_⟩
      simp [Finding.blockLines, List.flatMap_append]

theorem stripChars_render :
    stripChars (renderFindings pad findings).toList = (renderFindings pad findings).toList := by
  rw [renderFindings, String.toList_ofList]
  by_cases hne : findings = []
  · subst hne
    rfl
  obtain ⟨lines, hlines⟩ := exists_lines pad hne
  have hstart : ∃ mid, join newline ("```finding".toList :: lines ++ [fence]) = '`' :: mid := by
    have hfence : "```finding".toList = '`' :: "``finding".toList := rfl
    rw [List.cons_append, join_cons newline _ (by simp), hfence]
    exact ⟨_, rfl⟩
  have hend : ∃ front, join newline ("```finding".toList :: lines ++ [fence]) =
      front ++ ['`'] := by
    have hfence : fence = ['`', '`'] ++ ['`'] := rfl
    rw [join_append_singleton newline (by simp), hfence, ← List.cons_append, ← List.append_assoc]
    exact ⟨_, rfl⟩
  obtain ⟨mid, hstart⟩ := hstart
  obtain ⟨front, hend⟩ := hend
  rw [hlines]
  exact stripChars_of_ends rfl rfl hstart hend

/-- Findings without foreign line ends are read back as they were rendered. -/
theorem parseFindingBlocks_render (h : ∀ finding ∈ findings, finding.Unbroken) :
    parseFindingBlocks (renderFindings pad findings) = .ok (findings.map Finding.toDict) := by
  by_cases hne : findings = []
  · subst hne
    rfl
  have htext : stripChars (renderFindings pad findings).toList =
      (renderFindings pad findings).toList := stripChars_render pad
  have hchars : (renderFindings pad findings).toList =
      join newline (findings.flatMap (·.blockLines pad)) := String.toList_ofList
  have hlines : splitlines (renderFindings pad findings).toList =
      findings.flatMap (·.blockLines pad) := by
    obtain ⟨lines, hlines⟩ := exists_lines pad hne
    rw [hchars, hlines]
    refine splitlines_join (by decide) fun line hline => ?_
    rw [← hlines] at hline
    obtain ⟨finding, hfinding, hline⟩ := List.mem_flatMap.mp hline
    exact Finding.unbroken_blockLines (h finding hfinding) hline
  have hgiven : (renderFindings pad findings).toList ≠ [] := by
    intro hempty
    rw [hempty] at hlines
    obtain ⟨lines, hrender⟩ := exists_lines pad hne
    rw [hrender] at hlines
    simp [splitlines, universalNewlines, SeparatedLines.splitLines] at hlines
  have hblocks : extractFindingBlocks (renderFindings pad findings).toList =
      .ok (findings.map fun finding => join newline (finding.contentLines pad)) := by
    rw [extractFindingBlocks, hlines, extractBlocks_render]
  have hread : (findings.map fun finding => join newline (finding.contentLines pad)).mapM
      parseFindingBlock = Except.ok (findings.map Finding.toDict) := by
    clear hlines hgiven hblocks hchars htext hne
    induction findings with
    | nil => rfl
    | cons finding findings ih =>
        have hrest := ih fun other hother => h other (by simp [hother])
        rw [List.map_cons, List.mapM_cons, Finding.parseFindingBlock_block (h finding (by simp)),
          hrest]
        rfl
  obtain ⟨first, rest, rfl⟩ := List.exists_cons_of_ne_nil hne
  unfold parseFindingBlocks
  simp only [htext, hblocks]
  rw [if_neg hgiven]
  exact hread

end Render

/-- Every text in the mapping is unbroken. -/
def UnbrokenTexts (fields : Dict) : Prop :=
  ∀ key text : String, fields[key]? = some (Value.str text) → Unbroken text

theorem UnbrokenTexts.set {fields : Dict} (h : UnbrokenTexts fields) (key : String) {value : Value}
    (hvalue : ∀ text, value = .str text → Unbroken text) : UnbrokenTexts (fields.set key value) := by
  intro other text hfound
  rw [Dict.getElem?_set] at hfound
  split at hfound
  · exact hvalue text (Option.some.inj hfound)
  · exact h other text hfound

theorem unbrokenTexts_empty : UnbrokenTexts ∅ := by
  intro key text hfound
  simp at hfound

theorem unbroken_of_subset {text : List Char} {line : List Char}
    (h : ∀ c ∈ line, isLineEnd c = false) (hsub : ∀ c ∈ text, c ∈ line) :
    Unbroken (String.ofList text) := by
  intro c hc hend
  rw [String.toList_ofList] at hc
  rw [h c (hsub c hc)] at hend
  cases hend

/-- What `_parse_block_lines` has read has no line ends inside. -/
structure BlockState.Clean (state : BlockState) : Prop where
  fields : UnbrokenTexts state.fields
  texts : ∀ (key : String) (value : Value), state.fields[key]? = some value →
    ∃ text, value = .str text
  lines : ∀ line ∈ state.bodyLines, ∀ c ∈ line, isLineEnd c = false

theorem mem_partition {sep c : Char} {line before after : List Char}
    (h : partition sep line = some (before, after)) (hc : c ∈ after) : c ∈ line := by
  induction line generalizing before with
  | nil => simp [partition] at h
  | cons first line ih =>
      rw [partition] at h
      split at h
      · obtain ⟨-, rfl⟩ := Prod.mk.inj (Option.some.inj h)
        exact List.mem_cons_of_mem _ hc
      · obtain ⟨⟨other, rest⟩, hrest, hpair⟩ := Option.map_eq_some_iff.mp h
        obtain ⟨-, rfl⟩ := Prod.mk.inj hpair
        exact List.mem_cons_of_mem _ (ih hrest)

theorem readBlockLine_clean {state next : BlockState} {rawLine : List Char}
    (hstate : state.Clean) (hraw : ∀ c ∈ rawLine, isLineEnd c = false)
    (h : readBlockLine state rawLine = .ok next) : next.Clean := by
  have hline : ∀ c ∈ rstripChars rawLine, isLineEnd c = false := fun c hc =>
    hraw c ((List.rdropWhile_prefix isSpace rawLine).subset hc)
  have hlonger : ∀ text : List Char, (∀ c ∈ text, isLineEnd c = false) →
      ∀ line ∈ state.bodyLines ++ [text], ∀ c ∈ line, isLineEnd c = false := by
    intro text htext line hmem
    rcases List.mem_append.mp hmem with hmem | hmem
    · exact hstate.lines line hmem
    · obtain rfl := List.mem_singleton.mp hmem
      exact htext
  unfold readBlockLine at h
  simp only at h
  split at h
  · obtain rfl := Except.ok.inj h
    exact ⟨hstate.fields, hstate.texts, hlonger _ hline⟩
  split at h
  · obtain rfl := Except.ok.inj h
    exact hstate
  split at h
  · cases h
  · next before after hsplit =>
    have hvalue : ∀ c ∈ lstripChars after, isLineEnd c = false := fun c hc =>
      hline c (mem_partition hsplit ((List.dropWhile_suffix isSpace).subset hc))
    split at h
    · cases h
    split at h
    · obtain rfl := Except.ok.inj h
      refine ⟨hstate.fields, hstate.texts, ?_⟩
      simp only
      split
      · exact hstate.lines
      · exact hlonger _ hvalue
    · obtain rfl := Except.ok.inj h
      refine ⟨hstate.fields.set _ fun text htext => ?_, fun other value hfound => ?_,
        hstate.lines⟩
      · obtain rfl := Value.str.inj htext
        exact unbroken_of_subset hvalue fun c hc => hc
      · rw [Dict.getElem?_set] at hfound
        split at hfound
        · exact ⟨_, (Option.some.inj hfound).symm⟩
        · exact hstate.texts other value hfound

theorem foldlM_readBlockLine_clean {lines : List (List Char)} {state final : BlockState}
    (hstate : state.Clean) (hlines : ∀ line ∈ lines, ∀ c ∈ line, isLineEnd c = false)
    (h : lines.foldlM readBlockLine state = .ok final) : final.Clean := by
  induction lines generalizing state with
  | nil =>
      obtain rfl := Except.ok.inj h
      exact hstate
  | cons line lines ih =>
      rw [List.foldlM_cons] at h
      cases hread : readBlockLine state line with
      | error message =>
          rw [hread] at h
          cases h
      | ok next =>
          rw [hread] at h
          exact ih (readBlockLine_clean hstate (hlines line (by simp)) hread)
            (fun other hother => hlines other (by simp [hother])) h

theorem parseBlockLines_clean {block : List Char} {state : BlockState}
    (h : parseBlockLines block = .ok state) : state.Clean :=
  foldlM_readBlockLine_clean ⟨unbrokenTexts_empty, by simp, by simp⟩
    (fun _ hline c hc => (mem_splitLines hline c hc).1) h

theorem UnbrokenTexts.copyOptional {fields finding : Dict} (hfields : UnbrokenTexts fields)
    (h : UnbrokenTexts finding) (optional : String) :
    UnbrokenTexts (FindingBlocks.copyOptional fields finding optional) := by
  unfold FindingBlocks.copyOptional
  split
  · next hcopied =>
    refine h.set optional fun text htext => hfields optional text ?_
    obtain ⟨value, hvalue⟩ := Option.isSome_iff_exists.mp hcopied.1
    rw [Dict.get, hvalue] at htext
    rw [hvalue]
    exact congrArg some htext
  · exact h

/-- A field that was read, or what stands for one that was not, is unbroken. -/
theorem BlockState.Clean.unbroken_strip {state : BlockState} (h : state.Clean) (key : String) :
    Unbroken (strip (state.fields.get key).text) := by
  cases hfound : state.fields[key]? with
  | none =>
      have hnone : state.fields.get key = .null := by rw [Dict.get, hfound]; rfl
      rw [hnone]
      intro c hc hend
      have hclean : ∀ c ∈ (strip (Value.text .null)).toList, isLineEnd c = false :=
        isLineEnd_of_all (by decide)
      rw [hclean c hc] at hend
      cases hend
  | some value =>
      obtain ⟨text, rfl⟩ := h.texts key value hfound
      have htext : state.fields.get key = .str text := by rw [Dict.get, hfound]; rfl
      rw [htext, Value.text_str]
      intro c hc hend
      refine h.fields key text hfound c ?_ hend
      rw [strip, String.toList_ofList] at hc
      exact (stripChars_sublist _).subset hc

/-- The texts of a finding that was read have no line ends but newlines. -/
theorem parseFindingBlock_unbroken {block : List Char} {finding : Dict}
    (h : parseFindingBlock block = .ok finding) : UnbrokenTexts finding := by
  unfold parseFindingBlock at h
  cases hread : parseBlockLines block with
  | error message =>
      rw [hread] at h
      cases h
  | ok state =>
  rw [hread] at h
  have hclean := parseBlockLines_clean hread
  simp only [bind, Except.bind] at h
  split at h
  · cases h
  split at h
  · cases h
  split at h
  · cases h
  split at h
  · cases h
  · next line hline =>
    obtain rfl := Except.ok.inj h
    have hbody : Unbroken (String.ofList
        (stripChars (dedent (join newline state.bodyLines)))) := by
      intro c hc hend
      rw [String.toList_ofList] at hc
      rcases mem_dedent ((stripChars_sublist _).subset hc) with rfl | hc
      · rfl
      rcases Value.mem_join.1 hc with rfl | hc
      · rfl
      · obtain ⟨bodyLine, hbodyLine, hc⟩ := List.mem_flatten.mp hc
        rw [hclean.lines bodyLine hbodyLine c hc] at hend
        cases hend
    have hbase : UnbrokenTexts (Dict.ofFields
        [("title", .str (strip (state.fields.get "title").text)),
          ("path", .str (strip (state.fields.get "path").text)), ("line", .int line),
          ("body", .str (String.ofList (stripChars (dedent (join newline state.bodyLines)))))]) := by
      refine (((unbrokenTexts_empty.set "title" ?_).set "path" ?_).set "line" ?_).set "body" ?_
      · intro text htext
        exact Value.str.inj htext ▸ hclean.unbroken_strip "title"
      · intro text htext
        exact Value.str.inj htext ▸ hclean.unbroken_strip "path"
      · intro text htext
        cases htext
      · intro text htext
        exact Value.str.inj htext ▸ hbody
    exact (((hclean.fields.copyOptional hbase "severity" |> hclean.fields.copyOptional)
      "category" |> hclean.fields.copyOptional) "confidence" |> hclean.fields.copyOptional) _

theorem mapM_parseFindingBlock_unbroken {blocks : List (List Char)} {findings : List Dict}
    (h : blocks.mapM parseFindingBlock = .ok findings) :
    ∀ finding ∈ findings, UnbrokenTexts finding := by
  induction blocks generalizing findings with
  | nil =>
      obtain rfl := Except.ok.inj h
      simp
  | cons block blocks ih =>
      rw [List.mapM_cons] at h
      cases hblock : parseFindingBlock block with
      | error message =>
          rw [hblock] at h
          cases h
      | ok first =>
      cases hblocks : blocks.mapM parseFindingBlock with
      | error message =>
          rw [hblock, hblocks] at h
          cases h
      | ok rest =>
      rw [hblock, hblocks] at h
      obtain rfl := Except.ok.inj h
      intro finding hmem
      rcases List.mem_cons.mp hmem with rfl | hmem
      · exact parseFindingBlock_unbroken hblock
      · exact ih hblocks finding hmem

theorem parseFindingBlocks_unbroken {raw : String} {findings : List Dict}
    (h : parseFindingBlocks raw = .ok findings) : ∀ finding ∈ findings, UnbrokenTexts finding := by
  unfold parseFindingBlocks at h
  simp only at h
  split at h
  · obtain rfl := Except.ok.inj h
    simp
  split at h
  · cases h
  · cases h
  · exact mapM_parseFindingBlock_unbroken h

namespace Finding

theorem optionals_keys_nodup (finding : Finding) : (finding.optionals.map Prod.fst).Nodup := by
  show ["severity", "category", "confidence", "head_sha"].Nodup
  decide

/-- The texts of a finding are found in what the reader returns for it. -/
theorem unbroken_of_toDict {finding : Finding} (h : UnbrokenTexts finding.toDict) :
    finding.Unbroken := by
  have hbase : ∀ (key : String) {text : String}, key ∉ (presentTexts finding.optionals).map Prod.fst →
      (Dict.ofFields [("title", .str finding.title.text), ("path", .str finding.path.text),
        ("line", .int finding.line), ("body", .str finding.body.text)])[key]? =
          some (Value.str text) → FindingBlocks.Unbroken text := by
    intro key text hkey hfound
    refine h key text ?_
    rw [toDict, getElem?_setTexts_of_notMem _ hkey, hfound]
  have hforeign : ∀ {key : String}, key ∉ ["severity", "category", "confidence", "head_sha"] →
      key ∉ (presentTexts finding.optionals).map Prod.fst :=
    fun hkey hmem => hkey (presentTexts_keys_sublist.subset hmem)
  refine ⟨hbase "body" (hforeign (by decide)) ?_, fun entry hentry => ?_⟩
  · simp [Dict.ofFields]
  rcases List.mem_cons.mp hentry with rfl | hentry
  · refine hbase "title" (hforeign (by decide)) ?_
    simp only [Dict.ofFields, List.foldl_cons, List.foldl_nil, Std.ExtTreeMap.getElem?_insert,
      Std.LawfulEqCmp.compare_eq_iff_eq, String.reduceEq, if_false, if_true]
  rcases List.mem_cons.mp hentry with rfl | hentry
  · refine hbase "path" (hforeign (by decide)) ?_
    simp only [Dict.ofFields, List.foldl_cons, List.foldl_nil, Std.ExtTreeMap.getElem?_insert,
      Std.LawfulEqCmp.compare_eq_iff_eq, String.reduceEq, if_false, if_true]
  rcases List.mem_cons.mp hentry with rfl | hentry
  · intro c hc hend
    have hspace := isSpace_of_numeral hc
    rw [show isSpace c = true by simpa using isSpace_of_isLineEnd hend] at hspace
    cases hspace
  · exact h entry.1 entry.2 (getElem?_setTexts_of_mem _
      (finding.optionals_keys_nodup.sublist presentTexts_keys_sublist) hentry)

end Finding

/-- Rendered findings are read back exactly when nothing but newlines ends a line in them. -/
theorem finding_blocks_read_back_iff (pad : ℕ) (findings : List Finding) :
    parseFindingBlocks (renderFindings pad findings) = .ok (findings.map Finding.toDict) ↔
      ∀ finding ∈ findings, finding.Unbroken := by
  constructor
  · intro h finding hfinding
    exact Finding.unbroken_of_toDict
      (parseFindingBlocks_unbroken h _ (List.mem_map_of_mem hfinding))
  · exact parseFindingBlocks_render pad

/-- A finding whose body has a form feed. -/
def pagedFinding : Finding where
  title := ⟨"Guard", by decide, by decide, by decide⟩
  path := ⟨"a.py", by decide, by decide, by decide⟩
  line := 1
  line_short := by decide
  body := {
    text := String.ofList ['a', Char.ofNat 12, 'b']
    ne_empty := by decide
    stripped := by decide
    dedented := by decide
    no_trailing := by decide
    unfenced := by decide }
  severity := none
  category := none
  confidence := none
  headSha := none

theorem paged_finding_changed : ¬ ∀ (pad : ℕ) (findings : List Finding),
    parseFindingBlocks (renderFindings pad findings) = .ok (findings.map Finding.toDict) := by
  intro hclaim
  have hread := parseFindingBlocks_unbroken (hclaim 2 [pagedFinding]) _ (List.mem_singleton.mpr rfl)
  have hbody := (Finding.unbroken_of_toDict hread).1 (Char.ofNat 12)
  revert hbody
  decide

end FindingBlocks

end GhAddressCr
