import GhAddressCr.FinalGate
import GhAddressCr.ResponseValidation

/-!
# Validation verdicts

Two readers decide whether a list of validation commands holds a success: the final gate reads
the entries as they were given, and the rows they are normalized to are read when a response
is accepted. They split `command=result@duration` in different ways, so a verdict can be read
by one of them only.
-/
namespace GhAddressCr

open PyText

/-- The result without its duration. -/
def untimedResult (result : String) : String := (stripValidationDurationSuffix result).1

def isTimedResult (result : String) : Bool := (stripValidationDurationSuffix result).2 ≠ .null

/-- The word starts like a success. -/
def isSuccessWord (word : String) : Bool := validationSuccessPrefixes.any (startsWith word)

/-- The results that are known and are no success. -/
def failingResults : List String := ["failed", "fail", "failure", "error", "skipped"]

/-- The result, with a duration or without one, is a failing one. -/
def isFailingResult (result : String) : Bool :=
  failingResults.contains (lower (strip (untimedResult result)))

/-- A given result is judged by its first letters, and none at all is a success. -/
theorem validationResultIsSuccess_str {result : String} (h : result ≠ "") :
    validationResultIsSuccess (.str result) = isSuccessWord (lower (strip result)) := by
  simp [validationResultIsSuccess, isSuccessWord, Value.orElse, h]

theorem partition_some {sep : Char} {cs before after : List Char}
    (h : partition sep cs = some (before, after)) : cs = before ++ sep :: after := by
  induction cs generalizing before with
  | nil => simp [partition] at h
  | cons c cs ih =>
      unfold partition at h
      split at h
      · next hsep =>
        obtain ⟨rfl, rfl⟩ := Prod.mk.inj (Option.some.inj h)
        rw [hsep, List.nil_append]
      · obtain ⟨⟨front, rest⟩, hrest, heq⟩ := Option.map_eq_some_iff.mp h
        obtain ⟨rfl, rfl⟩ := Prod.mk.inj heq
        rw [ih hrest, List.cons_append]

theorem rpartition_some {sep : Char} {cs before after : List Char}
    (h : rpartition sep cs = some (before, after)) : cs = before ++ sep :: after := by
  obtain ⟨⟨front, rest⟩, hparts, heq⟩ := Option.map_eq_some_iff.mp h
  obtain ⟨rfl, rfl⟩ := Prod.mk.inj heq
  have hcs := congrArg List.reverse (partition_some hparts)
  simpa using hcs

theorem decimal?_ne_null {text : List Char} {number : Value} (h : decimal? text = some number) :
    number ≠ .null := by
  have hnumber : ∀ {whole fraction : List Char}, decimalNumber whole fraction = some number →
      number ≠ .null := by
    intro whole fraction hdecimal
    unfold decimalNumber at hdecimal
    obtain ⟨mantissa, -, hvalue⟩ := Option.bind_eq_some_iff.mp hdecimal
    split at hvalue
    · cases hvalue
    · obtain rfl := Option.some.inj hvalue
      simp
  unfold decimal? at h
  split at h
  · split at h
    · cases h
    · exact hnumber h
  · exact hnumber h

theorem durationSeconds?_ne_null {text : List Char} {seconds : Value}
    (h : durationSeconds? text = some seconds) : seconds ≠ .null := by
  unfold durationSeconds? at h
  split at h
  · obtain rfl := Option.some.inj h
    simp
  · obtain ⟨rest, -, hdecimal⟩ := Option.bind_eq_some_iff.mp h
    exact decimal?_ne_null hdecimal

/-- A result keeps its text unless a duration is read off its end. -/
theorem stripDuration_cases (result : String) :
    (untimedResult result = result ∧ isTimedResult result = false) ∨
      ∃ suffix : List Char, (strip result).toList =
        (untimedResult result).toList ++ '@' :: suffix ∧ isTimedResult result = true := by
  unfold untimedResult isTimedResult stripValidationDurationSuffix
  cases hparts : rpartition '@' (strip result).toList with
  | none => exact Or.inl ⟨rfl, by simp⟩
  | some parts =>
      obtain ⟨token, suffix⟩ := parts
      cases hseconds : durationSeconds? suffix with
      | none => exact Or.inl ⟨by simp [hseconds], by simp [hseconds]⟩
      | some seconds =>
          right
          refine ⟨suffix, ?_, ?_⟩
          · simp [hseconds, rpartition_some hparts]
          · simpa [hseconds] using durationSeconds?_ne_null hseconds

/-- The lower case of a result that has a duration has its `@`. -/
theorem mem_lower_of_timed {result : String} (h : isTimedResult result = true) :
    '@' ∈ (lower (strip result)).toList := by
  rcases stripDuration_cases result with ⟨-, huntimed⟩ | ⟨suffix, hsplit, -⟩
  · rw [h] at huntimed
    cases huntimed
  · simp only [lower, String.toList_ofList, List.mem_map]
    exact ⟨'@', by simp [hsplit], by decide⟩

/-- A known result has no duration, is not empty, and fails unless it starts like a success. -/
theorem knownWords : ∀ word ∈ knownValidationResultTokens,
    '@' ∉ word.toList ∧ word ≠ "" ∧ (word ∈ failingResults ↔ isSuccessWord word = false) := by
  decide +kernel

/-- A failing result is known, and neither it nor a success starts with the other. -/
theorem failingWords : ∀ failing ∈ failingResults, failing ∈ knownValidationResultTokens ∧
    ∀ success ∈ validationSuccessPrefixes,
      ¬ success.toList <+: failing.toList ∧ ¬ failing.toList <+: success.toList := by
  decide +kernel

theorem isSuccessWord_passed : isSuccessWord (lower (strip "passed")) = true := by
  decide +kernel

theorem lower_strip_empty : lower (strip "") = "" := rfl

theorem isSuccessWord_empty : isSuccessWord "" = false := by
  simp [isSuccessWord, validationSuccessPrefixes, startsWith, dropPrefix?]

theorem isFailingResult_empty : isFailingResult "" = false := by
  have huntimed : untimedResult "" = "" := rfl
  simp [isFailingResult, huntimed, lower_strip_empty, failingResults]

/-- A known result is written without a duration. -/
theorem not_timed_of_known {result : String}
    (h : lower (strip result) ∈ knownValidationResultTokens) : isTimedResult result = false := by
  by_contra htimed
  exact (knownWords _ h).1 (mem_lower_of_timed (by simpa using htimed))

theorem untimedResult_of_not_timed {result : String} (h : isTimedResult result = false) :
    untimedResult result = result := by
  rcases stripDuration_cases result with ⟨hsame, -⟩ | ⟨suffix, -, htimed⟩
  · exact hsame
  · rw [h] at htimed
    cases htimed

/-- The words of both readers; only one of them knows `failure`. -/
theorem knownResult_iff (result : String) :
    lower (strip result) ∈ knownValidationResultTokens ↔
      looksLikeValidationResult result = true ∨ lower (strip result) = "failure" := by
  simp only [knownValidationResultTokens, looksLikeValidationResult, List.contains_eq_mem,
    decide_eq_true_eq, List.mem_cons]
  generalize lower (strip result) = word
  simp only [or_comm, or_left_comm]

/-- Of the known results, the failing ones do not start like a success. -/
theorem failingResult_iff {word : String} (h : word ∈ knownValidationResultTokens) :
    word ∈ failingResults ↔ isSuccessWord word = false :=
  (knownWords word h).2.2

theorem known_of_failing {word : String} (h : word ∈ failingResults) :
    word ∈ knownValidationResultTokens :=
  (failingWords word h).1

theorem startsWith_iff (s pre : String) : startsWith s pre = true ↔ pre.toList <+: s.toList := by
  unfold startsWith
  rw [Option.isSome_iff_exists]
  constructor
  · rintro ⟨rest, hrest⟩
    exact ⟨rest, (dropPrefix?_eq_some.mp hrest).symm⟩
  · rintro ⟨rest, hrest⟩
    exact ⟨rest, dropPrefix?_eq_some.mpr hrest.symm⟩

/-- A text without its last blanks. -/
theorem stripChars_append_of_solid {token rest : List Char} {c : Char}
    (h : stripChars (token ++ c :: rest) = token ++ c :: rest) : stripChars token <+: token := by
  have hfront : token.dropWhile isSpace = token := by
    cases token with
    | nil => rfl
    | cons d token =>
        have hsolid : isSpace d = false := by
          by_contra hspace
          have hspace : isSpace d = true := by simpa using hspace
          have hlength := congrArg List.length h
          have hdrop : (stripChars (d :: token ++ c :: rest)).length ≤
              (token ++ c :: rest).length := by
            have hle : (((d :: token ++ c :: rest).dropWhile isSpace)).length ≤
                (token ++ c :: rest).length := by
              rw [List.cons_append, List.dropWhile_cons_of_pos hspace]
              exact (List.dropWhile_suffix _).length_le
            exact (List.rdropWhile_prefix isSpace _).length_le.trans hle
          rw [hlength] at hdrop
          simp at hdrop
        rw [List.dropWhile_cons_of_neg (by simp [hsolid])]
  have hstart : stripChars token <+: token.dropWhile isSpace := List.rdropWhile_prefix isSpace _
  rwa [hfront] at hstart

/-- A failing result does not start like a success, whatever its duration. -/
theorem not_success_of_failing {result : String} (h : isFailingResult result = true) :
    isSuccessWord (lower (strip result)) = false := by
  have hfailing : lower (strip (untimedResult result)) ∈ failingResults := by
    simpa [isFailingResult] using h
  have hstart : (lower (strip (untimedResult result))).toList <+:
      (lower (strip result)).toList := by
    rcases stripDuration_cases result with ⟨hsame, -⟩ | ⟨suffix, hsplit, -⟩
    · simp only [hsame, List.prefix_rfl]
    · have hsolid : stripChars ((untimedResult result).toList ++ '@' :: suffix) =
          (untimedResult result).toList ++ '@' :: suffix := by
        rw [← hsplit, strip, String.toList_ofList, stripChars_stripChars]
      have htoken := stripChars_append_of_solid hsolid
      simp only [lower, String.toList_ofList]
      refine List.IsPrefix.map lowerChar ?_
      rw [hsplit]
      unfold strip
      rw [String.toList_ofList]
      exact htoken.trans (List.prefix_append _ _)
  -- two words at the start of one text: one of them starts with the other
  by_contra hsuccess
  have hsuccess : isSuccessWord (lower (strip result)) = true := by simpa using hsuccess
  obtain ⟨success, hmem, hword⟩ := List.any_eq_true.mp hsuccess
  obtain ⟨hforth, hback⟩ := (failingWords _ hfailing).2 success hmem
  rcases List.prefix_or_prefix_of_prefix ((startsWith_iff _ _).mp hword) hstart with hpre | hpre
  · exact hforth hpre
  · exact hback hpre

/-- What stands before and after the last `=` of an entry. -/
def lastResult (text : String) : Option (String × String) :=
  (rpartition '=' (strip text).toList).map fun parts =>
    (String.ofList parts.1, String.ofList parts.2)

/-- The text is given and does not end in a failing result. -/
def PassingText (text : String) : Prop :=
  strip text ≠ "" ∧ ∀ parts ∈ lastResult text, lower (strip parts.2) ∉ failingResults

theorem validationResultIsSuccess_known {result : String}
    (h : lower (strip result) ∈ knownValidationResultTokens) :
    validationResultIsSuccess (.str result) = true ↔ lower (strip result) ∉ failingResults := by
  have hempty : lower (strip "") ∉ knownValidationResultTokens := by
    intro hknown
    exact (knownWords _ hknown).2.1 lower_strip_empty
  have hgiven : result ≠ "" := by
    rintro rfl
    exact hempty h
  rw [validationResultIsSuccess_str hgiven, failingResult_iff h]
  simp

/-- What the reader of given entries takes for a success. -/
theorem validationTextHasSuccess_iff (text : String) :
    validationTextHasSuccess text = true ↔ PassingText text := by
  unfold validationTextHasSuccess PassingText lastResult
  simp only
  split
  · next hempty => simp [hempty]
  · next hgiven =>
    cases hparts : rpartition '=' (strip text).toList with
    | none => simp [hgiven]
    | some parts =>
        obtain ⟨command, result⟩ := parts
        simp only [Option.map_some, Option.mem_def, Option.some.injEq, forall_eq', hgiven, ne_eq,
          not_false_eq_true, true_and, List.contains_eq_mem, decide_eq_true_eq]
        split
        · next hknown => exact validationResultIsSuccess_known hknown
        · next hunknown =>
          simp only [true_iff]
          exact fun hfailing => hunknown (known_of_failing hfailing)

/-- The rows of the entries, as evidence. -/
def normalizedEvidence (entries : List Value) : Value :=
  .list ((normalizeValidationCommandRecords (.list entries)).map (·.toValue))

/-- The row of an entry, if it has one, counts as a success. -/
def rowHasSuccess (entry : Value) : Bool :=
  (normalizeValidationCommandRecord entry).any fun row => validationEvidenceHasSuccess row.toValue

theorem anyValueHasSuccess_iff (values : List Value) :
    anyValueHasSuccess values = true ↔
      ∃ value ∈ values, validationEvidenceHasSuccess value = true := by
  induction values with
  | nil => simp [anyValueHasSuccess]
  | cons value values ih => simp [anyValueHasSuccess, ih]

theorem normalizedEvidence_iff (entries : List Value) :
    validationEvidenceHasSuccess (normalizedEvidence entries) = true ↔
      ∃ entry ∈ entries, rowHasSuccess entry = true := by
  unfold normalizedEvidence validationEvidenceHasSuccess normalizeValidationCommandRecords
  rw [anyValueHasSuccess_iff]
  simp only [List.mem_map, List.mem_filterMap, rowHasSuccess, Option.any_eq_true]
  constructor
  · rintro ⟨_, ⟨row, ⟨entry, hentry, hrow⟩, rfl⟩, hsuccess⟩
    exact ⟨entry, hentry, row, hrow, hsuccess⟩
  · rintro ⟨entry, hentry, row, hrow, hsuccess⟩
    exact ⟨_, ⟨row, ⟨entry, hentry, hrow⟩, rfl⟩, hsuccess⟩

theorem has_of_get {d : Dict} {key : String} (h : d.get key ≠ .null) : d.has key = true := by
  unfold Dict.has
  cases hkey : d[key]? with
  | none => simp [Dict.get, hkey] at h
  | some value => rfl

theorem validationEvidenceHasSuccess_toValue {record : Dict} (h : isValidationRecord record = true) :
    validationEvidenceHasSuccess record.toValue = validationRecordIsSuccess record := by
  unfold Dict.toValue validationEvidenceHasSuccess
  rw [Dict.ofFields_toList, if_pos h]

/-- A row is given its result, so it counts by it alone. -/
theorem validationCommandRow_success {command result summary : String}
    {duration startTime endTime : Value} :
    (validationCommandRow command result summary duration startTime endTime).any
        (fun row => validationEvidenceHasSuccess row.toValue) = true ↔
      command ≠ "" ∧ result ≠ "" ∧ isSuccessWord (lower (strip result)) = true := by
  unfold validationCommandRow
  split
  · next hmissing =>
    rcases hmissing with rfl | rfl <;> simp
  · next hgiven =>
    rw [not_or] at hgiven
    simp only [Option.any_some]
    have hfields : ∀ row : Dict, row.get "result" = .str result → row.get "exit_code" = .null →
        validationEvidenceHasSuccess row.toValue = isSuccessWord (lower (strip result)) := by
      intro row hresult hexit
      have hrecord : isValidationRecord row = true := by
        simp [isValidationRecord, has_of_get (by rw [hresult]; simp : row.get "result" ≠ .null)]
      rw [validationEvidenceHasSuccess_toValue hrecord, validationRecordIsSuccess, hexit, hresult]
      simp [validationResultIsSuccess_str hgiven.2]
    rw [hfields _ (by split <;> simp [Dict.ofFields, Dict.get_insert])
      (by split <;> simp [Dict.ofFields, Dict.get_insert])]
    simp [hgiven]

/-- The rows are read off texts that are stripped and split first. -/
theorem rowHasSuccess_str (text : String) :
    rowHasSuccess (.str text) = true ↔
      strip text ≠ "" ∧ ∀ parts ∈ lastResult text,
        looksLikeValidationResult (untimedResult parts.2) = true →
        strip parts.1 ≠ "" ∧ isFailingResult parts.2 = false := by
  have hraw : (Value.orElse (.str text) (.str "")).text = text := by
    unfold Value.orElse
    split
    · rfl
    · next hempty => simpa using hempty
  unfold rowHasSuccess normalizeValidationCommandRecord
  simp only [hraw]
  rw [validationCommandRow_success]
  unfold splitValidationCommandRecord lastResult
  have hpassed := isSuccessWord_passed
  cases hparts : rpartition '=' (strip text).toList with
  | none => simp [hpassed]
  | some parts =>
      obtain ⟨command, result⟩ := parts
      have hgiven : strip text ≠ "" := by
        intro hempty
        rw [hempty] at hparts
        simp [rpartition, partition] at hparts
      cases hstrip : stripValidationDurationSuffix (String.ofList result) with
      | mk token duration =>
          have htoken : untimedResult (String.ofList result) = token := by
            rw [untimedResult, hstrip]
          simp only [Option.map_some, Option.mem_def, Option.some.injEq, forall_eq', hstrip,
            htoken]
          cases hlooks : looksLikeValidationResult token with
          | false => simp [hgiven, hpassed]
          | true =>
              have hknown := (knownResult_iff token).mpr (Or.inl hlooks)
              have hword : strip token ≠ "" := by
                intro hempty
                rw [hempty] at hknown
                exact (knownWords _ hknown).2.1 rfl
              have hfailing := failingResult_iff hknown
              simp only [if_true, strip_strip, isFailingResult, htoken, List.contains_eq_mem,
                decide_eq_false_iff_not, hfailing]
              simp [hgiven, hword]

theorem strip_of_lastResult {text : String} {parts : String × String}
    (h : lastResult text = some parts) : strip text ≠ "" := by
  intro hempty
  simp [lastResult, hempty, rpartition, partition] at h

/-- A text that both readers take for a success. -/
def TextCounts (text : String) : Prop :=
  strip text ≠ "" ∧ ∀ parts ∈ lastResult text, lower (strip parts.2) ≠ "failure" ∧
    (looksLikeValidationResult (untimedResult parts.2) = true →
      strip parts.1 ≠ "" ∧ isFailingResult parts.2 = false)

/-- A text that passes as it is and not as a row: a verdict on no command, or a failing verdict
that has a duration. -/
def TextCountsRaw (text : String) : Prop :=
  ∃ parts ∈ lastResult text, looksLikeValidationResult (untimedResult parts.2) = true ∧
    ((strip parts.1 = "" ∧ isFailingResult parts.2 = false) ∨
      (isTimedResult parts.2 = true ∧ isFailingResult parts.2 = true))

/-- A text that passes as a row only: its verdict is the one word that rows do not know. -/
def TextCountsAsRow (text : String) : Prop :=
  ∃ parts ∈ lastResult text, lower (strip parts.2) = "failure"

theorem not_failing_of_timed {result : String} (h : isTimedResult result = true) :
    lower (strip result) ∉ failingResults := by
  intro hfailing
  rw [not_timed_of_known (known_of_failing hfailing)] at h
  cases h

theorem isFailingResult_of_not_timed {result : String} (h : isTimedResult result = false) :
    isFailingResult result = true ↔ lower (strip result) ∈ failingResults := by
  simp [isFailingResult, untimedResult_of_not_timed h]

theorem ne_failure_of_not_failing {word : String} (h : word ∉ failingResults) :
    word ≠ "failure" := by
  rintro rfl
  exact h (by decide)

/-- Rows do not know the word, so they take it for a part of the command. -/
theorem looksLike_of_failure {result : String} (h : lower (strip result) = "failure") :
    looksLikeValidationResult (untimedResult result) = false := by
  have hknown : lower (strip result) ∈ knownValidationResultTokens := by
    rw [h]
    decide
  rw [untimedResult_of_not_timed (not_timed_of_known hknown), looksLikeValidationResult, h]
  decide

theorem passingText_iff (text : String) :
    PassingText text ↔ TextCounts text ∨ TextCountsRaw text := by
  unfold PassingText TextCounts TextCountsRaw
  cases hlast : lastResult text with
  | none => simp
  | some parts =>
      obtain ⟨command, result⟩ := parts
      simp only [Option.mem_def, Option.some.injEq, forall_eq', exists_eq_left',
        strip_of_lastResult hlast, ne_eq, not_false_eq_true, true_and]
      cases htimed : isTimedResult result with
      | true =>
          have hplain := not_failing_of_timed htimed
          have hother := ne_failure_of_not_failing hplain
          simp only [hplain, hother, not_false_eq_true, true_and, true_iff]
          by_cases hlooks : looksLikeValidationResult (untimedResult result) = true
          · cases isFailingResult result <;> simp [hlooks, em']
          · exact Or.inl fun h => absurd h hlooks
      | false =>
          have hfailing := isFailingResult_of_not_timed htimed
          have hsame := untimedResult_of_not_timed htimed
          by_cases hfails : isFailingResult result = true
          · -- a failing word is known to the rows, unless it is the one they do not know
            have hknown := (knownResult_iff result).mp (known_of_failing (hfailing.mp hfails))
            simp only [hsame, hfailing.mp hfails, hfails]
            rcases hknown with hlooks | hword
            · simp [hlooks]
            · simp [hword]
          · have hpasses : lower (strip result) ∉ failingResults := mt hfailing.mpr hfails
            simp only [hpasses, ne_failure_of_not_failing hpasses, hfails, not_false_eq_true,
              true_and, true_iff]
            by_cases hlooks : looksLikeValidationResult (untimedResult result) = true
            · simp [hlooks, em']
            · exact Or.inl fun h => absurd h hlooks

theorem rowHasSuccess_str_iff (text : String) :
    rowHasSuccess (.str text) = true ↔ TextCounts text ∨ TextCountsAsRow text := by
  rw [rowHasSuccess_str]
  unfold TextCounts TextCountsAsRow
  cases hlast : lastResult text with
  | none => simp
  | some parts =>
      obtain ⟨command, result⟩ := parts
      simp only [Option.mem_def, Option.some.injEq, forall_eq', exists_eq_left',
        strip_of_lastResult hlast, ne_eq, not_false_eq_true, true_and]
      by_cases hword : lower (strip result) = "failure"
      · simp [hword, looksLike_of_failure hword]
      · simp [hword]

/-- The record has an exit code that says failure. -/
def exitCodeFails (record : Dict) : Bool :=
  decide (record.get "exit_code" ≠ .null) && (record.get "exit_code").toInt?.any (· ≠ 0)

def namesCommand (record : Dict) : Prop := strip (record.textOr "command" "") ≠ ""

/-- The record gives a result, and it starts like a success. -/
def givesSuccess (record : Dict) : Prop :=
  (record.get "result").truthy = true ∧
    isSuccessWord (lower (strip (record.get "result").text)) = true

/-- A record without a failing exit code whose result, if it gives one, is a success. -/
def PassingRecord (record : Dict) : Prop :=
  exitCodeFails record = false ∧ ((record.get "result").truthy = true → givesSuccess record)

theorem validationRecordIsSuccess_iff (record : Dict) :
    validationRecordIsSuccess record = true ↔ PassingRecord record := by
  have hresult : validationResultIsSuccess (record.get "result") = true ↔
      ((record.get "result").truthy = true → givesSuccess record) := by
    have hpassed := isSuccessWord_passed
    unfold validationResultIsSuccess givesSuccess Value.orElse
    cases hgiven : (record.get "result").truthy with
    | true => simp [isSuccessWord]
    | false => simpa [isSuccessWord] using hpassed
  have hcode : exitCodeFails record = true ↔ record.get "exit_code" ≠ .null ∧
      (record.get "exit_code").toInt?.any (· ≠ 0) = true := by
    simp [exitCodeFails]
  unfold validationRecordIsSuccess PassingRecord
  rw [← hresult]
  simp only
  split
  · next hfails => simp [hcode.mpr hfails]
  · next hpasses => simp [Bool.not_eq_true _ ▸ mt hcode.mp hpasses]

/-- Rows are made of the records that name a command and give a result. -/
theorem rowHasSuccess_dict (fields : List (String × Value)) :
    rowHasSuccess (.dict fields) = true ↔
      namesCommand (Dict.ofFields fields) ∧ givesSuccess (Dict.ofFields fields) := by
  have hempty : isSuccessWord (lower (strip "")) = false := isSuccessWord_empty
  unfold rowHasSuccess normalizeValidationCommandRecord namesCommand givesSuccess
  simp only
  rw [validationCommandRow_success, strip_strip]
  refine and_congr_right fun _ => ?_
  cases hgiven : ((Dict.ofFields fields).get "result").truthy with
  | false =>
      rw [Dict.textOr_eq_empty.mpr hgiven]
      simp [hempty]
  | true =>
      rw [Dict.textOr_of_truthy "" hgiven]
      simp only [ne_eq, true_and, and_iff_right_iff_imp]
      intro hsuccess hblank
      rw [hblank] at hsuccess
      have hnone : isSuccessWord (lower "") = false := isSuccessWord_empty
      rw [hnone] at hsuccess
      cases hsuccess

mutual

/-- The texts, records and other values that stand in a list or in a mapping that is no record
of a validation. -/
def evidenceLeaves : Value → List Value
  | .list values => leavesOfValues values
  | .dict fields =>
      if isValidationRecord (Dict.ofFields fields) then [.dict fields] else leavesOfFields fields
  | value => [value]

def leavesOfValues : List Value → List Value
  | [] => []
  | value :: rest => evidenceLeaves value ++ leavesOfValues rest

def leavesOfFields : List (String × Value) → List Value
  | [] => []
  | (_, value) :: rest => evidenceLeaves value ++ leavesOfFields rest

end

/-- A passing text or record, or another value that is not empty. -/
def PassingLeaf : Value → Prop
  | .str text => PassingText text
  | .dict fields => PassingRecord (Dict.ofFields fields)
  | value => value.truthy = true

mutual

theorem hasSuccess_iff_leaf (value : Value) : validationEvidenceHasSuccess value = true ↔
    ∃ leaf ∈ evidenceLeaves value, PassingLeaf leaf := by
  cases value with
  | str text =>
      simp [validationEvidenceHasSuccess, evidenceLeaves, PassingLeaf,
        validationTextHasSuccess_iff]
  | dict fields =>
      unfold validationEvidenceHasSuccess evidenceLeaves
      split
      · simp [PassingLeaf, validationRecordIsSuccess_iff]
      · exact anyFieldHasSuccess_iff_leaf fields
  | list values =>
      unfold validationEvidenceHasSuccess evidenceLeaves
      exact anyValueHasSuccess_iff_leaf values
  | null => simp [validationEvidenceHasSuccess, evidenceLeaves, PassingLeaf]
  | bool b => simp [validationEvidenceHasSuccess, evidenceLeaves, PassingLeaf]
  | int i => simp [validationEvidenceHasSuccess, evidenceLeaves, PassingLeaf]
  | float mantissa exponent =>
      simp [validationEvidenceHasSuccess, evidenceLeaves, PassingLeaf]
  | time instant => simp [validationEvidenceHasSuccess, evidenceLeaves, PassingLeaf]

theorem anyValueHasSuccess_iff_leaf (values : List Value) : anyValueHasSuccess values = true ↔
    ∃ leaf ∈ leavesOfValues values, PassingLeaf leaf := by
  cases values with
  | nil => simp [anyValueHasSuccess, leavesOfValues]
  | cons value rest =>
      simp only [anyValueHasSuccess, leavesOfValues, Bool.or_eq_true, List.mem_append, or_and_right,
        exists_or, hasSuccess_iff_leaf value, anyValueHasSuccess_iff_leaf rest]

theorem anyFieldHasSuccess_iff_leaf (fields : List (String × Value)) :
    anyFieldHasSuccess fields = true ↔ ∃ leaf ∈ leavesOfFields fields, PassingLeaf leaf := by
  cases fields with
  | nil => simp [anyFieldHasSuccess, leavesOfFields]
  | cons field rest =>
      obtain ⟨key, value⟩ := field
      simp only [anyFieldHasSuccess, leavesOfFields, Bool.or_eq_true, List.mem_append, or_and_right,
        exists_or, hasSuccess_iff_leaf value, anyFieldHasSuccess_iff_leaf rest]

end

/-- An entry is a text or a record. -/
def IsEntry : Value → Prop
  | .str _ => True
  | .dict _ => True
  | _ => False

/-- Both readers take the entry for a success. -/
def Counts : Value → Prop
  | .str text => TextCounts text
  | .dict fields =>
      let record := Dict.ofFields fields
      exitCodeFails record = false ∧ namesCommand record ∧ givesSuccess record
  | _ => False

/-- The entry passes as it is and not as a row. A record does so when it names no command or
gives no result, and any other mapping when a value in it passes. -/
def CountsRaw : Value → Prop
  | .str text => TextCountsRaw text
  | .dict fields =>
      let record := Dict.ofFields fields
      if isValidationRecord record then
        exitCodeFails record = false ∧
          ((record.get "result").truthy = false ∨ (givesSuccess record ∧ ¬ namesCommand record))
      else ∃ leaf ∈ leavesOfFields fields, PassingLeaf leaf
  | _ => False

/-- The entry passes as a row only; rows have no exit code. -/
def CountsAsRow : Value → Prop
  | .str text => TextCountsAsRow text
  | .dict fields =>
      let record := Dict.ofFields fields
      exitCodeFails record = true ∧ namesCommand record ∧ givesSuccess record
  | _ => False

theorem isValidationRecord_of_exitCode {record : Dict} (h : exitCodeFails record = true) :
    isValidationRecord record = true := by
  have hcode : record.get "exit_code" ≠ .null := by
    unfold exitCodeFails at h
    exact of_decide_eq_true (Bool.and_eq_true _ _ ▸ h).1
  simp [isValidationRecord, has_of_get hcode]

theorem isValidationRecord_of_result {record : Dict}
    (h : (record.get "result").truthy = true) : isValidationRecord record = true := by
  have hresult : record.get "result" ≠ .null := by
    intro hnull
    rw [hnull] at h
    cases h
  simp [isValidationRecord, has_of_get hresult]

theorem hasSuccess_entry {entry : Value} (h : IsEntry entry) :
    validationEvidenceHasSuccess entry = true ↔ Counts entry ∨ CountsRaw entry := by
  cases entry with
  | str text =>
      rw [validationEvidenceHasSuccess, validationTextHasSuccess_iff, passingText_iff]
      rfl
  | dict fields =>
      rw [hasSuccess_iff_leaf]
      unfold Counts CountsRaw evidenceLeaves
      simp only
      split
      · simp only [List.mem_singleton, exists_eq_left, PassingLeaf, PassingRecord]
        generalize Dict.ofFields fields = record
        rw [← and_or_left]
        refine and_congr_right fun _ => ?_
        cases hgiven : (record.get "result").truthy with
        | true =>
            by_cases hnames : namesCommand record <;> simp [hnames]
        | false => simp [givesSuccess, hgiven]
      · next hother =>
        have hnone : ¬ givesSuccess (Dict.ofFields fields) := fun hgives =>
          hother (isValidationRecord_of_result hgives.1)
        simp [hnone]
  | _ => cases h

theorem rowHasSuccess_entry {entry : Value} (h : IsEntry entry) :
    rowHasSuccess entry = true ↔ Counts entry ∨ CountsAsRow entry := by
  cases entry with
  | str text => exact rowHasSuccess_str_iff text
  | dict fields =>
      rw [rowHasSuccess_dict]
      unfold Counts CountsAsRow
      simp only
      generalize Dict.ofFields fields = record
      cases exitCodeFails record <;> simp
  | _ => cases h

/-- The value is a text that is a failing result. -/
def isFailingText : Value → Bool
  | .str text => isFailingResult text
  | _ => false

/-- The entry says that it failed: at the end of its text, or in the status, the result or the
exit code of its record. -/
def StatesFailure : Value → Prop
  | .str text => ∃ parts ∈ lastResult text, isFailingResult parts.2 = true
  | .dict fields =>
      let record := Dict.ofFields fields
      isFailingText (record.get "status") = true ∨ isFailingText (record.get "result") = true ∨
        exitCodeFails record = true
  | _ => False

/-- A stated failure that one of the readers misses: a failing verdict with a duration or the
word `failure` at the end of a text; the exit code of a record that becomes a successful row;
a failing status, which neither of them reads. -/
def FailureMissed : Value → Prop
  | .str text => ∃ parts ∈ lastResult text, isFailingResult parts.2 = true ∧
      (isTimedResult parts.2 = true ∨ lower (strip parts.2) = "failure")
  | .dict fields =>
      let record := Dict.ofFields fields
      (exitCodeFails record = true ∧ namesCommand record ∧ givesSuccess record) ∨
        (isFailingText (record.get "status") = true ∧
          if isValidationRecord record then PassingRecord record
          else ∃ leaf ∈ leavesOfFields fields, PassingLeaf leaf)
  | _ => False

/-- A failing result is given, and it is no success. -/
theorem notSuccess_of_failingText {record : Dict}
    (h : isFailingText (record.get "result") = true) :
    (record.get "result").truthy = true ∧ ¬ givesSuccess record := by
  cases hresult : record.get "result" with
  | str text =>
      rw [hresult] at h
      have hfails : isFailingResult text = true := h
      constructor
      · have hempty : isFailingResult "" = false := isFailingResult_empty
        rw [Value.truthy_str, bne_iff_ne]
        rintro rfl
        rw [hempty] at hfails
        cases hfails
      · intro hgives
        have hword := hgives.2
        rw [hresult, Value.text_str] at hword
        exact absurd hword (by rw [not_success_of_failing hfails]; simp)
  | _ =>
      rw [hresult] at h
      cases h

theorem textFailure_missed_iff (text : String) :
    ((∃ parts ∈ lastResult text, isFailingResult parts.2 = true) ∧
      (PassingText text ∨ rowHasSuccess (.str text) = true)) ↔
      ∃ parts ∈ lastResult text, isFailingResult parts.2 = true ∧
        (isTimedResult parts.2 = true ∨ lower (strip parts.2) = "failure") := by
  rw [rowHasSuccess_str]
  unfold PassingText
  cases hlast : lastResult text with
  | none => simp
  | some parts =>
      simp only [Option.mem_def, Option.some.injEq, forall_eq', exists_eq_left',
        strip_of_lastResult hlast, ne_eq, not_false_eq_true, true_and]
      refine and_congr_right fun hfails => ?_
      cases htimed : isTimedResult parts.2 with
      | true => simp [not_failing_of_timed htimed]
      | false =>
          have hfailing := (isFailingResult_of_not_timed htimed).mp hfails
          have hknown := (knownResult_iff parts.2).mp (known_of_failing hfailing)
          rw [untimedResult_of_not_timed htimed]
          rcases hknown with hlooks | hword
          · have hother : lower (strip parts.2) ≠ "failure" := by
              intro hword
              have hunlike := looksLike_of_failure hword
              rw [untimedResult_of_not_timed htimed, hlooks] at hunlike
              cases hunlike
            simp [hfailing, hlooks, hfails, hother]
          · have hunlike := looksLike_of_failure hword
            rw [untimedResult_of_not_timed htimed] at hunlike
            simp [hunlike, hword]

theorem failure_missed_iff {entry : Value} (h : IsEntry entry) :
    (StatesFailure entry ∧
      (validationEvidenceHasSuccess entry = true ∨ rowHasSuccess entry = true)) ↔
      FailureMissed entry := by
  cases entry with
  | str text =>
      rw [validationEvidenceHasSuccess, validationTextHasSuccess_iff]
      exact textFailure_missed_iff text
  | dict fields =>
      rw [rowHasSuccess_dict, hasSuccess_iff_leaf]
      unfold StatesFailure FailureMissed evidenceLeaves
      simp only
      split
      · simp only [List.mem_singleton, exists_eq_left, PassingLeaf, PassingRecord]
        generalize Dict.ofFields fields = record
        have hfailing := @notSuccess_of_failingText record
        by_cases hverdict : isFailingText (record.get "result") = true
        · obtain ⟨hgiven, hnone⟩ := hfailing hverdict
          simp [hgiven, hnone]
        · simp only [hverdict, false_or, Bool.false_eq_true]
          by_cases hgives : givesSuccess record
          · cases exitCodeFails record <;> simp [hgives]
          · simp only [hgives, and_false, or_false, false_or]
            cases exitCodeFails record <;> simp
      · next hother =>
        generalize Dict.ofFields fields = record at *
        have hfailing := @notSuccess_of_failingText record
        have hcode : ¬ exitCodeFails record = true := mt isValidationRecord_of_exitCode hother
        have hresult : ¬ (record.get "result").truthy = true := mt isValidationRecord_of_result hother
        have hverdict : ¬ isFailingText (record.get "result") = true := fun hfails =>
          hresult (hfailing hfails).1
        have hnone : ¬ givesSuccess record := fun hgives => hresult hgives.1
        simp [hcode, hverdict, hnone]
  | _ => cases h

/-- The readers give one verdict on the list. -/
def ReadersAgree (entries : List Value) : Prop :=
  validationEvidenceHasSuccess (.list entries) =
    validationEvidenceHasSuccess (normalizedEvidence entries)

/-- An entry that states a failure is no success, as it is or as a row. -/
def FailuresNeverCount (entries : List Value) : Prop :=
  ∀ entry ∈ entries, StatesFailure entry →
    validationEvidenceHasSuccess entry = false ∧
      validationEvidenceHasSuccess (normalizedEvidence [entry]) = false

theorem readersAgree_iff {entries : List Value} (h : ∀ entry ∈ entries, IsEntry entry) :
    ReadersAgree entries ↔ (∃ entry ∈ entries, Counts entry) ∨
      ((∃ entry ∈ entries, CountsRaw entry) ↔ ∃ entry ∈ entries, CountsAsRow entry) := by
  have hraw : validationEvidenceHasSuccess (.list entries) = true ↔
      (∃ entry ∈ entries, Counts entry) ∨ ∃ entry ∈ entries, CountsRaw entry := by
    rw [validationEvidenceHasSuccess, anyValueHasSuccess_iff, ← exists_or]
    refine exists_congr fun entry => ?_
    rw [← and_or_left]
    exact and_congr_right fun hentry => hasSuccess_entry (h entry hentry)
  have hrows : validationEvidenceHasSuccess (normalizedEvidence entries) = true ↔
      (∃ entry ∈ entries, Counts entry) ∨ ∃ entry ∈ entries, CountsAsRow entry := by
    rw [normalizedEvidence_iff, ← exists_or]
    refine exists_congr fun entry => ?_
    rw [← and_or_left]
    exact and_congr_right fun hentry => rowHasSuccess_entry (h entry hentry)
  rw [ReadersAgree, Bool.eq_iff_iff, hraw, hrows]
  by_cases hboth : ∃ entry ∈ entries, Counts entry <;> simp [hboth]

theorem failuresNeverCount_iff {entries : List Value} (h : ∀ entry ∈ entries, IsEntry entry) :
    FailuresNeverCount entries ↔ ∀ entry ∈ entries, ¬ FailureMissed entry := by
  refine forall₂_congr fun entry hentry => ?_
  have hrow : validationEvidenceHasSuccess (normalizedEvidence [entry]) = rowHasSuccess entry := by
    rw [Bool.eq_iff_iff, normalizedEvidence_iff]
    simp
  rw [← failure_missed_iff (h entry hentry), hrow, not_and, not_or, Bool.not_eq_true,
    Bool.not_eq_true]

/-- The readers agree on a list of entries, and no failure stated there counts, exactly when no
entry states one that is missed, and either some entry counts for both readers or the entries
that count for one of them only are found on both sides or on neither. -/
theorem validation_readers_agree_iff {entries : List Value}
    (h : ∀ entry ∈ entries, IsEntry entry) :
    (ReadersAgree entries ∧ FailuresNeverCount entries) ↔
      (∀ entry ∈ entries, ¬ FailureMissed entry) ∧
        ((∃ entry ∈ entries, Counts entry) ∨
          ((∃ entry ∈ entries, CountsRaw entry) ↔ ∃ entry ∈ entries, CountsAsRow entry)) := by
  rw [readersAgree_iff h, failuresNeverCount_iff h, and_comm]

theorem validation_readers_agree_plain :
    (ReadersAgree [.str "pytest=passed@2s"] ∧ FailuresNeverCount [.str "pytest=passed@2s"]) ↔
      (∀ entry ∈ [Value.str "pytest=passed@2s"], ¬ FailureMissed entry) ∧
        ((∃ entry ∈ [Value.str "pytest=passed@2s"], Counts entry) ∨
          ((∃ entry ∈ [Value.str "pytest=passed@2s"], CountsRaw entry) ↔
            ∃ entry ∈ [Value.str "pytest=passed@2s"], CountsAsRow entry)) :=
  validation_readers_agree_iff (by simp [IsEntry])

/-- A failed command with a duration is a success as it is given, and a failure as a row. -/
theorem timed_failure_divides_readers : ¬ ∀ entries : List Value,
    (∀ entry ∈ entries, IsEntry entry) → ReadersAgree entries ∧ FailuresNeverCount entries := by
  intro hclaim
  have hagree := (hclaim [.str "pytest=failed@2s"] (by simp [IsEntry])).1
  revert hagree
  unfold ReadersAgree
  decide +kernel

end GhAddressCr
