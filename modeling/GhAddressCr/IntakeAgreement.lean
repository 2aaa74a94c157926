import GhAddressCr.FinalGateOrder
import GhAddressCr.SourceSync
import GhAddressCr.ThreadMerge

/-!
# Intake with and without severities

Runs of commands take threads and findings in without their severities and priorities, which
decide nothing there. What they take in is what the whole intake takes in, these keys apart.
-/
namespace GhAddressCr

open PyText LocalFindings

/-- The tables hold the same items but for these keys. -/
def RowsSameBut (keys : List String) (rows others : Rows Dict) : Prop :=
  ∀ id : String, Option.Rel (SameBut keys) rows[id]? others[id]?

namespace RowsSameBut

variable {keys : List String} {rows others : Rows Dict}

theorem refl (rows : Rows Dict) : RowsSameBut keys rows rows := by
  intro id
  cases rows[id]? with
  | none => exact .none
  | some item => exact .some (SameBut.refl item)

/-- A missing item counts as an empty one. -/
theorem getD (h : RowsSameBut keys rows others) (id : String) :
    SameBut keys (rows[id]?.getD ∅) (others[id]?.getD ∅) := by
  cases hrows : rows[id]? <;> cases hothers : others[id]? <;> have hid := h id <;>
    rw [hrows, hothers] at hid <;> cases hid
  · exact SameBut.refl ∅
  · next hsame => exact hsame

theorem insert (h : RowsSameBut keys rows others) (id : String) {item other : Dict}
    (hitem : SameBut keys item other) :
    RowsSameBut keys (rows.insert id item) (others.insert id other) := by
  intro id'
  by_cases hid : id = id'
  · subst hid
    rw [Std.ExtTreeMap.getElem?_insert_self, Std.ExtTreeMap.getElem?_insert_self]
    exact .some hitem
  · simp only [Std.ExtTreeMap.getElem?_insert, Std.LawfulEqCmp.compare_eq_iff_eq, if_neg hid]
    exact h id'

theorem map (h : RowsSameBut keys rows others) {change change' : String → Dict → Dict}
    (hchange : ∀ id item other, SameBut keys item other →
      SameBut keys (change id item) (change' id other)) :
    RowsSameBut keys (rows.map change) (others.map change') := by
  intro id
  rw [Std.ExtTreeMap.getElem?_map, Std.ExtTreeMap.getElem?_map]
  cases hrows : rows[id]? <;> cases hothers : others[id]? <;> have hid := h id <;>
    rw [hrows, hothers] at hid <;> cases hid
  · exact .none
  · next hsame => exact .some (hchange id _ _ hsame)

end RowsSameBut

/-- The severity and the priority of an item, with their evidence. -/
def markerKeys : List String := severityKeys ++ ["review_priority_evidence"]

section Threads

variable (search : MarkerSearch) (currentLogin : Option String)

theorem mergeThread_sameBut (thread : Dict) (threadId : String) {existing : Option Dict}
    {item : Dict} (h : SameBut markerKeys (existing.getD ∅) item) :
    SameBut markerKeys (mergeSingleRemoteThread thread threadId existing currentLogin)
      (mergeThread search currentLogin thread threadId item) := by
  have hseverity : Settles markerKeys [] (extractThreadSeverityAndPriority search thread) :=
    (mergePriority_settles search thread).comp (mergeSeverity_settles search thread) (by decide)
      (by decide)
  have hidentity := (identifyThread_settles thread threadId).sameBut (by decide) h
  have hshown := hidentity.trans (hseverity.frame _)
  have hstate := (determineMergedThreadState_settles thread).sameBut (by decide) hshown
  exact (applyViewerReplyEvidence_settles currentLogin thread).sameBut (by decide) hstate

/-- A refresh leaves the items of the whole merge, their severities and priorities apart. -/
theorem sessionWithRemoteThreads_sameBut (threads : List Dict) (session : Session) :
    RowsSameBut markerKeys (sessionWithRemoteThreads session threads currentLogin).items
      (mergeThreads search currentLogin threads session).items := by
  have hfold : ∀ {items others : Rows Dict}, RowsSameBut markerKeys items others →
      RowsSameBut markerKeys (threads.foldl (mergeRemoteThread currentLogin) items)
        (threads.foldl (mergeThreadRow search currentLogin) others) := by
    induction threads with
    | nil => exact fun h => h
    | cons thread threads ih =>
        intro items others h
        refine ih ?_
        unfold mergeRemoteThread mergeThreadRow
        cases given? (threadIdentifier thread) with
        | none => exact h
        | some threadId =>
            exact h.insert _ (mergeThread_sameBut search currentLogin thread threadId (h.getD _))
  exact hfold (RowsSameBut.refl session.items)

end Threads

section Findings

variable {loads : List Char → Option Value} {lowercase : List Char → List Char}
  {digest : String → String}

/-- The fields of a finding before it has an item. -/
def findingKeys : List String := ["title", "path", "line", "body"] ++ copiedFields

/-- A finding in its normal form. -/
structure NormalFinding (finding : Dict) : Prop where
  title : ∃ text, finding[("title" : String)]? = some (.str text)
  path : ∃ text, finding[("path" : String)]? = some (.str text)
  body : ∃ text, finding[("body" : String)]? = some (.str text)
  line : ∃ number, finding[("line" : String)]? = some (.int number)
  plain : ∀ key : String, key ∉ findingKeys → finding[key]? = none

theorem copyFields_of_notMem (record : Dict) {fields : List String} {key : String}
    (h : key ∉ fields) (finding : Dict) :
    (fields.foldl (copyField record) finding)[key]? = finding[key]? := by
  induction fields generalizing finding with
  | nil => rfl
  | cons field fields ih =>
      rw [List.mem_cons, not_or] at h
      rw [List.foldl_cons, ih h.2]
      unfold copyField
      split
      · rw [Dict.getElem?_set, if_neg (Ne.symm h.1)]
      · rfl

theorem normalFinding_copied (record : Dict) (title path body : String) (line : Int) :
    NormalFinding (copiedFields.foldl (copyField record)
      (Dict.ofFields [("title", .str title), ("path", .str path), ("line", .int line),
        ("body", .str body)])) := by
  have hkept : ∀ key : String, key ∉ copiedFields → (copiedFields.foldl (copyField record)
      (Dict.ofFields [("title", .str title), ("path", .str path), ("line", .int line),
        ("body", .str body)]))[key]? = (((((∅ : Dict).set "title" (.str title)).set "path"
          (.str path)).set "line" (.int line)).set "body" (.str body))[key]? :=
    fun key hkey => copyFields_of_notMem record hkey _
  constructor
  · exact ⟨title, by rw [hkept _ (by decide)]; simp [Dict.getElem?_set]⟩
  · exact ⟨path, by rw [hkept _ (by decide)]; simp [Dict.getElem?_set]⟩
  · exact ⟨body, by rw [hkept _ (by decide)]; simp [Dict.getElem?_set]⟩
  · exact ⟨line, by rw [hkept _ (by decide)]; simp [Dict.getElem?_set]⟩
  · intro key hkey
    rw [findingKeys, List.mem_append, not_or] at hkey
    rw [hkept key hkey.2]
    simp only [List.mem_cons, List.not_mem_nil, or_false, not_or] at hkey
    obtain ⟨⟨htitle, hpath, hline, hbody⟩, -⟩ := hkey
    simp [Dict.getElem?_set, Ne.symm htitle, Ne.symm hpath, Ne.symm hline, Ne.symm hbody]

theorem normalizeFinding_normal {value : Value} {finding : Dict}
    (h : normalizeFinding value = .ok finding) : NormalFinding finding := by
  unfold normalizeFinding at h
  split at h
  · cases h
  · simp only at h
    split_ifs at h
    split at h
    · cases h
    · rw [← Except.ok.inj h]
      exact normalFinding_copied _ _ _ _ _

/-- The finding that intake is told of. -/
def localFinding (finding : Dict) : LocalFinding where
  itemId := itemIdOf finding
  title := (finding.get "title").text
  path := (finding.get "path").text
  line := ((finding.get "line").toInt?).getD 0
  body := (finding.get "body").text
  optional := (finding[("start_line" : String)]?, finding[("end_line" : String)]?,
    finding[("category" : String)]?, finding[("confidence" : String)]?,
    finding[("head_sha" : String)]?)

theorem getElem?_withLocalItemFields (source : String) (base : Dict) (key : String) :
    (withLocalItemFields lowercase digest source base)[key]? =
      if "source" = key then some (.str source)
      else if "item_kind" = key then some (.str "local_finding")
      else if "item_id" = key then
        some (.str (localFindingItemId lowercase digest source base))
      else base[key]? := by
  simp only [withLocalItemFields, Dict.getElem?_set]

/-- Its fields are those of the finding, the severity apart. -/
theorem fields_localFinding {base : Dict} (h : NormalFinding base) (source : String) :
    (localFinding (withLocalItemFields lowercase digest source base)).fields source =
      (withLocalItemFields lowercase digest source base).pop "severity" := by
  obtain ⟨title, htitle⟩ := h.title
  obtain ⟨path, hpath⟩ := h.path
  obtain ⟨body, hbody⟩ := h.body
  obtain ⟨line, hline⟩ := h.line
  have hfields : (localFinding (withLocalItemFields lowercase digest source base)).fields source =
      ((((((((((((∅ : Dict).set "title" (.str title)).set "path" (.str path)).set "line"
        (.int line)).set "body" (.str body)).set "item_id" (.str (localFindingItemId lowercase
        digest source base))).set "item_kind" (.str "local_finding")).set "source"
        (.str source)).setIfSome "start_line" base[("start_line" : String)]?).setIfSome "end_line"
        base[("end_line" : String)]?).setIfSome "category" base[("category" : String)]?).setIfSome
        "confidence" base[("confidence" : String)]?).setIfSome "head_sha"
        base[("head_sha" : String)]? := by
    simp [LocalFinding.fields, localFinding, itemIdOf, Dict.get, getElem?_withLocalItemFields,
      htitle, hpath, hbody, hline, Value.text, Value.toInt?]
    rfl
  rw [hfields]
  refine Dict.ext fun key => ?_
  have hempty : (∅ : Dict)[key]? = none := by simp
  simp only [Dict.getElem?_setIfSome, Dict.getElem?_set, Dict.getElem?_pop,
    getElem?_withLocalItemFields, hempty]
  by_cases hkey : key ∈ findingKeys
  · simp only [findingKeys, copiedFields, List.cons_append, List.nil_append, List.mem_cons,
      List.not_mem_nil, or_false] at hkey
    rcases hkey with rfl | rfl | rfl | rfl | rfl | rfl | rfl | rfl | rfl | rfl <;>
      simp [htitle, hpath, hbody, hline]
  · rw [h.plain key hkey]
    simp only [findingKeys, copiedFields, List.cons_append, List.nil_append, List.mem_cons,
      List.not_mem_nil, or_false, not_or] at hkey
    obtain ⟨htitle, hpath, hline, hbody, hstart, hend, hseverity, hcategory, hconfidence, hsha⟩ :=
      hkey
    simp [Ne.symm htitle, Ne.symm hpath, Ne.symm hline, Ne.symm hbody, Ne.symm hstart,
      Ne.symm hend, Ne.symm hseverity, Ne.symm hcategory, Ne.symm hconfidence, Ne.symm hsha]

/-- The names that a normal finding is given can be taken off it again. -/
theorem pop_withLocalItemFields {base : Dict} (h : NormalFinding base) (source : String) :
    (((withLocalItemFields lowercase digest source base).pop "item_id").pop "item_kind").pop
      "source" = base := by
  refine Dict.ext fun key => ?_
  simp only [Dict.getElem?_pop, getElem?_withLocalItemFields]
  have hid := h.plain "item_id" (by decide)
  have hkind := h.plain "item_kind" (by decide)
  have hsource := h.plain "source" (by decide)
  split_ifs with hs hk hi
  · rw [← hs, hsource]
  · rw [← hk, hkind]
  · rw [← hi, hid]
  · rfl

/-- The records of a payload that `_ingest_native_findings` reads are normal findings. -/
theorem normalizedRecords_normal {raw formatSource : String} {records : List Dict}
    (hformat : formatSource = "adapter" ∨ formatSource = "json")
    (h : normalizedRecords loads formatSource raw = .ok records) :
    ∀ record ∈ records, NormalFinding record := by
  have hblocks : formatSource ∉ ["review-to-findings", "finding-blocks"] := by
    rcases hformat with rfl | rfl <;> decide
  have hjson : formatSource ∈ ["json", "code-review", "adapter"] := by
    rcases hformat with rfl | rfl <;> decide
  unfold normalizedRecords at h
  rw [if_neg hblocks, if_pos hjson] at h
  cases hparsed : parseRecords loads raw.toList with
  | error message =>
      rw [hparsed] at h
      cases h
  | ok values =>
      rw [hparsed] at h
      have hread := mapM_eq_ok_iff.mp h
      clear h hparsed
      induction hread with
      | nil => simp
      | cons hfirst _ ih =>
          rw [List.forall_mem_cons]
          exact ⟨normalizeFinding_normal hfirst, ih⟩

/-- A finding of the payload is a normal finding under the name of its producer. -/
theorem nativeFindings_normal {source raw : String} {findings : List Dict}
    (h : nativeFindings loads lowercase digest source raw = .ok findings) :
    ∀ finding ∈ findings, ∃ base, NormalFinding base ∧
      finding = withLocalItemFields lowercase digest source base := by
  unfold nativeFindings at h
  split at h
  · cases h
  have hformat : (if source = "adapter" then "adapter" else "json") = "adapter" ∨
      (if source = "adapter" then "adapter" else "json") = "json" := by
    split_ifs <;> simp
  simp only at h
  generalize (if source = "adapter" then "adapter" else "json") = formatSource at h hformat
  unfold normalizeFindingsPayload at h
  cases hrecords : normalizedRecords loads formatSource raw with
  | error message =>
      rw [hrecords] at h
      cases h
  | ok records =>
      rw [hrecords] at h
      obtain rfl := Except.ok.inj h
      intro finding hfinding
      obtain ⟨named, hnamed, rfl⟩ := List.mem_map.mp hfinding
      obtain ⟨record, hrecord, rfl⟩ := List.mem_map.mp hnamed
      have hnormal := normalizedRecords_normal hformat hrecords record hrecord
      refine ⟨record, hnormal, ?_⟩
      unfold resourced
      split_ifs with hother
      · rw [pop_withLocalItemFields hnormal]
      · rw [not_not.mp hother]

/-- An item that comes in shows the severity of its finding and is the same otherwise. -/
theorem ingestedItem_sameBut {finding : Dict} {found : LocalFinding} {source : String} {now : Int}
    (hfields : found.fields source = finding.pop "severity") {existing other : Option Dict}
    (h : SameBut markerKeys (existing.getD ∅) (other.getD ∅)) :
    SameBut markerKeys (ingestedItem found source now existing)
      (observedItem source now finding other) := by
  have happlied : ∀ item evidence, SameBut markerKeys item (applySeverityEvidence item evidence) := by
    intro item evidence
    cases evidence with
    | none => exact (SameBut.pop (by decide)).trans (SameBut.pop (by decide))
    | some evidence => exact (SameBut.set (by decide) _).trans (SameBut.set (by decide) _)
  have hseverity : ∀ item, SameBut markerKeys item (withSeverity source finding item) := by
    intro item
    unfold withSeverity
    simp only
    split_ifs
    · exact happlied item _
    · exact SameBut.refl item
    · exact happlied item _
    · exact SameBut.refl item
  have hitem : ingestedItem found source now existing =
      opened now ((existing.getD ∅).update (finding.pop "severity")) := by
    unfold ingestedItem
    rw [hfields]
    rfl
  rw [hitem]
  exact ((h.map (Fieldwise.id.update _)).trans (hseverity _)).map (fieldwise_opened now)

/-- What the findings of a payload make of the items is what intake makes of them, their severities
apart. -/
theorem ingestNativeFindings_sameBut {source raw : String} {sync : Bool} {now : Int}
    {session after : Session} {findings : List Dict}
    (h : LocalFindings.ingestNativeFindings loads lowercase digest source raw sync now session =
      (after, .ok findings)) :
    RowsSameBut markerKeys
      (GhAddressCr.ingestNativeFindings session (findings.map localFinding) source sync now).items
      after.items := by
  obtain ⟨hfindings, rfl⟩ := ingestNativeFindings_ok lowercase digest h
  have hfound : ∀ finding ∈ findings, (localFinding finding).fields source =
      finding.pop "severity" := by
    intro finding hfinding
    obtain ⟨base, hbase, rfl⟩ := nativeFindings_normal hfindings finding hfinding
    exact fields_localFinding hbase source
  have hobserved : ∀ {items others : Rows Dict}, RowsSameBut markerKeys items others →
      RowsSameBut markerKeys
        ((findings.map localFinding).foldl (fun items finding => items.insert finding.itemId
          (ingestedItem finding source now items[finding.itemId]?)) items)
        (observeFindings source now findings others) := by
    clear h hfindings
    induction findings with
    | nil => exact fun h => h
    | cons finding findings ih =>
        intro items others h
        refine ih (fun other hother => hfound other (by simp [hother])) ?_
        exact h.insert _ (ingestedItem_sameBut (hfound finding (by simp)) (h.getD _))
  have hitems := hobserved (RowsSameBut.refl session.items)
  cases sync with
  | false => exact hitems
  | true =>
      have hids : (findings.map localFinding).map (·.itemId) = findings.map itemIdOf := by
        rw [List.map_map]
        rfl
      show RowsSameBut markerKeys (Std.ExtTreeMap.map _ _) (Std.ExtTreeMap.map _ _)
      rw [hids]
      refine hitems.map fun id item other hsame => ?_
      have hkind : other.get "item_kind" = item.get "item_kind" := hsame.get (by decide)
      have hsource : other.get "source" = item.get "source" := hsame.get (by decide)
      have hmissing : isMissing source (findings.map itemIdOf) id item = true ↔
          isLocalOf source other ∧ id ∉ findings.map itemIdOf := by
        simp [isMissing, isLocalOf, hkind, hsource, -List.mem_map]
      by_cases hclosed : isMissing source (findings.map itemIdOf) id item = true
      · rw [if_pos hclosed, if_pos (hmissing.mp hclosed)]
        exact hsame.map (fieldwise_handledItem now)
      · rw [if_neg hclosed, if_neg (mt hmissing.mpr hclosed)]
        exact hsame

end Findings

end GhAddressCr
