import GhAddressCr.LocalFindings

/-!
# Identity of findings

The id of an item is a hash of the finding's fields joined by bars. The fields are free texts, so
two findings get one id exactly when their fields, cut at every bar, are the same pieces one after
the other.
-/
namespace GhAddressCr.LocalFindings

open PyText JsonText

theorem split_append_split (sep : Char) (text rest : List Char) :
    split sep (text ++ sep :: rest) = split sep text ++ split sep rest := by
  induction text with
  | nil =>
      simp only [List.nil_append, split]
      split
      · next hnil => exact absurd hnil (split_ne_nil sep rest)
      · next hsplit => simp [hsplit]
  | cons c text ih =>
      rw [List.cons_append, split, ih, split]
      cases hpieces : split sep text with
      | nil => exact absurd hpieces (split_ne_nil sep text)
      | cons piece pieces =>
          by_cases hc : c = sep
          · simp [hc]
          · simp [hc]

/-- The pieces of joined texts are the pieces of each of them. -/
theorem split_join_flatMap (sep : Char) {texts : List (List Char)} (h : texts ≠ []) :
    split sep (join sep texts) = texts.flatMap (split sep) := by
  induction texts with
  | nil => exact absurd rfl h
  | cons text texts ih =>
      by_cases hnil : texts = []
      · subst hnil
        simp [join]
      · rw [join_cons sep text hnil, split_append_split, ih hnil, List.flatMap_cons]

theorem join_eq_iff (sep : Char) {texts others : List (List Char)} (htexts : texts ≠ [])
    (hothers : others ≠ []) :
    join sep texts = join sep others ↔ texts.flatMap (split sep) = others.flatMap (split sep) := by
  rw [← split_join_flatMap sep htexts, ← split_join_flatMap sep hothers]
  constructor
  · exact congrArg (split sep)
  · intro h
    have hjoined := congrArg (join sep) h
    rwa [join_split, join_split] at hjoined

/-- The document that is hashed says the source and the fingerprint. -/
theorem identityDocument_inj {source other fingerprint print : String} :
    identityDocument source fingerprint = identityDocument other print ↔
      source = other ∧ fingerprint = print := by
  constructor
  · intro h
    simp only [identityDocument, List.cons_append, List.append_assoc] at h
    have hprint := List.append_cancel_left (List.cons.inj h).2
    obtain ⟨rfl, hrest⟩ := escapeText_append_inj (List.cons.inj hprint).2
    have hsource := List.append_cancel_left (List.cons.inj hrest).2
    exact ⟨(escapeText_append_inj (List.cons.inj hsource).2).1, rfl⟩
  · rintro ⟨rfl, rfl⟩
    rfl

section Ids

variable (lowercase : List Char → List Char) {digest : String → String}

/-- The pieces of the fields of a finding, cut at every bar. -/
def pieces (finding : Dict) : List (List Char) :=
  (identity lowercase finding).flatMap (split '|')

theorem identity_ne_nil (finding : Dict) : identity lowercase finding ≠ [] := by
  simp [identity]

variable (hdigest : Function.Injective digest)
include hdigest

theorem fingerprintFinding_eq_iff (finding other : Dict) :
    fingerprintFinding lowercase digest finding = fingerprintFinding lowercase digest other ↔
      pieces lowercase finding = pieces lowercase other := by
  unfold fingerprintFinding pieces
  rw [hdigest.eq_iff, ← String.toList_inj, String.toList_ofList, String.toList_ofList,
    join_eq_iff '|' (identity_ne_nil lowercase finding) (identity_ne_nil lowercase other)]

/-- Two ids are the same for the same source and the same pieces. -/
theorem localFindingItemId_eq_iff (source origin : String) (finding other : Dict) :
    localFindingItemId lowercase digest source finding =
        localFindingItemId lowercase digest origin other ↔
      source = origin ∧ pieces lowercase finding = pieces lowercase other := by
  have hlabel : ∀ hash label : String,
      "local-finding:" ++ hash = "local-finding:" ++ label ↔ hash = label := by
    intro hash label
    rw [← String.toList_inj, ← String.toList_inj, String.toList_append, String.toList_append]
    exact List.append_right_inj _
  unfold localFindingItemId
  rw [hlabel, hdigest.eq_iff, ← String.toList_inj, String.toList_ofList, String.toList_ofList,
    identityDocument_inj, fingerprintFinding_eq_iff lowercase hdigest]

end Ids

section Payload

variable {loads : List Char → Option Value} (lowercase : List Char → List Char)
  (digest : String → String)

/-- The keys that a finding's identity is made of. -/
def identityKeys : List String :=
  ["path", "start_line", "line", "end_line", "category", "title", "body"]

theorem identity_congr {finding other : Dict}
    (h : ∀ key ∈ identityKeys, finding[key]? = other[key]?) :
    identity lowercase finding = identity lowercase other := by
  have hget : ∀ key ∈ identityKeys, finding.get key = other.get key := fun key hkey => by
    rw [Dict.get, Dict.get, h key hkey]
  have htext : ∀ key ∈ identityKeys, fieldText finding key = fieldText other key :=
    fun key hkey => by
      rw [fieldText, fieldText, hget key hkey, Dict.has, Dict.has, h key hkey]
  simp only [identity, htext "path" (by decide), hget "start_line" (by decide),
    hget "line" (by decide), hget "end_line" (by decide), htext "category" (by decide),
    htext "title" (by decide), htext "body" (by decide)]

theorem ne_localKey {key : String} (h : key ∈ identityKeys) :
    "item_id" ≠ key ∧ "item_kind" ≠ key ∧ "source" ≠ key := by
  revert key
  decide

theorem identity_withLocalItemFields (source : String) (finding : Dict) :
    identity lowercase (withLocalItemFields lowercase digest source finding) =
      identity lowercase finding := by
  refine identity_congr lowercase fun key hkey => ?_
  obtain ⟨hid, hkind, hsource⟩ := ne_localKey hkey
  simp only [withLocalItemFields, Dict.getElem?_set, if_neg hid, if_neg hkind, if_neg hsource]

theorem localFindingItemId_congr {finding other : Dict} (source : String)
    (h : identity lowercase finding = identity lowercase other) :
    localFindingItemId lowercase digest source finding =
      localFindingItemId lowercase digest source other := by
  unfold localFindingItemId fingerprintFinding
  rw [h]

/-- The finding has the item fields that its source and its fields give it. -/
structure Identified (source : String) (finding : Dict) : Prop where
  itemId : itemIdOf finding = localFindingItemId lowercase digest source finding
  isLocal : isLocalOf source finding

theorem identified_withLocalItemFields (source : String) (finding : Dict) :
    Identified lowercase digest source (withLocalItemFields lowercase digest source finding) where
  itemId := by
    rw [localFindingItemId_congr lowercase digest source
      (identity_withLocalItemFields lowercase digest source finding)]
    simp [itemIdOf, withLocalItemFields]
  isLocal := by simp [isLocalOf, withLocalItemFields]

theorem nativeFindings_identified {source raw : String} {findings : List Dict}
    (h : nativeFindings loads lowercase digest source raw = .ok findings) :
    ∀ finding ∈ findings, Identified lowercase digest source finding := by
  unfold nativeFindings at h
  split at h
  · cases h
  simp only at h
  generalize (if source = "adapter" then "adapter" else "json") = formatSource at h
  cases hpayload : normalizeFindingsPayload loads lowercase digest formatSource raw with
  | error message =>
      rw [hpayload] at h
      cases h
  | ok normalized =>
      rw [hpayload] at h
      obtain rfl := Except.ok.inj h
      intro finding hfinding
      obtain ⟨base, hbase, rfl⟩ := List.mem_map.mp hfinding
      unfold resourced
      by_cases hsame : source = formatSource
      · subst hsame
        rw [if_neg (by simp)]
        unfold normalizeFindingsPayload at hpayload
        cases hrecords : normalizedRecords loads source raw with
        | error message =>
            rw [hrecords] at hpayload
            cases hpayload
        | ok records =>
            rw [hrecords] at hpayload
            obtain rfl := Except.ok.inj hpayload
            obtain ⟨record, -, rfl⟩ := List.mem_map.mp hbase
            exact identified_withLocalItemFields lowercase digest source record
      · rw [if_pos hsame]
        exact identified_withLocalItemFields lowercase digest source _

theorem ingestNativeFindings_ok {source raw : String} {sync : Bool} {now : Int}
    {session after : Session} {findings : List Dict}
    (h : ingestNativeFindings loads lowercase digest source raw sync now session =
      (after, .ok findings)) :
    nativeFindings loads lowercase digest source raw = .ok findings ∧
      after = { session with items := ingestedItems source now sync findings session.items } := by
  unfold ingestNativeFindings at h
  split at h
  · cases (Prod.mk.inj h).2
  · next incoming hincoming =>
    obtain ⟨rfl, hsame⟩ := Prod.mk.inj h
    obtain rfl := Except.ok.inj hsame
    exact ⟨hincoming, rfl⟩

end Payload

/-- The fields of the finding that make it what it is are on the item. -/
def Holds (item finding : Dict) : Prop :=
  ∀ key ∈ identityKeys, finding.has key = true → item.get key = finding.get key

/-- The keys that opening an item writes. -/
def openedKeys : List String :=
  ["created_at", "updated_at", "status", "state", "blocking", "handled", "needs_human", "history",
    "reply_posted", "reply_url", "validation_commands"]

theorem get_opened {key : String} (now : Int) (item : Dict) (h : key ∉ openedKeys) :
    (opened now item).get key = item.get key := by
  have hkeys : ∀ other ∈ openedKeys, other ≠ key := by
    rintro other hother rfl
    exact h hother
  simp only [opened]
  rw [Dict.get_setDefault_of_ne _ _ (hkeys _ (by decide)),
    Dict.get_setDefault_of_ne _ _ (hkeys _ (by decide)),
    Dict.get_setDefault_of_ne _ _ (hkeys _ (by decide)),
    Dict.get_setDefault_of_ne _ _ (hkeys _ (by decide)),
    Dict.get_set, if_neg (hkeys _ (by decide)), Dict.get_set, if_neg (hkeys _ (by decide)),
    Dict.get_set, if_neg (hkeys _ (by decide)), Dict.get_set, if_neg (hkeys _ (by decide)),
    Dict.get_set, if_neg (hkeys _ (by decide)), Dict.get_set, if_neg (hkeys _ (by decide)),
    Dict.get_setDefault_of_ne _ _ (hkeys _ (by decide))]

theorem get_withSeverity {key : String} (source : String) (finding item : Dict)
    (h : "severity" ≠ key) (hevidence : "severity_evidence" ≠ key) :
    (withSeverity source finding item).get key = item.get key := by
  unfold withSeverity
  simp only
  split_ifs
  · exact get_applySeverityEvidence item _ h hevidence
  · rfl
  · exact get_applySeverityEvidence item _ h hevidence
  · rfl

/-- What a finding says about itself is on its item. -/
theorem get_observedItem {key : String} (source : String) (now : Int) {finding : Dict}
    (existing : Option Dict) (hkey : key ∉ openedKeys) (hseverity : "severity" ≠ key)
    (hevidence : "severity_evidence" ≠ key) (hgiven : finding.has key = true) :
    (observedItem source now finding existing).get key = finding.get key := by
  have hhas : (finding.pop "severity").has key = true := by
    rw [Dict.has_pop, decide_eq_false hseverity, hgiven]
    rfl
  rw [observedItem, get_opened now _ hkey, get_withSeverity source finding _ hseverity hevidence,
    Dict.get_update, if_pos hhas, Dict.get_pop, if_neg hseverity]

theorem holds_observedItem (source : String) (now : Int) (finding : Dict)
    (existing : Option Dict) : Holds (observedItem source now finding existing) finding := by
  intro key hkey hgiven
  have hother : key ∉ openedKeys ∧ "severity" ≠ key ∧ "severity_evidence" ≠ key := by
    clear hgiven
    revert key
    decide
  exact get_observedItem source now existing hother.1 hother.2.1 hother.2.2 hgiven

theorem observeFindings_cons (source : String) (now : Int) (finding : Dict) (findings : List Dict)
    (items : Rows Dict) : observeFindings source now (finding :: findings) items =
      observeFindings source now findings
        (items.insert (itemIdOf finding)
          (observedItem source now finding items[itemIdOf finding]?)) := rfl

theorem getElem?_observeFindings_of_foreign (source : String) (now : Int) {findings : List Dict}
    (items : Rows Dict) {itemId : String} (h : ∀ finding ∈ findings, itemIdOf finding ≠ itemId) :
    (observeFindings source now findings items)[itemId]? = items[itemId]? := by
  induction findings generalizing items with
  | nil => rfl
  | cons finding findings ih =>
      rw [observeFindings_cons, ih _ fun other hother => h other (by simp [hother]),
        KeyedRows.getElem?_insert_of_ne _ _ (h finding (by simp))]

/-- Under the id of a finding is the item of the last finding with that id. -/
theorem exists_observed (source : String) (now : Int) {findings : List Dict} (items : Rows Dict)
    {finding : Dict} (h : finding ∈ findings) :
    ∃ last ∈ findings, itemIdOf last = itemIdOf finding ∧ ∃ existing,
      (observeFindings source now findings items)[itemIdOf finding]? =
        some (observedItem source now last existing) := by
  induction findings generalizing items finding with
  | nil => simp at h
  | cons first findings ih =>
      rw [observeFindings_cons]
      by_cases hlater : ∃ other ∈ findings, itemIdOf other = itemIdOf finding
      · obtain ⟨other, hother, hsame⟩ := hlater
        obtain ⟨last, hlast, hid, existing, hfound⟩ := ih
          (items.insert (itemIdOf first) (observedItem source now first items[itemIdOf first]?))
          hother
        exact ⟨last, List.mem_cons_of_mem _ hlast, hid.trans hsame, existing, hsame ▸ hfound⟩
      · push Not at hlater
        have hfirst : finding = first := by
          rcases List.mem_cons.mp h with rfl | h
          · rfl
          · exact absurd rfl (hlater finding h)
        subst hfirst
        refine ⟨finding, by simp, rfl, items[itemIdOf finding]?, ?_⟩
        rw [getElem?_observeFindings_of_foreign source now _ hlater]
        exact Std.ExtTreeMap.getElem?_insert_self

theorem getElem?_ingestedItems_of_incoming (source : String) (now : Int) (sync : Bool)
    {findings : List Dict} (items : Rows Dict) {itemId : String}
    (h : itemId ∈ findings.map itemIdOf) :
    (ingestedItems source now sync findings items)[itemId]? =
      (observeFindings source now findings items)[itemId]? := by
  unfold ingestedItems
  simp only
  split
  · rw [closeMissing, Std.ExtTreeMap.getElem?_map]
    cases (observeFindings source now findings items)[itemId]? with
    | none => rfl
    | some item => simp [h]
  · rfl

section Main

variable {lowercase : List Char → List Char} {digest : String → String}

/-- The two findings have the same fields if these, cut at every bar, are the same pieces. -/
def Separable (lowercase : List Char → List Char) (finding other : Dict) : Prop :=
  pieces lowercase finding = pieces lowercase other →
    identity lowercase finding = identity lowercase other

/-- Findings that share an item are the same, and each has an item with its fields. -/
def KeepsApart (lowercase : List Char → List Char) (findings : List Dict) (items : Rows Dict) :
    Prop :=
  (∀ finding ∈ findings, ∀ other ∈ findings, itemIdOf finding = itemIdOf other →
    identity lowercase finding = identity lowercase other) ∧
  ∀ finding ∈ findings, ∃ same ∈ findings,
    identity lowercase same = identity lowercase finding ∧
      ∃ item, items[itemIdOf finding]? = some item ∧ Holds item same

variable (hdigest : Function.Injective digest)
include hdigest

theorem itemIdOf_eq_iff {source : String} {finding other : Dict}
    (h : Identified lowercase digest source finding)
    (h' : Identified lowercase digest source other) :
    itemIdOf finding = itemIdOf other ↔ pieces lowercase finding = pieces lowercase other := by
  rw [h.itemId, h'.itemId, localFindingItemId_eq_iff lowercase hdigest]
  simp

/-- An id says what a finding is exactly when its fields can be told from the other's by their
pieces; so do the items of a payload. -/
theorem finding_identity_iff :
    (∀ (source origin : String) (finding other : Dict),
      (localFindingItemId lowercase digest source finding =
          localFindingItemId lowercase digest origin other →
        source = origin ∧ identity lowercase finding = identity lowercase other) ↔
      (source = origin → Separable lowercase finding other)) ∧
    ∀ (loads : List Char → Option Value) (source raw : String) (sync : Bool) (now : Int)
      (session after : Session) (findings : List Dict),
      ingestNativeFindings loads lowercase digest source raw sync now session =
        (after, .ok findings) →
      (KeepsApart lowercase findings after.items ↔
        ∀ finding ∈ findings, ∀ other ∈ findings, Separable lowercase finding other) := by
  constructor
  · intro source origin finding other
    rw [localFindingItemId_eq_iff lowercase hdigest]
    unfold Separable
    tauto
  · intro loads source raw sync now session after findings h
    obtain ⟨hfindings, rfl⟩ := ingestNativeFindings_ok lowercase digest h
    have hids := nativeFindings_identified lowercase digest hfindings
    have hpairs : (∀ finding ∈ findings, ∀ other ∈ findings, itemIdOf finding = itemIdOf other →
        identity lowercase finding = identity lowercase other) ↔
          ∀ finding ∈ findings, ∀ other ∈ findings, Separable lowercase finding other := by
      constructor
      · intro hapart finding hfinding other hother hpieces
        exact hapart finding hfinding other hother
          ((itemIdOf_eq_iff hdigest (hids finding hfinding) (hids other hother)).mpr hpieces)
      · intro hseparable finding hfinding other hother hsame
        exact hseparable finding hfinding other hother
          ((itemIdOf_eq_iff hdigest (hids finding hfinding) (hids other hother)).mp hsame)
    refine ⟨fun hkeeps => hpairs.mp hkeeps.1, fun hseparable => ⟨hpairs.mpr hseparable, ?_⟩⟩
    intro finding hfinding
    obtain ⟨last, hlast, hid, existing, hfound⟩ :=
      exists_observed source now session.items hfinding
    refine ⟨last, hlast, hpairs.mpr hseparable last hlast finding hfinding hid, _, ?_,
      holds_observedItem source now last existing⟩
    rw [← hfound]
    exact getElem?_ingestedItems_of_incoming source now sync session.items
      (List.mem_map_of_mem hfinding)

end Main

instance (lowercase : List Char → List Char) (finding other : Dict) :
    Decidable (Separable lowercase finding other) :=
  inferInstanceAs (Decidable (_ → _))

/-- A finding in its normal form. -/
def plainFinding (title body : String) : Dict :=
  Dict.ofFields [("title", .str title), ("path", .str "a"), ("line", .int 1), ("body", .str body)]

/-- A payload of two findings, as its producer writes it. -/
def plainPayload : String :=
  "[\x7b\"title\":\"t\",\"path\":\"a\",\"line\":1,\"body\":\"b\"\x7d," ++
    "\x7b\"title\":\"u\",\"path\":\"a\",\"line\":1,\"body\":\"b\"\x7d]"

/-- The second of them. -/
def secondPayload : String :=
  "[\x7b\"title\":\"u\",\"path\":\"a\",\"line\":1,\"body\":\"b\"\x7d]"

/-- `json.loads` of the payloads. -/
def loadsPlain (text : List Char) : Option Value :=
  if text = plainPayload.toList then
    some (.list [(plainFinding "t" "b").toValue, (plainFinding "u" "b").toValue])
  else if text = secondPayload.toList then some (.list [(plainFinding "u" "b").toValue])
  else none

/-- A session without items. -/
def blankSession : Session where
  root := ∅
  items := ∅
  leases := ∅
  leaseEvents := []

theorem plain_findings_run :
    (Separable (·.map lowerChar) (plainFinding "t" "b") (plainFinding "u" "b")) ∧
      ((ingestNativeFindings loadsPlain (·.map lowerChar) id "json" plainPayload true 0
        blankSession).2.toOption.any fun findings =>
          decide (findings.length = 2) && decide (∀ finding ∈ findings, ∀ other ∈ findings,
            Separable (·.map lowerChar) finding other)) = true := by
  decide +kernel

theorem finding_identity_plain :
    (localFindingItemId (·.map lowerChar) id "json" (plainFinding "t" "b") =
        localFindingItemId (·.map lowerChar) id "json" (plainFinding "u" "b") →
      "json" = "json" ∧ identity (·.map lowerChar) (plainFinding "t" "b") =
        identity (·.map lowerChar) (plainFinding "u" "b")) ∧
    ∃ after findings, ingestNativeFindings loadsPlain (·.map lowerChar) id "json" plainPayload true
        0 blankSession = (after, .ok findings) ∧
      findings.length = 2 ∧ KeepsApart (·.map lowerChar) findings after.items := by
  obtain ⟨hpair, hrun⟩ := plain_findings_run
  obtain ⟨hids, hitems⟩ := @finding_identity_iff (·.map lowerChar) id
    Function.injective_id
  refine ⟨(hids "json" "json" _ _).mpr fun _ => hpair, ?_⟩
  generalize hok : ingestNativeFindings loadsPlain (·.map lowerChar) id "json" plainPayload true 0
      blankSession = result at hrun
  obtain ⟨after, outcome⟩ := result
  cases outcome with
  | error message => cases hrun
  | ok findings =>
      obtain ⟨hlength, hseparable⟩ := (Bool.and_eq_true _ _).mp hrun
      exact ⟨after, findings, rfl, of_decide_eq_true hlength,
        (hitems _ _ _ _ _ _ _ _ hok).mpr (of_decide_eq_true hseparable)⟩

/-- Two findings whose titles and bodies divide one text differently have one id. -/
theorem barred_findings_share_id :
    ¬ ∀ (lowercase : List Char → List Char) (digest : String → String),
      Function.Injective digest → ∀ (source origin : String) (finding other : Dict),
        localFindingItemId lowercase digest source finding =
            localFindingItemId lowercase digest origin other →
          source = origin ∧ identity lowercase finding = identity lowercase other := by
  intro hclaim
  have hpieces : pieces (·.map lowerChar) (plainFinding "b|c" "d") =
      pieces (·.map lowerChar) (plainFinding "b" "c|d") ∧
        identity (·.map lowerChar) (plainFinding "b|c" "d") ≠
          identity (·.map lowerChar) (plainFinding "b" "c|d") := by
    decide +kernel
  exact hpieces.2 (hclaim (·.map lowerChar) id Function.injective_id "json" "json" _ _
    ((localFindingItemId_eq_iff _ Function.injective_id "json" "json" _ _).mpr
      ⟨rfl, hpieces.1⟩)).2

end GhAddressCr.LocalFindings
