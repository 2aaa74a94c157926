import GhAddressCr.FieldEffects
import GhAddressCr.FindingIdentity
import GhAddressCr.TransitionSystem

/-!
# Syncing one source

A synced payload decides which items of its source are open: the findings that came in are, and
every other one of the source is closed. Nothing else in the session is touched, since the id of
a local finding tells its source, and taking the payload in once more changes only time stamps.
-/
namespace GhAddressCr.LocalFindings

open PyText JsonText

variable {loads : List Char → Option Value} {lowercase : List Char → List Char}
  {digest : String → String}

/-- The keys that hold time stamps. -/
def timeKeys : List String := ["created_at", "updated_at", "handled_at"]

/-- The part of `opened` that does not read the clock. -/
def openedAnyTime (item : Dict) : Dict :=
  let item := (item.set "status" (.str "OPEN")).set "state" (.str "open")
  let item := (item.set "blocking" (.bool true)).set "handled" (.bool false)
  let item := (item.set "needs_human" (.bool false)).setDefault "history" (.list [])
  let item := (item.setDefault "reply_posted" (.bool false)).setDefault "reply_url" .null
  item.setDefault "validation_commands" (.list [])

theorem opened_eq (now : Int) (item : Dict) :
    opened now item =
      openedAnyTime ((item.setDefault "created_at" (.time now)).set "updated_at" (.time now)) := rfl

theorem fieldwise_openedAnyTime : Fieldwise openedAnyTime :=
  (((((((((Fieldwise.id.set "status" (.str "OPEN")).set "state" (.str "open")).set "blocking"
    (.bool true)).set "handled" (.bool false)).set "needs_human" (.bool false)).setDefault
      "history" (.list [])).setDefault "reply_posted" (.bool false)).setDefault "reply_url"
        .null).setDefault "validation_commands" (.list []))

theorem fieldwise_opened (now : Int) : Fieldwise (opened now) :=
  fieldwise_openedAnyTime.comp
    ((Fieldwise.id.setDefault "created_at" (.time now)).set "updated_at" (.time now))

theorem opened_sameBut (now later : Int) (item : Dict) :
    SameBut timeKeys (opened now item) (opened later item) := by
  have hstamped : ∀ time, SameBut timeKeys item
      ((item.setDefault "created_at" (.time time)).set "updated_at" (.time time)) := fun time =>
    (SameBut.setDefault (by decide) _).trans (SameBut.set (by decide) _)
  rw [opened_eq, opened_eq]
  exact ((hstamped now).symm.trans (hstamped later)).map fieldwise_openedAnyTime

theorem fieldwise_withSeverity (source : String) (finding : Dict) :
    Fieldwise (withSeverity source finding) := by
  have happly : ∀ evidence, Fieldwise fun item => applySeverityEvidence item evidence := by
    intro evidence
    cases evidence with
    | none => exact (Fieldwise.id.pop "severity").pop "severity_evidence"
    | some evidence =>
        exact (Fieldwise.id.set "severity" _).set "severity_evidence" evidence.toValue
  unfold withSeverity
  simp only
  split_ifs
  · exact happly _
  · exact Fieldwise.id
  · exact happly _
  · exact Fieldwise.id

/-- What the findings in turn make of one item. -/
def observeItem (source : String) (now : Int) (findings : List Dict) (item : Dict) : Dict :=
  findings.foldl (fun item finding => observedItem source now finding (some item)) item

theorem fieldwise_observedItem (source : String) (now : Int) (finding : Dict) :
    Fieldwise fun item => observedItem source now finding (some item) :=
  (fieldwise_opened now).comp ((fieldwise_withSeverity source finding).comp
    (Fieldwise.id.update (finding.pop "severity")))

theorem fieldwise_observeItem (source : String) (now : Int) (findings : List Dict) :
    Fieldwise (observeItem source now findings) := by
  induction findings with
  | nil => exact Fieldwise.id
  | cons finding findings ih => exact ih.comp (fieldwise_observedItem source now finding)

theorem observeItem_sameBut (source : String) (now later : Int) (findings : List Dict)
    (item : Dict) :
    SameBut timeKeys (observeItem source now findings item)
      (observeItem source later findings item) := by
  induction findings generalizing item with
  | nil => exact SameBut.refl item
  | cons finding findings ih =>
      have hfirst : SameBut timeKeys (observedItem source now finding (some item))
          (observedItem source later finding (some item)) := opened_sameBut now later _
      exact (ih _).trans (hfirst.map (fieldwise_observeItem source later findings))

/-- Observing the same findings later changes time stamps only. -/
theorem observeItem_again (source : String) (now later : Int) (findings : List Dict)
    (item : Dict) :
    SameBut timeKeys (observeItem source now findings item)
      (observeItem source later findings (observeItem source now findings item)) := by
  have hsame := observeItem_sameBut source now later findings (observeItem source now findings item)
  rwa [(fieldwise_observeItem source now findings).idempotent] at hsame

/-- The item under an id after the findings with that id. -/
theorem getElem?_observeFindings (source : String) (now : Int) (findings : List Dict)
    (items : Rows Dict) (itemId : String) :
    (observeFindings source now findings items)[itemId]? =
      if itemId ∈ findings.map itemIdOf then
        some (observeItem source now (findings.filter (itemIdOf · = itemId))
          (items[itemId]?.getD ∅))
      else items[itemId]? := by
  induction findings generalizing items with
  | nil => rfl
  | cons finding findings ih =>
      rw [observeFindings_cons, ih]
      by_cases hid : itemIdOf finding = itemId
      · subst hid
        have hinserted : (items.insert (itemIdOf finding)
            (observedItem source now finding items[itemIdOf finding]?))[itemIdOf finding]? =
              some (observedItem source now finding items[itemIdOf finding]?) :=
          Std.ExtTreeMap.getElem?_insert_self
        have hfirst : observedItem source now finding items[itemIdOf finding]? =
            observedItem source now finding (some (items[itemIdOf finding]?.getD ∅)) := by
          unfold observedItem
          rfl
        have hmem : itemIdOf finding ∈ (finding :: findings).map itemIdOf := by simp
        rw [hinserted, if_pos hmem, List.filter_cons_of_pos (by simp), Option.getD_some, hfirst]
        by_cases hlater : itemIdOf finding ∈ findings.map itemIdOf
        · rw [if_pos hlater]
          rfl
        · have hempty : findings.filter (itemIdOf · = itemIdOf finding) = [] := by
            rw [List.filter_eq_nil_iff]
            intro other hother hsame
            exact hlater (List.mem_map.mpr ⟨other, hother, of_decide_eq_true hsame⟩)
          rw [if_neg hlater, hempty]
          rfl
      · have hmem : itemId ∈ (finding :: findings).map itemIdOf ↔
            itemId ∈ findings.map itemIdOf := by
          simp [Ne.symm hid]
        rw [KeyedRows.getElem?_insert_of_ne _ _ hid, List.filter_cons_of_neg (by simpa using hid)]
        simp only [hmem]

theorem handledItem_again (now later : Int) (item : Dict) :
    SameBut timeKeys (handledItem now item) (handledItem later (handledItem now item)) := by
  have hstamped : ∀ (time : Int) (other : Dict), SameBut timeKeys other
      ((other.set "handled_at" (.time time)).set "updated_at" (.time time)) := fun time other =>
    (SameBut.set (by decide) _).trans (SameBut.set (by decide) _)
  have hplain : Fieldwise fun item : Dict => (((item.set "status" (.str "CLOSED")).set "state"
      (.str "closed")).set "blocking" (.bool false)).set "handled" (.bool true) :=
    (((Fieldwise.id.set "status" (.str "CLOSED")).set "state" (.str "closed")).set "blocking"
      (.bool false)).set "handled" (.bool true)
  have hfirst := hstamped now ((((item.set "status" (.str "CLOSED")).set "state"
    (.str "closed")).set "blocking" (.bool false)).set "handled" (.bool true))
  have hagain := hfirst.map hplain
  rw [hplain.idempotent] at hagain
  exact hfirst.symm.trans (hagain.trans (hstamped later _))

theorem fieldwise_handledItem (now : Int) : Fieldwise (handledItem now) :=
  (((((Fieldwise.id.set "status" (.str "CLOSED")).set "state" (.str "closed")).set "blocking"
    (.bool false)).set "handled" (.bool true)).set "handled_at" (.time now)).set "updated_at"
      (.time now)

theorem isLocalOf_handledItem (source : String) (now : Int) (item : Dict) :
    isLocalOf source (handledItem now item) ↔ isLocalOf source item := by
  simp [isLocalOf, handledItem]

theorem mapM_ok_iff {α β ε : Type} {f : α → Except ε β} {xs : List α} :
    (∃ ys, xs.mapM f = .ok ys) ↔ ∀ x ∈ xs, ∃ y, f x = .ok y := by
  induction xs with
  | nil => simpa using ⟨[], rfl⟩
  | cons x xs ih =>
      rw [List.mapM_cons]
      cases hx : f x with
      | error message => simp [hx, bind, Except.bind]
      | ok y =>
          cases hxs : xs.mapM f with
          | error message =>
              have hrest : ¬ ∀ other ∈ xs, ∃ y, f other = .ok y := by
                rw [← ih, hxs]
                simp
              simp [hx, bind, Except.bind, hrest]
          | ok ys =>
              have hrest := ih.mp ⟨ys, hxs⟩
              simpa [hx, bind, Except.bind, pure, Except.pure] using hrest

/-- The payload is blank, cannot be decoded, or has a record that is no finding. -/
def Malformed (loads : List Char → Option Value) (raw : String) : Prop :=
  strip raw = "" ∨ (∀ records, parseRecords loads raw.toList ≠ .ok records) ∨
    ∃ records, parseRecords loads raw.toList = .ok records ∧
      ∃ record ∈ records, ∀ finding, normalizeFinding record ≠ .ok finding

theorem nativeFindings_ok_iff {source raw : String} :
    (∃ findings, nativeFindings loads lowercase digest source raw = .ok findings) ↔
      ¬ Malformed loads raw := by
  have hrecords : ∀ formatSource, formatSource = "adapter" ∨ formatSource = "json" →
      normalizedRecords loads formatSource raw =
        (parseRecords loads raw.toList >>= fun records => records.mapM normalizeFinding) := by
    rintro formatSource (rfl | rfl) <;> rfl
  have hformat : (if source = "adapter" then "adapter" else "json") = "adapter" ∨
      (if source = "adapter" then "adapter" else "json") = "json" := by
    split <;> simp
  unfold nativeFindings Malformed
  by_cases hblank : strip raw = ""
  · simp [hblank]
  simp only [if_neg hblank, normalizeFindingsPayload, hrecords _ hformat]
  cases hparse : parseRecords loads raw.toList with
  | error message => simp [bind, Except.bind, Except.map]
  | ok records =>
      have hall : (∃ found, records.mapM normalizeFinding = .ok found) ↔ _ := mapM_ok_iff
      cases hmap : records.mapM normalizeFinding with
      | error message =>
          rw [hmap] at hall
          simp only [reduceCtorEq, exists_false, false_iff, not_forall] at hall
          obtain ⟨record, hrecord, hbad⟩ := hall
          simp only [bind, Except.bind, hmap, Except.map, reduceCtorEq, exists_false, false_iff,
            not_not]
          exact Or.inr (Or.inr ⟨records, rfl, record, hrecord, fun finding hfinding =>
            hbad ⟨finding, hfinding⟩⟩)
      | ok findings =>
          have hgood := hall.mp ⟨findings, hmap⟩
          simp only [bind, Except.bind, hmap, Except.map, Except.ok.injEq, exists_eq', true_iff]
          rintro (hraw | hnone | ⟨other, hother, record, hrecord, hbad⟩)
          · exact hblank hraw
          · exact hnone records rfl
          · subst hother
            obtain ⟨finding, hfinding⟩ := hgood record hrecord
            exact hbad finding hfinding

section Sources

variable (lowercase digest)

/-- Under an id that a source gives is a local finding of that source. -/
def SourcesMatch (items : Rows Dict) : Prop :=
  ∀ (source : String) (finding item : Dict),
    items[localFindingItemId lowercase digest source finding]? = some item →
      isLocalOf source item

/-- No item is added under the id of a finding, and those that are there keep their kind and
source. -/
def KeepsFindings (items after : Rows Dict) : Prop :=
  ∀ (source : String) (finding item : Dict),
    after[localFindingItemId lowercase digest source finding]? = some item →
      ∃ before, items[localFindingItemId lowercase digest source finding]? = some before ∧
        item.get "item_kind" = before.get "item_kind" ∧ item.get "source" = before.get "source"

theorem SourcesMatch.of_keeps {lowercase digest} {items after : Rows Dict}
    (h : SourcesMatch lowercase digest items)
    (hkeeps : KeepsFindings lowercase digest items after) :
    SourcesMatch lowercase digest after := by
  intro source finding item hitem
  obtain ⟨before, hbefore, hkind, hsource⟩ := hkeeps source finding item hitem
  have hlocal := h source finding before hbefore
  exact ⟨hkind.trans hlocal.1, hsource.trans hlocal.2⟩

end Sources

theorem isLocalOf_observedItem {source : String} (now : Int) {finding : Dict}
    (existing : Option Dict) (h : isLocalOf source finding) :
    isLocalOf source (observedItem source now finding existing) := by
  have hhas : ∀ {key : String} {text : String}, finding.get key = .str text →
      finding.has key = true := by
    intro key text hkey
    rw [Dict.has]
    cases hfound : finding[key]? with
    | none =>
        rw [Dict.get, hfound] at hkey
        cases hkey
    | some value => rfl
  constructor
  · rw [get_observedItem source now existing (by decide) (by decide) (by decide) (hhas h.1), h.1]
  · rw [get_observedItem source now existing (by decide) (by decide) (by decide) (hhas h.2), h.2]

theorem isLocalOf_observeItem {source : String} (now : Int) {findings : List Dict}
    (h : ∀ finding ∈ findings, isLocalOf source finding) {item : Dict}
    (hitem : isLocalOf source item) : isLocalOf source (observeItem source now findings item) := by
  induction findings generalizing item with
  | nil => exact hitem
  | cons finding findings ih =>
      exact ih (fun other hother => h other (by simp [hother]))
        (isLocalOf_observedItem now (some item) (h finding (by simp)))

theorem isLocalOf_observeItem_of_ne_nil {source : String} (now : Int) {findings : List Dict}
    (hne : findings ≠ []) (h : ∀ finding ∈ findings, isLocalOf source finding) (item : Dict) :
    isLocalOf source (observeItem source now findings item) := by
  cases findings with
  | nil => exact absurd rfl hne
  | cons finding findings =>
      have hfirst := isLocalOf_observedItem now (some item) (h finding (by simp))
      show isLocalOf source
        (observeItem source now findings (observedItem source now finding (some item)))
      exact isLocalOf_observeItem now (fun other hother => h other (by simp [hother])) hfirst

section Ingested

variable {source : String} {now : Int} {sync : Bool} {findings : List Dict} {items : Rows Dict}

/-- An item whose finding came in. -/
theorem getElem?_ingested_of_incoming {itemId : String} (h : itemId ∈ findings.map itemIdOf) :
    (ingestedItems source now sync findings items)[itemId]? =
      some (observeItem source now (findings.filter (itemIdOf · = itemId))
        (items[itemId]?.getD ∅)) := by
  rw [getElem?_ingestedItems_of_incoming source now sync items h, getElem?_observeFindings,
    if_pos h]

/-- An item whose finding did not come in. -/
theorem getElem?_synced_of_missing {itemId : String} (h : itemId ∉ findings.map itemIdOf) :
    (ingestedItems source now true findings items)[itemId]? =
      items[itemId]?.map fun item =>
        if isLocalOf source item then handledItem now item else item := by
  have hobserved := getElem?_observeFindings source now findings items itemId
  rw [if_neg h] at hobserved
  show (closeMissing source now (findings.map itemIdOf) _)[itemId]? = _
  rw [closeMissing, Std.ExtTreeMap.getElem?_map, hobserved]
  simp only [h, not_false_eq_true, and_true]

theorem getElem?_unsynced_of_missing {itemId : String} (h : itemId ∉ findings.map itemIdOf) :
    (ingestedItems source now false findings items)[itemId]? = items[itemId]? := by
  have hobserved := getElem?_observeFindings source now findings items itemId
  rwa [if_neg h] at hobserved

theorem incoming_ne_nil {itemId : String} (h : itemId ∈ findings.map itemIdOf) :
    findings.filter (itemIdOf · = itemId) ≠ [] := by
  obtain ⟨finding, hfinding, hid⟩ := List.mem_map.mp h
  exact List.ne_nil_of_mem (List.mem_filter.mpr ⟨hfinding, by simpa using hid⟩)

end Ingested

theorem ingest_ok {source raw : String} {sync : Bool} {now : Int} {session : Session}
    {findings : List Dict} (h : nativeFindings loads lowercase digest source raw = .ok findings) :
    ingestNativeFindings loads lowercase digest source raw sync now session =
      ({ session with items := ingestedItems source now sync findings session.items },
        .ok findings) := by
  unfold ingestNativeFindings
  rw [h]

/-- What is done to a session. -/
inductive SessionLabel where
  | ingest (source raw : String) (sync : Bool) (now : Int)
  /-- Any other command. -/
  | other

/-- The sessions of a program: they start without items, findings come in, and other commands keep
the findings that are there. -/
def sessions (loads : List Char → Option Value) (lowercase : List Char → List Char)
    (digest : String → String) : TransitionSystem Session SessionLabel where
  init session := session.items = ∅
  step session label after :=
    match label with
    | .ingest source raw sync now =>
        (ingestNativeFindings loads lowercase digest source raw sync now session).1 = after
    | .other => KeepsFindings lowercase digest session.items after.items

section Synced

variable (hdigest : Function.Injective digest)
include hdigest

theorem ingest_sourcesMatch {source raw : String} {sync : Bool} {now : Int}
    {findings : List Dict} {items : Rows Dict}
    (hfindings : nativeFindings loads lowercase digest source raw = .ok findings)
    (h : SourcesMatch lowercase digest items) :
    SourcesMatch lowercase digest (ingestedItems source now sync findings items) := by
  have hids := nativeFindings_identified lowercase digest hfindings
  intro origin finding item hitem
  generalize hid : localFindingItemId lowercase digest origin finding = itemId at hitem
  by_cases hincoming : itemId ∈ findings.map itemIdOf
  · rw [getElem?_ingested_of_incoming hincoming] at hitem
    obtain rfl := Option.some.inj hitem
    obtain ⟨same, hsame, hsameId⟩ := List.mem_map.mp hincoming
    rw [(hids same hsame).itemId, ← hid] at hsameId
    obtain ⟨rfl, -⟩ := (localFindingItemId_eq_iff lowercase hdigest _ _ _ _).mp hsameId
    exact isLocalOf_observeItem_of_ne_nil now (incoming_ne_nil hincoming)
      (fun other hother => (hids other (List.mem_filter.mp hother).1).isLocal) _
  · cases sync with
    | false =>
        rw [getElem?_unsynced_of_missing hincoming] at hitem
        exact h origin finding item (hid ▸ hitem)
    | true =>
        rw [getElem?_synced_of_missing hincoming] at hitem
        obtain ⟨before, hbefore, rfl⟩ := Option.map_eq_some_iff.mp hitem
        have hlocal := h origin finding before (hid ▸ hbefore)
        split
        · exact (isLocalOf_handledItem origin now before).mpr hlocal
        · exact hlocal

/-- Every session has its local findings under ids that tell their source. -/
theorem sourcesMatch_of_reachable {session : Session}
    (h : (sessions loads lowercase digest).Reachable session) :
    SourcesMatch lowercase digest session.items := by
  refine h.invariant (fun session => SourcesMatch lowercase digest session.items) ?_ ?_
  · intro session hinit source finding item hitem
    rw [show session.items = ∅ from hinit] at hitem
    simp at hitem
  · intro session label after hmatch hstep
    cases label with
    | other => exact hmatch.of_keeps hstep
    | ingest source raw sync now =>
        have hstep : (ingestNativeFindings loads lowercase digest source raw sync now session).1 =
            after := hstep
        cases hfindings : nativeFindings loads lowercase digest source raw with
        | error message =>
            unfold ingestNativeFindings at hstep
            rw [hfindings] at hstep
            exact hstep ▸ hmatch
        | ok findings =>
            rw [ingest_ok hfindings] at hstep
            exact hstep ▸ ingest_sourcesMatch hdigest hfindings hmatch

omit hdigest in
/-- The finding is reported by the payload. -/
def Reported (lowercase : List Char → List Char) (digest : String → String) (source : String)
    (findings : List Dict) (itemId : String) : Prop :=
  ∃ finding ∈ findings, localFindingItemId lowercase digest source finding = itemId

/-- The item waits for an answer. -/
structure IsOpen (item : Dict) : Prop where
  status : item.get "status" = .str "OPEN"
  state : item.get "state" = .str "open"
  blocking : item.get "blocking" = .bool true
  handled : item.get "handled" = .bool false

/-- The item is closed and blocks nothing. -/
structure IsClosed (item : Dict) : Prop where
  status : item.get "status" = .str "CLOSED"
  state : item.get "state" = .str "closed"
  blocking : item.get "blocking" = .bool false
  handled : item.get "handled" = .bool true

omit hdigest in
theorem isOpen_opened (now : Int) (item : Dict) : IsOpen (opened now item) := by
  have hfill : ∀ (d : Dict) (key other : String) (value : Value), key ≠ other →
      (d.setDefault key value).get other = d.get other :=
    fun d _ _ value hne => Dict.get_setDefault_of_ne d value hne
  constructor <;> simp [opened, hfill]

omit hdigest in
theorem isOpen_observeItem {source : String} (now : Int) {findings : List Dict}
    (hne : findings ≠ []) (item : Dict) : IsOpen (observeItem source now findings item) := by
  obtain ⟨front, last, rfl⟩ : ∃ front last, findings = front ++ [last] :=
    ⟨_, _, (List.dropLast_append_getLast hne).symm⟩
  rw [observeItem, List.foldl_append]
  exact isOpen_opened now _

omit hdigest in
theorem isClosed_handledItem (now : Int) (item : Dict) : IsClosed (handledItem now item) := by
  constructor <;> simp [handledItem]

section Step

variable {source raw : String} {findings : List Dict} {items : Rows Dict}
  (hfindings : nativeFindings loads lowercase digest source raw = .ok findings)
include hfindings

omit hdigest in
theorem reported_iff (itemId : String) : Reported lowercase digest source findings itemId ↔
    itemId ∈ findings.map itemIdOf := by
  have hids := nativeFindings_identified lowercase digest hfindings
  simp only [Reported, List.mem_map]
  constructor
  · rintro ⟨finding, hfinding, rfl⟩
    exact ⟨finding, hfinding, (hids finding hfinding).itemId⟩
  · rintro ⟨finding, hfinding, rfl⟩
    exact ⟨finding, hfinding, (hids finding hfinding).itemId.symm⟩

omit hdigest in
/-- The findings of the source that were reported are open, the others are closed. -/
theorem synced_open_or_closed {now : Int} {itemId : String} {item : Dict}
    (hitem : (ingestedItems source now true findings items)[itemId]? = some item)
    (hlocal : isLocalOf source item) :
    (Reported lowercase digest source findings itemId → IsOpen item) ∧
      (¬ Reported lowercase digest source findings itemId → IsClosed item) := by
  rw [reported_iff hfindings]
  by_cases hincoming : itemId ∈ findings.map itemIdOf
  · rw [getElem?_ingested_of_incoming hincoming] at hitem
    obtain rfl := Option.some.inj hitem
    exact ⟨fun _ => isOpen_observeItem now (incoming_ne_nil hincoming) _,
      fun hmissing => absurd hincoming hmissing⟩
  · refine ⟨fun hin => absurd hin hincoming, fun _ => ?_⟩
    rw [getElem?_synced_of_missing hincoming] at hitem
    obtain ⟨before, -, rfl⟩ := Option.map_eq_some_iff.mp hitem
    split at hlocal
    · next hbefore =>
      rw [if_pos hbefore]
      exact isClosed_handledItem now before
    · next hbefore => exact absurd hlocal hbefore

/-- What is no finding of the source stays as it is. -/
theorem synced_foreign_iff (hmatch : SourcesMatch lowercase digest items) {now : Int}
    {itemId : String} {item : Dict} (hforeign : ¬ isLocalOf source item) :
    items[itemId]? = some item ↔
      (ingestedItems source now true findings items)[itemId]? = some item := by
  by_cases hincoming : itemId ∈ findings.map itemIdOf
  · -- an id that came in tells the source, so no foreign item is under it
    obtain ⟨finding, hfinding, hid⟩ := List.mem_map.mp hincoming
    rw [(nativeFindings_identified lowercase digest hfindings finding hfinding).itemId] at hid
    have hafter : SourcesMatch lowercase digest (ingestedItems source now true findings items) :=
      ingest_sourcesMatch hdigest hfindings hmatch
    constructor
    · intro hitem
      exact absurd (hmatch source finding item (hid ▸ hitem)) hforeign
    · intro hitem
      exact absurd (hafter source finding item (hid ▸ hitem)) hforeign
  · rw [getElem?_synced_of_missing hincoming]
    constructor
    · intro hitem
      rw [hitem, Option.map_some, if_neg hforeign]
    · intro hitem
      obtain ⟨before, hbefore, rfl⟩ := Option.map_eq_some_iff.mp hitem
      split at hforeign
      · next hlocal => exact absurd ((isLocalOf_handledItem source now before).mpr hlocal) hforeign
      · next hlocal => rw [hbefore, if_neg hlocal]

omit hdigest hfindings in
/-- Taken in once more, the findings change only time stamps. -/
theorem synced_again (now later : Int) (itemId : String) :
    Option.Rel (SameBut timeKeys) (ingestedItems source now true findings items)[itemId]?
      (ingestedItems source later true findings
        (ingestedItems source now true findings items))[itemId]? := by
  by_cases hincoming : itemId ∈ findings.map itemIdOf
  · have hfirst := fun items => @getElem?_ingested_of_incoming source now true findings items _
      hincoming
    have hagain := fun items => @getElem?_ingested_of_incoming source later true findings items _
      hincoming
    rw [hagain, hfirst, Option.getD_some]
    exact .some (observeItem_again source now later _ _)
  · have hfirst := fun items => @getElem?_synced_of_missing source now findings items _ hincoming
    have hagain := fun items => @getElem?_synced_of_missing source later findings items _ hincoming
    rw [hagain, hfirst]
    cases items[itemId]? with
    | none => exact .none
    | some item =>
        refine .some ?_
        by_cases hlocal : isLocalOf source item
        · simp only [if_pos hlocal, if_pos ((isLocalOf_handledItem source now item).mpr hlocal)]
          exact handledItem_again now later item
        · simp only [if_neg hlocal]
          exact SameBut.refl item

end Step

/-- A synced payload decides which findings of its source are open and touches nothing else; if
it is malformed it leaves the session as it is, and again it changes only time stamps. -/
theorem sync_ingests_one_source {session : Session}
    (h : (sessions loads lowercase digest).Reachable session) (source raw : String)
    (now later : Int) :
    (Malformed loads raw → ∃ message,
      ingestNativeFindings loads lowercase digest source raw true now session =
        (session, .error message)) ∧
    (¬ Malformed loads raw → ∃ after findings,
      ingestNativeFindings loads lowercase digest source raw true now session =
          (after, .ok findings) ∧
        (∀ (itemId : String) (item : Dict), after.items[itemId]? = some item →
          isLocalOf source item →
          (Reported lowercase digest source findings itemId → IsOpen item) ∧
          (¬ Reported lowercase digest source findings itemId → IsClosed item)) ∧
        (∀ (itemId : String) (item : Dict), ¬ isLocalOf source item →
          (session.items[itemId]? = some item ↔ after.items[itemId]? = some item)) ∧
        ∃ again, ingestNativeFindings loads lowercase digest source raw true later after =
            (again, .ok findings) ∧
          ∀ itemId : String, Option.Rel (SameBut timeKeys) after.items[itemId]? again.items[itemId]?) := by
  have hmatch := sourcesMatch_of_reachable hdigest h
  constructor
  · intro hbad
    cases hfindings : nativeFindings loads lowercase digest source raw with
    | error message => exact ⟨message, by unfold ingestNativeFindings; rw [hfindings]⟩
    | ok findings => exact absurd hbad (nativeFindings_ok_iff.mp ⟨findings, hfindings⟩)
  · intro hgood
    obtain ⟨findings, hfindings⟩ : ∃ findings,
        nativeFindings loads lowercase digest source raw = .ok findings :=
      nativeFindings_ok_iff.mpr hgood
    exact ⟨_, findings, ingest_ok hfindings,
      fun itemId item hitem hlocal => synced_open_or_closed hfindings hitem hlocal,
      fun itemId item hforeign => synced_foreign_iff hdigest hfindings hmatch hforeign,
      _, ingest_ok hfindings, synced_again now later⟩

end Synced

/-- The row of a thread. -/
def threadRow : Dict := Dict.ofFields [("item_kind", .str "github_thread"), ("state", .str "open")]

/-- A session after the two findings of the payload came in from a source. -/
def observe (source : String) (session : Session) : Session :=
  (ingestNativeFindings loadsPlain (·.map lowerChar) id source plainPayload true 0 session).1

/-- Two findings of one source, the same two of another, and a thread. -/
def observedSession : Session :=
  let session := observe "lint" (observe "json" blankSession)
  { session with items := session.items.insert "github-thread:T" threadRow }

theorem observedSession_reachable :
    (sessions loadsPlain (·.map lowerChar) id).Reachable observedSession := by
  have hobserve : ∀ (source : String) {session : Session},
      (sessions loadsPlain (·.map lowerChar) id).Reachable session →
        (sessions loadsPlain (·.map lowerChar) id).Reachable (observe source session) :=
    fun source _ h => h.next (l := .ingest source plainPayload true 0) rfl
  have hblank : (sessions loadsPlain (·.map lowerChar) id).Reachable blankSession := .start rfl
  refine (hobserve "lint" (hobserve "json" hblank)).next (l := .other) ?_
  intro source finding item hitem
  have hne : "github-thread:T" ≠ localFindingItemId (·.map lowerChar) id source finding := by
    intro heq
    have hchars := congrArg (fun id => id.toList.head?) heq
    simp [localFindingItemId, String.toList_append] at hchars
  refine ⟨item, ?_, rfl, rfl⟩
  simpa [observedSession, Std.ExtTreeMap.getElem?_insert, hne] using hitem

/-- The status of a finding in a session. -/
def statusIn (session : Session) (source title : String) : Option Value :=
  session.items[localFindingItemId (·.map lowerChar) id source (plainFinding title "b")]?.map
    (·.get "status")

theorem secondPayload_run :
    (let after := (ingestNativeFindings loadsPlain (·.map lowerChar) id "json" secondPayload true 1
      observedSession)
    after.2.toOption.isSome && decide (statusIn after.1 "json" "t" = some (.str "CLOSED") ∧
      statusIn after.1 "json" "u" = some (.str "OPEN") ∧
      statusIn after.1 "lint" "t" = some (.str "OPEN") ∧
      after.1.items["github-thread:T"]? = some threadRow)) = true := by
  decide +kernel

theorem sync_ingests_plain_source : ∃ after findings,
    ingestNativeFindings loadsPlain (·.map lowerChar) id "json" secondPayload true 1
        observedSession = (after, .ok findings) ∧
      (statusIn after "json" "t" = some (.str "CLOSED") ∧
        statusIn after "json" "u" = some (.str "OPEN") ∧
        statusIn after "lint" "t" = some (.str "OPEN") ∧
        after.items["github-thread:T"]? = some threadRow) ∧
      (∀ (itemId : String) (item : Dict), after.items[itemId]? = some item →
        isLocalOf "json" item →
          (Reported (·.map lowerChar) id "json" findings itemId → IsOpen item) ∧
          (¬ Reported (·.map lowerChar) id "json" findings itemId → IsClosed item)) ∧
      (∀ (itemId : String) (item : Dict), ¬ isLocalOf "json" item →
        (observedSession.items[itemId]? = some item ↔ after.items[itemId]? = some item)) ∧
      ∃ again, ingestNativeFindings loadsPlain (·.map lowerChar) id "json" secondPayload true 2
          after = (again, .ok findings) ∧
        ∀ itemId : String,
          Option.Rel (SameBut timeKeys) after.items[itemId]? again.items[itemId]? := by
  obtain ⟨hok, hitems⟩ := (Bool.and_eq_true _ _).mp secondPayload_run
  have hgood : ¬ Malformed loadsPlain secondPayload := by
    rw [← @nativeFindings_ok_iff loadsPlain (·.map lowerChar) id "json" secondPayload]
    cases hfindings : nativeFindings loadsPlain (·.map lowerChar) id "json" secondPayload with
    | error message => simp [ingestNativeFindings, hfindings, Except.toOption] at hok
    | ok findings => exact ⟨findings, rfl⟩
  obtain ⟨after, findings, hrun, hlocal, hforeign, hagain⟩ := (sync_ingests_one_source
    Function.injective_id observedSession_reachable "json" secondPayload 1 2).2 hgood
  rw [hrun] at hitems
  exact ⟨after, findings, hrun, of_decide_eq_true hitems, hlocal, hforeign, hagain⟩

end GhAddressCr.LocalFindings
