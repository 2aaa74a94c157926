import GhAddressCr.LifecycleMetrics
import Mathlib.Algebra.BigOperators.Group.List.Basic

/-!
# The order of lifecycle events

The aggregates of a session, from its events in any order. Two lists of the same events have the
same items up to order, and what is summed, ranked or counted over them does not see the order.
-/
namespace GhAddressCr.CrMetrics

open PyText OrderStatistics

section Ranking

variable {α κ : Type} [LinearOrder κ] {key : α → κ}

/-- What `firstBest` chooses has the least key. -/
def IsLeast (key : α → κ) (rows : List α) (best : α) : Prop :=
  best ∈ rows ∧ ∀ row ∈ rows, key best ≤ key row

theorem foldl_firstBest (rows : List α) (first : α) :
    ∃ best, rows.foldl
        (fun best row =>
          match best with
          | none => some row
          | some best => if decide (key row < key best) then some row else some best)
        (some first) = some best ∧ IsLeast key (first :: rows) best := by
  induction rows generalizing first with
  | nil => exact ⟨first, rfl, by simp [IsLeast]⟩
  | cons row rows ih =>
      simp only [List.foldl_cons]
      by_cases hless : key row < key first
      · obtain ⟨best, hbest, hmem, hleast⟩ := ih row
        refine ⟨best, by simpa [hless] using hbest, List.mem_cons_of_mem _ hmem, ?_⟩
        intro other hother
        rcases List.mem_cons.mp hother with rfl | hother
        · exact (hleast row List.mem_cons_self).trans hless.le
        · exact hleast other hother
      · obtain ⟨best, hbest, hmem, hleast⟩ := ih first
        have hfirst := hleast first List.mem_cons_self
        refine ⟨best, by simpa [hless] using hbest, ?_, ?_⟩
        · rcases List.mem_cons.mp hmem with rfl | hmem
          · exact List.mem_cons_self
          · exact List.mem_cons_of_mem _ (List.mem_cons_of_mem _ hmem)
        · intro other hother
          rcases List.mem_cons.mp hother with rfl | hother
          · exact hfirst
          rcases List.mem_cons.mp hother with rfl | hother
          · exact hfirst.trans (not_lt.mp hless)
          · exact hleast other (List.mem_cons_of_mem _ hother)

theorem firstBest_mem (better : α → α → Bool) {rows : List α} (h : rows ≠ []) :
    ∃ best ∈ rows, firstBest better rows = some best := by
  cases rows with
  | nil => exact absurd rfl h
  | cons first rows =>
      clear h
      induction rows generalizing first with
      | nil => exact ⟨first, List.mem_cons_self, rfl⟩
      | cons row rows ih =>
          by_cases hbetter : better row first = true
          · obtain ⟨best, hmem, hbest⟩ := ih row
            refine ⟨best, List.mem_cons_of_mem _ hmem, ?_⟩
            rw [← hbest]
            simp [firstBest, hbetter]
          · obtain ⟨best, hmem, hbest⟩ := ih first
            refine ⟨best, ?_, ?_⟩
            · rcases List.mem_cons.mp hmem with rfl | hmem
              · exact List.mem_cons_self
              · exact List.mem_cons_of_mem _ (List.mem_cons_of_mem _ hmem)
            · rw [← hbest]
              simp [firstBest, hbetter]

theorem firstBest_isLeast (key : α → κ) {rows : List α} (h : rows ≠ []) :
    ∃ best, firstBest (fun row best => decide (key row < key best)) rows = some best ∧
      IsLeast key rows best := by
  cases rows with
  | nil => exact absurd rfl h
  | cons first rows => exact foldl_firstBest rows first

/-- Where no two rows have one key, the choice does not depend on the order. -/
theorem firstBest_congr (hkey : Function.Injective key) {rows rows' : List α}
    (h : rows.Perm rows') : firstBest (fun row best => decide (key row < key best)) rows =
      firstBest (fun row best => decide (key row < key best)) rows' := by
  by_cases hempty : rows = []
  · subst hempty
    rw [h.nil_eq]
  · have hempty' : rows' ≠ [] := fun hnil => hempty (by rw [hnil] at h; exact h.eq_nil)
    obtain ⟨best, hbest, hmem, hleast⟩ := firstBest_isLeast key hempty
    obtain ⟨best', hbest', hmem', hleast'⟩ := firstBest_isLeast key hempty'
    have hsame : key best = key best' :=
      le_antisymm (hleast best' (h.mem_iff.mpr hmem')) (hleast' best (h.mem_iff.mp hmem))
    rw [hbest, hbest', hkey hsame]

end Ranking

theorem StageCandidate.key_injective : Function.Injective StageCandidate.key := by
  rintro ⟨itemId, stage, duration⟩ ⟨itemId', stage', duration'⟩ h
  simpa [StageCandidate.key, and_comm, and_left_comm] using h

/-- The aggregates of items whose eligible items have all their stages. -/
theorem lifecycleAggregates_isSome {items : List LifecycleItem}
    (h : ∀ item ∈ items, item.eligible = true → item.Measured) :
    ∃ aggregates, lifecycleAggregates items = some aggregates ∧
      aggregates.eligibleItems + aggregates.excludedItems = items.length := by
  have hmeasured : ∀ item ∈ items.filter (·.eligible), item.Measured := fun item hitem =>
    h item (List.mem_filter.mp hitem).1 (List.mem_filter.mp hitem).2
  have hle := List.length_filter_le (·.eligible) items
  have haddressed := mapM_some fun item hitem =>
    Option.eq_some_getD 0 ((hmeasured item hitem).addressed.imp fun _ => And.left)
  have hverified := mapM_some fun item hitem =>
    Option.eq_some_getD 0 ((hmeasured item hitem).verified.imp fun _ => And.left)
  have hwhole := mapM_some fun item hitem =>
    Option.eq_some_getD 0 ((hmeasured item hitem).whole.imp fun _ => And.left)
  have hcandidates := mapM_some fun item hitem => (hmeasured item hitem).candidates
  obtain ⟨first, hfirst⟩ := distribution_isSome ((items.filter (·.eligible)).map
    fun item => item.durations.observedToAddressed.getD 0) items.length
  obtain ⟨second, hsecond⟩ := distribution_isSome ((items.filter (·.eligible)).map
    fun item => item.durations.addressedToVerified.getD 0) items.length
  obtain ⟨third, hthird⟩ := distribution_isSome ((items.filter (·.eligible)).map
    fun item => item.durations.observedToVerified.getD 0) items.length
  simp only [lifecycleAggregates, haddressed, hverified, hwhole, hcandidates, Option.bind_eq_bind,
    Option.bind_some, hfirst, hsecond, hthird]
  exact ⟨_, rfl, by simp only; omega⟩

theorem friction_congr {items items' : List LifecycleItem} (h : items.Perm items') (verified : Nat)
    (count : EventCounts → Nat) :
    friction items verified count = friction items' verified count := by
  have hsum := (h.map fun item => count item.counts).sum_eq
  simp only [friction, hsum, h.length_eq]

theorem lifecycleAggregates_congr {items items' : List LifecycleItem}
    (hmeasured : ∀ item ∈ items, item.eligible = true → item.Measured) (h : items.Perm items') :
    lifecycleAggregates items = lifecycleAggregates items' := by
  have hmeasured' : ∀ item ∈ items.filter (·.eligible), item.Measured := fun item hitem =>
    hmeasured item (List.mem_filter.mp hitem).1 (List.mem_filter.mp hitem).2
  have heligible : (items.filter (·.eligible)).Perm (items'.filter (·.eligible)) := h.filter _
  have hverified : (items.filter (·.verifiedAt.isSome)).Perm
      (items'.filter (·.verifiedAt.isSome)) := h.filter _
  -- the durations of the eligible items are lists in the one order and in the other
  have hlists : ∀ {β : Type} {f : LifecycleItem → Option β} {g : LifecycleItem → β},
      (∀ item, item.Measured → f item = some (g item)) →
      (items.filter (·.eligible)).mapM f = some ((items.filter (·.eligible)).map g) ∧
        (items'.filter (·.eligible)).mapM f = some ((items'.filter (·.eligible)).map g) := by
    intro β f g hf
    exact ⟨mapM_some fun item hitem => hf item (hmeasured' item hitem),
      mapM_some fun item hitem => hf item (hmeasured' item (heligible.mem_iff.mpr hitem))⟩
  have haddressed := hlists fun item hitem =>
    Option.eq_some_getD 0 (hitem.addressed.imp fun _ => And.left)
  have hstages := hlists fun item hitem =>
    Option.eq_some_getD 0 (hitem.verified.imp fun _ => And.left)
  have hwhole := hlists fun item hitem =>
    Option.eq_some_getD 0 (hitem.whole.imp fun _ => And.left)
  have hcandidates := hlists fun item hitem => hitem.candidates
  have hslowest := firstBest_congr StageCandidate.key_injective (heligible.map candidatesOf).flatten
  simp only [lifecycleAggregates, haddressed.1, haddressed.2, hstages.1, hstages.2, hwhole.1,
    hwhole.2, hcandidates.1, hcandidates.2, Option.bind_eq_bind, Option.bind_some, hslowest,
    distribution_congr (heligible.map _), friction_congr h, h.length_eq, heligible.length_eq,
    hverified.length_eq, hverified.countP_eq]

theorem firstSeen_congr {texts texts' : List String} (h : ∀ text, text ∈ texts ↔ text ∈ texts') :
    (firstSeen texts).Perm (firstSeen texts') :=
  (List.perm_ext_iff_of_nodup (nodup_firstSeen texts) (nodup_firstSeen texts')).mpr fun text => by
    rw [mem_firstSeen, mem_firstSeen, h]

theorem ofType_congr {entries entries' : List Entry} (h : entries.Perm entries')
    (eventType : String) : (ofType eventType entries).Perm (ofType eventType entries') := h.filter _

theorem times_congr {entries entries' : List Entry} (h : entries.Perm entries') :
    (times entries).Perm (times entries') := h.map _

theorem verifiedTimestamp_congr {entries entries' accepted accepted' : List Entry}
    (h : entries.Perm entries') (haccepted : accepted.Perm accepted') (itemKind : String) :
    verifiedTimestamp itemKind entries accepted =
      verifiedTimestamp itemKind entries' accepted' := by
  simp only [verifiedTimestamp, min?_congr (times_congr (ofType_congr h "response_published")),
    max?_congr (times_congr (ofType_congr h "verification_rejected")),
    min?_congr (times_congr (haccepted.filter _))]

theorem eventCounts_congr {entries entries' : List Entry} (h : entries.Perm entries') :
    eventCounts entries = eventCounts entries' := by
  have haccepted : (addressAcceptances entries).Perm (addressAcceptances entries') :=
    (ofType_congr h "response_accepted").filter _
  simp only [eventCounts, haccepted.length_eq, (ofType_congr h _).length_eq]

theorem headD_congr {texts texts' : List String} (h : texts.Perm texts')
    (hlength : texts.length = 1) : texts.headD "" = texts'.headD "" := by
  obtain ⟨text, rfl⟩ := List.length_eq_one_iff.mp hlength
  rw [List.singleton_perm.mp h]

/-- An item does not depend on the order of its entries. -/
theorem itemOf_congr {itemId : String} {entries entries' : List Entry} (h : entries.Perm entries') :
    itemOf (itemId, entries) = itemOf (itemId, entries') := by
  have hobservations := ofType_congr h "finding_observed"
  have haccepted := ofType_congr h "response_accepted"
  have hkinds : (kindsOf (ofType "finding_observed" entries)).Perm
      (kindsOf (ofType "finding_observed" entries')) :=
    firstSeen_congr fun text => (hobservations.filterMap _).mem_iff
  have hempty : (ofType "finding_observed" entries).isEmpty =
      (ofType "finding_observed" entries').isEmpty := hobservations.isEmpty_eq
  have hobservedAt : observedAtOf entries = observedAtOf entries' := by
    have hchosen : (if (ofType "finding_observed" entries).isEmpty then entries
          else ofType "finding_observed" entries).Perm
        (if (ofType "finding_observed" entries').isEmpty then entries'
          else ofType "finding_observed" entries') := by
      rw [hempty]
      split_ifs
      · exact h
      · exact hobservations
    simp only [observedAtOf, min?_congr (times_congr hchosen)]
  have hkind : (if (kindsOf (ofType "finding_observed" entries)).length = 1 then
        (kindsOf (ofType "finding_observed" entries)).headD "" else "") =
      if (kindsOf (ofType "finding_observed" entries')).length = 1 then
        (kindsOf (ofType "finding_observed" entries')).headD "" else "" := by
    rw [← hkinds.length_eq]
    split_ifs with hone
    · exact headD_congr hkinds hone
    · rfl
  have hunknown : kindsOf (ofType "finding_observed" entries) = [] ↔
      kindsOf (ofType "finding_observed" entries') = [] := by
    rw [← List.length_eq_zero_iff, ← List.length_eq_zero_iff, hkinds.length_eq]
  have haddressed : (times (addressAcceptances entries)).min? =
      (times (addressAcceptances entries')).min? :=
    min?_congr (times_congr (haccepted.filter _))
  unfold itemOf lifecycleItem
  simp only
  rw [hkind]
  simp only [hempty, hobservedAt, haddressed, eventCounts_congr h,
    verifiedTimestamp_congr h haccepted, exclusions, hkinds.length_eq, hunknown]

theorem itemsOf_congr {entries entries' : List Entry} (h : entries.Perm entries') :
    (itemsOf entries).Perm (itemsOf entries') := by
  have hids : (firstSeen (entries.map fun row => itemText row.2)).Perm
      (firstSeen (entries'.map fun row => itemText row.2)) :=
    firstSeen_congr fun text => (h.map _).mem_iff
  have hitem : ∀ itemId : String,
      itemOf (itemId, entries.filter fun row => itemText row.2 = itemId) =
        itemOf (itemId, entries'.filter fun row => itemText row.2 = itemId) :=
    fun itemId => itemOf_congr (h.filter _)
  unfold itemsOf byItem
  rw [List.map_map, List.map_map]
  simp only [Function.comp_def, hitem]
  exact hids.map _

/-- No two different events have one record id. -/
def OneRecordPerId (events : List Dict) : Prop :=
  ∀ event ∈ events, ∀ other ∈ events, recordId event ≠ "" → recordId event = recordId other →
    event = other

/-- All events are of one session. -/
def OneSession (events : List Dict) : Prop :=
  ∀ event ∈ events, ∀ other ∈ events, sessionText event = sessionText other

theorem OneRecordPerId.congr {events events' : List Dict} (h : OneRecordPerId events)
    (hperm : events.Perm events') : OneRecordPerId events' := fun event hevent other hother =>
  h event (hperm.mem_iff.mpr hevent) other (hperm.mem_iff.mpr hother)

theorem OneRecordPerId.tail {event : Dict} {events : List Dict}
    (h : OneRecordPerId (event :: events)) : OneRecordPerId events := fun one hone other hother =>
  h one (List.mem_cons_of_mem _ hone) other (List.mem_cons_of_mem _ hother)

theorem dedupe_cons_fst (seen : Rows Value) (event : Dict) (events : List Dict) :
    (dedupe seen (event :: events)).1 =
      if recordId event = "" then event :: (dedupe seen events).1
      else if recordId event ∈ seen then (dedupe seen events).1
      else event :: (dedupe (seen.insert (recordId event) (encoded event)) events).1 := by
  rw [dedupe]
  split_ifs with hid hseen
  · rfl
  · rw [Std.ExtTreeMap.mem_iff_isSome_getElem?] at hseen
    obtain ⟨earlier, hearlier⟩ := Option.isSome_iff_exists.mp hseen
    simp only [hearlier]
  · have hnone : seen[recordId event]? = none := Std.ExtTreeMap.getElem?_eq_none hseen
    simp only [hnone]

theorem insert_insert_comm (seen : Rows Value) {key key' : String} (value value' : Value)
    (h : key ≠ key') :
    (seen.insert key value).insert key' value' = (seen.insert key' value').insert key value := by
  apply Std.ExtTreeMap.ext_getElem?
  intro other
  simp only [Std.ExtTreeMap.getElem?_insert, Std.LawfulEqCmp.compare_eq_iff_eq]
  split_ifs with hnew hold
  · exact absurd (hold.trans hnew.symm) h
  all_goals rfl

/-- The events that are kept are the same in every order. -/
theorem dedupe_congr {events events' : List Dict} (h : events.Perm events')
    (hrecords : OneRecordPerId events) (seen : Rows Value) :
    (dedupe seen events).1.Perm (dedupe seen events').1 := by
  induction h generalizing seen with
  | nil => exact List.Perm.refl _
  | cons event hperm ih =>
      rw [dedupe_cons_fst, dedupe_cons_fst]
      split_ifs
      · exact (ih hrecords.tail seen).cons event
      · exact ih hrecords.tail seen
      · exact (ih hrecords.tail _).cons event
  | swap first second events =>
      simp only [dedupe_cons_fst]
      by_cases hid : recordId first = recordId second
      · by_cases hnone : recordId first = ""
        · have hnone' : recordId second = "" := hid ▸ hnone
          simpa [hnone, hnone'] using List.Perm.swap first second _
        · have hsame : first = second :=
            hrecords first (by simp) second (by simp) hnone hid
          rw [hsame]
      · have hid' : recordId second ≠ recordId first := Ne.symm hid
        have hinsert := insert_insert_comm seen (encoded first) (encoded second) hid
        simp only [Std.ExtTreeMap.mem_insert, Std.LawfulEqCmp.compare_eq_iff_eq, hid, hid',
          false_or, hinsert]
        split_ifs
        all_goals first
          | exact List.Perm.refl _
          | exact List.Perm.swap first second _
  | trans hfirst hsecond ih ih' =>
      exact (ih hrecords seen).trans (ih' (hrecords.congr hfirst) seen)

theorem mem_of_mem_dedupe {seen : Rows Value} {events : List Dict} {event : Dict}
    (h : event ∈ (dedupe seen events).1) : event ∈ events := by
  induction events generalizing seen with
  | nil => exact h
  | cons first events ih =>
      rw [dedupe_cons_fst] at h
      split_ifs at h
      · rcases List.mem_cons.mp h with rfl | h
        · exact List.mem_cons_self
        · exact List.mem_cons_of_mem _ (ih h)
      · exact List.mem_cons_of_mem _ (ih h)
      · rcases List.mem_cons.mp h with rfl | h
        · exact List.mem_cons_self
        · exact List.mem_cons_of_mem _ (ih h)

section Projection

variable (fromisoformat : String → IsoReading)

theorem mem_validEntries {events : List Dict} {row : Entry}
    (h : row ∈ validEntries (stamped fromisoformat events)) : row.2 ∈ events := by
  obtain ⟨⟨event, instant⟩, hstamped, hrow⟩ := List.mem_filterMap.mp h
  obtain ⟨other, hother, heq⟩ := List.mem_map.mp hstamped
  obtain ⟨rfl, rfl⟩ := Prod.mk.inj heq
  split_ifs at hrow
  obtain ⟨instant, -, rfl⟩ := Option.map_eq_some_iff.mp hrow
  exact hother

/-- In a list of one session no entry is left out. -/
theorem sessionEntries_eq {entries : List Entry}
    (h : ∀ row ∈ entries, ∀ other ∈ entries, sessionText row.2 = sessionText other.2) :
    sessionEntries entries = entries := by
  by_cases hempty : entries = []
  · subst hempty
    rfl
  · obtain ⟨latest, hmem, hlatest⟩ :=
      firstBest_mem (fun row best : Entry => decide (best.1 < row.1)) hempty
    have hsession : latestSession entries = sessionText latest.2 := by
      rw [latestSession, hlatest]
    refine List.filter_eq_self.mpr fun row hrow => ?_
    rw [hsession, decide_eq_true_eq]
    exact h row hrow latest hmem

theorem currentEntries_congr {events events' : List Dict} (h : events.Perm events')
    (hrecords : OneRecordPerId events) (hsession : OneSession events) :
    (currentEntries fromisoformat events).Perm (currentEntries fromisoformat events') := by
  have hunique : (uniqueEvents events).Perm (uniqueEvents events') := dedupe_congr h hrecords ∅
  have hentries : (validEntries (stamped fromisoformat (uniqueEvents events))).Perm
      (validEntries (stamped fromisoformat (uniqueEvents events'))) :=
    (hunique.map _).filterMap _
  have hsame : ∀ row ∈ validEntries (stamped fromisoformat (uniqueEvents events)),
      ∀ other ∈ validEntries (stamped fromisoformat (uniqueEvents events)),
        sessionText row.2 = sessionText other.2 := fun row hrow other hother =>
    hsession _ (mem_of_mem_dedupe (mem_validEntries fromisoformat hrow)) _
      (mem_of_mem_dedupe (mem_validEntries fromisoformat hother))
  unfold currentEntries
  rw [sessionEntries_eq hsame, sessionEntries_eq fun row hrow other hother =>
    hsame row (hentries.mem_iff.mpr hrow) other (hentries.mem_iff.mpr hother)]
  exact hentries

/-- What a projection reads is readable: the instants are inside the range of `datetime`, and the
payloads of the observations are mappings. -/
structure Readable (events : List Dict) (gateCompletedAt : Option String) : Prop where
  stamps : ∀ event ∈ uniqueEvents events, overflows fromisoformat (event.get "timestamp") = false
  payloads : hasOpaqueObservation (currentEntries fromisoformat events) = false
  gate : gateCompletedAt.getD "" ≠ "" →
    overflows fromisoformat (.str (gateCompletedAt.getD "")) = false

theorem prepareLifecycleEvents_eq (events : List Dict) :
    prepareLifecycleEvents fromisoformat events =
      if (uniqueEvents events).any fun event => overflows fromisoformat (event.get "timestamp") then
        .error "OverflowError"
      else .ok {
        sessionId := latestSession (validEntries (stamped fromisoformat (uniqueEvents events)))
        byItem := byItem (currentEntries fromisoformat events)
        diagnostics := preparationDiagnostics
          ((stamped fromisoformat (uniqueEvents events)).countP fun row => row.2.isNone)
          (dedupe ∅ events).2 } := by
  have hstamp := stampEvents_eq fromisoformat (uniqueEvents events)
  unfold uniqueEvents at hstamp
  simp only [prepareLifecycleEvents, hstamp, uniqueEvents, currentEntries]
  by_cases hany : ((dedupe ∅ events).1.any fun event =>
      overflows fromisoformat (event.get "timestamp")) = true
  all_goals
    simp only [hany, Bool.false_eq_true, if_true, if_false]
    rfl

theorem verifiedTimes_isOk {items : List LifecycleItem}
    (h : ∀ item ∈ items, item.eligible = true → item.Measured) :
    ∃ verified, verifiedTimes items = .ok verified := by
  have hmeasured : ∀ item ∈ items.filter (·.eligible), item.verifiedAt ≠ none :=
    fun item hitem =>
      (h item (List.mem_filter.mp hitem).1 (List.mem_filter.mp hitem).2).verifiedAt
  unfold verifiedTimes
  generalize items.filter (·.eligible) = rows at hmeasured ⊢
  induction rows with
  | nil => exact ⟨[], rfl⟩
  | cons item rest ih =>
      obtain ⟨instant, hinstant⟩ :=
        Option.ne_none_iff_exists'.mp (hmeasured item List.mem_cons_self)
      obtain ⟨verified, hverified⟩ :=
        ih fun other hother => hmeasured other (List.mem_cons_of_mem _ hother)
      exact ⟨instant :: verified, by rw [List.mapM_cons, hinstant, hverified]; rfl⟩

/-- A projection of what is readable does not raise. -/
theorem projectCrLifecycle_ok {events : List Dict} {gateCompletedAt : Option String}
    (h : Readable fromisoformat events gateCompletedAt) :
    ∃ report, projectCrLifecycle fromisoformat events gateCompletedAt = .ok report ∧
      report.items = itemsOf (currentEntries fromisoformat events) ∧
      lifecycleAggregates report.items = some report.aggregates := by
  have hstamps : ((uniqueEvents events).any fun event =>
      overflows fromisoformat (event.get "timestamp")) = false := by
    rw [List.any_eq_false]
    exact fun event hevent => by simp [h.stamps event hevent]
  obtain ⟨verified, hverified⟩ := verifiedTimes_isOk
    fun item (hitem : item ∈ itemsOf (currentEntries fromisoformat events)) =>
      itemsOf_measured hitem
  obtain ⟨aggregates, haggregates, -⟩ := lifecycleAggregates_isSome
    fun item (hitem : item ∈ itemsOf (currentEntries fromisoformat events)) =>
      itemsOf_measured hitem
  simp only [projectCrLifecycle, prepareLifecycleEvents_eq, hstamps, projectItems_eq, h.payloads,
    hverified, haggregates, Bool.false_eq_true, if_false, bind, Except.bind]
  by_cases hempty : gateCompletedAt.getD "" = ""
  · simp only [hempty, if_true]
    exact ⟨_, rfl, rfl, haggregates⟩
  · simp only [hempty, if_false, parseIsoDatetime_eq, h.gate hempty, Bool.false_eq_true]
    exact ⟨_, rfl, rfl, haggregates⟩

/-- A projection that does not raise has read what is readable. -/
theorem readable_of_projectCrLifecycle {events : List Dict} {gateCompletedAt : Option String}
    {report : LifecycleReport}
    (h : projectCrLifecycle fromisoformat events gateCompletedAt = .ok report) :
    Readable fromisoformat events gateCompletedAt := by
  simp only [projectCrLifecycle, prepareLifecycleEvents_eq] at h
  cases hstamps : (uniqueEvents events).any fun event =>
      overflows fromisoformat (event.get "timestamp") with
  | true => simp [hstamps, bind, Except.bind] at h
  | false =>
      simp only [hstamps, projectItems_eq, Bool.false_eq_true, if_false, bind, Except.bind] at h
      cases hpayloads : hasOpaqueObservation (currentEntries fromisoformat events) with
      | true => simp [hpayloads] at h
      | false =>
          obtain ⟨verified, hverified⟩ := verifiedTimes_isOk
            fun item (hitem : item ∈ itemsOf (currentEntries fromisoformat events)) =>
              itemsOf_measured hitem
          simp only [hpayloads, Bool.false_eq_true, if_false, hverified, parseIsoDatetime_eq] at h
          refine ⟨fun event hevent => ?_, hpayloads, fun hgiven => ?_⟩
          · simpa using List.any_eq_false.mp hstamps event hevent
          · cases hgate : overflows fromisoformat (.str (gateCompletedAt.getD "")) with
            | false => rfl
            | true => simp [hgiven, hgate] at h

/-- The metrics of the events are well defined: the projection does not raise, an eligible item
has all its stages, every item is eligible or excluded, and for the events of one session the
order does not matter. -/
structure WellDefined (events : List Dict) (gateCompletedAt : Option String)
    (report : LifecycleReport) : Prop where
  projected : projectCrLifecycle fromisoformat events gateCompletedAt = .ok report
  measured : ∀ item ∈ report.items, item.eligible = true → item.Measured
  counted : report.aggregates.eligibleItems + report.aggregates.excludedItems =
    report.items.length
  ordered : OneSession events → OneRecordPerId events → ∀ events', events.Perm events' →
    ∃ report', projectCrLifecycle fromisoformat events' gateCompletedAt = .ok report' ∧
      report'.aggregates = report.aggregates

theorem Readable.congr {events events' : List Dict} {gateCompletedAt : Option String}
    (h : Readable fromisoformat events gateCompletedAt) (hperm : events.Perm events')
    (hsession : OneSession events) (hrecords : OneRecordPerId events) :
    Readable fromisoformat events' gateCompletedAt where
  stamps event hevent :=
    h.stamps event ((dedupe_congr hperm hrecords ∅).mem_iff.mpr hevent)
  payloads := by
    have hentries := currentEntries_congr fromisoformat hperm hrecords hsession
    have hsame : hasOpaqueObservation (currentEntries fromisoformat events) =
        hasOpaqueObservation (currentEntries fromisoformat events') :=
      (ofType_congr hentries "finding_observed").any_eq
    rw [← hsame]
    exact h.payloads
  gate := h.gate

/-- The metrics are well defined exactly where every instant is in the range of `datetime` and
the observations of the session have mappings for payloads. -/
theorem wellDefined_iff_readable (events : List Dict) (gateCompletedAt : Option String) :
    (∃ report, WellDefined fromisoformat events gateCompletedAt report) ↔
      Readable fromisoformat events gateCompletedAt := by
  constructor
  · rintro ⟨report, h⟩
    exact readable_of_projectCrLifecycle fromisoformat h.projected
  · intro h
    obtain ⟨report, hreport, hitems, haggregates⟩ := projectCrLifecycle_ok fromisoformat h
    have hmeasured : ∀ item ∈ report.items, item.eligible = true → item.Measured := by
      rw [hitems]
      exact fun item => itemsOf_measured
    obtain ⟨aggregates, hsome, hcounted⟩ := lifecycleAggregates_isSome hmeasured
    obtain rfl : report.aggregates = aggregates := by
      rw [haggregates] at hsome
      exact Option.some.inj hsome
    refine ⟨report, hreport, hmeasured, hcounted, fun hsession hrecords events' hperm => ?_⟩
    obtain ⟨report', hreport', hitems', haggregates'⟩ :=
      projectCrLifecycle_ok fromisoformat (h.congr fromisoformat hperm hsession hrecords)
    have hperm' : report.items.Perm report'.items := by
      rw [hitems, hitems']
      exact itemsOf_congr (currentEntries_congr fromisoformat hperm hrecords hsession)
    have hsame := lifecycleAggregates_congr hmeasured hperm'
    rw [haggregates, haggregates'] at hsame
    exact ⟨report', hreport', (Option.some.inj hsame).symm⟩

end Projection

/-- An event that is stamped in the first hours of the calendar, on a clock ahead of UTC. -/
def earlyEvent : Dict := Dict.ofFields [("event_type", .str "finding_observed"),
  ("item_id", .str "local-finding:1"), ("session_id", .str "session-1"),
  ("timestamp", .str "0001-01-01T00:00:00+05:00")]

/-- What `fromisoformat` makes of its time stamp. -/
def readsEarly (text : String) : IsoReading :=
  if text = "0001-01-01T00:00:00+05:00" then .aware minDatetime 18000000000 else .invalid

theorem earlyEvent_raises :
    projectCrLifecycle readsEarly [earlyEvent] none = .error "OverflowError" := by
  have htimestamp : earlyEvent.get "timestamp" = .str "0001-01-01T00:00:00+05:00" := by
    simp [earlyEvent, Dict.get, Dict.ofFields]
  have hrecord : recordId earlyEvent = "" := by
    simp [recordId, Dict.textOr, earlyEvent, Dict.get, Dict.ofFields, Value.orElse, Value.truthy,
      Value.text]
  have hunique : uniqueEvents [earlyEvent] = [earlyEvent] := by
    simp [uniqueEvents, dedupe, hrecord]
  have hoverflow : overflows readsEarly (earlyEvent.get "timestamp") = true := by
    rw [htimestamp]
    decide +kernel
  simp [projectCrLifecycle, prepareLifecycleEvents_eq, hunique, hoverflow, bind, Except.bind]

end GhAddressCr.CrMetrics
