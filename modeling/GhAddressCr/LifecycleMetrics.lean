import GhAddressCr.ReviewLifecycle
import Mathlib.Data.List.Perm.Basic
import Mathlib.Data.List.Perm.Lattice
import Mathlib.Tactic.NormNum

/-!
# Lifecycle metrics are well defined

A projection raises only on what it cannot read. Otherwise an eligible item has all its stages,
and the aggregates depend on the events and not on their order.
-/
namespace GhAddressCr.CrMetrics

open PyText OrderStatistics Binary64

theorem min?_congr {values values' : List Int} (h : values.Perm values') :
    values.min? = values'.min? := by
  cases hmin : values.min? with
  | none =>
      rw [List.min?_eq_none_iff] at hmin
      subst hmin
      rw [h.nil_eq.symm]
      rfl
  | some low =>
      rw [List.min?_eq_some_iff] at hmin
      refine (List.min?_eq_some_iff.mpr ⟨h.mem_iff.mp hmin.1, fun value hvalue => ?_⟩).symm
      exact hmin.2 value (h.mem_iff.mpr hvalue)

theorem max?_congr {values values' : List Int} (h : values.Perm values') :
    values.max? = values'.max? := by
  cases hmax : values.max? with
  | none =>
      rw [List.max?_eq_none_iff] at hmax
      subst hmax
      rw [h.nil_eq.symm]
      rfl
  | some high =>
      rw [List.max?_eq_some_iff] at hmax
      refine (List.max?_eq_some_iff.mpr ⟨h.mem_iff.mp hmax.1, fun value hvalue => ?_⟩).symm
      exact hmax.2 value (h.mem_iff.mpr hvalue)

/-- The rank of the ninetieth percentile is a place in the list. -/
theorem rank_le {n : Nat} (hn : 0 < n) :
    (max 1 ⌈toDouble (toDouble (9 / 10) * toDouble n)⌉ - 1).toNat < n := by
  have hfactor : toDouble (9 / 10) ≤ 9 / 10 * (1 + 1 / 2 ^ 53) := toDouble_le (by norm_num)
  have hfactor' : 0 ≤ toDouble (9 / 10) := toDouble_nonneg (by norm_num)
  have hcount : toDouble n ≤ n * (1 + 1 / 2 ^ 53) := toDouble_le (Nat.cast_nonneg n)
  have hcount' : 0 ≤ toDouble n := toDouble_nonneg (Nat.cast_nonneg n)
  have hproduct : toDouble (9 / 10) * toDouble n ≤
      9 / 10 * (1 + 1 / 2 ^ 53) * (n * (1 + 1 / 2 ^ 53)) :=
    mul_le_mul hfactor hcount hcount' (by norm_num)
  have hrounded := toDouble_le (mul_nonneg hfactor' hcount')
  have hn' : (1 : ℚ) ≤ n := by exact_mod_cast hn
  have hbound : toDouble (toDouble (9 / 10) * toDouble n) ≤ n := by
    refine hrounded.trans ?_
    have hscaled := mul_le_mul_of_nonneg_right hproduct
      (by norm_num : (0 : ℚ) ≤ 1 + 1 / 2 ^ 53)
    refine hscaled.trans ?_
    nlinarith
  have hceil : ⌈toDouble (toDouble (9 / 10) * toDouble n)⌉ ≤ (n : ℤ) :=
    Int.ceil_le.mpr (by exact_mod_cast hbound)
  omega

theorem selectKth_isSome {values : List Int} {index : Nat} (h : index < values.length) :
    ∃ value, selectKth values index = some value := by
  rw [selectKth_eq]
  exact ⟨_, List.getElem?_eq_getElem (by simpa using h)⟩

theorem median_isSome {values : List Int} (h : values ≠ []) :
    ∃ middle, median values = some middle := by
  have hlength : 0 < values.length := List.length_pos_iff.mpr h
  unfold median
  simp only
  split_ifs with hodd
  · exact selectKth_isSome (by omega)
  · have hlow : values.length / 2 - 1 < values.length := by omega
    have hhigh : values.length / 2 < values.length := by omega
    obtain ⟨low, hlow⟩ := selectKth_isSome hlow
    obtain ⟨high, hhigh⟩ := selectKth_isSome hhigh
    simp [hlow, hhigh]

theorem distribution_isSome (values : List Int) (total : Nat) :
    ∃ result, distribution values total = some result := by
  unfold distribution
  split_ifs with hempty
  · exact ⟨_, rfl⟩
  · obtain ⟨middle, hmiddle⟩ := median_isSome hempty
    have hrank := rank_le (List.length_pos_iff.mpr hempty)
    obtain ⟨p90, hp90⟩ := selectKth_isSome hrank
    have hpercentile : percentile values (9 / 10) = some p90 := hp90
    simp [hmiddle, hpercentile]

theorem median_congr {values values' : List Int} (h : values.Perm values') :
    median values = median values' := by
  simp only [median, selectKth_eq, sorted_congr h, h.length_eq]

theorem percentile_congr {values values' : List Int} (h : values.Perm values') (q : ℚ) :
    percentile values q = percentile values' q := by
  simp only [percentile, selectKth_eq, sorted_congr h, h.length_eq]

theorem distribution_congr {values values' : List Int} (h : values.Perm values') (total : Nat) :
    distribution values total = distribution values' total := by
  have hempty : values = [] ↔ values' = [] := by
    constructor
    · rintro rfl
      exact h.nil_eq.symm
    · rintro rfl
      exact h.eq_nil
  simp only [distribution, hempty, median_congr h, percentile_congr h, min?_congr h, max?_congr h,
    h.length_eq]

theorem truncate_nonneg {x : ℚ} (hx : 0 ≤ x) : 0 ≤ truncate x := by
  rw [truncate, if_pos hx]
  exact Int.floor_nonneg.mpr hx

theorem durationMs_nonneg {start stop : Option Int} {duration : Int}
    (h : durationMs start stop = some duration) : 0 ≤ duration := by
  unfold durationMs at h
  split at h
  · next start stop =>
    split_ifs at h with hbefore
    obtain rfl := Option.some.inj h
    have horder : (start : ℚ) ≤ stop := by exact_mod_cast not_lt.mp hbefore
    have hseconds : (0 : ℚ) ≤ (stop - start) / 1000000 := by
      apply div_nonneg <;> linarith
    exact truncate_nonneg (toDouble_nonneg (mul_nonneg (toDouble_nonneg hseconds) (by norm_num)))
  · cases h

/-- Every stage of the item has a duration, which is not negative. -/
structure LifecycleItem.Measured (item : LifecycleItem) : Prop where
  addressed : ∃ duration, item.durations.observedToAddressed = some duration ∧ 0 ≤ duration
  verified : ∃ duration, item.durations.addressedToVerified = some duration ∧ 0 ≤ duration
  whole : ∃ duration, item.durations.observedToVerified = some duration ∧ 0 ≤ duration
  verifiedAt : item.verifiedAt ≠ none

theorem durationMs_isSome {start stop : Option Int} (hstart : start ≠ none) (hstop : stop ≠ none)
    (hduration : start ≠ none → stop ≠ none → durationMs start stop ≠ none) :
    ∃ duration, durationMs start stop = some duration ∧ 0 ≤ duration := by
  obtain ⟨duration, h⟩ := Option.ne_none_iff_exists'.mp (hduration hstart hstop)
  exact ⟨duration, h, durationMs_nonneg h⟩

/-- An item is eligible only with all its stages. -/
theorem lifecycleItem_measured {itemId : String} {entries : List Entry} {observedAt : Int}
    {kinds : List String}
    (heligible : (lifecycleItem itemId entries observedAt kinds).eligible = true) :
    (lifecycleItem itemId entries observedAt kinds).Measured := by
  simp only [lifecycleItem, LifecycleItem.eligible, exclusions, List.isEmpty_iff,
    List.append_eq_nil_iff, ite_eq_right_iff, reduceCtorEq, imp_false, not_and] at heligible
  obtain ⟨⟨⟨⟨-, haddressed⟩, hverified⟩, hfirst⟩, hwhole⟩ := heligible.1
  have hsecond := heligible.2
  refine ⟨durationMs_isSome (Option.some_ne_none _) haddressed fun _ => hfirst,
    durationMs_isSome haddressed hverified hsecond,
    durationMs_isSome (Option.some_ne_none _) hverified fun _ => hwhole, hverified⟩

theorem mapM_guarded {ε α β : Type} (bad : α → Bool) (error : ε) (f : α → β) (xs : List α) :
    (xs.mapM fun x => if bad x then (.error error : Except ε β) else .ok (f x)) =
      if xs.any bad then .error error else .ok (xs.map f) := by
  induction xs with
  | nil => rfl
  | cons x xs ih =>
      rw [List.mapM_cons, ih]
      cases hbad : bad x with
      | true => simp [hbad, bind, Except.bind]
      | false => cases hany : xs.any bad <;> simp [hbad, hany, bind, Except.bind, pure, Except.pure]

section Events

variable (fromisoformat : String → IsoReading)

/-- The value is a time stamp whose instant in UTC a `datetime` cannot hold. -/
def overflows (value : Value) : Bool :=
  match value with
  | .str text => (fromisoformat (withUtcOffset text)).outOfRange
  | _ => false

/-- The instant that a text stands for. -/
def IsoReading.instant : IsoReading → Option Int
  | .invalid => none
  | .naive instant => some instant
  | .aware wall offset => some (wall - offset)

def instantOf (value : Value) : Option Int :=
  match value with
  | .str text => (fromisoformat (withUtcOffset text)).instant
  | _ => none

theorem parseIsoDatetime_eq (value : Value) : parseIsoDatetime fromisoformat value =
    if overflows fromisoformat value then .error "OverflowError"
    else .ok (instantOf fromisoformat value) := by
  unfold parseIsoDatetime overflows instantOf
  cases value with
  | str text =>
      cases hreading : fromisoformat (withUtcOffset text) with
      | invalid => simp [hreading, IsoReading.outOfRange, IsoReading.instant]
      | naive instant => simp [hreading, IsoReading.outOfRange, IsoReading.instant]
      | aware wall offset => simp [hreading, IsoReading.instant]
  | _ => rfl

/-- The events with their instants. -/
def stamped (events : List Dict) : List (Dict × Option Int) :=
  events.map fun event => (event, instantOf fromisoformat (event.get "timestamp"))

theorem stampEvents_eq (events : List Dict) : stampEvents fromisoformat events =
    if events.any fun event => overflows fromisoformat (event.get "timestamp") then
      .error "OverflowError"
    else .ok (stamped fromisoformat events) := by
  rw [stamped, ← mapM_guarded]
  unfold stampEvents
  congr 1
  funext event
  rw [parseIsoDatetime_eq]
  cases overflows fromisoformat (event.get "timestamp") <;> rfl

/-- The entries that are projected. -/
def currentEntries (events : List Dict) : List Entry :=
  sessionEntries (validEntries (stamped fromisoformat (uniqueEvents events)))

end Events

/-- An event whose payload is neither empty nor a mapping. -/
def hasOpaquePayload (event : Dict) : Bool :=
  (((event.get "payload").orElse (.dict [])).toDict?).isNone

def kindOf (event : Dict) : Option String :=
  (((event.get "payload").orElse (.dict [])).toDict?).bind fun payload =>
    if (payload.get "item_kind").truthy then some (payload.get "item_kind").text else none

theorem observedKind_eq (event : Dict) : observedKind event =
    if hasOpaquePayload event then .error "AttributeError" else .ok (kindOf event) := by
  unfold observedKind hasOpaquePayload kindOf
  cases ((event.get "payload").orElse (.dict [])).toDict? <;> rfl

/-- The kinds of the observations. -/
def kindsOf (observations : List Entry) : List String :=
  firstSeen (observations.filterMap fun row => kindOf row.2)

theorem observedKinds_eq (observations : List Entry) : observedKinds observations =
    if observations.any fun row => hasOpaquePayload row.2 then .error "AttributeError"
    else .ok (kindsOf observations) := by
  unfold observedKinds
  simp only [observedKind_eq]
  rw [mapM_guarded (fun row : Entry => hasOpaquePayload row.2) "AttributeError"
    (fun row => kindOf row.2)]
  cases observations.any fun row => hasOpaquePayload row.2 with
  | true => rfl
  | false => simp [kindsOf, bind, Except.bind, pure, Except.pure, List.filterMap_map]

/-- The first instant of an item: of its observations, if it has any. -/
def observedAtOf (entries : List Entry) : Int :=
  let observations := ofType "finding_observed" entries
  ((times (if observations.isEmpty then entries else observations)).min?).getD 0

/-- The item that the entries make. -/
def itemOf (row : String × List Entry) : LifecycleItem :=
  lifecycleItem row.1 row.2 (observedAtOf row.2) (kindsOf (ofType "finding_observed" row.2))

theorem projectLifecycleItem_eq {itemId : String} {entries : List Entry} (h : entries ≠ []) :
    projectLifecycleItem itemId entries =
      if (ofType "finding_observed" entries).any fun row => hasOpaquePayload row.2 then
        .error "AttributeError"
      else .ok (itemOf (itemId, entries)) := by
  have hearliest : earliest (times (if (ofType "finding_observed" entries).isEmpty then entries
      else ofType "finding_observed" entries)) = .ok (observedAtOf entries) := by
    have hnonempty : times (if (ofType "finding_observed" entries).isEmpty then entries
        else ofType "finding_observed" entries) ≠ [] := by
      unfold times
      rw [Ne, List.map_eq_nil_iff]
      split_ifs with hempty
      · exact h
      · simpa using hempty
    obtain ⟨first, hfirst⟩ := Option.ne_none_iff_exists'.mp
      (mt List.min?_eq_none_iff.mp hnonempty)
    simp only [earliest, observedAtOf, hfirst, Option.getD_some]
  unfold projectLifecycleItem
  simp only [hearliest, observedKinds_eq]
  cases (ofType "finding_observed" entries).any fun row => hasOpaquePayload row.2 <;> rfl

theorem mem_firstSeen {text : String} {texts : List String} :
    text ∈ firstSeen texts ↔ text ∈ texts := by
  induction texts with
  | nil => rfl
  | cons first texts ih =>
      simp only [firstSeen, List.mem_cons, List.mem_filter, ih, decide_eq_true_eq]
      tauto

theorem nodup_firstSeen (texts : List String) : (firstSeen texts).Nodup := by
  induction texts with
  | nil => exact List.nodup_nil
  | cons first texts ih => exact List.nodup_cons.mpr ⟨by simp, ih.filter _⟩

/-- Every item has entries, which are entries of the list. -/
theorem byItem_entries {entries : List Entry} {row : String × List Entry}
    (h : row ∈ byItem entries) : row.2 ≠ [] ∧ ∀ entry ∈ row.2, entry ∈ entries := by
  obtain ⟨itemId, hitem, rfl⟩ := List.mem_map.mp h
  obtain ⟨entry, hentry, hid⟩ := List.mem_map.mp (mem_firstSeen.mp hitem)
  refine ⟨List.ne_nil_of_mem (List.mem_filter.mpr ⟨hentry, by simpa using hid⟩), ?_⟩
  exact fun other hother => (List.mem_filter.mp hother).1

/-- An observation among the entries has a payload that is not a mapping. -/
def hasOpaqueObservation (entries : List Entry) : Bool :=
  (ofType "finding_observed" entries).any fun row => hasOpaquePayload row.2

theorem any_byItem (entries : List Entry) :
    (byItem entries).any (fun row => hasOpaqueObservation row.2) =
      hasOpaqueObservation entries := by
  rw [Bool.eq_iff_iff]
  simp only [hasOpaqueObservation, ofType, List.any_eq_true, List.mem_filter]
  constructor
  · rintro ⟨row, hrow, entry, ⟨hentry, htype⟩, hopaque⟩
    exact ⟨entry, ⟨(byItem_entries hrow).2 entry hentry, htype⟩, hopaque⟩
  · rintro ⟨entry, ⟨hentry, htype⟩, hopaque⟩
    refine ⟨(itemText entry.2, entries.filter fun row => itemText row.2 = itemText entry.2), ?_,
      entry, ⟨List.mem_filter.mpr ⟨hentry, by simp⟩, htype⟩, hopaque⟩
    exact List.mem_map.mpr ⟨_, mem_firstSeen.mpr (List.mem_map.mpr ⟨entry, hentry, rfl⟩), rfl⟩

/-- The items of the entries. -/
def itemsOf (entries : List Entry) : List LifecycleItem := (byItem entries).map itemOf

theorem projectItems_eq (entries : List Entry) :
    ((byItem entries).mapM fun row => projectLifecycleItem row.1 row.2) =
      if hasOpaqueObservation entries then .error "AttributeError"
      else .ok (itemsOf entries) := by
  rw [← any_byItem, itemsOf, ← mapM_guarded]
  have hrows : ∀ rows : List (String × List Entry), (∀ row ∈ rows, row.2 ≠ []) →
      (rows.mapM fun row => projectLifecycleItem row.1 row.2) =
        rows.mapM fun row => if hasOpaqueObservation row.2 then
          (.error "AttributeError" : Except String LifecycleItem) else .ok (itemOf row) := by
    intro rows hrows
    induction rows with
    | nil => rfl
    | cons row rows ih =>
        rw [List.mapM_cons, List.mapM_cons, ih fun other hother =>
          hrows other (List.mem_cons_of_mem row hother),
          projectLifecycleItem_eq (hrows row List.mem_cons_self)]
        rfl
  exact hrows _ fun row hrow => (byItem_entries hrow).1

theorem itemsOf_measured {entries : List Entry} {item : LifecycleItem}
    (hitem : item ∈ itemsOf entries) (heligible : item.eligible = true) : item.Measured := by
  obtain ⟨row, -, rfl⟩ := List.mem_map.mp hitem
  exact lifecycleItem_measured heligible

theorem mapM_some {α β : Type} {f : α → Option β} {g : α → β} {xs : List α}
    (h : ∀ x ∈ xs, f x = some (g x)) : xs.mapM f = some (xs.map g) := by
  induction xs with
  | nil => rfl
  | cons x xs ih =>
      rw [List.mapM_cons, h x List.mem_cons_self,
        ih fun other hother => h other (List.mem_cons_of_mem x hother)]
      rfl

/-- The stages of an item whose durations are known. -/
def candidatesOf (item : LifecycleItem) : List StageCandidate :=
  [⟨item.itemId, "observed_to_addressed", item.durations.observedToAddressed.getD 0⟩,
    ⟨item.itemId, "addressed_to_verified", item.durations.addressedToVerified.getD 0⟩]

theorem LifecycleItem.Measured.candidates {item : LifecycleItem} (h : item.Measured) :
    stageCandidates item = some (candidatesOf item) := by
  obtain ⟨addressed, haddressed, -⟩ := h.addressed
  obtain ⟨verified, hverified, -⟩ := h.verified
  simp [stageCandidates, candidatesOf, haddressed, hverified]

theorem Option.eq_some_getD {α : Type} {x : Option α} (d : α) (h : ∃ a, x = some a) :
    x = some (x.getD d) := by
  obtain ⟨a, rfl⟩ := h
  rfl

end GhAddressCr.CrMetrics
