import Mathlib.Data.List.Basic
import Mathlib.Data.List.Nodup
import Mathlib.Data.List.Perm.Subperm

/-!
# Append-only logs

A log of records that a key identifies. A record whose key is taken adds nothing when it is the
record that has it, and cannot be written otherwise, so the log only grows at its end. An export
is the text of the records in the order of the log, one line each.
-/
namespace GhAddressCr.AppendOnlyLog

variable {α κ : Type*} (key : α → κ)

/-- No two records have one key. -/
def Keyed (log : List α) : Prop := (log.map key).Nodup

/-- `after` is `before` and then those of `records` whose keys were free. -/
structure Grows (before records after : List α) : Prop where
  added : ∃ added, after = before ++ added ∧
    ∀ record ∈ added, record ∈ records ∧ ∀ existing ∈ before, key existing ≠ key record
  holds : ∀ record ∈ records, record ∈ after
  keyed : Keyed key after

variable {key}

theorem Grows.refl {log : List α} (h : Keyed key log) : Grows key log [] log :=
  ⟨⟨[], by simp, by simp⟩, by simp, h⟩

theorem Grows.mem {before records after : List α} (h : Grows key before records after)
    {record : α} (hrecord : record ∈ before) : record ∈ after := by
  obtain ⟨added, rfl, -⟩ := h.added
  exact List.mem_append_left _ hrecord

theorem Grows.trans {before records middle records' after : List α}
    (h : Grows key before records middle) (h' : Grows key middle records' after) :
    Grows key before (records ++ records') after := by
  obtain ⟨added, hmiddle, hadded⟩ := h.added
  obtain ⟨added', hafter, hadded'⟩ := h'.added
  refine ⟨⟨added ++ added', by rw [hafter, hmiddle, List.append_assoc], ?_⟩, ?_, h'.keyed⟩
  · intro record hrecord
    rcases List.mem_append.mp hrecord with hrecord | hrecord
    · obtain ⟨hmem, hfree⟩ := hadded record hrecord
      exact ⟨List.mem_append_left _ hmem, hfree⟩
    · obtain ⟨hmem, hfree⟩ := hadded' record hrecord
      exact ⟨List.mem_append_right _ hmem, fun existing hexisting => hfree _ (h.mem hexisting)⟩
  · intro record hrecord
    rcases List.mem_append.mp hrecord with hrecord | hrecord
    · exact h'.mem (h.holds record hrecord)
    · exact h'.holds record hrecord

section Writing

variable [DecidableEq α] [DecidableEq κ]

variable (key) in
/-- Write one record; `none` where another record has its key. -/
def write (log : List α) (record : α) : Option (List α) :=
  match log.find? fun existing => key existing = key record with
  | some existing => if existing = record then some log else none
  | none => some (log ++ [record])

theorem write_grows {log log' : List α} {record : α} (hkeyed : Keyed key log)
    (h : write key log record = some log') : Grows key log [record] log' := by
  unfold write at h
  split at h
  · next existing hfind =>
    split at h
    · next hsame =>
      obtain rfl := Option.some.inj h
      have hmem := List.mem_of_find?_eq_some hfind
      rw [hsame] at hmem
      exact ⟨⟨[], by simp, by simp⟩, by simpa using hmem, hkeyed⟩
    · cases h
  · next hfind =>
    obtain rfl := Option.some.inj h
    have hfree : ∀ existing ∈ log, key existing ≠ key record := by
      simpa using List.find?_eq_none.mp hfind
    refine ⟨⟨[record], rfl, by simpa using hfree⟩, by simp, ?_⟩
    unfold Keyed
    rw [List.map_append, List.nodup_append]
    refine ⟨hkeyed, by simp, ?_⟩
    intro k hk k' hk'
    obtain ⟨existing, hexisting, rfl⟩ := List.mem_map.mp hk
    obtain rfl : k' = key record := by simpa using hk'
    exact hfree existing hexisting

theorem writeAll_grows {records log log' : List α} (hkeyed : Keyed key log)
    (h : records.foldlM (write key) log = some log') : Grows key log records log' := by
  induction records generalizing log with
  | nil =>
      obtain rfl : log = log' := by simpa using h
      exact .refl hkeyed
  | cons record records ih =>
      rw [List.foldlM_cons] at h
      obtain ⟨middle, hmiddle, hrest⟩ := Option.bind_eq_some_iff.mp h
      have hgrows := write_grows hkeyed hmiddle
      exact hgrows.trans (ih hgrows.keyed hrest)

end Writing

section Repeated

variable [BEq α] [LawfulBEq α]

theorem nodup_eraseDups (l : List α) : l.eraseDups.Nodup := by
  induction hn : l.length using Nat.strongRecOn generalizing l with
  | _ n ih =>
    cases l with
    | nil => simp
    | cons a l =>
        rw [List.eraseDups_cons, List.nodup_cons]
        have hshorter : (l.filter fun b => !b == a).length < n := by
          have hle := List.length_filter_le (fun b => !b == a) l
          simp only [List.length_cons] at hn
          omega
        exact ⟨by simp, ih _ hshorter _ rfl⟩

theorem eraseDups_of_nodup {l : List α} (h : l.Nodup) : l.eraseDups = l := by
  induction l with
  | nil => rfl
  | cons a l ih =>
      obtain ⟨hfresh, hl⟩ := List.nodup_cons.mp h
      have hothers : (l.filter fun b => !b == a) = l := by
        rw [List.filter_eq_self]
        intro b hb
        simpa using fun heq : b = a => hfresh (heq ▸ hb)
      rw [List.eraseDups_cons, hothers, ih hl]

theorem filter_eraseDups (p : α → Bool) (l : List α) :
    l.eraseDups.filter p = (l.filter p).eraseDups := by
  induction hn : l.length using Nat.strongRecOn generalizing l with
  | _ n ih =>
    cases l with
    | nil => simp
    | cons a l =>
        have hshorter : (l.filter fun b => !b == a).length < n := by
          have hle := List.length_filter_le (fun b => !b == a) l
          simp only [List.length_cons] at hn
          omega
        have hrest := ih _ hshorter (l.filter fun b => !b == a) rfl
        rw [List.eraseDups_cons]
        cases hp : p a with
        | true =>
            rw [List.filter_cons_of_pos hp, List.filter_cons_of_pos hp, List.eraseDups_cons, hrest,
              List.filter_filter, List.filter_filter]
            simp only [Bool.and_comm]
        | false =>
            -- what passes is none of the records equal to this one
            have hothers : (l.filter fun b => !b == a).filter p = l.filter p := by
              rw [List.filter_filter]
              refine List.filter_congr fun b _ => ?_
              by_cases hb : b = a
              · simp [hb, hp]
              · simp [hb]
            rw [List.filter_cons_of_neg (by simp [hp]), List.filter_cons_of_neg (by simp [hp]),
              hrest, hothers]

theorem length_eraseDups_eq_iff (l : List α) : l.eraseDups.length = l.length ↔ l.Nodup := by
  have hsubset : l.eraseDups ⊆ l := fun a ha => List.mem_eraseDups.mp ha
  constructor
  · intro hlength
    have hperm := ((nodup_eraseDups l).subperm hsubset).perm_of_length_le
      (Nat.le_of_eq hlength.symm)
    exact hperm.nodup_iff.mp (nodup_eraseDups l)
  · intro hnodup
    rw [eraseDups_of_nodup hnodup]

/-- Of the records of one kind, none is lost when repetitions are left out exactly when none of
them is a repetition. -/
theorem countP_eraseDups_eq_iff (p : α → Bool) (l : List α) :
    l.eraseDups.countP p = l.countP p ↔ (l.filter p).Nodup := by
  rw [List.countP_eq_length_filter, List.countP_eq_length_filter, filter_eraseDups,
    length_eraseDups_eq_iff]

end Repeated

section WritingRepeated

variable [DecidableEq α] [DecidableEq κ]

theorem write_eraseDups {records log' : List α} {record : α}
    (h : write key records.eraseDups record = some log') :
    log' = (records ++ [record]).eraseDups := by
  have hsplit : (records ++ [record]).eraseDups =
      records.eraseDups ++ ([record].removeAll records).eraseDups := List.eraseDups_append
  rw [hsplit]
  unfold write at h
  split at h
  · next existing hfind =>
    split at h
    · next hsame =>
      obtain rfl := Option.some.inj h
      have hmem : record ∈ records := by
        rw [← hsame]
        exact List.mem_eraseDups.mp (List.mem_of_find?_eq_some hfind)
      simp [List.removeAll, hmem]
    · cases h
  · next hfind =>
    obtain rfl := Option.some.inj h
    have hfresh : record ∉ records := by
      intro hmem
      have hother := List.find?_eq_none.mp hfind record (List.mem_eraseDups.mpr hmem)
      simp at hother
    simp [List.removeAll, hfresh, List.eraseDups_cons]

/-- The log that records are written to is the records without their repetitions. -/
theorem writeAll_eraseDups {before records log' : List α}
    (h : records.foldlM (write key) before.eraseDups = some log') :
    log' = (before ++ records).eraseDups := by
  induction records generalizing before with
  | nil =>
      obtain rfl : before.eraseDups = log' := by simpa using h
      rw [List.append_nil]
  | cons record records ih =>
      rw [List.foldlM_cons] at h
      obtain ⟨middle, hmiddle, hrest⟩ := Option.bind_eq_some_iff.mp h
      rw [write_eraseDups hmiddle] at hrest
      rw [ih hrest, List.append_assoc, List.singleton_append]

end WritingRepeated

/-- Written one by one, records give as many rows of every kind as they are exactly when none
was written twice. -/
theorem countP_eq_iff_nodup {α ι : Type*} [DecidableEq α] [DecidableEq ι] (kind : α → ι)
    {log records : List α} (hnodup : log.Nodup) (hmem : ∀ record, record ∈ log ↔ record ∈ records) :
    (∀ k, log.countP (kind · = k) = records.countP (kind · = k)) ↔ records.Nodup := by
  constructor
  · intro hcount
    refine List.nodup_iff_count_le_one.mpr fun record => ?_
    have hsubset : log.filter (kind · = kind record) ⊆ records.filter (kind · = kind record) := by
      intro other hother
      obtain ⟨hlog, hkind⟩ := List.mem_filter.mp hother
      exact List.mem_filter.mpr ⟨(hmem other).mp hlog, hkind⟩
    have hlength : (records.filter (kind · = kind record)).length ≤
        (log.filter (kind · = kind record)).length := by
      rw [← List.countP_eq_length_filter, ← List.countP_eq_length_filter]
      exact Nat.le_of_eq (hcount _).symm
    have hperm := ((hnodup.filter _).subperm hsubset).perm_of_length_le hlength
    have hfiltered := hperm.nodup_iff.mp (hnodup.filter _)
    have hone := List.nodup_iff_count_le_one.mp hfiltered record
    rwa [List.count_filter (by simp)] at hone
  · intro hrecords k
    exact ((List.perm_ext_iff_of_nodup hnodup hrecords).mpr hmem).countP_eq _

section Export

variable {α : Type*} (encode : α → List UInt8)

/-- The lines of a log. -/
def render (log : List α) : List UInt8 := log.flatMap fun record => encode record ++ [10]

@[simp] theorem render_nil : render encode [] = [] := rfl

@[simp] theorem render_append (log log' : List α) :
    render encode (log ++ log') = render encode log ++ render encode log' := by
  simp [render]

theorem render_take_drop (log : List α) (n : Nat) :
    render encode (log.take n) ++ render encode (log.drop n) = render encode log := by
  rw [← render_append, List.take_append_drop]

/-- An export of a part of the log that is as long as the whole export is the whole. -/
theorem render_take_of_length {log : List α} {n : Nat}
    (h : (render encode log).length ≤ (render encode (log.take n)).length) :
    render encode (log.take n) = render encode log := by
  have hsplit := render_take_drop encode log n
  have hlength := congrArg List.length hsplit
  rw [List.length_append] at hlength
  have hempty : render encode (log.drop n) = [] :=
    List.eq_nil_of_length_eq_zero (by omega)
  rw [← hsplit, hempty, List.append_nil]

end Export

end GhAddressCr.AppendOnlyLog
