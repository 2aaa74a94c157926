import GhAddressCr.PyValue

/-!
# Effects on fields

Updates of a mapping that treat every key by itself: they leave what is there, write or remove
it, or fill it in where it is missing. Such updates can be composed, and doing one twice is doing
it once. So are updates that read other keys, as long as none writes what another reads.
-/
namespace GhAddressCr

/-- What an update does to the entry of one key. -/
inductive FieldEffect (α : Type*) where
  | keep
  | write (value : Option α)
  | fill (value : α)

namespace FieldEffect

variable {α : Type*}

def act : FieldEffect α → Option α → Option α
  | .keep, entry => entry
  | .write value, _ => value
  | .fill value, entry => entry.or (some value)

/-- First `earlier`, then `later`. -/
def after : (later earlier : FieldEffect α) → FieldEffect α
  | .keep, earlier => earlier
  | .write value, _ => .write value
  | .fill value, .keep => .fill value
  | .fill value, .write entry => .write (entry.or (some value))
  | .fill _, .fill earlier => .fill earlier

@[simp] theorem act_keep (entry : Option α) : act .keep entry = entry := rfl

@[simp] theorem act_write (value entry : Option α) : act (.write value) entry = value := rfl

@[simp] theorem act_after (later earlier : FieldEffect α) (entry : Option α) :
    (later.after earlier).act entry = later.act (earlier.act entry) := by
  cases later with
  | keep => rfl
  | write value => rfl
  | fill value =>
      cases earlier with
      | keep => rfl
      | write written => rfl
      | fill earlier => cases entry <;> rfl

/-- An effect has nothing left to do after it has acted. -/
@[simp] theorem act_act (effect : FieldEffect α) (entry : Option α) :
    effect.act (effect.act entry) = effect.act entry := by
  cases effect with
  | keep => rfl
  | write value => rfl
  | fill value => cases entry <;> rfl

end FieldEffect

/-- The update acts on each key by itself. -/
def Fieldwise (f : Dict → Dict) : Prop :=
  ∃ effect : String → FieldEffect Value, ∀ (d : Dict) (key : String),
    (f d)[key]? = (effect key).act d[key]?

namespace Fieldwise

variable {f g : Dict → Dict}

theorem id : Fieldwise fun d => d := ⟨fun _ => .keep, fun _ _ => rfl⟩

theorem comp (hg : Fieldwise g) (hf : Fieldwise f) : Fieldwise fun d => g (f d) := by
  obtain ⟨later, hlater⟩ := hg
  obtain ⟨earlier, hearlier⟩ := hf
  refine ⟨fun key => (later key).after (earlier key), fun d key => ?_⟩
  rw [hlater, hearlier, FieldEffect.act_after]

theorem set (hf : Fieldwise f) (key : String) (value : Value) :
    Fieldwise fun d => (f d).set key value := by
  have hset : Fieldwise fun d => d.set key value := by
    refine ⟨fun other => if key = other then .write (some value) else .keep, fun d other => ?_⟩
    by_cases hkey : key = other <;> simp [Dict.getElem?_set, hkey]
  exact hset.comp hf

theorem pop (hf : Fieldwise f) (key : String) : Fieldwise fun d => (f d).pop key := by
  have hpop : Fieldwise fun d => d.pop key := by
    refine ⟨fun other => if key = other then .write none else .keep, fun d other => ?_⟩
    by_cases hkey : key = other <;> simp [Dict.getElem?_pop, hkey]
  exact hpop.comp hf

theorem setDefault (hf : Fieldwise f) (key : String) (value : Value) :
    Fieldwise fun d => (f d).setDefault key value := by
  have hfill : Fieldwise fun d => d.setDefault key value := by
    refine ⟨fun other => if key = other then .fill value else .keep, fun d other => ?_⟩
    by_cases hkey : key = other
    · subst hkey
      cases hhas : d.has key with
      | true =>
          obtain ⟨entry, hfound⟩ := Option.isSome_iff_exists.mp hhas
          simp [Dict.setDefault, hhas, hfound, FieldEffect.act]
      | false =>
          have hnone : d[key]? = none := Option.isSome_eq_false_iff.mp hhas |> Option.isNone_iff_eq_none.mp
          simp [Dict.setDefault, hhas, hnone, FieldEffect.act, Dict.getElem?_set]
    · cases hhas : d.has key <;> simp [Dict.setDefault, hhas, hkey, Dict.getElem?_set]
  exact hfill.comp hf

/-- Another value if it shows, or else the one that is there. -/
theorem setOrElse (hf : Fieldwise f) (key : String) (value : Value) :
    Fieldwise fun d => (f d).set key (value.orElse ((f d).get key)) := by
  have hset : Fieldwise fun d => d.set key (value.orElse (d.get key)) := by
    refine ⟨fun other => if key = other then
      if value.truthy then .write (some value) else .fill .null else .keep, fun d other => ?_⟩
    by_cases hkey : key = other
    · subst hkey
      cases hshown : value.truthy with
      | true => simp [Dict.getElem?_set, Value.orElse, hshown]
      | false =>
          cases hfound : d[key]? <;>
            simp [Dict.getElem?_set, Value.orElse, hshown, Dict.get, hfound, FieldEffect.act]
    · simp [Dict.getElem?_set, hkey]
  exact hset.comp hf

theorem update (hf : Fieldwise f) (other : Dict) : Fieldwise fun d => (f d).update other := by
  have hupdate : Fieldwise fun d => d.update other := by
    refine ⟨fun key => (other[key]?).elim .keep fun value => .write (some value), fun d key => ?_⟩
    have hlookup : (d.update other)[key]? = other[key]?.or d[key]? :=
      KeyedRows.getElem?_overwrite d other key
    simp only [hlookup]
    cases other[key]? <;> rfl
  exact hupdate.comp hf

/-- Doing such an update twice is doing it once. -/
theorem idempotent (hf : Fieldwise f) (d : Dict) : f (f d) = f d := by
  obtain ⟨effect, heffect⟩ := hf
  refine Dict.ext fun key => ?_
  rw [heffect, heffect, FieldEffect.act_act]

end Fieldwise

/-- The mappings agree on every key but these. -/
def SameBut (keys : List String) (d d' : Dict) : Prop :=
  ∀ key, key ∉ keys → d'[key]? = d[key]?

namespace SameBut

variable {keys : List String} {d d' d'' : Dict}

theorem refl (d : Dict) : SameBut keys d d := fun _ _ => rfl

theorem trans (h : SameBut keys d d') (h' : SameBut keys d' d'') : SameBut keys d d'' :=
  fun key hkey => (h' key hkey).trans (h key hkey)

theorem symm (h : SameBut keys d d') : SameBut keys d' d := fun key hkey => (h key hkey).symm

theorem get (h : SameBut keys d d') {key : String} (hkey : key ∉ keys) : d'.get key = d.get key := by
  rw [Dict.get, Dict.get, h key hkey]

/-- A fieldwise update keeps what is the same. -/
theorem map {f : Dict → Dict} (hf : Fieldwise f) (h : SameBut keys d d') :
    SameBut keys (f d) (f d') := by
  obtain ⟨effect, heffect⟩ := hf
  intro key hkey
  rw [heffect, heffect, h key hkey]

theorem set {key : String} (hkey : key ∈ keys) (value : Value) : SameBut keys d (d.set key value) := by
  intro other hother
  rw [Dict.getElem?_set, if_neg]
  rintro rfl
  exact hother hkey

theorem pop {key : String} (hkey : key ∈ keys) : SameBut keys d (d.pop key) := by
  intro other hother
  rw [Dict.getElem?_pop, if_neg]
  rintro rfl
  exact hother hkey

theorem setDefault {key : String} (hkey : key ∈ keys) (value : Value) :
    SameBut keys d (d.setDefault key value) := by
  unfold Dict.setDefault
  split
  · exact refl d
  · exact set hkey value

end SameBut

/-- The update writes these keys, decides what to write by them and by those it reads, and has
nothing left to do after it has been done. -/
structure Settles (writes reads : List String) (f : Dict → Dict) : Prop where
  frame : ∀ d, SameBut writes d (f d)
  local_ : ∀ d d', (∀ key ∈ writes ++ reads, d'[key]? = d[key]?) →
    ∀ key ∈ writes, (f d')[key]? = (f d)[key]?
  idempotent : ∀ d, f (f d) = f d

theorem Fieldwise.settles {f : Dict → Dict} {writes : List String} (hf : Fieldwise f)
    (hframe : ∀ d, SameBut writes d (f d)) : Settles writes [] f where
  frame := hframe
  local_ d d' hsame key hkey := by
    obtain ⟨effect, heffect⟩ := hf
    rw [heffect, heffect, hsame key (by simpa using hkey)]
  idempotent := hf.idempotent

/-- An update of fields that is chosen by what it reads, and chosen again once it is done. -/
theorem Fieldwise.settles_choice {γ : Type*} {writes reads : List String} {choose : Dict → γ}
    {f : γ → Dict → Dict} (hf : ∀ choice, Fieldwise (f choice))
    (hframe : ∀ choice d, SameBut writes d (f choice d))
    (hreads : ∀ d d' : Dict, (∀ key ∈ writes ++ reads, d'[key]? = d[key]?) →
      choose d' = choose d)
    (hagain : ∀ d, choose (f (choose d) d) = choose d) :
    Settles writes reads fun d => f (choose d) d where
  frame d := hframe (choose d) d
  local_ d d' hsame key hkey := by
    obtain ⟨effect, heffect⟩ := hf (choose d)
    rw [hreads d d' hsame, heffect, heffect, hsame key (List.mem_append_left _ hkey)]
  idempotent d := by
    show f (choose (f (choose d) d)) (f (choose d) d) = f (choose d) d
    rw [hagain, (hf (choose d)).idempotent]

namespace Settles

variable {writes reads writes' reads' keys : List String} {f g : Dict → Dict}

theorem id : Settles writes reads fun d => d where
  frame := SameBut.refl
  local_ _ _ hsame key hkey := hsame key (List.mem_append_left _ hkey)
  idempotent _ := rfl

/-- What differs elsewhere only still does so after the update. -/
theorem sameBut (hf : Settles writes reads f) (hkeys : ∀ key ∈ writes ++ reads, key ∉ keys)
    {d d' : Dict} (h : SameBut keys d d') : SameBut keys (f d) (f d') := by
  intro key hkey
  by_cases hwritten : key ∈ writes
  · exact hf.local_ d d' (fun other hother => h other (hkeys other hother)) key hwritten
  · rw [hf.frame d key hwritten, hf.frame d' key hwritten, h key hkey]

theorem comp (hg : Settles writes' reads' g) (hf : Settles writes reads f)
    (hearlier : ∀ key ∈ writes, key ∉ writes' ++ reads')
    (hlater : ∀ key ∈ writes', key ∉ writes ++ reads) :
    Settles (writes ++ writes') (reads ++ reads') fun d => g (f d) where
  frame d key hkey := by
    rw [List.mem_append, not_or] at hkey
    rw [hg.frame (f d) key hkey.2, hf.frame d key hkey.1]
  local_ d d' hsame key hkey := by
    have hf' : ∀ key ∈ writes, (f d')[key]? = (f d)[key]? :=
      hf.local_ d d' fun other hother => hsame other (by
        simp only [List.mem_append] at hother ⊢
        tauto)
    have hread : ∀ key ∈ writes' ++ reads', (f d')[key]? = (f d)[key]? := by
      intro other hother
      have hwritten : other ∉ writes := fun hmem => hearlier other hmem hother
      rw [hf.frame d other hwritten, hf.frame d' other hwritten]
      apply hsame
      simp only [List.mem_append] at hother ⊢
      tauto
    by_cases hwritten : key ∈ writes'
    · exact hg.local_ (f d) (f d') hread key hwritten
    · rw [hg.frame (f d) key hwritten, hg.frame (f d') key hwritten]
      exact hf' key (by simpa [hwritten] using hkey)
  idempotent d := by
    refine Dict.ext fun key => ?_
    -- the later update leaves what the earlier one reads, and the other way round
    have hg' : ∀ key ∈ writes ++ reads, (g (f d))[key]? = (f d)[key]? := by
      intro other hother
      exact hg.frame (f d) other fun hmem => hlater other hmem hother
    have hf' : ∀ key ∈ writes' ++ reads', (f (g (f d)))[key]? = (g (f d))[key]? := by
      intro other hother
      exact hf.frame (g (f d)) other fun hmem => hearlier other hmem hother
    by_cases hwritten : key ∈ writes'
    · rw [hg.local_ (g (f d)) (f (g (f d))) hf' key hwritten, hg.idempotent]
    · rw [hg.frame (f (g (f d))) key hwritten]
      by_cases hwritten' : key ∈ writes
      · rw [hf.local_ (f d) (g (f d)) hg' key hwritten', hf.idempotent]
        exact (hg.frame (f d) key hwritten).symm
      · exact hf.frame (g (f d)) key hwritten'

end Settles

end GhAddressCr
