import GhAddressCr.KeyedRows
import GhAddressCr.PyText
import Mathlib.Algebra.Group.Int.Defs

/-!
# Python values

The values a JSON document decodes to, and instants, which programs hold as aware
`datetime` objects and write as ISO texts. A `Dict` is a mapping from strings up to the
order of its keys, as Python's `==` compares them; loops over it run in key order.
-/
namespace GhAddressCr

open PyText

/-- A decoded JSON value or an instant. A float is `mantissa * 10 ^ exponent`. -/
inductive Value where
  | null
  | bool (b : Bool)
  | int (i : Int)
  | float (mantissa exponent : Int)
  | str (s : String)
  | time (instant : Int)
  | list (values : List Value)
  | dict (fields : List (String × Value))

namespace Value

mutual

/-- Structural equality, as a computation. -/
def beq : Value → Value → Bool
  | .null, .null => true
  | .bool a, .bool b => a == b
  | .int a, .int b => a == b
  | .float m e, .float m' e' => m == m' && e == e'
  | .str a, .str b => a == b
  | .time a, .time b => a == b
  | .list a, .list b => beqList a b
  | .dict a, .dict b => beqFields a b
  | _, _ => false

def beqList : List Value → List Value → Bool
  | [], [] => true
  | a :: as, b :: bs => beq a b && beqList as bs
  | _, _ => false

def beqFields : List (String × Value) → List (String × Value) → Bool
  | [], [] => true
  | (k, a) :: as, (l, b) :: bs => k == l && beq a b && beqFields as bs
  | _, _ => false

end

mutual

theorem beq_iff (a b : Value) : beq a b = true ↔ a = b := by
  cases a <;> cases b <;> simp only [beq, beq_iff_eq, Bool.and_eq_true, reduceCtorEq,
    Bool.false_eq_true, bool.injEq, int.injEq, float.injEq, str.injEq, time.injEq,
    list.injEq, dict.injEq]
  · exact beqList_iff _ _
  · exact beqFields_iff _ _

theorem beqList_iff (as bs : List Value) : beqList as bs = true ↔ as = bs := by
  cases as with
  | nil => cases bs <;> simp [beqList]
  | cons a as =>
      cases bs with
      | nil => simp [beqList]
      | cons b bs => simp [beqList, beq_iff a b, beqList_iff as bs]

theorem beqFields_iff (as bs : List (String × Value)) : beqFields as bs = true ↔ as = bs := by
  cases as with
  | nil => cases bs <;> simp [beqFields]
  | cons a as =>
      obtain ⟨k, a⟩ := a
      cases bs with
      | nil => simp [beqFields]
      | cons b bs =>
          obtain ⟨l, b⟩ := b
          simp [beqFields, beq_iff a b, beqFields_iff as bs, and_assoc]

end

instance : DecidableEq Value := fun a b => decidable_of_iff _ (beq_iff a b)

/-- Truth in a Boolean context. -/
def truthy : Value → Bool
  | .null => false
  | .bool b => b
  | .int i => i != 0
  | .float m _ => m != 0
  | .str s => s != ""
  | .time _ => true
  | .list values => !values.isEmpty
  | .dict fields => !fields.isEmpty

/-- `a or b`. -/
def orElse (a b : Value) : Value := if a.truthy then a else b

/-- `repr` of a float: its shortest digits, positional from `1e-4` up to `1e16` and in
scientific notation elsewhere. -/
def reprFloat (mantissa exponent : Int) : String :=
  if mantissa = 0 then "0.0"
  else
    let ds := (toString mantissa.natAbs).toList
    let core := (ds.reverse.dropWhile (· == '0')).reverse
    let point : Int := ds.length + exponent
    let sign := if mantissa < 0 then "-" else ""
    let zeros := fun n : Nat => List.replicate n '0'
    if -4 < point ∧ point ≤ 16 then
      if point ≤ 0 then
        sign ++ "0." ++ String.ofList (zeros (-point).toNat ++ core)
      else if core.length ≤ point.toNat then
        sign ++ String.ofList (core ++ zeros (point.toNat - core.length)) ++ ".0"
      else
        sign ++ String.ofList (core.take point.toNat) ++ "." ++
          String.ofList (core.drop point.toNat)
    else
      let e := point - 1
      let power := toString e.natAbs
      sign ++ String.ofList (core.take 1) ++
        (if core.length ≤ 1 then "" else "." ++ String.ofList (core.drop 1)) ++
        (if e < 0 then "e-" else "e+") ++ (if power.length < 2 then "0" ++ power else power)

/-- `repr` of a string; characters outside ASCII are shown as they are. -/
def reprStr (s : String) : String :=
  let cs := s.toList
  let single := Char.ofNat 39
  let double := Char.ofNat 34
  let backslash := Char.ofNat 92
  let quote := if cs.contains single && !cs.contains double then double else single
  let escape := fun c : Char =>
    if c = quote ∨ c = backslash then [backslash, c]
    else if c.toNat = 10 then [backslash, 'n']
    else if c.toNat = 13 then [backslash, 'r']
    else if c.toNat = 9 then [backslash, 't']
    else if c.toNat < 32 ∨ c.toNat = 127 then
      [backslash, 'x', Nat.digitChar (c.toNat / 16), Nat.digitChar (c.toNat % 16)]
    else [c]
  String.ofList (quote :: cs.flatMap escape ++ [quote])

mutual

/-- `repr(value)`; an instant is shown by its number. -/
def repr : Value → String
  | .null => "None"
  | .bool b => if b then "True" else "False"
  | .int i => toString i
  | .float m e => reprFloat m e
  | .str s => reprStr s
  | .time t => toString t
  | .list values => "[" ++ reprList values ++ "]"
  | .dict fields => "\x7b" ++ reprFields fields ++ "\x7d"

def reprList : List Value → String
  | [] => ""
  | [v] => repr v
  | v :: vs => repr v ++ ", " ++ reprList vs

def reprFields : List (String × Value) → String
  | [] => ""
  | [(k, v)] => reprStr k ++ ": " ++ repr v
  | (k, v) :: fs => reprStr k ++ ": " ++ repr v ++ ", " ++ reprFields fs

end

/-- `str(value)`. -/
def text : Value → String
  | .str s => s
  | v => v.repr

/-- `int(value)`; `none` where it raises `TypeError` or `ValueError`. -/
def toInt? : Value → Option Int
  | .bool b => some (if b then 1 else 0)
  | .int i => some i
  | .float m e => some (if 0 ≤ e then m * 10 ^ e.toNat else m.tdiv (10 ^ (-e).toNat))
  | .str s => parseInt s.toList
  | _ => none

@[simp] theorem truthy_null : truthy .null = false := rfl
@[simp] theorem truthy_bool (b : Bool) : truthy (.bool b) = b := rfl
@[simp] theorem truthy_str (s : String) : truthy (.str s) = (s != "") := rfl
@[simp] theorem text_str (s : String) : text (.str s) = s := rfl

theorem text_ne_empty {value : Value} (h : value.truthy = true) : value.text ≠ "" := by
  cases value with
  | null => simp at h
  | bool b => cases b <;> simp [text, repr]
  | int i =>
      simp only [text, repr]
      cases i <;> simp [toString, Int.repr]
  | float m e =>
      have hm : m ≠ 0 := by simpa [truthy] using h
      simp only [text, repr, reprFloat, if_neg hm]
      split_ifs <;> simp
  | str s => simpa using h
  | time t =>
      simp only [text, repr]
      cases t <;> simp [toString, Int.repr]
  | list values => simp [text, repr]
  | dict fields => simp [text, repr]

end Value

/-- A mapping from strings to values. -/
abbrev Dict := Std.ExtTreeMap String Value compare

-- By name, so that every module decides on rows and cursors by the same instances.
instance dictLawfulBEq : LawfulBEq Dict := inferInstance

instance optionStringLawfulBEq : LawfulBEq (Option String) := inferInstance

namespace Dict

/-- The mapping a literal with these entries builds. -/
def ofFields (fields : List (String × Value)) : Dict :=
  fields.foldl (fun d f => d.insert f.1 f.2) ∅

/-- `d.get(key)`. -/
def get (d : Dict) (key : String) : Value := d[key]?.getD .null

/-- `key in d`. -/
def has (d : Dict) (key : String) : Bool := d[key]?.isSome

/-- `str(d.get(key) or default)`. -/
def textOr (d : Dict) (key default : String) : String :=
  ((d.get key).orElse (.str default)).text

/-- `d[key] = value`. -/
def set (d : Dict) (key : String) (value : Value) : Dict := d.insert key value

/-- `d.pop(key, None)`. -/
def pop (d : Dict) (key : String) : Dict := d.erase key

/-- `d.update(other)`. -/
def update (d other : Dict) : Dict := other.toList.foldl (fun d f => d.set f.1 f.2) d

/-- The mapping as a value. -/
def toValue (d : Dict) : Value := .dict d.toList

@[simp] theorem get_set (d : Dict) (key other : String) (value : Value) :
    (d.set key value).get other = if key = other then value else d.get other := by
  by_cases h : key = other <;> simp [get, set, Std.ExtTreeMap.getElem?_insert, h]

theorem get_insert (d : Dict) (key other : String) (value : Value) :
    get (d.insert key value) other = if key = other then value else d.get other :=
  get_set d key other value

@[simp] theorem get_pop (d : Dict) (key other : String) :
    (d.pop key).get other = if key = other then .null else d.get other := by
  by_cases h : key = other <;> simp [get, pop, Std.ExtTreeMap.getElem?_erase, h]

@[simp] theorem has_set (d : Dict) (key other : String) (value : Value) :
    (d.set key value).has other = (decide (key = other) || d.has other) := by
  by_cases h : key = other <;> simp [has, set, Std.ExtTreeMap.getElem?_insert, h]

theorem has_insert (d : Dict) (key other : String) (value : Value) :
    has (d.insert key value) other = (decide (key = other) || d.has other) :=
  has_set d key other value

@[simp] theorem get_empty (key : String) : get ∅ key = .null := by
  simp [get]

@[simp] theorem has_empty (key : String) : has ∅ key = false := by
  simp [has]

@[simp] theorem has_pop (d : Dict) (key other : String) :
    (d.pop key).has other = (!decide (key = other) && d.has other) := by
  by_cases h : key = other <;> simp [has, pop, Std.ExtTreeMap.getElem?_erase, h]

theorem textOr_of_truthy {d : Dict} {key : String} (default : String)
    (h : (d.get key).truthy = true) : d.textOr key default = (d.get key).text := by
  simp [textOr, Value.orElse, h]

theorem textOr_eq_empty {d : Dict} {key : String} :
    d.textOr key "" = "" ↔ (d.get key).truthy = false := by
  cases h : (d.get key).truthy with
  | true => simp [textOr_of_truthy "" h, Value.text_ne_empty h]
  | false => simp [textOr, Value.orElse, h]

theorem getElem?_set (d : Dict) (key other : String) (value : Value) :
    (d.set key value)[other]? = if key = other then some value else d[other]? := by
  by_cases h : key = other <;> simp [set, Std.ExtTreeMap.getElem?_insert, h]

theorem getElem?_pop (d : Dict) (key other : String) :
    (d.pop key)[other]? = if key = other then none else d[other]? := by
  by_cases h : key = other <;> simp [pop, Std.ExtTreeMap.getElem?_erase, h]

protected theorem ext {d e : Dict} (h : ∀ key : String, d[key]? = e[key]?) : d = e :=
  Std.ExtTreeMap.ext_getElem? h

/-- `d.setdefault(key, value)`, for its effect. -/
def setDefault (d : Dict) (key : String) (value : Value) : Dict :=
  if d.has key then d else d.set key value

theorem get_setDefault_of_ne (d : Dict) {key other : String} (value : Value) (h : key ≠ other) :
    (d.setDefault key value).get other = d.get other := by
  unfold setDefault
  split <;> simp [h]

theorem has_setDefault_of_ne (d : Dict) {key other : String} (value : Value) (h : key ≠ other) :
    (d.setDefault key value).has other = d.has other := by
  unfold setDefault
  split <;> simp [h]

theorem get_update (d other : Dict) (key : String) :
    (d.update other).get key = if other.has key then other.get key else d.get key := by
  have hupdate : (d.update other)[key]? = other[key]?.or d[key]? :=
    KeyedRows.getElem?_overwrite d other key
  unfold get has
  rw [hupdate]
  cases other[key]? <;> simp

theorem ofFields_toList (d : Dict) : ofFields d.toList = d := by
  refine Dict.ext fun key => ?_
  have hlookup : (ofFields d.toList)[key]? = d[key]?.or (∅ : Dict)[key]? :=
    KeyedRows.getElem?_overwrite ∅ d key
  simpa using hlookup

end Dict

namespace Value

/-- A value that is a mapping, as one (`isinstance(value, dict)`). -/
def toDict? : Value → Option Dict
  | .dict fields => some (Dict.ofFields fields)
  | _ => none

@[simp] theorem toDict?_toValue (d : Dict) : d.toValue.toDict? = some d := by
  simp only [Dict.toValue, toDict?, Dict.ofFields_toList]

/-- `value.get(key)` of a mapping; null for other values. -/
def field (value : Value) (key : String) : Value := (value.toDict?.map (·.get key)).getD .null

/-- The number `mantissa * 10 ^ -scale`, an integer where it is one. -/
def canonNumber (mantissa : Int) : Nat → Value
  | 0 => .int mantissa
  | scale + 1 =>
      if mantissa % 10 = 0 then canonNumber (mantissa / 10) scale
      else .float mantissa (-(scale + 1))

mutual

/-- A representative of the values that are `==` to a value. -/
def canon : Value → Value
  | .bool b => .int (if b then 1 else 0)
  | .float m e => if 0 ≤ e then .int (m * 10 ^ e.toNat) else canonNumber m (-e).toNat
  | .list values => .list (canonList values)
  | .dict fields => (Dict.ofFields (canonFields fields)).toValue
  | value => value

def canonList : List Value → List Value
  | [] => []
  | value :: values => canon value :: canonList values

def canonFields : List (String × Value) → List (String × Value)
  | [] => []
  | (key, value) :: fields => (key, canon value) :: canonFields fields

end

/-- `a == b`. -/
def pyEq (a b : Value) : Bool := canon a = canon b

@[simp] theorem pyEq_refl (a : Value) : pyEq a a = true := decide_eq_true rfl

/-- The key and the value of a pair that `dict` is given. -/
def toPair? : Value → Option (String × Value)
  | .list [.str key, value] => some (key, value)
  | .str s =>
      match s.toList with
      | [a, b] => some (String.singleton a, .str (String.singleton b))
      | _ => none
  | _ => none

/-- `dict(value)`; `none` where it raises. -/
def toMapping? : Value → Option Dict
  | .dict fields => some (Dict.ofFields fields)
  | .list pairs => (pairs.mapM toPair?).map Dict.ofFields
  | .str s => if s = "" then some ∅ else none
  | _ => none

end Value

end GhAddressCr
