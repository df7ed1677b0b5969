/-
# JSON values by path

What a JSON path library does with documents, as functions of a decoded value: reading (`Get`,
`ForEach`, `Array`, `Exists`, `String`, `Int`) and writing (`Set`).  A result that does not exist
is `none`; it differs from `null` in `Exists` and in `ForEach` only.

`Json.mapField` and `Json.mapItems` edit a value in place; writes through paths are compared with
them.  `Json.Same` is equality up to the order of the fields.
-/
import Mathlib.Algebra.Ring.Int.Defs
import KubernetesNmstate.Json

namespace Json

/-! ## Values in a value -/

/-- `Get` of one key. -/
def field (j : Json) (key : String) : Option Json :=
  match j with
  | .obj fields => JsonObject.get fields key
  | _ => none

/-- `Get` of keys joined by dots. -/
def path : List String → Json → Option Json
  | [], j => some j
  | key :: keys, j => (j.field key).bind (path keys)

/-- The values that `ForEach` visits. -/
def visited : Option Json → List Json
  | none => []
  | some (.arr items) => items
  | some (.obj fields) => fields.map Prod.snd
  | some j => [j]

/-- `Array`. -/
def elements : Option Json → List Json
  | none => []
  | some .null => []
  | some (.arr items) => items
  | some j => [j]

/-! ## Scalars -/

/-- `String`; `raw` is the text of numbers, arrays and objects. -/
def text (raw : Json → String) : Option Json → String
  | none => ""
  | some .null => ""
  | some (.bool true) => "true"
  | some (.bool false) => "false"
  | some (.str value) => value
  | some j => raw j

/-- The number that digits write. -/
def digits (cs : List Char) : ℕ := cs.foldl (fun n c => n * 10 + (c.toNat - '0'.toNat)) 0

/-- Wrapping to a 64-bit integer. -/
def wrap64 (v : ℤ) : ℤ := (v + 9223372036854775808) % 18446744073709551616 - 9223372036854775808

/-- A sign in front of a text. -/
def signed (parse : List Char → ℤ) : List Char → ℤ
  | '-' :: cs => -parse cs
  | cs => parse cs

/-- The integer part of a decimal literal without sign. -/
def integerPart (cs : List Char) : ℤ :=
  let mantissa := cs.takeWhile fun c => c ≠ 'e' ∧ c ≠ 'E'
  let exponent := signed (fun ds => digits (ds.filter Char.isDigit)) (cs.drop (mantissa.length + 1))
  let whole := mantissa.takeWhile fun c => c ≠ '.'
  let fraction := mantissa.drop (whole.length + 1)
  let scale := exponent - fraction.length
  if 0 ≤ scale then digits (whole ++ fraction) * 10 ^ scale.toNat
  else digits (whole ++ fraction) / 10 ^ (-scale).toNat

/-- `Int`: the integer part of a number, the number in a string of digits, zero otherwise. -/
def int : Option Json → ℤ
  | some (.bool true) => 1
  | some (.num literal) => wrap64 (signed integerPart literal.toList)
  | some (.str value) =>
    wrap64 (signed (fun cs => if cs.all Char.isDigit then digits cs else 0) value.toList)
  | _ => 0

/-- `String() == value`, for a text that writes no other kind of value. -/
def isText (result : Option Json) (value : String) : Bool :=
  match result with
  | some (.str s) => s = value
  | _ => false

/-! ## Writing -/

/-- A part of a path: a key, or a number. -/
inductive Part : Type where
  | key (key : String) : Part
  | index (n : ℕ) : Part
  deriving DecidableEq, Repr, Inhabited

/-- The text of a part, as the key of an object. -/
def Part.text : Part → String
  | key k => k
  | index n => toString n

/-- A value below a path that does not exist. -/
def build (value : Json) : List Part → Json
  | [] => value
  | .key k :: parts => .obj [(k, build value parts)]
  | .index n :: parts => .arr (List.replicate n .null ++ [build value parts])

/-- `Set`. -/
def set (value : Json) : List Part → Json → Except String Json
  | [], _ => .ok value
  | part :: parts, .obj fields =>
    match JsonObject.get fields part.text with
    | some child =>
      (set value parts child).map fun child => .obj (JsonObject.replace fields part.text child)
    | none => .ok (.obj (fields ++ [(part.text, build value parts)]))
  | .index n :: parts, .arr items =>
    match items[n]? with
    | some child => (set value parts child).map fun child => .arr (items.set n child)
    | none =>
      .ok (.arr (items ++ List.replicate (n - items.length) .null ++ [build value parts]))
  | .key k :: _, .arr _ => .error ("cannot set array element for non-numeric key '" ++ k ++ "'")
  | part :: parts, _ => .ok (build value (part :: parts))

variable {value : Json} {fields : JsonObject} {items : List Json} {parts : List Part}

/-- The same value, whatever the order of the fields of an object. -/
inductive Same : Json → Json → Prop
  | null : Same .null .null
  | bool (b : Bool) : Same (.bool b) (.bool b)
  | num (s : String) : Same (.num s) (.num s)
  | str (s : String) : Same (.str s) (.str s)
  | arr {xs ys : List Json} (hlen : xs.length = ys.length)
      (h : ∀ (i : ℕ) (x y : Json), xs[i]? = some x → ys[i]? = some y → Same x y) :
      Same (.arr xs) (.arr ys)
  | obj {f g : JsonObject} (hkeys : ∀ k, (f.get k).isSome = (g.get k).isSome)
      (h : ∀ (k : String) (x y : Json), f.get k = some x → g.get k = some y → Same x y) :
      Same (.obj f) (.obj g)

theorem Same.refl (j : Json) : Same j j := by
  induction j using Json.ind with
  | null => exact .null
  | bool b => exact .bool b
  | num s => exact .num s
  | str s => exact .str s
  | arr items ih =>
    refine .arr rfl fun i x y hx hy => ?_
    obtain rfl := Option.some.inj (hx.symm.trans hy)
    exact ih x (List.mem_of_getElem? hx)
  | obj fields ih =>
    refine .obj (fun _ => rfl) fun k x y hx hy => ?_
    obtain rfl := Option.some.inj (hx.symm.trans hy)
    exact ih (k, x) (JsonObject.mem_of_get hx)

/-- Results that both do not exist, or exist with the same value. -/
abbrev SameResult : Option Json → Option Json → Prop := Option.Rel Same

theorem Same.field {a b : Json} (h : Same a b) (k : String) :
    SameResult (a.field k) (b.field k) := by
  cases h with
  | obj hkeys h =>
    rename_i f g
    have hk := hkeys k
    simp only [Json.field]
    cases hf : f.get k with
    | none =>
      cases hg : g.get k with
      | none => exact .none
      | some y => simp [hf, hg] at hk
    | some x =>
      cases hg : g.get k with
      | none => simp [hf, hg] at hk
      | some y => exact .some (h k x y hf hg)
  | _ => exact .none

theorem Same.path {a b : Json} (h : Same a b) (keys : List String) :
    SameResult (a.path keys) (b.path keys) := by
  induction keys generalizing a b with
  | nil => exact .some h
  | cons k keys ih =>
    have hk := h.field k
    simp only [Json.path]
    generalize a.field k = r, b.field k = r' at hk ⊢
    cases hk with
    | none => exact .none
    | some hxy => exact ih hxy

theorem SameResult.isText {r r' : Option Json} (h : SameResult r r') (s : String) :
    Json.isText r s = Json.isText r' s := by
  cases h with
  | none => rfl
  | some hxy => cases hxy <;> rfl

theorem SameResult.isSome {r r' : Option Json} (h : SameResult r r') :
    r.isSome = r'.isSome := by
  cases h <;> rfl

end Json
