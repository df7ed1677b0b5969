/-
# Reading maps into structs

How `encoding/json` reads a JSON value into Go values whose types are fixed: structs with named
fields, pointers to them, lists, strings.

It matches keys to fields without regard to case, goes on after a value of the wrong type and fails
at the end, leaves a string alone when it reads null, and reads numbers of untyped values as floats,
`float` being how it writes them.  `Decode` keeps the wrong types in a flag; `Decode.Reads` says
that a value was read without any, and has one rule for each construct.

A struct is decoded key by key, as the document has them (`decodeStruct`).  What its field holds in
the end was read from the keys that belong to it (`decodeField`, `reads_decodeStruct`), which is one
key in a map that spells it one way (`Spelled`, `decodeField_eq`); the order of the keys shows only
in where decoding stops.  A struct none of whose fields can stop it is read field by field.
-/
import Mathlib.Data.List.Forall2
import Mathlib.Data.Option.Basic
import KubernetesNmstate.Json

/-! ## Reading into structs -/

/-- How decoding fails: with an error, or by writing to a nil map. -/
inductive Fault : Type where
  | error (message : String) : Fault
  | panic : Fault
  deriving DecidableEq, Repr, Inhabited

/-- A decoded value, with the flag that some value had the wrong type. -/
def Decode (α : Type) : Type := Except Fault (α × Bool)

namespace Decode

variable {α β : Type}

/-- Decoding that stops at once. -/
def fail (fault : Fault) : Decode α := Except.error fault

instance : Monad Decode where
  pure value := Except.ok (value, false)
  bind decode next :=
    match decode with
    | .error fault => .error fault
    | .ok (value, bad) =>
      match next value with
      | .error fault => .error fault
      | .ok (result, worse) => .ok (result, bad || worse)

/-- A value of the wrong type: what was there stays, and decoding goes on. -/
def mismatch (value : α) : Decode α := Except.ok (value, true)

/-- The end of decoding. -/
def finish (decode : Decode α) : Except Fault α :=
  match decode with
  | .ok (value, false) => .ok value
  | .ok (_, true) => .error (.error "json: cannot unmarshal")
  | .error fault => .error fault

/-- Decoding gives this value, and every value had the right type. -/
def Reads (decode : Decode α) (value : α) : Prop := decode = Except.ok (value, false)

end Decode

open Decode (mismatch fail Reads)

/-- The letter under which `encoding/json` compares a letter of a key: the long s and the sign of
the kelvin have no case of their own. -/
def foldChar (c : Char) : Char :=
  if c = '\u017f' then 's' else if c = '\u212a' then 'k' else c.toLower

/-- A key belongs to the field of this name. -/
def matchesField (name key : String) : Bool :=
  key.toList.map foldChar = name.toList.map foldChar

/-- The decoding of one field of a struct: of every key that belongs to it, in order. -/
def decodeField {α : Type} (m : JsonObject) (name : String) (decode : α → Json → Decode α)
    (value : α) : Decode α :=
  (m.filter fun field => matchesField name field.1).foldlM (fun value field =>
    decode value field.2) value

/-- A field of a struct: the name it has in a document, and how a value of it is read into the
struct. -/
structure StructField (α : Type) where
  name : String
  decode : α → Json → Decode α

/-- The field that is one part of the struct. -/
def StructField.into {α β : Type} (name : String) (get : α → β) (set : α → β → α)
    (decode : β → Json → Decode β) : StructField α where
  name := name
  decode value item := do
    let part ← decode (get value) item
    return set value part

/-- The decoding of one key, into the field it belongs to. -/
def decodeKey {α : Type} (fields : List (StructField α)) (value : α) (key : String × Json) :
    Decode α :=
  match fields.find? fun field => matchesField field.name key.1 with
  | some field => field.decode value key.2
  | none => return value

/-- The decoding of a struct: of one key after the other, as the document has them. -/
def decodeStruct {α : Type} (fields : List (StructField α)) (m : JsonObject) (value : α) :
    Decode α :=
  m.foldlM (decodeKey fields) value

/-- A `string` field.  Numbers and booleans have been turned into their texts before. -/
def decodeString (value : String) : Json → Decode String
  | .str s => return s
  | .num literal => return literal
  | .bool b => return if b then "true" else "false"
  | .null => return value
  | _ => mismatch value

/-- A field that points to a struct with the given fields: null clears it, and a map is decoded
into what it points to. -/
def decodePointer {α : Type} (zero : α) (fields : JsonObject → α → Decode α) (value : Option α) :
    Json → Decode (Option α)
  | .null => return none
  | .obj m => do
    let result ← fields m (value.getD zero)
    return some result
  | _ => mismatch value

/-- A field that is a list of elements with the given decoding. -/
def decodeItems {α : Type} (decode : Json → Decode α) (value : List α) : Json → Decode (List α)
  | .null => return []
  | .arr items => items.mapM decode
  | _ => mismatch value

/-- A `[]any` field. -/
def decodeAnys (float : String → String) (value : Option (List Json)) :
    Json → Decode (Option (List Json))
  | .null => return none
  | .arr items => return some (items.map (Json.mapNum float))
  | _ => mismatch value

/-! ## Writing -/

/-- A field that is left out when there is nothing to write. -/
def omitEmpty (key : String) (value : Option Json) : JsonObject :=
  value.toList.map fun value => (key, value)

/-- A `[]any`; the nil slice is null. -/
def encodeAnys : Option (List Json) → Json
  | none => .null
  | some items => .arr items

/-! ## Rules for reading -/

namespace Decode

variable {α β : Type}

@[simp] theorem reads_pure (a b : α) : Reads (pure a : Decode α) b ↔ a = b := by
  show (Except.ok (a, false) : Except Fault (α × Bool)) = Except.ok (b, false) ↔ a = b
  simp

@[simp] theorem reads_mismatch (a b : α) : Reads (mismatch a) b ↔ False := by
  show (Except.ok (a, true) : Except Fault (α × Bool)) = Except.ok (b, false) ↔ False
  simp

@[simp] theorem reads_fail (fault : Fault) (b : α) : Reads (fail fault : Decode α) b ↔ False := by
  simp [Reads, fail]

@[simp] theorem reads_bind (decode : Decode α) (next : α → Decode β) (b : β) :
    Reads (decode >>= next) b ↔ ∃ a, Reads decode a ∧ Reads (next a) b := by
  constructor
  · intro h
    change (match decode with
      | .error fault => .error fault
      | .ok (value, bad) =>
        match next value with
        | .error fault => .error fault
        | .ok (result, worse) => .ok (result, bad || worse)) = Except.ok (b, false) at h
    cases hd : decode with
    | error fault => simp [hd] at h
    | ok result =>
      obtain ⟨a, bad⟩ := result
      cases hn : next a with
      | error fault => simp [hd, hn] at h
      | ok result =>
        obtain ⟨c, worse⟩ := result
        simp only [hd, hn, Except.ok.injEq, Prod.mk.injEq, Bool.or_eq_false_iff] at h
        obtain ⟨rfl, rfl, rfl⟩ := h
        exact ⟨a, rfl, hn⟩
  · rintro ⟨a, ha, hb⟩
    show (match decode with
      | .error fault => .error fault
      | .ok (value, bad) =>
        match next value with
        | .error fault => .error fault
        | .ok (result, worse) => .ok (result, bad || worse)) = Except.ok (b, false)
    rw [ha]
    show (match next a with
      | .error fault => .error fault
      | .ok (result, worse) => .ok (result, false || worse)) = Except.ok (b, false)
    rw [hb]
    rfl

instance : LawfulMonad Decode := LawfulMonad.mk' Decode
  (by
    intro α decode
    show (match decode with
      | .error fault => .error fault
      | .ok (value, bad) => .ok (value, bad || false)) = decode
    cases decode with
    | error fault => rfl
    | ok result =>
      simp only [Bool.or_false]
      rfl)
  (by
    intro α β a next
    show (match next a with
      | .error fault => .error fault
      | .ok (result, worse) => .ok (result, false || worse)) = next a
    cases next a with
    | error fault => rfl
    | ok result => rfl)
  (by
    intro α β γ decode next last
    cases decode with
    | error fault => rfl
    | ok result =>
      obtain ⟨a, bad⟩ := result
      simp only [bind]
      cases next a with
      | error fault => rfl
      | ok result =>
        obtain ⟨b, worse⟩ := result
        dsimp only
        cases last b with
        | error fault => rfl
        | ok result =>
          simp only [Bool.or_assoc]
          rfl)

/-- A list is read element by element. -/
theorem reads_mapM (decode : α → Decode β) (items : List α) (values : List β) :
    Reads (items.mapM decode) values
      ↔ List.Forall₂ (fun item value => Reads (decode item) value) items values := by
  induction items generalizing values with
  | nil =>
    rw [List.mapM_nil, reads_pure, List.forall₂_nil_left_iff]
    exact eq_comm
  | cons item items ih =>
    simp only [List.mapM_cons, reads_bind, reads_pure, List.forall₂_cons_left_iff, ih]
    constructor
    · rintro ⟨value, hvalue, rest, hrest, rfl⟩
      exact ⟨value, rest, hvalue, hrest, rfl⟩
    · rintro ⟨value, rest, hvalue, hrest, rfl⟩
      exact ⟨value, hvalue, rest, hrest, rfl⟩

/-- What a list of values is read back from. -/
theorem mapM_map_pure (decode : β → Decode α) (encode : α → β) {values : List α}
    (h : ∀ value ∈ values, decode (encode value) = pure value) :
    (values.map encode).mapM decode = pure values := by
  induction values with
  | nil => rfl
  | cons value values ih =>
    rw [List.map_cons, List.mapM_cons, h value (by simp), pure_bind,
      ih fun other hother => h other (by simp [hother]), pure_bind]

theorem finish_eq_ok_iff {decode : Decode α} {value : α} :
    decode.finish = .ok value ↔ Reads decode value := by
  constructor
  · intro h
    rcases decode with fault | ⟨a, bad⟩
    · cases h
    · cases bad with
      | false =>
        cases h
        rfl
      | true => cases h
  · intro h
    rw [h]
    rfl

end Decode

/-! ## Fields -/

/-- No other key belongs to the field of this name. -/
def Spelled (m : JsonObject) (name : String) : Prop :=
  ∀ field ∈ m, matchesField name field.1 = true → field.1 = name

theorem matchesField_self (name : String) : matchesField name name = true := by
  simp [matchesField]

theorem decodeField_cons {α : Type} (key : String) (item : Json) (m : JsonObject) (name : String)
    (decode : α → Json → Decode α) (value : α) :
    decodeField ((key, item) :: m) name decode value
      = if matchesField name key = true then
          decode value item >>= fun value => decodeField m name decode value
        else decodeField m name decode value := by
  unfold decodeField
  by_cases h : matchesField name key = true
  · rw [List.filter_cons, if_pos h, List.foldlM_cons, if_pos h]
  · rw [List.filter_cons, if_neg h, if_neg h]

@[simp] theorem decodeField_nil {α : Type} (name : String) (decode : α → Json → Decode α)
    (value : α) : decodeField [] name decode value = pure value := rfl

theorem decodeField_cons_self {α : Type} (name : String) (item : Json) (m : JsonObject)
    (decode : α → Json → Decode α) (value : α) :
    decodeField ((name, item) :: m) name decode value
      = decode value item >>= decodeField m name decode := by
  rw [decodeField_cons, if_pos (matchesField_self name)]

theorem decodeField_cons_of_ne {α : Type} {name key : String} (h : matchesField name key = false)
    (item : Json) (m : JsonObject) (decode : α → Json → Decode α) (value : α) :
    decodeField ((key, item) :: m) name decode value = decodeField m name decode value := by
  rw [decodeField_cons, if_neg (by simp [h])]

theorem decodeField_append {α : Type} (m m' : JsonObject) (name : String)
    (decode : α → Json → Decode α) (value : α) :
    decodeField (m ++ m') name decode value
      = decodeField m name decode value >>= decodeField m' name decode := by
  unfold decodeField
  rw [List.filter_append, List.foldlM_append]

theorem decodeField_omitEmpty {α : Type} (name : String) (item : Option Json)
    (decode : α → Json → Decode α) (value : α) :
    decodeField (omitEmpty name item) name decode value
      = match item with
        | none => pure value
        | some item => decode value item := by
  cases item with
  | none => rfl
  | some item =>
    show decodeField [(name, item)] name decode value = _
    rw [decodeField_cons_self]
    exact bind_pure _

theorem decodeField_omitEmpty_of_ne {α : Type} {name key : String}
    (h : matchesField name key = false) (item : Option Json) (decode : α → Json → Decode α)
    (value : α) : decodeField (omitEmpty key item) name decode value = pure value := by
  cases item with
  | none => rfl
  | some item =>
    show decodeField [(key, item)] name decode value = _
    rw [decodeField_cons_of_ne h]
    rfl

/-- A section that may be left out is read back when what is written is. -/
theorem decodeField_omitEmpty_map {α : Type} {decode : Option α → Json → Decode (Option α)}
    {encode : α → Json} (norm : α → α) {o : Option α}
    (h : ∀ a ∈ o, decode none (encode a) = pure (some (norm a))) (name : String) :
    decodeField (omitEmpty name (o.map encode)) name decode none = pure (o.map norm) := by
  rw [decodeField_omitEmpty]
  cases o with
  | none => rfl
  | some a => exact h a rfl

/-- A field that stands under its own name only is decoded from what stands there. -/
theorem decodeField_eq {α : Type} {m : JsonObject} {name : String} (hm : m.keys.Nodup)
    (hspelled : Spelled m name) (decode : α → Json → Decode α) (value : α) :
    decodeField m name decode value
      = match m.get name with
        | none => pure value
        | some item => decode value item := by
  induction m generalizing value with
  | nil => rfl
  | cons field m ih =>
    obtain ⟨key, item⟩ := field
    have hnodup : key ∉ JsonObject.keys m ∧ (JsonObject.keys m).Nodup := by
      simpa [JsonObject.keys] using hm
    have hrest := ih hnodup.2 fun other hother => hspelled other (List.mem_cons_of_mem _ hother)
    rw [decodeField_cons, JsonObject.get_cons]
    by_cases hkey : name = key
    · subst hkey
      -- the key does not occur again, so the rest leaves the value alone
      have hnone : JsonObject.get m name = none := JsonObject.get_eq_none_iff.mpr hnodup.1
      have hpure : (fun value => decodeField m name decode value) = pure := by
        funext value
        rw [hrest value, hnone]
      rw [if_pos (matchesField_self name), if_pos rfl, hpure, bind_pure]
    · have hmatch : ¬ matchesField name key = true := fun h =>
        hkey (hspelled (key, item) (by simp) h).symm
      rw [if_neg hmatch, if_neg hkey, hrest value]

/-! ## Structs -/

theorem matchesField_congr {other key : String} (h : matchesField other key = true)
    (name : String) : matchesField name key = matchesField name other := by
  rw [matchesField, decide_eq_true_eq] at h
  rw [matchesField, matchesField, h]

section Structs

variable {α β : Type} {fields : List (StructField α)}

theorem decodeKey_cons (field : StructField α) (value : α) (key : String × Json) :
    decodeKey (field :: fields) value key
      = if matchesField field.name key.1 = true then field.decode value key.2
        else decodeKey fields value key := by
  unfold decodeKey
  rw [List.find?_cons]
  cases matchesField field.name key.1 <;> rfl

theorem decodeKey_into_self (name : String) (get : α → β) (set : α → β → α)
    (decode : β → Json → Decode β) (value : α) (item : Json) :
    decodeKey (.into name get set decode :: fields) value (name, item)
      = decode (get value) item >>= fun part => pure (set value part) := by
  rw [decodeKey_cons, StructField.into, if_pos (matchesField_self name)]

theorem decodeKey_into_of_ne {name key : String} (h : matchesField name key = false)
    (get : α → β) (set : α → β → α) (decode : β → Json → Decode β) (value : α) (item : Json) :
    decodeKey (.into name get set decode :: fields) value (key, item)
      = decodeKey fields value (key, item) := by
  rw [decodeKey_cons, StructField.into, h, if_neg Bool.false_ne_true]

@[simp] theorem decodeKey_nil (value : α) (key : String × Json) :
    decodeKey [] value key = pure value := rfl

@[simp] theorem decodeStruct_nil (value : α) : decodeStruct fields [] value = pure value := rfl

theorem decodeStruct_cons (key : String × Json) (m : JsonObject) (value : α) :
    decodeStruct fields (key :: m) value
      = decodeKey fields value key >>= decodeStruct fields m := rfl

theorem decodeStruct_append (m m' : JsonObject) (value : α) :
    decodeStruct fields (m ++ m') value
      = decodeStruct fields m value >>= decodeStruct fields m' := by
  unfold decodeStruct
  rw [List.foldlM_append]

/-- A section that may be left out is read into its part. -/
theorem decodeStruct_omitEmpty {name : String} {get : α → β} {set : α → β → α}
    {decode : β → Json → Decode β}
    (hkey : ∀ value item, decodeKey fields value (name, item)
      = decode (get value) item >>= fun part => pure (set value part))
    (hset : ∀ value, set value (get value) = value) (item : Option Json) (value : α) :
    decodeStruct fields (omitEmpty name item) value
      = decodeField (omitEmpty name item) name decode (get value) >>= fun part =>
          pure (set value part) := by
  cases item with
  | none =>
    show pure value = pure (get value) >>= fun part => pure (set value part)
    rw [pure_bind, hset]
  | some item =>
    show decodeStruct fields [(name, item)] value = _
    rw [decodeStruct_cons, hkey, decodeField_omitEmpty]
    exact bind_pure _

/-- The field reads into this part of the struct if it is the one of the given name, and leaves the
part alone if it is not. -/
def StructField.ReadsPart (field : StructField α) (name : String) (get : α → β)
    (decode : β → Json → Decode β) : Prop :=
  ∀ value item result, Reads (field.decode value item) result →
    if matchesField name field.name = true then Reads (decode (get value) item) (get result)
      else get result = get value

theorem StructField.readsPart_own {name : String} {get : α → β} {set : α → β → α}
    {decode : β → Json → Decode β} (hset : ∀ value part, get (set value part) = part) :
    (StructField.into name get set decode).ReadsPart name get decode := by
  intro value item result h
  obtain ⟨part, hpart, hresult⟩ := (Decode.reads_bind _ _ _).mp h
  rw [Decode.reads_pure] at hresult
  rw [StructField.into, if_pos (matchesField_self name), ← hresult, hset]
  exact hpart

theorem StructField.readsPart_other {γ : Type} {name other : String} {get : α → β} {get' : α → γ}
    {set : α → γ → α} {decode : β → Json → Decode β} {decode' : γ → Json → Decode γ}
    (hname : matchesField name other = false)
    (hset : ∀ value part, get (set value part) = get value) :
    (StructField.into other get' set decode').ReadsPart name get decode := by
  intro value item result h
  obtain ⟨part, -, hresult⟩ := (Decode.reads_bind _ _ _).mp h
  rw [Decode.reads_pure] at hresult
  rw [StructField.into, hname, if_neg Bool.false_ne_true, ← hresult, hset]

/-- What a part of a struct holds in the end was read from the keys of its field. -/
theorem reads_decodeStruct {name : String} (get : α → β) {decode : β → Json → Decode β}
    (hname : name ∈ fields.map StructField.name)
    (hfields : ∀ field ∈ fields, field.ReadsPart name get decode)
    {m : JsonObject} {value result : α} (h : Reads (decodeStruct fields m value) result) :
    Reads (decodeField m name decode (get value)) (get result) := by
  induction m generalizing value with
  | nil =>
    rw [decodeStruct_nil, Decode.reads_pure] at h
    rw [h, decodeField_nil, Decode.reads_pure]
  | cons field m ih =>
    obtain ⟨key, item⟩ := field
    rw [decodeStruct_cons, Decode.reads_bind] at h
    obtain ⟨next, hnext, hrest⟩ := h
    rw [decodeField_cons]
    cases hfind : fields.find? fun field => matchesField field.name key with
    | none =>
      -- a key that belongs to no field is passed over
      obtain ⟨own, hmem, rfl⟩ := List.mem_map.mp hname
      have hno : ¬ matchesField own.name key = true := by
        simpa using List.find?_eq_none.mp hfind own hmem
      rw [decodeKey, hfind, Decode.reads_pure] at hnext
      rw [if_neg hno, hnext]
      exact ih hrest
    | some field =>
      have hmem := List.mem_of_find?_eq_some hfind
      have hkey : matchesField field.name key = true := by simpa using List.find?_some hfind
      rw [decodeKey, hfind] at hnext
      have hpart := hfields field hmem value item next hnext
      rw [matchesField_congr hkey name]
      split
      · rename_i hmatch
        rw [if_pos hmatch] at hpart
        rw [Decode.reads_bind]
        exact ⟨get next, hpart, ih hrest⟩
      · rename_i hmatch
        rw [if_neg hmatch] at hpart
        rw [← hpart]
        exact ih hrest

end Structs

/-! ## Properties that decoding keeps -/

/-- A property of a field that the decoding of every value keeps. -/
theorem reads_decodeField_of {α : Type} {P : α → Prop} {m : JsonObject} {name : String}
    {decode : α → Json → Decode α} {value result : α}
    (h : Reads (decodeField m name decode value) result) (hvalue : P value)
    (hstep : ∀ field ∈ m, ∀ before after, P before → Reads (decode before field.2) after →
      P after) : P result := by
  induction m generalizing value with
  | nil =>
    rw [decodeField_nil, Decode.reads_pure] at h
    exact h ▸ hvalue
  | cons field m ih =>
    obtain ⟨key, item⟩ := field
    have hrest : ∀ field ∈ m, ∀ before after, P before → Reads (decode before field.2) after →
        P after := fun field hfield => hstep field (List.mem_cons_of_mem _ hfield)
    rw [decodeField_cons] at h
    split at h
    · obtain ⟨next, hnext, h⟩ := (Decode.reads_bind _ _ _).mp h
      exact ih h (hstep (key, item) (by simp) value next hvalue hnext) hrest
    · exact ih h hvalue hrest

theorem reads_decodeItems_of {α : Type} {P : α → Prop} {unmarshal : Json → Decode α}
    (hP : ∀ value : Json, value.Ordered → ∀ a, Reads (unmarshal value) a → P a) {m : JsonObject}
    (hm : m.Ordered) {name : String} {values result : List α} (hvalues : ∀ a ∈ values, P a)
    (h : Reads (decodeField m name (decodeItems unmarshal) values) result) :
    ∀ a ∈ result, P a := by
  refine reads_decodeField_of (P := fun values => ∀ a ∈ values, P a) h hvalues ?_
  intro field hfield before after _ hread
  have hordered := hm.values field hfield
  cases hitem : field.2 with
  | null =>
    rw [hitem, decodeItems, Decode.reads_pure] at hread
    rw [← hread]
    simp
  | arr items =>
    rw [hitem] at hread hordered
    cases hordered with
    | arr hitems =>
      have hall := (Decode.reads_mapM _ _ _).mp hread
      intro a ha
      obtain ⟨i, hi, rfl⟩ := List.getElem_of_mem ha
      have hlen := hall.length_eq
      exact hP _ (hitems _ (List.getElem_mem (by omega))) _ (hall.get (by omega) hi)
  | _ => simp [hitem, decodeItems] at hread

/-- A property of a struct that the decoding of its fields keeps holds of what a pointer to it
points to. -/
theorem reads_decodePointer_of {α : Type} {P : α → Prop} {zero : α}
    {fields : JsonObject → α → Decode α} (hzero : P zero)
    (hfields : ∀ inner : JsonObject, inner.Ordered → ∀ before after, P before →
      Reads (fields inner before) after → P after) {m : JsonObject} (hm : m.Ordered)
    {name : String} {value result : Option α} (hvalue : ∀ a ∈ value, P a)
    (h : Reads (decodeField m name (decodePointer zero fields) value) result) :
    ∀ a ∈ result, P a := by
  refine reads_decodeField_of (P := fun value => ∀ a ∈ value, P a) h hvalue ?_
  intro field hfield before after hbefore hread
  have hordered := hm.values field hfield
  cases hitem : field.2 with
  | null =>
    rw [hitem, decodePointer, Decode.reads_pure] at hread
    rw [← hread]
    simp
  | obj inner =>
    rw [hitem] at hordered
    simp only [hitem, decodePointer, Decode.reads_bind, Decode.reads_pure] at hread
    obtain ⟨a, ha, rfl⟩ := hread
    -- what the pointer pointed to, or the zero value it was made to point to
    have hstart : P (before.getD zero) := by
      cases before with
      | none => exact hzero
      | some b => exact hbefore b rfl
    intro b hb
    rw [Option.mem_some_iff] at hb
    exact hb ▸ hfields inner (Json.ordered_obj.mp hordered) _ a hstart ha
  | _ => simp [hitem, decodePointer] at hread

/-! ## Failing -/

namespace Decode

variable {α β : Type}

/-- The fault decoding stops with; values of the wrong type do not stop it. -/
def fault (decode : Decode α) : Option Fault :=
  match decode with
  | .error fault => some fault
  | .ok _ => none

@[simp] theorem fault_pure (a : α) : (pure a : Decode α).fault = none := rfl

@[simp] theorem fault_mismatch (a : α) : (mismatch a).fault = none := rfl

@[simp] theorem fault_fail (f : Fault) : (fail f : Decode α).fault = some f := rfl

/-- Two steps, the second of which fails or not whatever the first has read. -/
theorem fault_bind {decode : Decode α} {next : α → Decode β} {f : Option Fault}
    (h : ∀ a, (next a).fault = f) : (decode >>= next).fault = decode.fault.or f := by
  rcases decode with stopped | ⟨a, bad⟩
  · rfl
  · rw [← h a]
    simp only [bind]
    cases next a with
    | error stopped => rfl
    | ok result => rfl

/-- A list stops at its first element that does. -/
theorem fault_mapM (decode : α → Decode β) (items : List α) :
    (items.mapM decode).fault = items.findSome? fun item => (decode item).fault := by
  induction items with
  | nil => rfl
  | cons item items ih =>
    have hrest : ∀ value, (items.mapM decode >>= fun values => pure (value :: values)).fault
        = items.findSome? fun item => (decode item).fault := by
      intro value
      rw [fault_bind fun values => fault_pure (value :: values), ih, Option.or_none]
    rw [List.mapM_cons, fault_bind hrest, List.findSome?_cons]
    cases (decode item).fault <;> rfl

/-- A loop whose steps stop or not whatever was read before stops at the first that does. -/
theorem fault_foldlM {step : β → α → Decode β} {f : α → Option Fault}
    (h : ∀ value item, (step value item).fault = f item) (items : List α) (value : β) :
    (items.foldlM step value).fault = items.findSome? f := by
  induction items generalizing value with
  | nil => rfl
  | cons item items ih =>
    rw [List.foldlM_cons, fault_bind ih, h, List.findSome?_cons]
    cases f item <;> rfl

theorem finish_eq_panic_iff {decode : Decode α} :
    decode.finish = .error .panic ↔ decode.fault = some .panic := by
  rcases decode with stopped | ⟨a, bad⟩
  · simp [finish, fault]
  · cases bad <;> simp [finish, fault]

end Decode

/-- A field whose values never stop decoding does not stop it. -/
theorem fault_decodeField_eq_none {α : Type} {decode : α → Json → Decode α}
    (h : ∀ value item, (decode value item).fault = none) (m : JsonObject) (name : String)
    (value : α) : (decodeField m name decode value).fault = none := by
  have hstep : ∀ (value : α) (field : String × Json), (decode value field.2).fault = none :=
    fun value field => h value field.2
  rw [decodeField, Decode.fault_foldlM hstep, List.findSome?_eq_none_iff]
  exact fun _ _ => rfl

/-- A key stops decoding if it belongs to the first field and its value does, or else if it belongs
to one of the other fields and does. -/
theorem fault_decodeKey_into {α β : Type} {name : String} {get : α → β} {set : α → β → α}
    {decode : β → Json → Decode β} {f : Json → Option Fault}
    (h : ∀ value item, (decode value item).fault = f item) (fields : List (StructField α))
    (value : α) (key : String × Json) :
    (decodeKey (.into name get set decode :: fields) value key).fault
      = if matchesField name key.1 = true then f key.2 else (decodeKey fields value key).fault := by
  have hdecode : ((StructField.into name get set decode).decode value key.2).fault = f key.2 := by
    rw [StructField.into, Decode.fault_bind fun part => Decode.fault_pure _, Option.or_none, h]
  rw [decodeKey_cons, apply_ite Decode.fault, hdecode]
  rfl

theorem fault_decodeString (value : String) (item : Json) :
    (decodeString value item).fault = none := by
  cases item <;> rfl

theorem fault_decodeAnys (float : String → String) (value : Option (List Json)) (item : Json) :
    (decodeAnys float value item).fault = none := by
  cases item <;> rfl

/-- The elements of a list, none of what is no list. -/
def Json.listItems : Json → List Json
  | .arr items => items
  | _ => []

theorem fault_decodeItems {α : Type} (decode : Json → Decode α) (value : List α) (item : Json) :
    (decodeItems decode value item).fault
      = item.listItems.findSome? fun element => (decode element).fault := by
  cases item with
  | arr items => exact Decode.fault_mapM decode items
  | _ => rfl

/-- What the fields of a struct stop with, behind a pointer. -/
theorem fault_decodePointer {α : Type} {zero : α} {fields : JsonObject → α → Decode α}
    {f : JsonObject → Option Fault} (h : ∀ m a, (fields m a).fault = f m) (value : Option α)
    (item : Json) : (decodePointer zero fields value item).fault
      = match item with
        | .obj m => f m
        | _ => none := by
  cases item with
  | obj m =>
    show (fields m (value.getD zero) >>= fun result => pure (some result)).fault = f m
    rw [Decode.fault_bind fun result => Decode.fault_pure (some result), h, Option.or_none]
  | _ => rfl

/-! ## Written and read again -/

theorem decodeAnys_encode (float : String → String) (value items : Option (List Json)) :
    decodeAnys float value (encodeAnys items)
      = pure (items.map (List.map (Json.mapNum float))) := by
  cases items with
  | none => rfl
  | some items => rfl

theorem get_omitEmpty (key : String) (value : Option Json) (k : String) :
    (omitEmpty key value).get k = if k = key then value else none := by
  cases value with
  | none =>
    show none = _
    split <;> rfl
  | some value =>
    show JsonObject.get [(key, value)] k = _
    rw [JsonObject.get_cons]
    rfl

theorem option_map_eq_self_iff {α : Type} {f : α → α} {o : Option α} :
    o.map f = o ↔ ∀ a ∈ o, f a = a := by
  cases o with
  | none => simp
  | some a => simp

/-- Values described one by one are the written forms of values. -/
theorem exists_map_of_forall {α β : Type} {P : β → Prop} {keep : α → Prop} {encode : α → β}
    (h : ∀ value, P value ↔ ∃ a, keep a ∧ value = encode a) (values : Option β) :
    (∀ value ∈ values, P value) ↔ ∃ o : Option α, (∀ a ∈ o, keep a) ∧ values = o.map encode := by
  constructor
  · intro hall
    cases values with
    | none => exact ⟨none, by simp, rfl⟩
    | some value =>
      obtain ⟨a, ha, rfl⟩ := (h value).mp (hall value rfl)
      refine ⟨some a, ?_, rfl⟩
      intro b hb
      rw [Option.mem_some_iff] at hb
      exact hb ▸ ha
  · rintro ⟨o, ho, rfl⟩ value hvalue
    obtain ⟨a, ha, rfl⟩ := Option.mem_map.mp hvalue
    exact (h _).mpr ⟨a, ho a ha, rfl⟩

/-- What is read from a section is written as that section exactly when the section is the written
form of a value that reading does not change. -/
theorem encode_eq_iff_of_round {α : Type} {decode : Json → Decode (Option α)} {encode : α → Json}
    {norm : α → α} (hround : ∀ a, decode (encode a) = pure (some (norm a))) {value : Json}
    {result : Option α} (hreads : Reads (decode value) result) :
    result.map encode = some value ↔ ∃ a, norm a = a ∧ value = encode a := by
  constructor
  · intro h
    obtain ⟨a, rfl, rfl⟩ := Option.map_eq_some_iff.mp h
    rw [hround, Decode.reads_pure, Option.some.injEq] at hreads
    exact ⟨a, hreads, rfl⟩
  · rintro ⟨a, ha, rfl⟩
    rw [hround, Decode.reads_pure, ha] at hreads
    rw [← hreads, Option.map_some]

/-- A section that is left out when absent comes back exactly when it is one that is written. -/
theorem section_kept_iff {α : Type} {m : JsonObject} {name : String}
    {decode : Option α → Json → Decode (Option α)} {encode : α → Json} (norm : α → α)
    (hround : ∀ a, decode none (encode a) = pure (some (norm a))) (hm : m.Ordered)
    (hname : Spelled m name) {result : Option α}
    (hreads : Reads (decodeField m name decode none) result) :
    result.map encode = m.get name
      ↔ ∀ value ∈ m.get name, ∃ a, norm a = a ∧ value = encode a := by
  rw [decodeField_eq hm.nodup hname] at hreads
  cases hget : m.get name with
  | none =>
    rw [hget, Decode.reads_pure] at hreads
    rw [← hreads]
    simp
  | some value =>
    rw [hget] at hreads
    rw [encode_eq_iff_of_round hround hreads]
    simp
