/-
# JSON values

Decoded JSON documents and the maps in them, for any program that reads and edits them.

A map is listed by its fields.  Go maps have no order; where it matters a map is listed in the
order of its keys, each key once (`Json.Ordered`), so that equal maps are equal lists.
`Json.prune` removes the fields at given paths, wherever they are; `Json.mapNum` changes how
numbers are written.  Both have their equations by `map` and `filter`, and `Json.ind` is the
induction over the values in a value.
-/
import Mathlib.Data.List.Nodup
import Mathlib.Data.String.Basic
import Mathlib.Tactic.Common

/-! ## Values and maps -/

/-- A decoded JSON value; numbers keep their text. -/
inductive Json : Type where
  | null : Json
  | bool (value : Bool) : Json
  | num (literal : String) : Json
  | str (value : String) : Json
  | arr (items : List Json) : Json
  | obj (fields : List (String × Json)) : Json
  deriving Repr, Inhabited

/-- A Go `map[string]any`. -/
abbrev JsonObject : Type := List (String × Json)

namespace JsonObject

/-- `m[key]`. -/
def get (m : JsonObject) (key : String) : Option Json := m.lookup key

/-- `delete(m, key)`. -/
def erase (m : JsonObject) (key : String) : JsonObject := m.filter fun field => field.1 ≠ key

/-- Write a changed value back under its key. -/
def replace (m : JsonObject) (key : String) (value : Json) : JsonObject :=
  m.map fun field => if field.1 = key then (key, value) else field

/-- The value under a key is this string. -/
def isStr (m : JsonObject) (key value : String) : Bool :=
  match m.get key with
  | some (.str s) => s = value
  | _ => false

/-- `m[key] = value`, on a map listed in the order of its keys. -/
def put : JsonObject → String → Json → JsonObject
  | [], key, value => [(key, value)]
  | field :: rest, key, value =>
    if field.1 = key then (key, value) :: rest
    else if key < field.1 then (key, value) :: field :: rest
    else field :: put rest key value

/-- The keys of a map. -/
def keys (m : JsonObject) : List String := m.map Prod.fst

end JsonObject

/-- Every map inside lists its fields in the order of their keys, each key once. -/
inductive Json.Ordered : Json → Prop
  | null : Ordered .null
  | bool (value : Bool) : Ordered (.bool value)
  | num (literal : String) : Ordered (.num literal)
  | str (value : String) : Ordered (.str value)
  | arr {items : List Json} (h : ∀ x ∈ items, Ordered x) : Ordered (.arr items)
  | obj {fields : JsonObject} (hkeys : fields.keys.Pairwise (· < ·))
      (h : ∀ field ∈ fields, Ordered field.2) : Ordered (.obj fields)

/-- A map in the order of its keys, with such maps inside. -/
structure JsonObject.Ordered (m : JsonObject) : Prop where
  keys : m.keys.Pairwise (· < ·)
  values : ∀ field ∈ m, field.2.Ordered

theorem Json.ordered_obj {m : JsonObject} : (Json.obj m).Ordered ↔ m.Ordered := by
  constructor
  · rintro ⟨⟩
    rename_i hkeys hvalues
    exact ⟨hkeys, hvalues⟩
  · rintro ⟨hkeys, hvalues⟩
    exact .obj hkeys hvalues

/-- Induction over the values in a value. -/
@[elab_as_elim]
theorem Json.ind {motive : Json → Prop} (j : Json) (null : motive .null)
    (bool : ∀ b, motive (.bool b)) (num : ∀ s, motive (.num s)) (str : ∀ s, motive (.str s))
    (arr : ∀ items, (∀ x ∈ items, motive x) → motive (.arr items))
    (obj : ∀ fields : JsonObject, (∀ field ∈ fields, motive field.2) → motive (.obj fields)) :
    motive j :=
  @Json.rec motive (fun items => ∀ x ∈ items, motive x)
    (fun fields => ∀ field ∈ fields, motive field.2) (fun field => motive field.2)
    null bool num str arr obj
    (by simp) (fun _ _ hx hxs y hy => (List.mem_cons.mp hy).elim (fun e => e ▸ hx) (hxs y))
    (by simp) (fun _ _ hx hxs y hy => (List.mem_cons.mp hy).elim (fun e => e ▸ hx) (hxs y))
    (fun _ _ h => h) j

mutual

/-- `Ordered`, as a test. -/
def Json.isOrdered : Json → Bool
  | .null => true
  | .bool _ => true
  | .num _ => true
  | .str _ => true
  | .arr items => areOrdered items
  | .obj fields => decide ((JsonObject.keys fields).Pairwise (· < ·)) && fieldsOrdered fields

/-- All elements of an array are ordered. -/
def Json.areOrdered : List Json → Bool
  | [] => true
  | x :: items => x.isOrdered && areOrdered items

/-- All values of a map are ordered. -/
def Json.fieldsOrdered : JsonObject → Bool
  | [] => true
  | (_, value) :: fields => value.isOrdered && fieldsOrdered fields

end

theorem Json.areOrdered_iff (items : List Json) :
    Json.areOrdered items = true ↔ ∀ x ∈ items, x.isOrdered = true := by
  induction items with
  | nil => simp [Json.areOrdered]
  | cons x items ih => simp [Json.areOrdered, ih]

theorem Json.fieldsOrdered_iff (m : JsonObject) :
    Json.fieldsOrdered m = true ↔ ∀ field ∈ m, field.2.isOrdered = true := by
  induction m with
  | nil => simp [Json.fieldsOrdered]
  | cons field m ih => simp [Json.fieldsOrdered, ih]

theorem Json.isOrdered_iff (j : Json) : j.isOrdered = true ↔ j.Ordered := by
  induction j using Json.ind with
  | null => exact ⟨fun _ => .null, fun _ => rfl⟩
  | bool b => exact ⟨fun _ => .bool b, fun _ => rfl⟩
  | num s => exact ⟨fun _ => .num s, fun _ => rfl⟩
  | str s => exact ⟨fun _ => .str s, fun _ => rfl⟩
  | arr items ih =>
    rw [Json.isOrdered, Json.areOrdered_iff]
    constructor
    · exact fun h => .arr fun x hx => (ih x hx).mp (h x hx)
    · rintro ⟨⟩ x hx
      rename_i h
      exact (ih x hx).mpr (h x hx)
  | obj fields ih =>
    rw [Json.isOrdered, Bool.and_eq_true, decide_eq_true_iff, Json.fieldsOrdered_iff,
      Json.ordered_obj]
    constructor
    · exact fun h => ⟨h.1, fun field hfield => (ih field hfield).mp (h.2 field hfield)⟩
    · exact fun h => ⟨h.keys, fun field hfield => (ih field hfield).mpr (h.values field hfield)⟩

instance (j : Json) : Decidable j.Ordered := decidable_of_iff _ j.isOrdered_iff

/-! ## Looking up and writing -/

namespace JsonObject

variable {m : JsonObject} {k k' : String} {v : Json}

theorem get_cons (field : String × Json) (m : JsonObject) (k : String) :
    get (field :: m) k = if k = field.1 then some field.2 else get m k := by
  obtain ⟨key, value⟩ := field
  by_cases h : k = key
  · simp [get, h]
  · have hb : (k == key) = false := beq_false_of_ne h
    simp [get, List.lookup_cons, hb, h]

theorem get_append (m m' : JsonObject) (k : String) :
    get (m ++ m') k = (m.get k).or (get m' k) := by
  induction m with
  | nil => rfl
  | cons field m ih =>
    rw [List.cons_append, get_cons, ih, get_cons]
    split <;> rfl

theorem mem_of_get (h : m.get k = some v) : (k, v) ∈ m := by
  induction m with
  | nil => cases h
  | cons field m ih =>
    rw [get_cons] at h
    split at h
    · rename_i hk
      cases h
      rw [hk]
      exact List.mem_cons_self
    · exact List.mem_cons_of_mem field (ih h)

theorem get_of_mem (hnd : m.keys.Nodup) (h : (k, v) ∈ m) : m.get k = some v := by
  induction m with
  | nil => cases h
  | cons field m ih =>
    obtain ⟨hfield, hm⟩ := List.nodup_cons.mp hnd
    rw [get_cons]
    rcases List.mem_cons.mp h with rfl | h
    · simp
    · have hne : k ≠ field.1 := fun e => hfield (e ▸ List.mem_map_of_mem h)
      rw [if_neg hne]
      exact ih hm h

theorem get_eq_none_iff : m.get k = none ↔ k ∉ m.keys := by
  induction m with
  | nil => simp [get, keys]
  | cons field m ih =>
    rw [get_cons]
    by_cases h : k = field.1
    · simp [keys, h]
    · rw [if_neg h, ih]
      simp [keys, h]

theorem Ordered.nodup (h : m.Ordered) : m.keys.Nodup :=
  h.keys.imp fun hlt => ne_of_lt hlt

theorem Ordered.get (h : m.Ordered) (hget : m.get k = some v) : v.Ordered :=
  h.values _ (mem_of_get hget)

theorem Ordered.tail {field : String × Json} (h : Ordered (field :: m)) : m.Ordered :=
  ⟨(List.pairwise_cons.mp h.keys).2, fun f hf => h.values f (List.mem_cons_of_mem field hf)⟩

/-- Changing the value of a key, written by its new value. -/
theorem map_eq_replace {f : Json → Json} (hnd : m.keys.Nodup) (hget : m.get k = some v) :
    (m.map fun field => if field.1 = k then (field.1, f field.2) else field) =
      m.replace k (f v) := by
  refine List.map_congr_left fun field hfield => ?_
  by_cases h : field.1 = k
  · have hv : field.2 = v := by
      have := get_of_mem (k := field.1) (v := field.2) hnd hfield
      rw [h, hget] at this
      exact (Option.some.inj this).symm
    simp [h, hv]
  · simp [h]

/-- Writing back what is there changes nothing. -/
theorem replace_of_get (hnd : m.keys.Nodup) (hget : m.get k = some v) : m.replace k v = m := by
  refine (map_eq_replace (f := fun value => value) hnd hget).symm.trans ?_
  refine (List.map_congr_left fun field _ => ?_).trans (List.map_id m)
  simp

theorem get_put (m : JsonObject) (k : String) (v : Json) (k' : String) :
    (m.put k v).get k' = if k' = k then some v else m.get k' := by
  induction m with
  | nil => rw [put, get_cons]
  | cons field m ih =>
    unfold put
    split
    · rename_i h
      subst h
      rw [get_cons, get_cons]
      split <;> rfl
    · split
      · rw [get_cons]
      · rename_i hne _
        rw [get_cons, ih, get_cons]
        by_cases hk : k' = field.1
        · rw [if_pos hk, if_pos hk, if_neg (fun e => hne (hk.symm.trans e))]
        · rw [if_neg hk, if_neg hk]

/-- Writing what is there changes nothing. -/
theorem put_of_get (h : m.Ordered) (hget : m.get k = some v) : m.put k v = m := by
  induction m with
  | nil => cases hget
  | cons field m ih =>
    rw [get_cons] at hget
    unfold put
    by_cases hk : k = field.1
    · rw [if_pos hk] at hget
      cases hget
      rw [if_pos hk.symm, hk]
    · rw [if_neg hk] at hget
      have hlt : field.1 < k :=
        (List.pairwise_cons.mp h.keys).1 k (List.mem_map_of_mem (mem_of_get hget))
      rw [if_neg (fun e => hk e.symm), if_neg (not_lt_of_gt hlt), ih h.tail hget]

theorem mem_put {field : String × Json} (h : field ∈ m.put k v) :
    field = (k, v) ∨ field ∈ m := by
  induction m with
  | nil => exact Or.inl (List.mem_singleton.mp h)
  | cons f m ih =>
    unfold put at h
    split at h
    · rcases List.mem_cons.mp h with h | h
      · exact Or.inl h
      · exact Or.inr (List.mem_cons_of_mem f h)
    · split at h
      · rcases List.mem_cons.mp h with h | h
        · exact Or.inl h
        · exact Or.inr h
      · rcases List.mem_cons.mp h with h | h
        · exact Or.inr (h ▸ List.mem_cons_self)
        · exact (ih h).imp_right (List.mem_cons_of_mem f)

theorem Ordered.put (h : m.Ordered) (hv : v.Ordered) : (m.put k v).Ordered := by
  refine ⟨?_, ?_⟩
  · have hkeys := h.keys
    clear h hv
    induction m with
    | nil => exact List.pairwise_singleton _ _
    | cons field m ih =>
      obtain ⟨hfield, hm⟩ := List.pairwise_cons.mp hkeys
      unfold JsonObject.put
      split
      · rename_i hk
        subst hk
        exact hkeys
      · split
        · rename_i hlt
          refine List.pairwise_cons.mpr ⟨?_, hkeys⟩
          intro key hkey
          rcases List.mem_cons.mp hkey with rfl | hkey
          · exact hlt
          · exact lt_trans hlt (hfield key hkey)
        · rename_i hne hnlt
          refine List.pairwise_cons.mpr ⟨?_, ih hm⟩
          intro key hkey
          obtain ⟨f, hf, rfl⟩ := List.mem_map.mp hkey
          rcases mem_put hf with rfl | hf
          · exact lt_of_le_of_ne (le_of_not_gt hnlt) hne
          · exact hfield f.1 (List.mem_map_of_mem hf)
  · intro field hfield
    rcases mem_put hfield with rfl | hfield
    · exact hv
    · exact h.values field hfield

end JsonObject

/-! ## How numbers are written -/

mutual

/-- Write every number anew. -/
def Json.mapNum (f : String → String) : Json → Json
  | .null => .null
  | .bool value => .bool value
  | .num literal => .num (f literal)
  | .str value => .str value
  | .arr items => .arr (mapNumItems f items)
  | .obj fields => .obj (mapNumFields f fields)

/-- `mapNum` of the elements of an array. -/
def Json.mapNumItems (f : String → String) : List Json → List Json
  | [] => []
  | x :: items => x.mapNum f :: mapNumItems f items

/-- `mapNum` of the values of a map. -/
def Json.mapNumFields (f : String → String) : JsonObject → JsonObject
  | [] => []
  | (key, value) :: fields => (key, value.mapNum f) :: mapNumFields f fields

end

namespace Json

variable {f : String → String}

theorem mapNumItems_eq (f : String → String) (items : List Json) :
    mapNumItems f items = items.map (mapNum f) := by
  induction items with
  | nil => rfl
  | cons x items ih => rw [mapNumItems, ih, List.map_cons]

theorem mapNumFields_eq (f : String → String) (m : JsonObject) :
    mapNumFields f m = m.map fun field => (field.1, field.2.mapNum f) := by
  induction m with
  | nil => rfl
  | cons field m ih => rw [mapNumFields, ih, List.map_cons]

theorem mapNum_mapNum (hf : ∀ s, f (f s) = f s) (j : Json) :
    (j.mapNum f).mapNum f = j.mapNum f := by
  induction j using Json.ind with
  | null => rfl
  | bool b => rfl
  | num s => rw [mapNum, mapNum, hf]
  | str s => rfl
  | arr items ih =>
    simp only [mapNum, mapNumItems_eq, List.map_map]
    congr 1
    exact List.map_congr_left ih
  | obj fields ih =>
    simp only [mapNum, mapNumFields_eq, List.map_map]
    congr 1
    refine List.map_congr_left fun field hfield => ?_
    simp only [Function.comp, ih field hfield]

theorem mapNumFields_put (m : JsonObject) (k : String) (v : Json) :
    mapNumFields f (m.put k v) = (mapNumFields f m).put k (v.mapNum f) := by
  induction m with
  | nil => rfl
  | cons field m ih =>
    rw [mapNumFields, JsonObject.put, JsonObject.put]
    by_cases h : field.1 = k
    · rw [if_pos h, if_pos h, mapNumFields]
    · rw [if_neg h, if_neg h]
      by_cases hlt : k < field.1
      · rw [if_pos hlt, if_pos hlt, mapNumFields, mapNumFields]
      · rw [if_neg hlt, if_neg hlt, mapNumFields, ih]

theorem keys_mapNumFields (m : JsonObject) : (mapNumFields f m).keys = m.keys := by
  simp [mapNumFields_eq, JsonObject.keys, Function.comp_def]

theorem Ordered.mapNum {j : Json} (h : j.Ordered) : (j.mapNum f).Ordered := by
  induction h with
  | null => exact .null
  | bool b => exact .bool b
  | num s => exact .num (f s)
  | str s => exact .str s
  | arr _ ih =>
    rw [Json.mapNum, mapNumItems_eq]
    refine .arr fun x hx => ?_
    obtain ⟨y, hy, rfl⟩ := List.mem_map.mp hx
    exact ih y hy
  | obj hkeys _ ih =>
    rw [Json.mapNum]
    refine .obj (by rw [keys_mapNumFields]; exact hkeys) fun field hfield => ?_
    rw [mapNumFields_eq] at hfield
    obtain ⟨g, hg, rfl⟩ := List.mem_map.mp hfield
    exact ih g hg

end Json

/-! ## Removing fields by their paths -/

/-- A step from a value to a value in it. -/
inductive Json.Step : Type where
  | key (key : String) : Step
  | item : Step
  deriving DecidableEq, Repr, Inhabited

mutual

/-- Remove the fields at the paths that satisfy `P`. -/
def Json.prune (P : List Json.Step → Bool) : Json → Json
  | .null => .null
  | .bool value => .bool value
  | .num literal => .num literal
  | .str value => .str value
  | .arr items => .arr (pruneItems (fun path => P (.item :: path)) items)
  | .obj fields => .obj (pruneFields P fields)

/-- `prune` of the elements of an array. -/
def Json.pruneItems (P : List Json.Step → Bool) : List Json → List Json
  | [] => []
  | x :: items => x.prune P :: pruneItems P items

/-- `prune` of a map. -/
def Json.pruneFields (P : List Json.Step → Bool) : JsonObject → JsonObject
  | [] => []
  | (key, value) :: fields =>
    if P [.key key] then pruneFields P fields
    else (key, value.prune fun path => P (.key key :: path)) :: pruneFields P fields

end

namespace Json

variable {P Q : List Step → Bool}

theorem pruneItems_eq (P : List Step → Bool) (items : List Json) :
    pruneItems P items = items.map (prune P) := by
  induction items with
  | nil => rfl
  | cons x items ih => rw [pruneItems, ih, List.map_cons]

theorem pruneFields_eq (P : List Step → Bool) (m : JsonObject) :
    pruneFields P m = (m.filter fun field => !P [.key field.1]).map fun field =>
      (field.1, field.2.prune fun path => P (.key field.1 :: path)) := by
  induction m with
  | nil => rfl
  | cons field m ih =>
    rw [pruneFields, ih]
    by_cases h : P [.key field.1] = true
    · rw [if_pos h, List.filter_cons_of_neg (by simp [h])]
    · rw [if_neg h, List.filter_cons_of_pos (by simpa using h), List.map_cons]

/-- Nothing is removed when no path satisfies the predicate. -/
theorem prune_of_forall (h : ∀ path, P path = false) (j : Json) : j.prune P = j := by
  induction j using Json.ind generalizing P with
  | null => rfl
  | bool b => rfl
  | num s => rfl
  | str s => rfl
  | arr items ih =>
    rw [prune, pruneItems_eq]
    congr 1
    exact (List.map_congr_left fun x hx => ih x hx fun path => h (.item :: path)).trans
      (List.map_id items)
  | obj fields ih =>
    rw [prune, pruneFields_eq, List.filter_eq_self.mpr fun field _ => by simp [h]]
    congr 1
    refine (List.map_congr_left fun field hfield => ?_).trans (List.map_id fields)
    rw [ih field hfield fun path => h (.key field.1 :: path)]
    rfl

/-- Removing twice removes what either predicate names. -/
theorem prune_prune (j : Json) :
    (j.prune P).prune Q = j.prune fun path => P path || Q path := by
  induction j using Json.ind generalizing P Q with
  | null => rfl
  | bool b => rfl
  | num s => rfl
  | str s => rfl
  | arr items ih =>
    simp only [prune, pruneItems_eq, List.map_map]
    congr 1
    exact List.map_congr_left fun x hx => ih x hx
  | obj fields ih =>
    simp only [prune, pruneFields_eq, List.filter_map, List.map_map, List.filter_filter]
    congr 1
    have hfilter : (fields.filter fun field =>
        ((fun field => !Q [.key field.1]) ∘ fun field : String × Json =>
          (field.1, field.2.prune fun path => P (.key field.1 :: path))) field &&
            !P [.key field.1]) =
        fields.filter fun field => !(P [.key field.1] || Q [.key field.1]) := by
      refine List.filter_congr fun field _ => ?_
      simp [Bool.and_comm]
    rw [hfilter]
    refine List.map_congr_left fun field hfield => ?_
    simp only [Function.comp, ih field (List.mem_of_mem_filter hfield)]

theorem Ordered.prune {j : Json} (h : j.Ordered) : (j.prune P).Ordered := by
  induction h generalizing P with
  | null => exact .null
  | bool b => exact .bool b
  | num s => exact .num s
  | str s => exact .str s
  | arr _ ih =>
    rw [Json.prune, pruneItems_eq]
    refine .arr fun x hx => ?_
    obtain ⟨y, hy, rfl⟩ := List.mem_map.mp hx
    exact ih y hy
  | obj hkeys _ ih =>
    rw [Json.prune, pruneFields_eq]
    refine .obj ?_ fun field hfield => ?_
    · simp only [JsonObject.keys, List.map_map, Function.comp_def]
      exact hkeys.sublist (List.filter_sublist.map Prod.fst)
    · obtain ⟨g, hg, rfl⟩ := List.mem_map.mp hfield
      exact ih g (List.mem_of_mem_filter hg)

theorem get_pruneFields {k : String} (h : P [.key k] = false) (m : JsonObject) :
    (pruneFields P m).get k = (m.get k).map (prune fun path => P (.key k :: path)) := by
  induction m with
  | nil => rfl
  | cons field m ih =>
    rw [pruneFields, JsonObject.get_cons]
    by_cases hk : k = field.1
    · subst hk
      rw [if_neg (by simp [h]), JsonObject.get_cons, if_pos rfl, if_pos rfl, Option.map_some]
    · rw [if_neg hk, ← ih]
      split
      · rfl
      · rw [JsonObject.get_cons, if_neg hk]

theorem prune_mapNum {f : String → String} (j : Json) :
    (j.mapNum f).prune P = (j.prune P).mapNum f := by
  induction j using Json.ind generalizing P with
  | null => rfl
  | bool b => rfl
  | num s => rfl
  | str s => rfl
  | arr items ih =>
    simp only [prune, mapNum, pruneItems_eq, mapNumItems_eq, List.map_map]
    congr 1
    exact List.map_congr_left fun x hx => ih x hx
  | obj fields ih =>
    simp only [prune, mapNum, pruneFields_eq, mapNumFields_eq, List.filter_map, List.map_map]
    congr 1
    refine List.map_congr_left fun field hfield => ?_
    simp only [Function.comp, ih field (List.mem_of_mem_filter hfield)]

theorem pruneFields_pruneFields (m : JsonObject) :
    pruneFields Q (pruneFields P m) = pruneFields (fun path => P path || Q path) m := by
  have h := prune_prune (P := P) (Q := Q) (.obj m)
  simpa only [prune, obj.injEq] using h

/-- Deleting a key removes the path of that one step. -/
theorem erase_eq_pruneFields (m : JsonObject) (k : String) :
    m.erase k = pruneFields (fun path => path = [.key k]) m := by
  rw [pruneFields_eq, JsonObject.erase]
  have hfilter : (m.filter fun field => decide (field.1 ≠ k)) =
      m.filter fun field => !decide ([Step.key field.1] = [Step.key k]) := by
    refine List.filter_congr fun field _ => ?_
    simp
  rw [hfilter]
  refine ((List.map_congr_left fun field hfield => ?_).trans (List.map_id _)).symm
  have hne : field.1 ≠ k := by
    have := List.of_mem_filter hfield
    simpa using this
  rw [prune_of_forall fun path => by simp [hne]]
  rfl

/-- A predicate whose paths all go through one key changes the value of that key only. -/
theorem pruneFields_at {m : JsonObject} {k : String} (hnd : m.keys.Nodup)
    (hP : ∀ path, P path = true → ∃ step rest, path = .key k :: step :: rest) :
    pruneFields P m =
      match m.get k with
      | none => m
      | some v => m.replace k (v.prune fun path => P (.key k :: path)) := by
  -- no path is a key alone, and none starts with another key
  have halone : ∀ key, P [.key key] = false := by
    intro key
    by_contra h
    obtain ⟨step, rest, hpath⟩ := hP _ (Bool.eq_true_of_not_eq_false h)
    simp at hpath
  have hother : ∀ key, key ≠ k → ∀ path, P (.key key :: path) = false := by
    intro key hne path
    by_contra h
    obtain ⟨step, rest, hpath⟩ := hP _ (Bool.eq_true_of_not_eq_false h)
    simp only [List.cons.injEq, Step.key.injEq] at hpath
    exact hne hpath.1
  have hmap : pruneFields P m = m.map fun field =>
      if field.1 = k then (field.1, field.2.prune fun path => P (.key k :: path)) else field := by
    rw [pruneFields_eq, List.filter_eq_self.mpr fun field _ => by simp [halone]]
    refine List.map_congr_left fun field _ => ?_
    by_cases h : field.1 = k
    · rw [if_pos h, h]
    · rw [if_neg h, prune_of_forall (hother field.1 h)]
  rw [hmap]
  cases hget : m.get k with
  | none =>
    refine (List.map_congr_left fun field hfield => ?_).trans (List.map_id m)
    have hne : field.1 ≠ k := by
      intro h
      exact JsonObject.get_eq_none_iff.mp hget (h ▸ List.mem_map_of_mem hfield)
    rw [if_neg hne]
    rfl
  | some v => exact JsonObject.map_eq_replace hnd hget

/-- A value without fields is left alone by a predicate whose paths all start with a key. -/
theorem prune_of_not_obj {j : Json} (hj : ∀ fields, j ≠ .obj fields)
    (hP : ∀ path, P (.item :: path) = false) : j.prune P = j := by
  cases j with
  | null => rfl
  | bool b => rfl
  | num s => rfl
  | str s => rfl
  | arr items =>
    rw [prune, pruneItems_eq, List.map_congr_left fun x _ => prune_of_forall hP x, List.map_id']
  | obj fields => exact absurd rfl (hj fields)

/-- A value without elements is left alone by a predicate whose paths all start with an element. -/
theorem prune_of_not_arr {j : Json} (hj : ∀ items, j ≠ .arr items)
    (hP : ∀ key path, P (.key key :: path) = false) : j.prune P = j := by
  cases j with
  | null => rfl
  | bool b => rfl
  | num s => rfl
  | str s => rfl
  | arr items => exact absurd rfl (hj items)
  | obj fields =>
    rw [prune, pruneFields_eq, List.filter_eq_self.mpr fun field _ => by simp [hP]]
    congr 1
    refine (List.map_congr_left fun field _ => ?_).trans (List.map_id fields)
    rw [prune_of_forall (hP field.1)]
    rfl

section Nested

variable {m : JsonObject} {k k' : String} (hm : m.Ordered)
  (hP : ∀ path, P path = true → ∃ step rest, path = .key k :: .key k' :: step :: rest)

include hP

theorem nested_at (path : List Step) (h : P path = true) :
    ∃ step rest, path = .key k :: step :: rest := by
  obtain ⟨step, rest, rfl⟩ := hP path h
  exact ⟨_, _, rfl⟩

theorem nested_inner (path : List Step) (h : P (.key k :: path) = true) :
    ∃ step rest, path = .key k' :: step :: rest := by
  obtain ⟨step, rest, hpath⟩ := hP _ h
  exact ⟨step, rest, (List.cons.inj hpath).2⟩

include hm

/-- A predicate whose paths all go through two keys changes the value at these keys. -/
theorem pruneFields_nested {inner : JsonObject} {v : Json} (hget : m.get k = some (.obj inner))
    (hinner : inner.get k' = some v) :
    pruneFields P m = m.replace k (.obj (inner.replace k'
      (v.prune fun path => P (.key k :: .key k' :: path)))) := by
  have hnd : inner.keys.Nodup := (ordered_obj.mp (hm.get hget)).nodup
  rw [pruneFields_at hm.nodup (nested_at hP), hget]
  dsimp only
  rw [prune, pruneFields_at hnd (nested_inner hP), hinner]

/-- Nothing is changed when the value at the two keys is not, or there is none. -/
theorem pruneFields_nested_self
    (h : ∀ inner v, m.get k = some (.obj inner) → JsonObject.get inner k' = some v →
      (v.prune fun path => P (.key k :: .key k' :: path)) = v) :
    pruneFields P m = m := by
  rw [pruneFields_at hm.nodup (nested_at hP)]
  cases hget : m.get k with
  | none => rfl
  | some j =>
    have hj : (j.prune fun path => P (.key k :: path)) = j := by
      by_cases hobj : ∃ inner, j = .obj inner
      · obtain ⟨inner, rfl⟩ := hobj
        have hnd : JsonObject.keys inner |>.Nodup := (ordered_obj.mp (hm.get hget)).nodup
        rw [prune, pruneFields_at hnd (nested_inner hP)]
        cases hinner : JsonObject.get inner k' with
        | none => rfl
        | some v =>
          dsimp only
          rw [h inner v hget hinner, JsonObject.replace_of_get hnd hinner]
      · refine prune_of_not_obj (fun fields hf => hobj ⟨fields, hf⟩) fun path => ?_
        by_contra hpath
        obtain ⟨step, rest, hcons⟩ := nested_inner hP _ (Bool.eq_true_of_not_eq_false hpath)
        simp at hcons
    dsimp only
    rw [hj, JsonObject.replace_of_get hm.nodup hget]

end Nested

end Json
