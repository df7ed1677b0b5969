/-
# JSON patches

The two halves of a JSON patch: `createPatch`, which compares two documents and lists the
operations between them (`gomodules.xyz/jsonpatch`), and `applyPatch`, which carries them out
(`evanphx/json-patch`).

A path is one string; its keys are escaped when it is made and decoded when it is followed
(`pathParts_pointer`).  An operation edits the container its path leads to, and nothing else
(`Json.editAt`).  `Turns ts ops x y` says that the operations turn the value `x` at the keys `ts`
into `y`, whatever stands around it; it has one rule for each way in which operations are put
together, and `turns_handleValues` follows the comparison with these rules.
`applyPatch_createPatch` is the round trip.

Maps are ranged over in an order of their own (`MapOrder`), since Go gives none.
-/
import Mathlib.Data.List.Nodup
import KubernetesNmstate.Caps
import KubernetesNmstate.Json

/-! ## Paths -/

/-- `rfc6901Encoder`, letter by letter. -/
def escapeChar : Char → List Char
  | '~' => ['~', '0']
  | '/' => ['~', '1']
  | c => [c]

/-- The replacements of `rfc6901Decoder`, from the left. -/
def unescape : List Char → List Char
  | '~' :: '1' :: rest => '/' :: unescape rest
  | '~' :: '0' :: rest => '~' :: unescape rest
  | c :: rest => c :: unescape rest
  | [] => []

/-- `decodePatchKey`. -/
def decodePatchKey (k : String) : String := String.ofList (unescape k.toList)

/-- `makePath`. -/
def makePath (path newPart : String) : String :=
  let key := String.ofList (newPart.toList.flatMap escapeChar)
  if path = "" then "/" ++ key else path ++ "/" ++ key

/-- `strings.Split(path, "/")`. -/
def splitPath (path : String) : List String := (path.toList.splitOn '/').map String.ofList

/-- The keys `findObject` walks through, and the key it returns. -/
def pathParts (path : String) : Option (List String × String) :=
  match (splitPath path).tail.map decodePatchKey with
  | [] => none
  | key :: keys => some ((key :: keys).dropLast, (key :: keys).getLast (by simp))

/-- The path through the given keys. -/
def pointer (keys : List String) : String := keys.foldl makePath ""

theorem pointer_append (keys : List String) (key : String) :
    pointer (keys ++ [key]) = makePath (pointer keys) key := by
  rw [pointer, List.foldl_append]
  rfl

/-- A letter is one of the two that are escaped, or stands for itself. -/
theorem escapeChar_cases (c : Char) :
    (c = '~' ∧ escapeChar c = ['~', '0']) ∨ (c = '/' ∧ escapeChar c = ['~', '1']) ∨
      (c ≠ '~' ∧ c ≠ '/' ∧ escapeChar c = [c]) := by
  by_cases htilde : c = '~'
  · exact Or.inl ⟨htilde, by rw [htilde]; rfl⟩
  · by_cases hslash : c = '/'
    · exact Or.inr (Or.inl ⟨hslash, by rw [hslash]; rfl⟩)
    · refine Or.inr (Or.inr ⟨htilde, hslash, ?_⟩)
      rw [escapeChar]
      · exact htilde
      · exact hslash

theorem unescape_cons {c : Char} (hc : c ≠ '~') (rest : List Char) :
    unescape (c :: rest) = c :: unescape rest := by
  rw [unescape]
  · exact fun _ h => absurd h hc
  · exact fun _ h => absurd h hc

theorem unescape_escape (cs : List Char) : unescape (cs.flatMap escapeChar) = cs := by
  induction cs with
  | nil => rfl
  | cons c cs ih =>
    rw [List.flatMap_cons]
    rcases escapeChar_cases c with ⟨rfl, hc⟩ | ⟨rfl, hc⟩ | ⟨htilde, -, hc⟩
    · rw [hc]
      exact congrArg ('~' :: ·) ih
    · rw [hc]
      exact congrArg ('/' :: ·) ih
    · rw [hc, List.singleton_append, unescape_cons htilde, ih]

theorem slash_notMem_escape (cs : List Char) : '/' ∉ cs.flatMap escapeChar := by
  intro h
  obtain ⟨c, -, hmem⟩ := List.mem_flatMap.mp h
  rcases escapeChar_cases c with ⟨-, hc⟩ | ⟨-, hc⟩ | ⟨-, hslash, hc⟩
  · simp [hc] at hmem
  · simp [hc] at hmem
  · rw [hc] at hmem
    exact hslash (List.mem_singleton.mp hmem).symm

/-- A path is a slash before each key. -/
theorem toList_pointer (keys : List String) :
    (pointer keys).toList = keys.flatMap fun key => '/' :: key.toList.flatMap escapeChar := by
  induction keys using List.reverseRecOn with
  | nil => rfl
  | append_singleton keys key ih =>
    rw [pointer_append, List.flatMap_append, ← ih, makePath]
    split
    · rename_i h
      simp [h]
    · simp

theorem splitPath_pointer (keys : List String) :
    splitPath (pointer keys) =
      "" :: keys.map fun key => String.ofList (key.toList.flatMap escapeChar) := by
  have hjoin : (pointer keys).toList =
      ['/'].intercalate ([] :: keys.map fun key => key.toList.flatMap escapeChar) := by
    rw [toList_pointer]
    induction keys with
    | nil => rfl
    | cons key keys ih =>
      rw [List.flatMap_cons, ih]
      cases keys with
      | nil => simp [List.intercalate]
      | cons key' keys => simp [List.intercalate]
  rw [splitPath, hjoin, List.splitOn_intercalate]
  · simp [Function.comp_def]
  · intro l hl
    rcases List.mem_cons.mp hl with rfl | hl
    · simp
    · obtain ⟨key, -, rfl⟩ := List.mem_map.mp hl
      exact slash_notMem_escape _
  · simp

/-- Following a path decodes the keys it was made of. -/
theorem pathParts_pointer (keys : List String) (key : String) :
    pathParts (pointer (keys ++ [key])) = some (keys, key) := by
  have hkeys : (splitPath (pointer (keys ++ [key]))).tail.map decodePatchKey = keys ++ [key] := by
    rw [splitPath_pointer, List.tail_cons, List.map_map]
    refine (List.map_congr_left fun k _ => ?_).trans (List.map_id _)
    simp [decodePatchKey, unescape_escape]
  unfold pathParts
  rw [hkeys]
  cases h : keys ++ [key] with
  | nil => simp at h
  | cons first rest =>
    simp only [← h]
    simp

/-! ## Operations -/

/-- An `Operation`; the nil value of an `add` or a `replace` is written as null. -/
inductive PatchOperation : Type where
  | add (path : String) (value : Json) : PatchOperation
  | remove (path : String) : PatchOperation
  | replace (path : String) (value : Json) : PatchOperation
  deriving Repr, Inhabited

namespace Json

/-- The position an index names in an array of the given length, counted from the end when it is
negative. -/
def position (length : ℕ) (key : String) : Option ℕ :=
  (atoi key).bind fun i =>
    if 0 ≤ i then some i.toNat else if -(length : ℤ) ≤ i then some (i + length).toNat else none

/-- `get` of a container. -/
def member : Json → String → Option Json
  | .obj m, key => JsonObject.get m key
  | .arr items, key => (position items.length key).bind fun i => items[i]?
  | _, _ => none

/-- `set` of a container, for a key `get` has found. -/
def setMember : Json → String → Json → Option Json
  | .obj m, key, value => some (.obj (JsonObject.put m key value))
  | .arr items, key, value =>
    (position items.length key).bind fun i =>
      if i < items.length then some (.arr (items.set i value)) else none
  | _, _, _ => none

/-- `add` of a container: a field is written, an element moves the later ones. -/
def addMember : Json → String → Json → Option Json
  | .obj m, key, value => some (.obj (JsonObject.put m key value))
  | .arr items, key, value =>
    if key = "-" then some (.arr (items ++ [value]))
    else (position (items.length + 1) key).bind fun i =>
      if i < items.length + 1 then some (.arr (items.insertIdx i value)) else none
  | _, _, _ => none

/-- `remove` of a container. -/
def removeMember : Json → String → Option Json
  | .obj m, key =>
    if (JsonObject.get m key).isSome then some (.obj (JsonObject.erase m key)) else none
  | .arr items, key =>
    (position items.length key).bind fun i =>
      if i < items.length then some (.arr (items.eraseIdx i)) else none
  | _, _ => none

/-- What `replace` does to the container it finds: a map takes any key, an array only one that is
there. -/
def replaceMember : Json → String → Json → Option Json
  | .arr items, key, value => ((Json.arr items).member key).bind fun _ =>
      (Json.arr items).setMember key value
  | doc, key, value => doc.setMember key value

/-- An object or an array. -/
def isContainer : Json → Bool
  | .obj _ => true
  | .arr _ => true
  | _ => false

/-- Edit the value that `findObject` finds by these keys, in its place. -/
def editAt (edit : Json → Option Json) : List String → Json → Option Json
  | [], doc => edit doc
  | key :: keys, doc =>
    (doc.member key).bind fun next => (editAt edit keys next).bind (doc.setMember key)

end Json

/-- `Patch.add`, `Patch.remove` and `Patch.replace`; only `replace` takes the empty path, and puts
another document in the place of the whole. -/
def PatchOperation.apply (doc : Json) : PatchOperation → Option Json
  | .add path value => (pathParts path).bind fun (keys, key) =>
      doc.editAt (fun found => found.addMember key value) keys
  | .remove path => (pathParts path).bind fun (keys, key) =>
      doc.editAt (fun found => found.removeMember key) keys
  | .replace path value =>
    if path = "" then if value.isContainer then some value else none
    else (pathParts path).bind fun (keys, key) =>
      doc.editAt (fun found => found.replaceMember key value) keys

/-- `Patch.Apply`. -/
def applyPatch (patch : List PatchOperation) (doc : Json) : Option Json :=
  patch.foldlM PatchOperation.apply doc

/-! ## Comparing two documents -/

/-- The order in which the maps at each path are ranged over. -/
structure MapOrder : Type 1 where
  range : {α : Type} → String → List (String × α) → List (String × α)
  perm : ∀ {α : Type} (path : String) (m : List (String × α)), (range path m).Perm m

/-- The order in which the fields are listed. -/
def MapOrder.listed : MapOrder where
  range _ m := m
  perm _ m := List.Perm.refl m

/-- Two floats are equal: the same number, or both zero. -/
def equalFloats (x y : String) : Bool :=
  x = y || ((x = "0" || x = "-0") && (y = "0" || y = "-0"))

/-- The operations that cut an array down to its first elements, from its end. -/
def removeItems (path : String) (start : ℕ) : ℕ → List PatchOperation
  | 0 => []
  | excess + 1 =>
    .remove (makePath path (toString (start + excess))) :: removeItems path start excess

/-- The operations that append elements. -/
def addItems (path : String) (start : ℕ) : List Json → List PatchOperation
  | [] => []
  | item :: items => .add (makePath path (toString start)) item :: addItems path (start + 1) items

section Compare

variable (added removed : MapOrder)

mutual

/-- `handleValues`. -/
def handleValues (path : String) (av : Json) : Json → List PatchOperation
  | .null =>
    match av with
    | .null => []
    | _ => [.replace path .null]
  | .bool b =>
    match av with
    | .bool a => if a = b then [] else [.replace path (.bool b)]
    | _ => [.replace path (.bool b)]
  | .num b =>
    match av with
    | .num a => if equalFloats a b then [] else [.replace path (.num b)]
    | _ => [.replace path (.num b)]
  | .str b =>
    match av with
    | .str a => if a = b then [] else [.replace path (.str b)]
    | _ => [.replace path (.str b)]
  | .arr b =>
    match av with
    | .arr a =>
      let n := min a.length b.length
      removeItems path n (a.length - n) ++ addItems path n (b.drop n) ++ handleItems path 0 a b
    | _ => [.replace path (.arr b)]
  | .obj b =>
    match av with
    | .obj a =>
      -- `diff`: the fields of the new map, then those only the old one has
      (added.range path (handleFields path a b)).flatMap Prod.snd ++
        (removed.range path (a.filter fun field => (JsonObject.get b field.1).isNone)).map
          fun field => .remove (makePath path field.1)
    | _ => [.replace path (.obj b)]

/-- The operations for the elements both arrays have. -/
def handleItems (path : String) (i : ℕ) (a : List Json) : List Json → List PatchOperation
  | [] => []
  | bv :: b =>
    match a with
    | [] => []
    | av :: a => handleValues (makePath path (toString i)) av bv ++ handleItems path (i + 1) a b

/-- The operations for each field of the new map. -/
def handleFields (path : String) (a : JsonObject) :
    JsonObject → List (String × List PatchOperation)
  | [] => []
  | (key, bv) :: b =>
    (key,
      match a.get key with
      | none => [.add (makePath path key) bv]
      | some av => handleValues (makePath path key) av bv) :: handleFields path a b

end

/-- `CreatePatch`, on documents whose numbers have been read as floats, `float` being how they are
written. -/
def createPatch (float : String → String) (a b : Json) : List PatchOperation :=
  handleValues added removed "" (a.mapNum float) (b.mapNum float)

end Compare

/-! ## Editing in place -/

namespace JsonObject

variable {m m' : JsonObject} {k : String}

theorem put_put (m : JsonObject) (k : String) (v w : Json) :
    (m.put k v).put k w = m.put k w := by
  induction m with
  | nil => simp [put]
  | cons field m ih =>
    by_cases hk : field.1 = k
    · simp [put, hk]
    · by_cases hlt : k < field.1
      · simp [put, hk, hlt]
      · simp [put, hk, hlt, ih]

theorem get_erase (m : JsonObject) (k k' : String) :
    (m.erase k).get k' = if k' = k then none else m.get k' := by
  induction m with
  | nil => simp [erase, get]
  | cons field m ih =>
    have hcons : erase (field :: m) k = if field.1 = k then erase m k else field :: erase m k := by
      by_cases h : field.1 = k
      · simp [erase, h]
      · simp [erase, h]
    rw [hcons]
    by_cases h : field.1 = k
    · rw [if_pos h, ih, get_cons]
      by_cases hk : k' = k
      · rw [if_pos hk, if_pos hk]
      · rw [if_neg hk, if_neg hk, if_neg fun e => hk (e.trans h)]
    · rw [if_neg h, get_cons, get_cons, ih]
      by_cases hk : k' = field.1
      · rw [if_pos hk, if_pos hk, if_neg fun e => h (hk.symm.trans e)]
      · rw [if_neg hk, if_neg hk]

theorem Ordered.erase (h : m.Ordered) : (m.erase k).Ordered := by
  have hsub : (m.erase k).Sublist m := List.filter_sublist
  exact ⟨h.keys.sublist (hsub.map Prod.fst), fun field hfield => h.values field (hsub.mem hfield)⟩

/-- Maps listed in the order of their keys are equal when they hold the same. -/
theorem Ordered.ext (h : m.Ordered) (h' : m'.Ordered) (hget : ∀ k, m.get k = m'.get k) :
    m = m' := by
  have hmem : ∀ field, field ∈ m ↔ field ∈ m' := by
    rintro ⟨k, v⟩
    constructor
    · intro hm
      exact mem_of_get ((hget k).symm.trans (get_of_mem h.nodup hm))
    · intro hm
      exact mem_of_get ((hget k).trans (get_of_mem h'.nodup hm))
  have hsorted : m.Pairwise fun f g => f.1 < g.1 := List.pairwise_map.mp h.keys
  have hsorted' : m'.Pairwise fun f g => f.1 < g.1 := List.pairwise_map.mp h'.keys
  have hperm : m.Perm m' :=
    (List.perm_ext_iff_of_nodup (List.Nodup.of_map Prod.fst h.nodup)
      (List.Nodup.of_map Prod.fst h'.nodup)).mpr hmem
  exact hperm.eq_of_pairwise (fun f g _ _ hfg hgf => absurd (lt_trans hfg hgf) (lt_irrefl _))
    hsorted hsorted'

end JsonObject

namespace Json

variable {doc doc' v w x : Json} {key : String}

theorem member_setMember (h : doc.setMember key v = some doc') : doc'.member key = some v := by
  cases doc with
  | obj m =>
    cases h
    rw [member, JsonObject.get_put, if_pos rfl]
  | arr items =>
    obtain ⟨i, hi, hset⟩ := Option.bind_eq_some_iff.mp h
    split at hset
    · rename_i hlt
      cases hset
      rw [member, List.length_set, hi, Option.bind_some, List.getElem?_set_self hlt]
    · cases hset
  | _ => cases h

theorem setMember_setMember (h : doc.setMember key v = some doc') :
    doc'.setMember key w = doc.setMember key w := by
  cases doc with
  | obj m =>
    cases h
    rw [setMember, setMember, JsonObject.put_put]
  | arr items =>
    obtain ⟨i, hi, hset⟩ := Option.bind_eq_some_iff.mp h
    split at hset
    · cases hset
      rw [setMember, setMember, List.length_set, hi, Option.bind_some, Option.bind_some,
        List.set_set]
    · cases hset
  | _ => cases h

theorem setMember_member (hdoc : doc.Ordered) (h : doc.member key = some x) :
    doc.setMember key x = some doc := by
  cases doc with
  | obj m => rw [setMember, JsonObject.put_of_get (ordered_obj.mp hdoc) h]
  | arr items =>
    obtain ⟨i, hi, hget⟩ := Option.bind_eq_some_iff.mp h
    obtain ⟨hlt, rfl⟩ := List.getElem?_eq_some_iff.mp hget
    rw [setMember, hi, Option.bind_some, if_pos hlt, List.set_getElem_self]
  | _ => cases h

theorem exists_setMember (h : doc.member key = some x) (v : Json) :
    ∃ doc', doc.setMember key v = some doc' := by
  cases doc with
  | obj m => exact ⟨_, rfl⟩
  | arr items =>
    obtain ⟨i, hi, hget⟩ := Option.bind_eq_some_iff.mp h
    obtain ⟨hlt, rfl⟩ := List.getElem?_eq_some_iff.mp hget
    exact ⟨_, by rw [setMember, hi, Option.bind_some, if_pos hlt]⟩
  | _ => cases h

theorem Ordered.setMember (hdoc : doc.Ordered) (hv : v.Ordered)
    (h : doc.setMember key v = some doc') : doc'.Ordered := by
  cases doc with
  | obj m =>
    cases h
    exact ordered_obj.mpr ((ordered_obj.mp hdoc).put hv)
  | arr items =>
    obtain ⟨i, hi, hset⟩ := Option.bind_eq_some_iff.mp h
    split at hset
    · cases hset
      refine .arr fun y hy => ?_
      rcases List.mem_or_eq_of_mem_set hy with hy | rfl
      · cases hdoc with
        | arr hitems => exact hitems y hy
      · exact hv
    · cases hset
  | _ => cases h

theorem Ordered.member (hdoc : doc.Ordered) (h : doc.member key = some x) : x.Ordered := by
  cases hdoc with
  | obj hkeys hvalues => exact hvalues _ (JsonObject.mem_of_get h)
  | arr hitems =>
    obtain ⟨i, -, hget⟩ := Option.bind_eq_some_iff.mp h
    exact hitems x (List.mem_of_getElem? hget)
  | _ => cases h

theorem replaceMember_eq (h : doc.member key = some x) (v : Json) :
    doc.replaceMember key v = doc.setMember key v := by
  cases doc with
  | arr items => rw [replaceMember, h, Option.bind_some]
  | _ => rfl

/-- The value the keys lead to. -/
def locate : List String → Json → Option Json
  | [], doc => some doc
  | key :: keys, doc => (doc.member key).bind (locate keys)

theorem locate_append (keys keys' : List String) (doc : Json) :
    locate (keys ++ keys') doc = (locate keys doc).bind (locate keys') := by
  induction keys generalizing doc with
  | nil => rfl
  | cons key keys ih =>
    rw [List.cons_append, locate, locate, Option.bind_assoc]
    exact congrArg _ (funext fun next => ih next)

theorem editAt_append (edit : Json → Option Json) (keys keys' : List String) (doc : Json) :
    editAt edit (keys ++ keys') doc = editAt (editAt edit keys') keys doc := by
  induction keys generalizing doc with
  | nil => rfl
  | cons key keys ih =>
    rw [List.cons_append, editAt, editAt]
    refine congrArg _ (funext fun next => ?_)
    rw [ih]

/-- Only what an edit does to the located value matters. -/
theorem editAt_congr {edit edit' : Json → Option Json} {keys : List String}
    (h : locate keys doc = some x) (hx : edit x = edit' x) :
    editAt edit keys doc = editAt edit' keys doc := by
  induction keys generalizing doc with
  | nil =>
    cases h
    exact hx
  | cons key keys ih =>
    obtain ⟨next, hnext, hx'⟩ := Option.bind_eq_some_iff.mp h
    rw [editAt, editAt, hnext, Option.bind_some, Option.bind_some, ih hx']

/-- Write a value where the keys lead to. -/
def writeAt (doc : Json) (keys : List String) (value : Json) : Option Json :=
  doc.editAt (fun _ => some value) keys

theorem writeAt_cons (doc : Json) (key : String) (keys : List String) (value : Json) :
    doc.writeAt (key :: keys) value =
      (doc.member key).bind fun next => (next.writeAt keys value).bind (doc.setMember key) := rfl

theorem writeAt_concat (doc : Json) (keys : List String) (key : String) (value : Json) :
    doc.writeAt (keys ++ [key]) value = doc.editAt
      (fun found => (found.member key).bind fun _ => found.setMember key value) keys := by
  rw [writeAt, editAt_append]
  rfl

/-- What writing at a place gives: an ordered document with that value there, in which any other
value can be written as in the old one. -/
theorem writeAt_spec {keys : List String} (hdoc : doc.Ordered) (h : locate keys doc = some x)
    (hv : v.Ordered) : ∃ doc', doc.writeAt keys v = some doc' ∧ doc'.Ordered ∧
      locate keys doc' = some v ∧ ∀ w, doc'.writeAt keys w = doc.writeAt keys w := by
  induction keys generalizing doc with
  | nil => exact ⟨v, rfl, hv, rfl, fun _ => rfl⟩
  | cons key keys ih =>
    obtain ⟨next, hnext, hx⟩ := Option.bind_eq_some_iff.mp h
    obtain ⟨next', hwrite, hord, hloc, hagain⟩ := ih (hdoc.member hnext) hx
    obtain ⟨doc', hset⟩ := exists_setMember hnext next'
    refine ⟨doc', ?_, hdoc.setMember hord hset, ?_, fun w => ?_⟩
    · rw [writeAt_cons, hnext, Option.bind_some, hwrite, Option.bind_some, hset]
    · rw [locate, member_setMember hset, Option.bind_some, hloc]
    · rw [writeAt_cons, writeAt_cons, member_setMember hset, hnext, Option.bind_some,
        Option.bind_some, hagain w]
      exact congrArg _ (funext fun y => setMember_setMember hset)

theorem writeAt_locate {keys : List String} (hdoc : doc.Ordered)
    (h : locate keys doc = some x) : doc.writeAt keys x = some doc := by
  induction keys generalizing doc with
  | nil =>
    cases h
    rfl
  | cons key keys ih =>
    obtain ⟨next, hnext, hx⟩ := Option.bind_eq_some_iff.mp h
    rw [writeAt_cons, hnext, Option.bind_some, ih (hdoc.member hnext) hx, Option.bind_some,
      setMember_member hdoc hnext]

end Json

/-! ## What a list of operations does -/

/-- The operations turn the value at these keys into another one. -/
def Turns (keys : List String) (ops : List PatchOperation) (x y : Json) : Prop :=
  y.Ordered ∧ ∀ doc : Json, doc.Ordered → doc.locate keys = some x →
    applyPatch ops doc = doc.writeAt keys y

namespace Turns

variable {keys : List String} {ops ops' : List PatchOperation} {x y z : Json} {key : String}

theorem nil (hx : x.Ordered) : Turns keys [] x x :=
  ⟨hx, fun _ hdoc h => (Json.writeAt_locate hdoc h).symm⟩

theorem append (h : Turns keys ops x y) (h' : Turns keys ops' y z) :
    Turns keys (ops ++ ops') x z := by
  refine ⟨h'.1, fun doc hdoc hx => ?_⟩
  obtain ⟨doc', hwrite, hord, hloc, hagain⟩ := Json.writeAt_spec hdoc hx h.1
  rw [applyPatch, List.foldlM_append]
  have hfirst : applyPatch ops doc = some doc' := (h.2 doc hdoc hx).trans hwrite
  rw [applyPatch] at hfirst
  rw [hfirst]
  exact (h'.2 doc' hord hloc).trans (hagain z)

/-- One operation, by what it does to the container. -/
theorem single {op : PatchOperation} (edit : Json → Option Json) (hy : y.Ordered)
    (hop : ∀ doc, op.apply doc = doc.editAt edit keys) (hedit : edit x = some y) :
    Turns keys [op] x y := by
  refine ⟨hy, fun doc hdoc hx => ?_⟩
  have happly : applyPatch [op] doc = op.apply doc := by
    simp [applyPatch]
  rw [happly, hop doc]
  exact Json.editAt_congr hx hedit

theorem add {value : Json} (hy : y.Ordered) (h : x.addMember key value = some y) :
    Turns keys [.add (makePath (pointer keys) key) value] x y := by
  refine single (fun found => found.addMember key value) hy (fun doc => ?_) h
  rw [PatchOperation.apply, ← pointer_append, pathParts_pointer]
  rfl

theorem remove (hy : y.Ordered) (h : x.removeMember key = some y) :
    Turns keys [.remove (makePath (pointer keys) key)] x y := by
  refine single (fun found => found.removeMember key) hy (fun doc => ?_) h
  rw [PatchOperation.apply, ← pointer_append, pathParts_pointer]
  rfl

/-- Operations on a member of a value. -/
theorem member {c d : Json} (h : Turns (keys ++ [key]) ops c d) (hc : x.member key = some c)
    (hx : x.Ordered) (hy : x.setMember key d = some y) : Turns keys ops x y := by
  refine ⟨hx.setMember h.1 hy, fun doc hdoc hloc => ?_⟩
  have hlocate : doc.locate (keys ++ [key]) = some c := by
    rw [Json.locate_append, hloc, Option.bind_some, Json.locate, hc]
    rfl
  rw [h.2 doc hdoc hlocate, Json.writeAt_concat]
  refine Json.editAt_congr hloc ?_
  rw [hc, Option.bind_some, hy]

/-- Another value in the place of the old one. -/
theorem replace (hy : y.Ordered) (h : keys ≠ [] ∨ y.isContainer = true) :
    Turns keys [.replace (pointer keys) y] x y := by
  rcases List.eq_nil_or_concat keys with rfl | ⟨before, key, rfl⟩
  · refine single (fun _ => some y) hy (fun doc => ?_) rfl
    have hcontainer : y.isContainer = true := h.resolve_left fun hne => hne rfl
    rw [PatchOperation.apply, pointer, List.foldl_nil, if_pos rfl, if_pos hcontainer]
    rfl
  · refine ⟨hy, fun doc hdoc hloc => ?_⟩
    rw [List.concat_eq_append] at hloc ⊢
    rw [Json.locate_append] at hloc
    obtain ⟨found, hfound, hx⟩ := Option.bind_eq_some_iff.mp hloc
    have hmember : found.member key = some x := by simpa [Json.locate] using hx
    have hpath : pointer (before ++ [key]) ≠ "" := by
      intro hempty
      have := toList_pointer (before ++ [key])
      rw [hempty] at this
      simp at this
    have happly : applyPatch [.replace (pointer (before ++ [key])) y] doc =
        doc.editAt (fun found => found.replaceMember key y) before := by
      simp [applyPatch, PatchOperation.apply, hpath, pathParts_pointer]
    rw [happly, Json.writeAt_concat]
    refine Json.editAt_congr hfound ?_
    rw [Json.replaceMember_eq hmember, hmember, Option.bind_some]

end Turns

/-! ## Documents that are read and written back as they are -/

/-- The greatest `int`. -/
def maxInt : ℕ := 9223372036854775807

/-- The numbers of the document are floats as they are written, none of them the negative zero, and
its arrays have a length. -/
inductive Json.Exact (float : String → String) : Json → Prop
  | null : Exact float .null
  | bool (value : Bool) : Exact float (.bool value)
  | num {literal : String} (hfloat : float literal = literal) (hzero : literal ≠ "-0") :
      Exact float (.num literal)
  | str (value : String) : Exact float (.str value)
  | arr {items : List Json} (hlen : items.length ≤ maxInt) (h : ∀ x ∈ items, Exact float x) :
      Exact float (.arr items)
  | obj {fields : JsonObject} (h : ∀ field ∈ fields, Exact float field.2) :
      Exact float (.obj fields)

theorem Json.Exact.mapNum {float : String → String} {j : Json} (h : j.Exact float) :
    j.mapNum float = j := by
  induction j using Json.ind with
  | null => rfl
  | bool b => rfl
  | num s =>
    cases h with
    | num hfloat _ => rw [Json.mapNum, hfloat]
  | str s => rfl
  | arr items ih =>
    cases h with
    | arr _ hitems =>
      rw [Json.mapNum, Json.mapNumItems_eq]
      refine congrArg Json.arr ((List.map_congr_left fun x hx => ?_).trans (List.map_id items))
      exact ih x hx (hitems x hx)
  | obj fields ih =>
    cases h with
    | obj hfields =>
      rw [Json.mapNum, Json.mapNumFields_eq]
      refine congrArg Json.obj ((List.map_congr_left fun f hf => ?_).trans (List.map_id fields))
      rw [ih f hf (hfields f hf)]
      rfl

/-- Equal floats are written in the same way, but for the zeros. -/
theorem eq_of_equalFloats {x y : String} (hx : x ≠ "-0") (hy : y ≠ "-0")
    (h : equalFloats x y = true) : x = y := by
  simp [equalFloats, hx, hy] at h
  rcases h with h | ⟨h, h'⟩
  · exact h
  · rw [h, h']

/-! ## The arrays -/

section Arrays

variable {keys : List String}

theorem atoi_index {i : ℕ} (hi : i ≤ maxInt) : atoi (toString i) = some (i : ℤ) := by
  rw [atoi_toString]
  exact if_pos hi

theorem position_toString {i : ℕ} (hi : i ≤ maxInt) (length : ℕ) :
    Json.position length (toString i) = some i := by
  rw [Json.position, atoi_index hi]
  simp

theorem toString_ne_dash {i : ℕ} (hi : i ≤ maxInt) : toString i ≠ "-" := by
  intro h
  have hvalue := atoi_index hi
  have hdash : atoi "-" = none := by decide
  rw [h, hdash] at hvalue
  cases hvalue

theorem ordered_arr {items : List Json} : (Json.arr items).Ordered ↔ ∀ x ∈ items, x.Ordered := by
  constructor
  · rintro ⟨⟩
    assumption
  · exact .arr

theorem turns_removeItems (start excess : ℕ) {xs : List Json} (hlen : xs.length = start + excess)
    (hmax : xs.length ≤ maxInt) (hxs : (Json.arr xs).Ordered) :
    Turns keys (removeItems (pointer keys) start excess) (.arr xs) (.arr (xs.take start)) := by
  induction excess generalizing xs with
  | zero =>
    rw [List.take_of_length_le (by omega)]
    exact Turns.nil hxs
  | succ excess ih =>
    have hlast : xs.eraseIdx (start + excess) = xs.take (start + excess) := by
      rw [List.eraseIdx_eq_take_drop_succ, List.drop_of_length_le (by omega), List.append_nil]
    have hord : (Json.arr (xs.take (start + excess))).Ordered :=
      ordered_arr.mpr fun x hx => ordered_arr.mp hxs x (List.mem_of_mem_take hx)
    have hremove : (Json.arr xs).removeMember (toString (start + excess)) =
        some (.arr (xs.take (start + excess))) := by
      rw [Json.removeMember, position_toString (by omega), Option.bind_some, if_pos (by omega),
        hlast]
    have hlen' : (xs.take (start + excess)).length = start + excess := by
      rw [List.length_take]
      omega
    have hrest := ih hlen' (by omega) hord
    rw [List.take_take, Nat.min_eq_left (by omega)] at hrest
    exact (Turns.remove hord hremove).append hrest

theorem turns_addItems {xs items : List Json} (hmax : xs.length + items.length ≤ maxInt)
    (hxs : (Json.arr xs).Ordered) (hitems : (Json.arr items).Ordered) :
    Turns keys (addItems (pointer keys) xs.length items) (.arr xs) (.arr (xs ++ items)) := by
  induction items generalizing xs with
  | nil =>
    rw [List.append_nil]
    exact Turns.nil hxs
  | cons item items ih =>
    rw [List.length_cons] at hmax
    have hord : (Json.arr (xs ++ [item])).Ordered := by
      refine ordered_arr.mpr fun x hx => ?_
      rcases List.mem_append.mp hx with hx | hx
      · exact ordered_arr.mp hxs x hx
      · exact ordered_arr.mp hitems x (List.mem_singleton.mp hx ▸ List.mem_cons_self)
    have hadd : (Json.arr xs).addMember (toString xs.length) item =
        some (.arr (xs ++ [item])) := by
      rw [Json.addMember, if_neg (toString_ne_dash (by omega)), position_toString (by omega),
        Option.bind_some, if_pos (by omega), List.insertIdx_length_self]
    have hmax' : (xs ++ [item]).length + items.length ≤ maxInt := by
      rw [List.length_append, List.length_singleton]
      omega
    have hrest := ih hmax' hord
      (ordered_arr.mpr fun x hx => ordered_arr.mp hitems x (List.mem_cons_of_mem item hx))
    rw [List.length_append, List.length_singleton, List.append_assoc, List.singleton_append]
      at hrest
    exact (Turns.add hord hadd).append hrest

end Arrays

/-! ## The round trip -/

section RoundTrip

variable {added removed : MapOrder} {float : String → String} {keys : List String}

/-- The comparison is right for this new value, wherever it stands. -/
def Compares (added removed : MapOrder) (float : String → String) (bv : Json) : Prop :=
  ∀ (keys : List String) (av : Json), av.Ordered → av.Exact float →
    (keys ≠ [] ∨ bv.isContainer = true) →
    Turns keys (handleValues added removed (pointer keys) av bv) av bv

theorem turns_handleItems {a b pre : List Json} (hb : ∀ bv ∈ b, Compares added removed float bv)
    (ha : ∀ av ∈ a, av.Ordered ∧ av.Exact float) (hmax : pre.length + a.length ≤ maxInt)
    (hcur : (Json.arr (pre ++ (a.take (min a.length b.length) ++
      b.drop (min a.length b.length)))).Ordered) :
    Turns keys (handleItems added removed (pointer keys) pre.length a b)
      (.arr (pre ++ (a.take (min a.length b.length) ++ b.drop (min a.length b.length))))
      (.arr (pre ++ b)) := by
  induction b generalizing a pre with
  | nil =>
    simp only [List.length_nil, Nat.min_zero, List.take_zero, List.drop_zero,
      List.append_nil] at hcur ⊢
    rw [handleItems]
    exact Turns.nil hcur
  | cons bv b ih =>
    cases a with
    | nil =>
      simp only [List.length_nil, Nat.zero_min, List.take_zero, List.drop_zero,
        List.nil_append] at hcur ⊢
      rw [handleItems]
      exact Turns.nil hcur
    | cons av a =>
      have hmin : min (av :: a).length (bv :: b).length = min a.length b.length + 1 := by
        simp only [List.length_cons]
        omega
      rw [hmin, List.take_succ_cons, List.drop_succ_cons, List.cons_append] at hcur ⊢
      rw [List.length_cons] at hmax
      generalize hrest : a.take (min a.length b.length) ++ b.drop (min a.length b.length) = rest
        at hcur ⊢
      have hi : pre.length < (pre ++ av :: rest).length := by simp
      have hmember : (Json.arr (pre ++ av :: rest)).member (toString pre.length) = some av := by
        rw [Json.member, position_toString (by omega), Option.bind_some]
        simp
      have hset : (Json.arr (pre ++ av :: rest)).setMember (toString pre.length) bv =
          some (.arr (pre ++ bv :: rest)) := by
        rw [Json.setMember, position_toString (by omega), Option.bind_some, if_pos hi]
        simp
      have hfirst : Turns keys
          (handleValues added removed (makePath (pointer keys) (toString pre.length)) av bv)
          (.arr (pre ++ av :: rest)) (.arr (pre ++ bv :: rest)) := by
        obtain ⟨hord, hexact⟩ := ha av List.mem_cons_self
        have hbv := hb bv List.mem_cons_self (keys ++ [toString pre.length]) av hord hexact
          (Or.inl (by simp))
        rw [pointer_append] at hbv
        exact hbv.member hmember hcur hset
      have hlen : (pre ++ [bv]).length = pre.length + 1 := by simp
      have hnext := hfirst.1
      rw [List.append_cons, ← hrest] at hnext
      have hlater := ih (fun bv' h => hb bv' (List.mem_cons_of_mem bv h))
        (fun av' h => ha av' (List.mem_cons_of_mem av h)) (by omega) hnext
      rw [hlen, hrest, ← List.append_cons, ← List.append_cons] at hlater
      rw [handleItems]
      exact hfirst.append hlater

/-- The operations for one field of the new map. -/
def fieldPatch (added removed : MapOrder) (path : String) (a : JsonObject) (key : String)
    (bv : Json) : List PatchOperation :=
  match a.get key with
  | none => [.add (makePath path key) bv]
  | some av => handleValues added removed (makePath path key) av bv

theorem handleFields_eq (path : String) (a b : JsonObject) :
    handleFields added removed path a b =
      b.map fun field => (field.1, fieldPatch added removed path a field.1 field.2) := by
  induction b with
  | nil => rw [handleFields, List.map_nil]
  | cons field b ih => rw [handleFields, ih, List.map_cons, fieldPatch]

theorem turns_fieldPatch {a m : JsonObject} {key : String} {bv : Json}
    (ha : ∀ av, a.get key = some av → av.Ordered ∧ av.Exact float) (hm : m.Ordered)
    (hbv : bv.Ordered) (hcompares : Compares added removed float bv)
    (hget : m.get key = a.get key) :
    Turns keys (fieldPatch added removed (pointer keys) a key bv) (.obj m)
      (.obj (m.put key bv)) := by
  have hord : (Json.obj (m.put key bv)).Ordered := Json.ordered_obj.mpr (hm.put hbv)
  unfold fieldPatch
  cases h : a.get key with
  | none => exact Turns.add hord rfl
  | some av =>
    obtain ⟨hav, hexact⟩ := ha av h
    have hturns := hcompares (keys ++ [key]) av hav hexact (Or.inl (by simp))
    rw [pointer_append] at hturns
    exact hturns.member (hget.trans h) (Json.ordered_obj.mpr hm) rfl

/-- The loop over the fields of the new map, in any order: each is written, the rest stays. -/
theorem turns_fields {a b m : JsonObject} {entries : List (String × List PatchOperation)}
    (ha : a.Ordered) (haexact : (Json.obj a).Exact float) (hb : b.Ordered)
    (hcompares : ∀ field ∈ b, Compares added removed float field.2)
    (hentries : ∀ entry ∈ entries, ∃ bv, b.get entry.1 = some bv ∧
      entry.2 = fieldPatch added removed (pointer keys) a entry.1 bv)
    (hnodup : (entries.map Prod.fst).Nodup) (hm : m.Ordered)
    (hget : ∀ key ∈ entries.map Prod.fst, m.get key = a.get key) :
    ∃ m', Turns keys (entries.flatMap Prod.snd) (.obj m) (.obj m') ∧
      ∀ key, JsonObject.get m' key =
        if key ∈ entries.map Prod.fst then b.get key else m.get key := by
  induction entries generalizing m with
  | nil => exact ⟨m, Turns.nil (Json.ordered_obj.mpr hm), fun key => by simp⟩
  | cons entry entries ih =>
    obtain ⟨key, ops⟩ := entry
    obtain ⟨bv, hbv, hops⟩ := hentries (key, ops) List.mem_cons_self
    dsimp only at hbv hops
    subst hops
    obtain ⟨hkey, hrest⟩ := List.nodup_cons.mp hnodup
    have hvalues : ∀ av, a.get key = some av → av.Ordered ∧ av.Exact float := by
      intro av h
      refine ⟨ha.get h, ?_⟩
      cases haexact with
      | obj hfields => exact hfields _ (JsonObject.mem_of_get h)
    have hfirst : Turns keys (fieldPatch added removed (pointer keys) a key bv) (.obj m)
        (.obj (m.put key bv)) :=
      turns_fieldPatch hvalues hm (hb.get hbv) (hcompares _ (JsonObject.mem_of_get hbv))
        (hget key List.mem_cons_self)
    have hlater : ∀ k ∈ entries.map Prod.fst, (m.put key bv).get k = a.get k := by
      intro k hk
      have hne : k ≠ key := fun e => hkey (e ▸ hk)
      rw [JsonObject.get_put, if_neg hne]
      exact hget k (List.mem_cons_of_mem key hk)
    obtain ⟨m', hturns, hm'⟩ := ih (fun entry h => hentries entry (List.mem_cons_of_mem _ h))
      hrest (hm.put (hb.get hbv)) hlater
    refine ⟨m', hfirst.append hturns, fun k => ?_⟩
    rw [hm' k, JsonObject.get_put, List.map_cons]
    by_cases hk : k = key
    · subst hk
      rw [if_neg hkey, if_pos rfl, if_pos List.mem_cons_self, hbv]
    · have hmem : k ∈ key :: entries.map Prod.fst ↔ k ∈ entries.map Prod.fst := by
        rw [List.mem_cons, or_iff_right hk]
      simp only [hmem, if_neg hk]

/-- The loop over the fields the new map does not have. -/
theorem turns_removeFields {m : JsonObject} {fields : JsonObject} (hm : m.Ordered)
    (hnodup : fields.keys.Nodup) (hget : ∀ key ∈ fields.keys, (m.get key).isSome = true) :
    ∃ m', Turns keys (fields.map fun field => .remove (makePath (pointer keys) field.1)) (.obj m)
        (.obj m') ∧
      ∀ key, JsonObject.get m' key = if key ∈ fields.keys then none else m.get key := by
  induction fields generalizing m with
  | nil => exact ⟨m, Turns.nil (Json.ordered_obj.mpr hm), fun key => by simp [JsonObject.keys]⟩
  | cons field fields ih =>
    obtain ⟨hkey, hrest⟩ := List.nodup_cons.mp hnodup
    have hord : (Json.obj (m.erase field.1)).Ordered := Json.ordered_obj.mpr hm.erase
    have hremove : (Json.obj m).removeMember field.1 = some (.obj (m.erase field.1)) := by
      rw [Json.removeMember, if_pos (hget field.1 List.mem_cons_self)]
    have hlater : ∀ k ∈ JsonObject.keys fields, ((m.erase field.1).get k).isSome = true := by
      intro k hk
      have hne : k ≠ field.1 := fun e => hkey (e ▸ hk)
      rw [JsonObject.get_erase, if_neg hne]
      exact hget k (List.mem_cons_of_mem _ hk)
    obtain ⟨m', hturns, hm'⟩ := ih hm.erase hrest hlater
    refine ⟨m', (Turns.remove hord hremove).append hturns, fun k => ?_⟩
    rw [hm' k, JsonObject.get_erase]
    by_cases hk : k = field.1
    · have hmem : k ∈ JsonObject.keys (field :: fields) := by
        rw [hk]
        exact List.mem_cons_self
      rw [if_pos hk, ite_self, if_pos hmem]
    · have hmem : k ∈ JsonObject.keys (field :: fields) ↔ k ∈ JsonObject.keys fields := by
        simp [JsonObject.keys, hk]
      simp only [hmem, if_neg hk]

theorem isSome_get_iff {m : JsonObject} {key : String} :
    (m.get key).isSome = true ↔ key ∈ m.keys := by
  rw [← not_iff_not, ← JsonObject.get_eq_none_iff, Option.not_isSome_iff_eq_none]

/-- The keys only the old map has. -/
theorem mem_keys_gone {a b gone : JsonObject}
    (h : gone.Perm (a.filter fun field => (b.get field.1).isNone)) (key : String) :
    key ∈ gone.keys ↔ (a.get key).isSome = true ∧ b.get key = none := by
  rw [isSome_get_iff, JsonObject.keys, (h.map Prod.fst).mem_iff]
  simp only [JsonObject.keys, List.mem_map, List.mem_filter, Option.isNone_iff_eq_none]
  constructor
  · rintro ⟨field, ⟨hfield, hnone⟩, rfl⟩
    exact ⟨⟨field, hfield, rfl⟩, hnone⟩
  · rintro ⟨⟨field, hfield, rfl⟩, hnone⟩
    exact ⟨field, ⟨hfield, hnone⟩, rfl⟩

theorem turns_arrays {a b : List Json} (ha : (Json.arr a).Ordered)
    (haexact : (Json.arr a).Exact float) (hb : (Json.arr b).Ordered)
    (hbmax : b.length ≤ maxInt) (hcompares : ∀ bv ∈ b, Compares added removed float bv) :
    Turns keys (handleValues added removed (pointer keys) (.arr a) (.arr b)) (.arr a)
      (.arr b) := by
  cases haexact with
  | arr hamax haitems =>
    have haord := ordered_arr.mp ha
    have hbord := ordered_arr.mp hb
    rw [handleValues]
    generalize hn : min a.length b.length = n
    have hna : n ≤ a.length := by omega
    have hnb : n ≤ b.length := by omega
    have htake : (a.take n).length = n := by
      rw [List.length_take]
      omega
    have hcut : Turns keys (removeItems (pointer keys) n (a.length - n)) (.arr a)
        (.arr (a.take n)) :=
      turns_removeItems n (a.length - n) (by omega) hamax ha
    have hadd : Turns keys (addItems (pointer keys) (a.take n).length (b.drop n))
        (.arr (a.take n)) (.arr (a.take n ++ b.drop n)) :=
      turns_addItems (by rw [htake, List.length_drop]; omega) hcut.1
        (ordered_arr.mpr fun x hx => hbord x (List.mem_of_mem_drop hx))
    rw [htake] at hadd
    have hitems : Turns keys (handleItems added removed (pointer keys) 0 a b)
        (.arr ([] ++ (a.take (min a.length b.length) ++ b.drop (min a.length b.length))))
        (.arr ([] ++ b)) :=
      turns_handleItems hcompares (fun av hav => ⟨haord av hav, haitems av hav⟩)
        (by simpa using hamax) (by rw [hn]; exact hadd.1)
    rw [hn] at hitems
    exact (hcut.append hadd).append hitems

theorem turns_maps {a b : JsonObject} (ha : a.Ordered) (haexact : (Json.obj a).Exact float)
    (hb : b.Ordered) (hcompares : ∀ field ∈ b, Compares added removed float field.2) :
    Turns keys (handleValues added removed (pointer keys) (.obj a) (.obj b)) (.obj a)
      (.obj b) := by
  rw [handleValues, handleFields_eq]
  have hperm := added.perm (pointer keys)
    (b.map fun field => (field.1, fieldPatch added removed (pointer keys) a field.1 field.2))
  generalize added.range (pointer keys)
    (b.map fun field => (field.1, fieldPatch added removed (pointer keys) a field.1 field.2)) =
    entries at hperm ⊢
  have hentrykeys : (entries.map Prod.fst).Perm b.keys := by
    refine (hperm.map Prod.fst).trans ?_
    rw [List.map_map]
    exact List.Perm.refl _
  have hgone := removed.perm (pointer keys)
    (a.filter fun field => (JsonObject.get b field.1).isNone)
  generalize removed.range (pointer keys)
    (a.filter fun field => (JsonObject.get b field.1).isNone) = gone at hgone ⊢
  have hentries : ∀ entry ∈ entries, ∃ bv, b.get entry.1 = some bv ∧
      entry.2 = fieldPatch added removed (pointer keys) a entry.1 bv := by
    intro entry hentry
    obtain ⟨⟨key, bv⟩, hfield, rfl⟩ := List.mem_map.mp (hperm.mem_iff.mp hentry)
    exact ⟨bv, JsonObject.get_of_mem hb.nodup hfield, rfl⟩
  have hgonekeys := mem_keys_gone hgone
  have hgonenodup : (JsonObject.keys gone).Nodup :=
    ((hgone.map Prod.fst).nodup_iff).mpr (ha.nodup.sublist (List.filter_sublist.map Prod.fst))
  obtain ⟨m, hfields, hm⟩ := turns_fields ha haexact hb hcompares hentries
    (hentrykeys.nodup_iff.mpr hb.nodup) ha fun _ _ => rfl
  simp only [hentrykeys.mem_iff] at hm
  have hkept : ∀ key ∈ JsonObject.keys gone, (JsonObject.get m key).isSome = true := by
    intro key hkey
    obtain ⟨hold, hnew⟩ := (hgonekeys key).mp hkey
    rw [hm key, if_neg (JsonObject.get_eq_none_iff.mp hnew)]
    exact hold
  obtain ⟨m', hremoves, hm'⟩ := turns_removeFields (Json.ordered_obj.mp hfields.1) hgonenodup hkept
  have hboth := hfields.append hremoves
  have heq : m' = b := by
    refine (Json.ordered_obj.mp hboth.1).ext hb fun key => ?_
    rw [hm' key, hm key]
    by_cases hnew : key ∈ b.keys
    · have hstays : key ∉ JsonObject.keys gone := fun h =>
        JsonObject.get_eq_none_iff.mp ((hgonekeys key).mp h).2 hnew
      rw [if_neg hstays, if_pos hnew]
    · rw [if_neg hnew, JsonObject.get_eq_none_iff.mpr hnew]
      by_cases hold : (a.get key).isSome = true
      · rw [if_pos ((hgonekeys key).mpr ⟨hold, JsonObject.get_eq_none_iff.mpr hnew⟩)]
      · rw [Option.not_isSome_iff_eq_none.mp hold, ite_self]
  rw [heq] at hboth
  exact hboth

/-- A value that is no container stays when it is the old one, and is replaced otherwise. -/
theorem handleValues_scalar (path : String) (av : Json) {bv : Json} (h : bv.isContainer = false) :
    (handleValues added removed path av bv = [] ∧
        ∀ float, av.Exact float → bv.Exact float → av = bv) ∨
      handleValues added removed path av bv = [.replace path bv] := by
  cases bv with
  | null =>
    unfold handleValues
    split
    · exact Or.inl ⟨rfl, fun _ _ _ => rfl⟩
    · exact Or.inr rfl
  | bool b =>
    unfold handleValues
    split
    · split
      · rename_i heq
        exact Or.inl ⟨rfl, fun _ _ _ => congrArg Json.bool heq⟩
      · exact Or.inr rfl
    · exact Or.inr rfl
  | num b =>
    unfold handleValues
    split
    · split
      · rename_i heq
        refine Or.inl ⟨rfl, ?_⟩
        intro float ha hb
        cases ha with
        | num _ ha =>
          cases hb with
          | num _ hb => exact congrArg Json.num (eq_of_equalFloats ha hb heq)
      · exact Or.inr rfl
    · exact Or.inr rfl
  | str b =>
    unfold handleValues
    split
    · split
      · rename_i heq
        exact Or.inl ⟨rfl, fun _ _ _ => congrArg Json.str heq⟩
      · exact Or.inr rfl
    · exact Or.inr rfl
  | arr b => cases h
  | obj b => cases h

theorem compares_scalar {bv : Json} (hord : bv.Ordered) (hexact : bv.Exact float)
    (h : bv.isContainer = false) : Compares added removed float bv := by
  intro keys av hav havexact hkeys
  rcases handleValues_scalar (pointer keys) av h with ⟨hnil, heq⟩ | hreplace
  · rw [hnil, heq float havexact hexact]
    exact Turns.nil hord
  · rw [hreplace]
    exact Turns.replace hord hkeys

/-- A patch turns the old value into the new one, wherever they stand. -/
theorem compares (bv : Json) (hord : bv.Ordered) (hexact : bv.Exact float) :
    Compares added removed float bv := by
  induction bv using Json.ind with
  | null => exact compares_scalar hord hexact rfl
  | bool b => exact compares_scalar hord hexact rfl
  | num b => exact compares_scalar hord hexact rfl
  | str b => exact compares_scalar hord hexact rfl
  | arr b ih =>
    intro keys av hav havexact hkeys
    unfold handleValues
    split
    · cases hexact with
      | arr hmax hitems =>
        refine turns_arrays hav havexact hord hmax fun bv hbv => ?_
        exact ih bv hbv (ordered_arr.mp hord bv hbv) (hitems bv hbv)
    · exact Turns.replace hord hkeys
  | obj b ih =>
    intro keys av hav havexact hkeys
    unfold handleValues
    split
    · cases hexact with
      | obj hfields =>
        have hord' := Json.ordered_obj.mp hord
        refine turns_maps (Json.ordered_obj.mp hav) havexact hord' fun field hfield => ?_
        exact ih field hfield (hord'.values field hfield) (hfields field hfield)
    · exact Turns.replace hord hkeys

/-- Applying the patch between two documents to the first gives the second, in whatever order the
maps were ranged over. -/
theorem applyPatch_createPatch {a b : Json} (ha : a.Ordered) (haexact : a.Exact float)
    (hb : b.Ordered) (hbexact : b.Exact float) (hcontainer : b.isContainer = true) :
    applyPatch (createPatch added removed float a b) a = some b := by
  have hcompares : Compares added removed float b := compares b hb hbexact
  rw [createPatch, haexact.mapNum, hbexact.mapNum]
  exact (hcompares [] a ha haexact (Or.inr hcontainer)).2 a ha rfl

end RoundTrip

/-! ## Where a patch goes -/

section Places

variable {added removed : MapOrder}

/-- The path of an operation. -/
def PatchOperation.path : PatchOperation → String
  | .add path _ => path
  | .remove path => path
  | .replace path _ => path

/-- Every operation goes to the value at these keys or to a place inside it. -/
def Inside (keys : List String) (ops : List PatchOperation) : Prop :=
  ∀ op ∈ ops, ∃ inner, op.path = pointer (keys ++ inner)

theorem Inside.weaken {keys : List String} {key : String} {ops : List PatchOperation}
    (h : Inside (keys ++ [key]) ops) : Inside keys ops := by
  intro op hop
  obtain ⟨inner, hinner⟩ := h op hop
  exact ⟨key :: inner, by rw [hinner, List.append_assoc, List.singleton_append]⟩

theorem Inside.append {keys : List String} {ops ops' : List PatchOperation} (h : Inside keys ops)
    (h' : Inside keys ops') : Inside keys (ops ++ ops') := by
  intro op hop
  rcases List.mem_append.mp hop with hop | hop
  · exact h op hop
  · exact h' op hop

theorem inside_single {keys : List String} {op : PatchOperation} (h : op.path = pointer keys) :
    Inside keys [op] := by
  intro op' hop'
  rw [List.mem_singleton.mp hop']
  exact ⟨[], by rw [List.append_nil, h]⟩

theorem inside_removeItems (keys : List String) (start excess : ℕ) :
    Inside keys (removeItems (pointer keys) start excess) := by
  induction excess with
  | zero =>
    intro op hop
    cases hop
  | succ excess ih =>
    rw [removeItems, ← pointer_append]
    exact (inside_single rfl : Inside _ [_]).weaken.append ih

theorem inside_addItems (keys : List String) (start : ℕ) (items : List Json) :
    Inside keys (addItems (pointer keys) start items) := by
  induction items generalizing start with
  | nil =>
    intro op hop
    cases hop
  | cons item items ih =>
    rw [addItems, ← pointer_append]
    exact (inside_single rfl : Inside _ [_]).weaken.append (ih (start + 1))

theorem inside_handleItems {b : List Json}
    (h : ∀ bv ∈ b, ∀ keys av, Inside keys (handleValues added removed (pointer keys) av bv))
    (keys : List String) (i : ℕ) (a : List Json) :
    Inside keys (handleItems added removed (pointer keys) i a b) := by
  induction b generalizing i a with
  | nil =>
    intro op hop
    rw [handleItems] at hop
    cases hop
  | cons bv b ih =>
    cases a with
    | nil =>
      intro op hop
      rw [handleItems] at hop
      cases hop
    | cons av a =>
      rw [handleItems, ← pointer_append]
      exact (h bv List.mem_cons_self _ av).weaken.append
        (ih (fun bv' hbv' => h bv' (List.mem_cons_of_mem bv hbv')) (i + 1) a)

theorem inside_fieldPatch {bv : Json}
    (h : ∀ keys av, Inside keys (handleValues added removed (pointer keys) av bv))
    (keys : List String) (a : JsonObject) (key : String) :
    Inside (keys ++ [key]) (fieldPatch added removed (pointer keys) a key bv) := by
  unfold fieldPatch
  rw [← pointer_append]
  cases a.get key with
  | none => exact inside_single rfl
  | some av => exact h (keys ++ [key]) av

/-- The operations of a map: those of its new fields, and the removals. -/
theorem mem_handleValues_obj {path : String} {a b : JsonObject} {op : PatchOperation}
    (h : op ∈ handleValues added removed path (.obj a) (.obj b)) :
    (∃ field ∈ b, op ∈ fieldPatch added removed path a field.1 field.2) ∨
      ∃ field ∈ a, b.get field.1 = none ∧ op = .remove (makePath path field.1) := by
  rw [handleValues, handleFields_eq] at h
  rcases List.mem_append.mp h with h | h
  · obtain ⟨entry, hentry, hop⟩ := List.mem_flatMap.mp h
    obtain ⟨field, hfield, rfl⟩ := List.mem_map.mp ((added.perm path _).mem_iff.mp hentry)
    exact Or.inl ⟨field, hfield, hop⟩
  · obtain ⟨field, hfield, rfl⟩ := List.mem_map.mp h
    obtain ⟨hfield, hnone⟩ := List.mem_filter.mp ((removed.perm path _).mem_iff.mp hfield)
    exact Or.inr ⟨field, hfield, Option.isNone_iff_eq_none.mp hnone, rfl⟩

theorem inside_scalar {bv : Json} (h : bv.isContainer = false) (keys : List String) (av : Json) :
    Inside keys (handleValues added removed (pointer keys) av bv) := by
  rcases handleValues_scalar (pointer keys) av h with ⟨hnil, -⟩ | hreplace
  · rw [hnil]
    intro op hop
    cases hop
  · rw [hreplace]
    exact inside_single rfl

theorem inside_handleValues (bv : Json) (keys : List String) (av : Json) :
    Inside keys (handleValues added removed (pointer keys) av bv) := by
  induction bv using Json.ind generalizing keys av with
  | null => exact inside_scalar rfl keys av
  | bool b => exact inside_scalar rfl keys av
  | num b => exact inside_scalar rfl keys av
  | str b => exact inside_scalar rfl keys av
  | arr b ih =>
    unfold handleValues
    split
    · exact ((inside_removeItems keys _ _).append (inside_addItems keys _ _)).append
        (inside_handleItems ih keys 0 _)
    · exact inside_single rfl
  | obj b ih =>
    cases av with
    | obj a =>
      intro op hop
      rcases mem_handleValues_obj hop with ⟨field, hfield, hop⟩ | ⟨field, -, -, rfl⟩
      · exact (inside_fieldPatch (ih field hfield) keys a field.1).weaken op hop
      · exact ⟨[field.1], (pointer_append keys field.1).symm⟩
    | _ =>
      rw [handleValues]
      · exact inside_single rfl
      · simp

/-- A value and itself need no operation. -/
theorem handleValues_self {j : Json} (h : j.Ordered) (path : String) :
    handleValues added removed path j j = [] := by
  induction j using Json.ind generalizing path with
  | null => rw [handleValues]
  | bool b => simp [handleValues]
  | num s => simp [handleValues, equalFloats]
  | str s => simp [handleValues]
  | arr items ih =>
    have hord := ordered_arr.mp h
    have hitems : ∀ (i : ℕ) (xs : List Json), (∀ x ∈ xs, x ∈ items) →
        handleItems added removed path i xs xs = [] := by
      intro i xs hxs
      induction xs generalizing i with
      | nil => rw [handleItems]
      | cons x xs ihxs =>
        have hx := hxs x List.mem_cons_self
        rw [handleItems, ih x hx (hord x hx), List.nil_append]
        exact ihxs (i + 1) fun y hy => hxs y (List.mem_cons_of_mem x hy)
    rw [handleValues, hitems 0 items fun x hx => hx]
    simp [removeItems, addItems]
  | obj fields ih =>
    have hord := Json.ordered_obj.mp h
    refine List.eq_nil_iff_forall_not_mem.mpr fun op hop => ?_
    rcases mem_handleValues_obj hop with ⟨field, hfield, hop⟩ | ⟨field, hfield, hnone, -⟩
    · rw [fieldPatch, JsonObject.get_of_mem hord.nodup hfield] at hop
      dsimp only at hop
      rw [ih field hfield (hord.values field hfield)] at hop
      cases hop
    · rw [JsonObject.get_of_mem hord.nodup hfield] at hnone
      cases hnone

/-- A patch between two maps stays in the fields in which they differ. -/
theorem mem_createPatch_obj {float : String → String} {a b : JsonObject} {op : PatchOperation}
    (ha : a.Ordered) (haexact : (Json.obj a).Exact float) (hb : b.Ordered)
    (hbexact : (Json.obj b).Exact float)
    (hop : op ∈ createPatch added removed float (.obj a) (.obj b)) :
    ∃ key inner, op.path = pointer (key :: inner) ∧ a.get key ≠ b.get key := by
  rw [createPatch, haexact.mapNum, hbexact.mapNum] at hop
  rcases mem_handleValues_obj hop with ⟨⟨key, bv⟩, hfield, hop⟩ | ⟨⟨key, av⟩, hfield, hnone, rfl⟩
  · obtain ⟨inner, hinner⟩ := inside_fieldPatch (inside_handleValues bv) [] a key op hop
    refine ⟨key, inner, hinner, fun heq => ?_⟩
    have hget := JsonObject.get_of_mem hb.nodup hfield
    rw [fieldPatch, heq, hget] at hop
    dsimp only at hop
    rw [handleValues_self (hb.get hget)] at hop
    cases hop
  · refine ⟨key, [], rfl, fun heq => ?_⟩
    rw [JsonObject.get_of_mem ha.nodup hfield] at heq
    rw [← heq] at hnone
    cases hnone

end Places

