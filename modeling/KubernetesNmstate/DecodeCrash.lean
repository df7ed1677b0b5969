/-
# Documents that crash the decoder

`UnmarshalJSON` of an interface or a route reads the element twice: into a map that it keeps, and
into the two fields it names.  Then it writes the two fields to the map.  For null the first
reading leaves the map nil, the second succeeds, and the write panics; everything else is read
into a map or ends in an error.

The decoder goes through the document in order, whatever the spelling of its keys, and stops at the
first element that is not accepted; an element is accepted or not whatever was read before it.  So
`FilterOut`, `CountInterfacesByType` and `CountRoutes` crash on the documents whose first such
element is null (`decoding_crashes_iff`), and on no document without null elements.
-/
import KubernetesNmstate.StateDocument

open Decode (mismatch fail Reads)

/-! ## The three functions over documents -/

section Functions

variable (float : String → String)

/-- `CountInterfacesByType`. -/
def countInterfacesByTypeDocument (doc : Json) : Except Fault (Counter String) :=
  (decodeState float doc).map countInterfacesByType

/-- `CountRoutes`. -/
def countRoutesDocument (doc : Json) : Except Fault (Counter RouteKey) :=
  (decodeState float doc).map countRoutes

end Functions

/-- The function panics instead of returning. -/
def Crashes {α : Type} (result : Except Fault α) : Prop := result = .error .panic

theorem crashes_map_iff {α β : Type} (f : α → β) (result : Except Fault α) :
    Crashes (result.map f) ↔ Crashes result := by
  unfold Crashes
  cases result with
  | error fault => simp [Except.map]
  | ok a => simp [Except.map]

/-! ## Elements -/

/-- A value that a `string` field takes. -/
def isStringLike : Json → Bool
  | .arr _ | .obj _ => false
  | _ => true

/-- An element that is accepted: a map in which the keys of the two fields hold what a `string`
takes. -/
def isAccepted (first second : String) : Json → Bool
  | .obj m => m.all fun field =>
      (!matchesField first field.1 && !matchesField second field.1) || isStringLike field.2
  | _ => false

/-- What an element that is not accepted ends in. -/
def rejection (message : String) : Json → Fault
  | .null => .panic
  | .obj _ => .error message
  | _ => .error "failed Unmarshaling b"

theorem rejection_eq_panic_iff (message : String) (value : Json) :
    rejection message value = .panic ↔ value = .null := by
  cases value <;> simp [rejection]

theorem decodeString_cases (value : String) (item : Json) :
    (isStringLike item = true ∧ ∃ text, decodeString value item = pure text) ∨
      (isStringLike item = false ∧ decodeString value item = mismatch value) := by
  cases item with
  | arr items => exact Or.inr ⟨rfl, rfl⟩
  | obj fields => exact Or.inr ⟨rfl, rfl⟩
  | _ => exact Or.inl ⟨rfl, _, rfl⟩

/-- A string field is read exactly if all its keys hold what it takes. -/
theorem exists_reads_decodeString_iff (m : JsonObject) (name value : String) :
    (∃ result, Reads (decodeField m name decodeString value) result)
      ↔ ∀ field ∈ m, matchesField name field.1 = true → isStringLike field.2 = true := by
  induction m generalizing value with
  | nil => simp
  | cons field m ih =>
    obtain ⟨key, item⟩ := field
    rw [List.forall_mem_cons, decodeField_cons]
    by_cases hkey : matchesField name key = true
    · rw [if_pos hkey]
      rcases decodeString_cases value item with ⟨hlike, text, htext⟩ | ⟨hlike, hbad⟩
      · rw [htext, pure_bind, ih text]
        exact ⟨fun h => ⟨fun _ => hlike, h⟩, fun h => h.2⟩
      · simp [hbad, hlike, hkey]
    · rw [if_neg hkey, ih value]
      exact ⟨fun h => ⟨fun hmatch => absurd hmatch hkey, h⟩, fun h => h.2⟩

theorem isAccepted_obj_iff (first second : String) (m : JsonObject) :
    isAccepted first second (.obj m) = true
      ↔ (∀ field ∈ m, matchesField first field.1 = true → isStringLike field.2 = true) ∧
        ∀ field ∈ m, matchesField second field.1 = true → isStringLike field.2 = true := by
  rw [isAccepted, List.all_eq_true, ← forall₂_and]
  refine forall₂_congr fun field _ => ?_
  cases matchesField first field.1 <;> cases matchesField second field.1 <;> simp

/-- The two fields are read, or decoding stops with the message. -/
theorem fault_decodeStrings (m : JsonObject) (first second message : String) :
    (decodeStrings m first second message).fault
      = if isAccepted first second (.obj m) = true then none else some (.error message) := by
  unfold decodeStrings
  generalize hfields : (do
      let a ← decodeField m first decodeString ""
      let b ← decodeField m second decodeString ""
      return (a, b) : Decode (String × String)) = fields
  -- the decoding of the fields itself never stops
  have hfault : fields.fault = none := by
    have hstring := fun name => fault_decodeField_eq_none fault_decodeString m name ""
    rw [← hfields, Decode.fault_bind fun a => Decode.fault_bind fun b => Decode.fault_pure (a, b),
      hstring, hstring]
    rfl
  have hreads : (∃ values, Reads fields values) ↔ isAccepted first second (.obj m) = true := by
    rw [← hfields, isAccepted_obj_iff, ← exists_reads_decodeString_iff m first "",
      ← exists_reads_decodeString_iff m second ""]
    simp only [Decode.reads_bind, Decode.reads_pure]
    constructor
    · rintro ⟨values, a, ha, b, hb, -⟩
      exact ⟨⟨a, ha⟩, ⟨b, hb⟩⟩
    · rintro ⟨⟨a, ha⟩, ⟨b, hb⟩⟩
      exact ⟨(a, b), a, ha, b, hb, rfl⟩
  rcases fields with stopped | ⟨values, bad⟩
  · cases hfault
  · cases bad with
    | false => rw [if_pos (hreads.mp ⟨values, rfl⟩)]; rfl
    | true =>
      have hnot : ¬ isAccepted first second (.obj m) = true := by
        rw [← hreads]
        rintro ⟨other, hother⟩
        cases hother
      rw [if_neg hnot]
      rfl

section Elements

variable (float : String → String)

/-- An interface is accepted, or ends in its rejection. -/
theorem fault_unmarshalInterface (value : Json) :
    (unmarshalInterface float value).fault
      = if isAccepted "name" "type" value = true then none
        else some (rejection "failed Unmarshaling raw" value) := by
  cases value with
  | obj m =>
    rw [unmarshalInterface, Decode.fault_bind fun fields => Decode.fault_pure _, Option.or_none,
      fault_decodeStrings]
    rfl
  | _ => rfl

theorem fault_unmarshalRoute (value : Json) :
    (unmarshalRoute float value).fault
      = if isAccepted "destination" "next-hop-interface" value = true then none
        else some (rejection "failed Unmarchaling raw" value) := by
  cases value with
  | obj m =>
    rw [unmarshalRoute, Decode.fault_bind fun fields => Decode.fault_pure _, Option.or_none,
      fault_decodeStrings]
    rfl
  | _ => rfl

end Elements

/-- With such elements a list stops at the first that is not accepted. -/
theorem findSome_rejection (accepted : Json → Bool) (message : String) (items : List Json) :
    (items.findSome? fun item =>
        if accepted item = true then none else some (rejection message item))
      = (items.find? fun item => !accepted item).map (rejection message) := by
  induction items with
  | nil => rfl
  | cons item items ih =>
    rw [List.findSome?_cons, List.find?_cons, ih]
    cases accepted item <;> rfl

/-! ## Sections -/

section Sections

variable (float : String → String)

theorem fault_decodeDNSResolver (value : Option DNSResolver) (item : Json) :
    (decodeDNSResolver float value item).fault = none := by
  have hdata : ∀ value item, (decodeDNSResolverData float value item).fault = none := by
    intro value item
    have hany := fault_decodeField_eq_none (fault_decodeAnys float)
    rw [decodeDNSResolverData, fault_decodePointer (f := fun _ => none)]
    · cases item <;> rfl
    · intro m data
      rw [Decode.fault_bind fun search => Decode.fault_bind fun server => Decode.fault_pure _,
        hany, hany]
      rfl
  have hpart := fault_decodeField_eq_none hdata
  rw [decodeDNSResolver, fault_decodePointer (f := fun _ => none)]
  · cases item <;> rfl
  · intro m dns
    rw [Decode.fault_bind fun config => Decode.fault_bind fun running => Decode.fault_pure _,
      hpart, hpart]
    rfl

theorem fault_decodeBridgeMappings (value : Option BridgeMappings) (item : Json) :
    (decodeBridgeMappings value item).fault = none := by
  have hnetwork : ∀ item, (decodePhysicalNetworks item).fault = none := by
    intro item
    have hstring := fault_decodeField_eq_none fault_decodeString
    cases item with
    | obj m =>
      rw [decodePhysicalNetworks, Decode.fault_bind fun bridge => Decode.fault_bind fun name =>
        Decode.fault_bind fun state => Decode.fault_pure _, hstring, hstring, hstring]
      rfl
    | _ => rfl
  have hitems : ∀ value item, (decodeItems decodePhysicalNetworks value item).fault = none := by
    intro value item
    rw [fault_decodeItems, List.findSome?_eq_none_iff]
    exact fun element _ => hnetwork element
  rw [decodeBridgeMappings, fault_decodePointer (f := fun _ => none)]
  · cases item <;> rfl
  · intro m ovn
    rw [Decode.fault_bind fun mappings => Decode.fault_pure _, fault_decodeField_eq_none hitems]
    rfl

/-- The first element of a list that is not accepted. -/
def firstRejectedIn (first second : String) (value : Json) : Option Json :=
  value.listItems.find? fun item => !isAccepted first second item

theorem fault_decodeInterfaces (value : List InterfaceState) (item : Json) :
    (decodeItems (unmarshalInterface float) value item).fault
      = (firstRejectedIn "name" "type" item).map (rejection "failed Unmarshaling raw") := by
  rw [fault_decodeItems, funext (fault_unmarshalInterface float)]
  exact findSome_rejection _ _ _

theorem fault_decodeRouteList (value : List RouteState) (item : Json) :
    (decodeItems (unmarshalRoute float) value item).fault
      = (firstRejectedIn "destination" "next-hop-interface" item).map
          (rejection "failed Unmarchaling raw") := by
  rw [fault_decodeItems, funext (fault_unmarshalRoute float)]
  exact findSome_rejection _ _ _

/-- The first route of a section that is not accepted, in the order of the document. -/
def firstRejectedRoute : Json → Option Json
  | .obj m => m.findSome? fun (key, item) =>
      if matchesField "config" key || matchesField "running" key then
        firstRejectedIn "destination" "next-hop-interface" item
      else none
  | _ => none

/-- The first interface or route that is not accepted, in the order of the document. -/
def firstRejected : Json → Option Json
  | .obj m => m.findSome? fun (key, item) =>
      if matchesField "interfaces" key then firstRejectedIn "name" "type" item
      else if matchesField "routes" key then firstRejectedRoute item
      else none
  | _ => none

theorem fault_routesKey (routes : Routes) (key : String × Json) :
    (decodeKey (routesFields float) routes key).fault
      = (if matchesField "config" key.1 || matchesField "running" key.1 then
          firstRejectedIn "destination" "next-hop-interface" key.2
        else none).map (rejection "failed Unmarchaling raw") := by
  rw [routesFields, fault_decodeKey_into (fault_decodeRouteList float),
    fault_decodeKey_into (fault_decodeRouteList float), decodeKey_nil, Decode.fault_pure]
  cases matchesField "config" key.1 <;> cases matchesField "running" key.1 <;> rfl

/-- A routes section stops at its first route that is not accepted. -/
theorem fault_decodeRoutes (value : Option Routes) (item : Json) :
    (decodeRoutes float value item).fault
      = (firstRejectedRoute item).map (rejection "failed Unmarchaling raw") := by
  rw [decodeRoutes, fault_decodePointer (f := fun m =>
    (firstRejectedRoute (.obj m)).map (rejection "failed Unmarchaling raw"))]
  · cases item <;> rfl
  · intro m routes
    rw [firstRejectedRoute, List.map_findSome?]
    exact Decode.fault_foldlM (fault_routesKey float) m routes

/-- A key of the document stops decoding if it holds interfaces or routes that do. -/
theorem fault_rootKey (root : RootState) (key : String × Json) :
    (decodeKey (rootFields float) root key).fault
      = if matchesField "interfaces" key.1 then
          (firstRejectedIn "name" "type" key.2).map (rejection "failed Unmarshaling raw")
        else if matchesField "routes" key.1 then
          (firstRejectedRoute key.2).map (rejection "failed Unmarchaling raw")
        else none := by
  rw [rootFields, fault_decodeKey_into (fault_decodeInterfaces float),
    fault_decodeKey_into (fault_decodeRoutes float),
    fault_decodeKey_into (fault_decodeDNSResolver float),
    fault_decodeKey_into fault_decodeBridgeMappings, decodeKey_nil, Decode.fault_pure, ite_self,
    ite_self]

end Sections

/-! ## The first element that is not accepted -/

theorem map_rejection_eq_panic_iff (message : String) (rejected : Option Json) :
    rejected.map (rejection message) = some .panic ↔ rejected = some .null := by
  cases rejected with
  | none => simp
  | some value => simp [rejection_eq_panic_iff]

/-- Decoding stops with this fault at this element: with a panic if it is null. -/
structure StopsAt (fault : Option Fault) (rejected : Option Json) : Prop where
  none_iff : fault = none ↔ rejected = none
  panic_iff : fault = some .panic ↔ rejected = some .null

theorem stopsAt_none : StopsAt none none := ⟨by simp, by simp⟩

theorem stopsAt_rejection (message : String) (rejected : Option Json) :
    StopsAt (rejected.map (rejection message)) rejected :=
  ⟨Option.map_eq_none_iff, map_rejection_eq_panic_iff message rejected⟩

/-- One part after the other. -/
theorem StopsAt.or {fault fault' : Option Fault} {rejected rejected' : Option Json}
    (h : StopsAt fault rejected) (h' : StopsAt fault' rejected') :
    StopsAt (fault.or fault') (rejected.or rejected') where
  none_iff := by rw [Option.or_eq_none_iff, Option.or_eq_none_iff, h.none_iff, h'.none_iff]
  panic_iff := by
    rw [Option.or_eq_some_iff, Option.or_eq_some_iff, h.panic_iff, h.none_iff, h'.panic_iff]

/-- One key after the other. -/
theorem StopsAt.findSome {f : String × Json → Option Fault} {g : String × Json → Option Json}
    (h : ∀ key, StopsAt (f key) (g key)) (m : JsonObject) :
    StopsAt (m.findSome? f) (m.findSome? g) := by
  induction m with
  | nil => exact stopsAt_none
  | cons key m ih =>
    have hor : ∀ {α : Type} (f : String × Json → Option α),
        (key :: m).findSome? f = (f key).or (m.findSome? f) := by
      intro α f
      rw [List.findSome?_cons]
      cases f key <;> rfl
    rw [hor, hor]
    exact (h key).or ih

section Exact

variable (float : String → String)

/-- The document stops at its first element that is not accepted. -/
theorem stopsAt_root (doc : Json) : StopsAt (decodeRoot float doc).fault (firstRejected doc) := by
  cases doc with
  | obj m =>
    have hroot : (decodeRoot float (.obj m)).fault = _ :=
      Decode.fault_foldlM (fault_rootKey float) m _
    rw [hroot, firstRejected]
    apply StopsAt.findSome
    intro key
    dsimp only
    split
    · exact stopsAt_rejection _ _
    · split
      · exact stopsAt_rejection _ _
      · exact stopsAt_none
  | _ => exact stopsAt_none

theorem crashes_iff_firstRejected (doc : Json) :
    Crashes (decodeState float doc) ↔ firstRejected doc = some .null := by
  rw [decodeState, Crashes, Decode.finish_eq_panic_iff, (stopsAt_root float doc).panic_iff]

end Exact

/-! ## Documents without null elements -/

/-- No list under this name has a null element. -/
def NullFreeIn (m : JsonObject) (name : String) : Prop :=
  ∀ field ∈ m, matchesField name field.1 = true → Json.null ∉ field.2.listItems

/-- No interface and no route of the document is null. -/
def NullFree : Json → Prop
  | .obj m => NullFreeIn m "interfaces" ∧ ∀ field ∈ m, matchesField "routes" field.1 = true →
      ∀ inner, field.2 = .obj inner → NullFreeIn inner "config" ∧ NullFreeIn inner "running"
  | _ => True

theorem null_mem_of_firstRejectedIn {first second : String} {value : Json}
    (h : firstRejectedIn first second value = some .null) : Json.null ∈ value.listItems :=
  List.mem_of_find?_eq_some h

theorem firstRejectedRoute_ne_null {item : Json}
    (h : ∀ inner, item = .obj inner → NullFreeIn inner "config" ∧ NullFreeIn inner "running") :
    firstRejectedRoute item ≠ some .null := by
  intro hnull
  cases item with
  | obj inner =>
    obtain ⟨hconfig, hrunning⟩ := h inner rfl
    obtain ⟨⟨key, value⟩, hmem, hvalue⟩ := List.exists_of_findSome?_eq_some hnull
    dsimp only at hvalue
    split at hvalue
    · rename_i hkey
      have hin := null_mem_of_firstRejectedIn hvalue
      rcases Bool.or_eq_true_iff.mp hkey with hkey | hkey
      · exact hconfig (key, value) hmem hkey hin
      · exact hrunning (key, value) hmem hkey hin
    · cases hvalue
  | _ => cases hnull

theorem firstRejected_ne_null {doc : Json} (h : NullFree doc) :
    firstRejected doc ≠ some .null := by
  intro hnull
  cases doc with
  | obj m =>
    obtain ⟨hinterfaces, hroutes⟩ := h
    obtain ⟨⟨key, value⟩, hmem, hvalue⟩ := List.exists_of_findSome?_eq_some hnull
    dsimp only at hvalue
    split at hvalue
    · rename_i hkey
      exact hinterfaces (key, value) hmem hkey (null_mem_of_firstRejectedIn hvalue)
    · split at hvalue
      · rename_i hkey
        exact firstRejectedRoute_ne_null (hroutes (key, value) hmem hkey) hvalue
      · cases hvalue
  | _ => cases hnull

/-- An element that panics is null. -/
theorem eq_null_of_fault {α : Type} {decode : Decode α} {accepted : Bool} {message : String}
    {value : Json}
    (hfault : decode.fault = if accepted = true then none else some (rejection message value))
    (h : decode = fail .panic) : value = .null := by
  rw [h, Decode.fault_fail] at hfault
  split at hfault
  · cases hfault
  · exact (rejection_eq_panic_iff message value).mp (Option.some.inj hfault).symm

/-- **Decoding and crashes.**  The methods panic for null only.  No document without null
elements crashes one of the three functions.  Any document crashes each of them exactly when its
first element that is not accepted is null. -/
theorem decoding_crashes_iff (float : String → String) :
    (∀ value, (unmarshalInterface float value = fail .panic ↔ value = .null) ∧
      (unmarshalRoute float value = fail .panic ↔ value = .null)) ∧
    (∀ doc, NullFree doc → ¬ Crashes (filterOutDocument float doc) ∧
      ¬ Crashes (countInterfacesByTypeDocument float doc) ∧
      ¬ Crashes (countRoutesDocument float doc)) ∧
    ∀ doc,
      (Crashes (filterOutDocument float doc) ↔ firstRejected doc = some .null) ∧
      (Crashes (countInterfacesByTypeDocument float doc) ↔ firstRejected doc = some .null) ∧
      (Crashes (countRoutesDocument float doc) ↔ firstRejected doc = some .null) := by
  unfold filterOutDocument countInterfacesByTypeDocument countRoutesDocument
  simp only [crashes_map_iff]
  refine ⟨?_, ?_, ?_⟩
  · intro value
    constructor
    · refine ⟨eq_null_of_fault (fault_unmarshalInterface float value), ?_⟩
      rintro rfl
      rfl
    · refine ⟨eq_null_of_fault (fault_unmarshalRoute float value), ?_⟩
      rintro rfl
      rfl
  · intro doc hnull
    have hsafe : ¬ Crashes (decodeState float doc) := fun hcrash =>
      firstRejected_ne_null hnull ((crashes_iff_firstRejected float doc).mp hcrash)
    exact ⟨hsafe, hsafe, hsafe⟩
  · intro doc
    have hiff := crashes_iff_firstRejected float doc
    exact ⟨hiff, hiff, hiff⟩

/-- Nothing in place of a route, in a section that comes before the interfaces because of how its
name is spelled; the interfaces are no list of maps. -/
def nullRouteDocument : Json :=
  .obj [("Routes", .obj [("config", .arr []),
      ("running", .arr [.obj [("destination", .str "0.0.0.0/0"),
        ("next-hop-interface", .str "eth0")], .null])]),
    ("interfaces", .arr [.str "eth0"])]

theorem decoding_crashes_iff_null_route :
    Crashes (countRoutesDocument id nullRouteDocument) ∧
    NullFree (.obj [("interfaces", .arr [.str "eth0"])]) ∧
    ¬ Crashes (filterOutDocument id (.obj [("interfaces", .arr [.str "eth0"])])) := by
  have hnull : NullFree (.obj [("interfaces", .arr [.str "eth0"])]) := by
    constructor
    · intro field hfield _ hmem
      rw [List.mem_singleton] at hfield
      subst hfield
      simp [Json.listItems] at hmem
    · intro field hfield hmatch
      rw [List.mem_singleton] at hfield
      subst hfield
      exact absurd hmatch (by decide)
  obtain ⟨-, hsafe, hexact⟩ := decoding_crashes_iff id
  exact ⟨(hexact nullRouteDocument).2.2.mpr rfl, hnull, (hsafe _ hnull).1⟩

/-- A null in the list of interfaces crashes all three functions. -/
theorem null_interface_crashes :
    Crashes (filterOutDocument id (.obj [("interfaces", .arr [.null])])) ∧
    Crashes (countInterfacesByTypeDocument id (.obj [("interfaces", .arr [.null])])) ∧
    Crashes (countRoutesDocument id (.obj [("interfaces", .arr [.null])])) :=
  ⟨rfl, rfl, rfl⟩
