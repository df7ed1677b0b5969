/-
# Network states as documents

How `encoding/json` reads a document into `rootState` of `pkg/state/type.go` and writes it back,
with the custom methods of interfaces and routes.

Interfaces and routes keep the map they were read from; the `dns-resolver` and `ovn` sections are
read into closed structs.  So a key these structs do not name is dropped and one that is missing is
written: `sections_kept_iff` says for which sections reading and writing is the identity.
-/
import Mathlib.Data.Set.List
import KubernetesNmstate.JsonDecode
import KubernetesNmstate.JsonPath
import KubernetesNmstate.NetworkState

open Decode (mismatch fail Reads)

/-! ## Reading -/

section Decoding

variable (float : String → String)

/-- A `*DNSResolverData` field. -/
def decodeDNSResolverData : Option DNSResolverData → Json → Decode (Option DNSResolverData) :=
  decodePointer ⟨none, none⟩ fun m data => do
    let search ← decodeField m "search" (decodeAnys float) data.search
    let server ← decodeField m "server" (decodeAnys float) data.server
    return ⟨search, server⟩

/-- A `*dnsResolver` field. -/
def decodeDNSResolver : Option DNSResolver → Json → Decode (Option DNSResolver) :=
  decodePointer ⟨none, none⟩ fun m dns => do
    let config ← decodeField m "config" (decodeDNSResolverData float) dns.config
    let running ← decodeField m "running" (decodeDNSResolverData float) dns.running
    return ⟨config, running⟩

/-- An element of `bridge-mappings`. -/
def decodePhysicalNetworks : Json → Decode PhysicalNetworks
  | .null => return ⟨"", "", ""⟩
  | .obj m => do
    let bridge ← decodeField m "bridge" decodeString ""
    let name ← decodeField m "localnet" decodeString ""
    let state ← decodeField m "state" decodeString ""
    return ⟨name, bridge, state⟩
  | _ => mismatch ⟨"", "", ""⟩

/-- A `*bridgeMappings` field. -/
def decodeBridgeMappings : Option BridgeMappings → Json → Decode (Option BridgeMappings) :=
  decodePointer ⟨[]⟩ fun m ovn => do
    let mappings ← decodeField m "bridge-mappings" (decodeItems decodePhysicalNetworks)
      ovn.physicalNetworkMappings
    return ⟨mappings⟩

/-- The two string fields that the custom methods decode on their own: there a wrong type fails at
once. -/
def decodeStrings (m : JsonObject) (first second message : String) : Decode (String × String) :=
  let fields : Decode (String × String) := do
    let a ← decodeField m first decodeString ""
    let b ← decodeField m second decodeString ""
    return (a, b)
  match fields with
  | .ok (values, false) => return values
  | .ok (_, true) => fail (.error message)
  | .error fault => fail fault

/-- `interfaceState.UnmarshalJSON`.  Null leaves the map nil, and it is written to. -/
def unmarshalInterface : Json → Decode InterfaceState
  | .null => fail .panic
  | .obj m => do
    let (name, type) ← decodeStrings m "name" "type" "failed Unmarshaling raw"
    return ⟨name, type,
      ((Json.mapNumFields float m).put "name" (.str name)).put "type" (.str type)⟩
  | _ => fail (.error "failed Unmarshaling b")

/-- `routeState.UnmarshalJSON`. -/
def unmarshalRoute : Json → Decode RouteState
  | .null => fail .panic
  | .obj m => do
    let (destination, nextHopInterface) ←
      decodeStrings m "destination" "next-hop-interface" "failed Unmarchaling raw"
    return ⟨destination, nextHopInterface,
      ((Json.mapNumFields float m).put "destination" (.str destination)).put "next-hop-interface"
        (.str nextHopInterface)⟩
  | _ => fail (.error "failed Unmarshaling b")

/-- The fields of `routes`. -/
def routesFields : List (StructField Routes) :=
  [.into "config" Routes.config (fun routes config => { routes with config })
      (decodeItems (unmarshalRoute float)),
    .into "running" Routes.running (fun routes running => { routes with running })
      (decodeItems (unmarshalRoute float))]

/-- A `*routes` field. -/
def decodeRoutes : Option Routes → Json → Decode (Option Routes) :=
  decodePointer ⟨[], []⟩ (decodeStruct (routesFields float))

/-- The fields of `rootState`. -/
def rootFields : List (StructField RootState) :=
  [.into "interfaces" RootState.interfaces (fun root interfaces => { root with interfaces })
      (decodeItems (unmarshalInterface float)),
    .into "routes" RootState.routes (fun root routes => { root with routes })
      (decodeRoutes float),
    .into "dns-resolver" RootState.dnsResolver (fun root dnsResolver => { root with dnsResolver })
      (decodeDNSResolver float),
    .into "ovn" RootState.ovn (fun root ovn => { root with ovn }) decodeBridgeMappings]

/-- A `rootState`. -/
def decodeRoot : Json → Decode RootState
  | .null => return ⟨[], none, none, none⟩
  | .obj m => decodeStruct (rootFields float) m ⟨[], none, none, none⟩
  | _ => mismatch ⟨[], none, none, none⟩

/-- Decoding of a document. -/
def decodeState (doc : Json) : Except Fault RootState := (decodeRoot float doc).finish

/-- What the key of each section is read into. -/
theorem decodeKey_root (root : RootState) (item : Json) :
    decodeKey (rootFields float) root ("interfaces", item)
        = (decodeItems (unmarshalInterface float) root.interfaces item >>= fun interfaces =>
            pure { root with interfaces })
      ∧ decodeKey (rootFields float) root ("routes", item)
        = (decodeRoutes float root.routes item >>= fun routes => pure { root with routes })
      ∧ decodeKey (rootFields float) root ("dns-resolver", item)
        = (decodeDNSResolver float root.dnsResolver item >>= fun dnsResolver =>
            pure { root with dnsResolver })
      ∧ decodeKey (rootFields float) root ("ovn", item)
        = (decodeBridgeMappings root.ovn item >>= fun ovn => pure { root with ovn }) := by
  simp (disch := decide) only [rootFields, decodeKey_into_self, decodeKey_into_of_ne, and_self]

end Decoding

/-! ## Writing -/

/-- `DNSResolverData`. -/
def encodeDNSResolverData (data : DNSResolverData) : Json :=
  .obj [("search", encodeAnys data.search), ("server", encodeAnys data.server)]

/-- `dnsResolver`. -/
def encodeDNSResolver (dns : DNSResolver) : Json :=
  .obj (omitEmpty "config" (dns.config.map encodeDNSResolverData) ++
    omitEmpty "running" (dns.running.map encodeDNSResolverData))

/-- `PhysicalNetworks`. -/
def encodePhysicalNetworks (network : PhysicalNetworks) : Json :=
  .obj ([("bridge", .str network.bridge), ("localnet", .str network.name)] ++
    omitEmpty "state" (if network.state = "" then none else some (.str network.state)))

/-- `bridgeMappings`. -/
def encodeBridgeMappings (ovn : BridgeMappings) : Json :=
  .obj (omitEmpty "bridge-mappings"
    (if ovn.physicalNetworkMappings = [] then none
      else some (.arr (ovn.physicalNetworkMappings.map encodePhysicalNetworks))))

/-- `interfaceState.MarshalJSON`. -/
def marshalInterface (iface : InterfaceState) : Json :=
  .obj (iface.data.put "name" (.str iface.name))

/-- `routeState.MarshalJSON`. -/
def marshalRoute (route : RouteState) : Json :=
  .obj ((route.data.put "destination" (.str route.destination)).put "next-hop-interface"
    (.str route.nextHopInterface))

/-- `routes`; the lists are not nil after `filterOutRoutes`. -/
def encodeRoutes (routes : Routes) : Json :=
  .obj [("config", .arr (routes.config.map marshalRoute)),
    ("running", .arr (routes.running.map marshalRoute))]

/-- A `rootState`; the list of interfaces is not nil after `filterOutInterfaces`. -/
def encodeState (root : RootState) : Json :=
  .obj (omitEmpty "dns-resolver" (root.dnsResolver.map encodeDNSResolver) ++
    [("interfaces", .arr (root.interfaces.map marshalInterface))] ++
    omitEmpty "ovn" (root.ovn.map encodeBridgeMappings) ++
    omitEmpty "routes" (root.routes.map encodeRoutes))

/-- `FilterOut`, between the text of the input and that of the result. -/
def filterOutDocument (float : String → String) (doc : Json) : Except Fault Json :=
  (decodeState float doc).map fun root => encodeState (filterOutRoot root)

/-! ## Sections that come back as they were -/

section Kept

variable (float : String → String)

/-- A list of any values whose numbers are written as they were, or null. -/
def AnysKept (value : Json) : Prop :=
  value = .null ∨ ∃ items, value = .arr items ∧ ∀ item ∈ items, item.mapNum float = item

/-- `config` or `running`: the two keys, and no other. -/
def DNSDataKept (value : Json) : Prop :=
  ∃ search server, value = .obj [("search", search), ("server", server)]
    ∧ AnysKept float search ∧ AnysKept float server

/-- `dns-resolver`: `config` and `running` as far as they are there, and no other key. -/
def DNSKept (value : Json) : Prop :=
  ∃ config running : Option Json,
    value = .obj (omitEmpty "config" config ++ omitEmpty "running" running)
    ∧ (∀ data ∈ config, DNSDataKept float data) ∧ ∀ data ∈ running, DNSDataKept float data

/-- An element of `bridge-mappings`: two strings, a third that is not empty, and no other key. -/
def MappingKept (item : Json) : Prop :=
  ∃ (bridge localnet : String) (state : Option String), state ≠ some ""
    ∧ item = .obj ([("bridge", .str bridge), ("localnet", .str localnet)]
        ++ omitEmpty "state" (state.map Json.str))

/-- `ovn`: the one key with a list that is not empty, or no key. -/
def OvnKept (value : Json) : Prop :=
  ∃ mappings : Option (List Json),
    value = .obj (omitEmpty "bridge-mappings" (mappings.map Json.arr))
    ∧ ∀ items ∈ mappings, items ≠ [] ∧ ∀ item ∈ items, MappingKept item

/-- The numbers of a section as they are written after they were read. -/
def DNSResolverData.mapNum (data : DNSResolverData) : DNSResolverData :=
  ⟨data.search.map (List.map (Json.mapNum float)), data.server.map (List.map (Json.mapNum float))⟩

/-- The numbers of both parts. -/
def DNSResolver.mapNum (dns : DNSResolver) : DNSResolver :=
  ⟨dns.config.map (DNSResolverData.mapNum float), dns.running.map (DNSResolverData.mapNum float)⟩

/-! ### What is written is read back -/

theorem decodeDNSResolverData_encode (data : DNSResolverData) :
    decodeDNSResolverData float none (encodeDNSResolverData data)
      = pure (some (data.mapNum float)) := by
  simp (disch := decide) only [encodeDNSResolverData, decodeDNSResolverData, decodePointer,
    Option.getD_none, decodeField_cons_self, decodeField_cons_of_ne, decodeField_nil,
    decodeAnys_encode, DNSResolverData.mapNum, pure_bind]

theorem decodeDNSResolver_encode (dns : DNSResolver) :
    decodeDNSResolver float none (encodeDNSResolver dns) = pure (some (dns.mapNum float)) := by
  obtain ⟨config, running⟩ := dns
  have hpart : ∀ (name : String) (data : Option DNSResolverData),
      decodeField (omitEmpty name (data.map encodeDNSResolverData)) name
          (decodeDNSResolverData float) none
        = pure (data.map (DNSResolverData.mapNum float)) := fun name data =>
    decodeField_omitEmpty_map _ (fun data _ => decodeDNSResolverData_encode float data) name
  simp (disch := decide) only [encodeDNSResolver, decodeDNSResolver, decodePointer,
    decodeField_append, hpart,
    decodeField_omitEmpty_of_ne, Option.getD_none, pure_bind, DNSResolver.mapNum]

theorem decodePhysicalNetworks_encode (network : PhysicalNetworks) :
    decodePhysicalNetworks (encodePhysicalNetworks network) = pure network := by
  obtain ⟨name, bridge, state⟩ := network
  by_cases hstate : state = ""
  · simp (disch := decide) only [encodePhysicalNetworks, decodePhysicalNetworks, hstate,
      List.cons_append, List.nil_append, if_pos, omitEmpty, Option.toList_none, List.map_nil,
      decodeField_cons_self, decodeField_cons_of_ne, decodeField_nil, decodeString, pure_bind]
  · simp (disch := decide) only [encodePhysicalNetworks, decodePhysicalNetworks, hstate,
      List.cons_append, List.nil_append, if_false, omitEmpty, Option.toList_some, List.map_cons,
      List.map_nil, decodeField_cons_self, decodeField_cons_of_ne, decodeField_nil, decodeString,
      pure_bind]

theorem decodeBridgeMappings_encode (ovn : BridgeMappings) :
    decodeBridgeMappings none (encodeBridgeMappings ovn) = pure (some ovn) := by
  obtain ⟨mappings⟩ := ovn
  by_cases hempty : mappings = []
  · simp [encodeBridgeMappings, omitEmpty, decodeBridgeMappings, decodePointer, hempty]
  · have hlist : decodeItems decodePhysicalNetworks [] (.arr (mappings.map encodePhysicalNetworks))
        = pure mappings :=
      Decode.mapM_map_pure _ _ fun network _ => decodePhysicalNetworks_encode network
    simp [encodeBridgeMappings, decodeBridgeMappings, decodePointer, decodeField_omitEmpty, hempty,
      hlist]

/-! ### What is kept is what is written -/

variable {float}

theorem anysKept_iff (value : Json) :
    AnysKept float value
      ↔ ∃ items, items.map (List.map (Json.mapNum float)) = items ∧ value = encodeAnys items := by
  constructor
  · rintro (rfl | ⟨items, rfl, hitems⟩)
    · exact ⟨none, rfl, rfl⟩
    · refine ⟨some items, ?_, rfl⟩
      rw [Option.map_some, List.map_congr_left hitems, List.map_id']
  · rintro ⟨_ | items, hitems, rfl⟩
    · exact Or.inl rfl
    · refine Or.inr ⟨items, rfl, ?_⟩
      rw [Option.map_some, Option.some.injEq] at hitems
      have hid : items.map (Json.mapNum float) = items.map id := by rw [hitems, List.map_id]
      exact List.map_inj_left.mp hid

theorem dnsDataKept_iff (value : Json) :
    DNSDataKept float value
      ↔ ∃ data : DNSResolverData, data.mapNum float = data
          ∧ value = encodeDNSResolverData data := by
  constructor
  · rintro ⟨search, server, rfl, hsearch, hserver⟩
    obtain ⟨searches, hsearches, rfl⟩ := (anysKept_iff search).mp hsearch
    obtain ⟨servers, hservers, rfl⟩ := (anysKept_iff server).mp hserver
    refine ⟨⟨searches, servers⟩, ?_, rfl⟩
    rw [DNSResolverData.mapNum, hsearches, hservers]
  · rintro ⟨⟨searches, servers⟩, hdata, rfl⟩
    simp only [DNSResolverData.mapNum, DNSResolverData.mk.injEq] at hdata
    exact ⟨_, _, rfl, (anysKept_iff _).mpr ⟨searches, hdata.1, rfl⟩,
      (anysKept_iff _).mpr ⟨servers, hdata.2, rfl⟩⟩

theorem dnsKept_iff (value : Json) :
    DNSKept float value
      ↔ ∃ dns : DNSResolver, dns.mapNum float = dns ∧ value = encodeDNSResolver dns := by
  have hpart := exists_map_of_forall (P := DNSDataKept float) dnsDataKept_iff
  constructor
  · rintro ⟨config, running, rfl, hconfig, hrunning⟩
    obtain ⟨configs, hconfigs, rfl⟩ := (hpart config).mp hconfig
    obtain ⟨runnings, hrunnings, rfl⟩ := (hpart running).mp hrunning
    refine ⟨⟨configs, runnings⟩, ?_, rfl⟩
    rw [DNSResolver.mapNum, option_map_eq_self_iff.mpr hconfigs,
      option_map_eq_self_iff.mpr hrunnings]
  · rintro ⟨⟨configs, runnings⟩, hdns, rfl⟩
    simp only [DNSResolver.mapNum, DNSResolver.mk.injEq] at hdns
    exact ⟨_, _, rfl, (hpart _).mpr ⟨configs, option_map_eq_self_iff.mp hdns.1, rfl⟩,
      (hpart _).mpr ⟨runnings, option_map_eq_self_iff.mp hdns.2, rfl⟩⟩

theorem mappingKept_iff (item : Json) :
    MappingKept item ↔ ∃ network, item = encodePhysicalNetworks network := by
  constructor
  · rintro ⟨bridge, localnet, state, hstate, rfl⟩
    refine ⟨⟨localnet, bridge, state.getD ""⟩, ?_⟩
    cases state with
    | none => rfl
    | some state =>
      have hne : state ≠ "" := fun h => hstate (congrArg some h)
      simp [encodePhysicalNetworks, hne]
  · rintro ⟨⟨localnet, bridge, state⟩, rfl⟩
    by_cases hstate : state = ""
    · exact ⟨bridge, localnet, none, by simp, by simp [encodePhysicalNetworks, hstate]⟩
    · exact ⟨bridge, localnet, some state, by simp [hstate],
        by simp [encodePhysicalNetworks, hstate]⟩

theorem ovnKept_iff (value : Json) :
    OvnKept value ↔ ∃ ovn : BridgeMappings, value = encodeBridgeMappings ovn := by
  constructor
  · rintro ⟨mappings, rfl, hmappings⟩
    cases mappings with
    | none => exact ⟨⟨[]⟩, rfl⟩
    | some items =>
      obtain ⟨hne, hitems⟩ := hmappings items rfl
      -- each element is the written form of a mapping
      have hlist : ∃ networks : List PhysicalNetworks,
          items = networks.map encodePhysicalNetworks := by
        have hrange : items ∈ Set.range (List.map encodePhysicalNetworks) := by
          rw [Set.range_list_map]
          intro item hitem
          obtain ⟨network, rfl⟩ := (mappingKept_iff item).mp (hitems item hitem)
          exact ⟨network, rfl⟩
        obtain ⟨networks, hnetworks⟩ := hrange
        exact ⟨networks, hnetworks.symm⟩
      obtain ⟨networks, rfl⟩ := hlist
      refine ⟨⟨networks⟩, ?_⟩
      have hnetworks : networks ≠ [] := fun h => hne (by rw [h]; rfl)
      simp [encodeBridgeMappings, hnetworks]
  · rintro ⟨⟨networks⟩, rfl⟩
    by_cases hempty : networks = []
    · exact ⟨none, by simp [encodeBridgeMappings, hempty], by simp⟩
    · refine ⟨some (networks.map encodePhysicalNetworks), by simp [encodeBridgeMappings, hempty],
        ?_⟩
      intro items hitems
      rw [Option.mem_some_iff] at hitems
      subst hitems
      refine ⟨by simp [hempty], ?_⟩
      intro item hitem
      obtain ⟨network, -, rfl⟩ := List.mem_map.mp hitem
      exact (mappingKept_iff _).mpr ⟨network, rfl⟩

/-! ### The written document -/

theorem field_encodeState_dns (root : RootState) :
    (encodeState root).field "dns-resolver" = root.dnsResolver.map encodeDNSResolver := by
  simp [encodeState, Json.field, JsonObject.get_append, JsonObject.get_cons, get_omitEmpty]

theorem field_encodeState_ovn (root : RootState) :
    (encodeState root).field "ovn" = root.ovn.map encodeBridgeMappings := by
  simp [encodeState, Json.field, JsonObject.get_append, JsonObject.get_cons, get_omitEmpty]

/-- The two lists of a routes section, each read from what stands under its names. -/
theorem reads_routes {m : JsonObject} {value result : Routes}
    (h : Reads (decodeStruct (routesFields float) m value) result) :
    Reads (decodeField m "config" (decodeItems (unmarshalRoute float)) value.config) result.config
      ∧ Reads (decodeField m "running" (decodeItems (unmarshalRoute float)) value.running)
          result.running := by
  have hnames : (routesFields float).map StructField.name = ["config", "running"] := rfl
  refine ⟨reads_decodeStruct Routes.config (by simp [hnames]) ?_ h,
    reads_decodeStruct Routes.running (by simp [hnames]) ?_ h⟩
  -- the names differ, and a field is set without touching the others
  all_goals
    simp (disch := first | decide | (intros; rfl)) [routesFields, StructField.readsPart_own,
      StructField.readsPart_other]

/-- The sections of a decoded document, each read from what stands under its names. -/
theorem reads_sections {m : JsonObject} {root : RootState}
    (hroot : decodeState float (.obj m) = .ok root) :
    Reads (decodeField m "dns-resolver" (decodeDNSResolver float) none) root.dnsResolver
      ∧ Reads (decodeField m "interfaces" (decodeItems (unmarshalInterface float)) [])
          root.interfaces
      ∧ Reads (decodeField m "ovn" decodeBridgeMappings none) root.ovn
      ∧ Reads (decodeField m "routes" (decodeRoutes float) none) root.routes := by
  rw [decodeState, Decode.finish_eq_ok_iff, decodeRoot] at hroot
  have hnames : (rootFields float).map StructField.name
      = ["interfaces", "routes", "dns-resolver", "ovn"] := rfl
  refine ⟨reads_decodeStruct RootState.dnsResolver (by simp [hnames]) ?_ hroot,
    reads_decodeStruct RootState.interfaces (by simp [hnames]) ?_ hroot,
    reads_decodeStruct RootState.ovn (by simp [hnames]) ?_ hroot,
    reads_decodeStruct RootState.routes (by simp [hnames]) ?_ hroot⟩
  -- the names differ, and a field is set without touching the others
  all_goals
    simp (disch := first | decide | (intros; rfl)) [rootFields, StructField.readsPart_own,
      StructField.readsPart_other]

/-- **Sections that survive.**  `FilterOut` returns the `dns-resolver` and `ovn` sections it read
exactly when `dns-resolver` has no key but `config` and `running`, each with both `search` and
`server` and nothing else, and the mappings of `ovn` have a bridge, a localnet and nothing else
but a state. -/
theorem sections_kept_iff (float : String → String) {m : JsonObject} {out : Json} (hm : m.Ordered)
    (hdns : Spelled m "dns-resolver") (hovn : Spelled m "ovn")
    (hout : filterOutDocument float (.obj m) = .ok out) :
    (out.field "dns-resolver" = m.get "dns-resolver" ∧ out.field "ovn" = m.get "ovn")
      ↔ (∀ value ∈ m.get "dns-resolver", DNSKept float value)
        ∧ ∀ value ∈ m.get "ovn", OvnKept value := by
  unfold filterOutDocument at hout
  cases hroot : decodeState float (.obj m) with
  | error fault => simp [hroot, Except.map] at hout
  | ok root =>
    simp only [hroot, Except.map, Except.ok.injEq] at hout
    subst hout
    obtain ⟨hreadsDns, -, hreadsOvn, -⟩ := reads_sections hroot
    -- filtering leaves both sections alone
    have hdnsSame : (filterOutRoot root).dnsResolver = root.dnsResolver := rfl
    have hovnSame : (filterOutRoot root).ovn = root.ovn := rfl
    rw [field_encodeState_dns, field_encodeState_ovn, hdnsSame, hovnSame,
      section_kept_iff _ (decodeDNSResolver_encode float) hm hdns hreadsDns,
      section_kept_iff id decodeBridgeMappings_encode hm hovn hreadsOvn]
    simp only [dnsKept_iff, ovnKept_iff, id, true_and]

end Kept

/-- A document with a resolver that has both lists, and one mapping. -/
def completeDocument : JsonObject :=
  [("dns-resolver", .obj [("config",
      .obj [("search", .arr []), ("server", .arr [.str "192.0.2.1"])])]),
    ("interfaces", .arr []),
    ("ovn", .obj [("bridge-mappings",
      .arr [.obj [("bridge", .str "br1"), ("localnet", .str "net1")]])])]

theorem sections_kept_complete_document :
    ∃ out, filterOutDocument id (.obj completeDocument) = .ok out
      ∧ out.field "dns-resolver" = completeDocument.get "dns-resolver"
      ∧ out.field "ovn" = completeDocument.get "ovn" := by
  have hout : filterOutDocument id (.obj completeDocument)
      = .ok (.obj completeDocument) := by rfl
  have hm : completeDocument.Ordered := by
    rw [← Json.ordered_obj]
    decide
  refine ⟨_, hout, (sections_kept_iff id hm ?_ ?_ hout).mpr ⟨?_, ?_⟩⟩
  · unfold Spelled
    decide
  · unfold Spelled
    decide
  · intro value hvalue
    cases hvalue
    refine ⟨some _, none, rfl, ?_, by simp⟩
    intro data hdata
    cases hdata
    refine ⟨_, _, rfl, Or.inr ⟨_, rfl, by simp⟩, Or.inr ⟨_, rfl, ?_⟩⟩
    simp [Json.mapNum]
  · intro value hvalue
    cases hvalue
    refine ⟨some _, rfl, ?_⟩
    intro items hitems
    cases hitems
    refine ⟨by simp, ?_⟩
    intro item hitem
    rw [List.mem_singleton] at hitem
    exact ⟨"br1", "net1", none, by simp, hitem⟩

/-- A document whose resolver has `options` and no `search`. -/
def optionsDocument : JsonObject :=
  [("dns-resolver", .obj [("config",
      .obj [("options", .arr [.str "rotate"]), ("server", .arr [.str "192.0.2.1"])])]),
    ("interfaces", .arr []),
    ("ovn", .obj [("bridge-mappings",
      .arr [.obj [("bridge", .str "br1"), ("localnet", .str "net1")]])])]

/-- `options` is dropped, and a `search` that was not there is written as null. -/
theorem resolver_options_dropped :
    ∃ out, filterOutDocument id (.obj optionsDocument) = .ok out
      ∧ (Json.obj optionsDocument).path ["dns-resolver", "config", "options"]
          = some (.arr [.str "rotate"])
      ∧ out.path ["dns-resolver", "config", "options"] = none
      ∧ (Json.obj optionsDocument).path ["dns-resolver", "config", "search"] = none
      ∧ out.path ["dns-resolver", "config", "search"] = some .null :=
  ⟨_, rfl, rfl, rfl, rfl, rfl⟩
