/-
# What `FilterOut` removes

`filterOut` of `pkg/state/filter.go` edits the maps of the interfaces in place.  Its result is
described here without edits: an interface is its map with the fields at the paths `volatile`
removed (`Json.prune`), in the original order, and a route is kept as it is or not at all.

Removing twice is removing once, and what is written is read back as it was, so the result is a
fixed point.  States that differ only in what is removed (`Churn`) have one filtered state, and a
reconciler that remembers it writes nothing.
-/
import KubernetesNmstate.StateDocument
import KubernetesNmstate.StatePublishing
import KubernetesNmstate.Executions
import Mathlib.Logic.Relation

open Decode (Reads)

/-! ## Paths -/

/-- The timers of a bridge. -/
def bridgeTimer (path : List Json.Step) : Bool :=
  path = [.key "bridge", .key "options", .key "gc-timer"]
    || path = [.key "bridge", .key "options", .key "hello-timer"]

/-- The life-times of the addresses of one IP version. -/
def lifetime (ipVersion : String) (path : List Json.Step) : Bool :=
  path = [.key ipVersion, .key "address", .item, .key "preferred-life-time"]
    || path = [.key ipVersion, .key "address", .item, .key "valid-life-time"]

/-- What is removed from an interface of this type. -/
def volatile (type : String) (path : List Json.Step) : Bool :=
  (type = "linux-bridge" && bridgeTimer path) || lifetime "ipv4" path || lifetime "ipv6" path

theorem volatile_key (type key : String) : volatile type [.key key] = false := by
  simp [volatile, bridgeTimer, lifetime]

theorem erase_erase_eq (m : JsonObject) (k k' : String) :
    (m.erase k).erase k'
      = Json.pruneFields (fun path => path = [.key k] || path = [.key k']) m := by
  rw [Json.erase_eq_pruneFields, Json.erase_eq_pruneFields, Json.pruneFields_pruneFields]

/-! ## Interfaces -/

theorem isStr_of_get {m : JsonObject} {key value : String} (h : m.get key = some (.str value))
    (other : String) : m.isStr key other = decide (value = other) := by
  simp [JsonObject.isStr, h]

theorem filterOutBridge_eq {m : JsonObject} (hm : m.Ordered)
    (hbridge : m.isStr "type" "linux-bridge" = true) :
    filterOutBridgeDynamicAttributes m = Json.pruneFields bridgeTimer m := by
  have hP : ∀ path, bridgeTimer path = true →
      ∃ step rest, path = .key "bridge" :: .key "options" :: step :: rest := by
    intro path h
    simp only [bridgeTimer, Bool.or_eq_true, decide_eq_true_eq] at h
    rcases h with rfl | rfl
    · exact ⟨_, _, rfl⟩
    · exact ⟨_, _, rfl⟩
  have htimers : (fun path => bridgeTimer (.key "bridge" :: .key "options" :: path))
      = fun path => path = [.key "gc-timer"] || path = [.key "hello-timer"] := by
    funext path
    simp [bridgeTimer]
  unfold filterOutBridgeDynamicAttributes
  rw [if_neg (by simp [hbridge])]
  split
  · rename_i bridge hget
    split
    · rename_i options hoptions
      rw [Json.pruneFields_nested hm hP hget hoptions, htimers, Json.prune, ← erase_erase_eq]
    · rename_i hoptions
      -- the source returns at options that are no map; they have nothing at these paths
      refine (Json.pruneFields_nested_self hm hP fun inner v hinner hv => ?_).symm
      rw [hget] at hinner
      cases hinner
      rw [htimers]
      exact Json.prune_of_not_obj (fun fields hf => hoptions fields (hf ▸ hv)) fun path => by simp
  · rename_i hget
    exact (Json.pruneFields_nested_self hm hP fun inner v hinner _ =>
      absurd hinner (hget inner)).symm

theorem filterOutLifetimes_eq (addr : Json) :
    filterOutLifetimes addr = addr.prune fun path =>
      path = [.key "preferred-life-time"] || path = [.key "valid-life-time"] := by
  unfold filterOutLifetimes
  split
  · rw [Json.prune, erase_erase_eq]
  · rename_i hobj
    exact (Json.prune_of_not_obj hobj fun path => by simp).symm

theorem filterOutAddressLifetimes_eq {m : JsonObject} (hm : m.Ordered) (ipVersion : String) :
    filterOutAddressLifetimes m ipVersion = Json.pruneFields (lifetime ipVersion) m := by
  have hP : ∀ path, lifetime ipVersion path = true →
      ∃ step rest, path = .key ipVersion :: .key "address" :: step :: rest := by
    intro path h
    simp only [lifetime, Bool.or_eq_true, decide_eq_true_eq] at h
    rcases h with rfl | rfl
    · exact ⟨_, _, rfl⟩
    · exact ⟨_, _, rfl⟩
  have hlifetimes :
      (fun path => lifetime ipVersion (.key ipVersion :: .key "address" :: .item :: path))
      = fun path => path = [.key "preferred-life-time"] || path = [.key "valid-life-time"] := by
    funext path
    simp [lifetime]
  unfold filterOutAddressLifetimes
  split
  · rename_i ip hget
    split
    · rename_i addresses haddresses
      rw [Json.pruneFields_nested hm hP hget haddresses, Json.prune, Json.pruneItems_eq, hlifetimes]
      rw [List.map_congr_left fun addr _ => filterOutLifetimes_eq addr]
    · rename_i haddresses
      -- addresses that are no list have no elements to remove from
      refine (Json.pruneFields_nested_self hm hP fun inner v hinner hv => ?_).symm
      rw [hget] at hinner
      cases hinner
      exact Json.prune_of_not_arr (fun items hi => haddresses items (hi ▸ hv)) fun key path => by
        simp [lifetime]
  · rename_i hget
    exact (Json.pruneFields_nested_self hm hP fun inner v hinner _ =>
      absurd hinner (hget inner)).symm

/-- **An interface loses its volatile fields and nothing else.** -/
theorem filterOutDynamicAttributes_eq {m : JsonObject} {type : String} (hm : m.Ordered)
    (htype : m.get "type" = some (.str type)) :
    filterOutDynamicAttributes m = Json.pruneFields (volatile type) m := by
  have hprune : ∀ {P : List Json.Step → Bool} {m : JsonObject}, m.Ordered →
      (Json.pruneFields P m).Ordered := fun h =>
    Json.ordered_obj.mp (Json.Ordered.prune (Json.ordered_obj.mpr h))
  unfold filterOutDynamicAttributes filterOutIPAddressLifetimeAttributes
  by_cases hbridge : type = "linux-bridge"
  · rw [filterOutBridge_eq hm (by simp [isStr_of_get htype, hbridge]),
      filterOutAddressLifetimes_eq (hprune hm), filterOutAddressLifetimes_eq (hprune (hprune hm)),
      Json.pruneFields_pruneFields, Json.pruneFields_pruneFields]
    congr 1
    funext path
    simp [volatile, hbridge, Bool.or_assoc]
  · have hother : filterOutBridgeDynamicAttributes m = m := by
      unfold filterOutBridgeDynamicAttributes
      rw [if_pos (by simp [isStr_of_get htype, hbridge])]
    rw [hother, filterOutAddressLifetimes_eq hm, filterOutAddressLifetimes_eq (hprune hm),
      Json.pruneFields_pruneFields]
    congr 1
    funext path
    simp [volatile, hbridge]

/-! ## Decoded states -/

/-- A map as the custom methods leave it: listed in order, with numbers that were read as floats,
and with the two strings beside it under their keys. -/
structure Carried (float : String → String) (data : JsonObject) (key value key' value' : String) :
    Prop where
  ordered : data.Ordered
  floats : Json.mapNumFields float data = data
  first : data.get key = some (.str value)
  second : data.get key' = some (.str value')

/-- An interface as it is decoded. -/
def InterfaceState.Decoded (float : String → String) (iface : InterfaceState) : Prop :=
  Carried float iface.data "name" iface.name "type" iface.type

/-- A route as it is decoded. -/
def RouteState.Decoded (float : String → String) (route : RouteState) : Prop :=
  Carried float route.data "destination" route.destination "next-hop-interface"
    route.nextHopInterface

/-- A state as it is decoded. -/
structure RootState.Decoded (float : String → String) (root : RootState) : Prop where
  interfaces : ∀ iface ∈ root.interfaces, iface.Decoded float
  config : ∀ routes ∈ root.routes, ∀ route ∈ routes.config, route.Decoded float
  running : ∀ routes ∈ root.routes, ∀ route ∈ routes.running, route.Decoded float
  dnsResolver : ∀ dns ∈ root.dnsResolver, dns.mapNum float = dns

/-- Interfaces and routes carry the strings beside their maps under one key each. -/
structure RootState.Plain (root : RootState) : Prop where
  interfaces : ∀ iface ∈ root.interfaces, Spelled iface.data "name" ∧ Spelled iface.data "type"
  config : ∀ routes ∈ root.routes, ∀ route ∈ routes.config,
    Spelled route.data "destination" ∧ Spelled route.data "next-hop-interface"
  running : ∀ routes ∈ root.routes, ∀ route ∈ routes.running,
    Spelled route.data "destination" ∧ Spelled route.data "next-hop-interface"

section Decoded

variable {float : String → String}

section Floats

-- a number that was written from a float is read as that float
variable (hfloat : ∀ literal, float (float literal) = float literal)

include hfloat

/-- What `UnmarshalJSON` makes of a map. -/
theorem Carried.of_put {m : JsonObject} (hm : m.Ordered) {key key' : String} (hne : key ≠ key')
    (value value' : String) :
    Carried float (((Json.mapNumFields float m).put key (.str value)).put key' (.str value'))
      key value key' value' where
  ordered := by
    have hfields : (Json.mapNumFields float m).Ordered :=
      Json.ordered_obj.mp (Json.Ordered.mapNum (Json.ordered_obj.mpr hm))
    exact (hfields.put (.str value)).put (.str value')
  floats := by
    have hidem := Json.mapNum_mapNum hfloat (.obj m)
    simp only [Json.mapNum, Json.obj.injEq] at hidem
    rw [Json.mapNumFields_put, Json.mapNumFields_put, hidem]
    rfl
  first := by rw [JsonObject.get_put, if_neg hne, JsonObject.get_put, if_pos rfl]
  second := by rw [JsonObject.get_put, if_pos rfl]

theorem unmarshalInterface_decoded {value : Json} (hvalue : value.Ordered) {iface : InterfaceState}
    (h : Reads (unmarshalInterface float value) iface) : iface.Decoded float := by
  cases value with
  | obj m =>
    simp only [unmarshalInterface, Decode.reads_bind, Decode.reads_pure] at h
    obtain ⟨⟨name, type⟩, -, rfl⟩ := h
    exact Carried.of_put hfloat (Json.ordered_obj.mp hvalue) (by decide) name type
  | _ => simp [unmarshalInterface] at h

theorem unmarshalRoute_decoded {value : Json} (hvalue : value.Ordered) {route : RouteState}
    (h : Reads (unmarshalRoute float value) route) : route.Decoded float := by
  cases value with
  | obj m =>
    simp only [unmarshalRoute, Decode.reads_bind, Decode.reads_pure] at h
    obtain ⟨⟨destination, nextHopInterface⟩, -, rfl⟩ := h
    exact Carried.of_put hfloat (Json.ordered_obj.mp hvalue) (by decide) destination
      nextHopInterface
  | _ => simp [unmarshalRoute] at h

theorem reads_decodeAnys_floats {m : JsonObject} {name : String}
    {values result : Option (List Json)}
    (hvalues : values.map (List.map (Json.mapNum float)) = values)
    (h : Reads (decodeField m name (decodeAnys float) values) result) :
    result.map (List.map (Json.mapNum float)) = result := by
  refine reads_decodeField_of
    (P := fun values => Option.map (List.map (Json.mapNum float)) values = values) h hvalues ?_
  intro field _ before after _ hread
  cases hitem : field.2 with
  | null =>
    rw [hitem, decodeAnys, Decode.reads_pure] at hread
    rw [← hread]
    rfl
  | arr items =>
    rw [hitem, decodeAnys, Decode.reads_pure] at hread
    rw [← hread, Option.map_some, List.map_map]
    congr 1
    exact List.map_congr_left fun item _ => Json.mapNum_mapNum hfloat item
  | _ => simp [hitem, decodeAnys] at hread

/-- The numbers of decoded data are floats already. -/
theorem reads_decodeDNSResolverData_floats {m : JsonObject} (hm : m.Ordered)
    {name : String} {value result : Option DNSResolverData}
    (hvalue : ∀ data ∈ value, data.mapNum float = data)
    (h : Reads (decodeField m name (decodeDNSResolverData float) value) result) :
    ∀ data ∈ result, data.mapNum float = data := by
  refine reads_decodePointer_of (P := fun data => DNSResolverData.mapNum float data = data) rfl ?_
    hm hvalue h
  intro inner _ before after hbefore hread
  simp only [Decode.reads_bind, Decode.reads_pure] at hread
  obtain ⟨search, hsearch, server, hserver, rfl⟩ := hread
  rw [DNSResolverData.mapNum,
    reads_decodeAnys_floats hfloat (congrArg DNSResolverData.search hbefore) hsearch,
    reads_decodeAnys_floats hfloat (congrArg DNSResolverData.server hbefore) hserver]

theorem reads_decodeDNSResolver_floats {m : JsonObject} (hm : m.Ordered)
    {name : String} {result : Option DNSResolver}
    (h : Reads (decodeField m name (decodeDNSResolver float) none) result) :
    ∀ dns ∈ result, dns.mapNum float = dns := by
  refine reads_decodePointer_of (P := fun dns => DNSResolver.mapNum float dns = dns) rfl ?_ hm
    (by simp) h
  intro inner hinner before after hbefore hread
  simp only [Decode.reads_bind, Decode.reads_pure] at hread
  obtain ⟨config, hconfig, running, hrunning, rfl⟩ := hread
  have hconfigs := reads_decodeDNSResolverData_floats hfloat hinner
    (option_map_eq_self_iff.mp (congrArg DNSResolver.config hbefore)) hconfig
  have hrunnings := reads_decodeDNSResolverData_floats hfloat hinner
    (option_map_eq_self_iff.mp (congrArg DNSResolver.running hbefore)) hrunning
  rw [DNSResolver.mapNum, option_map_eq_self_iff.mpr hconfigs,
    option_map_eq_self_iff.mpr hrunnings]

theorem reads_decodeRoutes_decoded {m : JsonObject} (hm : m.Ordered) {name : String}
    {result : Option Routes}
    (h : Reads (decodeField m name (decodeRoutes float) none) result) :
    ∀ routes ∈ result, (∀ route ∈ routes.config, route.Decoded float)
      ∧ ∀ route ∈ routes.running, route.Decoded float := by
  have hroute : ∀ value : Json, value.Ordered → ∀ route,
      Reads (unmarshalRoute float value) route → route.Decoded float :=
    fun value hvalue route => unmarshalRoute_decoded hfloat hvalue
  refine reads_decodePointer_of (P := fun routes : Routes =>
    (∀ route ∈ routes.config, route.Decoded float)
      ∧ ∀ route ∈ routes.running, route.Decoded float) (by simp) ?_ hm (by simp) h
  intro inner hinner before after hbefore hread
  obtain ⟨hconfig, hrunning⟩ := reads_routes hread
  exact ⟨reads_decodeItems_of hroute hinner hbefore.1 hconfig,
    reads_decodeItems_of hroute hinner hbefore.2 hrunning⟩

/-- What is decoded from any document. -/
theorem decoded_of_decodeState {doc : Json} (hdoc : doc.Ordered) {root : RootState}
    (h : decodeState float doc = .ok root) : root.Decoded float := by
  cases doc with
  | null =>
    rw [decodeState, Decode.finish_eq_ok_iff, decodeRoot, Decode.reads_pure] at h
    subst h
    exact ⟨by simp, by simp, by simp, by simp⟩
  | obj m =>
    have hm := Json.ordered_obj.mp hdoc
    obtain ⟨hdns, hinterfaces, -, hroutes⟩ := reads_sections h
    have hrouted := reads_decodeRoutes_decoded hfloat hm hroutes
    exact {
      interfaces := reads_decodeItems_of
        (fun value hvalue iface => unmarshalInterface_decoded hfloat hvalue) hm (by simp)
        hinterfaces
      config := fun routes hin => (hrouted routes hin).1
      running := fun routes hin => (hrouted routes hin).2
      dnsResolver := reads_decodeDNSResolver_floats hfloat hm hdns }
  | _ => simp [decodeState, Decode.finish_eq_ok_iff, decodeRoot] at h

end Floats

/-! ### Written and read again -/

/-- A decoded map is decoded as it is. -/
theorem Carried.decode {data : JsonObject} {key value key' value' : String}
    (h : Carried float data key value key' value') (hkey : Spelled data key)
    (hkey' : Spelled data key') (message : String) :
    decodeStrings data key key' message = pure (value, value')
      ∧ ((Json.mapNumFields float data).put key (.str value)).put key' (.str value') = data := by
  constructor
  · unfold decodeStrings
    rw [decodeField_eq h.ordered.nodup hkey, decodeField_eq h.ordered.nodup hkey', h.first,
      h.second]
    rfl
  · rw [h.floats, JsonObject.put_of_get h.ordered h.first,
      JsonObject.put_of_get h.ordered h.second]

theorem unmarshalInterface_marshal {iface : InterfaceState} (h : iface.Decoded float)
    (hname : Spelled iface.data "name") (htype : Spelled iface.data "type") :
    unmarshalInterface float (marshalInterface iface) = pure iface := by
  obtain ⟨hstrings, hdata⟩ := Carried.decode h hname htype "failed Unmarshaling raw"
  rw [marshalInterface, JsonObject.put_of_get h.ordered h.first, unmarshalInterface, hstrings,
    pure_bind]
  show pure (InterfaceState.mk _ _ _) = _
  rw [hdata]

theorem unmarshalRoute_marshal {route : RouteState} (h : route.Decoded float)
    (hdestination : Spelled route.data "destination")
    (hnext : Spelled route.data "next-hop-interface") :
    unmarshalRoute float (marshalRoute route) = pure route := by
  obtain ⟨hstrings, hdata⟩ := Carried.decode h hdestination hnext "failed Unmarchaling raw"
  rw [marshalRoute, JsonObject.put_of_get h.ordered h.first,
    JsonObject.put_of_get h.ordered h.second, unmarshalRoute, hstrings, pure_bind]
  show pure (RouteState.mk _ _ _) = _
  rw [hdata]

theorem decodeRoutes_encode {routes : Routes}
    (hconfig : ∀ route ∈ routes.config, unmarshalRoute float (marshalRoute route) = pure route)
    (hrunning : ∀ route ∈ routes.running, unmarshalRoute float (marshalRoute route) = pure route) :
    decodeRoutes float none (encodeRoutes routes) = pure (some routes) := by
  have hconfigs : decodeItems (unmarshalRoute float) [] (.arr (routes.config.map marshalRoute))
      = pure routes.config := Decode.mapM_map_pure _ _ hconfig
  have hrunnings : decodeItems (unmarshalRoute float) [] (.arr (routes.running.map marshalRoute))
      = pure routes.running := Decode.mapM_map_pure _ _ hrunning
  simp (disch := decide) only [encodeRoutes, decodeRoutes, decodePointer, decodeStruct_cons,
    routesFields, decodeKey_into_self, decodeKey_into_of_ne, decodeStruct_nil, pure_bind,
    Option.getD_none, hconfigs, hrunnings]

/-- **A decoded state is read back from what is written.** -/
theorem decodeState_encodeState {root : RootState} (h : root.Decoded float) (hplain : root.Plain) :
    decodeState float (encodeState root) = .ok root := by
  obtain ⟨interfaces, routes, dnsResolver, ovn⟩ := root
  have hinterfaces : decodeItems (unmarshalInterface float) []
      (.arr (interfaces.map marshalInterface)) = pure interfaces :=
    Decode.mapM_map_pure _ _ fun iface hin =>
      unmarshalInterface_marshal (h.interfaces iface hin) (hplain.interfaces iface hin).1
        (hplain.interfaces iface hin).2
  have hdns : decodeField (omitEmpty "dns-resolver" (dnsResolver.map encodeDNSResolver))
      "dns-resolver" (decodeDNSResolver float) none = pure (dnsResolver.map id) :=
    decodeField_omitEmpty_map id
      (fun dns hin => by rw [decodeDNSResolver_encode, h.dnsResolver dns hin]; rfl) _
  have hovn : decodeField (omitEmpty "ovn" (ovn.map encodeBridgeMappings)) "ovn"
      decodeBridgeMappings none = pure (ovn.map id) :=
    decodeField_omitEmpty_map id (fun ovn _ => decodeBridgeMappings_encode ovn) _
  have hroutes : decodeField (omitEmpty "routes" (routes.map encodeRoutes)) "routes"
      (decodeRoutes float) none = pure (routes.map id) := by
    refine decodeField_omitEmpty_map id (fun r hin => ?_) _
    exact decodeRoutes_encode
      (fun route hroute => unmarshalRoute_marshal (h.config r hin route hroute)
        (hplain.config r hin route hroute).1 (hplain.config r hin route hroute).2)
      fun route hroute => unmarshalRoute_marshal (h.running r hin route hroute)
        (hplain.running r hin route hroute).1 (hplain.running r hin route hroute).2
  rw [decodeState, Decode.finish_eq_ok_iff]
  show Reads (decodeRoot float (.obj (omitEmpty "dns-resolver" (dnsResolver.map encodeDNSResolver)
    ++ omitEmpty "interfaces" (some (.arr (interfaces.map marshalInterface)))
    ++ omitEmpty "ovn" (ovn.map encodeBridgeMappings)
    ++ omitEmpty "routes" (routes.map encodeRoutes)))) _
  have hkeys := fun value item => decodeKey_root float value item
  -- one section after the other, each into its own field
  simp only [decodeRoot, decodeStruct_append,
    decodeStruct_omitEmpty (fun value item => (hkeys value item).1) fun _ => rfl,
    decodeStruct_omitEmpty (fun value item => (hkeys value item).2.1) fun _ => rfl,
    decodeStruct_omitEmpty (fun value item => (hkeys value item).2.2.1) fun _ => rfl,
    decodeStruct_omitEmpty (fun value item => (hkeys value item).2.2.2) fun _ => rfl,
    decodeField_omitEmpty, hdns, hovn, hroutes, hinterfaces, pure_bind, Option.map_id_fun, id,
    Decode.reads_pure]

end Decoded

/-! ## The filtered state -/

/-- The interface is not an unmanaged veth. -/
def isKept (iface : InterfaceState) : Bool :=
  !(decide (iface.type = "veth") && iface.data.isStr "state" "ignore")

/-- An interface without its volatile fields. -/
def InterfaceState.pruned (iface : InterfaceState) : InterfaceState :=
  { iface with data := Json.pruneFields (volatile iface.type) iface.data }

/-- The route leaves through an interface that is kept. -/
def isAttached (interfaces : List InterfaceState) (route : RouteState) : Bool :=
  (interfaces.filter isKept).any fun iface => iface.name = route.nextHopInterface

/-- The routes that leave through kept interfaces. -/
def attachedRoutes (interfaces : List InterfaceState) (routes : Routes) : Routes :=
  ⟨routes.config.filter (isAttached interfaces), routes.running.filter (isAttached interfaces)⟩

/-- What is left of a state. -/
def filteredState (root : RootState) : RootState :=
  { root with
    interfaces := (root.interfaces.filter isKept).map InterfaceState.pruned
    routes := root.routes.map (attachedRoutes root.interfaces) }

section Filtered

variable {float : String → String}

theorem isKept_eq {iface : InterfaceState} (h : iface.Decoded float) :
    isKept iface = !(isVeth iface.data && isUnmanaged iface.data) := by
  rw [isKept, isVeth, isUnmanaged, isStr_of_get h.second]

theorem filterOutInterfaces_eq {interfaces : List InterfaceState}
    (h : ∀ iface ∈ interfaces, iface.Decoded float) :
    filterOutInterfaces interfaces = (interfaces.filter isKept).map InterfaceState.pruned := by
  unfold filterOutInterfaces
  rw [List.filter_congr fun iface hin => (isKept_eq (h iface hin)).symm]
  refine List.map_congr_left fun iface hin => ?_
  have hdecoded := h iface (List.mem_of_mem_filter hin)
  rw [InterfaceState.pruned, filterOutDynamicAttributes_eq hdecoded.ordered hdecoded.second]

theorem filterOutRoutes_eq {interfaces : List InterfaceState}
    (h : ∀ iface ∈ interfaces, iface.Decoded float) (routes : List RouteState) :
    filterOutRoutes routes (filterOutInterfaces interfaces)
      = routes.filter (isAttached interfaces) := by
  unfold filterOutRoutes
  refine List.filter_congr fun route _ => ?_
  rw [filterOutInterfaces_eq h, isInInterfaces, isAttached, List.any_map]
  rfl

/-- **The edits of the source give the filtered state.** -/
theorem filterOutRoot_eq {root : RootState} (h : root.Decoded float) :
    filterOutRoot root = filteredState root := by
  unfold filterOutRoot filteredState attachedRoutes
  simp only [filterOutRoutes_eq h.interfaces]
  rw [filterOutInterfaces_eq h.interfaces]

/-! ### What is filtered is decoded -/

theorem Carried.prune {data : JsonObject} {key value key' value' : String}
    (h : Carried float data key value key' value') (type : String) :
    Carried float (Json.pruneFields (volatile type) data) key value key' value' where
  ordered := Json.ordered_obj.mp (Json.Ordered.prune (Json.ordered_obj.mpr h.ordered))
  floats := by
    have hcomm := Json.prune_mapNum (P := volatile type) (f := float) (.obj data)
    simp only [Json.prune, Json.mapNum, Json.obj.injEq, h.floats] at hcomm
    exact hcomm.symm
  first := by
    rw [Json.get_pruneFields (volatile_key type key), h.first]
    rfl
  second := by
    rw [Json.get_pruneFields (volatile_key type key'), h.second]
    rfl

theorem Spelled.prune {data : JsonObject} {name : String} (h : Spelled data name) (type : String) :
    Spelled (Json.pruneFields (volatile type) data) name := by
  intro field hfield hmatch
  rw [Json.pruneFields_eq] at hfield
  obtain ⟨original, horiginal, rfl⟩ := List.mem_map.mp hfield
  exact h original (List.mem_of_mem_filter horiginal) hmatch

/-- A property of every interface and route of a filtered state, from the state. -/
theorem mem_filteredState_interfaces {root : RootState} {iface : InterfaceState}
    (h : iface ∈ (filteredState root).interfaces) :
    ∃ original ∈ root.interfaces, isKept original = true ∧ iface = original.pruned := by
  obtain ⟨original, horiginal, rfl⟩ := List.mem_map.mp h
  exact ⟨original, List.mem_of_mem_filter horiginal, List.of_mem_filter horiginal, rfl⟩

theorem mem_filteredState_routes {root : RootState} {routes : Routes}
    (h : routes ∈ (filteredState root).routes) :
    ∃ original ∈ root.routes, (∀ route ∈ routes.config, route ∈ original.config)
      ∧ ∀ route ∈ routes.running, route ∈ original.running := by
  obtain ⟨original, horiginal, rfl⟩ := Option.mem_map.mp h
  exact ⟨original, horiginal, fun route => List.mem_of_mem_filter,
    fun route => List.mem_of_mem_filter⟩

theorem RootState.Decoded.filtered {root : RootState} (h : root.Decoded float) :
    (filteredState root).Decoded float where
  interfaces := by
    intro iface hin
    obtain ⟨original, horiginal, -, rfl⟩ := mem_filteredState_interfaces hin
    exact Carried.prune (h.interfaces original horiginal) original.type
  config := by
    intro routes hin route hroute
    obtain ⟨original, horiginal, hconfig, -⟩ := mem_filteredState_routes hin
    exact h.config original horiginal route (hconfig route hroute)
  running := by
    intro routes hin route hroute
    obtain ⟨original, horiginal, -, hrunning⟩ := mem_filteredState_routes hin
    exact h.running original horiginal route (hrunning route hroute)
  dnsResolver := h.dnsResolver

theorem RootState.Plain.filtered {root : RootState} (h : root.Plain) :
    (filteredState root).Plain where
  interfaces := by
    intro iface hin
    obtain ⟨original, horiginal, -, rfl⟩ := mem_filteredState_interfaces hin
    exact ⟨(h.interfaces original horiginal).1.prune _, (h.interfaces original horiginal).2.prune _⟩
  config := by
    intro routes hin route hroute
    obtain ⟨original, horiginal, hconfig, -⟩ := mem_filteredState_routes hin
    exact h.config original horiginal route (hconfig route hroute)
  running := by
    intro routes hin route hroute
    obtain ⟨original, horiginal, -, hrunning⟩ := mem_filteredState_routes hin
    exact h.running original horiginal route (hrunning route hroute)

/-! ### Filtering twice -/

theorem isStr_pruneFields (type key value : String) (data : JsonObject) :
    (Json.pruneFields (volatile type) data).isStr key value = data.isStr key value := by
  unfold JsonObject.isStr
  rw [Json.get_pruneFields (volatile_key type key)]
  cases data.get key with
  | none => rfl
  | some v => cases v <;> rfl

theorem isKept_pruned (iface : InterfaceState) : isKept iface.pruned = isKept iface := by
  unfold isKept InterfaceState.pruned
  rw [isStr_pruneFields]

theorem pruned_pruned (iface : InterfaceState) : iface.pruned.pruned = iface.pruned := by
  unfold InterfaceState.pruned
  rw [Json.pruneFields_pruneFields]
  simp only [Bool.or_self]

theorem filter_isKept_pruned (interfaces : List InterfaceState) :
    ((interfaces.filter isKept).map InterfaceState.pruned).filter isKept
      = (interfaces.filter isKept).map InterfaceState.pruned := by
  refine List.filter_eq_self.mpr fun iface hin => ?_
  obtain ⟨original, horiginal, rfl⟩ := List.mem_map.mp hin
  rw [isKept_pruned]
  exact List.of_mem_filter horiginal

theorem isAttached_pruned (interfaces : List InterfaceState) :
    isAttached ((interfaces.filter isKept).map InterfaceState.pruned) = isAttached interfaces := by
  funext route
  unfold isAttached
  rw [filter_isKept_pruned, List.any_map]
  rfl

theorem attachedRoutes_attachedRoutes (interfaces : List InterfaceState) (routes : Routes) :
    attachedRoutes interfaces (attachedRoutes interfaces routes)
      = attachedRoutes interfaces routes := by
  simp [attachedRoutes, List.filter_filter]

theorem filteredState_filteredState (root : RootState) :
    filteredState (filteredState root) = filteredState root := by
  have hinterfaces : (filteredState root).interfaces
      = (root.interfaces.filter isKept).map InterfaceState.pruned := rfl
  -- every interface that was kept is kept again, under its name
  have hattached : attachedRoutes (filteredState root).interfaces
      = attachedRoutes root.interfaces := by
    funext routes
    rw [hinterfaces, attachedRoutes, attachedRoutes, isAttached_pruned]
  have hroutes : (filteredState root).routes.map (attachedRoutes (filteredState root).interfaces)
      = (filteredState root).routes := by
    rw [hattached]
    show (root.routes.map (attachedRoutes root.interfaces)).map _ = _
    rw [Option.map_map]
    congr 1
    funext routes
    exact attachedRoutes_attachedRoutes root.interfaces routes
  have hpruned : ((filteredState root).interfaces.filter isKept).map InterfaceState.pruned
      = (filteredState root).interfaces := by
    rw [hinterfaces, filter_isKept_pruned, List.map_map]
    exact List.map_congr_left fun iface _ => pruned_pruned iface
  show RootState.mk _ _ _ _ = _
  rw [hroutes, hpruned]

end Filtered

/-! ## States that differ in what is removed -/

/-- One difference that filtering removes: volatile fields of an interface, an unmanaged veth, or
a route that is not attached to a kept interface. -/
inductive Churn : RootState → RootState → Prop where
  | attributes {root : RootState} {before after : List InterfaceState}
      {iface iface' : InterfaceState} (h : iface'.pruned = iface.pruned) :
      Churn { root with interfaces := before ++ iface :: after }
        { root with interfaces := before ++ iface' :: after }
  | veth {root : RootState} {before after : List InterfaceState} {iface : InterfaceState}
      (h : isKept iface = false) :
      Churn { root with interfaces := before ++ after }
        { root with interfaces := before ++ iface :: after }
  | config {root : RootState} {before after running : List RouteState} {route : RouteState}
      (h : isAttached root.interfaces route = false) :
      Churn { root with routes := some ⟨before ++ after, running⟩ }
        { root with routes := some ⟨before ++ route :: after, running⟩ }
  | running {root : RootState} {config before after : List RouteState} {route : RouteState}
      (h : isAttached root.interfaces route = false) :
      Churn { root with routes := some ⟨config, before ++ after⟩ }
        { root with routes := some ⟨config, before ++ route :: after⟩ }

/-- The filtered state depends on the kept interfaces without their volatile fields only. -/
theorem filteredState_congr {root : RootState} {interfaces interfaces' : List InterfaceState}
    (h : (interfaces.filter isKept).map InterfaceState.pruned
      = (interfaces'.filter isKept).map InterfaceState.pruned) :
    filteredState { root with interfaces := interfaces }
      = filteredState { root with interfaces := interfaces' } := by
  have hattached : isAttached interfaces = isAttached interfaces' := by
    rw [← isAttached_pruned interfaces, h, isAttached_pruned]
  unfold filteredState attachedRoutes
  simp only [h, hattached]

theorem Churn.filteredState_eq {root root' : RootState} (h : Churn root root') :
    filteredState root = filteredState root' := by
  cases h with
  | @attributes root before after iface iface' h =>
    -- the fields that decide whether an interface is kept are not volatile
    have hkept : isKept iface' = isKept iface := by
      rw [← isKept_pruned iface', h, isKept_pruned]
    refine filteredState_congr ?_
    simp only [List.filter_append, List.filter_cons, hkept, List.map_append]
    split
    · rw [List.map_cons, List.map_cons, h]
    · rfl
  | veth h =>
    refine filteredState_congr ?_
    simp [h]
  | config h => simp [filteredState, attachedRoutes, h]
  | running h => simp [filteredState, attachedRoutes, h]

/-- States joined by such differences have one filtered state. -/
theorem filteredState_eq_of_churn {root root' : RootState}
    (h : Relation.EqvGen Churn root root') : filteredState root = filteredState root' := by
  induction h with
  | rel _ _ h => exact h.filteredState_eq
  | refl _ => rfl
  | symm _ _ _ ih => exact ih.symm
  | trans _ _ _ _ _ ih ih' => exact ih.trans ih'

/-! ## Text -/

/-- The text of a written state is read as the document that was written. -/
def Yaml.Lossless (yaml : Yaml) (float : String → String) : Prop :=
  ∀ {root root' : RootState} {text : State}, yaml.marshal root = .ok text →
    decodeState float (encodeState root) = .ok root' → yaml.unmarshal text = .ok root'

theorem filterOut_eq {yaml : Yaml} {text : State} {root : RootState}
    (h : yaml.unmarshal text = .ok root) :
    filterOut yaml text = yaml.marshal (filterOutRoot root) := by
  unfold filterOut
  rw [h]

section Unchanged

variable {lagging lost : Bool} {yaml : Yaml} {current text : State} {nns : NodeNetworkState}
  {w w' : NnsWorld} {tr : List (Called NodeApi)} {result : State × Option Err}

/-- An object that is stored but not found is not created again. -/
theorem publishState_absent (hstored : w.stored = some nns)
    (hx : Exec (nodeEnv lagging lost) (publishState current current none) w tr result w') :
    w' = w ∧ result.1 = current := by
  obtain ⟨node, w₁, _, ⟨⟨hexists, (rfl : w₁ = w)⟩, -⟩, hx, -⟩ := Exec.of_perform hx
  rcases node with err | ⟨⟩
  · cases err with
    | notFound => exact absurd rfl hexists
    | _ =>
      obtain ⟨rfl, rfl, -⟩ := Exec.of_ret hx
      exact ⟨rfl, rfl⟩
  obtain ⟨_, w₂, _, ⟨⟨-, (rfl : w₂ = w₁)⟩, -⟩, hx, -⟩ := Exec.of_perform hx
  obtain ⟨_, w₃, _, ⟨⟨-, (rfl : w₃ = w₂)⟩, -⟩, hx, -⟩ := Exec.of_perform hx
  obtain ⟨created, w₄, _, ⟨⟨htruth, heffect⟩, -⟩, hx, -⟩ := Exec.of_perform hx
  rcases created with err | obj
  · obtain ⟨rfl, rfl, -⟩ := Exec.of_ret hx
    refine ⟨?_, rfl⟩
    rcases heffect with heffect | ⟨hnone, -⟩
    · exact heffect
    · rw [hstored] at hnone
      cases hnone
  · have hnone := htruth.1
    rw [hstored] at hnone
    cases hnone

/-- A reconcile that observes the state it remembers leaves the stored object alone, whatever its
cache shows and whichever calls fail. -/
theorem reconcileNode_unchanged (hfilter : filterOut yaml text = .ok current)
    (hstored : w.stored = some nns)
    (hx : Exec (nodeEnv lagging lost) (reconcileNode yaml current) w
      (⟨.nmstatectlShow, .ok text⟩ :: tr) result w') :
    w' = w ∧ result.1 = current := by
  cases hx with
  | call hs hk =>
    obtain ⟨⟨-, rfl⟩, -⟩ := hs
    dsimp only [Prog.bind] at hk
    rw [hfilter] at hk
    obtain ⟨read, w₁, _, ⟨⟨-, (rfl : w₁ = _)⟩, -⟩, hk, -⟩ := Exec.of_perform hk
    rcases read with err | nns'
    · cases err with
      -- the object is stored, but the cache may not show it yet
      | notFound => exact publishState_absent hstored hk
      | _ =>
        obtain ⟨rfl, rfl, -⟩ := Exec.of_ret hk
        exact ⟨rfl, rfl⟩
    · dsimp only [Prog.bind, publishState] at hk
      rw [if_pos ⟨rfl, rfl⟩] at hk
      obtain ⟨rfl, rfl, -⟩ := Exec.of_ret hk
      exact ⟨rfl, rfl⟩

end Unchanged

section Main

variable {float : String → String}

/-- **`FilterOut` removes what is volatile or unmanaged, and nothing else.** -/
theorem filterOut_exact (hfloat : ∀ literal, float (float literal) = float literal) {doc : Json}
    (hdoc : doc.Ordered) {root : RootState} (hroot : decodeState float doc = .ok root)
    (hplain : root.Plain) :
    (filterOutRoot root).interfaces
        = (root.interfaces.filter isKept).map InterfaceState.pruned
      ∧ (filterOutRoot root).routes = root.routes.map (attachedRoutes root.interfaces)
      ∧ (filterOutRoot root).dnsResolver = root.dnsResolver
      ∧ (filterOutRoot root).ovn = root.ovn
      ∧ filterOutRoot (filterOutRoot root) = filterOutRoot root
      ∧ filterOutDocument float (encodeState (filterOutRoot root))
          = .ok (encodeState (filterOutRoot root))
      ∧ (∀ (yaml : Yaml) (text : State), yaml.unmarshal text = .ok root →
          filterOut yaml text = yaml.marshal (filterOutRoot root))
      ∧ (∀ (yaml : Yaml) (text out : State), yaml.Lossless float →
          yaml.unmarshal text = .ok root → filterOut yaml text = .ok out →
          filterOut yaml out = .ok out)
      ∧ ∀ (doc' : Json) (root' : RootState), doc'.Ordered → decodeState float doc' = .ok root' →
          Relation.EqvGen Churn root root' →
          filterOutDocument float doc' = filterOutDocument float doc
          ∧ ∀ (yaml : Yaml) (text text' : State), yaml.unmarshal text = .ok root →
              yaml.unmarshal text' = .ok root' →
              filterOut yaml text' = filterOut yaml text
              ∧ ∀ lagging lost current nns w tr result w', filterOut yaml text = .ok current →
                  w.stored = some nns →
                  Exec (nodeEnv lagging lost) (reconcileNode yaml current) w
                    (⟨.nmstatectlShow, .ok text'⟩ :: tr) result w' →
                  w' = w ∧ result.1 = current := by
  have hdecoded := decoded_of_decodeState hfloat hdoc hroot
  have hfiltered := filterOutRoot_eq hdecoded
  have htwice : filterOutRoot (filterOutRoot root) = filterOutRoot root := by
    rw [hfiltered, filterOutRoot_eq hdecoded.filtered, filteredState_filteredState]
  have hread : decodeState float (encodeState (filterOutRoot root)) = .ok (filterOutRoot root) := by
    rw [hfiltered]
    exact decodeState_encodeState hdecoded.filtered hplain.filtered
  refine ⟨?_, ?_, rfl, rfl, htwice, ?_, fun _ _ htext => filterOut_eq htext, ?_, ?_⟩
  · rw [hfiltered]
    rfl
  · rw [hfiltered]
    rfl
  · rw [filterOutDocument, hread, Except.map, htwice]
  · intro yaml text out hlossless htext hout
    rw [filterOut_eq htext] at hout
    rw [filterOut_eq (hlossless hout hread), htwice, hout]
  · intro doc' root' hdoc' hroot' hchurn
    have hsame : filterOutRoot root' = filterOutRoot root := by
      rw [hfiltered, filterOutRoot_eq (decoded_of_decodeState hfloat hdoc' hroot'),
        filteredState_eq_of_churn hchurn]
    refine ⟨?_, ?_⟩
    · rw [filterOutDocument, filterOutDocument, hroot, hroot', Except.map, Except.map, hsame]
    · intro yaml text text' htext htext'
      have hequal : filterOut yaml text' = filterOut yaml text := by
        rw [filterOut_eq htext, filterOut_eq htext', hsame]
      refine ⟨hequal, ?_⟩
      intro lagging lost current nns w tr result w' hcurrent hstored hx
      exact reconcileNode_unchanged (hequal.trans hcurrent) hstored hx

end Main

/-- A bridge with a timer and the end of a container's veth, each with a route. -/
def observedDocument : JsonObject :=
  [("interfaces", .arr [
      .obj [("bridge", .obj [("options",
          .obj [("gc-timer", .num "29"), ("mac-ageing-time", .num "300")])]),
        ("name", .str "br1"), ("state", .str "up"), ("type", .str "linux-bridge")],
      .obj [("name", .str "veth0"), ("state", .str "ignore"), ("type", .str "veth")]]),
    ("routes", .obj [
      ("config",
        .arr [.obj [("destination", .str "0.0.0.0/0"), ("next-hop-interface", .str "br1")]]),
      ("running",
        .arr [.obj [("destination", .str "10.0.0.0/8"), ("next-hop-interface", .str "veth0")]])])]

/-- The state decoded from it. -/
def observedRoot : RootState where
  interfaces := [
    ⟨"br1", "linux-bridge",
      [("bridge", .obj [("options",
          .obj [("gc-timer", .num "29"), ("mac-ageing-time", .num "300")])]),
        ("name", .str "br1"), ("state", .str "up"), ("type", .str "linux-bridge")]⟩,
    ⟨"veth0", "veth", [("name", .str "veth0"), ("state", .str "ignore"), ("type", .str "veth")]⟩]
  routes := some ⟨
    [⟨"0.0.0.0/0", "br1", [("destination", .str "0.0.0.0/0"), ("next-hop-interface", .str "br1")]⟩],
    [⟨"10.0.0.0/8", "veth0",
      [("destination", .str "10.0.0.0/8"), ("next-hop-interface", .str "veth0")]⟩]⟩

theorem filterOut_exact_bridge_and_veth :
    decodeState id (.obj observedDocument) = .ok observedRoot
      ∧ (filterOutRoot observedRoot).interfaces = [⟨"br1", "linux-bridge",
          [("bridge", .obj [("options", .obj [("mac-ageing-time", .num "300")])]),
            ("name", .str "br1"), ("state", .str "up"), ("type", .str "linux-bridge")]⟩]
      ∧ filterOutRoot (filterOutRoot observedRoot) = filterOutRoot observedRoot := by
  have hdoc : (Json.obj observedDocument).Ordered := by decide
  have hroot : decodeState id (.obj observedDocument) = .ok observedRoot := by rfl
  have hplain : observedRoot.Plain := by
    refine ⟨?_, ?_, ?_⟩
    · unfold Spelled
      decide
    · unfold Spelled
      decide
    · unfold Spelled
      decide
  obtain ⟨hinterfaces, -, -, -, htwice, -⟩ :=
    @filterOut_exact id (fun _ => rfl) _ hdoc _ hroot hplain
  refine ⟨hroot, ?_, htwice⟩
  rw [hinterfaces]
  rfl
