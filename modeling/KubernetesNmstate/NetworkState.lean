/-
# Network states

`pkg/state`: the decoded form of a network state, what `FilterOut` removes from it, and the
counts of its interfaces and routes that the metrics show.

A network state is stored as text.  `Yaml` is the reading and writing of that text; everything
else works on `RootState`.  Interfaces and routes keep all their attributes as the object they
were decoded from, beside the few fields the source names.
-/
import KubernetesNmstate.Gauges
import KubernetesNmstate.Json
import KubernetesNmstate.Objects

/-! ## Decoded states -/

/-- `interfaceState`. -/
structure InterfaceState where
  name : String
  type : String
  data : JsonObject
  deriving Repr, Inhabited

/-- `routeState`. -/
structure RouteState where
  destination : String
  nextHopInterface : String
  data : JsonObject
  deriving Repr, Inhabited

/-- `routes`. -/
structure Routes where
  config : List RouteState
  running : List RouteState
  deriving Repr, Inhabited

/-- `DNSResolverData`; `none` is the nil slice. -/
structure DNSResolverData where
  search : Option (List Json)
  server : Option (List Json)
  deriving Repr, Inhabited

/-- `dnsResolver`. -/
structure DNSResolver where
  config : Option DNSResolverData
  running : Option DNSResolverData
  deriving Repr, Inhabited

/-- `PhysicalNetworks`. -/
structure PhysicalNetworks where
  name : String
  bridge : String
  state : String
  deriving DecidableEq, Repr, Inhabited

/-- `bridgeMappings`. -/
structure BridgeMappings where
  physicalNetworkMappings : List PhysicalNetworks
  deriving DecidableEq, Repr, Inhabited

/-- `rootState`. -/
structure RootState where
  interfaces : List InterfaceState
  routes : Option Routes := none
  dnsResolver : Option DNSResolver := none
  ovn : Option BridgeMappings := none
  deriving Repr, Inhabited

/-- `yaml.Unmarshal` into a `rootState` and `yaml.Marshal` of one.  A `rootState` always has an
interfaces section, so its text is not empty. -/
structure Yaml where
  unmarshal : State → Except Err RootState
  marshal : RootState → Except Err State
  marshal_ne : ∀ {root : RootState} {text : State}, marshal root = .ok text → text ≠ ""

/-! ## `FilterOut` -/

/-- `isVeth`. -/
def isVeth (ifaceData : JsonObject) : Bool := ifaceData.isStr "type" "veth"

/-- `isUnmanaged`. -/
def isUnmanaged (ifaceData : JsonObject) : Bool := ifaceData.isStr "state" "ignore"

/-- `filterOutBridgeDynamicAttributes`. -/
def filterOutBridgeDynamicAttributes (iface : JsonObject) : JsonObject :=
  if iface.isStr "type" "linux-bridge" = false then iface
  else
    match iface.get "bridge" with
    | some (.obj bridge) =>
      match JsonObject.get bridge "options" with
      | some (.obj options) =>
        let options := JsonObject.erase (JsonObject.erase options "gc-timer") "hello-timer"
        iface.replace "bridge" (.obj (JsonObject.replace bridge "options" (.obj options)))
      | _ => iface
    | _ => iface

/-- The body of the loop of `filterOutAddressLifetimes`. -/
def filterOutLifetimes : Json → Json
  | .obj addr =>
    .obj (JsonObject.erase (JsonObject.erase addr "preferred-life-time") "valid-life-time")
  | addr => addr

/-- `filterOutAddressLifetimes`. -/
def filterOutAddressLifetimes (iface : JsonObject) (ipVersion : String) : JsonObject :=
  match iface.get ipVersion with
  | some (.obj ip) =>
    match JsonObject.get ip "address" with
    | some (.arr addresses) =>
      iface.replace ipVersion
        (.obj (JsonObject.replace ip "address" (.arr (addresses.map filterOutLifetimes))))
    | _ => iface
  | _ => iface

/-- `filterOutIPAddressLifetimeAttributes`. -/
def filterOutIPAddressLifetimeAttributes (iface : JsonObject) : JsonObject :=
  filterOutAddressLifetimes (filterOutAddressLifetimes iface "ipv4") "ipv6"

/-- `filterOutDynamicAttributes`. -/
def filterOutDynamicAttributes (iface : JsonObject) : JsonObject :=
  filterOutIPAddressLifetimeAttributes (filterOutBridgeDynamicAttributes iface)

/-- `filterOutInterfaces`. -/
def filterOutInterfaces (ifacesState : List InterfaceState) : List InterfaceState :=
  (ifacesState.filter fun iface => !(isVeth iface.data && isUnmanaged iface.data)).map
    fun iface => { iface with data := filterOutDynamicAttributes iface.data }

/-- `isInInterfaces`. -/
def isInInterfaces (interfaceName : String) (interfaces : List InterfaceState) : Bool :=
  interfaces.any fun iface => iface.name = interfaceName

/-- `filterOutRoutes`. -/
def filterOutRoutes (routes : List RouteState) (filteredInterfaces : List InterfaceState) :
    List RouteState :=
  routes.filter fun route => isInInterfaces route.nextHopInterface filteredInterfaces

/-- The part of `filterOut` between decoding and encoding. -/
def filterOutRoot (state : RootState) : RootState :=
  let interfaces := filterOutInterfaces state.interfaces
  { state with
    interfaces := interfaces
    routes := state.routes.map fun routes =>
      { config := filterOutRoutes routes.config interfaces
        running := filterOutRoutes routes.running interfaces } }

/-- `FilterOut`. -/
def filterOut (yaml : Yaml) (currentState : State) : Except Err State :=
  match yaml.unmarshal currentState with
  | .error err => .error err
  | .ok state => yaml.marshal (filterOutRoot state)

theorem filterOut_ne {yaml : Yaml} {observed current : State}
    (h : filterOut yaml observed = .ok current) : current ≠ "" := by
  unfold filterOut at h
  split at h
  · cases h
  · exact yaml.marshal_ne h

/-! ## The counts of the metrics -/

/-- The two values of `RouteKey.IPStack`. -/
inductive IPStack : Type where
  | ipv4 : IPStack
  | ipv6 : IPStack
  deriving DecidableEq, Repr, Inhabited

/-- The two values of `RouteKey.Type`. -/
inductive RouteType : Type where
  | static : RouteType
  | dynamic : RouteType
  deriving DecidableEq, Repr, Inhabited

/-- `RouteKey`. -/
structure RouteKey where
  ipStack : IPStack
  type : RouteType
  deriving DecidableEq, Repr, Inhabited

/-- `getIPStack`. -/
def getIPStack (destination : String) : IPStack :=
  if ':' ∈ destination.toList then .ipv6 else .ipv4

/-- The types `CountInterfacesByType` counts, one for each interface that has one. -/
def interfaceTypes (state : RootState) : List String :=
  (state.interfaces.map InterfaceState.type).filter fun type => type ≠ ""

/-- `CountInterfacesByType` of a decoded state. -/
def countInterfacesByType (state : RootState) : Counter String :=
  Counter.ofList (interfaceTypes state)

/-- The key `CountRoutes` counts a running route under. -/
def routeKey (config : List RouteState) (route : RouteState) : RouteKey where
  ipStack := getIPStack route.destination
  type := if route.destination ∈ config.map RouteState.destination then .static else .dynamic

/-- The keys `CountRoutes` counts, one for each running route. -/
def routeKeys (state : RootState) : List RouteKey :=
  match state.routes with
  | none => []
  | some routes => routes.running.map (routeKey routes.config)

/-- `CountRoutes` of a decoded state. -/
def countRoutes (state : RootState) : Counter RouteKey := Counter.ofList (routeKeys state)

theorem get_countInterfacesByType (state : RootState) (type : String) :
    (countInterfacesByType state).get type =
      if type ≠ "" ∧ ∃ iface ∈ state.interfaces, iface.type = type then
        some (state.interfaces.countP fun iface => iface.type = type)
      else none := by
  rw [countInterfacesByType, Counter.get_ofList]
  by_cases hne : type = ""
  · simp [interfaceTypes, hne]
  · have hcount : (interfaceTypes state).count type =
        state.interfaces.countP fun iface => iface.type = type := by
      rw [interfaceTypes, List.count_filter (by simpa using hne), List.count_eq_countP,
        List.countP_map]
      rfl
    rw [hcount]
    simp [interfaceTypes, hne]

theorem get_countRoutes (state : RootState) (key : RouteKey) :
    (countRoutes state).get key = state.routes.bind fun routes =>
      if ∃ route ∈ routes.running, routeKey routes.config route = key then
        some (routes.running.countP fun route => routeKey routes.config route = key)
      else none := by
  rw [countRoutes, Counter.get_ofList, routeKeys]
  cases state.routes with
  | none => rfl
  | some routes =>
    simp only [Option.bind_some, List.mem_map, List.count_eq_countP, List.countP_map]
    rfl
