/-
# What the route metrics say

`CountRoutes` counts every running route under its IP stack and under `static` or `dynamic`.
A route is taken for static when some configured route has its destination, whatever else the
two have in common: two default routes, one configured and one learned, are both static.

`classifiedKey` is what the counts are for: a running route is static when the same route is
configured.  The code never takes a static route for a dynamic one, so its counts are right
exactly when every running route to a configured destination is itself configured
(`routes_classified_iff`).
-/
import KubernetesNmstate.Counting
import KubernetesNmstate.StateDocument

/-! ## Routes -/

/-- `routes.config`, empty without a routes section. -/
def RootState.config (root : RootState) : List RouteState := (root.routes.map Routes.config).getD []

/-- `routes.running`, empty without a routes section. -/
def RootState.running (root : RootState) : List RouteState :=
  (root.routes.map Routes.running).getD []

theorem routeKeys_eq (root : RootState) :
    routeKeys root = root.running.map (routeKey root.config) := by
  unfold routeKeys RootState.running RootState.config
  cases root.routes <;> rfl

/-- Two entries for one route: its destination, next hop and table. -/
structure SameRoute (r r' : RouteState) : Prop where
  destination : r.destination = r'.destination
  nextHopAddress :
    JsonObject.get r.data "next-hop-address" = JsonObject.get r'.data "next-hop-address"
  nextHopInterface : r.nextHopInterface = r'.nextHopInterface
  tableId : JsonObject.get r.data "table-id" = JsonObject.get r'.data "table-id"

/-- The route is listed among the configured ones. -/
def Configured (config : List RouteState) (route : RouteState) : Prop :=
  ∃ r ∈ config, SameRoute r route

open Classical in
/-- The key a running route should be counted under. -/
noncomputable def classifiedKey (config : List RouteState) (route : RouteState) : RouteKey where
  ipStack := getIPStack route.destination
  type := if Configured config route then .static else .dynamic

/-- Every running route to a configured destination is configured itself. -/
def DestinationsTell (root : RootState) : Prop :=
  ∀ route ∈ root.running, route.destination ∈ root.config.map RouteState.destination →
    Configured root.config route

/-! ## The two classifications -/

theorem ite_static_iff (p : Prop) [Decidable p] :
    (if p then RouteType.static else .dynamic) = .static ↔ p := by
  by_cases hp : p
  · simp [hp]
  · simp [hp]

theorem routeKey_static_iff (config : List RouteState) (route : RouteState) :
    (routeKey config route).type = .static
      ↔ route.destination ∈ config.map RouteState.destination :=
  ite_static_iff _

theorem classifiedKey_static_iff (config : List RouteState) (route : RouteState) :
    (classifiedKey config route).type = .static ↔ Configured config route := by
  classical
  exact ite_static_iff _

/-- Keys are told apart by the stack and by being static. -/
theorem routeKey_eq_iff {k k' : RouteKey} :
    k = k' ↔ k.ipStack = k'.ipStack ∧ (k.type = .static ↔ k'.type = .static) := by
  obtain ⟨stack, type⟩ := k
  obtain ⟨stack', type'⟩ := k'
  cases type <;> cases type' <;> simp

/-- A configured route has a configured destination: the code errs on one side only. -/
theorem Configured.destination_mem {config : List RouteState} {route : RouteState}
    (h : Configured config route) : route.destination ∈ config.map RouteState.destination := by
  obtain ⟨r, hr, hsame⟩ := h
  rw [← hsame.destination]
  exact List.mem_map_of_mem hr

theorem routeKey_eq_classifiedKey_iff (config : List RouteState) (route : RouteState) :
    routeKey config route = classifiedKey config route
      ↔ (route.destination ∈ config.map RouteState.destination → Configured config route) := by
  rw [routeKey_eq_iff, routeKey_static_iff, classifiedKey_static_iff]
  constructor
  · rintro ⟨-, hiff⟩
    exact hiff.mp
  · intro h
    exact ⟨rfl, h, Configured.destination_mem⟩

/-- Every route is counted rightly if the destinations tell. -/
theorem forall_routeKey_eq_iff (root : RootState) :
    (∀ route ∈ root.running, routeKey root.config route = classifiedKey root.config route)
      ↔ DestinationsTell root := by
  unfold DestinationsTell
  refine forall₂_congr fun route _ => ?_
  exact routeKey_eq_classifiedKey_iff root.config route

/-! ## The counts -/

/-- The code counts a static key too often, and as often as it should only if the
destinations tell. -/
theorem destinationsTell_of_count_eq {root : RootState}
    (h : ∀ stack, (routeKeys root).count ⟨stack, .static⟩
      = (root.running.map (classifiedKey root.config)).count ⟨stack, .static⟩) :
    DestinationsTell root := by
  intro route hroute hdest
  -- the key of the code for this route
  have hkey : routeKey root.config route = ⟨getIPStack route.destination, .static⟩ := by
    rw [routeKey_eq_iff, routeKey_static_iff]
    exact ⟨rfl, fun _ => rfl, fun _ => hdest⟩
  have hcount := h (getIPStack route.destination)
  rw [routeKeys_eq, List.count_eq_countP, List.count_eq_countP, List.countP_map, List.countP_map]
    at hcount
  have himp : ∀ x ∈ root.running,
      classifiedKey root.config x = ⟨getIPStack route.destination, .static⟩ →
      routeKey root.config x = ⟨getIPStack route.destination, .static⟩ := by
    intro x _ hx
    have hconf : Configured root.config x := by
      rw [← classifiedKey_static_iff, hx]
    rw [(routeKey_eq_classifiedKey_iff root.config x).mpr fun _ => hconf]
    exact hx
  have hback := (List.countP_eq_iff_of_imp (by simpa using himp)).mp hcount.symm
  have hroutekey : classifiedKey root.config route = ⟨getIPStack route.destination, .static⟩ := by
    simpa using hback route hroute (by simpa using hkey)
  rw [← classifiedKey_static_iff, hroutekey]

/-- **Route metrics.**  The counts add up to the number of running routes.  Every running route
is counted as it should be, and the counts are those of the right classification, exactly when
every running route to a configured destination is configured itself. -/
theorem routes_classified_iff (root : RootState) :
    (countRoutes root).total = root.running.length ∧
    ((∀ route ∈ root.running,
        (routeKey root.config route).ipStack = getIPStack route.destination ∧
        ((routeKey root.config route).type = .static ↔ Configured root.config route))
      ↔ DestinationsTell root) ∧
    ((∀ key, (countRoutes root).get key
        = (Counter.ofList (root.running.map (classifiedKey root.config))).get key)
      ↔ DestinationsTell root) := by
  refine ⟨?_, ?_, ?_⟩
  · rw [countRoutes, Counter.total_ofList, routeKeys_eq, List.length_map]
  · rw [← forall_routeKey_eq_iff]
    refine forall₂_congr fun route _ => ?_
    rw [routeKey_eq_iff, classifiedKey_static_iff]
    exact Iff.rfl
  · constructor
    · intro h
      apply destinationsTell_of_count_eq
      intro stack
      exact Counter.get_ofList_eq_iff.mp (h ⟨stack, .static⟩)
    · intro htell key
      rw [countRoutes, routeKeys_eq,
        List.map_congr_left ((forall_routeKey_eq_iff root).mpr htell)]

/-- One default route is configured, through `eth0`; another is learned through `eth1`. -/
def twoDefaultRoutes : Json :=
  .obj [("interfaces", .arr []),
    ("routes", .obj [
      ("config", .arr [.obj [("destination", .str "0.0.0.0/0"),
        ("next-hop-address", .str "10.0.0.1"), ("next-hop-interface", .str "eth0"),
        ("table-id", .num "254")]]),
      ("running", .arr [
        .obj [("destination", .str "0.0.0.0/0"), ("next-hop-address", .str "10.0.0.1"),
          ("next-hop-interface", .str "eth0"), ("table-id", .num "254")],
        .obj [("destination", .str "0.0.0.0/0"), ("next-hop-address", .str "192.168.1.1"),
          ("next-hop-interface", .str "eth1"), ("table-id", .num "254")]])])]

/-- Both are counted as static. -/
theorem learned_route_counted_static :
    ∃ root, decodeState id twoDefaultRoutes = .ok root ∧
      (countRoutes root).get ⟨.ipv4, .static⟩ = some 2 ∧
      (countRoutes root).get ⟨.ipv4, .dynamic⟩ = none ∧
      ∃ route ∈ root.running, route.nextHopInterface = "eth1" ∧
        (routeKey root.config route).type = .static ∧ ¬ Configured root.config route := by
  refine ⟨_, rfl, by decide, by decide, _, List.mem_cons_of_mem _ List.mem_cons_self, rfl,
    by decide, ?_⟩
  rintro ⟨r, hr, hsame⟩
  rw [List.mem_singleton.mp hr] at hsame
  exact absurd hsame.nextHopInterface (by decide)
