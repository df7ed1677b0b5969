/-
# The default gateway probe

`defaultGw` of `pkg/probe/probes.go`: the gateway that the connectivity probe pings, read from the
running routes of the observed network state.

The search stops at the first default route of the main routing table, and only then looks at its
next hop.  `defaultGw_complete_iff` says that it finds a usable gateway whenever there is one,
and the first one, exactly when that route has a usable next hop or no default route of the main
table has.
-/
import KubernetesNmstate.JsonPath
import KubernetesNmstate.Objects

/-! ## Timeouts -/

def defaultGwRetrieveTimeout : Time := 120
def defaultGwProbeTimeout : Time := 120
def defaultDNSProbeTimeout : Time := 120
def apiServerProbeTimeout : Time := 120
def nodeReadinessProbeTimeout : Time := 120

/-- `ProbesTotalTimeout`. -/
def probesTotalTimeout : Time :=
  defaultGwRetrieveTimeout + defaultDNSProbeTimeout + defaultDNSProbeTimeout +
    apiServerProbeTimeout + nodeReadinessProbeTimeout

/-- `DesiredStateConfigurationTimeout` of `pkg/client`. -/
def desiredStateConfigurationTimeout : Time := (defaultGwProbeTimeout + apiServerProbeTimeout) * 2

/-! ## The search for the gateway -/

variable {IP : Type} (parseIP : String → Option IP) (raw : Json → String)

/-- `Route`. -/
structure Route (IP : Type) where
  nextHop : IP
  iface : String
  deriving DecidableEq, Repr

/-- `mainRoutingTableID`. -/
def mainRoutingTableID : ℤ := 254

/-- The test of `defaultGw` on a route: a default route of the main table. -/
def isMainDefault (v : Json) : Bool :=
  (Json.text raw (v.field "destination") = "0.0.0.0/0" ∨
      Json.text raw (v.field "destination") = "::/0") ∧
    Json.int (v.field "table-id") = mainRoutingTableID

/-- `net.ParseIP` of the next hop of a route. -/
def nextHop (v : Json) : Option IP := parseIP (Json.text raw (v.field "next-hop-address"))

/-- The callback of `defaultGw` over the routes: what `found` holds at the end. -/
def searchGw : List Json → Option IP × String
  | [] => (none, "")
  | v :: rest =>
    if isMainDefault raw v then
      (nextHop parseIP raw v, Json.text raw (v.field "next-hop-interface"))
    else searchGw rest

/-- The routes that `defaultGw` visits. -/
def runningRoutes (currentState : Json) : List Json :=
  Json.visited (Json.path ["routes", "running"] currentState)

/-- `defaultGw`. -/
def defaultGw (currentState : Json) : Except Err (Route IP) :=
  match searchGw parseIP raw (runningRoutes currentState) with
  | (none, _) => .error (.other "default gw missing")
  | (some hop, iface) => .ok ⟨hop, iface⟩

/-! ## Completeness -/

/-- A default route of the main table whose next hop is an address. -/
def isUsable (v : Json) : Bool := isMainDefault raw v && (nextHop parseIP raw v).isSome

/-- The search is complete: it succeeds when there is a usable route, and then gives the next hop
and the interface of the first one. -/
def GwComplete (currentState : Json) : Prop :=
  ((∃ route, defaultGw parseIP raw currentState = .ok route) ↔
    ∃ v ∈ runningRoutes currentState, isUsable parseIP raw v = true) ∧
  ∀ route, defaultGw parseIP raw currentState = .ok route →
    ∃ v, (runningRoutes currentState).find? (isUsable parseIP raw) = some v ∧
      nextHop parseIP raw v = some route.nextHop ∧
      Json.text raw (v.field "next-hop-interface") = route.iface

/-- The search ends at the first default route of the main table. -/
theorem searchGw_eq (routes : List Json) :
    searchGw parseIP raw routes =
      match routes.find? (isMainDefault raw) with
      | none => (none, "")
      | some v => (nextHop parseIP raw v, Json.text raw (v.field "next-hop-interface")) := by
  induction routes with
  | nil => rfl
  | cons v rest ih =>
    rw [searchGw, List.find?_cons, ih]
    by_cases h : isMainDefault raw v = true
    · simp [h]
    · simp [h]

theorem defaultGw_eq_ok_iff {currentState : Json} {route : Route IP} :
    defaultGw parseIP raw currentState = .ok route ↔
      ∃ v, (runningRoutes currentState).find? (isMainDefault raw) = some v ∧
        nextHop parseIP raw v = some route.nextHop ∧
        Json.text raw (v.field "next-hop-interface") = route.iface := by
  unfold defaultGw
  rw [searchGw_eq]
  cases (runningRoutes currentState).find? (isMainDefault raw) with
  | none => simp
  | some v =>
    cases hhop : nextHop parseIP raw v with
    | none => simp [hhop]
    | some hop =>
      obtain ⟨hop', iface⟩ := route
      simp [hhop]

/-- When the first default route of the main table is usable, it is the first usable one. -/
theorem find_usable_of_find {routes : List Json} {v : Json}
    (h : routes.find? (isMainDefault raw) = some v) (hv : (nextHop parseIP raw v).isSome = true) :
    routes.find? (isUsable parseIP raw) = some v := by
  rw [List.find?_eq_some_iff_append] at h ⊢
  obtain ⟨hdefault, before, after, rfl, hbefore⟩ := h
  refine ⟨by simp [isUsable, hdefault, hv], before, after, rfl, fun a ha => ?_⟩
  have := hbefore a ha
  simp only [Bool.not_eq_true'] at this
  simp [isUsable, this]

/-- **When the search for the gateway is complete.**  Exactly when the first default route of the
main table has a usable next hop, or none of them has. -/
theorem defaultGw_complete_iff (currentState : Json) :
    GwComplete parseIP raw currentState ↔
      ∀ v, (runningRoutes currentState).find? (isMainDefault raw) = some v →
        (nextHop parseIP raw v).isSome = true ∨
        ∀ w ∈ runningRoutes currentState, isMainDefault raw w = true →
          nextHop parseIP raw w = none := by
  constructor
  · rintro ⟨hsucceeds, -⟩ v hv
    by_contra hno
    obtain ⟨hunusable, hother⟩ := not_or.mp hno
    -- some default route is usable, so the search ought to succeed, but it stops at `v`
    have hexists : ∃ w ∈ runningRoutes currentState, isUsable parseIP raw w = true := by
      by_contra hnone
      refine hother fun w hw hdefault => ?_
      by_contra hhop
      exact hnone ⟨w, hw, by simp [isUsable, hdefault, Option.isSome_iff_ne_none.mpr hhop]⟩
    obtain ⟨route, hroute⟩ := hsucceeds.mpr hexists
    obtain ⟨w, hw, hhop, -⟩ := (defaultGw_eq_ok_iff parseIP raw).mp hroute
    obtain rfl := Option.some.inj (hv.symm.trans hw)
    exact hunusable (by rw [hhop]; rfl)
  · intro hfirst
    have hfound : ∀ route, defaultGw parseIP raw currentState = .ok route →
        ∃ v, (runningRoutes currentState).find? (isUsable parseIP raw) = some v ∧
          nextHop parseIP raw v = some route.nextHop ∧
          Json.text raw (v.field "next-hop-interface") = route.iface := by
      intro route hroute
      obtain ⟨v, hv, hhop, hiface⟩ := (defaultGw_eq_ok_iff parseIP raw).mp hroute
      exact ⟨v, find_usable_of_find parseIP raw hv (by rw [hhop]; rfl), hhop, hiface⟩
    refine ⟨⟨?_, ?_⟩, hfound⟩
    · rintro ⟨route, hroute⟩
      obtain ⟨v, hv, -, -⟩ := hfound route hroute
      exact ⟨v, List.mem_of_find?_eq_some hv, List.find?_some hv⟩
    · rintro ⟨w, hw, husable⟩
      simp only [isUsable, Bool.and_eq_true] at husable
      obtain ⟨hdefault, hhop⟩ := husable
      cases hv : (runningRoutes currentState).find? (isMainDefault raw) with
      | none => exact absurd hdefault (by simpa using List.find?_eq_none.mp hv w hw)
      | some v =>
        rcases hfirst v hv with hsome | hnone
        · obtain ⟨hop, hhop⟩ := Option.isSome_iff_exists.mp hsome
          exact ⟨⟨hop, _⟩, (defaultGw_eq_ok_iff parseIP raw).mpr ⟨v, hv, hhop, rfl⟩⟩
        · rw [hnone w hw hdefault] at hhop
          cases hhop

/-- An on-link default route, such as that of a VPN, in front of one with a gateway: the search
fails although the second has a usable next hop. -/
theorem defaultGw_stops_at_on_link :
    let route (hop iface : String) : Json := .obj [("destination", .str "0.0.0.0/0"),
      ("next-hop-address", .str hop), ("next-hop-interface", .str iface), ("table-id", .num "254")]
    let currentState : Json := .obj [("routes", .obj [("running",
      .arr [route "" "tun0", route "10.46.55.254" "eth1"])])]
    let parseIP (s : String) : Option String := if s = "10.46.55.254" then some s else none
    isUsable parseIP (fun _ => "") (route "10.46.55.254" "eth1") = true ∧
      defaultGw parseIP (fun _ => "") currentState = .error (.other "default gw missing") := by
  decide
