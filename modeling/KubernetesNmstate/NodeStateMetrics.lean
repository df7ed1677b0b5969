/-
# Metrics of the node network states

`controllers/metrics/nodenetworkstate_controller.go`: the gauges that show, for every node, how
many interfaces of each type and how many routes of each kind its last reported network state
has.

The two gauges are kept in the same way, so both are `TrackedGauge`s.  The series exported after
any events are those of the last states that could be read (`node_state_series_exact`).
-/
import Mathlib.Data.List.Induction
import KubernetesNmstate.NetworkState

/-! ## The reconciler -/

/-- `NodeNetworkStateReconciler` with the gauges it writes, `monitoring.NetworkInterfaces` and
`monitoring.NetworkRoutes`. -/
structure NodeNetworkStateReconciler where
  interfaces : TrackedGauge NodeName String := {}
  routes : TrackedGauge NodeName RouteKey := {}

namespace NodeNetworkStateReconciler

/-- `updateNodeInterfaceMetrics`. -/
def updateNodeInterfaceMetrics (r : NodeNetworkStateReconciler) (nodeName : NodeName)
    (counts : Counter String) : NodeNetworkStateReconciler :=
  { r with interfaces := r.interfaces.update nodeName counts }

/-- `updateNodeRouteMetrics`. -/
def updateNodeRouteMetrics (r : NodeNetworkStateReconciler) (nodeName : NodeName)
    (counts : Counter RouteKey) : NodeNetworkStateReconciler :=
  { r with routes := r.routes.update nodeName counts }

/-- `deleteNodeMetrics`. -/
def deleteNodeMetrics (r : NodeNetworkStateReconciler) (nodeName : NodeName) :
    NodeNetworkStateReconciler where
  interfaces := r.interfaces.forget nodeName
  routes := r.routes.forget nodeName

/-- `Reconcile` for one node, with what the read of its NodeNetworkState returned: the stored
current state or an error. -/
def reconcile (yaml : Yaml) (r : NodeNetworkStateReconciler) (nodeName : NodeName)
    (got : Except Err State) : NodeNetworkStateReconciler × Option Err :=
  match got with
  | .error .notFound => (r.deleteNodeMetrics nodeName, none)
  | .error err => (r, some err)
  | .ok currentState =>
    match (yaml.unmarshal currentState).map countInterfacesByType with
    | .error err => (r, some err)
    | .ok counts =>
      let r := r.updateNodeInterfaceMetrics nodeName counts
      match (yaml.unmarshal currentState).map countRoutes with
      | .error err => (r, some err)
      | .ok routeCounts => (r.updateNodeRouteMetrics nodeName routeCounts, none)

end NodeNetworkStateReconciler

/-! ## Events -/

/-- A reconcile of a node and what its read returned. -/
abbrev NodeStateEvent : Type := NodeName × Except Err State

/-- The reconciler after a sequence of events. -/
def reconcileAll (yaml : Yaml) (events : List NodeStateEvent) : NodeNetworkStateReconciler :=
  events.foldl (fun r event => (r.reconcile yaml event.1 event.2).1) {}

/-- The last state of every node that was decoded and has not been deleted since. -/
def lastParsed (yaml : Yaml) (events : List NodeStateEvent) : NodeName → Option RootState :=
  events.foldl (fun last event =>
    match event.2 with
    | .error .notFound => Function.update last event.1 none
    | .error _ => last
    | .ok currentState =>
      match yaml.unmarshal currentState with
      | .error _ => last
      | .ok state => Function.update last event.1 (some state)) fun _ => none

/-- Both gauges show the counts of the states `last`. -/
structure Shows (r : NodeNetworkStateReconciler) (last : NodeName → Option RootState) : Prop where
  interfaces : r.interfaces.Exports (Option.map countInterfacesByType ∘ last)
  routes : r.routes.Exports (Option.map countRoutes ∘ last)

/-- A node whose state was decoded is counted anew, in both gauges. -/
theorem Shows.update {r : NodeNetworkStateReconciler} {last : NodeName → Option RootState}
    (h : Shows r last) (node : NodeName) (state : RootState) :
    Shows ((r.updateNodeInterfaceMetrics node (countInterfacesByType state)).updateNodeRouteMetrics
      node (countRoutes state)) (Function.update last node (some state)) := by
  constructor
  · rw [Function.comp_update]
    exact h.interfaces.update node _
  · rw [Function.comp_update]
    exact h.routes.update node _

theorem Shows.delete {r : NodeNetworkStateReconciler} {last : NodeName → Option RootState}
    (h : Shows r last) (node : NodeName) :
    Shows (r.deleteNodeMetrics node) (Function.update last node none) := by
  constructor
  · rw [Function.comp_update]
    exact h.interfaces.forget node
  · rw [Function.comp_update]
    exact h.routes.forget node

/-- **After any events** the gauges show the last states that were decoded. -/
theorem shows_reconcileAll (yaml : Yaml) (events : List NodeStateEvent) :
    Shows (reconcileAll yaml events) (lastParsed yaml events) := by
  induction events using List.reverseRecOn with
  | nil => exact ⟨TrackedGauge.exports_initial, TrackedGauge.exports_initial⟩
  | append_singleton events event ih =>
    obtain ⟨node, got⟩ := event
    rw [reconcileAll, lastParsed, List.foldl_append, List.foldl_append, ← reconcileAll,
      ← lastParsed, List.foldl_cons, List.foldl_nil, List.foldl_cons, List.foldl_nil]
    rcases got with err | currentState
    · cases err with
      | notFound => exact ih.delete node
      | _ => exact ih
    · dsimp only [NodeNetworkStateReconciler.reconcile]
      cases yaml.unmarshal currentState with
      | error err => exact ih
      | ok state => exact ih.update node state

/-- A reconcile of one node leaves the series of the others alone. -/
theorem series_reconcile_of_ne (yaml : Yaml) (r : NodeNetworkStateReconciler)
    {node other : NodeName} (h : other ≠ node) (got : Except Err State) :
    (∀ type, (r.reconcile yaml node got).1.interfaces.series (other, type) =
      r.interfaces.series (other, type)) ∧
    ∀ key, (r.reconcile yaml node got).1.routes.series (other, key) =
      r.routes.series (other, key) := by
  rcases got with err | currentState
  · cases err with
    | notFound => exact ⟨fun type => TrackedGauge.series_forget_of_ne _ h type,
        fun key => TrackedGauge.series_forget_of_ne _ h key⟩
    | _ => exact ⟨fun _ => rfl, fun _ => rfl⟩
  · dsimp only [NodeNetworkStateReconciler.reconcile]
    cases yaml.unmarshal currentState with
    | error err => exact ⟨fun _ => rfl, fun _ => rfl⟩
    | ok state => exact ⟨fun type => TrackedGauge.series_update_of_ne _ h _ type,
        fun key => TrackedGauge.series_update_of_ne _ h _ key⟩

/-- **No stale and no missing series.**  After any events, over any nodes, the gauges have for a
node the types and route keys of its last decoded state that was not deleted since, each with
the number of its interfaces or running routes, and no other series; a further event changes
the series of its own node only. -/
theorem node_state_series_exact (yaml : Yaml) (events : List NodeStateEvent) :
    (∀ node type, (reconcileAll yaml events).interfaces.series (node, type) =
      (lastParsed yaml events node).bind fun state =>
        if type ≠ "" ∧ ∃ iface ∈ state.interfaces, iface.type = type then
          some (state.interfaces.countP fun iface => iface.type = type)
        else none) ∧
    (∀ node key, (reconcileAll yaml events).routes.series (node, key) =
      (lastParsed yaml events node).bind fun state => state.routes.bind fun routes =>
        if ∃ route ∈ routes.running, routeKey routes.config route = key then
          some (routes.running.countP fun route => routeKey routes.config route = key)
        else none) ∧
    ∀ node got other, other ≠ node →
      (∀ type,
        ((reconcileAll yaml events).reconcile yaml node got).1.interfaces.series (other, type) =
          (reconcileAll yaml events).interfaces.series (other, type)) ∧
      ∀ key, ((reconcileAll yaml events).reconcile yaml node got).1.routes.series (other, key) =
        (reconcileAll yaml events).routes.series (other, key) := by
  have hshows := shows_reconcileAll yaml events
  refine ⟨fun node type => ?_, fun node key => ?_,
    fun node got other hne => series_reconcile_of_ne yaml _ hne got⟩
  · rw [hshows.interfaces.series, Function.comp_apply, Option.bind_map]
    congr 1
    funext state
    exact get_countInterfacesByType state type
  · rw [hshows.routes.series, Function.comp_apply, Option.bind_map]
    congr 1
    funext state
    exact get_countRoutes state key
