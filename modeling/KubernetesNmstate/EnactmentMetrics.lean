/-
# Metrics of the enactments

`controllers/metrics/nodenetworkconfigurationenactment_status_controller.go`: the gauge that
shows, for every node, how many of its enactments are in each condition.

Every report sets the series of all condition types of the nodes it finds, and deletes those of
the nodes that were in the report before and are gone.  After any reports the gauge is that of
the last listing (`enactment_series_exact`).
-/
import Mathlib.Data.List.Induction
import KubernetesNmstate.EnactmentConditions
import KubernetesNmstate.Gauges
import KubernetesNmstate.Counting

/-! ## The reconciler -/

/-- `activeConditionType`: the type of the first condition that is True. -/
def activeConditionType (conditions : ConditionList) : Option ConditionType :=
  (conditions.find? fun c => c.status = .isTrue).map Condition.type

/-- `NodeNetworkConfigurationEnactmentStatusReconciler` with the gauge it writes,
`monitoring.EnactmentStatus`. -/
structure EnactmentStatusReconciler where
  series : Series (NodeName × ConditionType) := fun _ => none
  oldNodes : List NodeName := []

/-- The label sets of some nodes: every node with every condition type. -/
def statusLabels (nodes : List NodeName) : List (NodeName × ConditionType) :=
  nodes.flatMap fun nodeName => enactmentConditionTypes.map (Prod.mk nodeName)

/-- The counts and the nodes `reportStatistics` collects; an enactment without a node label reads
as one with an empty label, and is left out. -/
def collect (found : Counter (NodeName × ConditionType) × List NodeName) (nnce : Enactment) :
    Counter (NodeName × ConditionType) × List NodeName :=
  if nnce.node = "" then found
  else
    let newNodes := if nnce.node ∈ found.2 then found.2 else found.2 ++ [nnce.node]
    match activeConditionType nnce.status.conditions with
    | none => (found.1, newNodes)
    | some status => (found.1.increment (nnce.node, status), newNodes)

/-- `reportStatistics` on the listed enactments. -/
def EnactmentStatusReconciler.reportStatistics (r : EnactmentStatusReconciler)
    (nnceList : List Enactment) : EnactmentStatusReconciler :=
  let (counts, newNodes) := nnceList.foldl collect ({}, [])
  let goneNodes := r.oldNodes.filter fun oldNode => oldNode ∉ newNodes
  { series :=
      (r.series.setAll (statusLabels newNodes) counts.count).deleteAll (statusLabels goneNodes)
    oldNodes := newNodes }

/-- The reconciler after a sequence of reports. -/
def reportAll (lists : List (List Enactment)) : EnactmentStatusReconciler :=
  lists.foldl EnactmentStatusReconciler.reportStatistics {}

/-! ## What a report collects -/

/-- The node labels of the listed enactments. -/
def nodeLabels (nnceList : List Enactment) : List NodeName :=
  (nnceList.map Enactment.node).filter fun nodeName => nodeName ≠ ""

/-- The enactments of a node whose active condition is of a type. -/
def isActive (nodeName : NodeName) (t : ConditionType) (nnce : Enactment) : Bool :=
  nnce.node = nodeName ∧ activeConditionType nnce.status.conditions = some t

theorem mem_statusLabels {nodes : List NodeName} {nodeName : NodeName} {t : ConditionType} :
    (nodeName, t) ∈ statusLabels nodes ↔ nodeName ∈ nodes ∧ t ∈ enactmentConditionTypes := by
  simp only [statusLabels, List.mem_flatMap, List.mem_map, Prod.mk.injEq]
  constructor
  · rintro ⟨n, hn, t', ht', rfl, rfl⟩
    exact ⟨hn, ht'⟩
  · rintro ⟨hn, ht⟩
    exact ⟨nodeName, hn, t, ht, rfl, rfl⟩

theorem mem_collect {found : Counter (NodeName × ConditionType) × List NodeName}
    {nnce : Enactment} {nodeName : NodeName} :
    nodeName ∈ (collect found nnce).2
      ↔ nodeName ∈ found.2 ∨ nodeName = nnce.node ∧ nodeName ≠ "" := by
  unfold collect
  by_cases hempty : nnce.node = ""
  · rw [if_pos hempty, hempty]
    exact ⟨Or.inl, fun h => h.elim id fun h => absurd h.1 h.2⟩
  · have hlabel : nodeName = nnce.node ∧ nodeName ≠ "" ↔ nodeName = nnce.node :=
      ⟨And.left, fun h => ⟨h, h ▸ hempty⟩⟩
    rw [if_neg hempty, hlabel]
    have hnew : nodeName ∈ (if nnce.node ∈ found.2 then found.2 else found.2 ++ [nnce.node]) ↔
        nodeName ∈ found.2 ∨ nodeName = nnce.node := by
      by_cases hold : nnce.node ∈ found.2
      · rw [if_pos hold]
        exact ⟨Or.inl, fun h => h.elim id fun h => h ▸ hold⟩
      · simp [hold]
    cases activeConditionType nnce.status.conditions <;> exact hnew

theorem count_collect {found : Counter (NodeName × ConditionType) × List NodeName}
    {nnce : Enactment} {nodeName : NodeName} (hne : nodeName ≠ "") (t : ConditionType) :
    (collect found nnce).1.count (nodeName, t) =
      found.1.count (nodeName, t) + if isActive nodeName t nnce = true then 1 else 0 := by
  unfold collect isActive
  by_cases hempty : nnce.node = ""
  · have hother : nnce.node ≠ nodeName := fun h => hne (h ▸ hempty)
    rw [if_pos hempty]
    simp [hother]
  · rw [if_neg hempty]
    cases hactive : activeConditionType nnce.status.conditions with
    | none => simp
    | some status =>
      rw [Counter.count_increment]
      simp only [Prod.mk.injEq, Option.some.injEq, decide_eq_true_eq]
      simp only [eq_comm]

/-- The nodes of a report are the node labels of the listing. -/
theorem mem_collected (nnceList : List Enactment)
    (found : Counter (NodeName × ConditionType) × List NodeName) (nodeName : NodeName) :
    nodeName ∈ (nnceList.foldl collect found).2 ↔
      nodeName ∈ found.2 ∨ nodeName ∈ nodeLabels nnceList := by
  induction nnceList generalizing found with
  | nil => simp [nodeLabels]
  | cons nnce rest ih =>
    rw [List.foldl_cons, ih, mem_collect, or_assoc]
    simp only [nodeLabels, List.mem_filter, List.map_cons, List.mem_cons, decide_eq_true_eq,
      or_and_right]

/-- The counts of a report are those of the active conditions. -/
theorem count_collected (nnceList : List Enactment)
    (found : Counter (NodeName × ConditionType) × List NodeName) {nodeName : NodeName}
    (hne : nodeName ≠ "") (t : ConditionType) :
    (nnceList.foldl collect found).1.count (nodeName, t) =
      found.1.count (nodeName, t) + nnceList.countP (isActive nodeName t) := by
  induction nnceList generalizing found with
  | nil => simp
  | cons nnce rest ih =>
    rw [List.foldl_cons, ih, count_collect hne, List.countP_cons]
    omega

/-! ## The gauge -/

/-- Every series is of a node of the report before and of an enactment condition type. -/
def EnactmentStatusReconciler.Known (r : EnactmentStatusReconciler) : Prop :=
  ∀ nodeName t, ¬ (nodeName ∈ r.oldNodes ∧ t ∈ enactmentConditionTypes) →
    r.series (nodeName, t) = none

theorem mem_oldNodes_reportStatistics {r : EnactmentStatusReconciler} {nnceList : List Enactment}
    {nodeName : NodeName} :
    nodeName ∈ (r.reportStatistics nnceList).oldNodes ↔ nodeName ∈ nodeLabels nnceList := by
  show nodeName ∈ (nnceList.foldl collect ({}, [])).2 ↔ _
  rw [mem_collected]
  simp

/-- **One report**: the series are those of the listing and no others. -/
theorem series_reportStatistics {r : EnactmentStatusReconciler} (h : r.Known)
    (nnceList : List Enactment) (nodeName : NodeName) (t : ConditionType) :
    (r.reportStatistics nnceList).series (nodeName, t) =
      if nodeName ∈ nodeLabels nnceList ∧ t ∈ enactmentConditionTypes then
        some (nnceList.countP (isActive nodeName t))
      else none := by
  have hnodes : nodeName ∈ (nnceList.foldl collect ({}, [])).2 ↔ nodeName ∈ nodeLabels nnceList :=
    mem_oldNodes_reportStatistics (r := r)
  simp only [EnactmentStatusReconciler.reportStatistics, Series.deleteAll_apply,
    Series.setAll_apply, mem_statusLabels, List.mem_filter, decide_eq_true_eq, hnodes]
  by_cases hnode : nodeName ∈ nodeLabels nnceList
  · have hne : nodeName ≠ "" := by simpa using (List.mem_filter.mp hnode).2
    have hcount := count_collected nnceList ({}, []) hne t
    by_cases ht : t ∈ enactmentConditionTypes
    · simp [hnode, ht, hcount]
    · simp [ht, h nodeName t fun hold => ht hold.2]
  · by_cases hold : nodeName ∈ r.oldNodes ∧ t ∈ enactmentConditionTypes
    · simp [hnode, hold]
    · simp [hnode, hold, h nodeName t hold]

theorem known_reportStatistics {r : EnactmentStatusReconciler} (h : r.Known)
    (nnceList : List Enactment) : (r.reportStatistics nnceList).Known := by
  intro nodeName t hnot
  rw [mem_oldNodes_reportStatistics] at hnot
  rw [series_reportStatistics h, if_neg hnot]

theorem known_reportAll (lists : List (List Enactment)) : (reportAll lists).Known := by
  induction lists using List.reverseRecOn with
  | nil => exact fun _ _ _ => rfl
  | append_singleton lists nnceList ih =>
    rw [reportAll, List.foldl_append, ← reportAll, List.foldl_cons, List.foldl_nil]
    exact known_reportStatistics ih nnceList

/-- The enactments of a node that have a True condition. -/
def hasActive (nodeName : NodeName) (nnce : Enactment) : Bool :=
  nnce.node = nodeName ∧ ∃ c ∈ nnce.status.conditions, c.status = .isTrue

/-- With enactment conditions only, every enactment with a True condition is counted under one
type. -/
theorem sum_isActive {nnceList : List Enactment}
    (htypes : ∀ e ∈ nnceList, ∀ c ∈ e.status.conditions, c.type ∈ enactmentConditionTypes)
    (nodeName : NodeName) :
    (enactmentConditionTypes.map fun t => nnceList.countP (isActive nodeName t)).sum =
      nnceList.countP (hasActive nodeName) := by
  have hclass : ∀ t, nnceList.countP (isActive nodeName t) = nnceList.countP fun e =>
      (if e.node = nodeName then activeConditionType e.status.conditions else none) = some t := by
    intro t
    refine List.countP_congr fun e _ => ?_
    by_cases hnode : e.node = nodeName <;> simp [isActive, hnode]
  simp only [hclass]
  rw [List.sum_countP_classes _ (by decide)]
  refine List.countP_congr fun e he => ?_
  by_cases hnode : e.node = nodeName
  · simp only [hnode, if_true, hasActive, activeConditionType, true_and]
    cases hfind : e.status.conditions.find? (fun c => c.status = .isTrue) with
    | none => simpa using hfind
    | some c =>
      have hmem := List.mem_of_find?_eq_some hfind
      have htrue := List.find?_some hfind
      simp only [Option.map_some, Option.any_some, htypes e he c hmem, decide_true, true_iff,
        decide_eq_true_eq]
      exact ⟨c, hmem, of_decide_eq_true htrue⟩
  · simp [hnode, hasActive]

/-- **The gauge is the last listing.**  After any reports, the series are those of the node labels
of the latest listing with the five condition types, each with the number of enactments of
the node whose active condition it is, and the values of a node sum up to the number of its
enactments that have a True condition. -/
theorem enactment_series_exact (history : List (List Enactment)) (latest : List Enactment)
    (htypes : ∀ e ∈ latest, ∀ c ∈ e.status.conditions, c.type ∈ enactmentConditionTypes) :
    (∀ nodeName t, (reportAll (history ++ [latest])).series (nodeName, t) =
      if nodeName ∈ nodeLabels latest ∧ t ∈ enactmentConditionTypes then
        some (latest.countP fun e => e.node = nodeName ∧
          activeConditionType e.status.conditions = some t)
      else none) ∧
    ∀ nodeName ∈ nodeLabels latest,
      (enactmentConditionTypes.map fun t =>
        ((reportAll (history ++ [latest])).series (nodeName, t)).getD 0).sum =
      latest.countP fun e => e.node = nodeName ∧ ∃ c ∈ e.status.conditions, c.status = .isTrue := by
  have hlatest : reportAll (history ++ [latest]) = (reportAll history).reportStatistics latest := by
    rw [reportAll, List.foldl_append, ← reportAll, List.foldl_cons, List.foldl_nil]
  rw [hlatest]
  have hseries := series_reportStatistics (known_reportAll history) latest
  refine ⟨hseries, fun nodeName hnode => ?_⟩
  have hvalues : (enactmentConditionTypes.map fun t =>
      (((reportAll history).reportStatistics latest).series (nodeName, t)).getD 0) =
      enactmentConditionTypes.map fun t => latest.countP (isActive nodeName t) := by
    refine List.map_congr_left fun t ht => ?_
    rw [hseries, if_pos ⟨hnode, ht⟩, Option.getD_some]
  rw [hvalues]
  exact sum_isActive htypes nodeName

/-- Two reports; the node of the first is gone in the second. -/
theorem enactment_series_exact_two :
    (reportAll [[⟨"node01", newEnactmentStatus 0⟩],
      [⟨"node02", ⟨"", [], 1, setSuccess 5 [] "", [], []⟩⟩]]).series ("node02", .available)
        = some 1 ∧
    (reportAll [[⟨"node01", newEnactmentStatus 0⟩],
      [⟨"node02", ⟨"", [], 1, setSuccess 5 [] "", [], []⟩⟩]]).series ("node01", .available)
        = none := by
  have h := (enactment_series_exact [[⟨"node01", newEnactmentStatus 0⟩]]
    [⟨"node02", ⟨"", [], 1, setSuccess 5 [] "", [], []⟩⟩] (by decide)).1
  exact ⟨h "node02" .available, h "node01" .available⟩
