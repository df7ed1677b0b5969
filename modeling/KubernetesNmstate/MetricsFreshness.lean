/-
# Metrics that keep up with the cluster

The four controllers of `controllers/metrics/` look at few of the events they watch.  The status
gauges are reported anew when the active condition of an object changes, the applied features when
the features of an enactment change, the gauges of a node when the text of its network state does.
Each of them is a `Reporter` or a `Controller`, and when it has nothing left to do its gauges are
those of the objects as they are now, however events, reports and failures came in between.

The series of an enactment depends on its node label too, which no filter looks at; updates that
change it are excluded.  The gauge of the policies has no series before its first report, so it is
looked at from a first request on.
-/
import KubernetesNmstate.EnactmentMetrics
import KubernetesNmstate.NodeStateMetrics
import KubernetesNmstate.PolicyConditions
import KubernetesNmstate.Watching

/-- `conditionChangePredicate`, for objects that are always of the expected kind. -/
def conditionChangePredicate {α : Type} (getConditions : α → ConditionList) : EventFilter α where
  create _ := true
  update objectOld objectNew :=
    activeConditionType (getConditions objectOld) ≠ activeConditionType (getConditions objectNew)
  delete _ := true

/-- An enactment under its object name. -/
abbrev ListedEnactment : Type := String × Enactment

/-- A controller that has just been set up. -/
def justSetUp {α κ τ : Type} {name : α → κ} [DecidableEq κ] (own : τ) :
    ControllerState (ObjectCache name) (ObjectEvent α) κ τ where
  cache := .empty
  pending := []
  queue := []
  work := none
  own := own

/-! ## A run -/

section

variable {α κ ι τ δ : Type} {name : α → κ} [DecidableEq κ]
  {c : Controller (ObjectCache name) (ObjectEvent α) κ ι τ δ}
  {ok : ObjectCache name → ObjectEvent α → Prop} {Inv : τ → Prop} {own : τ} {x y : α} {k : κ}

/-- An object was created and noticed. -/
def createdOne (c : Controller (ObjectCache name) (ObjectEvent α) κ ι τ δ) (own : τ) (x : α) :
    ControllerState (ObjectCache name) (ObjectEvent α) κ τ where
  cache := c.change .empty (.create x)
  pending := []
  queue := c.requests (c.change .empty (.create x)) (.create x)
  work := none
  own := own

/-- It was acted upon; then it was updated. -/
def updatedOne (c : Controller (ObjectCache name) (ObjectEvent α) κ ι τ δ) (own : τ) (x y : α)
    (k : κ) : ControllerState (ObjectCache name) (ObjectEvent α) κ τ where
  cache := c.change (c.change .empty (.create x)) (.update x y)
  pending := [.update x y]
  queue := (createdOne c own x).queue.filter fun k' => k' ≠ k
  work := none
  own := c.act own k [c.change .empty (.create x)]

/-- It has reached the cache only. -/
def arrivedOne (c : Controller (ObjectCache name) (ObjectEvent α) κ ι τ δ) (own : τ) (x : α) :
    ControllerState (ObjectCache name) (ObjectEvent α) κ τ :=
  { createdOne c own x with pending := [.create x], queue := [] }

theorem run_createdOne (hok : ok .empty (.create x)) :
    c.Run ok Inv (justSetUp own) (createdOne c own x) := by
  have hevent : c.Step ok Inv (justSetUp own) (arrivedOne c own x) := .event hok
  have hpending : (arrivedOne c own x).pending = [] ++ .create x :: [] := rfl
  have hhandle : c.Step ok Inv (arrivedOne c own x) (createdOne c own x) := .handle hpending
  exact (Relation.ReflTransGen.single hevent).tail hhandle

/-- It is being acted upon. -/
def workedOne (c : Controller (ObjectCache name) (ObjectEvent α) κ ι τ δ) (own : τ) (x : α) (k : κ)
    (seen : List (ObjectCache name)) :
    ControllerState (ObjectCache name) (ObjectEvent α) κ τ :=
  { createdOne c own x with
    queue := (createdOne c own x).queue.filter fun k' => k' ≠ k
    work := some (k, seen) }

theorem run_updatedOne (hk : k ∈ (createdOne c own x).queue)
    (hdone : c.succeeds k [c.change .empty (.create x)] = true)
    (hok : ok (c.change .empty (.create x)) (.update x y)) :
    c.Run ok Inv (createdOne c own x) (updatedOne c own x y k) := by
  have htake : c.Step ok Inv (createdOne c own x) (workedOne c own x k []) := .take hk rfl
  have hunread : (workedOne c own x k []).work = some (k, []) := rfl
  have hread : c.Step ok Inv (workedOne c own x k [])
      (workedOne c own x k [c.change .empty (.create x)]) := .read hunread
  have hcomplete : c.Step ok Inv (workedOne c own x k [c.change .empty (.create x)])
      { workedOne c own x k [] with
        own := c.act own k [c.change .empty (.create x)], work := none } := .complete rfl hdone
  exact (((Relation.ReflTransGen.single htake).tail hread).tail hcomplete).tail (.event hok)

/-- The update is all that is pending. -/
theorem passes_pending_updatedOne {filter : EventFilter α} (h : filter.update x y = false) :
    ∀ e ∈ (updatedOne c own x y k).pending, filter.passes e = false := by
  intro e he
  rw [List.mem_singleton.mp he]
  exact h

end

/-! ## Applied features -/

/-- `NodeNetworkConfigurationEnactmentReconciler` of the metrics with the gauge it writes,
`monitoring.AppliedFeatures`. -/
structure FeaturesReconciler where
  series : Series String := fun _ => none
  oldFeatures : List String := []

/-- The distinct features of the listed enactments. -/
def collectFeatures (nnceList : List ListedEnactment) : List String :=
  (nnceList.flatMap fun nnce => nnce.2.status.features).dedup

/-- `reportStatistics` of the features. -/
def FeaturesReconciler.reportStatistics (r : FeaturesReconciler)
    (nnceList : List ListedEnactment) : FeaturesReconciler :=
  let newFeatures := collectFeatures nnceList
  let gone := r.oldFeatures.filter fun f => f ∉ newFeatures
  { series := (r.series.setAll newFeatures fun _ => 1).deleteAll gone
    oldFeatures := newFeatures }

/-- `onCreationOrUpdateForThisEnactment`. -/
def onCreationOrUpdateForThisEnactment : EventFilter ListedEnactment where
  create _ := true
  update objectOld objectNew := objectOld.2.status.features ≠ objectNew.2.status.features
  delete _ := true

/-- The series of some enactments. -/
def featureSeries (nnceList : List ListedEnactment) : Series String := fun f =>
  if ∃ nnce ∈ nnceList, f ∈ nnce.2.status.features then some 1 else none

/-- The controller of the features. -/
def featuresReporter : Reporter ListedEnactment FeaturesReconciler (Series String) where
  filter := onCreationOrUpdateForThisEnactment
  report := FeaturesReconciler.reportStatistics
  shows := FeaturesReconciler.series
  statistic := featureSeries

/-- Every series is of a feature of the report before. -/
def FeaturesReconciler.Known (r : FeaturesReconciler) : Prop :=
  ∀ f, f ∉ r.oldFeatures → r.series f = none

theorem mem_collectFeatures {nnceList : List ListedEnactment} {f : String} :
    f ∈ collectFeatures nnceList ↔ ∃ nnce ∈ nnceList, f ∈ nnce.2.status.features := by
  rw [collectFeatures, List.mem_dedup, List.mem_flatMap]

theorem series_reportFeatures {r : FeaturesReconciler} (h : r.Known)
    (nnceList : List ListedEnactment) :
    (r.reportStatistics nnceList).series = featureSeries nnceList := by
  funext f
  show ((r.series.setAll (collectFeatures nnceList) fun _ => 1).deleteAll _) f = _
  rw [Series.deleteAll_apply, Series.setAll_apply, featureSeries]
  by_cases hnew : f ∈ collectFeatures nnceList
  · rw [if_pos hnew, if_pos (mem_collectFeatures.mp hnew)]
    refine if_neg fun hgone => ?_
    simpa [hnew] using (List.mem_filter.mp hgone).2
  · rw [if_neg hnew, if_neg fun h => hnew (mem_collectFeatures.mpr h)]
    by_cases hold : f ∈ r.oldFeatures
    · exact if_pos (List.mem_filter.mpr ⟨hold, decide_eq_true hnew⟩)
    · rw [h f hold, ite_self]

theorem known_reportFeatures {r : FeaturesReconciler} (h : r.Known)
    (nnceList : List ListedEnactment) : (r.reportStatistics nnceList).Known := by
  intro f hf
  rw [series_reportFeatures h]
  exact if_neg fun hnew => hf (mem_collectFeatures.mpr hnew)

/-- The series go by the features alone. -/
theorem featureSeries_perm {nnceList nnceList' : List ListedEnactment}
    (h : (nnceList.map fun nnce => nnce.2.status.features).Perm
      (nnceList'.map fun nnce => nnce.2.status.features)) :
    featureSeries nnceList = featureSeries nnceList' := by
  have hmem : ∀ (l : List ListedEnactment) (f : String),
      (∃ nnce ∈ l, f ∈ nnce.2.status.features) ↔
        ∃ features ∈ l.map (fun nnce => nnce.2.status.features), f ∈ features := by
    intro l f
    simp only [List.mem_map, exists_exists_and_eq_and]
  funext f
  simp only [featureSeries, hmem, h.mem_iff]

theorem featuresReporter_sound :
    featuresReporter.Sound (fun nnce => nnce.2.status.features) (fun _ _ => True)
      FeaturesReconciler.Known where
  create _ := rfl
  delete _ := rfl
  update _ _ _ hsame := (not_not.mp (of_decide_eq_false hsame)).symm
  statistic _ _ h := featureSeries_perm h
  inv _ nnceList h := known_reportFeatures h nnceList
  shows _ nnceList h := series_reportFeatures h nnceList

/-- **The gauge of the features is up to date.**  After any run of the controller that leaves
nothing to do, exactly the features some enactment now has are shown as applied. -/
theorem applied_features_fresh
    {s : ControllerState (ObjectCache (Prod.fst : ListedEnactment → String))
      (ObjectEvent ListedEnactment) String FeaturesReconciler}
    (hrun : (featuresReporter.controller Prod.fst).Run (Reporter.Happens fun _ _ => True)
      FeaturesReconciler.Known (justSetUp {}) s)
    (hqueue : s.queue = [])
    (hpending : ∀ e ∈ s.pending, onCreationOrUpdateForThisEnactment.passes e = false)
    (hwork : s.work = none) (f : String) :
    s.own.series f =
      if ∃ nnce ∈ s.cache.items, f ∈ nnce.2.status.features then some 1 else none := by
  have hempty : featuresReporter.shows {} = featuresReporter.statistic [] := by
    funext f
    show none = featureSeries [] f
    rw [featureSeries, if_neg]
    rintro ⟨nnce, hnnce, -⟩
    cases hnnce
  exact congrFun (featuresReporter_sound.fresh (fun _ _ => rfl) (Or.inr ⟨rfl, hempty⟩) hrun hqueue
    hpending hwork) f

/-- An enactment with a feature. -/
def featuredEnactment (now : Time) : ListedEnactment :=
  ("node01.web", ⟨"node01", { newEnactmentStatus now with features := ["mac-based-identifier"] }⟩)

/-- An update of its conditions is not looked at, and the feature stays shown. -/
theorem applied_feature_shown :
    (updatedOne (featuresReporter.controller Prod.fst) {} (featuredEnactment 0)
      (featuredEnactment 5) "node01.web").own.series "mac-based-identifier" = some 1 := by
  have hcreated : (featuresReporter.controller Prod.fst).Run (Reporter.Happens fun _ _ => True)
      FeaturesReconciler.Known (justSetUp {})
      (createdOne (featuresReporter.controller Prod.fst) {} (featuredEnactment 0)) :=
    run_createdOne ⟨rfl, fun _ _ _ => trivial⟩
  have hupdated := hcreated.trans (run_updatedOne (y := featuredEnactment 5) (k := "node01.web")
    List.mem_cons_self rfl ⟨⟨rfl, rfl⟩, fun _ _ _ => trivial⟩)
  exact applied_features_fresh hupdated rfl (passes_pending_updatedOne rfl) rfl
    "mac-based-identifier"

/-! ## Status of the enactments -/

/-- The series of some enactments: the node labels with all condition types. -/
def enactmentSeries (nnceList : List ListedEnactment) : Series (NodeName × ConditionType) :=
  fun label =>
    if label.1 ∈ nodeLabels (nnceList.map Prod.snd) ∧ label.2 ∈ enactmentConditionTypes then
      some ((nnceList.map Prod.snd).countP (isActive label.1 label.2))
    else none

/-- The controller of the enactment status. -/
def enactmentReporter :
    Reporter ListedEnactment EnactmentStatusReconciler (Series (NodeName × ConditionType)) where
  filter := conditionChangePredicate fun nnce => nnce.2.status.conditions
  report r nnceList := r.reportStatistics (nnceList.map Prod.snd)
  shows := EnactmentStatusReconciler.series
  statistic := enactmentSeries

/-- What the series of an enactment goes by. -/
def enactmentView (nnce : ListedEnactment) : NodeName × Option ConditionType :=
  (nnce.2.node, activeConditionType nnce.2.status.conditions)

theorem enactmentSeries_perm {nnceList nnceList' : List ListedEnactment}
    (h : (nnceList.map enactmentView).Perm (nnceList'.map enactmentView)) :
    enactmentSeries nnceList = enactmentSeries nnceList' := by
  have hnodes : ∀ l : List ListedEnactment, nodeLabels (l.map Prod.snd) =
      ((l.map enactmentView).map Prod.fst).filter fun nodeName => nodeName ≠ "" := by
    intro l
    rw [nodeLabels, List.map_map, List.map_map]
    rfl
  have hcount : ∀ (l : List ListedEnactment) (nodeName : NodeName) (t : ConditionType),
      (l.map Prod.snd).countP (isActive nodeName t) =
        (l.map enactmentView).countP fun view => view.1 = nodeName ∧ view.2 = some t := by
    intro l nodeName t
    rw [List.countP_map, List.countP_map]
    rfl
  funext label
  simp only [enactmentSeries, hnodes, hcount, h.countP_eq, ((h.map Prod.fst).filter _).mem_iff]

theorem enactmentReporter_sound :
    enactmentReporter.Sound enactmentView
      (fun objectOld objectNew => objectNew.2.node = objectOld.2.node)
      EnactmentStatusReconciler.Known where
  create _ := rfl
  delete _ := rfl
  update _ _ hnode hsame := Prod.ext hnode (not_not.mp (of_decide_eq_false hsame)).symm
  statistic _ _ h := enactmentSeries_perm h
  inv _ nnceList h := known_reportStatistics h (nnceList.map Prod.snd)
  shows _ nnceList h := by
    funext label
    exact series_reportStatistics h (nnceList.map Prod.snd) label.1 label.2

/-- **The gauge of the enactment status is up to date.**  After any run of the controller in which
no enactment changes its node label and that leaves nothing to do, the series are those of the nodes
that now have enactments, each with the number of them whose active condition it is. -/
theorem enactment_status_fresh
    {s : ControllerState (ObjectCache (Prod.fst : ListedEnactment → String))
      (ObjectEvent ListedEnactment) String EnactmentStatusReconciler}
    (hrun : (enactmentReporter.controller Prod.fst).Run
      (Reporter.Happens fun objectOld objectNew => objectNew.2.node = objectOld.2.node)
      EnactmentStatusReconciler.Known (justSetUp {}) s)
    (hqueue : s.queue = [])
    (hpending : ∀ e ∈ s.pending, enactmentReporter.filter.passes e = false)
    (hwork : s.work = none) (nodeName : NodeName) (t : ConditionType) :
    s.own.series (nodeName, t) =
      if nodeName ∈ nodeLabels (s.cache.items.map Prod.snd) ∧ t ∈ enactmentConditionTypes then
        some ((s.cache.items.map Prod.snd).countP (isActive nodeName t))
      else none := by
  have hempty : enactmentReporter.shows {} = enactmentReporter.statistic [] := by
    funext label
    show none = enactmentSeries [] label
    rw [enactmentSeries, if_neg]
    rintro ⟨hnode, -⟩
    cases hnode
  exact congrFun (enactmentReporter_sound.fresh (fun _ _ _ => rfl) (Or.inr ⟨rfl, hempty⟩) hrun
    hqueue hpending hwork) (nodeName, t)

/-- A pending enactment. -/
def pendingEnactment (now : Time) : ListedEnactment :=
  ("node01.web", ⟨"node01", { conditions := setPending now [] "" }⟩)

/-- An update of the times is not looked at, and the enactment stays counted. -/
theorem pending_enactment_counted :
    (updatedOne (enactmentReporter.controller Prod.fst) {} (pendingEnactment 3)
      (pendingEnactment 8) "node01.web").own.series ("node01", .pending) = some 1 := by
  have hcreated : (enactmentReporter.controller Prod.fst).Run
      (Reporter.Happens fun objectOld objectNew => objectNew.2.node = objectOld.2.node)
      EnactmentStatusReconciler.Known (justSetUp {})
      (createdOne (enactmentReporter.controller Prod.fst) {} (pendingEnactment 3)) := by
    refine run_createdOne ⟨rfl, fun _ _ h => ?_⟩
    cases h
  have hallowed : Reporter.Happens (fun objectOld objectNew => objectNew.2.node = objectOld.2.node)
      ((enactmentReporter.controller Prod.fst).change .empty (.create (pendingEnactment 3)))
      (.update (pendingEnactment 3) (pendingEnactment 8)) := by
    refine ⟨⟨rfl, rfl⟩, fun _ _ h => ?_⟩
    cases h
    rfl
  have hupdated := hcreated.trans (run_updatedOne (k := "node01.web") List.mem_cons_self rfl
    hallowed)
  exact enactment_status_fresh hupdated rfl (passes_pending_updatedOne rfl) rfl "node01" .pending

/-! ## Status of the policies -/

/-- The counts of `reportStatistics` of the policies: all policy condition types are there. -/
def policyCounts (nncpList : List Policy) : Counter ConditionType :=
  (nncpList.filterMap fun nncp => activeConditionType nncp.status.conditions).foldl
    Counter.increment { keys := policyConditionTypes, count := fun _ => 0 }

/-- `reportStatistics` of the policies, on the gauge `monitoring.PolicyStatus`; no series is ever
deleted. -/
def reportPolicyStatistics (series : Series ConditionType) (nncpList : List Policy) :
    Series ConditionType :=
  series.setAll (policyCounts nncpList).keys (policyCounts nncpList).count

/-- The number of policies whose active condition is of a type. -/
def policiesActive (nncpList : List Policy) (t : ConditionType) : ℕ :=
  nncpList.countP fun nncp => activeConditionType nncp.status.conditions = some t

/-- The controller of the policy status, as far as the policy condition types go. -/
def policyReporter : Reporter Policy (Series ConditionType) (Series ConditionType) where
  filter := conditionChangePredicate fun nncp => nncp.status.conditions
  report := reportPolicyStatistics
  shows series t := if t ∈ policyConditionTypes then series t else none
  statistic nncpList t :=
    if t ∈ policyConditionTypes then some (policiesActive nncpList t) else none

theorem count_policyCounts (nncpList : List Policy) (t : ConditionType) :
    (policyCounts nncpList).count t = policiesActive nncpList t := by
  rw [policyCounts, Counter.count_foldl, Nat.zero_add, List.count, List.countP_filterMap]
  refine List.countP_congr fun nncp _ => ?_
  cases activeConditionType nncp.status.conditions with
  | none => simp
  | some status => simp

theorem series_reportPolicyStatistics (series : Series ConditionType) (nncpList : List Policy)
    {t : ConditionType} (ht : t ∈ policyConditionTypes) :
    reportPolicyStatistics series nncpList t = some (policiesActive nncpList t) := by
  have hkey : t ∈ (policyCounts nncpList).keys :=
    (Counter.mem_keys_foldl _ _ t).mpr (Or.inl ht)
  rw [reportPolicyStatistics, Series.setAll_apply, if_pos hkey, count_policyCounts]

theorem policiesActive_perm {nncpList nncpList' : List Policy} {t : ConditionType}
    (h : (nncpList.map fun nncp => activeConditionType nncp.status.conditions).Perm
      (nncpList'.map fun nncp => activeConditionType nncp.status.conditions)) :
    policiesActive nncpList t = policiesActive nncpList' t := by
  have hcount : ∀ l : List Policy, policiesActive l t =
      (l.map fun nncp => activeConditionType nncp.status.conditions).countP fun active =>
        active = some t := by
    intro l
    rw [List.countP_map]
    rfl
  rw [hcount, hcount, h.countP_eq]

theorem policyReporter_sound :
    policyReporter.Sound (fun nncp => activeConditionType nncp.status.conditions)
      (fun _ _ => True) (fun _ => True) where
  create _ := rfl
  delete _ := rfl
  update _ _ _ hsame := (not_not.mp (of_decide_eq_false hsame)).symm
  statistic nncpList nncpList' h := by
    funext t
    show (if _ then some (policiesActive nncpList t) else none) = _
    rw [policiesActive_perm h]
    rfl
  inv _ _ _ := trivial
  shows series nncpList _ := by
    funext t
    show (if t ∈ policyConditionTypes then reportPolicyStatistics series nncpList t else none) =
      if t ∈ policyConditionTypes then some (policiesActive nncpList t) else none
    by_cases ht : t ∈ policyConditionTypes
    · rw [if_pos ht, if_pos ht, series_reportPolicyStatistics series nncpList ht]
    · rw [if_neg ht, if_neg ht]

/-- **The gauge of the policy status is up to date.**  From any state with a request waiting, after
any run of the controller that leaves nothing to do, the gauge has for each of the four policy
condition types the number of policies whose active condition it now is. -/
theorem policy_status_fresh
    {start s : ControllerState (ObjectCache Policy.name) (ObjectEvent Policy) String
      (Series ConditionType)}
    (hstart : start.queue ≠ [])
    (hrun : (policyReporter.controller Policy.name).Run (Reporter.Happens fun _ _ => True)
      (fun _ => True) start s)
    (hqueue : s.queue = [])
    (hpending : ∀ e ∈ s.pending, policyReporter.filter.passes e = false)
    (hwork : s.work = none) {t : ConditionType} (ht : t ∈ policyConditionTypes) :
    s.own t = some (s.cache.items.countP fun nncp =>
      activeConditionType nncp.status.conditions = some t) := by
  have hfresh := congrFun (policyReporter_sound.fresh trivial (Or.inl hstart) hrun hqueue
    hpending hwork) t
  have hshows : policyReporter.shows s.own t = s.own t := if_pos ht
  have hstatistic : policyReporter.statistic s.cache.items t =
      some (policiesActive s.cache.items t) := if_pos ht
  rw [← hshows, hfresh, hstatistic]
  rfl

/-- A policy that is Available. -/
def availablePolicy (now : Time) : Policy where
  name := "web"
  generation := 1
  resourceVersion := 7
  spec := {}
  status := { conditions := setPolicySuccess now [] "" }

/-- An update of the times is not looked at, and the policy stays counted. -/
theorem available_policy_counted :
    (updatedOne (policyReporter.controller Policy.name) (fun _ => none) (availablePolicy 3)
      (availablePolicy 8) "web").own .available = some 1 := by
  have hstart : (createdOne (policyReporter.controller Policy.name) (fun _ => none)
      (availablePolicy 3)).queue ≠ [] := List.cons_ne_nil _ _
  have hupdated : (policyReporter.controller Policy.name).Run (Reporter.Happens fun _ _ => True)
      (fun _ => True) (createdOne (policyReporter.controller Policy.name) (fun _ => none)
        (availablePolicy 3)) (updatedOne (policyReporter.controller Policy.name) (fun _ => none)
        (availablePolicy 3) (availablePolicy 8) "web") :=
    run_updatedOne List.mem_cons_self rfl ⟨⟨rfl, rfl⟩, fun _ _ _ => trivial⟩
  exact policy_status_fresh hstart hupdated rfl (passes_pending_updatedOne rfl) rfl (by decide)

/-! ## Network states of the nodes -/

/-- A NodeNetworkState: its name, which is that of the node, and its current state. -/
abbrev StoredState : Type := NodeName × State

/-- `onCreationOrUpdateForThisNNS`. -/
def onCreationOrUpdateForThisNNS : EventFilter StoredState where
  create _ := true
  update objectOld objectNew := objectOld.2 ≠ objectNew.2
  delete _ := true

/-- The read of `Reconcile`. -/
def getNodeState (l : ObjectCache (Prod.fst : StoredState → NodeName)) (nodeName : NodeName) :
    Except Err State :=
  match l.get nodeName with
  | none => .error .notFound
  | some nns => .ok nns.2

/-- The state of a node, if there is one and it can be decoded. -/
def decodedState (yaml : Yaml) (l : ObjectCache (Prod.fst : StoredState → NodeName))
    (nodeName : NodeName) : Option RootState :=
  (l.get nodeName).bind fun nns => (yaml.unmarshal nns.2).toOption

/-- The controller of the network states.  A `Reconcile` that returns an error is tried again. -/
def nodeStateController (yaml : Yaml) :
    Controller (ObjectCache (Prod.fst : StoredState → NodeName)) (ObjectEvent StoredState) NodeName
      NodeName NodeNetworkStateReconciler (Series String × Series RouteKey) where
  change l e := e.apply l
  requests _ e := if onCreationOrUpdateForThisNNS.passes e then [e.key Prod.fst] else []
  slot := id
  succeeds nodeName seen :=
    match seen with
    | [] => false
    | l :: _ =>
      (NodeNetworkStateReconciler.reconcile yaml {} nodeName (getNodeState l nodeName)).2.isNone
  act r nodeName seen :=
    match seen with
    | [] => r
    | l :: _ => (r.reconcile yaml nodeName (getNodeState l nodeName)).1
  shows r nodeName :=
    (fun type => r.interfaces.series (nodeName, type), fun key => r.routes.series (nodeName, key))
  digest l nodeName :=
    (fun type => (decodedState yaml l nodeName).bind fun state =>
      (countInterfacesByType state).get type,
     fun key => (decodedState yaml l nodeName).bind fun state => (countRoutes state).get key)

section

variable {yaml : Yaml} {l : ObjectCache (Prod.fst : StoredState → NodeName)} {nodeName : NodeName}

theorem asks_nodeState {e : ObjectEvent StoredState} :
    (nodeStateController yaml).Asks l e nodeName ↔
      onCreationOrUpdateForThisNNS.passes e = true ∧ e.key Prod.fst = nodeName := by
  show (∃ k ∈ (if onCreationOrUpdateForThisNNS.passes e then [e.key Prod.fst] else []),
    k = nodeName) ↔ _
  by_cases h : onCreationOrUpdateForThisNNS.passes e = true
  · simp [h, eq_comm]
  · simp [h]

/-- An event that changes the state of a node passes the filter. -/
theorem passes_of_get_ne {e : ObjectEvent StoredState} (hreports : e.Reports l)
    (hne : (e.apply l).get nodeName ≠ l.get nodeName) :
    onCreationOrUpdateForThisNNS.passes e = true ∧ e.key Prod.fst = nodeName := by
  have hkey : e.key Prod.fst = nodeName := by
    by_contra hkey
    exact hne (ObjectEvent.get_apply_of_ne l e fun h => hkey h.symm)
  refine ⟨?_, hkey⟩
  cases e with
  | create object => rfl
  | delete object => rfl
  | update objectOld objectNew =>
    subst hkey
    refine decide_eq_true fun hstate => hne ?_
    have hsame : objectNew = objectOld := Prod.ext hreports.2 hstate.symm
    show (ObjectEvent.apply l (.update objectOld objectNew)).get objectNew.1 = l.get objectNew.1
    rw [ObjectEvent.get_apply_update l objectOld objectNew, ObjectEvent.Reports.get_old hreports,
      hsame]

/-- A reconcile without an error shows the state it read, and that of the other nodes as before. -/
theorem Shows.reconcile {r : NodeNetworkStateReconciler} {last : NodeName → Option RootState}
    (h : Shows r last)
    (hdone : (NodeNetworkStateReconciler.reconcile yaml {} nodeName
      (getNodeState l nodeName)).2.isNone = true) :
    Shows (r.reconcile yaml nodeName (getNodeState l nodeName)).1
      (Function.update last nodeName (decodedState yaml l nodeName)) := by
  unfold getNodeState at hdone ⊢
  unfold decodedState
  cases hget : l.get nodeName with
  | none => exact h.delete nodeName
  | some nns =>
    rw [hget] at hdone
    dsimp only [NodeNetworkStateReconciler.reconcile, Option.bind_some] at hdone ⊢
    cases hdecode : yaml.unmarshal nns.2 with
    | error err =>
      rw [hdecode] at hdone
      cases hdone
    | ok state => exact h.update nodeName state

theorem nodeStateController_sound (yaml : Yaml) :
    (nodeStateController yaml).Sound (fun l e => e.Reports l) (fun r => ∃ last, Shows r last) where
  notices l e nodeName hreports hne := by
    refine asks_nodeState.mpr (passes_of_get_ne hreports fun hget => hne ?_)
    have hdecoded : decodedState yaml (e.apply l) nodeName = decodedState yaml l nodeName := by
      rw [decodedState, hget]
      rfl
    show (fun type => (decodedState yaml (e.apply l) nodeName).bind _,
      fun key => (decodedState yaml (e.apply l) nodeName).bind _) = _
    rw [hdecoded]
    rfl
  still_asks l e later nodeName _ hasks := Or.inl (asks_nodeState.mpr (asks_nodeState.mp hasks))
  inv_act r nodeName seen hinv hdone := by
    cases seen with
    | nil => cases hdone
    | cons l rest =>
      obtain ⟨last, hshows⟩ := hinv
      exact ⟨_, hshows.reconcile hdone⟩
  shows_slot r nodeName seen shown hinv hdone hagree := by
    cases seen with
    | nil => cases hdone
    | cons l rest =>
      obtain ⟨last, hshows⟩ := hinv
      have hafter := hshows.reconcile hdone
      refine Eq.trans ?_ (hagree l List.mem_cons_self)
      refine Prod.ext (funext fun type => ?_) (funext fun key => ?_)
      · refine (hafter.interfaces.series nodeName type).trans ?_
        rw [Function.comp_apply, Function.update_self, Option.bind_map]
        rfl
      · refine (hafter.routes.series nodeName key).trans ?_
        rw [Function.comp_apply, Function.update_self, Option.bind_map]
        rfl
  shows_other r nodeName seen other _ hdone hne := by
    cases seen with
    | nil => rfl
    | cons l rest =>
      obtain ⟨hinterfaces, hroutes⟩ := series_reconcile_of_ne yaml r hne (getNodeState l nodeName)
      exact Prod.ext (funext hinterfaces) (funext hroutes)

/-- **The gauges of a node are up to date.**  After any run of the controller, once nothing is to be
done for a node, its series are those of its network state as it is now, whatever states came in
between and whichever of them could not be decoded; a node without a state has none. -/
theorem node_state_fresh
    {s : ControllerState (ObjectCache (Prod.fst : StoredState → NodeName))
      (ObjectEvent StoredState) NodeName NodeNetworkStateReconciler}
    (hrun : (nodeStateController yaml).Run (fun l e => e.Reports l)
      (fun r => ∃ last, Shows r last) (justSetUp {}) s)
    (hawaited : ¬ (nodeStateController yaml).Awaited s nodeName)
    (hwork : ∀ k seen, s.work = some (k, seen) → k ≠ nodeName) :
    (∀ type, s.own.interfaces.series (nodeName, type) =
      (decodedState yaml s.cache nodeName).bind fun state =>
        (countInterfacesByType state).get type) ∧
    ∀ key, s.own.routes.series (nodeName, key) =
      (decodedState yaml s.cache nodeName).bind fun state => (countRoutes state).get key := by
  have hempty : Shows {} fun _ => none :=
    ⟨TrackedGauge.exports_initial, TrackedGauge.exports_initial⟩
  have hcovered : ∀ i, (nodeStateController yaml).Covered (justSetUp {}) i := by
    intro i
    refine Or.inr (Or.inr ⟨fun k seen h => ?_, rfl⟩)
    cases h
  have hshows := hrun.shows (nodeStateController_sound yaml) ⟨_, hempty⟩ hcovered hawaited hwork
  exact ⟨fun type => congrFun (congrArg Prod.fst hshows) type,
    fun key => congrFun (congrArg Prod.snd hshows) key⟩

end

/-- A network state with one interface, as text. -/
def ethernetText : State := "interfaces:\n- name: eth0\n  type: ethernet\n"

/-- The same state, decoded. -/
def ethernetRoot : RootState where
  interfaces := [⟨"eth0", "ethernet", [("name", .str "eth0"), ("type", .str "ethernet")]⟩]

/-- A codec that reads this one state. -/
def ethernetYaml : Yaml where
  unmarshal text :=
    if text = ethernetText then .ok ethernetRoot else .error (.other "another state")
  marshal _ := .error (.other "read only")
  marshal_ne h := by cases h

/-- An update that leaves the text of the state as it is. -/
theorem ethernet_interface_counted :
    (updatedOne (nodeStateController ethernetYaml) {} ("node01", ethernetText)
      ("node01", ethernetText) "node01").own.interfaces.series ("node01", "ethernet") =
      some 1 := by
  have hcreated : (nodeStateController ethernetYaml).Run (fun l e => e.Reports l)
      (fun r => ∃ last, Shows r last) (justSetUp {})
      (createdOne (nodeStateController ethernetYaml) {} ("node01", ethernetText)) :=
    run_createdOne rfl
  have hupdated := hcreated.trans (run_updatedOne (y := ("node01", ethernetText)) (k := "node01")
    List.mem_cons_self rfl ⟨rfl, rfl⟩)
  refine (node_state_fresh hupdated ?_ fun _ _ h => ?_).1 "ethernet"
  · rintro (⟨k, hk, -⟩ | ⟨e, he, hasks⟩)
    · cases hk
    · rw [List.mem_singleton.mp he, asks_nodeState] at hasks
      cases hasks.1
  · cases h
