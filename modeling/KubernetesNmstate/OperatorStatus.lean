/-
# What the operator reports

Whatever the API server answers and wherever the operator is stopped:

* it reports Available only after every manifest was applied and every workload that was found is
  rolled out (`available_only_if_rolled_out`);
* the status it leaves is one of four rows, and that of a failed reconcile says so
  (`operator_status_coherent`).

Both rest on `Reached`, which says where in a reconcile a status is written.
-/
import KubernetesNmstate.OperatorReconcile

/-! ## What was deployed -/

/-- The apply went through, or the kind was skipped. -/
def accepted : Except ApplyErr Unit → Bool
  | .ok () => true
  | .error .noMatch => true
  | .error (.failed _) => false

/-- The object was applied. -/
def AppliedIn (tr : List (Called OperatorApi)) (obj : Manifest) : Prop :=
  ∃ r : Except ApplyErr Unit, (⟨.applyManifest obj, r⟩ : Called OperatorApi) ∈ tr ∧
    accepted r = true

/-- The object is remembered, if it is a workload. -/
def Tracked.Has (t : Tracked) (obj : Manifest) : Prop :=
  match obj.kind with
  | .deployment => obj.key ∈ t.deployments
  | .daemonSet => obj.key ∈ t.daemonSets
  | .other _ => True

/-- What is remembered first is also remembered then. -/
structure Tracked.Within (t t' : Tracked) : Prop where
  deployments : ∀ key ∈ t.deployments, key ∈ t'.deployments
  daemonSets : ∀ key ∈ t.daemonSets, key ∈ t'.daemonSets

/-- The same, with the warning left alone. -/
structure Tracked.Grown (t t' : Tracked) : Prop extends t.Within t' where
  tlsProfileWarning : t'.tlsProfileWarning = t.tlsProfileWarning

/-- The named objects of a list were applied, and the workloads among them are remembered. -/
def Deployed (owned : Bool) (objs : List Manifest) (tr : List (Called OperatorApi))
    (t : Tracked) : Prop :=
  ∀ obj ∈ objs, obj.key.name ≠ "" → AppliedIn tr obj ∧ (owned = true → t.Has obj)

/-- The same for a directory, with what was rendered from it. -/
def DirDeployed (dir : ManifestDir) (tr : List (Called OperatorApi)) (t : Tracked) : Prop :=
  ∃ data objs, (⟨.renderDir dir data, .ok objs⟩ : Called OperatorApi) ∈ tr ∧ objs ≠ [] ∧
    Deployed dir.owned objs tr t

section

variable {W : Type} {env : Env OperatorApi W} {w w' : W} {tr tr' : List (Called OperatorApi)}
  {t t' t'' : Tracked} {obj : Manifest}

theorem AppliedIn.mono (h : AppliedIn tr obj) (htr : tr ⊆ tr') : AppliedIn tr' obj := by
  obtain ⟨r, hr, haccepted⟩ := h
  exact ⟨r, htr hr, haccepted⟩

theorem Tracked.Within.refl (t : Tracked) : t.Within t := ⟨fun _ h => h, fun _ h => h⟩

theorem Tracked.Within.trans (h : t.Within t') (h' : t'.Within t'') : t.Within t'' :=
  ⟨fun key hkey => h'.deployments key (h.deployments key hkey),
    fun key hkey => h'.daemonSets key (h.daemonSets key hkey)⟩

theorem Tracked.Has.mono (h : t.Has obj) (hwithin : t.Within t') : t'.Has obj := by
  unfold Has at h ⊢
  cases hkind : obj.kind with
  | deployment =>
    rw [hkind] at h
    exact hwithin.deployments _ h
  | daemonSet =>
    rw [hkind] at h
    exact hwithin.daemonSets _ h
  | other kind => trivial

theorem Tracked.Grown.refl (t : Tracked) : t.Grown t := ⟨.refl t, rfl⟩

theorem Tracked.Grown.trans (h : t.Grown t') (h' : t'.Grown t'') : t.Grown t'' :=
  ⟨h.toWithin.trans h'.toWithin, h'.tlsProfileWarning.trans h.tlsProfileWarning⟩

theorem Tracked.grown_track (t : Tracked) (obj : Manifest) : t.Grown (t.track obj) := by
  unfold track
  cases obj.kind with
  | deployment => exact ⟨⟨fun _ h => List.mem_append_left _ h, fun _ h => h⟩, rfl⟩
  | daemonSet => exact ⟨⟨fun _ h => h, fun _ h => List.mem_append_left _ h⟩, rfl⟩
  | other kind => exact .refl t

theorem Tracked.has_track (t : Tracked) (obj : Manifest) : (t.track obj).Has obj := by
  unfold track Has
  cases obj.kind with
  | deployment => exact List.mem_append_right _ (List.mem_singleton_self _)
  | daemonSet => exact List.mem_append_right _ (List.mem_singleton_self _)
  | other kind => trivial

theorem Deployed.mono {owned : Bool} {objs : List Manifest} (h : Deployed owned objs tr t)
    (htr : tr ⊆ tr') (hwithin : t.Within t') : Deployed owned objs tr' t' := by
  intro obj hobj hname
  obtain ⟨happlied, hhas⟩ := h obj hobj hname
  exact ⟨happlied.mono htr, fun howned => (hhas howned).mono hwithin⟩

theorem DirDeployed.mono {dir : ManifestDir} (h : DirDeployed dir tr t)
    (htr : tr ⊆ tr') (hwithin : t.Within t') : DirDeployed dir tr' t' := by
  obtain ⟨data, objs, hrender, hne, hdeployed⟩ := h
  exact ⟨data, objs, htr hrender, hne, hdeployed.mono htr hwithin⟩

/-! ### The loop over the objects -/

theorem exec_applyObject {r : Except Err Unit} (h : Exec env (applyObject obj) w tr r w')
    (hr : r = .ok ()) : AppliedIn tr obj := by
  obtain ⟨answer, w₁, tr', -, hrest, rfl⟩ := Exec.of_perform h
  rcases answer with (_ | err) | ⟨⟩
  · exact ⟨_, List.mem_cons_self, rfl⟩
  · obtain ⟨rfl, -, -⟩ := Exec.of_ret hrest
    cases hr
  · exact ⟨_, List.mem_cons_self, rfl⟩

theorem exec_ownObject {owned : Bool}
    (h : Exec env (ownObject owned obj t) w tr (.ok t') w') :
    t.Grown t' ∧ (owned = true → t'.Has obj) := by
  unfold ownObject at h
  split at h
  · obtain ⟨answer, w₁, tr', -, hrest, rfl⟩ := Exec.of_perform h
    rcases answer with err | ⟨⟩
    · exact absurd hrest Exec.not_ok_of_error
    · obtain ⟨hret, -, -⟩ := Exec.of_ret hrest
      cases hret
      exact ⟨t.grown_track obj, fun _ => t.has_track obj⟩
  · rename_i howned
    obtain ⟨hret, -, -⟩ := Exec.of_ret h
    cases hret
    exact ⟨.refl t, fun h => absurd h howned⟩

/-- The loop goes to its end only if every named object is applied. -/
theorem exec_applyEach {owned : Bool} {objs : List Manifest}
    (h : Exec env (applyEach owned objs t) w tr (.ok t') w') :
    t.Grown t' ∧ Deployed owned objs tr t' := by
  induction objs generalizing t w tr with
  | nil =>
    obtain ⟨hret, -, -⟩ := Exec.of_ret h
    cases hret
    refine ⟨.refl _, fun obj hobj => ?_⟩
    cases hobj
  | cons obj rest ih =>
    rw [applyEach] at h
    split at h
    · rename_i hname
      obtain ⟨hgrown, hrest⟩ := ih h
      refine ⟨hgrown, fun obj' hobj' hname' => ?_⟩
      rcases List.mem_cons.mp hobj' with rfl | hobj'
      · exact absurd hname hname'
      · exact hrest obj' hobj' hname'
    · obtain ⟨tr₁, r, w₁, tr₂, hown, hthen, rfl⟩ := Exec.of_bind h
      rcases r with err | t₁
      · exact absurd hthen Exec.not_ok_of_error
      obtain ⟨tr₃, r, w₂, tr₄, happly, hloop, rfl⟩ := Exec.of_bind hthen
      rcases r with err | ⟨⟩
      · exact absurd hloop Exec.not_ok_of_error
      obtain ⟨howned, hhas⟩ := exec_ownObject hown
      obtain ⟨hgrown, hrest⟩ := ih hloop
      refine ⟨howned.trans hgrown, fun obj' hobj' hname' => ?_⟩
      rcases List.mem_cons.mp hobj' with rfl | hobj'
      · refine ⟨(exec_applyObject happly rfl).mono fun c hc => ?_,
          fun howned => (hhas howned).mono hgrown.toWithin⟩
        exact List.mem_append_right _ (List.mem_append_left _ hc)
      · obtain ⟨happlied, hhas'⟩ := hrest obj' hobj' hname'
        refine ⟨happlied.mono fun c hc => ?_, hhas'⟩
        exact List.mem_append_right _ (List.mem_append_right _ hc)

theorem exec_renderAndApply {data : RenderData} {dir : ManifestDir}
    (h : Exec env (renderAndApply data dir t) w tr (.ok t') w') :
    t.Grown t' ∧ DirDeployed dir tr t' := by
  obtain ⟨answer, w₁, tr', -, hrest, rfl⟩ := Exec.of_perform h
  rcases answer with err | (_ | ⟨obj, objs⟩)
  · exact absurd hrest Exec.not_ok_of_error
  · exact absurd hrest Exec.not_ok_of_error
  · obtain ⟨hgrown, hdeployed⟩ := exec_applyEach hrest
    exact ⟨hgrown, data, obj :: objs, List.mem_cons_self, List.cons_ne_nil _ _,
      hdeployed.mono (List.subset_cons_self _ _) (.refl t')⟩

/-! ### The directories -/

theorem exec_applyRBAC (h : Exec env (applyRBAC t) w tr (.ok t') w') :
    t.Within t' ∧ DirDeployed .rbac tr t' := by
  obtain ⟨tr₁, r, w₁, tr₂, -, hrest, rfl⟩ := Exec.of_bind h
  rcases r with err | found
  · exact absurd hrest Exec.not_ok_of_error
  · obtain ⟨hgrown, hdir⟩ := exec_renderAndApply hrest
    exact ⟨hgrown.toWithin, hdir.mono (List.subset_append_right _ _) (.refl t')⟩

theorem exec_applyHandler {isOpenShift : Bool} {inst : NMStateInstance}
    (h : Exec env (applyHandler isOpenShift inst t) w tr (.ok t') w') :
    t.Within t' ∧ DirDeployed .handler tr t' := by
  obtain ⟨nodes, w₁, tr', -, hrest, rfl⟩ := Exec.of_perform h
  split at hrest
  · exact absurd hrest Exec.not_ok_of_error
  · dsimp only at hrest
    split at hrest
    · obtain ⟨tr₁, r, w₂, tr₂, -, hrender, rfl⟩ := Exec.of_bind hrest
      rcases r with err | ⟨spec, warning⟩
      · exact absurd hrender Exec.not_ok_of_error
      · obtain ⟨hgrown, hdir⟩ := exec_renderAndApply hrender
        refine ⟨⟨hgrown.deployments, hgrown.daemonSets⟩, hdir.mono (fun c hc => ?_) (.refl t')⟩
        exact List.mem_cons_of_mem _ (List.mem_append_right _ hc)
    · obtain ⟨hgrown, hdir⟩ := exec_renderAndApply hrest
      exact ⟨hgrown.toWithin, hdir.mono (List.subset_cons_self _ _) (.refl t')⟩

/-- A further step keeps what the steps before it deployed. -/
theorem exec_thenApply {context : String} {step : Tracked → OperatorProc (Except Err Tracked)}
    {before : OperatorProc (Except Err Tracked)}
    (h : Exec env (thenApply context step before) w tr (.ok t') w') :
    ∃ tr₁ t w₁ tr₂, Exec env before w tr₁ (.ok t) w₁ ∧ Exec env (step t) w₁ tr₂ (.ok t') w' ∧
      tr = tr₁ ++ tr₂ := by
  obtain ⟨tr₁, r, w₁, tr₂, hbefore, hrest, rfl⟩ := Exec.of_bind h
  rcases r with err | t
  · exact absurd hrest Exec.not_ok_of_error
  · obtain ⟨tr₃, r, w₂, tr₄, hstep, hend, rfl⟩ := Exec.of_bind hrest
    rcases r with err | t₁
    · exact absurd hend Exec.not_ok_of_error
    · obtain ⟨hret, rfl, rfl⟩ := Exec.of_ret hend
      cases hret
      exact ⟨tr₁, t, w₁, tr₃, hbefore, hstep, by rw [List.append_nil]⟩

/-- A step that deploys a directory, after steps that deployed others. -/
theorem deployed_thenApply {context : String} {dir : ManifestDir} {dirs : List ManifestDir}
    {step : Tracked → OperatorProc (Except Err Tracked)}
    {before : OperatorProc (Except Err Tracked)}
    (hstep : ∀ {t w tr t' w'}, Exec env (step t) w tr (.ok t') w' →
      t.Within t' ∧ DirDeployed dir tr t')
    (hbefore : ∀ {w tr t w'}, Exec env before w tr (.ok t) w' → ∀ d ∈ dirs, DirDeployed d tr t)
    {w : W} {tr : List (Called OperatorApi)} {t' : Tracked} {w' : W}
    (h : Exec env (thenApply context step before) w tr (.ok t') w') :
    ∀ d ∈ dir :: dirs, DirDeployed d tr t' := by
  obtain ⟨tr₁, t, w₁, tr₂, hfirst, hthen, rfl⟩ := exec_thenApply h
  obtain ⟨hwithin, hdir⟩ := hstep hthen
  intro d hd
  rcases List.mem_cons.mp hd with rfl | hd
  · exact hdir.mono (List.subset_append_right _ _) (.refl t')
  · exact (hbefore hfirst d hd).mono (List.subset_append_left _ _) hwithin

theorem exec_applyComponents {isOpenShift : Bool} {inst : NMStateInstance}
    (h : Exec env (applyComponents isOpenShift inst) w tr (.ok t) w') :
    ∀ dir ∈ [ManifestDir.handler, .netpol, .rbac, .namespace', .crds], DirDeployed dir tr t := by
  refine deployed_thenApply exec_applyHandler ?_ h
  refine deployed_thenApply (fun h => (exec_renderAndApply h).imp_left (·.toWithin)) ?_
  refine deployed_thenApply exec_applyRBAC ?_
  refine deployed_thenApply (fun h => (exec_renderAndApply h).imp_left (·.toWithin)) ?_
  refine deployed_thenApply (fun h => (exec_renderAndApply h).imp_left (·.toWithin)) ?_
  intro w tr t w' _ d hd
  cases hd

theorem exec_applyPlugin {isOpenShift : Bool} {pluginName : String}
    (h : Exec env (applyPlugin isOpenShift pluginName t) w tr (.ok t') w') :
    t.Grown t' ∧ (DirDeployed .uiPlugin tr t' ∨ isOpenShift = false ∨
      (⟨.uiPluginPathExists, false⟩ : Called OperatorApi) ∈ tr) := by
  obtain ⟨pathExists, w₁, tr', -, hrest, rfl⟩ := Exec.of_perform h
  split at hrest
  · obtain ⟨tr₁, r, w₂, tr₂, hrender, hthen, rfl⟩ := Exec.of_bind hrest
    rcases r with err | t₁
    · exact absurd hthen Exec.not_ok_of_error
    obtain ⟨tr₃, r, w₃, tr₄, -, hend, rfl⟩ := Exec.of_bind hthen
    rcases r with err | ⟨⟩
    · exact absurd hend Exec.not_ok_of_error
    obtain ⟨hret, -, -⟩ := Exec.of_ret hend
    cases hret
    obtain ⟨hgrown, hdir⟩ := exec_renderAndApply hrender
    refine ⟨hgrown, Or.inl (hdir.mono (fun c hc => ?_) (.refl _))⟩
    exact List.mem_cons_of_mem _ (List.mem_append_left _ hc)
  · rename_i hno
    obtain ⟨hret, -, rfl⟩ := Exec.of_ret hrest
    cases hret
    refine ⟨.refl _, Or.inr ?_⟩
    cases pathExists with
    | false => exact Or.inr List.mem_cons_self
    | true =>
      left
      rw [Bool.eq_false_iff]
      exact fun hopenshift => hno ⟨hopenshift, rfl⟩

/-- The manifests are applied only if every directory is; that of the plugin is left out where there
is none. -/
theorem exec_applyManifests {isOpenShift : Bool} {pluginName : String} {inst : NMStateInstance}
    (h : Exec env (applyManifests isOpenShift pluginName inst) w tr (.ok t) w')
    (dir : ManifestDir) :
    DirDeployed dir tr t ∨ dir = .uiPlugin ∧ (isOpenShift = false ∨
      (⟨.uiPluginPathExists, false⟩ : Called OperatorApi) ∈ tr) := by
  obtain ⟨tr₁, r, w₁, tr₂, hcomponents, hplugin, rfl⟩ := Exec.of_bind h
  rcases r with err | t₁
  · exact absurd hplugin Exec.not_ok_of_error
  obtain ⟨hgrown, hui⟩ := exec_applyPlugin hplugin
  have hdirs : ∀ d ∈ [ManifestDir.handler, .netpol, .rbac, .namespace', .crds],
      DirDeployed d (tr₁ ++ tr₂) t := fun d hd =>
    (exec_applyComponents hcomponents d hd).mono (List.subset_append_left _ _) hgrown.toWithin
  cases dir with
  | uiPlugin =>
    refine hui.imp (fun hdir => ?_) (fun hnone => ⟨rfl, hnone.imp_right fun hpath => ?_⟩)
    · exact hdir.mono (List.subset_append_right _ _) (.refl t)
    · exact List.mem_append_right _ hpath
  | crds | namespace' | rbac | netpol | handler => exact Or.inl (hdirs _ (by decide))

end

/-! ## What is reported -/

/-- The statuses and reasons of the Available, the Degraded and the Progressing condition. -/
def NMStateConditions.row (conditions : NMStateConditions) :
    List (Option (ConditionStatus × NMStateReason)) :=
  [.available, .degraded, .progressing].map fun t =>
    (conditions t).map fun c => (c.status, c.reason)

/-- The row of a failed reconcile. -/
def degradedRow : List (Option (ConditionStatus × NMStateReason)) :=
  [some (.isFalse, .internalError), some (.isTrue, .internalError), some (.isFalse, .internalError)]

/-- The row of a deployment that is progressing. -/
def deployingRow : List (Option (ConditionStatus × NMStateReason)) :=
  [some (.isFalse, .deploying), some (.isFalse, .deploying), some (.isTrue, .deploying)]

/-- The row of a deployment that is through. -/
def deployedRow : List (Option (ConditionStatus × NMStateReason)) :=
  [some (.isTrue, .successfullyDeployed), some (.isFalse, .successfullyDeployed),
    some (.isFalse, .successfullyDeployed)]

/-- The same with a TLS profile that is not fully honored. -/
def warnedRow : List (Option (ConditionStatus × NMStateReason)) :=
  [some (.isTrue, .successfullyDeployed), some (.isTrue, .tlsProfileNotFullyHonored),
    some (.isFalse, .successfullyDeployed)]

theorem row_setDegraded (now : Time) (conditions : NMStateConditions) (message : String) :
    (setDegraded now conditions message).row = degradedRow := rfl

theorem row_setDeployed (now : Time) (conditions : NMStateConditions) (warning : String) :
    (setDeployed now conditions warning).row =
      if warning ≠ "" then warnedRow else deployedRow := by
  unfold setDeployed
  split <;> rfl

/-- The Available condition is True. -/
def NMStateConditions.isAvailable (conditions : NMStateConditions) : Bool :=
  (conditions .available).any fun c => c.status = .isTrue

/-- No replica is unavailable, some are available if there should be any, and the newest generation
has been observed.  Whether the replicas are up to date is not looked at. -/
def DeploymentRead.RolledOut (d : DeploymentRead) : Prop :=
  d.unavailableReplicas ≤ 0 ∧ (d.availableReplicas ≠ 0 ∨ ∃ n, d.replicas = some n ∧ n ≤ 0) ∧
    d.generation ≤ d.observedGeneration

/-- No pod is unavailable, some are available if there should be any, all that should be are up to
date, and the newest generation has been observed. -/
def DaemonSetRead.RolledOut (d : DaemonSetRead) : Prop :=
  d.numberUnavailable ≤ 0 ∧ (d.numberAvailable ≠ 0 ∨ d.desiredNumberScheduled = 0) ∧
    d.desiredNumberScheduled ≤ d.updatedNumberScheduled ∧ d.generation ≤ d.observedGeneration

theorem DeploymentRead.rolledOut_of_progress {d : DeploymentRead} (h : d.progress = none) :
    d.RolledOut := by
  unfold progress at h
  split at h
  · cases h
  rename_i hunavailable
  split at h
  · cases h
  rename_i hscheduled
  split at h
  · cases h
  rename_i hobserved
  refine ⟨by omega, ?_, by omega⟩
  by_cases havailable : d.availableReplicas = 0
  · right
    cases hreplicas : d.replicas with
    | none => exact absurd ⟨havailable, by rw [hreplicas]; rfl⟩ hscheduled
    | some n =>
      refine ⟨n, rfl, ?_⟩
      by_contra hpos
      exact hscheduled ⟨havailable, by rw [hreplicas]; simpa using hpos⟩
  · exact Or.inl havailable

theorem DaemonSetRead.rolledOut_of_progress {d : DaemonSetRead} (h : d.progress = none) :
    d.RolledOut := by
  unfold progress at h
  split at h
  · cases h
  rename_i hunavailable
  split at h
  · cases h
  rename_i hscheduled
  split at h
  · cases h
  rename_i hupdated
  split at h
  · cases h
  rename_i hobserved
  refine ⟨by omega, ?_, by omega, by omega⟩
  by_cases havailable : d.numberAvailable = 0
  · refine Or.inr ?_
    by_contra hdesired
    exact hscheduled ⟨havailable, hdesired⟩
  · exact Or.inl havailable

/-- The workload was read back, and was rolled out or not found. -/
def ReadBack (tr : List (Called OperatorApi)) (obj : Manifest) : Prop :=
  match obj.kind with
  | .deployment => ∃ r : Except Err DeploymentRead,
      (⟨.getDeployment obj.key, r⟩ : Called OperatorApi) ∈ tr ∧
        (r = .error .notFound ∨ ∃ d, r = .ok d ∧ d.RolledOut)
  | .daemonSet => ∃ r : Except Err DaemonSetRead,
      (⟨.getDaemonSet obj.key, r⟩ : Called OperatorApi) ∈ tr ∧
        (r = .error .notFound ∨ ∃ d, r = .ok d ∧ d.RolledOut)
  | .other _ => True

/-- In `tr₁` every named object rendered from the directory was applied, and in `tr₂` the workloads
among them, where the instance owns them, were read back. -/
def RolledOut (dir : ManifestDir) (tr₁ tr₂ : List (Called OperatorApi)) : Prop :=
  ∃ data objs, (⟨.renderDir dir data, .ok objs⟩ : Called OperatorApi) ∈ tr₁ ∧ objs ≠ [] ∧
    ∀ obj ∈ objs, obj.key.name ≠ "" → AppliedIn tr₁ obj ∧ (dir.owned = true → ReadBack tr₂ obj)

section

variable {W : Type} {env : Env OperatorApi W} {w w' : W} {tr tr' : List (Called OperatorApi)}
  {t : Tracked} {conditions : NMStateConditions} {answer : Except Err Unit}

theorem patched_of_ask {conditions' : NMStateConditions}
    (h : Begun env (askOperator (.patchStatus conditions')) w tr w')
    (hpatch : (⟨.patchStatus conditions, answer⟩ : Called OperatorApi) ∈ tr) :
    conditions = conditions' := by
  obtain ⟨-, rfl⟩ | ⟨r, w₁, tr', -, hret, rfl⟩ := Begun.of_call h
  · cases hpatch
  · obtain ⟨-, rfl⟩ := Begun.of_ret hret
    cases List.mem_singleton.mp hpatch
    rfl

/-- Nothing is left to come only if every workload was read and had nothing left. -/
theorem exec_collectProgress {ρ : Type} {context : String}
    {get : ObjectKey → OperatorProc (Except Err ρ)} {progress : ρ → Option String}
    (Read : ObjectKey → Except Err ρ → List (Called OperatorApi) → Prop)
    (hget : ∀ {key w tr r w'}, Exec env (get key) w tr r w' → Read key r tr)
    (hmono : ∀ {key r} {tr tr' : List (Called OperatorApi)}, Read key r tr →
      tr ⊆ tr' → Read key r tr')
    {keys : List ObjectKey} {progressing result : List String}
    (h : Exec env (collectProgress context get progress keys progressing) w tr (.ok result) w')
    (hresult : result = []) :
    progressing = [] ∧ ∀ key ∈ keys, ∃ r, Read key r tr ∧
      (r = .error .notFound ∨ ∃ d, r = .ok d ∧ progress d = none) := by
  induction keys generalizing progressing w tr with
  | nil =>
    obtain ⟨hret, -, -⟩ := Exec.of_ret h
    cases hret
    refine ⟨hresult, fun key hkey => ?_⟩
    cases hkey
  | cons key rest ih =>
    obtain ⟨tr₁, r, w₁, tr₂, hread, hrest, rfl⟩ := Exec.of_bind h
    -- what the rest of the loop saw is in the trace of the whole
    have hkeys : ∀ {P : Except Err ρ → Prop},
        (∀ key ∈ rest, ∃ r, Read key r tr₂ ∧ P r) → P r →
        ∀ key' ∈ key :: rest, ∃ r, Read key' r (tr₁ ++ tr₂) ∧ P r := by
      intro P hloop hP key' hkey'
      rcases List.mem_cons.mp hkey' with rfl | hkey'
      · exact ⟨r, hmono (hget hread) (List.subset_append_left _ _), hP⟩
      · obtain ⟨r', hr', hP'⟩ := hloop key' hkey'
        exact ⟨r', hmono hr' (List.subset_append_right _ _), hP'⟩
    rcases r with err | read
    · cases err with
      | notFound =>
        obtain ⟨hnil, hloop⟩ := ih hrest
        exact ⟨hnil, hkeys hloop (Or.inl rfl)⟩
      | conflict | maxUnavailableLimitReached | invalidMaxUnavailable _ | other _ =>
        exact absurd hrest Exec.not_ok_of_error
    · obtain ⟨hnil, hloop⟩ := ih hrest
      obtain ⟨hprogressing, hprogress⟩ := List.append_eq_nil_iff.mp hnil
      exact ⟨hprogressing, hkeys hloop (Or.inr ⟨read, rfl, by simpa using hprogress⟩)⟩

theorem exec_askOperator {o : OperatorOp} {r : o.Resp} (h : Exec env (askOperator o) w tr r w') :
    (⟨o, r⟩ : Called OperatorApi) ∈ tr := by
  obtain ⟨answer, w₁, tr', -, hrest, rfl⟩ := Exec.of_call h
  obtain ⟨rfl, -, -⟩ := Exec.of_ret hrest
  exact List.mem_cons_self

/-- Every remembered workload was read back. -/
structure AllReadBack (t : Tracked) (tr : List (Called OperatorApi)) : Prop where
  deployments : ∀ key ∈ t.deployments, ReadBack tr ⟨.deployment, key⟩
  daemonSets : ∀ key ∈ t.daemonSets, ReadBack tr ⟨.daemonSet, key⟩

theorem AllReadBack.mono (h : AllReadBack t tr) (htr : tr ⊆ tr') : AllReadBack t tr' where
  deployments key hkey := by
    obtain ⟨r, hr, hend⟩ := h.deployments key hkey
    exact ⟨r, htr hr, hend⟩
  daemonSets key hkey := by
    obtain ⟨r, hr, hend⟩ := h.daemonSets key hkey
    exact ⟨r, htr hr, hend⟩

theorem AllReadBack.readBack (h : AllReadBack t tr) {obj : Manifest} (hhas : t.Has obj) :
    ReadBack tr obj := by
  obtain ⟨kind, key⟩ := obj
  cases kind with
  | deployment => exact h.deployments key hhas
  | daemonSet => exact h.daemonSets key hhas
  | other kind => trivial

/-- `reconcileStatus` reports Available only for workloads that are rolled out, and its warning is
the remembered one. -/
theorem begun_reconcileStatus {inst : NMStateInstance}
    (h : Begun env (reconcileStatus inst t) w tr w')
    (hpatch : (⟨.patchStatus conditions, answer⟩ : Called OperatorApi) ∈ tr) :
    (∃ now progressing, conditions = setDeploying now inst.conditions progressing) ∨
      AllReadBack t tr ∧
        ∃ now, conditions = setDeployed now inst.conditions t.tlsProfileWarning := by
  have hpatches : ¬ OperatorOp.patches (.patchStatus conditions) = false := by
    simp [OperatorOp.patches]
  obtain ⟨tr₁, r, w₁, tr₂, hdeployments, hrest, rfl, hlater⟩ :=
    h.after (plain_collectProgress (fun _ => plain_perform rfl) _ _).patchless hpatches hpatch
  rcases r with err | progressing₁
  · exact absurd hlater hrest.not_mem_of_ret
  obtain ⟨tr₃, r, w₂, tr₄, hdaemonSets, hthen, rfl, hlast⟩ :=
    hrest.after (plain_collectProgress (fun _ => plain_perform rfl) _ _).patchless hpatches hlater
  rcases r with err | progressing₂
  · exact absurd hlast hthen.not_mem_of_ret
  obtain ⟨tr₅, now, w₃, tr₆, -, hwrite, rfl, hwritten⟩ :=
    hthen.after (plain_perform rfl).patchless hpatches hlast
  split at hwrite
  · exact Or.inl ⟨now, progressing₂, patched_of_ask hwrite hwritten⟩
  · rename_i hnone
    refine Or.inr ⟨?_, now, patched_of_ask hwrite hwritten⟩
    -- nothing was still to come, so both loops found all workloads through
    obtain ⟨hnil, hsets⟩ := exec_collectProgress
      (fun key r tr => (⟨.getDaemonSet key, r⟩ : Called OperatorApi) ∈ tr)
      exec_askOperator (fun h htr => htr h) hdaemonSets (not_not.mp hnone)
    obtain ⟨-, hdeps⟩ := exec_collectProgress
      (fun key r tr => (⟨.getDeployment key, r⟩ : Called OperatorApi) ∈ tr)
      exec_askOperator (fun h htr => htr h) hdeployments hnil
    constructor
    · intro key hkey
      obtain ⟨r, hr, hend⟩ := hdeps key hkey
      refine ⟨r, List.mem_append_left _ hr, hend.imp_right ?_⟩
      rintro ⟨d, hd, hprogress⟩
      exact ⟨d, hd, d.rolledOut_of_progress hprogress⟩
    · intro key hkey
      obtain ⟨r, hr, hend⟩ := hsets key hkey
      refine ⟨r, List.mem_append_right _ (List.mem_append_left _ hr), hend.imp_right ?_⟩
      rintro ⟨d, hd, hprogress⟩
      exact ⟨d, hd, d.rolledOut_of_progress hprogress⟩

theorem begun_setDegradedCondition {inst : NMStateInstance} {err : Err}
    (h : Begun env (setDegradedCondition inst err) w tr w')
    (hpatch : (⟨.patchStatus conditions, answer⟩ : Called OperatorApi) ∈ tr) :
    ∃ now, conditions = setDegraded now inst.conditions err.message := by
  have hpatches : ¬ OperatorOp.patches (.patchStatus conditions) = false := by
    simp [OperatorOp.patches]
  obtain ⟨tr₁, now, w₁, tr₂, -, hrest, rfl, hlater⟩ :=
    h.after (plain_perform rfl).patchless hpatches hpatch
  obtain ⟨tr₃, w₂, hwrite, -, hwritten⟩ :=
    hrest.before (C := fun _ => False) (fun _ => trivial) not_false hlater
  exact ⟨now, patched_of_ask hwrite hwritten⟩

/-! ### Where in a reconcile a call is made -/

/-- Where a call that is not a plain one was made: while the manifests were applied, in the report
of an error, or in that of the workloads after the manifests. -/
inductive Reached (env : Env OperatorApi W) (isOpenShift : Bool) (pluginName : String)
    (tr : List (Called OperatorApi)) (c : Called OperatorApi) : Prop where
  | applying {inst : NMStateInstance} {w₁ w₂ : W} {tr₁ : List (Called OperatorApi)}
      (happly : Begun env (applyManifests isOpenShift pluginName inst) w₁ tr₁ w₂)
      (hsub : tr₁ ⊆ tr) (hmem : c ∈ tr₁)
  | failing {inst : NMStateInstance} {err : Err} {w₁ w₂ : W} {tr₁ : List (Called OperatorApi)}
      (hfail : Begun env (setDegradedCondition inst err) w₁ tr₁ w₂) (hmem : c ∈ tr₁)
  | reporting {inst : NMStateInstance} {t : Tracked} {w₁ w₂ w₃ w₄ : W}
      {tr₁ tr₂ tr₃ tr₄ : List (Called OperatorApi)} (htr : tr = tr₁ ++ tr₂)
      (happly : Exec env (applyManifests isOpenShift pluginName inst) w₁ tr₃ (.ok t) w₂)
      (hsub : tr₃ ⊆ tr₁) (hreport : Begun env (reconcileStatus inst t) w₃ tr₄ w₄)
      (hlater : tr₄ ⊆ tr₂) (hmem : c ∈ tr₄)

variable {isOpenShift : Bool} {pluginName reqName : String} {c : Called OperatorApi}

theorem Reached.append (h : Reached env isOpenShift pluginName tr c)
    (tr₀ : List (Called OperatorApi)) : Reached env isOpenShift pluginName (tr₀ ++ tr) c := by
  cases h with
  | applying happly hsub hmem =>
    exact .applying happly (List.Subset.trans hsub (List.subset_append_right _ _)) hmem
  | failing hfail hmem => exact .failing hfail hmem
  | @reporting inst t w₁ w₂ w₃ w₄ tr₁ tr₂ tr₃ tr₄ htr happly hsub hreport hlater hmem =>
    rw [htr, ← List.append_assoc]
    refine .reporting rfl happly ?_ hreport hlater hmem
    exact List.Subset.trans hsub (List.subset_append_right _ _)

theorem reached_of_reconcileInstalled {inst : NMStateInstance} (hc : c.1.plain = false)
    (h : Begun env (reconcileInstalled isOpenShift pluginName inst) w tr w') (hmem : c ∈ tr) :
    Reached env isOpenShift pluginName tr c := by
  obtain hcut | ⟨tr₁, r, w₁, tr₂, happly, hrest, rfl⟩ := Begun.of_bind h
  · exact .applying hcut (List.Subset.refl _) hmem
  rcases List.mem_append.mp hmem with hfirst | hlater
  · exact .applying happly.begun (List.subset_append_left _ _) hfirst
  rcases r with err | t
  · obtain ⟨tr₃, w₂, hfail, -, hmem'⟩ :=
      hrest.before (C := fun _ => False) (fun _ => trivial) not_false hlater
    exact .failing hfail hmem'
  obtain ⟨tr₃, r, w₂, tr₄, -, hthen, rfl, hlast⟩ :=
    hrest.after (plain_cleanupObsoleteResources isOpenShift) (ne_true_of_eq_false hc) hlater
  rcases r with err | ⟨⟩
  · exact absurd hlast hthen.not_mem_of_ret
  obtain ⟨tr₅, w₃, hreport, hsub, hmem'⟩ :=
    hthen.before (C := fun _ => False) (fun r => by cases r <;> trivial) not_false hlast
  refine .reporting rfl happly (List.Subset.refl _) hreport ?_ hmem'
  exact List.Subset.trans hsub (List.subset_append_right _ _)

theorem reached_of_reconcileOperator (hc : c.1.plain = false)
    (h : Begun env (reconcileOperator isOpenShift pluginName reqName) w tr w') (hmem : c ∈ tr) :
    Reached env isOpenShift pluginName tr c := by
  have hplain : ¬ c.1.plain = true := ne_true_of_eq_false hc
  obtain ⟨tr₁, r, w₁, tr₂, -, hrest, rfl, hlater⟩ := h.after (plain_perform rfl) hplain hmem
  refine Reached.append ?_ tr₁
  rcases r with err | inst
  · cases err with
    | notFound | conflict | maxUnavailableLimitReached | invalidMaxUnavailable _ | other _ =>
      exact absurd hlater hrest.not_mem_of_ret
  obtain ⟨tr₃, r, w₂, tr₄, -, hthen, rfl, hlast⟩ := hrest.after (plain_perform rfl) hplain hlater
  refine Reached.append ?_ tr₃
  rcases r with err | (_ | ⟨first, others⟩)
  · obtain ⟨tr₅, w₃, hfail, -, hmem'⟩ :=
      hthen.before (C := fun _ => False) (fun _ => trivial) not_false hlast
    exact .failing hfail hmem'
  · exact reached_of_reconcileInstalled hc hthen hlast
  · dsimp only at hthen
    split at hthen
    · obtain ⟨tr₅, r, w₃, tr₆, -, hend, rfl, hmem'⟩ :=
        hthen.after (plain_perform rfl) hplain hlast
      exact absurd hmem' hend.not_mem_of_ret
    · exact reached_of_reconcileInstalled hc hthen hlast

/-- The operator reports Available only after it has applied every manifest, and has then read every
workload of the instance and found it rolled out or not there. -/
theorem available_only_if_rolled_out
    (h : Begun env (reconcileOperator isOpenShift pluginName reqName) w tr w')
    (hpatch : (⟨.patchStatus conditions, answer⟩ : Called OperatorApi) ∈ tr)
    (havailable : conditions.isAvailable = true) :
    ∃ tr₁ tr₂, tr = tr₁ ++ tr₂ ∧ ∀ dir, RolledOut dir tr₁ tr₂ ∨
      dir = .uiPlugin ∧ (isOpenShift = false ∨
        (⟨.uiPluginPathExists, false⟩ : Called OperatorApi) ∈ tr₁) := by
  cases reached_of_reconcileOperator rfl h hpatch with
  | applying happly hsub hmem =>
    cases happly.only (patchless_applyManifests _ _ _) _ hmem
  | failing hfail hmem =>
    obtain ⟨now, rfl⟩ := begun_setDegradedCondition hfail hmem
    cases havailable
  | @reporting inst t w₁ w₂ w₃ w₄ tr₁ tr₂ tr₃ tr₄ htr happly hsub hreport hlater hmem =>
    rcases begun_reconcileStatus hreport hmem with ⟨now, progressing, rfl⟩ | ⟨hread, now, -⟩
    · cases havailable
    refine ⟨tr₁, tr₂, htr, fun dir => ?_⟩
    refine (exec_applyManifests happly dir).imp ?_ (And.imp_right (Or.imp_right fun h => hsub h))
    rintro ⟨data, objs, hrender, hne, hdeployed⟩
    refine ⟨data, objs, hsub hrender, hne, fun obj hobj hname => ?_⟩
    obtain ⟨happlied, hhas⟩ := hdeployed obj hobj hname
    exact ⟨happlied.mono hsub, fun howned => (hread.mono hlater).readBack (hhas howned)⟩

end

/-! ### A healthy cluster -/

/-- The APIServer object of a cluster with a custom TLS profile. -/
def customAPIServer : Json :=
  .obj [("spec", .obj [("tlsSecurityProfile", .obj [("type", .str "Custom"),
    ("custom", .obj [("ciphers", .arr [.str "ECDHE-RSA-AES128-GCM-SHA256"]),
      ("minTLSVersion", .str "VersionTLS12")])])])]

/-- The answers of a cluster in which everything is rolled out. -/
def healthyAnswer : (o : OperatorOp) → o.Resp
  | .getNMState => .ok ⟨none, none, fun _ => none⟩
  | .listNMStates => .ok [⟨"nmstate", 0⟩]
  | .deleteNMState => .ok ()
  | .uiPluginPathExists => true
  | .renderDir .handler _ => .ok [⟨.daemonSet, ⟨"nmstate", "nmstate-handler"⟩⟩]
  | .renderDir .uiPlugin _ => .ok [⟨.deployment, ⟨"nmstate", "nmstate-console-plugin"⟩⟩]
  | .renderDir dir _ => .ok [⟨.other "Object", ⟨"", dir.name⟩⟩]
  | .setControllerReference _ => .ok ()
  | .applyManifest _ => .ok ()
  | .getClusterReader => .error .notFound
  | .listInfraNodes _ => .ok []
  | .getAPIServer => .ok customAPIServer
  | .getConsolePlugins => .ok []
  | .updateConsolePlugins _ => .ok ()
  | .deleteCertManager => .error .notFound
  | .deleteWebhookSecret => .error .notFound
  | .getDeployment key => .ok ⟨key.name, 1, none, 1, 1, 0⟩
  | .getDaemonSet key => .ok ⟨key.name, 1, 1, 3, 3, 3, 0⟩
  | .patchStatus _ => .ok ()
  | .now => (0 : Time)

/-- What a call makes of the stored status. -/
def storedStatus (conditions : NMStateConditions) : OperatorOp → NMStateConditions
  | .patchStatus conditions' => conditions'
  | _ => conditions

/-- Surroundings with these answers. -/
def healthyCluster : Env OperatorApi NMStateConditions where
  serve w o r w' := r = healthyAnswer o ∧ w' = storedStatus w o

/-- The call writes an Available status. -/
def reportsAvailable : Called OperatorApi → Bool
  | ⟨.patchStatus conditions, _⟩ => conditions.isAvailable
  | _ => false

theorem exists_of_reportsAvailable {tr : List (Called OperatorApi)}
    (h : tr.any reportsAvailable = true) :
    ∃ (conditions : NMStateConditions) (answer : Except Err Unit),
      (⟨.patchStatus conditions, answer⟩ : Called OperatorApi) ∈ tr ∧
        conditions.isAvailable = true := by
  obtain ⟨⟨o, r⟩, hmem, hc⟩ := List.any_eq_true.mp h
  cases o with
  | patchStatus conditions => exact ⟨conditions, r, hmem, hc⟩
  | _ => cases hc

/-- A reconcile there renders the components, reports Available and ends. -/
theorem healthy_reconcile :
    ∃ tr outcome w', Exec healthyCluster
      (reconcileOperator true "nmstate-console-plugin" "nmstate") (fun _ => none) tr outcome w' ∧
      (tr.any reportsAvailable && tr.any (fun c => c.1.rendersHandler) &&
        Option.isNone outcome) = true := by
  have hanswer : ∀ {w : NMStateConditions} {o : OperatorOp} {r : o.Resp} {w' : NMStateConditions},
      some (healthyAnswer o, storedStatus w o) = some (r, w') → healthyCluster.serve w o r w' := by
    intro w o r w' h
    cases h
    exact ⟨rfl, rfl⟩
  exact Exec.exists_of_play hanswer 40 _ _
    (fun tr outcome _ => tr.any reportsAvailable && tr.any (fun c => c.1.rendersHandler) &&
      Option.isNone outcome) (by decide)

/-- The handler of the healthy cluster is reported Available once it is rolled out. -/
theorem healthy_handler_rolled_out :
    ∃ tr₁ tr₂, RolledOut .handler tr₁ tr₂ ∧ RolledOut .rbac tr₁ tr₂ := by
  obtain ⟨tr, outcome, w', h, hP⟩ := healthy_reconcile
  simp only [Bool.and_eq_true] at hP
  obtain ⟨conditions, answer, hpatch, havailable⟩ := exists_of_reportsAvailable hP.1.1
  obtain ⟨tr₁, tr₂, -, hdirs⟩ := available_only_if_rolled_out h.begun hpatch havailable
  refine ⟨tr₁, tr₂, (hdirs .handler).resolve_right ?_, (hdirs .rbac).resolve_right ?_⟩
  · exact fun h => absurd h.1 (by decide)
  · exact fun h => absurd h.1 (by decide)

/-! ## The status over many reconciles -/

/-- The rows of a reconcile that went through. -/
def successRows : List (List (Option (ConditionStatus × NMStateReason))) :=
  [deployingRow, deployedRow, warnedRow]

/-- All three conditions carry the message. -/
def NMStateConditions.Says (conditions : NMStateConditions) (message : String) : Prop :=
  ∀ t, ∃ c, conditions t = some c ∧ c.message = message

theorem says_setDegraded (now : Time) (conditions : NMStateConditions) (message : String) :
    (setDegraded now conditions message).Says message := by
  intro t
  cases t <;> exact ⟨_, rfl, rfl⟩

theorem successRows_setDeploying (now : Time) (conditions : NMStateConditions)
    (progressing : List String) : (setDeploying now conditions progressing).row ∈ successRows :=
  List.mem_cons_self

theorem successRows_setDeployed (now : Time) (conditions : NMStateConditions) (warning : String) :
    (setDeployed now conditions warning).row ∈ successRows := by
  rw [row_setDeployed]
  split
  · exact List.mem_cons_of_mem _ (List.mem_cons_of_mem _ List.mem_cons_self)
  · exact List.mem_cons_of_mem _ List.mem_cons_self

/-- `status` is written by the status patch only: one that is answered without an error is stored,
one with an error may have been. -/
structure StatusStore {W : Type} (env : Env OperatorApi W) (status : W → NMStateConditions) :
    Prop where
  kept : ∀ {w o r w'}, env.serve w o r w' → o.patches = false → status w' = status w
  patched : ∀ {w conditions r w'}, env.serve w (.patchStatus conditions) r w' →
    status w' = conditions ∨ status w' = status w ∧ r ≠ .ok ()

/-- What happens between two looks at the status: a reconcile of any instance, as far as it came, or
something that does not write it. -/
inductive OperatorMove {W : Type} (env : Env OperatorApi W) (status : W → NMStateConditions)
    (isOpenShift : Bool) (pluginName : String) : W → W → Prop where
  | reconcile {reqName : String} {w w' : W} {tr : List (Called OperatorApi)}
      (h : Begun env (reconcileOperator isOpenShift pluginName reqName) w tr w') :
      OperatorMove env status isOpenShift pluginName w w'
  | other {w w' : W} (h : status w' = status w) :
      OperatorMove env status isOpenShift pluginName w w'

/-- What a reconcile that ended can have made of the status.  Without an error it is a success row,
unless the instance is gone or in excess.  With an error it is that error, or nothing was written:
the status could not be, or the error was not one that is reported; or a success row was stored by
a patch that was answered with this error. -/
def Verdict (before after : NMStateConditions) (tr : List (Called OperatorApi)) :
    Option Err → Prop
  | none => after.row ∈ successRows ∨ after = before ∧
      ((⟨.getNMState, .error .notFound⟩ : Called OperatorApi) ∈ tr ∨
        ∃ r, (⟨.deleteNMState, r⟩ : Called OperatorApi) ∈ tr)
  | some err => after = before ∨ (after.row = degradedRow ∧ after.Says err.message) ∨
      after.row ∈ successRows ∧ ∃ cause : Err, err = cause.wrap "failed reconciling status" ∧
        (⟨.patchStatus after, .error cause⟩ : Called OperatorApi) ∈ tr

section

variable {W : Type} {env : Env OperatorApi W} {status : W → NMStateConditions} {w w' : W}
  {tr : List (Called OperatorApi)} {isOpenShift : Bool} {pluginName reqName : String}
  {inst : NMStateInstance} {t : Tracked} {outcome : Option Err}

theorem StatusStore.exec {α : Type} {p : OperatorProc α} {a : α} (hstore : StatusStore env status)
    (hp : Patchless p) (h : Exec env p w tr a w') : status w' = status w := by
  refine h.begun.keeps (C := fun c => OperatorOp.patches c.1 = false)
    (I := fun v => status v = status w) (fun hc hI hs => ?_) (h.begun.only hp) rfl
  rw [hstore.kept hs hc, hI]

theorem StatusStore.exec_patchStatus {conditions : NMStateConditions} {r : Except Err Unit}
    (hstore : StatusStore env status)
    (h : Exec env (askOperator (.patchStatus conditions)) w tr r w') :
    (status w' = conditions ∧ (⟨.patchStatus conditions, r⟩ : Called OperatorApi) ∈ tr) ∨
      status w' = status w ∧ ∃ err, r = .error err := by
  obtain ⟨answer, w₁, tr', hs, hret, rfl⟩ := Exec.of_call h
  obtain ⟨rfl, rfl, -⟩ := Exec.of_ret hret
  rcases hstore.patched hs with hnew | ⟨hold, hne⟩
  · exact Or.inl ⟨hnew, List.mem_cons_self⟩
  · rcases r with err | ⟨⟩
    · exact Or.inr ⟨hold, err, rfl⟩
    · exact absurd rfl hne

theorem StatusStore.exec_setDegradedCondition {err : Err} {a : Unit}
    (hstore : StatusStore env status)
    (h : Exec env (setDegradedCondition inst err) w tr a w') :
    status w' = status w ∨ (status w').row = degradedRow ∧ (status w').Says err.message := by
  obtain ⟨now, w₁, tr', hs, hrest, rfl⟩ := Exec.of_perform h
  obtain ⟨tr₁, r, w₂, tr₂, hwrite, hret, rfl⟩ := Exec.of_bind hrest
  obtain ⟨-, rfl, -⟩ := Exec.of_ret hret
  rcases hstore.exec_patchStatus hwrite with ⟨hnew, -⟩ | ⟨hold, -⟩
  · rw [hnew]
    exact Or.inr ⟨row_setDegraded _ _ _, says_setDegraded _ _ _⟩
  · exact Or.inl (hold.trans (hstore.kept hs rfl))

theorem StatusStore.exec_reconcileStatus {r : Except Err Unit} (hstore : StatusStore env status)
    (h : Exec env (reconcileStatus inst t) w tr r w') :
    ((status w').row ∈ successRows ∧
      (⟨.patchStatus (status w'), r⟩ : Called OperatorApi) ∈ tr) ∨
      status w' = status w ∧ ∃ err, r = .error err := by
  obtain ⟨tr₁, r₁, w₁, tr₂, hdeployments, hrest, rfl⟩ := Exec.of_bind h
  have hfirst : status w₁ = status w := hstore.exec
    (plain_collectProgress (fun _ => plain_perform rfl) _ _).patchless hdeployments
  rcases r₁ with err | progressing₁
  · obtain ⟨rfl, rfl, -⟩ := Exec.of_ret hrest
    exact Or.inr ⟨hfirst, err, rfl⟩
  obtain ⟨tr₃, r₂, w₂, tr₄, hdaemonSets, hthen, rfl⟩ := Exec.of_bind hrest
  have hsecond : status w₂ = status w₁ := hstore.exec
    (plain_collectProgress (fun _ => plain_perform rfl) _ _).patchless hdaemonSets
  rcases r₂ with err | progressing₂
  · obtain ⟨rfl, rfl, -⟩ := Exec.of_ret hthen
    exact Or.inr ⟨hsecond.trans hfirst, err, rfl⟩
  obtain ⟨now, w₃, tr', hs, hwrite, rfl⟩ := Exec.of_perform hthen
  have hthird : status w₃ = status w := ((hstore.kept hs rfl).trans hsecond).trans hfirst
  -- whichever conditions are written, they are the last call
  have hwritten : ∀ {conditions : NMStateConditions}, conditions.row ∈ successRows →
      Exec env (askOperator (.patchStatus conditions)) w₃ tr' r w' →
      ((status w').row ∈ successRows ∧ (⟨.patchStatus (status w'), r⟩ : Called OperatorApi) ∈
        tr₁ ++ (tr₃ ++ ⟨.now, now⟩ :: tr')) ∨ status w' = status w ∧ ∃ err, r = .error err := by
    intro conditions hrow hpatch
    rcases hstore.exec_patchStatus hpatch with ⟨hnew, hmem⟩ | ⟨hold, herr⟩
    · rw [hnew]
      exact Or.inl ⟨hrow, by simp [hmem]⟩
    · exact Or.inr ⟨hold.trans hthird, herr⟩
  split at hwrite
  · exact hwritten (successRows_setDeploying _ _ _) hwrite
  · exact hwritten (successRows_setDeployed _ _ _) hwrite

theorem StatusStore.exec_reconcileInstalled (hstore : StatusStore env status)
    (h : Exec env (reconcileInstalled isOpenShift pluginName inst) w tr outcome w') :
    Verdict (status w) (status w') tr outcome := by
  obtain ⟨tr₁, r, w₁, tr₂, happly, hrest, rfl⟩ := Exec.of_bind h
  have hfirst : status w₁ = status w := hstore.exec (patchless_applyManifests _ _ _) happly
  rcases r with err | t
  · obtain ⟨tr₃, a, w₂, tr₄, hfail, hret, rfl⟩ := Exec.of_bind hrest
    obtain ⟨rfl, rfl, -⟩ := Exec.of_ret hret
    rw [← hfirst]
    exact (hstore.exec_setDegradedCondition hfail).imp_right Or.inl
  obtain ⟨tr₃, r, w₂, tr₄, hcleanup, hthen, rfl⟩ := Exec.of_bind hrest
  have hsecond : status w₂ = status w₁ :=
    hstore.exec (plain_cleanupObsoleteResources isOpenShift).patchless hcleanup
  rcases r with err | ⟨⟩
  · obtain ⟨rfl, rfl, -⟩ := Exec.of_ret hthen
    exact Or.inl (hsecond.trans hfirst)
  obtain ⟨tr₅, r, w₃, tr₆, hreport, hend, rfl⟩ := Exec.of_bind hthen
  have hreported := hstore.exec_reconcileStatus hreport
  rcases r with err | ⟨⟩
  · obtain ⟨rfl, rfl, -⟩ := Exec.of_ret hend
    rcases hreported with ⟨hrow, hmem⟩ | ⟨hold, -⟩
    · exact Or.inr (Or.inr ⟨hrow, err, rfl, by simp [hmem]⟩)
    · exact Or.inl ((hold.trans hsecond).trans hfirst)
  · obtain ⟨rfl, rfl, -⟩ := Exec.of_ret hend
    rcases hreported with ⟨hrow, -⟩ | ⟨-, err, herr⟩
    · exact Or.inl hrow
    · cases herr

theorem StatusStore.exec_reconcileOperator (hstore : StatusStore env status)
    (h : Exec env (reconcileOperator isOpenShift pluginName reqName) w tr outcome w') :
    Verdict (status w) (status w') tr outcome := by
  obtain ⟨r, w₁, tr₁, hs, hrest, rfl⟩ := Exec.of_perform h
  have hfirst : status w₁ = status w := hstore.kept hs rfl
  rcases r with err | inst
  · cases err with
    | notFound =>
      obtain ⟨rfl, rfl, -⟩ := Exec.of_ret hrest
      exact Or.inr ⟨hfirst, Or.inl List.mem_cons_self⟩
    | conflict | maxUnavailableLimitReached | invalidMaxUnavailable _ | other _ =>
      obtain ⟨rfl, rfl, -⟩ := Exec.of_ret hrest
      exact Or.inl hfirst
  obtain ⟨r, w₂, tr₂, hs', hthen, rfl⟩ := Exec.of_perform hrest
  have hsecond : status w₂ = status w := (hstore.kept hs' rfl).trans hfirst
  -- the calls before it do not matter to the verdict on an instance that is kept
  have hinstalled : Exec env (reconcileInstalled isOpenShift pluginName inst) w₂ tr₂ outcome w' →
      Verdict (status w) (status w')
        (⟨.getNMState, .ok inst⟩ :: ⟨.listNMStates, r⟩ :: tr₂) outcome := by
    intro hkept
    rw [← hsecond]
    have hverdict := hstore.exec_reconcileInstalled hkept
    cases outcome with
    | some err =>
      refine hverdict.imp_right (Or.imp_right (And.imp_right ?_))
      rintro ⟨cause, heq, hmem⟩
      exact ⟨cause, heq, List.mem_cons_of_mem _ (List.mem_cons_of_mem _ hmem)⟩
    | none =>
      refine hverdict.imp_right (And.imp_right (Or.imp ?_ ?_))
      · exact fun hmem => List.mem_cons_of_mem _ (List.mem_cons_of_mem _ hmem)
      · exact fun ⟨r, hmem⟩ => ⟨r, List.mem_cons_of_mem _ (List.mem_cons_of_mem _ hmem)⟩
  rcases r with err | (_ | ⟨first, others⟩)
  · obtain ⟨tr₃, a, w₃, tr₄, hfail, hret, rfl⟩ := Exec.of_bind hthen
    obtain ⟨rfl, rfl, -⟩ := Exec.of_ret hret
    rw [← hsecond]
    exact (hstore.exec_setDegradedCondition hfail).imp_right Or.inl
  · exact hinstalled hthen
  · dsimp only at hthen
    split at hthen
    · obtain ⟨r, w₃, tr₃, hs'', hret, rfl⟩ := Exec.of_perform hthen
      obtain ⟨rfl, rfl, -⟩ := Exec.of_ret hret
      refine Or.inr ⟨(hstore.kept hs'' rfl).trans hsecond, Or.inr ⟨r, ?_⟩⟩
      exact List.mem_cons_of_mem _ (List.mem_cons_of_mem _ List.mem_cons_self)
    · exact hinstalled hthen

theorem row_of_patched {conditions : NMStateConditions} {answer : Except Err Unit}
    (h : Begun env (reconcileOperator isOpenShift pluginName reqName) w tr w')
    (hpatch : (⟨.patchStatus conditions, answer⟩ : Called OperatorApi) ∈ tr) :
    conditions.row ∈ degradedRow :: successRows := by
  cases reached_of_reconcileOperator rfl h hpatch with
  | applying happly hsub hmem =>
    cases happly.only (patchless_applyManifests _ _ _) _ hmem
  | failing hfail hmem =>
    obtain ⟨now, rfl⟩ := begun_setDegradedCondition hfail hmem
    exact List.mem_cons_self
  | reporting htr happly hsub hreport hlater hmem =>
    rcases begun_reconcileStatus hreport hmem with ⟨now, progressing, rfl⟩ | ⟨-, now, rfl⟩
    · exact List.mem_cons_of_mem _ (successRows_setDeploying _ _ _)
    · exact List.mem_cons_of_mem _ (successRows_setDeployed _ _ _)

/-- A reconcile, wherever it is stopped, leaves the status or writes one of the rows. -/
theorem StatusStore.begun_reconcileOperator (hstore : StatusStore env status)
    (h : Begun env (reconcileOperator isOpenShift pluginName reqName) w tr w') :
    status w' = status w ∨ (status w').row ∈ degradedRow :: successRows := by
  refine h.keeps (C := fun c => c ∈ tr)
    (I := fun v => status v = status w ∨ (status v).row ∈ degradedRow :: successRows)
    (fun {o v r v'} hc hI hs => ?_) (fun c hc => hc) (Or.inl rfl)
  cases hpatches : o.patches with
  | false =>
    rw [hstore.kept hs hpatches]
    exact hI
  | true =>
    cases o with
    | patchStatus conditions =>
      rcases hstore.patched hs with hnew | ⟨hold, -⟩
      · rw [hnew]
        exact Or.inr (row_of_patched h hc)
      · rw [hold]
        exact hI
    | _ => cases hpatches

/-- Whatever reconciles came before, and wherever they were stopped, the status is the one they
found or one of four rows; and a reconcile that ends leaves the verdict of its outcome. -/
theorem operator_status_coherent {w₀ : W} (hstore : StatusStore env status)
    (hrun : Relation.ReflTransGen (OperatorMove env status isOpenShift pluginName) w₀ w) :
    (status w = status w₀ ∨ (status w).row ∈ degradedRow :: successRows) ∧
      ∀ reqName tr outcome w',
        Exec env (reconcileOperator isOpenShift pluginName reqName) w tr outcome w' →
          Verdict (status w) (status w') tr outcome := by
  refine ⟨?_, fun _ _ _ _ h => hstore.exec_reconcileOperator h⟩
  induction hrun with
  | refl => exact Or.inl rfl
  | tail _ hmove ih =>
    cases hmove with
    | reconcile hbegun =>
      rcases hstore.begun_reconcileOperator hbegun with hold | hrow
      · rw [hold]
        exact ih
      · exact Or.inr hrow
    | other hold =>
      rw [hold]
      exact ih

end

/-- The healthy cluster stores what it is sent. -/
theorem healthy_store : StatusStore healthyCluster id where
  kept := by
    rintro w o r w' ⟨-, rfl⟩ ho
    cases o with
    | patchStatus conditions => cases ho
    | _ => rfl
  patched := by
    rintro w conditions r w' ⟨-, rfl⟩
    exact Or.inl rfl

/-- The verdict on a reconcile there, after one of another instance that was stopped at once. -/
theorem healthy_status_coherent :
    ∃ tr w', Exec healthyCluster (reconcileOperator true "nmstate-console-plugin" "nmstate")
      (fun _ => none) tr none w' ∧ Verdict (fun _ => none) w' tr none := by
  obtain ⟨tr, outcome, w', h, hP⟩ := healthy_reconcile
  simp only [Bool.and_eq_true] at hP
  obtain rfl : outcome = none := Option.isNone_iff_eq_none.mp hP.2
  have hstopped : OperatorMove healthyCluster id true "nmstate-console-plugin" (fun _ => none)
      (fun _ => none) := .reconcile (.stop : Begun healthyCluster
        (reconcileOperator true "nmstate-console-plugin" "other") _ [] _)
  exact ⟨tr, w', h, (operator_status_coherent healthy_store (.single hstopped)).2 _ _ _ _ h⟩
