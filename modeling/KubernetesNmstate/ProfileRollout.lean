/-
# The TLS profile the operator rolls out

On OpenShift the operator reads the TLS profile of the cluster, checks that the components can serve
it, and renders them with it.  Here the check and the rendering are brought together over whole
reconciles: no rendering without a servable profile (`rolled_out_profile_servable`), and an
Available instance is marked Degraded for the entries that are not honored, and only for these
(`available_degraded_iff_not_fully_honored`).
-/
import KubernetesNmstate.OperatorStatus

/-- `spec` is the profile of the APIServer object that was read, and the components can serve it but
for the entries `u`. -/
def HonoredProfile (tr : List (Called OperatorApi)) (spec : TLSProfileSpec)
    (u : UnsupportedEntries) : Prop :=
  ∃ obj profile config, (⟨.getAPIServer, .ok obj⟩ : Called OperatorApi) ∈ tr ∧
    parseTLSSecurityProfile obj = .ok profile ∧ getTLSProfileSpec profile = .ok spec ∧
    newTLSConfigFromProfile spec = (u, .ok config)

/-- The Degraded condition is True. -/
def NMStateConditions.isDegraded (conditions : NMStateConditions) : Bool :=
  (conditions .degraded).any fun c => c.status = .isTrue

theorem isDegraded_setDeployed (now : Time) (conditions : NMStateConditions) (warning : String) :
    (setDeployed now conditions warning).isDegraded = true ↔ warning ≠ "" := by
  unfold setDeployed
  split
  · rename_i hwarning
    exact ⟨fun _ => hwarning, fun _ => rfl⟩
  · rename_i hwarning
    refine ⟨fun h => ?_, fun h => absurd h hwarning⟩
    cases h

theorem degraded_message_setDeployed (now : Time) (conditions : NMStateConditions)
    (warning : String) (h : (setDeployed now conditions warning).isDegraded = true) :
    ((setDeployed now conditions warning) .degraded).map (·.message) = some warning := by
  have hwarning := (isDegraded_setDeployed now conditions warning).mp h
  unfold setDeployed
  rw [if_pos hwarning]
  rfl

section

variable {W : Type} {env : Env OperatorApi W} {w w' : W} {tr tr' : List (Called OperatorApi)}
  {isOpenShift : Bool} {pluginName reqName : String} {inst : NMStateInstance} {t t' : Tracked}
  {data : RenderData} {answer : Except Err (List Manifest)}

theorem HonoredProfile.mono {spec : TLSProfileSpec} {u : UnsupportedEntries}
    (h : HonoredProfile tr spec u) (htr : tr ⊆ tr') : HonoredProfile tr' spec u := by
  obtain ⟨obj, profile, config, hget, hrest⟩ := h
  exact ⟨obj, profile, config, htr hget, hrest⟩

theorem exec_honoredTLSProfile {spec : TLSProfileSpec} {warning : String}
    (h : Exec env honoredTLSProfile w tr (.ok (spec, warning)) w') :
    ∃ u, HonoredProfile tr spec u ∧ warning = u.message := by
  obtain ⟨tr₁, r, w₁, tr₂, hfetch, hrest, rfl⟩ := Exec.of_bind h
  rcases r with err | spec'
  · exact absurd hrest Exec.not_ok_of_error
  obtain ⟨answer, w₂, tr', -, hparse, rfl⟩ := Exec.of_perform hfetch
  rcases answer with err | obj
  · exact absurd hparse Exec.not_ok_of_error
  dsimp only at hparse
  split at hparse
  · exact absurd hparse Exec.not_ok_of_error
  rename_i profile hprofile
  split at hparse
  · exact absurd hparse Exec.not_ok_of_error
  rename_i spec'' hspec
  obtain ⟨hret, -, -⟩ := Exec.of_ret hparse
  cases hret
  dsimp only at hrest
  split at hrest
  · exact absurd hrest Exec.not_ok_of_error
  rename_i u config hconfig
  obtain ⟨hret, -, -⟩ := Exec.of_ret hrest
  cases hret
  refine ⟨u, ⟨obj, profile, config, ?_, hprofile, hspec, hconfig⟩, rfl⟩
  exact List.mem_append_left _ List.mem_cons_self

/-! ### Every rendering of the components -/

/-- What the components are rendered with. -/
def ServableData (isOpenShift : Bool) (tr : List (Called OperatorApi)) (data : RenderData) : Prop :=
  if isOpenShift then ∃ spec u, HonoredProfile tr spec u ∧ data.tlsProfile = some spec
  else data.tlsProfile = none

theorem ServableData.mono (h : ServableData isOpenShift tr data) (htr : tr ⊆ tr') :
    ServableData isOpenShift tr' data := by
  cases isOpenShift with
  | false => exact h
  | true =>
    obtain ⟨spec, u, hspec, hdata⟩ := h
    exact ⟨spec, u, hspec.mono htr, hdata⟩

theorem begun_renderAndApply {data' : RenderData} {dir : ManifestDir}
    (h : Begun env (renderAndApply data' dir t) w tr w')
    (hmem : (⟨.renderDir .handler data, answer⟩ : Called OperatorApi) ∈ tr) : data = data' := by
  obtain ⟨-, rfl⟩ | ⟨r, w₁, tr', -, hrest, rfl⟩ := Begun.of_perform h
  · cases hmem
  rcases List.mem_cons.mp hmem with heq | hlater
  · cases heq
    rfl
  · -- the objects are applied without a further rendering
    rcases r with err | (_ | ⟨obj, objs⟩)
    · exact absurd hlater hrest.not_mem_of_ret
    · exact absurd hlater hrest.not_mem_of_ret
    · cases hrest.only (plain_applyEach _ _ _) _ hlater

theorem begun_applyHandler (h : Begun env (applyHandler isOpenShift inst t) w tr w')
    (hmem : (⟨.renderDir .handler data, answer⟩ : Called OperatorApi) ∈ tr) :
    ServableData isOpenShift tr data := by
  have hplain : ¬ OperatorOp.plain (.renderDir .handler data) = true := by
    simp [OperatorOp.plain]
  obtain ⟨tr₁, nodes, w₁, tr₂, -, hrest, rfl, hlater⟩ := h.after (plain_perform rfl) hplain hmem
  refine ServableData.mono ?_ (List.subset_append_right tr₁ tr₂)
  split at hrest
  · exact absurd hlater hrest.not_mem_of_ret
  dsimp only at hrest
  cases isOpenShift with
  | false => rw [begun_renderAndApply hrest hlater]; rfl
  | true =>
    obtain ⟨tr₃, r, w₂, tr₄, hhonored, hrender, rfl, hlast⟩ :=
      hrest.after plain_honoredTLSProfile hplain hlater
    rcases r with err | ⟨spec, warning⟩
    · exact absurd hlast hrender.not_mem_of_ret
    obtain ⟨u, hspec, -⟩ := exec_honoredTLSProfile hhonored
    rw [begun_renderAndApply hrender hlast]
    exact ⟨spec, u, hspec.mono (List.subset_append_left _ _), rfl⟩

theorem begun_applyManifests
    (h : Begun env (applyManifests isOpenShift pluginName inst) w tr w')
    (hmem : (⟨.renderDir .handler data, answer⟩ : Called OperatorApi) ∈ tr) :
    ServableData isOpenShift tr data := by
  have hplain : ¬ OperatorOp.plain (.renderDir .handler data) = true := by
    simp [OperatorOp.plain]
  obtain ⟨tr₁, w₁, hcomponents, hsub, hmem₁⟩ := h.before
    (fun r => by rcases r with err | t; exacts [trivial, plain_applyPlugin _ _ t]) hplain hmem
  refine ServableData.mono ?_ hsub
  obtain ⟨tr₂, r, w₂, tr₃, -, hrest, rfl, hmem₂⟩ :=
    hcomponents.after plain_applyBase hplain hmem₁
  refine ServableData.mono ?_ (List.subset_append_right tr₂ tr₃)
  rcases r with err | t
  · exact absurd hmem₂ hrest.not_mem_of_ret
  obtain ⟨tr₄, w₃, hhandler, hsub', hmem₃⟩ := hrest.before (C := fun _ => False)
    (fun r => by rcases r with err | t <;> trivial) not_false hmem₂
  exact (begun_applyHandler hhandler hmem₃).mono hsub'

/-- The components are only ever rendered with the TLS profile of the cluster as it was read for
this request, and only if they can serve it; away from OpenShift they get none. -/
theorem rolled_out_profile_servable
    (h : Begun env (reconcileOperator isOpenShift pluginName reqName) w tr w')
    (hmem : (⟨.renderDir .handler data, answer⟩ : Called OperatorApi) ∈ tr) :
    ServableData isOpenShift tr data := by
  cases reached_of_reconcileOperator rfl h hmem with
  | applying happly hsub hmem => exact (begun_applyManifests happly hmem).mono hsub
  | failing hfail hmem => cases hfail.only (renderless_setDegradedCondition _ _) _ hmem
  | reporting htr happly hsub hreport hlater hmem =>
    cases hreport.only (renderless_reconcileStatus _ _) _ hmem

/-- The custom profile of the healthy cluster is one that the components can serve. -/
theorem healthy_profile_servable :
    ∃ (tr : List (Called OperatorApi)) (data : RenderData) (answer : Except Err (List Manifest)),
      (⟨.renderDir .handler data, answer⟩ : Called OperatorApi) ∈ tr ∧
        ServableData true tr data := by
  obtain ⟨tr, outcome, w', h, hP⟩ := healthy_reconcile
  simp only [Bool.and_eq_true] at hP
  obtain ⟨⟨o, answer⟩, hmem, hrenders⟩ := List.any_eq_true.mp hP.1.2
  cases o with
  | renderDir dir data =>
    cases dir with
    | handler => exact ⟨tr, data, answer, hmem, rolled_out_profile_servable h.begun hmem⟩
    | _ => cases hrenders
  | _ => cases hrenders

/-! ### The warning -/

theorem exec_applyHandler_warning (hopenshift : isOpenShift = true)
    (h : Exec env (applyHandler isOpenShift inst t) w tr (.ok t') w') :
    ∃ spec u data objs, HonoredProfile tr spec u ∧ data.tlsProfile = some spec ∧
      (⟨.renderDir .handler data, .ok objs⟩ : Called OperatorApi) ∈ tr ∧
      t'.tlsProfileWarning = u.message := by
  obtain ⟨nodes, w₁, tr', -, hrest, rfl⟩ := Exec.of_perform h
  split at hrest
  · exact absurd hrest Exec.not_ok_of_error
  dsimp only at hrest
  rw [if_pos hopenshift] at hrest
  obtain ⟨tr₁, r, w₂, tr₂, hhonored, hrender, rfl⟩ := Exec.of_bind hrest
  rcases r with err | ⟨spec, warning⟩
  · exact absurd hrender Exec.not_ok_of_error
  obtain ⟨u, hspec, rfl⟩ := exec_honoredTLSProfile hhonored
  obtain ⟨hgrown, data, objs, hmem, -⟩ := exec_renderAndApply hrender
  have hdata := begun_renderAndApply hrender.begun hmem
  refine ⟨spec, u, data, objs, hspec.mono ?_, by rw [hdata], ?_, hgrown.tlsProfileWarning⟩
  · exact List.Subset.trans (List.subset_append_left _ _) (List.subset_cons_self _ _)
  · exact List.mem_cons_of_mem _ (List.mem_append_right _ hmem)

theorem exec_applyManifests_warning (hopenshift : isOpenShift = true)
    (h : Exec env (applyManifests isOpenShift pluginName inst) w tr (.ok t) w') :
    ∃ spec u data objs, HonoredProfile tr spec u ∧ data.tlsProfile = some spec ∧
      (⟨.renderDir .handler data, .ok objs⟩ : Called OperatorApi) ∈ tr ∧
      t.tlsProfileWarning = u.message := by
  obtain ⟨tr₁, r, w₁, tr₂, hcomponents, hplugin, rfl⟩ := Exec.of_bind h
  rcases r with err | t₁
  · exact absurd hplugin Exec.not_ok_of_error
  obtain ⟨tr₃, t₂, w₂, tr₄, -, hhandler, rfl⟩ := exec_thenApply hcomponents
  obtain ⟨spec, u, data, objs, hspec, hdata, hmem, hwarning⟩ :=
    exec_applyHandler_warning hopenshift hhandler
  have hsub : tr₄ ⊆ tr₃ ++ tr₄ ++ tr₂ :=
    List.Subset.trans (List.subset_append_right _ _) (List.subset_append_left _ _)
  refine ⟨spec, u, data, objs, hspec.mono hsub, hdata, hsub hmem, ?_⟩
  exact (exec_applyPlugin hplugin).1.tlsProfileWarning.trans hwarning

/-- An Available instance on OpenShift is also Degraded exactly if the profile the components were
rendered with has entries that they do not honor, and then the message names these entries. -/
theorem available_degraded_iff_not_fully_honored {conditions : NMStateConditions}
    {written : Except Err Unit} (hopenshift : isOpenShift = true)
    (h : Begun env (reconcileOperator isOpenShift pluginName reqName) w tr w')
    (hpatch : (⟨.patchStatus conditions, written⟩ : Called OperatorApi) ∈ tr)
    (havailable : conditions.isAvailable = true) :
    ∃ spec u data objs, HonoredProfile tr spec u ∧ data.tlsProfile = some spec ∧
      (⟨.renderDir .handler data, .ok objs⟩ : Called OperatorApi) ∈ tr ∧
      (conditions.isDegraded = true ↔ u.isEmpty = false) ∧
      (conditions.isDegraded = true → (conditions .degraded).map (·.message) = some u.message) := by
  cases reached_of_reconcileOperator rfl h hpatch with
  | applying happly hsub hmem =>
    cases happly.only (patchless_applyManifests _ _ _) _ hmem
  | failing hfail hmem =>
    obtain ⟨now, rfl⟩ := begun_setDegradedCondition hfail hmem
    cases havailable
  | reporting htr happly hsub hreport hlater hmem =>
    rcases begun_reconcileStatus hreport hmem with ⟨now, progressing, rfl⟩ | ⟨-, now, rfl⟩
    · cases havailable
    obtain ⟨spec, u, data, objs, hspec, hdata, hrender, hwarning⟩ :=
      exec_applyManifests_warning hopenshift happly
    have hsub' := List.Subset.trans hsub (htr ▸ List.subset_append_left _ _)
    refine ⟨spec, u, data, objs, hspec.mono hsub', hdata, hsub' hrender, ?_, ?_⟩
    · rw [isDegraded_setDeployed, hwarning, Ne, u.message_eq_empty_iff, Bool.not_eq_true]
    · rw [← hwarning]
      exact degraded_message_setDeployed _ _ _

end

/-- The custom profile of the healthy cluster leaves out suites that are always offered. -/
theorem healthy_profile_not_fully_honored :
    ∃ (tr : List (Called OperatorApi)) (spec : TLSProfileSpec) (u : UnsupportedEntries)
      (conditions : NMStateConditions), HonoredProfile tr spec u ∧
        conditions.isAvailable = true ∧ (conditions.isDegraded = true ↔ u.isEmpty = false) ∧
        (conditions.isDegraded = true →
          (conditions .degraded).map (·.message) = some u.message) := by
  obtain ⟨tr, outcome, w', h, hP⟩ := healthy_reconcile
  simp only [Bool.and_eq_true] at hP
  obtain ⟨conditions, answer, hpatch, havailable⟩ := exists_of_reportsAvailable hP.1.1
  obtain ⟨spec, u, data, objs, hspec, -, -, hdegraded⟩ :=
    available_degraded_iff_not_fully_honored rfl h.begun hpatch havailable
  exact ⟨tr, spec, u, conditions, hspec, havailable, hdegraded⟩
