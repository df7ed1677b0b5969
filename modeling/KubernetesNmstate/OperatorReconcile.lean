/-
# A reconcile of the operator

`NMStateReconciler.Reconcile` of `controllers/operator/nmstate_controller.go` from the request to
the status of the instance.  The operator renders the manifests directory by directory, applies each
object, remembers the Deployments and DaemonSets among those it owns, and at the end reads these
back to report whether they are rolled out.  On OpenShift it also hands the TLS profile of the
cluster to the components.

The last section says which calls each procedure can make: the status is written at the end only,
and the components are rendered in one place.

Left out are the templates and the values they take over from the instance and the environment; of
the values that are computed, `RenderData` has all.
-/
import KubernetesNmstate.Executions
import KubernetesNmstate.Json
import KubernetesNmstate.Operator
import KubernetesNmstate.TlsProfile

/-! ## The TLS profile of the cluster -/

/-- `TLSProfileType`; any other string is `unknown`, the empty one included in `unset`. -/
inductive TLSProfileType : Type where
  | unset : TLSProfileType
  | old : TLSProfileType
  | intermediate : TLSProfileType
  | modern : TLSProfileType
  | custom : TLSProfileType
  | unknown (name : String) : TLSProfileType
  deriving DecidableEq, Repr, Inhabited

/-- The profile type a string stands for. -/
def TLSProfileType.ofString (s : String) : TLSProfileType :=
  if s = "" then .unset
  else if s = "Old" then .old
  else if s = "Intermediate" then .intermediate
  else if s = "Modern" then .modern
  else if s = "Custom" then .custom
  else .unknown s

/-- `tlsSecurityProfile`. -/
structure TLSSecurityProfile where
  profileType : TLSProfileType
  customSpec : Option TLSProfileSpec := none
  deriving DecidableEq, Repr, Inhabited

/-- `unstructured.NestedFieldNoCopy`; the text of the accessor error is that of its path. -/
def nestedField (path : String) : Json → List String → Except Err (Option Json)
  | value, [] => .ok (some value)
  | .null, _ :: _ => .ok none
  | .obj fields, field :: rest =>
    match fields.lookup field with
    | none => .ok none
    | some value => nestedField (path ++ "." ++ field) value rest
  | _, field :: _ => .error (.other (path ++ "." ++ field ++ " accessor error"))

/-- `unstructured.NestedMap`. -/
def nestedMap (value : Json) (fields : List String) : Except Err (Option JsonObject) :=
  match nestedField "" value fields with
  | .error err => .error err
  | .ok none => .ok none
  | .ok (some (.obj m)) => .ok (some m)
  | .ok (some _) => .error (.other ("." ++ ".".intercalate fields ++ " accessor error"))

/-- `unstructured.NestedString` with its error ignored. -/
def nestedString (m : JsonObject) (field : String) : String :=
  match m.lookup field with
  | some (.str s) => s
  | _ => ""

/-- The strings of a list that has nothing else. -/
def allStrings : List Json → Option (List String)
  | [] => some []
  | .str s :: rest => (allStrings rest).map (s :: ·)
  | _ :: _ => none

/-- `unstructured.NestedStringSlice` with its error ignored. -/
def nestedStringSlice (m : JsonObject) (field : String) : List String :=
  match m.lookup field with
  | some (.arr items) => (allStrings items).getD []
  | _ => []

/-- `parseTLSSecurityProfile`. -/
def parseTLSSecurityProfile (obj : Json) : Except Err (Option TLSSecurityProfile) :=
  match nestedMap obj ["spec", "tlsSecurityProfile"] with
  | .error err => .error (err.wrap "failed to extract spec.tlsSecurityProfile")
  | .ok none => .ok none
  | .ok (some profileMap) =>
    let profileType := TLSProfileType.ofString (nestedString profileMap "type")
    if profileType = .custom then
      match nestedMap (.obj profileMap) ["custom"] with
      | .ok (some customMap) =>
        .ok (some ⟨profileType, some
          { ciphers := nestedStringSlice customMap "ciphers"
            minTLSVersion := nestedString customMap "minTLSVersion"
            curves := nestedStringSlice customMap "curves" }⟩)
      | _ => .ok (some ⟨profileType, none⟩)
    else .ok (some ⟨profileType, none⟩)

/-- `TLSProfiles[TLSProfileOldType]`. -/
def tlsProfileOld : TLSProfileSpec where
  ciphers := ["TLS_AES_128_GCM_SHA256", "TLS_AES_256_GCM_SHA384", "TLS_CHACHA20_POLY1305_SHA256",
    "ECDHE-ECDSA-AES128-GCM-SHA256", "ECDHE-RSA-AES128-GCM-SHA256",
    "ECDHE-ECDSA-AES256-GCM-SHA384", "ECDHE-RSA-AES256-GCM-SHA384",
    "ECDHE-ECDSA-CHACHA20-POLY1305", "ECDHE-RSA-CHACHA20-POLY1305",
    "ECDHE-ECDSA-AES128-SHA256", "ECDHE-RSA-AES128-SHA256", "ECDHE-ECDSA-AES128-SHA",
    "ECDHE-RSA-AES128-SHA", "ECDHE-ECDSA-AES256-SHA", "ECDHE-RSA-AES256-SHA",
    "AES128-GCM-SHA256", "AES256-GCM-SHA384", "AES128-SHA256", "AES128-SHA", "AES256-SHA",
    "DES-CBC3-SHA"]
  minTLSVersion := "VersionTLS10"
  curves := []

/-- `TLSProfiles[TLSProfileIntermediateType]`. -/
def tlsProfileIntermediate : TLSProfileSpec where
  ciphers := ["TLS_AES_128_GCM_SHA256", "TLS_AES_256_GCM_SHA384", "TLS_CHACHA20_POLY1305_SHA256",
    "ECDHE-ECDSA-AES128-GCM-SHA256", "ECDHE-RSA-AES128-GCM-SHA256",
    "ECDHE-ECDSA-AES256-GCM-SHA384", "ECDHE-RSA-AES256-GCM-SHA384",
    "ECDHE-ECDSA-CHACHA20-POLY1305", "ECDHE-RSA-CHACHA20-POLY1305"]
  minTLSVersion := "VersionTLS12"
  curves := []

/-- `TLSProfiles[TLSProfileModernType]`. -/
def tlsProfileModern : TLSProfileSpec where
  ciphers := ["TLS_AES_128_GCM_SHA256", "TLS_AES_256_GCM_SHA384", "TLS_CHACHA20_POLY1305_SHA256"]
  minTLSVersion := "VersionTLS13"
  curves := []

/-- `GetTLSProfileSpec`. -/
def getTLSProfileSpec : Option TLSSecurityProfile → Except Err TLSProfileSpec
  | none => .ok tlsProfileIntermediate
  | some profile =>
    match profile.profileType with
    | .unset => .ok tlsProfileIntermediate
    | .old => .ok tlsProfileOld
    | .intermediate => .ok tlsProfileIntermediate
    | .modern => .ok tlsProfileModern
    | .unknown name => .error (.other ("unknown TLS profile type: \"" ++ name ++ "\""))
    | .custom =>
      match profile.customSpec with
      | none => .error (.other "custom TLS profile specified but Custom field is nil")
      | some spec => .ok spec

/-- `UnsupportedEntries.Message`. -/
def UnsupportedEntries.message (u : UnsupportedEntries) : String :=
  "; ".intercalate <|
    (if u.ciphers ≠ [] then ["unsupported ciphers ignored: " ++ ", ".intercalate u.ciphers]
      else []) ++
    (if u.curves ≠ [] then ["unsupported curves ignored: " ++ ", ".intercalate u.curves]
      else []) ++
    (if u.unenforceableCiphers ≠ [] then
      ["Go cannot restrict TLS 1.3 cipher suites, these are offered beyond the profile: " ++
        ", ".intercalate u.unenforceableCiphers]
      else [])

/-- `UnsupportedEntries.IsEmpty`. -/
def UnsupportedEntries.isEmpty (u : UnsupportedEntries) : Bool :=
  u.ciphers = [] ∧ u.curves = [] ∧ u.unenforceableCiphers = []

/-- There is a message exactly if there is something to say. -/
theorem UnsupportedEntries.message_eq_empty_iff (u : UnsupportedEntries) :
    u.message = "" ↔ u.isEmpty = true := by
  unfold message isEmpty
  by_cases hciphers : u.ciphers = []
  · by_cases hcurves : u.curves = []
    · by_cases hunenforceable : u.unenforceableCiphers = []
      · simp [hciphers, hcurves, hunenforceable]
      · simp [hciphers, hcurves, hunenforceable]
    · simp [hciphers, hcurves]
  · simp [hciphers]

/-- `Error()` of an error of the package. -/
def TlsErr.message : TlsErr → String
  | .unknownVersion versionName => "unknown tls version \"" ++ versionName ++ "\""
  | .unknownCipher cipherName => "unknown cipher name \"" ++ cipherName ++ "\""
  | .noSupportedCiphers => "TLS profile specifies ciphers but none are supported"
  | .noSupportedCurves => "TLS profile specifies curves but none are supported"

/-! ## Conditions of an instance -/

/-- `NmstateConditionAvailable`, `NmstateConditionDegraded`, `NmstateConditionProgressing`. -/
inductive NMStateConditionType : Type where
  | available : NMStateConditionType
  | degraded : NMStateConditionType
  | progressing : NMStateConditionType
  deriving DecidableEq, Repr, Inhabited

/-- The reasons of these conditions. -/
inductive NMStateReason : Type where
  | internalError : NMStateReason
  | deploying : NMStateReason
  | successfullyDeployed : NMStateReason
  | tlsProfileNotFullyHonored : NMStateReason
  deriving DecidableEq, Repr, Inhabited

/-- A condition of an instance. -/
structure NMStateCondition where
  status : ConditionStatus
  reason : NMStateReason
  message : String
  lastHeartbeatTime : Time
  lastTransitionTime : Time
  deriving DecidableEq, Repr, Inhabited

/-- The conditions of an instance; their order is not read. -/
abbrev NMStateConditions : Type := NMStateConditionType → Option NMStateCondition

/-- `ConditionList.Set`. -/
def NMStateConditions.set (now : Time) (conditions : NMStateConditions) (t : NMStateConditionType)
    (status : ConditionStatus) (reason : NMStateReason) (message : String) : NMStateConditions :=
  let lastTransitionTime :=
    match conditions t with
    | some old => if old.status = status then old.lastTransitionTime else now
    | none => now
  Function.update conditions t (some ⟨status, reason, message, now, lastTransitionTime⟩)

/-- The conditions `setDegradedCondition` sets. -/
def setDegraded (now : Time) (conditions : NMStateConditions) (message : String) :
    NMStateConditions :=
  ((conditions.set now .degraded .isTrue .internalError message).set now .available .isFalse
    .internalError message).set now .progressing .isFalse .internalError message

/-- The conditions `reconcileStatus` sets while something is progressing. -/
def setDeploying (now : Time) (conditions : NMStateConditions) (progressing : List String) :
    NMStateConditions :=
  ((conditions.set now .progressing .isTrue .deploying ("\n".intercalate progressing)).set now
    .available .isFalse .deploying "Deploying is in progress").set now
    .degraded .isFalse .deploying "Deploying is in progress"

/-- The conditions `reconcileStatus` sets when nothing is. -/
def setDeployed (now : Time) (conditions : NMStateConditions) (tlsProfileWarning : String) :
    NMStateConditions :=
  let deployed := (conditions.set now .progressing .isFalse .successfullyDeployed
    "All components are available and ready").set now .available .isTrue .successfullyDeployed
    "All components are available and ready"
  if tlsProfileWarning ≠ "" then
    deployed.set now .degraded .isTrue .tlsProfileNotFullyHonored tlsProfileWarning
  else
    deployed.set now .degraded .isFalse .successfullyDeployed
      "All components are available and ready"

/-! ## Calls -/

/-- `client.ObjectKey`. -/
structure ObjectKey where
  keyNamespace : String
  name : String
  deriving DecidableEq, Repr, Inhabited

/-- The kinds of rendered objects that are told apart. -/
inductive ManifestKind : Type where
  | deployment : ManifestKind
  | daemonSet : ManifestKind
  | other (kind : String) : ManifestKind
  deriving DecidableEq, Repr, Inhabited

/-- A rendered object. -/
structure Manifest where
  kind : ManifestKind
  key : ObjectKey
  deriving DecidableEq, Repr, Inhabited

/-- The directories of manifests. -/
inductive ManifestDir : Type where
  | crds : ManifestDir
  | namespace' : ManifestDir
  | rbac : ManifestDir
  | netpol : ManifestDir
  | handler : ManifestDir
  | uiPlugin : ManifestDir
  deriving DecidableEq, Repr, Inhabited

/-- The name of a directory. -/
def ManifestDir.name : ManifestDir → String
  | crds => "crds"
  | namespace' => "namespace"
  | rbac => "rbac"
  | netpol => "netpol"
  | handler => "handler"
  | uiPlugin => "openshift/ui-plugin"

/-- The instance owns the objects of the directory: `setControllerReference`. -/
def ManifestDir.owned : ManifestDir → Bool
  | crds => false
  | namespace' => false
  | _ => true

/-- The computed values the templates are rendered with. -/
structure RenderData where
  clusterReaderExists : Option Bool := none
  webhookMinReplicas : Option ℕ := none
  webhookReplicas : Option ℕ := none
  tlsProfile : Option TLSProfileSpec := none
  deriving DecidableEq, Repr, Inhabited

/-- The errors of a server-side apply. -/
inductive ApplyErr : Type where
  /-- `meta.IsNoMatchError`: the kind is not known to the cluster. -/
  | noMatch : ApplyErr
  | failed (err : Err) : ApplyErr
  deriving DecidableEq, Repr, Inhabited

/-- What `reconcileStatus` reads of a Deployment. -/
structure DeploymentRead where
  name : String
  generation : ℤ
  replicas : Option ℤ
  observedGeneration : ℤ
  availableReplicas : ℤ
  unavailableReplicas : ℤ
  deriving DecidableEq, Repr, Inhabited

/-- What `reconcileStatus` reads of a DaemonSet. -/
structure DaemonSetRead where
  name : String
  generation : ℤ
  observedGeneration : ℤ
  desiredNumberScheduled : ℤ
  updatedNumberScheduled : ℤ
  numberAvailable : ℤ
  numberUnavailable : ℤ
  deriving DecidableEq, Repr, Inhabited

/-- What `Reconcile` reads of the instance. -/
structure NMStateInstance where
  infraNodeSelector : Option Labels
  infraTolerations : Option (List Toleration)
  conditions : NMStateConditions

/-- The calls of the operator for a request. -/
inductive OperatorOp : Type where
  | getNMState : OperatorOp
  | listNMStates : OperatorOp
  | deleteNMState : OperatorOp
  | uiPluginPathExists : OperatorOp
  | renderDir (dir : ManifestDir) (data : RenderData) : OperatorOp
  | setControllerReference (obj : Manifest) : OperatorOp
  | applyManifest (obj : Manifest) : OperatorOp
  | getClusterReader : OperatorOp
  | listInfraNodes (nodeSelector : Labels) : OperatorOp
  | getAPIServer : OperatorOp
  | getConsolePlugins : OperatorOp
  | updateConsolePlugins (plugins : List String) : OperatorOp
  | deleteCertManager : OperatorOp
  | deleteWebhookSecret : OperatorOp
  | getDeployment (key : ObjectKey) : OperatorOp
  | getDaemonSet (key : ObjectKey) : OperatorOp
  | patchStatus (conditions : NMStateConditions) : OperatorOp
  | now : OperatorOp

/-- The answer to each call.  `listNMStates` is answered with the listing as `sort.Slice` leaves
it. -/
@[reducible] def OperatorOp.Resp : OperatorOp → Type
  | getNMState => Except Err NMStateInstance
  | listNMStates => Except Err (List NMState)
  | deleteNMState => Except Err Unit
  | uiPluginPathExists => Bool
  | renderDir _ _ => Except Err (List Manifest)
  | setControllerReference _ => Except Err Unit
  | applyManifest _ => Except ApplyErr Unit
  | getClusterReader => Except Err Unit
  | listInfraNodes _ => Except Err (List TaintedNode)
  | getAPIServer => Except Err Json
  | getConsolePlugins => Except Err (List String)
  | updateConsolePlugins _ => Except Err Unit
  | deleteCertManager => Except Err Unit
  | deleteWebhookSecret => Except Err Unit
  | getDeployment _ => Except Err DeploymentRead
  | getDaemonSet _ => Except Err DaemonSetRead
  | patchStatus _ => Except Err Unit
  | now => Time

/-- The interface of the operator. -/
abbrev OperatorApi : Sig := ⟨OperatorOp, OperatorOp.Resp⟩

/-- A procedure of the operator. -/
abbrev OperatorProc (α : Type) : Type := Prog OperatorApi α

/-- Issue one call. -/
def askOperator (o : OperatorOp) : OperatorProc o.Resp := Prog.perform (S := OperatorApi) o

/-! ## Applying the manifests -/

/-- The fields of the reconciler that a request sets. -/
structure Tracked where
  deployments : List ObjectKey := []
  daemonSets : List ObjectKey := []
  tlsProfileWarning : String := ""
  deriving DecidableEq, Repr, Inhabited

/-- Remember an owned workload. -/
def Tracked.track (t : Tracked) (obj : Manifest) : Tracked :=
  match obj.kind with
  | .deployment => { t with deployments := t.deployments ++ [obj.key] }
  | .daemonSet => { t with daemonSets := t.daemonSets ++ [obj.key] }
  | .other _ => t

/-- The apply of one object; a kind the cluster does not know is skipped. -/
def applyObject (obj : Manifest) : OperatorProc (Except Err Unit) := do
  match ← askOperator (.applyManifest obj) with
  | .ok () => return .ok ()
  | .error .noMatch => return .ok ()
  | .error (.failed err) =>
    return .error (err.wrap "failed applying server-side apply on nmstate owned resource")

/-- The owner reference of one object. -/
def ownObject (owned : Bool) (obj : Manifest) (t : Tracked) :
    OperatorProc (Except Err Tracked) := do
  if owned then
    match ← askOperator (.setControllerReference obj) with
    | .error err => return .error (err.wrap "failed to set owner reference")
    | .ok () => return .ok (t.track obj)
  else return .ok t

/-- The loop of `renderAndApply`. -/
def applyEach (owned : Bool) : List Manifest → Tracked → OperatorProc (Except Err Tracked)
  | [], t => return .ok t
  | obj :: rest, t =>
    if obj.key.name = "" then applyEach owned rest t
    else do
      match ← ownObject owned obj t with
      | .error err => return .error err
      | .ok t =>
        match ← applyObject obj with
        | .error err => return .error err
        | .ok () => applyEach owned rest t

/-- `renderAndApply`. -/
def renderAndApply (data : RenderData) (dir : ManifestDir) (t : Tracked) :
    OperatorProc (Except Err Tracked) := do
  match ← askOperator (.renderDir dir data) with
  | .error err => return .error (err.wrap ("failed to render kubernetes-nmstate " ++ dir.name))
  | .ok [] =>
    return .error (.other ("no manifests rendered from bindata/kubernetes-nmstate/" ++ dir.name))
  | .ok (obj :: objs) => applyEach dir.owned (obj :: objs) t

/-- `setClusterReaderExist`. -/
def setClusterReaderExist : OperatorProc (Except Err Bool) := do
  match ← askOperator .getClusterReader with
  | .ok () => return .ok true
  | .error .notFound => return .ok false
  | .error err => return .error err

/-- `applyRBAC`. -/
def applyRBAC (t : Tracked) : OperatorProc (Except Err Tracked) := do
  match ← setClusterReaderExist with
  | .error err =>
    return .error (err.wrap "failed checking if cluster-reader ClusterRole exists")
  | .ok found => renderAndApply { clusterReaderExists := some found } .rbac t

/-- `FetchAPIServerTLSProfile`. -/
def fetchAPIServerTLSProfile : OperatorProc (Except Err TLSProfileSpec) := do
  match ← askOperator .getAPIServer with
  | .error err => return .error (err.wrap "failed to get APIServer \"/cluster\"")
  | .ok obj =>
    match parseTLSSecurityProfile obj with
    | .error err =>
      return .error (err.wrap "failed to parse TLS profile from APIServer \"/cluster\"")
    | .ok profile =>
      match getTLSProfileSpec profile with
      | .error err =>
        return .error (err.wrap "failed to get TLS profile from APIServer \"/cluster\"")
      | .ok spec => return .ok spec

/-- The part of `applyHandler` for OpenShift: the profile to render, and its warning. -/
def honoredTLSProfile : OperatorProc (Except Err (TLSProfileSpec × String)) := do
  match ← fetchAPIServerTLSProfile with
  | .error err => return .error (err.wrap "failed fetching TLS profile for ConfigMap")
  | .ok spec =>
    match newTLSConfigFromProfile spec with
    | (_, .error err) =>
      return .error (.other ("cluster TLS profile cannot be honored: " ++ err.message))
    | (unsupported, .ok _) => return .ok (spec, unsupported.message)

/-- The default node selectors. -/
def linuxNodes : Labels := [("kubernetes.io/os", "linux")]

/-- `applyHandler`. -/
def applyHandler (isOpenShift : Bool) (inst : NMStateInstance) (t : Tracked) :
    OperatorProc (Except Err Tracked) := do
  let nodes ← askOperator (.listInfraNodes (inst.infraNodeSelector.getD linuxNodes))
  match webhookReplicaCount nodes
      (inst.infraTolerations.getD masterExistsNoScheduleTolerations) with
  | (_, _, some err) => return .error (err.wrap "could not get min replica count for webhook")
  | (minimum, desired, none) =>
    let data : RenderData := { webhookMinReplicas := some minimum, webhookReplicas := some desired }
    if isOpenShift then
      match ← honoredTLSProfile with
      | .error err => return .error err
      | .ok (spec, warning) =>
        renderAndApply { data with tlsProfile := some spec } .handler
          { t with tlsProfileWarning := warning }
    else renderAndApply data .handler t

/-- `patchOpenshiftConsolePlugin`. -/
def patchOpenshiftConsolePlugin (pluginName : String) : OperatorProc (Except Err Unit) := do
  match ← askOperator .getConsolePlugins with
  | .error err => return .error err
  | .ok plugins =>
    if pluginName ∈ plugins then return .ok ()
    else askOperator (.updateConsolePlugins (plugins ++ [pluginName]))

/-- `applyOpenshiftUIPlugin` and `patchOpenshiftConsolePlugin`, where there is a plugin. -/
def applyPlugin (isOpenShift : Bool) (pluginName : String) (t : Tracked) :
    OperatorProc (Except Err Tracked) := do
  let pathExists ← askOperator .uiPluginPathExists
  if isOpenShift ∧ pathExists then
    match ← renderAndApply {} .uiPlugin t with
    | .error err => return .error (err.wrap "failed applying UI Plugin")
    | .ok t =>
      match ← patchOpenshiftConsolePlugin pluginName with
      | .error err =>
        return .error (err.wrap "failed enabling the plugin in cluster's console")
      | .ok () => return .ok t
  else return .ok t

/-- One step of `applyManifests`. -/
def thenApply (context : String) (step : Tracked → OperatorProc (Except Err Tracked))
    (before : OperatorProc (Except Err Tracked)) : OperatorProc (Except Err Tracked) := do
  match ← before with
  | .error err => return .error err
  | .ok t =>
    match ← step t with
    | .error err => return .error (err.wrap context)
    | .ok t => return .ok t

/-- The steps of `applyManifests` before the handler. -/
def applyBase : OperatorProc (Except Err Tracked) :=
  thenApply "failed applying network policies" (renderAndApply {} .netpol) <|
  thenApply "failed applying RBAC" applyRBAC <|
  thenApply "failed applying Namespace" (renderAndApply {} .namespace') <|
  thenApply "failed applying CRDs" (renderAndApply {} .crds) <| return .ok {}

/-- The steps of `applyManifests` up to the handler. -/
def applyComponents (isOpenShift : Bool) (inst : NMStateInstance) :
    OperatorProc (Except Err Tracked) :=
  thenApply "failed applying Handler" (applyHandler isOpenShift inst) applyBase

/-- `applyManifests`. -/
def applyManifests (isOpenShift : Bool) (pluginName : String) (inst : NMStateInstance) :
    OperatorProc (Except Err Tracked) := do
  match ← applyComponents isOpenShift inst with
  | .error err => return .error err
  | .ok t => applyPlugin isOpenShift pluginName t

/-- A deletion of `cleanupObsoleteResources`. -/
def deleteObsolete (context : String) (answer : Except Err Unit) : Except Err Unit :=
  match answer with
  | .ok () => .ok ()
  | .error .notFound => .ok ()
  | .error err => .error (err.wrap context)

/-- `cleanupObsoleteResources`. -/
def cleanupObsoleteResources (isOpenShift : Bool) : OperatorProc (Except Err Unit) := do
  if isOpenShift then
    let deployment ← askOperator .deleteCertManager
    match deleteObsolete "failed deleting obsolete cert-manager deployment at openshift"
        deployment with
    | .error err => return .error err
    | .ok () =>
      let secret ← askOperator .deleteWebhookSecret
      return deleteObsolete "failed deleting old webhook secret at openshift" secret
  else return .ok ()

/-! ## Reporting -/

/-- What is still to come of a Deployment. -/
def DeploymentRead.progress (d : DeploymentRead) : Option String :=
  if d.unavailableReplicas > 0 then
    some ("Deployment \"" ++ d.name ++ "\" is not available (awaiting " ++
      toString d.unavailableReplicas ++ " nodes)")
  else if d.availableReplicas = 0 ∧ d.replicas.all (fun replicas => replicas > 0) then
    some ("Deployment \"" ++ d.name ++ "\" is not yet scheduled on any nodes")
  else if d.observedGeneration < d.generation then
    some ("Deployment \"" ++ d.name ++ "\" update is being processed (generation " ++
      toString d.generation ++ ", observed generation " ++ toString d.observedGeneration ++ ")")
  else none

/-- What is still to come of a DaemonSet. -/
def DaemonSetRead.progress (d : DaemonSetRead) : Option String :=
  if d.numberUnavailable > 0 then
    some ("DaemonSet \"" ++ d.name ++ "\" is not available (awaiting " ++
      toString d.numberUnavailable ++ " nodes)")
  else if d.numberAvailable = 0 ∧ d.desiredNumberScheduled ≠ 0 then
    some ("DaemonSet \"" ++ d.name ++ "\" is not yet scheduled on any nodes")
  else if d.updatedNumberScheduled < d.desiredNumberScheduled then
    some ("DaemonSet \"" ++ d.name ++ "\" update is rolling out (" ++
      toString d.updatedNumberScheduled ++ " out of " ++ toString d.desiredNumberScheduled ++
      " updated)")
  else if d.generation > d.observedGeneration then
    some ("DaemonSet \"" ++ d.name ++ "\" update is being processed (generation " ++
      toString d.generation ++ ", observed generation " ++ toString d.observedGeneration ++ ")")
  else none

/-- The loops of `reconcileStatus` over the remembered workloads of a kind: read each, skip those
that are not found, and collect what is still to come. -/
def collectProgress {ρ : Type} (context : String) (get : ObjectKey → OperatorProc (Except Err ρ))
    (progress : ρ → Option String) :
    List ObjectKey → List String → OperatorProc (Except Err (List String))
  | [], progressing => return .ok progressing
  | key :: rest, progressing => do
    match ← get key with
    | .error .notFound => collectProgress context get progress rest progressing
    | .error err => return .error (err.wrap context)
    | .ok read => collectProgress context get progress rest (progressing ++ (progress read).toList)

/-- `reconcileStatus`. -/
def reconcileStatus (inst : NMStateInstance) (t : Tracked) : OperatorProc (Except Err Unit) := do
  match ← collectProgress "failed to get deployment" (fun key => askOperator (.getDeployment key))
      DeploymentRead.progress t.deployments [] with
  | .error err => return .error err
  | .ok progressing =>
    match ← collectProgress "failed to get daemonset" (fun key => askOperator (.getDaemonSet key))
        DaemonSetRead.progress t.daemonSets progressing with
    | .error err => return .error err
    | .ok progressing =>
      let now ← askOperator .now
      if progressing ≠ [] then
        askOperator (.patchStatus (setDeploying now inst.conditions progressing))
      else askOperator (.patchStatus (setDeployed now inst.conditions t.tlsProfileWarning))

/-- `setDegradedCondition`; its error is only logged. -/
def setDegradedCondition (inst : NMStateInstance) (err : Err) : OperatorProc Unit := do
  let now ← askOperator .now
  let _ ← askOperator (.patchStatus (setDegraded now inst.conditions err.message))
  return ()

/-- `Reconcile` for an instance that is kept. -/
def reconcileInstalled (isOpenShift : Bool) (pluginName : String) (inst : NMStateInstance) :
    OperatorProc (Option Err) := do
  match ← applyManifests isOpenShift pluginName inst with
  | .error err =>
    setDegradedCondition inst err
    return some err
  | .ok t =>
    match ← cleanupObsoleteResources isOpenShift with
    | .error err => return some err
    | .ok () =>
      match ← reconcileStatus inst t with
      | .error err => return some (err.wrap "failed reconciling status")
      | .ok () => return none

/-- `NMStateReconciler.Reconcile` for the instance of a name; `none` is the end without an error. -/
def reconcileOperator (isOpenShift : Bool) (pluginName reqName : String) :
    OperatorProc (Option Err) := do
  match ← askOperator .getNMState with
  | .error .notFound => return none
  | .error err => return some err
  | .ok inst =>
    match ← askOperator .listNMStates with
    | .error err =>
      let err := err.wrap "failed listing all NMState instances"
      setDegradedCondition inst err
      return some err
    | .ok (first :: _) =>
      if first.name ≠ reqName then
        let _ ← askOperator .deleteNMState
        return none
      else reconcileInstalled isOpenShift pluginName inst
    | .ok [] => reconcileInstalled isOpenShift pluginName inst

/-! ## Which calls are made where -/

/-- A call that neither writes the status nor renders the components. -/
def OperatorOp.plain : OperatorOp → Bool
  | .patchStatus _ => false
  | .renderDir .handler _ => false
  | _ => true

/-- A procedure made of such calls. -/
abbrev Plain {α : Type} (p : OperatorProc α) : Prop :=
  p.Only fun o : OperatorOp => o.plain = true

/-- A call that writes the status. -/
def OperatorOp.patches : OperatorOp → Bool
  | .patchStatus _ => true
  | _ => false

/-- A procedure that does not write the status. -/
abbrev Patchless {α : Type} (p : OperatorProc α) : Prop :=
  p.Only fun o : OperatorOp => o.patches = false

/-- A call that renders the components. -/
def OperatorOp.rendersHandler : OperatorOp → Bool
  | .renderDir .handler _ => true
  | _ => false

/-- A procedure that does not render the components. -/
abbrev Renderless {α : Type} (p : OperatorProc α) : Prop :=
  p.Only fun o : OperatorOp => o.rendersHandler = false

section

variable {α : Type}

theorem plain_ask {o : OperatorOp} {f : o.Resp → OperatorProc α} (ho : o.plain = true)
    (hf : ∀ r, Plain (f r)) : Plain (askOperator o >>= f) :=
  Prog.Only.bind (.perform ho) hf

theorem plain_perform {o : OperatorOp} (ho : o.plain = true) : Plain (askOperator o) :=
  ⟨ho, fun _ => trivial⟩

theorem plain_applyObject (obj : Manifest) : Plain (applyObject obj) := by
  refine plain_ask rfl fun r => ?_
  rcases r with (_ | err) | ⟨⟩ <;> trivial

theorem plain_ownObject (owned : Bool) (obj : Manifest) (t : Tracked) :
    Plain (ownObject owned obj t) := by
  unfold ownObject
  split
  · refine plain_ask rfl fun r => ?_
    rcases r with err | ⟨⟩ <;> trivial
  · trivial

theorem plain_applyEach (owned : Bool) (objs : List Manifest) (t : Tracked) :
    Plain (applyEach owned objs t) := by
  induction objs generalizing t with
  | nil => trivial
  | cons obj rest ih =>
    rw [applyEach]
    split
    · exact ih t
    · refine (plain_ownObject owned obj t).bind fun r => ?_
      rcases r with err | t
      · trivial
      · refine (plain_applyObject obj).bind fun r => ?_
        rcases r with err | ⟨⟩
        · trivial
        · exact ih t

theorem plain_renderAndApply (data : RenderData) {dir : ManifestDir} (hdir : dir ≠ .handler)
    (t : Tracked) : Plain (renderAndApply data dir t) := by
  have hrender : OperatorOp.plain (.renderDir dir data) = true := by
    cases dir <;> first
      | rfl
      | exact absurd rfl hdir
  refine plain_ask hrender fun r => ?_
  rcases r with err | (_ | ⟨obj, objs⟩)
  · trivial
  · trivial
  · exact plain_applyEach _ _ _

theorem Plain.patchless {p : OperatorProc α} (h : Plain p) : Patchless p := by
  refine h.mono fun o ho => ?_
  cases o <;> first
    | rfl
    | cases ho

theorem Plain.renderless {p : OperatorProc α} (h : Plain p) : Renderless p := by
  refine h.mono fun o ho => ?_
  cases o with
  | renderDir dir data =>
    cases dir <;> first
      | rfl
      | cases ho
  | _ => rfl

theorem patchless_renderAndApply (data : RenderData) (dir : ManifestDir) (t : Tracked) :
    Patchless (renderAndApply data dir t) := by
  refine Prog.Only.bind (.perform rfl) fun r => ?_
  rcases r with err | (_ | ⟨obj, objs⟩)
  · trivial
  · trivial
  · exact (plain_applyEach _ _ _).patchless

theorem plain_applyRBAC (t : Tracked) : Plain (applyRBAC t) := by
  have hreader : Plain setClusterReaderExist := by
    refine plain_ask rfl fun r => ?_
    rcases r with err | ⟨⟩
    · cases err <;> trivial
    · trivial
  refine hreader.bind fun r => ?_
  rcases r with err | found
  · trivial
  · exact plain_renderAndApply _ (by decide) _

theorem plain_honoredTLSProfile : Plain honoredTLSProfile := by
  have hfetch : Plain fetchAPIServerTLSProfile := by
    refine plain_ask rfl fun r => ?_
    rcases r with err | obj
    · trivial
    · dsimp only
      split
      · trivial
      · split <;> trivial
  refine hfetch.bind fun r => ?_
  rcases r with err | spec
  · trivial
  · dsimp only
    split <;> trivial

theorem patchless_applyHandler (isOpenShift : Bool) (inst : NMStateInstance) (t : Tracked) :
    Patchless (applyHandler isOpenShift inst t) := by
  refine Prog.Only.bind (.perform rfl) fun nodes => ?_
  split
  · trivial
  · split
    · refine plain_honoredTLSProfile.patchless.bind fun r => ?_
      rcases r with err | ⟨spec, warning⟩
      · trivial
      · exact patchless_renderAndApply _ _ _
    · exact patchless_renderAndApply _ _ _

theorem only_thenApply {C : OperatorOp → Prop} {context : String}
    {step : Tracked → OperatorProc (Except Err Tracked)}
    {before : OperatorProc (Except Err Tracked)}
    (hstep : ∀ t, (step t).Only C) (hbefore : before.Only C) :
    (thenApply context step before).Only C := by
  refine hbefore.bind fun r => ?_
  rcases r with err | t
  · trivial
  · refine (hstep t).bind fun r => ?_
    rcases r with err | t <;> trivial

theorem plain_applyPlugin (isOpenShift : Bool) (pluginName : String) (t : Tracked) :
    Plain (applyPlugin isOpenShift pluginName t) := by
  have hconsole : Plain (patchOpenshiftConsolePlugin pluginName) := by
    refine plain_ask rfl fun r => ?_
    rcases r with err | plugins
    · trivial
    · dsimp only
      split
      · trivial
      · exact .perform rfl
  refine plain_ask rfl fun pathExists => ?_
  split
  · refine (plain_renderAndApply _ (by decide) _).bind fun r => ?_
    rcases r with err | t
    · trivial
    · refine hconsole.bind fun r => ?_
      rcases r with err | ⟨⟩ <;> trivial
  · trivial

theorem plain_applyBase : Plain applyBase := by
  refine only_thenApply (plain_renderAndApply {} (by decide)) ?_
  refine only_thenApply plain_applyRBAC ?_
  refine only_thenApply (plain_renderAndApply {} (by decide)) ?_
  exact only_thenApply (plain_renderAndApply {} (by decide)) trivial

theorem patchless_applyManifests (isOpenShift : Bool) (pluginName : String)
    (inst : NMStateInstance) : Patchless (applyManifests isOpenShift pluginName inst) := by
  have hcomponents : Patchless (applyComponents isOpenShift inst) :=
    only_thenApply (patchless_applyHandler isOpenShift inst) plain_applyBase.patchless
  refine hcomponents.bind fun r => ?_
  rcases r with err | t
  · trivial
  · exact (plain_applyPlugin _ _ _).patchless

theorem plain_cleanupObsoleteResources (isOpenShift : Bool) :
    Plain (cleanupObsoleteResources isOpenShift) := by
  unfold cleanupObsoleteResources
  split
  · refine plain_ask rfl fun r => ?_
    split
    · trivial
    · exact plain_ask rfl fun r => trivial
  · trivial

theorem plain_collectProgress {ρ : Type} {context : String}
    {get : ObjectKey → OperatorProc (Except Err ρ)} {progress : ρ → Option String}
    (hget : ∀ key, Plain (get key)) (keys : List ObjectKey) (progressing : List String) :
    Plain (collectProgress context get progress keys progressing) := by
  induction keys generalizing progressing with
  | nil => trivial
  | cons key rest ih =>
    refine (hget key).bind fun r => ?_
    rcases r with err | read
    · cases err with
      | notFound => exact ih progressing
      | conflict | maxUnavailableLimitReached | invalidMaxUnavailable _ | other _ => trivial
    · exact ih _

theorem renderless_setDegradedCondition (inst : NMStateInstance) (err : Err) :
    Renderless (setDegradedCondition inst err) := by
  refine (plain_perform rfl).renderless.bind fun now => ?_
  exact Prog.Only.bind (.perform rfl) fun r => trivial

theorem renderless_reconcileStatus (inst : NMStateInstance) (t : Tracked) :
    Renderless (reconcileStatus inst t) := by
  refine (plain_collectProgress (fun _ => plain_perform rfl) _ _).renderless.bind fun r => ?_
  rcases r with err | progressing
  · trivial
  refine (plain_collectProgress (fun _ => plain_perform rfl) _ _).renderless.bind fun r => ?_
  rcases r with err | progressing
  · trivial
  refine (plain_perform rfl).renderless.bind fun now => ?_
  split
  · exact .perform rfl
  · exact .perform rfl

end
