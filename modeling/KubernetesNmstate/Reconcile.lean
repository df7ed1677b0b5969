/-
# The handler's procedures

`controllers/handler/nodenetworkconfigurationpolicy_controller.go` with the functions it
uses from `pkg/enactmentstatus`, `pkg/node/audit.go` and `pkg/policyconditions`, and
`reclaimInterruptedSlots` of `cmd/handler/main.go`, as procedures over `Api`.

Every definition keeps the name of its source function.  `Reconcile` is cut where the
source moves from one stage to the next: `reconcile` and `reconcileAndUpdate` read the policy and
defer the verdict, `reconcileInstance` prepares the enactment, `reconcileEnactment` decides what is
left to do for it, `claimAndApply`, `applyMarked` and `applyOnce` claim, mark and apply,
`finishApplied` and `recordFailure` end the two outcomes of an apply.
-/
import KubernetesNmstate.Api
import KubernetesNmstate.PolicyConditions
import KubernetesNmstate.FailureCount

/-! ## Retries -/

/-- `retry.DefaultRetry.Steps`. -/
def defaultRetry : ℕ := 5

/-- `slotReleaseBackoff.Steps`. -/
def slotReleaseBackoff : ℕ := 7

/-- `compensatingReleaseBackoff.Steps`. -/
def compensatingReleaseBackoff : ℕ := 5

/-- How often `wait.ExponentialBackoff` calls its function, with `steps` steps and waits that start
with `duration`, grow by `factor` and end with the first that would exceed `cap`. -/
def cappedAttempts (factor cap : ℕ) : (steps duration : ℕ) → ℕ
  | 0, _ => 0
  | 1, _ => 1
  | steps + 2, duration =>
    if cap < duration * factor then 1
    else cappedAttempts factor cap (steps + 1) (duration * factor) + 1

/-- The attempts of `startupListBackoff`: its seven steps end early, at the cap. -/
def startupListBackoff : ℕ := cappedAttempts 2 60 7 2

example : startupListBackoff = 5 := rfl

/-- `retry.OnError` with a predicate on errors, for a body without state. -/
def onError (retriable : Err → Bool) (steps : ℕ) (body : Proc (Except Err Unit)) :
    Proc (Except Err Unit) := do
  let r ← Prog.retryWith retriable (fun _ : Unit => do
    let r ← body
    return ((), r)) steps ()
  return r.2

/-- The predicate `func(error) bool { return true }`. -/
def allErrors : Err → Bool := fun _ => true

/-- `apierrors.IsConflict`, the predicate of `retry.RetryOnConflict`. -/
def isConflict : Err → Bool := fun e => e = .conflict

/-! ## `pkg/enactmentstatus` -/

/-- `enactmentstatus.Update`. -/
def enactmentStatusUpdate (change : Change) (setter : Time → EnactmentStatus → EnactmentStatus) :
    Proc (Except Err Unit) :=
  onError allErrors defaultRetry do
    match ← ask (.getEnactment (.update change)) with
    | .error e => return .error e
    | .ok status =>
      let now ← ask .now
      ask (.updateEnactmentStatus change (setter now status))

/-- `updateEnactmentConditions`, for one notification. -/
def notify (n : Notice) (message : String) : Proc (Except Err Unit) :=
  enactmentStatusUpdate (.notice n) fun now status =>
    { status with conditions := n.setter now status.conditions message }

/-- `NotifyGenerateFailure`. -/
def notifyGenerateFailure (err : Err) : Proc (Except Err Unit) :=
  notify .generateFailure ("failure generating desiredState and capturedStates: " ++ err.message)

/-- `NotifyProgressing`. -/
def notifyProgressing : Proc (Except Err Unit) := notify .progressing "Applying desired state"

/-- `NotifyFinalizing`. -/
def notifyFinalizing : Proc (Except Err Unit) :=
  notify .finalizing "Desired state applied, finalizing"

/-- `NotifyFailedToConfigure`. -/
def notifyFailedToConfigure (message : String) : Proc (Except Err Unit) :=
  notify .failedToConfigure message

/-- `NotifyRetrying`. -/
def notifyRetrying (message : String) : Proc (Except Err Unit) := notify .retrying message

/-- `NotifyAborted`. -/
def notifyAborted (message : String) : Proc (Except Err Unit) := notify .aborted message

/-- `NotifySuccess`. -/
def notifySuccess : Proc (Except Err Unit) := notify .success "successfully reconciled"

/-- `NotifyPending`. -/
def notifyPending : Proc (Except Err Unit) :=
  notify .pending "Waiting for progressing nodes to finish"

/-- The status `MarkInterrupted` writes. -/
def interruptedStatus (generationKey : Generation) (now : Time) (status : EnactmentStatus) :
    EnactmentStatus :=
  { status with
    conditions := Notice.interrupted.setter now status.conditions
      "interrupted by handler restart; waiting to be reapplied"
    retryCount := if status.retryCount = [] then [] else status.retryCount.put generationKey 0 }

/-- `MarkInterrupted`. -/
def markInterrupted (generationKey : Generation) : Proc (Except Err Unit) :=
  enactmentStatusUpdate (.notice .interrupted) (interruptedStatus generationKey)

/-! ## The counter: cap, claim, release, audit -/

/-- `MaxUnavailableNodeCount`. -/
def maxUnavailableNodeCount (policy : Policy) : Proc (ℤ × Option Err) := do
  match ← ask .listEnactments with
  | .error e => return (minMaxUnavailable, some e)
  | .ok (enactments, _) => return maxUnavailableFor enactments.length policy.spec

/-- One attempt of `incrementUnavailableNodeCount`; the policy read replaces the caller's. -/
def tryIncrementing (generationKey : Generation) (policy : Policy) :
    Proc (Policy × Except Err Unit) := do
  match ← ask (.getPolicy .cached (.increment generationKey)) with
  | .error e => return (policy, .error e)
  | .ok policy =>
    let (maxUnavailable, err) ← maxUnavailableNodeCount policy
    match err.filter Err.isInvalidMaxUnavailable with
    | some e => return (policy, .error e)
    | none =>
      if maxUnavailable ≤ policy.count generationKey then
        return (policy, .error .maxUnavailableLimitReached)
      else
        let now ← ask .now
        let policy := policy.stampCount generationKey (policy.count generationKey + 1) now
        let r ← ask (.updatePolicyStatus (.increment generationKey) policy)
        return (policy, r)

/-- `incrementUnavailableNodeCount`. -/
def incrementUnavailableNodeCount (policy : Policy) (generationKey : Generation) :
    Proc (Policy × Except Err Unit) :=
  Prog.retryWith (fun e => !e.isInvalidMaxUnavailable) (tryIncrementing generationKey)
    defaultRetry policy

/-- `tryDecrementingUnavailableNodeCount`. -/
def tryDecrementingUnavailableNodeCount (reader : Client) (generationKey : Generation)
    (backoff : ℕ) : Proc (Except Err Unit) :=
  onError allErrors backoff do
    match ← ask (.getPolicy reader (.decrement reader generationKey)) with
    | .error e => return .error e
    | .ok policy =>
      if policy.count generationKey ≤ 0 then return .ok ()
      else
        let now ← ask .now
        ask (.updatePolicyStatus (.decrement reader generationKey)
          (policy.stampCount generationKey (policy.count generationKey - 1) now))

/-- `decrementUnavailableNodeCount`: the cached client first, then the direct one. -/
def decrementUnavailableNodeCount (generationKey : Generation) : Proc (Except Err Unit) := do
  match ← tryDecrementingUnavailableNodeCount .cached generationKey defaultRetry with
  | .ok () => return .ok ()
  | .error _ => tryDecrementingUnavailableNodeCount .api generationKey slotReleaseBackoff

/-- The enactments `countSlotHolders` counts. -/
def isSlotHolder (generation : Generation) (now staleThreshold : Time) (e : Enactment) : Bool :=
  e.status.policyGeneration = generation ∧
    (isLiveHolder e.status.conditions now staleThreshold ∨ isTerminallyFailed e.status.conditions)

/-- The grace window since the last counter update is over. -/
def graceOver (last : Option Time) (now : Time) : Bool :=
  match last with
  | none => true
  | some last => last + auditGraceWindow ≤ now

theorem graceOver_mono {last : Option Time} {now later : Time} (hle : now ≤ later)
    (h : graceOver last now = true) : graceOver last later = true := by
  cases last with
  | none => rfl
  | some t => exact decide_eq_true (Nat.le_trans (of_decide_eq_true h) hle)

/-- The deferral test of `AuditUnavailableSlots`; the clock is read only when there is an
update to compare it with. -/
def graceElapsed (policy : Policy) : Proc Bool :=
  match policy.status.lastUnavailableNodeCountUpdate with
  | none => return true
  | some last => do
    let now ← ask .now
    return graceOver (some last) now

/-- The body of `AuditUnavailableSlots`; the flag says whether a repair was written. -/
def auditOnce (cfg : Config) : Proc (Bool × Except Err Unit) := do
  match ← ask (.getPolicy .api .audit) with
  | .error e => return (false, .error e)
  | .ok policy =>
    let elapsed ← graceElapsed policy
    if elapsed = false then return (false, .ok ())
    else
      let stored := policy.count policy.generation
      if stored = 0 then return (false, .ok ())
      else
        match ← ask .listEnactments with
        | .error e => return (false, .error e)
        | .ok (enactments, now) =>
          let holders : ℤ :=
            enactments.countP (isSlotHolder policy.generation now cfg.staleThreshold)
          if stored ≤ holders then return (false, .ok ())
          else
            let now ← ask .now
            match ← ask (.updatePolicyStatus .audit
                (policy.stampCount policy.generation holders now)) with
            | .error e => return (false, .error e)
            | .ok () => return (true, .ok ())

/-- `AuditUnavailableSlots`. -/
def auditUnavailableSlots (cfg : Config) : Proc (Bool × Except Err Unit) :=
  Prog.retryWith isConflict (fun _ : Bool => auditOnce cfg) defaultRetry false

/-- `releaseUnavailableSlotByAudit`. -/
def releaseUnavailableSlotByAudit (cfg : Config) : Proc (Except Err Unit) :=
  onError allErrors slotReleaseBackoff do
    let r ← auditUnavailableSlots cfg
    return r.2

/-- `claimUnavailableSlot`. -/
def claimUnavailableSlot (cfg : Config) (policy : Policy) (generationKey : Generation) :
    Proc (Policy × Except Err Unit) := do
  match ← incrementUnavailableNodeCount policy generationKey with
  | (policy, .error .maxUnavailableLimitReached) =>
    match ← auditUnavailableSlots cfg with
    | (true, .ok ()) => incrementUnavailableNodeCount policy generationKey
    | _ => return (policy, .error .maxUnavailableLimitReached)
  | r => return r

/-! ## `pkg/policyconditions` -/

/-- `NodesRunningNmstate`. -/
def nodesRunningNmstate (cfg : Config) (nodeSelector : Labels) : Proc (Except Err (List Node)) := do
  match ← ask (.listNodes nodeSelector) with
  | .error e => return .error e
  | .ok nodes =>
    if cfg.handlerNamespace = "" then
      return .error (.other ("failed to get nodes running nmstate: " ++
        "neither POD_NAMESPACE nor HANDLER_NAMESPACE is set"))
    else
      match ← ask .listPods with
      | .error e => return .error e
      | .ok pods => return .ok (nodesWithPods nodes pods)

/-- `policyconditions.update`. -/
def policyConditionsUpdateWith (cfg : Config) (policyReader : Client) : Proc (Except Err Unit) :=
  onError allErrors defaultRetry do
    match ← ask (.getPolicy policyReader .update) with
    | .error e => return .error e
    | .ok policy =>
      match ← ask .listEnactments with
      | .error e => return .error e
      | .ok (enactments, _) =>
        match ← nodesRunningNmstate cfg policy.spec.nodeSelector with
        | .error e => return .error e
        | .ok nodes =>
          let now ← ask .now
          ask (.updatePolicyStatus .update
            (setPolicyStatus now policy (calculatePolicyConditionStatus policy nodes enactments)))

/-- `policyconditions.Update`. -/
def policyConditionsUpdate (cfg : Config) : Proc (Except Err Unit) := do
  match ← policyConditionsUpdateWith cfg .cached with
  | .ok () => return .ok ()
  | .error _ => policyConditionsUpdateWith cfg .api

/-- The policy `policyconditions.Reset` writes. -/
def resetPolicyConditions (now : Time) (policy : Policy) : Policy :=
  { policy with status := { policy.status with conditions := setPolicyStatusUnknown now [] } }

/-- `policyconditions.Reset`. -/
def policyConditionsReset : Proc (Except Err Unit) :=
  onError isConflict defaultRetry do
    match ← ask (.getPolicy .cached .reset) with
    | .error e => return .error e
    | .ok policy =>
      let now ← ask .now
      ask (.updatePolicyStatus .reset (resetPolicyConditions now policy))

/-! ## Preparing the enactment -/

/-- `ctrl.Result`; the delay is in seconds. -/
structure Result where
  requeue : Bool := false
  requeueAfter : Time := 0
  deriving DecidableEq, Repr, Inhabited

/-- The result and the error of a `Reconcile`. -/
abbrev Outcome : Type := Result × Option Err

/-- `ctrl.Result{RequeueAfter: 10 * time.Second}, nil`. -/
def requeueShortly : Outcome := ({ requeueAfter := 10 }, none)

/-- The error of a call that returns nothing else. -/
def errorOf : Except Err Unit → Option Err
  | .ok () => none
  | .error e => some e

/-- `deleteEnactmentForPolicy`. -/
def deleteEnactmentForPolicy : Proc (Except Err Unit) := do
  match ← ask .deleteEnactment with
  | .ok () => return .ok ()
  | .error .notFound => return .ok ()
  | .error e => return .error e

/-- `UnmatchedNodeLabels`. -/
def unmatchedNodeLabels (client : Client) (policy : Policy) : Proc (Except Err Labels) := do
  match ← ask (.getNodeLabels client) with
  | .error e => return .error e
  | .ok labels => return .ok (unmatchingLabels policy.spec.nodeSelector labels)

/-- `waitEnactmentCreated`: poll once a second, for ten seconds. -/
def waitEnactmentCreated : ℕ → Proc (Except Err Unit)
  | 0 => return .error (.other "timed out waiting for the condition")
  | polls + 1 => do
    match ← ask (.getEnactment .wait) with
    | .ok _ => return .ok ()
    | .error .notFound => waitEnactmentCreated polls
    | .error e => return .error e

/-- The polls of `waitEnactmentCreated`. -/
def enactmentPolls : ℕ := 10

/-- The part of `initializeEnactment` that creates a missing enactment. -/
def createEnactment : Proc (Except Err EnactmentStatus) := do
  match ← ask (.getPolicy .api .create) with
  | .error e => return .error e
  | .ok freshPolicy =>
    match ← unmatchedNodeLabels .api freshPolicy with
    | .error e => return .error e
    | .ok (_ :: _) =>
      return .error (.other "node selector no longer matches after re-check")
    | .ok [] =>
      match ← ask (.getNodeLabels .api) with
      | .error e => return .error e
      | .ok _ =>
        let created ← ask .now
        match ← ask .createEnactment with
        | .error e => return .error e
        | .ok () =>
          match ← waitEnactmentCreated enactmentPolls with
          | .error e => return .error e
          | .ok () =>
            match ← enactmentStatusUpdate .create (fun _ _ => newEnactmentStatus created) with
            | .error e => return .error e
            | .ok () => ask (.getEnactment .refresh)

/-- `initializeEnactment`. -/
def initializeEnactment : Proc (Except Err EnactmentStatus) := do
  match ← ask (.getEnactment .lookup) with
  | .ok status => return .ok status
  | .error .notFound => createEnactment
  | .error e => return .error e

/-- The status `fillInEnactmentStatus` writes after a successful rendering. -/
def filledStatus (generation : Generation) (desired : State) (captured : CapturedStates)
    (features : List String) (status : EnactmentStatus) : EnactmentStatus :=
  { resetPolicyGeneration status generation with
    desiredState := desired
    capturedStates := captured
    features := features }

/-- `fillInEnactmentStatus`. -/
def fillInEnactmentStatus (cfg : Config) (policy : Policy) (enactment : EnactmentStatus) :
    Proc (Except Err Unit) := do
  match ← ask .nmstatectlShow with
  | .error e => return .error e
  | .ok currentState =>
    match ← ask (.generateState policy.spec currentState enactment.capturedStates) with
    | .error e =>
      match ← enactmentStatusUpdate .resetGeneration
          (fun _ status => resetPolicyGeneration status policy.generation) with
      | .error e2 => return .error e2
      | .ok () =>
        let _ ← notifyGenerateFailure e
        return .error e
    | .ok (capturedStates, generatedDesiredState) =>
      match cfg.applyDefaultVlanFiltering generatedDesiredState with
      | .error e => return .error e
      | .ok desiredStateWithDefaults =>
        let stats ← ask (.statistic desiredStateWithDefaults)
        let features := match stats with
          | .ok features => features
          | .error _ => []
        enactmentStatusUpdate .fill fun _ status =>
          filledStatus policy.generation desiredStateWithDefaults capturedStates features status

/-! ## Ending a reconcile -/

/-- `finalizeInterruptedApply`. -/
def finalizeInterruptedApply (cfg : Config) : Proc Outcome := do
  match ← notifySuccess with
  | .error _ => return requeueShortly
  | .ok () =>
    match ← releaseUnavailableSlotByAudit cfg with
    | .error _ => return requeueShortly
    | .ok () =>
      ask .forceNNSRefresh
      return ({}, none)

/-- The exit of `Reconcile` for an enactment that is already Available. -/
def releaseAvailable (cfg : Config) : Proc Outcome := do
  match ← releaseUnavailableSlotByAudit cfg with
  | .error _ => return requeueShortly
  | .ok () => return ({}, none)

/-- `shouldAbortReconcile`. -/
def shouldAbortReconcile (policy : Policy) : Proc (Except Err Bool) := do
  match ← maxUnavailableNodeCount policy with
  | (_, some e) => return .error e
  | (maxUnavailable, none) =>
    match ← ask .listEnactments with
    | .error e => return .error e
    | .ok (enactments, _) =>
      match countConditionsLogicalAnd (fun _ => failedFilter) policy.generation enactments with
      | .error e => return .error e
      | .ok failed => return .ok (maxUnavailable ≤ failed)

/-- The exits of `Reconcile` after a claim that met the cap or a conflict. -/
def handleRefusedClaim (i : NodeName) (policy : Policy) : Proc Outcome := do
  let _ ← notifyPending
  match ← shouldAbortReconcile policy with
  | .error e => return ({}, some e)
  | .ok true =>
    let _ ← notifyAborted
      ("reconciliation of enactment \"" ++ enactmentKey i policy.name ++ "\" has aborted")
    return ({}, none)
  | .ok false => return ({ requeue := true }, none)

/-- The exits of `Reconcile` after a claim that failed. -/
def handleClaimError (i : NodeName) (policy : Policy) (err : Err) : Proc Outcome :=
  match err with
  | .invalidMaxUnavailable _ => do
    let _ ← notifyFailedToConfigure err.message
    return ({}, none)
  | .conflict | .maxUnavailableLimitReached => handleRefusedClaim i policy
  | e => return ({}, some e)

/-- `incrementNNCERetryCount`, with the enactment read before the apply. -/
def incrementNNCERetryCount (enactment : EnactmentStatus) (generationKey : Generation) :
    Proc (Except Err Unit) :=
  enactmentStatusUpdate .retryCount fun _ status =>
    { status with
      retryCount := enactment.retryCount.put generationKey
        (enactment.retryCount.get generationKey + 1) }

/-- The exits of `Reconcile` after an apply that failed. -/
def recordFailure (cfg : Config) (i : NodeName) (enactment : EnactmentStatus)
    (generationKey : Generation) (output : String) (err : Err) : Proc Outcome := do
  match ← incrementNNCERetryCount enactment generationKey with
  | .error e => return ({}, some e)
  | .ok () =>
    let retries := enactment.retryCount.get generationKey + 1
    if cfg.retriesUntilFail ≤ retries then
      let _ ← notifyFailedToConfigure
        ("error reconciling NodeNetworkConfigurationPolicy on node " ++ i ++
          " at desired state apply: \"" ++ output ++ "\",\n " ++ err.message)
      return ({}, none)
    else
      let _ ← notifyRetrying
        ("failed to reconcile NodeNetworkConfigurationPolicy on node " ++ i ++ ". Retrying " ++
          toString (retries + 1) ++ "/" ++ toString cfg.retriesUntilFail)
      return ({ requeue := true }, none)

/-- The end of `Reconcile` after an apply that succeeded. -/
def finishApplied (generationKey : Generation) : Proc Outcome := do
  match ← onError allErrors slotReleaseBackoff notifyFinalizing with
  | .error _ => return requeueShortly
  | .ok () =>
    match ← decrementUnavailableNodeCount generationKey with
    | .error _ => return requeueShortly
    | .ok () =>
      match ← notifySuccess with
      | .error _ => return requeueShortly
      | .ok () =>
        ask .forceNNSRefresh
        return ({}, none)

/-! ## Reconcile -/

/-- The apply, and the two ways on from it. -/
def applyOnce (cfg : Config) (i : NodeName) (enactment : EnactmentStatus)
    (generationKey : Generation) : Proc Outcome := do
  match ← ask (.applyDesiredState enactment.desiredState) with
  | .error (output, e) => recordFailure cfg i enactment generationKey output e
  | .ok () => finishApplied generationKey

/-- `Reconcile` from the progressing marker on; `didClaim` says whether this reconcile
claimed the slot it is about to use. -/
def applyMarked (cfg : Config) (i : NodeName) (policy : Policy) (enactment : EnactmentStatus)
    (generationKey : Generation) (didClaim : Bool) : Proc Outcome := do
  match ← notifyProgressing with
  | .error _ =>
    if didClaim then
      let _ ← tryDecrementingUnavailableNodeCount .api generationKey compensatingReleaseBackoff
      return requeueShortly
    else return requeueShortly
  | .ok () =>
    if policyIsUnknown policy.status.conditions then
      let _ ← policyConditionsUpdate cfg
    applyOnce cfg i enactment generationKey

/-- `Reconcile` from the slot claim on. -/
def claimAndApply (cfg : Config) (i : NodeName) (policy : Policy)
    (previousConditions : ConditionList) (enactment : EnactmentStatus)
    (generationKey : Generation) : Proc Outcome := do
  let alreadyHoldsSlot := isProgressing enactment.conditions
  if alreadyHoldsSlot = false ∧ isRetrying previousConditions = false then
    match ← claimUnavailableSlot cfg policy generationKey with
    | (policy, .error e) => handleClaimError i policy e
    | (policy, .ok ()) => applyMarked cfg i policy enactment generationKey true
  else applyMarked cfg i policy enactment generationKey false

/-- `Reconcile` once the enactment status is filled in. -/
def reconcileEnactment (cfg : Config) (i : NodeName) (policy : Policy)
    (previousConditions : ConditionList) : Proc Outcome := do
  match ← ask (.getEnactment .stored) with
  | .error e => return ({}, some e)
  | .ok enactment =>
    let generationKey := enactment.policyGeneration
    match ← ask (.getPolicy .api .verify) with
    | .error .notFound =>
      let r ← deleteEnactmentForPolicy
      return ({}, errorOf r)
    | .error e => return ({}, some e)
    | .ok _ =>
      if cfg.retriesUntilFail ≤ enactment.retryCount.get generationKey then return ({}, none)
      else if isAvailable enactment.conditions then releaseAvailable cfg
      else if isFinalizing enactment.conditions then finalizeInterruptedApply cfg
      else claimAndApply cfg i policy previousConditions enactment generationKey

/-- `Reconcile` for a policy that was read. -/
def reconcileInstance (cfg : Config) (i : NodeName) (policy : Policy) : Proc Outcome := do
  match ← unmatchedNodeLabels .cached policy with
  | .error e => return ({}, some e)
  | .ok (_ :: _) =>
    let r ← deleteEnactmentForPolicy
    return ({}, errorOf r)
  | .ok [] =>
    match ← initializeEnactment with
    | .error e => return ({}, some e)
    | .ok enactment =>
      match ← fillInEnactmentStatus cfg policy enactment with
      | .error .notFound => return ({}, some .notFound)
      | .error _ => return ({}, none)
      | .ok () => reconcileEnactment cfg i policy enactment.conditions

/-- `Reconcile` for a policy that was read, with the verdict it defers. -/
def reconcileAndUpdate (cfg : Config) (i : NodeName) (policy : Policy) : Proc Outcome := do
  let outcome ← reconcileInstance cfg i policy
  let _ ← policyConditionsUpdate cfg
  return outcome

/-- `Reconcile` of the handler on node `i`. -/
def reconcile (cfg : Config) (i : NodeName) : Proc Outcome := do
  match ← ask (.getPolicy .cached .reconcile) with
  | .error .notFound =>
    let r ← deleteEnactmentForPolicy
    return ({}, errorOf r)
  | .error e => return ({}, some e)
  | .ok policy =>
    if policyIsProgressing policy.status.conditions = false then
      let _ ← policyConditionsReset
    reconcileAndUpdate cfg i policy

/-! ## Startup -/

/-- The loop of `reclaimInterruptedSlots` over the node's enactments. -/
def reclaimEach (cfg : Config) : List EnactmentStatus → Proc Unit
  | [] => return ()
  | enactment :: rest => do
    if isProgressing enactment.conditions then
      if isFinalizing enactment.conditions then
        match ← notifySuccess with
        | .error _ => reclaimEach cfg rest
        | .ok () =>
          let _ ← auditUnavailableSlots cfg
          reclaimEach cfg rest
      else
        match ← markInterrupted enactment.policyGeneration with
        | .error _ => reclaimEach cfg rest
        | .ok () =>
          let _ ← auditUnavailableSlots cfg
          reclaimEach cfg rest
    else reclaimEach cfg rest

/-- The retried list of `reclaimInterruptedSlots`. -/
def listOwnEnactments : Proc (List EnactmentStatus × Except Err Unit) :=
  Prog.retryWith allErrors (fun found => do
    match ← ask .listOwnEnactments with
    | .error e => return (found, .error e)
    | .ok enactments => return (enactments, .ok ())) startupListBackoff []

/-- `reclaimInterruptedSlots`. -/
def reclaimInterruptedSlots (cfg : Config) : Proc Unit := do
  match ← listOwnEnactments with
  | (_, .error _) => return ()
  | (enactments, .ok ()) => reclaimEach cfg enactments
