/-
# The services a handler calls

A handler works through calls: to the API server (with a cached client or directly),
to `nmstatectl`, and to its clock.  `Op` lists them with what each one carries, `Api`
is the interface in the sense of `Prog`, and `serve` says what a call answers and does
to the cluster.

The cluster holds one policy with every version of it ever committed.  A direct read
returns the newest version and a cached read any version; a status write of the policy
is committed when it carries the newest `resourceVersion` and is a conflict otherwise.
An enactment is written by the handler of its own node only.  Every call can fail, and
a call that fails leaves the cluster as it is.

It does not leave the memory of the handler as it is.  The `DeepCopyInto` of the policy's
status copies the conditions only, so that an object read through the cache shares
`UnavailableNodeCountMap` with the cached one.  A claim or a release changes its entry in
place, before the status write and whatever becomes of it, and the next cached read of that
version shows the change.  The direct client decodes what it reads into the object the
release has at hand, which keeps the entries that are not stored any more.  `Memory` is
what a handler keeps of both.

What the handler of one node sees of all this is `handlerEnv`, and `clusterEnv` is the whole
cluster while only that handler works.

Some calls name their caller.  The names change nothing in `serve`; they let the
later modules say which part of the handler made a call.
-/
import KubernetesNmstate.Prog
import KubernetesNmstate.EnactmentConditions
import KubernetesNmstate.Nodes
import KubernetesNmstate.Probe

/-! ## Calls -/

/-- The two clients of the reconciler: `r.Client` and `r.APIClient`. -/
inductive Client : Type where
  | cached : Client
  | api : Client
  deriving DecidableEq, Repr, Inhabited

/-- The functions that read or write the policy. -/
inductive Caller : Type where
  | reconcile : Caller
  | create : Caller
  | verify : Caller
  | increment (key : Generation) : Caller
  | decrement (reader : Client) (key : Generation) : Caller
  | audit : Caller
  | update : Caller
  | reset : Caller
  deriving DecidableEq, Repr, Inhabited

/-- The caller gives back a slot of `key`. -/
def Caller.releases (key : Generation) : Caller → Bool
  | .decrement _ k => k = key
  | _ => false

/-- What a status write of an enactment is for. -/
inductive Change : Type where
  | create : Change
  | resetGeneration : Change
  | fill : Change
  | retryCount : Change
  | notice (n : Notice) : Change
  deriving DecidableEq, Repr, Inhabited

/-- The places an enactment is read at: before and after its creation, while waiting for
it, after its status was filled in, and inside `enactmentstatus.Update`. -/
inductive EnactmentRead : Type where
  | lookup : EnactmentRead
  | wait : EnactmentRead
  | refresh : EnactmentRead
  | stored : EnactmentRead
  | update (change : Change) : EnactmentRead
  deriving DecidableEq, Repr, Inhabited

/-- The calls. -/
inductive Op : Type where
  | getPolicy (client : Client) (caller : Caller) : Op
  | updatePolicyStatus (caller : Caller) (policy : Policy) : Op
  | getNodeLabels (client : Client) : Op
  | getEnactment (purpose : EnactmentRead) : Op
  | createEnactment : Op
  | deleteEnactment : Op
  | updateEnactmentStatus (change : Change) (status : EnactmentStatus) : Op
  /-- The enactments of the policy, with the clock at the moment they are looked at. -/
  | listEnactments : Op
  | listOwnEnactments : Op
  | listNodes (nodeSelector : Labels) : Op
  | listPods : Op
  | nmstatectlShow : Op
  | generateState (spec : PolicySpec) (current : State) (captured : CapturedStates) : Op
  | statistic (desired : State) : Op
  | applyDesiredState (desired : State) : Op
  | now : Op
  | forceNNSRefresh : Op
  deriving DecidableEq, Repr, Inhabited

/-- The answer to each call.  A failed apply returns the output of `nmstatectl` with the
error. -/
@[reducible] def Op.Resp : Op → Type
  | getPolicy _ _ => Except Err Policy
  | updatePolicyStatus _ _ => Except Err Unit
  | getNodeLabels _ => Except Err Labels
  | getEnactment _ => Except Err EnactmentStatus
  | createEnactment => Except Err Unit
  | deleteEnactment => Except Err Unit
  | updateEnactmentStatus _ _ => Except Err Unit
  | listEnactments => Except Err (List Enactment × Time)
  | listOwnEnactments => Except Err (List EnactmentStatus)
  | listNodes _ => Except Err (List Node)
  | listPods => Except Err (List Pod)
  | nmstatectlShow => Except Err State
  | generateState _ _ _ => Except Err (CapturedStates × State)
  | statistic _ => Except Err (List String)
  | applyDesiredState _ => Except (String × Err) Unit
  | now => Time
  | forceNNSRefresh => Unit

/-- The interface of a handler. -/
abbrev Api : Sig := ⟨Op, Op.Resp⟩

/-- A procedure of a handler. -/
abbrev Proc (α : Type) : Type := Prog Api α

/-- Issue one call. -/
def ask (o : Op) : Proc o.Resp := Prog.perform (S := Api) o

/-! ## Configuration and cluster -/

/-- `worstCaseApplyCycle`. -/
def worstCaseApplyCycle : Time := desiredStateConfigurationTimeout + 3 * probesTotalTimeout

/-- `DefaultStaleEnactmentThreshold`. -/
def defaultStaleEnactmentThreshold : Time := worstCaseApplyCycle + 5 * 60

/-- `AuditGraceWindow`. -/
def auditGraceWindow : Time := 30

/-- `StaleEnactmentThreshold`, from the parsed override if there is one. -/
def staleEnactmentThreshold (override : Option Time) : Time :=
  match override with
  | none => defaultStaleEnactmentThreshold
  | some parsed => if parsed ≤ worstCaseApplyCycle then defaultStaleEnactmentThreshold else parsed

/-- What is fixed while the handlers run.  `applyDefaultVlanFiltering` is the function of
`pkg/bridge` on the text of a state. -/
structure Config where
  nodeNames : List NodeName
  nodup : nodeNames.Nodup
  retriesUntilFail : ℤ
  staleOverride : Option Time
  handlerNamespace : String
  applyDefaultVlanFiltering : State → Except Err State

/-- The staleness threshold in force. -/
def Config.staleThreshold (cfg : Config) : Time := staleEnactmentThreshold cfg.staleOverride

/-- The cluster: the newest version of the policy and the versions before it, the
enactment of every node, the nodes and the handler pods, and the time. -/
structure World where
  policy : Policy
  older : List Policy
  enactments : NodeName → Option EnactmentStatus
  nodes : List Node
  pods : List Pod
  clock : Time

namespace World

/-- All committed versions of the policy, newest first. -/
def versions (w : World) : List Policy := w.policy :: w.older

/-- `p` is a version of the policy, but for the counters. -/
def Shows (w : World) (p : Policy) : Prop := ∃ v ∈ w.versions, p.Resembles v

/-- The enactments of the policy, in the order of the nodes. -/
def listing (cfg : Config) (w : World) : List Enactment :=
  cfg.nodeNames.filterMap fun n => (w.enactments n).map (Enactment.mk n)

/-- Replace the enactment of one node. -/
def setEnactment (w : World) (i : NodeName) (e : Option EnactmentStatus) : World :=
  { w with enactments := fun n => if n = i then e else w.enactments n }

/-- Commit a version of the policy with a new status. -/
def commitStatus (w : World) (status : PolicyStatus) : World :=
  { w with
    policy := { w.policy with status := status, resourceVersion := w.policy.resourceVersion + 1 }
    older := w.versions }

theorem mem_listing {cfg : Config} {w : World} {e : Enactment} :
    e ∈ w.listing cfg ↔ e.node ∈ cfg.nodeNames ∧ w.enactments e.node = some e.status := by
  obtain ⟨node, status⟩ := e
  simp only [listing, List.mem_filterMap, Option.map_eq_some_iff, Enactment.mk.injEq]
  constructor
  · rintro ⟨n, hn, status', hown, rfl, rfl⟩
    exact ⟨hn, hown⟩
  · rintro ⟨hn, hown⟩
    exact ⟨node, hn, status, hown, rfl, rfl⟩

@[simp] theorem setEnactment_self (w : World) (i : NodeName) (e : Option EnactmentStatus) :
    (w.setEnactment i e).enactments i = e := by simp [setEnactment]

theorem setEnactment_of_ne (w : World) {i j : NodeName} (e : Option EnactmentStatus) (h : j ≠ i) :
    (w.setEnactment i e).enactments j = w.enactments j := by simp [setEnactment, h]

end World

/-! ## The memory of a handler -/

/-- What a handler keeps of the policy: the objects of its cache whose counters it has changed
in place, and the counters of the object its last direct release worked on. -/
structure Memory where
  cached : List Policy := []
  decoded : CountMap := []
  deriving DecidableEq, Repr, Inhabited

/-- The object of the cache after the counters of a copy of it were changed to those of `p`: the
version `p` was read as, with these counters.  A copy of an object without counters gets a map of
its own. -/
def changedInPlace (w : World) (p : Policy) : Option Policy :=
  match w.versions.find? fun v => v.resourceVersion = p.resourceVersion with
  | none => none
  | some v =>
    if v.status.unavailableNodeCountMap = [] then none
    else some (v.withCounts p.status.unavailableNodeCountMap)

/-- The cache after such a change. -/
def Memory.share (m : Memory) (w : World) (p : Policy) : Memory :=
  match changedInPlace w p with
  | none => m
  | some object =>
    { m with cached := object ::
        m.cached.filter fun q => q.resourceVersion ≠ p.resourceVersion }

/-- The memory of a handler after a call, whatever its answer. -/
def Memory.after (m : Memory) (w : World) : Op → Memory
  | .updatePolicyStatus (.increment _) p => m.share w p
  | .updatePolicyStatus (.decrement .cached _) p => m.share w p
  | .updatePolicyStatus (.decrement .api _) p =>
    { m with decoded := p.status.unavailableNodeCountMap }
  | _ => m

/-- The policy, decoded into an object with the counters `counts`. -/
def Policy.decodedInto (p : Policy) (counts : CountMap) : Policy :=
  p.withCounts (counts.decodeInto p.status.unavailableNodeCountMap)

/-! ## Serving a call -/

/-- How the surroundings decide a call: it works, it fails, or it works with an outcome
they choose. -/
inductive Answer : Type where
  | done : Answer
  | fail (err : Err) : Answer
  /-- A cached read returns the `k`-th newest version. -/
  | version (k : ℕ) : Answer
  /-- A cached read returns the `k`-th object that was changed in place, and a direct read of a
  release decodes into the object of an earlier attempt. -/
  | kept (k : ℕ) : Answer
  /-- A cached read returns these labels of the node. -/
  | labels (labels : Labels) : Answer
  | output (state : State) : Answer
  | generated (captured : CapturedStates) (desired : State) : Answer
  | features (features : List String) : Answer
  | applyFailed (output : String) (err : Err) : Answer
  deriving DecidableEq, Repr, Inhabited

/-- The errors a call can fail with by itself.  `NotFound` is answered exactly when the
object does not exist, and the two `maxUnavailable` errors are the handlers' own. -/
def Err.injected : Err → Bool
  | .conflict | .other _ => true
  | _ => false

/-- The answer to a call of the handler of node `i` with this memory, and the cluster after it;
`none` when the surroundings cannot decide the call this way. -/
def serve (cfg : Config) (i : NodeName) (m : Memory) (w : World) :
    (o : Op) → Answer → Option (o.Resp × World)
  | .getPolicy .api _, .done => some (.ok w.policy, w)
  | .getPolicy .api (.decrement .api _), .kept _ => some (.ok (w.policy.decodedInto m.decoded), w)
  | .getPolicy .cached _, .version k => w.versions[k]?.map fun p => (.ok p, w)
  | .getPolicy .cached _, .kept k => m.cached[k]?.map fun p => (.ok p, w)
  | .getPolicy _ _, .fail e => if e.injected then some (.error e, w) else none
  | .updatePolicyStatus _ p, .done =>
    if p.resourceVersion = w.policy.resourceVersion then some (.ok (), w.commitStatus p.status)
    else some (.error .conflict, w)
  | .updatePolicyStatus _ _, .fail e => if e.injected then some (.error e, w) else none
  | .getNodeLabels .api, .done =>
    match w.nodes.find? (fun node => node.name = i) with
    | some node => some (.ok node.labels, w)
    | none => some (.error .notFound, w)
  | .getNodeLabels .cached, .labels l => some (.ok l, w)
  | .getNodeLabels _, .fail e => if e.injected then some (.error e, w) else none
  | .getEnactment _, .done =>
    match w.enactments i with
    | some status => some (.ok status, w)
    | none => some (.error .notFound, w)
  | .getEnactment _, .fail e => if e.injected then some (.error e, w) else none
  -- the status of a created object is dropped by the API server
  | .createEnactment, .done =>
    match w.enactments i with
    | some _ => some (.error (.other "already exists"), w)
    | none => some (.ok (), w.setEnactment i (some {}))
  | .createEnactment, .fail e => if e.injected then some (.error e, w) else none
  | .deleteEnactment, .done =>
    match w.enactments i with
    | some _ => some (.ok (), w.setEnactment i none)
    | none => some (.error .notFound, w)
  | .deleteEnactment, .fail e => if e.injected then some (.error e, w) else none
  | .updateEnactmentStatus _ status, .done =>
    match w.enactments i with
    | some _ => some (.ok (), w.setEnactment i (some status))
    | none => some (.error .notFound, w)
  | .updateEnactmentStatus _ _, .fail e => if e.injected then some (.error e, w) else none
  | .listEnactments, .done => some (.ok (w.listing cfg, w.clock), w)
  | .listEnactments, .fail e => if e.injected then some (.error e, w) else none
  | .listOwnEnactments, .done => some (.ok (w.enactments i).toList, w)
  | .listOwnEnactments, .fail e => if e.injected then some (.error e, w) else none
  | .listNodes nodeSelector, .done =>
    some (.ok (w.nodes.filter fun node => matchesLabels nodeSelector node.labels), w)
  | .listNodes _, .fail e => if e.injected then some (.error e, w) else none
  | .listPods, .done => some (.ok w.pods, w)
  | .listPods, .fail e => if e.injected then some (.error e, w) else none
  | .nmstatectlShow, .output state => some (.ok state, w)
  | .nmstatectlShow, .fail e => if e.injected then some (.error e, w) else none
  -- `GenerateState` does not call the tool on an empty state
  | .generateState spec current _, .done =>
    if spec.desiredState = "" ∨ current = "" then some (.ok ([], ""), w) else none
  | .generateState spec current _, .generated captured desired =>
    if spec.desiredState = "" ∨ current = "" then none else some (.ok (captured, desired), w)
  | .generateState spec current _, .fail e =>
    if e.injected = true ∧ ¬(spec.desiredState = "" ∨ current = "") then some (.error e, w)
    else none
  | .statistic _, .features features => some (.ok features, w)
  | .statistic _, .fail e => if e.injected then some (.error e, w) else none
  | .applyDesiredState _, .done => some (.ok (), w)
  | .applyDesiredState _, .applyFailed output e =>
    if e.injected then some (.error (output, e), w) else none
  | .now, .done => some (w.clock, w)
  | .forceNNSRefresh, .done => some ((), w)
  | _, _ => none

/-! ## What an answer says and does -/

/-- The calls that change nothing. -/
def Op.observes : Op → Bool
  | .getPolicy _ _ | .getNodeLabels _ | .getEnactment _ | .listEnactments | .listOwnEnactments
  | .listNodes _ | .listPods | .nmstatectlShow | .statistic _ | .now | .forceNNSRefresh => true
  | _ => false

/-- The cluster after an answered call of the handler of node `i`. -/
def World.after (w : World) (i : NodeName) : (o : Op) → o.Resp → World
  | .updatePolicyStatus _ p, .ok () => w.commitStatus p.status
  | .createEnactment, .ok () => w.setEnactment i (some {})
  | .deleteEnactment, .ok () => w.setEnactment i none
  | .updateEnactmentStatus _ status, .ok () => w.setEnactment i (some status)
  | _, _ => w

/-- What an answer tells about the cluster it was given in. -/
def Truthful (cfg : Config) (i : NodeName) (w : World) : (o : Op) → o.Resp → Prop
  | .getPolicy client caller, r =>
    match client, caller, r with
    | .api, .decrement _ _, .ok p => p.Resembles w.policy
    | .api, _, .ok p => p = w.policy
    | .cached, _, .ok p => w.Shows p
    | _, _, .error e => e.injected = true
  | .updatePolicyStatus _ p, .ok () => p.resourceVersion = w.policy.resourceVersion
  | .getEnactment _, r =>
    match r with
    | .ok status => w.enactments i = some status
    | .error e => e = .notFound → w.enactments i = none
  | .createEnactment, .ok () => w.enactments i = none
  | .updateEnactmentStatus _ _, r =>
    match r with
    | .ok () => w.enactments i ≠ none
    | .error e => e = .notFound → w.enactments i = none
  | .listEnactments, .ok (enactments, t) => enactments = w.listing cfg ∧ t = w.clock
  | .listOwnEnactments, .ok enactments => enactments = (w.enactments i).toList
  | .listNodes nodeSelector, .ok nodes =>
    nodes = w.nodes.filter fun node => matchesLabels nodeSelector node.labels
  | .listPods, .ok pods => pods = w.pods
  | .nmstatectlShow, .error e => e.injected = true
  | .generateState _ _ _, .error e => e.injected = true
  | .now, t => t = w.clock
  | _, _ => True

/-- The versions of the policy are shown. -/
theorem World.shows_of_mem {w : World} {p : Policy} (h : p ∈ w.versions) : w.Shows p :=
  ⟨p, h, .refl p⟩

/-- What all versions have in common of the generation, every read of the policy has. -/
theorem World.Shows.generation_eq {w : World} {p : Policy} {g : Generation} (h : w.Shows p)
    (hgen : ∀ v ∈ w.versions, v.generation = g) : p.generation = g := by
  obtain ⟨v, hv, hp⟩ := h
  exact hp.generation_eq.trans (hgen v hv)

/-- What the cache holds after a change in place is a version of the policy, but for the
counters. -/
theorem Memory.shows_share {m : Memory} {w : World} (h : ∀ p ∈ m.cached, w.Shows p) (p : Policy) :
    ∀ q ∈ (m.share w p).cached, w.Shows q := by
  unfold Memory.share changedInPlace
  cases hv : w.versions.find? fun v => v.resourceVersion = p.resourceVersion with
  | none => exact h
  | some v =>
    by_cases hnil : v.status.unavailableNodeCountMap = []
    · simpa only [if_pos hnil] using h
    · simp only [if_neg hnil, List.mem_cons]
      rintro q (rfl | hq)
      · exact ⟨v, List.mem_of_find?_eq_some hv, .of_withCounts v _⟩
      · exact h q (List.mem_of_mem_filter hq)

theorem Memory.shows_after {m : Memory} {w : World} (h : ∀ p ∈ m.cached, w.Shows p) (o : Op) :
    ∀ q ∈ (m.after w o).cached, w.Shows q := by
  unfold Memory.after
  split
  · exact Memory.shows_share h _
  · exact Memory.shows_share h _
  · exact h
  · exact h

/-- A read of the policy shows a version of it, but for the counters. -/
theorem shows_of_truthful {cfg : Config} {i : NodeName} {w : World} {client : Client}
    {caller : Caller} {p : Policy} (h : Truthful cfg i w (.getPolicy client caller) (.ok p)) :
    w.Shows p := by
  cases client with
  | cached => exact h
  | api =>
    cases caller with
    | decrement reader key => exact ⟨w.policy, List.mem_cons_self, h⟩
    | _ => exact World.shows_of_mem (h ▸ List.mem_cons_self)

/-- **What serving a read of the policy does.** -/
theorem serve_getPolicy {cfg : Config} {i : NodeName} {m : Memory} {w w' : World} {client : Client}
    {caller : Caller} {a : Answer} {r : Except Err Policy} (hm : ∀ p ∈ m.cached, w.Shows p)
    (h : serve cfg i m w (.getPolicy client caller) a = some (r, w')) :
    Truthful cfg i w (.getPolicy client caller) r ∧ w' = w := by
  cases client with
  | cached =>
    cases a <;> simp [serve] at h
    · obtain ⟨he, rfl, rfl⟩ := h
      exact ⟨he, rfl⟩
    · obtain ⟨p, hp, rfl, rfl⟩ := h
      exact ⟨World.shows_of_mem (List.mem_of_getElem? hp), rfl⟩
    · obtain ⟨p, hp, rfl, rfl⟩ := h
      exact ⟨hm p (List.mem_of_getElem? hp), rfl⟩
  | api =>
    cases a with
    | done =>
      obtain ⟨rfl, rfl⟩ := Prod.mk.inj (Option.some.inj h)
      refine ⟨?_, rfl⟩
      cases caller <;> exact rfl
    | fail e =>
      simp only [serve] at h
      split at h
      · obtain ⟨rfl, rfl⟩ := Prod.mk.inj (Option.some.inj h)
        rename_i he
        refine ⟨?_, rfl⟩
        cases caller <;> exact he
      · cases h
    | kept k =>
      cases caller with
      | decrement reader key =>
        cases reader with
        | cached => cases h
        | api =>
          obtain ⟨rfl, rfl⟩ := Prod.mk.inj (Option.some.inj h)
          exact ⟨.of_withCounts _ _, rfl⟩
      | _ => cases h
    | _ => cases h

/-- **What serving a call does**, read off the answer alone. -/
theorem serve_spec {cfg : Config} {i : NodeName} {m : Memory} {w w' : World} {o : Op} {a : Answer}
    {r : o.Resp} (hm : ∀ p ∈ m.cached, w.Shows p) (h : serve cfg i m w o a = some (r, w')) :
    Truthful cfg i w o r ∧ w' = w.after i o r := by
  cases o with
  | getPolicy client caller => exact serve_getPolicy hm h
  | updatePolicyStatus caller p =>
    cases a <;> simp [serve] at h
    · split at h
      · obtain ⟨rfl, rfl⟩ := Prod.mk.inj (Option.some.inj h)
        exact ⟨‹_›, rfl⟩
      · obtain ⟨rfl, rfl⟩ := Prod.mk.inj (Option.some.inj h)
        exact ⟨trivial, rfl⟩
    · obtain ⟨-, rfl, rfl⟩ := h
      exact ⟨trivial, rfl⟩
  | getNodeLabels client =>
    cases client <;> cases a <;> simp [serve] at h
    · obtain ⟨-, rfl, rfl⟩ := h
      exact ⟨trivial, rfl⟩
    · obtain ⟨rfl, rfl⟩ := h
      exact ⟨trivial, rfl⟩
    · split at h <;> (obtain ⟨rfl, rfl⟩ := Prod.mk.inj (Option.some.inj h); exact ⟨trivial, rfl⟩)
    · obtain ⟨-, rfl, rfl⟩ := h
      exact ⟨trivial, rfl⟩
  | getEnactment purpose =>
    cases a <;> simp [serve] at h
    · split at h <;> (obtain ⟨rfl, rfl⟩ := Prod.mk.inj (Option.some.inj h))
      · exact ⟨‹_›, rfl⟩
      · exact ⟨fun _ => ‹_›, rfl⟩
    · obtain ⟨he, rfl, rfl⟩ := h
      exact ⟨fun hn => by simp [hn, Err.injected] at he, rfl⟩
  | createEnactment =>
    cases a <;> simp [serve] at h
    · split at h <;> (obtain ⟨rfl, rfl⟩ := Prod.mk.inj (Option.some.inj h))
      · exact ⟨trivial, rfl⟩
      · exact ⟨‹_›, rfl⟩
    · obtain ⟨-, rfl, rfl⟩ := h
      exact ⟨trivial, rfl⟩
  | deleteEnactment =>
    cases a <;> simp [serve] at h
    · split at h <;> (obtain ⟨rfl, rfl⟩ := Prod.mk.inj (Option.some.inj h); exact ⟨trivial, rfl⟩)
    · obtain ⟨-, rfl, rfl⟩ := h
      exact ⟨trivial, rfl⟩
  | updateEnactmentStatus change status =>
    cases a <;> simp [serve] at h
    · split at h <;> (obtain ⟨rfl, rfl⟩ := Prod.mk.inj (Option.some.inj h))
      · rename_i e he
        exact ⟨by simp [Truthful, he], rfl⟩
      · exact ⟨fun _ => ‹_›, rfl⟩
    · obtain ⟨he, rfl, rfl⟩ := h
      exact ⟨fun hn => by simp [hn, Err.injected] at he, rfl⟩
  | generateState spec current captured =>
    cases a <;> simp [serve] at h
    · obtain ⟨-, rfl, rfl⟩ := h
      exact ⟨trivial, rfl⟩
    · obtain ⟨he, rfl, rfl⟩ := h
      exact ⟨he.1, rfl⟩
    · obtain ⟨-, rfl, rfl⟩ := h
      exact ⟨trivial, rfl⟩
  | nmstatectlShow =>
    cases a <;> simp [serve] at h
    · obtain ⟨he, rfl, rfl⟩ := h
      exact ⟨he, rfl⟩
    · obtain ⟨rfl, rfl⟩ := h
      exact ⟨trivial, rfl⟩
  | listEnactments | listOwnEnactments | listNodes _ | listPods | statistic _
  | applyDesiredState _ | now | forceNNSRefresh =>
    cases a <;> simp [serve] at h <;>
      first
      | (obtain ⟨rfl, rfl⟩ := h; first | exact ⟨rfl, rfl⟩ | simp [Truthful, World.after])
      | (obtain ⟨-, rfl, rfl⟩ := h; exact ⟨trivial, rfl⟩)

/-- No version of the policy is lost. -/
theorem World.shows_after {w : World} {p : Policy} (h : w.Shows p) (i : NodeName) (o : Op)
    (r : o.Resp) : (w.after i o r).Shows p := by
  obtain ⟨v, hv, hp⟩ := h
  refine ⟨v, ?_, hp⟩
  unfold World.after
  split <;> first
    | exact hv
    | exact List.mem_cons_of_mem _ hv

/-- A call that only observes leaves the cluster as it is. -/
theorem World.after_of_observes {w : World} {i : NodeName} {o : Op} (h : o.observes = true)
    (r : o.Resp) : w.after i o r = w := by
  cases o <;> first
    | rfl
    | simp [Op.observes] at h

/-- Nobody but the handler of node `i` writes its enactment. -/
theorem World.after_enactments_of_ne (w : World) {i j : NodeName} (h : j ≠ i) (o : Op)
    (r : o.Resp) : (w.after i o r).enactments j = w.enactments j := by
  unfold World.after
  split <;> first
    | rfl
    | exact setEnactment_of_ne _ _ h

/-- The surroundings of the handler of node `i`, as far as its own enactment goes. -/
def handlerEnv (cfg : Config) (i : NodeName) : Env Api (Option EnactmentStatus) where
  serve own o r own' := ∃ w : World,
    w.enactments i = own ∧ Truthful cfg i w o r ∧ own' = (w.after i o r).enactments i

/-- The surroundings of the handler of node `i`: the cluster, and a memory without a change. -/
def clusterEnv (cfg : Config) (i : NodeName) : Env Api World where
  serve w o r w' := ∃ a, serve cfg i {} w o a = some (r, w')

/-- What a call in these surroundings does. -/
theorem clusterEnv_spec {cfg : Config} {i : NodeName} {w w' : World} {o : Op} {a : Answer}
    {r : o.Resp} (h : serve cfg i {} w o a = some (r, w')) :
    Truthful cfg i w o r ∧ w' = w.after i o r :=
  serve_spec (fun _ hp => absurd hp List.not_mem_nil) h

/-- The handler's own enactment in an execution against the cluster. -/
theorem Exec.own {α : Type} {cfg : Config} {i : NodeName} {p : Proc α} {w w' : World}
    {tr : List (Called Api)} {a : α} (h : Exec (clusterEnv cfg i) p w tr a w') :
    Exec (handlerEnv cfg i) p (w.enactments i) tr a (w'.enactments i) := by
  have hview : ∀ {w o r w'}, (clusterEnv cfg i).serve w o r w' →
      (handlerEnv cfg i).serve (w.enactments i) o r (w'.enactments i) := by
    rintro w o r w' ⟨a, hs⟩
    obtain ⟨ht, rfl⟩ := clusterEnv_spec hs
    exact ⟨w, rfl, ht, rfl⟩
  exact Exec.map hview h
