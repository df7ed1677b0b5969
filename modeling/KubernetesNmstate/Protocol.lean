/-
# The discipline of a handler

What a handler may write depends on where it stands in its procedure.  `Phase` names
these places, `View` is what the handler has read since it last read the policy, and
`Permits` lists every call with the circumstances it is made in: which phase, what the
stored enactment looks like at that moment, and how the written value is computed from
what was read.  `protocol` is the monitor of these rules.

`Permits` is the only description of the procedures the later modules use.  Everything
proved about runs is derived from it, and `Conformance` proves that `Reconcile` and
`reclaimInterruptedSlots` follow it.
-/
import KubernetesNmstate.Frames

/-! ## Ghost state -/

/-- The enactments a handler listed, when, and whether the grace window since the last
counter update was already over. -/
structure Listing where
  enactments : List Enactment
  time : Time
  due : Bool

/-- What a handler has read since it last read the policy. -/
structure View where
  policy : Option Policy := none
  due : Bool := false
  listing : Option Listing := none
  nodes : Option (Labels × List Node) := none
  pods : Option (List Pod) := none

/-- Where a handler stands. -/
inductive Phase : Type where
  /-- Not past the first read of `Reconcile`, or not running. -/
  | idle : Phase
  /-- In `reclaimInterruptedSlots`. -/
  | reclaiming : Phase
  /-- `Reconcile` works on this version of the policy. -/
  | looked (policy : Policy) : Phase
  /-- The enactment was found, or created, with these conditions. -/
  | initialized (policy : Policy) (previous : ConditionList) : Phase
  /-- The desired state could not be generated. -/
  | unrendered (policy : Policy) : Phase
  /-- The generation of the policy was recorded after that. -/
  | generationReset (policy : Policy) : Phase
  /-- The desired state was generated. -/
  | rendered (policy : Policy) (previous : ConditionList) (desired : State) : Phase
  /-- It was stored in the enactment. -/
  | filled (policy : Policy) (previous : ConditionList) : Phase
  /-- A slot was claimed and the enactment does not show it yet. -/
  | claimed (key : Generation) : Phase
  /-- The enactment is marked progressing for the apply. -/
  | marked (key : Generation) : Phase
  | applied (key : Generation) : Phase
  | applyFailed (key : Generation) : Phase
  /-- The enactment is marked finalizing and the slot is still held. -/
  | finalizing (key : Generation) : Phase
  /-- The slot was given back. -/
  | released (key : Generation) : Phase

/-- The ghost state of one handler; `fault` says that a call to the API server has failed
since the procedure began. -/
structure Ghost where
  phase : Phase := .idle
  view : View := {}
  fault : Bool := false

/-! ## How it moves -/

/-- The view after an answered call. -/
def View.next (v : View) : (o : Op) → o.Resp → View
  | .getPolicy _ _, .ok p =>
    { policy := some p, due := p.status.lastUnavailableNodeCountUpdate.isNone }
  | .now, t =>
    { v with due := v.due || match v.policy with
      | some p => graceOver p.status.lastUnavailableNodeCountUpdate t
      | none => false }
  | .listEnactments, .ok (enactments, t) => { v with listing := some ⟨enactments, t, v.due⟩ }
  | .listNodes nodeSelector, .ok nodes => { v with nodes := some (nodeSelector, nodes) }
  | .listPods, .ok pods => { v with pods := some pods }
  | _, _ => v

/-- The phase after an answered call. -/
def Phase.next (ph : Phase) : (o : Op) → o.Resp → Phase
  | .getPolicy client .reconcile, .ok p =>
    match ph, client with
    | .idle, .cached => .looked p
    | _, _ => ph
  -- a release that finds nothing to give back
  | .getPolicy _ (.decrement _ key), .ok p =>
    match ph with
    | .claimed k => if k = key ∧ p.count key ≤ 0 then .released key else ph
    | .finalizing k => if k = key ∧ p.count key ≤ 0 then .released key else ph
    | _ => ph
  | .getEnactment .lookup, .ok e | .getEnactment .refresh, .ok e =>
    match ph with
    | .looked p => .initialized p e.conditions
    | _ => ph
  | .generateState _ _ _, r =>
    match ph, r with
    | .initialized p previous, .ok (_, desired) => .rendered p previous desired
    | .initialized p _, .error _ => .unrendered p
    | _, _ => ph
  | .updatePolicyStatus (.increment key) _, .ok () =>
    match ph with
    | .filled _ _ => .claimed key
    | _ => ph
  | .updatePolicyStatus (.decrement _ key) _, .ok () =>
    match ph with
    | .claimed _ | .finalizing _ => .released key
    | _ => ph
  | .updateEnactmentStatus .resetGeneration _, .ok () =>
    match ph with
    | .unrendered p => .generationReset p
    | _ => ph
  | .updateEnactmentStatus .fill _, .ok () =>
    match ph with
    | .rendered p previous _ => .filled p previous
    | _ => ph
  | .updateEnactmentStatus (.notice .progressing) status, .ok () =>
    match ph with
    | .claimed _ | .filled _ _ => .marked status.policyGeneration
    | _ => ph
  | .updateEnactmentStatus (.notice .finalizing) _, .ok () =>
    match ph with
    | .applied key => .finalizing key
    | _ => ph
  | .applyDesiredState _, r =>
    match ph, r with
    | .marked key, .ok () => .applied key
    | .marked key, .error _ => .applyFailed key
    | _, _ => ph
  | _, _ => ph

/-- The API server refused the call; that an enactment to be created does not exist yet is an
answer. -/
def Op.failed : (o : Op) → o.Resp → Bool
  | .getPolicy _ _, .error _ => true
  | .updatePolicyStatus _ _, .error _ => true
  | .getNodeLabels _, .error _ => true
  | .getEnactment .lookup, .error e | .getEnactment .wait, .error e => e ≠ .notFound
  | .getEnactment _, .error _ => true
  | .createEnactment, .error _ => true
  | .deleteEnactment, .error _ => true
  | .updateEnactmentStatus _ _, .error _ => true
  | .listEnactments, .error _ => true
  | .listOwnEnactments, .error _ => true
  | .listNodes _, .error _ => true
  | .listPods, .error _ => true
  | _, _ => false

/-- The ghost state after an answered call. -/
def Ghost.next (φ : Ghost) (o : Op) (r : o.Resp) : Ghost where
  phase := φ.phase.next o r
  view := φ.view.next o r
  fault := φ.fault || o.failed r

theorem Ghost.phase_next (φ : Ghost) (o : Op) (r : o.Resp) :
    (φ.next o r).phase = φ.phase.next o r := rfl

/-- The startup reclaim stays in its phase. -/
theorem Phase.next_reclaiming (o : Op) (r : o.Resp) : Phase.reclaiming.next o r = .reclaiming := by
  unfold Phase.next
  split <;> rfl

/-! ## What is permitted -/

/-- The cap a claim compares with: the fallback when the enactments could not be listed. -/
def View.cap (v : View) (p : Policy) : ℤ :=
  match v.listing with
  | none => minMaxUnavailable
  | some l => (maxUnavailableFor l.enactments.length p.spec).1

/-- The slot holders of a listing. -/
def Listing.holders (cfg : Config) (l : Listing) (generation : Generation) : ℤ :=
  l.enactments.countP (isSlotHolder generation l.time cfg.staleThreshold)

/-- The enactment passed the three early exits of `Reconcile`. -/
structure Startable (cfg : Config) (e : EnactmentStatus) : Prop where
  retries : e.retryCount.get e.policyGeneration < cfg.retriesUntilFail
  notAvailable : isAvailable e.conditions = false
  notFinalizing : isFinalizing e.conditions = false

/-- The enactment is marked for an apply that has not finished. -/
structure Applying (e : EnactmentStatus) : Prop where
  progressing : isProgressing e.conditions = true
  notFinalizing : isFinalizing e.conditions = false

/-- `Reconcile` asks for a slot: the enactment can start, is not progressing, and was not
retrying when this reconcile began. -/
structure Asking (cfg : Config) (ph : Phase) (e : EnactmentStatus) : Prop where
  startable : Startable cfg e
  notProgressing : isProgressing e.conditions = false
  filled : ∃ policy previous, ph = .filled policy previous ∧ isRetrying previous = false

/-- When each notification is made. -/
def Notice.Allowed (cfg : Config) (ph : Phase) (e : EnactmentStatus) : Notice → Prop
  | .generateFailure => ∃ policy, ph = .generationReset policy
  | .progressing => Startable cfg e ∧ (ph = .claimed e.policyGeneration ∨
      ∃ policy previous, ph = .filled policy previous ∧
        (isProgressing e.conditions = true ∨ isRetrying previous = true))
  | .finalizing => ph = .applied e.policyGeneration ∧ Applying e
  | .failedToConfigure => Asking cfg ph e ∨
      (ph = .applyFailed e.policyGeneration ∧ Applying e ∧
        cfg.retriesUntilFail ≤ e.retryCount.get e.policyGeneration)
  | .retrying => ph = .applyFailed e.policyGeneration ∧ Applying e
  | .pending => Asking cfg ph e
  | .aborted => Asking cfg ph e
  | .success => isFinalizing e.conditions = true ∧
      (ph = .released e.policyGeneration ∨ ph = .reclaiming ∨
        ∃ policy previous, ph = .filled policy previous)
  | .interrupted => False

/-- **The rules.**  `Permits cfg own φ o`: a handler whose stored enactment is `own` and
whose ghost state is `φ` may issue `o`. -/
inductive Permits (cfg : Config) : Option EnactmentStatus → Ghost → Op → Prop where
  | observe {own : Option EnactmentStatus} {φ : Ghost} {o : Op} (h : o.observes = true) :
      Permits cfg own φ o
  | generate {own : Option EnactmentStatus} {φ : Ghost} {p : Policy} {previous : ConditionList}
      {current : State} {captured : CapturedStates} (hph : φ.phase = .initialized p previous) :
      Permits cfg own φ (.generateState p.spec current captured)
  | claim {e : EnactmentStatus} {φ : Ghost} {p : Policy} {t : Time}
      (hask : Asking cfg φ.phase e) (hp : φ.view.policy = some p)
      (hcap : p.count e.policyGeneration < φ.view.cap p) :
      Permits cfg (some e) φ (.updatePolicyStatus (.increment e.policyGeneration)
        (p.stampCount e.policyGeneration (p.count e.policyGeneration + 1) t))
  | release {own : Option EnactmentStatus} {φ : Ghost} {p : Policy} {reader : Client}
      {key : Generation} {t : Time} (hph : φ.phase = .finalizing key ∨ φ.phase = .claimed key)
      (hp : φ.view.policy = some p) (hpos : 0 < p.count key) :
      Permits cfg own φ (.updatePolicyStatus (.decrement reader key)
        (p.stampCount key (p.count key - 1) t))
  | audit {own : Option EnactmentStatus} {φ : Ghost} {p : Policy} {l : Listing} {t : Time}
      (hp : φ.view.policy = some p) (hl : φ.view.listing = some l) (hdue : l.due = true)
      (hlt : l.holders cfg p.generation < p.count p.generation) :
      Permits cfg own φ (.updatePolicyStatus .audit
        (p.stampCount p.generation (l.holders cfg p.generation) t))
  | update {own : Option EnactmentStatus} {φ : Ghost} {p : Policy} {l : Listing}
      {nodes : List Node} {pods : List Pod} {t : Time}
      (hp : φ.view.policy = some p) (hl : φ.view.listing = some l)
      (hnodes : φ.view.nodes = some (p.spec.nodeSelector, nodes))
      (hpods : φ.view.pods = some pods) :
      Permits cfg own φ (.updatePolicyStatus .update (setPolicyStatus t p
        (calculatePolicyConditionStatus p (nodesWithPods nodes pods) l.enactments)))
  | reset {own : Option EnactmentStatus} {φ : Ghost} {p : Policy} {t : Time}
      (hp : φ.view.policy = some p) :
      Permits cfg own φ (.updatePolicyStatus .reset (resetPolicyConditions t p))
  | create {φ : Ghost} {p : Policy} (hph : φ.phase = .looked p) :
      Permits cfg none φ .createEnactment
  | delete {own : Option EnactmentStatus} {φ : Ghost} {p : Policy} (hph : φ.phase = .looked p) :
      Permits cfg own φ .deleteEnactment
  | firstStatus {φ : Ghost} {p : Policy} {t : Time} (hph : φ.phase = .looked p) :
      Permits cfg (some {}) φ (.updateEnactmentStatus .create (newEnactmentStatus t))
  | resetGeneration {e : EnactmentStatus} {φ : Ghost} {p : Policy}
      (hph : φ.phase = .unrendered p) :
      Permits cfg (some e) φ
        (.updateEnactmentStatus .resetGeneration (resetPolicyGeneration e p.generation))
  | fill {e : EnactmentStatus} {φ : Ghost} {p : Policy} {previous : ConditionList}
      {generated desired : State} {captured : CapturedStates} {features : List String}
      (hph : φ.phase = .rendered p previous generated)
      (hvlan : cfg.applyDefaultVlanFiltering generated = .ok desired) :
      Permits cfg (some e) φ
        (.updateEnactmentStatus .fill (filledStatus p.generation desired captured features e))
  | notice {e : EnactmentStatus} {φ : Ghost} {n : Notice} {t : Time} {message : String}
      (h : n.Allowed cfg φ.phase e) :
      Permits cfg (some e) φ (.updateEnactmentStatus (.notice n)
        { e with conditions := n.setter t e.conditions message })
  | interrupted {e : EnactmentStatus} {φ : Ghost} {t : Time} (hph : φ.phase = .reclaiming)
      (h : Applying e) :
      Permits cfg (some e) φ (.updateEnactmentStatus (.notice .interrupted)
        (interruptedStatus e.policyGeneration t e))
  | retryCount {e : EnactmentStatus} {φ : Ghost} (hph : φ.phase = .applyFailed e.policyGeneration)
      (h : Applying e) :
      Permits cfg (some e) φ (.updateEnactmentStatus .retryCount
        { e with
          retryCount := e.retryCount.put e.policyGeneration
            (e.retryCount.get e.policyGeneration + 1) })
  | apply {e : EnactmentStatus} {φ : Ghost} (hph : φ.phase = .marked e.policyGeneration)
      (h : Applying e) (hretries : e.retryCount.get e.policyGeneration < cfg.retriesUntilFail) :
      Permits cfg (some e) φ (.applyDesiredState e.desiredState)

theorem Permits.of_apply {cfg : Config} {own : Option EnactmentStatus} {φ : Ghost} {desired : State}
    (h : Permits cfg own φ (.applyDesiredState desired)) :
    ∃ e, own = some e ∧ desired = e.desiredState ∧ φ.phase = .marked e.policyGeneration ∧
      Applying e := by
  cases h with
  | observe ho => cases ho
  | apply hph happ hretries => exact ⟨_, rfl, rfl, hph, happ⟩

theorem Permits.of_increment {cfg : Config} {own : Option EnactmentStatus} {φ : Ghost}
    {key : Generation} {p : Policy}
    (h : Permits cfg own φ (.updatePolicyStatus (.increment key) p)) :
    ∃ e, own = some e ∧ key = e.policyGeneration ∧ Asking cfg φ.phase e := by
  cases h with
  | observe ho => cases ho
  | claim hask hp hcap => exact ⟨_, rfl, rfl, hask⟩

/-- The monitor of the rules. -/
def protocol (cfg : Config) : Monitor Api (Option EnactmentStatus) Ghost where
  guard := Permits cfg
  next _ φ o r := φ.next o r
