/-
# The handlers at work

A cluster with one handler per node.  Each step is one call of one handler, or something
that happens around them: time passes, the policy is edited, nodes and pods change, a
reconcile is triggered, a handler crashes or comes back.  Handlers interleave call by
call.

`step` is the transition function and `Reach` the states it leads to.  Every handler has the
memory that `serve` reads from; a crash empties it.  The ghost state of every handler and a log
of what was written are carried along; they influence nothing.

`Conforms` holds in every reachable state: each running procedure obeys the rules of
`Protocol`.  With it `moves_of_step` says everything a step can do, and the later modules
look at `Moves`, `Effect` and `Glimpse` only.
-/
import KubernetesNmstate.Conformance

/-! ## States -/

/-- What the log records. -/
inductive Event : Type where
  /-- A status write of the policy was committed. -/
  | policyWritten (node : NodeName) (caller : Caller) (view : View) : Event
  /-- An enactment was created, written or deleted. -/
  | enactmentWritten (node : NodeName) (before after : Option EnactmentStatus) : Event
  /-- A desired state was generated from a spec. -/
  | generated (node : NodeName) (spec : PolicySpec) (desired : State) : Event
  /-- An apply returned. -/
  | applied (node : NodeName) (desired : State) (succeeded : Bool) : Event

/-- The procedures a handler runs. -/
inductive Job : Type where
  | reconcile : Job
  | reclaim : Job
  deriving DecidableEq, Repr, Inhabited

/-- A handler: not running, waiting for work, or in the middle of a procedure. -/
inductive Handler : Type where
  | down : Handler
  | idle : Handler
  | running (job : Job) (proc : Proc Unit) : Handler

/-- The system; the newest event comes first in the log. -/
structure Sys where
  world : World
  handlers : NodeName → Handler
  ghosts : NodeName → Ghost
  log : List Event
  memory : NodeName → Memory := fun _ => {}

/-- What can happen next. -/
inductive Label : Type where
  | tick (seconds : ℕ) : Label
  | edit (spec : PolicySpec) (conditions : ConditionList) : Label
  | cluster (nodes : List Node) (pods : List Pod) : Label
  | start (i : NodeName) : Label
  | exec (i : NodeName) (answer : Answer) : Label
  | finish (i : NodeName) : Label
  | crash (i : NodeName) : Label
  | restart (i : NodeName) : Label
  deriving Repr, Inhabited

/-- The step edits the policy. -/
def Label.edits : Label → Bool
  | .edit _ _ => true
  | _ => false

/-- A handler crashes, or a call of it is refused. -/
def Label.disturbs : Label → Bool
  | .crash _ | .exec _ (.fail _) => true
  | _ => false

/-! ## Steps -/

/-- A spec edit: the API server bumps the generation; the webhook rewrites the
conditions. -/
def World.edit (w : World) (spec : PolicySpec) (conditions : ConditionList) : World :=
  { w with
    policy := { w.policy with
      generation := w.policy.generation + 1
      resourceVersion := w.policy.resourceVersion + 1
      spec := spec
      status := { w.policy.status with conditions := conditions } }
    older := w.versions }

/-- The procedure of a job. -/
def jobProc (cfg : Config) (i : NodeName) : Job → Proc Unit
  | .reconcile => do
    let _ ← reconcile cfg i
    return ()
  | .reclaim => reclaimInterruptedSlots cfg

/-- The phase a job begins in. -/
def Job.phase : Job → Phase
  | .reconcile => .idle
  | .reclaim => .reclaiming

/-- What the log records of an answered call. -/
def events (i : NodeName) (w : World) (v : View) : (o : Op) → o.Resp → List Event
  | .updatePolicyStatus caller _, .ok () => [.policyWritten i caller v]
  | .createEnactment, .ok () => [.enactmentWritten i (w.enactments i) (some {})]
  | .deleteEnactment, .ok () => [.enactmentWritten i (w.enactments i) none]
  | .updateEnactmentStatus _ status, .ok () => [.enactmentWritten i (w.enactments i) (some status)]
  | .generateState spec _ _, .ok (_, desired) => [.generated i spec desired]
  | .applyDesiredState desired, .ok () => [.applied i desired true]
  | .applyDesiredState desired, .error _ => [.applied i desired false]
  | _, _ => []

/-- A handler begins a job. -/
def Sys.launch (cfg : Config) (s : Sys) (i : NodeName) (job : Job) : Sys :=
  { s with
    handlers := Function.update s.handlers i (.running job (jobProc cfg i job))
    ghosts := Function.update s.ghosts i { phase := job.phase } }

/-- A handler stops running, with this left in its memory. -/
def Sys.halt (s : Sys) (i : NodeName) (h : Handler) (m : Memory) : Sys :=
  { s with
    handlers := Function.update s.handlers i h
    ghosts := Function.update s.ghosts i {}
    memory := Function.update s.memory i m }

/-- One step; `none` when it cannot happen. -/
def step (cfg : Config) (s : Sys) : Label → Option Sys
  | .tick seconds => some { s with world := { s.world with clock := s.world.clock + seconds } }
  | .edit spec conditions => some { s with world := s.world.edit spec conditions }
  | .cluster nodes pods => some { s with world := { s.world with nodes := nodes, pods := pods } }
  | .start i =>
    match s.handlers i with
    | .idle => if i ∈ cfg.nodeNames then some (s.launch cfg i .reconcile) else none
    | _ => none
  | .exec i answer =>
    match s.handlers i with
    | .running job (.call o k) =>
      match serve cfg i (s.memory i) s.world o answer with
      | some (r, w) => some
        { world := w
          handlers := Function.update s.handlers i (.running job (k r))
          ghosts := Function.update s.ghosts i ((s.ghosts i).next o r)
          log := events i s.world (s.ghosts i).view o r ++ s.log
          memory := Function.update s.memory i ((s.memory i).after s.world o) }
      | none => none
    | _ => none
  | .finish i =>
    match s.handlers i with
    | .running _ (.ret _) => some (s.halt i .idle (s.memory i))
    | _ => none
  -- the cache is built anew from what is stored
  | .crash i => some (s.halt i .down {})
  | .restart i =>
    match s.handlers i with
    | .down => if i ∈ cfg.nodeNames then some (s.launch cfg i .reclaim) else none
    | _ => none

/-- The states reached from `s₀` by steps that all meet `ok`. -/
inductive Reach (cfg : Config) (ok : Sys → Label → Prop) (s₀ : Sys) : Sys → Prop where
  | refl : Reach cfg ok s₀ s₀
  | next {s s' : Sys} {l : Label} (h : Reach cfg ok s₀ s) (hok : ok s l)
      (hs : step cfg s l = some s') : Reach cfg ok s₀ s'

/-- No handler runs yet, and nothing is recorded or remembered. -/
structure Rests (s : Sys) : Prop where
  handlers : ∀ i, s.handlers i = .idle ∨ s.handlers i = .down
  ghosts : ∀ i, s.ghosts i = {}
  log : s.log = []
  memory : ∀ i, s.memory i = {}

/-- The call a handler is in the middle of. -/
def Sys.pending (s : Sys) (i : NodeName) : Option Op :=
  match s.handlers i with
  | .running _ proc => proc.pending
  | _ => none

/-- A `Reconcile` of node `i` is in progress. -/
def Sys.reconciling (s : Sys) (i : NodeName) : Bool :=
  match s.handlers i with
  | .running .reconcile _ => true
  | _ => false

/-- The handler of node `i` is inside `applyDesiredStateFn` for the generation `g`. -/
def Sys.inApply (s : Sys) (g : Generation) (i : NodeName) : Bool :=
  match s.pending i, s.world.enactments i with
  | some (.applyDesiredState _), some e => e.policyGeneration = g
  | _, _ => false

/-! ## Runs -/

/-- **Induction over runs**: what holds at the start and is kept by every step that meets
the condition holds in every state reached. -/
theorem Reach.induct {cfg : Config} {ok : Sys → Label → Prop} {s₀ s : Sys} {I : Sys → Prop}
    (h : Reach cfg ok s₀ s) (h₀ : I s₀)
    (hstep : ∀ s s' l, I s → ok s l → step cfg s l = some s' → I s') : I s := by
  induction h with
  | refl => exact h₀
  | next _ hok hs ih => exact hstep _ _ _ ih hok hs

/-! ## What an answered call does -/

/-- The phase after a notification was written. -/
def Notice.phaseAfter (n : Notice) (ph : Phase) (e : EnactmentStatus) : Phase :=
  match n with
  | .progressing => .marked e.policyGeneration
  | .finalizing => .finalizing e.policyGeneration
  | _ => ph

/-- Everything an answered call of the handler of node `i` can do to the cluster and to its
phase, with the circumstances it happens in and what the log records. -/
inductive Effect (cfg : Config) (i : NodeName) (w : World) (φ : Ghost) :
    World → Phase → List Event → Prop where
  /-- At most the view changes. -/
  | quiet : Effect cfg i w φ w φ.phase []
  | looked {p : Policy} (hp : w.Shows p) (hph : φ.phase = .idle) :
      Effect cfg i w φ w (.looked p) []
  | found {p : Policy} {e : EnactmentStatus} (hown : w.enactments i = some e)
      (hph : φ.phase = .looked p) : Effect cfg i w φ w (.initialized p e.conditions) []
  | nothingHeld {p : Policy} {key : Generation} (hheld : Held key φ) (hp : w.Shows p)
      (hcount : p.count key ≤ 0) : Effect cfg i w φ w (.released key) []
  | rendered {p : Policy} {previous : ConditionList} {desired : State}
      (hph : φ.phase = .initialized p previous) :
      Effect cfg i w φ w (.rendered p previous desired) [.generated i p.spec desired]
  | unrendered {p : Policy} {previous : ConditionList}
      (hph : φ.phase = .initialized p previous) : Effect cfg i w φ w (.unrendered p) []
  | claim {e : EnactmentStatus} {p : Policy} {t : Time} (hown : w.enactments i = some e)
      (hask : Asking cfg φ.phase e) (hp : φ.view.policy = some p)
      (hrv : p.resourceVersion = w.policy.resourceVersion)
      (hcap : p.count e.policyGeneration < φ.view.cap p) :
      Effect cfg i w φ
        (w.commitStatus
          (p.stampCount e.policyGeneration (p.count e.policyGeneration + 1) t).status)
        (.claimed e.policyGeneration) [.policyWritten i (.increment e.policyGeneration) φ.view]
  | release {p : Policy} {reader : Client} {key : Generation} {t : Time} (hheld : Held key φ)
      (hp : φ.view.policy = some p) (hrv : p.resourceVersion = w.policy.resourceVersion)
      (hpos : 0 < p.count key) :
      Effect cfg i w φ (w.commitStatus (p.stampCount key (p.count key - 1) t).status)
        (.released key) [.policyWritten i (.decrement reader key) φ.view]
  | audit {p : Policy} {l : Listing} {t : Time} (hp : φ.view.policy = some p)
      (hrv : p.resourceVersion = w.policy.resourceVersion) (hl : φ.view.listing = some l)
      (hdue : l.due = true) (hlt : l.holders cfg p.generation < p.count p.generation) :
      Effect cfg i w φ
        (w.commitStatus (p.stampCount p.generation (l.holders cfg p.generation) t).status)
        φ.phase [.policyWritten i .audit φ.view]
  | update {p : Policy} {l : Listing} {nodes : List Node} {pods : List Pod} {t : Time}
      (hp : φ.view.policy = some p) (hrv : p.resourceVersion = w.policy.resourceVersion)
      (hl : φ.view.listing = some l) (hnodes : φ.view.nodes = some (p.spec.nodeSelector, nodes))
      (hpods : φ.view.pods = some pods) :
      Effect cfg i w φ
        (w.commitStatus (setPolicyStatus t p
          (calculatePolicyConditionStatus p (nodesWithPods nodes pods) l.enactments)).status)
        φ.phase [.policyWritten i .update φ.view]
  | reset {p : Policy} {t : Time} (hp : φ.view.policy = some p)
      (hrv : p.resourceVersion = w.policy.resourceVersion) :
      Effect cfg i w φ (w.commitStatus (resetPolicyConditions t p).status) φ.phase
        [.policyWritten i .reset φ.view]
  | create {p : Policy} (hown : w.enactments i = none) (hph : φ.phase = .looked p) :
      Effect cfg i w φ (w.setEnactment i (some {})) φ.phase [.enactmentWritten i none (some {})]
  | delete {p : Policy} (hph : φ.phase = .looked p) :
      Effect cfg i w φ (w.setEnactment i none) φ.phase
        [.enactmentWritten i (w.enactments i) none]
  | firstStatus {p : Policy} {t : Time} (hown : w.enactments i = some {})
      (hph : φ.phase = .looked p) :
      Effect cfg i w φ (w.setEnactment i (some (newEnactmentStatus t))) φ.phase
        [.enactmentWritten i (some {}) (some (newEnactmentStatus t))]
  | resetGeneration {e : EnactmentStatus} {p : Policy} (hown : w.enactments i = some e)
      (hph : φ.phase = .unrendered p) :
      Effect cfg i w φ (w.setEnactment i (some (resetPolicyGeneration e p.generation)))
        (.generationReset p)
        [.enactmentWritten i (some e) (some (resetPolicyGeneration e p.generation))]
  | fill {e : EnactmentStatus} {p : Policy} {previous : ConditionList} {generated desired : State}
      {captured : CapturedStates} {features : List String} (hown : w.enactments i = some e)
      (hph : φ.phase = .rendered p previous generated)
      (hvlan : cfg.applyDefaultVlanFiltering generated = .ok desired) :
      Effect cfg i w φ
        (w.setEnactment i (some (filledStatus p.generation desired captured features e)))
        (.filled p previous)
        [.enactmentWritten i (some e)
          (some (filledStatus p.generation desired captured features e))]
  | notice {e : EnactmentStatus} {n : Notice} {t : Time} {message : String}
      (hown : w.enactments i = some e) (hn : n.Allowed cfg φ.phase e) :
      Effect cfg i w φ
        (w.setEnactment i (some { e with conditions := n.setter t e.conditions message }))
        (n.phaseAfter φ.phase e)
        [.enactmentWritten i (some e)
          (some { e with conditions := n.setter t e.conditions message })]
  | interrupted {e : EnactmentStatus} {t : Time} (hown : w.enactments i = some e)
      (hph : φ.phase = .reclaiming) (happ : Applying e) :
      Effect cfg i w φ (w.setEnactment i (some (interruptedStatus e.policyGeneration t e)))
        φ.phase
        [.enactmentWritten i (some e) (some (interruptedStatus e.policyGeneration t e))]
  | retryCount {e : EnactmentStatus} (hown : w.enactments i = some e)
      (hph : φ.phase = .applyFailed e.policyGeneration) (happ : Applying e) :
      Effect cfg i w φ
        (w.setEnactment i (some { e with
          retryCount := e.retryCount.put e.policyGeneration
            (e.retryCount.get e.policyGeneration + 1) }))
        φ.phase
        [.enactmentWritten i (some e) (some { e with
          retryCount := e.retryCount.put e.policyGeneration
            (e.retryCount.get e.policyGeneration + 1) })]
  | applied {e : EnactmentStatus} (hown : w.enactments i = some e)
      (hph : φ.phase = .marked e.policyGeneration) (happ : Applying e) :
      Effect cfg i w φ w (.applied e.policyGeneration) [.applied i e.desiredState true]
  | applyFailed {e : EnactmentStatus} (hown : w.enactments i = some e)
      (hph : φ.phase = .marked e.policyGeneration) (happ : Applying e) :
      Effect cfg i w φ w (.applyFailed e.policyGeneration) [.applied i e.desiredState false]

/-- How the view of a handler can change: by one look at the cluster as it is, or at some
version of the policy with whatever counters the handler made of it. -/
inductive Glimpse (cfg : Config) (w : World) (v : View) : View → Prop where
  | same : Glimpse cfg w v v
  | policy {p : Policy} (hp : w.Shows p) :
      Glimpse cfg w v
        { policy := some p, due := p.status.lastUnavailableNodeCountUpdate.isNone }
  | clock : Glimpse cfg w v
      { v with due := v.due || match v.policy with
        | some p => graceOver p.status.lastUnavailableNodeCountUpdate w.clock
        | none => false }
  | listing : Glimpse cfg w v { v with listing := some ⟨w.listing cfg, w.clock, v.due⟩ }
  | nodes (nodeSelector : Labels) :
      Glimpse cfg w v { v with nodes := some (nodeSelector,
        w.nodes.filter fun node => matchesLabels nodeSelector node.labels) }
  | pods : Glimpse cfg w v { v with pods := some w.pods }

theorem glimpse_of_truthful {cfg : Config} {i : NodeName} {w : World} {v : View} {o : Op}
    {r : o.Resp} (h : Truthful cfg i w o r) : Glimpse cfg w v (v.next o r) := by
  cases o with
  | getPolicy client caller =>
    rcases r with err | p
    · exact .same
    · exact .policy (shows_of_truthful h)
  | listEnactments =>
    rcases r with err | ⟨enactments, t⟩
    · exact .same
    · obtain ⟨rfl, rfl⟩ := h
      exact .listing
  | listNodes nodeSelector =>
    rcases r with err | nodes
    · exact .same
    · cases h
      exact .nodes nodeSelector
  | listPods =>
    rcases r with err | pods
    · exact .same
    · cases h
      exact .pods
  | now =>
    cases h
    exact .clock
  | _ => exact .same

theorem Phase.next_look_of_not (client : Client) (p : Policy) {ph : Phase}
    (h : ¬ (ph = .idle ∧ client = .cached)) :
    ph.next (.getPolicy client .reconcile) (.ok p) = ph := by
  cases ph <;> cases client <;> first
    | rfl
    | exact absurd ⟨rfl, rfl⟩ h

theorem Phase.next_nothingHeld (client reader : Client) {φ : Ghost} {key : Generation} {p : Policy}
    (h : Held key φ) (hle : p.count key ≤ 0) :
    φ.phase.next (.getPolicy client (.decrement reader key)) (.ok p) = .released key := by
  rcases h with h | h <;> simp [Phase.next, h, hle]

theorem Phase.next_decrement_of_not (client reader : Client) {φ : Ghost} {key : Generation}
    {p : Policy} (h : Held key φ → ¬ p.count key ≤ 0) :
    φ.phase.next (.getPolicy client (.decrement reader key)) (.ok p) = φ.phase := by
  unfold Held at h
  cases hph : φ.phase with
  | claimed k =>
    simp only [Phase.next]
    split
    · rename_i hk
      exact absurd hk.2 (h (Or.inr (hk.1 ▸ hph)))
    · rfl
  | finalizing k =>
    simp only [Phase.next]
    split
    · rename_i hk
      exact absurd hk.2 (h (Or.inl (hk.1 ▸ hph)))
    · rfl
  | _ => rfl

theorem Phase.next_found_of_not (purpose : EnactmentRead) (e : EnactmentStatus) {ph : Phase}
    (h : ∀ p, ph ≠ .looked p) : ph.next (.getEnactment purpose) (.ok e) = ph := by
  cases purpose <;> cases ph <;> first
    | rfl
    | exact absurd rfl (h _)

/-- An observing call: the phase moves when `Reconcile` reads its policy, when it finds its
enactment, and when a release finds nothing to give back. -/
theorem effect_of_observes {cfg : Config} {i : NodeName} {w : World} {φ : Ghost} {o : Op}
    {r : o.Resp} (ho : o.observes = true) (ht : Truthful cfg i w o r) :
    Effect cfg i w φ w (φ.phase.next o r) [] := by
  cases o with
  | getPolicy client caller =>
    rcases r with err | p
    · cases caller <;> exact .quiet
    have hp := shows_of_truthful ht
    cases caller with
    | reconcile =>
      by_cases hlook : φ.phase = .idle ∧ client = .cached
      · obtain ⟨hph, rfl⟩ := hlook
        rw [hph]
        exact .looked hp hph
      · rw [Phase.next_look_of_not client p hlook]
        exact .quiet
    | decrement reader key =>
      by_cases hheld : Held key φ ∧ p.count key ≤ 0
      · rw [Phase.next_nothingHeld client reader hheld.1 hheld.2]
        exact .nothingHeld hheld.1 hp hheld.2
      · rw [Phase.next_decrement_of_not client reader fun hh hle => hheld ⟨hh, hle⟩]
        exact .quiet
    | _ => exact .quiet
  | getEnactment purpose =>
    rcases r with err | e
    · cases purpose <;> exact .quiet
    cases purpose with
    | lookup | refresh =>
      by_cases hph : ∃ p, φ.phase = .looked p
      · obtain ⟨p, hph⟩ := hph
        rw [hph]
        exact .found ht hph
      · rw [Phase.next_found_of_not _ e fun p h => hph ⟨p, h⟩]
        exact .quiet
    | _ => exact .quiet
  | _ => first
    | exact .quiet
    | cases ho

/-- **What a permitted call does**, once answered. -/
theorem effect_of_permits {cfg : Config} {i : NodeName} {w : World} {φ : Ghost} {o : Op}
    {r : o.Resp} (hg : Permits cfg (w.enactments i) φ o) (ht : Truthful cfg i w o r) :
    Effect cfg i w φ (w.after i o r) (φ.phase.next o r) (events i w φ.view o r) := by
  generalize hown : w.enactments i = own at hg
  cases hg with
  | observe ho =>
    rw [World.after_of_observes ho]
    have hev : events i w φ.view o r = [] := by
      cases o <;> first
        | rfl
        | cases ho
    rw [hev]
    exact effect_of_observes ho ht
  | @generate _ _ p previous current captured hph =>
    rcases r with err | ⟨captured', desired⟩
    · have hnext : φ.phase.next (.generateState p.spec current captured) (.error err) =
          .unrendered p := by rw [hph]; rfl
      rw [hnext]
      exact .unrendered hph
    · have hnext : φ.phase.next (.generateState p.spec current captured)
          (.ok (captured', desired)) = .rendered p previous desired := by rw [hph]; rfl
      rw [hnext]
      exact .rendered hph
  | @claim e _ p t hask hp hcap =>
    rcases r with err | ⟨⟩
    · exact .quiet
    · obtain ⟨inst, previous, hph, hprev⟩ := hask.filled
      have hnext : φ.phase.next (.updatePolicyStatus (.increment e.policyGeneration)
          (p.stampCount e.policyGeneration (p.count e.policyGeneration + 1) t)) (.ok ()) =
          .claimed e.policyGeneration := by rw [hph]; rfl
      rw [hnext]
      exact .claim hown hask hp ht hcap
  | @release _ _ p reader key t hph hp hpos =>
    rcases r with err | ⟨⟩
    · exact .quiet
    · have hnext : φ.phase.next (.updatePolicyStatus (.decrement reader key)
          (p.stampCount key (p.count key - 1) t)) (.ok ()) = .released key := by
        rcases hph with h | h <;> rw [h] <;> rfl
      rw [hnext]
      exact .release hph hp ht hpos
  | audit hp hl hdue hlt =>
    rcases r with err | ⟨⟩
    · exact .quiet
    · exact .audit hp ht hl hdue hlt
  | update hp hl hnodes hpods =>
    rcases r with err | ⟨⟩
    · exact .quiet
    · exact .update hp ((resourceVersion_setPolicyStatus _ _ _).symm.trans ht) hl hnodes hpods
  | reset hp =>
    rcases r with err | ⟨⟩
    · exact .quiet
    · exact .reset hp ht
  | create hph =>
    rcases r with err | ⟨⟩
    · exact .quiet
    · show Effect cfg i w φ _ _ [.enactmentWritten i (w.enactments i) (some {})]
      rw [hown]
      exact .create hown hph
  | delete hph =>
    rcases r with err | ⟨⟩
    · exact .quiet
    · exact .delete hph
  | firstStatus hph =>
    rcases r with err | ⟨⟩
    · exact .quiet
    · show Effect cfg i w φ _ _ [.enactmentWritten i (w.enactments i) _]
      rw [hown]
      exact .firstStatus hown hph
  | @resetGeneration e _ p hph =>
    rcases r with err | ⟨⟩
    · exact .quiet
    · have hnext : φ.phase.next (.updateEnactmentStatus .resetGeneration
          (resetPolicyGeneration e p.generation)) (.ok ()) = .generationReset p := by rw [hph]; rfl
      show Effect cfg i w φ _ _ [.enactmentWritten i (w.enactments i) _]
      rw [hown, hnext]
      exact .resetGeneration hown hph
  | @fill e _ p previous generated desired captured features hph hvlan =>
    rcases r with err | ⟨⟩
    · exact .quiet
    · have hnext : φ.phase.next (.updateEnactmentStatus .fill
          (filledStatus p.generation desired captured features e)) (.ok ()) =
          .filled p previous := by rw [hph]; rfl
      show Effect cfg i w φ _ _ [.enactmentWritten i (w.enactments i) _]
      rw [hown, hnext]
      exact .fill hown hph hvlan
  | @notice e _ n t message hn =>
    rcases r with err | ⟨⟩
    · cases n <;> exact .quiet
    · show Effect cfg i w φ _ _ [.enactmentWritten i (w.enactments i) _]
      have hphase : φ.phase.next (.updateEnactmentStatus (.notice n)
          { e with conditions := n.setter t e.conditions message }) (.ok ()) =
          n.phaseAfter φ.phase e := by
        cases n with
        | progressing =>
          obtain ⟨-, h | ⟨p, previous, h, -⟩⟩ := hn <;> rw [h] <;> rfl
        | finalizing => rw [hn.1]; rfl
        | _ => rfl
      rw [hown, hphase]
      exact .notice hown hn
  | interrupted hph happ =>
    rcases r with err | ⟨⟩
    · exact .quiet
    · show Effect cfg i w φ _ _ [.enactmentWritten i (w.enactments i) _]
      rw [hown]
      exact .interrupted hown hph happ
  | retryCount hph happ =>
    rcases r with err | ⟨⟩
    · exact .quiet
    · show Effect cfg i w φ _ _ [.enactmentWritten i (w.enactments i) _]
      rw [hown]
      exact .retryCount hown hph happ
  | @apply e _ hph happ hretries =>
    rcases r with ⟨output, err⟩ | ⟨⟩
    · have hnext : φ.phase.next (.applyDesiredState e.desiredState) (.error (output, err)) =
          .applyFailed e.policyGeneration := by rw [hph]; rfl
      rw [hnext]
      exact .applyFailed hown hph happ
    · have hnext : φ.phase.next (.applyDesiredState e.desiredState) (.ok ()) =
          .applied e.policyGeneration := by rw [hph]; rfl
      rw [hnext]
      exact .applied hown hph happ

/-! ## Every running procedure obeys the rules -/

/-- Each running procedure obeys the rules from where it stands, only the handlers of the listed
nodes run, and what a cache holds are versions of the policy, but for the counters. -/
structure Conforms (cfg : Config) (s : Sys) : Prop where
  obeys : ∀ i job p, s.handlers i = .running job p →
    Obeys cfg i p (fun _ _ φ => Settled φ) (s.world.enactments i) (s.ghosts i)
  listed : ∀ i job p, s.handlers i = .running job p → i ∈ cfg.nodeNames
  reclaiming : ∀ i p, s.handlers i = .running .reclaim p → (s.ghosts i).phase = .reclaiming
  resting : ∀ i, s.handlers i = .idle ∨ s.handlers i = .down → s.ghosts i = {}
  remembered : ∀ i, ∀ p ∈ (s.memory i).cached, s.world.Shows p

theorem jobProc_obeys (cfg : Config) (i : NodeName) (job : Job) (own : Option EnactmentStatus) :
    Obeys cfg i (jobProc cfg i job) (fun _ _ φ => Settled φ) own { phase := job.phase } := by
  cases job with
  | reconcile => exact Follows.bind (reconcile_obeys cfg i own) fun _ _ _ h => h
  | reclaim => exact reclaim_obeys cfg i own

/-- The world may change under resting and running handlers alike, as long as no enactment
does and no version of the policy is lost. -/
theorem Conforms.world {cfg : Config} {s : Sys} (h : Conforms cfg s) (w : World)
    (hw : w.enactments = s.world.enactments) (hsub : ∀ p ∈ s.world.versions, p ∈ w.versions) :
    Conforms cfg { s with world := w } :=
  ⟨fun i job p hrun => by rw [show (Sys.world _).enactments i = _ from congrFun hw i]
                          exact h.obeys i job p hrun,
    h.listed, h.reclaiming, h.resting, fun i p hp => by
      obtain ⟨v, hv, hpv⟩ := h.remembered i p hp
      exact ⟨v, hsub v hv, hpv⟩⟩

theorem Conforms.launch {cfg : Config} {s : Sys} (h : Conforms cfg s) {i : NodeName}
    (hi : i ∈ cfg.nodeNames) (job : Job) : Conforms cfg (s.launch cfg i job) := by
  constructor
  · intro j job' p hrun
    by_cases hj : j = i
    · subst hj
      simp only [Sys.launch, Function.update_self, Handler.running.injEq] at hrun ⊢
      obtain ⟨rfl, rfl⟩ := hrun
      exact jobProc_obeys cfg j job _
    · simp only [Sys.launch, Function.update_of_ne hj] at hrun ⊢
      exact h.obeys j job' p hrun
  · intro j job' p hrun
    by_cases hj : j = i
    · exact hj ▸ hi
    · simp only [Sys.launch, Function.update_of_ne hj] at hrun
      exact h.listed j job' p hrun
  · intro j p hrun
    by_cases hj : j = i
    · subst hj
      simp only [Sys.launch, Function.update_self, Handler.running.injEq] at hrun ⊢
      rw [hrun.1]
      rfl
    · simp only [Sys.launch, Function.update_of_ne hj] at hrun ⊢
      exact h.reclaiming j p hrun
  · intro j hrest
    by_cases hj : j = i
    · subst hj
      simp [Sys.launch] at hrest
    · simp only [Sys.launch, Function.update_of_ne hj] at hrest ⊢
      exact h.resting j hrest
  · exact h.remembered

theorem Conforms.halt {cfg : Config} {s : Sys} (h : Conforms cfg s) (i : NodeName) {rest : Handler}
    (hrest : rest = .idle ∨ rest = .down) {m : Memory} (hm : ∀ p ∈ m.cached, s.world.Shows p) :
    Conforms cfg (s.halt i rest m) := by
  have hnot : ∀ {j : NodeName} {job : Job} {p : Proc Unit},
      (s.halt i rest m).handlers j = .running job p → j ≠ i ∧ s.handlers j = .running job p := by
    intro j job p hrun
    by_cases hj : j = i
    · subst hj
      simp only [Sys.halt, Function.update_self] at hrun
      rcases hrest with rfl | rfl <;> cases hrun
    · simp only [Sys.halt, Function.update_of_ne hj] at hrun
      exact ⟨hj, hrun⟩
  constructor
  · intro j job p hrun
    obtain ⟨hj, hrun⟩ := hnot hrun
    simpa only [Sys.halt, Function.update_of_ne hj] using h.obeys j job p hrun
  · exact fun j job p hrun => h.listed j job p (hnot hrun).2
  · intro j p hrun
    obtain ⟨hj, hrun⟩ := hnot hrun
    simpa only [Sys.halt, Function.update_of_ne hj] using h.reclaiming j p hrun
  · intro j hr
    by_cases hj : j = i
    · subst hj
      simp [Sys.halt]
    · simp only [Sys.halt, Function.update_of_ne hj] at hr ⊢
      exact h.resting j hr
  · intro j p hp
    by_cases hj : j = i
    · subst hj
      simp only [Sys.halt, Function.update_self] at hp
      exact hm p hp
    · simp only [Sys.halt, Function.update_of_ne hj] at hp
      exact h.remembered j p hp

/-- An answered call of the handler of node `i`. -/
theorem Conforms.exec {cfg : Config} {s : Sys} (h : Conforms cfg s) {i : NodeName} {job : Job}
    {o : Op} {k : o.Resp → Proc Unit} {r : o.Resp} (hrun : s.handlers i = .running job (.call o k))
    (ht : Truthful cfg i s.world o r) (log : List Event) :
    Conforms cfg
      { world := s.world.after i o r
        handlers := Function.update s.handlers i (.running job (k r))
        ghosts := Function.update s.ghosts i ((s.ghosts i).next o r)
        log := log
        memory := Function.update s.memory i ((s.memory i).after s.world o) } := by
  constructor
  · intro j job' p hj
    by_cases hji : j = i
    · subst hji
      simp only [Function.update_self, Handler.running.injEq] at hj ⊢
      obtain ⟨-, rfl⟩ := hj
      exact (h.obeys j job _ hrun).2 r _ ⟨s.world, rfl, ht, rfl⟩
    · simp only [Function.update_of_ne hji] at hj ⊢
      rw [World.after_enactments_of_ne _ hji]
      exact h.obeys j job' p hj
  · intro j job' p hj
    by_cases hji : j = i
    · exact hji ▸ h.listed i job _ hrun
    · simp only [Function.update_of_ne hji] at hj
      exact h.listed j job' p hj
  · intro j p hj
    by_cases hji : j = i
    · subst hji
      simp only [Function.update_self, Handler.running.injEq] at hj ⊢
      obtain ⟨rfl, -⟩ := hj
      rw [Ghost.phase_next, h.reclaiming j _ hrun]
      exact Phase.next_reclaiming o r
    · simp only [Function.update_of_ne hji] at hj ⊢
      exact h.reclaiming j p hj
  · intro j hj
    by_cases hji : j = i
    · subst hji
      simp at hj
    · simp only [Function.update_of_ne hji] at hj ⊢
      exact h.resting j hj
  · intro j p hp
    refine World.shows_after ?_ i o r
    by_cases hji : j = i
    · subst hji
      simp only [Function.update_self] at hp
      exact Memory.shows_after (h.remembered j) o p hp
    · simp only [Function.update_of_ne hji] at hp
      exact h.remembered j p hp

/-- The call a handler is in the middle of is a permitted one. -/
theorem Conforms.permits {cfg : Config} {s : Sys} (h : Conforms cfg s) {i : NodeName} {o : Op}
    (ho : s.pending i = some o) : Permits cfg (s.world.enactments i) (s.ghosts i) o := by
  unfold Sys.pending at ho
  split at ho
  · rename_i job proc hrun
    cases proc with
    | ret u => cases ho
    | call o' k =>
      cases ho
      exact (h.obeys i job _ hrun).1
  · cases ho

/-- Without a `Reconcile` in progress the handler is at the beginning, or in the reclaim. -/
theorem Conforms.phase_of_not_reconciling {cfg : Config} {s : Sys} (h : Conforms cfg s)
    {i : NodeName} (hi : s.reconciling i = false) :
    (s.ghosts i).phase = .idle ∨ (s.ghosts i).phase = .reclaiming := by
  cases hrun : s.handlers i with
  | down => exact Or.inl (by rw [h.resting i (Or.inr hrun)])
  | idle => exact Or.inl (by rw [h.resting i (Or.inl hrun)])
  | running job p =>
    cases job with
    | reconcile => simp [Sys.reconciling, hrun] at hi
    | reclaim => exact Or.inr (h.reclaiming i p hrun)

theorem Sys.inApply_iff {s : Sys} {g : Generation} {i : NodeName} :
    s.inApply g i = true ↔ ∃ desired e, s.pending i = some (.applyDesiredState desired) ∧
      s.world.enactments i = some e ∧ e.policyGeneration = g := by
  unfold Sys.inApply
  split
  · rename_i desired e hpending hown
    simp [hpending, hown]
  · rename_i hnot
    constructor
    · intro h
      cases h
    · rintro ⟨desired, e, hpending, hown, -⟩
      exact absurd hown (hnot desired e hpending)

/-- A node inside the apply is marked for it. -/
theorem Conforms.marked_of_inApply {cfg : Config} {s : Sys} (h : Conforms cfg s) {i : NodeName}
    {g : Generation} (ha : s.inApply g i = true) :
    ∃ e, s.world.enactments i = some e ∧ e.policyGeneration = g ∧
      (s.ghosts i).phase = .marked g ∧ Applying e := by
  obtain ⟨desired, e, hpending, hown, hg⟩ := Sys.inApply_iff.mp ha
  obtain ⟨e', hown', -, hph, happ⟩ := (h.permits hpending).of_apply
  obtain rfl : e = e' := Option.some.inj (hown.symm.trans hown')
  exact ⟨e, hown, hg, hg ▸ hph, happ⟩

/-! ## What a step does -/

/-- The handler of node `i` gets the answer `r` to its call `o`: what is known before, and
what the call did. -/
structure Executes (cfg : Config) (s : Sys) (i : NodeName) (a : Answer) (o : Op) (r : o.Resp)
    (w : World) (φ : Ghost) (evs : List Event) : Prop where
  pending : s.pending i = some o
  served : serve cfg i (s.memory i) s.world o a = some (r, w)
  truthful : Truthful cfg i s.world o r
  after : w = s.world.after i o r
  permits : Permits cfg (s.world.enactments i) (s.ghosts i) o
  effect : Effect cfg i s.world (s.ghosts i) w φ.phase evs
  glimpse : Glimpse cfg s.world (s.ghosts i).view φ.view
  ghost : φ = (s.ghosts i).next o r
  recorded : evs = events i s.world (s.ghosts i).view o r

/-- **Everything a step can do** in a state whose handlers obey the rules. -/
inductive Moves (cfg : Config) (s : Sys) : Label → Sys → Prop where
  | tick (seconds : ℕ) : Moves cfg s (.tick seconds)
      { s with world := { s.world with clock := s.world.clock + seconds } }
  | edit (spec : PolicySpec) (conditions : ConditionList) :
      Moves cfg s (.edit spec conditions) { s with world := s.world.edit spec conditions }
  | cluster (nodes : List Node) (pods : List Pod) :
      Moves cfg s (.cluster nodes pods)
        { s with world := { s.world with nodes := nodes, pods := pods } }
  | start {i : NodeName} (hi : i ∈ cfg.nodeNames) (hidle : s.handlers i = .idle) :
      Moves cfg s (.start i) (s.launch cfg i .reconcile)
  | exec {i : NodeName} {a : Answer} {job : Job} {o : Op} {k : o.Resp → Proc Unit} {r : o.Resp}
      {w : World} {φ : Ghost} {evs : List Event}
      (hrun : s.handlers i = .running job (.call o k)) (hi : i ∈ cfg.nodeNames)
      (hx : Executes cfg s i a o r w φ evs) :
      Moves cfg s (.exec i a)
        { world := w
          handlers := Function.update s.handlers i (.running job (k r))
          ghosts := Function.update s.ghosts i φ
          log := evs ++ s.log
          memory := Function.update s.memory i ((s.memory i).after s.world o) }
  | finish {i : NodeName} {job : Job} (hrun : s.handlers i = .running job (.ret ()))
      (hsettled : Settled (s.ghosts i)) :
      Moves cfg s (.finish i) (s.halt i .idle (s.memory i))
  | crash (i : NodeName) : Moves cfg s (.crash i) (s.halt i .down {})
  | restart {i : NodeName} (hi : i ∈ cfg.nodeNames) (hdown : s.handlers i = .down) :
      Moves cfg s (.restart i) (s.launch cfg i .reclaim)

theorem moves_of_step {cfg : Config} {s s' : Sys} {l : Label} (hc : Conforms cfg s)
    (h : step cfg s l = some s') : Moves cfg s l s' ∧ Conforms cfg s' := by
  cases l with
  | tick seconds =>
    cases h
    exact ⟨.tick seconds, hc.world _ rfl fun _ hp => hp⟩
  | edit spec conditions =>
    cases h
    exact ⟨.edit spec conditions, hc.world _ rfl fun _ hp => List.mem_cons_of_mem _ hp⟩
  | cluster nodes pods =>
    cases h
    exact ⟨.cluster nodes pods, hc.world _ rfl fun _ hp => hp⟩
  | start i =>
    simp only [step] at h
    split at h
    · rename_i hidle
      split at h
      · rename_i hi
        cases h
        exact ⟨.start hi hidle, hc.launch hi _⟩
      · cases h
    · cases h
  | exec i a =>
    simp only [step] at h
    split at h
    · rename_i job o k hrun
      split at h
      · rename_i r w hserve
        cases h
        obtain ⟨ht, rfl⟩ := serve_spec (hc.remembered i) hserve
        have hg := (hc.obeys i job _ hrun).1
        exact ⟨.exec hrun (hc.listed i job _ hrun)
          { pending := by simp [Sys.pending, hrun, Prog.pending]
            served := hserve
            truthful := ht
            after := rfl
            permits := hg
            effect := effect_of_permits hg ht
            glimpse := glimpse_of_truthful ht
            ghost := rfl
            recorded := rfl }, hc.exec hrun ht _⟩
      · cases h
    · cases h
  | finish i =>
    simp only [step] at h
    split at h
    · rename_i job u hrun
      cases h
      exact ⟨.finish hrun (hc.obeys i job _ hrun), hc.halt i (Or.inl rfl) (hc.remembered i)⟩
    · cases h
  | crash i =>
    cases h
    exact ⟨.crash i, hc.halt i (Or.inr rfl) fun _ hp => absurd hp List.not_mem_nil⟩
  | restart i =>
    simp only [step] at h
    split at h
    · rename_i hdown
      split at h
      · rename_i hi
        cases h
        exact ⟨.restart hi hdown, hc.launch hi _⟩
      · cases h
    · cases h

/-! ## Versions of the policy -/

/-- The version of the policy `Reconcile` works on. -/
def Phase.policy : Phase → Option Policy
  | .looked p | .initialized p _ | .unrendered p | .generationReset p | .rendered p _ _
  | .filled p _ => some p
  | _ => none

/-- The versions of the policy are ordered, and whatever a handler has read of it is one of
them, but for the counters. -/
structure Sound (cfg : Config) (s : Sys) : Prop where
  conforms : Conforms cfg s
  older : ∀ p ∈ s.world.older, p.resourceVersion < s.world.policy.resourceVersion ∧
    p.generation ≤ s.world.policy.generation
  seen : ∀ i p, (s.ghosts i).view.policy = some p → s.world.Shows p
  basis : ∀ i p, (s.ghosts i).phase.policy = some p → s.world.Shows p

/-- What was read with the newest `resourceVersion` is the newest version, but for the
counters. -/
theorem Sound.current {cfg : Config} {s : Sys} (h : Sound cfg s) {i : NodeName} {p : Policy}
    (hp : (s.ghosts i).view.policy = some p)
    (hrv : p.resourceVersion = s.world.policy.resourceVersion) : p.Resembles s.world.policy := by
  obtain ⟨v, hv, hpv⟩ := h.seen i p hp
  rcases List.mem_cons.mp hv with rfl | hold
  · exact hpv
  · rw [hpv.resourceVersion_eq] at hrv
    exact absurd hrv (Nat.ne_of_lt (h.older v hold).1)

/-- A call leaves the versions of the policy, or commits one more. -/
theorem Effect.world {cfg : Config} {i : NodeName} {w w' : World} {φ : Ghost} {ph : Phase}
    {evs : List Event} (h : Effect cfg i w φ w' ph evs) :
    (w'.policy = w.policy ∧ w'.older = w.older) ∨ ∃ status, w' = w.commitStatus status := by
  cases h <;> first
    | exact Or.inl ⟨rfl, rfl⟩
    | exact Or.inr ⟨_, rfl⟩

theorem Effect.phase_policy {cfg : Config} {i : NodeName} {w w' : World} {φ : Ghost} {ph : Phase}
    {evs : List Event} {p : Policy} (h : Effect cfg i w φ w' ph evs) (hp : ph.policy = some p) :
    φ.phase.policy = some p ∨ w.Shows p := by
  cases h with
  | looked hmem hph =>
    cases hp
    exact Or.inr hmem
  | found hown hph => exact Or.inl (by rw [hph]; exact hp)
  | rendered hph => exact Or.inl (by rw [hph]; exact hp)
  | unrendered hph => exact Or.inl (by rw [hph]; exact hp)
  | resetGeneration hown hph => exact Or.inl (by rw [hph]; exact hp)
  | fill hown hph hvlan => exact Or.inl (by rw [hph]; exact hp)
  | notice hown hn =>
    rename_i e n t message
    cases n <;> first
      | exact Or.inl hp
      | cases hp
  | _ => first
    | exact Or.inl hp
    | cases hp

theorem Glimpse.policy_of {cfg : Config} {w : World} {v v' : View} {p : Policy}
    (h : Glimpse cfg w v v') (hp : v'.policy = some p) : v.policy = some p ∨ w.Shows p := by
  cases h with
  | policy hmem =>
    cases hp
    exact Or.inr hmem
  | _ => exact Or.inl hp

theorem Sound.of_rests {cfg : Config} {s : Sys} (h : Rests s)
    (hold : ∀ p ∈ s.world.older, p.resourceVersion < s.world.policy.resourceVersion ∧
      p.generation ≤ s.world.policy.generation) : Sound cfg s := by
  have hnot : ∀ {i : NodeName} {job : Job} {p : Proc Unit}, s.handlers i ≠ .running job p := by
    intro i job p hrun
    rcases h.handlers i with hi | hi <;> rw [hi] at hrun <;> cases hrun
  refine ⟨⟨fun i job p hrun => absurd hrun hnot, fun i job p hrun => absurd hrun hnot,
    fun i p hrun => absurd hrun hnot, fun i _ => h.ghosts i, fun i p hp => by
      rw [h.memory i] at hp
      exact absurd hp List.not_mem_nil⟩, hold, ?_, ?_⟩
  · intro i p hp
    rw [h.ghosts i] at hp
    cases hp
  · intro i p hp
    rw [h.ghosts i] at hp
    cases hp

/-- Where runs begin: nothing runs yet, and the versions of the policy are in order. -/
structure Initial (s : Sys) : Prop where
  rests : Rests s
  ordered : ∀ p ∈ s.world.older, p.resourceVersion < s.world.policy.resourceVersion ∧
    p.generation ≤ s.world.policy.generation

theorem Initial.sound {cfg : Config} {s : Sys} (h : Initial s) : Sound cfg s :=
  .of_rests h.rests h.ordered

/-- A handler that begins or stops has read nothing. -/
theorem Sound.ghost {cfg : Config} {s : Sys} (h : Sound cfg s) {i : NodeName} {φ : Ghost}
    (hv : φ.view.policy = none) (hph : φ.phase.policy = none) {handlers : NodeName → Handler}
    {memory : NodeName → Memory}
    (hc : Conforms cfg ⟨s.world, handlers, Function.update s.ghosts i φ, s.log, memory⟩) :
    Sound cfg ⟨s.world, handlers, Function.update s.ghosts i φ, s.log, memory⟩ := by
  refine ⟨hc, h.older, ?_, ?_⟩ <;>
  · intro j p hp
    by_cases hj : j = i
    · subst hj
      simp [hv, hph] at hp
    · simp only [Function.update_of_ne hj] at hp
      first
        | exact h.seen j p hp
        | exact h.basis j p hp

/-- The world moves on to one whose versions include the ones before. -/
theorem Sound.grow {cfg : Config} {s : Sys} (h : Sound cfg s) {w : World}
    {ghosts : NodeName → Ghost} {handlers : NodeName → Handler} {log : List Event}
    {memory : NodeName → Memory}
    (hc : Conforms cfg ⟨w, handlers, ghosts, log, memory⟩)
    (hsub : ∀ p ∈ s.world.versions, p ∈ w.versions)
    (hold : ∀ p ∈ w.older, p.resourceVersion < w.policy.resourceVersion ∧
      p.generation ≤ w.policy.generation)
    (hseen : ∀ i p, (ghosts i).view.policy = some p →
      (s.ghosts i).view.policy = some p ∨ s.world.Shows p)
    (hbasis : ∀ i p, (ghosts i).phase.policy = some p →
      (s.ghosts i).phase.policy = some p ∨ s.world.Shows p) :
    Sound cfg ⟨w, handlers, ghosts, log, memory⟩ := by
  have hshows : ∀ {p}, s.world.Shows p → w.Shows p := fun ⟨v, hv, hp⟩ => ⟨v, hsub v hv, hp⟩
  refine ⟨hc, hold, fun i p hp => ?_, fun i p hp => ?_⟩
  · rcases hseen i p hp with hp | hp
    · exact hshows (h.seen i p hp)
    · exact hshows hp
  · rcases hbasis i p hp with hp | hp
    · exact hshows (h.basis i p hp)
    · exact hshows hp

/-- Every version is below one that is committed now. -/
theorem Sound.versions_lt {cfg : Config} {s : Sys} (h : Sound cfg s) {p : Policy}
    (hp : p ∈ s.world.versions) : p.resourceVersion < s.world.policy.resourceVersion + 1 ∧
      p.generation ≤ s.world.policy.generation := by
  rcases List.mem_cons.mp hp with rfl | hold
  · exact ⟨Nat.lt_succ_self _, Nat.le_refl _⟩
  · exact ⟨Nat.lt_succ_of_lt (h.older p hold).1, (h.older p hold).2⟩

theorem Sound.shows_lt {cfg : Config} {s : Sys} (h : Sound cfg s) {p : Policy}
    (hp : s.world.Shows p) : p.resourceVersion < s.world.policy.resourceVersion + 1 := by
  obtain ⟨v, hv, hpv⟩ := hp
  rw [hpv.resourceVersion_eq]
  exact (h.versions_lt hv).1

theorem Sound.next {cfg : Config} {s s' : Sys} {l : Label} (h : Sound cfg s)
    (hs : step cfg s l = some s') : Sound cfg s' := by
  obtain ⟨hm, hc⟩ := moves_of_step h.conforms hs
  cases hm with
  | tick seconds => exact h.grow hc (fun _ hp => hp) h.older (fun _ _ => Or.inl) fun _ _ => Or.inl
  | cluster nodes pods =>
    exact h.grow hc (fun _ hp => hp) h.older (fun _ _ => Or.inl) fun _ _ => Or.inl
  | edit spec conditions =>
    refine h.grow hc (fun _ hp => List.mem_cons_of_mem _ hp) (fun p hp => ?_)
      (fun _ _ => Or.inl) fun _ _ => Or.inl
    obtain ⟨hrv, hgen⟩ := h.versions_lt hp
    exact ⟨hrv, Nat.le_succ_of_le hgen⟩
  | start hi hidle => exact h.ghost rfl rfl hc
  | restart hi hdown => exact h.ghost rfl rfl hc
  | finish hrun hsettled => exact h.ghost rfl rfl hc
  | crash i => exact h.ghost rfl rfl hc
  | exec hrun hi hx =>
    rename_i i a job o k r w φ evs
    have hseen : ∀ j p, (Function.update s.ghosts i φ j).view.policy = some p →
        (s.ghosts j).view.policy = some p ∨ s.world.Shows p := by
      intro j p hp
      by_cases hj : j = i
      · subst hj
        rw [Function.update_self] at hp
        exact hx.glimpse.policy_of hp
      · rw [Function.update_of_ne hj] at hp
        exact Or.inl hp
    have hbasis : ∀ j p, (Function.update s.ghosts i φ j).phase.policy = some p →
        (s.ghosts j).phase.policy = some p ∨ s.world.Shows p := by
      intro j p hp
      by_cases hj : j = i
      · subst hj
        rw [Function.update_self] at hp
        exact hx.effect.phase_policy hp
      · rw [Function.update_of_ne hj] at hp
        exact Or.inl hp
    rcases hx.effect.world with ⟨hpol, hold⟩ | ⟨status, rfl⟩
    · refine h.grow hc (fun p hp => ?_) ?_ hseen hbasis
      · rw [World.versions, hpol, hold]
        exact hp
      · rw [hpol, hold]
        exact h.older
    · exact h.grow hc (fun _ hp => List.mem_cons_of_mem _ hp) (fun p hp => h.versions_lt hp)
        hseen hbasis

/-- A new version has at least the newest generation, and the same one unless the step is an
edit. -/
theorem Sound.versions_next {cfg : Config} {s s' : Sys} {l : Label} (h : Sound cfg s)
    (hs : step cfg s l = some s') {p : Policy} (hp : p ∈ s'.world.versions) :
    p ∈ s.world.versions ∨ s.world.policy.generation ≤ p.generation ∧
      (l.edits = false → p.generation = s.world.policy.generation) := by
  obtain ⟨hm, -⟩ := moves_of_step h.conforms hs
  cases hm with
  | edit spec conditions =>
    rcases List.mem_cons.mp hp with rfl | hp
    · exact Or.inr ⟨Nat.le_succ _, fun hl => by cases hl⟩
    · exact Or.inl hp
  | exec hrun hi hx =>
    rcases hx.effect.world with ⟨hpol, hold⟩ | ⟨status, rfl⟩
    · rw [World.versions, hpol, hold] at hp
      exact Or.inl hp
    · rcases List.mem_cons.mp hp with rfl | hp
      · exact Or.inr ⟨Nat.le_refl _, fun _ => rfl⟩
      · exact Or.inl hp
  | _ => exact Or.inl hp

/-- Along every run. -/
theorem Sound.reach {cfg : Config} {ok : Sys → Label → Prop} {s₀ s : Sys} (h₀ : Sound cfg s₀)
    (h : Reach cfg ok s₀ s) : Sound cfg s :=
  h.induct h₀ fun _ _ _ hi _ hs => hi.next hs

/-! ## Invariants of one node -/

/-- The node a recorded event is about. -/
def Event.node : Event → NodeName
  | .policyWritten node _ _ | .enactmentWritten node _ _ | .generated node _ _
  | .applied node _ _ => node

theorem Effect.node_eq {cfg : Config} {i : NodeName} {w w' : World} {φ : Ghost} {ph : Phase}
    {evs : List Event} (h : Effect cfg i w φ w' ph evs) : ∀ ev ∈ evs, ev.node = i := by
  cases h <;> simp [Event.node]

/-- A call leaves at most one trace in the log. -/
theorem Effect.events_cases {cfg : Config} {i : NodeName} {w w' : World} {φ : Ghost} {ph : Phase}
    {evs : List Event} (h : Effect cfg i w φ w' ph evs) : evs = [] ∨ ∃ ev, evs = [ev] := by
  cases h <;> first
    | exact Or.inl rfl
    | exact Or.inr ⟨_, rfl⟩

/-- What can be said about one node without looking at the others: the versions of the
policy, its enactment, where its handler stands, and the log. -/
structure NodeView where
  versions : List Policy
  own : Option EnactmentStatus
  phase : Phase
  log : List Event

/-- The node `i` of a system. -/
def Sys.node (s : Sys) (i : NodeName) : NodeView where
  versions := s.world.versions
  own := s.world.enactments i
  phase := (s.ghosts i).phase
  log := s.log

/-- **Invariants of one node.**  An invariant of the view of node `i` holds along every run
if it survives new versions of the policy and events of other nodes, a handler that begins
or stops, and every call of the node's own handler. -/
theorem Reach.node_induct {cfg : Config} {ok : Sys → Label → Prop} {s₀ s : Sys} {i : NodeName}
    {I : NodeView → Prop} (h : Reach cfg ok s₀ s) (hsound : Sound cfg s₀) (h₀ : I (s₀.node i))
    (hgrow : ∀ (v : NodeView) versions evs, I v → (∀ p ∈ v.versions, p ∈ versions) →
      (∀ ev ∈ evs, Event.node ev ≠ i) → I { v with versions := versions, log := evs ++ v.log })
    (hreset : ∀ (v : NodeView) ph, I v → ph = .idle ∨ ph = .reclaiming → I { v with phase := ph })
    (hexec : ∀ s a o r w φ evs, Sound cfg s → I (s.node i) → ok s (.exec i a) →
      Executes cfg s i a o r w φ evs →
      I ⟨w.versions, w.enactments i, φ.phase, evs ++ s.log⟩) : I (s.node i) := by
  induction h with
  | refl => exact h₀
  | next hreach hok hstep hi =>
  rename_i s s' l
  have hs := hsound.reach hreach
  have hgrow₀ : ∀ (w : World) (v : NodeView), I v → (∀ p ∈ v.versions, p ∈ w.versions) →
      I { v with versions := w.versions } := fun w v hv hsub =>
    hgrow v w.versions [] hv hsub fun _ hev => absurd hev List.not_mem_nil
  obtain ⟨hm, -⟩ := moves_of_step hs.conforms hstep
  cases hm with
  | tick seconds => exact hi
  | cluster nodes pods => exact hi
  | edit spec conditions =>
    exact hgrow₀ (s.world.edit spec conditions) _ hi fun p hp => List.mem_cons_of_mem _ hp
  | start hi' hidle =>
    rename_i j
    by_cases hj : i = j
    · subst hj
      simpa [Sys.node, Sys.launch, Job.phase] using hreset _ .idle hi (Or.inl rfl)
    · simpa [Sys.node, Sys.launch, Function.update_of_ne hj] using hi
  | restart hi' hdown =>
    rename_i j
    by_cases hj : i = j
    · subst hj
      simpa [Sys.node, Sys.launch, Job.phase] using hreset _ .reclaiming hi (Or.inr rfl)
    · simpa [Sys.node, Sys.launch, Function.update_of_ne hj] using hi
  | finish hrun hsettled =>
    rename_i j job
    by_cases hj : i = j
    · subst hj
      simpa [Sys.node, Sys.halt] using hreset _ .idle hi (Or.inl rfl)
    · simpa [Sys.node, Sys.halt, Function.update_of_ne hj] using hi
  | crash j =>
    by_cases hj : i = j
    · subst hj
      simpa [Sys.node, Sys.halt] using hreset _ .idle hi (Or.inl rfl)
    · simpa [Sys.node, Sys.halt, Function.update_of_ne hj] using hi
  | exec hrun hi' hx =>
    rename_i j a job o k r w φ evs
    by_cases hj : i = j
    · subst hj
      simpa [Sys.node] using hexec s a o r w φ evs hs hi hok hx
    · have hsub : ∀ p ∈ s.world.versions, p ∈ w.versions := by
        rcases hx.effect.world with ⟨hpol, hold⟩ | ⟨status, rfl⟩
        · intro p hp
          rw [World.versions, hpol, hold]
          exact hp
        · exact fun p hp => List.mem_cons_of_mem _ hp
      have hown : w.enactments i = s.world.enactments i := by
        rw [hx.after]
        exact World.after_enactments_of_ne _ hj o r
      have hall : ∀ ev ∈ evs, Event.node ev ≠ i :=
        fun ev hev => by rw [hx.effect.node_eq ev hev]; exact fun h => hj h.symm
      simpa [Sys.node, Function.update_of_ne hj, hown] using hgrow _ w.versions evs hi hsub hall

/-! ## Conditions on runs -/

/-- A run may be taken to meet what holds in all the states it can reach. -/
theorem Reach.with_invariant {cfg : Config} {ok : Sys → Label → Prop} {s₀ s : Sys} {J : Sys → Prop}
    (h : Reach cfg ok s₀ s) (hJ : ∀ s, Reach cfg ok s₀ s → J s) :
    Reach cfg (fun s l => ok s l ∧ J s) s₀ s := by
  induction h with
  | refl => exact .refl
  | next hreach hok hs ih => exact .next ih ⟨hok, hJ _ hreach⟩ hs

theorem Reach.mono {cfg : Config} {ok ok' : Sys → Label → Prop} {s₀ s : Sys}
    (h : Reach cfg ok s₀ s) (hok : ∀ s l, ok s l → ok' s l) : Reach cfg ok' s₀ s := by
  induction h with
  | refl => exact .refl
  | next _ hl hs ih => exact .next ih (hok _ _ hl) hs

/-- The version of the policy that `Reconcile` on node `i` reads in this step. -/
def policyRead (i : NodeName) (s : Sys) : Label → Option Policy
  | .exec j (.version k) =>
    match s.pending i with
    | some (.getPolicy .cached .reconcile) => if j = i then s.world.versions[k]? else none
    | _ => none
  | .exec j (.kept k) =>
    match s.pending i with
    | some (.getPolicy .cached .reconcile) => if j = i then (s.memory i).cached[k]? else none
    | _ => none
  | _ => none

/-- What a read of the policy shows in this step. -/
def policyShown (cfg : Config) (s : Sys) : Label → Option Policy
  | .exec i a =>
    match s.pending i with
    | some (.getPolicy client caller) =>
      match serve cfg i (s.memory i) s.world (.getPolicy client caller) a with
      | some (.ok p, _) => some p
      | _ => none
    | _ => none
  | _ => none

/-- The newest version of the policy is read with other counters than it has. -/
def misreads (cfg : Config) (s : Sys) (l : Label) : Bool :=
  (policyShown cfg s l).any fun p =>
    p.resourceVersion = s.world.policy.resourceVersion ∧ p ≠ s.world.policy

/-- `GenerateState` fails on node `i` in this step. -/
def generateFails (i : NodeName) (s : Sys) : Label → Bool
  | .exec j (.fail _) =>
    match s.pending i with
    | some (.generateState _ _ _) => j = i
    | _ => false
  | _ => false

/-- The enactment of node `i` is deleted in this step. -/
def deletes (i : NodeName) (s : Sys) : Label → Bool
  | .exec j .done =>
    match s.pending i with
    | some .deleteEnactment => j = i
    | _ => false
  | _ => false

/-- Without edits the generation stays what it is. -/
theorem Reach.generation_eq {cfg : Config} {ok : Sys → Label → Prop} {s₀ s : Sys} {g : Generation}
    (h : Reach cfg ok s₀ s) (h₀ : Initial s₀) (hok : ∀ s l, ok s l → l.edits = false)
    (hg : ∀ p ∈ s₀.world.versions, p.generation = g) :
    ∀ p ∈ s.world.versions, p.generation = g := by
  induction h with
  | refl => exact hg
  | next hreach hl hs ih =>
  intro p hp
  rcases (h₀.sound.reach hreach).versions_next hs hp with hp | ⟨-, hsame⟩
  · exact ih p hp
  · exact (hsame (hok _ _ hl)).trans (ih _ List.mem_cons_self)

/-- Work on a version begins with the read of it. -/
theorem Phase.of_next_looked {ph : Phase} {o : Op} {r : o.Resp} {p : Policy}
    (h : ph.next o r = .looked p) :
    ph = .looked p ∨ ∃ ho : o = .getPolicy .cached .reconcile, r = ho ▸ .ok p := by
  unfold Phase.next at h
  split at h
  · split at h
    · cases h
      exact Or.inr ⟨rfl, rfl⟩
    · exact Or.inl h
  all_goals first
    | exact Or.inl h
    | (split at h <;> first | exact Or.inl h | cases h)
    | (split at h <;> (try split at h) <;> first | exact Or.inl h | cases h)

/-- The policy in a view was read. -/
theorem View.of_next_policy {v : View} {o : Op} {r : o.Resp} {p : Policy}
    (h : (v.next o r).policy = some p) :
    v.policy = some p ∨ ∃ client caller, ∃ ho : o = .getPolicy client caller, r = ho ▸ .ok p := by
  unfold View.next at h
  split at h
  all_goals first
    | exact Or.inl h
    | (cases h; exact Or.inr ⟨_, _, rfl, rfl⟩)

/-- A rendering is given up when the generation fails. -/
theorem Phase.of_next_unrendered {ph : Phase} {o : Op} {r : o.Resp} {p : Policy}
    (h : ph.next o r = .unrendered p) :
    ph = .unrendered p ∨ ∃ spec current captured err,
      ∃ ho : o = .generateState spec current captured, r = ho ▸ .error err := by
  unfold Phase.next at h
  split at h
  all_goals first
    | exact Or.inl h
    | (split at h <;> first | exact Or.inl h | exact Or.inr ⟨_, _, _, _, rfl, rfl⟩ | cases h)
    | (split at h <;> (try split at h) <;> first | exact Or.inl h | cases h)

section

variable {cfg : Config} {s : Sys} {i : NodeName} {a : Answer} {o : Op} {r : o.Resp} {w : World}
  {φ : Ghost} {evs : List Event}

/-- A handler that has just begun to work on a version has read it in this step. -/
theorem Executes.policyRead_eq {p : Policy} (hx : Executes cfg s i a o r w φ evs)
    (hph : φ.phase = .looked p) :
    (s.ghosts i).phase = .looked p ∨ policyRead i s (.exec i a) = some p := by
  rw [hx.ghost, Ghost.phase_next] at hph
  rcases Phase.of_next_looked hph with h | ⟨rfl, hr⟩
  · exact Or.inl h
  · have hserved := hx.served
    subst hr
    cases a <;> simp [serve] at hserved <;>
      exact Or.inr (by simp [policyRead, hx.pending, hserved.1])

/-- What a handler has newly read of the policy was shown in this step. -/
theorem Executes.policyShown_eq {p : Policy} (hx : Executes cfg s i a o r w φ evs)
    (hp : φ.view.policy = some p) :
    (s.ghosts i).view.policy = some p ∨
      policyShown cfg s (.exec i a) = some p ∧ w = s.world := by
  rw [hx.ghost, Ghost.next] at hp
  rcases View.of_next_policy hp with h | ⟨client, caller, rfl, hr⟩
  · exact Or.inl h
  · have hserved := hx.served
    subst hr
    refine Or.inr ⟨by simp only [policyShown, hx.pending, hserved], ?_⟩
    rw [hx.after]
    exact World.after_of_observes rfl _

/-- A rendering that was given up has just failed. -/
theorem Executes.generateFails_eq {p : Policy} (hx : Executes cfg s i a o r w φ evs)
    (hph : φ.phase = .unrendered p) :
    (s.ghosts i).phase = .unrendered p ∨ generateFails i s (.exec i a) = true := by
  rw [hx.ghost, Ghost.phase_next] at hph
  rcases Phase.of_next_unrendered hph with h | ⟨spec, current, captured, err, rfl, hr⟩
  · exact Or.inl h
  · have hserved := hx.served
    subst hr
    cases a <;> simp [serve] at hserved
    simp [generateFails, hx.pending]

/-- An enactment that is gone was deleted in this step. -/
theorem Executes.deletes_eq (hx : Executes cfg s i a o r w φ evs)
    (hown : s.world.enactments i ≠ none) (hgone : w.enactments i = none) :
    deletes i s (.exec i a) = true := by
  have hserved := hx.served
  rw [hx.after] at hgone
  unfold World.after at hgone
  split at hgone
  · exact absurd hgone hown
  · simp at hgone
  · cases a <;> simp [serve] at hserved
    simp [deletes, hx.pending]
  · simp at hgone
  · exact absurd hgone hown

end
