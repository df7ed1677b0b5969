/-
# At most `maxUnavailable`

The counter of a generation and the nodes that hold a slot of it, for one generation that does
not change.  The counter is written by claims, releases, audits and the policy's verdict
(`Counted`); the holders are what `Books` makes of the enactments and the handlers.

`maxUnavailable_respected`: at most `maxUnavailable` nodes are inside the apply or have failed for
good, with crashes and refused calls at any point, as long as claims are shown within the grace
window, no `Reconcile` runs on a stale enactment, the nodes are Ready, and no handler reads the
newest version of the policy with counters that an earlier attempt of its own left in memory.
-/
import KubernetesNmstate.Books

/-! ## What a step does to the counter -/

/-- The log grows by at most one event, which is not a claim or a release of node `i`. -/
def Untouched (i : NodeName) (s s' : Sys) : Prop :=
  s'.log = s.log ∨ ∃ ev, s'.log = ev :: s.log ∧ Event.countsFor i ev = false

/-- How the counter of `g` can change, with the circumstances. -/
inductive Counted (cfg : Config) (g : Generation) (s s' : Sys) : Prop where
  | steady (hlog : ∀ i, Untouched i s s')
      (hcount : s'.world.policy.count g = s.world.policy.count g)
  | claim {j : NodeName} {e : EnactmentStatus} (hj : j ∈ cfg.nodeNames)
      (hown : s.world.enactments j = some e) (hask : Asking cfg (s.ghosts j).phase e)
      (hown' : s'.world.enactments j = some e) (hphase : (s'.ghosts j).phase = .claimed g)
      (hlog : s'.log = .policyWritten j (.increment g) (s.ghosts j).view :: s.log)
      (hcap : s.world.policy.count g < (s.ghosts j).view.cap s.world.policy)
      (hcount : s'.world.policy.count g = s.world.policy.count g + 1)
  | release {j : NodeName} {reader : Client} (hj : j ∈ cfg.nodeNames) (hheld : Held g (s.ghosts j))
      (hphase : (s'.ghosts j).phase = .released g)
      (hown : s'.world.enactments j = s.world.enactments j)
      (hlog : s'.log = .policyWritten j (.decrement reader g) (s.ghosts j).view :: s.log)
      (hcount : s'.world.policy.count g = s.world.policy.count g - 1)
  | audit {j : NodeName} {l : Listing} (hlog : ∀ i, Untouched i s s')
      (hp : (s.ghosts j).view.policy = some s.world.policy)
      (hl : (s.ghosts j).view.listing = some l) (hdue : l.due = true)
      (hlt : l.holders cfg g < s.world.policy.count g)
      (hcount : s'.world.policy.count g = l.holders cfg g)
  | verdict {j : NodeName} {l : Listing} {nodes : List Node} {pods : List Pod}
      (hlog : ∀ i, Untouched i s s') (hp : (s.ghosts j).view.policy = some s.world.policy)
      (hl : (s.ghosts j).view.listing = some l)
      (hnodes : (s.ghosts j).view.nodes = some (s.world.policy.spec.nodeSelector, nodes))
      (hpods : (s.ghosts j).view.pods = some pods)
      (hsuccess : (calculatePolicyConditionStatus s.world.policy (nodesWithPods nodes pods)
        l.enactments).branch = .success)
      (hcount : s'.world.policy.count g = 0)

section

variable {cfg : Config} {g : Generation} {s s' : Sys} {l : Label}

/-- **What a step does to the counter**, when the generation is `g` and the newest version of the
policy was read as it is. -/
theorem Moves.counted (hacc : ∀ j p, (s.ghosts j).view.policy = some p →
      p.resourceVersion = s.world.policy.resourceVersion → p = s.world.policy)
    (hgen : ∀ p ∈ s.world.versions, p.generation = g)
    (hb : ∀ i, Books cfg g (s.node i)) (hl : l.edits = false) (hm : Moves cfg s l s') :
    Counted cfg g s s' := by
  cases hm with
  | edit spec conditions => cases hl
  | exec hrun hi hx =>
    rename_i j a job o k r w φ evs
    have hcurrent := hacc j
    have heff := hx.effect
    have hphase : ((Function.update s.ghosts j φ) j).phase = φ.phase := by
      rw [Function.update_self]
    generalize φ.phase = ph at heff hphase
    cases heff with
    | claim hown hask hp hrv hcap =>
      rename_i e p t
      obtain ⟨q, previous, hph, -⟩ := hask.filled
      have horder := (hb j).inOrder
      unfold NodeView.InOrder Sys.node at horder
      rw [hph] at horder
      obtain rfl := hcurrent p hp hrv
      have hg : e.policyGeneration = g := (horder e hown).1
      rw [hg] at hphase hcap ⊢
      exact .claim hi hown hask hown hphase rfl hcap (Policy.count_stampCount _ _ _ _)
    | release hheld hp hrv hpos =>
      rename_i p reader key t
      obtain rfl := hcurrent p hp hrv
      obtain ⟨rfl, -⟩ := (hb j).not_occupies_of_held always hheld
      exact .release hi hheld hphase rfl rfl (Policy.count_stampCount _ _ _ _)
    | audit hp hrv hl hdue hlt =>
      rename_i p l t
      obtain rfl := hcurrent p hp hrv
      rw [hgen _ List.mem_cons_self] at hlt ⊢
      exact .audit (fun _ => Or.inr ⟨_, rfl, rfl⟩) hp hl hdue hlt (Policy.count_stampCount _ _ _ _)
    | update hp hrv hl hnodes hpods =>
      rename_i p l nodes pods t
      obtain rfl := hcurrent p hp hrv
      have hmap := unavailableNodeCountMap_setPolicyStatus t s.world.policy
        (calculatePolicyConditionStatus s.world.policy (nodesWithPods nodes pods) l.enactments)
      by_cases hsuccess : (calculatePolicyConditionStatus s.world.policy (nodesWithPods nodes pods)
          l.enactments).branch = .success
      · rw [if_pos hsuccess] at hmap
        refine .verdict (fun _ => Or.inr ⟨_, rfl, rfl⟩) hp hl hnodes hpods hsuccess ?_
        exact congrArg (CountMap.get · g) hmap
      · rw [if_neg hsuccess] at hmap
        exact .steady (fun _ => Or.inr ⟨_, rfl, rfl⟩) (congrArg (CountMap.get · g) hmap)
    | reset hp hrv =>
      obtain rfl := hcurrent _ hp hrv
      exact .steady (fun _ => Or.inr ⟨_, rfl, rfl⟩) rfl
    | _ => first
      | exact .steady (fun _ => Or.inl rfl) rfl
      | exact .steady (fun _ => Or.inr ⟨_, rfl, rfl⟩) rfl
  | _ => exact .steady (fun _ => Or.inl rfl) rfl

end

/-! ## The enactments of a listing -/

namespace World

variable {cfg : Config} {w : World}

theorem map_node_listing : (w.listing cfg).map Enactment.node =
    cfg.nodeNames.filter fun i => (w.enactments i).isSome := by
  unfold listing
  generalize cfg.nodeNames = names
  induction names with
  | nil => rfl
  | cons i names ih => cases h : w.enactments i <;> simp [h, ih]

/-- One enactment per node. -/
theorem countP_node_listing_le_one (i : NodeName) :
    (w.listing cfg).countP (fun e => decide (e.node = i)) ≤ 1 := by
  have hnodup : ((w.listing cfg).map Enactment.node).Nodup := by
    rw [map_node_listing]
    exact cfg.nodup.filter _
  have hcount := List.nodup_iff_count_le_one.mp hnodup i
  rwa [List.count, List.countP_map] at hcount

/-- With an enactment on every node the listing is as long as the list of the nodes. -/
theorem length_listing (h : ∀ i ∈ cfg.nodeNames, w.enactments i ≠ none) :
    (w.listing cfg).length = cfg.nodeNames.length := by
  rw [← List.length_map Enactment.node, map_node_listing, List.filter_eq_self.mpr]
  exact fun i hi => Option.isSome_iff_ne_none.mpr (h i hi)

end World

/-- A verdict of success over Ready nodes says that every node is Available. -/
theorem available_of_success {cfg : Config} {w : World} {policy : Policy} {nodes : List Node}
    {pods : List Pod}
    (hready : ∀ i ∈ cfg.nodeNames, ∃ node ∈ nodes, isReady node = true ∧ node.name = i)
    (hpods : ∀ i ∈ cfg.nodeNames, ∃ pod ∈ pods, pod.nodeName = i)
    (h : (calculatePolicyConditionStatus policy (nodesWithPods nodes pods)
      (w.listing cfg)).branch = .success) :
    ∀ i ∈ cfg.nodeNames, ∃ e ∈ w.listing cfg,
      holdsAt policy.generation .available e = true ∧ e.node = i := by
  obtain ⟨-, -, -, hcount, -⟩ := (branch_eq_success_iff _ _ _).mp h
  have hnodes : cfg.nodeNames.length ≤ (nodesWithPods nodes pods).countP isReady := by
    have hlength := List.length_le_countP_of_exists_key Node.name isReady cfg.nodeNames
      (nodesWithPods nodes pods) cfg.nodup fun i hi => by
        obtain ⟨node, hnode, hisReady, rfl⟩ := hready i hi
        obtain ⟨pod, hpod, hname⟩ := hpods _ hi
        refine ⟨node, List.mem_filter.mpr ⟨hnode, ?_⟩, hisReady, rfl⟩
        exact List.any_eq_true.mpr ⟨pod, hpod, decide_eq_true hname.symm⟩
    refine Nat.le_trans hlength (List.countP_mono_left fun node _ hnode => ?_)
    exact (Bool.and_eq_true_iff.mp hnode).1
  refine List.exists_key_of_length_le_countP Enactment.node _ cfg.nodeNames (w.listing cfg)
    (fun i _ => World.countP_node_listing_le_one i) ?_
  refine Nat.le_trans (Nat.le_trans hnodes hcount) (List.countP_mono_left fun e he hav => ?_)
  rw [hav, Bool.true_and]
  exact decide_eq_true (World.mem_listing.mp he).1

/-! ## Conditions on runs -/

/-- The policy is not edited and no enactment is deleted. -/
def undisturbed (cfg : Config) (s : Sys) (l : Label) : Bool :=
  !l.edits && cfg.nodeNames.all fun i => !deletes i s l

/-- A slot of `g` was claimed that the enactment does not show yet. -/
def Phase.unshown (g : Generation) : Phase → Bool
  | .claimed key => key = g
  | _ => false

/-- No claim is left unshown for longer than the grace window. -/
def graced (cfg : Config) (g : Generation) (s : Sys) : Bool :=
  cfg.nodeNames.all fun i => !(s.ghosts i).phase.unshown g ||
    !graceOver s.world.policy.status.lastUnavailableNodeCountUpdate s.world.clock

/-- Every node is Ready, matches the policy and runs a handler pod. -/
def allReady (cfg : Config) (s : Sys) : Bool :=
  cfg.nodeNames.all fun i =>
    (s.world.nodes.any fun node => node.name = i ∧ isReady node = true ∧
      matchesLabels s.world.policy.spec.nodeSelector node.labels = true) &&
    s.world.pods.any fun pod => pod.nodeName = i

/-- No `Reconcile` is in progress on a stale enactment. -/
def allFresh (cfg : Config) (g : Generation) (s : Sys) : Bool :=
  cfg.nodeNames.all fun i => heartbeatFresh cfg i g s

/-- The nodes that hold a slot of `g`, when `alive` decides at which times an unfinished apply
counts. -/
def holders (cfg : Config) (g : Generation) (alive : Time → ConditionList → Bool) (s : Sys) : ℕ :=
  cfg.nodeNames.countP fun i => holdsSlot cfg g (alive s.world.clock) (s.node i)

/-- What the results of this module share: the generation is `g` throughout, the enactments
begin with nothing done for it, and the audit and the verdict see what they need to.  At least
the unfinished applies with a live heartbeat count. -/
structure Regime (cfg : Config) (g : Generation) (alive : Time → ConditionList → Bool)
    (ok : Sys → Label → Prop) (s₀ : Sys) : Prop where
  initial : Initial s₀
  generation : ∀ p ∈ s₀.world.versions, p.generation = g
  booked : ∀ i e, s₀.world.enactments i = some e → Booked cfg g e
  antitone : ∀ {t t' : Time} {c : ConditionList}, t ≤ t' → alive t' c = true → alive t c = true
  live : ∀ {t : Time} {c : ConditionList}, isLiveHolder c t cfg.staleThreshold = true →
    alive t c = true
  edits : ∀ s l, ok s l → l.edits = false
  grace : ∀ s l, ok s l → graced cfg g s = true
  fresh : ∀ s l, ok s l → allFresh cfg g s = true
  ready : ∀ s l, ok s l → allReady cfg s = true
  reads : ∀ s l, ok s l → misreads cfg s l = false
  /-- The audit counts an unfinished apply that counts. -/
  counted : ∀ s l, ok s l → ∀ i ∈ cfg.nodeNames, ∀ e, s.world.enactments i = some e →
    e.policyGeneration = g → isProgressing e.conditions = true →
    alive s.world.clock e.conditions = true →
    isLiveHolder e.conditions s.world.clock cfg.staleThreshold = true

section

variable {cfg : Config} {g : Generation} {s s' : Sys} {l : Label} {i : NodeName}
  {alive : Time → ConditionList → Bool}

theorem holdsSlot_mono {alive alive' : ConditionList → Bool} {v : NodeView}
    (halive : ∀ c, alive c = true → alive' c = true) (h : holdsSlot cfg g alive v = true) :
    holdsSlot cfg g alive' v = true := by
  rcases holdsSlot_iff.mp h with hres | ⟨e, hown, hocc⟩
  · exact holdsSlot_iff.mpr (Or.inl hres)
  · refine holdsSlot_iff.mpr (Or.inr ⟨e, hown, ?_⟩)
    rcases occupies_iff.mp hocc with ⟨hg, happ, hal⟩ | hex
    · exact occupies_of_applying hg happ (halive _ hal)
    · exact occupies_iff.mpr (Or.inr hex)

/-- An Available enactment leaves no room for a slot. -/
theorem Books.not_holds_of_available {v : NodeView} (h : Books cfg g v)
    (alive : ConditionList → Bool) {e : EnactmentStatus} (hown : v.own = some e)
    (hav : isAvailable e.conditions = true) : holdsSlot cfg g alive v = false := by
  have hbooked := h.stored e hown
  have hnot : isProgressing e.conditions = false := hbooked.phased hav
  have horder := h.inOrder
  unfold NodeView.InOrder at horder
  refine Bool.eq_false_iff.mpr fun hholds => ?_
  rcases holdsSlot_iff.mp hholds with hres | ⟨e', he', hocc⟩
  · rcases Phase.reserves_iff.mp hres with hph | hph <;> rw [hph] at horder
    · obtain ⟨-, e', he', -, -, hstart⟩ := horder
      obtain rfl : e = e' := Option.some.inj (hown.symm.trans he')
      rw [hstart.notAvailable] at hav
      cases hav
    · obtain ⟨-, e', he', -, hfin⟩ := horder
      obtain rfl : e = e' := Option.some.inj (hown.symm.trans he')
      rw [isProgressing_of_isFinalizing hfin] at hnot
      cases hnot
  · obtain rfl : e = e' := Option.some.inj (hown.symm.trans he')
    rw [not_occupies hnot] at hocc
    · cases hocc
    · refine Or.inr (Bool.eq_false_iff.mpr fun hw => ?_)
      have hdone := (hbooked.failing hw).1
      simp [isDone, hav] at hdone

/-- A claim commits a new version of the policy. -/
theorem Effect.policy_of_claim {w w' : World} {φ : Ghost} {ph : Phase} {view : View}
    (h : Effect cfg i w φ w' ph [.policyWritten i (.increment g) view]) :
    w.policy.resourceVersion < w'.policy.resourceVersion := by
  cases h
  exact Nat.lt_succ_self _

theorem of_allFresh (h : allFresh cfg g s = true) (hi : i ∈ cfg.nodeNames)
    (hrec : s.reconciling i = true) {e : EnactmentStatus} (hown : s.world.enactments i = some e)
    (hg : e.policyGeneration = g) (hprog : isProgressing e.conditions = true) :
    isLiveHolder e.conditions s.world.clock cfg.staleThreshold = true := by
  have hfresh := List.all_eq_true.mp h i hi
  simpa [heartbeatFresh, hrec, hown, hg, hprog] using hfresh

theorem of_graced (h : graced cfg g s = true) (hi : i ∈ cfg.nodeNames)
    (hph : (s.ghosts i).phase = .claimed g) :
    graceOver s.world.policy.status.lastUnavailableNodeCountUpdate s.world.clock = false := by
  have hgrace := List.all_eq_true.mp h i hi
  simpa [Phase.unshown, hph] using hgrace

/-- **Only a claim makes a node a holder**, over every step. -/
theorem holdsSlot_of_moves (hs : Sound cfg s) (hgen : ∀ p ∈ s.world.versions, p.generation = g)
    (hb : Books cfg g (s.node i))
    (hanti : ∀ {t t' : Time} {c : ConditionList}, t ≤ t' → alive t' c = true → alive t c = true)
    (hlive : i ∈ cfg.nodeNames → s.reconciling i = true → ∀ e, s.world.enactments i = some e →
      isProgressing e.conditions = true → alive s.world.clock e.conditions = true)
    (hm : Moves cfg s l s')
    (h : holdsSlot cfg g (alive s'.world.clock) (s'.node i) = true) :
    holdsSlot cfg g (alive s.world.clock) (s.node i) = true ∨
      (∃ view, s'.log = .policyWritten i (.increment g) view :: s.log) ∧
        s.world.policy.resourceVersion < s'.world.policy.resourceVersion := by
  replace h := holdsSlot_mono (fun c => hanti hm.clock_le) h
  -- a handler that begins or stops reserves nothing
  have hghost : ∀ (j : NodeName) (φ : Ghost), φ.phase.reserves g = false →
      holdsSlot cfg g (alive s.world.clock)
        ⟨s.world.versions, s.world.enactments i, (Function.update s.ghosts j φ i).phase, s.log⟩ =
        true → holdsSlot cfg g (alive s.world.clock) (s.node i) = true := by
    intro j φ hφ h
    by_cases hj : i = j
    · subst hj
      rw [Function.update_self] at h
      rcases holdsSlot_iff.mp h with hres | hocc
      · rw [hφ] at hres
        cases hres
      · exact holdsSlot_iff.mpr (Or.inr hocc)
    · rwa [Function.update_of_ne hj] at h
  cases hm with
  | start hi hidle => exact Or.inl (hghost _ _ rfl h)
  | restart hi hdown => exact Or.inl (hghost _ _ rfl h)
  | finish hrun hsettled => exact Or.inl (hghost _ _ rfl h)
  | crash j => exact Or.inl (hghost _ _ rfl h)
  | exec hrun hi hx =>
    rename_i j a job o k r w φ evs
    by_cases hj : i = j
    · subst hj
      have hrunning : (s.ghosts i).phase ≠ .reclaiming → ∀ e, s.world.enactments i = some e →
          isProgressing e.conditions = true → alive s.world.clock e.conditions = true := by
        intro hph e he hprog
        cases job with
        | reclaim => exact absurd (hs.conforms.reclaiming i _ hrun) hph
        | reconcile => exact hlive hi (by simp [Sys.reconciling, hrun]) e he hprog
      simp only [Sys.node, Function.update_self] at h
      rcases holdsSlot_of_exec hs hgen hb hrunning hx h with h | ⟨view, rfl⟩
      · exact Or.inl h
      · exact Or.inr ⟨⟨view, rfl⟩, hx.effect.policy_of_claim⟩
    · have hown : w.enactments i = s.world.enactments i := by
        rw [hx.after]
        exact World.after_enactments_of_ne _ hj o r
      simp only [Sys.node, Function.update_of_ne hj, hown] at h
      exact Or.inl h
  | _ => exact Or.inl h

end

namespace Regime

variable {cfg : Config} {g : Generation} {alive : Time → ConditionList → Bool}
  {ok : Sys → Label → Prop} {s₀ s s' : Sys} {l : Label} {i : NodeName}

theorem generation_eq (h : Regime cfg g alive ok s₀) (hr : Reach cfg ok s₀ s) :
    ∀ p ∈ s.world.versions, p.generation = g :=
  hr.generation_eq h.initial h.edits h.generation

theorem books (h : Regime cfg g alive ok s₀) (hr : Reach cfg ok s₀ s) (i : NodeName) :
    Books cfg g (s.node i) :=
  Books.reach h.initial h.generation h.edits (h.booked i) hr

theorem counted_step (h : Regime cfg g alive ok s₀) (hr : Reach cfg ok s₀ s) (hok : ok s l)
    (hm : Moves cfg s l s') : Counted cfg g s s' :=
  hm.counted (hr.accurate h.initial h.reads) (h.generation_eq hr)
    (h.books hr) (h.edits s l hok)

theorem spec_eq (h : Regime cfg g alive ok s₀) (hr : Reach cfg ok s₀ s) :
    s.world.policy.spec = s₀.world.policy.spec :=
  hr.moves_induct h.initial (I := fun s => s.world.policy.spec = s₀.world.policy.spec) rfl
    fun _ _ _ _ _ hok hm ih => (hm.spec (h.edits _ _ hok)).trans ih

/-- While `Reconcile` runs, a progressing enactment has a live heartbeat. -/
theorem live_of_reconciling (h : Regime cfg g alive ok s₀) (hr : Reach cfg ok s₀ s) (hok : ok s l)
    (hi : i ∈ cfg.nodeNames) (hrec : s.reconciling i = true) {e : EnactmentStatus}
    (hown : s.world.enactments i = some e) (hprog : isProgressing e.conditions = true) :
    isLiveHolder e.conditions s.world.clock cfg.staleThreshold = true :=
  of_allFresh (h.fresh s l hok) hi hrec hown (((h.books hr i).stored e hown).of_progressing hprog)
    hprog

theorem holdsSlot_of_step (h : Regime cfg g alive ok s₀) (hr : Reach cfg ok s₀ s) (hok : ok s l)
    (hm : Moves cfg s l s')
    (hholds : holdsSlot cfg g (alive s'.world.clock) (s'.node i) = true) :
    holdsSlot cfg g (alive s.world.clock) (s.node i) = true ∨
      (∃ view, s'.log = .policyWritten i (.increment g) view :: s.log) ∧
        s.world.policy.resourceVersion < s'.world.policy.resourceVersion :=
  holdsSlot_of_moves (h.initial.sound.reach hr) (h.generation_eq hr) (h.books hr i) h.antitone
    (fun hi hrec _ hown hprog => h.live (h.live_of_reconciling hr hok hi hrec hown hprog)) hm
    hholds

/-- **Acting on a listing that shows no slot of a node.**  If what the listing shows rules out a
slot when it is taken, then the node holds none when the listing is acted upon. -/
theorem not_holds_of_listing {F : Policy → Listing → Prop} (h : Regime cfg g alive ok s₀)
    (hr : Reach cfg ok s₀ s)
    (hlist : ∀ s l p due, Reach cfg ok s₀ s → ok s l → p.Resembles s.world.policy → (due = true →
      graceOver s.world.policy.status.lastUnavailableNodeCountUpdate s.world.clock = true) →
      F p ⟨s.world.listing cfg, s.world.clock, due⟩ →
      holdsSlot cfg g (alive s.world.clock) (s.node i) = false)
    {j : NodeName} {l : Listing} (hp : (s.ghosts j).view.policy = some s.world.policy)
    (hl : (s.ghosts j).view.listing = some l) (hF : F s.world.policy l) :
    holdsSlot cfg g (alive s.world.clock) (s.node i) = false := by
  refine hr.listing_valid (D := fun s => holdsSlot cfg g (alive s.world.clock) (s.node i) = false)
    (F := F) h.initial hlist ?_ j _ l hp hl rfl hF
  intro s s' lab hreach _ hok hm hnot hsame
  refine Bool.eq_false_iff.mpr fun hholds => ?_
  rcases h.holdsSlot_of_step hreach hok hm hholds with hbefore | ⟨-, hrv⟩
  · rw [hnot] at hbefore
    cases hbefore
  · rw [hsame] at hrv
    exact Nat.lt_irrefl _ hrv

/-- A node that holds a slot is among the slot holders of a listing the audit acts upon. -/
theorem holder_listed (h : Regime cfg g alive ok s₀) (hr : Reach cfg ok s₀ s)
    (hi : i ∈ cfg.nodeNames) {j : NodeName} {l : Listing}
    (hp : (s.ghosts j).view.policy = some s.world.policy)
    (hl : (s.ghosts j).view.listing = some l) (hdue : l.due = true)
    (hholds : holdsSlot cfg g (alive s.world.clock) (s.node i) = true) :
    ∃ e ∈ l.enactments, isSlotHolder g l.time cfg.staleThreshold e = true ∧ e.node = i := by
  by_contra hno
  have hnot := h.not_holds_of_listing (i := i) (F := fun _ l => l.due = true ∧
    ¬ ∃ e ∈ l.enactments, isSlotHolder g l.time cfg.staleThreshold e = true ∧ e.node = i) hr ?_
    hp hl ⟨hdue, hno⟩
  · rw [hnot] at hholds
    cases hholds
  clear hholds hno hp hl hr
  rintro s lab - due hr hok - hgrace ⟨hdue, hno⟩
  refine Bool.eq_false_iff.mpr fun hholds => hno ?_
  have hbooks := h.books hr i
  have hlisted : ∀ e, s.world.enactments i = some e → e.policyGeneration = g →
      (isLiveHolder e.conditions s.world.clock cfg.staleThreshold = true ∨
        isTerminallyFailed e.conditions = true) →
      ∃ e ∈ s.world.listing cfg, isSlotHolder g s.world.clock cfg.staleThreshold e = true ∧
        e.node = i := fun e hown hg hwhy =>
    ⟨⟨i, e⟩, World.mem_listing.mpr ⟨hi, hown⟩, decide_eq_true ⟨hg, hwhy⟩, rfl⟩
  rcases holdsSlot_iff.mp hholds with hres | ⟨e, hown, hocc⟩
  · rcases Phase.reserves_iff.mp hres with hph | hph
    · -- the claim is too young to be audited
      rw [of_graced (h.grace s lab hok) hi hph] at hgrace
      cases hgrace hdue
    · have horder := hbooks.inOrder
      unfold NodeView.InOrder at horder
      rw [hph] at horder
      obtain ⟨-, e, hown, hg, hfin⟩ := horder
      have hrec : s.reconciling i = true := by
        by_contra hnot
        rcases (h.initial.sound.reach hr).conforms.phase_of_not_reconciling
          (Bool.eq_false_iff.mpr hnot) with hidle | hidle <;>
        · rw [Sys.node, hidle] at hph
          cases hph
      exact hlisted e hown hg (Or.inl (h.live_of_reconciling hr hok hi hrec hown
        (isProgressing_of_isFinalizing hfin)))
  · rcases occupies_iff.mp hocc with ⟨hg, happ, hal⟩ | hex
    · exact hlisted e hown hg (Or.inl (h.counted s lab hok i hi e hown hg happ.progressing hal))
    · obtain ⟨hg, hterm, -⟩ := exhausted_iff.mp hex
      exact hlisted e hown hg (Or.inr hterm)

/-- The audit never counts fewer than there are. -/
theorem holders_le_audit (h : Regime cfg g alive ok s₀) (hr : Reach cfg ok s₀ s) {j : NodeName}
    {l : Listing} (hp : (s.ghosts j).view.policy = some s.world.policy)
    (hl : (s.ghosts j).view.listing = some l) (hdue : l.due = true) :
    (holders cfg g alive s : ℤ) ≤ l.holders cfg g := by
  have hle : holders cfg g alive s ≤
      l.enactments.countP (isSlotHolder g l.time cfg.staleThreshold) :=
    List.countP_le_countP_of_exists_key cfg.nodup fun i hi hholds =>
      h.holder_listed hr hi hp hl hdue hholds
  exact Int.ofNat_le.mpr hle

/-- A verdict of success is passed only when no node holds a slot. -/
theorem not_holds_of_success (h : Regime cfg g alive ok s₀) (hr : Reach cfg ok s₀ s)
    {j : NodeName} {l : Listing} {nodes : List Node} {pods : List Pod}
    (hp : (s.ghosts j).view.policy = some s.world.policy)
    (hl : (s.ghosts j).view.listing = some l)
    (hnodes : (s.ghosts j).view.nodes = some (s.world.policy.spec.nodeSelector, nodes))
    (hpods : (s.ghosts j).view.pods = some pods)
    (hsuccess : (calculatePolicyConditionStatus s.world.policy (nodesWithPods nodes pods)
      l.enactments).branch = .success) (hi : i ∈ cfg.nodeNames) :
    holdsSlot cfg g (alive s.world.clock) (s.node i) = false := by
  obtain ⟨w, -, hlisting⟩ := hr.listing_eq h.initial hl
  have hready : ∀ i ∈ cfg.nodeNames, ∃ node ∈ nodes, isReady node = true ∧ node.name = i := by
    refine hr.nodes_valid (P := fun sel nodes => sel = s₀.world.policy.spec.nodeSelector →
      ∀ i ∈ cfg.nodeNames, ∃ node ∈ nodes, isReady node = true ∧ node.name = i) h.initial ?_
      hnodes (by rw [h.spec_eq hr])
    rintro s lab sel hreach hok rfl i hi
    have hall := (Bool.and_eq_true_iff.mp (List.all_eq_true.mp (h.ready s lab hok) i hi)).1
    obtain ⟨node, hnode, hprop⟩ := List.any_eq_true.mp hall
    obtain ⟨hname, hisReady, hmatches⟩ := of_decide_eq_true hprop
    rw [h.spec_eq hreach] at hmatches
    exact ⟨node, List.mem_filter.mpr ⟨hnode, hmatches⟩, hisReady, hname⟩
  have hhandlers : ∀ i ∈ cfg.nodeNames, ∃ pod ∈ pods, pod.nodeName = i := by
    refine hr.pods_valid (P := fun pods => ∀ i ∈ cfg.nodeNames, ∃ pod ∈ pods, pod.nodeName = i)
      h.initial (fun s lab _ hok i hi => ?_) hpods
    have hall := (Bool.and_eq_true_iff.mp (List.all_eq_true.mp (h.ready s lab hok) i hi)).2
    obtain ⟨pod, hpod, hname⟩ := List.any_eq_true.mp hall
    exact ⟨pod, hpod, of_decide_eq_true hname⟩
  rw [hlisting] at hsuccess
  have havailable := available_of_success hready hhandlers hsuccess i hi
  rw [← hlisting] at havailable
  refine h.not_holds_of_listing (F := fun p l => ∃ e ∈ l.enactments,
    holdsAt p.generation .available e = true ∧ e.node = i) hr ?_ hp hl havailable
  rintro s lab p due hreach hok - - ⟨e, he, hav, rfl⟩
  refine (h.books hreach e.node).not_holds_of_available _ (World.mem_listing.mp he).2 ?_
  exact isAvailable_iff.mpr (of_decide_eq_true hav).2

end Regime

/-! ## The counter covers the holders -/

/-- The enactments are newly created, and the counter of `g` is empty. -/
structure Fresh (g : Generation) (s₀ : Sys) : Prop where
  initial : Initial s₀
  generation : ∀ p ∈ s₀.world.versions, p.generation = g
  enactments : ∀ i e, s₀.world.enactments i = some e → ∃ t, e = newEnactmentStatus t
  counter : s₀.world.policy.count g = 0

section

variable {cfg : Config} {g : Generation} {alive : Time → ConditionList → Bool}
  {ok : Sys → Label → Prop} {s₀ s s' : Sys} {l : Label} {i : NodeName}

theorem Untouched.of_node_ne {ev : Event} (hlog : s'.log = ev :: s.log) (h : i ≠ ev.node) :
    Untouched i s s' :=
  Or.inr ⟨ev, hlog, Event.countsFor_of_node_ne h.symm⟩

theorem Untouched.ne_cons (h : Untouched i s s') {ev : Event} (hev : ev.countsFor i = true) :
    s'.log ≠ ev :: s.log := by
  intro hlog
  rcases h with hsame | ⟨ev', hev', hcounts⟩
  · rw [hsame] at hlog
    exact List.cons_ne_self _ _ hlog.symm
  · rw [hev'] at hlog
    rw [(List.cons.inj hlog).1, hev] at hcounts
    cases hcounts

theorem Untouched.not_claim (h : Untouched i s s') {view : View} :
    s'.log ≠ .policyWritten i (.increment g) view :: s.log :=
  h.ne_cons (decide_eq_true rfl)

theorem Fresh.booked (h : Fresh g s₀) (i : NodeName) (e : EnactmentStatus)
    (hown : s₀.world.enactments i = some e) : Booked cfg g e := by
  obtain ⟨t, rfl⟩ := h.enactments i e hown
  exact .blank rfl rfl

theorem Fresh.not_holds (h : Fresh g s₀) (alive : ConditionList → Bool) (i : NodeName) :
    holdsSlot cfg g alive (s₀.node i) = false := by
  refine Bool.eq_false_iff.mpr fun hholds => ?_
  rcases holdsSlot_iff.mp hholds with hres | ⟨e, hown, hocc⟩
  · rw [Sys.node, h.initial.rests.ghosts i] at hres
    cases hres
  · obtain ⟨t, rfl⟩ := h.enactments i e hown
    rw [not_occupies rfl (Or.inl rfl)] at hocc
    cases hocc

theorem Fresh.holders_eq_zero (h : Fresh g s₀) : holders cfg g alive s₀ = 0 := by
  refine List.countP_eq_zero.mpr fun i _ => ?_
  rw [h.not_holds]
  exact Bool.false_ne_true

/-- What a step does to the holders when the counter is not touched. -/
theorem Regime.holders_le_of_untouched (h : Regime cfg g alive ok s₀) (hr : Reach cfg ok s₀ s)
    (hok : ok s l) (hm : Moves cfg s l s') (hlog : ∀ i, Untouched i s s') :
    holders cfg g alive s' ≤ holders cfg g alive s := by
  refine List.countP_mono_left fun i _ hholds => ?_
  rcases h.holdsSlot_of_step hr hok hm hholds with hbefore | ⟨⟨view, hclaim⟩, -⟩
  · exact hbefore
  · exact absurd hclaim (hlog i).not_claim

/-- **One step.**  The counter keeps covering the holders and stays within the cap. -/
theorem Regime.covers_step (h : Regime cfg g alive ok s₀) (hr : Reach cfg ok s₀ s) (hok : ok s l)
    (hm : Moves cfg s l s') {M : ℤ}
    (hcap : ∀ j, (s.ghosts j).view.cap s.world.policy ≤ M)
    (hcovers : (holders cfg g alive s : ℤ) ≤ s.world.policy.count g ∧
      s.world.policy.count g ≤ M) :
    (holders cfg g alive s' : ℤ) ≤ s'.world.policy.count g ∧ s'.world.policy.count g ≤ M := by
  obtain ⟨hle, hbound⟩ := hcovers
  cases h.counted_step hr hok hm with
  | steady hlog hcount =>
    have hmono := h.holders_le_of_untouched hr hok hm hlog
    omega
  | claim hj hown hask hown' hphase hlog hlt hcount =>
    rename_i j e
    -- nobody but the claimant is added
    have hone : holders cfg g alive s' ≤ holders cfg g alive s + 1 := by
      refine List.countP_le_add_one j cfg.nodup fun i _ hne hholds => ?_
      rcases h.holdsSlot_of_step hr hok hm hholds with hbefore | ⟨⟨view, hclaim⟩, -⟩
      · exact hbefore
      · exact absurd hclaim (Untouched.of_node_ne hlog hne).not_claim
    have hroom := hcap j
    omega
  | release hj hheld hphase hown hlog hcount =>
    rename_i j reader
    obtain ⟨-, hnot⟩ := (h.books hr j).not_occupies_of_held (alive s'.world.clock) hheld
    have hone : holders cfg g alive s' + 1 ≤ holders cfg g alive s := by
      refine List.countP_add_one_le hj ?_ ?_ fun i _ hholds => ?_
      · exact holdsSlot_iff.mpr (Or.inl (Phase.reserves_iff.mpr hheld.symm))
      · rw [holdsSlot, Sys.node, hphase, hown]
        exact hnot
      · rcases h.holdsSlot_of_step hr hok hm hholds with hbefore | ⟨⟨view, hclaim⟩, -⟩
        · exact hbefore
        · rw [hlog] at hclaim
          cases hclaim
    omega
  | audit hlog hp hl hdue hlt hcount =>
    have hmono := h.holders_le_of_untouched hr hok hm hlog
    have haudit := h.holders_le_audit hr hp hl hdue
    omega
  | verdict hlog hp hl hnodes hpods hsuccess hcount =>
    have hmono := h.holders_le_of_untouched hr hok hm hlog
    have hnone : holders cfg g alive s = 0 := List.countP_eq_zero.mpr fun i hi => by
      rw [h.not_holds_of_success hr hp hl hnodes hpods hsuccess hi]
      exact Bool.false_ne_true
    omega

/-- Without deletions every node keeps its enactment. -/
theorem Reach.enacted (h : Reach cfg ok s₀ s) (h₀ : Initial s₀)
    (hok : ∀ s l, ok s l → undisturbed cfg s l = true)
    (hall : ∀ i ∈ cfg.nodeNames, s₀.world.enactments i ≠ none) :
    ∀ i ∈ cfg.nodeNames, s.world.enactments i ≠ none := by
  refine h.moves_induct h₀ (I := fun s => ∀ i ∈ cfg.nodeNames, s.world.enactments i ≠ none)
    hall ?_
  intro s s' l _ _ hl hm ih i hi
  cases hm with
  | exec hrun hj hx =>
    rename_i j a job o k r w φ evs
    by_cases hij : i = j
    · subst hij
      intro hgone
      have hdel := List.all_eq_true.mp (Bool.and_eq_true_iff.mp (hok _ _ hl)).2 i hi
      rw [hx.deletes_eq (ih i hi) hgone] at hdel
      cases hdel
    · have hown : w.enactments i = s.world.enactments i := by
        rw [hx.after]
        exact World.after_enactments_of_ne _ hij o r
      rw [hown]
      exact ih i hi
  | _ => exact ih i hi

/-- The cap of a claim is the cap of the policy, or the smallest one. -/
theorem Regime.cap_le (h : Regime cfg g alive ok s₀) (hr : Reach cfg ok s₀ s)
    (hok : ∀ s l, ok s l → undisturbed cfg s l = true)
    (hall : ∀ i ∈ cfg.nodeNames, s₀.world.enactments i ≠ none)
    (hM : 1 ≤ (maxUnavailableFor cfg.nodeNames.length s₀.world.policy.spec).1) (j : NodeName) :
    (s.ghosts j).view.cap s.world.policy ≤
      (maxUnavailableFor cfg.nodeNames.length s₀.world.policy.spec).1 := by
  unfold View.cap
  split
  · exact hM
  · rename_i l hl
    obtain ⟨w, ⟨s', lab, hreach, -, rfl⟩, hlisting⟩ := hr.listing_eq h.initial hl
    have hlength := World.length_listing (hreach.enacted h.initial hok hall)
    exact Int.le_of_eq (by rw [hlisting, hlength, h.spec_eq hr])

/-- A claim leaves a node that is neither inside the apply nor failed. -/
theorem Counted.of_claim (h : Counted cfg g s s') {view : View}
    (hlog : s'.log = .policyWritten i (.increment g) view :: s.log) :
    (s'.ghosts i).phase = .claimed g ∧
      (s'.world.enactments i).any (exhausted cfg g) = false := by
  cases h with
  | steady hsame hcount => exact absurd hlog (hsame i).not_claim
  | audit hsame hp hl hdue hlt hcount => exact absurd hlog (hsame i).not_claim
  | verdict hsame hp hl hnodes hpods hsuccess hcount => exact absurd hlog (hsame i).not_claim
  | release hj hheld hphase hown hlog' hcount =>
    rw [hlog'] at hlog
    cases hlog
  | claim hj hown hask hown' hphase hlog' hcap hcount =>
    rw [hlog'] at hlog
    injection hlog with hev
    injection hev with hji
    subst hji
    refine ⟨hphase, ?_⟩
    rw [hown', Option.any_some]
    refine Bool.eq_false_iff.mpr fun hex => ?_
    obtain ⟨hg, -, hw⟩ := exhausted_iff.mp hex
    rw [hask.startable.not_worn hg] at hw
    cases hw

/-- A handler that is marked for an apply was running `Reconcile` before the step. -/
theorem Moves.reconciling_of_marked (hm : Moves cfg s l s') (hs : Sound cfg s)
    (hph : (s'.ghosts i).phase = .marked g) : s.reconciling i = true := by
  by_contra hnot
  have hrest := hs.conforms.phase_of_not_reconciling (Bool.eq_false_iff.mpr hnot)
  have hupdate : ∀ (j : NodeName) (φ : Ghost),
      (i = j → φ.phase = .idle ∨ φ.phase = .reclaiming) →
      (Function.update s.ghosts j φ i).phase = .idle ∨
        (Function.update s.ghosts j φ i).phase = .reclaiming := by
    intro j φ hφ
    by_cases hj : i = j
    · subst hj
      rw [Function.update_self]
      exact hφ rfl
    · rwa [Function.update_of_ne hj]
  have hstill : (s'.ghosts i).phase = .idle ∨ (s'.ghosts i).phase = .reclaiming := by
    cases hm with
    | start hi hidle => exact hupdate _ _ fun _ => Or.inl rfl
    | restart hi hdown => exact hupdate _ _ fun _ => Or.inr rfl
    | finish hrun hsettled => exact hupdate _ _ fun _ => Or.inl rfl
    | crash j => exact hupdate _ _ fun _ => Or.inl rfl
    | exec hrun hi hx =>
      rename_i j a job o k r w φ evs
      refine hupdate _ _ ?_
      rintro rfl
      cases job with
      | reconcile => exact absurd (by simp [Sys.reconciling, hrun]) hnot
      | reclaim =>
        rw [hx.ghost, Ghost.phase_next, hs.conforms.reclaiming i _ hrun]
        exact Or.inr (Phase.next_reclaiming o r)
    | _ => exact hrest
  rcases hstill with hidle | hidle <;> rw [hph] at hidle <;> cases hidle

/-- A node inside the apply, or failed for good, held a slot before the step. -/
theorem Regime.holds_of_unavailable (h : Regime cfg g alive ok s₀) (hr : Reach cfg ok s₀ s)
    (hok : ok s l) (hm : Moves cfg s l s') (hs' : Sound cfg s') (hi : i ∈ cfg.nodeNames)
    (hun : s'.inApply g i = true ∨ (s'.world.enactments i).any (exhausted cfg g) = true) :
    holdsSlot cfg g (alive s.world.clock) (s.node i) = true := by
  have hs := h.initial.sound.reach hr
  have hcounted := h.counted_step hr hok hm
  rcases hun with hin | hex
  · obtain ⟨e, hown, hg, hph, happ⟩ := hs'.conforms.marked_of_inApply hin
    have hrec := hm.reconciling_of_marked hs hph
    -- whatever its heartbeat, the apply makes a holder of the node
    have hafter : holdsSlot cfg g ((fun _ => always) s'.world.clock) (s'.node i) = true :=
      holdsSlot_iff.mpr (Or.inr ⟨e, hown, occupies_of_applying hg happ rfl⟩)
    rcases holdsSlot_of_moves hs (h.generation_eq hr) (h.books hr i)
      (fun _ _ => rfl) (fun _ _ _ _ _ => rfl) hm hafter with hholds | ⟨⟨view, hlog⟩, -⟩
    · rcases holdsSlot_iff.mp hholds with hres | ⟨e', hown', hocc⟩
      · exact holdsSlot_iff.mpr (Or.inl hres)
      · refine holdsSlot_iff.mpr (Or.inr ⟨e', hown', ?_⟩)
        rcases occupies_iff.mp hocc with ⟨hg', happ', -⟩ | hex
        · exact occupies_of_applying hg' happ'
            (h.live (h.live_of_reconciling hr hok hi hrec hown' happ'.progressing))
        · exact occupies_iff.mpr (Or.inr hex)
    · rw [(hcounted.of_claim hlog).1] at hph
      cases hph
  · obtain ⟨e, hown, hexe⟩ := (Option.any_eq_true _ _).mp hex
    rcases h.holdsSlot_of_step (i := i) hr hok hm (holdsSlot_iff.mpr (Or.inr
      ⟨e, hown, occupies_iff.mpr (Or.inr hexe)⟩)) with hholds | ⟨⟨view, hlog⟩, -⟩
    · exact hholds
    · rw [(hcounted.of_claim hlog).2] at hex
      cases hex

end

/-! ## The cap is respected -/

/-- The node counts as unavailable: it is inside the apply for `g`, or its enactment is
terminally failed for `g` with the apply retries exhausted. -/
def unavailable (cfg : Config) (g : Generation) (s : Sys) (i : NodeName) : Bool :=
  s.inApply g i || (s.world.enactments i).any (exhausted cfg g)

/-- An unfinished apply counts as long as its heartbeat is live. -/
def liveAt (cfg : Config) (t : Time) (c : ConditionList) : Bool :=
  isLiveHolder c t cfg.staleThreshold

/-- The policy is not edited and no enactment deleted, no claim is left unshown beyond the grace
window, no `Reconcile` runs on a stale enactment, all the nodes are Ready, and the newest version
of the policy is not read with counters that a handler has changed in place. -/
def orderly (cfg : Config) (g : Generation) (s : Sys) (l : Label) : Bool :=
  undisturbed cfg s l && graced cfg g s && allFresh cfg g s && allReady cfg s &&
    !misreads cfg s l

theorem Fresh.regime {cfg : Config} {g : Generation} {s₀ : Sys} (h : Fresh g s₀) :
    Regime cfg g (liveAt cfg) (fun s l => orderly cfg g s l = true) s₀ := by
  have hsplit : ∀ {s l}, orderly cfg g s l = true → undisturbed cfg s l = true ∧
      graced cfg g s = true ∧ allFresh cfg g s = true ∧ allReady cfg s = true ∧
      misreads cfg s l = false := by
    intro s l hok
    simpa only [orderly, Bool.and_eq_true, Bool.not_eq_true', and_assoc] using hok
  exact
    { initial := h.initial
      generation := h.generation
      booked := h.booked
      antitone := isLiveHolder_antitone
      live := id
      edits := fun s l hok => by simpa using (Bool.and_eq_true_iff.mp (hsplit hok).1).1
      grace := fun s l hok => (hsplit hok).2.1
      fresh := fun s l hok => (hsplit hok).2.2.1
      ready := fun s l hok => (hsplit hok).2.2.2.1
      reads := fun s l hok => (hsplit hok).2.2.2.2
      counted := fun s l hok i hi e hown hg hprog hlive => hlive }

/-- Nobody is unavailable at the start. -/
theorem Fresh.not_unavailable {cfg : Config} {g : Generation} {s₀ : Sys} (h : Fresh g s₀)
    (i : NodeName) : unavailable cfg g s₀ i = false := by
  refine Bool.eq_false_iff.mpr fun hun => ?_
  rcases (Bool.or_eq_true _ _).mp hun with hin | hex
  · have hsound : Sound cfg s₀ := h.initial.sound
    obtain ⟨e, -, -, hph, -⟩ := hsound.conforms.marked_of_inApply hin
    rw [h.initial.rests.ghosts i] at hph
    cases hph
  · obtain ⟨e, hown, hexe⟩ := (Option.any_eq_true _ _).mp hex
    have hnot : holdsSlot cfg g always (s₀.node i) = false := h.not_holds always i
    rw [holdsSlot_iff.mpr (Or.inr ⟨e, hown, occupies_iff.mpr (Or.inr hexe)⟩)] at hnot
    cases hnot

/-- **At most `maxUnavailable` nodes are unavailable.**  The spec does not change and every node
keeps the enactment it begins with; handlers crash and calls are refused at any point.  As long
as no claim is left unshown beyond the grace window, no `Reconcile` runs on a stale enactment,
all the nodes are Ready and the newest version of the policy is read with the counters it has, the
nodes inside the apply for `g` and the ones that have failed for good never exceed the cap. -/
theorem maxUnavailable_respected {cfg : Config} {g : Generation} {s₀ s : Sys} (h₀ : Fresh g s₀)
    (hall : ∀ i ∈ cfg.nodeNames, s₀.world.enactments i ≠ none)
    (hM : 1 ≤ (maxUnavailableFor cfg.nodeNames.length s₀.world.policy.spec).1)
    (h : Reach cfg (fun s l => orderly cfg g s l = true) s₀ s) :
    (cfg.nodeNames.countP (unavailable cfg g s) : ℤ) ≤
      (maxUnavailableFor cfg.nodeNames.length s₀.world.policy.spec).1 := by
  have hregime : Regime cfg g (liveAt cfg) (fun s l => orderly cfg g s l = true) s₀ := h₀.regime
  have hundisturbed : ∀ s l, orderly cfg g s l = true → undisturbed cfg s l = true := by
    intro s l hok
    simp only [orderly, Bool.and_eq_true] at hok
    exact hok.1.1.1.1
  have hcovers : ∀ s, Reach cfg (fun s l => orderly cfg g s l = true) s₀ s →
      (holders cfg g (liveAt cfg) s : ℤ) ≤ s.world.policy.count g ∧ s.world.policy.count g ≤
        (maxUnavailableFor cfg.nodeNames.length s₀.world.policy.spec).1 := by
    intro s hr
    refine hr.moves_induct h₀.initial (I := fun s =>
      (holders cfg g (liveAt cfg) s : ℤ) ≤ s.world.policy.count g ∧ s.world.policy.count g ≤
        (maxUnavailableFor cfg.nodeNames.length s₀.world.policy.spec).1) ?_ ?_
    · rw [h₀.holders_eq_zero, h₀.counter]
      exact ⟨Int.le_refl 0, by omega⟩
    · intro s s' l hr _ hok hm ih
      exact hregime.covers_step hr hok hm (hregime.cap_le hr hundisturbed hall hM) ih
  -- the condition speaks of the states before a step, so the last step is looked at by itself
  cases h with
  | refl =>
    have hnone : cfg.nodeNames.countP (unavailable cfg g s₀) = 0 :=
      List.countP_eq_zero.mpr fun i _ => by
        rw [h₀.not_unavailable]
        exact Bool.false_ne_true
    omega
  | next hr hok hstep =>
    rename_i s' l
    have hs := h₀.initial.sound.reach hr
    have hm := (moves_of_step hs.conforms hstep).1
    have hle : cfg.nodeNames.countP (unavailable cfg g s) ≤ holders cfg g (liveAt cfg) s' :=
      List.countP_mono_left fun i hi hun =>
        hregime.holds_of_unavailable hr hok hm (hs.next hstep) hi ((Bool.or_eq_true _ _).mp hun)
    have hbound := hcovers s' hr
    omega

/-- Four nodes. -/
def fourNodes : Config :=
  { twoNodes with nodeNames := ["node01", "node02", "node03", "node04"], nodup := by decide }

/-- The four nodes with newly created enactments and room for two unavailable ones. -/
def fourNodesSys : Sys :=
  { freshSys with
    world := { freshSys.world with
      policy := { onePolicy with
        spec := { desiredState := "eth1", maxUnavailable := some (.int 2) } }
      nodes := fourNodes.nodeNames.map readyNode
      pods := fourNodes.nodeNames.map Pod.mk } }

/-- Until a release through the cache is about to be written. -/
def untilRelease : Op → Bool
  | .updatePolicyStatus (.decrement .cached _) _ => true
  | _ => false

/-- Two ways to exceed the cap.  Both nodes are NotReady, and the verdict of the first one empties
the counter while its apply is still to come.  Or all nodes are Ready, two of them hold the two
slots, and the first write of a release is refused: the second attempt finds the counter that the
first one has lowered in place, and commits zero while the other node is still inside its apply. -/
theorem maxUnavailable_exceeded :
    (∃ s, Reach twoNodes (fun s l => undisturbed twoNodes s l = true ∧ l.disturbs = false ∧
        misreads twoNodes s l = false) freshSys s ∧
      (maxUnavailableFor twoNodes.nodeNames.length freshSys.world.policy.spec).1 = 1 ∧
      twoNodes.nodeNames.countP (unavailable twoNodes 1 s) = 2) ∧
    ∃ s, Reach fourNodes (fun s l => undisturbed fourNodes s l = true ∧
        graced fourNodes 1 s = true ∧ allFresh fourNodes 1 s = true ∧
        allReady fourNodes s = true) fourNodesSys s ∧
      (maxUnavailableFor fourNodes.nodeNames.length fourNodesSys.world.policy.spec).1 = 2 ∧
      fourNodes.nodeNames.countP (unavailable fourNodes 1 s) = 3 := by
  refine ⟨?_, ?_⟩
  · obtain ⟨s, hs, hP⟩ : ∃ s, Reach twoNodes (fun s l => undisturbed twoNodes s l = true ∧
        l.disturbs = false ∧ misreads twoNodes s l = false) freshSys s ∧
        (twoNodes.nodeNames.countP (unavailable twoNodes 1 s) == 2) = true :=
      exists_of_play (fun s l (h : (undisturbed twoNodes s l && !l.disturbs &&
          !misreads twoNodes s l) = true) => by simpa [and_assoc] using h) _
        [.label (.cluster [nodeWithReady "node01" false, nodeWithReady "node02" false]
            [⟨"node01"⟩, ⟨"node02"⟩]),
          .label (.start "node01"), .work "node01" untilApply granted,
          .label (.start "node02"), .work "node02" untilApply granted]
        (by decide +kernel)
    exact ⟨s, hs, by decide, beq_iff_eq.mp hP⟩
  · obtain ⟨s, hs, hP⟩ : ∃ s, Reach fourNodes (fun s l => undisturbed fourNodes s l = true ∧
        graced fourNodes 1 s = true ∧ allFresh fourNodes 1 s = true ∧
        allReady fourNodes s = true) fourNodesSys s ∧
        (fourNodes.nodeNames.countP (unavailable fourNodes 1 s) == 3) = true :=
      exists_of_play (fun s l (h : (undisturbed fourNodes s l && graced fourNodes 1 s &&
          allFresh fourNodes 1 s && allReady fourNodes s) = true) => by
          simpa [and_assoc] using h) _
        [.label (.start "node01"), .work "node01" untilApply granted,
          .label (.start "node02"), .work "node02" untilApply granted,
          .work "node01" untilRelease granted, .label (.exec "node01" (.fail (.other "timed out"))),
          .label (.exec "node01" (.kept 0)), .work "node01" never granted,
          .label (.finish "node01"), .label (.start "node03"), .work "node03" untilApply granted,
          .label (.start "node04"), .work "node04" untilApply granted]
        (by decide +kernel)
    exact ⟨s, hs, by decide, beq_iff_eq.mp hP⟩

theorem freshSys_fresh : Fresh 1 freshSys where
  initial := twoNodesSys_initial _
  generation p hp := by
    rw [List.mem_singleton.mp hp]
    rfl
  enactments i e hown := ⟨1000, (Option.some.inj hown).symm⟩
  counter := rfl

/-- The first node crashes inside its apply, comes back and applies again while the second one
waits. -/
theorem maxUnavailable_respected_two_nodes : ∃ s, Reach twoNodes
    (fun s l => orderly twoNodes 1 s l = true) freshSys s ∧
    s.inApply 1 "node01" = true ∧
    (twoNodes.nodeNames.countP (unavailable twoNodes 1 s) : ℤ) ≤
      (maxUnavailableFor twoNodes.nodeNames.length freshSys.world.policy.spec).1 := by
  obtain ⟨s, hs, hP⟩ : ∃ s, Reach twoNodes (fun s l => orderly twoNodes 1 s l = true) freshSys s ∧
      s.inApply 1 "node01" = true :=
    exists_of_play (fun _ _ => id) _
      [.label (.start "node01"), .work "node01" untilApply granted, .label (.crash "node01"),
        .label (.tick 60), .label (.restart "node01"), .work "node01" never granted,
        .label (.finish "node01"), .label (.start "node02"), .label (.start "node01"),
        .work "node01" untilApply granted, .work "node02" never granted]
      (by decide +kernel)
  exact ⟨s, hs, hP, maxUnavailable_respected freshSys_fresh (fun _ _ => nofun) (by decide) hs⟩
