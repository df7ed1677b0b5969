/-
# The life of an enactment

What holds of one node's enactment along every run, whatever the other handlers do, with
crashes at any call and writes that fail:

* `success_applied`: an enactment that is Available or Finalizing for a generation was
  applied for it since it last moved to that generation;
* `committed_not_reapplied`: a configuration that was committed is not applied again, unless
  the desired state cannot be generated later on;
* `generations_forward`: the stored generation never goes back, unless `Reconcile` reads a
  version of the policy that is older than its enactment.

Each is an invariant of the node's own view, so only its own calls have to be looked at.
-/
import KubernetesNmstate.Scenario

/-! ## Done -/

/-- Available, or Finalizing: the apply is done. -/
def isDone (conditions : ConditionList) : Bool :=
  isAvailable conditions || isFinalizing conditions

@[simp] theorem isDone_nil : isDone [] = false := rfl

@[simp] theorem isDone_newEnactmentStatus (now : Time) :
    isDone (newEnactmentStatus now).conditions = false := rfl

theorem isDone_setter (n : Notice) (now : Time) (conditions : ConditionList) (message : String) :
    isDone (n.setter now conditions message) = decide (n = .success ∨ n = .finalizing) := by
  rw [isDone, Notice.isAvailable_setter, Notice.isFinalizing_setter, Bool.decide_or]

/-! ## Rendered and applied -/

/-- The desired state was rendered on node `i` from a version of the generation `g`. -/
def RenderedFrom (cfg : Config) (versions : List Policy) (i : NodeName) (g : Generation)
    (log : List Event) (desired : State) : Prop :=
  ∃ p ∈ versions, p.generation = g ∧ ∃ generated, Event.generated i p.spec generated ∈ log ∧
    cfg.applyDefaultVlanFiltering generated = .ok desired

/-- The event creates or deletes the enactment of node `i`, or moves it to another
generation. -/
def Event.moves (i : NodeName) : Event → Bool
  | .enactmentWritten node before after =>
    node = i ∧ before.map (·.policyGeneration) ≠ after.map (·.policyGeneration)
  | _ => false

/-- Since the enactment of node `i` last moved, the node successfully applied a desired
state that had the property `R` at that point of the log. -/
def AppliedSinceMove (R : List Event → State → Prop) (i : NodeName) : List Event → Prop
  | [] => False
  | ev :: log => ev.moves i = false ∧
      ((∃ desired, ev = .applied i desired true ∧ R log desired) ∨ AppliedSinceMove R i log)

theorem RenderedFrom.grow {cfg : Config} {versions versions' : List Policy} {i : NodeName}
    {g : Generation} {log : List Event} {desired : State}
    (h : RenderedFrom cfg versions i g log desired) (hsub : ∀ p ∈ versions, p ∈ versions')
    (evs : List Event) : RenderedFrom cfg versions' i g (evs ++ log) desired := by
  obtain ⟨p, hp, hg, generated, hev, hvlan⟩ := h
  exact ⟨p, hsub p hp, hg, generated, List.mem_append_right _ hev, hvlan⟩

theorem Event.moves_of_node_ne {i : NodeName} {ev : Event} (h : ev.node ≠ i) :
    ev.moves i = false := by
  cases ev with
  | enactmentWritten node before after =>
    have hnode : node ≠ i := h
    simp [Event.moves, hnode]
  | _ => rfl

theorem AppliedSinceMove.mono {R R' : List Event → State → Prop} {i : NodeName}
    {log : List Event} (h : AppliedSinceMove R i log)
    (hR : ∀ log desired, R log desired → R' log desired) : AppliedSinceMove R' i log := by
  induction log with
  | nil => exact h
  | cons ev log ih =>
    obtain ⟨hmove, ⟨desired, hev, hd⟩ | hrest⟩ := h
    · exact ⟨hmove, Or.inl ⟨desired, hev, hR log desired hd⟩⟩
    · exact ⟨hmove, Or.inr (ih hrest)⟩

theorem AppliedSinceMove.append {R : List Event → State → Prop} {i : NodeName}
    {evs log : List Event} (h : AppliedSinceMove R i log)
    (hevs : ∀ ev ∈ evs, Event.moves i ev = false) : AppliedSinceMove R i (evs ++ log) := by
  induction evs with
  | nil => exact h
  | cons ev evs ih =>
    exact ⟨hevs ev List.mem_cons_self,
      Or.inr (ih fun ev' hev' => hevs ev' (List.mem_cons_of_mem _ hev'))⟩

/-! ## No false success -/

/-- What the phase of a handler says about its enactment and the log: from the rendering to
the return of the apply, each place rests on the one before. -/
def NodeView.Backed (cfg : Config) (i : NodeName) (v : NodeView) : Prop :=
  match v.phase with
  | .rendered p _ generated => Event.generated i p.spec generated ∈ v.log
  | .filled _ _ | .claimed _ | .marked _ => ∀ e, v.own = some e →
      RenderedFrom cfg v.versions i e.policyGeneration v.log e.desiredState
  | .applied key => AppliedSinceMove (RenderedFrom cfg v.versions i key) i v.log
  | _ => True

/-- The invariant behind `success_applied`. -/
structure Honest (cfg : Config) (i : NodeName) (v : NodeView) : Prop where
  backed : v.Backed cfg i
  success : ∀ e, v.own = some e → isDone e.conditions = true →
    AppliedSinceMove (RenderedFrom cfg v.versions i e.policyGeneration) i v.log

section

variable {cfg : Config} {i : NodeName}

theorem AppliedSinceMove.grow {versions versions' : List Policy} {g : Generation}
    {evs log : List Event} (h : AppliedSinceMove (RenderedFrom cfg versions i g) i log)
    (hsub : ∀ p ∈ versions, p ∈ versions') (hevs : ∀ ev ∈ evs, Event.moves i ev = false) :
    AppliedSinceMove (RenderedFrom cfg versions' i g) i (evs ++ log) :=
  (h.mono fun _ _ hr => hr.grow hsub []).append hevs

/-- The same place, with an enactment of the same generation and desired state. -/
theorem NodeView.Backed.keep {v : NodeView} (h : v.Backed cfg i) {versions : List Policy}
    {own : Option EnactmentStatus} {evs : List Event} (hsub : ∀ p ∈ v.versions, p ∈ versions)
    (hevs : ∀ ev ∈ evs, Event.moves i ev = false)
    (hown : ∀ e', own = some e' → ∃ e, v.own = some e ∧
      e'.policyGeneration = e.policyGeneration ∧ e'.desiredState = e.desiredState) :
    NodeView.Backed cfg i ⟨versions, own, v.phase, evs ++ v.log⟩ := by
  obtain ⟨vs, o, ph, log⟩ := v
  have hstored : (∀ e, o = some e →
      RenderedFrom cfg vs i e.policyGeneration log e.desiredState) →
      ∀ e', own = some e' →
        RenderedFrom cfg versions i e'.policyGeneration (evs ++ log) e'.desiredState := by
    intro hold e' he'
    obtain ⟨e, he, hg, hd⟩ := hown e' he'
    rw [hg, hd]
    exact (hold e he).grow hsub evs
  cases ph with
  | rendered p previous generated => exact List.mem_append_right evs h
  | filled p previous => exact hstored h
  | claimed key => exact hstored h
  | marked key => exact hstored h
  | applied key => exact AppliedSinceMove.grow h hsub hevs
  | _ => trivial

/-- Nothing of the node itself changes. -/
theorem Honest.grow {v : NodeView} (h : Honest cfg i v) {versions : List Policy}
    {evs : List Event} (hsub : ∀ p ∈ v.versions, p ∈ versions)
    (hevs : ∀ ev ∈ evs, Event.moves i ev = false) :
    Honest cfg i { v with versions := versions, log := evs ++ v.log } where
  backed := h.backed.keep hsub hevs fun e' he' => ⟨e', he', rfl, rfl⟩
  success e he hdone := (h.success e he hdone).grow hsub hevs

theorem moves_same_generation {e e' : EnactmentStatus}
    (hg : e'.policyGeneration = e.policyGeneration) :
    ∀ ev ∈ [Event.enactmentWritten i (some e) (some e')], Event.moves i ev = false := by
  simp [Event.moves, hg]

/-- The same place, after a write that keeps the generation and the desired state. -/
theorem NodeView.Backed.rewrite {v : NodeView} (h : v.Backed cfg i) {e e' : EnactmentStatus}
    (hown : v.own = some e) (hg : e'.policyGeneration = e.policyGeneration)
    (hd : e'.desiredState = e.desiredState) :
    NodeView.Backed cfg i ⟨v.versions, some e', v.phase,
      [.enactmentWritten i (some e) (some e')] ++ v.log⟩ := by
  refine h.keep (fun p hp => hp) (moves_same_generation hg) fun e'' he'' => ?_
  obtain rfl := Option.some.inj he''
  exact ⟨e, hown, hg, hd⟩

/-- A write that records the generation `g` keeps what was known about a done enactment:
its conditions survive only when it already was at `g`. -/
theorem Honest.reset {v : NodeView} (h : Honest cfg i v) {e : EnactmentStatus}
    (hown : v.own = some e) {g : Generation} {e' : EnactmentStatus}
    (hg : e'.policyGeneration = g)
    (hc : e'.conditions = (resetPolicyGeneration e g).conditions)
    (hdone : isDone e'.conditions = true) :
    AppliedSinceMove (RenderedFrom cfg v.versions i g) i
      ([.enactmentWritten i (some e) (some e')] ++ v.log) := by
  rw [hc] at hdone
  by_cases heq : e.policyGeneration = g
  · rw [conditions_resetPolicyGeneration_of_eq heq] at hdone
    have happ := h.success e hown hdone
    rw [heq] at happ
    exact happ.append (moves_same_generation (hg.trans heq.symm))
  · rw [conditions_resetPolicyGeneration_of_ne heq] at hdone
    simp at hdone

/-- Every call keeps it: each phase takes over from the one before. -/
theorem NodeView.Backed.exec {s : Sys} {a : Answer} {o : Op} {r : o.Resp} {w : World} {φ : Ghost}
    {evs : List Event} (hs : Sound cfg s) (h : (s.node i).Backed cfg i)
    (hx : Executes cfg s i a o r w φ evs) :
    NodeView.Backed cfg i ⟨w.versions, w.enactments i, φ.phase, evs ++ s.log⟩ := by
  have hbasis := hs.basis i
  have heff := hx.effect
  generalize φ.phase = ph at heff ⊢
  have hcommit : ∀ (status : PolicyStatus) (caller : Caller) (ph : Phase),
      NodeView.Backed cfg i ⟨s.world.versions, s.world.enactments i, ph, s.log⟩ →
      NodeView.Backed cfg i ⟨(s.world.commitStatus status).versions, s.world.enactments i, ph,
        [.policyWritten i caller (s.ghosts i).view] ++ s.log⟩ := fun status caller ph hph =>
    hph.keep (fun p hp => List.mem_cons_of_mem _ hp) (by simp [Event.moves])
      fun e he => ⟨e, he, rfl, rfl⟩
  have hunfold := h
  unfold NodeView.Backed Sys.node at hunfold
  cases heff with
  | quiet => exact h
  | rendered hph => exact List.mem_cons_self
  | claim hown hask hp hrv hcap =>
    obtain ⟨p, previous, hph, -⟩ := hask.filled
    rw [hph] at hunfold
    exact hcommit _ _ _ hunfold
  | audit hp hrv hl hdue hlt => exact hcommit _ _ _ h
  | update hp hrv hl hnodes hpods => exact hcommit _ _ _ h
  | reset hp hrv => exact hcommit _ _ _ h
  | create hown hph => rw [hph]; trivial
  | delete hph => rw [hph]; trivial
  | firstStatus hown hph => rw [hph]; trivial
  | fill hown hph hvlan =>
    rename_i e p previous generated desired captured features
    rw [hph] at hunfold hbasis
    rw [World.setEnactment_self]
    intro e' he'
    obtain rfl := Option.some.inj he'
    obtain ⟨v, hv, hpv⟩ := hbasis p rfl
    refine ⟨v, hv, hpv.generation_eq.symm, generated, ?_, hvlan⟩
    rw [← hpv.spec_eq]
    exact List.mem_append_right _ hunfold
  | notice hown hn =>
    rename_i e n t message
    rw [World.setEnactment_self]
    cases n with
    | progressing =>
      -- the state that is about to be applied is the one that was stored
      intro e' he'
      obtain rfl := Option.some.inj he'
      obtain ⟨-, hph | ⟨p, previous, hph, -⟩⟩ := hn <;> rw [hph] at hunfold <;>
        exact (hunfold e hown).grow (fun p hp => hp) _
    | finalizing => trivial
    | _ => exact h.rewrite hown rfl rfl
  | interrupted hown hph happ => rw [hph]; trivial
  | retryCount hown hph happ => rw [hph]; trivial
  | applied hown hph happ =>
    rw [hph] at hunfold
    exact ⟨rfl, Or.inl ⟨_, rfl, hunfold _ hown⟩⟩
  | _ => trivial

/-- **Every call keeps it**: success is declared only on the strength of an apply. -/
theorem Honest.exec {s : Sys} {a : Answer} {o : Op} {r : o.Resp} {w : World} {φ : Ghost}
    {evs : List Event} (hs : Sound cfg s) (h : Honest cfg i (s.node i))
    (hx : Executes cfg s i a o r w φ evs) :
    Honest cfg i ⟨w.versions, w.enactments i, φ.phase, evs ++ s.log⟩ := by
  refine ⟨h.backed.exec hs hx, ?_⟩
  intro e' he' hdone
  have hb := h.backed
  unfold NodeView.Backed Sys.node at hb
  have heff := hx.effect
  generalize φ.phase = ph at heff
  have hcommit : ∀ (status : PolicyStatus) (caller : Caller), s.world.enactments i = some e' →
      AppliedSinceMove (RenderedFrom cfg (s.world.commitStatus status).versions i
        e'.policyGeneration) i ([.policyWritten i caller (s.ghosts i).view] ++ s.log) :=
    fun status caller hown => (h.success e' hown hdone).grow
      (fun p hp => List.mem_cons_of_mem _ hp) (by simp [Event.moves])
  cases heff with
  | rendered hph => exact (h.success e' he' hdone).append (by simp [Event.moves])
  | claim hown hask hp hrv hcap => exact hcommit _ _ he'
  | release hheld hp hrv hpos => exact hcommit _ _ he'
  | audit hp hrv hl hdue hlt => exact hcommit _ _ he'
  | update hp hrv hl hnodes hpods => exact hcommit _ _ he'
  | reset hp hrv => exact hcommit _ _ he'
  | delete hph =>
    rw [World.setEnactment_self] at he'
    cases he'
  | create hown hph =>
    rw [World.setEnactment_self] at he'
    obtain rfl := Option.some.inj he'
    simp at hdone
  | firstStatus hown hph =>
    rw [World.setEnactment_self] at he'
    obtain rfl := Option.some.inj he'
    simp at hdone
  | resetGeneration hown hph =>
    rw [World.setEnactment_self] at he'
    obtain rfl := Option.some.inj he'
    exact h.reset hown rfl rfl hdone
  | fill hown hph hvlan =>
    rw [World.setEnactment_self] at he'
    obtain rfl := Option.some.inj he'
    exact h.reset hown rfl rfl hdone
  | notice hown hn =>
    rename_i e n t message
    rw [World.setEnactment_self] at he'
    obtain rfl := Option.some.inj he'
    have happ : AppliedSinceMove (RenderedFrom cfg s.world.versions i e.policyGeneration) i
        s.log := by
      rw [isDone_setter, decide_eq_true_iff] at hdone
      rcases hdone with rfl | rfl
      · exact h.success e hown (by simp [isDone, hn.1])
      · rw [hn.1] at hb
        exact hb
    exact happ.append (moves_same_generation rfl)
  | interrupted hown hph happ =>
    rw [World.setEnactment_self] at he'
    obtain rfl := Option.some.inj he'
    simp [interruptedStatus, isDone_setter] at hdone
  | retryCount hown hph happ =>
    rw [World.setEnactment_self] at he'
    obtain rfl := Option.some.inj he'
    exact (h.success _ hown hdone).append (moves_same_generation rfl)
  | applied hown hph happ => exact (h.success e' he' hdone).append (by simp [Event.moves])
  | applyFailed hown hph happ => exact (h.success e' he' hdone).append (by simp [Event.moves])
  | _ => exact h.success e' he' hdone

/-- Along every run. -/
theorem NodeView.Backed.reach {ok : Sys → Label → Prop} {s₀ s : Sys} (h₀ : Initial s₀)
    (h : Reach cfg ok s₀ s) : (s.node i).Backed cfg i := by
  refine h.node_induct h₀.sound ?_ ?_ ?_ ?_
  · unfold NodeView.Backed Sys.node
    rw [h₀.rests.ghosts i]
    trivial
  · exact fun v versions evs hv hsub hevs =>
      hv.keep hsub (fun ev hev => Event.moves_of_node_ne (hevs ev hev)) fun e he =>
        ⟨e, he, rfl, rfl⟩
  · intro v ph hv hph
    rcases hph with rfl | rfl <;> trivial
  · exact fun s a o r w φ evs hs hv _ hx => hv.exec hs hx

theorem Honest.reach {ok : Sys → Label → Prop} {s₀ s : Sys} (h₀ : Initial s₀)
    (hfresh : ∀ e, s₀.world.enactments i = some e → isDone e.conditions = false)
    (h : Reach cfg ok s₀ s) : Honest cfg i (s.node i) := by
  refine h.node_induct h₀.sound ?_ ?_ ?_ ?_
  · refine ⟨NodeView.Backed.reach h₀ (.refl : Reach cfg ok s₀ s₀), fun e he hdone => ?_⟩
    rw [hfresh e he] at hdone
    cases hdone
  · exact fun v versions evs hv hsub hevs =>
      hv.grow hsub fun ev hev => Event.moves_of_node_ne (hevs ev hev)
  · intro v ph hv hph
    rcases hph with rfl | rfl <;> exact ⟨trivial, hv.success⟩
  · exact fun s a o r w φ evs hs hv _ hx => hv.exec hs hx

end

/-- **No false success.**  In every run from a state in which the node's enactment is not
done, an enactment that is Available or Finalizing was applied, with a desired state rendered
from its generation, since it last moved to that generation. -/
theorem success_applied {cfg : Config} {i : NodeName} {s₀ s : Sys} (h₀ : Initial s₀)
    (hfresh : ∀ e, s₀.world.enactments i = some e → isDone e.conditions = false)
    (h : Reach cfg (fun _ _ => True) s₀ s) {e : EnactmentStatus}
    (hown : s.world.enactments i = some e)
    (hdone : isAvailable e.conditions = true ∨ isFinalizing e.conditions = true) :
    AppliedSinceMove (RenderedFrom cfg s.world.versions i e.policyGeneration) i s.log :=
  (Honest.reach h₀ hfresh h).success e hown (by simpa [isDone] using hdone)

/-- The first node of the small cluster reconciles, and is Available at the end. -/
theorem success_applied_node01 : ∃ s e, Reach twoNodes (fun _ _ => True) freshSys s ∧
    s.world.enactments "node01" = some e ∧ isAvailable e.conditions = true ∧
    AppliedSinceMove (RenderedFrom twoNodes s.world.versions "node01" e.policyGeneration)
      "node01" s.log := by
  obtain ⟨s, hs, hP⟩ : ∃ s, Reach twoNodes (fun _ _ => True) freshSys s ∧
      (s.world.enactments "node01").any (fun e => isAvailable e.conditions) = true :=
    exists_of_play (fun _ _ (_ : true = true) => trivial) _
      [.label (.start "node01"), .work "node01" never granted] (by decide +kernel)
  obtain ⟨e, he, hav⟩ := (Option.any_eq_true _ _).mp hP
  exact ⟨s, e, hs, he, hav, success_applied (twoNodesSys_initial _)
    (fun e' he' => by cases he'; rfl) hs he (Or.inl hav)⟩

/-! ## A committed configuration is not re-applied -/

/-- The enactment is Finalizing or Available for the generation `g`. -/
def committedAt (g : Generation) (e : EnactmentStatus) : Bool :=
  e.policyGeneration = g ∧ isDone e.conditions = true

/-- The event persists the enactment of node `i` as Finalizing or Available for `g`. -/
def Event.commits (i : NodeName) (g : Generation) : Event → Bool
  | .enactmentWritten node _ (some e) => node = i ∧ committedAt g e = true
  | _ => false

/-- The enactment of node `i` has been persisted as Finalizing or Available for `g`, now or
earlier; it was `own₀` when the log began. -/
def committedBefore (i : NodeName) (g : Generation) (own₀ : Option EnactmentStatus)
    (log : List Event) : Bool :=
  own₀.any (committedAt g) || log.any (Event.commits i g)

theorem Event.commits_of_node_ne {i : NodeName} {g : Generation} {ev : Event} (h : ev.node ≠ i) :
    ev.commits i g = false := by
  cases ev with
  | enactmentWritten node before after =>
    have hnode : node ≠ i := h
    cases after <;> simp [Event.commits, hnode]
  | _ => rfl

theorem committedBefore_append {i : NodeName} {g : Generation} {own₀ : Option EnactmentStatus}
    {evs log : List Event} (h : ∀ ev ∈ evs, Event.commits i g ev = false) :
    committedBefore i g own₀ (evs ++ log) = committedBefore i g own₀ log := by
  have hevs : evs.any (Event.commits i g) = false := List.any_eq_false.mpr (by simpa using h)
  rw [committedBefore, List.any_append, hevs, Bool.false_or, committedBefore]

theorem committedBefore_write {i : NodeName} {g : Generation} {own₀ : Option EnactmentStatus}
    {before : Option EnactmentStatus} {e : EnactmentStatus} {log : List Event} :
    committedBefore i g own₀ ([.enactmentWritten i before (some e)] ++ log) =
      (committedAt g e || committedBefore i g own₀ log) := by
  simp [committedBefore, Event.commits, Bool.or_left_comm]

/-- A write that records the generation `g` leaves an enactment committed, or not. -/
theorem committedAt_reset {g : Generation} {e e' : EnactmentStatus} (hg : e'.policyGeneration = g)
    (hc : e'.conditions = (resetPolicyGeneration e g).conditions) :
    committedAt g e' = committedAt g e := by
  by_cases heq : e.policyGeneration = g
  · rw [conditions_resetPolicyGeneration_of_eq heq] at hc
    simp [committedAt, hg, hc, heq]
  · rw [conditions_resetPolicyGeneration_of_ne heq] at hc
    simp [committedAt, hc, heq]

/-- Available and Progressing exclude each other; every notification sets both. -/
def Phased (conditions : ConditionList) : Prop :=
  isAvailable conditions = true → isProgressing conditions = false

theorem Phased.setter (n : Notice) (now : Time) (conditions : ConditionList) (message : String) :
    Phased (n.setter now conditions message) := by
  intro h
  rw [Notice.isAvailable_setter] at h
  rw [Notice.isProgressing_setter, of_decide_eq_true h]
  rfl

theorem Phased.reset {e : EnactmentStatus} (h : Phased e.conditions) (g : Generation) :
    Phased (resetPolicyGeneration e g).conditions := by
  by_cases heq : e.policyGeneration = g
  · rw [conditions_resetPolicyGeneration_of_eq heq]
    exact h
  · rw [conditions_resetPolicyGeneration_of_ne heq]
    exact fun _ => rfl

theorem Applying.not_done {e : EnactmentStatus} (h : Applying e) (hphased : Phased e.conditions) :
    isDone e.conditions = false := by
  cases hav : isAvailable e.conditions with
  | false => simp [isDone, hav, h.notFinalizing]
  | true =>
    have := hphased hav
    rw [h.progressing] at this
    cases this

theorem Startable.not_done {cfg : Config} {e : EnactmentStatus} (h : Startable cfg e) :
    isDone e.conditions = false := by
  simp [isDone, h.notAvailable, h.notFinalizing]

/-- A generation was given up in this phase. -/
def Phase.givenUp : Phase → Bool
  | .unrendered _ | .generationReset _ => true
  | _ => false

/-- The invariant behind `committed_not_reapplied`. -/
structure Kept (i : NodeName) (g : Generation) (own₀ : Option EnactmentStatus) (v : NodeView) :
    Prop where
  phased : ∀ e, v.own = some e → Phased e.conditions
  committed : committedBefore i g own₀ v.log = true → v.own.any (committedAt g) = true
  givenUp : v.phase.givenUp = true → v.own.any (committedAt g) = false

section

variable {cfg : Config} {i : NodeName} {g : Generation} {own₀ : Option EnactmentStatus}

theorem committedAt_of_not_done {e : EnactmentStatus} (h : isDone e.conditions = false) :
    committedAt g e = false := by
  simp [committedAt, h]

/-- A notification of a committed enactment keeps it committed. -/
theorem Notice.committedAt_setter {n : Notice} {ph : Phase} {e : EnactmentStatus} {t : Time}
    {message : String} (hn : n.Allowed cfg ph e) (hphased : Phased e.conditions)
    (hgiven : ph.givenUp = true → committedAt g e = false) (hc : committedAt g e = true) :
    committedAt g { e with conditions := n.setter t e.conditions message } = true := by
  have hstart : ∀ {e}, Startable cfg e → committedAt g e = false := fun h =>
    committedAt_of_not_done h.not_done
  have happ : Applying e → committedAt g e = false := fun h =>
    committedAt_of_not_done (h.not_done hphased)
  have hgen : e.policyGeneration = g := (of_decide_eq_true hc).1
  have hno : ∀ {P : Prop}, committedAt g e = false → P := fun h => by
    rw [h] at hc
    cases hc
  cases n with
  | success | finalizing => simp [committedAt, hgen, isDone_setter]
  | generateFailure =>
    obtain ⟨p, rfl⟩ := hn
    exact hno (hgiven rfl)
  | progressing => exact hno (hstart hn.1)
  | failedToConfigure =>
    rcases hn with hask | ⟨-, h, -⟩
    · exact hno (hstart hask.startable)
    · exact hno (happ h)
  | retrying => exact hno (happ hn.2)
  | pending | aborted => exact hno (hstart hn.startable)
  | interrupted => exact hn.elim

theorem Phase.givenUp_phaseAfter {n : Notice} {ph : Phase} {e : EnactmentStatus}
    (h : (n.phaseAfter ph e).givenUp = true) : ph.givenUp = true := by
  cases n <;> first
    | exact h
    | cases h

/-- Events that do not write the enactment, in a phase that is not a given-up one or was
one before. -/
theorem Kept.other {v : NodeView} (h : Kept i g own₀ v) {versions : List Policy} {ph : Phase}
    {evs : List Event} (hevs : ∀ ev ∈ evs, Event.commits i g ev = false)
    (hph : ph.givenUp = true → v.own.any (committedAt g) = false) :
    Kept i g own₀ ⟨versions, v.own, ph, evs ++ v.log⟩ where
  phased := h.phased
  committed hc := h.committed (by rwa [committedBefore_append hevs] at hc)
  givenUp := hph

/-- A write of the enactment that does not take back what was committed. -/
theorem Kept.write {v : NodeView} (h : Kept i g own₀ v) {e e' : EnactmentStatus}
    (hown : v.own = some e) (hphased : Phased e'.conditions)
    (hkeep : committedAt g e = true → committedAt g e' = true) {versions : List Policy} {ph : Phase}
    (hph : ph.givenUp = true → committedAt g e' = false) :
    Kept i g own₀ ⟨versions, some e', ph, [.enactmentWritten i (some e) (some e')] ++ v.log⟩ where
  phased e'' he'' := by
    rw [← Option.some.inj he'']
    exact hphased
  committed hc := by
    rw [committedBefore_write, Bool.or_eq_true] at hc
    rcases hc with hc | hc
    · exact hc
    · have hold := h.committed hc
      rw [hown] at hold
      exact hkeep hold
  givenUp := hph

/-- **Every call keeps it**, as long as the generation is `g`, the enactment is not deleted,
and `GenerateState` does not fail on a committed enactment. -/
theorem Kept.exec {s : Sys} {a : Answer} {o : Op} {r : o.Resp} {w : World} {φ : Ghost}
    {evs : List Event} (hs : Sound cfg s) (hgen : ∀ p ∈ s.world.versions, p.generation = g)
    (hdel : deletes i s (.exec i a) = false)
    (hfail : generateFails i s (.exec i a) = true →
      (s.world.enactments i).any (committedAt g) = false)
    (h : Kept i g own₀ (s.node i)) (hx : Executes cfg s i a o r w φ evs) :
    Kept i g own₀ ⟨w.versions, w.enactments i, φ.phase, evs ++ s.log⟩ := by
  have hbasis := hs.basis i
  have heff := hx.effect
  have hunrendered := fun p => hx.generateFails_eq (p := p)
  have hdeletes := hx.deletes_eq
  generalize φ.phase = ph at heff hunrendered ⊢
  have hgiven := h.givenUp
  have hcommit : ∀ (caller : Caller) (versions : List Policy) (ph : Phase),
      (ph.givenUp = true → (s.ghosts i).phase.givenUp = true) →
      Kept i g own₀ ⟨versions, s.world.enactments i, ph,
        [.policyWritten i caller (s.ghosts i).view] ++ s.log⟩ := fun caller versions ph hph =>
    h.other (by simp [Event.commits]) fun hg => hgiven (hph hg)
  have hquiet : ∀ {ph : Phase}, ph.givenUp = false →
      Kept i g own₀ ⟨s.world.versions, s.world.enactments i, ph, s.log⟩ := fun hph =>
    ⟨h.phased, h.committed, fun hg => by rw [hph] at hg; cases hg⟩
  cases heff with
  | quiet => exact h
  | looked hp hph => exact hquiet rfl
  | found hown hph => exact hquiet rfl
  | nothingHeld hheld hp hcount => exact hquiet rfl
  | rendered hph => exact h.other (by simp [Event.commits]) fun hg => by cases hg
  | unrendered hph =>
    refine ⟨h.phased, h.committed, fun _ => ?_⟩
    rcases hunrendered _ rfl with hold | hnow
    · rw [hph] at hold
      cases hold
    · exact hfail hnow
  | claim hown hask hp hrv hcap => exact hcommit _ _ _ fun hg => by cases hg
  | release hheld hp hrv hpos => exact hcommit _ _ _ fun hg => by cases hg
  | audit hp hrv hl hdue hlt => exact hcommit _ _ _ id
  | update hp hrv hl hnodes hpods => exact hcommit _ _ _ id
  | reset hp hrv => exact hcommit _ _ _ id
  | create hown hph =>
    rw [World.setEnactment_self, hph]
    refine ⟨fun e he => ?_, fun hc => ?_, fun hg => by cases hg⟩
    · rw [← Option.some.inj he]
      exact fun _ => rfl
    · rw [committedBefore_write] at hc
      have hold := h.committed (show committedBefore i g own₀ s.log = true by
        simpa [committedAt] using hc)
      simp [Sys.node, hown] at hold
  | delete hph =>
    rw [World.setEnactment_self, hph]
    refine ⟨fun e he => (by cases he), fun hc => ?_, fun hg => (by cases hg)⟩
    rw [committedBefore_append (by simp [Event.commits])] at hc
    have hold := h.committed hc
    have hsome : s.world.enactments i ≠ none := fun hnone => by
      simp [Sys.node, hnone] at hold
    rw [hdeletes hsome (World.setEnactment_self _ _ _)] at hdel
    cases hdel
  | firstStatus hown hph =>
    rw [World.setEnactment_self, hph]
    refine h.write hown (fun _ => rfl) ?_ fun hg => by cases hg
    intro hc
    simp [committedAt] at hc
  | resetGeneration hown hph =>
    rename_i e p
    rw [hph] at hbasis
    have hpg : p.generation = g := (hbasis p rfl).generation_eq hgen
    have heq : committedAt g (resetPolicyGeneration e p.generation) = committedAt g e :=
      committedAt_reset hpg (by rw [hpg])
    have hnot : committedAt g e = false := by
      have := hgiven (by rw [Sys.node, hph]; rfl)
      simpa [Sys.node, hown] using this
    rw [World.setEnactment_self]
    exact h.write hown ((h.phased e hown).reset _) (fun hc => heq.trans hc)
      fun _ => heq.trans hnot
  | fill hown hph hvlan =>
    rename_i e p previous generated desired captured features
    rw [hph] at hbasis
    have hpg : p.generation = g := (hbasis p rfl).generation_eq hgen
    have heq : committedAt g (filledStatus p.generation desired captured features e) =
        committedAt g e := committedAt_reset hpg (by rw [hpg]; rfl)
    rw [World.setEnactment_self]
    refine h.write hown ?_ (fun hc => heq.trans hc) fun hg => (by cases hg)
    exact (h.phased e hown).reset p.generation
  | notice hown hn =>
    rename_i e n t message
    rw [World.setEnactment_self]
    have hold : (s.ghosts i).phase.givenUp = true → committedAt g e = false := fun hg => by
      simpa [Sys.node, hown] using hgiven hg
    refine h.write hown (Phased.setter n t e.conditions message)
      (Notice.committedAt_setter hn (h.phased e hown) hold) fun hg => ?_
    have hg' := Phase.givenUp_phaseAfter hg
    refine committedAt_of_not_done ?_
    rw [isDone_setter, decide_eq_false_iff_not]
    -- success and finalizing are not declared where a generation was given up
    rintro (rfl | rfl)
    · obtain ⟨-, hph | hph | ⟨p, previous, hph⟩⟩ := hn <;> rw [hph] at hg' <;> cases hg'
    · rw [hn.1] at hg'
      cases hg'
  | interrupted hown hph happ =>
    rename_i e t
    rw [World.setEnactment_self, hph]
    refine h.write hown (Phased.setter .interrupted _ _ _) (fun hc => ?_) fun hg => by cases hg
    rw [committedAt_of_not_done (happ.not_done (h.phased e hown))] at hc
    cases hc
  | retryCount hown hph happ =>
    rename_i e
    rw [World.setEnactment_self, hph]
    refine h.write hown ?_ ?_ fun hg => (by cases hg)
    · exact h.phased e hown
    · exact id
  | applied hown hph happ => exact h.other (by simp [Event.commits]) fun hg => by cases hg
  | applyFailed hown hph happ => exact h.other (by simp [Event.commits]) fun hg => by cases hg

end

/-- **A committed configuration is not re-applied.**  The generation is `g` throughout and
the node's enactment is not deleted.  As long as `GenerateState` does not fail while the
enactment is Finalizing or Available for `g`, once it has been persisted so the node neither
applies nor claims a slot for `g` again. -/
theorem committed_not_reapplied {cfg : Config} {i : NodeName} {g : Generation} {s₀ s : Sys}
    (h₀ : Initial s₀) (hg : ∀ p ∈ s₀.world.versions, p.generation = g)
    (hphased : ∀ e, s₀.world.enactments i = some e → Phased e.conditions)
    (h : Reach cfg (fun s l => (l.edits = false ∧ deletes i s l = false) ∧
      (generateFails i s l = true → (s.world.enactments i).any (committedAt g) = false)) s₀ s)
    (hc : committedBefore i g (s₀.world.enactments i) s.log = true) :
    s.inApply g i = false ∧ ∀ p, s.pending i ≠ some (.updatePolicyStatus (.increment g) p) := by
  have hkept : Kept i g (s₀.world.enactments i) (s.node i) := by
    have hgens := h.with_invariant fun s hs => hs.generation_eq h₀ (fun _ _ hok => hok.1.1) hg
    refine hgens.node_induct h₀.sound ?_ ?_ ?_ ?_
    · refine ⟨hphased, fun hc₀ => ?_, fun hph => ?_⟩
      · simpa [committedBefore, Sys.node, h₀.rests.log] using hc₀
      · rw [Sys.node, h₀.rests.ghosts i] at hph
        cases hph
    · exact fun v versions evs hv _ hevs =>
        hv.other (fun ev hev => Event.commits_of_node_ne (hevs ev hev)) hv.givenUp
    · intro v ph hv hph
      refine ⟨hv.phased, hv.committed, fun hgiven => ?_⟩
      rcases hph with rfl | rfl <;> cases hgiven
    · intro s a o r w φ evs hs hv hok hx
      exact hv.exec hs hok.2 hok.1.1.2 hok.1.2 hx
  have hsound : Sound cfg s := h₀.sound.reach h
  have hown := hkept.committed hc
  obtain ⟨e, he, hce⟩ := (Option.any_eq_true _ _).mp hown
  have hdone : isDone e.conditions = true := (of_decide_eq_true hce).2
  refine ⟨Bool.eq_false_iff.mpr fun hin => ?_, fun p hp => ?_⟩
  · obtain ⟨e', he', -, -, happ⟩ := hsound.conforms.marked_of_inApply hin
    obtain rfl : e = e' := Option.some.inj (he.symm.trans he')
    rw [happ.not_done (hkept.phased e he)] at hdone
    cases hdone
  · obtain ⟨e', he', -, hask⟩ := (hsound.conforms.permits hp).of_increment
    obtain rfl : e = e' := Option.some.inj (he.symm.trans he')
    rw [hask.startable.not_done] at hdone
    cases hdone

/-- The oracle that grants every call except the generation of the desired state. -/
def generationDenied : Op → Answer
  | .generateState _ _ _ => .fail (.other "nmpolicy")
  | o => granted o

/-- The first node is Available, a reconcile cannot generate the desired state, and the next
one applies again. -/
theorem reapplied_after_generate_failure :
    ∃ s, Reach twoNodes (fun s l => l.edits = false ∧ deletes "node01" s l = false) freshSys s ∧
      committedBefore "node01" 1 (freshSys.world.enactments "node01") s.log = true ∧
      s.inApply 1 "node01" = true := by
  obtain ⟨s, hs, hP⟩ : ∃ s, Reach twoNodes
      (fun s l => l.edits = false ∧ deletes "node01" s l = false) freshSys s ∧
      (committedBefore "node01" 1 (freshSys.world.enactments "node01") s.log &&
        s.inApply 1 "node01") = true :=
    exists_of_play (fun s l (h : (!l.edits && !deletes "node01" s l) = true) => by simpa using h) _
      [.label (.start "node01"), .work "node01" never granted, .label (.finish "node01"),
        .label (.start "node01"), .work "node01" never generationDenied,
        .label (.finish "node01"), .label (.start "node01"), .work "node01" untilApply granted]
      (by decide +kernel)
  rw [Bool.and_eq_true] at hP
  exact ⟨s, hs, hP⟩

/-- The first node is Available and is reconciled again. -/
theorem committed_not_reapplied_node01 : ∃ s, Reach twoNodes
    (fun s l => (l.edits = false ∧ deletes "node01" s l = false) ∧
      (generateFails "node01" s l = true →
        (s.world.enactments "node01").any (committedAt 1) = false)) freshSys s ∧
    committedBefore "node01" 1 (freshSys.world.enactments "node01") s.log = true ∧
    s.inApply 1 "node01" = false ∧
      ∀ p, s.pending "node01" ≠ some (.updatePolicyStatus (.increment 1) p) := by
  obtain ⟨s, hs, hP⟩ : ∃ s, Reach twoNodes
      (fun s l => (l.edits = false ∧ deletes "node01" s l = false) ∧
        (generateFails "node01" s l = true →
          (s.world.enactments "node01").any (committedAt 1) = false)) freshSys s ∧
      committedBefore "node01" 1 (freshSys.world.enactments "node01") s.log = true :=
    exists_of_play (fun s l (h : (!l.edits && !deletes "node01" s l &&
      !generateFails "node01" s l) = true) => by simp at h; simp [h]) _
      [.label (.start "node01"), .work "node01" never granted, .label (.finish "node01"),
        .label (.start "node01"), .work "node01" never granted]
      (by decide +kernel)
  exact ⟨s, hs, hP, committed_not_reapplied (twoNodesSys_initial _)
    (fun p hp => by rw [List.mem_singleton.mp hp]; rfl)
    (fun e he => by cases he; exact fun _ => rfl) hs hP⟩

/-! ## Generations never go backwards -/

/-- The generations recorded in the enactment of node `i` since it was created; it was `own₀`
when the log began. -/
def recorded (i : NodeName) (own₀ : Option EnactmentStatus) : List Event → List Generation
  | [] => own₀.toList.map EnactmentStatus.policyGeneration
  | .enactmentWritten node before after :: log =>
    if node = i then
      after.toList.map EnactmentStatus.policyGeneration ++
        if before = none ∨ after = none then [] else recorded i own₀ log
    else recorded i own₀ log
  | _ :: log => recorded i own₀ log

/-- The event lowers the generation stored in the enactment of node `i`. -/
def Event.lowers (i : NodeName) : Event → Bool
  | .enactmentWritten node (some e) (some e') =>
    node = i ∧ e'.policyGeneration < e.policyGeneration
  | _ => false

/-- The event writes the enactment of node `i`. -/
def Event.writes (i : NodeName) : Event → Bool
  | .enactmentWritten node _ _ => node = i
  | _ => false

theorem Event.writes_of_node_ne {i : NodeName} {ev : Event} (h : ev.node ≠ i) :
    ev.writes i = false := by
  cases ev with
  | enactmentWritten node before after => exact decide_eq_false h
  | _ => rfl

theorem Event.lowers_of_not_writes {i : NodeName} {ev : Event} (h : ev.writes i = false) :
    ev.lowers i = false := by
  cases ev with
  | enactmentWritten node before after =>
    have hnode : node ≠ i := of_decide_eq_false h
    cases before <;> cases after <;> simp [Event.lowers, hnode]
  | _ => rfl

theorem recorded_append {i : NodeName} {own₀ : Option EnactmentStatus} {evs log : List Event}
    (h : ∀ ev ∈ evs, Event.writes i ev = false) :
    recorded i own₀ (evs ++ log) = recorded i own₀ log := by
  induction evs with
  | nil => rfl
  | cons ev evs ih =>
    have ih := ih fun ev' hev' => h ev' (List.mem_cons_of_mem _ hev')
    have hev := h ev List.mem_cons_self
    cases ev with
    | enactmentWritten node before after =>
      have hnode : node ≠ i := of_decide_eq_false hev
      rw [List.cons_append, recorded, if_neg hnode, ih]
    | _ => exact ih

/-- The invariant behind `generations_forward`. -/
structure Forward (i : NodeName) (own₀ : Option EnactmentStatus) (v : NodeView) : Prop where
  basis : ∀ p e, v.phase.policy = some p → v.own = some e → e.policyGeneration ≤ p.generation
  bounded : ∀ e, v.own = some e → ∀ g ∈ recorded i own₀ v.log, g ≤ e.policyGeneration
  kept : ∀ ev ∈ v.log, ev.lowers i = false

section

variable {cfg : Config} {i : NodeName} {own₀ : Option EnactmentStatus}

/-- The enactment stays, and the handler works on the version it worked on, or on none. -/
theorem Forward.other {v : NodeView} (h : Forward i own₀ v) {versions : List Policy} {ph : Phase}
    {evs : List Event} (hevs : ∀ ev ∈ evs, Event.writes i ev = false)
    (hph : ∀ p, ph.policy = some p → v.phase.policy = some p) :
    Forward i own₀ ⟨versions, v.own, ph, evs ++ v.log⟩ where
  basis p e hp he := h.basis p e (hph p hp) he
  bounded e he := by
    rw [recorded_append hevs]
    exact h.bounded e he
  kept ev hev := by
    rcases List.mem_append.mp hev with hev | hev
    · exact Event.lowers_of_not_writes (hevs ev hev)
    · exact h.kept ev hev

/-- A write that does not lower the generation. -/
theorem Forward.write {v : NodeView} (h : Forward i own₀ v) {e e' : EnactmentStatus}
    (hown : v.own = some e) (hle : e.policyGeneration ≤ e'.policyGeneration)
    {versions : List Policy} {ph : Phase}
    (hph : ∀ p, ph.policy = some p → e'.policyGeneration ≤ p.generation) :
    Forward i own₀ ⟨versions, some e', ph, [.enactmentWritten i (some e) (some e')] ++ v.log⟩ where
  basis p e'' hp he'' := by
    rw [← Option.some.inj he'']
    exact hph p hp
  bounded e'' he'' g hg := by
    rw [← Option.some.inj he'']
    rcases List.mem_cons.mp (by simpa [recorded] using hg) with rfl | hg
    · exact Nat.le_refl _
    · exact Nat.le_trans (h.bounded e hown g hg) hle
  kept ev hev := by
    rcases List.mem_cons.mp hev with rfl | hev
    · simp [Event.lowers, hle]
    · exact h.kept ev hev

/-- **Every call keeps it**, as long as `Reconcile` reads versions that are not older than
its enactment. -/
theorem Forward.exec {s : Sys} {a : Answer} {o : Op} {r : o.Resp} {w : World} {φ : Ghost}
    {evs : List Event} (hread : ∀ p e, policyRead i s (.exec i a) = some p →
      s.world.enactments i = some e → e.policyGeneration ≤ p.generation)
    (h : Forward i own₀ (s.node i)) (hx : Executes cfg s i a o r w φ evs) :
    Forward i own₀ ⟨w.versions, w.enactments i, φ.phase, evs ++ s.log⟩ := by
  have hlooked := fun p => hx.policyRead_eq (p := p)
  have heff := hx.effect
  have hbasis := h.basis
  generalize φ.phase = ph at heff hlooked ⊢
  have hquiet : ∀ {ph : Phase}, (∀ p, ph.policy = some p → (s.ghosts i).phase.policy = some p) →
      Forward i own₀ ⟨s.world.versions, s.world.enactments i, ph, s.log⟩ := fun hph =>
    ⟨fun p e hp he => hbasis p e (hph p hp) he, h.bounded, h.kept⟩
  have hcommit : ∀ (caller : Caller) (versions : List Policy) (ph : Phase),
      (∀ p, ph.policy = some p → (s.ghosts i).phase.policy = some p) →
      Forward i own₀ ⟨versions, s.world.enactments i, ph,
        [.policyWritten i caller (s.ghosts i).view] ++ s.log⟩ := fun caller versions ph hph =>
    h.other (by simp [Event.writes]) hph
  cases heff with
  | quiet => exact h
  | looked hp hph =>
    refine ⟨fun p e hpol he => ?_, h.bounded, h.kept⟩
    obtain rfl := Option.some.inj hpol
    rcases hlooked _ rfl with hold | hnow
    · exact hbasis _ e (by rw [Sys.node, hold]; rfl) he
    · exact hread _ e hnow he
  | found hown hph => exact hquiet fun p hp => by rw [hph]; exact hp
  | nothingHeld hheld hp hcount => exact hquiet fun p hp => by cases hp
  | rendered hph =>
    exact h.other (by simp [Event.writes]) fun p hp => by rw [Sys.node, hph]; exact hp
  | unrendered hph => exact hquiet fun p hp => by rw [hph]; exact hp
  | claim hown hask hp hrv hcap => exact hcommit _ _ _ fun p hp => by cases hp
  | release hheld hp hrv hpos => exact hcommit _ _ _ fun p hp => by cases hp
  | audit hp hrv hl hdue hlt => exact hcommit _ _ _ fun p hp => hp
  | update hp hrv hl hnodes hpods => exact hcommit _ _ _ fun p hp => hp
  | reset hp hrv => exact hcommit _ _ _ fun p hp => hp
  | create hown hph =>
    rw [World.setEnactment_self]
    refine ⟨fun p e _ he => ?_, fun e he g hg => ?_, fun ev hev => ?_⟩
    · rw [← Option.some.inj he]
      exact Nat.zero_le _
    · have hzero : g = 0 := by simpa [recorded] using hg
      rw [hzero]
      exact Nat.zero_le _
    · rcases List.mem_cons.mp hev with rfl | hev
      · rfl
      · exact h.kept ev hev
  | delete hph =>
    rw [World.setEnactment_self]
    refine ⟨fun p e _ he => (by cases he), fun e he => (by cases he), fun ev hev => ?_⟩
    rcases List.mem_cons.mp hev with rfl | hev
    · cases s.world.enactments i <;> rfl
    · exact h.kept ev hev
  | firstStatus hown hph =>
    rw [World.setEnactment_self]
    refine h.write hown ?_ fun p _ => ?_
    · exact Nat.le_refl _
    · exact Nat.zero_le _
  | resetGeneration hown hph =>
    rename_i e p
    rw [World.setEnactment_self]
    refine h.write hown (hbasis p e (by rw [Sys.node, hph]; rfl) hown) fun p' hp' => ?_
    rw [← Option.some.inj hp']
    exact Nat.le_refl _
  | fill hown hph hvlan =>
    rename_i e p previous generated desired captured features
    rw [World.setEnactment_self]
    refine h.write hown (hbasis p e (by rw [Sys.node, hph]; rfl) hown) fun p' hp' => ?_
    rw [← Option.some.inj hp']
    exact Nat.le_refl _
  | notice hown hn =>
    rename_i e n t message
    rw [World.setEnactment_self]
    refine h.write hown ?_ fun p hp => ?_
    · exact Nat.le_refl _
    · refine hbasis p e ?_ hown
      cases n <;> first
        | exact hp
        | cases hp
  | interrupted hown hph happ =>
    rename_i e t
    rw [World.setEnactment_self]
    refine h.write hown ?_ fun p hp => ?_
    · exact Nat.le_refl _
    · exact hbasis p e hp hown
  | retryCount hown hph happ =>
    rename_i e
    rw [World.setEnactment_self]
    refine h.write hown ?_ fun p hp => ?_
    · exact Nat.le_refl _
    · exact hbasis p e hp hown
  | applied hown hph happ => exact h.other (by simp [Event.writes]) fun p hp => by cases hp
  | applyFailed hown hph happ => exact h.other (by simp [Event.writes]) fun p hp => by cases hp

end

/-- **Generations never go backwards.**  As long as every `Reconcile` on the node reads a
version of the policy whose generation is at least the one stored in the node's enactment, no
write lowers the stored generation, and every apply uses a desired state rendered from a
generation that is at least each one recorded in the enactment. -/
theorem generations_forward {cfg : Config} {i : NodeName} {s₀ s : Sys} (h₀ : Initial s₀)
    (h : Reach cfg (fun s l => ∀ p e, policyRead i s l = some p → s.world.enactments i = some e →
      e.policyGeneration ≤ p.generation) s₀ s) :
    (∀ ev ∈ s.log, ev.lowers i = false) ∧
      ∀ desired, s.pending i = some (.applyDesiredState desired) →
        ∃ g, RenderedFrom cfg s.world.versions i g s.log desired ∧
          ∀ g' ∈ recorded i (s₀.world.enactments i) s.log, g' ≤ g := by
  have hforward : Forward i (s₀.world.enactments i) (s.node i) := by
    refine h.node_induct h₀.sound ?_ ?_ ?_ ?_
    · refine ⟨fun p e hp he => ?_, fun e he g hg => ?_, fun ev hev => ?_⟩
      · rw [Sys.node, h₀.rests.ghosts i] at hp
        cases hp
      · rw [Sys.node] at hg he
        simp only [h₀.rests.log, recorded] at hg he
        rw [he] at hg
        exact Nat.le_of_eq (List.mem_singleton.mp hg)
      · rw [Sys.node, h₀.rests.log] at hev
        cases hev
    · exact fun v versions evs hv _ hevs =>
        hv.other (fun ev hev => Event.writes_of_node_ne (hevs ev hev)) fun p hp => hp
    · intro v ph hv hph
      refine ⟨fun p e hp he => ?_, hv.bounded, hv.kept⟩
      rcases hph with rfl | rfl <;> cases hp
    · exact fun s a o r w φ evs _ hv hok hx => hv.exec hok hx
  refine ⟨hforward.kept, fun desired hpending => ?_⟩
  obtain ⟨e, hown, rfl, hph, -⟩ := ((h₀.sound.reach h).conforms.permits hpending).of_apply
  have hbacked := NodeView.Backed.reach (i := i) h₀ h
  unfold NodeView.Backed Sys.node at hbacked
  rw [hph] at hbacked
  exact ⟨e.policyGeneration, hbacked e hown, hforward.bounded e hown⟩

/-- The oracle that lets `Reconcile` read the `k`-th newest version of the policy. -/
def staleRead (k : ℕ) : Op → Answer
  | .getPolicy .cached .reconcile => .version k
  | o => granted o

/-- The spec of the small cluster's policy, with another desired state. -/
def editedSpec : PolicySpec := { onePolicy.spec with desiredState := "eth2" }

/-- The policy is edited, the first node becomes Available for the new generation, and it is
reconciled again with the `k`-th newest version of the policy. -/
def reconcileAgain (k : ℕ) : List Act :=
  [.label (.edit editedSpec []), .label (.start "node01"), .work "node01" never granted,
    .label (.finish "node01"), .label (.start "node01"), .work "node01" untilApply (staleRead k)]

/-- The version from before the edit lowers the stored generation and is applied. -/
theorem generation_lowered_by_stale_read :
    ∃ s, Reach twoNodes (fun _ _ => True) freshSys s ∧
      s.log.any (Event.lowers "node01") = true ∧ s.inApply 1 "node01" = true ∧
      2 ∈ recorded "node01" (freshSys.world.enactments "node01") s.log := by
  obtain ⟨s, hs, hP⟩ : ∃ s, Reach twoNodes (fun _ _ => True) freshSys s ∧
      (s.log.any (Event.lowers "node01") && s.inApply 1 "node01" &&
        decide (2 ∈ recorded "node01" (freshSys.world.enactments "node01") s.log)) = true :=
    exists_of_play (fun _ _ (_ : true = true) => trivial) _ (reconcileAgain 6) (by decide +kernel)
  simp only [Bool.and_eq_true, decide_eq_true_eq] at hP
  exact ⟨s, hs, hP.1.1, hP.1.2, hP.2⟩

/-- The condition of `generations_forward`, evaluated. -/
def readsForward (i : NodeName) (s : Sys) (l : Label) : Bool :=
  (policyRead i s l).all fun p =>
    (s.world.enactments i).all fun e => e.policyGeneration ≤ p.generation

theorem of_readsForward {i : NodeName} {s : Sys} {l : Label} (h : readsForward i s l = true)
    (p : Policy) (e : EnactmentStatus) (hp : policyRead i s l = some p)
    (he : s.world.enactments i = some e) : e.policyGeneration ≤ p.generation := by
  simpa [readsForward, hp, he] using h

/-- The first node applies the edited policy. -/
theorem generations_forward_node01 : ∃ s, Reach twoNodes
    (fun s l => ∀ p e, policyRead "node01" s l = some p →
      s.world.enactments "node01" = some e → e.policyGeneration ≤ p.generation) freshSys s ∧
    s.inApply 2 "node01" = true ∧ (∀ ev ∈ s.log, ev.lowers "node01" = false) ∧
      ∀ desired, s.pending "node01" = some (.applyDesiredState desired) →
        ∃ g, RenderedFrom twoNodes s.world.versions "node01" g s.log desired ∧
          ∀ g' ∈ recorded "node01" (freshSys.world.enactments "node01") s.log, g' ≤ g := by
  obtain ⟨s, hs, hP⟩ : ∃ s, Reach twoNodes
      (fun s l => ∀ p e, policyRead "node01" s l = some p →
        s.world.enactments "node01" = some e → e.policyGeneration ≤ p.generation) freshSys s ∧
      s.inApply 2 "node01" = true :=
    exists_of_play (fun _ _ => of_readsForward) _
      [.label (.start "node01"), .work "node01" never granted, .label (.finish "node01"),
        .label (.edit editedSpec []), .label (.start "node01"), .work "node01" untilApply granted]
      (by decide +kernel)
  exact ⟨s, hs, hP, generations_forward (twoNodesSys_initial _) hs⟩
