/-
# Whose slot is it

A node owns a slot of a generation when it has committed an increment of that generation's
counter and has not released it (`ownSlot`).  Nothing stores this; `Reconcile` infers it from
the conditions of its enactment.

* `apply_owns_slot`: a node applies only with a slot of its own, whatever generation it comes
  from, unless it was Retrying for another one when `Reconcile` began;
* `audit_respected`: a node whose slot was given away by another node's audit claims a new one
  before it applies or releases, unless `Reconcile` runs on a stale enactment.
-/
import KubernetesNmstate.Lifecycle
import KubernetesNmstate.Views

/-! ## Owning a slot -/

/-- Node `i` has committed an increment of the counter of `g` that it has not released. -/
def ownSlot (i : NodeName) (g : Generation) : List Event → Bool
  | [] => false
  | .policyWritten node caller _ :: log =>
    if node = i ∧ caller = .increment g then true
    else if node = i ∧ caller.releases g = true then false
    else ownSlot i g log
  | _ :: log => ownSlot i g log

/-- The event claims or releases a slot for node `i`. -/
def Event.countsFor (i : NodeName) : Event → Bool
  | .policyWritten node (.increment _) _ | .policyWritten node (.decrement _ _) _ => node = i
  | _ => false

theorem Event.countsFor_of_node_ne {i : NodeName} {ev : Event} (h : ev.node ≠ i) :
    ev.countsFor i = false := by
  cases ev with
  | policyWritten node caller view =>
    cases caller <;> first
      | exact decide_eq_false h
      | rfl
  | _ => rfl

theorem ownSlot_append {i : NodeName} {g : Generation} {evs log : List Event}
    (h : ∀ ev ∈ evs, Event.countsFor i ev = false) :
    ownSlot i g (evs ++ log) = ownSlot i g log := by
  induction evs with
  | nil => rfl
  | cons ev evs ih =>
    have ih := ih fun ev' hev' => h ev' (List.mem_cons_of_mem _ hev')
    have hev := h ev List.mem_cons_self
    cases ev with
    | policyWritten node caller view =>
      rw [List.cons_append, ownSlot, ih]
      cases caller <;> first
        | (have hnode : node ≠ i := of_decide_eq_false hev
           simp [hnode])
        | simp [Caller.releases]
    | _ => exact ih

theorem ownSlot_increment (i : NodeName) (key g : Generation) (view : View) (log : List Event) :
    ownSlot i g ([.policyWritten i (.increment key) view] ++ log) =
      (decide (key = g) || ownSlot i g log) := by
  by_cases h : key = g <;> simp [ownSlot, Caller.releases, h]

/-! ## No apply without a slot -/

/-- The enactment was progressing for `g` when the log began. -/
def LeftBehind (own₀ : Option EnactmentStatus) (g : Generation) : Prop :=
  ∃ e, own₀ = some e ∧ isProgressing e.conditions = true ∧ e.policyGeneration = g

/-- What the phase of a handler says about its slot and its enactment. -/
def NodeView.Slotted (i : NodeName) (v : NodeView) : Prop :=
  match v.phase with
  | .looked p => ∀ e, v.own = some e → isRetrying e.conditions = true →
      e.policyGeneration = p.generation
  | .initialized p previous | .rendered p previous _ => isRetrying previous = true →
      ∀ e, v.own = some e → e.policyGeneration = p.generation ∧ isProgressing e.conditions = true
  | .filled p previous => ∀ e, v.own = some e → e.policyGeneration = p.generation ∧
      (isRetrying previous = true → isDone e.conditions = false →
        isProgressing e.conditions = true)
  -- where a slot may be released the enactment is not marked for an apply
  | .claimed key | .finalizing key => ownSlot i key v.log = true ∧
      ∀ e, v.own = some e → ¬ Applying e
  | .marked key | .applied key | .applyFailed key => ownSlot i key v.log = true
  | _ => True

/-- The invariant behind `apply_owns_slot`: the phase is right about the slot, and an
unfinished apply is backed by a slot or comes from before. -/
structure Owned (i : NodeName) (own₀ : Option EnactmentStatus) (v : NodeView) : Prop where
  slotted : v.Slotted i
  applying : ∀ e, v.own = some e → Applying e →
    ownSlot i e.policyGeneration v.log = true ∨ LeftBehind own₀ e.policyGeneration

section

variable {cfg : Config} {i : NodeName} {own₀ : Option EnactmentStatus}

/-- Nothing of the node itself changes. -/
theorem NodeView.Slotted.grow {v : NodeView} (h : v.Slotted i) {versions : List Policy}
    {evs : List Event} (hevs : ∀ ev ∈ evs, Event.countsFor i ev = false) :
    NodeView.Slotted i { v with versions := versions, log := evs ++ v.log } := by
  obtain ⟨vs, own, ph, log⟩ := v
  have hslot : ∀ key, ownSlot i key log = true → ownSlot i key (evs ++ log) = true :=
    fun key hkey => by rwa [ownSlot_append hevs]
  cases ph with
  | claimed key => exact ⟨hslot key h.1, h.2⟩
  | finalizing key => exact ⟨hslot key h.1, h.2⟩
  | marked key => exact hslot key h
  | applied key => exact hslot key h
  | applyFailed key => exact hslot key h
  | _ => exact h

theorem Owned.grow {v : NodeView} (h : Owned i own₀ v) {versions : List Policy}
    {evs : List Event} (hevs : ∀ ev ∈ evs, Event.countsFor i ev = false) :
    Owned i own₀ { v with versions := versions, log := evs ++ v.log } where
  slotted := h.slotted.grow hevs
  applying e he happ := by
    rw [ownSlot_append hevs]
    exact h.applying e he happ

/-- A notification that does not mark the enactment as progressing. -/
theorem not_applying_setter {n : Notice} (hn : n.marksProgressing = false) (t : Time)
    (e : EnactmentStatus) (message : String) :
    ¬ Applying { e with conditions := n.setter t e.conditions message } := fun h => by
  have := h.progressing
  rw [Notice.isProgressing_setter, hn] at this
  cases this

theorem not_applying_of_not_progressing {e : EnactmentStatus}
    (h : isProgressing e.conditions = false) : ¬ Applying e := fun happ => by
  have := happ.progressing
  rw [h] at this
  cases this

/-- A write that records the generation `g` leaves an apply unfinished only when the
enactment was at `g` already. -/
theorem applying_reset {e e' : EnactmentStatus} {g : Generation} (happ : Applying e')
    (hc : e'.conditions = (resetPolicyGeneration e g).conditions) :
    e.policyGeneration = g ∧ Applying e := by
  by_cases heq : e.policyGeneration = g
  · rw [conditions_resetPolicyGeneration_of_eq heq] at hc
    exact ⟨heq, ⟨hc ▸ happ.progressing, hc ▸ happ.notFinalizing⟩⟩
  · rw [conditions_resetPolicyGeneration_of_ne heq] at hc
    exact absurd happ (not_applying_of_not_progressing (by rw [hc]; rfl))

/-- A write of the enactment that leaves no unfinished apply, or the one before. -/
theorem Owned.write {versions : List Policy} {e e' : EnactmentStatus} {ph : Phase}
    {log : List Event}
    (happ : Applying e' → ownSlot i e'.policyGeneration log = true ∨
      LeftBehind own₀ e'.policyGeneration)
    (hph : NodeView.Slotted i ⟨versions, some e', ph, log⟩) :
    Owned i own₀ ⟨versions, some e', ph, [.enactmentWritten i (some e) (some e')] ++ log⟩ :=
  Owned.grow ⟨hph, fun e'' he'' => by rw [← Option.some.inj he'']; exact happ⟩
    (by simp [Event.countsFor])

/-- Every notification keeps it, as long as no version the handler may be working on is as old
as an apply left behind. -/
theorem Owned.notice {v : NodeView} (h : Owned i own₀ v) {e : EnactmentStatus} {n : Notice}
    {t : Time} {message : String}
    (hleft : ∀ p, v.phase.policy = some p → ∀ g, LeftBehind own₀ g → g < p.generation)
    (hown : v.own = some e) (hn : n.Allowed cfg v.phase e) :
    Owned i own₀ ⟨v.versions, some { e with conditions := n.setter t e.conditions message },
      n.phaseAfter v.phase e, [.enactmentWritten i (some e)
        (some { e with conditions := n.setter t e.conditions message })] ++ v.log⟩ := by
  have hslotted := h.slotted
  unfold NodeView.Slotted at hslotted
  have hquiet : n.marksProgressing = false →
      Applying { e with conditions := n.setter t e.conditions message } →
      ownSlot i e.policyGeneration v.log = true ∨ LeftBehind own₀ e.policyGeneration :=
    fun hm happ => absurd happ (not_applying_setter hm t e message)
  -- a node that asked for a slot was not retrying when this reconcile began
  have hasked : Asking cfg v.phase e → NodeView.Slotted i ⟨v.versions,
      some { e with conditions := n.setter t e.conditions message }, v.phase,
      v.log⟩ := by
    intro hask
    obtain ⟨p, previous, hph, hretry⟩ := hask.filled
    rw [hph] at hslotted ⊢
    intro e' he'
    rw [← Option.some.inj he']
    exact ⟨(hslotted e hown).1, fun hr => by rw [hretry] at hr; cases hr⟩
  cases n with
  | progressing =>
    have hslot : ownSlot i e.policyGeneration v.log = true := by
      obtain ⟨hstart, hph | ⟨p, previous, hph, hwhy⟩⟩ := hn
      · rw [hph] at hslotted
        exact hslotted.1
      · rw [hph] at hslotted hleft
        obtain ⟨hg, hretry⟩ := hslotted e hown
        have hprog : isProgressing e.conditions = true :=
          hwhy.elim id fun hr => hretry hr hstart.not_done
        rcases h.applying e hown ⟨hprog, hstart.notFinalizing⟩ with hslot | hold
        · exact hslot
        · exact absurd hg (Nat.ne_of_lt (hleft p rfl _ hold))
    exact Owned.write (fun _ => Or.inl hslot) hslot
  | finalizing =>
    rw [hn.1] at hslotted
    have hnot : ¬ Applying
        { e with conditions := Notice.finalizing.setter t e.conditions message } := fun happ => by
      have := happ.notFinalizing
      rw [Notice.isFinalizing_setter] at this
      cases this
    refine Owned.write (fun happ => absurd happ hnot) ⟨hslotted, fun e' he' => ?_⟩
    rw [← Option.some.inj he']
    exact hnot
  | retrying =>
    rw [hn.1] at hslotted
    refine Owned.write (fun _ => Or.inl hslotted) ?_
    show NodeView.Slotted i ⟨_, _, v.phase, _⟩
    rw [hn.1]
    exact hslotted
  | generateFailure =>
    obtain ⟨p, hph⟩ := hn
    refine Owned.write (hquiet rfl) ?_
    show NodeView.Slotted i ⟨_, _, v.phase, _⟩
    rw [hph]
    trivial
  | failedToConfigure =>
    refine Owned.write (hquiet rfl) ?_
    rcases hn with hask | ⟨hph, -⟩
    · exact hasked hask
    · show NodeView.Slotted i ⟨_, _, v.phase, _⟩
      rw [hph] at hslotted ⊢
      exact hslotted
  | pending => exact Owned.write (hquiet rfl) (hasked hn)
  | aborted => exact Owned.write (hquiet rfl) (hasked hn)
  | success =>
    refine Owned.write (hquiet rfl) ?_
    show NodeView.Slotted i ⟨_, _, v.phase, _⟩
    obtain ⟨-, hph | hph | ⟨p, previous, hph⟩⟩ := hn <;> rw [hph] at hslotted ⊢
    · trivial
    · trivial
    · intro e' he'
      rw [← Option.some.inj he']
      refine ⟨(hslotted e hown).1, fun _ hdone => ?_⟩
      rw [isDone_setter] at hdone
      cases hdone
  | interrupted => exact hn.elim

/-- **Every call keeps it**, as long as `Reconcile` does not begin with an enactment that is
Retrying for another generation. -/
theorem Owned.exec {s : Sys} {a : Answer} {o : Op} {r : o.Resp} {w : World} {φ : Ghost}
    {evs : List Event} (hs : Sound cfg s)
    (hleft : ∀ p ∈ s.world.versions, ∀ g, LeftBehind own₀ g → g < p.generation)
    (hread : ∀ p e, policyRead i s (.exec i a) = some p → s.world.enactments i = some e →
      isRetrying e.conditions = true → e.policyGeneration = p.generation)
    (h : Owned i own₀ (s.node i)) (hx : Executes cfg s i a o r w φ evs) :
    Owned i own₀ ⟨w.versions, w.enactments i, φ.phase, evs ++ s.log⟩ := by
  have hbasis := hs.basis i
  have hlooked := fun p => hx.policyRead_eq (p := p)
  have heff := hx.effect
  generalize φ.phase = ph at heff hlooked ⊢
  have hslotted := h.slotted
  unfold NodeView.Slotted Sys.node at hslotted
  have hgrow : ∀ (ph : Phase), NodeView.Slotted i ⟨s.world.versions, s.world.enactments i, ph,
      s.log⟩ → ∀ evs : List Event, (∀ ev ∈ evs, Event.countsFor i ev = false) →
      Owned i own₀ ⟨s.world.versions, s.world.enactments i, ph, evs ++ s.log⟩ :=
    fun ph hph evs hevs => Owned.grow ⟨hph, h.applying⟩ hevs
  cases heff with
  | quiet => exact h
  | looked hp hph =>
    refine ⟨fun e he hretry => ?_, h.applying⟩
    rcases hlooked _ rfl with hold | hnow
    · rw [hold] at hslotted
      exact hslotted e he hretry
    · exact hread _ e hnow he hretry
  | found hown hph =>
    rename_i p e
    rw [hph] at hslotted
    refine ⟨fun hretry e' he' => ?_, h.applying⟩
    obtain rfl : e = e' := Option.some.inj (hown.symm.trans he')
    exact ⟨hslotted e he' hretry, isProgressing_of_isRetrying hretry⟩
  | nothingHeld hheld hp hcount => exact ⟨trivial, h.applying⟩
  | rendered hph =>
    rw [hph] at hslotted
    refine hgrow _ ?_ _ (by simp [Event.countsFor])
    exact hslotted
  | unrendered hph => exact ⟨trivial, h.applying⟩
  | claim hown hask hp hrv hcap =>
    rename_i e p t
    have hnot : ∀ e', s.world.enactments i = some e' → ¬ Applying e' := fun e' he' => by
      rw [hown] at he'
      rw [← Option.some.inj he']
      exact not_applying_of_not_progressing hask.notProgressing
    refine ⟨⟨?_, hnot⟩, fun e' he' happ => absurd happ (hnot e' he')⟩
    show ownSlot i e.policyGeneration
      ([.policyWritten i (.increment e.policyGeneration) (s.ghosts i).view] ++ s.log) = true
    rw [ownSlot_increment, decide_eq_true rfl, Bool.true_or]
  | release hheld hp hrv hpos =>
    refine ⟨trivial, fun e he happ => ?_⟩
    rcases hheld with hph | hph <;> rw [hph] at hslotted <;>
      exact absurd happ (hslotted.2 e he)
  | audit hp hrv hl hdue hlt => exact h.grow (by simp [Event.countsFor])
  | update hp hrv hl hnodes hpods => exact h.grow (by simp [Event.countsFor])
  | reset hp hrv => exact h.grow (by simp [Event.countsFor])
  | create hown hph =>
    rw [World.setEnactment_self, hph]
    have hnone : ∀ e', some ({} : EnactmentStatus) = some e' →
        isProgressing e'.conditions = false := fun e' he' => by
      rw [← Option.some.inj he']
      rfl
    refine ⟨fun e' he' hretry => ?_, fun e' he' happ =>
      absurd happ (not_applying_of_not_progressing (hnone e' he'))⟩
    have := isProgressing_of_isRetrying hretry
    rw [hnone e' he'] at this
    cases this
  | delete hph =>
    rw [World.setEnactment_self, hph]
    exact ⟨fun e he => (by cases he), fun e he => (by cases he)⟩
  | firstStatus hown hph =>
    rename_i p t
    rw [World.setEnactment_self, hph]
    refine Owned.write (fun happ => absurd happ (not_applying_of_not_progressing rfl)) ?_
    intro e' he' hretry
    have := isProgressing_of_isRetrying hretry
    rw [← Option.some.inj he', isProgressing_newEnactmentStatus] at this
    cases this
  | resetGeneration hown hph =>
    rename_i e p
    rw [World.setEnactment_self]
    refine Owned.write (fun happ => ?_) trivial
    obtain ⟨hg, happ⟩ := applying_reset happ rfl
    exact hg ▸ h.applying e hown happ
  | fill hown hph hvlan =>
    rename_i e p previous generated desired captured features
    rw [hph] at hslotted
    rw [World.setEnactment_self]
    refine Owned.write (fun happ => ?_) ?_
    · obtain ⟨hg, happ⟩ := applying_reset (g := p.generation) happ rfl
      exact hg ▸ h.applying e hown happ
    · intro e' he'
      obtain rfl := Option.some.inj he'
      refine ⟨rfl, fun hretry _ => ?_⟩
      obtain ⟨hg, hprog⟩ := hslotted hretry e hown
      rw [filledStatus, conditions_resetPolicyGeneration_of_eq hg]
      exact hprog
  | notice hown hn =>
    rw [World.setEnactment_self]
    refine h.notice (fun p hp g hg => ?_) hown hn
    obtain ⟨v, hv, hpv⟩ := hbasis p hp
    exact hpv.generation_eq ▸ hleft v hv g hg
  | interrupted hown hph happ =>
    rw [World.setEnactment_self, hph]
    refine Owned.write (fun happ' => ?_) trivial
    exact absurd happ' (not_applying_of_not_progressing
      (by rw [interruptedStatus, Notice.isProgressing_setter]; rfl))
  | retryCount hown hph happ =>
    rename_i e
    rw [World.setEnactment_self]
    rw [hph] at hslotted ⊢
    exact Owned.write (fun _ => Or.inl hslotted) hslotted
  | applied hown hph happ =>
    rw [hph] at hslotted
    refine hgrow _ ?_ _ (by simp [Event.countsFor])
    exact hslotted
  | applyFailed hown hph happ =>
    rw [hph] at hslotted
    refine hgrow _ ?_ _ (by simp [Event.countsFor])
    exact hslotted

end

/-- An enactment that was progressing when the run began is behind every version of the
policy, as it is at the start. -/
theorem Reach.leftBehind_lt {cfg : Config} {ok : Sys → Label → Prop} {s₀ s : Sys}
    {own₀ : Option EnactmentStatus} (h : Reach cfg ok s₀ s) (h₀ : Initial s₀)
    (hleft : ∀ p ∈ s₀.world.versions, ∀ g, LeftBehind own₀ g → g < p.generation) :
    ∀ p ∈ s.world.versions, ∀ g, LeftBehind own₀ g → g < p.generation := by
  induction h with
  | refl => exact hleft
  | next hreach hl hs ih =>
  rename_i s s' l
  intro p hp
  rcases (h₀.sound.reach hreach).versions_next hs hp with hp | ⟨hge, -⟩
  · exact ih p hp
  · exact fun g hg => Nat.lt_of_lt_of_le (ih _ List.mem_cons_self g hg) hge

/-- **No apply without a slot.**  The enactment may come from an earlier generation in any
phase, and the policy may be edited at any time.  As long as `Reconcile` never reads a version
of the policy while the node's enactment is Retrying for another generation, a node inside the
apply for `g` owns a slot of `g`. -/
theorem apply_owns_slot {cfg : Config} {i : NodeName} {s₀ s : Sys} (h₀ : Initial s₀)
    (hleft : ∀ e, s₀.world.enactments i = some e → isProgressing e.conditions = true →
      ∀ p ∈ s₀.world.versions, e.policyGeneration < p.generation)
    (h : Reach cfg (fun s l => ∀ p e, policyRead i s l = some p → s.world.enactments i = some e →
      isRetrying e.conditions = true → e.policyGeneration = p.generation) s₀ s)
    {g : Generation} (ha : s.inApply g i = true) : ownSlot i g s.log = true := by
  have hleft' : ∀ p ∈ s₀.world.versions, ∀ g, LeftBehind (s₀.world.enactments i) g →
      g < p.generation := by
    rintro p hp g ⟨e, he, hprog, rfl⟩
    exact hleft e he hprog p hp
  have howned : Owned i (s₀.world.enactments i) (s.node i) := by
    have hbehind := h.with_invariant fun s hs => hs.leftBehind_lt h₀ hleft'
    refine hbehind.node_induct h₀.sound ?_ ?_ ?_ ?_
    · refine ⟨?_, fun e he happ => Or.inr ⟨e, he, happ.progressing, rfl⟩⟩
      unfold NodeView.Slotted Sys.node
      rw [h₀.rests.ghosts i]
      trivial
    · exact fun v versions evs hv _ hevs =>
        hv.grow fun ev hev => Event.countsFor_of_node_ne (hevs ev hev)
    · intro v ph hv hph
      rcases hph with rfl | rfl <;> exact ⟨trivial, hv.applying⟩
    · exact fun s a o r w φ evs hs hv hok hx => hv.exec hs hok.2 hok.1 hx
  obtain ⟨e, hown, hg, hph, happ⟩ := (h₀.sound.reach h).conforms.marked_of_inApply ha
  have hslotted := howned.slotted
  unfold NodeView.Slotted Sys.node at hslotted
  rw [hph] at hslotted
  exact hslotted

/-- The first node is Retrying when the policy is edited; its next reconcile applies the new
generation on the slot of the old one. -/
theorem applied_without_slot : ∃ s, Reach twoNodes (fun _ l => l.disturbs = false) freshSys s ∧
    s.inApply 2 "node01" = true ∧ ownSlot "node01" 2 s.log = false := by
  obtain ⟨s, hs, hP⟩ : ∃ s, Reach twoNodes (fun _ l => l.disturbs = false) freshSys s ∧
      (s.inApply 2 "node01" && !ownSlot "node01" 2 s.log) = true :=
    exists_of_play (fun _ l (h : (!l.disturbs) = true) => by simpa using h) _
      [.label (.start "node01"), .work "node01" never applyDenied, .label (.finish "node01"),
        .label (.edit editedSpec []), .label (.start "node01"), .work "node01" untilApply granted]
      (by decide +kernel)
  rw [Bool.and_eq_true, Bool.not_eq_true'] at hP
  exact ⟨s, hs, hP⟩

/-- The condition of `apply_owns_slot`, evaluated. -/
def readsSettled (i : NodeName) (s : Sys) (l : Label) : Bool :=
  (policyRead i s l).all fun p => (s.world.enactments i).all fun e =>
    !isRetrying e.conditions || e.policyGeneration == p.generation

theorem of_readsSettled {i : NodeName} {s : Sys} {l : Label} (h : readsSettled i s l = true)
    (p : Policy) (e : EnactmentStatus) (hp : policyRead i s l = some p)
    (he : s.world.enactments i = some e) (hr : isRetrying e.conditions = true) :
    e.policyGeneration = p.generation := by
  simpa [readsSettled, hp, he, hr] using h

/-- The first node applies the edited policy, after it was Available for the one before. -/
theorem apply_owns_slot_node01 : ∃ s, Reach twoNodes
    (fun s l => ∀ p e, policyRead "node01" s l = some p → s.world.enactments "node01" = some e →
      isRetrying e.conditions = true → e.policyGeneration = p.generation) freshSys s ∧
    s.inApply 2 "node01" = true ∧ ownSlot "node01" 2 s.log = true := by
  obtain ⟨s, hs, hP⟩ : ∃ s, Reach twoNodes
      (fun s l => ∀ p e, policyRead "node01" s l = some p → s.world.enactments "node01" = some e →
        isRetrying e.conditions = true → e.policyGeneration = p.generation) freshSys s ∧
      s.inApply 2 "node01" = true :=
    exists_of_play (fun _ _ => of_readsSettled) _
      [.label (.start "node01"), .work "node01" never granted, .label (.finish "node01"),
        .label (.edit editedSpec []), .label (.start "node01"), .work "node01" untilApply granted]
      (by decide +kernel)
  refine ⟨s, hs, hP, apply_owns_slot (twoNodesSys_initial _) (fun e he hprog => ?_) hs hP⟩
  cases he
  cases hprog

/-! ## Reconcile and audit agree -/

/-- The listing shows the enactment of node `i` progressing for `g` with a heartbeat that is
too old to be counted. -/
def Listing.showsStale (cfg : Config) (i : NodeName) (g : Generation) (l : Listing) : Bool :=
  l.enactments.any fun e => e.node = i ∧ e.status.policyGeneration = g ∧
    isProgressing e.status.conditions = true ∧
    isLiveHolder e.status.conditions l.time cfg.staleThreshold = false

/-- The event is a repair by the audit of another node that took node `i` for dead. -/
def Event.disowns (cfg : Config) (i : NodeName) (g : Generation) : Event → Bool
  | .policyWritten node .audit view =>
    node ≠ i ∧ view.listing.any (Listing.showsStale cfg i g) = true
  | _ => false

/-- The event is a claim of a slot of `g` by node `i`. -/
def Event.claims (i : NodeName) (g : Generation) : Event → Bool
  | .policyWritten node (.increment key) _ => node = i ∧ key = g
  | _ => false

/-- The event is a release of a slot of `g` by node `i`. -/
def Event.releases (i : NodeName) (g : Generation) : Event → Bool
  | .policyWritten node (.decrement _ key) _ => node = i ∧ key = g
  | _ => false

/-- Another node's audit has given the slot of node `i` away, and the node has not claimed one
since. -/
def owed (cfg : Config) (i : NodeName) (g : Generation) : List Event → Bool
  | [] => false
  | ev :: log => !ev.claims i g && (ev.disowns cfg i g || owed cfg i g log)

/-- Node `i` has released a slot while it owed one. -/
def releasedOwed (cfg : Config) (i : NodeName) (g : Generation) : List Event → Bool
  | [] => false
  | ev :: log => ev.releases i g && owed cfg i g log || releasedOwed cfg i g log

/-- No `Reconcile` of node `i` is in progress while its enactment is progressing for `g` with
a stale heartbeat. -/
def heartbeatFresh (cfg : Config) (i : NodeName) (g : Generation) (s : Sys) : Bool :=
  !s.reconciling i || (s.world.enactments i).all fun e =>
    !(e.policyGeneration == g && isProgressing e.conditions) ||
      isLiveHolder e.conditions s.world.clock cfg.staleThreshold

/-- The handler holds no slot and will not take itself for holding one. -/
def NodeView.Slotless (v : NodeView) : Prop :=
  match v.phase with
  | .claimed _ | .marked _ | .applied _ | .applyFailed _ | .finalizing _ => False
  | .initialized _ previous | .rendered _ previous _ => isRetrying previous = false
  | .filled p previous => isRetrying previous = false ∧
      ∀ e, v.own = some e → e.policyGeneration = p.generation
  | _ => True

/-- Node `i` holds no slot of `g`; at most its stale enactment says otherwise. -/
structure Disowned (cfg : Config) (i : NodeName) (g : Generation) (s : Sys) : Prop where
  stale : ∀ e, s.world.enactments i = some e → isProgressing e.conditions = true →
    e.policyGeneration = g ∧
      isLiveHolder e.conditions s.world.clock cfg.staleThreshold = false
  slotless : (s.node i).Slotless

section

variable {cfg : Config} {i : NodeName} {g : Generation}

/-- The own enactment keeps its generation. -/
theorem NodeView.Slotless.rewrite {v : NodeView} (h : v.Slotless) {versions : List Policy}
    {own : Option EnactmentStatus} {log : List Event}
    (hown : ∀ e', own = some e' → ∃ e, v.own = some e ∧ e'.policyGeneration = e.policyGeneration) :
    NodeView.Slotless ⟨versions, own, v.phase, log⟩ := by
  obtain ⟨vs, o, ph, lg⟩ := v
  cases ph with
  | filled p previous =>
    refine ⟨h.1, fun e' he' => ?_⟩
    obtain ⟨e, he, hg⟩ := hown e' he'
    exact hg.trans (h.2 e he)
  | _ => exact h

/-- What a call of the node's own handler does to `Disowned`: nothing, or it claims a slot. -/
theorem Disowned.exec {s : Sys} {a : Answer} {o : Op} {r : o.Resp} {w : World} {φ : Ghost}
    {evs : List Event} (hs : Sound cfg s) (hgen : ∀ p ∈ s.world.versions, p.generation = g)
    (h : Disowned cfg i g s)
    (hfresh : (s.ghosts i).phase = .reclaiming ∨
      ∀ e, s.world.enactments i = some e → isProgressing e.conditions = false)
    (hx : Executes cfg s i a o r w φ evs) :
    ((∀ e, w.enactments i = some e → isProgressing e.conditions = true →
        e.policyGeneration = g ∧ isLiveHolder e.conditions w.clock cfg.staleThreshold = false) ∧
      NodeView.Slotless ⟨w.versions, w.enactments i, φ.phase, evs ++ s.log⟩) ∨
    (∃ view, evs = [.policyWritten i (.increment g) view]) ∧
      s.world.policy.resourceVersion < w.policy.resourceVersion := by
  have hbasis := hs.basis i
  have heff := hx.effect
  generalize φ.phase = ph at heff ⊢
  have hslotless := h.slotless
  unfold NodeView.Slotless Sys.node at hslotless
  have hidle : (s.ghosts i).phase ≠ .reclaiming →
      ∀ e, s.world.enactments i = some e → isProgressing e.conditions = false :=
    hfresh.resolve_left
  -- an enactment that is not progressing, in a phase that says nothing
  have hwrite : ∀ {e' : EnactmentStatus} {versions : List Policy} {ph : Phase} {log : List Event},
      isProgressing e'.conditions = false → NodeView.Slotless ⟨versions, some e', ph, log⟩ →
      (∀ e, some e' = some e → isProgressing e.conditions = true → e.policyGeneration = g ∧
        isLiveHolder e.conditions s.world.clock cfg.staleThreshold = false) ∧
      NodeView.Slotless ⟨versions, some e', ph, log⟩ := by
    refine fun hnot hph => ⟨fun e he hprog => ?_, hph⟩
    rw [← Option.some.inj he, hnot] at hprog
    cases hprog
  have hreset : ∀ (e : EnactmentStatus) (g : Generation), isProgressing e.conditions = false →
      isProgressing (resetPolicyGeneration e g).conditions = false := by
    intro e g hnot
    by_cases heq : e.policyGeneration = g
    · rw [conditions_resetPolicyGeneration_of_eq heq]
      exact hnot
    · rw [conditions_resetPolicyGeneration_of_ne heq]
      rfl
  cases heff with
  | quiet => exact Or.inl ⟨h.stale, h.slotless⟩
  | looked hp hph => exact Or.inl ⟨h.stale, trivial⟩
  | found hown hph =>
    rename_i p e
    refine Or.inl ⟨h.stale, Bool.eq_false_iff.mpr fun hretry => ?_⟩
    have hnot := hidle (by rw [hph]; nofun) e hown
    rw [isProgressing_of_isRetrying hretry] at hnot
    cases hnot
  | nothingHeld hheld hp hcount => exact Or.inl ⟨h.stale, trivial⟩
  | rendered hph =>
    rw [hph] at hslotless
    exact Or.inl ⟨h.stale, hslotless⟩
  | unrendered hph => exact Or.inl ⟨h.stale, trivial⟩
  | claim hown hask hp hrv hcap =>
    rename_i e q t
    obtain ⟨p, previous, hph, -⟩ := hask.filled
    rw [hph] at hslotless hbasis
    have hg : e.policyGeneration = g :=
      (hslotless.2 e hown).trans ((hbasis p rfl).generation_eq hgen)
    exact Or.inr ⟨⟨_, by rw [hg]⟩, Nat.lt_succ_self _⟩
  | release hheld hp hrv hpos =>
    rcases hheld with hph | hph <;> rw [hph] at hslotless <;> cases hslotless
  | audit hp hrv hl hdue hlt => exact Or.inl ⟨h.stale, h.slotless.rewrite fun e he => ⟨e, he, rfl⟩⟩
  | update hp hrv hl hnodes hpods =>
    exact Or.inl ⟨h.stale, h.slotless.rewrite fun e he => ⟨e, he, rfl⟩⟩
  | reset hp hrv => exact Or.inl ⟨h.stale, h.slotless.rewrite fun e he => ⟨e, he, rfl⟩⟩
  | create hown hph =>
    rw [World.setEnactment_self, hph]
    exact Or.inl (hwrite rfl trivial)
  | delete hph =>
    rw [World.setEnactment_self, hph]
    exact Or.inl ⟨fun e he => (by cases he), trivial⟩
  | firstStatus hown hph =>
    rw [World.setEnactment_self, hph]
    exact Or.inl (hwrite rfl trivial)
  | resetGeneration hown hph =>
    rw [World.setEnactment_self]
    exact Or.inl (hwrite (hreset _ _ (hidle (by rw [hph]; nofun) _ hown)) trivial)
  | fill hown hph hvlan =>
    rw [hph] at hslotless
    rw [World.setEnactment_self]
    refine Or.inl (hwrite (hreset _ _ (hidle (by rw [hph]; nofun) _ hown)) ⟨hslotless, ?_⟩)
    intro e' he'
    rw [← Option.some.inj he']
    rfl
  | notice hown hn =>
    rename_i e n t message
    rw [World.setEnactment_self]
    cases n with
    | progressing =>
      obtain ⟨-, hph | ⟨p, previous, hph, hprog | hretry⟩⟩ := hn
      · rw [hph] at hslotless
        cases hslotless
      · rw [hidle (by rw [hph]; nofun) e hown] at hprog
        cases hprog
      · rw [hph] at hslotless
        rw [hslotless.1] at hretry
        cases hretry
    | finalizing =>
      rw [hn.1] at hslotless
      cases hslotless
    | retrying =>
      rw [hn.1] at hslotless
      cases hslotless
    | interrupted => exact hn.elim
    | _ =>
      refine Or.inl (hwrite (by rw [Notice.isProgressing_setter]; rfl) ?_)
      exact h.slotless.rewrite fun e' he' => ⟨e, hown, by rw [← Option.some.inj he']⟩
  | interrupted hown hph happ =>
    rw [World.setEnactment_self, hph]
    exact Or.inl (hwrite (by rw [interruptedStatus, Notice.isProgressing_setter]; rfl) trivial)
  | retryCount hown hph happ =>
    rw [hph] at hslotless
    cases hslotless
  | applied hown hph happ =>
    rw [hph] at hslotless
    cases hslotless
  | applyFailed hown hph happ =>
    rw [hph] at hslotless
    cases hslotless

/-- **A disowned node stays so** until it claims a slot, as long as no `Reconcile` of it is in
progress while its enactment is stale. -/
theorem Disowned.moves {s s' : Sys} {l : Label} (hs : Sound cfg s)
    (hgen : ∀ p ∈ s.world.versions, p.generation = g) (hfresh : heartbeatFresh cfg i g s = true)
    (hm : Moves cfg s l s') (h : Disowned cfg i g s) :
    Disowned cfg i g s' ∨ (∃ view, s'.log = .policyWritten i (.increment g) view :: s.log) ∧
      s.world.policy.resourceVersion < s'.world.policy.resourceVersion := by
  have hphase : ∀ {v : NodeView} {ph : Phase}, ph = .idle ∨ ph = .reclaiming →
      NodeView.Slotless { v with phase := ph } := by
    rintro v ph (rfl | rfl) <;> trivial
  -- a handler that begins or stops
  have hghost : ∀ (j : NodeName) (φ : Ghost) (handlers : NodeName → Handler)
      (memory : NodeName → Memory), φ.phase = .idle ∨ φ.phase = .reclaiming →
      Disowned cfg i g ⟨s.world, handlers, Function.update s.ghosts j φ, s.log, memory⟩ := by
    intro j φ handlers memory hφ
    refine ⟨h.stale, ?_⟩
    by_cases hj : i = j
    · subst hj
      simpa [Sys.node] using hphase (v := s.node i) hφ
    · simpa [Sys.node, Function.update_of_ne hj] using h.slotless
  cases hm with
  | tick seconds =>
    refine Or.inl
      ⟨fun e he hprog => ⟨(h.stale e he hprog).1, Bool.eq_false_iff.mpr fun hlive => ?_⟩,
        h.slotless⟩
    have hnow := isLiveHolder_antitone (Nat.le_add_right _ _) hlive
    rw [(h.stale e he hprog).2] at hnow
    cases hnow
  | edit spec conditions => exact Or.inl ⟨h.stale, h.slotless.rewrite fun e he => ⟨e, he, rfl⟩⟩
  | cluster nodes pods => exact Or.inl ⟨h.stale, h.slotless⟩
  | start hi hidle => exact Or.inl (hghost _ _ _ _ (Or.inl rfl))
  | restart hi hdown => exact Or.inl (hghost _ _ _ _ (Or.inr rfl))
  | finish hrun hsettled => exact Or.inl (hghost _ _ _ _ (Or.inl rfl))
  | crash j => exact Or.inl (hghost _ _ _ _ (Or.inl rfl))
  | exec hrun hi hx =>
    rename_i j a job o k r w φ evs
    by_cases hj : i = j
    · subst hj
      -- the handler is in the reclaim, or `Reconcile` runs and the enactment is not stale
      have hrest : (s.ghosts i).phase = .reclaiming ∨
          ∀ e, s.world.enactments i = some e → isProgressing e.conditions = false := by
        cases job with
        | reclaim => exact Or.inl (hs.conforms.reclaiming i _ hrun)
        | reconcile =>
          refine Or.inr fun e he => Bool.eq_false_iff.mpr fun hprog => ?_
          obtain ⟨hg, hstale⟩ := h.stale e he hprog
          simp [heartbeatFresh, Sys.reconciling, hrun, he, hg, hprog, hstale] at hfresh
      rcases h.exec hs hgen hrest hx with ⟨hstale, hslotless⟩ | ⟨⟨view, rfl⟩, hrv⟩
      · exact Or.inl ⟨hstale, by simpa [Sys.node] using hslotless⟩
      · exact Or.inr ⟨⟨view, rfl⟩, hrv⟩
    · have hown : w.enactments i = s.world.enactments i := by
        rw [hx.after]
        exact World.after_enactments_of_ne _ hj o r
      refine Or.inl ⟨fun e he => ?_, ?_⟩
      · rw [hown] at he
        rw [hx.effect.clock]
        exact h.stale e he
      · have hsame : NodeView.Slotless ⟨w.versions, s.world.enactments i, (s.ghosts i).phase,
            evs ++ s.log⟩ := h.slotless.rewrite fun e he => ⟨e, he, rfl⟩
        simpa [Sys.node, Function.update_of_ne hj, hown] using hsame

/-- What the listing shows when it is taken: without a `Reconcile` in progress the node holds
no slot. -/
theorem Disowned.of_listing {s : Sys} {due : Bool} (hs : Sound cfg s)
    (hfresh : heartbeatFresh cfg i g s = true)
    (h : Listing.showsStale cfg i g ⟨s.world.listing cfg, s.world.clock, due⟩ = true) :
    Disowned cfg i g s := by
  simp only [Listing.showsStale, List.any_eq_true, decide_eq_true_eq] at h
  obtain ⟨⟨node, e⟩, hmem, rfl, hg, hprog, hstale⟩ := h
  have hown : s.world.enactments node = some e := (World.mem_listing.mp hmem).2
  refine ⟨fun e' he' _ => ?_, ?_⟩
  · obtain rfl : e = e' := Option.some.inj (hown.symm.trans he')
    exact ⟨hg, hstale⟩
  · have hrest : s.reconciling node = false := Bool.eq_false_iff.mpr fun hrec => by
      simp [heartbeatFresh, hrec, hown, hprog, hstale] at hfresh
      exact hfresh hg
    unfold NodeView.Slotless Sys.node
    rcases hs.conforms.phase_of_not_reconciling hrest with hph | hph <;> rw [hph] <;> trivial

/-- A node that owes a slot holds none. -/
theorem Disowned.not_held {s : Sys} (h : Disowned cfg i g s) {key : Generation} :
    ¬ Held key (s.ghosts i) := by
  intro hheld
  have hslotless := h.slotless
  unfold NodeView.Slotless Sys.node at hslotless
  rcases hheld with hph | hph <;> rw [hph] at hslotless <;> exact hslotless

theorem Disowned.not_inApply {s : Sys} (hs : Sound cfg s) (h : Disowned cfg i g s) :
    s.inApply g i = false := by
  refine Bool.eq_false_iff.mpr fun hin => ?_
  obtain ⟨e, -, -, hph, -⟩ := hs.conforms.marked_of_inApply hin
  have hslotless := h.slotless
  unfold NodeView.Slotless Sys.node at hslotless
  rw [hph] at hslotless
  exact hslotless

end

/-- A disowning event comes from an audit that acts on a listing and is still up to date. -/
theorem Effect.disowns {cfg : Config} {i j : NodeName} {g : Generation} {w w' : World} {φ : Ghost}
    {ph : Phase} {ev : Event} (h : Effect cfg j w φ w' ph [ev])
    (hev : ev.disowns cfg i g = true) :
    ∃ p l, φ.view.policy = some p ∧ p.resourceVersion = w.policy.resourceVersion ∧
      φ.view.listing = some l ∧ l.showsStale cfg i g = true := by
  cases h with
  | audit hp hrv hl hdue hlt =>
    refine ⟨_, _, hp, hrv, hl, ?_⟩
    have := (of_decide_eq_true hev).2
    rwa [hl] at this
  | _ => cases hev

/-- A release comes from a handler that holds the slot. -/
theorem Effect.releases {cfg : Config} {i j : NodeName} {g : Generation} {w w' : World} {φ : Ghost}
    {ph : Phase} {ev : Event} (h : Effect cfg j w φ w' ph [ev]) (hev : ev.releases i g = true) :
    j = i ∧ Held g φ := by
  cases h with
  | release hheld hp hrv hpos =>
    obtain ⟨rfl, rfl⟩ := of_decide_eq_true hev
    exact ⟨rfl, hheld⟩
  | _ => cases hev

/-- **Reconcile respects the audit.**  The generation is `g` throughout.  As long as no
`Reconcile` of the node is in progress while its enactment is progressing for `g` with a stale
heartbeat, a node whose slot was given away by another node's audit claims a slot before it
applies or releases. -/
theorem audit_respected {cfg : Config} {i : NodeName} {g : Generation} {s₀ s : Sys}
    (h₀ : Initial s₀) (hg : ∀ p ∈ s₀.world.versions, p.generation = g)
    (h : Reach cfg (fun s l => l.edits = false ∧ heartbeatFresh cfg i g s = true) s₀ s) :
    releasedOwed cfg i g s.log = false ∧ (owed cfg i g s.log = true → s.inApply g i = false) := by
  have hmoves : ∀ s s' l, Reach cfg (fun s l => l.edits = false ∧ heartbeatFresh cfg i g s = true)
      s₀ s → Sound cfg s → (l.edits = false ∧ heartbeatFresh cfg i g s = true) →
      Moves cfg s l s' → Disowned cfg i g s → Disowned cfg i g s' ∨
        (∃ view, s'.log = .policyWritten i (.increment g) view :: s.log) ∧
          s.world.policy.resourceVersion < s'.world.policy.resourceVersion :=
    fun s s' l hreach hs hok hm hd =>
      hd.moves hs (hreach.generation_eq h₀ (fun _ _ hok => hok.1) hg) hok.2 hm
  have hinv : (owed cfg i g s.log = true → Disowned cfg i g s) ∧
      releasedOwed cfg i g s.log = false := by
    refine h.moves_induct h₀ (I := fun s => (owed cfg i g s.log = true → Disowned cfg i g s) ∧
      releasedOwed cfg i g s.log = false) ?_ ?_
    · rw [h₀.rests.log]
      exact ⟨nofun, rfl⟩
    · intro s s' l hreach hs hok hm ⟨ih, ihrel⟩
      -- whoever owes after the step was disowned before it, and claiming settles the debt
      have hstep : (owed cfg i g s'.log = true → Disowned cfg i g s) →
          owed cfg i g s'.log = true → Disowned cfg i g s' := by
        intro hbefore howed
        rcases hmoves s s' l hreach hs hok hm (hbefore howed) with hd | ⟨⟨view, hlog⟩, -⟩
        · exact hd
        · rw [hlog] at howed
          simp [owed, Event.claims] at howed
      cases hm with
      | exec hrun hi hx =>
        rename_i j a job o k r w φ evs
        rcases hx.effect.events_cases with rfl | ⟨ev, rfl⟩
        · exact ⟨hstep ih, ihrel⟩
        refine ⟨hstep fun howed => ?_, ?_⟩
        · simp only [List.cons_append, List.nil_append, owed, Bool.and_eq_true, Bool.or_eq_true]
            at howed
          rcases howed.2 with hev | hold
          · obtain ⟨p, l, hp, hrv, hl, hshows⟩ := hx.effect.disowns hev
            exact hreach.listing_valid (D := Disowned cfg i g)
              (F := fun _ l => l.showsStale cfg i g = true) h₀
              (fun s l _ due hreach hok _ _ => Disowned.of_listing (h₀.sound.reach hreach) hok.2)
              (fun s s' l hreach hs hok hm hd hsame =>
                (hmoves s s' l hreach hs hok hm hd).resolve_right fun hclaim => by
                  rw [hsame] at hclaim
                  exact Nat.lt_irrefl _ hclaim.2)
              j p l hp hl hrv hshows
          · exact ih hold
        · simp only [List.cons_append, List.nil_append, releasedOwed, ihrel, Bool.or_false,
            Bool.and_eq_false_iff]
          refine Classical.or_iff_not_imp_left.mpr fun hrel => Bool.eq_false_iff.mpr fun howed => ?_
          obtain ⟨rfl, hheld⟩ := hx.effect.releases (Bool.not_eq_false _ ▸ hrel)
          exact (ih howed).not_held hheld
      | _ => exact ⟨hstep ih, ihrel⟩
  exact ⟨hinv.2, fun howed => (hinv.1 howed).not_inApply (h₀.sound.reach h)⟩

/-- The oracle that grants every call except the list of the startup reclaim. -/
def reclaimDenied : Op → Answer
  | .listOwnEnactments => .fail (.other "timed out")
  | o => granted o

/-- The first node crashes inside its apply and stays away until its heartbeat is stale; the
second node's audit gives the slot away, and the second node begins to apply. -/
def outage : List Act :=
  [.label (.start "node01"), .work "node01" untilApply granted, .label (.crash "node01"),
    .label (.tick 100000), .label (.start "node02"), .work "node02" untilApply granted]

/-- The first node comes back, its startup reclaim fails, and `Reconcile` runs. -/
def returnUnreclaimed : List Act :=
  [.label (.restart "node01"), .work "node01" never reclaimDenied, .label (.finish "node01"),
    .label (.start "node01"), .work "node01" untilApply granted]

/-- The first node applies on the slot that the audit gave away. -/
theorem applied_while_owing : ∃ s, Reach twoNodes (fun _ l => l.edits = false) freshSys s ∧
    owed twoNodes "node01" 1 s.log = true ∧ s.inApply 1 "node01" = true := by
  obtain ⟨s, hs, hP⟩ : ∃ s, Reach twoNodes (fun _ l => l.edits = false) freshSys s ∧
      (owed twoNodes "node01" 1 s.log && s.inApply 1 "node01") = true :=
    exists_of_play (fun _ l (h : (!l.edits) = true) => by simpa using h) _
      (outage ++ returnUnreclaimed) (by decide +kernel)
  rw [Bool.and_eq_true] at hP
  exact ⟨s, hs, hP⟩

/-- The first node comes back and its startup reclaim takes back its claim to the slot. -/
theorem audit_respected_node01 : ∃ s, Reach twoNodes
    (fun s l => l.edits = false ∧ heartbeatFresh twoNodes "node01" 1 s = true) freshSys s ∧
    owed twoNodes "node01" 1 s.log = true ∧ releasedOwed twoNodes "node01" 1 s.log = false ∧
    s.inApply 1 "node01" = false := by
  obtain ⟨s, hs, hP⟩ : ∃ s, Reach twoNodes
      (fun s l => l.edits = false ∧ heartbeatFresh twoNodes "node01" 1 s = true) freshSys s ∧
      owed twoNodes "node01" 1 s.log = true :=
    exists_of_play (fun s l (h : (!l.edits && heartbeatFresh twoNodes "node01" 1 s) = true) => by
      simpa using h) _
      (outage ++ [.label (.restart "node01"), .work "node01" never granted,
        .label (.finish "node01"), .label (.start "node01"), .work "node01" never granted])
      (by decide +kernel)
  obtain ⟨hrel, hin⟩ := audit_respected (twoNodesSys_initial _)
    (fun p hp => by rw [List.mem_singleton.mp hp]; rfl) hs
  exact ⟨s, hs, hP, hrel, hin hP⟩
