/-
# Slots are conserved

Runs without faults: no handler crashes, the policy is read as it is, and the API server refuses
nothing that matters.  The external tools may fail at any time, and reconciles are triggered at
will.

`slots_conserved`: the counter of the generation is the number of nodes that own a slot, no node
claims a second one, and the counter is zero when every node is Available.  The conditions of
an enactment must not lose track of a slot on the way: `GenerateState` must not fail in the
middle of an apply, no claim may stay unshown beyond the grace window, no unfinished apply may
go stale, and the nodes must be Ready.

The invariant is `Conserved`: what the log says about each node, what its enactment and handler
say, and the counter all agree.
-/
import KubernetesNmstate.MaxUnavailable

/-! ## Conditions on runs -/

/-- Node `i` has claimed a slot of `g` while it owned one. -/
def claimedTwice (i : NodeName) (g : Generation) : List Event → Bool
  | [] => false
  | ev :: log => ev.claims i g && ownSlot i g log || claimedTwice i g log

/-- No handler crashes or comes back from a crash, and the policy is read as it is: the cached one
is the newest one, and no counters of an earlier attempt are in the way.  A procedure that was
refused a call since it began does not end with a slot in its hands. -/
def Label.faultFree (g : Generation) (s : Sys) : Label → Bool
  | .crash _ | .restart _ => false
  | .exec _ (.version k) => k = 0
  | .exec _ (.kept _) => false
  | .finish i => !((s.ghosts i).fault && (s.ghosts i).phase.reserves g)
  | _ => true

/-- Every enactment that is progressing for `g` has a live heartbeat. -/
def neverStale (cfg : Config) (g : Generation) (s : Sys) : Bool :=
  cfg.nodeNames.all fun i => (s.world.enactments i).all fun e =>
    !(e.policyGeneration == g && isProgressing e.conditions) ||
      isLiveHolder e.conditions s.world.clock cfg.staleThreshold

/-- `GenerateState` does not fail on a node whose enactment is progressing for `g`. -/
def rendersApplied (cfg : Config) (g : Generation) (s : Sys) (l : Label) : Bool :=
  cfg.nodeNames.all fun i => !generateFails i s l || (s.world.enactments i).all fun e =>
    !(e.policyGeneration == g && isProgressing e.conditions)

/-- No enactment loses track of a slot. -/
def tracked (cfg : Config) (g : Generation) (s : Sys) (l : Label) : Bool :=
  rendersApplied cfg g s l && graced cfg g s && neverStale cfg g s && allReady cfg s

section

variable {cfg : Config} {g : Generation} {s s' : Sys} {l : Label} {i : NodeName}

theorem allFresh_of_neverStale (h : neverStale cfg g s = true) : allFresh cfg g s = true := by
  refine List.all_eq_true.mpr fun i hi => ?_
  unfold heartbeatFresh
  rw [List.all_eq_true.mp h i hi, Bool.or_true]

theorem of_neverStale (h : neverStale cfg g s = true) (hi : i ∈ cfg.nodeNames)
    {e : EnactmentStatus} (hown : s.world.enactments i = some e) (hg : e.policyGeneration = g)
    (hprog : isProgressing e.conditions = true) :
    isLiveHolder e.conditions s.world.clock cfg.staleThreshold = true := by
  have hlive := List.all_eq_true.mp h i hi
  simpa [hown, hg, hprog] using hlive

theorem of_rendersApplied (h : rendersApplied cfg g s l = true) (hi : i ∈ cfg.nodeNames)
    (hfails : generateFails i s l = true) {e : EnactmentStatus}
    (hown : s.world.enactments i = some e) (hg : e.policyGeneration = g) :
    isProgressing e.conditions = false := by
  have hrenders := List.all_eq_true.mp h i hi
  simpa [hfails, hown, hg] using hrenders

/-! ## Claims and releases in the log -/

theorem Event.countsFor_of_claims {ev : Event} (h : ev.claims i g = true) :
    ev.countsFor i = true := by
  cases ev with
  | policyWritten node caller view =>
    cases caller <;> first
      | exact decide_eq_true (of_decide_eq_true h).1
      | cases h
  | _ => cases h

theorem claimedTwice_cons_of_not {ev : Event} {log : List Event} (h : ev.countsFor i = false) :
    claimedTwice i g (ev :: log) = claimedTwice i g log := by
  have hnot : ev.claims i g = false :=
    Bool.eq_false_iff.mpr fun hc => by
      rw [Event.countsFor_of_claims hc] at h
      cases h
  rw [claimedTwice, hnot, Bool.false_and, Bool.false_or]

theorem ownSlot_cons_of_not {ev : Event} {log : List Event} (h : ev.countsFor i = false) :
    ownSlot i g (ev :: log) = ownSlot i g log :=
  ownSlot_append fun ev' hev' => by rwa [List.mem_singleton.mp hev']

theorem Untouched.not_release (h : Untouched i s s') {reader : Client} {view : View} :
    s'.log ≠ .policyWritten i (.decrement reader g) view :: s.log :=
  h.ne_cons (decide_eq_true rfl)

theorem Untouched.log_eq (h : Untouched i s s') : ownSlot i g s'.log = ownSlot i g s.log ∧
    claimedTwice i g s'.log = claimedTwice i g s.log := by
  rcases h with hlog | ⟨ev, hlog, hev⟩ <;> rw [hlog]
  · exact ⟨rfl, rfl⟩
  · exact ⟨ownSlot_cons_of_not hev, claimedTwice_cons_of_not hev⟩

/-! ## No slot is dropped silently -/

/-- A slot is given back by a committed release, or because nothing is left to give back. -/
theorem Phase.of_next_released {ph : Phase} {o : Op} {r : o.Resp} {key : Generation}
    (h : ph.next o r = .released key) :
    ph = .released key ∨
      (∃ client reader p, ∃ ho : o = .getPolicy client (.decrement reader key), r = ho ▸ .ok p ∧
        p.count key ≤ 0) ∨
      ∃ reader p, ∃ ho : o = .updatePolicyStatus (.decrement reader key) p, r = ho ▸ .ok () := by
  unfold Phase.next at h
  split at h
  all_goals first
    | exact Or.inl h
    | (split at h <;> first
        | exact Or.inl h
        | (cases h; exact Or.inr (Or.inr ⟨_, _, rfl, rfl⟩))
        | cases h)
    | (split at h <;> (try split at h) <;> first
        | exact Or.inl h
        | (rename_i hk; cases h; exact Or.inr (Or.inl ⟨_, _, _, rfl, rfl, hk.2⟩)))

/-- Without faults a read of the policy shows the newest version. -/
theorem policyShown_of_faultFree {p : Policy} (hfree : l.faultFree g s = true)
    (h : policyShown cfg s l = some p) : p = s.world.policy := by
  cases l with
  | exec i a =>
    simp only [policyShown] at h
    split at h
    · rename_i client caller hpending
      split at h
      · rename_i q w hserved
        obtain rfl := Option.some.inj h
        cases client <;> cases a <;> simp [serve] at hserved <;> first
          | exact hserved.1.symm
          | cases hfree
          | (obtain rfl := of_decide_eq_true hfree
             exact (Option.some.inj hserved.1).symm)
      · cases h
    · cases h
  | _ => cases h

theorem misreads_of_faultFree (hfree : l.faultFree g s = true) : misreads cfg s l = false := by
  unfold misreads
  cases hshown : policyShown cfg s l with
  | none => rfl
  | some p => simp [policyShown_of_faultFree hfree hshown]

/-- As long as the counter is positive and the policy is read as it is, a handler that has a
slot in its hands keeps it until it writes something. -/
theorem Executes.reserves_of_silent {a : Answer} {o : Op} {r : o.Resp} {w : World} {φ : Ghost}
    (hx : Executes cfg s i a o r w φ []) (hfree : (Label.exec i a).faultFree g s = true)
    (hpos : 0 < s.world.policy.count g) (hres : (s.ghosts i).phase.reserves g = true) :
    φ.phase.reserves g = true := by
  have heff := hx.effect
  have hnext : (s.ghosts i).phase.next o r = φ.phase := by rw [hx.ghost, Ghost.phase_next]
  generalize φ.phase = ph at heff hnext ⊢
  have hcases := Phase.reserves_iff.mp hres
  cases heff with
  | quiet => exact hres
  | looked hp hph => rw [hph] at hres; cases hres
  | found hown hph => rw [hph] at hres; cases hres
  | unrendered hph => rw [hph] at hres; cases hres
  | nothingHeld hheld hp hcount =>
    rename_i p key
    obtain rfl : key = g := by
      rcases hheld with hph | hph <;> rw [hph] at hres <;> exact of_decide_eq_true hres
    rcases Phase.of_next_released hnext with hph | ⟨client, reader, q, rfl, hr, hzero⟩ |
      ⟨reader, q, rfl, hr⟩
    · rw [hph] at hres
      cases hres
    · -- the version that was read is the newest one
      have hq : q = s.world.policy := by
        have hserved := hx.served
        subst hr
        have hshown : policyShown cfg s (.exec i a) = some q := by
          simp only [policyShown, hx.pending, hserved]
        exact policyShown_of_faultFree hfree hshown
      rw [hq] at hzero
      omega
    · have hrecorded := hx.recorded
      subst hr
      cases hrecorded

end

/-! ## A generation is not given up in the middle of an apply -/

/-- A handler that gives a generation up has no apply to finish. -/
def NodeView.Relinquished (v : NodeView) : Prop :=
  v.phase.givenUp = true → ∀ e, v.own = some e → isProgressing e.conditions = false

section

variable {cfg : Config} {g : Generation} {i : NodeName}

theorem isProgressing_resetPolicyGeneration {e : EnactmentStatus}
    (h : isProgressing e.conditions = false) (g : Generation) :
    isProgressing (resetPolicyGeneration e g).conditions = false := by
  by_cases heq : e.policyGeneration = g
  · rw [conditions_resetPolicyGeneration_of_eq heq]
    exact h
  · rw [conditions_resetPolicyGeneration_of_ne heq]
    rfl

/-- A generation that was given up is only ever reported as failed. -/
theorem Notice.Allowed.eq_generateFailure {n : Notice} {ph : Phase} {e : EnactmentStatus}
    (hn : n.Allowed cfg ph e) (hph : ph.givenUp = true) : n = .generateFailure := by
  have hasking : Asking cfg ph e → n = .generateFailure := fun hask => by
    obtain ⟨p, previous, rfl, -⟩ := hask.filled
    cases hph
  cases n with
  | generateFailure => rfl
  | progressing => obtain ⟨-, rfl | ⟨p, previous, rfl, -⟩⟩ := hn <;> cases hph
  | finalizing => obtain ⟨rfl, -⟩ := hn; cases hph
  | failedToConfigure =>
    rcases hn with hask | ⟨rfl, -⟩
    · exact hasking hask
    · cases hph
  | retrying => obtain ⟨rfl, -⟩ := hn; cases hph
  | pending => exact hasking hn
  | aborted => exact hasking hn
  | success => obtain ⟨-, rfl | rfl | ⟨p, previous, rfl⟩⟩ := hn <;> cases hph
  | interrupted => exact hn.elim

theorem NodeView.Relinquished.exec {s : Sys} {a : Answer} {o : Op} {r : o.Resp} {w : World}
    {φ : Ghost} {evs : List Event} (h : (s.node i).Relinquished) (hb : Books cfg g (s.node i))
    (hfails : generateFails i s (.exec i a) = true → ∀ e, s.world.enactments i = some e →
      e.policyGeneration = g → isProgressing e.conditions = false)
    (hx : Executes cfg s i a o r w φ evs) :
    NodeView.Relinquished ⟨w.versions, w.enactments i, φ.phase, evs ++ s.log⟩ := by
  intro hgiven e hown
  have hfailed : ∀ p, φ.phase = .unrendered p → (s.ghosts i).phase = .unrendered p ∨
      generateFails i s (.exec i a) = true := fun _ => hx.generateFails_eq
  have heff := hx.effect
  simp only at hgiven hown
  generalize φ.phase = ph at heff hfailed hgiven
  cases heff with
  | unrendered hph =>
    rcases hfailed _ rfl with hold | hnow
    · rw [hph] at hold
      cases hold
    · refine Bool.eq_false_iff.mpr fun hprog => ?_
      rw [hfails hnow e hown ((hb.stored e hown).of_progressing hprog)] at hprog
      cases hprog
  | resetGeneration hown' hph =>
    rw [World.setEnactment_self] at hown
    rw [← Option.some.inj hown]
    exact isProgressing_resetPolicyGeneration (h (by rw [Sys.node, hph]; rfl) _ hown') _
  | notice hown' hn =>
    rename_i e' n t message
    rw [World.setEnactment_self] at hown
    obtain rfl := hn.eq_generateFailure (Phase.givenUp_phaseAfter hgiven)
    rw [← Option.some.inj hown, Notice.isProgressing_setter]
    rfl
  | create hown' hph => rw [hph] at hgiven; cases hgiven
  | delete hph => rw [hph] at hgiven; cases hgiven
  | firstStatus hown' hph => rw [hph] at hgiven; cases hgiven
  | interrupted hown' hph happ => rw [hph] at hgiven; cases hgiven
  | retryCount hown' hph happ => rw [hph] at hgiven; cases hgiven
  | quiet => exact h hgiven e hown
  | audit hp hrv hl hdue hlt => exact h hgiven e hown
  | update hp hrv hl hnodes hpods => exact h hgiven e hown
  | reset hp hrv => exact h hgiven e hown
  | _ => cases hgiven

end

/-! ## What the log says and what the enactments show -/

/-- The log, the enactments with their handlers, and the counter agree on who owns a slot. -/
structure Conserved (cfg : Config) (g : Generation) (s : Sys) : Prop where
  agrees : ∀ i ∈ cfg.nodeNames, ownSlot i g s.log = holdsSlot cfg g always (s.node i)
  once : ∀ i ∈ cfg.nodeNames, claimedTwice i g s.log = false
  counter : s.world.policy.count g = holders cfg g (fun _ => always) s

section

variable {cfg : Config} {g : Generation} {ok : Sys → Label → Prop} {s₀ s s' : Sys} {l : Label}
  {i : NodeName}

theorem Effect.reclaiming {w w' : World} {φ : Ghost} {ph : Phase} {evs : List Event}
    (h : Effect cfg i w φ w' ph evs) (hph : ph = .reclaiming) : φ.phase = .reclaiming := by
  cases h with
  | notice hown hn =>
    rename_i e n t message
    cases n <;> first
      | exact hph
      | cases hph
  | _ => first
    | exact hph
    | cases hph

/-- Without restarts no handler is in the startup reclaim. -/
theorem Reach.not_reclaiming (h : Reach cfg ok s₀ s) (h₀ : Initial s₀)
    (hok : ∀ s l, ok s l → l.faultFree g s = true) (i : NodeName) :
    (s.ghosts i).phase ≠ .reclaiming := by
  refine h.moves_induct h₀ (I := fun s => (s.ghosts i).phase ≠ .reclaiming) ?_ ?_
  · rw [h₀.rests.ghosts i]
    nofun
  · intro s s' l _ _ hl hm ih
    have hupdate : ∀ (j : NodeName) (φ : Ghost), (i = j → φ.phase ≠ .reclaiming) →
        (Function.update s.ghosts j φ i).phase ≠ .reclaiming := by
      intro j φ hφ
      by_cases hj : i = j
      · subst hj
        rw [Function.update_self]
        exact hφ rfl
      · rwa [Function.update_of_ne hj]
    cases hm with
    | start hi hidle => exact hupdate _ _ fun _ => nofun
    | restart hi hdown => cases hok _ _ hl
    | finish hrun hsettled => exact hupdate _ _ fun _ => nofun
    | crash j => cases hok _ _ hl
    | exec hrun hi hx =>
      refine hupdate _ _ ?_
      rintro rfl
      exact fun hph => ih (hx.effect.reclaiming hph)
    | _ => exact ih

/-- **Only a release ends the holding**, over every step of a run without faults. -/
theorem holdsSlot_moves (hs : Sound cfg s) (hgen : ∀ p ∈ s.world.versions, p.generation = g)
    (hb : Books cfg g (s.node i)) (hrel : (s.node i).Relinquished)
    (hjob : (s.ghosts i).phase ≠ .reclaiming) (hi : i ∈ cfg.nodeNames)
    (hun : undisturbed cfg s l = true) (hfree : l.faultFree g s = true)
    (hpos : 0 < s.world.policy.count g) (hm : Moves cfg s l s')
    (h : holdsSlot cfg g always (s.node i) = true) :
    holdsSlot cfg g always (s'.node i) = true ∨
      ∃ reader view, s'.log = .policyWritten i (.decrement reader g) view :: s.log := by
  -- a handler that begins or stops had no slot in its hands
  have hghost : ∀ (j : NodeName) (φ : Ghost), (i = j → (s.ghosts i).phase.reserves g = false) →
      holdsSlot cfg g always
        ⟨s.world.versions, s.world.enactments i, (Function.update s.ghosts j φ i).phase, s.log⟩ =
        true := by
    intro j φ hφ
    by_cases hj : i = j
    · rcases holdsSlot_iff.mp h with hres | hocc
      · rw [Sys.node, hφ hj] at hres
        cases hres
      · exact holdsSlot_iff.mpr (Or.inr hocc)
    · rw [Function.update_of_ne hj]
      exact h
  cases hm with
  | start hj hidle =>
    refine Or.inl (hghost _ _ ?_)
    rintro rfl
    rw [hs.conforms.resting i (Or.inl hidle)]
    rfl
  | restart hj hdown => cases hfree
  | crash j => cases hfree
  | finish hrun hsettled =>
    refine Or.inl (hghost _ _ ?_)
    rintro rfl
    rcases hsettled with hfault | hpassive
    · simpa [Label.faultFree, hfault] using hfree
    · refine Bool.eq_false_iff.mpr fun hres => ?_
      rcases Phase.reserves_iff.mp hres with hph | hph
      · exact (hpassive g).1 hph
      · exact (hpassive g).2 hph
  | exec hrun hj hx =>
    rename_i j a job o k r w φ evs
    by_cases hij : i = j
    · subst hij
      have hdel : deletes i s (.exec i a) = false := by
        have hall := List.all_eq_true.mp (Bool.and_eq_true_iff.mp hun).2 i hi
        simpa using hall
      have hkeep : (s.ghosts i).phase.reserves g = true → evs = [] →
          φ.phase.reserves g = true := by
        rintro hres rfl
        exact hx.reserves_of_silent hfree hpos hres
      have hexec :
          holdsSlot cfg g always ⟨w.versions, w.enactments i, φ.phase, evs ++ s.log⟩ = true ∨
          ∃ reader view, evs = [.policyWritten i (.decrement reader g) view] :=
        holdsSlot_exec hs hgen hb hdel hjob hrel hkeep hx h
      rcases hexec with hholds | ⟨reader, view, rfl⟩
      · exact Or.inl (by simpa [Sys.node] using hholds)
      · exact Or.inr ⟨reader, view, rfl⟩
    · have hown : w.enactments i = s.world.enactments i := by
        rw [hx.after]
        exact World.after_enactments_of_ne _ hij o r
      refine Or.inl ?_
      simp only [Sys.node, Function.update_of_ne hij, hown]
      exact h
  | _ => exact Or.inl h

/-- **One step of a run without faults.** -/
theorem Conserved.step (h : Conserved cfg g s) (hregime : Regime cfg g (fun _ => always) ok s₀)
    (hr : Reach cfg ok s₀ s) (hok : ok s l) (hun : undisturbed cfg s l = true)
    (hfree : l.faultFree g s = true) (hjob : ∀ i, (s.ghosts i).phase ≠ .reclaiming)
    (hrel : ∀ i ∈ cfg.nodeNames, (s.node i).Relinquished) (hm : Moves cfg s l s') :
    Conserved cfg g s' := by
  have hs := hregime.initial.sound.reach hr
  have hgen := hregime.generation_eq hr
  have hbooks := hregime.books hr
  -- a node that is not touched stays what it is
  have hforth : ∀ i ∈ cfg.nodeNames, Untouched i s s' →
      holdsSlot cfg g always (s.node i) = true → holdsSlot cfg g always (s'.node i) = true := by
    intro i hi huntouched hholds
    have hpos : 0 < holders cfg g (fun _ => always) s :=
      List.countP_pos_iff.mpr ⟨i, hi, hholds⟩
    have hcounter := h.counter
    rcases holdsSlot_moves hs hgen (hbooks i) (hrel i hi) (hjob i) hi hun hfree (by omega) hm
      hholds with hholds | ⟨reader, view, hlog⟩
    · exact hholds
    · exact absurd hlog huntouched.not_release
  have hback : ∀ i, Untouched i s s' → holdsSlot cfg g always (s'.node i) = true →
      holdsSlot cfg g always (s.node i) = true := by
    intro i huntouched hholds
    rcases hregime.holdsSlot_of_step hr hok hm hholds with hholds | ⟨⟨view, hlog⟩, -⟩
    · exact hholds
    · exact absurd hlog huntouched.not_claim
  have hsame : ∀ i ∈ cfg.nodeNames, Untouched i s s' →
      holdsSlot cfg g always (s.node i) = holdsSlot cfg g always (s'.node i) :=
    fun i hi huntouched => Bool.eq_iff_iff.mpr ⟨hforth i hi huntouched, hback i huntouched⟩
  have hagrees : ∀ i ∈ cfg.nodeNames, Untouched i s s' →
      ownSlot i g s'.log = holdsSlot cfg g always (s'.node i) := by
    intro i hi huntouched
    rw [huntouched.log_eq.1, h.agrees i hi]
    exact hsame i hi huntouched
  have honce : ∀ i ∈ cfg.nodeNames, Untouched i s s' → claimedTwice i g s'.log = false := by
    intro i hi huntouched
    rw [huntouched.log_eq.2]
    exact h.once i hi
  have hholders : (∀ i, Untouched i s s') →
      holders cfg g (fun _ => always) s' = holders cfg g (fun _ => always) s := fun hall =>
    List.countP_congr fun i hi => ⟨hback i (hall i), hforth i hi (hall i)⟩
  -- a claim and a release touch one node only
  have htouched : ∀ {j}, (∀ i, i ≠ j → Untouched i s s') →
      ownSlot j g s'.log = holdsSlot cfg g always (s'.node j) →
      (j ∈ cfg.nodeNames → claimedTwice j g s'.log = false) →
      s'.world.policy.count g = holders cfg g (fun _ => always) s' → Conserved cfg g s' := by
    intro j hrest hownj honcej hcounter
    refine ⟨fun i hi => ?_, fun i hi => ?_, hcounter⟩
    · by_cases hij : i = j
      · rw [hij, hownj]
      · exact hagrees i hi (hrest i hij)
    · by_cases hij : i = j
      · rw [hij]
        exact honcej (hij ▸ hi)
      · exact honce i hi (hrest i hij)
  cases hregime.counted_step hr hok hm with
  | steady hall hcount =>
    refine ⟨fun i hi => hagrees i hi (hall i), fun i hi => honce i hi (hall i), ?_⟩
    rw [hcount, hholders hall]
    exact h.counter
  | audit hall hp hl hdue hlt hcount =>
    -- the audit would count at least the holders, and the counter is not above them
    have hle := hregime.holders_le_audit hr hp hl hdue
    have hcounter := h.counter
    omega
  | verdict hall hp hl hnodes hpods hsuccess hcount =>
    refine ⟨fun i hi => hagrees i hi (hall i), fun i hi => honce i hi (hall i), ?_⟩
    have hnone : holders cfg g (fun _ => always) s = 0 := List.countP_eq_zero.mpr fun i hi => by
      rw [hregime.not_holds_of_success hr hp hl hnodes hpods hsuccess hi]
      exact Bool.false_ne_true
    rw [hcount, hholders hall, hnone]
    rfl
  | claim hj hown hask hown' hphase hlog hcap hcount =>
    rename_i j e
    have hrest : ∀ i, i ≠ j → Untouched i s s' := fun i hne => .of_node_ne hlog hne
    have hbefore : holdsSlot cfg g always (s.node j) = false :=
      (hbooks j).not_holds_of_asking always hown hask
    have hafter : holdsSlot cfg g always (s'.node j) = true :=
      holdsSlot_iff.mpr (Or.inl (Phase.reserves_iff.mpr (Or.inl hphase)))
    refine htouched hrest ?_ (fun hi => ?_) ?_
    · rw [hlog, hafter]
      simp [ownSlot]
    · rw [hlog, claimedTwice, h.agrees j hi, hbefore, Bool.and_false, Bool.false_or]
      exact h.once j hi
    · have hmore : holders cfg g (fun _ => always) s' = holders cfg g (fun _ => always) s + 1 :=
        List.countP_eq_add_one cfg.nodup hj hafter hbefore fun i hi hij =>
          (hsame i hi (hrest i hij)).symm
      have hcounter := h.counter
      omega
  | release hj hheld hphase hown hlog hcount =>
    rename_i j reader
    have hrest : ∀ i, i ≠ j → Untouched i s s' := fun i hne => .of_node_ne hlog hne
    have hbefore : holdsSlot cfg g always (s.node j) = true :=
      holdsSlot_iff.mpr (Or.inl (Phase.reserves_iff.mpr hheld.symm))
    have hafter : holdsSlot cfg g always (s'.node j) = false := by
      rw [holdsSlot, Sys.node, hphase, hown]
      exact ((hbooks j).not_occupies_of_held always hheld).2
    refine htouched hrest ?_ (fun hi => ?_) ?_
    · rw [hlog, hafter]
      simp [ownSlot, Caller.releases]
    · rw [hlog, claimedTwice]
      exact h.once j hi
    · have hless : holders cfg g (fun _ => always) s = holders cfg g (fun _ => always) s' + 1 :=
        List.countP_eq_add_one cfg.nodup hj hbefore hafter fun i hi hij =>
          hsame i hi (hrest i hij)
      have hcounter := h.counter
      omega

end

/-! ## Whole runs -/

section

variable {cfg : Config} {g : Generation} {ok : Sys → Label → Prop} {s₀ s : Sys} {i : NodeName}

theorem of_tracked {l : Label} (h : tracked cfg g s l = true) :
    rendersApplied cfg g s l = true ∧ graced cfg g s = true ∧ neverStale cfg g s = true ∧
      allReady cfg s = true := by
  simpa only [tracked, Bool.and_eq_true, and_assoc] using h

/-- In a run without faults that tracks the slots every unfinished apply counts. -/
theorem Fresh.regime_always (h : Fresh g s₀) (hun : ∀ s l, ok s l → undisturbed cfg s l = true)
    (hfree : ∀ s l, ok s l → l.faultFree g s = true)
    (htracked : ∀ s l, ok s l → tracked cfg g s l = true) :
    Regime cfg g (fun _ => always) ok s₀ where
  initial := h.initial
  generation := h.generation
  booked := h.booked
  antitone _ _ := rfl
  live _ := rfl
  edits s l hok := by simpa using (Bool.and_eq_true_iff.mp (hun s l hok)).1
  grace s l hok := (of_tracked (htracked s l hok)).2.1
  fresh s l hok := allFresh_of_neverStale (of_tracked (htracked s l hok)).2.2.1
  ready s l hok := (of_tracked (htracked s l hok)).2.2.2
  reads s l hok := misreads_of_faultFree (hfree s l hok)
  counted s l hok _ hi _ hown hg hprog _ :=
    of_neverStale (of_tracked (htracked s l hok)).2.2.1 hi hown hg hprog

theorem Regime.relinquished {alive : Time → ConditionList → Bool} (h : Regime cfg g alive ok s₀)
    (htracked : ∀ s l, ok s l → tracked cfg g s l = true) (hi : i ∈ cfg.nodeNames)
    (hr : Reach cfg ok s₀ s) : (s.node i).Relinquished := by
  have hbooks := hr.with_invariant fun s hs => h.books hs i
  refine hbooks.node_induct (I := NodeView.Relinquished) h.initial.sound ?_ ?_ ?_ ?_
  · intro hgiven
    rw [Sys.node, h.initial.rests.ghosts i] at hgiven
    cases hgiven
  · exact fun v versions evs hv _ _ => hv
  · intro v ph _ hph hgiven
    rcases hph with rfl | rfl <;> cases hgiven
  · intro s a o r w φ evs _ hv hok hx
    refine hv.exec hok.2 (fun hfails e hown hg => ?_) hx
    exact of_rendersApplied (of_tracked (htracked s _ hok.1)).1 hi hfails hown hg

/-- A node that holds a slot of `g` has an enactment at `g`. -/
theorem Books.generation_of_holds {v : NodeView} {alive : ConditionList → Bool}
    (h : Books cfg g v) (hholds : holdsSlot cfg g alive v = true) :
    ∃ e, v.own = some e ∧ e.policyGeneration = g := by
  have horder := h.inOrder
  unfold NodeView.InOrder at horder
  rcases holdsSlot_iff.mp hholds with hres | ⟨e, hown, hocc⟩
  · rcases Phase.reserves_iff.mp hres with hph | hph <;> rw [hph] at horder <;>
    · obtain ⟨-, e, hown, hg, -⟩ := horder
      exact ⟨e, hown, hg⟩
  · exact ⟨e, hown, generation_of_occupies hocc⟩

end

/-- **Slots are conserved.**  The spec does not change, no handler crashes, the policy is read as
it is, and no procedure ends with a slot in its hands after a refused call; the external tools
fail as they like.  As long as no enactment loses track of a slot, the counter is the number of
nodes that own one, no node claims a second one, and once every enactment at `g` is Available
the counter is zero. -/
theorem slots_conserved {cfg : Config} {g : Generation} {s₀ s : Sys} (h₀ : Fresh g s₀)
    (h : Reach cfg (fun s l => undisturbed cfg s l = true ∧ l.faultFree g s = true ∧
      tracked cfg g s l = true) s₀ s) :
    s.world.policy.count g = cfg.nodeNames.countP (fun i => ownSlot i g s.log) ∧
      (∀ i ∈ cfg.nodeNames, claimedTwice i g s.log = false) ∧
      ((∀ i ∈ cfg.nodeNames, ∀ e, s.world.enactments i = some e → e.policyGeneration = g →
        isAvailable e.conditions = true) → s.world.policy.count g = 0) := by
  have hregime : Regime cfg g (fun _ => always) (fun s l => undisturbed cfg s l = true ∧
      l.faultFree g s = true ∧ tracked cfg g s l = true) s₀ :=
    h₀.regime_always (fun _ _ hok => hok.1) (fun _ _ hok => hok.2.1) fun _ _ hok => hok.2.2
  have hconserved : Conserved cfg g s := by
    refine h.moves_induct h₀.initial ?_ fun s s' l hr _ hok hm ih => ?_
    · refine ⟨fun i _ => ?_, fun i _ => ?_, ?_⟩
      · rw [h₀.not_holds, h₀.initial.rests.log]
        rfl
      · rw [h₀.initial.rests.log]
        rfl
      · rw [h₀.holders_eq_zero, h₀.counter]
        rfl
    · exact ih.step hregime hr hok hok.1 hok.2.1
        (hr.not_reclaiming h₀.initial fun _ _ hok => hok.2.1)
        (fun i hi => hregime.relinquished (fun _ _ hok => hok.2.2) hi hr) hm
  refine ⟨?_, hconserved.once, fun havailable => ?_⟩
  · rw [hconserved.counter]
    refine congrArg Int.ofNat (List.countP_congr fun i hi => ?_)
    rw [hconserved.agrees i hi]
  · have hnone : holders cfg g (fun _ => always) s = 0 := by
      refine List.countP_eq_zero.mpr fun i hi hholds => ?_
      have hbooks := hregime.books h i
      obtain ⟨e, hown, hg⟩ := hbooks.generation_of_holds hholds
      rw [hbooks.not_holds_of_available _ hown (havailable i hi e hown hg)] at hholds
      cases hholds
    rw [hconserved.counter, hnone]
    rfl

/-- The API server refuses the call that is answered in this step. -/
def refused (cfg : Config) (s : Sys) : Label → Bool
  | .exec i a =>
    match s.pending i with
    | some o => (serve cfg i (s.memory i) s.world o a).any fun (r, _) => o.failed r
    | none => false
  | _ => false

/-- The small cluster with room for two unavailable nodes. -/
def roomySys : Sys :=
  { freshSys with
    world := { freshSys.world with
      policy := { onePolicy with
        spec := { desiredState := "eth1", maxUnavailable := some (.int 2) } } } }

/-- The apply of the first node fails once, and then its rendering; the next reconcile has
forgotten the slot and claims another. -/
theorem slot_claimed_twice : ∃ s, Reach twoNodes
    (fun s l => undisturbed twoNodes s l = true ∧ l.faultFree 1 s = true ∧
      refused twoNodes s l = false) roomySys s ∧
    s.world.policy.count 1 = 2 ∧ twoNodes.nodeNames.countP (fun i => ownSlot i 1 s.log) = 1 ∧
    claimedTwice "node01" 1 s.log = true := by
  obtain ⟨s, hs, hP⟩ : ∃ s, Reach twoNodes
      (fun s l => undisturbed twoNodes s l = true ∧ l.faultFree 1 s = true ∧
        refused twoNodes s l = false) roomySys s ∧
      (s.world.policy.count 1 == 2 &&
        twoNodes.nodeNames.countP (fun i => ownSlot i 1 s.log) == 1 &&
        claimedTwice "node01" 1 s.log) = true :=
    exists_of_play (fun s l (h : (undisturbed twoNodes s l && l.faultFree 1 s &&
        !refused twoNodes s l) = true) => by simpa [and_assoc] using h) _
      [.label (.start "node01"), .work "node01" never applyDenied, .label (.finish "node01"),
        .label (.start "node01"), .work "node01" never generationDenied, .label (.finish "node01"),
        .label (.start "node01"), .work "node01" untilApply granted]
      (by decide +kernel)
  simp only [Bool.and_eq_true, beq_iff_eq, and_assoc] at hP
  exact ⟨s, hs, hP⟩

/-- The apply of the first node fails once; the slot is kept for the next attempt. -/
theorem slots_conserved_node01 : ∃ s, Reach twoNodes
    (fun s l => undisturbed twoNodes s l = true ∧ l.faultFree 1 s = true ∧
      tracked twoNodes 1 s l = true) freshSys s ∧
    ownSlot "node01" 1 s.log = true ∧
    s.world.policy.count 1 = twoNodes.nodeNames.countP (fun i => ownSlot i 1 s.log) := by
  obtain ⟨s, hs, hP⟩ : ∃ s, Reach twoNodes
      (fun s l => undisturbed twoNodes s l = true ∧ l.faultFree 1 s = true ∧
        tracked twoNodes 1 s l = true) freshSys s ∧ ownSlot "node01" 1 s.log = true :=
    exists_of_play (fun s l (h : (undisturbed twoNodes s l && l.faultFree 1 s &&
        tracked twoNodes 1 s l) = true) => by simpa [and_assoc] using h) _
      [.label (.start "node01"), .work "node01" never applyDenied, .label (.finish "node01"),
        .label (.start "node02"), .work "node02" never granted, .label (.finish "node02")]
      (by decide +kernel)
  exact ⟨s, hs, hP, (slots_conserved freshSys_fresh hs).1⟩
