/-
# Acting on what was read

A handler that writes the status of the policy acts on what it read before: a version of the
policy, and after that the enactments, the nodes and the pods.  The API server compares the
version only; the enactments may have changed since they were listed.

`Reach.listing_valid` is the rule for reasoning about such writes.  If a property follows from
what a listing shows at the moment it is taken, and no step undoes the property without
writing the policy, then it holds whenever a listing is acted upon.
-/
import KubernetesNmstate.System

/-! ## What a step does to the policy, the clock and the views -/

theorem Effect.clock {cfg : Config} {i : NodeName} {w w' : World} {φ : Ghost} {ph : Phase}
    {evs : List Event} (h : Effect cfg i w φ w' ph evs) : w'.clock = w.clock := by
  cases h <;> rfl

section

variable {cfg : Config} {s s' : Sys} {l : Label}

theorem Moves.clock_le (h : Moves cfg s l s') : s.world.clock ≤ s'.world.clock := by
  cases h with
  | tick seconds => exact Nat.le_add_right _ _
  | exec hrun hi hx => exact Nat.le_of_eq hx.effect.clock.symm
  | _ => exact Nat.le_refl _

/-- The policy stays, or gets a version of its own. -/
theorem Moves.policy (h : Moves cfg s l s') : s'.world.policy = s.world.policy ∨
    s.world.policy.resourceVersion < s'.world.policy.resourceVersion := by
  cases h with
  | edit spec conditions => exact Or.inr (Nat.lt_succ_self _)
  | exec hrun hi hx =>
    rcases hx.effect.world with ⟨hpol, -⟩ | ⟨status, rfl⟩
    · exact Or.inl hpol
    · exact Or.inr (Nat.lt_succ_self _)
  | _ => exact Or.inl rfl

/-- Only an edit changes the spec. -/
theorem Moves.spec (h : Moves cfg s l s') (hl : l.edits = false) :
    s'.world.policy.spec = s.world.policy.spec := by
  cases h with
  | edit spec conditions => cases hl
  | exec hrun hi hx =>
    rcases hx.effect.world with ⟨hpol, -⟩ | ⟨status, rfl⟩
    · rw [hpol]
    · rfl
  | _ => rfl

/-- A view is forgotten, or changes by one look at the cluster. -/
theorem Moves.view (h : Moves cfg s l s') (j : NodeName) :
    (s'.ghosts j).view = {} ∨ Glimpse cfg s.world (s.ghosts j).view (s'.ghosts j).view := by
  have hupdate : ∀ (i : NodeName) (φ : Ghost),
      (φ.view = {} ∨ Glimpse cfg s.world (s.ghosts i).view φ.view) →
      (Function.update s.ghosts i φ j).view = {} ∨
        Glimpse cfg s.world (s.ghosts j).view (Function.update s.ghosts i φ j).view := by
    intro i φ hφ
    by_cases hj : j = i
    · subst hj
      rwa [Function.update_self]
    · rw [Function.update_of_ne hj]
      exact Or.inr .same
  cases h with
  | start hi hidle => exact hupdate _ _ (Or.inl rfl)
  | restart hi hdown => exact hupdate _ _ (Or.inl rfl)
  | finish hrun hsettled => exact hupdate _ _ (Or.inl rfl)
  | crash i => exact hupdate _ _ (Or.inl rfl)
  | exec hrun hi hx => exact hupdate _ _ (Or.inr hx.glimpse)
  | _ => exact Or.inr .same

/-- The policy in a view was there before the step, or is what the step has shown. -/
theorem Moves.view_policy (h : Moves cfg s l s') {j : NodeName} {p : Policy}
    (hp : (s'.ghosts j).view.policy = some p) :
    (s.ghosts j).view.policy = some p ∨
      policyShown cfg s l = some p ∧ s'.world.policy = s.world.policy := by
  have hupdate : ∀ (i : NodeName) (φ : Ghost),
      (Function.update s.ghosts i φ j).view.policy = some p → φ.view.policy = none →
      (s.ghosts j).view.policy = some p := by
    intro i φ hp hnone
    by_cases hj : j = i
    · subst hj
      rw [Function.update_self, hnone] at hp
      cases hp
    · rwa [Function.update_of_ne hj] at hp
  cases h with
  | start hi hidle => exact Or.inl (hupdate _ _ hp rfl)
  | restart hi hdown => exact Or.inl (hupdate _ _ hp rfl)
  | finish hrun hsettled => exact Or.inl (hupdate _ _ hp rfl)
  | crash i => exact Or.inl (hupdate _ _ hp rfl)
  | exec hrun hi hx =>
    rename_i i a job o k r w φ evs
    by_cases hj : j = i
    · subst hj
      simp only [Function.update_self] at hp
      exact (hx.policyShown_eq hp).imp_right fun ⟨hshown, hsame⟩ =>
        ⟨hshown, congrArg World.policy hsame⟩
    · simp only [Function.update_of_ne hj] at hp
      exact Or.inl hp
  | _ => exact Or.inl hp

end

/-! ## Invariants of the whole system -/

/-- **Induction over runs**, with everything a step can do. -/
theorem Reach.moves_induct {cfg : Config} {ok : Sys → Label → Prop} {s₀ s : Sys} {I : Sys → Prop}
    (h : Reach cfg ok s₀ s) (h₀ : Initial s₀) (hI : I s₀)
    (hstep : ∀ s s' l, Reach cfg ok s₀ s → Sound cfg s → ok s l → Moves cfg s l s' → I s → I s') :
    I s := by
  induction h with
  | refl => exact hI
  | next hreach hok hs ih =>
    have hsound := h₀.sound.reach hreach
    exact hstep _ _ _ hreach hsound hok (moves_of_step hsound.conforms hs).1 ih

/-! ## Reads that are still valid -/

section

variable {cfg : Config} {ok : Sys → Label → Prop} {s₀ s : Sys}

/-- A view that says the grace window is over is right about the version it has read. -/
theorem Reach.due (h : Reach cfg ok s₀ s) (h₀ : Initial s₀) (j : NodeName) (p : Policy)
    (hp : (s.ghosts j).view.policy = some p) (hdue : (s.ghosts j).view.due = true) :
    graceOver p.status.lastUnavailableNodeCountUpdate s.world.clock = true := by
  revert p hp hdue
  refine h.moves_induct h₀ (I := fun s => ∀ p, (s.ghosts j).view.policy = some p →
    (s.ghosts j).view.due = true →
    graceOver p.status.lastUnavailableNodeCountUpdate s.world.clock = true) ?_ ?_
  · intro p hp
    rw [h₀.rests.ghosts j] at hp
    cases hp
  · intro s s' l _ _ _ hm ih p hp hdue
    refine graceOver_mono hm.clock_le ?_
    rcases hm.view j with hempty | hview
    · rw [hempty] at hp
      cases hp
    · generalize (s'.ghosts j).view = v' at hview hp hdue
      cases hview with
      | policy hmem =>
        obtain rfl := Option.some.inj hp
        rw [Option.isNone_iff_eq_none.mp hdue]
        rfl
      | clock =>
        have hold : (s.ghosts j).view.policy = some p := hp
        simp only [hold, Bool.or_eq_true] at hdue
        exact hdue.elim (ih p hold) id
      | _ => exact ih p hp hdue

/-- **Reads that are accurate.**  When the newest version of the policy is never read with other
counters than it has, what a handler has read of the newest version is that version. -/
theorem Reach.accurate (h : Reach cfg ok s₀ s) (h₀ : Initial s₀)
    (hok : ∀ s l, ok s l → misreads cfg s l = false) (j : NodeName) (p : Policy)
    (hp : (s.ghosts j).view.policy = some p)
    (hrv : p.resourceVersion = s.world.policy.resourceVersion) : p = s.world.policy := by
  revert p
  refine h.moves_induct h₀ (I := fun s => ∀ p, (s.ghosts j).view.policy = some p →
    p.resourceVersion = s.world.policy.resourceVersion → p = s.world.policy) ?_ ?_
  · intro p hp
    rw [h₀.rests.ghosts j] at hp
    cases hp
  · intro s s' l _ hs hl hm ih p hp hrv
    -- whatever was known before the step is the newest version only if none was added
    rcases hm.view_policy hp with hold | ⟨hshown, hsame⟩
    · have hlt := hs.shows_lt (hs.seen j p hold)
      rcases hm.policy with hsame | hnew
      · rw [hsame] at hrv ⊢
        exact ih p hold hrv
      · omega
    · rw [hsame] at hrv ⊢
      have hright := hok s l hl
      by_contra hne
      simp [misreads, hshown, hrv, hne] at hright

/-- **Acting on a listing.**  Suppose what a listing shows together with what was read as the
newest version of the policy, `F`, implies `D` when the listing is taken, and that a step keeps
`D` or writes the policy.  Then `D` holds whenever a handler holds such a listing and the version it
read is still the newest. -/
theorem Reach.listing_valid {D : Sys → Prop} {F : Policy → Listing → Prop}
    (h : Reach cfg ok s₀ s) (h₀ : Initial s₀)
    (hlist : ∀ s l p due, Reach cfg ok s₀ s → ok s l → p.Resembles s.world.policy → (due = true →
      graceOver s.world.policy.status.lastUnavailableNodeCountUpdate s.world.clock = true) →
      F p ⟨s.world.listing cfg, s.world.clock, due⟩ → D s)
    (hstable : ∀ s s' l, Reach cfg ok s₀ s → Sound cfg s → ok s l → Moves cfg s l s' → D s →
      s'.world.policy = s.world.policy → D s')
    (j : NodeName) (p : Policy) (l : Listing) (hp : (s.ghosts j).view.policy = some p)
    (hl : (s.ghosts j).view.listing = some l)
    (hrv : p.resourceVersion = s.world.policy.resourceVersion) (hF : F p l) : D s := by
  revert p l
  refine h.moves_induct h₀ (I := fun s => ∀ p l, (s.ghosts j).view.policy = some p →
    (s.ghosts j).view.listing = some l →
    p.resourceVersion = s.world.policy.resourceVersion → F p l → D s) ?_ ?_
  · intro p l hp
    rw [h₀.rests.ghosts j] at hp
    cases hp
  · intro s s' lab hreach hs hok hm ih p l hp hl hrv hF
    rcases hm.view j with hempty | hview
    · rw [hempty] at hp
      cases hp
    have hdue := hreach.due h₀ j
    -- the version was known before this step, so it is the newest only if none was added
    have hsame : s'.world.policy = s.world.policy := by
      have hlt := hs.shows_lt ((hview.policy_of hp).elim (hs.seen j p) id)
      rcases hm.policy with hsame | hnew
      · exact hsame
      · omega
    rw [hsame] at hrv
    refine hstable s s' lab hreach hs hok hm ?_ hsame
    generalize (s'.ghosts j).view = v' at hview hp hl
    cases hview with
    | policy hmem => cases hl
    | listing =>
      obtain rfl := Option.some.inj hl
      have hcurrent := hs.current hp hrv
      refine hlist s lab p _ hreach hok hcurrent (fun h => ?_) hF
      rw [← hcurrent.lastUpdate_eq]
      exact hdue p hp h
    | _ => exact ih p l hp hl hrv hF

/-- What every look at the cluster keeps true of a view is true of all of them. -/
theorem Reach.view_induct {P : View → Prop} (h : Reach cfg ok s₀ s) (h₀ : Initial s₀)
    (hempty : P {})
    (hlook : ∀ s l v v', Reach cfg ok s₀ s → ok s l → Glimpse cfg s.world v v' → P v → P v')
    (j : NodeName) : P (s.ghosts j).view := by
  refine h.moves_induct h₀ (I := fun s => P (s.ghosts j).view) ?_ ?_
  · rw [h₀.rests.ghosts j]
    exact hempty
  · intro s s' l hreach _ hok hm ih
    rcases hm.view j with hview | hview
    · rw [hview]
      exact hempty
    · exact hlook s l _ _ hreach hok hview ih

/-- A listing is the listing of some moment. -/
theorem Reach.listing_eq (h : Reach cfg ok s₀ s) (h₀ : Initial s₀) {j : NodeName} {l : Listing}
    (hl : (s.ghosts j).view.listing = some l) :
    ∃ w : World, (∃ s' lab, Reach cfg ok s₀ s' ∧ ok s' lab ∧ w = s'.world) ∧
      l.enactments = w.listing cfg := by
  refine h.view_induct h₀ (P := fun v => ∀ l, v.listing = some l → ∃ w : World,
    (∃ s' lab, Reach cfg ok s₀ s' ∧ ok s' lab ∧ w = s'.world) ∧ l.enactments = w.listing cfg)
    ?_ ?_ j l hl
  · intro l hl
    cases hl
  · intro s lab v v' hreach hok hview ih l hl
    cases hview with
    | policy hp => cases hl
    | listing =>
      obtain rfl := Option.some.inj hl
      exact ⟨s.world, ⟨s, lab, hreach, hok, rfl⟩, rfl⟩
    | _ => exact ih l hl

/-- What is true of the nodes whenever they are read is true of what a handler has read. -/
theorem Reach.nodes_valid {P : Labels → List Node → Prop} (h : Reach cfg ok s₀ s) (h₀ : Initial s₀)
    (hread : ∀ s l nodeSelector, Reach cfg ok s₀ s → ok s l →
      P nodeSelector (s.world.nodes.filter fun node => matchesLabels nodeSelector node.labels))
    {j : NodeName} {nodeSelector : Labels} {nodes : List Node}
    (hnodes : (s.ghosts j).view.nodes = some (nodeSelector, nodes)) : P nodeSelector nodes := by
  refine h.view_induct h₀ (P := fun v => ∀ nodeSelector nodes,
    v.nodes = some (nodeSelector, nodes) → P nodeSelector nodes) ?_ ?_ j nodeSelector nodes hnodes
  · intro nodeSelector nodes hnodes
    cases hnodes
  · intro s lab v v' hreach hok hview ih nodeSelector nodes hnodes
    cases hview with
    | policy hp => cases hnodes
    | nodes sel =>
      obtain ⟨rfl, rfl⟩ := Prod.mk.inj (Option.some.inj hnodes)
      exact hread s lab sel hreach hok
    | _ => exact ih nodeSelector nodes hnodes

/-- And so for the pods. -/
theorem Reach.pods_valid {P : List Pod → Prop} (h : Reach cfg ok s₀ s) (h₀ : Initial s₀)
    (hread : ∀ s l, Reach cfg ok s₀ s → ok s l → P s.world.pods) {j : NodeName} {pods : List Pod}
    (hpods : (s.ghosts j).view.pods = some pods) : P pods := by
  refine h.view_induct h₀ (P := fun v => ∀ pods, v.pods = some pods → P pods) ?_ ?_ j pods hpods
  · intro pods hpods
    cases hpods
  · intro s lab v v' hreach hok hview ih pods hpods
    cases hview with
    | policy hp => cases hpods
    | pods =>
      obtain rfl := Option.some.inj hpods
      exact hread s lab hreach hok
    | _ => exact ih pods hpods

end
