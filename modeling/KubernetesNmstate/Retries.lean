/-
# Bounded retries

`RetryCount` over the reconciles of one node.  `Reconcile` reads the count before it claims, and
again when an apply has failed: it writes back the whole map of the enactment it read, one higher
at its generation, and then reports `Retrying` or the final failure.

`Tries` is what an observer of the calls counts: the applies that failed, and the applies and
claims that were tried, each for the generation of the enactment `Reconcile` had read.
`reconcile_rounds` says what one reconcile does to the stored counts, for every pattern of
answers: nothing, or one more failure of one generation that was not used up.  Over whole runs
this bounds the failures by `RetriesUntilFail` (`retries_bounded`).
-/
import KubernetesNmstate.Scenario

/-! ## What an observer counts -/

/-- The generation of the enactment read for the apply, the applies that failed and the applies
and claims that were tried for each generation, the status writes that were begun and not
committed, and whether the enactment was deleted. -/
structure Tries where
  key : Generation := 0
  failed : Generation → ℕ := fun _ => 0
  tried : Generation → ℕ := fun _ => 0
  lost : List Change := []
  deleted : Bool := false

namespace Tries

/-- One more for a generation. -/
def more (count : Generation → ℕ) (key : Generation) : Generation → ℕ :=
  Function.update count key (count key + 1)

/-- A write was begun. -/
def begin (τ : Tries) (change : Change) : Tries :=
  { τ with lost := change :: τ.lost.filter (· ≠ change) }

/-- A write was committed. -/
def commit (τ : Tries) (change : Change) : Tries :=
  { τ with lost := τ.lost.filter (· ≠ change) }

/-- The counts after an answered call. -/
def next (τ : Tries) : (o : Op) → o.Resp → Tries
  | .getEnactment .stored, .ok e => { τ with key := e.policyGeneration }
  | .getEnactment (.update change), _ => τ.begin change
  | .updateEnactmentStatus change _, .ok () => τ.commit change
  | .deleteEnactment, .ok () => { τ with deleted := true }
  | .updatePolicyStatus (.increment key) _, _ => { τ with tried := more τ.tried key }
  | .applyDesiredState _, .ok () => { τ with tried := more τ.tried τ.key }
  | .applyDesiredState _, .error _ =>
    { τ with tried := more τ.tried τ.key, failed := more τ.failed τ.key }
  | _, _ => τ

/-- Every status write that was begun is committed, and the enactment was not deleted. -/
def Smooth (τ : Tries) : Prop := τ.deleted = false ∧ τ.lost = []

instance (τ : Tries) : Decidable τ.Smooth := inferInstanceAs (Decidable (_ ∧ _))

/-- Nothing was tried in between. -/
structure Quiet (τ τ' : Tries) : Prop where
  key : τ'.key = τ.key
  failed : τ'.failed = τ.failed
  tried : τ'.tried = τ.tried

/-- Nothing failed in between, and only the generation `g` was tried. -/
structure Trying (g : Generation) (τ τ' : Tries) : Prop where
  key : τ'.key = τ.key
  failed : τ'.failed = τ.failed
  tried : ∀ k, k ≠ g → τ'.tried k = τ.tried k

variable {τ τ' τ'' : Tries}

theorem Quiet.refl (τ : Tries) : Quiet τ τ := ⟨rfl, rfl, rfl⟩

theorem Quiet.trans (h : Quiet τ τ') (h' : Quiet τ' τ'') : Quiet τ τ'' :=
  ⟨h'.key.trans h.key, h'.failed.trans h.failed, h'.tried.trans h.tried⟩

theorem Quiet.trying (h : Quiet τ τ') (g : Generation) : Trying g τ τ' :=
  ⟨h.key, h.failed, fun k _ => congrFun h.tried k⟩

theorem Trying.trans {g : Generation} (h : Trying g τ τ') (h' : Trying g τ' τ'') : Trying g τ τ'' :=
  ⟨h'.key.trans h.key, h'.failed.trans h.failed, fun k hk => (h'.tried k hk).trans (h.tried k hk)⟩

theorem quiet_begin (τ : Tries) (change : Change) : Quiet τ (τ.begin change) := ⟨rfl, rfl, rfl⟩

theorem quiet_commit (τ : Tries) (change : Change) : Quiet τ (τ.commit change) := ⟨rfl, rfl, rfl⟩

theorem begin_begin (τ : Tries) (change : Change) :
    (τ.begin change).begin change = τ.begin change := by
  simp [begin]

theorem commit_begin (τ : Tries) (change : Change) :
    (τ.begin change).commit change = τ.commit change := by
  simp [begin, commit]

/-- A write that is begun and not committed is remembered. -/
theorem not_smooth_begin (τ : Tries) (change : Change) : ¬ (τ.begin change).Smooth :=
  fun hsmooth => List.cons_ne_nil _ _ hsmooth.2

end Tries

/-- The counts of the answered calls `tr`. -/
def triesOf (tr : List (Called Api)) : Tries := Monitor.after (fun τ c => τ.next c.1 c.2) {} tr

/-- The calls that leave the enactment and the counts alone. -/
def Op.inert : Op → Bool
  | .getEnactment .stored | .getEnactment (.update _) | .updateEnactmentStatus _ _
  | .createEnactment | .deleteEnactment | .updatePolicyStatus (.increment _) _
  | .applyDesiredState _ => false
  | _ => true

/-- A procedure of the handler of node `i`, counted, ends in `Q`. -/
abbrev Counts {α : Type} (cfg : Config) (i : NodeName) (proc : Proc α)
    (Q : α → Option EnactmentStatus → Tries → Prop) (own : Option EnactmentStatus) (τ : Tries) :
    Prop :=
  Follows (handlerEnv cfg i)
    (Monitor.observer (Option EnactmentStatus) fun τ c => τ.next c.1 c.2) proc Q own τ

section

variable {cfg : Config} {i : NodeName} {own : Option EnactmentStatus} {τ : Tries} {α : Type}
  {Q : α → Option EnactmentStatus → Tries → Prop}

theorem overlooked_inert :
    Overlooked (fun (τ : Tries) c => τ.next c.1 c.2) fun o => o.inert = true where
  own i o w r ho := by
    unfold World.after
    split <;> first
      | rfl
      | cases ho
  state τ o r ho := by
    show τ.next o r = τ
    unfold Tries.next
    split <;> first
      | rfl
      | cases ho

theorem inert_of_aloof {o : Op} (ho : o.aloof = true) : o.inert = true := by
  unfold Op.inert
  split <;> first
    | rfl
    | cases ho

/-- One call and what follows it. -/
theorem counts_ask {o : Op} {f : o.Resp → Proc α}
    (h : ∀ r w, w.enactments i = own → Truthful cfg i w o r →
      Counts cfg i (f r) Q ((w.after i o r).enactments i) (τ.next o r)) :
    Counts cfg i (ask o >>= f) Q own τ := observed_ask h

/-- An inert call and what follows it. -/
theorem counts_inert {o : Op} {f : o.Resp → Proc α} (ho : o.inert = true)
    (h : ∀ r w, w.enactments i = own → Truthful cfg i w o r → Counts cfg i (f r) Q own τ) :
    Counts cfg i (ask o >>= f) Q own τ := overlooked_inert.ask ho h

/-- A procedure about the policy and what follows it. -/
theorem counts_aloof {β : Type} {proc : Proc β} {f : β → Proc α} (hproc : Aloof proc)
    (h : ∀ b, Counts cfg i (f b) Q own τ) : Counts cfg i (proc >>= f) Q own τ :=
  overlooked_inert.only (hproc.mono fun _ => inert_of_aloof) h

/-- A claim tries for its generation only. -/
theorem counts_claim (policy : Policy) (key : Generation) :
    Counts cfg i (claimUnavailableSlot cfg policy key)
      (fun _ own' τ' => own' = own ∧ Tries.Trying key τ τ') own τ := by
  refine Follows.of_calls (I := fun own' τ' => own' = own ∧ Tries.Trying key τ τ')
    (claiming_claimUnavailableSlot cfg policy key) (fun _ _ => trivial) ?_
    ⟨rfl, (Tries.Quiet.refl τ).trying key⟩
  rintro o own' τ' r own'' ho ⟨rfl, htrying⟩ ⟨w, rfl, -, rfl⟩
  by_cases hclaim : ∃ p, o = .updatePolicyStatus (.increment key) p
  · obtain ⟨p, rfl⟩ := hclaim
    refine ⟨?_, htrying.key, htrying.failed, fun k hk => ?_⟩
    · rcases r with e | ⟨⟩ <;> rfl
    · exact (Function.update_of_ne hk ..).trans (htrying.tried k hk)
  · have haloof : o.aloof = true := by
      unfold Op.claims at ho
      split at ho
      · rename_i k p
        obtain rfl := of_decide_eq_true ho
        exact absurd ⟨p, rfl⟩ hclaim
      · exact ho
    have hnext : τ'.next o r = τ' := overlooked_inert.state τ' r (inert_of_aloof haloof)
    refine ⟨overlooked_inert.own i w r (inert_of_aloof haloof), ?_⟩
    show Tries.Trying key τ (τ'.next o r)
    rw [hnext]
    exact htrying

theorem counts_enactmentStatusUpdate (change : Change)
    (setter : Time → EnactmentStatus → EnactmentStatus) :
    Counts cfg i (enactmentStatusUpdate change setter) (fun r own' τ' =>
      (r = .ok () → ∃ e t, own = some e ∧ own' = some (setter t e) ∧ τ' = τ.commit change) ∧
      ∀ err, r = .error err → own' = own ∧ τ' = τ.begin change) own τ := by
  refine (follows_enactmentStatusUpdate (fun _ _ => rfl) (fun _ _ => rfl) (fun _ _ _ => rfl)
    (fun _ _ => rfl) (fun τ => τ.begin_begin change) setter).mono fun r own' τ' h => ⟨?_, h.2⟩
  intro hr
  obtain ⟨e, t, hown, hown', rfl⟩ := h.1 hr
  exact ⟨e, t, hown, hown', τ.commit_begin change⟩

end

/-! ## An attempt -/

/-- The stored enactment is at the generation `g` and has these counts. -/
def Carries (g : Generation) (counts : CountMap) (own : Option EnactmentStatus) : Prop :=
  ∃ e, own = some e ∧ e.policyGeneration = g ∧ e.retryCount = counts

/-- What is left of an enactment at `g` with these counts: no apply failed, or one did and it is
counted and reported. -/
inductive Attempt (cfg : Config) (g : Generation) (counts : CountMap) (τ : Tries)
    (own' : Option EnactmentStatus) (τ' : Tries) : Prop where
  | rests (hown : Carries g counts own') (htrying : Tries.Trying g τ τ')
  | fails (e : EnactmentStatus) (hown : own' = some e) (hgeneration : e.policyGeneration = g)
      (hcounts : e.retryCount = counts.put g (counts.get g + 1))
      (hretrying : isRetrying e.conditions = decide (counts.get g + 1 < cfg.retriesUntilFail))
      (hterminal : isTerminallyFailed e.conditions =
        decide (cfg.retriesUntilFail ≤ counts.get g + 1))
      (hfailed : τ'.failed = Tries.more τ.failed g)
      (htried : ∀ k, k ≠ g → τ'.tried k = τ.tried k)

section

variable {cfg : Config} {i : NodeName} {own : Option EnactmentStatus} {τ : Tries} {g : Generation}
  {counts : CountMap}

/-- A notification leaves the generation and the counts alone. -/
theorem counts_notify {n : Notice} {message : String} (hown : Carries g counts own) :
    Counts cfg i (notify n message) (fun _ own' τ' => Carries g counts own' ∧ Tries.Quiet τ τ' ∧
      (τ'.Smooth → ∃ e t, own = some e ∧
        own' = some { e with conditions := n.setter t e.conditions message })) own τ := by
  obtain ⟨e, rfl, hg, hcounts⟩ := hown
  refine (counts_enactmentStatusUpdate _ _).mono fun r own' τ' h => ?_
  rcases r with err | ⟨⟩
  · obtain ⟨rfl, rfl⟩ := h.2 err rfl
    exact ⟨⟨e, rfl, hg, hcounts⟩, τ.quiet_begin _,
      fun hsmooth => absurd hsmooth (τ.not_smooth_begin _)⟩
  · obtain ⟨e', t, he', rfl, rfl⟩ := h.1 rfl
    obtain rfl := Option.some.inj he'
    exact ⟨⟨_, rfl, hg, hcounts⟩, τ.quiet_commit _, fun _ => ⟨e, t, rfl, rfl⟩⟩

theorem Attempt.of_trying {τ₀ τ' : Tries} {own' : Option EnactmentStatus}
    (htrying : Tries.Trying g τ₀ τ) (h : Attempt cfg g counts τ own' τ') :
    Attempt cfg g counts τ₀ own' τ' := by
  cases h with
  | rests hown htrying' => exact .rests hown (htrying.trans htrying')
  | fails e hown hgeneration hcounts hretrying hterminal hfailed htried =>
    exact .fails e hown hgeneration hcounts hretrying hterminal
      (hfailed.trans (by rw [htrying.failed])) fun k hk => (htried k hk).trans (htrying.tried k hk)

/-- How the part of `Reconcile` after the early exits ends. -/
abbrev Attempts (cfg : Config) (i : NodeName) (g : Generation) (counts : CountMap)
    (proc : Proc Outcome) (own : Option EnactmentStatus) (τ : Tries) : Prop :=
  Counts cfg i proc (fun _ own' τ' => τ'.Smooth → Attempt cfg g counts τ own' τ') own τ

theorem attempts_of_trying {proc : Proc Outcome} {τ₀ : Tries} (htrying : Tries.Trying g τ₀ τ)
    (h : Attempts cfg i g counts proc own τ) :
    Counts cfg i proc (fun _ own' τ' => τ'.Smooth → Attempt cfg g counts τ₀ own' τ') own τ :=
  h.mono fun _ _ _ hend hsmooth => (hend hsmooth).of_trying htrying

theorem attempts_ret (outcome : Outcome) (hown : Carries g counts own) :
    Attempts cfg i g counts (.ret outcome) own τ :=
  fun _ => .rests hown ((Tries.Quiet.refl τ).trying g)

/-- A notification on the way. -/
theorem attempts_notify {n : Notice} {message : String} {f : Except Err Unit → Proc Outcome}
    (hown : Carries g counts own)
    (h : ∀ r own τ, Carries g counts own → Attempts cfg i g counts (f r) own τ) :
    Attempts cfg i g counts (notify n message >>= f) own τ := by
  refine (counts_notify hown).bind ?_
  rintro r own₁ τ₁ ⟨hown₁, hquiet, -⟩
  exact attempts_of_trying (hquiet.trying g) (h r own₁ τ₁ hown₁)

/-- The report of a failure that has been counted. -/
theorem counts_report {n : Notice} {message : String} {outcome : Outcome}
    (hown : Carries g counts own) :
    Counts cfg i (do let _ ← notify n message; return outcome) (fun _ own' τ' => τ'.Smooth →
      Tries.Quiet τ τ' ∧ ∃ e t c, own' = some e ∧ e.policyGeneration = g ∧ e.retryCount = counts ∧
        e.conditions = n.setter t c message) own τ := by
  refine (counts_notify hown).bind ?_
  rintro r own' τ' ⟨⟨e', hown', hg, hcounts⟩, hquiet, hwritten⟩ hsmooth
  obtain ⟨e, t, -, rfl⟩ := hwritten hsmooth
  obtain rfl := Option.some.inj hown'
  exact ⟨hquiet, _, t, e.conditions, rfl, hg, hcounts, rfl⟩

/-- A failed apply is counted and reported. -/
theorem counts_recordFailure {enactment : EnactmentStatus} (output : String) (err : Err)
    (hread : enactment.retryCount = counts) (hown : Carries g counts own) :
    Counts cfg i (recordFailure cfg i enactment g output err) (fun _ own' τ' => τ'.Smooth →
      Tries.Quiet τ τ' ∧ ∃ e, own' = some e ∧ e.policyGeneration = g ∧
        e.retryCount = counts.put g (counts.get g + 1) ∧
        isRetrying e.conditions = decide (counts.get g + 1 < cfg.retriesUntilFail) ∧
        isTerminallyFailed e.conditions = decide (cfg.retriesUntilFail ≤ counts.get g + 1))
      own τ := by
  subst hread
  obtain ⟨e, rfl, hg, hcounts⟩ := hown
  refine (counts_enactmentStatusUpdate _ _).bind fun r own₁ τ₁ h => ?_
  rcases r with err' | ⟨⟩
  · -- the count was not written
    obtain ⟨-, rfl⟩ := h.2 err' rfl
    exact fun hsmooth => absurd hsmooth (τ.not_smooth_begin _)
  obtain ⟨e', t, he', rfl, rfl⟩ := h.1 rfl
  obtain rfl := Option.some.inj he'
  have hown₁ : Carries g (enactment.retryCount.put g (enactment.retryCount.get g + 1))
      (some { e with
        retryCount := enactment.retryCount.put g (enactment.retryCount.get g + 1) }) :=
    ⟨_, rfl, hg, rfl⟩
  dsimp only
  split
  · rename_i hle
    refine (counts_report hown₁).mono fun _ own' τ' hend hsmooth => ?_
    obtain ⟨hquiet, e', t', c, hown', hg', hcounts', hconditions⟩ := hend hsmooth
    refine ⟨(τ.quiet_commit _).trans hquiet, e', hown', hg', hcounts', ?_, ?_⟩
    · rw [hconditions, Notice.isRetrying_setter]
      exact (decide_eq_false (Int.not_lt.mpr hle)).symm
    · rw [hconditions, Notice.isTerminallyFailed_setter]
      exact (decide_eq_true hle).symm
  · rename_i hle
    refine (counts_report hown₁).mono fun _ own' τ' hend hsmooth => ?_
    obtain ⟨hquiet, e', t', c, hown', hg', hcounts', hconditions⟩ := hend hsmooth
    refine ⟨(τ.quiet_commit _).trans hquiet, e', hown', hg', hcounts', ?_, ?_⟩
    · rw [hconditions, Notice.isRetrying_setter]
      exact (decide_eq_true (Int.not_le.mp hle)).symm
    · rw [hconditions, Notice.isTerminallyFailed_setter]
      exact (decide_eq_false hle).symm

/-- After an apply that succeeded no count changes. -/
theorem attempts_finishApplied (hown : Carries g counts own) :
    Attempts cfg i g counts (finishApplied g) own τ := by
  have hfinalizing : Counts cfg i (onError allErrors slotReleaseBackoff notifyFinalizing)
      (fun _ own' τ' => Carries g counts own' ∧ Tries.Quiet τ τ') own τ := by
    have hsteps : slotReleaseBackoff ≠ 0 := by decide
    refine (follows_onError (I := fun own' τ' => Carries g counts own' ∧ Tries.Quiet τ τ')
      (Q := fun own' τ' => Carries g counts own' ∧ Tries.Quiet τ τ') (R := fun _ _ _ => True) hsteps
      ?_ ⟨hown, .refl τ⟩).mono ?_
    · rintro own₁ τ₁ ⟨hown₁, hquiet₁⟩
      refine (counts_notify hown₁).mono fun _ own₂ τ₂ h => ?_
      have hkept := And.intro h.1 (hquiet₁.trans h.2.1)
      exact ⟨fun _ => hkept, fun _ _ => ⟨hkept, trivial⟩⟩
    · rintro (err | ⟨⟩) own' τ' h
      · exact (h.2 err rfl).1
      · exact h.1 rfl
  refine hfinalizing.bind ?_
  rintro r own₁ τ₁ ⟨hown₁, hquiet⟩
  refine attempts_of_trying (hquiet.trying g) ?_
  rcases r with err | ⟨⟩
  · exact attempts_ret _ hown₁
  refine counts_aloof (aloof_decrementUnavailableNodeCount g) fun r => ?_
  rcases r with err | ⟨⟩
  · exact attempts_ret _ hown₁
  refine attempts_notify hown₁ fun r own₂ τ₂ hown₂ => ?_
  rcases r with err | ⟨⟩
  · exact attempts_ret _ hown₂
  · exact counts_inert rfl fun _ _ _ _ => attempts_ret _ hown₂

theorem attempts_applyOnce {enactment : EnactmentStatus} (hread : enactment.retryCount = counts)
    (hkey : τ.key = g) (hown : Carries g counts own) :
    Attempts cfg i g counts (applyOnce cfg i enactment g) own τ := by
  subst hkey
  refine counts_ask fun r w hw _ => ?_
  have htried : ∀ k, k ≠ τ.key → Tries.more τ.tried τ.key k = τ.tried k :=
    fun k hk => Function.update_of_ne hk ..
  rw [show (w.after i (.applyDesiredState enactment.desiredState) r).enactments i = own from hw]
  rcases r with ⟨output, err⟩ | ⟨⟩
  · refine (counts_recordFailure output err hread hown).mono fun _ own' τ' hend hsmooth => ?_
    obtain ⟨hquiet, e, hown', hg, hcounts, hretrying, hterminal⟩ := hend hsmooth
    exact .fails e hown' hg hcounts hretrying hterminal hquiet.failed
      fun k hk => (congrFun hquiet.tried k).trans (htried k hk)
  · exact attempts_of_trying ⟨rfl, rfl, htried⟩ (attempts_finishApplied hown)

theorem attempts_applyMarked {enactment : EnactmentStatus} (policy : Policy) (didClaim : Bool)
    (hread : enactment.retryCount = counts) (hkey : τ.key = g) (hown : Carries g counts own) :
    Attempts cfg i g counts (applyMarked cfg i policy enactment g didClaim) own τ := by
  refine (counts_notify hown).bind ?_
  rintro r own₁ τ₁ ⟨hown₁, hquiet, -⟩
  refine attempts_of_trying (hquiet.trying g) ?_
  rcases r with err | ⟨⟩
  · dsimp only
    split
    · exact counts_aloof (aloof_tryDecrementing _ _ _) fun _ => attempts_ret _ hown₁
    · exact attempts_ret _ hown₁
  have hkey₁ : τ₁.key = g := hquiet.key.trans hkey
  dsimp only
  split
  · exact counts_aloof (aloof_policyConditionsUpdate cfg) fun _ =>
      attempts_applyOnce hread hkey₁ hown₁
  · exact attempts_applyOnce hread hkey₁ hown₁

theorem attempts_handleRefusedClaim (policy : Policy) (hown : Carries g counts own) :
    Attempts cfg i g counts (handleRefusedClaim i policy) own τ := by
  refine attempts_notify hown fun _ own₁ τ₁ hown₁ => ?_
  refine counts_aloof (aloof_shouldAbortReconcile policy) fun r => ?_
  rcases r with err | abort
  · exact attempts_ret _ hown₁
  · cases abort
    · exact attempts_ret _ hown₁
    · exact attempts_notify hown₁ fun _ own₂ τ₂ hown₂ => attempts_ret _ hown₂

theorem attempts_handleClaimError (policy : Policy) (err : Err) (hown : Carries g counts own) :
    Attempts cfg i g counts (handleClaimError i policy err) own τ := by
  cases err with
  | invalidMaxUnavailable text =>
    exact attempts_notify hown fun _ own₁ τ₁ hown₁ => attempts_ret _ hown₁
  | conflict => exact attempts_handleRefusedClaim policy hown
  | maxUnavailableLimitReached => exact attempts_handleRefusedClaim policy hown
  | _ => exact attempts_ret _ hown

theorem attempts_claimAndApply {enactment : EnactmentStatus} (policy : Policy)
    (previous : ConditionList) (hread : enactment.retryCount = counts) (hkey : τ.key = g)
    (hown : Carries g counts own) :
    Attempts cfg i g counts (claimAndApply cfg i policy previous enactment g) own τ := by
  unfold claimAndApply
  dsimp only
  split
  · refine (counts_claim policy g).bind ?_
    rintro ⟨policy, err | ⟨⟩⟩ own₁ τ₁ ⟨rfl, htrying⟩
    · exact attempts_of_trying htrying (attempts_handleClaimError policy err hown)
    · exact attempts_of_trying htrying
        (attempts_applyMarked policy true hread (htrying.key.trans hkey) hown)
  · exact attempts_applyMarked policy false hread hkey hown

theorem attempts_releaseAvailable (hown : Carries g counts own) :
    Attempts cfg i g counts (releaseAvailable cfg) own τ := by
  refine counts_aloof (aloof_releaseUnavailableSlotByAudit cfg) fun r => ?_
  rcases r with err | ⟨⟩
  · exact attempts_ret _ hown
  · exact attempts_ret _ hown

theorem attempts_finalizeInterruptedApply (hown : Carries g counts own) :
    Attempts cfg i g counts (finalizeInterruptedApply cfg) own τ := by
  refine attempts_notify hown fun r own₁ τ₁ hown₁ => ?_
  rcases r with err | ⟨⟩
  · exact attempts_ret _ hown₁
  refine counts_aloof (aloof_releaseUnavailableSlotByAudit cfg) fun r => ?_
  rcases r with err | ⟨⟩
  · exact attempts_ret _ hown₁
  · exact counts_inert rfl fun _ _ _ _ => attempts_ret _ hown₁

end

/-! ## A round -/

/-- `RetryCount[k]` of the stored enactment. -/
def retryEntry (own : Option EnactmentStatus) (k : Generation) : ℤ :=
  match own with
  | some e => e.retryCount.get k
  | none => 0

/-- **What one reconcile does to the counts**: nothing, without a try for a generation that is
used up; or one more failure of a generation that was not. -/
inductive Round (cfg : Config) (own : Option EnactmentStatus) (τ : Tries)
    (own' : Option EnactmentStatus) (τ' : Tries) : Prop where
  | level (hentry : ∀ k, retryEntry own' k = retryEntry own k) (hfailed : τ'.failed = τ.failed)
      (htried : ∀ k, cfg.retriesUntilFail ≤ retryEntry own k → τ'.tried k = τ.tried k)
  | failure (g : Generation) (e : EnactmentStatus) (hlt : retryEntry own g < cfg.retriesUntilFail)
      (hown : own' = some e) (hgeneration : e.policyGeneration = g)
      (hentry : retryEntry own' g = retryEntry own g + 1)
      (hothers : ∀ k, k ≠ g → retryEntry own' k = retryEntry own k)
      (hretrying : isRetrying e.conditions = decide (retryEntry own' g < cfg.retriesUntilFail))
      (hterminal : isTerminallyFailed e.conditions =
        decide (cfg.retriesUntilFail ≤ retryEntry own' g))
      (hfailed : τ'.failed = Tries.more τ.failed g)
      (htried : ∀ k, k ≠ g → τ'.tried k = τ.tried k)

/-- Neither the counts of the enactment nor those of the observer have changed. -/
structure Still (own : Option EnactmentStatus) (τ : Tries) (own' : Option EnactmentStatus)
    (τ' : Tries) : Prop where
  entry : ∀ k, retryEntry own' k = retryEntry own k
  failed : τ'.failed = τ.failed
  tried : τ'.tried = τ.tried

section

variable {cfg : Config} {i : NodeName} {own own₁ own' : Option EnactmentStatus} {τ τ₁ τ' : Tries}

theorem Still.refl (own : Option EnactmentStatus) (τ : Tries) : Still own τ own τ :=
  ⟨fun _ => rfl, rfl, rfl⟩

theorem Still.trans (h : Still own τ own₁ τ₁) (h' : Still own₁ τ₁ own' τ') : Still own τ own' τ' :=
  ⟨fun k => (h'.entry k).trans (h.entry k), h'.failed.trans h.failed, h'.tried.trans h.tried⟩

theorem Still.round (h : Still own τ own' τ') : Round cfg own τ own' τ' :=
  .level h.entry h.failed fun k _ => congrFun h.tried k

theorem Round.of_still (h : Still own τ own₁ τ₁) (hround : Round cfg own₁ τ₁ own' τ') :
    Round cfg own τ own' τ' := by
  cases hround with
  | level hentry hfailed htried =>
    refine .level (fun k => (hentry k).trans (h.entry k)) (hfailed.trans h.failed) fun k hk => ?_
    rw [← h.entry] at hk
    exact (htried k hk).trans (congrFun h.tried k)
  | failure g e hlt hown hgeneration hentry hothers hretrying hterminal hfailed htried =>
    rw [h.entry] at hlt hentry
    exact .failure g e hlt hown hgeneration hentry (fun k hk => (hothers k hk).trans (h.entry k))
      hretrying hterminal (by rw [hfailed, h.failed])
      fun k hk => (htried k hk).trans (congrFun h.tried k)

/-- An attempt on an enactment that is not used up is a round. -/
theorem Attempt.round {e : EnactmentStatus}
    (hlt : e.retryCount.get e.policyGeneration < cfg.retriesUntilFail)
    (h : Attempt cfg e.policyGeneration e.retryCount τ own' τ') :
    Round cfg (some e) τ own' τ' := by
  cases h with
  | rests hown htrying =>
    obtain ⟨e', rfl, hg, hcounts⟩ := hown
    refine .level (fun k => ?_) htrying.failed fun k hk => htrying.tried k ?_
    · show e'.retryCount.get k = e.retryCount.get k
      rw [hcounts]
    · rintro rfl
      exact absurd hlt (Int.not_lt.mpr hk)
  | fails e' hown hgeneration hcounts hretrying hterminal hfailed htried =>
    subst hown
    have hentry : retryEntry (some e') e.policyGeneration =
        retryEntry (some e) e.policyGeneration + 1 := by
      show e'.retryCount.get e.policyGeneration = _
      rw [hcounts, CountMap.get_put_self]
      rfl
    refine .failure e.policyGeneration e' hlt rfl hgeneration hentry (fun k hk => ?_) ?_ ?_ hfailed
      htried
    · show e'.retryCount.get k = _
      rw [hcounts, CountMap.get_put_of_ne _ _ hk]
      rfl
    · rw [hentry]
      exact hretrying
    · rw [hentry]
      exact hterminal

end

/-! ## A reconcile -/

section

variable {cfg : Config} {i : NodeName} {own : Option EnactmentStatus} {τ : Tries}

/-- A status write that keeps the counts. -/
theorem still_enactmentStatusUpdate (change : Change)
    (setter : Time → EnactmentStatus → EnactmentStatus)
    (hsetter : ∀ t e, (setter t e).retryCount = e.retryCount) :
    Counts cfg i (enactmentStatusUpdate change setter) (fun _ own' τ' => Still own τ own' τ') own
      τ := by
  refine (counts_enactmentStatusUpdate _ _).mono fun r own' τ' h => ?_
  rcases r with err | ⟨⟩
  · obtain ⟨rfl, rfl⟩ := h.2 err rfl
    exact ⟨fun _ => rfl, rfl, rfl⟩
  · obtain ⟨e, t, rfl, rfl, rfl⟩ := h.1 rfl
    refine ⟨fun k => ?_, rfl, rfl⟩
    show (setter t e).retryCount.get k = e.retryCount.get k
    rw [hsetter]

theorem still_notify (n : Notice) (message : String) :
    Counts cfg i (notify n message) (fun _ own' τ' => Still own τ own' τ') own τ :=
  still_enactmentStatusUpdate _ _ fun _ _ => rfl

/-- A new enactment has no counts. -/
theorem still_createEnactment : Counts cfg i createEnactment
    (fun _ own' τ' => own = none → Still own τ own' τ') own τ := by
  have hstop : own = none → Still own τ own τ := fun _ => .refl own τ
  refine counts_inert rfl fun r _ _ _ => ?_
  rcases r with err | fresh
  · exact hstop
  refine counts_aloof (aloof_unmatchedNodeLabels fresh) fun r => ?_
  rcases r with err | _ | ⟨label, missing⟩
  · exact hstop
  rotate_left
  · exact hstop
  refine counts_inert rfl fun r _ _ _ => ?_
  rcases r with err | labels
  · exact hstop
  refine counts_inert rfl fun created _ _ _ => counts_ask fun r w hw _ => ?_
  rcases r with err | ⟨⟩
  · intro hnone
    rw [show (w.after i .createEnactment (.error err)).enactments i = own from hw]
    exact .refl own τ
  rw [show (w.after i .createEnactment (.ok ())).enactments i = some {} from
    World.setEnactment_self _ _ _]
  -- the stored status is empty until it is written for the first time
  have hcreated : own = none → Still own τ (some {}) τ := by
    rintro rfl
    exact ⟨fun _ => rfl, rfl, rfl⟩
  refine counts_aloof (aloof_waitEnactmentCreated _) fun r => ?_
  rcases r with err | ⟨⟩
  · exact hcreated
  refine (counts_enactmentStatusUpdate _ _).bind fun r own₁ τ₁ h => ?_
  rcases r with err | ⟨⟩
  · obtain ⟨rfl, rfl⟩ := h.2 err rfl
    exact fun hnone => (hcreated hnone).trans ⟨fun _ => rfl, rfl, rfl⟩
  obtain ⟨e, t, -, rfl, rfl⟩ := h.1 rfl
  refine counts_inert (f := fun r => .ret r) rfl fun r _ _ _ hnone => ?_
  exact (hcreated hnone).trans ⟨fun _ => rfl, rfl, rfl⟩

theorem still_initializeEnactment : Counts cfg i initializeEnactment
    (fun _ own' τ' => Still own τ own' τ') own τ := by
  refine counts_inert rfl fun r w hw ht => ?_
  rcases r with err | e
  · cases err with
    | notFound =>
      have hnone : own = none := hw.symm.trans (ht rfl)
      exact still_createEnactment.mono fun _ _ _ h => h hnone
    | _ => exact .refl own τ
  · exact .refl own τ

theorem still_fillInEnactmentStatus (policy : Policy) (enactment : EnactmentStatus) :
    Counts cfg i (fillInEnactmentStatus cfg policy enactment)
      (fun _ own' τ' => Still own τ own' τ') own τ := by
  refine counts_inert rfl fun r _ _ _ => ?_
  rcases r with err | current
  · exact .refl own τ
  refine counts_inert rfl fun r _ _ _ => ?_
  rcases r with err | ⟨captured, generated⟩
  · have hreset : Counts cfg i (enactmentStatusUpdate .resetGeneration fun _ status =>
        resetPolicyGeneration status policy.generation)
        (fun _ own' τ' => Still own τ own' τ') own τ :=
      still_enactmentStatusUpdate _ _ fun _ _ => rfl
    refine hreset.bind fun r own₁ τ₁ h₁ => ?_
    rcases r with err' | ⟨⟩
    · exact h₁
    · exact (still_notify _ _).bind fun _ own₂ τ₂ h₂ => h₁.trans h₂
  · dsimp only
    split
    · exact .refl own τ
    · exact counts_inert rfl fun stats _ _ _ => still_enactmentStatusUpdate _ _ fun _ _ => rfl

/-- A procedure that makes a round. -/
abbrev Rounds (cfg : Config) (i : NodeName) (proc : Proc Outcome) (own : Option EnactmentStatus)
    (τ : Tries) : Prop :=
  Counts cfg i proc (fun _ own' τ' => τ'.Smooth → Round cfg own τ own' τ') own τ

theorem rounds_ret (outcome : Outcome) : Rounds cfg i (.ret outcome) own τ :=
  fun _ => (Still.refl own τ).round

theorem rounds_of_still {proc : Proc Outcome} {own₀ : Option EnactmentStatus} {τ₀ : Tries}
    (hstill : Still own₀ τ₀ own τ) (h : Rounds cfg i proc own τ) :
    Counts cfg i proc (fun _ own' τ' => τ'.Smooth → Round cfg own₀ τ₀ own' τ') own τ :=
  h.mono fun _ _ _ hround hsmooth => (hround hsmooth).of_still hstill

/-- An attempt on an enactment with retries left. -/
theorem rounds_of_attempts {proc : Proc Outcome} {e : EnactmentStatus} {τ₀ : Tries}
    (hlt : e.retryCount.get e.policyGeneration < cfg.retriesUntilFail)
    (hstill : Still (some e) τ₀ (some e) τ)
    (h : Attempts cfg i e.policyGeneration e.retryCount proc (some e) τ) :
    Counts cfg i proc (fun _ own' τ' => τ'.Smooth → Round cfg (some e) τ₀ own' τ') (some e) τ :=
  h.mono fun _ _ _ hend hsmooth => ((hend hsmooth).round hlt).of_still hstill

/-- The exit that deletes the enactment. -/
theorem rounds_delete : Rounds cfg i (do
    let r ← deleteEnactmentForPolicy
    return (({}, errorOf r) : Outcome)) own τ := by
  refine counts_ask fun r w hw _ => ?_
  rcases r with err | ⟨⟩
  · rw [show (w.after i .deleteEnactment (.error err)).enactments i = own from hw]
    cases err with
    | _ => exact rounds_ret _
  · intro hsmooth
    have hdeleted : true = false := hsmooth.1
    cases hdeleted

theorem rounds_reconcileEnactment (policy : Policy) (previous : ConditionList) :
    Rounds cfg i (reconcileEnactment cfg i policy previous) own τ := by
  refine counts_ask fun r w hw ht => ?_
  rw [show (w.after i (.getEnactment .stored) r).enactments i = own from hw]
  rcases r with err | e
  · exact rounds_ret _
  obtain rfl : own = some e := hw.symm.trans ht
  have hstill : Still (some e) τ (some e) { τ with key := e.policyGeneration } :=
    ⟨fun _ => rfl, rfl, rfl⟩
  have hown : Carries e.policyGeneration e.retryCount (some e) := ⟨e, rfl, rfl, rfl⟩
  refine counts_inert rfl fun r _ _ ht => ?_
  rcases r with err | fresh
  · cases err with
    | notFound => exact absurd ht (by simp [Truthful, Err.injected])
    | _ => exact rounds_of_still hstill (rounds_ret _)
  dsimp only
  split
  · exact rounds_of_still hstill (rounds_ret _)
  have hlt := Int.not_le.mp ‹_›
  split
  · exact rounds_of_attempts hlt hstill (attempts_releaseAvailable hown)
  · split
    · exact rounds_of_attempts hlt hstill (attempts_finalizeInterruptedApply hown)
    · exact rounds_of_attempts hlt hstill (attempts_claimAndApply policy previous rfl rfl hown)

theorem counts_unmatchedNodeLabels (policy : Policy) :
    Counts cfg i (unmatchedNodeLabels .cached policy) (fun _ own' τ' => own' = own ∧ τ' = τ) own
      τ := by
  refine counts_inert rfl fun r _ _ _ => ?_
  rcases r with err | labels
  · exact ⟨rfl, rfl⟩
  · exact ⟨rfl, rfl⟩

theorem rounds_reconcileInstance (policy : Policy) :
    Rounds cfg i (reconcileInstance cfg i policy) own τ := by
  refine (counts_unmatchedNodeLabels policy).bind ?_
  rintro (err | _ | ⟨label, missing⟩) own₁ τ₁ ⟨rfl, rfl⟩
  · exact rounds_ret _
  rotate_left
  · exact rounds_delete
  refine still_initializeEnactment.bind fun r own₂ τ₂ h₂ => ?_
  rcases r with err | enactment
  · exact fun _ => h₂.round
  refine (still_fillInEnactmentStatus policy enactment).bind fun r own₃ τ₃ h₃ => ?_
  rcases r with err | ⟨⟩
  · cases err with
    | _ => exact fun _ => (h₂.trans h₃).round
  · exact rounds_of_still (h₂.trans h₃) (rounds_reconcileEnactment policy _)

/-- **Every reconcile is a round.** -/
theorem rounds_reconcile : Rounds cfg i (reconcile cfg i) own τ := by
  refine counts_inert rfl fun r _ _ ht => ?_
  rcases r with err | policy
  · cases err with
    | notFound => exact absurd ht (by simp [Truthful, Err.injected])
    | _ => exact rounds_ret _
  have hinstance : Rounds cfg i (reconcileAndUpdate cfg i policy) own τ := by
    refine (rounds_reconcileInstance policy).bind fun outcome own₁ τ₁ hround => ?_
    exact counts_aloof (aloof_policyConditionsUpdate cfg) fun _ => hround
  dsimp only
  split
  · exact counts_aloof aloof_policyConditionsReset fun _ => hinstance
  · exact hinstance

end

/-! ## Runs -/

/-- The reconciles of one node, one after the other, from the stored enactment `own₀`: the answered
calls so far and the enactment they leave.  The handler is not restarted, every status write of a
reconcile is committed before it ends, and the enactment is not deleted. -/
inductive Reconciles (cfg : Config) (i : NodeName) (own₀ : Option EnactmentStatus) :
    List (Called Api) → Option EnactmentStatus → Prop where
  | start : Reconciles cfg i own₀ [] own₀
  | reconcile {tr tr' : List (Called Api)} {own own' : Option EnactmentStatus} {outcome : Outcome}
      (h : Reconciles cfg i own₀ tr own)
      (hx : Exec (handlerEnv cfg i) (reconcile cfg i) own tr' outcome own')
      (hsmooth : (triesOf (tr ++ tr')).Smooth) : Reconciles cfg i own₀ (tr ++ tr') own'

section

variable {cfg : Config} {i : NodeName} {own₀ own own' : Option EnactmentStatus}
  {tr tr' : List (Called Api)} {outcome : Outcome} {g : Generation}

/-- The next reconcile of a run is a round. -/
theorem round_of_exec (hx : Exec (handlerEnv cfg i) (reconcile cfg i) own tr' outcome own')
    (hsmooth : (triesOf (tr ++ tr')).Smooth) :
    Round cfg own (triesOf tr) own' (triesOf (tr ++ tr')) := by
  have happend : triesOf (tr ++ tr') =
      Monitor.after (fun τ c => τ.next c.1 c.2) (triesOf tr) tr' := List.foldl_append
  rw [happend] at hsmooth ⊢
  exact rounds_reconcile.exec hx hsmooth

/-- A round counts what has failed. -/
theorem Round.counted {τ τ' : Tries} (h : Round cfg own τ own' τ') (k : Generation) :
    retryEntry own' k - τ'.failed k = retryEntry own k - τ.failed k := by
  cases h with
  | level hentry hfailed htried => rw [hentry, hfailed]
  | failure g e hlt hown hgeneration hentry hothers hretrying hterminal hfailed htried =>
    rw [hfailed, Tries.more]
    by_cases hk : k = g
    · subst hk
      rw [hentry, Function.update_self]
      push_cast
      omega
    · rw [hothers k hk, Function.update_of_ne hk]

/-- A round does not go beyond the limit. -/
theorem Round.bounded {τ τ' : Tries} (h : Round cfg own τ own' τ')
    (hle : retryEntry own g ≤ cfg.retriesUntilFail) : retryEntry own' g ≤ cfg.retriesUntilFail := by
  cases h with
  | level hentry hfailed htried =>
    rw [hentry]
    exact hle
  | failure g' e hlt hown hgeneration hentry hothers hretrying hterminal hfailed htried =>
    by_cases hg : g = g'
    · subst hg
      omega
    · rw [hothers g hg]
      exact hle

/-- A round of a generation that is used up tries nothing for it. -/
theorem Round.tried_eq {τ τ' : Tries} (h : Round cfg own τ own' τ')
    (hused : cfg.retriesUntilFail ≤ retryEntry own g) : τ'.tried g = τ.tried g := by
  cases h with
  | level hentry hfailed htried => exact htried g hused
  | failure g' e hlt hown hgeneration hentry hothers hretrying hterminal hfailed htried =>
    refine htried g ?_
    rintro rfl
    omega

/-- After a failure of `g` the enactment is at `g`, and retrying or terminally failed. -/
theorem Round.reported {τ τ' : Tries} (h : Round cfg own τ own' τ')
    (hfails : τ.failed g ≠ τ'.failed g) : τ'.failed g = τ.failed g + 1 ∧
      ∃ e, own' = some e ∧ e.policyGeneration = g ∧
        isRetrying e.conditions = decide (retryEntry own' g < cfg.retriesUntilFail) ∧
        isTerminallyFailed e.conditions = decide (cfg.retriesUntilFail ≤ retryEntry own' g) := by
  cases h with
  | level hentry hfailed htried =>
    rw [hfailed] at hfails
    exact absurd rfl hfails
  | failure g' e hlt hown hgeneration hentry hothers hretrying hterminal hfailed htried =>
    rw [hfailed, Tries.more] at hfails ⊢
    by_cases hg : g = g'
    · subst hg
      exact ⟨Function.update_self .., e, hown, hgeneration, hretrying, hterminal⟩
    · rw [Function.update_of_ne hg] at hfails
      exact absurd rfl hfails

theorem Reconciles.counted (h : Reconciles cfg i own₀ tr own) (k : Generation) :
    retryEntry own k = retryEntry own₀ k + (triesOf tr).failed k := by
  induction h with
  | start => exact (Int.add_zero _).symm
  | reconcile _ hx hsmooth ih =>
    have hround := (round_of_exec hx hsmooth).counted k
    omega

theorem Reconciles.bounded (h : Reconciles cfg i own₀ tr own)
    (hle : retryEntry own₀ g ≤ cfg.retriesUntilFail) : retryEntry own g ≤ cfg.retriesUntilFail := by
  induction h with
  | start => exact hle
  | reconcile _ hx hsmooth ih => exact (round_of_exec hx hsmooth).bounded ih

end

/-- **Bounded retries.**  From an enactment without a count for `g`, over any reconciles of the
node: at most `RetriesUntilFail` applies fail for `g` and `RetryCount[g]` is their number; an entry
changes only by failed applies of its generation; a reconcile in which an apply fails leaves the
enactment retrying, or terminally failed if the apply was the last one allowed; and once that many
have failed, no further reconcile applies or claims for `g`. -/
theorem retries_bounded {cfg : Config} {i : NodeName} {g : Generation}
    {own₀ own : Option EnactmentStatus} {tr : List (Called Api)} (hN : 1 ≤ cfg.retriesUntilFail)
    (hstart : retryEntry own₀ g = 0) (hrun : Reconciles cfg i own₀ tr own) :
    (triesOf tr).failed g ≤ cfg.retriesUntilFail ∧
    retryEntry own g = (triesOf tr).failed g ∧
    (∀ k, (triesOf tr).failed k = 0 → retryEntry own k = retryEntry own₀ k) ∧
    ∀ tr' outcome own', Exec (handlerEnv cfg i) (reconcile cfg i) own tr' outcome own' →
      (triesOf (tr ++ tr')).Smooth →
      ((triesOf tr).failed g ≠ (triesOf (tr ++ tr')).failed g →
        (triesOf (tr ++ tr')).failed g = (triesOf tr).failed g + 1 ∧
        ∃ e, own' = some e ∧ e.policyGeneration = g ∧
          isRetrying e.conditions =
            decide ((triesOf (tr ++ tr')).failed g < cfg.retriesUntilFail) ∧
          isTerminallyFailed e.conditions =
            decide ((triesOf (tr ++ tr')).failed g = cfg.retriesUntilFail)) ∧
      ((triesOf tr).failed g = cfg.retriesUntilFail →
        (triesOf (tr ++ tr')).tried g = (triesOf tr).tried g) := by
  have hcounted := hrun.counted g
  have hbounded := hrun.bounded (g := g) (by omega)
  refine ⟨by omega, by omega, fun k hk => ?_, fun tr' outcome own' hx hsmooth => ⟨?_, ?_⟩⟩
  · have hentry := hrun.counted k
    omega
  · intro hfails
    have hround := round_of_exec hx hsmooth
    obtain ⟨hnext, e, hown, hgeneration, hretrying, hterminal⟩ := hround.reported hfails
    -- the stored count is the number of failures, and not above the limit
    have hentry : retryEntry own' g = (triesOf (tr ++ tr')).failed g := by
      have := hround.counted g
      omega
    have hle := hround.bounded hbounded
    refine ⟨hnext, e, hown, hgeneration, by rw [hretrying, hentry], ?_⟩
    rw [hterminal, decide_eq_decide]
    omega
  · intro hused
    exact (round_of_exec hx hsmooth).tried_eq (by omega)

/-- With two attempts per generation, the first apply of a new enactment fails and is retried. -/
theorem retries_bounded_node01 : ∃ tr outcome own',
    Exec (handlerEnv twoNodes "node01") (reconcile twoNodes "node01")
      (some (newEnactmentStatus 1000)) tr outcome own' ∧
    (triesOf tr).failed 1 = 1 ∧ ∃ e, own' = some e ∧ isRetrying e.conditions = true := by
  obtain ⟨tr, outcome, w', hx, hP⟩ := exists_served twoNodes "node01" applyDenied
    (reconcile twoNodes "node01") freshSys.world
    (fun tr _ _ => (triesOf tr).Smooth && (triesOf tr).failed 1 = 1) (by decide +kernel)
  simp only [Bool.and_eq_true, decide_eq_true_eq] at hP
  obtain ⟨hsmooth, hfailed⟩ := hP
  have hx := Exec.own hx
  have hretries := (retries_bounded (g := 1) (by decide) rfl .start).2.2.2 tr outcome _ hx hsmooth
  have hfails : (triesOf []).failed 1 ≠ (triesOf ([] ++ tr)).failed 1 := by
    rw [List.nil_append, hfailed]
    decide
  obtain ⟨-, e, hown, -, hretrying, -⟩ := hretries.1 hfails
  rw [List.nil_append, hfailed] at hretrying
  exact ⟨tr, outcome, _, hx, hfailed, e, hown, hretrying⟩
