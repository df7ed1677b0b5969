/-
# What the procedures leave alone

Rules for the retried bodies of the handler, and frames: which calls a procedure can make,
whatever it is answered.  Most of the handler is about the policy and never touches the
enactment of its node (`Aloof`); a claim makes such calls and updates of the counter.  An
observer that overlooks these calls has nothing to say about them (`Overlooked.only`), so the
modules that follow one aspect of a reconcile only look at the calls that are left.
-/
import KubernetesNmstate.Reconcile

/-! ## Rules for retried bodies -/

section Retry

variable {W Φ : Type} {env : Env Api W} {m : Monitor Api W Φ}

/-- The first attempt, and what follows it. -/
theorem onError_succ (retriable : Err → Bool) (n : ℕ) (body : Proc (Except Err Unit)) :
    onError retriable (n + 1) body = do
      match ← body with
      | .ok () => return .ok ()
      | .error e =>
        if retriable e = true ∧ n ≠ 0 then onError retriable n body else return .error e := by
  unfold onError
  rw [Prog.retryWith, Prog.bind_assoc, Prog.bind_assoc]
  congr 1
  funext r
  rcases r with e | ⟨⟩
  · show ((if retriable e = true ∧ n ≠ 0 then Prog.retryWith retriable _ n () else
      pure ((), .error e) : Proc (Unit × Except Err Unit)) >>= fun r => pure r.2) =
      if retriable e = true ∧ n ≠ 0 then _ else pure (.error e)
    split <;> rfl
  · rfl

/-- The retry rule for a body without state, attempt by attempt. -/
theorem follows_onError_steps {retriable : Err → Bool} {steps : ℕ} {body : Proc (Except Err Unit)}
    {I : ℕ → W → Φ → Prop} {Q : W → Φ → Prop} (hsteps : steps ≠ 0)
    (hbody : ∀ n w φ, I (n + 1) w φ → Follows env m body (fun r w φ => (r = .ok () → Q w φ) ∧
      ∀ e, r = .error e → I n w φ) w φ) {w : W} {φ : Φ} (hI : I steps w φ) :
    Follows env m (onError retriable steps body) (fun r w φ => (r = .ok () → Q w φ) ∧
      ∀ e, r = .error e → ∃ left, I left w φ) w φ := by
  unfold onError
  refine (Follows.retrySteps (I := fun n _ => I n) (Q := fun _ => Q) (R := fun _ _ _ => True)
    ?_ hsteps hI).bind fun r w φ h => ⟨h.1, fun e he => (h.2 e he).1⟩
  exact fun n _ w φ h => (hbody n w φ h).bind fun r w φ h =>
    ⟨h.1, fun e he => ⟨h.2 e he, trivial⟩⟩

/-- The retry rule for a body without state. -/
theorem follows_onError {retriable : Err → Bool} {steps : ℕ} {body : Proc (Except Err Unit)}
    {I Q : W → Φ → Prop} {R : Err → W → Φ → Prop} (hsteps : steps ≠ 0)
    (hbody : ∀ w φ, I w φ → Follows env m body (fun r w φ => (r = .ok () → Q w φ) ∧
      ∀ e, r = .error e → I w φ ∧ R e w φ) w φ) {w : W} {φ : Φ} (hI : I w φ) :
    Follows env m (onError retriable steps body) (fun r w φ => (r = .ok () → Q w φ) ∧
      ∀ e, r = .error e → I w φ ∧ R e w φ) w φ := by
  unfold onError
  refine (Follows.retryWith (I := fun _ => I) (Q := fun _ => Q) (R := R) ?_ hsteps hI).bind
    fun r w φ h => h
  exact fun _ w φ h => (hbody w φ h).bind fun r w φ h => h

/-- The frame of a retried body without state. -/
theorem only_onError {C : Op → Prop} {retriable : Err → Bool} {steps : ℕ}
    {body : Proc (Except Err Unit)} (hbody : body.Only C) :
    (onError retriable steps body).Only C := by
  unfold onError
  refine (Prog.Only.retryWith (fun _ => ?_) steps ()).bind fun _ => trivial
  exact hbody.bind fun _ => trivial

end Retry

/-! ## Calls about the policy -/

/-- The calls of the audit, the release and the verdict: they are about the policy, and none of
them claims a slot. -/
def Op.aloof : Op → Bool
  | .getPolicy _ _ | .listEnactments | .listNodes _ | .listPods | .now | .getEnactment .wait
  | .getNodeLabels .api => true
  | .updatePolicyStatus (.increment _) _ => false
  | .updatePolicyStatus _ _ => true
  | _ => false

/-- A procedure made of such calls. -/
abbrev Aloof {α : Type} (proc : Proc α) : Prop :=
  Prog.Only (S := Api) (fun o : Op => o.aloof = true) proc

/-- The calls of a claim for the generation `key`. -/
def Op.claims (key : Generation) : Op → Bool
  | .updatePolicyStatus (.increment k) _ => k = key
  | o => o.aloof

/-- A procedure made of such calls. -/
abbrev Claiming {α : Type} (key : Generation) (proc : Proc α) : Prop :=
  Prog.Only (S := Api) (fun o : Op => o.claims key = true) proc

theorem Op.claims_of_aloof (key : Generation) {o : Op} (h : o.aloof = true) :
    o.claims key = true := by
  unfold Op.claims
  split
  · cases h
  · exact h

/-! ## Procedures that keep aloof from the enactment -/

section

variable {α : Type}

theorem aloof_ask {o : Op} {f : o.Resp → Proc α} (ho : o.aloof = true)
    (hf : ∀ r, Aloof (f r)) : Aloof (ask o >>= f) :=
  Prog.Only.bind (.perform ho) hf

theorem aloof_maxUnavailableNodeCount (policy : Policy) :
    Aloof (maxUnavailableNodeCount policy) := by
  refine aloof_ask rfl fun r => ?_
  rcases r with err | ⟨enactments, t⟩ <;> trivial

theorem aloof_tryDecrementing (reader : Client) (key : Generation) (backoff : ℕ) :
    Aloof (tryDecrementingUnavailableNodeCount reader key backoff) := by
  refine only_onError (aloof_ask rfl fun r => ?_)
  rcases r with err | policy
  · trivial
  · dsimp only
    split
    · trivial
    · exact aloof_ask rfl fun now => .perform rfl

theorem aloof_decrementUnavailableNodeCount (key : Generation) :
    Aloof (decrementUnavailableNodeCount key) := by
  refine (aloof_tryDecrementing _ _ _).bind fun r => ?_
  rcases r with err | ⟨⟩
  · exact aloof_tryDecrementing _ _ _
  · trivial

theorem aloof_auditUnavailableSlots (cfg : Config) :
    Aloof (auditUnavailableSlots cfg) := by
  refine Prog.Only.retryWith (fun _ => aloof_ask rfl fun r => ?_) _ _
  rcases r with err | policy
  · trivial
  have hgrace : Aloof (graceElapsed policy) := by
    unfold graceElapsed
    split
    · trivial
    · exact aloof_ask rfl fun _ => trivial
  refine hgrace.bind fun elapsed => ?_
  split
  · trivial
  · dsimp only
    split
    · trivial
    · refine aloof_ask rfl fun r => ?_
      rcases r with err | ⟨enactments, now⟩
      · trivial
      · dsimp only
        split
        · trivial
        · refine aloof_ask rfl fun now => aloof_ask rfl fun r => ?_
          rcases r with err | ⟨⟩ <;> trivial

theorem aloof_releaseUnavailableSlotByAudit (cfg : Config) :
    Aloof (releaseUnavailableSlotByAudit cfg) :=
  only_onError ((aloof_auditUnavailableSlots cfg).bind fun _ => trivial)

theorem aloof_shouldAbortReconcile (policy : Policy) :
    Aloof (shouldAbortReconcile policy) := by
  refine (aloof_maxUnavailableNodeCount policy).bind fun r => ?_
  obtain ⟨cap, _ | err⟩ := r
  · refine aloof_ask rfl fun r => ?_
    rcases r with err | ⟨enactments, t⟩
    · trivial
    · dsimp only
      split <;> trivial
  · trivial

theorem aloof_policyConditionsUpdateWith (cfg : Config) (reader : Client) :
    Aloof (policyConditionsUpdateWith cfg reader) := by
  refine only_onError (aloof_ask rfl fun r => ?_)
  rcases r with err | policy
  · trivial
  refine aloof_ask rfl fun r => ?_
  rcases r with err | ⟨enactments, t⟩
  · trivial
  have hnodes : Aloof (nodesRunningNmstate cfg policy.spec.nodeSelector) := by
    refine aloof_ask rfl fun r => ?_
    rcases r with err | nodes
    · trivial
    · dsimp only
      split
      · trivial
      · refine aloof_ask rfl fun r => ?_
        rcases r with err | pods <;> trivial
  refine hnodes.bind fun r => ?_
  rcases r with err | nodes
  · trivial
  · exact aloof_ask rfl fun now => .perform rfl

theorem aloof_policyConditionsUpdate (cfg : Config) :
    Aloof (policyConditionsUpdate cfg) := by
  refine (aloof_policyConditionsUpdateWith cfg _).bind fun r => ?_
  rcases r with err | ⟨⟩
  · exact aloof_policyConditionsUpdateWith cfg _
  · trivial

theorem aloof_policyConditionsReset : Aloof policyConditionsReset := by
  refine only_onError (aloof_ask rfl fun r => ?_)
  rcases r with err | policy
  · trivial
  · exact aloof_ask rfl fun now => .perform rfl

theorem aloof_unmatchedNodeLabels (policy : Policy) : Aloof (unmatchedNodeLabels .api policy) := by
  refine aloof_ask rfl fun r => ?_
  rcases r with err | labels <;> trivial

theorem aloof_waitEnactmentCreated (polls : ℕ) :
    Aloof (waitEnactmentCreated polls) := by
  induction polls with
  | zero => trivial
  | succ polls ih =>
    refine aloof_ask rfl fun r => ?_
    rcases r with err | e
    · cases err <;> first
        | exact ih
        | trivial
    · trivial

theorem claiming_ask {key : Generation} {o : Op} {f : o.Resp → Proc α} (ho : o.claims key = true)
    (hf : ∀ r, Claiming key (f r)) : Claiming key (ask o >>= f) :=
  Prog.Only.bind (.perform ho) hf

theorem claiming_incrementUnavailableNodeCount (policy : Policy) (key : Generation) :
    Claiming key (incrementUnavailableNodeCount policy key) := by
  refine Prog.Only.retryWith (fun policy => claiming_ask rfl fun r => ?_) _ _
  rcases r with err | policy
  · trivial
  refine ((aloof_maxUnavailableNodeCount policy).mono fun _ => Op.claims_of_aloof key).bind
    fun r => ?_
  obtain ⟨cap, err⟩ := r
  dsimp only
  split
  · trivial
  · split
    · trivial
    · exact claiming_ask rfl fun now => claiming_ask (decide_eq_true rfl) fun r => trivial

theorem claiming_claimUnavailableSlot (cfg : Config) (policy : Policy) (key : Generation) :
    Claiming key (claimUnavailableSlot cfg policy key) := by
  refine (claiming_incrementUnavailableNodeCount policy key).bind fun r => ?_
  split
  · refine ((aloof_auditUnavailableSlots cfg).mono fun _ => Op.claims_of_aloof key).bind fun r => ?_
    split
    · exact claiming_incrementUnavailableNodeCount _ _
    · trivial
  · trivial

end

/-! ## Observers of a handler -/

/-- A procedure of the handler of node `i`, whose answered calls move the state of an observer,
ends in `Q`. -/
abbrev Observed {Φ α : Type} (cfg : Config) (i : NodeName) (next : Φ → Called Api → Φ)
    (proc : Proc α) (Q : α → Option EnactmentStatus → Φ → Prop) (own : Option EnactmentStatus)
    (φ : Φ) : Prop :=
  Follows (handlerEnv cfg i) (Monitor.observer (Option EnactmentStatus) next) proc Q own φ

/-- Calls that change neither the enactment nor the state of the observer. -/
structure Overlooked {Φ : Type} (next : Φ → Called Api → Φ) (C : Op → Prop) : Prop where
  own : ∀ (i : NodeName) {o : Op} (w : World) (r : o.Resp), C o →
    (w.after i o r).enactments i = w.enactments i
  state : ∀ (φ : Φ) {o : Op} (r : o.Resp), C o → next φ ⟨o, r⟩ = φ

section

variable {Φ α : Type} {cfg : Config} {i : NodeName} {next : Φ → Called Api → Φ} {C : Op → Prop}
  {Q : α → Option EnactmentStatus → Φ → Prop} {own : Option EnactmentStatus} {φ : Φ}

/-- One call and what follows it. -/
theorem observed_ask {o : Op} {f : o.Resp → Proc α}
    (h : ∀ r w, w.enactments i = own → Truthful cfg i w o r →
      Observed cfg i next (f r) Q ((w.after i o r).enactments i) (next φ ⟨o, r⟩)) :
    Observed cfg i next (ask o >>= f) Q own φ := by
  refine ⟨trivial, ?_⟩
  rintro r own' ⟨w, hw, ht, rfl⟩
  exact h r w hw ht

/-- An overlooked call and what follows it. -/
theorem Overlooked.ask (hC : Overlooked next C) {o : Op} {f : o.Resp → Proc α} (ho : C o)
    (h : ∀ r w, w.enactments i = own → Truthful cfg i w o r →
      Observed cfg i next (f r) Q own φ) : Observed cfg i next (ask o >>= f) Q own φ := by
  refine observed_ask fun r w hw ht => ?_
  rw [hC.own i w r ho, hC.state φ r ho, hw]
  exact h r w hw ht

/-- A procedure made of overlooked calls and what follows it. -/
theorem Overlooked.only (hC : Overlooked next C) {β : Type} {proc : Proc β} {f : β → Proc α}
    (hproc : proc.Only C) (h : ∀ b, Observed cfg i next (f b) Q own φ) :
    Observed cfg i next (proc >>= f) Q own φ := by
  refine (Follows.of_calls (I := fun own' φ' => own' = own ∧ φ' = φ) hproc (fun _ _ => trivial) ?_
    ⟨rfl, rfl⟩).bind ?_
  · rintro o own' φ' r own'' ho ⟨rfl, rfl⟩ ⟨w, rfl, -, rfl⟩
    exact ⟨hC.own i w r ho, hC.state _ r ho⟩
  · rintro b own' φ' ⟨rfl, rfl⟩
    exact h b

end

/-! ## Writes of the enactment -/

/-- `enactmentstatus.Update` for an observer who notes `begun` at every attempt and `ended` at the
write: the stored status is replaced by what the setter makes of it, or nothing is written. -/
theorem follows_enactmentStatusUpdate {Φ : Type} {cfg : Config} {i : NodeName}
    {next : Φ → Called Api → Φ} {change : Change} {begun ended : Φ → Φ}
    (hread : ∀ φ r, next φ ⟨.getEnactment (.update change), r⟩ = begun φ)
    (hnow : ∀ φ t, next φ ⟨.now, t⟩ = φ)
    (hrefused : ∀ φ status e, next φ ⟨.updateEnactmentStatus change status, .error e⟩ = φ)
    (hwritten : ∀ φ status, next φ ⟨.updateEnactmentStatus change status, .ok ()⟩ = ended φ)
    (hbegun : ∀ φ, begun (begun φ) = begun φ) (setter : Time → EnactmentStatus → EnactmentStatus)
    {own : Option EnactmentStatus} {φ : Φ} :
    Observed cfg i next (enactmentStatusUpdate change setter)
      (fun r own' φ' =>
        (r = .ok () → ∃ e t, own = some e ∧ own' = some (setter t e) ∧ φ' = ended (begun φ)) ∧
        ∀ err, r = .error err → own' = own ∧ φ' = begun φ) own φ := by
  -- between two attempts the observer may have noted the beginning or not
  have hsteps : defaultRetry ≠ 0 := by decide
  refine (follows_onError (I := fun own' φ' => own' = own ∧ begun φ' = begun φ)
    (Q := fun own' φ' => ∃ e t, own = some e ∧ own' = some (setter t e) ∧ φ' = ended (begun φ))
    (R := fun _ _ φ' => φ' = begun φ) hsteps ?_ ⟨rfl, rfl⟩).mono
    fun r own' φ' h => ⟨h.1, fun err herr => ⟨(h.2 err herr).1.1, (h.2 err herr).2⟩⟩
  rintro own₁ φ₁ ⟨rfl, hφ₁⟩
  refine observed_ask fun r w hw hread' => ?_
  rw [hread φ₁ r, hφ₁]
  rcases r with err | e
  · exact ⟨nofun, fun _ _ => ⟨⟨hw, hbegun φ⟩, rfl⟩⟩
  have hown : own₁ = some e := hw.symm.trans hread'
  refine observed_ask fun t w₁ hw₁ _ => ?_
  rw [hnow]
  refine ⟨trivial, ?_⟩
  rintro r own' ⟨w₂, hw₂, -, rfl⟩
  rcases r with err | ⟨⟩
  · refine ⟨nofun, fun _ _ => ?_⟩
    show (w₂.enactments i = own₁ ∧
      begun (next (begun φ) ⟨.updateEnactmentStatus change _, .error err⟩) = begun φ) ∧
      next (begun φ) ⟨.updateEnactmentStatus change _, .error err⟩ = begun φ
    rw [hrefused]
    exact ⟨⟨hw₂.trans (hw₁.trans hw), hbegun φ⟩, rfl⟩
  · exact ⟨fun _ => ⟨e, t, hown, World.setEnactment_self _ _ _, hwritten _ _⟩, nofun⟩
