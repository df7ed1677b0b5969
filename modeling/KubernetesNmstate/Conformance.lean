/-
# The handler follows its rules

`Reconcile` and `reclaimInterruptedSlots` obey `protocol`: every call they make is one
that `Permits` lists, whatever the answers, and a reconcile that ends without a failed
call has given back or marked every slot it took (`reconcile_obeys`, `reclaim_obeys`).

There is one lemma per procedure.  It says what the procedure leaves of the stored
enactment and of the phase; `Calm` is the part of the ghost state that the policy reads
and writes of the audit and of the verdict do not touch.
-/
import KubernetesNmstate.Protocol

/-! ## Calls -/

/-- A procedure of the handler of node `i` obeys the rules and ends in `Q`. -/
abbrev Obeys {α : Type} (cfg : Config) (i : NodeName) (p : Proc α)
    (Q : α → Option EnactmentStatus → Ghost → Prop) (own : Option EnactmentStatus) (φ : Ghost) :
    Prop :=
  Follows (handlerEnv cfg i) (protocol cfg) p Q own φ

/-- The phase is kept, and a fault is not forgotten. -/
structure Calm (φ φ' : Ghost) : Prop where
  phase : φ'.phase = φ.phase
  fault : φ.fault = true → φ'.fault = true

theorem Calm.refl (φ : Ghost) : Calm φ φ := ⟨rfl, id⟩

theorem Calm.trans {φ φ' φ'' : Ghost} (h : Calm φ φ') (h' : Calm φ' φ'') : Calm φ φ'' :=
  ⟨h'.phase.trans h.phase, fun hf => h'.fault (h.fault hf)⟩

/-- The observing calls that do not move the phase. -/
def Op.quiet : Op → Bool
  | .getPolicy _ .reconcile | .getPolicy _ (.decrement _ _) => false
  | .getEnactment .lookup | .getEnactment .refresh => false
  | o => o.observes

theorem Ghost.fault_next {φ : Ghost} (o : Op) (r : o.Resp) (h : φ.fault = true) :
    (φ.next o r).fault = true := by simp [Ghost.next, h]

theorem observes_of_quiet {o : Op} (h : o.quiet = true) : o.observes = true := by
  unfold Op.quiet at h
  split at h <;> first
    | exact h
    | cases h

theorem calm_of_quiet {φ : Ghost} {o : Op} (h : o.quiet = true) (r : o.Resp) :
    Calm φ (φ.next o r) := by
  refine ⟨?_, Ghost.fault_next o r⟩
  show φ.phase.next o r = φ.phase
  cases o with
  | getPolicy client caller => cases caller <;> first | rfl | cases h
  | getEnactment purpose => cases purpose <;> first | rfl | cases h
  | _ => first | rfl | cases h

/-- The writers of the policy that neither claim nor release. -/
def Caller.keepsPhase : Caller → Bool
  | .increment _ | .decrement _ _ => false
  | _ => true

theorem calm_policy {φ : Ghost} {caller : Caller} (h : caller.keepsPhase = true) (p : Policy)
    (r : Except Err Unit) : Calm φ (φ.next (.updatePolicyStatus caller p) r) := by
  refine ⟨?_, Ghost.fault_next (.updatePolicyStatus caller p) r⟩
  rcases r with e | ⟨⟩ <;> cases caller <;> first | rfl | cases h

/-- A refused write of the policy. -/
theorem calm_policy_error {φ : Ghost} (caller : Caller) (p : Policy) (e : Err) :
    Calm φ (φ.next (.updatePolicyStatus caller p) (.error e)) :=
  ⟨by cases caller <;> rfl, Ghost.fault_next (.updatePolicyStatus caller p) (.error e)⟩

section

variable {cfg : Config} {i : NodeName} {α : Type} {own : Option EnactmentStatus} {φ : Ghost}
  {Q : α → Option EnactmentStatus → Ghost → Prop}

/-- One permitted call and what follows it. -/
theorem obeys_ask {o : Op} {f : o.Resp → Proc α} (hg : Permits cfg own φ o)
    (h : ∀ r w, w.enactments i = own → Truthful cfg i w o r →
      Obeys cfg i (f r) Q ((w.after i o r).enactments i) (φ.next o r)) :
    Obeys cfg i (ask o >>= f) Q own φ := by
  refine ⟨hg, ?_⟩
  rintro r own' ⟨w, hw, ht, rfl⟩
  exact h r w hw ht

/-- An observing call and what follows it. -/
theorem obeys_observe {o : Op} {f : o.Resp → Proc α} (ho : o.observes = true)
    (h : ∀ r w, w.enactments i = own → Truthful cfg i w o r →
      Obeys cfg i (f r) Q own (φ.next o r)) :
    Obeys cfg i (ask o >>= f) Q own φ := by
  refine obeys_ask (.observe ho) fun r w hw ht => ?_
  rw [World.after_of_observes ho, hw]
  exact h r w hw ht

/-- A quiet call and what follows it. -/
theorem obeys_quiet {o : Op} {f : o.Resp → Proc α} (ho : o.quiet = true)
    (h : ∀ r w, w.enactments i = own → Truthful cfg i w o r → Calm φ (φ.next o r) →
      Obeys cfg i (f r) Q own (φ.next o r)) :
    Obeys cfg i (ask o >>= f) Q own φ :=
  obeys_observe (observes_of_quiet ho) fun r w hw ht => h r w hw ht (calm_of_quiet ho r)

/-- A status write of the policy and what follows it. -/
theorem obeys_policy {caller : Caller} {p : Policy} {f : Except Err Unit → Proc α}
    (hg : Permits cfg own φ (.updatePolicyStatus caller p))
    (h : ∀ r : Except Err Unit,
      Obeys cfg i (f r) Q own (φ.next (.updatePolicyStatus caller p) r)) :
    Obeys cfg i (ask (.updatePolicyStatus caller p) >>= f) Q own φ := by
  refine obeys_ask hg fun r w hw _ => ?_
  have hown : (w.after i (.updatePolicyStatus caller p) r).enactments i = own := by
    rcases r with _ | _ <;> exact hw
  rw [hown]
  exact h r

/-- A status write of the policy that ends a procedure. -/
theorem obeys_policy_last {caller : Caller} {p : Policy}
    {R : Except Err Unit → Option EnactmentStatus → Ghost → Prop}
    (hg : Permits cfg own φ (.updatePolicyStatus caller p))
    (h : ∀ r : Except Err Unit, R r own (φ.next (.updatePolicyStatus caller p) r)) :
    Obeys cfg i (ask (.updatePolicyStatus caller p)) R own φ := by
  refine ⟨hg, ?_⟩
  rintro r own' ⟨w, hw, -, rfl⟩
  have hown : (w.after i (.updatePolicyStatus caller p) r).enactments i = own := by
    rcases r with _ | _ <;> exact hw
  rw [hown]
  exact h r

end

/-! ## Status writes of the enactment -/

section

variable {cfg : Config} {i : NodeName} {own : Option EnactmentStatus} {φ : Ghost}

/-- What a committed `enactmentstatus.Update` leaves. -/
structure Committed (change : Change) (setter : Time → EnactmentStatus → EnactmentStatus)
    (own : Option EnactmentStatus) (φ : Ghost) (own' : Option EnactmentStatus) (φ' : Ghost) :
    Prop where
  written : ∃ e t, own = some e ∧ own' = some (setter t e) ∧
    φ'.phase = φ.phase.next (.updateEnactmentStatus change (setter t e)) (.ok ())
  fault : φ.fault = true → φ'.fault = true

/-- What one that failed leaves. -/
structure Refused (own : Option EnactmentStatus) (φ : Ghost) (own' : Option EnactmentStatus)
    (φ' : Ghost) : Prop where
  own_eq : own' = own
  calm : Calm φ φ'
  faulty : φ'.fault = true

/-- `enactmentstatus.Update` either writes what the setter makes of the stored status, or
leaves it and has seen a failed call. -/
theorem enactmentStatusUpdate_obeys {change : Change}
    {setter : Time → EnactmentStatus → EnactmentStatus}
    (hg : ∀ e t φ', own = some e → Calm φ φ' →
      Permits cfg own φ' (.updateEnactmentStatus change (setter t e))) :
    Obeys cfg i (enactmentStatusUpdate change setter) (fun r own' φ' =>
      (r = .ok () → Committed change setter own φ own' φ') ∧
      ∀ e, r = .error e → Refused own φ own' φ') own φ := by
  have hloop : Obeys cfg i (enactmentStatusUpdate change setter) (fun r own' φ' =>
      (r = .ok () → Committed change setter own φ own' φ') ∧
      ∀ e, r = .error e → (own' = own ∧ Calm φ φ') ∧ φ'.fault = true) own φ := by
    refine follows_onError (I := fun own' φ' => own' = own ∧ Calm φ φ')
      (R := fun _ _ φ' => φ'.fault = true) (by decide) ?_ ⟨rfl, Calm.refl φ⟩
    rintro own₁ φ₁ ⟨rfl, h₁⟩
    refine obeys_quiet rfl fun r w hw ht hc => ?_
    have h₂ := h₁.trans hc
    rcases r with e | e
    · exact ⟨nofun, fun _ _ => ⟨⟨rfl, h₂⟩, by simp [Ghost.next, Op.failed]⟩⟩
    · have hown : own₁ = some e := hw.symm.trans ht
      refine obeys_quiet rfl fun t _ _ _ hc => ?_
      have h₃ := h₂.trans hc
      refine ⟨hg e t _ hown h₃, ?_⟩
      rintro r own' ⟨w', hw', ht', rfl⟩
      rcases r with err | ⟨⟩
      · refine ⟨nofun, fun _ _ => ⟨⟨hw', ?_⟩, by simp [Ghost.next, protocol, Op.failed]⟩⟩
        refine h₃.trans ⟨?_, Ghost.fault_next _ _⟩
        cases change with
        | notice n => cases n <;> rfl
        | _ => rfl
      · refine ⟨fun _ => ⟨⟨e, t, hown, ?_, ?_⟩, fun hf => ?_⟩, nofun⟩
        · exact World.setEnactment_self _ _ _
        · rw [← h₃.phase]
          rfl
        · exact Ghost.fault_next _ _ (h₃.fault hf)
  exact hloop.mono fun r own' φ' h =>
    ⟨h.1, fun e he => ⟨(h.2 e he).1.1, (h.2 e he).1.2, (h.2 e he).2⟩⟩

end

/-! ## Procedures that touch only the policy -/

section

variable {cfg : Config} {i : NodeName} {own : Option EnactmentStatus} {φ : Ghost}

/-- The procedure leaves the enactment and the phase. -/
def Steady {α : Type} (own : Option EnactmentStatus) (φ : Ghost) :
    α → Option EnactmentStatus → Ghost → Prop :=
  fun _ own' φ' => own' = own ∧ Calm φ φ'

/-- A failing body that is steady is steady under retries. -/
theorem steady_onError {retriable : Err → Bool} {steps : ℕ} {body : Proc (Except Err Unit)}
    (hsteps : steps ≠ 0)
    (hbody : ∀ φ₁, Calm φ φ₁ → Obeys cfg i body (Steady own φ₁) own φ₁) :
    Obeys cfg i (onError retriable steps body) (Steady own φ) own φ := by
  refine Follows.mono (follows_onError (I := fun own' φ' => own' = own ∧ Calm φ φ')
    (Q := fun own' φ' => own' = own ∧ Calm φ φ') (R := fun _ _ _ => True) hsteps ?_
    ⟨rfl, Calm.refl φ⟩) ?_
  · rintro own₁ φ₁ ⟨rfl, h₁⟩
    exact (hbody φ₁ h₁).mono fun r own' φ' h =>
      ⟨fun _ => ⟨h.1, h₁.trans h.2⟩, fun _ _ => ⟨⟨h.1, h₁.trans h.2⟩, trivial⟩⟩
  · intro r own' φ' h
    rcases r with e | ⟨⟩
    · exact (h.2 e rfl).1
    · exact h.1 rfl

theorem maxUnavailableNodeCount_obeys (policy : Policy) :
    Obeys cfg i (maxUnavailableNodeCount policy) (fun r own' φ' => own' = own ∧ Calm φ φ' ∧
      φ'.view.policy = φ.view.policy ∧
      (φ.view.listing = none → r.1 = φ'.view.cap policy)) own φ := by
  refine obeys_quiet rfl fun r _ _ _ hc => ?_
  rcases r with e | ⟨enactments, t⟩
  · refine ⟨rfl, hc, rfl, fun hl => ?_⟩
    simp [Ghost.next, View.next, View.cap, hl]
  · exact ⟨rfl, hc, rfl, fun _ => rfl⟩

theorem nodesRunningNmstate_obeys (nodeSelector : Labels) :
    Obeys cfg i (nodesRunningNmstate cfg nodeSelector) (fun r own' φ' => own' = own ∧ Calm φ φ' ∧
      φ'.view.policy = φ.view.policy ∧ φ'.view.listing = φ.view.listing ∧
      ∀ nodes, r = .ok nodes → ∃ listed pods, φ'.view.nodes = some (nodeSelector, listed) ∧
        φ'.view.pods = some pods ∧ nodes = nodesWithPods listed pods) own φ := by
  refine obeys_quiet rfl fun r _ _ _ hc => ?_
  rcases r with e | listed
  · exact ⟨rfl, hc, rfl, rfl, nofun⟩
  · show Obeys cfg i (if _ then _ else _) _ own _
    split
    · exact ⟨rfl, hc, rfl, rfl, nofun⟩
    · refine obeys_quiet rfl fun r _ _ _ hc' => ?_
      rcases r with e | pods
      · exact ⟨rfl, hc.trans hc', rfl, rfl, nofun⟩
      · exact ⟨rfl, hc.trans hc', rfl, rfl, fun nodes h => ⟨listed, pods, rfl, rfl,
          (Except.ok.inj h).symm⟩⟩

/-- `policyconditions.update` writes the verdict on what it read. -/
theorem policyConditionsUpdateWith_obeys (policyReader : Client) :
    Obeys cfg i (policyConditionsUpdateWith cfg policyReader) (Steady own φ) own φ := by
  refine steady_onError (by decide) fun φ₁ _ => ?_
  refine obeys_quiet rfl fun r _ _ _ hc => ?_
  rcases r with e | policy
  · exact ⟨rfl, hc⟩
  refine obeys_quiet rfl fun r _ _ _ hc₁ => ?_
  have hc := hc.trans hc₁
  rcases r with e | ⟨enactments, t⟩
  · exact ⟨rfl, hc⟩
  refine Follows.bind (nodesRunningNmstate_obeys policy.spec.nodeSelector) ?_
  rintro r own' φ₂ ⟨rfl, hc₂, hpolicy, hlisting, hnodes⟩
  have hc := hc.trans hc₂
  rcases r with e | nodes
  · exact ⟨rfl, hc⟩
  obtain ⟨listed, pods, hlisted, hpods, rfl⟩ := hnodes nodes rfl
  refine obeys_quiet rfl fun now _ _ _ hc₃ => ?_
  have hc := hc.trans hc₃
  exact obeys_policy_last (.update (l := ⟨enactments, t, _⟩) hpolicy hlisting hlisted hpods)
    fun r => ⟨rfl, hc.trans (calm_policy rfl _ r)⟩

theorem policyConditionsUpdate_obeys :
    Obeys cfg i (policyConditionsUpdate cfg) (Steady own φ) own φ := by
  refine Follows.bind (policyConditionsUpdateWith_obeys .cached) ?_
  rintro r own' φ₁ ⟨rfl, hc⟩
  rcases r with e | ⟨⟩
  · exact (policyConditionsUpdateWith_obeys .api).mono fun _ _ _ h => ⟨h.1, hc.trans h.2⟩
  · exact ⟨rfl, hc⟩

theorem policyConditionsReset_obeys :
    Obeys cfg i policyConditionsReset (Steady own φ) own φ := by
  refine steady_onError (by decide) fun φ₁ _ => ?_
  refine obeys_quiet rfl fun r _ _ _ hc => ?_
  rcases r with e | policy
  · exact ⟨rfl, hc⟩
  refine obeys_quiet rfl fun now _ _ _ hc₁ => ?_
  exact obeys_policy_last (.reset rfl) fun r => ⟨rfl, (hc.trans hc₁).trans (calm_policy rfl _ r)⟩

/-- The deferral test is passed only when the grace window is over. -/
theorem graceElapsed_obeys {policy : Policy} (hp : φ.view.policy = some policy)
    (hnone : policy.status.lastUnavailableNodeCountUpdate = none → φ.view.due = true) :
    Obeys cfg i (graceElapsed policy) (fun elapsed own' φ' => own' = own ∧ Calm φ φ' ∧
      φ'.view.policy = some policy ∧ (elapsed = true → φ'.view.due = true)) own φ := by
  unfold graceElapsed
  split
  · rename_i hlast
    exact ⟨rfl, Calm.refl φ, hp, fun _ => hnone hlast⟩
  · rename_i last hlast
    refine obeys_quiet rfl fun now _ _ _ hc => ⟨rfl, hc, hp, fun h => ?_⟩
    simp [Ghost.next, View.next, hp, hlast, h]

/-- One pass of the audit: a repair is written only after the grace window, and sets the
counter to the holders that were listed. -/
theorem auditOnce_obeys : Obeys cfg i (auditOnce cfg) (Steady own φ) own φ := by
  refine obeys_quiet rfl fun r _ _ _ hc => ?_
  rcases r with e | policy
  · exact ⟨rfl, hc⟩
  refine Follows.bind (graceElapsed_obeys rfl fun hlast => ?_) ?_
  · simp [Ghost.next, View.next, hlast]
  rintro elapsed own' φ₁ ⟨rfl, hc₁, hpolicy, hdue⟩
  have hc := hc.trans hc₁
  show Obeys cfg i (if _ then _ else _) _ _ _
  split
  · exact ⟨rfl, hc⟩
  rename_i hnot
  have hdue := hdue (by simpa using hnot)
  show Obeys cfg i (if _ then _ else _) _ _ _
  split
  · exact ⟨rfl, hc⟩
  refine obeys_quiet rfl fun r _ _ _ hc₁ => ?_
  have hc := hc.trans hc₁
  rcases r with e | ⟨enactments, t⟩
  · exact ⟨rfl, hc⟩
  show Obeys cfg i (if _ then _ else _) _ _ _
  split
  · exact ⟨rfl, hc⟩
  rename_i hlt
  refine obeys_quiet rfl fun now _ _ _ hc₂ => ?_
  have hc := hc.trans hc₂
  refine obeys_policy (.audit (l := ⟨enactments, t, φ₁.view.due⟩) hpolicy rfl hdue ?_) fun r => ?_
  · simpa [Listing.holders] using hlt
  · rcases r with e | ⟨⟩ <;> exact ⟨rfl, hc.trans (calm_policy rfl _ _)⟩

theorem auditUnavailableSlots_obeys :
    Obeys cfg i (auditUnavailableSlots cfg) (Steady own φ) own φ := by
  refine Follows.mono (Follows.retryWith (I := fun _ own' φ' => own' = own ∧ Calm φ φ')
    (Q := fun _ own' φ' => own' = own ∧ Calm φ φ') (R := fun _ _ _ => True) ?_ (by decide)
    ⟨rfl, Calm.refl φ⟩) ?_
  · rintro _ own₁ φ₁ ⟨rfl, h₁⟩
    exact auditOnce_obeys.mono fun r own' φ' h =>
      ⟨fun _ => ⟨h.1, h₁.trans h.2⟩, fun _ _ => ⟨⟨h.1, h₁.trans h.2⟩, trivial⟩⟩
  · rintro ⟨_, r⟩ own' φ' h
    rcases r with e | ⟨⟩
    · exact (h.2 e rfl).1
    · exact h.1 rfl

theorem releaseUnavailableSlotByAudit_obeys :
    Obeys cfg i (releaseUnavailableSlotByAudit cfg) (Steady own φ) own φ :=
  steady_onError (by decide) fun _ _ =>
    Follows.bind auditUnavailableSlots_obeys fun _ _ _ h => h

end

/-! ## Claim and release -/

section

variable {cfg : Config} {i : NodeName} {own : Option EnactmentStatus} {φ : Ghost}

/-- What a claim leaves: the slot, or the phase as it was. -/
def Claims (key : Generation) (own : Option EnactmentStatus) (φ : Ghost) :
    Policy × Except Err Unit → Option EnactmentStatus → Ghost → Prop :=
  fun r own' φ' => own' = own ∧ (r.2 = .ok () → φ'.phase = .claimed key) ∧
    ∀ e, r.2 = .error e → Calm φ φ'

theorem tryIncrementing_obeys {e : EnactmentStatus} (policy : Policy)
    (hask : Asking cfg φ.phase e) :
    Obeys cfg i (tryIncrementing e.policyGeneration policy)
      (Claims e.policyGeneration (some e) φ) (some e) φ := by
  refine obeys_quiet rfl fun r _ _ _ hc => ?_
  rcases r with err | p
  · exact ⟨rfl, nofun, fun _ _ => hc⟩
  refine Follows.bind (maxUnavailableNodeCount_obeys p) ?_
  rintro ⟨maxUnavailable, err⟩ own' φ₁ ⟨rfl, hc₁, hpolicy, hcap⟩
  have hc := hc.trans hc₁
  have hcap : maxUnavailable = φ₁.view.cap p := hcap rfl
  cases hinv : err.filter Err.isInvalidMaxUnavailable with
  | some e' =>
    simp only [hinv]
    exact ⟨rfl, nofun, fun _ _ => hc⟩
  | none =>
    simp only [hinv]
    show Obeys cfg i (if _ then _ else _) _ _ _
    split
    · exact ⟨rfl, nofun, fun _ _ => hc⟩
    rename_i hlt
    refine obeys_quiet rfl fun now _ _ _ hc₂ => ?_
    have hc := hc.trans hc₂
    refine obeys_policy (.claim ?_ hpolicy ?_) fun r => ?_
    · exact hc.phase ▸ hask
    · show p.count e.policyGeneration < φ₁.view.cap p
      rw [← hcap]
      omega
    · rcases r with err | ⟨⟩
      · exact ⟨rfl, nofun, fun _ _ => hc.trans (calm_policy_error _ _ _)⟩
      · refine ⟨rfl, fun _ => ?_, nofun⟩
        obtain ⟨inst, previous, hfilled, -⟩ := hask.filled
        rw [Ghost.phase_next, hc.phase, hfilled]
        rfl

theorem incrementUnavailableNodeCount_obeys {e : EnactmentStatus} (policy : Policy)
    (hask : Asking cfg φ.phase e) :
    Obeys cfg i (incrementUnavailableNodeCount policy e.policyGeneration)
      (Claims e.policyGeneration (some e) φ) (some e) φ := by
  refine Follows.mono (Follows.retryWith (I := fun _ own' φ' => own' = some e ∧ Calm φ φ')
    (Q := fun _ own' φ' => own' = some e ∧ φ'.phase = .claimed e.policyGeneration)
    (R := fun _ _ _ => True) ?_ (by decide) ⟨rfl, Calm.refl φ⟩) ?_
  · rintro policy own₁ φ₁ ⟨rfl, h₁⟩
    refine (tryIncrementing_obeys policy (h₁.phase ▸ hask)).mono fun r own' φ' h => ?_
    exact ⟨fun hr => ⟨h.1, h.2.1 hr⟩, fun err hr => ⟨⟨h.1, h₁.trans (h.2.2 err hr)⟩, trivial⟩⟩
  · rintro ⟨_, r⟩ own' φ' h
    rcases r with err | ⟨⟩
    · exact ⟨(h.2 err rfl).1.1, nofun, fun _ _ => (h.2 err rfl).1.2⟩
    · exact ⟨(h.1 rfl).1, fun _ => (h.1 rfl).2, nofun⟩

/-- `claimUnavailableSlot` claims one slot or none. -/
theorem claimUnavailableSlot_obeys {e : EnactmentStatus} (policy : Policy)
    (hask : Asking cfg φ.phase e) :
    Obeys cfg i (claimUnavailableSlot cfg policy e.policyGeneration)
      (Claims e.policyGeneration (some e) φ) (some e) φ := by
  refine Follows.bind (incrementUnavailableNodeCount_obeys policy hask) ?_
  rintro ⟨p, r⟩ own' φ₁ ⟨rfl, hok, herr⟩
  rcases r with err | ⟨⟩
  · have hc := herr err rfl
    cases err with
    | maxUnavailableLimitReached =>
      refine Follows.bind auditUnavailableSlots_obeys ?_
      rintro ⟨repaired, r⟩ own' φ₂ ⟨rfl, hc₂⟩
      have hc := hc.trans hc₂
      rcases r with err | ⟨⟩ <;> cases repaired <;>
        first
        | exact ⟨rfl, nofun, fun _ _ => hc⟩
        | exact (incrementUnavailableNodeCount_obeys p (hc.phase ▸ hask)).mono
            fun _ _ _ h => ⟨h.1, h.2.1, fun e' he' => hc.trans (h.2.2 e' he')⟩
    | _ => exact ⟨rfl, nofun, fun _ _ => hc⟩
  · exact ⟨rfl, hok, herr⟩

/-- A slot is held and can be given back. -/
def Held (key : Generation) (φ : Ghost) : Prop :=
  φ.phase = .finalizing key ∨ φ.phase = .claimed key

/-- What a release leaves: the slot given back, or a failed call. -/
def Releases (key : Generation) (own : Option EnactmentStatus) (φ : Ghost) :
    Except Err Unit → Option EnactmentStatus → Ghost → Prop :=
  fun r own' φ' => own' = own ∧ (r = .ok () → φ'.phase = .released key) ∧
    ∀ e, r = .error e → Calm φ φ' ∧ φ'.fault = true

theorem tryDecrementingUnavailableNodeCount_obeys {key : Generation} (reader : Client)
    {backoff : ℕ} (hsteps : backoff ≠ 0) (hheld : Held key φ) :
    Obeys cfg i (tryDecrementingUnavailableNodeCount reader key backoff)
      (Releases key own φ) own φ := by
  refine Follows.mono (follows_onError (I := fun own' φ' => own' = own ∧ Calm φ φ')
    (Q := fun own' φ' => own' = own ∧ φ'.phase = .released key)
    (R := fun _ _ φ' => φ'.fault = true) hsteps ?_ ⟨rfl, Calm.refl φ⟩) ?_
  · rintro own₁ φ₁ ⟨rfl, h₁⟩
    have hheld₁ : Held key φ₁ := by simpa only [Held, h₁.phase] using hheld
    refine obeys_observe rfl fun r _ _ _ => ?_
    rcases r with err | p
    · exact ⟨nofun, fun _ _ => ⟨⟨rfl, h₁.trans ⟨rfl, Ghost.fault_next _ _⟩⟩,
        by simp [Ghost.next, Op.failed]⟩⟩
    show Obeys cfg i (if _ then _ else _) _ _ _
    split
    · rename_i hle
      refine ⟨fun _ => ⟨rfl, ?_⟩, nofun⟩
      rcases hheld₁ with h | h <;> simp [Ghost.next, Phase.next, h, hle]
    · rename_i hpos
      have hphase :
          (φ₁.next (.getPolicy reader (.decrement reader key)) (.ok p)).phase = φ₁.phase := by
        rcases hheld₁ with h | h <;> simp [Ghost.next, Phase.next, h, hpos]
      have hc : Calm φ₁ (φ₁.next (.getPolicy reader (.decrement reader key)) (.ok p)) :=
        ⟨hphase, Ghost.fault_next _ _⟩
      refine obeys_quiet rfl fun now _ _ _ hc₁ => ?_
      have hc := hc.trans hc₁
      refine obeys_policy_last (.release ?_ rfl (by omega)) fun r => ?_
      · rw [hc.phase]
        exact hheld₁
      rcases r with err | ⟨⟩
      · exact ⟨nofun, fun _ _ => ⟨⟨rfl, (h₁.trans hc).trans (calm_policy_error _ _ _)⟩,
          by simp [Ghost.next, Op.failed]⟩⟩
      · refine ⟨fun _ => ⟨rfl, ?_⟩, nofun⟩
        rw [Ghost.phase_next, hc.phase]
        rcases hheld₁ with h | h <;> rw [h] <;> rfl
  · intro r own' φ' h
    rcases r with err | ⟨⟩
    · exact ⟨(h.2 err rfl).1.1, nofun, fun _ _ => ⟨(h.2 err rfl).1.2, (h.2 err rfl).2⟩⟩
    · exact ⟨(h.1 rfl).1, fun _ => (h.1 rfl).2, nofun⟩

theorem decrementUnavailableNodeCount_obeys {key : Generation} (hheld : Held key φ) :
    Obeys cfg i (decrementUnavailableNodeCount key) (Releases key own φ) own φ := by
  refine Follows.bind
    (tryDecrementingUnavailableNodeCount_obeys .cached (by decide) hheld) ?_
  rintro r own' φ₁ ⟨rfl, hok, herr⟩
  rcases r with err | ⟨⟩
  · have hc := (herr err rfl).1
    have hheld₁ : Held key φ₁ := by simpa only [Held, hc.phase] using hheld
    exact (tryDecrementingUnavailableNodeCount_obeys .api (by decide) hheld₁).mono
      fun _ _ _ h => ⟨h.1, h.2.1, fun e he => ⟨hc.trans (h.2.2 e he).1, (h.2.2 e he).2⟩⟩
  · exact ⟨rfl, hok, nofun⟩

end

/-! ## Notifications -/

/-- No slot is held that the enactment does not show. -/
def Passive (ph : Phase) : Prop := ∀ key, ph ≠ .claimed key ∧ ph ≠ .finalizing key

/-- How every procedure ends: with no such slot, or after a failed call. -/
def Settled (φ : Ghost) : Prop := φ.fault = true ∨ Passive φ.phase

theorem passive_filled (p : Policy) (previous : ConditionList) : Passive (.filled p previous) :=
  fun _ => ⟨nofun, nofun⟩

theorem settled_of_phase {φ : Ghost} {ph : Phase} (h : φ.phase = ph) (hp : Passive ph) :
    Settled φ := Or.inr (h ▸ hp)

section

variable {cfg : Config} {i : NodeName} {own : Option EnactmentStatus} {φ : Ghost}
  {e : EnactmentStatus}

/-- A notification that is allowed is written, or refused. -/
theorem notify_obeys {n : Notice} {message : String} (h : n.Allowed cfg φ.phase e) :
    Obeys cfg i (notify n message) (fun r own' φ' =>
      (r = .ok () → ∃ t, own' = some { e with conditions := n.setter t e.conditions message } ∧
        φ'.phase = φ.phase.next (.updateEnactmentStatus (.notice n)
          { e with conditions := n.setter t e.conditions message }) (.ok ())) ∧
      ∀ err, r = .error err → Refused (some e) φ own' φ') (some e) φ := by
  refine Follows.mono (enactmentStatusUpdate_obeys ?_) ?_
  · intro e' t φ' he hc
    cases he
    exact .notice (hc.phase ▸ h)
  · intro r own' φ' hr
    refine ⟨fun hok => ?_, hr.2⟩
    obtain ⟨⟨e', t, he, hown, hph⟩, -⟩ := hr.1 hok
    cases he
    exact ⟨t, hown, hph⟩

/-- A notification that does not move the phase, whatever becomes of it. -/
theorem notify_keeps {n : Notice} {message : String} (h : n.Allowed cfg φ.phase e)
    (hn : n ≠ .progressing) (hn' : n ≠ .finalizing) :
    Obeys cfg i (notify n message) (fun _ own' φ' =>
      (own' = some e ∨ ∃ t, own' = some { e with conditions := n.setter t e.conditions message }) ∧
        φ'.phase = φ.phase) (some e) φ := by
  refine (notify_obeys h).mono fun r own' φ' hr => ?_
  rcases r with err | ⟨⟩
  · exact ⟨Or.inl (hr.2 err rfl).own_eq, (hr.2 err rfl).calm.phase⟩
  · obtain ⟨t, hown, hph⟩ := hr.1 rfl
    refine ⟨Or.inr ⟨t, hown⟩, hph.trans ?_⟩
    cases n <;> first | rfl | contradiction

theorem shouldAbortReconcile_obeys (policy : Policy) :
    Obeys cfg i (shouldAbortReconcile policy) (Steady own φ) own φ := by
  refine Follows.bind (maxUnavailableNodeCount_obeys policy) ?_
  rintro ⟨cap, err⟩ own' φ₁ ⟨rfl, hc, -, -⟩
  cases err with
  | some err => exact ⟨rfl, hc⟩
  | none =>
    refine obeys_quiet rfl fun r _ _ _ hc₁ => ?_
    rcases r with err | ⟨enactments, t⟩
    · exact ⟨rfl, hc.trans hc₁⟩
    · cases hcount : countConditionsLogicalAnd (fun _ => failedFilter) policy.generation
          enactments <;>
        simp only [hcount] <;> exact ⟨rfl, hc.trans hc₁⟩

/-- Asking goes on after the enactment was marked pending. -/
theorem Asking.pending {t : Time} {message : String} (h : Asking cfg φ.phase e) :
    Asking cfg φ.phase
      { e with conditions := Notice.pending.setter t e.conditions message } where
  startable := ⟨h.startable.retries, by simp [Notice.isAvailable_setter],
    by simp [Notice.isFinalizing_setter]⟩
  notProgressing := by simp [Notice.isProgressing_setter, Notice.marksProgressing]
  filled := h.filled

theorem handleRefusedClaim_obeys (policy : Policy) (hask : Asking cfg φ.phase e) :
    Obeys cfg i (handleRefusedClaim i policy) (fun _ _ φ' => φ'.phase = φ.phase) (some e) φ := by
  refine Follows.bind (notify_keeps (n := .pending) hask nofun nofun) ?_
  rintro - own' φ₁ ⟨hown, hph⟩
  obtain ⟨e', rfl, hask'⟩ : ∃ e', own' = some e' ∧ Asking cfg φ₁.phase e' := by
    rcases hown with rfl | ⟨t, rfl⟩
    · exact ⟨e, rfl, hph ▸ hask⟩
    · exact ⟨_, rfl, hph ▸ hask.pending⟩
  refine Follows.bind (shouldAbortReconcile_obeys policy) ?_
  rintro r own' φ₂ ⟨rfl, hc⟩
  have hph := hc.phase.trans hph
  rcases r with err | _ | _
  · exact hph
  · exact hph
  · exact Follows.bind (notify_keeps (n := .aborted) (hc.phase ▸ hask') nofun nofun)
      fun _ _ _ h => h.2.trans hph

theorem handleClaimError_obeys (policy : Policy) (err : Err) (hask : Asking cfg φ.phase e) :
    Obeys cfg i (handleClaimError i policy err) (fun _ _ φ' => φ'.phase = φ.phase) (some e) φ := by
  cases err with
  | invalidMaxUnavailable value =>
    exact Follows.bind (notify_keeps (n := .failedToConfigure) (Or.inl hask) nofun nofun)
      fun _ _ _ h => h.2
  | conflict => exact handleRefusedClaim_obeys policy hask
  | maxUnavailableLimitReached => exact handleRefusedClaim_obeys policy hask
  | notFound => exact (rfl : φ.phase = φ.phase)
  | other message => exact (rfl : φ.phase = φ.phase)

/-! ## After the apply -/

theorem recordFailure_obeys {enactment : EnactmentStatus} (output : String) (err : Err)
    (hcounts : enactment.retryCount = e.retryCount)
    (hph : φ.phase = .applyFailed e.policyGeneration) (happ : Applying e) :
    Obeys cfg i (recordFailure cfg i enactment e.policyGeneration output err)
      (fun _ _ φ' => φ'.phase = φ.phase) (some e) φ := by
  unfold recordFailure incrementNNCERetryCount
  rw [hcounts]
  refine Follows.bind (enactmentStatusUpdate_obeys ?_) ?_
  · intro e' t φ' he hc
    cases he
    exact .retryCount (hc.phase.trans hph) happ
  rintro r own' φ₁ hr
  rcases r with err' | ⟨⟩
  · exact (hr.2 err' rfl).calm.phase
  obtain ⟨⟨e', t, he, rfl, hph₁⟩, -⟩ := hr.1 rfl
  cases he
  have hph₁ : φ₁.phase = φ.phase := hph₁
  show Obeys cfg i (if _ then _ else _) _ _ _
  split
  · rename_i hle
    refine Follows.bind (notify_keeps (n := .failedToConfigure)
      (Or.inr ⟨hph₁.trans hph, ⟨happ.1, happ.2⟩, ?_⟩) nofun nofun) fun _ _ _ h => h.2.trans hph₁
    simpa using hle
  · exact Follows.bind (notify_keeps (n := .retrying)
      ⟨hph₁.trans hph, ⟨happ.1, happ.2⟩⟩ nofun nofun) fun _ _ _ h => h.2.trans hph₁

/-- The finalizing marker, with its outer retries. -/
theorem notifyFinalizing_obeys (hph : φ.phase = .applied e.policyGeneration)
    (happ : Applying e) :
    Obeys cfg i (onError allErrors slotReleaseBackoff notifyFinalizing) (fun r own' φ' =>
      (r = .ok () → ∃ e', own' = some e' ∧ e'.policyGeneration = e.policyGeneration ∧
        isFinalizing e'.conditions = true ∧ φ'.phase = .finalizing e.policyGeneration) ∧
      ∀ err, r = .error err → φ'.phase = .applied e.policyGeneration) (some e) φ := by
  refine Follows.mono (follows_onError
    (I := fun own' φ' => own' = some e ∧ φ'.phase = .applied e.policyGeneration)
    (Q := fun own' φ' => ∃ e', own' = some e' ∧ e'.policyGeneration = e.policyGeneration ∧
      isFinalizing e'.conditions = true ∧ φ'.phase = .finalizing e.policyGeneration)
    (R := fun _ _ _ => True) (by decide) ?_ ⟨rfl, hph⟩) ?_
  · rintro own₁ φ₁ ⟨rfl, h₁⟩
    refine (notify_obeys (n := .finalizing) ⟨h₁, happ⟩).mono fun r own' φ' hr => ?_
    refine ⟨fun hok => ?_, fun err herr => ?_⟩
    · obtain ⟨t, hown, hph'⟩ := hr.1 hok
      refine ⟨_, hown, rfl, by simp [Notice.isFinalizing_setter], ?_⟩
      rw [hph', h₁]
      rfl
    · have h := hr.2 err herr
      exact ⟨⟨h.own_eq, h.calm.phase.trans h₁⟩, trivial⟩
  · exact fun r own' φ' h => ⟨h.1, fun err herr => (h.2 err herr).1.2⟩

theorem passive_released (key : Generation) : Passive (.released key) := fun _ => ⟨nofun, nofun⟩

theorem finishApplied_obeys (hph : φ.phase = .applied e.policyGeneration) (happ : Applying e) :
    Obeys cfg i (finishApplied e.policyGeneration) (fun _ _ φ' => Settled φ') (some e) φ := by
  refine Follows.bind (notifyFinalizing_obeys hph happ) ?_
  rintro r own' φ₁ ⟨hok, herr⟩
  rcases r with err | ⟨⟩
  · exact settled_of_phase (herr err rfl) fun _ => ⟨nofun, nofun⟩
  obtain ⟨e', rfl, hgen, hfin, hph₁⟩ := hok rfl
  refine Follows.bind (decrementUnavailableNodeCount_obeys (Or.inl hph₁)) ?_
  rintro r own' φ₂ ⟨rfl, hok, herr⟩
  rcases r with err | ⟨⟩
  · exact Or.inl (herr err rfl).2
  have hph₂ := hok rfl
  refine Follows.bind (notify_keeps (n := .success) ⟨hfin, Or.inl (hgen ▸ hph₂)⟩ nofun nofun) ?_
  rintro r own' φ₃ ⟨-, hph₃⟩
  have hsettled : Settled φ₃ := settled_of_phase (hph₃.trans hph₂) (passive_released _)
  rcases r with err | ⟨⟩
  · exact hsettled
  · refine obeys_quiet rfl fun _ _ _ _ hc => ?_
    exact settled_of_phase (hc.phase.trans (hph₃.trans hph₂)) (passive_released _)

theorem finalizeInterruptedApply_obeys (hfin : isFinalizing e.conditions = true) {p : Policy}
    {previous : ConditionList} (hph : φ.phase = .filled p previous) :
    Obeys cfg i (finalizeInterruptedApply cfg) (fun _ _ φ' => φ'.phase = φ.phase) (some e) φ := by
  refine Follows.bind (notify_keeps (n := .success)
    ⟨hfin, Or.inr (Or.inr ⟨p, previous, hph⟩)⟩ nofun nofun) ?_
  rintro r own' φ₁ ⟨-, hph₁⟩
  rcases r with err | ⟨⟩
  · exact hph₁
  refine Follows.bind releaseUnavailableSlotByAudit_obeys ?_
  rintro r own' φ₂ ⟨rfl, hc⟩
  rcases r with err | ⟨⟩
  · exact hc.phase.trans hph₁
  · exact obeys_quiet rfl fun _ _ _ _ hc₂ => hc₂.phase.trans (hc.phase.trans hph₁)

end

/-! ## From the claim to the apply -/

section

variable {cfg : Config} {i : NodeName} {own : Option EnactmentStatus} {φ : Ghost}
  {e : EnactmentStatus}

/-- A phase from which the progressing marker may be written: a slot was claimed, or one is
taken to be held already. -/
def Entitled (ph : Phase) (e : EnactmentStatus) (didClaim : Bool) : Prop :=
  match didClaim with
  | true => ph = .claimed e.policyGeneration
  | false => ∃ p previous, ph = .filled p previous ∧
      (isProgressing e.conditions = true ∨ isRetrying previous = true)

/-- The apply itself and the two ways on from it. -/
theorem applyOnce_obeys {enactment : EnactmentStatus} {conditions : ConditionList}
    (hph : φ.phase = .marked enactment.policyGeneration)
    (hretries : enactment.retryCount.get enactment.policyGeneration < cfg.retriesUntilFail)
    (happ : Applying { enactment with conditions := conditions }) :
    Obeys cfg i (applyOnce cfg i enactment enactment.policyGeneration)
      (fun _ _ φ' => Settled φ') (some { enactment with conditions := conditions }) φ := by
  refine obeys_ask (.apply (e := { enactment with conditions := conditions }) hph happ hretries)
    fun r w hw _ => ?_
  have hown : (w.after i (.applyDesiredState enactment.desiredState) r).enactments i =
      some { enactment with conditions := conditions } := by
    rcases r with _ | _ <;> exact hw
  rw [hown]
  have hph' := Ghost.phase_next φ (.applyDesiredState enactment.desiredState) r
  rw [hph] at hph'
  rcases r with ⟨output, err⟩ | ⟨⟩
  · exact (recordFailure_obeys (e := { enactment with conditions := conditions }) output err rfl
      hph' happ).mono fun _ _ _ h => settled_of_phase (h.trans hph') fun _ => ⟨nofun, nofun⟩
  · exact finishApplied_obeys (e := { enactment with conditions := conditions }) hph' happ

/-- The progressing marker starts an apply. -/
theorem applying_marked (t : Time) (message : String) :
    Applying { e with conditions := Notice.progressing.setter t e.conditions message } :=
  ⟨by simp [Notice.isProgressing_setter, Notice.marksProgressing],
    by simp [Notice.isFinalizing_setter]⟩

theorem applyMarked_obeys (policy : Policy) {didClaim : Bool} (hstart : Startable cfg e)
    (hent : Entitled φ.phase e didClaim) :
    Obeys cfg i (applyMarked cfg i policy e e.policyGeneration didClaim)
      (fun _ _ φ' => Settled φ') (some e) φ := by
  have hallowed : Notice.progressing.Allowed cfg φ.phase e := by
    cases didClaim with
    | true => exact ⟨hstart, Or.inl hent⟩
    | false => exact ⟨hstart, Or.inr hent⟩
  refine Follows.bind (notify_obeys hallowed) ?_
  rintro r own' φ₁ ⟨hok, herr⟩
  rcases r with err | ⟨⟩
  · -- the marker was not written: give the slot back if it was claimed here
    have href := herr err rfl
    cases didClaim with
    | true =>
      refine Follows.bind (tryDecrementingUnavailableNodeCount_obeys .api (by decide)
        (Or.inr (href.calm.phase.trans hent))) ?_
      rintro r own' φ₂ ⟨-, hok, herr⟩
      rcases r with err | ⟨⟩
      · exact Or.inl (herr err rfl).2
      · exact settled_of_phase (hok rfl) (passive_released _)
    | false => exact Or.inl href.faulty
  obtain ⟨t, rfl, hph₁⟩ := hok rfl
  have hph₁ : φ₁.phase = .marked e.policyGeneration := by
    rw [hph₁]
    cases didClaim with
    | true => rw [show φ.phase = _ from hent]; rfl
    | false =>
      obtain ⟨p, previous, hfilled, -⟩ := hent
      rw [hfilled]
      rfl
  show Obeys cfg i (if _ then _ else _) _ _ _
  split
  · exact Follows.bind policyConditionsUpdate_obeys fun _ _ φ₂ h => by
      rw [h.1]
      exact applyOnce_obeys (h.2.phase.trans hph₁) hstart.retries (applying_marked t _)
  · exact applyOnce_obeys hph₁ hstart.retries (applying_marked t _)

theorem claimAndApply_obeys (policy : Policy) {p : Policy} {previous : ConditionList}
    (hstart : Startable cfg e) (hph : φ.phase = .filled p previous) :
    Obeys cfg i (claimAndApply cfg i policy previous e e.policyGeneration)
      (fun _ _ φ' => Settled φ') (some e) φ := by
  unfold claimAndApply
  dsimp only
  split
  · rename_i hclaim
    have hask : Asking cfg φ.phase e := ⟨hstart, hclaim.1, p, previous, hph, hclaim.2⟩
    refine Follows.bind (claimUnavailableSlot_obeys policy hask) ?_
    rintro ⟨policy', r⟩ own' φ₁ ⟨rfl, hok, herr⟩
    rcases r with err | ⟨⟩
    · have hc := herr err rfl
      exact (handleClaimError_obeys policy' err (hc.phase ▸ hask)).mono fun _ _ _ h =>
        settled_of_phase (h.trans (hc.phase.trans hph)) (passive_filled _ _)
    · exact applyMarked_obeys policy' hstart (hok rfl)
  · rename_i hheld
    refine applyMarked_obeys policy hstart ⟨p, previous, hph, ?_⟩
    by_contra hnot
    simp only [not_or, Bool.not_eq_true] at hnot
    exact hheld hnot

theorem reconcileEnactment_obeys (policy : Policy) {p : Policy} {previous : ConditionList}
    (hph : φ.phase = .filled p previous) :
    Obeys cfg i (reconcileEnactment cfg i policy previous) (fun _ _ φ' => Settled φ') own φ := by
  have hsettled : ∀ {φ' : Ghost}, φ'.phase = φ.phase → Settled φ' := fun h =>
    settled_of_phase (h.trans hph) (passive_filled _ _)
  refine obeys_quiet rfl fun r w hw ht hc => ?_
  rcases r with err | e
  · exact hsettled hc.phase
  obtain rfl : own = some e := hw.symm.trans ht
  refine obeys_quiet rfl fun r _ _ ht hc₁ => ?_
  have hph₁ := (hc.trans hc₁).phase
  rcases r with err | fresh
  · cases err with
    | notFound => exact absurd ht (by simp [Truthful, Err.injected])
    | _ => exact hsettled hph₁
  show Obeys cfg i (if _ then _ else _) _ _ _
  split
  · exact hsettled hph₁
  rename_i hretries
  show Obeys cfg i (if _ then _ else _) _ _ _
  split
  · refine Follows.bind releaseUnavailableSlotByAudit_obeys ?_
    rintro r own' φ₂ ⟨-, hc₂⟩
    rcases r with err | ⟨⟩ <;> exact hsettled (hc₂.phase.trans hph₁)
  rename_i hav
  show Obeys cfg i (if _ then _ else _) _ _ _
  split
  · rename_i hfin
    exact (finalizeInterruptedApply_obeys hfin (hph₁.trans hph)).mono fun _ _ _ h =>
      hsettled (h.trans hph₁)
  rename_i hfin
  exact claimAndApply_obeys policy ⟨by omega, by simpa using hav, by simpa using hfin⟩
    (hph₁.trans hph)

end

/-! ## Preparing the enactment -/

section

variable {cfg : Config} {i : NodeName} {own : Option EnactmentStatus} {φ : Ghost}

theorem unmatchedNodeLabels_obeys (client : Client) (policy : Policy) :
    Obeys cfg i (unmatchedNodeLabels client policy) (Steady own φ) own φ := by
  refine obeys_quiet rfl fun r _ _ _ hc => ?_
  rcases r with err | labels <;> exact ⟨rfl, hc⟩

theorem waitEnactmentCreated_obeys (polls : ℕ) :
    Obeys cfg i (waitEnactmentCreated polls) (Steady own φ) own φ := by
  induction polls generalizing φ with
  | zero => exact ⟨rfl, Calm.refl φ⟩
  | succ polls ih =>
    refine obeys_quiet rfl fun r _ _ _ hc => ?_
    rcases r with err | status
    · cases err with
      | notFound => exact (ih (φ := _)).mono fun _ _ _ h => ⟨h.1, hc.trans h.2⟩
      | _ => exact ⟨rfl, hc⟩
    · exact ⟨rfl, hc⟩

/-- What `initializeEnactment` leaves for the policy `p`. -/
def Initializes (p : Policy) : Except Err EnactmentStatus → Option EnactmentStatus → Ghost → Prop :=
  fun r own' φ' => (∀ e, r = .ok e → own' = some e ∧ φ'.phase = .initialized p e.conditions) ∧
    ∀ err, r = .error err → φ'.phase = .looked p

theorem createEnactment_obeys {p : Policy} (hph : φ.phase = .looked p) :
    Obeys cfg i createEnactment (Initializes p) none φ := by
  have hfail : ∀ {err : Err} {own' : Option EnactmentStatus} {φ' : Ghost},
      φ'.phase = φ.phase → Initializes p (.error err) own' φ' :=
    fun h => ⟨nofun, fun _ _ => h.trans hph⟩
  refine obeys_quiet rfl fun r _ _ _ hc => ?_
  rcases r with err | fresh
  · exact hfail hc.phase
  refine Follows.bind (unmatchedNodeLabels_obeys .api fresh) ?_
  rintro r own' φ₁ ⟨rfl, hc₁⟩
  have hc := hc.trans hc₁
  rcases r with err | _ | _
  · exact hfail hc.phase
  · refine obeys_quiet rfl fun r _ _ _ hc₂ => ?_
    have hc := hc.trans hc₂
    rcases r with err | labels
    · exact hfail hc.phase
    refine obeys_quiet rfl fun created _ _ _ hc₃ => ?_
    have hc := hc.trans hc₃
    refine obeys_ask (.create (hc.phase.trans hph)) fun r w hw _ => ?_
    rcases r with err | ⟨⟩
    · exact hfail hc.phase
    rw [show (w.after i .createEnactment (.ok ())).enactments i = some {} from
      World.setEnactment_self _ _ _]
    refine Follows.bind (waitEnactmentCreated_obeys enactmentPolls) ?_
    rintro r own' φ₂ ⟨rfl, hc₄⟩
    have hph₂ : φ₂.phase = φ.phase := hc₄.phase.trans hc.phase
    rcases r with err | ⟨⟩
    · exact hfail hph₂
    refine Follows.bind (enactmentStatusUpdate_obeys ?_) ?_
    · intro e t φ' he hc'
      cases he
      exact .firstStatus (hc'.phase.trans (hph₂.trans hph))
    intro r own' φ₃ hr
    rcases r with err | ⟨⟩
    · exact hfail ((hr.2 err rfl).calm.phase.trans hph₂)
    obtain ⟨⟨e, t, he, rfl, hph₃⟩, -⟩ := hr.1 rfl
    have hph₃ : φ₃.phase = φ.phase := hph₃.trans hph₂
    refine ⟨.observe rfl, ?_⟩
    rintro r own' ⟨w, hw, ht, rfl⟩
    rcases r with err | e
    · exact hfail hph₃
    · refine ⟨fun e' he' => ?_, nofun⟩
      cases he'
      refine ⟨ht, ?_⟩
      show φ₃.phase.next (.getEnactment .refresh) (.ok e) = _
      rw [hph₃.trans hph]
      rfl
  · exact hfail hc.phase

theorem initializeEnactment_obeys {p : Policy} (hph : φ.phase = .looked p) :
    Obeys cfg i initializeEnactment (Initializes p) own φ := by
  refine obeys_observe rfl fun r w hw ht => ?_
  rcases r with err | e
  · have hph₁ : (φ.next (.getEnactment .lookup) (.error err)).phase = .looked p := hph
    cases err with
    | notFound =>
      obtain rfl : own = none := hw.symm.trans (ht rfl)
      exact createEnactment_obeys hph₁
    | _ => exact ⟨nofun, fun _ _ => hph₁⟩
  · refine ⟨fun e' he' => ?_, nofun⟩
    cases he'
    refine ⟨hw.symm.trans ht, ?_⟩
    rw [Ghost.phase_next, hph]
    rfl

/-- What `fillInEnactmentStatus` leaves. -/
def Fills (p : Policy) (previous : ConditionList) :
    Except Err Unit → Option EnactmentStatus → Ghost → Prop :=
  fun r _ φ' => (r = .ok () → φ'.phase = .filled p previous) ∧
    ∀ err, r = .error err → Passive φ'.phase

theorem fillInEnactmentStatus_obeys {p : Policy} {previous : ConditionList} {e : EnactmentStatus}
    (hph : φ.phase = .initialized p previous) :
    Obeys cfg i (fillInEnactmentStatus cfg p e) (Fills p previous) (some e) φ := by
  have hfail : ∀ {err : Err} {own' : Option EnactmentStatus} {φ' : Ghost} {ph : Phase},
      φ'.phase = ph → Passive ph → Fills p previous (.error err) own' φ' :=
    fun h hp => ⟨nofun, fun _ _ => h ▸ hp⟩
  refine obeys_quiet rfl fun r _ _ _ hc => ?_
  have hph₀ := hc.phase.trans hph
  rcases r with err | current
  · exact hfail hph₀ fun _ => ⟨nofun, nofun⟩
  refine obeys_ask (.generate hph₀) fun r w hw _ => ?_
  rw [show (w.after i (.generateState p.spec current e.capturedStates) r).enactments i = some e by
    rcases r with _ | _ <;> exact hw]
  have hph₁ := Ghost.phase_next (φ.next .nmstatectlShow (.ok current))
    (.generateState p.spec current e.capturedStates) r
  rw [hph₀] at hph₁
  rcases r with err | ⟨captured, generated⟩
  · -- the generation is recorded before the failure is
    refine Follows.bind (enactmentStatusUpdate_obeys ?_) ?_
    · intro e' t φ' he hc'
      cases he
      exact .resetGeneration (hc'.phase.trans hph₁)
    intro r own' φ₂ hr
    rcases r with err | ⟨⟩
    · exact hfail ((hr.2 err rfl).calm.phase.trans hph₁) fun _ => ⟨nofun, nofun⟩
    obtain ⟨⟨e', t, he, rfl, hph₂⟩, -⟩ := hr.1 rfl
    rw [hph₁] at hph₂
    have hph₂ : φ₂.phase = .generationReset p := hph₂
    exact Follows.bind (notify_keeps (n := .generateFailure) ⟨p, hph₂⟩ nofun nofun)
      fun _ _ _ h => hfail (h.2.trans hph₂) fun _ => ⟨nofun, nofun⟩
  · cases hvlan : cfg.applyDefaultVlanFiltering generated with
    | error err =>
      simp only [hvlan]
      exact hfail hph₁ fun _ => ⟨nofun, nofun⟩
    | ok desired =>
      simp only [hvlan]
      refine obeys_quiet rfl fun stats _ _ _ hc₂ => ?_
      have hph₂ := hc₂.phase.trans hph₁
      refine Follows.mono (enactmentStatusUpdate_obeys ?_) ?_
      · intro e' t φ' he hc'
        cases he
        exact .fill (hc'.phase.trans hph₂) hvlan
      intro r own' φ₃ hr
      rcases r with err | ⟨⟩
      · exact hfail ((hr.2 err rfl).calm.phase.trans hph₂) fun _ => ⟨nofun, nofun⟩
      · obtain ⟨⟨e', t, he, rfl, hph₃⟩, -⟩ := hr.1 rfl
        rw [hph₂] at hph₃
        exact ⟨fun _ => hph₃, nofun⟩

end

/-! ## Reconcile and reclaim -/

section

variable {cfg : Config} {i : NodeName} {own : Option EnactmentStatus} {φ : Ghost}

theorem deleteEnactmentForPolicy_obeys {p : Policy} (hph : φ.phase = .looked p) :
    Obeys cfg i deleteEnactmentForPolicy (fun _ _ φ' => φ'.phase = .looked p) own φ := by
  refine obeys_ask (.delete hph) fun r w hw _ => ?_
  rcases r with err | ⟨⟩
  · cases err <;> exact hph
  · exact hph

theorem passive_looked (p : Policy) : Passive (.looked p) := fun _ => ⟨nofun, nofun⟩

theorem reconcileInstance_obeys {p : Policy} (hph : φ.phase = .looked p) :
    Obeys cfg i (reconcileInstance cfg i p) (fun _ _ φ' => Settled φ') own φ := by
  refine Follows.bind (unmatchedNodeLabels_obeys .cached p) ?_
  rintro r own' φ₁ ⟨rfl, hc⟩
  have hph₁ := hc.phase.trans hph
  rcases r with err | _ | _
  · exact settled_of_phase hph₁ (passive_looked p)
  · refine Follows.bind (initializeEnactment_obeys hph₁) ?_
    intro r own' φ₂ hr
    rcases r with err | e
    · exact settled_of_phase (hr.2 err rfl) (passive_looked p)
    obtain ⟨rfl, hph₂⟩ := hr.1 e rfl
    refine Follows.bind (fillInEnactmentStatus_obeys hph₂) ?_
    intro r own' φ₃ hr
    rcases r with err | ⟨⟩
    · cases err <;> exact Or.inr (hr.2 _ rfl)
    · exact reconcileEnactment_obeys p (hr.1 rfl)
  · exact Follows.bind (deleteEnactmentForPolicy_obeys hph₁) fun _ _ _ h =>
      settled_of_phase h (passive_looked p)

theorem Settled.calm {φ' : Ghost} (h : Settled φ) (hc : Calm φ φ') : Settled φ' := by
  rcases h with h | h
  · exact Or.inl (hc.fault h)
  · exact settled_of_phase hc.phase h

theorem reconcileAndUpdate_obeys {p : Policy} (hph : φ.phase = .looked p) :
    Obeys cfg i (reconcileAndUpdate cfg i p) (fun _ _ φ' => Settled φ') own φ := by
  refine Follows.bind (reconcileInstance_obeys hph) fun _ _ φ₁ hs => ?_
  exact Follows.bind policyConditionsUpdate_obeys fun _ _ _ h => hs.calm h.2

theorem passive_idle : Passive .idle := fun _ => ⟨nofun, nofun⟩

/-- **Reconcile follows the rules**, and gives back or marks every slot it takes unless a
call failed. -/
theorem reconcile_obeys (cfg : Config) (i : NodeName) (own : Option EnactmentStatus) :
    Obeys cfg i (reconcile cfg i) (fun _ _ φ' => Settled φ') own {} := by
  refine obeys_observe rfl fun r _ _ ht => ?_
  rcases r with err | p
  · cases err with
    | notFound => exact absurd ht (by simp [Truthful, Err.injected])
    | _ => exact Or.inr passive_idle
  · show Obeys cfg i (if _ then _ else _) _ _ _
    split
    · refine Follows.bind policyConditionsReset_obeys ?_
      rintro r own' φ₁ ⟨rfl, hc⟩
      exact reconcileAndUpdate_obeys hc.phase
    · exact reconcileAndUpdate_obeys rfl

theorem listOwnEnactments_obeys :
    Obeys cfg i listOwnEnactments (fun r own' φ' => own' = own ∧ φ'.phase = φ.phase ∧
      (r.2 = .ok () → r.1 = own.toList)) own φ := by
  refine Follows.mono (Follows.retryWith (I := fun _ own' φ' => own' = own ∧ φ'.phase = φ.phase)
    (Q := fun l own' φ' => own' = own ∧ φ'.phase = φ.phase ∧ l = own.toList)
    (R := fun _ _ _ => True) ?_ (by decide) ⟨rfl, rfl⟩) ?_
  · rintro _ own₁ φ₁ ⟨rfl, h₁⟩
    refine obeys_quiet rfl fun r w hw ht hc => ?_
    rcases r with err | l
    · exact ⟨nofun, fun _ _ => ⟨⟨rfl, hc.phase.trans h₁⟩, trivial⟩⟩
    · exact ⟨fun _ => ⟨rfl, hc.phase.trans h₁, hw ▸ ht⟩, nofun⟩
  · rintro ⟨l, r⟩ own' φ' h
    rcases r with err | ⟨⟩
    · exact ⟨(h.2 err rfl).1.1, (h.2 err rfl).1.2, nofun⟩
    · exact ⟨(h.1 rfl).1, (h.1 rfl).2.1, fun _ => (h.1 rfl).2.2⟩

theorem settled_reclaiming (h : φ.phase = .reclaiming) : Settled φ :=
  settled_of_phase h fun _ => ⟨nofun, nofun⟩

theorem reclaimOne_obeys (e : EnactmentStatus) (hph : φ.phase = .reclaiming) :
    Obeys cfg i (reclaimEach cfg [e]) (fun _ _ φ' => φ'.phase = .reclaiming) (some e) φ := by
  unfold reclaimEach
  split
  · rename_i hprog
    split
    · rename_i hfin
      refine Follows.bind (notify_keeps (n := .success) ⟨hfin, Or.inr (Or.inl hph)⟩ nofun nofun) ?_
      rintro r own' φ₁ ⟨-, hph₁⟩
      rcases r with err | ⟨⟩
      · exact hph₁.trans hph
      · exact Follows.bind auditUnavailableSlots_obeys fun _ _ _ h =>
          h.2.phase.trans (hph₁.trans hph)
    · rename_i hfin
      have happ : Applying e := ⟨hprog, by simpa using hfin⟩
      refine Follows.bind (enactmentStatusUpdate_obeys ?_) ?_
      · intro e' t φ' he hc
        cases he
        exact .interrupted (hc.phase.trans hph) happ
      intro r own' φ₁ hr
      rcases r with err | ⟨⟩
      · exact (hr.2 err rfl).calm.phase.trans hph
      · obtain ⟨⟨e', t, he, rfl, hph₁⟩, -⟩ := hr.1 rfl
        have hph₁ : φ₁.phase = .reclaiming := hph₁.trans hph
        exact Follows.bind auditUnavailableSlots_obeys fun _ _ _ h => h.2.phase.trans hph₁
  · exact hph

/-- **The startup reclaim follows the rules.** -/
theorem reclaim_obeys (cfg : Config) (i : NodeName) (own : Option EnactmentStatus) :
    Obeys cfg i (reclaimInterruptedSlots cfg) (fun _ _ φ' => Settled φ') own
      { phase := .reclaiming } := by
  refine Follows.bind listOwnEnactments_obeys ?_
  rintro ⟨l, r⟩ own' φ₁ ⟨rfl, hph, hl⟩
  rcases r with err | ⟨⟩
  · exact settled_reclaiming hph
  obtain rfl : l = own'.toList := hl rfl
  cases own' with
  | none => exact settled_reclaiming hph
  | some e => exact (reclaimOne_obeys e hph).mono fun _ _ _ h => settled_reclaiming h

end
