/-
# Executions taken apart, executions cut short, and polling

Three additions to the programs over a service interface.

* An execution of a sequence is an execution of the first program followed by one of the
  second (`Exec.of_bind`), so what a program does can be read off its text.
* `Begun` is an execution that stops anywhere, as that of a killed process does.  What holds
  before every call and at the end of a program holds wherever it is stopped (`Follows.begun`).
* `Prog.poll` repeats a check until it answers, fails, or the time is up.  Its rule
  `Follows.poll` asks for an invariant of the attempts, and `Exec.of_poll_ok` finds the check
  that ended a successful poll.
-/
import KubernetesNmstate.Prog

variable {S : Sig} {W Φ : Type} {α β : Type}

/-! ## Executions of sequences -/

namespace Exec

variable {env : Env S W}

theorem of_ret {a b : α} {w w' : W} {tr : List (Called S)}
    (h : Exec env (.ret a : Prog S α) w tr b w') : b = a ∧ w' = w ∧ tr = [] := by
  obtain - | - := h
  exact ⟨rfl, rfl, rfl⟩

/-- A program that returns an error does not succeed. -/
theorem not_ok_of_error {ε : Type} {e : ε} {a : α} {w w' : W} {tr : List (Called S)} :
    ¬ Exec env (.ret (.error e) : Prog S (Except ε α)) w tr (.ok a) w' := by
  intro h
  obtain ⟨hret, -, -⟩ := of_ret h
  cases hret

theorem of_call {o : S.Op} {k : S.Resp o → Prog S α} {w w' : W} {tr : List (Called S)} {a : α}
    (h : Exec env (.call o k) w tr a w') :
    ∃ r w₁ tr', env.serve w o r w₁ ∧ Exec env (k r) w₁ tr' a w' ∧ tr = ⟨o, r⟩ :: tr' := by
  obtain - | ⟨hs, hk⟩ := h
  exact ⟨_, _, _, hs, hk, rfl⟩

/-- An execution of a sequence, at the point where the second program starts. -/
theorem of_bind {p : Prog S α} {f : α → Prog S β} {w w' : W} {tr : List (Called S)} {b : β}
    (h : Exec env (p >>= f) w tr b w') :
    ∃ tr₁ a w₁ tr₂, Exec env p w tr₁ a w₁ ∧ Exec env (f a) w₁ tr₂ b w' ∧ tr = tr₁ ++ tr₂ := by
  induction p generalizing w tr with
  | ret a => exact ⟨[], a, w, tr, .ret, h, rfl⟩
  | call o k ih =>
    obtain ⟨r, w₁, tr', hs, hk, rfl⟩ := of_call h
    obtain ⟨tr₁, a, w₂, tr₂, hp, hf, rfl⟩ := ih r hk
    exact ⟨⟨o, r⟩ :: tr₁, a, w₂, tr₂, .call hs hp, hf, rfl⟩

/-- An execution of a sequence, put together. -/
theorem bind {p : Prog S α} {f : α → Prog S β} {w w₁ w' : W} {tr tr' : List (Called S)} {a : α}
    {b : β} (h : Exec env p w tr a w₁) (hf : Exec env (f a) w₁ tr' b w') :
    Exec env (p >>= f) w (tr ++ tr') b w' := by
  induction h with
  | ret => exact hf
  | call hs _ ih => exact .call hs (ih hf)

/-- An execution of a call and what follows it. -/
theorem of_perform {o : S.Op} {f : S.Resp o → Prog S α} {w w' : W} {tr : List (Called S)} {a : α}
    (h : Exec env (Prog.perform o >>= f) w tr a w') :
    ∃ r w₁ tr', env.serve w o r w₁ ∧ Exec env (f r) w₁ tr' a w' ∧ tr = ⟨o, r⟩ :: tr' :=
  of_call h

end Exec

/-! ## Executions cut short -/

/-- `Begun env p w tr w'`: in surroundings `env`, the program `p` started at `w` has made the
answered calls `tr`, and the world is at `w'`.  Nothing is asked of the rest of the program. -/
inductive Begun (env : Env S W) : Prog S α → W → List (Called S) → W → Prop where
  | stop {p : Prog S α} {w : W} : Begun env p w [] w
  | call {o : S.Op} {k : S.Resp o → Prog S α} {w w₁ w' : W} {r : S.Resp o}
      {tr : List (Called S)} (hs : env.serve w o r w₁)
      (hk : Begun env (k r) w₁ tr w') : Begun env (.call o k) w (⟨o, r⟩ :: tr) w'

/-- A complete execution. -/
theorem Exec.begun {env : Env S W} {p : Prog S α} {w w' : W} {tr : List (Called S)} {a : α}
    (h : Exec env p w tr a w') : Begun env p w tr w' := by
  induction h with
  | ret => exact .stop
  | call hs _ ih => exact .call hs ih

namespace Begun

variable {env : Env S W}

theorem of_ret {a : α} {w w' : W} {tr : List (Called S)}
    (h : Begun env (.ret a : Prog S α) w tr w') : w' = w ∧ tr = [] := by
  obtain - | - := h
  exact ⟨rfl, rfl⟩

theorem not_mem_of_ret {a : α} {w w' : W} {tr : List (Called S)} {c : Called S}
    (h : Begun env (.ret a : Prog S α) w tr w') : c ∉ tr := by
  obtain ⟨-, rfl⟩ := of_ret h
  exact List.not_mem_nil

theorem of_call {o : S.Op} {k : S.Resp o → Prog S α} {w w' : W} {tr : List (Called S)}
    (h : Begun env (.call o k) w tr w') :
    (w' = w ∧ tr = []) ∨
      ∃ r w₁ tr', env.serve w o r w₁ ∧ Begun env (k r) w₁ tr' w' ∧ tr = ⟨o, r⟩ :: tr' := by
  obtain - | ⟨hs, hk⟩ := h
  · exact Or.inl ⟨rfl, rfl⟩
  · exact Or.inr ⟨_, _, _, hs, hk, rfl⟩

/-- A sequence that is cut short has been cut in the first program or in the second. -/
theorem of_bind {p : Prog S α} {f : α → Prog S β} {w w' : W} {tr : List (Called S)}
    (h : Begun env (p >>= f) w tr w') :
    Begun env p w tr w' ∨
      ∃ tr₁ a w₁ tr₂, Exec env p w tr₁ a w₁ ∧ Begun env (f a) w₁ tr₂ w' ∧ tr = tr₁ ++ tr₂ := by
  induction p generalizing w tr with
  | ret a => exact Or.inr ⟨[], a, w, tr, .ret, h, rfl⟩
  | call o k ih =>
    obtain ⟨rfl, rfl⟩ | ⟨r, w₁, tr', hs, hk, rfl⟩ := of_call h
    · exact Or.inl .stop
    · rcases ih r hk with hcut | ⟨tr₁, a, w₂, tr₂, hp, hf, rfl⟩
      · exact Or.inl (.call hs hcut)
      · exact Or.inr ⟨⟨o, r⟩ :: tr₁, a, w₂, tr₂, .call hs hp, hf, rfl⟩

theorem of_perform {o : S.Op} {f : S.Resp o → Prog S α} {w w' : W} {tr : List (Called S)}
    (h : Begun env (Prog.perform o >>= f) w tr w') :
    (w' = w ∧ tr = []) ∨
      ∃ r w₁ tr', env.serve w o r w₁ ∧ Begun env (f r) w₁ tr' w' ∧ tr = ⟨o, r⟩ :: tr' :=
  of_call h

/-- The calls made so far are calls of the program. -/
theorem only {C : S.Op → Prop} {p : Prog S α} {w w' : W} {tr : List (Called S)}
    (h : Begun env p w tr w') (hp : p.Only C) : ∀ c ∈ tr, C c.1 := by
  induction h with
  | stop =>
    intro c hc
    cases hc
  | call _ _ ih =>
    intro c hc
    rcases List.mem_cons.mp hc with rfl | hc
    · exact hp.1
    · exact ih (hp.2 _) c hc

/-- A call that the first program of a sequence does not make is made in the second. -/
theorem after {C : S.Op → Prop} {p : Prog S α} {f : α → Prog S β} {w w' : W}
    {tr : List (Called S)} {c : Called S} (h : Begun env (p >>= f) w tr w') (hp : p.Only C)
    (hc : ¬ C c.1) (hmem : c ∈ tr) :
    ∃ tr₁ a w₁ tr₂, Exec env p w tr₁ a w₁ ∧ Begun env (f a) w₁ tr₂ w' ∧ tr = tr₁ ++ tr₂ ∧
      c ∈ tr₂ := by
  obtain hcut | ⟨tr₁, a, w₁, tr₂, hexec, hrest, rfl⟩ := of_bind h
  · exact absurd (hcut.only hp c hmem) hc
  · refine ⟨tr₁, a, w₁, tr₂, hexec, hrest, rfl, ?_⟩
    refine (List.mem_append.mp hmem).resolve_left fun hfirst => ?_
    exact hc (hexec.begun.only hp c hfirst)

/-- A call that the second program of a sequence does not make is made in the first. -/
theorem before {C : S.Op → Prop} {p : Prog S α} {f : α → Prog S β} {w w' : W}
    {tr : List (Called S)} {c : Called S} (h : Begun env (p >>= f) w tr w')
    (hf : ∀ a, (f a).Only C) (hc : ¬ C c.1) (hmem : c ∈ tr) :
    ∃ tr₁ w₁, Begun env p w tr₁ w₁ ∧ tr₁ ⊆ tr ∧ c ∈ tr₁ := by
  obtain hcut | ⟨tr₁, a, w₁, tr₂, hexec, hrest, rfl⟩ := of_bind h
  · exact ⟨tr, w', hcut, List.Subset.refl _, hmem⟩
  · refine ⟨tr₁, w₁, hexec.begun, List.subset_append_left _ _, ?_⟩
    refine (List.mem_append.mp hmem).resolve_right fun hlater => ?_
    exact hc (hrest.only (hf a) c hlater)

/-- **Frame rule for calls made.**  What every call in `C` keeps is kept while all calls are in
`C`. -/
theorem keeps {C : Called S → Prop} {I : W → Prop}
    (hkeep : ∀ {o w r w'}, C ⟨o, r⟩ → I w → env.serve w o r w' → I w') {p : Prog S α} {w w' : W}
    {tr : List (Called S)} (h : Begun env p w tr w') (htr : ∀ c ∈ tr, C c) (hI : I w) : I w' := by
  induction h with
  | stop => exact hI
  | call hs _ ih =>
    refine ih (fun c hc => htr c (List.mem_cons_of_mem _ hc)) ?_
    exact hkeep (htr _ List.mem_cons_self) hI hs

end Begun

/-- **Soundness for executions cut short.**  What the monitor asks for before every call and the
postcondition ensures at the end holds wherever the program is stopped. -/
theorem Follows.begun {env : Env S W} {next : W → Φ → (o : S.Op) → S.Resp o → Φ} {I : W → Prop}
    {p : Prog S α} {Q : α → W → Φ → Prop} {w w' : W} {φ : Φ} {tr : List (Called S)}
    (h : Follows env ⟨fun w _ _ => I w, next⟩ p Q w φ) (hQ : ∀ a w φ, Q a w φ → I w)
    (hx : Begun env p w tr w') : I w' := by
  induction hx generalizing φ with
  | @stop p w =>
    cases p with
    | ret a => exact hQ a w φ h
    | call o k => exact h.1
  | call hs _ ih => exact ih (h.2 _ _ hs)

/-! ## Polling -/

namespace Prog

variable {ε : Type}

/-- What an attempt of a poll leads to: its error, success, or `again`. -/
def afterCheck (again : Prog S (Except ε Unit)) : Except ε Bool → Prog S (Except ε Unit)
  | .error e => .ret (.error e)
  | .ok true => .ret (.ok ())
  | .ok false => again

/-- Repeat `check` until it answers `true` or fails.  Between two attempts `tick` waits for the
next one and answers whether the time is up; at most `n` attempts follow the first. -/
def poll (check : Prog S (Except ε Bool)) (tick : Prog S Bool) (expired : ε) :
    ℕ → Prog S (Except ε Unit)
  | 0 => check >>= afterCheck (tick >>= fun _ => .ret (.error expired))
  | n + 1 => check >>= afterCheck (tick >>= fun done =>
      if done = true then .ret (.error expired) else poll check tick expired n)

variable {C : S.Op → Prop} {check : Prog S (Except ε Bool)} {tick : Prog S Bool} {expired : ε}

theorem Only.poll (hcheck : check.Only C) (htick : tick.Only C) (n : ℕ) :
    (Prog.poll check tick expired n).Only C := by
  have hafter : ∀ {again : Prog S (Except ε Unit)}, again.Only C →
      ∀ r, (afterCheck again r).Only C := by
    rintro again hagain (_ | _ | _)
    · trivial
    · exact hagain
    · trivial
  induction n with
  | zero => exact hcheck.bind (hafter (htick.bind fun _ => trivial))
  | succ n ih =>
    refine hcheck.bind (hafter (htick.bind fun done => ?_))
    split
    · trivial
    · exact ih

end Prog

section Poll

variable {ε : Type} {env : Env S W} {m : Monitor S W Φ} {check : Prog S (Except ε Bool)}
  {tick : Prog S Bool} {expired : ε}

/-- **Poll rule.**  An attempt started in `I` answers in `Q`, fails in `R`, or has to be repeated
in `J`; waiting in `J` leads back to `I`, or to `R` when the time is up. -/
theorem Follows.poll {I J : W → Φ → Prop} {Q : W → Φ → Prop} {R : ε → W → Φ → Prop}
    (hcheck : ∀ w φ, I w φ → Follows env m check (fun r w φ =>
      (r = .ok true → Q w φ) ∧ (r = .ok false → J w φ) ∧ ∀ e, r = .error e → R e w φ) w φ)
    (htick : ∀ w φ, J w φ → Follows env m tick (fun done w φ =>
      (done = false → I w φ) ∧ R expired w φ) w φ) (n : ℕ) {w : W} {φ : Φ} (h : I w φ) :
    Follows env m (Prog.poll check tick expired n) (fun r w φ =>
      (r = .ok () → Q w φ) ∧ ∀ e, r = .error e → R e w φ) w φ := by
  have hafter : ∀ {again : Prog S (Except ε Unit)} {r : Except ε Bool} {w : W} {φ : Φ},
      ((r = .ok true → Q w φ) ∧ (r = .ok false → J w φ) ∧ ∀ e, r = .error e → R e w φ) →
      (J w φ → Follows env m again (fun r w φ =>
        (r = .ok () → Q w φ) ∧ ∀ e, r = .error e → R e w φ) w φ) →
      Follows env m (Prog.afterCheck again r) (fun r w φ =>
        (r = .ok () → Q w φ) ∧ ∀ e, r = .error e → R e w φ) w φ := by
    rintro again (e | _ | _) w φ ⟨hQ, hJ, hR⟩ hagain
    · refine ⟨fun h => ?_, fun e' h => ?_⟩
      · cases h
      · cases h
        exact hR e rfl
    · exact hagain (hJ rfl)
    · refine ⟨fun _ => hQ rfl, fun e h => ?_⟩
      cases h
  have htimeout : ∀ {w : W} {φ : Φ}, R expired w φ → Follows env m (.ret (.error expired))
      (fun r w φ => (r = Except.ok () → Q w φ) ∧ ∀ e, r = .error e → R e w φ) w φ := by
    intro w φ hR
    refine ⟨fun h => ?_, fun e h => ?_⟩
    · cases h
    · cases h
      exact hR
  induction n generalizing w φ with
  | zero =>
    refine (hcheck w φ h).bind fun r w φ hr => hafter hr fun hJ => ?_
    exact (htick w φ hJ).bind fun _ w φ hdone => htimeout hdone.2
  | succ n ih =>
    refine (hcheck w φ h).bind fun r w φ hr => hafter hr fun hJ => ?_
    refine (htick w φ hJ).bind fun done w φ hdone => ?_
    rcases done with _ | _
    · exact ih (hdone.1 rfl)
    · exact htimeout hdone.2

/-- A poll that succeeds ends with a check that does. -/
theorem Exec.of_poll_ok {n : ℕ} {w w' : W} {tr : List (Called S)}
    (h : Exec env (Prog.poll check tick expired n) w tr (.ok ()) w') :
    ∃ tr₁ w₁ tr₂, Exec env check w₁ tr₂ (.ok true) w' ∧ tr = tr₁ ++ tr₂ := by
  -- after a check the program has succeeded, or it goes on with `again`
  have hafter : ∀ {again : Prog S (Except ε Unit)} {r : Except ε Bool} {w : W}
      {tr : List (Called S)}, Exec env (Prog.afterCheck again r) w tr (.ok ()) w' →
      (r = .ok true ∧ w' = w ∧ tr = []) ∨ Exec env again w tr (.ok ()) w' := by
    rintro again (e | _ | _) w tr hx
    · exact absurd (Exec.of_ret hx).1 (by simp)
    · exact Or.inr hx
    · exact Or.inl ⟨rfl, (Exec.of_ret hx).2⟩
  have hcut : ∀ {again : Prog S (Except ε Unit)} {w : W} {tr : List (Called S)},
      Exec env (check >>= Prog.afterCheck again) w tr (.ok ()) w' →
      (∀ {w₂ tr₂}, Exec env again w₂ tr₂ (.ok ()) w' →
        ∃ tr₁ w₁ tr₃, Exec env check w₁ tr₃ (.ok true) w' ∧ tr₂ = tr₁ ++ tr₃) →
      ∃ tr₁ w₁ tr₂, Exec env check w₁ tr₂ (.ok true) w' ∧ tr = tr₁ ++ tr₂ := by
    intro again w tr hx hagain
    obtain ⟨tr₁, r, w₁, tr₂, hc, hr, rfl⟩ := Exec.of_bind hx
    rcases hafter hr with ⟨rfl, rfl, rfl⟩ | hr
    · exact ⟨[], w, tr₁, hc, by simp⟩
    · obtain ⟨tr₃, w₂, tr₄, hc', rfl⟩ := hagain hr
      exact ⟨tr₁ ++ tr₃, w₂, tr₄, hc', by simp⟩
  induction n generalizing w tr with
  | zero =>
    refine hcut h fun hx => ?_
    obtain ⟨_, _, _, _, -, hr, -⟩ := Exec.of_bind hx
    exact absurd (Exec.of_ret hr).1 (by simp)
  | succ n ih =>
    refine hcut h fun hx => ?_
    obtain ⟨tr₁, done, w₁, tr₂, -, hr, rfl⟩ := Exec.of_bind hx
    rcases done with _ | _
    · obtain ⟨tr₃, w₂, tr₄, hc, rfl⟩ := ih hr
      exact ⟨tr₁ ++ tr₃, w₂, tr₄, hc, by simp⟩
    · exact absurd (Exec.of_ret hr).1 (by simp)

end Poll
