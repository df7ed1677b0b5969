/-
# Programs over a service interface, and the disciplines they follow

A program is a finite tree of calls to a service: it either returns a value or
issues one call and continues with the answer.  Nothing here knows what the
calls are; a `Sig` supplies them.

* `Prog S α` is the tree, with its monad structure and the retry loop
  `retryWith`;
* an `Env` says which answers a call can get, and what the call does to the part
  `W` of the world that only this program writes;
* a `Monitor` watches the calls of one program: it carries a ghost state, says
  which calls are permitted in it (`guard`), and moves on every answer (`next`);
* `Follows` is the weakest precondition of a program under both: every call is
  permitted whatever the answers are, and the result satisfies the
  postcondition.

As nobody else writes `W`, a suspended program keeps following its monitor while
others run.  `Follows` composes along `>>=` (`Follows.bind`), has an invariant rule
for retry loops (`Follows.retryWith`) and a frame rule for programs whose calls all
keep an invariant (`Prog.Only`, `Follows.of_calls`), and is sound for complete
executions (`Follows.exec`).  An execution carries over to other surroundings
(`Exec.map`), and `Prog.play` makes executions by computation.
-/
import Mathlib.Logic.Function.Basic
import Mathlib.Tactic.Common

/-! ## Programs -/

/-- An interface: the calls, and the type of the answer to each. -/
structure Sig where
  Op : Type
  Resp : Op → Type

/-- A program over the interface `S`: return a value, or issue a call and
continue with its answer. -/
inductive Prog (S : Sig) (α : Type) : Type where
  | ret (a : α) : Prog S α
  | call (o : S.Op) (k : S.Resp o → Prog S α) : Prog S α

namespace Prog

variable {S : Sig} {α β γ : Type}

/-- Sequencing. -/
def bind : Prog S α → (α → Prog S β) → Prog S β
  | ret a, f => f a
  | call o k, f => call o (fun r => (k r).bind f)

instance : Monad (Prog S) where
  pure := ret
  bind := bind

theorem bind_assoc (p : Prog S α) (f : α → Prog S β) (g : β → Prog S γ) :
    p >>= f >>= g = p >>= fun a => f a >>= g := by
  induction p with
  | ret a => rfl
  | call o k ih => exact congrArg (call o) (funext ih)

/-- The program that issues one call and returns its answer. -/
def perform (o : S.Op) : Prog S (S.Resp o) := call o ret

/-- A retry loop whose body threads a value `σ` from one attempt to the next.
It makes at most `steps` attempts, stops at the first success, and stops early at
an error that is not `retriable`; the last error is returned.  With no step at
all it returns no error. -/
def retryWith {σ ε : Type} (retriable : ε → Bool) (body : σ → Prog S (σ × Except ε Unit)) :
    ℕ → σ → Prog S (σ × Except ε Unit)
  | 0, s => ret (s, .ok ())
  | n + 1, s => do
    match ← body s with
    | (s', .ok ()) => return (s', .ok ())
    | (s', .error e) =>
      if retriable e = true ∧ n ≠ 0 then retryWith retriable body n s' else return (s', .error e)

/-- The call a program is suspended in. -/
def pending : Prog S α → Option S.Op
  | ret _ => none
  | call o _ => some o

/-- Every call the program can make satisfies `C`. -/
def Only (C : S.Op → Prop) : Prog S α → Prop
  | ret _ => True
  | call o k => C o ∧ ∀ r, (k r).Only C

namespace Only

variable {C : S.Op → Prop}

theorem mono {D : S.Op → Prop} {p : Prog S α} (hp : p.Only C) (h : ∀ o, C o → D o) : p.Only D := by
  induction p with
  | ret a => trivial
  | call o k ih => exact ⟨h o hp.1, fun r => ih r (hp.2 r)⟩

theorem perform {o : S.Op} (ho : C o) : (Prog.perform o).Only C := ⟨ho, fun _ => trivial⟩

theorem bind {p : Prog S α} {f : α → Prog S β} (hp : p.Only C) (hf : ∀ a, (f a).Only C) :
    (p >>= f).Only C := by
  induction p with
  | ret a => exact hf a
  | call o k ih => exact ⟨hp.1, fun r => ih r (hp.2 r)⟩

theorem retryWith {σ ε : Type} {retriable : ε → Bool} {body : σ → Prog S (σ × Except ε Unit)}
    (hbody : ∀ s, (body s).Only C) (n : ℕ) (s : σ) :
    (Prog.retryWith retriable body n s).Only C := by
  induction n generalizing s with
  | zero => trivial
  | succ n ih =>
    refine (hbody s).bind fun r => ?_
    obtain ⟨s', _ | _⟩ := r
    · dsimp only
      split
      · exact ih s'
      · trivial
    · trivial

end Only

end Prog

/-! ## Surroundings and monitors -/

/-- The answers a call can get, and their effect on the part `W` of the world that
only the program writes. -/
structure Env (S : Sig) (W : Type) where
  serve : W → (o : S.Op) → S.Resp o → W → Prop

/-- A monitor of the calls of one program, with ghost state `Φ`. -/
structure Monitor (S : Sig) (W Φ : Type) where
  guard : W → Φ → S.Op → Prop
  next : W → Φ → (o : S.Op) → S.Resp o → Φ

variable {S : Sig} {W Φ : Type} {α β : Type}

/-- `Follows env m p Q w φ`: started at `w` with the monitor in state `φ`, every call
of `p` is permitted by `m` whatever the answers are, and every result satisfies `Q`. -/
def Follows (env : Env S W) (m : Monitor S W Φ) :
    Prog S α → (α → W → Φ → Prop) → W → Φ → Prop
  | .ret a, Q, w, φ => Q a w φ
  | .call o k, Q, w, φ => m.guard w φ o ∧
      ∀ r w', env.serve w o r w' → Follows env m (k r) Q w' (m.next w φ o r)

namespace Follows

variable {env : Env S W} {m : Monitor S W Φ}

/-- Weakening of the postcondition. -/
theorem mono {p : Prog S α} {Q R : α → W → Φ → Prop} {w : W} {φ : Φ}
    (h : Follows env m p Q w φ) (hQ : ∀ a w φ, Q a w φ → R a w φ) : Follows env m p R w φ := by
  induction p generalizing w φ with
  | ret a => exact hQ a w φ h
  | call o k ih => exact ⟨h.1, fun r w' hs => ih r (h.2 r w' hs)⟩

/-- Sequencing: the second program starts in whatever the first one ensures. -/
theorem bind {p : Prog S α} {f : α → Prog S β} {Q : α → W → Φ → Prop}
    {R : β → W → Φ → Prop} {w : W} {φ : Φ} (h : Follows env m p Q w φ)
    (hf : ∀ a w φ, Q a w φ → Follows env m (f a) R w φ) :
    Follows env m (p >>= f) R w φ := by
  induction p generalizing w φ with
  | ret a => exact hf a w φ h
  | call o k ih => exact ⟨h.1, fun r w' hs => ih r (h.2 r w' hs)⟩

/-- One call. -/
theorem perform {o : S.Op} {Q : S.Resp o → W → Φ → Prop} {w : W} {φ : Φ}
    (hg : m.guard w φ o) (h : ∀ r w', env.serve w o r w' → Q r w' (m.next w φ o r)) :
    Follows env m (Prog.perform o) Q w φ := ⟨hg, h⟩

/-- **Retry rule, attempt by attempt.**  `I n` is what holds with `n` attempts left.  If every
attempt started in `I (n + 1)` either succeeds in `Q` or fails in `I n` with an error in `R`, the
loop ends in `Q` on success, and on failure in `R` and in `I` with some attempts left. -/
theorem retrySteps {σ ε : Type} {retriable : ε → Bool} {body : σ → Prog S (σ × Except ε Unit)}
    {I : ℕ → σ → W → Φ → Prop} {Q : σ → W → Φ → Prop} {R : ε → W → Φ → Prop}
    (hbody : ∀ n s w φ, I (n + 1) s w φ → Follows env m (body s)
      (fun r w φ => (r.2 = .ok () → Q r.1 w φ) ∧
        ∀ e, r.2 = .error e → I n r.1 w φ ∧ R e w φ) w φ) {n : ℕ} (hn : n ≠ 0) :
    ∀ {s : σ} {w : W} {φ : Φ}, I n s w φ →
      Follows env m (Prog.retryWith retriable body n s)
        (fun r w φ => (r.2 = .ok () → Q r.1 w φ) ∧
          ∀ e, r.2 = .error e → (∃ left, I left r.1 w φ) ∧ R e w φ) w φ := by
  induction n with
  | zero => exact absurd rfl hn
  | succ n ih =>
    intro s w φ hs
    refine (hbody n s w φ hs).bind fun r w φ hr => ?_
    obtain ⟨s', _ | _⟩ := r
    · rename_i e
      by_cases hc : retriable e = true ∧ n ≠ 0
      · simp only [hc, ne_eq, not_false_eq_true, and_self, if_true]
        exact ih hc.2 (hr.2 e rfl).1
      · simp only [hc, if_false]
        exact ⟨hr.1, fun e he => ⟨⟨n, (hr.2 e he).1⟩, (hr.2 e he).2⟩⟩
    · exact ⟨hr.1, nofun⟩

/-- **Retry rule.**  If every attempt started in `I` either succeeds in `Q` or fails
back in `I` with an error in `R`, the loop ends in `Q` on success and in `I` and `R`
on failure. -/
theorem retryWith {σ ε : Type} {retriable : ε → Bool} {body : σ → Prog S (σ × Except ε Unit)}
    {I : σ → W → Φ → Prop} {Q : σ → W → Φ → Prop} {R : ε → W → Φ → Prop}
    (hbody : ∀ s w φ, I s w φ → Follows env m (body s)
      (fun r w φ => (r.2 = .ok () → Q r.1 w φ) ∧
        ∀ e, r.2 = .error e → I r.1 w φ ∧ R e w φ) w φ) {n : ℕ} (hn : n ≠ 0)
    {s : σ} {w : W} {φ : Φ} (hI : I s w φ) :
    Follows env m (Prog.retryWith retriable body n s)
      (fun r w φ => (r.2 = .ok () → Q r.1 w φ) ∧
        ∀ e, r.2 = .error e → I r.1 w φ ∧ R e w φ) w φ := by
  refine (retrySteps (I := fun _ => I) (fun _ => hbody) hn hI).mono fun r w φ h => ⟨h.1, ?_⟩
  intro e he
  obtain ⟨⟨_, hI⟩, hR⟩ := h.2 e he
  exact ⟨hI, hR⟩

/-- **Frame rule.**  A program whose calls are all permitted in `I` and keep it, keeps it. -/
theorem of_calls {C : S.Op → Prop} {I : W → Φ → Prop} {p : Prog S α} (hp : p.Only C)
    (hguard : ∀ {o w φ}, C o → I w φ → m.guard w φ o)
    (hkeep : ∀ {o w φ r w'}, C o → I w φ → env.serve w o r w' → I w' (m.next w φ o r))
    {w : W} {φ : Φ} (hI : I w φ) : Follows env m p (fun _ => I) w φ := by
  induction p generalizing w φ with
  | ret a => exact hI
  | call o k ih =>
    exact ⟨hguard hp.1 hI, fun r w' hs => ih r (hp.2 r) (hkeep hp.1 hI hs)⟩

end Follows

/-! ## Complete executions -/

/-- A call together with the answer it got. -/
abbrev Called (S : Sig) : Type := (o : S.Op) × S.Resp o

/-- `Exec env p w tr a w'`: in surroundings `env`, the program `p` started at `w`
runs to its end, makes the answered calls `tr` in this order, returns `a`, and
leaves the world at `w'`. -/
inductive Exec (env : Env S W) : Prog S α → W → List (Called S) → α → W → Prop where
  | ret {a : α} {w : W} : Exec env (.ret a) w [] a w
  | call {o : S.Op} {k : S.Resp o → Prog S α} {w w₁ w' : W} {r : S.Resp o}
      {tr : List (Called S)} {a : α} (hs : env.serve w o r w₁)
      (hk : Exec env (k r) w₁ tr a w') : Exec env (.call o k) w (⟨o, r⟩ :: tr) a w'

/-- The ghost state of a monitor that looks at the calls only, after the answered
calls `tr`. -/
def Monitor.after (next : Φ → Called S → Φ) (φ : Φ) (tr : List (Called S)) : Φ :=
  tr.foldl next φ

/-- A monitor that permits every call and only observes. -/
def Monitor.observer (W : Type) (next : Φ → Called S → Φ) : Monitor S W Φ where
  guard := fun _ _ _ => True
  next := fun _ φ o r => next φ ⟨o, r⟩

/-- What is always true is true after every observed program. -/
theorem Follows.observe {env : Env S W} {next : Φ → Called S → Φ} (p : Prog S α)
    {Q : α → W → Φ → Prop} (hQ : ∀ a w φ, Q a w φ) (w : W) (φ : Φ) :
    Follows env (Monitor.observer W next) p Q w φ := by
  induction p generalizing w φ with
  | ret a => exact hQ a w φ
  | call o k ih => exact ⟨trivial, fun r w' _ => ih r w' _⟩

/-- **Soundness.**  What `Follows` promises of an observed program holds of every
complete execution, at the ghost state its answered calls lead to. -/
theorem Follows.exec {env : Env S W} {next : Φ → Called S → Φ} {p : Prog S α}
    {Q : α → W → Φ → Prop} {w w' : W} {φ : Φ} {tr : List (Called S)} {a : α}
    (h : Follows env (Monitor.observer W next) p Q w φ) (hx : Exec env p w tr a w') :
    Q a w' (Monitor.after next φ tr) := by
  induction hx generalizing φ with
  | ret => exact h
  | call hs _ ih => exact ih (h.2 _ _ hs)

/-- An execution seen through a part of the world. -/
theorem Exec.map {V : Type} {env : Env S V} {env' : Env S W} {view : V → W}
    (hview : ∀ {v o r v'}, env.serve v o r v' → env'.serve (view v) o r (view v')) {p : Prog S α}
    {v v' : V} {tr : List (Called S)} {a : α} (h : Exec env p v tr a v') :
    Exec env' p (view v) tr a (view v') := by
  induction h with
  | ret => exact .ret
  | call hs _ ih => exact .call (hview hs) ih

/-! ## Playing a program out -/

/-- Run a program of at most `fuel` calls with a function that answers every call. -/
def Prog.play (answer : W → (o : S.Op) → Option (S.Resp o × W)) :
    ℕ → W → Prog S α → Option (List (Called S) × α × W)
  | _, w, .ret a => some ([], a, w)
  | 0, _, .call _ _ => none
  | fuel + 1, w, .call o k =>
    match answer w o with
    | none => none
    | some (r, w') => ((k r).play answer fuel w').map fun (tr, a, w'') => (⟨o, r⟩ :: tr, a, w'')

/-- What is played out is an execution, when the answers are those of the surroundings. -/
theorem Exec.of_play {env : Env S W} {answer : W → (o : S.Op) → Option (S.Resp o × W)}
    (hanswer : ∀ {w o r w'}, answer w o = some (r, w') → env.serve w o r w')
    {fuel : ℕ} {p : Prog S α} {w w' : W} {tr : List (Called S)} {a : α}
    (h : p.play answer fuel w = some (tr, a, w')) : Exec env p w tr a w' := by
  induction fuel generalizing w p tr with
  | zero =>
    cases p with
    | ret b => cases h; exact .ret
    | call o k => cases h
  | succ fuel ih =>
    cases p with
    | ret b => cases h; exact .ret
    | call o k =>
      simp only [Prog.play] at h
      split at h
      · cases h
      · rename_i r w₁ hcall
        obtain ⟨⟨tr', b, w₂⟩, hrest, heq⟩ := Option.map_eq_some_iff.mp h
        obtain ⟨rfl, rfl, rfl⟩ := heq
        exact .call (hanswer hcall) (ih hrest)

/-- An execution with a decidable property. -/
theorem Exec.exists_of_play {env : Env S W} {answer : W → (o : S.Op) → Option (S.Resp o × W)}
    (hanswer : ∀ {w o r w'}, answer w o = some (r, w') → env.serve w o r w')
    (fuel : ℕ) (p : Prog S α) (w : W) (P : List (Called S) → α → W → Bool)
    (h : (p.play answer fuel w).any (fun x => P x.1 x.2.1 x.2.2) = true) :
    ∃ tr a w', Exec env p w tr a w' ∧ P tr a w' = true := by
  obtain ⟨⟨tr, a, w'⟩, hplay, hP⟩ := (Option.any_eq_true _ _).mp h
  exact ⟨tr, a, w', .of_play hanswer hplay, hP⟩
