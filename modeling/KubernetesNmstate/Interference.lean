/-
# Programs among others

What `Prog` says of a program that alone writes its part of the world, for programs that share
the world.

* `Env.among R` serves every call after the others have changed the world along `R`;
* a program keeps following a monitor whose guards and postconditions survive `R`
  (`Stable`, `Follows.stable`);
* a `Pool` is a family of programs over one world, which take turns call by call with changes
  from outside;
* `Pool.invariant` is the rule for runs of a pool: when every permitted call is a change the
  others put up with, each program goes on as it would among changes along `R`, so that an
  invariant has to be checked for permitted calls only.
-/
import Mathlib.Logic.Relation
import KubernetesNmstate.Prog

variable {S : Sig} {W Φ : Type} {α ι : Type}

/-! ## Interference -/

/-- Before every call the world changes along `R`. -/
def Env.among (R : W → W → Prop) (env : Env S W) : Env S W where
  serve w o r w' := ∃ w₁, R w w₁ ∧ env.serve w₁ o r w'

/-- Without others. -/
theorem Env.among_eq (env : Env S W) : env.among Eq = env := by
  obtain ⟨serve⟩ := env
  simp only [Env.among, exists_eq_left']

/-- An execution in which the others do nothing. -/
theorem Exec.among {env : Env S W} {R : W → W → Prop} (hrefl : ∀ w, R w w) {p : Prog S α} {w w' : W}
    {tr : List (Called S)} {a : α} (h : Exec env p w tr a w') :
    Exec (env.among R) p w tr a w' := by
  induction h with
  | ret => exact .ret
  | call hs _ ih => exact .call ⟨_, hrefl _, hs⟩ ih

/-- A monitor that looks at the calls, and permits them in view of the world. -/
def Monitor.guarding (guard : W → Φ → S.Op → Prop) (next : Φ → Called S → Φ) :
    Monitor S W Φ where
  guard := guard
  next := fun _ φ o r => next φ ⟨o, r⟩

/-- Guards and postconditions that the others, who change the world along `R`, cannot break. -/
structure Stable (R : W → W → Prop) (guard : W → Φ → S.Op → Prop) (Q : α → W → Φ → Prop) :
    Prop where
  refl : ∀ w, R w w
  trans : ∀ w w₁ w₂, R w w₁ → R w₁ w₂ → R w w₂
  guard : ∀ w w₁ φ o, R w w₁ → guard w φ o → guard w₁ φ o
  post : ∀ a w w₁ φ, R w w₁ → Q a w φ → Q a w₁ φ

/-- **Stability.**  A suspended program keeps following its monitor while the others run. -/
theorem Follows.stable {env : Env S W} {R : W → W → Prop} {guard : W → Φ → S.Op → Prop}
    {next : Φ → Called S → Φ} {Q : α → W → Φ → Prop} (hstable : Stable R guard Q)
    {p : Prog S α} {w w₁ : W} {φ : Φ} (hR : R w w₁)
    (h : Follows (env.among R) (Monitor.guarding guard next) p Q w φ) :
    Follows (env.among R) (Monitor.guarding guard next) p Q w₁ φ := by
  cases p with
  | ret a => exact hstable.post a w w₁ φ hR h
  | call o k =>
    refine ⟨hstable.guard w w₁ φ o hR h.1, ?_⟩
    rintro r w' ⟨w₂, hR', hs⟩
    exact h.2 r w' ⟨w₂, hstable.trans w w₁ w₂ hR hR', hs⟩

/-! ## Pools -/

/-- Programs that share a world, each with the ghost state of its monitor. -/
structure Pool (S : Sig) (W Φ α ι : Type) where
  world : W
  progs : ι → Prog S α
  ghosts : ι → Φ

namespace Pool

variable [DecidableEq ι]

/-- The pool after a call of the program `i` was answered. -/
def answered (s : Pool S W Φ α ι) (next : Φ → Called S → Φ) (i : ι) {o : S.Op}
    (k : S.Resp o → Prog S α) (r : S.Resp o) (w : W) : Pool S W Φ α ι where
  world := w
  progs := Function.update s.progs i (k r)
  ghosts := Function.update s.ghosts i (next (s.ghosts i) ⟨o, r⟩)

/-- A step: the world changes along `E`, or one program makes its next call, served in its own
surroundings. -/
inductive Step (env : ι → Env S W) (E : W → W → Prop) (next : Φ → Called S → Φ) :
    Pool S W Φ α ι → Pool S W Φ α ι → Prop where
  | outside {s : Pool S W Φ α ι} {w : W} (h : E s.world w) :
      Step env E next s { s with world := w }
  | call {s : Pool S W Φ α ι} {i : ι} {o : S.Op} {k : S.Resp o → Prog S α} {r : S.Resp o} {w : W}
      (hi : s.progs i = .call o k) (hs : (env i).serve s.world o r w) :
      Step env E next s (s.answered next i k r w)

/-- The runs of a pool. -/
abbrev Reach (env : ι → Env S W) (E : W → W → Prop) (next : Φ → Called S → Φ) :
    Pool S W Φ α ι → Pool S W Φ α ι → Prop :=
  Relation.ReflTransGen (Step env E next)

variable {env : ι → Env S W} {E R : W → W → Prop} {guard : W → Φ → S.Op → Prop}
  {next : Φ → Called S → Φ} {Q : α → W → Φ → Prop}

/-- Every program follows the monitor among changes along `R`. -/
def Follow (env : ι → Env S W) (R : W → W → Prop) (guard : W → Φ → S.Op → Prop)
    (next : Φ → Called S → Φ) (Q : α → W → Φ → Prop) (s : Pool S W Φ α ι) : Prop :=
  ∀ i, Follows ((env i).among R) (Monitor.guarding guard next) (s.progs i) Q s.world (s.ghosts i)

/-- A permitted call of one program leaves all of them following. -/
theorem Follow.answered {s : Pool S W Φ α ι} (h : s.Follow env R guard next Q)
    (hstable : Stable R guard Q) {i : ι} {o : S.Op} {k : S.Resp o → Prog S α} {r : S.Resp o} {w : W}
    (hi : s.progs i = .call o k) (hs : (env i).serve s.world o r w) (hR : R s.world w) :
    (s.answered next i k r w).Follow env R guard next Q := by
  intro j
  by_cases hj : j = i
  · subst hj
    have hcall := h j
    rw [hi] at hcall
    simp only [Pool.answered, Function.update_self]
    exact hcall.2 r w ⟨s.world, hstable.refl _, hs⟩
  · simp only [Pool.answered, Function.update_of_ne hj]
    exact (h j).stable hstable hR

/-- **Rule for pools.**  All programs go on following the monitor, and an invariant that is kept
by changes from outside and by permitted calls holds in every state reached. -/
theorem invariant {J : Pool S W Φ α ι → Prop} {s₀ s : Pool S W Φ α ι}
    (hstable : Stable R guard Q) (houtside : ∀ w w₁, E w w₁ → R w w₁)
    (hcalls : ∀ i w φ o r w', guard w φ o → (env i).serve w o r w' → R w w')
    (hfollow : s₀.Follow env R guard next Q) (hJ : J s₀)
    (hJoutside : ∀ (s : Pool S W Φ α ι) w, J s → E s.world w → J { s with world := w })
    (hJcall : ∀ (s : Pool S W Φ α ι) i o (k : S.Resp o → Prog S α) r w, J s →
      guard s.world (s.ghosts i) o → (env i).serve s.world o r w → J (s.answered next i k r w))
    (h : Reach env E next s₀ s) : s.Follow env R guard next Q ∧ J s := by
  induction h with
  | refl => exact ⟨hfollow, hJ⟩
  | @tail s₁ _ _ hstep ih =>
    obtain ⟨hfollow, hJ⟩ := ih
    cases hstep with
    | outside hE =>
      exact ⟨fun i => (hfollow i).stable hstable (houtside _ _ hE), hJoutside _ _ hJ hE⟩
    | @call i o k r w hi hs =>
      have hguard : guard s₁.world (s₁.ghosts i) o := by
        have hcall := hfollow i
        rw [hi] at hcall
        exact hcall.1
      exact ⟨hfollow.answered hstable hi hs (hcalls _ _ _ _ _ _ hguard hs),
        hJcall _ _ _ _ _ _ hJ hguard hs⟩

/-- One program runs to its end while the others wait. -/
theorem reach_of_exec {s : Pool S W Φ α ι} {i : ι} {w' : W} {tr : List (Called S)} {a : α}
    (h : Exec (env i) (s.progs i) s.world tr a w') :
    Reach env E next s
      { world := w'
        progs := Function.update s.progs i (.ret a)
        ghosts := Function.update s.ghosts i (Monitor.after next (s.ghosts i) tr) } := by
  generalize hp : s.progs i = p at h
  generalize hw : s.world = w at h
  induction h generalizing s with
  | ret =>
    subst hw
    rw [← hp, Function.update_eq_self]
    simp only [Monitor.after, List.foldl_nil, Function.update_eq_self]
    exact .refl
  | @call o k w w₁ w' r tr a hs _ ih =>
    subst hw
    refine .head (.call hp hs) ?_
    have hrest := @ih (s.answered next i k r w₁) (by simp [answered]) rfl
    simpa [answered, Function.update_idem, Monitor.after] using hrest

end Pool
