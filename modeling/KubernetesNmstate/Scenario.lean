/-
# Playing out runs

Concrete runs are written as scripts: a step of the surroundings, or "let the handler of
this node work until its next call is such and such", with an oracle that decides the
calls.  `play` evaluates a script, and checks a condition on every step; a script that
plays to its end is a run (`exists_of_play`).

The small cluster the scripts of the later modules start from comes next, and last the same
for a single procedure (`exists_served`).
-/
import KubernetesNmstate.System

/-! ## Scripts -/

/-- One line of a script. -/
inductive Act : Type where
  /-- A single step. -/
  | label (l : Label) : Act
  /-- The handler of node `i` works until its next call satisfies `stop` or it has none. -/
  | work (i : NodeName) (stop : Op → Bool) (oracle : Op → Answer) : Act

/-- One step, if it meets the condition. -/
def playLabel (cfg : Config) (test : Sys → Label → Bool) (s : Sys) (l : Label) : Option Sys :=
  if test s l then step cfg s l else none

/-- At most `fuel` calls of one handler. -/
def playWork (cfg : Config) (test : Sys → Label → Bool) (i : NodeName) (stop : Op → Bool)
    (oracle : Op → Answer) : ℕ → Sys → Option Sys
  | 0, _ => none
  | fuel + 1, s =>
    match s.pending i with
    | none => some s
    | some o =>
      if stop o then some s
      else (playLabel cfg test s (.exec i (oracle o))).bind
        (playWork cfg test i stop oracle fuel)

/-- A whole script. -/
def play (cfg : Config) (test : Sys → Label → Bool) (s : Sys) : List Act → Option Sys
  | [] => some s
  | .label l :: rest => (playLabel cfg test s l).bind fun s' => play cfg test s' rest
  | .work i stop oracle :: rest =>
    (playWork cfg test i stop oracle 300 s).bind fun s' => play cfg test s' rest

section

variable {cfg : Config} {ok : Sys → Label → Prop} {test : Sys → Label → Bool}

theorem Reach.trans {s s' s'' : Sys} (h : Reach cfg ok s s') (h' : Reach cfg ok s' s'') :
    Reach cfg ok s s'' := by
  induction h' with
  | refl => exact h
  | next _ hok hs ih => exact .next ih hok hs

theorem reach_playLabel (htest : ∀ s l, test s l = true → ok s l) {s s' : Sys} {l : Label}
    (h : playLabel cfg test s l = some s') : Reach cfg ok s s' := by
  unfold playLabel at h
  split at h
  · rename_i hok
    exact .next .refl (htest s l hok) h
  · cases h

theorem reach_playWork (htest : ∀ s l, test s l = true → ok s l) {i : NodeName}
    {stop : Op → Bool} {oracle : Op → Answer} {fuel : ℕ} {s s' : Sys}
    (h : playWork cfg test i stop oracle fuel s = some s') : Reach cfg ok s s' := by
  induction fuel generalizing s with
  | zero => cases h
  | succ fuel ih =>
    unfold playWork at h
    split at h
    · cases h
      exact .refl
    · split at h
      · cases h
        exact .refl
      · obtain ⟨s₁, h₁, h₂⟩ := Option.bind_eq_some_iff.mp h
        exact (reach_playLabel htest h₁).trans (ih h₂)

theorem reach_play (htest : ∀ s l, test s l = true → ok s l) {s s' : Sys} {script : List Act}
    (h : play cfg test s script = some s') : Reach cfg ok s s' := by
  induction script generalizing s with
  | nil => cases h; exact .refl
  | cons act rest ih =>
    cases act with
    | label l =>
      obtain ⟨s₁, h₁, h₂⟩ := Option.bind_eq_some_iff.mp h
      exact (reach_playLabel htest h₁).trans (ih h₂)
    | work i stop oracle =>
      obtain ⟨s₁, h₁, h₂⟩ := Option.bind_eq_some_iff.mp h
      exact (reach_playWork htest h₁).trans (ih h₂)

/-- A script that plays to a state with a decidable property shows that the property is
reachable. -/
theorem exists_of_play {s : Sys} (htest : ∀ s l, test s l = true → ok s l) (P : Sys → Bool)
    (script : List Act) (h : (play cfg test s script).any P = true) :
    ∃ s', Reach cfg ok s s' ∧ P s' = true := by
  cases hplay : play cfg test s script with
  | none => simp [hplay] at h
  | some s' => exact ⟨s', reach_play htest hplay, by simpa [hplay] using h⟩

end

/-! ## A small cluster -/

/-- The oracle that grants every call, with current reads and a rendering that returns the
spec's desired state. -/
def granted : Op → Answer
  | .getPolicy .cached _ => .version 0
  | .getNodeLabels .cached => .labels []
  | .nmstatectlShow => .output "current"
  | .generateState spec _ _ => .generated [] spec.desiredState
  | .statistic _ => .features []
  | _ => .done

/-- The oracle that grants every call and lets every apply fail. -/
def applyDenied : Op → Answer
  | .applyDesiredState _ => .applyFailed "rolled back" (.other "probe")
  | o => granted o

/-- Until the procedure has returned. -/
def never : Op → Bool := fun _ => false

/-- Until the next call is an apply. -/
def untilApply : Op → Bool
  | .applyDesiredState _ => true
  | _ => false

/-- Two nodes, two attempts per generation, the default staleness threshold. -/
def twoNodes : Config where
  nodeNames := ["node01", "node02"]
  nodup := by decide
  retriesUntilFail := 2
  staleOverride := none
  handlerNamespace := "nmstate"
  applyDefaultVlanFiltering := .ok

/-- A policy that allows one unavailable node. -/
def onePolicy : Policy where
  name := "policy"
  generation := 1
  resourceVersion := 1
  spec := { desiredState := "eth1", maxUnavailable := some (.int 1) }
  status := {}

/-- A Ready node with no labels. -/
def readyNode (name : NodeName) : Node where
  name := name
  conditions := [⟨.ready, .isTrue⟩]

/-- The two nodes with the given enactment statuses; the handlers wait for work. -/
def twoNodesSys (enactments : NodeName → Option EnactmentStatus) : Sys where
  world :=
    { policy := onePolicy
      older := []
      enactments := enactments
      nodes := [readyNode "node01", readyNode "node02"]
      pods := [⟨"node01"⟩, ⟨"node02"⟩]
      clock := 1000 }
  handlers := fun _ => .idle
  ghosts := fun _ => {}
  log := []

theorem twoNodesSys_initial (enactments : NodeName → Option EnactmentStatus) :
    Initial (twoNodesSys enactments) where
  rests := ⟨fun _ => Or.inl rfl, fun _ => rfl, rfl, fun _ => rfl⟩
  ordered _ hp := absurd hp List.not_mem_nil

/-- The two nodes with newly created enactments. -/
def freshSys : Sys := twoNodesSys fun _ => some (newEnactmentStatus 1000)

/-! ## One procedure played out -/

/-- An execution with a decidable property, against an oracle that decides the calls. -/
theorem exists_served {α : Type} (cfg : Config) (i : NodeName) (oracle : Op → Answer) (p : Proc α)
    (w : World) (P : List (Called Api) → α → World → Bool)
    (h : (p.play (fun w o => serve cfg i {} w o (oracle o)) 100 w).any
      (fun x => P x.1 x.2.1 x.2.2) = true) :
    ∃ tr a w', Exec (clusterEnv cfg i) p w tr a w' ∧ P tr a w' = true := by
  have hserve : ∀ {w o r w'}, serve cfg i {} w o (oracle o) = some (r, w') →
      (clusterEnv cfg i).serve w o r w' := fun h => ⟨_, h⟩
  exact Exec.exists_of_play hserve 100 p w P h
