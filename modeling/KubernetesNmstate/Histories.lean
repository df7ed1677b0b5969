/-
# Histories of an enactment

The conditions of an enactment after any sequence of notifications, begun with the conditions of
a new enactment or with the empty list a change of generation leaves.

A setter writes all five condition types, so the statuses depend on the last one only.  But a `Set`
never moves an entry, so the order of the list is that of the setter that came first after
the list was emptied.  `activeConditionType` of the metrics reads the first condition that is
True, and an enactment that is retried has two of them: `active_type_stable_iff` says when two
histories that end alike are reported alike.
-/
import Mathlib.Data.List.Find
import KubernetesNmstate.EnactmentMetrics

/-! ## Histories -/

/-- Where a history begins: the conditions of `NewEnactment`, or those that
`resetPolicyGeneration` leaves. -/
inductive Beginning : Type where
  | created (now : Time) : Beginning
  | reset : Beginning
  deriving DecidableEq, Repr, Inhabited

/-- The conditions a history begins with. -/
def Beginning.conditions : Beginning → ConditionList
  | created now => (newEnactmentStatus now).conditions
  | reset => []

/-- Notifications, each with its time and message, the oldest first. -/
abbrev History : Type := List (Notice × Time × String)

/-- The conditions after a history. -/
def History.run (conditions : ConditionList) (h : History) : ConditionList :=
  h.foldl (fun cs entry => entry.1.setter entry.2.1 cs entry.2.2) conditions

theorem History.run_concat (conditions : ConditionList) (h : History) (n : Notice) (now : Time)
    (message : String) :
    History.run conditions (h ++ [(n, now, message)]) =
      n.setter now (History.run conditions h) message := by
  simp [History.run]

/-! ## Where the entries stand -/

/-- The order in which a setter writes the types. -/
def Notice.layout (n : Notice) : List ConditionType := (n.setter 0 [] "").types

theorem types_setEach_of_mem {now : Time} {conditions : ConditionList} {settings : List Setting}
    (h : ∀ s ∈ settings, s.type ∈ conditions.types) :
    (setEach now conditions settings).types = conditions.types := by
  induction settings generalizing conditions with
  | nil => rfl
  | cons s settings ih =>
    have hset : (conditions.set now s.type s.status s.reason s.message).types =
        conditions.types := by
      rw [ConditionList.types_set, if_pos (h s List.mem_cons_self)]
    rw [← hset]
    apply ih
    intro s' hs'
    rw [hset]
    exact h s' (List.mem_cons_of_mem s hs')

/-- A list with an entry for every type of an enactment. -/
def ConditionList.Complete (conditions : ConditionList) : Prop :=
  ∀ t ∈ enactmentConditionTypes, t ∈ conditions.types

namespace Notice

variable (n : Notice) (now : Time) (message : String)

/-- The first setter after the list was emptied decides the order. -/
theorem types_setter_nil : (n.setter now [] message).types = n.layout := by
  cases n <;> rfl

/-- No setter moves an entry that is there. -/
theorem types_setter_of_complete {conditions : ConditionList} (h : conditions.Complete) :
    (n.setter now conditions message).types = conditions.types := by
  simp only [ConditionList.Complete, enactmentConditionTypes, List.forall_mem_cons] at h
  obtain ⟨hav, hfa, hpr, hpe, hab, -⟩ := h
  cases n <;> exact types_setEach_of_mem (by simp [hav, hfa, hpr, hpe, hab])

/-- The types that a setter leaves True. -/
def marks : Notice → List ConditionType
  | generateFailure | failedToConfigure => [.failing]
  | progressing | finalizing => [.progressing]
  | retrying => [.failing, .progressing]
  | aborted => [.aborted]
  | success => [.available]
  | pending | interrupted => [.pending]

theorem status_setter_isTrue {conditions : ConditionList} {t : ConditionType}
    (ht : t ∈ enactmentConditionTypes) :
    (n.setter now conditions message).status t = some .isTrue ↔ t ∈ n.marks := by
  rw [status_setter]
  simp only [enactmentConditionTypes, List.mem_cons, List.not_mem_nil, or_false] at ht
  rcases ht with rfl | rfl | rfl | rfl | rfl <;> cases n <;> simp [marks, marksProgressing]

end Notice

/-- The order of the conditions of a history: that of `NewEnactment`, or of the first setter. -/
def Beginning.layout : Beginning → History → List ConditionType
  | created _, _ => enactmentConditionTypes
  | reset, [] => []
  | reset, (n, _) :: _ => n.layout

/-- Every order lists the five types once. -/
theorem Beginning.layout_perm (b : Beginning) {h : History} (hne : h ≠ []) :
    (b.layout h).Perm enactmentConditionTypes := by
  cases b with
  | created now => exact List.Perm.refl _
  | reset =>
    obtain ⟨⟨n, entry⟩, h, rfl⟩ := List.exists_cons_of_ne_nil hne
    show n.layout.Perm enactmentConditionTypes
    cases n <;> decide

/-- A whole history leaves the entries in the order of its beginning. -/
theorem types_run (b : Beginning) {h : History} (hne : h ≠ []) :
    (History.run b.conditions h).types = b.layout h := by
  induction h using List.reverseRecOn with
  | nil => exact absurd rfl hne
  | append_singleton h entry ih =>
    obtain ⟨n, now, message⟩ := entry
    rw [History.run_concat]
    by_cases hnil : h = []
    · subst hnil
      cases b with
      | created t => exact n.types_setter_of_complete now message fun _ ht => ht
      | reset => exact n.types_setter_nil now message
    · have hcomplete : (History.run b.conditions h).Complete := fun t ht => by
        rw [ih hnil]
        exact (b.layout_perm hnil).mem_iff.mpr ht
      rw [n.types_setter_of_complete now message hcomplete, ih hnil]
      obtain ⟨first, h, rfl⟩ := List.exists_cons_of_ne_nil hnil
      cases b <;> rfl

/-! ## The reported type -/

/-- With one entry per type, the reported type is the first one, in the order of the list, whose
status is True. -/
theorem activeConditionType_eq {conditions : ConditionList} (hnd : conditions.types.Nodup) :
    activeConditionType conditions =
      conditions.types.find? fun t => conditions.status t = some .isTrue := by
  rw [activeConditionType, ConditionList.types, List.find?_map]
  congr 1
  refine List.find?_congr fun c hc => ?_
  simp [ConditionList.status_of_mem hnd hc]

/-- The reported type after a history is the first type, in the order of its beginning, that its
last setter marks. -/
theorem activeConditionType_run (b : Beginning) (h : History) (n : Notice) (now : Time)
    (message : String) :
    activeConditionType (History.run b.conditions (h ++ [(n, now, message)])) =
      (b.layout (h ++ [(n, now, message)])).find? fun t => t ∈ n.marks := by
  have hne : h ++ [(n, now, message)] ≠ [] := by simp
  have hperm := b.layout_perm hne
  have htypes := types_run b hne
  rw [activeConditionType_eq (by rw [htypes, hperm.nodup_iff]; decide), htypes]
  refine List.find?_congr fun t ht => ?_
  rw [History.run_concat]
  exact decide_eq_decide.mpr (n.status_setter_isTrue now message (hperm.mem_iff.mp ht))

/-- The histories whose first setter puts `Progressing` before `Failing`. -/
def Beginning.progressingFirst : Beginning → History → Bool
  | reset, (n, _) :: _ => n = .progressing ∨ n = .finalizing ∨ n = .pending ∨ n = .interrupted
  | _, _ => false

theorem Beginning.find_layout (b : Beginning) {h : History} (hne : h ≠ []) (n : Notice) :
    ((b.layout h).find? fun t => t ∈ n.marks) =
      if n = .retrying ∧ b.progressingFirst h then some .progressing else n.marks.head? := by
  cases b with
  | created now => cases n <;> rfl
  | reset =>
    obtain ⟨⟨first, entry⟩, h, rfl⟩ := List.exists_cons_of_ne_nil hne
    show (first.layout.find? fun t => t ∈ n.marks) = _
    cases first <;> cases n <;> rfl

/-- Two histories that end with the same setter are reported alike, unless it is
`SetRetryAfterFailed`, which leaves both `Failing` and `Progressing` True, and the two stand in
different orders. -/
theorem active_type_stable_iff (b₁ b₂ : Beginning) (h₁ h₂ : History) (n : Notice)
    (now₁ now₂ : Time) (message₁ message₂ : String) :
    activeConditionType (History.run b₁.conditions (h₁ ++ [(n, now₁, message₁)])) =
        activeConditionType (History.run b₂.conditions (h₂ ++ [(n, now₂, message₂)])) ↔
      (n = .retrying → b₁.progressingFirst (h₁ ++ [(n, now₁, message₁)]) =
        b₂.progressingFirst (h₂ ++ [(n, now₂, message₂)])) := by
  rw [activeConditionType_run, activeConditionType_run, b₁.find_layout (by simp),
    b₂.find_layout (by simp)]
  by_cases hn : n = .retrying
  · subst hn
    cases b₁.progressingFirst (h₁ ++ [(.retrying, now₁, message₁)]) <;>
      cases b₂.progressingFirst (h₂ ++ [(.retrying, now₂, message₂)]) <;> decide
  · simp [hn]

/-- A retry of a new enactment is reported as failing; a retry that follows a reset and
`SetProgressing` is reported as progressing. -/
theorem active_type_depends_on_history :
    activeConditionType
        (History.run (Beginning.created 0).conditions [(.retrying, 1, "retrying")]) =
      some .failing ∧
    activeConditionType
        (History.run Beginning.reset.conditions
          [(.progressing, 0, "applying"), (.retrying, 1, "retrying")]) =
      some .progressing := by
  decide
