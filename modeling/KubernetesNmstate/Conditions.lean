/-
# Condition lists

The status conditions of enactments and policies, `api/shared/condition_types.go`
with the constants of `nodenetworkconfigurationenactment_types.go` and
`nodenetworkconfigurationpolicy_types.go`.

A condition list is used as a map from condition types: `ConditionList.set`
rewrites the first entry of a type, or appends one, and `ConditionList.find` reads
the first entry.  `find_set_self` and `find_set_of_ne` are the map laws every
later proof uses; no proof outside this file unfolds `set`.
-/
import Mathlib.Data.List.Basic
import Mathlib.Tactic.Common

/-! ## Time, statuses, types and reasons -/

/-- Seconds.  `metav1.Time` is stored with this resolution. -/
abbrev Time : Type := ℕ

/-- `corev1.ConditionStatus`. -/
inductive ConditionStatus : Type where
  | isTrue : ConditionStatus
  | isFalse : ConditionStatus
  | unknown : ConditionStatus
  deriving DecidableEq, Repr, Inhabited

/-- The condition types of enactments and policies.  `Available` and
`Progressing` are the same string for both kinds of objects. -/
inductive ConditionType : Type where
  | available : ConditionType
  | failing : ConditionType
  | progressing : ConditionType
  | pending : ConditionType
  | aborted : ConditionType
  | degraded : ConditionType
  | ignored : ConditionType
  deriving DecidableEq, Repr, Inhabited

/-- The string of a condition type. -/
def ConditionType.name : ConditionType → String
  | available => "Available"
  | failing => "Failing"
  | progressing => "Progressing"
  | pending => "Pending"
  | aborted => "Aborted"
  | degraded => "Degraded"
  | ignored => "Ignored"

/-- The condition reasons of enactments and policies; `none` is the empty string. -/
inductive ConditionReason : Type where
  | none : ConditionReason
  | failedToConfigure : ConditionReason
  | retrying : ConditionReason
  | successfullyConfigured : ConditionReason
  | maxUnavailableLimitReached : ConditionReason
  | configurationProgressing : ConditionReason
  | configurationAborted : ConditionReason
  | configurationInterrupted : ConditionReason
  | configurationFinalizing : ConditionReason
  | noMatchingNode : ConditionReason
  deriving DecidableEq, Repr, Inhabited

/-! ## Conditions -/

/-- `shared.Condition`. -/
structure Condition where
  type : ConditionType
  status : ConditionStatus
  reason : ConditionReason
  message : String
  lastHeartbeatTime : Time
  lastTransitionTime : Time
  deriving DecidableEq, Repr, Inhabited

/-- `shared.NewCondition`. -/
def newCondition (now : Time) (conditionType : ConditionType) (status : ConditionStatus)
    (reason : ConditionReason) (message : String) : Condition where
  type := conditionType
  status := status
  reason := reason
  message := message
  lastHeartbeatTime := now
  lastTransitionTime := now

/-- The part of `ConditionList.Set` that rewrites an entry it found. -/
def Condition.refresh (now : Time) (status : ConditionStatus) (reason : ConditionReason)
    (message : String) (condition : Condition) : Condition :=
  let condition :=
    if condition.status ≠ status ∨ condition.reason ≠ reason ∨ condition.message ≠ message then
      { condition with
        lastTransitionTime :=
          if condition.status ≠ status then now else condition.lastTransitionTime
        status := status
        reason := reason
        message := message }
    else condition
  { condition with lastHeartbeatTime := now }

@[simp] theorem Condition.refresh_type (now : Time) (status : ConditionStatus)
    (reason : ConditionReason) (message : String) (c : Condition) :
    (c.refresh now status reason message).type = c.type := by
  unfold refresh
  split <;> rfl

@[simp] theorem Condition.refresh_status (now : Time) (status : ConditionStatus)
    (reason : ConditionReason) (message : String) (c : Condition) :
    (c.refresh now status reason message).status = status := by
  unfold refresh
  split
  · rfl
  · rename_i h
    simp only [ne_eq, not_or, not_not] at h
    exact h.1

@[simp] theorem Condition.refresh_reason (now : Time) (status : ConditionStatus)
    (reason : ConditionReason) (message : String) (c : Condition) :
    (c.refresh now status reason message).reason = reason := by
  unfold refresh
  split
  · rfl
  · rename_i h
    simp only [ne_eq, not_or, not_not] at h
    exact h.2.1

@[simp] theorem Condition.refresh_message (now : Time) (status : ConditionStatus)
    (reason : ConditionReason) (message : String) (c : Condition) :
    (c.refresh now status reason message).message = message := by
  unfold refresh
  split
  · rfl
  · rename_i h
    simp only [ne_eq, not_or, not_not] at h
    exact h.2.2

@[simp] theorem Condition.refresh_lastHeartbeatTime (now : Time) (status : ConditionStatus)
    (reason : ConditionReason) (message : String) (c : Condition) :
    (c.refresh now status reason message).lastHeartbeatTime = now := by
  unfold refresh
  split <;> rfl

/-! ## Condition lists -/

/-- `shared.ConditionList`. -/
abbrev ConditionList : Type := List Condition

namespace ConditionList

/-- `ConditionList.Find`: the first entry of a type. -/
def find (conditions : ConditionList) (conditionType : ConditionType) : Option Condition :=
  List.find? (fun c => c.type = conditionType) conditions

/-- `ConditionList.Set` at time `now`: rewrite the first entry of the type in place,
append a new entry when there is none. -/
def set (now : Time) (conditions : ConditionList) (conditionType : ConditionType)
    (status : ConditionStatus) (reason : ConditionReason) (message : String) : ConditionList :=
  match conditions with
  | [] => [newCondition now conditionType status reason message]
  | condition :: rest =>
    if condition.type = conditionType then
      condition.refresh now status reason message :: rest
    else condition :: set now rest conditionType status reason message

/-- The status of a type, if the type is there. -/
def status (conditions : ConditionList) (conditionType : ConditionType) : Option ConditionStatus :=
  (conditions.find conditionType).map Condition.status

/-- The reason of a type, if the type is there. -/
def reason (conditions : ConditionList) (conditionType : ConditionType) : Option ConditionReason :=
  (conditions.find conditionType).map Condition.reason

variable (now : Time) (conditions : ConditionList) (t : ConditionType) (st : ConditionStatus)
  (rs : ConditionReason) (msg : String)

/-- After a `set`, the type it set is found with what was set. -/
theorem find_set_self : ∃ c, (set now conditions t st rs msg).find t = some c ∧
    c.status = st ∧ c.reason = rs ∧ c.lastHeartbeatTime = now := by
  induction conditions with
  | nil => exact ⟨newCondition now t st rs msg, by simp [set, find, newCondition], rfl, rfl, rfl⟩
  | cons c cs ih =>
    by_cases h : c.type = t
    · exact ⟨c.refresh now st rs msg, by simp [set, find, h], by simp⟩
    · obtain ⟨d, hd, hrest⟩ := ih
      refine ⟨d, ?_, hrest⟩
      simpa [set, find, h] using hd

/-- A `set` leaves every other type as it was. -/
theorem find_set_of_ne {t' : ConditionType} (h : t' ≠ t) :
    (set now conditions t st rs msg).find t' = conditions.find t' := by
  induction conditions with
  | nil => simp [set, find, newCondition, h.symm]
  | cons c cs ih =>
    by_cases hc : c.type = t
    · have hne : ¬ t = t' := fun e => h e.symm
      simp [set, find, hc, hne]
    · by_cases hc' : c.type = t'
      · simp [set, find, hc', h]
      · simpa [set, find, hc, hc'] using ih

/-! ## The order of the entries -/

/-- The types of the entries, in order. -/
def types (conditions : ConditionList) : List ConditionType := conditions.map Condition.type

/-- A `set` keeps the entries where they are, and puts a new one at the end. -/
theorem types_set : types (set now conditions t st rs msg) =
    if t ∈ conditions.types then conditions.types else conditions.types ++ [t] := by
  unfold types
  induction conditions with
  | nil => rfl
  | cons c cs ih =>
    by_cases h : c.type = t
    · simp [set, h]
    · have hne : ¬ t = c.type := fun e => h e.symm
      simp only [set, h, if_false, List.map_cons, ih, List.mem_cons, hne, false_or]
      rw [apply_ite (List.cons c.type), List.cons_append]

/-- With one entry per type, the entry of a type is the one that is found. -/
theorem status_of_mem {conditions : ConditionList} (hnd : conditions.types.Nodup) {c : Condition}
    (hc : c ∈ conditions) : conditions.status c.type = some c.status := by
  induction conditions with
  | nil => cases hc
  | cons d ds ih =>
    obtain ⟨hd, hds⟩ := List.nodup_cons.mp hnd
    rcases List.mem_cons.mp hc with rfl | hc
    · simp [status, find]
    · have hne : d.type ≠ c.type := fun e => hd (e ▸ List.mem_map_of_mem hc)
      simpa [status, find, hne] using ih hds hc

end ConditionList
