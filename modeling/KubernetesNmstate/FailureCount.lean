/-
# Counting failed enactments

`CountConditionsLogicalAnd` of `pkg/enactmentstatus/conditions/counter.go`, with the filter of
`shouldAbortReconcile`, beside `isTerminallyFailed`, by which the audit of `pkg/node/audit.go`
counts the same failures.

The filter is a Go map, so the conditions of an enactment are looked at in an order that may be
another one for every enactment.  A condition that is missing is an error, one that differs ends
the loop over the filter, and the generation is looked at last.  `failed_counts_agree` says that
the two counts agree, in every order, exactly as long as no enactment is without conditions;
`resetPolicyGeneration` leaves one that is (`failed_count_refused`).
-/
import KubernetesNmstate.EnactmentConditions

/-! ## The counter -/

/-- `LogicalConditionCountFilter`, in the order in which a `range` yields its entries. -/
abbrev ConditionFilter : Type := List (ConditionType × ConditionStatus)

/-- The loop of `CountConditionsLogicalAnd` over the filter. -/
def ConditionFilter.admits (filter : ConditionFilter) (conditions : ConditionList) :
    Except Err Bool :=
  match filter with
  | [] => .ok true
  | (conditionType, expected) :: rest =>
    match conditions.find conditionType with
    | none => .error (.other ("enactment condition " ++ conditionType.name ++ " not found"))
    | some condition =>
      if condition.status ≠ expected then .ok false else ConditionFilter.admits rest conditions

/-- `CountConditionsLogicalAnd` on the listed enactments; `order k` is the order in which the
filter is gone through for the `k`-th of them. -/
def countConditionsLogicalAnd (order : ℕ → ConditionFilter) (generation : Generation) :
    List Enactment → Except Err ℤ
  | [] => .ok 0
  | enactment :: rest =>
    match (order 0).admits enactment.status.conditions with
    | .error err => .error err
    | .ok increase =>
      match countConditionsLogicalAnd (fun k => order (k + 1)) generation rest with
      | .error err => .error err
      | .ok conditionCount =>
        if increase = true ∧ enactment.status.policyGeneration = generation then
          .ok (conditionCount + 1)
        else .ok conditionCount

/-- The filter of `shouldAbortReconcile`. -/
def failedFilter : ConditionFilter := [(.failing, .isTrue), (.progressing, .isFalse)]

/-! ## Conditions written by the setters -/

/-- The conditions an enactment can have: those of `NewEnactment` or none, followed by any calls
of the condition setters. -/
inductive Written : ConditionList → Prop where
  | new (now : Time) : Written (newEnactmentStatus now).conditions
  | reset : Written []
  | retry {conditions : ConditionList} (h : Written conditions) (now : Time)
      (reason : ConditionReason) (message : String) :
      Written (setRetry now conditions reason message)
  | failed {conditions : ConditionList} (h : Written conditions) (now : Time)
      (reason : ConditionReason) (message : String) :
      Written (setFailed now conditions reason message)
  | aborted {conditions : ConditionList} (h : Written conditions) (now : Time)
      (reason : ConditionReason) (message : String) :
      Written (setAborted now conditions reason message)
  | success {conditions : ConditionList} (h : Written conditions) (now : Time)
      (message : String) : Written (setSuccess now conditions message)
  | progressing {conditions : ConditionList} (h : Written conditions) (now : Time)
      (reason : ConditionReason) (message : String) :
      Written (setProgressingWithReason now conditions reason message)
  | pending {conditions : ConditionList} (h : Written conditions) (now : Time)
      (reason : ConditionReason) (message : String) :
      Written (setPendingWithReason now conditions reason message)

/-- Whoever sets a condition sets both the filter asks for. -/
theorem Written.present {conditions : ConditionList} (h : Written conditions)
    (hne : conditions ≠ []) {entry : ConditionType × ConditionStatus}
    (hentry : entry ∈ failedFilter) :
    ∃ status, conditions.status entry.1 = some status := by
  simp only [failedFilter, List.mem_cons, List.not_mem_nil, or_false] at hentry
  cases h with
  | new now => rcases hentry with rfl | rfl <;> exact ⟨.unknown, rfl⟩
  | reset => exact absurd rfl hne
  | retry h | failed h | aborted h | success h | progressing h | pending h =>
    rcases hentry with rfl | rfl <;>
      simp [setRetry, setFailed, setAborted, setSuccess, setProgressingWithReason,
        setPendingWithReason, status_setEach, List.find?]

/-! ## The two counts -/

/-- When every condition of the filter is there, the loop tests all of them, whatever their
order. -/
theorem ConditionFilter.admits_of_present {filter : ConditionFilter} {conditions : ConditionList}
    (h : ∀ entry ∈ filter, ∃ status, conditions.status entry.1 = some status) :
    filter.admits conditions =
      .ok (filter.all fun entry => conditions.status entry.1 = some entry.2) := by
  induction filter with
  | nil => rfl
  | cons entry rest ih =>
    obtain ⟨conditionType, expected⟩ := entry
    obtain ⟨status, hstatus⟩ := h _ List.mem_cons_self
    obtain ⟨condition, hfind, rfl⟩ := Option.map_eq_some_iff.mp hstatus
    have hrest := ih fun entry hentry => h entry (List.mem_cons_of_mem _ hentry)
    simp only [admits, hfind, hrest, ConditionList.status, Option.map_some, List.all_cons]
    by_cases heq : condition.status = expected <;> simp [heq]

/-- The filter, in whatever order, is the test of the audit. -/
theorem admits_failedFilter {order : ConditionFilter} {conditions : ConditionList}
    (horder : order.Perm failedFilter) (h : Written conditions) (hne : conditions ≠ []) :
    order.admits conditions = .ok (isTerminallyFailed conditions) := by
  rw [ConditionFilter.admits_of_present fun entry hentry =>
    h.present hne (horder.mem_iff.mp hentry), horder.all_eq]
  congr 1
  rw [Bool.eq_iff_iff, isTerminallyFailed_iff]
  simp [failedFilter, and_comm]

/-- Over no conditions the loop finds the first condition of the filter missing, whichever
that is. -/
theorem admits_of_no_conditions {order : ConditionFilter} (horder : order.Perm failedFilter) :
    ∃ err, order.admits [] = .error err := by
  cases order with
  | nil => cases horder.length_eq
  | cons entry rest => exact ⟨_, rfl⟩

/-- One enactment without conditions makes the whole count an error. -/
theorem count_refused {enactments : List Enactment} {order : ℕ → ConditionFilter}
    (horder : ∀ k, (order k).Perm failedFilter) (generation : Generation) {e : Enactment}
    (he : e ∈ enactments) (hnone : e.status.conditions = []) :
    ∃ err, countConditionsLogicalAnd order generation enactments = .error err := by
  induction enactments generalizing order with
  | nil => cases he
  | cons first rest ih =>
    rcases List.mem_cons.mp he with rfl | hrest
    · obtain ⟨err, herr⟩ := admits_of_no_conditions (horder 0)
      exact ⟨err, by rw [countConditionsLogicalAnd, hnone, herr]⟩
    · -- the error of the rest comes out unless an earlier enactment has one of its own
      obtain ⟨err, herr⟩ := ih (fun k => horder (k + 1)) hrest
      rw [countConditionsLogicalAnd]
      cases (order 0).admits first.status.conditions with
      | error earlier => exact ⟨earlier, rfl⟩
      | ok increase => exact ⟨err, by simp only [herr]⟩

/-- With no enactment without conditions, the count is that of the audit. -/
theorem count_of_conditions {generation : Generation} {enactments : List Enactment}
    (hwritten : ∀ e ∈ enactments, Written e.status.conditions)
    {order : ℕ → ConditionFilter} (horder : ∀ k, (order k).Perm failedFilter)
    (hset : ∀ e ∈ enactments, e.status.conditions ≠ []) :
    countConditionsLogicalAnd order generation enactments =
      .ok (enactments.countP fun e => e.status.policyGeneration = generation ∧
        isTerminallyFailed e.status.conditions = true) := by
  induction enactments generalizing order with
  | nil => rfl
  | cons e rest ih =>
    have hrest := ih (fun e he => hwritten e (List.mem_cons_of_mem _ he))
      (fun k => horder (k + 1)) (fun e he => hset e (List.mem_cons_of_mem _ he))
    rw [countConditionsLogicalAnd, admits_failedFilter (horder 0) (hwritten e List.mem_cons_self)
      (hset e List.mem_cons_self)]
    simp only [hrest, List.countP_cons]
    by_cases hfailed : isTerminallyFailed e.status.conditions = true <;>
      by_cases hgen : e.status.policyGeneration = generation <;> simp [hfailed, hgen]

/-- **Audit and abort count the same failures.**  In every order of the filter, the count of
`shouldAbortReconcile` is the number of terminally failed enactments of the generation exactly
if no enactment is without conditions. -/
theorem failed_counts_agree (policy : Policy) (enactments : List Enactment)
    (hwritten : ∀ e ∈ enactments, Written e.status.conditions)
    (order : ℕ → ConditionFilter) (horder : ∀ k, (order k).Perm failedFilter) :
    countConditionsLogicalAnd order policy.generation enactments =
        .ok (enactments.countP fun e => e.status.policyGeneration = policy.generation ∧
          isTerminallyFailed e.status.conditions = true) ↔
      ∀ e ∈ enactments, e.status.conditions ≠ [] := by
  constructor
  · intro hcount e he hnone
    obtain ⟨err, herr⟩ := count_refused horder policy.generation he hnone
    rw [hcount] at herr
    cases herr
  · exact count_of_conditions hwritten horder

/-- An enactment that has just been moved to a new generation is an error in every order, for a
policy of any generation. -/
theorem failed_count_refused :
    Written (resetPolicyGeneration (newEnactmentStatus 0) 1).conditions ∧
    ∀ (policy : Policy) (order : ℕ → ConditionFilter), (∀ k, (order k).Perm failedFilter) →
      ∃ err, countConditionsLogicalAnd order policy.generation
        [⟨"node01", resetPolicyGeneration (newEnactmentStatus 0) 1⟩] = .error err := by
  refine ⟨.reset, ?_⟩
  intro policy order horder
  exact count_refused horder _ List.mem_cons_self rfl

/-- One failed enactment of the generation beside a new one of another generation. -/
theorem failed_counts_agree_two : countConditionsLogicalAnd (fun _ => failedFilter) 1
    [⟨"node01", ⟨"", [], 1, setFailedToConfigure 5 [] "", [], []⟩⟩,
      ⟨"node02", newEnactmentStatus 0⟩] = .ok 1 :=
  (failed_counts_agree ⟨"policy", 1, 1, {}, {}⟩ _
    (by
      intro e he
      simp only [List.mem_cons, List.not_mem_nil, or_false] at he
      rcases he with rfl | rfl
      · exact Written.reset.failed 5 _ ""
      · exact .new 0)
    _ (fun _ => .rfl)).mpr (by decide)
