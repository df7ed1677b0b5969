/-
# Phases of an enactment

The condition setters of `pkg/enactmentstatus/conditions/conditions.go`, the phase
tests of `pkg/enactmentstatus/status.go` and of `pkg/node/audit.go`, and
`resetPolicyGeneration`.

Every setter writes the five condition types one after the other, so a setter is a
list of `Setting`s folded by `setEach`, in the order of the source.  One lemma,
`status_setEach`, gives every status after every setter; the phase tests after
each setter are then simp lemmas, and no later proof looks inside a setter.
-/
import Mathlib.Data.List.Induction
import KubernetesNmstate.Objects

/-! ## Writing several conditions -/

/-- The arguments of one `conditions.Set` call. -/
structure Setting where
  type : ConditionType
  status : ConditionStatus
  reason : ConditionReason
  message : String

/-- Consecutive `conditions.Set` calls. -/
def setEach (now : Time) (conditions : ConditionList) (settings : List Setting) : ConditionList :=
  settings.foldl (fun cs s => ConditionList.set now cs s.type s.status s.reason s.message)
    conditions

/-- The last setting of a type decides what is found under it; without one the entry is
kept. -/
theorem find_setEach (now : Time) (conditions : ConditionList) (settings : List Setting)
    (t : ConditionType) :
    match settings.reverse.find? (fun s => s.type = t) with
    | some s => ∃ c, (setEach now conditions settings).find t = some c ∧
        c.status = s.status ∧ c.reason = s.reason ∧ c.lastHeartbeatTime = now
    | none => (setEach now conditions settings).find t = conditions.find t := by
  induction settings using List.reverseRecOn with
  | nil => rfl
  | append_singleton settings s ih =>
    rw [setEach, List.foldl_append, List.foldl_cons, List.foldl_nil, ← setEach,
      List.reverse_append, List.reverse_singleton, List.singleton_append, List.find?_cons]
    by_cases h : s.type = t
    · subst h
      simpa using ConditionList.find_set_self now (setEach now conditions settings) s.type
        s.status s.reason s.message
    · have hne : t ≠ s.type := fun e => h e.symm
      simp only [ConditionList.find_set_of_ne _ _ _ _ _ _ hne, h, decide_false]
      exact ih

theorem status_setEach (now : Time) (conditions : ConditionList) (settings : List Setting)
    (t : ConditionType) :
    (setEach now conditions settings).status t =
      match settings.reverse.find? (fun s => s.type = t) with
      | some s => some s.status
      | none => conditions.status t := by
  have h := find_setEach now conditions settings t
  revert h
  cases settings.reverse.find? (fun s => s.type = t) with
  | none => intro h; simp only [ConditionList.status, h]
  | some s =>
    rintro ⟨c, hc, hst, -, -⟩
    simp [ConditionList.status, hc, hst]

theorem reason_setEach (now : Time) (conditions : ConditionList) (settings : List Setting)
    (t : ConditionType) :
    (setEach now conditions settings).reason t =
      match settings.reverse.find? (fun s => s.type = t) with
      | some s => some s.reason
      | none => conditions.reason t := by
  have h := find_setEach now conditions settings t
  revert h
  cases settings.reverse.find? (fun s => s.type = t) with
  | none => intro h; simp only [ConditionList.reason, h]
  | some s =>
    rintro ⟨c, hc, -, hrs, -⟩
    simp [ConditionList.reason, hc, hrs]

/-! ## The setters -/

section Setters

variable (now : Time) (conditions : ConditionList) (reason : ConditionReason) (message : String)

/-- `SetRetry`. -/
def setRetry : ConditionList :=
  setEach now conditions
    [⟨.failing, .isTrue, reason, message⟩, ⟨.progressing, .isTrue, reason, message⟩,
      ⟨.available, .isFalse, reason, ""⟩, ⟨.pending, .isFalse, reason, ""⟩,
      ⟨.aborted, .isFalse, .successfullyConfigured, ""⟩]

/-- `SetRetryAfterFailed`. -/
def setRetryAfterFailed : ConditionList := setRetry now conditions .retrying message

/-- `SetFailed`. -/
def setFailed : ConditionList :=
  setEach now conditions
    [⟨.failing, .isTrue, reason, message⟩, ⟨.available, .isFalse, reason, ""⟩,
      ⟨.progressing, .isFalse, reason, ""⟩, ⟨.pending, .isFalse, reason, ""⟩,
      ⟨.aborted, .isFalse, .successfullyConfigured, ""⟩]

/-- `SetFailedToConfigure`. -/
def setFailedToConfigure : ConditionList := setFailed now conditions .failedToConfigure message

/-- `SetAborted`. -/
def setAborted : ConditionList :=
  setEach now conditions
    [⟨.failing, .isFalse, reason, ""⟩, ⟨.available, .isFalse, reason, ""⟩,
      ⟨.progressing, .isFalse, reason, ""⟩, ⟨.pending, .isFalse, reason, ""⟩,
      ⟨.aborted, .isTrue, reason, message⟩]

/-- `SetConfigurationAborted`. -/
def setConfigurationAborted : ConditionList :=
  setAborted now conditions .configurationAborted message

/-- `SetSuccess`. -/
def setSuccess : ConditionList :=
  setEach now conditions
    [⟨.available, .isTrue, .successfullyConfigured, message⟩,
      ⟨.failing, .isFalse, .successfullyConfigured, ""⟩,
      ⟨.progressing, .isFalse, .successfullyConfigured, ""⟩,
      ⟨.pending, .isFalse, .successfullyConfigured, ""⟩,
      ⟨.aborted, .isFalse, .successfullyConfigured, ""⟩]

/-- `setProgressingWithReason`. -/
def setProgressingWithReason : ConditionList :=
  setEach now conditions
    [⟨.progressing, .isTrue, reason, message⟩, ⟨.failing, .unknown, reason, ""⟩,
      ⟨.available, .unknown, reason, ""⟩, ⟨.pending, .isFalse, reason, ""⟩,
      ⟨.aborted, .isFalse, reason, ""⟩]

/-- `SetProgressing`. -/
def setProgressing : ConditionList :=
  setProgressingWithReason now conditions .configurationProgressing message

/-- `SetFinalizing`: still progressing, with the reason that marks the apply as done. -/
def setFinalizing : ConditionList :=
  setProgressingWithReason now conditions .configurationFinalizing message

/-- `SetPendingWithReason`. -/
def setPendingWithReason : ConditionList :=
  setEach now conditions
    [⟨.pending, .isTrue, reason, message⟩, ⟨.aborted, .isFalse, reason, ""⟩,
      ⟨.progressing, .isFalse, reason, message⟩, ⟨.failing, .isFalse, reason, ""⟩,
      ⟨.available, .isFalse, reason, ""⟩]

/-- `SetPending`. -/
def setPending : ConditionList :=
  setPendingWithReason now conditions .maxUnavailableLimitReached message

end Setters

/-- `NodeNetworkConfigurationEnactmentConditionTypes`. -/
def enactmentConditionTypes : List ConditionType :=
  [.available, .failing, .progressing, .pending, .aborted]

/-- The status `NewEnactment` gives a new enactment: every condition Unknown. -/
def newEnactmentStatus (now : Time) : EnactmentStatus where
  conditions := setEach now [] (enactmentConditionTypes.map fun t => ⟨t, .unknown, .none, ""⟩)

/-- `resetPolicyGeneration`: record the generation, and drop the conditions when they
belong to another one. -/
def resetPolicyGeneration (status : EnactmentStatus) (generation : Generation) : EnactmentStatus :=
  { status with
    conditions := if status.policyGeneration ≠ generation then [] else status.conditions
    policyGeneration := generation }

/-! ## The phase tests -/

/-- `enactmentstatus.IsProgressing`. -/
def isProgressing (conditions : ConditionList) : Bool :=
  match conditions.find .progressing with
  | some c => c.status = .isTrue
  | none => false

/-- `enactmentstatus.IsFinalizing`. -/
def isFinalizing (conditions : ConditionList) : Bool :=
  match conditions.find .progressing with
  | some c => c.status = .isTrue ∧ c.reason = .configurationFinalizing
  | none => false

/-- `enactmentstatus.IsAvailable`. -/
def isAvailable (conditions : ConditionList) : Bool :=
  match conditions.find .available with
  | some c => c.status = .isTrue
  | none => false

/-- `enactmentstatus.IsRetrying`. -/
def isRetrying (conditions : ConditionList) : Bool :=
  match conditions.find .failing, conditions.find .progressing with
  | some failed, some progressing => failed.status = .isTrue ∧ progressing.status = .isTrue
  | _, _ => false

/-- `isTerminallyFailed` of the audit. -/
def isTerminallyFailed (conditions : ConditionList) : Bool :=
  match conditions.find .progressing, conditions.find .failing with
  | some progressing, some failing => progressing.status = .isFalse ∧ failing.status = .isTrue
  | _, _ => false

/-- `isLiveHolder` of the audit: progressing, with a heartbeat younger than the
threshold. -/
def isLiveHolder (conditions : ConditionList) (now staleThreshold : Time) : Bool :=
  match conditions.find .progressing with
  | some c => c.status = .isTrue ∧ now < c.lastHeartbeatTime + staleThreshold
  | none => false

/-- The `Aborted` condition is True. -/
def isAborted (conditions : ConditionList) : Bool :=
  match conditions.find .aborted with
  | some c => c.status = .isTrue
  | none => false

/-! ## Phase tests as statuses -/

theorem isProgressing_iff {conditions : ConditionList} :
    isProgressing conditions = true ↔ conditions.status .progressing = some .isTrue := by
  unfold isProgressing ConditionList.status
  cases conditions.find .progressing <;> simp

theorem isFinalizing_iff {conditions : ConditionList} :
    isFinalizing conditions = true ↔ conditions.status .progressing = some .isTrue ∧
      conditions.reason .progressing = some .configurationFinalizing := by
  unfold isFinalizing ConditionList.status ConditionList.reason
  cases conditions.find .progressing <;> simp

theorem isAvailable_iff {conditions : ConditionList} :
    isAvailable conditions = true ↔ conditions.status .available = some .isTrue := by
  unfold isAvailable ConditionList.status
  cases conditions.find .available <;> simp

theorem isAborted_iff {conditions : ConditionList} :
    isAborted conditions = true ↔ conditions.status .aborted = some .isTrue := by
  unfold isAborted ConditionList.status
  cases conditions.find .aborted <;> simp

theorem isRetrying_iff {conditions : ConditionList} :
    isRetrying conditions = true ↔ conditions.status .failing = some .isTrue ∧
      conditions.status .progressing = some .isTrue := by
  unfold isRetrying ConditionList.status
  cases conditions.find .failing <;> cases conditions.find .progressing <;> simp

theorem isTerminallyFailed_iff {conditions : ConditionList} :
    isTerminallyFailed conditions = true ↔ conditions.status .progressing = some .isFalse ∧
      conditions.status .failing = some .isTrue := by
  unfold isTerminallyFailed ConditionList.status
  cases conditions.find .failing <;> cases conditions.find .progressing <;> simp

theorem isProgressing_of_isRetrying {conditions : ConditionList}
    (h : isRetrying conditions = true) : isProgressing conditions = true :=
  isProgressing_iff.mpr (isRetrying_iff.mp h).2

theorem isProgressing_of_isFinalizing {conditions : ConditionList}
    (h : isFinalizing conditions = true) : isProgressing conditions = true :=
  isProgressing_iff.mpr (isFinalizing_iff.mp h).1

theorem isProgressing_of_isLiveHolder {conditions : ConditionList} {now staleThreshold : Time}
    (h : isLiveHolder conditions now staleThreshold = true) : isProgressing conditions = true := by
  unfold isLiveHolder at h
  unfold isProgressing
  cases hc : conditions.find .progressing with
  | none => simp [hc] at h
  | some c =>
    simp only [hc, decide_eq_true_eq] at h ⊢
    exact h.1

/-- A holder that is not live does not become so by waiting. -/
theorem isLiveHolder_antitone {conditions : ConditionList} {now later staleThreshold : Time}
    (hle : now ≤ later) (h : isLiveHolder conditions later staleThreshold = true) :
    isLiveHolder conditions now staleThreshold = true := by
  unfold isLiveHolder at h ⊢
  cases hc : conditions.find .progressing with
  | none => simp [hc] at h
  | some c =>
    simp only [hc, decide_eq_true_eq] at h ⊢
    exact ⟨h.1, Nat.lt_of_le_of_lt hle h.2⟩

/-! ## The notifications and the phases they lead to -/

/-- The condition changes a handler makes: the `Notify*` methods of
`EnactmentConditions`, and `MarkInterrupted`. -/
inductive Notice : Type where
  | generateFailure : Notice
  | progressing : Notice
  | finalizing : Notice
  | failedToConfigure : Notice
  | retrying : Notice
  | aborted : Notice
  | success : Notice
  | pending : Notice
  | interrupted : Notice
  deriving DecidableEq, Repr, Inhabited

namespace Notice

/-- The condition setter each notification uses. -/
def setter : Notice → Time → ConditionList → String → ConditionList
  | generateFailure => setFailedToConfigure
  | progressing => setProgressing
  | finalizing => setFinalizing
  | failedToConfigure => setFailedToConfigure
  | retrying => setRetryAfterFailed
  | aborted => setConfigurationAborted
  | success => setSuccess
  | pending => setPending
  | interrupted => fun now conditions =>
    setPendingWithReason now conditions .configurationInterrupted

/-- The notifications after which the enactment is progressing. -/
def marksProgressing : Notice → Bool
  | progressing | finalizing | retrying => true
  | _ => false

/-- The notifications after which the enactment is terminally failed. -/
def marksFailed : Notice → Bool
  | generateFailure | failedToConfigure => true
  | _ => false

variable (n : Notice) (now : Time) (conditions : ConditionList) (message : String)

theorem status_setter (t : ConditionType) :
    (n.setter now conditions message).status t =
      match t with
      | .available => some (match n with
        | success => .isTrue | progressing | finalizing => .unknown | _ => .isFalse)
      | .failing => some (match n with
        | generateFailure | failedToConfigure | retrying => .isTrue
        | progressing | finalizing => .unknown | _ => .isFalse)
      | .progressing => some (if n.marksProgressing then .isTrue else .isFalse)
      | .pending => some (match n with
        | pending | interrupted => .isTrue | _ => .isFalse)
      | .aborted => some (match n with
        | aborted => .isTrue | _ => .isFalse)
      | .degraded => conditions.status .degraded
      | .ignored => conditions.status .ignored := by
  cases n <;> cases t <;>
    simp [setter, setFailedToConfigure, setFailed, setProgressing, setFinalizing,
      setProgressingWithReason, setRetryAfterFailed, setRetry, setConfigurationAborted,
      setAborted, setSuccess, setPending, setPendingWithReason, status_setEach,
      marksProgressing, List.find?]

theorem isFinalizing_setter :
    isFinalizing (n.setter now conditions message) = decide (n = finalizing) := by
  rw [Bool.eq_iff_iff, isFinalizing_iff, status_setter]
  cases n <;>
    simp [setter, setFailedToConfigure, setFailed, setProgressing, setFinalizing,
      setProgressingWithReason, setRetryAfterFailed, setRetry, setConfigurationAborted,
      setAborted, setSuccess, setPending, setPendingWithReason, reason_setEach,
      marksProgressing, List.find?]

theorem isProgressing_setter :
    isProgressing (n.setter now conditions message) = n.marksProgressing := by
  rw [Bool.eq_iff_iff, isProgressing_iff, status_setter]
  cases n <;> simp [marksProgressing]

theorem isAvailable_setter :
    isAvailable (n.setter now conditions message) = decide (n = success) := by
  rw [Bool.eq_iff_iff, isAvailable_iff, status_setter]
  cases n <;> simp

theorem isRetrying_setter :
    isRetrying (n.setter now conditions message) = decide (n = retrying) := by
  rw [Bool.eq_iff_iff, isRetrying_iff, status_setter, status_setter]
  cases n <;> simp [marksProgressing]

theorem isTerminallyFailed_setter :
    isTerminallyFailed (n.setter now conditions message) = n.marksFailed := by
  rw [Bool.eq_iff_iff, isTerminallyFailed_iff, status_setter, status_setter]
  cases n <;> simp [marksProgressing, marksFailed]

end Notice

/-! ## The empty list and generation changes -/

@[simp] theorem isProgressing_newEnactmentStatus (now : Time) :
    isProgressing (newEnactmentStatus now).conditions = false := rfl

theorem conditions_resetPolicyGeneration_of_eq {status : EnactmentStatus}
    {generation : Generation} (h : status.policyGeneration = generation) :
    (resetPolicyGeneration status generation).conditions = status.conditions := by
  simp [resetPolicyGeneration, h]

theorem conditions_resetPolicyGeneration_of_ne {status : EnactmentStatus}
    {generation : Generation} (h : status.policyGeneration ≠ generation) :
    (resetPolicyGeneration status generation).conditions = [] := by
  simp [resetPolicyGeneration, h]
