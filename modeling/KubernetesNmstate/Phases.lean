/-
# The phase of an enactment

The conditions of an enactment after any sequence of condition setters, begun with the conditions
of a new enactment or with the empty list.

Every setter writes all five condition types, so the last one decides everything but the order of
the entries and the timestamps (`settings_run`): what the list says is what that setter says on
an empty list.  The phase tests of the source look at nothing else, so they find the phase of
the last setter and no other (`InPhase`), and an enactment is finished in at most one way.
-/
import KubernetesNmstate.Histories
import KubernetesNmstate.Verdict

/-! ## Setters -/

/-- The condition setters of an enactment.  `SetRetry` leaves the enactment progressing, and
`ConfigurationFinalizing` is the reason that `IsFinalizing` looks for, so it is not given to
`SetRetry`. -/
inductive EnactmentSetter : Type where
  | failed (reason : ConditionReason) : EnactmentSetter
  | retry (reason : ConditionReason) (h : reason ≠ .configurationFinalizing) : EnactmentSetter
  | aborted (reason : ConditionReason) : EnactmentSetter
  | success : EnactmentSetter
  | progressing : EnactmentSetter
  | finalizing : EnactmentSetter
  | pending (reason : ConditionReason) : EnactmentSetter

namespace EnactmentSetter

/-- The call of a setter. -/
def apply : EnactmentSetter → Time → ConditionList → String → ConditionList
  | failed reason => fun now conditions => setFailed now conditions reason
  | retry reason _ => fun now conditions => setRetry now conditions reason
  | aborted reason => fun now conditions => setAborted now conditions reason
  | success => setSuccess
  | progressing => setProgressing
  | finalizing => setFinalizing
  | pending reason => fun now conditions => setPendingWithReason now conditions reason

/-- What a setter says: its `Set` calls, in order. -/
def settings (s : EnactmentSetter) (message : String) : List Setting :=
  (s.apply 0 [] message).settings

theorem apply_eq (s : EnactmentSetter) (now : Time) (conditions : ConditionList)
    (message : String) :
    s.apply now conditions message = setEach now conditions (s.settings message) := by
  cases s <;> rfl

/-- A setter writes each of the five types once. -/
theorem types_settings (s : EnactmentSetter) (message : String) :
    ((s.settings message).map Setting.type).Perm enactmentConditionTypes := by
  cases s with
  | failed reason =>
    show [ConditionType.failing, .available, .progressing, .pending, .aborted].Perm _
    decide
  | retry reason h =>
    show [ConditionType.failing, .progressing, .available, .pending, .aborted].Perm _
    decide
  | aborted reason =>
    show [ConditionType.failing, .available, .progressing, .pending, .aborted].Perm _
    decide
  | success =>
    show [ConditionType.available, .failing, .progressing, .pending, .aborted].Perm _
    decide
  | progressing =>
    show [ConditionType.progressing, .failing, .available, .pending, .aborted].Perm _
    decide
  | finalizing =>
    show [ConditionType.progressing, .failing, .available, .pending, .aborted].Perm _
    decide
  | pending reason =>
    show [ConditionType.pending, .aborted, .progressing, .failing, .available].Perm _
    decide

theorem nodup_types_settings (s : EnactmentSetter) (message : String) :
    ((s.settings message).map Setting.type).Nodup := by
  rw [(s.types_settings message).nodup_iff]
  decide

end EnactmentSetter

/-! ## Sequences of setters -/

/-- Calls of setters, each with its time and message, the oldest first. -/
abbrev SetterHistory : Type := List (EnactmentSetter × Time × String)

/-- The conditions after a sequence of calls. -/
def SetterHistory.run (conditions : ConditionList) (h : SetterHistory) : ConditionList :=
  h.foldl (fun cs entry => entry.1.apply entry.2.1 cs entry.2.2) conditions

theorem SetterHistory.run_concat (conditions : ConditionList) (h : SetterHistory)
    (s : EnactmentSetter) (now : Time) (message : String) :
    SetterHistory.run conditions (h ++ [(s, now, message)])
      = s.apply now (SetterHistory.run conditions h) message := by
  rw [run, run, List.foldl_append, List.foldl_cons, List.foldl_nil]

/-- A list with at most one entry for each of the five types, and no other. -/
structure ConditionList.OfEnactment (conditions : ConditionList) : Prop where
  nodup : conditions.types.Nodup
  types : ∀ t ∈ conditions.types, t ∈ enactmentConditionTypes

theorem types_eq_map_settings (conditions : ConditionList) :
    conditions.types = conditions.settings.map Setting.type := by
  rw [ConditionList.types, ConditionList.settings, List.map_map]
  rfl

/-- One setter over such a list says what it says on an empty one. -/
theorem settings_apply {conditions : ConditionList} (h : conditions.OfEnactment)
    (s : EnactmentSetter) (now : Time) (message : String) :
    (s.apply now conditions message).settings.Perm (s.settings message) := by
  have hwritten := settings_setEach now h.nodup (s.nodup_types_settings message)
  -- no entry has a type that the setter does not write
  have hrest : (conditions.settings.filter fun setting =>
      setting.type ∉ (s.settings message).map Setting.type) = [] := by
    rw [List.filter_eq_nil_iff]
    intro setting hsetting
    have htype : setting.type ∈ conditions.types := by
      rw [types_eq_map_settings]
      exact List.mem_map_of_mem hsetting
    simpa using (s.types_settings message).mem_iff.mpr (h.types _ htype)
  rw [hrest, List.append_nil] at hwritten
  rw [s.apply_eq]
  exact hwritten

theorem types_apply {conditions : ConditionList} (h : conditions.OfEnactment)
    (s : EnactmentSetter) (now : Time) (message : String) :
    (s.apply now conditions message).types.Perm enactmentConditionTypes := by
  rw [types_eq_map_settings]
  exact ((settings_apply h s now message).map Setting.type).trans (s.types_settings message)

theorem ofEnactment_of_perm {conditions : ConditionList}
    (h : conditions.types.Perm enactmentConditionTypes) : conditions.OfEnactment where
  nodup := by
    rw [h.nodup_iff]
    decide
  types := fun _ ht => h.mem_iff.mp ht

theorem Beginning.ofEnactment (b : Beginning) : b.conditions.OfEnactment := by
  cases b with
  | created now => exact ofEnactment_of_perm (List.Perm.refl _)
  | reset => exact ⟨List.nodup_nil, fun t ht => by cases ht⟩

theorem ofEnactment_run (b : Beginning) (h : SetterHistory) :
    (SetterHistory.run b.conditions h).OfEnactment := by
  induction h using List.reverseRecOn with
  | nil => exact b.ofEnactment
  | append_singleton h entry ih =>
    obtain ⟨s, now, message⟩ := entry
    rw [SetterHistory.run_concat]
    exact ofEnactment_of_perm (types_apply ih s now message)

/-- **The last setter decides** what the list says, up to the order of its entries. -/
theorem settings_run (b : Beginning) (h : SetterHistory) (s : EnactmentSetter) (now : Time)
    (message : String) :
    (SetterHistory.run b.conditions (h ++ [(s, now, message)])).settings.Perm
      (s.settings message) := by
  rw [SetterHistory.run_concat]
  exact settings_apply (ofEnactment_run b h) s now message

/-! ## What is found -/

/-- With one entry per type, what is found under a type is what the list says of it. -/
theorem setting_find_iff {conditions : ConditionList} (hnd : conditions.types.Nodup)
    (t : ConditionType) (setting : Setting) :
    (conditions.find t).map Condition.setting = some setting
      ↔ setting ∈ conditions.settings ∧ setting.type = t := by
  induction conditions with
  | nil => simp [ConditionList.find, ConditionList.settings]
  | cons c cs ih =>
    obtain ⟨hc, hcs⟩ := List.nodup_cons.mp hnd
    have hsettings : ConditionList.settings (c :: cs)
        = c.setting :: ConditionList.settings cs := rfl
    rw [hsettings, List.mem_cons]
    by_cases h : c.type = t
    · have hfind : ConditionList.find (c :: cs) t = some c := by simp [ConditionList.find, h]
      rw [hfind, Option.map_some, Option.some.injEq]
      constructor
      · rintro rfl
        exact ⟨Or.inl rfl, h⟩
      · rintro ⟨rfl | hmem, htype⟩
        · rfl
        · exact absurd (htype.trans h.symm) (type_ne_of_mem_settings hc hmem)
    · have hfind : ConditionList.find (c :: cs) t = ConditionList.find cs t := by
        simp [ConditionList.find, h]
      have hne : setting.type = t → setting ≠ c.setting := by
        rintro ht rfl
        exact h ht
      rw [hfind, ih hcs]
      constructor
      · rintro ⟨hmem, ht⟩
        exact ⟨Or.inr hmem, ht⟩
      · rintro ⟨hmem, ht⟩
        exact ⟨hmem.resolve_left (hne ht), ht⟩

/-- Two lists say the same of every type. -/
def SaysTheSame (conditions conditions' : ConditionList) : Prop :=
  ∀ t, (conditions.find t).map Condition.setting = (conditions'.find t).map Condition.setting

theorem saysTheSame_of_perm {conditions conditions' : ConditionList}
    (hnd : conditions.types.Nodup) (h : conditions.settings.Perm conditions'.settings) :
    SaysTheSame conditions conditions' := by
  have hnd' : conditions'.types.Nodup := by
    rw [types_eq_map_settings] at hnd ⊢
    exact (h.map Setting.type).nodup_iff.mp hnd
  intro t
  ext setting
  rw [setting_find_iff hnd, setting_find_iff hnd', h.mem_iff]

theorem SaysTheSame.status {conditions conditions' : ConditionList}
    (h : SaysTheSame conditions conditions') (t : ConditionType) :
    conditions.status t = conditions'.status t := by
  have hsetting := congrArg (Option.map Setting.status) (h t)
  rw [Option.map_map, Option.map_map] at hsetting
  exact hsetting

theorem SaysTheSame.reason {conditions conditions' : ConditionList}
    (h : SaysTheSame conditions conditions') (t : ConditionType) :
    conditions.reason t = conditions'.reason t := by
  have hsetting := congrArg (Option.map Setting.reason) (h t)
  rw [Option.map_map, Option.map_map] at hsetting
  exact hsetting

/-! ## Phases -/

/-- The phases of an enactment. -/
inductive EnactmentPhase : Type where
  | available : EnactmentPhase
  | pending : EnactmentPhase
  | aborted : EnactmentPhase
  | terminallyFailed : EnactmentPhase
  | retrying : EnactmentPhase
  | applying : EnactmentPhase
  | finalizing : EnactmentPhase
  deriving DecidableEq, Repr, Inhabited

/-- The enactment is in the phase, by the tests of the source. -/
def EnactmentPhase.holds : EnactmentPhase → ConditionList → Bool
  | available, conditions => isAvailable conditions
  | pending, conditions => conditions.status .pending = some .isTrue
  | aborted, conditions => isAborted conditions
  | terminallyFailed, conditions => isTerminallyFailed conditions
  | retrying, conditions => isRetrying conditions
  -- progressing, with nothing failed and nothing applied yet
  | applying, conditions =>
    isProgressing conditions && !isRetrying conditions && !isFinalizing conditions
  | finalizing, conditions => isFinalizing conditions

/-- The phase a setter leads to. -/
def EnactmentSetter.phase : EnactmentSetter → EnactmentPhase
  | failed _ => .terminallyFailed
  | retry _ _ => .retrying
  | aborted _ => .aborted
  | success => .available
  | progressing => .applying
  | finalizing => .finalizing
  | pending _ => .pending

section Congruence

variable {conditions conditions' : ConditionList} (h : SaysTheSame conditions conditions')

include h

theorem isProgressing_congr : isProgressing conditions = isProgressing conditions' := by
  rw [Bool.eq_iff_iff, isProgressing_iff, isProgressing_iff, h.status]

theorem isRetrying_congr : isRetrying conditions = isRetrying conditions' := by
  rw [Bool.eq_iff_iff, isRetrying_iff, isRetrying_iff, h.status, h.status]

theorem isFinalizing_congr : isFinalizing conditions = isFinalizing conditions' := by
  rw [Bool.eq_iff_iff, isFinalizing_iff, isFinalizing_iff, h.status, h.reason]

/-- The tests look at what the list says only. -/
theorem EnactmentPhase.holds_congr (phase : EnactmentPhase) :
    phase.holds conditions = phase.holds conditions' := by
  cases phase with
  | available =>
    show isAvailable conditions = isAvailable conditions'
    rw [Bool.eq_iff_iff, isAvailable_iff, isAvailable_iff, h.status]
  | pending => rw [EnactmentPhase.holds, EnactmentPhase.holds, h.status]
  | aborted =>
    show isAborted conditions = isAborted conditions'
    rw [Bool.eq_iff_iff, isAborted_iff, isAborted_iff, h.status]
  | terminallyFailed =>
    show isTerminallyFailed conditions = isTerminallyFailed conditions'
    rw [Bool.eq_iff_iff, isTerminallyFailed_iff, isTerminallyFailed_iff, h.status, h.status]
  | retrying => exact isRetrying_congr h
  | applying =>
    rw [EnactmentPhase.holds, EnactmentPhase.holds, isProgressing_congr h, isRetrying_congr h,
      isFinalizing_congr h]
  | finalizing => exact isFinalizing_congr h

end Congruence

/-- On an empty list a setter leads to its phase and to no other. -/
theorem EnactmentSetter.holds_apply_nil (s : EnactmentSetter) (now : Time) (message : String)
    (phase : EnactmentPhase) : phase.holds (s.apply now [] message) = decide (phase = s.phase) := by
  cases s with
  | retry reason hreason =>
    -- the one setter whose reason the tests look at
    have hfinal : isFinalizing (setRetry now [] reason message) = false := by
      rw [Bool.eq_false_iff, ne_eq, isFinalizing_iff]
      rintro ⟨-, hr⟩
      exact hreason (Option.some.inj hr)
    cases phase with
    | finalizing => exact hfinal
    | _ => rfl
  | _ => cases phase <;> rfl

/-- Why `SetRetry` is not given the finalizing reason: the enactment would be in two phases. -/
example : EnactmentPhase.retrying.holds (setRetry 0 [] .configurationFinalizing "") = true ∧
    EnactmentPhase.finalizing.holds (setRetry 0 [] .configurationFinalizing "") = true := by
  decide

/-! ## The phase after a sequence of setters -/

/-- What the conditions of an enactment are after a last setter. -/
structure InPhase (s : EnactmentSetter) (message : String) (conditions : ConditionList) :
    Prop where
  /-- Each of the five types, exactly once. -/
  types : conditions.types.Perm enactmentConditionTypes
  /-- Every status, reason and message is the one the setter alone writes. -/
  content : ∀ now, SaysTheSame conditions (s.apply now [] message)
  /-- The phase of the setter holds, and no other. -/
  phase : ∀ phase : EnactmentPhase, phase.holds conditions = decide (phase = s.phase)
  available : isAvailable conditions = decide (s.phase = .available)
  progressing : isProgressing conditions = decide (s.phase ∈ [.applying, .finalizing, .retrying])
  finalizing : isFinalizing conditions = decide (s.phase = .finalizing)
  retrying : isRetrying conditions = decide (s.phase = .retrying)
  terminallyFailed : isTerminallyFailed conditions = decide (s.phase = .terminallyFailed)

theorem isProgressing_apply_nil (s : EnactmentSetter) (now : Time) (message : String) :
    isProgressing (s.apply now [] message) =
      decide (s.phase ∈ [EnactmentPhase.applying, .finalizing, .retrying]) := by
  cases s <;> rfl

theorem inPhase_run (b : Beginning) (h : SetterHistory) (s : EnactmentSetter) (now : Time)
    (message : String) :
    InPhase s message (SetterHistory.run b.conditions (h ++ [(s, now, message)])) := by
  have hown := ofEnactment_run b (h ++ [(s, now, message)])
  have hcontent : ∀ now', SaysTheSame (SetterHistory.run b.conditions (h ++ [(s, now, message)]))
      (s.apply now' [] message) := by
    intro now'
    apply saysTheSame_of_perm hown.nodup
    have halone : (s.apply now' [] message).settings.Perm (s.settings message) :=
      settings_apply Beginning.reset.ofEnactment s now' message
    exact (settings_run b h s now message).trans halone.symm
  have hphase : ∀ phase : EnactmentPhase, phase.holds
      (SetterHistory.run b.conditions (h ++ [(s, now, message)])) = decide (phase = s.phase) := by
    intro phase
    rw [EnactmentPhase.holds_congr (hcontent 0), s.holds_apply_nil]
  have hof : ∀ phase : EnactmentPhase, phase.holds
      (SetterHistory.run b.conditions (h ++ [(s, now, message)])) = decide (s.phase = phase) := by
    intro phase
    rw [hphase, decide_eq_decide]
    exact eq_comm
  exact {
    types := by
      rw [SetterHistory.run_concat]
      exact types_apply (ofEnactment_run b h) s now message
    content := hcontent
    phase := hphase
    available := hof .available
    progressing := by rw [isProgressing_congr (hcontent 0), isProgressing_apply_nil]
    finalizing := hof .finalizing
    retrying := hof .retrying
    terminallyFailed := hof .terminallyFailed }

/-! ## Finished enactments -/

/-- The condition types whose True enactments count as finished. -/
def finishedTypes : List ConditionType := [.available, .failing, .aborted]

theorem mem_finishedTypes {t : ConditionType} :
    t ∈ finishedTypes ↔ t = .available ∨ t = .failing ∨ t = .aborted := by
  simp [finishedTypes]

/-- The phases that count as finished. -/
def finishedPhases : List EnactmentPhase := [.available, .terminallyFailed, .retrying, .aborted]

/-- The type under which the enactment counts as finished after a setter. -/
def EnactmentSetter.finishedAs : EnactmentSetter → Option ConditionType
  | failed _ | retry _ _ => some .failing
  | aborted _ => some .aborted
  | success => some .available
  | progressing | finalizing | pending _ => none

/-- A setter makes at most one of the counted types True. -/
theorem EnactmentSetter.status_apply_nil_isTrue_iff (s : EnactmentSetter) (now : Time)
    (message : String) {t : ConditionType} (ht : t ∈ finishedTypes) :
    (s.apply now [] message).status t = some .isTrue ↔ s.finishedAs = some t := by
  rw [← decide_eq_decide]
  rcases mem_finishedTypes.mp ht with rfl | rfl | rfl <;> cases s <;> rfl

/-- Conditions that setters can reach. -/
def SetBySetters (conditions : ConditionList) : Prop :=
  ∃ (b : Beginning) (h : SetterHistory), conditions = SetterHistory.run b.conditions h

/-- The one way in which reached conditions are finished, if they are. -/
theorem SetBySetters.exists_finishedAs {conditions : ConditionList}
    (h : SetBySetters conditions) :
    ∃ kind : Option ConditionType,
      (∀ t ∈ finishedTypes, conditions.status t = some .isTrue ↔ kind = some t) ∧
      (kind.any (· ∈ finishedTypes) = finishedPhases.any (·.holds conditions)) := by
  obtain ⟨b, h, rfl⟩ := h
  induction h using List.reverseRecOn with
  | nil =>
    -- nothing is set yet, or everything is Unknown
    refine ⟨none, ?_, ?_⟩
    · intro t ht
      rw [← decide_eq_decide]
      rcases mem_finishedTypes.mp ht with rfl | rfl | rfl <;> cases b <;> rfl
    · cases b <;> rfl
  | append_singleton h entry _ =>
    obtain ⟨s, now, message⟩ := entry
    have hin := inPhase_run b h s now message
    refine ⟨s.finishedAs, ?_, ?_⟩
    · intro t ht
      rw [(hin.content 0).status, s.status_apply_nil_isTrue_iff 0 message ht]
    · simp only [hin.phase, finishedPhases]
      cases s <;> rfl

/-- Reached enactments are counted once each among the finished ones. -/
theorem numberOfFinishedEnactments_eq_countP (policy : Policy) (nodes : List Node)
    (enactments : List Enactment)
    (hset : ∀ e ∈ enactments, SetBySetters e.status.conditions) :
    (calculatePolicyConditionStatus policy nodes enactments).numberOfFinishedEnactments =
      enactments.countP fun e => decide (e.status.policyGeneration = policy.generation) &&
        finishedPhases.any (·.holds e.status.conditions) := by
  -- the type that each enactment is counted under
  have hkind : ∀ e ∈ enactments, ∃ kind : Option ConditionType,
      (∀ t ∈ finishedTypes, holdsAt policy.generation t e = decide (kind = some t)) ∧
      (kind.any fun t => decide (t ∈ finishedTypes)) =
        (decide (e.status.policyGeneration = policy.generation) &&
          finishedPhases.any (·.holds e.status.conditions)) := by
    intro e he
    by_cases hgen : e.status.policyGeneration = policy.generation
    · obtain ⟨kind, htrue, hphases⟩ := (hset e he).exists_finishedAs
      refine ⟨kind, ?_, ?_⟩
      · intro t ht
        rw [holdsAt, decide_eq_decide, ← htrue t ht, and_iff_right hgen]
      · rw [hphases, decide_eq_true hgen, Bool.true_and]
    · refine ⟨none, ?_, ?_⟩
      · intro t _
        rw [holdsAt, decide_eq_decide]
        constructor
        · intro h
          exact absurd h.1 hgen
        · intro h
          cases h
      · rw [decide_eq_false hgen, Bool.false_and, Option.any_none]
  choose! kind hholds hphases using hkind
  have hsum : (calculatePolicyConditionStatus policy nodes enactments).numberOfFinishedEnactments =
      (finishedTypes.map fun t => enactments.countP (holdsAt policy.generation t)).sum := by
    simp only [calculatePolicyConditionStatus, ConditionCount.available, ConditionCount.failed,
      ConditionCount.aborted, count_isTrue, finishedTypes, List.map_cons, List.map_nil,
      List.sum_cons, List.sum_nil]
    omega
  have hclasses : (finishedTypes.map fun t => enactments.countP (holdsAt policy.generation t)) =
      finishedTypes.map fun t => enactments.countP fun e => kind e = some t := by
    apply List.map_congr_left
    intro t ht
    apply List.countP_congr
    intro e he
    rw [hholds e he t ht]
  rw [hsum, hclasses, List.sum_countP_classes kind (by decide)]
  apply List.countP_congr
  intro e he
  rw [hphases e he]

/-- **The phases of an enactment.**  After any non-empty sequence of setters, begun with a new
enactment's conditions or with none, the conditions are those of the last setter, in its phase
and in no other; and so no enactment is counted twice among the finished ones of a policy. -/
theorem phase_of_last_setter :
    (∀ (b : Beginning) (h : SetterHistory) (s : EnactmentSetter) (now : Time) (message : String),
      InPhase s message (SetterHistory.run b.conditions (h ++ [(s, now, message)]))) ∧
    ∀ (policy : Policy) (nodes : List Node) (enactments : List Enactment),
      (∀ e ∈ enactments, SetBySetters e.status.conditions) →
      (calculatePolicyConditionStatus policy nodes enactments).numberOfFinishedEnactments =
        enactments.countP fun e => decide (e.status.policyGeneration = policy.generation) &&
          finishedPhases.any (·.holds e.status.conditions) := by
  constructor
  · intro b h s now message
    exact inPhase_run b h s now message
  · intro policy nodes enactments hset
    exact numberOfFinishedEnactments_eq_countP policy nodes enactments hset

/-- A new enactment whose apply was begun and then failed with a retry to come. -/
def retryingHistory : SetterHistory :=
  [(.progressing, 1, "Applying desired state"), (.retry .retrying (by decide), 2, "timeout")]

def retryingEnactment : Enactment where
  node := "node01"
  status := { newEnactmentStatus 0 with
    policyGeneration := (default : Policy).generation
    conditions := SetterHistory.run (Beginning.created 0).conditions retryingHistory }

theorem phase_of_last_setter_retrying :
    (∀ e ∈ [retryingEnactment], SetBySetters e.status.conditions) ∧
    InPhase (.retry .retrying (by decide)) "timeout" retryingEnactment.status.conditions ∧
    (calculatePolicyConditionStatus default [] [retryingEnactment]).numberOfFinishedEnactments
      = 1 := by
  have hset : ∀ e ∈ [retryingEnactment], SetBySetters e.status.conditions := by
    intro e he
    rw [List.mem_singleton] at he
    subst he
    exact ⟨.created 0, retryingHistory, rfl⟩
  refine ⟨hset, ?_, ?_⟩
  · exact phase_of_last_setter.1 (.created 0) [(.progressing, 1, "Applying desired state")]
      (.retry .retrying (by decide)) 2 "timeout"
  · rw [phase_of_last_setter.2 default [] [retryingEnactment] hset]
    decide
