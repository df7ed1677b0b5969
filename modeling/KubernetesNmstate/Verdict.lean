/-
# What the verdict on a policy depends on

`setPolicyStatus` writes over the conditions a policy already has, and `Count` books the
enactments of other generations as Unknown instead of leaving them out.  Neither is visible in
the result: timestamps aside, the conditions of a policy depend only on how many nodes match, how
many of them are Ready, and the multiset of statuses of the enactments of the policy's generation.

The first section compares two writes over different lists (`settings_setEach`: what was written,
and the entries of other types); the second says that the branch and its message are functions
of seven numbers; the last puts the two together.
-/
import Mathlib.Data.Multiset.Filter
import KubernetesNmstate.PolicyConditions

/-! ## Conditions without their timestamps -/

/-- What a condition says, timestamps aside. -/
def Condition.setting (c : Condition) : Setting := ⟨c.type, c.status, c.reason, c.message⟩

/-- What a list of conditions says, timestamps aside. -/
def ConditionList.settings (conditions : ConditionList) : List Setting :=
  conditions.map Condition.setting

theorem type_ne_of_mem_settings {conditions : ConditionList} {t : ConditionType}
    (h : t ∉ conditions.types) {s : Setting} (hs : s ∈ conditions.settings) : s.type ≠ t := by
  obtain ⟨c, hc, rfl⟩ := List.mem_map.mp hs
  rintro rfl
  exact h (List.mem_map_of_mem hc)

/-- A `set` over a list with one entry per type says what was set, and keeps the other types. -/
theorem settings_set (now : Time) {conditions : ConditionList} (hnd : conditions.types.Nodup)
    (s : Setting) :
    (conditions.set now s.type s.status s.reason s.message).settings.Perm
      (s :: conditions.settings.filter fun s' => s'.type ≠ s.type) := by
  induction conditions with
  | nil => exact List.Perm.refl _
  | cons c cs ih =>
    obtain ⟨hc, hcs⟩ := List.nodup_cons.mp hnd
    have hsettings :
        ConditionList.settings (c :: cs) = c.setting :: ConditionList.settings cs := rfl
    by_cases h : c.type = s.type
    · -- the entry is rewritten in place, and no other entry has its type
      have hset : (c.refresh now s.status s.reason s.message).setting = s := by
        simp [Condition.setting, h]
      have hrest : (ConditionList.settings cs).filter (fun s' => s'.type ≠ s.type) =
          ConditionList.settings cs :=
        List.filter_eq_self.mpr fun s' hs' =>
          decide_eq_true (type_ne_of_mem_settings (h ▸ hc) hs')
      have hc' : ¬ c.setting.type ≠ s.type := fun hne => hne h
      rw [ConditionList.set, if_pos h, hsettings, List.filter_cons_of_neg (by simpa using hc'),
        hrest]
      show ((c.refresh now s.status s.reason s.message).setting :: _).Perm _
      rw [hset]
      exact List.Perm.refl _
    · have hc' : c.setting.type ≠ s.type := h
      rw [ConditionList.set, if_neg h, hsettings, List.filter_cons_of_pos (by simpa using hc')]
      exact ((ih hcs).cons c.setting).trans (List.Perm.swap _ _ _)

theorem nodup_types_set (now : Time) {conditions : ConditionList} (hnd : conditions.types.Nodup)
    (t : ConditionType) (st : ConditionStatus) (rs : ConditionReason) (message : String) :
    (conditions.set now t st rs message).types.Nodup := by
  rw [ConditionList.types_set]
  exact hnd.addNew t

/-- Consecutive writes of different types say what was written, and keep the other types. -/
theorem settings_setEach (now : Time) {conditions : ConditionList} (hnd : conditions.types.Nodup)
    {settings : List Setting} (hsettings : (settings.map Setting.type).Nodup) :
    (setEach now conditions settings).settings.Perm
      (settings ++ conditions.settings.filter fun s => s.type ∉ settings.map Setting.type) := by
  induction settings generalizing conditions with
  | nil => simp [setEach]
  | cons s settings ih =>
    obtain ⟨hs, hsettings⟩ := List.nodup_cons.mp hsettings
    have hset := settings_set now hnd s
    have hrest := (hset.filter fun s' => s'.type ∉ settings.map Setting.type)
    refine (ih (nodup_types_set now hnd _ _ _ _) hsettings).trans ?_
    refine (hrest.append_left settings).trans ?_
    rw [List.filter_cons_of_pos (by simpa using hs), List.filter_key_cons]
    exact List.perm_middle

/-! ## The setters of a policy -/

/-- The `SetPolicy*` functions. -/
inductive PolicySetter : Type where
  | progressing : PolicySetter
  | success : PolicySetter
  | notMatching : PolicySetter
  | failedToConfigure : PolicySetter
  | statusUnknown : PolicySetter
  deriving DecidableEq, Repr, Inhabited

/-- The function; `SetPolicyStatusUnknown` takes no message. -/
def PolicySetter.setter : PolicySetter → Time → ConditionList → String → ConditionList
  | progressing => setPolicyProgressing
  | success => setPolicySuccess
  | notMatching => setPolicyNotMatching
  | failedToConfigure => setPolicyFailedToConfigure
  | statusUnknown => fun now conditions _ => setPolicyStatusUnknown now conditions

/-- The conditions that a sequence of `SetPolicy*` calls, each with its time and message, builds. -/
def builtBy (calls : List (PolicySetter × Time × String)) : ConditionList :=
  calls.foldl (fun cs call => call.1.setter call.2.1 cs call.2.2) []

/-- One entry per type, and only the types of a policy. -/
structure ConditionList.OfPolicy (conditions : ConditionList) : Prop where
  nodup : conditions.types.Nodup
  types : ∀ t ∈ conditions.types, t ∈ policyConditionTypes

theorem OfPolicy.setEach {conditions : ConditionList} (h : conditions.OfPolicy) (now : Time)
    {settings : List Setting} (hsettings : ∀ s ∈ settings, s.type ∈ policyConditionTypes) :
    (setEach now conditions settings).OfPolicy := by
  induction settings generalizing conditions with
  | nil => exact h
  | cons s settings ih =>
    refine ih ⟨nodup_types_set now h.nodup _ _ _ _, ?_⟩ fun s' hs' =>
      hsettings s' (List.mem_cons_of_mem s hs')
    rw [ConditionList.types_set]
    split
    · exact h.types
    · intro t ht
      rcases List.mem_append.mp ht with ht | ht
      · exact h.types t ht
      · exact List.mem_singleton.mp ht ▸ hsettings s List.mem_cons_self

namespace PolicySetter

variable (setter : PolicySetter)

/-- The order in which all setters but `SetPolicyStatusUnknown` write the types. -/
theorem setter_order :
    List.Perm [.degraded, .available, .progressing, .ignored] policyConditionTypes := by
  decide

theorem ofPolicy {conditions : ConditionList} (h : conditions.OfPolicy) (now : Time)
    (message : String) : (setter.setter now conditions message).OfPolicy := by
  cases setter <;> exact OfPolicy.setEach h now (by simp [policyConditionTypes])

/-- A setter says the same over every list of a policy. -/
theorem settings_setter {conditions : ConditionList} (h : conditions.OfPolicy) (now : Time)
    (message : String) :
    (setter.setter now conditions message).settings.Perm
      (setter.setter 0 [] message).settings := by
  have hover : ∀ settings : List Setting,
      (settings.map Setting.type).Perm policyConditionTypes →
      (setEach now conditions settings).settings.Perm (setEach 0 [] settings).settings := by
    intro settings hperm
    have hnd : (settings.map Setting.type).Nodup := by
      rw [hperm.nodup_iff]
      decide
    have hnone : (conditions.settings.filter fun s => s.type ∉ settings.map Setting.type) = [] := by
      refine List.filter_eq_nil_iff.mpr fun s hs => ?_
      obtain ⟨c, hc, rfl⟩ := List.mem_map.mp hs
      have hmem := hperm.mem_iff.mpr (h.types c.type (List.mem_map_of_mem hc))
      simpa [Condition.setting] using hmem
    have h₁ := settings_setEach now h.nodup hnd
    have h₂ := @settings_setEach 0 [] List.nodup_nil _ hnd
    rw [hnone, List.append_nil] at h₁
    exact h₁.trans (h₂.trans (by simp [ConditionList.settings])).symm
  cases setter with
  | statusUnknown => exact hover _ (List.Perm.refl _)
  | _ => exact hover _ setter_order

/-- Over a list of a policy, every setter leaves one entry for each type. -/
theorem types_setter {conditions : ConditionList} (h : conditions.OfPolicy) (now : Time)
    (message : String) :
    (setter.setter now conditions message).types.Perm policyConditionTypes := by
  have hsaid := (setter.settings_setter h now message).map Setting.type
  simp only [ConditionList.settings, List.map_map] at hsaid
  refine hsaid.trans ?_
  cases setter with
  | statusUnknown => exact List.Perm.refl _
  | _ => exact setter_order

end PolicySetter

theorem ofPolicy_builtBy (calls : List (PolicySetter × Time × String)) :
    (builtBy calls).OfPolicy := by
  induction calls using List.reverseRecOn with
  | nil => exact ⟨List.nodup_nil, by simp [builtBy, ConditionList.types]⟩
  | append_singleton calls call ih =>
    obtain ⟨setter, now, message⟩ := call
    rw [builtBy, List.foldl_append]
    exact setter.ofPolicy ih now message

/-! ## The numbers behind the verdict -/

/-- The setter of a branch. -/
def Branch.setter : Branch → PolicySetter
  | notMatching => .notMatching
  | failed => .failedToConfigure
  | unfinished | pending => .progressing
  | success => .success

theorem conditions_setPolicyStatus (now : Time) (policy : Policy) (st : PolicyConditionStatus) :
    (setPolicyStatus now policy st).status.conditions =
      st.branch.setter.setter now policy.status.conditions (st.message st.branch) := by
  unfold setPolicyStatus
  cases st.branch <;> rfl

/-- The type that a branch sets to True. -/
def Branch.marked : Branch → ConditionType
  | notMatching => .ignored
  | failed => .degraded
  | unfinished | pending => .progressing
  | success => .available

theorem Branch.status_setter_isTrue (b : Branch) (now : Time) (conditions : ConditionList)
    (message : String) {t : ConditionType} (ht : t ∈ policyConditionTypes) :
    (b.setter.setter now conditions message).status t = some .isTrue ↔ t = b.marked := by
  simp only [policyConditionTypes, List.mem_cons, List.not_mem_nil, or_false] at ht
  rcases ht with rfl | rfl | rfl | rfl <;> cases b <;>
    simp [setter, marked, PolicySetter.setter, setPolicyNotMatching, setPolicyFailedToConfigure,
      setPolicyProgressing, setPolicySuccess, status_setEach, List.find?]

/-- Two statuses that agree on everything the verdict reads. -/
structure PolicyConditionStatus.Agrees (st₁ st₂ : PolicyConditionStatus) : Prop where
  matching : st₁.numberOfNmstateMatchingNodes = st₂.numberOfNmstateMatchingNodes
  ready : st₁.numberOfReadyNmstateMatchingNodes = st₂.numberOfReadyNmstateMatchingNodes
  notReady : st₁.numberOfNotReadyNmstateMatchingNodes = st₂.numberOfNotReadyNmstateMatchingNodes
  failed : st₁.enactmentsCountByCondition.failed = st₂.enactmentsCountByCondition.failed
  aborted : st₁.enactmentsCountByCondition.aborted = st₂.enactmentsCountByCondition.aborted
  pending : st₁.enactmentsCountByCondition.pending = st₂.enactmentsCountByCondition.pending
  available : st₁.enactmentsCountByCondition.available = st₂.enactmentsCountByCondition.available
  finished : st₁.numberOfFinishedEnactments = st₂.numberOfFinishedEnactments

namespace PolicyConditionStatus.Agrees

variable {st₁ st₂ : PolicyConditionStatus}

theorem branch (h : st₁.Agrees st₂) : st₁.branch = st₂.branch := by
  unfold PolicyConditionStatus.branch
  rw [h.matching, h.failed, h.aborted, h.finished, h.ready, h.pending]

theorem message (h : st₁.Agrees st₂) (b : Branch) : st₁.message b = st₂.message b := by
  unfold PolicyConditionStatus.message
  rw [h.matching, h.ready, h.notReady, h.failed, h.aborted, h.pending, h.available, h.finished]

end PolicyConditionStatus.Agrees

/-! ## The statuses of a generation -/

/-- The status of each condition type of an enactment. -/
def Enactment.statuses (e : Enactment) : List (ConditionType × Option ConditionStatus) :=
  enactmentConditionTypes.map fun t => (t, e.status.conditions.status t)

/-- The enactments of a generation. -/
def ofGeneration (g : Generation) (enactments : List Enactment) : List Enactment :=
  enactments.filter fun e => e.status.policyGeneration = g

/-- The multiset of condition statuses of the enactments of a generation. -/
def standing (g : Generation) (enactments : List Enactment) :
    Multiset (List (ConditionType × Option ConditionStatus)) :=
  ((ofGeneration g enactments).map Enactment.statuses : List _)

/-- A True condition is counted within the multiset. -/
theorem count_eq_standing (enactments : List Enactment) (g : Generation) {t : ConditionType}
    (ht : t ∈ enactmentConditionTypes) :
    count enactments g t .isTrue =
      (standing g enactments).countP fun statuses => (t, some .isTrue) ∈ statuses := by
  rw [count_isTrue, standing, Multiset.coe_countP, List.countP_map, ofGeneration,
    List.countP_filter]
  refine List.countP_congr fun e _ => ?_
  simp only [holdsAt, Function.comp, Enactment.statuses, List.mem_map, Prod.mk.injEq,
    decide_eq_true_eq, Bool.and_eq_true]
  constructor
  · rintro ⟨hg, hst⟩
    exact ⟨⟨t, ht, rfl, hst⟩, hg⟩
  · rintro ⟨⟨t', -, rfl, hst⟩, hg⟩
    exact ⟨hg, hst⟩

/-- Policies, nodes and enactments between which the verdict must not distinguish. -/
structure SameStanding (policy₁ policy₂ : Policy) (nodes₁ nodes₂ : List Node)
    (enactments₁ enactments₂ : List Enactment) : Prop where
  matching : nodes₁.length = nodes₂.length
  ready : (filterReady nodes₁).length = (filterReady nodes₂).length
  standing : standing policy₁.generation enactments₁ = standing policy₂.generation enactments₂

theorem SameStanding.agrees {policy₁ policy₂ : Policy} {nodes₁ nodes₂ : List Node}
    {enactments₁ enactments₂ : List Enactment}
    (h : SameStanding policy₁ policy₂ nodes₁ nodes₂ enactments₁ enactments₂) :
    (calculatePolicyConditionStatus policy₁ nodes₁ enactments₁).Agrees
      (calculatePolicyConditionStatus policy₂ nodes₂ enactments₂) := by
  have hcount : ∀ t ∈ enactmentConditionTypes,
      count enactments₁ policy₁.generation t .isTrue =
        count enactments₂ policy₂.generation t .isTrue := by
    intro t ht
    rw [count_eq_standing _ _ ht, count_eq_standing _ _ ht, h.standing]
  have hfailed := hcount .failing (by decide)
  have haborted := hcount .aborted (by decide)
  have hpending := hcount .pending (by decide)
  have havailable := hcount .available (by decide)
  constructor <;>
    simp only [calculatePolicyConditionStatus, ConditionCount.failed, ConditionCount.aborted,
      ConditionCount.pending, ConditionCount.available, h.matching, h.ready, hfailed, haborted,
      hpending, havailable]

/-! ## Independence -/

/-- The conditions that `calculatePolicyConditionStatus` and `setPolicyStatus` give a policy. -/
def verdict (now : Time) (policy : Policy) (nodes : List Node) (enactments : List Enactment) :
    ConditionList :=
  (setPolicyStatus now policy
    (calculatePolicyConditionStatus policy nodes enactments)).status.conditions

/-- Over conditions built by the setters of a policy, the verdict is what the branch and its
message say over the empty list. -/
theorem verdict_settings {policy : Policy} (h : policy.status.conditions.OfPolicy) (now : Time)
    (nodes : List Node) (enactments : List Enactment) :
    let st := calculatePolicyConditionStatus policy nodes enactments
    (verdict now policy nodes enactments).settings.Perm
      (st.branch.setter.setter 0 [] (st.message st.branch)).settings := by
  rw [verdict, conditions_setPolicyStatus]
  exact PolicySetter.settings_setter _ h now _

/-- **The verdict ignores what it must ignore.**  Timestamps aside, the conditions depend only on
the numbers of matching and of Ready nodes and on the multiset of statuses of the enactments of
the policy's generation: whatever the policy's earlier conditions, in whatever order nodes and
enactments are listed, and whatever enactments of other generations there are.  Each of the four
types is there once, and exactly one of them is True. -/
theorem verdict_depends_only_on_standing (calls₁ calls₂ : List (PolicySetter × Time × String))
    (policy₁ policy₂ : Policy) (h₁ : policy₁.status.conditions = builtBy calls₁)
    (h₂ : policy₂.status.conditions = builtBy calls₂) (now₁ now₂ : Time)
    (nodes₁ nodes₂ : List Node) (enactments₁ enactments₂ : List Enactment) :
    (SameStanding policy₁ policy₂ nodes₁ nodes₂ enactments₁ enactments₂ →
      (verdict now₁ policy₁ nodes₁ enactments₁).settings.Perm
        (verdict now₂ policy₂ nodes₂ enactments₂).settings) ∧
    (policy₁.generation = policy₂.generation → nodes₁.Perm nodes₂ →
      (ofGeneration policy₁.generation enactments₁).Perm
        (ofGeneration policy₁.generation enactments₂) →
      (verdict now₁ policy₁ nodes₁ enactments₁).settings.Perm
        (verdict now₂ policy₂ nodes₂ enactments₂).settings) ∧
    (verdict now₁ policy₁ nodes₁ enactments₁).types.Perm policyConditionTypes ∧
    ∃! t, t ∈ policyConditionTypes ∧
      (verdict now₁ policy₁ nodes₁ enactments₁).status t = some .isTrue := by
  have hof₁ : policy₁.status.conditions.OfPolicy := h₁ ▸ ofPolicy_builtBy calls₁
  have hof₂ : policy₂.status.conditions.OfPolicy := h₂ ▸ ofPolicy_builtBy calls₂
  have hsame : SameStanding policy₁ policy₂ nodes₁ nodes₂ enactments₁ enactments₂ →
      (verdict now₁ policy₁ nodes₁ enactments₁).settings.Perm
        (verdict now₂ policy₂ nodes₂ enactments₂).settings := by
    intro hst
    have hv₁ := verdict_settings hof₁ now₁ nodes₁ enactments₁
    have hv₂ := verdict_settings hof₂ now₂ nodes₂ enactments₂
    simp only [hst.agrees.branch, hst.agrees.message] at hv₁
    exact hv₁.trans hv₂.symm
  refine ⟨hsame, ?_, ?_, ?_⟩
  · intro hgen hnodes henactments
    apply hsame
    refine ⟨hnodes.length_eq, (hnodes.filter isReady).length_eq, ?_⟩
    rw [standing, standing, ← hgen]
    exact Multiset.coe_eq_coe.mpr (henactments.map Enactment.statuses)
  · rw [verdict, conditions_setPolicyStatus]
    exact PolicySetter.types_setter _ hof₁ now₁ _
  · rw [verdict, conditions_setPolicyStatus]
    let b := (calculatePolicyConditionStatus policy₁ nodes₁ enactments₁).branch
    have hmarked : b.marked ∈ policyConditionTypes := by cases b <;> decide
    refine ⟨b.marked, ⟨hmarked, (b.status_setter_isTrue _ _ _ hmarked).mpr rfl⟩, ?_⟩
    rintro t ⟨ht, hst⟩
    exact (b.status_setter_isTrue _ _ _ ht).mp hst

/-- A policy that was Progressing and one whose conditions were reset to Unknown; the second is
listed in another order, with an enactment left from an earlier generation. -/
theorem verdict_ignores_stale_enactment :
    let nodes := [nodeWithReady "node01" true, nodeWithReady "node02" false]
    let current : Enactment :=
      ⟨"node01", { policyGeneration := 1, conditions := setSuccess 90 [] "" }⟩
    let stale : Enactment :=
      ⟨"node02", { policyGeneration := 0, conditions := setFailedToConfigure 10 [] "" }⟩
    let policy (conditions : ConditionList) : Policy :=
      { policyWithCount [] with status := ⟨conditions, [], none⟩ }
    (verdict 100 (policy (builtBy [(.progressing, 80, "")])) nodes [current]).settings.Perm
      (verdict 200 (policy (builtBy [(.statusUnknown, 70, "")])) nodes.reverse
        [stale, current]).settings :=
  (verdict_depends_only_on_standing [(.progressing, 80, "")] [(.statusUnknown, 70, "")] _ _ rfl rfl
    100 200 _ _ _ _).2.1 rfl (List.reverse_perm _).symm (List.Perm.refl _)
