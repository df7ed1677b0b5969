/-
# The verdict on a policy

`pkg/policyconditions/conditions.go` and the counting of
`pkg/enactmentstatus/conditions/counter.go`: the conditions of a policy are computed
from three numbers (matching nodes, Ready matching nodes, enactments by condition)
and written by one of five branches.

`branch` names the branch `setPolicyStatus` takes; the field lemmas of
`setPolicyStatus` say what each branch does to the counter and to the `Available`
condition.  The last two sections say exactly on which inputs the success branch
leaves no progressing enactment without its slot (`counterKept_iff`) and reports a
policy Available only when every Ready node is (`availableHonest_iff`).
-/
import Mathlib.Tactic.SplitIfs
import KubernetesNmstate.Counting
import KubernetesNmstate.EnactmentConditions
import KubernetesNmstate.Nodes

/-! ## Policy condition setters -/

section Setters

variable (now : Time) (conditions : ConditionList) (message : String)

/-- `SetPolicyProgressing`. -/
def setPolicyProgressing : ConditionList :=
  setEach now conditions
    [⟨.degraded, .unknown, .configurationProgressing, ""⟩,
      ⟨.available, .unknown, .configurationProgressing, ""⟩,
      ⟨.progressing, .isTrue, .configurationProgressing, message⟩,
      ⟨.ignored, .isFalse, .configurationProgressing, ""⟩]

/-- `SetPolicySuccess`. -/
def setPolicySuccess : ConditionList :=
  setEach now conditions
    [⟨.degraded, .isFalse, .successfullyConfigured, ""⟩,
      ⟨.available, .isTrue, .successfullyConfigured, message⟩,
      ⟨.progressing, .isFalse, .successfullyConfigured, ""⟩,
      ⟨.ignored, .isFalse, .successfullyConfigured, ""⟩]

/-- `SetPolicyNotMatching`. -/
def setPolicyNotMatching : ConditionList :=
  setEach now conditions
    [⟨.degraded, .isFalse, .noMatchingNode, ""⟩,
      ⟨.available, .isFalse, .noMatchingNode, ""⟩,
      ⟨.progressing, .isFalse, .noMatchingNode, ""⟩,
      ⟨.ignored, .isTrue, .noMatchingNode, message⟩]

/-- `SetPolicyFailedToConfigure`. -/
def setPolicyFailedToConfigure : ConditionList :=
  setEach now conditions
    [⟨.degraded, .isTrue, .failedToConfigure, message⟩,
      ⟨.available, .isFalse, .failedToConfigure, ""⟩,
      ⟨.progressing, .isFalse, .configurationProgressing, ""⟩,
      ⟨.ignored, .isFalse, .failedToConfigure, ""⟩]

/-- `NodeNetworkConfigurationPolicyConditionTypes`. -/
def policyConditionTypes : List ConditionType := [.available, .degraded, .progressing, .ignored]

/-- `SetPolicyStatusUnknown`. -/
def setPolicyStatusUnknown : ConditionList :=
  setEach now conditions (policyConditionTypes.map fun t => ⟨t, .unknown, .none, ""⟩)

end Setters

/-- `policyconditions.IsProgressing`. -/
def policyIsProgressing (conditions : ConditionList) : Bool :=
  match conditions.find .progressing with
  | none => false
  | some c => c.status = .isTrue

/-- `policyconditions.IsUnknown`. -/
def policyIsUnknown (conditions : ConditionList) : Bool :=
  match conditions.find .available with
  | none => true
  | some c => c.status = .unknown

/-! ## Counting enactments by condition -/

/-- `ConditionCount`. -/
abbrev ConditionCount : Type := ConditionType → ConditionStatus → ℕ

/-- The status under which `Count` books an enactment for a type: what is stored when it
belongs to the generation, Unknown otherwise. -/
def countedStatus (policyGeneration : Generation) (t : ConditionType) (enactment : Enactment) :
    ConditionStatus :=
  match enactment.status.conditions.find t with
  | some c => if enactment.status.policyGeneration = policyGeneration then c.status else .unknown
  | none => .unknown

/-- `enactmentconditions.Count`. -/
def count (enactments : List Enactment) (policyGeneration : Generation) : ConditionCount :=
  fun t st => enactments.countP fun e => countedStatus policyGeneration t e = st

/-- `ConditionCount.Failed`. -/
def ConditionCount.failed (c : ConditionCount) : ℕ := c .failing .isTrue

/-- `ConditionCount.Pending`. -/
def ConditionCount.pending (c : ConditionCount) : ℕ := c .pending .isTrue

/-- `ConditionCount.Available`. -/
def ConditionCount.available (c : ConditionCount) : ℕ := c .available .isTrue

/-- `ConditionCount.Aborted`. -/
def ConditionCount.aborted (c : ConditionCount) : ℕ := c .aborted .isTrue

/-- `policyConditionStatus`. -/
structure PolicyConditionStatus where
  numberOfNmstateMatchingNodes : ℕ
  numberOfReadyNmstateMatchingNodes : ℕ
  numberOfNotReadyNmstateMatchingNodes : ℕ
  enactmentsCountByCondition : ConditionCount
  numberOfFinishedEnactments : ℕ

/-- `calculatePolicyConditionStatus`. -/
def calculatePolicyConditionStatus (policy : Policy) (nmstateMatchingNodes : List Node)
    (enactments : List Enactment) : PolicyConditionStatus :=
  let matching := nmstateMatchingNodes.length
  let ready := (filterReady nmstateMatchingNodes).length
  let byCondition := count enactments policy.generation
  { numberOfNmstateMatchingNodes := matching
    numberOfReadyNmstateMatchingNodes := ready
    numberOfNotReadyNmstateMatchingNodes := matching - ready
    enactmentsCountByCondition := byCondition
    numberOfFinishedEnactments := byCondition.available + byCondition.failed + byCondition.aborted }

/-! ## The five branches -/

/-- The branches of `setPolicyStatus`, in the order of its tests. -/
inductive Branch : Type where
  | notMatching : Branch
  | failed : Branch
  | unfinished : Branch
  | pending : Branch
  | success : Branch
  deriving DecidableEq, Repr, Inhabited

/-- The branch `setPolicyStatus` takes. -/
def PolicyConditionStatus.branch (st : PolicyConditionStatus) : Branch :=
  if st.numberOfNmstateMatchingNodes = 0 then .notMatching
  else if 0 < st.enactmentsCountByCondition.failed ∨ 0 < st.enactmentsCountByCondition.aborted then
    .failed
  else if st.numberOfFinishedEnactments < st.numberOfReadyNmstateMatchingNodes then .unfinished
  else if 0 < st.enactmentsCountByCondition.pending then .pending
  else .success

/-- `informOfNotReadyNodes`. -/
def informOfNotReadyNodes (notReadyNodesCount : ℕ) : String :=
  if 0 < notReadyNodesCount then
    ", " ++ toString notReadyNodesCount ++ " nodes ignored due to NotReady state"
  else ""

/-- `informOfAbortedEnactments`. -/
def informOfAbortedEnactments (abortedEnactmentsCount : ℕ) : String :=
  if 0 < abortedEnactmentsCount then
    ", " ++ toString abortedEnactmentsCount ++ " nodes aborted configuration"
  else ""

/-- The message of a branch. -/
def PolicyConditionStatus.message (st : PolicyConditionStatus) : Branch → String
  | .notMatching => "Policy does not match any node"
  | .failed =>
    toString st.enactmentsCountByCondition.failed ++ "/" ++
      toString st.numberOfNmstateMatchingNodes ++ " nodes failed to configure" ++
      informOfAbortedEnactments st.enactmentsCountByCondition.aborted
  | .unfinished =>
    "Policy is progressing " ++ toString st.numberOfFinishedEnactments ++ "/" ++
      toString st.numberOfReadyNmstateMatchingNodes ++ " nodes finished" ++
      informOfNotReadyNodes st.numberOfNotReadyNmstateMatchingNodes
  | .pending =>
    "Policy is progressing " ++ toString st.numberOfFinishedEnactments ++ "/" ++
      toString st.numberOfReadyNmstateMatchingNodes ++ " nodes finished, " ++
      toString st.enactmentsCountByCondition.pending ++ " pending" ++
      informOfNotReadyNodes st.numberOfNotReadyNmstateMatchingNodes
  | .success =>
    toString st.enactmentsCountByCondition.available ++ "/" ++
      toString st.numberOfNmstateMatchingNodes ++ " nodes successfully configured" ++
      informOfNotReadyNodes st.numberOfNotReadyNmstateMatchingNodes

/-- `setPolicyStatus` at time `now`. -/
def setPolicyStatus (now : Time) (policy : Policy) (st : PolicyConditionStatus) : Policy :=
  let message := st.message st.branch
  let conditions := policy.status.conditions
  match st.branch with
  | .notMatching =>
    { policy with status := { policy.status with
        conditions := setPolicyNotMatching now conditions message } }
  | .failed =>
    { policy with status := { policy.status with
        conditions := setPolicyFailedToConfigure now conditions message } }
  | .unfinished =>
    { policy with status := { policy.status with
        conditions := setPolicyProgressing now conditions message } }
  | .pending =>
    { policy with status := { policy.status with
        conditions := setPolicyProgressing now conditions message } }
  | .success =>
    { policy with status := { policy.status with
        unavailableNodeCountMap := []
        conditions := setPolicySuccess now conditions message } }

section Fields

variable (now : Time) (policy : Policy) (st : PolicyConditionStatus)

/-- Only the success branch touches the counter, and it empties it. -/
theorem unavailableNodeCountMap_setPolicyStatus :
    (setPolicyStatus now policy st).status.unavailableNodeCountMap =
      if st.branch = .success then [] else policy.status.unavailableNodeCountMap := by
  unfold setPolicyStatus
  cases st.branch <;> rfl

/-- No branch touches the time of the last counter update. -/
@[simp] theorem lastUnavailableNodeCountUpdate_setPolicyStatus :
    (setPolicyStatus now policy st).status.lastUnavailableNodeCountUpdate =
      policy.status.lastUnavailableNodeCountUpdate := by
  unfold setPolicyStatus
  cases st.branch <;> rfl

@[simp] theorem resourceVersion_setPolicyStatus :
    (setPolicyStatus now policy st).resourceVersion = policy.resourceVersion := by
  unfold setPolicyStatus
  cases st.branch <;> rfl

/-- `Available` ends up True exactly in the success branch, whatever was stored before. -/
theorem status_available_setPolicyStatus :
    (setPolicyStatus now policy st).status.conditions.status .available = some .isTrue ↔
      st.branch = .success := by
  unfold setPolicyStatus
  cases st.branch <;>
    simp [setPolicyNotMatching, setPolicyFailedToConfigure, setPolicyProgressing,
      setPolicySuccess, status_setEach, List.find?]

end Fields

/-! ## Counts as properties of the enactments -/

/-- A type is booked as True exactly for the enactments of the generation that store it so. -/
theorem countedStatus_isTrue_iff {g : Generation} {t : ConditionType} {e : Enactment} :
    countedStatus g t e = .isTrue ↔
      e.status.policyGeneration = g ∧ e.status.conditions.status t = some .isTrue := by
  unfold countedStatus ConditionList.status
  cases e.status.conditions.find t with
  | none => simp
  | some c =>
    by_cases h : e.status.policyGeneration = g <;> simp [h]

/-- The enactment belongs to the generation and has the condition type True. -/
def holdsAt (g : Generation) (t : ConditionType) (e : Enactment) : Bool :=
  e.status.policyGeneration = g ∧ e.status.conditions.status t = some .isTrue

theorem count_isTrue (enactments : List Enactment) (g : Generation) (t : ConditionType) :
    count enactments g t .isTrue = enactments.countP (holdsAt g t) := by
  unfold count
  apply List.countP_congr
  intro e _
  simp [countedStatus_isTrue_iff, holdsAt]

/-- The success branch, in terms of the nodes and the enactments. -/
theorem branch_eq_success_iff (policy : Policy) (nodes : List Node) (enactments : List Enactment) :
    (calculatePolicyConditionStatus policy nodes enactments).branch = .success ↔
      nodes ≠ [] ∧ enactments.countP (holdsAt policy.generation .failing) = 0 ∧
        enactments.countP (holdsAt policy.generation .aborted) = 0 ∧
        nodes.countP isReady ≤ enactments.countP (holdsAt policy.generation .available) ∧
        enactments.countP (holdsAt policy.generation .pending) = 0 := by
  unfold PolicyConditionStatus.branch calculatePolicyConditionStatus
  simp only [ConditionCount.failed, ConditionCount.aborted, ConditionCount.available,
    ConditionCount.pending, count_isTrue, filterReady, ← List.countP_eq_length_filter,
    List.length_eq_zero_iff]
  by_cases hn : nodes = []
  · simp [hn]
  · by_cases hf : 0 < enactments.countP (holdsAt policy.generation .failing) ∨
        0 < enactments.countP (holdsAt policy.generation .aborted)
    · simp only [hn, hf, if_false, if_true]
      constructor
      · intro h; exact absurd h (by decide)
      · rintro ⟨-, h1, h2, -⟩; omega
    · simp only [hn, hf, if_false]
      split_ifs with h1 h2
      · constructor
        · intro h; exact absurd h (by decide)
        · rintro ⟨-, -, -, h3, -⟩; omega
      · constructor
        · intro h; exact absurd h (by decide)
        · rintro ⟨-, -, -, -, h3⟩; omega
      · simp only [true_iff]
        exact ⟨hn, by omega, by omega, by omega, by omega⟩

/-! ## The counter under a progressing enactment -/

/-- What the verdict owes the slot holders: emptying the counter happens only when no
enactment of the generation is progressing, every other branch keeps the counter, and
the time of its last update is kept always. -/
def CounterKept (now : Time) (policy : Policy) (nodes : List Node)
    (enactments : List Enactment) : Prop :=
  let st := calculatePolicyConditionStatus policy nodes enactments
  let policy' := setPolicyStatus now policy st
  (st.branch = .success → policy'.status.unavailableNodeCountMap = [] ∧
    ∀ e ∈ enactments, e.status.policyGeneration = policy.generation →
      isProgressing e.status.conditions = false) ∧
  (st.branch ≠ .success →
    policy'.status.unavailableNodeCountMap = policy.status.unavailableNodeCountMap) ∧
  policy'.status.lastUnavailableNodeCountUpdate = policy.status.lastUnavailableNodeCountUpdate

/-- At most one enactment per matching node. -/
def OnePerNode (nodes : List Node) (enactments : List Enactment) : Prop :=
  ∀ node ∈ nodes, enactments.countP (fun e => e.node = node.name) ≤ 1

instance (nodes : List Node) (enactments : List Enactment) :
    Decidable (OnePerNode nodes enactments) :=
  List.decidableBAll _ nodes

/-- **When the counter is safe.**  The verdict keeps the counter under every progressing
enactment exactly when there is no matching node, or some enactment is counted failed or
aborted, or fewer enactments are Available than nodes are Ready, or some enactment is
Pending, or none is progressing. -/
theorem counterKept_iff (now : Time) (policy : Policy) (nodes : List Node)
    (enactments : List Enactment) :
    CounterKept now policy nodes enactments ↔
      nodes = [] ∨
      (∃ e ∈ enactments, holdsAt policy.generation .failing e ∨
        holdsAt policy.generation .aborted e) ∨
      enactments.countP (holdsAt policy.generation .available) < nodes.countP isReady ∨
      (∃ e ∈ enactments, holdsAt policy.generation .pending e) ∨
      ∀ e ∈ enactments, holdsAt policy.generation .progressing e = false := by
  have hprog : (∀ e ∈ enactments, e.status.policyGeneration = policy.generation →
        isProgressing e.status.conditions = false) ↔
      ∀ e ∈ enactments, holdsAt policy.generation .progressing e = false := by
    refine forall₂_congr fun e _ => ?_
    rw [← Bool.not_eq_true, ← Bool.not_eq_true, isProgressing_iff]
    simp [holdsAt]
  unfold CounterKept
  simp only [unavailableNodeCountMap_setPolicyStatus,
    lastUnavailableNodeCountUpdate_setPolicyStatus, and_true]
  rw [hprog]
  by_cases hs : (calculatePolicyConditionStatus policy nodes enactments).branch = .success
  · obtain ⟨hn, hf, ha, hready, hp⟩ := (branch_eq_success_iff policy nodes enactments).mp hs
    rw [List.countP_eq_zero] at hf ha hp
    simp only [hs, if_true, true_and, forall_const, ne_eq, not_true_eq_false, false_imp_iff,
      and_true, hn, false_or]
    constructor
    · intro h; exact Or.inr (Or.inr (Or.inr h))
    · rintro (⟨e, he, h | h⟩ | h | ⟨e, he, h⟩ | h)
      · exact absurd h (hf e he)
      · exact absurd h (ha e he)
      · omega
      · exact absurd h (hp e he)
      · exact h
  · -- outside the success branch one of the first four disjuncts holds
    simp only [hs, if_false, false_imp_iff, ne_eq, not_false_eq_true, forall_const, true_and,
      true_iff]
    by_contra hcon
    simp only [not_or, not_exists, not_and] at hcon
    obtain ⟨hn, hfa, hready, hp, -⟩ := hcon
    refine hs ((branch_eq_success_iff policy nodes enactments).mpr ⟨hn, ?_, ?_, by omega, ?_⟩)
    · exact List.countP_eq_zero.mpr fun e he => (hfa e he).1
    · exact List.countP_eq_zero.mpr fun e he => (hfa e he).2
    · exact List.countP_eq_zero.mpr hp

/-- A node with one Ready condition. -/
def nodeWithReady (name : NodeName) (ready : Bool) : Node where
  name := name
  labels := []
  conditions := [⟨.ready, if ready then .isTrue else .isFalse⟩]

/-- A policy of generation 1 with the given counter. -/
def policyWithCount (counts : CountMap) : Policy where
  name := "policy"
  generation := 1
  resourceVersion := 3
  spec := default
  status := ⟨[], counts, some 100⟩

/-- A Ready node has finished; a second node went NotReady in the middle of its apply and
holds the only slot.  The verdict is success and the counter is emptied under it. -/
theorem counter_wiped_under_progressing :
    ∃ (now : Time) (policy : Policy) (nodes : List Node) (enactments : List Enactment),
      OnePerNode nodes enactments ∧
      (count enactments policy.generation).failed = 0 ∧
      (count enactments policy.generation).aborted = 0 ∧
      policy.count policy.generation = 1 ∧
      ¬ CounterKept now policy nodes enactments := by
  refine ⟨200, policyWithCount [(1, 1)],
    [nodeWithReady "node01" true, nodeWithReady "node02" false],
    [⟨"node01", { policyGeneration := 1, conditions := setSuccess 90 [] "" }⟩,
      ⟨"node02", { policyGeneration := 1, conditions := setProgressing 100 [] "" }⟩],
    by decide, by decide, by decide, by decide, ?_⟩
  rintro ⟨hwiped, -⟩
  exact absurd ((hwiped (by decide)).2 _ (List.mem_cons_of_mem _ (List.mem_singleton_self _)) rfl)
    (by decide)

/-! ## The Available verdict -/

/-- A policy reported Available is Available on every Ready node. -/
def AvailableHonest (now : Time) (policy : Policy) (nodes : List Node)
    (enactments : List Enactment) : Prop :=
  (setPolicyStatus now policy
      (calculatePolicyConditionStatus policy nodes enactments)).status.conditions.status
    .available = some .isTrue →
  ∀ node ∈ nodes, isReady node = true →
    ∃ e ∈ enactments, e.node = node.name ∧ holdsAt policy.generation .available e

/-- The Available enactments whose node is a Ready matching node. -/
def availableOnReady (policy : Policy) (nodes : List Node) (enactments : List Enactment) : ℕ :=
  enactments.countP fun e => holdsAt policy.generation .available e &&
    decide (e.node ∈ (filterReady nodes).map (·.name))

/-- Every Ready node is Available exactly when the Available enactments of Ready nodes are
as many as the Ready nodes: with one enactment per node none can stand in for another. -/
theorem ready_nodes_available_iff (policy : Policy) (nodes : List Node)
    (enactments : List Enactment) (hnames : (nodes.map (·.name)).Nodup)
    (hone : OnePerNode nodes enactments) :
    (∀ node ∈ nodes, isReady node = true →
      ∃ e ∈ enactments, e.node = node.name ∧ holdsAt policy.generation .available e) ↔
    nodes.countP isReady ≤ availableOnReady policy nodes enactments := by
  have hsub : ((filterReady nodes).map (·.name)).Sublist (nodes.map (·.name)) :=
    List.filter_sublist.map _
  have hlen : ((filterReady nodes).map (·.name)).length = nodes.countP isReady := by
    rw [List.length_map, filterReady, ← List.countP_eq_length_filter]
  rw [← hlen, availableOnReady]
  constructor
  · intro h
    refine List.length_le_countP_of_exists_key _ _ _ _ (hnames.sublist hsub) fun k hk => ?_
    obtain ⟨node, hnode, rfl⟩ := List.mem_map.mp hk
    obtain ⟨hmem, hready⟩ := List.mem_filter.mp hnode
    obtain ⟨e, he, hen, hav⟩ := h node hmem hready
    exact ⟨e, he, hav, hen⟩
  · intro h node hnode hready
    have hone' : ∀ k ∈ (filterReady nodes).map (·.name),
        enactments.countP (fun e => decide (e.node = k)) ≤ 1 := by
      intro k hk
      obtain ⟨node', hnode', rfl⟩ := List.mem_map.mp hk
      exact hone node' (List.mem_filter.mp hnode').1
    obtain ⟨e, he, hav, hen⟩ := List.exists_key_of_length_le_countP _ _ _ _ hone' h node.name
      (List.mem_map_of_mem (List.mem_filter.mpr ⟨hnode, hready⟩))
    exact ⟨e, he, hen, hav⟩

/-- **When the Available verdict is honest.**  Either one of the other four branches is
taken, or the Available enactments that belong to Ready nodes already reach the number of
Ready nodes; Available enactments of NotReady nodes must not be needed to reach it. -/
theorem availableHonest_iff (now : Time) (policy : Policy) (nodes : List Node)
    (enactments : List Enactment) (hnames : (nodes.map (·.name)).Nodup)
    (hone : OnePerNode nodes enactments) :
    AvailableHonest now policy nodes enactments ↔
      nodes = [] ∨
      (∃ e ∈ enactments, holdsAt policy.generation .failing e ∨
        holdsAt policy.generation .aborted e) ∨
      enactments.countP (holdsAt policy.generation .available) < nodes.countP isReady ∨
      (∃ e ∈ enactments, holdsAt policy.generation .pending e) ∨
      nodes.countP isReady ≤ availableOnReady policy nodes enactments := by
  unfold AvailableHonest
  rw [status_available_setPolicyStatus,
    ready_nodes_available_iff policy nodes enactments hnames hone, branch_eq_success_iff]
  simp only [List.countP_eq_zero]
  constructor
  · intro h
    by_contra hcon
    simp only [not_or, not_exists, not_and] at hcon
    obtain ⟨hn, hfa, hready, hp, hnot⟩ := hcon
    exact hnot (h ⟨hn, fun e he => (hfa e he).1, fun e he => (hfa e he).2, by omega, hp⟩)
  · rintro h ⟨hn, hf, ha, hready, hp⟩
    rcases h with h | ⟨e, he, h | h⟩ | h | ⟨e, he, h⟩ | h
    · exact absurd h hn
    · exact absurd h (hf e he)
    · exact absurd h (ha e he)
    · omega
    · exact absurd h (hp e he)
    · exact h

/-- Two nodes, both Ready, both Available: the verdict is honest. -/
theorem availableHonest_two_nodes :
    AvailableHonest 200 (policyWithCount [])
      [nodeWithReady "node01" true, nodeWithReady "node02" true]
      [⟨"node01", { policyGeneration := 1, conditions := setSuccess 90 [] "" }⟩,
        ⟨"node02", { policyGeneration := 1, conditions := setSuccess 100 [] "" }⟩] :=
  (availableHonest_iff _ _ _ _ (by decide) (by decide)).mpr (by decide)

/-- The finished node is NotReady and the Ready one is still progressing: one Available
enactment for one Ready node, and the policy is reported Available. -/
theorem available_without_ready_node :
    ∃ (now : Time) (policy : Policy) (nodes : List Node) (enactments : List Enactment),
      (nodes.map (·.name)).Nodup ∧ OnePerNode nodes enactments ∧
      ¬ AvailableHonest now policy nodes enactments := by
  refine ⟨200, policyWithCount [],
    [nodeWithReady "node01" false, nodeWithReady "node02" true],
    [⟨"node01", { policyGeneration := 1, conditions := setSuccess 90 [] "" }⟩,
      ⟨"node02", { policyGeneration := 1, conditions := setProgressing 100 [] "" }⟩],
    by decide, by decide, ?_⟩
  intro h
  exact absurd (h (by decide) (nodeWithReady "node02" true)
    (List.mem_cons_of_mem _ (List.mem_singleton_self _)) (by decide)) (by decide)
