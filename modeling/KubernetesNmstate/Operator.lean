/-
# The operator

Two decisions of `controllers/operator/nmstate_controller.go`.

`Reconcile` keeps one `NMState` and deletes the others.  Each request decides for its own instance,
from its own listing, sorted by creation time; nothing orders instances of equal age.
`surviving_instance_iff` says that all listings keep the same instance, and that no
sequence of requests deletes them all, exactly when one instance is older than the others.

`webhookReplicaCount` counts infra nodes by counting matches of a toleration and a
taint, so a node with two matches counts twice: `webhookReplicaCount_iff`.
-/
import Mathlib.Data.List.Induction
import Mathlib.Data.List.Sort
import Mathlib.Data.List.ProdSigma
import KubernetesNmstate.Counting
import KubernetesNmstate.Objects

/-! ## Instances and their listings -/

/-- `NMState`, as far as `Reconcile` reads it before it applies the manifests. -/
structure NMState where
  name : String
  creationTimestamp : Time
  deriving DecidableEq, Repr, Inhabited

/-- What `sort.Slice` by creation time may make of a listing: an order of the same instances in
which none comes after a younger one. -/
structure Sorts (listing sorted : List NMState) : Prop where
  perm : sorted.Perm listing
  ordered : sorted.Pairwise fun a b => ¬ b.creationTimestamp < a.creationTimestamp

/-- A request, with what the API answers to it. -/
structure NMStateRequest where
  name : String
  getErr : Option Err := none
  /-- The listing as `sort.Slice` leaves it. -/
  listing : Except Err (List NMState)
  deleteErr : Option Err := none

/-- How `Reconcile` ends; `applied` goes on to the manifests and the status of the instance. -/
inductive NMStateOutcome : Type where
  | notFound : NMStateOutcome
  | failed (err : Err) : NMStateOutcome
  | ignored : NMStateOutcome
  | applied (found : NMState) : NMStateOutcome
  deriving DecidableEq, Repr, Inhabited

/-- `NMStateReconciler.Reconcile` up to the manifests, with the instances that are left. -/
def reconcileNMState (instances : List NMState) (req : NMStateRequest) :
    NMStateOutcome × List NMState :=
  match req.getErr with
  | some err => (.failed err, instances)
  | none =>
    match instances.find? fun i => i.name = req.name with
    | none => (.notFound, instances)
    | some found =>
      match req.listing with
      | .error err =>
        (.failed (.other ("failed listing all NMState instances: " ++ err.message)), instances)
      | .ok [] => (.applied found, instances)
      | .ok (first :: _) =>
        if first.name ≠ req.name then
          -- an error of the delete is only logged
          match req.deleteErr with
          | some _ => (.ignored, instances)
          | none => (.ignored, instances.filter fun i => i.name ≠ req.name)
        else (.applied found, instances)

/-- The instances that a sequence of requests leaves. -/
def reconcileNMStates (instances : List NMState) (requests : List NMStateRequest) : List NMState :=
  requests.foldl (fun live req => (reconcileNMState live req).2) instances

/-! ## The first of a sorted listing -/

/-- No instance is older. -/
def Oldest (instances : List NMState) (i : NMState) : Prop :=
  i ∈ instances ∧ ∀ j ∈ instances, i.creationTimestamp ≤ j.creationTimestamp

/-- One instance is older than all others. -/
def UniqueOldest (instances : List NMState) : Prop :=
  ∃ i ∈ instances, ∀ j ∈ instances, j ≠ i → i.creationTimestamp < j.creationTimestamp

theorem Sorts.oldest_head {listing rest : List NMState} {first : NMState}
    (h : Sorts listing (first :: rest)) : Oldest listing first := by
  refine ⟨h.perm.mem_iff.mp List.mem_cons_self, ?_⟩
  intro j hj
  rcases List.mem_cons.mp (h.perm.mem_iff.mpr hj) with rfl | hj
  · exact Nat.le_refl _
  · exact Nat.le_of_not_lt ((List.pairwise_cons.mp h.ordered).1 j hj)

/-- Any instance of minimal age may come first. -/
theorem exists_sorts_of_oldest {instances : List NMState} {i : NMState}
    (h : Oldest instances i) : ∃ rest, Sorts instances (i :: rest) := by
  let le : NMState → NMState → Bool := fun a b => a.creationTimestamp ≤ b.creationTimestamp
  have htrans : ∀ a b c, le a b = true → le b c = true → le a c = true := by
    intro a b c hab hbc
    exact decide_eq_true (Nat.le_trans (of_decide_eq_true hab) (of_decide_eq_true hbc))
  have htotal : ∀ a b, (le a b || le b a) = true := by
    intro a b
    simpa [le] using Nat.le_total a.creationTimestamp b.creationTimestamp
  have hperm : ((instances.erase i).mergeSort le).Perm (instances.erase i) :=
    List.mergeSort_perm _ _
  refine ⟨(instances.erase i).mergeSort le, ?_, List.pairwise_cons.mpr ⟨?_, ?_⟩⟩
  · exact (hperm.cons i).trans (List.perm_cons_erase h.1).symm
  · intro j hj
    exact Nat.not_lt.mpr (h.2 j (List.mem_of_mem_erase (hperm.mem_iff.mp hj)))
  · refine (List.pairwise_mergeSort htrans htotal (instances.erase i)).imp ?_
    intro a b hab
    exact Nat.not_lt.mpr (of_decide_eq_true hab)

theorem exists_oldest {instances : List NMState} (hne : instances ≠ []) :
    ∃ i, Oldest instances i := by
  induction instances with
  | nil => exact absurd rfl hne
  | cons j instances ih =>
    by_cases hnil : instances = []
    · exact ⟨j, by simp [Oldest, hnil]⟩
    · obtain ⟨i, hi, hmin⟩ := ih hnil
      by_cases hle : j.creationTimestamp ≤ i.creationTimestamp
      · refine ⟨j, List.mem_cons_self, ?_⟩
        intro k hk
        rcases List.mem_cons.mp hk with rfl | hk
        · exact Nat.le_refl _
        · exact Nat.le_trans hle (hmin k hk)
      · refine ⟨i, List.mem_cons_of_mem j hi, ?_⟩
        intro k hk
        rcases List.mem_cons.mp hk with rfl | hk
        · exact Nat.le_of_not_le hle
        · exact hmin k hk

/-- Without a unique oldest instance there are two of them. -/
theorem exists_tie {instances : List NMState} (hne : instances ≠ [])
    (h : ¬ UniqueOldest instances) :
    ∃ i j, i ≠ j ∧ Oldest instances i ∧ Oldest instances j := by
  obtain ⟨i, hi, hmin⟩ := exists_oldest hne
  by_contra hno
  refine h ⟨i, hi, fun j hj hji => ?_⟩
  by_contra hlt
  refine hno ⟨i, j, hji.symm, ⟨hi, hmin⟩, hj, fun k hk => ?_⟩
  exact Nat.le_trans (Nat.le_of_not_lt hlt) (hmin k hk)

/-- A unique oldest instance comes first in every sorted listing. -/
theorem Sorts.head_eq {instances listing sorted : List NMState} {i : NMState}
    (hperm : listing.Perm instances) (h : Sorts listing sorted) (hi : i ∈ instances)
    (hlt : ∀ j ∈ instances, j ≠ i → i.creationTimestamp < j.creationTimestamp) :
    ∃ rest, sorted = i :: rest := by
  cases sorted with
  | nil => exact absurd (h.perm.mem_iff.mpr (hperm.mem_iff.mpr hi)) List.not_mem_nil
  | cons first rest =>
    obtain ⟨hfirst, hmin⟩ := h.oldest_head
    by_cases heq : first = i
    · exact ⟨rest, by rw [heq]⟩
    · exact absurd (hmin i (hperm.mem_iff.mpr hi))
        (Nat.not_le.mpr (hlt first (hperm.mem_iff.mp hfirst) heq))

/-! ## One request -/

/-- The request for `i`, all of whose calls succeed, with a sorted listing, is not for deletion. -/
def Keeps (instances sorted : List NMState) (i : NMState) : Prop :=
  reconcileNMState instances { name := i.name, listing := .ok sorted } = (.applied i, instances)

section Request

variable {instances : List NMState} (hnames : (instances.map NMState.name).Nodup)

include hnames

theorem eq_of_name_eq {i j : NMState} (hi : i ∈ instances) (hj : j ∈ instances)
    (h : i.name = j.name) : i = j :=
  List.inj_on_of_nodup_map hnames hi hj h

theorem find_name {i : NMState} (hi : i ∈ instances) :
    (instances.find? fun j => j.name = i.name) = some i := by
  cases hfind : instances.find? fun j => j.name = i.name with
  | none => exact absurd (List.find?_eq_none.mp hfind i hi) (by simp)
  | some j =>
    have hname := List.find?_some hfind
    rw [eq_of_name_eq hnames (List.mem_of_find?_eq_some hfind) hi (of_decide_eq_true hname)]

/-- The instance that is kept is the first one of the sorted listing. -/
theorem keeps_iff {first i : NMState} {rest : List NMState}
    (hfirst : first ∈ instances) (hi : i ∈ instances) :
    Keeps instances (first :: rest) i ↔ i = first := by
  unfold Keeps reconcileNMState
  simp only [find_name hnames hi]
  by_cases h : first.name = i.name
  · simp [eq_of_name_eq hnames hfirst hi h]
  · have hne : i ≠ first := fun e => h (e ▸ rfl)
    simp [h, hne]

end Request

/-- An instance is deleted only by its own request, with another one first in the listing. -/
theorem mem_reconcileNMState {instances : List NMState} {req : NMStateRequest} {i : NMState}
    (hi : i ∈ instances)
    (h : ∀ first rest, req.listing = .ok (first :: rest) → i.name = req.name → first = i) :
    i ∈ (reconcileNMState instances req).2 := by
  unfold reconcileNMState
  split
  · exact hi
  · split
    · exact hi
    · split
      · exact hi
      · exact hi
      · rename_i first rest hlisting
        split
        · rename_i hne
          split
          · exact hi
          · refine List.mem_filter.mpr ⟨hi, decide_eq_true fun hname => hne ?_⟩
            rw [h first rest hlisting hname, hname]
        · exact hi

/-- A request whose calls succeed, with another instance first, leaves none of its name. -/
theorem reconcileNMState_of_ne (instances : List NMState) {name : String} {first : NMState}
    (rest : List NMState) (h : first.name ≠ name) :
    (reconcileNMState instances { name := name, listing := .ok (first :: rest) }).2 =
      instances.filter fun i => i.name ≠ name := by
  unfold reconcileNMState
  cases hfind : instances.find? fun i => i.name = name with
  | some found => simp [h]
  | none =>
    refine (List.filter_eq_self.mpr fun i hi => ?_).symm
    simpa using List.find?_eq_none.mp hfind i hi

/-! ## Sequences of requests -/

/-- Every listing of the requests still has all instances. -/
def ListsAll (instances : List NMState) (requests : List NMStateRequest) : Prop :=
  ∀ req ∈ requests, ∀ sorted, req.listing = .ok sorted →
    ∃ listing, listing.Perm instances ∧ Sorts listing sorted

/-- A unique oldest instance is never deleted. -/
theorem mem_reconcileNMStates {instances : List NMState} {i : NMState} (hi : i ∈ instances)
    (hlt : ∀ j ∈ instances, j ≠ i → i.creationTimestamp < j.creationTimestamp)
    {requests : List NMStateRequest} (h : ListsAll instances requests) :
    i ∈ reconcileNMStates instances requests := by
  induction requests using List.reverseRecOn with
  | nil => exact hi
  | append_singleton requests req ih =>
    have hlive := ih fun r hr => h r (List.mem_append_left [req] hr)
    rw [reconcileNMStates, List.foldl_append]
    refine mem_reconcileNMState hlive fun first rest hlisting _ => ?_
    obtain ⟨listing, hperm, hsorts⟩ := h req (by simp) _ hlisting
    obtain ⟨rest', heq⟩ := hsorts.head_eq hperm hi hlt
    exact (List.cons.inj heq).1

/-- Requests for all members, each with a listing that another instance heads, leave none. -/
theorem reconcileNMStates_of_ne {live members : List NMState} (first : NMState → NMState)
    (rest : NMState → List NMState) (h : ∀ i ∈ members, (first i).name ≠ i.name) :
    reconcileNMStates live (members.map fun i =>
        { name := i.name, listing := .ok (first i :: rest i) }) =
      live.filter fun i => i.name ∉ members.map NMState.name := by
  induction members generalizing live with
  | nil => simp [reconcileNMStates]
  | cons i members ih =>
    have hrest := @ih (live.filter fun j => j.name ≠ i.name) fun j hj =>
      h j (List.mem_cons_of_mem i hj)
    rw [List.map_cons, reconcileNMStates, List.foldl_cons,
      reconcileNMState_of_ne live (rest i) (h i List.mem_cons_self), ← reconcileNMStates, hrest,
      List.filter_key_cons]
    rfl

/-! ## The survivor -/

/-- **Which instance survives.**  Every sorted listing keeps exactly one instance, of minimal
creation time.  All orders of the listing keep the same one, and no sequence of requests over
listings of all instances deletes them all, exactly when one instance is older than the others. -/
theorem surviving_instance_iff (instances : List NMState) (hne : instances ≠ [])
    (hnames : (instances.map NMState.name).Nodup) :
    (∀ listing sorted, listing.Perm instances → Sorts listing sorted →
      ∃ i, Oldest instances i ∧ ∀ j ∈ instances, Keeps instances sorted j ↔ j = i) ∧
    ((∀ listing₁ listing₂ sorted₁ sorted₂, listing₁.Perm instances → listing₂.Perm instances →
        Sorts listing₁ sorted₁ → Sorts listing₂ sorted₂ →
        ∀ i ∈ instances, Keeps instances sorted₁ i ↔ Keeps instances sorted₂ i) ↔
      UniqueOldest instances) ∧
    ((∀ requests, ListsAll instances requests → reconcileNMStates instances requests ≠ []) ↔
      UniqueOldest instances) := by
  have hkept : ∀ listing sorted, listing.Perm instances → Sorts listing sorted →
      ∃ i, Oldest instances i ∧ ∀ j ∈ instances, Keeps instances sorted j ↔ j = i := by
    intro listing sorted hperm hsorts
    cases sorted with
    | nil => exact absurd (hsorts.perm.trans hperm).symm.eq_nil hne
    | cons first rest =>
      obtain ⟨hfirst, hmin⟩ := hsorts.oldest_head
      have hmem := hperm.mem_iff.mp hfirst
      exact ⟨first, ⟨hmem, fun j hj => hmin j (hperm.mem_iff.mpr hj)⟩,
        fun j hj => keeps_iff hnames hmem hj⟩
  refine ⟨hkept, ⟨?_, ?_⟩, ⟨?_, ?_⟩⟩
  · -- two oldest instances are kept by two orders
    intro hsame
    by_contra hno
    obtain ⟨i, j, hij, hi, hj⟩ := exists_tie hne hno
    obtain ⟨rest₁, hs₁⟩ := exists_sorts_of_oldest hi
    obtain ⟨rest₂, hs₂⟩ := exists_sorts_of_oldest hj
    have hk := (hsame _ _ _ _ (List.Perm.refl _) (List.Perm.refl _) hs₁ hs₂ i hi.1).mp
      ((keeps_iff hnames hi.1 hi.1).mpr rfl)
    exact hij ((keeps_iff hnames hj.1 hi.1).mp hk)
  · rintro ⟨i, hi, hlt⟩ listing₁ listing₂ sorted₁ sorted₂ hp₁ hp₂ hs₁ hs₂ j hj
    obtain ⟨rest₁, rfl⟩ := hs₁.head_eq hp₁ hi hlt
    obtain ⟨rest₂, rfl⟩ := hs₂.head_eq hp₂ hi hlt
    rw [keeps_iff hnames hi hj, keeps_iff hnames hi hj]
  · -- the request of each instance may see the other oldest one first
    intro hsurvive
    by_contra hno
    obtain ⟨i, j, hij, hi, hj⟩ := exists_tie hne hno
    obtain ⟨rest₁, hs₁⟩ := exists_sorts_of_oldest hi
    obtain ⟨rest₂, hs₂⟩ := exists_sorts_of_oldest hj
    let first : NMState → NMState := fun k => if k = i then j else i
    let rest : NMState → List NMState := fun k => if k = i then rest₂ else rest₁
    have hsorts : ∀ k, Sorts instances (first k :: rest k) := by
      intro k
      by_cases hk : k = i
      · simpa [first, rest, hk] using hs₂
      · simpa [first, rest, hk] using hs₁
    refine hsurvive (instances.map fun k =>
      { name := k.name, listing := .ok (first k :: rest k) }) ?_ ?_
    · intro req hreq sorted hlisting
      obtain ⟨k, -, rfl⟩ := List.mem_map.mp hreq
      cases hlisting
      exact ⟨instances, List.Perm.refl _, hsorts k⟩
    · rw [reconcileNMStates_of_ne first rest, List.filter_eq_nil_iff]
      · intro k hk
        simpa using ⟨k, hk, rfl⟩
      · intro k hk hname
        have hmem : first k ∈ instances := (hsorts k).oldest_head.1
        have heq := eq_of_name_eq hnames hmem hk hname
        by_cases hki : k = i
        · exact hij (by simpa [first, hki] using heq.symm)
        · exact hki (by simpa [first, hki] using heq.symm)
  · rintro ⟨i, hi, hlt⟩ requests hlists
    exact List.ne_nil_of_mem (mem_reconcileNMStates hi hlt hlists)

/-- With one instance older, the requests of both leave it. -/
theorem surviving_instance_of_two :
    reconcileNMStates [⟨"nmstate", 10⟩, ⟨"other", 20⟩]
      [{ name := "other", listing := .ok [⟨"nmstate", 10⟩, ⟨"other", 20⟩] },
        { name := "nmstate", listing := .ok [⟨"nmstate", 10⟩, ⟨"other", 20⟩] }] ≠ [] := by
  refine (surviving_instance_iff [⟨"nmstate", 10⟩, ⟨"other", 20⟩] (by decide) (by decide)).2.2.mpr
    ⟨⟨"nmstate", 10⟩, by decide, by decide⟩ _ ?_
  intro req hreq sorted hlisting
  simp only [List.mem_cons, List.not_mem_nil, or_false] at hreq
  rcases hreq with rfl | rfl <;> cases hlisting <;>
    exact ⟨_, List.Perm.refl _, List.Perm.refl _, by decide⟩

/-- Two instances of the same second, listed in two orders that are both sorted: each order keeps
another one, and two requests that see different orders delete both. -/
theorem equally_old_instances_deleted :
    let a : NMState := ⟨"nmstate", 10⟩
    let b : NMState := ⟨"other", 10⟩
    Sorts [a, b] [a, b] ∧ Sorts [b, a] [b, a] ∧
      Keeps [a, b] [a, b] a ∧ Keeps [a, b] [b, a] b ∧
      reconcileNMStates [a, b]
        [{ name := "other", listing := .ok [a, b] },
          { name := "nmstate", listing := .ok [b, a] }] = [] :=
  ⟨⟨List.Perm.refl _, by decide⟩, ⟨List.Perm.refl _, by decide⟩, rfl, rfl, rfl⟩

/-! ## Replicas of the webhook -/

/-- `corev1.TaintEffect`; `none` is the empty string. -/
inductive TaintEffect : Type where
  | none : TaintEffect
  | noSchedule : TaintEffect
  | preferNoSchedule : TaintEffect
  | noExecute : TaintEffect
  deriving DecidableEq, Repr, Inhabited

/-- `corev1.TolerationOperator`; `none` is the empty string. -/
inductive TolerationOperator : Type where
  | none : TolerationOperator
  | exists : TolerationOperator
  | equal : TolerationOperator
  deriving DecidableEq, Repr, Inhabited

/-- `corev1.Taint`. -/
structure Taint where
  key : String
  value : String := ""
  effect : TaintEffect
  deriving DecidableEq, Repr, Inhabited

/-- `corev1.Toleration`.  The operator is not read here. -/
structure Toleration where
  key : String
  operator : TolerationOperator
  value : String := ""
  effect : TaintEffect
  deriving DecidableEq, Repr, Inhabited

/-- A node with its taints. -/
structure TaintedNode where
  name : NodeName
  taints : List Taint
  deriving DecidableEq, Repr, Inhabited

/-- `masterExistsNoScheduleTolerations`, the infra tolerations of an instance that sets none. -/
def masterExistsNoScheduleTolerations : List Toleration :=
  [{ key := "node-role.kubernetes.io/master", operator := .exists, effect := .noSchedule },
    { key := "node-role.kubernetes.io/control-plane", operator := .exists, effect := .noSchedule }]

/-- The test of `webhookReplicaCount` on a taint and a toleration. -/
def tolerates (toleration : Toleration) (nodeTaint : Taint) : Bool :=
  nodeTaint.key = toleration.key ∧ nodeTaint.value = toleration.value ∧
    nodeTaint.effect = toleration.effect

/-- The three nested loops of `webhookReplicaCount`. -/
def countInfraNodes (nodes : List TaintedNode) (tolerations : List Toleration) : ℕ :=
  nodes.foldl (fun infraNodes node =>
    tolerations.foldl (fun infraNodes toleration =>
      node.taints.foldl (fun infraNodes nodeTaint =>
        if tolerates toleration nodeTaint then infraNodes + 1 else infraNodes)
        infraNodes) infraNodes) 0

/-- `webhookReplicaCount` on the answer to the list of the nodes that the infra node selector
selects: the minimum, the desired number and the error. -/
def webhookReplicaCount (nodes : Except Err (List TaintedNode)) (tolerations : List Toleration) :
    ℕ × ℕ × Option Err :=
  match nodes with
  | .error err => (0, 0, some (.other ("failed to get nodes: " ++ err.message)))
  | .ok nodes => if 1 < countInfraNodes nodes tolerations then (1, 2, none) else (0, 1, none)

/-- How many pairs of a toleration and a taint of the node match. -/
def matchCount (tolerations : List Toleration) (node : TaintedNode) : ℕ :=
  (tolerations.product node.taints).countP fun pair => tolerates pair.1 pair.2

/-- Some taint of the node matches a toleration. -/
def isInfraNode (tolerations : List Toleration) (node : TaintedNode) : Bool :=
  node.taints.any fun nodeTaint => tolerations.any fun toleration => tolerates toleration nodeTaint

theorem isInfraNode_iff {tolerations : List Toleration} {node : TaintedNode} :
    isInfraNode tolerations node = true ↔ 0 < matchCount tolerations node := by
  simp only [isInfraNode, matchCount, List.any_eq_true, List.countP_pos_iff, Prod.exists,
    List.pair_mem_product]
  constructor
  · rintro ⟨nodeTaint, htaint, toleration, htol, h⟩
    exact ⟨toleration, nodeTaint, ⟨htol, htaint⟩, h⟩
  · rintro ⟨toleration, nodeTaint, ⟨htol, htaint⟩, h⟩
    exact ⟨nodeTaint, htaint, toleration, htol, h⟩

/-- The loops add up the matches of every node. -/
theorem countInfraNodes_eq (nodes : List TaintedNode) (tolerations : List Toleration) :
    countInfraNodes nodes tolerations = (nodes.map (matchCount tolerations)).sum := by
  have htaints : ∀ (toleration : Toleration) (taints : List Taint) (n : ℕ),
      taints.foldl (fun n nodeTaint => if tolerates toleration nodeTaint then n + 1 else n) n =
        n + taints.countP (tolerates toleration) := by
    intro toleration taints
    induction taints with
    | nil => intro n; rfl
    | cons nodeTaint taints ih =>
      intro n
      rw [List.foldl_cons, ih, List.countP_cons]
      split <;> omega
  have hnode : ∀ (n : ℕ) (node : TaintedNode),
      tolerations.foldl (fun n toleration => node.taints.foldl
        (fun n nodeTaint => if tolerates toleration nodeTaint then n + 1 else n) n) n =
        n + matchCount tolerations node := by
    intro n node
    rw [List.foldl_eq_add_sum (fun n toleration => htaints toleration node.taints n), matchCount,
      List.product, List.countP_flatMap]
    simp only [Function.comp_def, List.countP_map]
  rw [countInfraNodes, List.foldl_eq_add_sum hnode, Nat.zero_add]

/-- **The replicas of the webhook.**  One of the two pairs is returned, and it is the multi-node
pair exactly when two nodes match, unless a single node matches, with two or more of the pairs of
its taints and the tolerations. -/
theorem webhookReplicaCount_iff (nodes : List TaintedNode) (tolerations : List Toleration) :
    (webhookReplicaCount (.ok nodes) tolerations = (1, 2, none) ∨
      webhookReplicaCount (.ok nodes) tolerations = (0, 1, none)) ∧
    ((webhookReplicaCount (.ok nodes) tolerations = (1, 2, none) ↔
        2 ≤ nodes.countP (isInfraNode tolerations)) ↔
      ¬ ∃ node, nodes.filter (isInfraNode tolerations) = [node] ∧
        2 ≤ matchCount tolerations node) := by
  have hresult : webhookReplicaCount (.ok nodes) tolerations =
      if 1 < (nodes.map (matchCount tolerations)).sum then (1, 2, none) else (0, 1, none) := by
    rw [webhookReplicaCount, countInfraNodes_eq]
  have hinfra : isInfraNode tolerations = fun node => decide (0 < matchCount tolerations node) := by
    funext node
    rw [Bool.eq_iff_iff, isInfraNode_iff, decide_eq_true_iff]
  have hle := List.countP_pos_le_sum (matchCount tolerations) nodes
  have hsum := List.sum_map_filter_pos (matchCount tolerations) nodes
  rw [← hinfra] at hle hsum
  constructor
  · rw [hresult]
    split
    · exact Or.inl rfl
    · exact Or.inr rfl
  · have hpair : webhookReplicaCount (.ok nodes) tolerations = (1, 2, none) ↔
        1 < (nodes.map (matchCount tolerations)).sum := by
      rw [hresult]
      split <;> simp_all
    rw [hpair, List.countP_eq_length_filter]
    rw [List.countP_eq_length_filter] at hle
    -- only the matching nodes add to the sum: none, one, or at least two of them
    cases hfilter : nodes.filter (isInfraNode tolerations) with
    | nil =>
      rw [hfilter] at hsum
      simp [← hsum]
    | cons node rest =>
      cases rest with
      | nil =>
        rw [hfilter, List.map_singleton, List.sum_singleton] at hsum
        simp only [← hsum, List.length_singleton, List.cons.injEq, and_true, exists_eq_left']
        omega
      | cons node' rest =>
        rw [hfilter] at hle
        simp only [List.length_cons, List.cons.injEq, reduceCtorEq, and_false, false_and,
          exists_false, not_false_eq_true, iff_true] at hle ⊢
        omega

/-- A cluster of one node that carries both control-plane taints is given the replicas of a
multi-node cluster by the default tolerations. -/
theorem webhookReplicaCount_one_node :
    webhookReplicaCount
        (.ok [⟨"node01", [{ key := "node-role.kubernetes.io/master", effect := .noSchedule },
          { key := "node-role.kubernetes.io/control-plane", effect := .noSchedule }]⟩])
        masterExistsNoScheduleTolerations =
      (1, 2, none) := by
  decide
