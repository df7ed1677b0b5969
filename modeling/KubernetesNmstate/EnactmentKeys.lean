/-
# The names of the enactments

An enactment is found under the name of its node and the name of its policy, with a dot between
them.  Both names are DNS-1123 subdomains and may hold dots themselves, so one name can be read
in two ways.  The handlers create, update and delete enactments by that name only; whether each
(node, policy) pair has an enactment of its own is a question about the names in the cluster,
and `enactments_isolated_iff` answers it.
-/
import KubernetesNmstate.EnactmentConditions
import KubernetesNmstate.KeyedStore
import Mathlib.Data.Set.Prod

/-! ## Object names -/

/-- `[a-z0-9]`. -/
def isLowerAlphanumeric (c : Char) : Bool := c.isLower || c.isDigit

/-- `dns1123LabelFmt`: `[a-z0-9]([-a-z0-9]*[a-z0-9])?`. -/
def isDNS1123Label (label : List Char) : Bool :=
  label.all (fun c => isLowerAlphanumeric c || c == '-') &&
    label.head?.any isLowerAlphanumeric && label.getLast?.any isLowerAlphanumeric

/-- `IsDNS1123Subdomain`: labels with dots between them, 253 characters at most. -/
def isDNS1123Subdomain (value : String) : Bool :=
  decide (value.toList.length ≤ 253) && (value.toList.splitOn '.').all isDNS1123Label

/-! ## Keys -/

/-- Some node name goes on where another ends, with the beginning of a policy name: `n` and
`n.x` are nodes, `x.p` and `p` are policies, and both pairs are called `n.x.p`. -/
def Overlapping (nodes policies : Set String) : Prop :=
  ∃ n ∈ nodes, ∃ p ∈ policies, ∃ x, n ++ "." ++ x ∈ nodes ∧ x ++ "." ++ p ∈ policies

theorem toList_dotted (s t : String) : (s ++ "." ++ t).toList = s.toList ++ '.' :: t.toList := by
  rw [String.toList_append, String.toList_append, List.append_assoc]
  rfl

/-- Two pairs whose names begin alike: they are one pair, or the first node ends earlier and
the rest of the second begins the first policy. -/
theorem eq_or_overlap_of_append {n₁ n₂ p₁ p₂ : String} {rest : List Char}
    (hn : n₂.toList = n₁.toList ++ rest) (hp : '.' :: p₁.toList = rest ++ '.' :: p₂.toList) :
    (n₁ = n₂ ∧ p₁ = p₂) ∨ ∃ x, n₂ = n₁ ++ "." ++ x ∧ p₁ = x ++ "." ++ p₂ := by
  match rest, hn, hp with
  | [], hn, hp =>
    left
    rw [List.append_nil] at hn
    rw [List.nil_append, List.cons.injEq] at hp
    exact ⟨String.toList_inj.mp hn.symm, String.toList_inj.mp hp.2⟩
  | c :: rest, hn, hp =>
    right
    rw [List.cons_append, List.cons.injEq] at hp
    obtain ⟨rfl, hp⟩ := hp
    refine ⟨String.ofList rest, ?_, ?_⟩
    · apply String.toList_inj.mp
      rw [hn, toList_dotted, String.toList_ofList]
    · apply String.toList_inj.mp
      rw [hp, toList_dotted, String.toList_ofList]

/-- The key of a pair. -/
def ownerKey (owner : String × String) : String := enactmentKey owner.1 owner.2

/-- The keys tell the pairs apart exactly when the names do not overlap. -/
theorem injOn_ownerKey_iff (nodes policies : Set String) :
    Set.InjOn ownerKey (nodes ×ˢ policies) ↔ ¬ Overlapping nodes policies := by
  constructor
  · rintro hinj ⟨n, hn, p, hp, x, hnx, hxp⟩
    have hkey : ownerKey (n, x ++ "." ++ p) = ownerKey (n ++ "." ++ x, p) := by
      simp only [ownerKey, enactmentKey, String.append_assoc]
    have heq := hinj (Set.mk_mem_prod hn hxp) (Set.mk_mem_prod hnx hp) hkey
    -- the second node name is longer
    have hlen := congrArg (fun owner => owner.1.toList.length) heq
    simp only [toList_dotted, List.length_append, List.length_cons] at hlen
    omega
  · rintro hover ⟨n₁, p₁⟩ ⟨hn₁, hp₁⟩ ⟨n₂, p₂⟩ ⟨hn₂, hp₂⟩ hkey
    have hlist : n₁.toList ++ '.' :: p₁.toList = n₂.toList ++ '.' :: p₂.toList := by
      rw [← toList_dotted, ← toList_dotted]
      exact congrArg String.toList hkey
    rw [List.append_eq_append_iff] at hlist
    rcases hlist with ⟨rest, hn, hp⟩ | ⟨rest, hn, hp⟩
    · rcases eq_or_overlap_of_append hn hp with ⟨rfl, rfl⟩ | ⟨x, rfl, rfl⟩
      · rfl
      · exact absurd ⟨n₁, hn₁, p₂, hp₂, x, hn₂, hp₁⟩ hover
    · rcases eq_or_overlap_of_append hn hp with ⟨rfl, rfl⟩ | ⟨x, rfl, rfl⟩
      · rfl
      · exact absurd ⟨n₂, hn₂, p₁, hp₁, x, hn₁, hp₂⟩ hover

/-- Names of one kind without dots cannot overlap with names of the other. -/
theorem not_overlapping_of_no_dot {nodes policies : Set String}
    (h : (∀ n ∈ nodes, '.' ∉ n.toList) ∨ ∀ p ∈ policies, '.' ∉ p.toList) :
    ¬ Overlapping nodes policies := by
  have hdot : ∀ s t : String, '.' ∈ (s ++ "." ++ t).toList := by
    intro s t
    rw [toList_dotted]
    exact List.mem_append_right _ List.mem_cons_self
  rintro ⟨n, -, p, -, x, hnx, hxp⟩
  rcases h with h | h
  · exact h _ hnx (hdot n x)
  · exact h _ hxp (hdot x p)

/-! ## The handlers over the enactments -/

/-- An enactment in the API server: the labels `NewEnactment` gives it, and its status. -/
structure StoredEnactment where
  nodeLabel : String
  policyLabel : String
  status : EnactmentStatus
  deriving DecidableEq, Repr, Inhabited

/-- `NewEnactment`. -/
def newEnactment (now : Time) (node policy : String) : StoredEnactment where
  nodeLabel := node
  policyLabel := policy
  status := newEnactmentStatus now

/-- What the handler of a node does with the enactment of a policy. -/
inductive EnactmentWrite : Type where
  | initializeEnactment (now : Time) : EnactmentWrite
  | updateStatus (statusSetter : EnactmentStatus → EnactmentStatus) : EnactmentWrite
  | deleteEnactmentForPolicy : EnactmentWrite

/-- The object under the key, before and after. -/
def EnactmentWrite.effect (owner : String × String) :
    EnactmentWrite → Option StoredEnactment → Option StoredEnactment
  -- what is already there is taken as it is, whoever created it
  | initializeEnactment _, some stored => some stored
  | initializeEnactment now, none => some (newEnactment now owner.1 owner.2)
  | updateStatus statusSetter, stored =>
    stored.map fun e => { e with status := statusSetter e.status }
  | deleteEnactmentForPolicy, _ => none

/-- The enactments of the cluster after the handlers' writes, the oldest first. -/
def runWrites (store : String → Option StoredEnactment)
    (ws : List ((String × String) × EnactmentWrite)) : String → Option StoredEnactment :=
  KeyedStore.run ownerKey EnactmentWrite.effect store ws

/-- Each pair finds under its key what its own writes put there, whatever the others write. -/
def EnactmentsIsolated (nodes policies : Set String) : Prop :=
  ∀ (store : String → Option StoredEnactment) (ws : List ((String × String) × EnactmentWrite)),
    (∀ w ∈ ws, w.1 ∈ nodes ×ˢ policies) → ∀ n ∈ nodes, ∀ p ∈ policies,
      runWrites store ws (enactmentKey n p) =
        runWrites store (ws.filter fun w => w.1 = (n, p)) (enactmentKey n p)

/-- A deletion is seen by whoever reads the key. -/
theorem exists_effect_ne (owner : String × String) :
    ∃ (w : EnactmentWrite) (stored : Option StoredEnactment), w.effect owner stored ≠ stored :=
  ⟨.deleteEnactmentForPolicy, some default, fun h => nomatch h⟩

theorem enactmentsIsolated_iff_injOn (nodes policies : Set String) :
    EnactmentsIsolated nodes policies ↔ Set.InjOn ownerKey (nodes ×ˢ policies) := by
  rw [← KeyedStore.isolated_iff_injOn ownerKey EnactmentWrite.effect exists_effect_ne]
  constructor
  · intro h store ws hws owner howner
    exact h store ws hws owner.1 howner.1 owner.2 howner.2
  · intro h store ws hws n hn p hp
    exact h store ws hws (n, p) (Set.mk_mem_prod hn hp)

/-- **Owners of enactments.**  The keys of the (node, policy) pairs of a cluster are distinct,
and no handler touches another pair's enactment, exactly when the names do not overlap. -/
theorem enactments_isolated_iff (nodes policies : Set String) :
    ((∀ n₁ ∈ nodes, ∀ p₁ ∈ policies, ∀ n₂ ∈ nodes, ∀ p₂ ∈ policies,
        enactmentKey n₁ p₁ = enactmentKey n₂ p₂ → n₁ = n₂ ∧ p₁ = p₂) ∧
      EnactmentsIsolated nodes policies) ↔ ¬ Overlapping nodes policies := by
  have hinj : (∀ n₁ ∈ nodes, ∀ p₁ ∈ policies, ∀ n₂ ∈ nodes, ∀ p₂ ∈ policies,
      enactmentKey n₁ p₁ = enactmentKey n₂ p₂ → n₁ = n₂ ∧ p₁ = p₂) ↔
      Set.InjOn ownerKey (nodes ×ˢ policies) := by
    constructor
    · rintro h ⟨n₁, p₁⟩ ⟨hn₁, hp₁⟩ ⟨n₂, p₂⟩ ⟨hn₂, hp₂⟩ hkey
      rw [Prod.mk.injEq]
      exact h n₁ hn₁ p₁ hp₁ n₂ hn₂ p₂ hp₂ hkey
    · intro h n₁ hn₁ p₁ hp₁ n₂ hn₂ p₂ hp₂ hkey
      rw [← Prod.mk.injEq]
      exact h (Set.mk_mem_prod hn₁ hp₁) (Set.mk_mem_prod hn₂ hp₂) hkey
  rw [hinj, enactmentsIsolated_iff_injOn, and_self, injOn_ownerKey_iff]

/-- Two nodes and two policies with valid names and one enactment: the handler of
`worker.example` deletes the one that the handler of `worker` created. -/
theorem enactments_not_isolated :
    isDNS1123Subdomain "worker" = true ∧ isDNS1123Subdomain "worker.example" = true ∧
    isDNS1123Subdomain "example.bond0" = true ∧ isDNS1123Subdomain "bond0" = true ∧
    enactmentKey "worker" "example.bond0" = enactmentKey "worker.example" "bond0" ∧
    ("worker", "example.bond0") ≠ ("worker.example", "bond0") ∧
    runWrites (fun _ => none) [(("worker", "example.bond0"), .initializeEnactment 0)]
      (enactmentKey "worker" "example.bond0") = some (newEnactment 0 "worker" "example.bond0") ∧
    runWrites (fun _ => none) [(("worker", "example.bond0"), .initializeEnactment 0),
      (("worker.example", "bond0"), .deleteEnactmentForPolicy)]
      (enactmentKey "worker" "example.bond0") = none := by
  refine ⟨by decide, by decide, by decide, by decide, by decide, by decide, ?_, ?_⟩
  · decide
  · decide
