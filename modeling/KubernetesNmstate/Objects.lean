/-
# The API objects

The data the handlers read and write: the policy (`api/v1`,
`api/shared/nodenetworkconfigurationpolicy_types.go`), the status of one node's
enactment (`api/shared/nodenetworkconfigurationenactment_types.go`), and what
the handlers look at of nodes and pods.

The Go maps keyed by `strconv.FormatInt(generation, 10)` are `CountMap`s keyed by
the generation itself.  Fields no modelled function reads (`desiredStateMetaInfo`,
the deprecated `unavailableNodeCount`) are left out.
-/
import Mathlib.Data.Int.Notation
import KubernetesNmstate.Conditions

/-! ## Counters per generation -/

/-- A policy generation. -/
abbrev Generation : Type := ℕ

/-- A Go `map[string]int` keyed by generation; the nil map and the empty map are
both `[]`, as they are once stored. -/
abbrev CountMap : Type := List (Generation × ℤ)

namespace CountMap

/-- `m[key]`: zero when the key is missing. -/
def get (m : CountMap) (key : Generation) : ℤ :=
  match m with
  | [] => 0
  | (k, v) :: rest => if k = key then v else get rest key

/-- `m[key] = value`. -/
def put (m : CountMap) (key : Generation) (value : ℤ) : CountMap :=
  match m with
  | [] => [(key, value)]
  | (k, v) :: rest => if k = key then (key, value) :: rest else (k, v) :: put rest key value

@[simp] theorem get_put_self (m : CountMap) (key : Generation) (value : ℤ) :
    (m.put key value).get key = value := by
  induction m with
  | nil => simp [put, get]
  | cons p rest ih =>
    obtain ⟨k, v⟩ := p
    by_cases h : k = key
    · simp [put, get, h]
    · simpa [put, get, h] using ih

theorem get_put_of_ne (m : CountMap) {key key' : Generation} (value : ℤ) (h : key' ≠ key) :
    (m.put key value).get key' = m.get key' := by
  induction m with
  | nil => simp [put, get, h.symm]
  | cons p rest ih =>
    obtain ⟨k, v⟩ := p
    by_cases hk : k = key
    · simp [put, get, hk, h.symm]
    · by_cases hk' : k = key'
      · simp [put, get, hk', h]
      · simpa [put, get, hk, hk'] using ih

theorem put_ne_nil (m : CountMap) (key : Generation) (value : ℤ) : m.put key value ≠ [] := by
  unfold put
  split
  · exact List.cons_ne_nil _ _
  · split <;> exact List.cons_ne_nil _ _

/-- The map has the key. -/
def has (m : CountMap) (key : Generation) : Bool := m.any fun entry => entry.1 = key

/-- Decoding the stored map `data` into the map `m` of an object that is already there: the
entries of `data` replace those of `m`, and the others of `m` stay. -/
def decodeInto (m data : CountMap) : CountMap := data ++ m.filter fun entry => !data.has entry.1

@[simp] theorem has_put_self (m : CountMap) (key : Generation) (value : ℤ) :
    (m.put key value).has key = true := by
  induction m with
  | nil => simp [put, has]
  | cons p rest ih =>
    obtain ⟨k, v⟩ := p
    by_cases h : k = key
    · simp [put, has, h]
    · simp only [put, if_neg h]
      exact (Bool.or_eq_true _ _).mpr (Or.inr ih)

theorem get_eq_zero (m : CountMap) {key : Generation} (h : m.has key = false) :
    m.get key = 0 := by
  induction m with
  | nil => rfl
  | cons p rest ih =>
    obtain ⟨k, v⟩ := p
    obtain ⟨hk, hrest⟩ := (Bool.or_eq_false_iff).mp h
    rw [get, if_neg (of_decide_eq_false hk)]
    exact ih hrest

theorem get_append (m m' : CountMap) (key : Generation) :
    get (m ++ m') key = if m.has key = true then m.get key else m'.get key := by
  induction m with
  | nil => rfl
  | cons p rest ih =>
    obtain ⟨k, v⟩ := p
    by_cases h : k = key
    · simp [get, has, h]
    · have hcons : has ((k, v) :: rest) key = has rest key := by simp [has, h]
      simp only [List.cons_append, get, if_neg h, hcons]
      exact ih

theorem get_decodeInto (m data : CountMap) (key : Generation) :
    (decodeInto m data).get key = if data.has key = true then data.get key else m.get key := by
  unfold decodeInto
  rw [get_append]
  split
  · rfl
  · rename_i hnot
    induction m with
    | nil => rfl
    | cons p rest ih =>
      obtain ⟨k, v⟩ := p
      by_cases h : k = key
      · subst h
        simp [get, hnot]
      · cases hk : data.has k <;> simp [get, h, hk, ih]

end CountMap

/-! ## Enactments -/

/-- A network state in the text form `nmstatectl` reads and writes. -/
abbrev State : Type := String

/-- The captured states of an enactment, by capture name. -/
abbrev CapturedStates : Type := List (String × State)

/-- `NodeNetworkConfigurationEnactmentStatus`. -/
structure EnactmentStatus where
  desiredState : State := ""
  capturedStates : CapturedStates := []
  policyGeneration : Generation := 0
  conditions : ConditionList := []
  features : List String := []
  retryCount : CountMap := []
  deriving DecidableEq, Repr, Inhabited

/-- Node names. -/
abbrev NodeName : Type := String

/-- An enactment of the policy: the node it is for (its node label) and its status. -/
structure Enactment where
  node : NodeName
  status : EnactmentStatus
  deriving DecidableEq, Repr, Inhabited

/-- `types.NamespacedName` of an enactment, `shared.EnactmentKey`. -/
def enactmentKey (node policy : String) : String := node ++ "." ++ policy

/-! ## Policies -/

/-- `intstr.IntOrString`. -/
inductive IntOrString : Type where
  | int (intVal : ℤ) : IntOrString
  | string (strVal : String) : IntOrString
  deriving DecidableEq, Repr, Inhabited

/-- A label set or a selector. -/
abbrev Labels : Type := List (String × String)

/-- `NodeNetworkConfigurationPolicySpec`. -/
structure PolicySpec where
  nodeSelector : Labels := []
  capture : Option (List (String × String)) := none
  desiredState : State := ""
  maxUnavailable : Option IntOrString := none
  deriving DecidableEq, Repr, Inhabited

/-- `NodeNetworkConfigurationPolicyStatus`. -/
structure PolicyStatus where
  conditions : ConditionList := []
  unavailableNodeCountMap : CountMap := []
  lastUnavailableNodeCountUpdate : Option Time := none
  deriving DecidableEq, Repr, Inhabited

/-- A `NodeNetworkConfigurationPolicy` as stored by the API server: the server
bumps `generation` on every change of the spec and `resourceVersion` on every
write. -/
structure Policy where
  name : String
  generation : Generation
  resourceVersion : ℕ
  spec : PolicySpec
  status : PolicyStatus
  deriving DecidableEq, Repr, Inhabited

/-- `policy.Status.UnavailableNodeCountMap[key]`. -/
def Policy.count (p : Policy) (key : Generation) : ℤ := p.status.unavailableNodeCountMap.get key

/-- Overwrite one entry of the counter and stamp `LastUnavailableNodeCountUpdate`, as
the claim, the release and the audit all do. -/
def Policy.stampCount (p : Policy) (key : Generation) (value : ℤ) (now : Time) : Policy :=
  { p with
    status := { p.status with
      unavailableNodeCountMap := p.status.unavailableNodeCountMap.put key value
      lastUnavailableNodeCountUpdate := some now } }

@[simp] theorem Policy.count_stampCount (p : Policy) (key : Generation) (value : ℤ) (now : Time) :
    (p.stampCount key value now).count key = value := by
  simp [Policy.count, Policy.stampCount]

theorem Policy.count_stampCount_of_ne (p : Policy) {key key' : Generation} (value : ℤ) (now : Time)
    (h : key' ≠ key) : (p.stampCount key value now).count key' = p.count key' :=
  CountMap.get_put_of_ne _ _ h

/-- The policy with other counters. -/
def Policy.withCounts (p : Policy) (counts : CountMap) : Policy :=
  { p with status := { p.status with unavailableNodeCountMap := counts } }

/-- `p` is `q` but for the counters. -/
def Policy.Resembles (p q : Policy) : Prop := p = q.withCounts p.status.unavailableNodeCountMap

namespace Policy.Resembles

variable {p q : Policy}

theorem refl (p : Policy) : p.Resembles p := rfl

theorem of_withCounts (p : Policy) (counts : CountMap) : (p.withCounts counts).Resembles p := rfl

theorem resourceVersion_eq (h : p.Resembles q) : p.resourceVersion = q.resourceVersion := by
  rw [h]
  rfl

theorem generation_eq (h : p.Resembles q) : p.generation = q.generation := by
  rw [h]
  rfl

theorem spec_eq (h : p.Resembles q) : p.spec = q.spec := by
  rw [h]
  rfl

theorem lastUpdate_eq (h : p.Resembles q) : p.status.lastUnavailableNodeCountUpdate =
    q.status.lastUnavailableNodeCountUpdate := by
  rw [h]
  rfl

end Policy.Resembles

/-- `p` is `q`, or a version of the policy committed before `q`. -/
def Policy.Precedes (p q : Policy) : Prop := p = q ∨ p.resourceVersion < q.resourceVersion

namespace Policy.Precedes

variable {p q r : Policy}

theorem refl (p : Policy) : p.Precedes p := .inl rfl

theorem trans (h : p.Precedes q) (h' : q.Precedes r) : p.Precedes r := by
  rcases h with rfl | h
  · exact h'
  · rcases h' with rfl | h'
    · exact .inr h
    · exact .inr (Nat.lt_trans h h')

/-- A version with the newest `resourceVersion` is the newest. -/
theorem eq_of_resourceVersion (h : p.Precedes q) (hrv : p.resourceVersion = q.resourceVersion) :
    p = q := by
  rcases h with h | h
  · exact h
  · omega

end Policy.Precedes

/-! ## Nodes and pods -/

/-- The types of node conditions the handlers tell apart. -/
inductive NodeConditionType : Type where
  | ready : NodeConditionType
  | other (name : String) : NodeConditionType
  deriving DecidableEq, Repr, Inhabited

/-- `corev1.NodeCondition`. -/
structure NodeCondition where
  type : NodeConditionType
  status : ConditionStatus
  deriving DecidableEq, Repr, Inhabited

/-- A `corev1.Node`. -/
structure Node where
  name : NodeName
  labels : Labels := []
  conditions : List NodeCondition := []
  deriving DecidableEq, Repr, Inhabited

/-- A handler pod, known by the node it runs on. -/
structure Pod where
  nodeName : NodeName
  deriving DecidableEq, Repr, Inhabited

/-! ## Errors -/

/-- The errors the handlers tell apart.  `other` carries the text of every other
error; wrapping an error does not change which of these it is. -/
inductive Err : Type where
  | notFound : Err
  | conflict : Err
  | maxUnavailableLimitReached : Err
  | invalidMaxUnavailable (value : String) : Err
  | other (message : String) : Err
  deriving DecidableEq, Repr, Inhabited

/-- `Error()` of an error, as far as it ends up in a stored condition. -/
def Err.message : Err → String
  | .notFound => "not found"
  | .conflict => "conflict"
  | .maxUnavailableLimitReached =>
    "maximal number of nodes are already processing policy configuration"
  | .invalidMaxUnavailable value =>
    "maxUnavailable must be a positive integer or a percentage between 1% and 100%, got \"" ++
      value ++ "\""
  | .other message => message

/-- `errors.Wrap`, and `fmt.Errorf` around an error. -/
def Err.wrap (err : Err) (message : String) : Err := .other (message ++ ": " ++ err.message)

/-- `errors.As(err, &node.InvalidMaxUnavailableError{})`. -/
def Err.isInvalidMaxUnavailable : Err → Bool
  | .invalidMaxUnavailable _ => true
  | _ => false
