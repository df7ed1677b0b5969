/-
# Nodes and the `maxUnavailable` cap

The pure parts of `pkg/node/nodes.go` and `pkg/selectors/labels.go`: which nodes run
the handler, which of them are Ready, which labels of a selector a node misses, and
how many nodes a `maxUnavailable` value allows.

`intstr.GetScaledValueFromIntOrPercent` computes `⌈percent * total / 100⌉` in floating
point; the model computes it exactly.
-/
import KubernetesNmstate.Objects

/-! ## Selecting nodes -/

/-- `unmatchingLabels`: the selector entries that are missing from the labels. -/
def unmatchingLabels (nodeSelector labels : Labels) : Labels :=
  nodeSelector.filter fun entry => labels.lookup entry.1 ≠ some entry.2

/-- `client.MatchingLabels`. -/
def matchesLabels (nodeSelector labels : Labels) : Bool :=
  (unmatchingLabels nodeSelector labels).isEmpty

/-- The loop of `NodesRunningNmstate`: keep the nodes that have a handler pod. -/
def nodesWithPods (nodes : List Node) (pods : List Pod) : List Node :=
  nodes.filter fun node => pods.any fun pod => node.name = pod.nodeName

/-- `isReady`: the first Ready condition decides. -/
def isReady (node : Node) : Bool :=
  match node.conditions.find? (fun c => c.type = .ready) with
  | some c => c.status = .isTrue
  | none => false

/-- `FilterReady`. -/
def filterReady (nodes : List Node) : List Node := nodes.filter isReady

/-! ## Numbers in strings -/

/-- The value of a non-empty string of decimal digits. -/
def digitsValue (digits : List Char) : Option ℤ :=
  if digits ≠ [] ∧ digits.all Char.isDigit then
    some (digits.foldl (fun acc c => acc * 10 + (c.toNat - '0'.toNat : ℕ)) 0)
  else none

/-- `strconv.Atoi`: an optional sign and decimal digits, in the range of a 64-bit `int`. -/
def atoi (s : String) : Option ℤ :=
  let value :=
    match s.toList with
    | '+' :: digits => digitsValue digits
    | '-' :: digits => (digitsValue digits).map fun v => -v
    | digits => digitsValue digits
  value.filter fun v => decide (-9223372036854775808 ≤ v ∧ v ≤ 9223372036854775807)

/-- `int32(v)`: truncation to 32 bits. -/
def toInt32 (v : ℤ) : ℤ := (v + 2147483648) % 4294967296 - 2147483648

/-- `strings.HasSuffix(s, "%")` with `strings.TrimSuffix`: the text before a final `%`. -/
def percentPrefix (s : String) : Option String :=
  match s.toList.reverse with
  | '%' :: rest => some (String.ofList rest.reverse)
  | _ => none

/-! ## The cap -/

/-- `DefaultMaxunavailable`. -/
def defaultMaxUnavailable : IntOrString := .string "50%"

/-- `MinMaxunavailable`. -/
def minMaxUnavailable : ℤ := 1

/-- `IntOrString.String`. -/
def IntOrString.text : IntOrString → String
  | .int intVal => toString intVal
  | .string strVal => strVal

/-- `intstr.GetScaledValueFromIntOrPercent`, rounding up. -/
def getScaledValueFromIntOrPercent (intOrPercent : IntOrString) (total : ℕ) : Except Err ℤ :=
  match intOrPercent with
  | .int intVal => .ok intVal
  | .string strVal =>
    match percentPrefix strVal with
    | none => .error (.other "invalid value for IntOrString: string is not a percentage")
    | some digits =>
      match atoi digits with
      | none => .error (.other "invalid value for IntOrString: not a number")
      | some value => .ok ((value * total + 99) / 100)

/-- `scaledDefaultMaxUnavailableNodeCount`. -/
def scaledDefaultMaxUnavailableNodeCount (matchingNodes : ℕ) : ℤ :=
  match getScaledValueFromIntOrPercent defaultMaxUnavailable matchingNodes with
  | .ok value => value
  | .error _ => 0

/-- The tail of `ScaledMaxUnavailableNodeCount`, after a bare number in a string has
been turned into an int. -/
def scaledIntOrPercentNodeCount (matchingNodes : ℕ) (intOrPercent : IntOrString) :
    ℤ × Option Err :=
  match getScaledValueFromIntOrPercent intOrPercent matchingNodes with
  | .error err => (scaledDefaultMaxUnavailableNodeCount matchingNodes, some err)
  | .ok maxUnavailable =>
    if 0 < matchingNodes ∧ maxUnavailable < minMaxUnavailable then
      (maxUnavailable, some (.invalidMaxUnavailable intOrPercent.text))
    else (maxUnavailable, none)

/-- `ScaledMaxUnavailableNodeCount`. -/
def scaledMaxUnavailableNodeCount (matchingNodes : ℕ) (intOrPercent : IntOrString) :
    ℤ × Option Err :=
  match intOrPercent with
  | .int _ => scaledIntOrPercentNodeCount matchingNodes intOrPercent
  | .string strVal =>
    match percentPrefix strVal with
    | some _ => scaledIntOrPercentNodeCount matchingNodes intOrPercent
    | none =>
      match atoi strVal with
      | none => (scaledDefaultMaxUnavailableNodeCount matchingNodes,
          some (.invalidMaxUnavailable intOrPercent.text))
      | some v => scaledIntOrPercentNodeCount matchingNodes (.int (toInt32 v))

/-- `MaxUnavailableNodeCount` once the enactments of the policy have been counted. -/
def maxUnavailableFor (enactmentsTotal : ℕ) (spec : PolicySpec) : ℤ × Option Err :=
  scaledMaxUnavailableNodeCount enactmentsTotal (spec.maxUnavailable.getD defaultMaxUnavailable)

example : scaledMaxUnavailableNodeCount 5 (.string "50%") = (3, none) := by decide
