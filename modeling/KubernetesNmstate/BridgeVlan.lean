/-
# Default VLAN filtering

`ApplyDefaultVlanFiltering` of `pkg/bridge/bridge.go`: every port of a Linux bridge that is up and
says nothing about VLANs becomes a trunk for all of them.

The source walks over a snapshot of the document and writes each missing `vlan` into the result
through a path of indices.  `withDefaultVlan` says the same as an edit in place; that the loops
compute it is `applyDefaultVlan_eq`, and `default_vlan_exact` adds the conversions from and to
YAML.
-/
import KubernetesNmstate.JsonPath
import KubernetesNmstate.Objects

/-! ## The source -/

/-- `defaultVlanFiltering`: a trunk for the ids from `minVlanID` to `maxVlanID`. -/
def defaultVlanFiltering : Json :=
  .obj [("mode", .str "trunk"), ("trunk-tags", .arr [.obj [("id-range",
    .obj [("max", .num "4094"), ("min", .num "2")])]])]

/-- `isLinuxBridgeUp`. -/
def isLinuxBridgeUp (iface : Json) : Bool :=
  Json.isText (iface.field "type") "linux-bridge" && Json.isText (iface.field "state") "up"

/-- `hasVlanConfiguration`. -/
def hasVlanConfiguration (port : Json) : Bool := (port.field "vlan").isSome

/-- `iface.Get("bridge.port").Array()`. -/
def bridgePorts (iface : Json) : List Json := Json.elements (iface.path ["bridge", "port"])

/-- The inner loop, over the ports of the interface at `ifaceIndex`. -/
def applyToPorts (ifaceIndex : ℕ) (ports : List Json) (result : Json) : Except String Json :=
  ports.zipIdx.foldlM (fun result port =>
    if hasVlanConfiguration port.1 then .ok result
    else Json.set defaultVlanFiltering [.key "interfaces", .index ifaceIndex, .key "bridge",
      .key "port", .index port.2, .key "vlan"] result) result

/-- The loops of `ApplyDefaultVlanFiltering`, on the document as JSON. -/
def applyDefaultVlan (doc : Json) : Except String Json :=
  (Json.elements (doc.field "interfaces")).zipIdx.foldlM (fun result iface =>
    if isLinuxBridgeUp iface.1 then applyToPorts iface.2 (bridgePorts iface.1) result
    else .ok result) doc

/-- `yaml.YAMLToJSON` and `yaml.JSONToYAML`. -/
structure Conversion where
  yamlToJSON : State → Except Err Json
  jsonToYAML : Json → Except Err State

/-- `ApplyDefaultVlanFiltering`. -/
def applyDefaultVlanFiltering (c : Conversion) (desiredState : State) : State × Option Err :=
  match c.yamlToJSON desiredState with
  | .error err =>
    (desiredState, some (.other ("error converting desiredState to JSON: " ++ err.message)))
  | .ok doc =>
    match applyDefaultVlan doc with
    | .error message => (desiredState, some (.other message))
    | .ok result =>
      match c.jsonToYAML result with
      | .error err => (desiredState, some err)
      | .ok resultYaml => (resultYaml, none)

/-! ## The edit -/

/-- What is written as YAML is read back as the same value, and is written in the same way. -/
def Conversion.Keeps (c : Conversion) (doc : Json) : Prop :=
  ∀ text, c.jsonToYAML doc = .ok text →
    ∃ doc', c.yamlToJSON text = .ok doc' ∧ doc.Same doc' ∧ c.jsonToYAML doc' = .ok text
