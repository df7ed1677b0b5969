import KubernetesNmstate.Prog
import KubernetesNmstate.Executions
import KubernetesNmstate.Counting
import KubernetesNmstate.Conditions
import KubernetesNmstate.ConditionMap
import KubernetesNmstate.Objects
import KubernetesNmstate.EnactmentConditions
import KubernetesNmstate.FailureCount
import KubernetesNmstate.Nodes
import KubernetesNmstate.Caps
import KubernetesNmstate.PolicyConditions
import KubernetesNmstate.Verdict
import KubernetesNmstate.Api
import KubernetesNmstate.Reconcile
import KubernetesNmstate.Frames
import KubernetesNmstate.Protocol
import KubernetesNmstate.Conformance
import KubernetesNmstate.System
import KubernetesNmstate.Scenario
import KubernetesNmstate.Lifecycle
import KubernetesNmstate.Views
import KubernetesNmstate.Slots
import KubernetesNmstate.Books
import KubernetesNmstate.MaxUnavailable
import KubernetesNmstate.Conservation
import KubernetesNmstate.Stall
import KubernetesNmstate.TlsProfile
import KubernetesNmstate.Gauges
import KubernetesNmstate.Json
import KubernetesNmstate.JsonPath
import KubernetesNmstate.JsonDecode
import KubernetesNmstate.NetworkState
import KubernetesNmstate.NodeStateMetrics
import KubernetesNmstate.EnactmentMetrics
import KubernetesNmstate.Histories
import KubernetesNmstate.Phases
import KubernetesNmstate.StatePublishing
import KubernetesNmstate.Interference
import KubernetesNmstate.Accounting
import KubernetesNmstate.Audits
import KubernetesNmstate.Retries
import KubernetesNmstate.Operator
import KubernetesNmstate.Probe
import KubernetesNmstate.Probes
import KubernetesNmstate.Transaction
import KubernetesNmstate.ApplyTiming
import KubernetesNmstate.BridgeVlan
import KubernetesNmstate.StateDocument
import KubernetesNmstate.StateFilter
import KubernetesNmstate.RouteMetrics
import KubernetesNmstate.DecodeCrash
import KubernetesNmstate.KeyedStore
import KubernetesNmstate.EnactmentKeys
import KubernetesNmstate.JsonPatch
import KubernetesNmstate.Admission
import KubernetesNmstate.Watching
import KubernetesNmstate.Triggers
import KubernetesNmstate.MetricsFreshness
import KubernetesNmstate.OperatorReconcile
import KubernetesNmstate.OperatorStatus
import KubernetesNmstate.ProfileRollout
