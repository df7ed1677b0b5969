/-
# Connectivity probes

`pkg/probe/probes.go`: what a handler checks before and after it reconfigures its node.  `Select`
polls the external probes, ping and DNS, and keeps those that pass; the probes of the API server
and of the readiness of the node are always kept.  `Run` polls the selected probes one after the
other and stops at the first that fails.

Every probe is polled once a second until it passes, fails with an error, or its time is up
(`wait.PollUntilContextTimeout`).  `select_polled` and `run_polled` describe the calls of `Select`
and `Run` as a sequence of polls.
-/
import KubernetesNmstate.Executions
import KubernetesNmstate.Probe

variable {IP : Type}

/-! ## Calls -/

/-- The calls of the probes and of `ApplyDesiredState`: commands on the node, requests to the API
server, and the clock.  A request carries the deadline of its context, and `tick` waits for the
next attempt of a poll or for its deadline. -/
inductive HostOp (IP : Type) : Type where
  | nmstatectlShow : HostOp IP
  | nmstatectlSet (desired : State) (timeout : Time) : HostOp IP
  | nmstatectlCommit : HostOp IP
  | nmstatectlRollback : HostOp IP
  | ping (target : Route IP) : HostOp IP
  | lookupNS (server host : String) (timeout : Time) : HostOp IP
  | lookupHost (server host : String) (timeout : Time) : HostOp IP
  | getConfig : HostOp IP
  | newClient : HostOp IP
  | getDefaultNamespace (deadline : Time) : HostOp IP
  | getNode (name : NodeName) (deadline : Time) : HostOp IP
  | now : HostOp IP
  | tick (deadline : Time) : HostOp IP

/-- The answer to each call; that of `tick` is whether the deadline has passed. -/
@[reducible] def HostOp.Resp : HostOp IP → Type
  | nmstatectlShow => Except Err State
  | nmstatectlSet _ _ => Except Err String
  | nmstatectlCommit => Except Err String
  | nmstatectlRollback => Except Err Unit
  | ping _ => Except Err String
  | lookupNS _ _ _ => Except Err Unit
  | lookupHost _ _ _ => Except Err Unit
  | getConfig => Except Err Unit
  | newClient => Except Err Unit
  | getDefaultNamespace _ => Except Err Unit
  | getNode _ _ => Except Err Node
  | now => Time
  | tick _ => Bool

/-- The interface of the node. -/
abbrev HostApi (IP : Type) : Sig := ⟨HostOp IP, HostOp.Resp⟩

/-- A procedure on the node. -/
abbrev HostProc (IP α : Type) : Type := Prog (HostApi IP) α

/-- Issue one call. -/
def askHost (o : HostOp IP) : HostProc IP o.Resp := Prog.perform (S := HostApi IP) o

/-- What the probes take from libraries and from the environment: the parser of addresses, the
text of a JSON value, the conversion from YAML, `PROBE_DNS_HOST` and `NODE_NAME`. -/
structure ProbeConfig (IP : Type) where
  parseIP : String → Option IP
  raw : Json → String
  yamlToGJson : State → Except Err Json
  dnsTarget : String
  nodeName : NodeName

/-! ## Conditions -/

section Conditions

variable (cfg : ProbeConfig IP)

/-- `currentStateAsGJson`. -/
def currentStateAsGJson : HostProc IP (Except Err Json) := do
  match ← askHost .nmstatectlShow with
  | .error err => return .error (err.wrap "failed retrieving current state")
  | .ok observedStateRaw =>
    match cfg.yamlToGJson observedStateRaw with
    | .error err => return .error (err.wrap "failed to convert the current state to GJson")
    | .ok res => return .ok res

/-- `runPing`. -/
def runPing : HostProc IP (Except Err Bool) := do
  match ← currentStateAsGJson cfg with
  | .error err =>
    return .error (err.wrap "failed retrieving current state to retrieve default gw")
  | .ok currentState =>
    match defaultGw cfg.parseIP cfg.raw currentState with
    | .error _ => return .ok false
    | .ok gw =>
      match ← askHost (.ping gw) with
      | .error _ => return .ok false
      | .ok _ => return .ok true

/-- The name servers that `runDNS` asks. -/
def runningNameServers (currentState : Json) : List String :=
  (Json.elements (Json.path ["dns-resolver", "running", "server"] currentState)).map
    fun server => Json.text cfg.raw (some server)

/-- The lookup of `runDNS` at one server. -/
def lookup (server : String) (timeout : Time) : HostProc IP (Except Err Unit) :=
  if cfg.dnsTarget = "root-servers.net" then askHost (.lookupNS server cfg.dnsTarget timeout)
  else askHost (.lookupHost server cfg.dnsTarget timeout)

/-- The loop of `runDNS`: the first server that answers decides. -/
def lookupAny (timeout : Time) : List String → HostProc IP Bool
  | [] => return false
  | server :: servers => do
    match ← lookup cfg server timeout with
    | .ok () => return true
    | .error _ => lookupAny timeout servers

/-- `runDNS`. -/
def runDNS (timeout : Time) : HostProc IP (Except Err Bool) := do
  match ← currentStateAsGJson cfg with
  | .error err =>
    return .error (err.wrap "failed retrieving current state to get name resolving config")
  | .ok currentState =>
    if runningNameServers cfg currentState = [] then return .ok false
    else return .ok (← lookupAny cfg timeout (runningNameServers cfg currentState))

/-- `checkAPIServerConnectivity`. -/
def checkAPIServerConnectivity (deadline : Time) : HostProc IP (Except Err Bool) := do
  match ← askHost .getConfig with
  | .error err => return .error (err.wrap "getting config")
  | .ok () =>
    match ← askHost .newClient with
    | .error _ => return .ok false
    | .ok () =>
      match ← askHost (.getDefaultNamespace deadline) with
      | .error _ => return .ok false
      | .ok () => return .ok true

/-- `checkNodeReadiness`. -/
def checkNodeReadiness (deadline : Time) : HostProc IP (Except Err Bool) := do
  match ← askHost (.getNode cfg.nodeName deadline) with
  | .error err => return .error (err.wrap ("failed retrieving pod's node " ++ cfg.nodeName))
  | .ok node =>
    return .ok (node.conditions.any fun c => c.type = .ready ∧ c.status = .isTrue)

end Conditions

/-! ## Polling -/

/-- `Probe`; the condition is given the timeout of the probe and the deadline of its poll. -/
structure Probe (IP : Type) where
  name : String
  timeout : Time
  condition : Time → Time → HostProc IP (Except Err Bool)

/-- `context.DeadlineExceeded`. -/
def deadlineExceeded : Err := .other "context deadline exceeded"

/-- `wait.PollUntilContextTimeout` with an interval of one second and an immediate first attempt.
An attempt starts no sooner than its number of seconds after the first and before the deadline,
so there are at most `timeout` of them. -/
def pollUntilContextTimeout (timeout : Time) (condition : Time → HostProc IP (Except Err Bool)) :
    HostProc IP (Except Err Unit) := do
  let start ← askHost .now
  Prog.poll (condition (start + timeout)) (askHost (.tick (start + timeout))) deadlineExceeded
    (timeout - 1)

/-- The poll of a probe. -/
def Probe.poll (p : Probe IP) : HostProc IP (Except Err Unit) :=
  pollUntilContextTimeout p.timeout (p.condition p.timeout)

section Select

variable (cfg : ProbeConfig IP)

def pingProbe : Probe IP := ⟨"ping", defaultGwProbeTimeout, fun _ _ => runPing cfg⟩

def dnsProbe : Probe IP := ⟨"dns", defaultDNSProbeTimeout, fun timeout _ => runDNS cfg timeout⟩

def apiServerProbe : Probe IP :=
  ⟨"api-server", apiServerProbeTimeout, fun _ deadline => checkAPIServerConnectivity deadline⟩

def nodeReadinessProbe : Probe IP :=
  ⟨"node-readiness", nodeReadinessProbeTimeout, fun _ deadline => checkNodeReadiness cfg deadline⟩

/-- `externalConnectivityProbes`. -/
def externalConnectivityProbes : List (Probe IP) := [pingProbe cfg, dnsProbe cfg]

/-- The probes that `Select` always appends. -/
def internalConnectivityProbes : List (Probe IP) := [apiServerProbe, nodeReadinessProbe cfg]

/-- The loop of `Select`: keep the probes that pass. -/
def selectWorking : List (Probe IP) → HostProc IP (List (Probe IP))
  | [] => return []
  | p :: ps => do
    match ← p.poll with
    | .ok () => return p :: (← selectWorking ps)
    | .error _ => selectWorking ps

/-- `Select`. -/
def selectProbes : HostProc IP (List (Probe IP)) := do
  return (← selectWorking (externalConnectivityProbes cfg)) ++ internalConnectivityProbes cfg

end Select

/-- The loop of `Run`: the first probe that fails ends it. -/
def runEach (currentState : State) : List (Probe IP) → HostProc IP (Except Err Unit)
  | [] => return .ok ()
  | p :: ps => do
    match ← p.poll with
    | .error err =>
      return .error (err.wrap ("failed runnig probe '" ++ p.name ++
        "' with after network reconfiguration -> currentState: " ++ currentState))
    | .ok () => runEach currentState ps

/-- `Run`. -/
def runProbes (probes : List (Probe IP)) : HostProc IP (Except Err Unit) := do
  match ← askHost .nmstatectlShow with
  | .error err => return .error (err.wrap "failed to retrieve currentState at runProbes")
  | .ok currentState => runEach currentState probes

/-! ## The calls of the probes -/

/-- A call that leaves the network configuration of the node alone. -/
def HostOp.isReading : HostOp IP → Bool
  | nmstatectlSet _ _ => false
  | nmstatectlCommit => false
  | nmstatectlRollback => false
  | _ => true

/-- The program makes calls that leave the configuration alone, and no other. -/
abbrev Reads {α : Type} (p : HostProc IP α) : Prop := p.Only fun o : HostOp IP => o.isReading = true

section Reads

variable {cfg : ProbeConfig IP}

theorem reads_ask {o : HostOp IP} (ho : o.isReading = true) : Reads (askHost o) :=
  Prog.Only.perform ho

theorem reads_currentStateAsGJson : Reads (currentStateAsGJson cfg) := by
  refine (reads_ask rfl).bind fun r => ?_
  rcases r with err | raw
  · trivial
  · dsimp only
    split <;> trivial

theorem reads_runPing : Reads (runPing cfg) := by
  refine reads_currentStateAsGJson.bind fun r => ?_
  rcases r with err | currentState
  · trivial
  · dsimp only
    split
    · trivial
    · refine (reads_ask rfl).bind fun r => ?_
      rcases r with err | output <;> trivial

theorem reads_lookup (server : String) (timeout : Time) : Reads (lookup cfg server timeout) := by
  unfold lookup
  split
  · exact reads_ask rfl
  · exact reads_ask rfl

theorem reads_lookupAny (timeout : Time) (servers : List String) :
    Reads (lookupAny cfg timeout servers) := by
  induction servers with
  | nil => trivial
  | cons server servers ih =>
    refine (reads_lookup server timeout).bind fun r => ?_
    rcases r with err | ⟨⟩
    · exact ih
    · trivial

theorem reads_runDNS (timeout : Time) : Reads (runDNS cfg timeout) := by
  refine reads_currentStateAsGJson.bind fun r => ?_
  rcases r with err | currentState
  · trivial
  · dsimp only
    split
    · trivial
    · exact (reads_lookupAny timeout _).bind fun _ => trivial

theorem reads_checkAPIServerConnectivity (deadline : Time) :
    Reads (checkAPIServerConnectivity deadline : HostProc IP _) := by
  refine (reads_ask rfl).bind fun r => ?_
  rcases r with err | ⟨⟩
  · trivial
  · refine (reads_ask rfl).bind fun r => ?_
    rcases r with err | ⟨⟩
    · trivial
    · refine (reads_ask rfl).bind fun r => ?_
      rcases r with err | ⟨⟩ <;> trivial

theorem reads_checkNodeReadiness (deadline : Time) : Reads (checkNodeReadiness cfg deadline) := by
  refine (reads_ask rfl).bind fun r => ?_
  rcases r with err | node <;> trivial

/-- The probes of this package. -/
def standardProbes (cfg : ProbeConfig IP) : List (Probe IP) :=
  externalConnectivityProbes cfg ++ internalConnectivityProbes cfg

theorem reads_condition {p : Probe IP} (hp : p ∈ standardProbes cfg) (timeout deadline : Time) :
    Reads (p.condition timeout deadline) := by
  simp only [standardProbes, externalConnectivityProbes, internalConnectivityProbes,
    List.cons_append, List.nil_append, List.mem_cons, List.not_mem_nil, or_false] at hp
  rcases hp with rfl | rfl | rfl | rfl
  · exact reads_runPing
  · exact reads_runDNS timeout
  · exact reads_checkAPIServerConnectivity deadline
  · exact reads_checkNodeReadiness deadline

theorem reads_poll {p : Probe IP} (hp : p ∈ standardProbes cfg) : Reads p.poll := by
  refine (reads_ask rfl).bind fun start => ?_
  exact Prog.Only.poll (reads_condition hp _ _) (reads_ask rfl) _

theorem reads_selectWorking {ps : List (Probe IP)} (hps : ∀ p ∈ ps, p ∈ standardProbes cfg) :
    Reads (selectWorking ps) := by
  induction ps with
  | nil => trivial
  | cons p ps ih =>
    have ih := ih fun q hq => hps q (List.mem_cons_of_mem _ hq)
    refine (reads_poll (hps p List.mem_cons_self)).bind fun r => ?_
    rcases r with err | ⟨⟩
    · exact ih
    · exact ih.bind fun _ => trivial

theorem reads_selectProbes : Reads (selectProbes cfg) := by
  have hps : ∀ p ∈ externalConnectivityProbes cfg, p ∈ standardProbes cfg :=
    fun _ hp => List.mem_append_left _ hp
  exact (reads_selectWorking hps).bind fun _ => trivial

theorem reads_runEach {ps : List (Probe IP)} (hps : ∀ p ∈ ps, p ∈ standardProbes cfg)
    (currentState : State) : Reads (runEach currentState ps) := by
  induction ps with
  | nil => trivial
  | cons p ps ih =>
    refine (reads_poll (hps p List.mem_cons_self)).bind fun r => ?_
    rcases r with err | ⟨⟩
    · trivial
    · exact ih fun q hq => hps q (List.mem_cons_of_mem _ hq)

theorem reads_runProbes {ps : List (Probe IP)} (hps : ∀ p ∈ ps, p ∈ standardProbes cfg) :
    Reads (runProbes ps) := by
  refine (reads_ask rfl).bind fun r => ?_
  rcases r with err | currentState
  · trivial
  · exact reads_runEach hps currentState

end Reads

/-! ## Sequences of polls -/

section Polled

variable {W : Type} (env : Env (HostApi IP) W)

/-- The calls `tr` are those of the polls of the probes, one after the other, with the results
`rs`. -/
inductive Polled :
    List (Probe IP) → List (Called (HostApi IP)) → List (Except Err Unit) → Prop where
  | nil : Polled [] [] []
  | cons {p : Probe IP} {ps : List (Probe IP)} {tr tr' : List (Called (HostApi IP))}
      {r : Except Err Unit} {rs : List (Except Err Unit)} {w w' : W}
      (hp : Exec env p.poll w tr r w') (h : Polled ps tr' rs) :
      Polled (p :: ps) (tr ++ tr') (r :: rs)

/-- The probes whose poll has succeeded. -/
def passing : List (Probe IP) → List (Except Err Unit) → List (Probe IP)
  | p :: ps, .ok () :: rs => p :: passing ps rs
  | _ :: ps, .error _ :: rs => passing ps rs
  | _, _ => []

variable {env}

theorem passing_subset (ps : List (Probe IP)) (rs : List (Except Err Unit)) :
    ∀ p ∈ passing ps rs, p ∈ ps := by
  induction ps generalizing rs with
  | nil =>
    intro p hp
    cases hp
  | cons q ps ih =>
    intro p hp
    rcases rs with _ | ⟨err | ⟨⟩, rs⟩
    · cases hp
    · exact List.mem_cons_of_mem _ (ih rs p hp)
    · rcases List.mem_cons.mp hp with rfl | hp
      · exact List.mem_cons_self
      · exact List.mem_cons_of_mem _ (ih rs p hp)

theorem selectWorking_polled {ps probes : List (Probe IP)} {w w' : W}
    {tr : List (Called (HostApi IP))} (h : Exec env (selectWorking ps) w tr probes w') :
    ∃ rs, Polled env ps tr rs ∧ probes = passing ps rs := by
  induction ps generalizing w tr probes with
  | nil =>
    obtain ⟨rfl, -, rfl⟩ := h.of_ret
    exact ⟨[], .nil, rfl⟩
  | cons p ps ih =>
    obtain ⟨tr₁, r, w₁, tr₂, hp, hrest, rfl⟩ := h.of_bind
    rcases r with err | ⟨⟩
    · obtain ⟨rs, hrs, rfl⟩ := ih hrest
      exact ⟨.error err :: rs, .cons hp hrs, rfl⟩
    · obtain ⟨tr₃, rest, w₂, tr₄, hworking, hret, rfl⟩ := hrest.of_bind
      obtain ⟨rfl, rfl, rfl⟩ := hret.of_ret
      obtain ⟨rs, hrs, rfl⟩ := ih hworking
      refine ⟨.ok () :: rs, ?_, rfl⟩
      rw [List.append_nil]
      exact .cons hp hrs

/-- `Select` polls the external probes and selects those that pass, and the internal ones. -/
theorem select_polled {cfg : ProbeConfig IP} {probes : List (Probe IP)} {w w' : W}
    {tr : List (Called (HostApi IP))} (h : Exec env (selectProbes cfg) w tr probes w') :
    ∃ rs, Polled env (externalConnectivityProbes cfg) tr rs ∧
      probes = passing (externalConnectivityProbes cfg) rs ++ internalConnectivityProbes cfg := by
  obtain ⟨tr₁, working, w₁, tr₂, hworking, hret, rfl⟩ := h.of_bind
  obtain ⟨rfl, -, rfl⟩ := hret.of_ret
  obtain ⟨rs, hrs, rfl⟩ := selectWorking_polled hworking
  refine ⟨rs, ?_, rfl⟩
  rw [List.append_nil]
  exact hrs

theorem mem_standard_of_select {cfg : ProbeConfig IP} {probes : List (Probe IP)} {w w' : W}
    {tr : List (Called (HostApi IP))} (h : Exec env (selectProbes cfg) w tr probes w') :
    ∀ p ∈ probes, p ∈ standardProbes cfg := by
  obtain ⟨rs, -, rfl⟩ := select_polled h
  intro p hp
  rcases List.mem_append.mp hp with hp | hp
  · exact List.mem_append_left _ (passing_subset _ _ p hp)
  · exact List.mem_append_right _ hp

theorem runEach_polled {ps : List (Probe IP)} {currentState : State} {w w' : W}
    {tr : List (Called (HostApi IP))} (h : Exec env (runEach currentState ps) w tr (.ok ()) w') :
    Polled env ps tr (ps.map fun _ => .ok ()) := by
  induction ps generalizing w tr with
  | nil =>
    obtain ⟨-, -, rfl⟩ := h.of_ret
    exact .nil
  | cons p ps ih =>
    obtain ⟨tr₁, r, w₁, tr₂, hp, hrest, rfl⟩ := h.of_bind
    rcases r with err | ⟨⟩
    · exact absurd hrest.of_ret.1 (by simp)
    · exact .cons hp (ih hrest)

/-- A `Run` that succeeds has polled all probes with success. -/
theorem run_polled {ps : List (Probe IP)} {w w' : W} {tr : List (Called (HostApi IP))}
    (h : Exec env (runProbes ps) w tr (.ok ()) w') :
    ∃ shown tr', tr = ⟨.nmstatectlShow, .ok shown⟩ :: tr' ∧
      Polled env ps tr' (ps.map fun _ => .ok ()) := by
  obtain ⟨r, w₁, tr', hs, hrest, rfl⟩ := Exec.of_call h
  rcases r with err | shown
  · exact absurd hrest.of_ret.1 (by simp)
  · exact ⟨shown, tr', rfl, runEach_polled hrest⟩

end Polled
