/-
# How long an apply lasts

The audit of `pkg/node/audit.go` takes a node for dead when its enactment has been Progressing for
`StaleEnactmentThreshold`, as nothing refreshes the enactment while the handler is inside
`ApplyDesiredState`.  The threshold has to exceed the time an apply can take, which the source puts
at `worstCaseApplyCycle`.

Here that time is derived from the programs.  A probe starts no check after its deadline, but the
check that is running then is not interrupted; the check of the DNS probe asks every name server
of the node, each with a timeout of its own.  How long a command on the node takes is not decided
by this code: no deadline is set for `nmstatectl`, whose `--timeout` is that of the checkpoint.
So the durations are assumptions on the surroundings (`Durations`), with `apply` seconds for
`nmstatectl apply`, `command` seconds for any other command and `servers` name servers.

No apply is running `applyBound` seconds after its start (`apply_within_bound`).  If `nmstatectl
apply` keeps within the timeout of its checkpoint, then with one name server this is below the
threshold whatever its override; three name servers that answer late are enough for an apply to
outlast the default threshold (`three_servers_outlast_threshold`).
-/
import KubernetesNmstate.Transaction
import KubernetesNmstate.Api
import Mathlib.Algebra.GroupWithZero.Nat
import Mathlib.Algebra.Order.BigOperators.Group.List

variable {IP : Type}

/-! ## The clock -/

/-- A command on the node, or a step of a client that involves no server. -/
def HostOp.isCommand : HostOp IP → Bool
  | .nmstatectlShow => true
  | .nmstatectlCommit => true
  | .nmstatectlRollback => true
  | .ping _ => true
  | .getConfig => true
  | .newClient => true
  | _ => false

/-- What is assumed of the time that calls take, in surroundings with a clock.  The code bounds a
lookup by its timeout, a request by the deadline of its context and a wait by the deadline of its
poll; the rest is up to the node. -/
structure Durations {W : Type} (cfg : ProbeConfig IP) (command apply servers : ℕ) (clock : W → ℕ)
    (env : Env (HostApi IP) W) : Prop where
  /-- `nmstatectl apply` ends within `apply` seconds. -/
  apply_lasts : ∀ {w w' : W} {desired : State} {timeout : Time} {r : Except Err String},
    env.serve w (.nmstatectlSet desired timeout) r w' → clock w' ≤ clock w + apply
  /-- Every other command ends within `command` seconds. -/
  command_lasts : ∀ {w w' : W} {o : HostOp IP} {r : o.Resp}, o.isCommand = true →
    env.serve w o r w' → clock w' ≤ clock w + command
  /-- A state that is shown lists at most `servers` name servers. -/
  shown_servers : ∀ {w w' : W} {text : State} {currentState : Json},
    env.serve w .nmstatectlShow (.ok text) w' → cfg.yamlToGJson text = .ok currentState →
      (runningNameServers cfg currentState).length ≤ servers
  /-- A lookup ends with its timeout. -/
  lookupNS_lasts : ∀ {w w' : W} {server host : String} {timeout : Time} {r : Except Err Unit},
    env.serve w (.lookupNS server host timeout) r w' → clock w' ≤ clock w + timeout
  lookupHost_lasts : ∀ {w w' : W} {server host : String} {timeout : Time} {r : Except Err Unit},
    env.serve w (.lookupHost server host timeout) r w' → clock w' ≤ clock w + timeout
  /-- A request returns within `command` seconds after the end of its context. -/
  getDefaultNamespace_lasts : ∀ {w w' : W} {deadline : Time} {r : Except Err Unit},
    env.serve w (.getDefaultNamespace deadline) r w' →
      clock w' ≤ max (clock w) deadline + command
  getNode_lasts : ∀ {w w' : W} {name : NodeName} {deadline : Time} {r : Except Err Node},
    env.serve w (.getNode name deadline) r w' → clock w' ≤ max (clock w) deadline + command
  /-- The clock of the handler is that of the surroundings. -/
  now_reads : ∀ {w w' : W} {t : Time}, env.serve w .now t w' → t = clock w ∧ clock w' = clock w
  /-- A wait between two checks ends with the deadline at the latest, and reports no expiry before
  it. -/
  tick_waits : ∀ {w w' : W} {deadline : Time} {done : Bool},
    env.serve w (.tick deadline) done w' → clock w' ≤ max (clock w) deadline ∧
      (done = false → clock w' < deadline)

section Takes

variable {W : Type} (clock : W → ℕ) (env : Env (HostApi IP) W)

/-- No call is issued after `limit`. -/
def upTo (limit : ℕ) : Monitor (HostApi IP) W Unit where
  guard w _ _ := clock w ≤ limit
  next _ _ _ _ := ()

/-- Started at some time, the program ends within `d` seconds, and issues no call after that. -/
def Takes {α : Type} (p : HostProc IP α) (d : ℕ) : Prop :=
  ∀ limit w, clock w + d ≤ limit →
    Follows env (upTo clock limit) p (fun _ w' _ => clock w' ≤ clock w + d) w ()

end Takes

section Rules

variable {W : Type} {clock : W → ℕ} {env : Env (HostApi IP) W} {cfg : ProbeConfig IP}
  {command apply servers : ℕ} {α β : Type} {limit : ℕ}

/-- One call and what follows it. -/
theorem follows_askHost {o : HostOp IP} {f : o.Resp → HostProc IP α} {Q : α → W → Unit → Prop}
    {w : W} (hguard : clock w ≤ limit) (h : ∀ r w', env.serve w o r w' →
      Follows env (upTo clock limit) (f r) Q w' ()) :
    Follows env (upTo clock limit) (askHost o >>= f) Q w () :=
  ⟨hguard, h⟩

theorem Takes.mono {p : HostProc IP α} {d e : ℕ} (hp : Takes clock env p d) (hde : d ≤ e) :
    Takes clock env p e := by
  intro limit w ht
  exact (hp limit w (by omega)).mono fun _ w' _ ht' => by omega

theorem Takes.ret (a : α) : Takes clock env (.ret a : HostProc IP α) 0 :=
  fun _ w _ => Nat.le_refl (clock w)

theorem Takes.bind {p : HostProc IP α} {f : α → HostProc IP β} {d e : ℕ}
    (hp : Takes clock env p d) (hf : ∀ a, Takes clock env (f a) e) :
    Takes clock env (p >>= f) (d + e) := by
  intro limit w ht
  refine (hp limit w (by omega)).bind fun a w' _ ht' => ?_
  exact (hf a limit w' (by omega)).mono fun _ w'' _ ht'' => by omega

/-- A call of at most `d` seconds. -/
theorem Takes.ask {o : HostOp IP} {d : ℕ}
    (h : ∀ {w r w'}, env.serve w o r w' → clock w' ≤ clock w + d) :
    Takes clock env (askHost o) d :=
  fun _ _ ht => ⟨Nat.le_trans (Nat.le_add_right _ _) ht, fun _ _ hs => h hs⟩

/-- What is known of a program that takes a time holds wherever it is stopped. -/
theorem Takes.begun {p : HostProc IP α} {d : ℕ} {w w' : W} {tr : List (Called (HostApi IP))}
    (hp : Takes clock env p d) (hx : Begun env p w tr w') : clock w' ≤ clock w + d :=
  Follows.begun (I := fun w' => clock w' ≤ clock w + d)
    (hp (clock w + d) w (Nat.le_refl _)) (fun _ _ _ h => h) hx

/-- A poll lasts for its timeout and for as long as a check can go on after the deadline. -/
theorem takes_poll (hd : Durations cfg command apply servers clock env) {timeout overrun : ℕ}
    {condition : ℕ → HostProc IP (Except Err Bool)}
    (hcondition : ∀ limit w deadline, clock w ≤ deadline → deadline + overrun ≤ limit →
      Follows env (upTo clock limit) (condition deadline)
        (fun _ w' _ => clock w' ≤ deadline + overrun) w ()) :
    Takes clock env (pollUntilContextTimeout timeout condition) (timeout + overrun) := by
  intro limit w ht
  refine follows_askHost (by omega) ?_
  intro start w₁ hnow
  obtain ⟨rfl, hstart⟩ := hd.now_reads hnow
  have hbegin : clock w₁ ≤ clock w + timeout := by omega
  refine (Follows.poll (I := fun w' _ => clock w' ≤ clock w + timeout)
    (J := fun w' _ => clock w' ≤ clock w + timeout + overrun)
    (Q := fun w' _ => clock w' ≤ clock w + timeout + overrun)
    (R := fun _ w' _ => clock w' ≤ clock w + timeout + overrun) ?_ ?_ _ hbegin).mono ?_
  · rintro w' - (ht' : clock w' ≤ clock w + timeout)
    refine (hcondition limit w' _ ht' (by omega)).mono fun r w'' _ ht'' => ?_
    exact ⟨fun _ => ht'', fun _ => ht'', fun _ _ => ht''⟩
  · rintro w' - (ht' : clock w' ≤ clock w + timeout + overrun)
    refine ⟨(by omega : clock w' ≤ limit), ?_⟩
    intro done w'' htick
    obtain ⟨hle, hlt⟩ := hd.tick_waits htick
    refine ⟨fun hdone => Nat.le_of_lt (hlt hdone),
      (?_ : clock w'' ≤ clock w + timeout + overrun)⟩
    omega
  · rintro (err | ⟨⟩) w' - ⟨hok, herror⟩
    · have hle : clock w' ≤ clock w + timeout + overrun := herror err rfl
      omega
    · have hle : clock w' ≤ clock w + timeout + overrun := hok rfl
      omega

/-- A check that takes a time of its own. -/
theorem follows_of_takes {check : HostProc IP (Except Err Bool)} {overrun : ℕ}
    (hcheck : Takes clock env check overrun) (limit : ℕ) (w : W) (deadline : ℕ)
    (ht : clock w ≤ deadline) (hlimit : deadline + overrun ≤ limit) :
    Follows env (upTo clock limit) check (fun _ w' _ => clock w' ≤ deadline + overrun) w () :=
  (hcheck limit w (by omega)).mono fun _ w' _ ht' => by omega

end Rules

/-! ## The probes -/

section Probes

variable {W : Type} {clock : W → ℕ} {env : Env (HostApi IP) W} {cfg : ProbeConfig IP}
  {command apply servers : ℕ}

/-- `currentStateAsGJson` shows a state with at most `servers` name servers. -/
theorem currentStateAsGJson_follows (hd : Durations cfg command apply servers clock env)
    {limit : ℕ} {w : W} (ht : clock w + command ≤ limit) :
    Follows env (upTo clock limit) (currentStateAsGJson cfg)
      (fun r w' _ => clock w' ≤ clock w + command ∧ ∀ currentState, r = .ok currentState →
        (runningNameServers cfg currentState).length ≤ servers) w () := by
  refine follows_askHost (by omega) ?_
  intro r w' hs
  have hle := hd.command_lasts rfl hs
  rcases r with err | text
  · exact ⟨hle, fun _ h => by cases h⟩
  · dsimp only
    split
    · exact ⟨hle, fun _ h => by cases h⟩
    · rename_i currentState hparsed
      refine ⟨hle, fun s h => ?_⟩
      cases h
      exact hd.shown_servers hs hparsed

theorem takes_runPing (hd : Durations cfg command apply servers clock env) :
    Takes clock env (runPing cfg) (2 * command) := by
  intro limit w ht
  refine (currentStateAsGJson_follows hd (by omega)).bind ?_
  rintro (err | currentState) w₁ - ⟨hle, -⟩
  · exact (by omega : clock w₁ ≤ clock w + 2 * command)
  dsimp only
  split
  · exact (by omega : clock w₁ ≤ clock w + 2 * command)
  · refine follows_askHost (by omega) ?_
    intro r w₂ hs
    have hle' := hd.command_lasts rfl hs
    have hend : clock w₂ ≤ clock w + 2 * command := by omega
    rcases r with err | output <;> exact hend

theorem takes_lookup (hd : Durations cfg command apply servers clock env) (server : String)
    (timeout : ℕ) : Takes clock env (lookup cfg server timeout) timeout := by
  unfold lookup
  split
  · exact .ask hd.lookupNS_lasts
  · exact .ask hd.lookupHost_lasts

theorem takes_lookupAny (hd : Durations cfg command apply servers clock env) (timeout : ℕ)
    (asked : List String) :
    Takes clock env (lookupAny cfg timeout asked) (asked.length * timeout) := by
  induction asked with
  | nil => exact (Takes.ret false).mono (Nat.zero_le _)
  | cons server asked ih =>
    refine ((takes_lookup hd server timeout).bind (e := asked.length * timeout) fun r => ?_).mono ?_
    · rcases r with err | ⟨⟩
      · exact ih
      · exact (Takes.ret true).mono (Nat.zero_le _)
    · rw [List.length_cons, Nat.succ_mul]
      omega

/-- A check of the DNS probe asks every name server, and waits for each. -/
theorem takes_runDNS (hd : Durations cfg command apply servers clock env) (timeout : ℕ) :
    Takes clock env (runDNS cfg timeout) (command + servers * timeout) := by
  intro limit w ht
  refine (currentStateAsGJson_follows hd (by omega)).bind ?_
  rintro (err | currentState) w₁ - ⟨hle, hservers⟩
  · exact (by omega : clock w₁ ≤ clock w + (command + servers * timeout))
  dsimp only
  split
  · exact (by omega : clock w₁ ≤ clock w + (command + servers * timeout))
  · have hasked := Nat.mul_le_mul_right timeout (hservers currentState rfl)
    have hlookups : Takes clock env (lookupAny cfg timeout (runningNameServers cfg currentState))
        (servers * timeout) := (takes_lookupAny hd timeout _).mono hasked
    refine (hlookups limit w₁ (by omega)).bind fun answered w₂ _ hle' => ?_
    exact (by omega : clock w₂ ≤ clock w + (command + servers * timeout))

theorem checkAPIServerConnectivity_follows (hd : Durations cfg command apply servers clock env)
    (limit : ℕ) (w : W) (deadline : ℕ) (ht : clock w ≤ deadline)
    (hlimit : deadline + 3 * command ≤ limit) :
    Follows env (upTo clock limit) (checkAPIServerConnectivity deadline : HostProc IP _)
      (fun _ w' _ => clock w' ≤ deadline + 3 * command) w () := by
  refine follows_askHost (by omega) ?_
  intro r w₁ hs₁
  have h₁ := hd.command_lasts rfl hs₁
  rcases r with err | ⟨⟩
  · exact (by omega : clock w₁ ≤ deadline + 3 * command)
  refine follows_askHost (by omega) ?_
  intro r w₂ hs₂
  have h₂ := hd.command_lasts rfl hs₂
  rcases r with err | ⟨⟩
  · exact (by omega : clock w₂ ≤ deadline + 3 * command)
  refine follows_askHost (by omega) ?_
  intro r w₃ hs₃
  have h₃ := hd.getDefaultNamespace_lasts hs₃
  have hend : clock w₃ ≤ deadline + 3 * command := by omega
  rcases r with err | ⟨⟩ <;> exact hend

theorem checkNodeReadiness_follows (hd : Durations cfg command apply servers clock env)
    (limit : ℕ) (w : W) (deadline : ℕ) (ht : clock w ≤ deadline)
    (hlimit : deadline + command ≤ limit) :
    Follows env (upTo clock limit) (checkNodeReadiness cfg deadline)
      (fun _ w' _ => clock w' ≤ deadline + command) w () := by
  refine follows_askHost (by omega) ?_
  intro r w₁ hs
  have h₁ := hd.getNode_lasts hs
  have hend : clock w₁ ≤ deadline + command := by omega
  rcases r with err | node <;> exact hend

variable (command servers) in
/-- How long a check of a probe can go on after the deadline of its poll. -/
def overrun (name : String) : ℕ :=
  if name = "ping" then 2 * command
  else if name = "dns" then command + servers * defaultDNSProbeTimeout
  else if name = "api-server" then 3 * command
  else command

variable (command servers) in
/-- How long the poll of a probe can last. -/
def pollBound (p : Probe IP) : ℕ := p.timeout + overrun command servers p.name

theorem takes_probe (hd : Durations cfg command apply servers clock env) {p : Probe IP}
    (hp : p ∈ standardProbes cfg) : Takes clock env p.poll (pollBound command servers p) := by
  simp only [standardProbes, externalConnectivityProbes, internalConnectivityProbes,
    List.cons_append, List.nil_append, List.mem_cons, List.not_mem_nil, or_false] at hp
  rcases hp with rfl | rfl | rfl | rfl
  · exact takes_poll hd (follows_of_takes (takes_runPing hd))
  · exact takes_poll hd (follows_of_takes (takes_runDNS hd _))
  · exact takes_poll hd (checkAPIServerConnectivity_follows hd)
  · exact takes_poll hd (checkNodeReadiness_follows hd)

theorem takes_runEach (hd : Durations cfg command apply servers clock env)
    {ps : List (Probe IP)} (hps : ∀ p ∈ ps, p ∈ standardProbes cfg) (currentState : State) :
    Takes clock env (runEach currentState ps) (ps.map (pollBound command servers)).sum := by
  induction ps with
  | nil => exact .ret _
  | cons p ps ih =>
    have ih := ih fun q hq => hps q (List.mem_cons_of_mem _ hq)
    rw [List.map_cons, List.sum_cons]
    refine (takes_probe hd (hps p List.mem_cons_self)).bind fun r => ?_
    rcases r with err | ⟨⟩
    · exact (Takes.ret _).mono (Nat.zero_le _)
    · exact ih

theorem selectWorking_follows (hd : Durations cfg command apply servers clock env)
    {ps : List (Probe IP)} (hps : ∀ p ∈ ps, p ∈ standardProbes cfg) (limit : ℕ) (w : W)
    (ht : clock w + (ps.map (pollBound command servers)).sum ≤ limit) :
    Follows env (upTo clock limit) (selectWorking ps) (fun probes w' _ =>
      probes.Sublist ps ∧ clock w' ≤ clock w + (ps.map (pollBound command servers)).sum) w () := by
  induction ps generalizing w with
  | nil => exact ⟨List.Sublist.slnil, Nat.le_refl _⟩
  | cons p ps ih =>
    rw [List.map_cons, List.sum_cons] at ht
    have ih := ih fun q hq => hps q (List.mem_cons_of_mem _ hq)
    refine (takes_probe hd (hps p List.mem_cons_self) limit w (by omega)).bind ?_
    rw [List.map_cons, List.sum_cons]
    rintro (err | ⟨⟩) w₁ - hle
    · refine (ih w₁ (by omega)).mono fun probes w₂ _ h => ?_
      exact ⟨h.1.cons p, by omega⟩
    · refine (ih w₁ (by omega)).bind fun probes w₂ _ h => ?_
      exact ⟨h.1.cons_cons p, by omega⟩

end Probes

/-! ## The apply -/

section Apply

variable {W : Type} {clock : W → ℕ} {env : Env (HostApi IP) W} {cfg : ProbeConfig IP}
  {command apply servers : ℕ}

variable (command servers) in
/-- How long `Run` can last. -/
def runBound : ℕ := 480 + 8 * command + 120 * servers

variable (command apply servers) in
/-- How long `ApplyDesiredState` can last. -/
def applyBound : ℕ := 1200 + 21 * command + apply + 360 * servers

theorem sum_pollBound_standard : ((standardProbes cfg).map (pollBound command servers)).sum =
    480 + 7 * command + 120 * servers := by
  simp [standardProbes, externalConnectivityProbes, internalConnectivityProbes, pollBound, overrun,
    pingProbe, dnsProbe, apiServerProbe, nodeReadinessProbe, defaultGwProbeTimeout,
    defaultDNSProbeTimeout, apiServerProbeTimeout, nodeReadinessProbeTimeout]
  omega

theorem sum_pollBound_external :
    ((externalConnectivityProbes cfg).map (pollBound command servers)).sum =
      240 + 3 * command + 120 * servers := by
  simp [externalConnectivityProbes, pollBound, overrun, pingProbe, dnsProbe,
    defaultGwProbeTimeout, defaultDNSProbeTimeout]
  omega

theorem takes_runProbes (hd : Durations cfg command apply servers clock env)
    {probes : List (Probe IP)} (hps : probes.Sublist (standardProbes cfg)) :
    Takes clock env (runProbes probes) (runBound command servers) := by
  have hsum : (probes.map (pollBound command servers)).sum ≤ 480 + 7 * command + 120 * servers := by
    have htotal : ((standardProbes cfg).map (pollBound command servers)).sum =
        480 + 7 * command + 120 * servers := sum_pollBound_standard
    rw [← htotal]
    exact (hps.map _).sum_le_sum fun _ _ => Nat.zero_le _
  intro limit w ht
  unfold runBound at ht ⊢
  refine follows_askHost (by omega) ?_
  intro r w₁ hs
  have hle := hd.command_lasts rfl hs
  rcases r with err | currentState
  · exact (by omega : clock w₁ ≤ clock w + (480 + 8 * command + 120 * servers))
  · refine ((takes_runEach hd (fun p hp => hps.subset hp) currentState).mono hsum limit w₁
      (by omega)).mono fun _ w₂ _ hle' => ?_
    omega

theorem takes_rollback (hd : Durations cfg command apply servers clock env)
    {probes : List (Probe IP)} {cause : Err} (hps : probes.Sublist (standardProbes cfg)) :
    Takes clock env (rollback probes cause) (command + runBound command servers) := by
  refine Takes.bind (Takes.ask fun h => hd.command_lasts rfl h) fun r => ?_
  rcases r with err | ⟨⟩
  · exact (Takes.ret _).mono (Nat.zero_le _)
  · refine (takes_runProbes hd hps).bind (e := 0) fun r => ?_
    rcases r with err | ⟨⟩ <;> exact .ret _

theorem takes_confirm (hd : Durations cfg command apply servers clock env)
    {probes : List (Probe IP)} {setOutput : String} (hps : probes.Sublist (standardProbes cfg)) :
    Takes clock env (confirm probes setOutput)
      (runBound command servers + (command + runBound command servers)) := by
  refine (takes_runProbes hd hps).bind fun r => ?_
  rcases r with err | ⟨⟩
  · exact (takes_rollback hd hps).bind (e := 0) fun _ => .ret _
  · have hcommit : Takes clock env (askHost .nmstatectlCommit) command :=
      .ask fun h => hd.command_lasts rfl h
    refine Takes.mono (hcommit.bind (e := 0) fun r => ?_) (Nat.le_add_right _ _)
    rcases r with err | output <;> exact .ret _

theorem selectProbes_follows (hd : Durations cfg command apply servers clock env) (limit : ℕ)
    (w : W) (ht : clock w + (240 + 3 * command + 120 * servers) ≤ limit) :
    Follows env (upTo clock limit) (selectProbes cfg) (fun probes w' _ =>
      probes.Sublist (standardProbes cfg) ∧
        clock w' ≤ clock w + (240 + 3 * command + 120 * servers)) w () := by
  have hexternal : ∀ p ∈ externalConnectivityProbes cfg, p ∈ standardProbes cfg :=
    fun p hp => List.mem_append_left _ hp
  have hsum : ((externalConnectivityProbes cfg).map (pollBound command servers)).sum =
      240 + 3 * command + 120 * servers := sum_pollBound_external
  rw [← hsum] at ht ⊢
  refine (selectWorking_follows hd hexternal limit w ht).bind fun working w' _ h => ?_
  exact ⟨h.1.append (List.Sublist.refl _), h.2⟩

theorem takes_applyDesiredState (hd : Durations cfg command apply servers clock env)
    (desired : State) :
    Takes clock env (applyDesiredState cfg desired) (applyBound command apply servers) := by
  unfold applyDesiredState
  split
  · exact (Takes.ret _).mono (Nat.zero_le _)
  intro limit w ht
  unfold applyBound at ht ⊢
  refine (selectProbes_follows hd limit w (by omega)).bind ?_
  rintro probes w₁ - ⟨hps, hle₁⟩
  refine follows_askHost (by omega) ?_
  intro cleared w₂ hclear
  have hle₂ := hd.command_lasts rfl hclear
  refine follows_askHost (by omega) ?_
  intro r w₃ hset
  have hle₃ := hd.apply_lasts hset
  rcases r with err | setOutput
  · exact (by omega : clock w₃ ≤ clock w + (1200 + 21 * command + apply + 360 * servers))
  · have hconfirm : Takes clock env (confirm probes setOutput)
        (960 + 17 * command + 240 * servers) :=
      (takes_confirm hd hps).mono (by unfold runBound; omega)
    refine (hconfirm limit w₃ (by omega)).mono fun _ w₄ _ hle₄ => ?_
    omega

/-- **An apply ends in time.**  At every moment of an apply the time since its start is at most
`applyBound`.  Let `nmstatectl apply` keep within the timeout of its checkpoint: with one name
server and other commands of at most eleven seconds that is within the worst case of the source and
below every threshold an override can set; with two name servers and commands of at most eight
seconds it is below the default threshold. -/
theorem apply_within_bound (hd : Durations cfg command apply servers clock env) {desired : State}
    {w w' : W} {tr : List (Called (HostApi IP))}
    (hx : Begun env (applyDesiredState cfg desired) w tr w') :
    clock w' ≤ clock w + applyBound command apply servers ∧
      (apply ≤ desiredStateConfigurationTimeout →
        (servers ≤ 1 → command ≤ 11 → clock w' ≤ clock w + worstCaseApplyCycle ∧
          ∀ override, clock w' < clock w + staleEnactmentThreshold override) ∧
        (servers ≤ 2 → command ≤ 8 → clock w' < clock w + defaultStaleEnactmentThreshold)) := by
  have hbound : clock w' ≤ clock w + applyBound command apply servers :=
    (takes_applyDesiredState hd desired).begun hx
  refine ⟨hbound, ?_⟩
  intro (happly : apply ≤ 480)
  unfold applyBound at hbound
  refine ⟨fun hservers hcommand => ?_, fun hservers hcommand => ?_⟩
  · have hworst : clock w' ≤ clock w + worstCaseApplyCycle := by
      change clock w' ≤ clock w + 2280
      omega
    refine ⟨hworst, fun override => ?_⟩
    have hthreshold : worstCaseApplyCycle < staleEnactmentThreshold override := by
      unfold staleEnactmentThreshold
      split
      · decide
      · split
        · decide
        · rename_i hnot
          exact Nat.lt_of_not_le hnot
    exact Nat.lt_of_le_of_lt hworst (Nat.add_lt_add_left hthreshold (clock w))
  · change clock w' < clock w + 2580
    omega

end Apply

/-! ## A slow apply -/

/-- A state with a default gateway and three name servers. -/
def threeServers : Json :=
  .obj [("routes", .obj [("running", .arr [.obj [("destination", .str "0.0.0.0/0"),
      ("table-id", .num "254"), ("next-hop-address", .str "192.0.2.1"),
      ("next-hop-interface", .str "eth0")]])]),
    ("dns-resolver", .obj [("running", .obj [("server", .arr [.str "192.0.2.2",
      .str "192.0.2.3", .str "192.0.2.4"])])])]

def threeServerProbes : ProbeConfig ℕ where
  parseIP := fun _ => some 1
  raw := fun _ => ""
  yamlToGJson := fun _ => .ok threeServers
  dnsTarget := "root-servers.net"
  nodeName := "node01"

/-- The gateway answers in the last second of each poll. -/
def gatewayAnswers (t : ℕ) : Bool := t == 119 || t == 1197 || t == 2035

/-- In the last second of each poll the first two name servers do not answer. -/
def serverSilent (t : ℕ) : Bool :=
  t == 238 || t == 358 || t == 1316 || t == 1436 || t == 2154 || t == 2274

/-- The third name server answers when its time is almost up. -/
def serverAnswersLate (t : ℕ) : Bool := t == 478 || t == 1556 || t == 2394

/-- A node whose probes take all the time they have, until it turns out not to be ready. -/
def answerSlowly (t : ℕ) : (o : HostOp ℕ) → Option (o.Resp × ℕ)
  | .nmstatectlShow => some (.ok "", t)
  | .nmstatectlSet _ _ => some (.ok "", t + desiredStateConfigurationTimeout)
  | .nmstatectlCommit => some (.ok "", t)
  | .nmstatectlRollback => some (.ok (), t)
  | .ping _ => some (if gatewayAnswers t then .ok "" else .error (.other "unreachable"), t)
  | .lookupNS _ _ timeout =>
    if serverAnswersLate t then some (.ok (), t + timeout)
    else if serverSilent t then some (.error (.other "timeout"), t + timeout)
    else some (.error (.other "refused"), t)
  | .lookupHost _ _ _ => some (.ok (), t)
  | .getConfig => some (.ok (), t)
  | .newClient => some (.ok (), t)
  | .getDefaultNamespace deadline => some (.ok (), max t deadline)
  | .getNode name deadline => some (.ok ⟨name, [], []⟩, max t deadline)
  | .now => some (t, t)
  | .tick deadline => if t + 1 < deadline then some (false, t + 1) else some (true, max t deadline)

/-- The surroundings with these answers; their state is the clock. -/
def answeringSlowly : Env (HostApi ℕ) ℕ where
  serve t o r t' := answerSlowly t o = some (r, t')

/-- Only `nmstatectl apply` and the lookups take time there. -/
theorem durations_answeringSlowly :
    Durations threeServerProbes 0 desiredStateConfigurationTimeout 3 id answeringSlowly where
  apply_lasts := by
    intro t t' desired timeout r hs
    cases hs
    exact Nat.le_refl _
  command_lasts := by
    intro t t' o r ho hs
    cases o with
    | nmstatectlShow | nmstatectlCommit | nmstatectlRollback | ping | getConfig | newClient =>
      cases hs
      exact Nat.le_refl _
    | _ => cases ho
  shown_servers := by
    intro t t' text currentState _ hparsed
    cases hparsed
    decide
  lookupNS_lasts := by
    intro t t' server host timeout r hs
    simp only [answeringSlowly, answerSlowly] at hs
    split at hs
    · cases hs
      exact Nat.le_refl _
    · split at hs
      · cases hs
        exact Nat.le_refl _
      · cases hs
        exact Nat.le_add_right _ _
  lookupHost_lasts := by
    intro t t' server host timeout r hs
    cases hs
    exact Nat.le_add_right _ _
  getDefaultNamespace_lasts := by
    intro t t' deadline r hs
    cases hs
    exact Nat.le_refl _
  getNode_lasts := by
    intro t t' name deadline r hs
    cases hs
    exact Nat.le_refl _
  now_reads := by
    intro t t' now hs
    cases hs
    exact ⟨rfl, rfl⟩
  tick_waits := by
    intro t t' deadline done hs
    simp only [answeringSlowly, answerSlowly] at hs
    split at hs
    · rename_i hlt
      cases hs
      exact ⟨Nat.le_trans (Nat.le_of_lt hlt) (Nat.le_max_right _ _), fun _ => hlt⟩
    · cases hs
      exact ⟨Nat.le_refl _, fun h => by cases h⟩

/-- Three name servers are too many: the apply of a live handler outlasts the default threshold. -/
theorem three_servers_outlast_threshold : ∃ tr result t',
    Exec answeringSlowly (applyDesiredState threeServerProbes "desired") 0 tr result t' ∧
      defaultStaleEnactmentThreshold ≤ t' := by
  have hanswer : ∀ {t o r t'}, answerSlowly t o = some (r, t') →
      answeringSlowly.serve t o r t' := fun h => h
  obtain ⟨tr, result, t', hx, hend⟩ := Exec.exists_of_play hanswer 4000
    (applyDesiredState threeServerProbes "desired") 0
    (fun _ _ t' => decide (defaultStaleEnactmentThreshold ≤ t')) (by decide +kernel)
  exact ⟨tr, result, t', hx, of_decide_eq_true hend⟩

/-- That apply keeps to its bound. -/
theorem three_servers_within_bound : ∃ tr t',
    Begun answeringSlowly (applyDesiredState threeServerProbes "desired") 0 tr t' ∧
      t' ≤ 0 + applyBound 0 desiredStateConfigurationTimeout 3 := by
  obtain ⟨tr, result, t', hx, -⟩ := three_servers_outlast_threshold
  exact ⟨tr, t', hx.begun, (apply_within_bound durations_answeringSlowly hx.begun).1⟩
