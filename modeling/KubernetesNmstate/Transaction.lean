/-
# Applying a desired state as a transaction

`ApplyDesiredState` and `rollback` of `pkg/client/client.go`.  The handler reconfigures its node
through `nmstatectl`: `apply --no-commit` changes the configuration and leaves a checkpoint of the
one before, `commit` removes the checkpoint, `rollback` returns to it, and so does the checkpoint's
own timer at any moment.  In between the handler runs the probes.  It can be killed anywhere, and
then leaves a checkpoint behind, which the next `ApplyDesiredState` finds.

`nmstatectl` and NetworkManager are no part of this code.  What is assumed of their commands are
the fields of `Nmstatectl`; the node itself stays a parameter, of which the results see the
configuration and the checkpoint.

The configuration a node is sure to keep is the one of the checkpoint if there is one, and the
current one otherwise (`Host.settled`).

* Seen through it, `ApplyDesiredState` is atomic: whatever happens to the handler and to the
  checkpoints, over any sequence of applies, the settled configuration changes by whole desired
  states, by those that were reported as applied and possibly by those whose commit was reported
  as failed or whose handler was killed (`life_atomic`).
* A desired state is committed only after every probe that passed before it was applied, and the
  probes of the API server and of the node, have passed on the new configuration, and between the
  application and the commit nothing else is done to the node (`committed_only_if_probed`).
* An apply that returns leaves a checkpoint behind only when the last command on the node failed
  (`checkpoint_left_by_failed_command`).
-/
import KubernetesNmstate.Probes

variable {IP : Type}

/-! ## The procedures -/

/-- `rollback`: the error that `ApplyDesiredState` returns. -/
def rollback (probes : List (Probe IP)) (cause : Err) : HostProc IP Err := do
  let message := "rolling back desired state configuration: " ++ cause.message
  match ← askHost .nmstatectlRollback with
  | .error err => return err.wrap message
  | .ok () =>
    match ← runProbes probes with
    | .error probesErr =>
      return (probesErr.wrap "failed running probes after rollback").wrap message
    | .ok () => return .other message

/-- What follows a successful `nmstatectl.Set`. -/
def confirm (probes : List (Probe IP)) (setOutput : String) :
    HostProc IP (String × Option Err) := do
  match ← runProbes probes with
  | .error err =>
    return ("", some (← rollback probes (err.wrap "failed runnig probes after network changes")))
  | .ok () =>
    match ← askHost .nmstatectlCommit with
    | .error err => return ("", some err)
    | .ok _ => return ("setOutput: " ++ setOutput ++ " \n", none)

/-- `ApplyDesiredState`: the output and the error.  The result of the first rollback is ignored,
and a command that fails has no output. -/
def applyDesiredState (cfg : ProbeConfig IP) (desiredState : State) :
    HostProc IP (String × Option Err) := do
  if desiredState = "" then return ("Ignoring empty desired state", none)
  else
    let probes ← selectProbes cfg
    let _ ← askHost .nmstatectlRollback
    match ← askHost (.nmstatectlSet desiredState desiredStateConfigurationTimeout) with
    | .error err => return ("", some err)
    | .ok setOutput => confirm probes setOutput

/-! ## The node -/

/-- The network configuration of a node, and the one a pending checkpoint returns to. -/
structure Host (ν : Type) where
  current : ν
  checkpoint : Option ν := none

namespace Host

variable {ν : Type}

/-- The configuration the node returns to when nobody does anything. -/
def settled (h : Host ν) : ν := h.checkpoint.getD h.current

/-- The timer of the checkpoint has run out, or nothing has happened. -/
def Expires (h h' : Host ν) : Prop :=
  h' = h ∨ ∃ saved, h.checkpoint = some saved ∧ h' = ⟨saved, none⟩

theorem Expires.settled {h h' : Host ν} (he : h.Expires h') : h'.settled = h.settled := by
  rcases he with rfl | ⟨saved, hsaved, rfl⟩
  · rfl
  · simp [Host.settled, hsaved]

end Host

/-- What is assumed of `nmstatectl`, of NetworkManager behind it, and of everybody else on a node
with the surroundings `env`; `host` is what there is to see of the node, and `realizes` says what
the application of a desired state makes of a configuration.  A checkpoint can expire before every
call. -/
structure Nmstatectl {W ν : Type} (realizes : State → ν → ν → Prop) (host : W → Host ν)
    (env : Env (HostApi IP) W) : Prop where
  /-- The configuration changes by commands and by the timer of a checkpoint only. -/
  reading : ∀ {w w' : W} {o : HostOp IP} {r : o.Resp}, o.isReading = true → env.serve w o r w' →
    (host w).Expires (host w')
  /-- `apply --no-commit` works only where no checkpoint is left, makes the desired state hold and
  leaves a checkpoint of the configuration before. -/
  apply_ok : ∀ {w w' : W} {desired : State} {timeout : Time} {output : String},
    env.serve w (.nmstatectlSet desired timeout) (.ok output) w' →
      ∃ h, (host w).Expires h ∧ h.checkpoint = none ∧ ∃ c, realizes desired h.current c ∧
        host w' = ⟨c, some h.current⟩
  /-- When it fails, it has done nothing or has left its checkpoint below some configuration. -/
  apply_error : ∀ {w w' : W} {desired : State} {timeout : Time} {err : Err},
    env.serve w (.nmstatectlSet desired timeout) (.error err) w' →
      ∃ h, (host w).Expires h ∧
        (host w' = h ∨ h.checkpoint = none ∧ ∃ c, host w' = ⟨c, some h.current⟩)
  /-- `commit` removes the checkpoint, and without a checkpoint it fails. -/
  commit_ok : ∀ {w w' : W} {output : String}, env.serve w .nmstatectlCommit (.ok output) w' →
    ∃ h, (host w).Expires h ∧ h.checkpoint.isSome = true ∧ host w' = ⟨h.current, none⟩
  /-- A `commit` that is reported as failed may have been made. -/
  commit_error : ∀ {w w' : W} {err : Err}, env.serve w .nmstatectlCommit (.error err) w' →
    ∃ h, (host w).Expires h ∧
      (host w' = h ∨ h.checkpoint.isSome = true ∧ host w' = ⟨h.current, none⟩)
  /-- `rollback` does what the timer does, or nothing. -/
  rollback : ∀ {w w' : W} {r : Except Err Unit}, env.serve w .nmstatectlRollback r w' →
    (host w).Expires (host w')
  /-- After a `rollback` that succeeds there is no checkpoint. -/
  rollback_ok : ∀ {w w' : W}, env.serve w .nmstatectlRollback (.ok ()) w' →
    (host w').checkpoint = none

section Effects

variable {W ν : Type} {realizes : State → ν → ν → Prop} {host : W → Host ν}
  {env : Env (HostApi IP) W} {w w' : W}

/-- Only a commit changes the settled configuration. -/
theorem Nmstatectl.serve_settled (hn : Nmstatectl realizes host env) {o : HostOp IP} {r : o.Resp}
    (ho : o ≠ .nmstatectlCommit) (hs : env.serve w o r w') :
    (host w').settled = (host w).settled := by
  by_cases hreading : o.isReading = true
  · exact (hn.reading hreading hs).settled
  · cases o with
    | nmstatectlSet desired timeout =>
      rcases r with err | output
      · obtain ⟨h, hexp, heq | ⟨hnone, c, heq⟩⟩ := hn.apply_error hs
        · rw [heq, hexp.settled]
        · rw [heq, ← hexp.settled]
          simp [Host.settled, hnone]
      · obtain ⟨h, hexp, hnone, c, -, heq⟩ := hn.apply_ok hs
        rw [heq, ← hexp.settled]
        simp [Host.settled, hnone]
    | nmstatectlCommit => exact absurd rfl ho
    | nmstatectlRollback => exact (hn.rollback hs).settled
    | _ => exact absurd rfl hreading

/-- The calls `tr` are no commits. -/
def Uncommitted (tr : List (Called (HostApi IP))) : Prop := ∀ c ∈ tr, c.1 ≠ .nmstatectlCommit

@[simp] theorem uncommitted_nil : Uncommitted ([] : List (Called (HostApi IP))) := by
  simp [Uncommitted]

@[simp] theorem uncommitted_cons {c : Called (HostApi IP)} {tr : List (Called (HostApi IP))} :
    Uncommitted (c :: tr) ↔ c.1 ≠ .nmstatectlCommit ∧ Uncommitted tr := by
  simp [Uncommitted]

@[simp] theorem uncommitted_append {tr tr' : List (Called (HostApi IP))} :
    Uncommitted (tr ++ tr') ↔ Uncommitted tr ∧ Uncommitted tr' := by
  simp only [Uncommitted, List.mem_append, or_imp, forall_and]

/-- Without a commit the settled configuration stays. -/
theorem Uncommitted.settled (hn : Nmstatectl realizes host env) {α : Type} {p : HostProc IP α}
    {tr : List (Called (HostApi IP))} (htr : Uncommitted tr) (hx : Begun env p w tr w') :
    (host w').settled = (host w).settled := by
  refine hx.keeps (I := fun w₁ => (host w₁).settled = (host w).settled) ?_ htr rfl
  intro o w₁ r w₂ ho hI hs
  rw [hn.serve_settled ho hs, hI]

/-- The configuration on top of the settled one `base`, if there is any, is the desired one. -/
structure OnTop (realizes : State → ν → ν → Prop) (desired : State) (base : ν) (h : Host ν) :
    Prop where
  settled : h.settled = base
  realized : h.checkpoint.isSome = true → realizes desired base h.current

theorem OnTop.expires {desired : State} {base : ν} {h h' : Host ν}
    (hot : OnTop realizes desired base h) (he : h.Expires h') :
    OnTop realizes desired base h' := by
  refine ⟨he.settled.trans hot.settled, fun hsome => ?_⟩
  rcases he with rfl | ⟨saved, hsaved, rfl⟩
  · exact hot.realized hsome
  · cases hsome

theorem OnTop.of_reads (hn : Nmstatectl realizes host env) {α : Type} {desired : State} {base : ν}
    {p : HostProc IP α} {tr : List (Called (HostApi IP))}
    (hot : OnTop realizes desired base (host w)) (hp : Reads p) (hx : Begun env p w tr w') :
    OnTop realizes desired base (host w') := by
  refine hx.keeps (C := fun c => HostOp.isReading c.1 = true)
    (I := fun w => OnTop realizes desired base (host w)) ?_ (hx.only hp) hot
  intro o w₁ r w₂ ho hI hs
  exact hI.expires (hn.reading ho hs)

/-- A successful `nmstatectl apply` puts the desired state on top of the settled one. -/
theorem OnTop.of_set (hn : Nmstatectl realizes host env) {desired : State} {timeout : Time}
    {output : String} (hs : env.serve w (.nmstatectlSet desired timeout) (.ok output) w') :
    OnTop realizes desired (host w).settled (host w') := by
  obtain ⟨h, hexp, hnone, c, hc, heq⟩ := hn.apply_ok hs
  have hbase : h.current = (host w).settled := by
    rw [← hexp.settled, Host.settled, hnone, Option.getD_none]
  rw [heq]
  exact ⟨hbase, fun _ => hbase ▸ hc⟩

/-- A commit keeps what is on top of the settled configuration; if it is reported as failed, it may
have done nothing. -/
theorem OnTop.commit (hn : Nmstatectl realizes host env) {desired : State} {base : ν}
    {r : Except Err String} (hot : OnTop realizes desired base (host w))
    (hs : env.serve w .nmstatectlCommit r w') :
    realizes desired base (host w').settled ∨
      (∃ err, r = .error err) ∧ (host w').settled = base := by
  have hkept : ∀ {h : Host ν}, (host w).Expires h → h.checkpoint.isSome = true →
      host w' = ⟨h.current, none⟩ → realizes desired base (host w').settled := by
    intro h hexp hsome heq
    rw [heq]
    exact (hot.expires hexp).realized hsome
  rcases r with err | output
  · obtain ⟨h, hexp, heq | ⟨hsome, heq⟩⟩ := hn.commit_error hs
    · exact Or.inr ⟨⟨err, rfl⟩, heq ▸ (hot.expires hexp).settled⟩
    · exact Or.inl (hkept hexp hsome heq)
  · obtain ⟨h, hexp, hsome, heq⟩ := hn.commit_ok hs
    exact Or.inl (hkept hexp hsome heq)

end Effects

/-! ## The course of an apply -/

section Course

variable {W : Type} {env : Env (HostApi IP) W} {cfg : ProbeConfig IP} {desired : State} {w w' : W}
  {tr : List (Called (HostApi IP))} {probes : List (Probe IP)}

theorem uncommitted_of_reads {α : Type} {p : HostProc IP α} (hp : Reads p)
    (hx : Begun env p w tr w') : Uncommitted tr := by
  intro c hc heq
  have hreading := hx.only hp c hc
  rw [heq] at hreading
  cases hreading

theorem uncommitted_of_rollback {cause : Err} (hps : ∀ p ∈ probes, p ∈ standardProbes cfg)
    (hx : Begun env (rollback probes cause) w tr w') : Uncommitted tr := by
  rcases Begun.of_perform hx with ⟨-, rfl⟩ | ⟨r, w₁, tr₁, -, hx₁, rfl⟩
  · simp
  rcases r with err | ⟨⟩
  · simp [hx₁.of_ret.2]
  dsimp only at hx₁
  have hreads := reads_runProbes hps
  rcases Begun.of_bind hx₁ with hcut | ⟨run, r, w₂, tr₂, hrun, hx₂, rfl⟩
  · simp [uncommitted_of_reads hreads hcut]
  · have htr₂ : tr₂ = [] := by
      rcases r with err | ⟨⟩ <;> exact hx₂.of_ret.2
    simp [uncommitted_of_reads hreads hrun.begun, htr₂]

/-- The calls up to a successful `nmstatectl apply`: the probes are selected, an old checkpoint is
rolled back, and the desired state is applied. -/
def Opening (env : Env (HostApi IP) W) (cfg : ProbeConfig IP) (desired : State)
    (probes : List (Probe IP)) (setOutput : String) (w : W) (tr : List (Called (HostApi IP)))
    (w' : W) : Prop :=
  ∃ before cleared w₁ w₂, Exec env (selectProbes cfg) w before probes w₁ ∧
    env.serve w₁ .nmstatectlRollback cleared w₂ ∧
    env.serve w₂ (.nmstatectlSet desired desiredStateConfigurationTimeout) (.ok setOutput) w' ∧
    tr = before ++ [⟨.nmstatectlRollback, cleared⟩,
      ⟨.nmstatectlSet desired desiredStateConfigurationTimeout, .ok setOutput⟩]

/-- A call of commit is the last one, after the probes have passed on the new configuration. -/
theorem confirm_cases {setOutput : String} (hps : ∀ p ∈ probes, p ∈ standardProbes cfg)
    (hx : Begun env (confirm probes setOutput) w tr w') :
    Uncommitted tr ∨ ∃ run r w₁, Exec env (runProbes probes) w run (.ok ()) w₁ ∧
      env.serve w₁ .nmstatectlCommit r w' ∧ tr = run ++ [⟨.nmstatectlCommit, r⟩] := by
  have hreads := reads_runProbes hps
  rcases Begun.of_bind hx with hcut | ⟨run, r, w₁, tr₁, hrun, hx₁, rfl⟩
  · exact Or.inl (uncommitted_of_reads hreads hcut)
  have hrunNot := uncommitted_of_reads hreads hrun.begun
  rcases r with err | ⟨⟩
  · left
    rcases Begun.of_bind hx₁ with hcut | ⟨tr₂, e, w₂, tr₃, hroll, hret, rfl⟩
    · simp [hrunNot, uncommitted_of_rollback hps hcut]
    · simp [hrunNot, uncommitted_of_rollback hps hroll.begun, hret.of_ret.2]
  · rcases Begun.of_perform hx₁ with ⟨rfl, rfl⟩ | ⟨r, w₂, tr₂, hs, hret, rfl⟩
    · simp [hrunNot]
    · have hdone : w' = w₂ ∧ tr₂ = [] := by
        rcases r with err | output <;> exact hret.of_ret
      obtain ⟨rfl, rfl⟩ := hdone
      exact Or.inr ⟨run, r, w₁, hrun, hs, rfl⟩

/-- An apply cut short anywhere: no commit has been called, or it is the last call and everything
before it has gone well. -/
theorem begun_apply_cases (hx : Begun env (applyDesiredState cfg desired) w tr w') :
    Uncommitted tr ∨ ∃ probes setOutput opening run r w₁ w₂, desired ≠ "" ∧
      Opening env cfg desired probes setOutput w opening w₁ ∧
      Exec env (runProbes probes) w₁ run (.ok ()) w₂ ∧ env.serve w₂ .nmstatectlCommit r w' ∧
      tr = opening ++ (run ++ [⟨.nmstatectlCommit, r⟩]) := by
  unfold applyDesiredState at hx
  split at hx
  · simp [hx.of_ret.2]
  rename_i hne
  rcases Begun.of_bind hx with hcut | ⟨before, probes, w₁, tr₁, hselect, hx₁, rfl⟩
  · exact Or.inl (uncommitted_of_reads reads_selectProbes hcut)
  have hbefore := uncommitted_of_reads reads_selectProbes hselect.begun
  rcases Begun.of_perform hx₁ with ⟨-, rfl⟩ | ⟨cleared, w₂, tr₂, hclear, hx₂, rfl⟩
  · simp [hbefore]
  rcases Begun.of_perform hx₂ with ⟨-, rfl⟩ | ⟨r, w₃, tr₃, hset, hx₃, rfl⟩
  · simp [hbefore]
  rcases r with err | setOutput
  · simp [hbefore, hx₃.of_ret.2]
  rcases confirm_cases (mem_standard_of_select hselect) hx₃ with hnot | ⟨run, r, w₄, hrun, hs, rfl⟩
  · simp [hbefore, hnot]
  · exact Or.inr ⟨probes, setOutput, _, run, r, w₃, w₄, hne,
      ⟨before, cleared, w₁, w₂, hselect, hclear, hset, rfl⟩, hrun, hs, by simp⟩

/-- How a complete apply of a non-empty desired state ends. -/
theorem exec_apply_cases {result : String × Option Err} (hne : desired ≠ "")
    (hx : Exec env (applyDesiredState cfg desired) w tr result w') :
    (∃ probes before cleared err w₁ w₂, Exec env (selectProbes cfg) w before probes w₁ ∧
      env.serve w₁ .nmstatectlRollback cleared w₂ ∧
      env.serve w₂ (.nmstatectlSet desired desiredStateConfigurationTimeout) (.error err) w' ∧
      result.2 = some err ∧ tr = before ++ [⟨.nmstatectlRollback, cleared⟩,
        ⟨.nmstatectlSet desired desiredStateConfigurationTimeout, .error err⟩]) ∨
    ∃ probes setOutput opening run w₁ w₂, Opening env cfg desired probes setOutput w opening w₁ ∧
      ((∃ err cause rest, Exec env (runProbes probes) w₁ run (.error err) w₂ ∧
        Exec env (rollback probes (err.wrap "failed runnig probes after network changes")) w₂ rest
          cause w' ∧ result.2 = some cause ∧ tr = opening ++ (run ++ rest)) ∨
      ∃ r, Exec env (runProbes probes) w₁ run (.ok ()) w₂ ∧ env.serve w₂ .nmstatectlCommit r w' ∧
        (result.2 = none ↔ ∃ output, r = .ok output) ∧
        tr = opening ++ (run ++ [⟨.nmstatectlCommit, r⟩])) := by
  unfold applyDesiredState at hx
  rw [if_neg hne] at hx
  obtain ⟨before, probes, w₁, tr₁, hselect, hx₁, rfl⟩ := Exec.of_bind hx
  obtain ⟨cleared, w₂, tr₂, hclear, hx₂, rfl⟩ := Exec.of_perform hx₁
  obtain ⟨r, w₃, tr₃, hset, hx₃, rfl⟩ := Exec.of_perform hx₂
  rcases r with err | setOutput
  · obtain ⟨rfl, rfl, rfl⟩ := hx₃.of_ret
    exact Or.inl ⟨probes, before, cleared, err, w₁, w₂, hselect, hclear, hset, rfl, rfl⟩
  have hopening : Opening env cfg desired probes setOutput w (before ++
      [⟨.nmstatectlRollback, cleared⟩,
        ⟨.nmstatectlSet desired desiredStateConfigurationTimeout, .ok setOutput⟩]) w₃ :=
    ⟨before, cleared, w₁, w₂, hselect, hclear, hset, rfl⟩
  change Exec env (confirm probes setOutput) w₃ tr₃ result w' at hx₃
  obtain ⟨run, r, w₄, tr₄, hrun, hx₄, rfl⟩ := Exec.of_bind hx₃
  refine Or.inr ⟨probes, setOutput, _, run, w₃, w₄, hopening, ?_⟩
  rcases r with err | ⟨⟩
  · obtain ⟨rest, cause, w₅, tr₅, hroll, hret, rfl⟩ := Exec.of_bind hx₄
    obtain ⟨rfl, rfl, rfl⟩ := hret.of_ret
    exact Or.inl ⟨err, cause, rest, hrun, hroll, rfl, by simp⟩
  · obtain ⟨r, w₅, tr₅, hcommit, hret, rfl⟩ := Exec.of_perform hx₄
    rcases r with err | output
    · obtain ⟨rfl, rfl, rfl⟩ := hret.of_ret
      exact Or.inr ⟨.error err, hrun, hcommit, by simp, by simp⟩
    · obtain ⟨rfl, rfl, rfl⟩ := hret.of_ret
      exact Or.inr ⟨.ok output, hrun, hcommit, by simp, by simp⟩

end Course

/-! ## Applies played out -/

/-- Probes for runs by hand: without a readable state neither ping nor DNS is selected. -/
def bareProbes : ProbeConfig ℕ where
  parseIP := fun _ => none
  raw := fun _ => ""
  yamlToGJson := fun _ => .error (.other "no state")
  dnsTarget := "root-servers.net"
  nodeName := "node01"

/-- Configurations for runs by hand: every applied state leads to the next number. -/
def nextNumber (_ : State) (c c' : ℕ) : Prop := c' = c + 1

/-- A node on which everything goes well, but commits do only if `commits`. -/
def answerHost (commits : Bool) (h : Host ℕ) : (o : HostOp ℕ) → Option (o.Resp × Host ℕ)
  | .nmstatectlShow => some (.ok "", h)
  | .nmstatectlSet _ _ =>
    match h.checkpoint with
    | none => some (.ok "", ⟨h.current + 1, some h.current⟩)
    | some _ => none
  | .nmstatectlCommit =>
    match commits, h.checkpoint with
    | true, some _ => some (.ok "", ⟨h.current, none⟩)
    | _, _ => some (.error (.other "commit"), h)
  | .nmstatectlRollback => some (.error (.other "no checkpoint"), h)
  | .ping _ => some (.ok "", h)
  | .lookupNS _ _ _ => some (.ok (), h)
  | .lookupHost _ _ _ => some (.ok (), h)
  | .getConfig => some (.ok (), h)
  | .newClient => some (.ok (), h)
  | .getDefaultNamespace _ => some (.ok (), h)
  | .getNode name _ => some (.ok ⟨name, [], [⟨.ready, .isTrue⟩]⟩, h)
  | .now => some (0, h)
  | .tick _ => some (true, h)

/-- The surroundings with these answers. -/
def answering (commits : Bool) : Env (HostApi ℕ) (Host ℕ) where
  serve h o r h' := answerHost commits h o = some (r, h')

theorem nmstatectl_answering (commits : Bool) : Nmstatectl nextNumber id (answering commits) where
  reading := by
    intro h h' o r ho hs
    cases o with
    | nmstatectlSet | nmstatectlCommit | nmstatectlRollback => cases ho
    | _ =>
      cases hs
      exact Or.inl rfl
  apply_ok := by
    intro h h' desired timeout output hs
    simp only [answering, answerHost] at hs
    split at hs
    · rename_i hnone
      cases hs
      exact ⟨h, Or.inl rfl, hnone, _, rfl, rfl⟩
    · cases hs
  apply_error := by
    intro h h' desired timeout err hs
    simp only [answering, answerHost] at hs
    split at hs <;> cases hs
  commit_ok := by
    intro h h' output hs
    simp only [answering, answerHost] at hs
    split at hs
    · rename_i hsome
      cases hs
      exact ⟨h, Or.inl rfl, by simp [hsome], rfl⟩
    · cases hs
  commit_error := by
    intro h h' err hs
    simp only [answering, answerHost] at hs
    split at hs
    · cases hs
    · cases hs
      exact ⟨h, Or.inl rfl, Or.inl rfl⟩
  rollback := by
    intro h h' r hs
    cases hs
    exact Or.inl rfl
  rollback_ok := by
    intro h h' hs
    cases hs

/-- The call is a commit. -/
def HostOp.isCommit : HostOp IP → Bool
  | .nmstatectlCommit => true
  | _ => false

theorem HostOp.eq_of_isCommit {o : HostOp IP} (ho : o.isCommit = true) : o = .nmstatectlCommit := by
  cases o with
  | nmstatectlCommit => rfl
  | _ => cases ho

/-- An apply that ends in an answer with a decidable property. -/
theorem exists_apply (commits : Bool) (P : List (Called (HostApi ℕ)) → String × Option Err →
    Host ℕ → Bool)
    (h : ((applyDesiredState bareProbes "desired").play (answerHost commits) 40 ⟨0, none⟩).any
      (fun x => P x.1 x.2.1 x.2.2) = true) :
    ∃ tr result h', Exec (answering commits) (applyDesiredState bareProbes "desired") ⟨0, none⟩ tr
      result h' ∧ P tr result h' = true :=
  Exec.exists_of_play (fun hanswer => hanswer) 40 _ _ P h

/-! ## Commits -/

section Probed

variable {W : Type} {env : Env (HostApi IP) W} {cfg : ProbeConfig IP} {desired : State} {w w' : W}
  {tr : List (Called (HostApi IP))}

/-- Among the calls `tr` are those of a check of the probe that passed. -/
def CheckedIn (env : Env (HostApi IP) W) (p : Probe IP) (tr : List (Called (HostApi IP))) : Prop :=
  ∃ deadline pre check post w w', Exec env (p.condition p.timeout deadline) w check (.ok true) w' ∧
    tr = pre ++ (check ++ post)

theorem checkedIn_of_poll {p : Probe IP} (h : Exec env p.poll w tr (.ok ()) w') :
    CheckedIn env p tr := by
  obtain ⟨start, w₁, tr₁, -, hpoll, rfl⟩ := Exec.of_perform h
  obtain ⟨pre, w₂, check, hcheck, rfl⟩ := Exec.of_poll_ok hpoll
  exact ⟨start + p.timeout, ⟨.now, start⟩ :: pre, check, [], w₂, w', hcheck, by simp⟩

theorem CheckedIn.append {p : Probe IP} (h : CheckedIn env p tr)
    (pre post : List (Called (HostApi IP))) : CheckedIn env p (pre ++ (tr ++ post)) := by
  obtain ⟨deadline, pre', check, post', w, w', hcheck, rfl⟩ := h
  exact ⟨deadline, pre ++ pre', check, post' ++ post, w, w', hcheck, by simp⟩

/-- Polls that all succeed have checked every probe. -/
theorem Polled.checkedIn {ps : List (Probe IP)} (h : Polled env ps tr (ps.map fun _ => .ok ())) :
    ∀ p ∈ ps, CheckedIn env p tr := by
  induction ps generalizing tr with
  | nil =>
    intro p hp
    cases hp
  | cons q ps ih =>
    obtain - | @⟨_, _, poll, polls, _, _, _, _, hq, hps⟩ := h
    intro p hp
    rcases List.mem_cons.mp hp with rfl | hp
    · exact (checkedIn_of_poll hq).append [] polls
    · have hlater := (ih hps p hp).append poll []
      rwa [List.append_nil] at hlater

/-- The calls are exactly: the polls of the external probes, a rollback, the application of the
desired state, one `nmstatectl show`, the polls, all successful, of the external probes that passed
before and of the internal probes, and a commit.  Each of these probes has had a check that passed
after the application, and the polls do nothing to the configuration. -/
def ProbedCommit (env : Env (HostApi IP) W) (cfg : ProbeConfig IP) (desired : State)
    (tr : List (Called (HostApi IP))) : Prop :=
  ∃ rs probes before cleared setOutput shown after r,
    Polled env (externalConnectivityProbes cfg) before rs ∧
    probes = passing (externalConnectivityProbes cfg) rs ++ internalConnectivityProbes cfg ∧
    Polled env probes after (probes.map fun _ => .ok ()) ∧
    (∀ p ∈ probes, CheckedIn env p after) ∧
    (∀ c ∈ before ++ after, HostOp.isReading c.1 = true) ∧
    tr = before ++ [⟨.nmstatectlRollback, cleared⟩,
        ⟨.nmstatectlSet desired desiredStateConfigurationTimeout, .ok setOutput⟩,
        ⟨.nmstatectlShow, .ok shown⟩] ++ after ++ [⟨.nmstatectlCommit, r⟩]

/-- **Commit only what has been probed.**  At any moment of an apply, if commit has been called,
then after the desired state was applied every probe that had passed before has passed again, and
nothing else has been done to the node. -/
theorem committed_only_if_probed (hx : Begun env (applyDesiredState cfg desired) w tr w')
    (hcommit : ¬ Uncommitted tr) : ProbedCommit env cfg desired tr := by
  rcases begun_apply_cases hx with hnot | hcourse
  · exact absurd hnot hcommit
  obtain ⟨probes, setOutput, opening, run, r, w₁, w₂, -, hopening, hrun, -, rfl⟩ := hcourse
  obtain ⟨before, cleared, w₃, w₄, hselect, -, -, rfl⟩ := hopening
  have hbefore := hselect.begun.only reads_selectProbes
  have hafter := hrun.begun.only (reads_runProbes (mem_standard_of_select hselect))
  obtain ⟨rs, hrs, hprobes⟩ := select_polled hselect
  obtain ⟨shown, after, rfl, hpolls⟩ := run_polled hrun
  refine ⟨rs, probes, before, cleared, setOutput, shown, after, r, hrs, hprobes, hpolls,
    hpolls.checkedIn, ?_, by simp⟩
  intro c hc
  rcases List.mem_append.mp hc with hc | hc
  · exact hbefore c hc
  · exact hafter c (List.mem_cons_of_mem _ hc)

/-- A commit is called where the node is ready and the API server answers. -/
theorem ready_node_commits : ∃ tr h', Begun (answering true)
    (applyDesiredState bareProbes "desired") ⟨0, none⟩ tr h' ∧
    ¬ Uncommitted tr ∧ ProbedCommit (answering true) bareProbes "desired" tr := by
  obtain ⟨tr, result, h', hx, hcommit⟩ := exists_apply true
    (fun tr _ _ => tr.any fun c => HostOp.isCommit c.1) (by decide +kernel)
  have hnot : ¬ Uncommitted tr := by
    obtain ⟨c, hmem, hc⟩ := List.any_eq_true.mp hcommit
    exact fun hnot => hnot c hmem (HostOp.eq_of_isCommit hc)
  exact ⟨tr, h', hx.begun, hnot, committed_only_if_probed hx.begun hnot⟩

end Probed

/-! ## Atomicity -/

section Atomic

variable {W ν : Type} {realizes : State → ν → ν → Prop} {host : W → Host ν}
  {env : Env (HostApi IP) W} {cfg : ProbeConfig IP} {desired : State} {w w' : W}
  {tr : List (Called (HostApi IP))}

theorem Opening.mem_standard {probes : List (Probe IP)} {setOutput : String}
    (ho : Opening env cfg desired probes setOutput w tr w') :
    ∀ p ∈ probes, p ∈ standardProbes cfg := by
  obtain ⟨before, cleared, w₁, w₂, hselect, -⟩ := ho
  exact mem_standard_of_select hselect

theorem Opening.onTop (hn : Nmstatectl realizes host env) {probes : List (Probe IP)}
    {setOutput : String} (ho : Opening env cfg desired probes setOutput w tr w') :
    OnTop realizes desired (host w).settled (host w') := by
  obtain ⟨before, cleared, w₁, w₂, hselect, hclear, hset, -⟩ := ho
  have hbefore : (host w₁).settled = (host w).settled :=
    (uncommitted_of_reads reads_selectProbes hselect.begun).settled hn hselect.begun
  have hcleared : (host w₂).settled = (host w₁).settled := hn.serve_settled (by simp) hclear
  rw [← hbefore, ← hcleared]
  exact .of_set hn hset

/-- An apply that is cut short has changed nothing, or has committed the desired state. -/
theorem begun_apply_settled (hn : Nmstatectl realizes host env)
    (hx : Begun env (applyDesiredState cfg desired) w tr w') :
    (host w').settled = (host w).settled ∨
      desired ≠ "" ∧ realizes desired (host w).settled (host w').settled := by
  rcases begun_apply_cases hx with hnot | hcourse
  · exact Or.inl (hnot.settled hn hx)
  obtain ⟨probes, setOutput, opening, run, r, w₁, w₂, hne, hopening, hrun, hs, -⟩ := hcourse
  have hreads := reads_runProbes hopening.mem_standard
  rcases ((hopening.onTop hn).of_reads hn hreads hrun.begun).commit hn hs with hkept | hnot
  · exact Or.inr ⟨hne, hkept⟩
  · exact Or.inl hnot.2

/-- An apply that reports no error has committed the desired state. -/
theorem exec_apply_realized (hn : Nmstatectl realizes host env) {result : String × Option Err}
    (hne : desired ≠ "") (hx : Exec env (applyDesiredState cfg desired) w tr result w')
    (hok : result.2 = none) : realizes desired (host w).settled (host w').settled := by
  rcases exec_apply_cases hne hx with hrefused | happlied
  · obtain ⟨probes, before, cleared, err, w₁, w₂, -, -, -, hresult, -⟩ := hrefused
    rw [hresult] at hok
    cases hok
  obtain ⟨probes, setOutput, opening, run, w₁, w₂, hopening, hend⟩ := happlied
  rcases hend with ⟨err, cause, rest, -, -, hresult, -⟩ | ⟨r, hrun, hs, hresult, -⟩
  · rw [hresult] at hok
    cases hok
  · obtain ⟨output, rfl⟩ := hresult.mp hok
    have hreads := reads_runProbes hopening.mem_standard
    rcases ((hopening.onTop hn).of_reads hn hreads hrun.begun).commit hn hs with hkept | hnot
    · exact hkept
    · obtain ⟨⟨err, herr⟩, -⟩ := hnot
      cases herr

/-- How an apply ended: without an error, with an error before commit was called, with an error of
commit, or with the death of the handler. -/
inductive Fate : Type where
  | applied : Fate
  | refused (err : Err) : Fate
  | commitFailed (err : Err) : Fate
  | killed : Fate
  deriving DecidableEq, Repr

/-- The end of an apply that made the calls `tr` and returned this error. -/
def fateOf (tr : List (Called (HostApi IP))) : Option Err → Fate
  | none => .applied
  | some err => if tr.any fun c => HostOp.isCommit c.1 then .commitFailed err else .refused err

variable (env cfg host) in
/-- What happens to a node: checkpoints expire, and handlers apply desired states one after the
other, to the end or until they are killed.  The log has the desired states and what became of
them. -/
inductive Life : W → List (State × Fate) → W → Prop where
  | start {w : W} : Life w [] w
  | expires {w w₁ w₂ : W} {log : List (State × Fate)} (hl : Life w log w₁)
      (he : (host w₁).Expires (host w₂)) : Life w log w₂
  | applied {w w₁ w₂ : W} {log : List (State × Fate)} {desired : State}
      {tr : List (Called (HostApi IP))} {result : String × Option Err} (hl : Life w log w₁)
      (hx : Exec env (applyDesiredState cfg desired) w₁ tr result w₂) :
      Life w (log ++ [(desired, fateOf tr result.2)]) w₂
  | killed {w w₁ w₂ : W} {log : List (State × Fate)} {desired : State}
      {tr : List (Called (HostApi IP))} (hl : Life w log w₁)
      (hx : Begun env (applyDesiredState cfg desired) w₁ tr w₂) :
      Life w (log ++ [(desired, .killed)]) w₂

/-- An apply in one step: with no error it makes the desired state hold, unless that is empty; with
an error before commit it does nothing; with an error of commit, or killed, it does one of the
two. -/
def AtomicApply (realizes : State → ν → ν → Prop) (desired : State) (c : ν) : Fate → ν → Prop
  | .applied, c' => if desired = "" then c' = c else realizes desired c c'
  | .refused _, c' => c' = c
  | .commitFailed _, c' => c' = c ∨ desired ≠ "" ∧ realizes desired c c'
  | .killed, c' => c' = c ∨ desired ≠ "" ∧ realizes desired c c'

/-- Applies in one step each, one after the other. -/
inductive AtomicLife (realizes : State → ν → ν → Prop) : ν → List (State × Fate) → ν → Prop where
  | start {c : ν} : AtomicLife realizes c [] c
  | applied {c c₁ c₂ : ν} {log : List (State × Fate)} {desired : State} {fate : Fate}
      (hl : AtomicLife realizes c log c₁) (ha : AtomicApply realizes desired c₁ fate c₂) :
      AtomicLife realizes c (log ++ [(desired, fate)]) c₂

theorem uncommitted_of_any (h : ¬ (tr.any fun c => HostOp.isCommit c.1) = true) :
    Uncommitted tr := by
  intro c hc heq
  refine h (List.any_eq_true.mpr ⟨c, hc, ?_⟩)
  rw [heq]
  rfl

theorem exec_apply_atomic (hn : Nmstatectl realizes host env) {result : String × Option Err}
    (hx : Exec env (applyDesiredState cfg desired) w tr result w') :
    AtomicApply realizes desired (host w).settled (fateOf tr result.2) (host w').settled := by
  rcases hresult : result.2 with _ | err
  · show if desired = "" then (host w').settled = (host w).settled
      else realizes desired (host w).settled (host w').settled
    by_cases hempty : desired = ""
    · unfold applyDesiredState at hx
      rw [if_pos hempty] at hx ⊢
      obtain ⟨-, rfl, -⟩ := hx.of_ret
      rfl
    · rw [if_neg hempty]
      exact exec_apply_realized hn hempty hx hresult
  · by_cases hcommit : (tr.any fun c => HostOp.isCommit c.1) = true
    · rw [fateOf, if_pos hcommit]
      exact begun_apply_settled hn hx.begun
    · rw [fateOf, if_neg hcommit]
      exact (uncommitted_of_any hcommit).settled hn hx.begun

/-- **Applies are atomic.**  Over the whole life of a node, with handlers killed anywhere and
checkpoints that expire at any moment, the settled configuration goes through the steps of atomic
applies with the same log. -/
theorem life_atomic (hn : Nmstatectl realizes host env) {log : List (State × Fate)}
    (hl : Life host env cfg w log w') :
    AtomicLife realizes (host w).settled log (host w').settled := by
  induction hl with
  | start => exact .start
  | expires _ he ih =>
    rw [he.settled]
    exact ih
  | applied _ hx ih => exact ih.applied (exec_apply_atomic hn hx)
  | killed _ hx ih => exact ih.applied (begun_apply_settled hn hx)

/-- A node whose handler applies a state and is killed when it applies the next one; the commit of
the first one fails, and its checkpoint expires. -/
theorem killed_life_atomic : ∃ h', Life id (answering false) bareProbes ⟨0, none⟩
    [("desired", .commitFailed (.other "commit")), ("desired", .killed)] h' ∧
    AtomicLife nextNumber 0
      [("desired", .commitFailed (.other "commit")), ("desired", .killed)] h'.settled := by
  obtain ⟨tr, result, h₁, hx, hend⟩ := exists_apply false
    (fun tr result h => fateOf tr result.2 = .commitFailed (.other "commit") ∧
      h.checkpoint = some 0) (by decide +kernel)
  obtain ⟨hfate, hcheckpoint⟩ := of_decide_eq_true hend
  have hexpired : h₁.Expires ⟨0, none⟩ := Or.inr ⟨0, hcheckpoint, rfl⟩
  obtain ⟨tr', result', h₂, hx', -⟩ := exists_apply false (fun _ _ _ => true) (by decide +kernel)
  have hlife : Life id (answering false) bareProbes ⟨0, none⟩
      [("desired", .commitFailed (.other "commit")), ("desired", .killed)] h₂ := by
    have hfirst : Life id (answering false) bareProbes ⟨0, none⟩
        ([] ++ [("desired", fateOf tr result.2)]) ⟨0, none⟩ :=
      (Life.start.applied hx).expires hexpired
    rw [hfate] at hfirst
    exact hfirst.killed hx'.begun
  exact ⟨h₂, hlife, life_atomic (nmstatectl_answering false) hlife⟩

end Atomic

/-! ## Checkpoints left behind -/

section Leftover

variable {W ν : Type} {realizes : State → ν → ν → Prop} {host : W → Host ν}
  {env : Env (HostApi IP) W} {cfg : ProbeConfig IP} {desired : State} {w w' : W}
  {tr : List (Called (HostApi IP))}

/-- A command on the node that has failed. -/
def failedCommand : Called (HostApi IP) → Bool
  | ⟨.nmstatectlSet _ _, .error _⟩ => true
  | ⟨.nmstatectlCommit, .error _⟩ => true
  | ⟨.nmstatectlRollback, .error _⟩ => true
  | _ => false

/-- The last call of the trace that is a command on the node has failed. -/
def LastCommandFailed (tr : List (Called (HostApi IP))) : Prop :=
  ∃ before c after, tr = before ++ c :: after ∧ failedCommand c = true ∧
    ∀ c ∈ after, HostOp.isReading c.1 = true

theorem lastCommandFailed_append {c : Called (HostApi IP)} (before : List (Called (HostApi IP)))
    (hc : failedCommand c = true) : LastCommandFailed (before ++ [c]) :=
  ⟨before, c, [], rfl, hc, by simp⟩

theorem checkpoint_none_of_reads (hn : Nmstatectl realizes host env) {α : Type}
    {p : HostProc IP α} (hp : Reads p) (hx : Begun env p w tr w')
    (hnone : (host w).checkpoint = none) : (host w').checkpoint = none := by
  refine hx.keeps (C := fun c => HostOp.isReading c.1 = true)
    (I := fun w => (host w).checkpoint = none) ?_ (hx.only hp) hnone
  intro o w₁ r w₂ ho hI hs
  rcases hn.reading ho hs with heq | ⟨saved, -, heq⟩
  · rw [heq, hI]
  · rw [heq]

/-- A rollback by the handler leaves no checkpoint, or its command has failed. -/
theorem rollback_leftover (hn : Nmstatectl realizes host env) {probes : List (Probe IP)}
    {cause e : Err} (hps : ∀ p ∈ probes, p ∈ standardProbes cfg)
    (hx : Exec env (rollback probes cause) w tr e w') :
    (host w').checkpoint = none ∨ ∃ err, tr = [⟨.nmstatectlRollback, .error err⟩] := by
  obtain ⟨r, w₁, tr₁, hs, hx₁, rfl⟩ := Exec.of_perform hx
  rcases r with err | ⟨⟩
  · obtain ⟨-, -, rfl⟩ := hx₁.of_ret
    exact Or.inr ⟨err, rfl⟩
  left
  dsimp only at hx₁
  obtain ⟨run, r, w₂, tr₂, hrun, hx₂, rfl⟩ := Exec.of_bind hx₁
  have hnone : (host w₂).checkpoint = none :=
    checkpoint_none_of_reads hn (reads_runProbes hps) hrun.begun (hn.rollback_ok hs)
  have hdone : w' = w₂ := by
    rcases r with err | ⟨⟩ <;> exact hx₂.of_ret.2.1
  rw [hdone, hnone]

/-- **No checkpoint is forgotten.**  When an apply returns and a checkpoint is left, the last
command on the node has failed. -/
theorem checkpoint_left_by_failed_command (hn : Nmstatectl realizes host env)
    {result : String × Option Err} (hne : desired ≠ "")
    (hx : Exec env (applyDesiredState cfg desired) w tr result w')
    (hleft : (host w').checkpoint ≠ none) : LastCommandFailed tr := by
  rcases exec_apply_cases hne hx with hrefused | happlied
  · obtain ⟨probes, before, cleared, err, w₁, w₂, -, -, -, -, rfl⟩ := hrefused
    rw [List.append_cons]
    exact lastCommandFailed_append _ rfl
  obtain ⟨probes, setOutput, opening, run, w₁, w₂, hopening, hend⟩ := happlied
  rcases hend with ⟨err, cause, rest, hrun, hroll, -, rfl⟩ | ⟨r, hrun, hs, -, rfl⟩
  · rcases rollback_leftover hn hopening.mem_standard hroll with hnone | ⟨err', rfl⟩
    · exact absurd hnone hleft
    · rw [← List.append_assoc]
      exact lastCommandFailed_append _ rfl
  · rcases r with err | output
    · rw [← List.append_assoc]
      exact lastCommandFailed_append _ rfl
    · obtain ⟨h, -, -, heq⟩ := hn.commit_ok hs
      rw [heq] at hleft
      exact absurd rfl hleft

/-- A commit that fails leaves its checkpoint. -/
theorem failed_commit_leaves_checkpoint : ∃ tr result h', Exec (answering false)
    (applyDesiredState bareProbes "desired") ⟨0, none⟩ tr result h' ∧ h'.checkpoint ≠ none ∧
    LastCommandFailed tr := by
  obtain ⟨tr, result, h', hx, hend⟩ := exists_apply false
    (fun _ _ h => h.checkpoint ≠ none) (by decide +kernel)
  have hleft := of_decide_eq_true hend
  exact ⟨tr, result, h', hx, hleft,
    checkpoint_left_by_failed_command (nmstatectl_answering false) (by decide) hx hleft⟩

end Leftover
