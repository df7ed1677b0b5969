/-
# Publishing the state of a node

`NodeReconciler.Reconcile` of `controllers/handler/node_controller.go` with
`CreateOrUpdateNodeNetworkState` of `pkg/client`: the handler observes the network state of its
node, filters it, and stores it in the status of the node's NodeNetworkState.

To spare the API server, nothing is written when the state is the one stored last, as far as the
reconciler remembers, or the one that is stored, as far as its cache shows.  What it remembers
survives the deletion of the object, the cache can lag behind, and a write can be made although its
reply is lost.  So an object without a status, a status that was written unnoticed, and an object
that is gone can all be taken for an up-to-date one (`published_state_stale`); otherwise what is
stored is what was observed (`published_state_current`).
-/
import KubernetesNmstate.Prog
import KubernetesNmstate.NetworkState

/-! ## Calls -/

/-- `NodeNetworkStateStatus`, the fields the handler writes. -/
structure NodeNetworkStateStatus where
  currentState : State := ""
  lastSuccessfulUpdateTime : Option Time := none
  handlerNmstateVersion : String := ""
  hostNetworkManagerVersion : String := ""
  deriving DecidableEq, Repr, Inhabited

/-- `NodeNetworkState`. -/
structure NodeNetworkState where
  resourceVersion : ℕ := 0
  status : NodeNetworkStateStatus := {}
  deriving DecidableEq, Repr, Inhabited

/-- The calls of a reconcile of the node. -/
inductive NodeOp : Type where
  | nmstatectlShow : NodeOp
  | getNodeNetworkState : NodeOp
  | getNode : NodeOp
  | nmstatectlVersion : NodeOp
  | networkManagerVersion : NodeOp
  | createNodeNetworkState : NodeOp
  | updateStatus (nns : NodeNetworkState) : NodeOp
  | now : NodeOp
  deriving DecidableEq, Repr, Inhabited

/-- The answer to each call. -/
@[reducible] def NodeOp.Resp : NodeOp → Type
  | nmstatectlShow => Except Err State
  | getNodeNetworkState => Except Err NodeNetworkState
  | getNode => Except Err Unit
  | nmstatectlVersion => Except Err String
  | networkManagerVersion => Except Err String
  | createNodeNetworkState => Except Err NodeNetworkState
  | updateStatus _ => Except Err Unit
  | now => Time

/-- The interface of the node reconciler. -/
abbrev NodeApi : Sig := ⟨NodeOp, NodeOp.Resp⟩

/-- A procedure of the node reconciler. -/
abbrev NodeProc (α : Type) : Type := Prog NodeApi α

/-- Issue one call. -/
def askNode (o : NodeOp) : NodeProc o.Resp := Prog.perform (S := NodeApi) o

/-! ## Procedures -/

/-- `DependencyVersions`. -/
structure DependencyVersions where
  handlerNmstateVersion : String
  hostNetworkManagerVersion : String
  deriving DecidableEq, Repr, Inhabited

/-- `getDependencyVersions`: a version that cannot be retrieved is empty. -/
def getDependencyVersions : NodeProc DependencyVersions := do
  let handlerNmstateVersion ← askNode .nmstatectlVersion
  let hostNetworkManagerVersion ← askNode .networkManagerVersion
  return ⟨handlerNmstateVersion.toOption.getD "", hostNetworkManagerVersion.toOption.getD ""⟩

/-- `InitializeNodeNetworkState`: the object as the API server has created it. -/
def initializeNodeNetworkState : NodeProc (Except Err NodeNetworkState) :=
  askNode .createNodeNetworkState

/-- `UpdateCurrentState`. -/
def updateCurrentState (nns : NodeNetworkState) (observedState : State)
    (versions : DependencyVersions) : NodeProc (Except Err Unit) := do
  if observedState = nns.status.currentState then return .ok ()
  else
    let now ← askNode .now
    askNode (.updateStatus
      { nns with status :=
        { currentState := observedState
          lastSuccessfulUpdateTime := some now
          handlerNmstateVersion := versions.handlerNmstateVersion
          hostNetworkManagerVersion := versions.hostNetworkManagerVersion } })

/-- `CreateOrUpdateNodeNetworkState`. -/
def createOrUpdateNodeNetworkState (observedState : State) (nns : Option NodeNetworkState)
    (versions : DependencyVersions) : NodeProc (Except Err Unit) := do
  match nns with
  | some nns => updateCurrentState nns observedState versions
  | none =>
    match ← initializeNodeNetworkState with
    | .error err => return .error err
    | .ok nns => updateCurrentState nns observedState versions

/-- What a reconcile remembers and returns after it has tried to store the state. -/
def memorize (lastState currentState : State) : Except Err Unit → State × Option Err
  | .error err => (lastState, some err)
  | .ok () => (currentState, none)

/-- `Reconcile` from the read of the NodeNetworkState on; `currentState` is the filtered state. -/
def publishState (lastState currentState : State) (nns : Option NodeNetworkState) :
    NodeProc (State × Option Err) := do
  if nns.isSome = true ∧ lastState = currentState then return (lastState, none)
  else
    match ← askNode .getNode with
    | .error .notFound => return (lastState, none)
    | .error err => return (lastState, some err)
    | .ok () =>
      let versions ← getDependencyVersions
      let r ← createOrUpdateNodeNetworkState currentState nns versions
      return memorize lastState currentState r

/-- `NodeReconciler.Reconcile`, with the state it remembers before and after. -/
def reconcileNode (yaml : Yaml) (lastState : State) : NodeProc (State × Option Err) := do
  match ← askNode .nmstatectlShow with
  | .error err => return (lastState, some err)
  | .ok currentStateRaw =>
    match filterOut yaml currentStateRaw with
    | .error err => return (lastState, some err)
    | .ok currentState =>
      match ← askNode .getNodeNetworkState with
      | .error .notFound => publishState lastState currentState none
      | .error err => return (lastState, some err)
      | .ok nns => publishState lastState currentState (some nns)

/-! ## Surroundings -/

/-- The NodeNetworkState at the API server, its earlier states, which the cache of the handler may
still show, and the last resource version that was given out. -/
structure NnsWorld where
  stored : Option NodeNetworkState
  older : List (Option NodeNetworkState) := []
  revision : ℕ := 0
  deriving DecidableEq, Repr, Inhabited

namespace NnsWorld

/-- Another object is stored, or none. -/
def replace (w : NnsWorld) (stored : Option NodeNetworkState) : NnsWorld :=
  ⟨stored, w.stored :: w.older, w.revision + 1⟩

/-- The object that is created next; it has no status. -/
def fresh (w : NnsWorld) : NodeNetworkState := ⟨w.revision + 1, {}⟩

/-- The status of the object is written. -/
def write (w : NnsWorld) (nns : NodeNetworkState) : NnsWorld :=
  w.replace (some ⟨w.revision + 1, nns.status⟩)

/-- The object is stored in the version this one was read in. -/
def Accepts (w : NnsWorld) (nns : NodeNetworkState) : Prop :=
  ∃ stored, w.stored = some stored ∧ stored.resourceVersion = nns.resourceVersion

end NnsWorld

/-- What an answer tells about the stored object.  The node exists; the object is read from a cache,
which shows it as it is or was; an object is created where there is none, and written in the version
that is stored. -/
def NodeOp.Truthful (w : NnsWorld) : (o : NodeOp) → o.Resp → Prop
  | .getNodeNetworkState, .ok nns => some nns ∈ w.stored :: w.older
  | .getNodeNetworkState, .error err => err = .notFound → none ∈ w.stored :: w.older
  | .getNode, .error err => err ≠ .notFound
  | .createNodeNetworkState, .ok nns => w.stored = none ∧ nns = w.fresh
  | .updateStatus nns, .ok () => w.Accepts nns
  | _, _ => True

/-- What an answered call does.  One that is answered with an error has no effect, or the reply to
it was lost. -/
def NodeOp.Effect (w : NnsWorld) : (o : NodeOp) → o.Resp → NnsWorld → Prop
  | .createNodeNetworkState, .ok _, w' => w' = w.replace (some w.fresh)
  | .createNodeNetworkState, .error _, w' =>
    w' = w ∨ w.stored = none ∧ w' = w.replace (some w.fresh)
  | .updateStatus nns, .ok _, w' => w' = w.write nns
  | .updateStatus nns, .error _, w' => w' = w ∨ w.Accepts nns ∧ w' = w.write nns
  | _, _, w' => w' = w

/-- An object that the cache shows is the stored one. -/
def NodeOp.Current (w : NnsWorld) : (o : NodeOp) → o.Resp → Prop
  | .getNodeNetworkState, .ok nns => w.stored = some nns
  | _, _ => True

/-- A write that is answered with an error has not been made. -/
def NodeOp.Sure (w : NnsWorld) : (o : NodeOp) → o.Resp → NnsWorld → Prop
  | .createNodeNetworkState, .error _, w' => w' = w
  | .updateStatus _, .error _, w' => w' = w
  | _, _, _ => True

/-- The surroundings of the node reconciler, which is the only one to write the object.  The cache
may be `lagging` or not, replies may be `lost` or not. -/
def nodeEnv (lagging lost : Bool) : Env NodeApi NnsWorld where
  serve w o r w' := (o.Truthful w r ∧ o.Effect w r w') ∧
    (lagging = false → o.Current w r) ∧ (lost = false → o.Sure w r w')

/-- What happens to the object and to the memory of the reconciler: others delete the object
between reconciles, and a reconcile makes the calls `tr`, which meet `ok`. -/
inductive Publishes (env : Env NodeApi NnsWorld) (yaml : Yaml) (ok : List (Called NodeApi) → Prop) :
    NnsWorld × State → NnsWorld × State → Prop where
  | refl {s : NnsWorld × State} : Publishes env yaml ok s s
  | deleted {s : NnsWorld × State} {w : NnsWorld} {lastState : State}
      (h : Publishes env yaml ok s (w, lastState)) :
      Publishes env yaml ok s (w.replace none, lastState)
  | reconciled {s : NnsWorld × State} {w w' : NnsWorld} {lastState lastState' : State}
      {err : Option Err} {tr : List (Called NodeApi)}
      (h : Publishes env yaml ok s (w, lastState)) (hok : ok tr)
      (hx : Exec env (reconcileNode yaml lastState) w tr (lastState', err) w') :
      Publishes env yaml ok s (w', lastState')

/-! ## What a reconcile does -/

/-- What an observer of the calls remembers: the state observed, whether the object was created,
and whether its status could not be written after that. -/
structure Publication where
  observed : Option State := none
  created : Bool := false
  halfCreated : Bool := false
  deriving DecidableEq, Repr, Inhabited

/-- The observer after an answered call. -/
def Publication.next (φ : Publication) : Called NodeApi → Publication
  | ⟨.nmstatectlShow, .ok raw⟩ => { φ with observed := some raw }
  | ⟨.createNodeNetworkState, .ok _⟩ => { φ with created := true }
  | ⟨.updateStatus _, .error _⟩ => { φ with halfCreated := φ.halfCreated || φ.created }
  | _ => φ

/-- The network state a reconcile observed. -/
def observedState (tr : List (Called NodeApi)) : Option State :=
  (Monitor.after Publication.next {} tr).observed

/-- A reconcile created the object and could not write its status. -/
def halfCreated (tr : List (Called NodeApi)) : Bool :=
  (Monitor.after Publication.next {} tr).halfCreated

/-- What the reconciler remembers is what is stored, if it remembers anything and anything is
stored. -/
def Coherent (w : NnsWorld) (lastState : State) : Prop :=
  lastState ≠ "" → ∀ nns, w.stored = some nns → nns.status.currentState = lastState

/-- The stored object has this state. -/
def NnsWorld.HasState (w : NnsWorld) (current : State) : Prop :=
  ∃ nns, w.stored = some nns ∧ nns.status.currentState = current

/-- The end of a reconcile: the memory is coherent unless an object was half created, and after
a success the observed state is stored, filtered. -/
def Published (yaml : Yaml) (result : State × Option Err) (w : NnsWorld) (φ : Publication) : Prop :=
  (φ.halfCreated = false → Coherent w result.1) ∧
    (result.2 = none → ∃ raw current, φ.observed = some raw ∧ filterOut yaml raw = .ok current ∧
      w.HasState current)

/-- `Follows` for a procedure of the node reconciler, observed, with a cache that keeps up and
replies that arrive. -/
abbrev NodeFollows {α : Type} (p : NodeProc α) (Q : α → NnsWorld → Publication → Prop)
    (w : NnsWorld) (φ : Publication) : Prop :=
  Follows (nodeEnv false false) (Monitor.observer _ Publication.next) p Q w φ

/-- One call and what follows it. -/
theorem nodeFollows_ask {α : Type} {o : NodeOp} {f : o.Resp → NodeProc α}
    {Q : α → NnsWorld → Publication → Prop} {w : NnsWorld} {φ : Publication}
    (h : ∀ r w', (nodeEnv false false).serve w o r w' → NodeFollows (f r) Q w' (φ.next ⟨o, r⟩)) :
    NodeFollows (askNode o >>= f) Q w φ := ⟨trivial, h⟩

/-- `UpdateCurrentState` of the stored object.  The state is stored, or nothing has changed. -/
theorem updateCurrentState_follows {nns : NodeNetworkState} {observed : State}
    {versions : DependencyVersions} {w : NnsWorld} {φ : Publication}
    (hstored : w.stored = some nns) :
    NodeFollows (updateCurrentState nns observed versions) (fun r w' φ' =>
      φ'.observed = φ.observed ∧ (r = .ok () → w'.HasState observed) ∧
      ∀ err, r = .error err → w' = w ∧ φ'.halfCreated = (φ.halfCreated || φ.created)) w φ := by
  unfold updateCurrentState
  split
  · rename_i heq
    exact ⟨rfl, fun _ => ⟨nns, hstored, heq.symm⟩, fun _ h => by cases h⟩
  · refine nodeFollows_ask fun now w₁ hnow => ⟨trivial, ?_⟩
    obtain ⟨⟨-, (rfl : w₁ = w)⟩, -⟩ := hnow
    rintro r w' ⟨⟨-, heffect⟩, -, hsure⟩
    rcases r with err | ⟨⟩
    · exact ⟨rfl, (fun h => by cases h), fun _ _ => ⟨hsure rfl, rfl⟩⟩
    · obtain rfl : w' = _ := heffect
      exact ⟨rfl, fun _ => ⟨_, rfl, rfl⟩, fun _ h => by cases h⟩

section

variable {yaml : Yaml} {raw current lastState : State}

/-- The last part of a reconcile, on the stored object: what was remembered stays coherent unless
the object has just been created. -/
theorem memorize_follows {nns : NodeNetworkState} {versions : DependencyVersions} {w : NnsWorld}
    {φ : Publication} (hstored : w.stored = some nns) (hfilter : filterOut yaml raw = .ok current)
    (hφ : φ.observed = some raw) (hhalf : φ.halfCreated = false)
    (hbefore : φ.created = false → Coherent w lastState) :
    NodeFollows (updateCurrentState nns current versions >>= fun r =>
      pure (memorize lastState current r)) (Published yaml) w φ := by
  refine (updateCurrentState_follows hstored).bind fun r w' φ' h => ?_
  obtain ⟨hobserved, hok, herror⟩ := h
  rcases r with err | ⟨⟩
  · obtain ⟨rfl, hφ'⟩ := herror err rfl
    refine ⟨fun hnot => hbefore ?_, fun h => by cases h⟩
    rw [hhalf, Bool.false_or] at hφ'
    exact hφ'.symm.trans hnot
  · obtain ⟨nns', hstored', hstate⟩ := hok rfl
    refine ⟨fun _ _ nns'' hstored'' => ?_,
      fun _ => ⟨raw, current, hobserved.trans hφ, hfilter, nns', hstored', hstate⟩⟩
    rw [hstored'] at hstored''
    obtain rfl := Option.some.inj hstored''
    exact hstate

/-- The rest of a reconcile, with the object as it was read; one that was not found may be there. -/
theorem publishState_follows {nns : Option NodeNetworkState} {w : NnsWorld} {φ : Publication}
    (hread : ∀ obj, nns = some obj → w.stored = some obj)
    (hfilter : filterOut yaml raw = .ok current) (hφ : φ.observed = some raw)
    (hhalf : φ.halfCreated = false) (hcoherent : Coherent w lastState) :
    NodeFollows (publishState lastState current nns) (Published yaml) w φ := by
  unfold publishState
  split
  · -- the state remembered is the state observed
    rename_i hskip
    obtain ⟨obj, rfl⟩ := Option.isSome_iff_exists.mp hskip.1
    have hne : lastState ≠ "" := hskip.2 ▸ filterOut_ne hfilter
    have hstored := hread obj rfl
    exact ⟨fun _ => hcoherent, fun _ => ⟨raw, current, hφ, hfilter, obj, hstored,
      (hcoherent hne obj hstored).trans hskip.2⟩⟩
  have hfail : ∀ err φ, Published yaml (lastState, some err) w φ := fun err φ =>
    ⟨fun _ => hcoherent, fun h => by cases h⟩
  refine nodeFollows_ask fun r w₁ hnode => ?_
  obtain ⟨⟨hexists, (rfl : w₁ = w)⟩, -⟩ := hnode
  rcases r with err | ⟨⟩
  · cases err with
    | notFound => exact absurd rfl hexists
    | _ => exact hfail _ _
  refine nodeFollows_ask fun _ w₂ hversion => nodeFollows_ask fun _ w₃ hversion' => ?_
  obtain ⟨⟨-, (rfl : w₂ = w₁)⟩, -⟩ := hversion
  obtain ⟨⟨-, (rfl : w₃ = w₂)⟩, -⟩ := hversion'
  cases nns with
  | some obj => exact memorize_follows (hread obj rfl) hfilter hφ hhalf fun _ => hcoherent
  | none =>
    refine nodeFollows_ask fun r w₄ hcreate => ?_
    obtain ⟨⟨htruth, heffect⟩, -, hsure⟩ := hcreate
    rcases r with err | obj
    · obtain rfl : w₄ = w₃ := hsure rfl
      exact hfail err _
    · obtain ⟨-, rfl⟩ := htruth
      obtain rfl : w₄ = _ := heffect
      exact memorize_follows rfl hfilter hφ hhalf fun h => by cases h

/-- **One reconcile**, from a coherent memory. -/
theorem reconcileNode_follows {w : NnsWorld} (hcoherent : Coherent w lastState) :
    NodeFollows (reconcileNode yaml lastState) (Published yaml) w {} := by
  have hfail : ∀ err φ, Published yaml (lastState, some err) w φ := fun err φ =>
    ⟨fun _ => hcoherent, fun h => by cases h⟩
  refine nodeFollows_ask fun r w₁ hshow => ?_
  obtain ⟨⟨-, (rfl : w₁ = w)⟩, -⟩ := hshow
  rcases r with err | raw
  · exact hfail err _
  dsimp only
  cases hfilter : filterOut yaml raw with
  | error err => exact hfail err _
  | ok current =>
    refine nodeFollows_ask fun r w₂ hget => ?_
    obtain ⟨⟨-, (rfl : w₂ = w₁)⟩, hcurrent, -⟩ := hget
    rcases r with err | nns
    · cases err with
      | notFound => exact publishState_follows nofun hfilter rfl rfl hcoherent
      | _ => exact hfail _ _
    · refine publishState_follows ?_ hfilter rfl rfl hcoherent
      rintro obj ⟨⟩
      exact hcurrent rfl

end

/-! ## Runs -/

/-- **The memory stays coherent** in every such run that creates no object halfway. -/
theorem Publishes.coherent {yaml : Yaml} {w₀ : NnsWorld} {s : NnsWorld × State}
    (h : Publishes (nodeEnv false false) yaml (fun tr => halfCreated tr = false) (w₀, "") s) :
    Coherent s.1 s.2 := by
  induction h with
  | refl => exact fun hne => absurd rfl hne
  | deleted h ih => exact fun _ nns hnone => by cases hnone
  | reconciled h hok hx ih => exact ((reconcileNode_follows ih).exec hx).1 hok

/-- **The published state is the observed one.**  In every run in which the cache shows no object
but the stored one, no write is made that is answered with an error, and no reconcile creates the
NodeNetworkState and then fails to write its status: a reconcile that returns no error leaves the
object stored with the filtered state it observed. -/
theorem published_state_current {yaml : Yaml} {w₀ w w' : NnsWorld} {lastState lastState' : State}
    {tr : List (Called NodeApi)}
    (hrun : Publishes (nodeEnv false false) yaml (fun tr => halfCreated tr = false) (w₀, "")
      (w, lastState))
    (hx : Exec (nodeEnv false false) (reconcileNode yaml lastState) w tr (lastState', none) w') :
    ∃ raw current, observedState tr = some raw ∧ filterOut yaml raw = .ok current ∧
      w'.HasState current :=
  ((reconcileNode_follows hrun.coherent).exec hx).2 rfl

/-! ## Runs played out -/

/-- A codec for which every network state is one without interfaces, unless it is `other`. -/
def bareYaml : Yaml where
  unmarshal text := .ok { interfaces := if text = "other" then [⟨"eth0", "ethernet", []⟩] else [] }
  marshal root := .ok (if root.interfaces.isEmpty then "interfaces: []\n" else "other")
  marshal_ne h := by
    obtain rfl := Except.ok.inj h
    split <;> decide

/-- What goes wrong in a reconcile. -/
inductive Trouble : Type where
  | none : Trouble
  | refused : Trouble
  | lost : Trouble
  | lagging : Trouble
  deriving DecidableEq, Repr

/-- What the cache shows: a lagging one the object before its last change. -/
def NnsWorld.shown (w : NnsWorld) (trouble : Trouble) : Option NodeNetworkState :=
  if trouble = .lagging then w.older.headD w.stored else w.stored

theorem NnsWorld.shown_mem (w : NnsWorld) (trouble : Trouble) :
    w.shown trouble ∈ w.stored :: w.older := by
  unfold NnsWorld.shown
  split
  · cases w.older with
    | nil => exact List.mem_cons_self
    | cons _ _ => exact List.mem_cons_of_mem _ List.mem_cons_self
  · exact List.mem_cons_self

/-- An API server that grants every call, except for writes of the status that it refuses or whose
replies get lost. -/
def answerNode (observed : State) (trouble : Trouble) (w : NnsWorld) :
    (o : NodeOp) → Option (o.Resp × NnsWorld)
  | .nmstatectlShow => some (.ok observed, w)
  | .getNodeNetworkState =>
    match w.shown trouble with
    | some nns => some (.ok nns, w)
    | none => some (.error .notFound, w)
  | .getNode => some (.ok (), w)
  | .nmstatectlVersion => some (.ok "2.2.0", w)
  | .networkManagerVersion => some (.ok "1.48.0", w)
  | .createNodeNetworkState =>
    if w.stored = none then some (.ok w.fresh, w.replace (some w.fresh))
    else some (.error (.other "exists"), w)
  | .updateStatus nns =>
    if (w.stored.map (·.resourceVersion)) = some nns.resourceVersion then
      match trouble with
      | .refused => some (.error (.other "refused"), w)
      | .lost => some (.error (.other "lost"), w.write nns)
      | _ => some (.ok (), w.write nns)
    else some (.error .conflict, w)
  | .now => some (1000, w)

section

variable {observed : State} {trouble : Trouble} {w w' : NnsWorld} {o : NodeOp} {r : o.Resp}

theorem serve_of_answerNode (h : answerNode observed trouble w o = some (r, w')) :
    (o.Truthful w r ∧ o.Effect w r w') ∧ (trouble ≠ .lagging → o.Current w r) ∧
      (trouble ≠ .lost → o.Sure w r w') := by
  cases o with
  | getNodeNetworkState =>
    have hmem := w.shown_mem trouble
    have hcurrent : trouble ≠ .lagging → w.shown trouble = w.stored := fun h => if_neg h
    simp only [answerNode] at h
    split at h <;> rename_i hshown <;> rw [hshown] at hmem hcurrent <;> cases h
    · exact ⟨⟨hmem, rfl⟩, fun ht => (hcurrent ht).symm, fun _ => trivial⟩
    · exact ⟨⟨fun _ => hmem, rfl⟩, fun _ => trivial, fun _ => trivial⟩
  | createNodeNetworkState =>
    simp only [answerNode] at h
    split at h <;> rename_i hstored <;> cases h
    · exact ⟨⟨⟨hstored, rfl⟩, rfl⟩, fun _ => trivial, fun _ => trivial⟩
    · exact ⟨⟨trivial, .inl rfl⟩, fun _ => trivial, fun _ => rfl⟩
  | updateStatus nns =>
    simp only [answerNode] at h
    split at h
    · rename_i hversion
      have haccepts : w.Accepts nns := Option.map_eq_some_iff.mp hversion
      cases trouble with
      | refused =>
        cases h
        exact ⟨⟨trivial, .inl rfl⟩, fun _ => trivial, fun _ => rfl⟩
      | lost =>
        cases h
        exact ⟨⟨trivial, .inr ⟨haccepts, rfl⟩⟩, fun _ => trivial, fun h => absurd rfl h⟩
      | _ =>
        cases h
        exact ⟨⟨haccepts, rfl⟩, fun _ => trivial, fun _ => trivial⟩
    · cases h
      exact ⟨⟨trivial, .inl rfl⟩, fun _ => trivial, fun _ => rfl⟩
  | _ =>
    cases h
    exact ⟨⟨trivial, rfl⟩, fun _ => trivial, fun _ => trivial⟩

end

/-- A reconcile of `bareYaml` against `answerNode`. -/
theorem exists_reconcileNode (lagging lost : Bool) (observed : State) (trouble : Trouble)
    (hlagging : trouble = .lagging → lagging = true) (hlost : trouble = .lost → lost = true)
    (w : NnsWorld) (lastState : State)
    (P : List (Called NodeApi) → State × Option Err → NnsWorld → Bool)
    (h : ((reconcileNode bareYaml lastState).play (answerNode observed trouble) 20 w).any
      (fun x => P x.1 x.2.1 x.2.2) = true) :
    ∃ tr result w', Exec (nodeEnv lagging lost) (reconcileNode bareYaml lastState) w tr result w' ∧
      P tr result w' = true := by
  refine Exec.exists_of_play (fun hanswer => ?_) 20 _ _ P h
  obtain ⟨hserve, hcurrent, hsure⟩ := serve_of_answerNode hanswer
  refine ⟨hserve, fun hnot => hcurrent fun h => ?_, fun hnot => hsure fun h => ?_⟩
  · exact absurd (hlagging h) (by simp [hnot])
  · exact absurd (hlost h) (by simp [hnot])

/-- The state of `bareYaml` without interfaces. -/
def bareState : State := "interfaces: []\n"

/-- The object as a first, undisturbed reconcile leaves it. -/
def bareWorld : NnsWorld :=
  ⟨some ⟨2, ⟨bareState, some 1000, "2.2.0", "1.48.0"⟩⟩, [some ⟨1, {}⟩, none], 2⟩

/-- The first reconcile, undisturbed. -/
theorem publishes_bareWorld {lagging lost : Bool} {ok : List (Called NodeApi) → Prop}
    (hok : ∀ tr, halfCreated tr = false → ok tr) :
    Publishes (nodeEnv lagging lost) bareYaml ok (⟨none, [], 0⟩, "") (bareWorld, bareState) := by
  obtain ⟨tr, result, w, hx, hP⟩ := exists_reconcileNode lagging lost
    "interfaces:\n" .none nofun nofun ⟨none, [], 0⟩ ""
    (fun tr result w => result = (bareState, none) && w = bareWorld && !halfCreated tr)
    (by decide +kernel)
  simp only [Bool.and_eq_true, decide_eq_true_eq, Bool.not_eq_true'] at hP
  obtain ⟨⟨rfl, rfl⟩, hwhole⟩ := hP
  exact .reconciled .refl (hok tr hwhole) hx

/-- In a run whose reconciles meet `ok`, one returns no error although the observed state is not
stored. -/
def GoesStale (env : Env NodeApi NnsWorld) (ok : List (Called NodeApi) → Prop) : Prop :=
  ∃ yaml w lastState tr lastState' w' raw current,
    Publishes env yaml ok (⟨none, [], 0⟩, "") (w, lastState) ∧
    Exec env (reconcileNode yaml lastState) w tr (lastState', none) w' ∧
    observedState tr = some raw ∧ filterOut yaml raw = .ok current ∧ ¬ w'.HasState current

/-- The last reconcile of a run that goes stale: it observes the state it remembers. -/
theorem goesStale_of_reconcile {lagging lost : Bool} {ok : List (Called NodeApi) → Prop}
    {w : NnsWorld} (trouble : Trouble) (hlagging : trouble = .lagging → lagging = true)
    (hlost : trouble = .lost → lost = true)
    (hrun : Publishes (nodeEnv lagging lost) bareYaml ok (⟨none, [], 0⟩, "") (w, bareState))
    (h : ((reconcileNode bareYaml bareState).play (answerNode "interfaces:\n" trouble) 20 w).any
      (fun x => observedState x.1 = some "interfaces:\n" && x.2.1 = (bareState, none) &&
        x.2.2 = w) = true)
    (hstale : w.stored.all (fun nns => nns.status.currentState ≠ bareState) = true) :
    GoesStale (nodeEnv lagging lost) ok := by
  obtain ⟨tr, result, w', hx, hP⟩ := exists_reconcileNode lagging lost "interfaces:\n" trouble
    hlagging hlost w bareState (fun tr result w' => observedState tr = some "interfaces:\n" &&
      result = (bareState, none) && w' = w) h
  simp only [Bool.and_eq_true, decide_eq_true_eq] at hP
  obtain ⟨⟨hobserved, rfl⟩, rfl⟩ := hP
  refine ⟨bareYaml, w', bareState, tr, bareState, w', _, bareState, hrun, hx, hobserved, rfl, ?_⟩
  rintro ⟨nns, hstored, hstate⟩
  rw [hstored] at hstale
  exact of_decide_eq_true hstale hstate

/-- **Each of the three conditions is needed.**  The state is stored, and observed again at the end.
In between the object is deleted and created again without its status; or it is deleted and the
cache still shows it; or another state is written whose reply is lost. -/
theorem published_state_stale :
    GoesStale (nodeEnv false false) (fun _ => True) ∧
    GoesStale (nodeEnv true false) (fun tr => halfCreated tr = false) ∧
    GoesStale (nodeEnv false true) (fun tr => halfCreated tr = false) := by
  refine ⟨?_, ?_, ?_⟩
  · obtain ⟨tr, result, w, hx, hP⟩ := exists_reconcileNode false false "interfaces:\n" .refused
      nofun nofun (bareWorld.replace none) bareState
      (fun _ result w => result = (bareState, some (.other "refused")) &&
        w = (bareWorld.replace none).replace (some ⟨4, {}⟩)) (by decide +kernel)
    simp only [Bool.and_eq_true, decide_eq_true_eq] at hP
    obtain ⟨rfl, rfl⟩ := hP
    exact goesStale_of_reconcile .none nofun nofun
      (.reconciled (.deleted (publishes_bareWorld fun _ _ => trivial)) trivial hx)
      (by decide +kernel) (by decide +kernel)
  · exact goesStale_of_reconcile .lagging (fun _ => rfl) nofun
      (.deleted (publishes_bareWorld fun _ h => h)) (by decide +kernel) (by decide +kernel)
  · obtain ⟨tr, result, w, hx, hP⟩ := exists_reconcileNode false true "other" .lost
      nofun (fun _ => rfl) bareWorld bareState
      (fun tr result w => result = (bareState, some (.other "lost")) &&
        w = bareWorld.write ⟨2, ⟨"other", some 1000, "2.2.0", "1.48.0"⟩⟩ && !halfCreated tr)
      (by decide +kernel)
    simp only [Bool.and_eq_true, decide_eq_true_eq, Bool.not_eq_true'] at hP
    obtain ⟨⟨rfl, rfl⟩, hwhole⟩ := hP
    exact goesStale_of_reconcile .none nofun nofun
      (.reconciled (publishes_bareWorld fun _ h => h) hwhole hx)
      (by decide +kernel) (by decide +kernel)

/-- Two reconciles with a deletion in between, all calls granted. -/
theorem published_state_current_recreated : ∃ w lastState tr lastState' w',
    Publishes (nodeEnv false false) bareYaml (fun tr => halfCreated tr = false) (⟨none, [], 0⟩, "")
      (w, lastState) ∧
    Exec (nodeEnv false false) (reconcileNode bareYaml lastState) w tr (lastState', none) w' ∧
    ∃ raw current, observedState tr = some raw ∧ filterOut bareYaml raw = .ok current ∧
      w'.HasState current := by
  have hrun : Publishes (nodeEnv false false) bareYaml (fun tr => halfCreated tr = false)
      (⟨none, [], 0⟩, "") (bareWorld.replace none, bareState) :=
    .deleted (publishes_bareWorld fun _ h => h)
  obtain ⟨tr, result, w', hx, hP⟩ := exists_reconcileNode false false "interfaces:\n" .none
    nofun nofun (bareWorld.replace none) bareState
    (fun _ result _ => result = (bareState, none)) (by decide +kernel)
  obtain rfl := of_decide_eq_true hP
  exact ⟨_, _, tr, _, w', hrun, hx, published_state_current hrun hx⟩
