/-
# When the handler reconciles a policy

The watches of the policy controller (`nodenetworkconfigurationpolicy_controller.go`).  A policy is
reconciled when it is created, deleted or gets another generation, and all policies are reconciled
when the labels of this node change; every other event is filtered out, among them each write of a
policy's status.

The controller is an instance of `Controller`.  `Reconcile` reads the cache twice before it decides
whether the policy is for this node: the policy first, the labels of the node later, with events in
between.  `reconcile_does_as_read` ties these two reads to the procedure `reconcile`.

A policy that is deleted and created again is seen as one update when the watch was cut off in
between, and both objects can have the same generation.  Such an update is filtered out whatever
the specs are, so it is excluded in `Foreseen`, as are a failing list of the policies, which
`allPolicies` only logs, and a node object that is created or deleted while the handler runs.
-/
import KubernetesNmstate.Frames
import KubernetesNmstate.Executions
import KubernetesNmstate.Watching

/-! ## The watches -/

/-- `onCreateOrUpdateWithDifferentGenerationOrDelete`. -/
def onCreateOrUpdateWithDifferentGenerationOrDelete : EventFilter Policy where
  create _ := true
  update objectOld objectNew := objectNew.generation ≠ objectOld.generation
  delete _ := true

/-- `onLabelsUpdatedForThisNode`. -/
def onLabelsUpdatedForThisNode (nodeName : NodeName) : EventFilter Node where
  create _ := false
  update objectOld objectNew := objectOld.labels ≠ objectNew.labels ∧ objectNew.name = nodeName
  delete _ := false

/-- `allPolicies`, on what listing the policies gives. -/
def allPolicies : Except Err (List Policy) → List String
  | .error _ => []
  | .ok policies => (policies.mergeSort fun p q => p.name ≤ q.name).map Policy.name

/-- The part of the handler's cache the controller looks at. -/
structure HandlerCache where
  policies : ObjectCache Policy.name
  nodes : ObjectCache Node.name

/-- What the two watches report.  `listErr` is the error of the list of policies that handling a
node event makes. -/
inductive HandlerEvent : Type where
  | policy (e : ObjectEvent Policy) : HandlerEvent
  | node (e : ObjectEvent Node) (listErr : Option Err) : HandlerEvent

/-- The cache after an event. -/
def HandlerCache.change (s : HandlerCache) : HandlerEvent → HandlerCache
  | .policy e => { s with policies := e.apply s.policies }
  | .node e _ => { s with nodes := e.apply s.nodes }

/-- `client.List` of the policies. -/
def HandlerCache.listPolicies (s : HandlerCache) : Option Err → Except Err (List Policy)
  | some err => .error err
  | none => .ok s.policies.items

/-- The requests of an event: the watches of `SetupWithManager`. -/
def HandlerCache.requests (nodeName : NodeName) (s : HandlerCache) : HandlerEvent → List String
  | .policy e =>
    if onCreateOrUpdateWithDifferentGenerationOrDelete.passes e then [e.key Policy.name] else []
  | .node e listErr =>
    if (onLabelsUpdatedForThisNode nodeName).passes e then allPolicies (s.listPolicies listErr)
    else []

theorem mem_allPolicies {policies : List Policy} {name : String} :
    name ∈ allPolicies (.ok policies) ↔ ∃ p ∈ policies, p.name = name := by
  rw [allPolicies, List.mem_map]
  constructor
  · rintro ⟨p, hp, rfl⟩
    exact ⟨p, List.mem_mergeSort.mp hp, rfl⟩
  · rintro ⟨p, hp, rfl⟩
    exact ⟨p, List.mem_mergeSort.mpr hp, rfl⟩

/-! ## What a reconcile goes by -/

/-- What `Reconcile` decides by: the policy it read, and the labels of the node. -/
structure PolicyView where
  spec : PolicySpec
  generation : Generation
  labels : Option Labels
  deriving DecidableEq, Repr

/-- The labels of this node. -/
def HandlerCache.labels (nodeName : NodeName) (s : HandlerCache) : Option Labels :=
  (s.nodes.get nodeName).map Node.labels

/-- The view of a policy read in one cache, with the labels read in another. -/
def policyView (nodeName : NodeName) (name : String) (first second : HandlerCache) :
    Option PolicyView :=
  (first.policies.get name).map fun p => ⟨p.spec, p.generation, second.labels nodeName⟩

/-- What the reads of a `Reconcile` add up to. -/
def readView (nodeName : NodeName) (name : String) : List HandlerCache → Option PolicyView
  | first :: second :: _ => policyView nodeName name first second
  | _ => none

/-- The reads a `Reconcile` needs to end without an error: the policy is not found, or it is and so
are the labels. -/
def readsEnough (nodeName : NodeName) (name : String) : List HandlerCache → Bool
  | [] => false
  | [first] => (first.policies.get name).isNone
  | first :: second :: _ =>
    (first.policies.get name).isNone || (second.labels nodeName).isSome

/-- The policy controller of the handler on a node.  It keeps for each policy what the last
`Reconcile` that ended well went by, and nothing for a policy that was gone. -/
def policyController (nodeName : NodeName) :
    Controller HandlerCache HandlerEvent String String (String → Option PolicyView)
      (Option PolicyView) where
  change := HandlerCache.change
  requests := HandlerCache.requests nodeName
  slot := id
  succeeds := readsEnough nodeName
  act reconciled name seen := Function.update reconciled name (readView nodeName name seen)
  shows reconciled name := reconciled name
  digest s name := policyView nodeName name s s

/-- The policy controller at work. -/
abbrev PolicyControllerState : Type :=
  ControllerState HandlerCache HandlerEvent String (String → Option PolicyView)

/-- The events the watches are made for. -/
def Foreseen (nodeName : NodeName) (s : HandlerCache) : HandlerEvent → Prop
  | .policy e => e.Reports s.policies ∧ ∀ objectOld objectNew, e = .update objectOld objectNew →
      objectNew.generation = objectOld.generation → objectNew.spec = objectOld.spec
  | .node e listErr => e.Reports s.nodes ∧ listErr = none ∧
      (e.key Node.name = nodeName → ∃ objectOld objectNew, e = .update objectOld objectNew)

/-- The handler has synced its cache: every policy is queued, and none was reconciled yet. -/
structure Synced (s : PolicyControllerState) : Prop where
  queued : ∀ p ∈ s.cache.policies.items, p.name ∈ s.queue
  idle : s.work = none
  fresh : ∀ name, s.own name = none

/-! ## No change is missed -/

section

variable {nodeName : NodeName}

/-- An event of one policy leaves the view of another alone. -/
theorem policyView_change_policy {s : HandlerCache} {e : ObjectEvent Policy} {name : String}
    (h : name ≠ e.key Policy.name) :
    policyView nodeName name (s.change (.policy e)) (s.change (.policy e)) =
      policyView nodeName name s s := by
  show ((e.apply s.policies).get name).map _ = _
  rw [ObjectEvent.get_apply_of_ne s.policies e h]
  rfl

/-- An event that changes the view of a policy passes the filter. -/
theorem asks_of_policy {s : HandlerCache} {e : ObjectEvent Policy} {name : String}
    (hok : Foreseen nodeName s (.policy e))
    (hne : policyView nodeName name (s.change (.policy e)) (s.change (.policy e)) ≠
      policyView nodeName name s s) :
    onCreateOrUpdateWithDifferentGenerationOrDelete.passes e = true ∧
      e.key Policy.name = name := by
  have hkey : e.key Policy.name = name := by
    by_contra hkey
    exact hne (policyView_change_policy fun h => hkey h.symm)
  refine ⟨?_, hkey⟩
  cases e with
  | create object => rfl
  | delete object => rfl
  | update objectOld objectNew =>
    obtain ⟨hreports, hspec⟩ := hok
    subst hkey
    refine decide_eq_true fun hgen => hne ?_
    -- with the generation the spec is the same, and with both the view
    have hnew : (s.change (.policy (.update objectOld objectNew))).policies.get objectNew.name =
        some objectNew := ObjectEvent.get_apply_update s.policies objectOld objectNew
    have hwas : s.policies.get objectNew.name = some objectOld := hreports.get_old
    show policyView nodeName objectNew.name _ _ = policyView nodeName objectNew.name _ _
    rw [policyView, policyView, hnew, hwas, Option.map_some, Option.map_some, hgen,
      hspec objectOld objectNew rfl hgen]
    rfl

/-- A node event that changes the view of a policy is a change of this node's labels. -/
theorem passes_of_node {s : HandlerCache} {e : ObjectEvent Node} {listErr : Option Err}
    {name : String} (hok : Foreseen nodeName s (.node e listErr))
    (hne : policyView nodeName name (s.change (.node e listErr)) (s.change (.node e listErr)) ≠
      policyView nodeName name s s) :
    (onLabelsUpdatedForThisNode nodeName).passes e = true ∧
      ∃ p, s.policies.get name = some p := by
  obtain ⟨hreports, -, hupdate⟩ := hok
  have hlabels : (s.change (.node e listErr)).labels nodeName ≠ s.labels nodeName := by
    intro h
    refine hne ?_
    rw [policyView, policyView, h]
    rfl
  have hkey : e.key Node.name = nodeName := by
    by_contra hkey
    refine hlabels ?_
    show ((e.apply s.nodes).get nodeName).map _ = _
    rw [ObjectEvent.get_apply_of_ne s.nodes e fun h => hkey h.symm]
    rfl
  refine ⟨?_, ?_⟩
  · obtain ⟨objectOld, objectNew, rfl⟩ := hupdate hkey
    subst hkey
    refine decide_eq_true ⟨fun hsame => hlabels ?_, rfl⟩
    have hnew : (s.change (.node (.update objectOld objectNew) listErr)).nodes.get
        objectNew.name = some objectNew :=
      ObjectEvent.get_apply_update s.nodes objectOld objectNew
    have hwas : s.nodes.get objectNew.name = some objectOld := hreports.get_old
    show HandlerCache.labels objectNew.name _ = HandlerCache.labels objectNew.name _
    rw [HandlerCache.labels, HandlerCache.labels, hnew, hwas, Option.map_some, Option.map_some,
      hsame]
  · cases hp : s.policies.get name with
    | some p => exact ⟨p, rfl⟩
    | none =>
      refine absurd ?_ hne
      have hafter : (s.change (.node e listErr)).policies.get name = none := hp
      rw [policyView, policyView, hp, hafter]
      rfl

theorem asks_policy {s : HandlerCache} {e : ObjectEvent Policy} {name : String} :
    (policyController nodeName).Asks s (.policy e) name ↔
      onCreateOrUpdateWithDifferentGenerationOrDelete.passes e = true ∧
        e.key Policy.name = name := by
  show (∃ k ∈ HandlerCache.requests nodeName s (.policy e), k = name) ↔ _
  rw [HandlerCache.requests]
  split
  case isTrue h => simp [h, eq_comm]
  case isFalse h => simp [h]

theorem asks_node {s : HandlerCache} {e : ObjectEvent Node} {name : String} :
    (policyController nodeName).Asks s (.node e none) name ↔
      (onLabelsUpdatedForThisNode nodeName).passes e = true ∧
        ∃ p, s.policies.get name = some p := by
  show (∃ k ∈ HandlerCache.requests nodeName s (.node e none), k = name) ↔ _
  rw [HandlerCache.requests, HandlerCache.listPolicies]
  split
  case isTrue h =>
    simp [h, mem_allPolicies, ObjectCache.get_eq_some_iff]
  case isFalse h => simp [h]

/-- A change of labels still asks for a policy when it is handled later, unless the policy has gone:
then its deletion does. -/
theorem still_asks_node {s : HandlerCache} {e : ObjectEvent Node} {later : HandlerEvent}
    {name : String} (h : (policyController nodeName).Asks s (.node e none) name) :
    (policyController nodeName).Asks (s.change later) (.node e none) name ∨
      (policyController nodeName).Asks (s.change later) later name := by
  obtain ⟨hpasses, p, hp⟩ := asks_node.mp h
  cases later with
  | node later listErr => exact Or.inl (asks_node.mpr ⟨hpasses, p, hp⟩)
  | policy later =>
    by_cases hkey : name = later.key Policy.name
    · cases later with
      | create object =>
        exact Or.inl (asks_node.mpr ⟨hpasses, object,
          (s.policies.get_put object name).trans (if_pos hkey)⟩)
      | update objectOld objectNew =>
        exact Or.inl (asks_node.mpr ⟨hpasses, objectNew,
          (s.policies.get_put objectNew name).trans (if_pos hkey)⟩)
      | delete object => exact Or.inr (asks_policy.mpr ⟨rfl, hkey.symm⟩)
    · refine Or.inl (asks_node.mpr ⟨hpasses, p, ?_⟩)
      exact (ObjectEvent.get_apply_of_ne s.policies later hkey).trans hp

/-- Reads that agree on the view of a policy are as good as one. -/
theorem readView_of_agree {name : String} {seen : List HandlerCache} {shown : Option PolicyView}
    (henough : readsEnough nodeName name seen = true)
    (hagree : ∀ s ∈ seen, policyView nodeName name s s = shown) :
    readView nodeName name seen = shown := by
  match seen, henough, hagree with
  | [first], henough, hagree =>
    rw [← hagree first List.mem_cons_self, policyView, Option.isNone_iff_eq_none.mp henough]
    rfl
  | first :: second :: rest, henough, hagree =>
    have hfirst := hagree first List.mem_cons_self
    have hsecond := hagree second (List.mem_cons_of_mem _ List.mem_cons_self)
    show policyView nodeName name first second = shown
    cases hp : first.policies.get name with
    | none =>
      rw [← hfirst, policyView, policyView, hp]
      rfl
    | some p =>
      rw [policyView, hp] at hfirst
      -- the second read sees the policy too, so both views give the labels
      cases hq : second.policies.get name with
      | none =>
        rw [policyView, hq, ← hfirst] at hsecond
        cases hsecond
      | some q =>
        rw [policyView, hq, ← hfirst, Option.map_some, Option.map_some, Option.some_inj,
          PolicyView.mk.injEq] at hsecond
        rw [policyView, hp, ← hfirst, Option.map_some, Option.map_some, hsecond.2.2]

theorem policyController_sound (nodeName : NodeName) :
    (policyController nodeName).Sound (Foreseen nodeName) (fun _ => True) where
  notices s e name hok hne := by
    cases e with
    | policy e => exact asks_policy.mpr (asks_of_policy hok hne)
    | node e listErr =>
      obtain ⟨hpasses, p, hp⟩ := passes_of_node hok hne
      obtain ⟨-, rfl, -⟩ := hok
      exact asks_node.mpr ⟨hpasses, p, hp⟩
  still_asks s e later name _ h := by
    cases e with
    | policy e => exact Or.inl (asks_policy.mpr (asks_policy.mp h))
    | node e listErr =>
      cases listErr with
      | none => exact still_asks_node h
      | some err =>
        -- a failed list asks for nothing
        obtain ⟨k, hk, -⟩ := h
        have hnil : (policyController nodeName).requests s (.node e (some err)) = [] := ite_self _
        rw [hnil] at hk
        cases hk
  inv_act _ _ _ _ _ := trivial
  shows_slot reconciled name seen shown _ henough hagree :=
    (Function.update_self ..).trans (readView_of_agree henough hagree)
  shows_other _ _ _ _ _ _ hne := Function.update_of_ne hne ..

theorem Synced.covered {start : PolicyControllerState} (h : Synced start) (name : String) :
    (policyController nodeName).Covered start name := by
  cases hp : start.cache.policies.get name with
  | some p =>
    obtain ⟨hmem, rfl⟩ := ObjectCache.get_eq_some_iff.mp hp
    exact Or.inl (Or.inl ⟨p.name, h.queued p hmem, rfl⟩)
  | none =>
    refine Or.inr (Or.inr ⟨fun k seen hwork => ?_, ?_⟩)
    · rw [h.idle] at hwork
      cases hwork
    · show start.own name = policyView nodeName name start.cache start.cache
      rw [h.fresh name, policyView, hp]
      rfl

/-- **No change of a policy is missed.**  From the moment the handler has synced its cache, in any
order of events, their handling, reads, failures and retries: once nothing is queued or at work for
a policy, the last `Reconcile` of it went by the spec, the generation and the node labels there are
now, and a policy that is gone was seen to be gone. -/
theorem no_policy_change_missed {start s : PolicyControllerState} {name : String}
    (hstart : Synced start)
    (hrun : (policyController nodeName).Run (Foreseen nodeName) (fun _ => True) start s)
    (hawaited : ¬ (policyController nodeName).Awaited s name)
    (hwork : ∀ k seen, s.work = some (k, seen) → k ≠ name) :
    s.own name = (s.cache.policies.get name).map fun p =>
      ⟨p.spec, p.generation, (s.cache.nodes.get nodeName).map Node.labels⟩ :=
  hrun.shows (policyController_sound nodeName) trivial hstart.covered hawaited hwork

end

/-! A handler whose node loses a label between the two reads of a `Reconcile`. -/

/-- A policy for the nodes that have a label. -/
def webPolicy : Policy where
  name := "web"
  generation := 1
  resourceVersion := 7
  spec := { nodeSelector := [("role", "web")] }
  status := {}

/-- The node, with and without it. -/
def webNode (labels : Labels) : Node := { name := "node01", labels := labels }

/-- The cache, when the node has these labels. -/
def webCache (labels : Labels) : HandlerCache where
  policies := ⟨[webPolicy], List.nodup_singleton _⟩
  nodes := ⟨[webNode labels], List.nodup_singleton _⟩

/-- The label is taken away. -/
def relabelling : HandlerEvent :=
  .node (.update (webNode [("role", "web")]) (webNode [])) none

/-- The handler has just synced. -/
def webSynced : PolicyControllerState where
  cache := webCache [("role", "web")]
  pending := []
  queue := ["web"]
  work := none
  own _ := none

/-- The cache after it. -/
def unlabelled : HandlerCache := (webCache [("role", "web")]).change relabelling

/-- A `Reconcile` of the policy is under way. -/
def webReading (s : PolicyControllerState) (seen : List HandlerCache) :
    PolicyControllerState :=
  { s with queue := s.queue.filter fun k => k ≠ "web", work := some ("web", seen) }

/-- The label goes while the handler is at this point. -/
def relabelled (s : PolicyControllerState) : PolicyControllerState :=
  { s with cache := unlabelled, pending := [relabelling] }

/-- A `Reconcile` went by these two reads. -/
def webReconciled (s : PolicyControllerState) (first second : HandlerCache) :
    PolicyControllerState :=
  { s with own := Function.update s.own "web" (policyView "node01" "web" first second),
           work := none }

/-- The first `Reconcile` read the policy while the label was there, and the labels without it. -/
def webMixed : PolicyControllerState :=
  webReconciled (relabelled (webReading webSynced [webCache [("role", "web")], unlabelled]))
    (webCache [("role", "web")]) unlabelled

/-- The new labels are noticed. -/
def webNoticed : PolicyControllerState :=
  { webMixed with
    pending := []
    queue := webMixed.queue ++ HandlerCache.requests "node01" unlabelled relabelling }

/-- The second `Reconcile` is through. -/
def webSettled : PolicyControllerState :=
  webReconciled (webReading webNoticed [unlabelled, unlabelled]) unlabelled unlabelled

/-- A step of this handler. -/
abbrev WebStep := (policyController "node01").Step (Foreseen "node01") fun _ => True

theorem foreseen_relabelling : Foreseen "node01" (webCache [("role", "web")]) relabelling :=
  ⟨⟨rfl, rfl⟩, rfl, fun _ => ⟨_, _, rfl⟩⟩

theorem web_read (s : PolicyControllerState) (seen : List HandlerCache) :
    WebStep (webReading s seen) (webReading s (seen ++ [s.cache])) := .read rfl

theorem web_complete (s : PolicyControllerState) {first second : HandlerCache}
    (hwork : s.work = some ("web", [first, second]))
    (henough : readsEnough "node01" "web" [first, second] = true) :
    WebStep s (webReconciled s first second) := .complete hwork henough

theorem web_run_noticed : Relation.ReflTransGen WebStep webSynced webNoticed := by
  have htake : WebStep webSynced (webReading webSynced []) := .take List.mem_cons_self rfl
  have hpolicy : WebStep (webReading webSynced [])
      (webReading webSynced [webCache [("role", "web")]]) := web_read webSynced []
  have hevent : WebStep (webReading webSynced [webCache [("role", "web")]])
      (relabelled (webReading webSynced [webCache [("role", "web")]])) :=
    .event (e := relabelling) foreseen_relabelling
  have hlabels : WebStep (relabelled (webReading webSynced [webCache [("role", "web")]]))
      (relabelled (webReading webSynced [webCache [("role", "web")], unlabelled])) := by
    have hwork : (relabelled (webReading webSynced [webCache [("role", "web")]])).work =
        some ("web", [webCache [("role", "web")]]) := rfl
    exact .read hwork
  have hdone : WebStep
      (relabelled (webReading webSynced [webCache [("role", "web")], unlabelled])) webMixed :=
    web_complete _ rfl rfl
  have hhandle : WebStep webMixed webNoticed := by
    have hpending : webMixed.pending = [] ++ relabelling :: [] := rfl
    exact .handle hpending
  exact (((((Relation.ReflTransGen.single htake).tail hpolicy).tail hevent).tail hlabels).tail
    hdone).tail hhandle

theorem web_mem_queue : "web" ∈ webNoticed.queue := by
  have hpasses : (onLabelsUpdatedForThisNode "node01").passes
      (.update (webNode [("role", "web")]) (webNode [])) = true := rfl
  have hpolicy : unlabelled.policies.get "web" = some webPolicy := rfl
  obtain ⟨k, hk, rfl⟩ := asks_node.mpr ⟨hpasses, webPolicy, hpolicy⟩
  exact List.mem_append_right _ hk

theorem web_run : Relation.ReflTransGen WebStep webSynced webSettled := by
  have htake : WebStep webNoticed (webReading webNoticed []) := .take web_mem_queue rfl
  have hpolicy : WebStep (webReading webNoticed []) (webReading webNoticed [unlabelled]) :=
    web_read webNoticed []
  have hlabels : WebStep (webReading webNoticed [unlabelled])
      (webReading webNoticed [unlabelled, unlabelled]) := web_read webNoticed [unlabelled]
  have hdone : WebStep (webReading webNoticed [unlabelled, unlabelled]) webSettled :=
    web_complete _ rfl rfl
  exact (((web_run_noticed.tail htake).tail hpolicy).tail hlabels).tail hdone

theorem web_settled_not_awaited : ¬ (policyController "node01").Awaited webSettled "web" := by
  rintro (⟨k, hk, rfl⟩ | ⟨e, he, -⟩)
  · exact of_decide_eq_true (List.mem_filter.mp hk).2 rfl
  · cases he

theorem relabelling_not_missed :
    webSettled.own "web" = some ⟨{ nodeSelector := [("role", "web")] }, 1, some []⟩ := by
  have hsynced : Synced webSynced :=
    ⟨fun p hp => List.mem_singleton.mp hp ▸ List.mem_cons_self, rfl, fun _ => rfl⟩
  exact no_policy_change_missed hsynced web_run web_settled_not_awaited fun _ _ h => by cases h

/-! ## What the reads decide -/

/-- The surroundings answer the two cached reads of a `Reconcile` from these caches. -/
structure Answers {W : Type} (env : Env Api W) (nodeName : NodeName) (name : String)
    (first second : HandlerCache) : Prop where
  policy : ∀ w r w', env.serve w (.getPolicy .cached .reconcile) r w' →
    r = (first.policies.get name).elim (.error .notFound) .ok
  labels : ∀ w r w', env.serve w (.getNodeLabels .cached) r w' →
    r = (second.labels nodeName).elim (.error .notFound) .ok

/-- The policy is for a node with these labels. -/
def PolicyView.selects (view : PolicyView) : Bool :=
  match view.labels with
  | some labels => matchesLabels view.spec.nodeSelector labels
  | none => false

/-- A call that applies a state to the host. -/
def Op.applies : Op → Bool
  | .applyDesiredState _ => true
  | _ => false

/-- The enactment was deleted, or there was none. -/
def enactmentGone : Called Api → Bool
  | ⟨.deleteEnactment, .ok ()⟩ => true
  | ⟨.deleteEnactment, .error .notFound⟩ => true
  | _ => false

/-- Among these calls none applies a state. -/
def Harmless (tr : List (Called Api)) : Prop := ∀ c ∈ tr, c.1.applies = false

/-- What a `Reconcile` that goes by a view does: it applies a state only if the policy is for the
node, and otherwise it ends well only with the enactment gone. -/
structure GoesBy (view : Option PolicyView) (tr : List (Called Api)) (err : Option Err) :
    Prop where
  applies : Harmless tr ∨ ∃ v, view = some v ∧ v.selects = true
  gone : err = none → (∃ c ∈ tr, enactmentGone c = true) ∨ ∃ v, view = some v ∧ v.selects = true

/-- The same for the reads themselves; a `Reconcile` that ends well has read enough. -/
structure DoesAsRead (nodeName : NodeName) (name : String) (seen : List HandlerCache)
    (tr : List (Called Api)) (err : Option Err) : Prop
    extends GoesBy (readView nodeName name seen) tr err where
  enough : err = none → readsEnough nodeName name seen = true

section

variable {W : Type} {env : Env Api W} {w w' : W} {tr before after : List (Called Api)}
  {view : Option PolicyView} {err : Option Err}

theorem Harmless.nil : Harmless [] := by
  intro c hc
  cases hc

theorem Harmless.append (h : Harmless before) (h' : Harmless after) :
    Harmless (before ++ after) := by
  intro c hc
  rcases List.mem_append.mp hc with hc | hc
  · exact h c hc
  · exact h' c hc

theorem Harmless.single {c : Called Api} (h : c.1.applies = false) : Harmless [c] := by
  intro c' hc'
  rwa [List.mem_singleton.mp hc']

theorem Exec.harmless_of_aloof {α : Type} {p : Proc α} {a : α} (h : Exec env p w tr a w')
    (hp : Aloof p) : Harmless tr := by
  intro ⟨o, r⟩ hc
  have haloof : o.aloof = true := h.begun.only hp _ hc
  cases o <;> first
    | rfl
    | cases haloof

/-- Calls before and after that apply nothing change nothing. -/
theorem GoesBy.between (h : GoesBy view tr err) (hbefore : Harmless before)
    (hafter : Harmless after) : GoesBy view (before ++ (tr ++ after)) err where
  applies := h.applies.imp_left fun htr => hbefore.append (htr.append hafter)
  gone herr := (h.gone herr).imp_left fun ⟨c, hc, hgone⟩ =>
    ⟨c, List.mem_append_right _ (List.mem_append_left _ hc), hgone⟩

/-- Deleting the enactment takes one call, which says whether it is gone. -/
theorem goesBy_deleteEnactmentForPolicy {r : Except Err Unit}
    (h : Exec env deleteEnactmentForPolicy w tr r w') : GoesBy view tr (errorOf r) := by
  obtain ⟨answer, w₁, tr', -, hrest, rfl⟩ := Exec.of_perform h
  cases answer with
  | ok done =>
    obtain ⟨rfl, -, rfl⟩ := Exec.of_ret hrest
    exact ⟨Or.inl (.single rfl), fun _ => Or.inl ⟨_, List.mem_cons_self, rfl⟩⟩
  | error e =>
    cases e with
    | notFound =>
      obtain ⟨rfl, -, rfl⟩ := Exec.of_ret hrest
      exact ⟨Or.inl (.single rfl), fun _ => Or.inl ⟨_, List.mem_cons_self, rfl⟩⟩
    | conflict | maxUnavailableLimitReached | invalidMaxUnavailable _ | other _ =>
      -- any other error is returned
      obtain ⟨rfl, -, rfl⟩ := Exec.of_ret hrest
      refine ⟨Or.inl (.single rfl), fun herr => ?_⟩
      cases herr

theorem exec_unmatchedNodeLabels {policy : Policy} {r : Except Err Labels}
    (h : Exec env (unmatchedNodeLabels .cached policy) w tr r w') :
    ∃ answer w₁, env.serve w (.getNodeLabels .cached) answer w₁ ∧
      tr = [⟨.getNodeLabels .cached, answer⟩] ∧
      r = answer.map (unmatchingLabels policy.spec.nodeSelector) := by
  obtain ⟨answer, w₁, tr', hserve, hrest, rfl⟩ := Exec.of_perform h
  refine ⟨answer, w₁, hserve, ?_⟩
  cases answer with
  | error e =>
    obtain ⟨rfl, -, rfl⟩ := Exec.of_ret hrest
    exact ⟨rfl, rfl⟩
  | ok labels =>
    obtain ⟨rfl, -, rfl⟩ := Exec.of_ret hrest
    exact ⟨rfl, rfl⟩

/-- The labels decide whether the policy is for this node. -/
theorem goesBy_reconcileInstance {cfg : Config} {i : NodeName} {policy : Policy}
    {labels : Option Labels} {outcome : Outcome}
    (h : Exec env (reconcileInstance cfg i policy) w tr outcome w')
    (hlabels : ∀ w r w', env.serve w (.getNodeLabels .cached) r w' →
      r = labels.elim (.error .notFound) .ok) :
    GoesBy (some ⟨policy.spec, policy.generation, labels⟩) tr outcome.2 ∧
      (outcome.2 = none → labels.isSome = true) := by
  obtain ⟨tr₁, r, w₁, tr₂, hread, hrest, rfl⟩ := Exec.of_bind h
  obtain ⟨answer, w₂, hserve, rfl, rfl⟩ := exec_unmatchedNodeLabels hread
  obtain rfl := hlabels _ _ _ hserve
  have hharmless : Harmless [⟨.getNodeLabels .cached, labels.elim (.error .notFound) .ok⟩] :=
    .single rfl
  cases labels with
  | none =>
    obtain ⟨rfl, -, rfl⟩ := Exec.of_ret hrest
    exact ⟨⟨Or.inl hharmless, fun herr => by cases herr⟩, fun herr => by cases herr⟩
  | some labels =>
    refine ⟨?_, fun _ => rfl⟩
    cases hunmatching : unmatchingLabels policy.spec.nodeSelector labels with
    | nil =>
      have hselects : PolicyView.selects ⟨policy.spec, policy.generation, some labels⟩ = true := by
        show (unmatchingLabels policy.spec.nodeSelector labels).isEmpty = true
        rw [hunmatching]
        rfl
      exact ⟨Or.inr ⟨_, rfl, hselects⟩, fun _ => Or.inr ⟨_, rfl, hselects⟩⟩
    | cons entry rest =>
      rw [Option.elim_some, Except.map, hunmatching] at hrest
      obtain ⟨tr₃, r, w₃, tr₄, hdelete, hret, rfl⟩ := Exec.of_bind hrest
      obtain ⟨rfl, -, rfl⟩ := Exec.of_ret hret
      exact (goesBy_deleteEnactmentForPolicy hdelete).between hharmless .nil

theorem goesBy_reconcileAndUpdate {cfg : Config} {i : NodeName} {policy : Policy}
    {labels : Option Labels} {outcome : Outcome}
    (h : Exec env (reconcileAndUpdate cfg i policy) w tr outcome w')
    (hlabels : ∀ w r w', env.serve w (.getNodeLabels .cached) r w' →
      r = labels.elim (.error .notFound) .ok) :
    GoesBy (some ⟨policy.spec, policy.generation, labels⟩) tr outcome.2 ∧
      (outcome.2 = none → labels.isSome = true) := by
  obtain ⟨tr₁, outcome, w₁, tr₂, hinstance, hrest, rfl⟩ := Exec.of_bind h
  obtain ⟨tr₃, r, w₂, tr₄, hupdate, hret, rfl⟩ := Exec.of_bind hrest
  obtain ⟨rfl, -, rfl⟩ := Exec.of_ret hret
  obtain ⟨hgoes, hsome⟩ := goesBy_reconcileInstance hinstance hlabels
  have hafter := hupdate.harmless_of_aloof (aloof_policyConditionsUpdate cfg)
  exact ⟨hgoes.between .nil (hafter.append .nil), hsome⟩

/-- **A reconcile does what its reads say.**  However the rest of its calls are answered, a
`Reconcile` whose cached reads come from these caches applies a state only if the policy read in the
first is for a node with the labels read in the second, and one that ends without an error has read
enough and, unless the policy is for this node, leaves no enactment. -/
theorem reconcile_does_as_read {cfg : Config} {nodeName : NodeName} {name : String}
    {first second : HandlerCache} {outcome : Outcome}
    (hanswers : Answers env nodeName name first second)
    (h : Exec env (reconcile cfg nodeName) w tr outcome w') :
    DoesAsRead nodeName name [first, second] tr outcome.2 := by
  obtain ⟨r, w₁, tr', hserve, hrest, rfl⟩ := Exec.of_perform h
  obtain rfl := hanswers.policy _ _ _ hserve
  have hread : ∀ r : Except Err Policy,
      Harmless [(⟨.getPolicy .cached .reconcile, r⟩ : Called Api)] := fun _ => .single rfl
  cases hp : first.policies.get name with
  | none =>
    have henough : readsEnough nodeName name [first, second] = true := by
      rw [readsEnough, hp]
      rfl
    rw [hp] at hrest
    obtain ⟨tr₁, r, w₂, tr₂, hdelete, hret, rfl⟩ := Exec.of_bind hrest
    obtain ⟨rfl, -, rfl⟩ := Exec.of_ret hret
    exact ⟨(goesBy_deleteEnactmentForPolicy hdelete).between (hread _) .nil, fun _ => henough⟩
  | some p =>
    have hview : readView nodeName name [first, second] =
        some ⟨p.spec, p.generation, second.labels nodeName⟩ := by
      rw [readView, policyView, hp]
      rfl
    have henough : readsEnough nodeName name [first, second] =
        (second.labels nodeName).isSome := by
      rw [readsEnough, hp]
      rfl
    rw [hp] at hrest
    -- the policy's conditions may be reset before the labels are read
    have hrest : ∃ before tr₂ w₂, Harmless before ∧ tr' = before ++ tr₂ ∧
        Exec env (reconcileAndUpdate cfg nodeName p) w₂ tr₂ outcome w' := by
      rw [Option.elim_some] at hrest
      dsimp only at hrest
      split at hrest
      · obtain ⟨tr₁, r, w₂, tr₂, hreset, hreconcile, rfl⟩ := Exec.of_bind hrest
        exact ⟨tr₁, tr₂, w₂, hreset.harmless_of_aloof aloof_policyConditionsReset, rfl,
          hreconcile⟩
      · exact ⟨[], tr', w₁, .nil, rfl, hrest⟩
    obtain ⟨before, tr₂, w₂, hbefore, rfl, hreconcile⟩ := hrest
    obtain ⟨hgoes, hsome⟩ := goesBy_reconcileAndUpdate hreconcile hanswers.labels
    have hgoes := hgoes.between ((hread (.ok p)).append hbefore) .nil
    rw [List.append_nil, List.append_assoc] at hgoes
    exact ⟨hview ▸ hgoes, fun herr => henough ▸ hsome herr⟩

end

/-- A cluster that answers nothing but the reads from the cache and the deletion. -/
def answerCut : Unit → (o : Op) → Option (o.Resp × Unit)
  | _, .getPolicy .cached .reconcile => some (.ok webPolicy, ())
  | _, .getPolicy _ _ => some (.error (.other "connection refused"), ())
  | _, .getNodeLabels .cached => some (.ok [], ())
  | _, .deleteEnactment => some (.ok (), ())
  | _, _ => none

/-- Its surroundings. -/
def cutEnv : Env Api Unit where
  serve w o r w' := answerCut w o = some (r, w')

/-- One node. -/
def webConfig : Config where
  nodeNames := ["node01"]
  nodup := List.nodup_singleton _
  retriesUntilFail := 5
  staleOverride := none
  handlerNamespace := "nmstate"
  applyDefaultVlanFiltering := .ok

theorem answers_cut :
    Answers cutEnv "node01" "web" (webCache [("role", "web")]) unlabelled where
  policy w r w' h := by
    obtain ⟨rfl, -⟩ := Prod.mk.inj (Option.some.inj h)
    rfl
  labels w r w' h := by
    obtain ⟨rfl, -⟩ := Prod.mk.inj (Option.some.inj h)
    rfl

theorem cut_serves {w : Unit} {o : Op} {r : o.Resp} {w' : Unit}
    (h : answerCut w o = some (r, w')) : cutEnv.serve w o r w' := h

theorem unlabelled_enactment_deleted :
    ∃ tr outcome, Exec cutEnv (reconcile webConfig "node01") () tr outcome () ∧
      outcome.2 = none ∧ DoesAsRead "node01" "web" [webCache [("role", "web")], unlabelled] tr
        outcome.2 := by
  obtain ⟨tr, outcome, ⟨⟩, hexec, hnone⟩ :=
    Exec.exists_of_play cut_serves 40 (reconcile webConfig "node01") ()
      (fun _ outcome _ => outcome.2.isNone) (by decide +kernel)
  exact ⟨tr, outcome, hexec, Option.isNone_iff_eq_none.mp hnone,
    reconcile_does_as_read answers_cut hexec⟩
