/-
# Admission of policies

What happens to a policy on its way into the API server: the mutating webhooks of
`pkg/webhook/nodenetworkconfigurationpolicy`, and the rules of `deploy/handler/operator.yaml` on
edits, one of which refuses to edit a policy still in progress.

A webhook decodes the document of the request, changes the object and answers with the patch
between the document and the changed object; the API server applies the patch.
`webhooks_store_mutated` follows any sequence of calls from documents to objects.  Which fields the
object has besides those the hooks touch is left open, and so is how Go writes it (`PolicyCodec`).

That rule reads the reason of the `Available` condition.  `edit_admitted_iff` says what this means
for the nodes and the enactments the last verdict was made of.
-/
import Mathlib.Data.List.Infix
import KubernetesNmstate.JsonPatch
import KubernetesNmstate.Reconcile
import KubernetesNmstate.Verdict

/-! ## Objects and documents -/

/-- A map of annotations: its entries in the order of the keys, each key once, which is how Go
writes a map. -/
structure Annotations where
  entries : List (String × String)
  ordered : (entries.map Prod.fst).Pairwise (· < ·)

namespace Annotations

/-- The value under a key. -/
def get (m : Annotations) (key : String) : Option String := m.entries.lookup key

/-- The entries before and after a key, with this one between them. -/
def set (m : Annotations) (key value : String) : Annotations where
  entries := m.entries.filter (fun entry => entry.1 < key) ++
    (key, value) :: m.entries.filter (fun entry => key < entry.1)
  ordered := by
    have hsub : ∀ P : String × String → Bool,
        ((m.entries.filter P).map Prod.fst).Pairwise (· < ·) :=
      fun P => m.ordered.sublist (List.filter_sublist.map _)
    rw [List.map_append, List.map_cons, List.pairwise_append, List.pairwise_cons]
    refine ⟨hsub _, ⟨?_, hsub _⟩, ?_⟩
    · intro later hlater
      obtain ⟨entry, hentry, rfl⟩ := List.mem_map.mp hlater
      simpa using (List.mem_filter.mp hentry).2
    · intro earlier hearlier later hlater
      obtain ⟨entry, hentry, rfl⟩ := List.mem_map.mp hearlier
      have hlt : entry.1 < key := by simpa using (List.mem_filter.mp hentry).2
      rcases List.mem_cons.mp hlater with rfl | hlater
      · exact hlt
      · obtain ⟨entry', hentry', rfl⟩ := List.mem_map.mp hlater
        have hgt : key < entry'.1 := by simpa using (List.mem_filter.mp hentry').2
        exact lt_trans hlt hgt

theorem lookup_filter (P : String → Bool) (m : List (String × String)) (key : String) :
    (m.filter fun entry => P entry.1).lookup key = if P key then m.lookup key else none := by
  induction m with
  | nil => simp
  | cons entry m ih =>
    obtain ⟨first, value⟩ := entry
    by_cases hP : P first = true
    · rw [List.filter_cons_of_pos (by exact hP), List.lookup_cons, List.lookup_cons, ih]
      by_cases hkey : key = first
      · simp [hkey, hP]
      · simp [beq_false_of_ne hkey]
    · rw [List.filter_cons_of_neg (by exact hP), ih, List.lookup_cons]
      by_cases hkey : key = first
      · simp [hkey, hP]
      · simp [beq_false_of_ne hkey]

theorem get_set (m : Annotations) (key value key' : String) :
    (m.set key value).get key' = if key' = key then some value else m.get key' := by
  have hbefore := lookup_filter (fun k => k < key) m.entries key'
  have hafter := lookup_filter (fun k => key < k) m.entries key'
  rw [get, set, List.lookup_append, hbefore, List.lookup_cons, hafter]
  rcases lt_trichotomy key' key with hlt | rfl | hgt
  · simp [hlt, hlt.ne, hlt.not_gt, beq_false_of_ne hlt.ne, get]
  · simp
  · simp [hgt, hgt.ne', hgt.not_gt, beq_false_of_ne hgt.ne', get]

end Annotations

/-- A `NodeNetworkConfigurationPolicy`: the two parts the hooks change, and the rest. -/
structure PolicyObject (ρ : Type) where
  annotations : Annotations
  conditions : ConditionList
  other : ρ

namespace PolicyObject

variable {ρ : Type}

/-- The object with other annotations and conditions. -/
def edited (p : PolicyObject ρ) (annotations : Annotations) (conditions : ConditionList) :
    PolicyObject ρ :=
  { p with annotations := annotations, conditions := conditions }

end PolicyObject

/-- `json.Unmarshal` into a policy and `json.Marshal` of one. -/
structure PolicyCodec (ρ : Type) where
  unmarshal : Json → Except String (PolicyObject ρ)
  marshal : PolicyObject ρ → Except String Json
  /-- The text of a document, as errors quote it. -/
  rawText : Json → String
  /-- The text of an object, as errors quote it. -/
  objectText : PolicyObject ρ → String
  /-- What was read is written as a map, also with other annotations and conditions, -/
  written : ∀ {raw p}, unmarshal raw = .ok p → ∀ annotations conditions,
    ∃ fields : JsonObject, marshal (p.edited annotations conditions) = .ok (.obj fields) ∧
      fields.Ordered
  /-- and is read from that again. -/
  read : ∀ {raw p}, unmarshal raw = .ok p → ∀ annotations conditions doc,
    marshal (p.edited annotations conditions) = .ok doc →
    unmarshal doc = .ok (p.edited annotations conditions)

/-! ## Responses -/

/-- `admission.Response`. -/
structure AdmissionResponse where
  allowed : Bool
  code : Option ℕ := none
  message : String := ""
  patches : List PatchOperation := []

/-- `admission.Errored`. -/
def errored (code : ℕ) (err : String) : AdmissionResponse where
  allowed := false
  code := some code
  message := err

/-- `admission.Allowed`. -/
def allowed (message : String) : AdmissionResponse where
  allowed := true
  code := some 200
  message := message

section Hooks

variable {ρ : Type} (added removed : MapOrder) (float : String → String) (codec : PolicyCodec ρ)

/-- `admission.PatchResponseFromRaw`. -/
def patchResponseFromRaw (original current : Json) : AdmissionResponse where
  allowed := true
  patches := createPatch added removed float original current

/-- `mutatePolicyHandler`. -/
def mutatePolicyHandler (neededMutationFor : PolicyObject ρ → Bool)
    (mutate : PolicyObject ρ → PolicyObject ρ) (original : Json) : AdmissionResponse :=
  match codec.unmarshal original with
  | .error err => errored 500 ("failed decoding policy: " ++ codec.rawText original ++ ": " ++ err)
  | .ok policy =>
    if ¬ neededMutationFor policy then allowed "mutation not needed"
    else
      match codec.marshal (mutate policy) with
      | .error err =>
        errored 500 ("failed encoding policy: " ++ codec.objectText (mutate policy) ++ ": " ++ err)
      | .ok current => patchResponseFromRaw added removed float original current

/-! ## The hooks -/

/-- `deleteConditions`. -/
def deleteConditions (policy : PolicyObject ρ) : PolicyObject ρ := { policy with conditions := [] }

/-- `setConditionsUnknown`; `unixNano` is the time in nanoseconds. -/
def setConditionsUnknown (unixNano : ℕ) (policy : PolicyObject ρ) : PolicyObject ρ :=
  { policy with
    conditions := setPolicyStatusUnknown (unixNano / 1000000000) policy.conditions }

/-- `atEmptyConditions`. -/
def atEmptyConditions (policy : PolicyObject ρ) : Bool := policy.conditions.length = 0

/-- `TimestampLabelKey`. -/
def timestampLabelKey : String := "nmstate.io/webhook-mutating-timestamp"

/-- `setTimestampAnnotation`. -/
def setTimestampAnnotation (unixNano : ℕ) (policy : PolicyObject ρ) : PolicyObject ρ :=
  { policy with
    annotations := policy.annotations.set timestampLabelKey (toString unixNano) }

/-- The hooks `Add` registers. -/
inductive Hook : Type where
  | mutate : Hook
  | statusMutate : Hook
  | timestampMutate : Hook
  deriving DecidableEq, Repr, Inhabited

/-- When a hook changes the policy. -/
def Hook.neededMutationFor : Hook → PolicyObject ρ → Bool
  | .mutate, _ => true
  | .statusMutate, policy => atEmptyConditions policy
  | .timestampMutate, _ => true

/-- How a hook changes the policy. -/
def Hook.mutation (unixNano : ℕ) : Hook → PolicyObject ρ → PolicyObject ρ
  | .mutate => deleteConditions
  | .statusMutate => setConditionsUnknown unixNano
  | .timestampMutate => setTimestampAnnotation unixNano

/-- A call of a hook, with its time in nanoseconds. -/
structure HookCall where
  hook : Hook
  unixNano : ℕ
  deriving DecidableEq, Repr, Inhabited

/-- What a call is to do to the policy. -/
def HookCall.effect (call : HookCall) (policy : PolicyObject ρ) : PolicyObject ρ :=
  if call.hook.neededMutationFor policy then call.hook.mutation call.unixNano policy else policy

/-- The response to a call. -/
def HookCall.response (call : HookCall) (original : Json) : AdmissionResponse :=
  mutatePolicyHandler added removed float codec call.hook.neededMutationFor
    (call.hook.mutation call.unixNano) original

/-- The API server takes the document of an allowed request with the patches applied. -/
def HookCall.admit (call : HookCall) (original : Json) : Option Json :=
  let response := call.response added removed float codec original
  if response.allowed then applyPatch response.patches original else none

/-- The calls of one request, each on what the one before left. -/
def admitAll (calls : List HookCall) (original : Json) : Option Json :=
  calls.foldlM (fun doc call => call.admit added removed float codec doc) original

end Hooks

/-! ## One call -/

section Calls

variable {ρ : Type} {added removed : MapOrder} {float : String → String} {codec : PolicyCodec ρ}

/-- A document the hooks can be called on: one that Go reads and writes as it is. -/
structure Readable (float : String → String) (codec : PolicyCodec ρ) (doc : Json)
    (policy : PolicyObject ρ) : Prop where
  ordered : doc.Ordered
  exact : doc.Exact float
  reads : codec.unmarshal doc = .ok policy

/-- The hooks change annotations and conditions only. -/
theorem effect_eq_edited (call : HookCall) (policy : PolicyObject ρ) :
    call.effect policy =
      policy.edited (call.effect policy).annotations (call.effect policy).conditions := by
  obtain ⟨hook, unixNano⟩ := call
  unfold HookCall.effect
  split
  · cases hook <;> rfl
  · rfl

theorem admit_readable {doc : Json} {policy : PolicyObject ρ} (call : HookCall)
    (h : Readable float codec doc policy)
    (hexact : ∀ doc', codec.marshal (call.effect policy) = .ok doc' → doc'.Exact float) :
    ∃ doc', call.admit added removed float codec doc = some doc' ∧
      Readable float codec doc' (call.effect policy) := by
  unfold HookCall.admit HookCall.response mutatePolicyHandler
  rw [h.reads]
  by_cases hneeded : call.hook.neededMutationFor policy = true
  · have heffect : call.effect policy = call.hook.mutation call.unixNano policy := if_pos hneeded
    obtain ⟨fields, hwritten, hordered⟩ := codec.written h.reads (call.effect policy).annotations
      (call.effect policy).conditions
    have hread := codec.read h.reads _ _ _ hwritten
    rw [← effect_eq_edited] at hwritten hread
    have hfields := hexact _ hwritten
    refine ⟨.obj fields, ?_, Json.ordered_obj.mpr hordered, hfields, hread⟩
    rw [heffect] at hwritten
    simp only [hneeded, not_true_eq_false, if_false, hwritten, patchResponseFromRaw, if_true]
    exact applyPatch_createPatch h.ordered h.exact (Json.ordered_obj.mpr hordered) hfields rfl
  · have heffect : call.effect policy = policy := if_neg hneeded
    refine ⟨doc, ?_, by rw [heffect]; exact h⟩
    simp only [hneeded, allowed, applyPatch]
    rfl

/-! ## Any sequence of calls -/

/-- What a sequence of calls is to do to the policy. -/
def effects (calls : List HookCall) (policy : PolicyObject ρ) : PolicyObject ρ :=
  calls.foldl (fun policy call => call.effect policy) policy

theorem admitAll_readable {doc : Json} {policy : PolicyObject ρ} (calls : List HookCall)
    (h : Readable float codec doc policy)
    (hexact : ∀ before, before <+: calls → ∀ doc',
      codec.marshal (effects before policy) = .ok doc' → doc'.Exact float) :
    ∃ doc', admitAll added removed float codec calls doc = some doc' ∧
      Readable float codec doc' (effects calls policy) := by
  induction calls generalizing doc policy with
  | nil => exact ⟨doc, rfl, h⟩
  | cons call calls ih =>
    obtain ⟨next, hadmit, hnext⟩ := admit_readable call h
      (hexact [call] (List.prefix_append [call] calls))
    obtain ⟨doc', hrest, hdoc'⟩ := ih hnext fun before hbefore =>
      hexact (call :: before) ((List.cons_prefix_cons).mpr ⟨rfl, hbefore⟩)
    refine ⟨doc', ?_, hdoc'⟩
    rw [admitAll, List.foldlM_cons, hadmit]
    exact hrest

theorem effects_concat (calls : List HookCall) (call : HookCall) (policy : PolicyObject ρ) :
    effects (calls ++ [call]) policy = call.effect (effects calls policy) := by
  rw [effects, List.foldl_append]
  rfl

theorem other_effects (calls : List HookCall) (policy : PolicyObject ρ) :
    (effects calls policy).other = policy.other := by
  induction calls using List.reverseRecOn with
  | nil => rfl
  | append_singleton calls call ih =>
    rw [effects_concat, effect_eq_edited]
    exact ih

/-- Which value a call leaves under a key of the annotations. -/
theorem get_effect (call : HookCall) (policy : PolicyObject ρ) (key : String) :
    (call.effect policy).annotations.get key =
      if call.hook = .timestampMutate ∧ key = timestampLabelKey then
        some (toString call.unixNano)
      else policy.annotations.get key := by
  obtain ⟨hook, unixNano⟩ := call
  cases hook with
  | mutate => rfl
  | statusMutate =>
    rw [if_neg fun h => by cases h.1]
    unfold HookCall.effect
    split <;> rfl
  | timestampMutate =>
    show (policy.annotations.set timestampLabelKey (toString unixNano)).get key = _
    rw [Annotations.get_set]
    simp

/-- The time stamp of the last call that writes one. -/
def lastTimestamp (calls : List HookCall) : Option String :=
  ((calls.filter fun call => call.hook = .timestampMutate).getLast?).map fun call =>
    toString call.unixNano

theorem lastTimestamp_concat (calls : List HookCall) (call : HookCall) :
    lastTimestamp (calls ++ [call]) =
      if call.hook = .timestampMutate then some (toString call.unixNano)
      else lastTimestamp calls := by
  rw [lastTimestamp, List.filter_append]
  by_cases h : call.hook = .timestampMutate
  · simp [h]
  · simp [h, lastTimestamp]

theorem get_effects (calls : List HookCall) (policy : PolicyObject ρ) (key : String) :
    (effects calls policy).annotations.get key =
      if key = timestampLabelKey then (lastTimestamp calls).or (policy.annotations.get key)
      else policy.annotations.get key := by
  induction calls using List.reverseRecOn with
  | nil => simp [effects, lastTimestamp]
  | append_singleton calls call ih =>
    rw [effects_concat, get_effect, ih, lastTimestamp_concat]
    by_cases hkey : key = timestampLabelKey
    · by_cases hhook : call.hook = .timestampMutate
      · simp [hhook, hkey]
      · simp [hhook, hkey]
    · simp [hkey]

theorem setPolicyStatusUnknown_ne_nil (now : Time) (conditions : ConditionList) :
    setPolicyStatusUnknown now conditions ≠ [] := by
  intro hnil
  have hstatus := status_setEach now conditions
    (policyConditionTypes.map fun t => ⟨t, .unknown, .none, ""⟩) .available
  rw [← setPolicyStatusUnknown, hnil] at hstatus
  cases hstatus

/-- Where the conditions of the policy can come from after some calls: they are the old ones, none,
or the four of the status hook; and they are some unless the last of the two hooks that touch them
deletes them. -/
structure ConditionsAfter (calls : List HookCall) (old new : ConditionList) : Prop where
  source : new = old ∨ new = [] ∨ ∃ call ∈ calls, call.hook = .statusMutate ∧
    new = setPolicyStatusUnknown (call.unixNano / 1000000000) []
  some : ∀ before call after, calls = before ++ call :: after → call.hook = .statusMutate →
    (∀ later ∈ after, later.hook ≠ .mutate) → new ≠ []

theorem conditions_effect (call : HookCall) (policy : PolicyObject ρ) :
    (call.effect policy).conditions =
      match call.hook with
      | .mutate => []
      | .statusMutate =>
        if policy.conditions = [] then setPolicyStatusUnknown (call.unixNano / 1000000000) []
        else policy.conditions
      | .timestampMutate => policy.conditions := by
  obtain ⟨hook, unixNano⟩ := call
  cases hook with
  | mutate => rfl
  | timestampMutate => rfl
  | statusMutate =>
    unfold HookCall.effect
    by_cases h : policy.conditions = []
    · simp [Hook.neededMutationFor, Hook.mutation, atEmptyConditions, setConditionsUnknown, h]
    · simp [Hook.neededMutationFor, atEmptyConditions, h]

theorem ConditionsAfter.source_mono {calls : List HookCall} {last : HookCall}
    {old new : ConditionList} (h : ConditionsAfter calls old new) :
    new = old ∨ new = [] ∨ ∃ call ∈ calls ++ [last], call.hook = .statusMutate ∧
      new = setPolicyStatusUnknown (call.unixNano / 1000000000) [] := by
  rcases h.source with h | h | ⟨call, hcall, h⟩
  · exact Or.inl h
  · exact Or.inr (Or.inl h)
  · exact Or.inr (Or.inr ⟨call, List.mem_append_left _ hcall, h⟩)

/-- A call in a sequence is its last one, or one before it. -/
theorem split_concat {α : Type} {calls before after : List α} {last call : α}
    (h : calls ++ [last] = before ++ call :: after) :
    (call = last ∧ calls = before) ∨
      ∃ after', after = after' ++ [last] ∧ calls = before ++ call :: after' := by
  rcases List.eq_nil_or_concat after with rfl | ⟨after', last', rfl⟩
  · obtain ⟨hcalls, hlast⟩ := List.append_inj' h rfl
    exact Or.inl ⟨(List.cons.inj hlast).1.symm, hcalls⟩
  · rw [List.concat_eq_append, ← List.cons_append, ← List.append_assoc] at h
    obtain ⟨hcalls, hlast⟩ := List.append_inj' h rfl
    rw [List.concat_eq_append, (List.cons.inj hlast).1]
    exact Or.inr ⟨after', rfl, hcalls⟩

theorem conditionsAfter_effects (calls : List HookCall) (policy : PolicyObject ρ) :
    ConditionsAfter calls policy.conditions (effects calls policy).conditions := by
  induction calls using List.reverseRecOn with
  | nil =>
    refine ⟨Or.inl rfl, fun before call after h => ?_⟩
    cases before <;> cases h
  | append_singleton calls last ih =>
    rw [effects_concat]
    have heffect := conditions_effect last (effects calls policy)
    cases hhook : last.hook with
    | mutate =>
      rw [hhook] at heffect
      refine ⟨Or.inr (Or.inl heffect), fun before call after hsplit hcall hlater => ?_⟩
      rcases split_concat hsplit with ⟨rfl, -⟩ | ⟨after', rfl, -⟩
      · rw [hhook] at hcall
        cases hcall
      · exact absurd hhook (hlater last (List.mem_append_right _ (List.mem_singleton_self last)))
    | timestampMutate =>
      rw [hhook] at heffect
      rw [heffect]
      refine ⟨ih.source_mono, fun before call after hsplit hcall hlater => ?_⟩
      rcases split_concat hsplit with ⟨rfl, -⟩ | ⟨after', rfl, hcalls⟩
      · rw [hhook] at hcall
        cases hcall
      · exact ih.some before call after' hcalls hcall fun later h =>
          hlater later (List.mem_append_left _ h)
    | statusMutate =>
      rw [hhook] at heffect
      by_cases hnil : (effects calls policy).conditions = []
      · rw [heffect]
        dsimp only
        rw [if_pos hnil]
        refine ⟨Or.inr (Or.inr ⟨last, ?_, hhook, rfl⟩), fun _ _ _ _ _ _ => ?_⟩
        · exact List.mem_append_right _ (List.mem_singleton_self last)
        · exact setPolicyStatusUnknown_ne_nil _ _
      · rw [heffect]
        dsimp only
        rw [if_neg hnil]
        exact ⟨ih.source_mono, fun _ _ _ _ _ _ => hnil⟩

/-- **The webhooks.**  After any sequence of calls the API server holds a document that reads as the
policy of the request with nothing changed but the conditions and the time stamp. -/
theorem webhooks_store_mutated {doc : Json} {policy : PolicyObject ρ} (calls : List HookCall)
    (h : Readable float codec doc policy)
    (hexact : ∀ before, before <+: calls → ∀ doc',
      codec.marshal (effects before policy) = .ok doc' → doc'.Exact float) :
    ∃ stored policy', admitAll added removed float codec calls doc = some stored ∧
      codec.unmarshal stored = .ok policy' ∧ policy'.other = policy.other ∧
      (∀ key, key ≠ timestampLabelKey →
        policy'.annotations.get key = policy.annotations.get key) ∧
      policy'.annotations.get timestampLabelKey =
        (lastTimestamp calls).or (policy.annotations.get timestampLabelKey) ∧
      ConditionsAfter calls policy.conditions policy'.conditions := by
  obtain ⟨stored, hstored, hread⟩ := admitAll_readable calls h hexact
  refine ⟨stored, effects calls policy, hstored, hread.reads, other_effects calls policy,
    fun key hkey => ?_, ?_, conditionsAfter_effects calls policy⟩
  · rw [get_effects, if_neg hkey]
  · rw [get_effects, if_pos rfl]

/-- Every operation goes to a field in which the two maps differ. -/
def StaysInChanges (patches : List PatchOperation) (fields fields' : JsonObject) : Prop :=
  ∀ op ∈ patches, ∃ key inner, op.path = pointer (key :: inner) ∧ fields.get key ≠ fields'.get key

/-- **Where a hook writes.**  A hook's patch leaves alone every field that the changed policy is
written with as the request has it. -/
theorem hook_patch_where_changed {fields fields' : JsonObject} {policy : PolicyObject ρ}
    (call : HookCall) (h : Readable float codec (.obj fields) policy)
    (hmarshal : codec.marshal (call.effect policy) = .ok (.obj fields'))
    (hexact : (Json.obj fields').Exact float) :
    StaysInChanges (call.response added removed float codec (.obj fields)).patches fields
      fields' := by
  intro op hop
  obtain ⟨written, hwritten, hordered⟩ := codec.written h.reads (call.effect policy).annotations
    (call.effect policy).conditions
  rw [← effect_eq_edited, hmarshal] at hwritten
  cases hwritten
  unfold HookCall.response mutatePolicyHandler at hop
  rw [h.reads] at hop
  by_cases hneeded : call.hook.neededMutationFor policy = true
  · have heffect : call.effect policy = call.hook.mutation call.unixNano policy := if_pos hneeded
    rw [heffect] at hmarshal
    simp only [hneeded, not_true_eq_false, if_false, hmarshal, patchResponseFromRaw] at hop
    exact mem_createPatch_obj (Json.ordered_obj.mp h.ordered) h.exact hordered hexact hop
  · simp [hneeded, allowed] at hop

end Calls

/-! ### A policy that goes through the three hooks -/

/-- A number as its digits. -/
def natJson (n : ℕ) : Json := .num (toString n)

/-- The number the digits stand for. -/
def readNat : Json → ℕ
  | .num s => Nat.ofDigitChars 10 s.toList 0
  | _ => 0

theorem readNat_natJson (n : ℕ) : readNat (natJson n) = n := by
  rw [natJson, readNat, toList_toString, Nat.ofDigitChars_ten_toDigits]

/-- A condition as the map of its fields, with the numbers of its type, status and reason. -/
def conditionFields (c : Condition) : JsonObject :=
  [("lastHeartbeatTime", natJson c.lastHeartbeatTime),
    ("lastTransitionTime", natJson c.lastTransitionTime), ("message", .str c.message),
    ("reason", natJson c.reason.ctorIdx), ("status", natJson c.status.ctorIdx),
    ("type", natJson c.type.ctorIdx)]

/-- The condition with these fields. -/
def readCondition : Json → Condition
  | .obj [("lastHeartbeatTime", heartbeat), ("lastTransitionTime", transition),
      ("message", .str message), ("reason", reason), ("status", status), ("type", type)] =>
    ⟨.ofNat (readNat type), .ofNat (readNat status), .ofNat (readNat reason), message,
      readNat heartbeat, readNat transition⟩
  | _ => default

theorem readCondition_conditionFields (c : Condition) :
    readCondition (.obj (conditionFields c)) = c := by
  obtain ⟨type, status, reason, message, heartbeat, transition⟩ := c
  simp only [conditionFields, readCondition, readNat_natJson]
  cases type <;> cases status <;> cases reason <;> rfl

/-- An annotation as a field. -/
def entryField (entry : String × String) : String × Json := (entry.1, .str entry.2)

/-- The annotation of a field. -/
def readEntry : String × Json → String × String
  | (key, .str value) => (key, value)
  | (key, _) => (key, "")

/-- Policies that are nothing but their annotations and conditions. -/
def plainFields (policy : PolicyObject Unit) : JsonObject :=
  [("annotations", .obj (policy.annotations.entries.map entryField)),
    ("conditions", .arr (policy.conditions.map fun c => .obj (conditionFields c)))]

/-- The policy with these fields. -/
def readPlain : Json → Except String (PolicyObject Unit)
  | .obj [("annotations", .obj annotations), ("conditions", .arr conditions)] =>
    if h : ((annotations.map readEntry).map Prod.fst).Pairwise (· < ·) then
      .ok ⟨⟨annotations.map readEntry, h⟩, conditions.map readCondition, ()⟩
    else .error "not a map"
  | _ => .error "not a policy"

theorem readPlain_plainFields (policy : PolicyObject Unit) :
    readPlain (.obj (plainFields policy)) = .ok policy := by
  obtain ⟨⟨entries, hordered⟩, conditions, ⟨⟩⟩ := policy
  have hentries : (entries.map entryField).map readEntry = entries := by
    rw [List.map_map]
    exact (List.map_congr_left fun _ _ => rfl).trans (List.map_id _)
  have hconditions :
      (conditions.map fun c => Json.obj (conditionFields c)).map readCondition = conditions := by
    rw [List.map_map]
    exact (List.map_congr_left fun c _ => readCondition_conditionFields c).trans (List.map_id _)
  simp only [plainFields, readPlain, hentries, hconditions, hordered, dif_pos]

theorem ordered_conditionFields (c : Condition) : (Json.obj (conditionFields c)).Ordered := by
  refine .obj (?_ : List.Pairwise (· < ·) ["lastHeartbeatTime", "lastTransitionTime", "message",
    "reason", "status", "type"]) ?_
  · decide
  · simp [conditionFields, natJson, Json.Ordered.str, Json.Ordered.num]

theorem ordered_plainFields (policy : PolicyObject Unit) : (plainFields policy).Ordered := by
  refine ⟨?_, fun field hfield => ?_⟩
  · show ["annotations", "conditions"].Pairwise (· < ·)
    decide
  · rcases List.mem_cons.mp hfield with rfl | hfield
    · refine .obj ?_ fun field hfield => ?_
      · rw [JsonObject.keys, List.map_map]
        exact policy.annotations.ordered
      · obtain ⟨entry, -, rfl⟩ := List.mem_map.mp hfield
        exact .str entry.2
    · rw [List.mem_singleton.mp hfield]
      refine ordered_arr.mpr fun x hx => ?_
      obtain ⟨c, -, rfl⟩ := List.mem_map.mp hx
      exact ordered_conditionFields c

/-- How these policies are written and read. -/
def plainCodec : PolicyCodec Unit where
  unmarshal := readPlain
  marshal policy := .ok (.obj (plainFields policy))
  rawText _ := ""
  objectText _ := ""
  written _ annotations conditions := ⟨_, rfl, ordered_plainFields _⟩
  read _ annotations conditions doc h := by
    cases h
    exact readPlain_plainFields _

theorem exact_natJson (n : ℕ) : (natJson n).Exact id := by
  refine .num rfl fun h => ?_
  have hmem : '-' ∈ Nat.toDigits 10 n := by
    rw [← toList_toString, h]
    decide
  exact absurd (isDigit_of_mem_toDigits hmem) (by decide)

theorem exact_plainFields {policy : PolicyObject Unit}
    (hconditions : policy.conditions.length ≤ maxInt) :
    (Json.obj (plainFields policy)).Exact id := by
  refine .obj fun field hfield => ?_
  rcases List.mem_cons.mp hfield with rfl | hfield
  · refine .obj fun field hfield => ?_
    obtain ⟨entry, -, rfl⟩ := List.mem_map.mp hfield
    exact .str entry.2
  · rw [List.mem_singleton.mp hfield]
    refine .arr (by rw [List.length_map]; exact hconditions) fun x hx => ?_
    obtain ⟨c, -, rfl⟩ := List.mem_map.mp hx
    exact .obj (by simp [conditionFields, Json.Exact.str, exact_natJson])

/-- A policy that has been applied. -/
def appliedPolicy : PolicyObject Unit where
  annotations := ⟨[("team", "network")], by decide⟩
  conditions := setPolicySuccess 1 [] "1/1 nodes successfully configured"
  other := ()

theorem readable_appliedPolicy :
    Readable id plainCodec (.obj (plainFields appliedPolicy)) appliedPolicy where
  ordered := Json.ordered_obj.mpr (ordered_plainFields appliedPolicy)
  exact := exact_plainFields (by decide)
  reads := readPlain_plainFields appliedPolicy

/-- Its conditions are deleted and set to Unknown, and it is stamped. -/
def threeCalls : List HookCall :=
  [⟨.mutate, 5000000000⟩, ⟨.timestampMutate, 6000000000⟩, ⟨.statusMutate, 7000000000⟩]

theorem exact_threeCalls (before : List HookCall) (hbefore : before <+: threeCalls) (doc : Json)
    (hdoc : plainCodec.marshal (effects before appliedPolicy) = .ok doc) : doc.Exact id := by
  cases hdoc
  have hmem : before ∈ threeCalls.inits := (List.mem_inits before threeCalls).mpr hbefore
  have hsmall : ∀ calls ∈ threeCalls.inits,
      (effects calls appliedPolicy).conditions.length ≤ 9 := by decide
  exact exact_plainFields ((hsmall before hmem).trans (by decide))

theorem applied_policy_stored : ∃ stored policy',
    admitAll .listed .listed id plainCodec threeCalls (.obj (plainFields appliedPolicy)) =
        some stored ∧
      plainCodec.unmarshal stored = .ok policy' ∧ policy'.other = appliedPolicy.other ∧
      (∀ key, key ≠ timestampLabelKey →
        policy'.annotations.get key = appliedPolicy.annotations.get key) ∧
      policy'.annotations.get timestampLabelKey =
        (lastTimestamp threeCalls).or (appliedPolicy.annotations.get timestampLabelKey) ∧
      ConditionsAfter threeCalls appliedPolicy.conditions policy'.conditions :=
  webhooks_store_mutated threeCalls readable_appliedPolicy exact_threeCalls

/-- A call that stamps a policy. -/
def stamping : HookCall := ⟨.timestampMutate, 6⟩

theorem stamping_patch_where_changed :
    StaysInChanges
      (stamping.response .listed .listed id plainCodec (.obj (plainFields appliedPolicy))).patches
      (plainFields appliedPolicy) (plainFields (stamping.effect appliedPolicy)) :=
  hook_patch_where_changed stamping readable_appliedPolicy rfl (exact_plainFields (by decide))

/-! ## The rules on edits -/

/-- The rule of the validating admission policy that no edit is admitted under: no entry for
`Available` has a reason, unless it is that of a policy in progress. -/
def stillInProgress (conditions : ConditionList) : Bool :=
  ¬ conditions.any fun c =>
    c.type = .available ∧ c.reason ≠ .none ∧ c.reason ≠ .configurationProgressing

/-- A character that may stand in a label value. -/
def isLabelChar (c : Char) : Bool := c.isAlphanum || c = '-' || c = '_' || c = '.'

/-- `IsValidLabelValue` of the API machinery, which the rules call `format.labelValue()`: at most 63
bytes that are none or match `([A-Za-z0-9][-A-Za-z0-9_.]*)?[A-Za-z0-9]`. -/
def isValidLabelValue (value : String) : Bool :=
  value.utf8ByteSize ≤ 63 && (value.toList.isEmpty ||
    (value.toList.all isLabelChar && value.toList.head?.any Char.isAlphanum &&
      value.toList.getLast?.any Char.isAlphanum))

/-- The rules of the validating admission policy for an update; that on names is for new policies.
A selector and the captures are maps, listed in the order of their keys. -/
def specUpdateAdmitted (oldObject object : Policy) : Bool :=
  (object.spec = oldObject.spec ∨ ¬ stillInProgress oldObject.status.conditions) ∧
    (object.spec = oldObject.spec ∨ object.spec.capture = oldObject.spec.capture) ∧
    object.spec.nodeSelector.all fun entry => isValidLabelValue entry.2

/-- What is written to a policy after its creation. -/
inductive PolicyWrite : Type where
  /-- A verdict on the nodes and enactments that were listed. -/
  | update (now : Time) (nodes : List Node) (enactments : List Enactment) : PolicyWrite
  /-- `policyconditions.Reset`. -/
  | reset (now : Time) : PolicyWrite
  /-- A slot is claimed or released. -/
  | slots (counters : CountMap) (now : Time) : PolicyWrite
  /-- A new spec, which the rules must admit. -/
  | edit (spec : PolicySpec) : PolicyWrite

/-- The effect of a write. -/
def PolicyWrite.apply (policy : Policy) : PolicyWrite → Policy
  | .update now nodes enactments =>
    setPolicyStatus now policy (calculatePolicyConditionStatus policy nodes enactments)
  | .reset now => resetPolicyConditions now policy
  | .slots counters now =>
    { policy with status := { policy.status with
        unavailableNodeCountMap := counters
        lastUnavailableNodeCountUpdate := some now } }
  | .edit spec =>
    if specUpdateAdmitted policy { policy with spec := spec } ∧ spec ≠ policy.spec then
      { policy with spec := spec, generation := policy.generation + 1 }
    else policy

/-- The policy after some writes. -/
def afterWrites (policy : Policy) (writes : List PolicyWrite) : Policy :=
  writes.foldl PolicyWrite.apply policy

theorem afterWrites_concat (policy : Policy) (writes : List PolicyWrite) (write : PolicyWrite) :
    afterWrites policy (writes ++ [write]) = write.apply (afterWrites policy writes) := by
  rw [afterWrites, List.foldl_append]
  rfl

/-- The write sets the conditions. -/
def PolicyWrite.setsConditions : PolicyWrite → Bool
  | .update _ _ _ => true
  | .reset _ => true
  | .slots _ _ => false
  | .edit _ => false

theorem conditions_apply_of_not_sets {write : PolicyWrite} (h : write.setsConditions = false)
    (policy : Policy) : (write.apply policy).status.conditions = policy.status.conditions := by
  cases write with
  | update now nodes enactments => cases h
  | reset now => cases h
  | slots counters now => rfl
  | edit spec =>
    rw [PolicyWrite.apply]
    split <;> rfl

theorem ofPolicy_nil : ConditionList.OfPolicy [] :=
  ⟨List.nodup_nil, by simp [ConditionList.types]⟩

theorem ofPolicy_apply {policy : Policy} (h : policy.status.conditions.OfPolicy)
    (write : PolicyWrite) : (write.apply policy).status.conditions.OfPolicy := by
  cases hsets : write.setsConditions with
  | false =>
    rw [conditions_apply_of_not_sets hsets]
    exact h
  | true =>
    cases write with
    | update now nodes enactments =>
      rw [PolicyWrite.apply, conditions_setPolicyStatus]
      exact PolicySetter.ofPolicy _ h now _
    | reset now =>
      exact PolicySetter.ofPolicy .statusUnknown ofPolicy_nil now ""
    | slots counters now => cases hsets
    | edit spec => cases hsets

/-- The branches that end the work on a generation. -/
def Branch.finished : Branch → Bool
  | .notMatching => true
  | .failed => true
  | .unfinished => false
  | .pending => false
  | .success => true

theorem find_of_mem {conditions : ConditionList} (hnodup : conditions.types.Nodup) {c : Condition}
    (hc : c ∈ conditions) : conditions.find c.type = some c := by
  induction conditions with
  | nil => cases hc
  | cons first rest ih =>
    obtain ⟨hfirst, hrest⟩ := List.nodup_cons.mp hnodup
    rcases List.mem_cons.mp hc with rfl | hc
    · simp [ConditionList.find]
    · have hne : first.type ≠ c.type := fun e => hfirst (e ▸ List.mem_map_of_mem hc)
      rw [ConditionList.find, List.find?_cons_of_neg (by simpa using hne)]
      exact ih hrest hc

/-- With one entry per type, the rule reads the reason under `Available`. -/
theorem stillInProgress_eq_false_iff {conditions : ConditionList} (h : conditions.OfPolicy) :
    stillInProgress conditions = false ↔ ∃ reason, conditions.reason .available = some reason ∧
      reason ≠ .none ∧ reason ≠ .configurationProgressing := by
  have hany : stillInProgress conditions = false ↔ ∃ c ∈ conditions, c.type = .available ∧
      c.reason ≠ .none ∧ c.reason ≠ .configurationProgressing := by
    simp [stillInProgress]
  rw [hany]
  constructor
  · rintro ⟨c, hc, htype, hreason⟩
    refine ⟨c.reason, ?_, hreason⟩
    rw [ConditionList.reason, ← htype, find_of_mem h.nodup hc]
    rfl
  · rintro ⟨reason, hreason, hne⟩
    obtain ⟨c, hc, rfl⟩ := Option.map_eq_some_iff.mp hreason
    have htype : c.type = .available := by simpa using List.find?_some hc
    exact ⟨c, List.mem_of_find?_eq_some hc, htype, hne⟩

theorem reason_setter (b : Branch) (now : Time) (conditions : ConditionList) (message : String) :
    (∃ reason, (b.setter.setter now conditions message).reason .available = some reason ∧
      reason ≠ .none ∧ reason ≠ .configurationProgressing) ↔ b.finished = true := by
  cases b <;>
    simp [Branch.setter, Branch.finished, PolicySetter.setter, setPolicyNotMatching,
      setPolicyFailedToConfigure, setPolicyProgressing, setPolicySuccess, reason_setEach,
      List.find?]

/-- A generation on which the work has ended: no node matches, or some node failed or aborted, or
as many nodes are done as are ready and none waits. -/
def Ended (g : Generation) (nodes : List Node) (enactments : List Enactment) : Prop :=
  nodes = [] ∨ (∃ e ∈ enactments, holdsAt g .failing e ∨ holdsAt g .aborted e) ∨
    (nodes.countP isReady ≤ enactments.countP (holdsAt g .available) ∧
      ∀ e ∈ enactments, holdsAt g .pending e = false)

theorem finished_branch_iff (policy : Policy) (nodes : List Node) (enactments : List Enactment) :
    (calculatePolicyConditionStatus policy nodes enactments).branch.finished = true ↔
      Ended policy.generation nodes enactments := by
  have hfailed : (∃ e ∈ enactments, holdsAt policy.generation .failing e ∨
        holdsAt policy.generation .aborted e) ↔
      0 < enactments.countP (holdsAt policy.generation .failing) ∨
        0 < enactments.countP (holdsAt policy.generation .aborted) := by
    rw [List.countP_pos_iff, List.countP_pos_iff]
    constructor
    · rintro ⟨e, he, h | h⟩
      · exact Or.inl ⟨e, he, h⟩
      · exact Or.inr ⟨e, he, h⟩
    · rintro (⟨e, he, h⟩ | ⟨e, he, h⟩)
      · exact ⟨e, he, Or.inl h⟩
      · exact ⟨e, he, Or.inr h⟩
  have hpending : (∀ e ∈ enactments, holdsAt policy.generation .pending e = false) ↔
      enactments.countP (holdsAt policy.generation .pending) = 0 := by
    rw [List.countP_eq_zero]
    simp
  rw [Ended, hfailed, hpending]
  unfold PolicyConditionStatus.branch calculatePolicyConditionStatus
  simp only [ConditionCount.failed, ConditionCount.aborted, ConditionCount.available,
    ConditionCount.pending, count_isTrue, filterReady, ← List.countP_eq_length_filter,
    List.length_eq_zero_iff]
  split_ifs with hnodes hbad hready hwaits
  · simp [hnodes, Branch.finished]
  · exact ⟨fun _ => Or.inr (Or.inl hbad), fun _ => rfl⟩
  · simp only [Branch.finished, hnodes, hbad, false_or]
    constructor
    · intro h
      cases h
    · rintro ⟨h, -⟩
      omega
  · simp only [Branch.finished, hnodes, hbad, false_or]
    constructor
    · intro h
      cases h
    · rintro ⟨-, h⟩
      omega
  · simp only [Branch.finished, true_iff]
    exact Or.inr (Or.inr ⟨by omega, by omega⟩)

/-- The last write that set the conditions was a verdict on work that has ended. -/
def LastVerdictEnded (policy : Policy) (writes : List PolicyWrite) : Prop :=
  ∃ before now nodes enactments after,
    writes = before ++ .update now nodes enactments :: after ∧
      (∀ write ∈ after, write.setsConditions = false) ∧
      Ended (afterWrites policy before).generation nodes enactments

theorem stillInProgress_afterWrites {policy : Policy} (hnew : policy.status.conditions = [])
    (writes : List PolicyWrite) :
    (afterWrites policy writes).status.conditions.OfPolicy ∧
      (stillInProgress (afterWrites policy writes).status.conditions = false ↔
        LastVerdictEnded policy writes) := by
  induction writes using List.reverseRecOn with
  | nil =>
    rw [afterWrites, List.foldl_nil, hnew]
    refine ⟨ofPolicy_nil, ?_⟩
    constructor
    · intro h
      cases h
    · rintro ⟨before, now, nodes, enactments, after, h, -⟩
      simp at h
  | append_singleton writes write ih =>
    obtain ⟨hof, ih⟩ := ih
    rw [afterWrites_concat]
    refine ⟨ofPolicy_apply hof write, ?_⟩
    cases hsets : write.setsConditions with
    | false =>
      rw [conditions_apply_of_not_sets hsets, ih]
      constructor
      · rintro ⟨before, now, nodes, enactments, after, rfl, hafter, hended⟩
        refine ⟨before, now, nodes, enactments, after ++ [write], by simp, ?_, hended⟩
        intro w hw
        rcases List.mem_append.mp hw with hw | hw
        · exact hafter w hw
        · rw [List.mem_singleton.mp hw]
          exact hsets
      · rintro ⟨before, now, nodes, enactments, after, hsplit, hafter, hended⟩
        rcases split_concat hsplit with ⟨rfl, -⟩ | ⟨after', rfl, hwrites⟩
        · cases hsets
        · exact ⟨before, now, nodes, enactments, after', hwrites,
            fun w hw => hafter w (List.mem_append_left _ hw), hended⟩
    | true =>
      -- nothing after the last write sets the conditions, so the last verdict is this write
      have hlast : LastVerdictEnded policy (writes ++ [write]) ↔
          ∃ now nodes enactments, write = .update now nodes enactments ∧
            Ended (afterWrites policy writes).generation nodes enactments := by
        constructor
        · rintro ⟨before, now, nodes, enactments, after, hsplit, hafter, hended⟩
          rcases split_concat hsplit with ⟨rfl, rfl⟩ | ⟨after', rfl, -⟩
          · exact ⟨now, nodes, enactments, rfl, hended⟩
          · have hfalse := hafter write (List.mem_append_right _ (List.mem_singleton_self write))
            rw [hsets] at hfalse
            cases hfalse
        · rintro ⟨now, nodes, enactments, rfl, hended⟩
          exact ⟨writes, now, nodes, enactments, [], rfl, by simp, hended⟩
      rw [hlast]
      cases write with
      | update now nodes enactments =>
        rw [stillInProgress_eq_false_iff (ofPolicy_apply hof _), PolicyWrite.apply,
          conditions_setPolicyStatus, reason_setter, finished_branch_iff]
        constructor
        · exact fun h => ⟨now, nodes, enactments, rfl, h⟩
        · rintro ⟨now', nodes', enactments', heq, h⟩
          cases heq
          exact h
      | reset now =>
        constructor
        · intro h
          cases h
        · rintro ⟨_, _, _, heq, -⟩
          cases heq
      | slots counters now => cases hsets
      | edit spec => cases hsets

/-- **When a policy can be edited.**  After any writes to a new policy, another spec is admitted
exactly when the last verdict was made on work that had ended, the captures are the same, and the
values of the selector are label values. -/
theorem edit_admitted_iff {policy : Policy} (hnew : policy.status.conditions = [])
    (writes : List PolicyWrite) {object : Policy}
    (hspec : object.spec ≠ (afterWrites policy writes).spec) :
    specUpdateAdmitted (afterWrites policy writes) object = true ↔
      LastVerdictEnded policy writes ∧
        object.spec.capture = (afterWrites policy writes).spec.capture ∧
        ∀ entry ∈ object.spec.nodeSelector, isValidLabelValue entry.2 = true := by
  rw [← (stillInProgress_afterWrites hnew writes).2]
  simp [specUpdateAdmitted, hspec]

/-- A new policy. -/
def newPolicy : Policy := ⟨"policy", 1, 1, {}, {}⟩

/-- The verdict on two nodes, one of which has failed while the other is at work. -/
def halfFailed : List PolicyWrite :=
  [.reset 1,
    .update 2 [{ name := "a" }, { name := "b" }]
      [⟨"a", { policyGeneration := 1, conditions := setFailedToConfigure 2 [] "failed" }⟩,
        ⟨"b", { policyGeneration := 1, conditions := setProgressing 2 [] "progressing" }⟩]]

/-- The same policy with another desired state. -/
def editedPolicy : Policy := { newPolicy with spec := { desiredState := "interfaces" } }

theorem edit_admitted_half_failed :
    specUpdateAdmitted (afterWrites newPolicy halfFailed) editedPolicy = true := by
  have hnew : newPolicy.status.conditions = [] := rfl
  have hspec : editedPolicy.spec ≠ (afterWrites newPolicy halfFailed).spec := by decide
  have hended : LastVerdictEnded newPolicy halfFailed := by
    refine ⟨[.reset 1], 2, _, _, [], rfl, by simp, Or.inr (Or.inl ⟨_, List.mem_cons_self, ?_⟩)⟩
    decide
  exact (edit_admitted_iff hnew halfFailed hspec).mpr ⟨hended, by decide, by decide⟩
