/-
# Condition lists as maps with timestamps

What a condition list is for: a map from condition types to what was last said about them, with
the time it was last said and the time its status last changed.

`api/shared/condition_types.go` has strings for types, statuses and reasons, and the rest of this
development has enumerations of those in use.  `Stamped` is the list of the source over any such
types and any instants; `stamped_run` says that `ConditionList` is one of its instances.

After any sequence of `Set` calls, the entry of a type is determined by the calls for this type
(`find_run`).  `Shows` says how, and `conditions_refine_map` puts it together.
-/
import Mathlib.Data.List.Induction
import Mathlib.Data.List.Nodup
import Mathlib.Order.Nat
import KubernetesNmstate.Conditions
import KubernetesNmstate.Counting

/-! ## The list -/

/-- `Condition`, over any condition types `κ`, statuses `σ`, reasons `ρ` and instants `τ`. -/
structure Stamped (κ σ ρ τ : Type) where
  type : κ
  status : σ
  reason : ρ
  message : String
  lastHeartbeatTime : τ
  lastTransitionTime : τ
  deriving DecidableEq, Repr

/-- The arguments of a `Set` call, and the time of the call. -/
structure SetCall (κ σ ρ τ : Type) where
  time : τ
  type : κ
  status : σ
  reason : ρ
  message : String
  deriving DecidableEq, Repr

namespace Stamped

variable {κ σ ρ τ : Type}

/-- `NewCondition`. -/
def new (call : SetCall κ σ ρ τ) : Stamped κ σ ρ τ where
  type := call.type
  status := call.status
  reason := call.reason
  message := call.message
  lastHeartbeatTime := call.time
  lastTransitionTime := call.time

/-- The types of the entries, in order. -/
def types (conditions : List (Stamped κ σ ρ τ)) : List κ := conditions.map type

section Rewriting

variable [DecidableEq σ] [DecidableEq ρ]

/-- The part of `Set` that rewrites an entry it found. -/
def refresh (condition : Stamped κ σ ρ τ) (call : SetCall κ σ ρ τ) : Stamped κ σ ρ τ :=
  let condition :=
    if condition.status ≠ call.status ∨ condition.reason ≠ call.reason ∨
        condition.message ≠ call.message then
      { condition with
        lastTransitionTime :=
          if condition.status ≠ call.status then call.time else condition.lastTransitionTime
        status := call.status
        reason := call.reason
        message := call.message }
    else condition
  { condition with lastHeartbeatTime := call.time }

theorem refresh_eq (condition : Stamped κ σ ρ τ) (call : SetCall κ σ ρ τ) :
    condition.refresh call =
      { type := condition.type
        status := call.status
        reason := call.reason
        message := call.message
        lastHeartbeatTime := call.time
        lastTransitionTime :=
          if condition.status = call.status then condition.lastTransitionTime else call.time } := by
  unfold refresh
  by_cases hstatus : condition.status = call.status
  · by_cases hrest : condition.reason ≠ call.reason ∨ condition.message ≠ call.message
    · simp [hstatus, hrest]
    · -- nothing differs, so the entry already says what the call says
      push Not at hrest
      simp [hstatus, hrest.1, hrest.2]
  · simp [hstatus]

/-- What a call makes of the entry of its type. -/
def update : Option (Stamped κ σ ρ τ) → SetCall κ σ ρ τ → Option (Stamped κ σ ρ τ)
  | none, call => some (new call)
  | some condition, call => some (condition.refresh call)

end Rewriting

section Lookup

variable [DecidableEq κ]

/-- `Find`. -/
def find (conditions : List (Stamped κ σ ρ τ)) (conditionType : κ) : Option (Stamped κ σ ρ τ) :=
  conditions.find? fun condition => condition.type = conditionType

theorem find_cons (condition : Stamped κ σ ρ τ) (rest : List (Stamped κ σ ρ τ)) (t : κ) :
    find (condition :: rest) t = if condition.type = t then some condition else find rest t := by
  by_cases h : condition.type = t
  · simp [find, h]
  · simp [find, h]

/-- The calls for a type. -/
def callsFor (calls : List (SetCall κ σ ρ τ)) (t : κ) : List (SetCall κ σ ρ τ) :=
  calls.filter fun call => call.type = t

theorem callsFor_concat (calls : List (SetCall κ σ ρ τ)) (call : SetCall κ σ ρ τ) (t : κ) :
    callsFor (calls ++ [call]) t
      = if call.type = t then callsFor calls t ++ [call] else callsFor calls t := by
  unfold callsFor
  rw [List.filter_append]
  by_cases h : call.type = t
  · simp [h]
  · simp [h]

theorem type_of_mem_callsFor {calls : List (SetCall κ σ ρ τ)} {t : κ} {call : SetCall κ σ ρ τ}
    (h : call ∈ callsFor calls t) : call.type = t := by
  simpa using List.of_mem_filter h

end Lookup

section Calls

variable [DecidableEq κ] [DecidableEq σ] [DecidableEq ρ]

/-- `Set`. -/
def set : List (Stamped κ σ ρ τ) → SetCall κ σ ρ τ → List (Stamped κ σ ρ τ)
  | [], call => [new call]
  | condition :: rest, call =>
    if condition.type = call.type then condition.refresh call :: rest
    else condition :: set rest call

/-- `Set` calls from the empty list. -/
def run (calls : List (SetCall κ σ ρ τ)) : List (Stamped κ σ ρ τ) := calls.foldl set []

theorem run_concat (calls : List (SetCall κ σ ρ τ)) (call : SetCall κ σ ρ τ) :
    run (calls ++ [call]) = set (run calls) call := by
  rw [run, run, List.foldl_append, List.foldl_cons, List.foldl_nil]

/-! ## One call -/

/-- The law of the map. -/
theorem find_set (conditions : List (Stamped κ σ ρ τ)) (call : SetCall κ σ ρ τ) (t : κ) :
    find (set conditions call) t
      = if call.type = t then update (find conditions t) call else find conditions t := by
  induction conditions with
  | nil => rw [set, find_cons]; rfl
  | cons condition rest ih =>
    rw [set, find_cons]
    by_cases hcall : condition.type = call.type
    · have htype : (condition.refresh call).type = call.type := by rw [refresh_eq, hcall]
      rw [if_pos hcall, find_cons, htype, hcall]
      by_cases ht : call.type = t
      · rw [if_pos ht, if_pos ht, if_pos ht]
        rfl
      · rw [if_neg ht, if_neg ht, if_neg ht]
    · rw [if_neg hcall, find_cons, ih]
      by_cases ht : condition.type = t
      · have hne : ¬ call.type = t := fun h => hcall (ht.trans h.symm)
        rw [if_pos ht, if_pos ht, if_neg hne]
      · rw [if_neg ht, if_neg ht]

theorem types_set (conditions : List (Stamped κ σ ρ τ)) (call : SetCall κ σ ρ τ) :
    types (set conditions call)
      = if call.type ∈ types conditions then types conditions
        else types conditions ++ [call.type] := by
  unfold types
  induction conditions with
  | nil => rfl
  | cons condition rest ih =>
    rw [set]
    by_cases h : condition.type = call.type
    · simp [h, refresh_eq]
    · have hne : ¬ call.type = condition.type := fun e => h e.symm
      rw [if_neg h, List.map_cons, ih]
      by_cases hmem : call.type ∈ rest.map type
      · simp [hmem]
      · simp [hmem, hne]

/-- The entries of other types, in order. -/
theorem filter_set (conditions : List (Stamped κ σ ρ τ)) (call : SetCall κ σ ρ τ) :
    (set conditions call).filter (fun condition => condition.type ≠ call.type)
      = conditions.filter fun condition => condition.type ≠ call.type := by
  induction conditions with
  | nil => simp [set, new]
  | cons condition rest ih =>
    rw [set]
    by_cases h : condition.type = call.type
    · simp [h, refresh_eq]
    · rw [if_neg h, List.filter_cons, List.filter_cons, ih]

/-- A call for one type leaves every entry of another as it is, and all entries in their order. -/
structure Keeps (conditions conditions' : List (Stamped κ σ ρ τ)) (t : κ) : Prop where
  find : ∀ t', t' ≠ t → Stamped.find conditions' t' = Stamped.find conditions t'
  entries : conditions'.filter (fun condition => condition.type ≠ t)
    = conditions.filter fun condition => condition.type ≠ t
  order : types conditions <+: types conditions'

theorem keeps_set (conditions : List (Stamped κ σ ρ τ)) (call : SetCall κ σ ρ τ) :
    Keeps conditions (set conditions call) call.type where
  find := by
    intro t' hne
    rw [find_set, if_neg hne.symm]
  entries := filter_set conditions call
  order := by
    rw [types_set]
    split
    · exact List.prefix_rfl
    · exact List.prefix_append _ _

/-- The entry of a type after a sequence of calls depends on the calls for this type. -/
theorem find_run (calls : List (SetCall κ σ ρ τ)) (t : κ) :
    find (run calls) t = (callsFor calls t).foldl update none := by
  induction calls using List.reverseRecOn with
  | nil => rfl
  | append_singleton calls call ih =>
    rw [run_concat, find_set, ih, callsFor_concat]
    split
    · rw [List.foldl_append, List.foldl_cons, List.foldl_nil]
    · rfl

end Calls

/-! ## What the calls for a type leave -/

/-- The call, after those before it for the same type, inserts the type or changes its status. -/
def Changes (before : List (SetCall κ σ ρ τ)) (call : SetCall κ σ ρ τ) : Prop :=
  ∀ previous ∈ before.getLast?, previous.status ≠ call.status

/-- The last of these calls that inserted the type or changed its status. -/
def LastChange (calls : List (SetCall κ σ ρ τ)) (change : SetCall κ σ ρ τ) : Prop :=
  ∃ before after, calls = before ++ change :: after ∧ Changes before change ∧
    ∀ between call rest, after = between ++ call :: rest →
      ¬ Changes (before ++ change :: between) call

/-- What the entry of a type says after these calls for it: what the last call said and when, and
when a call last inserted the type or changed its status. -/
structure Shows (calls : List (SetCall κ σ ρ τ)) (condition : Stamped κ σ ρ τ) : Prop where
  last : ∃ last, calls.getLast? = some last ∧ condition.type = last.type ∧
    condition.status = last.status ∧ condition.reason = last.reason ∧
    condition.message = last.message ∧ condition.lastHeartbeatTime = last.time
  change : ∃ change, LastChange calls change ∧ condition.lastTransitionTime = change.time

theorem lastChange_of_changes {calls : List (SetCall κ σ ρ τ)} {call : SetCall κ σ ρ τ}
    (h : Changes calls call) : LastChange (calls ++ [call]) call := by
  refine ⟨calls, [], rfl, h, ?_⟩
  intro between later rest hnil
  simp at hnil

/-- A call that changes nothing leaves the last change where it was. -/
theorem LastChange.concat {calls : List (SetCall κ σ ρ τ)} {change call : SetCall κ σ ρ τ}
    (h : LastChange calls change) (hcall : ¬ Changes calls call) :
    LastChange (calls ++ [call]) change := by
  obtain ⟨before, after, rfl, hchange, hafter⟩ := h
  refine ⟨before, after ++ [call], by simp, hchange, ?_⟩
  intro between later rest hsplit
  rcases List.eq_nil_or_concat rest with rfl | ⟨rest, final, rfl⟩
  · -- the later call is the new one
    obtain ⟨rfl, hlater⟩ := List.append_inj' hsplit rfl
    obtain rfl := List.singleton_inj.mp hlater
    exact hcall
  · rw [List.concat_eq_append, ← List.cons_append, ← List.append_assoc] at hsplit
    obtain ⟨hsplit, -⟩ := List.append_inj' hsplit rfl
    exact hafter between later rest hsplit

theorem shows_new (call : SetCall κ σ ρ τ) : Shows [call] (new call) where
  last := ⟨call, rfl, rfl, rfl, rfl, rfl, rfl⟩
  change := by
    refine ⟨call, ?_, rfl⟩
    have hinserted : Changes ([] : List (SetCall κ σ ρ τ)) call := by
      intro previous hprevious
      cases hprevious
    exact lastChange_of_changes hinserted

theorem Shows.refresh [DecidableEq σ] [DecidableEq ρ] {calls : List (SetCall κ σ ρ τ)}
    {condition : Stamped κ σ ρ τ} (h : Shows calls condition) {call : SetCall κ σ ρ τ}
    (htype : condition.type = call.type) : Shows (calls ++ [call]) (condition.refresh call) := by
  obtain ⟨last, hlast, -, hstatus, -, -, -⟩ := h.last
  obtain ⟨change, hchange, htime⟩ := h.change
  rw [refresh_eq]
  refine ⟨⟨call, List.getLast?_concat, htype, rfl, rfl, rfl, rfl⟩, ?_⟩
  -- the entry shows the status of the last call, so the two tests for a change agree
  have hchanges : Changes calls call ↔ condition.status ≠ call.status := by
    rw [Changes, hlast, hstatus]
    simp
  by_cases hsame : condition.status = call.status
  · refine ⟨change, hchange.concat fun hc => hchanges.mp hc hsame, ?_⟩
    rw [if_pos hsame]
    exact htime
  · refine ⟨call, lastChange_of_changes (hchanges.mpr hsame), ?_⟩
    rw [if_neg hsame]

/-- Calls for one type: no entry without a call, and an entry that shows the calls otherwise. -/
theorem foldl_update [DecidableEq σ] [DecidableEq ρ] {t : κ} (calls : List (SetCall κ σ ρ τ))
    (htype : ∀ call ∈ calls, call.type = t) :
    (calls = [] ∧ calls.foldl update none = none) ∨
      ∃ condition, calls.foldl update none = some condition ∧ condition.type = t ∧
        Shows calls condition := by
  induction calls using List.reverseRecOn with
  | nil => exact Or.inl ⟨rfl, rfl⟩
  | append_singleton calls call ih =>
    have hcall : call.type = t := htype call (by simp)
    right
    rw [List.foldl_append, List.foldl_cons, List.foldl_nil]
    rcases ih fun other hother => htype other (by simp [hother]) with
      ⟨rfl, hnone⟩ | ⟨condition, hsome, ht, hshows⟩
    · rw [hnone]
      exact ⟨new call, rfl, hcall, shows_new call⟩
    · rw [hsome]
      refine ⟨condition.refresh call, rfl, ?_, hshows.refresh (ht.trans hcall.symm)⟩
      rw [refresh_eq]
      exact ht

/-- Under a clock that does not go back, a change is not later than the last call. -/
theorem Shows.transition_le [Preorder τ] {calls : List (SetCall κ σ ρ τ)}
    {condition : Stamped κ σ ρ τ} (h : Shows calls condition)
    (hclock : calls.Pairwise fun call later => call.time ≤ later.time) :
    condition.lastTransitionTime ≤ condition.lastHeartbeatTime := by
  obtain ⟨last, hlast, -, -, -, -, hheartbeat⟩ := h.last
  obtain ⟨change, ⟨before, after, rfl, -, -⟩, htransition⟩ := h.change
  rw [hheartbeat, htransition]
  rcases List.eq_nil_or_concat after with rfl | ⟨after, final, rfl⟩
  · rw [List.getLast?_concat, Option.some.injEq] at hlast
    rw [hlast]
  · have hfinal : final = last := by
      rw [List.concat_eq_append, ← List.cons_append, ← List.append_assoc, List.getLast?_concat,
        Option.some.injEq] at hlast
      exact hlast
    have hafter := (List.pairwise_append.mp hclock).2.1
    rw [← hfinal]
    exact List.rel_of_pairwise_cons hafter (by simp)

/-! ## Any sequence of calls -/

section Runs

variable [DecidableEq κ] [DecidableEq σ] [DecidableEq ρ]

theorem nodup_types_run (calls : List (SetCall κ σ ρ τ)) : (types (run calls)).Nodup := by
  induction calls using List.reverseRecOn with
  | nil => exact List.nodup_nil
  | append_singleton calls call ih =>
    rw [run_concat, types_set]
    exact ih.addNew call.type

theorem find_run_eq_none_iff (calls : List (SetCall κ σ ρ τ)) (t : κ) :
    find (run calls) t = none ↔ ∀ call ∈ calls, call.type ≠ t := by
  have hempty : callsFor calls t = [] ↔ ∀ call ∈ calls, call.type ≠ t := by
    simp [callsFor]
  rw [find_run, ← hempty]
  rcases foldl_update (callsFor calls t) fun call => type_of_mem_callsFor with
    ⟨hnil, hnone⟩ | ⟨condition, hsome, -, hshows⟩
  · simp [hnil]
  · obtain ⟨last, hlast, -⟩ := hshows.last
    have hne : callsFor calls t ≠ [] := by
      intro hnil
      rw [hnil] at hlast
      cases hlast
    simp [hsome, hne]

theorem shows_of_find_run {calls : List (SetCall κ σ ρ τ)} {t : κ} {condition : Stamped κ σ ρ τ}
    (h : find (run calls) t = some condition) :
    condition.type = t ∧ Shows (callsFor calls t) condition := by
  rw [find_run] at h
  rcases foldl_update (callsFor calls t) fun call => type_of_mem_callsFor with
    ⟨-, hnone⟩ | ⟨other, hsome, htype, hshows⟩
  · rw [hnone] at h
    cases h
  · rw [hsome, Option.some.injEq] at h
    exact h ▸ ⟨htype, hshows⟩

/-- **A condition list is a map with honest timestamps.**  After any `Set` calls from the empty
list, under a clock that does not go back: no type has two entries; `Find` returns nil for the
types that were never set, and for any other the entry that shows the calls for it; its status did
not change later than it was set; and one more call keeps all other entries. -/
theorem conditions_refine_map [Preorder τ] (calls : List (SetCall κ σ ρ τ))
    (hclock : calls.Pairwise fun call later => call.time ≤ later.time) :
    (types (run calls)).Nodup ∧
    (∀ t, find (run calls) t = none ↔ ∀ call ∈ calls, call.type ≠ t) ∧
    (∀ t condition, find (run calls) t = some condition →
      condition.type = t ∧ Shows (callsFor calls t) condition ∧
        condition.lastTransitionTime ≤ condition.lastHeartbeatTime) ∧
    ∀ call, Keeps (run calls) (set (run calls) call) call.type := by
  refine ⟨nodup_types_run calls, find_run_eq_none_iff calls, ?_, keeps_set (run calls)⟩
  intro t condition hfind
  obtain ⟨htype, hshows⟩ := shows_of_find_run hfind
  exact ⟨htype, hshows, hshows.transition_le (hclock.filter _)⟩

end Runs

/-- `Failing` is set between two calls for `Available` that agree on the status. -/
def repeatedCalls : List (SetCall String String String ℕ) :=
  [⟨1, "Available", "False", "Retrying", ""⟩, ⟨2, "Failing", "True", "Retrying", "timeout"⟩,
    ⟨3, "Available", "False", "FailedToConfigure", ""⟩]

theorem conditions_refine_map_repeated :
    find (run repeatedCalls) "Available"
        = some ⟨"Available", "False", "FailedToConfigure", "", 3, 1⟩ ∧
      Shows (callsFor repeatedCalls "Available")
        ⟨"Available", "False", "FailedToConfigure", "", 3, 1⟩ := by
  have hclock : repeatedCalls.Pairwise fun call later => call.time ≤ later.time := by decide
  have hfind : find (run repeatedCalls) "Available"
      = some ⟨"Available", "False", "FailedToConfigure", "", 3, 1⟩ := by decide
  exact ⟨hfind, ((conditions_refine_map repeatedCalls hclock).2.2.1 _ _ hfind).2.1⟩

end Stamped

/-! ## The conditions of enactments and policies -/

/-- A condition with the types of this development. -/
def Condition.stamped (c : Condition) :
    Stamped ConditionType ConditionStatus ConditionReason Time where
  type := c.type
  status := c.status
  reason := c.reason
  message := c.message
  lastHeartbeatTime := c.lastHeartbeatTime
  lastTransitionTime := c.lastTransitionTime

theorem Condition.stamped_refresh (now : Time) (st : ConditionStatus) (rs : ConditionReason)
    (msg : String) (c : Condition) :
    (c.refresh now st rs msg).stamped = c.stamped.refresh ⟨now, c.type, st, rs, msg⟩ := by
  unfold Condition.refresh Stamped.refresh Condition.stamped
  by_cases h : c.status ≠ st ∨ c.reason ≠ rs ∨ c.message ≠ msg
  · simp only [h, if_true]
  · simp only [h, if_false]

namespace ConditionList

theorem stamped_set (now : Time) (conditions : ConditionList) (t : ConditionType)
    (st : ConditionStatus) (rs : ConditionReason) (msg : String) :
    (set now conditions t st rs msg).map Condition.stamped
      = Stamped.set (conditions.map Condition.stamped) ⟨now, t, st, rs, msg⟩ := by
  induction conditions with
  | nil => rfl
  | cons c cs ih =>
    rw [List.map_cons, Stamped.set, set]
    by_cases h : c.type = t
    · subst h
      rw [if_pos rfl, List.map_cons, Condition.stamped_refresh]
      exact (if_pos rfl).symm
    · rw [if_neg h, List.map_cons, ih]
      exact (if_neg h).symm

/-- **The lists of this development** are those of the source, call by call. -/
theorem stamped_run (calls : List (SetCall ConditionType ConditionStatus ConditionReason Time)) :
    (calls.foldl (fun cs call => set call.time cs call.type call.status call.reason call.message)
        []).map Condition.stamped
      = Stamped.run calls := by
  induction calls using List.reverseRecOn with
  | nil => rfl
  | append_singleton calls call ih =>
    rw [Stamped.run_concat, ← ih, List.foldl_append, List.foldl_cons, List.foldl_nil, stamped_set]

end ConditionList
