/-
# Counters and gauges

Metrics as a program keeps them: a `Counter` is a map that counts occurrences, a gauge is a
family of `Series` with one value per label set, and a `TrackedGauge` is a gauge whose label sets
consist of an owner and a key.  The series of an owner are overwritten when it is counted anew;
the keys that are gone are found by comparing with the keys remembered from the time before.

`Exports` says what a tracked gauge is for: it shows, for every owner, the last counter it was
given and nothing else.  Counting an owner anew and forgetting one keep this
(`Exports.update`, `Exports.forget`).
-/
import Mathlib.Algebra.BigOperators.Group.List.Lemmas
import Mathlib.Algebra.GroupWithZero.Nat
import Mathlib.Data.List.Count
import Mathlib.Logic.Function.Basic
import Mathlib.Tactic.Common
import KubernetesNmstate.Counting

/-! ## Counters -/

/-- A map from keys to counts: its keys in some order, and the count of every key, zero for one
that is missing. -/
structure Counter (κ : Type) where
  keys : List κ := []
  count : κ → ℕ := fun _ => 0

namespace Counter

variable {κ : Type} [DecidableEq κ]

/-- `counts[key]++`. -/
def increment (c : Counter κ) (key : κ) : Counter κ where
  keys := if key ∈ c.keys then c.keys else c.keys ++ [key]
  count := Function.update c.count key (c.count key + 1)

/-- The value under a key, if the key is there. -/
def get (c : Counter κ) (key : κ) : Option ℕ := if key ∈ c.keys then some (c.count key) else none

/-- The occurrences in a list, counted one after the other. -/
def ofList (occurrences : List κ) : Counter κ := occurrences.foldl increment {}

theorem mem_keys_increment {c : Counter κ} {key k : κ} :
    k ∈ (c.increment key).keys ↔ k ∈ c.keys ∨ k = key := by
  unfold increment
  by_cases h : key ∈ c.keys
  · simp only [h, if_true]
    exact ⟨Or.inl, fun hk => hk.elim id fun e => e ▸ h⟩
  · simp [h]

theorem count_increment (c : Counter κ) (key k : κ) :
    (c.increment key).count k = c.count k + if k = key then 1 else 0 := by
  unfold increment
  by_cases h : k = key
  · subst h
    simp
  · simp [h]

theorem mem_keys_foldl (occurrences : List κ) (c : Counter κ) (k : κ) :
    k ∈ (occurrences.foldl increment c).keys ↔ k ∈ c.keys ∨ k ∈ occurrences := by
  induction occurrences generalizing c with
  | nil => simp
  | cons x rest ih => rw [List.foldl_cons, ih, mem_keys_increment, List.mem_cons, or_assoc]

theorem count_foldl (occurrences : List κ) (c : Counter κ) (k : κ) :
    (occurrences.foldl increment c).count k = c.count k + occurrences.count k := by
  induction occurrences generalizing c with
  | nil => simp
  | cons x rest ih =>
    rw [List.foldl_cons, ih, count_increment, List.count_cons]
    by_cases h : k = x
    · subst h
      simp only [BEq.rfl, if_true]
      omega
    · have hne : (x == k) = false := beq_eq_false_iff_ne.mpr fun e => h e.symm
      simp [h, hne]

theorem mem_keys_ofList {occurrences : List κ} {k : κ} :
    k ∈ (ofList occurrences).keys ↔ k ∈ occurrences := by
  simpa [ofList] using mem_keys_foldl occurrences {} k

theorem count_ofList (occurrences : List κ) (k : κ) :
    (ofList occurrences).count k = occurrences.count k := by
  simpa [ofList] using count_foldl occurrences {} k

/-- **A counted list** shows every element with the number of its occurrences. -/
theorem get_ofList (occurrences : List κ) (k : κ) :
    (ofList occurrences).get k = if k ∈ occurrences then some (occurrences.count k) else none := by
  simp only [get, mem_keys_ofList, count_ofList]

/-- Two counted lists show the same under a key if they hold it equally often. -/
theorem get_ofList_eq_iff {occurrences occurrences' : List κ} {k : κ} :
    (ofList occurrences).get k = (ofList occurrences').get k
      ↔ occurrences.count k = occurrences'.count k := by
  rw [get_ofList, get_ofList]
  have hpos := @List.count_pos_iff κ _ _ k occurrences
  have hpos' := @List.count_pos_iff κ _ _ k occurrences'
  by_cases h : k ∈ occurrences <;> by_cases h' : k ∈ occurrences' <;>
    simp only [h, h', if_true, if_false, iff_true, iff_false, Option.some.injEq, reduceCtorEq,
      true_iff, false_iff] at hpos hpos' ⊢ <;> omega

/-- The sum of the values. -/
def total (c : Counter κ) : ℕ := (c.keys.map c.count).sum

theorem nodup_keys_increment {c : Counter κ} (h : c.keys.Nodup) (key : κ) :
    (c.increment key).keys.Nodup :=
  h.addNew key

theorem nodup_keys_foldl (occurrences : List κ) {c : Counter κ} (h : c.keys.Nodup) :
    (occurrences.foldl increment c).keys.Nodup := by
  induction occurrences generalizing c with
  | nil => exact h
  | cons x rest ih => exact ih (nodup_keys_increment h x)

/-- Every occurrence is counted once. -/
theorem total_ofList (occurrences : List κ) : (ofList occurrences).total = occurrences.length := by
  have hperm : (ofList occurrences).keys.Perm occurrences.dedup := by
    have hnd : (ofList occurrences).keys.Nodup := nodup_keys_foldl occurrences List.nodup_nil
    rw [List.perm_ext_iff_of_nodup hnd occurrences.nodup_dedup]
    intro k
    rw [List.mem_dedup, mem_keys_ofList]
  rw [total, (hperm.map _).sum_eq, funext (count_ofList occurrences)]
  exact List.sum_map_count_dedup_eq_length occurrences

end Counter

/-! ## Series -/

/-- The series of a gauge: the value of every label set, if it has one. -/
abbrev Series (κ : Type) : Type := κ → Option ℕ

namespace Series

variable {κ : Type} [DecidableEq κ]

/-- Set one series after the other. -/
def setAll (g : Series κ) (labels : List κ) (value : κ → ℕ) : Series κ :=
  labels.foldl (fun g k => Function.update g k (some (value k))) g

/-- Delete one series after the other. -/
def deleteAll (g : Series κ) (labels : List κ) : Series κ :=
  labels.foldl (fun g k => Function.update g k none) g

theorem setAll_apply (g : Series κ) (labels : List κ) (value : κ → ℕ) (k : κ) :
    g.setAll labels value k = if k ∈ labels then some (value k) else g k := by
  induction labels generalizing g with
  | nil => rfl
  | cons x rest ih =>
    rw [setAll, List.foldl_cons, ← setAll, ih]
    by_cases hx : k = x
    · subst hx
      simp
    · simp [hx]

theorem deleteAll_apply (g : Series κ) (labels : List κ) (k : κ) :
    g.deleteAll labels k = if k ∈ labels then none else g k := by
  induction labels generalizing g with
  | nil => rfl
  | cons x rest ih =>
    rw [deleteAll, List.foldl_cons, ← deleteAll, ih]
    by_cases hx : k = x
    · subst hx
      simp
    · simp [hx]

end Series

/-! ## Gauges with remembered keys -/

/-- A gauge with labels for an owner and a key, and the keys last set for every owner. -/
structure TrackedGauge (ν κ : Type) where
  series : Series (ν × κ) := fun _ => none
  remembered : ν → Option (List κ) := fun _ => none

namespace TrackedGauge

variable {ν κ : Type} [DecidableEq ν] [DecidableEq κ]

/-- Count an owner anew: set the series of its keys, and delete those of the remembered keys
that are gone. -/
def update (m : TrackedGauge ν κ) (owner : ν) (counts : Counter κ) : TrackedGauge ν κ where
  series :=
    let current := m.series.setAll (counts.keys.map (Prod.mk owner)) fun label =>
      counts.count label.2
    let gone := ((m.remembered owner).getD []).filter fun key => key ∉ counts.keys
    current.deleteAll (gone.map (Prod.mk owner))
  remembered := Function.update m.remembered owner (some counts.keys)

/-- Delete the series of an owner, as far as they are remembered. -/
def forget (m : TrackedGauge ν κ) (owner : ν) : TrackedGauge ν κ :=
  match m.remembered owner with
  | none => m
  | some keys =>
    { series := m.series.deleteAll (keys.map (Prod.mk owner))
      remembered := Function.update m.remembered owner none }

/-- The gauge shows, for every owner, the last counter it was given. -/
structure Exports (m : TrackedGauge ν κ) (last : ν → Option (Counter κ)) : Prop where
  series : ∀ owner key, m.series (owner, key) = (last owner).bind fun counts => counts.get key
  remembered : ∀ owner, m.remembered owner = (last owner).map Counter.keys

omit [DecidableEq ν] [DecidableEq κ] in
theorem mem_map_mk {owner owner' : ν} {key : κ} {keys : List κ} :
    (owner', key) ∈ keys.map (Prod.mk owner) ↔ owner' = owner ∧ key ∈ keys := by
  simp only [List.mem_map, Prod.mk.injEq]
  constructor
  · rintro ⟨k, hk, rfl, rfl⟩
    exact ⟨rfl, hk⟩
  · rintro ⟨rfl, hk⟩
    exact ⟨key, hk, rfl, rfl⟩

theorem forget_series (m : TrackedGauge ν κ) (owner : ν) : (m.forget owner).series =
    m.series.deleteAll (((m.remembered owner).getD []).map (Prod.mk owner)) := by
  unfold forget
  cases m.remembered owner <;> rfl

theorem forget_remembered (m : TrackedGauge ν κ) (owner : ν) :
    (m.forget owner).remembered = Function.update m.remembered owner none := by
  unfold forget
  cases h : m.remembered owner with
  | none =>
    have hself := Function.update_eq_self owner m.remembered
    rw [h] at hself
    exact hself.symm
  | some keys => rfl

/-- Counting an owner anew leaves the series of the others alone. -/
theorem series_update_of_ne (m : TrackedGauge ν κ) {owner other : ν} (h : other ≠ owner)
    (counts : Counter κ) (key : κ) :
    (m.update owner counts).series (other, key) = m.series (other, key) := by
  simp [update, Series.deleteAll_apply, Series.setAll_apply, mem_map_mk, h]

theorem series_forget_of_ne (m : TrackedGauge ν κ) {owner other : ν} (h : other ≠ owner)
    (key : κ) : (m.forget owner).series (other, key) = m.series (other, key) := by
  simp [forget_series, Series.deleteAll_apply, mem_map_mk, h]

variable {m : TrackedGauge ν κ} {last : ν → Option (Counter κ)}

omit [DecidableEq ν] in
theorem exports_initial : Exports ({} : TrackedGauge ν κ) fun _ => none :=
  ⟨fun _ _ => rfl, fun _ => rfl⟩

omit [DecidableEq ν] in
/-- A key that is not remembered has no series. -/
theorem Exports.series_eq_none (h : Exports m last) {owner : ν} {key : κ}
    (hkey : key ∉ (m.remembered owner).getD []) : m.series (owner, key) = none := by
  rw [h.remembered] at hkey
  rw [h.series]
  cases hlast : last owner with
  | none => rfl
  | some counts =>
    rw [hlast] at hkey
    exact if_neg hkey

/-- **Counting an owner anew**: the gauge shows its new counter. -/
theorem Exports.update (h : Exports m last) (owner : ν) (counts : Counter κ) :
    Exports (m.update owner counts) (Function.update last owner (some counts)) := by
  constructor
  · intro owner' key
    by_cases hne : owner' = owner
    · subst hne
      rw [Function.update_self, Option.bind_some, Counter.get]
      simp only [TrackedGauge.update, Series.deleteAll_apply, Series.setAll_apply, mem_map_mk,
        List.mem_filter, true_and, decide_eq_true_eq]
      by_cases hkey : key ∈ counts.keys
      · simp [hkey]
      · -- what was there before is remembered, and deleted
        by_cases hold : key ∈ (m.remembered owner').getD []
        · simp [hkey, hold]
        · simp [hkey, h.series_eq_none hold]
    · rw [series_update_of_ne m hne, Function.update_of_ne hne, h.series]
  · intro owner'
    by_cases hne : owner' = owner
    · subst hne
      simp [TrackedGauge.update]
    · simp only [TrackedGauge.update, Function.update_of_ne hne]
      exact h.remembered owner'

/-- **Forgetting an owner**: the gauge shows nothing of it. -/
theorem Exports.forget (h : Exports m last) (owner : ν) :
    Exports (m.forget owner) (Function.update last owner none) := by
  constructor
  · intro owner' key
    by_cases hne : owner' = owner
    · subst hne
      rw [Function.update_self, Option.bind_none, forget_series, Series.deleteAll_apply]
      by_cases hold : key ∈ (m.remembered owner').getD []
      · exact if_pos (mem_map_mk.mpr ⟨rfl, hold⟩)
      · rw [h.series_eq_none hold, ite_self]
    · rw [series_forget_of_ne m hne, Function.update_of_ne hne, h.series]
  · intro owner'
    rw [forget_remembered]
    by_cases hne : owner' = owner
    · subst hne
      simp
    · rw [Function.update_of_ne hne, Function.update_of_ne hne, h.remembered]

end TrackedGauge
