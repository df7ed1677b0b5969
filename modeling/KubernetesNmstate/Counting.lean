/-
# Counting members of a list

General facts about `List.countP` that the counting arguments of this development
share: a pigeonhole for keyed lists, the count by classes, how a count over a list
without repetitions changes when a predicate changes at one member, and sums of weights.
-/
import Mathlib.Algebra.GroupWithZero.Nat
import Mathlib.Data.List.Nodup
import Mathlib.Data.List.Count
import Mathlib.Data.List.Perm.Subperm
import Mathlib.Tactic.Common

namespace List

variable {α κ : Type}

/-! ## Keyed lists -/

/-- Dropping the elements of one key and then those of others. -/
theorem filter_key_cons [DecidableEq κ] (f : α → κ) (k : κ) (ks : List κ) (l : List α) :
    (l.filter fun x => f x ≠ k).filter (fun x => f x ∉ ks) = l.filter fun x => f x ∉ k :: ks := by
  rw [filter_filter]
  refine filter_congr fun x _ => ?_
  rw [Bool.eq_iff_iff, Bool.and_eq_true, decide_eq_true_iff, decide_eq_true_iff,
    decide_eq_true_iff, mem_cons, not_or, and_comm]

/-- A new key at the end, and one that is there already not at all. -/
theorem Nodup.addNew [DecidableEq κ] {ks : List κ} (h : ks.Nodup) (k : κ) :
    (if k ∈ ks then ks else ks ++ [k]).Nodup := by
  by_cases hk : k ∈ ks
  · rw [if_pos hk]
    exact h
  · rw [if_neg hk, ← concat_eq_append]
    exact h.concat hk

/-- Counting the elements whose key is among `k :: ks`, split at `k`. -/
theorem countP_key_cons_le [DecidableEq κ] (f : α → κ) (p : α → Bool) (k : κ) (ks : List κ)
    (l : List α) :
    l.countP (fun x => p x && decide (f x ∈ k :: ks)) ≤
      l.countP (fun x => p x && decide (f x = k)) +
        l.countP (fun x => p x && decide (f x ∈ ks)) := by
  induction l with
  | nil => simp
  | cons x l ih =>
    simp only [countP_cons]
    by_cases hp : p x <;> by_cases hk : f x = k <;> by_cases hks : f x ∈ ks <;>
      simp [hp, hk, hks] at ih ⊢ <;> omega

/-- At most one element per key, so at most as many elements as keys. -/
theorem countP_key_le_length [DecidableEq κ] (f : α → κ) (p : α → Bool) (ks : List κ) (l : List α)
    (hone : ∀ k ∈ ks, l.countP (fun x => decide (f x = k)) ≤ 1) :
    l.countP (fun x => p x && decide (f x ∈ ks)) ≤ ks.length := by
  induction ks with
  | nil => simp
  | cons k ks ih =>
    have hsplit := countP_key_cons_le f p k ks l
    have hk : l.countP (fun x => p x && decide (f x = k)) ≤ 1 :=
      Nat.le_trans (countP_mono_left fun x _ h => by simp at h ⊢; exact h.2) (hone k (by simp))
    have hks := ih fun k' hk' => hone k' (by simp [hk'])
    simp only [length_cons]
    omega

/-- **Pigeonhole.**  With at most one element per key, as many elements as keys means that
every key has one. -/
theorem exists_key_of_length_le_countP [DecidableEq κ] (f : α → κ) (p : α → Bool) (ks : List κ)
    (l : List α) (hone : ∀ k ∈ ks, l.countP (fun x => decide (f x = k)) ≤ 1)
    (hcount : ks.length ≤ l.countP (fun x => p x && decide (f x ∈ ks))) :
    ∀ k ∈ ks, ∃ x ∈ l, p x = true ∧ f x = k := by
  induction ks with
  | nil => simp
  | cons k ks ih =>
    have hone' : ∀ k' ∈ ks, l.countP (fun x => decide (f x = k')) ≤ 1 :=
      fun k' hk' => hone k' (by simp [hk'])
    have hsplit := countP_key_cons_le f p k ks l
    have hk : l.countP (fun x => p x && decide (f x = k)) ≤ 1 :=
      Nat.le_trans (countP_mono_left fun x _ h => by simp at h ⊢; exact h.2) (hone k (by simp))
    have hks := countP_key_le_length f p ks l hone'
    simp only [length_cons] at hcount
    intro k' hk'
    rcases mem_cons.mp hk' with rfl | hk'
    · have hpos : 0 < l.countP (fun x => p x && decide (f x = k')) := by omega
      obtain ⟨x, hx, hpx⟩ := countP_pos_iff.mp hpos
      simp only [Bool.and_eq_true, decide_eq_true_eq] at hpx
      exact ⟨x, hx, hpx⟩
    · exact ih hone' (by omega) k' hk'

/-- Distinct keys that all have an element are at most as many as these elements. -/
theorem length_le_countP_of_exists_key [DecidableEq κ] (f : α → κ) (p : α → Bool) (ks : List κ)
    (l : List α) (hnd : ks.Nodup) (hex : ∀ k ∈ ks, ∃ x ∈ l, p x = true ∧ f x = k) :
    ks.length ≤ l.countP (fun x => p x && decide (f x ∈ ks)) := by
  have hsub : ks ⊆ (l.filter (fun x => p x && decide (f x ∈ ks))).map f := by
    intro k hk
    obtain ⟨x, hx, hpx, rfl⟩ := hex k hk
    exact mem_map_of_mem (by simp [hx, hpx, hk])
  have hle := (subperm_of_subset hnd hsub).length_le
  rwa [length_map, ← countP_eq_length_filter] at hle

/-- The distinct keys of a kind that all have an element are at most as many as these
elements. -/
theorem countP_le_countP_of_exists_key [DecidableEq κ] {f : α → κ} {p : α → Bool} {r : κ → Bool}
    {ks : List κ} {l : List α} (hnd : ks.Nodup)
    (hex : ∀ k ∈ ks, r k = true → ∃ x ∈ l, p x = true ∧ f x = k) : ks.countP r ≤ l.countP p := by
  have hlength := length_le_countP_of_exists_key f p (ks.filter r) l (hnd.filter r) fun k hk =>
    hex k (mem_filter.mp hk).1 (mem_filter.mp hk).2
  rw [← countP_eq_length_filter] at hlength
  refine Nat.le_trans hlength (countP_mono_left fun x _ hx => ?_)
  exact (Bool.and_eq_true_iff.mp hx).1

/-! ## Comparing counts -/

/-- Where one predicate implies another, they count alike only if they agree. -/
theorem countP_eq_iff_of_imp {p q : α → Bool} {l : List α} (h : ∀ x ∈ l, p x = true → q x = true) :
    l.countP p = l.countP q ↔ ∀ x ∈ l, q x = true → p x = true := by
  induction l with
  | nil => simp
  | cons a l ih =>
    have hl : ∀ x ∈ l, p x = true → q x = true := fun x hx => h x (mem_cons_of_mem a hx)
    have hle : l.countP p ≤ l.countP q := countP_mono_left hl
    have ha := h a mem_cons_self
    rw [forall_mem_cons, ← ih hl, countP_cons, countP_cons]
    by_cases hp : p a = true
    · simp [hp, ha hp]
    · by_cases hq : q a = true
      · -- the head is counted on one side only, and the rest cannot make up for it
        simp only [hp, hq, Bool.false_eq_true, if_true, if_false, imp_false, not_true, false_and,
          iff_false]
        omega
      · simp [hp, hq]

/-! ## Classes -/

/-- Counting class by class counts every member of one of the classes once. -/
theorem sum_countP_classes [DecidableEq κ] (f : α → Option κ) {ks : List κ} (hnd : ks.Nodup)
    (l : List α) :
    (ks.map fun k => l.countP fun x => f x = some k).sum =
      l.countP fun x => (f x).any fun k => decide (k ∈ ks) := by
  induction ks with
  | nil => simp
  | cons k ks ih =>
    obtain ⟨hk, hnd⟩ := nodup_cons.mp hnd
    rw [map_cons, sum_cons, ih hnd]
    simp only [mem_cons]
    clear ih
    induction l with
    | nil => rfl
    | cons x l ihl =>
      simp only [countP_cons]
      cases hx : f x with
      | none => simpa [hx] using ihl
      | some k' =>
        -- a member of the first class is in none of the others
        by_cases hk' : k' = k
        · subst hk'
          simp only [hk, Option.any_some, decide_true, decide_false, true_or, if_true,
            Bool.false_eq_true, if_false]
          omega
        · simp only [hk', Option.some.injEq, Option.any_some, false_or, decide_false,
            Bool.false_eq_true, if_false]
          omega

/-! ## One member changes -/

/-- The count drops when nothing is added and one member is lost. -/
theorem countP_add_one_le {p q : α → Bool} {l : List α} {a : α} (ha : a ∈ l) (hp : p a = true)
    (hq : q a = false) (h : ∀ x ∈ l, q x = true → p x = true) : l.countP q + 1 ≤ l.countP p := by
  induction l with
  | nil => cases ha
  | cons x l ih =>
    have hrest : l.countP q ≤ l.countP p :=
      countP_mono_left fun y hy => h y (mem_cons_of_mem _ hy)
    rw [countP_cons, countP_cons]
    rcases mem_cons.mp ha with rfl | ha
    · simp only [hp, hq, if_true, Bool.false_eq_true, if_false]
      omega
    · have hih := ih ha fun y hy => h y (mem_cons_of_mem _ hy)
      have hx := h x mem_cons_self
      cases hqx : q x with
      | false =>
        simp only [Bool.false_eq_true, if_false]
        omega
      | true =>
        simp only [hx hqx, if_true]
        omega

/-- The count grows by at most one when only one member is added. -/
theorem countP_le_add_one {p q : α → Bool} {l : List α} (a : α) (hnd : l.Nodup)
    (h : ∀ x ∈ l, x ≠ a → q x = true → p x = true) : l.countP q ≤ l.countP p + 1 := by
  induction l with
  | nil => simp
  | cons x l ih =>
    obtain ⟨hx, hnd⟩ := nodup_cons.mp hnd
    rw [countP_cons, countP_cons]
    by_cases hxa : x = a
    · -- the rest of the list does not contain the member
      have hrest : l.countP q ≤ l.countP p := countP_mono_left fun y hy hqy =>
        h y (mem_cons_of_mem _ hy) (fun hya => hx (hxa ▸ hya ▸ hy)) hqy
      split <;> split <;> omega
    · have hih := ih hnd fun y hy => h y (mem_cons_of_mem _ hy)
      have hqp := h x mem_cons_self hxa
      cases hqx : q x with
      | false =>
        simp only [Bool.false_eq_true, if_false]
        omega
      | true =>
        simp only [hqp hqx, if_true]
        omega

/-- The count of predicates that differ at one member. -/
theorem countP_eq_add_one {p q : α → Bool} {l : List α} {a : α} (hnd : l.Nodup) (ha : a ∈ l)
    (hp : p a = true) (hq : q a = false) (h : ∀ x ∈ l, x ≠ a → p x = q x) :
    l.countP p = l.countP q + 1 := by
  apply Nat.le_antisymm
  · exact countP_le_add_one a hnd fun x hx hne hpx => (h x hx hne).symm.trans hpx
  · refine countP_add_one_le ha hp hq fun x hx hqx => ?_
    have hne : x ≠ a := by
      rintro rfl
      rw [hq] at hqx
      cases hqx
    exact (h x hx hne).trans hqx

/-! ## Sums over a list -/

/-- A loop that adds a weight for each element. -/
theorem foldl_eq_add_sum {f : ℕ → α → ℕ} {w : α → ℕ} (h : ∀ n x, f n x = n + w x) (l : List α)
    (n : ℕ) : l.foldl f n = n + (l.map w).sum := by
  induction l generalizing n with
  | nil => rfl
  | cons x l ih =>
    rw [foldl_cons, ih, h, map_cons, sum_cons, Nat.add_assoc]

/-- A sum is at least the number of its positive terms. -/
theorem countP_pos_le_sum (w : α → ℕ) (l : List α) :
    l.countP (fun x => 0 < w x) ≤ (l.map w).sum := by
  induction l with
  | nil => exact Nat.le_refl 0
  | cons x l ih =>
    rw [countP_cons, map_cons, sum_cons]
    split
    · rename_i h
      have hpos := of_decide_eq_true h
      omega
    · omega

/-- Only the positive terms count in a sum. -/
theorem sum_map_filter_pos (w : α → ℕ) (l : List α) :
    ((l.filter fun x => 0 < w x).map w).sum = (l.map w).sum := by
  induction l with
  | nil => rfl
  | cons x l ih =>
    by_cases h : 0 < w x
    · rw [filter_cons_of_pos (by simpa using h), map_cons, map_cons, sum_cons, sum_cons, ih]
    · have hzero : w x = 0 := by omega
      rw [filter_cons_of_neg (by simpa using hzero), ih, map_cons, sum_cons, hzero, Nat.zero_add]

end List
