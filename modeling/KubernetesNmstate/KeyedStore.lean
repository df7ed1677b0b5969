/-
# Owners that share a store

A store of cells under keys, written by owners.  Every owner has one key and only writes to its
cell; a write may depend on the owner and on what the cell holds.  Two owners may have the same
key: `isolated_iff_injOn` says that each owner finds in its cell what its own writes put there
exactly when no two of them do.
-/
import Mathlib.Data.Set.Function

namespace KeyedStore

variable {ι κ β ω : Type*} [DecidableEq κ] (key : ι → κ) (effect : ι → β → ω → ω)

/-- One write of an owner to its cell. -/
def write (store : κ → ω) (w : ι × β) : κ → ω :=
  Function.update store (key w.1) (effect w.1 w.2 (store (key w.1)))

/-- The store after writes, the oldest first. -/
def run (store : κ → ω) (ws : List (ι × β)) : κ → ω := ws.foldl (write key effect) store

/-- A cell sees the writes of the owners with its key, and nothing else. -/
theorem run_apply (store : κ → ω) (ws : List (ι × β)) (k : κ) :
    run key effect store ws k =
      (ws.filter fun w => key w.1 = k).foldl (fun o w => effect w.1 w.2 o) (store k) := by
  induction ws generalizing store with
  | nil => rfl
  | cons w ws ih =>
    have hstep : run key effect store (w :: ws) k
        = run key effect (write key effect store w) ws k := rfl
    rw [hstep, ih]
    by_cases hk : key w.1 = k
    · subst hk
      rw [List.filter_cons_of_pos (by simp), List.foldl_cons, write, Function.update_self]
    · rw [List.filter_cons_of_neg (by simpa using hk), write,
        Function.update_of_ne (Ne.symm hk)]

variable [DecidableEq ι]

/-- Each of the owners finds in its cell what its own writes alone put there. -/
def Isolated (owners : Set ι) : Prop :=
  ∀ (store : κ → ω) (ws : List (ι × β)), (∀ w ∈ ws, w.1 ∈ owners) → ∀ i ∈ owners,
    run key effect store ws (key i) = run key effect store (ws.filter fun w => w.1 = i) (key i)

theorem isolated_of_injOn {owners : Set ι} (h : Set.InjOn key owners) :
    Isolated key effect owners := by
  intro store ws hws i hi
  rw [run_apply, run_apply, List.filter_filter]
  congr 1
  apply List.filter_congr
  intro w hw
  by_cases hwi : w.1 = i
  · simp [hwi]
  · have hkey : key w.1 ≠ key i := fun heq => hwi (h (hws w hw) hi heq)
    simp [hwi, hkey]

/-- Where every owner has a write that can be seen, isolated owners have keys of their own. -/
theorem injOn_of_isolated {owners : Set ι} (hseen : ∀ j, ∃ b o, effect j b o ≠ o)
    (h : Isolated key effect owners) : Set.InjOn key owners := by
  intro i hi j hj hkey
  by_contra hij
  obtain ⟨b, o, hb⟩ := hseen j
  -- one write of `j`, and no write of `i`
  have hrun := h (fun _ => o) [(j, b)] (fun w hw => by rw [List.mem_singleton.mp hw]; exact hj) i hi
  have hnone : ([(j, b)].filter fun w => w.1 = i) = [] := by simp [Ne.symm hij]
  have hone : ([(j, b)].filter fun w => key w.1 = key i) = [(j, b)] := by simp [hkey]
  rw [hnone, run_apply, hone] at hrun
  exact hb hrun

theorem isolated_iff_injOn {owners : Set ι} (hseen : ∀ j, ∃ b o, effect j b o ≠ o) :
    Isolated key effect owners ↔ Set.InjOn key owners :=
  ⟨injOn_of_isolated key effect hseen, isolated_of_injOn key effect⟩

end KeyedStore
