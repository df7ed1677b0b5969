/-
# The number a `maxUnavailable` value names

`ScaledMaxUnavailableNodeCount` of `pkg/node/nodes.go` against the values the rule of the CRD
admits (`api/shared/nodenetworkconfigurationpolicy_types.go`): positive integers, percentages
between 1% and 100%, and positive integers written as a string.

An integer and a percentage resolve to the number they name.  A string of digits is parsed as a
64-bit number and then stored as a 32-bit one, so the numbers between the two widths resolve to
their low 32 bits (`maxUnavailable_resolves` says for which numbers all is well, and
`maxUnavailable_truncated` shows one that is not).
-/
import Mathlib.Data.List.Induction
import Mathlib.Data.Rat.Floor
import Mathlib.Tactic.IntervalCases
import Mathlib.Tactic.Linarith
import KubernetesNmstate.Nodes

/-! ## The rule of the CRD -/

/-- `^[1-9][0-9]*$`. -/
def isPositiveDecimal : List Char → Bool
  | [] => false
  | first :: rest => first.isDigit && first ≠ '0' && rest.all Char.isDigit

/-- `^([1-9]|[1-9][0-9]|100)$`, the part of a percentage before the sign. -/
def isPercentage (digits : List Char) : Bool :=
  isPositiveDecimal digits && (digits.length ≤ 2 || digits = ['1', '0', '0'])

/-- The validation rule of `maxUnavailable`. -/
def crdAdmits : IntOrString → Bool
  | .int intVal => 0 < intVal
  | .string strVal =>
    match percentPrefix strVal with
    | some digits => isPercentage digits.toList
    | none => isPositiveDecimal strVal.toList

/-! ## Digits and their value -/

theorem foldl_digits (digits : List Char) (acc : ℕ) :
    digits.foldl (fun (acc : ℤ) c => acc * 10 + (c.toNat - '0'.toNat : ℕ)) (acc : ℤ) =
      (Nat.ofDigitChars 10 digits acc : ℕ) := by
  induction digits generalizing acc with
  | nil => rfl
  | cons c digits ih =>
    have hstep : (acc : ℤ) * 10 + (c.toNat - '0'.toNat : ℕ) =
        (10 * acc + (c.toNat - '0'.toNat) : ℕ) := by
      push_cast
      ring
    rw [List.foldl_cons, Nat.ofDigitChars_cons, hstep, ih]

theorem isDigit_of_mem_toDigits {v : ℕ} {c : Char} (h : c ∈ Nat.toDigits 10 v) :
    c.isDigit = true := Nat.isDigit_of_mem_toDigits (by decide) (by decide) h

theorem digitsValue_toDigits (v : ℕ) : digitsValue (Nat.toDigits 10 v) = some (v : ℤ) := by
  have hdigits : (Nat.toDigits 10 v).all Char.isDigit = true :=
    List.all_eq_true.mpr fun c hc => isDigit_of_mem_toDigits hc
  have hfold := foldl_digits (Nat.toDigits 10 v) 0
  rw [Nat.ofDigitChars_ten_toDigits] at hfold
  rw [digitsValue, if_pos ⟨Nat.toDigits_ne_nil, hdigits⟩]
  exact congrArg some hfold

theorem toList_toString (v : ℕ) : (toString v).toList = Nat.toDigits 10 v := by
  rw [Nat.toString_eq_repr, Nat.toList_repr]

/-- A decimal numeral starts with a digit, so `Atoi` sees no sign. -/
theorem atoi_toString (v : ℕ) :
    atoi (toString v) = if v ≤ 9223372036854775807 then some (v : ℤ) else none := by
  have hvalue : atoi (toString v) = (digitsValue (Nat.toDigits 10 v)).filter
      fun v => decide (-9223372036854775808 ≤ v ∧ v ≤ 9223372036854775807) := by
    unfold atoi
    rw [toList_toString]
    dsimp only
    congr 1
    split
    · rename_i rest hdigits
      have hplus := isDigit_of_mem_toDigits (by rw [hdigits]; exact List.mem_cons_self)
      cases hplus
    · rename_i rest hdigits
      have hminus := isDigit_of_mem_toDigits (by rw [hdigits]; exact List.mem_cons_self)
      cases hminus
    · rfl
  rw [hvalue, digitsValue_toDigits]
  by_cases hv : v ≤ 9223372036854775807
  · rw [if_pos hv, Option.filter_some, if_pos (by simp; omega)]
  · rw [if_neg hv, Option.filter_some, if_neg (by simp; omega)]

theorem percentPrefix_append (s : String) : percentPrefix (s ++ "%") = some s := by
  simp [percentPrefix, String.toList_append]

theorem percentPrefix_toString (v : ℕ) : percentPrefix (toString v) = none := by
  unfold percentPrefix
  rw [toList_toString]
  split
  · rename_i rest hrest
    have hmem : '%' ∈ Nat.toDigits 10 v := List.mem_reverse.mp (by rw [hrest]; simp)
    have hdigit := isDigit_of_mem_toDigits hmem
    cases hdigit
  · rfl

/-- A string with a percent sign at its end is what stands before the sign, and the sign. -/
theorem eq_of_percentPrefix {s digits : String} (h : percentPrefix s = some digits) :
    s = digits ++ "%" := by
  unfold percentPrefix at h
  split at h
  · rename_i rest hrest
    obtain rfl := Option.some.inj h
    have hlist : s.toList = rest.reverse ++ ['%'] := by
      rw [← List.reverse_reverse s.toList, hrest, List.reverse_cons]
    apply String.toList_inj.mp
    rw [hlist, String.toList_append, String.toList_ofList]
    rfl
  · cases h

/-- A digit is the numeral of its value. -/
theorem digitChar_of_isDigit {c : Char} (h : c.isDigit = true) :
    c.toNat - '0'.toNat < 10 ∧ (c.toNat - '0'.toNat).digitChar = c := by
  have hbounds : 48 ≤ c.toNat ∧ c.toNat ≤ 57 := by
    simpa [Char.isDigit, UInt32.le_iff_toNat_le] using h
  obtain ⟨hlow, hhigh⟩ := hbounds
  have hc : c = Char.ofNat c.toNat := (Char.ofNat_toNat c).symm
  generalize c.toNat = n at hlow hhigh hc
  subst hc
  interval_cases n <;> decide

/-- A numeral without a leading zero is that of a positive number. -/
theorem exists_of_isPositiveDecimal {digits : List Char} (h : isPositiveDecimal digits = true) :
    ∃ v : ℕ, 1 ≤ v ∧ digits = Nat.toDigits 10 v := by
  -- from the last digit on: each further digit is one division by ten
  induction digits using List.reverseRecOn with
  | nil => cases h
  | append_singleton init c ih =>
    have hc : c.isDigit = true := by
      cases init with
      | nil => exact (Bool.and_eq_true_iff.mp (Bool.and_eq_true_iff.mp h).1).1
      | cons first rest => exact List.all_eq_true.mp (Bool.and_eq_true_iff.mp h).2 c (by simp)
    obtain ⟨hlt, hchar⟩ := digitChar_of_isDigit hc
    cases init with
    | nil =>
      refine ⟨c.toNat - '0'.toNat, ?_, ?_⟩
      · by_contra hzero
        have hc0 : c = '0' := by
          rw [← hchar, show c.toNat - '0'.toNat = 0 by omega]
          rfl
        subst hc0
        cases h
      · rw [Nat.toDigits_of_lt_base hlt, hchar]
        rfl
    | cons first rest =>
      have hparts := Bool.and_eq_true_iff.mp h
      have hinit : isPositiveDecimal (first :: rest) = true := by
        refine Bool.and_eq_true_iff.mpr ⟨hparts.1, List.all_eq_true.mpr fun d hd => ?_⟩
        exact List.all_eq_true.mp hparts.2 d (by simp [hd])
      obtain ⟨v, hv, hdigits⟩ := ih hinit
      refine ⟨v * 10 + (c.toNat - '0'.toNat), by omega, ?_⟩
      rw [Nat.toDigits_of_base_le (by decide) (by omega), hdigits,
        show (v * 10 + (c.toNat - '0'.toNat)) / 10 = v by omega,
        show (v * 10 + (c.toNat - '0'.toNat)) % 10 = c.toNat - '0'.toNat by omega, hchar]

/-- A percentage of the rule is the numeral of a number between 1 and 100. -/
theorem exists_of_isPercentage {digits : List Char} (h : isPercentage digits = true) :
    ∃ p : ℕ, 1 ≤ p ∧ p ≤ 100 ∧ digits = Nat.toDigits 10 p := by
  obtain ⟨hdecimal, hshort⟩ := Bool.and_eq_true_iff.mp h
  obtain ⟨p, hp, rfl⟩ := exists_of_isPositiveDecimal hdecimal
  refine ⟨p, hp, ?_, rfl⟩
  rcases Bool.or_eq_true_iff.mp hshort with hlength | hhundred
  · have hlt := (Nat.length_toDigits_le_iff (by decide) (by decide)).mp (of_decide_eq_true hlength)
    omega
  · have hvalue : Nat.ofDigitChars 10 (Nat.toDigits 10 p) 0 = 100 := by
      rw [of_decide_eq_true hhundred]
      rfl
    rw [Nat.ofDigitChars_ten_toDigits] at hvalue
    omega

/-- **What the rule admits**: a positive integer, a percentage between 1% and 100%, or a
positive integer as a string. -/
theorem forms_of_crdAdmits {value : IntOrString} (h : crdAdmits value = true) :
    (∃ k : ℤ, 0 < k ∧ value = .int k) ∨
    (∃ p : ℕ, 1 ≤ p ∧ p ≤ 100 ∧ value = .string (toString p ++ "%")) ∨
    (∃ v : ℕ, 1 ≤ v ∧ value = .string (toString v)) := by
  have hnumeral : ∀ {s : String} {v : ℕ}, s.toList = Nat.toDigits 10 v → s = toString v := by
    intro s v hs
    apply String.toList_inj.mp
    rw [hs, toList_toString]
  cases value with
  | int k => exact Or.inl ⟨k, of_decide_eq_true h, rfl⟩
  | string s =>
    refine Or.inr ?_
    cases hprefix : percentPrefix s with
    | some digits =>
      simp only [crdAdmits, hprefix] at h
      obtain ⟨p, hp, hle, hdigits⟩ := exists_of_isPercentage h
      exact Or.inl ⟨p, hp, hle, by rw [eq_of_percentPrefix hprefix, hnumeral hdigits]⟩
    | none =>
      simp only [crdAdmits, hprefix] at h
      obtain ⟨v, hv, hdigits⟩ := exists_of_isPositiveDecimal h
      exact Or.inr ⟨v, hv, by rw [hnumeral hdigits]⟩

/-! ## What the values resolve to -/

/-- A positive integer, once it is one. -/
theorem scaledIntOrPercentNodeCount_int (n : ℕ) {k : ℤ} (h : 0 < k) :
    scaledIntOrPercentNodeCount n (.int k) = (k, none) := by
  have hmin : ¬ k < minMaxUnavailable := by
    unfold minMaxUnavailable
    omega
  simp [scaledIntOrPercentNodeCount, getScaledValueFromIntOrPercent, hmin]

/-- The rounded quotient of the model is the ceiling. -/
theorem ceil_percent (p n : ℕ) : ⌈(p * n : ℚ) / 100⌉ = ((p : ℤ) * n + 99) / 100 := by
  have hceil := Rat.ceil_intCast_div_natCast ((p : ℤ) * n) 100
  push_cast at hceil
  rw [hceil]
  omega

theorem ceil_percent_bounds {p n : ℕ} (hp : 1 ≤ p) (hle : p ≤ 100) (hn : 1 ≤ n) :
    1 ≤ ⌈(p * n : ℚ) / 100⌉ ∧ ⌈(p * n : ℚ) / 100⌉ ≤ n := by
  have hlow : (1 : ℤ) ≤ p * n := by exact_mod_cast Nat.mul_pos hp hn
  have hhigh : (p : ℤ) * n ≤ 100 * n := by exact_mod_cast Nat.mul_le_mul_right n hle
  rw [ceil_percent]
  generalize (p : ℤ) * n = m at hlow hhigh
  omega

/-- A percentage resolves to its share of the nodes, rounded up. -/
theorem scaledMaxUnavailableNodeCount_percent {p n : ℕ} (hp : 1 ≤ p) (hle : p ≤ 100)
    (hn : 1 ≤ n) :
    scaledMaxUnavailableNodeCount n (.string (toString p ++ "%")) =
      (⌈(p * n : ℚ) / 100⌉, none) := by
  have hvalue : getScaledValueFromIntOrPercent (.string (toString p ++ "%")) n =
      .ok ⌈(p * n : ℚ) / 100⌉ := by
    simp only [getScaledValueFromIntOrPercent, percentPrefix_append, atoi_toString,
      if_pos (show p ≤ 9223372036854775807 by omega), ceil_percent]
  have hmin : ¬ (0 < n ∧ ⌈(p * n : ℚ) / 100⌉ < minMaxUnavailable) := by
    have hlow := (ceil_percent_bounds hp hle hn).1
    unfold minMaxUnavailable
    omega
  simp only [scaledMaxUnavailableNodeCount, percentPrefix_append, scaledIntOrPercentNodeCount,
    hvalue, if_neg hmin]

/-- A string of digits within 64 bits resolves to what `int32` leaves of its number. -/
theorem scaledMaxUnavailableNodeCount_decimal (n : ℕ) {v : ℕ} (hv : v < 2 ^ 63) :
    scaledMaxUnavailableNodeCount n (.string (toString v)) =
      scaledIntOrPercentNodeCount n (.int (toInt32 v)) := by
  simp only [scaledMaxUnavailableNodeCount, percentPrefix_toString, atoi_toString,
    if_pos (show v ≤ 9223372036854775807 by omega)]

/-- What the code owes a string of digits: its number, or the error for an invalid value, the
latter only when `Atoi` refuses the string. -/
def Resolved (n v : ℕ) : Prop :=
  (scaledMaxUnavailableNodeCount n (.string (toString v)) = ((v : ℤ), none) ∨
    ∃ cap text, scaledMaxUnavailableNodeCount n (.string (toString v)) =
      (cap, some (.invalidMaxUnavailable text))) ∧
  (atoi (toString v) ≠ none →
    scaledMaxUnavailableNodeCount n (.string (toString v)) = ((v : ℤ), none))

/-- The numbers that resolve as they should: those of 32 bits, and those `Atoi` refuses. -/
theorem resolved_iff (n : ℕ) {v : ℕ} (hv : 1 ≤ v) :
    Resolved n v ↔ ¬ (2 ^ 31 ≤ v ∧ v < 2 ^ 63) := by
  constructor
  · rintro ⟨-, hatoi⟩ ⟨hlow, hhigh⟩
    have haccepted : atoi (toString v) ≠ none := by
      rw [atoi_toString, if_pos (by omega)]
      exact Option.some_ne_none _
    have hresult := hatoi haccepted
    rw [scaledMaxUnavailableNodeCount_decimal n hhigh] at hresult
    -- the cap is what int32 leaves, and that is below 2 ^ 31
    have hcap : (scaledIntOrPercentNodeCount n (.int (toInt32 v))).1 = toInt32 v := by
      simp only [scaledIntOrPercentNodeCount, getScaledValueFromIntOrPercent]
      split <;> rfl
    rw [hresult] at hcap
    unfold toInt32 at hcap
    omega
  · intro hrange
    by_cases hsmall : v < 2 ^ 31
    · have hsame : toInt32 v = v := by
        unfold toInt32
        omega
      have hresult : scaledMaxUnavailableNodeCount n (.string (toString v)) = ((v : ℤ), none) := by
        rw [scaledMaxUnavailableNodeCount_decimal n (by omega), hsame]
        exact scaledIntOrPercentNodeCount_int n (by omega)
      exact ⟨Or.inl hresult, fun _ => hresult⟩
    · have hrefused : atoi (toString v) = none := by
        rw [atoi_toString, if_neg (by omega)]
      refine ⟨Or.inr ⟨scaledDefaultMaxUnavailableNodeCount n, toString v, ?_⟩,
        fun haccepted => absurd hrefused haccepted⟩
      simp only [scaledMaxUnavailableNodeCount, percentPrefix_toString, hrefused]
      rfl

/-- **What `maxUnavailable` resolves to.**  Of the values the CRD admits, integers and
percentages resolve to the number they name, and a string of digits does exactly when its number
fits 32 bits or is beyond 64. -/
theorem maxUnavailable_resolves {n : ℕ} (hn : 1 ≤ n) {value : IntOrString}
    (h : crdAdmits value = true) :
    (∃ k : ℤ, 0 < k ∧ value = .int k ∧ scaledMaxUnavailableNodeCount n value = (k, none)) ∨
    (∃ p : ℕ, 1 ≤ p ∧ p ≤ 100 ∧ value = .string (toString p ++ "%") ∧
      scaledMaxUnavailableNodeCount n value = (⌈(p * n : ℚ) / 100⌉, none) ∧
      1 ≤ ⌈(p * n : ℚ) / 100⌉ ∧ ⌈(p * n : ℚ) / 100⌉ ≤ n) ∨
    (∃ v : ℕ, 1 ≤ v ∧ value = .string (toString v) ∧
      (Resolved n v ↔ ¬ (2 ^ 31 ≤ v ∧ v < 2 ^ 63))) := by
  rcases forms_of_crdAdmits h with ⟨k, hk, rfl⟩ | ⟨p, hp, hle, rfl⟩ | ⟨v, hv, rfl⟩
  · exact Or.inl ⟨k, hk, rfl, scaledIntOrPercentNodeCount_int n hk⟩
  · refine Or.inr (Or.inl ⟨p, hp, hle, rfl, ?_, ceil_percent_bounds hp hle hn⟩)
    exact scaledMaxUnavailableNodeCount_percent hp hle hn
  · exact Or.inr (Or.inr ⟨v, hv, rfl, resolved_iff n hv⟩)

/-- Half of five nodes, as the CRD admits it. -/
theorem maxUnavailable_resolves_half : crdAdmits (.string "50%") = true ∧
    ((∃ k : ℤ, 0 < k ∧ IntOrString.string "50%" = .int k ∧
        scaledMaxUnavailableNodeCount 5 (.string "50%") = (k, none)) ∨
      (∃ p : ℕ, 1 ≤ p ∧ p ≤ 100 ∧ IntOrString.string "50%" = .string (toString p ++ "%") ∧
        scaledMaxUnavailableNodeCount 5 (.string "50%") = (⌈(p * (5 : ℕ) : ℚ) / 100⌉, none) ∧
        1 ≤ ⌈(p * (5 : ℕ) : ℚ) / 100⌉ ∧ ⌈(p * (5 : ℕ) : ℚ) / 100⌉ ≤ (5 : ℕ)) ∨
      (∃ v : ℕ, 1 ≤ v ∧ IntOrString.string "50%" = .string (toString v) ∧
        (Resolved 5 v ↔ ¬ (2 ^ 31 ≤ v ∧ v < 2 ^ 63)))) :=
  ⟨by decide, maxUnavailable_resolves (by decide) (by decide)⟩

/-- `2 ^ 32 + 1` nodes may be unavailable, says the policy; one, says the code, without an
error. -/
theorem maxUnavailable_truncated : ∃ (n v : ℕ), 1 ≤ n ∧ 1 ≤ v ∧
    crdAdmits (.string (toString v)) = true ∧ atoi (toString v) = some (v : ℤ) ∧
    scaledMaxUnavailableNodeCount n (.string (toString v)) = (1, none) ∧ v ≠ 1 ∧
    ¬ Resolved n v := by
  refine ⟨3, 4294967297, by decide, by decide, by decide, by decide, by decide, by decide, ?_⟩
  rw [resolved_iff 3 (by decide)]
  decide
