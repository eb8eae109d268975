import Mathlib.Algebra.Group.Int.Defs
import PrefixScript.Operator

/-!
# Exact Arithmetic

What the guards of checked arithmetic let through.

A checked operation stands for an operation on the integers, which always has a
result. If the result is in the range of the machine, the checked operation
gives it, and if it is not, it gives nothing. There is no third possibility, and
one equivalence says all of it: the operation gives a number exactly if that
number is the result.

Division is an operation on the integers only if the divisor is not zero. That,
two values of a wrong kind, and a result out of range are the only reasons for
which arithmetic gives nothing.

## Main definitions

* `IsExact`: A result is a given integer, if the integer is in range.
* `Operator.result?`: The result of an arithmetic operator on the integers.

## Theorems

* `IsExact.eq_none_iff`: Nothing is given exactly if the result is out of range.
* `isExact_add?`, `isExact_sub?`, `isExact_mul?`, `isExact_div?`: The checked
  operations are exact.
* `Operator.answer?_eq_int_iff`: An integer is answered exactly if it is the result.
-/

namespace PrefixScript

namespace Checked

/-- The result is the integer `k`, or nothing if `k` is out of range. -/
def IsExact (result : Option Int64) (k : Int) : Prop :=
  ∀ s, result = some s ↔ s.toInt = k

/-- Nothing is given exactly if the result is out of range. -/
theorem IsExact.eq_none_iff {result : Option Int64} {k : Int} (h : IsExact result k) :
    result = none ↔ k < -2 ^ 63 ∨ 2 ^ 63 - 1 < k := by
  constructor
  · intro hnone
    refine Decidable.byContradiction fun hrange => ?_
    -- An integer in range is that of some machine number.
    have hk := (h (Int64.ofInt k)).mpr (Int64.toInt_ofInt_of_le (by omega) (by omega))
    rw [hnone] at hk
    exact absurd hk (by simp only [reduceCtorEq, not_false_eq_true])
  · intro hrange
    cases hresult : result with
    | none => rfl
    | some s =>
        have hs := (h s).mp hresult
        have hlow := s.le_toInt
        have hhigh := s.toInt_lt
        omega

/-- Behind its guard an operation is exact, if the guard keeps back no result in
    range. -/
theorem isExact_of_guard (result : Option Int64) (machine : Int64) (k : Int) (guard : Prop)
    [Decidable guard] (hresult : result = if guard then none else some machine)
    (hguard : guard → k < -2 ^ 63 ∨ 2 ^ 63 - 1 < k) (hmachine : ¬ guard → machine.toInt = k) :
    IsExact result k := by
  intro s
  by_cases h : guard
  · -- Behind the guard the result is out of range, so it is the value of no word.
    have hrange := hguard h
    have hlow := s.le_toInt
    have hhigh := s.toInt_lt
    rw [hresult, if_pos h]
    simp only [reduceCtorEq, false_iff]
    omega
  · -- Otherwise the machine has the result, and different words have different values.
    rw [hresult, if_neg h, Option.some.injEq, ← hmachine h, Int64.toInt_inj, eq_comm]

theorem isExact_add? (m n : Int64) : IsExact (add? m n) (m.toInt + n.toInt) := by
  refine isExact_of_guard _ (m + n) _ (m.toBitVec.saddOverflow n.toBitVec = true) rfl ?_ ?_
  · intro h
    simp only [BitVec.saddOverflow, Bool.or_eq_true, decide_eq_true_eq] at h
    simp only [Int64.toInt]
    omega
  · intro h
    exact BitVec.toInt_add_of_not_saddOverflow h

theorem isExact_sub? (m n : Int64) : IsExact (sub? m n) (m.toInt - n.toInt) := by
  refine isExact_of_guard _ (m - n) _ (m.toBitVec.ssubOverflow n.toBitVec = true) rfl ?_ ?_
  · intro h
    simp only [BitVec.ssubOverflow, Bool.or_eq_true, decide_eq_true_eq] at h
    simp only [Int64.toInt]
    omega
  · intro h
    exact BitVec.toInt_sub_of_not_ssubOverflow h

theorem isExact_mul? (m n : Int64) : IsExact (mul? m n) (m.toInt * n.toInt) := by
  refine isExact_of_guard _ (m * n) _ (m.toBitVec.smulOverflow n.toBitVec = true) rfl ?_ ?_
  · intro h
    simp only [BitVec.smulOverflow, Bool.or_eq_true, decide_eq_true_eq] at h
    simp only [Int64.toInt]
    omega
  · intro h
    exact BitVec.toInt_mul_of_not_smulOverflow h

theorem isExact_div? (m n : Int64) (hn : n ≠ 0) : IsExact (div? m n) (m.toInt.tdiv n.toInt) := by
  refine isExact_of_guard _ (m / n) _ (n = 0 ∨ (m = Int64.minValue ∧ n = -1)) rfl ?_ ?_
  · rintro (h | ⟨rfl, rfl⟩)
    · exact absurd h hn
    · -- The one quotient that does not fit.
      exact Or.inr (by decide)
  · intro h
    by_cases hm : m = Int64.minValue
    · exact Int64.toInt_div_of_ne_right m n fun hn => h (Or.inr ⟨hm, hn⟩)
    · exact Int64.toInt_div_of_ne_left m n hm

theorem div?_zero (m : Int64) : div? m 0 = none :=
  if_pos (Or.inl rfl)

end Checked

namespace Operator

/-- The result of an arithmetic operator on the integers, whatever its size. -/
def result? (op : Operator) (m n : Int) : Option Int :=
  match op with
  | .eq => none
  | .add => some (m + n)
  | .sub => some (m - n)
  | .mul => some (m * n)
  | .div => if n = 0 then none else some (m.tdiv n)

theorem arithmetic?_eq_int_iff (op : Operator) (m n s : Int64) :
    op.arithmetic? (.int m) (.int n) = some (.int s) ↔
      op.result? m.toInt n.toInt = some s.toInt := by
  -- The operators that calculate differ only in the number they are exact for.
  have hmap : ∀ (result : Option Int64) (k : Int), Checked.IsExact result k →
      (result.map Value.int = some (.int s) ↔ some k = some s.toInt) := by
    intro result k hexact
    rw [Option.map_eq_some_iff, Option.some.injEq, eq_comm, ← hexact s]
    simp only [Value.int.injEq, exists_eq_right]
  cases op with
  | eq => simp only [arithmetic?, result?, reduceCtorEq]
  | add => exact hmap _ _ (Checked.isExact_add? m n)
  | sub => exact hmap _ _ (Checked.isExact_sub? m n)
  | mul => exact hmap _ _ (Checked.isExact_mul? m n)
  | div =>
      simp only [arithmetic?, result?]
      by_cases hzero : n = 0
      · rw [hzero, Checked.div?_zero, if_pos Int64.toInt_zero]
        simp only [Option.map_none, reduceCtorEq]
      · have hdivisor : n.toInt ≠ 0 := fun h => hzero (Int64.toInt_inj.mp h)
        rw [if_neg hdivisor]
        exact hmap _ _ (Checked.isExact_div? m n hzero)

/-- An integer is answered exactly if it is the result of the operator on two
    integers. -/
theorem answer?_eq_int_iff (op : Operator) (l r : Value) (s : Int64) :
    op.answer? l r = some (.int s) ↔
      ∃ m n, l = .int m ∧ r = .int n ∧ op.result? m.toInt n.toInt = some s.toInt := by
  by_cases heq : op = .eq
  · -- A comparison answers with a truth value.
    rw [heq, answer?_eq]
    cases l <;> cases r <;> simp only [equal?, result?, Option.some.injEq, reduceCtorEq, and_false,
      exists_false]
  · rw [answer?_of_ne_eq op heq]
    cases l with
    | bool a =>
        rw [arithmetic?.eq_def]
        cases op <;> simp only [reduceCtorEq, false_and, exists_false]
    | int m =>
        cases r with
        | bool b =>
            rw [arithmetic?.eq_def]
            cases op <;> simp only [reduceCtorEq, false_and, and_false, exists_false]
        | int n =>
            rw [arithmetic?_eq_int_iff]
            simp only [Value.int.injEq, exists_and_left, exists_eq_left']

end Operator

end PrefixScript
