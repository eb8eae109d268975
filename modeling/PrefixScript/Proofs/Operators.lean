import PrefixScript.Proofs.Exactness

/-!
# Operators on the Integers

What operators answer, in terms of integers of any size.

The values of a script are machine numbers and truth values. The operators are
explained without them: a sum, a difference or a product is that of the
integers, and it is answered if it is in range. A quotient is explained by what
is left when the divisor is taken away as often as it goes in: less than the
divisor, and on the same side of zero as the dividend. There is one such
quotient if the divisor is not zero, and of all quotients of two numbers in range
only one is not in range itself.

So an operator answers exactly or not at all, and never with a number that has
wrapped around. It follows that addition and multiplication are commutative even
as partial operations, and that subtraction takes back whatever addition has
answered.

## Main definitions

* `Value.IsInt`: A value is an integer.
* `Checked.InRange`: The integers that values can be.
* `Checked.IsQuotient`: The quotient of two integers.
* `Operator.IsExactOn`: An operator gives the result of an operation on the
  integers.

## Theorems

* `Value.exists_isInt_iff`: Exactly the integers in range are values.
* `isQuotient_iff`: There is one quotient, unless the divisor is zero.
* `inRange_tdiv_iff`: It is in range but for one pair of integers.
* `answer?_eq_if`: Comparison answers for values of the same kind.
* `answer?_eq_some_iff`, `exists_answer?_iff`: The answers of arithmetic, and when
  there is one.
* `isExactOn_of_result?`: An operation with a result for all integers is answered in
  range.
* `IsExactOn.comm`: If it is commutative, so is the operator.
* `answer?_exact_or_none`: Operators answer exactly or not at all.
-/

namespace PrefixScript

namespace Checked

/-- The integer fits a machine number. -/
def InRange (k : Int) : Prop :=
  -2 ^ 63 ≤ k ∧ k ≤ 2 ^ 63 - 1

/-- `q` is the quotient of `m` by `n`: what is left is less than the divisor, and it has
    the sign of the dividend unless there is nothing left. -/
def IsQuotient (m n q : Int) : Prop :=
  ∃ left, m = q * n + left ∧ left.natAbs < n.natAbs ∧ (left = 0 ∨ left.sign = m.sign)

theorem IsExact.ne_none_iff {result : Option Int64} {k : Int} (h : IsExact result k) :
    result ≠ none ↔ InRange k := by
  unfold InRange
  rw [ne_eq, h.eq_none_iff]
  omega

/-- The quotient is cut off toward zero, and there is none if the divisor is zero. -/
theorem isQuotient_iff (m n q : Int) : IsQuotient m n q ↔ n ≠ 0 ∧ q = m.tdiv n := by
  unfold IsQuotient
  constructor
  · intro h
    rcases h with ⟨left, hm, hsize, hsign⟩
    have hn : n ≠ 0 := by omega
    have hsum : left + n * q = m := by
      rw [hm, Int.mul_comm]
      exact Int.add_comm left _
    refine ⟨hn, ?_⟩
    -- The side of zero that the dividend is on decides which remainders there are.
    by_cases hpos : 0 ≤ m
    · have hleft : 0 ≤ left := by
        rcases hsign with hzero | hsign
        · omega
        · rw [← Int.sign_nonneg_iff, hsign, Int.sign_nonneg_iff]
          exact hpos
      exact ((Int.tdiv_tmod_unique hpos hn).mpr ⟨hsum, hleft, by omega⟩).1.symm
    · have hleft : left ≤ 0 := by
        rcases hsign with hzero | hsign
        · omega
        · rw [← Int.sign_nonpos_iff, hsign, Int.sign_nonpos_iff]
          omega
      exact ((Int.tdiv_tmod_unique' (by omega) hn).mpr ⟨hsum, by omega, hleft⟩).1.symm
  · rintro ⟨hn, rfl⟩
    refine ⟨m.tmod n, (Int.tdiv_mul_add_tmod m n).symm, ?_, ?_⟩
    · rw [Int.natAbs_tmod]
      exact Nat.mod_lt _ (by omega)
    · -- What is left is nothing if the division goes through.
      rw [Int.sign_tmod]
      by_cases hdvd : n ∣ m
      · exact Or.inl (Int.tmod_eq_zero_of_dvd hdvd)
      · rw [if_neg hdvd]
        exact Or.inr rfl

/-- A quotient of two machine numbers is in range but for one pair of them, the one that
    the guard of division is for. -/
theorem inRange_tdiv_iff (m n : Int64) (hn : n ≠ 0) :
    InRange (m.toInt.tdiv n.toInt) ↔ ¬ (m.toInt = -2 ^ 63 ∧ n.toInt = -1) := by
  have hleast : m = Int64.minValue ↔ m.toInt = -2 ^ 63 := by
    rw [← Int64.toInt_inj]
    rfl
  have hminus : n = -1 ↔ n.toInt = -1 := by
    rw [← Int64.toInt_inj]
    rfl
  -- The checked quotient is exact, so it is there if and only if it is in range.
  rw [← (isExact_div? m n hn).ne_none_iff, ← hleast, ← hminus]
  unfold div?
  by_cases hguard : m = Int64.minValue ∧ n = -1
  · rw [if_pos (Or.inr hguard)]
    simp only [ne_eq, not_true_eq_false, hguard, and_self]
  · rw [if_neg (not_or.mpr ⟨hn, hguard⟩)]
    simp only [ne_eq, reduceCtorEq, not_false_eq_true, hguard]

end Checked

namespace Value

/-- The value is the integer `k`. -/
def IsInt (v : Value) (k : Int) : Prop :=
  ∃ n : Int64, v = .int n ∧ n.toInt = k

/-- Exactly the integers in range are values. -/
theorem exists_isInt_iff (k : Int) : (∃ v : Value, v.IsInt k) ↔ Checked.InRange k := by
  unfold Checked.InRange
  constructor
  · rintro ⟨_, n, _, rfl⟩
    have hlow := n.le_toInt
    have hhigh := n.toInt_lt
    omega
  · rintro ⟨hlow, hhigh⟩
    exact ⟨_, Int64.ofInt k, rfl, Int64.toInt_ofInt_of_le hlow (by omega)⟩

end Value

namespace Operator

/-- On two values, the operator gives the result of an operation on the integers. It
    gives nothing if this is out of range, or if there are no two integers. -/
def IsExactOn (op : Operator) (operation : Int → Int → Int) (l r : Value) : Prop :=
  (∀ v, op.answer? l r = some v ↔ ∃ m n, l.IsInt m ∧ r.IsInt n ∧ v.IsInt (operation m n)) ∧
  ((∃ v, op.answer? l r = some v) ↔
    ∃ m n, l.IsInt m ∧ r.IsInt n ∧ Checked.InRange (operation m n))

/-- Comparison answers for values of the same kind, and only for these. -/
theorem answer?_eq_if (l r : Value) :
    answer? .eq l r = if l.kind = r.kind then some (.bool (l = r)) else none := by
  rw [answer?_eq]
  -- Inside a kind both sides compare, and between kinds both are silent.
  cases l with
  | int m =>
      cases r with
      | int n =>
          simp only [equal?, Value.kind, if_true, Value.int.injEq]
          rfl
      | bool b => rfl
  | bool a =>
      cases r with
      | int n => rfl
      | bool b =>
          simp only [equal?, Value.kind, if_true, Value.bool.injEq]
          rfl

/-- Arithmetic answers with integers. -/
theorem exists_int_of_arithmetic? (op : Operator) (l r v : Value)
    (h : op.arithmetic? l r = some v) : ∃ s, v = .int s := by
  unfold arithmetic? at h
  split at h
  -- Two integers for one of four operators; anything else has no answer.
  iterate 4
    rcases Option.map_eq_some_iff.mp h with ⟨s, _, rfl⟩
    exact ⟨s, rfl⟩
  exact absurd h (by simp only [reduceCtorEq, not_false_eq_true])

/-- The answers of arithmetic are the results on the integers. -/
theorem answer?_eq_some_iff (op : Operator) (hop : op ≠ .eq) (l r v : Value) :
    op.answer? l r = some v ↔
      ∃ m n k, l.IsInt m ∧ r.IsInt n ∧ op.result? m n = some k ∧ v.IsInt k := by
  constructor
  · intro h
    have harithmetic := h
    rw [answer?_of_ne_eq op hop] at harithmetic
    -- An operator that calculates answers with an integer if it answers at all.
    rcases exists_int_of_arithmetic? op l r v harithmetic with ⟨s, rfl⟩
    rcases (answer?_eq_int_iff op l r s).mp h with ⟨m, n, rfl, rfl, hresult⟩
    exact ⟨_, _, _, ⟨m, rfl, rfl⟩, ⟨n, rfl, rfl⟩, hresult, s, rfl, rfl⟩
  · rintro ⟨_, _, _, ⟨m, rfl, rfl⟩, ⟨n, rfl, rfl⟩, hresult, s, rfl, rfl⟩
    exact (answer?_eq_int_iff op _ _ s).mpr ⟨m, n, rfl, rfl, hresult⟩

/-- Arithmetic answers if there is a result and it is in range. -/
theorem exists_answer?_iff (op : Operator) (hop : op ≠ .eq) (l r : Value) :
    (∃ v, op.answer? l r = some v) ↔
      ∃ m n k, l.IsInt m ∧ r.IsInt n ∧ op.result? m n = some k ∧ Checked.InRange k := by
  simp only [answer?_eq_some_iff op hop]
  constructor
  · rintro ⟨v, m, n, k, hl, hr, hresult, hv⟩
    exact ⟨m, n, k, hl, hr, hresult, (Value.exists_isInt_iff k).mp ⟨v, hv⟩⟩
  · rintro ⟨m, n, k, hl, hr, hresult, hrange⟩
    rcases (Value.exists_isInt_iff k).mpr hrange with ⟨v, hv⟩
    exact ⟨v, m, n, k, hl, hr, hresult, hv⟩

/-- An operation that has a result for all integers is answered whenever it is in
    range. -/
theorem isExactOn_of_result? (op : Operator) (operation : Int → Int → Int) (hop : op ≠ .eq)
    (h : ∀ m n, op.result? m n = some (operation m n)) (l r : Value) :
    op.IsExactOn operation l r := by
  constructor
  · -- The exact result is the third number of the general statement, which it settles.
    intro v
    rw [answer?_eq_some_iff op hop]
    simp only [h, Option.some.injEq]
    constructor
    · rintro ⟨m, n, _, hl, hr, rfl, hv⟩
      exact ⟨m, n, hl, hr, hv⟩
    · rintro ⟨m, n, hl, hr, hv⟩
      exact ⟨m, n, _, hl, hr, rfl, hv⟩
  · rw [exists_answer?_iff op hop]
    simp only [h, Option.some.injEq]
    constructor
    · rintro ⟨m, n, _, hl, hr, rfl, hrange⟩
      exact ⟨m, n, hl, hr, hrange⟩
    · rintro ⟨m, n, hl, hr, hrange⟩
      exact ⟨m, n, _, hl, hr, rfl, hrange⟩

/-- If an operation is commutative, so is the operator, whether there is an answer or
    not. -/
theorem IsExactOn.comm {op : Operator} {operation : Int → Int → Int} {l r : Value}
    (h : op.IsExactOn operation l r) (h' : op.IsExactOn operation r l)
    (hcomm : ∀ m n, operation m n = operation n m) : op.answer? l r = op.answer? r l := by
  -- An answer is the exact result, whichever operand comes first.
  ext v
  rw [h.1 v, h'.1 v]
  constructor
  · rintro ⟨m, n, hl, hr, hv⟩
    exact ⟨n, m, hr, hl, hcomm m n ▸ hv⟩
  · rintro ⟨n, m, hr, hl, hv⟩
    exact ⟨m, n, hl, hr, hcomm n m ▸ hv⟩

/-- The answers of division are the quotients. -/
theorem answer?_div_eq_some_iff (l r v : Value) :
    answer? .div l r = some v ↔
      ∃ m n q, l.IsInt m ∧ r.IsInt n ∧ v.IsInt q ∧ ∀ k, Checked.IsQuotient m n k ↔ k = q := by
  have hresult : ∀ m n q, result? .div m n = some q ↔ ∀ k, Checked.IsQuotient m n k ↔ k = q := by
    intro m n q
    simp only [result?, Checked.isQuotient_iff]
    by_cases hn : n = 0
    · -- Nothing is a quotient by zero, not even the one that is claimed.
      rw [if_pos hn]
      refine ⟨fun h => absurd h (by simp only [reduceCtorEq, not_false_eq_true]), fun h => ?_⟩
      exact absurd hn ((h q).mpr rfl).1
    · rw [if_neg hn, Option.some.injEq]
      refine ⟨fun h k => ?_, fun h => (((h q).mpr rfl).2).symm⟩
      rw [h]
      exact ⟨And.right, fun hk => ⟨hn, hk⟩⟩
  rw [answer?_eq_some_iff .div (by decide)]
  simp only [hresult]
  constructor
  · rintro ⟨m, n, q, hl, hr, hq, hv⟩
    exact ⟨m, n, q, hl, hr, hv, hq⟩
  · rintro ⟨m, n, q, hl, hr, hv, hq⟩
    exact ⟨m, n, q, hl, hr, hq, hv⟩

/-- Division answers unless the divisor is zero or the quotient is the one that is out
    of range. -/
theorem exists_answer?_div_iff (l r : Value) :
    (∃ v, answer? .div l r = some v) ↔
      ∃ m n, l.IsInt m ∧ r.IsInt n ∧ n ≠ 0 ∧ ¬ (m = -2 ^ 63 ∧ n = -1) := by
  rw [exists_answer?_iff .div (by decide)]
  -- The guard asks about the number, and the lemma on the range about the word.
  have hzero : ∀ n : Int64, n.toInt ≠ 0 → n ≠ 0 := by
    intro n hn hnil
    rw [hnil] at hn
    exact hn Int64.toInt_zero
  simp only [result?, Option.ite_none_left_eq_some, Option.some.injEq]
  constructor
  · rintro ⟨_, _, _, ⟨m, rfl, rfl⟩, ⟨n, rfl, rfl⟩, ⟨hn, rfl⟩, hrange⟩
    exact ⟨_, _, ⟨m, rfl, rfl⟩, ⟨n, rfl, rfl⟩, hn,
      (Checked.inRange_tdiv_iff m n (hzero n hn)).mp hrange⟩
  · rintro ⟨_, _, ⟨m, rfl, rfl⟩, ⟨n, rfl, rfl⟩, hn, hpair⟩
    exact ⟨_, _, _, ⟨m, rfl, rfl⟩, ⟨n, rfl, rfl⟩, ⟨hn, rfl⟩,
      (Checked.inRange_tdiv_iff m n (hzero n hn)).mpr hpair⟩

/-- Operators answer exactly or not at all. Comparison says of two values of one kind
    whether they are equal. Addition, subtraction and multiplication are those of the
    integers, as far as the range goes. Division gives the one quotient there is,
    unless the divisor is zero or the least integer is divided by minus one. There
    are no other answers. Hence the order of the operands does not matter for three
    of the operators, and what addition answers is exactly that from which
    subtraction leads back. -/
theorem answer?_exact_or_none (l r : Value) :
    (answer? .eq l r = if l.kind = r.kind then some (.bool (l = r)) else none) ∧
    IsExactOn .add (· + ·) l r ∧ IsExactOn .sub (· - ·) l r ∧ IsExactOn .mul (· * ·) l r ∧
    (∀ v, answer? .div l r = some v ↔
      ∃ m n q, l.IsInt m ∧ r.IsInt n ∧ v.IsInt q ∧ ∀ k, Checked.IsQuotient m n k ↔ k = q) ∧
    ((∃ v, answer? .div l r = some v) ↔
      ∃ m n, l.IsInt m ∧ r.IsInt n ∧ n ≠ 0 ∧ ¬ (m = -2 ^ 63 ∧ n = -1)) ∧
    (answer? .eq l r = answer? .eq r l ∧ answer? .add l r = answer? .add r l ∧
      answer? .mul l r = answer? .mul r l) ∧
    ∀ s, answer? .add l r = some s ↔ answer? .sub s r = some l := by
  have hadd := isExactOn_of_result? .add (· + ·) (by decide) fun m n => rfl
  have hsub := isExactOn_of_result? .sub (· - ·) (by decide) fun m n => rfl
  have hmul := isExactOn_of_result? .mul (· * ·) (by decide) fun m n => rfl
  refine ⟨answer?_eq_if l r, hadd l r, hsub l r, hmul l r, answer?_div_eq_some_iff l r,
    exists_answer?_div_iff l r, ⟨?_, ?_, ?_⟩, fun s => ?_⟩
  · -- Being of one kind is symmetric, and so is being equal.
    rw [answer?_eq_if, answer?_eq_if]
    simp only [eq_comm]
  · exact (hadd l r).comm (hadd r l) Int.add_comm
  · exact (hmul l r).comm (hmul r l) Int.mul_comm
  · -- Both sides say that two integers add up to a third, all of them in range.
    rw [(hadd l r).1, (hsub s r).1]
    constructor
    · rintro ⟨m, n, hl, hr, hs⟩
      refine ⟨m + n, n, hs, hr, ?_⟩
      simp only [Int.add_sub_cancel]
      exact hl
    · rintro ⟨k, n, hs, hr, hl⟩
      refine ⟨k - n, n, hl, hr, ?_⟩
      simp only [Int.sub_add_cancel]
      exact hs

-- The least integer has no opposite, so neither its quotient nor its product is there.
example :
    answer? .div (.int (-7)) (.int 2) = some (.int (-3)) ∧
    answer? .div (.int Int64.minValue) (.int (-1)) = none ∧
    answer? .mul (.int Int64.minValue) (.int (-1)) = none := by
  decide

end Operator

end PrefixScript
