/-!
# Decimal Numerals

The decimal text of a number, and the number a digit string stands for.

A number has one written form, without leading zeros and with a minus sign in
front when it is negative. A digit string is read more generously: leading
zeros are allowed and change nothing, and no length is too great, since the
value is an unbounded natural number. Whether that value fits anywhere is
decided by whoever asks for it.

## Main definitions

* `digits`: The digits of a natural number.
* `ofInt`: The text of an integer.
* `padded`: The digits of a natural number, filled up with spaces on the left.
* `isNumeral`: Whether a text is a digit string.
* `value`: The number a digit string stands for.

## Theorems

* `value_digits`: Writing and reading a natural number gives it back.
* `digits_ne_nil`, `isDigit_of_mem_digits`: What is written are digits, one at least.
* `isNumeral_digits`: What is written is a digit string.
* `value_zero_cons`: A leading zero does not change the value.
-/

namespace PrefixScript

namespace Decimal

/-- The digits of `n`, the highest first. -/
def digits (n : Nat) : List Char :=
  Nat.toDigits 10 n

/-- The text of an integer: its digits, after a minus sign if it is
    negative. -/
def ofInt : Int → List Char
  | .ofNat n => digits n
  | .negSucc n => '-' :: digits (n + 1)

/-- The digits of `n` against the right edge of a column of `width`
    characters, or of as many as they need. -/
def padded (width n : Nat) : List Char :=
  (digits n).leftpad width ' '

/-- Whether a text is a digit string: not empty, and ASCII digits only. -/
def isNumeral (text : List Char) : Bool :=
  !text.isEmpty && text.all Char.isDigit

/-- The number a digit string stands for. -/
def value (text : List Char) : Nat :=
  Nat.ofDigitChars 10 text 0

@[simp] theorem value_digits (n : Nat) : value (digits n) = n :=
  Nat.ofDigitChars_ten_toDigits

theorem digits_ne_nil (n : Nat) : digits n ≠ [] :=
  Nat.toDigits_ne_nil

theorem isDigit_of_mem_digits (n : Nat) (c : Char) (h : c ∈ digits n) : c.isDigit = true :=
  Nat.isDigit_of_mem_toDigits (by omega) (by omega) h

theorem isNumeral_digits (n : Nat) : isNumeral (digits n) = true := by
  rw [isNumeral, Bool.and_eq_true]
  constructor
  · simp only [List.isEmpty_eq_false_iff.mpr (digits_ne_nil n), Bool.not_false]
  · exact List.all_eq_true.mpr (isDigit_of_mem_digits n)

theorem value_zero_cons (text : List Char) : value ('0' :: text) = value text := by
  simp only [value, Nat.ofDigitChars_cons, Nat.mul_zero, Nat.sub_self, Nat.add_zero]

end Decimal

end PrefixScript
