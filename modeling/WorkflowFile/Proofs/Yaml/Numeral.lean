import Mathlib.Data.Nat.Digits.Defs
import WorkflowFile.Yaml.Numeral

/-!
# The text of an integer

* `Text.intOfText?_toString`: it reads as the integer.
* `Yaml.toString_injective`: so it determines the integer.
* `Yaml.isInteger_toString`: a string with the same text is quoted, as far as the integer has no
  more bits than are looked at.
-/

namespace WorkflowFile

namespace Text

/-! ## Natural numbers -/

lemma digitValue_of_isDigit {c : Char} (h : c.isDigit) : digitValue c = c.toNat - '0'.toNat := by
  rw [digitValue, if_pos h]

lemma digitValue_lt_ten {c : Char} (h : c.isDigit) : digitValue c < 10 := by
  rw [digitValue_of_isDigit h]
  simp only [Char.isDigit, Bool.and_eq_true, decide_eq_true_eq] at h
  have upper : c.toNat ≤ '9'.toNat := h.2
  have : '9'.toNat = '0'.toNat + 9 := rfl
  omega

/-- The digits of a number denote it. -/
lemma natOfDigits_eq_ofDigitChars {ds : List Char} (h : ∀ c ∈ ds, c.isDigit) :
    natOfDigits 10 ds = Nat.ofDigitChars 10 ds 0 := by
  unfold natOfDigits Nat.ofDigitChars
  generalize 0 = n
  induction ds generalizing n with
  | nil => rfl
  | cons c ds ih =>
    rw [List.forall_mem_cons] at h
    rw [List.foldl_cons, List.foldl_cons, digitValue_of_isDigit h.1, Nat.mul_comm n 10, ih h.2]

lemma isDigit_toDigits (n : Nat) : ∀ c ∈ Nat.toDigits 10 n, c.isDigit := fun _ hc =>
  Nat.isDigit_of_mem_toDigits (by decide) (by decide) hc

/-- The decimal text of a number reads as that number. -/
theorem natOfText?_toDigits (n : Nat) : natOfText? 10 (Nat.toDigits 10 n) = some n := by
  have some_digit : (Nat.toDigits 10 n).isEmpty = false := by
    simp [Nat.toDigits_ne_nil]
  have decimal : (Nat.toDigits 10 n).all (digitValue · < 10) = true := by
    rw [List.all_eq_true]
    exact fun c hc => decide_eq_true (digitValue_lt_ten (isDigit_toDigits n c hc))
  have denoted : natOfDigits 10 (Nat.toDigits 10 n) = n := by
    rw [natOfDigits_eq_ofDigitChars (isDigit_toDigits n), Nat.ofDigitChars_ten_toDigits]
  simp only [natOfText?, some_digit, decimal, denoted, Bool.not_false, Bool.and_self, if_true]

/-- A positive number has no leading zero. -/
lemma head?_toDigits_ne_zero {n : Nat} (hn : 0 < n) : (Nat.toDigits 10 n).head? ≠ some '0' := by
  induction n using Nat.strong_induction_on with
  | _ n ih =>
    rw [Nat.toDigits_eq_if (by decide)]
    by_cases small : n < 10
    · rw [if_pos small, List.head?_cons]
      intro zero
      have value := Nat.toNat_digitChar_of_lt_ten small
      rw [Option.some.inj zero] at value
      have : '0'.toNat = 48 := rfl
      omega
    · have rest := ih (n / 10) (by omega) (by omega)
      rw [if_neg small]
      cases digits : Nat.toDigits 10 (n / 10) with
      | nil => exact absurd digits Nat.toDigits_ne_nil
      | cons c cs => rwa [digits] at rest

/-! ## Integers -/

/-- The text of an integer: the digits of its magnitude, after a sign if it is negative. -/
lemma toList_toString (i : Int) :
    (toString i).toList
      = if i < 0 then '-' :: Nat.toDigits 10 i.natAbs else Nat.toDigits 10 i.natAbs := by
  cases i with
  | ofNat n =>
    rw [if_neg (by simp)]
    exact Nat.toList_repr
  | negSucc n =>
    rw [if_pos (Int.negSucc_lt_zero n)]
    show ("-" ++ (n + 1).repr).toList = _
    rw [String.toList_append, Nat.toList_repr]
    rfl

/-- The text of an integer reads as that integer. -/
theorem intOfText?_toString (i : Int) : intOfText? (toString i).toList = some i := by
  rw [toList_toString]
  by_cases negative : i < 0
  · rw [if_pos negative]
    simp only [intOfText?, dropSign, natOfText?_toDigits, Option.map_some, List.head?_cons, if_true]
    rw [Int.ofNat_natAbs_of_nonpos negative.le, Int.neg_neg]
  · rw [if_neg negative]
    have unsigned := isDigit_toDigits i.natAbs
    have kept : dropSign (Nat.toDigits 10 i.natAbs) = Nat.toDigits 10 i.natAbs := by
      cases digits : Nat.toDigits 10 i.natAbs with
      | nil => rfl
      | cons c cs =>
        rw [digits, List.forall_mem_cons] at unsigned
        unfold dropSign
        split
        · next same => simp_all
        · next same => simp_all
        · rfl
    have no_sign : (Nat.toDigits 10 i.natAbs).head? ≠ some '-' := by
      intro sign
      exact absurd (unsigned _ (List.mem_of_head? sign)) (by decide)
    rw [intOfText?, kept, natOfText?_toDigits, Option.map_some, if_neg no_sign,
      Int.natAbs_of_nonneg (by omega)]

end Text

namespace Yaml

open Text (natOfText? natOfText?_toDigits isDigit_toDigits head?_toDigits_ne_zero toList_toString
  intOfText?_toString)

lemma toString_injective {i j : Int} (h : (toString i).toList = (toString j).toList) : i = j := by
  have read := intOfText?_toString i
  rw [h, intOfText?_toString j] at read
  exact (Option.some.inj read).symm

/-- The digits of a number have it as their magnitude. -/
lemma magnitude?_toDigits (n : Nat) : magnitude? (Nat.toDigits 10 n) = some n := by
  rcases Nat.eq_zero_or_pos n with rfl | positive
  · rfl
  have leading := head?_toDigits_ne_zero positive
  have read := natOfText?_toDigits n
  revert leading read
  generalize Nat.toDigits 10 n = ds
  intro leading read
  -- without a leading zero no prefix is looked for
  unfold magnitude?
  split <;> first | exact read | exact absurd rfl leading

/-- The text of an integer of 64 bits is not the plain text of a string. -/
theorem isInteger_toString {i : Int} (lower : -(2 ^ 63) ≤ i) (upper : i < 2 ^ 63) :
    isInteger (toString i).toList = true := by
  rw [toList_toString]
  have small : i.natAbs ≤ Nat.pow 2 127 := by
    have : Nat.pow 2 127 = 2 ^ 63 * 2 ^ 64 := by decide
    omega
  by_cases negative : i < 0
  · rw [if_pos negative]
    simp only [isInteger, magnitude?_toDigits, Option.any_some, small, decide_true]
  · rw [if_neg negative]
    have digits := isDigit_toDigits i.natAbs
    have read := magnitude?_toDigits i.natAbs
    have small' : i.natAbs < Nat.pow 2 128 := by
      have : Nat.pow 2 128 = Nat.pow 2 127 + Nat.pow 2 127 := by decide
      have : 0 < Nat.pow 2 127 := by decide
      omega
    revert digits read
    generalize Nat.toDigits 10 i.natAbs = ds
    intro digits read
    unfold isInteger
    split
    · exact absurd (digits '-' List.mem_cons_self) (by decide)
    · exact absurd (digits '+' List.mem_cons_self) (by decide)
    · simp only [read, Option.any_some, small', decide_true]

end Yaml

end WorkflowFile
