import Mathlib.Algebra.Ring.Int.Defs
import Mathlib.Algebra.Ring.Nat

/-!
# Decimal texts

The number that a decimal text denotes, that the text of an integer denotes that integer, and the double
that is nearest to it.
-/

namespace Decimal

/-- The number of an optional sign and decimal digits. -/
def value : List Char → Int
  | '-' :: digits => -(Nat.ofDigitChars 10 digits 0 : Nat)
  | '+' :: digits => (Nat.ofDigitChars 10 digits 0 : Nat)
  | digits => (Nat.ofDigitChars 10 digits 0 : Nat)

/-- The integer that a numeral stands for. -/
def number (text : String) : Int := value text.toList

theorem isDigit_of_mem_repr {n : Nat} {c : Char} (h : c ∈ n.repr.toList) : c.isDigit = true := by
  rw [Nat.toList_repr] at h
  exact Nat.isDigit_of_mem_toDigits (by omega) (by omega) h

theorem value_repr (n : Nat) : value n.repr.toList = n := by
  have hdigit : ∀ c ∈ n.repr.toList, c.isDigit = true := fun c hc => isDigit_of_mem_repr hc
  have hval : Nat.ofDigitChars 10 n.repr.toList 0 = n := by
    rw [Nat.toList_repr, Nat.ofDigitChars_ten_toDigits]
  generalize n.repr.toList = digits at hdigit hval
  unfold value
  split
  · exact absurd (hdigit '-' (List.mem_cons_self ..)) (by decide)
  · exact absurd (hdigit '+' (List.mem_cons_self ..)) (by decide)
  · rw [hval]

/-- The text of an integer denotes it. -/
@[simp] theorem number_repr (n : Int) : number n.repr = n := by
  cases n with
  | ofNat m => exact value_repr m
  | negSucc m =>
    have htext : (Int.negSucc m).repr.toList = '-' :: (m + 1).repr.toList := by
      show ("-" ++ (m + 1).repr).toList = _
      simp [String.toList_append]
    have hval : Nat.ofDigitChars 10 (m + 1).repr.toList 0 = m + 1 := by
      rw [Nat.toList_repr, Nat.ofDigitChars_ten_toDigits]
    rw [number, htext, value, hval]
    rfl

theorem number_toString (n : Int) : number (toString n) = n := number_repr n

/-! ## Doubles -/

/-- The double nearest to a natural number; of two, the even one. -/
def nearestDouble (n : Nat) : Nat :=
  let ulp := 2 ^ (n.log2 - 52)
  let r := n % ulp
  if 2 * r < ulp ∨ 2 * r = ulp ∧ n / ulp % 2 = 0 then n / ulp * ulp else (n / ulp + 1) * ulp

theorem nearestDouble_le (n : Nat) : nearestDouble n ≤ 2 * n := by
  rcases Nat.eq_zero_or_pos n with rfl | hpos
  · rfl
  · have hulp : 2 ^ (n.log2 - 52) ≤ n := Nat.le_trans
      (Nat.pow_le_pow_right (by decide) (Nat.sub_le _ _)) (Nat.log2_self_le (Nat.ne_of_gt hpos))
    have hdiv := Nat.div_mul_le_self n (2 ^ (n.log2 - 52))
    unfold nearestDouble
    dsimp only
    generalize 2 ^ (n.log2 - 52) = ulp at hulp hdiv ⊢
    rw [Nat.add_mul, Nat.one_mul]
    split <;> omega

theorem nearestDouble_of_lt {n : Nat} (h : n < 2 ^ 53) : nearestDouble n = n := by
  have hulp : 2 ^ (n.log2 - 52) = 1 := by
    rcases Nat.eq_zero_or_pos n with rfl | hpos
    · rfl
    · have hlog := (Nat.log2_lt (Nat.ne_of_gt hpos)).mpr h
      have hzero : n.log2 - 52 = 0 := by omega
      rw [hzero, pow_zero]
  unfold nearestDouble
  simp only [hulp, Nat.mod_one, Nat.div_one, Nat.mul_one]
  rw [if_pos (Or.inl (by decide))]

/-- The double nearest to an integer. -/
def nearest (n : Int) : Int := n.sign * nearestDouble n.natAbs

/-- An integer that is a double. -/
def IsDouble (n : Int) : Prop := nearest n = n

instance (n : Int) : Decidable (IsDouble n) := inferInstanceAs (Decidable (_ = _))

theorem isDouble_of_lt {n : Int} (h : n.natAbs < 2 ^ 53) : IsDouble n := by
  rw [IsDouble, nearest, nearestDouble_of_lt h, Int.sign_mul_natAbs]

/-- The number that `Number` makes of an optional sign and digits. -/
def parseNumber : List Char → Option Int
  | '-' :: digits => (natural digits).map fun n => -(n : Int)
  | '+' :: digits => (natural digits).map fun n => (n : Int)
  | digits => (natural digits).map fun n => (n : Int)
where
  natural (digits : List Char) : Option Nat :=
    if digits ≠ [] ∧ digits.all Char.isDigit then
      some (nearestDouble (Nat.ofDigitChars 10 digits 0))
    else none

/-- The digits of a natural number, after zeros. -/
def numeral (zeros n : Nat) : List Char := List.replicate zeros '0' ++ Nat.toDigits 10 n

theorem isDigit_of_mem_numeral {zeros n : Nat} {c : Char} (h : c ∈ numeral zeros n) :
    c.isDigit = true := by
  rcases List.mem_append.mp h with hzero | hdigit
  · rw [List.eq_of_mem_replicate hzero]
    rfl
  · exact Nat.isDigit_of_mem_toDigits (by omega) (by omega) hdigit

theorem numeral_ne_nil (zeros n : Nat) : numeral zeros n ≠ [] := by
  intro hnil
  exact Nat.toDigits_ne_nil (List.append_eq_nil_iff.mp hnil).2

theorem ofDigitChars_numeral (zeros n : Nat) : Nat.ofDigitChars 10 (numeral zeros n) 0 = n := by
  have hzeros : ∀ zeros, Nat.ofDigitChars 10 (List.replicate zeros '0' ++ Nat.toDigits 10 n) 0 =
      Nat.ofDigitChars 10 (Nat.toDigits 10 n) 0 := by
    intro zeros
    induction zeros with
    | zero => rfl
    | succ zeros ih => exact ih
  rw [numeral, hzeros, Nat.ofDigitChars_ten_toDigits]

theorem natural_numeral (zeros n : Nat) :
    parseNumber.natural (numeral zeros n) = some (nearestDouble n) := by
  have hdigits : (numeral zeros n).all Char.isDigit = true :=
    List.all_eq_true.mpr fun c hc => isDigit_of_mem_numeral hc
  rw [parseNumber.natural, if_pos ⟨numeral_ne_nil zeros n, hdigits⟩, ofDigitChars_numeral]

theorem parseNumber_numeral (zeros n : Nat) :
    parseNumber (numeral zeros n) = some (nearestDouble n : Int) := by
  have hdigit : ∀ c ∈ numeral zeros n, c.isDigit = true := fun c hc => isDigit_of_mem_numeral hc
  have hnumber := natural_numeral zeros n
  generalize numeral zeros n = digits at hdigit hnumber
  unfold parseNumber
  split
  · exact absurd (hdigit '-' (List.mem_cons_self ..)) (by decide)
  · exact absurd (hdigit '+' (List.mem_cons_self ..)) (by decide)
  · rw [hnumber]
    rfl

end Decimal
