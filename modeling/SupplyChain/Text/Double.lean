import SupplyChain.Text.Decimal
import Mathlib.Algebra.Order.Floor.Ring
import Mathlib.Data.List.DropRight
import Mathlib.Data.Rat.Floor
import Mathlib.Algebra.Order.Field.Power
import Mathlib.Tactic.Linarith
import Mathlib.Tactic.IntervalCases

/-!
# Doubles

The numbers of JavaScript: NaN, the infinities, and the finite ones as the rationals that they are (its
two zeros are one here). An exact result is rounded to the nearest double, of two the even one.
-/

inductive Double where
  | nan
  | infinity (negative : Bool)
  | finite (x : ℚ)
  deriving DecidableEq

namespace Double

/-! ## Rounding -/

/-- The exponent of the first binary digit. -/
def ilog2 (x : ℚ) : Int :=
  let k := (x.num.natAbs.log2 : Int) - x.den.log2
  if (2 : ℚ) ^ k ≤ |x| then k else k - 1

/-- The exponent of the last of 53 digits, or of the smallest subnormal number. -/
def exponent (x : ℚ) : Int := max (ilog2 x - 52) (-1074)

/-- The nearest integer; of two, the even one. -/
def nearest (x : ℚ) : Int :=
  let rest := x - ⌊x⌋
  if rest < 1 / 2 ∨ rest = 1 / 2 ∧ ⌊x⌋ % 2 = 0 then ⌊x⌋ else ⌊x⌋ + 1

/-- The nearest double, if exponents had no upper bound. -/
def rounded (x : ℚ) : ℚ := nearest (x / 2 ^ exponent x) * 2 ^ exponent x

/-- A rational as a double, where it is below 2^1024. -/
def ofRat (x : ℚ) : Double := if |x| < 2 ^ 1024 then finite x else infinity (decide (x < 0))

/-- The double nearest to a rational, ties to even, or an infinity if it is too large. -/
def round (x : ℚ) : Double := ofRat (rounded x)

/-! ## Arithmetic -/

/-- An integer of at most 53 bits. -/
def ofInt (n : Int) : Double := finite n

/-- `-x` -/
def neg : Double → Double
  | nan => nan
  | infinity negative => infinity (!negative)
  | finite x => finite (-x)

/-- `x + y` -/
def add : Double → Double → Double
  | nan, _ => nan
  | _, nan => nan
  | infinity s, infinity t => if s = t then infinity s else nan
  | infinity s, finite _ => infinity s
  | finite _, infinity t => infinity t
  | finite x, finite y => round (x + y)

/-- `x - y` -/
def sub (x y : Double) : Double := x.add y.neg

/-- `x < y` -/
def lt : Double → Double → Bool
  | nan, _ => false
  | _, nan => false
  | infinity s, infinity t => s && !t
  | infinity s, finite _ => s
  | finite _, infinity t => !t
  | finite x, finite y => decide (x < y)

/-- `x <= y` -/
def le : Double → Double → Bool
  | nan, _ => false
  | _, nan => false
  | infinity s, infinity t => s || !t
  | infinity s, finite _ => s
  | finite _, infinity t => !t
  | finite x, finite y => decide (x ≤ y)

/-- The position that a relative index stands for: an integer part, counted from the end if it is
negative, and cut to the length. -/
def index : Double → Nat → Nat
  | nan, _ => 0
  | infinity negative, length => if negative then 0 else length
  | finite x, length =>
    let n := x.num.tdiv x.den
    if n < 0 then (length + n).toNat else min n.toNat length

/-! ## What is rounded -/

theorem zpow_log2_le {n : Nat} (h : n ≠ 0) : (2 : ℚ) ^ (n.log2 : Int) ≤ n := by
  rw [zpow_natCast]
  exact_mod_cast Nat.log2_self_le h

theorem lt_zpow_log2 (n : Nat) : (n : ℚ) < 2 ^ ((n.log2 : Int) + 1) := by
  have h : n < 2 ^ (n.log2 + 1) := Nat.lt_log2_self
  have hcast : ((n.log2 : Int) + 1) = ((n.log2 + 1 : Nat) : Int) := by push_cast; rfl
  rw [hcast, zpow_natCast]
  exact_mod_cast h

theorem abs_eq_div (x : ℚ) : |x| = x.num.natAbs / x.den := by
  rw [← Rat.num_div_den |x|, Rat.num_abs_eq_abs_num, Rat.den_abs_eq_den, Nat.cast_natAbs]

theorem ilog2_le {x : ℚ} (h : x ≠ 0) : (2 : ℚ) ^ ilog2 x ≤ |x| := by
  unfold ilog2
  dsimp only
  split
  · assumption
  · have hnum : (2 : ℚ) ^ (x.num.natAbs.log2 : Int) ≤ x.num.natAbs :=
      zpow_log2_le (Int.natAbs_ne_zero.mpr (Rat.num_ne_zero.mpr h))
    have hden := lt_zpow_log2 x.den
    have hpos : (0 : ℚ) < x.den := by exact_mod_cast x.den_pos
    rw [abs_eq_div, le_div_iff₀ hpos]
    calc (2 : ℚ) ^ ((x.num.natAbs.log2 : Int) - x.den.log2 - 1) * x.den
        ≤ 2 ^ ((x.num.natAbs.log2 : Int) - x.den.log2 - 1) * 2 ^ ((x.den.log2 : Int) + 1) := by
          gcongr
      _ = 2 ^ (x.num.natAbs.log2 : Int) := by
          rw [← zpow_add₀ (by norm_num)]
          congr 1
          omega
      _ ≤ x.num.natAbs := hnum

theorem lt_ilog2 (x : ℚ) : |x| < (2 : ℚ) ^ (ilog2 x + 1) := by
  unfold ilog2
  dsimp only
  split
  · have hnum := lt_zpow_log2 x.num.natAbs
    have hden : (2 : ℚ) ^ (x.den.log2 : Int) ≤ x.den := zpow_log2_le x.den_ne_zero
    have hpos : (0 : ℚ) < x.den := by exact_mod_cast x.den_pos
    rw [abs_eq_div, div_lt_iff₀ hpos]
    calc (x.num.natAbs : ℚ) < 2 ^ ((x.num.natAbs.log2 : Int) + 1) := hnum
      _ = 2 ^ ((x.num.natAbs.log2 : Int) - x.den.log2 + 1) * 2 ^ (x.den.log2 : Int) := by
          rw [← zpow_add₀ (by norm_num)]
          congr 1
          omega
      _ ≤ 2 ^ ((x.num.natAbs.log2 : Int) - x.den.log2 + 1) * x.den := by
          gcongr
  · rw [Int.sub_add_cancel]
    exact not_le.mp ‹_›

/-! ### The nearest integer -/

theorem floor_le_nearest (x : ℚ) : ⌊x⌋ ≤ nearest x := by
  unfold nearest
  dsimp only
  split <;> omega

theorem nearest_le_floor (x : ℚ) : nearest x ≤ ⌊x⌋ + 1 := by
  unfold nearest
  dsimp only
  split <;> omega

@[simp] theorem nearest_intCast (n : Int) : nearest n = n := by
  unfold nearest
  dsimp only
  rw [Int.floor_intCast, sub_self, if_pos (Or.inl (by norm_num))]

theorem le_nearest {x : ℚ} {n : Int} (h : n ≤ x) : n ≤ nearest x :=
  Int.le_trans (Int.le_floor.mpr h) (floor_le_nearest x)

theorem nearest_le {x : ℚ} {n : Int} (h : x ≤ n) : nearest x ≤ n := by
  rcases lt_or_eq_of_le h with hlt | rfl
  · have hfloor := Int.floor_lt.mpr hlt
    have hle := nearest_le_floor x
    omega
  · rw [nearest_intCast]

/-! ### Numbers that are doubles -/

/-- The number has at most 53 digits, none of them below the last place of a subnormal number. -/
def Representable (x : ℚ) : Prop := ∃ m e : Int, |m| ≤ 2 ^ 53 ∧ -1074 ≤ e ∧ x = m * 2 ^ e

theorem representable_intCast {n : Int} (h : |n| ≤ 2 ^ 53) : Representable n :=
  ⟨n, 0, h, by omega, by simp⟩

theorem representable_rounded (x : ℚ) : Representable (rounded x) := by
  refine ⟨nearest (x / 2 ^ exponent x), exponent x, ?_, le_max_right _ _, rfl⟩
  have hpos : (0 : ℚ) < 2 ^ exponent x := by positivity
  have hbound : |x / 2 ^ exponent x| ≤ ((2 ^ 53 : Int) : ℚ) := by
    rw [abs_div, abs_of_pos hpos, div_le_iff₀ hpos]
    have hexp : ilog2 x + 1 ≤ 53 + exponent x := by
      have := le_max_left (ilog2 x - 52) (-1074)
      unfold exponent
      omega
    calc |x| ≤ 2 ^ (ilog2 x + 1) := (lt_ilog2 x).le
      _ ≤ 2 ^ (53 + exponent x) := zpow_le_zpow_right₀ (by norm_num) hexp
      _ = ((2 ^ 53 : Int) : ℚ) * 2 ^ exponent x := by
          rw [zpow_add₀ (by norm_num)]
          norm_num
  obtain ⟨hlow, hhigh⟩ := abs_le.mp hbound
  refine abs_le.mpr ⟨le_nearest ?_, nearest_le hhigh⟩
  push_cast at hlow ⊢
  exact hlow

/-- A double is rounded to itself. -/
theorem rounded_of_representable {x : ℚ} (h : Representable x) : rounded x = x := by
  obtain ⟨m, e, hm, he, rfl⟩ := h
  -- the last place of `x` divides it
  have hmultiple : ∃ n : Int, (m : ℚ) * 2 ^ e = n * 2 ^ exponent ((m : ℚ) * 2 ^ e) := by
    by_cases hzero : (m : ℚ) * 2 ^ e = 0
    · exact ⟨0, by simp [hzero]⟩
    rcases le_or_gt (exponent ((m : ℚ) * 2 ^ e)) e with hle | hlt
    · refine ⟨m * 2 ^ (e - exponent ((m : ℚ) * 2 ^ e)).toNat, ?_⟩
      have hsplit : e = (e - exponent ((m : ℚ) * 2 ^ e)).toNat + exponent ((m : ℚ) * 2 ^ e) := by omega
      generalize exponent ((m : ℚ) * 2 ^ e) = e' at hsplit ⊢
      push_cast
      rw [mul_assoc, ← zpow_natCast, ← zpow_add₀ (by norm_num), ← hsplit]
    · -- only `2 ^ 53` and its negation have their first digit that high
      have hlog : exponent ((m : ℚ) * 2 ^ e) = ilog2 ((m : ℚ) * 2 ^ e) - 52 := by
        unfold exponent at hlt ⊢
        omega
      have hlow := ilog2_le hzero
      have hpos : (0 : ℚ) < 2 ^ e := by positivity
      have hbound : |(m : ℚ)| ≤ 2 ^ (53 : Int) := by exact_mod_cast hm
      rw [abs_mul, abs_of_pos hpos] at hlow
      have hle : (2 : ℚ) ^ ilog2 ((m : ℚ) * 2 ^ e) ≤ 2 ^ (53 + e) := by
        rw [zpow_add₀ (by norm_num)]
        exact le_trans hlow (by gcongr)
      have hsame : ilog2 ((m : ℚ) * 2 ^ e) = 53 + e := by
        have := (zpow_le_zpow_iff_right₀ (by norm_num : (1 : ℚ) < 2)).mp hle
        omega
      have hfull : 2 ^ 53 ≤ |m| := by
        rw [hsame, zpow_add₀ (by norm_num)] at hlow
        have := le_of_mul_le_mul_right hlow hpos
        exact_mod_cast this
      have hhalf : m = 2 * (m / 2) := by
        rcases abs_cases m with ⟨habs, -⟩ | ⟨habs, -⟩ <;> omega
      refine ⟨m / 2, ?_⟩
      rw [hlog, hsame, show (53 + e - 52 : Int) = 1 + e by omega, zpow_add₀ (by norm_num)]
      nth_rewrite 1 [hhalf]
      push_cast
      ring
  obtain ⟨n, hn⟩ := hmultiple
  have hpos : (2 : ℚ) ^ exponent ((m : ℚ) * 2 ^ e) ≠ 0 := by positivity
  unfold rounded
  generalize exponent ((m : ℚ) * 2 ^ e) = e' at hn hpos ⊢
  rw [hn, mul_div_cancel_right₀ _ hpos, nearest_intCast]

theorem rounded_intCast {n : Int} (h : |n| ≤ 2 ^ 53) : rounded n = n :=
  rounded_of_representable (representable_intCast h)

theorem rounded_nonpos {x : ℚ} (h : x ≤ 0) : rounded x ≤ 0 := by
  have hpos : (0 : ℚ) < 2 ^ exponent x := by positivity
  have hnearest : nearest (x / 2 ^ exponent x) ≤ 0 :=
    nearest_le (by push_cast; exact div_nonpos_of_nonpos_of_nonneg h hpos.le)
  exact mul_nonpos_of_nonpos_of_nonneg (by exact_mod_cast hnearest) hpos.le

theorem rounded_nonneg {x : ℚ} (h : 0 ≤ x) : 0 ≤ rounded x := by
  have hpos : (0 : ℚ) < 2 ^ exponent x := by positivity
  have hnearest : 0 ≤ nearest (x / 2 ^ exponent x) := le_nearest (by push_cast; exact div_nonneg h hpos.le)
  exact mul_nonneg (by exact_mod_cast hnearest) hpos.le

/-- The distance of a double to a smaller natural number is one too, unless both are integers. -/
theorem Representable.sub {x : ℚ} (h : Representable x) {n : Int} (hn : 0 ≤ n) (hle : (n : ℚ) ≤ x) :
    (∃ m : Int, x = m) ∨ Representable (x - n) := by
  obtain ⟨m, e, hm, he, rfl⟩ := h
  have hpos : (0 : ℚ) < 2 ^ e := by positivity
  rcases le_or_gt 0 e with hnonneg | hneg
  · refine Or.inl ⟨m * 2 ^ e.toNat, ?_⟩
    push_cast
    rw [← zpow_natCast, Int.toNat_of_nonneg hnonneg]
  · refine Or.inr ⟨m - n * 2 ^ (-e).toNat, e, ?_, he, ?_⟩
    · have hscale : ((n * 2 ^ (-e).toNat : Int) : ℚ) * 2 ^ e = n := by
        push_cast
        rw [mul_assoc, ← zpow_natCast, Int.toNat_of_nonneg (by omega), ← zpow_add₀ (by norm_num)]
        simp
      have hbelow : n * 2 ^ (-e).toNat ≤ m := by
        have : ((n * 2 ^ (-e).toNat : Int) : ℚ) ≤ m := by
          rw [← hscale] at hle
          exact le_of_mul_le_mul_right hle hpos
        exact_mod_cast this
      have hpart : 0 ≤ n * 2 ^ (-e).toNat := by positivity
      have hbound := (abs_le.mp hm).2
      rw [abs_of_nonneg (by omega)]
      omega
    · push_cast
      rw [sub_mul, mul_assoc, ← zpow_natCast, Int.toNat_of_nonneg (by omega), ← zpow_add₀ (by norm_num)]
      simp

/-! ### Bounds, and natural numbers -/

/-- Rounding does not cross an integer of 53 bits. -/
theorem le_rounded {x : ℚ} {n : Int} (hn : 0 ≤ n) (hbound : n ≤ 2 ^ 53) (h : (n : ℚ) ≤ x) :
    (n : ℚ) ≤ rounded x := by
  rcases hn.eq_or_lt with rfl | hn
  · exact_mod_cast rounded_nonneg (by exact_mod_cast h)
  have hnpos : (0 : ℚ) < n := by exact_mod_cast hn
  have hx : 0 < x := lt_of_lt_of_le hnpos h
  have hpos : (0 : ℚ) < 2 ^ exponent x := by positivity
  rcases le_or_gt (exponent x) 0 with hle | hgt
  · -- the last place of `x` divides `n`
    have hmultiple : ((n * 2 ^ (-exponent x).toNat : Int) : ℚ) * 2 ^ exponent x = n := by
      push_cast
      rw [mul_assoc, ← zpow_natCast, Int.toNat_of_nonneg (by omega), ← zpow_add₀ (by norm_num)]
      simp
    have hnearest : n * 2 ^ (-exponent x).toNat ≤ nearest (x / 2 ^ exponent x) := by
      apply le_nearest
      rw [le_div_iff₀ hpos, hmultiple]
      exact h
    have hcast : ((n * 2 ^ (-exponent x).toNat : Int) : ℚ) ≤ nearest (x / 2 ^ exponent x) := by
      exact_mod_cast hnearest
    calc (n : ℚ) = ((n * 2 ^ (-exponent x).toNat : Int) : ℚ) * 2 ^ exponent x := hmultiple.symm
      _ ≤ nearest (x / 2 ^ exponent x) * 2 ^ exponent x := by gcongr
  · have hexp : exponent x = ilog2 x - 52 := by
      unfold exponent at hgt ⊢
      omega
    have hlog := ilog2_le (ne_of_gt hx)
    rw [abs_of_pos hx] at hlog
    have hnearest : 2 ^ 52 ≤ nearest (x / 2 ^ exponent x) := by
      apply le_nearest
      rw [le_div_iff₀ hpos]
      calc ((2 ^ 52 : Int) : ℚ) * 2 ^ exponent x = 2 ^ ((52 : Int) + exponent x) := by
            rw [zpow_add₀ (by norm_num)]
            norm_num
        _ = 2 ^ ilog2 x := by
            congr 1
            omega
        _ ≤ x := hlog
    have hcast : ((2 ^ 52 : Int) : ℚ) ≤ nearest (x / 2 ^ exponent x) := by exact_mod_cast hnearest
    have hbound' : (n : ℚ) ≤ ((2 ^ 53 : Int) : ℚ) := by exact_mod_cast hbound
    have htwo : (2 : ℚ) ≤ 2 ^ exponent x := by
      calc (2 : ℚ) = 2 ^ (1 : Int) := by norm_num
        _ ≤ 2 ^ exponent x := zpow_le_zpow_right₀ (by norm_num) hgt
    calc (n : ℚ) ≤ ((2 ^ 53 : Int) : ℚ) := hbound'
      _ = ((2 ^ 52 : Int) : ℚ) * 2 := by norm_num
      _ ≤ nearest (x / 2 ^ exponent x) * 2 ^ exponent x := by gcongr

theorem ilog2_natCast {n : Nat} (h : n ≠ 0) : ilog2 n = n.log2 := by
  have hle := zpow_log2_le h
  have habs : |(n : ℚ)| = n := abs_of_nonneg (Nat.cast_nonneg n)
  unfold ilog2
  dsimp only
  rw [Rat.num_natCast, Rat.den_natCast, Int.natAbs_natCast, habs]
  have hone : (Nat.log2 1 : Int) = 0 := rfl
  rw [hone, sub_zero, if_pos hle]

theorem nearest_div (n : Nat) {d : Nat} (hd : 0 < d) :
    nearest ((n : ℚ) / d) =
      ((if 2 * (n % d) < d ∨ 2 * (n % d) = d ∧ n / d % 2 = 0 then n / d else n / d + 1 : Nat) : Int) := by
  have hfloor : ⌊(n : ℚ) / d⌋ = ((n / d : Nat) : Int) := Rat.floor_natCast_div_natCast n d
  have hpos : (0 : ℚ) < d := by exact_mod_cast hd
  have hrest : (n : ℚ) / d - ((n / d : Nat) : Int) = ((n % d : Nat) : ℚ) / d := by
    have hsplit : (n : ℚ) = d * (n / d : Nat) + (n % d : Nat) := by exact_mod_cast (Nat.div_add_mod n d).symm
    rw [eq_div_iff (ne_of_gt hpos), sub_mul, div_mul_cancel₀ _ (ne_of_gt hpos), Int.cast_natCast]
    linarith
  have hlt : ((n % d : Nat) : ℚ) / d < 1 / 2 ↔ 2 * (n % d) < d := by
    rw [div_lt_div_iff₀ hpos (by norm_num), one_mul, mul_comm]
    exact_mod_cast Iff.rfl
  have heq : ((n % d : Nat) : ℚ) / d = 1 / 2 ↔ 2 * (n % d) = d := by
    rw [div_eq_div_iff (ne_of_gt hpos) (by norm_num), one_mul, mul_comm]
    exact_mod_cast Iff.rfl
  have heven : ((n / d : Nat) : Int) % 2 = 0 ↔ n / d % 2 = 0 := by omega
  unfold nearest
  dsimp only
  rw [hfloor, hrest]
  simp only [hlt, heq, heven]
  split <;> push_cast <;> rfl

/-- The rounding of natural numbers to doubles that is done on naturals. -/
theorem rounded_natCast (n : Nat) : rounded n = Decimal.nearestDouble n := by
  rcases Nat.lt_or_ge n (2 ^ 53) with hlt | hge
  · rw [Decimal.nearestDouble_of_lt hlt]
    exact rounded_intCast (n := n) (by rw [abs_of_nonneg (by omega)]; omega)
  · have hne : n ≠ 0 := by omega
    have hlog : 53 ≤ n.log2 := (Nat.le_log2 hne).mpr hge
    have hexp : exponent n = ((n.log2 - 52 : Nat) : Int) := by
      unfold exponent
      rw [ilog2_natCast hne]
      omega
    unfold rounded Decimal.nearestDouble
    have hulp : 0 < 2 ^ (n.log2 - 52) := Nat.two_pow_pos _
    have hcast : (2 : ℚ) ^ (n.log2 - 52) = ((2 ^ (n.log2 - 52) : Nat) : ℚ) := by push_cast; rfl
    rw [hexp, zpow_natCast, hcast]
    dsimp only
    generalize 2 ^ (n.log2 - 52) = ulp at hulp ⊢
    rw [nearest_div n hulp]
    split <;> push_cast <;> rfl

/-! ### Sums and differences -/

theorem ofRat_of_lt {x : ℚ} (h : |x| < 2 ^ 1024) : ofRat x = finite x := if_pos h

theorem ofRat_eq_finite {x y : ℚ} (h : ofRat x = finite y) : x = y := by
  unfold ofRat at h
  split at h
  · injection h
  · cases h

theorem round_intCast {n : Int} (h : |n| ≤ 2 ^ 53) : round n = ofInt n := by
  have hlt : |(n : ℚ)| < 2 ^ 1024 := by
    have hcast : |(n : ℚ)| ≤ 2 ^ 53 := by exact_mod_cast h
    exact lt_of_le_of_lt hcast (pow_lt_pow_right₀ one_lt_two (by omega))
  rw [round, rounded_intCast h, ofRat_of_lt hlt, ofInt]

theorem add_ofInt {m n : Int} (h : |m + n| ≤ 2 ^ 53) : (ofInt m).add (ofInt n) = ofInt (m + n) := by
  rw [← round_intCast h]
  push_cast
  rfl

theorem sub_ofInt {m n : Int} (h : |m - n| ≤ 2 ^ 53) : (ofInt m).sub (ofInt n) = ofInt (m - n) := by
  have hneg : (ofInt n).neg = ofInt (-n) := by
    unfold ofInt neg
    push_cast
    rfl
  rw [sub, hneg, add_ofInt (by rw [← Int.sub_eq_add_neg]; exact h), Int.sub_eq_add_neg]

theorem representable_of_add {x y : Double} {z : ℚ} (hx : ∀ s, x ≠ infinity s) (h : x.add y = finite z) :
    Representable z := by
  cases x with
  | nan => cases h
  | infinity s => exact absurd rfl (hx s)
  | finite x =>
    cases y with
    | nan => cases h
    | infinity s => cases h
    | finite y =>
      rw [← ofRat_eq_finite h]
      exact representable_rounded _

/-- A double from which a natural number is subtracted to give a positive integer is a larger integer. -/
theorem of_sub_ofInt {x : ℚ} (hx : Representable x) {m n : Int} (hm : 0 ≤ m) (hn : 0 < n)
    (h : (finite x).sub (ofInt m) = ofInt n) : ∃ k : Int, x = k ∧ m < k := by
  have hrounded : rounded (x - m) = n := by
    rw [sub_eq_add_neg]
    exact ofRat_eq_finite h
  have hpos : (0 : ℚ) < n := by exact_mod_cast hn
  have hgt : (m : ℚ) < x := by
    by_contra hle
    have hnonpos := rounded_nonpos (sub_nonpos.mpr (not_lt.mp hle))
    rw [hrounded] at hnonpos
    exact absurd hpos (not_lt.mpr hnonpos)
  have hint : ∃ k : Int, x = k := by
    rcases hx.sub hm hgt.le with hint | hdouble
    · exact hint
    · rw [rounded_of_representable hdouble] at hrounded
      refine ⟨n + m, ?_⟩
      push_cast
      rw [← hrounded, sub_add_cancel]
  obtain ⟨k, rfl⟩ := hint
  exact ⟨k, rfl, by exact_mod_cast hgt⟩

@[simp] theorem lt_ofInt (m n : Int) : (ofInt m).lt (ofInt n) = decide (m < n) := by
  simp [ofInt, lt]

@[simp] theorem le_ofInt (m n : Int) : (ofInt m).le (ofInt n) = decide (m ≤ n) := by
  simp [ofInt, le]

theorem lt_ofRat {m : Int} {x : ℚ} (hm : 0 ≤ m) (h : (m : ℚ) < x) : (ofInt m).lt (ofRat x) = true := by
  have hpos : ¬ x < 0 := not_lt.mpr (le_trans (by exact_mod_cast hm) h.le)
  unfold ofRat
  split
  · simpa [ofInt, lt] using h
  · simp [ofInt, lt, hpos]

theorem ofInt_inj {m n : Int} : ofInt m = ofInt n ↔ m = n := by
  simp [ofInt]

theorem index_ofInt (n : Nat) (length : Nat) : (ofInt n).index length = min n length := by
  simp [ofInt, index]

/-! ## Reading numerals -/

/-- White space and line terminators, which `Number` skips on both sides. -/
def isSpace (c : Char) : Bool :=
  c ∈ ['\t', '\n', '\u000b', '\u000c', '\r', ' ', '\u00a0', '\u1680', '\u2028', '\u2029', '\u202f',
    '\u205f', '\u3000', '\ufeff'] || '\u2000' ≤ c && c ≤ '\u200a'

/-- `text.trim()` -/
def trim (text : List Char) : List Char := (text.dropWhile isSpace).rdropWhile isSpace

/-- The value of a digit of a radix up to 16. -/
def digitValue (c : Char) : Option Nat :=
  if c.isDigit then some (c.toNat - '0'.toNat)
  else if 'a' ≤ c && c ≤ 'f' then some (c.toNat - 'a'.toNat + 10)
  else if 'A' ≤ c && c ≤ 'F' then some (c.toNat - 'A'.toNat + 10)
  else none

/-- The number of digits of a radix, after the digits of `n`. -/
def radixValue (radix : Nat) : List Char → Nat → Option Nat
  | [], n => some n
  | c :: digits, n =>
    match digitValue c with
    | some d => if d < radix then radixValue radix digits (radix * n + d) else none
    | none => none

/-- The digits after `0x`, `0o` or `0b`. -/
def radixNumber (radix : Nat) : List Char → Double
  | [] => nan
  | digits => match radixValue radix digits 0 with
    | some n => round n
    | none => nan

/-- The exponent part of a decimal numeral. -/
def exponentPart : List Char → Option Int
  | [] => some 0
  | e :: rest =>
    if e = 'e' ∨ e = 'E' then
      match rest with
      | '-' :: digits => (natural digits).map fun n => -(n : Int)
      | '+' :: digits => (natural digits).map fun n => (n : Int)
      | digits => (natural digits).map fun n => (n : Int)
    else none
where
  natural (digits : List Char) : Option Nat :=
    if digits ≠ [] ∧ digits.all Char.isDigit then some (Nat.ofDigitChars 10 digits 0) else none

/-- A decimal numeral without a sign, as an exact number. -/
def decimalValue (text : List Char) : Option ℚ :=
  let whole := text.takeWhile Char.isDigit
  let rest := text.dropWhile Char.isDigit
  let fraction := match rest with
    | '.' :: rest => rest.takeWhile Char.isDigit
    | _ => []
  let rest := match rest with
    | '.' :: rest => rest.dropWhile Char.isDigit
    | rest => rest
  if whole ++ fraction = [] then none
  else (exponentPart rest).map fun e : Int =>
    Nat.ofDigitChars 10 (whole ++ fraction) 0 * (10 : ℚ) ^ (e - (fraction.length : Int))

/-- A numeral without a sign. -/
def unsigned (text : List Char) : Double :=
  if text = "Infinity".toList then infinity false
  else match decimalValue text with
    | some x => round x
    | none => nan

/-- `Number(text)` -/
def Number (text : List Char) : Double :=
  match trim text with
  | [] => ofInt 0
  | '0' :: 'x' :: digits => radixNumber 16 digits
  | '0' :: 'X' :: digits => radixNumber 16 digits
  | '0' :: 'o' :: digits => radixNumber 8 digits
  | '0' :: 'O' :: digits => radixNumber 8 digits
  | '0' :: 'b' :: digits => radixNumber 2 digits
  | '0' :: 'B' :: digits => radixNumber 2 digits
  | '+' :: text => unsigned text
  | '-' :: text => (unsigned text).neg
  | text => unsigned text

/-! ### Numerals of digits -/

theorem isSpace_of_isDigit {c : Char} (h : c.isDigit = true) : isSpace c = false := by
  simp only [Char.isDigit, ge_iff_le, Bool.and_eq_true, decide_eq_true_eq, UInt32.le_iff_toNat_le] at h
  obtain ⟨hlow, hhigh⟩ := h
  have hlow : 48 ≤ c.toNat := hlow
  have hhigh : c.toNat ≤ 57 := hhigh
  rw [← Char.ofNat_toNat c]
  generalize c.toNat = n at hlow hhigh ⊢
  interval_cases n <;> decide

theorem trim_of_notSpace {text : List Char} (h : ∀ c ∈ text, isSpace c = false) : trim text = text := by
  unfold trim
  have hfront : text.dropWhile isSpace = text := by
    cases text with
    | nil => rfl
    | cons c text => rw [List.dropWhile_cons, h c List.mem_cons_self, if_neg Bool.false_ne_true]
  rw [hfront, List.rdropWhile_eq_self_iff]
  intro hne
  rw [h _ (List.getLast_mem hne)]
  exact Bool.false_ne_true

section Digits

variable {digits : List Char}

theorem unsigned_digits (hne : digits ≠ []) (hdigits : ∀ c ∈ digits, c.isDigit = true) :
    unsigned digits = round ((Nat.ofDigitChars 10 digits 0 : Nat) : ℚ) := by
  have hinfinity : digits ≠ "Infinity".toList := by
    rintro rfl
    exact absurd (hdigits 'I' (by simp)) (by decide)
  have hwhole : digits.takeWhile Char.isDigit = digits := List.takeWhile_eq_self_iff.mpr hdigits
  have hrest : digits.dropWhile Char.isDigit = [] := List.dropWhile_eq_nil_iff.mpr hdigits
  rw [unsigned, if_neg hinfinity, decimalValue, hwhole, hrest]
  dsimp only
  rw [List.append_nil, if_neg hne, exponentPart, Option.map_some]
  simp

/-- The text of a signed numeral is read as its number, rounded. -/
theorem Number_digits (hne : digits ≠ []) (hdigits : ∀ c ∈ digits, c.isDigit = true) :
    Number digits = round ((Nat.ofDigitChars 10 digits 0 : Nat) : ℚ) := by
  have htrim := trim_of_notSpace fun c hc => isSpace_of_isDigit (hdigits c hc)
  have hunsigned := unsigned_digits hne hdigits
  rw [Number, htrim]
  split
  · exact absurd rfl hne
  all_goals first
    | exact hunsigned
    | exact absurd (hdigits _ (List.mem_cons_of_mem _ List.mem_cons_self)) (by decide)
    | exact absurd (hdigits _ List.mem_cons_self) (by decide)

theorem trim_cons {c : Char} (hc : isSpace c = false) (hdigits : ∀ c ∈ digits, c.isDigit = true) :
    trim (c :: digits) = c :: digits := by
  refine trim_of_notSpace fun c' hc' => ?_
  rcases List.mem_cons.mp hc' with rfl | hdigit
  · exact hc
  · exact isSpace_of_isDigit (hdigits c' hdigit)

theorem Number_plus (hne : digits ≠ []) (hdigits : ∀ c ∈ digits, c.isDigit = true) :
    Number ('+' :: digits) = round ((Nat.ofDigitChars 10 digits 0 : Nat) : ℚ) := by
  rw [Number, trim_cons (by decide) hdigits]
  exact unsigned_digits hne hdigits

theorem Number_minus (hne : digits ≠ []) (hdigits : ∀ c ∈ digits, c.isDigit = true) :
    Number ('-' :: digits) = (round ((Nat.ofDigitChars 10 digits 0 : Nat) : ℚ)).neg := by
  rw [Number, trim_cons (by decide) hdigits]
  exact congrArg neg (unsigned_digits hne hdigits)

end Digits

theorem round_nat {n : Nat} (h : n ≤ 2 ^ 53) : round n = ofInt n :=
  round_intCast (n := n) (by rw [abs_of_nonneg (by omega)]; omega)

/-- The text of an integer that is a double is read as that integer. -/
theorem Number_repr {n : Int} (h : |n| ≤ 2 ^ 53) : Number n.repr.toList = ofInt n := by
  have hdigits : ∀ m : Nat, m ≤ 2 ^ 53 → m.repr.toList ≠ [] ∧
      (∀ c ∈ m.repr.toList, c.isDigit = true) ∧
      round ((Nat.ofDigitChars 10 m.repr.toList 0 : Nat) : ℚ) = ofInt m := by
    intro m hm
    refine ⟨?_, fun c hc => Decimal.isDigit_of_mem_repr hc, ?_⟩
    · rw [Nat.toList_repr]
      exact Nat.toDigits_ne_nil
    · rw [Nat.toList_repr, Nat.ofDigitChars_ten_toDigits, round_nat hm]
  obtain ⟨hlow, hhigh⟩ := abs_le.mp h
  cases n with
  | ofNat m =>
    have hm : (m : Int) ≤ 2 ^ 53 := hhigh
    obtain ⟨hne, hall, hvalue⟩ := hdigits m (by omega)
    exact (Number_digits hne hall).trans hvalue
  | negSucc m =>
    obtain ⟨hne, hall, hvalue⟩ := hdigits (m + 1) (by omega)
    have htext : (Int.negSucc m).repr.toList = '-' :: (m + 1).repr.toList := by
      show ("-" ++ (m + 1).repr).toList = _
      simp [String.toList_append]
    rw [htext, Number_minus hne hall, hvalue, Int.negSucc_eq]
    simp [ofInt, neg]

end Double
