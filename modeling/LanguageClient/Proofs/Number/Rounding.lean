import LanguageClient.Number.Binary64
import Mathlib.Algebra.Order.Field.Power
import Mathlib.Algebra.Order.Field.Rat
import Mathlib.Tactic.Linarith
import Mathlib.Tactic.NormNum
import Mathlib.Tactic.Positivity
import Mathlib.Tactic.Ring

/-!
What a fraction is rounded to is a matter of its value alone, and a number in normal form is what
every fraction near enough to it is rounded to.
-/

namespace LanguageClient.Binary64

/-- Rounding is off by half a unit at most. -/
theorem roundDiv_bounds (n : Nat) {d : Nat} (hd : 0 < d) :
    2 * n ≤ 2 * (roundDiv n d * d) + d ∧ 2 * (roundDiv n d * d) ≤ 2 * n + d := by
  have whole : n / d * d + n % d = n := by
    rw [Nat.mul_comm]
    exact Nat.div_add_mod n d
  have short : n % d < d := Nat.mod_lt n hd
  simp only [roundDiv]
  split
  · have next : (n / d + 1) * d = n / d * d + d := Nat.succ_mul _ d
    omega
  · omega

theorem abs_sub_roundDiv (n : Nat) {d : Nat} (hd : 0 < d) :
    |(n : ℚ) / d - roundDiv n d| ≤ 1 / 2 := by
  obtain ⟨above, below⟩ := roundDiv_bounds n hd
  have unit : (0 : ℚ) < d := by exact_mod_cast hd
  have above : (2 * n : ℚ) ≤ 2 * (roundDiv n d * d) + d := by exact_mod_cast above
  have below : (2 * (roundDiv n d * d) : ℚ) ≤ 2 * n + d := by exact_mod_cast below
  rw [abs_le, le_sub_iff_add_le, sub_le_iff_le_add, le_div_iff₀ unit, div_le_iff₀ unit]
  constructor <;> linarith

theorem roundDiv_near {n d m : Nat} (hd : 0 < d) (near : |(n : ℚ) / d - m| < 1 / 2) :
    roundDiv n d = m := by
  have half := abs_le.1 (abs_sub_roundDiv n hd)
  have near := abs_lt.1 near
  have above : (roundDiv n d : ℚ) < m + 1 := by linarith [half.1, near.2]
  have below : (m : ℚ) < roundDiv n d + 1 := by linarith [half.2, near.1]
  have above : roundDiv n d < m + 1 := by exact_mod_cast above
  have below : m < roundDiv n d + 1 := by exact_mod_cast below
  omega

theorem roundDiv_mul {c : Nat} (hc : 0 < c) (n d : Nat) :
    roundDiv (n * c) (d * c) = roundDiv n d := by
  have twice : 2 * (n % d * c) = 2 * (n % d) * c := (Nat.mul_assoc _ _ _).symm
  simp only [roundDiv, Nat.mul_div_mul_right _ _ hc, Nat.mul_mod_mul_right, twice,
    Nat.mul_lt_mul_right hc, Nat.mul_left_inj (Nat.ne_of_gt hc)]

theorem roundDiv_congr {n d n' d' : Nat} (hd : 0 < d) (hd' : 0 < d')
    (same : (n : ℚ) / d = n' / d') : roundDiv n d = roundDiv n' d' := by
  have unit : (d : ℚ) ≠ 0 := by exact_mod_cast hd.ne'
  have unit' : (d' : ℚ) ≠ 0 := by exact_mod_cast hd'.ne'
  have cross : n * d' = n' * d := by exact_mod_cast (div_eq_div_iff unit unit').1 same
  calc roundDiv n d = roundDiv (n * d') (d * d') := (roundDiv_mul hd' n d).symm
    _ = roundDiv (n' * d) (d' * d) := by rw [cross, Nat.mul_comm d]
    _ = roundDiv n' d' := roundDiv_mul hd n' d'

theorem zpow_toNat (b : ℚ) {e : Int} (h : 0 ≤ e) : b ^ e.toNat = b ^ e := by
  rw [← zpow_natCast, Int.toNat_of_nonneg h]

/-- A fraction in units of a power. -/
def inUnits (b num den : Nat) (e : Int) : Nat × Nat :=
  if 0 ≤ e then (num, den * Nat.pow b e.toNat) else (num * Nat.pow b (-e).toNat, den)

theorem inUnits_pos {b den : Nat} (hb : 0 < b) (hd : 0 < den) (num : Nat) (e : Int) :
    0 < (inUnits b num den e).2 := by
  unfold inUnits
  split
  · exact Nat.mul_pos hd (Nat.pow_pos hb)
  · exact hd

theorem inUnits_value (b num den : Nat) (e : Int) :
    ((inUnits b num den e).1 : ℚ) / (inUnits b num den e).2 = num / den / b ^ e := by
  unfold inUnits
  split
  · next up =>
    simp only [Nat.pow_eq, Nat.cast_mul, Nat.cast_pow, zpow_toNat b up]
    rw [div_div]
  · next down =>
    simp only [Nat.pow_eq, Nat.cast_mul, Nat.cast_pow, zpow_toNat b (show 0 ≤ -e by omega),
      zpow_neg]
    rw [div_right_comm, div_eq_mul_inv (num : ℚ) (b ^ e)]

theorem scaled_eq (num den : Nat) (e : Int) : scaled num den e = inUnits 2 num den e := rfl

theorem scaled_pos {den : Nat} (hd : 0 < den) (num : Nat) (e : Int) :
    0 < (scaled num den e).2 :=
  inUnits_pos (by decide) hd num e

theorem scaled_value (num den : Nat) (e : Int) :
    ((scaled num den e).1 : ℚ) / (scaled num den e).2 = num / den / 2 ^ e := by
  rw [scaled_eq]
  exact_mod_cast inUnits_value 2 num den e

/-- The significand that a fraction has at an exponent. -/
def significandAt (num den : Nat) (e : Int) : Nat :=
  roundDiv (scaled num den e).1 (scaled num den e).2

theorem significandAt_congr {num den num' den' : Nat} (hd : 0 < den) (hd' : 0 < den')
    (same : (num : ℚ) / den = num' / den') (e : Int) :
    significandAt num den e = significandAt num' den' e :=
  roundDiv_congr (scaled_pos hd num e) (scaled_pos hd' num' e) (by
    rw [scaled_value, scaled_value, same])

theorem significandAt_near {num den m : Nat} {e : Int} (hd : 0 < den)
    (near : |(num : ℚ) / den / 2 ^ e - m| < 1 / 2) : significandAt num den e = m :=
  roundDiv_near (scaled_pos hd num e) (by rwa [scaled_value])

theorem abs_sub_significandAt (num : Nat) {den : Nat} (hd : 0 < den) (e : Int) :
    |(num : ℚ) / den / 2 ^ e - significandAt num den e| ≤ 1 / 2 := by
  rw [← scaled_value]
  exact abs_sub_roundDiv _ (scaled_pos hd num e)

/-- The number with a rounded significand, a carry moved to the exponent. -/
def placed (negative : Bool) (m : Nat) (e : Int) : Binary64 :=
  if m = significandLimit then
    if maxExponent < e + 1 then .infinite negative
    else .finite negative (significandLimit / 2) (e + 1)
  else if maxExponent < e then .infinite negative
  else .finite negative m e

theorem roundAt_eq (negative : Bool) (num den : Nat) (e : Int) :
    roundAt negative num den e = placed negative (significandAt num den e) e := by
  unfold roundAt placed significandAt
  simp only
  split <;> rfl

/-- The exponent at which a value is rounded: there its significand has all its digits. -/
structure Fits (q : ℚ) (e : Int) : Prop where
  least : minExponent ≤ e
  below : q < 2 ^ 53 * 2 ^ e
  full : e = minExponent ∨ 2 ^ 53 * 2 ^ e ≤ 2 * q

namespace Fits

variable {q : ℚ} {e e' : Int}

theorem le (h : Fits q e) (h' : Fits q e') : e ≤ e' := by
  rcases h.full with bottom | full
  · exact bottom ▸ h'.least
  · have power : (2 : ℚ) ^ 53 * 2 ^ e < 2 ^ 53 * 2 ^ (e' + 1) := by
      rw [zpow_add_one₀ two_ne_zero]
      linarith [h'.below]
    have power := lt_of_mul_lt_mul_left power (by positivity)
    have : e < e' + 1 := (zpow_lt_zpow_iff_right₀ one_lt_two).1 power
    omega

theorem unique (h : Fits q e) (h' : Fits q e') : e = e' := le_antisymm (h.le h') (h'.le h)

end Fits

theorem log2_bounds {n : Nat} (hn : 0 < n) :
    (2 : ℚ) ^ (n.log2 : Int) ≤ n ∧ (n : ℚ) < 2 ^ (n.log2 + 1 : Int) := by
  have low := Nat.log2_self_le hn.ne'
  have high := Nat.lt_log2_self (n := n)
  constructor
  · rw [zpow_natCast]
    exact_mod_cast low
  · exact_mod_cast high

/-- The difference of the logarithms places a fraction between two powers. -/
theorem ratio_bounds {num den : Nat} (hn : 0 < num) (hd : 0 < den) :
    (2 : ℚ) ^ ((num.log2 : Int) - den.log2) ≤ 2 * (num / den) ∧
      (num / den : ℚ) < 2 * 2 ^ ((num.log2 : Int) - den.log2) := by
  obtain ⟨low, high⟩ := log2_bounds hn
  obtain ⟨low', high'⟩ := log2_bounds hd
  have unit : (0 : ℚ) < den := by exact_mod_cast hd
  rw [zpow_add_one₀ two_ne_zero] at high high'
  rw [zpow_sub₀ two_ne_zero]
  have power : (0 : ℚ) < 2 ^ (den.log2 : Int) := by positivity
  constructor
  · rw [div_le_iff₀ power, ← mul_div_assoc, div_mul_eq_mul_div, le_div_iff₀ unit]
    nlinarith
  · rw [div_lt_iff₀ unit, ← mul_div_assoc, div_mul_eq_mul_div, lt_div_iff₀ power]
    nlinarith

/-- A fraction is rounded at the exponent that fits it. -/
theorem exists_fits (negative : Bool) {num den : Nat} (hn : 0 < num) (hd : 0 < den) :
    ∃ e, Fits (num / den) e ∧ ofRatio negative num den = roundAt negative num den e := by
  obtain ⟨above, below⟩ := ratio_bounds hn hd
  have positive := scaled_pos hd num
  have value := scaled_value num den
  unfold ofRatio
  rw [if_neg (by omega)]
  simp only
  generalize hs : (num.log2 : Int) - den.log2 = s at above below
  generalize hlow : max minExponent (s - 53) = low
  have size : (2 : ℚ) ^ s = 2 ^ 53 * 2 ^ (s - 53) := by
    rw [← zpow_natCast 2 53, ← zpow_add₀ two_ne_zero]
    norm_num
  have floor : (scaled num den low).1 / (scaled num den low).2 < significandLimit ↔
      (num / den : ℚ) < 2 ^ 53 * 2 ^ low := by
    have unit : (0 : ℚ) < (scaled num den low).2 := by exact_mod_cast positive low
    have power : (0 : ℚ) < 2 ^ low := by positivity
    rw [Nat.div_lt_iff_lt_mul (positive low), ← div_lt_iff₀ power, ← value, div_lt_iff₀ unit,
      significandLimit]
    norm_num [← Nat.cast_lt (α := ℚ)]
  split
  · next fits =>
    refine ⟨low, ⟨by omega, floor.1 fits, ?_⟩, rfl⟩
    rcases le_total (s - 53) minExponent with bottom | higher
    · exact .inl (by omega)
    · right
      have : low = s - 53 := by omega
      rw [this, ← size]
      exact above
  · next large =>
    have large := not_lt.1 (mt floor.2 large)
    refine ⟨low + 1, ⟨by omega, ?_, .inr ?_⟩, rfl⟩
    · have power : (2 : ℚ) ^ (s - 53) ≤ 2 ^ low := zpow_le_zpow_right₀ one_le_two (by omega)
      rw [zpow_add_one₀ two_ne_zero]
      linarith
    · rw [zpow_add_one₀ two_ne_zero]
      linarith

theorem ofRatio_eq (negative : Bool) {num den : Nat} (hn : 0 < num) (hd : 0 < den) {e : Int}
    (fits : Fits (num / den) e) :
    ofRatio negative num den = placed negative (significandAt num den e) e := by
  obtain ⟨e', fits', same⟩ := exists_fits negative hn hd
  rw [same, fits'.unique fits, roundAt_eq]

/-- Rounding looks at the value of a fraction only. -/
theorem ofRatio_congr (negative : Bool) {num den num' den' : Nat} (hn : 0 < num) (hd : 0 < den)
    (hn' : 0 < num') (hd' : 0 < den') (same : (num : ℚ) / den = num' / den') :
    ofRatio negative num den = ofRatio negative num' den' := by
  obtain ⟨e, fits, -⟩ := exists_fits negative hn hd
  rw [ofRatio_eq negative hn hd fits, ofRatio_eq negative hn' hd' (same ▸ fits),
    significandAt_congr hd hd' same]

/-- A significand that is as long as its exponent allows. -/
structure Normal (m : Nat) (e : Int) : Prop where
  below : m < significandLimit
  least : minExponent ≤ e
  most : e ≤ maxExponent
  full : e = minExponent ∨ significandLimit ≤ 2 * m

/-- Written in the one way that rounding writes it. -/
def Canonical : Binary64 → Prop
  | .finite _ m e => Normal m e
  | _ => True

theorem normal_zero : Normal 0 minExponent := ⟨by decide, by decide, by decide, .inl rfl⟩

/-- A significand that fits is at most carried to the next exponent. -/
theorem canonical_placed (negative : Bool) {num den : Nat} (hd : 0 < den) {e : Int}
    (fits : Fits (num / den) e) :
    Canonical (placed negative (significandAt num den e) e) := by
  have power : (0 : ℚ) < 2 ^ e := by positivity
  have off := abs_le.1 (abs_sub_significandAt num hd e)
  have below := (div_lt_iff₀ power).2 fits.below
  have full : e = minExponent ∨ 2 ^ 53 ≤ 2 * ((num : ℚ) / den / 2 ^ e) :=
    fits.full.imp_right fun full => by rwa [← mul_div_assoc, le_div_iff₀ power]
  generalize (num : ℚ) / den / 2 ^ e = x at off below full
  generalize significandAt num den e = m at off ⊢
  have least := fits.least
  have small : m < significandLimit + 1 := by
    have : (m : ℚ) < 2 ^ 53 + 1 := by linarith [off.1]
    rw [significandLimit]
    exact_mod_cast this
  have large : e = minExponent ∨ significandLimit ≤ 2 * m := full.imp_right fun full => by
    have : (2 : ℚ) ^ 53 < 2 * m + 2 := by linarith [off.2]
    have : 2 ^ 53 < 2 * m + 2 := by exact_mod_cast this
    rw [significandLimit]
    omega
  unfold placed
  split
  · split
    · trivial
    · exact ⟨by decide, by omega, by omega, .inr (by decide)⟩
  · split
    · trivial
    · exact ⟨by omega, least, by omega, large⟩

theorem canonical_ofRatio (negative : Bool) (num den : Nat) :
    Canonical (ofRatio negative num den) := by
  by_cases nothing : num = 0 ∨ den = 0
  · rw [ofRatio, if_pos nothing]
    exact normal_zero
  · obtain ⟨hn, hd⟩ := not_or.1 nothing
    obtain ⟨e, fits, same⟩ :=
      exists_fits negative (Nat.pos_of_ne_zero hn) (Nat.pos_of_ne_zero hd)
    rw [same, roundAt_eq]
    exact canonical_placed negative (Nat.pos_of_ne_zero hd) fits

/-- Off by so small a part of the value that no other number is as near. -/
def Close (q v : ℚ) : Prop := 2 * 10 ^ 16 * |q - v| ≤ v

namespace Normal

variable {m num den : Nat} {e : Int} {x : ℚ}

theorem placed_eq (h : Normal m e) (negative : Bool) :
    placed negative m e = .finite negative m e := by
  have := h.most
  rw [placed, if_neg h.below.ne, if_neg (by omega)]

theorem add_one_le (h : Normal m e) : (m : ℚ) + 1 ≤ 2 ^ 53 := by
  have := h.below
  rw [significandLimit] at this
  exact_mod_cast this

/-- A fraction with the same exponent is rounded by the half unit. -/
theorem ofRatio_within (h : Normal m e) (hn : 0 < num) (hd : 0 < den)
    (value : (num : ℚ) / den = x * 2 ^ e) (full : e = minExponent ∨ 2 ^ 53 ≤ 2 * x)
    (near : |x - m| < 1 / 2) (negative : Bool) :
    ofRatio negative num den = .finite negative m e := by
  have power : (0 : ℚ) < 2 ^ e := by positivity
  have below := h.add_one_le
  have off := abs_lt.1 near
  have fits : Fits (num / den) e := by
    rw [value]
    refine ⟨h.least, mul_lt_mul_of_pos_right (by linarith [off.2]) power,
      full.imp_right fun full => ?_⟩
    rw [← mul_assoc]
    exact mul_le_mul_of_nonneg_right full power.le
  have found : significandAt num den e = m := significandAt_near hd (by
    rwa [value, mul_div_cancel_right₀ _ power.ne'])
  rw [ofRatio_eq negative hn hd fits, found, h.placed_eq]

/-- Under a power of two the units are half as long: there a fraction is rounded in the smaller
unit, and carried back. -/
theorem ofRatio_under (h : Normal m e) (hn : 0 < num) (hd : 0 < den)
    (value : (num : ℚ) / den = x * 2 ^ e) (inner : e ≠ minExponent) (short : 2 * x < 2 ^ 53)
    (near : |x - m| < 1 / 4) (negative : Bool) :
    ofRatio negative num den = .finite negative m e := by
  have off := abs_lt.1 near
  have least : m = 2 ^ 52 := by
    have full := h.full.resolve_left inner
    have : (m : ℚ) < 2 ^ 52 + 1 := by linarith [off.1]
    have : m < 2 ^ 52 + 1 := by exact_mod_cast this
    rw [significandLimit] at full
    omega
  have size : (m : ℚ) = 2 ^ 52 := by exact_mod_cast least
  have power : (0 : ℚ) < 2 ^ (e - 1) := by positivity
  have finer : (num : ℚ) / den = 2 * x * 2 ^ (e - 1) := by
    rw [value, zpow_sub_one₀ two_ne_zero]
    ring
  have lower := h.least
  have upper := h.most
  have fits : Fits (num / den) (e - 1) := by
    rw [finer]
    refine ⟨by omega, mul_lt_mul_of_pos_right short power, .inr ?_⟩
    rw [← mul_assoc]
    exact mul_le_mul_of_nonneg_right (by linarith [off.1]) power.le
  have found : significandAt num den (e - 1) = significandLimit := significandAt_near hd (by
    rw [finer, mul_div_cancel_right₀ _ power.ne', significandLimit, abs_lt]
    push_cast
    constructor <;> linarith [off.1])
  rw [ofRatio_eq negative hn hd fits, found, placed, if_pos rfl, if_neg (by omega),
    Int.sub_add_cancel, least]
  rfl

/-- Every fraction close to a number in normal form is rounded to it. -/
theorem ofRatio_close (h : Normal m e) (hn : 0 < num) (hd : 0 < den)
    (close : Close (num / den) (m * 2 ^ e)) (negative : Bool) :
    ofRatio negative num den = .finite negative m e := by
  have power : (0 : ℚ) < 2 ^ e := by positivity
  obtain ⟨x, value⟩ : ∃ x : ℚ, (num : ℚ) / den = x * 2 ^ e :=
    ⟨num / den / 2 ^ e, (div_mul_cancel₀ _ power.ne').symm⟩
  have close : 2 * 10 ^ 16 * |x - m| ≤ m := by
    rw [Close, value, ← sub_mul, abs_mul, abs_of_pos power, ← mul_assoc] at close
    exact le_of_mul_le_mul_right close power
  have below := h.add_one_le
  by_cases full : e = minExponent ∨ 2 ^ 53 ≤ 2 * x
  · exact h.ofRatio_within hn hd value full (by linarith) negative
  · obtain ⟨inner, short⟩ := not_or.1 full
    have short := not_le.1 short
    have off := neg_abs_le (x - m)
    exact h.ofRatio_under hn hd value inner short (by linarith) negative

end Normal

end LanguageClient.Binary64
