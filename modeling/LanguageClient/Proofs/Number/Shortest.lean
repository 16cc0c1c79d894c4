import LanguageClient.Number.Shortest
import LanguageClient.Proofs.Number.Rounding
import Mathlib.Data.List.TakeWhile

/-!
Seventeen digits are always enough to tell a number from all others, so the shortest reading of a
number is found, and it is rounded to the number.
-/

namespace LanguageClient.Binary64

/-- The power of ten just above a value. -/
structure Decade (q : ℚ) (p : Int) : Prop where
  below : 10 ^ (p - 1) ≤ q
  above : q < 10 ^ p

namespace Decade

variable {q : ℚ} {p p' : Int}

theorem le (h : Decade q p) (h' : Decade q p') : p ≤ p' := by
  have : p - 1 < p' :=
    (zpow_lt_zpow_iff_right₀ (by norm_num : (1 : ℚ) < 10)).1 (h.below.trans_lt h'.above)
  omega

theorem unique (h : Decade q p) (h' : Decade q p') : p = p' := le_antisymm (h.le h') (h'.le h)

theorem shift (h : Decade q p) (u : Int) : Decade (q * 10 ^ u) (p + u) := by
  have power : (0 : ℚ) < 10 ^ u := by positivity
  have ten : (10 : ℚ) ≠ 0 := by norm_num
  refine ⟨?_, ?_⟩
  · rw [show p + u - 1 = p - 1 + u by omega, zpow_add₀ ten]
    exact mul_le_mul_of_nonneg_right h.below power.le
  · rw [zpow_add₀ ten]
    exact mul_lt_mul_of_pos_right h.above power

end Decade

/-- The number of decimal digits. -/
def width (n : Nat) : Int := (Nat.toDigits 10 n).length

theorem decade_width {n : Nat} (hn : 0 < n) : Decade n (width n) := by
  obtain ⟨k, hk⟩ : ∃ k, (Nat.toDigits 10 n).length = k + 1 :=
    Nat.exists_eq_succ_of_ne_zero (by simp [Nat.toDigits_ne_nil])
  have above : n < 10 ^ (k + 1) :=
    (Nat.length_toDigits_le_iff (by decide) (by omega)).1 hk.le
  have below : 10 ^ k ≤ n := by
    obtain _ | k := k
    · exact hn
    · refine not_lt.1 fun small => ?_
      have := (Nat.length_toDigits_le_iff (n := n) (by decide : 1 < 10) (Nat.succ_pos k)).2 small
      omega
  refine ⟨?_, ?_⟩
  · rw [width, hk, Nat.cast_succ, add_sub_cancel_right, zpow_natCast]
    exact_mod_cast below
  · rw [width, hk, zpow_natCast]
    exact_mod_cast above

/-- A number of units of a power, as a fraction. -/
def ofUnits (b k : Nat) (e : Int) : Nat × Nat :=
  if 0 ≤ e then (k * Nat.pow b e.toNat, 1) else (k, Nat.pow b (-e).toNat)

theorem ofUnits_pos {b k : Nat} (hb : 0 < b) (hk : 0 < k) (e : Int) :
    0 < (ofUnits b k e).1 ∧ 0 < (ofUnits b k e).2 := by
  unfold ofUnits
  split
  · exact ⟨Nat.mul_pos hk (Nat.pow_pos hb), Nat.one_pos⟩
  · exact ⟨hk, Nat.pow_pos hb⟩

theorem ofUnits_value (b k : Nat) (e : Int) :
    ((ofUnits b k e).1 : ℚ) / (ofUnits b k e).2 = k * b ^ e := by
  unfold ofUnits
  split
  · next up =>
    rw [Nat.pow_eq, Nat.cast_mul, Nat.cast_pow, zpow_toNat b up, Nat.cast_one, div_one]
  · next down =>
    rw [Nat.pow_eq, Nat.cast_pow, zpow_toNat b (show 0 ≤ -e by omega), zpow_neg, div_inv_eq_mul]

/-- A decimal as the fraction that is rounded. -/
def fraction (k : Nat) (u : Int) : Nat × Nat := ofUnits 10 k u

theorem fraction_pos {k : Nat} (hk : 0 < k) (u : Int) :
    0 < (fraction k u).1 ∧ 0 < (fraction k u).2 :=
  ofUnits_pos (by decide) hk u

theorem fraction_value (k : Nat) (u : Int) :
    ((fraction k u).1 : ℚ) / (fraction k u).2 = k * 10 ^ u := by
  exact_mod_cast ofUnits_value 10 k u

theorem ratio_eq (m : Nat) (e : Int) : ratio m e = ofUnits 2 m e := rfl

theorem ratio_pos {m : Nat} (hm : 0 < m) (e : Int) : 0 < (ratio m e).1 ∧ 0 < (ratio m e).2 :=
  ofUnits_pos (by decide) hm e

theorem ratio_value (m : Nat) (e : Int) :
    ((ratio m e).1 : ℚ) / (ratio m e).2 = m * 2 ^ e := by
  rw [ratio_eq]
  exact_mod_cast ofUnits_value 2 m e

/-- A decimal is rounded as a fraction unless its size alone tells the result. -/
theorem ofDecimal_eq (negative : Bool) {k : Nat} (hk : 0 < k) {u s : Int}
    (size : Decade (k * 10 ^ u) s) :
    ofDecimal negative k u =
      if 400 < s then .infinite negative
      else if s < -400 then .finite negative 0 minExponent
      else ofRatio negative (fraction k u).1 (fraction k u).2 := by
  have hs : u + width k = s := by
    rw [add_comm]
    exact ((decade_width hk).shift u).unique size
  unfold ofDecimal fraction ofUnits
  rw [width] at hs
  simp only [hs, if_neg hk.ne']
  split
  · rfl
  · split
    · rfl
    · split <;> rfl

theorem exists_decade {k : Nat} (hk : 0 < k) (u : Int) : ∃ s, Decade (k * 10 ^ u) s :=
  ⟨_, (decade_width hk).shift u⟩

/-- Reading looks at the value of a decimal only, not at where its point stands. -/
theorem ofDecimal_congr (negative : Bool) {k k' : Nat} {u u' : Int} (hk : 0 < k) (hk' : 0 < k')
    (same : (k * 10 ^ u : ℚ) = k' * 10 ^ u') :
    ofDecimal negative k u = ofDecimal negative k' u' := by
  obtain ⟨s, size⟩ := exists_decade hk u
  obtain ⟨num, den⟩ := fraction_pos hk u
  obtain ⟨num', den'⟩ := fraction_pos hk' u'
  rw [ofDecimal_eq negative hk size, ofDecimal_eq negative hk' (same ▸ size),
    ofRatio_congr negative num den num' den' (by rw [fraction_value, fraction_value, same])]

/-- The number with another sign. -/
def withSign (negative : Bool) : Binary64 → Binary64
  | .nan => .nan
  | .infinite _ => .infinite negative
  | .finite _ m e => .finite negative m e

theorem placed_sign (negative : Bool) (m : Nat) (e : Int) :
    placed negative m e = withSign negative (placed false m e) := by
  unfold placed
  split <;> split <;> rfl

theorem ofRatio_sign (negative : Bool) (num den : Nat) :
    ofRatio negative num den = withSign negative (ofRatio false num den) := by
  unfold ofRatio
  split
  · rfl
  · simp only [roundAt_eq]
    split <;> exact placed_sign negative _ _

theorem ofDecimal_sign (negative : Bool) (k : Nat) (u : Int) :
    ofDecimal negative k u = withSign negative (ofDecimal false k u) := by
  unfold ofDecimal
  simp only
  repeat' split
  all_goals first | rfl | exact ofRatio_sign negative _ _

theorem canonical_ofDecimal (negative : Bool) (k : Nat) (u : Int) :
    Canonical (ofDecimal negative k u) := by
  unfold ofDecimal
  simp only
  repeat' split
  all_goals first | exact normal_zero | exact canonical_ofRatio negative _ _ | trivial

namespace Normal

variable {m : Nat} {e : Int}

/-- The numbers lie well inside the sizes that are looked into. -/
theorem value_bounds (h : Normal m e) (hm : 0 < m) :
    2 * (10 : ℚ) ^ (-400 : Int) ≤ m * 2 ^ e ∧ 2 * (m * 2 ^ e : ℚ) < 10 ^ (400 : Int) := by
  have wide : 2 * (2 : ℚ) ^ (1074 : Int) ≤ 10 ^ (400 : Int) := by
    have wide : 2 * 2 ^ 1074 ≤ 10 ^ 400 := by decide +kernel
    exact_mod_cast wide
  have power : (0 : ℚ) < 2 ^ e := by positivity
  have lower : (2 : ℚ) ^ (-1074 : Int) ≤ 2 ^ e := zpow_le_zpow_right₀ one_le_two h.least
  have upper : (2 : ℚ) ^ e ≤ 2 ^ (971 : Int) := zpow_le_zpow_right₀ one_le_two h.most
  have one : (1 : ℚ) ≤ m := by exact_mod_cast hm
  have below := h.add_one_le
  constructor
  · refine le_trans ?_ (lower.trans (le_mul_of_one_le_left power.le one))
    rw [zpow_neg, zpow_neg, ← div_eq_mul_inv, div_le_iff₀ (by positivity), inv_mul_eq_div,
      le_div_iff₀ (by positivity)]
    exact wide
  · calc 2 * (m * 2 ^ e : ℚ) < 2 * (2 ^ 53 * 2 ^ e) := by
          linarith [mul_lt_mul_of_pos_right (show (m : ℚ) < 2 ^ 53 by linarith) power]
      _ ≤ 2 * (2 ^ 53 * 2 ^ (971 : Int)) := by
          linarith [mul_le_mul_of_nonneg_left upper (show (0 : ℚ) ≤ 2 ^ 53 by positivity)]
      _ = 2 * 2 ^ (1024 : Int) := by
          rw [← zpow_natCast, ← zpow_add₀ two_ne_zero]
          rfl
      _ ≤ 2 * 2 ^ (1074 : Int) := by
          exact mul_le_mul_of_nonneg_left (zpow_le_zpow_right₀ one_le_two (by decide))
            (by positivity)
      _ ≤ 10 ^ (400 : Int) := wide

/-- Every decimal close to a number in normal form is read as it. -/
theorem ofDecimal_close (h : Normal m e) (hm : 0 < m) {k : Nat} {u : Int}
    (close : Close (k * 10 ^ u) (m * 2 ^ e)) (negative : Bool) :
    ofDecimal negative k u = .finite negative m e := by
  obtain ⟨least, most⟩ := h.value_bounds hm
  have ten : (1 : ℚ) ≤ 10 := by norm_num
  have value : (0 : ℚ) < m * 2 ^ e := lt_of_lt_of_le (by positivity) least
  have off := abs_le.1 (show |(k * 10 ^ u : ℚ) - m * 2 ^ e| ≤ m * 2 ^ e / 2 by
    rw [Close] at close
    linarith [abs_nonneg ((k * 10 ^ u : ℚ) - m * 2 ^ e)])
  have hk : 0 < k := by
    refine Nat.pos_of_ne_zero fun zero => ?_
    rw [zero, Nat.cast_zero, zero_mul] at off
    linarith [off.1]
  obtain ⟨s, size⟩ := exists_decade hk u
  have upper : s ≤ 400 := by
    refine not_lt.1 fun large => ?_
    have huge : (10 : ℚ) ^ (400 : Int) ≤ 10 ^ (s - 1) := zpow_le_zpow_right₀ ten (by omega)
    generalize (10 : ℚ) ^ (400 : Int) = bound at huge most
    linarith [size.below, off.2]
  have lower : -400 ≤ s := by
    refine not_lt.1 fun small => ?_
    have tiny : (10 : ℚ) ^ s ≤ 10 ^ (-400 : Int) := zpow_le_zpow_right₀ ten (by omega)
    generalize (10 : ℚ) ^ (-400 : Int) = bound at tiny least
    linarith [size.above, off.1]
  obtain ⟨num, den⟩ := fraction_pos hk u
  rw [ofDecimal_eq negative hk size, if_neg (by omega), if_neg (by omega)]
  exact h.ofRatio_close num den (by rwa [fraction_value]) negative

end Normal

/-- A fraction is not below a power of ten. -/
def reaches (num den : Nat) (p : Int) : Bool :=
  if 0 ≤ p then den * Nat.pow 10 p.toNat ≤ num else den ≤ num * Nat.pow 10 (-p).toNat

theorem reaches_iff (num : Nat) {den : Nat} (hd : 0 < den) (p : Int) :
    reaches num den p = true ↔ (10 : ℚ) ^ p ≤ num / den := by
  have unit : (0 : ℚ) < den := by exact_mod_cast hd
  rw [le_div_iff₀ unit, reaches]
  split
  · next up =>
    rw [decide_eq_true_iff, ← zpow_toNat 10 up, mul_comm, Nat.pow_eq]
    exact_mod_cast Iff.rfl
  · next down =>
    have split : (10 : ℚ) ^ p = (10 ^ (-p).toNat)⁻¹ := by
      rw [zpow_toNat 10 (by omega), zpow_neg, inv_inv]
    rw [decide_eq_true_iff, split, inv_mul_le_iff₀ (by positivity), mul_comm, Nat.pow_eq]
    exact_mod_cast Iff.rfl

theorem decimalPoint_eq (num den : Nat) :
    decimalPoint num den =
      if reaches num den (width num - width den) then width num - width den + 1
      else width num - width den := rfl

theorem decade_decimalPoint {num den : Nat} (hn : 0 < num) (hd : 0 < den) :
    Decade (num / den) (decimalPoint num den) := by
  have size := decade_width hn
  have size' := decade_width hd
  have unit : (0 : ℚ) < den := by exact_mod_cast hd
  have ten : (10 : ℚ) ≠ 0 := by norm_num
  have reaches := reaches_iff num hd (width num - width den)
  rw [decimalPoint_eq]
  generalize hg : width num - width den = guess at reaches ⊢
  split
  · next yes =>
    refine ⟨?_, ?_⟩
    · rw [add_sub_cancel_right]
      exact reaches.1 yes
    · rw [div_lt_iff₀ unit]
      calc (num : ℚ) < 10 ^ width num := size.above
        _ = 10 ^ (guess + 1) * 10 ^ (width den - 1) := by
            rw [← zpow_add₀ ten]
            congr 1
            omega
        _ ≤ 10 ^ (guess + 1) * den := mul_le_mul_of_nonneg_left size'.below (by positivity)
  · next no =>
    refine ⟨?_, not_le.1 fun yes => no (reaches.2 yes)⟩
    rw [le_div_iff₀ unit]
    calc (10 : ℚ) ^ (guess - 1) * den ≤ 10 ^ (guess - 1) * 10 ^ width den :=
          mul_le_mul_of_nonneg_left size'.above.le (by positivity)
      _ = 10 ^ (width num - 1) := by
          rw [← zpow_add₀ ten]
          congr 1
          omega
      _ ≤ num := size.below

theorem below_eq (num den : Nat) (unit : Int) :
    (below num den unit).1 = (inUnits 10 num den unit).1 / (inUnits 10 num den unit).2 := rfl

/-- The grid point under a fraction. -/
theorem below_bounds (num : Nat) {den : Nat} (hd : 0 < den) (unit : Int) :
    ((below num den unit).1 * 10 ^ unit : ℚ) ≤ num / den ∧
      (num / den : ℚ) < ((below num den unit).1 + 1) * 10 ^ unit := by
  have positive := inUnits_pos (b := 10) (by decide) hd num unit
  have value : ((inUnits 10 num den unit).1 : ℚ) / (inUnits 10 num den unit).2 =
      num / den / 10 ^ unit := by
    exact_mod_cast inUnits_value 10 num den unit
  have power : (0 : ℚ) < 10 ^ unit := by positivity
  have step : (0 : ℚ) < (inUnits 10 num den unit).2 := by exact_mod_cast positive
  rw [← le_div_iff₀ power, ← div_lt_iff₀ power, ← value, below_eq, le_div_iff₀ step,
    div_lt_iff₀ step]
  constructor
  · exact_mod_cast Nat.div_mul_le_self _ _
  · exact_mod_cast (Nat.div_lt_iff_lt_mul positive).1 (Nat.lt_succ_self _)

/-- One of the two grid points around a fraction is off by half a unit at most. -/
theorem below_near (num : Nat) {den : Nat} (hd : 0 < den) (unit : Int) :
    ∃ k, (k = (below num den unit).1 ∨ k = (below num den unit).1 + 1) ∧
      2 * |(k * 10 ^ unit : ℚ) - num / den| ≤ 10 ^ unit := by
  obtain ⟨left, right⟩ := below_bounds num hd unit
  rw [add_one_mul] at right
  generalize (num : ℚ) / den = v at left right
  rcases le_total (2 * (v - (below num den unit).1 * 10 ^ unit)) (10 ^ unit) with near | far
  · refine ⟨_, .inl rfl, ?_⟩
    rw [abs_of_nonpos (by linarith)]
    linarith
  · refine ⟨_, .inr rfl, ?_⟩
    rw [Nat.cast_succ, add_one_mul, abs_of_nonneg (by linarith)]
    linarith

/-- The digits of a number without the zeros at its end. -/
def trimmed (k : Nat) : List Char := ((Nat.toDigits 10 k).reverse.dropWhile (· = '0')).reverse

/-- A grid point as a reading. -/
def shown (point : Int) (count k : Nat) : Decimal :=
  ⟨trimmed k, point + (width k - count)⟩

/-- A reading with so many digits is one of the two grid points, if this is read as the number. -/
theorem withDigits?_cases (m : Nat) (e point : Int) (count : Nat) {low : Nat}
    (hlow : (below (ratio m e).1 (ratio m e).2 (point - count)).1 = low) :
    (∃ k, ofDecimal false k (point - count) = .finite false m e ∧
      withDigits? m e point count = some (shown point count k)) ∨
    (ofDecimal false low (point - count) ≠ .finite false m e ∧
      ofDecimal false (low + 1) (point - count) ≠ .finite false m e ∧
      withDigits? m e point count = none) := by
  unfold withDigits?
  simp only [hlow]
  split
  · next here next =>
    left
    have here := of_decide_eq_true here
    have next := of_decide_eq_true next
    split
    · exact ⟨low, here, rfl⟩
    · exact ⟨low + 1, next, rfl⟩
    · refine ⟨if low % 2 = 0 then low else low + 1, ?_, rfl⟩
      split
      · exact here
      · exact next
  · next here _ => exact .inl ⟨low, of_decide_eq_true here, rfl⟩
  · next _ next => exact .inl ⟨low + 1, of_decide_eq_true next, rfl⟩
  · next here next => exact .inr ⟨of_decide_eq_false here, of_decide_eq_false next, rfl⟩

theorem withDigits?_eq_some {m : Nat} {e point : Int} {count : Nat} {d : Decimal}
    (h : withDigits? m e point count = some d) :
    ∃ k, ofDecimal false k (point - count) = .finite false m e ∧ d = shown point count k := by
  rcases withDigits?_cases m e point count rfl with ⟨k, back, found⟩ | ⟨-, -, nothing⟩
  · rw [found] at h
    exact ⟨k, back, (Option.some.inj h).symm⟩
  · rw [nothing] at h
    cases h

/-- With seventeen digits the grid is so fine that one of the two points is read as the number. -/
theorem exists_withDigits? {m : Nat} {e : Int} (h : Normal m e) (hm : 0 < m) :
    ∃ d, withDigits? m e (decimalPoint (ratio m e).1 (ratio m e).2) 17 = some d := by
  obtain ⟨hn, hd⟩ := ratio_pos hm e
  have size := decade_decimalPoint hn hd
  generalize decimalPoint (ratio m e).1 (ratio m e).2 = point at size ⊢
  obtain ⟨k, grid, near⟩ := below_near (ratio m e).1 hd (point - (17 : Nat))
  have finest : (10 : ℚ) ^ (point - 1) = 10 ^ 16 * 10 ^ (point - (17 : Nat) : Int) := by
    rw [← zpow_natCast, ← zpow_add₀ (by norm_num)]
    congr 1
    omega
  have below := size.below
  rw [ratio_value] at near below
  have close : Close (k * 10 ^ (point - (17 : Nat) : Int)) (m * 2 ^ e) := by
    unfold Close
    linarith
  have back := h.ofDecimal_close hm close false
  rcases withDigits?_cases m e point 17 rfl with ⟨k, -, found⟩ | ⟨here, next, -⟩
  · exact ⟨_, found⟩
  · rcases grid with rfl | rfl
    · exact absurd back here
    · exact absurd back next

theorem exists_shortest {m : Nat} {e : Int} (h : Normal m e) (hm : 0 < m) :
    ∃ (point : Int) (count k : Nat), ofDecimal false k (point - count) = .finite false m e ∧
      shortest m e = shown point count k := by
  obtain ⟨d, seventeen⟩ := exists_withDigits? h hm
  rw [shortest, if_neg hm.ne']
  simp only
  generalize decimalPoint (ratio m e).1 (ratio m e).2 = point at seventeen ⊢
  cases found : (List.range' 1 17).findSome? (withDigits? m e point) with
  | none =>
    have := List.findSome?_eq_none_iff.1 found 17 (by decide)
    rw [seventeen] at this
    cases this
  | some d =>
    obtain ⟨count, -, some⟩ := List.exists_of_findSome?_eq_some found
    obtain ⟨k, back, rfl⟩ := withDigits?_eq_some some
    exact ⟨point, count, k, back, rfl⟩

/-- Only zeros are taken off. -/
theorem exists_trimmed (k : Nat) :
    ∃ zeros, Nat.toDigits 10 k = trimmed k ++ List.replicate zeros '0' := by
  have cut := congrArg List.reverse (List.takeWhile_append_dropWhile (p := (· = '0'))
    (l := (Nat.toDigits 10 k).reverse))
  have zeros := List.eq_replicate_of_mem
    fun c (hc : c ∈ (Nat.toDigits 10 k).reverse.takeWhile (· = '0')) =>
      of_decide_eq_true (List.mem_takeWhile_imp (p := (· = '0')) hc)
  rw [List.reverse_append, List.reverse_reverse, zeros, List.reverse_replicate] at cut
  exact ⟨_, cut.symm⟩

/-- The shortest reading of a number: its digits, and the zeros at their end that are not shown,
make a whole number that is read as the number. -/
theorem shortest_spec {m : Nat} {e : Int} (h : Normal m e) (hm : 0 < m) :
    ∃ k zeros, Nat.toDigits 10 k = (shortest m e).digits ++ List.replicate zeros '0' ∧
      ∀ negative, ofDecimal negative k
        ((shortest m e).point - (shortest m e).digits.length - zeros) = .finite negative m e := by
  obtain ⟨point, count, k, back, same⟩ := exists_shortest h hm
  obtain ⟨zeros, cut⟩ := exists_trimmed k
  refine ⟨k, zeros, by rw [same]; exact cut, fun negative => ?_⟩
  have size : width k = (trimmed k).length + zeros := by
    rw [width, cut]
    simp
  have unit : point + (width k - count) - (trimmed k).length - zeros = point - count := by omega
  rw [same]
  simp only [shown]
  rw [unit, ofDecimal_sign, back]
  rfl

end LanguageClient.Binary64
