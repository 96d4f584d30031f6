import BoundedPools.Decimal.Exact
import Mathlib.Algebra.Order.Field.Power
import Mathlib.Data.Rat.Floor
import Mathlib.Tactic.Linarith

/-!
# Rounding keeps the order

The nearest doubles of two numbers stand in the order of the numbers.  Between numbers that
are rounded at one place this is so because `roundHalfEven` keeps the order; and where the
places differ, the power of two at which they change lies between the numbers and is
a double itself.  Whole numbers of fifty-three digits are rounded to themselves, and no number
is rounded to zero that is at least as large as the smallest double.
-/

namespace BoundedPools.Decimal

/-! ## Whole numbers -/

theorem floor_le_roundHalfEven (x : Rat) : x.floor ≤ roundHalfEven x := by
  unfold roundHalfEven
  dsimp only
  split_ifs <;> omega

theorem roundHalfEven_le (x : Rat) : roundHalfEven x ≤ x.floor + 1 := by
  unfold roundHalfEven
  dsimp only
  split_ifs <;> omega

theorem roundHalfEven_mono {x y : Rat} (hLe : x ≤ y) : roundHalfEven x ≤ roundHalfEven y := by
  rcases (Rat.floor_monotone hLe).lt_or_eq with hLess | hSame
  · calc
      roundHalfEven x ≤ x.floor + 1 := roundHalfEven_le x
      _ ≤ y.floor := hLess
      _ ≤ roundHalfEven y := floor_le_roundHalfEven y
  · -- Above one whole number, the larger rest is rounded up if the smaller one is.
    have hRest : x - x.floor ≤ y - y.floor := by
      rw [hSame]
      linarith
    unfold roundHalfEven
    dsimp only
    rw [hSame] at hRest ⊢
    split_ifs <;> first | omega | linarith

theorem roundHalfEven_intCast (n : Int) : roundHalfEven n = n := by
  unfold roundHalfEven
  simp [Rat.floor_intCast]

/-! ## Places -/

/-- The lengths of two numbers tell their quotient within a factor of four. -/
theorem quotient_bounds {n d : Nat} (hNum : n ≠ 0) (hDen : d ≠ 0) :
    (2 : Rat) ^ ((n.log2 : Int) - d.log2 - 1) ≤ n / d ∧
      (n / d : Rat) < (2 : Rat) ^ ((n.log2 : Int) - d.log2 + 1) := by
  have hTwo : (2 : Rat) ≠ 0 := by norm_num
  have hPos : (0 : Rat) < d := by exact_mod_cast Nat.pos_of_ne_zero hDen
  have hNumLow : (2 : Rat) ^ n.log2 ≤ n := by exact_mod_cast Nat.log2_self_le hNum
  have hNumHigh : (n : Rat) < (2 : Rat) ^ (n.log2 + 1) := by exact_mod_cast Nat.lt_log2_self
  have hDenLow : (2 : Rat) ^ d.log2 ≤ d := by exact_mod_cast Nat.log2_self_le hDen
  have hDenHigh : (d : Rat) ≤ (2 : Rat) ^ (d.log2 + 1) := by
    exact_mod_cast Nat.lt_log2_self.le
  constructor
  · rw [le_div_iff₀ hPos]
    calc
      (2 : Rat) ^ ((n.log2 : Int) - d.log2 - 1) * d
          ≤ (2 : Rat) ^ ((n.log2 : Int) - d.log2 - 1) * 2 ^ (d.log2 + 1) := by gcongr
      _ = (2 : Rat) ^ n.log2 := by
        rw [← zpow_natCast, ← zpow_natCast, ← zpow_add₀ hTwo]
        congr 1
        push_cast
        ring
      _ ≤ n := hNumLow
  · rw [div_lt_iff₀ hPos]
    calc
      (n : Rat) < (2 : Rat) ^ (n.log2 + 1) := hNumHigh
      _ = (2 : Rat) ^ ((n.log2 : Int) - d.log2 + 1) * 2 ^ d.log2 := by
        rw [← zpow_natCast, ← zpow_natCast, ← zpow_add₀ hTwo]
        congr 1
        push_cast
        ring
      _ ≤ (2 : Rat) ^ ((n.log2 : Int) - d.log2 + 1) * d := by gcongr

/-- A positive number lies between two powers of two, and that tells its last place. -/
theorem lastPlace_eq {x : Rat} (hPos : 0 < x) :
    ∃ e : Int, (2 : Rat) ^ e ≤ x ∧ x < (2 : Rat) ^ (e + 1) ∧ lastPlace x = max (-1074) (e - 52) := by
  have hNum : x.num.natAbs ≠ 0 := Int.natAbs_ne_zero.mpr (Rat.num_ne_zero.mpr hPos.ne')
  have hQuotient : (x.num.natAbs : Rat) / x.den = x := by
    have hAbs : (x.num.natAbs : Rat) = x.num := by
      rw [Nat.cast_natAbs, abs_of_pos (Rat.num_pos.mpr hPos)]
    rw [hAbs, Rat.num_div_den]
  obtain ⟨hLow, hHigh⟩ := quotient_bounds hNum x.den_nz
  rw [hQuotient] at hLow hHigh
  unfold lastPlace
  dsimp only
  rw [sub_add_cancel]
  split
  case isTrue hLess =>
    exact ⟨_, hLow, by rwa [sub_add_cancel], congrArg (max (-1074)) (by ring)⟩
  case isFalse hNot => exact ⟨_, not_lt.mp hNot, hHigh, rfl⟩

/-! ## Doubles -/

theorem two_zpow_pos (place : Int) : (0 : Rat) < (2 : Rat) ^ place := by positivity

/-- What is at least so many times the last place stays so. -/
theorem le_nearest {x : Rat} {n : Int} (hLe : (n : Rat) * (2 : Rat) ^ lastPlace x ≤ x) :
    (n : Rat) * (2 : Rat) ^ lastPlace x ≤ nearest x := by
  have hPlace := two_zpow_pos (lastPlace x)
  have hRound := roundHalfEven_mono ((le_div_iff₀ hPlace).mpr hLe)
  rw [roundHalfEven_intCast] at hRound
  unfold nearest
  dsimp only
  gcongr

theorem nearest_le {x : Rat} {n : Int} (hLe : x ≤ (n : Rat) * (2 : Rat) ^ lastPlace x) :
    nearest x ≤ (n : Rat) * (2 : Rat) ^ lastPlace x := by
  have hPlace := two_zpow_pos (lastPlace x)
  have hRound := roundHalfEven_mono ((div_le_iff₀ hPlace).mpr hLe)
  rw [roundHalfEven_intCast] at hRound
  unfold nearest
  dsimp only
  gcongr

theorem nearest_nonneg {x : Rat} (hNonneg : 0 ≤ x) : 0 ≤ nearest x := by
  have hLe := le_nearest (x := x) (n := 0) (by simpa using hNonneg)
  simpa using hLe

theorem nearest_zero : nearest 0 = 0 := by
  have hLe := nearest_le (x := 0) (n := 0) (by simp)
  exact le_antisymm (by simpa using hLe) (nearest_nonneg le_rfl)

/-- The nearest doubles of two numbers stand in the order of the numbers. -/
theorem nearest_mono {x y : Rat} (hNonneg : 0 ≤ x) (hLe : x ≤ y) : nearest x ≤ nearest y := by
  rcases hNonneg.eq_or_lt with rfl | hPos
  · rw [nearest_zero]
    exact nearest_nonneg hLe
  obtain ⟨e, hLow, hHigh, hPlace⟩ := lastPlace_eq hPos
  obtain ⟨e', hLow', hHigh', hPlace'⟩ := lastPlace_eq (hPos.trans_le hLe)
  have hOrder : e < e' + 1 :=
    (zpow_lt_zpow_iff_right₀ one_lt_two).mp ((hLow.trans hLe).trans_lt hHigh')
  rcases lt_or_eq_of_le (show lastPlace x ≤ lastPlace y by omega) with hLess | hSame
  · -- The larger number lies above a power of two that the smaller one does not reach.
    have hTwo : (2 : Rat) ≠ 0 := by norm_num
    have hScale (k : Nat) (place : Int) :
        ((2 ^ k : Int) : Rat) * (2 : Rat) ^ place = (2 : Rat) ^ (k + place) := by
      rw [zpow_add₀ hTwo, zpow_natCast]
      norm_cast
    have hTop : x ≤ ((2 ^ 53 : Int) : Rat) * (2 : Rat) ^ lastPlace x := by
      rw [hScale]
      exact hHigh.le.trans (zpow_le_zpow_right₀ one_le_two (by push_cast; omega))
    have hBottom : ((2 ^ 52 : Int) : Rat) * (2 : Rat) ^ lastPlace y ≤ y := by
      rw [hScale]
      exact (zpow_le_zpow_right₀ one_le_two (by push_cast; omega)).trans hLow'
    calc
      nearest x ≤ ((2 ^ 53 : Int) : Rat) * (2 : Rat) ^ lastPlace x := nearest_le hTop
      _ ≤ ((2 ^ 52 : Int) : Rat) * (2 : Rat) ^ lastPlace y := by
        rw [hScale, hScale]
        exact zpow_le_zpow_right₀ one_le_two (by push_cast; omega)
      _ ≤ nearest y := le_nearest hBottom
  · unfold nearest
    dsimp only
    rw [hSame]
    have hPlace := two_zpow_pos (lastPlace y)
    have hRound : roundHalfEven (x / 2 ^ lastPlace y) ≤ roundHalfEven (y / 2 ^ lastPlace y) :=
      roundHalfEven_mono (by gcongr)
    gcongr

/-- A whole multiple of its own last place is a double already. -/
theorem nearest_eq_self {x : Rat} {n : Int} (hMultiple : x = (n : Rat) * (2 : Rat) ^ lastPlace x) :
    nearest x = x := by
  apply le_antisymm
  · calc
      nearest x ≤ (n : Rat) * (2 : Rat) ^ lastPlace x := nearest_le hMultiple.le
      _ = x := hMultiple.symm
  · calc
      x = (n : Rat) * (2 : Rat) ^ lastPlace x := hMultiple
      _ ≤ nearest x := le_nearest hMultiple.ge

/-- Whole numbers are doubles as long as fifty-three digits hold them, and so is the first
one beyond. -/
theorem nearest_natCast {n : Nat} (hLe : n ≤ 2 ^ 53) : nearest n = n := by
  rcases Nat.eq_zero_or_pos n with rfl | hPos
  · simpa using nearest_zero
  have hTwo : (2 : Rat) ≠ 0 := by norm_num
  obtain ⟨e, hLow, hHigh, hPlace⟩ := lastPlace_eq (x := n) (by exact_mod_cast hPos)
  have hTop : (n : Rat) ≤ (2 : Rat) ^ (53 : Int) := by exact_mod_cast hLe
  have hExponent : e ≤ 53 := (zpow_le_zpow_iff_right₀ one_lt_two).mp (hLow.trans hTop)
  rcases hExponent.lt_or_eq with hLess | rfl
  · -- The last place is not above the units.
    have hUnits : lastPlace n ≤ 0 := by omega
    apply nearest_eq_self (n := n * 2 ^ (-lastPlace (n : Rat)).toNat)
    push_cast
    rw [mul_assoc, ← zpow_natCast, ← zpow_add₀ hTwo, Int.toNat_of_nonneg (by omega),
      neg_add_cancel, zpow_zero, mul_one]
  · -- Only the power of two itself is left, whose last place is that of the twos.
    have hValue : (n : Rat) = (2 : Rat) ^ (53 : Int) := le_antisymm hTop hLow
    apply nearest_eq_self (n := 2 ^ 52)
    rw [hPlace, hValue]
    norm_num

/-! ## The smallest double -/

/-- Nothing is rounded away that is at least as large as the smallest double. -/
theorem nearest_pos {x : Rat} (hSmallest : (2 : Rat) ^ (-1074 : Int) ≤ x) : 0 < nearest x := by
  have hPlace := two_zpow_pos (lastPlace x)
  obtain ⟨e, hLow, -, hMax⟩ := lastPlace_eq ((two_zpow_pos _).trans_le hSmallest)
  have hOne : ((1 : Int) : Rat) * (2 : Rat) ^ lastPlace x ≤ x := by
    rw [Int.cast_one, one_mul, hMax]
    rcases max_choice (-1074) (e - 52) with hLeft | hRight
    · rwa [hLeft]
    · rw [hRight]
      exact (zpow_le_zpow_right₀ one_le_two (by omega)).trans hLow
  exact (by simpa using hPlace : (0 : Rat) < _).trans_le (le_nearest hOne)

theorem Binary.smallest_le_exponent (bits : Nat) : -1074 ≤ (ofBits bits).exponent := by
  unfold ofBits
  dsimp only
  split
  case isTrue => exact le_rfl
  case isFalse hNormal =>
    dsimp only
    omega

/-- No positive double is smaller than the smallest one. -/
theorem smallest_le_of_rationalOf? {x : Float} {value : Rat} (hValue : rationalOf? x = some value)
    (hPos : 0 < value) : (2 : Rat) ^ (-1074 : Int) ≤ value := by
  unfold rationalOf? at hValue
  dsimp only at hValue
  split at hValue
  case isTrue => exact absurd hValue (by simp)
  case isFalse =>
    generalize x.toBits.toNat = bits at hValue
    obtain rfl := Option.some.inj hValue
    have hScale := two_zpow_pos (Binary.ofBits bits).exponent
    have hMagnitude : 0 ≤ (Binary.ofBits bits).value :=
      mul_nonneg (Nat.cast_nonneg _) hScale.le
    split at hPos
    case isFalse => exact absurd hPos (by linarith)
    case isTrue hSign =>
      rw [if_pos hSign]
      have hMantissa : 0 < (Binary.ofBits bits).mantissa := by
        rw [Binary.value, mul_pos_iff_of_pos_right hScale] at hPos
        exact_mod_cast hPos
      calc
        (2 : Rat) ^ (-1074 : Int) ≤ (2 : Rat) ^ (Binary.ofBits bits).exponent :=
          zpow_le_zpow_right₀ one_le_two (Binary.smallest_le_exponent bits)
        _ ≤ (Binary.ofBits bits).value := le_mul_of_one_le_left hScale.le (by exact_mod_cast hMantissa)

end BoundedPools.Decimal
