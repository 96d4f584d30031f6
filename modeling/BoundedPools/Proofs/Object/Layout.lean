import BoundedPools.Object.Layout
import BoundedPools.Proofs.Config.Violations
import BoundedPools.Proofs.Decimal.Rounding

/-!
# The layout of an object pool

Options that break no rule and ask for an object have a layout, and no others.  Its shards share
the objects out, rounded up.  Its watermarks are counted from fractions by steps that keep the
order: a product with the length of a list, rounding (`IsRounding`), and rounding up.  So the low
one never exceeds the high one, nor the high one the list, and a fraction counts for an object
however small it is.
-/

namespace BoundedPools.Object

open BoundedPools.Config (ObjectPoolOptions)
open BoundedPools.Decimal (rationalOf? nearest)

/-! ## Shares -/

section Shares

variable {a b c : Nat}

theorem ceilDiv_le_iff (hPos : 0 < b) : ceilDiv a b ≤ c ↔ a ≤ b * c := by
  rw [ceilDiv, Nat.div_le_iff_le_mul_add_pred hPos]
  omega

/-- The lists of a pool have room for as many objects as it was made for. -/
theorem le_mul_ceilDiv (a : Nat) {b : Nat} (hb : b ≠ 0) : a ≤ b * ceilDiv a b :=
  (ceilDiv_le_iff (Nat.pos_of_ne_zero hb)).mp le_rfl

/-- There is not a whole object to spare for every list. -/
theorem mul_ceilDiv_lt (a : Nat) (hPos : 0 < b) : b * ceilDiv a b < a + b := by
  have hProduct : b * ceilDiv a b ≤ a + (b - 1) := Nat.mul_div_le ..
  omega

theorem ceilDiv_eq_zero_iff (hPos : 0 < b) : ceilDiv a b = 0 ↔ a = 0 := by
  rw [← Nat.le_zero, ceilDiv_le_iff hPos, Nat.mul_zero, Nat.le_zero]

theorem ceilDiv_eq_ceil (a : Nat) (hPos : 0 < b) : ceilDiv a b = ⌈(a / b : Rat)⌉₊ := by
  refine eq_of_forall_ge_iff fun c => ?_
  rw [ceilDiv_le_iff hPos, Nat.ceil_le, div_le_iff₀ (by exact_mod_cast hPos), mul_comm]
  norm_cast

end Shares

/-! ## Counts -/

/-- A rounding that watermarks can be counted with: it keeps the order of numbers that are not
negative, leaves whole numbers up to two to the fifty-third as they are, and takes no positive
fraction of a list for nothing. -/
structure IsRounding (round : Rat → Rat) : Prop where
  mono : ∀ x y, 0 ≤ x → x ≤ y → round x ≤ round y
  whole : ∀ n : Nat, n ≤ 2 ^ 53 → round n = n
  positive : ∀ (x : Float) (fraction : Rat) (localSize : Nat), Config.isFraction x = true →
    rationalOf? x = some fraction → 0 < fraction → 0 < localSize → localSize ≤ 2 ^ 53 →
      0 < round (fraction * localSize)

/-- The arithmetic of doubles rounds in such a way. -/
theorem isRounding_nearest : IsRounding nearest where
  mono _ _ := Decimal.nearest_mono
  whole _ := Decimal.nearest_natCast
  positive x fraction localSize _ hFraction hPos hSize _ := by
    refine Decimal.nearest_pos ?_
    calc
      (2 : Rat) ^ (-1074 : Int) ≤ fraction := Decimal.smallest_le_of_rationalOf? hFraction hPos
      _ ≤ fraction * localSize := le_mul_of_one_le_right hPos.le (by exact_mod_cast hSize)

namespace IsRounding

variable {round : Rat → Rat} {fraction low high : Rat} {localSize : Nat}

theorem zero (hRound : IsRounding round) : round 0 = 0 := by
  simpa using hRound.whole 0 (Nat.zero_le _)

theorem nonneg (hRound : IsRounding round) {x : Rat} (hNonneg : 0 ≤ x) : 0 ≤ round x := by
  rw [← hRound.zero]
  exact hRound.mono 0 x le_rfl hNonneg

theorem watermarkBy_mono (hRound : IsRounding round) (hLow : 0 ≤ low) (hLe : low ≤ high)
    (localSize : Nat) : watermarkBy round low localSize ≤ watermarkBy round high localSize := by
  have hSize : 0 ≤ round localSize := hRound.nonneg (Nat.cast_nonneg localSize)
  have hProducts := hRound.mono _ _ (mul_nonneg hLow hSize) (mul_le_mul_of_nonneg_right hLe hSize)
  have hCeil : (round (low * round localSize)).ceil ≤ (round (high * round localSize)).ceil := by
    rw [Rat.ceil_le_iff]
    exact hProducts.trans (Rat.ceil_le_iff.mp le_rfl)
  exact min_le_min_right _ (Int.toNat_le_toNat hCeil)

/-- A fraction of a list is not longer than the list. -/
theorem watermarkBy_le (hRound : IsRounding round) (hExact : localSize ≤ 2 ^ 53)
    (hNonneg : 0 ≤ fraction) (hLe : fraction ≤ 1) :
    watermarkBy round fraction localSize ≤ localSize := by
  have hSize : (0 : Rat) ≤ localSize := Nat.cast_nonneg localSize
  have hWhole := hRound.whole localSize hExact
  have hProduct : round (fraction * round localSize) ≤ (localSize : Int) := by
    rw [hWhole]
    calc
      round (fraction * localSize) ≤ round localSize :=
        hRound.mono _ _ (mul_nonneg hNonneg hSize) (mul_le_of_le_one_left hSize hLe)
      _ = (localSize : Int) := by simpa using hWhole
  have hCeil := Rat.ceil_le_iff.mpr hProduct
  unfold watermarkBy
  omega

/-- A watermark counts an object exactly if its product is not rounded to nothing. -/
theorem watermarkBy_pos_iff (hRound : IsRounding round) (hExact : localSize ≤ 2 ^ 53) :
    0 < watermarkBy round fraction localSize ↔ 0 < round (fraction * localSize) := by
  have hCeil : 0 < (round (fraction * localSize)).ceil ↔ 0 < round (fraction * localSize) := by
    rw [← not_le, ← not_le, Rat.ceil_le_iff, Int.cast_zero]
  have hLargest : 0 < largestCount := by decide
  rw [watermarkBy, hRound.whole localSize hExact, ← hCeil]
  omega

end IsRounding

/-- The watermark count that options give to a fraction. -/
def watermarkOf (round : Rat → Rat) (fraction : Float) (localSize : Nat) : Nat :=
  watermarkBy round ((rationalOf? fraction).getD 0) localSize

/-- A fraction that is larger than zero counts for an object, however small it is. -/
theorem watermarkOf_pos_iff {round : Rat → Rat} {x : Float} {localSize : Nat}
    (hRound : IsRounding round) (hFraction : Config.isFraction x = true) (hSize : 0 < localSize)
    (hExact : localSize ≤ 2 ^ 53) :
    0 < watermarkOf round x localSize ↔ Config.exceeds x 0 = true := by
  obtain ⟨fraction, hValue, hNonneg, -⟩ := Config.isFraction_iff.mp hFraction
  have hZero : rationalOf? 0 = some 0 := by decide +kernel
  rw [watermarkOf, hValue, Option.getD_some, hRound.watermarkBy_pos_iff hExact,
    Config.exceeds_iff_lt hValue hZero]
  constructor
  · intro hPos
    refine hNonneg.lt_of_ne fun hNone => hPos.ne' ?_
    rw [← hNone, zero_mul, hRound.zero]
  · intro hPos
    exact hRound.positive x fraction localSize hFraction hValue hPos hSize hExact

/-! ## Layouts -/

variable {round : Rat → Rat} {cpus : Nat} {o : ObjectPoolOptions} {l : Layout}

/-- Options that break no rule have fractions for watermarks, in order. -/
theorem fractions_of_valid (hValid : o.violation = none) : ∃ low high : Rat,
    rationalOf? o.refillLow = some low ∧ rationalOf? o.refillHigh = some high ∧
      0 ≤ low ∧ low ≤ high ∧ high ≤ 1 := by
  obtain ⟨-, hLow, hHigh, hOrder⟩ := ObjectPoolOptions.violation_eq_none_iff.mp hValid
  obtain ⟨low, hLowValue, hNonneg, -⟩ := Config.isFraction_iff.mp hLow
  obtain ⟨high, hHighValue, -, hLe⟩ := Config.isFraction_iff.mp hHigh
  refine ⟨low, high, hLowValue, hHighValue, hNonneg, not_lt.mp fun hCrossed => ?_, hLe⟩
  rw [(Config.exceeds_iff_lt hLowValue hHighValue).mpr hCrossed] at hOrder
  exact absurd hOrder (by decide)

/-- Options that break no rule name some shards, or leave that to the processors. -/
theorem resolvedShards_pos (hCpus : 0 < cpus) (hValid : o.violation = none) :
    0 < o.resolvedShards cpus := by
  obtain ⟨hShards, -⟩ := ObjectPoolOptions.violation_eq_none_iff.mp hValid
  unfold ObjectPoolOptions.resolvedShards
  cases hSet : o.numShards with
  | none => exact hCpus
  | some n => exact Nat.pos_of_ne_zero fun hZero => hShards (hSet.trans (congrArg some hZero))

/-- Options that break no rule and make room for an object have a layout, and no others. -/
theorem layoutBy_eq_ok_iff : layoutBy round cpus o = .ok l ↔
    o.violation = none ∧ ceilDiv o.size (o.resolvedShards cpus) ≠ 0 ∧
      l = ⟨o.resolvedShards cpus, ceilDiv o.size (o.resolvedShards cpus),
        watermarkOf round o.refillLow (ceilDiv o.size (o.resolvedShards cpus)),
        watermarkOf round o.refillHigh (ceilDiv o.size (o.resolvedShards cpus))⟩ := by
  unfold layoutBy
  split
  case h_1 v hViolation => simp [hViolation]
  case h_2 hValid =>
    dsimp only
    split
    case isTrue hNone => simp [hNone]
    case isFalse hSome => simp [hValid, hSome, watermarkOf, eq_comm]

/-- Options only lack a layout for reasons of their own. -/
theorem blamesConfig_of_layout {e : PoolError} (hError : layoutBy round cpus o = .error e) :
    e.BlamesConfig := by
  unfold layoutBy at hError
  split at hError
  case h_1 v _ =>
    obtain rfl := Except.error.inj hError
    exact ⟨v.message, rfl⟩
  case h_2 =>
    simp only at hError
    split at hError
    case isTrue =>
      obtain rfl := Except.error.inj hError
      exact ⟨_, rfl⟩
    case isFalse => exact absurd hError (by simp)

/-- Options that break no rule lack a layout exactly if they want no objects. -/
theorem exists_layoutBy_iff (round : Rat → Rat) (hCpus : 0 < cpus) (hValid : o.violation = none) :
    (∃ l, layoutBy round cpus o = .ok l) ↔ o.size ≠ 0 := by
  simp [layoutBy_eq_ok_iff, hValid, ceilDiv_eq_zero_iff (resolvedShards_pos hCpus hValid)]

/-- A layout has shards. -/
theorem layout_numShards_ne_zero (hLayout : layoutBy round cpus o = .ok l) : l.numShards ≠ 0 := by
  obtain ⟨-, hSome, rfl⟩ := layoutBy_eq_ok_iff.mp hLayout
  intro hNone
  have hZero : o.resolvedShards cpus = 0 := hNone
  apply hSome
  rw [hZero, ceilDiv, Nat.div_zero]

/-- The low watermark does not exceed the high one. -/
theorem layoutBy_low_le_high (hRound : IsRounding round) (hLayout : layoutBy round cpus o = .ok l) :
    l.low ≤ l.high := by
  obtain ⟨hValid, -, rfl⟩ := layoutBy_eq_ok_iff.mp hLayout
  obtain ⟨low, high, hLow, hHigh, hNonneg, hOrder, -⟩ := fractions_of_valid hValid
  simp only [watermarkOf, hLow, hHigh, Option.getD_some]
  exact hRound.watermarkBy_mono hNonneg hOrder _

/-- The high watermark does not exceed the length of a list, as long as that is one of the
whole numbers that all are doubles. -/
theorem layoutBy_high_le_localSize (hRound : IsRounding round)
    (hLayout : layoutBy round cpus o = .ok l) (hExact : l.localSize ≤ 2 ^ 53) :
    l.high ≤ l.localSize := by
  obtain ⟨hValid, -, rfl⟩ := layoutBy_eq_ok_iff.mp hLayout
  obtain ⟨low, high, -, hHigh, hNonneg, hOrder, hLe⟩ := fractions_of_valid hValid
  simp only [watermarkOf, hHigh, Option.getD_some]
  exact hRound.watermarkBy_le hExact (hNonneg.trans hOrder) hLe

/-- A watermark counts for an object exactly if its fraction is larger than zero. -/
theorem layoutBy_marks_pos_iff (hRound : IsRounding round) (hLayout : layoutBy round cpus o = .ok l)
    (hExact : l.localSize ≤ 2 ^ 53) :
    (0 < l.low ↔ Config.exceeds o.refillLow 0 = true) ∧
      (0 < l.high ↔ Config.exceeds o.refillHigh 0 = true) := by
  obtain ⟨hValid, hSome, rfl⟩ := layoutBy_eq_ok_iff.mp hLayout
  obtain ⟨-, hLow, hHigh, -⟩ := ObjectPoolOptions.violation_eq_none_iff.mp hValid
  have hPos := Nat.pos_of_ne_zero hSome
  constructor
  · exact watermarkOf_pos_iff hRound hLow hPos hExact
  · exact watermarkOf_pos_iff hRound hHigh hPos hExact

/-- Options that break a rule or want no objects are refused, and no others. -/
theorem layoutBy_eq_error_iff (round : Rat → Rat) (hCpus : 0 < cpus) :
    (∃ reason, layoutBy round cpus o = .error (.invalidConfig reason)) ↔
      o.violation ≠ none ∨ o.size = 0 := by
  constructor
  · rintro ⟨reason, hError⟩
    by_contra hFine
    obtain ⟨hValid, hSize⟩ : o.violation = none ∧ o.size ≠ 0 := by simpa using hFine
    obtain ⟨l, hLayout⟩ := (exists_layoutBy_iff round hCpus hValid).mpr hSize
    rw [hError] at hLayout
    exact absurd hLayout (by simp)
  · intro hRefused
    cases hLayout : layoutBy round cpus o with
    | error e =>
        obtain ⟨reason, rfl⟩ := blamesConfig_of_layout hLayout
        exact ⟨reason, rfl⟩
    | ok l =>
        obtain ⟨hValid, -, -⟩ := layoutBy_eq_ok_iff.mp hLayout
        have hSize := (exists_layoutBy_iff round hCpus hValid).mp ⟨l, hLayout⟩
        rcases hRefused with hBroken | hNone
        · exact absurd hValid hBroken
        · exact absurd hNone hSize

/-- The lists of a layout share out the objects, rounded up. -/
theorem layoutBy_localSize (hCpus : 0 < cpus) (hLayout : layoutBy round cpus o = .ok l) :
    let n := o.resolvedShards cpus
    l.localSize = ⌈(o.size / n : Rat)⌉₊ ∧ 1 ≤ l.localSize ∧
      o.size ≤ n * l.localSize ∧ n * l.localSize < o.size + n := by
  intro n
  obtain ⟨hValid, hSome, rfl⟩ := layoutBy_eq_ok_iff.mp hLayout
  have hShards : 0 < n := resolvedShards_pos hCpus hValid
  exact ⟨ceilDiv_eq_ceil o.size hShards, Nat.pos_of_ne_zero hSome,
    le_mul_ceilDiv o.size hShards.ne', mul_ceilDiv_lt o.size hShards⟩

/-! ## In the arithmetic of doubles -/

theorem exists_layout_iff (hCpus : 0 < cpus) (hValid : o.violation = none) :
    (∃ l, layout cpus o = .ok l) ↔ o.size ≠ 0 :=
  exists_layoutBy_iff nearest hCpus hValid

theorem layout_low_le_high (hLayout : layout cpus o = .ok l) : l.low ≤ l.high :=
  layoutBy_low_le_high isRounding_nearest hLayout

theorem layout_high_le_localSize (hLayout : layout cpus o = .ok l) (hExact : l.localSize ≤ 2 ^ 53) :
    l.high ≤ l.localSize :=
  layoutBy_high_le_localSize isRounding_nearest hLayout hExact

/-- **A layout shares out the objects and counts its watermarks in order.**  Options that break no
rule and ask for an object have a layout, whatever the rounding: its lists have the size divided
by the number of shards, rounded up, so that they hold at least one object each, and together as
many as asked for and less than one for each shard in addition.  If products are rounded fittingly
and whole lists are among the numbers left as they are, the watermarks are in order and not above
the length of a list, and each of them is zero exactly if its fraction is, minus zero included.
The rounding of doubles is fitting.  Options that break a rule or ask for no object have no
layout, and the blame is put on the configuration. -/
theorem layout_in_proportion (hCpus : 0 < cpus) (o : ObjectPoolOptions) :
    let n := o.resolvedShards cpus
    (∀ round, o.violation = none → 1 ≤ o.size → ∃ l, layoutBy round cpus o = .ok l ∧
      l.numShards = n ∧ l.localSize = ⌈(o.size / n : Rat)⌉₊ ∧ 1 ≤ l.localSize ∧
      o.size ≤ n * l.localSize ∧ n * l.localSize < o.size + n ∧
      (IsRounding round → l.localSize ≤ 2 ^ 53 → l.low ≤ l.high ∧ l.high ≤ l.localSize ∧
        (0 < l.low ↔ Config.exceeds o.refillLow 0 = true) ∧
        (0 < l.high ↔ Config.exceeds o.refillHigh 0 = true))) ∧
    IsRounding nearest ∧
    (∀ round, o.violation ≠ none ∨ o.size = 0 →
      ∃ reason, layoutBy round cpus o = .error (.invalidConfig reason)) := by
  intro n
  refine ⟨fun round hValid hSize => ?_, isRounding_nearest,
    fun round hRefused => (layoutBy_eq_error_iff round hCpus).mpr hRefused⟩
  obtain ⟨l, hLayout⟩ := (exists_layoutBy_iff round hCpus hValid).mpr (by omega)
  obtain ⟨hCeil, hPos, hEnough, hSpare⟩ := layoutBy_localSize hCpus hLayout
  have hShards : l.numShards = n := by
    obtain ⟨-, -, rfl⟩ := layoutBy_eq_ok_iff.mp hLayout
    rfl
  refine ⟨l, hLayout, hShards, hCeil, hPos, hEnough, hSpare, fun hRound hExact => ?_⟩
  exact ⟨layoutBy_low_le_high hRound hLayout, layoutBy_high_le_localSize hRound hLayout hExact,
    layoutBy_marks_pos_iff hRound hLayout hExact⟩

/-- Ten objects on four shards, to be refilled below minus zero and up to the smallest fraction
there is: the low watermark counts for nothing and the high one for an object.  Without objects
the same options are refused. -/
theorem layout_in_proportion_of_smallest_fraction :
    let o : ObjectPoolOptions :=
      { size := 10, numShards := some 4, refillLow := -0.0, refillHigh := 5e-324 }
    o.violation = none ∧
    (∃ l, layout 2 o = .ok l ∧ l.numShards = 4 ∧ l.localSize = 3 ∧ l.low = 0 ∧
      1 ≤ l.high ∧ l.high ≤ 3) ∧
    (∃ reason, layout 2 { o with size := 0 } = .error (.invalidConfig reason)) := by
  intro o
  have hValid : o.violation = none := by decide +kernel
  have hLow : Config.exceeds o.refillLow 0 = false := by decide +kernel
  have hHigh : Config.exceeds o.refillHigh 0 = true := by decide +kernel
  obtain ⟨hLayout, hRound, -⟩ := @layout_in_proportion 2 (by decide) o
  obtain ⟨-, -, hRefused⟩ := @layout_in_proportion 2 (by decide) { o with size := 0 }
  obtain ⟨l, hOk, hShards, hLocal, -, -, -, hMarks⟩ := hLayout nearest hValid (by decide)
  have hThree : l.localSize = 3 := by
    rw [hLocal, Nat.ceil_eq_iff (by decide)]
    norm_num [o, ObjectPoolOptions.resolvedShards]
  obtain ⟨-, hTop, hLowPos, hHighPos⟩ := hMarks hRound (by omega)
  refine ⟨hValid, ⟨l, hOk, hShards, hThree, Nat.eq_zero_of_not_pos fun hPos => ?_,
    hHighPos.mpr hHigh, hThree ▸ hTop⟩, hRefused nearest (Or.inr rfl)⟩
  rw [hLowPos.mp hPos] at hLow
  exact absurd hLow (by decide)

end BoundedPools.Object
