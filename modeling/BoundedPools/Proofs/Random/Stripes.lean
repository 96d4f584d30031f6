import BoundedPools.Random.Sampler
import Mathlib.Data.Int.CardIntervalMod
import Mathlib.Data.Nat.Prime.Basic

/-!
# Times spread over the streams

A time picks a stream by the high half of the word that it is multiplied to.  Multiplication by
an odd number only rearranges the words (`count_spread`), and every high half is that of equally
many words (`count_div`): so the streams share the times of a word as evenly as they share the
high halves.  Low bits that a coarse clock leaves at zero do no harm, as long as the words that
remain reach every high half (`exists_spread_eq`).
-/

namespace BoundedPools.Random

/-- The word that a time is multiplied to. -/
def spread (nanos : Nat) : Nat := nanos * 0x9E3779B97F4A7C15 % 2 ^ 64

theorem stripeIndex_eq (nanos stripes : Nat) :
    stripeIndex nanos stripes = spread nanos / 2 ^ 32 % stripes := by
  rw [stripeIndex, spread, Nat.shiftLeft_eq, Nat.shiftLeft_eq, Nat.one_mul, Nat.one_mul,
    Nat.mod_mul_mod]

theorem spread_lt (nanos : Nat) : spread nanos < 2 ^ 64 := Nat.mod_lt _ (by decide)

/-- Only the low word of a time counts. -/
theorem spread_mod (nanos : Nat) : spread (nanos % 2 ^ 64) = spread nanos :=
  Nat.mod_mul_mod ..

/-- Different words are multiplied to different words, since the factor is odd. -/
theorem spread_injOn : Set.InjOn spread (Finset.range (2 ^ 64)) := by
  intro a ha b hb hSame
  rw [Finset.coe_range, Set.mem_Iio] at ha hb
  have hCoprime : Nat.gcd (2 ^ 64) 0x9E3779B97F4A7C15 = 1 := by decide +kernel
  have hSame : a ≡ b [MOD 2 ^ 64] := Nat.ModEq.cancel_right_of_coprime hCoprime hSame
  rwa [Nat.ModEq, Nat.mod_eq_of_lt ha, Nat.mod_eq_of_lt hb] at hSame

theorem image_spread : (Finset.range (2 ^ 64)).image spread = Finset.range (2 ^ 64) := by
  refine Finset.eq_of_subset_of_card_le ?_ ?_
  · intro word hMem
    obtain ⟨nanos, -, rfl⟩ := Finset.mem_image.mp hMem
    exact Finset.mem_range.mpr (spread_lt nanos)
  · rw [Finset.card_image_of_injOn spread_injOn]

/-- As many times are multiplied to words of a kind as there are words of that kind. -/
theorem count_spread (p : Nat → Prop) [DecidablePred p] :
    Nat.count (fun nanos => p (spread nanos)) (2 ^ 64) = Nat.count p (2 ^ 64) := by
  rw [Nat.count_eq_card_filter_range, Nat.count_eq_card_filter_range]
  conv_rhs => rw [← image_spread, Finset.filter_image]
  refine (Finset.card_image_of_injOn fun a ha b hb hSame => spread_injOn ?_ ?_ hSame).symm
  · exact Finset.mem_coe.mpr (Finset.mem_filter.mp ha).1
  · exact Finset.mem_coe.mpr (Finset.mem_filter.mp hb).1

/-- Every quotient is that of as many numbers as the divisor says. -/
theorem count_div (p : Nat → Prop) [DecidablePred p] {divisor : Nat} (hDivisor : 0 < divisor)
    (quotients : Nat) : Nat.count (fun x => p (x / divisor)) (divisor * quotients) =
      divisor * Nat.count p quotients := by
  induction quotients with
  | zero => simp
  | succ q ih =>
      -- The numbers with the last quotient are all of one kind.
      have hQuotient : ∀ rest < divisor, (divisor * q + rest) / divisor = q := fun rest hRest => by
        rw [Nat.mul_add_div hDivisor, Nat.div_eq_of_lt hRest, Nat.add_zero]
      have hLast : Nat.count (fun rest => p ((divisor * q + rest) / divisor)) divisor =
          divisor * if p q then 1 else 0 := by
        by_cases hKind : p q
        · rw [if_pos hKind, Nat.mul_one, Nat.count_iff_forall]
          exact fun rest hRest => (hQuotient rest hRest).symm ▸ hKind
        · rw [if_neg hKind, Nat.mul_zero, Nat.count_iff_forall_not]
          exact fun rest hRest => (hQuotient rest hRest).symm ▸ hKind
      rw [Nat.mul_succ, Nat.count_add, ih, hLast, Nat.count_succ, Nat.mul_add]

/-- The remainders of the first numbers go round. -/
theorem count_mod {n r : Nat} (hRest : r < n) (bound : Nat) :
    Nat.count (fun m => m % n = r) bound = bound / n + if r < bound % n then 1 else 0 := by
  have hCount := Nat.count_modEq_card bound (Nat.zero_lt_of_lt hRest) r
  simpa only [Nat.ModEq, Nat.mod_eq_of_lt hRest] using hCount

/-- A stream is picked by as many times as there are low halves, for every high half that
belongs to it. -/
theorem count_stripeIndex (stripes r : Nat) :
    Nat.count (fun nanos => stripeIndex nanos stripes = r) (2 ^ 64) =
      2 ^ 32 * Nat.count (fun m => m % stripes = r) (2 ^ 32) := by
  have hHalves : 2 ^ 64 = 2 ^ 32 * 2 ^ 32 := by decide
  simp only [stripeIndex_eq]
  calc
    Nat.count (fun nanos => spread nanos / 2 ^ 32 % stripes = r) (2 ^ 64)
        = Nat.count (fun word => word / 2 ^ 32 % stripes = r) (2 ^ 64) :=
      count_spread fun word => word / 2 ^ 32 % stripes = r
    _ = Nat.count (fun word => word / 2 ^ 32 % stripes = r) (2 ^ 32 * 2 ^ 32) := by rw [hHalves]
    _ = 2 ^ 32 * Nat.count (fun m => m % stripes = r) (2 ^ 32) :=
      count_div (fun m => m % stripes = r) (Nat.two_pow_pos 32) (2 ^ 32)

/-- Multiples of a granularity reach every word with as many zeros at its low end. -/
theorem exists_spread_eq {k odd word : Nat} (hOdd : Odd odd) (hBits : k ≤ 64)
    (hWord : word < 2 ^ 64) (hZeros : 2 ^ k ∣ word) :
    ∃ ticks < 2 ^ (64 - k), spread (2 ^ k * odd * ticks) = word := by
  obtain ⟨part, rfl⟩ := hZeros
  have hSplit : 2 ^ 64 = 2 ^ k * 2 ^ (64 - k) := by rw [← Nat.pow_add, Nat.add_sub_cancel' hBits]
  have hFactor : Odd (odd * 0x9E3779B97F4A7C15) := Nat.odd_mul.mpr ⟨hOdd, by decide⟩
  have hCoprime : Nat.Coprime (odd * 0x9E3779B97F4A7C15) (2 ^ (64 - k)) :=
    (Nat.coprime_two_right.mpr hFactor).pow_right _
  obtain ⟨ticks, hTicks, hPart⟩ :=
    Nat.exists_mul_mod_eq_of_coprime part hCoprime (Nat.two_pow_pos _).ne'
  refine ⟨ticks, hTicks, ?_⟩
  calc
    spread (2 ^ k * odd * ticks)
        = 2 ^ k * (odd * 0x9E3779B97F4A7C15 * ticks) % (2 ^ k * 2 ^ (64 - k)) := by
      rw [spread, hSplit]
      congr 1
      ring
    _ = 2 ^ k * (part % 2 ^ (64 - k)) := by rw [Nat.mul_mod_mul_left, hPart]
    _ = 2 ^ k * part := by
      rw [← Nat.mul_mod_mul_left, ← hSplit, Nat.mod_eq_of_lt hWord]

/-- A clock of any granularity whose low zeros fit into the low half reaches every stream. -/
theorem exists_stripeIndex_eq {stripes k odd r : Nat} (hOdd : Odd odd) (hBits : k ≤ 32)
    (hStripes : stripes ≤ 2 ^ 32) (hStripe : r < stripes) :
    ∃ nanos < 2 ^ 64 * odd, 2 ^ k * odd ∣ nanos ∧ stripeIndex nanos stripes = r := by
  have hWord : 2 ^ 32 * r < 2 ^ 64 := by omega
  have hZeros : 2 ^ k ∣ 2 ^ 32 * r := (Nat.pow_dvd_pow 2 hBits).mul_right r
  obtain ⟨ticks, hTicks, hSpread⟩ := exists_spread_eq hOdd (by omega) hWord hZeros
  refine ⟨2 ^ k * odd * ticks, ?_, Nat.dvd_mul_right .., ?_⟩
  · calc
      2 ^ k * odd * ticks < 2 ^ k * odd * 2 ^ (64 - k) :=
        Nat.mul_lt_mul_of_pos_left hTicks (Nat.mul_pos (Nat.two_pow_pos k) hOdd.pos)
      _ = 2 ^ 64 * odd := by
        rw [Nat.mul_right_comm, ← Nat.pow_add, Nat.add_sub_cancel' (by omega)]
  · rw [stripeIndex_eq, hSpread, Nat.mul_div_cancel_left r (Nat.two_pow_pos 32),
      Nat.mod_eq_of_lt hStripe]

/-- **Times are spread evenly over the streams.**  Every time picks one of the streams, and only
its low word counts.  Among the times of one word, a stream is picked by two to the thirty-second
times as many as there are high halves that leave its number as a remainder, so that the shares
of any two streams differ by at most that many times.  A clock that only shows multiples of a
granularity picks every stream, if the granularity is an odd number with at most thirty-two
binary zeros behind it; and it does so below `2 ^ 64 * odd`, that is in times of two words if
the odd number fits into one. -/
theorem streams_evenly_picked {stripes : Nat} (hSome : 1 ≤ stripes) (hStripes : stripes ≤ 2 ^ 32) :
    (∀ nanos, stripeIndex nanos stripes < stripes) ∧
    (∀ nanos nanos', nanos % 2 ^ 64 = nanos' % 2 ^ 64 →
      stripeIndex nanos stripes = stripeIndex nanos' stripes) ∧
    (∀ r < stripes, Nat.count (fun nanos => stripeIndex nanos stripes = r) (2 ^ 64) =
      2 ^ 32 * Nat.count (fun m => m % stripes = r) (2 ^ 32)) ∧
    (∀ r < stripes, ∀ r' < stripes,
      Nat.count (fun nanos => stripeIndex nanos stripes = r) (2 ^ 64) ≤
        Nat.count (fun nanos => stripeIndex nanos stripes = r') (2 ^ 64) + 2 ^ 32) ∧
    (∀ k odd, k ≤ 32 → Odd odd → ∀ r < stripes,
      ∃ nanos < 2 ^ 64 * odd, 2 ^ k * odd ∣ nanos ∧ stripeIndex nanos stripes = r) ∧
    (∀ k odd, k ≤ 32 → Odd odd → odd < 2 ^ 64 → ∀ r < stripes,
      ∃ nanos < 2 ^ 128, 2 ^ k * odd ∣ nanos ∧ stripeIndex nanos stripes = r) := by
  refine ⟨fun nanos => ?_, fun nanos nanos' hWord => ?_, fun r _ => count_stripeIndex stripes r,
    fun r hStripe r' hStripe' => ?_,
    fun k odd hBits hOdd r hStripe => exists_stripeIndex_eq hOdd hBits hStripes hStripe,
    fun k odd hBits hOdd hWord r hStripe => ?_⟩
  · exact Nat.mod_lt _ hSome
  · rw [stripeIndex_eq, stripeIndex_eq, ← spread_mod nanos, hWord, spread_mod]
  · rw [count_stripeIndex, count_stripeIndex, count_mod hStripe, count_mod hStripe']
    split_ifs <;> omega
  · obtain ⟨nanos, hBelow, hMultiple, hPicked⟩ :=
      exists_stripeIndex_eq hOdd hBits hStripes hStripe
    have hBound : 2 ^ 64 * odd ≤ 2 ^ 64 * 2 ^ 64 := Nat.mul_le_mul_left _ hWord.le
    exact ⟨nanos, by omega, hMultiple, hPicked⟩

/-- Three streams share the times of a word as unevenly as can be: the first is picked by two to
the thirty-second times more than the others.  A clock of whole seconds picks each of them, and
a time that does not fit into a word picks as its low word does. -/
theorem three_streams_evenly_picked :
    let picks (r : Nat) := Nat.count (fun nanos => stripeIndex nanos 3 = r) (2 ^ 64)
    picks 0 = 2 ^ 32 * 1431655766 ∧ picks 1 = 2 ^ 32 * 1431655765 ∧ picks 0 ≤ picks 1 + 2 ^ 32 ∧
    stripeIndex (2 ^ 127 + 5) 3 = stripeIndex 5 3 ∧ stripeIndex 5 3 < 3 ∧
    (∀ r < 3, ∃ nanos < 2 ^ 128, 10 ^ 9 ∣ nanos ∧ stripeIndex nanos 3 = r) := by
  intro picks
  obtain ⟨hBelow, hLowWord, hShares, hEven, -, hCoarse⟩ :=
    @streams_evenly_picked 3 (by decide) (by decide)
  have hFirst : Nat.count (fun m => m % 3 = 0) (2 ^ 32) = 1431655766 := by
    rw [count_mod (by decide)]
    decide
  have hSecond : Nat.count (fun m => m % 3 = 1) (2 ^ 32) = 1431655765 := by
    rw [count_mod (by decide)]
    decide
  refine ⟨?_, ?_, hEven 0 (by decide) 1 (by decide), hLowWord _ _ (by decide), hBelow 5,
    ?_⟩
  · rw [← hFirst]
    exact hShares 0 (by decide)
  · rw [← hSecond]
    exact hShares 1 (by decide)
  · -- A second is 1953125 times two to the ninth nanoseconds.
    exact hCoarse 9 1953125 (by decide) (by decide) (by decide)

/-- A clock can be so coarse that it shows two times of two words only.  Its granularity is an
odd number with thirty-one zeros behind it, and it never picks the second of two streams. -/
theorem coarse_clock_misses_stream :
    Odd (2 ^ 96 + 1) ∧ ∀ nanos < 2 ^ 128, 2 ^ 31 * (2 ^ 96 + 1) ∣ nanos →
      stripeIndex nanos 2 ≠ 1 := by
  refine ⟨by decide, ?_⟩
  rintro _ hBound ⟨ticks, rfl⟩
  obtain rfl | rfl : ticks = 0 ∨ ticks = 1 := by omega
  · decide
  · decide

end BoundedPools.Random
