import BoundedPools.Random.Sampler

/-!
# Draws stay within the shards

A number below a bound really is: the carry that a second word may bring never reaches
the bound.  So every submission draws a shard that exists.
-/

namespace BoundedPools.Random

theorem Stream.wordAt_lt (s : Stream) (position : Nat) : s.wordAt position < 1 <<< 32 :=
  UInt32.toNat_lt _

/-- A number read below a bound is below it. -/
theorem Stream.below_lt (s : Stream) {bound : Nat} (hBound : 0 < bound) :
    (s.below bound).1 < bound := by
  have hWord := s.wordAt_lt s.position
  -- The first word leaves a gap of `bound` below the next multiple of two to the 32.
  have hProduct : s.wordAt s.position * bound + bound ≤ 1 <<< 32 * bound := by
    rw [← Nat.succ_mul]
    exact Nat.mul_le_mul_right bound hWord
  unfold below word
  simp only [Nat.reduceShiftLeft] at hProduct ⊢
  generalize s.wordAt s.position * bound = product at hProduct
  split
  case isTrue hOpen =>
    split
    · omega
    · dsimp only
      omega
  case isFalse =>
    dsimp only
    omega

namespace Sampler

/-- A sampler draws only shards that it has. -/
theorem shard_draw_lt {s : Sampler} (hShards : 0 < s.shards) : s.draw.1.shard < s.shards := by
  unfold draw
  dsimp only
  split
  · exact hShards
  · exact Stream.below_lt _ hShards

end Sampler

end BoundedPools.Random
