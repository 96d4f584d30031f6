import BoundedPools.Metrics.Key
import Mathlib.Data.List.Sort
import Mathlib.Data.Prod.Lex
import Mathlib.Data.String.Basic

/-!
# Tags in their order

`Tag.le` is the order of pairs, and it is linear: tags that are equal in it are equal.  So
sorting leaves nothing of the order in which tags were given, also where they are given more
than once, and a key does not depend on that order.
-/

namespace BoundedPools.Metrics

namespace Tag

theorem le_iff {a b : Tag} : a.le b = true ↔ toLex a ≤ toLex b := by
  rw [Prod.Lex.toLex_le_toLex]
  simp [le]

theorem le_trans {a b c : Tag} (hFirst : a.le b = true) (hSecond : b.le c = true) :
    a.le c = true :=
  le_iff.mpr ((le_iff.mp hFirst).trans (le_iff.mp hSecond))

theorem le_total (a b : Tag) : (a.le b || b.le a) = true := by
  rw [Bool.or_eq_true, le_iff, le_iff]
  exact Std.le_total

theorem le_antisymm {a b : Tag} (hLe : a.le b = true) (hGe : b.le a = true) : a = b :=
  toLex.injective (Std.le_antisymm (le_iff.mp hLe) (le_iff.mp hGe))

end Tag

theorem sortTags_perm (tags : List Tag) : (sortTags tags).Perm tags :=
  List.mergeSort_perm tags Tag.le

theorem pairwise_sortTags (tags : List Tag) :
    (sortTags tags).Pairwise fun a b => a.le b = true := by
  have hTrans : ∀ a b c : Tag, a.le b = true → b.le c = true → a.le c = true :=
    fun _ _ _ => Tag.le_trans
  exact List.pairwise_mergeSort hTrans Tag.le_total tags

variable {tags tags' : List Tag}

/-- Sorting forgets the order in which tags were given, and nothing else. -/
theorem sortTags_eq_iff : sortTags tags = sortTags tags' ↔ tags.Perm tags' := by
  constructor
  · intro hSorted
    exact (sortTags_perm tags).symm.trans (hSorted ▸ sortTags_perm tags')
  · intro hPerm
    have hBoth := (sortTags_perm tags).trans (hPerm.trans (sortTags_perm tags').symm)
    exact hBoth.eq_of_pairwise (fun _ _ _ _ => Tag.le_antisymm) (pairwise_sortTags tags)
      (pairwise_sortTags tags')

/-- A key does not tell in which order its tags were given. -/
theorem metricKey_eq_of_perm (name : String) (hPerm : tags.Perm tags') :
    metricKey name tags = metricKey name tags' := by
  have hEmpty : tags.isEmpty = tags'.isEmpty := hPerm.isEmpty_eq
  rw [metricKey, metricKey, hEmpty, sortTags_eq_iff.mpr hPerm]

end BoundedPools.Metrics
