import BoundedPools.Proofs.Metrics.Tags
import Mathlib.Data.List.TakeWhile

/-!
# A key identifies a name and its tags

A key can be read back (`readKey_metricKey`).  The name ends at the first opening brace, commas
divide the tags, and the name of a tag ends at its first equals sign.  So where none of these
characters stands in a place in which it would be taken for a divider, two metrics share a key
only if they have one name and the same tags, each of them equally often.  Elsewhere they may
share one by accident; but the order of the tags never shows, whatever they are made of.
-/

namespace BoundedPools.Metrics

section Divider

variable {divider : Char} {head : List Char}

theorem bne_of_before (hHead : divider ∉ head) : ∀ c ∈ head, (c != divider) = true :=
  fun _ hMem => bne_iff_ne.mpr (ne_of_mem_of_not_mem hMem hHead)

theorem takeWhile_before (hHead : divider ∉ head) (rest : List Char) :
    (head ++ divider :: rest).takeWhile (· != divider) = head := by
  rw [List.takeWhile_append_of_pos (bne_of_before hHead), List.takeWhile_cons_of_neg (by simp),
    List.append_nil]

theorem dropWhile_before (hHead : divider ∉ head) (rest : List Char) :
    (head ++ divider :: rest).dropWhile (· != divider) = divider :: rest := by
  rw [List.dropWhile_append_of_pos (bne_of_before hHead), List.dropWhile_cons_of_neg (by simp)]

end Divider

namespace Tag

/-- A tag that can be read back from a key: no divider stands in its name, and none between
tags in its value. -/
structure Readable (tag : Tag) : Prop where
  comma_notMem_name : ',' ∉ tag.1.toList
  equals_notMem_name : '=' ∉ tag.1.toList
  comma_notMem_value : ',' ∉ tag.2.toList

instance (tag : Tag) : Decidable tag.Readable :=
  decidable_of_iff (',' ∉ tag.1.toList ∧ '=' ∉ tag.1.toList ∧ ',' ∉ tag.2.toList)
    ⟨fun ⟨hComma, hEquals, hValue⟩ => ⟨hComma, hEquals, hValue⟩,
      fun ⟨hComma, hEquals, hValue⟩ => ⟨hComma, hEquals, hValue⟩⟩

/-- The tag of a text.  Its value may hold equals signs, since the first one divides it. -/
def read (text : List Char) : Tag :=
  (.ofList (text.takeWhile (· != '=')), .ofList (text.dropWhile (· != '=')).tail)

variable {tag : Tag}

theorem toList_render (tag : Tag) : tag.render.toList = tag.1.toList ++ '=' :: tag.2.toList := by
  simp [render]

theorem Readable.comma_notMem_render (hReadable : tag.Readable) : ',' ∉ tag.render.toList := by
  simp [toList_render, hReadable.comma_notMem_name, hReadable.comma_notMem_value]

theorem Readable.read_render (hReadable : tag.Readable) : read tag.render.toList = tag := by
  have hName := hReadable.equals_notMem_name
  rw [read, toList_render, takeWhile_before hName, dropWhile_before hName, List.tail_cons,
    String.ofList_toList, String.ofList_toList]

end Tag

/-- The name and the tags of a key. -/
def readKey (key : List Char) : String × List Tag :=
  match key.dropWhile (· != '\x7b') with
  | [] => (.ofList key, [])
  | _ :: tags =>
    (.ofList (key.takeWhile (· != '\x7b')), (tags.dropLast.splitOn ',').map Tag.read)

variable {name : String} {tags : List Tag}

theorem toList_metricKey (name : String) (hSome : tags ≠ []) :
    (metricKey name tags).toList = name.toList ++ '\x7b' ::
      ([','].intercalate ((sortTags tags).map fun tag => tag.render.toList) ++ ['\x7d']) := by
  have hTagged : tags.isEmpty = false := by simpa using hSome
  simp [metricKey, hTagged, String.toList_intercalate, Function.comp_def]

/-- The tags between the braces are divided at the commas. -/
theorem map_read_splitOn (hSome : tags ≠ []) (hReadable : ∀ tag ∈ tags, tag.Readable) :
    (([','].intercalate (tags.map fun tag => tag.render.toList)).splitOn ',').map Tag.read =
      tags := by
  have hApart : ∀ text ∈ tags.map fun tag => tag.render.toList, ',' ∉ text :=
    List.forall_mem_map.mpr fun tag hMem => (hReadable tag hMem).comma_notMem_render
  rw [List.splitOn_intercalate ',' hApart (by simpa using hSome), List.map_map]
  calc
    tags.map (Tag.read ∘ fun tag => tag.render.toList) = tags.map id :=
      List.map_congr_left fun tag hMem => (hReadable tag hMem).read_render
    _ = tags := List.map_id tags

/-- A key tells its name and its tags, in their order. -/
theorem readKey_metricKey (hName : '\x7b' ∉ name.toList) (hReadable : ∀ tag ∈ tags, tag.Readable) :
    readKey (metricKey name tags).toList = (name, sortTags tags) := by
  by_cases hSome : tags = []
  · subst hSome
    have hPlain : name.toList.dropWhile (· != '\x7b') = [] :=
      List.dropWhile_eq_nil_iff.mpr (bne_of_before hName)
    simp [readKey, hPlain, sortTags]
  · have hSorted : sortTags tags ≠ [] := by
      intro hNone
      have hPerm := sortTags_perm tags
      rw [hNone] at hPerm
      exact hSome (List.perm_nil.mp hPerm.symm)
    have hReadable' : ∀ tag ∈ sortTags tags, tag.Readable := fun tag hMem =>
      hReadable tag ((sortTags_perm tags).mem_iff.mp hMem)
    rw [toList_metricKey name hSome, readKey, dropWhile_before hName, takeWhile_before hName]
    simp only [List.dropLast_concat, String.ofList_toList, map_read_splitOn hSorted hReadable']

/-- **A key identifies a name and its tags.**  If no name holds an opening brace and all tags are
readable, then two metrics have the same key exactly if they have the same name and the same tags,
in any order.  Whatever characters names and tags are made of, a change in the order of the tags
does not change the key. -/
theorem key_identifies_metric :
    (∀ (name name' : String) (tags tags' : List Tag),
      '\x7b' ∉ name.toList → '\x7b' ∉ name'.toList →
      (∀ tag ∈ tags, tag.Readable) → (∀ tag ∈ tags', tag.Readable) →
        (metricKey name tags = metricKey name' tags' ↔ name = name' ∧ tags'.Perm tags)) ∧
    (∀ (name : String) (tags tags' : List Tag), tags'.Perm tags →
      metricKey name tags' = metricKey name tags) := by
  refine ⟨fun name name' tags tags' hName hName' hReadable hReadable' => ⟨fun hKey => ?_, ?_⟩,
    fun name tags tags' hPerm => metricKey_eq_of_perm name hPerm⟩
  · have hRead : (name, sortTags tags) = (name', sortTags tags') := by
      rw [← readKey_metricKey hName hReadable, hKey, readKey_metricKey hName' hReadable']
    obtain ⟨hNames, hTags⟩ := Prod.mk.inj hRead
    exact ⟨hNames, (sortTags_eq_iff.mp hTags).symm⟩
  · rintro ⟨rfl, hPerm⟩
    exact metricKey_eq_of_perm name hPerm.symm

/-- A tag given twice, whose value holds an equals sign and a brace, beside one without a name and
a value: their order does not show, but how often they are given does, and so does whether there
are tags at all. -/
theorem key_tells_repeated_tag :
    let twice : List Tag := [("pool", "a=b\x7d"), ("", ""), ("pool", "a=b\x7d")]
    let swapped : List Tag := [("", ""), ("pool", "a=b\x7d"), ("pool", "a=b\x7d")]
    let once : List Tag := [("pool", "a=b\x7d"), ("", "")]
    metricKey "runs" twice = metricKey "runs" swapped ∧
      metricKey "runs" twice ≠ metricKey "runs" once ∧
      metricKey "runs" [("", "")] ≠ metricKey "runs" [] := by
  intro twice swapped once
  have hName : '\x7b' ∉ "runs".toList := by decide
  have hTwice : ∀ tag ∈ twice, tag.Readable := by decide
  have hSwapped : ∀ tag ∈ swapped, tag.Readable := by decide
  have hOnce : ∀ tag ∈ once, tag.Readable := by decide
  have hBare : ∀ tag ∈ ([("", "")] : List Tag), tag.Readable := by decide
  have hSame {tags tags' : List Tag} := key_identifies_metric.1 "runs" "runs" tags tags' hName hName
  refine ⟨(hSame hTwice hSwapped).mpr ⟨rfl, .swap ..⟩, fun hKey => ?_, fun hKey => ?_⟩
  · have hLength := ((hSame hTwice hOnce).mp hKey).2.length_eq
    exact absurd hLength (by decide)
  · have hLength := ((hSame hBare (by simp)).mp hKey).2.length_eq
    exact absurd hLength (by decide)

/-- A name with a brace can pass for one with a tag, and a value with a comma for two tags. -/
example : metricKey "runs\x7bpool=a\x7d" [] = metricKey "runs" [("pool", "a")] ∧
    metricKey "runs" [("pool", "a,shard=1")] = metricKey "runs" [("pool", "a"), ("shard", "1")] := by
  cbv

end BoundedPools.Metrics
