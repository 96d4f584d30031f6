/-!
# Metric keys

A metric is known by its name and the multiset of its tags.  The key renders
both as one text: the bare name without tags, otherwise the name followed by the
tags in braces, sorted by tag name and then by tag value, so that the order in
which tags were given never shows.
-/

namespace BoundedPools.Metrics

/-- A tag: its name and its value. -/
abbrev Tag := String × String

namespace Tag

/-- Tags are ordered by name, and by value between equal names.  Texts compare
by code point. -/
def le (a b : Tag) : Bool :=
  a.1 < b.1 || (a.1 == b.1 && a.2 ≤ b.2)

def render (tag : Tag) : String :=
  tag.1 ++ "=" ++ tag.2

end Tag

def sortTags (tags : List Tag) : List Tag :=
  tags.mergeSort Tag.le

/-- The key under which a metric is kept. -/
def metricKey (name : String) (tags : List Tag) : String :=
  if tags.isEmpty then name
  else name ++ "\x7b" ++ ",".intercalate ((sortTags tags).map Tag.render) ++ "\x7d"

@[simp] theorem metricKey_nil (name : String) : metricKey name [] = name := rfl

end BoundedPools.Metrics
