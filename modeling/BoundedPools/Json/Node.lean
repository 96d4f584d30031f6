import BoundedPools.Json.Token

/-!
# JSON trees

A text is read into a tree by a reader that takes one token at a time and keeps
the open arrays and objects on a stack.  Where the tokens stop making sense the
reader closes what is open and marks the place, so that whoever walks the tree in
text order meets every earlier part before the fault.
-/

namespace BoundedPools.Json

/-- A JSON value as far as it could be read. -/
inductive Node
  | null
  | bool (b : Bool)
  | number (n : Numeral)
  | string (s : List Piece)
  /-- An array; `closed` tells whether its end was seen. -/
  | array (items : List Node) (closed : Bool)
  /-- An object; `closed` tells whether its end was seen. -/
  | object (members : List (List Piece × Node)) (closed : Bool)
  /-- The place where a value should have begun. -/
  | broken
  deriving Inhabited

/-- A member of an object: its name and its value. -/
abbrev Member := List Piece × Node

namespace Node

mutual

def isWhole : Node → Bool
  | null | bool _ | number _ | string _ => true
  | array items closed => areWhole items && closed
  | object members closed => areWholeMembers members && closed
  | broken => false

def areWhole : List Node → Bool
  | [] => true
  | v :: rest => v.isWhole && areWhole rest

def areWholeMembers : List (List Piece × Node) → Bool
  | [] => true
  | (_, v) :: rest => v.isWhole && areWholeMembers rest

end

end Node

/-- An array or object whose item or member is being read.  What was read before
it stands newest first. -/
inductive Frame
  | item (before : List Node)
  | entry (before : List Member) (key : List Piece)
  deriving Inhabited

/-- What a reader is waiting for, inside the frames around it, innermost
first. -/
inductive Focus
  | value (around : List Frame)
  /-- The first item of an array, or its end. -/
  | firstItem (around : List Frame)
  /-- After an item: a comma or the end of the array. -/
  | afterItem (before : List Node) (around : List Frame)
  /-- The first key of an object, or its end. -/
  | firstKey (around : List Frame)
  /-- After a comma in an object: a key. -/
  | nextKey (before : List Member) (around : List Frame)
  /-- After a key: a colon. -/
  | colon (before : List Member) (key : List Piece) (around : List Frame)
  /-- After a member: a comma or the end of the object. -/
  | afterMember (before : List Member) (around : List Frame)
  /-- Nothing: the text is complete. -/
  | done (root : Node)
  deriving Inhabited

/-- The place of a value that has been read. -/
def Focus.place (v : Node) : List Frame → Focus
  | [] => .done v
  | .item before :: around => .afterItem (v :: before) around
  | .entry before key :: around => .afterMember ((key, v) :: before) around

/-- Begin a value with a token. -/
def Focus.begin (around : List Frame) : Token → Option Focus
  | .null => some (place .null around)
  | .bool b => some (place (.bool b) around)
  | .number n => some (place (.number n) around)
  | .string s => some (place (.string s) around)
  | .openBracket => some (.firstItem around)
  | .openBrace => some (.firstKey around)
  | _ => none

def Focus.step : Focus → Token → Option Focus
  | value around, t => begin around t
  | firstItem around, .closeBracket => some (place (.array [] true) around)
  | firstItem around, t => begin (.item [] :: around) t
  | afterItem before around, .comma => some (.value (.item before :: around))
  | afterItem before around, .closeBracket => some (place (.array before.reverse true) around)
  | firstKey around, .closeBrace => some (place (.object [] true) around)
  | firstKey around, .string key => some (.colon [] key around)
  | nextKey before around, .string key => some (.colon before key around)
  | colon before key around, .colon => some (.value (.entry before key :: around))
  | afterMember before around, .comma => some (.nextKey before around)
  | afterMember before around, .closeBrace => some (place (.object before.reverse true) around)
  | _, _ => none

/-- Close the frames around a value that could not be read to its end. -/
def closeAround (v : Node) : List Frame → Node
  | [] => v
  | .item before :: around => closeAround (.array (v :: before).reverse false) around
  | .entry before key :: around => closeAround (.object ((key, v) :: before).reverse false) around

/-- The tree as far as it was read when the tokens stopped making sense. -/
def Focus.abandon : Focus → Node
  | value around => closeAround .broken around
  | firstItem around => closeAround (.array [] false) around
  | afterItem before around => closeAround (.array before.reverse false) around
  | firstKey around => closeAround (.object [] false) around
  | nextKey before around => closeAround (.object before.reverse false) around
  | colon before key around => closeAround (.object ((key, .broken) :: before).reverse false) around
  | afterMember before around => closeAround (.object before.reverse false) around
  | done root => root

/-- Where a text ends, as its tree sees it. -/
inductive Ending
  /-- Where the tree does. -/
  | complete
  /-- Before the tree does. -/
  | early
  /-- Behind a token that does not fit. -/
  | misfit
  deriving DecidableEq, Repr, Inhabited

/-- The tree of a text, and where the text ends. -/
structure Document where
  root : Node
  ending : Ending
  deriving Inhabited

/-- Whether the text ends where the tree does. -/
def Document.ended (d : Document) : Bool := d.ending == .complete

def Focus.run : Focus → List Token → Document
  | done root, [] => ⟨root, .complete⟩
  | f, [] => ⟨f.abandon, .early⟩
  | f, t :: rest =>
    match f.step t with
    | some f' => f'.run rest
    | none => ⟨f.abandon, if t = .cut then .early else .misfit⟩

def Document.ofText (text : List Char) : Document :=
  (Focus.value []).run (tokens text)

end BoundedPools.Json
