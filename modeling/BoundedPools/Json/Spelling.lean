import BoundedPools.Json.Literal
import BoundedPools.Json.Node

/-!
# The compact spelling of a tree

A tree is spelled without blanks, members and items in their order.  Quotes,
backslashes and control characters are escaped, the six with a letter of their
own by that letter and the others by their unit; every other character stands
for itself.
-/

namespace BoundedPools.Json

def digitChar (d : Nat) : Char := Char.ofNat (48 + d)

/-- The character of a hexadecimal digit, in lower case. -/
def hexChar (d : Nat) : Char :=
  if d < 10 then Char.ofNat (48 + d) else Char.ofNat (87 + d)

def Piece.spell : Piece → List Char
  | .unit u =>
    ['\\', 'u', hexChar (u / 4096 % 16), hexChar (u / 256 % 16), hexChar (u / 16 % 16),
      hexChar (u % 16)]
  | .char c =>
    if c = '"' then ['\\', '"']
    else if c = '\\' then ['\\', '\\']
    else if c = '\n' then ['\\', 'n']
    else if c = '\r' then ['\\', 'r']
    else if c = '\t' then ['\\', 't']
    else if c.toNat = 8 then ['\\', 'b']
    else if c.toNat = 12 then ['\\', 'f']
    else [c]

/-- The pieces that spell a text: a control character without a letter of its
own is named by its unit. -/
def piecesOf (text : String) : List Piece :=
  text.toList.map fun c =>
    if c.toNat < 32 ∧ c ≠ '\n' ∧ c ≠ '\r' ∧ c ≠ '\t' ∧ c.toNat ≠ 8 ∧ c.toNat ≠ 12 then
      .unit c.toNat
    else .char c

def spellString (pieces : List Piece) : List Char :=
  '"' :: pieces.flatMap Piece.spell ++ ['"']

/-- The spelling of a numeral; a power of ten carries its sign. -/
def Numeral.spell (n : Numeral) : List Char :=
  (if n.negative then ['-'] else [])
    ++ n.whole.map digitChar
    ++ (match n.fraction with
      | none => []
      | some ds => '.' :: ds.map digitChar)
    ++ (match n.power with
      | none => []
      | some (negative, ds) => 'e' :: (if negative then '-' else '+') :: ds.map digitChar)

namespace Node

mutual

def spell : Node → List Char
  | null => "null".toList
  | bool true => "true".toList
  | bool false => "false".toList
  | number n => n.spell
  | string s => spellString s
  | array items _ => '[' :: spellItems items ++ [']']
  | object members _ => '\x7b' :: spellMembers members ++ ['\x7d']
  | broken => []

/-- The spelling of items, commas between them. -/
def spellItems : List Node → List Char
  | [] => []
  | [v] => v.spell
  | v :: rest => v.spell ++ ',' :: spellItems rest

/-- The spelling of members, commas between them. -/
def spellMembers : List (List Piece × Node) → List Char
  | [] => []
  | [(key, v)] => spellString key ++ ':' :: v.spell
  | (key, v) :: rest => spellString key ++ ':' :: v.spell ++ ',' :: spellMembers rest

end

def ofNat (n : Nat) : Node :=
  .number { whole := (Nat.toDigits 10 n).map fun c => c.toNat - 48 }

def ofString (text : String) : Node := .string (piecesOf text)

/-- A value that may be missing; what is missing is `null`. -/
def ofOption {β : Type} (f : β → Node) : Option β → Node
  | none => .null
  | some b => f b

def ofItems (items : List Node) : Node := .array items true

/-- An object with the given members, in their order. -/
def ofMembers (members : List (String × Node)) : Node :=
  .object (members.map fun m => (piecesOf m.1, m.2)) true

end Node

end BoundedPools.Json
