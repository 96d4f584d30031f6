/-!
# Tokens of a JSON text

Scanning turns characters into tokens, one character at a time, and stops at the
first character that no token can hold.  Strings keep their `\u` escapes as
sixteen-bit units and numbers keep their digits: whether a unit has its partner
and whether a number can be represented is decided only where the value is
wanted.  Space, tab, line feed and carriage return stand between tokens and are
forgotten.
-/

namespace BoundedPools.Json

/-- A piece of a string: a character, or the unit named by a `\u` escape. -/
inductive Piece
  | char (c : Char)
  | unit (u : Nat)
  deriving DecidableEq, Repr, Inhabited

/-- A number as written.  Digits are values from 0 to 9, most significant
first. -/
structure Numeral where
  negative : Bool := false
  whole : List Nat := []
  /-- The digits after the point, if there is one. -/
  fraction : Option (List Nat) := none
  /-- The power of ten, if one is given: whether it is negative, and its
  digits. -/
  power : Option (Bool × List Nat) := none
  deriving DecidableEq, Repr, Inhabited

/-- A token. -/
inductive Token
  | openBrace | closeBrace | openBracket | closeBracket | colon | comma
  | null | bool (b : Bool)
  | number (n : Numeral)
  | string (s : List Piece)
  /-- The place where no token can be read. -/
  | bad
  /-- A token in whose middle the text ends. -/
  | cut
  deriving DecidableEq, Repr, Inhabited

/-- Whether a token has been read. -/
def Token.isRead : Token → Bool
  | bad | cut => false
  | _ => true

/-- The characters that may stand between tokens. -/
def isBlank (c : Char) : Bool :=
  c == ' ' || c == '\t' || c == '\n' || c == '\r'

def digit? (c : Char) : Option Nat :=
  if '0' ≤ c ∧ c ≤ '9' then some (c.toNat - 48) else none

def hexDigit? (c : Char) : Option Nat :=
  if '0' ≤ c ∧ c ≤ '9' then some (c.toNat - 48)
  else if 'a' ≤ c ∧ c ≤ 'f' then some (c.toNat - 87)
  else if 'A' ≤ c ∧ c ≤ 'F' then some (c.toNat - 55)
  else none

/-- How far a number has been read. -/
inductive NumeralStage
  | sign
  /-- A leading zero: no digit may follow it. -/
  | zero
  | whole
  /-- The point: a digit must follow. -/
  | point
  | fraction
  | mark
  /-- The sign of the exponent: a digit must follow. -/
  | markSign
  | power
  deriving DecidableEq, Repr, Inhabited

/-- What a scanner is in the middle of. -/
inductive Scanner
  | ready
  /-- In a word; the characters that must follow, and the token it makes. -/
  | word (left : List Char) (token : Token)
  /-- In a string; its pieces, newest first. -/
  | text (pieces : List Piece)
  /-- After a backslash in a string. -/
  | escape (pieces : List Piece)
  /-- In a `\u` escape: digits still to come, and the value so far. -/
  | unit (pieces : List Piece) (left value : Nat)
  /-- In a number; digit lists newest first. -/
  | number (stage : NumeralStage) (partly : Numeral)
  deriving DecidableEq, Repr, Inhabited

namespace Numeral

/-- A numeral read so far, its digits put into reading order. -/
def complete (n : Numeral) : Numeral :=
  { n with
    whole := n.whole.reverse
    fraction := n.fraction.map List.reverse
    power := n.power.map fun p => (p.1, p.2.reverse) }

def pushWhole (n : Numeral) (d : Nat) : Numeral :=
  { n with whole := d :: n.whole }

def pushFraction (n : Numeral) (d : Nat) : Numeral :=
  { n with fraction := some (d :: n.fraction.getD []) }

def pushPower (n : Numeral) (d : Nat) : Numeral :=
  let p := n.power.getD (false, [])
  { n with power := some (p.1, d :: p.2) }

def signPower (n : Numeral) (negative : Bool) : Numeral :=
  { n with power := some (negative, []) }

end Numeral

/-- What a number does with a character: go on, end before it, or break. -/
inductive NumeralMove
  | more (stage : NumeralStage) (partly : Numeral)
  | ends
  | breaks
  deriving DecidableEq, Repr, Inhabited

/-- The move of a number on a character. -/
def NumeralStage.move (stage : NumeralStage) (n : Numeral) (c : Char) : NumeralMove :=
  let marked : NumeralMove :=
    if c == 'e' || c == 'E' then .more .mark (n.signPower false) else .ends
  let pointed : NumeralMove := if c == '.' then .more .point n else marked
  match stage, digit? c with
  | .sign, some d => .more (if d = 0 then .zero else .whole) (n.pushWhole d)
  | .sign, none => .breaks
  | .zero, some _ => .breaks
  | .zero, none => pointed
  | .whole, some d => .more .whole (n.pushWhole d)
  | .whole, none => pointed
  | .point, some d => .more .fraction (n.pushFraction d)
  | .point, none => .breaks
  | .fraction, some d => .more .fraction (n.pushFraction d)
  | .fraction, none => marked
  | .mark, some d => .more .power (n.pushPower d)
  | .mark, none =>
    if c == '+' then .more .markSign n
    else if c == '-' then .more .markSign (n.signPower true)
    else .breaks
  | .markSign, some d => .more .power (n.pushPower d)
  | .markSign, none => .breaks
  | .power, some d => .more .power (n.pushPower d)
  | .power, none => .ends

/-- Whether a number may end at this stage. -/
def NumeralStage.mayEnd : NumeralStage → Bool
  | .zero | .whole | .fraction | .power => true
  | .sign | .point | .mark | .markSign => false

/-- The character that a one-letter escape stands for. -/
def shortEscape? : Char → Option Char
  | '"' => some '"'
  | '\\' => some '\\'
  | '/' => some '/'
  | 'b' => some (Char.ofNat 8)
  | 'f' => some (Char.ofNat 12)
  | 'n' => some '\n'
  | 'r' => some '\r'
  | 't' => some '\t'
  | _ => none

namespace Scanner

/-- The character that begins a token, or stands between tokens: the token it
completes, if any, and where the scanner is then. -/
def start (c : Char) : Option (Option Token × Scanner) :=
  if isBlank c then some (none, ready)
  else match c with
  | '\x7b' => some (some .openBrace, ready)
  | '\x7d' => some (some .closeBrace, ready)
  | '[' => some (some .openBracket, ready)
  | ']' => some (some .closeBracket, ready)
  | ':' => some (some .colon, ready)
  | ',' => some (some .comma, ready)
  | 'n' => some (none, word ['u', 'l', 'l'] .null)
  | 't' => some (none, word ['r', 'u', 'e'] (.bool true))
  | 'f' => some (none, word ['a', 'l', 's', 'e'] (.bool false))
  | '"' => some (none, text [])
  | '-' => some (none, number .sign { negative := true })
  | _ => (digit? c).map fun d =>
    (none, number (if d = 0 then .zero else .whole) { whole := [d] })

/-- Read one character: the tokens completed by it and where the scanner is
then, or nothing if the character fits nowhere. -/
def step : Scanner → Char → Option (List Token × Scanner)
  | ready, c => (start c).map fun p => (p.1.toList, p.2)
  | word [] _, _ => none
  | word (want :: left) token, c =>
    if c = want then
      if left.isEmpty then some ([token], ready) else some ([], word left token)
    else none
  | text pieces, c =>
    if c = '"' then some ([.string pieces.reverse], ready)
    else if c = '\\' then some ([], escape pieces)
    else if c.toNat < 32 then none
    else some ([], text (.char c :: pieces))
  | escape pieces, c =>
    if c = 'u' then some ([], unit pieces 4 0)
    else (shortEscape? c).map fun e => ([], text (.char e :: pieces))
  | unit pieces left value, c =>
    (hexDigit? c).map fun d =>
      let value' := 16 * value + d
      if left ≤ 1 then ([], text (.unit value' :: pieces)) else ([], unit pieces (left - 1) value')
  | number stage n, c =>
    match stage.move n c with
    | .more stage' n' => some ([], number stage' n')
    | .ends => (start c).map fun p => (.number n.complete :: p.1.toList, p.2)
    | .breaks => none

/-- The tokens that the end of the text completes. -/
def finish : Scanner → List Token
  | ready => []
  | number stage n => if stage.mayEnd then [.number n.complete] else [.cut]
  | _ => [.cut]

/-- The token that is complete when a character fits nowhere: a number that
may end before it. -/
def abandon : Scanner → Char → List Token
  | number stage n, c => if stage.move n c = .ends then [.number n.complete] else []
  | _, _ => []

/-- The tokens of a text, from the middle of one on. -/
def run : Scanner → List Char → List Token
  | s, [] => s.finish
  | s, c :: rest =>
    match s.step c with
    | some (tokens, s') => tokens ++ run s' rest
    | none => s.abandon c ++ [.bad]

end Scanner

def tokens (text : List Char) : List Token :=
  Scanner.ready.run text

end BoundedPools.Json
