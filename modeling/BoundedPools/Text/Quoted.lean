import BoundedPools.Text.Unshown

/-!
# Quoted text for messages

A text in a message stands between double quotes.  Double quotes and backslashes
get a backslash, four control characters have a letter or digit, and whatever is
not shown as it is gets its code in hexadecimal.  Bytes that belong to no
character are shown one by one.
-/

namespace BoundedPools.Text

def hexDigits (n : Nat) : List Char := Nat.toDigits 16 n

/-- A character named by its code. -/
def codeOf (c : Char) : List Char :=
  ['\\', 'u', '\x7b'] ++ hexDigits c.toNat ++ ['\x7d']

/-- A character as shown between double quotes. -/
def shown (c : Char) : List Char :=
  if c.toNat = 0 then ['\\', '0']
  else if c = '\t' then ['\\', 't']
  else if c = '\n' then ['\\', 'n']
  else if c = '\r' then ['\\', 'r']
  else if c = '"' then ['\\', '"']
  else if c = '\\' then ['\\', '\\']
  else if c.toNat < 32 || c.toNat == 127 then codeOf c
  else if c.toNat < 128 then [c]
  else if isUnshown c then codeOf c
  else [c]

/-- A text between double quotes. -/
def quoted (text : String) : String :=
  String.ofList ('"' :: text.toList.flatMap shown ++ ['"'])

/-- The character encoded at the head of a byte sequence, with the number of
its bytes: the shortest encoding, no surrogates, nothing beyond the last plane. -/
def headChar? : List Nat → Option (Char × Nat)
  | [] => none
  | a :: rest =>
    let tail (k : Nat) : Option (Nat × Nat) :=
      let t := rest.take k
      if t.length = k && t.all (fun b => 0x80 ≤ b && b < 0xC0) then
        some (t.foldl (fun v b => v * 64 + (b - 0x80)) 0, k + 1)
      else none
    let make (lead lowest : Nat) (t : Nat × Nat) : Option (Char × Nat) :=
      let v := lead * Nat.pow 64 (t.2 - 1) + t.1
      if lowest ≤ v ∧ v < 0x110000 ∧ ¬(0xD800 ≤ v ∧ v < 0xE000) then some (Char.ofNat v, t.2)
      else none
    if a < 0x80 then some (Char.ofNat a, 1)
    else if 0xC0 ≤ a ∧ a < 0xE0 then (tail 1).bind (make (a - 0xC0) 0x80)
    else if 0xE0 ≤ a ∧ a < 0xF0 then (tail 2).bind (make (a - 0xE0) 0x800)
    else if 0xF0 ≤ a ∧ a < 0xF8 then (tail 3).bind (make (a - 0xF0) 0x10000)
    else none

/-- The parts of a byte sequence: characters, and bytes that belong to none.
Every part takes a byte at least, so the length of the sequence is fuel enough. -/
def bytePartsFuel : Nat → List Nat → List (Char ⊕ Nat)
  | 0, _ => []
  | _ + 1, [] => []
  | fuel + 1, a :: rest =>
    match headChar? (a :: rest) with
    | some (c, count) => .inl c :: bytePartsFuel fuel ((a :: rest).drop count)
    | none => .inr a :: bytePartsFuel fuel rest

/-- The parts of a byte sequence: characters, and bytes that belong to none. -/
def byteParts (bytes : List Nat) : List (Char ⊕ Nat) :=
  bytePartsFuel bytes.length bytes

/-- The text that a byte sequence encodes, if all of it does. -/
def decodeBytes? (bytes : List Nat) : Option String :=
  ((byteParts bytes).mapM Sum.getLeft?).map String.ofList

/-- A byte in two upper-case hexadecimal digits. -/
def shownByte (b : Nat) : List Char :=
  let digit (d : Nat) : Char := if d < 10 then Char.ofNat (48 + d) else Char.ofNat (55 + d)
  ['\\', 'x', digit (b / 16 % 16), digit (b % 16)]

/-- A byte sequence between double quotes. -/
def quotedBytes (bytes : List Nat) : String :=
  String.ofList ('"' :: (byteParts bytes).flatMap (Sum.elim shown shownByte) ++ ['"'])

end BoundedPools.Text
