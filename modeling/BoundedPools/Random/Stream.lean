/-!
# A stream of random words

ChaCha with twelve rounds, a 64-bit block counter and no nonce, read as one
stream of 32-bit words.  A seed of 64 bits is stretched to the key by a small
generator of its own.  From the stream come whole numbers below a bound and
fractions of one.
-/

namespace BoundedPools.Random

abbrev Key := Array UInt32

/-- One step of the generator that stretches a seed. -/
def stretchStep (s : UInt64) : UInt64 × UInt32 :=
  let s' := s * 6364136223846793005 + 11634580027462260723
  let x := (((s' >>> 18) ^^^ s') >>> 27).toUInt32
  let turn := (s' >>> 59).toUInt32
  (s', (x >>> turn) ||| (x <<< ((32 - turn) % 32)))

/-- The first `count` words stretched from a seed. -/
def stretch : Nat → UInt64 → List UInt32
  | 0, _ => []
  | count + 1, s =>
    let (s', word) := stretchStep s
    word :: stretch count s'

def rotate (x : UInt32) (places : UInt32) : UInt32 :=
  (x <<< places) ||| (x >>> (32 - places))

/-- Mix four of the sixteen words of a block. -/
def quarterRound (block : Array UInt32) (a b c d : Nat) : Array UInt32 :=
  let w (k : Nat) : UInt32 := block.getD k 0
  let a₁ := w a + w b
  let d₁ := rotate (w d ^^^ a₁) 16
  let c₁ := w c + d₁
  let b₁ := rotate (w b ^^^ c₁) 12
  let a₂ := a₁ + b₁
  let d₂ := rotate (d₁ ^^^ a₂) 8
  let c₂ := c₁ + d₂
  let b₂ := rotate (b₁ ^^^ c₂) 7
  (((block.setIfInBounds a a₂).setIfInBounds b b₂).setIfInBounds c c₂).setIfInBounds d d₂

/-- Two rounds: the columns, then the diagonals. -/
def doubleRound (block : Array UInt32) : Array UInt32 :=
  [(0, 4, 8, 12), (1, 5, 9, 13), (2, 6, 10, 14), (3, 7, 11, 15),
    (0, 5, 10, 15), (1, 6, 11, 12), (2, 7, 8, 13), (3, 4, 9, 14)].foldl
    (fun block (a, b, c, d) => quarterRound block a b c d) block

/-- The block with a given number before it is mixed. -/
def seedBlock (key : Key) (number : Nat) : Array UInt32 :=
  #[0x61707865, 0x3320646e, 0x79622d32, 0x6b206574] ++ key ++
    #[UInt32.ofNat number, UInt32.ofNat (number / 0x100000000), 0, 0]

/-- The sixteen words of the block with a given number. -/
def blockWords (key : Key) (number : Nat) : Array UInt32 :=
  let start := seedBlock key number
  let mixed := (List.range 6).foldl (fun block _ => doubleRound block) start
  start.zipWith (· + ·) mixed

/-- A place in a stream. -/
structure Stream where
  key : Key
  /-- How many words have been read. -/
  position : Nat := 0
  deriving DecidableEq, Repr, Inhabited

namespace Stream

def ofSeed (seed : Nat) : Stream :=
  { key := (stretch 8 (UInt64.ofNat seed)).toArray }

def wordAt (s : Stream) (position : Nat) : Nat :=
  ((blockWords s.key (position / 16)).getD (position % 16) 0).toNat

/-- Read a word of 32 bits. -/
def word (s : Stream) : Nat × Stream :=
  (s.wordAt s.position, { s with position := s.position + 1 })

/-- Read a word of 64 bits, the low half first. -/
def wide (s : Stream) : Nat × Stream :=
  let (low, s) := s.word
  let (high, s) := s.word
  (high * (1 <<< 32) + low, s)

/-- Read a number below a bound of at most 32 bits.  The high half of a word
times the bound is the number; where the low half leaves it open, a second word
decides on the carry. -/
def below (s : Stream) (bound : Nat) : Nat × Stream :=
  let (x, s) := s.word
  let high := x * bound / (1 <<< 32)
  let low := x * bound % (1 <<< 32)
  if 1 <<< 32 - bound < low then
    let (y, s) := s.word
    (if 1 <<< 32 ≤ low + y * bound / (1 <<< 32) then high + 1 else high, s)
  else (high, s)

/-- Read a fraction of one, in units of two to the minus fifty-three. -/
def fraction (s : Stream) : Nat × Stream :=
  let (x, s) := s.wide
  (x / (1 <<< 11), s)

end Stream

end BoundedPools.Random
