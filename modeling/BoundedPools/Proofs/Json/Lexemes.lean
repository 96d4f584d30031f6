import BoundedPools.Json.Spelling

/-!
# The grammar of tokens

What the characters of each token are, as relations between a token and a text: digits with
no zero in front of others, a fraction and an exponent with a digit at least, the escapes of
strings.  `Spaced` is a text made of given tokens in their order, with blanks anywhere between
them.  Nothing here refers to the scanner.
-/

namespace BoundedPools.Json

/-! ## Numbers -/

theorem digit?_digitChar : ∀ d < 10, digit? (digitChar d) = some d := by decide

theorem digit?_eq_some_iff {c : Char} {d : Nat} :
    digit? c = some d ↔ d < 10 ∧ c = digitChar d := by
  constructor
  · intro hDigit
    have hRange : ('0' ≤ c ∧ c ≤ '9') ↔ 48 ≤ c.toNat ∧ c.toNat ≤ 57 := Iff.rfl
    simp only [digit?, hRange, Option.ite_none_right_eq_some, Option.some.injEq] at hDigit
    obtain ⟨⟨hLow, hHigh⟩, rfl⟩ := hDigit
    refine ⟨by omega, ?_⟩
    rw [digitChar, Nat.add_sub_cancel' hLow, Char.ofNat_toNat]
  · rintro ⟨hTen, rfl⟩
    exact digit?_digitChar d hTen

/-- Characters that are the given digits, one by one. -/
def DigitsText (ds : List Nat) (chars : List Char) : Prop := chars.map digit? = ds.map some

@[simp] theorem digitsText_nil : DigitsText [] [] := rfl

theorem digitsText_cons {d : Nat} {ds : List Nat} {c : Char} {chars : List Char} :
    DigitsText (d :: ds) (c :: chars) ↔ digit? c = some d ∧ DigitsText ds chars := by
  simp [DigitsText]

theorem DigitsText.exists_cons {d : Nat} {ds : List Nat} {chars : List Char}
    (hDigits : DigitsText (d :: ds) chars) :
    ∃ c rest, chars = c :: rest ∧ digit? c = some d ∧ DigitsText ds rest := by
  cases chars with
  | nil => simp [DigitsText] at hDigits
  | cons c rest => exact ⟨c, rest, rfl, digitsText_cons.mp hDigits⟩

theorem DigitsText.append {ds ds' : List Nat} {chars chars' : List Char}
    (hFirst : DigitsText ds chars) (hLater : DigitsText ds' chars') :
    DigitsText (ds ++ ds') (chars ++ chars') := by
  simp only [DigitsText, List.map_append] at hFirst hLater ⊢
  rw [hFirst, hLater]

theorem DigitsText.snoc {ds : List Nat} {chars : List Char} {c : Char} {d : Nat}
    (hDigits : DigitsText ds chars) (hDigit : digit? c = some d) :
    DigitsText (ds ++ [d]) (chars ++ [c]) :=
  hDigits.append (digitsText_cons.mpr ⟨hDigit, digitsText_nil⟩)

/-- The digits before the point.  A zero stands alone. -/
structure WholeText (ds : List Nat) (chars : List Char) : Prop where
  digits : DigitsText ds chars
  nonempty : ds ≠ []
  lead : ds.head? = some 0 → ds = [0]

/-- The point with the digits after it, if there is one. -/
inductive FractionText : Option (List Nat) → List Char → Prop
  | none : FractionText none []
  | some {ds : List Nat} {chars : List Char} (hDigits : DigitsText ds chars)
      (hNonempty : ds ≠ []) : FractionText (some ds) ('.' :: chars)

/-- The sign of an exponent: a plus may be left out. -/
inductive SignText : Bool → List Char → Prop
  | bare : SignText false []
  | plus : SignText false ['+']
  | minus : SignText true ['-']

/-- The exponent, if there is one. -/
inductive PowerText : Option (Bool × List Nat) → List Char → Prop
  | none : PowerText none []
  | some {mark : Char} {negative : Bool} {sign chars : List Char} {ds : List Nat}
      (hMark : mark = 'e' ∨ mark = 'E') (hSign : SignText negative sign)
      (hDigits : DigitsText ds chars) (hNonempty : ds ≠ []) :
      PowerText (some (negative, ds)) (mark :: (sign ++ chars))

def minusText (negative : Bool) : List Char := if negative then ['-'] else []

inductive NumeralText : Numeral → List Char → Prop
  | parts {negative : Bool} {whole : List Nat} {fraction : Option (List Nat)}
      {power : Option (Bool × List Nat)} {w f p : List Char} (hWhole : WholeText whole w)
      (hFraction : FractionText fraction f) (hPower : PowerText power p) :
      NumeralText { negative, whole, fraction, power } (minusText negative ++ w ++ f ++ p)

/-! ## Strings -/

/-- Hexadecimal digits with their value. -/
inductive HexText : List Char → Nat → Prop
  | nil : HexText [] 0
  | snoc {chars : List Char} {value d : Nat} {c : Char} (hBefore : HexText chars value)
      (hDigit : hexDigit? c = some d) : HexText (chars ++ [c]) (16 * value + d)

inductive PieceText : Piece → List Char → Prop
  | plain {c : Char} (hQuote : c ≠ '"') (hBackslash : c ≠ '\\') (hShown : 32 ≤ c.toNat) :
      PieceText (.char c) [c]
  | short {letter c : Char} (hEscape : shortEscape? letter = some c) :
      PieceText (.char c) ['\\', letter]
  | unit {hex : List Char} {u : Nat} (hHex : HexText hex u) (hLength : hex.length = 4) :
      PieceText (.unit u) ('\\' :: 'u' :: hex)

inductive PiecesText : List Piece → List Char → Prop
  | nil : PiecesText [] []
  | cons {p : Piece} {ps : List Piece} {chars rest : List Char} (hPiece : PieceText p chars)
      (hRest : PiecesText ps rest) : PiecesText (p :: ps) (chars ++ rest)

theorem PiecesText.snoc {ps : List Piece} {p : Piece} {chars last : List Char}
    (hPieces : PiecesText ps chars) (hPiece : PieceText p last) :
    PiecesText (ps ++ [p]) (chars ++ last) := by
  induction hPieces with
  | nil => simpa using PiecesText.cons hPiece .nil
  | cons hFirst _ ih =>
      rw [List.append_assoc]
      exact .cons hFirst ih

/-! ## Texts -/

/-- The characters of a token. -/
inductive Lexeme : Token → List Char → Prop
  | openBrace : Lexeme .openBrace ['\x7b']
  | closeBrace : Lexeme .closeBrace ['\x7d']
  | openBracket : Lexeme .openBracket ['[']
  | closeBracket : Lexeme .closeBracket [']']
  | colon : Lexeme .colon [':']
  | comma : Lexeme .comma [',']
  | null : Lexeme .null ['n', 'u', 'l', 'l']
  | true : Lexeme (.bool true) ['t', 'r', 'u', 'e']
  | false : Lexeme (.bool false) ['f', 'a', 'l', 's', 'e']
  | number {n : Numeral} {chars : List Char} (hNumeral : NumeralText n chars) :
      Lexeme (.number n) chars
  | string {pieces : List Piece} {chars : List Char} (hPieces : PiecesText pieces chars) :
      Lexeme (.string pieces) ('"' :: (chars ++ ['"']))

/-- A text made of the given tokens, with blanks anywhere between them. -/
inductive Spaced : List Token → List Char → Prop
  | nil : Spaced [] []
  | blank {ts : List Token} {text : List Char} {c : Char} (hBlank : isBlank c = true)
      (hRest : Spaced ts text) : Spaced ts (c :: text)
  | token {t : Token} {ts : List Token} {chars text : List Char} (hLexeme : Lexeme t chars)
      (hRest : Spaced ts text) : Spaced (t :: ts) (chars ++ text)

theorem Spaced.append {ts ts' : List Token} {text text' : List Char} (hFirst : Spaced ts text)
    (hLater : Spaced ts' text') : Spaced (ts ++ ts') (text ++ text') := by
  induction hFirst with
  | nil => exact hLater
  | blank hBlank _ ih => exact .blank hBlank ih
  | token hLexeme _ ih =>
      rw [List.append_assoc]
      exact .token hLexeme ih

theorem Lexeme.spaced {t : Token} {chars : List Char} (hLexeme : Lexeme t chars) :
    Spaced [t] chars := by
  simpa using Spaced.token hLexeme .nil

end BoundedPools.Json
