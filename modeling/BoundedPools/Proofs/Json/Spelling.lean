import BoundedPools.Decimal.Written
import BoundedPools.Json.Literal
import BoundedPools.Proofs.Json.Trees

/-!
# Spellings are texts

What a tree is spelled as is JSON for it: the digits of a natural, the pieces of a string with
its escapes, items and members with commas between them.  The trees that are read need not be
those that were spelled, as long as each part is a text for its own part: so a number may be
written in one way and read as another numeral of the same text.
-/

namespace BoundedPools.Json

open BoundedPools.Decimal (digitsOf)

/-! ## Naturals -/

theorem digitsOf_of_lt {n : Nat} (hLow : n < 10) : digitsOf n = [n] := by
  rw [digitsOf, Nat.toDigits_of_lt_base hLow]
  simp [Nat.toNat_digitChar_sub_48_of_lt_ten hLow]

theorem digitsOf_of_le {n : Nat} (hHigh : 10 ≤ n) : digitsOf n = digitsOf (n / 10) ++ [n % 10] := by
  rw [digitsOf, Nat.toDigits_of_base_le (by decide) hHigh, List.map_append]
  simp [digitsOf, Nat.toNat_digitChar_sub_48_of_lt_ten (Nat.mod_lt n (by decide : 0 < 10))]

/-- Induction over the digits of a number, the last one first. -/
@[elab_as_elim]
theorem digitsInduction {P : Nat → Prop} (n : Nat) (last : ∀ n < 10, P n)
    (more : ∀ n, 10 ≤ n → P (n / 10) → P n) : P n := by
  induction n using Nat.strongRecOn with
  | ind n ih =>
      by_cases hLow : n < 10
      · exact last n hLow
      · exact more n (by omega) (ih (n / 10) (by omega))

theorem digitsOf_ne_nil (n : Nat) : digitsOf n ≠ [] := by
  induction n using digitsInduction with
  | last n hLow => simp [digitsOf_of_lt hLow]
  | more n hHigh _ => simp [digitsOf_of_le hHigh]

theorem digitsText_digitsOf (n : Nat) : DigitsText (digitsOf n) ((digitsOf n).map digitChar) := by
  induction n using digitsInduction with
  | last n hLow =>
      rw [digitsOf_of_lt hLow]
      exact digitsText_cons.mpr ⟨digit?_digitChar n hLow, digitsText_nil⟩
  | more n hHigh ih =>
      rw [digitsOf_of_le hHigh, List.map_append]
      exact ih.snoc (digit?_digitChar _ (Nat.mod_lt n (by decide)))

/-- Only zero begins with a zero. -/
theorem head?_digitsOf {n : Nat} (hPositive : 0 < n) : (digitsOf n).head? ≠ some 0 := by
  induction n using digitsInduction with
  | last n hLow =>
      rw [digitsOf_of_lt hLow]
      simpa using Nat.ne_of_gt hPositive
  | more n hHigh ih =>
      rw [digitsOf_of_le hHigh, List.head?_append_of_ne_nil _ (digitsOf_ne_nil _)]
      exact ih (by omega)

theorem wholeText_digitsOf (n : Nat) : WholeText (digitsOf n) ((digitsOf n).map digitChar) where
  digits := digitsText_digitsOf n
  nonempty := digitsOf_ne_nil n
  lead hZero := by
    rcases Nat.eq_zero_or_pos n with rfl | hPositive
    · rfl
    · exact absurd hZero (head?_digitsOf hPositive)

/-- Digits that are all taken in leave the rest to be taken in. -/
theorem absorbDigits_append {value taken value' : Nat} {ds ds' : List Nat}
    (hAll : absorbDigits value taken ds = (value', taken + ds.length)) :
    absorbDigits value taken (ds ++ ds') = absorbDigits value' (taken + ds.length) ds' := by
  induction ds generalizing value taken with
  | nil =>
      obtain ⟨rfl, -⟩ := Prod.mk.inj hAll
      rfl
  | cons d ds ih =>
      rw [absorbDigits] at hAll
      rw [List.cons_append, absorbDigits]
      split at hAll
      case isTrue hFits =>
        rw [List.length_cons, Nat.add_comm ds.length 1, ← Nat.add_assoc] at hAll ⊢
        rw [if_pos hFits, ih hAll]
      case isFalse =>
        obtain ⟨-, hTaken⟩ := Prod.mk.inj hAll
        simp at hTaken

theorem absorbDigits_digitsOf {n : Nat} (hFits : n < 1 <<< 64) :
    absorbDigits 0 0 (digitsOf n) = (n, (digitsOf n).length) := by
  induction n using digitsInduction with
  | last n hLow =>
      have hBound : 0 * 10 + n < 1 <<< 64 := by omega
      rw [digitsOf_of_lt hLow, absorbDigits, if_pos hBound, absorbDigits]
      simp
  | more n hHigh ih =>
      -- The digits in front are all taken in, so there is room for the last one.
      have hBefore := ih (by omega)
      have hBound : n / 10 * 10 + n % 10 < 1 <<< 64 := by omega
      rw [digitsOf_of_le hHigh, absorbDigits_append (by rw [hBefore, Nat.zero_add])]
      rw [absorbDigits, if_pos hBound, absorbDigits, Nat.div_add_mod']
      simp

/-- The digits of a natural below `2 ^ 64` are a numeral for it. -/
theorem value?_digitsOf {n : Nat} (hFits : n < 1 <<< 64) :
    ({ whole := digitsOf n } : Numeral).value? = some (.natural n) := by
  simp [Numeral.value?, absorbDigits_digitsOf hFits]

/-! ## Strings -/

/-- The piece that a character is spelled by. -/
def pieceOf (c : Char) : Piece :=
  if c.toNat < 32 ∧ c ≠ '\n' ∧ c ≠ '\r' ∧ c ≠ '\t' ∧ c.toNat ≠ 8 ∧ c.toNat ≠ 12 then .unit c.toNat
  else .char c

theorem piecesOf_eq (text : String) : piecesOf text = text.toList.map pieceOf := rfl

theorem hexDigit?_hexChar : ∀ d < 16, hexDigit? (hexChar d) = some d := by decide

theorem pieceText_unit {u : Nat} (hFits : u < 65536) :
    PieceText (.unit u) (Piece.unit u).spell := by
  have hDigit (v : Nat) : hexDigit? (hexChar (v % 16)) = some (v % 16) :=
    hexDigit?_hexChar _ (Nat.mod_lt v (by decide))
  have hHex := (((HexText.nil.snoc (hDigit (u / 4096))).snoc (hDigit (u / 256))).snoc
    (hDigit (u / 16))).snoc (hDigit u)
  have hValue : 16 * (16 * (16 * (16 * 0 + u / 4096 % 16) + u / 256 % 16) + u / 16 % 16) +
      u % 16 = u := by omega
  rw [hValue] at hHex
  exact .unit hHex rfl

theorem pieceText_char {c : Char}
    (hLetter : c.toNat < 32 → c = '\n' ∨ c = '\r' ∨ c = '\t' ∨ c.toNat = 8 ∨ c.toNat = 12) :
    PieceText (.char c) (Piece.char c).spell := by
  rw [Piece.spell]
  split_ifs with hQuote hBackslash hFeed hReturn hTab hBack hPage
  · subst hQuote
    exact .short rfl
  · subst hBackslash
    exact .short rfl
  · subst hFeed
    exact .short rfl
  · subst hReturn
    exact .short rfl
  · subst hTab
    exact .short rfl
  · obtain rfl : Char.ofNat 8 = c := by rw [← hBack, Char.ofNat_toNat]
    exact .short rfl
  · obtain rfl : Char.ofNat 12 = c := by rw [← hPage, Char.ofNat_toNat]
    exact .short rfl
  · refine .plain hQuote hBackslash ?_
    by_contra hControl
    have hSome := hLetter (by omega)
    simp [hFeed, hReturn, hTab, hBack, hPage] at hSome

theorem pieceText_pieceOf (c : Char) : PieceText (pieceOf c) (pieceOf c).spell := by
  unfold pieceOf
  split
  case isTrue hControl => exact pieceText_unit (by omega)
  case isFalse hNot =>
    refine pieceText_char fun hLow => ?_
    by_contra hNone
    simp only [not_or] at hNone
    exact hNot ⟨hLow, hNone⟩

theorem piecesText_spell {pieces : List Piece} (hEach : ∀ p ∈ pieces, PieceText p p.spell) :
    PiecesText pieces (pieces.flatMap Piece.spell) := by
  induction pieces with
  | nil => exact .nil
  | cons p pieces ih =>
      obtain ⟨hFirst, hLater⟩ := List.forall_mem_cons.mp hEach
      exact .cons hFirst (ih hLater)

theorem lexeme_piecesOf (text : String) :
    Lexeme (.string (piecesOf text)) (spellString (piecesOf text)) := by
  refine .string (piecesText_spell fun p hMem => ?_)
  rw [piecesOf_eq] at hMem
  obtain ⟨c, -, rfl⟩ := List.mem_map.mp hMem
  exact pieceText_pieceOf c

/-- A unit that is no surrogate stands for its character, whatever follows it. -/
theorem decodePieces_unit {u : Nat} {rest : List Piece} (hPlain : u < 0xD800) :
    decodePieces (.unit u :: rest) = (decodePieces rest).map (Char.ofNat u :: ·) := by
  have hHigh : ¬(0xD800 ≤ u ∧ u < 0xDC00) := by omega
  have hLow : ¬(0xDC00 ≤ u ∧ u < 0xE000) := by omega
  have hNone : ¬(0xD800 ≤ u ∧ u < 0xE000) := by omega
  match rest with
  | [] => simp [decodePieces, hNone]
  | .char c :: rest => simp [decodePieces, hNone]
  | .unit low :: rest =>
      -- Of two units the reader asks first whether they are a pair.
      rw [decodePieces, if_neg hHigh, if_neg hLow]

theorem decodePieces_pieceOf (c : Char) (rest : List Piece) :
    decodePieces (pieceOf c :: rest) = (decodePieces rest).map (c :: ·) := by
  unfold pieceOf
  split
  case isTrue hControl => rw [decodePieces_unit (by omega), Char.ofNat_toNat]
  case isFalse => rw [decodePieces]

theorem decodeString_piecesOf (text : String) : decodeString (piecesOf text) = some text := by
  have hChars (chars : List Char) : decodePieces (chars.map pieceOf) = some chars := by
    induction chars with
    | nil => rfl
    | cons c chars ih => rw [List.map_cons, decodePieces_pieceOf, ih, Option.map_some]
  rw [decodeString, piecesOf_eq, hChars, Option.map_some, String.ofList_toList]

/-! ## Trees -/

namespace Node

theorem writes_null : Node.null.Writes Node.null.spell := ⟨rfl, Lexeme.null.spaced⟩

theorem writes_bool (b : Bool) : (Node.bool b).Writes (Node.bool b).spell := by
  cases b with
  | true => exact ⟨rfl, Lexeme.true.spaced⟩
  | false => exact ⟨rfl, Lexeme.false.spaced⟩

theorem writes_ofNat (n : Nat) : (ofNat n).Writes (ofNat n).spell := by
  refine ⟨rfl, Lexeme.spaced (.number ?_)⟩
  have hText : NumeralText { whole := digitsOf n } ([] ++ (digitsOf n).map digitChar ++ [] ++ []) :=
    .parts (wholeText_digitsOf n) .none .none
  exact hText

theorem writes_ofString (text : String) : (ofString text).Writes (ofString text).spell :=
  ⟨rfl, (lexeme_piecesOf text).spaced⟩

theorem spellItems_cons_cons (v w : Node) (rest : List Node) :
    spellItems (v :: w :: rest) = v.spell ++ ',' :: spellItems (w :: rest) := by
  simp [spellItems]

theorem spellMembers_cons_cons (m m' : Member) (rest : List Member) :
    spellMembers (m :: m' :: rest) =
      spellString m.1 ++ ':' :: m.2.spell ++ ',' :: spellMembers (m' :: rest) := by
  simp [spellMembers]

/-- Items are spelled one by one. -/
theorem writes_ofItems {read spelled : List Node}
    (hEach : List.Forall₂ (fun v w => v.Writes w.spell) read spelled) :
    (array read true).Writes (ofItems spelled).spell := by
  have hWhole : ∀ v ∈ read, v.isWhole = true := by
    induction hEach with
    | nil => exact fun v hMem => absurd hMem List.not_mem_nil
    | cons hFirst _ ih => exact List.forall_mem_cons.mpr ⟨hFirst.1, ih⟩
  have hItems : Spaced (tokensOfItems read) (spellItems spelled) := by
    clear hWhole
    induction hEach with
    | nil => exact .nil
    | cons hFirst hLater ih =>
        -- A comma follows on both sides or on neither.
        cases hLater with
        | nil => exact hFirst.2
        | cons =>
            rw [tokensOfItems_cons_cons, spellItems_cons_cons]
            exact hFirst.2.append (.token .comma ih)
  refine ⟨by simp [isWhole, areWhole_iff.mpr hWhole], ?_⟩
  show Spaced (.openBracket :: (tokensOfItems read ++ [.closeBracket]))
    (['['] ++ (spellItems spelled ++ [']']))
  exact .token .openBracket (hItems.append Lexeme.closeBracket.spaced)

/-- A member that is read off the spelling of a member. -/
def ReadOff (m : Member) (w : String × Node) : Prop :=
  m.1 = piecesOf w.1 ∧ m.2.Writes w.2.spell

theorem ReadOff.spaced {m : Member} {w : String × Node} (hRead : ReadOff m w) :
    Spaced (.string m.1 :: .colon :: m.2.tokens) (spellString (piecesOf w.1) ++ ':' :: w.2.spell) := by
  rw [hRead.1]
  exact .token (lexeme_piecesOf w.1) (.token .colon hRead.2.2)

/-- Members are spelled one by one. -/
theorem writes_ofMembers {read : List Member} {spelled : List (String × Node)}
    (hEach : List.Forall₂ ReadOff read spelled) :
    (object read true).Writes (ofMembers spelled).spell := by
  have hWhole : ∀ m ∈ read, m.2.isWhole = true := by
    induction hEach with
    | nil => exact fun m hMem => absurd hMem List.not_mem_nil
    | cons hFirst _ ih => exact List.forall_mem_cons.mpr ⟨hFirst.2.1, ih⟩
  have hMembers : Spaced (tokensOfMembers read)
      (spellMembers (spelled.map fun m => (piecesOf m.1, m.2))) := by
    clear hWhole
    induction hEach with
    | nil => exact .nil
    | cons hFirst hLater ih =>
        cases hLater with
        | nil => exact hFirst.spaced
        | cons =>
            rw [List.map_cons, List.map_cons, tokensOfMembers_cons_cons, spellMembers_cons_cons]
            exact hFirst.spaced.append (.token .comma ih)
  refine ⟨by simp [isWhole, areWholeMembers_iff.mpr hWhole], ?_⟩
  show Spaced (.openBrace :: (tokensOfMembers read ++ [.closeBrace]))
    (['\x7b'] ++ (spellMembers (spelled.map fun m => (piecesOf m.1, m.2)) ++ ['\x7d']))
  exact .token .openBrace (hMembers.append Lexeme.closeBrace.spaced)

end Node

end BoundedPools.Json
