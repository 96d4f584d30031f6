import BoundedPools.Proofs.Json.Lexemes
import Mathlib.Data.List.Chain

/-!
# The scanner keeps to the grammar

The scanner is sound: as long as it finds no bad place, what it returns are the tokens of the
text.  The invariant `Scanner.Holds` says what the characters since the last complete token
are; `Numeral.Begun` says it of a number, stage by stage.  The scanner is complete for texts in
which every number ends before a blank, a comma or a closing bracket, which is where numbers
end in a tree.
-/

namespace BoundedPools.Json

/-! ## Numbers -/

/-- What the characters of a number are, when it has been read up to a stage. -/
inductive Numeral.Begun : NumeralStage → Numeral → List Char → Prop
  | sign : Begun .sign { negative := true } ['-']
  | zero {negative : Bool} {w : List Char} (hWhole : WholeText [0] w) :
      Begun .zero { negative, whole := [0] } (minusText negative ++ w)
  | whole {negative : Bool} {ds : List Nat} {w : List Char} (hDigits : DigitsText ds.reverse w)
      (hNonempty : ds ≠ []) (hLead : ds.reverse.head? ≠ some 0) :
      Begun .whole { negative, whole := ds } (minusText negative ++ w)
  | point {negative : Bool} {ds : List Nat} {w : List Char} (hWhole : WholeText ds.reverse w) :
      Begun .point { negative, whole := ds } (minusText negative ++ w ++ ['.'])
  | fraction {negative : Bool} {ds fs : List Nat} {w f : List Char}
      (hWhole : WholeText ds.reverse w) (hDigits : DigitsText fs.reverse f)
      (hNonempty : fs ≠ []) :
      Begun .fraction { negative, whole := ds, fraction := some fs }
        (minusText negative ++ w ++ '.' :: f)
  | mark {negative : Bool} {ds : List Nat} {fraction : Option (List Nat)} {w f : List Char}
      {mark : Char} (hWhole : WholeText ds.reverse w)
      (hFraction : FractionText (fraction.map List.reverse) f) (hMark : mark = 'e' ∨ mark = 'E') :
      Begun .mark { negative, whole := ds, fraction, power := some (false, []) }
        (minusText negative ++ w ++ f ++ [mark])
  | markSign {negative below : Bool} {ds : List Nat} {fraction : Option (List Nat)}
      {w f sign : List Char} {mark : Char} (hWhole : WholeText ds.reverse w)
      (hFraction : FractionText (fraction.map List.reverse) f) (hMark : mark = 'e' ∨ mark = 'E')
      (hSign : SignText below sign) :
      Begun .markSign { negative, whole := ds, fraction, power := some (below, []) }
        (minusText negative ++ w ++ f ++ mark :: sign)
  | power {negative below : Bool} {ds es : List Nat} {fraction : Option (List Nat)}
      {w f sign p : List Char} {mark : Char} (hWhole : WholeText ds.reverse w)
      (hFraction : FractionText (fraction.map List.reverse) f) (hMark : mark = 'e' ∨ mark = 'E')
      (hSign : SignText below sign) (hDigits : DigitsText es.reverse p) (hNonempty : es ≠ []) :
      Begun .power { negative, whole := ds, fraction, power := some (below, es) }
        (minusText negative ++ w ++ f ++ mark :: (sign ++ p))

namespace Numeral.Begun

variable {stage stage' : NumeralStage} {n n' : Numeral} {sofar : List Char} {c : Char}

/-- A number that may end is one. -/
theorem numeralText (hBegun : Begun stage n sofar) (hEnd : stage.mayEnd = true) :
    NumeralText n.complete sofar := by
  cases hBegun with
  | sign | point | mark | markSign => exact absurd hEnd (by simp [NumeralStage.mayEnd])
  | @zero negative w hWhole =>
      have hParts : NumeralText ({ negative, whole := [0] } : Numeral).complete
          (minusText negative ++ w ++ [] ++ []) := .parts hWhole .none .none
      simpa only [List.append_nil] using hParts
  | @whole negative ds w hDigits hNonempty hLead =>
      have hWhole : WholeText ds.reverse w :=
        ⟨hDigits, by simpa using hNonempty, fun hZero => absurd hZero hLead⟩
      have hParts : NumeralText ({ negative, whole := ds } : Numeral).complete
          (minusText negative ++ w ++ [] ++ []) := .parts hWhole .none .none
      simpa only [List.append_nil] using hParts
  | @fraction negative ds fs w f hWhole hDigits hNonempty =>
      have hParts : NumeralText ({ negative, whole := ds, fraction := some fs } : Numeral).complete
          (minusText negative ++ w ++ '.' :: f ++ []) :=
        .parts hWhole (.some hDigits (by simpa using hNonempty)) .none
      simpa only [List.append_nil] using hParts
  | power hWhole hFraction hMark hSign hDigits hNonempty =>
      exact .parts hWhole hFraction (.some hMark hSign hDigits (by simpa using hNonempty))

/-- A number begins with a minus sign or a digit. -/
theorem ofDigit {d : Nat} (negative : Bool) (hDigit : digit? c = some d) :
    Begun (if d = 0 then .zero else .whole) { negative, whole := [d] }
      (minusText negative ++ [c]) := by
  have hText : DigitsText [d] [c] := digitsText_cons.mpr ⟨hDigit, digitsText_nil⟩
  by_cases hZero : d = 0
  · subst hZero
    exact .zero ⟨hText, by simp, fun _ => rfl⟩
  · rw [if_neg hZero]
    exact .whole hText (by simp) (by simpa using hZero)

/-- After its last digit a number goes on with an exponent, if it goes on. -/
theorem mark_of_marked
    (hMove : (if c == 'e' || c == 'E' then NumeralMove.more .mark (n.signPower false)
      else .ends) = .more stage' n') :
    stage' = .mark ∧ n' = n.signPower false ∧ (c = 'e' ∨ c = 'E') := by
  split at hMove
  case isTrue hMark =>
    simp only [NumeralMove.more.injEq] at hMove
    exact ⟨hMove.1.symm, hMove.2.symm, by simpa using hMark⟩
  case isFalse => exact absurd hMove (by simp)

/-- After the digits before the point it may go on with the point, too. -/
theorem point_or_mark_of_pointed
    (hMove : (if c == '.' then NumeralMove.more .point n
      else if c == 'e' || c == 'E' then .more .mark (n.signPower false) else .ends) =
        .more stage' n') :
    (stage' = .point ∧ n' = n ∧ c = '.') ∨
      stage' = .mark ∧ n' = n.signPower false ∧ (c = 'e' ∨ c = 'E') := by
  split at hMove
  case isTrue hPoint =>
    simp only [NumeralMove.more.injEq] at hMove
    exact Or.inl ⟨hMove.1.symm, hMove.2.symm, by simpa using hPoint⟩
  case isFalse => exact Or.inr (mark_of_marked hMove)

/-- The digits before the point are followed by the point or by an exponent. -/
theorem of_pointed {negative : Bool} {ds : List Nat} {w : List Char}
    (hWhole : WholeText ds.reverse w)
    (hMove : (if c == '.' then NumeralMove.more .point { negative, whole := ds }
      else if c == 'e' || c == 'E' then
        .more .mark (signPower { negative, whole := ds } false) else .ends) = .more stage' n') :
    Begun stage' n' (minusText negative ++ w ++ [c]) := by
  rcases point_or_mark_of_pointed hMove with ⟨rfl, rfl, rfl⟩ | ⟨rfl, rfl, hMark⟩
  · exact .point hWhole
  · have hMarked : Begun .mark { negative, whole := ds, power := some (false, []) }
        (minusText negative ++ w ++ [] ++ [c]) := .mark hWhole .none hMark
    rw [List.append_nil] at hMarked
    exact hMarked

/-- A digit that a number takes in keeps to the grammar. -/
theorem more_of_digit (hBegun : Begun stage n sofar) {d : Nat} (hDigit : digit? c = some d)
    (hMove : stage.move n c = .more stage' n') : Begun stage' n' (sofar ++ [c]) := by
  have hSnoc {ds : List Nat} {chars : List Char} (hDigits : DigitsText ds.reverse chars) :
      DigitsText (d :: ds).reverse (chars ++ [c]) := by
    simpa using hDigits.snoc hDigit
  have hOne : DigitsText [d].reverse [c] := digitsText_cons.mpr ⟨hDigit, digitsText_nil⟩
  cases hBegun with
  | sign =>
      simp only [NumeralStage.move, hDigit, NumeralMove.more.injEq] at hMove
      obtain ⟨rfl, rfl⟩ := hMove
      exact ofDigit true hDigit
  | zero => simp [NumeralStage.move, hDigit] at hMove
  | @whole negative ds w hDigits hNonempty hLead =>
      simp only [NumeralStage.move, hDigit, NumeralMove.more.injEq] at hMove
      obtain ⟨rfl, rfl⟩ := hMove
      rw [List.append_assoc]
      refine .whole (hSnoc hDigits) (by simp) ?_
      cases hHead : ds.reverse.head? with
      | none => exact absurd hHead (by simpa using hNonempty)
      | some first => simpa [List.head?_append, hHead] using hLead
  | point hWhole =>
      simp only [NumeralStage.move, hDigit, NumeralMove.more.injEq] at hMove
      obtain ⟨rfl, rfl⟩ := hMove
      rw [List.append_assoc]
      exact .fraction hWhole hOne (by simp)
  | fraction hWhole hDigits hNonempty =>
      simp only [NumeralStage.move, hDigit, NumeralMove.more.injEq] at hMove
      obtain ⟨rfl, rfl⟩ := hMove
      rw [List.append_assoc, List.cons_append]
      exact .fraction hWhole (hSnoc hDigits) (by simp)
  | mark hWhole hFraction hMark =>
      simp only [NumeralStage.move, hDigit, NumeralMove.more.injEq] at hMove
      obtain ⟨rfl, rfl⟩ := hMove
      rw [List.append_assoc]
      exact .power hWhole hFraction hMark .bare hOne (by simp)
  | markSign hWhole hFraction hMark hSign =>
      simp only [NumeralStage.move, hDigit, NumeralMove.more.injEq] at hMove
      obtain ⟨rfl, rfl⟩ := hMove
      rw [List.append_assoc, List.cons_append]
      exact .power hWhole hFraction hMark hSign hOne (by simp)
  | @power negative below ds es fraction w f sign p mark hWhole hFraction hMark hSign hDigits =>
      simp only [NumeralStage.move, hDigit, NumeralMove.more.injEq] at hMove
      obtain ⟨rfl, rfl⟩ := hMove
      rw [List.append_assoc, List.cons_append, List.append_assoc sign]
      exact .power hWhole hFraction hMark hSign (hSnoc hDigits) (by simp)

/-- So does the point, the mark of an exponent or its sign. -/
theorem more_of_mark (hBegun : Begun stage n sofar) (hDigit : digit? c = none)
    (hMove : stage.move n c = .more stage' n') : Begun stage' n' (sofar ++ [c]) := by
  cases hBegun with
  | sign | point | markSign | power => simp [NumeralStage.move, hDigit] at hMove
  | zero hWhole =>
      simp only [NumeralStage.move, hDigit] at hMove
      exact of_pointed (show WholeText [0].reverse _ from hWhole) hMove
  | whole hDigits hNonempty hLead =>
      simp only [NumeralStage.move, hDigit] at hMove
      exact of_pointed ⟨hDigits, by simpa using hNonempty, fun hZero => absurd hZero hLead⟩ hMove
  | fraction hWhole hDigits hNonempty =>
      simp only [NumeralStage.move, hDigit] at hMove
      obtain ⟨rfl, rfl, hMark⟩ := mark_of_marked hMove
      exact .mark hWhole (.some hDigits (by simpa using hNonempty)) hMark
  | mark hWhole hFraction hMark =>
      simp only [NumeralStage.move, hDigit] at hMove
      rw [List.append_assoc]
      split at hMove
      case isTrue hPlus =>
        obtain rfl : c = '+' := by simpa using hPlus
        simp only [NumeralMove.more.injEq] at hMove
        obtain ⟨rfl, rfl⟩ := hMove
        exact .markSign hWhole hFraction hMark .plus
      case isFalse =>
        split at hMove
        case isTrue hMinus =>
          obtain rfl : c = '-' := by simpa using hMinus
          simp only [NumeralMove.more.injEq] at hMove
          obtain ⟨rfl, rfl⟩ := hMove
          exact .markSign hWhole hFraction hMark .minus
        case isFalse => exact absurd hMove (by simp)

/-- Reading on keeps to the grammar. -/
theorem more (hBegun : Begun stage n sofar) (hMove : stage.move n c = .more stage' n') :
    Begun stage' n' (sofar ++ [c]) := by
  cases hDigit : digit? c with
  | some d => exact hBegun.more_of_digit hDigit hMove
  | none => exact hBegun.more_of_mark hDigit hMove

end Numeral.Begun

theorem NumeralStage.mayEnd_of_ends {stage : NumeralStage} {n : Numeral} {c : Char}
    (hMove : stage.move n c = .ends) : stage.mayEnd = true := by
  cases stage with
  | zero | whole | fraction | power => rfl
  | sign | point | markSign => cases hDigit : digit? c <;> simp [move, hDigit] at hMove
  | mark =>
      cases hDigit : digit? c with
      | some d => simp [move, hDigit] at hMove
      | none =>
          simp only [move, hDigit] at hMove
          split at hMove
          case isTrue => exact absurd hMove (by simp)
          case isFalse => split at hMove <;> exact absurd hMove (by simp)

/-! ## Soundness -/

namespace Scanner

/-- What the characters since the last complete token are. -/
inductive Holds : Scanner → List Char → Prop
  | ready : Holds .ready []
  | word {left sofar : List Char} {t : Token} (hWord : Lexeme t (sofar ++ left)) :
      Holds (.word left t) sofar
  | text {pieces : List Piece} {chars : List Char} (hPieces : PiecesText pieces.reverse chars) :
      Holds (.text pieces) ('"' :: chars)
  | escape {pieces : List Piece} {chars : List Char} (hPieces : PiecesText pieces.reverse chars) :
      Holds (.escape pieces) ('"' :: chars ++ ['\\'])
  | unit {pieces : List Piece} {chars hex : List Char} {left value : Nat}
      (hPieces : PiecesText pieces.reverse chars) (hHex : HexText hex value)
      (hLength : hex.length + left = 4) (hLeft : left ≠ 0) :
      Holds (.unit pieces left value) ('"' :: chars ++ '\\' :: 'u' :: hex)
  | number {stage : NumeralStage} {n : Numeral} {sofar : List Char}
      (hBegun : Numeral.Begun stage n sofar) : Holds (.number stage n) sofar

variable {s s' : Scanner} {c : Char} {sofar text : List Char} {ts ts' : List Token}

/-- A first character is read according to the grammar, whatever comes after it. -/
theorem start_sound {done : Option Token} (hStart : start c = some (done, s'))
    (hLater : ∀ sofar, s'.Holds sofar → Spaced ts (sofar ++ text)) :
    Spaced (done.toList ++ ts) (c :: text) := by
  unfold start at hStart
  split at hStart
  case isTrue hBlank =>
    obtain ⟨rfl, rfl⟩ := Prod.mk.inj (Option.some.inj hStart)
    exact .blank hBlank (hLater [] .ready)
  case isFalse =>
    split at hStart
    case h_12 =>
      obtain ⟨d, hDigit, hSame⟩ := Option.map_eq_some_iff.mp hStart
      obtain ⟨rfl, rfl⟩ := Prod.mk.inj hSame
      exact hLater [c] (.number (.ofDigit false hDigit))
    all_goals obtain ⟨rfl, rfl⟩ := Prod.mk.inj (Option.some.inj hStart)
    case h_1 => exact .token .openBrace (hLater [] .ready)
    case h_2 => exact .token .closeBrace (hLater [] .ready)
    case h_3 => exact .token .openBracket (hLater [] .ready)
    case h_4 => exact .token .closeBracket (hLater [] .ready)
    case h_5 => exact .token .colon (hLater [] .ready)
    case h_6 => exact .token .comma (hLater [] .ready)
    case h_7 => exact hLater ['n'] (.word .null)
    case h_8 => exact hLater ['t'] (.word .true)
    case h_9 => exact hLater ['f'] (.word .false)
    case h_10 => exact hLater ['"'] (.text .nil)
    case h_11 => exact hLater ['-'] (.number .sign)

/-! The character that goes with a token begun, and what then comes after it. -/

section Steps

variable {pieces : List Piece} {chars hex left : List Char} {t : Token} {value missing : Nat}

theorem append_cons_eq (sofar : List Char) (c : Char) (text : List Char) :
    sofar ++ c :: text = sofar ++ [c] ++ text := by
  simp

theorem step_sound_word (hWord : Lexeme t (sofar ++ left))
    (hStep : (word left t).step c = some (ts', s'))
    (hLater : ∀ sofar', s'.Holds sofar' → Spaced ts (sofar' ++ text)) :
    Spaced (ts' ++ ts) (sofar ++ c :: text) := by
  cases left with
  | nil => simp [step] at hStep
  | cons want left =>
      simp only [step] at hStep
      split at hStep
      case isFalse => exact absurd hStep (by simp)
      case isTrue hSame =>
        subst hSame
        rw [append_cons_eq]
        split at hStep
        case isTrue hEmpty =>
          obtain ⟨rfl, rfl⟩ := Prod.mk.inj (Option.some.inj hStep)
          rw [List.isEmpty_iff.mp hEmpty] at hWord
          exact .token hWord (hLater [] .ready)
        case isFalse =>
          obtain ⟨rfl, rfl⟩ := Prod.mk.inj (Option.some.inj hStep)
          exact hLater _ (.word (by simpa using hWord))

theorem step_sound_text (hPieces : PiecesText pieces.reverse chars)
    (hStep : (Scanner.text pieces).step c = some (ts', s'))
    (hLater : ∀ sofar', s'.Holds sofar' → Spaced ts (sofar' ++ text)) :
    Spaced (ts' ++ ts) ('"' :: chars ++ c :: text) := by
  simp only [step] at hStep
  rw [append_cons_eq]
  split at hStep
  case isTrue hQuote =>
    obtain ⟨rfl, rfl⟩ := Prod.mk.inj (Option.some.inj hStep)
    subst hQuote
    exact .token (.string hPieces) (hLater [] .ready)
  case isFalse hQuote =>
    split at hStep
    case isTrue hBackslash =>
      obtain ⟨rfl, rfl⟩ := Prod.mk.inj (Option.some.inj hStep)
      subst hBackslash
      exact hLater _ (.escape hPieces)
    case isFalse hBackslash =>
      split at hStep
      case isTrue => exact absurd hStep (by simp)
      case isFalse hShown =>
        obtain ⟨rfl, rfl⟩ := Prod.mk.inj (Option.some.inj hStep)
        refine hLater _ (.text ?_)
        rw [List.reverse_cons]
        exact hPieces.snoc (.plain hQuote hBackslash (Nat.le_of_not_lt hShown))

theorem step_sound_escape (hPieces : PiecesText pieces.reverse chars)
    (hStep : (escape pieces).step c = some (ts', s'))
    (hLater : ∀ sofar', s'.Holds sofar' → Spaced ts (sofar' ++ text)) :
    Spaced (ts' ++ ts) ('"' :: chars ++ ['\\'] ++ c :: text) := by
  simp only [step] at hStep
  split at hStep
  case isTrue hUnit =>
    obtain ⟨rfl, rfl⟩ := Prod.mk.inj (Option.some.inj hStep)
    subst hUnit
    simpa using hLater _ (.unit hPieces .nil rfl (by simp))
  case isFalse =>
    simp only [Option.map_eq_some_iff] at hStep
    obtain ⟨e, hEscape, hSame⟩ := hStep
    obtain ⟨rfl, rfl⟩ := Prod.mk.inj hSame
    have hMore : PiecesText (Piece.char e :: pieces).reverse (chars ++ ['\\', c]) := by
      rw [List.reverse_cons]
      exact hPieces.snoc (.short hEscape)
    simpa using hLater _ (.text hMore)

theorem step_sound_unit (hPieces : PiecesText pieces.reverse chars) (hHex : HexText hex value)
    (hLength : hex.length + missing = 4) (hMissing : missing ≠ 0)
    (hStep : (unit pieces missing value).step c = some (ts', s'))
    (hLater : ∀ sofar', s'.Holds sofar' → Spaced ts (sofar' ++ text)) :
    Spaced (ts' ++ ts) ('"' :: chars ++ '\\' :: 'u' :: hex ++ c :: text) := by
  simp only [step, Option.map_eq_some_iff] at hStep
  obtain ⟨d, hDigit, hSame⟩ := hStep
  have hHex' := hHex.snoc hDigit
  split at hSame
  case isTrue hLast =>
    obtain ⟨rfl, rfl⟩ := Prod.mk.inj hSame
    have hFour : (hex ++ [c]).length = 4 := by
      rw [List.length_append, List.length_singleton]
      omega
    have hMore : PiecesText (Piece.unit (16 * value + d) :: pieces).reverse
        (chars ++ '\\' :: 'u' :: (hex ++ [c])) := by
      rw [List.reverse_cons]
      exact hPieces.snoc (.unit hHex' hFour)
    simpa using hLater _ (.text hMore)
  case isFalse hNotLast =>
    obtain ⟨rfl, rfl⟩ := Prod.mk.inj hSame
    have hFour : (hex ++ [c]).length + (missing - 1) = 4 := by
      rw [List.length_append, List.length_singleton]
      omega
    simpa using hLater _ (.unit hPieces hHex' hFour (by omega))

theorem step_sound_number {stage : NumeralStage} {n : Numeral}
    (hBegun : Numeral.Begun stage n sofar) (hStep : (number stage n).step c = some (ts', s'))
    (hLater : ∀ sofar', s'.Holds sofar' → Spaced ts (sofar' ++ text)) :
    Spaced (ts' ++ ts) (sofar ++ c :: text) := by
  simp only [step] at hStep
  split at hStep
  case h_1 stage' n' hMove =>
    obtain ⟨rfl, rfl⟩ := Prod.mk.inj (Option.some.inj hStep)
    rw [append_cons_eq]
    exact hLater _ (.number (hBegun.more hMove))
  case h_2 hMove =>
    simp only [Option.map_eq_some_iff] at hStep
    obtain ⟨⟨done, s₁⟩, hStart, hSame⟩ := hStep
    obtain ⟨rfl, rfl⟩ := Prod.mk.inj hSame
    have hNumeral := hBegun.numeralText (NumeralStage.mayEnd_of_ends hMove)
    exact .token (.number hNumeral) (start_sound hStart hLater)
  case h_3 => exact absurd hStep (by simp)

end Steps

/-- Any character is read according to the grammar, after the characters of a token begun. -/
theorem step_sound (hHolds : s.Holds sofar) (hStep : s.step c = some (ts', s'))
    (hLater : ∀ sofar', s'.Holds sofar' → Spaced ts (sofar' ++ text)) :
    Spaced (ts' ++ ts) (sofar ++ c :: text) := by
  cases hHolds with
  | ready =>
      simp only [step, Option.map_eq_some_iff] at hStep
      obtain ⟨⟨done, s₁⟩, hStart, hSame⟩ := hStep
      obtain ⟨rfl, rfl⟩ := Prod.mk.inj hSame
      exact start_sound hStart hLater
  | word hWord => exact step_sound_word hWord hStep hLater
  | text hPieces => exact step_sound_text hPieces hStep hLater
  | escape hPieces => exact step_sound_escape hPieces hStep hLater
  | unit hPieces hHex hLength hLeft => exact step_sound_unit hPieces hHex hLength hLeft hStep hLater
  | number hBegun => exact step_sound_number hBegun hStep hLater

/-- At the end of a text the scanner completes a number or is in the middle of a token. -/
theorem finish_sound (hHolds : s.Holds sofar) (hGood : ∀ t ∈ s.finish, t.isRead = true) :
    Spaced s.finish sofar := by
  cases hHolds with
  | ready => exact .nil
  | @number stage n sofar hBegun =>
      cases hEnd : stage.mayEnd with
      | true => simpa [finish, hEnd] using (Lexeme.number (hBegun.numeralText hEnd)).spaced
      | false => exact absurd hGood (by simp [finish, hEnd, Token.isRead])
  | word | text | escape | unit => exact absurd hGood (by simp [finish, Token.isRead])

/-- Tokens that have all been read are the tokens of the text. -/
theorem run_sound (hHolds : s.Holds sofar) (hGood : ∀ t ∈ s.run text, t.isRead = true) :
    Spaced (s.run text) (sofar ++ text) := by
  induction text generalizing s sofar with
  | nil =>
      rw [List.append_nil]
      exact finish_sound hHolds hGood
  | cons c text ih =>
      unfold run at hGood ⊢
      cases hStep : s.step c with
      | none => exact absurd (hGood .bad (by simp [hStep])) (by simp [Token.isRead])
      | some next =>
          obtain ⟨ts, s'⟩ := next
          simp only [hStep] at hGood
          obtain ⟨-, hLater⟩ := List.forall_mem_append.mp hGood
          exact step_sound hHolds hStep fun sofar' hHolds' => ih hHolds' hLater

end Scanner

/-! ## Completeness -/

/-- A text that no number reaches into: it is empty, or begins with a blank, a comma or a
closing bracket. -/
def EndsNumber (text : List Char) : Prop :=
  ∀ c ∈ text.head?, isBlank c = true ∨ c = ',' ∨ c = ']' ∨ c = '\x7d'

namespace Scanner

variable {stage stage' : NumeralStage} {n n' : Numeral} {c : Char} {text : List Char}

theorem run_more (hMove : stage.move n c = .more stage' n') :
    (number stage n).run (c :: text) = (number stage' n').run text := by
  simp [run, step, hMove]

theorem run_start {s : Scanner} {done : Option Token} (hStart : start c = some (done, s)) :
    ready.run (c :: text) = done.toList ++ s.run text := by
  simp [run, step, hStart]

/-- A number is complete before such a text. -/
theorem run_number_end (hEnd : stage.mayEnd = true) (hText : EndsNumber text) :
    (number stage n).run text = .number n.complete :: ready.run text := by
  cases text with
  | nil => simp [run, finish, hEnd]
  | cons c text =>
      have hBreak := hText c rfl
      simp only [isBlank, Bool.or_eq_true, beq_iff_eq] at hBreak
      -- Seven characters at four stages.
      have hMove : stage.move n c = .ends ∧ (start c).isSome = true := by
        rcases hBreak with (((rfl | rfl) | rfl) | rfl) | rfl | rfl | rfl <;>
          cases stage <;> first | exact ⟨rfl, rfl⟩ | exact absurd hEnd (by decide)
      obtain ⟨⟨done, s⟩, hStart⟩ := Option.isSome_iff_exists.mp hMove.2
      rw [run_start hStart]
      simp [run, step, hMove.1, hStart]

/-- A stage that takes in digits takes in any number of them. -/
theorem run_digits {push : Numeral → Nat → Numeral} {ds : List Nat} {chars : List Char}
    (hMove : ∀ n c d, digit? c = some d → stage.move n c = .more stage (push n d))
    (hDigits : DigitsText ds chars) :
    (number stage n).run (chars ++ text) = (number stage (ds.foldl push n)).run text := by
  induction ds generalizing chars n with
  | nil =>
      obtain rfl : chars = [] := by simpa [DigitsText] using hDigits
      rfl
  | cons d ds ih =>
      obtain ⟨c, chars, rfl, hDigit, hRest⟩ := hDigits.exists_cons
      rw [List.cons_append, run_more (hMove n c d hDigit), ih hRest, List.foldl_cons]

theorem foldl_pushWhole (n : Numeral) (ds : List Nat) :
    ds.foldl Numeral.pushWhole n = { n with whole := ds.reverse ++ n.whole } := by
  induction ds generalizing n with
  | nil => rfl
  | cons d ds ih => simp [ih, Numeral.pushWhole]

theorem foldl_pushFraction {negative : Bool} {whole fs : List Nat}
    {power : Option (Bool × List Nat)} (ds : List Nat) :
    ds.foldl Numeral.pushFraction { negative, whole, fraction := some fs, power } =
      { negative, whole, fraction := some (ds.reverse ++ fs), power } := by
  induction ds generalizing fs with
  | nil => rfl
  | cons d ds ih =>
      rw [List.foldl_cons, List.reverse_cons, List.append_assoc]
      exact ih

theorem foldl_pushPower {negative below : Bool} {whole es : List Nat}
    {fraction : Option (List Nat)} (ds : List Nat) :
    ds.foldl Numeral.pushPower { negative, whole, fraction, power := some (below, es) } =
      { negative, whole, fraction, power := some (below, ds.reverse ++ es) } := by
  induction ds generalizing es with
  | nil => rfl
  | cons d ds ih =>
      rw [List.foldl_cons, List.reverse_cons, List.append_assoc]
      exact ih

/-- The stage of a number after its first digit. -/
def firstStage (d : Nat) : NumeralStage := if d = 0 then .zero else .whole

theorem start_digitChar : ∀ d < 10,
    start (digitChar d) = some (none, number (firstStage d) { whole := [d] }) := by
  decide

/-- The digits before the point. -/
theorem run_whole (negative : Bool) {ds : List Nat} {chars : List Char}
    (hWhole : WholeText ds chars) : ∃ stage, (stage = .zero ∨ stage = .whole) ∧
      ∀ text, ready.run (minusText negative ++ chars ++ text) =
        (number stage { negative, whole := ds.reverse }).run text := by
  obtain ⟨hDigits, hNonempty, hLead⟩ := hWhole
  obtain ⟨d, ds, rfl⟩ := List.exists_cons_of_ne_nil hNonempty
  obtain ⟨c, chars, rfl, hDigit, hRest⟩ := hDigits.exists_cons
  have hFirst (text : List Char) : ready.run (minusText negative ++ c :: chars ++ text) =
      (number (firstStage d) { negative, whole := [d] }).run (chars ++ text) := by
    cases negative with
    | false =>
        obtain ⟨hTen, rfl⟩ := digit?_eq_some_iff.mp hDigit
        exact run_start (start_digitChar d hTen)
    | true =>
        have hMove : NumeralStage.sign.move { negative := true } c =
            .more (firstStage d) { negative := true, whole := [d] } := by
          simp [NumeralStage.move, hDigit, Numeral.pushWhole, firstStage]
        have hMinus : start '-' = some (none, number .sign { negative := true }) := rfl
        exact (run_start hMinus).trans (run_more hMove)
  refine ⟨firstStage d, ?_, fun text => ?_⟩
  · unfold firstStage
    split <;> simp
  · rw [hFirst]
    by_cases hZero : d = 0
    · subst hZero
      obtain rfl : ds = [] := by simpa using hLead rfl
      obtain rfl : chars = [] := by simpa [DigitsText] using hRest
      rfl
    · have hMove : ∀ n c d, digit? c = some d →
          NumeralStage.whole.move n c = .more .whole (n.pushWhole d) := by
        intro n c d hDigit
        simp [NumeralStage.move, hDigit]
      rw [firstStage, if_neg hZero, run_digits hMove hRest, foldl_pushWhole, List.reverse_cons]

/-- The fraction, if there is one. -/
theorem run_fraction {negative : Bool} {ds : List Nat} {fraction : Option (List Nat)}
    {chars : List Char} (hStage : stage = .zero ∨ stage = .whole)
    (hFraction : FractionText fraction chars) :
    ∃ stage', (stage' = .zero ∨ stage' = .whole ∨ stage' = .fraction) ∧
      ∀ text, (number stage { negative, whole := ds }).run (chars ++ text) =
        (number stage'
          { negative, whole := ds, fraction := fraction.map List.reverse }).run text := by
  cases hFraction with
  | none => exact ⟨stage, hStage.imp_right Or.inl, fun _ => rfl⟩
  | @some fs chars hDigits hNonempty =>
      obtain ⟨d, fs, rfl⟩ := List.exists_cons_of_ne_nil hNonempty
      obtain ⟨c, chars, rfl, hDigit, hRest⟩ := hDigits.exists_cons
      refine ⟨.fraction, by simp, fun text => ?_⟩
      have hPoint : stage.move { negative, whole := ds } '.' = .more .point { negative, whole := ds } := by
        rcases hStage with rfl | rfl <;> rfl
      have hMove : ∀ n c d, digit? c = some d →
          NumeralStage.fraction.move n c = .more .fraction (n.pushFraction d) := by
        intro n c d hDigit
        simp [NumeralStage.move, hDigit]
      have hFirst : NumeralStage.point.move { negative, whole := ds } c =
          .more .fraction { negative, whole := ds, fraction := some [d] } := by
        simp [NumeralStage.move, hDigit, Numeral.pushFraction]
      rw [List.cons_append, run_more hPoint, List.cons_append, run_more hFirst,
        run_digits hMove hRest, foldl_pushFraction, Option.map_some, List.reverse_cons]

/-- The exponent, if there is one. -/
theorem run_power {negative : Bool} {ds : List Nat} {fraction : Option (List Nat)}
    {power : Option (Bool × List Nat)} {chars : List Char}
    (hStage : stage = .zero ∨ stage = .whole ∨ stage = .fraction)
    (hPower : PowerText power chars) : ∃ stage', stage'.mayEnd = true ∧
      ∀ text, (number stage { negative, whole := ds, fraction }).run (chars ++ text) =
        (number stage' { negative, whole := ds, fraction
                         power := power.map fun p => (p.1, p.2.reverse) }).run text := by
  cases hPower with
  | none =>
      refine ⟨stage, ?_, fun _ => rfl⟩
      rcases hStage with rfl | rfl | rfl <;> rfl
  | @some mark below sign chars es hMark hSign hDigits hNonempty =>
      obtain ⟨d, es, rfl⟩ := List.exists_cons_of_ne_nil hNonempty
      obtain ⟨c, chars, rfl, hDigit, hRest⟩ := hDigits.exists_cons
      refine ⟨.power, rfl, fun text => ?_⟩
      have hMarked : stage.move { negative, whole := ds, fraction } mark =
          .more .mark { negative, whole := ds, fraction, power := some (false, []) } := by
        rcases hStage with rfl | rfl | rfl <;> rcases hMark with rfl | rfl <;> rfl
      have hMove : ∀ n c d, digit? c = some d →
          NumeralStage.power.move n c = .more .power (n.pushPower d) := by
        intro n c d hDigit
        simp [NumeralStage.move, hDigit]
      have hFirst : ∀ stage below, stage = .mark ∨ stage = .markSign →
          NumeralStage.move stage { negative, whole := ds, fraction, power := some (below, []) } c =
            .more .power { negative, whole := ds, fraction, power := some (below, [d]) } := by
        rintro stage below (rfl | rfl) <;> simp [NumeralStage.move, hDigit, Numeral.pushPower]
      -- The sign of the exponent is a step of its own, unless it is left out.
      have hSigned : (number .mark { negative, whole := ds, fraction, power := some (false, []) }).run
            (sign ++ c :: (chars ++ text)) =
          (number .power { negative, whole := ds, fraction, power := some (below, [d]) }).run
            (chars ++ text) := by
        cases hSign with
        | bare => exact run_more (hFirst .mark false (Or.inl rfl))
        | plus => exact (run_more rfl).trans (run_more (hFirst .markSign false (Or.inr rfl)))
        | minus => exact (run_more rfl).trans (run_more (hFirst .markSign true (Or.inr rfl)))
      rw [List.cons_append, run_more hMarked, List.append_assoc, List.cons_append, hSigned,
        run_digits hMove hRest, foldl_pushPower, Option.map_some, List.reverse_cons]

theorem run_numeral {chars : List Char} (hNumeral : NumeralText n chars)
    (hText : EndsNumber text) : ready.run (chars ++ text) = .number n :: ready.run text := by
  cases hNumeral with
  | @parts negative whole fraction power w f p hWhole hFraction hPower =>
      obtain ⟨stage₁, hStage₁, hRun₁⟩ := run_whole negative hWhole
      obtain ⟨stage₂, hStage₂, hRun₂⟩ := run_fraction hStage₁ hFraction
      obtain ⟨stage₃, hStage₃, hRun₃⟩ := run_power hStage₂ hPower
      rw [List.append_assoc, List.append_assoc, hRun₁, hRun₂, hRun₃, run_number_end hStage₃ hText]
      cases fraction <;> cases power <;> simp [Numeral.complete]

/-! ### Strings -/

variable {pieces : List Piece}

theorem run_hex {hex : List Char} {left value : Nat} (hHex : HexText hex value)
    (hLeft : left ≠ 0) :
    (unit pieces (hex.length + left) 0).run (hex ++ text) = (unit pieces left value).run text := by
  induction hHex generalizing left text with
  | nil => rw [List.length_nil, Nat.zero_add, List.nil_append]
  | @snoc hex value d c hBefore hDigit ih =>
      have hNotLast : ¬left + 1 ≤ 1 := by omega
      have hStep : (unit pieces (left + 1) value).step c =
          some ([], unit pieces left (16 * value + d)) := by
        simp [step, hDigit, hLeft]
      rw [List.length_append, List.append_assoc, Nat.add_assoc, Nat.add_comm _ left,
        show [c].length = 1 from rfl, ih (by omega)]
      simp [run, hStep]

theorem run_piece {p : Piece} {chars : List Char} (hPiece : PieceText p chars) :
    (Scanner.text pieces).run (chars ++ text) = (Scanner.text (p :: pieces)).run text := by
  cases hPiece with
  | plain hQuote hBackslash hShown => simp [run, step, hQuote, hBackslash, Nat.not_lt.mpr hShown]
  | @short letter c hEscape =>
      have hLetter : letter ≠ 'u' := by
        rintro rfl
        exact absurd hEscape (by simp [shortEscape?])
      simp [run, step, hLetter, hEscape]
  | unit hHex hLength =>
      cases hHex with
      | nil => exact absurd hLength (by simp)
      | @snoc hex value d c hBefore hDigit =>
          have hThree : hex.length = 3 := by simpa using hLength
          have hOpen (rest : List Char) : (Scanner.text pieces).run ('\\' :: 'u' :: rest) =
              (Scanner.unit pieces (hex.length + 1) 0).run rest := by
            rw [hThree]
            rfl
          have hLast : (Scanner.unit pieces 1 value).step c =
              some ([], .text (.unit (16 * value + d) :: pieces)) := by
            simp [step, hDigit]
          rw [List.cons_append, List.cons_append, hOpen, List.append_assoc,
            run_hex hBefore Nat.one_ne_zero]
          simp [run, hLast]

theorem run_pieces {ps : List Piece} {chars : List Char} (hPieces : PiecesText ps chars) :
    (Scanner.text pieces).run (chars ++ text) = (Scanner.text (ps.reverse ++ pieces)).run text := by
  induction hPieces generalizing pieces with
  | nil => rfl
  | cons hPiece _ ih =>
      rw [List.append_assoc, run_piece hPiece, ih, List.reverse_cons, List.append_assoc]
      rfl

end Scanner

/-! ### Tokens -/

def Token.isNumber : Token → Bool
  | .number _ => true
  | _ => false

def Token.endsNumber : Token → Bool
  | .comma | .closeBracket | .closeBrace => true
  | _ => false

/-- Two tokens of which the second does not go on with a number. -/
def Token.Apart (t t' : Token) : Prop := t.isNumber = true → t'.endsNumber = true

theorem run_lexeme {t : Token} {chars text : List Char} (hLexeme : Lexeme t chars)
    (hText : t.isNumber = true → EndsNumber text) :
    Scanner.ready.run (chars ++ text) = t :: Scanner.ready.run text := by
  cases hLexeme with
  | openBrace | closeBrace | openBracket | closeBracket | colon | comma | null | true | false => rfl
  | number hNumeral => exact Scanner.run_numeral hNumeral (hText rfl)
  | @string pieces chars hPieces =>
      have hQuote : Scanner.start '"' = some (none, .text []) := rfl
      rw [List.cons_append, Scanner.run_start hQuote, List.append_assoc, Scanner.run_pieces hPieces]
      simp [Scanner.run, Scanner.step]

theorem endsNumber_of_spaced {ts : List Token} {text : List Char} (hSpaced : Spaced ts text)
    (hHead : ∀ t ∈ ts.head?, t.endsNumber = true) : EndsNumber text := by
  cases hSpaced with
  | nil => simp [EndsNumber]
  | blank hBlank => simpa [EndsNumber] using Or.inl hBlank
  | @token t ts chars text hLexeme =>
      have hEnds := hHead t rfl
      cases hLexeme with
      | closeBrace | closeBracket | comma => simp [EndsNumber]
      | openBrace | openBracket | colon | null | true | false | number | string =>
          exact absurd hEnds (by simp [Token.endsNumber])

/-- Numbers that end before a comma or a closing bracket are told apart. -/
theorem tokens_of_spaced {ts : List Token} {text : List Char} (hSpaced : Spaced ts text)
    (hApart : ts.IsChain Token.Apart) : tokens text = ts := by
  unfold tokens
  induction hSpaced with
  | nil => rfl
  | @blank ts text c hBlank _ ih =>
      have hStart : Scanner.start c = some (none, .ready) := by simp [Scanner.start, hBlank]
      rw [Scanner.run_start hStart, ih hApart]
      rfl
  | @token t ts chars text hLexeme hRest ih =>
      obtain ⟨hNext, hChain⟩ := List.isChain_cons.mp hApart
      rw [run_lexeme hLexeme, ih hChain]
      exact fun hNumber => endsNumber_of_spaced hRest fun t' hMem => hNext t' hMem hNumber

/-- Tokens that have all been read are the tokens of the text. -/
theorem spaced_of_tokens {text : List Char} (hGood : ∀ t ∈ tokens text, t.isRead = true) :
    Spaced (tokens text) text :=
  Scanner.run_sound .ready hGood

end BoundedPools.Json
