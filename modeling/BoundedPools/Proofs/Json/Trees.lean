import BoundedPools.Json.Node
import BoundedPools.Proofs.Json.Scanning

/-!
# The reader of trees keeps to the grammar

`Node.tokens` lists the tokens of a tree, and `Node.Writes` says that a text is JSON for a
whole tree: its tokens, with blanks anywhere between them.  The reader returns such a tree at
its end exactly for the texts of the tree.  Soundness goes by the tokens that a reader has taken
in (`Focus.spent`), which grow by one at each step; completeness goes by the structure of the
tree.
-/

namespace BoundedPools.Json

namespace Node

mutual

/-- The tokens of a tree. -/
def tokens : Node → List Token
  | null => [.null]
  | bool b => [.bool b]
  | number n => [.number n]
  | string s => [.string s]
  | array items _ => .openBracket :: tokensOfItems items ++ [.closeBracket]
  | object members _ => .openBrace :: tokensOfMembers members ++ [.closeBrace]
  | broken => []

/-- The tokens of items, commas between them. -/
def tokensOfItems : List Node → List Token
  | [] => []
  | [v] => v.tokens
  | v :: rest => v.tokens ++ .comma :: tokensOfItems rest

/-- The tokens of members, commas between them. -/
def tokensOfMembers : List (List Piece × Node) → List Token
  | [] => []
  | [(key, v)] => .string key :: .colon :: v.tokens
  | (key, v) :: rest => .string key :: .colon :: v.tokens ++ .comma :: tokensOfMembers rest

end

/-- The text is JSON for the tree. -/
def Writes (v : Node) (text : List Char) : Prop := v.isWhole = true ∧ Spaced v.tokens text

theorem tokensOfItems_cons_cons (v w : Node) (rest : List Node) :
    tokensOfItems (v :: w :: rest) = v.tokens ++ .comma :: tokensOfItems (w :: rest) := by
  simp [tokensOfItems]

theorem tokensOfMembers_cons_cons (m m' : Member) (rest : List Member) :
    tokensOfMembers (m :: m' :: rest) =
      .string m.1 :: .colon :: m.2.tokens ++ .comma :: tokensOfMembers (m' :: rest) := by
  simp [tokensOfMembers]

theorem areWhole_iff {items : List Node} :
    areWhole items = true ↔ ∀ v ∈ items, v.isWhole = true := by
  induction items with
  | nil => simp [areWhole]
  | cons v rest ih => simp [areWhole, ih]

theorem areWholeMembers_iff {members : List Member} :
    areWholeMembers members = true ↔ ∀ m ∈ members, m.2.isWhole = true := by
  induction members with
  | nil => simp [areWholeMembers]
  | cons m rest ih => simp [areWholeMembers, ih]

/-- Induction over trees: what holds of all items or members holds of the array or object. -/
@[elab_as_elim]
theorem inductionOn {P : Node → Prop} (v : Node) (null : P .null) (bool : ∀ b, P (.bool b))
    (number : ∀ n, P (.number n)) (string : ∀ s, P (.string s))
    (array : ∀ items closed, (∀ v ∈ items, P v) → P (.array items closed))
    (object : ∀ members closed, (∀ m ∈ members, P m.2) → P (.object members closed))
    (broken : P .broken) : P v := by
  match v with
  | .null => exact null
  | .bool b => exact bool b
  | .number n => exact number n
  | .string s => exact string s
  | .array items closed =>
      exact array items closed fun w hMem =>
        inductionOn w null bool number string array object broken
  | .object members closed =>
      exact object members closed fun m hMem =>
        inductionOn m.2 null bool number string array object broken
  | .broken => exact broken
termination_by sizeOf v
decreasing_by
  · have hSmaller := List.sizeOf_lt_of_mem hMem
    simp only [Node.array.sizeOf_spec]
    omega
  · have hSmaller := List.sizeOf_lt_of_mem hMem
    obtain ⟨key, w⟩ := m
    simp only [Node.object.sizeOf_spec, Prod.mk.sizeOf_spec] at hSmaller ⊢
    omega

end Node

/-! ## Completeness -/

def Token.opensValue : Token → Bool
  | .null | .bool _ | .number _ | .string _ | .openBracket | .openBrace => true
  | .closeBracket | .closeBrace | .colon | .comma | .bad | .cut => false

namespace Focus

variable {around : List Frame} {rest : List Token}

theorem run_cons {f f' : Focus} {t : Token} (hStep : f.step t = some f') :
    f.run (t :: rest) = f'.run rest := by
  cases f <;> simp [run, hStep]

end Focus

namespace Node

/-- A whole tree begins with a token that a value can begin with. -/
theorem tokens_head {v : Node} (hWhole : v.isWhole = true) :
    ∃ t ts, v.tokens = t :: ts ∧ t.opensValue = true := by
  cases v with
  | null => exact ⟨.null, [], rfl, rfl⟩
  | bool b => exact ⟨.bool b, [], rfl, rfl⟩
  | number n => exact ⟨.number n, [], rfl, rfl⟩
  | string s => exact ⟨.string s, [], rfl, rfl⟩
  | array => exact ⟨.openBracket, _, rfl, rfl⟩
  | object => exact ⟨.openBrace, _, rfl, rfl⟩
  | broken => exact absurd hWhole (by simp [isWhole])

theorem tokensOfItems_head {v : Node} (items : List Node) (hWhole : v.isWhole = true) :
    ∃ t ts, tokensOfItems (v :: items) = t :: ts ∧ t.opensValue = true := by
  obtain ⟨t, ts, hTokens, hOpens⟩ := tokens_head hWhole
  cases items with
  | nil => exact ⟨t, ts, hTokens, hOpens⟩
  | cons w items =>
      rw [tokensOfItems_cons_cons, hTokens]
      exact ⟨t, _, rfl, hOpens⟩

/-- Behind an opening bracket, such a token begins the first item. -/
theorem run_firstItem {t : Token} (around : List Frame) (rest : List Token)
    (hOpens : t.opensValue = true) :
    (Focus.firstItem around).run (t :: rest) =
      (Focus.value (.item [] :: around)).run (t :: rest) := by
  cases t with
  | null | bool | number | string | openBracket | openBrace => rfl
  | closeBracket | closeBrace | colon | comma | bad | cut =>
      exact absurd hOpens (by simp [Token.opensValue])

/-- Read where a value is due, the tokens of the tree put it there. -/
def Placed (v : Node) : Prop :=
  ∀ around rest, (Focus.value around).run (v.tokens ++ rest) = (Focus.place v around).run rest

theorem run_tokensOfItems {v : Node} {items : List Node}
    (hPlaced : ∀ w ∈ v :: items, w.Placed) (before : List Node) (around : List Frame)
    (rest : List Token) :
    (Focus.value (.item before :: around)).run
        (tokensOfItems (v :: items) ++ .closeBracket :: rest) =
      (Focus.place (.array (before.reverse ++ v :: items) true) around).run rest := by
  obtain ⟨hFirst, hLater⟩ := List.forall_mem_cons.mp hPlaced
  induction items generalizing v before with
  | nil =>
      rw [tokensOfItems, hFirst, Focus.place, Focus.run_cons rfl, List.reverse_cons]
  | cons w items ih =>
      obtain ⟨hSecond, hOthers⟩ := List.forall_mem_cons.mp hLater
      have hRest := ih hLater (v :: before) hSecond hOthers
      rw [List.reverse_cons, List.append_assoc] at hRest
      rw [tokensOfItems_cons_cons, List.append_assoc, hFirst, Focus.place, List.cons_append,
        Focus.run_cons rfl]
      exact hRest

theorem run_tokensOfMembers {m : Member} {members : List Member}
    (hPlaced : ∀ m' ∈ m :: members, m'.2.Placed) (before : List Member) (around : List Frame)
    (rest : List Token) :
    (Focus.nextKey before around).run
        (tokensOfMembers (m :: members) ++ .closeBrace :: rest) =
      (Focus.place (.object (before.reverse ++ m :: members) true) around).run rest := by
  obtain ⟨hFirst, hLater⟩ := List.forall_mem_cons.mp hPlaced
  induction members generalizing m before with
  | nil =>
      rw [tokensOfMembers, List.cons_append, Focus.run_cons rfl, List.cons_append,
        Focus.run_cons rfl, hFirst, Focus.place, Focus.run_cons rfl, List.reverse_cons]
  | cons m' members ih =>
      obtain ⟨hSecond, hOthers⟩ := List.forall_mem_cons.mp hLater
      have hRest := ih hLater (m :: before) hSecond hOthers
      rw [List.reverse_cons, List.append_assoc] at hRest
      rw [tokensOfMembers_cons_cons, List.append_assoc, List.cons_append, Focus.run_cons rfl,
        List.cons_append, Focus.run_cons rfl, hFirst, Focus.place, List.cons_append,
        Focus.run_cons rfl]
      exact hRest

theorem placed_array {items : List Node} (hPlaced : ∀ v ∈ items, v.Placed)
    (hItems : ∀ v ∈ items, v.isWhole = true) : (array items true).Placed := by
  intro around rest
  cases items with
  | nil => exact (Focus.run_cons rfl).trans (Focus.run_cons rfl)
  | cons v items =>
      obtain ⟨t, ts, hTokens, hFirst⟩ := tokensOfItems_head items (hItems v List.mem_cons_self)
      have hOpens : (array (v :: items) true).tokens ++ rest =
          .openBracket :: (tokensOfItems (v :: items) ++ .closeBracket :: rest) := by
        simp [tokens]
      have hRun := run_tokensOfItems hPlaced [] around rest
      rw [hTokens, List.cons_append, ← run_firstItem around _ hFirst] at hRun
      rw [hOpens, Focus.run_cons rfl, hTokens]
      exact hRun

theorem tokensOfMembers_head (m : Member) (members : List Member) :
    ∃ ts, tokensOfMembers (m :: members) = .string m.1 :: ts := by
  cases members with
  | nil => exact ⟨_, rfl⟩
  | cons => exact ⟨_, by rw [tokensOfMembers_cons_cons]; rfl⟩

theorem placed_object {members : List Member} (hPlaced : ∀ m ∈ members, m.2.Placed) :
    (object members true).Placed := by
  intro around rest
  cases members with
  | nil => exact (Focus.run_cons rfl).trans (Focus.run_cons rfl)
  | cons m members =>
      obtain ⟨ts, hTokens⟩ := tokensOfMembers_head m members
      have hOpens : (object (m :: members) true).tokens ++ rest =
          .openBrace :: (tokensOfMembers (m :: members) ++ .closeBrace :: rest) := by
        simp [tokens]
      -- The first key is read alike behind the brace and behind a comma.
      have hRun := run_tokensOfMembers hPlaced [] around rest
      rw [hTokens, List.cons_append, Focus.run_cons rfl] at hRun
      rw [hOpens, Focus.run_cons rfl, hTokens, List.cons_append, Focus.run_cons rfl]
      exact hRun

theorem placed_of_isWhole {v : Node} (hWhole : v.isWhole = true) : v.Placed := by
  induction v using inductionOn with
  | null | bool | number | string => exact fun _ _ => Focus.run_cons rfl
  | broken => exact absurd hWhole (by simp [isWhole])
  | array items closed ih =>
      obtain ⟨hItems, rfl⟩ : areWhole items = true ∧ closed = true := by
        simpa [isWhole] using hWhole
      rw [areWhole_iff] at hItems
      exact placed_array (fun v hMem => ih v hMem (hItems v hMem)) hItems
  | object members closed ih =>
      obtain ⟨hMembers, rfl⟩ : areWholeMembers members = true ∧ closed = true := by
        simpa [isWhole] using hWhole
      rw [areWholeMembers_iff] at hMembers
      exact placed_object fun m hMem => ih m hMem (hMembers m hMem)

end Node

/-! ## Soundness -/

namespace Node

/-- The tokens of items with a comma after each. -/
def tokensBefore (items : List Node) : List Token := items.flatMap fun v => v.tokens ++ [.comma]

/-- The tokens of members with a comma after each. -/
def tokensBeforeKey (members : List Member) : List Token :=
  members.flatMap fun m => .string m.1 :: .colon :: m.2.tokens ++ [.comma]

theorem tokensOfItems_snoc (items : List Node) (v : Node) :
    tokensOfItems (items ++ [v]) = tokensBefore items ++ v.tokens := by
  induction items with
  | nil => simp [tokensOfItems, tokensBefore]
  | cons w items ih =>
      obtain ⟨w', items', hCons⟩ := List.exists_cons_of_ne_nil (l := items ++ [v]) (by simp)
      rw [List.cons_append, hCons, tokensOfItems_cons_cons, ← hCons, ih]
      simp [tokensBefore]

theorem tokensBefore_eq {items : List Node} (hNonempty : items ≠ []) :
    tokensBefore items = tokensOfItems items ++ [.comma] := by
  obtain ⟨first, v, rfl⟩ := (List.eq_nil_or_concat' items).resolve_left hNonempty
  rw [tokensOfItems_snoc]
  simp [tokensBefore]

theorem tokensOfMembers_snoc (members : List Member) (m : Member) :
    tokensOfMembers (members ++ [m]) =
      tokensBeforeKey members ++ .string m.1 :: .colon :: m.2.tokens := by
  induction members with
  | nil => simp [tokensOfMembers, tokensBeforeKey]
  | cons m' members ih =>
      obtain ⟨m'', members', hCons⟩ := List.exists_cons_of_ne_nil (l := members ++ [m]) (by simp)
      rw [List.cons_append, hCons, tokensOfMembers_cons_cons, ← hCons, ih]
      simp [tokensBeforeKey]

theorem tokensBeforeKey_eq {members : List Member} (hNonempty : members ≠ []) :
    tokensBeforeKey members = tokensOfMembers members ++ [.comma] := by
  obtain ⟨first, m, rfl⟩ := (List.eq_nil_or_concat' members).resolve_left hNonempty
  rw [tokensOfMembers_snoc]
  simp [tokensBeforeKey]

end Node

namespace Frame

/-- What was read before the item or member in work is whole. -/
def Sound : Frame → Prop
  | item before => ∀ v ∈ before, v.isWhole = true
  | entry before _ => ∀ m ∈ before, m.2.isWhole = true

/-- The tokens of an open array or object up to the value in work. -/
def spent : Frame → List Token
  | item before => .openBracket :: Node.tokensBefore before.reverse
  | entry before key =>
    .openBrace :: Node.tokensBeforeKey before.reverse ++ [.string key, .colon]

end Frame

namespace Focus

/-- The tokens of all that is open around a value. -/
def spentAround (around : List Frame) : List Token := around.reverse.flatMap Frame.spent

theorem spentAround_cons (frame : Frame) (around : List Frame) :
    spentAround (frame :: around) = spentAround around ++ frame.spent := by
  simp [spentAround]

/-- The tokens that a reader has taken in. -/
def spent : Focus → List Token
  | value around => spentAround around
  | firstItem around => spentAround around ++ [.openBracket]
  | afterItem before around => spentAround around ++ .openBracket :: Node.tokensOfItems before.reverse
  | firstKey around => spentAround around ++ [.openBrace]
  | nextKey before around =>
    spentAround around ++ .openBrace :: Node.tokensBeforeKey before.reverse
  | colon before key around =>
    spentAround around ++ .openBrace :: Node.tokensBeforeKey before.reverse ++ [.string key]
  | afterMember before around =>
    spentAround around ++ .openBrace :: Node.tokensOfMembers before.reverse
  | done root => root.tokens

/-- All that a reader has completed is whole. -/
def Sound : Focus → Prop
  | value around | firstItem around | firstKey around => ∀ frame ∈ around, frame.Sound
  | afterItem before around =>
    before ≠ [] ∧ (∀ v ∈ before, v.isWhole = true) ∧ ∀ frame ∈ around, frame.Sound
  | nextKey before around | colon before _ around =>
    (∀ m ∈ before, m.2.isWhole = true) ∧ ∀ frame ∈ around, frame.Sound
  | afterMember before around =>
    before ≠ [] ∧ (∀ m ∈ before, m.2.isWhole = true) ∧ ∀ frame ∈ around, frame.Sound
  | done root => root.isWhole = true

variable {around : List Frame} {f f' : Focus} {t : Token}

/-- A whole value in its place. -/
theorem place_sound {v : Node} (hWhole : v.isWhole = true)
    (hAround : ∀ frame ∈ around, frame.Sound) :
    (place v around).Sound ∧ (place v around).spent = spentAround around ++ v.tokens := by
  cases around with
  | nil => exact ⟨hWhole, by simp [place, spent, spentAround]⟩
  | cons frame around =>
      obtain ⟨hFrame, hOuter⟩ := List.forall_mem_cons.mp hAround
      rw [spentAround_cons]
      cases frame with
      | item before =>
          refine ⟨⟨by simp, List.forall_mem_cons.mpr ⟨hWhole, hFrame⟩, hOuter⟩, ?_⟩
          simp [place, spent, Frame.spent, Node.tokensOfItems_snoc]
      | entry before key =>
          refine ⟨⟨by simp, List.forall_mem_cons.mpr ⟨hWhole, hFrame⟩, hOuter⟩, ?_⟩
          simp [place, spent, Frame.spent, Node.tokensOfMembers_snoc]

theorem begin_sound (hAround : ∀ frame ∈ around, frame.Sound) (hBegin : begin around t = some f') :
    f'.Sound ∧ f'.spent = spentAround around ++ [t] := by
  cases t with
  | null | bool | number | string =>
      obtain rfl := Option.some.inj hBegin
      exact place_sound rfl hAround
  | openBracket | openBrace =>
      obtain rfl := Option.some.inj hBegin
      exact ⟨hAround, rfl⟩
  | closeBracket | closeBrace | colon | comma | bad | cut => exact absurd hBegin (by simp [begin])

/-- A completed array or object in its place. -/
theorem place_closed {v : Node} {ts : List Token} (hWhole : v.isWhole = true)
    (hAround : ∀ frame ∈ around, frame.Sound) (hTokens : v.tokens = ts ++ [t]) :
    (place v around).Sound ∧ (place v around).spent = spentAround around ++ ts ++ [t] := by
  obtain ⟨hSound, hSpent⟩ := place_sound hWhole hAround
  rw [hSpent, hTokens, List.append_assoc]
  exact ⟨hSound, rfl⟩

theorem step_sound_firstItem (hAround : ∀ frame ∈ around, frame.Sound)
    (hStep : (firstItem around).step t = some f') :
    f'.Sound ∧ f'.spent = (firstItem around).spent ++ [t] := by
  by_cases hClose : t = .closeBracket
  · subst hClose
    obtain rfl := Option.some.inj hStep
    exact place_closed (v := .array [] true) rfl hAround rfl
  · have hFirst : begin (.item [] :: around) t = some f' := by
      cases t with
      | closeBracket => exact absurd rfl hClose
      | _ => exact hStep
    have hFrames : ∀ frame ∈ .item [] :: around, frame.Sound :=
      List.forall_mem_cons.mpr ⟨by simp [Frame.Sound], hAround⟩
    have hBegun := begin_sound hFrames hFirst
    rw [spentAround_cons] at hBegun
    exact hBegun

theorem step_sound_afterItem {before : List Node} (hSound : (afterItem before around).Sound)
    (hStep : (afterItem before around).step t = some f') :
    f'.Sound ∧ f'.spent = (afterItem before around).spent ++ [t] := by
  obtain ⟨hNonempty, hBefore, hAround⟩ := hSound
  cases t with
  | comma =>
      obtain rfl := Option.some.inj hStep
      refine ⟨List.forall_mem_cons.mpr ⟨hBefore, hAround⟩, ?_⟩
      rw [spent, spent, spentAround_cons, Frame.spent,
        Node.tokensBefore_eq (by simpa using hNonempty), List.append_assoc, List.cons_append]
  | closeBracket =>
      obtain rfl := Option.some.inj hStep
      have hWhole : (Node.array before.reverse true).isWhole = true := by
        simpa [Node.isWhole, Node.areWhole_iff] using hBefore
      exact place_closed hWhole hAround rfl
  | _ => exact absurd hStep (by simp [step])

theorem step_sound_afterMember {before : List Member} (hSound : (afterMember before around).Sound)
    (hStep : (afterMember before around).step t = some f') :
    f'.Sound ∧ f'.spent = (afterMember before around).spent ++ [t] := by
  obtain ⟨hNonempty, hBefore, hAround⟩ := hSound
  cases t with
  | comma =>
      obtain rfl := Option.some.inj hStep
      refine ⟨⟨hBefore, hAround⟩, ?_⟩
      rw [spent, spent, Node.tokensBeforeKey_eq (by simpa using hNonempty), List.append_assoc,
        List.cons_append]
  | closeBrace =>
      obtain rfl := Option.some.inj hStep
      have hWhole : (Node.object before.reverse true).isWhole = true := by
        simpa [Node.isWhole, Node.areWholeMembers_iff] using hBefore
      exact place_closed hWhole hAround rfl
  | _ => exact absurd hStep (by simp [step])

/-- A step takes in its token. -/
theorem step_sound (hSound : f.Sound) (hStep : f.step t = some f') :
    f'.Sound ∧ f'.spent = f.spent ++ [t] := by
  cases f with
  | value around => exact begin_sound hSound hStep
  | firstItem around => exact step_sound_firstItem hSound hStep
  | afterItem before around => exact step_sound_afterItem hSound hStep
  | firstKey around =>
      cases t with
      | closeBrace =>
          obtain rfl := Option.some.inj hStep
          exact place_closed (v := .object [] true) rfl hSound rfl
      | string key =>
          obtain rfl := Option.some.inj hStep
          exact ⟨⟨by simp, hSound⟩, rfl⟩
      | _ => exact absurd hStep (by simp [step])
  | nextKey before around =>
      cases t with
      | string key =>
          obtain rfl := Option.some.inj hStep
          exact ⟨hSound, rfl⟩
      | _ => exact absurd hStep (by simp [step])
  | colon before key around =>
      cases t with
      | colon =>
          obtain rfl := Option.some.inj hStep
          refine ⟨List.forall_mem_cons.mpr hSound, ?_⟩
          simp [spent, spentAround_cons, Frame.spent]
      | _ => exact absurd hStep (by simp [step])
  | afterMember before around => exact step_sound_afterMember hSound hStep
  | done root => exact absurd hStep (by simp [step])

/-- A reader takes in tokens that have been read only. -/
theorem isRead_of_step {f f' : Focus} {t : Token} (hStep : f.step t = some f') :
    t.isRead = true := by
  cases t with
  | bad | cut => cases f <;> exact absurd hStep (by simp [step, begin])
  | _ => rfl

/-- A reader that ends with a tree has taken in the tokens of the tree. -/
theorem run_sound {ts : List Token} {v : Node} (hSound : f.Sound) (hRun : f.run ts = ⟨v, .complete⟩) :
    v.isWhole = true ∧ v.tokens = f.spent ++ ts ∧ ∀ t ∈ ts, t.isRead = true := by
  induction ts generalizing f with
  | nil =>
      cases f with
      | done root =>
          obtain ⟨rfl, -⟩ := Document.mk.inj hRun
          exact ⟨hSound, by simp [spent], fun t hMem => absurd hMem List.not_mem_nil⟩
      | _ => exact absurd hRun (by simp [run])
  | cons t ts ih =>
      cases hStep : f.step t with
      | none =>
          -- Where a token does not fit, the text is not complete.
          have hEnding := congrArg Document.ending hRun
          cases f <;> simp only [run, hStep] at hEnding <;> split at hEnding <;> simp at hEnding
      | some f' =>
          rw [run_cons hStep] at hRun
          obtain ⟨hSound', hSpent⟩ := step_sound hSound hStep
          obtain ⟨hWhole, hTokens, hGood⟩ := ih hSound' hRun
          rw [hSpent, List.append_assoc] at hTokens
          exact ⟨hWhole, hTokens, List.forall_mem_cons.mpr ⟨isRead_of_step hStep, hGood⟩⟩

end Focus

/-! ## Documents -/

namespace Node

theorem isChain_append {ts rest : List Token} {t : Token} (hFirst : ts.IsChain Token.Apart)
    (hEnds : t.endsNumber = true) (hLater : (t :: rest).IsChain Token.Apart) :
    (ts ++ t :: rest).IsChain Token.Apart := by
  refine List.isChain_append.mpr ⟨hFirst, hLater, fun t' _ t'' hMem _ => ?_⟩
  obtain rfl : t = t'' := by simpa using hMem
  exact hEnds

theorem isChain_cons {ts : List Token} {t : Token} (hNumber : t.isNumber = false)
    (hLater : ts.IsChain Token.Apart) : (t :: ts).IsChain Token.Apart := by
  refine List.isChain_cons.mpr ⟨fun t' _ hIs => ?_, hLater⟩
  exact absurd (hIs.symm.trans hNumber) (by simp)

theorem isChain_tokensOfItems {items : List Node}
    (hEach : ∀ v ∈ items, v.tokens.IsChain Token.Apart) :
    (tokensOfItems items).IsChain Token.Apart := by
  induction items with
  | nil => exact .nil
  | cons v items ih =>
      obtain ⟨hFirst, hLater⟩ := List.forall_mem_cons.mp hEach
      cases items with
      | nil => exact hFirst
      | cons w items =>
          rw [tokensOfItems_cons_cons]
          exact isChain_append hFirst rfl (isChain_cons rfl (ih hLater))

theorem isChain_tokensOfMembers {members : List Member}
    (hEach : ∀ m ∈ members, m.2.tokens.IsChain Token.Apart) :
    (tokensOfMembers members).IsChain Token.Apart := by
  induction members with
  | nil => exact .nil
  | cons m members ih =>
      obtain ⟨hFirst, hLater⟩ := List.forall_mem_cons.mp hEach
      cases members with
      | nil => exact isChain_cons rfl (isChain_cons rfl hFirst)
      | cons m' members =>
          rw [tokensOfMembers_cons_cons]
          exact isChain_cons rfl (isChain_cons rfl
            (isChain_append hFirst rfl (isChain_cons rfl (ih hLater))))

/-- Numbers in a tree end before a comma, a closing bracket or the end of the text. -/
theorem isChain_tokens (v : Node) : v.tokens.IsChain Token.Apart := by
  induction v using inductionOn with
  | null | bool | number | string => exact .singleton _
  | broken => exact .nil
  | array items closed ih =>
      rw [tokens]
      exact isChain_append (isChain_cons rfl (isChain_tokensOfItems ih)) rfl (.singleton _)
  | object members closed ih =>
      rw [tokens]
      exact isChain_append (isChain_cons rfl (isChain_tokensOfMembers ih)) rfl (.singleton _)

end Node

/-- A text is read to its end, into a tree, exactly if it is JSON for the tree. -/
theorem ofText_eq_iff {text : List Char} {v : Node} :
    Document.ofText text = ⟨v, .complete⟩ ↔ v.Writes text := by
  constructor
  · intro hRead
    have hSound : (Focus.value []).Sound := by simp [Focus.Sound]
    obtain ⟨hWhole, hTokens, hGood⟩ := Focus.run_sound hSound hRead
    have hSame : v.tokens = tokens text := by simpa [Focus.spent, Focus.spentAround] using hTokens
    refine ⟨hWhole, ?_⟩
    rw [hSame]
    exact spaced_of_tokens hGood
  · rintro ⟨hWhole, hSpaced⟩
    have hTokens := tokens_of_spaced hSpaced v.isChain_tokens
    have hRun := Node.placed_of_isWhole hWhole [] []
    rw [List.append_nil] at hRun
    rw [Document.ofText, hTokens, hRun]
    rfl

theorem writes_of_ended {text : List Char} (hEnded : (Document.ofText text).ended = true) :
    (Document.ofText text).root.Writes text := by
  have hEnding : (Document.ofText text).ending = .complete := by
    simpa [Document.ended] using hEnded
  exact ofText_eq_iff.mp (by rw [← hEnding])

end BoundedPools.Json
