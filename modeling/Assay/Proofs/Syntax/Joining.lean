/-
Texts that a line feed joins. Where the first leaves nothing open, no string
without its closing quote and no comment without its closing sign, its pieces are
the same with a line feed and another text after it. So the tokens of both are
those of the first and, further on, those of the second.
-/
import Assay.Proofs.Syntax.Scanning

namespace Assay.Syntax

/-- A token further on. -/
def Token.shift (offset : Nat) (token : Token) : Token :=
  ⟨token.tag, token.start + offset, token.stop + offset⟩

end Assay.Syntax

namespace Assay.Syntax.Lexer

open Assay.Text

variable {text : List Char}

-- =============================================================== pieces

/-- A piece further on. -/
def Piece.shift (offset : Nat) (piece : Piece) : Piece :=
  ⟨piece.lexeme, piece.start + offset, piece.stop + offset⟩

/-- More rounds than characters make no difference. -/
theorem piecesFrom_rounds {rounds others offset : Nat} (hrounds : text.length ≤ rounds)
    (hothers : text.length ≤ others) :
    piecesFrom rounds offset text = piecesFrom others offset text := by
  induction rounds generalizing others offset text with
  | zero =>
      obtain rfl := List.length_eq_zero_iff.mp (Nat.le_zero.mp hrounds)
      cases others <;> rfl
  | succ rounds ih =>
      cases text with
      | nil => cases others <;> rfl
      | cons c text =>
          cases others with
          | zero => cases hothers
          | succ others =>
              obtain ⟨hsome, hwithin⟩ := lexeme_length (List.cons_ne_nil c text)
              rw [List.length_cons] at hrounds hothers hwithin
              unfold piecesFrom
              dsimp only
              rw [ih]
              all_goals rw [List.length_drop, List.length_cons]; omega

/-- The pieces of a text that begins at an offset. -/
def piecesAt (offset : Nat) (text : List Char) : List Piece := piecesFrom text.length offset text

theorem piecesAt_eq (offset : Nat) (htext : text ≠ []) :
    piecesAt offset text = ⟨(lexeme text).1, offset, offset + (lexeme text).2⟩
      :: piecesAt (offset + (lexeme text).2) (text.drop (lexeme text).2) := by
  obtain ⟨c, rest, rfl⟩ := List.exists_cons_of_ne_nil htext
  obtain ⟨hsome, -⟩ := lexeme_length htext
  have hrest : ((c :: rest).drop (lexeme (c :: rest)).2).length ≤ rest.length := by
    rw [List.length_drop, List.length_cons]
    omega
  exact congrArg (List.cons _) (piecesFrom_rounds hrest (Nat.le_refl _))

/-- A text is cut piece by piece: what is true of no text, and of each text if it is
true of what the first piece leaves, is true of all. -/
theorem piecesAt_induction {motive : Nat → List Char → Prop} (nil : ∀ offset, motive offset [])
    (cut : ∀ offset text, text ≠ [] →
      motive (offset + (lexeme text).2) (text.drop (lexeme text).2) → motive offset text)
    (offset : Nat) (text : List Char) : motive offset text := by
  induction hlength : text.length using Nat.strongRecOn generalizing text offset with
  | ind length ih =>
      by_cases hnil : text = []
      · exact hnil ▸ nil offset
      · obtain ⟨hsome, hwithin⟩ := lexeme_length hnil
        refine cut offset text hnil (ih _ ?_ _ _ rfl)
        rw [List.length_drop]
        omega

/-- The rest of a text ends where the text does. -/
theorem offset_rest (offset : Nat) (htext : text ≠ []) :
    offset + (lexeme text).2 + (text.drop (lexeme text).2).length = offset + text.length := by
  obtain ⟨-, hwithin⟩ := lexeme_length htext
  rw [List.length_drop]
  omega

/-- The pieces of a text are the same at every offset, but for where they
stand. -/
theorem piecesAt_shift (offset more : Nat) (text : List Char) :
    piecesAt (offset + more) text = (piecesAt offset text).map (Piece.shift more) := by
  unfold piecesAt
  generalize text.length = rounds
  induction rounds generalizing offset text with
  | zero => rfl
  | succ rounds ih =>
      cases text with
      | nil => rfl
      | cons c text =>
          unfold piecesFrom
          dsimp only
          rw [List.map_cons, ← ih, Piece.shift]
          simp only [Nat.add_right_comm]

/-- The piece is the same before another line: it is not stray, and no slash where
a comment begins that is closed only there. -/
def ClosedIn (source more : List Char) (piece : Piece) : Prop :=
  piece.lexeme ≠ .token .stray ∧ (piece.lexeme = .token (.sign .slash) →
    beginsWith ['/', '*'] (source.drop piece.start) = true → commentTail more = none)

/-- No string of the text is left open, and no comment that another line would
close. -/
def Closed (text more : List Char) : Prop := ∀ piece ∈ pieces text, ClosedIn text more piece

/-- What is left of a text that leaves nothing open is cut as before when a line
is added. -/
theorem piecesAt_line {source : List Char} {offset : Nat} (htext : source.drop offset = text)
    {more : List Char} (hclosed : ∀ piece ∈ piecesAt offset text, ClosedIn source more piece) :
    piecesAt offset (text ++ '\n' :: more) = piecesAt offset text
      ++ ⟨.lineFeed, offset + text.length, offset + text.length + 1⟩
        :: piecesAt (offset + text.length + 1) more := by
  induction offset, text using piecesAt_induction with
  | nil offset =>
      rw [List.nil_append, piecesAt_eq _ (List.cons_ne_nil _ _)]
      rfl
  | cut offset text hnil ih =>
      obtain ⟨-, hwithin⟩ := lexeme_length hnil
      rw [piecesAt_eq offset hnil] at hclosed ⊢
      obtain ⟨⟨hproper, hopen⟩, hrest⟩ := List.forall_mem_cons.mp hclosed
      have hlexeme := lexeme_line hnil hproper (htext ▸ hopen)
      have hdrop : source.drop (offset + (lexeme text).2) = text.drop (lexeme text).2 := by
        rw [← List.drop_drop, htext]
      rw [piecesAt_eq offset (by simp), hlexeme, drop_gap text more hwithin, ih hdrop hrest,
        List.cons_append, offset_rest offset hnil]

/-- A byte order mark is blank at the beginning. -/
theorem pieces_mark (text : List Char) :
    pieces ('\uFEFF' :: text) = ⟨.blank, 0, 1⟩ :: piecesAt 1 text := rfl

theorem pieces_eq (hmark : text.head? ≠ some '\uFEFF') : pieces text = piecesAt 0 text := by
  unfold pieces
  split
  · exact absurd rfl hmark
  · rfl

/-- A text that leaves nothing open is cut as before when a line is added. -/
theorem pieces_line {more : List Char} (hclosed : Closed text more) :
    pieces (text ++ '\n' :: more) = pieces text
      ++ ⟨.lineFeed, text.length, text.length + 1⟩
        :: (piecesAt 0 more).map (Piece.shift (text.length + 1)) := by
  rw [← piecesAt_shift, Nat.zero_add]
  by_cases hmark : text.head? = some '\uFEFF'
  · obtain ⟨rest, rfl⟩ := List.head?_eq_some_iff.mp hmark
    rw [Closed, pieces_mark] at hclosed
    have hdrop : ('\uFEFF' :: rest).drop 1 = rest := rfl
    rw [List.cons_append, pieces_mark, pieces_mark,
      piecesAt_line hdrop (List.forall_mem_cons.mp hclosed).2, List.cons_append, List.length_cons,
      Nat.add_comm 1]
  · have hmark' : (text ++ '\n' :: more).head? ≠ some '\uFEFF' := by
      cases text with
      | nil => exact fun h => absurd (Option.some.inj h) (by decide)
      | cons c rest => exact hmark
    rw [Closed, pieces_eq hmark] at hclosed
    rw [pieces_eq hmark, pieces_eq hmark', piecesAt_line List.drop_zero hclosed, Nat.zero_add]

-- ============================================================ the tokens

theorem tokensAmong_shift (pending : Bool) (offset : Nat) (pieces : List Piece) :
    tokensAmong pending (pieces.map (Piece.shift offset))
      = (tokensAmong pending pieces).map (Token.shift offset) := by
  induction pieces generalizing pending with
  | nil => rfl
  | cons piece pieces ih =>
      rw [List.map_cons, tokensAmong, tokensAmong]
      cases hpiece : piece.lexeme with
      | blank => simp only [Piece.shift, hpiece, ih]
      | comment => simp only [Piece.shift, hpiece, ih]
      | lineFeed =>
        cases pending <;> simp [Piece.shift, hpiece, ih, Token.shift]
      | token tag => simp [Piece.shift, hpiece, ih, Token.shift]

/-- After a line feed, tokens are told as at the beginning of a source. -/
theorem tokensAmong_lineFeed (pending : Bool) (start stop : Nat) (first more : List Piece) :
    ∃ breaks : List Token, (∀ token ∈ breaks, token.tag = .lineBreak)
      ∧ tokensAmong pending (first ++ ⟨.lineFeed, start, stop⟩ :: more)
        = tokensAmong pending first ++ breaks ++ tokensAmong false more := by
  induction first generalizing pending with
  | nil =>
    cases pending with
    | false => exact ⟨[], nofun, rfl⟩
    | true => exact ⟨[⟨.lineBreak, start, stop⟩], by simp, rfl⟩
  | cons piece first ih =>
      rw [List.cons_append, tokensAmong, tokensAmong]
      cases hpiece : piece.lexeme with
      | blank => exact ih pending
      | comment => exact ih pending
      | lineFeed =>
          obtain ⟨breaks, htags, hbreaks⟩ := ih false
          refine ⟨breaks, htags, ?_⟩
          dsimp only
          split
          · rw [hbreaks]; rfl
          · exact hbreaks
      | token tag =>
          obtain ⟨breaks, htags, hbreaks⟩ := ih tag.endsStatement
          refine ⟨breaks, htags, ?_⟩
          dsimp only
          rw [hbreaks]
          rfl

/-- The tokens of joined texts are those of the first, a line break perhaps, and
those of the second further on. A byte order mark begins no second text. -/
theorem tokens_line {more : List Char} (hclosed : Closed text more)
    (hmark : more.head? ≠ some '\uFEFF') :
    ∃ breaks : List Token, (∀ token ∈ breaks, token.tag = .lineBreak)
      ∧ tokens (text ++ '\n' :: more)
        = tokens text ++ breaks ++ (tokens more).map (Token.shift (text.length + 1)) := by
  obtain ⟨breaks, htags, hbreaks⟩ := tokensAmong_lineFeed false text.length (text.length + 1)
    (pieces text) ((piecesAt 0 more).map (Piece.shift (text.length + 1)))
  refine ⟨breaks, htags, ?_⟩
  rw [tokens, pieces_line hclosed, hbreaks, tokensAmong_shift, ← pieces_eq hmark]
  rfl

/-- A byte order mark is stray where a source goes on. -/
theorem lexeme_mark (rest : List Char) : (lexeme ('\uFEFF' :: rest)).1 = .token .stray := by
  have hnumber : number? ('\uFEFF' :: rest) = none := by
    simp [number?, int, float, decimalFloat, hexFloat, digits]
  have hsign : sign? ('\uFEFF' :: rest) = none := by
    have hspellings : ∀ spelling ∈ Sign.spellings,
        spelling.1 ≠ [] ∧ spelling.1.head? ≠ some '\uFEFF' := by decide
    rw [sign?, Option.map_eq_none_iff, List.find?_eq_none]
    intro spelling hmem hbegins
    obtain ⟨hsome, hhead⟩ := hspellings spelling hmem
    obtain ⟨c, word, hword⟩ := List.exists_cons_of_ne_nil hsome
    obtain ⟨more, hmore⟩ := eq_append_of_beginsWith hbegins
    rw [hword] at hhead hmore
    exact hhead (congrArg some (List.cons.inj hmore).1.symm)
  have hstart : isIdentifierStart '\uFEFF' = false := by decide +kernel
  rw [lexeme_eq (by decide) (fun _ _ h => absurd h (by decide)), token, hstart, hnumber, hsign]
  · rfl
  all_goals decide

theorem mem_tokensAmong_of_piece {pending : Bool} {pieces : List Piece} {piece : Piece} {tag : Tag}
    (hmem : piece ∈ pieces) (hlexeme : piece.lexeme = .token tag) :
    ⟨tag, piece.start, piece.stop⟩ ∈ tokensAmong pending pieces := by
  induction pieces generalizing pending with
  | nil => cases hmem
  | cons first pieces ih =>
      rw [tokensAmong]
      rcases List.mem_cons.mp hmem with rfl | hmem
      · rw [hlexeme]
        exact List.mem_cons_self
      · split
        · exact ih hmem
        · exact ih hmem
        · split
          · exact List.mem_cons_of_mem _ (ih hmem)
          · exact ih hmem
        · exact List.mem_cons_of_mem _ (ih hmem)

/-- Where no token is stray, no byte order mark begins the second text. -/
theorem head?_ne_mark {more : List Char} (hclosed : Closed text more)
    (hproper : ∀ token ∈ tokens (text ++ '\n' :: more), token.tag ≠ .stray) :
    more.head? ≠ some '\uFEFF' := by
  intro hmark
  obtain ⟨rest, rfl⟩ := List.head?_eq_some_iff.mp hmark
  obtain ⟨piece, hmem, hstray⟩ : ∃ piece ∈ pieces (text ++ '\n' :: '\uFEFF' :: rest),
      piece.lexeme = .token .stray := by
    rw [pieces_line hclosed, piecesAt_eq 0 (List.cons_ne_nil _ _), List.map_cons]
    exact ⟨_, List.mem_append_right _ (List.mem_cons_of_mem _ List.mem_cons_self), lexeme_mark rest⟩
  exact hproper _ (mem_tokensAmong_of_piece hmem hstray) rfl

end Assay.Syntax.Lexer
