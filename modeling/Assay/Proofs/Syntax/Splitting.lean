/-
Texts of which a part is taken. What stands before a line feed that is no part of
a string or a comment is cut as it was with the rest; so is a text without the
blanks at its end, but for a line comment there. The tokens in both cases are
those that the part had before.
-/
import Assay.Proofs.Syntax.Joining

namespace Assay.Syntax.Lexer

open Assay.Text

variable {source text gap more : List Char} {offset n : Nat} {piece : Piece}

-- =============================================================== pieces

theorem le_start_of_mem_piecesAt (hmem : piece ∈ piecesAt offset text) : offset ≤ piece.start := by
  have htext : (List.replicate offset ' ' ++ text).drop offset = text :=
    List.drop_left' List.length_replicate
  exact ((placed_piecesFrom text.length htext).1 piece hmem).1

theorem placed_of_mem_piecesAt (hmem : piece ∈ piecesAt 0 text) : Placed text piece :=
  ((placed_piecesFrom text.length List.drop_zero).1 piece hmem).2

/-- A piece is what the source begins with where it stands. -/
theorem lexeme_of_mem_piecesAt (htext : source.drop offset = text)
    (hmem : piece ∈ piecesAt offset text) :
    lexeme (source.drop piece.start) = (piece.lexeme, piece.stop - piece.start) := by
  induction offset, text using piecesAt_induction with
  | nil => cases hmem
  | cut offset text hnil ih =>
      rw [piecesAt_eq offset hnil] at hmem
      rcases List.mem_cons.mp hmem with rfl | hmem
      · rw [htext, Nat.add_sub_cancel_left]
      · refine ih ?_ hmem
        rw [← List.drop_drop, htext]

theorem eq_cons_of_lineFeed (hfeed : (lexeme text).1 = .lineFeed) :
    ∃ rest, text = '\n' :: rest := by
  unfold lexeme at hfeed
  split at hfeed
  · next rest => exact ⟨rest, rfl⟩
  · cases hfeed
  · split at hfeed <;> cases hfeed
  · split at hfeed <;> cases hfeed
  · cases hfeed

/-- A line ends where a line feed is a piece of its own. -/
theorem exists_of_lineFeed {stop : Nat} (hmem : ⟨.lineFeed, n, stop⟩ ∈ piecesAt 0 text) :
    ∃ line more, text = line ++ '\n' :: more ∧ line.length = n := by
  obtain ⟨more, hmore⟩ := eq_cons_of_lineFeed
    (congrArg Prod.fst (lexeme_of_mem_piecesAt List.drop_zero hmem))
  dsimp only at hmore
  have placed := placed_of_mem_piecesAt hmem
  have hle : n ≤ text.length := Nat.le_trans (Nat.le_of_lt placed.some) placed.within
  refine ⟨text.take n, more, ?_, List.length_take_of_le hle⟩
  rw [← hmore, List.take_append_drop]

/-- The piece is proper, and no slash where a comment begins that never ends. -/
def Sound (source : List Char) (piece : Piece) : Prop :=
  piece.lexeme ≠ .token .stray
    ∧ (piece.lexeme = .token (.sign .slash) →
      beginsWith ['/', '*'] (source.drop piece.start) = false)

theorem Sound.closedIn (sound : Sound source piece) (more : List Char) :
    ClosedIn source more piece := by
  refine ⟨sound.1, fun hslash hbegins => ?_⟩
  rw [sound.2 hslash] at hbegins
  cases hbegins

/-- The piece is a token. -/
def Piece.isToken (piece : Piece) : Bool :=
  match piece.lexeme with
  | .token _ => true
  | _ => false

theorem sound_of_not_isToken (htoken : piece.isToken = false) : Sound source piece := by
  unfold Piece.isToken at htoken
  split at htoken
  · cases htoken
  · next hother => exact ⟨fun h => absurd h (hother _), fun h => absurd h (hother _)⟩

-- ============================================================ line feeds

/-- A text is cut at a line feed that is a piece of its own. -/
theorem piecesAt_of_lineFeed
    (hproper : ∀ piece ∈ piecesAt offset (text ++ '\n' :: more), piece.lexeme ≠ .token .stray)
    (hfeed : ⟨.lineFeed, offset + text.length, offset + text.length + 1⟩
      ∈ piecesAt offset (text ++ '\n' :: more)) :
    piecesAt offset (text ++ '\n' :: more) = piecesAt offset text
      ++ ⟨.lineFeed, offset + text.length, offset + text.length + 1⟩
        :: piecesAt (offset + text.length + 1) more := by
  induction offset, text using piecesAt_induction with
  | nil offset =>
      rw [List.nil_append, piecesAt_eq _ (List.cons_ne_nil _ _)]
      rfl
  | cut offset text hnil ih =>
      rw [piecesAt_eq offset (by simp)] at hproper hfeed ⊢
      obtain ⟨hfirst, hrest⟩ := List.forall_mem_cons.mp hproper
      have hpositive := List.length_pos_iff.mpr hnil
      rcases List.mem_cons.mp hfeed with hhead | hfeed
      · have hstart := congrArg Piece.start hhead
        dsimp only at hstart
        omega
      -- The first piece ends before the line feed.
      have hle := le_start_of_mem_piecesAt hfeed
      have hlexeme := lexeme_of_gap rfl hnil hfirst (by dsimp only at hle; omega)
      obtain ⟨-, hwithin⟩ := lexeme_length hnil
      rw [hlexeme, drop_gap text more hwithin] at hrest hfeed ⊢
      rw [← offset_rest offset hnil] at hfeed
      rw [piecesAt_eq offset hnil, ih hrest hfeed, offset_rest offset hnil]
      rfl

/-- A text is cut at the line feed between its parts. -/
def CutAt (text more : List Char) : Prop :=
  piecesAt 0 (text ++ '\n' :: more) = piecesAt 0 text
      ++ ⟨.lineFeed, text.length, text.length + 1⟩
        :: (piecesAt 0 more).map (Piece.shift (text.length + 1))

/-- The pieces after the line feed are those of what comes after it. -/
theorem mem_of_cutAt (hcut : CutAt text more)
    (hmem : piece.shift (text.length + 1) ∈ piecesAt 0 (text ++ '\n' :: more)) :
    piece ∈ piecesAt 0 more := by
  rw [hcut] at hmem
  rcases List.mem_append.mp hmem with hmem | hmem
  · have placed := placed_of_mem_piecesAt hmem
    have hstart : piece.start + (text.length + 1) < piece.stop + (text.length + 1) := placed.some
    have hstop : piece.stop + (text.length + 1) ≤ text.length := placed.within
    omega
  · rcases List.mem_cons.mp hmem with hfeed | hmem
    · have hstart : piece.start + (text.length + 1) = text.length := congrArg Piece.start hfeed
      omega
    · obtain ⟨own, hown, hshift⟩ := List.mem_map.mp hmem
      obtain ⟨hlexeme, hstart, hstop⟩ := Piece.mk.inj hshift
      have hpiece : own = piece := by
        cases own
        cases piece
        exact Piece.mk.injEq .. ▸ ⟨hlexeme, Nat.add_right_cancel hstart, Nat.add_right_cancel hstop⟩
      exact hpiece ▸ hown

/-- Nothing in the text is stray, and no comment is left open. -/
def AllSound (text : List Char) : Prop := ∀ piece ∈ piecesAt 0 text, Sound text piece

theorem beginsWith_line {lead : List Char} (hlead : '\n' ∉ lead) (text more : List Char) :
    beginsWith lead (text ++ '\n' :: more) = beginsWith lead text :=
  after?_gap hlead text more

/-- A line and what comes after it are sound if both are. -/
theorem allSound_line (hcut : CutAt text more) :
    AllSound (text ++ '\n' :: more) ↔ AllSound text ∧ AllSound more := by
  have hfirst {piece : Piece} (hmem : piece ∈ piecesAt 0 text) :
      Sound (text ++ '\n' :: more) piece ↔ Sound text piece := by
    have placed := placed_of_mem_piecesAt hmem
    have hwithin : piece.start ≤ text.length :=
      Nat.le_trans (Nat.le_of_lt placed.some) placed.within
    rw [Sound, drop_gap text more hwithin, beginsWith_line (by decide), Sound]
  have hmore (piece : Piece) :
      Sound (text ++ '\n' :: more) (piece.shift (text.length + 1)) ↔ Sound more piece := by
    have hdrop : (text ++ '\n' :: more).drop (piece.start + (text.length + 1))
        = more.drop piece.start := by
      rw [Nat.add_comm, ← List.drop_drop, ← List.drop_drop, List.drop_left, List.drop_one,
        List.tail_cons]
    rw [Sound, Piece.shift, hdrop, Sound]
  unfold AllSound
  rw [hcut, List.forall_mem_append, List.forall_mem_cons, List.forall_mem_map]
  refine and_congr (forall₂_congr fun piece hmem => hfirst hmem) ?_
  rw [and_iff_right (sound_of_not_isToken rfl)]
  exact forall₂_congr fun piece _ => hmore piece

theorem cutAt_of_sound (hsound : AllSound text) (more : List Char) :
    CutAt text more := by
  rw [CutAt, piecesAt_line List.drop_zero fun piece hmem => (hsound piece hmem).closedIn more,
    ← piecesAt_shift, Nat.zero_add, Nat.zero_add]

theorem cutAt_of_lineFeed (hsound : AllSound (text ++ '\n' :: more))
    (hfeed : ⟨.lineFeed, text.length, text.length + 1⟩ ∈ piecesAt 0 (text ++ '\n' :: more)) :
    CutAt text more := by
  rw [← Nat.zero_add text.length] at hfeed
  rw [CutAt, piecesAt_of_lineFeed (fun piece hmem => (hsound piece hmem).1) hfeed,
    ← piecesAt_shift, Nat.zero_add, Nat.zero_add]

-- ================================================================ blanks

/-- There are no tokens in blanks. -/
theorem stray_of_allBlank (hgap : allBlank gap = true) {tag : Tag}
    (hmem : piece ∈ piecesAt offset gap) (hlexeme : piece.lexeme = .token tag) : tag = .stray := by
  rw [← Nat.zero_add offset, piecesAt_shift] at hmem
  obtain ⟨own, hown, rfl⟩ := List.mem_map.mp hmem
  by_contra hproper
  obtain ⟨c, hc, hvisible⟩ := ((placed_of_mem_piecesAt hown).edged tag hlexeme hproper).first
  rw [List.getElem?_drop] at hc
  rw [allBlank_iff.mp hgap c (List.mem_of_getElem? hc)] at hvisible
  cases hvisible

/-- A comment ends with its closing sign. -/
theorem getElem?_commentTail (htail : commentTail text = some n) : text[n - 1]? = some '/' := by
  fun_induction commentTail text generalizing n with
  | case1 => cases htail
  | case2 =>
      obtain rfl := Option.some.inj htail
      rfl
  | case3 c text hclose ih =>
      obtain ⟨m, hm, rfl⟩ := Option.map_eq_some_iff.mp htail
      obtain ⟨k, rfl⟩ := Nat.exists_eq_add_of_le' (Nat.le_of_succ_le (two_le_of_commentTail hm))
      exact ih hm

theorem isBlank_of_isSpace {c : Char} (hspace : isSpace c = true) : isBlank c = true := by
  have hall : [' ', '\t', '\r', '\x0b', '\x0c'].all isBlank = true := by decide +kernel
  refine List.all_eq_true.mp hall c ?_
  simpa [isSpace, or_assoc] using hspace

/-- What goes on after a text holds all of it. -/
theorem takeWhile_of_long {fits : Char → Bool}
    (hlong : text.length < ((text ++ more).takeWhile fits).length) :
    text.takeWhile fits = text := by
  rw [List.takeWhile_append] at hlong
  split at hlong
  · next hall => exact (List.takeWhile_prefix fits).eq_of_length hall
  · exact absurd (List.takeWhile_sublist fits).length_le (Nat.not_le_of_lt hlong)

theorem isBlank_of_append (hgap : allBlank gap = true) {c : Char} (hle : text.length ≤ n)
    (hc : (text ++ gap)[n]? = some c) : isBlank c = true := by
  rw [List.getElem?_append_right hle] at hc
  exact allBlank_iff.mp hgap c (List.mem_of_getElem? hc)

/-- Among the blanks at the end of a text ends no token, no block comment and no run
of blanks that begins before them. What ends there is a comment that goes to the
end of its line. -/
theorem lexeme_of_visible (htext : text ≠ []) (hlast : ∀ c ∈ text.getLast?, isBlank c = false)
    (hgap : allBlank gap = true) (hproper : (lexeme (text ++ gap)).1 ≠ .token .stray)
    (hlong : text.length < (lexeme (text ++ gap)).2) :
    (lexeme (text ++ gap)).1 = .comment ∧ lexeme text = (.comment, text.length) := by
  have hwithin := (lexeme_length (List.append_ne_nil_of_left_ne_nil htext gap)).2
  rw [List.length_append] at hwithin
  obtain ⟨g, others, rfl⟩ := List.exists_cons_of_length_pos (show 0 < gap.length by omega)
  have hg : isBlank g = true := allBlank_iff.mp hgap g List.mem_cons_self
  obtain ⟨c, rest, rfl⟩ := List.exists_cons_of_ne_nil htext
  by_cases hfeed : c = '\n'
  · subst hfeed
    exact absurd hlong (by simp [lexeme])
  by_cases hslash : ∀ d more, c = '/' → rest = d :: more → d ≠ '/' ∧ d ≠ '*'
  · have hnone := @no_comment_of_gap g hg c rest others hslash
    have hlexeme := lexeme_eq hfeed hnone
    rw [← List.cons_append] at hlexeme
    by_cases hspace : isSpace c
    · -- The text is a run of blanks then.
      rw [hlexeme, if_pos hspace] at hlong
      have hall := takeWhile_of_long hlong
      obtain ⟨last, hlast'⟩ := Option.ne_none_iff_exists'.mp (mt List.getLast?_eq_none_iff.mp htext)
      have hmem : last ∈ (c :: rest).takeWhile isSpace := hall.symm ▸ List.mem_of_getLast? hlast'
      have hvisible := hlast last hlast'
      rw [isBlank_of_isSpace (List.mem_takeWhile_imp hmem)] at hvisible
      cases hvisible
    · -- Tokens end with a visible character.
      rw [if_neg hspace] at hlexeme
      have htag := congrArg Prod.fst hlexeme
      rw [htag] at hproper
      obtain ⟨d, hd, hvisible⟩ := (edged_of_lexeme htag fun h => hproper (congrArg _ h)).last
      rw [isBlank_of_append hgap (by omega) hd] at hvisible
      cases hvisible
  · simp only [not_forall, not_and_or, not_not] at hslash
    obtain ⟨d, rest', rfl, rfl, rfl | rfl⟩ := hslash
    · have hlong : rest'.length < ((rest' ++ g :: others).takeWhile (· ≠ '\n')).length := by
        simp only [List.cons_append, lexeme, List.length_cons] at hlong
        omega
      refine ⟨rfl, ?_⟩
      rw [lexeme, takeWhile_of_long hlong, List.length_cons, List.length_cons, Nat.add_comm]
    · cases htail : commentTail (rest' ++ g :: others) with
      | none => exact absurd hlong (by simp [lexeme, htail])
      | some n =>
          have hlong : rest'.length < n := by simpa [lexeme, htail] using hlong
          have hclose := isBlank_of_append hgap (by omega) (getElem?_commentTail htail)
          exact absurd hclose (by decide)

/-- A text has the same tokens without the blanks at its end. -/
theorem tokens_of_visible (hlast : ∀ c ∈ text.getLast?, isBlank c = false)
    (hgap : allBlank gap = true)
    (hproper : ∀ piece ∈ piecesAt offset (text ++ gap), piece.lexeme ≠ .token .stray) :
    (piecesAt offset (text ++ gap)).filter (·.isToken)
      = (piecesAt offset text).filter (·.isToken) := by
  have hblanks {offset : Nat} {gap : List Char} (hgap : allBlank gap = true)
      (hproper : ∀ piece ∈ piecesAt offset gap, piece.lexeme ≠ .token .stray) :
      (piecesAt offset gap).filter (·.isToken) = [] := by
    refine List.filter_eq_nil_iff.mpr fun piece hmem htoken => ?_
    unfold Piece.isToken at htoken
    split at htoken
    · next tag htag =>
        obtain rfl := stray_of_allBlank hgap hmem htag
        exact hproper piece hmem htag
    · cases htoken
  induction offset, text using piecesAt_induction with
  | nil => exact hblanks hgap hproper
  | cut offset text hnil ih =>
      have hjoined := List.append_ne_nil_of_left_ne_nil hnil gap
      rw [piecesAt_eq offset hjoined] at hproper ⊢
      obtain ⟨hfirst, hrest⟩ := List.forall_mem_cons.mp hproper
      obtain ⟨-, hwithin⟩ := lexeme_length hnil
      by_cases hlong : text.length < (lexeme (text ++ gap)).2
      · obtain ⟨hcomment, hlexeme⟩ := lexeme_of_visible hnil hlast hgap hfirst hlong
        have hblank : allBlank ((text ++ gap).drop (lexeme (text ++ gap)).2) = true := by
          refine allBlank_iff.mpr fun c hc => allBlank_iff.mp hgap c ?_
          rw [List.drop_append, List.drop_of_length_le (by omega)] at hc
          exact List.mem_of_mem_drop hc
        rw [piecesAt_eq offset hnil, hlexeme, List.drop_length, List.filter_cons_of_neg,
          List.filter_cons_of_neg, hblanks hblank hrest]
        · rfl
        · simp [Piece.isToken]
        · simp [Piece.isToken, hcomment]
      · have hlexeme : lexeme (text ++ gap) = lexeme text := by
          cases gap with
          | nil => rw [List.append_nil]
          | cons g gap =>
              have hg : isBlank g = true := allBlank_iff.mp hgap g List.mem_cons_self
              exact lexeme_of_gap hg hnil hfirst (by omega)
        rw [hlexeme, List.drop_append_of_le_length hwithin] at hrest ⊢
        have hlast' : ∀ c ∈ (text.drop (lexeme text).2).getLast?, isBlank c = false := by
          intro c hc
          rw [List.getLast?_drop] at hc
          split at hc
          · cases hc
          · exact hlast c hc
        rw [piecesAt_eq offset hnil, List.filter_cons, List.filter_cons, ih hlast' hrest]

-- ============================================================== sources

/-! A byte order mark makes the first piece of a source blank; the others are cut as
after a line feed. -/

/-- A source with a line feed for its byte order mark. -/
def unmarked : List Char → List Char
  | '\uFEFF' :: rest => '\n' :: rest
  | source => source

theorem unmarked_eq_self (hmark : source.head? ≠ some '\uFEFF') : unmarked source = source := by
  unfold unmarked
  split
  · exact absurd rfl hmark
  · rfl

/-- A source is one without a mark, or it begins with one. -/
theorem marked_cases (source : List Char) :
    (∃ rest, source = '\uFEFF' :: rest) ∨ source.head? ≠ some '\uFEFF' := by
  by_cases hmark : source.head? = some '\uFEFF'
  · exact .inl (List.head?_eq_some_iff.mp hmark)
  · exact .inr hmark

theorem filter_pieces (source : List Char) :
    (pieces source).filter (·.isToken) = (piecesAt 0 (unmarked source)).filter (·.isToken) := by
  rcases marked_cases source with ⟨rest, rfl⟩ | hmark
  · rfl
  · rw [pieces_eq hmark, unmarked_eq_self hmark]

/-- A proper text does not begin with a mark. -/
theorem AllSound.head? (hsound : AllSound text) : text.head? ≠ some '\uFEFF' := by
  intro hmark
  obtain ⟨rest, rfl⟩ := List.head?_eq_some_iff.mp hmark
  rw [AllSound, piecesAt_eq 0 (List.cons_ne_nil _ _)] at hsound
  exact (hsound _ List.mem_cons_self).1 (lexeme_mark rest)

/-- Nothing in the source is stray, and no comment in it is left open. -/
def Sealed (source : List Char) : Prop := ∀ piece ∈ pieces source, Sound source piece

/-- Only tokens count. -/
theorem sound_iff_filter {pieces : List Piece} : (∀ piece ∈ pieces, Sound source piece)
    ↔ ∀ piece ∈ pieces.filter (·.isToken), Sound source piece := by
  refine ⟨fun hall piece hmem => hall piece (List.mem_of_mem_filter hmem), ?_⟩
  intro hall piece hmem
  cases htoken : piece.isToken with
  | false => exact sound_of_not_isToken htoken
  | true => exact hall piece (List.mem_filter.mpr ⟨hmem, htoken⟩)

theorem sealed_iff : Sealed source ↔ AllSound (unmarked source) := by
  rw [Sealed, AllSound, sound_iff_filter, filter_pieces, @sound_iff_filter (unmarked source)]
  refine forall₂_congr fun piece hmem => ?_
  have hdrop : source.drop piece.start = (unmarked source).drop piece.start := by
    rcases marked_cases source with ⟨rest, rfl⟩ | hmark
    · -- No token stands where the mark does.
      obtain ⟨hmem, htoken⟩ := List.mem_filter.mp hmem
      rcases List.mem_cons.mp hmem with rfl | hmem
      · cases htoken
      · obtain ⟨place, hplace⟩ := Nat.exists_eq_add_of_le' (le_start_of_mem_piecesAt hmem)
        rw [hplace]
        rfl
    · rw [unmarked_eq_self hmark]
  rw [Sound, hdrop, Sound]

/-- A source has the same tokens without the blanks at its end. -/
theorem filter_pieces_trimEnd (hproper : ∀ piece ∈ pieces source, piece.lexeme ≠ .token .stray) :
    (pieces source).filter (·.isToken) = (pieces (trimEnd source)).filter (·.isToken) := by
  have htrim {text : List Char} {offset : Nat}
      (hproper : ∀ piece ∈ piecesAt offset text, piece.lexeme ≠ .token .stray) :
      (piecesAt offset text).filter (·.isToken)
        = (piecesAt offset (trimEnd text)).filter (·.isToken) := by
    obtain ⟨gap, hgap, htext⟩ := exists_trimEnd text
    rw [htext] at hproper
    have htokens := tokens_of_visible (fun c => isBlank_getLast?_trimEnd) hgap hproper
    rwa [← htext] at htokens
  rcases marked_cases source with ⟨rest, rfl⟩ | hmark
  · have hmark : trimEnd (['\uFEFF'] ++ rest) = ['\uFEFF'] ++ trimEnd rest := by
      refine trimEnd_append (fun c hlast => ?_) rest
      obtain rfl := Option.some.inj hlast
      rfl
    rw [List.singleton_append, List.singleton_append] at hmark
    rw [pieces_mark] at hproper
    rw [hmark, pieces_mark, pieces_mark]
    exact htrim (List.forall_mem_cons.mp hproper).2
  · have hmark' : (trimEnd source).head? ≠ some '\uFEFF' := by
      intro hhead
      obtain ⟨gap, -, hsource⟩ := exists_trimEnd source
      rw [hsource, List.head?_append, hhead] at hmark
      exact hmark rfl
    rw [pieces_eq hmark] at hproper ⊢
    rw [pieces_eq hmark']
    exact htrim hproper

theorem sealed_trimEnd (hsealed : Sealed source) : Sealed (trimEnd source) := by
  have htokens := filter_pieces_trimEnd fun piece hmem => (hsealed piece hmem).1
  refine sound_iff_filter.mpr fun piece hmem => ?_
  have within := placed_of_mem_pieces (List.mem_of_mem_filter hmem)
  rw [← htokens] at hmem
  obtain ⟨hproper, hopen⟩ := hsealed piece (List.mem_of_mem_filter hmem)
  refine ⟨hproper, fun hslash => Bool.eq_false_iff.mpr fun hbegins => ?_⟩
  obtain ⟨gap, -, hsource⟩ := exists_trimEnd source
  obtain ⟨rest, hrest⟩ := eq_append_of_beginsWith hbegins
  have hle : piece.start ≤ (trimEnd source).length :=
    Nat.le_trans (Nat.le_of_lt within.some) within.within
  have hnot := hopen hslash
  rw [hsource, List.drop_append_of_le_length hle, hrest, List.append_assoc, beginsWith,
    after?_append] at hnot
  cases hnot

end Assay.Syntax.Lexer
