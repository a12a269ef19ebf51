/-
What is left of a source when whole lines go. If stretches begin and end only
where a line does, at a line feed that is no part of a string or a comment, then
what is left is cut into the pieces that it had before. So its package clauses
are those that no stretch holds, and nothing in it is left open that was not.
-/
import Assay.Proofs.Syntax.Splitting
import Assay.Proofs.Syntax.TopLevel
import Assay.Proofs.TestFile.Cut
import Mathlib.Data.Nat.Find

namespace Assay.Syntax.Lexer

/-- Where the word `package` stands among pieces. -/
def keyPlaces (pieces : List Piece) : List Nat :=
  (pieces.filter (·.lexeme == .token (.keyword .packageKey))).map (·.start)

theorem keyPlaces_append (first more : List Piece) :
    keyPlaces (first ++ more) = keyPlaces first ++ keyPlaces more := by
  rw [keyPlaces, List.filter_append, List.map_append]
  rfl

theorem clauseWords_tokensAmong (pending : Bool) (pieces : List Piece) :
    clauseWords (tokensAmong pending pieces) = keyPlaces pieces := by
  unfold clauseWords keyPlaces
  induction pieces generalizing pending with
  | nil => rfl
  | cons piece pieces ih =>
      rw [tokensAmong]
      cases hpiece : piece.lexeme with
      | blank | comment => simp [hpiece, ih]
      | lineFeed => cases pending <;> simp [hpiece, ih]
      | token tag => by_cases hkey : tag = .keyword .packageKey <;> simp [hpiece, hkey, ih]

/-- Only tokens count. -/
theorem keyPlaces_filter (pieces : List Piece) :
    keyPlaces (pieces.filter (·.isToken)) = keyPlaces pieces := by
  rw [keyPlaces, List.filter_filter, keyPlaces]
  refine congrArg _ (List.filter_congr fun piece _ => ?_)
  unfold Piece.isToken
  cases piece.lexeme <;> simp

theorem keyPlaces_shift (offset : Nat) (pieces : List Piece) :
    keyPlaces (pieces.map (Piece.shift offset)) = (keyPlaces pieces).map (· + offset) := by
  rw [keyPlaces, keyPlaces, List.filter_map, List.map_map, List.map_map]
  rfl

theorem keyPlaces_cutAt {text more : List Char} (hcut : CutAt text more) :
    keyPlaces (piecesAt 0 (text ++ '\n' :: more)) = keyPlaces (piecesAt 0 text)
      ++ (keyPlaces (piecesAt 0 more)).map (· + (text.length + 1)) := by
  rw [hcut, keyPlaces_append, ← keyPlaces_shift]
  rfl

theorem lt_of_mem_keyPlaces {text : List Char} {i : Nat}
    (hmem : i ∈ keyPlaces (piecesAt 0 text)) : i < text.length := by
  obtain ⟨piece, hpiece, rfl⟩ := List.mem_map.mp hmem
  have placed := placed_of_mem_piecesAt (List.mem_of_mem_filter hpiece)
  exact Nat.lt_of_lt_of_le placed.some placed.within

end Assay.Syntax.Lexer

namespace Assay.TestFile

open Syntax Syntax.Lexer Text

variable {spans : List Span} {offset : Nat} {text more : List Char}

-- ================================================================ lines

/-- Stretches begin and end only where a line does, in a text that begins at an
offset. -/
def WholeFrom (spans : List Span) (offset : Nat) (text : List Char) : Prop :=
  ∀ i, i + 1 < text.length → held spans (offset + i) ≠ held spans (offset + i + 1) →
    ⟨.lineFeed, i, i + 1⟩ ∈ piecesAt 0 text

/-- Where a character of a text comes to stand. -/
def place (spans : List Span) (offset : Nat) (text : List Char) (i : Nat) : Nat :=
  (outside spans offset (text.take i)).length

/-- The words `package` that no stretch holds, where they come to stand. -/
def keptKeys (spans : List Span) (offset : Nat) (text : List Char) : List Nat :=
  ((keyPlaces (piecesAt 0 text)).filter fun i => !held spans (offset + i)).map
    (place spans offset text)

theorem place_append {i : Nat} (hi : i ≤ text.length) :
    place spans offset (text ++ more) i = place spans offset text i := by
  rw [place, List.take_append_of_le_length hi, place]

theorem place_line (i : Nat) :
    place spans offset (text ++ '\n' :: more) (i + (text.length + 1))
      = place spans (offset + text.length + 1) more i
        + (outside spans offset (text ++ ['\n'])).length := by
  have htake : (text ++ '\n' :: more).take (i + (text.length + 1))
      = text ++ ['\n'] ++ more.take i := by
    rw [List.append_cons, Nat.add_comm, show text.length + 1 = (text ++ ['\n']).length by simp,
      List.take_length_add_append]
  rw [place, htake, outside_append, List.length_append, Nat.add_comm, List.length_append]
  rfl

/-- The words that stay are those of the line and those after it. -/
theorem keptKeys_cutAt (hcut : CutAt text more) :
    keptKeys spans offset (text ++ '\n' :: more) = keptKeys spans offset text
      ++ (keptKeys spans (offset + text.length + 1) more).map
        (· + (outside spans offset (text ++ ['\n'])).length) := by
  rw [keptKeys, keyPlaces_cutAt hcut, List.filter_append, List.map_append, List.filter_map,
    List.map_map]
  refine congrArg₂ _ (List.map_congr_left fun i hmem => ?_) ?_
  · exact place_append (Nat.le_of_lt (lt_of_mem_keyPlaces (List.mem_of_mem_filter hmem)))
  · rw [keptKeys, List.map_map]
    have hheld (i : Nat) : held spans (offset + (i + (text.length + 1)))
        = held spans (offset + text.length + 1 + i) := by
      congr 1
      omega
    simp only [Function.comp_def, hheld, place_line]

section

variable {all : Bool} (huniform : ∀ i, i < text.length → held spans (offset + i) = all)

include huniform

theorem keptKeys_uniform :
    keptKeys spans offset text = if all then [] else keyPlaces (piecesAt 0 text) := by
  cases all with
  | true =>
      rw [keptKeys, List.filter_eq_nil_iff.mpr]
      · rfl
      · intro i hmem
        rw [huniform i (lt_of_mem_keyPlaces hmem)]
        exact Bool.false_ne_true
  | false =>
      have hstays : ∀ i ∈ keyPlaces (piecesAt 0 text), (!held spans (offset + i)) = true := by
        intro i hmem
        rw [huniform i (lt_of_mem_keyPlaces hmem)]
        rfl
      rw [keptKeys, List.filter_eq_self.mpr hstays]
      refine (List.map_congr_left fun i hmem => ?_).trans (List.map_id _)
      have hi := lt_of_mem_keyPlaces hmem
      have htake : ∀ j, j < (text.take i).length → held spans (offset + j) = false := by
        intro j hj
        rw [List.length_take] at hj
        exact huniform j (by omega)
      rw [place, outside_uniform htake]
      exact List.length_take_of_le (Nat.le_of_lt hi)

end

/-- What is left of a text is sound, and its words are those that stay. -/
structure LeftSound (spans : List Span) (offset : Nat) (text : List Char) : Prop where
  sound : AllSound (outside spans offset text)
  keys : keyPlaces (piecesAt 0 (outside spans offset text)) = keptKeys spans offset text

theorem leftSound_uniform (hsound : AllSound text) {all : Bool}
    (huniform : ∀ i, i < text.length → held spans (offset + i) = all) :
    LeftSound spans offset text := by
  have hleft := outside_uniform huniform
  have hkeys := keptKeys_uniform huniform
  cases all with
  | true => exact ⟨by rw [hleft]; exact nofun, by rw [hleft, hkeys]; rfl⟩
  | false => exact ⟨by rw [hleft]; exact hsound, by rw [hleft, hkeys]; rfl⟩

/-- A line of which all is held, or nothing, and what comes after it. -/
theorem leftSound_line (hcut : CutAt text more) (hsound : AllSound text) {all : Bool}
    (huniform : ∀ i, i ≤ text.length → held spans (offset + i) = all)
    (hmore : LeftSound spans (offset + text.length + 1) more) :
    LeftSound spans offset (text ++ '\n' :: more) := by
  have hline : ∀ i, i < (text ++ ['\n']).length → held spans (offset + i) = all := by
    intro i hi
    rw [List.length_append] at hi
    exact huniform i (Nat.le_of_lt_succ hi)
  have hleft : outside spans offset (text ++ '\n' :: more)
      = (if all then [] else text ++ ['\n']) ++ outside spans (offset + text.length + 1) more := by
    rw [List.append_cons, outside_append, outside_uniform hline, List.length_append]
    rfl
  have hkeys : keptKeys spans offset (text ++ '\n' :: more) = _ := keptKeys_cutAt hcut
  rw [outside_uniform hline, keptKeys_uniform fun i hi => huniform i (Nat.le_of_lt hi)] at hkeys
  cases all with
  | true =>
      refine ⟨hleft ▸ hmore.sound, ?_⟩
      rw [hleft, hkeys]
      exact hmore.keys.trans (List.map_id _).symm
  | false =>
      have hjoin := cutAt_of_sound hsound (outside spans (offset + text.length + 1) more)
      have hleft : outside spans offset (text ++ '\n' :: more)
          = text ++ '\n' :: outside spans (offset + text.length + 1) more := by
        rw [hleft]
        simp
      refine ⟨?_, ?_⟩
      · rw [hleft]
        exact (allSound_line hjoin).mpr ⟨hsound, hmore.sound⟩
      · rw [hleft, hkeys, keyPlaces_cutAt hjoin, hmore.keys]
        simp

/-- Between its changes, what is held stays the same. -/
theorem held_of_steps {n : Nat}
    (hsteps : ∀ i, i < n → held spans (offset + i) = held spans (offset + i + 1)) :
    ∀ i, i ≤ n → held spans (offset + i) = held spans offset := by
  intro i hi
  induction i with
  | zero => rfl
  | succ i ih => rw [← Nat.add_assoc, ← hsteps i hi, ih (Nat.le_of_succ_le hi)]

theorem leftSound (hsound : AllSound text) (whole : WholeFrom spans offset text) :
    LeftSound spans offset text := by
  induction hlength : text.length using Nat.strongRecOn generalizing text offset with
  | ind length ih =>
      by_cases hchange : ∃ i, i + 1 < text.length
          ∧ held spans (offset + i) ≠ held spans (offset + i + 1)
      · obtain ⟨hwithin, hother⟩ := Nat.find_spec hchange
        have hfirst : ∀ i, i < Nat.find hchange →
            held spans (offset + i) = held spans (offset + i + 1) := by
          intro i hi
          by_contra hdiffers
          exact Nat.find_min hchange hi ⟨by omega, hdiffers⟩
        have hfeed := whole _ hwithin hother
        generalize Nat.find hchange = last at hwithin hfirst hfeed
        have huniform := held_of_steps hfirst
        -- The first change comes after a line that is held as one, or not at all.
        obtain ⟨line, more, rfl, rfl⟩ := exists_of_lineFeed hfeed
        have hcut := cutAt_of_lineFeed hsound hfeed
        obtain ⟨hline, hmore⟩ := (allSound_line hcut).mp hsound
        refine leftSound_line hcut hline huniform (ih more.length ?_ hmore ?_ rfl)
        · rw [← hlength, List.length_append, List.length_cons]
          omega
        · intro i hi hdiffers
          refine mem_of_cutAt hcut ?_
          have hplace : offset + line.length + 1 + i = offset + (i + (line.length + 1)) := by
            omega
          rw [hplace] at hdiffers
          have hfeed' := whole (i + (line.length + 1)) (by simp; omega) hdiffers
          rwa [Nat.add_right_comm i] at hfeed'
      · simp only [not_exists, not_and, not_not] at hchange
        have huniform : ∀ i, i < text.length → held spans (offset + i) = held spans offset :=
          fun i hi => held_of_steps (fun j hj => hchange j (by omega)) i (Nat.le_sub_one_of_lt hi)
        exact leftSound_uniform hsound huniform

-- ============================================================== sources

variable {source : List Char}

/-- Stretches begin and end only where a line of the source does. -/
def WholeLines (spans : List Span) (source : List Char) : Prop :=
  ∀ i, i + 1 < source.length → held spans i ≠ held spans (i + 1) →
    ⟨.lineFeed, i, i + 1⟩ ∈ pieces source

instance : Decidable (WholeLines spans source) :=
  decidable_of_iff (∀ i ∈ List.range (source.length - 1), held spans i ≠ held spans (i + 1) →
      (⟨.lineFeed, i, i + 1⟩ : Piece) ∈ pieces source) <| by
    simp only [WholeLines, List.mem_range, Nat.lt_sub_iff_add_lt]

theorem WholeLines.unmarked (whole : WholeLines spans source) :
    WholeFrom spans 0 (unmarked source) := by
  intro i hi hdiffers
  rw [Nat.zero_add] at hdiffers
  rcases marked_cases source with ⟨rest, rfl⟩ | hmark
  · rcases List.mem_cons.mp (whole i hi hdiffers) with hfirst | hmem
    · cases hfirst
    · exact List.mem_cons_of_mem _ hmem
  · rw [unmarked_eq_self hmark] at hi ⊢
    rw [← pieces_eq hmark]
    exact whole i hi hdiffers

/-- The mark goes with the first line, or it stays. -/
theorem unmarked_outside (hsound : AllSound (outside spans 0 (unmarked source))) :
    unmarked (outside spans 0 source) = outside spans 0 (unmarked source) := by
  rcases marked_cases source with ⟨rest, rfl⟩ | hmark
  · show unmarked (outside spans 0 ('\uFEFF' :: rest)) = outside spans 0 ('\n' :: rest)
    have hsound : AllSound (outside spans 0 ('\n' :: rest)) := hsound
    rw [outside] at hsound ⊢
    split at hsound
    · next hheld =>
        rw [if_pos hheld, outside, if_pos hheld, unmarked_eq_self hsound.head?]
    · next hfree => rw [if_neg hfree, outside, if_neg hfree, unmarked]
  · rw [unmarked_eq_self hmark] at hsound ⊢
    exact unmarked_eq_self hsound.head?

theorem place_unmarked (i : Nat) :
    place spans 0 (unmarked source) i = place spans 0 source i := by
  rcases marked_cases source with ⟨rest, rfl⟩ | hmark
  · cases i with
    | zero => rfl
    | succ i =>
        show (outside spans 0 ('\n' :: rest.take i)).length
          = (outside spans 0 ('\uFEFF' :: rest.take i)).length
        rw [outside, outside]
        split <;> rfl
  · rw [unmarked_eq_self hmark]

theorem clauseWords_tokens (source : List Char) :
    clauseWords (tokens source) = keyPlaces (piecesAt 0 (unmarked source)) := by
  rw [tokens, clauseWords_tokensAmong, ← keyPlaces_filter, filter_pieces, keyPlaces_filter]

/-- A source without whole lines leaves nothing open that was not, and its package
clauses are those that stay. -/
theorem left_of_wholeLines (hsealed : Sealed source) (whole : WholeLines spans source) :
    Sealed (outside spans 0 source)
      ∧ clauseWords (tokens (outside spans 0 source))
        = ((clauseWords (tokens source)).filter fun i => !held spans i).map
          (place spans 0 source) := by
  have hleft := leftSound (sealed_iff.mp hsealed) whole.unmarked
  have hunmarked := unmarked_outside hleft.sound
  refine ⟨sealed_iff.mpr (hunmarked ▸ hleft.sound), ?_⟩
  rw [clauseWords_tokens, clauseWords_tokens, hunmarked, hleft.keys, keptKeys]
  simp only [Nat.zero_add]
  exact List.map_congr_left fun i _ => place_unmarked i

/-- So are its package clauses without the blanks at its end. -/
theorem clauseWords_trimEnd (hsealed : Sealed source) :
    clauseWords (tokens (trimEnd source)) = clauseWords (tokens source) := by
  have hfilter := filter_pieces_trimEnd fun piece hmem => (hsealed piece hmem).1
  rw [tokens, tokens, clauseWords_tokensAmong, clauseWords_tokensAmong, ← keyPlaces_filter,
    ← hfilter, keyPlaces_filter]

end Assay.TestFile
