/-
Where the tokens of a source lie. The pieces of a source tile it, so tokens and
comments come in order and none overlaps another; and a token of the text proper
begins and ends with a character that is not blank, so that no line break is
part of its ends.
-/
import Assay.Proofs.Syntax.Reading
import Assay.Proofs.Text.Identifier
import Assay.Proofs.Text.Search
import Assay.Syntax.Lexer
import Mathlib.Data.List.Pairwise

namespace Assay.Syntax.Lexer

open Assay.Text

-- ============================================================= visible

/-- The text has this many characters at its front, and none of them is
blank. -/
def Visible (n : Nat) (text : List Char) : Prop :=
  n ≤ text.length ∧ ∀ c ∈ text.take n, isBlank c = false

variable {m n : Nat} {c : Char} {text : List Char}

theorem visible_zero (text : List Char) : Visible 0 text := ⟨Nat.zero_le _, nofun⟩

theorem visible_cons (hc : isBlank c = false) (htext : Visible n text) :
    Visible (n + 1) (c :: text) := by
  refine ⟨Nat.succ_le_succ htext.1, ?_⟩
  rw [List.take_succ_cons]
  exact List.forall_mem_cons.mpr ⟨hc, htext.2⟩

/-- What is visible up to some place and from there on is visible altogether. -/
theorem visible_add (hfirst : Visible n text) (hmore : Visible m (text.drop n)) :
    Visible (n + m) text := by
  obtain ⟨hlength, hfirst⟩ := hfirst
  obtain ⟨hlength', hmore⟩ := hmore
  rw [List.length_drop] at hlength'
  refine ⟨by omega, ?_⟩
  rw [List.take_add]
  exact List.forall_mem_append.mpr ⟨hfirst, hmore⟩

/-- Of two readings of a text, the longer is visible if both are. -/
theorem visible_max (hfirst : Visible m text) (hmore : Visible n text) :
    Visible (max m n) text := by
  rcases Nat.le_total m n with hle | hle
  · rwa [Nat.max_eq_right hle]
  · rwa [Nat.max_eq_left hle]

-- ============================================================== numbers

/-- The digits are not blank. -/
def Plain (isDigit : Char → Bool) : Prop := ∀ c, isDigit c = true → isBlank c = false

/-- No blank is a digit: it is enough to try the code points of the blanks. -/
theorem plain_of_points {isDigit : Char → Bool}
    (hnone : ∀ n ∈ blankPoints, isDigit (Char.ofNat n) = false) : Plain isDigit :=
  fun _ => isBlank_of_class hnone

theorem plain_isDigit : Plain Char.isDigit := plain_of_points (by decide)

theorem plain_isHex : Plain isHex := plain_of_points (by decide)

theorem plain_isOctal : Plain isOctal := plain_of_points (by decide)

theorem plain_binary : Plain fun c => c = '0' || c = '1' := plain_of_points (by decide)

variable {isDigit : Char → Bool}

/-- The underscores between digits are visible like the digits. -/
theorem visible_digitsTail (plain : Plain isDigit) (text : List Char) :
    Visible (digitsTail isDigit text) text := by
  induction text using digitsTail.induct isDigit with
  | case1 => exact visible_zero _
  | case2 c hdigit =>
      rw [digitsTail, if_pos hdigit]
      exact visible_cons (plain c hdigit) (visible_zero _)
  | case3 c hdigit =>
      rw [digitsTail, if_neg hdigit]
      exact visible_zero _
  | case4 c d text hdigit ih =>
      rw [digitsTail, if_pos hdigit, Nat.add_comm]
      exact visible_cons (plain c hdigit) ih
  | case5 c d text hdigit hscore ih =>
      rw [digitsTail, if_neg hdigit, if_pos hscore, Nat.add_comm]
      simp only [Bool.and_eq_true, decide_eq_true_eq] at hscore
      obtain ⟨rfl, hd⟩ := hscore
      exact visible_cons rfl (visible_cons (plain d hd) ih)
  | case6 c d text hdigit hscore =>
      rw [digitsTail, if_neg hdigit, if_neg hscore]
      exact visible_zero _

/-- A run of digits begins with a digit, or it is empty. -/
theorem visible_digits (plain : Plain isDigit) (text : List Char) :
    Visible (digits isDigit text) text := by
  cases text with
  | nil => exact visible_zero _
  | cons c text =>
      rw [digits]
      split
      · next hdigit =>
          rw [Nat.add_comm]
          exact visible_cons (plain c hdigit) (visible_digitsTail plain text)
      · exact visible_zero _

/-- An underscore after the base counts only with digits behind it. -/
theorem visible_digitsAfterBase (plain : Plain isDigit) (text : List Char) :
    Visible (digitsAfterBase isDigit text) text := by
  unfold digitsAfterBase
  split
  · next text =>
      have hdigits := visible_digits plain text
      cases hn : digits isDigit text with
      | zero => exact visible_zero _
      | succ n =>
          rw [hn] at hdigits
          exact visible_cons rfl hdigits
  · exact visible_digits plain _

/-- What stands before digits, a base or the letter of an exponent, counts together with
them and not without them. -/
theorem visible_grow (hfirst : Visible m text) (hmore : Visible n (text.drop m)) :
    Visible (grow m n) text := by
  cases n with
  | zero => exact visible_zero _
  | succ n =>
      show Visible (n + 1 + m) text
      rw [Nat.add_comm]
      exact visible_add hfirst hmore

/-- A zero and the letter of a base. -/
private theorem visible_base (hc : isBlank c = false) (text : List Char) :
    Visible 2 ('0' :: c :: text) :=
  visible_cons rfl (visible_cons hc (visible_zero _))

/-- The cases are the bases. Each reading is the zero, the letter and the digits, and
the longest one is taken. -/
theorem visible_int (text : List Char) : Visible (int text) text := by
  unfold int
  split
  · next rest =>
      have hzero : Visible 1 ('0' :: rest) := visible_cons rfl (visible_zero _)
      refine visible_max hzero ?_
      split
      · exact visible_grow (visible_base rfl _) (visible_digitsAfterBase plain_isHex _)
      · exact visible_grow (visible_base rfl _) (visible_digitsAfterBase plain_isHex _)
      · exact visible_grow (visible_base rfl _) (visible_digitsAfterBase plain_binary _)
      · exact visible_grow (visible_base rfl _) (visible_digitsAfterBase plain_binary _)
      · exact visible_grow (visible_base rfl _) (visible_digitsAfterBase plain_isOctal _)
      · exact visible_grow (visible_base rfl _) (visible_digitsAfterBase plain_isOctal _)
      · exact visible_grow hzero (visible_digitsAfterBase plain_isOctal _)
  · exact visible_digits plain_isDigit _

/-- An exponent adds nothing or something visible to a number. -/
theorem visible_exponent (plain : Plain isDigit) (text : List Char) :
    Visible (exponent isDigit text) text := by
  unfold exponent
  split
  · next c text =>
      split
      · next hletter =>
          exact visible_grow (visible_cons (plain c hletter) (visible_cons rfl (visible_zero _)))
            (visible_digits plain_isDigit _)
      · exact visible_zero _
  · next c text =>
      split
      · next hletter =>
          exact visible_grow (visible_cons (plain c hletter) (visible_cons rfl (visible_zero _)))
            (visible_digits plain_isDigit _)
      · exact visible_zero _
  · next c text _ _ =>
      split
      · next hletter =>
          exact visible_grow (visible_cons (plain c hletter) (visible_zero _))
            (visible_digits plain_isDigit _)
      · exact visible_zero _
  · exact visible_zero _

/-- A number goes on after its point. -/
private theorem visible_point {n m : Nat} {text rest : List Char} (htext : Visible n text)
    (hrest : text.drop n = '.' :: rest) (hmore : Visible m rest) : Visible (n + 1 + m) text := by
  have hpoint := visible_cons (c := '.') rfl hmore
  rw [← hrest] at hpoint
  rw [Nat.add_assoc, Nat.add_comm 1]
  exact visible_add htext hpoint

/-- A point without digits before it needs some behind it; else digits, point, fraction
and exponent are read one after the other. -/
theorem visible_decimalFloat (text : List Char) : Visible (decimalFloat text) text := by
  have hdigits := visible_digits plain_isDigit text
  have plain : Plain fun c => c = 'e' || c = 'E' := plain_of_points (by decide)
  have hexponent := visible_exponent plain
  unfold decimalFloat
  generalize digits Char.isDigit text = n at hdigits
  split
  · next rest hrest =>
      have hfraction := visible_digits plain_isDigit rest
      rw [List.drop_zero] at hrest
      subst hrest
      split
      · exact visible_zero _
      · rw [Nat.add_comm 1]
        exact visible_add (visible_cons rfl hfraction) (hexponent _)
  · exact visible_zero _
  · next rest _ hrest =>
      have hfraction := visible_add (visible_digits plain_isDigit rest) (hexponent _)
      have hnumber := visible_point hdigits hrest hfraction
      rw [← Nat.add_assoc] at hnumber
      exact hnumber
  · exact visible_grow hdigits (hexponent _)

/-- The length of hexadecimal digits with a point among them, or without one. -/
def mantissa (text : List Char) : Nat :=
  match text.drop (digitsAfterBase isHex text) with
  | '.' :: rest =>
    if digitsAfterBase isHex text = 0 && digits isHex rest = 0 then 0
    else digitsAfterBase isHex text + 1 + digits isHex rest
  | _ => digitsAfterBase isHex text

/-- Both letters of the base are read alike. -/
theorem hexFloat_eq {base : Char} (hbase : base = 'x' ∨ base = 'X') (text : List Char) :
    hexFloat ('0' :: base :: text) = if mantissa text = 0 then 0
      else grow (2 + mantissa text) (binaryExponent (text.drop (mantissa text))) := by
  rcases hbase with rfl | rfl <;> rfl

theorem visible_mantissa (text : List Char) : Visible (mantissa text) text := by
  have hwhole := visible_digitsAfterBase plain_isHex text
  unfold mantissa
  split
  · next rest hrest =>
      split
      · exact visible_zero _
      · exact visible_point hwhole hrest (visible_digits plain_isHex rest)
  · exact hwhole

private theorem visible_scaled {c : Char} {mantissa : Nat} {text : List Char}
    (hc : isBlank c = false) (htext : Visible mantissa text) :
    Visible (if mantissa = 0 then 0 else
      grow (2 + mantissa) (exponent (fun c => c = 'p' || c = 'P') (text.drop mantissa)))
      ('0' :: c :: text) := by
  have plain : Plain fun c => c = 'p' || c = 'P' := plain_of_points (by decide)
  split
  · exact visible_zero _
  · refine visible_grow (visible_add (visible_base hc text) htext) ?_
    rw [← List.drop_drop]
    exact visible_exponent plain _

theorem visible_hexFloat (text : List Char) : Visible (hexFloat text) text := by
  unfold hexFloat
  split
  · exact visible_scaled rfl (visible_mantissa _)
  · exact visible_scaled rfl (visible_mantissa _)
  · exact visible_zero _

theorem visible_float (text : List Char) : Visible (float text) text :=
  visible_max (visible_decimalFloat text) (visible_hexFloat text)

/-- The unit stands directly behind the number, and it is visible. -/
theorem visible_imaginary (text : List Char) : Visible (imaginary text) text := by
  have hclosed {n : Nat} (htext : Visible n text) :
      Visible (if n ≠ 0 && (text.drop n).head? = some 'i' then n + 1 else 0) text := by
    split
    · next hn =>
        obtain ⟨-, hunit⟩ := Bool.and_eq_true_iff.mp hn
        refine visible_add htext ?_
        cases hrest : text.drop n with
        | nil => simp [hrest] at hunit
        | cons c rest =>
            obtain rfl : c = 'i' := by simpa [hrest] using hunit
            exact visible_cons rfl (visible_zero _)
    · exact visible_zero _
  exact visible_max (hclosed (visible_digits plain_isDigit _))
    (visible_max (hclosed (visible_int _)) (hclosed (visible_float _)))

/-- A number is visible, and there is some of it. -/
theorem visible_number? {tag : Tag} (hnumber : number? text = some (tag, n)) :
    Visible n text ∧ n ≠ 0 := by
  simp only [number?] at hnumber
  split at hnumber
  · cases hnumber
  · next hsome =>
      simp only [Bool.and_eq_true, decide_eq_true_eq, not_and] at hsome
      split at hnumber
      · next hlong =>
          obtain ⟨-, rfl⟩ := Prod.mk.inj (Option.some.inj hnumber)
          exact ⟨visible_imaginary text, by omega⟩
      · split at hnumber
        · next hlong =>
            obtain ⟨-, rfl⟩ := Prod.mk.inj (Option.some.inj hnumber)
            exact ⟨visible_float text, by omega⟩
        · next hlong =>
            obtain ⟨-, rfl⟩ := Prod.mk.inj (Option.some.inj hnumber)
            exact ⟨visible_int text, fun hzero => by
              have := hsome hzero
              omega⟩

/-- No blank is part of an identifier. -/
theorem visible_word (text : List Char) :
    Visible (text.takeWhile isIdentifierPart).length text := by
  refine ⟨(List.takeWhile_sublist _).length_le, fun c hc => ?_⟩
  rw [← List.prefix_iff_eq_take.mp (List.takeWhile_prefix isIdentifierPart)] at hc
  exact isBlank_of_isIdentifierPart (List.mem_takeWhile_imp hc)

-- ================================================================= ends

/-- The text has this many characters at its front, at least one, and neither
the first nor the last of them is blank. -/
structure Edged (n : Nat) (text : List Char) : Prop where
  some : n ≠ 0
  within : n ≤ text.length
  first : ∃ c, text[0]? = .some c ∧ isBlank c = false
  last : ∃ c, text[n - 1]? = .some c ∧ isBlank c = false

/-- What is visible as a whole is so at its ends. -/
theorem edged_of_visible (visible : Visible n text) (hsome : n ≠ 0) : Edged n text := by
  obtain ⟨hlength, hvisible⟩ := visible
  have hplace (i : Nat) (hi : i < n) : ∃ c, text[i]? = some c ∧ isBlank c = false := by
    refine ⟨text[i], List.getElem?_eq_getElem (by omega), hvisible _ ?_⟩
    exact List.mem_take_iff_getElem.mpr ⟨i, by omega, rfl⟩
  exact ⟨hsome, hlength, hplace 0 (by omega), hplace (n - 1) (by omega)⟩

/-- The text has this many characters up to the first closing one. -/
def ClosedBy (close : Char) (n : Nat) (text : List Char) : Prop :=
  ∃ body more, text = body ++ close :: more ∧ n = body.length + 1

theorem closedBy_cons {close : Char} (closed : ClosedBy close n text) (c : Char) :
    ClosedBy close (n + 1) (c :: text) := by
  obtain ⟨body, more, rfl, rfl⟩ := closed
  exact ⟨c :: body, more, rfl, rfl⟩

/-- What is quoted begins and ends with its quotes. -/
theorem edged_of_closedBy {quote close : Char} (hquote : isBlank quote = false)
    (hclose : isBlank close = false) (closed : ClosedBy close n text) :
    Edged (n + 1) (quote :: text) := by
  obtain ⟨body, more, rfl, rfl⟩ := closed
  refine ⟨by omega, by simp, ⟨quote, rfl, hquote⟩, ⟨close, ?_, hclose⟩⟩
  simp

/-- A string ends at the first quote that no backslash escapes. -/
theorem closedBy_quotedTail (htail : quotedTail text = some n) : ClosedBy '\x22' n text := by
  fun_induction quotedTail text generalizing n with
  | case1 => cases htail
  | case2 text =>
      obtain rfl := Option.some.inj htail
      exact ⟨[], text, rfl, rfl⟩
  | case3 text => cases htail
  | case4 c text enough henough =>
      rename_i ih
      obtain ⟨m, hm, rfl⟩ := Option.map_eq_some_iff.mp htail
      exact closedBy_cons (closedBy_cons (ih hm) c) _
  | case5 c text henough => cases htail
  | case6 => cases htail
  | case7 c text _ _ _ _ ih =>
      obtain ⟨m, hm, rfl⟩ := Option.map_eq_some_iff.mp htail
      exact closedBy_cons (ih hm) c

theorem closedBy_rawTail (htail : rawTail text = some n) : ClosedBy '\x60' n text := by
  induction text generalizing n with
  | nil => cases htail
  | cons c text ih =>
      unfold rawTail at htail
      split at htail
      · cases htail
      · next more heq =>
          obtain ⟨rfl, rfl⟩ := List.cons.inj heq
          obtain rfl := Option.some.inj htail
          exact ⟨[], text, rfl, rfl⟩
      · next heq =>
          obtain ⟨rfl, rfl⟩ := List.cons.inj heq
          obtain ⟨m, hm, rfl⟩ := Option.map_eq_some_iff.mp htail
          exact closedBy_cons (ih hm) c

/-- As many digits are read as are wanted, and they are what is missing from the rest. -/
theorem length_hexDigits? {rest : List Char} (hdigits : hexDigits? n text = some rest) :
    ∃ digits, digits.length = n ∧ text = digits ++ rest := by
  induction n generalizing text with
  | zero =>
      obtain rfl := Option.some.inj hdigits
      exact ⟨[], rfl, rfl⟩
  | succ n ih =>
      cases text with
      | nil => cases hdigits
      | cons c text =>
          simp only [hexDigits?] at hdigits
          split at hdigits
          · obtain ⟨digits, rfl, rfl⟩ := ih hdigits
            exact ⟨c :: digits, rfl, rfl⟩
          · cases hdigits

/-- An escape with a fixed number of hexadecimal digits. -/
private theorem closedBy_hexDigits? {count : Nat} {rest : List Char} (c : Char)
    (hdigits : hexDigits? count text = some ('\x27' :: rest)) :
    ClosedBy '\x27' (count + 3) ('\x5c' :: c :: text) := by
  obtain ⟨digits, rfl, rfl⟩ := length_hexDigits? hdigits
  exact closedBy_cons (closedBy_cons ⟨digits, rest, rfl, rfl⟩ c) _

/-- All shapes of a rune end with the closing quote; they differ in what stands before
it. -/
theorem closedBy_runeTail (htail : runeTail text = some n) : ClosedBy '\x27' n text := by
  unfold runeTail at htail
  split at htail
  · split at htail
    · next a b text _ =>
        obtain rfl := Option.some.inj htail
        exact ⟨['\x5c', 'x', a, b], text, rfl, rfl⟩
    · cases htail
  · split at htail
    · next hdigits =>
        obtain rfl := Option.some.inj htail
        exact closedBy_hexDigits? _ hdigits
    · cases htail
  · split at htail
    · next hdigits =>
        obtain rfl := Option.some.inj htail
        exact closedBy_hexDigits? _ hdigits
    · cases htail
  · next c text _ _ _ =>
      split at htail
      · obtain rfl := Option.some.inj htail
        exact ⟨['\x5c', c], text, rfl, rfl⟩
      · cases htail
  · next a b c text _ _ _ _ =>
      split at htail
      · obtain rfl := Option.some.inj htail
        exact ⟨['\x5c', a, b, c], text, rfl, rfl⟩
      · cases htail
  · cases htail
  · next c text _ _ _ =>
      split at htail
      · cases htail
      · obtain rfl := Option.some.inj htail
        exact ⟨[c], text, rfl, rfl⟩
  · cases htail

/-- A sign is spelled with visible characters only, as the table of spellings shows. -/
theorem edged_sign? {sign : Sign} (hsign : sign? text = some (sign, n)) : Edged n text := by
  obtain ⟨⟨spelling, found⟩, hfound, hpair⟩ := Option.map_eq_some_iff.mp hsign
  have hbegins := List.find?_some hfound
  dsimp only at hbegins
  obtain ⟨rest, rfl⟩ := eq_append_of_beginsWith hbegins
  obtain ⟨-, rfl⟩ := Prod.mk.inj hpair
  have hspellings : (Sign.spellings.all fun entry =>
      !entry.1.isEmpty && entry.1.all fun c => !isBlank c) = true := by decide +kernel
  have hspelling := List.all_eq_true.mp hspellings _ (List.mem_of_find?_eq_some hfound)
  simp only [Bool.and_eq_true, Bool.not_eq_true', List.isEmpty_eq_false_iff,
    List.all_eq_true] at hspelling
  obtain ⟨hsome, hvisible⟩ := hspelling
  refine edged_of_visible ⟨by simp, ?_⟩ (by simpa using hsome)
  rw [List.take_left']
  · exact hvisible
  · rfl

-- =============================================================== tokens

/-- A token takes at least one character, and no more than there are; unless it
is stray, it has visible ends. -/
theorem token_edges (htext : text ≠ []) :
    0 < (token text).2 ∧ (token text).2 ≤ text.length
      ∧ ((token text).1 ≠ .stray → Edged (token text).2 text) := by
  have hedged {n : Nat} {text : List Char} {tag : Tag} (edged : Edged n text) :
      0 < n ∧ n ≤ text.length ∧ (tag ≠ .stray → Edged n text) :=
    ⟨Nat.pos_of_ne_zero edged.some, edged.within, fun _ => edged⟩
  unfold token
  split
  · next rest =>
      split
      · next n htail => exact hedged (edged_of_closedBy rfl rfl (closedBy_quotedTail htail))
      · have hline := (List.takeWhile_sublist (· ≠ '\n') (l := rest)).length_le
        exact ⟨by omega, by rw [List.length_cons]; omega, fun hsolid => absurd rfl hsolid⟩
  · next rest =>
      split
      · next n htail => exact hedged (edged_of_closedBy rfl rfl (closedBy_rawTail htail))
      · exact ⟨by omega, by rw [List.length_cons]; omega, fun hsolid => absurd rfl hsolid⟩
  · next rest =>
      split
      · next n htail => exact hedged (edged_of_closedBy rfl rfl (closedBy_runeTail htail))
      · exact ⟨by omega, by rw [List.length_cons]; omega, fun hsolid => absurd rfl hsolid⟩
  · next c rest _ _ _ =>
      split
      · next hstart =>
          have hpart := isIdentifierPart_of_isIdentifierStart hstart
          refine hedged (edged_of_visible (visible_word _) ?_)
          rw [List.takeWhile_cons, if_pos hpart]
          exact Nat.succ_ne_zero _
      · split
        · next found hnumber =>
            obtain ⟨hvisible, hsome⟩ := visible_number? hnumber
            exact hedged (edged_of_visible hvisible hsome)
        · split
          · next hsign => exact hedged (edged_sign? hsign)
          · exact ⟨by omega, by rw [List.length_cons]; omega, fun hsolid => absurd rfl hsolid⟩
  · exact absurd rfl htext

-- ================================================================ pieces

theorem commentTail_le (htail : commentTail text = some n) : n ≤ text.length := by
  fun_induction commentTail text generalizing n with
  | case1 => cases htail
  | case2 text =>
      obtain rfl := Option.some.inj htail
      simp
  | case3 c text _ ih =>
      obtain ⟨m, hm, rfl⟩ := Option.map_eq_some_iff.mp htail
      exact Nat.succ_le_succ (ih hm)

/-- The piece that a text begins with has at least one of its characters. -/
theorem lexeme_length (htext : text ≠ []) :
    0 < (lexeme text).2 ∧ (lexeme text).2 ≤ text.length := by
  unfold lexeme
  split
  · simp
  · next rest =>
      have hline := (List.takeWhile_sublist (· ≠ '\n') (l := rest)).length_le
      simp only [List.length_cons]
      omega
  · next rest =>
      split
      · next n htail =>
          have hlength := commentTail_le htail
          simp only [List.length_cons]
          omega
      · simp
  · next c rest _ _ _ =>
      split
      · next hspace =>
          refine ⟨?_, (List.takeWhile_sublist _).length_le⟩
          rw [List.takeWhile_cons, if_pos hspace]
          exact Nat.succ_pos _
      · exact ⟨(token_edges htext).1, (token_edges htext).2.1⟩
  · exact absurd rfl htext

/-- A token of the text proper has visible ends. -/
theorem edged_of_lexeme {tag : Tag} (hlexeme : (lexeme text).1 = .token tag)
    (hsolid : tag ≠ .stray) : Edged (lexeme text).2 text := by
  unfold lexeme at hlexeme ⊢
  split at hlexeme
  · cases hlexeme
  · cases hlexeme
  · next rest =>
      split at hlexeme
      · cases hlexeme
      · exact ⟨Nat.one_ne_zero, by simp, ⟨'/', rfl, rfl⟩, ⟨'/', rfl, rfl⟩⟩
  · next c rest _ _ _ =>
      split at hlexeme
      · cases hlexeme
      · next hspace =>
          obtain rfl := Lexeme.token.inj hlexeme
          rw [if_neg hspace]
          exact (token_edges (List.cons_ne_nil _ _)).2.2 hsolid
  · cases hlexeme

/-- A piece lies in the source; a token among them has visible ends there,
unless it is stray. -/
structure Placed (source : List Char) (piece : Piece) : Prop where
  some : piece.start < piece.stop
  within : piece.stop ≤ source.length
  edged : ∀ tag, piece.lexeme = .token tag → tag ≠ .stray →
    Edged (piece.stop - piece.start) (source.drop piece.start)

variable {source : List Char}

/-- The pieces of what is left of a source. -/
theorem placed_piecesFrom (rounds : Nat) {offset : Nat} (htext : source.drop offset = text) :
    (∀ piece ∈ piecesFrom rounds offset text, offset ≤ piece.start ∧ Placed source piece)
      ∧ (piecesFrom rounds offset text).Pairwise (·.stop ≤ ·.start) := by
  induction rounds generalizing offset text with
  | zero => exact ⟨nofun, .nil⟩
  | succ rounds ih =>
      cases text with
      | nil => exact ⟨nofun, .nil⟩
      | cons c text =>
          obtain ⟨hsome, hwithin⟩ := lexeme_length (List.cons_ne_nil c text)
          have hsource := congrArg List.length htext
          rw [List.length_drop] at hsource
          unfold piecesFrom
          dsimp only
          have hrest : source.drop (offset + (lexeme (c :: text)).2)
              = (c :: text).drop (lexeme (c :: text)).2 := by
            rw [← List.drop_drop, htext]
          obtain ⟨hplaced, hordered⟩ := ih hrest
          refine ⟨List.forall_mem_cons.mpr ⟨⟨Nat.le_refl _, ?_⟩, ?_⟩,
            List.pairwise_cons.mpr ⟨fun piece hmem => (hplaced piece hmem).1, hordered⟩⟩
          · exact {
              some := Nat.lt_add_of_pos_right hsome
              within := by
                dsimp only
                omega
              edged := by
                intro tag hlexeme hsolid
                dsimp only
                rw [Nat.add_sub_cancel_left, htext]
                exact edged_of_lexeme hlexeme hsolid }
          · intro piece hmem
            obtain ⟨hoffset, hpiece⟩ := hplaced piece hmem
            exact ⟨by omega, hpiece⟩

/-- The pieces of a source lie in it. -/
theorem placed_of_mem_pieces {piece : Piece} (hmem : piece ∈ pieces source) :
    Placed source piece := by
  unfold pieces at hmem
  split at hmem
  · next text =>
      rcases List.mem_cons.mp hmem with rfl | hmem
      · exact ⟨Nat.one_pos, by simp, nofun⟩
      · exact ((placed_piecesFrom _ rfl).1 piece hmem).2
  · exact ((placed_piecesFrom _ List.drop_zero).1 piece hmem).2

/-- The pieces of a source come in order. -/
theorem pairwise_pieces (source : List Char) : (pieces source).Pairwise (·.stop ≤ ·.start) := by
  unfold pieces
  split
  · next text =>
      have htext : ('\uFEFF' :: text).drop 1 = text := rfl
      obtain ⟨hplaced, hordered⟩ := placed_piecesFrom text.length htext
      exact List.pairwise_cons.mpr ⟨fun piece hmem => (hplaced piece hmem).1, hordered⟩
  · exact (placed_piecesFrom _ List.drop_zero).2

-- =============================================================== tokens

/-- Every token comes from a piece that is no comment. -/
theorem mem_tokensAmong {pending : Bool} {pieces : List Piece} {token : Token}
    (hmem : token ∈ tokensAmong pending pieces) :
    ∃ piece ∈ pieces, piece.start = token.start ∧ piece.stop = token.stop
      ∧ (piece.lexeme = .token token.tag ∨ piece.lexeme = .lineFeed ∧ token.tag = .lineBreak) := by
  induction pieces generalizing pending with
  | nil => cases hmem
  | cons piece pieces ih =>
      have hlater {pending : Bool} (hmem : token ∈ tokensAmong pending pieces) :=
        (ih hmem).imp fun _ => And.imp_left (List.mem_cons_of_mem piece)
      unfold tokensAmong at hmem
      split at hmem
      · exact hlater hmem
      · exact hlater hmem
      · next hfeed =>
          split at hmem
          · rcases List.mem_cons.mp hmem with rfl | hmem
            · exact ⟨piece, List.mem_cons_self, rfl, rfl, .inr ⟨hfeed, rfl⟩⟩
            · exact hlater hmem
          · exact hlater hmem
      · next tag htag =>
          rcases List.mem_cons.mp hmem with rfl | hmem
          · exact ⟨piece, List.mem_cons_self, rfl, rfl, .inl htag⟩
          · exact hlater hmem

theorem pairwise_tokensAmong {pending : Bool} {pieces : List Piece}
    (hpieces : pieces.Pairwise (·.stop ≤ ·.start)) :
    (tokensAmong pending pieces).Pairwise (·.stop ≤ ·.start) := by
  induction pieces generalizing pending with
  | nil => exact .nil
  | cons piece pieces ih =>
      obtain ⟨hfirst, hpieces⟩ := List.pairwise_cons.mp hpieces
      have hfront {pending : Bool} : ∀ token ∈ tokensAmong pending pieces,
          piece.stop ≤ token.start := by
        intro token hmem
        obtain ⟨piece', hmem', hstart, -⟩ := mem_tokensAmong hmem
        rw [← hstart]
        exact hfirst piece' hmem'
      unfold tokensAmong
      split
      · exact ih hpieces
      · exact ih hpieces
      · split
        · exact List.pairwise_cons.mpr ⟨hfront, ih hpieces⟩
        · exact ih hpieces
      · exact List.pairwise_cons.mpr ⟨hfront, ih hpieces⟩

/-- The tokens of a source come in order. -/
theorem pairwise_tokens (source : List Char) : (tokens source).Pairwise (·.stop ≤ ·.start) :=
  pairwise_tokensAmong (pairwise_pieces source)

/-- The tokens of a source have characters there. -/
theorem token_within {token : Token} (hmem : token ∈ tokens source) :
    token.start < token.stop ∧ token.stop ≤ source.length := by
  obtain ⟨piece, hpiece, hstart, hstop, -⟩ := mem_tokensAmong hmem
  have hplaced := placed_of_mem_pieces hpiece
  rw [← hstart, ← hstop]
  exact ⟨hplaced.some, hplaced.within⟩

/-- A solid token begins and ends with a visible character. -/
theorem token_visible {token : Token} (hmem : token ∈ tokens source) (hsolid : token.tag.IsSolid) :
    (∃ c, source[token.start]? = some c ∧ isBlank c = false)
      ∧ ∃ c, source[token.stop - 1]? = some c ∧ isBlank c = false := by
  obtain ⟨piece, hpiece, hstart, hstop, hkind⟩ := mem_tokensAmong hmem
  have hplaced := placed_of_mem_pieces hpiece
  rcases hkind with htoken | ⟨-, hbreak⟩
  · obtain ⟨hsome, -, hfirst, hlast⟩ := hplaced.edged _ htoken hsolid.2
    rw [List.getElem?_drop, hstart] at hfirst hlast
    rw [hstop, show token.start + (token.stop - token.start - 1) = token.stop - 1 by omega] at hlast
    exact ⟨hfirst, hlast⟩
  · exact absurd hbreak hsolid.1

/-- The comments of a source come in order. -/
theorem pairwise_comments (source : List Char) : (comments source).Pairwise (·.stop ≤ ·.start) :=
  (pairwise_pieces source).filter _

theorem comment_within {comment : Piece} (hmem : comment ∈ comments source) :
    comment.start < comment.stop ∧ comment.stop ≤ source.length := by
  have hplaced := placed_of_mem_pieces (List.mem_of_mem_filter hmem)
  exact ⟨hplaced.some, hplaced.within⟩

/-- A comment lies before a token or after it. -/
theorem comment_apart {comment : Piece} {token : Token} (hcomment : comment ∈ comments source)
    (htoken : token ∈ tokens source) :
    comment.stop ≤ token.start ∨ token.stop ≤ comment.start := by
  obtain ⟨hpieces, hlexeme⟩ := List.mem_filter.mp hcomment
  obtain ⟨piece, hpiece, hstart, hstop, hkind⟩ := mem_tokensAmong htoken
  have hother : comment ≠ piece := by
    rintro rfl
    rw [eq_of_beq hlexeme] at hkind
    rcases hkind with hkind | ⟨hkind, -⟩ <;> cases hkind
  rw [← hstart, ← hstop]
  have hordered : (pieces source).Pairwise fun a b => a.stop ≤ b.start ∨ b.stop ≤ a.start :=
    (pairwise_pieces source).imp .inl
  have : Std.Symm fun a b : Piece => a.stop ≤ b.start ∨ b.stop ≤ a.start := ⟨fun _ _ => Or.symm⟩
  exact hordered.forall hpieces hpiece hother

end Assay.Syntax.Lexer
