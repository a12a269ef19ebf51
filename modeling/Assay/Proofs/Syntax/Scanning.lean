/-
What comes after a piece of source. A number, a word or a sign does not go on
across a blank, so it is the same whatever follows the blank. What is quoted, and
a comment, are the same as soon as they are closed: whatever comes after them,
and also if nothing does.

So a piece is the same before any two continuations that begin with a blank, if
it ends before the blank in one of them.
-/
import Assay.Proofs.Syntax.Tiling

namespace Assay.Syntax.Lexer

open Assay.Text

variable {isDigit : Char → Bool} {text : List Char} {n : Nat} {gap : Char}

theorem ne_of_isBlank {c : Char} (hgap : isBlank gap = true) (hc : isBlank c = false) :
    gap ≠ c := by
  rintro rfl
  rw [hgap] at hc
  cases hc

theorem not_of_plain (hgap : isBlank gap = true) (plain : Plain isDigit) : isDigit gap = false :=
  Bool.eq_false_iff.mpr fun hdigit => ne_of_isBlank hgap (plain gap hdigit) rfl

-- ============================================================ any text

/-- A run of characters stops at the blank at the latest, if a blank is none of them. -/
theorem takeWhile_gap {fits : Char → Bool} (hfits : fits gap = false) (text more : List Char) :
    (text ++ gap :: more).takeWhile fits = text.takeWhile fits := by
  induction text with
  | nil => simp [hfits]
  | cons c text ih => rw [List.cons_append, List.takeWhile_cons, List.takeWhile_cons, ih]

/-- Whether a text begins with something is settled before the blank, when no blank is
part of that. -/
theorem after?_gap {lead : List Char} (hlead : gap ∉ lead) (text more : List Char) :
    (after? lead (text ++ gap :: more)).isSome = (after? lead text).isSome := by
  induction lead generalizing text with
  | nil => simp [after?]
  | cons c lead ih =>
      obtain ⟨hc, hlead⟩ := not_or.mp (mt List.mem_cons.mpr hlead)
      cases text with
      | nil => simp [after?, Ne.symm hc]
      | cons d text =>
          simp only [List.cons_append, after?]
          split
          · exact ih hlead text
          · rfl

theorem drop_gap (text more : List Char) (hle : n ≤ text.length) :
    (text ++ gap :: more).drop n = text.drop n ++ gap :: more :=
  List.drop_append_of_le_length hle

-- ============================================================== numbers

/-- An exponent is told by what comes after its letter. -/
theorem exponent_cons (isLetter : Char → Bool) (c : Char) (rest : List Char) :
    exponent isLetter (c :: rest) = if isLetter c then
      (if rest.head? = some '+' ∨ rest.head? = some '-' then grow 2 (digits Char.isDigit rest.tail)
        else grow 1 (digits Char.isDigit rest))
      else 0 := by
  unfold exponent
  split
  · next heq =>
    obtain ⟨rfl, rfl⟩ := List.cons.inj heq
    simp
  · next heq =>
    obtain ⟨rfl, rfl⟩ := List.cons.inj heq
    simp
  · next hplus hminus heq =>
    obtain ⟨rfl, rfl⟩ := List.cons.inj heq
    cases rest <;> simp_all
  · next heq => cases heq

/-- A number in hexadecimal begins with a zero and the letter of the base. -/
theorem hexFloat_eq_zero
    (hbase : ∀ base rest, text = '0' :: base :: rest → base ≠ 'x' ∧ base ≠ 'X') :
    hexFloat text = 0 := by
  unfold hexFloat
  split
  · exact absurd rfl (hbase _ _ rfl).1
  · exact absurd rfl (hbase _ _ rfl).2
  · rfl

section

variable (hgap : isBlank gap = true)

include hgap

/-- After a digit, a blank ends the digits: an underscore would need another digit. -/
theorem digitsTail_blank (plain : Plain isDigit) (more : List Char) :
    digitsTail isDigit (gap :: more) = 0 := by
  have hscore : gap ≠ '_' := ne_of_isBlank hgap rfl
  cases more <;> simp [digitsTail, not_of_plain hgap plain, hscore]

/-- The cases are those of the recursion. Where it looks at two characters, the second
may be the blank, which is no digit. -/
theorem digitsTail_gap (plain : Plain isDigit) (text more : List Char) :
    digitsTail isDigit (text ++ gap :: more) = digitsTail isDigit text := by
  have hdigit' := not_of_plain hgap plain
  induction text using digitsTail.induct isDigit with
  | case1 => exact digitsTail_blank hgap plain more
  | case2 c hdigit => simp [digitsTail, hdigit, digitsTail_blank hgap plain]
  | case3 c hdigit => simp [digitsTail, hdigit, hdigit']
  | case4 c d text hdigit ih =>
      rw [List.cons_append] at ih
      simp [digitsTail, hdigit, ih]
  | case5 c d text hdigit hscore ih => simp [digitsTail, hdigit, hscore, ih]
  | case6 c d text hdigit hscore => simp [digitsTail, hdigit, hscore]

theorem digits_gap (plain : Plain isDigit) (text more : List Char) :
    digits isDigit (text ++ gap :: more) = digits isDigit text := by
  cases text with
  | nil => simp [digits, not_of_plain hgap plain]
  | cons c text => simp [digits, digitsTail_gap hgap plain]

theorem digitsAfterBase_gap (plain : Plain isDigit) (text more : List Char) :
    digitsAfterBase isDigit (text ++ gap :: more) = digitsAfterBase isDigit text := by
  cases text with
  | nil =>
      have hscore : gap ≠ '_' := ne_of_isBlank hgap rfl
      simp [digitsAfterBase, digits, not_of_plain hgap plain, hscore]
  | cons c text =>
      by_cases hc : c = '_'
      · subst hc
        simp [digitsAfterBase, digits_gap hgap plain]
      · have hdigits := digits_gap hgap plain (c :: text) more
        rw [List.cons_append] at hdigits
        simp [digitsAfterBase, hc, hdigits]

/-- A zero may be followed by the letter of a base, and the blank is none of these
letters. -/
theorem int_gap (text more : List Char) : int (text ++ gap :: more) = int text := by
  cases text with
  | nil =>
      have hzero : gap ≠ '0' := ne_of_isBlank hgap rfl
      simp [int, hzero, digits, not_of_plain hgap plain_isDigit]
  | cons c rest =>
      by_cases hc : c = '0'
      · subst hc
        have hdefault := digitsAfterBase_gap hgap plain_isOctal rest more
        cases rest with
        | nil =>
            have hletter (d : Char) (hd : isBlank d = false) : gap ≠ d := ne_of_isBlank hgap hd
            rw [List.nil_append] at hdefault
            simp [int, hdefault, hletter 'x' rfl, hletter 'X' rfl, hletter 'b' rfl,
              hletter 'B' rfl, hletter 'o' rfl, hletter 'O' rfl]
        | cons d rest =>
            have hhex := digitsAfterBase_gap hgap plain_isHex rest more
            have hoctal := digitsAfterBase_gap hgap plain_isOctal rest more
            have hbinary := digitsAfterBase_gap hgap plain_binary rest more
            rw [List.cons_append] at hdefault
            simp only [List.cons_append, int]
            split <;> simp_all
      · have hdigits := digits_gap hgap plain_isDigit (c :: rest) more
        rw [List.cons_append] at hdigits
        simp [int, hc, hdigits]

/-- A sign after the letter counts only with digits behind it, so the blank ends both. -/
theorem exponent_gap {isLetter : Char → Bool} (plain : Plain isLetter) (text more : List Char) :
    exponent isLetter (text ++ gap :: more) = exponent isLetter text := by
  have hdigits (text : List Char) := digits_gap hgap plain_isDigit text more
  cases text with
  | nil =>
      rw [List.nil_append, exponent_cons, not_of_plain hgap plain]
      rfl
  | cons c rest =>
      rw [List.cons_append, exponent_cons, exponent_cons, hdigits]
      cases rest with
      | nil =>
          have hplus : gap ≠ '+' := ne_of_isBlank hgap rfl
          have hminus : gap ≠ '-' := ne_of_isBlank hgap rfl
          simp [hplus, hminus]
      | cons d rest => simp [hdigits]

theorem decimalExponent_gap (text more : List Char) :
    decimalExponent (text ++ gap :: more) = decimalExponent text :=
  exponent_gap hgap (plain_of_points (by decide)) text more

theorem binaryExponent_gap (text more : List Char) :
    binaryExponent (text ++ gap :: more) = binaryExponent text :=
  exponent_gap hgap (plain_of_points (by decide)) text more

/-- What comes after the digits decides whether there is a point or an exponent. Where
nothing came, the blank comes now and is neither. -/
theorem decimalFloat_gap (text more : List Char) :
    decimalFloat (text ++ gap :: more) = decimalFloat text := by
  have hpoint' : gap ≠ '.' := ne_of_isBlank hgap rfl
  have hexponent (text : List Char) := decimalExponent_gap hgap text more
  have hdigits (text : List Char) := digits_gap hgap plain_isDigit text more
  have hle (text : List Char) := (visible_digits plain_isDigit text).1
  unfold decimalFloat
  rw [hdigits, drop_gap text more (hle text)]
  generalize digits Char.isDigit text = n
  match text.drop n with
  | [] =>
      have hnone := hexponent []
      cases n <;> simp_all [decimalExponent]
  | c :: rest =>
      have hrest := hexponent (c :: rest)
      by_cases hpoint : c = '.'
      · subst hpoint
        cases n <;> simp only [List.cons_append, hdigits, drop_gap rest more (hle rest), hexponent]
        cases hn : digits Char.isDigit rest with
        | zero => rfl
        | succ n => simp only [drop_gap rest more (hn ▸ hle rest), hexponent]
      · cases n <;> simp_all

/-- The same for the digits of a hexadecimal number and the point among them. -/
theorem mantissa_gap (text more : List Char) :
    mantissa (text ++ gap :: more) = mantissa text := by
  have hle := (visible_digitsAfterBase plain_isHex text).1
  unfold mantissa
  rw [digitsAfterBase_gap hgap plain_isHex, drop_gap text more hle]
  cases text.drop (digitsAfterBase isHex text) with
  | nil =>
      have hpoint : gap ≠ '.' := ne_of_isBlank hgap rfl
      simp [hpoint]
  | cons c rest =>
      by_cases hpoint : c = '.'
      · subst hpoint
        simp only [List.cons_append, digits_gap hgap plain_isHex]
      · simp [hpoint]

/-- A text that does not begin with the base does not begin with it before the blank
either, since the base has no blank. -/
theorem hexFloat_gap (text more : List Char) :
    hexFloat (text ++ gap :: more) = hexFloat text := by
  by_cases hbased : ∃ base rest, text = '0' :: base :: rest ∧ (base = 'x' ∨ base = 'X')
  · obtain ⟨base, rest, rfl, hbase⟩ := hbased
    rw [List.cons_append, List.cons_append, hexFloat_eq hbase, hexFloat_eq hbase,
      mantissa_gap hgap, drop_gap rest more (visible_mantissa rest).1, binaryExponent_gap hgap]
  · rw [hexFloat_eq_zero, hexFloat_eq_zero]
    · rintro base rest rfl
      exact not_or.mp fun hbase => hbased ⟨base, rest, rfl, hbase⟩
    · intro base rest htext
      match text with
      | [] =>
          have hzero : gap ≠ '0' := ne_of_isBlank hgap rfl
          exact absurd (List.cons.inj htext).1 hzero
      | [c] =>
          obtain ⟨rfl, rfl⟩ : gap = base ∧ more = rest := by simpa using (List.cons.inj htext).2
          exact ⟨ne_of_isBlank hgap rfl, ne_of_isBlank hgap rfl⟩
      | c :: d :: text =>
          obtain ⟨rfl, hrest⟩ := List.cons.inj htext
          obtain ⟨rfl, -⟩ := List.cons.inj hrest
          exact not_or.mp fun hbase => hbased ⟨d, text, rfl, hbase⟩

theorem float_gap (text more : List Char) : float (text ++ gap :: more) = float text := by
  rw [float, decimalFloat_gap hgap, hexFloat_gap hgap, float]

/-- A unit stands right after its number. -/
theorem imaginary_gap (text more : List Char) :
    imaginary (text ++ gap :: more) = imaginary text := by
  have hunit : gap ≠ 'i' := ne_of_isBlank hgap rfl
  have hclosed {n : Nat} (hle : n ≤ text.length) :
      (if n ≠ 0 && ((text ++ gap :: more).drop n).head? = some 'i' then n + 1 else 0)
        = if n ≠ 0 && (text.drop n).head? = some 'i' then n + 1 else 0 := by
    rw [drop_gap text more hle]
    cases text.drop n <;> simp [hunit]
  unfold imaginary
  dsimp only
  rw [digits_gap hgap plain_isDigit, int_gap hgap, float_gap hgap,
    hclosed (visible_digits plain_isDigit text).1, hclosed (visible_int text).1,
    hclosed (visible_float text).1]

/-- The longest reading is taken, and none of the three readings gets longer. -/
theorem number?_gap (text more : List Char) :
    number? (text ++ gap :: more) = number? text := by
  rw [number?, int_gap hgap, float_gap hgap, imaginary_gap hgap, number?]

-- ====================================================== words and signs

/-- No blank is part of an identifier. -/
theorem word_gap (text more : List Char) :
    (text ++ gap :: more).takeWhile isIdentifierPart = text.takeWhile isIdentifierPart :=
  takeWhile_gap (not_of_plain hgap fun _ => isBlank_of_isIdentifierPart) text more

/-- The first spelling that fits is taken. None of them has a blank in it, so the same
ones fit. -/
theorem sign?_gap (text more : List Char) : sign? (text ++ gap :: more) = sign? text := by
  have hvisible : Sign.spellings.all (fun spelling => spelling.1.all fun c => !isBlank c) = true :=
    by decide +kernel
  have hspellings : ∀ spelling ∈ Sign.spellings, gap ∉ spelling.1 := by
    intro spelling hmem hgap'
    have hspelling := List.all_eq_true.mp (List.all_eq_true.mp hvisible spelling hmem) gap hgap'
    rw [hgap] at hspelling
    cases hspelling
  have hfound : ∀ spellings : List (List Char × Sign), (∀ spelling ∈ spellings, gap ∉ spelling.1) →
      spellings.find? (fun spelling => beginsWith spelling.1 (text ++ gap :: more))
        = spellings.find? fun spelling => beginsWith spelling.1 text := by
    intro spellings
    induction spellings with
    | nil => exact fun _ => rfl
    | cons spelling spellings ih =>
        intro hall
        obtain ⟨hspelling, hothers⟩ := List.forall_mem_cons.mp hall
        have hbegins : beginsWith spelling.1 (text ++ gap :: more) = beginsWith spelling.1 text :=
          after?_gap hspelling text more
        rw [List.find?_cons, List.find?_cons, hbegins, ih hothers]
  exact congrArg (Option.map _) (hfound Sign.spellings hspellings)

end

-- ================================================================ quotes

/-- What is matched is told by its own characters, whatever comes after them. -/
def Told (tail : List Char → Option Nat) : Prop :=
  ∀ text n, tail text = some n → ∀ more, tail (text.take n ++ more) = some n

section

variable {tail : List Char → Option Nat} {more : List Char}

/-- What is matched is so before everything else. -/
theorem Told.append (told : Told tail) (htail : tail text = some n) (more : List Char) :
    tail (text ++ more) = some n := by
  have hown := told text n htail (text.drop n ++ more)
  rwa [← List.append_assoc, List.take_append_drop] at hown

/-- What is matched is so without what comes after it. -/
theorem Told.of_append (told : Told tail) (htail : tail (text ++ more) = some n)
    (hle : n ≤ text.length) : tail text = some n := by
  have hown := told (text ++ more) n htail (text.drop n)
  rwa [List.take_append_of_le_length hle, List.take_append_drop] at hown

end

/-- As many digits as are wanted are read whatever comes after them. -/
theorem hexDigits?_take {rest : List Char} (hdigits : hexDigits? n text = some rest)
    (more : List Char) : hexDigits? n (text.take n ++ more) = some more := by
  induction n generalizing text with
  | zero => rfl
  | succ n ih =>
      cases text with
      | nil => cases hdigits
      | cons c text =>
          rw [hexDigits?] at hdigits
          rw [List.take_succ_cons, List.cons_append, hexDigits?]
          split at hdigits
          · next hhex => rw [if_pos hhex, ih hdigits]
          · cases hdigits

/-- Digits and the character after them. -/
theorem hexDigits?_take_succ {c : Char} {rest : List Char}
    (hdigits : hexDigits? n text = some (c :: rest)) (more : List Char) :
    hexDigits? n (text.take (n + 1) ++ more) = some (c :: more) := by
  have hown := hexDigits?_take hdigits (c :: more)
  obtain ⟨digits, rfl, rfl⟩ := length_hexDigits? hdigits
  rw [List.take_left] at hown
  rwa [List.take_length_add_append, List.take_succ_cons, List.take_zero, List.append_assoc]

/-- A text is closed by its first character or further on. -/
theorem ClosedBy.uncons {close c : Char} (closed : ClosedBy close n (c :: text)) :
    c = close ∧ n = 1 ∨ ∃ m, n = m + 1 ∧ ClosedBy close m text := by
  obtain ⟨front, more, htext, rfl⟩ := closed
  cases front with
  | nil => exact .inl ⟨(List.cons.inj htext).1, rfl⟩
  | cons d front => exact .inr ⟨_, rfl, front, more, (List.cons.inj htext).2, rfl⟩

/-- Digits before the closing character stand there whatever comes after it. -/
theorem isSome_hexDigits?_take {count : Nat} {close : Char} (hclose : isHex close = false)
    (hdigits : (hexDigits? count text).isSome = true) (closed : ClosedBy close n text)
    (more : List Char) : (hexDigits? count (text.take n ++ more)).isSome = true := by
  induction count generalizing text n with
  | zero => rfl
  | succ count ih =>
      cases text with
      | nil => cases hdigits
      | cons c text =>
          rw [hexDigits?] at hdigits
          split at hdigits
          · next hhex =>
              rcases closed.uncons with ⟨rfl, -⟩ | ⟨m, rfl, hrest⟩
              · rw [hclose] at hhex
                cases hhex
              · rw [List.take_succ_cons, List.cons_append, hexDigits?, if_pos hhex]
                exact ih hdigits hrest
          · cases hdigits

/-- How many digits an escape wants. -/
def wanted : Char → Nat
  | 'x' => 2
  | 'u' => 4
  | 'U' => 8
  | _ => 0

/-- One equation for all escapes: those that want no digits find them always. -/
theorem quotedTail_escape (c : Char) (text : List Char) :
    quotedTail ('\x5c' :: c :: text) = if (hexDigits? (wanted c) text).isSome
      then (quotedTail text).map (· + 2) else none := by
  unfold wanted
  split
  · rfl
  · rfl
  · rfl
  · next hx hu hU => simp [quotedTail, hexDigits?]

theorem quotedTail_cons {c : Char} (hquote : c ≠ '\x22') (hfeed : c ≠ '\n') (hslash : c ≠ '\x5c')
    (text : List Char) : quotedTail (c :: text) = (quotedTail text).map (· + 1) := by
  rw [quotedTail]
  · exact hquote
  · exact hfeed
  · exact fun _ _ h => absurd h hslash
  · exact fun h => absurd h hslash

/-- A quoted string goes on with its first character, or with an escape. -/
theorem quotedTail_induction {motive : List Char → Prop} (nil : motive [])
    (quote : ∀ text, motive ('\x22' :: text)) (feed : ∀ text, motive ('\n' :: text))
    (slash : motive ['\x5c']) (escape : ∀ c text, motive text → motive ('\x5c' :: c :: text))
    (other : ∀ c text, c ≠ '\x22' → c ≠ '\n' → c ≠ '\x5c' → motive text → motive (c :: text)) :
    ∀ text, motive text
  | [] => nil
  | c :: text => by
      by_cases hquote : c = '\x22'
      · exact hquote ▸ quote text
      by_cases hfeed : c = '\n'
      · exact hfeed ▸ feed text
      by_cases hslash : c = '\x5c'
      · subst hslash
        cases text with
        | nil => exact slash
        | cons d text =>
            exact escape d text (quotedTail_induction nil quote feed slash escape other text)
      · exact other c text hquote hfeed hslash
          (quotedTail_induction nil quote feed slash escape other text)

/-- A string in quotes ends at its closing quote. An escape in it has its digits before
that, so it is the same without what follows. -/
theorem told_quotedTail : Told quotedTail := by
  intro text n htail more
  induction text using quotedTail_induction generalizing n with
  | nil | feed | slash => cases htail
  | quote =>
      obtain rfl := Option.some.inj htail
      rfl
  | escape c text ih =>
      rw [quotedTail_escape] at htail
      split at htail
      · next hdigits =>
          obtain ⟨m, hm, rfl⟩ := Option.map_eq_some_iff.mp htail
          have hquote : isHex '\x22' = false := by decide
          have hdigits := isSome_hexDigits?_take hquote hdigits (closedBy_quotedTail hm) more
          rw [List.take_succ_cons, List.take_succ_cons, List.cons_append, List.cons_append,
            quotedTail_escape, if_pos hdigits, ih m hm]
          rfl
      · cases htail
  | other c text hquote hfeed hslash ih =>
      rw [quotedTail_cons hquote hfeed hslash] at htail
      obtain ⟨m, hm, rfl⟩ := Option.map_eq_some_iff.mp htail
      rw [List.take_succ_cons, List.cons_append, quotedTail_cons hquote hfeed hslash, ih m hm]
      rfl

/-- A raw string ends at the next backquote, with no escapes. -/
theorem told_rawTail : Told rawTail := by
  intro text n htail more
  fun_induction rawTail text generalizing n with
  | case1 => cases htail
  | case2 =>
      obtain rfl := Option.some.inj htail
      rfl
  | case3 c text hquote ih =>
      obtain ⟨m, hm, rfl⟩ := Option.map_eq_some_iff.mp htail
      rw [List.take_succ_cons, List.cons_append, rawTail, ih m hm]
      · rfl
      · exact hquote

theorem two_le_of_commentTail (htail : commentTail text = some n) : 2 ≤ n := by
  fun_induction commentTail text generalizing n with
  | case1 => cases htail
  | case2 => exact Nat.le_of_eq (Option.some.inj htail)
  | case3 c text hclose ih =>
      obtain ⟨m, hm, rfl⟩ := Option.map_eq_some_iff.mp htail
      exact Nat.le_succ_of_le (ih hm)

/-- A block comment ends with its closing sign, both characters of it. -/
theorem told_commentTail : Told commentTail := by
  intro text n htail more
  fun_induction commentTail text generalizing n with
  | case1 => cases htail
  | case2 =>
      obtain rfl := Option.some.inj htail
      rfl
  | case3 c text hclose ih =>
      obtain ⟨m, hm, rfl⟩ := Option.map_eq_some_iff.mp htail
      rw [List.take_succ_cons, List.cons_append, commentTail, ih m hm]
      · rfl
      · -- The second sign of the end is among the characters that are taken.
        intro rest hstar hrest
        cases text with
        | nil => cases hm
        | cons d text =>
            have hsome := Nat.le_of_succ_le (two_le_of_commentTail hm)
            obtain ⟨k, rfl⟩ := Nat.exists_eq_add_of_le' hsome
            exact hclose text hstar (by rw [(List.cons.inj hrest).1])

/-- A comment that is left open is closed by what comes after the line, or not at
all. -/
theorem commentTail_line (htail : commentTail text = none) {more : List Char}
    (hmore : commentTail more = none) : commentTail (text ++ '\n' :: more) = none := by
  fun_induction commentTail text with
  | case1 => rw [List.nil_append, commentTail, hmore] <;> simp
  | case2 => cases htail
  | case3 c text hclose ih =>
      rw [List.cons_append, commentTail, ih (Option.map_eq_none_iff.mp htail)]
      · rfl
      · intro rest hstar hrest
        cases text with
        | nil => exact absurd (List.cons.inj hrest).1 (by decide)
        | cons d text => exact hclose text hstar (by rw [(List.cons.inj hrest).1])

/-- The shapes of a rune are told apart by its first characters, and all of them end
with the closing quote. -/
theorem told_runeTail : Told runeTail := by
  intro text n htail more
  unfold runeTail at htail
  split at htail
  · next a b text =>
      split at htail
      · next hdigits =>
          obtain rfl := Option.some.inj htail
          simp [runeTail, hdigits]
      · cases htail
  · next text =>
      split at htail
      · next hdigits =>
          obtain rfl := Option.some.inj htail
          have hown := hexDigits?_take_succ hdigits more
          simp [runeTail, hown]
      · cases htail
  · next text =>
      split at htail
      · next hdigits =>
          obtain rfl := Option.some.inj htail
          have hown := hexDigits?_take_succ hdigits more
          simp [runeTail, hown]
      · cases htail
  · next c text _ _ _ =>
      split at htail
      · next hescape =>
          obtain rfl := Option.some.inj htail
          -- No escape of one letter is one that wants digits.
          have hletter : c ≠ 'x' ∧ c ≠ 'u' ∧ c ≠ 'U' := by
            refine ⟨?_, ?_, ?_⟩ <;> rintro rfl <;> exact absurd hescape (by decide)
          simp [runeTail, hletter, hescape]
      · cases htail
  · next a b c text _ _ _ _ =>
      split at htail
      · next hoctal =>
          obtain rfl := Option.some.inj htail
          simp [runeTail, hoctal]
      · cases htail
  · cases htail
  · next c text _ _ hslash =>
      split at htail
      · cases htail
      · next hquote =>
          obtain rfl := Option.some.inj htail
          show runeTail (c :: '\x27' :: more) = some 2
          rw [runeTail, if_neg hquote]
          all_goals intros; contradiction
  · cases htail

-- =============================================================== tokens

/-- A token that is closed is the same before everything that begins with a
blank. -/
theorem token_gap (hgap : isBlank gap = true) (htext : text ≠ [])
    (hproper : (token text).1 ≠ .stray) (more : List Char) : token (text ++ gap :: more) = token text := by
  obtain ⟨c, rest, rfl⟩ := List.exists_cons_of_ne_nil htext
  by_cases hquote : c = '\x22'
  · subst hquote
    cases htail : quotedTail rest with
    | none => simp [token, htail] at hproper
    | some n => simp [token, htail, told_quotedTail.append htail]
  by_cases hraw : c = '\x60'
  · subst hraw
    cases htail : rawTail rest with
    | none => simp [token, htail] at hproper
    | some n => simp [token, htail, told_rawTail.append htail]
  by_cases hrune : c = '\x27'
  · subst hrune
    cases htail : runeTail rest with
    | none => simp [token, htail] at hproper
    | some n => simp [token, htail, told_runeTail.append htail]
  have hword := word_gap hgap (c :: rest) more
  have hnumber := number?_gap hgap (c :: rest) more
  have hsign := sign?_gap hgap (c :: rest) more
  rw [List.cons_append] at hword hnumber hsign ⊢
  rw [token, token, hword, hnumber, hsign]
  all_goals assumption

/-- It is closed if it is where something comes after the blank, and ends before
that. -/
theorem proper_token_of_gap (hgap : isBlank gap = true) (htext : text ≠ []) {more : List Char}
    (hproper : (token (text ++ gap :: more)).1 ≠ .stray)
    (hle : (token (text ++ gap :: more)).2 ≤ text.length) : (token text).1 ≠ .stray := by
  obtain ⟨c, rest, rfl⟩ := List.exists_cons_of_ne_nil htext
  by_cases hquote : c = '\x22'
  · subst hquote
    cases htail : quotedTail (rest ++ gap :: more) with
    | none => simp [token, htail] at hproper
    | some n =>
        have hle : n ≤ rest.length := by simpa [token, htail] using hle
        simp [token, told_quotedTail.of_append htail hle]
  by_cases hraw : c = '\x60'
  · subst hraw
    cases htail : rawTail (rest ++ gap :: more) with
    | none => simp [token, htail] at hproper
    | some n =>
        have hle : n ≤ rest.length := by simpa [token, htail] using hle
        simp [token, told_rawTail.of_append htail hle]
  by_cases hrune : c = '\x27'
  · subst hrune
    cases htail : runeTail (rest ++ gap :: more) with
    | none => simp [token, htail] at hproper
    | some n =>
        have hle : n ≤ rest.length := by simpa [token, htail] using hle
        simp [token, told_runeTail.of_append htail hle]
  have hword := word_gap hgap (c :: rest) more
  have hnumber := number?_gap hgap (c :: rest) more
  have hsign := sign?_gap hgap (c :: rest) more
  rw [List.cons_append] at hword hnumber hsign hproper
  rw [token, hword, hnumber, hsign] at hproper
  rw [token]
  all_goals assumption

/-- What begins neither a line nor a comment is blank or a token. -/
theorem lexeme_eq {c : Char} {rest : List Char} (hfeed : c ≠ '\n')
    (hslash : ∀ d more, c = '/' → rest = d :: more → d ≠ '/' ∧ d ≠ '*') :
    lexeme (c :: rest) = if isSpace c then (.blank, ((c :: rest).takeWhile isSpace).length)
      else (.token (token (c :: rest)).1, (token (c :: rest)).2) := by
  unfold lexeme
  split
  · next heq => exact absurd (List.cons.inj heq).1 hfeed
  · next heq =>
      obtain ⟨hc, hrest⟩ := List.cons.inj heq
      exact absurd rfl (hslash _ _ hc hrest).1
  · next heq =>
      obtain ⟨hc, hrest⟩ := List.cons.inj heq
      exact absurd rfl (hslash _ _ hc hrest).2
  · next heq =>
      obtain ⟨rfl, rfl⟩ := List.cons.inj heq
      rfl
  · next heq => cases heq

/-- A slash that begins no comment does not begin one before a blank either. -/
theorem no_comment_of_gap (hgap : isBlank gap = true) {c : Char} {rest more : List Char}
    (hslash : ∀ d more, c = '/' → rest = d :: more → d ≠ '/' ∧ d ≠ '*') :
    ∀ d more', c = '/' → rest ++ gap :: more = d :: more' → d ≠ '/' ∧ d ≠ '*' := by
  intro d more' hc hrest
  cases rest with
  | nil =>
      obtain ⟨rfl, -⟩ := List.cons.inj hrest
      exact ⟨ne_of_isBlank hgap rfl, ne_of_isBlank hgap rfl⟩
  | cons e rest =>
      obtain ⟨rfl, -⟩ := List.cons.inj hrest
      exact hslash e rest hc rfl

/-- So is a piece of any kind before a line feed, where no slash begins a comment
that is closed only after it. -/
theorem lexeme_line (htext : text ≠ []) (hproper : (lexeme text).1 ≠ .token .stray)
    {more : List Char} (hopen : (lexeme text).1 = .token (.sign .slash) →
      beginsWith ['/', '*'] text = true → commentTail more = none) :
    lexeme (text ++ '\n' :: more) = lexeme text := by
  obtain ⟨c, rest, rfl⟩ := List.exists_cons_of_ne_nil htext
  by_cases hfeed : c = '\n'
  · subst hfeed
    rfl
  by_cases hslash : ∀ d more, c = '/' → rest = d :: more → d ≠ '/' ∧ d ≠ '*'
  · rw [lexeme_eq hfeed hslash] at hproper ⊢
    rw [List.cons_append, lexeme_eq hfeed (no_comment_of_gap rfl hslash), ← List.cons_append,
      takeWhile_gap rfl]
    by_cases hspace : isSpace c
    · rw [if_pos hspace, if_pos hspace]
    · rw [if_neg hspace] at hproper
      rw [if_neg hspace, if_neg hspace,
        token_gap rfl htext fun hstray => hproper (congrArg Lexeme.token hstray)]
  · simp only [not_forall, not_and_or, not_not] at hslash
    obtain ⟨d, rest', rfl, rfl, rfl | rfl⟩ := hslash
    · have hline : (rest' ++ '\n' :: more).takeWhile (· ≠ '\n') = rest'.takeWhile (· ≠ '\n') :=
        takeWhile_gap (by decide) rest' more
      rw [List.cons_append, List.cons_append, lexeme, lexeme, hline]
    · cases htail : commentTail rest' with
      | some n => simp [lexeme, htail, told_commentTail.append htail]
      | none =>
          have hmore : commentTail more = none := hopen (by simp [lexeme, htail]) rfl
          simp [lexeme, htail, commentTail_line htail hmore]

/-- What stops within a text stops there whatever comes after. -/
theorem takeWhile_of_append {fits : Char → Bool} {more : List Char}
    (hle : ((text ++ more).takeWhile fits).length ≤ text.length) :
    (text ++ more).takeWhile fits = text.takeWhile fits := by
  rw [List.takeWhile_append] at hle ⊢
  split
  · next hall =>
      rw [if_pos hall, List.length_append] at hle
      have hnone : more.takeWhile fits = [] := List.length_eq_zero_iff.mp (by omega)
      rw [hnone, List.append_nil, List.IsPrefix.eq_of_length (List.takeWhile_prefix fits) hall]
  · rfl

/-- And it is the same if it ends before a blank, whatever comes after that. -/
theorem lexeme_of_gap (hgap : isBlank gap = true) (htext : text ≠ []) {more : List Char}
    (hproper : (lexeme (text ++ gap :: more)).1 ≠ .token .stray)
    (hle : (lexeme (text ++ gap :: more)).2 ≤ text.length) :
    lexeme (text ++ gap :: more) = lexeme text := by
  obtain ⟨c, rest, rfl⟩ := List.exists_cons_of_ne_nil htext
  by_cases hfeed : c = '\n'
  · subst hfeed
    rfl
  by_cases hslash : ∀ d more, c = '/' → rest = d :: more → d ≠ '/' ∧ d ≠ '*'
  · rw [List.cons_append, lexeme_eq hfeed (no_comment_of_gap hgap hslash),
      ← List.cons_append] at hproper hle ⊢
    rw [lexeme_eq hfeed hslash]
    by_cases hspace : isSpace c
    · rw [if_pos hspace] at hle
      rw [if_pos hspace, if_pos hspace, takeWhile_of_append hle]
    · rw [if_neg hspace] at hproper hle
      have htoken := proper_token_of_gap hgap htext
        (fun hstray => hproper (congrArg Lexeme.token hstray)) hle
      rw [if_neg hspace, if_neg hspace, token_gap hgap htext htoken]
  · simp only [not_forall, not_and_or, not_not] at hslash
    obtain ⟨d, rest', rfl, rfl, rfl | rfl⟩ := hslash
    · have hle : ((rest' ++ gap :: more).takeWhile (· ≠ '\n')).length ≤ rest'.length := by
        simp only [List.cons_append, lexeme, List.length_cons] at hle
        omega
      rw [List.cons_append, List.cons_append, lexeme, lexeme, takeWhile_of_append hle]
    · cases htail : commentTail (rest' ++ gap :: more) with
      | some n =>
          have hle : n ≤ rest'.length := by
            simpa [lexeme, htail] using hle
          simp [lexeme, htail, told_commentTail.of_append htail hle]
      | none =>
          have hnone : commentTail rest' = none := by
            refine Option.eq_none_iff_forall_ne_some.mpr fun n hsome => ?_
            rw [told_commentTail.append hsome] at htail
            cases htail
          simp [lexeme, htail, hnone]

end Assay.Syntax.Lexer
