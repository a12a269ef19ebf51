/-
Texts taken apart: what comes after a given beginning is what is left when the
text is cut there, and parts that hold no separator are the parts that a text
of them is split into.
-/
import Assay.Text.Search
import Mathlib.Data.List.Basic
import Mathlib.Data.List.DropRight

namespace Assay.Text

variable {lead text rest : List Char}

theorem after?_append (lead rest : List Char) : after? lead (lead ++ rest) = some rest := by
  induction lead with
  | nil => rfl
  | cons a lead ih => rw [List.cons_append, after?, if_pos rfl, ih]

theorem after?_eq_some_iff : after? lead text = some rest ↔ text = lead ++ rest := by
  refine ⟨fun hafter => ?_, fun h => h ▸ after?_append lead rest⟩
  induction lead generalizing text with
  | nil => exact Option.some.inj hafter
  | cons a lead ih =>
      cases text with
      | nil => cases hafter
      | cons b text =>
          rw [after?] at hafter
          split at hafter
          · next hhead => rw [ih hafter, hhead, List.cons_append]
          · cases hafter

/-- A text that begins with another goes on after it. -/
theorem eq_append_of_beginsWith (hbegins : beginsWith lead text = true) :
    ∃ rest, text = lead ++ rest := by
  obtain ⟨rest, hafter⟩ := Option.isSome_iff_exists.mp hbegins
  exact ⟨rest, after?_eq_some_iff.mp hafter⟩

theorem before?_eq_some_iff {tail front : List Char} :
    before? tail text = some front ↔ text = front ++ tail := by
  rw [before?, Option.map_eq_some_iff]
  constructor
  · rintro ⟨rest, hafter, rfl⟩
    rw [← List.reverse_inj, after?_eq_some_iff.mp hafter, List.reverse_append,
      List.reverse_reverse]
  · rintro rfl
    exact ⟨front.reverse, by rw [List.reverse_append, after?_append], List.reverse_reverse front⟩

theorem endsWith_iff {tail : List Char} :
    endsWith tail text = true ↔ ∃ front, text = front ++ tail := by
  simp only [endsWith, Option.isSome_iff_exists, before?_eq_some_iff]

/-- A text that is split around a piece is what stands before the piece, the piece
and the rest. -/
theorem eq_append_of_splitOnce? {piece left : List Char}
    (hsplit : splitOnce? piece text = some (left, rest)) : text = left ++ (piece ++ rest) := by
  induction text generalizing left with
  | nil =>
      rw [splitOnce?] at hsplit
      split at hsplit
      · next hpiece =>
          obtain ⟨rfl, rfl⟩ := Prod.mk.inj (Option.some.inj hsplit)
          rw [List.isEmpty_iff.mp hpiece]
          rfl
      · cases hsplit
  | cons c text ih =>
      rw [splitOnce?] at hsplit
      split at hsplit
      · next hafter =>
          obtain ⟨rfl, rfl⟩ := Prod.mk.inj (Option.some.inj hsplit)
          rw [List.nil_append, after?_eq_some_iff.mp hafter]
      · obtain ⟨⟨front, back⟩, hfound, hboth⟩ := Option.map_eq_some_iff.mp hsplit
        obtain ⟨rfl, rfl⟩ := Prod.mk.inj hboth
        rw [ih hfound, List.cons_append]

/-- A text that begins with a piece is split there. -/
theorem splitOnce?_of_after? {piece : List Char} (hafter : after? piece text = some rest) :
    splitOnce? piece text = some ([], rest) := by
  cases text with
  | cons c text => rw [splitOnce?, hafter]
  | nil =>
      cases piece with
      | nil =>
          obtain rfl := Option.some.inj hafter
          rfl
      | cons d piece => cases hafter

/-- A text is split around the first occurrence of a piece. -/
theorem splitOnce?_eq_some_iff {piece left : List Char} (hpiece : piece ≠ []) :
    splitOnce? piece text = some (left, rest) ↔ text = left ++ (piece ++ rest)
      ∧ ∀ left' rest', text = left' ++ (piece ++ rest') → left.length ≤ left'.length := by
  induction text generalizing left with
  | nil =>
      refine iff_of_false ?_ fun hsplit => ?_
      · rw [splitOnce?, if_neg (by simpa using hpiece)]
        exact nofun
      · exact hpiece (List.append_eq_nil_iff.mp (List.append_eq_nil_iff.mp hsplit.1.symm).2).1
  | cons c text ih =>
      rw [splitOnce?]
      split
      · next here hhere =>
          have hhere' := after?_eq_some_iff.mp hhere
          constructor
          · intro hsplit
            obtain ⟨rfl, rfl⟩ := Prod.mk.inj (Option.some.inj hsplit)
            exact ⟨hhere', fun _ _ _ => Nat.zero_le _⟩
          · rintro ⟨hsplit, hfirst⟩
            obtain rfl := List.eq_nil_of_length_eq_zero
              (Nat.le_zero.mp (hfirst [] here hhere'))
            rw [List.append_cancel_left (hhere'.symm.trans hsplit)]
      · next hnone =>
          rw [Option.map_eq_some_iff]
          constructor
          · rintro ⟨⟨front, back⟩, hfound, hboth⟩
            obtain ⟨rfl, rfl⟩ := Prod.mk.inj hboth
            obtain ⟨hsplit, hfirst⟩ := ih.mp hfound
            refine ⟨congrArg (c :: ·) hsplit, fun left' rest' hsplit' => ?_⟩
            cases left' with
            | nil => cases hnone.symm.trans (after?_eq_some_iff.mpr hsplit')
            | cons d left' =>
                exact Nat.succ_le_succ (hfirst left' rest' (List.cons.inj hsplit').2)
          · rintro ⟨hsplit, hfirst⟩
            cases left with
            | nil => cases hnone.symm.trans (after?_eq_some_iff.mpr hsplit)
            | cons d left =>
                obtain ⟨rfl, hrest⟩ := List.cons.inj hsplit
                refine ⟨(left, rest), ih.mpr ⟨hrest, fun left' rest' hsplit' => ?_⟩, rfl⟩
                exact Nat.le_of_succ_le_succ
                  (hfirst (c :: left') rest' (congrArg (c :: ·) hsplit'))

/-- A text is split around a piece where the first sign of the piece first stands. -/
theorem splitOnce?_of_notMem {sign : Char} {left : List Char} (hleft : sign ∉ left)
    (piece rest : List Char) :
    splitOnce? (sign :: piece) (left ++ (sign :: piece ++ rest)) = some (left, rest) := by
  refine (splitOnce?_eq_some_iff (List.cons_ne_nil _ _)).mpr ⟨rfl, fun left' rest' hsplit => ?_⟩
  rcases List.append_eq_append_iff.mp hsplit with ⟨more, rfl, -⟩ | ⟨more, rfl, hmore⟩
  · rw [List.length_append]
    exact Nat.le_add_right _ _
  · cases more with
    | nil => exact Nat.le_of_eq (by rw [List.append_nil])
    | cons c more =>
        obtain ⟨rfl, -⟩ := List.cons.inj hmore
        exact absurd (List.mem_append_right _ List.mem_cons_self) hleft

/-- A text without the first sign of a piece is not split around it. -/
theorem splitOnce?_eq_none {sign : Char} (htext : sign ∉ text) (piece : List Char) :
    splitOnce? (sign :: piece) text = none := by
  refine Option.eq_none_iff_forall_ne_some.mpr fun ⟨left, rest⟩ hsplit => htext ?_
  rw [eq_append_of_splitOnce? hsplit]
  exact List.mem_append_right _ List.mem_cons_self

/-- A text without the first sign of a beginning does not begin so. -/
theorem after?_eq_none {sign : Char} (htext : sign ∉ text) (lead : List Char) :
    after? (sign :: lead) text = none := by
  refine Option.eq_none_iff_forall_ne_some.mpr fun rest hafter => htext ?_
  rw [after?_eq_some_iff.mp hafter]
  exact List.mem_cons_self

theorem occurs_iff {piece : List Char} : occurs piece text = true ↔ piece <:+: text := by
  rw [occurs, Option.isSome_iff_exists]
  constructor
  · rintro ⟨⟨left, rest⟩, hsplit⟩
    exact ⟨left, rest, by rw [List.append_assoc, eq_append_of_splitOnce? hsplit]⟩
  · rintro ⟨left, rest, rfl⟩
    induction left with
    | nil => exact ⟨_, splitOnce?_of_after? (after?_append piece rest)⟩
    | cons c left ih =>
        obtain ⟨⟨front, back⟩, hsplit⟩ := ih
        rw [List.cons_append, List.cons_append, splitOnce?]
        split
        · exact ⟨_, rfl⟩
        · rw [hsplit]
          exact ⟨_, rfl⟩

section Stretches

variable {holds : Char → Bool} {front : List Char}

/-- A stretch of characters of a class ends where another character, or nothing,
follows. -/
theorem takeWhile_stretch (hfront : ∀ c ∈ front, holds c = true)
    (hrest : ∀ c ∈ rest.head?, holds c = false) : (front ++ rest).takeWhile holds = front := by
  rw [List.takeWhile_append_of_pos hfront]
  cases rest with
  | nil => exact List.append_nil front
  | cons c rest => rw [List.takeWhile_cons_of_neg (by simp [hrest c rfl]), List.append_nil]

theorem dropWhile_stretch (hfront : ∀ c ∈ front, holds c = true)
    (hrest : ∀ c ∈ rest.head?, holds c = false) : (front ++ rest).dropWhile holds = rest := by
  rw [List.dropWhile_append_of_pos hfront]
  cases rest with
  | nil => rfl
  | cons c rest => rw [List.dropWhile_cons_of_neg (by simp [hrest c rfl])]

/-- What is left behind a stretch begins with another character. -/
theorem head_dropWhile (holds : Char → Bool) (text : List Char) :
    ∀ c ∈ (text.dropWhile holds).head?, holds c = false := by
  intro c hc
  have hstop := List.head?_dropWhile_not holds text
  rwa [Option.mem_def.mp hc] at hstop

end Stretches

section Core

variable {unwanted : Char → Bool} {core : List Char}

/-- What is left of a text without the characters of a kind at its ends. -/
structure IsCore (unwanted : Char → Bool) (text core : List Char) : Prop where
  around : ∃ lead trail, (∀ c ∈ lead, unwanted c = true) ∧ (∀ c ∈ trail, unwanted c = true)
    ∧ text = lead ++ core ++ trail
  first : ∀ c ∈ core.head?, unwanted c = false
  last : ∀ c ∈ core.getLast?, unwanted c = false

theorem isCore_strip (unwanted : Char → Bool) (text : List Char) :
    IsCore unwanted text (strip unwanted text) := by
  have hsplit : text.dropWhile unwanted
      = strip unwanted text ++ (text.dropWhile unwanted).rtakeWhile unwanted :=
    List.rdropWhile_append_rtakeWhile.symm
  refine ⟨⟨text.takeWhile unwanted, (text.dropWhile unwanted).rtakeWhile unwanted,
    fun c => List.mem_takeWhile_imp, fun c => List.mem_rtakeWhile_imp, ?_⟩, ?_, ?_⟩
  · rw [List.append_assoc, ← hsplit, List.takeWhile_append_dropWhile]
  · intro c hc
    refine head_dropWhile unwanted text c ?_
    rw [hsplit]
    exact List.mem_head?_append_of_mem_head? hc
  · intro c hc
    rw [strip, List.getLast?_reverse] at hc
    exact head_dropWhile unwanted _ c hc

theorem IsCore.strip_eq (hcore : IsCore unwanted text core) : strip unwanted text = core := by
  obtain ⟨⟨lead, trail, hlead, htrail, rfl⟩, hfirst, hlast⟩ := hcore
  rw [strip, List.append_assoc, List.dropWhile_append_of_pos hlead]
  cases core with
  | nil =>
      rw [List.nil_append, List.dropWhile_eq_nil_iff.mpr htrail]
      rfl
  | cons c core =>
      have htrail' : ∀ d ∈ trail.reverse, unwanted d = true := by simpa using htrail
      rw [List.cons_append, List.dropWhile_cons_of_neg (by simp [hfirst c rfl]),
        ← List.cons_append, List.reverse_append, dropWhile_stretch htrail', List.reverse_reverse]
      rwa [List.head?_reverse]

/-- Stripping leaves the core of a text. -/
theorem strip_eq_iff : strip unwanted text = core ↔ IsCore unwanted text core :=
  ⟨fun hstrip => hstrip ▸ isCore_strip unwanted text, IsCore.strip_eq⟩

end Core

/-- The last of some signs parts a text in one way. -/
theorem append_sign_inj {sign : Char} {a b x y : List Char} (hx : sign ∉ x) (hy : sign ∉ y) :
    a ++ sign :: x = b ++ sign :: y ↔ a = b ∧ x = y := by
  constructor
  · intro h
    rcases List.append_eq_append_iff.mp h with ⟨mid, hb, htail⟩ | ⟨mid, ha, htail⟩
    · cases mid with
      | nil => exact ⟨by rw [hb, List.append_nil], (List.cons.inj htail).2⟩
      | cons c mid =>
          rw [List.cons_append] at htail
          exact absurd (by simp [(List.cons.inj htail).2]) hx
    · cases mid with
      | nil => exact ⟨by rw [ha, List.append_nil], (List.cons.inj htail).2.symm⟩
      | cons c mid =>
          rw [List.cons_append] at htail
          exact absurd (by simp [(List.cons.inj htail).2]) hy
  · rintro ⟨rfl, rfl⟩
    rfl

-- ================================================================= parts

variable {isSeparator : Char → Bool} {part text : List Char}

theorem splitAt_ne_nil (isSeparator : Char → Bool) (text : List Char) :
    splitAt isSeparator text ≠ [] := by
  cases text with
  | nil => exact List.cons_ne_nil _ _
  | cons c text =>
      rw [splitAt]
      split
      · exact List.cons_ne_nil _ _
      · split <;> exact List.cons_ne_nil _ _

/-- A text that begins without a separator has a first part that begins like
it. -/
theorem splitAt_cons (isSeparator : Char → Bool) {c : Char} (hc : isSeparator c = false)
    (text : List Char) :
    ∃ part parts, splitAt isSeparator text = part :: parts
      ∧ splitAt isSeparator (c :: text) = (c :: part) :: parts := by
  obtain ⟨part, parts, hsplit⟩ := List.exists_cons_of_ne_nil (splitAt_ne_nil isSeparator text)
  exact ⟨part, parts, hsplit, by simp [splitAt, hc, hsplit]⟩

/-- No part holds a separator. -/
theorem free_of_mem_splitAt (hmem : part ∈ splitAt isSeparator text) :
    ∀ c ∈ part, isSeparator c = false := by
  induction text generalizing part with
  | nil =>
      obtain rfl := List.mem_singleton.mp hmem
      exact fun c hc => absurd hc List.not_mem_nil
  | cons c text ih =>
      cases hc : isSeparator c with
      | true =>
          rw [splitAt, if_pos hc] at hmem
          rcases List.mem_cons.mp hmem with rfl | hmem
          · exact fun c hc => absurd hc List.not_mem_nil
          · exact ih hmem
      | false =>
          obtain ⟨first, parts, hrest, hsplit⟩ := splitAt_cons isSeparator hc text
          rw [hsplit] at hmem
          rw [hrest] at ih
          rcases List.mem_cons.mp hmem with rfl | hmem
          · intro d hd
            rcases List.mem_cons.mp hd with rfl | hd
            · exact hc
            · exact ih List.mem_cons_self d hd
          · exact ih (List.mem_cons_of_mem _ hmem)

/-- A text is split at a separator into the parts before and after it. -/
theorem splitAt_append (text : List Char) {sign : Char} (hsign : isSeparator sign = true)
    (more : List Char) : splitAt isSeparator (text ++ sign :: more)
      = splitAt isSeparator text ++ splitAt isSeparator more := by
  induction text with
  | nil => simp [splitAt, hsign]
  | cons c text ih =>
      cases hc : isSeparator c with
      | true => simp [splitAt, hc, ih]
      | false =>
          obtain ⟨part, parts, hrest, hsplit⟩ := splitAt_cons isSeparator hc text
          obtain ⟨whole, wholes, hmore, hcut⟩ :=
            splitAt_cons isSeparator hc (text ++ sign :: more)
          rw [ih, hrest, List.cons_append] at hmore
          obtain ⟨rfl, rfl⟩ := List.cons.inj hmore
          rw [List.cons_append, hcut, hsplit, List.cons_append]

/-- A text without a separator is one part. -/
theorem splitAt_free (hpart : ∀ c ∈ part, isSeparator c = false) :
    splitAt isSeparator part = [part] := by
  induction part with
  | nil => rfl
  | cons c part ih =>
      obtain ⟨hc, hpart⟩ := List.forall_mem_cons.mp hpart
      simp [splitAt, hc, ih hpart]

/-- Parts that are put together with a separator are split again. -/
theorem splitAt_join {sign : Char} (hsign : isSeparator sign = true) {parts : List (List Char)}
    (hsome : parts ≠ []) (hfree : ∀ part ∈ parts, ∀ c ∈ part, isSeparator c = false) :
    splitAt isSeparator (join [sign] parts) = parts := by
  induction parts with
  | nil => exact absurd rfl hsome
  | cons part parts ih =>
      obtain ⟨hpart, hfree⟩ := List.forall_mem_cons.mp hfree
      cases parts with
      | nil => exact splitAt_free hpart
      | cons next parts =>
          rw [join, List.append_assoc, List.singleton_append, splitAt_append _ hsign,
            splitAt_free hpart, ih (List.cons_ne_nil _ _) hfree, List.singleton_append]
          simp

-- ================================================================ joined

theorem join_eq_intercalate (glue : List Char) (parts : List (List Char)) :
    join glue parts = glue.intercalate parts := by
  induction parts with
  | nil => rfl
  | cons part parts ih =>
      cases parts with
      | nil => simp [join]
      | cons next parts => simp [join, ih]

theorem join_cons (glue part next : List Char) (parts : List (List Char)) :
    join glue (part :: next :: parts) = part ++ glue ++ join glue (next :: parts) := rfl

theorem join_cons_ne_nil {glue part : List Char} {parts : List (List Char)} (hpart : part ≠ []) :
    join glue (part :: parts) ≠ [] := by
  cases parts with
  | nil => exact hpart
  | cons next parts =>
      rw [join_cons, List.append_assoc]
      exact List.append_ne_nil_of_left_ne_nil hpart _

/-- Two parts can be taken as one. -/
theorem join_cons_cons (glue part next : List Char) (parts : List (List Char)) :
    join glue ((part ++ glue ++ next) :: parts) = join glue (part :: next :: parts) := by
  cases parts with
  | nil => rfl
  | cons later parts => simp [join_cons]

/-- What is put together in two goes is put together with a separator between. -/
theorem join_append (glue : List Char) {parts more : List (List Char)} (hparts : parts ≠ [])
    (hmore : more ≠ []) : join glue (parts ++ more) = join glue parts ++ glue ++ join glue more := by
  obtain ⟨next, later, rfl⟩ := List.exists_cons_of_ne_nil hmore
  induction parts with
  | nil => exact absurd rfl hparts
  | cons part parts ih =>
      cases parts with
      | nil => rfl
      | cons second parts =>
          have ih := ih (List.cons_ne_nil _ _)
          rw [List.cons_append] at ih
          rw [List.cons_append, List.cons_append, join_cons, ih, join_cons]
          simp

theorem join_concat (glue : List Char) {parts : List (List Char)} (hsome : parts ≠ [])
    (last : List Char) : join glue (parts ++ [last]) = join glue parts ++ glue ++ last :=
  join_append glue hsome (List.cons_ne_nil last [])

theorem join_cons_eq_append (glue part : List Char) (parts : List (List Char)) :
    join glue (part :: parts) = part ++ join glue ([] :: parts) := by
  cases parts with
  | nil => exact (List.append_nil part).symm
  | cons next parts => rw [join_cons, join_cons, List.nil_append, List.append_assoc]

/-- The parts of a text are put together to the text. -/
theorem join_splitAt (sign : Char) (text : List Char) :
    join [sign] (splitAt (· == sign) text) = text := by
  induction text with
  | nil => rfl
  | cons c text ih =>
      cases hc : c == sign with
      | true =>
          obtain ⟨part, parts, hsplit⟩ := List.exists_cons_of_ne_nil (splitAt_ne_nil (· == sign) text)
          rw [splitAt, if_pos hc, hsplit, join_cons, ← hsplit, ih, eq_of_beq hc]
          rfl
      | false =>
          obtain ⟨part, parts, hsplit, hcons⟩ := splitAt_cons (· == sign) hc text
          rw [hcons, join_cons_eq_append, List.cons_append, ← join_cons_eq_append, ← hsplit, ih]

/-- Texts with the same first part are the same only if the other parts are. -/
theorem join_cons_inj {sign : Char} (hsign : isSeparator sign = true)
    {parts others : List (List Char)} (hparts : ∀ part ∈ parts, ∀ c ∈ part, isSeparator c = false)
    (hothers : ∀ part ∈ others, ∀ c ∈ part, isSeparator c = false)
    (hsame : join [sign] (part :: parts) = join [sign] (part :: others)) : parts = others := by
  rw [join_cons_eq_append, join_cons_eq_append _ _ others] at hsame
  have hsplit := congrArg (splitAt isSeparator) (List.append_cancel_left hsame)
  rw [splitAt_join hsign (List.cons_ne_nil _ _), splitAt_join hsign (List.cons_ne_nil _ _)]
    at hsplit
  · exact (List.cons.inj hsplit).2
  · exact List.forall_mem_cons.mpr ⟨fun c hc => absurd hc List.not_mem_nil, hothers⟩
  · exact List.forall_mem_cons.mpr ⟨fun c hc => absurd hc List.not_mem_nil, hparts⟩

-- ========================================================= literal texts

/-- The characters of a text that is written in pieces, where the last piece is taken as it
is written. Evaluation decodes a text instead, in a time that grows with the square of its
length, so what evaluates a long text is rewritten with this first. -/
theorem toList_append_literal {first : String} {spelled more : List Char}
    (hfirst : first.toList = spelled) : (first ++ String.ofList more).toList = spelled ++ more := by
  rw [String.toList_append, String.toList_ofList, hfirst]

end Assay.Text
