/-
What counting braces takes out of a text. Whether a line begins the test is
settled by the characters up to a closing parenthesis (`Opening`), so blanks at
the line's end have no say; and while no line begins the test, every line stays.
So a text that holds no such line, as the rest of a file never does, is kept in
front of whatever follows it.
-/
import Assay.Proofs.Text.Blank
import Assay.Proofs.Text.Lines
import Assay.Proofs.Text.Search
import Assay.TestFile.Braces

namespace Assay.TestFile

open Text

-- =========================================================== the header

/-- What the header of a test looks like, in the notation of regular
expressions: `func\s+(\w+)\s*\(\s*\w+\s+\*testing\.T\s*\)`. -/
inductive Opening (name : List Char) : List Char → Prop
  | intro (gap gap₁ gap₂ argument gap₃ gap₄ : List Char)
      (blanks : allBlank (gap ++ gap₁ ++ gap₂ ++ gap₃ ++ gap₄) = true)
      (words : ∀ c ∈ name ++ argument, isWord c = true)
      (some : gap ≠ [] ∧ name ≠ [] ∧ argument ≠ [] ∧ gap₃ ≠ []) :
      Opening name ("func".toList ++ gap ++ name ++ gap₁ ++ ['('] ++ gap₂ ++ argument ++ gap₃
        ++ "*testing.T".toList ++ gap₄ ++ [')'])

/-- No blank is part of a word. -/
theorem isBlank_of_isWord {c : Char} (hword : isWord c = true) : isBlank c = false :=
  isBlank_of_class (by decide +kernel) hword

theorem isWord_of_isBlank {c : Char} (hblank : isBlank c = true) : isWord c = false := by
  by_contra hword
  rw [isBlank_of_isWord (Bool.not_eq_false _ ▸ hword)] at hblank
  cases hblank

variable {text rest : List Char}

theorem exists_gap (htrim : trimStart text = rest) :
    ∃ gap, allBlank gap = true ∧ text = gap ++ rest := by
  refine ⟨text.takeWhile isBlank, allBlank_iff.mpr fun _ => List.mem_takeWhile_imp, ?_⟩
  rw [← htrim]
  exact List.takeWhile_append_dropWhile.symm

/-- What is dropped is what fits, up to the first character that does not. -/
theorem dropWhile_append_exact {fits : Char → Bool} {first : List Char}
    (hfirst : ∀ c ∈ first, fits c = true) (hrest : ∀ c ∈ rest.head?, fits c = false) :
    (first ++ rest).dropWhile fits = rest := by
  rw [List.dropWhile_append_of_pos hfirst]
  cases rest with
  | nil => rfl
  | cons c rest => rw [List.dropWhile_cons_of_neg (by simpa using hrest)]

theorem trimStart_gap {gap : List Char} (hgap : allBlank gap = true)
    (hrest : ∀ c ∈ rest.head?, isBlank c = false) : trimStart (gap ++ rest) = rest :=
  dropWhile_append_exact (allBlank_iff.mp hgap) hrest

theorem afterBlanks?_eq_some (hafter : afterBlanks? text = some rest) :
    ∃ gap, gap ≠ [] ∧ allBlank gap = true ∧ text = gap ++ rest := by
  cases text with
  | nil => cases hafter
  | cons c text =>
      rw [afterBlanks?] at hafter
      split at hafter
      · next hc =>
          obtain ⟨gap, hgap, htext⟩ := exists_gap (Option.some.inj hafter)
          refine ⟨c :: gap, List.cons_ne_nil c gap, ?_, congrArg (c :: ·) htext⟩
          rw [allBlank, List.all_cons, hc]
          exact hgap
      · cases hafter

theorem afterBlanks?_gap {gap : List Char} (hsome : gap ≠ []) (hgap : allBlank gap = true)
    (hrest : ∀ c ∈ rest.head?, isBlank c = false) : afterBlanks? (gap ++ rest) = some rest := by
  cases gap with
  | nil => exact absurd rfl hsome
  | cons c gap =>
      obtain ⟨hc, hgap⟩ := List.forall_mem_cons.mp (allBlank_iff.mp hgap)
      rw [List.cons_append, afterBlanks?, if_pos hc, trimStart_gap (allBlank_iff.mpr hgap) hrest]

theorem word?_eq_some {word : List Char} (hword : word? text = some (word, rest)) :
    word ≠ [] ∧ (∀ c ∈ word, isWord c = true) ∧ text = word ++ rest := by
  unfold word? at hword
  split at hword
  · cases hword
  · next hsome =>
      obtain ⟨rfl, rfl⟩ := Prod.mk.inj (Option.some.inj hword)
      exact ⟨hsome, fun _ => List.mem_takeWhile_imp, List.takeWhile_append_dropWhile.symm⟩

theorem word?_word {word : List Char} (hsome : word ≠ []) (hword : ∀ c ∈ word, isWord c = true)
    (hrest : ∀ c ∈ rest.head?, isWord c = false) : word? (word ++ rest) = some (word, rest) := by
  have hdrop := dropWhile_append_exact hword hrest
  have htake : (word ++ rest).takeWhile isWord = word := by
    have hboth := List.takeWhile_append_dropWhile (p := isWord) (l := word ++ rest)
    rw [hdrop] at hboth
    exact List.append_cancel_right hboth
  unfold word?
  rw [htake, hdrop]
  cases word with
  | nil => exact absurd rfl hsome
  | cons c word => rfl

/-- The first character of a text stops a run that it does not fit. -/
theorem stops_append {fits : Char → Bool} {first : List Char} {c : Char}
    (hhead : first.head? = some c) (hc : fits c = false) :
    ∀ d ∈ (first ++ rest).head?, fits d = false := by
  rw [List.head?_append, hhead, Option.some_or]
  rintro _ ⟨rfl⟩
  exact hc

/-- A word ends at a gap, or at what comes after the gap if there is none. -/
theorem stops_word {gap : List Char} (hgap : allBlank gap = true)
    (hrest : ∀ c ∈ rest.head?, isWord c = false) :
    ∀ c ∈ (gap ++ rest).head?, isWord c = false := by
  cases gap with
  | nil => exact hrest
  | cons c gap =>
      exact stops_append rfl (isWord_of_isBlank (allBlank_iff.mp hgap c List.mem_cons_self))

/-- A gap ends at a word. -/
theorem stops_gap {word : List Char} (hsome : word ≠ [])
    (hword : ∀ c ∈ word, isWord c = true) : ∀ c ∈ (word ++ rest).head?, isBlank c = false := by
  cases word with
  | nil => exact absurd rfl hsome
  | cons c word => exact stops_append rfl (isBlank_of_isWord (hword c List.mem_cons_self))

/-- Whatever follows, a line that begins like a test begins that test. -/
theorem headerName?_opening {name opening : List Char} (hopening : Opening name opening)
    (rest : List Char) : headerName? (opening ++ rest) = some name := by
  obtain ⟨gap, gap₁, gap₂, argument, gap₃, gap₄, blanks, words, hsome, hname, hargument, hsome₃⟩ :=
    hopening
  simp only [allBlank_append, Bool.and_eq_true] at blanks
  obtain ⟨⟨⟨⟨hblank, hblank₁⟩, hblank₂⟩, hblank₃⟩, hblank₄⟩ := blanks
  obtain ⟨hwords, hwords'⟩ := List.forall_mem_append.mp words
  have hparen : isWord '(' = false := by decide +kernel
  have hstar : isWord '*' = false := by decide +kernel
  have hpointer : "*testing.T".toList.head? = some '*' := by decide +kernel
  simp only [List.append_assoc, headerName?, after?_append, Option.bind_eq_bind, Option.bind_some]
  rw [afterBlanks?_gap hsome hblank (stops_gap hname hwords), Option.bind_some,
    word?_word hname hwords (stops_word hblank₁ (stops_append rfl hparen)), Option.bind_some]
  dsimp only
  rw [trimStart_gap hblank₁ (stops_append rfl rfl), after?_append, Option.bind_some,
    trimStart_gap hblank₂ (stops_gap hargument hwords'),
    word?_word hargument hwords' (stops_word hblank₃ (stops_append hpointer hstar)),
    Option.bind_some]
  dsimp only
  rw [afterBlanks?_gap hsome₃ hblank₃ (stops_append hpointer rfl), Option.bind_some,
    after?_append, Option.bind_some, trimStart_gap hblank₄ (stops_append rfl rfl), after?_append,
    Option.bind_some]
  rfl

/-- A line begins a test when it begins like one. -/
theorem headerName?_eq_some_iff {line name : List Char} :
    headerName? line = some name ↔ ∃ opening rest, Opening name opening ∧ line = opening ++ rest := by
  constructor
  · intro hheader
    simp only [headerName?, Option.bind_eq_bind, Option.bind_eq_some_iff, Prod.exists,
      after?_eq_some_iff] at hheader
    obtain ⟨t₁, rfl, t₂, hgap, word, t₃, hword, t₄, hparen, argument, t₅, hargument, t₆, hgap₃, t₇,
      rfl, t₈, hclose, hname⟩ := hheader
    obtain rfl := Option.some.inj hname
    obtain ⟨gap, hsome, hblank, rfl⟩ := afterBlanks?_eq_some hgap
    obtain ⟨hname, hwords, rfl⟩ := word?_eq_some hword
    obtain ⟨gap₁, hblank₁, rfl⟩ := exists_gap hparen
    obtain ⟨hargument', hwords', hrest⟩ := word?_eq_some hargument
    obtain ⟨gap₂, hblank₂, rfl⟩ := exists_gap hrest
    obtain ⟨gap₃, hsome₃, hblank₃, rfl⟩ := afterBlanks?_eq_some hgap₃
    obtain ⟨gap₄, hblank₄, rfl⟩ := exists_gap hclose
    refine ⟨_, t₈, .intro gap gap₁ gap₂ argument gap₃ gap₄ ?_ ?_
      ⟨hsome, hname, hargument', hsome₃⟩, ?_⟩
    · simp only [allBlank_append, Bool.and_eq_true]
      exact ⟨⟨⟨⟨hblank, hblank₁⟩, hblank₂⟩, hblank₃⟩, hblank₄⟩
    · exact List.forall_mem_append.mpr ⟨hwords, hwords'⟩
    · simp only [List.append_assoc]
  · rintro ⟨opening, rest, hopening, rfl⟩
    exact headerName?_opening hopening rest

theorem getLast?_opening {name opening : List Char} (hopening : Opening name opening) :
    opening.getLast? = some ')' := by
  cases hopening
  exact List.getLast?_concat

variable {name : String} {line : List Char}

theorem isHeader_iff : isHeader name line = true
    ↔ ∃ opening rest, Opening name.toList opening ∧ line = opening ++ rest := by
  rw [isHeader, beq_iff_eq, headerName?_eq_some_iff]

/-- Blanks at the end of a line make no header. -/
theorem isHeader_of_append {gap : List Char} (hgap : allBlank gap = true)
    (hheader : isHeader name (line ++ gap) = true) : isHeader name line = true := by
  obtain ⟨opening, rest, hopening, hline⟩ := isHeader_iff.mp hheader
  refine isHeader_iff.mpr ⟨opening, ?_⟩
  rcases List.append_eq_append_iff.mp hline with ⟨past, rfl, hpast⟩ | ⟨rest', rfl, -⟩
  · -- An opening that reaches past the line ends in the blanks, but it ends in
    -- a parenthesis.
    have hnone : past = [] := by
      by_contra hsome
      have hlast := getLast?_opening hopening
      rw [List.getLast?_append_of_ne_nil _ hsome] at hlast
      have hmem : ')' ∈ gap := hpast ▸ List.mem_append_left rest (List.mem_of_getLast? hlast)
      cases allBlank_iff.mp hgap _ hmem
    exact ⟨[], hopening, by rw [hnone, List.append_nil, List.append_nil]⟩
  · exact ⟨rest', hopening, rfl⟩

theorem isHeader_append (more : List Char) (hheader : isHeader name line = true) :
    isHeader name (line ++ more) = true := by
  obtain ⟨opening, rest, hopening, rfl⟩ := isHeader_iff.mp hheader
  exact isHeader_iff.mpr ⟨opening, rest ++ more, hopening, List.append_assoc ..⟩

-- ============================================================ the lines

/-- None of a text's lines begins the test. -/
def Headless (name : String) (text : List Char) : Prop :=
  ∀ line ∈ linesKept text, isHeader name line = false

theorem keptLines_sublist (inside : Option Block) (lines : List (List Char)) :
    (keptLines name inside lines).Sublist lines := by
  induction lines generalizing inside with
  | nil => exact .slnil
  | cons line lines ih =>
      unfold keptLines
      dsimp only
      split
      · exact (ih none).cons_cons line
      · exact (ih _).cons line

theorem isHeader_of_mem_keptLines {inside : Option Block} {lines : List (List Char)}
    (hmem : line ∈ keptLines name inside lines) : isHeader name line = false := by
  induction lines generalizing inside with
  | nil => cases hmem
  | cons first lines ih =>
      unfold keptLines at hmem
      dsimp only at hmem
      split at hmem
      · next houtside =>
          rcases List.mem_cons.mp hmem with rfl | hmem
          · cases inside with
            | none => simpa using houtside
            | some block => cases houtside
          · exact ih hmem
      · exact ih hmem

/-- What is left begins the test nowhere. -/
theorem headless_withoutTest (name : String) (text : List Char) :
    Headless name (withoutTest name text) := by
  intro line hmem
  rw [withoutTest, linesKept_flatten (keptLines_sublist none _)] at hmem
  exact isHeader_of_mem_keptLines hmem

theorem keptLines_append {first : List (List Char)}
    (hfirst : ∀ line ∈ first, isHeader name line = false) (more : List (List Char)) :
    keptLines name none (first ++ more) = first ++ keptLines name none more := by
  induction first with
  | nil => rfl
  | cons line first ih =>
      obtain ⟨hline, hfirst⟩ := List.forall_mem_cons.mp hfirst
      rw [List.cons_append, keptLines, hline]
      exact congrArg (line :: ·) (ih hfirst)

/-- Up to a feed, a text without a header is kept. -/
theorem withoutTest_append {front : List Char} (headless : Headless name (front ++ ['\n']))
    (more : List Char) :
    withoutTest name (front ++ '\n' :: more) = front ++ '\n' :: withoutTest name more := by
  rw [withoutTest, linesKept_append, keptLines_append headless, List.flatten_append,
    flatten_linesKept, List.append_assoc, List.singleton_append, withoutTest]

/-- A feed in place of the blanks at its end makes no line of a text a header. -/
theorem Headless.feed {gap : List Char} (hgap : allBlank gap = true)
    (headless : Headless name (text ++ gap)) : Headless name (text ++ ['\n']) := by
  induction text using byLine with
  | last body hbody =>
      intro line hmem
      rw [linesKept_line hbody] at hmem
      obtain rfl := List.mem_singleton.mp hmem
      by_contra hheader
      have hbegins := isHeader_of_append rfl (Bool.not_eq_false _ ▸ hheader)
      have hsome : body ≠ [] := by
        rintro rfl
        cases hbegins
      -- The line that the body begins is a header as well.
      have hnone (rest : List Char) (hmem : body ++ rest ∈ linesKept (body ++ gap)) : False := by
        have hheadless := headless _ hmem
        rw [isHeader_append rest hbegins] at hheadless
        cases hheadless
      cases gap using byLine with
      | last gap hgap' =>
          refine hnone gap ?_
          rw [linesKept_last (by simp [hbody, hgap']) (by simp [hsome])]
          exact List.mem_singleton_self _
      | line gap more hgap' _ =>
          refine hnone (gap ++ ['\n']) ?_
          rw [← List.append_assoc, ← List.append_assoc, linesKept_line (by simp [hbody, hgap'])]
          exact List.mem_cons_self
  | line body more hbody ih =>
      rw [Headless, List.append_assoc, List.cons_append, linesKept_line hbody] at headless ⊢
      obtain ⟨hline, hmore⟩ := List.forall_mem_cons.mp headless
      exact List.forall_mem_cons.mpr ⟨hline, ih hmore⟩

end Assay.TestFile
