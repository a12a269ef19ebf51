/-
The first prompt can be read back. Its sections come in a fixed order, each with
a heading of its own, and the first letter of a heading tells which one it is.
What a section quotes stands in fences, and a text without three backticks in a
row cannot close its own fence: the fence is closed by the first line break with
three backticks after it, and the quoted text holds none.

So `read?` takes a prompt apart. It takes one fenced text off the front
(`unfence?_fenced`), then as many as follow one another (`unfenceAll_append`),
and then the sections. Prompts that are the same were therefore made of the same
examples, definitions and function, up to the blanks at their ends.
-/
import Assay.Prompt.Assemble
import Assay.Proofs.Text.Blank
import Assay.Proofs.Text.Search

namespace Assay.Prompt

open Text

variable {text body rest source : List Char} {examples bodies : List (List Char)}
  {groups : Catalog (List Definition)}

-- ============================================================== backticks

/-- Three backticks in a row. -/
def ticks : List Char := "\x60\x60\x60".toList

/-- The text does not hold three backticks in a row. -/
def Fenceless (text : List Char) : Prop := ¬ ticks <:+: text

instance : Decidable (Fenceless text) := inferInstanceAs (Decidable (¬ ticks <:+: text))

theorem Fenceless.of_infix {part : List Char} (htext : Fenceless text) (hpart : part <:+: text) :
    Fenceless part :=
  fun hticks => htext (hticks.trans hpart)

theorem Fenceless.trimEnd (htext : Fenceless text) : Fenceless (trimEnd text) :=
  htext.of_infix (List.rdropWhile_prefix isBlank text).isInfix

/-- Nothing before a text is part of its backticks, when it holds no backtick. -/
theorem Fenceless.append {lead : List Char} (hlead : '\x60' ∉ lead) (htext : Fenceless text) :
    Fenceless (lead ++ text) := by
  induction lead with
  | nil => exact htext
  | cons c lead ih =>
      obtain ⟨hc, hlead⟩ := not_or.mp (mt List.mem_cons.mpr hlead)
      intro hticks
      rcases List.infix_cons_iff.mp hticks with ⟨more, hmore⟩ | hticks
      · exact hc (List.cons.inj hmore).1
      · exact ih hlead hticks

/-- Backticks that begin in a line end in it. -/
theorem prefix_of_prefix_line (body rest : List Char) (hticks : ticks <+: body ++ '\n' :: rest) :
    ticks <+: body := by
  obtain ⟨more, hmore⟩ := hticks
  rcases body with _ | ⟨a, _ | ⟨b, _ | ⟨c, body⟩⟩⟩ <;> simp [ticks] at hmore
  obtain ⟨rfl, rfl, rfl, -⟩ := hmore
  exact ⟨body, rfl⟩

/-- Three backticks in two lines are all in one of them. -/
theorem Fenceless.line (hbody : Fenceless body) (hrest : Fenceless rest) :
    Fenceless (body ++ '\n' :: rest) := by
  induction body with
  | nil =>
      intro hticks
      rcases List.infix_cons_iff.mp hticks with hticks | hticks
      · obtain ⟨more, hmore⟩ := prefix_of_prefix_line [] rest hticks
        cases hmore
      · exact hrest hticks
  | cons c body ih =>
      intro hticks
      rcases List.infix_cons_iff.mp hticks with hticks | hticks
      · exact hbody (prefix_of_prefix_line (c :: body) rest hticks).isInfix
      · exact ih (hbody.of_infix (List.suffix_cons c body).isInfix) hticks

-- =============================================================== fences

/-- What a fenced text begins with. -/
def opening : List Char := ticks ++ "go\n".toList

/-- What a fenced text ends with. -/
def closing : List Char := '\n' :: (ticks ++ ['\n'])

theorem fenced_eq (body : List Char) : fenced body = opening ++ body ++ closing := rfl

/-- Takes a fenced text off the front. -/
def unfence? (text : List Char) : Option (List Char × List Char) :=
  (after? opening text).bind (splitOnce? closing)

/-- The fence of a text is closed where the text ends. -/
theorem splitOnce?_closing (hbody : Fenceless body) (rest : List Char) :
    splitOnce? closing (body ++ (closing ++ rest)) = some (body, rest) := by
  induction body with
  | nil =>
      exact splitOnce?_of_after? (after?_append closing rest)
  | cons c body ih =>
      have hnone : after? closing (c :: (body ++ (closing ++ rest))) = none := by
        by_contra hsome
        obtain ⟨more, hmore⟩ := Option.ne_none_iff_exists'.mp hsome
        have hline := after?_eq_some_iff.mp hmore
        obtain ⟨rfl, hbreak⟩ := List.cons.inj hline
        -- a line break in the text would have the three backticks in the text after it
        have hticks : ticks <+: body ++ '\n' :: (ticks ++ ['\n'] ++ rest) :=
          ⟨['\n'] ++ more, by rw [← List.append_assoc]; exact hbreak.symm⟩
        have hin := (prefix_of_prefix_line _ _ hticks).isInfix
        exact hbody (hin.trans (List.suffix_cons _ body).isInfix)
      rw [List.cons_append, splitOnce?, hnone]
      dsimp only
      rw [ih (hbody.of_infix (List.suffix_cons c body).isInfix)]
      rfl

theorem unfence?_fenced (hbody : Fenceless body) (rest : List Char) :
    unfence? (fenced body ++ rest) = some (body, rest) := by
  rw [unfence?, fenced_eq, List.append_assoc, List.append_assoc, after?_append]
  exact splitOnce?_closing hbody rest

/-- What begins otherwise is no fenced text. -/
theorem unfence?_eq_none {c : Char} (hc : c ≠ '\x60') (text : List Char) :
    unfence? (c :: text) = none := by
  have hafter : after? opening (c :: text) = none := if_neg hc.symm
  rw [unfence?, hafter]
  rfl

/-- What is left after a fenced text is shorter. -/
theorem length_of_unfence? (hread : unfence? text = some (body, rest)) :
    rest.length < text.length := by
  obtain ⟨inner, hafter, hsplit⟩ := Option.bind_eq_some_iff.mp hread
  rw [after?_eq_some_iff.mp hafter, eq_append_of_splitOnce? hsplit]
  simp [opening, ticks]
  omega

/-- Takes off all fenced texts that follow one another, each with a line after
it. -/
def unfenceAll (text : List Char) : List (List Char) × List Char :=
  match _hread : unfence? text with
  | some (body, '\n' :: rest) =>
    let (bodies, rest) := unfenceAll rest
    (body :: bodies, rest)
  | _ => ([], text)
termination_by text.length
decreasing_by
  have hlength := length_of_unfence? _hread
  rw [List.length_cons] at hlength
  omega

/-- Fenced texts, each with a line after it. -/
def fencedAll (bodies : List (List Char)) : List Char :=
  bodies.flatMap fun body => fenced body ++ ['\n']

theorem unfenceAll_append (hbodies : ∀ body ∈ bodies, Fenceless body)
    (hrest : unfence? rest = none) : unfenceAll (fencedAll bodies ++ rest) = (bodies, rest) := by
  induction bodies with
  | nil =>
      show unfenceAll rest = _
      rw [unfenceAll]
      split
      · next hread => rw [hrest] at hread; cases hread
      · rfl
  | cons body bodies ih =>
      obtain ⟨hbody, hbodies⟩ := List.forall_mem_cons.mp hbodies
      have hread := unfence?_fenced hbody ('\n' :: (fencedAll bodies ++ rest))
      rw [fencedAll, List.flatMap_cons, List.append_assoc, List.append_assoc,
        List.singleton_append, unfenceAll]
      split
      · next hfirst =>
          rw [← fencedAll, hread] at hfirst
          cases hfirst
          rw [ih hbodies]
      · next hnot => exact absurd hread (hnot _ _)

-- ============================================================== sections

/-- The fenced texts under a heading, when the text begins with it. -/
def unfenceSection (heading text : List Char) : List (List Char) × List Char :=
  match after? heading text with
  | some rest => unfenceAll rest
  | none => ([], text)

theorem unfenceSection_append {heading : List Char} (hbodies : ∀ body ∈ bodies, Fenceless body)
    (hrest : unfence? rest = none) :
    unfenceSection heading (heading ++ (fencedAll bodies ++ rest)) = (bodies, rest) := by
  rw [unfenceSection, after?_append]
  exact unfenceAll_append hbodies hrest

/-- What a prompt is made of. -/
structure Contents where
  examples : List (List Char)
  blocks : List (List Char)
  source : List Char

/-- What a prompt was made of. -/
def read? (prompt : List Char) : Option Contents := do
  let (examples, rest) := unfenceSection exampleHeading prompt
  -- the examples have an empty line after them
  let (blocks, rest) := unfenceSection groupHeading (if examples.isEmpty then rest else rest.drop 1)
  let focal ← after? focalHeading rest
  let (source, rest) ← unfence? focal
  if rest = instructions then some ⟨examples, blocks, source⟩ else none

/-- Examples, definitions and function can be quoted: no text has a fence in it. -/
structure Quotable (examples : List (List Char)) (groups : Catalog (List Definition))
    (source : List Char) : Prop where
  examples : ∀ content ∈ examples, Fenceless content
  packages : ∀ group ∈ groups.entries, Fenceless group.1.toList
  bodies : ∀ group ∈ groups.entries, ∀ definition ∈ group.2, ∀ body ∈ definition.body,
    Fenceless body.toList
  source : Fenceless source

/-- The file that is made of the definitions of a package has no fence either. -/
theorem fenceless_packageBlock? {package : String} {definitions : List Definition}
    {block : List Char} (hpackage : Fenceless package.toList)
    (hbodies : ∀ definition ∈ definitions, ∀ body ∈ definition.body, Fenceless body.toList)
    (hblock : packageBlock? package definitions = some block) : Fenceless block := by
  have hbodies : ∀ body ∈ definitions.filterMap (·.body), Fenceless body.toList := by
    intro body hmem
    obtain ⟨definition, hdefinition, hbody⟩ := List.mem_filterMap.mp hmem
    exact hbodies definition hdefinition body hbody
  unfold packageBlock? at hblock
  generalize definitions.filterMap (·.body) = bodies at hbodies hblock
  have hall : Fenceless (bodies.flatMap fun body => ['\n'] ++ trimEnd body.toList ++ ['\n']) := by
    clear hblock
    induction bodies with
    | nil => decide
    | cons body bodies ih =>
        obtain ⟨hbody, hbodies⟩ := List.forall_mem_cons.mp hbodies
        rw [List.flatMap_cons, List.append_assoc, List.append_assoc]
        exact (hbody.trimEnd.line (ih hbodies)).append (by decide)
  split at hblock
  · cases hblock
  · obtain rfl := Option.some.inj hblock
    rw [List.append_assoc _ ['\n']]
    exact ((hpackage.append (by decide)).line hall).trimEnd

theorem Quotable.blocks (hquotable : Quotable examples groups source) :
    ∀ block ∈ packageBlocks groups, Fenceless block := by
  intro block hmem
  obtain ⟨group, hgroup, hblock⟩ := List.mem_filterMap.mp hmem
  exact fenceless_packageBlock? (hquotable.packages group hgroup) (hquotable.bodies group hgroup)
    hblock

theorem exampleSection_eq (hsome : examples ≠ []) : exampleSection examples
    = exampleHeading ++ fencedAll (examples.map trimEnd) ++ ['\n'] := by
  obtain ⟨content, more, rfl⟩ := List.exists_cons_of_ne_nil hsome
  rw [fencedAll, List.flatMap_map]
  rfl

theorem groupSection_eq (hsome : packageBlocks groups ≠ []) :
    groupSection groups = groupHeading ++ fencedAll (packageBlocks groups) := by
  unfold groupSection
  split
  · next hnone => exact absurd hnone hsome
  · rfl

/-- What is read from a prompt is what it was made of. -/
theorem read?_arrange (hquotable : Quotable examples groups source) :
    read? (arrange examples groups source)
      = some ⟨examples.map trimEnd, packageBlocks groups, trimEnd source⟩ := by
  have hfocal : unfence? (fenced (trimEnd source) ++ instructions)
      = some (trimEnd source, instructions) := unfence?_fenced hquotable.source.trimEnd _
  have hgroups : unfenceSection groupHeading
      (groupSection groups ++ (focalSection source ++ instructions))
        = (packageBlocks groups, focalSection source ++ instructions) := by
    by_cases hnone : packageBlocks groups = []
    · rw [groupSection, hnone]
      rfl
    · rw [groupSection_eq hnone, List.append_assoc]
      exact unfenceSection_append hquotable.blocks (unfence?_eq_none (by decide) _)
  have hexamples : ∃ rest, unfenceSection exampleHeading (arrange examples groups source)
      = (examples.map trimEnd, rest)
        ∧ (if (examples.map trimEnd).isEmpty then rest else rest.drop 1)
          = groupSection groups ++ (focalSection source ++ instructions) := by
    unfold arrange
    rw [List.append_assoc, List.append_assoc]
    by_cases hnone : examples = []
    · subst hnone
      refine ⟨_, ?_, rfl⟩
      -- what comes next begins with another letter
      by_cases hblocks : packageBlocks groups = []
      · rw [groupSection, hblocks]
        rfl
      · rw [groupSection_eq hblocks]
        rfl
    · refine ⟨'\n' :: (groupSection groups ++ (focalSection source ++ instructions)), ?_, ?_⟩
      · rw [exampleSection_eq hnone, List.append_assoc, List.append_assoc]
        refine unfenceSection_append ?_ (unfence?_eq_none (by decide) _)
        intro content hmem
        obtain ⟨whole, hwhole, rfl⟩ := List.mem_map.mp hmem
        exact (hquotable.examples whole hwhole).trimEnd
      · rw [if_neg (by simpa using hnone)]
        rfl
  obtain ⟨rest, hread, hrest⟩ := hexamples
  unfold read?
  rw [hread]
  dsimp only
  rw [hrest, hgroups]
  dsimp only
  rw [focalSection, List.append_assoc, after?_append]
  simp only [Option.bind_eq_bind, Option.bind_some, hfocal, if_true]

-- ============================================================== prompts

/-- A section with its heading, or nothing. -/
def IsSection (heading : List Char) (present : Prop) (text : List Char) : Prop :=
  present ∧ heading <+: text ∨ ¬ present ∧ text = []

theorem isSection_exampleSection (examples : List (List Char)) :
    IsSection exampleHeading (examples ≠ []) (exampleSection examples) := by
  by_cases hnone : examples = []
  · exact Or.inr ⟨not_not.mpr hnone, by rw [hnone]; rfl⟩
  · refine Or.inl ⟨hnone, ?_⟩
    rw [exampleSection_eq hnone, List.append_assoc]
    exact List.prefix_append _ _

/-- A package has a file when one of its definitions has a body. -/
theorem packageBlock?_eq_none_iff {package : String} {definitions : List Definition} :
    packageBlock? package definitions = none
      ↔ ∀ definition ∈ definitions, definition.body = none := by
  rw [← List.filterMap_eq_nil_iff]
  unfold packageBlock?
  split
  · next hnone => exact iff_of_true rfl hnone
  · next hsome => exact iff_of_false (Option.some_ne_none _) hsome

theorem isSection_groupSection (groups : Catalog (List Definition)) :
    IsSection groupHeading
      (∃ group ∈ groups.entries, ∃ definition ∈ group.2, definition.body ≠ none)
      (groupSection groups) := by
  have hblocks : packageBlocks groups = []
      ↔ ¬ ∃ group ∈ groups.entries, ∃ definition ∈ group.2, definition.body ≠ none := by
    unfold packageBlocks
    rw [List.filterMap_eq_nil_iff]
    simp only [packageBlock?_eq_none_iff, not_exists, not_and, not_not]
  by_cases hnone : packageBlocks groups = []
  · exact Or.inr ⟨hblocks.mp hnone, by rw [groupSection, hnone]⟩
  · refine Or.inl ⟨not_not.mp (mt hblocks.mpr hnone), ?_⟩
    rw [groupSection_eq hnone]
    exact List.prefix_append _ _

/-- A prompt has its sections in order, each exactly when there is something to
show in it; and prompts that quote no fence are the same only if they were made
of the same examples, packages and function. -/
theorem arrange_decodable (examples : List (List Char)) (groups : Catalog (List Definition))
    (source : List Char) :
    (arrange examples groups source
        = exampleSection examples ++ groupSection groups ++ focalSection source ++ instructions
      ∧ IsSection exampleHeading (examples ≠ []) (exampleSection examples)
      ∧ IsSection groupHeading
        (∃ group ∈ groups.entries, ∃ definition ∈ group.2, definition.body ≠ none)
        (groupSection groups)
      ∧ IsSection focalHeading True (focalSection source))
    ∧ ∀ others more another, Quotable examples groups source → Quotable others more another →
      arrange examples groups source = arrange others more another →
      examples.map trimEnd = others.map trimEnd ∧ packageBlocks groups = packageBlocks more
        ∧ trimEnd source = trimEnd another := by
  refine ⟨⟨rfl, isSection_exampleSection examples, isSection_groupSection groups,
    Or.inl ⟨trivial, List.prefix_append _ _⟩⟩, fun others more another hthis hother hsame => ?_⟩
  have hread := congrArg read? hsame
  rw [read?_arrange hthis, read?_arrange hother] at hread
  obtain ⟨hexamples, hblocks, hsource⟩ := Contents.mk.inj (Option.some.inj hread)
  exact ⟨hexamples, hblocks, hsource⟩

/-- A package with one function. -/
def packageOf (name body : String) : String × List Definition :=
  (name, [.function ⟨⟨name ++ ".Add"⟩, "Add", ⟨name, name⟩, none, none, "func Add()", some body⟩])

/-- Texts that imitate a heading and end in two backticks are not taken for the
section they imitate: that would be another prompt. -/
theorem arrange_decodable_imitated :
    Quotable ["Given:\n\x60\x60".toList] ⟨[]⟩ "func Use()".toList
      ∧ Quotable [] ⟨[packageOf "calc" "// \x60\x60"]⟩ "func Use()".toList
      ∧ arrange ["Given:\n\x60\x60".toList] ⟨[]⟩ "func Use()".toList
        ≠ arrange [] ⟨[packageOf "calc" "// \x60\x60"]⟩ "func Use()".toList := by
  have hexample : Quotable ["Given:\n\x60\x60".toList] ⟨[]⟩ "func Use()".toList := by
    constructor <;> decide +kernel
  have hpackage : Quotable [] ⟨[packageOf "calc" "// \x60\x60"]⟩ "func Use()".toList := by
    constructor <;> decide +kernel
  refine ⟨hexample, hpackage, fun hsame => ?_⟩
  obtain ⟨hexamples, -, -⟩ := (arrange_decodable _ _ _).2 _ _ _ hexample hpackage hsame
  cases hexamples

end Assay.Prompt
