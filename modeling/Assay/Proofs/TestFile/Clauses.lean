/-
The package clauses that a test brings into its file. Of an answer that begins
with the word `package` and a space, the first line is dropped; a clause that is
written in another way stays in the source of the test, for a source may hold any
number of them. How many there are can be told from its words, and a save adds
them to the clause of the file.
-/
import Assay.Proofs.Disk
import Assay.Proofs.Syntax.Clauses
import Assay.Proofs.Syntax.Joining
import Assay.Proofs.Text.Identifier
import Assay.Proofs.TestFile.Again
import Assay.Proofs.TestFile.Lines

namespace Assay.Syntax

variable {text more : List Char} {tokens : List Token} {tree : Tree}

-- =============================================================== tokens

theorem clauseWords_shift (offset : Nat) (tokens : List Token) :
    clauseWords (tokens.map (Token.shift offset)) = (clauseWords tokens).map (· + offset) := by
  rw [clauseWords, clauseWords, List.filter_map, List.map_map, List.map_map]
  rfl

theorem clauseWords_breaks (htags : ∀ token ∈ tokens, token.tag = .lineBreak) :
    clauseWords tokens = [] := by
  rw [clauseWords, List.filter_eq_nil_iff.mpr]
  · rfl
  · intro token hmem
    rw [htags token hmem]
    decide

/-- No comment of a text is left open. -/
def CommentsEnd (text : List Char) : Prop :=
  ∀ piece ∈ Lexer.pieces text, piece.lexeme = .token (.sign .slash) →
    Text.beginsWith ['/', '*'] (text.drop piece.start) = false

instance : Decidable (CommentsEnd text) :=
  inferInstanceAs (Decidable (∀ piece ∈ Lexer.pieces text, _))

/-- Without stray tokens and open comments, nothing is left open. -/
theorem sealed_of_proper (hproper : ∀ token ∈ Lexer.tokens text, token.tag ≠ .stray)
    (hcomments : CommentsEnd text) : Lexer.Sealed text := by
  refine fun piece hmem => ⟨fun hstray => ?_, hcomments piece hmem⟩
  exact hproper _ (Lexer.mem_tokensAmong_of_piece hmem hstray) rfl

/-- A text without stray tokens leaves no string open. -/
theorem closed_of_proper (hproper : ∀ token ∈ Lexer.tokens text, token.tag ≠ .stray)
    (hopen : CommentsEnd text ∨ Lexer.commentTail more = none) : Lexer.Closed text more := by
  refine fun piece hmem => ⟨fun hstray => ?_, fun hslash hbegins => ?_⟩
  · exact hproper _ (Lexer.mem_tokensAmong_of_piece hmem hstray) rfl
  · refine hopen.resolve_left fun hcomments => ?_
    rw [hcomments piece hmem hslash] at hbegins
    cases hbegins

/-- The clauses of joined texts. -/
theorem clauseWords_line (hclosed : Lexer.Closed text more) (hmark : more.head? ≠ some '\uFEFF') :
    clauseWords (Lexer.tokens (text ++ '\n' :: more)) = clauseWords (Lexer.tokens text)
      ++ (clauseWords (Lexer.tokens more)).map (· + (text.length + 1)) := by
  obtain ⟨breaks, htags, htokens⟩ := Lexer.tokens_line hclosed hmark
  rw [htokens, clauseWords_append, clauseWords_append, clauseWords_breaks htags, List.append_nil,
    clauseWords_shift]

/-- The tokens of what comes after a line feed are proper where all are. -/
theorem proper_line (hclosed : Lexer.Closed text more) (hmark : more.head? ≠ some '\uFEFF')
    (hproper : ∀ token ∈ Lexer.tokens (text ++ '\n' :: more), token.tag ≠ .stray) :
    ∀ token ∈ Lexer.tokens more, token.tag ≠ .stray := by
  obtain ⟨breaks, -, htokens⟩ := Lexer.tokens_line hclosed hmark
  intro token hmem
  refine hproper (Token.shift (text.length + 1) token) ?_
  rw [htokens]
  exact List.mem_append_right _ (List.mem_map_of_mem hmem)

end Assay.Syntax

namespace Assay.GeneratedTest

open Syntax Text

variable {raw : List Char} {test : GeneratedTest}

-- ============================================================ the source

/-- The source of a test is the answer without its fence and its first clause, and
it parses under a clause line. -/
theorem source_of_ofAnswer (hanswer : ofAnswer raw = .ok test) :
    test.source = withoutClause (withoutFences raw)
      ∧ ∃ tree, parse? (clauseLine ++ test.source) = some tree := by
  unfold ofAnswer at hanswer
  dsimp only at hanswer
  split at hanswer
  · cases hanswer
  · next tree hparse =>
      split at hanswer
      · obtain rfl := Except.ok.inj hanswer
        simp only [true_and]
        exact ⟨tree, hparse⟩
      · cases hanswer

/-- No blanks stand at the ends of an answer without its first clause. -/
theorem trim_withoutClause (raw : List Char) :
    trim (withoutClause (withoutFences raw)) = withoutClause (withoutFences raw) := by
  obtain ⟨text, htext⟩ : ∃ text, withoutFences raw = trim text := ⟨_, rfl⟩
  unfold withoutClause
  split
  · split
    · next left rest hsplit =>
        rw [trim, trimStart_trimStart]
        refine trimEnd_eq_self fun c hlast => ?_
        have hrest : left ++ (['\n'] ++ rest)
            = left ++ ['\n'] ++ rest.takeWhile isBlank ++ trimStart rest := by
          rw [trimStart, List.append_assoc _ (rest.takeWhile isBlank),
            List.takeWhile_append_dropWhile, List.append_assoc]
        have hsource := eq_append_of_splitOnce? hsplit
        rw [hrest, htext] at hsource
        have hend : (trim text).getLast? = some c := by
          rw [hsource, List.getLast?_append, hlast]
          rfl
        exact isBlank_getLast?_trim hend
    · rfl
  · rw [htext, trim_trim]

/-- The line put in front of a source leaves nothing open. -/
theorem closed_clauseLine (more : List Char) : Lexer.Closed "package main".toList more :=
  closed_of_proper (by decide +kernel) (.inl (by unfold CommentsEnd; decide +kernel))

theorem clauseLine_append (more : List Char) :
    clauseLine ++ more = "package main".toList ++ '\n' :: more := by
  have hline : clauseLine = "package main".toList ++ ['\n'] := by decide +kernel
  rw [hline, List.append_assoc, List.singleton_append]

/-- The source of a test has no stray tokens. -/
theorem proper_source (hanswer : ofAnswer raw = .ok test) :
    test.source.head? ≠ some '\uFEFF' ∧ ∀ token ∈ Lexer.tokens test.source, token.tag ≠ .stray := by
  obtain ⟨-, tree, hparse⟩ := source_of_ofAnswer hanswer
  obtain ⟨-, hproper⟩ := clauseStarts_of_parse? hparse
  rw [clauseLine_append] at hproper
  have hclosed := closed_clauseLine test.source
  have hmark := Lexer.head?_ne_mark hclosed hproper
  exact ⟨hmark, proper_line hclosed hmark hproper⟩

end Assay.GeneratedTest

namespace Assay.TestFile

open Syntax Text

variable {raw existing : List Char} {test : GeneratedTest} {package : String} {start : Nat}

-- ============================================================== the file

/-- What a save leaves before the test holds one package clause, and no string or
comment in it is left open. -/
structure LeavesClause (existing : List Char) (package : String) (test : GeneratedTest)
    (start : Nat) : Prop where
  clause : clauseWords (Lexer.tokens (front existing package test)) = [start]
  ends : Lexer.Sealed (front existing package test)

/-- A word that may be the name of a package. -/
structure IsPackageName (word : List Char) : Prop where
  begins : ∃ c ∈ word.head?, isIdentifierStart c = true
  goesOn : ∀ c ∈ word, isIdentifierPart c = true
  name : Reader.isName (Tag.ofWord word) = true

theorem ne_of_isName {tag other : Tag} (hname : Reader.isName tag = true)
    (hother : Reader.isName other = false) : tag ≠ other := by
  rintro rfl
  rw [hname] at hother
  cases hother

theorem ne_of_isIdentifierStart {c d : Char} (hstart : isIdentifierStart c = true)
    (hother : isIdentifierStart d = false) : c ≠ d := by
  rintro rfl
  rw [hstart] at hother
  cases hother

theorem isSpace_of_isIdentifierStart {c : Char} (hstart : isIdentifierStart c = true) :
    Lexer.isSpace c = false := by
  have hpoints : [' ', '\t', '\r', '\x0b', '\x0c'].any isIdentifierStart = false := by
    decide +kernel
  refine Bool.eq_false_iff.mpr fun hspace => ?_
  have hmem : c ∈ [' ', '\t', '\r', '\x0b', '\x0c'] := by
    simpa [Lexer.isSpace, or_assoc] using hspace
  exact List.any_eq_false.mp hpoints c hmem hstart

/-- A word is read to its end. -/
theorem lexeme_word {c : Char} {rest : List Char} (hstart : isIdentifierStart c = true)
    (hrest : ∀ d ∈ rest, isIdentifierPart d = true) {more : List Char}
    (hmore : ∀ d ∈ more.head?, isIdentifierPart d = false) :
    Lexer.lexeme (c :: rest ++ more)
      = (.token (Tag.ofWord (c :: rest)), (c :: rest).length) := by
  have hne (d : Char) (hother : isIdentifierStart d = false) : c ≠ d :=
    ne_of_isIdentifierStart hstart hother
  have hall : ∀ d ∈ c :: rest, isIdentifierPart d = true :=
    List.forall_mem_cons.mpr ⟨isIdentifierPart_of_isIdentifierStart hstart, hrest⟩
  have hword : (c :: rest ++ more).takeWhile isIdentifierPart = c :: rest := by
    rw [List.takeWhile_append_of_pos hall]
    cases more with
    | nil => exact List.append_nil _
    | cons d more =>
        rw [List.takeWhile_cons_of_neg (by simp [hmore d rfl]), List.append_nil]
  rw [List.cons_append] at hword ⊢
  rw [Lexer.lexeme_eq (hne _ (by decide +kernel))
    (fun _ _ hslash _ => absurd hslash (hne _ (by decide +kernel))),
    isSpace_of_isIdentifierStart hstart, Lexer.token, if_pos hstart, hword]
  · rfl
  all_goals
    rintro rfl
    exact hne _ (by decide +kernel) rfl

/-- The clause that is written into a blank file is read as one. -/
theorem pieces_clause {word : List Char} (hname : IsPackageName word) :
    Lexer.pieces ("package ".toList ++ word) = [⟨.token (.keyword .packageKey), 0, 7⟩,
      ⟨.blank, 7, 8⟩, ⟨.token (Tag.ofWord word), 8, 8 + word.length⟩] := by
  obtain ⟨⟨c, hc, hstart⟩, hgoesOn, -⟩ := hname
  obtain ⟨rest, rfl⟩ := List.head?_eq_some_iff.mp hc
  have hkey : Lexer.lexeme ('p' :: "ackage".toList ++ ' ' :: c :: rest)
      = (.token (.keyword .packageKey), 7) := by
    have hkey : ("ackage".toList.all isIdentifierPart) = true := by decide +kernel
    rw [lexeme_word (by decide +kernel) (List.all_eq_true.mp hkey) (by simp; decide +kernel)]
    rfl
  have hblank : Lexer.lexeme (' ' :: c :: rest) = (.blank, 1) := by
    rw [Lexer.lexeme_eq (by decide) (fun _ _ h => absurd h (by decide)), if_pos (by decide),
      List.takeWhile_cons_of_pos (by decide),
      List.takeWhile_cons_of_neg (by simp [isSpace_of_isIdentifierStart hstart])]
    rfl
  have hword : Lexer.lexeme (c :: rest ++ [])
      = (.token (Tag.ofWord (c :: rest)), (c :: rest).length) :=
    lexeme_word hstart (List.forall_mem_cons.mp hgoesOn).2 (by simp)
  rw [List.append_nil] at hword
  have hlast : Lexer.piecesAt 8 (c :: rest)
      = [⟨.token (Tag.ofWord (c :: rest)), 8, 8 + (c :: rest).length⟩] := by
    rw [Lexer.piecesAt_eq 8 (List.cons_ne_nil _ _), hword, List.drop_length]
    rfl
  have hspace : Lexer.piecesAt 7 (' ' :: c :: rest)
      = ⟨.blank, 7, 8⟩ :: Lexer.piecesAt 8 (c :: rest) := by
    rw [Lexer.piecesAt_eq 7 (List.cons_ne_nil _ _), hblank]
    rfl
  have hfirst : Lexer.piecesAt 0 ('p' :: "ackage".toList ++ ' ' :: c :: rest)
      = ⟨.token (.keyword .packageKey), 0, 7⟩ :: Lexer.piecesAt 7 (' ' :: c :: rest) := by
    rw [Lexer.piecesAt_eq 0 (by simp), hkey]
    rfl
  calc Lexer.pieces ("package ".toList ++ c :: rest)
    _ = Lexer.piecesAt 0 ('p' :: "ackage".toList ++ ' ' :: c :: rest) := Lexer.pieces_eq (by simp)
    _ = _ := by rw [hfirst, hspace, hlast]

/-- A save into a blank file writes one clause. -/
theorem leavesClause_of_allBlank (hblank : allBlank existing = true)
    (hname : IsPackageName package.toList) : LeavesClause existing package test 0 := by
  have hfront : front existing package test = "package ".toList ++ package.toList := by
    have hnone : withoutStale existing test = [] := if_pos hblank
    rw [front, hnone]
    rfl
  have hpieces := pieces_clause hname
  refine ⟨?_, sealed_of_proper ?_ ?_⟩
  · have hother : (Tag.ofWord package.toList == .keyword .packageKey) = false :=
      beq_eq_false_iff_ne.mpr (ne_of_isName hname.name rfl)
    rw [hfront, Lexer.tokens, hpieces]
    simp [Lexer.tokensAmong, clauseWords, hother]
  · have hproper : Tag.ofWord package.toList ≠ .stray := ne_of_isName hname.name rfl
    rw [hfront, Lexer.tokens, hpieces]
    simp [Lexer.tokensAmong, hproper]
  · have hother : Tag.ofWord package.toList ≠ .sign .slash := ne_of_isName hname.name rfl
    rw [hfront, CommentsEnd, hpieces]
    simp [hother]

/-- A save takes whole lines out of a file. If its clause is not among them, it is
left, and nothing is open that was not. -/
theorem leavesClause_of_wholeLines {tree : Tree} (hparse : parse? existing = some tree)
    (hone : clauseStarts tree.namedChildren = [start]) (hcomments : CommentsEnd existing)
    (whole : WholeLines (staleSpans existing (.ofTest test) [] tree.namedChildren) existing)
    (hstays : held (staleSpans existing (.ofTest test) [] tree.namedChildren) start = false) :
    LeavesClause existing package test
      (place (staleSpans existing (.ofTest test) [] tree.namedChildren) 0 existing start) := by
  have hrest := trimEnd_withoutStale test hparse
  generalize staleSpans existing (.ofTest test) [] tree.namedChildren = spans at *
  obtain ⟨hwords, hproper⟩ := clauseStarts_of_parse? hparse
  obtain ⟨hleft, hkept⟩ := left_of_wholeLines (sealed_of_proper hproper hcomments) whole
  have hclause : clauseWords (Lexer.tokens (trimEnd (outside spans 0 existing)))
      = [place spans 0 existing start] := by
    rw [clauseWords_trimEnd hleft, hkept, ← hwords, hone,
      List.filter_cons_of_pos (by rw [hstays]; rfl)]
    rfl
  -- The clause is visible, so what is left is no blank file.
  have hvisible : ¬ allBlank (withoutStale existing test) = true := by
    intro hblank
    rw [← hrest, trimEnd_eq_nil_iff.mpr hblank] at hclause
    cases hclause
  have hfront : front existing package test = trimEnd (outside spans 0 existing) := by
    rw [front, if_neg hvisible, hrest]
  exact ⟨hfront ▸ hclause, hfront ▸ Lexer.sealed_trimEnd hleft⟩

/-- The words of a saved file are those before the test and those of the test. -/
theorem clauseWords_patch (hanswer : GeneratedTest.ofAnswer raw = .ok test)
    (hleaves : LeavesClause existing package test start) :
    clauseWords (Lexer.tokens (patch existing package test)) = start ::
      (clauseWords (Lexer.tokens test.source)).map
        (· + ((front existing package test).length + 2)) := by
  obtain ⟨hmark, hproper⟩ := GeneratedTest.proper_source hanswer
  have htrim : trim test.source = test.source := by
    rw [(GeneratedTest.source_of_ofAnswer hanswer).1, GeneratedTest.trim_withoutClause]
  have hfront : Lexer.Closed (front existing package test) ('\n' :: (trim test.source ++ ['\n'])) :=
    fun piece hmem => (hleaves.ends piece hmem).closedIn _
  have hclosed : Lexer.Closed test.source [] := closed_of_proper hproper (.inr rfl)
  have hmarkLine : (test.source ++ ['\n']).head? ≠ some '\uFEFF' := by
    rw [List.head?_append]
    cases hhead : test.source.head? with
    | none => decide
    | some c => rwa [hhead] at hmark
  have hline : clauseWords (Lexer.tokens ('\n' :: (test.source ++ ['\n'])))
      = (clauseWords (Lexer.tokens test.source)).map (· + 1) := by
    have hempty : Lexer.Closed [] (test.source ++ ['\n']) := closed_of_proper nofun (.inl nofun)
    have hlast : clauseWords (Lexer.tokens (test.source ++ ['\n']))
        = clauseWords (Lexer.tokens test.source) := by
      rw [clauseWords_line hclosed (by simp)]
      exact List.append_nil _
    have hboth := clauseWords_line hempty hmarkLine
    rw [List.nil_append, hlast] at hboth
    rw [hboth]
    rfl
  rw [patch_eq, appended, clauseWords_line hfront (by simp), hleaves.clause, htrim, hline,
    List.map_map, List.singleton_append]
  refine congrArg (List.cons start) (List.map_congr_left fun place _ => ?_)
  rw [Function.comp_apply]
  omega

/-- What is left of a file holds the clauses of its tree, if it parses. -/
theorem leavesClause_of_parse? {tree : Tree}
    (hparse : parse? (front existing package test) = some tree)
    (hone : clauseStarts tree.namedChildren = [start])
    (hcomments : CommentsEnd (front existing package test)) :
    LeavesClause existing package test start := by
  obtain ⟨hwords, hproper⟩ := clauseStarts_of_parse? hparse
  exact ⟨hwords ▸ hone, sealed_of_proper hproper hcomments⟩

/-- A test brings in as many package clauses as the word `package` stands in its
source. So it brings none into a file that holds one, exactly if the word does not
stand there; what is dropped of the answer does not see to that. -/
theorem clauses_of_ofAnswer (hanswer : GeneratedTest.ofAnswer raw = .ok test) :
    (∃ tree, parse? (clauseLine ++ test.source) = some tree
        ∧ clauseStarts tree.namedChildren
          = 0 :: (clauseWords (Lexer.tokens test.source)).map (· + clauseLine.length))
      ∧ (∀ tree, parse? test.source = some tree →
          clauseStarts tree.namedChildren = clauseWords (Lexer.tokens test.source))
      ∧ (∀ existing package start, LeavesClause existing package test start →
          clauseWords (Lexer.tokens (patch existing package test)) = start ::
              (clauseWords (Lexer.tokens test.source)).map
                (· + ((front existing package test).length + 2))
            ∧ ∀ tree, parse? (patch existing package test) = some tree →
              clauseStarts tree.namedChildren
                  = clauseWords (Lexer.tokens (patch existing package test))
                ∧ (clauseStarts tree.namedChildren = [start]
                  ↔ clauseWords (Lexer.tokens test.source) = []))
      ∧ (∀ existing package, allBlank existing = true → IsPackageName package.toList →
          LeavesClause existing package test 0)
      ∧ (∀ existing package start tree, parse? existing = some tree →
          clauseStarts tree.namedChildren = [start] → CommentsEnd existing →
          WholeLines (staleSpans existing (.ofTest test) [] tree.namedChildren) existing →
          held (staleSpans existing (.ofTest test) [] tree.namedChildren) start = false →
          LeavesClause existing package test
            (place (staleSpans existing (.ofTest test) [] tree.namedChildren) 0 existing start))
      ∧ ∀ existing package start tree, parse? (front existing package test) = some tree →
          clauseStarts tree.namedChildren = [start] → CommentsEnd (front existing package test) →
          LeavesClause existing package test start := by
  obtain ⟨-, wrapped, hparse⟩ := GeneratedTest.source_of_ofAnswer hanswer
  refine ⟨⟨wrapped, hparse, ?_⟩, fun tree htree => (clauseStarts_of_parse? htree).1, ?_, ?_, ?_, ?_⟩
  · have hmark := (GeneratedTest.proper_source hanswer).1
    have hfirst : clauseWords (Lexer.tokens "package main".toList) = [0] := by decide +kernel
    have hlength : clauseLine.length = "package main".toList.length + 1 := by decide +kernel
    rw [(clauseStarts_of_parse? hparse).1, GeneratedTest.clauseLine_append,
      clauseWords_line (GeneratedTest.closed_clauseLine test.source) hmark, hfirst, hlength]
    rfl
  · intro existing package start hleaves
    have hsaved := clauseWords_patch hanswer hleaves
    refine ⟨hsaved, fun tree htree => ?_⟩
    have hwords := (clauseStarts_of_parse? htree).1
    exact ⟨hwords, by simp [hwords, hsaved]⟩
  · exact fun existing package hblank hname => leavesClause_of_allBlank hblank hname
  · intro existing package start tree hexisting hone hcomments whole hstays
    exact leavesClause_of_wholeLines hexisting hone hcomments whole hstays
  · intro existing package start tree hfront hone hcomments
    exact leavesClause_of_parse? hfront hone hcomments

-- ============================================================ two answers

/-- An answer with a clause in front. -/
def plainAnswer : List Char :=
  "package calc\n\nfunc TestAdd(t *testing.T) \x7b\x7d".toList

/-- The same answer with a tab in the clause. -/
def tabbedAnswer : List Char :=
  "package\tcalc\n\nfunc TestAdd(t *testing.T) \x7b\x7d".toList

theorem isPackageName_calc : IsPackageName "calc".toList where
  begins := ⟨'c', rfl, by decide +kernel⟩
  goesOn := List.all_eq_true.mp (by decide +kernel)
  name := by decide +kernel

/-- Where the package clauses of a source begin, when it parses. -/
def clauses? (source : List Char) : Option (List Nat) :=
  (parse? source).map (clauseStarts ·.namedChildren)

/-- A file with a test of the same name. -/
def testedFile : List Char :=
  "package calc\n\nfunc TestAdd(t *testing.T) \x7b\n\x7d\n\nvar one = 1\n".toList

/-- The clause is dropped, and a file has the one that is written into it, or the one
that it had. -/
theorem clauses_of_ofAnswer_plain :
    ∃ test, GeneratedTest.ofAnswer plainAnswer = .ok test
      ∧ LeavesClause [] "calc" test 0 ∧ clauses? (patch [] "calc" test) = some [0]
      ∧ LeavesClause testedFile "calc" test 0
      ∧ clauses? (patch testedFile "calc" test) = some [0] := by
  have hfits : (GeneratedTest.ofAnswer plainAnswer).toOption.any (fun test =>
      clauseWords (Lexer.tokens test.source) == []
        && (parse? (patch [] "calc" test)).isSome
        && (parse? (patch testedFile "calc" test)).isSome
        && (parse? testedFile).any fun tree =>
          clauseStarts tree.namedChildren == [0]
            && WholeLines (staleSpans testedFile (.ofTest test) [] tree.namedChildren) testedFile
            && !held (staleSpans testedFile (.ofTest test) [] tree.namedChildren) 0) = true
      ∧ CommentsEnd testedFile := by
    rw [show plainAnswer = _ from String.toList_ofList,
      show testedFile = _ from String.toList_ofList]
    decide +kernel
  obtain ⟨hfits, hcomments⟩ := hfits
  simp only [Option.any_eq_true, Bool.and_eq_true, beq_iff_eq, decide_eq_true_eq,
    Bool.not_eq_true'] at hfits
  obtain ⟨test, htest, ⟨⟨hnone, hwritten⟩, hpatched⟩, tree, htree, ⟨hone, whole⟩, hstays⟩ := hfits
  have hanswer := eq_ok_of_toOption htest
  obtain ⟨-, -, hsaved, hblank, hlines, -⟩ := clauses_of_ofAnswer hanswer
  have hclauses {existing : List Char} (hleaves : LeavesClause existing "calc" test 0)
      (hparse : (parse? (patch existing "calc" test)).isSome = true) :
      clauses? (patch existing "calc" test) = some [0] := by
    obtain ⟨saved, hsaved'⟩ := Option.isSome_iff_exists.mp hparse
    obtain ⟨-, hclauses⟩ := hsaved existing "calc" 0 hleaves
    rw [clauses?, hsaved', Option.map_some, (hclauses saved hsaved').2.mpr hnone]
  have hleaves : LeavesClause [] "calc" test 0 := hblank [] "calc" rfl isPackageName_calc
  have hleaves' : LeavesClause testedFile "calc" test 0 :=
    hlines testedFile "calc" 0 tree htree hone hcomments whole hstays
  exact ⟨test, hanswer, hleaves, hclauses hleaves hwritten, hleaves', hclauses hleaves' hpatched⟩

/-- The clause stays, and the file has two. -/
theorem clauses_of_tabbedAnswer :
    ∃ test, GeneratedTest.ofAnswer tabbedAnswer = .ok test
      ∧ clauses? test.source = some [0]
      ∧ LeavesClause [] "calc" test 0
      ∧ clauses? (patch [] "calc" test) = some [0, 14] := by
  have hfits : (GeneratedTest.ofAnswer tabbedAnswer).toOption.any (fun test =>
      clauses? test.source == some [0] && clauses? (patch [] "calc" test) == some [0, 14])
        = true := by
    rw [show tabbedAnswer = _ from String.toList_ofList]
    decide +kernel
  simp only [Option.any_eq_true, Bool.and_eq_true, beq_iff_eq] at hfits
  obtain ⟨test, htest, hsource, hsaved⟩ := hfits
  exact ⟨test, eq_ok_of_toOption htest, hsource, leavesClause_of_allBlank rfl isPackageName_calc,
    hsaved⟩

end Assay.TestFile
