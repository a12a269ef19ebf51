/-
The package clauses of a parsed file. The word `package` is read in one place of
the grammar, at the beginning of an item, so what the clauses of a file are can
be told from its tokens: there is one for each such word, in the same order and
beginning where the word stands. The grammar sets no limit to their number; it
has one clause follow another, and declarations stand between them.

A stray token is read nowhere, so a file with one is not parsed.
-/
import Assay.Proofs.Syntax.TopLevel

namespace Assay.Syntax

open Reader Grammar

variable {source : List Char} {tree : Tree} {tokens : List Token} {items : List Tree}

-- ================================================================ items

theorem clauseStarts_append (first more : List Tree) :
    clauseStarts (first ++ more) = clauseStarts first ++ clauseStarts more := by
  rw [clauseStarts, List.filter_append, List.map_append]
  rfl

theorem clauseStarts_cons (item : Tree) (items : List Tree) :
    clauseStarts (item :: items) = clauseStarts [item] ++ clauseStarts items :=
  clauseStarts_append [item] items

/-- The clauses among items begin where the words stand among the tokens that are
read for them. -/
theorem clauseStarts_items {depth : Nat} {before after : Cursor}
    (repeats : Repeats (fileItem (descend depth)) before items after) :
    ∃ taken, before.tokens = taken ++ after.tokens ∧ clauseStarts items = clauseWords taken
      ∧ ∀ token ∈ taken, token.tag ≠ .stray := by
  induction repeats with
  | nil => exact ⟨[], rfl, rfl, nofun⟩
  | cons hitem _ ih =>
      obtain ⟨taken, more, htokens, hspans, hinterior⟩ := spans_fileItem hitem
      obtain ⟨rest, hrest, hwords, hproper⟩ := ih
      refine ⟨taken ++ more ++ rest, by rw [htokens, hrest, ← List.append_assoc], ?_, ?_⟩
      · rw [clauseStarts_cons, hspans.clause, hwords, clauseWords_append, clauseWords_append,
          clauseWords_eq_nil hinterior, List.append_nil]
      · exact List.forall_mem_append.mpr ⟨List.forall_mem_append.mpr
          ⟨hspans.proper, fun token hmem => (hinterior token hmem).1⟩, hproper⟩

-- ============================================================== comments

/-- A comment is no package clause, and what comments are put into an item makes
no difference to what it is. -/
theorem clauseStarts_attachAll (comments : List Lexer.Piece) (items : List Tree) :
    clauseStarts (attachAll comments items) = clauseStarts items := by
  have hcomments (comments : List Lexer.Piece) : clauseStarts (comments.map commentNode) = [] := by
    rw [clauseStarts, List.filter_eq_nil_iff.mpr]
    · rfl
    · intro node hmem
      obtain ⟨comment, -, rfl⟩ := List.mem_map.mp hmem
      exact Bool.false_ne_true
  induction items generalizing comments with
  | nil => exact hcomments comments
  | cons item items ih =>
      have hitem (inside : List Lexer.Piece) : clauseStarts [attach inside item]
          = clauseStarts [item] := by
        simp [clauseStarts, List.filter_cons, Tree.kind, Tree.start, label_attach, apply_ite]
      rw [attachAll, clauseStarts_append, hcomments, List.nil_append, clauseStarts_cons, hitem, ih,
        ← clauseStarts_cons]

/-- The package clauses of a parsed file are the words that begin one. -/
theorem clauseStarts_of_parse? (hparse : parse? source = some tree) :
    clauseStarts tree.namedChildren = clauseWords (Lexer.tokens source)
      ∧ ∀ token ∈ Lexer.tokens source, token.tag ≠ .stray := by
  obtain ⟨items, hread, rfl⟩ := Option.map_eq_some_iff.mp hparse
  obtain ⟨left, hleft, hread⟩ := exists_readItems_of_readFile hread
  obtain ⟨depth, after, hitems, hnone⟩ := repeats_readItems hread
  obtain ⟨taken, htokens, hwords, hproper⟩ := clauseStarts_items hitems
  rw [hnone, List.append_nil] at htokens
  subst htokens
  refine ⟨?_, fun token hmem hstray =>
    hproper token (hleft.mem hmem (hstray ▸ nofun)) hstray⟩
  rw [← hleft.clauseWords_eq, ← hwords, ← clauseStarts_attachAll (Lexer.comments source) items]
  show ((((attachAll _ items).filter (·.kind.isNamed)).filter (·.kind == .packageClause)).map _) = _
  rw [List.filter_filter, clauseStarts]
  congr 1
  refine List.filter_congr fun node _ => ?_
  by_cases hclause : node.kind = .packageClause
  · rw [hclause]
    rfl
  · rw [beq_eq_false_iff_ne.mpr hclause, Bool.false_and]

end Assay.Syntax
