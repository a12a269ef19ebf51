/-
The names of a file's functions. A declaration of a function or a method has one word
for its name, and the word is a token of the source; what comments are put into the
declaration afterwards leaves it in its place. So the name reads as an identifier,
whatever else the declaration holds.
-/
import Assay.Proofs.Syntax.Kinds
import Assay.Proofs.Syntax.Specs
import Assay.Proofs.Syntax.Splitting
import Assay.Source.File

namespace Assay.Syntax

open Reader Grammar Text

variable {source text : List Char} {tokens : List Token} {items : List Tree} {tree item : Tree}

-- ================================================================ words

namespace Lexer

/-- A piece that is a token is what the source begins with where it stands. -/
theorem lexeme_of_mem_pieces {piece : Piece} {tag : Tag} (hmem : piece ∈ pieces source)
    (htoken : piece.lexeme = .token tag) :
    lexeme (source.drop piece.start) = (.token tag, piece.stop - piece.start) := by
  rw [← htoken]
  unfold pieces at hmem
  split at hmem
  · next text =>
      rcases List.mem_cons.mp hmem with rfl | hmem
      · cases htoken
      · have htext : ('\uFEFF' :: text).drop 1 = text := rfl
        exact lexeme_of_mem_piecesAt htext hmem
  · exact lexeme_of_mem_piecesAt List.drop_zero hmem

/-- Numbers are no names. -/
theorem isName_of_number? {tag : Tag} {n : Nat} (hnumber : number? text = some (tag, n)) :
    isName tag = false := by
  simp only [number?] at hnumber
  split at hnumber
  · cases hnumber
  · split at hnumber
    · obtain ⟨rfl, -⟩ := Prod.mk.inj (Option.some.inj hnumber)
      rfl
    · split at hnumber <;> obtain ⟨rfl, -⟩ := Prod.mk.inj (Option.some.inj hnumber) <;> rfl

/-- A name is a word. -/
theorem isIdentifier_of_token (hname : isName (token text).1 = true) :
    IsIdentifier (text.take (token text).2) := by
  unfold token at hname ⊢
  split at hname
  · split at hname <;> cases hname
  · split at hname <;> cases hname
  · split at hname <;> cases hname
  · next c rest _ _ _ =>
      split at hname
      · next hstart =>
          rw [if_pos hstart]
          dsimp only
          rw [← List.prefix_iff_eq_take.mp (List.takeWhile_prefix isIdentifierPart)]
          refine ⟨?_, fun d hd => List.mem_takeWhile_imp hd⟩
          rw [List.takeWhile_cons, if_pos (isIdentifierPart_of_isIdentifierStart hstart)]
          exact List.cons_ne_nil _ _
      · split at hname
        · next found hnumber =>
            rw [isName_of_number? hnumber] at hname
            cases hname
        · split at hname <;> cases hname
  · cases hname

theorem isIdentifier_of_lexeme {tag : Tag} {n : Nat} (hlexeme : lexeme text = (.token tag, n))
    (hname : isName tag = true) : IsIdentifier (text.take n) := by
  unfold lexeme at hlexeme
  split at hlexeme
  · cases hlexeme
  · cases hlexeme
  · split at hlexeme
    · cases hlexeme
    · obtain ⟨htag, -⟩ := Prod.mk.inj hlexeme
      obtain rfl := Lexeme.token.inj htag
      cases hname
  · split at hlexeme
    · cases hlexeme
    · obtain ⟨htag, rfl⟩ := Prod.mk.inj hlexeme
      obtain rfl := Lexeme.token.inj htag
      exact isIdentifier_of_token hname
  · cases hlexeme

/-- A name among the tokens of a source stands for a word of it. -/
theorem isIdentifier_of_mem_tokens {token : Token} (hmem : token ∈ Lexer.tokens source)
    (hname : isName token.tag = true) :
    IsIdentifier ((source.drop token.start).take (token.stop - token.start)) := by
  obtain ⟨piece, hpiece, hstart, hstop, htoken | ⟨-, hbreak⟩⟩ := mem_tokensAmong hmem
  · rw [← hstart, ← hstop]
    exact isIdentifier_of_lexeme (lexeme_of_mem_pieces hpiece htoken) hname
  · rw [hbreak] at hname
    cases hname

end Lexer

-- ========================================================== declarations

/-- The tree's name is a word among the tokens. -/
def Tree.IsNamedBy (tokens : List Token) (tree : Tree) : Prop :=
  ∃ token ∈ tokens, isName token.tag = true
    ∧ ∃ name, tree.part? .name = some name ∧ name.start = token.start ∧ name.stop = token.stop

/-- A declaration of a function, with a receiver or without. -/
def Tree.IsFunction (tree : Tree) : Prop :=
  tree.kind = .functionDeclaration ∨ tree.kind = .methodDeclaration

theorem answers_keyword {wanted : Keyword} {before after : Cursor} {answer : Unit}
    (answers : (keyword wanted).Answers before answer after) :
    ∃ token, before.Passes [token] after := by
  obtain ⟨token, middle, htoken, hpure⟩ := answers_bind answers
  obtain ⟨-, rfl⟩ := answers_pure hpure
  exact ⟨token, (answers_takeIf htoken).2⟩

theorem answers_name {kind : Kind} {before after : Cursor} {tree : Tree}
    (answers : (name kind).Answers before tree after) :
    ∃ token, tree = leaf kind token ∧ isName token.tag = true ∧ before.Passes [token] after := by
  obtain ⟨token, middle, htoken, hpure⟩ := answers_bind answers
  obtain ⟨rfl, rfl⟩ := answers_pure hpure
  obtain ⟨hname, passes⟩ := answers_takeIf htoken
  exact ⟨token, rfl, hname, passes⟩

variable {sub : Descent} {before after : Cursor}

/-- A function is named by the word behind its first one. -/
theorem isNamedBy_functionDeclaration
    (answers : (functionDeclaration sub).Answers before tree after) :
    tree.IsNamedBy before.tokens := by
  obtain ⟨children, rfl, hchildren⟩ := answers_node answers
  obtain ⟨_, middle, hkeyword, hchildren⟩ := answers_bind hchildren
  obtain ⟨word, middle', hword, hchildren⟩ := answers_bind hchildren
  obtain ⟨opened, _, -, hchildren⟩ := answers_bind hchildren
  -- The name comes first, whether type parameters follow it or not.
  obtain ⟨rest, rfl⟩ : ∃ rest, children = word.withRole .name :: rest := by
    dsimp only at hchildren
    split at hchildren
    all_goals
      obtain ⟨generic, _, -, hparts⟩ := answers_bind hchildren
      obtain ⟨parts, _, -, hbody⟩ := answers_bind hparts
      obtain ⟨body, _, -, hpure⟩ := answers_bind hbody
      exact ⟨_, (answers_pure hpure).1⟩
  obtain ⟨first, passes⟩ := answers_keyword hkeyword
  obtain ⟨token, rfl, hname, passes'⟩ := answers_name hword
  refine ⟨token, ?_, hname, (leaf .identifier token).withRole .name, rfl, rfl, rfl⟩
  rw [passes.tokens, passes'.tokens]
  simp

/-- A method is named by the word behind its receiver. -/
theorem isNamedBy_methodDeclaration [∀ goal, Firm (sub goal)]
    (answers : (methodDeclaration sub).Answers before tree after) :
    tree.IsNamedBy before.tokens := by
  obtain ⟨children, rfl, hchildren⟩ := answers_node answers
  obtain ⟨_, middle, hkeyword, hchildren⟩ := answers_bind hchildren
  obtain ⟨receiver, middle', hreceiver, hchildren⟩ := answers_bind hchildren
  obtain ⟨word, middle'', hword, hchildren⟩ := answers_bind hchildren
  obtain ⟨parts, _, -, hchildren⟩ := answers_bind hchildren
  obtain ⟨body, _, -, hpure⟩ := answers_bind hchildren
  obtain ⟨rfl, -⟩ := answers_pure hpure
  obtain ⟨first, passes⟩ := answers_keyword hkeyword
  have firm : Firm (parameterList sub) := inferInstance
  obtain ⟨taken, passes', -⟩ := firm.taken hreceiver
  obtain ⟨token, rfl, hname, passes''⟩ := answers_name hword
  refine ⟨token, ?_, hname, (leaf .fieldIdentifier token).withRole .name, ?_, rfl, rfl⟩
  · rw [passes.tokens, passes'.tokens, passes''.tokens]
    simp
  · cases receiver
    rfl

/-- A statement is none. -/
def Tree.IsNoFunction (tree : Tree) : Prop := ¬ tree.IsFunction

instance : Asked Tree.IsNoFunction where
  free tree hfree := by
    rintro (hkind | hkind) <;> rw [hkind] at hfree <;> cases hfree

instance : Gives Tree.IsNoFunction (declaration sub) := by
  have hnode {kind : Kind} {reader : Reader (List Tree)} (hfunction : kind ≠ .functionDeclaration)
      (hmethod : kind ≠ .methodDeclaration) : Gives Tree.IsNoFunction (node kind reader) := by
    refine .node fun tree hkind => ?_
    rintro (hother | hother)
    · exact hfunction (hkind.symm.trans hother)
    · exact hmethod (hkind.symm.trans hother)
  unfold declaration
  refine .bind fun tag => ?_
  split
  · exact hnode nofun nofun
  · exact hnode nofun nofun
  · exact hnode nofun nofun
  · infer_instance

theorem isNamedBy_fileDeclaration [∀ goal, Firm (sub goal)] (hfunction : tree.IsFunction)
    (answers : (fileDeclaration sub).Answers before tree after) :
    tree.IsNamedBy before.tokens := by
  obtain ⟨tag, middle, htag, hmore⟩ := answers_bind answers
  obtain rfl := Looks.stays htag
  obtain ⟨tag', middle, htag', hbranch⟩ := answers_bind hmore
  obtain rfl := Looks.stays htag'
  split at hbranch
  · obtain ⟨children, rfl, -⟩ := answers_node hbranch
    rcases hfunction with hkind | hkind <;> cases hkind
  · obtain ⟨children, rfl, -⟩ := answers_node hbranch
    rcases hfunction with hkind | hkind <;> cases hkind
  · exact isNamedBy_methodDeclaration hbranch
  · exact isNamedBy_functionDeclaration hbranch
  · exact absurd hbranch not_answers_failure

theorem isNamedBy_of_readItems (hread : (readItems tokens).1 = some items) (hmem : item ∈ items)
    (hfunction : item.IsFunction) : item.IsNamedBy tokens := by
  obtain ⟨depth, after, hitems, -⟩ := repeats_readItems hread
  -- Items only take tokens away, so those that an item is read from are the file's.
  obtain ⟨middle, last, hsuffix, answers⟩ : ∃ middle last, middle.tokens <:+ tokens
      ∧ (fileItem (descend depth)).Answers middle item last := by
    refine hitems.exists_answers (fun answers hsuffix => ?_) List.suffix_rfl hmem
    obtain ⟨taken, more, htokens, -⟩ := spans_fileItem answers
    exact (htokens ▸ List.suffix_append _ _).trans hsuffix
  obtain ⟨last', hfile | hstatement⟩ := answers_fileItem answers
  · obtain ⟨token, htoken, hnamed⟩ := isNamedBy_fileDeclaration hfunction hfile
    exact ⟨token, hsuffix.subset htoken, hnamed⟩
  · have hnone : item.IsNoFunction := Gives.given hstatement
    exact absurd hfunction hnone

-- ============================================================== comments

/-- What is found among trees by its label is found among them with comments, if no
comment has such a label. -/
theorem find?_attachAll (fits : Label → Bool)
    (hnone : ∀ piece, fits (commentNode piece).label = false) (comments : List Lexer.Piece)
    (trees : List Tree) : ((attachAll comments trees).find? (fits ·.label)).map (·.label)
      = (trees.find? (fits ·.label)).map (·.label) := by
  have hcomments (pieces : List Lexer.Piece) :
      (pieces.map commentNode).find? (fits ·.label) = none := by
    simp [List.find?_eq_none, hnone]
  induction trees generalizing comments with
  | nil => rw [attachAll, hcomments]; rfl
  | cons tree trees ih =>
      rw [attachAll, List.find?_append, hcomments, Option.none_or, List.find?_cons,
        List.find?_cons, label_attach]
      cases fits tree.label with
      | true => exact congrArg some (label_attach _ tree)
      | false => exact ih _

/-- A part stays where it is when comments come among the parts. -/
theorem label_part?_attach (comments : List Lexer.Piece) (tree : Tree) (role : Role) :
    ((attach comments tree).part? role).map (·.label) = (tree.part? role).map (·.label) := by
  have hfound := find?_attachAll (·.role == some role) (fun _ => rfl) comments tree.children
  rw [← children_attach] at hfound
  exact hfound

theorem Tree.IsNamedBy.attach (named : tree.IsNamedBy tokens) (comments : List Lexer.Piece) :
    (attach comments tree).IsNamedBy tokens := by
  obtain ⟨token, htoken, hname, name, hpart, hstart, hstop⟩ := named
  have hlabel := label_part?_attach comments tree .name
  rw [hpart] at hlabel
  obtain ⟨name', hpart', hsame⟩ := Option.map_eq_some_iff.mp hlabel
  refine ⟨token, htoken, hname, name', hpart', ?_, ?_⟩
  · rw [← hstart, Tree.start, hsame]
    rfl
  · rw [← hstop, Tree.stop, hsame]
    rfl

-- ================================================================= files

/-- The functions of a file are named by its words. -/
theorem isNamedBy_of_parse? (hparse : parse? source = some tree) {node : Tree}
    (hmem : node ∈ tree.children) (hfunction : node.IsFunction) :
    node.IsNamedBy (Lexer.tokens source) := by
  obtain ⟨items, hread, rfl⟩ := Option.map_eq_some_iff.mp hparse
  rcases exists_of_mem_attachAll hmem with ⟨piece, rfl⟩ | ⟨item, hitem, inside, rfl⟩
  · rcases hfunction with hkind | hkind <;> cases hkind
  · rw [Tree.IsFunction, Tree.kind, label_attach] at hfunction
    obtain ⟨left, hleft, hitems⟩ := exists_readItems_of_readFile hread
    obtain ⟨token, htoken, hnamed⟩ := isNamedBy_of_readItems hitems hitem hfunction
    have named : item.IsNamedBy (Lexer.tokens source) :=
      ⟨token, hleft.sublist.subset htoken, hnamed⟩
    exact named.attach inside

end Assay.Syntax

namespace Assay.Source

open Text

/-- The name of a function is an identifier. -/
theorem isIdentifier_of_name? {declaration : Declaration} {name : String}
    (hparse : Syntax.parse? declaration.file.source = some declaration.file.tree)
    (hmem : declaration.node ∈ declaration.file.topLevel) (hfunction : declaration.node.IsFunction)
    (hname : declaration.name? = some name) : IsIdentifier name.toList := by
  obtain ⟨token, htoken, hword, part, hpart, hstart, hstop⟩ :=
    Syntax.isNamedBy_of_parse? hparse (List.mem_of_mem_filter hmem) hfunction
  obtain ⟨part', hpart', rfl⟩ := Option.map_eq_some_iff.mp hname
  obtain rfl : part = part' := Option.some.inj (hpart.symm.trans hpart')
  have hidentifier := Syntax.Lexer.isIdentifier_of_mem_tokens htoken hword
  rw [← hstart, ← hstop] at hidentifier
  rw [File.text, Syntax.Tree.text, String.toList_ofList]
  exact hidentifier

end Assay.Source
