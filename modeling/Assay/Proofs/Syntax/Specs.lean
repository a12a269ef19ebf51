/-
The specifications of a file's declarations of variables and constants. Such a
declaration lists its own, in parentheses or not, and what is below these is
sheltered: further specifications are inside of function literals
(`Tree.ListsSpecs`). The grammar says so of the trees that it makes, and the
comments that are put into them afterwards change nothing about it.
-/
import Assay.Proofs.Syntax.Kinds
import Assay.Proofs.Syntax.Shelter
import Assay.Proofs.Syntax.TopLevel

namespace Assay.Syntax

open Reader Grammar

-- ============================================================ the trees

/-- A node of this kind declares no variables or constants. -/
@[reducible] def Kind.isOther : Kind → Bool
  | .varDeclaration | .constDeclaration => false
  | _ => true

namespace Tree

/-- The children of a declaration are specifications of values, or a list of
them; with them there may be others. -/
def ListsSpecs (other : Tree → Prop) (tree : Tree) : Prop :=
  ∀ child ∈ tree.children, child.IsSpec ∨ other child
    ∨ child.kind = .varSpecList ∧ ∀ spec ∈ child.children, spec.IsSpec ∨ other spec

end Tree

/-- No other children. -/
def Nothing (_ : Tree) : Prop := False

/-- A tree that declares values lists specifications. -/
def Tree.DeclaresSpecs (tree : Tree) : Prop :=
  tree.kind.isOther = false → tree.ListsSpecs Nothing

theorem isOther_of_isFree {kind : Kind} (hfree : kind.isFree = true) : kind.isOther = true := by
  cases kind <;> first | rfl | cases hfree

theorem Tree.declaresSpecs_of_isOther {tree : Tree} (hother : tree.kind.isOther = true) :
    tree.DeclaresSpecs :=
  fun hkind => absurd (hother.symm.trans hkind) Bool.false_ne_true.symm

instance : Asked Tree.DeclaresSpecs where
  free _ hfree := Tree.declaresSpecs_of_isOther (isOther_of_isFree hfree)

-- ========================================================== the grammar

namespace Reader

variable {α : Type} {before after : Cursor}

/-- Every item of a repetition is an answer, given where what the reader keeps still
holds. -/
theorem Repeats.exists_answers {reader : Reader α} {holds : Cursor → Prop}
    (hkeeps : ∀ {before after : Cursor} {answer : α}, reader.Answers before answer after →
      holds before → holds after) {items : List α} (repeats : Repeats reader before items after)
    (hbefore : holds before) {item : α} (hmem : item ∈ items) :
    ∃ before after, holds before ∧ reader.Answers before item after := by
  induction repeats with
  | nil => cases hmem
  | cons hfirst _ ih =>
      rcases List.mem_cons.mp hmem with rfl | hmem
      · exact ⟨_, _, hbefore, hfirst⟩
      · exact ih (hkeeps hfirst hbefore) hmem

theorem exists_answers_of_mem_many {reader : Reader α} {items : List α}
    (answers : (many reader).Answers before items after) {item : α} (hmem : item ∈ items) :
    ∃ before after, reader.Answers before item after := by
  obtain ⟨rounds, middle, -, hitems⟩ := answers_bind answers
  obtain ⟨before, after, -, hitem⟩ :=
    (repeats_of_answers hitems).exists_answers (fun _ _ => trivial) trivial hmem
  exact ⟨before, after, hitem⟩

theorem exists_answers_of_mem_terminated {reader : Reader α} {items : List α}
    (answers : (terminated reader).Answers before items after) {item : α} (hmem : item ∈ items) :
    ∃ before after, reader.Answers before item after := by
  obtain ⟨found, middle, hfound, hmore⟩ := answers_bind answers
  rcases answers_orElse hfound with hsome | hnone
  · obtain ⟨first, rfl, hfirst⟩ := answers_map hsome
    obtain ⟨rest, middle', hrest, hending⟩ := answers_bind hmore
    obtain ⟨ended, last, -, hpure⟩ := answers_bind hending
    obtain ⟨rfl, rfl⟩ := answers_pure hpure
    rcases List.mem_cons.mp hmem with rfl | hmem
    · exact ⟨_, _, hfirst⟩
    · -- Each further item is read after a terminator.
      obtain ⟨before, after, hitem⟩ := exists_answers_of_mem_many hrest hmem
      obtain ⟨_, middle, -, hitem⟩ := answers_bind hitem
      exact ⟨middle, after, hitem⟩
  · obtain ⟨rfl, rfl⟩ := answers_pure hnone
    obtain ⟨rfl, -⟩ := answers_pure hmore
    exact absurd hmem List.not_mem_nil

theorem exists_answers_of_mem_specifications {reader : Reader Tree} {items : List Tree}
    (answers : (specifications reader).Answers before items after) {item : Tree}
    (hmem : item ∈ items) : ∃ before after, reader.Answers before item after := by
  obtain ⟨_, middle, -, hitems⟩ := answers_bind answers
  obtain ⟨found, middle', hfound, hclosing⟩ := answers_bind hitems
  obtain ⟨_, last, -, hpure⟩ := answers_bind hclosing
  obtain ⟨rfl, -⟩ := answers_pure hpure
  exact exists_answers_of_mem_terminated hfound hmem

end Reader

namespace Grammar

variable (sub : Descent) [descent : ShelteredDescent sub]

/-- A declaration of constants lists its specifications, one of variables has a
list for them when they are in parentheses. -/
instance : Gives Tree.DeclaresSpecs (declaration sub) where
  given {before after tree} answers hkind := by
    obtain ⟨tag, middle, -, hbranch⟩ := answers_bind answers
    split at hbranch
    · obtain ⟨children, rfl, hchildren⟩ := answers_node hbranch
      obtain ⟨_, middle, -, hgrouped⟩ := answers_bind hchildren
      obtain ⟨grouped, middle, -, hlist⟩ := answers_bind hgrouped
      intro child hmem
      refine .inl ?_
      split at hlist
      · obtain ⟨_, _, hspec⟩ := exists_answers_of_mem_specifications hlist hmem
        exact isSpec_of_constantSpec sub hspec
      · obtain ⟨spec, middle, hspec, hpure⟩ := answers_bind hlist
        obtain ⟨rfl, -⟩ := answers_pure hpure
        obtain rfl := List.mem_singleton.mp hmem
        exact isSpec_of_constantSpec sub hspec
    · obtain ⟨children, rfl, hchildren⟩ := answers_node hbranch
      obtain ⟨_, middle, -, hgrouped⟩ := answers_bind hchildren
      obtain ⟨grouped, middle, -, hlist⟩ := answers_bind hgrouped
      intro child hmem
      split at hlist
      · obtain ⟨list, middle, hgroup, hpure⟩ := answers_bind hlist
        obtain ⟨rfl, -⟩ := answers_pure hpure
        obtain rfl := List.mem_singleton.mp hmem
        obtain ⟨specs, rfl, hspecs⟩ := answers_node hgroup
        refine .inr (.inr ⟨rfl, fun spec hmem => .inl ?_⟩)
        obtain ⟨_, _, hspec⟩ := exists_answers_of_mem_specifications hspecs hmem
        exact isSpec_of_variableSpec sub hspec
      · obtain ⟨spec, middle, hspec, hpure⟩ := answers_bind hlist
        obtain ⟨rfl, -⟩ := answers_pure hpure
        obtain rfl := List.mem_singleton.mp hmem
        exact .inl (isSpec_of_variableSpec sub hspec)
    · obtain ⟨children, rfl, -⟩ := answers_node hbranch
      cases hkind
    · exact absurd hbranch not_answers_failure

instance : Gives Tree.DeclaresSpecs (fileDeclaration sub) := by
  have hnode {kind : Kind} {reader : Reader (List Tree)} (hother : kind.isOther = true) :
      Gives Tree.DeclaresSpecs (node kind reader) :=
    .node fun tree hkind => Tree.declaresSpecs_of_isOther (hkind ▸ hother)
  unfold fileDeclaration
  refine .bind fun tag => .bind fun tag' => ?_
  split
  · exact hnode rfl
  · exact hnode rfl
  · exact hnode rfl
  · exact hnode rfl
  · infer_instance

end Grammar

/-- The items of a file that declare values list specifications. -/
theorem listsSpecs_of_readItems {tokens : List Token} {items : List Tree}
    (hread : (readItems tokens).1 = some items) {item : Tree} (hmem : item ∈ items)
    (hkind : item.kind.isOther = false) : item.ListsSpecs Nothing := by
  obtain ⟨depth, after, hitems, -⟩ := repeats_readItems hread
  obtain ⟨_, _, -, answers⟩ := hitems.exists_answers (fun _ _ => trivial) trivial hmem
  have hdeclares : item.DeclaresSpecs := by
    obtain ⟨middle, hfile | hstatement⟩ := answers_fileItem answers
    · exact Gives.given hfile
    · exact Gives.given hstatement
  exact hdeclares hkind

-- ============================================================== comments

/-- A comment that has been put into a tree. -/
def IsComment (tree : Tree) : Prop := ∃ piece, tree = commentNode piece

theorem exists_of_mem_attachAll {comments : List Lexer.Piece} {trees : List Tree} {node : Tree}
    (hmem : node ∈ attachAll comments trees) :
    IsComment node ∨ ∃ tree ∈ trees, ∃ inside, node = attach inside tree := by
  induction trees generalizing comments with
  | nil =>
      rw [attachAll] at hmem
      obtain ⟨piece, -, rfl⟩ := List.mem_map.mp hmem
      exact .inl ⟨piece, rfl⟩
  | cons tree trees ih =>
      rw [attachAll] at hmem
      rcases List.mem_append.mp hmem with hbefore | hrest
      · obtain ⟨piece, -, rfl⟩ := List.mem_map.mp hbefore
        exact .inl ⟨piece, rfl⟩
      · rcases List.mem_cons.mp hrest with rfl | hlater
        · exact .inr ⟨tree, List.mem_cons_self, _, rfl⟩
        · rcases ih hlater with comment | ⟨other, hother, hinside⟩
          · exact .inl comment
          · exact .inr ⟨other, List.mem_cons_of_mem tree hother, hinside⟩

theorem IsComment.sheltered {tree : Tree} (comment : IsComment tree) : tree.Sheltered := by
  obtain ⟨piece, rfl⟩ := comment
  exact Tree.sheltered_node.mpr (.inr ⟨rfl, List.forall_mem_nil _⟩)

theorem children_attach (comments : List Lexer.Piece) (tree : Tree) :
    (attach comments tree).children = attachAll comments tree.children := by
  cases tree
  rw [attach]
  rfl

mutual

theorem Tree.Sheltered.attach (comments : List Lexer.Piece) :
    ∀ {tree : Tree}, tree.Sheltered → (attach comments tree).Sheltered
  | .node label children, sheltered => by
      rw [Syntax.attach]
      refine Tree.sheltered_node.mpr ((Tree.sheltered_node.mp sheltered).imp_right ?_)
      exact And.imp_right (sheltered_attachAll comments)

theorem sheltered_attachAll (comments : List Lexer.Piece) :
    ∀ {trees : List Tree}, (∀ tree ∈ trees, tree.Sheltered) →
      ∀ tree ∈ attachAll comments trees, tree.Sheltered
  | [], _ => fun tree hmem => by
      rcases exists_of_mem_attachAll hmem with comment | ⟨_, hother, -⟩
      · exact comment.sheltered
      · cases hother
  | first :: trees, sheltered => by
      obtain ⟨hfirst, htrees⟩ := List.forall_mem_cons.mp sheltered
      rw [attachAll]
      refine List.forall_mem_append.mpr ⟨fun tree hmem => ?_, List.forall_mem_cons.mpr ⟨?_, ?_⟩⟩
      · obtain ⟨piece, -, rfl⟩ := List.mem_map.mp hmem
        exact IsComment.sheltered ⟨piece, rfl⟩
      · exact hfirst.attach _
      · exact sheltered_attachAll _ htrees

end

theorem Tree.IsSpec.attach {tree : Tree} (spec : tree.IsSpec) (comments : List Lexer.Piece) :
    (attach comments tree).IsSpec := by
  refine ⟨?_, ?_⟩
  · rw [Tree.kind, label_attach]
    exact spec.1
  · rw [children_attach]
    exact sheltered_attachAll comments spec.2

/-- Comments come among the specifications, and into them. -/
theorem Tree.ListsSpecs.attach {tree : Tree} (lists : tree.ListsSpecs Nothing)
    (comments : List Lexer.Piece) : (attach comments tree).ListsSpecs IsComment := by
  intro child hmem
  rw [children_attach] at hmem
  rcases exists_of_mem_attachAll hmem with hcomment | ⟨child, hchild, inside, rfl⟩
  · exact .inr (.inl hcomment)
  · rcases lists child hchild with hspec | hnothing | ⟨hkind, hspecs⟩
    · exact .inl (hspec.attach inside)
    · exact hnothing.elim
    · refine .inr (.inr ⟨?_, fun spec hmem => ?_⟩)
      · rw [Tree.kind, label_attach]
        exact hkind
      · rw [children_attach] at hmem
        rcases exists_of_mem_attachAll hmem with hcomment | ⟨spec, hspec, inside, rfl⟩
        · exact .inr hcomment
        · exact .inl (((hspecs spec hspec).resolve_right id).attach inside)

/-- A declaration of values at the top level of a file lists specifications. -/
theorem listsSpecs_of_parse? {source : List Char} {tree node : Tree}
    (hparse : parse? source = some tree) (hmem : node ∈ tree.children)
    (hkind : node.kind.isOther = false) : node.ListsSpecs IsComment := by
  obtain ⟨items, hread, rfl⟩ := Option.map_eq_some_iff.mp hparse
  rcases exists_of_mem_attachAll hmem with ⟨piece, rfl⟩ | ⟨item, hitem, inside, rfl⟩
  · cases hkind
  · rw [Tree.kind, label_attach] at hkind
    obtain ⟨left, -, hitems⟩ := exists_readItems_of_readFile hread
    exact (listsSpecs_of_readItems hitems hitem hkind).attach inside

-- ======================================================= what is below

namespace Tree

mutual

/-- A specification of values in a sheltered tree is inside of a function literal
there. -/
theorem Sheltered.exists_literal : ∀ {tree : Tree}, tree.Sheltered →
    ∀ {inner : Tree}, inner ∈ tree.preorder → inner.kind.isPlain = false →
      ∃ literal ∈ tree.preorder, literal.kind = .funcLiteral ∧ inner ∈ preorderAll literal.children
  | .node label children, sheltered, inner, hmem, hspec => by
      rw [preorder] at hmem ⊢
      rcases sheltered_node.mp sheltered with ⟨hliteral, -⟩ | ⟨hplain, hparts⟩
      · refine ⟨_, List.mem_cons_self, hliteral, (List.mem_cons.mp hmem).resolve_left ?_⟩
        rintro rfl
        rw [kind, Tree.label, hliteral] at hspec
        cases hspec
      · have hbelow : inner ∈ preorderAll children := by
          refine (List.mem_cons.mp hmem).resolve_left ?_
          rintro rfl
          exact Bool.false_ne_true (hspec.symm.trans hplain)
        obtain ⟨literal, hmem, hliteral⟩ := exists_literal_of_all hparts hbelow hspec
        exact ⟨literal, List.mem_cons_of_mem _ hmem, hliteral⟩

theorem exists_literal_of_all : ∀ {trees : List Tree}, (∀ tree ∈ trees, tree.Sheltered) →
    ∀ {inner : Tree}, inner ∈ preorderAll trees → inner.kind.isPlain = false →
      ∃ literal ∈ preorderAll trees,
        literal.kind = .funcLiteral ∧ inner ∈ preorderAll literal.children
  | [], _, _, hmem, _ => absurd hmem List.not_mem_nil
  | tree :: trees, sheltered, inner, hmem, hspec => by
      obtain ⟨htree, htrees⟩ := List.forall_mem_cons.mp sheltered
      rw [preorderAll] at hmem ⊢
      rcases List.mem_append.mp hmem with hfirst | hmore
      · obtain ⟨literal, hmem, hliteral⟩ := htree.exists_literal hfirst hspec
        exact ⟨literal, List.mem_append_left _ hmem, hliteral⟩
      · obtain ⟨literal, hmem, hliteral⟩ := exists_literal_of_all htrees hmore hspec
        exact ⟨literal, List.mem_append_right _ hmem, hliteral⟩

end

end Tree

end Assay.Syntax
