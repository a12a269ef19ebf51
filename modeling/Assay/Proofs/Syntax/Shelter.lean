/-
Where values can be declared inside an expression or a type. Only blocks hold
declarations, and only function literals bring blocks into expressions; so a
specification of variables or constants that occurs in a type or an expression
is inside of a function literal there. `Tree.Sheltered` says it of a tree.

Whether a node is sheltered is seen at its parts, and these come from readers
that ran before. So it is kept in mind of every answer that the trees in it are
sheltered, and what follows a reader is asked only about such answers
(`Reader.Shelters`). As before, each way of combining readers answers the
question from its parts, as an instance.
-/
import Assay.Proofs.Syntax.Productions

namespace Assay.Syntax

-- The search for instances goes through a whole production at once.
set_option synthInstance.maxSize 4000

-- ============================================================ the trees

/-- A node of this kind is no specification of variables or constants. -/
@[reducible] def Kind.isPlain : Kind → Bool
  | .varSpec | .constSpec => false
  | _ => true

/-- A node of this kind is no function literal. -/
@[reducible] def Kind.isName : Kind → Bool
  | .funcLiteral => false
  | _ => true

/-- The part is not the one that names a field. -/
@[reducible] def Role.isOther : Role → Bool
  | .field => false
  | _ => true

namespace Tree

mutual

/-- Specifications of values occur in the tree only inside of function literals,
and no function literal takes the place of a field's name. -/
def Sheltered : Tree → Prop
  | node label children =>
    (label.kind = .funcLiteral ∧ label.role ≠ some .field)
      ∨ (label.kind.isPlain = true ∧ AllSheltered children)

/-- So it is in several trees. -/
def AllSheltered : List Tree → Prop
  | [] => True
  | tree :: trees => Sheltered tree ∧ AllSheltered trees

end

theorem allSheltered_iff {trees : List Tree} :
    AllSheltered trees ↔ ∀ tree ∈ trees, tree.Sheltered := by
  induction trees with
  | nil => exact iff_of_true trivial (List.forall_mem_nil _)
  | cons tree trees ih => rw [AllSheltered, ih, List.forall_mem_cons]

theorem sheltered_node {label : Label} {children : List Tree} : (node label children).Sheltered
    ↔ (label.kind = .funcLiteral ∧ label.role ≠ some .field)
      ∨ (label.kind.isPlain = true ∧ ∀ child ∈ children, child.Sheltered) := by
  rw [Sheltered, allSheltered_iff]

theorem Sheltered.withRole {tree : Tree} (sheltered : tree.Sheltered) {role : Role}
    (hother : role.isOther = true) : (tree.withRole role).Sheltered := by
  cases tree
  refine sheltered_node.mpr ((sheltered_node.mp sheltered).imp_left fun hliteral => ?_)
  refine ⟨hliteral.1, ?_⟩
  rintro ⟨rfl⟩
  cases hother

/-- The node is a function literal, and such nodes shelter what is in them. -/
def IsLiteral (tree : Tree) : Prop := tree.kind = .funcLiteral ∧ tree.label.role ≠ some .field

theorem not_isLiteral_of_kind {tree : Tree} {kind : Kind} (hkind : tree.kind = kind)
    (hname : kind.isName = true) : ¬ tree.IsLiteral := by
  rintro ⟨hliteral, -⟩
  obtain rfl := hkind.symm.trans hliteral
  cases hname

theorem not_isLiteral_of_role {tree : Tree} (hfield : tree.label.role = some .field) :
    ¬ tree.IsLiteral := fun hliteral => hliteral.2 hfield

/-- The parts of anything but a function literal. -/
theorem Sheltered.of_mem {tree child : Tree} (sheltered : tree.Sheltered)
    (hother : ¬ tree.IsLiteral) (hmem : child ∈ tree.children) : child.Sheltered := by
  cases tree
  exact ((sheltered_node.mp sheltered).resolve_left hother).2 child hmem

theorem Sheltered.withKind {tree : Tree} (sheltered : tree.Sheltered) {kind : Kind}
    (hplain : kind.isPlain = true) (hother : ¬ tree.IsLiteral) :
    (tree.withKind kind).Sheltered := by
  have hparts : ∀ child ∈ tree.children, child.Sheltered := fun _ => sheltered.of_mem hother
  cases tree
  exact sheltered_node.mpr (.inr ⟨hplain, hparts⟩)

/-- A specification of values, with sheltered parts. -/
def IsSpec (tree : Tree) : Prop :=
  tree.kind.isPlain = false ∧ ∀ child ∈ tree.children, child.Sheltered

end Tree

-- =========================================================== the answers

/-- What readers answer, and when all trees in an answer are sheltered. -/
class Answer (α : Type) where
  IsSheltered : α → Prop

instance : Answer Tree := ⟨Tree.Sheltered⟩

instance {α : Type} [Answer α] : Answer (List α) :=
  ⟨fun items => ∀ item ∈ items, Answer.IsSheltered item⟩

instance {α : Type} [Answer α] : Answer (Option α) :=
  ⟨fun found => ∀ item ∈ found, Answer.IsSheltered item⟩

instance : Answer Grammar.Parameter where
  IsSheltered
    | .bare word => word.Sheltered ∧ ¬ word.IsLiteral
    | .named declaration | .other declaration => declaration.Sheltered

instance : Answer Unit := ⟨fun _ => True⟩
instance : Answer Bool := ⟨fun _ => True⟩
instance : Answer Nat := ⟨fun _ => True⟩
instance : Answer Token := ⟨fun _ => True⟩
instance : Answer Tag := ⟨fun _ => True⟩

/-- Answers of this type hold no trees. -/
class Treeless (α : Type) [Answer α] : Prop where
  all : ∀ value : α, Answer.IsSheltered value

instance : Treeless Unit := ⟨fun _ => trivial⟩
instance : Treeless Bool := ⟨fun _ => trivial⟩
instance : Treeless Nat := ⟨fun _ => trivial⟩
instance : Treeless Token := ⟨fun _ => trivial⟩
instance : Treeless Tag := ⟨fun _ => trivial⟩

instance {α : Type} [Answer α] [treeless : Treeless α] : Treeless (Option α) :=
  ⟨fun _ item _ => treeless.all item⟩

/-- The trees in this answer are sheltered. -/
class Sheltered {α : Type} [Answer α] (value : α) : Prop where
  holds : Answer.IsSheltered value

/-- Answers with sheltered trees. -/
abbrev Safe (α : Type) [Answer α] : Type := {value : α // Answer.IsSheltered value}

section

variable {α : Type} [Answer α]

instance (value : Safe α) : Sheltered value.val := ⟨value.property⟩

instance : Sheltered ([] : List α) := ⟨nofun⟩

instance {item : α} {items : List α} [first : Sheltered item] [more : Sheltered items] :
    Sheltered (item :: items) :=
  ⟨List.forall_mem_cons.mpr ⟨first.holds, more.holds⟩⟩

instance {items others : List α} [first : Sheltered items] [more : Sheltered others] :
    Sheltered (items ++ others) :=
  ⟨List.forall_mem_append.mpr ⟨first.holds, more.holds⟩⟩

instance {lists : List (List α)} [all : Sheltered lists] : Sheltered lists.flatten where
  holds item hmem := by
    obtain ⟨items, hitems, hitem⟩ := List.mem_flatten.mp hmem
    exact all.holds items hitems item hitem

instance : Sheltered (none : Option α) := ⟨nofun⟩

instance {item : α} [sheltered : Sheltered item] : Sheltered (some item) := by
  refine ⟨?_⟩
  rintro _ ⟨rfl⟩
  exact sheltered.holds

instance {found : Option α} [sheltered : Sheltered found] : Sheltered found.toList where
  holds item hmem := sheltered.holds item (Option.mem_toList.mp hmem)

instance {found : Option α} {other : α} [sheltered : Sheltered found]
    [sheltered' : Sheltered other] :
    Sheltered (found.getD other) := by
  cases found with
  | none => exact sheltered'
  | some item => exact ⟨sheltered.holds item rfl⟩

end

instance {tree : Tree} {role : Role} [sheltered : Sheltered tree] [other : Holds role.isOther] :
    Sheltered (tree.withRole role) :=
  ⟨sheltered.holds.withRole other.holds⟩

instance {trees : List Tree} {role : Role} [sheltered : Sheltered trees]
    [other : Holds role.isOther] : Sheltered (trees.map fun tree => tree.withRole role) where
  holds item hmem := by
    obtain ⟨tree, htree, rfl⟩ := List.mem_map.mp hmem
    exact (sheltered.holds tree htree).withRole other.holds

instance {found : Option Tree} {role : Role} [sheltered : Sheltered found]
    [other : Holds role.isOther] : Sheltered (found.map fun tree => tree.withRole role) where
  holds item hmem := by
    obtain ⟨tree, htree, rfl⟩ := Option.map_eq_some_iff.mp hmem
    exact (sheltered.holds tree htree).withRole other.holds

instance {kind : Kind} {role : Option Role} {start stop : Nat} {children : List Tree}
    [plain : Holds kind.isPlain] [sheltered : Sheltered children] :
    Sheltered (Tree.node ⟨kind, role, start, stop⟩ children) :=
  ⟨Tree.sheltered_node.mpr (.inr ⟨plain.holds, sheltered.holds⟩)⟩

instance {kind : Kind} {token : Token} [plain : Holds kind.isPlain] :
    Sheltered (Reader.leaf kind token) :=
  inferInstanceAs (Sheltered (Tree.node _ []))

instance {kind : Kind} {token : Token} {role : Role} [plain : Holds kind.isPlain] :
    Sheltered ((Reader.leaf kind token).withRole role) :=
  inferInstanceAs (Sheltered (Tree.node _ []))

-- =========================================================== the readers

namespace Reader

variable {α β : Type} [Answer α] [Answer β] {reader : Reader α} {next : α → Reader β}

/-- The trees in what the reader answers are sheltered. -/
class Shelters (reader : Reader α) : Prop where
  sheltered {before after : Cursor} {answer : α} :
    reader.Answers before answer after → Answer.IsSheltered answer

instance (priority := 2000) [treeless : Treeless α] : Shelters reader := ⟨fun _ => treeless.all _⟩

theorem Shelters.bind (shelters : Shelters reader)
    (onward : ∀ value : Safe α, Shelters (next value)) : Shelters (reader >>= next) where
  sheltered answers := by
    obtain ⟨value, middle, hvalue, hmore⟩ := answers_bind answers
    exact (onward ⟨value, shelters.sheltered hvalue⟩).sheltered hmore

instance [shelters : Shelters reader] [onward : ∀ value : Safe α, Shelters (next value)] :
    Shelters (reader >>= next) := shelters.bind onward

instance {value : α} [sheltered : Sheltered value] : Shelters (pure value : Reader α) where
  sheltered answers := by
    obtain ⟨rfl, -⟩ := answers_pure answers
    exact sheltered.holds

instance : Shelters (failure : Reader α) where
  sheltered answers := absurd answers not_answers_failure

instance {first second : Reader α} [shelters : Shelters first] [shelters' : Shelters second] :
    Shelters (first <|> second) where
  sheltered answers := (answers_orElse answers).elim shelters.sheltered shelters'.sheltered

instance {p : Prop} [Decidable p] {first second : Reader α} [shelters : Shelters first]
    [shelters' : Shelters second] : Shelters (if p then first else second) := by
  split
  · exact shelters
  · exact shelters'

instance {f : α → β} [shelters : Shelters reader]
    [sheltered : ∀ value : Safe α, Sheltered (f value)] :
    Shelters (f <$> reader) where
  sheltered answers := by
    obtain ⟨value, rfl, hvalue⟩ := answers_map answers
    exact (sheltered ⟨value, shelters.sheltered hvalue⟩).holds

-- ============================================================ repeating

instance [shelters : Shelters reader] : Shelters (optional? reader) := by
  unfold optional?
  infer_instance

instance shelters_repeated [shelters : Shelters reader] :
    ∀ rounds, Shelters (repeated reader rounds)
  | 0 => inferInstanceAs (Shelters (pure []))
  | rounds + 1 => by
      have ih := shelters_repeated rounds
      unfold repeated
      refine .bind inferInstance fun found => ?_
      split
      · infer_instance
      · next item hfound =>
          have hitem : Sheltered item := ⟨found.property item hfound⟩
          infer_instance

instance [shelters : Shelters reader] : Shelters (many reader) := by
  unfold many
  infer_instance

instance [shelters : Shelters reader] : Shelters (commaSeparated reader) := by
  unfold commaSeparated
  infer_instance

instance [shelters : Shelters reader] : Shelters (terminated reader) := by
  unfold terminated
  refine .bind inferInstance fun found => ?_
  split
  · infer_instance
  · next item hfound =>
      have hitem : Sheltered item := ⟨found.property item hfound⟩
      infer_instance

-- ============================================================= building

instance {kind : Kind} {start : Nat} {children : List Tree} [plain : Holds kind.isPlain]
    [sheltered : Sheltered children] : Shelters (close kind start children) where
  sheltered answers := by
    obtain ⟨rfl, -⟩ := answers_close answers
    exact Sheltered.holds

/-- A function literal shelters whatever is in it. -/
theorem shelters_funcLiteral (start : Nat) (children : List Tree) :
    Shelters (close .funcLiteral start children) where
  sheltered answers := by
    obtain ⟨rfl, -⟩ := answers_close answers
    exact Tree.sheltered_node.mpr (.inl ⟨rfl, nofun⟩)

theorem Shelters.node {kind : Kind} {reader : Reader (List Tree)} [plain : Holds kind.isPlain]
    (shelters : Shelters reader) : Shelters (node kind reader) where
  sheltered answers := by
    obtain ⟨children, rfl, hchildren⟩ := answers_node answers
    exact Tree.sheltered_node.mpr (.inr ⟨plain.holds, shelters.sheltered hchildren⟩)

instance {kind : Kind} {reader : Reader (List Tree)} [plain : Holds kind.isPlain]
    [shelters : Shelters reader] : Shelters (Reader.node kind reader) := shelters.node

instance {kind : Kind} [plain : Holds kind.isPlain] : Shelters (name kind) := by
  unfold name
  infer_instance

/-- A name is a node without parts. -/
instance (priority := 1500) {kind : Kind} {next : Tree → Reader β}
    [onward : ∀ token, Shelters (next (leaf kind token))] : Shelters (name kind >>= next) where
  sheltered answers := by
    obtain ⟨tree, middle, hname, hmore⟩ := answers_bind answers
    obtain ⟨token, middle', -, hleaf⟩ := answers_bind hname
    obtain ⟨rfl, rfl⟩ := answers_pure hleaf
    exact (onward token).sheltered hmore

instance : Shelters string := by
  unfold string
  refine .bind inferInstance fun token => ?_
  split <;> infer_instance

end Reader

-- ================================================================ types

namespace Grammar

open Reader

/-- The goals that are no statements have sheltered answers. -/
class ShelteredDescent (sub : Descent) : Prop where
  type : Shelters (sub .type)
  expression : ∀ literals, Shelters (sub (.expression literals))
  unary : ∀ literals, Shelters (sub (.unary literals))
  literalValue : Shelters (sub .literalValue)

variable (sub : Descent) [descent : ShelteredDescent sub]

instance : Shelters (sub .type) := descent.type

instance (literals : Bool) : Shelters (sub (.expression literals)) := descent.expression literals

instance (literals : Bool) : Shelters (sub (.unary literals)) := descent.unary literals

instance : Shelters (sub .literalValue) := descent.literalValue

instance (role : Role) [Holds role.isOther] : Shelters (typeAs sub role) := by
  unfold typeAs
  infer_instance

instance (kind : Kind) [Holds kind.isPlain] : Shelters (typeElem sub kind) := by
  unfold typeElem
  infer_instance

instance : Shelters (typeArguments sub) := by
  unfold typeArguments
  infer_instance

instance : Shelters plainTypeName := by
  unfold plainTypeName
  refine .bind inferInstance fun start => .bind inferInstance fun first => ?_
  refine .bind inferInstance fun tag => .bind inferInstance fun tag' => ?_
  split <;> infer_instance

instance : Shelters (typeName sub) := by
  unfold typeName
  refine .bind inferInstance fun start => .bind inferInstance fun base => ?_
  refine .bind inferInstance fun opened => ?_
  split
  · refine .bind inferInstance fun found => ?_
    split
    · infer_instance
    · next arguments hfound =>
        have harguments : Sheltered arguments := ⟨found.property arguments hfound⟩
        infer_instance
  · infer_instance

instance {word : Token} {kind : Kind} [plain : Holds kind.isPlain] [name : Holds kind.isName] :
    Sheltered (Parameter.bare (leaf kind word)) := by
  have hleaf : Sheltered (leaf kind word) := inferInstance
  exact ⟨hleaf.holds, Tree.not_isLiteral_of_kind rfl name.holds⟩

instance {declaration : Tree} [sheltered : Sheltered declaration] :
    Sheltered (Parameter.named declaration) := ⟨sheltered.holds⟩

instance {declaration : Tree} [sheltered : Sheltered declaration] :
    Sheltered (Parameter.other declaration) := ⟨sheltered.holds⟩

/-- What becomes of the entries of a parameter list. -/
theorem sheltered_declarations (words : List Tree) (entries : List Parameter)
    (hwords : ∀ word ∈ words, word.Sheltered ∧ ¬ word.IsLiteral)
    (hentries : ∀ entry ∈ entries, Answer.IsSheltered entry) :
    ∀ tree ∈ declarations words entries, tree.Sheltered := by
  have htypes (words : List Tree)
      (hwords : ∀ word ∈ words, word.Sheltered ∧ ¬ word.IsLiteral) :
      ∀ tree ∈ words.map declarationOfType, tree.Sheltered := by
    intro tree hmem
    obtain ⟨word, hword, rfl⟩ := List.mem_map.mp hmem
    obtain ⟨hsheltered, hother⟩ := hwords word hword
    refine Tree.sheltered_node.mpr (.inr ⟨rfl, List.forall_mem_singleton.mpr ?_⟩)
    exact (hsheltered.withKind rfl hother).withRole rfl
  induction entries generalizing words with
  | nil => exact htypes words hwords
  | cons entry entries ih =>
      obtain ⟨hentry, hmore⟩ := List.forall_mem_cons.mp hentries
      cases entry with
      | bare word =>
          rw [declarations]
          refine ih _ (List.forall_mem_append.mpr ⟨hwords, ?_⟩) hmore
          exact List.forall_mem_singleton.mpr hentry
      | named declaration =>
          rw [declarations]
          refine List.forall_mem_cons.mpr ⟨?_, ih [] (List.forall_mem_nil _) hmore⟩
          cases declaration
          refine Tree.sheltered_node.mpr ((Tree.sheltered_node.mp hentry).imp_right ?_)
          refine And.imp_right fun hparts =>
            List.forall_mem_append.mpr ⟨fun tree hmem => ?_, hparts⟩
          obtain ⟨word, hword, rfl⟩ := List.mem_map.mp hmem
          exact (hwords word hword).1.withRole rfl
      | other declaration =>
          rw [declarations]
          refine List.forall_mem_append.mpr ⟨htypes words hwords, ?_⟩
          exact List.forall_mem_cons.mpr ⟨hentry, ih [] (List.forall_mem_nil _) hmore⟩

instance {entries : List Parameter} [sheltered : Sheltered entries] :
    Sheltered (declarations [] entries) :=
  ⟨sheltered_declarations [] entries (List.forall_mem_nil _) sheltered.holds⟩

instance : Shelters (namedParameter sub) := by
  unfold namedParameter
  infer_instance

instance : Shelters (typeParameterOnly sub) := by
  unfold typeParameterOnly
  infer_instance

instance : Shelters (variadicParameter sub) := by
  unfold variadicParameter
  infer_instance

instance : Shelters (parameter sub) := by
  unfold parameter
  refine .bind inferInstance fun tag => ?_
  split
  · infer_instance
  · split
    · refine .bind inferInstance fun tag => ?_
      split <;> infer_instance
    · infer_instance
  · infer_instance

instance : Shelters (parameterList sub) := by
  unfold parameterList
  infer_instance

instance : Shelters (signature sub) := by
  unfold signature
  infer_instance

instance : Shelters (embeddedField sub) := by
  unfold embeddedField
  infer_instance

instance : Shelters (namedField sub) := by
  unfold namedField
  infer_instance

instance : Shelters (fieldDeclaration sub) := by
  unfold fieldDeclaration
  refine .node (.bind inferInstance fun tag => .bind inferInstance fun tag' => ?_)
  dsimp only
  split <;> infer_instance

instance : Shelters (structType sub) := by
  unfold structType
  infer_instance

instance : Shelters (interfaceElem sub) := by
  unfold interfaceElem
  refine .bind inferInstance fun named => .bind inferInstance fun tag => ?_
  split <;> infer_instance

instance : Shelters (interfaceType sub) := by
  unfold interfaceType
  infer_instance

instance : Shelters (bracketType sub) := by
  unfold bracketType
  infer_instance

instance : Shelters (mapType sub) := by
  unfold mapType
  infer_instance

instance : Shelters (channelType sub) := by
  unfold channelType
  infer_instance

instance : Shelters (type sub) := by
  unfold type
  refine .bind inferInstance fun tag => ?_
  split <;> infer_instance

-- ========================================================== expressions

variable (literals : Bool)

instance (role : Role) [Holds role.isOther] : Shelters (expressionAs sub role) := by
  unfold expressionAs
  infer_instance

instance shelters_climb : ∀ rounds least (lhs : Safe Tree),
    Shelters (climb sub literals rounds least lhs)
  | 0, least, lhs => inferInstanceAs (Shelters (pure lhs.val))
  | rounds + 1, least, lhs => by
      have ih := shelters_climb rounds
      unfold climb
      refine .bind inferInstance fun seen => ?_
      split
      · infer_instance
      · split
        · infer_instance
        · infer_instance

instance : Shelters (expression sub literals) := by
  unfold expression
  infer_instance

instance : Shelters (expressionList sub literals) := by
  unfold expressionList
  infer_instance

instance : Shelters (literalElement sub) := by
  unfold literalElement
  infer_instance

instance : Shelters (keyedElement sub) := by
  unfold keyedElement
  infer_instance

instance : Shelters (literalValue sub) := by
  unfold literalValue
  infer_instance

instance (type : Tree) [Sheltered type] : Shelters (compositeLiteral sub type) := by
  unfold compositeLiteral
  infer_instance

instance : Shelters (argument sub) := by
  unfold argument
  infer_instance

instance : Shelters (argumentList sub) := by
  unfold argumentList
  infer_instance

instance : Shelters (allocationList sub) := by
  unfold allocationList
  infer_instance

instance (type : Tree) [Sheltered type] : Shelters (conversion sub type) := by
  unfold conversion
  infer_instance

instance (type : Tree) [Sheltered type] : Shelters (typedOperand sub type) := by
  unfold typedOperand
  refine .bind inferInstance fun tag => ?_
  split <;> infer_instance

/-- The one way to a block. -/
instance : Shelters (functionOperand sub) := by
  unfold functionOperand
  refine .bind inferInstance fun start => .bind inferInstance fun _ => ?_
  refine .bind inferInstance fun parts => .bind inferInstance fun braced => ?_
  split
  · exact ⟨fun answers => by
      obtain ⟨body, middle, -, hclose⟩ := answers_bind answers
      exact (shelters_funcLiteral _ _).sheltered hclose⟩
  · infer_instance

instance : Shelters (parenthesized sub) := by
  unfold parenthesized
  infer_instance

instance (word : Predeclared) : Holds (predeclaredKind word).isPlain := by
  cases word <;> exact ⟨rfl⟩

theorem isPlain_of_basicLiteral? {tag : Tag} {kind : Kind}
    (hkind : basicLiteral? tag = some kind) : kind.isPlain = true := by
  unfold basicLiteral? at hkind
  split at hkind <;> cases hkind <;> rfl

instance : Shelters (allocation sub) := by
  unfold allocation
  infer_instance

instance : Shelters (operand sub) := by
  unfold operand
  refine .bind inferInstance fun tag => ?_
  split
  case h_13 =>
    split
    · next kind hkind =>
        have hplain : Holds kind.isPlain := ⟨isPlain_of_basicLiteral? hkind⟩
        infer_instance
    · infer_instance
  all_goals infer_instance

/-- An expression that can be read as a type's name has no function literal where
names are. -/
theorem sheltered_asTypeName? {tree name : Tree} (sheltered : tree.Sheltered)
    (hname : asTypeName? tree = some name) : name.Sheltered := by
  unfold asTypeName? at hname
  split at hname
  · next hkind =>
      obtain rfl := Option.some.inj hname
      exact sheltered.withKind rfl (Tree.not_isLiteral_of_kind hkind rfl)
  · next package member hkind hpackage hmember =>
      split at hname
      · next hidentifier =>
          obtain rfl := Option.some.inj hname
          have hof {role : Role} {part : Tree} (hpart : tree.part? role = some part) :
              part.Sheltered :=
            sheltered.of_mem (Tree.not_isLiteral_of_kind hkind rfl)
              (List.mem_of_find?_eq_some hpart)
          have hfield : member.label.role = some .field := by
            have hrole := List.find?_some hmember
            exact eq_of_beq hrole
          refine Tree.sheltered_node.mpr (.inr ⟨rfl, ?_⟩)
          refine List.forall_mem_cons.mpr ⟨?_, List.forall_mem_singleton.mpr ?_⟩
          · have hother := Tree.not_isLiteral_of_kind hidentifier rfl
            exact ((hof hpackage).withKind rfl hother).withRole rfl
          · exact ((hof hmember).withKind rfl (Tree.not_isLiteral_of_role hfield)).withRole rfl
      · cases hname
  · cases hname

instance (base : Tree) [Sheltered base] : Shelters (dotSuffix sub base) := by
  unfold dotSuffix
  infer_instance

instance (base : Tree) [sheltered : Sheltered base] :
    Shelters (instantiated sub literals base) := by
  unfold instantiated
  refine .bind inferInstance fun arguments => .bind inferInstance fun tag => ?_
  split
  · infer_instance
  · next name _ hname =>
      have hname : Sheltered name := ⟨sheltered_asTypeName? sheltered.holds hname⟩
      infer_instance
  · infer_instance

instance (base : Tree) [Sheltered base] : Shelters (indexSuffix sub base) := by
  unfold indexSuffix
  refine .bind inferInstance fun _ => .bind inferInstance fun first => ?_
  dsimp only
  split
  · next index hindex =>
      have hindex : Sheltered index := ⟨first.property index hindex⟩
      infer_instance
  · infer_instance

instance (base : Tree) [sheltered : Sheltered base] : Shelters (bareInstantiation sub base) := by
  unfold bareInstantiation
  split
  · infer_instance
  · next name hname =>
      have hname : Sheltered name := ⟨sheltered_asTypeName? sheltered.holds hname⟩
      infer_instance

instance (base : Tree) [sheltered : Sheltered base] : Shelters (suffix sub literals base) := by
  unfold suffix
  refine .bind inferInstance fun tag => ?_
  split
  · infer_instance
  · infer_instance
  · infer_instance
  · split
    · next name hname =>
        have hname : Sheltered name := ⟨sheltered_asTypeName? sheltered.holds hname⟩
        infer_instance
    · infer_instance
  · infer_instance

instance shelters_suffixes : ∀ rounds (base : Tree) [Sheltered base],
    Shelters (suffixes sub literals rounds base)
  | 0, base, _ => inferInstanceAs (Shelters (pure base))
  | rounds + 1, base, _ => by
      have ih := shelters_suffixes rounds
      unfold suffixes
      refine .bind inferInstance fun found => ?_
      split
      · infer_instance
      · next whole hfound =>
          have hwhole : Sheltered whole := ⟨found.property whole hfound⟩
          exact ih whole

instance : Shelters (unary sub literals) := by
  unfold unary
  refine .bind inferInstance fun tag => ?_
  split <;> infer_instance

-- ====================================================== specifications

instance : Shelters constantNames := by
  unfold constantNames
  infer_instance

theorem isSpec_of_constantSpec {before after : Cursor} {tree : Tree}
    (answers : (constantSpec sub).Answers before tree after) : tree.IsSpec := by
  obtain ⟨children, rfl, hchildren⟩ := answers_node answers
  exact ⟨rfl, Shelters.sheltered hchildren⟩

theorem isSpec_of_variableSpec {before after : Cursor} {tree : Tree}
    (answers : (variableSpec sub).Answers before tree after) : tree.IsSpec := by
  obtain ⟨children, rfl, hchildren⟩ := answers_node answers
  exact ⟨rfl, Shelters.sheltered hchildren⟩

-- ============================================================ the circle

/-- The circle closes over these goals, since a block is reached from them only
in a function literal. -/
instance shelteredDescent : ∀ depth, ShelteredDescent (descend depth)
  | 0 => ⟨inferInstanceAs (Shelters failure), fun _ => inferInstanceAs (Shelters failure),
      fun _ => inferInstanceAs (Shelters failure), inferInstanceAs (Shelters failure)⟩
  | depth + 1 => by
      have ih := shelteredDescent depth
      exact {
        type := inferInstanceAs (Shelters (type (descend depth)))
        expression := fun literals =>
          inferInstanceAs (Shelters (expression (descend depth) literals))
        unary := fun literals => inferInstanceAs (Shelters (unary (descend depth) literals))
        literalValue := inferInstanceAs (Shelters (literalValue (descend depth))) }

end Grammar

end Assay.Syntax
