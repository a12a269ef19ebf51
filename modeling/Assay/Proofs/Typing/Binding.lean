/-
Which names are taken for variables. A function binds names in its signature and
in the nodes of its body (`Binds`), and a scope is made by reading these nodes
one after the other. Every step adds the names it reads and forgets none, so a
name is a variable's in the whole body exactly when some binding of it is read.

Not every binding is: the results that a function literal names, the variables
that take a received value in a `select`, and targets of `:=` that are spelled
like a predeclared word are passed over.
-/
import Assay.Syntax.Lexer
import Assay.Proofs.Typing.Declared

namespace Assay.Typing

open Assay.Syntax Assay.Source

variable {context : Context} {scope : Scope} {file : File} {function node word : Tree}
  {name : String}

-- ============================================================== bindings

/-- How a name comes to be a variable's or a constant's. -/
inductive Form where
  /-- In the receiver, the parameters or the results of the function. -/
  | signature
  /-- In a declaration of variables or of constants. -/
  | specification
  /-- To the left of `:=` in a statement of its own. -/
  | short
  /-- To the left of `:= range`. -/
  | range
  /-- To the left of `:=` in a case of a `select`. -/
  | received
  /-- To the left of `:=` in the guard of a type switch. -/
  | guard
  /-- In the parameters of a function literal. -/
  | literalParameter
  /-- In the results of a function literal. -/
  | literalResult

/-- The words that the declarations of a list give names with. -/
def listedNames (list : Tree) : List Tree := list.namedChildren.flatMap (·.parts .name)

/-- A define sign stands between the targets and what they are set to. -/
def isDefined (file : File) (node : Tree) : Bool :=
  match node.part? .left, node.part? .right with
  | some left, some right =>
    (Lexer.tokens file.source).any fun token =>
      token.tag == .sign .define && left.stop ≤ token.start && token.stop ≤ right.start
  | _, _ => false

/-- A node of a body binds a word. What stands to the left of a define sign
counts as a word, as nothing else can be defined there. -/
inductive NodeBinds (file : File) (node : Tree) : Form → Tree → Prop where
  | specification {word : Tree} (hkind : node.kind = .varSpec ∨ node.kind = .constSpec)
      (hword : word ∈ node.parts .name) : NodeBinds file node .specification word
  | short {word : Tree} (hkind : node.kind = .shortVarDeclaration)
      (hword : word ∈ Scope.listed node .left) : NodeBinds file node .short word
  | range {operator word : Tree} (hkind : node.kind = .rangeClause)
      (hoperator : node.part? .operator = some operator) (hdefine : file.text operator = ":=")
      (hword : word ∈ Scope.listed node .left) : NodeBinds file node .range word
  | received {word : Tree} (hkind : node.kind = .receiveStatement)
      (hdefine : isDefined file node = true) (hword : word ∈ Scope.listed node .left) :
      NodeBinds file node .received word
  | guard {word : Tree} (hkind : node.kind = .typeSwitchStatement)
      (hword : word ∈ Scope.listed node .guard) : NodeBinds file node .guard word
  | literalParameter {list word : Tree} (hkind : node.kind = .funcLiteral)
      (hlist : node.part? .parameters = some list) (hword : word ∈ listedNames list) :
      NodeBinds file node .literalParameter word
  | literalResult {list word : Tree} (hkind : node.kind = .funcLiteral)
      (hlist : node.part? .result = some list) (hparameters : list.kind = .parameterList)
      (hword : word ∈ listedNames list) : NodeBinds file node .literalResult word

/-- A function binds a word, in its signature or anywhere in its body. -/
inductive Binds (file : File) (function : Tree) : Form → Tree → Prop where
  | signature {role : Role} {list word : Tree} (hrole : role ∈ [Role.receiver, .parameters, .result])
      (hlist : function.part? role = some list) (hkind : list.kind = .parameterList)
      (hword : word ∈ listedNames list) : Binds file function .signature word
  | inside {body node word : Tree} {form : Form} (hbody : function.part? .body = some body)
      (hnode : node ∈ body.preorder) (hbinds : NodeBinds file node form word) :
      Binds file function form word

/-- A scope reads such a binding of the word. -/
def Form.Reads : Form → Tree → Prop
  | .received, _ | .literalResult, _ => False
  | .short, word => word.kind = .identifier
  | _, _ => True

/-- The words that a scope reads at a node. -/
def wordsAt (file : File) (node : Tree) : List Tree :=
  match node.kind with
  | .shortVarDeclaration => (Scope.listed node .left).filter (·.kind == .identifier)
  | .varSpec | .constSpec => node.parts .name
  | .rangeClause =>
    if (node.part? .operator).any (file.text · == ":=") then Scope.listed node .left else []
  | .funcLiteral => (node.part? .parameters).toList.flatMap listedNames
  | .typeSwitchStatement => Scope.listed node .guard
  | _ => []

/-- They are the words of the bindings that are read. -/
theorem mem_wordsAt :
    word ∈ wordsAt file node ↔ ∃ form, NodeBinds file node form word ∧ form.Reads word := by
  constructor
  · intro hword
    unfold wordsAt at hword
    split at hword
    · next hkind =>
        obtain ⟨hword, hname⟩ := List.mem_filter.mp hword
        exact ⟨.short, .short hkind hword, eq_of_beq hname⟩
    · next hkind => exact ⟨.specification, .specification (.inl hkind) hword, trivial⟩
    · next hkind => exact ⟨.specification, .specification (.inr hkind) hword, trivial⟩
    · next hkind =>
        split at hword
        · next hdefine =>
            obtain ⟨operator, hoperator, hdefine⟩ := (Option.any_eq_true _ _).mp hdefine
            exact ⟨.range, .range hkind hoperator (eq_of_beq hdefine) hword, trivial⟩
        · cases hword
    · next hkind =>
        obtain ⟨list, hlist, hword⟩ := List.mem_flatMap.mp hword
        exact ⟨.literalParameter, .literalParameter hkind (Option.mem_toList.mp hlist) hword, trivial⟩
    · next hkind => exact ⟨.guard, .guard hkind hword, trivial⟩
    · cases hword
  · rintro ⟨form, hbinds, hreads⟩
    cases hbinds with
    | specification hkind hword => rcases hkind with hkind | hkind <;> simpa [wordsAt, hkind]
    | short hkind hword =>
        have hname : word.kind = .identifier := hreads
        simp [wordsAt, hkind, hword, hname]
    | range hkind hoperator hdefine hword => simp [wordsAt, hkind, hoperator, hdefine, hword]
    | guard hkind hword => simpa [wordsAt, hkind]
    | literalParameter hkind hlist hword => simp [wordsAt, hkind, hlist, hword]
    | received | literalResult => exact hreads.elim

-- ============================================================ one by one

namespace Scope

/-- One of the words spells the name, which can be a variable's. -/
def Spelled (context : Context) (words : List Tree) (name : String) : Prop :=
  name ≠ "_" ∧ ∃ word ∈ words, context.text word = name

theorem spelled_nil : ¬ Spelled context [] name :=
  fun hspelled => List.not_mem_nil hspelled.2.choose_spec.1

theorem spelled_cons {words : List Tree} :
    Spelled context (word :: words) name
      ↔ (name ≠ "_" ∧ context.text word = name) ∨ Spelled context words name := by
  simp only [Spelled, List.mem_cons, exists_eq_or_imp, and_or_left]

theorem spelled_flatMap {items : List Tree} {words : Tree → List Tree} :
    Spelled context (items.flatMap words) name
      ↔ ∃ item ∈ items, Spelled context (words item) name := by
  simp only [Spelled, List.mem_flatMap]
  constructor
  · rintro ⟨hname, word, ⟨item, hitem, hword⟩, htext⟩
    exact ⟨item, hitem, hname, word, hword, htext⟩
  · rintro ⟨item, hitem, hname, word, hword, htext⟩
    exact ⟨hname, word, ⟨item, hitem, hword⟩, htext⟩

theorem isLocal_insert (word name : String) (about : Local) :
    (scope.insert word about).isLocal name = true
      ↔ scope.isLocal name = true ∨ name ≠ "_" ∧ word = name := by
  unfold insert
  split
  · next hblank =>
      obtain rfl : word = "_" := eq_of_beq hblank
      refine ⟨.inl, fun h => h.resolve_right ?_⟩
      rintro ⟨hname, rfl⟩
      exact hname rfl
  · next hblank =>
      by_cases hword : word = name
      · subst hword
        have hname : word ≠ "_" := fun h => hblank (beq_iff_eq.mpr h)
        simp [isLocal, local?, hname]
      · simp [isLocal, local?, hword]

/-- Steps that add names to a scope add the names of all. -/
theorem isLocal_foldl {α : Type} {step : Scope → α → Scope} {adds : α → Prop}
    (hkeeps : ∀ scope item, (step scope item).context = scope.context)
    (hstep : ∀ scope item, scope.context = context →
      ((step scope item).isLocal name = true ↔ scope.isLocal name = true ∨ adds item))
    (items : List α) (hscope : scope.context = context) :
    (items.foldl step scope).isLocal name = true
      ↔ scope.isLocal name = true ∨ ∃ item ∈ items, adds item := by
  induction items generalizing scope with
  | nil => simp
  | cons item items ih =>
      rw [List.foldl_cons, ih ((hkeeps scope item).trans hscope), hstep scope item hscope]
      simp only [List.mem_cons, exists_eq_or_imp, or_assoc]

variable (hscope : scope.context = context)

include hscope

theorem isLocal_insertAll (words : List Tree) (about : Local) :
    (scope.insertAll words about).isLocal name = true
      ↔ scope.isLocal name = true ∨ Spelled context words name := by
  have hstep (scope : Scope) (word : Tree) (hscope : scope.context = context) :
      (scope.insert (scope.text word) about).isLocal name = true
        ↔ scope.isLocal name = true ∨ name ≠ "_" ∧ context.text word = name := by
    rw [isLocal_insert, text, hscope]
  rw [insertAll, isLocal_foldl (fun scope _ => context_insert scope _ _) hstep words hscope, Spelled]
  simp only [exists_and_left, and_left_comm]

theorem isLocal_insertEach (words : List Tree) (known : List Local) :
    (scope.insertEach words known).isLocal name = true
      ↔ scope.isLocal name = true ∨ Spelled context words name := by
  fun_induction insertEach scope words known with
  | case1 scope => simp [spelled_nil]
  | case2 scope word words ih | case3 scope word words about known ih =>
      rw [ih ((context_insert scope _ _).trans hscope), isLocal_insert, spelled_cons, or_assoc, text,
        hscope]

theorem isLocal_declareParameters (list : Tree) :
    (scope.declareParameters list).isLocal name = true
      ↔ scope.isLocal name = true ∨ Spelled context (listedNames list) name := by
  have hstep (scope : Scope) (parameter : Tree) (hscope : scope.context = context) :
      (scope.insertAll (parameter.parts .name) (parameterLocal scope.context parameter)).isLocal name
          = true
        ↔ scope.isLocal name = true ∨ Spelled context (parameter.parts .name) name :=
    isLocal_insertAll hscope _ _
  rw [declareParameters, isLocal_foldl (fun scope _ => context_insertAll scope _ _) hstep _ hscope,
    listedNames, spelled_flatMap]

/-- Of the targets of `:=`, those count that are plain names. -/
theorem isLocal_declareShort :
    (scope.declareShort node).isLocal name = true
      ↔ scope.isLocal name = true
        ∨ Spelled context ((listed node .left).filter (·.kind == .identifier)) name := by
  rw [declareShort]
  dsimp only
  have hstep (known : List Local) (scope : Scope) (target : Tree × Nat)
      (hscope : scope.context = context) :
      (scope.insert (scope.text target.1) (known[target.2]?.getD .unknown)).isLocal name = true
        ↔ scope.isLocal name = true ∨ name ≠ "_" ∧ context.text target.1 = name := by
    rw [isLocal_insert, text, hscope]
  rw [isLocal_foldl (fun scope _ => context_insert scope _ _) (hstep _) _ hscope, Spelled]
  refine or_congr_right ⟨?_, ?_⟩
  · rintro ⟨⟨target, index⟩, hmem, hname, htext⟩
    obtain ⟨hmem, hkind⟩ := List.mem_filter.mp hmem
    exact ⟨hname, target, List.mem_filter.mpr ⟨List.fst_mem_of_mem_zipIdx hmem, hkind⟩, htext⟩
  · rintro ⟨hname, target, hmem, htext⟩
    obtain ⟨hmem, hkind⟩ := List.mem_filter.mp hmem
    obtain ⟨index, hindex⟩ := List.mem_iff_getElem?.mp hmem
    have hplaced : (target, index) ∈ (listed node .left).zipIdx :=
      List.mem_zipIdx_iff_getElem?.mpr hindex
    exact ⟨(target, index), List.mem_filter.mpr ⟨hplaced, hkind⟩, hname, htext⟩

theorem isLocal_declareSpec :
    (scope.declareSpec node).isLocal name = true
      ↔ scope.isLocal name = true ∨ Spelled context (node.parts .name) name := by
  rw [declareSpec]
  split
  · exact isLocal_insertAll hscope _ _
  · exact isLocal_insertEach hscope _ _
  · exact isLocal_insertEach hscope _ _

theorem isLocal_declareRange :
    (scope.declareRange node).isLocal name = true
      ↔ scope.isLocal name = true ∨ Spelled context
          (if (node.part? .operator).any (context.text · == ":=") then listed node .left else [])
          name := by
  rw [declareRange, listed]
  split
  · next operator targets hoperator htargets =>
      rw [hoperator, htargets, text, hscope, Option.any_some]
      split
      · exact isLocal_insertEach hscope _ _
      · simp [spelled_nil]
  · next hmissing =>
      cases hoperator : node.part? .operator with
      | none => simp [spelled_nil]
      | some operator =>
          have htargets : node.part? .left = none :=
            Option.eq_none_iff_forall_ne_some.mpr fun targets => hmissing operator targets hoperator
          simp [htargets, spelled_nil]

omit hscope in
/-- Nothing is read at nodes that are not looked at. -/
theorem wordsAt_eq_nil (hdeclares : declares node.kind = false) :
    wordsAt file node = [] := by
  unfold wordsAt
  split <;> first | rfl | simp_all [declares]

/-- What a node adds to a scope is what is read at it. -/
theorem isLocal_declare :
    (scope.declare node).isLocal name = true
      ↔ scope.isLocal name = true ∨ Spelled context (wordsAt context.file node) name := by
  unfold declare
  split
  · next hkind => simpa only [wordsAt, hkind] using isLocal_declareShort hscope
  · next hkind => simpa only [wordsAt, hkind] using isLocal_declareSpec hscope
  · next hkind => simpa only [wordsAt, hkind] using isLocal_declareSpec hscope
  · next hkind =>
      simp only [wordsAt, hkind]
      exact isLocal_declareRange hscope
  · next hkind =>
      simp only [wordsAt, hkind]
      cases node.part? .parameters with
      | none => simp [spelled_nil]
      | some list => simpa using isLocal_declareParameters hscope list
  · next hkind => simpa only [wordsAt, hkind] using isLocal_insertEach hscope _ _
  · have hnone : wordsAt context.file node = [] := by
      unfold wordsAt
      split <;> first | contradiction | rfl
    simp [hnone, spelled_nil]

end Scope

-- =========================================================== the function

/-- The lists of a signature that may hold names. -/
def nameLists (function : Tree) : List Tree :=
  [Role.receiver, .parameters, .result].filterMap fun role =>
    (function.part? role).filter (·.kind == .parameterList)

/-- The nodes of a body that are looked at. -/
def declaringNodes (function : Tree) : List Tree :=
  (function.part? .body).toList.flatMap fun body =>
    body.preorder.filter (Scope.declares ·.kind)

/-- The words that a scope reads in a function. -/
def wordsOf (file : File) (function : Tree) : List Tree :=
  (nameLists function).flatMap listedNames ++ (declaringNodes function).flatMap (wordsAt file)

theorem mem_nameLists {list : Tree} :
    list ∈ nameLists function ↔ ∃ role ∈ [Role.receiver, .parameters, .result],
      function.part? role = some list ∧ list.kind = .parameterList := by
  simp only [nameLists, List.mem_filterMap, Option.filter_eq_some_iff, beq_iff_eq]

theorem mem_declaringNodes :
    node ∈ declaringNodes function ↔ ∃ body, function.part? .body = some body
      ∧ node ∈ body.preorder ∧ Scope.declares node.kind = true := by
  simp only [declaringNodes, List.mem_flatMap, Option.mem_toList, List.mem_filter]

/-- They are the words of the function's bindings that are read. -/
theorem mem_wordsOf :
    word ∈ wordsOf file function ↔ ∃ form, Binds file function form word ∧ form.Reads word := by
  rw [wordsOf, List.mem_append, List.mem_flatMap, List.mem_flatMap]
  constructor
  · rintro (⟨list, hlist, hword⟩ | ⟨node, hnode, hword⟩)
    · obtain ⟨role, hrole, hlist, hkind⟩ := mem_nameLists.mp hlist
      exact ⟨.signature, .signature hrole hlist hkind hword, trivial⟩
    · obtain ⟨body, hbody, hnode, -⟩ := mem_declaringNodes.mp hnode
      obtain ⟨form, hbinds, hreads⟩ := mem_wordsAt.mp hword
      exact ⟨form, .inside hbody hnode hbinds, hreads⟩
  · rintro ⟨form, hbinds, hreads⟩
    cases hbinds with
    | signature hrole hlist hkind hword =>
        exact .inl ⟨_, mem_nameLists.mpr ⟨_, hrole, hlist, hkind⟩, hword⟩
    | @inside body node _ _ hbody hnode hbinds =>
        have hword : word ∈ wordsAt file node := mem_wordsAt.mpr ⟨form, hbinds, hreads⟩
        have hdeclares : Scope.declares node.kind = true := by
          by_contra hnone
          rw [Scope.wordsAt_eq_nil (Bool.eq_false_of_not_eq_true hnone)] at hword
          cases hword
        exact .inr ⟨node, mem_declaringNodes.mpr ⟨body, hbody, hnode, hdeclares⟩, hword⟩

theorem ofFunction_eq (context : Context) (function : Tree) :
    Scope.ofFunction context function = (declaringNodes function).foldl Scope.declare
      ((nameLists function).foldl Scope.declareParameters (.ofContext context)) := by
  rw [Scope.ofFunction, declaringNodes, nameLists]
  cases function.part? .body <;> simp

/-- A name is a variable's in a function exactly when it is not `_` and some
binding of it is read. -/
theorem isLocal_ofFunction_iff (context : Context) (function : Tree) (name : String) :
    (Scope.ofFunction context function).isLocal name = true
      ↔ name ≠ "_" ∧ ∃ form word, Binds context.file function form word ∧ form.Reads word
          ∧ context.text word = name := by
  have hlist (scope : Scope) (list : Tree) (hscope : scope.context = context) :
      (scope.declareParameters list).isLocal name = true
        ↔ scope.isLocal name = true ∨ Scope.Spelled context (listedNames list) name :=
    Scope.isLocal_declareParameters hscope list
  have hnode (scope : Scope) (node : Tree) (hscope : scope.context = context) :
      (scope.declare node).isLocal name = true
        ↔ scope.isLocal name = true ∨ Scope.Spelled context (wordsAt context.file node) name :=
    Scope.isLocal_declare hscope
  have hlists : ((nameLists function).foldl Scope.declareParameters (.ofContext context)).context
      = context := Scope.context_foldl _ Scope.context_declareParameters _
  have hnone : (Scope.ofContext context).isLocal name = false := rfl
  calc (Scope.ofFunction context function).isLocal name = true
    _ ↔ Scope.Spelled context ((nameLists function).flatMap listedNames) name
          ∨ Scope.Spelled context ((declaringNodes function).flatMap (wordsAt context.file)) name := by
        rw [ofFunction_eq, Scope.isLocal_foldl Scope.context_declare hnode _ hlists,
          Scope.isLocal_foldl Scope.context_declareParameters hlist _ rfl, hnone,
          Scope.spelled_flatMap, Scope.spelled_flatMap]
        simp
    _ ↔ name ≠ "_" ∧ ∃ word ∈ wordsOf context.file function, context.text word = name := by
        simp only [Scope.Spelled, wordsOf, List.mem_append, or_and_right, exists_or, and_or_left]
    _ ↔ name ≠ "_" ∧ ∃ form word, Binds context.file function form word ∧ form.Reads word
          ∧ context.text word = name := by
        simp only [mem_wordsOf, ← exists_and_right, and_assoc]
        rw [exists_comm]

end Assay.Typing
