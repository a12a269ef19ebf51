/-
What a lookup finds is declared: it stands in a source file of a loaded package,
under the name that was asked for. That holds of the plain lookups of a package
and, because a search asks each type it enters in the same way, of methods that
a type takes over from others, however far away.
-/
import Assay.Typing.Scope
import Assay.Proofs.Catalog

namespace Assay.Source

open Assay.Syntax

variable {package : Package} {module : Module} {file : File} {declaration spec method : Declaration}
  {receiver : Receiver} {name typeName : String}

-- =============================================================== places

/-- What stands at the top level of a file, as declarations. -/
def File.declarations (file : File) : List Declaration := file.topLevel.map (⟨file, ·⟩)

/-- The specification declares a type. -/
def isTypeSpec (spec : Tree) : Bool := spec.kind == .typeSpec || spec.kind == .typeAlias

/-- The specifications of types in a file. -/
def File.typeSpecs (file : File) : List Declaration :=
  (file.topLevel.filter (·.kind == .typeDeclaration)).flatMap fun group =>
    (group.namedChildren.filter isTypeSpec).map (⟨file, ·⟩)

/-- The methods that an interface lists itself. -/
def methodElems (spec : Declaration) : List Declaration :=
  (interfaceNode? spec).toList.flatMap fun interface =>
    (interface.namedChildren.filter (·.kind == .methodElem)).map (⟨spec.file, ·⟩)

/-- A declaration knows the file that it stands in. -/
theorem file_of_mem_declarations (hmem : declaration ∈ file.declarations) :
    declaration.file = file := by
  obtain ⟨node, -, rfl⟩ := List.mem_map.mp hmem
  rfl

/-- So does the specification of a type. -/
theorem file_of_mem_typeSpecs (hmem : spec ∈ file.typeSpecs) : spec.file = file := by
  obtain ⟨group, -, hmem⟩ := List.mem_flatMap.mp hmem
  obtain ⟨node, -, rfl⟩ := List.mem_map.mp hmem
  rfl

/-- What a group of type declarations lists are types and aliases, and its comments are
left out. -/
theorem kind_of_mem_typeSpecs (hmem : spec ∈ file.typeSpecs) : isTypeSpec spec.node = true := by
  obtain ⟨group, -, hmem⟩ := List.mem_flatMap.mp hmem
  obtain ⟨node, hkept, rfl⟩ := List.mem_map.mp hmem
  exact (List.mem_filter.mp hkept).2

/-- A method of an interface stands in the file of the interface. Embedded interfaces
and type sets are left out, since they are elements of another kind. -/
theorem of_mem_methodElems (hmem : method ∈ methodElems spec) :
    method.file = spec.file ∧ method.node.kind = .methodElem := by
  obtain ⟨interface, -, hmem⟩ := List.mem_flatMap.mp hmem
  obtain ⟨node, hkept, rfl⟩ := List.mem_map.mp hmem
  exact ⟨rfl, eq_of_beq (List.mem_filter.mp hkept).2⟩

/-- The source files of a package are its files but for the tests. -/
theorem mem_files_of_mem_sourceFiles (hsource : file ∈ package.sourceFiles) :
    file ∈ package.files :=
  (List.mem_filter.mp hsource).1

/-- What is at the top level of a package is what its source files declare: the files
can be told apart again. -/
theorem mem_topLevel :
    declaration ∈ package.topLevel
      ↔ ∃ file ∈ package.sourceFiles, declaration ∈ file.declarations :=
  List.mem_flatMap

theorem name?_of_isNamed (hnamed : declaration.isNamed name = true) :
    declaration.name? = some name :=
  eq_of_beq hnamed

-- ============================================================= packages

/-- A function that is found stands in a source file, and it is no method, even though
methods may have its name. -/
theorem findFunction?_some (hfound : package.findFunction? name = some declaration) :
    ∃ file ∈ package.sourceFiles, declaration ∈ file.declarations
      ∧ declaration.node.kind = .functionDeclaration ∧ declaration.name? = some name := by
  obtain ⟨file, hloaded, hmem⟩ := mem_topLevel.mp (List.mem_of_find?_eq_some hfound)
  have hfits := List.find?_some hfound
  rw [Bool.and_eq_true] at hfits
  exact ⟨file, hloaded, hmem, eq_of_beq hfits.1, name?_of_isNamed hfits.2⟩

/-- A method that is found stands in a source file, has the name, and is declared on the
receiver that is found with it. -/
theorem findMethod?_some
    (hfound : package.findMethod? typeName name = some (declaration, receiver)) :
    ∃ file ∈ package.sourceFiles, declaration ∈ file.declarations
      ∧ declaration.node.kind = .methodDeclaration ∧ declaration.name? = some name
      ∧ receiver? declaration = some receiver := by
  obtain ⟨other, hkept, hfits⟩ := List.exists_of_findSome?_eq_some hfound
  obtain ⟨hmem, hkept⟩ := List.mem_filter.mp hkept
  rw [Bool.and_eq_true] at hkept
  obtain ⟨file, hloaded, hmem⟩ := mem_topLevel.mp hmem
  cases hreceived : receiver? other with
  | none => rw [hreceived] at hfits; cases hfits
  | some held =>
    rw [hreceived] at hfits
    obtain ⟨-, hsame⟩ := Option.ite_none_right_eq_some.mp hfits
    cases hsame
    exact ⟨file, hloaded, hmem, eq_of_beq hkept.1, name?_of_isNamed hkept.2, hreceived⟩

/-- A type that is found is specified in a source file. It may stand in a group, so it
is among the specifications of the file and not among its declarations. -/
theorem findType?_some (hfound : package.findType? name = some spec) :
    ∃ file ∈ package.sourceFiles, spec ∈ file.typeSpecs ∧ spec.name? = some name := by
  obtain ⟨group, hkept, hmem⟩ := List.mem_flatMap.mp (List.mem_of_find?_eq_some hfound)
  obtain ⟨hmem', hkind⟩ := List.mem_filter.mp hkept
  obtain ⟨file, hloaded, hplaced⟩ := mem_topLevel.mp hmem'
  obtain ⟨node, htop, rfl⟩ := List.mem_map.mp hplaced
  obtain ⟨child, hbelow, rfl⟩ := List.mem_map.mp hmem
  have hfits := List.find?_some hfound
  rw [Bool.and_eq_true] at hfits
  refine ⟨file, hloaded, ?_, name?_of_isNamed hfits.2⟩
  exact List.mem_flatMap.mpr ⟨node, List.mem_filter.mpr ⟨htop, hkind⟩,
    List.mem_map_of_mem (List.mem_filter.mpr ⟨hbelow, hfits.1⟩)⟩

/-- The method of an interface is listed by the interface itself. -/
theorem interfaceMethod?_some (hfound : interfaceMethod? spec name = some method) :
    method ∈ methodElems spec ∧ method.name? = some name := by
  obtain ⟨interface, hlisted, hheld⟩ := Option.bind_eq_some_iff.mp hfound
  have hnamed := List.find?_some hheld
  refine ⟨?_, name?_of_isNamed hnamed⟩
  exact List.mem_flatMap.mpr
    ⟨interface, Option.mem_toList.mpr hlisted, List.mem_of_find?_eq_some hheld⟩

-- ============================================================== modules

/-- A package that is found by its id is loaded. -/
theorem mem_allPackages_of_package? {id : String} (hfound : module.package? id = some package) :
    package ∈ module.allPackages :=
  Catalog.mem_values_of_find? hfound

/-- The package around a file is loaded, because it is looked for among the loaded ones
of the directory. -/
theorem mem_allPackages_of_packageOf? (hfound : module.packageOf? file = some package) :
    package ∈ module.allPackages := by
  obtain ⟨directory, -, hfound⟩ := Option.bind_eq_some_iff.mp hfound
  exact (List.mem_filter.mp (List.mem_of_head? hfound)).1

/-- A file that is found by its path is one of a loaded package. It may be a test file:
this lookup is for what a user asks about. -/
theorem mem_of_fileAt? {path : String} (hfound : module.fileAt? path = some (package, file)) :
    package ∈ module.allPackages ∧ file ∈ package.files := by
  unfold Module.fileAt? at hfound
  obtain ⟨directory, -, hfound⟩ := Option.bind_eq_some_iff.mp hfound
  obtain ⟨held, hlisted, hfound⟩ := List.exists_of_findSome?_eq_some hfound
  obtain ⟨placed, hfound, hsame⟩ := Option.map_eq_some_iff.mp hfound
  cases hsame
  exact ⟨(List.mem_filter.mp hlisted).1, List.mem_of_find?_eq_some hfound⟩

/-- An import leads to a loaded package or to nothing. -/
theorem mem_allPackages_of_imported? (hfound : module.imported? file name = some package) :
    package ∈ module.allPackages := by
  obtain ⟨imported, -, hfound⟩ := List.exists_of_findSome?_eq_some hfound
  exact mem_allPackages_of_package? (Option.ite_none_right_eq_some.mp hfound).2

end Assay.Source

namespace Assay.Typing

open Assay.Syntax Assay.Source

variable {module : Module} {package : Package} {spec : Declaration} {name : String}
  {owner : TypeRef}

-- ============================================================== members

/-- The specification of a type is what its package finds under its name. -/
theorem typeSpec?_some (hfound : typeSpec? module owner = some (package, spec)) :
    package ∈ module.allPackages ∧ package.findType? owner.name = some spec := by
  obtain ⟨held, hloaded, hfound⟩ := Option.bind_eq_some_iff.mp hfound
  obtain ⟨other, hfound, hsame⟩ := Option.map_eq_some_iff.mp hfound
  cases hsame
  exact ⟨mem_allPackages_of_package? hloaded, hfound⟩

/-- The answer of a search is what one of the types entered offers itself. -/
theorem search_some {α : Type} {found? : TypeRef → Package → Declaration → Option α}
    {embedded : Declaration → List Tree} {fresh : List TypeKey} {pending : List TypeRef}
    {answer : α}
    (hfound : search module found? embedded fresh pending = some answer) :
    ∃ owner package spec, typeSpec? module owner = some (package, spec)
      ∧ found? owner package spec = some answer := by
  rw [search] at hfound
  generalize fresh.length = entries at hfound
  fun_induction searchWithin module found? embedded entries fresh pending with
  | case1 => cases hfound
  | case2 => cases hfound
  | case3 _ _ _ _ _ _ _ ih => exact ih hfound
  | case4 _ _ _ owner _ _ package spec hdeclared _ hoffered =>
    cases hfound
    exact ⟨owner, package, spec, hdeclared, hoffered⟩
  | case5 _ _ _ _ _ _ _ _ _ _ ih => exact ih hfound

/-- The method is declared in a loaded package, in a place for such methods. -/
def Method.IsDeclared (module : Module) (name : String) : Method → Prop
  | .concrete package declaration receiver =>
    package ∈ module.allPackages ∧ ∃ file ∈ package.sourceFiles,
      declaration ∈ file.declarations ∧ declaration.node.kind = .methodDeclaration
        ∧ declaration.name? = some name ∧ receiver? declaration = some receiver
  | .interface package spec declaration =>
    package ∈ module.allPackages ∧ ∃ file ∈ package.sourceFiles,
      spec ∈ file.typeSpecs ∧ declaration ∈ methodElems spec ∧ declaration.name? = some name

/-- What a type offers itself is declared: the methods of an interface by the interface,
those of other types at the top level of their package. -/
theorem ownMethod?_isDeclared {method : Method}
    (hdeclared : typeSpec? module owner = some (package, spec))
    (hfound : ownMethod? name owner package spec = some method) :
    method.IsDeclared module name := by
  obtain ⟨hloaded, hdeclared⟩ := typeSpec?_some hdeclared
  rw [ownMethod?] at hfound
  split at hfound
  · obtain ⟨declaration, hlisted, rfl⟩ := Option.map_eq_some_iff.mp hfound
    obtain ⟨file, hsource, hmem, -⟩ := findType?_some hdeclared
    exact ⟨hloaded, file, hsource, hmem, interfaceMethod?_some hlisted⟩
  · obtain ⟨⟨declaration, receiver⟩, hheld, rfl⟩ := Option.map_eq_some_iff.mp hfound
    exact ⟨hloaded, findMethod?_some hheld⟩

/-- Whatever way a method comes to a type, it is declared in the module. -/
theorem method?_isDeclared {method : Method} (hfound : method? module owner name = some method) :
    method.IsDeclared module name := by
  obtain ⟨owner, package, spec, hdeclared, hoffered⟩ := search_some hfound
  exact ownMethod?_isDeclared hdeclared hoffered

-- =============================================================== scopes

namespace Scope

variable (scope : Scope) (node : Tree)

/-! Declaring variables leaves the context as it is. -/

@[simp]
theorem context_insert (name : String) (about : Local) :
    (scope.insert name about).context = scope.context := by
  rw [insert]
  split <;> rfl

/-- Steps that leave the context as it is leave it so when they are taken one after the
other. -/
theorem context_foldl {α : Type} {step : Scope → α → Scope}
    (hkeeps : ∀ scope item, (step scope item).context = scope.context) (items : List α) :
    (items.foldl step scope).context = scope.context := by
  induction items generalizing scope with
  | nil => rfl
  | cons item items ih => rw [List.foldl_cons, ih, hkeeps]

@[simp]
theorem context_insertAll (names : List Tree) (about : Local) :
    (scope.insertAll names about).context = scope.context :=
  context_foldl scope (by simp) names

@[simp]
theorem context_insertEach (names : List Tree) (known : List Local) :
    (scope.insertEach names known).context = scope.context := by
  fun_induction insertEach scope names known <;> simp_all

@[simp]
theorem context_declareParameters (list : Tree) :
    (scope.declareParameters list).context = scope.context :=
  context_foldl scope (by simp) list.namedChildren

@[simp]
theorem context_declareShort : (scope.declareShort node).context = scope.context :=
  context_foldl scope (by simp) _

@[simp]
theorem context_declareSpec : (scope.declareSpec node).context = scope.context := by
  rw [declareSpec]
  split <;> simp

@[simp]
theorem context_declareRange : (scope.declareRange node).context = scope.context := by
  rw [declareRange]
  split
  · split <;> simp
  · rfl

theorem context_declare : (scope.declare node).context = scope.context := by
  rw [declare]
  split
  case h_5 => split <;> simp
  all_goals simp

/-- The context of a function's scope is the one it is read in. -/
@[simp]
theorem context_ofFunction (context : Context) (function : Tree) :
    (ofFunction context function).context = context := by
  have hlists : ∀ lists : List Tree,
      (lists.foldl declareParameters (ofContext context)).context = context := fun lists =>
    context_foldl _ context_declareParameters lists
  rw [ofFunction]
  split
  · exact hlists _
  · rw [context_foldl _ context_declare, hlists]

end Scope

end Assay.Typing
