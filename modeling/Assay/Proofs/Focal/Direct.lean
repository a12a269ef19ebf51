/-
The declarations that a function names itself. A name, a selection from an
imported package or a type may stand anywhere in the body, and each is found
there with the declaration that it names (`Names`); what is read later only adds
to the closure. An entry can be missing for one reason, that another declaration
goes by the same name: the function under test, whose name is left out, or one
that is read after it and takes its place.
-/
import Assay.Proofs.Focal.Blind
import Assay.Proofs.Focal.Reach
import Assay.Proofs.Identity
import Assay.Proofs.Source.Packages

namespace Assay.Source

variable {package : Package} {name : String} {declaration spec : Declaration}

-- ============================================================== packages

/-- The package declares a function of this name, besides its tests. -/
def Package.DeclaresFunction (package : Package) (name : String) (declaration : Declaration) :
    Prop :=
  (∃ file ∈ package.sourceFiles, declaration ∈ file.declarations)
    ∧ declaration.node.kind = .functionDeclaration ∧ declaration.name? = some name

/-- The package declares a type of this name, besides its tests. -/
def Package.DeclaresType (package : Package) (name : String) (spec : Declaration) : Prop :=
  (∃ file ∈ package.sourceFiles, spec ∈ file.typeSpecs) ∧ spec.name? = some name

/-- A function that is declared is found, or another of its name. -/
theorem exists_findFunction? (hdeclares : package.DeclaresFunction name declaration) :
    ∃ other, package.findFunction? name = some other := by
  obtain ⟨hplaced, hkind, hname⟩ := hdeclares
  refine Option.isSome_iff_exists.mp (List.find?_isSome.mpr ⟨declaration, ?_, ?_⟩)
  · exact mem_topLevel.mpr hplaced
  · simp [hkind, Declaration.isNamed, hname]

/-- A type that is declared is found, or another of its name. -/
theorem exists_findType? (hdeclares : package.DeclaresType name spec) :
    ∃ other, package.findType? name = some other := by
  obtain ⟨⟨file, hfile, hplaced⟩, hname⟩ := hdeclares
  refine Option.isSome_iff_exists.mp (List.find?_isSome.mpr ⟨spec, ?_, ?_⟩)
  · obtain ⟨group, hgroup, hspec⟩ := List.mem_flatMap.mp hplaced
    obtain ⟨hmem, hkind⟩ := List.mem_filter.mp hgroup
    obtain ⟨node, hnode, rfl⟩ := List.mem_map.mp hspec
    refine List.mem_flatMap.mpr ⟨⟨file, group⟩, List.mem_filter.mpr ⟨?_, hkind⟩, ?_⟩
    · exact mem_topLevel.mpr ⟨file, hfile, List.mem_map_of_mem hmem⟩
    · exact List.mem_map_of_mem (List.mem_filter.mp hnode).1
  · have hkind : isTypeSpec spec.node = true := kind_of_mem_typeSpecs hplaced
    rw [isTypeSpec] at hkind
    simp [hkind, Declaration.isNamed, hname]

end Assay.Source

namespace Assay.Typing.Context

open Assay.Syntax Assay.Source

variable {tree front name : Tree} {package : Package}

-- ================================================================= types

/-- A bare name stands for a type of the package. -/
theorem resolve?_typeIdentifier (context : Context) (hkind : tree.kind = .typeIdentifier) :
    context.resolve? tree = declared? context.package (context.text tree) := by
  obtain ⟨label, children⟩ := tree
  rw [resolve?, show label.kind = .typeIdentifier from hkind]

/-- A name behind an import stands for a type of the package imported. -/
theorem resolve?_qualifiedType (context : Context) (hkind : tree.kind = .qualifiedType)
    (hfront : tree.part? .package = some front) (hname : tree.part? .name = some name)
    (himported : context.module.imported? context.file (context.text front) = some package) :
    context.resolve? tree = declared? package (context.text name) := by
  obtain ⟨label, children⟩ := tree
  rw [Tree.part?, Tree.children] at hfront hname
  rw [resolve?, show label.kind = .qualifiedType from hkind]
  simp [qualified?, hfront, hname, himported]

end Assay.Typing.Context

namespace Assay.Focal

open Assay.Syntax Assay.Source Assay.Typing

variable {module : Module} {package : Package} {target : Target} {scope : Scope}
  {visit : Tree.Visit} {reference : Reference} {references : List Reference} {name : String}

-- ================================================================ naming

/-- A node occurs in a tree, below these labels. -/
inductive Occurs : List Label → Tree → Tree.Visit → Prop where
  | here (above : List Label) (tree : Tree) : Occurs above tree ⟨tree, above⟩
  | inside {above : List Label} {label : Label} {children : List Tree} {child : Tree}
      {visit : Tree.Visit} (hchild : child ∈ children)
      (hoccurs : Occurs (label :: above) child visit) :
      Occurs above (.node label children) visit

theorem visits_subset_visitsAll {above : List Label} {child : Tree} {children : List Tree}
    (hchild : child ∈ children) : child.visits above ⊆ Tree.visitsAll above children := by
  induction children with
  | nil => cases hchild
  | cons first rest ih =>
      rw [Tree.visitsAll]
      rcases List.mem_cons.mp hchild with rfl | hrest
      · exact List.subset_append_left _ _
      · exact List.subset_append_of_subset_right _ (ih hrest)

mutual

theorem occurs_of_mem_visits {above : List Label} :
    ∀ tree : Tree, visit ∈ tree.visits above → Occurs above tree visit
  | .node label children, hmem => by
    rw [Tree.visits] at hmem
    rcases List.mem_cons.mp hmem with rfl | hbelow
    · exact .here above _
    · obtain ⟨child, hchild, hoccurs⟩ := exists_occurs_of_mem_visitsAll children hbelow
      exact .inside hchild hoccurs

theorem exists_occurs_of_mem_visitsAll {above : List Label} :
    ∀ trees : List Tree, visit ∈ Tree.visitsAll above trees →
      ∃ tree ∈ trees, Occurs above tree visit
  | [], hmem => by cases hmem
  | tree :: trees, hmem => by
    rw [Tree.visitsAll] at hmem
    rcases List.mem_append.mp hmem with hhere | hlater
    · exact ⟨tree, List.mem_cons_self, occurs_of_mem_visits tree hhere⟩
    · obtain ⟨other, hother, hoccurs⟩ := exists_occurs_of_mem_visitsAll trees hlater
      exact ⟨other, List.mem_cons_of_mem _ hother, hoccurs⟩

end

/-- The visits of a tree are its nodes. -/
theorem mem_visits_iff {above : List Label} {tree : Tree} :
    visit ∈ tree.visits above ↔ Occurs above tree visit := by
  refine ⟨occurs_of_mem_visits tree, fun hoccurs => ?_⟩
  induction hoccurs with
  | here above tree =>
      cases tree
      exact List.mem_cons_self
  | inside hchild _ ih =>
      exact List.mem_cons_of_mem _ (visits_subset_visitsAll hchild ih)

namespace Reference

/-- A body refers to what its nodes refer to. -/
theorem mem_inBody_iff {function : Declaration} : reference ∈ inBody module function
    ↔ ∃ context body visit, Context.ofFile? module function.file = some context
      ∧ function.part? .body = some body ∧ Occurs [] body visit
      ∧ reference ∈ ofVisit (Scope.ofFunction context function.node) visit := by
  rw [inBody]
  constructor
  · intro hlisted
    split at hlisted
    · next context body hcontext hbody =>
        obtain ⟨visit, hvisit, hrefers⟩ := List.mem_flatMap.mp hlisted
        exact ⟨context, body, visit, hcontext, hbody, mem_visits_iff.mp hvisit, hrefers⟩
    · cases hlisted
  · rintro ⟨context, body, visit, hcontext, hbody, hoccurs, hrefers⟩
    rw [hcontext, hbody]
    exact List.mem_flatMap.mpr ⟨visit, mem_visits_iff.mpr hoccurs, hrefers⟩

/-- A reference to what a package declares under a name. -/
inductive Declared (package : Package) (name : String) : Reference → Prop where
  | function {declaration : Declaration} (hdeclares : package.DeclaresFunction name declaration) :
      Declared package name (toFunction package declaration none)
  | type {spec : Declaration} (hdeclares : package.DeclaresType name spec) :
      Declared package name (toType package spec)

/-- A node names what a reference leads to. A name is taken for a declaration of
the package, where it is no variable, no import and no key of a literal; behind
an import it is one of the package imported, and so are types. -/
inductive Names (scope : Scope) : Tree.Visit → Reference → Prop where
  | identifier {visit : Tree.Visit} {reference : Reference}
      (hkind : visit.tree.kind = .identifier) (hkey : isLiteralKey visit.above = false)
      (hlocal : scope.isLocal (scope.text visit.tree) = false)
      (himport : scope.context.module.isImportName scope.context.file (scope.text visit.tree)
        = false)
      (hdeclared : Declared scope.context.package (scope.text visit.tree) reference) :
      Names scope visit reference
  | selector {visit : Tree.Visit} {reference : Reference} {operand field : Tree}
      {package : Package} (hkind : visit.tree.kind = .selectorExpression)
      (hoperand : visit.tree.part? .operand = some operand)
      (hfield : visit.tree.part? .field = some field) (hname : operand.kind = .identifier)
      (hlocal : scope.isLocal (scope.text operand) = false)
      (himported : scope.context.module.imported? scope.context.file (scope.text operand)
        = some package)
      (hdeclared : Declared package (scope.text field) reference) : Names scope visit reference
  | typeName {visit : Tree.Visit} {spec : Declaration}
      (hkind : visit.tree.kind = .typeIdentifier) (hbare : isQualified visit.above = false)
      (hdeclares : scope.context.package.DeclaresType (scope.text visit.tree) spec) :
      Names scope visit (toType scope.context.package spec)
  | qualifiedType {visit : Tree.Visit} {front name : Tree} {package : Package}
      {spec : Declaration} (hkind : visit.tree.kind = .qualifiedType)
      (hfront : visit.tree.part? .package = some front)
      (hname : visit.tree.part? .name = some name)
      (himported : scope.context.module.imported? scope.context.file (scope.text front)
        = some package)
      (hdeclares : package.DeclaresType (scope.text name) spec) :
      Names scope visit (toType package spec)

theorem id_toFunction {declaration : Declaration} (hname : declaration.name? = some name) :
    (toFunction package declaration none).definition.id = .ofType package.id name := by
  rw [toFunction, nameIn_eq hname]
  rfl

theorem id_toType {spec : Declaration} (hname : spec.name? = some name) :
    (toType package spec).definition.id = .ofType package.id name := by
  rw [toType, nameIn_eq hname]
  rfl

namespace Declared

theorem id_eq (hdeclared : Declared package name reference) :
    reference.definition.id = .ofType package.id name := by
  cases hdeclared with
  | function hdeclares => exact id_toFunction hdeclares.2.2
  | type hdeclares => exact id_toType hdeclares.2

theorem sourced (hdeclared : Declared package name reference)
    (hpackage : package ∈ module.allPackages) : Sourced module reference := by
  cases hdeclared with
  | function hdeclares =>
      obtain ⟨⟨file, hfile, hplaced⟩, hkind, hname⟩ := hdeclares
      exact .function hpackage hfile hplaced hkind hname
  | type hdeclares =>
      obtain ⟨⟨file, hfile, hplaced⟩, hname⟩ := hdeclares
      exact .type hpackage hfile hplaced hname

/-- What a package declares is found behind its name. -/
theorem exists_ofPackageSelector? (hdeclared : Declared package name reference)
    (scope : Scope) (node : Tree) :
    ∃ other, ofPackageSelector? scope package node name = some other
      ∧ other.definition.id = reference.definition.id := by
  rw [hdeclared.id_eq, ofPackageSelector?]
  cases hfunction : package.findFunction? name with
  | some function =>
      obtain ⟨_, _, _, _, hname⟩ := findFunction?_some hfunction
      exact ⟨_, rfl, id_toFunction hname⟩
  | none =>
      cases hdeclared with
      | function hdeclares =>
          obtain ⟨function, hfound⟩ := exists_findFunction? hdeclares
          cases hfunction.symm.trans hfound
      | type hdeclares =>
          obtain ⟨spec, hfound⟩ := exists_findType? hdeclares
          obtain ⟨_, _, _, hname⟩ := findType?_some hfound
          rw [hfound]
          exact ⟨_, rfl, id_toType hname⟩

end Declared

/-- What a package declares as a type is found behind the type's name. -/
theorem exists_toTypeRef? {spec : Declaration} {type : Option TypeRef}
    (hfound : module.package? package.id = some package)
    (hdeclares : package.DeclaresType name spec)
    (htype : type = Context.declared? package name) :
    ∃ other, type.bind (toTypeRef? module) = some other
      ∧ other.definition.id = (toType package spec).definition.id := by
  obtain ⟨held, hheld⟩ := exists_findType? hdeclares
  obtain ⟨_, _, _, hname⟩ := findType?_some hheld
  have hdeclared : Context.declared? package name = some ⟨package.id, name, false⟩ :=
    if_pos (by rw [Package.declaresType, hheld, Option.isSome_some])
  refine ⟨toType package held, ?_, ?_⟩
  · rw [htype, hdeclared]
    simp [toTypeRef?, typeSpec?, hfound, hheld]
  · rw [id_toType hname, id_toType hdeclares.2]

/-- A node leads to what it names, or to another declaration of the same name. -/
theorem Names.exists_ofVisit (hnames : Names scope visit reference)
    (hown : scope.context.package ∈ scope.context.module.allPackages)
    (hfound : ∀ package ∈ scope.context.module.allPackages,
      scope.context.module.package? package.id = some package) :
    ∃ other ∈ ofVisit scope visit, other.definition.id = reference.definition.id := by
  rw [ofVisit]
  cases hnames with
  | identifier hkind hkey hlocal himport hdeclared =>
      obtain ⟨other, hother, hid⟩ := hdeclared.exists_ofPackageSelector? scope visit.tree
      have hname : ofName? scope visit.tree = some other := by
        rw [ofName?, hlocal, Scope.isPackageName, himport, hlocal]
        exact hother
      refine ⟨other, ?_, hid⟩
      simp [hkind, hkey, hname]
  | selector hkind hoperand hfield hname hlocal himported hdeclared =>
      obtain ⟨other, hother, hid⟩ := hdeclared.exists_ofPackageSelector? scope visit.tree
      refine ⟨other, ?_, hid⟩
      simp [hkind, ofSelector, hoperand, hfield, Scope.packageOperand?, hname, hlocal, himported,
        hother]
  | typeName hkind hbare hdeclares =>
      obtain ⟨other, hother, hid⟩ := exists_toTypeRef? (hfound _ hown) hdeclares
        (Context.resolve?_typeIdentifier scope.context hkind)
      refine ⟨other, ?_, hid⟩
      simp [hkind, hbare, hother]
  | qualifiedType hkind hfront hname himported hdeclares =>
      obtain ⟨other, hother, hid⟩ := exists_toTypeRef?
        (hfound _ (mem_allPackages_of_imported? himported)) hdeclares
        (Context.resolve?_qualifiedType scope.context hkind hfront hname himported)
      refine ⟨other, ?_, hid⟩
      simp [hkind, hother]

/-- What a node names is declared in the module. -/
theorem Names.sourced (hnames : Names scope visit reference)
    (hown : scope.context.package ∈ scope.context.module.allPackages) :
    Sourced scope.context.module reference := by
  cases hnames with
  | identifier _ _ _ _ hdeclared => exact hdeclared.sourced hown
  | selector _ _ _ _ _ himported hdeclared =>
      exact hdeclared.sourced (mem_allPackages_of_imported? himported)
  | typeName _ _ hdeclares => exact Declared.sourced (.type hdeclares) hown
  | qualifiedType _ _ _ himported hdeclares =>
      exact Declared.sourced (.type hdeclares) (mem_allPackages_of_imported? himported)

end Reference

-- =========================================================== the closure

/-- Where the body of a function is read. -/
def Target.bodyScope (module : Module) (target : Target) : Scope :=
  Scope.ofFunction ⟨module, target.package, target.declaration.file⟩ target.declaration.node

theorem Target.context_bodyScope (module : Module) (target : Target) :
    (target.bodyScope module).context = ⟨module, target.package, target.declaration.file⟩ :=
  Scope.context_ofFunction _ _

theorem Target.module_bodyScope (module : Module) (target : Target) :
    (target.bodyScope module).context.module = module := by
  rw [context_bodyScope]

theorem Target.package_bodyScope (module : Module) (target : Target) :
    (target.bodyScope module).context.package = target.package := by
  rw [context_bodyScope]

theorem Target.file_bodyScope (module : Module) (target : Target) :
    (target.bodyScope module).context.file = target.declaration.file := by
  rw [context_bodyScope]

/-- The references of all bodies that are read for a closure, in order. -/
def referencesRead (module : Module) (target : Target) (depth : Nat) : List Reference :=
  (bodiesRead module target depth).flatMap (Reference.inBody module)

/-- References to a name have a last one. -/
theorem exists_last {id : QualifiedName} (hmem : reference ∈ references)
    (hid : reference.definition.id = id) :
    ∃ last, references.reverse.find? (·.definition.id == id) = some last
      ∧ last ∈ references ∧ last.definition.id = id := by
  have hsome : (references.reverse.find? (·.definition.id == id)).isSome :=
    List.find?_isSome.mpr ⟨reference, List.mem_reverse.mpr hmem, by simpa using hid⟩
  obtain ⟨last, hlast⟩ := Option.isSome_iff_exists.mp hsome
  have hid := List.find?_some hlast
  exact ⟨last, hlast, List.mem_reverse.mp (List.mem_of_find?_eq_some hlast), eq_of_beq hid⟩

/-- The body of the function under test is read, at every depth. -/
theorem mem_bodiesRead (module : Module) (target : Target) (depth : Nat) :
    target.declaration ∈ bodiesRead module target depth := by
  obtain ⟨more, hmore⟩ : ∃ more, max depth 1 = more + 1 := ⟨max depth 1 - 1, by omega⟩
  rw [bodiesRead, hmore]
  exact List.mem_append_left _ (List.mem_singleton_self _)

/-- The names in a closure are those that bodies read refer to, save that of the
function under test. -/
theorem text_mem_keys_uses {id : QualifiedName} {depth : Nat} :
    id.text ∈ (uses module target depth).keys ↔
      id ≠ target.id ∧ ∃ reference ∈ referencesRead module target depth,
        reference.definition.id = id := by
  rw [uses_eq_foldl, mem_keys_foldl_record]
  constructor
  · rintro (hmem | ⟨reference, hmem, hne, htext⟩)
    · cases hmem
    · obtain rfl : reference.definition.id = id := congrArg QualifiedName.mk htext
      exact ⟨hne, reference, hmem, rfl⟩
  · rintro ⟨hne, reference, hmem, rfl⟩
    exact .inr ⟨reference, hmem, hne, rfl⟩

/-- What a node in the body of the function under test names is declared in the
module, and it is read, or another declaration of the same name. -/
theorem sourced_and_read {disk : Disk} {root path query : String} (hdisk : disk.WellFormed)
    (hload : load disk root = .ok module) (hresolve : resolve module path query = .ok target)
    (depth : Nat) {body : Tree} (hbody : target.declaration.part? .body = some body)
    (hoccurs : Occurs [] body visit)
    (hnames : Reference.Names (target.bodyScope module) visit reference) :
    Reference.Sourced module reference
      ∧ ∃ other ∈ referencesRead module target depth,
        other.definition.id = reference.definition.id := by
  obtain ⟨package, hpackage, file, hfile, node, -, hmade⟩ := target?_of_resolve hresolve
  obtain ⟨-, rfl, hplace, -⟩ := eq_of_target? hmade
  have hcontext : Context.ofFile? module target.declaration.file
      = some ⟨module, target.package, target.declaration.file⟩ := by
    rw [Context.ofFile?, hplace, ((lookups_of_load hdisk hload hpackage).2 file hfile).2.2]
    rfl
  have hscope := target.context_bodyScope module
  have hown : (target.bodyScope module).context.package
      ∈ (target.bodyScope module).context.module.allPackages := by
    rw [hscope]
    exact hpackage
  obtain ⟨other, hother, hid⟩ := hnames.exists_ofVisit hown
    (by rw [hscope]; exact fun package hpackage => (lookups_of_load hdisk hload hpackage).1)
  have hsourced := hnames.sourced hown
  rw [hscope] at hsourced
  refine ⟨hsourced, other, List.mem_flatMap.mpr ⟨_, mem_bodiesRead module target depth, ?_⟩, hid⟩
  exact Reference.mem_inBody_iff.mpr ⟨_, body, visit, hcontext, hbody, hoccurs, hother⟩

/-- What the function under test names itself has an entry in its closure, at
every depth, unless it bears the name of that function; and the entry is that of
the last reference under this name. So where declarations have distinct names,
there is an entry for everything that is named but the function itself. -/
theorem uses_named {disk : Disk} {root path query : String} (hdisk : disk.WellFormed)
    (hload : load disk root = .ok module) (hresolve : resolve module path query = .ok target)
    (depth : Nat) {body : Tree} (hbody : target.declaration.part? .body = some body)
    (hoccurs : Occurs [] body visit)
    (hnames : Reference.Names (target.bodyScope module) visit reference) :
    (reference.definition.id.text ∈ (uses module target depth).keys
        ↔ reference.definition.id ≠ target.id)
      ∧ (uses module target depth).find? reference.definition.id.text
        = (if reference.definition.id = target.id then none
          else ((referencesRead module target depth).reverse.find?
            (·.definition.id == reference.definition.id)).map (·.definition))
      ∧ (NamesDistinct module → reference.definition ≠ target.toReference.definition →
          (uses module target depth).find? reference.definition.id.text
            = some reference.definition)
      ∧ target.id.text ∉ (uses module target depth).keys := by
  obtain ⟨hsourced, hread⟩ :=
    sourced_and_read hdisk hload hresolve depth hbody hoccurs hnames
  have hfind : (uses module target depth).find? reference.definition.id.text = _ :=
    uses_eq_foldl module target depth ▸ find?_foldl_record target.id
      (referencesRead module target depth) reference.definition.id
  refine ⟨?_, hfind, fun hdistinct hother => ?_, fun hmem => (text_mem_keys_uses.mp hmem).1 rfl⟩
  · rw [text_mem_keys_uses, and_iff_left hread]
  · have howned : ∀ package ∈ module.allPackages, ∀ file ∈ package.files,
        module.packageOf? file = some package := fun package hpackage file hfile =>
      ((lookups_of_load hdisk hload hpackage).2 file hfile).2.2
    obtain ⟨declaration, hdescribes, -⟩ := hsourced.describes
    obtain ⟨hself, hid⟩ := describes_of_resolve hresolve
    have hne : reference.definition.id ≠ target.id := fun hsame =>
      hother (hdescribes.eq_of_id_eq howned hdistinct hself (hsame.trans hid.symm))
    obtain ⟨other, hmem, hsame⟩ := hread
    obtain ⟨last, hlast, hmem, hid⟩ := exists_last hmem hsame
    obtain ⟨body, -, hlisted⟩ := List.mem_flatMap.mp hmem
    obtain ⟨held, hheld, -⟩ := (Reference.sourced_of_inBody hlisted).describes
    rw [hfind, if_neg hne, hlast]
    exact congrArg some (hheld.eq_of_id_eq howned hdistinct hdescribes hid)

-- =========================================================== two readings

/-- The function of the shelf. -/
def useTarget : Target := (resolve shelf "a.go" "Use").toOption.get (by decide +kernel)

/-- Its body. -/
def useBody : Tree := (useTarget.declaration.part? .body).get (by decide +kernel)

/-- The name of the helper in it. -/
def helpVisit : Tree.Visit := (useBody.visits []).get ⟨3, by decide +kernel⟩

/-- The helper. -/
def helpDeclaration : Declaration :=
  (useTarget.package.findFunction? "help").get (by decide +kernel)

theorem uses_named_help : shelfDisk.WellFormed ∧ load shelfDisk "/shelf" = .ok shelf
    ∧ resolve shelf "a.go" "Use" = .ok useTarget
    ∧ useTarget.declaration.part? .body = some useBody ∧ Occurs [] useBody helpVisit
    ∧ Reference.Names (useTarget.bodyScope shelf) helpVisit
        (Reference.toFunction useTarget.package helpDeclaration none)
    ∧ NamesDistinct shelf
    ∧ (uses shelf useTarget 1).find? "example.com/shelf.help"
        = some (Reference.toFunction useTarget.package helpDeclaration none).definition := by
  have hdisk : shelfDisk.WellFormed := by decide +kernel
  have hresolve : resolve shelf "a.go" "Use" = .ok useTarget := eq_ok_get _
  have hbody : useTarget.declaration.part? .body = some useBody := (Option.some_get _).symm
  have hoccurs : Occurs [] useBody helpVisit := mem_visits_iff.mp (List.get_mem _ _)
  have hfound : useTarget.package.findFunction? "help" = some helpDeclaration :=
    (Option.some_get _).symm
  have hfits : ((declarations shelf).map (·.id)).Nodup
      ∧ ∀ target ∈ (resolve shelf "a.go" "Use").toOption,
        ∀ body ∈ target.declaration.part? .body, ∀ visit ∈ (body.visits [])[3]?,
        ∀ declaration ∈ target.package.findFunction? "help",
        visit.tree.kind = .identifier ∧ Reference.isLiteralKey visit.above = false
          ∧ (target.bodyScope shelf).text visit.tree = "help"
          ∧ (target.bodyScope shelf).isLocal "help" = false
          ∧ shelf.isImportName target.declaration.file "help" = false
          ∧ (Reference.toFunction target.package declaration none).definition.id.text
            = "example.com/shelf.help"
          ∧ (Reference.toFunction target.package declaration none).definition
            ≠ target.toReference.definition := by
    rw [shelf, shelfDisk, shelfRest, show shelfText = _ from String.toList_ofList]
    decide +kernel
  obtain ⟨hnodup, hall⟩ := hfits
  obtain ⟨hidentifier, hkey, htext, hlocal, himport, hid, hother⟩ :=
    hall useTarget (Option.get_mem _) useBody (Option.get_mem _) helpVisit
      (List.getElem?_eq_getElem _) helpDeclaration (Option.get_mem _)
  have hnames : Reference.Names (useTarget.bodyScope shelf) helpVisit
      (Reference.toFunction useTarget.package helpDeclaration none) := by
    obtain ⟨file, hfile, hplaced, hkind, hname⟩ := findFunction?_some hfound
    rw [← htext] at hlocal himport
    refine .identifier hidentifier hkey hlocal ?_ ?_
    · rw [Target.module_bodyScope, Target.file_bodyScope]
      exact himport
    · rw [htext, Target.package_bodyScope]
      exact .function ⟨⟨file, hfile, hplaced⟩, hkind, hname⟩
  have hdistinct : NamesDistinct shelf := namesDistinct_of_nodup hnodup
  refine ⟨hdisk, load_shelf, hresolve, hbody, hoccurs, hnames, hdistinct, ?_⟩
  rw [← hid]
  exact (uses_named hdisk load_shelf hresolve 1 hbody hoccurs hnames).2.2.1 hdistinct hother

/-- The package `store` of a shop, where a method passes its call on to a function
of the package in the directory `store.V2`. -/
def openText : List Char :=
  ("package store\n\nimport next \"example.com/shop/store.V2\"\n\ntype V2 struct\x7b\x7d\n\n"
    ++ "func (V2) Open() int \x7b return next.Open() \x7d\n").toList

/-- The disk with both packages on it. -/
def openDisk : Disk where
  entries := [(["shop"], .directory),
    (["shop", "go.mod"], .file (.text "module example.com/shop\n".toList)),
    (["shop", "store"], .directory), (["shop", "store", "store.go"], .file (.text openText)),
    (["shop", "store.V2"], .directory), (["shop", "store.V2", "store.go"], .file (.text nextText))]

/-- The shop, loaded. -/
def openShop : Module :=
  moduleOf openDisk ["shop"] "example.com/shop" ([(["shop", "store", "store.go"], openText),
    (["shop", "store.V2", "store.go"], nextText)].filterMap parsedFile?)

/-- The method. -/
def openTarget : Target :=
  (resolve openShop "store/store.go" "V2.Open").toOption.get (by decide +kernel)

/-- A method names a function that bears its own name, and nothing is left of it
in what the method uses. -/
theorem uses_loses_namesake : openDisk.WellFormed ∧ load openDisk "/shop" = .ok openShop
    ∧ resolve openShop "store/store.go" "V2.Open" = .ok openTarget
    ∧ ∃ body visit reference, openTarget.declaration.part? .body = some body
      ∧ Occurs [] body visit ∧ Reference.Names (openTarget.bodyScope openShop) visit reference
      ∧ reference.definition ≠ openTarget.toReference.definition
      ∧ (uses openShop openTarget 1).keys = [] := by
  have hload : load openDisk "/shop" = .ok openShop := by
    rw [openShop, openDisk, show nextText = _ from String.toList_ofList,
      show openText = _ from Text.toList_append_literal String.toList_ofList]
    refine load_of_ordered ?_ ?_ ?_ ?_ ?_ <;> decide +kernel
  -- All that is evaluated: the selection in the body, and what stands behind it.
  have hfits : ∀ target ∈ (resolve openShop "store/store.go" "V2.Open").toOption,
      ((target.declaration.part? .body).bind fun body => (body.visits [])[4]?.bind fun visit =>
          (visit.tree.part? .operand).bind fun operand => (visit.tree.part? .field).map fun field =>
            (visit.tree.kind, operand.kind, (target.bodyScope openShop).text operand,
              (target.bodyScope openShop).text field))
          = some (.selectorExpression, .identifier, "next", "Open")
        ∧ (target.bodyScope openShop).isLocal "next" = false
        ∧ ((openShop.imported? target.declaration.file "next").bind fun package =>
            (package.findFunction? "Open").map fun function =>
              decide ((Reference.toFunction package function none).definition
                ≠ target.toReference.definition)) = some true
        ∧ (uses openShop target 1).keys = [] := by
    rw [openShop, openDisk, show nextText = _ from String.toList_ofList,
      show openText = _ from Text.toList_append_literal String.toList_ofList]
    decide +kernel
  obtain ⟨hselection, hlocal, hfunction, hkeys⟩ := hfits openTarget (Option.get_mem _)
  simp only [Option.bind_eq_some_iff, Option.map_eq_some_iff, Prod.mk.injEq] at hselection hfunction
  obtain ⟨body, hbody, visit, hvisit, operand, hoperand, field, hfield, hkind, hname, hfront,
    hback⟩ := hselection
  obtain ⟨package, hpackage, function, hfound, hother⟩ := hfunction
  obtain ⟨file, hfile, hplaced, hfunction, hcalled⟩ := findFunction?_some hfound
  rw [← hfront] at hlocal hpackage
  rw [← hback] at hcalled
  refine ⟨by decide +kernel, hload, eq_ok_get _, body, visit,
    Reference.toFunction package function none, hbody,
    mem_visits_iff.mp (List.mem_of_getElem? hvisit), ?_, of_decide_eq_true hother, hkeys⟩
  refine .selector hkind hoperand hfield hname hlocal ?_
    (.function ⟨⟨file, hfile, hplaced⟩, hfunction, hcalled⟩)
  rw [Target.module_bodyScope, Target.file_bodyScope]
  exact hpackage

end Assay.Focal
