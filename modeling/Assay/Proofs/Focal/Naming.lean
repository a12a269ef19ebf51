/-
The declarations of a module that have qualified names, and what it means that
no two of them share one. A name then leads to one declaration, so references
that agree in the name agree in the body that is read for it.
-/
import Assay.Proofs.Focal.Origin
import Assay.Proofs.Source.Packages
import Mathlib.Data.List.Nodup

namespace Assay.Focal

open Assay.Syntax Assay.Source

variable {module : Module} {target : Target} {path query : String}
  {function function' : Declaration} {reference other : Reference}

/-- A declaration and its name in the module. -/
structure Named where
  id : QualifiedName
  declaration : Declaration

-- =========================================================== declarations

/-- The functions and methods of a file. -/
def namedFunctions (package : Package) (file : File) : List Named :=
  (file.topLevel.filterMap (target? package file)).map fun target =>
    ⟨target.id, target.declaration⟩

/-- The methods that an interface lists itself. -/
def namedMethods (package : Package) (interface : String) (spec : Declaration) : List Named :=
  (methodElems spec).filterMap fun method => method.name?.map fun name =>
    ⟨.ofFunction package.id (some ⟨interface, .interface⟩) name, method⟩

/-- The types of a file, and the methods of those that are interfaces. -/
def namedTypes (package : Package) (file : File) : List Named :=
  file.typeSpecs.flatMap fun spec => match spec.name? with
    | none => []
    | some name => ⟨.ofType package.id name, spec⟩ :: namedMethods package name spec

/-- Everything in a module that has a qualified name. -/
def declarations (module : Module) : List Named :=
  module.allPackages.flatMap fun package => package.files.flatMap fun file =>
    namedFunctions package file ++ namedTypes package file

/-- Distinct declarations have distinct names. -/
def NamesDistinct (module : Module) : Prop :=
  ∀ a ∈ declarations module, ∀ b ∈ declarations module,
    a.id = b.id → a.declaration = b.declaration

theorem namesDistinct_of_nodup (hnodup : ((declarations module).map (·.id)).Nodup) :
    NamesDistinct module := fun _ hmem _ hmem' hsame =>
  congrArg Named.declaration (List.inj_on_of_nodup_map hnodup hmem hmem' hsame)

theorem mem_declarations {package : Package} {file : File} {named : Named}
    (hloaded : package ∈ module.allPackages) (hplaced : file ∈ package.files)
    (hmem : named ∈ namedFunctions package file ∨ named ∈ namedTypes package file) :
    named ∈ declarations module :=
  List.mem_flatMap.mpr ⟨package, hloaded,
    List.mem_flatMap.mpr ⟨file, hplaced, List.mem_append.mpr hmem⟩⟩

theorem mem_namedFunctions {package : Package} {file : File} {node : Tree}
    (htop : node ∈ file.topLevel) (hmade : target? package file node = some target) :
    ⟨target.id, target.declaration⟩ ∈ namedFunctions package file :=
  List.mem_map.mpr ⟨target, List.mem_filterMap.mpr ⟨node, htop, hmade⟩, rfl⟩

-- ============================================================= the target

/-- The declaration whose body is read when a reference leads here. -/
def body? (declaration : Declaration) : Option Declaration :=
  if declaration.node.kind = .functionDeclaration ∨ declaration.node.kind = .methodDeclaration then
    some declaration
  else none

/-- No function goes by two names, as it might if two packages shared a file. -/
def NamesUnique (module : Module) : Prop :=
  ∀ a ∈ declarations module, ∀ b ∈ declarations module,
    (body? a.declaration).isSome → a.declaration = b.declaration → a.id = b.id

/-- A reference to the function itself. -/
def Target.toReference (target : Target) : Reference :=
  .toFunction target.package target.declaration target.receiver

theorem eq_of_target? {package : Package} {file : File} {node : Tree}
    (hmade : target? package file node = some target) :
    (target.declaration.node.kind = .functionDeclaration
        ∨ target.declaration.node.kind = .methodDeclaration)
      ∧ target.package = package ∧ target.declaration = ⟨file, node⟩
      ∧ target.declaration.name? = some target.name := by
  rw [target?] at hmade
  split at hmade
  next hkind =>
    obtain ⟨name, hnamed, rfl⟩ := Option.map_eq_some_iff.mp hmade
    exact ⟨.inl hkind, rfl, rfl, hnamed⟩
  next hkind =>
    obtain ⟨name, hnamed, rfl⟩ := Option.map_eq_some_iff.mp hmade
    exact ⟨.inr hkind, rfl, rfl, hnamed⟩
  next => cases hmade

theorem id_toReference (hnamed : target.declaration.name? = some target.name) :
    target.toReference.definition.id = target.id := by
  rw [Target.toReference, Reference.toFunction, nameIn_eq hnamed]
  rfl

/-- The function that is resolved is the only answer of a loaded file. -/
theorem answers_of_resolve (hresolved : resolve module path query = .ok target) :
    ∃ package file, module.fileAt? path = some (package, file)
      ∧ answers package file (Query.ofString query) = [target] := by
  unfold resolve at hresolved
  split at hresolved
  next => cases hresolved
  next package file hfound =>
    refine ⟨package, file, hfound, ?_⟩
    split at hresolved
    next => cases hresolved
    next only hanswered => rw [hanswered, Except.ok.inj hresolved]
    next => cases hresolved

/-- The function that is resolved stands at the top level of a loaded file. -/
theorem target?_of_resolve (hresolved : resolve module path query = .ok target) :
    ∃ package ∈ module.allPackages, ∃ file ∈ package.files, ∃ node ∈ file.topLevel,
      target? package file node = some target := by
  obtain ⟨package, file, hfound, hanswered⟩ := answers_of_resolve hresolved
  obtain ⟨hloaded, hplaced⟩ := mem_of_fileAt? hfound
  have hmem : target ∈ answers package file (Query.ofString query) := by
    rw [hanswered]
    exact List.mem_singleton_self _
  obtain ⟨node, htop, hmade⟩ := List.mem_filterMap.mp (List.mem_filter.mp hmem).1
  exact ⟨package, hloaded, file, hplaced, node, htop, hmade⟩

-- ========================================================== descriptions

/-- The specification of a type is neither a function nor a method. -/
theorem kind_ne_of_mem_typeSpecs {file : File} {spec : Declaration}
    (hheld : spec ∈ file.typeSpecs) : spec.node.kind ≠ .functionDeclaration
      ∧ spec.node.kind ≠ .methodDeclaration ∧ spec.node.kind ≠ .methodElem := by
  have hkind := kind_of_mem_typeSpecs hheld
  refine ⟨?_, ?_, ?_⟩ <;> intro his <;> simp [isTypeSpec, his] at hkind

/-- Of the declarations of a module, those with a body to read are the functions of its
files. -/
theorem exists_target?_of_mem_declarations {named : Named} (hmem : named ∈ declarations module)
    (hbody : (body? named.declaration).isSome) :
    ∃ package ∈ module.allPackages, ∃ file ∈ package.files, ∃ node target,
      target? package file node = some target ∧ named = ⟨target.id, target.declaration⟩ := by
  have hkind : named.declaration.node.kind = .functionDeclaration
      ∨ named.declaration.node.kind = .methodDeclaration := by
    rw [body?] at hbody
    exact of_not_not fun hnone => by simp [if_neg hnone] at hbody
  obtain ⟨package, hloaded, hmem⟩ := List.mem_flatMap.mp hmem
  obtain ⟨file, hplaced, hmem⟩ := List.mem_flatMap.mp hmem
  obtain hmem | hmem := List.mem_append.mp hmem
  · obtain ⟨target, htarget, rfl⟩ := List.mem_map.mp hmem
    obtain ⟨node, -, hmade⟩ := List.mem_filterMap.mp htarget
    exact ⟨package, hloaded, file, hplaced, node, target, hmade, rfl⟩
  · -- A type is no function, nor is a method that an interface lists.
    obtain ⟨spec, hheld, hmem⟩ := List.mem_flatMap.mp hmem
    obtain ⟨hne, hne', -⟩ := kind_ne_of_mem_typeSpecs hheld
    split at hmem
    next => cases hmem
    next name hcalled =>
      obtain rfl | hmem := List.mem_cons.mp hmem
      · exact (hkind.elim hne hne').elim
      · obtain ⟨method, hlisted, hmethod⟩ := List.mem_filterMap.mp hmem
        obtain ⟨_, -, rfl⟩ := Option.map_eq_some_iff.mp hmethod
        rw [(of_mem_methodElems hlisted).2] at hkind
        exact absurd hkind (by decide)

/-- One file stands in one package, where files belong to one package each. -/
theorem package_eq_of_file_eq (howned : ∀ package ∈ module.allPackages,
      ∀ file ∈ package.files, module.packageOf? file = some package)
    {package package' : Package} {file file' : File}
    (hloaded : package ∈ module.allPackages) (hplaced : file ∈ package.files)
    (hloaded' : package' ∈ module.allPackages) (hplaced' : file' ∈ package'.files)
    (hfiles : file = file') : package = package' := by
  subst hfiles
  exact Option.some.inj ((howned _ hloaded _ hplaced).symm.trans (howned _ hloaded' _ hplaced'))

/-- A declaration settles whose function it is, where files belong to one package. -/
theorem target_eq_of_declaration_eq (howned : ∀ package ∈ module.allPackages,
      ∀ file ∈ package.files, module.packageOf? file = some package)
    {package package' : Package} {file file' : File} {node node' : Tree} {target' : Target}
    (hloaded : package ∈ module.allPackages) (hplaced : file ∈ package.files)
    (hmade : target? package file node = some target)
    (hloaded' : package' ∈ module.allPackages) (hplaced' : file' ∈ package'.files)
    (hmade' : target? package' file' node' = some target')
    (hagree : target.declaration = target'.declaration) : target = target' := by
  obtain ⟨-, -, hplace, -⟩ := eq_of_target? hmade
  obtain ⟨-, -, hplace', -⟩ := eq_of_target? hmade'
  obtain ⟨rfl, rfl⟩ := Declaration.mk.inj (hplace.symm.trans (hagree.trans hplace'))
  obtain rfl := package_eq_of_file_eq howned hloaded hplaced hloaded' hplaced' rfl
  exact Option.some.inj (hmade.symm.trans hmade')

/-- In a loaded module no function goes by two names: its files belong to one package
each. -/
theorem namesUnique_of_load {disk : Disk} (hdisk : disk.WellFormed)
    (hload : load disk path = .ok module) : NamesUnique module := by
  intro a hmem b hmem' hbody hsame
  have howned : ∀ package ∈ module.allPackages, ∀ file ∈ package.files,
      module.packageOf? file = some package := fun package hpackage file hfile =>
    ((lookups_of_load hdisk hload hpackage).2 file hfile).2.2
  obtain ⟨package, hloaded, file, hplaced, node, target, hmade, rfl⟩ :=
    exists_target?_of_mem_declarations hmem hbody
  obtain ⟨package', hloaded', file', hplaced', node', target', hmade', rfl⟩ :=
    exists_target?_of_mem_declarations hmem' (hsame ▸ hbody)
  rw [target_eq_of_declaration_eq howned hloaded hplaced hmade hloaded' hplaced' hmade' hsame]

/-- The definition is what a prompt says of a declaration of the module. -/
inductive Describes (module : Module) : Declaration → Definition → Prop where
  | function {package : Package} {file : File} {node : Tree} {target : Target}
      (hloaded : package ∈ module.allPackages) (hplaced : file ∈ package.files)
      (htop : node ∈ file.topLevel) (hmade : target? package file node = some target) :
      Describes module target.declaration target.toReference.definition
  | interfaceMethod {package : Package} {file : File} {spec method : Declaration}
      {interface name : String} (hloaded : package ∈ module.allPackages)
      (hplaced : file ∈ package.files) (hheld : spec ∈ file.typeSpecs)
      (hcalled : spec.name? = some interface) (hlisted : method ∈ methodElems spec)
      (hnamed : method.name? = some name) :
      Describes module method (Reference.toInterfaceMethod package interface method).definition
  | type {package : Package} {file : File} {spec : Declaration} {name : String}
      (hloaded : package ∈ module.allPackages) (hplaced : file ∈ package.files)
      (hheld : spec ∈ file.typeSpecs) (hcalled : spec.name? = some name) :
      Describes module spec (Reference.toType package spec).definition

namespace Describes

variable {declaration : Declaration} {definition definition' : Definition}

/-- The name is that of the declaration. -/
theorem mem_declarations (hdescribes : Describes module declaration definition) :
    ⟨definition.id, declaration⟩ ∈ declarations module := by
  cases hdescribes with
  | @function package file node target hloaded hplaced htop hmade =>
    rw [id_toReference (eq_of_target? hmade).2.2.2]
    exact Focal.mem_declarations hloaded hplaced (.inl (mem_namedFunctions htop hmade))
  | @interfaceMethod package file spec method interface name hloaded hplaced hheld hcalled hlisted
      hnamed =>
    refine Focal.mem_declarations hloaded hplaced (.inr (List.mem_flatMap.mpr ⟨spec, hheld, ?_⟩))
    rw [hcalled]
    refine List.mem_cons_of_mem _ (List.mem_filterMap.mpr ⟨declaration, hlisted, ?_⟩)
    rw [hnamed, Option.map_some, ← nameIn_eq hnamed]
    rfl
  | @type package file spec name hloaded hplaced hheld hcalled =>
    refine Focal.mem_declarations hloaded hplaced
      (.inr (List.mem_flatMap.mpr ⟨declaration, hheld, ?_⟩))
    rw [hcalled, ← nameIn_eq hcalled]
    exact List.mem_cons_self ..

/-- What is said of a declaration is settled by its name, where files belong to
one package. The name only decides between interfaces that share a method. -/
theorem eq_of_declaration_eq (howned : ∀ package ∈ module.allPackages, ∀ file ∈ package.files,
      module.packageOf? file = some package)
    (hdescribes : Describes module declaration definition) {declaration' : Declaration}
    (hdescribes' : Describes module declaration' definition')
    (hagree : declaration = declaration') (hsame : definition.id = definition'.id) :
    definition = definition' := by
  cases hdescribes with
  | function hloaded hplaced htop hmade =>
    have hkind := (eq_of_target? hmade).1
    cases hdescribes' with
    | function hloaded' hplaced' htop' hmade' =>
      rw [target_eq_of_declaration_eq howned hloaded hplaced hmade hloaded' hplaced' hmade' hagree]
    | interfaceMethod _ _ _ _ hlisted' _ =>
      rw [hagree, (of_mem_methodElems hlisted').2] at hkind
      exact absurd hkind (by decide)
    | type _ _ hheld' _ =>
      obtain ⟨hne, hne', -⟩ := kind_ne_of_mem_typeSpecs hheld'
      exact ((hagree ▸ hkind).elim hne hne').elim
  | interfaceMethod hloaded hplaced hheld hcalled hlisted hnamed =>
    have hkind := (of_mem_methodElems hlisted).2
    cases hdescribes' with
    | function _ _ _ hmade' =>
      rw [hagree] at hkind
      exact absurd (eq_of_target? hmade').1 (by simp [hkind])
    | interfaceMethod hloaded' hplaced' hheld' hcalled' hlisted' hnamed' =>
      subst hagree
      have hfile := (of_mem_methodElems hlisted).1.trans (file_of_mem_typeSpecs hheld)
      have hfile' := (of_mem_methodElems hlisted').1.trans (file_of_mem_typeSpecs hheld')
      obtain rfl := package_eq_of_file_eq howned hloaded hplaced hloaded' hplaced'
        (hfile.symm.trans hfile')
      simp only [Reference.toInterfaceMethod, Definition.id, QualifiedName.ofFunction,
        Receiver.qualifier, QualifiedName.mk.injEq, String.append_left_inj,
        String.append_right_inj] at hsame
      rw [hsame]
    | type _ _ hheld' _ =>
      exact absurd (hagree ▸ hkind) (kind_ne_of_mem_typeSpecs hheld').2.2
  | type hloaded hplaced hheld hcalled =>
    obtain ⟨hne, hne', hne''⟩ := kind_ne_of_mem_typeSpecs hheld
    cases hdescribes' with
    | function _ _ _ hmade' => exact ((hagree ▸ (eq_of_target? hmade').1).elim hne hne').elim
    | interfaceMethod _ _ _ _ hlisted' _ =>
      exact absurd (hagree ▸ (of_mem_methodElems hlisted').2) hne''
    | type hloaded' hplaced' hheld' hcalled' =>
      subst hagree
      have hfile := (file_of_mem_typeSpecs hheld).symm.trans (file_of_mem_typeSpecs hheld')
      rw [package_eq_of_file_eq howned hloaded hplaced hloaded' hplaced' hfile]

/-- Where declarations have distinct names, a name settles what is said. -/
theorem eq_of_id_eq (howned : ∀ package ∈ module.allPackages, ∀ file ∈ package.files,
      module.packageOf? file = some package) (hdistinct : NamesDistinct module)
    (hdescribes : Describes module declaration definition) {declaration' : Declaration}
    (hdescribes' : Describes module declaration' definition')
    (hsame : definition.id = definition'.id) : definition = definition' :=
  hdescribes.eq_of_declaration_eq howned hdescribes'
    (hdistinct ⟨_, _⟩ hdescribes.mem_declarations ⟨_, _⟩ hdescribes'.mem_declarations hsame) hsame

end Describes

/-- What is said of a resolved function is said under its name. -/
theorem describes_of_resolve (hresolved : resolve module path query = .ok target) :
    Describes module target.declaration target.toReference.definition
      ∧ target.toReference.definition.id = target.id := by
  obtain ⟨package, hloaded, file, hplaced, node, htop, hmade⟩ := target?_of_resolve hresolved
  exact ⟨.function hloaded hplaced htop hmade, id_toReference (eq_of_target? hmade).2.2.2⟩

/-- A resolved function is a declaration of the module, and one with a body to
read. -/
theorem mem_declarations_of_resolve (hresolved : resolve module path query = .ok target) :
    ⟨target.id, target.declaration⟩ ∈ declarations module
      ∧ (target.declaration.node.kind = .functionDeclaration
        ∨ target.declaration.node.kind = .methodDeclaration) := by
  obtain ⟨package, hloaded, file, hplaced, node, htop, hmade⟩ := target?_of_resolve hresolved
  exact ⟨mem_declarations hloaded hplaced (.inl (mem_namedFunctions htop hmade)),
    (eq_of_target? hmade).1⟩

-- ============================================================= references

/-- A reference has what it says, and its body if there is one, from a
declaration of the module. -/
theorem Reference.Sourced.describes (hsourced : Sourced module reference) :
    ∃ declaration, Describes module declaration reference.definition
      ∧ reference.next = body? declaration := by
  cases hsourced with
  | @function package file declaration name hloaded hsource hplaced hkind hnamed =>
    obtain ⟨node, htop, rfl⟩ := List.mem_map.mp hplaced
    have hmade : target? package file node = some ⟨package, ⟨file, node⟩, name, none⟩ := by
      simp only [target?, show node.kind = .functionDeclaration from hkind, hnamed, Option.map_some]
    exact ⟨⟨file, node⟩, .function hloaded (mem_files_of_mem_sourceFiles hsource) htop hmade,
      (if_pos (.inl hkind)).symm⟩
  | @method package file declaration name receiver hloaded hsource hplaced hkind hnamed hreceived =>
    obtain ⟨node, htop, rfl⟩ := List.mem_map.mp hplaced
    have hmade : target? package file node = some ⟨package, ⟨file, node⟩, name, some receiver⟩ := by
      simp only [target?, show node.kind = .methodDeclaration from hkind, hnamed, hreceived,
        Option.map_some]
    exact ⟨⟨file, node⟩, .function hloaded (mem_files_of_mem_sourceFiles hsource) htop hmade,
      (if_pos (.inr hkind)).symm⟩
  | @interfaceMethod package file spec method interface name hloaded hsource hplaced hcalled hlisted
      hnamed =>
    refine ⟨method, .interfaceMethod hloaded (mem_files_of_mem_sourceFiles hsource) hplaced hcalled
      hlisted hnamed, ?_⟩
    rw [body?, (of_mem_methodElems hlisted).2, if_neg (by decide)]
    rfl
  | @type package file spec name hloaded hsource hplaced hcalled =>
    refine ⟨spec, .type hloaded (mem_files_of_mem_sourceFiles hsource) hplaced hcalled, ?_⟩
    obtain ⟨hne, hne', -⟩ := kind_ne_of_mem_typeSpecs hplaced
    rw [body?, if_neg (not_or.mpr ⟨hne, hne'⟩)]
    rfl

/-- A reference has its name, and its body if there is one, from a declaration
of the module. -/
theorem Reference.Sourced.named (hsourced : Sourced module reference) :
    ∃ declaration, ⟨reference.definition.id, declaration⟩ ∈ declarations module
      ∧ reference.next = body? declaration := by
  obtain ⟨declaration, hdescribes, hnext⟩ := hsourced.describes
  exact ⟨declaration, hdescribes.mem_declarations, hnext⟩

/-- References to one name are followed to one body. -/
theorem next_eq_of_id_eq (hdistinct : NamesDistinct module)
    (hmem : reference ∈ Reference.inBody module function)
    (hmem' : other ∈ Reference.inBody module function')
    (hsame : reference.definition.id = other.definition.id) : reference.next = other.next := by
  obtain ⟨declaration, hdeclared, hnext⟩ := (Reference.sourced_of_inBody hmem).named
  obtain ⟨declaration', hdeclared', hnext'⟩ := (Reference.sourced_of_inBody hmem').named
  have hagree : declaration = declaration' := hdistinct ⟨_, _⟩ hdeclared ⟨_, _⟩ hdeclared' hsame
  rw [hnext, hnext', hagree]

/-- References to the function under test are followed to its own body. -/
theorem next_eq_of_id_eq_target (hdistinct : NamesDistinct module)
    (hresolved : resolve module path query = .ok target)
    (hmem : reference ∈ Reference.inBody module function)
    (hsame : reference.definition.id = target.id) : reference.next = some target.declaration := by
  obtain ⟨declaration, hdeclared, hnext⟩ := (Reference.sourced_of_inBody hmem).named
  obtain ⟨hdeclared', hkind⟩ := mem_declarations_of_resolve hresolved
  have hagree : declaration = target.declaration :=
    hdistinct ⟨_, _⟩ hdeclared ⟨_, _⟩ hdeclared' hsame
  rw [hnext, hagree, body?, if_pos hkind]

end Assay.Focal
