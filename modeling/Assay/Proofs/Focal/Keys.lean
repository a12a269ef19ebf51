/-
Keys in composite literals. A name of a package's variable or constant refers to the
declaration of its type, where inference tells one (`ofVisit_of_namesValue`). The key of a
keyed element is left out: as the name of a field it refers to nothing.

Whether a key is the name of a field is a matter of the literal's type, though, and what is
looked at are the two nodes above the key (`isKey_iff`). The keys of maps, slices and arrays
are left out as well, where a name stands for a value like any other. So the type of such a
value is in a closure only by something else that refers to it (`uses_types_values`).
-/
import Assay.Proofs.Focal.Interfaces

namespace Assay.Focal

open Assay.Syntax Assay.Source Assay.Typing

variable {module : Module} {target : Target} {root path query : String} {disk : Disk}
  {depth : Nat} {above : List Label} {tree body : Tree} {visit : Tree.Visit}
  {reference : Reference}

-- =================================================================== keys

/-- A node that occurs in a tree is the tree itself or a child of one that does. -/
theorem Occurs.eq_or_child (hoccurs : Occurs above tree visit) :
    visit = ⟨tree, above⟩ ∨ ∃ parent, Occurs above tree parent
      ∧ visit.tree ∈ parent.tree.children ∧ visit.above = parent.tree.label :: parent.above := by
  induction hoccurs with
  | here => exact .inl rfl
  | @inside above label children child visit hchild hoccurs ih =>
      right
      rcases ih with rfl | ⟨parent, hparent, hbelow⟩
      · exact ⟨_, .here above (.node label children), hchild, rfl⟩
      · exact ⟨parent, .inside hchild hparent, hbelow⟩

/-- A node is the key of a keyed element, which is written in a composite literal. -/
def IsKey (body : Tree) (visit : Tree.Visit) : Prop :=
  ∃ pair element, Occurs [] body pair ∧ pair.tree.kind = .keyedElement
    ∧ element ∈ pair.tree.children ∧ element.kind = .literalElement
    ∧ element.label.role = some .key ∧ visit.tree ∈ element.children
    ∧ visit.above = element.label :: pair.tree.label :: pair.above

/-- Keys are told by the nodes above them. -/
theorem isKey_iff (hoccurs : Occurs [] body visit) :
    IsKey body visit ↔ Reference.isLiteralKey visit.above = true := by
  constructor
  · rintro ⟨pair, element, -, hpair, -, helement, hrole, -, habove⟩
    simp only [Tree.kind] at hpair helement
    simp [habove, Reference.isLiteralKey, hpair, helement, hrole]
  · intro hkey
    rcases hoccurs.eq_or_child with rfl | ⟨element, helement, hchild, habove⟩
    · cases hkey
    · rcases helement.eq_or_child with rfl | ⟨pair, hpair, hinner, hpairAbove⟩
      · rw [habove] at hkey
        cases hkey
      · rw [habove, hpairAbove] at hkey
        simp only [Reference.isLiteralKey, Bool.and_eq_true, beq_iff_eq] at hkey
        obtain ⟨⟨hliteral, hrole⟩, hpairKind⟩ := hkey
        exact ⟨pair, element.tree, hpair, hpairKind, hinner, hliteral, hrole, hchild,
          hpairAbove ▸ habove⟩

-- ========================================================= names of values

namespace Reference

variable {scope : Scope}

/-- A name stands for a variable or a constant of the package, and for nothing else, and
`reference` is to its type: inference tells the type, and the module declares it. -/
structure NamesValue (scope : Scope) (name : Tree) (reference : Reference) : Prop where
  identifier : name.kind = .identifier
  notLocal : scope.isLocal (scope.text name) = false
  notImport : scope.isPackageName (scope.text name) = false
  value : ∃ spec, scope.context.package.findValue? (scope.text name) = some spec
  single : ¬ DeclaredTwice scope.context.package (scope.text name)
  type : ∃ type, scope.infer? name = some type
    ∧ toTypeRef? scope.context.module type = some reference

/-- Such a name refers to the type, unless it is a key. -/
theorem ofVisit_of_namesValue (hnames : NamesValue scope visit.tree reference) :
    ofVisit scope visit = if isLiteralKey visit.above then [] else [reference] := by
  obtain ⟨spec, hspec⟩ := hnames.value
  obtain ⟨type, hinfer, htype⟩ := hnames.type
  obtain ⟨hfunction, hnotype⟩ := only_value hspec hnames.single
  have hname : ofName? scope visit.tree = some reference := by
    simp [ofName?, hnames.notLocal, hnames.notImport, hfunction, hnotype, hinfer, htype]
  simp [ofVisit, hnames.identifier, hname]

end Reference

-- =========================================================== the closure

/-- A node in a body that is read for a closure. -/
structure NodeRead (module : Module) (target : Target) (depth : Nat) where
  function : Declaration
  context : Context
  body : Tree
  visit : Tree.Visit
  hread : function ∈ bodiesRead module target depth
  hcontext : Context.ofFile? module function.file = some context
  hbody : function.part? .body = some body
  hoccurs : Occurs [] body visit

namespace NodeRead

variable (node : NodeRead module target depth)

/-- The variables at the node. -/
def scope : Scope := Scope.ofFunction node.context node.function.node

/-- What the node refers to. -/
def references : List Reference := Reference.ofVisit node.scope node.visit

end NodeRead

/-- What is read for a closure are the nodes of the bodies. -/
theorem mem_referencesRead_iff : reference ∈ referencesRead module target depth
    ↔ ∃ node : NodeRead module target depth, reference ∈ node.references := by
  rw [referencesRead, List.mem_flatMap]
  constructor
  · rintro ⟨function, hread, hlisted⟩
    obtain ⟨context, body, visit, hcontext, hbody, hoccurs, hrefers⟩ :=
      Reference.mem_inBody_iff.mp hlisted
    exact ⟨⟨function, context, body, visit, hread, hcontext, hbody, hoccurs⟩, hrefers⟩
  · rintro ⟨node, hrefers⟩
    exact ⟨node.function, node.hread, Reference.mem_inBody_iff.mpr
      ⟨_, _, node.visit, node.hcontext, node.hbody, node.hoccurs, hrefers⟩⟩

/-- A name is in a closure by the nodes that refer to it. -/
theorem text_mem_keys_iff_node {id : QualifiedName} :
    id.text ∈ (uses module target depth).keys ↔ id ≠ target.id
      ∧ ∃ node : NodeRead module target depth, ∃ reference ∈ node.references,
        reference.definition.id = id := by
  rw [text_mem_keys_uses]
  refine and_congr_right fun _ => ⟨?_, ?_⟩
  · rintro ⟨reference, hread, hid⟩
    obtain ⟨node, hrefers⟩ := mem_referencesRead_iff.mp hread
    exact ⟨node, reference, hrefers, hid⟩
  · rintro ⟨node, reference, hrefers, hid⟩
    exact ⟨reference, mem_referencesRead_iff.mpr ⟨node, hrefers⟩, hid⟩

/-- A name of a package's variable or constant, wherever it is read. If it is no key, the
type that inference tells of it is in the closure, unless it bears the name of the function
under test; where declarations have distinct names, it is there with its declaration. If it
is a key, of a literal of whatever type, it refers to nothing, and the type is there only by
another node. -/
theorem uses_types_values (hdisk : disk.WellFormed) (hload : load disk root = .ok module)
    (hresolve : resolve module path query = .ok target) (node : NodeRead module target depth)
    (hnames : Reference.NamesValue node.scope node.visit.tree reference) :
    (¬ IsKey node.body node.visit →
      (reference.definition.id.text ∈ (uses module target depth).keys
          ↔ reference.definition.id ≠ target.id)
        ∧ (NamesDistinct module →
          (uses module target depth).find? reference.definition.id.text
            = some reference.definition))
    ∧ (IsKey node.body node.visit → node.references = []
      ∧ (reference.definition.id.text ∈ (uses module target depth).keys
        ↔ reference.definition.id ≠ target.id
          ∧ ∃ other : NodeRead module target depth, ∃ same ∈ other.references,
            same.definition.id = reference.definition.id)) := by
  have hrefers : node.references
      = if Reference.isLiteralKey node.visit.above then [] else [reference] :=
    Reference.ofVisit_of_namesValue hnames
  rw [isKey_iff node.hoccurs]
  refine ⟨fun hother => ?_, fun hkey => ⟨?_, text_mem_keys_iff_node⟩⟩
  · rw [if_neg hother] at hrefers
    have hmem : reference ∈ node.references := hrefers ▸ List.mem_singleton_self _
    refine ⟨?_, fun hdistinct => ?_⟩
    · rw [text_mem_keys_iff_node, and_iff_left ⟨node, reference, hmem, rfl⟩]
    · obtain ⟨type, -, htype⟩ := hnames.type
      obtain ⟨found, -, rfl⟩ := Option.map_eq_some_iff.mp htype
      exact find?_uses_of_read hdisk hload hresolve hdistinct
        (mem_referencesRead_iff.mpr ⟨node, hmem⟩) nofun
  · rw [hrefers, if_pos hkey]

-- ================================================================ a stock

/-- Two functions that name a variable: as the key of a map, and by itself. -/
def stockText : List Char :=
  ("package stock\n\ntype Kind struct\x7b\x7d\n\nvar Bulk Kind\n\n"
    ++ "func Count() \x7b _ = map[any]int\x7bBulk: 1\x7d \x7d\n\n"
    ++ "func Show() \x7b _ = Bulk \x7d\n").toList

/-- A module of one file. -/
def stockDisk : Disk where
  entries := [(["stock"], .directory), (["stock", "a.go"], .file (.text stockText)),
    (["stock", "go.mod"], .file (.text "module stock\n".toList))]

/-- The module, loaded. -/
def stock : Module :=
  moduleOf stockDisk ["stock"] "stock" ([(["stock", "a.go"], stockText)].filterMap parsedFile?)

theorem load_stock : load stockDisk "/stock" = .ok stock := by
  rw [stock, stockDisk, show stockText = _ from
    Text.toList_append_literal (Text.toList_append_literal String.toList_ofList)]
  refine load_of_ordered ?_ ?_ ?_ ?_ ?_ <;> decide +kernel

/-- What a prompt is told of the type. -/
def kindDefinition : TypeDefinition where
  id := ⟨"stock.Kind"⟩
  name := "Kind"
  package := ⟨"stock", "stock"⟩
  file := "/stock/a.go"
  body := "type Kind struct\x7b\x7d"

/-- The name stands for a value of the stock's type. -/
def isOfKind (scope : Scope) (name : Tree) : Bool :=
  let package := scope.context.package
  let text := scope.text name
  name.kind == .identifier && !scope.isLocal text && !scope.isPackageName text
    && (package.findValue? text).isSome
    && (package.findFunction? text).isNone && (package.findType? text).isNone
    && (scope.infer? name).any fun type =>
      (Reference.toTypeRef? scope.context.module type).any fun reference =>
        decide (reference.definition = .type kindDefinition)

theorem exists_namesValue {scope : Scope} {name : Tree} (hkind : isOfKind scope name = true) :
    ∃ reference, Reference.NamesValue scope name reference
      ∧ reference.definition = .type kindDefinition := by
  simp only [isOfKind, Bool.and_eq_true, Bool.not_eq_true', beq_iff_eq, Option.isSome_iff_exists,
    Option.isNone_iff_eq_none, Option.any_eq_true, decide_eq_true_iff] at hkind
  obtain ⟨⟨⟨⟨⟨⟨hkind, hlocal⟩, himport⟩, hvalue⟩, hfunction⟩, hnone⟩, type, hinfer, reference,
    htype, hsame⟩ := hkind
  refine ⟨reference, ⟨hkind, hlocal, himport, hvalue, ?_, type, hinfer, htype⟩, hsame⟩
  rintro ⟨-, hother | hother⟩
  · rw [hfunction] at hother
    cases hother
  · rw [hnone] at hother
    cases hother

/-- Some node of a tree names a value of the stock's type, as a key or not. -/
def namesKind (scope : Scope) (asKey : Bool) (above : List Label) (tree : Tree) : Bool :=
  (tree.visits above).any fun visit =>
    isOfKind scope visit.tree && Reference.isLiteralKey visit.above == asKey

/-- What the stock's functions name. -/
theorem stock_fits : ((declarations stock).map (·.id)).Nodup
    ∧ (resolve stock "a.go" "Show").toOption.any (fun target =>
      (Context.ofFile? stock target.declaration.file).any fun context =>
        (target.declaration.part? .body).any
          (namesKind (Scope.ofFunction context target.declaration.node) false [])) = true
    ∧ (resolve stock "a.go" "Count").toOption.any (fun target =>
      (Context.ofFile? stock target.declaration.file).any (fun context =>
        (target.declaration.part? .body).any fun body => (body.visits []).any fun literal =>
          literal.tree.kind == .compositeLiteral
            && (literal.tree.part? .type).any (·.kind == .mapType)
            && namesKind (Scope.ofFunction context target.declaration.node) true literal.above
              literal.tree)
        && (uses stock target 1).keys.isEmpty) = true := by
  rw [stock, stockDisk, show stockText = _ from
    Text.toList_append_literal (Text.toList_append_literal String.toList_ofList)]
  decide +kernel

/-- The second function names the variable by itself. -/
theorem exists_name_of_show : ∃ target, resolve stock "a.go" "Show" = .ok target
    ∧ ∃ (node : NodeRead stock target 1) (reference : Reference),
      Reference.NamesValue node.scope node.visit.tree reference
        ∧ reference.definition = .type kindDefinition ∧ ¬ IsKey node.body node.visit := by
  obtain ⟨-, hshow, -⟩ := stock_fits
  simp only [namesKind, Option.any_eq_true, List.any_eq_true, Bool.and_eq_true, beq_iff_eq]
    at hshow
  obtain ⟨target, htarget, context, hcontext, body, hbody, visit, hvisit, hkind, hother⟩ := hshow
  have hoccurs := mem_visits_iff.mp hvisit
  obtain ⟨reference, hnames, hsame⟩ := exists_namesValue hkind
  exact ⟨target, eq_ok_of_toOption htarget, ⟨_, context, body, visit, mem_bodiesRead stock target 1,
    hcontext, hbody, hoccurs⟩, reference, hnames, hsame, fun hkey =>
      Bool.false_ne_true (hother.symm.trans ((isKey_iff hoccurs).mp hkey))⟩

/-- The first function names it as the key of a map, and its closure is empty. -/
theorem exists_key_of_count : ∃ target, resolve stock "a.go" "Count" = .ok target
    ∧ (uses stock target 1).keys = []
    ∧ ∃ (node : NodeRead stock target 1) (reference : Reference) (literal : Tree.Visit)
      (written : Tree), Reference.NamesValue node.scope node.visit.tree reference
        ∧ reference.definition = .type kindDefinition ∧ IsKey node.body node.visit
        ∧ literal.tree.kind = .compositeLiteral ∧ literal.tree.part? .type = some written
        ∧ written.kind = .mapType ∧ Occurs [] node.body literal
        ∧ Occurs literal.above literal.tree node.visit := by
  obtain ⟨-, -, hcount⟩ := stock_fits
  simp only [namesKind, Option.any_eq_true, List.any_eq_true, Bool.and_eq_true, beq_iff_eq,
    List.isEmpty_iff] at hcount
  obtain ⟨target, htarget, ⟨context, hcontext, body, hbody, literal, hliteral,
    ⟨hkind, written, hwritten, hmap⟩, visit, hvisit, hvalue, hkey⟩, hnone⟩ := hcount
  have houter := mem_visits_iff.mp hliteral
  have hinner := mem_visits_iff.mp hvisit
  have hoccurs := houter.trans hinner
  obtain ⟨reference, hnames, hsame⟩ := exists_namesValue hvalue
  exact ⟨target, eq_ok_of_toOption htarget, hnone, ⟨_, context, body, visit,
    mem_bodiesRead stock target 1, hcontext, hbody, hoccurs⟩, reference, literal, written, hnames,
    hsame, (isKey_iff hoccurs).mpr hkey, hkind, hwritten, hmap, houter, hinner⟩

/-- By itself the variable brings its type, and as a key it refers to nothing. -/
theorem uses_types_values_stock : stockDisk.WellFormed ∧ load stockDisk "/stock" = .ok stock
    ∧ NamesDistinct stock
    ∧ (∃ target, resolve stock "a.go" "Show" = .ok target
      ∧ (uses stock target 1).find? "stock.Kind" = some (.type kindDefinition))
    ∧ ∃ target, resolve stock "a.go" "Count" = .ok target
      ∧ ∃ node : NodeRead stock target 1, IsKey node.body node.visit ∧ node.references = [] := by
  have hdisk : stockDisk.WellFormed := by decide +kernel
  have hdistinct : NamesDistinct stock := namesDistinct_of_nodup stock_fits.1
  refine ⟨hdisk, load_stock, hdistinct, ?_, ?_⟩
  · obtain ⟨target, hresolve, node, reference, hnames, hsame, hother⟩ := exists_name_of_show
    obtain ⟨hvalues, -⟩ := uses_types_values hdisk load_stock hresolve node hnames
    have hfound := (hvalues hother).2 hdistinct
    rw [hsame] at hfound
    exact ⟨target, hresolve, hfound⟩
  · obtain ⟨target, hresolve, -, node, reference, literal, written, hnames, -, hkey, -⟩ :=
      exists_key_of_count
    obtain ⟨-, hkeys⟩ := uses_types_values hdisk load_stock hresolve node hnames
    exact ⟨target, hresolve, node, hkey, (hkeys hkey).1⟩

/-- The key of a map names a variable of the stock's type, and the type is not in the
closure. -/
theorem uses_lacks_key_type : load stockDisk "/stock" = .ok stock
    ∧ ∃ target, resolve stock "a.go" "Count" = .ok target
      ∧ (uses stock target 1).keys = []
      ∧ ∃ (node : NodeRead stock target 1) (reference : Reference) (literal : Tree.Visit)
        (written : Tree), Reference.NamesValue node.scope node.visit.tree reference
          ∧ reference.definition = .type kindDefinition ∧ IsKey node.body node.visit
          ∧ literal.tree.kind = .compositeLiteral ∧ literal.tree.part? .type = some written
          ∧ written.kind = .mapType ∧ Occurs [] node.body literal
          ∧ Occurs literal.above literal.tree node.visit :=
  ⟨load_stock, exists_key_of_count⟩

end Assay.Focal
