/-
The path that a module file gives its module. What a line of the file states is what
stands in front of its comment, without the blanks around (`Stated`); the line is a
directive when the first word that it states is `module`, and the first directive declares
the path (`Declared`). What is read is the first line that begins with the letters of the
word (`Found`), and `modules x` is such a line too.

So a module is loaded under the path that its file declares when the first line with the
letters is a directive, and under what follows the letters when it is not. A load fails for
want of a path exactly when nothing but blanks and quotes stands there, or when there is no
such line (`load_modulePath`). The import paths of the packages begin with the path of the
module in any case.
-/
import Assay.Proofs.Source.Blind
import Assay.Proofs.Text.Search

namespace Assay.Source

open Syntax Text

variable {disk : Disk} {path modulePath : String} {root : Location} {module : Module}
  {source line front statement rest operand answer : List Char}
  {listing : List (List Char)} {gives : List Char → List Char → Prop}

-- ================================================================= lines

/-- What stands in front of the comment of a line, or all of a line without one. A comment
begins at the first two slashes. -/
inductive Uncommented : (line front : List Char) → Prop where
  | free {line : List Char} (hfree : ¬ "//".toList <:+: line) : Uncommented line line
  | commented {front comment : List Char}
      (hfirst : ∀ other more, front ++ ("//".toList ++ comment) = other ++ ("//".toList ++ more) →
        front.length ≤ other.length) :
      Uncommented (front ++ ("//".toList ++ comment)) front

/-- What a line states: what stands in front of its comment, without the blanks around. -/
def Stated (line statement : List Char) : Prop :=
  ∃ front, Uncommented line front ∧ IsCore isBlank front statement

/-- The line begins with the letters of the word, and `rest` follows them. -/
def Opens (line rest : List Char) : Prop := Stated line ("module".toList ++ rest)

/-- The letters are a word of their own: nothing or a blank follows. -/
def EndsWord (rest : List Char) : Prop := ∀ c ∈ rest.head?, isBlank c = true

instance (rest : List Char) : Decidable (EndsWord rest) :=
  decidable_of_iff (rest.head?.all isBlank = true) (Option.all_eq_true _ _)

/-- The operand in what follows the letters: without the blanks and then the quotes
around. -/
def IsOperand (rest operand : List Char) : Prop :=
  ∃ bare, IsCore isBlank rest bare ∧ IsCore (· = '\x22') bare operand

/-- The line is a directive with this operand: the word is the first one of the line. -/
def Directs (line operand : List Char) : Prop :=
  ∃ rest, Opens line rest ∧ EndsWord rest ∧ IsOperand rest operand

/-- The first of some lines that gives an answer, and its answer. -/
inductive First (gives : List Char → List Char → Prop) : List (List Char) → List Char → Prop where
  | here {line answer : List Char} (hline : gives line answer) (later : List (List Char)) :
      First gives (line :: later) answer
  | later {line answer : List Char} {later : List (List Char)}
      (hnone : ∀ other, ¬ gives line other) (hlater : First gives later answer) :
      First gives (line :: later) answer

/-- The path that a module file declares: the operand of its first directive, unless that
is empty. -/
def Declared (source : List Char) (modulePath : String) : Prop :=
  modulePath ≠ "" ∧ First Directs (lines source) modulePath.toList

/-- The path that is found in a module file: the operand in what follows the letters of the
word where they first begin a line, unless that is empty. -/
def Found (source : List Char) (modulePath : String) : Prop :=
  modulePath ≠ "" ∧ ∃ rest, First Opens (lines source) rest ∧ IsOperand rest modulePath.toList

-- =============================================================== reading

theorem uncommented_iff :
    Uncommented line front ↔ ((splitOnce? "//".toList line).map (·.1)).getD line = front := by
  have hsome : "//".toList ≠ [] := by decide
  constructor
  · rintro (hfree | hfirst)
    · rw [← occurs_iff, occurs, Bool.not_eq_true, Option.isSome_eq_false_iff,
        Option.isNone_iff_eq_none] at hfree
      rw [hfree]
      rfl
    · rw [(splitOnce?_eq_some_iff hsome).mpr ⟨rfl, hfirst⟩]
      rfl
  · cases hsplit : splitOnce? "//".toList line with
    | none =>
        rintro rfl
        refine .free fun hin => ?_
        rw [← occurs_iff, occurs, hsplit] at hin
        cases hin
    | some parts =>
        rintro rfl
        obtain ⟨hline, hfirst⟩ := (splitOnce?_eq_some_iff hsome).mp hsplit
        subst hline
        exact .commented hfirst

/-- A line without its comment and the blanks around, as the reading takes it. -/
def statementOf (line : List Char) : List Char :=
  trim (((splitOnce? "//".toList line).map (·.1)).getD line)

theorem stated_iff : Stated line statement ↔ statementOf line = statement := by
  simp only [Stated, uncommented_iff, ← strip_eq_iff, exists_eq_left']
  rfl

theorem opens_iff : Opens line rest ↔ after? "module".toList (statementOf line) = some rest := by
  rw [Opens, stated_iff, after?_eq_some_iff]

/-- What follows the letters, without the blanks and then the quotes around. -/
def operandOf (rest : List Char) : List Char := strip (· = '\x22') (trim rest)

theorem isOperand_iff : IsOperand rest operand ↔ operandOf rest = operand := by
  simp only [IsOperand, ← strip_eq_iff, exists_eq_left']
  rfl

/-- The operand of a line that is a directive. -/
def operand? (line : List Char) : Option (List Char) :=
  ((after? "module".toList (statementOf line)).filter (EndsWord ·)).map operandOf

theorem directs_iff : Directs line operand ↔ operand? line = some operand := by
  simp only [Directs, operand?, Option.map_eq_some_iff, Option.filter_eq_some_iff, opens_iff,
    isOperand_iff, decide_eq_true_eq, and_assoc]

/-- A search through lines ends at the first that gives an answer. -/
theorem first_iff {search : List Char → Option (List Char)}
    (hgives : ∀ line answer, gives line answer ↔ search line = some answer) :
    First gives listing answer ↔ listing.findSome? search = some answer := by
  constructor
  · intro hfirst
    induction hfirst with
    | here hline later => rw [List.findSome?_cons, (hgives _ _).mp hline]
    | @later line answer later hnone hlater ih =>
        have hline : search line = none :=
          Option.eq_none_iff_forall_ne_some.mpr fun other hother =>
            hnone other ((hgives _ _).mpr hother)
        rw [List.findSome?_cons, hline, ih]
  · intro hfound
    induction listing with
    | nil => cases hfound
    | cons line later ih =>
        rw [List.findSome?_cons] at hfound
        cases hline : search line with
        | some other =>
            rw [hline] at hfound
            obtain rfl := Option.some.inj hfound
            exact .here ((hgives _ _).mpr hline) later
        | none =>
            rw [hline] at hfound
            refine .later (fun other hother => ?_) (ih hfound)
            rw [(hgives _ _).mp hother] at hline
            cases hline

theorem first_opens_iff : First Opens listing rest ↔
    listing.findSome? (fun line => after? "module".toList (statementOf line)) = some rest :=
  first_iff fun _ _ => opens_iff

theorem first_directs_iff :
    First Directs listing operand ↔ listing.findSome? operand? = some operand :=
  first_iff fun _ _ => directs_iff

instance (source : List Char) (modulePath : String) : Decidable (Declared source modulePath) :=
  decidable_of_iff (modulePath ≠ "" ∧ (lines source).findSome? operand? = some modulePath.toList)
    (and_congr_right' first_directs_iff).symm

theorem First.opens_unique (hfirst : First Opens listing rest)
    (hother : First Opens listing answer) : rest = answer :=
  Option.some.inj ((first_opens_iff.mp hfirst).symm.trans (first_opens_iff.mp hother))

theorem First.directs_unique (hfirst : First Directs listing operand)
    (hother : First Directs listing answer) : operand = answer :=
  Option.some.inj ((first_directs_iff.mp hfirst).symm.trans (first_directs_iff.mp hother))

/-- What is read of a module file is the path that is found in it. -/
theorem modulePath?_eq_some_iff :
    modulePath? source = some modulePath ↔ Found source modulePath := by
  have hread : modulePath? source = ((lines source).findSome? fun line =>
      after? "module".toList (statementOf line)).bind fun rest =>
        if (operandOf rest).isEmpty then none else some (String.ofList (operandOf rest)) := by
    rw [← Function.comp_def (after? "module".toList), ← List.findSome?_map]
    rfl
  rw [hread, Option.bind_eq_some_iff, Found, ← exists_and_left]
  refine exists_congr fun rest => ?_
  rw [← first_opens_iff, isOperand_iff, and_left_comm]
  refine and_congr_right' ?_
  constructor
  · intro hanswer
    split at hanswer
    · cases hanswer
    · next hsome =>
        obtain rfl := Option.some.inj hanswer
        refine ⟨fun hempty => hsome ?_, String.toList_ofList.symm⟩
        rw [String.ofList_eq_empty_iff] at hempty
        rw [hempty]
        rfl
  · rintro ⟨hsome, hoperand⟩
    rw [hoperand, if_neg, String.ofList_toList]
    rwa [List.isEmpty_iff, String.toList_eq_nil_iff]

-- ==================================================== found and declared

/-- A directive begins with the letters, so where there is one, some line is the first
with them. -/
theorem First.exists_opens (hfirst : First Directs listing operand) :
    ∃ rest, First Opens listing rest := by
  induction hfirst with
  | here hline later =>
      obtain ⟨rest, hopens, -⟩ := hline
      exact ⟨rest, .here hopens later⟩
  | @later line operand later hnone hlater ih =>
      by_cases hline : ∃ rest, Opens line rest
      · obtain ⟨rest, hopens⟩ := hline
        exact ⟨rest, .here hopens later⟩
      · obtain ⟨rest, hrest⟩ := ih
        exact ⟨rest, .later (fun other hother => hline ⟨other, hother⟩) hrest⟩

/-- When the first line with the letters is a directive, it is the first directive. -/
theorem First.directs (hfirst : First Opens listing rest) (hends : EndsWord rest)
    (hoperand : IsOperand rest operand) : First Directs listing operand := by
  induction hfirst with
  | here hline later => exact .here ⟨_, hline, hends, hoperand⟩ later
  | later hnone hlater ih =>
      refine .later ?_ (ih hends hoperand)
      rintro other ⟨rest, hopens, -⟩
      exact hnone rest hopens

theorem First.found_iff (hfirst : First Opens (lines source) rest) :
    Found source modulePath ↔ modulePath ≠ "" ∧ IsOperand rest modulePath.toList := by
  refine and_congr_right' ⟨?_, fun hoperand => ⟨rest, hfirst, hoperand⟩⟩
  rintro ⟨other, hother, hoperand⟩
  rwa [hfirst.opens_unique hother]

/-- Where the first line with the letters is a directive, what is found is what is
declared. -/
theorem found_iff_declared (hword : ∀ rest, First Opens (lines source) rest → EndsWord rest) :
    Found source modulePath ↔ Declared source modulePath := by
  by_cases hopens : ∃ rest, First Opens (lines source) rest
  · obtain ⟨rest, hfirst⟩ := hopens
    have hends := hword rest hfirst
    rw [hfirst.found_iff]
    refine and_congr_right' ⟨hfirst.directs hends, fun hdirects => ?_⟩
    have hown := hfirst.directs hends (isOperand_iff.mpr rfl)
    exact isOperand_iff.mpr (hown.directs_unique hdirects)
  · refine iff_of_false ?_ ?_
    · rintro ⟨-, rest, hfirst, -⟩
      exact hopens ⟨rest, hfirst⟩
    · rintro ⟨-, hfirst⟩
      exact hopens hfirst.exists_opens

-- =============================================================== loading

/-- A module is loaded under the path that its module file gives, and fails to be loaded
for want of a path exactly when none is given. The import path of each package is this path
with the names that lead from the root to the directory of the package. -/
structure LoadsUnder (disk : Disk) (path : String) (root : Location) (given : String → Prop) :
    Prop where
  given_path : ∀ module, load disk path = .ok module → given module.path
  missing_iff : ∀ place, load disk path = .error (.noModulePath place)
    ↔ place = Disk.pathOf root ∧ ∀ modulePath, ¬ given modulePath
  exists_module : ∀ modulePath, given modulePath →
    ∀ sources, (goFiles disk root).mapM (readSource disk) = .ok sources →
      (∀ file ∈ sources, (parse? file.2).isSome) →
      ∃ module, load disk path = .ok module ∧ module.path = modulePath
  exists_names : ∀ module, load disk path = .ok module → ∀ package ∈ module.allPackages,
    ∃ names, package.directory = Disk.pathOf (root ++ names)
      ∧ package.id = "/".intercalate (module.path :: names)

section Loading

variable (hlocate : disk.locate path = .ok root)
  (hread : disk.readText (Path.push (Disk.pathOf root) moduleFileName) = .ok source)

section Reading

include hread

/-- When the text of the module file is there, it is the text that decides. -/
theorem readModulePath_eq : readModulePath disk (Disk.pathOf root)
    = (modulePath? source).elim (.error (.noModulePath (Disk.pathOf root))) .ok := by
  unfold readModulePath
  dsimp only
  rw [hread]
  dsimp only
  cases modulePath? source <;> rfl

theorem readModulePath_eq_ok_iff :
    readModulePath disk (Disk.pathOf root) = .ok modulePath ↔ Found source modulePath := by
  rw [readModulePath_eq hread, ← modulePath?_eq_some_iff]
  cases modulePath? source <;> simp

theorem readModulePath_of_not_found (hnone : ∀ modulePath, ¬ Found source modulePath) :
    readModulePath disk (Disk.pathOf root) = .error (.noModulePath (Disk.pathOf root)) := by
  have hsource : modulePath? source = none :=
    Option.eq_none_iff_forall_ne_some.mpr fun modulePath hfound =>
      hnone modulePath (modulePath?_eq_some_iff.mp hfound)
  rw [readModulePath_eq hread, hsource]
  rfl

end Reading

include hlocate

/-- Once the path is read, what can go wrong are the files. -/
theorem load_ne_noModulePath (hpath : readModulePath disk (Disk.pathOf root) = .ok modulePath)
    (place : String) : load disk path ≠ .error (.noModulePath place) := by
  cases hsources : (goFiles disk root).mapM (readSource disk) with
  | ok sources =>
      rw [load_of_sources hlocate hpath hsources]
      split <;> exact nofun
  | error fault =>
      obtain ⟨location, -, hfault⟩ := exists_of_mapM_error hsources
      rw [load_of_sources_error hlocate hpath hsources]
      unfold readSource at hfault
      split at hfault
      · cases hfault
      · obtain rfl := Except.error.inj hfault
        exact nofun

/-- The packages of a module have import paths that begin with its own. -/
theorem exists_names_of_load (hload : load disk path = .ok module) {package : Package}
    (hpackage : package ∈ module.allPackages) :
    ∃ names, package.directory = Disk.pathOf (root ++ names)
      ∧ package.id = "/".intercalate (module.path :: names) := by
  obtain ⟨location, modulePath, sources, hplace, -, hsources, -, rfl⟩ := load_eq_ok_iff.mp hload
  obtain rfl := Except.ok.inj (hlocate.symm.trans hplace)
  obtain ⟨entry, hentry, rfl⟩ := List.mem_map.mp hpackage
  obtain ⟨directory, hdirectory, hpackage, -⟩ := mem_entries_moduleOf hentry
  refine ⟨directory.drop root.length, ?_, by rw [hpackage]; rfl⟩
  rw [(walked_of_mapM hsources).append_drop hdirectory, hpackage]
  rfl

include hread

/-- A module is loaded under the path that is found in its file. -/
theorem loadsUnder_found : LoadsUnder disk path root (Found source) := by
  refine ⟨fun module hload => ?_, fun place => ?_,
    fun modulePath hfound sources hsources hall => ?_,
    fun module hload package => exists_names_of_load hlocate hload⟩
  · obtain ⟨location, modulePath, sources, hplace, hpath, -, -, rfl⟩ := load_eq_ok_iff.mp hload
    obtain rfl := Except.ok.inj (hlocate.symm.trans hplace)
    exact (readModulePath_eq_ok_iff hread).mp hpath
  · by_cases hsome : ∃ modulePath, Found source modulePath
    · obtain ⟨modulePath, hfound⟩ := hsome
      have hpath := (readModulePath_eq_ok_iff hread).mpr hfound
      refine iff_of_false (load_ne_noModulePath hlocate hpath place) ?_
      exact fun hnone => hnone.2 modulePath hfound
    · have hnone := not_exists.mp hsome
      rw [load_of_path_error hlocate (readModulePath_of_not_found hread hnone), and_iff_left hnone]
      simp [eq_comm]
  · have hpath := (readModulePath_eq_ok_iff hread).mpr hfound
    exact ⟨_, by rw [load_of_sources hlocate hpath hsources, if_pos hall], rfl⟩

end Loading

/-- When the first line that begins with the letters of the word is a directive, or there is
no such line, a module is loaded under the path that its file declares, and the load fails for
want of a path exactly when none is declared. When that line is no directive, the operand in
what follows the letters on it takes the place of the declared path. -/
theorem load_modulePath (hlocate : disk.locate path = .ok root)
    (hread : disk.readText (Path.push (Disk.pathOf root) moduleFileName) = .ok source) :
    ((∀ rest, First Opens (lines source) rest → EndsWord rest) →
      LoadsUnder disk path root (Declared source))
    ∧ ∀ rest, First Opens (lines source) rest → ¬ EndsWord rest →
      LoadsUnder disk path root fun modulePath =>
        modulePath ≠ "" ∧ IsOperand rest modulePath.toList := by
  have hload := loadsUnder_found hlocate hread
  constructor
  · intro hword
    have hsame : Found source = Declared source :=
      funext fun modulePath => propext (found_iff_declared hword)
    rwa [← hsame]
  · intro rest hfirst hends
    have hsame : Found source = fun modulePath =>
        modulePath ≠ "" ∧ IsOperand rest modulePath.toList :=
      funext fun modulePath => propext hfirst.found_iff
    rwa [← hsame]

/-- A module of two packages, one in its own directory and one below, under a module file
with this text. -/
def kioskDisk (moduleFile : List Char) : Disk where
  entries := [(["kiosk"], .directory),
    (["kiosk", "go.mod"], .file (.text moduleFile)),
    (["kiosk", "kiosk.go"], .file (.text "package kiosk\n".toList)),
    (["kiosk", "press"], .directory),
    (["kiosk", "press", "press.go"], .file (.text "package press\n".toList))]

/-- The module, loaded under a path. -/
def kiosk (moduleFile : List Char) (modulePath : String) : Module :=
  moduleOf (kioskDisk moduleFile) ["kiosk"] modulePath
    ([(["kiosk", "kiosk.go"], "package kiosk\n".toList),
      (["kiosk", "press", "press.go"], "package press\n".toList)].filterMap parsedFile?)

/-- A comment, a directive between blanks and in quotes with a comment behind it, and
another directive. -/
def kioskText : List Char :=
  "// module a\r\n\tmodule \"example.com/kiosk\" // here\r\nmodule b\n".toList

/-- A line that begins like a directive, and a directive. -/
def listText : List Char := "modules a b\nmodule example.com/kiosk\n".toList

/-- A line that begins like a directive, and no directive. -/
def oddText : List Char := "modulex example.com/kiosk\n".toList

/-- The path of one module file is the one that it declares, and that of another is what
follows the letters where they are no word. -/
theorem load_modulePath_kiosk :
    (load (kioskDisk kioskText) "/kiosk" = .ok (kiosk kioskText "example.com/kiosk")
      ∧ (kiosk kioskText "example.com/kiosk").allPackages.map (·.id)
        = ["example.com/kiosk", "example.com/kiosk/press"]
      ∧ Declared kioskText "example.com/kiosk"
      ∧ LoadsUnder (kioskDisk kioskText) "/kiosk" ["kiosk"] (Declared kioskText))
    ∧ ¬ EndsWord "s a b".toList
      ∧ LoadsUnder (kioskDisk listText) "/kiosk" ["kiosk"] fun modulePath =>
        modulePath ≠ "" ∧ IsOperand "s a b".toList modulePath.toList := by
  have hlocate (text : List Char) : (kioskDisk text).locate "/kiosk" = .ok ["kiosk"] := rfl
  have hread (text : List Char) :
      (kioskDisk text).readText (Path.push (Disk.pathOf ["kiosk"]) moduleFileName) = .ok text := rfl
  obtain ⟨hkiosk, -⟩ := load_modulePath (hlocate kioskText) (hread kioskText)
  obtain ⟨-, hlist⟩ := load_modulePath (hlocate listText) (hread listText)
  have hends : ¬ EndsWord "s a b".toList := by decide +kernel
  refine ⟨⟨?_, by decide +kernel, by decide +kernel, hkiosk fun rest hfirst => ?_⟩, hends,
    hlist _ (first_opens_iff.mpr (by decide +kernel)) hends⟩
  · refine load_of_ordered ?_ ?_ ?_ ?_ ?_ <;> decide +kernel
  · have hown : First Opens (lines kioskText) " \"example.com/kiosk\"".toList :=
      first_opens_iff.mpr (by decide +kernel)
    rw [hfirst.opens_unique hown]
    decide +kernel

/-- The letters give a path where another is declared, and where none is. -/
theorem load_takes_letters :
    (load (kioskDisk listText) "/kiosk" = .ok (kiosk listText "s a b")
      ∧ (kiosk listText "s a b").allPackages.map (·.id) = ["s a b", "s a b/press"]
      ∧ Declared listText "example.com/kiosk" ∧ ¬ Declared listText "s a b")
    ∧ load (kioskDisk oddText) "/kiosk" = .ok (kiosk oddText "x example.com/kiosk")
      ∧ ∀ modulePath, ¬ Declared oddText modulePath := by
  refine ⟨⟨?_, by decide +kernel, by decide +kernel, by decide +kernel⟩, ?_, ?_⟩
  · refine load_of_ordered ?_ ?_ ?_ ?_ ?_ <;> decide +kernel
  · refine load_of_ordered ?_ ?_ ?_ ?_ ?_ <;> decide +kernel
  · rintro modulePath ⟨-, hfirst⟩
    have hnone : (lines oddText).findSome? operand? = none := by decide +kernel
    rw [first_directs_iff, hnone] at hfirst
    cases hfirst

end Assay.Source
