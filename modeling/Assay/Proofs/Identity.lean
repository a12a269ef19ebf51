/-
When two declarations bear one name. A qualified name is put together with
dots, and the name of the declaration is what comes after the last of them; so
names can only meet in what comes before, the scope of the declaration. A
package's import path may hold dots of its own, and then the scope of a method,
its package and its type, can read like the import path of another package.

That is the only way for names to meet: the laws below are equivalences, for
whatever import paths there are.
-/
import Assay.Focal.Usage
import Assay.Proofs.Source.Load
import Assay.Proofs.Text.Search

namespace Assay

-- ================================================================= words

/-- Text without the signs that a qualified name is put together with. -/
def IsWord (text : String) : Prop := ∀ c ∈ text.toList, c ≠ '.' ∧ c ≠ '('

instance (text : String) : Decidable (IsWord text) :=
  decidable_of_iff ((text.toList.all fun c => c != '.' && c != '(') = true) (by simp [IsWord])

/-- Every identifier is a word. -/
theorem isWord_of_isIdentifierPart {text : String}
    (hpart : ∀ c ∈ text.toList, Text.isIdentifierPart c = true) : IsWord text := by
  intro c hc
  have hc := hpart c hc
  constructor
  · rintro rfl
    revert hc
    decide
  · rintro rfl
    revert hc
    decide

theorem dotted_inj {p q m n : String} (hm : '.' ∉ m.toList) (hn : '.' ∉ n.toList) :
    p ++ "." ++ m = q ++ "." ++ n ↔ p = q ∧ m = n := by
  simp only [← String.toList_inj, String.toList_append]
  rw [List.append_assoc, List.append_assoc]
  exact Text.append_sign_inj hm hn

theorem dot_notMem_of_isWord {text : String} (hword : IsWord text) : '.' ∉ text.toList :=
  fun hmem => (hword '.' hmem).1 rfl

-- ============================================================= receivers

namespace Receiver

variable {r s : Receiver}

/-- The receivers are spelled alike: the same type, and both pointers or
neither. -/
def Alike (r s : Receiver) : Prop :=
  r.typeName = s.typeName ∧ (r.kind = .pointer ↔ s.kind = .pointer)

theorem qualifier_of_pointer (hkind : r.kind = .pointer) :
    r.qualifier = "(*" ++ r.typeName ++ ")" := by
  rw [qualifier, hkind]

theorem qualifier_of_ne_pointer (hkind : r.kind ≠ .pointer) : r.qualifier = r.typeName := by
  rw [qualifier]
  cases hr : r.kind with
  | pointer => exact absurd hr hkind
  | value => rfl
  | interface => rfl

/-- A qualifier holds no dot. -/
theorem dot_notMem_qualifier (hr : IsWord r.typeName) : '.' ∉ r.qualifier.toList := by
  by_cases hkind : r.kind = .pointer
  · rw [qualifier_of_pointer hkind]
    simpa using dot_notMem_of_isWord hr
  · rw [qualifier_of_ne_pointer hkind]
    exact dot_notMem_of_isWord hr

/-- No word is spelled like a pointer. -/
theorem word_ne_pointer {word name : String} (hword : IsWord word) :
    word ≠ "(*" ++ name ++ ")" := by
  rintro rfl
  exact (hword '(' (by simp)).2 rfl

theorem Alike.qualifier_eq (alike : r.Alike s) : r.qualifier = s.qualifier := by
  obtain ⟨hname, hkinds⟩ := alike
  by_cases hkind : r.kind = .pointer
  · rw [qualifier_of_pointer hkind, qualifier_of_pointer (hkinds.mp hkind), hname]
  · rw [qualifier_of_ne_pointer hkind, qualifier_of_ne_pointer (mt hkinds.mpr hkind), hname]

theorem qualifier_eq_iff (hr : IsWord r.typeName) (hs : IsWord s.typeName) :
    r.qualifier = s.qualifier ↔ r.Alike s := by
  unfold Alike
  by_cases hrkind : r.kind = .pointer <;> by_cases hskind : s.kind = .pointer
  · rw [qualifier_of_pointer hrkind, qualifier_of_pointer hskind]
    simp [← String.toList_inj, hrkind, hskind]
  · rw [qualifier_of_pointer hrkind, qualifier_of_ne_pointer hskind]
    simp [hrkind, hskind, (word_ne_pointer hs).symm]
  · rw [qualifier_of_ne_pointer hrkind, qualifier_of_pointer hskind]
    simp [hrkind, hskind, word_ne_pointer hr]
  · rw [qualifier_of_ne_pointer hrkind, qualifier_of_ne_pointer hskind]
    simp [hrkind, hskind]

end Receiver

-- ================================================================ scopes

namespace QualifiedName

variable {p q m n : String} {r s : Option Receiver}

/-- What stands before the name of a function: its package, and the type it is
declared on. -/
def scope (package : String) : Option Receiver → String
  | none => package
  | some receiver => package ++ "." ++ receiver.qualifier

theorem ofFunction_eq (package : String) (receiver : Option Receiver) (name : String) :
    ofFunction package receiver name = ofType (scope package receiver) name := by
  cases receiver <;> rfl

/-- The import path `q` reads like a type with methods in the package `p`. -/
def ReadsLike (q p : String) (r : Option Receiver) : Prop :=
  ∃ receiver, r = some receiver ∧ q = p ++ "." ++ receiver.qualifier

theorem not_readsLike_none : ¬ ReadsLike q p none := by
  rintro ⟨receiver, hnone, -⟩
  cases hnone

theorem readsLike_some {receiver : Receiver} :
    ReadsLike q p (some receiver) ↔ q = p ++ "." ++ receiver.qualifier := by
  constructor
  · rintro ⟨other, hsome, rfl⟩
    rw [Option.some.inj hsome]
  · exact fun h => ⟨receiver, rfl, h⟩

/-- Scopes agree when package and receiver do, or when one of them is a package
that reads like the other. -/
theorem scope_eq_iff (hr : ∀ receiver, r = some receiver → IsWord receiver.typeName)
    (hs : ∀ receiver, s = some receiver → IsWord receiver.typeName) :
    scope p r = scope q s ↔ p = q ∧ Option.Rel Receiver.Alike r s
      ∨ r = none ∧ ReadsLike p q s ∨ s = none ∧ ReadsLike q p r := by
  cases r with
  | none =>
      cases s with
      | none =>
          have hrel : Option.Rel Receiver.Alike none none := .none
          simp [scope, hrel, not_readsLike_none]
      | some b =>
          have hrel : ¬ Option.Rel Receiver.Alike none (some b) := nofun
          simp [scope, hrel, readsLike_some]
  | some a =>
      cases s with
      | none =>
          have hrel : ¬ Option.Rel Receiver.Alike (some a) none := nofun
          simp [scope, hrel, readsLike_some, eq_comm]
      | some b =>
          have ha := hr a rfl
          have hb := hs b rfl
          show p ++ "." ++ a.qualifier = q ++ "." ++ b.qualifier ↔ _
          rw [dotted_inj (Receiver.dot_notMem_qualifier ha) (Receiver.dot_notMem_qualifier hb),
            Receiver.qualifier_eq_iff ha hb]
          simp

theorem ofType_eq_iff (hm : IsWord m) (hn : IsWord n) :
    ofType p m = ofType q n ↔ p = q ∧ m = n := by
  unfold ofType
  rw [QualifiedName.mk.injEq, dotted_inj (dot_notMem_of_isWord hm) (dot_notMem_of_isWord hn)]

/-- Two declarations bear one qualified name exactly when they have the same
name in the same scope, where the import path of a package may read like a type
of another. -/
theorem sameName_iff (hm : IsWord m) (hn : IsWord n)
    (hr : ∀ receiver, r = some receiver → IsWord receiver.typeName)
    (hs : ∀ receiver, s = some receiver → IsWord receiver.typeName) :
    (ofFunction p r m = ofFunction q s n ↔ m = n ∧ (p = q ∧ Option.Rel Receiver.Alike r s
        ∨ r = none ∧ ReadsLike p q s ∨ s = none ∧ ReadsLike q p r))
      ∧ (ofType p m = ofType q n ↔ p = q ∧ m = n)
      ∧ (ofType p m = ofFunction q s n ↔ m = n ∧ (p = q ∧ s = none ∨ ReadsLike p q s)) := by
  refine ⟨?_, ofType_eq_iff hm hn, ?_⟩
  · rw [ofFunction_eq, ofFunction_eq, ofType_eq_iff hm hn, scope_eq_iff hr hs]
    exact and_comm
  · rw [ofFunction_eq, ofType_eq_iff hm hn, and_comm]
    cases s with
    | none => simp [scope, not_readsLike_none]
    | some b => simp [scope, readsLike_some]

/-- The method `Open` of the type `V2`, and the function `Open` of a package
whose directory is called `store.V2`. -/
theorem sameName_openStore : IsWord "Open" ∧ IsWord "V2"
    ∧ ofFunction "example.com/shop/store" (some ⟨"V2", .value⟩) "Open"
      = ofFunction "example.com/shop/store.V2" none "Open" := by
  have hopen : IsWord "Open" :=
    isWord_of_isIdentifierPart (List.all_eq_true.mp (by decide +kernel))
  have htype : IsWord "V2" := isWord_of_isIdentifierPart (List.all_eq_true.mp (by decide +kernel))
  refine ⟨hopen, htype, (sameName_iff hopen hopen ?_ ?_).1.mpr ⟨rfl, .inr (.inr ⟨rfl, _, rfl, rfl⟩)⟩⟩
  · rintro receiver hsome
    obtain rfl := Option.some.inj hsome
    exact htype
  · exact nofun

end QualifiedName

-- ============================================================== a clash

namespace Source

open Focal Syntax

/-- A shop that imports the package `store`, and another package from the
directory `store.V2`. -/
def shopText : List Char :=
  ("package shop\n\nimport (\n\t\"example.com/shop/store\"\n"
    ++ "\tnext \"example.com/shop/store.V2\"\n)\n\n"
    ++ "func Use(s store.V2) int \x7b return s.Open() + next.Open() \x7d\n").toList

/-- The package `store`. -/
def storeText : List Char :=
  ("package store\n\ntype V2 struct\x7b\x7d\n\n"
    ++ "func (V2) Open() int \x7b return 1 \x7d\n").toList

/-- The package in the directory `store.V2`. -/
def nextText : List Char := "package store\n\nfunc Open() int \x7b return 2 \x7d\n".toList

/-- The disk with the shop on it. -/
def shopDisk : Disk where
  entries := [(["shop"], .directory),
    (["shop", "go.mod"], .file (.text "module example.com/shop\n".toList)),
    (["shop", "shop.go"], .file (.text shopText)),
    (["shop", "store"], .directory), (["shop", "store", "store.go"], .file (.text storeText)),
    (["shop", "store.V2"], .directory), (["shop", "store.V2", "store.go"], .file (.text nextText))]

/-- The shop, loaded. -/
def shop : Module :=
  moduleOf shopDisk ["shop"] "example.com/shop" ([(["shop", "shop.go"], shopText),
    (["shop", "store", "store.go"], storeText),
    (["shop", "store.V2", "store.go"], nextText)].filterMap parsedFile?)

/-- A function calls `Open` of two packages, under one name, and only the later of
the two is left in what it uses. -/
theorem uses_loses_method : load shopDisk "/shop" = .ok shop
    ∧ (resolve shop "shop.go" "Use").toOption.map (fun target =>
        ((Reference.inBody shop target.declaration).map fun reference =>
            (reference.definition.package.id, reference.definition.id.text),
          (uses shop target 1).values.map fun definition =>
            (definition.package.id, definition.id.text)))
      = some (
        [("example.com/shop/store", "example.com/shop/store.V2.Open"),
          ("example.com/shop/store", "example.com/shop/store.V2"),
          ("example.com/shop/store.V2", "example.com/shop/store.V2.Open")],
        [("example.com/shop/store", "example.com/shop/store.V2"),
          ("example.com/shop/store.V2", "example.com/shop/store.V2.Open")]) := by
  rw [shop, shopDisk, show nextText = _ from String.toList_ofList,
    show storeText = _ from Text.toList_append_literal String.toList_ofList,
    show shopText = _ from
      Text.toList_append_literal (Text.toList_append_literal String.toList_ofList)]
  refine ⟨load_of_ordered ?_ ?_ ?_ ?_ ?_, ?_⟩ <;> decide +kernel

end Source

end Assay
