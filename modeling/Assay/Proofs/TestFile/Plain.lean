/-
Declarations that stand in two texts, and tests that a later save takes out whole.

What is asked of a declaration to judge whether it makes way has the same answers in
every text that holds it (`Alike`), so a test's own source settles which of its
declarations make way once they are saved. A test is plain when each of them does, and
its comments stand directly above what they are about (`isPlain`): the comments go with
the declaration below them, so every row goes that one of the nodes meets
(`goes_of_plain`).
-/
import Assay.Proofs.Syntax.Faults
import Assay.Proofs.TestFile.Removal

namespace Assay.TestFile

open Syntax Text

variable {source source' : List Char} {declared : Declared} {node node' : Tree}
  {nodes nodes' : List Tree}

/-- What stands at the top level of a source that parses. -/
def topNodes (source : List Char) : List Tree := ((parse? source).map (·.namedChildren)).getD []

theorem topNodes_eq {tree : Tree} (hparse : parse? source = some tree) :
    topNodes source = tree.namedChildren := by
  rw [topNodes, hparse]
  rfl

-- ================================================================ alike

/-- Two nodes, each in a source of its own, are one declaration: all that is asked of a
declaration to judge whether it makes way has the same answer for both. -/
structure Alike (source source' : List Char) (node node' : Tree) : Prop where
  kind : node'.kind = node.kind
  names : declaredNames source' node' = declaredNames source node
  method : methodKey? source' node' = methodKey? source node
  single : (specs node').length = (specs node).length
  takes : takesTestingT source' node' = takesTestingT source node

instance (source source' : List Char) (node node' : Tree) :
    Decidable (Alike source source' node node') :=
  decidable_of_iff (node'.kind = node.kind
      ∧ declaredNames source' node' = declaredNames source node
      ∧ methodKey? source' node' = methodKey? source node
      ∧ (specs node').length = (specs node).length
      ∧ takesTestingT source' node' = takesTestingT source node)
    ⟨fun ⟨hkind, hnames, hmethod, hsingle, htakes⟩ => ⟨hkind, hnames, hmethod, hsingle, htakes⟩,
      fun alike => ⟨alike.kind, alike.names, alike.method, alike.single, alike.takes⟩⟩

theorem Alike.isStale_eq (alike : Alike source source' node node') (declared : Declared) :
    isStale source' declared node' = isStale source declared node := by
  unfold isStale
  rw [alike.kind, alike.names, alike.method, alike.single, alike.takes]

/-- One declaration in two sources, at the same place of a text that both hold: `size`
characters of it, from `first` on in the one source and from `first'` on in the
other. -/
structure Relocated (source source' : List Char) (first first' size : Nat)
    (node node' : Tree) : Prop extends Alike source source' node node' where
  begins : first ≤ node.start
  ends : node.stop ≤ first + size
  start : node'.start + first = node.start + first'
  stop : node'.stop + first = node.stop + first'

instance (source source' : List Char) (first first' size : Nat) (node node' : Tree) :
    Decidable (Relocated source source' first first' size node node') :=
  decidable_of_iff (Alike source source' node node' ∧ first ≤ node.start
      ∧ node.stop ≤ first + size ∧ node'.start + first = node.start + first'
      ∧ node'.stop + first = node.stop + first')
    ⟨fun ⟨alike, hbegins, hends, hstart, hstop⟩ => ⟨alike, hbegins, hends, hstart, hstop⟩,
      fun moved => ⟨moved.toAlike, moved.begins, moved.ends, moved.start, moved.stop⟩⟩

/-- Rows within a text that two sources hold are as far apart in the one as in the
other. -/
theorem rowOf_relocated {first first' size n : Nat}
    (hsame : (source.drop first).take size = (source'.drop first').take size) (hn : n ≤ size) :
    rowOf source' (first' + n) + rowOf source first
      = rowOf source (first + n) + rowOf source' first' := by
  have hfront : (source.drop first).take n = (source'.drop first').take n := by
    have htake := congrArg (List.take n) hsame
    rwa [List.take_take, List.take_take, Nat.min_eq_left hn] at htake
  rw [rowOf_add, rowOf_add, hfront]
  omega

namespace Relocated

variable {first first' size : Nat}

/-- A node begins and ends so many rows further down. -/
theorem rows (moved : Relocated source source' first first' size node node')
    (hsame : (source.drop first).take size = (source'.drop first').take size)
    (hproper : node.start ≤ node.stop) :
    rowOf source' node'.start + rowOf source first = rowOf source node.start + rowOf source' first'
      ∧ rowOf source' node'.stop + rowOf source first
        = rowOf source node.stop + rowOf source' first' := by
  have hbegins := moved.begins
  have hends := moved.ends
  have hstart := moved.start
  have hstop := moved.stop
  have hrow := rowOf_relocated hsame (show node.start - first ≤ size by omega)
  have hrow' := rowOf_relocated hsame (show node.stop - first ≤ size by omega)
  rw [Nat.add_sub_of_le hbegins, show first' + (node.start - first) = node'.start by omega] at hrow
  rw [Nat.add_sub_of_le (by omega),
    show first' + (node.stop - first) = node'.stop by omega] at hrow'
  exact ⟨hrow, hrow'⟩

/-- A row that meets the node in the one source meets it in the other, so many rows
further down. -/
theorem meets (moved : Relocated source source' first first' size node node')
    (hsame : (source.drop first).take size = (source'.drop first').take size)
    (hproper : node.start ≤ node.stop) {n : Nat} (hn : n ≤ size)
    (hmeets : Meets source (rowOf source (first + n)) node) :
    Meets source' (rowOf source' (first' + n)) node' := by
  obtain ⟨hstart, hstop⟩ := moved.rows hsame hproper
  have hrow := rowOf_relocated hsame hn
  obtain ⟨hfirst, hlast⟩ := hmeets
  exact ⟨by omega, by omega⟩

end Relocated

-- ================================================================ plain

/-- Each of the nodes is a declaration that is asked for, or a comment directly above
the next node. -/
def isPlain (source : List Char) (asked : Tree → Bool) : List Tree → Bool
  | [] => true
  | node :: nodes =>
    (asked node || node.kind == .comment
      && nodes.head?.map (rowOf source ·.start) == some (rowOf source node.stop + 1))
    && isPlain source asked nodes

theorem isPlain_cons_iff {asked : Tree → Bool} : isPlain source asked (node :: nodes) = true
    ↔ (asked node = true ∨ node.kind = .comment
        ∧ nodes.head?.map (rowOf source ·.start) = some (rowOf source node.stop + 1))
      ∧ isPlain source asked nodes = true := by
  simp only [isPlain, Bool.and_eq_true, Bool.or_eq_true, beq_iff_eq]

/-- Plain nodes are plain wherever they stand. -/
theorem isPlain_relocated {asked asked' : Tree → Bool} {first first' size : Nat}
    (hplain : isPlain source asked nodes = true)
    (hsame : (source.drop first).take size = (source'.drop first').take size)
    (moved : List.Forall₂ (Relocated source source' first first' size) nodes nodes')
    (hproper : ∀ node ∈ nodes, node.start ≤ node.stop)
    (hasked : ∀ node ∈ nodes, ∀ node', Alike source source' node node' → asked node = true →
      asked' node' = true) :
    isPlain source' asked' nodes' = true := by
  induction moved with
  | nil => rfl
  | @cons node node' nodes nodes' hnode hrest ih =>
      obtain ⟨hfits, hplain⟩ := isPlain_cons_iff.mp hplain
      obtain ⟨hnodeProper, hproper⟩ := List.forall_mem_cons.mp hproper
      obtain ⟨hnodeAsked, hasked⟩ := List.forall_mem_cons.mp hasked
      refine isPlain_cons_iff.mpr
        ⟨hfits.imp (hnodeAsked node' hnode.toAlike) ?_, ih hplain hproper hasked⟩
      rintro ⟨hkind, hnext⟩
      refine ⟨hnode.kind.trans hkind, ?_⟩
      cases hrest with
      | nil => cases hnext
      | @cons next next' _ _ hnextMoved _ =>
          have hrows := (hnode.rows hsame hnodeProper).2
          have hrows' := (hnextMoved.rows hsame (hproper next List.mem_cons_self)).1
          have hrow : rowOf source next.start = rowOf source node.stop + 1 :=
            Option.some.inj hnext
          exact congrArg some (show rowOf source' next'.start = rowOf source' node'.stop + 1 by
            omega)

/-- The rows from the comments above a stale declaration to its end go. -/
theorem goes_of_between {before after : List Tree} {stale : Tree} {row : Nat}
    (placed : Placed source (before.reverse ++ stale :: after))
    (hstale : isStale source declared stale = true)
    (hfirst : rowOf source (commentsStart source stale.start before) ≤ row)
    (hlast : row ≤ rowOf source stale.stop) :
    Goes source declared (before.reverse ++ stale :: after) row := by
  by_cases habove : row < rowOf source stale.start
  · obtain ⟨comment, hrun, hmeets⟩ :=
      (exists_commentRun_iff placed.passed row).mpr ⟨hfirst, habove⟩
    rw [← List.reverse_reverse before] at hrun
    exact .comment rfl hstale hrun hmeets
  · exact .declaration rfl hstale ⟨Nat.le_of_not_lt habove, hlast⟩

/-- Where nodes that make way are plain, each of their rows goes, and so do those of the
comments above the first of them. -/
theorem goes_of_plain {before : List Tree} (placed : Placed source (before.reverse ++ nodes))
    (hplain : isPlain source (isStale source declared) nodes = true) :
    (∀ node ∈ nodes.head?, ∀ row, rowOf source (commentsStart source node.start before) ≤ row →
        row ≤ rowOf source node.stop → Goes source declared (before.reverse ++ nodes) row)
      ∧ ∀ node ∈ nodes, ∀ row, Meets source row node →
        Goes source declared (before.reverse ++ nodes) row := by
  induction nodes generalizing before with
  | nil => exact ⟨nofun, nofun⟩
  | cons node nodes ih =>
      obtain ⟨hnode, hplain⟩ := isPlain_cons_iff.mp hplain
      have hsplit : (node :: before).reverse ++ nodes = before.reverse ++ node :: nodes := by
        rw [List.reverse_cons, List.append_assoc, List.singleton_append]
      obtain ⟨hnext, hrest⟩ := ih (hsplit.symm ▸ placed) hplain
      rw [hsplit] at hnext hrest
      have hfirst : ∀ row, rowOf source (commentsStart source node.start before) ≤ row →
          row ≤ rowOf source node.stop →
          Goes source declared (before.reverse ++ node :: nodes) row := by
        intro row hfrom hupto
        obtain hstale | ⟨hkind, hrow⟩ := hnode
        · exact goes_of_between placed hstale hfrom hupto
        · -- The comment goes with what it is directly above, from the same place on.
          obtain ⟨next, hmem, hrow⟩ := Option.map_eq_some_iff.mp hrow
          have hproper := placed.proper next (by simp [List.mem_of_mem_head? hmem])
          have hrows := rowOf_mono source hproper
          refine hnext next hmem row ?_ (by omega)
          rwa [commentsStart, if_pos (by simp [hkind, hrow])]
      refine ⟨fun other hmem => Option.some.inj hmem ▸ hfirst, ?_⟩
      refine List.forall_mem_cons.mpr ⟨fun row hmeets => hfirst row ?_ hmeets.2, hrest⟩
      exact Nat.le_trans (rowOf_mono source (commentsStart_le source placed.passed)) hmeets.1

-- ============================================================= own nodes

/-- A declaration that makes way for a test that brings it along: a function, which is a
test if it has the test's name; a method; or a single specification. -/
def declaresAlone (source : List Char) (test : String) (declaration : Tree) : Bool :=
  match declaration.kind with
  | .functionDeclaration =>
    (declaredNames source declaration).any fun name =>
      name != test || takesTestingT source declaration
  | .methodDeclaration => (methodKey? source declaration).isSome
  | .typeDeclaration | .varDeclaration | .constDeclaration =>
    (specs declaration).length == 1 && !(declaredNames source declaration).isEmpty
  | _ => false

/-- What a test declares makes way for it. -/
theorem isStale_of_declaresAlone {test : GeneratedTest} {tree : Tree}
    (hparse : parse? (clauseLine ++ test.source) = some tree) (hmem : node ∈ tree.namedChildren)
    (halone : declaresAlone (clauseLine ++ test.source) test.name node = true) :
    isStale (clauseLine ++ test.source) (.ofTest test) node = true := by
  have hdeclared : Declared.ofTest test
      = .ofTree test.name (clauseLine ++ test.source) tree := by
    rw [Declared.ofTest, (mended_of_parse? hparse).2]
  have hnames : ∀ name ∈ declaredNames (clauseLine ++ test.source) node,
      (Declared.ofTest test).names.contains name = true := by
    intro name hname
    rw [hdeclared, List.contains_iff_mem]
    exact List.mem_cons_of_mem _ (List.mem_flatMap.mpr ⟨node, hmem, hname⟩)
  have hmethods (hkind : node.kind = .methodDeclaration) {key : MethodKey}
      (hkey : methodKey? (clauseLine ++ test.source) node = some key) :
      (Declared.ofTest test).methods.contains key = true := by
    rw [hdeclared, List.contains_iff_mem]
    exact List.mem_filterMap.mpr
      ⟨node, List.mem_filter.mpr ⟨hmem, beq_iff_eq.mpr hkind⟩, hkey⟩
  have hsingle (hspec : ((specs node).length == 1
        && !(declaredNames (clauseLine ++ test.source) node).isEmpty) = true) :
      ((specs node).length == 1 && (declaredNames (clauseLine ++ test.source) node).any
        (Declared.ofTest test).names.contains) = true := by
    obtain ⟨hone, hsome⟩ := Bool.and_eq_true_iff.mp hspec
    obtain ⟨name, hname⟩ := List.exists_mem_of_ne_nil _ (List.isEmpty_eq_false_iff.mp
      (Bool.not_eq_true' _ ▸ hsome))
    exact Bool.and_eq_true_iff.mpr ⟨hone, List.any_eq_true.mpr ⟨name, hname, hnames name hname⟩⟩
  unfold declaresAlone at halone
  unfold isStale
  dsimp only
  split at halone
  · next hkind =>
      rw [hkind]
      obtain ⟨name, hname, hfits⟩ := List.any_eq_true.mp halone
      exact List.any_eq_true.mpr ⟨name, hname, Bool.and_eq_true_iff.mpr ⟨hnames name hname, hfits⟩⟩
  · next hkind =>
      rw [hkind]
      obtain ⟨key, hkey⟩ := Option.isSome_iff_exists.mp halone
      simp only [hkey]
      exact hmethods hkind hkey
  · next hkind =>
      rw [hkind]
      exact hsingle halone
  · next hkind =>
      rw [hkind]
      exact hsingle halone
  · next hkind =>
      rw [hkind]
      exact hsingle halone
  · cases halone

end Assay.TestFile
