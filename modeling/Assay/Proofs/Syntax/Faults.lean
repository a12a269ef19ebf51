/-
Which faults of a tree are listed. A place in a tree is the way there from the
root, by the numbers of children, and places in their lexical order are the tree in
the order of its source. The walk over a tree is compared with these places
(`Draft.Lists`): it stops at every fault and passes by what has none, and still it
finds each fault that is below no other, and each once.

A source parses exactly when its tree has no fault, and then the two trees are one.
-/
import Assay.Syntax.Fault
import Mathlib.Data.List.Sort

namespace Assay.Syntax

namespace Draft

variable {draft : Draft} {drafts : List Draft} {place : List Nat} {label : FaultLabel}

-- ============================================================ the places

/-- What is below the root. -/
def children : Draft → List Draft
  | node _ children => children
  | fault _ children => children

/-- The tree at a place. -/
def at? : (place : List Nat) → Draft → Option Draft
  | [], draft => some draft
  | i :: place, draft => draft.children[i]?.bind (at? place)

/-- There is a fault at a place. -/
def IsFault (draft : Draft) (place : List Nat) (label : FaultLabel) : Prop :=
  ∃ children, at? place draft = some (fault label children)

/-- There is a fault at a place, and it is below no other. -/
structure IsOutermost (draft : Draft) (place : List Nat) (label : FaultLabel) : Prop where
  isFault : draft.IsFault place label
  alone : ∀ above, above <+: place → above ≠ place → ∀ other, ¬ draft.IsFault above other

/-- There is a fault somewhere in the tree. -/
def IsFaulty (draft : Draft) : Prop := ∃ place label, draft.IsFault place label

/-- The labels are those of the outermost faults, one for each, in the order of their
places. -/
def Lists (draft : Draft) (labels : List FaultLabel) : Prop :=
  ∃ entries : List (List Nat × FaultLabel), entries.Pairwise (·.1 < ·.1)
    ∧ (∀ place label, (place, label) ∈ entries ↔ draft.IsOutermost place label)
    ∧ labels = entries.map (·.2)

theorem isOutermost_fault {other : FaultLabel} {children : List Draft} :
    (fault other children).IsOutermost place label ↔ place = [] ∧ label = other := by
  constructor
  · rintro ⟨⟨_, hfound⟩, alone⟩
    cases place with
    | nil =>
        obtain ⟨rfl, -⟩ := fault.inj (Option.some.inj hfound)
        exact ⟨rfl, rfl⟩
    | cons i place =>
        exact absurd ⟨children, rfl⟩
          (alone [] (List.nil_prefix) (List.cons_ne_nil i place).symm other)
  · rintro ⟨rfl, rfl⟩
    exact ⟨⟨children, rfl⟩, fun above hlead hother => absurd (List.prefix_nil.mp hlead) hother⟩

theorem isFault_node_cons {own : Label} {children : List Draft} {i : Nat} :
    (node own children).IsFault (i :: place) label
      ↔ ∃ child, children[i]? = some child ∧ child.IsFault place label := by
  simp only [IsFault, at?, Draft.children, Option.bind_eq_some_iff]
  constructor
  · rintro ⟨below, child, hchild, hfound⟩
    exact ⟨child, hchild, below, hfound⟩
  · rintro ⟨child, hchild, below, hfound⟩
    exact ⟨below, child, hchild, hfound⟩

theorem not_isFault_node {own : Label} {children : List Draft} :
    ¬ (node own children).IsFault [] label := by
  rintro ⟨_, hfound⟩
  cases hfound

/-- The outermost faults of a node are those of its children. -/
theorem isOutermost_node {own : Label} {children : List Draft} :
    (node own children).IsOutermost place label ↔ ∃ i child below,
      place = i :: below ∧ children[i]? = some child ∧ child.IsOutermost below label := by
  constructor
  · rintro ⟨hfault, alone⟩
    cases place with
    | nil => exact absurd hfault not_isFault_node
    | cons i below =>
        obtain ⟨child, hchild, hfault⟩ := isFault_node_cons.mp hfault
        refine ⟨i, child, below, rfl, hchild, hfault, fun above hlead hne other hother => ?_⟩
        exact alone (i :: above) ((List.prefix_cons_inj i).mpr hlead)
          (fun hsame => hne (List.cons.inj hsame).2) other
          (isFault_node_cons.mpr ⟨child, hchild, hother⟩)
  · rintro ⟨i, child, below, rfl, hchild, hfault, alone⟩
    refine ⟨isFault_node_cons.mpr ⟨child, hchild, hfault⟩, fun above hlead hne other hother => ?_⟩
    cases above with
    | nil => exact not_isFault_node hother
    | cons j above =>
        obtain ⟨rfl, hlead'⟩ := List.cons_prefix_cons.mp hlead
        obtain ⟨child', hchild', hother⟩ := isFault_node_cons.mp hother
        obtain rfl := Option.some.inj (hchild'.symm.trans hchild)
        exact alone above hlead' (fun hsame => hne (congrArg (j :: ·) hsame)) other hother

/-- Above every fault, or there, is an outermost one. -/
theorem IsFault.exists_outermost (hfault : draft.IsFault place label) :
    ∃ above other, draft.IsOutermost above other := by
  induction place generalizing draft with
  | nil =>
      obtain ⟨children, hfound⟩ := hfault
      obtain rfl := Option.some.inj hfound
      exact ⟨[], label, isOutermost_fault.mpr ⟨rfl, rfl⟩⟩
  | cons i place ih =>
      cases draft with
      | fault other children => exact ⟨[], other, isOutermost_fault.mpr ⟨rfl, rfl⟩⟩
      | node own children =>
          obtain ⟨child, hchild, hfault⟩ := isFault_node_cons.mp hfault
          obtain ⟨above, other, outermost⟩ := ih hfault
          exact ⟨i :: above, other, isOutermost_node.mpr ⟨i, child, above, rfl, hchild, outermost⟩⟩

-- ============================================================== the walk

mutual

/-- The outermost faults with their places, found by a walk that looks into every
node. -/
def entries : Draft → List (List Nat × FaultLabel)
  | fault label _ => [([], label)]
  | node _ children => entriesAll 0 children

/-- Those of several trees, the first of them at place `i`. -/
def entriesAll (i : Nat) : List Draft → List (List Nat × FaultLabel)
  | [] => []
  | draft :: drafts =>
    (entries draft).map (fun entry => (i :: entry.1, entry.2)) ++ entriesAll (i + 1) drafts

end

mutual

/-- Where nothing is wrong, no fault is found. -/
theorem entries_eq_nil_iff : ∀ {draft : Draft}, draft.entries = [] ↔ draft.hasFault = false
  | fault _ _ => iff_of_false (List.cons_ne_nil _ _) Bool.noConfusion
  | node _ children => by
      rw [entries, hasFault]
      exact entriesAll_eq_nil_iff

theorem entriesAll_eq_nil_iff :
    ∀ {i : Nat} {drafts : List Draft}, entriesAll i drafts = [] ↔ anyFault drafts = false
  | _, [] => iff_of_true rfl rfl
  | _, _ :: _ => by
      rw [entriesAll, anyFault, List.append_eq_nil_iff, List.map_eq_nil_iff, Bool.or_eq_false_iff]
      exact and_congr entries_eq_nil_iff entriesAll_eq_nil_iff

end

mutual

/-- Passing by the nodes without faults leaves nothing out. -/
theorem collect_eq : ∀ draft : Draft, draft.collect = draft.entries.map (·.2)
  | fault label _ => rfl
  | node own children => by
      rw [collect, entries]
      split
      · exact collectAll_eq 0 children
      · next hnone =>
          rw [entriesAll_eq_nil_iff.mpr (Bool.eq_false_iff.mpr hnone)]
          rfl

theorem collectAll_eq : ∀ (i : Nat) (drafts : List Draft),
    collectAll drafts = (entriesAll i drafts).map (·.2)
  | _, [] => rfl
  | i, draft :: drafts => by
      rw [collectAll, entriesAll, List.map_append, List.map_map, collect_eq draft,
        collectAll_eq (i + 1) drafts]
      rfl

end

theorem faults_eq (draft : Draft) : draft.faults = draft.entries.map (·.2) := by
  rw [faults]
  split
  · exact collect_eq draft
  · next hnone =>
      rw [entries_eq_nil_iff.mpr (Bool.eq_false_iff.mpr hnone)]
      rfl

mutual

theorem mem_entries_iff : ∀ {draft : Draft} {place : List Nat} {label : FaultLabel},
    (place, label) ∈ draft.entries ↔ draft.IsOutermost place label
  | fault other _, place, label => by
      rw [entries, List.mem_singleton, isOutermost_fault]
      exact Prod.mk.injEq .. ▸ Iff.rfl
  | node own children, place, label => by
      rw [entries, mem_entriesAll_iff, isOutermost_node]
      simp only [Nat.zero_add]

theorem mem_entriesAll_iff :
    ∀ {i : Nat} {drafts : List Draft} {place : List Nat} {label : FaultLabel},
      (place, label) ∈ entriesAll i drafts ↔ ∃ j draft below,
        place = (i + j) :: below ∧ drafts[j]? = some draft ∧ draft.IsOutermost below label
  | _, [], _, _ => by simp [entriesAll]
  | i, draft :: drafts, place, label => by
      rw [entriesAll, List.mem_append, mem_entriesAll_iff, List.mem_map]
      constructor
      · rintro (⟨⟨below, _⟩, hmem, hsame⟩ | ⟨j, other, below, rfl, hother, outermost⟩)
        · obtain ⟨rfl, rfl⟩ := Prod.mk.inj hsame
          exact ⟨0, draft, below, rfl, rfl, mem_entries_iff.mp hmem⟩
        · exact ⟨j + 1, other, below, by rw [Nat.add_right_comm, Nat.add_assoc], hother, outermost⟩
      · rintro ⟨j, other, below, rfl, hother, outermost⟩
        cases j with
        | zero =>
            obtain rfl := Option.some.inj hother
            exact .inl ⟨(below, label), mem_entries_iff.mpr outermost, rfl⟩
        | succ j =>
            refine .inr ⟨j, other, below, ?_, hother, outermost⟩
            rw [Nat.add_right_comm, Nat.add_assoc]

end

mutual

/-- The walk goes through a tree in the order of its places. -/
theorem pairwise_entries : ∀ draft : Draft, draft.entries.Pairwise (·.1 < ·.1)
  | fault _ _ => List.pairwise_singleton _ _
  | node _ children => by
      rw [entries]
      exact pairwise_entriesAll 0 children

theorem pairwise_entriesAll :
    ∀ (i : Nat) (drafts : List Draft), (entriesAll i drafts).Pairwise (·.1 < ·.1)
  | _, [] => List.Pairwise.nil
  | i, draft :: drafts => by
      rw [entriesAll, List.pairwise_append]
      refine ⟨?_, pairwise_entriesAll (i + 1) drafts, ?_⟩
      · refine List.pairwise_map.mpr ((pairwise_entries draft).imp fun hless => ?_)
        exact List.cons_lt_cons_iff.mpr (.inr ⟨rfl, hless⟩)
      · rintro entry hfirst ⟨later, label⟩ hlater
        obtain ⟨below, -, rfl⟩ := List.mem_map.mp hfirst
        obtain ⟨j, -, -, rfl, -, -⟩ := mem_entriesAll_iff.mp hlater
        exact List.cons_lt_cons_iff.mpr (.inl (by omega))

end

/-- The faults of a tree are its outermost ones. -/
theorem lists_faults (draft : Draft) : draft.Lists draft.faults :=
  ⟨draft.entries, pairwise_entries draft, fun _ _ => mem_entries_iff, faults_eq draft⟩

/-- There is one such list. -/
theorem lists_iff {labels : List FaultLabel} : draft.Lists labels ↔ labels = draft.faults := by
  refine ⟨?_, fun hlabels => hlabels ▸ lists_faults draft⟩
  rintro ⟨others, hsorted, hmem, rfl⟩
  have : Std.Irrefl fun a b : List Nat × FaultLabel => a.1 < b.1 := ⟨fun a => List.lt_irrefl a.1⟩
  have : Std.Asymm fun a b : List Nat × FaultLabel => a.1 < b.1 := ⟨fun _ _ => List.lt_asymm⟩
  have hsame : others = draft.entries := hsorted.eq_of_mem_iff (pairwise_entries draft)
    fun entry => (hmem entry.1 entry.2).trans mem_entries_iff.symm
  rw [hsame, faults_eq]

/-- A fault anywhere shows in the list, be it below others. -/
theorem isFaulty_iff : draft.IsFaulty ↔ draft.faults ≠ [] := by
  rw [faults_eq, Ne, List.map_eq_nil_iff]
  constructor
  · rintro ⟨place, label, hfault⟩ hnone
    obtain ⟨above, other, outermost⟩ := hfault.exists_outermost
    have hmem := mem_entries_iff.mpr outermost
    rw [hnone] at hmem
    cases hmem
  · intro hsome
    obtain ⟨⟨place, label⟩, _, hcons⟩ := List.exists_cons_of_ne_nil hsome
    exact ⟨place, label, (mem_entries_iff.mp (hcons ▸ List.mem_cons_self)).isFault⟩

-- ========================================================= plain trees

mutual

/-- A tree is plain exactly when nothing is wrong with it. -/
theorem tree?_eq_none_iff : ∀ {draft : Draft}, draft.tree? = none ↔ draft.hasFault = true
  | fault _ _ => iff_of_true rfl rfl
  | node _ _ => by
      rw [tree?, hasFault, Option.map_eq_none_iff]
      exact trees?_eq_none_iff

theorem trees?_eq_none_iff :
    ∀ {drafts : List Draft}, trees? drafts = none ↔ anyFault drafts = true
  | [] => iff_of_false (Option.some_ne_none _) Bool.noConfusion
  | draft :: drafts => by
      rw [trees?, anyFault, Bool.or_eq_true, ← tree?_eq_none_iff, ← trees?_eq_none_iff]
      cases draft.tree? <;> cases trees? drafts <;> simp

end

theorem tree?_eq_none_iff_isFaulty : draft.tree? = none ↔ draft.IsFaulty := by
  rw [tree?_eq_none_iff, isFaulty_iff, faults_eq, Ne, List.map_eq_nil_iff, entries_eq_nil_iff,
    Bool.not_eq_false]

-- ====================================================== faults put in

variable {labels : List FaultLabel}

theorem collectAll_append (drafts more : List Draft) :
    collectAll (drafts ++ more) = collectAll drafts ++ collectAll more := by
  induction drafts with
  | nil => rfl
  | cons draft drafts ih => rw [List.cons_append, collectAll, ih, collectAll, List.append_assoc]

theorem collectAll_leaves (labels : List FaultLabel) :
    collectAll (labels.map (fault · [])) = labels := by
  induction labels with
  | nil => rfl
  | cons label labels ih => rw [List.map_cons, collectAll, ih, collect, List.singleton_append]

/-- The faults below a node are collected from its children, whether it has any or not. -/
theorem collect_node (own : Label) (children : List Draft) :
    (node own children).collect = collectAll children := by
  rw [collect_eq, entries, collectAll_eq 0]

mutual

/-- No fault that is put into a tree is lost, and they stay in their order. -/
theorem collect_mark : ∀ (labels : List FaultLabel) (tree : Tree),
    (mark labels tree).collect = labels
  | labels, .node own children => by
      rw [mark, collect_node]
      exact collectAll_markAll labels children

theorem collectAll_markAll : ∀ (labels : List FaultLabel) (trees : List Tree),
    collectAll (markAll labels trees) = labels
  | labels, [] => by
      rw [markAll]
      exact collectAll_leaves labels
  | labels, tree :: trees => by
      rw [markAll, collectAll_append, collectAll_leaves, collectAll, collect_mark,
        collectAll_markAll, List.takeWhile_append_dropWhile, List.takeWhile_append_dropWhile]

end

theorem faults_mark (labels : List FaultLabel) (tree : Tree) :
    (mark labels tree).faults = labels := by
  rw [faults_eq, ← collect_eq, collect_mark]

mutual

/-- A tree without faults stays as it is. -/
theorem tree?_mark_nil : ∀ tree : Tree, (mark [] tree).tree? = some tree
  | .node own children => by
      rw [mark, tree?, trees?_markAll_nil children]
      rfl

theorem trees?_markAll_nil : ∀ trees : List Tree, trees? (markAll [] trees) = some trees
  | [] => rfl
  | tree :: trees => by
      rw [markAll]
      simp only [List.takeWhile_nil, List.dropWhile_nil, List.map_nil, List.nil_append]
      rw [trees?, tree?_mark_nil tree, trees?_markAll_nil trees]
      rfl

end

end Draft

-- ============================================================ the source

variable {source : List Char} {tree : Tree}

/-- A source without faults is read as it is. -/
theorem mended_of_parse? (hparse : parse? source = some tree) :
    (Fault.mended source).faults = [] ∧ parseMended source = tree := by
  obtain ⟨items, hread, rfl⟩ := Option.map_eq_some_iff.mp hparse
  unfold parseMended Fault.mended
  generalize Lexer.tokens source = tokens at hread ⊢
  rw [Fault.mend]
  dsimp only
  rw [hread]
  exact ⟨rfl, rfl⟩

/-- A source that does not parse has a fault. -/
theorem faults_mended_of_parse? (hparse : parse? source = none) :
    (Fault.mended source).faults ≠ [] := by
  have hread := Option.map_eq_none_iff.mp hparse
  unfold Fault.mended
  generalize Lexer.tokens source = tokens at hread ⊢
  rw [Fault.mend]
  dsimp only
  rw [hread]
  exact List.cons_ne_nil _ _

/-- The tree of a source is the one it has with its faults, if it has none. -/
theorem tree?_draft (source : List Char) : (draft source).tree? = parse? source := by
  cases hparse : parse? source with
  | some tree =>
      obtain ⟨hnone, htree⟩ := mended_of_parse? hparse
      rw [draft, hnone, htree, Draft.tree?_mark_nil]
  | none =>
      rw [Draft.tree?_eq_none_iff_isFaulty, Draft.isFaulty_iff, draft, Draft.faults_mark]
      exact faults_mended_of_parse? hparse

theorem isFaulty_draft_iff : (draft source).IsFaulty ↔ parse? source = none := by
  rw [← Draft.tree?_eq_none_iff_isFaulty, tree?_draft]

/-- No faults are listed exactly when the source parses. -/
theorem faults_eq_nil_iff : faults source = [] ↔ (parse? source).isSome = true := by
  rw [faults, List.map_eq_nil_iff, ← not_iff_not, ← Ne, ← Draft.isFaulty_iff, isFaulty_draft_iff,
    Option.not_isSome_iff_eq_none]

end Assay.Syntax
