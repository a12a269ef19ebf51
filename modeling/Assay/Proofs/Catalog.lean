/-
Insertion into a catalog, read as a change to its entries and to its keys: the
new entry comes in, the keys grow by the new one, and every other entry was
there before.
-/
import Assay.Catalog
import Mathlib.Data.List.Lex
import Mathlib.Data.List.Nodup
import Mathlib.Data.String.Basic
import Mathlib.Order.Lattice

namespace Assay

/-- A list of what there is in another holds nothing twice. -/
theorem nodup_eraseDups {α : Type} [BEq α] [LawfulBEq α] (items : List α) :
    items.eraseDups.Nodup := by
  induction hlength : items.length using Nat.strongRecOn generalizing items with
  | ind length ih =>
      cases items with
      | nil => exact List.nodup_nil
      | cons item items =>
          rw [List.eraseDups_cons, List.nodup_cons, List.mem_eraseDups]
          refine ⟨by simp, ih _ ?_ _ rfl⟩
          have hle := List.length_filter_le (fun other => !other == item) items
          rw [← hlength, List.length_cons]
          omega

/-- Lists are in the order of their heads, or of what comes after equal heads. -/
theorem cons_le_cons_iff {α : Type} [LinearOrder α] {a b : α} {front back : List α} :
    a :: front ≤ b :: back ↔ a < b ∨ a = b ∧ front ≤ back := by
  rw [← not_lt, List.cons_lt_cons_iff, ← not_lt]
  rcases lt_trichotomy a b with hlt | rfl | hgt
  · simp [hlt, hlt.ne', hlt.not_gt]
  · simp
  · simp [hgt, hgt.ne', hgt.not_gt]

end Assay

namespace Assay.Catalog

variable {α : Type} {catalog : Catalog α} {key name : String} {value : α} {entry : String × α}

-- ============================================================ insertion

/-- An entry after an insertion is the new one or an old one. -/
theorem mem_insertInto {entries : List (String × α)} :
    entry ∈ insertInto key value entries → entry = (key, value) ∨ entry ∈ entries := by
  induction entries with
  | nil => simp [insertInto]
  | cons head rest ih =>
    rw [insertInto]
    intro hmem
    split at hmem
    · exact (List.mem_cons.mp hmem).imp_right (List.mem_cons_of_mem _)
    · split at hmem
      · exact List.mem_cons.mp hmem
      · obtain rfl | hmem := List.mem_cons.mp hmem
        · exact .inr (List.mem_cons_self ..)
        · exact (ih hmem).imp_right (List.mem_cons_of_mem _)

/-- The keys after an insertion are the new one and the old ones, also where the
new entry takes the place of an old one. -/
theorem mem_keys_insertInto {entries : List (String × α)} :
    name ∈ (insertInto key value entries).map (·.1) ↔
      name = key ∨ name ∈ entries.map (·.1) := by
  induction entries with
  | nil => simp [insertInto]
  | cons head rest ih =>
    rw [insertInto]
    split
    next hsame => simp [hsame]
    next =>
      split
      next => simp
      next =>
        rw [List.map_cons, List.mem_cons, ih, List.map_cons, List.mem_cons]
        exact or_left_comm

@[simp]
theorem keys_empty : (empty : Catalog α).keys = [] := rfl

theorem mem_entries_insert (hmem : entry ∈ (catalog.insert key value).entries) :
    entry = (key, value) ∨ entry ∈ catalog.entries :=
  mem_insertInto hmem

theorem mem_keys_insert :
    name ∈ (catalog.insert key value).keys ↔ name = key ∨ name ∈ catalog.keys :=
  mem_keys_insertInto

/-- A catalog of a list has no other entries. -/
theorem mem_entries_ofList {entries : List (String × α)} (hmem : entry ∈ (ofList entries).entries) :
    entry ∈ entries := by
  have hamong : ∀ (entries : List (String × α)) (catalog : Catalog α),
      entry ∈ (entries.foldl (fun catalog entry => catalog.insert entry.1 entry.2) catalog).entries
        → entry ∈ catalog.entries ∨ entry ∈ entries := by
    intro entries
    induction entries with
    | nil => exact fun catalog hmem => .inl hmem
    | cons head rest ih =>
      intro catalog hmem
      obtain hmem | hmem := ih _ hmem
      · obtain rfl | hmem := mem_entries_insert hmem
        · exact .inr (List.mem_cons_self ..)
        · exact .inl hmem
      · exact .inr (List.mem_cons_of_mem _ hmem)
  exact (hamong entries empty hmem).resolve_left List.not_mem_nil

-- ====================================================== catalogs of lists

/-- Insertions under different keys can change places. -/
theorem insertInto_comm {other : String} (hne : key ≠ other) (value more : α)
    (entries : List (String × α)) :
    insertInto key value (insertInto other more entries)
      = insertInto other more (insertInto key value entries) := by
  induction entries with
  | nil => grind [insertInto]
  | cons head rest ih => grind [insertInto]

theorem mem_insertInto_self (key : String) (value : α) (entries : List (String × α)) :
    (key, value) ∈ insertInto key value entries := by
  induction entries with
  | nil => exact List.mem_cons_self
  | cons head rest ih =>
    rw [insertInto]
    split
    · exact List.mem_cons_self
    · split
      · exact List.mem_cons_self
      · exact List.mem_cons_of_mem _ ih

/-- Entries with different keys make the same catalog in any order. -/
theorem ofList_perm {entries others : List (String × α)} (hperm : entries.Perm others)
    (hkeys : (entries.map (·.1)).Nodup) : ofList entries = ofList others := by
  refine hperm.foldl_eq' (fun first hfirst second hsecond catalog => ?_) empty
  by_cases hsame : first = second
  · rw [hsame]
  · have hne : first.1 ≠ second.1 := fun h =>
      hsame (List.inj_on_of_nodup_map hkeys hfirst hsecond h)
    exact congrArg Catalog.mk (insertInto_comm hne.symm _ _ _)

/-- Entries with different keys are all in the catalog. -/
theorem mem_ofList {entries : List (String × α)} (hkeys : (entries.map (·.1)).Nodup)
    (hmem : entry ∈ entries) : entry ∈ (ofList entries).entries := by
  obtain ⟨before, after, rfl⟩ := List.append_of_mem hmem
  have hperm : (before ++ entry :: after).Perm ((before ++ after) ++ [entry]) :=
    List.perm_middle.trans (List.perm_append_singleton _ _).symm
  rw [ofList_perm hperm hkeys, ofList, List.foldl_append]
  exact mem_insertInto_self _ _ _

/-- The values of a catalog can be changed before it is made. -/
theorem entries_ofList_map {β : Type} (change : α → β) (entries : List (String × α)) :
    (ofList (entries.map fun entry => (entry.1, change entry.2))).entries
      = (ofList entries).entries.map fun entry => (entry.1, change entry.2) := by
  have hinsert (key : String) (value : α) (entries : List (String × α)) :
      insertInto key (change value) (entries.map fun entry => (entry.1, change entry.2))
        = (insertInto key value entries).map fun entry => (entry.1, change entry.2) := by
    induction entries with
    | nil => rfl
    | cons head rest ih =>
      rw [List.map_cons, insertInto, insertInto]
      split
      · rfl
      · split
        · rfl
        · rw [ih, List.map_cons]
  have hfold : ∀ (entries : List (String × α)) (catalog : Catalog α) (changed : Catalog β),
      changed.entries = catalog.entries.map (fun entry => (entry.1, change entry.2)) →
      ((entries.map fun entry => (entry.1, change entry.2)).foldl
          (fun catalog entry => catalog.insert entry.1 entry.2) changed).entries
        = (entries.foldl (fun catalog entry => catalog.insert entry.1 entry.2)
            catalog).entries.map fun entry => (entry.1, change entry.2) := by
    intro entries
    induction entries with
    | nil => exact fun catalog changed h => h
    | cons head rest ih =>
      intro catalog changed h
      refine ih _ _ ?_
      show insertInto head.1 (change head.2) changed.entries = _
      rw [h]
      exact hinsert head.1 head.2 catalog.entries
  exact hfold entries empty empty rfl

-- ================================================================= order

/-- An insertion keeps entries in the order of their keys. -/
theorem pairwise_insertInto (key : String) (value : α) {entries : List (String × α)}
    (hordered : entries.Pairwise fun a b => a.1 < b.1) :
    (insertInto key value entries).Pairwise fun a b => a.1 < b.1 := by
  induction entries with
  | nil => exact List.pairwise_singleton _ _
  | cons head rest ih =>
      obtain ⟨hhead, hrest⟩ := List.pairwise_cons.mp hordered
      rw [insertInto]
      split
      · next hsame =>
          exact List.pairwise_cons.mpr ⟨fun other hmem => hsame ▸ hhead other hmem, hrest⟩
      · next hother =>
          split
          · next hbefore =>
              refine List.pairwise_cons.mpr ⟨fun other hmem => ?_, hordered⟩
              rcases List.mem_cons.mp hmem with rfl | hmem
              · exact hbefore
              · exact hbefore.trans (hhead other hmem)
          · next hafter =>
              refine List.pairwise_cons.mpr ⟨fun other hmem => ?_, ih hrest⟩
              rcases mem_insertInto hmem with rfl | hmem
              · exact lt_of_le_of_ne (not_lt.mp hafter) (Ne.symm hother)
              · exact hhead other hmem

/-- A catalog that grows by insertions stays in the order of its keys. -/
theorem pairwise_foldl_insert {β : Type} (key : Catalog α → β → String) (value : Catalog α → β → α)
    (items : List β) (hordered : catalog.entries.Pairwise fun a b => a.1 < b.1) :
    (items.foldl (fun catalog item => catalog.insert (key catalog item) (value catalog item))
      catalog).entries.Pairwise fun a b => a.1 < b.1 := by
  induction items generalizing catalog with
  | nil => exact hordered
  | cons item items ih => exact ih (pairwise_insertInto _ _ hordered)

/-- The entries of a catalog of a list are in the order of their keys. -/
theorem pairwise_entries_ofList (entries : List (String × α)) :
    (ofList entries).entries.Pairwise fun a b => a.1 < b.1 :=
  pairwise_foldl_insert (fun _ entry => entry.1) (fun _ entry => entry.2) entries List.Pairwise.nil

/-- No key comes twice. -/
theorem nodup_keys_ofList (entries : List (String × α)) : (ofList entries).keys.Nodup :=
  List.pairwise_map.mpr ((pairwise_entries_ofList entries).imp fun h => h.ne)

-- ============================================================== lookups

/-- What is found under a key is there as an entry. -/
theorem mem_entries_of_find? (hfound : catalog.find? key = some value) :
    (key, value) ∈ catalog.entries := by
  obtain ⟨entry, hheld, rfl⟩ := Option.map_eq_some_iff.mp hfound
  obtain rfl : entry.1 = key := by simpa using List.find?_some hheld
  exact List.mem_of_find?_eq_some hheld

/-- What is found under a key is one of the values. -/
theorem mem_values_of_find? (hfound : catalog.find? key = some value) : value ∈ catalog.values :=
  List.mem_map_of_mem (mem_entries_of_find? hfound)

/-- What is inserted is found under its key, and nothing else is found otherwise
than before. -/
theorem find?_insert (catalog : Catalog α) (key : String) (value : α) (other : String) :
    (catalog.insert key value).find? other
      = if key = other then some value else catalog.find? other := by
  obtain ⟨entries⟩ := catalog
  show ((insertInto key value entries).find? (·.1 == other)).map (·.2)
    = if key = other then some value else (entries.find? (·.1 == other)).map (·.2)
  induction entries with
  | nil => by_cases hsame : key = other <;> simp [insertInto, hsame]
  | cons head rest ih =>
      rw [insertInto]
      by_cases hkey : key = head.1
      · rw [if_pos hkey, List.find?_cons, List.find?_cons, ← hkey]
        by_cases hsame : key = other
        · simp [hsame]
        · rw [beq_eq_false_iff_ne.mpr hsame, if_neg hsame]
      · rw [if_neg hkey]
        by_cases hbefore : key < head.1
        · rw [if_pos hbefore, List.find?_cons]
          by_cases hsame : key = other
          · simp [hsame]
          · rw [beq_eq_false_iff_ne.mpr hsame, if_neg hsame]
        · rw [if_neg hbefore, List.find?_cons, List.find?_cons]
          by_cases hhead : head.1 = other
          · have hother : key ≠ other := fun hsame => hkey (hsame.trans hhead.symm)
            simp [hhead, hother]
          · rw [beq_eq_false_iff_ne.mpr hhead]
            exact ih

/-- Where no key comes twice, every entry is found under its key. -/
theorem find?_of_mem (hkeys : catalog.keys.Nodup) (hmem : entry ∈ catalog.entries) :
    catalog.find? entry.1 = some entry.2 := by
  have hfound : catalog.entries.find? (·.1 == entry.1) = some entry := by
    cases hfind : catalog.entries.find? (·.1 == entry.1) with
    | none => exact absurd (beq_self_eq_true entry.1) (List.find?_eq_none.mp hfind entry hmem)
    | some other =>
        have hkey : other.1 = entry.1 := by simpa using List.find?_some hfind
        rw [List.inj_on_of_nodup_map hkeys (List.mem_of_find?_eq_some hfind) hmem hkey]
  rw [find?, hfound]
  rfl

end Assay.Catalog
