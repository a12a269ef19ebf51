/-
Where paths lead. A path is followed from directory to directory, so what it
leads to is a directory unless its last part is a name; and how far it can be
followed depends on the directories of a disk only. A disk is well formed when
its entries can be told apart by paths: each has a location of its own, spelled
in names that a path can hold.
-/
import Assay.Proofs.Disk

namespace Assay

open Assay.Path Text

-- ============================================================ their paths

variable {location found : Location} {name : String} {path : String} {parts : List Part}

theorem Disk.toList_pathOf (location : Location) :
    (pathOf location).toList = '/' :: join ['/'] (location.map String.toList) := by
  rw [pathOf, String.toList_append, String.toList_intercalate, join_eq_intercalate]
  rfl

theorem Disk.isAbsolute_pathOf (location : Location) : isAbsolute (pathOf location) = true := by
  rw [isAbsolute, toList_pathOf]
  rfl

/-- The path of a location has the location's names as its parts. -/
theorem Disk.parts_pathOf (hplain : ∀ name ∈ location, Plain name) :
    Path.parts (pathOf location) = .root :: location.map .name := by
  have hsegments : ((splitAt (· == '/') (join ['/'] (location.map String.toList))).filter
      (!isIdle ·)).map Part.ofSegment = location.map .name := by
    by_cases hsome : location = []
    · rw [hsome]
      rfl
    · rw [splitAt_join rfl (by simpa using hsome), List.filter_map, List.map_map]
      · have hbusy : location.filter ((fun segment => !isIdle segment) ∘ String.toList)
            = location :=
          List.filter_eq_self.mpr fun name hmem => by simp [(hplain name hmem).busy]
        rw [hbusy]
        exact List.map_congr_left fun name hmem => (hplain name hmem).ofSegment
      · intro segment hmem
        obtain ⟨name, hname, rfl⟩ := List.mem_map.mp hmem
        exact (hplain name hname).slashFree
  have hpieces : pieces (pathOf location)
      = ⟨['/'], splitAt (· == '/') (join ['/'] (location.map String.toList))⟩ := by
    unfold pieces
    rw [toList_pathOf]
    rfl
  rw [parts_eq, hpieces, hsegments]
  rfl

theorem Disk.fileName?_pathOf (hplain : ∀ name ∈ location, Plain name) :
    fileName? (pathOf location) = location.getLast? := by
  unfold fileName?
  rw [parts_pathOf hplain]
  cases location using List.reverseRecOn with
  | nil => rfl
  | append_singleton front last =>
      rw [List.map_append, List.map_singleton, ← List.cons_append, List.getLast?_concat,
        List.getLast?_concat]

/-- Different locations have different paths, down to the parts. -/
theorem Disk.parts_pathOf_inj {other : Location} (hplain : ∀ name ∈ location, Plain name)
    (hother : ∀ name ∈ other, Plain name)
    (hsame : Path.parts (pathOf location) = Path.parts (pathOf other)) : location = other := by
  rw [parts_pathOf hplain, parts_pathOf hother] at hsame
  exact List.map_injective_iff.mpr (fun a b => Part.name.inj) (List.cons.inj hsame).2

/-- The parent of a path of a location is the path of the location above. -/
theorem Disk.parent?_pathOf {directory : Location} {last : String}
    (hplain : ∀ name ∈ directory ++ [last], Plain name) :
    ∃ parent, parent? (pathOf (directory ++ [last])) = some parent
      ∧ Path.parts parent = Path.parts (pathOf directory) := by
  have hname : fileName? (pathOf (directory ++ [last])) = some last := by
    rw [fileName?_pathOf hplain, List.getLast?_concat]
  obtain ⟨parent, hparent⟩ := exists_parent hname
  refine ⟨parent, hparent, ?_⟩
  have hparts := parts_eq_of_parent hparent hname
  rw [parts_pathOf hplain, List.map_append, List.map_singleton, ← List.cons_append] at hparts
  rw [parts_pathOf fun name hmem => hplain name (List.mem_append_left _ hmem)]
  exact (List.append_inj_left' hparts rfl).symm

/-- A path that ends in a plain name does not ask for a directory. -/
theorem Disk.wantsDirectory_eq_false {front : List Char} (hname : Plain name)
    (hpath : path.toList = front ++ name.toList) : wantsDirectory path = false := by
  have hends (tail : List Char) (h : Text.endsWith tail path.toList = true) :
      tail <:+ name.toList ∨ name.toList <:+ tail := by
    obtain ⟨rest, hrest⟩ := endsWith_iff.mp h
    exact List.suffix_or_suffix_of_suffix ⟨rest, hrest.symm⟩ ⟨front, hpath.symm⟩
  have hslash : '/' ∉ name.toList := fun hmem => by cases hname.slashFree '/' hmem
  have hbusy : name.toList ≠ [] ∧ name.toList ≠ ['.'] := by
    constructor <;> intro h <;> have hbusy := hname.busy <;> rw [h] at hbusy <;> cases hbusy
  unfold wantsDirectory
  dsimp only
  rw [Bool.or_eq_false_iff, Bool.eq_false_iff, Bool.eq_false_iff]
  refine ⟨fun h => ?_, fun h => ?_⟩
  · rcases hends _ h with hlong | hshort
    · exact hslash (hlong.subset List.mem_cons_self)
    · rcases List.suffix_cons_iff.mp hshort with hall | hnone
      · exact hslash (hall ▸ List.mem_cons_self)
      · exact hbusy.1 (List.suffix_nil.mp hnone)
  · rcases hends _ h with hlong | hshort
    · exact hslash (hlong.subset List.mem_cons_self)
    · rcases List.suffix_cons_iff.mp hshort with hall | hshort
      · exact hslash (hall ▸ List.mem_cons_self)
      · rcases List.suffix_cons_iff.mp hshort with hdot | hnone
        · exact hbusy.2 hdot
        · exact hbusy.1 (List.suffix_nil.mp hnone)

/-- The path of a location ends in its last name. -/
theorem Disk.exists_toList_pathOf (directory : Location) (last : String) :
    ∃ front, (pathOf (directory ++ [last])).toList = front ++ last.toList := by
  rw [toList_pathOf, List.map_append, List.map_singleton]
  by_cases hsome : directory = []
  · exact ⟨['/'], by rw [hsome]; rfl⟩
  · refine ⟨'/' :: (join ['/'] (directory.map String.toList) ++ ['/']), ?_⟩
    rw [join_concat _ (by simpa using hsome)]
    simp

-- ================================================================== ways

namespace Disk

variable {disk other after : Disk}

/-- The names on the way to a location are names in the path. -/
theorem mem_of_follow {start : Location} (hfollow : disk.follow start parts = .ok found) :
    ∀ name ∈ found, name ∈ start ∨ Part.name name ∈ parts := by
  induction parts generalizing start with
  | nil =>
      obtain rfl := Except.ok.inj hfollow
      exact fun name hmem => Or.inl hmem
  | cons part parts ih =>
      rw [follow_cons] at hfollow
      split at hfollow
      · cases hfollow
      · cases hfollow
      · intro name hmem
        rcases ih hfollow name hmem with hstep | hmem
        · cases part with
          | root => cases hstep
          | here => exact Or.inl hstep
          | up => exact Or.inl ((List.dropLast_sublist start).subset hstep)
          | name added =>
              rcases List.mem_append.mp hstep with hstart | hadded
              · exact Or.inl hstart
              · exact Or.inr (List.mem_cons.mpr (Or.inl (by rw [List.mem_singleton.mp hadded])))
        · exact Or.inr (List.mem_cons_of_mem _ hmem)

/-- Everything above a location is a directory. -/
def Rooted (disk : Disk) (location : Location) : Prop :=
  ∀ above, above <+: location → above ≠ location → disk.entry? above = some .directory

/-- Directories lead to what is in a directory when they lead to it. -/
theorem rooted_concat_iff : disk.Rooted (location ++ [name])
    ↔ disk.Rooted location ∧ disk.entry? location = some .directory := by
  constructor
  · intro hrooted
    refine ⟨fun above hlead hother => ?_, hrooted location (List.prefix_append _ _) (by simp)⟩
    refine hrooted above (hlead.trans (List.prefix_append _ _)) fun hsame => ?_
    have hlength := hlead.length_le
    rw [hsame, List.length_append, List.length_singleton] at hlength
    omega
  · rintro ⟨hrooted, hdirectory⟩ above hlead hother
    rcases List.prefix_concat_iff.mp hlead with hsame | hlead
    · exact absurd hsame hother
    · by_cases hsame : above = location
      · rw [hsame, hdirectory]
      · exact hrooted above hlead hsame

/-- A path is followed through directories. -/
theorem rooted_of_follow {start : Location} (hstart : disk.Rooted start)
    (hfollow : disk.follow start parts = .ok found) : disk.Rooted found := by
  induction parts generalizing start with
  | nil =>
      obtain rfl := Except.ok.inj hfollow
      exact hstart
  | cons part parts ih =>
      rw [follow_cons] at hfollow
      split at hfollow
      · cases hfollow
      · cases hfollow
      · next hdirectory =>
          refine ih ?_ hfollow
          cases part with
          | root => exact fun above hlead hother => absurd (List.prefix_nil.mp hlead) hother
          | here => exact hstart
          | up =>
              intro above hlead hother
              refine hstart above (hlead.trans (List.dropLast_prefix start)) ?_
              rintro rfl
              exact hother (hlead.eq_of_length_le (by simp [step]))
          | name added => exact rooted_concat_iff.mpr ⟨hstart, hdirectory⟩

/-- A path that leads to no directory ends in the name of what it leads to. -/
theorem exists_name_of_follow (hfollow : disk.follow [] parts = .ok found)
    (hentry : disk.entry? found ≠ some .directory) :
    ∃ front directory name, parts = front ++ [.name name] ∧ found = directory ++ [name] := by
  cases parts using List.reverseRecOn with
  | nil =>
      obtain rfl := Except.ok.inj hfollow
      exact absurd rfl hentry
  | append_singleton front last =>
      rw [follow_append] at hfollow
      cases hfront : disk.follow [] front with
      | error fault =>
          rw [hfront] at hfollow
          cases hfollow
      | ok directory =>
          rw [hfront, Except.bind, follow_cons] at hfollow
          split at hfollow
          · cases hfollow
          · cases hfollow
          · next hdirectory =>
              obtain rfl := Except.ok.inj hfollow
              cases last with
              | root => exact absurd rfl hentry
              | here => exact absurd hdirectory hentry
              | up =>
                  have hrooted : disk.Rooted directory :=
                    rooted_of_follow (fun above hlead hother =>
                      absurd (List.prefix_nil.mp hlead) hother) hfront
                  by_cases hnone : directory = []
                  · rw [hnone] at hentry
                    exact absurd rfl hentry
                  · refine absurd (hrooted _ (List.dropLast_prefix directory) ?_) hentry
                    intro hsame
                    have hlength := congrArg List.length hsame
                    rw [List.length_dropLast] at hlength
                    have hpositive := List.length_pos_of_ne_nil hnone
                    omega
              | name name => exact ⟨front, directory, name, rfl, rfl⟩

/-- How far a path can be followed depends on directories only. -/
theorem follow_congr
    (hsame : ∀ location, disk.entry? location = some .directory →
      other.entry? location = some .directory)
    {start : Location} (hfollow : disk.follow start parts = .ok found) :
    other.follow start parts = .ok found := by
  induction parts generalizing start with
  | nil => exact hfollow
  | cons part parts ih =>
      rw [follow_cons] at hfollow
      split at hfollow
      · cases hfollow
      · cases hfollow
      · next hdirectory =>
          rw [follow_cons, hsame _ hdirectory]
          exact ih hfollow

-- ============================================================= locations

/-- Names lead from directory to directory. -/
theorem follow_names {start names : Location} (hrooted : disk.Rooted (start ++ names)) :
    disk.follow start (names.map .name) = .ok (start ++ names) := by
  induction names generalizing start with
  | nil => exact congrArg Except.ok (List.append_nil start).symm
  | cons name names ih =>
      have hdirectory : disk.entry? start = some .directory :=
        hrooted start (List.prefix_append _ _) (by simp)
      rw [List.map_cons, follow_cons, hdirectory]
      have hsplit : start ++ name :: names = (start ++ [name]) ++ names := by simp
      rw [hsplit] at hrooted ⊢
      exact ih hrooted

theorem eq_of_follow_names {start names : Location}
    (hfollow : disk.follow start (names.map .name) = .ok found) : found = start ++ names := by
  induction names generalizing start with
  | nil => exact (Except.ok.inj hfollow).symm.trans (List.append_nil start).symm
  | cons name names ih =>
      rw [List.map_cons, follow_cons] at hfollow
      split at hfollow
      · cases hfollow
      · cases hfollow
      · rw [ih hfollow]
        simp [step]

/-- The path of a location leads there, or nowhere. -/
theorem follow_pathOf_iff (hplain : ∀ name ∈ location, Plain name) :
    disk.follow [] (Path.parts (pathOf location)) = .ok found
      ↔ found = location ∧ disk.Rooted location := by
  have hroot : disk.follow [] (Path.parts (pathOf location))
      = disk.follow [] (location.map .name) := by
    rw [parts_pathOf hplain, follow_cons]
    rfl
  rw [hroot]
  constructor
  · intro hfollow
    obtain rfl := eq_of_follow_names hfollow
    exact ⟨rfl, rooted_of_follow
      (fun above hlead hother => absurd (List.prefix_nil.mp hlead) hother) hfollow⟩
  · rintro ⟨rfl, hrooted⟩
    exact @follow_names disk [] found hrooted

theorem locate_pathOf_iff (hplain : ∀ name ∈ location, Plain name) :
    disk.locate (pathOf location) = .ok found
      ↔ found = location ∧ disk.Rooted location ∧ disk.entry? location ≠ none := by
  have hsome : (pathOf location).isEmpty = false := by
    rw [← Bool.not_eq_true, String.isEmpty_iff, ← String.toList_inj, toList_pathOf]
    exact List.cons_ne_nil _ _
  rw [locate_eq_ok_iff, follow_pathOf_iff hplain]
  constructor
  · rintro ⟨-, ⟨rfl, hrooted⟩, hentry⟩
    refine ⟨rfl, hrooted, ?_⟩
    rcases hentry with hentry | ⟨-, content, hentry⟩ <;> rw [hentry] <;> exact Option.some_ne_none _
  · rintro ⟨rfl, hrooted, hentry⟩
    refine ⟨hsome, ⟨rfl, hrooted⟩, ?_⟩
    cases hfound : disk.entry? found with
    | none => exact absurd hfound hentry
    | some entry =>
        cases entry with
        | directory => exact Or.inl rfl
        | file content =>
            refine Or.inr ⟨?_, content, rfl⟩
            cases found using List.reverseRecOn with
            | nil => cases hfound
            | append_singleton directory last =>
                obtain ⟨front, hfront⟩ := exists_toList_pathOf directory last
                exact wantsDirectory_eq_false (hplain last (by simp)) hfront

/-- There is a file at the path of a location exactly when it is an entry that
directories lead to. -/
theorem isFile_pathOf_iff (hplain : ∀ name ∈ location, Plain name) :
    disk.isFile (pathOf location) = true
      ↔ disk.Rooted location ∧ ∃ content, disk.entry? location = some (.file content) := by
  unfold isFile locate?
  constructor
  · intro hfile
    cases hlocate : disk.locate (pathOf location) with
    | error fault =>
        rw [hlocate] at hfile
        cases hfile
    | ok found =>
        obtain ⟨rfl, hrooted, -⟩ := (locate_pathOf_iff hplain).mp hlocate
        rw [hlocate] at hfile
        refine ⟨hrooted, ?_⟩
        dsimp only [Except.toOption, Option.bind_some] at hfile
        split at hfile
        · next content hentry => exact ⟨content, hentry⟩
        · cases hfile
  · rintro ⟨hrooted, content, hentry⟩
    have hlocate : disk.locate (pathOf location) = .ok location :=
      (locate_pathOf_iff hplain).mpr ⟨rfl, hrooted, by rw [hentry]; exact Option.some_ne_none _⟩
    rw [hlocate]
    dsimp only [Except.toOption, Option.bind_some]
    rw [hentry]

-- ======================================================= below a location

section Below

variable {root rest : Location}

theorem toList_intercalate_slash (names : Location) :
    ("/".intercalate names).toList = join ['/'] (names.map String.toList) := by
  rw [String.toList_intercalate, join_eq_intercalate]
  rfl

/-- Names below a location make the path of what is there. -/
theorem push_pathOf (hplain : ∀ name ∈ root ++ rest, Plain name) (hrest : rest ≠ []) :
    push (pathOf root) ("/".intercalate rest) = pathOf (root ++ rest) := by
  have hrelative : isAbsolute ("/".intercalate rest) = false := by
    obtain ⟨name, later, rfl⟩ := List.exists_cons_of_ne_nil hrest
    have hname := hplain name (by simp)
    unfold isAbsolute
    rw [toList_intercalate_slash, List.map_cons, join_cons_eq_append]
    cases htext : name.toList with
    | nil =>
        have hbusy := hname.busy
        rw [htext] at hbusy
        cases hbusy
    | cons c text =>
        have hslash := hname.slashFree c (by rw [htext]; exact List.mem_cons_self)
        simpa using hslash
  have hsome : (pathOf root).isEmpty = false := by
    rw [← Bool.not_eq_true, String.isEmpty_iff, ← String.toList_inj, toList_pathOf]
    exact List.cons_ne_nil _ _
  unfold push
  rw [hrelative, hsome, Bool.or_self, if_neg Bool.false_ne_true]
  cases root using List.reverseRecOn with
  | nil => rfl
  | append_singleton above last =>
      have hends : Text.endsWith ['/'] (pathOf (above ++ [last])).toList = false := by
        obtain ⟨front, hfront⟩ := exists_toList_pathOf above last
        have hwants := wantsDirectory_eq_false (hplain last (by simp)) hfront
        exact (Bool.or_eq_false_iff.mp hwants).1
      have hjoin : join ['/'] ((above ++ [last] ++ rest).map String.toList)
          = join ['/'] ((above ++ [last]).map String.toList) ++ ['/']
            ++ join ['/'] (rest.map String.toList) := by
        rw [List.map_append]
        exact join_append ['/'] (by simp) (by simpa using hrest)
      rw [if_neg (Bool.eq_false_iff.mp hends), ← String.toList_inj, String.toList_append,
        String.toList_append, toList_intercalate_slash, toList_pathOf, toList_pathOf, hjoin]
      simp

/-- A location is reached from one above it by the names in between. -/
theorem after?_pathOf (hplain : ∀ name ∈ root ++ rest, Plain name) (hrest : rest ≠ []) :
    Path.after? (pathOf root) (pathOf (root ++ rest)) = some ("/".intercalate rest) := by
  have hroot : ∀ name ∈ root, Plain name := fun name hmem => hplain name (List.mem_append_left _ hmem)
  have hbusy : ∀ segment ∈ (root ++ rest).map String.toList, isIdle segment = false := by
    intro segment hmem
    obtain ⟨name, hname, rfl⟩ := List.mem_map.mp hmem
    exact (hplain name hname).busy
  have hsegments : splitAt (· == '/') (join ['/'] ((root ++ rest).map String.toList))
      = root.map String.toList ++ rest.map String.toList := by
    rw [splitAt_join rfl (by simp [hrest]), List.map_append]
    intro segment hmem
    obtain ⟨name, hname, rfl⟩ := List.mem_map.mp hmem
    exact (hplain name hname).slashFree
  have hpieces : pieces (pathOf (root ++ rest))
      = ⟨['/'], root.map String.toList ++ rest.map String.toList⟩ := by
    unfold pieces
    rw [toList_pathOf]
    exact congrArg (Pieces.mk ['/']) hsegments
  have htake : (Path.parts (pathOf (root ++ rest))).take (Path.parts (pathOf root)).length
      = Path.parts (pathOf root) := by
    rw [parts_pathOf hplain, parts_pathOf hroot, List.map_append, ← List.cons_append,
      List.take_left]
  rw [List.map_append] at hbusy
  have hdrop : dropParts root.length (root.map String.toList ++ rest.map String.toList)
      = rest.map String.toList := by
    have hdropped := @dropParts_append (root.map String.toList) (rest.map String.toList)
      fun segment hmem => hbusy segment (List.mem_append_left _ hmem)
    rw [List.length_map] at hdropped
    rw [hdropped, List.dropWhile_eq_self_iff]
    intro hlength
    rw [hbusy _ (List.mem_append_right _ (List.getElem_mem _))]
    exact Bool.false_ne_true
  have hkept : trimmedEnd (rest.map String.toList) = rest.map String.toList := by
    refine List.rdropWhile_eq_self_iff.mpr fun hsome => ?_
    rw [hbusy _ (List.mem_append_right _ (List.getLast_mem hsome))]
    exact Bool.false_ne_true
  unfold Path.after?
  dsimp only
  rw [htake, beq_self_eq_true, if_pos rfl, hpieces, parts_pathOf hroot, List.length_cons,
    List.length_map]
  dsimp only [List.isEmpty_cons]
  rw [if_neg Bool.false_ne_true, hdrop, assemble, hkept, List.nil_append,
    ← toList_intercalate_slash, String.ofList_toList]

end Below

-- =========================================================== well-formed

/-- Each entry has a location of its own, and paths can hold its names. -/
structure WellFormed (disk : Disk) : Prop where
  nodup : (disk.entries.map (·.1)).Nodup
  plain : ∀ location ∈ disk.entries.map (·.1), ∀ name ∈ location, Plain name

instance : Decidable disk.WellFormed :=
  decidable_of_iff ((disk.entries.map (·.1)).Nodup
      ∧ ∀ location ∈ disk.entries.map (·.1), ∀ name ∈ location, Plain name)
    ⟨fun h => ⟨h.1, h.2⟩, fun h => ⟨h.nodup, h.plain⟩⟩

/-- What is found below the root is an entry. -/
theorem mem_locations_of_ne_none (hroot : location ≠ []) (hentry : disk.entry? location ≠ none) :
    location ∈ disk.entries.map (·.1) := by
  unfold entry? at hentry
  rw [if_neg (by simpa using hroot)] at hentry
  cases hfind : disk.entries.find? (·.1 == location) with
  | none =>
      rw [hfind] at hentry
      exact absurd rfl hentry
  | some entry =>
      have hsame := List.find?_some hfind
      rw [← eq_of_beq hsame]
      exact List.mem_map_of_mem (List.mem_of_find?_eq_some hfind)

theorem ne_none_of_mem_locations (hmem : location ∈ disk.entries.map (·.1)) :
    disk.entry? location ≠ none := by
  obtain ⟨entry, hentry, rfl⟩ := List.mem_map.mp hmem
  unfold entry?
  split
  · exact Option.some_ne_none _
  · rw [Option.ne_none_iff_isSome, Option.isSome_map, List.find?_isSome]
    exact ⟨entry, hentry, beq_self_eq_true _⟩

theorem WellFormed.plain_of_ne_none (hdisk : disk.WellFormed)
    (hentry : disk.entry? location ≠ none) : ∀ name ∈ location, Plain name := by
  by_cases hroot : location = []
  · rw [hroot]
    exact fun name hmem => absurd hmem List.not_mem_nil
  · exact hdisk.plain location (mem_locations_of_ne_none hroot hentry)

/-- Writing keeps a disk well formed. -/
theorem WellFormed.write (hdisk : disk.WellFormed) {content : Content}
    (hwrite : disk.write path content = .ok after) : after.WellFormed := by
  obtain ⟨place, rfl, -, -, -, hfollow⟩ := exists_place_of_write hwrite
  have hkept : (disk.put place (.file content)).entries.map (·.1)
      = place :: (disk.entries.map (·.1)).filter (· != place) := by
    simp [put, List.filter_map, Function.comp_def]
  constructor
  · rw [hkept, List.nodup_cons]
    exact ⟨by simp, hdisk.nodup.filter _⟩
  · rw [hkept]
    intro location hmem name hname
    rcases List.mem_cons.mp hmem with rfl | hmem
    · exact plain_of_mem_parts
        ((mem_of_follow hfollow name hname).resolve_left List.not_mem_nil)
    · exact hdisk.plain location (List.mem_filter.mp hmem).1 name hname

end Disk

end Assay
