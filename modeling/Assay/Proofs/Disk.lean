/-
What writing a file does to a disk: the file its path leads to holds what was
written, and nothing else differs.

A path is followed through directories, and a file is only put where there is no
directory. So the way to a place is the same before and after a file is put
there (`follow_put`), and that is all the argument needs about paths that climb
and turn.
-/
import Assay.Disk
import Assay.Proofs.Path

namespace Assay

theorem eq_ok_of_toOption {ε α : Type} {result : Except ε α} {answer : α}
    (hanswer : result.toOption = some answer) : result = .ok answer := by
  cases result with
  | error fault => cases hanswer
  | ok found => rw [Option.some.inj hanswer]

end Assay

namespace Assay.Disk

variable {disk before middle after : Disk} {path : String}

-- ================================================================ places

theorem entry?_put {place : Location} (hplace : place ≠ []) (entry : Entry)
    (location : Location) : entry? (disk.put place entry) location
      = if location = place then some entry else disk.entry? location := by
  by_cases hroot : location = []
  · subst hroot
    rw [if_neg (Ne.symm hplace)]
    rfl
  · have hempty : location.isEmpty = false := by simpa using hroot
    by_cases hsame : location = place
    · subst hsame
      simp [put, entry?, hempty]
    · have hfind : (disk.entries.filter (·.1 != place)).find? (·.1 == location)
          = disk.entries.find? (·.1 == location) := by
        rw [List.find?_filter]
        congr 1
        funext found
        by_cases hfound : found.1 = location
        · simp [hfound, hsame]
        · simp [hfound]
      simp [put, entry?, hempty, hsame, Ne.symm hsame, hfind]

/-- Where a part leads from a directory. -/
def step (location : Location) : Path.Part → Location
  | .root => []
  | .here => location
  | .up => location.dropLast
  | .name name => location ++ [name]

theorem follow_cons (disk : Disk) (location : Location) (part : Path.Part)
    (parts : List Path.Part) : disk.follow location (part :: parts)
      = match disk.entry? location with
        | none => .error .notFound
        | some (.file _) => .error .notDirectory
        | some .directory => disk.follow (step location part) parts := by
  rw [follow.eq_def]
  cases part <;> rfl

/-- A path is followed part by part. -/
theorem follow_append (location : Location) (first more : List Path.Part) :
    disk.follow location (first ++ more)
      = (disk.follow location first).bind (disk.follow · more) := by
  induction first generalizing location with
  | nil => rfl
  | cons part first ih =>
      rw [List.cons_append, follow_cons, follow_cons]
      split
      · rfl
      · rfl
      · exact ih _

/-- A file that is put where there is no directory is in no path's way. -/
theorem follow_put {place : Location} (hplace : disk.entry? place ≠ some .directory)
    (content : Content) {location found : Location} {parts : List Path.Part}
    (hfollow : disk.follow location parts = .ok found) :
    (disk.put place (.file content)).follow location parts = .ok found := by
  have hroot : place ≠ [] := fun h => hplace (h ▸ rfl)
  induction parts generalizing location with
  | nil => exact hfollow
  | cons part parts ih =>
      rw [follow_cons] at hfollow
      split at hfollow
      · cases hfollow
      · cases hfollow
      · next hdirectory =>
          have hother : location ≠ place := fun h => hplace (h ▸ hdirectory)
          rw [follow_cons, entry?_put hroot, if_neg hother, hdirectory]
          exact ih hfollow

-- =============================================================== writing

/-- What is found at the end of a path, or why nothing is. -/
def arrive (disk : Disk) (path : String) (location : Location) : Except Fault Location :=
  match disk.entry? location with
  | none => .error .notFound
  | some (.file _) => if wantsDirectory path then .error .notDirectory else .ok location
  | some .directory => .ok location

theorem locate_eq (disk : Disk) (path : String) : disk.locate path
    = if path.isEmpty then .error .notFound
      else (disk.follow [] (Path.parts path)).bind (disk.arrive path) := by
  unfold locate
  cases path.isEmpty with
  | true => rfl
  | false =>
      show (disk.follow [] (Path.parts path)).bind _ = _
      congr 1

theorem arrive_eq_ok_iff {location found : Location} : disk.arrive path location = .ok found
    ↔ location = found ∧ (disk.entry? location = some .directory
      ∨ wantsDirectory path = false
        ∧ ∃ content, disk.entry? location = some (.file content)) := by
  unfold arrive
  split
  · next hnone => simp [hnone]
  · next hfile => cases wantsDirectory path <;> simp [hfile]
  · next hdirectory => simp [hdirectory]

/-- A path leads to a location when it can be followed there, and there is what
the path asks for. -/
theorem locate_eq_ok_iff {location : Location} : disk.locate path = .ok location
    ↔ path.isEmpty = false ∧ disk.follow [] (Path.parts path) = .ok location
      ∧ (disk.entry? location = some .directory
        ∨ wantsDirectory path = false
          ∧ ∃ content, disk.entry? location = some (.file content)) := by
  rw [locate_eq]
  cases path.isEmpty with
  | true => simp
  | false =>
      cases disk.follow [] (Path.parts path) with
      | error fault => simp [Except.bind]
      | ok found =>
          simp only [Except.bind, arrive_eq_ok_iff, Except.ok.injEq, Bool.false_eq_true,
            if_false, true_and]
          constructor
          · rintro ⟨rfl, hentry⟩
            exact ⟨rfl, hentry⟩
          · rintro ⟨rfl, hentry⟩
            exact ⟨rfl, hentry⟩

/-- A path whose text can be read leads to a file with that text. -/
theorem locate_of_readText {text : List Char}
    (hread : disk.readText path = .ok text) : ∃ location,
      disk.locate path = .ok location ∧ disk.entry? location = some (.file (.text text)) := by
  unfold readText read at hread
  cases hlocate : disk.locate path with
  | error fault =>
      rw [hlocate] at hread
      cases hread
  | ok location =>
      refine ⟨location, rfl, ?_⟩
      rw [hlocate] at hread
      dsimp only [bind, Except.bind] at hread
      cases hentry : disk.entry? location with
      | none =>
          rw [hentry] at hread
          cases hread
      | some entry =>
          rw [hentry] at hread
          cases entry with
          | directory => cases hread
          | file content =>
              cases content with
              | binary bytes => cases hread
              | text chars => rw [Except.ok.inj hread]

/-- A name leads from a directory to a place in it. -/
theorem follow_name {directory : Location} {parent : String}
    (hparent : disk.locate parent = .ok directory)
    (hfile : ∀ content, disk.entry? directory ≠ some (.file content)) (name : String) :
    disk.follow [] (Path.parts parent ++ [.name name]) = .ok (directory ++ [name]) := by
  obtain ⟨-, hfollow, hentry⟩ := locate_eq_ok_iff.mp hparent
  have hdirectory : disk.entry? directory = some .directory :=
    hentry.resolve_right fun ⟨_, content, h⟩ => hfile content h
  rw [follow_append, hfollow]
  show disk.follow directory [.name name] = _
  rw [follow_cons, hdirectory]
  rfl

/-- Where a write that succeeds puts the file: where there is no directory, and
where its path leads. -/
theorem exists_place_of_write {content : Content} (hwrite : disk.write path content = .ok after) :
    ∃ place, after = disk.put place (.file content) ∧ disk.entry? place ≠ some .directory
      ∧ path.isEmpty = false ∧ wantsDirectory path = false
      ∧ disk.follow [] (Path.parts path) = .ok place := by
  unfold write at hwrite
  split at hwrite
  · next location hlocate =>
      obtain ⟨hsome, hfollow, hentry⟩ := locate_eq_ok_iff.mp hlocate
      split at hwrite
      · cases hwrite
      · next hfile =>
          obtain ⟨hwants, -⟩ := hentry.resolve_left hfile
          exact ⟨location, (Except.ok.inj hwrite).symm, hfile, hsome, hwants, hfollow⟩
  · next hlocate =>
      split at hwrite
      · next parent name hparent hname =>
          have hparts := Path.parts_eq_of_parent hparent hname
          have hsome : path.isEmpty = false := by
            by_contra hempty
            rw [Bool.not_eq_false, String.isEmpty_iff] at hempty
            subst hempty
            exact List.append_ne_nil_of_right_ne_nil _ (List.cons_ne_nil _ _) hparts.symm
          cases hwants : wantsDirectory path with
          | true =>
              rw [hwants] at hwrite
              cases hwrite
          | false =>
              rw [hwants] at hwrite
              cases hdirectory : disk.locate parent with
              | error fault =>
                  rw [hdirectory] at hwrite
                  cases hwrite
              | ok directory =>
                  rw [hdirectory] at hwrite
                  dsimp only [bind, Except.bind] at hwrite
                  rw [if_neg Bool.false_ne_true] at hwrite
                  split at hwrite
                  · cases hwrite
                  · next hfile =>
                      have hfollow := follow_name hdirectory hfile name
                      rw [← hparts] at hfollow
                      refine ⟨_, (Except.ok.inj hwrite).symm, ?_, hsome, rfl, hfollow⟩
                      intro hentry
                      rw [locate_eq_ok_iff.mpr ⟨hsome, hfollow, Or.inl hentry⟩] at hlocate
                      cases hlocate
      · cases hwrite
  · cases hwrite

/-- After a write the path leads to what was written, and to the place it led to
before, if it led anywhere. -/
theorem locate_of_write {content : Content} (hwrite : disk.write path content = .ok after) :
    ∃ place, place ≠ [] ∧ after = disk.put place (.file content)
      ∧ after.entry? place = some (.file content) ∧ after.locate path = .ok place
      ∧ ∀ location, disk.locate path = .ok location → location = place := by
  obtain ⟨place, rfl, hplace, hsome, hwants, hfollow⟩ := exists_place_of_write hwrite
  have hroot : place ≠ [] := fun h => hplace (h ▸ rfl)
  have hentry : entry? (disk.put place (.file content)) place = some (.file content) := by
    rw [entry?_put hroot, if_pos rfl]
  refine ⟨place, hroot, rfl, hentry, locate_eq_ok_iff.mpr
    ⟨hsome, follow_put hplace content hfollow, Or.inr ⟨hwants, content, hentry⟩⟩, ?_⟩
  intro location hfound
  obtain ⟨-, hthere, -⟩ := locate_eq_ok_iff.mp hfound
  exact Except.ok.inj (hthere.symm.trans hfollow)

/-- A written file is read as it was written. -/
theorem read_of_write {content : Content} (hwrite : disk.write path content = .ok after) :
    after.read path = .ok content := by
  obtain ⟨place, -, -, hentry, hlocate, -⟩ := locate_of_write hwrite
  unfold read
  rw [hlocate]
  dsimp only [bind, Except.bind]
  rw [hentry]
  rfl

/-- Whether a file can be written does not depend on what is written. -/
theorem exists_write {content : Content} (hwrite : disk.write path content = .ok after)
    (other : Content) : ∃ later, disk.write path other = .ok later := by
  unfold write at hwrite ⊢
  split at hwrite
  · split at hwrite
    · cases hwrite
    · exact ⟨_, rfl⟩
  · split at hwrite
    · next parent name hparent hname =>
        by_cases hwants : wantsDirectory path = true
        · rw [if_pos hwants] at hwrite
          cases hwrite
        · rw [if_neg hwants] at hwrite
          rw [if_neg hwants]
          cases hdirectory : disk.locate parent with
          | error fault =>
              rw [hdirectory] at hwrite
              cases hwrite
          | ok directory =>
              rw [hdirectory] at hwrite
              dsimp only [bind, Except.bind] at hwrite ⊢
              split at hwrite
              · cases hwrite
              · exact ⟨_, rfl⟩
    · cases hwrite
  · cases hwrite

/-- A written file can be written again. -/
theorem exists_write_again {content : Content} (hwrite : disk.write path content = .ok after)
    (more : Content) : ∃ later, after.write path more = .ok later := by
  obtain ⟨place, -, -, hentry, hlocate, -⟩ := locate_of_write hwrite
  unfold write
  simp only [hlocate, hentry]
  exact ⟨_, rfl⟩

-- ============================================================ the frame

/-- The disks differ at most in the file that a path leads to. -/
structure SameBut (path : String) (before after : Disk) : Prop where
  frame : ∀ location, after.locate path ≠ .ok location →
    after.entry? location = before.entry? location
  stays : ∀ location, before.locate path = .ok location → after.locate path = .ok location

theorem SameBut.refl (path : String) (disk : Disk) : SameBut path disk disk :=
  ⟨fun _ _ => rfl, fun _ hlocate => hlocate⟩

theorem SameBut.trans (hfirst : SameBut path before middle) (hmore : SameBut path middle after) :
    SameBut path before after where
  frame location hother := by
    rw [hmore.frame location hother]
    exact hfirst.frame location fun hlocate => hother (hmore.stays location hlocate)
  stays location hlocate := hmore.stays location (hfirst.stays location hlocate)

/-- Writing a file changes no other. -/
theorem sameBut_of_write {content : Content} (hwrite : disk.write path content = .ok after) :
    SameBut path disk after := by
  obtain ⟨place, hroot, hafter, -, hlocate, hstays⟩ := locate_of_write hwrite
  constructor
  · intro location hother
    have hplace : location ≠ place := by
      rintro rfl
      exact hother hlocate
    rw [hafter, entry?_put hroot, if_neg hplace]
  · intro location hfound
    rw [hlocate, hstays location hfound]

end Assay.Disk
