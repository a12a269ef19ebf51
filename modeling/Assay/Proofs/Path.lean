/-
The parts of a path. A path that ends in a name has the parts of its parent and
that name.

The parent is text, put together from segments, and its parts are read off that
text again. So the work is to see that segments survive being put together and
cut: `Pieces.Proper` says which segments can come from a cut, and
`parts_assemble` that those come back.
-/
import Assay.Path
import Assay.Proofs.Text.Search
import Mathlib.Data.List.DropRight

namespace Assay.Path

open Text

-- =============================================================== segments

/-- Segments as a cut leaves them: none holds a slash, and the first is not
taken for the lead of the path. -/
structure Pieces.Proper (cut : Pieces) : Prop where
  slashFree : ∀ segment ∈ cut.segments, ∀ c ∈ segment, (c == '/') = false
  lead : cut.lead = ['/'] ∨ (cut.lead = ['.'] ∧ ∀ first ∈ cut.segments.head?, first = [])
    ∨ (cut.lead = [] ∧ ∀ first ∈ cut.segments.head?, first ≠ [] ∧ first ≠ ['.'])

/-- Fewer segments are as proper. -/
theorem Pieces.Proper.of_prefix {lead : List Char} {segments before : List (List Char)}
    (proper : Pieces.Proper ⟨lead, segments⟩) (hbefore : before <+: segments) :
    Pieces.Proper ⟨lead, before⟩ := by
  have hhead : ∀ first ∈ before.head?, first ∈ segments.head? := by
    obtain ⟨more, rfl⟩ := hbefore
    intro first hfirst
    rw [List.head?_append, Option.mem_def.mp hfirst]
    rfl
  refine ⟨fun segment hmem => proper.slashFree segment (hbefore.subset hmem), ?_⟩
  rcases proper.lead with hroot | ⟨hhere, hfirst⟩ | ⟨hnone, hfirst⟩
  · exact Or.inl hroot
  · exact Or.inr (Or.inl ⟨hhere, fun first hmem => hfirst first (hhead first hmem)⟩)
  · exact Or.inr (Or.inr ⟨hnone, fun first hmem => hfirst first (hhead first hmem)⟩)

/-- What a path is cut into is proper. -/
theorem proper_pieces (path : String) : (pieces path).Proper := by
  unfold pieces
  split
  · exact ⟨fun segment hmem => free_of_mem_splitAt hmem, Or.inl rfl⟩
  · exact ⟨fun segment hmem => absurd hmem List.not_mem_nil,
      Or.inr (Or.inl ⟨rfl, fun first hmem => nomatch hmem⟩)⟩
  · refine ⟨fun segment hmem => free_of_mem_splitAt hmem, Or.inr (Or.inl ⟨rfl, ?_⟩)⟩
    intro first hmem
    exact (Option.some.inj hmem).symm
  · exact ⟨fun segment hmem => absurd hmem List.not_mem_nil,
      Or.inr (Or.inr ⟨rfl, fun first hmem => nomatch hmem⟩)⟩
  · next hslash hdot hhere hnone =>
      refine ⟨fun segment hmem => free_of_mem_splitAt hmem, Or.inr (Or.inr ⟨rfl, ?_⟩)⟩
      generalize path.toList = text at hslash hdot hhere hnone ⊢
      obtain ⟨c, more, rfl⟩ := List.exists_cons_of_ne_nil hnone
      have hc : (c == '/') = false := beq_eq_false_iff_ne.mpr fun h => hslash more (h ▸ rfl)
      obtain ⟨segment, segments, hmore, hsplit⟩ :=
        splitAt_cons (· == '/') hc more
      intro first hmem
      rw [hsplit] at hmem
      obtain rfl := Option.some.inj hmem
      refine ⟨List.cons_ne_nil _ _, fun hone => ?_⟩
      -- a lone dot in front would have been the lead
      obtain ⟨rfl, rfl⟩ := List.cons.inj hone
      cases more with
      | nil => exact hdot rfl
      | cons d more =>
          cases hd : (d == '/') with
          | true => exact hhere more (by rw [eq_of_beq hd])
          | false =>
              obtain ⟨segment, segments, -, hrest⟩ :=
                splitAt_cons (· == '/') hd more
              rw [hrest] at hmore
              cases hmore

/-- The segments that remain are the first ones. -/
theorem prefix_trimmedEnd (segments : List (List Char)) : trimmedEnd segments <+: segments :=
  List.rdropWhile_prefix isIdle segments

/-- The last segment that remains says something. -/
theorem isIdle_getLast_trimmedEnd {segments : List (List Char)} (hsome : trimmedEnd segments ≠ []) :
    isIdle ((trimmedEnd segments).getLast hsome) = false :=
  Bool.eq_false_iff.mpr (List.rdropWhile_last_not isIdle segments hsome)

/-- Taking idle segments off the end takes nothing off that says something. -/
theorem filter_trimmedEnd (segments : List (List Char)) :
    (trimmedEnd segments).filter (!isIdle ·) = segments.filter (!isIdle ·) := by
  have hsplit : trimmedEnd segments ++ segments.rtakeWhile isIdle = segments :=
    List.rdropWhile_append_rtakeWhile
  have hidle : (segments.rtakeWhile isIdle).filter (!isIdle ·) = [] := by
    rw [List.filter_eq_nil_iff]
    intro segment hmem
    simp [List.mem_rtakeWhile_imp hmem]
  conv_rhs => rw [← hsplit]
  rw [List.filter_append, hidle, List.append_nil]

-- ========================================================= put together

/-- A path that is put together from proper pieces, of which the last says
something, is cut into these pieces again. -/
theorem pieces_join {lead : List Char} {kept : List (List Char)}
    (proper : Pieces.Proper ⟨lead, kept⟩) (hsome : kept ≠ [])
    (hlast : isIdle (kept.getLast hsome) = false) :
    pieces (String.ofList (lead ++ join ['/'] kept)) = ⟨lead, kept⟩ := by
  have hsplit : splitAt (· == '/') (join ['/'] kept) = kept :=
    splitAt_join rfl hsome proper.slashFree
  obtain ⟨first, more, rfl⟩ := List.exists_cons_of_ne_nil hsome
  have hlead := proper.lead
  unfold pieces
  rw [String.toList_ofList]
  dsimp only at hlead
  rcases hlead with rfl | ⟨rfl, hfirst⟩ | ⟨rfl, hfirst⟩
  · exact congrArg (Pieces.mk ['/']) hsplit
  · obtain rfl : first = [] := hfirst first rfl
    cases more with
    | nil => cases hlast
    | cons next more => exact congrArg (Pieces.mk ['.']) hsplit
  · obtain ⟨hnonempty, hdot⟩ := hfirst first rfl
    obtain ⟨c, word, rfl⟩ := List.exists_cons_of_ne_nil hnonempty
    have hfree := proper.slashFree _ List.mem_cons_self
    -- the text goes on as the first segment does, so it shows no other lead
    obtain ⟨rest, hrest⟩ : ∃ rest, join ['/'] ((c :: word) :: more) = c :: (word ++ rest) := by
      cases more with
      | nil => exact ⟨[], (List.append_nil _).symm ▸ rfl⟩
      | cons next more => exact ⟨'/' :: join ['/'] (next :: more), by simp [join]⟩
    rw [List.nil_append]
    split
    · next body hbody =>
        rw [hrest] at hbody
        obtain ⟨rfl, -⟩ := List.cons.inj hbody
        cases hfree '/' List.mem_cons_self
    · next hbody =>
        rw [hrest] at hbody
        obtain ⟨rfl, hword⟩ := List.cons.inj hbody
        rw [(List.append_eq_nil_iff.mp hword).1] at hdot
        exact absurd rfl hdot
    · next body hbody =>
        rw [hrest] at hbody
        obtain ⟨rfl, hword⟩ := List.cons.inj hbody
        cases word with
        | nil => exact absurd rfl hdot
        | cons d word =>
            obtain ⟨rfl, -⟩ := List.cons.inj hword
            cases hfree '/' (List.mem_cons_of_mem _ List.mem_cons_self)
    · next hbody =>
        rw [hrest] at hbody
        cases hbody
    · exact congrArg (Pieces.mk []) hsplit

/-- A path that is put together from proper pieces is cut into their lead and,
but for idle ones, their segments. -/
theorem pieces_assemble {lead : List Char} {segments : List (List Char)}
    (proper : Pieces.Proper ⟨lead, segments⟩) :
    ∃ found, pieces (assemble lead segments) = ⟨lead, found⟩
      ∧ found.filter (!isIdle ·) = segments.filter (!isIdle ·) := by
  have hkept := proper.of_prefix (prefix_trimmedEnd segments)
  have hfilter := filter_trimmedEnd segments
  rw [assemble]
  by_cases hsome : trimmedEnd segments = []
  · rw [hsome] at hfilter ⊢
    have hlead := proper.lead
    dsimp only at hlead
    rcases hlead with rfl | ⟨rfl, -⟩ | ⟨rfl, -⟩
    · exact ⟨[[]], rfl, hfilter⟩
    · exact ⟨[], rfl, hfilter⟩
    · exact ⟨[], rfl, hfilter⟩
  · exact ⟨_, pieces_join hkept hsome (isIdle_getLast_trimmedEnd hsome), hfilter⟩

-- ============================================================ the parent

/-- The parts that the lead of a cut stands for. -/
def leadParts (lead : List Char) : List Part :=
  match lead with
  | ['/'] => [.root]
  | ['.'] => [.here]
  | _ => []

theorem parts_eq (path : String) : parts path = leadParts (pieces path).lead
    ++ ((pieces path).segments.filter (!isIdle ·)).map Part.ofSegment := rfl

/-- The lead is no name. -/
theorem name_ne_of_mem_leadParts {lead : List Char} {part : Part} (hmem : part ∈ leadParts lead)
    (name : String) : part ≠ .name name := by
  unfold leadParts at hmem
  split at hmem <;> simp at hmem <;> simp [hmem]

theorem fileName?_eq_some_iff {path name : String} :
    fileName? path = some name ↔ (parts path).getLast? = some (.name name) := by
  unfold fileName?
  split
  · next found hfound => rw [hfound, Option.some.injEq, Option.some.injEq, Part.name.injEq]
  · next hother => exact ⟨nofun, fun hlast => absurd hlast (hother name)⟩

/-- A path that ends in a name has the parts of its parent and that name. -/
theorem parts_eq_of_parent {path parent name : String} (hparent : parent? path = some parent)
    (hname : fileName? path = some name) : parts path = parts parent ++ [.name name] := by
  have hproper := proper_pieces path
  have hfilter := filter_trimmedEnd (pieces path).segments
  have hlast := fileName?_eq_some_iff.mp hname
  rw [parts_eq] at hlast ⊢
  unfold parent? at hparent
  generalize pieces path = cut at hproper hfilter hlast hparent ⊢
  obtain ⟨lead, segments⟩ := cut
  dsimp only at hfilter hlast hparent ⊢
  rw [← hfilter] at hlast ⊢
  cases hreverse : (trimmedEnd segments).reverse with
  | nil =>
      rw [List.reverse_eq_nil_iff.mp hreverse, List.filter_nil, List.map_nil, List.append_nil]
        at hlast
      exact absurd rfl (name_ne_of_mem_leadParts (List.mem_of_getLast? hlast) name)
  | cons last before =>
      have hkept : trimmedEnd segments = before.reverse ++ [last] := by
        rw [← List.reverse_reverse (trimmedEnd segments), hreverse, List.reverse_cons]
      have hbefore : before.reverse <+: segments :=
        (List.prefix_append _ _).trans (hkept ▸ prefix_trimmedEnd segments)
      have hbusy : isIdle last = false := by
        have hsome : trimmedEnd segments ≠ [] := by simp [hkept]
        simpa [hkept] using isIdle_getLast_trimmedEnd hsome
      obtain ⟨found, hpieces, hfound⟩ := pieces_assemble (hproper.of_prefix hbefore)
      rw [hreverse] at hparent
      obtain rfl := Option.some.inj hparent
      have hsingle : [last].filter (!isIdle ·) = [last] := by simp [hbusy]
      rw [hkept, List.filter_append, hsingle, List.map_append, ← List.append_assoc] at hlast ⊢
      rw [List.map_singleton, List.getLast?_concat] at hlast
      rw [parts_eq, hpieces, hfound, List.map_singleton, Option.some.inj hlast]

/-- A path that ends in a name has a parent. -/
theorem exists_parent {path name : String} (hname : fileName? path = some name) :
    ∃ parent, parent? path = some parent := by
  unfold parent?
  dsimp only
  split
  · exact ⟨_, rfl⟩
  · next hnone =>
      have hkept := List.reverse_eq_nil_iff.mp hnone
      have hlast := fileName?_eq_some_iff.mp hname
      rw [parts_eq, ← filter_trimmedEnd, hkept, List.filter_nil, List.map_nil, List.append_nil]
        at hlast
      exact absurd rfl (name_ne_of_mem_leadParts (List.mem_of_getLast? hlast) name)

/-- As many parts are dropped as there are segments that say something. -/
theorem dropParts_append {segments more : List (List Char)}
    (hbusy : ∀ segment ∈ segments, isIdle segment = false) :
    dropParts segments.length (segments ++ more) = more.dropWhile isIdle := by
  induction segments with
  | nil => cases more <;> rfl
  | cons segment segments ih =>
      obtain ⟨hsegment, hbusy⟩ := List.forall_mem_cons.mp hbusy
      rw [List.length_cons, List.cons_append, dropParts, hsegment]
      exact ih hbusy

-- ================================================================= names

/-- A name that can stand between slashes and is taken for a name there. -/
structure Plain (name : String) : Prop where
  busy : isIdle name.toList = false
  notUp : name.toList ≠ ['.', '.']
  slashFree : ∀ c ∈ name.toList, (c == '/') = false

variable {path name : String}

instance : Decidable (Plain name) :=
  decidable_of_iff (isIdle name.toList = false ∧ name.toList ≠ ['.', '.']
      ∧ (name.toList.all fun c => !(c == '/')) = true)
    ⟨fun h => ⟨h.1, h.2.1, by simpa using h.2.2⟩,
      fun h => ⟨h.busy, h.notUp, by simpa using h.slashFree⟩⟩

theorem Plain.ofSegment (hname : Plain name) : Part.ofSegment name.toList = .name name := by
  rw [Part.ofSegment, if_neg (by simpa using hname.notUp), String.ofList_toList]

/-- The names in a path are plain. -/
theorem plain_of_mem_parts (hmem : Part.name name ∈ parts path) : Plain name := by
  rw [parts_eq] at hmem
  rcases List.mem_append.mp hmem with hlead | hsegment
  · exact absurd rfl (name_ne_of_mem_leadParts hlead name)
  · obtain ⟨segment, hfiltered, hpart⟩ := List.mem_map.mp hsegment
    obtain ⟨hcut, hbusy⟩ := List.mem_filter.mp hfiltered
    unfold Part.ofSegment at hpart
    split at hpart
    · cases hpart
    · next hup =>
        obtain rfl := Part.name.inj hpart
        refine ⟨?_, ?_, ?_⟩ <;> rw [String.toList_ofList]
        · simpa using hbusy
        · simpa using hup
        · exact (proper_pieces path).slashFree segment hcut

theorem plain_fileName? (hname : fileName? path = some name) : Plain name :=
  plain_of_mem_parts (List.mem_of_getLast? (fileName?_eq_some_iff.mp hname))

/-- The stem of a path is spelled with characters of its name. -/
theorem slashFree_stem? {stem : String} (hstem : stem? path = some stem) :
    ∀ c ∈ stem.toList, (c == '/') = false := by
  obtain ⟨name, hname, rfl⟩ := Option.map_eq_some_iff.mp hstem
  intro c hmem
  refine (plain_fileName? hname).slashFree c ?_
  rw [String.toList_ofList] at hmem
  unfold splitName at hmem
  dsimp only at hmem
  split at hmem
  · exact hmem
  · rw [List.mem_reverse] at hmem
    exact List.mem_reverse.mp ((List.drop_sublist _ _).subset hmem)

/-- A name is cut at its last dot, unless it begins with that one. -/
theorem splitName_of_dot {name : String} {stem suffix : List Char}
    (hname : name.toList = stem ++ '.' :: suffix) (hsuffix : '.' ∉ suffix) :
    splitName name = if stem.isEmpty then (name.toList, none) else (stem, some suffix) := by
  have hreverse : name.toList.reverse = suffix.reverse ++ '.' :: stem.reverse := by
    rw [hname, List.reverse_append, List.reverse_cons, List.append_assoc]
    rfl
  have htake : name.toList.reverse.takeWhile (· ≠ '.') = suffix.reverse := by
    rw [hreverse]
    refine takeWhile_stretch (fun c hc => ?_) fun c hc => ?_
    · rw [decide_eq_true_eq]
      rintro rfl
      exact hsuffix (List.mem_reverse.mp hc)
    · obtain rfl := Option.some.inj hc
      rfl
  have hdrop : name.toList.reverse.drop (suffix.reverse.length + 1) = stem.reverse := by
    rw [hreverse, ← List.drop_drop, List.drop_left]
    rfl
  unfold splitName
  dsimp only
  rw [htake, hdrop, List.reverse_reverse, List.reverse_reverse]

/-- A name without a dot is not cut. -/
theorem splitName_of_notMem {name : String} (hfree : '.' ∉ name.toList) :
    splitName name = (name.toList, none) := by
  have htake : name.toList.reverse.takeWhile (· ≠ '.') = name.toList.reverse :=
    List.takeWhile_eq_self_iff.mpr fun c hc => by
      rw [decide_eq_true_eq]
      rintro rfl
      exact hfree (List.mem_reverse.mp hc)
  unfold splitName
  dsimp only
  rw [htake, List.drop_of_length_le (Nat.le_succ _)]
  rfl

/-- A name has an extension when there is a last dot with something in front of
it. -/
theorem splitName_eq_iff {name : String} {stem suffix : List Char} :
    splitName name = (stem, some suffix)
      ↔ stem ≠ [] ∧ name.toList = stem ++ '.' :: suffix ∧ '.' ∉ suffix := by
  constructor
  · intro hsplit
    by_cases hdot : '.' ∈ name.toList.reverse
    · obtain ⟨back, front, hreverse, hfree⟩ := List.eq_append_cons_of_mem hdot
      have hname : name.toList = front.reverse ++ '.' :: back.reverse := by
        rw [← List.reverse_inj, hreverse]
        simp
      have hback : '.' ∉ back.reverse := fun hmem => hfree (List.mem_reverse.mp hmem)
      rw [splitName_of_dot hname hback] at hsplit
      split at hsplit
      · cases hsplit
      · next hstem =>
          obtain ⟨rfl, hsuffix⟩ := Prod.mk.inj hsplit
          obtain rfl := Option.some.inj hsuffix
          exact ⟨fun hnil => hstem (List.isEmpty_iff.mpr hnil), hname, hback⟩
    · rw [splitName_of_notMem fun hmem => hdot (List.mem_reverse.mpr hmem)] at hsplit
      cases hsplit
  · rintro ⟨hstem, hname, hsuffix⟩
    rw [splitName_of_dot hname hsuffix, if_neg (by simpa using hstem)]

theorem parts_of_plain (hname : Plain name) : parts name = [.name name] := by
  have hpieces : pieces name = ⟨[], [name.toList]⟩ := by
    have hproper : Pieces.Proper ⟨[], [name.toList]⟩ := by
      refine ⟨fun segment hmem => List.mem_singleton.mp hmem ▸ hname.slashFree,
        Or.inr (Or.inr ⟨rfl, fun first hfirst => ?_⟩)⟩
      obtain rfl := Option.some.inj hfirst
      have hbusy := hname.busy
      constructor <;> intro h <;> rw [h] at hbusy <;> cases hbusy
    have hjoin := pieces_join hproper (List.cons_ne_nil _ _) hname.busy
    rwa [join, List.nil_append, String.ofList_toList] at hjoin
  rw [parts_eq, hpieces]
  simp [leadParts, hname.busy, hname.ofSegment]

@[simp]
theorem isIdle_nil : isIdle [] = true := rfl

/-- A path goes on after a slash. -/
theorem parts_slash {text : List Char} (hsome : text ≠ []) (more : List Char) :
    parts (String.ofList (text ++ '/' :: more)) = parts (String.ofList text)
      ++ ((splitAt (· == '/') more).filter (!isIdle ·)).map Part.ofSegment := by
  have hsplit (text : List Char) : splitAt (· == '/') (text ++ '/' :: more)
      = splitAt (· == '/') text ++ splitAt (· == '/') more := splitAt_append text rfl more
  have hcons (c : Char) (text : List Char) : splitAt (· == '/') (c :: (text ++ '/' :: more))
      = splitAt (· == '/') (c :: text) ++ splitAt (· == '/') more := hsplit (c :: text)
  obtain ⟨c, body, rfl⟩ := List.exists_cons_of_ne_nil hsome
  -- the cut looks at the first two characters for the lead
  by_cases hroot : c = '/'
  · subst hroot
    simp [parts, pieces, hsplit]
  · by_cases hdot : c = '.'
    · subst hdot
      cases body with
      | nil =>
          have hfirst : splitAt (· == '/') ('/' :: more) = [] :: splitAt (· == '/') more := rfl
          simp [parts, pieces, hfirst]
      | cons d body =>
          have hcons := hcons '.' (d :: body)
          rw [List.cons_append] at hcons
          by_cases hslash : d = '/'
          · subst hslash
            simp [parts, pieces, hsplit, splitAt]
          · simp [parts, pieces, hslash, hcons]
    · simp [parts, pieces, hroot, hdot, hcons]

/-- An absolute path put after another takes its place. -/
theorem push_absolute {more : String} (habsolute : isAbsolute more = true) (path : String) :
    push path more = more := by
  rw [push, habsolute, Bool.true_or, if_pos rfl]

/-- A name that is put at the end of a path is its last part. -/
theorem parts_push (hname : Plain name) (path : String) :
    parts (push path name) = parts path ++ [.name name] := by
  have hrelative : isAbsolute name = false := by
    unfold isAbsolute
    have hfree := hname.slashFree
    cases htext : name.toList with
    | nil => rfl
    | cons c text =>
        rw [htext] at hfree
        simpa using hfree c List.mem_cons_self
  have hlast : ((splitAt (· == '/') name.toList).filter (!isIdle ·)).map Part.ofSegment
      = [.name name] := by
    simp [splitAt_free hname.slashFree, hname.busy, hname.ofSegment]
  unfold push
  rw [hrelative, Bool.false_or]
  split
  · next hempty =>
      obtain rfl : path = "" := by simpa using hempty
      exact parts_of_plain hname
  · next hsome =>
      have hpath : path.toList ≠ [] := by simpa using hsome
      split
      · next hends =>
          obtain ⟨text, htext⟩ := endsWith_iff.mp hends
          obtain rfl : path = String.ofList (text ++ ['/']) := by
            rw [← htext, String.ofList_toList]
          have hwhole : String.ofList (text ++ ['/']) ++ name
              = String.ofList (text ++ '/' :: name.toList) := by
            rw [← String.toList_inj]
            simp
          rw [hwhole]
          cases text with
          | nil =>
              simp [parts, pieces, splitAt_free hname.slashFree, hname.busy, hname.ofSegment,
                splitAt]
          | cons c text =>
              rw [parts_slash (List.cons_ne_nil _ _), parts_slash (List.cons_ne_nil _ _), hlast]
              simp [splitAt]
      · have hwhole : path ++ "/" ++ name
            = String.ofList (path.toList ++ '/' :: name.toList) := by
          rw [← String.toList_inj]
          simp
        rw [hwhole, parts_slash hpath, hlast, String.ofList_toList]

-- ============================================================ the last name

variable {last : String}

/-- Another last name leaves the parts before it. -/
theorem parts_withFileName (hlast : fileName? path = some last) (hname : Plain name) :
    parts (withFileName path name) = (parts path).dropLast ++ [.name name] := by
  obtain ⟨parent, hparent⟩ := exists_parent hlast
  unfold withFileName
  rw [hlast, hparent]
  dsimp only
  rw [parts_push hname, parts_eq_of_parent hparent hlast, List.dropLast_concat]

theorem fileName?_withFileName (hlast : fileName? path = some last) (hname : Plain name) :
    fileName? (withFileName path name) = some name := by
  rw [fileName?_eq_some_iff, parts_withFileName hlast hname, List.getLast?_concat]

/-- The name that another has replaced can be put back. -/
theorem same_withFileName_back (hlast : fileName? path = some last) (hname : Plain name) :
    same (withFileName (withFileName path name) last) path = true := by
  rw [same, beq_iff_eq,
    parts_withFileName (fileName?_withFileName hlast hname) (plain_fileName? hlast),
    parts_withFileName hlast hname, List.dropLast_concat]
  exact List.dropLast_append_getLast? _ (fileName?_eq_some_iff.mp hlast)

/-- Two paths lead into one directory. -/
def Beside (path other : String) : Prop := ∃ directory there,
  parent? path = some directory ∧ parent? other = some there ∧ same directory there = true

/-- Another last name stays in the directory. -/
theorem beside_withFileName (hlast : fileName? path = some last) (hname : Plain name) :
    Beside path (withFileName path name) := by
  have hnew := fileName?_withFileName hlast hname
  obtain ⟨directory, hdirectory⟩ := exists_parent hlast
  obtain ⟨there, hthere⟩ := exists_parent hnew
  refine ⟨directory, there, hdirectory, hthere, ?_⟩
  have hparts := parts_withFileName hlast hname
  rw [parts_eq_of_parent hthere hnew, parts_eq_of_parent hdirectory hlast,
    List.dropLast_concat] at hparts
  rw [same, beq_iff_eq]
  exact (List.append_cancel_right hparts).symm

end Assay.Path
