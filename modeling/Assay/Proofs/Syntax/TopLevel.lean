/-
What a parsed file holds at its top level: declarations, statements and
comments, one after the other. They come in the order of the source, none
overlaps another, and each but a comment begins and ends with a visible
character. So what is said about places in the source can be said about the
nodes, and the other way round.
-/
import Assay.Proofs.Syntax.Productions
import Assay.Proofs.Syntax.Tiling

namespace Assay.Syntax

open Reader Grammar Text

-- ============================================================== clauses

/-- Where the package clauses among trees begin. -/
def clauseStarts (trees : List Tree) : List Nat :=
  (trees.filter (·.kind == .packageClause)).map (·.start)

/-- Where the words stand that begin a package clause. -/
def clauseWords (tokens : List Token) : List Nat :=
  (tokens.filter (·.tag == .keyword .packageKey)).map (·.start)

theorem clauseWords_append (first more : List Token) :
    clauseWords (first ++ more) = clauseWords first ++ clauseWords more := by
  rw [clauseWords, List.filter_append, List.map_append]
  rfl

theorem clauseWords_eq_nil {tokens : List Token} (hnone : Interior tokens) :
    clauseWords tokens = [] := by
  rw [clauseWords, List.filter_eq_nil_iff.mpr fun token hmem => ?_]
  · rfl
  · rw [beq_iff_eq]
    exact (hnone token hmem).2

-- ================================================================ items

/-- A tree covers a stretch of tokens in which nothing is stray, and the word that
begins a package clause is in it only if the tree is one. -/
structure Spans (taken : List Token) (tree : Tree) : Prop where
  solid : IsSolid taken
  proper : ∀ token ∈ taken, token.tag ≠ .stray
  start : ∃ first ∈ taken.head?, tree.start = first.start
  stop : ∃ last ∈ taken.getLast?, tree.stop = last.stop
  clause : clauseStarts [tree] = clauseWords taken

theorem spans_of_answers {reader : Reader Tree} [firm : Firm reader] [covers : Covers reader]
    {before after : Cursor} {tree : Tree} (answers : reader.Answers before tree after) :
    ∃ taken, before.Passes taken after ∧ Spans taken tree := by
  obtain ⟨taken, passes, hinterior, hsolid⟩ := firm.taken answers
  obtain ⟨hstart, hstop, hinner⟩ := covers.covered answers
  refine ⟨taken, passes, hsolid, fun token hmem => (hinterior token hmem).1, ?_, ?_, ?_⟩
  · cases taken with
    | nil => exact absurd rfl hsolid.2
    | cons first taken =>
        refine ⟨first, rfl, ?_⟩
        rw [hstart, Cursor.here, passes.tokens]
        rfl
  · have hlast := List.getLast?_eq_some_getLast hsolid.2
    refine ⟨_, hlast, ?_⟩
    rw [hstop, passes.last, hlast]
    rfl
  · have hother : (tree.kind == .packageClause) = false := by
      rw [beq_eq_false_iff_ne]
      intro hclause
      rw [hclause] at hinner
      cases hinner
    rw [clauseWords_eq_nil hinterior, clauseStarts, List.filter_cons, hother]
    rfl

/-- A package clause covers its word and its name. -/
theorem spans_packageClause {before after : Cursor} {tree : Tree}
    (answers : packageClause.Answers before tree after) :
    ∃ taken, before.Passes taken after ∧ Spans taken tree := by
  obtain ⟨word, name, hword, hname, passes, children, rfl⟩ := answers_packageClause answers
  have hinner := isInner_of_isName hname
  have hneat : IsSolid [word] := isSolid_singleton (hword ▸ ⟨nofun, nofun⟩)
  have hproper : ∀ token ∈ [word, name], token.tag ≠ .stray :=
    List.forall_mem_cons.mpr ⟨hword ▸ nofun, List.forall_mem_singleton.mpr hinner.1.2⟩
  refine ⟨_, passes, hneat.append_right (isSolid_singleton hinner.1).1, hproper,
    ⟨word, rfl, rfl⟩, ⟨name, rfl, rfl⟩, ?_⟩
  rw [show [word, name] = [word] ++ [name] from rfl, clauseWords_append,
    clauseWords_eq_nil (interior_singleton ⟨hinner.1.2, hinner.2⟩), clauseWords, List.filter_cons, hword]
  rfl

theorem spans_fileDeclaration {sub : Descent} [∀ goal, Firm (sub goal)] {before after : Cursor}
    {tree : Tree} (answers : (fileDeclaration sub).Answers before tree after) :
    ∃ taken, before.Passes taken after ∧ Spans taken tree := by
  obtain ⟨tag, middle, htag, hmore⟩ := answers_bind answers
  obtain rfl := Looks.stays htag
  obtain ⟨tag', middle, htag', hbranch⟩ := answers_bind hmore
  obtain rfl := Looks.stays htag'
  split at hbranch
  · exact spans_packageClause hbranch
  · exact spans_of_answers hbranch
  · exact spans_of_answers hbranch
  · exact spans_of_answers hbranch
  · exact absurd hbranch not_answers_failure

/-- A tree is answered after a terminator has been passed. -/
private theorem passes_terminator {α : Type} {ending : Reader α} [moves : Moves ending]
    {tree item : Tree} {before after : Cursor}
    (answers : (do let _ ← ending; return tree : Reader Tree).Answers before item after) :
    item = tree ∧ ∃ more, before.tokens = more ++ after.tokens ∧ Interior more := by
  obtain ⟨ended, last, hended, hpure⟩ := answers_bind answers
  obtain ⟨rfl, rfl⟩ := answers_pure hpure
  obtain ⟨more, passes, hinterior⟩ := moves.taken hended
  exact ⟨rfl, more, passes.tokens, hinterior⟩

/-- An item of a file covers the tokens it begins with; a terminator may
follow. -/
theorem spans_fileItem {depth : Nat} {before after : Cursor} {item : Tree}
    (answers : (fileItem (descend depth)).Answers before item after) :
    ∃ taken more, before.tokens = taken ++ more ++ after.tokens ∧ Spans taken item
      ∧ Interior more := by
  have hspans {middle : Cursor} {tree : Tree}
      (htree : ∃ taken, before.Passes taken middle ∧ Spans taken tree)
      (hmore : item = tree ∧ ∃ more, middle.tokens = more ++ after.tokens ∧ Interior more) :
      ∃ taken more, before.tokens = taken ++ more ++ after.tokens ∧ Spans taken item
        ∧ Interior more := by
    obtain ⟨rfl, more, hmiddle, hinterior⟩ := hmore
    obtain ⟨taken, passes, hspans⟩ := htree
    exact ⟨taken, more, by rw [passes.tokens, hmiddle, List.append_assoc], hspans, hinterior⟩
  rcases answers_orElse answers with hfile | hother
  · obtain ⟨declaration, middle, hdeclaration, hmore⟩ := answers_bind hfile
    exact hspans (spans_fileDeclaration hdeclaration) (passes_terminator hmore)
  · obtain ⟨statement, middle, hstatement, hmore⟩ := answers_bind hother
    dsimp only at hmore
    split at hmore
    · exact hspans (spans_of_answers hstatement) (passes_terminator hmore)
    · exact hspans (spans_of_answers hstatement) (passes_terminator hmore)

/-- Tokens in order, each with characters of its own. -/
structure Ordered (tokens : List Token) : Prop where
  apart : tokens.Pairwise (·.stop ≤ ·.start)
  some : ∀ token ∈ tokens, token.start < token.stop

theorem ordered_append {first more : List Token} :
    Ordered (first ++ more) ↔ Ordered first ∧ Ordered more
      ∧ ∀ token ∈ first, ∀ later ∈ more, token.stop ≤ later.start := by
  constructor
  · rintro ⟨hapart, hsome⟩
    obtain ⟨hfirst, hmore, hbetween⟩ := List.pairwise_append.mp hapart
    obtain ⟨hfirst', hmore'⟩ := List.forall_mem_append.mp hsome
    exact ⟨⟨hfirst, hfirst'⟩, ⟨hmore, hmore'⟩, hbetween⟩
  · rintro ⟨⟨hfirst, hfirst'⟩, ⟨hmore, hmore'⟩, hbetween⟩
    exact ⟨List.pairwise_append.mpr ⟨hfirst, hmore, hbetween⟩,
      List.forall_mem_append.mpr ⟨hfirst', hmore'⟩⟩

/-- A tree begins with a solid token and ends with one. -/
structure Bounded (tokens : List Token) (tree : Tree) : Prop where
  start : ∃ first ∈ tokens, first.tag.IsSolid ∧ tree.start = first.start
  stop : ∃ last ∈ tokens, last.tag.IsSolid ∧ tree.stop = last.stop
  some : tree.start < tree.stop

theorem Spans.bounded {taken : List Token} {tree : Tree} (spans : Spans taken tree)
    (ordered : Ordered taken) : Bounded taken tree := by
  obtain ⟨⟨⟨hbegins, hends⟩, hsome⟩, -, ⟨first, hfirst, hstart⟩, ⟨last, hlast, hstop⟩, -⟩ := spans
  have hmem := List.mem_of_mem_head? hfirst
  have hmem' := List.mem_of_mem_getLast? hlast
  refine ⟨⟨first, hmem, hbegins first hfirst, hstart⟩, ⟨last, hmem', hends last hlast, hstop⟩, ?_⟩
  rw [hstart, hstop]
  have hshort := ordered.some first hmem
  cases taken with
  | nil => exact absurd rfl hsome
  | cons token taken =>
      obtain rfl := Option.some.inj hfirst
      rcases List.mem_cons.mp hmem' with rfl | hlater
      · exact hshort
      · have hbetween := List.rel_of_pairwise_cons ordered.apart hlater
        have hlong := ordered.some last hmem'
        omega

theorem Bounded.mono {tokens more : List Token} {tree : Tree} (bounded : Bounded tokens tree)
    (hsub : tokens ⊆ more) : Bounded more tree :=
  ⟨bounded.start.imp fun _ => And.imp_left (@hsub _),
    bounded.stop.imp fun _ => And.imp_left (@hsub _), bounded.some⟩

/-- Items are read one after the other. -/
theorem bounded_items {depth : Nat} {before after : Cursor} {items : List Tree}
    (repeats : Repeats (fileItem (descend depth)) before items after)
    (ordered : Ordered before.tokens) :
    items.Pairwise (·.stop ≤ ·.start) ∧ ∀ item ∈ items, Bounded before.tokens item := by
  induction repeats with
  | nil => exact ⟨.nil, nofun⟩
  | cons hitem _ ih =>
      obtain ⟨taken, more, htokens, hspans, -⟩ := spans_fileItem hitem
      rw [htokens] at ordered ⊢
      obtain ⟨hfront, hrest, hbetween⟩ := ordered_append.mp ordered
      obtain ⟨htaken, -, -⟩ := ordered_append.mp hfront
      obtain ⟨hpairwise, hbounded⟩ := ih hrest
      have hfirst := hspans.bounded htaken
      refine ⟨List.pairwise_cons.mpr ⟨fun later hmem => ?_, hpairwise⟩,
        List.forall_mem_cons.mpr ⟨hfirst.mono (by simp), fun later hmem =>
          (hbounded later hmem).mono (by simp)⟩⟩
      obtain ⟨token, htoken, -, hstop⟩ := hfirst.stop
      obtain ⟨token', htoken', -, hstart⟩ := (hbounded later hmem).start
      rw [hstop, hstart]
      exact hbetween token (List.mem_append_left _ htoken) token' htoken'

/-- The items of a file are read one after the other until no token is left. -/
theorem repeats_readItems {tokens : List Token} {items : List Tree}
    (hread : (readItems tokens).1 = some items) :
    ∃ depth after, Repeats (fileItem (descend depth)) ⟨tokens, 0⟩ items after
      ∧ after.tokens = [] := by
  unfold readItems at hread
  dsimp only at hread
  split at hread
  · next found cursor reached hrun =>
      split at hread
      · next hnone =>
          obtain rfl := Option.some.inj hread
          obtain ⟨rounds, middle, hleft, hitems⟩ := answers_bind ⟨0, reached, hrun⟩
          obtain rfl := Looks.stays hleft
          exact ⟨_, cursor, repeats_of_answers hitems, List.isEmpty_iff.mp hnone⟩
      · cases hread
  · cases hread

/-- The items that tokens make. -/
theorem bounded_readItems {tokens : List Token} {items : List Tree}
    (hread : (readItems tokens).1 = some items) (ordered : Ordered tokens) :
    items.Pairwise (·.stop ≤ ·.start) ∧ ∀ item ∈ items, Bounded tokens item := by
  obtain ⟨depth, after, hitems, -⟩ := repeats_readItems hread
  exact bounded_items hitems ordered

-- ================================================ line breaks passed over

/-- Tokens from which line breaks may be missing, and nothing else. -/
structure Unbroken (tokens left : List Token) : Prop where
  sublist : left.Sublist tokens
  others : left.filter (·.tag != .lineBreak) = tokens.filter (·.tag != .lineBreak)

theorem Unbroken.refl (tokens : List Token) : Unbroken tokens tokens := ⟨.refl tokens, rfl⟩

theorem Unbroken.trans {tokens left less : List Token} (hleft : Unbroken tokens left)
    (hless : Unbroken left less) : Unbroken tokens less :=
  ⟨hless.sublist.trans hleft.sublist, hless.others.trans hleft.others⟩

/-- What is passed over is one line break. -/
theorem unbroken_of_passOver? {reading : Reading} {left : List Token}
    (hpass : reading.passOver? = some left) : Unbroken reading.tokens left := by
  unfold Reading.passOver? at hpass
  dsimp only at hpass
  split at hpass
  · next token htoken =>
      split at hpass
      · next hbreak =>
          obtain rfl := Option.some.inj hpass
          have htag : token.tag = .lineBreak := of_decide_eq_true (Bool.and_eq_true_iff.mp hbreak).1
          generalize reading.place = place at htoken ⊢
          obtain ⟨hplace, rfl⟩ := List.getElem?_eq_some_iff.mp htoken
          refine ⟨List.eraseIdx_sublist _ _, ?_⟩
          conv => rhs; rw [← List.take_append_drop place reading.tokens]
          rw [List.eraseIdx_eq_take_drop_succ, List.drop_eq_getElem_cons hplace,
            List.filter_append, List.filter_append, List.filter_cons, htag]
          rfl
      · cases hpass
  · cases hpass

/-- A file is read from what is left of its tokens. -/
theorem unbroken_readPassing (rounds : Nat) (tokens : List Token) :
    Unbroken tokens (readPassing rounds tokens).tokens
      ∧ (readPassing rounds tokens).items = (readItems (readPassing rounds tokens).tokens).1 := by
  induction rounds generalizing tokens with
  | zero => exact ⟨.refl tokens, rfl⟩
  | succ rounds ih =>
      rw [readPassing]
      split
      · next items reached hread => exact ⟨.refl tokens, by rw [hread]⟩
      · next reached hread =>
          split
          · next others hpass =>
              exact ⟨(unbroken_of_passOver? hpass).trans (ih others).1, (ih others).2⟩
          · exact ⟨.refl tokens, by rw [hread]⟩

theorem exists_readItems_of_readFile {tokens : List Token} {items : List Tree}
    (hread : (readFile tokens).items = some items) :
    ∃ left, Unbroken tokens left ∧ (readItems left).1 = some items := by
  obtain ⟨hleft, hitems⟩ := unbroken_readPassing tokens.length tokens
  exact ⟨_, hleft, hitems.symm.trans hread⟩

theorem Unbroken.ordered {tokens left : List Token} (hleft : Unbroken tokens left)
    (ordered : Ordered tokens) : Ordered left :=
  ⟨ordered.apart.sublist hleft.sublist, fun token hmem =>
    ordered.some token (hleft.sublist.subset hmem)⟩

/-- A token that is no line break is not passed over. -/
theorem Unbroken.mem {tokens left : List Token} (hleft : Unbroken tokens left) {token : Token}
    (hmem : token ∈ tokens) (hother : token.tag ≠ .lineBreak) : token ∈ left := by
  have hkept : token ∈ left.filter (·.tag != .lineBreak) := by
    rw [hleft.others]
    exact List.mem_filter.mpr ⟨hmem, bne_iff_ne.mpr hother⟩
  exact List.mem_of_mem_filter hkept

/-- No word that begins a clause is passed over. -/
theorem Unbroken.clauseWords_eq {tokens left : List Token} (hleft : Unbroken tokens left) :
    clauseWords left = clauseWords tokens := by
  have hwords (tokens : List Token) :
      clauseWords tokens = clauseWords (tokens.filter (·.tag != .lineBreak)) := by
    rw [clauseWords, clauseWords, List.filter_filter]
    congr 1
    refine List.filter_congr fun token _ => ?_
    by_cases hclause : token.tag = .keyword .packageKey
    · rw [hclause]
      rfl
    · rw [beq_eq_false_iff_ne.mpr hclause, Bool.false_and]
  rw [hwords, hleft.others, ← hwords]

/-- The items of a file. -/
theorem bounded_readFile {tokens : List Token} {items : List Tree}
    (hread : (readFile tokens).items = some items) (ordered : Ordered tokens) :
    items.Pairwise (·.stop ≤ ·.start) ∧ ∀ item ∈ items, Bounded tokens item := by
  obtain ⟨left, hleft, hitems⟩ := exists_readItems_of_readFile hread
  obtain ⟨hpairwise, hbounded⟩ := bounded_readItems hitems (hleft.ordered ordered)
  exact ⟨hpairwise, fun item hmem => (hbounded item hmem).mono hleft.sublist.subset⟩

-- ============================================================== comments

/-- A comment does not cross the ends of a tree. -/
def Clear (comment : Lexer.Piece) (tree : Tree) : Prop :=
  comment.stop ≤ tree.start ∨ surrounds tree comment = true ∨ tree.stop ≤ comment.start

/-- Comments that come in order, each with characters of its own. -/
structure Commented (comments : List Lexer.Piece) : Prop where
  apart : comments.Pairwise (·.stop ≤ ·.start)
  some : ∀ comment ∈ comments, comment.start < comment.stop

theorem Commented.sublist {comments fewer : List Lexer.Piece} (commented : Commented comments)
    (hsub : fewer.Sublist comments) : Commented fewer :=
  ⟨commented.apart.sublist hsub, fun comment hmem => commented.some comment (hsub.subset hmem)⟩

/-- What is left of the comments begins with one that does not fit, and all
others come after that one. -/
theorem Commented.dropWhile {comments : List Lexer.Piece} (commented : Commented comments)
    {fits : Lexer.Piece → Bool} {comment : Lexer.Piece}
    (hmem : comment ∈ comments.dropWhile fits) :
    ∃ first ∈ comments, fits first = false ∧ first.start ≤ comment.start := by
  have hrest := commented.sublist (List.dropWhile_sublist fits)
  have hhead := List.head?_dropWhile_not fits comments
  cases hdrop : comments.dropWhile fits with
  | nil =>
      rw [hdrop] at hmem
      cases hmem
  | cons first rest =>
      have hfirst := (List.dropWhile_sublist fits).subset (hdrop ▸ List.mem_cons_self)
      rw [hdrop] at hmem hrest hhead
      refine ⟨first, hfirst, hhead, ?_⟩
      rcases List.mem_cons.mp hmem with rfl | hlater
      · exact Nat.le_refl _
      · have hbetween := List.rel_of_pairwise_cons hrest.apart hlater
        have hshort := commented.some first hfirst
        omega

theorem label_attach (comments : List Lexer.Piece) (tree : Tree) :
    (attach comments tree).label = tree.label := by
  cases tree
  rw [attach]
  rfl

/-- What stands at the top level is a comment or one of the items. -/
theorem mem_attachAll {comments : List Lexer.Piece} {items : List Tree} {node : Tree}
    (hmem : node ∈ attachAll comments items) :
    (∃ comment ∈ comments, node = commentNode comment) ∨ ∃ item ∈ items, node.label = item.label := by
  induction items generalizing comments with
  | nil =>
      rw [attachAll] at hmem
      obtain ⟨comment, hcomment, rfl⟩ := List.mem_map.mp hmem
      exact .inl ⟨comment, hcomment, rfl⟩
  | cons tree trees ih =>
      rw [attachAll] at hmem
      rcases List.mem_append.mp hmem with hbefore | hrest
      · obtain ⟨comment, hcomment, rfl⟩ := List.mem_map.mp hbefore
        exact .inl ⟨comment, (List.takeWhile_sublist _).subset hcomment, rfl⟩
      · rcases List.mem_cons.mp hrest with rfl | hlater
        · exact .inr ⟨tree, List.mem_cons_self, label_attach _ _⟩
        · rcases ih hlater with ⟨comment, hcomment, rfl⟩ | ⟨item, hitem, hlabel⟩
          · have hkept := (List.dropWhile_sublist _).subset hcomment
            exact .inl ⟨comment, (List.dropWhile_sublist _).subset hkept, rfl⟩
          · exact .inr ⟨item, List.mem_cons_of_mem tree hitem, hlabel⟩

/-- A comment that begins before an item ends before it. -/
theorem Clear.stop_le {comment : Lexer.Piece} {tree : Tree} (clear : Clear comment tree)
    (hsome : tree.start < tree.stop) (hearly : comment.start < tree.start) :
    comment.stop ≤ tree.start := by
  rcases clear with hstop | hinside | hstart
  · exact hstop
  · have hstart := of_decide_eq_true (Bool.and_eq_true_iff.mp hinside).1
    omega
  · omega

/-- The comments after the ones in an item begin after the item. -/
theorem le_start_of_mem_dropWhile {comments : List Lexer.Piece} {tree : Tree}
    (commented : Commented comments) (hclear : ∀ comment ∈ comments, Clear comment tree)
    {comment : Lexer.Piece} (hmem : comment ∈ (comments.dropWhile (·.start < tree.start)).dropWhile
      (surrounds tree)) : tree.stop ≤ comment.start := by
  have hrest := commented.sublist (List.dropWhile_sublist (·.start < tree.start))
  obtain ⟨first, hfirst, houtside, hle⟩ := hrest.dropWhile hmem
  obtain ⟨earliest, -, hlate, hle'⟩ := commented.dropWhile hfirst
  have hcomment := (List.dropWhile_sublist _).subset hfirst
  have hlate : ¬ earliest.start < tree.start := by simpa using hlate
  have hpiece := commented.some first hcomment
  rcases hclear first hcomment with hstop | hinside | hstart
  · omega
  · rw [houtside] at hinside
    cases hinside
  · omega

/-- Comments and items that do not cross come in order together. -/
theorem pairwise_attachAll {comments : List Lexer.Piece} {items : List Tree}
    (commented : Commented comments) (hitems : items.Pairwise (·.stop ≤ ·.start))
    (hsome : ∀ item ∈ items, item.start < item.stop)
    (hclear : ∀ comment ∈ comments, ∀ item ∈ items, Clear comment item) :
    (attachAll comments items).Pairwise (·.stop ≤ ·.start) := by
  induction items generalizing comments with
  | nil =>
      rw [attachAll]
      exact List.pairwise_map.mpr commented.apart
  | cons tree trees ih =>
      rw [attachAll]
      obtain ⟨hnext, htrees⟩ := List.pairwise_cons.mp hitems
      obtain ⟨hshort, hsome⟩ := List.forall_mem_cons.mp hsome
      have hclear' (comment) (hmem : comment ∈ comments) : Clear comment tree :=
        hclear comment hmem tree List.mem_cons_self
      have hkept := (List.dropWhile_sublist (surrounds tree)).trans
        (List.dropWhile_sublist (·.start < tree.start) (l := comments))
      have htail : ∀ node ∈ attachAll ((comments.dropWhile (·.start < tree.start)).dropWhile
          (surrounds tree)) trees, tree.stop ≤ node.start := by
        intro node hmem
        rcases mem_attachAll hmem with ⟨comment, hcomment, rfl⟩ | ⟨item, hitem, hlabel⟩
        · exact le_start_of_mem_dropWhile commented hclear' hcomment
        · rw [Tree.start, hlabel]
          exact hnext item hitem
      have hlabel := label_attach
        ((comments.dropWhile (·.start < tree.start)).takeWhile (surrounds tree)) tree
      refine List.pairwise_append.mpr ⟨?_, List.pairwise_cons.mpr ⟨?_, ?_⟩, ?_⟩
      · exact List.pairwise_map.mpr (commented.sublist (List.takeWhile_sublist _)).apart
      · rw [Tree.stop, hlabel]
        exact htail
      · exact ih (commented.sublist hkept) htrees hsome fun comment hcomment item hitem =>
          hclear comment (hkept.subset hcomment) item (List.mem_cons_of_mem tree hitem)
      · intro a ha b hb
        obtain ⟨comment, hcomment, rfl⟩ := List.mem_map.mp ha
        have hearly : comment.start < tree.start := by
          simpa using List.mem_takeWhile_imp hcomment
        have hstop : (commentNode comment).stop ≤ tree.start :=
          (hclear' comment ((List.takeWhile_sublist _).subset hcomment)).stop_le hshort hearly
        rcases List.mem_cons.mp hb with rfl | hb
        · rw [Tree.start, hlabel]
          exact hstop
        · have hstart := htail b hb
          omega

-- ============================================================ top level

/-- A node has characters in the source; unless it is a comment, the first and
the last of them are visible. -/
structure Tree.LiesIn (source : List Char) (node : Tree) : Prop where
  some : node.start < node.stop
  within : node.stop ≤ source.length
  first : node.kind ≠ .comment → ∃ c, source[node.start]? = .some c ∧ isBlank c = false
  last : node.kind ≠ .comment → ∃ c, source[node.stop - 1]? = .some c ∧ isBlank c = false

theorem ordered_tokens (source : List Char) : Ordered (Lexer.tokens source) :=
  ⟨Lexer.pairwise_tokens source, fun _ hmem => (Lexer.token_within hmem).1⟩

theorem commented_comments (source : List Char) : Commented (Lexer.comments source) :=
  ⟨Lexer.pairwise_comments source, fun _ hmem => (Lexer.comment_within hmem).1⟩

/-- Comments do not cross the ends of what the grammar makes of the tokens. -/
theorem Bounded.clear {source : List Char} {tree : Tree}
    (bounded : Bounded (Lexer.tokens source) tree) {comment : Lexer.Piece}
    (hcomment : comment ∈ Lexer.comments source) : Clear comment tree := by
  obtain ⟨⟨first, hfirst, -, hstart⟩, ⟨last, hlast, -, hstop⟩, -⟩ := bounded
  have hpiece := (Lexer.comment_within hcomment).1
  have hshort := (Lexer.token_within hfirst).1
  have hlong := (Lexer.token_within hlast).1
  rcases Lexer.comment_apart hcomment hfirst with hbefore | hafter
  · exact .inl (hstart ▸ hbefore)
  · rcases Lexer.comment_apart hcomment hlast with hbefore' | hafter'
    · refine .inr (.inl ?_)
      simp only [surrounds, Bool.and_eq_true, decide_eq_true_eq]
      omega
    · exact .inr (.inr (hstop ▸ hafter'))

theorem Bounded.liesIn {source : List Char} {item node : Tree}
    (bounded : Bounded (Lexer.tokens source) item) (hlabel : node.label = item.label) :
    node.LiesIn source := by
  obtain ⟨⟨first, hfirst, hsolid, hstart⟩, ⟨last, hlast, hsolid', hstop⟩, hsome⟩ := bounded
  have hwithin := (Lexer.token_within hlast).2
  have hvisible := (Lexer.token_visible hfirst hsolid).1
  have hvisible' := (Lexer.token_visible hlast hsolid').2
  rw [← hstart] at hvisible
  rw [← hstop] at hvisible' hwithin
  simp only [Tree.start, Tree.stop, ← hlabel] at hsome hwithin hvisible hvisible'
  exact ⟨hsome, hwithin, fun _ => hvisible, fun _ => hvisible'⟩

/-- The top level of a file: its nodes come in order, and each has characters of
its own. -/
theorem topLevel_of_parse? {source : List Char} {tree : Tree} (hparse : parse? source = some tree) :
    tree.namedChildren.Pairwise (·.stop ≤ ·.start)
      ∧ ∀ node ∈ tree.namedChildren, node.LiesIn source := by
  obtain ⟨items, hread, rfl⟩ := Option.map_eq_some_iff.mp hparse
  obtain ⟨hitems, hbounded⟩ := bounded_readFile hread (ordered_tokens source)
  have hnodes := pairwise_attachAll (commented_comments source) hitems
    (fun item hmem => (hbounded item hmem).some)
    (fun comment hcomment item hmem => (hbounded item hmem).clear hcomment)
  refine ⟨hnodes.sublist List.filter_sublist, fun node hmem => ?_⟩
  rcases mem_attachAll (List.mem_of_mem_filter hmem) with ⟨comment, hcomment, rfl⟩ | hitem
  · obtain ⟨hsome, hwithin⟩ := Lexer.comment_within hcomment
    exact ⟨hsome, hwithin, fun hkind => absurd rfl hkind, fun hkind => absurd rfl hkind⟩
  · obtain ⟨item, hitem, hlabel⟩ := hitem
    exact (hbounded item hitem).liesIn hlabel

end Assay.Syntax
