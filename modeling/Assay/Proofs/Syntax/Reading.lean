/-
What a reader does to its tokens. Whatever it answers, it takes a stretch from
the front and leaves the rest, and the cursor remembers where the stretch ended;
`Passes` says so, and everything here is about the stretch.

Four things can be asked of it. That nothing in it is stray or begins a package
clause, which is asked of everything inside a file's items (`Moves`); that it also
begins with a token of the text proper, if it has any token (`Opens`); that it also ends with one
(`Tidy`); and that it has one besides (`Firm`). Line breaks are what the last
three are about: they are tokens, and a tree must not begin or end at one. Each
way of combining readers answers the questions from the answers for its parts,
as an instance, so that a production needs its shape unfolded and no more.
-/
import Assay.Syntax.Reader

namespace Assay.Syntax

variable {α β : Type} {before middle after : Cursor}

-- ============================================================ stretches

/-- Tags of the text proper: no line break, and nothing stray. -/
def Tag.IsSolid (tag : Tag) : Prop := tag ≠ .lineBreak ∧ tag ≠ .stray

/-- Tags of the text inside an item: solid ones, but for the word that begins a
package clause. -/
def Tag.IsInner (tag : Tag) : Prop := tag.IsSolid ∧ tag ≠ .keyword .packageKey

/-- A test that comes out true. -/
class Holds (test : Bool) : Prop where
  holds : test = true

instance : Holds true := ⟨rfl⟩

/-- The word does not begin a package clause. -/
@[reducible] def Keyword.isInner : Keyword → Bool
  | .packageKey => false
  | _ => true

/-- A node of this kind is no package clause. -/
@[reducible] def Kind.isInner : Kind → Bool
  | .packageClause => false
  | _ => true

/-- Where the next token starts, or where the last one ended. -/
def Cursor.here (cursor : Cursor) : Nat :=
  match cursor.tokens with
  | [] => cursor.last
  | token :: _ => token.start

/-- A cursor has taken a stretch of tokens. -/
structure Cursor.Passes (before : Cursor) (taken : List Token) (after : Cursor) : Prop where
  tokens : before.tokens = taken ++ after.tokens
  last : after.last = (taken.getLast?.map (·.stop)).getD before.last

theorem Cursor.Passes.refl (before : Cursor) : before.Passes [] before := ⟨rfl, rfl⟩

theorem Cursor.Passes.trans {first more : List Token} (passes : before.Passes first middle)
    (onward : middle.Passes more after) : before.Passes (first ++ more) after where
  tokens := by rw [passes.tokens, onward.tokens, List.append_assoc]
  last := by
    rw [onward.last, passes.last, List.getLast?_append]
    cases more.getLast? <;> rfl

/-- A stretch begins with a solid token, if with any. -/
def BeginsSolid (taken : List Token) : Prop := ∀ token ∈ taken.head?, token.tag.IsSolid

/-- A stretch begins and ends with solid tokens, if it has any. -/
def IsNeat (taken : List Token) : Prop :=
  BeginsSolid taken ∧ ∀ token ∈ taken.getLast?, token.tag.IsSolid

/-- A stretch has tokens, and begins and ends with solid ones. -/
def IsSolid (taken : List Token) : Prop := IsNeat taken ∧ taken ≠ []

theorem beginsSolid_append {first more : List Token} (hfirst : BeginsSolid first)
    (hmore : BeginsSolid more) : BeginsSolid (first ++ more) := by
  cases first with
  | nil => exact hmore
  | cons token first => exact hfirst

/-- What comes after the first token does not matter to how a stretch begins. -/
theorem IsSolid.beginsSolid_append {first more : List Token} (hfirst : IsSolid first) :
    BeginsSolid (first ++ more) := by
  cases first with
  | nil => exact absurd rfl hfirst.2
  | cons token first => exact hfirst.1.1

theorem isNeat_append {first more : List Token} (hfirst : IsNeat first) (hmore : IsNeat more) :
    IsNeat (first ++ more) := by
  refine ⟨Syntax.beginsSolid_append hfirst.1 hmore.1, ?_⟩
  rw [List.getLast?_append]
  intro token htoken
  rcases Option.or_eq_some_iff.mp htoken with hlast | ⟨-, hlast⟩
  · exact hmore.2 token hlast
  · exact hfirst.2 token hlast

/-- What comes before the last token does not matter to how a stretch ends. -/
theorem IsSolid.append_left {first more : List Token} (hmore : IsSolid more)
    (hfirst : BeginsSolid first) : IsSolid (first ++ more) := by
  obtain ⟨⟨hbegins, hends⟩, hsome⟩ := hmore
  refine ⟨⟨Syntax.beginsSolid_append hfirst hbegins, ?_⟩, ?_⟩
  · rw [List.getLast?_append, List.getLast?_eq_some_getLast hsome, Option.some_or]
    rw [List.getLast?_eq_some_getLast hsome] at hends
    exact hends
  · exact fun hnone => hsome (List.append_eq_nil_iff.mp hnone).2

theorem IsSolid.append_right {first more : List Token} (hfirst : IsSolid first)
    (hmore : IsNeat more) : IsSolid (first ++ more) :=
  ⟨isNeat_append hfirst.1 hmore, fun hnone => hfirst.2 (List.append_eq_nil_iff.mp hnone).1⟩

theorem isSolid_singleton {token : Token} (hsolid : token.tag.IsSolid) : IsSolid [token] := by
  refine ⟨⟨?_, ?_⟩, List.cons_ne_nil _ _⟩
  · rintro _ ⟨rfl⟩
    exact hsolid
  · rintro _ ⟨rfl⟩
    exact hsolid

/-- A stretch inside an item: nothing in it is stray, and no word in it begins a
package clause. -/
def Interior (taken : List Token) : Prop :=
  ∀ token ∈ taken, token.tag ≠ .stray ∧ token.tag ≠ .keyword .packageKey

theorem interior_append {first more : List Token} :
    Interior (first ++ more) ↔ Interior first ∧ Interior more :=
  List.forall_mem_append

/-- A stretch inside an item that begins with a solid token, if with any. -/
def InnerOpening (taken : List Token) : Prop := Interior taken ∧ BeginsSolid taken

/-- A neat stretch inside an item. -/
def InnerNeat (taken : List Token) : Prop := Interior taken ∧ IsNeat taken

/-- A solid stretch inside an item. -/
def InnerSolid (taken : List Token) : Prop := Interior taken ∧ IsSolid taken

theorem innerOpening_append {first more : List Token} (hfirst : InnerOpening first)
    (hmore : InnerOpening more) : InnerOpening (first ++ more) :=
  ⟨interior_append.mpr ⟨hfirst.1, hmore.1⟩, beginsSolid_append hfirst.2 hmore.2⟩

theorem InnerSolid.opening_append {first more : List Token} (hfirst : InnerSolid first)
    (hmore : Interior more) : InnerOpening (first ++ more) :=
  ⟨interior_append.mpr ⟨hfirst.1, hmore⟩, hfirst.2.beginsSolid_append⟩

theorem innerNeat_append {first more : List Token} (hfirst : InnerNeat first)
    (hmore : InnerNeat more) : InnerNeat (first ++ more) :=
  ⟨interior_append.mpr ⟨hfirst.1, hmore.1⟩, isNeat_append hfirst.2 hmore.2⟩

theorem InnerSolid.append_left {first more : List Token} (hmore : InnerSolid more)
    (hfirst : InnerOpening first) : InnerSolid (first ++ more) :=
  ⟨interior_append.mpr ⟨hfirst.1, hmore.1⟩, hmore.2.append_left hfirst.2⟩

theorem InnerSolid.append_right {first more : List Token} (hfirst : InnerSolid first)
    (hmore : InnerNeat more) : InnerSolid (first ++ more) :=
  ⟨interior_append.mpr ⟨hfirst.1, hmore.1⟩, hfirst.2.append_right hmore.2⟩

theorem InnerSolid.neat {taken : List Token} (htaken : InnerSolid taken) : InnerNeat taken :=
  ⟨htaken.1, htaken.2.1⟩

theorem interior_singleton {token : Token}
    (hinner : token.tag ≠ .stray ∧ token.tag ≠ .keyword .packageKey) : Interior [token] :=
  List.forall_mem_singleton.mpr hinner

theorem innerSolid_singleton {token : Token} (hinner : token.tag.IsInner) : InnerSolid [token] :=
  ⟨interior_singleton ⟨hinner.1.2, hinner.2⟩, isSolid_singleton hinner.1⟩

theorem interior_nil : Interior [] := nofun

theorem innerNeat_nil : InnerNeat [] := ⟨interior_nil, nofun, nofun⟩

namespace Reader

-- ============================================================== answers

/-- The reader can answer this, taking the cursor from one place to the other. -/
def Answers (reader : Reader α) (before : Cursor) (answer : α) (after : Cursor) : Prop :=
  ∃ kept reached, reader before kept = (some (answer, after), reached)

theorem answers_pure {value answer : α}
    (answers : (pure value : Reader α).Answers before answer after) :
    answer = value ∧ after = before := by
  obtain ⟨kept, reached, hrun⟩ := answers
  cases hrun
  exact ⟨rfl, rfl⟩

theorem not_answers_failure {answer : α} :
    ¬ (failure : Reader α).Answers before answer after := by
  rintro ⟨kept, reached, hrun⟩
  cases hrun

/-- One reader after another. -/
theorem answers_bind {reader : Reader α} {next : α → Reader β} {answer : β}
    (answers : (reader >>= next).Answers before answer after) :
    ∃ value middle, reader.Answers before value middle
      ∧ (next value).Answers middle answer after := by
  obtain ⟨kept, reached, hrun⟩ := answers
  simp only [Bind.bind, StateT.bind, OptionT.bind, OptionT.mk] at hrun
  cases hfirst : reader before kept with
  | mk found reached' =>
      rw [hfirst] at hrun
      cases found with
      | none => cases hrun
      | some found => exact ⟨found.1, found.2, ⟨kept, reached', hfirst⟩, reached', reached, hrun⟩

/-- One reader or another. -/
theorem answers_orElse {first second : Reader α} {answer : α}
    (answers : (first <|> second).Answers before answer after) :
    first.Answers before answer after ∨ second.Answers before answer after := by
  obtain ⟨kept, reached, hrun⟩ := answers
  simp only [HOrElse.hOrElse, OrElse.orElse, StateT.orElse, Alternative.orElse] at hrun
  delta OptionT.orElse at hrun
  simp only [OptionT.mk, Bind.bind, StateT.bind] at hrun
  cases hfirst : first before kept with
  | mk found reached' =>
      rw [hfirst] at hrun
      cases found with
      | none => exact .inr ⟨reached', reached, hrun⟩
      | some found =>
          obtain ⟨⟨⟩, rfl⟩ := Prod.mk.inj hrun
          exact .inl ⟨kept, reached', hfirst⟩

theorem answers_map {f : α → β} {reader : Reader α} {answer : β}
    (answers : (f <$> reader).Answers before answer after) :
    ∃ value, answer = f value ∧ reader.Answers before value after := by
  have hbind : (reader >>= fun value => pure (f value)).Answers before answer after := answers
  obtain ⟨value, middle, hvalue, hpure⟩ := answers_bind hbind
  obtain ⟨rfl, rfl⟩ := answers_pure hpure
  exact ⟨value, rfl, hvalue⟩

theorem answers_get {answer : Cursor} (answers : (get : Reader Cursor).Answers before answer after) :
    answer = before ∧ after = before := by
  obtain ⟨kept, reached, hrun⟩ := answers
  cases hrun
  exact ⟨rfl, rfl⟩

/-- A token that fits is taken, and it is the next one. -/
theorem answers_takeIf {fits : Tag → Bool} {token : Token}
    (answers : (takeIf fits).Answers before token after) :
    fits token.tag = true ∧ before.Passes [token] after := by
  unfold takeIf at answers
  obtain ⟨cursor, middle, hget, hmatch⟩ := answers_bind answers
  obtain ⟨rfl, rfl⟩ := answers_get hget
  split at hmatch
  · exact absurd hmatch not_answers_failure
  · next first tokens htokens =>
      split at hmatch
      · next hfits =>
          obtain ⟨kept, reached, hrun⟩ := hmatch
          cases hrun
          exact ⟨hfits, ⟨htokens, rfl⟩⟩
      · exact absurd hmatch not_answers_failure

/-- A reader that takes nothing. -/
class Looks (reader : Reader α) : Prop where
  stays {before after : Cursor} {answer : α} : reader.Answers before answer after → after = before

/-- Whatever the reader answers, it takes such a stretch. -/
class Takes (fits : List Token → Prop) (reader : Reader α) : Prop where
  taken {before after : Cursor} {answer : α} :
    reader.Answers before answer after → ∃ taken, before.Passes taken after ∧ fits taken

/-- The reader takes a stretch that may stand inside an item. -/
abbrev Moves (reader : Reader α) : Prop := Takes Interior reader

/-- The reader begins with a solid token, if it takes any. -/
abbrev Opens (reader : Reader α) : Prop := Takes InnerOpening reader

/-- The reader begins and ends with solid tokens, if it takes any. -/
abbrev Tidy (reader : Reader α) : Prop := Takes InnerNeat reader

/-- The reader takes tokens, and begins and ends with solid ones. -/
abbrev Firm (reader : Reader α) : Prop := Takes InnerSolid reader

variable {fits : List Token → Prop} {reader : Reader α} {next : α → Reader β}

theorem Takes.mono {wanted : List Token → Prop} (takes : Takes fits reader)
    (himp : ∀ taken, fits taken → wanted taken) : Takes wanted reader where
  taken answers := by
    obtain ⟨taken, passes, hfits⟩ := takes.taken answers
    exact ⟨taken, passes, himp taken hfits⟩

instance (priority := 60) [takes : Firm reader] : Tidy reader :=
  takes.mono fun _ => InnerSolid.neat

instance (priority := 50) [takes : Tidy reader] : Opens reader :=
  takes.mono fun _ => And.imp_right And.left

instance (priority := 40) [takes : Opens reader] : Moves reader := takes.mono fun _ => And.left

-- ============================================================ one after another

theorem Takes.bind {first more : List Token → Prop} (takes : Takes first reader)
    (onward : ∀ value, Takes more (next value))
    (happend : ∀ a b, first a → more b → fits (a ++ b)) : Takes fits (reader >>= next) where
  taken answers := by
    obtain ⟨value, middle, hfirst, hmore⟩ := answers_bind answers
    obtain ⟨a, passes, ha⟩ := takes.taken hfirst
    obtain ⟨b, passes', hb⟩ := (onward value).taken hmore
    exact ⟨a ++ b, passes.trans passes', happend a b ha hb⟩

/-- Looking first makes no difference. -/
theorem Takes.afterLook [looks : Looks reader] (onward : ∀ value, Takes fits (next value)) :
    Takes fits (reader >>= next) where
  taken answers := by
    obtain ⟨value, middle, hfirst, hmore⟩ := answers_bind answers
    obtain rfl := looks.stays hfirst
    exact (onward value).taken hmore

instance (priority := 2000) [looks : Looks reader] [onward : ∀ value, Takes fits (next value)] :
    Takes fits (reader >>= next) := .afterLook onward

theorem moves_bind [takes : Moves reader] (onward : ∀ value, Moves (next value)) :
    Moves (reader >>= next) :=
  takes.bind onward fun _ _ hfirst hmore => interior_append.mpr ⟨hfirst, hmore⟩

theorem opens_bind [takes : Opens reader] (onward : ∀ value, Opens (next value)) :
    Opens (reader >>= next) :=
  takes.bind onward fun _ _ => innerOpening_append

theorem opens_bind_moves [takes : Firm reader] (onward : ∀ value, Moves (next value)) :
    Opens (reader >>= next) :=
  takes.bind onward fun _ _ => InnerSolid.opening_append

theorem tidy_bind [takes : Tidy reader] (onward : ∀ value, Tidy (next value)) :
    Tidy (reader >>= next) :=
  takes.bind onward fun _ _ => innerNeat_append

theorem firm_bind_tidy [takes : Firm reader] (onward : ∀ value, Tidy (next value)) :
    Firm (reader >>= next) :=
  takes.bind onward fun _ _ => InnerSolid.append_right

theorem firm_bind [takes : Opens reader] (onward : ∀ value, Firm (next value)) :
    Firm (reader >>= next) :=
  takes.bind onward fun _ _ hfirst hmore => hmore.append_left hfirst

instance [Moves reader] [onward : ∀ value, Moves (next value)] : Moves (reader >>= next) :=
  moves_bind onward

instance [Opens reader] [onward : ∀ value, Opens (next value)] : Opens (reader >>= next) :=
  opens_bind onward

instance [Firm reader] [onward : ∀ value, Moves (next value)] : Opens (reader >>= next) :=
  opens_bind_moves onward

instance [Tidy reader] [onward : ∀ value, Tidy (next value)] : Tidy (reader >>= next) :=
  tidy_bind onward

instance [Firm reader] [onward : ∀ value, Tidy (next value)] : Firm (reader >>= next) :=
  firm_bind_tidy onward

instance [Opens reader] [onward : ∀ value, Firm (next value)] : Firm (reader >>= next) :=
  firm_bind onward

-- ======================================================= other combinations

instance (value : α) : Looks (pure value) where
  stays answers := (answers_pure answers).2

instance : Looks (get : Reader Cursor) where
  stays answers := (answers_get answers).2

instance [looks : Looks reader] [onward : ∀ value, Looks (next value)] :
    Looks (reader >>= next) where
  stays answers := by
    obtain ⟨value, middle, hfirst, hmore⟩ := answers_bind answers
    rw [(onward value).stays hmore, looks.stays hfirst]

instance [looks : Looks reader] : Tidy reader where
  taken answers := by
    obtain rfl := looks.stays answers
    exact ⟨[], .refl _, innerNeat_nil⟩

instance : Takes fits (failure : Reader α) where
  taken answers := absurd answers not_answers_failure

instance {first second : Reader α} [takes : Takes fits first] [takes' : Takes fits second] :
    Takes fits (first <|> second) where
  taken answers := (answers_orElse answers).elim takes.taken takes'.taken

instance {p : Prop} [Decidable p] {first second : Reader α} [takes : Takes fits first]
    [takes' : Takes fits second] : Takes fits (if p then first else second) := by
  split
  · exact takes
  · exact takes'

instance {f : α → β} [takes : Takes fits reader] : Takes fits (f <$> reader) where
  taken answers := by
    obtain ⟨value, -, hvalue⟩ := answers_map answers
    exact takes.taken hvalue

-- ========================================================= the readers

instance (n : Nat) : Looks (ahead n) := by
  unfold ahead
  infer_instance

instance : Looks Reader.next := inferInstanceAs (Looks (ahead 0))

instance (tag : Tag) : Looks (sees tag) := by
  unfold sees
  infer_instance

instance (sign : Sign) : Looks (seesSign sign) := inferInstanceAs (Looks (sees _))

instance (keyword : Keyword) : Looks (seesKeyword keyword) := inferInstanceAs (Looks (sees _))

instance : Looks here := by
  unfold here
  infer_instance

instance : Looks left := by
  unfold left
  infer_instance

instance : Looks seesName := by
  unfold seesName
  infer_instance

instance (kind : Kind) (start : Nat) (children : List Tree) : Looks (close kind start children) := by
  unfold close
  infer_instance

/-- Taking a token is firm when only tokens of the text inside an item fit. -/
theorem firm_takeIf {fits : Tag → Bool}
    (hinner : ∀ tag, fits tag = true → tag.IsInner) : Firm (takeIf fits) where
  taken answers := by
    obtain ⟨hfits, passes⟩ := answers_takeIf answers
    exact ⟨_, passes, innerSolid_singleton (hinner _ hfits)⟩

instance (wanted : Sign) : Firm (expect (.sign wanted)) :=
  firm_takeIf fun tag hfits => by
    obtain rfl := eq_of_beq hfits
    exact ⟨⟨nofun, nofun⟩, nofun⟩

instance (wanted : Keyword) [inner : Holds wanted.isInner] : Firm (expect (.keyword wanted)) :=
  firm_takeIf fun tag hfits => by
    obtain rfl := eq_of_beq hfits
    refine ⟨⟨nofun, nofun⟩, ?_⟩
    rintro ⟨rfl⟩
    cases inner.holds

instance (wanted : Sign) : Firm (sign wanted) := by
  unfold sign
  infer_instance

/-- A sign is one token. -/
theorem answers_sign {wanted : Sign} {answer : Unit}
    (answers : (sign wanted).Answers before answer after) :
    ∃ token, token.tag = .sign wanted ∧ before.Passes [token] after := by
  obtain ⟨token, middle, htoken, hpure⟩ := answers_bind answers
  obtain ⟨-, rfl⟩ := answers_pure hpure
  obtain ⟨hfits, passes⟩ := answers_takeIf htoken
  exact ⟨token, eq_of_beq hfits, passes⟩

instance (wanted : Keyword) [Holds wanted.isInner] : Firm (keyword wanted) := by
  unfold keyword
  infer_instance

instance (wanted : Sign) : Tidy (accept wanted) := by
  unfold accept
  infer_instance

instance [takes : Tidy reader] : Tidy (optional? reader) := by
  unfold optional?
  infer_instance

instance [takes : Opens reader] : Opens (optional? reader) := by
  unfold optional?
  infer_instance

instance [takes : Moves reader] : Moves (optional? reader) := by
  unfold optional?
  infer_instance

-- ========================================================== seen tokens

/-- Whatever the reader answers when the next token has this tag, it takes such
a stretch. -/
structure TakesAt (seen : Option Tag) (fits : List Token → Prop) (reader : Reader α) : Prop where
  taken {before after : Cursor} {answer : α} : (before.tokens[0]?).map (·.tag) = seen →
    reader.Answers before answer after → ∃ taken, before.Passes taken after ∧ fits taken

theorem Takes.at (takes : Takes fits reader) (seen : Option Tag) : TakesAt seen fits reader where
  taken _ answers := takes.taken answers

theorem answers_ahead {n : Nat} {tag : Option Tag}
    (answers : (ahead n).Answers before tag after) :
    (before.tokens[n]?).map (·.tag) = tag ∧ after = before := by
  obtain ⟨cursor, middle, hget, hpure⟩ := answers_bind answers
  obtain ⟨rfl, rfl⟩ := answers_get hget
  obtain ⟨rfl, rfl⟩ := answers_pure hpure
  exact ⟨rfl, rfl⟩

/-- A reader may go by the next token. -/
theorem Takes.ofNext {next : Option Tag → Reader β}
    (onward : ∀ seen, TakesAt seen fits (next seen)) : Takes fits (Reader.next >>= next) where
  taken answers := by
    obtain ⟨seen, middle, hseen, hmore⟩ := answers_bind answers
    obtain ⟨hseen, rfl⟩ := answers_ahead hseen
    exact (onward seen).taken hseen hmore

/-- The token that is taken is the one that was seen. -/
theorem answers_take {tag : Tag} {token : Token}
    (hseen : (before.tokens[0]?).map (·.tag) = some tag) (answers : take.Answers before token after) :
    token.tag = tag ∧ before.Passes [token] after := by
  obtain ⟨-, passes⟩ := answers_takeIf answers
  rw [passes.tokens] at hseen
  exact ⟨Option.some.inj hseen, passes⟩

/-- Taking a token is firm when it has been seen to be of the text inside an
item. -/
theorem takesAt_take (tag : Tag) (hinner : tag.IsInner) : TakesAt (some tag) InnerSolid take where
  taken hseen answers := by
    obtain ⟨rfl, passes⟩ := answers_take hseen answers
    exact ⟨_, passes, innerSolid_singleton hinner⟩

theorem TakesAt.bind {seen : Option Tag} (takes : TakesAt seen InnerSolid reader)
    (onward : ∀ value, Tidy (next value)) : TakesAt seen InnerSolid (reader >>= next) where
  taken hseen answers := by
    obtain ⟨value, middle, hfirst, hmore⟩ := answers_bind answers
    obtain ⟨a, passes, ha⟩ := takes.taken hseen hfirst
    obtain ⟨b, passes', hb⟩ := (onward value).taken hmore
    exact ⟨a ++ b, passes.trans passes', ha.append_right hb⟩

theorem TakesAt.tidy {seen : Option Tag} (takes : TakesAt seen InnerSolid reader) :
    TakesAt seen InnerNeat reader where
  taken hseen answers := by
    obtain ⟨taken, passes, hsolid⟩ := takes.taken hseen answers
    exact ⟨taken, passes, hsolid.neat⟩

-- ========================================================== repetition

/-- Items that a reader answers one after the other. -/
inductive Repeats (reader : Reader α) : Cursor → List α → Cursor → Prop where
  | nil {cursor} : Repeats reader cursor [] cursor
  | cons {before middle after item items} (first : reader.Answers before item middle)
      (more : Repeats reader middle items after) : Repeats reader before (item :: items) after

/-- A repetition answers such items, however many rounds it may take. -/
theorem repeats_of_answers {rounds : Nat} {items : List α}
    (answers : (repeated reader rounds).Answers before items after) :
    Repeats reader before items after := by
  induction rounds generalizing before items with
  | zero =>
      obtain ⟨rfl, rfl⟩ := answers_pure answers
      exact .nil
  | succ rounds ih =>
      obtain ⟨found, middle, hfound, hmore⟩ := answers_bind answers
      rcases answers_orElse hfound with hsome | hnone
      · obtain ⟨item, rfl, hitem⟩ := answers_map hsome
        obtain ⟨items, last, hitems, hpure⟩ := answers_bind hmore
        obtain ⟨rfl, rfl⟩ := answers_pure hpure
        exact .cons hitem (ih hitems)
      · obtain ⟨rfl, rfl⟩ := answers_pure hnone
        obtain ⟨rfl, rfl⟩ := answers_pure hmore
        exact .nil

/-- What is taken round by round is taken in one. -/
theorem Repeats.taken {fits : List Token → Prop} [takes : Takes fits reader] (hnil : fits [])
    (happend : ∀ a b, fits a → fits b → fits (a ++ b)) {items : List α}
    (repeats : Repeats reader before items after) :
    ∃ taken, before.Passes taken after ∧ fits taken := by
  induction repeats with
  | nil => exact ⟨[], .refl _, hnil⟩
  | cons hitem _ ih =>
      obtain ⟨a, passes, ha⟩ := takes.taken hitem
      obtain ⟨b, passes', hb⟩ := ih
      exact ⟨a ++ b, passes.trans passes', happend a b ha hb⟩

/-- A repetition is neat when each round is. -/
theorem Takes.repeated {fits : List Token → Prop} (takes : Takes fits reader)
    (hnil : fits []) (happend : ∀ a b, fits a → fits b → fits (a ++ b)) (rounds : Nat) :
    Takes fits (repeated reader rounds) where
  taken answers := (repeats_of_answers answers).taken hnil happend

theorem Takes.many {fits : List Token → Prop} (takes : Takes fits reader) (hnil : fits [])
    (happend : ∀ a b, fits a → fits b → fits (a ++ b)) : Takes fits (many reader) :=
  .afterLook (takes.repeated hnil happend)

instance [takes : Tidy reader] : Tidy (many reader) :=
  takes.many innerNeat_nil fun _ _ => innerNeat_append

instance [takes : Opens reader] : Opens (many reader) :=
  takes.many ⟨interior_nil, nofun⟩ fun _ _ => innerOpening_append

instance [takes : Moves reader] : Moves (many reader) :=
  takes.many interior_nil fun _ _ hfirst hmore => interior_append.mpr ⟨hfirst, hmore⟩

instance [takes : Firm reader] : Firm (commaSeparated reader) := by
  unfold commaSeparated
  infer_instance

/-- A terminator is a semicolon or a line break. -/
theorem takesAt_terminator {tag : Tag} (hinner : tag ≠ .stray ∧ tag ≠ .keyword .packageKey) :
    TakesAt (some tag) Interior (do let _ ← take) where
  taken hseen answers := by
    obtain ⟨token, middle, htoken, hpure⟩ := answers_bind answers
    obtain ⟨-, rfl⟩ := answers_pure hpure
    obtain ⟨rfl, passes⟩ := answers_take hseen htoken
    exact ⟨_, passes, interior_singleton hinner⟩

instance : Moves terminator := by
  unfold terminator
  refine .ofNext fun seen => ?_
  split
  · exact Takes.at inferInstance _
  · exact takesAt_terminator ⟨nofun, nofun⟩
  · exact takesAt_terminator ⟨nofun, nofun⟩
  · exact Takes.at inferInstance _

/-- What is read only after an item does not matter to how it begins. -/
theorem opens_optional? [takes : Firm reader] {next : Option α → Reader β}
    (hnone : Opens (next none)) (hsome : ∀ item, Moves (next (some item))) :
    Opens (optional? reader >>= next) where
  taken answers := by
    obtain ⟨found, middle, hfound, hmore⟩ := answers_bind answers
    rcases answers_orElse hfound with hsomething | hnothing
    · obtain ⟨item, rfl, hitem⟩ := answers_map hsomething
      obtain ⟨a, passes, ha⟩ := takes.taken hitem
      obtain ⟨b, passes', hb⟩ := (hsome item).taken hmore
      exact ⟨a ++ b, passes.trans passes', ha.opening_append hb⟩
    · obtain ⟨rfl, rfl⟩ := answers_pure hnothing
      exact hnone.taken hmore

/-- Items between terminators begin with an item, but may end with a
terminator. -/
instance [takes : Firm reader] : Opens (terminated reader) :=
  opens_optional? (inferInstanceAs (Opens (pure []))) fun _ => inferInstance

-- ============================================================ building

theorem answers_here {start : Nat} (answers : here.Answers before start after) :
    start = before.here ∧ after = before := by
  obtain ⟨cursor, middle, hget, hpure⟩ := answers_bind answers
  obtain ⟨rfl, rfl⟩ := answers_get hget
  exact answers_pure hpure

theorem answers_close {kind : Kind} {start : Nat} {children : List Tree} {tree : Tree}
    (answers : (close kind start children).Answers before tree after) :
    tree = .node ⟨kind, none, start, before.last⟩ children ∧ after = before := by
  obtain ⟨cursor, middle, hget, hpure⟩ := answers_bind answers
  obtain ⟨rfl, rfl⟩ := answers_get hget
  exact answers_pure hpure

/-- A node is built from what its children's reader answers, and covers what
that reader takes. -/
theorem answers_node {kind : Kind} {reader : Reader (List Tree)} {tree : Tree}
    (answers : (node kind reader).Answers before tree after) :
    ∃ children, tree = .node ⟨kind, none, before.here, after.last⟩ children
      ∧ reader.Answers before children after := by
  obtain ⟨start, middle, hhere, hmore⟩ := answers_bind answers
  obtain ⟨rfl, rfl⟩ := answers_here hhere
  obtain ⟨children, last, hchildren, hclose⟩ := answers_bind hmore
  obtain ⟨rfl, rfl⟩ := answers_close hclose
  exact ⟨children, rfl, hchildren⟩

theorem Takes.node {kind : Kind} {reader : Reader (List Tree)} (takes : Takes fits reader) :
    Takes fits (node kind reader) where
  taken answers := by
    obtain ⟨children, -, hchildren⟩ := answers_node answers
    exact takes.taken hchildren

instance {kind : Kind} {reader : Reader (List Tree)} [takes : Takes fits reader] :
    Takes fits (node kind reader) := takes.node

theorem isInner_of_isName {tag : Tag} (hname : isName tag = true) : tag.IsInner := by
  refine ⟨⟨?_, ?_⟩, ?_⟩ <;> rintro rfl <;> cases hname

instance : Firm (takeIf isName) := firm_takeIf fun _ => isInner_of_isName

instance (kind : Kind) : Firm (name kind) := by
  unfold name
  infer_instance

instance : Firm string := by
  unfold string
  have hquoted : Firm (takeIf fun tag => tag == .rawString || tag == .quotedString) :=
    firm_takeIf fun tag hfits => by
      rcases Bool.or_eq_true_iff.mp hfits with hraw | hquoted
      · obtain rfl := eq_of_beq hraw
        exact ⟨⟨nofun, nofun⟩, nofun⟩
      · obtain rfl := eq_of_beq hquoted
        exact ⟨⟨nofun, nofun⟩, nofun⟩
  infer_instance

/-- A tree covers a stretch, and is no package clause. -/
structure Shaped (start stop : Nat) (tree : Tree) : Prop where
  start_eq : tree.start = start
  stop_eq : tree.stop = stop
  inner : tree.kind.isInner = true

/-- The tree that a reader answers begins here and ends with the last token
taken. -/
class Builds (start : Nat) (reader : Reader Tree) : Prop where
  built {before after : Cursor} {tree : Tree} :
    reader.Answers before tree after → Shaped start after.last tree

/-- The tree that a reader answers covers the stretch that the reader takes. -/
class Covers (reader : Reader Tree) : Prop where
  covered {before after : Cursor} {tree : Tree} :
    reader.Answers before tree after → Shaped before.here after.last tree

instance (kind : Kind) [inner : Holds kind.isInner] (start : Nat) (children : List Tree) :
    Builds start (close kind start children) where
  built answers := by
    obtain ⟨rfl, rfl⟩ := answers_close answers
    exact ⟨rfl, rfl, inner.holds⟩

instance (start : Nat) : Builds start failure where
  built answers := absurd answers not_answers_failure

theorem Builds.bind {start : Nat} {reader : Reader α} {next : α → Reader Tree}
    (onward : ∀ value, Builds start (next value)) : Builds start (reader >>= next) where
  built answers := by
    obtain ⟨value, middle, -, hmore⟩ := answers_bind answers
    exact (onward value).built hmore

instance {start : Nat} {reader : Reader α} {next : α → Reader Tree}
    [onward : ∀ value, Builds start (next value)] : Builds start (reader >>= next) := .bind onward

instance {start : Nat} {p : Prop} [Decidable p] {first second : Reader Tree}
    [builds : Builds start first] [builds' : Builds start second] :
    Builds start (if p then first else second) := by
  split
  · exact builds
  · exact builds'

instance (kind : Kind) [inner : Holds kind.isInner] (reader : Reader (List Tree)) :
    Covers (node kind reader) where
  covered answers := by
    obtain ⟨children, rfl, -⟩ := answers_node answers
    exact ⟨rfl, rfl, inner.holds⟩

instance : Covers failure where
  covered answers := absurd answers not_answers_failure

instance {first second : Reader Tree} [covers : Covers first] [covers' : Covers second] :
    Covers (first <|> second) where
  covered answers := (answers_orElse answers).elim covers.covered covers'.covered

instance {p : Prop} [Decidable p] {first second : Reader Tree} [covers : Covers first]
    [covers' : Covers second] : Covers (if p then first else second) := by
  split
  · exact covers
  · exact covers'

theorem Covers.afterLook {reader : Reader α} {next : α → Reader Tree} [looks : Looks reader]
    (onward : ∀ value, Covers (next value)) : Covers (reader >>= next) where
  covered answers := by
    obtain ⟨value, middle, hfirst, hmore⟩ := answers_bind answers
    obtain rfl := looks.stays hfirst
    exact (onward value).covered hmore

/-- A tree that goes on from another. -/
theorem Covers.goOn {reader : Reader Tree} {next : Tree → Reader Tree} [covers : Covers reader]
    (builds : ∀ tree, Builds tree.start (next tree)) : Covers (reader >>= next) where
  covered answers := by
    obtain ⟨tree, middle, htree, hmore⟩ := answers_bind answers
    rw [← (covers.covered htree).start_eq]
    exact (builds tree).built hmore

/-- A tree that is begun where the reader begins. -/
theorem Covers.fromHere {next : Nat → Reader Tree} (builds : ∀ start, Builds start (next start)) :
    Covers (here >>= next) where
  covered answers := by
    obtain ⟨start, middle, hhere, hmore⟩ := answers_bind answers
    obtain ⟨rfl, rfl⟩ := answers_here hhere
    exact (builds _).built hmore

end Reader

end Assay.Syntax
