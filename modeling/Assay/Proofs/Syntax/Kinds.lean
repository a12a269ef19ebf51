/-
What is asked of declarations only. A statement's tree is of a kind of which nothing
is asked, or it is a declaration of constants, variables or types; so what the
productions of declarations give is given by every statement and every block as well
(`Gives`), and the productions of statements are gone through once for all that may be
asked.
-/
import Assay.Proofs.Syntax.Productions

namespace Assay.Syntax

open Reader Grammar

/-- Nothing is asked of nodes of this kind. The others are the declarations of values
and of functions. -/
@[reducible] def Kind.isFree : Kind → Bool
  | .varDeclaration | .constDeclaration | .functionDeclaration | .methodDeclaration => false
  | _ => true

/-- What trees of other kinds have anyway. -/
class Asked (wanted : Tree → Prop) : Prop where
  free : ∀ tree, tree.kind.isFree = true → wanted tree

namespace Reader

variable {α : Type} {wanted : Tree → Prop}

/-- The trees that the reader answers have what is wanted. -/
class Gives (wanted : Tree → Prop) (reader : Reader Tree) : Prop where
  given {before after : Cursor} {tree : Tree} : reader.Answers before tree after → wanted tree

instance : Gives wanted failure where
  given answers := absurd answers not_answers_failure

theorem Gives.bind {reader : Reader α} {next : α → Reader Tree}
    (onward : ∀ value, Gives wanted (next value)) : Gives wanted (reader >>= next) where
  given answers := by
    obtain ⟨value, middle, -, hmore⟩ := answers_bind answers
    exact (onward value).given hmore

instance {reader : Reader α} {next : α → Reader Tree}
    [onward : ∀ value, Gives wanted (next value)] : Gives wanted (reader >>= next) := .bind onward

instance {first second : Reader Tree} [gives : Gives wanted first] [gives' : Gives wanted second] :
    Gives wanted (first <|> second) where
  given answers := (answers_orElse answers).elim gives.given gives'.given

instance {p : Prop} [Decidable p] {first second : Reader Tree} [gives : Gives wanted first]
    [gives' : Gives wanted second] : Gives wanted (if p then first else second) := by
  split
  · exact gives
  · exact gives'

/-- A node has what is wanted of its kind. -/
theorem Gives.node {kind : Kind} {reader : Reader (List Tree)}
    (hkind : ∀ tree : Tree, tree.kind = kind → wanted tree) : Gives wanted (node kind reader) where
  given answers := by
    obtain ⟨children, rfl, -⟩ := answers_node answers
    exact hkind _ rfl

variable [asked : Asked wanted]

instance {kind : Kind} {start : Nat} {children : List Tree} [free : Holds kind.isFree] :
    Gives wanted (close kind start children) where
  given answers := by
    obtain ⟨rfl, -⟩ := answers_close answers
    exact asked.free _ free.holds

instance {kind : Kind} {reader : Reader (List Tree)} [free : Holds kind.isFree] :
    Gives wanted (Reader.node kind reader) :=
  .node fun tree hkind => asked.free tree (hkind ▸ free.holds)

end Reader

namespace Grammar

variable (sub : Descent) {wanted : Tree → Prop} [asked : Asked wanted]

instance (list : Tree) : Gives wanted (expressionStatement list) := by
  unfold expressionStatement
  split <;> infer_instance

instance (literals : Bool) : Gives wanted (simpleStatement sub literals) := by
  unfold simpleStatement
  refine .bind fun lhs => .bind fun tag => ?_
  split
  case h_5 => split <;> infer_instance
  all_goals infer_instance

instance : Gives wanted (block sub) := by
  unfold block
  infer_instance

instance : Gives wanted (ifStatement sub) := by
  unfold ifStatement
  infer_instance

instance : Gives wanted (switchStatement sub) := by
  unfold switchStatement
  refine .bind fun start => .bind fun _ => .bind fun _ => .bind fun _ => ?_
  dsimp only
  split
  all_goals
    refine .bind fun first => .bind fun initialized => ?_
    split
    · refine .bind fun _ => ?_
      split
      all_goals
        refine .bind fun subject => ?_
        split <;> infer_instance
    · refine .bind fun subject => ?_
      split <;> infer_instance

instance [Gives wanted (sub .block)] [Gives wanted (sub .ifStatement)]
    [Gives wanted (declaration sub)] : Gives wanted (statement sub) := by
  unfold statement forStatement selectStatement jump
  refine .bind fun tag => .bind fun tag' => ?_
  split
  case h_17 => split <;> infer_instance
  all_goals infer_instance

-- ============================================================ the circle

instance gives_block : ∀ depth, Gives wanted (descend depth .block)
  | 0 => inferInstanceAs (Gives wanted failure)
  | depth + 1 => inferInstanceAs (Gives wanted (block (descend depth)))

instance gives_ifStatement : ∀ depth, Gives wanted (descend depth .ifStatement)
  | 0 => inferInstanceAs (Gives wanted failure)
  | depth + 1 => inferInstanceAs (Gives wanted (ifStatement (descend depth)))

instance gives_statement [declares : ∀ depth, Gives wanted (declaration (descend depth))] :
    ∀ depth, Gives wanted (descend depth .statement)
  | 0 => inferInstanceAs (Gives wanted failure)
  | depth + 1 => inferInstanceAs (Gives wanted (statement (descend depth)))

/-- An item of a file is a declaration that only a file holds, or a statement. -/
theorem answers_fileItem {sub : Descent} {before after : Cursor} {item : Tree}
    (answers : (fileItem sub).Answers before item after) :
    ∃ middle, (fileDeclaration sub).Answers before item middle
      ∨ (sub .statement).Answers before item middle := by
  rcases answers_orElse answers with hfile | hother
  · obtain ⟨declaration, middle, hdeclaration, hending⟩ := answers_bind hfile
    obtain ⟨_, last, -, hpure⟩ := answers_bind hending
    obtain ⟨rfl, -⟩ := answers_pure hpure
    exact ⟨middle, .inl hdeclaration⟩
  · obtain ⟨statement, middle, hstatement, hending⟩ := answers_bind hother
    have hsame : item = statement := by
      dsimp only at hending
      split at hending
      all_goals
        obtain ⟨_, last, -, hpure⟩ := answers_bind hending
        exact (answers_pure hpure).1
    subst hsame
    exact ⟨middle, .inr hstatement⟩

end Grammar

end Assay.Syntax
