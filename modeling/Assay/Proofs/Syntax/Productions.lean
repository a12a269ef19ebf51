/-
What the productions take. Each begins and ends with a solid token, whatever it
stands for: line breaks come only between the items of a list, and a list is
always closed by a sign. The shape of a production tells, so most proofs only
unfold it; the others go through the cases that it distinguishes.

The statements have to be told apart from their parts once more: a statement's
tree covers exactly what was read for it.
-/
import Assay.Proofs.Syntax.Reading
import Assay.Syntax.Parse

namespace Assay.Syntax.Grammar

open Reader

variable (sub : Descent) [firm : ∀ goal, Firm (sub goal)]

-- ================================================================ types

instance (role : Role) : Firm (typeAs sub role) := by
  unfold typeAs
  infer_instance

instance (kind : Kind) : Firm (typeElem sub kind) := by
  unfold typeElem
  infer_instance

/-- Between brackets there is at least one type, and the brackets are taken too. -/
instance : Firm (typeArguments sub) := by
  unfold typeArguments
  infer_instance

/-- What is taken after the sign was seen behind it. -/
private theorem takes_dotted {first : Token} {start : Nat} : Tidy (do
    match ← next, ← ahead 1 with
    | some (.sign .dot), some tag =>
      if isName tag then
        sign .dot
        let second ← take
        close .qualifiedType start [
          (leaf .packageIdentifier first).withRole .package,
          (leaf .typeIdentifier second).withRole .name]
      else return leaf .typeIdentifier first
    | _, _ => return leaf .typeIdentifier first) where
  taken answers := by
    obtain ⟨tag, middle, htag, hahead⟩ := answers_bind answers
    obtain rfl := Looks.stays htag
    obtain ⟨tag', middle', htag', hbranch⟩ := answers_bind hahead
    obtain ⟨hseen, rfl⟩ := answers_ahead htag'
    split at hbranch
    · split at hbranch
      · next tag hname =>
          obtain ⟨dot, middle, hdot, hsecond⟩ := answers_bind hbranch
          obtain ⟨token, last, htoken, hclose⟩ := answers_bind hsecond
          obtain ⟨-, rfl⟩ := answers_close hclose
          obtain ⟨sign, hsign, passes⟩ := answers_sign hdot
          obtain ⟨-, passes'⟩ := answers_takeIf htoken
          rw [passes.tokens, passes'.tokens] at hseen
          obtain rfl : token.tag = tag := Option.some.inj hseen
          have hfirst : InnerNeat [sign] :=
            (innerSolid_singleton (hsign ▸ ⟨⟨nofun, nofun⟩, nofun⟩)).neat
          have hlast : InnerNeat [token] := (innerSolid_singleton (isInner_of_isName hname)).neat
          exact ⟨[sign] ++ [token], passes.trans passes', innerNeat_append hfirst hlast⟩
      · exact Takes.taken hbranch
    · exact Takes.taken hbranch

/-- A name, or a package, a dot and a name. The dot is taken only where the name behind
it was seen, so a name is what comes last. -/
instance : Firm plainTypeName := by
  unfold plainTypeName
  exact Takes.afterLook fun start => firm_bind_tidy fun first => takes_dotted

/-- A name, and its type arguments up to their closing bracket. Where they cannot be
read nothing is taken for them. -/
instance : Firm (typeName sub) := by
  unfold typeName
  refine Takes.afterLook fun start => ?_
  refine firm_bind_tidy fun base => ?_
  refine Takes.afterLook fun opened => ?_
  split
  · refine tidy_bind fun arguments => ?_
    split <;> infer_instance
  · infer_instance

/-- A parameter begins with its name and ends with its type. -/
instance : Firm (namedParameter sub) := by
  unfold namedParameter
  infer_instance

instance : Firm (typeParameterOnly sub) := by
  unfold typeParameterOnly
  infer_instance

/-- The name may be missing; then the parameter begins with its dots. -/
instance : Firm (variadicParameter sub) := by
  unfold variadicParameter
  infer_instance

/-- The cases are what is seen behind a name. Looking ahead takes nothing, so each case
is one of the shapes above. -/
instance : Firm (parameter sub) := by
  unfold parameter
  refine Takes.afterLook fun tag => ?_
  split
  · infer_instance
  · split
    · refine Takes.afterLook fun tag => ?_
      split <;> infer_instance
    · infer_instance
  · infer_instance

/-- The parentheses are taken even when there is nothing in them. -/
instance : Firm (parameterList sub) := by
  unfold parameterList
  infer_instance

/-- Whether a result comes next is decided by up to two tokens, and neither of them is
taken. -/
instance : Looks seesResult where
  stays {before after answer} answers := by
    obtain ⟨tag, middle, htag, hmore⟩ := answers_bind answers
    obtain rfl := Looks.stays htag
    split at hmore <;> exact Looks.stays hmore

/-- A signature ends with its parameters' parenthesis or with its result. -/
instance : Firm (signature sub) := by
  unfold signature
  infer_instance

/-- Names with a constraint, which ends the declaration. -/
instance : Firm (typeParameterDeclaration sub) := by
  unfold typeParameterDeclaration
  infer_instance

instance : Firm (typeParameterList sub) := by
  unfold typeParameterList
  infer_instance

/-- The star is optional, and the name behind it is not. -/
instance : Firm (embeddedField sub) := by
  unfold embeddedField
  infer_instance

instance : Firm (namedField sub) := by
  unfold namedField
  infer_instance

/-- Two tokens tell whether a field is embedded; both kinds are firm, and a tag behind
them is one solid token. -/
instance : Firm (fieldDeclaration sub) := by
  unfold fieldDeclaration
  refine Takes.node (Takes.afterLook fun tag => Takes.afterLook fun tag' => ?_)
  dsimp only
  split <;> infer_instance

/-- `struct` and the brace that closes the fields. The fields end with line breaks,
which are inside. -/
instance : Firm (structType sub) := by
  unfold structType
  infer_instance

/-- A method of an interface, or a type or union of types. -/
instance : Firm (interfaceElem sub) := by
  unfold interfaceElem
  refine Takes.afterLook fun named => ?_
  refine Takes.afterLook fun tag => ?_
  split <;> infer_instance

instance : Firm (interfaceType sub) := by
  unfold interfaceType
  infer_instance

/-- The three kinds of brackets all end with the type of the elements. -/
instance : Firm (bracketType sub) := by
  unfold bracketType
  refine Takes.afterLook fun start => firm_bind_tidy fun _ => tidy_bind fun closed => ?_
  split
  · infer_instance
  · refine tidy_bind fun implicit => ?_
    split <;> infer_instance

/-- `map` and the type of its values. -/
instance : Firm (mapType sub) := by
  unfold mapType
  infer_instance

/-- A channel begins with an arrow or with `chan`. -/
instance : Firm (channelType sub) := by
  unfold channelType
  infer_instance

/-- The first token tells the kind of type, and each kind takes it again. -/
instance : Firm (type sub) := by
  unfold type
  refine Takes.afterLook fun tag => ?_
  split <;> infer_instance

-- ========================================================== expressions

variable (literals : Bool)

instance (role : Role) : Firm (expressionAs sub role) := by
  unfold expressionAs
  infer_instance

/-- An operator is solid, and it is not the word that begins a package clause. -/
theorem isInner_of_precedence? {tag : Tag} {level : Nat} (hlevel : precedence? tag = some level) :
    tag.IsInner := by
  refine ⟨⟨?_, ?_⟩, ?_⟩ <;> rintro rfl <;> cases hlevel

/-- So is a sign in front of an operand. -/
theorem isInner_of_isUnary {tag : Tag} (hunary : isUnary tag = true) : tag.IsInner := by
  refine ⟨⟨?_, ?_⟩, ?_⟩ <;> rintro rfl <;> cases hunary

/-- The induction is on the rounds. Either nothing is taken for a next operator, or an
operator, what it is applied to and what is left of the climb. -/
instance tidy_climb : ∀ rounds least lhs, Tidy (climb sub literals rounds least lhs)
  | 0, least, lhs => inferInstanceAs (Tidy (pure lhs))
  | rounds + 1, least, lhs => by
      have ih := tidy_climb rounds
      unfold climb
      refine .ofNext fun seen => ?_
      split
      · exact Takes.at inferInstance _
      · next level hlevel =>
          obtain ⟨tag, rfl, htag⟩ := Option.bind_eq_some_iff.mp hlevel
          split
          · exact Takes.at inferInstance _
          · exact ((takesAt_take _ (isInner_of_precedence? htag)).bind inferInstance).tidy

/-- An expression begins with its first operand and ends with its last. -/
instance : Firm (expression sub literals) := by
  unfold expression
  infer_instance

instance : Firm (expressionList sub literals) := by
  unfold expressionList
  infer_instance

/-- An element is an expression, or the braces of a literal without its type. -/
instance : Firm (literalElement sub) := by
  unfold literalElement
  infer_instance

/-- The colon is taken only together with the value behind it. -/
instance : Firm (keyedElement sub) := by
  unfold keyedElement
  infer_instance

/-- The braces of a literal are taken even when there is nothing in them. -/
instance : Firm (literalValue sub) := by
  unfold literalValue
  infer_instance

/-- The type is read already, so the literal takes its braces only. -/
instance (type : Tree) : Firm (compositeLiteral sub type) := by
  unfold compositeLiteral
  infer_instance

/-- An argument ends with its expression or with the dots behind it. -/
instance : Firm (argument sub) := by
  unfold argument
  infer_instance

instance : Firm (argumentList sub) := by
  unfold argumentList
  infer_instance

/-- An empty list of arguments closes at once; else the first argument is a type. -/
instance : Firm (allocationList sub) := by
  unfold allocationList
  refine Takes.node (firm_bind_tidy fun _ => tidy_bind fun empty => ?_)
  split <;> infer_instance

instance (type : Tree) : Firm (conversion sub type) := by
  unfold conversion
  infer_instance

/-- Behind a type come the braces of a literal or the parentheses of a conversion. -/
instance (type : Tree) : Firm (typedOperand sub type) := by
  unfold typedOperand
  refine Takes.afterLook fun tag => ?_
  split <;> infer_instance

/-- A function literal ends with its body, and a conversion with its parenthesis. -/
instance : Firm (functionOperand sub) := by
  unfold functionOperand
  infer_instance

instance : Firm (parenthesized sub) := by
  unfold parenthesized
  infer_instance

/-- So is a literal of one token. -/
theorem isInner_of_basicLiteral? {tag : Tag} {kind : Kind}
    (hkind : basicLiteral? tag = some kind) : tag.IsInner := by
  refine ⟨⟨?_, ?_⟩, ?_⟩ <;> rintro rfl <;> cases hkind

/-- `new` and `make` are words of their own: the word was seen before it is taken. -/
theorem takesAt_allocation (word : Predeclared) :
    TakesAt (some (.predeclared word)) InnerSolid (allocation sub) := by
  unfold allocation
  exact (takesAt_take (.predeclared _) ⟨⟨nofun, nofun⟩, nofun⟩).bind inferInstance

/-- The first token tells the kind of operand. Where it is taken as it was seen, it has
to be shown to be solid; the other kinds are firm by themselves. -/
instance : Firm (operand sub) := by
  unfold operand
  refine .ofNext fun seen => ?_
  split
  · exact Takes.at inferInstance _
  · exact Takes.at inferInstance _
  · exact takesAt_allocation sub _
  · exact takesAt_allocation sub _
  · exact (takesAt_take (.predeclared _) ⟨⟨nofun, nofun⟩, nofun⟩).bind inferInstance
  · exact Takes.at inferInstance _
  · exact Takes.at inferInstance _
  · exact Takes.at inferInstance _
  · exact Takes.at inferInstance _
  · exact Takes.at inferInstance _
  · exact Takes.at inferInstance _
  · exact Takes.at inferInstance _
  · split
    · next tag _ _ _ _ _ _ _ _ _ _ _ kind hkind =>
        exact (takesAt_take _ (isInner_of_basicLiteral? hkind)).bind inferInstance
    · exact Takes.at inferInstance _
  · exact Takes.at inferInstance _

/-- A selector ends with its name, and an assertion with its parenthesis. -/
instance (base : Tree) : Firm (dotSuffix sub base) := by
  unfold dotSuffix
  infer_instance

/-- Type arguments are followed by a call or by a literal, or nothing is read. -/
instance (base : Tree) : Firm (instantiated sub literals base) := by
  unfold instantiated
  refine firm_bind_tidy fun arguments => Takes.afterLook fun tag => ?_
  split
  · infer_instance
  · infer_instance
  · infer_instance

/-- An index closes behind its expression. A slice goes on with its colon, which may
come first, and both end with a bracket. -/
instance (base : Tree) : Firm (indexSuffix sub base) := by
  unfold indexSuffix
  have hslice (first : Option Tree) : Firm (do
      sign .colon
      let second ← optional? (sub (.expression true))
      let third ← if second.isSome && (← accept .colon) then some <$> sub (.expression true)
        else pure none
      sign .rightBracket
      close .sliceExpression base.start
        (base.withRole .operand :: (first.toList ++ second.toList ++ third.toList))) := by
    infer_instance
  refine firm_bind_tidy fun _ => tidy_bind fun first => ?_
  dsimp only
  split
  · refine tidy_bind fun closed => ?_
    split <;> infer_instance
  · infer_instance

instance (base : Tree) : Firm (bareInstantiation sub base) := by
  unfold bareInstantiation
  split <;> infer_instance

/-- The guard is three tokens further on, and none of them is taken. -/
instance : Looks seesTypeGuard := by
  unfold seesTypeGuard
  infer_instance

/-- A suffix takes at least the sign that it begins with. -/
instance (base : Tree) : Firm (suffix sub literals base) := by
  unfold suffix
  refine Takes.afterLook fun tag => ?_
  split
  · infer_instance
  · infer_instance
  · infer_instance
  · split <;> infer_instance
  · infer_instance

/-- The induction is on the rounds: no suffix, or one and the others. -/
instance tidy_suffixes : ∀ rounds base, Tidy (suffixes sub literals rounds base)
  | 0, base => inferInstanceAs (Tidy (pure base))
  | rounds + 1, base => by
      have ih := tidy_suffixes rounds
      unfold suffixes
      refine tidy_bind fun whole => ?_
      split <;> infer_instance

/-- An operator with an operand, or an operand with suffixes. A suffix never comes
alone. -/
instance : Firm (unary sub literals) := by
  unfold unary
  refine .ofNext fun seen => ?_
  split
  · next tag =>
      split
      · next hunary =>
          exact (takesAt_take _ (isInner_of_isUnary hunary)).bind inferInstance
      · exact Takes.at inferInstance _
  · exact Takes.at inferInstance _

-- ========================================================= declarations

/-- A group of specifications takes its parentheses. Terminators come between the items
and before the end, so they are inside. -/
instance {item : Reader Tree} [Firm item] : Firm (specifications item) := by
  unfold specifications
  infer_instance

instance : Firm constantNames := by
  unfold constantNames
  infer_instance

/-- A constant may end with its names. A type counts only with values behind it. -/
instance : Firm (constantSpec sub) := by
  unfold constantSpec
  have htyped : Tidy (do
      let type ← if ← seesSign .assign then pure [] else (fun type => [type]) <$> typeAs sub .type
      sign .assign
      let values ← expressionList sub true
      return type ++ [values.withRole .value]) := by
    refine Takes.afterLook fun assigned => ?_
    dsimp only
    split <;> infer_instance
  infer_instance

instance : Firm (variableSpec sub) := by
  unfold variableSpec
  infer_instance

/-- All ways of declaring a type begin with its name and end with what it stands for. -/
instance : Firm (typeSpec sub) := by
  unfold typeSpec
  infer_instance

/-- The keyword tells the kind of declaration, in a group or not. -/
instance : Firm (declaration sub) := by
  unfold declaration
  refine Takes.afterLook fun tag => ?_
  split <;> infer_instance

/-- `package` and a name, and nothing else. -/
theorem answers_packageClause {before after : Cursor} {tree : Tree}
    (answers : packageClause.Answers before tree after) :
    ∃ word name, word.tag = .keyword .packageKey ∧ isName name.tag = true
      ∧ before.Passes [word, name] after
      ∧ ∃ children, tree = .node ⟨.packageClause, none, word.start, name.stop⟩ children := by
  obtain ⟨children, rfl, hchildren⟩ := answers_node answers
  obtain ⟨taken, middle, htaken, hname⟩ := answers_bind hchildren
  obtain ⟨word, middle', hword, hpure⟩ := answers_bind htaken
  obtain ⟨-, rfl⟩ := answers_pure hpure
  obtain ⟨leaf, last, hleaf, hpure⟩ := answers_bind hname
  obtain ⟨-, rfl⟩ := answers_pure hpure
  obtain ⟨name, last', hname, hpure⟩ := answers_bind hleaf
  obtain ⟨-, rfl⟩ := answers_pure hpure
  obtain ⟨hfits, passes⟩ := answers_takeIf hword
  obtain ⟨hfits', passes'⟩ := answers_takeIf hname
  have hpasses := passes.trans passes'
  refine ⟨word, name, eq_of_beq hfits, hfits', hpasses, children, ?_⟩
  rw [Cursor.here, hpasses.tokens, hpasses.last]
  rfl

/-- A name for an import, a dot or a blank, or nothing where the path comes first. -/
instance : Tidy importName := by
  unfold importName
  refine .ofNext fun seen => ?_
  split
  · exact ((takesAt_take (.sign _) ⟨⟨nofun, nofun⟩, nofun⟩).bind inferInstance).tidy
  · exact ((takesAt_take .blank ⟨⟨nofun, nofun⟩, nofun⟩).bind inferInstance).tidy
  · exact Takes.at inferInstance _
  · exact Takes.at inferInstance _

/-- Whatever an import is called, it ends with its path. -/
instance : Firm importSpec := by
  unfold importSpec
  infer_instance

instance : Firm importDeclaration := by
  unfold importDeclaration
  infer_instance

/-- A function that is declared elsewhere has no body here. -/
instance : Tidy (functionBody sub) := by
  unfold functionBody
  infer_instance

/-- A function begins with `func` and ends with its signature or its body. -/
instance : Firm (functionDeclaration sub) := by
  unfold functionDeclaration
  refine Takes.node (firm_bind_tidy fun _ => tidy_bind fun word => Takes.afterLook fun generic => ?_)
  dsimp only
  split <;> infer_instance

instance : Firm (methodDeclaration sub) := by
  unfold methodDeclaration
  infer_instance

-- =========================================================== statements

/-- So is an assignment sign, plain or joined with an operator. -/
theorem isInner_of_isAssignment {tag : Tag} (hassigns : isAssignment tag = true) :
    tag.IsInner := by
  refine ⟨⟨?_, ?_⟩, ?_⟩ <;> rintro rfl <;> cases hassigns

/-- The expression is read already, so nothing more is taken. -/
instance (list : Tree) : Tidy (expressionStatement list) := by
  unfold expressionStatement
  split <;> infer_instance

/-- Whether a list has one expression is a question about its tree. -/
instance (list : Tree) : Looks (single list) where
  stays answers := by
    unfold single at answers
    split at answers
    · exact Looks.stays answers
    · exact absurd answers not_answers_failure

/-- So is whether a statement is nothing but an expression. -/
instance (statement : Tree) : Looks (conditionOf statement) where
  stays answers := by
    unfold conditionOf at answers
    split at answers
    · exact Looks.stays answers
    · exact absurd answers not_answers_failure

/-- The sign behind the first expressions tells the kind of statement. It is taken in
each case but the last, where the expressions are all there is. -/
instance : Firm (simpleStatement sub literals) := by
  unfold simpleStatement
  refine firm_bind_tidy fun lhs => .ofNext fun seen => ?_
  split
  · exact Takes.at inferInstance _
  · exact Takes.at inferInstance _
  · exact Takes.at inferInstance _
  · exact Takes.at inferInstance _
  · split
    · next hassigns =>
        exact ((takesAt_take _ (isInner_of_isAssignment hassigns)).bind inferInstance).tidy
    · exact Takes.at inferInstance _
  · exact Takes.at inferInstance _

instance : Firm label := by
  unfold label
  infer_instance

instance : Firm (statementOrLabel sub) := by
  unfold statementOrLabel
  infer_instance

/-- Statements begin with a statement, but may end with a terminator. -/
instance opens_statements : ∀ rounds, Opens (statements sub rounds)
  | 0 => inferInstanceAs (Opens (pure []))
  | rounds + 1 => by
      have ih := opens_statements rounds
      unfold statements
      refine opens_optional? (inferInstanceAs (Opens (pure []))) fun statement => ?_
      dsimp only
      split
      · infer_instance
      · refine moves_bind fun ended => ?_
        split <;> infer_instance

instance : Opens (statementList sub) := by
  unfold statementList
  infer_instance

/-- A block takes its braces. The statements in it may end with a terminator, which is
inside. -/
instance : Firm (block sub) := by
  unfold block
  infer_instance

/-- The header has one part or two; either way the statement ends with a block, its own
or that of an `else`. -/
instance : Firm (ifStatement sub) := by
  unfold ifStatement
  have hrest (header : List Tree) : Firm (do
      let consequence ← sub .block
      let alternative ← if ← seesKeyword .elseKey then do
          keyword .elseKey
          let other ← if ← seesKeyword .ifKey then sub .ifStatement else sub .block
          pure [other.withRole .alternative]
        else pure []
      return header ++ consequence.withRole .consequence :: alternative) := by
    refine firm_bind_tidy fun consequence => Takes.afterLook fun more => ?_
    dsimp only
    split <;> infer_instance
  refine Takes.node (firm_bind_tidy fun _ => tidy_bind fun first => tidy_bind fun more => ?_)
  dsimp only
  split <;> infer_instance

/-- A range without variables begins with its keyword, and every range ends with what is
looped over. -/
instance : Firm (rangeClause sub) := by
  unfold rangeClause
  have hassigns : Firm (takeIf fun tag => tag == .sign .define || tag == .sign .assign) :=
    firm_takeIf fun tag hfits => by
      refine ⟨⟨?_, ?_⟩, ?_⟩ <;> rintro rfl <;> cases hfits
  refine Takes.node (Takes.afterLook fun bare => ?_)
  dsimp only
  split <;> infer_instance

/-- All three parts may be missing, but the two semicolons may not, so the clause is
never empty. -/
instance : Firm (forClause sub) := by
  unfold forClause
  refine Takes.node (Takes.afterLook fun _ => ?_)
  dsimp only
  split
  all_goals
    refine firm_bind fun _ => firm_bind_tidy fun _ => Takes.afterLook fun _ => ?_
    split
    all_goals
      refine tidy_bind fun _ => tidy_bind fun _ => Takes.afterLook fun _ => ?_
      split <;> infer_instance

instance : Firm (forStatement sub) := by
  unfold forStatement
  infer_instance

instance : Opens (caseBody sub) := by
  unfold caseBody
  infer_instance

instance : Opens (defaultCase sub) := by
  unfold defaultCase
  infer_instance

instance : Opens (expressionCase sub) := by
  unfold expressionCase
  infer_instance

instance : Opens (typeCase sub) := by
  unfold typeCase
  infer_instance

/-- A case may end with a terminator. The brace behind the cases makes them firm. -/
instance {oneCase : Reader Tree} [Opens oneCase] : Firm (cases sub oneCase) := by
  unfold cases
  infer_instance

/-- The guard is its four tokens; what it binds is read already. -/
instance (statement : Tree) : Firm (typeGuard statement) := by
  unfold typeGuard
  refine firm_bind_tidy fun _ => tidy_bind fun _ => tidy_bind fun _ => tidy_bind fun _ => ?_
  split <;> infer_instance

/-- The parts of the header may be missing in all combinations, and each of them ends
with the same braces. -/
instance : Firm (switchStatement sub) := by
  unfold switchStatement
  refine Takes.afterLook fun start => firm_bind_tidy fun _ => ?_
  refine Takes.afterLook fun _ => Takes.afterLook fun _ => ?_
  dsimp only
  split
  all_goals
    refine tidy_bind fun first => tidy_bind fun initialized => ?_
    split
    · refine Takes.afterLook fun _ => ?_
      split
      all_goals
        refine tidy_bind fun subject => ?_
        split <;> infer_instance
    · refine tidy_bind fun subject => ?_
      split <;> infer_instance

/-- A case of a `select` waits for a simple statement, and reads it again as a receive
where it can be one. -/
instance : Firm (communication sub) := by
  unfold communication
  refine Takes.afterLook fun start => firm_bind_tidy fun statement => ?_
  split
  · infer_instance
  · split <;> infer_instance
  · split <;> infer_instance
  · infer_instance

instance : Opens (communicationCase sub) := by
  unfold communicationCase
  infer_instance

instance : Firm (selectStatement sub) := by
  unfold selectStatement
  infer_instance

/-- A jump may end with its keyword. -/
instance (kind : Kind) (word : Keyword) [Holds word.isInner] : Firm (jump kind word) := by
  unfold jump
  infer_instance

/-- Two tokens tell the kind of statement. The second is asked only where a name may be
a label. -/
instance : Firm (statement sub) := by
  unfold statement
  refine Takes.afterLook fun tag => Takes.afterLook fun tag' => ?_
  split
  case h_17 => split <;> infer_instance
  all_goals infer_instance

-- =========================================================== whole trees

omit firm

/-- The tree of a declaration is made around all that is read for it. -/
instance : Covers (declaration sub) := by
  unfold declaration
  refine .afterLook fun tag => ?_
  split <;> infer_instance

instance : Covers importDeclaration := by
  unfold importDeclaration
  infer_instance

instance : Covers (functionDeclaration sub) := by
  unfold functionDeclaration
  infer_instance

instance : Covers (methodDeclaration sub) := by
  unfold methodDeclaration
  infer_instance

instance : Covers (expressionList sub literals) := by
  unfold expressionList
  infer_instance

/-- The tree begins where its expression does, which was before anything is read here. -/
instance (list : Tree) : Builds list.start (expressionStatement list) := by
  unfold expressionStatement
  split <;> infer_instance

/-- The tree begins with the first expression and ends with the last thing read, in each
kind of statement. -/
instance : Covers (simpleStatement sub literals) := by
  unfold simpleStatement
  refine .goOn fun lhs => .bind fun tag => ?_
  split
  case h_5 => split <;> infer_instance
  all_goals infer_instance

instance : Covers (block sub) := by
  unfold block
  infer_instance

instance : Covers (ifStatement sub) := by
  unfold ifStatement
  infer_instance

/-- The place of the keyword is kept, and the tree ends with the braces of the cases. -/
instance : Covers (switchStatement sub) := by
  unfold switchStatement
  refine .fromHere fun start => .bind fun _ => .bind fun _ => .bind fun _ => ?_
  dsimp only
  split
  all_goals
    refine .bind fun first => .bind fun initialized => ?_
    split
    · refine .bind fun _ => ?_
      split
      all_goals
        refine .bind fun subject => ?_
        split <;> infer_instance
    · refine .bind fun subject => ?_
      split <;> infer_instance

/-- A statement that is a block or a condition is read as another goal, which has to
cover as well. -/
instance [Covers (sub .block)] [Covers (sub .ifStatement)] : Covers (statement sub) := by
  unfold statement forStatement selectStatement jump
  refine .afterLook fun tag => .afterLook fun tag' => ?_
  split
  case h_17 => split <;> infer_instance
  all_goals infer_instance

-- ============================================================ the circle

/-- Every goal takes tokens, at any depth. -/
instance firm_descend : ∀ depth goal, Firm (descend depth goal)
  | 0, _ => inferInstanceAs (Firm failure)
  | depth + 1, goal => by
      have ih := firm_descend depth
      unfold descend
      cases goal <;> dsimp only <;> infer_instance

/-- The other goals lead back to the productions, one level of the descent deeper. -/
instance covers_block : ∀ depth, Covers (descend depth .block)
  | 0 => inferInstanceAs (Covers failure)
  | depth + 1 => inferInstanceAs (Covers (block (descend depth)))

instance covers_ifStatement : ∀ depth, Covers (descend depth .ifStatement)
  | 0 => inferInstanceAs (Covers failure)
  | depth + 1 => inferInstanceAs (Covers (ifStatement (descend depth)))

instance covers_statement : ∀ depth, Covers (descend depth .statement)
  | 0 => inferInstanceAs (Covers failure)
  | depth + 1 => inferInstanceAs (Covers (statement (descend depth)))

end Assay.Syntax.Grammar
