import Lox.Proofs.Grammar.Genuine
import Lox.Proofs.Grammar.Numbering
import Lox.Proofs.Scope.Lookup
import Lox.Proofs.Scope.Occurrences
import Lox.Proofs.Source.Spelling

/-!
Contract: what the table of local names says about every occurrence in a program.

Owns:
- `ResolvedStatements` and its companions: at every occurrence of a name the record is
  the number of scopes between it and its declaration, or nothing if no open scope
  declares it; and every declaration in a scope is the first one of its name there;
- `resolve_resolved`: the table of a program without violations resolves the program.

The judgement speaks about the text alone. It does not mention the walk that made the
table, nor the order in which occurrences were found.
-/

namespace Lox.Scope

/-- What is known about the records of occurrences: the number of an occurrence and its
record. -/
abbrev Recorded := Nat → Option Nat → Prop

mutual

/-- The records in an expression are right. -/
def ResolvedExpression (recorded : Recorded) (scopes : Scopes) : Expression → Prop
  | .literal _ _ => True
  | .grouping _ inner | .unary _ _ inner | .get _ inner _ =>
      ResolvedExpression recorded scopes inner
  | .binary _ left _ right | .logical _ left _ right =>
      ResolvedExpression recorded scopes left ∧ ResolvedExpression recorded scopes right
  | .variable id name =>
      scopes.innermost? name.lexeme ≠ some false ∧ recorded id (scopes.distance? name.lexeme)
  | .this id keyword =>
      keyword.lexeme = Keyword.this.spelling ∧ recorded id (scopes.distance? keyword.lexeme)
  | .assign id name value =>
      ResolvedExpression recorded scopes value ∧ recorded id (scopes.distance? name.lexeme)
  | .call _ callee _ arguments =>
      ResolvedExpression recorded scopes callee ∧ ResolvedExpressions recorded scopes arguments
  | .set _ object _ value =>
      ResolvedExpression recorded scopes object ∧ ResolvedExpression recorded scopes value

/-- The records in several expressions are right. -/
def ResolvedExpressions (recorded : Recorded) (scopes : Scopes) : List Expression → Prop
  | [] => True
  | expression :: rest =>
      ResolvedExpression recorded scopes expression ∧ ResolvedExpressions recorded scopes rest

end

/-- The records in an expression that may be absent are right. -/
def ResolvedOptional (recorded : Recorded) (scopes : Scopes) : Option Expression → Prop
  | none => True
  | some expression => ResolvedExpression recorded scopes expression

mutual

/-- The records in a statement are right, and so are its declarations. -/
def ResolvedStatement (recorded : Recorded) (scopes : Scopes) : Statement → Prop
  | .expression value | .print value => ResolvedExpression recorded scopes value
  | .var name initializer =>
      (scopes.Free name ∧ name.lexeme ≠ Keyword.this.spelling) ∧
        ResolvedOptional recorded (scopes.declare name).1 initializer
  | .block statements => ResolvedStatements recorded ([] :: scopes) statements
  | .conditional condition thenBranch none =>
      ResolvedExpression recorded scopes condition ∧
        thenBranch.isDeclaration = false ∧ ResolvedStatement recorded scopes thenBranch
  | .conditional condition thenBranch (some elseBranch) =>
      ResolvedExpression recorded scopes condition ∧
        (thenBranch.isDeclaration = false ∧ ResolvedStatement recorded scopes thenBranch) ∧
          elseBranch.isDeclaration = false ∧ ResolvedStatement recorded scopes elseBranch
  | .loop condition body =>
      ResolvedExpression recorded scopes condition ∧
        body.isDeclaration = false ∧ ResolvedStatement recorded scopes body
  | .function declaration =>
      scopes.Free declaration.name ∧
        ResolvedFunction recorded (scopes.introduce declaration.name).1 declaration
  | .return _ value => ResolvedOptional recorded scopes value
  | .class name methods =>
      scopes.Free name ∧ ResolvedMethods recorded (scopes.introduce name).1.withThis methods

/-- The records in statements that follow one another are right. -/
def ResolvedStatements (recorded : Recorded) (scopes : Scopes) : List Statement → Prop
  | [] => True
  | statement :: rest =>
      ResolvedStatement recorded scopes statement ∧
        ResolvedStatements recorded (scopes.behind statement) rest

/-- The records in a function are right, and its parameters differ. -/
def ResolvedFunction (recorded : Recorded) (scopes : Scopes) : FunctionOf Statement → Prop
  | ⟨_, parameters, body⟩ =>
      Scopes.AllFree ([] :: scopes) parameters ∧
        ResolvedStatements recorded (Scopes.introduceAll ([] :: scopes) parameters).1 body

/-- The records in the methods of a class are right. -/
def ResolvedMethods (recorded : Recorded) (scopes : Scopes) :
    List (FunctionOf Statement) → Prop
  | [] => True
  | method :: rest =>
      ResolvedFunction recorded scopes method ∧ ResolvedMethods recorded scopes rest

end

/-- The condition and the first branch of a conditional, with another branch or without. -/
theorem resolvedConditional {recorded : Recorded} {scopes : Scopes} {condition : Expression}
    {thenBranch : Statement} {elseBranch : Option Statement}
    (resolved : ResolvedStatement recorded scopes (.conditional condition thenBranch elseBranch)) :
    ResolvedExpression recorded scopes condition ∧
      ResolvedStatement recorded scopes thenBranch := by
  cases elseBranch with
  | none => exact ⟨resolved.1, resolved.2.2⟩
  | some => exact ⟨resolved.1, resolved.2.1.2⟩

theorem resolvedFunction_iff {recorded : Recorded} {scopes : Scopes}
    {declaration : FunctionDeclaration} :
    ResolvedFunction recorded scopes declaration ↔
      Scopes.AllFree ([] :: scopes) declaration.parameters ∧
        ResolvedStatements recorded (Scopes.introduceAll ([] :: scopes) declaration.parameters).1
          declaration.body := by
  cases declaration
  exact Iff.rfl

/-! ### More may be known -/

section Monotone

variable {recorded known : Recorded}

mutual

theorem ResolvedExpression.mono (more : ∀ id distance, recorded id distance → known id distance)
    (scopes : Scopes) : (expression : Expression) →
    ResolvedExpression recorded scopes expression → ResolvedExpression known scopes expression
  | .literal _ _, _ => trivial
  | .grouping _ inner, resolved | .unary _ _ inner, resolved | .get _ inner _, resolved =>
      ResolvedExpression.mono more scopes inner resolved
  | .binary _ left _ right, resolved | .logical _ left _ right, resolved =>
      ⟨ResolvedExpression.mono more scopes left resolved.1,
        ResolvedExpression.mono more scopes right resolved.2⟩
  | .variable _ _, resolved | .this _ _, resolved => ⟨resolved.1, more _ _ resolved.2⟩
  | .assign _ _ value, resolved =>
      ⟨ResolvedExpression.mono more scopes value resolved.1, more _ _ resolved.2⟩
  | .call _ callee _ arguments, resolved =>
      ⟨ResolvedExpression.mono more scopes callee resolved.1,
        ResolvedExpressions.mono more scopes arguments resolved.2⟩
  | .set _ object _ value, resolved =>
      ⟨ResolvedExpression.mono more scopes object resolved.1,
        ResolvedExpression.mono more scopes value resolved.2⟩

theorem ResolvedExpressions.mono (more : ∀ id distance, recorded id distance → known id distance)
    (scopes : Scopes) : (expressions : List Expression) →
    ResolvedExpressions recorded scopes expressions → ResolvedExpressions known scopes expressions
  | [], _ => trivial
  | expression :: rest, resolved =>
      ⟨ResolvedExpression.mono more scopes expression resolved.1,
        ResolvedExpressions.mono more scopes rest resolved.2⟩

end

theorem ResolvedOptional.mono (more : ∀ id distance, recorded id distance → known id distance)
    (scopes : Scopes) (expression : Option Expression)
    (resolved : ResolvedOptional recorded scopes expression) :
    ResolvedOptional known scopes expression := by
  cases expression with
  | none => trivial
  | some expression => exact ResolvedExpression.mono more scopes expression resolved

mutual

theorem ResolvedStatement.mono (more : ∀ id distance, recorded id distance → known id distance)
    (scopes : Scopes) : (statement : Statement) →
    ResolvedStatement recorded scopes statement → ResolvedStatement known scopes statement
  | .expression value, resolved | .print value, resolved =>
      ResolvedExpression.mono more scopes value resolved
  | .var _ initializer, resolved =>
      ⟨resolved.1, ResolvedOptional.mono more _ initializer resolved.2⟩
  | .block statements, resolved => ResolvedStatements.mono more _ statements resolved
  | .conditional condition thenBranch none, resolved =>
      ⟨ResolvedExpression.mono more scopes condition resolved.1, resolved.2.1,
        ResolvedStatement.mono more scopes thenBranch resolved.2.2⟩
  | .conditional condition thenBranch (some elseBranch), resolved =>
      ⟨ResolvedExpression.mono more scopes condition resolved.1,
        ⟨resolved.2.1.1, ResolvedStatement.mono more scopes thenBranch resolved.2.1.2⟩,
        resolved.2.2.1, ResolvedStatement.mono more scopes elseBranch resolved.2.2.2⟩
  | .loop condition body, resolved =>
      ⟨ResolvedExpression.mono more scopes condition resolved.1, resolved.2.1,
        ResolvedStatement.mono more scopes body resolved.2.2⟩
  | .function declaration, resolved =>
      ⟨resolved.1, ResolvedFunction.mono more _ declaration resolved.2⟩
  | .return _ value, resolved => ResolvedOptional.mono more scopes value resolved
  | .class _ methods, resolved => ⟨resolved.1, ResolvedMethods.mono more _ methods resolved.2⟩

theorem ResolvedStatements.mono (more : ∀ id distance, recorded id distance → known id distance)
    (scopes : Scopes) : (statements : List Statement) →
    ResolvedStatements recorded scopes statements → ResolvedStatements known scopes statements
  | [], _ => trivial
  | statement :: rest, resolved =>
      ⟨ResolvedStatement.mono more scopes statement resolved.1,
        ResolvedStatements.mono more _ rest resolved.2⟩

theorem ResolvedFunction.mono (more : ∀ id distance, recorded id distance → known id distance)
    (scopes : Scopes) : (declaration : FunctionOf Statement) →
    ResolvedFunction recorded scopes declaration → ResolvedFunction known scopes declaration
  | ⟨_, _, body⟩, resolved => ⟨resolved.1, ResolvedStatements.mono more _ body resolved.2⟩

theorem ResolvedMethods.mono (more : ∀ id distance, recorded id distance → known id distance)
    (scopes : Scopes) : (methods : List (FunctionOf Statement)) →
    ResolvedMethods recorded scopes methods → ResolvedMethods known scopes methods
  | [], _ => trivial
  | method :: rest, resolved =>
      ⟨ResolvedFunction.mono more scopes method resolved.1,
        ResolvedMethods.mono more scopes rest resolved.2⟩

end

end Monotone

/-! ### From the walk to the judgement -/

/-- Part of the findings of a program without violations: what is found at some of the
nodes is found in this part. -/
structure Within (whole : List Nat) (found : List Finding) (numbers : List Nat)
    (part : List Finding) : Prop where
  among : numbers ⊆ whole
  clean : ∀ error, .violation error ∉ part
  kept : ∀ id distance, .located id distance ∈ part → .located id distance ∈ found
  own : ∀ id ∈ numbers, ∀ distance, .located id distance ∈ found → .located id distance ∈ part
  distinct : numbers.Nodup

namespace Within

variable {found before behind : List Finding} {whole first second numbers : List Nat}

theorem swap (within : Within whole found numbers (before ++ behind)) :
    Within whole found numbers (behind ++ before) where
  among := within.among
  clean error member := within.clean error (List.perm_append_comm.mem_iff.mp member)
  kept id distance member :=
    within.kept id distance (List.perm_append_comm.mem_iff.mp member)
  own id member distance located :=
    List.perm_append_comm.mem_iff.mp (within.own id member distance located)
  distinct := within.distinct

theorem perm {others : List Nat} {part : List Finding} (within : Within whole found numbers part)
    (same : numbers.Perm others) : Within whole found others part where
  among := fun _ member => within.among (same.mem_iff.mpr member)
  clean := within.clean
  kept := within.kept
  own id member := within.own id (same.mem_iff.mpr member)
  distinct := same.nodup_iff.mp within.distinct

/-- The nodes of the first part are not found in the second. -/
theorem left (within : Within whole found (first ++ second) (before ++ behind))
    (covers : Covers second behind) : Within whole found first before where
  among := List.Subset.trans (List.subset_append_left _ _) within.among
  clean error member := within.clean error (List.mem_append_left _ member)
  kept id distance member := within.kept id distance (List.mem_append_left _ member)
  own id member distance located := by
    have either := within.own id (List.mem_append_left _ member) distance located
    rcases List.mem_append.mp either with here | there
    · exact here
    · have apart := (List.nodup_append.mp within.distinct).2.2
      exact absurd rfl (apart id member id (covers id distance there))
  distinct := (List.nodup_append.mp within.distinct).1

theorem right (within : Within whole found (first ++ second) (before ++ behind))
    (covers : Covers first before) : Within whole found second behind :=
  (within.perm List.perm_append_comm).swap.left covers

/-- Fewer nodes. -/
theorem sublist {fewer : List Nat} {part : List Finding} (within : Within whole found numbers part)
    (sub : fewer.Sublist numbers) : Within whole found fewer part where
  among := List.Subset.trans sub.subset within.among
  clean := within.clean
  kept := within.kept
  own id member := within.own id (sub.subset member)
  distinct := sub.nodup within.distinct

end Within

/-- What the findings of a program tell about the record of an occurrence. -/
def Tells (whole : List Nat) (found : List Finding) : Recorded := fun id record =>
  id ∈ whole ∧ ∀ distance, .located id distance ∈ found ↔ record = some distance

theorem tells_of_locate {whole : List Nat} {found : List Finding} {scopes : Scopes}
    {name : Token} {id : Nat}
    (within : Within whole found [id] (scopes.locate id name)) :
    Tells whole found id (scopes.distance? name.lexeme) := by
  refine ⟨within.among (List.mem_singleton.mpr rfl), fun distance => ?_⟩
  have here : .located id distance ∈ scopes.locate id name ↔
      scopes.distance? name.lexeme = some distance := by
    unfold Scopes.locate
    split
    case h_1 recorded same => simp [same, eq_comm]
    case h_2 same => simp [same]
  rw [← here]
  exact ⟨within.own id (List.mem_singleton.mpr rfl) distance, within.kept id distance⟩

variable {whole : List Nat} {found : List Finding}

mutual

/-- By induction on the expression: its parts are found in different parts of the findings. -/
theorem ofExpression_resolved (inClass : Bool) (scopes : Scopes) : (expression : Expression) →
    expression.Genuine Token.Spelled →
    Within whole found expression.numbers (ofExpression inClass scopes expression) →
    ResolvedExpression (Tells whole found) scopes expression
  | .literal _ _, _, _ => trivial
  | .grouping _ inner, genuine, within =>
      ofExpression_resolved inClass scopes inner genuine
        (within.sublist (List.sublist_append_left _ _))
  | .unary _ _ inner, genuine, within | .get _ inner _, genuine, within =>
      ofExpression_resolved inClass scopes inner genuine.2
        (within.sublist (List.sublist_append_left _ _))
  | .binary _ left _ right, genuine, within | .logical _ left _ right, genuine, within =>
      have parts := within.sublist (List.sublist_append_left _ _)
      ⟨ofExpression_resolved inClass scopes left genuine.2.1
          (parts.left (ofExpression_covers inClass scopes right)),
        ofExpression_resolved inClass scopes right genuine.2.2
          (parts.right (ofExpression_covers inClass scopes left))⟩
  | .variable id name, _, within => by
      have complete : scopes.innermost? name.lexeme ≠ some false := by
        intro pending
        refine within.clean ⟨name, .ownInitializer⟩ ?_
        simp [ofExpression, pending]
      refine ⟨complete, tells_of_locate ?_⟩
      simpa [ofExpression, complete, Expression.numbers] using within
  | .this id keyword, genuine, within => by
      refine ⟨genuine.2.eq_spelling genuine.1, ?_⟩
      cases inClass with
      | true =>
          refine tells_of_locate ?_
          simpa [ofExpression, Expression.numbers] using within
      | false =>
          refine absurd ?_ (within.clean ⟨keyword, .thisOutsideClass⟩)
          simp [ofExpression]
  | .assign id name value, genuine, within =>
      ⟨ofExpression_resolved inClass scopes value genuine.2 (within.left (locate_covers scopes
          name (List.mem_singleton.mpr (rfl : id = id)))),
        tells_of_locate (within.right (ofExpression_covers inClass scopes value))⟩
  | .call _ callee _ arguments, genuine, within =>
      have parts := within.sublist (List.sublist_append_left _ _)
      ⟨ofExpression_resolved inClass scopes callee genuine.2.1
          (parts.left (ofExpressions_covers inClass scopes arguments)),
        ofExpressions_resolved inClass scopes arguments genuine.2.2
          (parts.right (ofExpression_covers inClass scopes callee))⟩
  | .set _ object _ value, genuine, within =>
      have parts := (within.sublist (List.sublist_append_left _ _)).swap
      ⟨ofExpression_resolved inClass scopes object genuine.2.1
          (parts.left (ofExpression_covers inClass scopes value)),
        ofExpression_resolved inClass scopes value genuine.2.2
          (parts.right (ofExpression_covers inClass scopes object))⟩

theorem ofExpressions_resolved (inClass : Bool) (scopes : Scopes) :
    (expressions : List Expression) → Expression.AllGenuine Token.Spelled expressions →
    Within whole found (Expression.numbersOfAll expressions)
      (ofExpressions inClass scopes expressions) →
    ResolvedExpressions (Tells whole found) scopes expressions
  | [], _, _ => trivial
  | expression :: rest, genuine, within =>
      ⟨ofExpression_resolved inClass scopes expression genuine.1
          (within.left (ofExpressions_covers inClass scopes rest)),
        ofExpressions_resolved inClass scopes rest genuine.2
          (within.right (ofExpression_covers inClass scopes expression))⟩

end

theorem ofOptional_resolved (inClass : Bool) (scopes : Scopes) (expression : Option Expression)
    (genuine : Expression.OptionGenuine Token.Spelled expression)
    (within : Within whole found (Expression.numbersOfOptional expression)
      (ofOptional inClass scopes expression)) :
    ResolvedOptional (Tells whole found) scopes expression := by
  cases expression with
  | none => trivial
  | some expression => exact ofExpression_resolved inClass scopes expression genuine within

/-- A name whose declaration is no violation is free. -/
theorem declare_free {scopes : Scopes} {name : Token} {numbers : List Nat}
    (within : Within whole found numbers (scopes.declare name).2) : scopes.Free name := by
  refine Option.not_isSome_iff_eq_none.mp fun declared => ?_
  refine within.clean ⟨name, .alreadyDeclared⟩ ?_
  simp [Scopes.declare, declared]

theorem introduceAll_free (scopes : Scopes) (names : List Token) {numbers : List Nat}
    (within : Within whole found numbers (scopes.introduceAll names).2) : scopes.AllFree names := by
  induction names generalizing scopes with
  | nil => trivial
  | cons name names inductionHypothesis =>
      have parts : Within whole found ([] ++ numbers)
          ((scopes.declare name).2 ++ ((scopes.introduce name).1.introduceAll names).2) := within
      refine ⟨declare_free (parts.left ?_), inductionHypothesis _ (parts.right ?_)⟩
      · exact introduceAll_covers _ _ names
      · exact declare_covers _ scopes name

theorem Scopes.behind_of_branch (scopes : Scopes) {statement : Statement}
    (noDeclaration : statement.isDeclaration = false) : scopes.behind statement = scopes := by
  cases statement <;> first | rfl | cases noDeclaration

/-- The walk goes on behind a statement in the scopes behind it. -/
theorem ofStatement_scopes (context : Context) (scopes : Scopes) :
    (statement : Statement) → statement.Tame →
    (ofStatement context scopes statement).1 = scopes.behind statement
  | .expression _, _ | .print _, _ | .var _ _, _ | .block _, _ | .function _, _ | .return _ _, _
  | .class _ _, _ => rfl
  | .conditional _ thenBranch none, tame =>
      (ofStatement_scopes context scopes thenBranch tame.2).trans
        (scopes.behind_of_branch tame.1)
  | .conditional _ thenBranch (some elseBranch), tame => by
      have between := (ofStatement_scopes context scopes thenBranch tame.1.2).trans
        (scopes.behind_of_branch tame.1.1)
      have following := (ofStatement_scopes context scopes elseBranch tame.2.2).trans
        (scopes.behind_of_branch tame.2.1)
      show (ofStatement context (ofStatement context scopes thenBranch).1 elseBranch).1 = scopes
      rw [between, following]
  | .loop _ body, tame =>
      (ofStatement_scopes context scopes body tame.2).trans (scopes.behind_of_branch tame.1)

mutual

/-- By induction on the statement, with the scopes that are open in each part. -/
theorem ofStatement_resolved (context : Context) (scopes : Scopes) : (statement : Statement) →
    statement.Tame → statement.Genuine Token.Spelled →
    Within whole found statement.numbers (ofStatement context scopes statement).2 →
    ResolvedStatement (Tells whole found) scopes statement
  | .expression value, _, genuine, within | .print value, _, genuine, within =>
      ofExpression_resolved context.inClass scopes value genuine within
  | .var name initializer, _, genuine, within =>
      have parts : Within whole found ([] ++ Expression.numbersOfOptional initializer) _ := within
      ⟨⟨declare_free (parts.left (ofOptional_covers context.inClass _ initializer)),
          genuine.1.2.ne_spelling genuine.1.1 .this⟩,
        ofOptional_resolved context.inClass _ initializer genuine.2
          (parts.right (declare_covers [] scopes name))⟩
  | .block statements, tame, genuine, within =>
      ofStatements_resolved context _ statements tame genuine within
  | .conditional condition thenBranch none, tame, genuine, within =>
      ⟨ofExpression_resolved context.inClass scopes condition genuine.1
          (within.left (ofStatement_covers context scopes thenBranch)),
        tame.1, ofStatement_resolved context scopes thenBranch tame.2 genuine.2
          (within.right (ofExpression_covers context.inClass scopes condition))⟩
  | .conditional condition thenBranch (some elseBranch), tame, genuine, within => by
      have between : (ofStatement context scopes thenBranch).1 = scopes :=
        (ofStatement_scopes context scopes thenBranch tame.1.2).trans
          (scopes.behind_of_branch tame.1.1)
      have conditionCovers := ofExpression_covers context.inClass scopes condition
      have thenCovers := ofStatement_covers context scopes thenBranch
      have elseCovers := ofStatement_covers context (ofStatement context scopes thenBranch).1
        elseBranch
      have front := within.left elseCovers
      have elseResolved := ofStatement_resolved context _ elseBranch tame.2.2 genuine.2.2
        (within.right (conditionCovers.append thenCovers))
      rw [between] at elseResolved
      exact ⟨ofExpression_resolved context.inClass scopes condition genuine.1
          (front.left thenCovers),
        ⟨tame.1.1, ofStatement_resolved context scopes thenBranch tame.1.2 genuine.2.1
          (front.right conditionCovers)⟩, tame.2.1, elseResolved⟩
  | .loop condition body, tame, genuine, within =>
      ⟨ofExpression_resolved context.inClass scopes condition genuine.1
          (within.left (ofStatement_covers context scopes body)),
        tame.1, ofStatement_resolved context scopes body tame.2 genuine.2
          (within.right (ofExpression_covers context.inClass scopes condition))⟩
  | .function declaration, tame, genuine, within =>
      have parts : Within whole found ([] ++ Statement.numbersOfFunction declaration) _ := within
      ⟨declare_free (parts.left (ofFunction_covers _ _ declaration)),
        ofFunction_resolved _ _ declaration tame genuine
          (parts.right (declare_covers [] scopes declaration.name))⟩
  | .return keyword value, _, genuine, within =>
      have parts : Within whole found ([] ++ Expression.numbersOfOptional value) _ := within
      ofOptional_resolved context.inClass scopes value genuine.2
        (parts.right (ofReturn_covers [] context.surrounding keyword value.isSome))
  | .class name methods, tame, genuine, within =>
      have parts : Within whole found ([] ++ Statement.numbersOfFunctions methods) _ := within
      ⟨declare_free (parts.left (ofMethods_covers _ methods)),
        ofMethods_resolved _ methods tame genuine.2
          (parts.right (declare_covers [] scopes name))⟩

theorem ofStatements_resolved (context : Context) (scopes : Scopes) :
    (statements : List Statement) → Statement.AllTame statements →
    Statement.AllGenuine Token.Spelled statements →
    Within whole found (Statement.numbersOfAll statements)
      (ofStatements context scopes statements) →
    ResolvedStatements (Tells whole found) scopes statements
  | [], _, _, _ => trivial
  | statement :: rest, tame, genuine, within => by
      have restResolved := ofStatements_resolved context _ rest tame.2 genuine.2
        (within.right (ofStatement_covers context scopes statement))
      rw [ofStatement_scopes context scopes statement tame.1] at restResolved
      exact ⟨ofStatement_resolved context scopes statement tame.1 genuine.1
        (within.left (ofStatements_covers context _ rest)), restResolved⟩

theorem ofFunction_resolved (context : Context) (scopes : Scopes) :
    (declaration : FunctionOf Statement) → Statement.FunctionTame declaration →
    Statement.FunctionGenuine Token.Spelled declaration →
    Within whole found (Statement.numbersOfFunction declaration)
      (ofFunction context scopes declaration) →
    ResolvedFunction (Tells whole found) scopes declaration
  | ⟨_, parameters, body⟩, tame, genuine, within =>
      have parts : Within whole found ([] ++ Statement.numbersOfAll body) _ := within
      ⟨introduceAll_free _ parameters (parts.left (ofStatements_covers context _ body)),
        ofStatements_resolved context _ body tame genuine.2.2
          (parts.right (introduceAll_covers [] _ parameters))⟩

theorem ofMethods_resolved (scopes : Scopes) : (methods : List (FunctionOf Statement)) →
    Statement.FunctionsTame methods → Statement.FunctionsGenuine Token.Spelled methods →
    Within whole found (Statement.numbersOfFunctions methods) (ofMethods scopes methods) →
    ResolvedMethods (Tells whole found) scopes methods
  | [], _, _, _ => trivial
  | method :: rest, tame, genuine, within =>
      ⟨ofFunction_resolved _ scopes method tame.1 genuine.1
          (within.left (ofMethods_covers scopes rest)),
        ofMethods_resolved scopes rest tame.2 genuine.2
          (within.right (ofFunction_covers _ scopes method))⟩

end

/-! ### The table -/

theorem locals_of_tells {id : Nat} {record : Option Nat} (tells : Tells whole found id record) :
    (locals found)[id]? = record := by
  rcases mem_or_absent_of_locals found id with ⟨distance, member, same⟩ | ⟨absent, same⟩
  · rw [(tells.2 distance).mp member]
    exact same
  · cases record with
    | none => exact same
    | some distance => exact absurd ((tells.2 distance).mpr rfl) (absent distance)

/-- The table of a program without violations resolves the program, if no two of its nodes
have the same number, branches declare nothing, and words are spelled as in a source. -/
theorem resolve_resolved {program : List Statement} {table : Locals}
    (accepted : resolve program = .ok table) (tame : Statement.AllTame program)
    (genuine : Statement.AllGenuine Token.Spelled program)
    (distinct : (Statement.numbersOfAll program).Nodup) :
    ResolvedStatements (fun id record => id ∈ Statement.numbersOfAll program ∧
      table[id]? = record) [] program := by
  obtain ⟨quiet, rfl⟩ := resolve_eq_ok_iff.mp accepted
  have within : Within (Statement.numbersOfAll program) (findings program)
      (Statement.numbersOfAll program) (findings program) := by
    refine ⟨List.Subset.refl _, fun error member => ?_, fun _ _ member => member,
      fun _ _ _ member => member, distinct⟩
    have reported : error ∈ violations (findings program) :=
      List.mem_filterMap.mpr ⟨.violation error, member, rfl⟩
    rw [quiet] at reported
    cases reported
  have resolved := ofStatements_resolved ⟨.topLevel, false⟩ [] program tame genuine within
  exact ResolvedStatements.mono (fun id record tells => ⟨tells.1, locals_of_tells tells⟩)
    [] program resolved

end Lox.Scope
