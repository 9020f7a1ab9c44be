import Lox.Proofs.Scope.Resolved
import Lox.Proofs.Scope.Table

/-!
Contract: where the code of accepted programs finds `this`.

Owns:
- `Expression.ThisAt` and its companions: each `this` has a record, which is the distance at which
  `this` is bound around the code, and no other name in the code is `this`;
- that the code of an accepted program is of this kind, with nothing bound around it.

Functions and blocks add a frame of their own. The methods of a class find `this` in the frame
that they close over, whatever is around the class.
-/

namespace Lox

/-- The records of occurrences that are local. -/
abbrev Scope.Distances := Nat → Nat → Prop

/-- A name that is not `this`. -/
def Token.Plain (name : Token) : Prop :=
  name.lexeme ≠ Keyword.this.spelling

section This

variable (known : Scope.Distances)

mutual

/-- In an expression `this` is used at most at the distance at which it is bound. -/
def Expression.ThisAt (distance : Option Nat) : Expression → Prop
  | .literal _ _ | .variable _ _ => True
  | .this id keyword =>
      keyword.lexeme = Keyword.this.spelling ∧ ∃ bound ∈ distance, known id bound
  | .grouping _ inner | .unary _ _ inner | .get _ inner _ => inner.ThisAt distance
  | .binary _ left _ right | .logical _ left _ right =>
      left.ThisAt distance ∧ right.ThisAt distance
  | .assign _ name value => name.Plain ∧ value.ThisAt distance
  | .call _ callee _ arguments =>
      callee.ThisAt distance ∧ Expression.AllThisAt distance arguments
  | .set _ object _ value => object.ThisAt distance ∧ value.ThisAt distance

/-- The same for several expressions. -/
def Expression.AllThisAt (distance : Option Nat) : List Expression → Prop
  | [] => True
  | expression :: rest => expression.ThisAt distance ∧ Expression.AllThisAt distance rest

end

/-- The same for an expression that may be absent. -/
def Expression.OptionThisAt (distance : Option Nat) : Option Expression → Prop
  | none => True
  | some expression => expression.ThisAt known distance

mutual

/-- In a statement `this` is used at most at the distance at which it is bound, and it is not
declared. -/
def Statement.ThisAt (distance : Option Nat) : Statement → Prop
  | .expression value | .print value | .return _ (some value) => value.ThisAt known distance
  | .return _ none => True
  | .var name initializer => name.Plain ∧ Expression.OptionThisAt known distance initializer
  | .block statements => Statement.AllThisAt (distance.map (· + 1)) statements
  | .conditional condition thenBranch none =>
      condition.ThisAt known distance ∧ thenBranch.ThisAt distance
  | .conditional condition thenBranch (some elseBranch) =>
      condition.ThisAt known distance ∧ thenBranch.ThisAt distance ∧ elseBranch.ThisAt distance
  | .loop condition body => condition.ThisAt known distance ∧ body.ThisAt distance
  | .function declaration =>
      declaration.name.Plain ∧ Statement.FunctionThisAt distance declaration
  | .class name methods => name.Plain ∧ Statement.FunctionsThisAt (some 0) methods

/-- The same for several statements. -/
def Statement.AllThisAt (distance : Option Nat) : List Statement → Prop
  | [] => True
  | statement :: rest => statement.ThisAt distance ∧ Statement.AllThisAt distance rest

/-- The same for a function, around which `this` is bound. -/
def Statement.FunctionThisAt (distance : Option Nat) : FunctionOf Statement → Prop
  | ⟨_, parameters, body⟩ =>
      (∀ parameter ∈ parameters, parameter.Plain) ∧
        Statement.AllThisAt (distance.map (· + 1)) body

/-- The same for several functions. -/
def Statement.FunctionsThisAt (distance : Option Nat) : List (FunctionOf Statement) → Prop
  | [] => True
  | declaration :: rest =>
      Statement.FunctionThisAt distance declaration ∧ Statement.FunctionsThisAt distance rest

end

end This

theorem functionThisAt_iff {known : Scope.Distances} {distance : Option Nat}
    {declaration : FunctionDeclaration} :
    Statement.FunctionThisAt known distance declaration ↔
      (∀ parameter ∈ declaration.parameters, parameter.Plain) ∧
        Statement.AllThisAt known (distance.map (· + 1)) declaration.body := by
  cases declaration
  exact Iff.rfl

/-! ### More may be known -/

/-- More occurrences are known to be local. -/
abbrev Scope.Distances.Grow (known more : Scope.Distances) : Prop :=
  ∀ id distance, known id distance → more id distance

section Monotone

variable {known more : Scope.Distances} {distance : Option Nat}

mutual

theorem Expression.ThisAt.mono (grow : known.Grow more) : (expression : Expression) →
    expression.ThisAt known distance → expression.ThisAt more distance
  | .literal _ _, _ | .variable _ _, _ => trivial
  | .this _ _, ⟨spelled, bound, here, recorded⟩ => ⟨spelled, bound, here, grow _ _ recorded⟩
  | .grouping _ inner, fits | .unary _ _ inner, fits | .get _ inner _, fits =>
      Expression.ThisAt.mono grow inner fits
  | .binary _ left _ right, fits | .logical _ left _ right, fits =>
      ⟨Expression.ThisAt.mono grow left fits.1, Expression.ThisAt.mono grow right fits.2⟩
  | .assign _ _ value, fits => ⟨fits.1, Expression.ThisAt.mono grow value fits.2⟩
  | .call _ callee _ arguments, fits =>
      ⟨Expression.ThisAt.mono grow callee fits.1, Expression.AllThisAt.mono grow arguments fits.2⟩
  | .set _ object _ value, fits =>
      ⟨Expression.ThisAt.mono grow object fits.1, Expression.ThisAt.mono grow value fits.2⟩

theorem Expression.AllThisAt.mono (grow : known.Grow more) : (expressions : List Expression) →
    Expression.AllThisAt known distance expressions →
    Expression.AllThisAt more distance expressions
  | [], _ => trivial
  | expression :: rest, fits =>
      ⟨Expression.ThisAt.mono grow expression fits.1, Expression.AllThisAt.mono grow rest fits.2⟩

end

theorem Expression.OptionThisAt.mono (grow : known.Grow more) :
    (expression : Option Expression) → Expression.OptionThisAt known distance expression →
    Expression.OptionThisAt more distance expression
  | none, _ => trivial
  | some expression, fits => Expression.ThisAt.mono grow expression fits

mutual

theorem Statement.ThisAt.mono {distance : Option Nat} (grow : known.Grow more) :
    (statement : Statement) → statement.ThisAt known distance → statement.ThisAt more distance
  | .expression value, fits | .print value, fits | .return _ (some value), fits =>
      Expression.ThisAt.mono grow value fits
  | .return _ none, _ => trivial
  | .var _ initializer, fits => ⟨fits.1, Expression.OptionThisAt.mono grow initializer fits.2⟩
  | .block statements, fits => Statement.AllThisAt.mono grow statements fits
  | .conditional condition thenBranch none, fits =>
      ⟨Expression.ThisAt.mono grow condition fits.1, Statement.ThisAt.mono grow thenBranch fits.2⟩
  | .conditional condition thenBranch (some elseBranch), fits =>
      ⟨Expression.ThisAt.mono grow condition fits.1,
        Statement.ThisAt.mono grow thenBranch fits.2.1,
        Statement.ThisAt.mono grow elseBranch fits.2.2⟩
  | .loop condition body, fits =>
      ⟨Expression.ThisAt.mono grow condition fits.1, Statement.ThisAt.mono grow body fits.2⟩
  | .function declaration, fits =>
      ⟨fits.1, Statement.FunctionThisAt.mono grow declaration fits.2⟩
  | .class _ methods, fits => ⟨fits.1, Statement.FunctionsThisAt.mono grow methods fits.2⟩

theorem Statement.AllThisAt.mono {distance : Option Nat} (grow : known.Grow more) :
    (statements : List Statement) → Statement.AllThisAt known distance statements →
    Statement.AllThisAt more distance statements
  | [], _ => trivial
  | statement :: rest, fits =>
      ⟨Statement.ThisAt.mono grow statement fits.1, Statement.AllThisAt.mono grow rest fits.2⟩

theorem Statement.FunctionThisAt.mono {distance : Option Nat} (grow : known.Grow more) :
    (declaration : FunctionOf Statement) →
    Statement.FunctionThisAt known distance declaration →
    Statement.FunctionThisAt more distance declaration
  | ⟨_, _, body⟩, fits => ⟨fits.1, Statement.AllThisAt.mono grow body fits.2⟩

theorem Statement.FunctionsThisAt.mono {distance : Option Nat} (grow : known.Grow more) :
    (declarations : List (FunctionOf Statement)) →
    Statement.FunctionsThisAt known distance declarations →
    Statement.FunctionsThisAt more distance declarations
  | [], _ => trivial
  | declaration :: rest, fits =>
      ⟨Statement.FunctionThisAt.mono grow declaration fits.1,
        Statement.FunctionsThisAt.mono grow rest fits.2⟩

end

end Monotone

/-! ### Accepted programs -/

namespace Scope

open Scopes

/-- Another name does not change where `this` is declared. -/
theorem Scopes.distance?_record_of_ne {recorded name : String} (other : name ≠ recorded)
    (scopes : Scopes) (complete : Bool) :
    (scopes.record recorded complete).distance? name = scopes.distance? name := by
  cases scopes with
  | nil => rfl
  | cons scope outer => rw [distance?_record, if_neg other]

theorem Scopes.distance?_declare_of_ne {declared : Token} {name : String}
    (other : name ≠ declared.lexeme) (scopes : Scopes) :
    (scopes.declare declared).1.distance? name = scopes.distance? name := by
  unfold declare
  split
  · rfl
  · exact distance?_record_of_ne other scopes false

theorem Scopes.distance?_introduce_of_ne {declared : Token} {name : String}
    (other : name ≠ declared.lexeme) (scopes : Scopes) :
    (scopes.introduce declared).1.distance? name = scopes.distance? name :=
  (distance?_record_of_ne other _ true).trans (distance?_declare_of_ne other scopes)

theorem Scopes.distance?_introduceAll_of_ne {names : List Token} {name : String}
    (others : ∀ declared ∈ names, name ≠ declared.lexeme) (scopes : Scopes) :
    (scopes.introduceAll names).1.distance? name = scopes.distance? name := by
  induction names generalizing scopes with
  | nil => rfl
  | cons declared rest inductionHypothesis =>
      obtain ⟨other, others⟩ := List.forall_mem_cons.mp others
      exact (inductionHypothesis others _).trans (distance?_introduce_of_ne other scopes)

/-- A name that is read from a source is not `this`. -/
theorem plain_of_genuine {name : Token} (genuine : name.GenuineName Token.Spelled) : name.Plain :=
  genuine.2.ne_spelling genuine.1 .this

/-- How far out `this` is declared. -/
abbrev Scopes.this? (scopes : Scopes) : Option Nat :=
  scopes.distance? Keyword.this.spelling

/-- Statements do not declare `this`. -/
theorem Scopes.this?_behind (scopes : Scopes) (statement : Statement)
    (genuine : statement.Genuine Token.Spelled) :
    (scopes.behind statement).this? = scopes.this? := by
  cases statement with
  | var | «class» => exact distance?_introduce_of_ne (plain_of_genuine genuine.1).symm scopes
  | function declaration =>
      obtain ⟨name, _, _⟩ := declaration
      exact distance?_introduce_of_ne (plain_of_genuine genuine.1).symm scopes
  | _ => rfl

section Accepted

variable {recorded : Recorded} {known : Distances}

/-- Records tell what is known to be local. -/
abbrev Recorded.Tell (recorded : Recorded) (known : Distances) : Prop :=
  ∀ id distance, recorded id (some distance) → known id distance

mutual

/-- By induction on the expression. The scopes in which its faults are looked for do not matter,
as the use of `this` does not depend on them. -/
theorem expression_thisAt (tell : recorded.Tell known) {scopes others : Scopes} {inClass : Bool}
    (around : inClass = true → scopes.this?.isSome) : (expression : Expression) →
    ResolvedExpression recorded scopes expression → expression.Genuine Token.Spelled →
    violations (ofExpression inClass others expression) = [] →
    expression.ThisAt known scopes.this?
  | .literal _ _, _, _, _ | .variable _ _, _, _, _ => trivial
  | .grouping _ inner, resolved, genuine, quiet =>
      expression_thisAt tell around inner resolved genuine quiet
  | .unary _ _ inner, resolved, genuine, quiet | .get _ inner _, resolved, genuine, quiet =>
      expression_thisAt tell around inner resolved genuine.2 quiet
  | .binary _ left _ right, resolved, genuine, quiet
  | .logical _ left _ right, resolved, genuine, quiet =>
      have parts := violations_append_eq_nil.mp quiet
      ⟨expression_thisAt tell around left resolved.1 genuine.2.1 parts.1,
        expression_thisAt tell around right resolved.2 genuine.2.2 parts.2⟩
  | .this id keyword, resolved, _, quiet => by
      have inside : inClass = true := by
        cases inClass with
        | true => rfl
        | false => cases quiet
      obtain ⟨bound, here⟩ := Option.isSome_iff_exists.mp (around inside)
      have spelled : keyword.lexeme = Keyword.this.spelling := resolved.1
      have record : recorded id (scopes.distance? keyword.lexeme) := resolved.2
      rw [spelled] at record
      exact ⟨spelled, bound, here, tell id bound (here ▸ record)⟩
  | .assign _ _ value, resolved, genuine, quiet =>
      ⟨plain_of_genuine genuine.1, expression_thisAt tell around value resolved.1 genuine.2
        (violations_append_eq_nil.mp quiet).1⟩
  | .call _ callee _ arguments, resolved, genuine, quiet =>
      have parts := violations_append_eq_nil.mp quiet
      ⟨expression_thisAt tell around callee resolved.1 genuine.2.1 parts.1,
        expressions_thisAt tell around arguments resolved.2 genuine.2.2 parts.2⟩
  | .set _ object _ value, resolved, genuine, quiet =>
      have parts := violations_append_eq_nil.mp quiet
      ⟨expression_thisAt tell around object resolved.1 genuine.2.1 parts.2,
        expression_thisAt tell around value resolved.2 genuine.2.2 parts.1⟩

theorem expressions_thisAt (tell : recorded.Tell known) {scopes others : Scopes} {inClass : Bool}
    (around : inClass = true → scopes.this?.isSome) : (expressions : List Expression) →
    ResolvedExpressions recorded scopes expressions →
    Expression.AllGenuine Token.Spelled expressions →
    violations (ofExpressions inClass others expressions) = [] →
    Expression.AllThisAt known scopes.this? expressions
  | [], _, _, _ => trivial
  | expression :: rest, resolved, genuine, quiet =>
      have parts := violations_append_eq_nil.mp quiet
      ⟨expression_thisAt tell around expression resolved.1 genuine.1 parts.1,
        expressions_thisAt tell around rest resolved.2 genuine.2 parts.2⟩

end

/-- The initializer of a variable stands behind the name, which is not `this`. -/
theorem initializer_thisAt (tell : recorded.Tell known) {scopes others : Scopes} {inClass : Bool}
    (around : inClass = true → scopes.this?.isSome) {name : Token} (plain : name.Plain) :
    (initializer : Option Expression) →
    ResolvedOptional recorded (scopes.declare name).1 initializer →
    Expression.OptionGenuine Token.Spelled initializer →
    violations (ofOptional inClass others initializer) = [] →
    Expression.OptionThisAt known scopes.this? initializer
  | none, _, _, _ => trivial
  | some value, resolved, genuine, quiet => by
      have same : (scopes.declare name).1.this? = scopes.this? :=
        Scopes.distance?_declare_of_ne plain.symm scopes
      rw [← same] at around ⊢
      exact expression_thisAt tell around value resolved genuine quiet

mutual

/-- By induction on the statement. -/
theorem statement_thisAt (tell : recorded.Tell known) {scopes others : Scopes} {context : Context}
    (around : context.inClass = true → scopes.this?.isSome) : (statement : Statement) →
    ResolvedStatement recorded scopes statement → statement.Genuine Token.Spelled →
    violations (ofStatement context others statement).2 = [] →
    statement.ThisAt known scopes.this?
  | .expression value, resolved, genuine, quiet | .print value, resolved, genuine, quiet =>
      expression_thisAt tell around value resolved genuine quiet
  | .return _ none, _, _, _ => trivial
  | .return _ (some value), resolved, genuine, quiet =>
      expression_thisAt tell around value resolved genuine.2 (violations_append_eq_nil.mp quiet).2
  | .var name initializer, resolved, genuine, quiet =>
      ⟨resolved.1.2, initializer_thisAt tell around resolved.1.2 initializer resolved.2 genuine.2
        (violations_append_eq_nil.mp quiet).2⟩
  | .block statements, resolved, genuine, quiet => by
      have opened : Scopes.this? ([] :: scopes) = scopes.this?.map (· + 1) :=
        scopes.distance?_push _
      show Statement.AllThisAt known (scopes.this?.map (· + 1)) statements
      rw [← opened]
      exact statements_thisAt tell (fun inside => by simpa [opened] using around inside) statements
        resolved genuine quiet
  | .conditional condition thenBranch none, resolved, genuine, quiet =>
      have parts := violations_append_eq_nil.mp quiet
      ⟨expression_thisAt tell around condition resolved.1 genuine.1 parts.1,
        statement_thisAt tell around thenBranch resolved.2.2 genuine.2 parts.2⟩
  | .conditional condition thenBranch (some elseBranch), resolved, genuine, quiet =>
      have parts := violations_append_eq_nil.mp quiet
      have front := violations_append_eq_nil.mp parts.1
      ⟨expression_thisAt tell around condition resolved.1 genuine.1 front.1,
        statement_thisAt tell around thenBranch resolved.2.1.2 genuine.2.1 front.2,
        statement_thisAt tell around elseBranch resolved.2.2.2 genuine.2.2 parts.2⟩
  | .loop condition body, resolved, genuine, quiet =>
      have parts := violations_append_eq_nil.mp quiet
      ⟨expression_thisAt tell around condition resolved.1 genuine.1 parts.1,
        statement_thisAt tell around body resolved.2.2 genuine.2 parts.2⟩
  | .function ⟨name, parameters, body⟩, resolved, genuine, quiet => by
      have plain := plain_of_genuine genuine.1
      have same : (scopes.introduce name).1.this? = scopes.this? :=
        Scopes.distance?_introduce_of_ne plain.symm scopes
      refine ⟨plain, ?_⟩
      rw [← same] at around ⊢
      have around : (Context.mk .function context.inClass).inClass = true →
          (scopes.introduce name).1.this?.isSome := around
      exact function_thisAt tell around ⟨name, parameters, body⟩ resolved.2 genuine
        (violations_append_eq_nil.mp quiet).2
  | .class name methods, resolved, genuine, quiet =>
      ⟨plain_of_genuine genuine.1, methods_thisAt tell rfl methods resolved.2 genuine.2
        (violations_append_eq_nil.mp quiet).2⟩

theorem statements_thisAt (tell : recorded.Tell known) {scopes others : Scopes} {context : Context}
    (around : context.inClass = true → scopes.this?.isSome) : (statements : List Statement) →
    ResolvedStatements recorded scopes statements →
    Statement.AllGenuine Token.Spelled statements →
    violations (ofStatements context others statements) = [] →
    Statement.AllThisAt known scopes.this? statements
  | [], _, _, _ => trivial
  | statement :: rest, resolved, genuine, quiet => by
      have parts := violations_append_eq_nil.mp quiet
      have same := Scopes.this?_behind scopes statement genuine.1
      refine ⟨statement_thisAt tell around statement resolved.1 genuine.1 parts.1, ?_⟩
      rw [← same] at around ⊢
      exact statements_thisAt tell around rest resolved.2 genuine.2 parts.2

theorem function_thisAt (tell : recorded.Tell known) {scopes others : Scopes} {context : Context}
    (around : context.inClass = true → scopes.this?.isSome) :
    (declaration : FunctionOf Statement) → ResolvedFunction recorded scopes declaration →
    Statement.FunctionGenuine Token.Spelled declaration →
    violations (ofFunction context others declaration) = [] →
    Statement.FunctionThisAt known scopes.this? declaration
  | ⟨_, parameters, body⟩, resolved, genuine, quiet => by
      have plain : ∀ parameter ∈ parameters, parameter.Plain := fun parameter member =>
        plain_of_genuine (genuine.2.1 parameter member)
      have opened : (Scopes.introduceAll ([] :: scopes) parameters).1.this? =
          scopes.this?.map (· + 1) :=
        (Scopes.distance?_introduceAll_of_ne (fun parameter member =>
          (plain parameter member).symm) _).trans (scopes.distance?_push _)
      refine ⟨plain, ?_⟩
      rw [← opened]
      exact statements_thisAt tell (fun inside => by simpa [opened] using around inside) body
        resolved.2 genuine.2.2 (violations_append_eq_nil.mp quiet).2

theorem methods_thisAt (tell : recorded.Tell known) {scopes others : Scopes}
    (bound : scopes.this? = some 0) : (methods : List (FunctionOf Statement)) →
    ResolvedMethods recorded scopes methods → Statement.FunctionsGenuine Token.Spelled methods →
    violations (ofMethods others methods) = [] →
    Statement.FunctionsThisAt known (some 0) methods
  | [], _, _, _ => trivial
  | method :: rest, resolved, genuine, quiet => by
      have parts := violations_append_eq_nil.mp quiet
      have first := function_thisAt tell (fun _ => by rw [bound]; rfl) method resolved.1 genuine.1
        parts.1
      rw [bound] at first
      exact ⟨first, methods_thisAt tell bound rest resolved.2 genuine.2 parts.2⟩

end

end Accepted

end Scope

end Lox
