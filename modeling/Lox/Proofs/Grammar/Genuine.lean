import Lox.Proofs.Grammar.Trees

/-!
Contract: the tokens in the trees that words read as.

Owns:
- `Statement.Genuine` and its companions: each token in a tree has the kind that its place
  asks for, and is among given tokens;
- `Reads.genuine`: the trees that a word reads as are genuine, with tokens of the word.
-/

namespace Lox

open Grammar (BinaryLevel isUnaryOperator)

variable (among : Token → Prop)

/-- A name that is among the given tokens. -/
def Token.GenuineName (name : Token) : Prop :=
  name.isIdentifier ∧ among name

mutual

/-- The tokens in an expression are in their places. -/
def Expression.Genuine : Expression → Prop
  | .literal _ _ => True
  | .grouping _ inner => inner.Genuine
  | .unary _ operator operand => (isUnaryOperator operator ∧ among operator) ∧ operand.Genuine
  | .binary _ left operator right =>
      ((∃ level : BinaryLevel, level.isOperator operator ∧
        level ≠ .disjunction ∧ level ≠ .conjunction) ∧ among operator) ∧
          left.Genuine ∧ right.Genuine
  | .logical _ left operator right =>
      ((operator.isKeyword .or ∨ operator.isKeyword .and) ∧ among operator) ∧
        left.Genuine ∧ right.Genuine
  | .variable _ name => name.GenuineName among
  | .this _ keyword => keyword.isKeyword .this ∧ among keyword
  | .assign _ name value => name.GenuineName among ∧ value.Genuine
  | .call _ callee paren arguments =>
      (paren.isSymbol .rightParen ∧ among paren) ∧ callee.Genuine ∧
        Expression.AllGenuine arguments
  | .get _ object name => name.GenuineName among ∧ object.Genuine
  | .set _ object name value => name.GenuineName among ∧ object.Genuine ∧ value.Genuine

/-- The same for several expressions. -/
def Expression.AllGenuine : List Expression → Prop
  | [] => True
  | expression :: rest => expression.Genuine ∧ Expression.AllGenuine rest

end

/-- The same for an expression that may be absent. -/
def Expression.OptionGenuine : Option Expression → Prop
  | none => True
  | some expression => expression.Genuine among

mutual

/-- The tokens in a statement are in their places. -/
def Statement.Genuine : Statement → Prop
  | .expression value | .print value => value.Genuine among
  | .var name initializer =>
      name.GenuineName among ∧ Expression.OptionGenuine among initializer
  | .block statements => Statement.AllGenuine statements
  | .conditional condition thenBranch none => condition.Genuine among ∧ thenBranch.Genuine
  | .conditional condition thenBranch (some elseBranch) =>
      condition.Genuine among ∧ thenBranch.Genuine ∧ elseBranch.Genuine
  | .loop condition body => condition.Genuine among ∧ body.Genuine
  | .function declaration => Statement.FunctionGenuine declaration
  | .return keyword value =>
      (keyword.isKeyword .return ∧ among keyword) ∧ Expression.OptionGenuine among value
  | .class name methods => name.GenuineName among ∧ Statement.FunctionsGenuine methods

/-- The same for several statements. -/
def Statement.AllGenuine : List Statement → Prop
  | [] => True
  | statement :: rest => statement.Genuine ∧ Statement.AllGenuine rest

/-- The same for a function. -/
def Statement.FunctionGenuine : FunctionOf Statement → Prop
  | ⟨name, parameters, body⟩ =>
      name.GenuineName among ∧ (∀ parameter ∈ parameters, parameter.GenuineName among) ∧
        Statement.AllGenuine body

/-- The same for several functions. -/
def Statement.FunctionsGenuine : List (FunctionOf Statement) → Prop
  | [] => True
  | declaration :: rest =>
      Statement.FunctionGenuine declaration ∧ Statement.FunctionsGenuine rest

end

namespace Grammar

variable {among}

/-- The tokens in a phrase are in their places. Operations and accesses keep the expression
to their left. -/
def Phrase.Genuine (among : Token → Prop) : Phrase → Prop
  | expression _ value => value.Genuine among
  | operations _ left value | accesses left value => left.Genuine among → value.Genuine among
  | items values | arguments values => Expression.AllGenuine among values
  | parameters names => ∀ parameter ∈ names, parameter.GenuineName among
  | optional value => Expression.OptionGenuine among value
  | initializer none => True
  | «variable» declared | initializer (some declared) | statement _ declared
  | declaration _ declared => declared.Genuine among
  | declarations statements => Statement.AllGenuine among statements
  | function declared => Statement.FunctionGenuine among declared
  | functions declared => Statement.FunctionsGenuine among declared

theorem make_genuine {level : BinaryLevel} {operator : Token} {left right : Expression} (id : Nat)
    (isOperator : level.isOperator operator) (member : among operator)
    (leftGenuine : left.Genuine among) (rightGenuine : right.Genuine among) :
    (level.make id left operator right).Genuine among := by
  cases level with
  | disjunction => exact ⟨⟨Or.inl isOperator, member⟩, leftGenuine, rightGenuine⟩
  | conjunction => exact ⟨⟨Or.inr isOperator, member⟩, leftGenuine, rightGenuine⟩
  | _ => exact ⟨⟨⟨_, isOperator, nofun, nofun⟩, member⟩, leftGenuine, rightGenuine⟩

theorem forLoop_genuine {initializer : Option Statement} {condition increment : Option Expression}
    {body : Statement} (last : Nat)
    (initializerGenuine : (Phrase.initializer initializer).Genuine among)
    (conditionGenuine : Expression.OptionGenuine among condition)
    (incrementGenuine : Expression.OptionGenuine among increment)
    (bodyGenuine : body.Genuine among) :
    (forScope initializer
      (.loop (forCondition condition last).1 (forRound increment body))).Genuine among := by
  have conditionHolds : (forCondition condition last).1.Genuine among := by
    cases condition with
    | none => exact trivial
    | some condition => exact conditionGenuine
  cases initializer with
  | none =>
      cases increment with
      | none => exact ⟨conditionHolds, bodyGenuine⟩
      | some increment => exact ⟨conditionHolds, bodyGenuine, incrementGenuine, trivial⟩
  | some initializer =>
      cases increment with
      | none => exact ⟨initializerGenuine, ⟨conditionHolds, bodyGenuine⟩, trivial⟩
      | some increment =>
          exact ⟨initializerGenuine, ⟨conditionHolds, bodyGenuine, incrementGenuine, trivial⟩,
            trivial⟩

/-- By induction on the reading: each token of the word comes to one place. -/
theorem Reads.genuine {word : List Token} {first next : Nat} {phrase : Phrase}
    (read : Reads word first phrase next) (member : ∀ token ∈ word, among token) :
    phrase.Genuine among := by
  induction read <;> try simp only [List.forall_mem_cons, List.forall_mem_append] at member
  case literal => exact trivial
  case this isThis => exact ⟨isThis, member.1⟩
  case name isName => exact ⟨isName, member.1⟩
  case grouping inner => exact inner member.1.2
  case noAccess | noOperation => exact id
  case call _ _ _ isParen _ arguments rest =>
      exact fun callee => rest member.2.2 ⟨⟨isParen, member.2.1⟩, callee, arguments member.1.2⟩
  case get _ isName _ rest =>
      exact fun object => rest member.2.2 ⟨⟨isName, member.2.1⟩, object⟩
  case accessed left rest => exact rest member.2 (left member.1)
  case noArguments | noFunction | noDeclaration | absent | noInitializer => exact trivial
  case someArguments items => exact items member
  case lastItem item => exact ⟨item member, trivial⟩
  case nextItem item items => exact ⟨item member.1, items member.2.2⟩
  case notNegated operand => exact operand member
  case negated isOperator _ operand => exact ⟨⟨isOperator, member.1⟩, operand member.2⟩
  case operation isOperator _ _ right rest =>
      exact fun left => rest member.2 (make_genuine _ isOperator member.1.1 left
        (right member.1.2))
  case binary left rest => exact rest member.2 (left member.1)
  case notAssigned value => exact value member
  case assigned isName _ _ value => exact ⟨⟨isName, member.1⟩, value member.2.2⟩
  case propertyAssigned _ isName _ _ object value =>
      exact ⟨⟨isName, member.2.2.1⟩, object member.1, value member.2.2.2.2⟩
  case present value => exact value member
  case uninitialized isName _ => exact ⟨⟨isName, member.1⟩, trivial⟩
  case initialized isName _ _ _ value => exact ⟨⟨isName, member.1.1⟩, value member.1.2.2⟩
  case variableInitializer declared => exact declared member.2
  case expressionInitializer value => exact value member.1
  case expression value => exact value member.1
  case «for» initializer condition increment body =>
      exact forLoop_genuine _ (initializer member.1.1.1.2.2) (condition member.1.1.2)
        (increment member.1.2.2) (body member.2.2)
  case «if» condition body => exact ⟨condition member.1.2.2, body member.2.2⟩
  case ifElse condition thenBranch elseBranch =>
      exact ⟨condition member.1.1.2.2, thenBranch member.1.2.2, elseBranch member.2.2⟩
  case print value => exact value member.1.2
  case «return» isReturn _ _ value => exact ⟨⟨isReturn, member.1.1⟩, value member.1.2⟩
  case «while» condition body => exact ⟨condition member.1.2.2, body member.2.2⟩
  case block statements => exact statements member.1.2
  case noParameters => exact nofun
  case lastParameter isName =>
      intro parameter only
      rw [List.mem_singleton.mp only]
      exact ⟨isName, member.1⟩
  case nextParameter isName _ _ rest =>
      intro parameter either
      rcases List.mem_cons.mp either with rfl | later
      · exact ⟨isName, member.1⟩
      · exact rest member.2.2 parameter later
  case function isName _ _ _ _ _ _ _ parameters body =>
      exact ⟨⟨isName, member.1.1.1⟩, parameters member.1.1.2.2, body member.1.2.2.2⟩
  case nextFunction function functions => exact ⟨function member.1, functions member.2⟩
  case classDeclaration isName _ _ _ methods =>
      exact ⟨⟨isName, member.1.2.1⟩, methods member.1.2.2.2⟩
  case functionDeclaration function => exact function member.2
  case variableDeclaration declared => exact declared member.2
  case statement statement => exact statement member
  case nextDeclaration declaration declarations =>
      exact ⟨declaration member.1, declarations member.2⟩

end Grammar

end Lox
