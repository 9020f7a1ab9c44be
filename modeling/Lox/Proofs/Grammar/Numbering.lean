import Lox.Proofs.Grammar.Trees

/-!
Contract: the shape of the trees that words read as, beyond the grammar.

Owns:
- the numbers of the nodes of a tree, with `Reads.numbered`: they lie in the range that
  the tree takes, and no two nodes have the same;
- `Statement.Tame`, with `Reads.tame`: no branch of a conditional and no body of a loop
  is a declaration.
-/

namespace Lox

mutual

/-- The numbers of the nodes of an expression. -/
def Expression.numbers : Expression → List Nat
  | .literal id _ | .variable id _ | .this id _ => [id]
  | .grouping id inner | .unary id _ inner | .assign id _ inner | .get id inner _ =>
      inner.numbers ++ [id]
  | .binary id left _ right | .logical id left _ right =>
      left.numbers ++ right.numbers ++ [id]
  | .call id callee _ arguments => callee.numbers ++ Expression.numbersOfAll arguments ++ [id]
  | .set id object _ value => object.numbers ++ value.numbers ++ [id]

/-- The numbers of the nodes of several expressions. -/
def Expression.numbersOfAll : List Expression → List Nat
  | [] => []
  | expression :: rest => expression.numbers ++ Expression.numbersOfAll rest

end

/-- The numbers of the nodes of an expression that may be absent. -/
def Expression.numbersOfOptional : Option Expression → List Nat
  | none => []
  | some expression => expression.numbers

mutual

/-- The numbers of the nodes in a statement. -/
def Statement.numbers : Statement → List Nat
  | .expression value | .print value => value.numbers
  | .var _ initializer => Expression.numbersOfOptional initializer
  | .block statements => Statement.numbersOfAll statements
  | .conditional condition thenBranch none => condition.numbers ++ thenBranch.numbers
  | .conditional condition thenBranch (some elseBranch) =>
      condition.numbers ++ thenBranch.numbers ++ elseBranch.numbers
  | .loop condition body => condition.numbers ++ body.numbers
  | .function declaration => Statement.numbersOfFunction declaration
  | .return _ value => Expression.numbersOfOptional value
  | .class _ methods => Statement.numbersOfFunctions methods

/-- The numbers of the nodes in several statements. -/
def Statement.numbersOfAll : List Statement → List Nat
  | [] => []
  | statement :: rest => statement.numbers ++ Statement.numbersOfAll rest

/-- The numbers of the nodes in a function. -/
def Statement.numbersOfFunction : FunctionOf Statement → List Nat
  | ⟨_, _, body⟩ => Statement.numbersOfAll body

/-- The numbers of the nodes in several functions. -/
def Statement.numbersOfFunctions : List (FunctionOf Statement) → List Nat
  | [] => []
  | declaration :: rest =>
      Statement.numbersOfFunction declaration ++ Statement.numbersOfFunctions rest

end

/-- Whether a statement declares a name in the scope that it stands in. -/
def Statement.isDeclaration : Statement → Bool
  | .var _ _ | .function _ | .class _ _ => true
  | _ => false

mutual

/-- No branch of a conditional and no body of a loop in a statement is a declaration. -/
def Statement.Tame : Statement → Prop
  | .expression _ | .print _ | .var _ _ | .return _ _ => True
  | .block statements => Statement.AllTame statements
  | .conditional _ thenBranch none => thenBranch.isDeclaration = false ∧ thenBranch.Tame
  | .conditional _ thenBranch (some elseBranch) =>
      (thenBranch.isDeclaration = false ∧ thenBranch.Tame) ∧
        (elseBranch.isDeclaration = false ∧ elseBranch.Tame)
  | .loop _ body => body.isDeclaration = false ∧ body.Tame
  | .function declaration => Statement.FunctionTame declaration
  | .class _ methods => Statement.FunctionsTame methods

/-- The same for several statements. -/
def Statement.AllTame : List Statement → Prop
  | [] => True
  | statement :: rest => statement.Tame ∧ Statement.AllTame rest

/-- The same for a function. -/
def Statement.FunctionTame : FunctionOf Statement → Prop
  | ⟨_, _, body⟩ => Statement.AllTame body

/-- The same for several functions. -/
def Statement.FunctionsTame : List (FunctionOf Statement) → Prop
  | [] => True
  | declaration :: rest => Statement.FunctionTame declaration ∧ Statement.FunctionsTame rest

end

namespace Grammar

/-- Numbers that lie in a range, no two of them the same. -/
structure Numbered (numbers : List Nat) (first next : Nat) : Prop where
  ordered : first ≤ next
  inside : ∀ id ∈ numbers, first ≤ id ∧ id < next
  distinct : numbers.Nodup

namespace Numbered

variable {left right : List Nat} {first middle next : Nat}

theorem nil (first : Nat) : Numbered [] first first where
  ordered := Nat.le_refl first
  inside := nofun
  distinct := List.nodup_nil

theorem append (before : Numbered left first middle) (behind : Numbered right middle next) :
    Numbered (left ++ right) first next where
  ordered := Nat.le_trans before.ordered behind.ordered
  inside := by
    intro id member
    rcases List.mem_append.mp member with member | member
    · have := before.inside id member
      have := behind.ordered
      omega
    · have := behind.inside id member
      have := before.ordered
      omega
  distinct := by
    refine List.nodup_append.mpr ⟨before.distinct, behind.distinct, ?_⟩
    intro id member other otherMember same
    have := before.inside id member
    have := behind.inside other otherMember
    omega

/-- The numbers may come in any order. -/
theorem perm (numbered : Numbered left first next) (same : left.Perm right) :
    Numbered right first next where
  ordered := numbered.ordered
  inside id member := numbered.inside id (same.mem_iff.mpr member)
  distinct := same.nodup_iff.mp numbered.distinct

theorem single (id : Nat) : Numbered [id] id (id + 1) where
  ordered := Nat.le_succ id
  inside := by
    intro other member
    rw [List.mem_singleton.mp member]
    exact ⟨Nat.le_refl id, Nat.lt_succ_self id⟩
  distinct := by simp

/-- Some numbers of the range may be left out in front. -/
theorem skip (numbered : Numbered left middle next) (before : first ≤ middle) :
    Numbered left first next where
  ordered := Nat.le_trans before numbered.ordered
  inside id member := ⟨Nat.le_trans before (numbered.inside id member).1,
    (numbered.inside id member).2⟩
  distinct := numbered.distinct

end Numbered

/-- The nodes of a phrase have numbers in a range. Operations and accesses keep the
expression to their left and add nodes to it. -/
def Phrase.Numbered (first next : Nat) : Phrase → Prop
  | expression _ value => Grammar.Numbered value.numbers first next
  | operations _ left value | accesses left value =>
      ∃ added, value.numbers = left.numbers ++ added ∧ Grammar.Numbered added first next
  | items values | arguments values =>
      Grammar.Numbered (Expression.numbersOfAll values) first next
  | parameters _ => first = next
  | optional value => Grammar.Numbered (Expression.numbersOfOptional value) first next
  | initializer none => first = next
  | «variable» declared | initializer (some declared) | statement _ declared
  | declaration _ declared => Grammar.Numbered declared.numbers first next
  | declarations statements => Grammar.Numbered (Statement.numbersOfAll statements) first next
  | function declared =>
      Grammar.Numbered (Statement.numbersOfFunction declared) first next
  | functions declared =>
      Grammar.Numbered (Statement.numbersOfFunctions declared) first next

theorem make_numbers (level : BinaryLevel) (id : Nat) (left right : Expression)
    (operator : Token) :
    (level.make id left operator right).numbers = left.numbers ++ right.numbers ++ [id] := by
  cases level <;> simp [BinaryLevel.make, Expression.numbers]

/-- The numbers of the first part of a `for`. -/
def numbersOfInitializer : Option Statement → List Nat
  | none => []
  | some initializer => initializer.numbers

/-- A loop made of a `for` has the nodes of its parts. -/
theorem forLoop_numbers (initializer : Option Statement) (condition : Expression)
    (increment : Option Expression) (body : Statement) :
    (forScope initializer (.loop condition (forRound increment body))).numbers =
      numbersOfInitializer initializer ++ (condition.numbers ++
        (body.numbers ++ Expression.numbersOfOptional increment)) := by
  cases initializer <;> cases increment <;>
    simp [forScope, forRound, numbersOfInitializer, Statement.numbers, Statement.numbersOfAll,
      Expression.numbersOfOptional]

theorem initializer_numbered {initializer : Option Statement} {first next : Nat}
    (numbered : (Phrase.initializer initializer).Numbered first next) :
    Numbered (numbersOfInitializer initializer) first next := by
  cases initializer with
  | none =>
      have same : first = next := numbered
      rw [← same]
      exact Numbered.nil first
  | some initializer => exact numbered

/-- The parts of a `for` are numbered in the order of the text. Only the condition that
stands for an absent one comes behind all others. -/
theorem forLoop_numbered {initializer : Option Statement} {condition increment : Option Expression}
    {body : Statement} {first second third fourth last : Nat}
    (initializerNumbered : (Phrase.initializer initializer).Numbered first second)
    (conditionNumbered : (Phrase.optional condition).Numbered second third)
    (incrementNumbered : (Phrase.optional increment).Numbered third fourth)
    (bodyNumbered : Numbered body.numbers fourth last) :
    Numbered (forScope initializer
      (.loop (forCondition condition last).1 (forRound increment body))).numbers first
      (forCondition condition last).2 := by
  have before := initializer_numbered initializerNumbered
  have round := (Numbered.append incrementNumbered bodyNumbered).perm List.perm_append_comm
  rw [forLoop_numbers]
  cases condition with
  | some condition => exact before.append (Numbered.append conditionNumbered round)
  | none =>
      have behind := (Numbered.append conditionNumbered round).append (Numbered.single last)
      exact before.append (behind.perm List.perm_append_comm)

/-- By induction on the reading: each part has the numbers between those of its
neighbours. -/
theorem Reads.numbered {word : List Token} {first next : Nat} {phrase : Phrase}
    (read : Reads word first phrase next) : phrase.Numbered first next := by
  induction read with
  | literal | this | name => exact Numbered.single _
  | grouping _ _ _ inner => exact inner.append (Numbered.single _)
  | noAccess | noOperation => exact ⟨[], (List.append_nil _).symm, Numbered.nil _⟩
  | call _ _ _ _ _ arguments rest =>
      obtain ⟨added, same, numbered⟩ := rest
      refine ⟨_, ?_, arguments.append ((Numbered.single _).append numbered)⟩
      simpa [Expression.numbers] using same
  | get _ _ _ rest =>
      obtain ⟨added, same, numbered⟩ := rest
      refine ⟨_, ?_, (Numbered.single _).append numbered⟩
      simpa [Expression.numbers] using same
  | accessed _ _ left rest | binary _ _ left rest =>
      obtain ⟨added, same, numbered⟩ := rest
      show Numbered _ _ _
      rw [same]
      exact left.append numbered
  | noArguments => exact Numbered.nil _
  | someArguments _ items => exact items
  | lastItem _ item =>
      show Numbered (_ ++ []) _ _
      rw [List.append_nil]
      exact item
  | nextItem _ _ _ item items => exact item.append items
  | notNegated _ operand => exact operand
  | negated _ _ operand => exact operand.append (Numbered.single _)
  | operation _ _ _ right rest =>
      obtain ⟨added, same, numbered⟩ := rest
      refine ⟨_, ?_, right.append ((Numbered.single _).append numbered)⟩
      simpa [make_numbers] using same
  | notAssigned _ value => exact value
  | assigned _ _ _ value => exact (value.append (Numbered.single _)).skip (Nat.le_succ _)
  | propertyAssigned _ _ _ _ _ object value =>
      exact (object.append (value.skip (Nat.le_succ _))).append (Numbered.single _)
  | absent => exact Numbered.nil _
  | present _ value => exact value
  | uninitialized => exact Numbered.nil _
  | initialized _ _ _ _ value => exact value
  | noInitializer => exact rfl
  | variableInitializer _ _ declared => exact declared
  | expressionInitializer _ _ value => exact value
  | expression _ _ value => exact value
  | «for» _ _ _ _ _ _ _ _ initializer condition increment body =>
      exact forLoop_numbered initializer condition increment body
  | «if» _ _ _ _ _ condition body => exact condition.append body
  | ifElse _ _ _ _ _ _ _ condition thenBranch elseBranch =>
      exact (condition.append thenBranch).append elseBranch
  | print _ _ _ value => exact value
  | «return» _ _ _ value => exact value
  | «while» _ _ _ _ _ condition body => exact condition.append body
  | block _ _ _ statements => exact statements
  | noParameters | lastParameter | nextParameter => exact rfl
  | function _ _ _ _ _ _ _ _ _ body => exact body
  | noFunction => exact Numbered.nil _
  | nextFunction _ _ function functions => exact function.append functions
  | classDeclaration _ _ _ _ _ methods => exact methods
  | functionDeclaration _ _ function => exact function
  | variableDeclaration _ _ declared => exact declared
  | statement _ statement => exact statement
  | noDeclaration => exact Numbered.nil _
  | nextDeclaration _ _ declaration declarations => exact declaration.append declarations

/-- A statement that is no declaration, in which branches and bodies are none either. -/
def Branch (statement : Statement) : Prop :=
  statement.isDeclaration = false ∧ statement.Tame

/-- The statements in a phrase are tame, and what the grammar calls a statement is no
declaration. -/
def Phrase.Tame : Phrase → Prop
  | «variable» declared | initializer (some declared) | declaration _ declared => declared.Tame
  | statement _ declared => Branch declared
  | declarations statements => Statement.AllTame statements
  | function declared => Statement.FunctionTame declared
  | functions declared => Statement.FunctionsTame declared
  | _ => True

theorem forLoop_branch {initializer : Option Statement} (condition : Expression)
    (increment : Option Expression) {body : Statement}
    (initializerTame : (Phrase.initializer initializer).Tame) (bodyBranch : Branch body) :
    Branch (forScope initializer (.loop condition (forRound increment body))) := by
  obtain ⟨noDeclaration, tame⟩ := bodyBranch
  cases initializer with
  | none =>
      cases increment with
      | none => exact ⟨rfl, noDeclaration, tame⟩
      | some increment => exact ⟨rfl, rfl, tame, trivial, trivial⟩
  | some initializer =>
      cases increment with
      | none => exact ⟨rfl, initializerTame, ⟨noDeclaration, tame⟩, trivial⟩
      | some increment => exact ⟨rfl, initializerTame, ⟨rfl, tame, trivial, trivial⟩, trivial⟩

theorem Reads.tame {word : List Token} {first next : Nat} {phrase : Phrase}
    (read : Reads word first phrase next) : phrase.Tame := by
  induction read with
  | uninitialized | initialized | expressionInitializer | noFunction | noDeclaration =>
      exact trivial
  | variableInitializer _ _ declared => exact declared
  | expression | print | «return» => exact ⟨rfl, trivial⟩
  | «for» _ _ _ _ _ _ _ _ initializer _ _ body => exact forLoop_branch _ _ initializer body
  | «if» _ _ _ _ _ _ body => exact ⟨rfl, body⟩
  | ifElse _ _ _ _ _ _ _ _ thenBranch elseBranch => exact ⟨rfl, thenBranch, elseBranch⟩
  | «while» _ _ _ _ _ _ body => exact ⟨rfl, body⟩
  | block _ _ _ statements => exact ⟨rfl, statements⟩
  | function _ _ _ _ _ _ _ _ _ body => exact body
  | nextFunction _ _ function functions => exact ⟨function, functions⟩
  | classDeclaration _ _ _ _ _ methods => exact methods
  | functionDeclaration _ _ function => exact function
  | variableDeclaration _ _ declared => exact declared
  | statement _ statement => exact statement.2
  | nextDeclaration _ _ declaration declarations => exact ⟨declaration, declarations⟩
  | _ => trivial

end Grammar

end Lox
