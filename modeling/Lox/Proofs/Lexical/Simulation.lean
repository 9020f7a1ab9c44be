import Lox.Proofs.Evaluation.Definitions
import Lox.Proofs.Lexical.Objects

/-!
Contract: programs on a machine, and the same programs on a corresponding store.

Owns: that evaluation, execution and calls correspond, each by induction on what bounds it:
the syntax tree, or the fuel for loops and calls.
-/

namespace Lox.Lexical

open World
open Scope (Scopes ResolvedExpression ResolvedExpressions ResolvedOptional ResolvedStatement
  ResolvedStatements ResolvedFunction)

/-- Calls of alike functions correspond. -/
def InvokeLike (left : Evaluation.Invoke) (right : Invoke) : Prop :=
  ∀ (world : World) (frame : Nat) (function : FunctionValue) (other : FunctionValueOf Names)
    (paren : Token) (arguments : List Lox.Value) (others : List Value),
    FunctionLike world id function other → List.Forall₂ (ValueLike world) arguments others →
    function.arity = arguments.length →
    Simulates nothing ValueLike world frame (left function paren arguments)
      (right other paren others)

variable {left : Evaluation.Invoke} {right : Invoke} {world : World} {scopes : Scopes}
  {frame : Nat} {place : Place}

/-! ### Expressions -/

theorem checkArity_simulates (paren : Token) (expected found : Nat) :
    Simulates nothing (fun _ _ _ => expected = found) world frame
      (Evaluation.checkArity paren expected found)
      (Evaluation.checkArity paren expected found) := by
  unfold Evaluation.checkArity
  split
  case isTrue same => exact Simulates.pure same
  case isFalse => exact Simulates.fail paren _

theorem callValue_simulates (invokes : InvokeLike left right) {callee : Lox.Value}
    {other : Value} (like : ValueLike world callee other) (paren : Token)
    {arguments : List Lox.Value} {others : List Value}
    (likes : List.Forall₂ (ValueLike world) arguments others) :
    Simulates nothing ValueLike world frame (Evaluation.callValue left callee paren arguments)
      (callValue right other paren others) := by
  unfold Evaluation.callValue callValue
  rw [← likes.length_eq]
  cases like with
  | native function =>
      cases function with
      | clock =>
          refine (checkArity_simulates paren _ _).bind fun future _ _ grows _ => ?_
          refine readClock_simulates.bind fun _ time _ _ same => ?_
          rw [← same.2]
          exact Simulates.pure (.number time)
  | function like =>
      dsimp only
      rw [← like.arity]
      refine (checkArity_simulates paren _ _).bind fun future _ _ grows same => ?_
      exact invokes _ _ _ _ _ _ _ (like.grow grows)
        (likes.imp fun _ _ related => related.grow grows) same
  | @«class» owner another like =>
      dsimp only
      rw [← like.arity]
      refine (checkArity_simulates paren _ _).bind fun future _ _ grows matching => ?_
      have grownLike := like.grow grows
      have grownLikes := likes.imp fun _ _ related => related.grow grows
      refine (makeInstance_simulates grownLike).bind fun _ id other _ same => ?_
      obtain ⟨rfl, rfl⟩ := same
      have initializer := grownLike.initializer?
      unfold ClassValueOf.arity at matching
      generalize owner.initializer? = method, another.initializer? = other
        at initializer matching ⊢
      cases initializer with
      | none => exact Simulates.pure (.instance id)
      | some like =>
          refine (bindMethod_simulates like id).bind fun _ bound _ further alike => ?_
          have arity : bound.arity = arguments.length := by
            rw [← matching]
            unfold FunctionValueOf.arity
            rw [alike.2]
            rfl
          refine (invokes _ _ _ _ _ _ _ alike.1 (grownLikes.imp fun _ _ related =>
            related.grow further) arity).bind fun _ _ _ _ _ => ?_
          exact Simulates.pure (.instance id)
  | _ => exact Simulates.fail paren _

mutual

/-- By induction on the expression. The scopes stay, and names that are visible stay where
they are whatever the parts of the expression do. -/
theorem evaluate_simulates (invokes : InvokeLike left right) {world : World}
    (visible : Visible world scopes frame place.names) : (expression : Expression) →
    ResolvedExpression world.recorded scopes expression →
    Simulates nothing ValueLike world frame (Evaluation.evaluate left expression)
      (evaluate right place expression)
  | .literal _ value, _ => Simulates.pure (.ofLiteral value)
  | .grouping _ inner, resolved => evaluate_simulates invokes visible inner resolved
  | .unary _ operator operand, resolved =>
      (evaluate_simulates invokes visible operand resolved).bind fun _ _ _ _ like =>
        applyUnary_simulates operator like
  | .binary _ leftOperand operator rightOperand, resolved =>
      (evaluate_simulates invokes visible leftOperand resolved.1).bind
        fun _ _ _ grows leftLike =>
          (evaluate_simulates invokes (visible.grow grows) rightOperand
            (ResolvedExpression.mono grows.recorded _ _ resolved.2)).bind
              fun _ _ _ more rightLike =>
                applyBinary_simulates operator (leftLike.grow more) rightLike
  | .logical _ leftOperand operator rightOperand, resolved => by
      refine (evaluate_simulates invokes visible leftOperand resolved.1).bind
        fun future value other grows like => ?_
      rw [like.isTruthy]
      split
      · exact Simulates.pure like
      · exact evaluate_simulates invokes (visible.grow grows) rightOperand
          (ResolvedExpression.mono grows.recorded _ _ resolved.2)
  | .variable _ _, resolved => lookUp_simulates visible resolved.2
  | .this _ _, resolved => lookUp_simulates visible resolved.2
  | .assign _ name value, resolved =>
      (evaluate_simulates invokes visible value resolved.1).bind fun _ _ _ grows like =>
        (assign_simulates (visible.grow grows) (grows.recorded _ _ resolved.2) like).bind
          fun _ _ _ more _ => Simulates.pure (like.grow more)
  | .call _ callee paren arguments, resolved =>
      (evaluate_simulates invokes visible callee resolved.1).bind fun _ _ _ grows like =>
        (evaluateAll_simulates invokes (visible.grow grows) arguments
          (ResolvedExpressions.mono grows.recorded _ _ resolved.2)).bind fun _ _ _ more likes =>
            callValue_simulates invokes (like.grow more) paren likes
  | .get _ object name, resolved => by
      refine (evaluate_simulates invokes visible object resolved).bind
        fun future value other grows like => ?_
      cases like with
      | «instance» id => exact property_simulates id name
      | _ => exact Simulates.fail name _
  | .set _ object name value, resolved => by
      refine (evaluate_simulates invokes visible object resolved.1).bind
        fun future target other grows like => ?_
      cases like with
      | «instance» id =>
          refine (evaluate_simulates invokes (visible.grow grows) value
            (ResolvedExpression.mono grows.recorded _ _ resolved.2)).bind
              fun _ _ _ _ like => ?_
          exact (setField_simulates id name like).bind fun _ _ _ more _ =>
            Simulates.pure (like.grow more)
      | _ => exact Simulates.fail name _

theorem evaluateAll_simulates (invokes : InvokeLike left right) {world : World}
    (visible : Visible world scopes frame place.names) : (expressions : List Expression) →
    ResolvedExpressions world.recorded scopes expressions →
    Simulates nothing (fun future => List.Forall₂ (ValueLike future)) world frame
      (Evaluation.evaluateAll left expressions) (evaluateAll right place expressions)
  | [], _ => Simulates.pure .nil
  | expression :: rest, resolved =>
      (evaluate_simulates invokes visible expression resolved.1).bind fun _ _ _ grows like =>
        (evaluateAll_simulates invokes (visible.grow grows) rest
          (ResolvedExpressions.mono grows.recorded _ _ resolved.2)).bind fun _ _ _ more likes =>
            Simulates.pure (.cons (like.grow more) likes)

end

theorem evaluateOptional_simulates (invokes : InvokeLike left right)
    (visible : Visible world scopes frame place.names) (expression : Option Expression)
    (resolved : ResolvedOptional world.recorded scopes expression) :
    Simulates nothing ValueLike world frame (Evaluation.evaluateOptional left expression)
      (evaluateOptional right place expression) := by
  cases expression with
  | none => exact Simulates.pure .nil
  | some expression => exact evaluate_simulates invokes visible expression resolved

/-! ### Statements -/

/-- Statements end alike. -/
inductive CompletionLike (world : World) : Evaluation.Completion → Completion → Prop where
  | normal : CompletionLike world .normal .normal
  | returned {value : Lox.Value} {other : Value} :
      ValueLike world value other → CompletionLike world (.returned value) (.returned other)

/-- Statements end alike, and the frame stands for the place behind them. Only declarations
lead to another place. -/
structure Ends (scopes : Scopes) (frame : Nat) (place : Place) (statement : Statement)
    (future : World) (completion : Evaluation.Completion) (result : Completion × Place) :
    Prop where
  like : CompletionLike future completion result.1
  stands : Stands future (scopes.behind statement) frame result.2
  kept : statement.isDeclaration = false → result.2 = place

/-- A branch ends at the place where it began. -/
theorem Ends.ofBranch {branch : Statement} {future : World}
    {completion : Evaluation.Completion} {result : Completion × Place}
    (ends : Ends scopes frame place branch future completion result)
    (noDeclaration : branch.isDeclaration = false) : Stands future scopes frame place := by
  have stands := ends.stands
  rw [Scope.Scopes.behind_of_branch scopes noDeclaration, ends.kept noDeclaration] at stands
  exact stands

/-- The frame stands for the same place behind a computation that changes no old frame. -/
theorem Simulates.standing {α β : Type} {relation : World → α → β → Prop}
    {computation : Evaluation.Eval α} {other : Eval β}
    (simulates : Simulates nothing relation world frame computation other)
    (stands : Stands world scopes frame place) :
    Simulates (only frame) (fun future value another =>
      relation future value another ∧ Stands future scopes frame place) world frame
      computation other :=
  (simulates.imp fun _ _ _ grows related => ⟨related, stands.grow grows⟩).ofNothing

/-- A function closes over its own name as well, whose value comes in afterwards. -/
theorem functionValue_simulates {declaration : FunctionDeclaration} {names : Names}
    (made : frame < world.size) (settled : scopes.Settled) (free : scopes.Free declaration.name)
    (visible : Visible world (scopes.declare declaration.name).1 frame names)
    (resolved : ResolvedFunction world.recorded (scopes.introduce declaration.name).1
      declaration) :
    Simulates nothing
      (fun future => ValueLike (future.settle frame declaration.name.lexeme)) world frame
      (Evaluation.functionValue declaration)
      (do return .function (← makeFunction declaration names false)) := by
  have seen := visible.introduce free
  have complete := settled.introduce free
  refine Simulates.getMachine fun machine here => ?_
  subst here
  refine Simulates.bind
    (?_ : Simulates nothing (fun future =>
      FunctionLike (future.settle machine.environment declaration.name.lexeme) id) world
        machine.environment _ _)
    (fun _ _ _ _ like => Simulates.pure (.function like))
  exact makeFunction_simulates fun identity =>
    ⟨rfl, rfl, rfl, made, _, complete, seen, resolved, nofun⟩

/-- Methods close over the name of their class, whose value comes in afterwards. -/
theorem classValue_simulates {name : Token} {methods : List FunctionDeclaration} {names : Names}
    (made : frame < world.size) (settled : scopes.Settled) (free : scopes.Free name)
    (visible : Visible world (scopes.declare name).1 frame names)
    (resolved : Scope.ResolvedMethods world.recorded (scopes.introduce name).1.withThis methods) :
    Simulates nothing (fun future => ValueLike (future.settle frame name.lexeme)) world frame
      (Evaluation.classValue name methods)
      (do
        let methods ← makeMethods names methods
        return .class ⟨← freshIdentity, name.lexeme, methods⟩) := by
  have seen := visible.introduce free
  have complete := settled.introduce free
  have inside : frame < (world.settle frame name.lexeme).size := made
  refine (makeMethods_simulates inside complete seen resolved).bind ?_
  rintro future methods others grows ⟨rfl, likes⟩
  refine freshIdentity_simulates.bind ?_
  rintro later identity other further ⟨rfl, rfl⟩
  exact Simulates.pure (.class ⟨rfl, rfl, likes⟩)

/-- A loop on both sides, given that its condition and its body correspond in any world that
it gets to. -/
theorem repeatWhile_simulates {condition : Evaluation.Eval Lox.Value}
    {otherCondition : Eval Value} {body : Evaluation.Eval Evaluation.Completion}
    {otherBody : Eval Completion}
    (conditions : ∀ future, Grows (only frame) world future → Stands future scopes frame place →
      Simulates nothing ValueLike future frame condition otherCondition)
    (bodies : ∀ future, Grows (only frame) world future → Stands future scopes frame place →
      Simulates (only frame) (fun later completion other =>
        CompletionLike later completion other ∧ Stands later scopes frame place) future frame
        body otherBody)
    (stands : Stands world scopes frame place) (fuel : Nat) :
    Simulates (only frame) (fun later completion other =>
      CompletionLike later completion other ∧ Stands later scopes frame place) world frame
      (Evaluation.repeatWhile condition body fuel)
      (Evaluation.repeatWhile otherCondition otherBody fuel) := by
  induction fuel generalizing world with
  | zero => exact Simulates.throw _
  | succ fuel inductionHypothesis =>
      unfold Evaluation.repeatWhile
      have first := (conditions world (Grows.refl _ _) stands).standing stands
      refine first.bind ?_
      rintro future value other grows ⟨like, stands⟩
      rw [like.isTruthy]
      split
      case isFalse => exact Simulates.pure ⟨.normal, stands⟩
      case isTrue =>
          refine (bodies future grows stands).bind ?_
          rintro later completion another more ⟨alike, stands⟩
          have sofar := grows.trans more
          cases alike with
          | returned like => exact Simulates.pure ⟨.returned like, stands⟩
          | normal =>
              exact inductionHypothesis
                (fun future further => conditions future (sofar.trans further))
                (fun future further => bodies future (sofar.trans further)) stands

mutual

/-- By induction on the statement, with the scopes that are open behind each part. -/
theorem execute_simulates (invokes : InvokeLike left right) (fuel : Nat) {world : World}
    {scopes : Scopes} {frame : Nat} {place : Place} (stands : Stands world scopes frame place) :
    (statement : Statement) → ResolvedStatement world.recorded scopes statement →
    Simulates (only frame) (Ends scopes frame place statement) world frame
      (Evaluation.execute left fuel statement) (execute right fuel place statement)
  | .expression value, resolved =>
      ((evaluate_simulates invokes stands.visible value resolved).standing stands).bind
        fun _ _ _ _ standing => Simulates.pure ⟨.normal, standing.2, fun _ => rfl⟩
  | .print value, resolved => by
      refine ((evaluate_simulates invokes stands.visible value resolved).standing stands).bind ?_
      rintro future value other grows ⟨like, stands⟩
      refine ((printValue_simulates like).standing stands).bind fun _ _ _ _ standing => ?_
      exact Simulates.pure ⟨.normal, standing.2, fun _ => rfl⟩
  | .var name initializer, resolved => by
      rw [Evaluation.execute_var]
      refine (declare_simulates stands resolved.1.1 fun middle behind grows _ visible => ?_).bind
        fun _ _ _ _ standing => Simulates.pure ⟨.normal, standing, nofun⟩
      refine (evaluateOptional_simulates invokes visible initializer
        (ResolvedOptional.mono grows.recorded _ _ resolved.2)).imp fun _ _ _ _ like => ?_
      exact like.grow (settle_grows _ _ _)
  | .block statements, resolved => by
      intro machine store heap here
      have block : Simulates nothing CompletionLike world frame
          (do
            let inner ← Evaluation.pushFrame frame
            Evaluation.within inner (Evaluation.executeAll left fuel statements))
          (executeAll right fuel (.inside place.names) statements) := by
        refine pushFrame_simulates (stands.lt heap) fun machine store heap => ?_
        exact within_simulates (executeAll_simulates invokes fuel
          (Stands.push heap stands.settled stands.visible) statements resolved)
      subst here
      refine Simulates.mapRight (block.standing stands) ?_ machine store heap rfl
      exact fun _ _ _ _ ended => ⟨ended.1, ended.2, fun _ => rfl⟩
  | .conditional condition thenBranch none, resolved => by
      refine ((evaluate_simulates invokes stands.visible condition resolved.1).standing stands).bind
        ?_
      rintro future value other grows ⟨like, stands⟩
      rw [like.isTruthy]
      split
      case isFalse => exact Simulates.pure ⟨.normal, stands, fun _ => rfl⟩
      case isTrue =>
          refine (execute_simulates invokes fuel stands thenBranch
            (ResolvedStatement.mono grows.recorded _ _ resolved.2.2)).mapRight
              fun _ _ _ _ ends => ?_
          exact ⟨ends.like, ends.ofBranch resolved.2.1, fun _ => rfl⟩
  | .conditional condition thenBranch (some elseBranch), resolved => by
      refine ((evaluate_simulates invokes stands.visible condition resolved.1).standing stands).bind
        ?_
      rintro future value other grows ⟨like, stands⟩
      rw [like.isTruthy]
      split
      case isFalse =>
          refine (execute_simulates invokes fuel stands elseBranch
            (ResolvedStatement.mono grows.recorded _ _ resolved.2.2.2)).mapRight
              fun _ _ _ _ ends => ?_
          exact ⟨ends.like, ends.ofBranch resolved.2.2.1, fun _ => rfl⟩
      case isTrue =>
          refine (execute_simulates invokes fuel stands thenBranch
            (ResolvedStatement.mono grows.recorded _ _ resolved.2.1.2)).mapRight
              fun _ _ _ _ ends => ?_
          exact ⟨ends.like, ends.ofBranch resolved.2.1.1, fun _ => rfl⟩
  | .loop condition body, resolved => by
      have rounds := repeatWhile_simulates
        (fun future grows stands => evaluate_simulates invokes stands.visible condition
          (ResolvedExpression.mono grows.recorded _ _ resolved.1))
        (fun future grows stands => (execute_simulates invokes fuel stands body
          (ResolvedStatement.mono grows.recorded _ _ resolved.2.2)).mapRight
            fun _ _ _ _ ends => ⟨ends.like, ends.ofBranch resolved.2.1⟩)
        stands fuel
      exact rounds.mapRight fun _ _ _ _ ended => ⟨ended.1, ended.2, fun _ => rfl⟩
  | .function declaration, resolved => by
      rw [Evaluation.execute_function]
      refine (declare_simulates stands resolved.1 fun middle behind grows made visible => ?_).bind
        fun _ _ _ _ standing => Simulates.pure ⟨.normal, standing, nofun⟩
      exact functionValue_simulates made stands.settled resolved.1 visible
        (ResolvedFunction.mono grows.recorded _ _ resolved.2)
  | .return _ value, resolved =>
      ((evaluateOptional_simulates invokes stands.visible value resolved).standing stands).bind
        fun _ _ _ _ standing => Simulates.pure ⟨.returned standing.1, standing.2, fun _ => rfl⟩
  | .class name methods, resolved => by
      intro machine store heap here
      have made : machine.environment < machine.frames.size := by
        rw [here, heap.size]
        exact stands.lt heap
      rw [Evaluation.execute_class left fuel name methods made]
      refine ((declare_simulates stands resolved.1 fun middle behind grows made visible => ?_).bind
        fun _ _ _ _ standing => Simulates.pure ⟨.normal, standing, nofun⟩) machine store heap here
      exact classValue_simulates made stands.settled resolved.1 visible
        (Scope.ResolvedMethods.mono grows.recorded _ _ resolved.2)

theorem executeAll_simulates (invokes : InvokeLike left right) (fuel : Nat) {world : World}
    {scopes : Scopes} {frame : Nat} {place : Place} (stands : Stands world scopes frame place) :
    (statements : List Statement) → ResolvedStatements world.recorded scopes statements →
    Simulates (only frame) CompletionLike world frame
      (Evaluation.executeAll left fuel statements) (executeAll right fuel place statements)
  | [], _ => Simulates.pure .normal
  | statement :: rest, resolved => by
      refine (execute_simulates invokes fuel stands statement resolved.1).bind ?_
      rintro future completion ⟨other, behind⟩ grows ends
      cases ends.like with
      | normal =>
          exact executeAll_simulates invokes fuel ends.stands rest
            (ResolvedStatements.mono grows.recorded _ _ resolved.2)
      | returned like => exact Simulates.pure (.returned like)

end

/-! ### Calls and programs -/

/-- Runs of statements correspond. -/
def RunLike (run : List Statement → Evaluation.Eval Evaluation.Completion)
    (other : Place → List Statement → Eval Completion) : Prop :=
  ∀ (world : World) (scopes : Scopes) (frame : Nat) (place : Place) (statements : List Statement),
    Stands world scopes frame place → ResolvedStatements world.recorded scopes statements →
    Simulates (only frame) CompletionLike world frame (run statements) (other place statements)

/-- What a call yields: the instance of an initializer, else what the body returned. -/
theorem result_simulates {function : FunctionValue} {other : FunctionValueOf Names}
    (like : FunctionLike world id function other) {completion : Evaluation.Completion}
    {another : Completion} (ended : CompletionLike world completion another) :
    Simulates nothing ValueLike world frame
      (do
        if function.isInitializer then
          let instance? :=
            (← get).frames.lookup? function.closure Keyword.this.spelling
          return instance?.getD .nil
        else
          match completion with
          | .normal => return .nil
          | .returned value => return value : Evaluation.Eval Lox.Value)
      (do
        if function.isInitializer then
          let cells := (← get).cells
          let this? := other.closure[Keyword.this.spelling]?.bind fun cell => cells[cell]?.join
          return this?.getD .nil
        else
          match another with
          | .normal => return .nil
          | .returned value => return value : Eval Value) := by
  obtain ⟨scopes, settled, visible, resolved, receiver⟩ := like.captured
  split
  case isTrue initializer =>
      obtain ⟨owner, cell, leads, stands, captured, _⟩ := visible.ofLocal (receiver initializer)
      obtain rfl : function.closure = owner := Option.some.inj leads
      rw [captured]
      refine Simulates.get fun machine store heap here => ?_
      have content := (heap.content _ _ _ stands).2.2
      refine Simulates.pure ?_ machine store heap here
      dsimp only [Option.bind_some]
      generalize machine.frames.lookup? function.closure Keyword.this.spelling = left,
        store.cells[cell]?.join = right at content ⊢
      cases content with
      | none => exact .nil
      | some like => exact like
  case isFalse =>
      cases ended with
      | normal => exact Simulates.pure .nil
      | returned like => exact Simulates.pure like

theorem callFunction_simulates {run : List Statement → Evaluation.Eval Evaluation.Completion}
    {other : Place → List Statement → Eval Completion} (runs : RunLike run other) :
    InvokeLike (Evaluation.callFunction run) (callFunction other) := by
  intro world frame function another paren arguments others like likes matching
  obtain ⟨scopes, settled, visible, resolved, receiver⟩ := like.captured
  obtain ⟨free, body⟩ := Scope.resolvedFunction_iff.mp resolved
  unfold Evaluation.callFunction callFunction
  refine Simulates.get fun machine store heap here => ?_
  rw [heap.depth, ← like.declaration, ← like.isInitializer]
  split
  case isTrue =>
      have fails : Simulates nothing ValueLike world frame _ _ :=
        Simulates.fail paren .stackOverflow
      exact fails machine store heap here
  case isFalse =>
      refine pushFrame_simulates like.closed (fun machine store heap => ?_) machine store heap here
      have new := push_grows function.closure heap.new
      have stands := Stands.push heap settled visible
      refine (bindParameters_simulates stands free
        (likes.imp fun _ _ related => related.grow new) matching).bind
          fun future _ names grows stands => ?_
      have known := ResolvedStatements.mono grows.recorded _ _ body
      refine (deeper_simulates (within_simulates (runs _ _ _ _ _ stands known))).bind
        fun later completion result more ended => ?_
      have sofar := (like.grow new).grow (grows.trans more)
      exact (result_simulates sofar ended).ofNothing

/-- By induction on the fuel for calls. -/
theorem invoke_simulates (fuel : Nat) : InvokeLike (Evaluation.invoke fuel) (invoke fuel) := by
  induction fuel with
  | zero => exact fun _ _ _ _ _ _ _ _ _ _ => Simulates.throw _
  | succ fuel inductionHypothesis =>
      exact callFunction_simulates fun world scopes frame place statements stands resolved =>
        executeAll_simulates inductionHypothesis fuel stands statements resolved

/-- A program that is resolved ends alike on a machine and on a store that correspond. -/
theorem interpret_simulates (fuel : Nat) (program : List Statement)
    (resolved : ResolvedStatements world.recorded [] program) :
    Simulates (only world.globals) (fun _ _ _ => True) world world.globals
      (Evaluation.interpret fuel program) (interpret fuel program) :=
  (executeAll_simulates (invoke_simulates fuel) fuel .outermost program resolved).bind
    fun _ _ _ _ _ => Simulates.pure trivial

end Lox.Lexical
