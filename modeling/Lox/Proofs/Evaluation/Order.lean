import Lox.Proofs.Evaluation.Printing
import Lox.Proofs.Receiver.Activation

/-!
Contract: the order in which lines are printed.

Owns:
- `Follow`: each of several points is done on the output that the one before it leaves;
- that the parts of a point follow one another from the output of the point on;
- what has been printed when something in the course of a point has been done: the lines of the
  course up to there, and no others.
-/

namespace Lox.Evaluation

/-! ### Output left behind -/

theorem Prints.final_output {α : Type} {computation : Eval α} {machine : Machine}
    {lines : List String} (prints : Prints computation machine lines) :
    (final (computation machine)).output = machine.output.printAll lines := by
  have same : computation machine = settingOutput (machine.output.printAll lines)
      (computation machine) := prints machine.output
  rw [same]
  cases computation machine <;> rfl

/-- What is done at a point leaves its lines behind. -/
theorem Point.left_output (point : Point) :
    point.left.output = point.machine.output.printAll point.printed := by
  obtain ⟨fuel, task, machine⟩ := point
  have calls := invoke_prints fuel
  cases task with
  | expression initialized value => exact (evaluate_prints calls initialized value machine).final_output
  | expressions initialized values =>
      exact (evaluateAll_prints calls initialized values machine).final_output
  | assignment initialized id name value =>
      rw [printed_assignment]
      exact (assign_quiet id name value).final_output
  | application callee paren arguments =>
      exact (callValue_prints calls callee paren arguments machine).final_output
  | call function paren arguments => exact (calls function paren arguments machine).final_output
  | statement part => exact (execute_prints calls part machine).final_output
  | statements parts => exact (executeAll_prints calls parts machine).final_output
  | rounds condition body left =>
      exact (repeatWhile_prints (evaluate_prints calls none condition) (execute_prints calls body)
        left machine).final_output

/-! ### One after another -/

/-- The first point is done on a given output, and each other one on what the one before leaves. -/
def Follow : Output → List Point → Prop
  | _, [] => True
  | output, point :: rest => point.machine.output = output ∧ Follow point.left.output rest

theorem follow_singleton {output : Output} {point : Point} :
    Follow output [point] ↔ point.machine.output = output := by
  simp [Follow]

theorem follow_following {α : Type} {result : EStateM.Result Halt Machine α} {output : Output}
    {next : α → Machine → List Point} (same : (final result).output = output)
    (follow : ∀ value later, result = .ok value later → later.output = output →
      Follow output (next value later)) : Follow output (following result next) := by
  cases result with
  | ok value later => exact follow value later rfl same
  | error => trivial

/-- A first part, and what follows its value. -/
theorem follow_cons {α : Type} {result : EStateM.Result Halt Machine α} {point : Point}
    {next : α → Machine → List Point} (left : point.left = final result)
    (follow : ∀ value later, result = .ok value later → Follow later.output (next value later)) :
    Follow point.machine.output (point :: following result next) := by
  refine ⟨rfl, ?_⟩
  rw [left]
  cases result with
  | ok value later => exact follow value later rfl
  | error => trivial

section Parts

variable {fuel : Nat} {machine : Machine}

theorem expressionParts_follow (initialized : Option Token) (value : Expression) :
    Follow machine.output (expressionParts fuel machine initialized value) := by
  cases value with
  | literal | «variable» | this => trivial
  | grouping | unary | get => exact follow_singleton.mpr rfl
  | binary => exact follow_cons rfl fun _ _ _ => follow_singleton.mpr rfl
  | logical =>
      refine follow_cons rfl fun _ _ _ => ?_
      split
      · trivial
      · exact follow_singleton.mpr rfl
  | assign => exact follow_cons rfl fun _ _ _ => follow_singleton.mpr rfl
  | call => exact follow_cons rfl fun _ _ _ => follow_cons rfl fun _ _ _ => follow_singleton.mpr rfl
  | set =>
      refine follow_cons rfl fun target _ _ => ?_
      cases target with
      | «instance» => exact follow_singleton.mpr rfl
      | _ => trivial

theorem applicationParts_follow (callee : Value) (paren : Token) (arguments : List Value) :
    Follow machine.output (applicationParts fuel machine paren arguments callee) := by
  cases callee with
  | function function =>
      rw [applicationParts]
      split
      · exact follow_singleton.mpr rfl
      · trivial
  | «class» owner =>
      rw [applicationParts]
      split
      case isFalse => trivial
      case isTrue =>
          cases owner.initializer? with
          | none => trivial
          | some method =>
              refine follow_following (makeInstance_quiet owner).final_output
                fun id middle _ made => ?_
              refine follow_following ((bindMethod_quiet method id).final_output.trans made)
                fun bound later _ same => follow_singleton.mpr same
  | _ => trivial

theorem callParts_follow (function : FunctionValue) (arguments : List Value) :
    Follow machine.output (callParts machine function arguments fuel) := by
  cases fuel with
  | zero => trivial
  | succ fuel =>
      rw [callParts]
      split
      · exact follow_following (openFrame_quiet function arguments machine).final_output
          fun _ _ _ same => follow_singleton.mpr same
      · trivial

theorem statementParts_follow (part : Statement) :
    Follow machine.output (statementParts fuel machine part) := by
  cases part with
  | expression | print | block | loop => exact follow_singleton.mpr rfl
  | var _ initializer =>
      cases initializer with
      | none => trivial
      | some => exact follow_singleton.mpr rfl
  | «return» _ value =>
      cases value with
      | none => trivial
      | some => exact follow_singleton.mpr rfl
  | conditional _ _ elseBranch =>
      refine follow_cons rfl fun _ _ _ => ?_
      split
      · exact follow_singleton.mpr rfl
      · cases elseBranch with
        | none => trivial
        | some => exact follow_singleton.mpr rfl
  | function | «class» => trivial

/-- The parts of a point follow one another, from the output of the point on. -/
theorem Point.parts_follow (point : Point) : Follow point.machine.output point.parts := by
  obtain ⟨fuel, task, machine⟩ := point
  cases task with
  | expression initialized value => exact expressionParts_follow initialized value
  | expressions _ values =>
      cases values with
      | nil => trivial
      | cons => exact follow_cons rfl fun _ _ _ => follow_singleton.mpr rfl
  | assignment => trivial
  | application callee paren arguments => exact applicationParts_follow callee paren arguments
  | call function _ arguments => exact callParts_follow function arguments
  | statement part => exact statementParts_follow part
  | statements parts =>
      cases parts with
      | nil => trivial
      | cons =>
          refine follow_cons rfl fun completion _ _ => ?_
          cases completion with
          | normal => exact follow_singleton.mpr rfl
          | returned => trivial
  | rounds _ _ left =>
      cases left with
      | zero => trivial
      | succ =>
          refine follow_cons rfl fun _ _ _ => ?_
          split
          case isFalse => trivial
          case isTrue =>
              refine follow_cons rfl fun completion _ _ => ?_
              cases completion with
              | normal => exact follow_singleton.mpr rfl
              | returned => trivial

end Parts

/-! ### The lines up to a point -/

/-- When a point in the course of another one has been done, the lines of the course up to it have
been printed, and no others. -/
def Point.Orderly (point : Point) : Prop :=
  ∀ before done after, point.course = before ++ done :: after →
    done.left.output =
      point.machine.output.printAll ((before ++ [done]).filterMap Point.line?)

theorem Point.left_output_printAll (point : Point) (further : List Point) :
    point.left.output.printAll (further.filterMap Point.line?) =
      point.machine.output.printAll ((point.course ++ further).filterMap Point.line?) := by
  rw [Point.left_output, List.filterMap_append, Output.printAll_append]
  rfl

/-- By induction on the points. -/
theorem Follow.orderly {output : Output} {points : List Point} (follow : Follow output points)
    (orderly : ∀ point ∈ points, point.Orderly) (before after : List Point) (done : Point)
    (split : points.flatMap Point.course = before ++ done :: after) :
    done.left.output = output.printAll ((before ++ [done]).filterMap Point.line?) := by
  induction points generalizing output before with
  | nil => simp at split
  | cons point rest inductionHypothesis =>
      obtain ⟨rfl, behind⟩ := follow
      rw [List.flatMap_cons, List.append_eq_append_iff] at split
      have later (further : List Point)
          (others : rest.flatMap Point.course = further ++ done :: after) :
          done.left.output = point.machine.output.printAll
            ((point.course ++ (further ++ [done])).filterMap Point.line?) :=
        (inductionHypothesis behind (fun point member =>
          orderly point (List.mem_cons_of_mem _ member)) further others).trans
            (point.left_output_printAll _)
      obtain ⟨further, rfl, others⟩ | ⟨further, whole, others⟩ := split
      · rw [List.append_assoc]
        exact later further others
      · cases further with
        | nil =>
            rw [List.append_nil] at whole
            exact whole ▸ later [] others.symm
        | cons head further =>
            obtain ⟨rfl, _⟩ := List.cons_eq_cons.mp others
            exact orderly point List.mem_cons_self before done further whole

/-- By induction on the rank of the point. -/
theorem Point.orderly (point : Point) : point.Orderly := by
  intro before done after split
  rw [Point.course_eq] at split
  rcases after.eq_nil_or_concat with rfl | ⟨earlier, last, rfl⟩
  · obtain ⟨parts, same⟩ := List.append_inj' split rfl
    obtain rfl : point = done := List.singleton_inj.mp same
    rw [← parts, ← Point.course_eq]
    exact point.left_output
  · rw [List.concat_eq_append, ← List.cons_append, ← List.append_assoc] at split
    obtain ⟨parts, -⟩ := List.append_inj' split rfl
    exact point.parts_follow.orderly (fun part isPart => part.orderly) before earlier done parts
termination_by point.rank
decreasing_by exact (Point.mem_parts_iff.mp isPart).rank_lt

end Lox.Evaluation
