import Lox.Main
import Lox.Machine.Describe
import Lox.Proofs.Grammar.Trees
import Lox.Proofs.Grammar.Cursor
import Lox.Proofs.Grammar.Soundness
import Lox.Proofs.Grammar.Completeness
import Lox.Proofs.Grammar.Derivations
import Lox.Proofs.Grammar.Program
import Lox.Proofs.Lexical.Session
import Lox.Proofs.Evaluation.Origin
import Lox.Proofs.Evaluation.Returns
import Lox.Proofs.Lexical.Bound
import Lox.Proofs.Relabel.Evaluation
import Lox.Proofs.Relabel.Grammar
import Lox.Proofs.Relabel.Joined
import Lox.Proofs.Evaluation.Restoration
import Lox.Proofs.Evaluation.Stack
import Lox.Proofs.Grammar.Written
import Lox.Proofs.Number.Bits
import Lox.Proofs.Number.Numeral
import Lox.Proofs.Relabel.Inserted
import Lox.Proofs.Source.Layout
import Lox.Proofs.Syntax.Printed
import Lox.Proofs.Syntax.SourceForm
import Lox.Proofs.Evaluation.Parentheses
import Lox.Proofs.Source.Partition
import Lox.Proofs.Scope.Rules
import Lox.Proofs.Scope.Walk
import Lox.Proofs.Scope.Settings
import Lox.Proofs.Receiver.Activation
import Lox.Proofs.Receiver.Frames
import Lox.Proofs.Scope.Receiver
import Lox.Proofs.Receiver.Known
import Lox.Proofs.Receiver.Steps
import Lox.Proofs.Receiver.Objects
import Lox.Proofs.Receiver.Keeping
import Lox.Proofs.Receiver.History
import Lox.Proofs.Receiver.Session
import Lox.Proofs.Source.Longest
import Lox.Proofs.Grammar.Progress
import Lox.Proofs.Grammar.Rounds
import Lox.Proofs.Grammar.Nesting
import Lox.Proofs.Grammar.Termination
import Lox.Proofs.Evaluation.Additions
import Lox.Proofs.Scope.Declared
import Lox.Proofs.Evaluation.Chains
import Lox.Proofs.Session.Scopes
import Lox.Proofs.Frames.Access
import Lox.Proofs.Session.Diagnostics
import Lox.Proofs.Session.Returns
import Lox.Proofs.Lexical.ForLoops
import Lox.Proofs.Evaluation.Course
import Lox.Proofs.Evaluation.Order
import Lox.Proofs.Evaluation.Printing
import Lox.Proofs.Session.Output
import Lox.Proofs.Evaluation.Operators
import Lox.Proofs.Grammar.Declarations
import Lox.Proofs.Session.Operators
import Lox.Proofs.Source.Numerals
import Lox.Proofs.Number.Nearest
import Lox.Proofs.Number.Shortest
