import Lox.CommandLine.Arguments
import Lox.Session
import Lox.Syntax.Form
import Lox.Text.Quoted
import Lox.Text.Utf8

/-!
Contract: what the command line prints, and its exit codes.

Owns:
- `process`, which runs or prints one source unit;
- `runScript` for a script, whatever came of reading it, and `runPrompt`, which
  answers the lines of standard input one after another;
- `run`, a whole command line with all that it can read given.

Does not own: reading files and standard input.
-/

namespace Lox.CommandLine

/-- What is printed, and the exit code. -/
structure Reply where
  exitCode : Nat
  stdout : String
  stderr : String
deriving DecidableEq, Repr

namespace Reply

/-- Print something before a reply. -/
def after (stdout stderr : String) (reply : Reply) : Reply :=
  ⟨reply.exitCode, stdout ++ reply.stdout, stderr ++ reply.stderr⟩

end Reply

/-- The exit code when the script cannot be read. -/
def readFailureCode : Nat := 74

/-- The exit code when the arguments are wrong. -/
def usageCode : Nat := 64

/-- The exit code when the surroundings of the program fail. -/
def abortCode : Nat := 1

/-- The tokens of a unit as lines, and its lexical errors. -/
def listTokens (form : Token → String) (source : String) : Reply :=
  let items := Source.scan source
  let errors := Source.lexicalErrors items
  ⟨if errors.isEmpty then Outcome.finishedCode else Outcome.refusedCode,
    Output.textOf ((Source.tokens items).map form).toArray,
    Output.textOf (errors.map Source.LexicalError.text).toArray⟩

/-- The reply that an outcome stands for. -/
def replyOf (outcome : Outcome) (stdout : String) : Reply :=
  ⟨outcome.exitCode, stdout,
    match outcome with
    | .finished => ""
    | _ => Output.textOf #[outcome.text]⟩

/-- The tree forms of the statements of a unit, or what is wrong with it. -/
def listStatements (source : String) (session : Session) : Reply × Session :=
  match session.parse source with
  | (.ok program, session) =>
      (⟨Outcome.finishedCode, Output.textOf (program.map Statement.treeForm).toArray, ""⟩,
        session)
  | (.error errors, session) => (replyOf (.refused errors) "", session)

/-- Run a unit. What it prints goes to standard output, what is wrong to standard
error. -/
def runUnit (fuel : Nat) (source : String) (session : Session) : Reply × Session :=
  let before := session.machine.output.lines.size
  let (outcome, session) := session.run fuel source
  let lines := session.machine.output.lines
  (replyOf outcome (Output.textOf (lines.extract before lines.size)), session)

/-- Run a unit, or print it in the form asked for. -/
def process (emit : Option Emit) (fuel : Nat) (source : String) (session : Session) :
    Reply × Session :=
  match emit with
  | none => runUnit fuel source session
  | some .tokens => (listTokens Token.listing source, session)
  | some .json => (listTokens Token.json source, session)
  | some .ast => listStatements source session

/-- What came of reading a file, with the reason if it could not be opened or read. -/
inductive FileRead where
  | contents (bytes : List Nat)
  | openFailed (reason : String)
  | readFailed (reason : String)

/-- Why a script cannot be run, or its text. -/
def FileRead.source (name : String) : FileRead → Except String String
  | .openFailed reason => .error ("Failed to open file " ++ Text.quoted name ++ ": " ++ reason)
  | .readFailed reason => .error ("Failed to read file " ++ Text.quoted name ++ ": " ++ reason)
  | .contents bytes =>
      match Utf8.decode bytes with
      | .ok source => .ok source
      | .error fault =>
          .error ("File " ++ Text.quoted name ++ " is not valid UTF-8: " ++ fault.message)

/-- Run or print a script. -/
def runScript (emit : Option Emit) (fuel : Nat) (name : String) (file : FileRead)
    (session : Session) : Reply :=
  match file.source name with
  | .error reason => ⟨readFailureCode, "", reason ++ "\n"⟩
  | .ok source => (process emit fuel source session).1

/-- What is printed before each line is read. -/
def prompt : String := "> "

/-- The text of a failure that ends the program. -/
def abortText (action reason : String) : String :=
  "Error: " ++ action ++ "\n\nCaused by:\n    " ++ reason ++ "\n"

/-- The reply when standard input cannot be read, for a reason. -/
def stdinFailed (reason : String) : Reply :=
  ⟨abortCode, "", abortText "Failed to read stdin" reason⟩

/-- The reply to the end of standard input. -/
def endOfInput : Reply :=
  ⟨Outcome.finishedCode, "\n", ""⟩

/-- The lines of an input, each with its newline; the last may lack one. -/
def splitLines : List Nat → List (List Nat)
  | [] => []
  | byte :: rest =>
      if byte = '\n'.toNat then
        [byte] :: splitLines rest
      else
        match splitLines rest with
        | [] => [[byte]]
        | line :: lines => (byte :: line) :: lines

/-- The reply to a line and the session after it, or the reply that ends the
program. What is wrong with the source in a line does not end it. -/
def answerLine (emit : Option Emit) (fuel : Nat) (line : List Nat) (session : Session) :
    Except Reply (Reply × Session) :=
  match Utf8.decode line with
  | .error _ => .error (stdinFailed "stream did not contain valid UTF-8")
  | .ok source => .ok (process emit fuel source session)

/-- Answer lines one after another, with a prompt before each and before the end. -/
def runPrompt (emit : Option Emit) (fuel : Nat) (session : Session) :
    List (List Nat) → Reply
  | [] => endOfInput.after prompt ""
  | line :: rest =>
      match answerLine emit fuel line session with
      | .error last => last.after prompt ""
      | .ok (reply, session) =>
          (runPrompt emit fuel session rest).after (prompt ++ reply.stdout) reply.stderr

/-- The name and version of the program. -/
def versionText : String := "lox 0.1.0\n"

/-- How to use the program. -/
def usageText : String :=
  "Usage: lox [--emit tokens|json|ast] [--log] [SCRIPT]\n"

/-- The reply to a command line that asks for nothing to be run. -/
def Stop.reply : Stop → Reply
  | .version => ⟨Outcome.finishedCode, versionText, ""⟩
  | .help => ⟨Outcome.finishedCode, usageText, ""⟩
  | .usage => ⟨usageCode, "", usageText⟩

/-- The file that `--log` creates. -/
def logName : String := "lox.log"

/-- The reply when the log cannot be created, for a reason. -/
def logFailed (reason : String) : Reply :=
  ⟨abortCode, "", abortText ("Failed to create " ++ logName) reason⟩

/-- What a command line can read. -/
structure Surroundings where
  fileAt : String → FileRead
  /-- Why the log cannot be created, if it cannot. -/
  logFault? : Option String
  /-- All of standard input. -/
  stdin : List Nat

/-- Do what options ask for. -/
def runOptions (options : Options) (fuel : Nat) (surroundings : Surroundings)
    (session : Session) : Reply :=
  match (if options.log then surroundings.logFault? else none), options.script with
  | some reason, _ => logFailed reason
  | none, some name =>
      runScript options.emit fuel name (surroundings.fileAt name) session
  | none, none => runPrompt options.emit fuel session (splitLines surroundings.stdin)

/-- Do what arguments ask for. -/
def run (arguments : List String) (fuel : Nat) (surroundings : Surroundings)
    (session : Session) : Reply :=
  match Options.ofArguments arguments with
  | .error stop => stop.reply
  | .ok options => runOptions options fuel surroundings session

end Lox.CommandLine
