import Std.Time.DateTime.Timestamp
import Lox.CommandLine.Run

/-!
Contract: the program `lox`.

Owns: reading the script, standard input and the time, creating the log, and
writing replies. Does not own: what the replies are.

What a source unit prints is written when the unit ends.
-/

namespace Lox.CommandLine

-- Powers are the same whatever else is imported.
attribute [local instance (2000)] instPowNat

/-- More calls and rounds than any run gets to. -/
def unlimited : Nat := 2 ^ (60 : Nat)

/-- Why an operation on a file failed, with the number of the system's error. -/
def reasonOf : IO.Error → String
  | .noFileOrDirectory _ code details
  | .permissionDenied _ code details
  | .inappropriateType _ code details
  | .invalidArgument _ code details
  | .resourceExhausted _ code details =>
      details ++ " (os error " ++ toString code ++ ")"
  | error => toString error

/-- What comes of reading a file. -/
def fileAt (name : String) : IO FileRead := do
  match ← (IO.FS.Handle.mk name .read).toBaseIO with
  | .error error => return .openFailed (reasonOf error)
  | .ok handle =>
      match ← handle.readBinToEnd.toBaseIO with
      | .error error => return .readFailed (reasonOf error)
      | .ok bytes => return .contents (bytes.toList.map UInt8.toNat)

/-- Why the log cannot be created, if it cannot. -/
def createLog : IO (Option String) := do
  match ← (IO.FS.Handle.mk logName .write).toBaseIO with
  | .error error => return some (reasonOf error)
  | .ok _ => return none

/-- The times from now on, counted from the start of 1970. Within a unit they do not
depend on how long it runs. -/
def timeFromNow : IO (Nat → Float) := do
  let now ← Std.Time.Timestamp.now
  return Clock.ticking (now.toNanosecondsSinceUnixEpoch.val.toNat.toFloat / 1000000000.0)

/-- The rest of a line, up to and with its newline. -/
partial def readLine (input : IO.FS.Stream) : IO (List Nat) := do
  match (← input.read 1).toList with
  | [] => return []
  | byte :: _ =>
      if byte.toNat = '\n'.toNat then return [byte.toNat]
      else return byte.toNat :: (← readLine input)

/-- Write a reply, and return its exit code. -/
def Reply.write (reply : Reply) : IO UInt32 := do
  let stdout ← IO.getStdout
  stdout.putStr reply.stdout
  stdout.flush
  (← IO.getStderr).putStr reply.stderr
  return reply.exitCode.toUInt32

/-- Answer the lines of standard input as they come. -/
partial def answerLines (emit : Option Emit) (session : Session) : IO UInt32 := do
  let stdout ← IO.getStdout
  stdout.putStr prompt
  stdout.flush
  match ← (readLine (← IO.getStdin)).toBaseIO with
  | .error error => (stdinFailed (reasonOf error)).write
  | .ok [] => endOfInput.write
  | .ok line =>
      match answerLine emit unlimited line (session.setClock (← timeFromNow)) with
      | .error last => last.write
      | .ok (reply, session) => do
          let _ ← reply.write
          answerLines emit session

/-- Do what options ask for. -/
def perform (options : Options) : IO UInt32 := do
  let logFault? ← if options.log then createLog else pure none
  if let some reason := logFault? then
    return ← (logFailed reason).write
  let session := Session.start (.open #[]) (← timeFromNow)
  match options.script with
  | some name =>
      let file ← fileAt name
      (runScript options.emit unlimited name file session).write
  | none => answerLines options.emit session

end Lox.CommandLine

/-- Run, print or prompt for source text, as the arguments ask. -/
def main (arguments : List String) : IO UInt32 :=
  match Lox.CommandLine.Options.ofArguments arguments with
  | .error stop => stop.reply.write
  | .ok options => Lox.CommandLine.perform options
