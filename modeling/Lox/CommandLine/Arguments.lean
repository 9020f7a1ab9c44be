/-!
Contract: the arguments of the command line.

    lox [--emit tokens|json|ast] [--log] [SCRIPT]
    lox --version | -V | --help | -h

Owns:
- `Options`, what a command line asks for, and `Stop`, why it asks for nothing
  to be run;
- `Options.ofArguments`, which reads arguments from left to right and stops at the
  first that settles the matter.

Does not own: the texts that are printed.
-/

namespace Lox.CommandLine

/-- What is printed in place of running a source. -/
inductive Emit where
  /-- The plain form of each token. -/
  | tokens
  /-- The JSON form of each token. -/
  | json
  /-- The tree form of each statement. -/
  | ast
deriving DecidableEq, Repr

/-- The form that an option value names. -/
def Emit.ofName? : String → Option Emit
  | "tokens" => some .tokens
  | "json" => some .json
  | "ast" => some .ast
  | _ => none

/-- What a command line asks for. -/
structure Options where
  /-- The script to run; without one, lines are read from standard input. -/
  script : Option String
  emit : Option Emit
  log : Bool
deriving DecidableEq, Repr

/-- Why nothing is to be run. -/
inductive Stop where
  | version
  | help
  /-- The arguments are wrong. -/
  | usage
deriving DecidableEq, Repr

namespace Options

/-- What no arguments ask for. -/
def default : Options :=
  ⟨none, none, false⟩

/-- Take an argument as the script. There is one script at most, and it has a name. -/
def setScript (name : String) (options : Options) : Except Stop Options :=
  if name.isEmpty || options.script.isSome then .error .usage
  else .ok { options with script := some name }

/-- Take an option value as what to print. It may be given once. -/
def setEmit (name : String) (options : Options) : Except Stop Options :=
  match Emit.ofName? name, options.emit with
  | some emit, none => .ok { options with emit := some emit }
  | _, _ => .error .usage

/-- Turn logging on. This may be done once. -/
def setLog (options : Options) : Except Stop Options :=
  if options.log then .error .usage else .ok { options with log := true }

/-- Read arguments behind those that gave `options`. -/
def read (options : Options) : List String → Except Stop Options
  | [] => .ok options
  | "--" :: rest => rest.foldlM (fun options name => options.setScript name) options
  | "--log" :: rest => do (← options.setLog).read rest
  | ["--emit"] => .error .usage
  | "--emit" :: value :: rest => do (← options.setEmit value).read rest
  | "--version" :: _ => .error .version
  | "--help" :: _ => .error .help
  | argument :: rest =>
      match argument.toList with
      | '-' :: '-' :: 'e' :: 'm' :: 'i' :: 't' :: '=' :: value => do
          (← options.setEmit (String.ofList value)).read rest
      | '-' :: '-' :: _ => .error .usage
      | '-' :: 'V' :: _ => .error .version
      | '-' :: 'h' :: _ => .error .help
      | '-' :: _ :: _ => .error .usage
      | _ => do (← options.setScript argument).read rest

/-- What arguments ask for. -/
def ofArguments (arguments : List String) : Except Stop Options :=
  default.read arguments

end Options

end Lox.CommandLine
