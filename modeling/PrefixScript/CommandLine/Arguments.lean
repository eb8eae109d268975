/-!
# Arguments

What the arguments of the command line ask for.

Arguments are read from left to right, and the first that settles the matter
does so for good: a request for help or for the version is granted whatever
comes after it, and a mistake is a mistake even in front of one.

An argument is an option if it starts with a hyphen and is longer than that.
Two hyphens introduce one option by its long name, which has to be complete and
takes no value; a single hyphen introduces any number of options by their
letters. Two hyphens alone end the options. Every other argument is the path of
a script, of which there can be one. No option may be given twice.

## Main definitions

* `Options`: What to do with which script.
* `Ending`: What settles the matter without running a script.
* `Options.parse`: Reading the arguments.
-/

namespace PrefixScript

namespace CommandLine

/-- How to run a script, and which. -/
structure Options where
  /-- Print the value of the script in the end. -/
  pipeMode : Bool := false
  /-- List the tokens of the script before running it. -/
  showTokens : Bool := false
  /-- The script to run. -/
  path : Option String := none
  deriving DecidableEq, Repr

/-- What ends the reading of arguments before a script is run. -/
inductive Ending where
  | help
  | version
  /-- The arguments make no sense. -/
  | misuse
  deriving DecidableEq, Repr

/-- The options there are. -/
inductive Switch where
  | pipeMode
  | showTokens
  | help
  | version
  deriving DecidableEq, Repr

namespace Switch

/-- The option with a letter. -/
def ofLetter? : Char → Option Switch
  | 'p' => some .pipeMode
  | 't' => some .showTokens
  | 'h' => some .help
  | 'V' => some .version
  | _ => none

/-- The option with a long name. -/
def ofName? : String → Option Switch
  | "pipe-mode" => some .pipeMode
  | "tokens" => some .showTokens
  | "help" => some .help
  | "version" => some .version
  | _ => none

end Switch

namespace Options

/-- Take account of an option. -/
def turnOn (options : Options) : Switch → Except Ending Options
  | .help => .error .help
  | .version => .error .version
  | .pipeMode =>
    if options.pipeMode then .error .misuse else .ok { options with pipeMode := true }
  | .showTokens =>
    if options.showTokens then .error .misuse else .ok { options with showTokens := true }

/-- Take account of an option that may not exist. -/
def turnOn? (options : Options) : Option Switch → Except Ending Options
  | some switch => options.turnOn switch
  | none => .error .misuse

/-- Take account of a path. -/
def addPath (options : Options) (path : String) : Except Ending Options :=
  match options.path with
  | none => .ok { options with path := some path }
  | some _ => .error .misuse

/-- Take account of one argument that is not the end of the options. -/
def read (options : Options) (argument : String) : Except Ending Options :=
  match argument.toList with
  | '-' :: '-' :: name => options.turnOn? (Switch.ofName? (String.ofList name))
  | '-' :: letter :: letters =>
    (letter :: letters).foldlM (fun options letter => options.turnOn? (Switch.ofLetter? letter))
      options
  | _ => options.addPath argument

/-- Take account of arguments in turn. -/
def readAll (options : Options) : List String → Except Ending Options
  | [] => .ok options
  | argument :: rest =>
    if argument = "--" then rest.foldlM addPath options
    else do (← options.read argument).readAll rest

/-- What the arguments of the command line ask for. -/
def parse (arguments : List String) : Except Ending Options :=
  readAll {} arguments

end Options

end CommandLine

end PrefixScript
