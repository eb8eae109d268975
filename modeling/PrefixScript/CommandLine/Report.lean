import PrefixScript.CommandLine.Arguments
import PrefixScript.CommandLine.Help
import PrefixScript.Stdout

/-!
# Reports

All that a call of the program does, as seen from outside.

The report of a call is what it writes to standard output and to standard
error, and the number it exits with. It depends on the arguments, on the texts
that can be read, and on the device behind standard output, and on nothing
else; reading and writing themselves are left to the caller.

A script that cannot be read is reported before anything is done with it. The
list of tokens comes before the run, so it is complete even if the run fails.
Everything that goes wrong is told on standard error.

## Main definitions

* `Report`: The outputs and the exit code of a call.
* `tokenRow`: The row of a token in the list of tokens.
* `Report.ofText`: The report of running a text.
* `Report.ofArguments`: The report of a call.
-/

namespace PrefixScript

namespace CommandLine

/-- What a call of the program leaves behind. -/
structure Report where
  exitCode : UInt32
  stdout : ByteArray
  stderr : String

/-- The row of a token in the list of tokens: the number of its line, at the
    right edge of a column of four, and its description. -/
def tokenRow (token : Located Token) : String :=
  String.ofList (Decimal.padded 4 token.line) ++ "  " ++ token.item.text ++ "\n"

/-- The list of the tokens of a script, if it is asked for. -/
def tokenList (options : Options) (tokens : List (Located Token)) : String :=
  if options.showTokens then String.join (tokens.map tokenRow) else ""

namespace Report

/-- The report of running a text. -/
def ofText (device : Device) (options : Options) (source : String) : Report :=
  let tokens := Token.ofText source
  let delivery := Delivery.ofTokens device tokens options.pipeMode
  match delivery.result with
  | .ok () => ⟨0, delivery.output, tokenList options tokens⟩
  | .error message => ⟨1, delivery.output, tokenList options tokens ++ message ++ "\n"⟩

/-- The report of a path that no text can be read from. -/
def unreadable (path : String) : Report :=
  ⟨1, .empty, "Could not find file \"" ++ path ++ "\"\n"⟩

/-- The report of a call with understood arguments. -/
def ofOptions (device : Device) (read : String → Option String) (options : Options) : Report :=
  match options.path with
  | none => ⟨0, .empty, ""⟩
  | some path =>
    match read path with
    | none => unreadable path
    | some source => ofText device options source

/-- The report of a call. `read` gives the text of a path, if there is one. -/
def ofArguments (device : Device) (read : String → Option String) (arguments : List String) :
    Report :=
  match Options.parse arguments with
  | .ok options => ofOptions device read options
  | .error .help => ⟨0, device.received helpText.toUTF8, ""⟩
  | .error .version => ⟨0, device.received versionText.toUTF8, ""⟩
  | .error .misuse => ⟨2, .empty, usage⟩

end Report

end CommandLine

end PrefixScript
