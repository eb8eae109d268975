/-!
# Help Texts

The fixed texts of the command line.

## Main definitions

* `usage`: How the program is called.
* `helpText`: What the program does and which options it has.
* `versionText`: The name and version of the program.
-/

namespace PrefixScript

namespace CommandLine

/-- How the program is called. -/
def usage : String :=
  "Usage: quill [OPTIONS] [PATH]\n"

/-- What the program does, how it is called, and which options it has. -/
def helpText : String :=
  String.join [
    "A tiny line-oriented prefix scripting language interpreter.\n",
    "\n",
    usage,
    "\n",
    "Arguments:\n",
    "  [PATH]  The script to run. Nothing happens when it is omitted\n",
    "\n",
    "Options:\n",
    "  -p, --pipe-mode  Pipe mode automatically prints out the last value an ",
    "`eq`, `add`, `sub`, `mul` or `div` statement produced\n",
    "  -t, --tokens     Print every token and its line to stderr before running the script\n",
    "  -h, --help       Print help\n",
    "  -V, --version    Print version\n"]

/-- The name and version of the program. -/
def versionText : String :=
  "quill 0.1.0\n"

end CommandLine

end PrefixScript
