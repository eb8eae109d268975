import PrefixScript.Evaluation
import PrefixScript.Token.Stream

/-!
# Scripts

Running a script from its beginning.

A script starts without variables, so its outcome depends on nothing but its
tokens and the output it is given. A text is run by running its tokens.

## Main definitions

* `Outcome.ofTokens`: Running a sequence of tokens.
* `Outcome.ofText`: Running a text.
-/

namespace PrefixScript

namespace Outcome

/-- Run a sequence of tokens, with its output going to a sink. -/
def ofTokens (tokens : List (Located Token)) (output : Sink) : Outcome :=
  Statement.evalAll (Statement.ofTokens tokens) (Session.start output)

/-- Run a text, with its output going to a sink. -/
def ofText (source : String) (output : Sink) : Outcome :=
  ofTokens (Token.ofText source) output

end Outcome

end PrefixScript
