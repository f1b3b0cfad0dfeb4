import Crafter.Narration
import Crafter.Program.Outline

/-! The stages of the work on a source, one at a time, and a short program that is taken
through the first two of them. -/
namespace Crafter

def stageText (source stage : String) : Except Failure String :=
  match stage with
  | "tokens" => do
    return Token.listing (← Source.scan Source.unnamed source)
  | "ast" => do
    let tokens ← Source.scan Source.unnamed source
    match Program.ofBalancedTokens tokens with
    | .error e => .error (.malformed e)
    | .ok p => return p.outline
  | "ir" => return "Crafter intermediate representation:\n" ++
      "(the AST is interpreted directly - there is no separate IR phase)"
  | "run" => do
    let r ← Request.report ⟨source, Source.unnamed, .empty, Cap.standard.count⟩
    return if r.status = .ok then r.output
      else Text.joinLines (r.diagnostics.map (·.message))
  | other => .error (.unknownView other)

namespace Demonstration

def source : String :=
  "\n    maano x = 5\n    maano y = 10\n    likho x + y\n    "

/-- What is shown of the program: its tokens and its tree, each after a word on
how many there are. -/
def lines : Except Failure (List String) := do
  let tokens ← Source.scan Source.unnamed source
  let told := [Narration.scanned tokens, Token.listing tokens, "\nProgram parse result:"]
  match Program.ofTokens tokens with
  | .error e => return told ++ [e.account]
  | .ok p => return told ++ [Narration.parsed p, p.outline]

end Demonstration

end Crafter
