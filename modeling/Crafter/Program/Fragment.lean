import Crafter.Failure
import Crafter.Program.Parse

/-! Pieces of a program, read on their own from the front of a token list. Each
piece is read by the parser of whole programs, started where a program would
expect that piece and stopped as soon as the piece is complete. -/
namespace Crafter

structure Fragment (α : Type) where
  value : α
  rest : List Token
  last : Option Token

namespace Fragment

/-- Reads tokens until the reading yields the piece. Where the tokens end and the
reading asks for nothing more, no statement was begun. -/
def readUntil {α : Type} (piece : Reading → Option α) (r : Reading) :
    List Token → Except Failure (Fragment α)
  | [] =>
    match r.settle with
    | .error e => .error (.malformed e)
    | .ok ended =>
      match piece ended with
      | some value => .ok ⟨value, [], r.last⟩
      | none =>
        match r.finish with
        | .error e => .error (.malformed e)
        | .ok _ => .error .missingStatement
  | t :: ts =>
    match (if r.continues t then .ok r else r.settle) with
    | .error e => .error (.malformed e)
    | .ok settled =>
      match piece settled with
      | some value => .ok ⟨value, t :: ts, r.last⟩
      | none =>
        match settled.take t with
        | .error e => .error (.malformed e)
        | .ok next => readUntil piece { next with last := some t } ts

/-- Stands for the keyword that a program would have before the piece. -/
def keyword : Token := ⟨.keyword .loop, .ofChars "" .first Keyword.loop.spelling.toList⟩

def expression (tokens : List Token) : Fragment String :=
  let parts := tokens.takeWhile (·.lexeme.inExpression)
  ⟨" ".intercalate (parts.map (·.span.text)), tokens.dropWhile (·.lexeme.inExpression),
    parts.getLast?⟩

def comparison (tokens : List Token) : Except Failure (Fragment Condition) :=
  readUntil (fun r => match r.mode with
      | .opening (.loop test _) => some test
      | _ => none)
    { Reading.start with mode := .compared (.loop keyword) } tokens

def block (tokens : List Token) : Except Failure (Fragment Program) :=
  readUntil (fun r => match r.mode, r.blocks, r.complete with
      | .between, [], [.loop _ body _] => some body
      | _, _, _ => none)
    { Reading.start with mode := .opening (.loop default keyword.span.start) } tokens

def statement (tokens : List Token) : Except Failure (Fragment Statement) :=
  readUntil (fun r => match r.mode, r.blocks, r.complete with
      | .between, [], [s] => some s
      | _, _, _ => none)
    Reading.start tokens

end Fragment

end Crafter
