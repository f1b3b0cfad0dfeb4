import Crafter.Program.Statement
import Crafter.Text.Json

/-! The syntax tree as a value of JSON. -/
namespace Crafter

def Literal.json : Literal → Json
  | .exact value => .number value
  | .infinite => .infinity

def Position.json (p : Position) : Json :=
  .object [("line", .number p.line), ("column", .number p.column)]

def Span.json (s : Span) : Json :=
  .object
    [("filename", .string s.file),
     ("start_line", .number s.start.line), ("start_col", .number s.start.column),
     ("end_line", .number s.stop.line), ("end_col", .number s.stop.column)]

def Lexeme.json : Lexeme → Json
  | .number literal => literal.json
  | lexeme => .string lexeme.value

def Token.json (t : Token) : Json :=
  .object [("type", .string t.lexeme.category), ("value", t.lexeme.json), ("span", t.span.json)]

def Condition.json (c : Condition) : Json :=
  .object [("left", c.left.json), ("operator", .string c.operator), ("right", c.right.json)]

mutual

def Statement.json : Statement → Json
  | .declaration name value loc => .object
    [("type", .string StatementKind.declaration.name), ("name", .string name),
     ("value", .string value), ("loc", loc.json)]
  | .printText contents loc => .object
    [("type", .string StatementKind.print.name), ("is_string", .bool true),
     ("value", .string contents), ("loc", loc.json)]
  | .printValue value loc => .object
    [("type", .string StatementKind.print.name), ("is_string", .bool false),
     ("value", .string value), ("loc", loc.json)]
  | .conditional test body alternative loc => .object
    [("type", .string StatementKind.conditional.name), ("condition", test.json),
     ("body", .array (Program.jsonList body)), ("else_body", .array (Program.jsonList alternative)),
     ("loc", loc.json)]
  | .loop test body loc => .object
    [("type", .string StatementKind.loop.name), ("condition", test.json),
     ("body", .array (Program.jsonList body)), ("loc", loc.json)]
  | .absent part => .object [("type", .string part)]
  | .foreign name body _ => .object
    [("type", .string name), ("body", .array (Program.jsonList body))]

def Program.jsonList : List Statement → List Json
  | [] => []
  | s :: rest => s.json :: Program.jsonList rest

end

def Program.json (p : Program) : Json :=
  .object [("type", .string Program.rootName), ("body", .array (Program.jsonList p))]

end Crafter
