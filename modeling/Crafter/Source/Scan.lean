import Crafter.Failure

/-! From characters to tokens. Between tokens, blanks, tabs and line ends are
skipped; each token is as long as it can be. -/
namespace Crafter.Source

def unnamed : String := "<input>"

def isGap (c : Char) : Bool := c = ' ' || c = '\t' || c = '\r' || c = '\n'

def isOperatorStart (c : Char) : Bool := "+-*/=<>!".toList.contains c

def wordLexeme (word : String) : Lexeme :=
  match Keyword.ofSpelling? word with
  | some k => .keyword k
  | none => .identifier word

structure Piece where
  lexeme : Lexeme
  chars : List Char
  rest : List Char

inductive Obstacle where
  | openString
  | strayCharacter
  | numberTooLong (digits : Nat)
deriving DecidableEq, Repr

/-- A text in quotes, after its opening quote. It runs to the next quote, over
line ends if need be; nothing inside it is an escape. -/
def readString (cs : List Char) : Except Obstacle Piece :=
  match cs.dropWhile (· ≠ '"') with
  | [] => .error .openString
  | q :: rest =>
    .ok ⟨.string (String.ofList (cs.takeWhile (· ≠ '"'))),
      '"' :: cs.takeWhile (· ≠ '"') ++ [q], rest⟩

def readNumber (digits rest : List Char) : Except Obstacle Piece :=
  match Literal.ofDigits? digits with
  | some value => .ok ⟨.number value, digits, rest⟩
  | none => .error (.numberTooLong digits.length)

/-- An operator that starts with `c`; an equals sign right after it belongs to
it. -/
def readOperator (c : Char) : List Char → Piece
  | '=' :: rest => ⟨.operator (String.ofList [c, '=']), [c, '='], rest⟩
  | rest => ⟨.operator (String.ofList [c]), [c], rest⟩

def readPiece (c : Char) (cs : List Char) : Except Obstacle Piece :=
  if c = '"' then readString cs
  else if c.isAlpha then
    .ok ⟨wordLexeme (String.ofList (c :: cs.takeWhile Char.isAlpha)),
      c :: cs.takeWhile Char.isAlpha, cs.dropWhile Char.isAlpha⟩
  else if c.isDigit then readNumber (c :: cs.takeWhile Char.isDigit) (cs.dropWhile Char.isDigit)
  else if isOperatorStart c then .ok (readOperator c cs)
  else if c = '\x7b' then .ok ⟨.brace .opening, [c], cs⟩
  else if c = '\x7d' then .ok ⟨.brace .closing, [c], cs⟩
  else .error .strayCharacter

theorem readString_chars {cs : List Char} {piece : Piece} (h : readString cs = .ok piece) :
    ∃ body, piece.chars = '"' :: body ∧ body ++ piece.rest = cs := by
  unfold readString at h
  split at h
  · simp at h
  · next q rest hd =>
    cases h
    refine ⟨cs.takeWhile (· ≠ '"') ++ [q], rfl, ?_⟩
    rw [List.append_assoc, List.singleton_append, ← hd, List.takeWhile_append_dropWhile]

theorem readNumber_chars {digits rest : List Char} {piece : Piece}
    (h : readNumber digits rest = .ok piece) : piece.chars = digits ∧ piece.rest = rest := by
  unfold readNumber at h
  split at h
  · cases h; exact ⟨rfl, rfl⟩
  · simp at h

theorem readOperator_chars (c : Char) (cs : List Char) :
    ∃ body, (readOperator c cs).chars = c :: body ∧ body ++ (readOperator c cs).rest = cs := by
  unfold readOperator
  split
  · exact ⟨['='], rfl, rfl⟩
  · exact ⟨[], rfl, rfl⟩

/-- A token begins with the character that it is read from. Its other characters
and what follows it are all the characters after that one. -/
theorem readPiece_chars {c : Char} {cs : List Char} {piece : Piece}
    (h : readPiece c cs = .ok piece) :
    ∃ body, piece.chars = c :: body ∧ body ++ piece.rest = cs := by
  unfold readPiece at h
  split at h
  · next hc => rw [hc]; exact readString_chars h
  split at h
  · cases h; exact ⟨_, rfl, List.takeWhile_append_dropWhile⟩
  split at h
  · obtain ⟨hchars, hrest⟩ := readNumber_chars h
    exact ⟨_, hchars, by rw [hrest, List.takeWhile_append_dropWhile]⟩
  split at h
  · cases h; exact readOperator_chars c cs
  split at h
  · cases h; exact ⟨[], rfl, rfl⟩
  split at h
  · cases h; exact ⟨[], rfl, rfl⟩
  · simp at h

theorem readPiece_rest_le {c : Char} {cs : List Char} {piece : Piece}
    (h : readPiece c cs = .ok piece) : piece.rest.length ≤ cs.length := by
  obtain ⟨body, _, hcs⟩ := readPiece_chars h
  rw [← hcs, List.length_append]
  exact Nat.le_add_left ..

def Obstacle.failure (c : Char) (p : Position) : Obstacle → Failure
  | .openString => .malformed (.atPosition .openString p)
  | .strayCharacter => .malformed (.atPosition (.strayCharacter c) p)
  | .numberTooLong digits => .numberTooLong digits

def scanFrom (file : String) (p : Position) : List Char → Except Failure (List Token)
  | [] => .ok []
  | c :: cs =>
    if isGap c then scanFrom file (p.advance c) cs
    else
      match h : readPiece c cs with
      | .error obstacle => .error (obstacle.failure c p)
      | .ok piece =>
        have := readPiece_rest_le h
        match scanFrom file (p.advanceAll piece.chars) piece.rest with
        | .error failure => .error failure
        | .ok tokens => .ok (⟨piece.lexeme, .ofChars file p piece.chars⟩ :: tokens)
termination_by cs => cs.length
decreasing_by all_goals (simp only [List.length_cons]; omega)

/-- The tokens of a source text. A text that cannot be read to its end fails
with the lines around the obstacle. -/
def scan (file source : String) : Except Failure (List Token) :=
  match scanFrom file .first source.toList with
  | .error (.malformed e) => .error (.malformed (e.within source))
  | .error failure => .error failure
  | .ok tokens => .ok tokens

end Crafter.Source
