/-! Places in a source text. Lines and columns count from 1. A line feed ends a
line; every other character, a tab or a carriage return included, takes one
column. -/
namespace Crafter

/-- The place of one character. Line and column are integers because places
also arrive from outside, in trees and diagnostics that no text stands behind. -/
structure Position where
  line : Int
  column : Int
deriving DecidableEq, Repr, Inhabited

namespace Position

def first : Position := ⟨1, 1⟩

def advance (p : Position) (c : Char) : Position :=
  if c = '\n' then ⟨p.line + 1, 1⟩ else ⟨p.line, p.column + 1⟩

def advanceAll (p : Position) (cs : List Char) : Position :=
  cs.foldl advance p

@[simp] theorem advanceAll_nil (p : Position) : p.advanceAll [] = p := rfl

@[simp] theorem advanceAll_cons (p : Position) (c : Char) (cs : List Char) :
    p.advanceAll (c :: cs) = (p.advance c).advanceAll cs := rfl

@[simp] theorem advanceAll_append (p : Position) (cs ds : List Char) :
    p.advanceAll (cs ++ ds) = (p.advanceAll cs).advanceAll ds := by
  simp [advanceAll]

end Position

/-- A stretch of a named text: the places of its first and of its last
character, and the characters themselves. -/
structure Span where
  file : String
  start : Position
  stop : Position
  text : String
deriving DecidableEq, Repr, Inhabited

namespace Span

def ofChars (file : String) (p : Position) (cs : List Char) : Span where
  file := file
  start := p
  stop := p.advanceAll cs.dropLast
  text := String.ofList cs

def label (s : Span) : String :=
  if s.start.line = s.stop.line then
    s!"{s.file}:{s.start.line}:{s.start.column}-{s.stop.column}"
  else
    s!"{s.file}:{s.start.line}:{s.start.column}-{s.stop.line}:{s.stop.column}"

end Span

end Crafter
