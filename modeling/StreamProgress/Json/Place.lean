/-!
# Places in a text

A message that points into a text names a line and a column. Lines are counted from one. The
column of a place is the number of bytes before it in its line, so a place behind the first
character of a line has column one.
-/

namespace StreamProgress

namespace Json

/-- A place in a text. -/
structure Place where
  line : Nat
  column : Nat
  deriving DecidableEq, Repr

namespace Place

/-- The beginning of a text. -/
def start : Place := ⟨1, 0⟩

/-- The place behind a character that stands at a place. -/
def after (p : Place) (c : Char) : Place :=
  if c = '\n' then ⟨p.line + 1, 0⟩ else ⟨p.line, p.column + c.utf8Size⟩

/-- The place where a text ends. -/
def endOf (s : List Char) : Place := s.foldl after start

/-- The place in a text from which on `rest` is left of it. -/
def ofRest (s rest : List Char) : Place := endOf (s.take (s.length - rest.length))

/-- How a message points to a place. -/
def message (p : Place) : String :=
  " at line " ++ toString p.line ++ " column " ++ toString p.column

theorem ofRest_append (s rest : List Char) : ofRest (s ++ rest) rest = endOf s := by
  simp [ofRest]

example : endOf ['a', '\n', 'é', 'b'] = ⟨2, 3⟩ := by decide

end Place

end Json

end StreamProgress
