/-!
# Line ends

A text file may end its lines with a carriage return, a line feed, or both in this order.  Reading
it yields a line feed for each.
-/

namespace SourceAtlas.Text

/-- Put a character in front of a text whose line ends are unified already.  The flag tells whether
the text began with a line feed before that, which is what makes a carriage return in front of it
redundant. -/
def unifyStep (c : Char) (after : Bool × List Char) : Bool × List Char :=
  if c = '\r' then (false, if after.1 then after.2 else '\n' :: after.2)
  else (c = '\n', c :: after.2)

/-- Every line end as a single line feed. -/
def unifyNewlines (text : List Char) : List Char :=
  (text.foldr unifyStep (false, [])).2

example : unifyNewlines "a\r\nb\r\rc\n".toList = "a\nb\n\nc\n".toList := by decide

end SourceAtlas.Text
