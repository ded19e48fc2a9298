/-!
# Lines and fields

A text model is split at single characters: into lines at newlines, into fields at spaces.

## Main definitions

* `Text.splitOn`: the parts of a text between the occurrences of a character
* `Text.splitLines`: the lines of a text, where a final newline ends the last one
* `Text.splitFields`: the fields of a line
* `Text.unifyNewlines`: a text with every line ending replaced by a newline
-/

namespace WordVectors.Text

/-- The parts of a text between the occurrences of `sep`; there is always one more part than
there are occurrences. -/
def splitOn (sep : Char) : List Char → List (List Char)
  | [] => [[]]
  | c :: cs =>
    if c = sep then [] :: splitOn sep cs
    else match splitOn sep cs with
      | [] => [[c]]
      | part :: parts => (c :: part) :: parts

/-- The lines of a text. The empty line after a final newline is not one. -/
def splitLines (cs : List Char) : List (List Char) :=
  let lines := splitOn '\n' cs
  if lines.getLast? = some [] then lines.dropLast else lines

/-- A line without the carriage returns at its end. -/
def dropReturns (cs : List Char) : List Char :=
  (cs.reverse.dropWhile (· == '\r')).reverse

/-- The fields of a line, separated by one or more spaces. -/
def splitFields (cs : List Char) : List (List Char) :=
  (splitOn ' ' (dropReturns cs)).filter (!·.isEmpty)

/-- A text in which a carriage return, or one with the newline after it, is replaced by a
newline. -/
def unifyNewlines : List Char → List Char
  | [] => []
  | '\r' :: '\n' :: cs => '\n' :: unifyNewlines cs
  | '\r' :: cs => '\n' :: unifyNewlines cs
  | c :: cs => c :: unifyNewlines cs

end WordVectors.Text
