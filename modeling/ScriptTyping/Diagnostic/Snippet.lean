import ScriptTyping.Span
import ScriptTyping.Text.Line

/-!
# Snippets

A snippet quotes the lines of a source that a span touches, with their numbers at the left, and
marks the span. A span within one line is underlined. A span over several lines is bracketed at
the left; of the lines between its ends only the first three and the last are shown, unless a
single line would be left out.

Spans need not fit the source: an offset past the end counts to the last line, and a span may end
on a line before the one on which it begins.
-/

namespace ScriptTyping

open Text

/-- An offset into a source: the line it falls on, and how many bytes into the line it is. -/
structure Position where
  line : Line
  offset : Nat
  deriving DecidableEq, Repr

def Position.ofOffset (lines : Line × List Line) (offset : Nat) : Position :=
  let line := Line.locate offset lines.1 lines.2
  { line, offset := offset - line.start }

/-- The lines of a source with the two ends of a span in it and the text that explains the span. -/
structure Snippet where
  lines : List Line
  opening : Position
  closing : Position
  label : String
  deriving DecidableEq, Repr

namespace Snippet

def ofSpan (source : String) (span : Span) (label : String) : Snippet :=
  let lines := sourceLines source
  { lines := lines.1 :: lines.2
    opening := Position.ofOffset lines span.start
    closing := Position.ofOffset lines span.stop
    label }

/-- Whether both ends fall on the same line. -/
def isSingleLine (snippet : Snippet) : Bool :=
  snippet.opening.line.index == snippet.closing.line.index

/-! ## The left margin -/

/-- The width of the column of line numbers. -/
def numberWidth (snippet : Snippet) : Nat :=
  max (toString snippet.opening.line.number).length (toString snippet.closing.line.number).length

/-- Blanks as wide as the column of line numbers. -/
def noNumber (snippet : Snippet) : String := fill snippet.numberWidth ' '

/-- The number of a line, at the right of its column. -/
def numberOf (snippet : Snippet) (line : Line) : String :=
  let number := toString line.number
  fill (snippet.numberWidth - number.length) ' ' ++ number

/-- The label as it follows a mark. -/
def labelSuffix (snippet : Snippet) : String :=
  if snippet.label.isEmpty then "" else " " ++ snippet.label

/-- Where the span begins, under a name for the source, and the empty row below it. -/
def header (snippet : Snippet) (name : String) : String :=
  let opening := snippet.opening
  snippet.noNumber ++ " ┌─ " ++ name ++ ":" ++ toString opening.line.number ++ ":" ++
    toString (opening.line.characterColumn opening.offset) ++ "\n" ++
    snippet.noNumber ++ " │" ++ (if snippet.isSingleLine then "" else "  ") ++ "\n"

/-! ## A span within one line -/

/-- The mark under a cell, where the span covers the bytes from `first` up to `last`: carets under
a cell of the span, blanks before it, and nothing after it. -/
def caret (first last : Nat) (cell : Cell) : List Char :=
  if max first cell.offset < min last (cell.offset + cell.size) then
    List.replicate cell.width '^'
  else if cell.offset < last then
    List.replicate cell.width ' '
  else
    []

/-- The cell after the last one of a line, for spans that reach beyond the line. -/
def endCell (line : Line) : Cell :=
  { char := ' ', offset := byteSize line.body, size := 1, width := 1 }

/-- The row of marks below the line. An empty span is marked like one of a single byte. -/
def carets (snippet : Snippet) : String :=
  let line := snippet.opening.line
  let first := snippet.opening.offset
  let last := max snippet.closing.offset (first + 1)
  String.ofList ((line.cells ++ [endCell line]).flatMap (caret first last))

def singleLineRows (snippet : Snippet) : String :=
  snippet.numberOf snippet.opening.line ++ " │ " ++ snippet.opening.line.shown ++ "\n" ++
    snippet.noNumber ++ " │ " ++ snippet.carets ++ snippet.labelSuffix ++ "\n"

/-! ## A span over several lines -/

/-- Whether a line stands strictly between the two ends. -/
def isInside (snippet : Snippet) (index : Nat) : Bool :=
  snippet.opening.line.index < index && index < snippet.closing.line.index

/-- Whether a line is shown on its own account: it holds an end of the span, or it is one of the
first three or the last between them. -/
def isKey (snippet : Snippet) (index : Nat) : Bool :=
  index == snippet.opening.line.index || index == snippet.closing.line.index ||
    snippet.isInside index &&
      (index - snippet.opening.line.index ≤ 3 || snippet.closing.line.index - index ≤ 1)

/-- Whether the span begins behind the indentation of its first line, so that its bracket opens on
a row of its own. -/
def opensInText (snippet : Snippet) : Bool :=
  snippet.opening.line.indentation < snippet.opening.offset

/-- The bracket left of a line. -/
def bracket (snippet : Snippet) (index : Nat) : String :=
  if index == snippet.opening.line.index then
    if snippet.opensInText then "  " else " ╭"
  else if index == snippet.closing.line.index || snippet.isInside index then
    " │"
  else
    "  "

/-- The row that opens the bracket, up to the cell in which the span begins. -/
def openingRow (snippet : Snippet) : String :=
  let opening := snippet.opening
  snippet.noNumber ++ " │ ╭" ++ fill (opening.line.columns (·.offset ≤ opening.offset)) '─' ++ "^\n"

/-- The row that closes the bracket, up to the cell before which the span ends. -/
def closingRow (snippet : Snippet) : String :=
  let closing := snippet.closing
  snippet.noNumber ++ " │ ╰" ++
    fill (closing.line.columns (·.offset < closing.offset)) '─' ++ "^" ++
    snippet.labelSuffix ++ "\n"

/-- The row that stands for the lines left out. -/
def breakRow (snippet : Snippet) : String :=
  snippet.noNumber ++ " · │\n"

/-- A line with its number and its bracket, and the rows that open or close the bracket. -/
def lineRows (snippet : Snippet) (line : Line) : String :=
  snippet.numberOf line ++ " │" ++ snippet.bracket line.index ++ " " ++ line.shown ++ "\n" ++
    (if line.index == snippet.opening.line.index && snippet.opensInText then snippet.openingRow
      else "") ++
    (if line.index == snippet.closing.line.index then snippet.closingRow else "")

/-- What is shown for a line between the first and the last: the line itself, if it is a key line
or the only one left out between two of them, or else a break in place of the first one left out. -/
def rowsAt (snippet : Snippet) (line : Line) : String :=
  let index := line.index
  if snippet.isKey index || snippet.isKey (index - 1) && snippet.isKey (index + 1) then
    snippet.lineRows line
  else if snippet.isKey (index - 1) then
    snippet.breakRow
  else
    ""

def multiLineRows (snippet : Snippet) : String :=
  let first := min snippet.opening.line.index snippet.closing.line.index
  let last := max snippet.opening.line.index snippet.closing.line.index
  let lines := snippet.lines.filter fun line => first ≤ line.index && line.index ≤ last
  String.join (lines.map snippet.rowsAt)

/-- The whole snippet, under a name for the source. -/
def text (snippet : Snippet) (name : String) : String :=
  snippet.header name ++
    (if snippet.isSingleLine then snippet.singleLineRows else snippet.multiLineRows) ++ "\n"

end Snippet

end ScriptTyping
