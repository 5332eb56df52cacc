import ScriptTyping.Text.Blank
import ScriptTyping.Text.Width

/-!
# Lines of a source

A source is cut into lines at its newlines, and each line knows its place. Offsets are in bytes of
the UTF-8 form, columns in display cells.
-/

namespace ScriptTyping.Text

/-- A repeated character as a string. -/
def fill (n : Nat) (c : Char) : String := String.ofList (List.replicate n c)

/-- The bytes of the UTF-8 form of some characters. -/
def byteSize : List Char → Nat
  | [] => 0
  | c :: chars => c.utf8Size + byteSize chars

/-! ## Cutting a source into lines -/

/-- The characters before the first newline, and the lines after it. -/
def splitLines : List Char → List Char × List (List Char)
  | [] => ([], [])
  | c :: chars =>
    let (first, rest) := splitLines chars
    if c = '\n' then ([], first :: rest) else (c :: first, rest)

/-- A line of a source without its newline. Lines are counted from zero. -/
structure Line where
  index : Nat
  /-- The byte offset at which the line begins. -/
  start : Nat
  chars : List Char
  deriving DecidableEq, Repr

namespace Line

/-- The number under which the line is shown. -/
def number (line : Line) : Nat := line.index + 1

/-- Gives the lines their places, when `index` lines and `start` bytes stand before them. -/
def place (index start : Nat) : List (List Char) → List Line
  | [] => []
  | chars :: rest =>
    { index, start, chars } :: place (index + 1) (start + byteSize chars + 1) rest

/-- The line that holds the given offset: the last one that begins at or before it, where `line`
is known to do so. -/
def locate (offset : Nat) (line : Line) : List Line → Line
  | [] => line
  | next :: rest => if next.start ≤ offset then locate offset next rest else line

end Line

/-- The first line of a source, and the lines after it. -/
def sourceLines (source : String) : Line × List Line :=
  let (first, rest) := splitLines source.toList
  ({ index := 0, start := 0, chars := first }, Line.place 1 (byteSize first + 1) rest)

/-! ## Showing a line -/

/-- A character of a line with its place in bytes and its size in bytes and in columns. -/
structure Cell where
  char : Char
  offset : Nat
  size : Nat
  width : Nat
  deriving DecidableEq, Repr

namespace Cell

/-- The cells of some characters, when `offset` bytes and `column` columns stand before them. -/
def ofChars (offset column : Nat) : List Char → List Cell
  | [] => []
  | c :: chars =>
    { char := c, offset, size := c.utf8Size, width := Text.width column c } ::
      ofChars (offset + c.utf8Size) (column + Text.width column c) chars

/-- The columns that some cells take together. -/
def columns : List Cell → Nat
  | [] => 0
  | cell :: cells => cell.width + columns cells

/-- The characters shown for a cell: a tab becomes blanks. -/
def shown (cell : Cell) : List Char :=
  if cell.char = '\t' then List.replicate cell.width ' ' else [cell.char]

end Cell

namespace Line

/-- Whether a character is dropped at the end of a line that is shown. -/
def isLineEnd (c : Char) : Bool := c == '\n' || c == '\r' || c == '\x00'

/-- The characters of the line that are shown. -/
def body (line : Line) : List Char :=
  (line.chars.reverse.dropWhile isLineEnd).reverse

def cells (line : Line) : List Cell := Cell.ofChars 0 0 line.body

def shown (line : Line) : String := String.ofList (line.cells.flatMap Cell.shown)

/-- The bytes of the blanks with which the shown part of the line begins. -/
def indentation (line : Line) : Nat := byteSize (line.body.takeWhile blank.contains)

/-- The columns of the shown cells that satisfy a test. -/
def columns (line : Line) (test : Cell → Bool) : Nat :=
  Cell.columns (line.cells.filter test)

/-- One more than the number of characters of the line that end at or before `offset` bytes from
its beginning. -/
def characterColumn (line : Line) (offset : Nat) : Nat :=
  1 + (Cell.ofChars 0 0 line.chars).countP fun cell => cell.offset + cell.size ≤ offset

end Line

end ScriptTyping.Text
