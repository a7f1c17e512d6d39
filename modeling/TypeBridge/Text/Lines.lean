import TypeBridge.Text.Blank

/-!
# Lines and margins

`lines` splits a text at line feeds. `dedent` removes the margin that the non-blank lines share and
the blank lines around them; `indent` puts a margin of spaces before every line that is not empty.
-/

namespace TypeBridge.Text

/-- A line that a line feed ends loses one carriage return at its end. -/
def dropReturn (line : List Char) : List Char :=
  if line.getLast? = some '\r' then line.dropLast else line

/-- The lines of a text: a line feed ends a line, together with a carriage return before it, and
nothing after the last line feed is no line. -/
def lines (text : List Char) : List (List Char) :=
  let cut := pieces (fun c => c = '\n') text
  let last := cut.getLast?.getD []
  cut.dropLast.map dropReturn ++ (if last.isEmpty then [] else [last])

/-- The number of bytes that a list of characters takes in UTF-8. -/
def byteSize : List Char → Nat
  | [] => 0
  | c :: rest => c.utf8Size + byteSize rest

/-- Drop characters that take exactly `count` bytes in UTF-8, if the text has such a boundary. -/
def dropBytes? : Nat → List Char → Option (List Char)
  | 0, text => some text
  | _ + 1, [] => none
  | count + 1, c :: rest =>
    if c.utf8Size ≤ count + 1 then dropBytes? (count + 1 - c.utf8Size) rest else none

/-- The blanks at the front of a line, in bytes. -/
def marginOf (line : List Char) : Nat := byteSize (line.takeWhile isBlank)

/-- The least margin of the lines that are not blank; none if all are. -/
def commonMargin (ls : List (List Char)) : Nat :=
  (((ls.filter (fun line => !allBlank line)).map marginOf).min?).getD 0

/-- Remove a margin and the blanks at the end of one line. A margin that ends inside a character
takes all blanks at the front with it. -/
def stripMargin (margin : Nat) (line : List Char) : List Char :=
  if allBlank line then [] else trimEnd ((dropBytes? margin line).getD (trimStart line))

/-- The lines from the first to the last one that is not blank. -/
def bodyLines (ls : List (List Char)) : List (List Char) :=
  ((ls.dropWhile allBlank).reverse.dropWhile allBlank).reverse

/-- Remove the blank lines around a text, the margin its other lines share, and the blanks at the
end of every line. -/
def dedent (text : String) : String :=
  let body := bodyLines (lines text.toList)
  String.ofList (List.intercalate ['\n'] (body.map (stripMargin (commonMargin body))))

/-- Put `width` spaces before one line, unless it is empty. -/
def padLine (width : Nat) (line : List Char) : List Char :=
  if line.isEmpty then [] else List.replicate width ' ' ++ line

/-- Put `width` spaces before every line that is not empty; the last line ends without a line
feed. -/
def indent (text : String) (width : Nat) : String :=
  String.ofList (List.intercalate ['\n'] ((lines text.toList).map (padLine width)))

/-- `lines` on strings. -/
def lineList (text : String) : List String := (lines text.toList).map String.ofList

end TypeBridge.Text
