import TypeBridge.Text.Pieces

/-!
# Blank characters

`isBlank` is the Unicode property `White_Space`. `trim`, `words` and `collapse` treat a text as
blanks around and between its words; they act on `List Char`, and the `String` versions convert at
the ends.
-/

namespace TypeBridge.Text

/-- The code points with the Unicode property `White_Space`. -/
def blankCodePoints : List Nat :=
  [0x09, 0x0A, 0x0B, 0x0C, 0x0D, 0x20, 0x85, 0xA0, 0x1680,
   0x2000, 0x2001, 0x2002, 0x2003, 0x2004, 0x2005, 0x2006, 0x2007, 0x2008, 0x2009, 0x200A,
   0x2028, 0x2029, 0x202F, 0x205F, 0x3000]

/-- A character is blank when its code point has the property `White_Space`. -/
def isBlank (c : Char) : Bool := blankCodePoints.contains c.toNat

/-- A text is blank when all its characters are. -/
def allBlank (text : List Char) : Bool := text.all isBlank

/-- Remove the blanks at the front. -/
def trimStart (text : List Char) : List Char := text.dropWhile isBlank

/-- Remove the longest tail of elements that satisfy `p`. -/
def dropTail {α : Type} (p : α → Bool) (text : List α) : List α :=
  (text.reverse.dropWhile p).reverse

/-- The longest tail of elements that satisfy `p`. -/
def takeTail {α : Type} (p : α → Bool) (text : List α) : List α :=
  (text.reverse.takeWhile p).reverse

/-- A text is what remains without its tail, followed by that tail. -/
theorem dropTail_append_takeTail {α : Type} (p : α → Bool) (text : List α) :
    dropTail p text ++ takeTail p text = text := by
  rw [dropTail, takeTail, ← List.reverse_append, List.takeWhile_append_dropWhile,
    List.reverse_reverse]

/-- Remove the blanks at the end. -/
def trimEnd (text : List Char) : List Char := dropTail isBlank text

/-- Remove the blanks at both ends. -/
def trim (text : List Char) : List Char := trimEnd (trimStart text)

/-- The maximal runs of characters that are not blank, in order. -/
def words (text : List Char) : List (List Char) :=
  (pieces isBlank text).filter (fun piece => !piece.isEmpty)

/-- The words joined by single spaces. -/
def collapse (text : List Char) : List Char := List.intercalate [' '] (words text)

/-- `trim` on strings. -/
def trimmed (text : String) : String := String.ofList (trim text.toList)

/-- `trimEnd` on strings. -/
def trimmedEnd (text : String) : String := String.ofList (trimEnd text.toList)

/-- `words` on strings. -/
def wordList (text : String) : List String := (words text.toList).map String.ofList

/-- A string without any character that is not blank. -/
def isBlankString (text : String) : Bool := allBlank text.toList

end TypeBridge.Text
