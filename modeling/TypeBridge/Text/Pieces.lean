/-!
# Cutting a text at separators

`pieces p text` cuts a text at every character that satisfies `p`. There is one piece more than
there are separators, and the pieces hold all the other characters.
-/

namespace TypeBridge.Text

/-- The parts of a text between the characters that satisfy `p`; never an empty list. -/
def pieces (p : Char → Bool) : List Char → List (List Char)
  | [] => [[]]
  | c :: rest =>
    if p c then [] :: pieces p rest
    else
      match pieces p rest with
      | [] => [[c]]
      | piece :: others => (c :: piece) :: others

/-- There is always a first piece. -/
theorem pieces_ne_nil (p : Char → Bool) (text : List Char) : pieces p text ≠ [] := by
  cases text with
  | nil => simp [pieces]
  | cons c rest =>
    simp only [pieces]
    split
    · simp
    · split <;> simp

/-- The pieces hold exactly the characters that are no separators. -/
theorem flatten_pieces (p : Char → Bool) (text : List Char) :
    (pieces p text).flatten = text.filter (fun c => !p c) := by
  induction text with
  | nil => simp [pieces]
  | cons c rest ih =>
    by_cases separator : p c
    · simp [pieces, separator, ih]
    · simp only [pieces, separator]
      cases cut : pieces p rest with
      | nil => exact absurd cut (pieces_ne_nil p rest)
      | cons piece others => simp [separator, ← ih, cut]

/-- There is one piece more than there are separators. -/
theorem length_pieces (p : Char → Bool) (text : List Char) :
    (pieces p text).length = text.countP p + 1 := by
  induction text with
  | nil => simp [pieces]
  | cons c rest ih =>
    by_cases separator : p c
    · simp [pieces, separator, ih]
    · simp only [pieces, separator]
      cases cut : pieces p rest with
      | nil => exact absurd cut (pieces_ne_nil p rest)
      | cons piece others => simp [separator, ← ih, cut]

end TypeBridge.Text
