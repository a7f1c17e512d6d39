import TypeBridge.Text.Hex

/-!
# JSON texts

`Json` holds the values this library writes. `compact` writes them without blanks; `pretty` puts
every item on a line of its own, two spaces deeper than what encloses it. `Reader` functions take a
text apart and return what follows the part they read.
-/

namespace TypeBridge.Text

/-- A value to be written as JSON; the entries of an object keep their order. -/
inductive Json where
  | null
  | bool (value : Bool)
  | number (value : Nat)
  | text (value : String)
  | array (items : List Json)
  | object (entries : List (String × Json))

namespace Json

/-- One character inside a JSON string: quotes, backslashes and control characters are escaped, by
a letter where JSON has one. -/
def escapeChar (c : Char) : List Char :=
  if c = '"' then ['\\', '"']
  else if c = '\\' then ['\\', '\\']
  else if c.toNat = 0x08 then ['\\', 'b']
  else if c.toNat = 0x09 then ['\\', 't']
  else if c.toNat = 0x0A then ['\\', 'n']
  else if c.toNat = 0x0C then ['\\', 'f']
  else if c.toNat = 0x0D then ['\\', 'r']
  else if c.toNat < 0x20 then
    ['\\', 'u'] ++ Hex.digits 4 c.toNat
  else [c]

/-- A string literal. -/
def quote (text : String) : String :=
  String.ofList ('"' :: (text.toList.flatMap escapeChar ++ ['"']))

mutual

/-- The text of a value without blanks. -/
def compact : Json → String
  | .null => "null"
  | .bool value => if value then "true" else "false"
  | .number value => toString value
  | .text value => quote value
  | .array items => "[" ++ String.intercalate "," (compactItems items) ++ "]"
  | .object entries => "\x7b" ++ String.intercalate "," (compactEntries entries) ++ "\x7d"

/-- The texts of the items of an array. -/
def compactItems : List Json → List String
  | [] => []
  | item :: rest => item.compact :: compactItems rest

/-- The texts of the entries of an object. -/
def compactEntries : List (String × Json) → List String
  | [] => []
  | (key, value) :: rest => (quote key ++ ":" ++ value.compact) :: compactEntries rest

end

/-- A line break followed by `depth` levels of indentation. -/
def newline (depth : Nat) : String := String.ofList ('\n' :: List.replicate (2 * depth) ' ')

/-- Some texts between brackets, each on a line of its own; nothing stands between the brackets of
no texts. -/
def block (opening closing : String) (depth : Nat) (parts : List String) : String :=
  if parts.isEmpty then opening ++ closing
  else
    opening ++ newline (depth + 1) ++ String.intercalate ("," ++ newline (depth + 1)) parts ++
      newline depth ++ closing

mutual

/-- The text of a value that stands `depth` levels deep. -/
def prettyAt (depth : Nat) : Json → String
  | .array items => block "[" "]" depth (prettyItems (depth + 1) items)
  | .object entries => block "\x7b" "\x7d" depth (prettyEntries (depth + 1) entries)
  | .null => "null"
  | .bool value => if value then "true" else "false"
  | .number value => toString value
  | .text value => quote value

/-- The texts of the items of an array. -/
def prettyItems (depth : Nat) : List Json → List String
  | [] => []
  | item :: rest => item.prettyAt depth :: prettyItems depth rest

/-- The texts of the entries of an object. -/
def prettyEntries (depth : Nat) : List (String × Json) → List String
  | [] => []
  | (key, value) :: rest => (quote key ++ ": " ++ value.prettyAt depth) :: prettyEntries depth rest

end

/-- The text of a value, one item a line. -/
def pretty (value : Json) : String := value.prettyAt 0

namespace Reader

/-- The four blanks that JSON admits between its tokens. -/
def isGap (c : Char) : Bool := c = ' ' || c = '\n' || c = '\t' || c = '\r'

/-- Skip the blanks in front. -/
def skipGap (text : List Char) : List Char := text.dropWhile isGap

/-- Read one given character, after any blanks. -/
def expect (c : Char) (text : List Char) : Option (List Char) :=
  match skipGap text with
  | [] => none
  | first :: rest => if first = c then some rest else none

/-- Read a given word, after any blanks. -/
def expectWord (word text : List Char) : Option (List Char) :=
  let body := skipGap text
  if word.isPrefixOf body then some (body.drop word.length) else none

/-- The value of four hexadecimal digits. -/
def hexValue4? (a b c d : Char) : Option Nat := do
  let a ← Hex.value? a
  let b ← Hex.value? b
  let c ← Hex.value? c
  let d ← Hex.value? d
  return a * 0x1000 + b * 0x100 + c * 0x10 + d

/-- The character that an escape of one letter stands for. -/
def escaped? : Char → Option Char
  | '"' => some '"'
  | '\\' => some '\\'
  | '/' => some '/'
  | 'b' => some '\x08'
  | 'f' => some '\x0c'
  | 'n' => some '\n'
  | 'r' => some '\r'
  | 't' => some '\t'
  | _ => none

/-- The first half of a surrogate pair. -/
def isHighSurrogate (n : Nat) : Bool := 0xD800 ≤ n && n ≤ 0xDBFF

/-- The second half of a surrogate pair. -/
def isLowSurrogate (n : Nat) : Bool := 0xDC00 ≤ n && n ≤ 0xDFFF

/-- The code point of a surrogate pair. -/
def joinSurrogates (high low : Nat) : Nat := 0x10000 + (high - 0xD800) * 0x400 + (low - 0xDC00)

/-- Read the characters of a string literal up to its closing quote. Control characters, unknown
escapes and surrogates without their partner are refused. -/
def stringBody : List Char → Option (List Char × List Char)
  | [] => none
  | '"' :: rest => some ([], rest)
  | '\\' :: 'u' :: a :: b :: c :: d :: rest =>
    match hexValue4? a b c d with
    | none => none
    | some n =>
      if isHighSurrogate n then
        match rest with
        | '\\' :: 'u' :: e :: f :: g :: h :: more =>
          match hexValue4? e f g h with
          | none => none
          | some low =>
            if isLowSurrogate low then
              (stringBody more).map fun (body, after) =>
                (Char.ofNat (joinSurrogates n low) :: body, after)
            else none
        | _ => none
      else if isLowSurrogate n then none
      else (stringBody rest).map fun (body, after) => (Char.ofNat n :: body, after)
  | '\\' :: letter :: rest =>
    match escaped? letter with
    | none => none
    | some c => (stringBody rest).map fun (body, after) => (c :: body, after)
  | c :: rest =>
    if c.toNat < 0x20 ∨ c = '\\' then none
    else (stringBody rest).map fun (body, after) => (c :: body, after)

/-- Read a string literal, after any blanks. -/
def stringLiteral (text : List Char) : Option (String × List Char) := do
  let (body, rest) ← stringBody (← expect '"' text)
  return (String.ofList body, rest)

/-- Read a word that is one of a fixed choice: a string literal, or an object with the word as its
only key and null as the value. -/
def choiceLiteral (text : List Char) : Option (String × List Char) :=
  match expect '\x7b' text with
  | none => stringLiteral text
  | some text => do
    let (word, text) ← stringLiteral text
    let text ← expect ':' text
    let text ← expectWord "null".toList text
    let text ← expect '\x7d' text
    return (word, text)

/-- The number that some decimal digits write. -/
def digitsValue (digits : List Char) : Nat :=
  digits.foldl (fun value digit => value * 10 + (digit.toNat - 0x30)) 0

/-- Read a number without sign, fraction or exponent, after any blanks. A number of several digits
does not start with zero. -/
def naturalLiteral (text : List Char) : Option (Nat × List Char) :=
  let digits := (skipGap text).takeWhile Char.isDigit
  let rest := (skipGap text).dropWhile Char.isDigit
  match digits with
  | [] => none
  | '0' :: _ :: _ => none
  | _ => some (digitsValue digits, rest)

end Reader

end Json

end TypeBridge.Text
