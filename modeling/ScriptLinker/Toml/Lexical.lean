import ScriptLinker.Toml.Parser
/-!
# Blanks, line ends, text and keys

The lexical layer: blanks and comments, the four forms of text, and keys. A
text may hold tabs and every character that is not a control character; what a
form treats specially is excluded from its plain characters.
-/

namespace ScriptLinker.Toml

open ScriptLinker.Toml.Parser

def isBlank (c : Char) : Bool :=
  c = ' ' || c = '\t'

/-- The characters that text and comments may hold as they are. -/
def isPlain (c : Char) : Bool :=
  c = '\t' || (' ' ≤ c && c ≠ '\x7f')

def blanks : Parser Unit := do
  let _ ← takeWhile isBlank

def newline : Parser Unit :=
  char '\n' <|> literal "\r\n"

def comment : Parser Unit := do
  char '#'
  let _ ← takeWhile isPlain

/-- What may follow an entry: blanks, a comment, and the end of the line or of
the document. -/
def lineRest : Parser Unit := do
  blanks
  let _ ← optional comment
  newline <|> atEnd

/-- Blanks, line ends and comments. -/
def filler : Parser Unit := do
  let _ ← many ((do let _ ← takeWhile₁ isBlank) <|> newline <|> comment)

/-- The value of a row of digits in a base. -/
def digitsValue (base : Nat) (digits : List Char) : Nat :=
  digits.foldl (fun value c =>
    let digit :=
      if c.isDigit then c.toNat - '0'.toNat
      else if 'a' ≤ c && c ≤ 'f' then c.toNat - 'a'.toNat + 10
      else c.toNat - 'A'.toNat + 10
    value * base + digit) 0

def isHexDigit (c : Char) : Bool :=
  c.isDigit || ('a' ≤ c && c ≤ 'f') || ('A' ≤ c && c ≤ 'F')

/-- The character whose code point is written in `count` hexadecimal digits.
Surrogates and numbers past the last code point are refused. -/
def codePoint (count : Nat) : Parser Char := do
  let digits ← times count (satisfy isHexDigit)
  let value := digitsValue 16 digits
  require (decide value.isValidChar)
  pure (Char.ofNat value)

def escaped : Parser Char := do
  char '\\'
  match ← satisfy fun _ => true with
  | 'b' => pure '\x08'
  | 't' => pure '\t'
  | 'n' => pure '\n'
  | 'f' => pure '\x0c'
  | 'r' => pure '\r'
  | '"' => pure '"'
  | '\\' => pure '\\'
  | 'u' => codePoint 4
  | 'U' => codePoint 8
  | _ => failure

/-- The characters that stand for themselves between double quotes. -/
def isBasic (c : Char) : Bool :=
  isPlain c && c ≠ '"' && c ≠ '\\'

def isLiteral (c : Char) : Bool :=
  isPlain c && c ≠ '\''

def basicText : Parser String := do
  char '"'
  let body ← many (takeWhile₁ isBasic <|> List.singleton <$> escaped)
  char '"'
  pure (String.ofList body.flatten)

def literalText : Parser String := do
  char '\''
  let body ← takeWhile isLiteral
  char '\''
  pure (String.ofList body)

/-- One or two quotes that belong to a text of several lines, before `next`. -/
def quotesBefore {α : Type} (quote : Char) (next : Parser α) : Parser (List Char) :=
  (do char quote; char quote; lookAhead next; pure [quote, quote]) <|>
    (do char quote; lookAhead next; pure [quote])

def tripleQuote (quote : Char) : Parser Unit := do
  char quote
  char quote
  char quote

/-- A text of several lines between triple quotes. A line end right after the
first three is dropped, and up to two quotes may stand before the last three. -/
def multilineText (quote : Char) (content : Parser (List Char)) : Parser String := do
  tripleQuote quote
  let _ ← optional newline
  let body ← many (content <|> quotesBefore quote content)
  let quotes ← optional (quotesBefore quote (tripleQuote quote))
  tripleQuote quote
  pure (String.ofList (body.flatten ++ quotes.getD []))

def innerNewline : Parser (List Char) := do
  newline
  pure ['\n']

/-- A backslash at the end of a line, with the blanks and line ends after it. -/
def lineContinuation : Parser (List Char) := do
  char '\\'
  blanks
  newline
  let _ ← many ((do let _ ← takeWhile₁ isBlank) <|> newline)
  pure []

def basicContent : Parser (List Char) :=
  takeWhile₁ isBasic <|> lineContinuation <|> List.singleton <$> escaped <|> innerNewline

def literalContent : Parser (List Char) :=
  takeWhile₁ isLiteral <|> innerNewline

def text : Parser String :=
  multilineText '"' basicContent <|> basicText <|>
    multilineText '\'' literalContent <|> literalText

/-- The characters of a key without quotes. -/
def isBareKey (c : Char) : Bool :=
  c.isAlphanum || c = '-' || c = '_'

def simpleKey : Parser String :=
  basicText <|> literalText <|> String.ofList <$> takeWhile₁ isBareKey

/-- How deep keys and values may nest. -/
def maxDepth : Nat := 80

def dottedKey : Parser (List String) := do
  let parts ← separated₁ (do blanks; let part ← simpleKey; blanks; pure part) (char '.')
  require (decide (parts.length < maxDepth))
  pure parts

end ScriptLinker.Toml
