/-!
# Parsers

A parser reads a front part of the characters and leaves the rest, or fails. An
alternative is tried only if the one before it fails, on the same characters.
Repetition is bounded by the number of characters there are.
-/

namespace ScriptLinker.Toml

/-- Reads a front part of the characters. -/
abbrev Parser := StateT (List Char) Option

namespace Parser

variable {α : Type}

def satisfy (p : Char → Bool) : Parser Char := fun input =>
  match input with
  | c :: rest => if p c then some (c, rest) else none
  | [] => none

def char (c : Char) : Parser Unit := do
  let _ ← satisfy (· = c)

def literal (text : String) : Parser Unit := fun input =>
  if text.toList.isPrefixOf input then some ((), input.drop text.length) else none

def atEnd : Parser Unit := fun input =>
  if input.isEmpty then some ((), []) else none

def takeWhile (p : Char → Bool) : Parser (List Char) := fun input =>
  some (input.span p)

def takeWhile₁ (p : Char → Bool) : Parser (List Char) := do
  let first ← satisfy p
  let rest ← takeWhile p
  pure (first :: rest)

/-- Succeeds without reading anything if `parser` would succeed. -/
def lookAhead (parser : Parser α) : Parser Unit := fun input =>
  (parser input).map fun _ => ((), input)

/-- As many rounds of `parser` as succeed, at most `bound`. -/
def manyUpTo (parser : Parser α) : Nat → Parser (List α)
  | 0 => pure []
  | bound + 1 => do
    match ← optional parser with
    | none => pure []
    | some first => do
      let rest ← manyUpTo parser bound
      pure (first :: rest)

def many (parser : Parser α) : Parser (List α) := fun input =>
  manyUpTo parser input.length input

def times (count : Nat) (parser : Parser α) : Parser (List α) :=
  match count with
  | 0 => pure []
  | count + 1 => do
    let first ← parser
    let rest ← times count parser
    pure (first :: rest)

/-- At least one round of `parser`, with `separator` in between. -/
def separated₁ (parser : Parser α) (separator : Parser Unit) : Parser (List α) := do
  let first ← parser
  let rest ← many (do separator; parser)
  pure (first :: rest)

def separated (parser : Parser α) (separator : Parser Unit) : Parser (List α) :=
  separated₁ parser separator <|> pure []

/-- Goes on only if the value passes a test. -/
def require (p : Bool) : Parser Unit :=
  if p then pure () else failure

end Parser

end ScriptLinker.Toml
