import ScriptLinker.Toml.Lexical
/-!
# Numbers

Integers have to fit 64 bits with sign. Of a float only its being one matters
here, and that it does not overflow upwards: a number is refused if it rounds to
positive infinity in double precision.
-/

namespace ScriptLinker.Toml

open ScriptLinker.Toml.Parser

/-- A row of digits, with single underscores allowed between two of them. -/
def digitRow (isDigit : Char → Bool) : Parser (List Char) := do
  let first ← satisfy isDigit
  let rest ← many (satisfy isDigit <|> (do char '_'; satisfy isDigit))
  pure (first :: rest)

/-- A sign, if there is one; whether it is a minus. -/
def minusSign : Parser Bool := do
  let sign ← optional (satisfy fun c => c = '+' || c = '-')
  pure (sign = some '-')

/-- The digits of a decimal number, which starts with a zero only if it has no
other digit. -/
def decimalDigits : Parser (List Char) :=
  (do lookAhead (satisfy fun c => '1' ≤ c && c ≤ '9'); digitRow Char.isDigit) <|>
    List.singleton <$> satisfy Char.isDigit

/-- A number in a base other than ten, after its mark. -/
def basedInteger (mark : String) (base : Nat) (isDigit : Char → Bool) : Parser Int := do
  literal mark
  let digits ← digitRow isDigit
  pure (digitsValue base digits)

def decimalInteger : Parser Int := do
  let negative ← minusSign
  let digits ← decimalDigits
  let value : Int := digitsValue 10 digits
  pure (if negative then -value else value)

/-- An integer of 64 bits with sign. -/
def integer : Parser Int := do
  let value ←
    basedInteger "0x" 16 isHexDigit <|>
      basedInteger "0o" 8 (fun c => '0' ≤ c && c ≤ '7') <|>
      basedInteger "0b" 2 (fun c => c = '0' || c = '1') <|>
      decimalInteger
  require (decide (-9223372036854775808 ≤ value && value ≤ 9223372036854775807))
  pure value

/-- The least number that rounds to infinity in double precision: half a step
past the largest finite one. -/
def floatBound : Nat := 1 <<< 1024 - 1 <<< 970

/-- Whether `mantissa * 10 ^ exponent` rounds to infinity. Where the number of
digits decides, the power is not computed. -/
def overflowsFloat (mantissa : Nat) (exponent : Int) : Bool :=
  let magnitude : Int := (Nat.toDigits 10 mantissa).length + exponent
  if mantissa = 0 || magnitude < 300 then false
  else if magnitude > 320 then true
  else if exponent < 0 then floatBound * Nat.pow 10 exponent.natAbs ≤ mantissa
  else floatBound ≤ mantissa * Nat.pow 10 exponent.natAbs

def fraction : Parser (List Char) := do
  char '.'
  digitRow Char.isDigit

def exponent : Parser Int := do
  let _ ← satisfy fun c => c = 'e' || c = 'E'
  let negative ← minusSign
  let digits ← digitRow Char.isDigit
  let value : Int := digitsValue 10 digits
  pure (if negative then -value else value)

/-- A float written with a fractional part, an exponent or both. -/
def finiteFloat : Parser Unit := do
  let negative ← minusSign
  let whole ← decimalDigits
  let (places, power) ←
    (do let power ← exponent; pure ([], power)) <|>
      (do let places ← fraction; let power ← optional exponent; pure (places, power.getD 0))
  let mantissa := digitsValue 10 (whole ++ places)
  require (negative || !overflowsFloat mantissa (power - places.length))

def float : Parser Unit :=
  finiteFloat <|> (do let _ ← minusSign; literal "inf" <|> literal "nan")

end ScriptLinker.Toml
