import ScriptLinker.Text.Invisible
/-!
# Quoted text

`quote` writes a text between double quotes, with the quote, the backslash, the
line breaks, the tab and the null character escaped by a letter, and every other
character that prints nothing by its number.
-/

namespace ScriptLinker.Text

/-- The lower-case hexadecimal digits of a number. -/
def hex (value : Nat) : String :=
  String.ofList (Nat.toDigits 16 value)

def escape (c : Char) : String :=
  match c with
  | '"' => "\\\""
  | '\\' => "\\\\"
  | '\n' => "\\n"
  | '\t' => "\\t"
  | '\r' => "\\r"
  | '\x00' => "\\0"
  | c => if isInvisible c then "\\u\x7b" ++ hex c.toNat ++ "\x7d" else c.toString

def quote (text : String) : String :=
  "\"" ++ String.join (text.toList.map escape) ++ "\""

end ScriptLinker.Text
