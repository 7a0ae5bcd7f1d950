import ScriptLinker.Toml.DateTime
import ScriptLinker.Toml.Number
import ScriptLinker.Toml.Table
/-!
# Documents

A document is a sequence of headers, entries and comments. `value depth` reads a
value in which arrays and inline tables nest at most `depth` deep.
-/

namespace ScriptLinker.Toml

open ScriptLinker.Toml.Parser

/-- A value that is no array and no inline table. -/
def scalar : Parser Item :=
  (Item.text <$> text) <|>
    (do literal "true"; pure (.boolean true)) <|>
    (do literal "false"; pure (.boolean false)) <|>
    (do dateTime; pure .dateTime) <|>
    (do float; pure .float) <|>
    (Item.integer <$> integer)

/-- An array of values; a comma may follow the last one. -/
def arrayOf (item : Parser Item) : Parser Item := do
  char '['
  let items ← separated (do filler; let read ← item; filler; pure read) (char ',')
  if items.isEmpty then
    pure ()
  else do
    let _ ← optional (char ',')
  filler
  char ']'
  pure (.array items)

/-- The path and the last part of a key. -/
def splitKey : List String → List String × String
  | [] => ([], "")
  | [key] => ([], key)
  | part :: rest => (part :: (splitKey rest).1, (splitKey rest).2)

def entryOf (item : Parser Item) : Parser (List String × Item) := do
  let key ← dottedKey
  char '='
  blanks
  let read ← item
  pure (key, read)

/-- Adds an entry to a table made of entries alone. -/
def addEntry? (entries : Entries) (entry : List String × Item) : Option Entries :=
  let (path, key) := splitKey entry.1
  Entries.addDotted? path key entry.2 false entries

def inlineTableOf (item : Parser Item) : Parser Item := do
  char '\x7b'
  let read ← separated (do let entry ← entryOf item; blanks; pure entry) (char ',')
  blanks
  let entries ← (read.foldlM addEntry? [] : Option Entries)
  char '\x7d'
  pure (.inlineTable entries)

/-- A value in which arrays and inline tables nest at most `depth` deep. -/
def value : Nat → Parser Item
  | 0 => scalar
  | depth + 1 => arrayOf (value depth) <|> inlineTableOf (value depth) <|> scalar

inductive Line where
  | blank
  | header (key : List String)
  | rowHeader (key : List String)
  | entry (key : List String) (item : Item)

def commentLine : Parser Line := do
  comment
  newline <|> atEnd
  pure .blank

/-- The header of a table, or of one table of a row. -/
def headerLine : Parser Line := do
  char '['
  match ← optional (char '[') with
  | some _ =>
    let key ← dottedKey
    literal "]]"
    lineRest
    pure (.rowHeader key)
  | none =>
    let key ← dottedKey
    char ']'
    lineRest
    pure (.header key)

def entryLine : Parser Line := do
  let (key, item) ← entryOf (value (maxDepth - 1))
  lineRest
  pure (.entry key item)

def line : Parser Line :=
  commentLine <|> headerLine <|> (do newline; pure .blank) <|> entryLine

/-- All lines up to the end of the document. A byte order mark may stand in
front. -/
def lines : Parser (List Line) := do
  let _ ← optional (char '\uFEFF')
  blanks
  let read ← many (do let read ← line; blanks; pure read)
  atEnd
  pure read

/-- The tree of a document so far, and the table that entries are added to. -/
structure Document where
  root : Entries := []
  place : List String := []

namespace Document

def addLine? (document : Document) : Line → Option Document
  | .blank => some document
  | .header key => do
    let (path, name) := splitKey key
    let root ← document.root.openTable? path name
    pure { root, place := key }
  | .rowHeader key => do
    let (path, name) := splitKey key
    let root ← document.root.openRow? path name
    pure { root, place := key }
  | .entry key item => do
    let (path, name) := splitKey key
    let root ← document.root.addAt? document.place path name item
    pure { document with root }

/-- The entries of a document, if it is well formed. -/
def read? (text : String) : Option Entries := do
  let (read, _) ← lines text.toList
  let document ← read.foldlM addLine? {}
  pure document.root

end Document

end ScriptLinker.Toml
