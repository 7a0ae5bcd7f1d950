import ScriptLinker.Config.Basic
import ScriptLinker.Text.Utf8
import ScriptLinker.Toml.Document
/-!
# Reading a configuration

A section of a document is a table in any form, or an array that gives the
settings in their order. Settings that are missing keep their defaults, and
keys that name no setting are ignored. A setting of the wrong type, a negative
size and a section that is no table make the document malformed.
-/

namespace ScriptLinker

open Toml (Entries Item)

/-- Finds the item of a setting, given its position and its name. -/
abbrev SectionItems := Nat → String → Option Item

namespace SectionItems

/-- The settings of a section. A date has no settings and is no error. -/
def ofItem? : Option Item → Option SectionItems
  | none => some fun _ _ => none
  | some (.table _ entries) => some fun _ name => Entries.find? entries name
  | some (.inlineTable entries) => some fun _ name => Entries.find? entries name
  | some (.array items) => some fun position _ => items[position]?
  | some .dateTime => some fun _ _ => none
  | some _ => none

def flag? (items : SectionItems) (position : Nat) (name : String) (default : Bool) :
    Option Bool :=
  match items position name with
  | none => some default
  | some (.boolean value) => some value
  | some _ => none

def size? (items : SectionItems) (position : Nat) (name : String) (default : Nat) :
    Option Nat :=
  match items position name with
  | none => some default
  | some (.integer value) => if 0 ≤ value then some value.toNat else none
  | some _ => none

end SectionItems

namespace EngineConfig

def ofEntries? (entries : Entries) : Option EngineConfig := do
  let defaults : EngineConfig := {}
  let compile ← SectionItems.ofItem? (entries.find? "compile")
  let noResultValue ← compile.flag? 0 "no_result_value" defaults.compile.noResultValue
  let heap ← SectionItems.ofItem? (entries.find? "heap")
  let gcThreshold ← heap.size? 0 "gc_threshold" defaults.heap.gcThreshold
  let maxBytes ← heap.size? 1 "max_bytes" defaults.heap.maxBytes
  let gcZeal ← heap.flag? 2 "gc_zeal" defaults.heap.gcZeal
  let link ← SectionItems.ofItem? (entries.find? "link")
  let validateStencils ← link.flag? 0 "validate_stencils" defaults.link.validateStencils
  pure
    { compile := { noResultValue }
      heap := { gcThreshold, maxBytes, gcZeal }
      link := { validateStencils } }

/-- Reads a configuration with a reader of documents, and checks it. -/
def readWith (reader : String → Option EngineConfig) (text : String) :
    Except ConfigError EngineConfig :=
  match reader text with
  | none => .error .malformed
  | some config => do
    config.validate
    pure config

def parse? (text : String) : Option EngineConfig :=
  (Toml.Document.read? text).bind ofEntries?

def read (text : String) : Except ConfigError EngineConfig :=
  readWith parse? text

/-- A document is accepted if it can be read and what it says passes the check. -/
theorem readWith_eq_ok_iff {reader : String → Option EngineConfig} {text : String}
    {config : EngineConfig} :
    readWith reader text = .ok config ↔
      reader text = some config ∧ config.validate = .ok () := by
  unfold readWith
  cases hread : reader text with
  | none => simp
  | some found =>
      dsimp only
      cases hvalid : found.validate with
      | error error =>
          constructor
          · rintro ⟨⟩
          · rintro ⟨hfound, hconfig⟩
            rw [Option.some.inj hfound, hconfig] at hvalid
            cases hvalid
      | ok done =>
          constructor
          · rintro ⟨⟩
            exact ⟨rfl, hvalid⟩
          · rintro ⟨hfound, _⟩
            rw [Option.some.inj hfound]
            rfl

/-- What stands at a path. -/
inductive FileState where
  | absent
  | directory
  | file (contents : Bytes)
  deriving DecidableEq, Inhabited

def FileState.text : FileState → Except String String
  | absent => .error "No such file or directory (os error 2)"
  | directory => .error "Is a directory (os error 21)"
  | file contents =>
    match Utf8.decode? contents with
    | some text => .ok text
    | none => .error "stream did not contain valid UTF-8"

/-- Reads and checks the configuration at a path, with a reader of documents. -/
def loadWith (reader : String → Option EngineConfig) (path : String) (found : FileState) :
    Except ConfigError EngineConfig :=
  match found.text with
  | .error reason => .error (.unreadable path reason)
  | .ok text => readWith reader text

def load (path : String) (found : FileState) : Except ConfigError EngineConfig :=
  loadWith parse? path found

/-- A file is accepted if it is there, is text, and its text is accepted. -/
theorem loadWith_eq_ok_iff {reader : String → Option EngineConfig} {path : String}
    {found : FileState} {config : EngineConfig} :
    loadWith reader path found = .ok config ↔
      ∃ text, found.text = .ok text ∧ readWith reader text = .ok config := by
  unfold loadWith
  cases found.text <;> simp

end EngineConfig

end ScriptLinker
