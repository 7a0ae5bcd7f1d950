import ScriptLinker.Keyed
import ScriptLinker.Session.Operation
/-!
# Registers

A client program keeps the references it was issued under names. A register is
read as the sort of reference an operation asks for.
-/

namespace ScriptLinker

inductive Binding where
  | cell (ref : CellRef)
  | root (issued : RootId)
  deriving DecidableEq, Inhabited

inductive RegisterError where
  | unknown
  | wrongSort
  deriving DecidableEq, Inhabited

/-- The named references of a client, the latest binding of a name first. -/
structure Registers where
  bindings : List (String × Binding) := []
  deriving DecidableEq, Inhabited

/-- An operation on registers: every reference is a name. -/
abbrev Named : RefSort → Type := fun _ => String

namespace Registers

/-- Binds a name, in place of what it was bound to. -/
def bind (name : String) (binding : Binding) (registers : Registers) : Registers where
  bindings := Keyed.put name binding registers.bindings

def find? (registers : Registers) (name : String) : Option Binding :=
  registers.bindings.lookup name

def issued? : (sort : RefSort) → Binding → Option (Issued sort)
  | .atom, .cell (.atom ref) => some ref
  | .scope, .cell (.scope ref) => some ref
  | .script, .cell (.script ref) => some ref
  | .cell, .cell ref => some ref
  | .root, .root ref => some ref
  | _, _ => none

def find (registers : Registers) (sort : RefSort) (name : String) :
    Except RegisterError (Issued sort) :=
  match registers.find? name with
  | none => .error .unknown
  | some binding =>
    match issued? sort binding with
    | none => .error .wrongSort
    | some ref => .ok ref

/-- Keeps the reference in a reply under a name, if there are both. -/
def keep (name : Option String) (reply : Reply) (registers : Registers) : Registers :=
  match name, reply with
  | some name, .cell ref => registers.bind name (.cell ref)
  | some name, .root issued => registers.bind name (.root issued)
  | _, _ => registers

@[simp] theorem find?_bind_self (name : String) (binding : Binding) (registers : Registers) :
    (registers.bind name binding).find? name = some binding :=
  Keyed.lookup_put_self name binding registers.bindings

theorem find?_bind_of_ne {name other : String} (h : other ≠ name) (binding : Binding)
    (registers : Registers) :
    (registers.bind name binding).find? other = registers.find? other :=
  Keyed.lookup_put_of_ne h binding registers.bindings

end Registers

end ScriptLinker
