import ScriptLinker.Flags
import ScriptLinker.Heap.Id
import ScriptLinker.Text.Utf8
/-!
# Cells and what they are charged

The heap holds interned texts, scopes and scripts. A script is built in parts:
slots for the things its bytecode refers to, a table of atoms, and an image of
code, notes and scalars. An image holds no references, so a script that is
sealed shares its image with every script of equal image. A shared image keeps
the serial number it got when it entered the heap, which tells two objects
apart even when their contents agree.

`references` lists the outgoing references of a cell in the order in which a
collection follows them. The charges are in bytes.
-/

namespace ScriptLinker

inductive ScopeKind where
  /-- The global scope, without bindings of its own. -/
  | global
  /-- The scope of a block or of a function body. -/
  | lexical
  deriving DecidableEq, Inhabited

/-- A scope; `enclosing` chains scopes outwards. -/
structure Scope where
  kind : ScopeKind
  enclosing : Option ScopeId
  bindingCount : Nat := 0
  deriving DecidableEq, Inhabited

def Scope.isEmptyGlobal (scope : Scope) : Bool :=
  scope.kind = .global && scope.bindingCount = 0

/-- Where the text of a script lies in its source, and the position of its
first character. -/
structure SourceExtent where
  sourceStart : UInt32 := 0
  sourceEnd : UInt32 := 0
  toStringStart : UInt32 := 0
  toStringEnd : UInt32 := 0
  lineno : UInt32 := 0
  column : UInt32 := 0
  deriving DecidableEq, Inhabited

/-- The extent of a whole source of `length` bytes. -/
def SourceExtent.ofSource (length lineno column : UInt32) : SourceExtent where
  sourceEnd := length
  toStringEnd := length
  lineno := lineno
  column := column

/-- Code, notes and the scalars derived from them. -/
structure ScriptImage where
  code : Bytes
  notes : Bytes
  mainOffset : UInt32 := 0
  nfixed : UInt32 := 0
  nslots : UInt32 := 0
  bodyScopeIndex : UInt32 := 0
  icEntryCount : UInt32 := 0
  typeSetCount : UInt32 := 0
  deriving DecidableEq, Inhabited

namespace ScriptImage

/-- The image of the given lengths with zeros throughout. -/
def blank (codeLength noteLength : Nat) : ScriptImage where
  code := List.replicate codeLength 0
  notes := List.replicate noteLength 0

def totalLength (image : ScriptImage) : Nat :=
  image.code.length + image.notes.length

@[simp] theorem totalLength_blank (codeLength noteLength : Nat) :
    (blank codeLength noteLength).totalLength = codeLength + noteLength := by
  simp [blank, totalLength]

end ScriptImage

/-- An image in the sharing table, with the number it entered under. -/
structure SharedImage where
  serial : Nat
  image : ScriptImage
  deriving DecidableEq, Inhabited

/-- How far a script has come with its image. -/
inductive ImageState where
  | absent
  | owned (image : ScriptImage)
  | shared (object : SharedImage)
  deriving DecidableEq, Inhabited

/-- An executable script under construction, or sealed. -/
structure Script where
  extent : SourceExtent
  flags : ScriptFlags := {}
  things : Option (List (Option CellRef)) := none
  atoms : Option (List (Option AtomId)) := none
  image : ImageState := .absent
  deriving DecidableEq, Inhabited

namespace Script

/-- The slots for things; none before they are created. -/
def thingSlots (script : Script) : List (Option CellRef) :=
  script.things.getD []

def atomSlots (script : Script) : List (Option AtomId) :=
  script.atoms.getD []

def image? (script : Script) : Option ScriptImage :=
  match script.image with
  | .absent => none
  | .owned image => some image
  | .shared object => some object.image

/-- The object a sealed script shares. -/
def shared? (script : Script) : Option SharedImage :=
  match script.image with
  | .shared object => some object
  | _ => none

def isSealed (script : Script) : Bool :=
  script.shared?.isSome

end Script

inductive Cell where
  | atom (text : String)
  | scope (content : Scope)
  | script (content : Script)
  deriving DecidableEq, Inhabited

namespace Cell

def kind : Cell → CellKind
  | .atom _ => .atom
  | .scope _ => .scope
  | .script _ => .script

/-- The references a cell holds, in the order a collection follows them. -/
def references : Cell → List CellRef
  | .atom _ => []
  | .scope content => (content.enclosing.map CellRef.scope).toList
  | .script content =>
    content.thingSlots.filterMap id ++
      content.atomSlots.filterMap fun entry => entry.map CellRef.atom

def shared? : Cell → Option SharedImage
  | .script content => content.shared?
  | _ => none

end Cell

namespace Charge

def atom (text : String) : Nat := 16 + text.utf8ByteSize

def scope : Nat := 20

/-- The charge of a script without any part. -/
def script : Nat := 88

def things (count : Nat) : Nat := 16 + 12 * count

def atoms (count : Nat) : Nat := 12 * count

/-- The charge of an image with that many bytes of code and notes. -/
def image (length : Nat) : Nat := 48 + length

/-- The charge of a sealed script's hold on a shared image. -/
def hold : Nat := 8

end Charge

end ScriptLinker
