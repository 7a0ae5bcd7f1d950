import ScriptLinker.Flags
import ScriptLinker.Text.Utf8
/-!
# Stencils

A stencil is the result of a compilation as a front end hands it over: flat
buffers and scalars, under the revision of the layout it was filled in for. A
buffer may be absent, which is not the same as empty. `Parts` is the front
end's own view, from which `Parts.toStencil` makes the stencil.
-/

namespace ScriptLinker

/-- A buffer that crosses the boundary: absent, or owned by the front end. -/
inductive Buffer (α : Type) where
  | null
  | owned (items : List α)
  deriving DecidableEq, Inhabited

namespace Buffer

variable {α : Type}

/-- The items of a buffer; an absent one has none. -/
def items : Buffer α → List α
  | null => []
  | owned items => items

def isNull : Buffer α → Bool
  | null => true
  | owned _ => false

def length (buffer : Buffer α) : Nat :=
  buffer.items.length

/-- Whether a buffer has no items, absent or not. -/
def isEmpty (buffer : Buffer α) : Bool :=
  buffer.length = 0

def ofOption : Option (List α) → Buffer α
  | none => null
  | some items => owned items

def toOption : Buffer α → Option (List α)
  | null => none
  | owned items => some items

@[simp] theorem toOption_ofOption (items : Option (List α)) :
    (ofOption items).toOption = items := by
  cases items <;> rfl

@[simp] theorem isNull_ofOption (items : Option (List α)) :
    (ofOption items).isNull = items.isNone := by
  cases items <;> rfl

end Buffer

/-- The scalars of a script that fit a word of 32 bits on both sides. -/
structure FrameLayout where
  maxFixedSlots : UInt32 := 0
  maximumStackDepth : UInt32 := 0
  bodyScopeIndex : UInt32 := 0
  icEntryCount : UInt32 := 0
  typeSetCount : UInt32 := 0
  deriving DecidableEq, Inhabited

/-- A compilation result as it crosses the boundary. -/
structure Stencil where
  revision : UInt32
  unimplemented : Bool
  error : Buffer UInt8
  bytecode : Buffer UInt8
  strings : Buffer (Buffer UInt8)
  lineno : Nat
  column : Nat
  mainOffset : Nat
  layout : FrameLayout
  flags : StencilFlags
  deriving DecidableEq, Inhabited

namespace Stencil

/-- The revision front ends fill in today. -/
def currentRevision : UInt32 := 5

/-- A compilation result before it crosses the boundary. -/
structure Parts where
  revision : UInt32 := currentRevision
  unimplemented : Bool := false
  error : Option Bytes := none
  bytecode : Bytes := []
  strings : List Bytes := []
  lineno : Nat := 1
  column : Nat := 0
  mainOffset : Nat := 0
  layout : FrameLayout := {}
  flags : StencilFlags := {}
  deriving DecidableEq, Inhabited

namespace Parts

def success (bytecode : Bytes) (strings : List Bytes) : Parts :=
  { bytecode, strings }

def rejection (message : Bytes) : Parts :=
  { error := some message }

/-- The parts of a source that the front end declines. -/
def declined : Parts :=
  { unimplemented := true }

/-- Hands every buffer over. -/
def toStencil (parts : Parts) : Stencil where
  revision := parts.revision
  unimplemented := parts.unimplemented
  error := .ofOption parts.error
  bytecode := .owned parts.bytecode
  strings := .owned (parts.strings.map .owned)
  lineno := parts.lineno
  column := parts.column
  mainOffset := parts.mainOffset
  layout := parts.layout
  flags := parts.flags

end Parts

end Stencil

end ScriptLinker
