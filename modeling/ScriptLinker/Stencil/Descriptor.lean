import ScriptLinker.Stencil.Basic
/-!
# Reading a stencil

Every revision of the layout only adds fields. `Descriptor.ofStencil?` reads
the fields that the declared revision carries and gives the others their
defaults, so a field newer than the revision cannot matter, not even when it is
out of range. A descriptor routes to a verdict: an error message wins over the
flag that declines the source.
-/

namespace ScriptLinker

inductive Revision where
  /-- Bytecode only. -/
  | bytecode
  /-- Adds the strings. -/
  | strings
  /-- Adds the error message and the flag that declines the source. -/
  | outcome
  /-- Adds the metadata. -/
  | metadata
  /-- Adds the classification flags. -/
  | flags
  deriving DecidableEq, Inhabited

/-- The places where a number can be too large for its field. -/
inductive NarrowField where
  | lineno
  | column
  | mainOffset
  | bytecode
  | strings
  | things
  | source
  deriving DecidableEq, Inhabited

def NarrowField.name : NarrowField → String
  | lineno => "lineno"
  | column => "column"
  | mainOffset => "main_offset"
  | bytecode => "bytecode"
  | strings => "strings"
  | things => "gcthings"
  | source => "source"

inductive DescriptorError where
  | unsupportedRevision (revision : UInt32)
  | fieldOutOfRange (field : NarrowField) (value : Nat)
  deriving DecidableEq, Inhabited

def DescriptorError.message : DescriptorError → String
  | unsupportedRevision revision =>
    s!"stencil schema version {revision} is not supported (current is {Stencil.currentRevision})"
  | fieldOutOfRange field value =>
    "stencil field \x60" ++ field.name ++ "\x60 is out of range: " ++ toString value

/-- A number as a word of 32 bits, or the error that names its field. -/
def narrow (field : NarrowField) (value : Nat) : Except DescriptorError UInt32 :=
  if value < UInt32.size then .ok (UInt32.ofNat value) else .error (.fieldOutOfRange field value)

theorem narrow_eq_ok_iff (field : NarrowField) (value : Nat) (word : UInt32) :
    narrow field value = .ok word ↔ word.toNat = value := by
  unfold narrow
  have hword : word.toNat < UInt32.size := word.toNat_lt
  split
  · rename_i hvalue
    simp only [Except.ok.injEq]
    constructor
    · rintro rfl
      simpa using hvalue
    · rintro rfl
      simp
  · simp
    omega

namespace Revision

def ofNumber? (number : UInt32) : Except DescriptorError Revision :=
  match number.toNat with
  | 1 => .ok .bytecode
  | 2 => .ok .strings
  | 3 => .ok .outcome
  | 4 => .ok .metadata
  | 5 => .ok .flags
  | _ => .error (.unsupportedRevision number)

def number : Revision → UInt32
  | .bytecode => 1
  | .strings => 2
  | .outcome => 3
  | .metadata => 4
  | .flags => 5

@[simp] theorem ofNumber?_number (revision : Revision) :
    ofNumber? revision.number = .ok revision := by
  cases revision <;> rfl

def hasStrings (revision : Revision) : Bool := 2 ≤ revision.number

def hasOutcome (revision : Revision) : Bool := 3 ≤ revision.number

def hasMetadata (revision : Revision) : Bool := 4 ≤ revision.number

def hasFlags (revision : Revision) : Bool := 5 ≤ revision.number

/-- Whether front ends fill in this revision today. -/
def isCurrent (revision : Revision) : Bool := revision.number = Stencil.currentRevision

end Revision

structure ScriptMetadata where
  lineno : UInt32 := 1
  column : UInt32 := 0
  mainOffset : UInt32 := 0
  layout : FrameLayout := {}
  deriving DecidableEq, Inhabited

/-- A stencil that has been read. The strings are raw bytes; whether they are
UTF-8 is seen when they are interned. -/
structure Descriptor where
  revision : Revision
  bytecode : Bytes := []
  strings : List Bytes := []
  error : Option String := none
  unimplemented : Bool := false
  metadata : ScriptMetadata := {}
  flags : StencilFlags := {}
  deriving DecidableEq, Inhabited

/-- What a stencil asks the engine to do. -/
inductive Verdict where
  | syntaxError (message : String)
  | unimplemented
  | success
  deriving DecidableEq, Inhabited

namespace Descriptor

/-- Reads the metadata, whose source positions have to fit 32 bits. -/
def readMetadata (stencil : Stencil) : Except DescriptorError ScriptMetadata := do
  let lineno ← narrow .lineno stencil.lineno
  let column ← narrow .column stencil.column
  let mainOffset ← narrow .mainOffset stencil.mainOffset
  pure { lineno, column, mainOffset, layout := stencil.layout }

/-- Reads a stencil according to the revision it declares. -/
def ofStencil? (stencil : Stencil) : Except DescriptorError Descriptor := do
  let revision ← Revision.ofNumber? stencil.revision
  let metadata ← if revision.hasMetadata then readMetadata stencil else pure {}
  pure
    { revision
      bytecode := stencil.bytecode.items
      strings := if revision.hasStrings then stencil.strings.items.map Buffer.items else []
      error := if revision.hasOutcome then stencil.error.toOption.map Utf8.decodeLossy else none
      unimplemented := revision.hasOutcome && stencil.unimplemented
      metadata
      flags := if revision.hasFlags then stencil.flags else {} }

def verdict (descriptor : Descriptor) : Verdict :=
  match descriptor.error with
  | some message => .syntaxError message
  | none => if descriptor.unimplemented then .unimplemented else .success

end Descriptor

end ScriptLinker
