import ScriptLinker.Context
import ScriptLinker.Link.Error
import ScriptLinker.Link.Plan
/-!
# Building a script from a stencil

A stencil that classified as a success is first made into a blueprint, which
holds all that can be checked and computed without the heap. The blueprint is
then built: the shell is rooted as soon as it exists, every part is created
before it is filled, and each atom is stored in the rooted script before the
next allocation. At the end the script is sealed and the root dropped; the
caller has to root what it gets.
-/

namespace ScriptLinker

/-- The source note that says nothing; it fills all notes. -/
def nullNote : UInt8 := 0

/-- How many notes follow `codeLength` bytes of code, so that one leading byte,
the code and the notes together take a multiple of four bytes. -/
def noteLength (codeLength : Nat) : Nat :=
  (4 - (codeLength % 4 + 1) % 4) % 4

theorem dvd_noteLength (codeLength : Nat) : 4 ∣ 1 + codeLength + noteLength codeLength := by
  unfold noteLength
  omega

/-- A stencil with all numbers checked, ready to be built. -/
structure Blueprint where
  extent : SourceExtent
  plan : ThingPlan
  strings : List Bytes
  image : ScriptImage
  flags : ScriptFlags
  deriving DecidableEq, Inhabited

namespace Blueprint

def slotCount (layout : FrameLayout) : Except LinkError UInt32 :=
  if layout.maxFixedSlots.toNat + layout.maximumStackDepth.toNat < UInt32.size then
    .ok (layout.maxFixedSlots + layout.maximumStackDepth)
  else
    .error (.inconsistent (.slotOverflow layout.maxFixedSlots layout.maximumStackDepth))

/-- Checks the fields that the front end derives from the bytecode. The stack
depth and the counts would need the table of opcodes, so they are taken as they
are. -/
def validate (descriptor : Descriptor) (plan : ThingPlan) : Except LinkError Unit :=
  if descriptor.metadata.mainOffset.toNat > descriptor.bytecode.length then
    .error (.inconsistent
      (.mainOffsetPastEnd descriptor.metadata.mainOffset descriptor.bytecode.length))
  else if descriptor.metadata.layout.bodyScopeIndex.toNat ≥ plan.length then
    .error (.inconsistent
      (.bodyScopeOutOfRange descriptor.metadata.layout.bodyScopeIndex plan.length))
  else
    .ok ()

def narrow (field : NarrowField) (value : Nat) : Except LinkError UInt32 :=
  (ScriptLinker.narrow field value).mapError .descriptor

/-- The blueprint of a descriptor for a source of that length. -/
def ofDescriptor? (options : CompileOptions) (link : LinkSettings) (descriptor : Descriptor)
    (sourceLength : Nat) : Except LinkError Blueprint := do
  let plan := ThingPlan.ofGlobalScript
  let layout := descriptor.metadata.layout
  let _ ← narrow .bytecode descriptor.bytecode.length
  let _ ← narrow .strings descriptor.strings.length
  let _ ← narrow .things plan.length
  let length ← narrow .source sourceLength
  let nslots ← slotCount layout
  if link.validateStencils then validate descriptor plan
  pure
    { extent := .ofSource length descriptor.metadata.lineno descriptor.metadata.column
      plan
      strings := descriptor.strings
      image :=
        { code := descriptor.bytecode
          notes := List.replicate (noteLength descriptor.bytecode.length) nullNote
          mainOffset := descriptor.metadata.mainOffset
          nfixed := layout.maxFixedSlots
          nslots
          bodyScopeIndex := layout.bodyScopeIndex
          icEntryCount := layout.icEntryCount
          typeSetCount := layout.typeSetCount }
      flags := { descriptor.flags with noResultValue := options.noResultValue } }

/-- Interns the strings from `index` on and stores each in the atom table. -/
def internStrings (script : ScriptId) : Nat → List Bytes → Action Heap HeapError Unit
  | _, [] => pure ()
  | index, string :: rest => do
    let atom ← Heap.atomize string
    Heap.initAtom script index atom
    internStrings script (index + 1) rest

def buildThings (blueprint : Blueprint) (globalScope : ScopeId) (script : ScriptId) :
    Action Heap HeapError Unit := do
  Heap.createThings script blueprint.plan.length
  Action.note (.thingSlotsCreated blueprint.plan.length)
  Heap.fillThings blueprint.plan script globalScope
  Action.note .thingsLinked

def buildAtoms (blueprint : Blueprint) (script : ScriptId) : Action Heap HeapError Unit := do
  Heap.createAtoms script blueprint.strings.length
  Action.note (.atomTableCreated blueprint.strings.length)
  internStrings script 0 blueprint.strings
  Action.note (.stringsInterned blueprint.strings.length)

def buildImage (blueprint : Blueprint) (script : ScriptId) : Action Heap HeapError Unit := do
  let image := blueprint.image
  Heap.createImage script image.code.length image.notes.length
  Action.note (.buffersCreated image.code.length image.notes.length)
  Heap.modifyImage script fun _ => image
  Heap.setFlags script blueprint.flags
  Action.note (.metadataCopied image.nslots.toNat)

/-- Builds and seals the script. -/
def build (blueprint : Blueprint) (globalScope : ScopeId) : Action Heap HeapError ScriptId :=
  Heap.withRoots do
    let script ← Heap.allocScript blueprint.extent
    Action.modify (Heap.pushRoot (.script script))
    Action.note (.shellAllocated script)
    blueprint.buildThings globalScope script
    blueprint.buildAtoms script
    blueprint.buildImage script
    Heap.share script
    Action.note (.dataShared script)
    pure script

end Blueprint

namespace Context

def blueprint? (context : Context) (descriptor : Descriptor) (sourceLength : Nat) :
    Except LinkError Blueprint :=
  Blueprint.ofDescriptor? context.options context.link descriptor sourceLength

/-- Builds the script of a descriptor that classified as a success. -/
def materialize (descriptor : Descriptor) (sourceLength : Nat) :
    Action Context LinkError ScriptId := do
  let context ← Action.get
  let blueprint ← Action.ofExcept (context.blueprint? descriptor sourceLength)
  onHeap ((blueprint.build context.globalScope).mapError .ofHeapError)

end Context

end ScriptLinker
