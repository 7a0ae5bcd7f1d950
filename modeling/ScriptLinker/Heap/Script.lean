import ScriptLinker.Heap.Atom
/-!
# Building and sealing scripts

A script starts as a shell. Its thing slots, its atom table and its image are
created one by one, each once and each charged to it, and then filled. Sealing
moves the image into the sharing table, where an equal one takes its place;
after that nothing of the script changes.
-/

namespace ScriptLinker

namespace Script

def has (script : Script) : ScriptPart → Bool
  | .things => script.things.isSome
  | .atoms => script.atoms.isSome
  | .image => script.image?.isSome

def requireUnsealed (script : Script) : Except HeapError Unit :=
  if script.isSealed then .error .scriptSealed else .ok ()

def requireMissing (script : Script) (part : ScriptPart) : Except HeapError Unit := do
  script.requireUnsealed
  if script.has part then .error (.alreadyInitialized part) else .ok ()

end Script

/-- Puts a value into a table that is filled by index. -/
def setSlot {α : Type} (table : SlotTable) (slots : List (Option α)) (index : Nat) (value : α) :
    Except HeapError (List (Option α)) :=
  if index < slots.length then
    .ok (slots.set index (some value))
  else
    .error (.indexOutOfBounds table index slots.length)

namespace Script

def setThing (index : Nat) (thing : CellRef) (script : Script) : Except HeapError Script := do
  script.requireUnsealed
  match script.things with
  | none => .error (.notInitialized .things)
  | some slots =>
    let slots ← setSlot .things slots index thing
    pure { script with things := some slots }

def setAtom (index : Nat) (atom : AtomId) (script : Script) : Except HeapError Script := do
  script.requireUnsealed
  match script.atoms with
  | none => .error (.notInitialized .atoms)
  | some slots =>
    let slots ← setSlot .atoms slots index atom
    pure { script with atoms := some slots }

def setFlags (flags : ScriptFlags) (script : Script) : Except HeapError Script := do
  script.requireUnsealed
  pure { script with flags }

/-- The image that a script still owns. -/
def ownedImage (script : Script) : Except HeapError ScriptImage :=
  match script.image with
  | .absent => .error (.notInitialized .image)
  | .shared _ => .error .scriptSealed
  | .owned image => .ok image

end Script

/-- New values for some fields of an image. Code and notes are copied to the
start of their regions, as far as both reach, so that a patch keeps the lengths
that the image was charged for. Replacing the image as a whole is no patch;
`Heap.modifyImage` takes any change. -/
structure ImagePatch where
  code : Bytes := []
  notes : Bytes := []
  mainOffset : Option UInt32 := none
  nfixed : Option UInt32 := none
  nslots : Option UInt32 := none
  bodyScopeIndex : Option UInt32 := none
  icEntryCount : Option UInt32 := none
  typeSetCount : Option UInt32 := none
  deriving DecidableEq, Inhabited

/-- The region with `bytes` copied over its start. -/
def overwriteStart (region bytes : Bytes) : Bytes :=
  bytes.take region.length ++ region.drop bytes.length

@[simp] theorem length_overwriteStart (region bytes : Bytes) :
    (overwriteStart region bytes).length = region.length := by
  simp [overwriteStart]
  omega

/-- Copying bytes over a region of their length replaces it. -/
theorem overwriteStart_of_length_eq {region bytes : Bytes} (h : bytes.length = region.length) :
    overwriteStart region bytes = bytes := by
  rw [overwriteStart, ← h, List.take_length, h, List.drop_length, List.append_nil]

def ScriptImage.apply (patch : ImagePatch) (image : ScriptImage) : ScriptImage where
  code := overwriteStart image.code patch.code
  notes := overwriteStart image.notes patch.notes
  mainOffset := patch.mainOffset.getD image.mainOffset
  nfixed := patch.nfixed.getD image.nfixed
  nslots := patch.nslots.getD image.nslots
  bodyScopeIndex := patch.bodyScopeIndex.getD image.bodyScopeIndex
  icEntryCount := patch.icEntryCount.getD image.icEntryCount
  typeSetCount := patch.typeSetCount.getD image.typeSetCount

/-- A patch keeps the lengths. -/
theorem ScriptImage.totalLength_apply (patch : ImagePatch) (image : ScriptImage) :
    (image.apply patch).totalLength = image.totalLength := by
  simp [totalLength, apply]

/-- The patch that makes an image of the same lengths into a given one. -/
def ImagePatch.ofImage (image : ScriptImage) : ImagePatch where
  code := image.code
  notes := image.notes
  mainOffset := some image.mainOffset
  nfixed := some image.nfixed
  nslots := some image.nslots
  bodyScopeIndex := some image.bodyScopeIndex
  icEntryCount := some image.icEntryCount
  typeSetCount := some image.typeSetCount

/-- Whatever a write makes of an image, it is a patch if it keeps the lengths. -/
theorem ScriptImage.apply_ofImage {image written : ScriptImage}
    (hcode : written.code.length = image.code.length)
    (hnotes : written.notes.length = image.notes.length) :
    apply (.ofImage written) image = written := by
  simp only [apply, ImagePatch.ofImage, overwriteStart_of_length_eq hcode,
    overwriteStart_of_length_eq hnotes, Option.getD_some]

namespace Heap

def setScript (script : ScriptId) (content : Script) (heap : Heap) : Heap :=
  heap.modifySlot script.id.index fun slot => { slot with cell := some (.script content) }

/-- Replaces the script that a reference names by what `change` makes of it. -/
def updateScript (script : ScriptId) (change : Script → Except HeapError Script) :
    Action Heap HeapError Unit := do
  let content ← Action.read fun heap => heap.script script
  let changed ← Action.ofExcept (change content)
  Action.modify (setScript script changed)

def allocScript (extent : SourceExtent) : Action Heap HeapError ScriptId := do
  let id ← allocate (.script { extent }) Charge.script
  pure ⟨id⟩

/-- Creates a part of a script that it does not have yet, charged `bytes`. -/
def createPart (script : ScriptId) (part : ScriptPart) (bytes : Nat)
    (install : Script → Script) : Action Heap HeapError Unit := do
  let content ← Action.read fun heap => heap.script script
  Action.ofExcept (content.requireMissing part)
  charge script.id bytes
  updateScript script fun content => .ok (install content)

def createThings (script : ScriptId) (count : Nat) : Action Heap HeapError Unit :=
  createPart script .things (Charge.things count) fun content =>
    { content with things := some (List.replicate count none) }

def createAtoms (script : ScriptId) (count : Nat) : Action Heap HeapError Unit :=
  createPart script .atoms (Charge.atoms count) fun content =>
    { content with atoms := some (List.replicate count none) }

/-- Creates the image, zero throughout. -/
def createImage (script : ScriptId) (codeLength noteLength : Nat) :
    Action Heap HeapError Unit :=
  createPart script .image (Charge.image (codeLength + noteLength)) fun content =>
    { content with image := .owned (.blank codeLength noteLength) }

/-- Stores a reference to a live cell in a script, and records the store. -/
def storeRef (script : ScriptId) (ref : CellRef) (install : Script → Except HeapError Script) :
    Action Heap HeapError Unit := do
  Action.read fun heap => heap.requireLive ref.id
  updateScript script install
  Action.modify (recordStore script.id ref)

def initThing (script : ScriptId) (index : Nat) (thing : CellRef) :
    Action Heap HeapError Unit :=
  storeRef script thing (Script.setThing index thing)

def initAtom (script : ScriptId) (index : Nat) (atom : AtomId) :
    Action Heap HeapError Unit :=
  storeRef script (.atom atom) (Script.setAtom index atom)

def ownedImage (heap : Heap) (script : ScriptId) : Except HeapError ScriptImage := do
  let content ← heap.script script
  content.ownedImage

def modifyImage (script : ScriptId) (change : ScriptImage → ScriptImage) :
    Action Heap HeapError Unit :=
  updateScript script fun content => do
    let image ← content.ownedImage
    pure { content with image := .owned (change image) }

def setFlags (script : ScriptId) (flags : ScriptFlags) : Action Heap HeapError Unit :=
  updateScript script (Script.setFlags flags)

/-- The shared object of equal content. -/
def sharedImage? (heap : Heap) (image : ScriptImage) : Option SharedImage :=
  heap.sharedImages.find? fun object => object.image = image

/-- The object to share an image as: one of equal content, whose holder gets the
charge of its own copy back, or a new one. -/
def internImage (script : ScriptId) (image : ScriptImage) :
    Action Heap HeapError SharedImage := do
  let heap ← Action.get
  match heap.sharedImage? image with
  | some object =>
    Action.note (.dataReused object.image.totalLength)
    Action.modify (refund script.id (Charge.image image.totalLength))
    pure object
  | none =>
    let object := { serial := heap.nextSerial, image }
    Action.set
      { heap with
        sharedImages := object :: heap.sharedImages
        nextSerial := heap.nextSerial + 1 }
    pure object

/-- Seals a script: its image becomes a shared one. -/
def share (script : ScriptId) : Action Heap HeapError Unit := do
  let _ ← Action.read fun heap => heap.ownedImage script
  charge script.id Charge.hold
  let image ← Action.read fun heap => heap.ownedImage script
  let object ← internImage script image
  updateScript script fun content => .ok { content with image := .shared object }

end Heap

end ScriptLinker
