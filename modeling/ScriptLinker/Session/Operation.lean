import ScriptLinker.Heap.Root
import ScriptLinker.Heap.Scope
import ScriptLinker.Link.Plan
/-!
# Heap operations as data

An operation names what a client asks of a heap, and a reply what it gets. The
references in an operation are of a type of the client's choice, one for each
sort: a program written over register names and a run over issued references
are the same type of operation. `resolve` turns the one into the other, and
`run` carries an operation out.
-/

namespace ScriptLinker

/-- What a reference in an operation has to name. -/
inductive RefSort where
  | atom
  | scope
  | script
  | cell
  | root
  deriving DecidableEq, Inhabited

/-- The references that a heap issues, by sort. -/
@[reducible] def Issued : RefSort → Type
  | .atom => AtomId
  | .scope => ScopeId
  | .script => ScriptId
  | .cell => CellRef
  | .root => RootId

/-- What a client asks of a heap. -/
inductive Operation (Ref : RefSort → Type) where
  | allocScope (kind : ScopeKind) (enclosing : Option (Ref .scope))
  | atomize (bytes : Bytes)
  | allocScript (extent : SourceExtent)
  | createThings (script : Ref .script) (count : Nat)
  | createAtoms (script : Ref .script) (count : Nat)
  | createImage (script : Ref .script) (codeLength noteLength : Nat)
  | initThing (script : Ref .script) (index : Nat) (thing : Ref .cell)
  | initAtom (script : Ref .script) (index : Nat) (atom : Ref .atom)
  /-- Writes into the image a script owns. A write keeps the lengths of code and notes; to
  replace the image as a whole is no operation. -/
  | patchImage (script : Ref .script) (patch : ImagePatch)
  | setFlags (script : Ref .script) (flags : ScriptFlags)
  | share (script : Ref .script)
  | readScript (script : Ref .script)
  /-- Asks whether two scripts share one object. -/
  | compareImages (left right : Ref .script)
  | readAtom (atom : Ref .atom)
  | readScope (scope : Ref .scope)
  | askLive (cell : Ref .cell)
  | addRoot (cell : Ref .cell)
  | readRoot (root : Ref .root)
  | removeRoot (root : Ref .root)
  | collect
  | setZeal (on : Bool)
  | failAfter (count : Nat)
  | recordStore (owner target : Ref .cell)
  | readStores
  | readPlan
  /-- Asks what the empty global scope of a plan stands for. -/
  | planThing (scope : Ref .scope)
  | fillThings (script : Ref .script) (scope : Ref .scope)

/-- A script as a client reads it, with the texts of its atoms. -/
structure ScriptReport where
  script : Script
  atomTexts : List (Option (AtomId × Except HeapError String))

/-- What a client gets from a heap. -/
inductive Reply where
  | done
  | cell (ref : CellRef)
  | root (issued : RootId)
  | rooted (ref : Option CellRef)
  | truth (value : Bool)
  /-- Whether two scripts share one object, unless one of them shares none. -/
  | sameImage (answer : Option Bool)
  | image (content : ScriptImage)
  | script (report : ScriptReport)
  | atom (text : String)
  | scope (content : Scope)
  | stores (entries : List (CellId × CellRef))
  | plan (content : ThingPlan)

namespace Operation

variable {Ref Ref' : RefSort → Type} {ε : Type}

/-- Replaces every reference by what `find` finds for it, in the order of the
fields, or fails with the first that is not found. -/
def resolve (find : ∀ sort, Ref sort → Except ε (Ref' sort)) :
    Operation Ref → Except ε (Operation Ref')
  | allocScope kind none => .ok (allocScope kind none)
  | allocScope kind (some enclosing) => do
    pure (allocScope kind (some (← find .scope enclosing)))
  | atomize bytes => .ok (atomize bytes)
  | allocScript extent => .ok (allocScript extent)
  | createThings script count => do pure (createThings (← find .script script) count)
  | createAtoms script count => do pure (createAtoms (← find .script script) count)
  | createImage script codeLength noteLength => do
    pure (createImage (← find .script script) codeLength noteLength)
  | initThing script index thing => do
    let script ← find .script script
    pure (initThing script index (← find .cell thing))
  | initAtom script index atom => do
    let script ← find .script script
    pure (initAtom script index (← find .atom atom))
  | patchImage script patch => do pure (patchImage (← find .script script) patch)
  | setFlags script flags => do pure (setFlags (← find .script script) flags)
  | share script => do pure (share (← find .script script))
  | readScript script => do pure (readScript (← find .script script))
  | compareImages left right => do
    let left ← find .script left
    pure (compareImages left (← find .script right))
  | readAtom atom => do pure (readAtom (← find .atom atom))
  | readScope scope => do pure (readScope (← find .scope scope))
  | askLive cell => do pure (askLive (← find .cell cell))
  | addRoot cell => do pure (addRoot (← find .cell cell))
  | readRoot root => do pure (readRoot (← find .root root))
  | removeRoot root => do pure (removeRoot (← find .root root))
  | collect => .ok collect
  | setZeal on => .ok (setZeal on)
  | failAfter count => .ok (failAfter count)
  | recordStore owner target => do
    let owner ← find .cell owner
    pure (recordStore owner (← find .cell target))
  | readStores => .ok readStores
  | readPlan => .ok readPlan
  | planThing scope => do pure (planThing (← find .scope scope))
  | fillThings script scope => do
    let script ← find .script script
    pure (fillThings script (← find .scope scope))

end Operation

namespace Heap

def report (heap : Heap) (script : ScriptId) : Except HeapError ScriptReport := do
  let content ← heap.script script
  pure
    { script := content
      atomTexts := content.atomSlots.map fun entry =>
        entry.map fun atom => (atom, heap.atom atom) }

def sharedObject? (heap : Heap) (script : ScriptId) : Option SharedImage :=
  (heap.script script).toOption.bind Script.shared?

def sameImage? (heap : Heap) (left right : ScriptId) : Option Bool := do
  let left ← heap.sharedObject? left
  let right ← heap.sharedObject? right
  pure (left.serial = right.serial)

end Heap

def Operation.run : Operation Issued → Action Heap HeapError Reply
  | allocScope kind enclosing => do
    let scope ← Heap.allocScope kind enclosing
    pure (.cell (.scope scope))
  | atomize bytes => do
    let atom ← Heap.atomize bytes
    pure (.cell (.atom atom))
  | allocScript extent => do
    let script ← Heap.allocScript extent
    pure (.cell (.script script))
  | createThings script count => do
    Heap.createThings script count
    pure .done
  | createAtoms script count => do
    Heap.createAtoms script count
    pure .done
  | createImage script codeLength noteLength => do
    Heap.createImage script codeLength noteLength
    pure .done
  | initThing script index thing => do
    Heap.initThing script index thing
    pure .done
  | initAtom script index atom => do
    Heap.initAtom script index atom
    pure .done
  | patchImage script patch => do
    Heap.modifyImage script (ScriptImage.apply patch)
    let image ← Action.read fun heap => heap.ownedImage script
    pure (.image image)
  | setFlags script flags => do
    Heap.setFlags script flags
    pure .done
  | share script => do
    Heap.share script
    pure .done
  | readScript script => do
    let report ← Action.read fun heap => heap.report script
    pure (.script report)
  | compareImages left right => do
    let heap ← Action.get
    pure (.sameImage (heap.sameImage? left right))
  | readAtom atom => do
    let text ← Action.read fun heap => heap.atom atom
    pure (.atom text)
  | readScope scope => do
    let content ← Action.read fun heap => heap.scope scope
    pure (.scope content)
  | askLive cell => do
    let heap ← Action.get
    pure (.truth (heap.isLive cell.id))
  | addRoot cell => do
    let heap ← Action.get
    Action.set (heap.addRoot cell).2
    pure (.root (heap.addRoot cell).1)
  | readRoot root => do
    let heap ← Action.get
    pure (.rooted (heap.root? root))
  | removeRoot root => do
    Action.modify (Heap.removeRoot root)
    pure .done
  | collect => do
    Heap.collect
    pure .done
  | setZeal on => do
    Action.modify (Heap.setZeal on)
    pure .done
  | failAfter count => do
    Action.modify (Heap.failAfter count)
    pure .done
  | recordStore owner target => do
    Action.modify (Heap.recordStore owner.id target)
    pure .done
  | readStores => do
    let heap ← Action.get
    pure (.stores heap.storeBuffer.toList)
  | readPlan => pure (.plan .ofGlobalScript)
  | planThing scope => do
    let thing ← Action.read fun heap => heap.thingOf scope .emptyGlobalScope
    pure (.cell thing)
  | fillThings script scope => do
    Heap.fillThings .ofGlobalScript script scope
    pure .done

end ScriptLinker
