import ScriptLinker.Diagnostic
import ScriptLinker.Heap.Error
import ScriptLinker.Stencil.Descriptor
/-!
# Errors of linking

A compilation fails because the source is rejected, because memory runs out,
because a heap operation fails in another way, or because the stencil is
unreadable or contradicts itself.
-/

namespace ScriptLinker

/-- How a stencil contradicts itself. -/
inductive Inconsistency where
  | slotOverflow (fixed depth : UInt32)
  | mainOffsetPastEnd (offset : UInt32) (length : Nat)
  | bodyScopeOutOfRange (index : UInt32) (count : Nat)
  /-- A fault that the caller words itself. -/
  | stated (text : String)
  deriving DecidableEq, Inhabited

def Inconsistency.text : Inconsistency → String
  | slotOverflow fixed depth => s!"{fixed} fixed slots plus stack depth {depth} overflows"
  | mainOffsetPastEnd offset length =>
    s!"main offset {offset} is past the end of {length} bytes of bytecode"
  | bodyScopeOutOfRange index count =>
    s!"body scope index {index} is out of range for {count} gcthings"
  | stated text => text

/-- Why a compilation produced no script. -/
inductive LinkError where
  /-- The front end rejected the source; the diagnostic has been reported. -/
  | rejected (diagnostic : Diagnostic)
  | outOfMemory
  | heap (cause : HeapError)
  | descriptor (cause : DescriptorError)
  | inconsistent (fault : Inconsistency)
  deriving DecidableEq, Inhabited

namespace LinkError

/-- Running out of memory is an error of its own, whichever operation met it. -/
def ofHeapError : HeapError → LinkError
  | .outOfMemory => outOfMemory
  | cause => heap cause

def message : LinkError → String
  | rejected diagnostic => diagnostic.message
  | outOfMemory => "Out of memory while linking a script"
  | heap cause => s!"Heap error while linking a script: {cause.message}"
  | descriptor cause => s!"Unreadable stencil: {cause.message}"
  | inconsistent fault => s!"Inconsistent stencil: {fault.text}"

def code : LinkError → String
  | rejected diagnostic => diagnostic.number.code
  | outOfMemory => "LINK-001"
  | heap _ => "LINK-002"
  | descriptor _ => "LINK-003"
  | inconsistent _ => "LINK-004"

def help? : LinkError → Option String
  | rejected diagnostic => some diagnostic.help
  | descriptor _ => some "The front end and the engine disagree on the stencil layout"
  | outOfMemory | heap _ | inconsistent _ => none

end LinkError

end ScriptLinker
