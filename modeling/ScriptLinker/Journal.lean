import ScriptLinker.Heap.Id
import ScriptLinker.Diagnostic
import ScriptLinker.Text.Quoted
/-!
# The journal

Operations note what they do as events. An event has a level and a line of
text; both are computed from it, so that statements about a run speak of events
and not of wording.
-/

namespace ScriptLinker

inductive Level where
  | trace
  | debug
  | info
  | warn
  | error
  deriving DecidableEq, Inhabited

def Level.name : Level → String
  | .trace => "trace"
  | .debug => "debug"
  | .info => "info"
  | .warn => "warn"
  | .error => "error"

/-- What an operation can note. -/
inductive Event where
  | failureInjected (bytes : Nat)
  /-- A request would take the heap to `after` bytes, past the threshold. -/
  | thresholdPassed (after threshold : Nat)
  | limitExceeded (bytes limit : Nat)
  | staleSkipped (id : CellId)
  /-- Collection number `run` freed `swept` cells and left `inUse` bytes. -/
  | collected (run swept inUse : Nat)
  | atomInterned (text : String) (atom : AtomId)
  /-- A sealed script took over an equal data object of `bytes` code and notes. -/
  | dataReused (bytes : Nat)
  | contextReady (scope : ScopeId)
  | diagnosticReported (diagnostic : Diagnostic)
  | frontEndCalled (bytes : Nat)
  | stencilReceived (revision : UInt32) (bytes : Nat)
  | stencilReleased
  | frontEndDeclined
  | shellAllocated (script : ScriptId)
  | thingSlotsCreated (count : Nat)
  | thingsLinked
  | atomTableCreated (count : Nat)
  | stringsInterned (count : Nat)
  | buffersCreated (code notes : Nat)
  | metadataCopied (slots : Nat)
  | dataShared (script : ScriptId)
  | memoryExhausted
  | scriptCompiled (bytes : Nat) (script : ScriptId)
  deriving DecidableEq

namespace Event

def level : Event → Level
  | failureInjected _ | limitExceeded .. | memoryExhausted => .error
  | thresholdPassed .. | staleSkipped _ | frontEndDeclined => .warn
  | diagnosticReported _ | scriptCompiled .. => .info
  | atomInterned .. | frontEndCalled _ | stencilReleased => .trace
  | collected .. | dataReused _ | contextReady _ | stencilReceived .. | shellAllocated _
  | thingSlotsCreated _ | thingsLinked | atomTableCreated _ | stringsInterned _
  | buffersCreated .. | metadataCopied _ | dataShared _ => .debug

def text : Event → String
  | failureInjected bytes => s!"Injected allocation failure ({bytes} bytes)"
  | thresholdPassed after threshold =>
    s!"Heap at {after} bytes would pass threshold {threshold}; collecting"
  | limitExceeded bytes limit => s!"Allocation of {bytes} bytes exceeds heap limit {limit}"
  | staleSkipped id => s!"Skipping stale reference {id.display} during marking"
  | collected run swept inUse => s!"GC #{run}: swept {swept} cells, {inUse} bytes in use"
  | atomInterned text atom => s!"Interned atom {Text.quote text} as {atom.display}"
  | dataReused bytes => s!"Reusing shared script data ({bytes} bytes)"
  | contextReady scope => s!"Context initialised (global scope {scope.display})"
  | diagnosticReported diagnostic => diagnostic.logLine
  | frontEndCalled bytes => s!"Calling foreign compile on {bytes} bytes"
  | stencilReceived revision bytes =>
    s!"Foreign compile returned schema v{revision} ({bytes} bytes of bytecode)"
  | stencilReleased => "Releasing foreign stencil"
  | frontEndDeclined => "Foreign front end declined the source; falling back"
  | shellAllocated script => s!"Allocated script shell {script.display}"
  | thingSlotsCreated count => s!"Created private data with {count} gcthings"
  | thingsLinked => "Linked gcthings to the empty global scope"
  | atomTableCreated count => s!"Created atom table of {count} entries"
  | stringsInterned count => s!"Atomized {count} strings"
  | buffersCreated code notes => s!"Created code and notes buffer ({code} + {notes} bytes)"
  | metadataCopied slots => s!"Copied bytecode and metadata ({slots} slots)"
  | dataShared script => s!"Shared script data of {script.display}"
  | memoryExhausted => "Out of memory while materializing a stencil"
  | scriptCompiled bytes script =>
    s!"Compiled {bytes} bytes of source into {script.display}"

end Event

end ScriptLinker
