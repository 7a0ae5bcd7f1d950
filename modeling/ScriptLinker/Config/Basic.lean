/-!
# Engine configuration

The configuration has three sections: options for the front end, settings of
the heap, and checks made while linking. Every setting has a default. The one
rule between settings is that the collection threshold stays below the hard
limit; `validate` checks it.
-/

namespace ScriptLinker

structure CompileOptions where
  /-- Drop the value of the last top-level expression statement. -/
  noResultValue : Bool := false
  deriving DecidableEq, Inhabited

/-- Settings of the heap, sizes in bytes. -/
structure HeapSettings where
  /-- An allocation past this size collects first. -/
  gcThreshold : Nat := 1024 * 1024
  /-- An allocation past this size fails. -/
  maxBytes : Nat := 64 * 1024 * 1024
  /-- Collect before every allocation. -/
  gcZeal : Bool := false
  deriving DecidableEq, Inhabited

/-- Checks made while linking. -/
structure LinkSettings where
  /-- Check the structure of every stencil before linking it. -/
  validateStencils : Bool := false
  deriving DecidableEq, Inhabited

structure EngineConfig where
  compile : CompileOptions := {}
  heap : HeapSettings := {}
  link : LinkSettings := {}
  deriving DecidableEq, Inhabited

inductive ConfigError where
  | unreadable (path reason : String)
  /-- The document is not well formed, or a setting has a value of the wrong type. -/
  | malformed
  | invalidHeapLimits (gcThreshold maxBytes : Nat)
  deriving DecidableEq, Inhabited

namespace ConfigError

/-- The text of an error, where the engine words it. -/
def message? : ConfigError → Option String
  | unreadable path reason => some s!"Error reading engine configuration {path}: {reason}"
  | malformed => none
  | invalidHeapLimits gcThreshold maxBytes =>
    some s!"Invalid heap limits: gc_threshold ({gcThreshold}) exceeds max_bytes ({maxBytes})"

/-- The stable code of an error. -/
def code : ConfigError → String
  | unreadable .. => "CONFIG-001"
  | malformed => "CONFIG-002"
  | invalidHeapLimits .. => "CONFIG-003"

def help : ConfigError → String
  | unreadable .. => "Check that the file exists and has proper permissions"
  | malformed =>
    "Check the [compile], [heap] and [link] sections for typos and value types"
  | invalidHeapLimits .. => "Lower [heap] gc_threshold or raise [heap] max_bytes"

end ConfigError

/-- Refuses settings that contradict each other. -/
def EngineConfig.validate (config : EngineConfig) : Except ConfigError Unit :=
  if config.heap.gcThreshold > config.heap.maxBytes then
    .error (.invalidHeapLimits config.heap.gcThreshold config.heap.maxBytes)
  else
    .ok ()

theorem EngineConfig.validate_eq_ok_iff (config : EngineConfig) :
    config.validate = .ok () ↔ config.heap.gcThreshold ≤ config.heap.maxBytes := by
  unfold EngineConfig.validate
  split <;> simp <;> omega

end ScriptLinker
