import ScriptLinker.FrontEnd
import ScriptLinker.Keyed
import ScriptLinker.Stencil.Descriptor
/-!
# Programs on a bridge

A bench keeps the guards of a program under names, in ascending order. A
compilation under a name that is taken drops the older guard after the new
stencil has come in. At the end all guards are dropped, first name first.
-/

namespace ScriptLinker

/-- A front end at work, with the stencils that have not gone back to it. -/
structure BridgeBench where
  route : Route := .direct
  guards : List (String × Guard) := []
  ledger : FrontEnd.Ledger := {}
  deriving DecidableEq, Inhabited

inductive BridgeStep where
  /-- Compiles a source, which the front end answers with `parts`. -/
  | compile (name : String) (source : Bytes) (parts : Stencil.Parts) (options : CompileOptions)
  | describe (name : String)
  | drop (name : String)
  /-- Asks for what the front end takes the source; `scripts` and `modules` say
  what it accepts. -/
  | probe (source : Bytes) (scripts modules : Bool)
  deriving DecidableEq, Inhabited

inductive BridgeReply where
  | done
  | descriptor (read : Except DescriptorError Descriptor)
  | probed (asScript asModule : Bool)
  | noSuchGuard

namespace BridgeBench

def guard? (bench : BridgeBench) (name : String) : Option Guard :=
  bench.guards.lookup name

/-- The guards with one more, in ascending order of names, in place of an older
one of that name. -/
def insertGuard (name : String) (guard : Guard) :
    List (String × Guard) → List (String × Guard)
  | [] => [(name, guard)]
  | entry :: rest =>
    if name < entry.1 then (name, guard) :: entry :: rest
    else if name = entry.1 then (name, guard) :: rest
    else entry :: insertGuard name guard rest

def keepGuard (name : String) (guard : Guard) (bench : BridgeBench) : BridgeBench :=
  { bench with guards := insertGuard name guard bench.guards }

theorem lookup_insertGuard_self (name : String) (guard : Guard)
    (guards : List (String × Guard)) :
    (insertGuard name guard guards).lookup name = some guard := by
  induction guards with
  | nil => simp [insertGuard]
  | cons entry rest ih =>
    unfold insertGuard
    split
    · simp
    · split
      · simp
      · rename_i hname
        rw [List.lookup_cons, beq_eq_false_iff_ne.2 hname]
        exact ih

@[simp] theorem guard?_keepGuard_self (name : String) (guard : Guard) (bench : BridgeBench) :
    (bench.keepGuard name guard).guard? name = some guard :=
  lookup_insertGuard_self name guard bench.guards

def forgetGuard (name : String) (bench : BridgeBench) : BridgeBench :=
  { bench with guards := Keyed.erase name bench.guards }

@[simp] theorem guard?_forgetGuard_self (name : String) (bench : BridgeBench) :
    (bench.forgetGuard name).guard? name = none :=
  Keyed.lookup_erase_self name bench.guards

def onLedger {ε α : Type} (action : Action FrontEnd.Ledger ε α) : Action BridgeBench ε α :=
  action.zoom BridgeBench.ledger fun ledger bench => { bench with ledger }

def release {ε : Type} (guard : Option Guard) : Action BridgeBench ε Unit :=
  match guard with
  | none => pure ()
  | some guard => onLedger guard.release

/-- Drops all guards, first name first. -/
def releaseAll {ε : Type} : Action BridgeBench ε Unit := do
  let bench ← Action.get
  bench.guards.forM fun entry => onLedger entry.2.release
  Action.modify fun bench => { bench with guards := [] }

end BridgeBench

def BridgeStep.run {ε : Type} : BridgeStep → Action BridgeBench ε BridgeReply
  | compile name source parts options => do
    let bench ← Action.get
    let bridge := { frontEnd := .answering parts, route := bench.route : Bridge }
    let guard ← BridgeBench.onLedger (bridge.compile source options)
    Action.modify (BridgeBench.keepGuard name guard)
    BridgeBench.release (bench.guard? name)
    pure .done
  | describe name => do
    let bench ← Action.get
    match bench.guard? name with
    | none => pure .noSuchGuard
    | some guard => pure (.descriptor (Descriptor.ofStencil? guard.stencil))
  | drop name => do
    let bench ← Action.get
    match bench.guard? name with
    | none => pure .noSuchGuard
    | some guard => do
      Action.modify (BridgeBench.forgetGuard name)
      BridgeBench.release (some guard)
      pure .done
  | probe source scripts modules => do
    let bench ← Action.get
    let bridge := { frontEnd := .scripted {} scripts modules, route := bench.route : Bridge }
    let (asScript, asModule) := bridge.probe source
    pure (.probed asScript asModule)

end ScriptLinker
