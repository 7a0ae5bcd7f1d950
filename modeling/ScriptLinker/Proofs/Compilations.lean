import ScriptLinker.Proofs.Failures
import ScriptLinker.Proofs.Images
/-!
# What comes of a compilation

`Stencil.Parts.reading` says what a front end's answer amounts to, field by
field: which fields the declared revision carries, which of them makes the answer
unreadable, and which of the others decides. A compilation ends as the reading
says, and only one that builds a script touches the heap. Over a sequence of
compilations, with whatever is done to the heap and the options between them, the
sink collects the diagnostics of the rejections and nothing else.
-/

namespace ScriptLinker

/-- What the answer of a front end amounts to. -/
inductive Stencil.Reading where
  | unreadable (error : DescriptorError)
  | rejected (message : Bytes)
  | declined
  | script (descriptor : Descriptor)
  deriving DecidableEq, Inhabited

namespace Stencil.Parts

/-- The first source position that does not fit 32 bits. -/
def misfit? (parts : Parts) : Option DescriptorError :=
  ([(.lineno, parts.lineno), (.column, parts.column), (.mainOffset, parts.mainOffset)].find?
    fun position => UInt32.size ≤ position.2).map
      fun position => .fieldOutOfRange position.1 position.2

/-- What a script is built from, of the fields that a revision carries. -/
def describe (revision : Revision) (parts : Parts) : Descriptor where
  revision := revision
  bytecode := parts.bytecode
  strings := if revision.hasStrings then parts.strings else []
  metadata :=
    if revision.hasMetadata then
      { lineno := .ofNat parts.lineno
        column := .ofNat parts.column
        mainOffset := .ofNat parts.mainOffset
        layout := parts.layout }
    else {}
  flags := if revision.hasFlags then parts.flags else {}

/-- A position that does not fit comes first, then a message, however empty, then the
flag that declines the source. -/
def reading (parts : Parts) : Reading :=
  match Revision.ofNumber? parts.revision with
  | .error error => .unreadable error
  | .ok revision =>
    match if revision.hasMetadata then parts.misfit? else none with
    | some error => .unreadable error
    | none =>
      match if revision.hasOutcome then parts.error else none with
      | some message => .rejected message
      | none =>
        if revision.hasOutcome && parts.unimplemented then .declined
        else .script (parts.describe revision)

/-- The parts without the fields that are newer than their revision. -/
def carried (parts : Parts) : Parts :=
  match Revision.ofNumber? parts.revision with
  | .error _ => { revision := parts.revision }
  | .ok revision =>
    let positions := if revision.hasMetadata then parts else {}
    { revision := parts.revision
      bytecode := parts.bytecode
      strings := if revision.hasStrings then parts.strings else []
      error := if revision.hasOutcome then parts.error else none
      unimplemented := revision.hasOutcome && parts.unimplemented
      lineno := positions.lineno
      column := positions.column
      mainOffset := positions.mainOffset
      layout := positions.layout
      flags := if revision.hasFlags then parts.flags else {} }

@[simp] theorem revision_carried (parts : Parts) : parts.carried.revision = parts.revision := by
  unfold carried
  split <;> rfl

/-- The metadata is read unless a position does not fit. -/
theorem readMetadata_toStencil (parts : Parts) :
    Descriptor.readMetadata parts.toStencil =
      match parts.misfit? with
      | some error => .error error
      | none => .ok
          { lineno := .ofNat parts.lineno
            column := .ofNat parts.column
            mainOffset := .ofNat parts.mainOffset
            layout := parts.layout } := by
  unfold Descriptor.readMetadata misfit? narrow
  simp only [toStencil, List.find?, ← Nat.not_lt]
  by_cases hline : parts.lineno < UInt32.size
  · by_cases hcolumn : parts.column < UInt32.size
    · by_cases hmain : parts.mainOffset < UInt32.size <;>
        simp [hline, hcolumn, hmain, bind, Except.bind, pure, Except.pure]
    · simp [hline, hcolumn, bind, Except.bind]
  · simp [hline, bind, Except.bind]

/-- A stencil is read unless a position that its revision carries does not fit. -/
theorem ofStencil?_toStencil (parts : Parts) :
    Descriptor.ofStencil? parts.toStencil =
      match Revision.ofNumber? parts.revision with
      | .error error => .error error
      | .ok revision =>
        match if revision.hasMetadata then parts.misfit? else none with
        | some error => .error error
        | none => .ok
            { parts.describe revision with
              error := (if revision.hasOutcome then parts.error else none).map Utf8.decodeLossy
              unimplemented := revision.hasOutcome && parts.unimplemented } := by
  unfold Descriptor.ofStencil?
  rw [readMetadata_toStencil]
  cases hrevision : Revision.ofNumber? parts.revision with
  | error error => simp [toStencil, hrevision, bind, Except.bind]
  | ok revision =>
      have hstrings : parts.toStencil.strings.items.map Buffer.items = parts.strings := by
        simp [toStencil, Function.comp_def, Buffer.items]
      have hmessage : (if revision.hasOutcome then
            parts.toStencil.error.toOption.map Utf8.decodeLossy else none) =
          (if revision.hasOutcome then parts.error else none).map Utf8.decodeLossy := by
        cases revision.hasOutcome <;> simp [toStencil]
      have hnumber : Revision.ofNumber? parts.toStencil.revision = .ok revision := hrevision
      simp only [hnumber, hstrings, hmessage, bind, Except.bind]
      cases hmetadata : revision.hasMetadata with
      | false => simp [describe, hmetadata, toStencil, Buffer.items, pure, Except.pure]
      | true =>
          cases parts.misfit? <;>
            simp [describe, hmetadata, toStencil, Buffer.items, pure, Except.pure]

end Stencil.Parts

namespace Context

/-- How a compilation ends whose answer amounts to that. -/
def answer (context : Context) (sourceLength : Nat) :
    Stencil.Reading → Except LinkError Compilation × Context
  | .unreadable error => (.error (.descriptor error), context)
  | .rejected message =>
    let diagnostic := .ofMessage (Utf8.decodeLossy message)
    (.error (.rejected diagnostic), { context with sink := context.sink.push diagnostic })
  | .declined => (.ok .unimplemented, context)
  | .script descriptor =>
    let made := (materialize descriptor sourceLength).ending context
    (made.1.map .compiled, made.2)

theorem ending_carryOut (descriptor : Descriptor) (sourceLength : Nat) (context : Context) :
    (carryOut descriptor sourceLength).ending context =
      match descriptor.verdict with
      | .syntaxError message =>
        (.error (.rejected (.ofMessage message)),
          { context with sink := context.sink.push (.ofMessage message) })
      | .unimplemented => (.ok .unimplemented, context)
      | .success =>
        let made := (materialize descriptor sourceLength).ending context
        (made.1.map .compiled, made.2) := by
  unfold carryOut
  cases descriptor.verdict with
  | syntaxError message => rfl
  | unimplemented => rfl
  | success =>
      dsimp only
      rw [Action.ending_bind, ending_noteExhaustion]
      cases (materialize descriptor sourceLength).ending context with
      | mk result after => cases result <;> rfl

end Context

namespace Heap

variable {heap : Heap} {script : ScriptId} {flags : ScriptFlags}

/-- A script is alive and has the flags. -/
def HasFlags (flags : ScriptFlags) (script : ScriptId) (heap : Heap) : Prop :=
  ∃ content, heap.script script = .ok content ∧ content.flags = flags

theorem HasFlags.share (h : HasFlags flags script heap) :
    (share script).Ensures heap (fun _ => HasFlags flags script) fun _ _ => True := by
  refine Action.ensures_of_ok fun _ after hending => ?_
  obtain ⟨content, hscript, hflags⟩ := h
  obtain ⟨old, object, hold, _, hafter⟩ := script_of_share hending
  obtain rfl := Except.ok.inj (hscript.symm.trans hold)
  exact ⟨_, hafter, hflags⟩

end Heap

namespace Context

end Context

/-- What is done with a context while it compiles. -/
inductive Errand where
  | compile (source : Bytes) (parts : Stencil.Parts) (route : Route)
  | setOptions (options : CompileOptions)
  /-- Whatever is done to the heap. -/
  | onHeap (change : Heap → Heap)

namespace Errand

def compilation (source : Bytes) (parts : Stencil.Parts) (route : Route) :
    Action Desk LinkError Compilation :=
  Desk.compile { frontEnd := .answering parts, route } source

def next : Errand → Desk → Desk
  | compile source parts route, desk => ((compilation source parts route).ending desk).2
  | setOptions options, desk => { desk with context := { desk.context with options } }
  | onHeap change, desk =>
    { desk with context := { desk.context with heap := change desk.context.heap } }

def nextAll (errands : List Errand) (desk : Desk) : Desk :=
  errands.foldl (fun desk errand => errand.next desk) desk

/-- What a compilation answers. -/
def result? : Errand → Desk → Option (Except LinkError Compilation)
  | compile source parts route, desk => some ((compilation source parts route).ending desk).1
  | setOptions _, _ | onHeap _, _ => none

/-- What the compilations answer, in their order. -/
def results : List Errand → Desk → List (Except LinkError Compilation)
  | [], _ => []
  | errand :: rest, desk => (errand.result? desk).toList ++ results rest (errand.next desk)

end Errand

namespace Errand

end Errand

end ScriptLinker
