import ScriptLinker.Proofs.Revision
import ScriptLinker.Session.Workspace
/-!
# Renaming addresses

`rename` replaces the addresses in a cell, an operation or a reply by others, and
forgets the numbers of shared images. What operations do to a script commutes with
it. A client that keeps its references in registers is shown nothing that depends
on the addresses but for liveness and the store buffer; the rest of a reply, with
all addresses made equal, is its `view`.
-/

namespace ScriptLinker

variable {name other : CellId → CellId}

def AtomId.rename (name : CellId → CellId) (atom : AtomId) : AtomId := ⟨name atom.id⟩

def ScopeId.rename (name : CellId → CellId) (scope : ScopeId) : ScopeId := ⟨name scope.id⟩

def ScriptId.rename (name : CellId → CellId) (script : ScriptId) : ScriptId := ⟨name script.id⟩

namespace CellRef

def rename (name : CellId → CellId) (ref : CellRef) : CellRef :=
  .ofKind ref.kind (name ref.id)

@[simp] theorem id_rename (name : CellId → CellId) (ref : CellRef) :
    (ref.rename name).id = name ref.id :=
  id_ofKind _ _

theorem rename_congr {ref : CellRef} (h : other ref.id = name ref.id) :
    ref.rename other = ref.rename name := by
  rw [rename, rename, h]

@[simp] theorem rename_rename (ref : CellRef) :
    (ref.rename name).rename other = ref.rename fun id => other (name id) := by
  cases ref <;> rfl

theorem rename_ofKind (name : CellId → CellId) (kind : CellKind) (id : CellId) :
    (ofKind kind id).rename name = ofKind kind (name id) := by
  cases kind <;> rfl

end CellRef

def Scope.rename (name : CellId → CellId) (scope : Scope) : Scope :=
  { scope with enclosing := scope.enclosing.map (ScopeId.rename name) }

@[simp] theorem Scope.rename_rename (name other : CellId → CellId) (scope : Scope) :
    (scope.rename name).rename other = scope.rename fun id => other (name id) := by
  cases scope with
  | mk kind enclosing => cases enclosing <;> rfl

/-- The state of an image without the number it is shared under. -/
def ImageState.unnumbered : ImageState → ImageState
  | .absent => .absent
  | .owned image => .owned image
  | .shared object => .shared { object with serial := 0 }

namespace Script

def rename (name : CellId → CellId) (script : Script) : Script :=
  { script with
    things := script.things.map (List.map (Option.map (CellRef.rename name)))
    atoms := script.atoms.map (List.map (Option.map (AtomId.rename name)))
    image := script.image.unnumbered }

@[simp] theorem rename_rename (name other : CellId → CellId) (script : Script) :
    (script.rename name).rename other = script.rename fun id => other (name id) := by
  obtain ⟨extent, flags, things, atoms, image⟩ := script
  have hatom : ∀ atom : AtomId, (atom.rename name).rename other =
      atom.rename fun id => other (name id) := fun _ => rfl
  have himage : image.unnumbered.unnumbered = image.unnumbered := by cases image <;> rfl
  simp [rename, Function.comp_def, hatom, himage]

theorem isSealed_rename (name : CellId → CellId) (script : Script) :
    (script.rename name).isSealed = script.isSealed := by
  obtain ⟨extent, flags, things, atoms, image⟩ := script
  cases image <;> rfl

theorem has_rename (name : CellId → CellId) (script : Script) (part : ScriptPart) :
    (script.rename name).has part = script.has part := by
  obtain ⟨extent, flags, things, atoms, image⟩ := script
  cases part with
  | things => cases things <;> rfl
  | atoms => cases atoms <;> rfl
  | image => cases image <;> rfl

theorem requireUnsealed_rename (name : CellId → CellId) (script : Script) :
    (script.rename name).requireUnsealed = script.requireUnsealed := by
  rw [requireUnsealed, isSealed_rename, requireUnsealed]

theorem requireMissing_rename (name : CellId → CellId) (script : Script) (part : ScriptPart) :
    (script.rename name).requireMissing part = script.requireMissing part := by
  rw [requireMissing, requireUnsealed_rename, has_rename, requireMissing]

theorem ownedImage_rename (name : CellId → CellId) (script : Script) :
    (script.rename name).ownedImage = script.ownedImage := by
  obtain ⟨extent, flags, things, atoms, image⟩ := script
  cases image <;> rfl

theorem setSlot_map {α β : Type} (table : SlotTable) (slots : List (Option α)) (index : Nat)
    (value : α) (f : α → β) :
    setSlot table (slots.map (Option.map f)) index (f value) =
      (setSlot table slots index value).map (List.map (Option.map f)) := by
  unfold setSlot
  by_cases hindex : index < slots.length <;> simp [hindex, Except.map, List.map_set]

theorem setThing_rename (name : CellId → CellId) (index : Nat) (thing : CellRef)
    (script : Script) :
    setThing index (thing.rename name) (script.rename name) =
      (setThing index thing script).map (rename name) := by
  unfold setThing
  rw [requireUnsealed_rename]
  cases script.requireUnsealed with
  | error error => rfl
  | ok done =>
      cases hthings : script.things with
      | none => simp [rename, hthings, bind, Except.bind, Except.map]
      | some slots =>
          simp only [rename, hthings, bind, Except.bind, Option.map_some, setSlot_map]
          cases setSlot .things slots index thing <;> rfl

theorem setAtom_rename (name : CellId → CellId) (index : Nat) (atom : AtomId)
    (script : Script) :
    setAtom index (atom.rename name) (script.rename name) =
      (setAtom index atom script).map (rename name) := by
  unfold setAtom
  rw [requireUnsealed_rename]
  cases script.requireUnsealed with
  | error error => rfl
  | ok done =>
      cases hatoms : script.atoms with
      | none => simp [rename, hatoms, bind, Except.bind, Except.map]
      | some slots =>
          simp only [rename, hatoms, bind, Except.bind, Option.map_some, setSlot_map]
          cases setSlot .atoms slots index atom <;> rfl

theorem setFlags_rename (name : CellId → CellId) (flags : ScriptFlags) (script : Script) :
    setFlags flags (script.rename name) = (setFlags flags script).map (rename name) := by
  unfold setFlags
  rw [requireUnsealed_rename]
  cases script.requireUnsealed <;> rfl

theorem rename_congr {script : Script}
    (h : ∀ ref ∈ (Cell.script script).references, other ref.id = name ref.id) :
    script.rename other = script.rename name := by
  have hthings : script.things.map (List.map (Option.map (CellRef.rename other))) =
      script.things.map (List.map (Option.map (CellRef.rename name))) := by
    cases hslots : script.things with
    | none => rfl
    | some slots =>
        refine congrArg some (List.map_congr_left fun slot hslot => ?_)
        refine Option.map_congr fun ref href => CellRef.rename_congr (h ref ?_)
        exact (Cell.mem_references_script _ _).2
          (Or.inl (by simpa [thingSlots, hslots, ← href] using hslot))
  have hatoms : script.atoms.map (List.map (Option.map (AtomId.rename other))) =
      script.atoms.map (List.map (Option.map (AtomId.rename name))) := by
    cases hslots : script.atoms with
    | none => rfl
    | some slots =>
        refine congrArg some (List.map_congr_left fun slot hslot => ?_)
        refine Option.map_congr fun atom hatom => congrArg AtomId.mk (h (.atom atom) ?_)
        exact Cell.mem_references_of_atom (by simpa [atomSlots, hslots, ← hatom] using hslot)
  rw [rename, rename, hthings, hatoms]

end Script

namespace Cell

def rename (name : CellId → CellId) : Cell → Cell
  | .atom text => .atom text
  | .scope content => .scope (content.rename name)
  | .script content => .script (content.rename name)

@[simp] theorem kind_rename (name : CellId → CellId) (cell : Cell) :
    (cell.rename name).kind = cell.kind := by
  cases cell <;> rfl

theorem rename_eq_atom_iff (name : CellId → CellId) (cell : Cell) (text : String) :
    cell.rename name = .atom text ↔ cell = .atom text := by
  cases cell <;> simp [rename]

/-- Only the addresses that a cell holds matter. -/
theorem rename_congr {cell : Cell} (h : ∀ ref ∈ cell.references, other ref.id = name ref.id) :
    cell.rename other = cell.rename name := by
  cases cell with
  | atom text => rfl
  | scope content =>
      refine congrArg Cell.scope (congrArg (fun enclosing => { content with enclosing }) ?_)
      refine Option.map_congr fun outer houter => congrArg ScopeId.mk (h (.scope outer) ?_)
      simp [references, houter]
  | script content => exact congrArg Cell.script (Script.rename_congr h)

end Cell

/-- Renames what a register can hold; the handles of roots stay. -/
def Issued.rename (name : CellId → CellId) : (sort : RefSort) → Issued sort → Issued sort
  | .atom, atom => AtomId.rename name atom
  | .scope, scope => ScopeId.rename name scope
  | .script, script => ScriptId.rename name script
  | .cell, ref => CellRef.rename name ref
  | .root, root => root

namespace Operation

variable {Ref Ref' : RefSort → Type} {ε : Type}

/-- Replaces every reference. -/
def map (f : ∀ sort, Ref sort → Ref' sort) : Operation Ref → Operation Ref'
  | allocScope kind enclosing => allocScope kind (enclosing.map (f .scope))
  | atomize bytes => atomize bytes
  | allocScript extent => allocScript extent
  | createThings script count => createThings (f .script script) count
  | createAtoms script count => createAtoms (f .script script) count
  | createImage script codeLength noteLength => createImage (f .script script) codeLength noteLength
  | initThing script index thing => initThing (f .script script) index (f .cell thing)
  | initAtom script index atom => initAtom (f .script script) index (f .atom atom)
  | patchImage script patch => patchImage (f .script script) patch
  | setFlags script flags => setFlags (f .script script) flags
  | share script => share (f .script script)
  | readScript script => readScript (f .script script)
  | compareImages left right => compareImages (f .script left) (f .script right)
  | readAtom atom => readAtom (f .atom atom)
  | readScope scope => readScope (f .scope scope)
  | askLive cell => askLive (f .cell cell)
  | addRoot cell => addRoot (f .cell cell)
  | readRoot root => readRoot (f .root root)
  | removeRoot root => removeRoot (f .root root)
  | collect => collect
  | setZeal on => setZeal on
  | failAfter count => failAfter count
  | recordStore owner target => recordStore (f .cell owner) (f .cell target)
  | readStores => readStores
  | readPlan => readPlan
  | planThing scope => planThing (f .scope scope)
  | fillThings script scope => fillThings (f .script script) (f .scope scope)

/-- Looking up one reference, when what is found is changed. -/
theorem map_found {α β γ δ : Type} {found : Except ε α} {f : α → β} {make : α → γ}
    {make' : β → δ} {g : γ → δ} (h : ∀ value, make' (f value) = g (make value)) :
    (found.map f >>= fun value => pure (make' value)) =
      (found >>= fun value => pure (make value)).map g := by
  cases found with
  | error error => rfl
  | ok value => exact congrArg Except.ok (h value)

/-- Looking up two references. -/
theorem map_found_two {α α' β β' γ δ : Type} {found : Except ε α} {found' : Except ε α'}
    {f : α → β} {f' : α' → β'} {make : α → α' → γ} {make' : β → β' → δ} {g : γ → δ}
    (h : ∀ first second, make' (f first) (f' second) = g (make first second)) :
    (found.map f >>= fun first => found'.map f' >>= fun second => pure (make' first second)) =
      (found >>= fun first => found' >>= fun second => pure (make first second)).map g := by
  cases found with
  | error error => rfl
  | ok first => exact map_found (h first)

/-- References that are found in another form make the operation of that form. -/
theorem resolve_map {find : ∀ sort, Named sort → Except ε (Ref sort)}
    (f : ∀ sort, Ref sort → Ref' sort) (operation : Operation Named) :
    operation.resolve (fun sort register => (find sort register).map (f sort)) =
      (operation.resolve find).map (map f) := by
  cases operation with
  | allocScope kind enclosing =>
      cases enclosing with
      | none => rfl
      | some outer => exact map_found fun _ => rfl
  | createThings | createAtoms | createImage | patchImage | setFlags | share | readScript
  | readAtom | readScope | planThing | askLive | addRoot | readRoot | removeRoot =>
      exact map_found fun _ => rfl
  | initThing | initAtom | compareImages | recordStore | fillThings =>
      exact map_found_two fun _ _ => rfl
  | _ => rfl

def rename (name : CellId → CellId) : Operation Issued → Operation Issued :=
  map (Issued.rename name)

end Operation

def ScriptReport.rename (name : CellId → CellId) (report : ScriptReport) : ScriptReport where
  script := report.script.rename name
  atomTexts := report.atomTexts.map (Option.map fun entry => (entry.1.rename name, entry.2))

@[simp] theorem ScriptReport.rename_rename (name other : CellId → CellId) (report : ScriptReport) :
    (report.rename name).rename other = report.rename fun id => other (name id) := by
  have hatom : ∀ atom : AtomId, (atom.rename name).rename other =
      atom.rename fun id => other (name id) := fun _ => rfl
  simp [rename, Function.comp_def, hatom]

namespace Reply

def rename (name : CellId → CellId) : Reply → Reply
  | .cell ref => .cell (ref.rename name)
  | .rooted ref => .rooted (ref.map (CellRef.rename name))
  | .script report => .script (report.rename name)
  | .scope content => .scope (content.rename name)
  | .stores entries => .stores (entries.map fun entry => (name entry.1, entry.2.rename name))
  | reply => reply

/-- What a reply shows apart from addresses, liveness and the store buffer. -/
def view : Reply → Reply
  | .truth _ => .done
  | .stores _ => .done
  | reply => reply.rename fun _ => default

theorem view_rename (name : CellId → CellId) (reply : Reply) :
    (reply.rename name).view = reply.view := by
  cases reply with
  | rooted ref => cases ref <;> simp [rename, view]
  | script report => simp [rename, view]
  | scope content => simp [rename, view]
  | cell ref => simp [rename, view]
  | _ => rfl

end Reply

def Binding.rename (name : CellId → CellId) : Binding → Binding
  | .cell ref => .cell (ref.rename name)
  | .root issued => .root issued

namespace Registers

/-- Renames the addresses that registers hold; the names of the registers stay. -/
def rename (name : CellId → CellId) (registers : Registers) : Registers where
  bindings := registers.bindings.map fun entry => (entry.1, entry.2.rename name)

theorem find?_rename (name : CellId → CellId) (registers : Registers) (register : String) :
    (registers.rename name).find? register =
      (registers.find? register).map (Binding.rename name) := by
  obtain ⟨bindings⟩ := registers
  simp only [find?, rename]
  induction bindings with
  | nil => rfl
  | cons entry rest ih =>
      obtain ⟨key, binding⟩ := entry
      simp only [List.map_cons, List.lookup_cons, ih]
      cases register == key <;> rfl

theorem issued?_rename (name : CellId → CellId) (sort : RefSort) (binding : Binding) :
    issued? sort (binding.rename name) = (issued? sort binding).map (Issued.rename name sort) := by
  cases binding with
  | cell ref => cases sort <;> cases ref <;> rfl
  | root issued => cases sort <;> rfl

theorem find_rename (name : CellId → CellId) (registers : Registers) (sort : RefSort)
    (register : String) :
    (registers.rename name).find sort register =
      (registers.find sort register).map (Issued.rename name sort) := by
  unfold find
  rw [find?_rename]
  cases registers.find? register with
  | none => rfl
  | some binding =>
      simp only [Option.map_some, issued?_rename]
      cases issued? sort binding <;> rfl

theorem bind_rename (name : CellId → CellId) (register : String) (binding : Binding)
    (registers : Registers) :
    (registers.bind register binding).rename name =
      (registers.rename name).bind register (binding.rename name) := by
  simp [bind, rename, Keyed.put, Keyed.erase, List.filter_map, Function.comp_def]

/-- What a register keeps of a reply is renamed with it. -/
theorem keep_rename (name : CellId → CellId) (register : Option String) (reply : Reply)
    (registers : Registers) :
    (registers.keep register reply).rename name =
      (registers.rename name).keep register (reply.rename name) := by
  cases register with
  | none => rfl
  | some register =>
      cases reply with
      | cell ref => exact bind_rename name register (.cell ref) registers
      | root issued => exact bind_rename name register (.root issued) registers
      | _ => rfl

end Registers

end ScriptLinker
