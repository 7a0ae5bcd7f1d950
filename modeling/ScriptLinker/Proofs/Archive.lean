import ScriptLinker.Proofs.Outcomes
/-!
# Heaps that never collect

An archive is a heap on which nothing is ever freed and no limit applies. It files
each cell that it is asked for in a slot of its own, an atom once for each text, and
numbers no shared image. `Operation.replay` is what an operation does on an archive;
it commutes with renaming, and it is what operations on any heap come to but for
their addresses.
-/

namespace ScriptLinker

namespace Heap

variable {archive after : Heap} {cell : Cell} {id : CellId}

/-- The address of a cell that is asked for if it need not be filed. -/
def filed? (archive : Heap) : Cell → Option CellId
  | .atom text => (archive.internedAtom? text).map AtomId.id
  | _ => none

/-- The heap with a cell in a slot past the others, and in the table if it is an atom. -/
def append (cell : Cell) (archive : Heap) : Heap :=
  let appended := { archive with slots := archive.slots.push { cell := some cell } }
  match cell with
  | .atom text => appended.enterAtom text ⟨⟨archive.slots.size, 0⟩⟩
  | _ => appended

/-- The address of a cell that is asked for, and the archive that has it. -/
def file (cell : Cell) (archive : Heap) : CellId × Heap :=
  match archive.filed? cell with
  | some id => (id, archive)
  | none => (⟨archive.slots.size, 0⟩, archive.append cell)

/-- Every entry of the table of atoms names an atom of its text. -/
def Catalogued (archive : Heap) : Prop :=
  ∀ text atom, archive.internedAtom? text = some atom →
    archive.cell? atom.id = some (.atom text)

/-- What filing a cell does. -/
structure Files (archive : Heap) (cell : Cell) (id : CellId) (after : Heap) : Prop where
  vacant : archive.cell? id = none ∨
    ∃ text, cell = .atom text ∧ archive.cell? id = some cell
  cell? : ∀ other, after.cell? other = if other = id then some cell else archive.cell? other
  internedAtom? : ∀ text, after.internedAtom? text =
    if cell = .atom text then some ⟨id⟩ else archive.internedAtom? text
  rootStack : after.rootStack = archive.rootStack
  persistentRoots : after.persistentRoots = archive.persistentRoots
  freeRoots : after.freeRoots = archive.freeRoots

theorem slots_append (cell : Cell) (archive : Heap) :
    (archive.append cell).slots = archive.slots.push { cell := some cell } := by
  cases cell <;> rfl

theorem cell?_past (archive : Heap) (generation : Nat) :
    archive.cell? ⟨archive.slots.size, generation⟩ = none := by
  simp [Heap.cell?, cellAt?, slotAt?]

theorem cell?_append (cell : Cell) (archive : Heap) (id : CellId) :
    (archive.append cell).cell? id =
      if id = ⟨archive.slots.size, 0⟩ then some cell else archive.cell? id := by
  obtain ⟨index, generation⟩ := id
  simp only [Heap.cell?, cellAt?, slotAt?, slots_append, Array.getElem?_push, CellId.mk.injEq]
  by_cases hindex : index = archive.slots.size
  · by_cases hgeneration : generation = 0
    · simp [hindex, hgeneration, Option.filter]
    · simp [hindex, hgeneration, Option.filter, Ne.symm hgeneration]
  · simp [hindex]

theorem internedAtom?_append (cell : Cell) (archive : Heap) (text : String) :
    (archive.append cell).internedAtom? text =
      if cell = .atom text then some ⟨⟨archive.slots.size, 0⟩⟩
      else archive.internedAtom? text := by
  cases cell with
  | atom held =>
      by_cases htext : text = held
      · subst htext
        exact (internedAtom?_enterAtom_self _ _ _).trans (if_pos rfl).symm
      · have hne : Cell.atom held ≠ .atom text := fun heq => htext (Cell.atom.inj heq).symm
        exact (internedAtom?_enterAtom_of_ne htext _ _).trans (if_neg hne).symm
  | scope content => rfl
  | script content => rfl

theorem filed?_eq_some (h : archive.filed? cell = some id) :
    ∃ text, cell = .atom text ∧ archive.internedAtom? text = some ⟨id⟩ := by
  cases cell with
  | atom text =>
      obtain ⟨atom, hatom, rfl⟩ := Option.map_eq_some_iff.1 h
      exact ⟨text, rfl, hatom⟩
  | scope content => simp [filed?] at h
  | script content => simp [filed?] at h

/-- A cell that is asked for is at the address it is filed under, and nothing else
changes. -/
theorem files_file (h : archive.Catalogued) (cell : Cell) :
    archive.Files cell (archive.file cell).1 (archive.file cell).2 := by
  unfold file
  cases hfiled : archive.filed? cell with
  | some id =>
      obtain ⟨text, rfl, hfound⟩ := filed?_eq_some hfiled
      have hcell := h text ⟨id⟩ hfound
      dsimp only
      refine ⟨Or.inr ⟨text, rfl, hcell⟩, fun other => ?_, fun other => ?_, rfl, rfl, rfl⟩
      · split
        · rename_i heq
          rw [heq, hcell]
        · rfl
      · split
        · rename_i heq
          rw [← Cell.atom.inj heq, hfound]
        · rfl
  | none =>
      refine ⟨Or.inl (cell?_past archive 0), cell?_append cell archive,
        internedAtom?_append cell archive, ?_, ?_, ?_⟩ <;> cases cell <;> rfl

theorem Files.catalogued (hfiles : archive.Files cell id after) (h : archive.Catalogued) :
    after.Catalogued := by
  intro text atom hatom
  rw [hfiles.internedAtom?] at hatom
  rw [hfiles.cell?]
  split at hatom
  · rename_i heq
    obtain rfl := Option.some.inj hatom
    rw [if_pos rfl, heq]
  · have hcell := h text atom hatom
    split
    · rename_i hnew hid
      rcases hfiles.vacant with hnone | ⟨other, _, hsome⟩
      · simp [← hid, hcell] at hnone
      · rw [← hid, hcell] at hsome
        exact hsome.symm
    · exact hcell

theorem Catalogued.setScript (h : archive.Catalogued) {script : ScriptId} {content : Script}
    (hscript : archive.script script = .ok content) (changed : Script) :
    (archive.setScript script changed).Catalogued := by
  intro text atom hatom
  have hcell := h text atom hatom
  rw [cell?_setScript hscript, if_neg, hcell]
  intro heq
  rw [heq, (script_eq_ok_iff _ _ _).1 hscript] at hcell
  simp at hcell

/-- Whether the images that two scripts share are equal. -/
def equalImages? (archive : Heap) (left right : ScriptId) : Option Bool := do
  let left ← archive.sharedObject? left
  let right ← archive.sharedObject? right
  pure (left.image = right.image)

end Heap

namespace Operation

/-- What an operation does on an archive. -/
def replay (operation : Operation Issued) (archive : Heap) : Except HeapError Reply × Heap :=
  match operation.asked? with
  | some cell => (.ok (.cell (.ofKind cell.kind (archive.file cell).1)), (archive.file cell).2)
  | none =>
    match operation.amends? with
    | some (script, change) =>
      match archive.script script >>= change with
      | .ok changed => (.ok (operation.amended changed), archive.setScript script changed)
      | .error error => (.error error, archive)
    | none =>
      match operation with
      | .compareImages left right => (.ok (.sameImage (archive.equalImages? left right)), archive)
      | .collect | .setZeal _ | .failAfter _ => (.ok .done, archive)
      | operation => operation.run.ending archive

variable {operation : Operation Issued} {archive : Heap} {name : CellId → CellId}

theorem replay_of_asked {cell : Cell} (h : operation.asked? = some cell) (archive : Heap) :
    operation.replay archive =
      (.ok (.cell (.ofKind cell.kind (archive.file cell).1)), (archive.file cell).2) := by
  unfold replay
  rw [h]

theorem asked?_of_amends {script : ScriptId} {change : Script → Except HeapError Script}
    (h : operation.amends? = some (script, change)) : operation.asked? = none := by
  cases operation <;> first | rfl | simp [amends?] at h

theorem replay_of_amends {script : ScriptId} {change : Script → Except HeapError Script}
    (h : operation.amends? = some (script, change)) {content : Script}
    (hscript : archive.script script = .ok content) :
    operation.replay archive =
      match change content with
      | .ok changed => (.ok (operation.amended changed), archive.setScript script changed)
      | .error error => (.error error, archive) := by
  unfold replay
  rw [asked?_of_amends h, h]
  simp only [hscript, bind, Except.bind]

theorem asked?_rename (name : CellId → CellId) (operation : Operation Issued) :
    (operation.rename name).asked? = operation.asked?.map (Cell.rename name) := by
  cases operation with
  | atomize bytes =>
      simp only [rename, map, asked?, Option.map_map]
      exact congrArg (fun f => (Utf8.decode? bytes).map f) (funext fun _ => rfl)
  | _ => rfl

end Operation

namespace Script

theorem create_rename {part : ScriptPart} {install : Script → Script} (name : CellId → CellId)
    (hinstall : ∀ content : Script, install (content.rename name) = (install content).rename name)
    (content : Script) :
    create part install (content.rename name) =
      (create part install content).map (rename name) := by
  unfold create
  rw [requireMissing_rename, hinstall]
  cases content.requireMissing part <;> rfl

theorem patchImage_rename (name : CellId → CellId) (patch : ImagePatch) (content : Script) :
    patchImage patch (content.rename name) = (patchImage patch content).map (rename name) := by
  unfold patchImage
  rw [ownedImage_rename]
  cases content.ownedImage <;> rfl

theorem publish_rename (name : CellId → CellId) (content : Script) :
    (content.rename name).publish = content.publish.map (rename name) := by
  unfold publish
  rw [ownedImage_rename]
  cases content.ownedImage <;> rfl

end Script

namespace Operation

variable {operation : Operation Issued}

/-- What an operation makes of a script it makes of the renamed script when it is
renamed. -/
theorem amends?_rename {script : ScriptId} {change : Script → Except HeapError Script}
    (h : operation.amends? = some (script, change)) (name : CellId → CellId) :
    ∃ renamed, (operation.rename name).amends? = some (script.rename name, renamed) ∧
      ∀ content : Script,
        renamed (content.rename name) = (change content).map (Script.rename name) := by
  cases operation <;> cases h
  case createThings count =>
    exact ⟨_, rfl, Script.create_rename name fun content => by simp [Script.rename]⟩
  case createAtoms count =>
    exact ⟨_, rfl, Script.create_rename name fun content => by simp [Script.rename]⟩
  case createImage => exact ⟨_, rfl, Script.create_rename name fun content => rfl⟩
  case initThing index thing => exact ⟨_, rfl, Script.setThing_rename name index thing⟩
  case initAtom index atom => exact ⟨_, rfl, Script.setAtom_rename name index atom⟩
  case patchImage patch => exact ⟨_, rfl, Script.patchImage_rename name patch⟩
  case setFlags flags => exact ⟨_, rfl, Script.setFlags_rename name flags⟩
  case share => exact ⟨_, rfl, Script.publish_rename name⟩
  case fillThings scope => exact ⟨_, rfl, Script.setThing_rename name 0 (.scope scope)⟩

theorem amended_rename (name : CellId → CellId) (operation : Operation Issued) (changed : Script) :
    (operation.rename name).amended (changed.rename name) =
      (operation.amended changed).rename name := by
  obtain ⟨extent, flags, things, atoms, image⟩ := changed
  cases operation <;> cases image <;> rfl

end Operation

end ScriptLinker
