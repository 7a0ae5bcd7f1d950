import ScriptLinker.Proofs.Draft
import ScriptLinker.Proofs.Faults
import ScriptLinker.Proofs.Renaming
/-!
# What requests for cells and changes of scripts come to

Where no memory is lacking and the references are good, an operation that asks for
a cell is answered with one, an old one or a new one, and an operation on a script
replaces its content by what a function makes of it, or fails as the function does.
`Operation.asked?` and `Operation.amends?` name the cell and the function; nothing
else of the heap has a say in it, in particular not whether it collects.
-/

namespace ScriptLinker

/-- Whether an error may depend on when the heap collected: there was no room, or the
cell was gone. -/
def HeapError.ofTiming : HeapError → Bool
  | .outOfMemory => true
  | .staleReference _ => true
  | _ => false

/-- A failure for lack of room or of a cell of the right kind. -/
def Excused {α : Type} (result : Except HeapError α) : Prop :=
  ∃ error, result = .error error ∧ (error.ofTiming = true ∨ error.isWrongKind = true)

theorem Excused.map {α β : Type} {result : Except HeapError α} (h : Excused result) (f : α → β) :
    Excused (result.map f) := by
  obtain ⟨error, rfl, herror⟩ := h
  exact ⟨error, rfl, herror⟩

namespace Script

/-- Adds a part to a script that lacks it. -/
def create (part : ScriptPart) (install : Script → Script) (content : Script) :
    Except HeapError Script := do
  content.requireMissing part
  pure (install content)

def patchImage (patch : ImagePatch) (content : Script) : Except HeapError Script := do
  let image ← content.ownedImage
  pure { content with image := .owned (image.apply patch) }

/-- Makes the image of a script a shared one; its number is left open. -/
def publish (content : Script) : Except HeapError Script := do
  let image ← content.ownedImage
  pure { content with image := .shared { serial := 0, image } }

end Script

namespace Operation

/-- The script that an operation changes, and what it makes of its content. -/
def amends? : Operation Issued → Option (ScriptId × (Script → Except HeapError Script))
  | .createThings script count => some (script, Script.create .things fun content =>
      { content with things := some (List.replicate count none) })
  | .createAtoms script count => some (script, Script.create .atoms fun content =>
      { content with atoms := some (List.replicate count none) })
  | .createImage script codeLength noteLength => some (script, Script.create .image fun content =>
      { content with image := .owned (.blank codeLength noteLength) })
  | .initThing script index thing => some (script, Script.setThing index thing)
  | .initAtom script index atom => some (script, Script.setAtom index atom)
  | .patchImage script patch => some (script, Script.patchImage patch)
  | .setFlags script flags => some (script, Script.setFlags flags)
  | .share script => some (script, Script.publish)
  | .fillThings script scope => some (script, Script.setThing 0 (.scope scope))
  | _ => none

/-- The answer to an operation that changed a script. -/
def amended (operation : Operation Issued) (changed : Script) : Reply :=
  match operation, changed.image with
  | .patchImage _ _, .owned image => .image image
  | _, _ => .done

end Operation

namespace Heap

variable {heap : Heap} {script : ScriptId}

/-- How a change of a script ends that is not excused: as the change does, and with
its content replaced, but for the number of a shared image. -/
inductive Amends (heap : Heap) (script : ScriptId) (change : Script → Except HeapError Script) :
    Except HeapError Script → Heap → Prop where
  | refused {content : Script} {error : HeapError} : heap.script script = .ok content →
      change content = .error error → Amends heap script change (.error error) heap
  | changed {content changed final : Script} {ready after : Heap} {recharge : Nat → Nat} :
      heap.script script = .ok content → change content = .ok changed →
      (∀ name, final.rename name = changed.rename name) → heap.Keeps ready → ready.Sound →
      ready.script script = .ok content → ready.Rewrites script final recharge after →
      Amends heap script change (.ok changed) after

/-- An ending is excused, with room made at most, or it is that of a change. -/
def Amending {α : Type} (heap : Heap) (script : ScriptId)
    (change : Script → Except HeapError Script) (answer : Script → α)
    (ending : Except HeapError α × Heap) : Prop :=
  Excused ending.1 ∧ heap.Keeps ending.2 ∨
    ∃ result, heap.Amends script change result ending.2 ∧ ending.1 = result.map answer

theorem excused_of_lookUp {α : Type} {ref : CellRef} {error : HeapError}
    (h : heap.lookUp ref = .error error) : Excused (.error error : Except HeapError α) := by
  rw [lookUp_eq] at h
  split at h
  · exact ⟨_, rfl, Or.inl (Except.error.inj h ▸ rfl)⟩
  · split at h
    · simp at h
    · exact ⟨_, rfl, Or.inr (Except.error.inj h ▸ rfl)⟩

theorem excused_of_reserve {α : Type} {bytes : Nat} {after : Heap} {error : HeapError}
    (h : (reserve bytes).ending heap = (.error error, after)) :
    Excused (.error error : Except HeapError α) :=
  ⟨_, rfl, Or.inl (error_of_reserve h ▸ rfl)⟩

theorem amending_of_lookUp {α : Type} {change : Script → Except HeapError Script}
    {answer : Script → α} {ref : CellRef} {error : HeapError} (h : heap.lookUp ref = .error error) :
    heap.Amending script change answer (.error error, heap) :=
  Or.inl ⟨excused_of_lookUp h, .refl heap⟩

theorem amending_createPart (h : heap.Sound) (script : ScriptId) (part : ScriptPart) (bytes : Nat)
    (install : Script → Script) :
    heap.Amending script (Script.create part install) (fun _ => ())
      ((createPart script part bytes install).ending heap) := by
  rw [ending_createPart]
  cases hscript : heap.script script with
  | error error => exact amending_of_lookUp (lookUp_of_script_error hscript)
  | ok content =>
      dsimp only
      cases hmissing : content.requireMissing part with
      | error error =>
          exact Or.inr ⟨_, .refused hscript (by rw [Script.create, hmissing]; rfl), rfl⟩
      | ok done =>
          cases hreserve : (reserve bytes).ending heap with
          | mk result ready =>
              have hkeeps := keeps_of_reserve hreserve
              cases result with
              | error error => exact Or.inl ⟨excused_of_reserve hreserve, hkeeps⟩
              | ok done =>
                  dsimp only
                  by_cases hlive : ready.isLive script.id = true
                  · rw [if_pos hlive]
                    refine Or.inr ⟨.ok (install content), ?_, rfl⟩
                    exact .changed hscript (by rw [Script.create, hmissing]; rfl) (fun _ => rfl)
                      hkeeps (h.reserve hreserve) (script_of_reserve hreserve hscript hlive)
                      (rewrites_create ready script _ bytes)
                  · rw [if_neg hlive]
                    exact Or.inl ⟨⟨_, rfl, Or.inl rfl⟩, hkeeps⟩

theorem amending_updateScript (h : heap.Sound) (script : ScriptId)
    (change : Script → Except HeapError Script) :
    heap.Amending script change (fun _ => ()) ((updateScript script change).ending heap) := by
  rw [ending_updateScript]
  cases hscript : heap.script script with
  | error error => exact amending_of_lookUp (lookUp_of_script_error hscript)
  | ok content =>
      dsimp only
      cases hchange : change content with
      | error error => exact Or.inr ⟨_, .refused hscript hchange, rfl⟩
      | ok changed =>
          exact Or.inr ⟨_, .changed hscript hchange (fun _ => rfl) (.refl heap) h hscript
            (rewrites_setScript heap script changed), rfl⟩

theorem amending_storeRef (h : heap.Sound) (script : ScriptId) (ref : CellRef)
    (install : Script → Except HeapError Script) :
    heap.Amending script install (fun _ => ()) ((storeRef script ref install).ending heap) := by
  rw [ending_storeRef]
  by_cases hlive : heap.isLive ref.id = true
  · rw [if_pos hlive]
    cases hscript : heap.script script with
    | error error => exact amending_of_lookUp (lookUp_of_script_error hscript)
    | ok content =>
        dsimp only
        cases hinstall : install content with
        | error error => exact Or.inr ⟨_, .refused hscript hinstall, rfl⟩
        | ok changed =>
            exact Or.inr ⟨_, .changed hscript hinstall (fun _ => rfl) (.refl heap) h hscript
              (rewrites_store heap script changed ref), rfl⟩
  · rw [if_neg hlive]
    exact Or.inl ⟨⟨_, rfl, Or.inl rfl⟩, .refl heap⟩

theorem amending_share (h : heap.Sound) (script : ScriptId) :
    heap.Amending script Script.publish (fun _ => ()) ((share script).ending heap) := by
  rw [ending_share]
  cases hscript : heap.script script with
  | error error => exact amending_of_lookUp (lookUp_of_script_error hscript)
  | ok content =>
      dsimp only
      cases himage : content.ownedImage with
      | error error =>
          exact Or.inr ⟨_, .refused hscript (by rw [Script.publish, himage]; rfl), rfl⟩
      | ok image =>
          cases hreserve : (reserve Charge.hold).ending heap with
          | mk result ready =>
              have hkeeps := keeps_of_reserve hreserve
              cases result with
              | error error => exact Or.inl ⟨excused_of_reserve hreserve, hkeeps⟩
              | ok done =>
                  dsimp only
                  by_cases hlive : ready.isLive script.id = true
                  · rw [if_pos hlive]
                    have hready := script_of_reserve hreserve hscript hlive
                    have hchange : content.publish =
                        .ok { content with image := .shared { serial := 0, image } } := by
                      rw [Script.publish, himage]
                      rfl
                    refine Or.inr ⟨_, .changed hscript hchange (fun name => ?_)
                      hkeeps (h.reserve hreserve) hready (rewrites_share hready image _), rfl⟩
                    simp only [Script.rename, ImageState.unnumbered, image_shelved]
                  · rw [if_neg hlive]
                    exact Or.inl ⟨⟨_, rfl, Or.inl rfl⟩, hkeeps⟩

/-- Only the answer is different where an action is followed by one. -/
theorem Amending.bind_pure {action : Action Heap HeapError Unit}
    {change : Script → Except HeapError Script} {answer : Reply}
    (h : heap.Amending script change (fun _ => ()) (action.ending heap)) :
    heap.Amending script change (fun _ => answer)
      ((action >>= fun _ => pure answer).ending heap) := by
  rw [Action.ending_bind]
  cases hending : action.ending heap with
  | mk result after =>
      rw [hending] at h
      rcases h with ⟨⟨error, hresult, herror⟩, hkeeps⟩ | ⟨last, hamends, hresult⟩
      · obtain rfl : result = .error error := hresult
        exact Or.inl ⟨⟨error, rfl, herror⟩, hkeeps⟩
      · obtain rfl : result = last.map _ := hresult
        cases last with
        | error error => exact Or.inr ⟨_, hamends, rfl⟩
        | ok changed => exact Or.inr ⟨_, hamends, rfl⟩

theorem amending_patchImage (h : heap.Sound) (script : ScriptId) (patch : ImagePatch) :
    heap.Amending script (Script.patchImage patch) (Operation.patchImage script patch).amended
      ((Operation.patchImage script patch).run.ending heap) := by
  change heap.Amending _ _ _ ((modifyImage script (ScriptImage.apply patch) >>= _).ending heap)
  rw [Action.ending_bind, modifyImage, ending_updateScript]
  cases hscript : heap.script script with
  | error error => exact amending_of_lookUp (lookUp_of_script_error hscript)
  | ok content =>
      dsimp only
      cases himage : content.ownedImage with
      | error error =>
          exact Or.inr ⟨_, .refused hscript (by rw [Script.patchImage, himage]; rfl), rfl⟩
      | ok image =>
          have hchange : content.patchImage patch =
              .ok { content with image := .owned (image.apply patch) } := by
            rw [Script.patchImage, himage]
            rfl
          have hafter : (heap.setScript script
              { content with image := .owned (image.apply patch) }).script script = .ok _ :=
            (script_eq_ok_iff _ _ _).2 ((cell?_setScript hscript _ _).trans (if_pos rfl))
          simp only [bind, Except.bind, pure, Except.pure]
          change heap.Amending _ _ _ ((Action.read _ >>= _).ending _)
          rw [Action.ending_bind, Action.ending_read, ownedImage_eq hafter]
          exact Or.inr ⟨_, .changed hscript hchange (fun _ => rfl) (.refl heap) h hscript
            (rewrites_setScript heap script _), rfl⟩

theorem amending_fillThings (h : heap.Sound) (script : ScriptId) (scope : ScopeId) :
    heap.Amending script (Script.setThing 0 (.scope scope)) (fun _ => ())
      ((fillThings .ofGlobalScript script scope).ending heap) := by
  rw [ending_fillThings]
  cases hscope : heap.scope scope with
  | error error => exact amending_of_lookUp (lookUp_of_scope_error hscope)
  | ok content => exact amending_storeRef h script _ _

end Heap

namespace Operation

open Heap (Keeps Birth Amending)

variable {heap : Heap} {operation : Operation Issued}

/-- An operation on a script changes it as `amends?` says. -/
theorem amending_run {script : ScriptId} {change : Script → Except HeapError Script}
    (h : heap.Sound) (hamends : operation.amends? = some (script, change)) :
    heap.Amending script change operation.amended (operation.run.ending heap) := by
  cases operation <;> cases hamends
  case createThings | createAtoms | createImage =>
    exact (Heap.amending_createPart h _ _ _ _).bind_pure
  case initThing | initAtom => exact (Heap.amending_storeRef h _ _ _).bind_pure
  case patchImage => exact Heap.amending_patchImage h _ _
  case setFlags => exact (Heap.amending_updateScript h _ _).bind_pure
  case share => exact (Heap.amending_share h _).bind_pure
  case fillThings => exact (Heap.amending_fillThings h _ _).bind_pure

end Operation

namespace Heap

/-- How an operation that asks for a cell ends that is not excused, with the cell it
places and the address it answers: with an atom that is there already, or with a new
cell. -/
inductive Bears (heap : Heap) (cell : Cell) : Option Issue → CellId → Heap → Prop where
  | found {id : CellId} {text : String} : cell = .atom text → heap.cell? id = some cell →
      Bears heap cell none id heap
  | placed {ready after : Heap} {id : CellId} : heap.Keeps ready → ready.Sound →
      Birth ready ⟨id, cell⟩ after → Bears heap cell (some ⟨id, cell⟩) id after

variable {heap after : Heap} {cell : Cell} {id : CellId}

theorem excused_of_allocate {α : Type} {bytes : Nat} {error : HeapError}
    (h : (allocate cell bytes).ending heap = (.error error, after)) :
    Excused (.error error : Except HeapError α) :=
  ⟨_, rfl, Or.inl ((error_of_allocate h).1 ▸ rfl)⟩

theorem placed?_of_allocate (hlacks : heap.lacks cell = true)
    (h : (allocate cell cell.charge).ending heap = (.ok id, after)) :
    heap.placed? cell = some ⟨id, cell⟩ := by
  rw [placed?, if_pos hlacks, h]

theorem bears_of_allocate (hsound : heap.Sound) (hplain : ∀ text, cell ≠ .atom text)
    (h : (allocate cell cell.charge).ending heap = (.ok id, after)) :
    heap.Bears cell (heap.placed? cell) id after := by
  have hlacks : heap.lacks cell = true := by
    cases cell with
    | atom text => exact absurd rfl (hplain text)
    | scope content => rfl
    | script content => rfl
  obtain ⟨ready, hkeeps, hready, hplaces, _⟩ :=
    (ensures_allocate hsound cell cell.charge).of_ok h
  rw [placed?_of_allocate hlacks h]
  exact .placed hkeeps hready (.plain hplain hplaces)

/-- An ending is excused, with room made at most, or the cell is there. -/
def Bearing {α : Type} (heap : Heap) (cell : Cell) (answer : CellId → α)
    (ending : Except HeapError α × Heap) : Prop :=
  Excused ending.1 ∧ heap.Keeps ending.2 ∨
    ∃ id, ending.1 = .ok (answer id) ∧ heap.Bears cell (heap.placed? cell) id ending.2

theorem bearing_intern (hsound : heap.Sound) (text : String) :
    heap.Bearing (.atom text) AtomId.mk ((intern text).ending heap) := by
  have hlacks : heap.lacks (.atom text) = (heap.internedAtom? text).isNone := by
    rw [lacks, hsound.atoms.filter_internedAtom?]
  rw [ending_intern, hsound.atoms.filter_internedAtom?]
  cases hfound : heap.internedAtom? text with
  | some old =>
      rw [hfound] at hlacks
      have hplaced : heap.placed? (.atom text) = none := by
        rw [placed?, hlacks]
        rfl
      refine Or.inr ⟨old.id, rfl, ?_⟩
      rw [hplaced]
      exact .found rfl ((hsound.atoms.internedAtom?_eq_some_iff text old).1 hfound)
  | none =>
      rw [hfound] at hlacks
      have hallocate := ensures_allocate hsound (.atom text) (Charge.atom text)
      unfold Action.Ensures at hallocate
      dsimp only
      cases hending : (allocate (.atom text) (Charge.atom text)).ending heap with
      | mk result after =>
          rw [hending] at hallocate
          cases result with
          | error error => exact Or.inl ⟨excused_of_allocate hending, hallocate.1⟩
          | ok id =>
              obtain ⟨ready, hkeeps, hready, hplaces, _⟩ := hallocate
              have habsent : ready.internedAtom? text = none := by
                rw [hsound.atoms.internedAtom?_eq_none_iff] at hfound
                rw [hready.atoms.internedAtom?_eq_none_iff]
                exact fun other hother => hfound other (hkeeps.cell?_of_cell? other _ hother)
              refine Or.inr ⟨id, rfl, ?_⟩
              rw [placed?_of_allocate hlacks hending]
              exact .placed hkeeps hready (.atom habsent hplaces)

end Heap

namespace Operation

variable {heap : Heap} {operation : Operation Issued} {cell : Cell}

/-- An operation that asks for a cell is answered with its address. -/
theorem bears_run (h : heap.Sound) (hasked : operation.asked? = some cell) :
    Excused (operation.run.ending heap).1 ∨
      ∃ id, (operation.run.ending heap).1 = .ok (.cell (.ofKind cell.kind id)) ∧
        heap.Bears cell ((Request.perform operation).born? heap) id
          (operation.run.ending heap).2 := by
  have hborn : (Request.perform operation).born? heap = heap.placed? cell := by
    rw [Request.born?, Request.asked?, hasked, Option.bind_some]
  rw [hborn]
  cases operation with
  | allocScope kind enclosing =>
      obtain rfl := Option.some.inj hasked
      rw [run, Action.ending_bind, Heap.allocScope, Action.ending_bind]
      cases hending : (Heap.allocate (.scope { kind, enclosing }) Charge.scope).ending heap with
      | mk result after =>
          cases result with
          | error error => exact Or.inl (Heap.excused_of_allocate hending)
          | ok id =>
              have hbears := Heap.bears_of_allocate h (by simp) hending
              cases enclosing with
              | none => exact Or.inr ⟨id, rfl, hbears⟩
              | some outer =>
                  dsimp only
                  rw [Action.ending_bind, Action.ending_read]
                  cases houter : after.scope outer with
                  | error error =>
                      exact Or.inl (Heap.excused_of_lookUp (Heap.lookUp_of_scope_error houter))
                  | ok content => exact Or.inr ⟨id, rfl, hbears⟩
  | allocScript extent =>
      obtain rfl := Option.some.inj hasked
      rw [run, Action.ending_bind, Heap.allocScript, Action.ending_bind]
      cases hending : (Heap.allocate (.script { extent }) Charge.script).ending heap with
      | mk result after =>
          cases result with
          | error error => exact Or.inl (Heap.excused_of_allocate hending)
          | ok id => exact Or.inr ⟨id, rfl, Heap.bears_of_allocate h (by simp) hending⟩
  | atomize bytes =>
      obtain ⟨text, hdecode, rfl⟩ := Option.map_eq_some_iff.1 hasked
      have hbearing := Heap.bearing_intern h text
      rw [run, Action.ending_bind, Heap.atomize, hdecode]
      dsimp only
      cases hending : (Heap.intern text).ending heap with
      | mk result after =>
          rw [hending] at hbearing
          rcases hbearing with ⟨⟨error, rfl, herror⟩, _⟩ | ⟨id, rfl, hbears⟩
          · exact Or.inl ⟨error, rfl, herror⟩
          · exact Or.inr ⟨id, rfl, hbears⟩
  | _ => simp [asked?] at hasked

end Operation

end ScriptLinker
