import ScriptLinker.Proofs.Outcomes
import ScriptLinker.Proofs.Persistence
/-!
# Sealing is final

No step in the building of a script applies to one that is sealed, so a sealed script
that lives on is the script that was sealed. What it refers to lives on with it, and
atoms are never revised, so that their texts stay too. Every operation that would
change it fails before it touches the heap.
-/

namespace ScriptLinker

namespace Script

variable {content : Script}

theorem requireUnsealed_of_sealed (h : content.isSealed = true) :
    content.requireUnsealed = .error .scriptSealed := by
  rw [requireUnsealed, if_pos h]

theorem requireMissing_of_sealed (h : content.isSealed = true) (part : ScriptPart) :
    content.requireMissing part = .error .scriptSealed := by
  rw [requireMissing, requireUnsealed_of_sealed h]
  rfl

theorem setThing_of_sealed (h : content.isSealed = true) (index : Nat) (ref : CellRef) :
    content.setThing index ref = .error .scriptSealed := by
  rw [setThing, requireUnsealed_of_sealed h]
  rfl

theorem setAtom_of_sealed (h : content.isSealed = true) (index : Nat) (atom : AtomId) :
    content.setAtom index atom = .error .scriptSealed := by
  rw [setAtom, requireUnsealed_of_sealed h]
  rfl

theorem setFlags_of_sealed (h : content.isSealed = true) (flags : ScriptFlags) :
    content.setFlags flags = .error .scriptSealed := by
  rw [setFlags, requireUnsealed_of_sealed h]
  rfl

theorem isSealed_iff (content : Script) :
    content.isSealed = true ↔ ∃ object, content.image = .shared object := by
  simp only [isSealed, Option.isSome_iff_exists, shared?_eq_some_iff]

theorem ownedImage_of_sealed (h : content.isSealed = true) :
    content.ownedImage = .error .scriptSealed := by
  obtain ⟨object, himage⟩ := (isSealed_iff content).1 h
  rw [ownedImage, himage]

/-- No step leads on from a sealed script. -/
theorem eq_of_sealed {changed : Script} (h : content.isSealed = true)
    (hrun : Relation.ReflTransGen Revises content changed) : changed = content := by
  cases hrun.cases_head with
  | inl heq => exact heq.symm
  | inr hstep =>
      obtain ⟨middle, hrevises, _⟩ := hstep
      rw [isSealed, hrevises.shared?_eq_none] at h
      contradiction

end Script

namespace Heap

variable {heap after : Heap} {script : ScriptId} {content : Script} {id : CellId} {cell : Cell}

/-- A sealed script that is still in its place is as it was. -/
theorem CarriesOn.script_eq (h : CarriesOn (.script content) script.id heap)
    (hsealed : content.isSealed = true) : heap.script script = .ok content := by
  obtain ⟨last, hlast, hcontinues⟩ := h
  cases hcontinues with
  | script hrun =>
      rw [script_eq_ok_iff, hlast, Script.eq_of_sealed hsealed hrun]

/-- What a reference to an atom finds does not change while the cell there lives. -/
theorem CarriesOn.atom_eq {atom : AtomId} (hcell : heap.cell? atom.id = some cell)
    (h : CarriesOn cell atom.id after) : after.atom atom = heap.atom atom := by
  obtain ⟨last, hlast, hcontinues⟩ := h
  unfold Heap.atom Heap.cell
  rw [hcell, hlast]
  cases hcontinues <;> rfl

section Refusals

theorem ending_createPart_of_sealed (hscript : heap.script script = .ok content)
    (hsealed : content.isSealed = true) (part : ScriptPart) (bytes : Nat)
    (install : Script → Script) :
    (createPart script part bytes install).ending heap = (.error .scriptSealed, heap) := by
  rw [ending_createPart, hscript]
  dsimp only
  rw [Script.requireMissing_of_sealed hsealed]

theorem ending_updateScript_of_error {change : Script → Except HeapError Script}
    {error : HeapError} (hscript : heap.script script = .ok content)
    (hchange : change content = .error error) :
    (updateScript script change).ending heap = (.error error, heap) := by
  rw [ending_updateScript, hscript]
  dsimp only
  rw [hchange]

theorem ending_share_of_sealed (hscript : heap.script script = .ok content)
    (hsealed : content.isSealed = true) :
    (share script).ending heap = (.error .scriptSealed, heap) := by
  rw [ending_share, hscript]
  dsimp only
  rw [Script.ownedImage_of_sealed hsealed]

/-- A store fails because what is stored is gone, or as its script makes it fail. -/
theorem ending_storeRef_of_error {install : Script → Except HeapError Script}
    {error : HeapError} (hscript : heap.script script = .ok content)
    (hinstall : install content = .error error) (ref : CellRef) :
    ∃ fault, (storeRef script ref install).ending heap = (.error fault, heap) ∧
      (fault = error ∨ heap.lookUp ref = .error fault) := by
  rw [ending_storeRef]
  by_cases hlive : heap.isLive ref.id = true
  · rw [if_pos hlive, hscript]
    dsimp only
    rw [hinstall]
    exact ⟨error, rfl, Or.inl rfl⟩
  · rw [if_neg hlive]
    exact ⟨_, rfl, Or.inr (lookUp_of_not_live hlive)⟩

theorem ending_fillThings_of_error {error : HeapError}
    (hscript : heap.script script = .ok content) (scope : ScopeId)
    (hset : content.setThing 0 (.scope scope) = .error error) :
    ∃ fault, (fillThings .ofGlobalScript script scope).ending heap = (.error fault, heap) ∧
      (fault = error ∨ heap.lookUp (.scope scope) = .error fault) := by
  rw [ending_fillThings]
  cases hscope : heap.scope scope with
  | error fault => exact ⟨fault, rfl, Or.inr (lookUp_of_scope_error hscope)⟩
  | ok found => exact ending_storeRef_of_error hscript hset _

end Refusals

end Heap

namespace Operation

variable {heap : Heap} {operation : Operation Issued} {script : ScriptId} {content : Script}

/-- An operation that would change a sealed script fails and leaves the heap as it was. -/
theorem refused_of_sealed {change : Script → Except HeapError Script}
    (hamends : operation.amends? = some (script, change))
    (hscript : heap.script script = .ok content) (hsealed : content.isSealed = true) :
    ∃ error, operation.run.ending heap = (.error error, heap) ∧
      (error = .scriptSealed ∨ ∃ ref ∈ operation.refs, heap.lookUp ref = .error error) := by
  cases operation <;> cases hamends
  case createThings | createAtoms | createImage =>
    have hpart := Heap.ending_createPart_of_sealed hscript hsealed
    exact ⟨_, Action.ending_bind_of_error (hpart _ _ _) _, Or.inl rfl⟩
  case initThing index thing =>
    obtain ⟨error, hending, herror⟩ := Heap.ending_storeRef_of_error hscript
      (Script.setThing_of_sealed hsealed index thing) thing
    exact ⟨error, Action.ending_bind_of_error hending _,
      herror.imp_right fun hthing => ⟨thing, by simp [refs], hthing⟩⟩
  case initAtom index atom =>
    obtain ⟨error, hending, herror⟩ := Heap.ending_storeRef_of_error hscript
      (Script.setAtom_of_sealed hsealed index atom) (.atom atom)
    exact ⟨error, Action.ending_bind_of_error hending _,
      herror.imp_right fun hatom => ⟨.atom atom, by simp [refs], hatom⟩⟩
  case patchImage patch =>
    have hchange : (do
        let image ← content.ownedImage
        pure { content with image := .owned (image.apply patch) } : Except HeapError Script) =
        .error .scriptSealed := by
      rw [Script.ownedImage_of_sealed hsealed]
      rfl
    exact ⟨_, Action.ending_bind_of_error (Heap.ending_updateScript_of_error hscript hchange) _,
      Or.inl rfl⟩
  case setFlags flags =>
    have hflags := Script.setFlags_of_sealed hsealed flags
    exact ⟨_, Action.ending_bind_of_error (Heap.ending_updateScript_of_error hscript hflags) _,
      Or.inl rfl⟩
  case share =>
    exact ⟨_, Action.ending_bind_of_error (Heap.ending_share_of_sealed hscript hsealed) _,
      Or.inl rfl⟩
  case fillThings scope =>
    obtain ⟨error, hending, herror⟩ := Heap.ending_fillThings_of_error hscript scope
      (Script.setThing_of_sealed hsealed 0 (.scope scope))
    exact ⟨error, Action.ending_bind_of_error hending _,
      herror.imp_right fun hscope => ⟨.scope scope, by simp [refs], hscope⟩⟩

end Operation

namespace Heap

variable {heap : Heap} {script : ScriptId} {content : Script} {requests : List Request}

/-- A sealed script is as it was for as long as it lives. -/
theorem AliveAlong.script_eq (h : AliveAlong script.id requests heap) (hsound : heap.Sound)
    (hscript : heap.script script = .ok content) (hsealed : content.isSealed = true) :
    (Request.nextAll requests heap).script script = .ok content :=
  (h.carriesOn hsound ((script_eq_ok_iff _ _ _).1 hscript)).script_eq hsealed

/-- What a live sealed script refers to is alive. -/
theorem Reachable.isLive_of_mem_references (h : heap.Reachable)
    (hscript : heap.script script = .ok content) {ref : CellRef}
    (href : ref ∈ (Cell.script content).references) : heap.isLive ref.id = true :=
  h.unbroken script.id content ((script_eq_ok_iff _ _ _).1 hscript) ref href

/-- What a sealed script refers to lives for as long as the script does. -/
theorem AliveAlong.of_mem_references (h : AliveAlong script.id requests heap)
    (hreachable : heap.Reachable) (hscript : heap.script script = .ok content)
    (hsealed : content.isSealed = true) {ref : CellRef}
    (href : ref ∈ (Cell.script content).references) : AliveAlong ref.id requests heap := by
  have hlive := hreachable.isLive_of_mem_references hscript href
  induction requests generalizing heap with
  | nil => exact hlive
  | cons request rest ih =>
      have hnext := hreachable.request request
      have hkept : (request.next heap).script script = .ok content :=
        (request.carriesOn hreachable.sound ((script_eq_ok_iff _ _ _).1 hscript)
          h.2.isLive).script_eq hsealed
      exact ⟨hlive, ih h.2 hnext hkept (hnext.isLive_of_mem_references hkept href)⟩

/-- The atoms of a sealed script keep their texts for as long as the script lives. -/
theorem AliveAlong.atom_eq (h : AliveAlong script.id requests heap)
    (hreachable : heap.Reachable) (hscript : heap.script script = .ok content)
    (hsealed : content.isSealed = true) {atom : AtomId} (hatom : some atom ∈ content.atomSlots) :
    (Request.nextAll requests heap).atom atom = heap.atom atom := by
  have hmem : CellRef.atom atom ∈ (Cell.script content).references :=
    Cell.mem_references_of_atom hatom
  obtain ⟨cell, hcell⟩ :=
    (isLive_iff heap atom.id).1 (hreachable.isLive_of_mem_references hscript hmem)
  have halive : AliveAlong atom.id requests heap :=
    h.of_mem_references hreachable hscript hsealed hmem
  exact (halive.carriesOn hreachable.sound hcell).atom_eq hcell

/-- A heap that was passed only references it handed out finds a text for every atom
of a script. -/
theorem Admitted.exists_text (h : heap.Admitted) (hreachable : heap.Reachable)
    (hscript : heap.script script = .ok content) {atom : AtomId}
    (hatom : some atom ∈ content.atomSlots) : ∃ text, heap.atom atom = .ok text := by
  have hmem : CellRef.atom atom ∈ (Cell.script content).references :=
    Cell.mem_references_of_atom hatom
  have hcell := (script_eq_ok_iff _ _ _).1 hscript
  obtain ⟨issued, hcoherent⟩ := h.coherent
  have hheld : heap.Holds (.atom atom) :=
    Or.inr (Or.inl ⟨script.id, (edge_iff _ _ _).2 ⟨_, hcell, hmem⟩⟩)
  obtain ⟨issue, hissue, hissued⟩ := hcoherent.held_issued _ hheld
  cases hfound : heap.atom atom with
  | ok text => exact ⟨text, rfl⟩
  | error error =>
      have hfault := lookUp_of_atom_error hfound
      rcases hcoherent.lookUp_of_issue hissue with ⟨cell, hlookUp, _⟩ | hstale
      · rw [hissued, hfault] at hlookUp
        contradiction
      · rw [hissued] at hstale
        exact absurd (hreachable.isLive_of_mem_references hscript hmem) (not_live_of_lookUp hstale)

/-- A script is read alike by heaps that agree on it and on its atoms. -/
theorem report_congr {after : Heap} (hscript : heap.script script = .ok content)
    (hafter : after.script script = .ok content)
    (hatoms : ∀ atom, some atom ∈ content.atomSlots → after.atom atom = heap.atom atom) :
    after.report script = heap.report script := by
  unfold Heap.report
  rw [hscript, hafter]
  refine congrArg (fun texts => Except.ok (ScriptReport.mk content texts)) ?_
  refine List.map_congr_left fun entry hentry => ?_
  cases entry with
  | none => rfl
  | some atom => rw [Option.map_some, Option.map_some, hatoms atom hentry]

/-- Whatever requests follow, with any references at all: a script that is sealed stays as
it is for as long as it lives.

It keeps its extent, flags, things, atoms and image, and so stays sealed. The texts that its
atoms are read as are the same, and they are there unless the heap was passed references
that it did not hand out. The cells that it refers to and the object that it shares stay.
What would change it fails and changes nothing. -/
theorem sealed_final {heap later : Heap} (h : heap.Reachable) {script : ScriptId}
    {content : Script} (hscript : heap.script script = .ok content)
    (hsealed : content.isSealed = true) {requests : List Request}
    (halive : AliveAlong script.id requests heap)
    (hlater : later = Request.nextAll requests heap) :
    later.script script = .ok content ∧
    later.report script = heap.report script ∧
    (heap.Admitted → ∀ atom, some atom ∈ content.atomSlots →
      ∃ text, heap.atom atom = .ok text ∧ later.atom atom = .ok text) ∧
    (∀ ref ∈ (Cell.script content).references, later.isLive ref.id = true) ∧
    (∃ object ∈ later.sharedImages, content.image = .shared object) ∧
    ∀ (operation : Operation Issued) (change : Script → Except HeapError Script),
      operation.amends? = some (script, change) →
      ∃ error, operation.run.ending later = (.error error, later) ∧
        (error = .scriptSealed ∨ ∃ ref ∈ operation.refs, later.lookUp ref = .error error) := by
  subst hlater
  have hreachable := h.nextAll requests
  have hkept := halive.script_eq h.sound hscript hsealed
  have hatoms : ∀ atom, some atom ∈ content.atomSlots →
      (Request.nextAll requests heap).atom atom = heap.atom atom :=
    fun atom hatom => halive.atom_eq h hscript hsealed hatom
  refine ⟨hkept, report_congr hscript hkept hatoms, ?_, ?_, ?_, ?_⟩
  · intro hadmitted atom hatom
    obtain ⟨text, htext⟩ := hadmitted.exists_text h hscript hatom
    exact ⟨text, htext, (hatoms atom hatom).trans htext⟩
  · exact fun ref href => hreachable.isLive_of_mem_references hkept href
  · obtain ⟨object, himage⟩ := (Script.isSealed_iff content).1 hsealed
    exact ⟨object, hreachable.sharingSound.mem_of_script hkept himage, himage⟩
  · exact fun operation change hamends => Operation.refused_of_sealed hamends hkept hsealed

/-- A rooted script with one atom is sealed. -/
def sealingOne : List Request :=
  [.perform (.allocScript {}), .perform (.addRoot (.script ⟨⟨0, 0⟩⟩)),
    .perform (.atomize [104, 105]), .perform (.createAtoms ⟨⟨0, 0⟩⟩ 1),
    .perform (.initAtom ⟨⟨0, 0⟩⟩ 0 ⟨⟨1, 0⟩⟩), .perform (.createImage ⟨⟨0, 0⟩⟩ 2 1),
    .perform (.share ⟨⟨0, 0⟩⟩)]

/-- Another script is sealed with an equal image and swept, and a third one takes its
slot, while the first is asked to change. -/
def sealingOthers : List Request :=
  [.perform (.allocScript {}), .perform (.createImage ⟨⟨2, 0⟩⟩ 2 1),
    .perform (.share ⟨⟨2, 0⟩⟩), .perform (.share ⟨⟨0, 0⟩⟩), .perform .collect,
    .perform (.allocScript {}), .perform (.createImage ⟨⟨2, 1⟩⟩ 2 1),
    .perform (.initAtom ⟨⟨0, 0⟩⟩ 0 ⟨⟨2, 1⟩⟩), .perform (.setZeal true),
    .perform (.share ⟨⟨2, 1⟩⟩)]

theorem sealed_final_sharers :
    ∃ (heap later : Heap) (content : Script), heap.Reachable ∧ heap.Admitted ∧
      heap.script ⟨⟨0, 0⟩⟩ = .ok content ∧ content.isSealed = true ∧
      AliveAlong ⟨0, 0⟩ sealingOthers heap ∧ later = Request.nextAll sealingOthers heap ∧
      later.script ⟨⟨0, 0⟩⟩ = .ok content ∧ later.report ⟨⟨0, 0⟩⟩ = heap.report ⟨⟨0, 0⟩⟩ ∧
      (∃ text, heap.atom ⟨⟨1, 0⟩⟩ = .ok text ∧ later.atom ⟨⟨1, 0⟩⟩ = .ok text) ∧
      ∃ error, (Operation.patchImage ⟨⟨0, 0⟩⟩ {}).run.ending later = (.error error, later) := by
  have hadmits : History.AdmitsAll sealingOne { heap := ofLimits ⟨1000, 1000⟩ } := by
    decide +kernel
  have hinitial : (ofLimits ⟨1000, 1000⟩).Initial := .ofLimits _
  have hreachable : (Request.nextAll sealingOne (ofLimits ⟨1000, 1000⟩)).Reachable :=
    (Reachable.initial hinitial).nextAll _
  have hadmitted : (Request.nextAll sealingOne (ofLimits ⟨1000, 1000⟩)).Admitted :=
    ⟨_, _, hinitial, History.run_nextAll hadmits, rfl⟩
  have hscript : (Request.nextAll sealingOne (ofLimits ⟨1000, 1000⟩)).script ⟨⟨0, 0⟩⟩ =
      .ok { extent := {}, atoms := some [some ⟨⟨1, 0⟩⟩], image := .shared ⟨0, .blank 2 1⟩ } := by
    decide +kernel
  have halive : AliveAlong ⟨0, 0⟩ sealingOthers
      (Request.nextAll sealingOne (ofLimits ⟨1000, 1000⟩)) := by
    decide +kernel
  obtain ⟨hkept, hreport, htexts, _, _, hrefused⟩ :=
    sealed_final hreachable hscript rfl halive rfl
  obtain ⟨error, herror, _⟩ := hrefused (.patchImage ⟨⟨0, 0⟩⟩ {}) _ rfl
  exact ⟨_, _, _, hreachable, hadmitted, hscript, rfl, halive, rfl, hkept, hreport,
    htexts hadmitted _ (by decide), error, herror⟩

end Heap

end ScriptLinker
