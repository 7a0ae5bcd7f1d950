import Mathlib.Logic.Function.Basic
import ScriptLinker.Proofs.Archive
import ScriptLinker.Proofs.Replies
import ScriptLinker.Proofs.Sharing
/-!
# Heaps and their archives

`heap.Mirrors archive name` says that an archive has every cell of a heap, under
the names of the addresses. What is dead on the heap may have a name as well: it is
that of the cell it was, and an atom that is placed anew gets the name of the one
that was collected. An operation on the heap that finds room and meets live cells
only ends as it does on the archive, and the heap still mirrors the archive after it.
-/

namespace ScriptLinker

theorem Action.ending_read_bind_pure {σ ε α β : Type} (look : σ → Except ε α) (answer : α → β)
    (state : σ) :
    (read look >>= fun value => pure (answer value)).ending state =
      ((look state).map answer, state) := by
  rw [ending_bind, ending_read]
  cases look state <;> rfl

namespace Heap

variable {name : CellId → CellId} {heap ready after archive filed : Heap}

/-- Every cell of a heap is on an archive under the name of its address, and so are
the roots. -/
structure Mirrors (name : CellId → CellId) (heap archive : Heap) : Prop where
  cell? : ∀ id cell, heap.cell? id = some cell →
    archive.cell? (name id) = some (cell.rename name)
  injective : ∀ id other, heap.isLive id = true → heap.isLive other = true →
    name id = name other → id = other
  interned : ∀ id text, heap.cell? id = some (.atom text) →
    archive.internedAtom? text = some ⟨name id⟩
  catalogued : archive.Catalogued
  rootStack : archive.rootStack = heap.rootStack.map (CellRef.rename name)
  persistentRoots : archive.persistentRoots =
    heap.persistentRoots.map (Option.map (CellRef.rename name))
  freeRoots : archive.freeRoots = heap.freeRoots

theorem Initial.cell?_eq_none (h : heap.Initial) (id : CellId) : heap.cell? id = none := by
  simp [Heap.cell?, cellAt?, slotAt?, h.slots_eq]

theorem not_excused {α : Type} {error : HeapError}
    (h : error.ofTiming = false ∧ error.isWrongKind = false) :
    ¬ Excused (.error error : Except HeapError α) := by
  rintro ⟨fault, heq, hkind⟩
  obtain rfl := Except.error.inj heq
  simp [h] at hkind

namespace Mirrors

theorem script (h : heap.Mirrors name archive) {script : ScriptId} {content : Script}
    (hscript : heap.script script = .ok content) :
    archive.script (script.rename name) = .ok (content.rename name) :=
  (script_eq_ok_iff _ _ _).2 (h.cell? _ _ ((script_eq_ok_iff _ _ _).1 hscript))

theorem scope (h : heap.Mirrors name archive) {scope : ScopeId} {content : Scope}
    (hscope : heap.scope scope = .ok content) :
    archive.scope (scope.rename name) = .ok (content.rename name) :=
  (scope_eq_ok_iff _ _ _).2 (h.cell? _ _ ((scope_eq_ok_iff _ _ _).1 hscope))

theorem atom (h : heap.Mirrors name archive) {atom : AtomId} {text : String}
    (hatom : heap.atom atom = .ok text) : archive.atom (atom.rename name) = .ok text :=
  (atom_eq_ok_iff _ _ _).2 (h.cell? _ _ ((atom_eq_ok_iff _ _ _).1 hatom))

/-- Only the names of what is alive or held matter. -/
theorem congr (other : CellId → CellId) (h : heap.Mirrors name archive)
    (hlive : ∀ id, heap.isLive id = true → other id = name id)
    (hheld : ∀ ref, heap.Holds ref → other ref.id = name ref.id) : heap.Mirrors other archive where
  cell? := fun id cell hcell => by
    have hrefs : ∀ ref ∈ cell.references, other ref.id = name ref.id := fun ref href =>
      hheld ref (Or.inr (Or.inl ⟨id, (edge_iff _ _ _).2 ⟨cell, hcell, href⟩⟩))
    rw [hlive id ((isLive_iff _ _).2 ⟨cell, hcell⟩), Cell.rename_congr hrefs]
    exact h.cell? id cell hcell
  injective := fun id id' hid hid' heq => by
    rw [hlive id hid, hlive id' hid'] at heq
    exact h.injective id id' hid hid' heq
  interned := fun id text hcell => by
    rw [hlive id ((isLive_iff _ _).2 ⟨_, hcell⟩)]
    exact h.interned id text hcell
  catalogued := h.catalogued
  rootStack := by
    rw [h.rootStack]
    refine List.map_congr_left fun ref href => CellRef.rename_congr (hheld ref (Or.inl ?_)).symm
    exact (mem_roots_iff _ _).2 (Or.inl href)
  persistentRoots := by
    rw [h.persistentRoots]
    refine Array.map_congr_left fun root hroot => Option.map_congr fun ref href =>
      CellRef.rename_congr (hheld ref (Or.inl ?_)).symm
    have hmem : some ref ∈ heap.persistentRoots.toList := Array.mem_toList_iff.2 (href ▸ hroot)
    exact List.mem_append_right _ (List.mem_filterMap.2 ⟨_, hmem, rfl⟩)
  freeRoots := h.freeRoots

/-- Making room takes nothing from the archive. -/
theorem keeps (h : heap.Mirrors name archive) (hkeeps : heap.Keeps ready) :
    ready.Mirrors name archive where
  cell? := fun id cell hcell => h.cell? id cell (hkeeps.cell?_of_cell? id cell hcell)
  injective := fun id id' hid hid' => by
    obtain ⟨cell, hcell⟩ := (isLive_iff _ _).1 hid
    obtain ⟨cell', hcell'⟩ := (isLive_iff _ _).1 hid'
    exact h.injective id id' ((isLive_iff _ _).2 ⟨cell, hkeeps.cell?_of_cell? id cell hcell⟩)
      ((isLive_iff _ _).2 ⟨cell', hkeeps.cell?_of_cell? id' cell' hcell'⟩)
  interned := fun id text hcell => h.interned id text (hkeeps.cell?_of_cell? id _ hcell)
  catalogued := h.catalogued
  rootStack := by rw [hkeeps.rootStack, h.rootStack]
  persistentRoots := by rw [hkeeps.persistentRoots, h.persistentRoots]
  freeRoots := by rw [hkeeps.freeRoots, h.freeRoots]

/-- A script is rewritten on the heap and on the archive. -/
theorem rewrite (h : heap.Mirrors name archive) {script : ScriptId}
    {content changed final : Script} {recharge : Nat → Nat}
    (hscript : heap.script script = .ok content)
    (hrewrites : heap.Rewrites script final recharge after)
    (hfinal : final.rename name = changed.rename name) :
    after.Mirrors name (archive.setScript (script.rename name) (changed.rename name)) := by
  have hcells := hrewrites.cell? hscript
  have hlive := isLive_of_script hscript
  have hfiled : ∀ id, (archive.setScript (script.rename name) (changed.rename name)).cell? id =
      if id = name script.id then some (.script (changed.rename name)) else archive.cell? id :=
    cell?_setScript (h.script hscript) (changed.rename name)
  refine ⟨fun id cell hcell => ?_, fun id other hid hother => ?_, fun id text hcell => ?_,
    h.catalogued.setScript (h.script hscript) _, ?_, ?_, ?_⟩
  · rw [hcells] at hcell
    rw [hfiled]
    split at hcell
    · rename_i heq
      obtain rfl := Option.some.inj hcell
      rw [heq, if_pos rfl, Cell.rename, hfinal]
    · rename_i hne
      have hid := (isLive_iff _ _).2 ⟨_, hcell⟩
      rw [if_neg fun heq => hne (h.injective id script.id hid hlive heq)]
      exact h.cell? id cell hcell
  · rw [hrewrites.isLive_eq hscript] at hid hother
    exact h.injective id other hid hother
  · rw [hcells] at hcell
    split at hcell
    · simp at hcell
    · exact h.interned id text hcell
  · rw [hrewrites.rootStack]
    exact h.rootStack
  · rw [hrewrites.persistentRoots]
    exact h.persistentRoots
  · rw [hrewrites.freeRoots]
    exact h.freeRoots

/-- A cell is placed on the heap and filed on the archive under the name of its address. No
other cell has the name: it is new, or that of a collected atom of the same text. -/
theorem birth (h : heap.Mirrors name archive) (hsound : heap.Sound) {id : CellId} {cell : Cell}
    (hbirth : Birth heap ⟨id, cell⟩ after)
    (hfiles : archive.Files (cell.rename name) (name id) filed) : after.Mirrors name filed := by
  have hcells := hbirth.cell? hsound.slots
  dsimp only at hcells
  have habsent : ∀ other text, cell = .atom text → heap.cell? other ≠ some (.atom text) := by
    rintro other text rfl
    cases hbirth with
    | plain hplain _ => exact absurd rfl (hplain text)
    | atom hnone _ => exact (hsound.atoms.internedAtom?_eq_none_iff text).1 hnone other
  have hfresh : ∀ other found, heap.cell? other = some found → name other ≠ name id := by
    intro other found hfound heq
    have hfiled := h.cell? other found hfound
    rw [heq] at hfiled
    rcases hfiles.vacant with hnone | ⟨text, hatom, hsome⟩
    · simp [hfiled] at hnone
    · rw [hfiled, hatom, Option.some.injEq, Cell.rename_eq_atom_iff] at hsome
      rw [Cell.rename_eq_atom_iff] at hatom
      exact habsent other text hatom (hsome ▸ hfound)
  obtain ⟨bytes, placed, hplaced, hafter⟩ := hbirth.placed hsound.slots
  refine ⟨fun other found hfound => ?_, fun first second hfirst hsecond heq => ?_,
    fun other text hfound => ?_, hfiles.catalogued h.catalogued, ?_, ?_, ?_⟩
  · rw [hcells] at hfound
    rw [hfiles.cell?]
    split at hfound
    · rename_i heq
      rw [heq, if_pos rfl, ← Option.some.inj hfound]
    · rw [if_neg (hfresh other found hfound)]
      exact h.cell? other found hfound
  · obtain ⟨cell, hcell⟩ := (isLive_iff _ _).1 hfirst
    obtain ⟨cell', hcell'⟩ := (isLive_iff _ _).1 hsecond
    rw [hcells] at hcell hcell'
    split at hcell <;> split at hcell'
    · rename_i hid hid'
      rw [hid, hid']
    · rename_i hid _
      exact absurd (heq.symm.trans (congrArg name hid)) (hfresh second _ hcell')
    · rename_i _ hid'
      exact absurd (heq.trans (congrArg name hid')) (hfresh first _ hcell)
    · exact h.injective first second ((isLive_iff _ _).2 ⟨_, hcell⟩)
        ((isLive_iff _ _).2 ⟨_, hcell'⟩) heq
  · rw [hcells] at hfound
    rw [hfiles.internedAtom?]
    split at hfound
    · rename_i heq
      rw [heq, if_pos ((Cell.rename_eq_atom_iff _ _ _).2 (Option.some.inj hfound))]
    · rw [if_neg fun heq => habsent other text ((Cell.rename_eq_atom_iff _ _ _).1 heq) hfound]
      exact h.interned other text hfound
  · rw [hfiles.rootStack, hafter, h.rootStack]
    exact congrArg _ hplaced.rootStack.symm
  · rw [hfiles.persistentRoots, hafter, h.persistentRoots]
    exact congrArg _ hplaced.persistentRoots.symm
  · rw [hfiles.freeRoots, hafter, h.freeRoots]
    exact hplaced.freeRoots.symm

theorem pushRoot (h : heap.Mirrors name archive) (ref : CellRef) :
    (heap.pushRoot ref).Mirrors name (archive.pushRoot (ref.rename name)) :=
  { h with rootStack := by simp [h.rootStack] }

theorem truncateRoots (h : heap.Mirrors name archive) (count : Nat) :
    (heap.truncateRoots count).Mirrors name (archive.truncateRoots count) :=
  { h with rootStack := by simp [h.rootStack, List.map_take] }

theorem root?_eq (h : heap.Mirrors name archive) (root : RootId) :
    archive.root? root = (heap.root? root).map (CellRef.rename name) := by
  simp only [root?, h.persistentRoots, Array.getElem?_map]
  cases heap.persistentRoots[root.index]? with
  | none => rfl
  | some entry => rfl

/-- A handle is the same on both. -/
theorem addRoot (h : heap.Mirrors name archive) (ref : CellRef) :
    (archive.addRoot (ref.rename name)).1 = (heap.addRoot ref).1 ∧
      (heap.addRoot ref).2.Mirrors name (archive.addRoot (ref.rename name)).2 := by
  unfold Heap.addRoot
  rw [h.freeRoots]
  cases hfree : heap.freeRoots with
  | nil =>
      dsimp only
      exact ⟨by simp [h.persistentRoots], { h with
        persistentRoots := by simp [h.persistentRoots]
        freeRoots := rfl }⟩
  | cons index rest =>
      dsimp only
      exact ⟨rfl, { h with
        persistentRoots := by simp [h.persistentRoots, Array.map_setIfInBounds]
        freeRoots := rfl }⟩

theorem removeRoot (h : heap.Mirrors name archive) (root : RootId) :
    (heap.removeRoot root).Mirrors name (archive.removeRoot root) := by
  unfold Heap.removeRoot
  rw [h.root?_eq]
  cases heap.root? root with
  | none => exact h
  | some ref =>
      exact { h with
        persistentRoots := by simp [h.persistentRoots, Array.map_setIfInBounds]
        freeRoots := congrArg (List.cons root.index) h.freeRoots }

/-- A report in which no atom is missing is the same of the archive. -/
theorem report (h : heap.Mirrors name archive) {script : ScriptId} {report : ScriptReport}
    (hreport : heap.report script = .ok report)
    (hgood : ∀ error ∈ (Reply.script report).faults,
      error.ofTiming = false ∧ error.isWrongKind = false) :
    archive.report (script.rename name) = .ok (report.rename name) := by
  obtain ⟨content, hcontent, rfl⟩ := report_eq_ok hreport
  have hatom : ∀ atom, some atom ∈ content.atomSlots →
      archive.atom (atom.rename name) = heap.atom atom := by
    intro atom hmem
    cases hread : heap.atom atom with
    | ok text => exact h.atom hread
    | error error =>
        have hfault : error ∈ (Reply.script ⟨content, content.atomSlots.map fun entry =>
            entry.map fun atom => (atom, heap.atom atom)⟩).faults := by
          simp only [Reply.faults, List.mem_filterMap, List.mem_map]
          exact ⟨_, ⟨some atom, hmem, rfl⟩, by simp [hread]⟩
        exact absurd (excused_of_lookUp (lookUp_of_atom_error hread))
          (not_excused (α := String) (hgood _ hfault))
  have hslots : (content.rename name).atomSlots =
      content.atomSlots.map (Option.map (AtomId.rename name)) := by
    unfold Script.atomSlots Script.rename
    cases content.atoms <;> rfl
  unfold Heap.report
  rw [h.script hcontent]
  simp only [bind, Except.bind, pure, Except.pure, ScriptReport.rename, hslots, List.map_map]
  refine congrArg (fun texts => Except.ok (ScriptReport.mk _ texts)) ?_
  refine List.map_congr_left fun entry hentry => ?_
  cases entry with
  | none => rfl
  | some atom => simp [hatom atom hentry]

/-- What the empty global scope of a plan stands for on the archive. -/
theorem thingOf (h : heap.Mirrors name archive) {scope : ScopeId} {thing : CellRef}
    (hthing : heap.thingOf scope .emptyGlobalScope = .ok thing) :
    archive.thingOf (scope.rename name) .emptyGlobalScope = .ok (thing.rename name) := by
  rw [thingOf_emptyGlobalScope] at hthing ⊢
  cases hscope : heap.scope scope with
  | error error => simp [hscope, Except.map] at hthing
  | ok content =>
      rw [hscope] at hthing
      obtain rfl := Except.ok.inj hthing
      rw [h.scope hscope]
      rfl

theorem sharedObject? (h : heap.Mirrors name archive) {script : ScriptId} {content : Script}
    (hscript : heap.script script = .ok content) :
    archive.sharedObject? (script.rename name) =
      (heap.sharedObject? script).map fun object => { object with serial := 0 } := by
  unfold Heap.sharedObject?
  rw [h.script hscript, hscript]
  simp only [Except.toOption, Option.bind_some, Script.shared?, Script.rename,
    ImageState.unnumbered]
  cases content.image <;> rfl

/-- Scripts share one object exactly if they share equal images. -/
theorem equalImages?_eq (h : heap.Mirrors name archive) (hsharing : heap.SharingSound)
    {left right : ScriptId} {content content' : Script} (hleft : heap.script left = .ok content)
    (hright : heap.script right = .ok content') :
    archive.equalImages? (left.rename name) (right.rename name) = heap.sameImage? left right := by
  have hmem : ∀ {script : ScriptId} {content : Script} {object : SharedImage},
      heap.script script = .ok content → heap.sharedObject? script = some object →
      object ∈ heap.sharedImages := by
    intro script content object hscript hshared
    unfold Heap.sharedObject? at hshared
    rw [hscript] at hshared
    exact hsharing.mem_of_objectAt? ((objectAt?_of_script hscript).trans hshared)
  unfold Heap.equalImages? sameImage?
  rw [h.sharedObject? hleft, h.sharedObject? hright]
  cases hfirst : heap.sharedObject? left with
  | none => rfl
  | some first =>
      cases hsecond : heap.sharedObject? right with
      | none => rfl
      | some second =>
          have hiff : first.image = second.image ↔ first.serial = second.serial :=
            ⟨fun heq => congrArg _
                (hsharing.eq_of_image_eq (hmem hleft hfirst) (hmem hright hsecond) heq),
              fun heq => congrArg _
                (hsharing.eq_of_serial_eq (hmem hleft hfirst) (hmem hright hsecond) heq)⟩
          simp [hiff]

end Mirrors

end Heap

/-- Whether an operation finds the scripts that it compares, if it compares scripts. -/
def Operation.findsBoth (heap : Heap) : Operation Issued → Bool
  | .compareImages left right => (heap.script left).isOk && (heap.script right).isOk
  | _ => true

/-- What a heap answers is what an archive does, under the names of the addresses.
Liveness and the store buffer do not count, nor does a comparison for which the heap
has not `found` both scripts. -/
inductive Reflects (found : Bool) (name : CellId → CellId) :
    Except HeapError Reply → Except HeapError Reply → Prop where
  | error (error : HeapError) : Reflects found name (.error error) (.error error)
  | reply (reply : Reply) : Reflects found name (.ok reply) (.ok (reply.rename name))
  | truth (value other : Bool) : Reflects found name (.ok (.truth value)) (.ok (.truth other))
  | stores (entries others : List (CellId × CellRef)) :
      Reflects found name (.ok (.stores entries)) (.ok (.stores others))
  | unseen (answer : Option Bool) : found = false →
      Reflects found name (.ok (.sameImage none)) (.ok (.sameImage answer))

namespace Operation

open Heap (Mirrors)

variable {name : CellId → CellId} {heap archive : Heap} {operation : Operation Issued}
  {issued : List Issue} {found : Bool}

theorem not_excused_of_faults (h : ∀ error ∈ (Request.perform operation).faults heap,
    error.ofTiming = false ∧ error.isWrongKind = false) :
    ¬ Excused (operation.run.ending heap).1 := by
  intro hexcused
  obtain ⟨error, herror, _⟩ := id hexcused
  have hresult : (Request.perform operation).result heap = .error error := herror
  rw [herror] at hexcused
  exact Heap.not_excused (h error (by simp [Request.faults, hresult])) hexcused

/-- A cell that is asked for holds references that were passed. -/
theorem references_of_asked {cell : Cell} (h : operation.asked? = some cell) {ref : CellRef}
    (href : ref ∈ cell.references) : ref ∈ operation.refs := by
  cases operation with
  | allocScope kind enclosing =>
      obtain rfl := Option.some.inj h
      exact href
  | allocScript extent =>
      obtain rfl := Option.some.inj h
      simp [Cell.references, Script.thingSlots, Script.atomSlots] at href
  | atomize bytes =>
      obtain ⟨text, _, rfl⟩ := Option.map_eq_some_iff.1 h
      simp [Cell.references] at href
  | _ => simp [asked?] at h

/-- A script is changed on the archive as it is on the heap. -/
theorem mirrors_of_amends (h : heap.Mirrors name archive) (hsound : heap.Sound)
    {script : ScriptId} {change : Script → Except HeapError Script}
    (hamends : operation.amends? = some (script, change))
    (hgood : ¬ Excused (operation.run.ending heap).1) :
    (operation.run.ending heap).2.Mirrors name ((operation.rename name).replay archive).2 ∧
      Reflects found name (operation.run.ending heap).1
        ((operation.rename name).replay archive).1 := by
  obtain ⟨renamed, hrenamed, hchange⟩ := amends?_rename hamends name
  obtain ⟨result, hresult, hanswer⟩ :=
    (amending_run hsound hamends).resolve_left fun hexcused => hgood hexcused.1
  rw [hanswer]
  generalize (operation.run.ending heap).2 = after at hresult
  cases hresult with
  | @refused content error hscript hrefused =>
      rw [replay_of_amends hrenamed (h.script hscript), hchange, hrefused]
      exact ⟨h, .error error⟩
  | @changed content changed final ready after recharge hscript hchanged hfinal hkeeps _ hready
      hrewrites =>
      rw [replay_of_amends hrenamed (h.script hscript), hchange, hchanged]
      refine ⟨(h.keeps hkeeps).rewrite hready hrewrites (hfinal name), ?_⟩
      dsimp only [Except.map]
      rw [amended_rename]
      exact .reply _

/-- A cell that is asked for is on the archive under a name that is its own, or that of an
atom of the same text. Its address is new, so what is known already keeps its name. -/
theorem mirrors_of_asked (h : heap.Mirrors name archive) (hsound : heap.Sound)
    (hcoherent : heap.Coherent issued)
    (hnext : (operation.run.ending heap).2.Coherent
      ((Request.perform operation).issuedAfter heap issued))
    (hrefs : ∀ ref ∈ operation.refs, ref ∈ Issue.refs issued) {cell : Cell}
    (hasked : operation.asked? = some cell) (hgood : ¬ Excused (operation.run.ending heap).1) :
    ∃ other : CellId → CellId, (∀ issue ∈ issued, other issue.id = name issue.id) ∧
      (operation.run.ending heap).2.Mirrors other ((operation.rename name).replay archive).2 ∧
      Reflects found other (operation.run.ending heap).1
        ((operation.rename name).replay archive).1 := by
  obtain ⟨id, hanswer, hbears⟩ := (bears_run hsound hasked).resolve_left hgood
  have hrenamed : (operation.rename name).asked? = some (cell.rename name) := by
    rw [asked?_rename, hasked, Option.map_some]
  rw [replay_of_asked hrenamed, hanswer, Cell.kind_rename]
  have hids := hnext.ids_nodup
  unfold Request.issuedAfter at hids
  generalize (operation.run.ending heap).2 = after at hbears
  generalize (Request.perform operation).born? heap = born at hbears hids
  cases hbears with
  | @found id text hatom hcell =>
      subst hatom
      have hfile : archive.file (.atom text) = (name id, archive) := by
        rw [Heap.file, Heap.filed?, h.interned id text hcell]
        rfl
      refine ⟨name, fun _ _ => rfl, ?_⟩
      rw [Cell.rename, hfile]
      exact ⟨h, .reply (.cell (.ofKind .atom id))⟩
  | @placed ready after id hkeeps hready hbirth =>
      have hfiles := Heap.files_file h.catalogued (cell.rename name)
      generalize archive.file (cell.rename name) = filed at hfiles ⊢
      have hfresh : ∀ issue ∈ issued, Function.update name id filed.1 issue.id = name issue.id := by
        intro issue hissue
        refine Function.update_of_ne (fun heq => ?_) _ _
        exact (List.nodup_cons.1 hids).1 (List.mem_map.2 ⟨issue, hissue, heq⟩)
      have hknown : ∀ ref ∈ Issue.refs issued,
          Function.update name id filed.1 ref.id = name ref.id := by
        rintro ref ⟨issue, hissue, rfl⟩
        rw [Issue.id_ref, hfresh issue hissue]
      have hself : Function.update name id filed.1 id = filed.1 := Function.update_self _ _ _
      have hcell : cell.rename (Function.update name id filed.1) = cell.rename name :=
        Cell.rename_congr fun ref href => hknown ref (hrefs ref (references_of_asked hasked href))
      have hmirrors := h.congr (Function.update name id filed.1) (fun id hid => by
        obtain ⟨issue, hissue, rfl⟩ := hcoherent.live_issued id hid
        exact hfresh issue hissue) fun ref href => hknown ref (hcoherent.held_issued ref href)
      generalize Function.update name id filed.1 = other at hfresh hself hcell hmirrors
      have hborn := (hmirrors.keeps hkeeps).birth hready hbirth (by rwa [hcell, hself])
      refine ⟨other, hfresh, hborn, ?_⟩
      dsimp only
      rw [← hself, ← CellRef.rename_ofKind]
      exact .reply (.cell (.ofKind cell.kind id))

/-- A look-up that finds on the archive what it finds on the heap. -/
theorem mirrors_of_look {α : Type} (h : heap.Mirrors name archive)
    {look : Heap → Except HeapError α} (renamed : Heap → Except HeapError α) {answer : α → Reply}
    (hrun : operation.run = Action.read look >>= fun value => pure (answer value))
    (hreplay : (operation.rename name).replay archive = ((renamed archive).map answer, archive))
    (hgood : ¬ Excused (operation.run.ending heap).1)
    (herror : ∀ error, look heap = .error error → Excused (look heap))
    (hok : ∀ value, look heap = .ok value →
      ∃ found, renamed archive = .ok found ∧ answer found = (answer value).rename name) :
    (operation.run.ending heap).2.Mirrors name ((operation.rename name).replay archive).2 ∧
      Reflects found name (operation.run.ending heap).1
        ((operation.rename name).replay archive).1 := by
  rw [hrun, Action.ending_read_bind_pure] at hgood ⊢
  rw [hreplay]
  cases hlook : look heap with
  | error error => exact absurd ((herror error hlook).map answer) hgood
  | ok value =>
      obtain ⟨found, hfound, hanswer⟩ := hok value hlook
      refine ⟨h, ?_⟩
      rw [hfound]
      dsimp only [Except.map]
      rw [hanswer]
      exact .reply (answer value)

/-- A comparison goes by the images on the archive. -/
theorem mirrors_of_compare (h : heap.Mirrors name archive) (hsharing : heap.SharingSound)
    (left right : ScriptId) :
    ((compareImages left right : Operation Issued).run.ending heap).2.Mirrors name
        (((compareImages left right).rename name).replay archive).2 ∧
      Reflects ((compareImages left right).findsBoth heap) name
        ((compareImages left right : Operation Issued).run.ending heap).1
        (((compareImages left right).rename name).replay archive).1 := by
  have hending : (compareImages left right : Operation Issued).run.ending heap =
      (.ok (.sameImage (heap.sameImage? left right)), heap) := rfl
  have hreplay : ((compareImages left right).rename name).replay archive =
      (.ok (.sameImage (archive.equalImages? (ScriptId.rename name left)
        (ScriptId.rename name right))), archive) := rfl
  rw [hending, hreplay]
  refine ⟨h, ?_⟩
  cases hleft : heap.script left with
  | error error =>
      have hnone : heap.sameImage? left right = none := by
        simp [Heap.sameImage?, Heap.sharedObject?, hleft, Except.toOption]
      rw [hnone]
      exact .unseen _ (by simp [findsBoth, hleft, Except.isOk, Except.toBool])
  | ok content =>
      cases hright : heap.script right with
      | error error =>
          have hnone : heap.sameImage? left right = none := by
            simp [Heap.sameImage?, Heap.sharedObject?, hright, Except.toOption]
          rw [hnone]
          exact .unseen _ (by simp [findsBoth, hright, Except.isOk, Except.toBool])
      | ok content' =>
          rw [h.equalImages?_eq hsharing hleft hright]
          exact .reply (.sameImage (heap.sameImage? left right))

/-- Whatever else is asked of the heap, and of its roots, ends on the archive as it does
on the heap. -/
theorem mirrors_of_other (h : heap.Mirrors name archive) (hsharing : heap.SharingSound)
    (hasked : operation.asked? = none) (hamends : operation.amends? = none)
    (hgood : ∀ error ∈ (Request.perform operation).faults heap,
      error.ofTiming = false ∧ error.isWrongKind = false) :
    (operation.run.ending heap).2.Mirrors name ((operation.rename name).replay archive).2 ∧
      Reflects (operation.findsBoth heap) name (operation.run.ending heap).1
        ((operation.rename name).replay archive).1 := by
  have hexcused := not_excused_of_faults hgood
  cases operation with
  | atomize bytes =>
      have hdecode : Utf8.decode? bytes = none := Option.map_eq_none_iff.1 hasked
      have hrun : ∀ heap, (atomize bytes : Operation Issued).run.ending heap =
          (.error .invalidUtf8, heap) := by
        intro heap
        rw [run, Action.ending_bind, Heap.atomize, hdecode]
        rfl
      have hreplay : ((atomize bytes).rename name).replay archive =
          (.error .invalidUtf8, archive) := by
        unfold replay
        rw [asked?_rename, hasked]
        exact hrun archive
      rw [hrun, hreplay]
      exact ⟨h, .error _⟩
  | readScript script =>
      refine mirrors_of_look h (fun archive => archive.report (ScriptId.rename name script)) rfl
        (Action.ending_read_bind_pure _ _ _) hexcused ?_ ?_
      · exact fun error herror => herror ▸ Heap.excused_of_lookUp
          (Heap.lookUp_of_script_error (Heap.error_of_report herror))
      · refine fun report hreport => ⟨report.rename name, h.report hreport ?_, rfl⟩
        intro error herror
        exact hgood error (by rwa [Request.faults, Request.result, Request.action, run,
          Action.ending_read_bind_pure, hreport])
  | readAtom atom =>
      refine mirrors_of_look h (fun archive => archive.atom (AtomId.rename name atom)) rfl
        (Action.ending_read_bind_pure _ _ _) hexcused ?_ ?_
      · exact fun error herror => herror ▸ Heap.excused_of_lookUp (Heap.lookUp_of_atom_error herror)
      · exact fun text htext => ⟨text, h.atom htext, rfl⟩
  | readScope scope =>
      refine mirrors_of_look h (fun archive => archive.scope (ScopeId.rename name scope)) rfl
        (Action.ending_read_bind_pure _ _ _) hexcused ?_ ?_
      · exact fun error herror => herror ▸ Heap.excused_of_lookUp
          (Heap.lookUp_of_scope_error herror)
      · exact fun content hcontent => ⟨content.rename name, h.scope hcontent, rfl⟩
  | planThing scope =>
      refine mirrors_of_look h
        (fun archive => archive.thingOf (ScopeId.rename name scope) .emptyGlobalScope) rfl
        (Action.ending_read_bind_pure _ _ _) hexcused ?_ ?_
      · exact fun error herror => herror ▸ Heap.excused_of_lookUp
          (Heap.lookUp_of_scope_error (Heap.error_of_thingOf herror))
      · exact fun thing hthing => ⟨thing.rename name, h.thingOf hthing, rfl⟩
  | compareImages left right => exact mirrors_of_compare h hsharing left right
  | addRoot cell =>
      obtain ⟨hroot, hmirrors⟩ := h.addRoot cell
      have hreplay : ((addRoot cell).rename name).replay archive =
          (.ok (.root (archive.addRoot (CellRef.rename name cell)).1),
            (archive.addRoot (CellRef.rename name cell)).2) := rfl
      rw [hreplay, hroot]
      exact ⟨hmirrors, .reply (.root (heap.addRoot cell).1)⟩
  | readRoot root =>
      have hreplay : ((readRoot root).rename name).replay archive =
          (.ok (.rooted (archive.root? root)), archive) := rfl
      rw [hreplay, h.root?_eq]
      exact ⟨h, .reply (.rooted (heap.root? root))⟩
  | removeRoot root => exact ⟨h.removeRoot root, .reply .done⟩
  | recordStore owner target => exact ⟨{ h with }, .reply .done⟩
  | askLive cell => exact ⟨h, .truth _ _⟩
  | readStores => exact ⟨h, .stores _ _⟩
  | readPlan => exact ⟨h, .reply (.plan .ofGlobalScript)⟩
  | collect => exact ⟨h.keeps (Heap.keeps_collected heap), .reply .done⟩
  | setZeal on => exact ⟨{ h with }, .reply .done⟩
  | failAfter count => exact ⟨{ h with }, .reply .done⟩
  | allocScope | allocScript => simp [asked?] at hasked
  | createThings | createAtoms | createImage | initThing | initAtom | patchImage | setFlags | share
  | fillThings => simp [amends?] at hamends

/-- An operation that is passed references to cells of the heap, and that is not
refused for lack of room or of a cell, ends on the archive as it does on the heap. Only
an address that was not issued before gets another name. -/
theorem mirrors_run (h : heap.Mirrors name archive) (hsound : heap.Sound)
    (hsharing : heap.SharingSound) (hcoherent : heap.Coherent issued)
    (hnext : (operation.run.ending heap).2.Coherent
      ((Request.perform operation).issuedAfter heap issued))
    (hrefs : ∀ ref ∈ operation.refs, ref ∈ Issue.refs issued)
    (hgood : ∀ error ∈ (Request.perform operation).faults heap, error.ofTiming = false) :
    ∃ other : CellId → CellId, (∀ issue ∈ issued, other issue.id = name issue.id) ∧
      (operation.run.ending heap).2.Mirrors other ((operation.rename name).replay archive).2 ∧
      Reflects (operation.findsBoth heap) other (operation.run.ending heap).1
        ((operation.rename name).replay archive).1 := by
  have hfaults : ∀ error ∈ (Request.perform operation).faults heap,
      error.ofTiming = false ∧ error.isWrongKind = false := fun error herror =>
    ⟨hgood error herror, Request.not_wrongKind_of_faults hsound hcoherent hnext hrefs herror⟩
  have hexcused := not_excused_of_faults hfaults
  cases hasked : operation.asked? with
  | some cell => exact mirrors_of_asked h hsound hcoherent hnext hrefs hasked hexcused
  | none =>
      refine ⟨name, fun _ _ => rfl, ?_⟩
      cases hamends : operation.amends? with
      | some amendment => exact mirrors_of_amends h hsound hamends hexcused
      | none => exact mirrors_of_other h hsharing hasked hamends hfaults

end Operation

end ScriptLinker
