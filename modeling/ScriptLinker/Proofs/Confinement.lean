import ScriptLinker.Proofs.Client
import ScriptLinker.Proofs.Outcomes
/-!
# What building a script leaves alone

`base.Confines heap` says that on `heap` everything is as it was that the roots of
`base` reach, and that these roots are still there, the stack roots below any
others. Whatever fills a script that is not reached keeps this, so building a
script does, whether it succeeds or fails. Nothing is asked of the scope that the
script is to refer to: it may be gone.
-/

namespace ScriptLinker.Heap

variable {base heap after : Heap} {script : ScriptId}

/-- Everything that the roots of `base` reach is on the heap as it was, and so are
these roots, with nothing below the stack roots. -/
structure Confines (base heap : Heap) : Prop extends Intact base heap where
  stack_kept : base.rootStack <+: heap.rootStack

namespace Confines

theorem refl (h : heap.Sound) : heap.Confines heap :=
  ⟨⟨h, fun _ _ => rfl, rfl, rfl, rfl⟩, List.prefix_rfl⟩

/-- What was reached still is. -/
theorem reaches (h : base.Confines heap) {id : CellId} (hid : base.Reaches id) :
    heap.Reaches id := by
  refine hid.of_embedding (fun ref href => ?_) fun source cell hsource hcell => ?_
  · simp only [roots, List.mem_append, h.persistentRoots] at href ⊢
    exact href.imp_left fun hstack => h.stack_kept.subset hstack
  · exact ⟨cell, (h.cell? hsource).trans hcell, fun _ href => href⟩

theorem keeps (h : base.Confines heap) (hkeeps : heap.Keeps after) (hsound : after.Sound) :
    base.Confines after where
  sound := hsound
  slots := fun id hid => (hkeeps.slots id (h.reaches hid)).trans (h.slots id hid)
  persistentRoots := hkeeps.persistentRoots.trans h.persistentRoots
  freeRoots := hkeeps.freeRoots.trans h.freeRoots
  limits := hkeeps.limits.trans h.limits
  stack_kept := hkeeps.rootStack ▸ h.stack_kept

/-- A script that is not reached can be rewritten. -/
theorem rewrite (h : base.Confines heap) (hfresh : ¬ base.Reaches script.id)
    {content changed : Script} {recharge : Nat → Nat} (hscript : heap.script script = .ok content)
    (hrewrites : heap.Rewrites script changed recharge after) (hsound : after.Sound) :
    base.Confines after where
  sound := hsound
  slots := fun id hid => by
    have hlive := isLive_of_script hscript
    have hindex : id.index ≠ script.id.index := fun heq =>
      hfresh (eq_of_isLive_of_index_eq (h.reaches hid).isLive hlive heq ▸ hid)
    exact (hrewrites.others hindex).trans (h.slots id hid)
  persistentRoots := hrewrites.persistentRoots.trans h.persistentRoots
  freeRoots := hrewrites.freeRoots.trans h.freeRoots
  limits := hrewrites.limits.trans h.limits
  stack_kept := hrewrites.rootStack ▸ h.stack_kept

/-- A new cell takes the slot of none that is reached. -/
theorem birth (h : base.Confines heap) (hslots : heap.SlotsSound) {issue : Issue}
    (hbirth : Birth heap issue after) (hsound : after.Sound) : base.Confines after := by
  obtain ⟨bytes, placed, hplaced, hafter⟩ := hbirth.placed hslots
  rw [hafter] at hsound ⊢
  refine ⟨⟨hsound, fun id hid => ?_, ?_, ?_, ?_⟩, ?_⟩
  · exact (hplaced.slot_of_isLive (h.reaches hid).isLive).trans (h.slots id hid)
  · exact hplaced.persistentRoots.trans h.persistentRoots
  · exact hplaced.freeRoots.trans h.freeRoots
  · exact hplaced.limits.trans h.limits
  · exact hplaced.rootStack ▸ h.stack_kept

theorem pushRoot (h : base.Confines heap) (ref : CellRef) :
    base.Confines (heap.pushRoot ref) where
  sound := h.sound.congr rfl rfl rfl rfl rfl rfl
  slots := h.slots
  persistentRoots := h.persistentRoots
  freeRoots := h.freeRoots
  limits := h.limits
  stack_kept := h.stack_kept.trans (List.prefix_append _ _)

/-- Dropping the stack roots above those of `base`. -/
theorem truncateRoots (h : base.Confines heap) :
    base.Confines (heap.truncateRoots base.rootStack.length) where
  toIntact := h.toIntact.truncateRoots _
  stack_kept := by
    rw [rootStack_truncateRoots, ← List.prefix_iff_eq_take.1 h.stack_kept]

/-- A change of a script that is not reached stays outside, whether it succeeds or
fails. -/
theorem amending (h : base.Confines heap) (hfresh : ¬ base.Reaches script.id) {α : Type}
    {change : Script → Except HeapError Script} {answer : Script → α}
    {ending : Except HeapError α × Heap} (hamending : heap.Amending script change answer ending)
    (hsound : ending.2.Sound) : base.Confines ending.2 := by
  rcases hamending with ⟨_, hkeeps⟩ | ⟨result, hamends, _⟩
  · exact h.keeps hkeeps hsound
  · generalize ending.2 = after at hamends hsound
    cases hamends with
    | refused => exact h
    | changed _ _ _ hkeeps hready hscript hrewrites =>
        exact (h.keeps hkeeps hready).rewrite hfresh hscript hrewrites hsound

/-- So does a request for a cell. -/
theorem bearing (h : base.Confines heap) {α : Type} {cell : Cell} {answer : CellId → α}
    {ending : Except HeapError α × Heap} (hbearing : heap.Bearing cell answer ending)
    (hsound : ending.2.Sound) : base.Confines ending.2 := by
  rcases hbearing with ⟨_, hkeeps⟩ | ⟨id, _, hbears⟩
  · exact h.keeps hkeeps hsound
  · generalize ending.2 = after at hbears hsound
    generalize heap.placed? cell = issue at hbears
    cases hbears with
    | found => exact h
    | placed hkeeps hready hbirth =>
        exact (h.keeps hkeeps hready).birth hready.slots hbirth hsound

/-- What is requested to fill a script that is not reached stays outside. -/
theorem fillInvariant (hfresh : ¬ base.Reaches script.id) :
    FillInvariant script fun _ heap => base.Confines heap where
  next := fun {_ heap request} hfills h _ => by
    have hsound := request.sound_next h.sound
    cases hfills with
    | atomize bytes =>
        rw [Request.next, Request.action, Operation.run, Action.state_ending_bind_pure] at hsound ⊢
        unfold atomize at hsound ⊢
        cases hdecode : Utf8.decode? bytes with
        | none => exact h
        | some text =>
            rw [hdecode] at hsound
            exact h.bearing (bearing_intern h.sound text) hsound
    | createThings | createAtoms | createImage | fillThings | initAtom | patchImage | setFlags
    | share =>
        exact h.amending hfresh (Operation.amending_run h.sound rfl) hsound
  mono := fun h _ => h

end Confines

/-- Building a script stays outside of what was reached, whatever comes of it. -/
theorem confines_build (h : base.Sound) {blueprint : Blueprint}
    (hplan : blueprint.plan = .ofGlobalScript) (globalScope : ScopeId) :
    base.Confines ((blueprint.build globalScope).ending base).2 := by
  have hshell : (allocScript blueprint.extent).Ensures base
      (fun script after => base.Confines after ∧ ¬ base.Reaches script.id)
      (fun _ after => base.Confines after) := by
    refine ((ensures_allocate h _ _).mono ?_ ?_).bind fun id after hafter =>
      (hafter : base.Confines after ∧ ¬ base.Reaches id)
    · rintro id after ⟨ready, hkeeps, hsound, hplaces, _⟩
      have hready := (Confines.refl h).keeps hkeeps hsound
      have hbirth : Birth ready ⟨id, .script { extent := blueprint.extent }⟩ after :=
        .plain (by simp) hplaces
      refine ⟨hready.birth hsound.slots hbirth (hsound.birth hbirth), fun hid => ?_⟩
      have hlive := (hready.reaches hid).isLive
      simp [isLive, (hplaces.placed hsound.slots).not_live] at hlive
    · exact fun error after hafter => (Confines.refl h).keeps hafter.1 hafter.2.1
  rw [← keeping_iff base.Confines, Blueprint.build_eq]
  refine ensures_withRoots (hshell.bind ?_) (fun _ _ => Confines.truncateRoots)
    fun _ _ => Confines.truncateRoots
  rintro script shell ⟨hconfines, hfresh⟩
  refine Action.ensures_modify_bind (Action.ensures_note_bind _ ?_)
  have hscope : CellRef.scope globalScope ∈ [CellRef.scope globalScope, .script script] :=
    List.mem_cons_self
  have hfill := (Confines.fillInvariant hfresh).ensures_fill (hconfines.pushRoot (.script script))
    hplan hscope (List.mem_cons_of_mem _ List.mem_cons_self)
  exact hfill.mono (fun _ _ hafter => hafter.2) fun _ _ hafter => hafter

/-- The stack roots after a construction are those before it. -/
theorem rootStack_build (h : base.Sound) {blueprint : Blueprint}
    (hplan : blueprint.plan = .ofGlobalScript) (globalScope : ScopeId) :
    ((blueprint.build globalScope).ending base).2.rootStack = base.rootStack := by
  have hprefix := (confines_build h hplan globalScope).stack_kept
  rw [← take_rootStack_build, ← List.prefix_iff_eq_take.1 hprefix]

end ScriptLinker.Heap
