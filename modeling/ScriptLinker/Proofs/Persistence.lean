import ScriptLinker.Proofs.Lifetimes
import ScriptLinker.Proofs.Sharing
/-!
# What becomes of a cell while it lives

A request leaves a cell in its place, revised at most, or its slot moves on to
another generation, so that its address names nothing. `AliveAlong` says that a cell
outlasts some requests; it is then never another one's. What a live script refers to
is alive, whatever references the heap was passed, so that the things and the atoms of
a script last as long as it does.
-/

namespace ScriptLinker

namespace Cell

theorem Continues.trans {first middle last : Cell} (h : first.Continues middle)
    (h' : middle.Continues last) : first.Continues last := by
  cases h with
  | atom text => exact h'
  | scope content => exact h'
  | script hrun =>
      cases h' with
      | script hrest => exact .script (hrun.trans hrest)

end Cell

namespace Heap

variable {given : Set CellRef} {heap after : Heap} {id : CellId} {cell : Cell}

theorem succ_mod_ne (generation : Nat) : (generation + 1) % UInt32.size ≠ generation := by
  have hsize : UInt32.size = 4294967296 := rfl
  rw [hsize]
  omega

/-- What has become of a cell that is still in its place. -/
def CarriesOn (cell : Cell) (id : CellId) (heap : Heap) : Prop :=
  ∃ last, heap.cell? id = some last ∧ cell.Continues last

theorem CarriesOn.isLive (h : CarriesOn cell id heap) : heap.isLive id = true := by
  obtain ⟨last, hlast, _⟩ := h
  exact (isLive_iff _ _).2 ⟨last, hlast⟩

theorem CarriesOn.move (h : CarriesOn cell id heap) (hmove : Move given heap after) :
    CarriesOn cell id after := by
  obtain ⟨last, hlast, hcontinues⟩ := h
  rcases hmove.cell?_cases with hsame | ⟨script, content, changed, hscript, hrevises, _, hcells⟩
  · exact ⟨last, (hsame id).trans hlast, hcontinues⟩
  · rw [CarriesOn, hcells]
    split
    · rename_i heq
      rw [heq, (script_eq_ok_iff heap script content).1 hscript] at hlast
      obtain rfl := Option.some.inj hlast
      exact ⟨_, rfl, hcontinues.revises hrevises⟩
    · exact ⟨last, hlast, hcontinues⟩

theorem CarriesOn.moves (h : CarriesOn cell id heap) (hmoves : Moves given heap after) :
    CarriesOn cell id after :=
  hmoves.keep CarriesOn.move h

/-- A new cell takes the place of none. -/
theorem CarriesOn.birth (h : CarriesOn cell id heap) (hslots : heap.SlotsSound) {issue : Issue}
    (hbirth : Birth heap issue after) : CarriesOn cell id after := by
  obtain ⟨last, hlast, hcontinues⟩ := h
  obtain ⟨_, placed, hplaced, _⟩ := hbirth.placed hslots
  have hne : id ≠ issue.id := fun heq => hplaced.index_ne hlast (congrArg CellId.index heq)
  refine ⟨last, ?_, hcontinues⟩
  rw [hbirth.cell? hslots, if_neg hne, hlast]

/-- A cell is left in its place by a passage, or its slot moves on. -/
theorem Passage.carriesOn_or (hpassage : Passage given heap after)
    (hcell : heap.cell? id = some cell) :
    CarriesOn cell id after ∨ after.generationAt id.index ≠ id.generation := by
  obtain ⟨before, between, ⟨_, hslots, _⟩, hcollect, hafter⟩ := hpassage
  have hbefore : before.cell? id = some cell := (cell?_congr (by rw [hslots])).trans hcell
  rcases hcollect with rfl | rfl
  · exact Or.inl (.moves ⟨cell, hbefore, .refl cell⟩ hafter)
  · by_cases hreached : before.Reaches id
    · have hkept := (cell?_collected_of_reaches hreached).trans hbefore
      exact Or.inl (.moves ⟨cell, hkept, .refl cell⟩ hafter)
    · have hlive := (isLive_iff before id).2 ⟨cell, hbefore⟩
      have hslot := slot_collected_of_swept ((mem_swept before id).2 ⟨hlive, hreached⟩)
      rw [hafter.generationAt_eq, generationAt_of_getElem? hslot]
      exact Or.inr (succ_mod_ne id.generation)

end Heap

namespace Request

variable {heap : Heap} {request : Request} {id : CellId} {cell : Cell}

/-- A request carries a cell on, or its slot moves on. A new cell can only take the
slot in the second case. -/
theorem carriesOn_or (h : heap.Sound) (hcell : heap.cell? id = some cell) :
    Heap.CarriesOn cell id (request.next heap) ∨
      (request.next heap).generationAt id.index ≠ id.generation := by
  rcases next_cases h request with
    hpassage | ⟨_, _, _, hpassage, hbirth⟩ | ⟨roots, free, hroots⟩
  · exact hpassage.carriesOn_or hcell
  · have hslots := (h.passage hpassage).slots
    obtain ⟨_, placed, hplaced, hafter⟩ := hbirth.placed hslots
    refine (hpassage.carriesOn_or hcell).imp (.birth · hslots hbirth) fun hmoved => ?_
    rw [hafter]
    exact (hplaced.generationAt_eq id.index).trans_ne hmoved
  · rw [hroots]
    exact Or.inl ⟨cell, hcell, .refl cell⟩

/-- A cell whose address is live after a request is the one that was there. -/
theorem carriesOn (h : heap.Sound) (hcell : heap.cell? id = some cell)
    (hlive : (request.next heap).isLive id = true) :
    Heap.CarriesOn cell id (request.next heap) :=
  (carriesOn_or h hcell).resolve_right fun hmoved =>
    hmoved (Heap.generationAt_of_isLive hlive)

end Request

namespace Heap

variable {given : Set CellRef} {heap after : Heap} {id : CellId} {cell : Cell}

/-- The cell at an address is alive, and stays so along requests. -/
def AliveAlong (id : CellId) : List Request → Heap → Prop
  | [], heap => heap.isLive id = true
  | request :: rest, heap => heap.isLive id = true ∧ AliveAlong id rest (request.next heap)

instance decidableAliveAlong (id : CellId) : (requests : List Request) → (heap : Heap) →
    Decidable (AliveAlong id requests heap)
  | [], heap => inferInstanceAs (Decidable (heap.isLive id = true))
  | request :: rest, heap =>
    have := decidableAliveAlong id rest (request.next heap)
    inferInstanceAs (Decidable (_ ∧ _))

namespace AliveAlong

variable {requests : List Request}

theorem isLive (h : AliveAlong id requests heap) : heap.isLive id = true := by
  cases requests with
  | nil => exact h
  | cons request rest => exact h.1

/-- What every request keeps that the cell outlasts holds at the end. -/
theorem keep {p : Heap → Prop} (h : AliveAlong id requests heap)
    (hstep : ∀ {before : Heap} (request : Request), p before →
      (request.next before).isLive id = true → p (request.next before))
    (hstart : p heap) : p (Request.nextAll requests heap) := by
  induction requests generalizing heap with
  | nil => exact hstart
  | cons request rest ih => exact ih h.2 (hstep request hstart h.2.isLive)

/-- A cell that lives on is the same one throughout. -/
theorem carriesOn (h : AliveAlong id requests heap) (hsound : heap.Sound)
    (hcell : heap.cell? id = some cell) : CarriesOn cell id (Request.nextAll requests heap) := by
  refine (h.keep (p := fun heap => heap.Sound ∧ CarriesOn cell id heap) ?_
    ⟨hsound, cell, hcell, .refl cell⟩).2
  rintro before request ⟨hbefore, middle, hmiddle, hcontinues⟩ hlive
  obtain ⟨last, hlast, hrest⟩ := request.carriesOn hbefore hmiddle hlive
  exact ⟨request.sound_next hbefore, last, hlast, hcontinues.trans hrest⟩

end AliveAlong

theorem Reachable.ages_nextAll (h : heap.Reachable) (requests : List Request) :
    Ages heap (Request.nextAll requests heap) := by
  induction requests generalizing heap with
  | nil => exact .of_eq rfl fun _ => rfl
  | cons request rest ih => exact (Ages.next h.sound request).trans (ih (h.request request))

/-- Before generations start over, a cell that is alive at the end was so throughout: its
slot would else have moved past the address for good. -/
theorem AliveAlong.of_isLive {requests : List Request} (h : heap.Reachable)
    (hruns : (Request.nextAll requests heap).stats.gcRuns < UInt32.size)
    (hstart : heap.isLive id = true) (hend : (Request.nextAll requests heap).isLive id = true) :
    AliveAlong id requests heap := by
  induction requests generalizing heap with
  | nil => exact hstart
  | cons request rest ih =>
      have hreachable := h.request request
      have hrest := hreachable.ages_nextAll rest
      refine ⟨hstart, ih hreachable hruns ?_ hend⟩
      obtain ⟨cell, hcell⟩ := (isLive_iff heap id).1 hstart
      have hcases : CarriesOn cell id (request.next heap) ∨
          (request.next heap).generationAt id.index ≠ id.generation :=
        Request.carriesOn_or h.sound hcell
      rcases hcases with ⟨last, hlast, _⟩ | hmoved
      · exact (isLive_iff _ _).2 ⟨last, hlast⟩
      · have hle := (Ages.next h.sound request).no_wrap h.aged (hrest.gcRuns_le.trans_lt hruns)
          id.index
        have hle' := hrest.no_wrap hreachable.aged hruns id.index
        have hlast : (Request.nextAll rest (request.next heap)).generationAt id.index =
            id.generation := generationAt_of_isLive hend
        rw [generationAt_of_isLive hstart] at hle
        omega

/-- What the scripts of a heap refer to is alive. -/
def Unbroken (heap : Heap) : Prop :=
  ∀ id content, heap.cell? id = some (.script content) →
    ∀ ref ∈ (Cell.script content).references, heap.isLive ref.id = true

theorem Unbroken.congr (h : heap.Unbroken) (hcells : ∀ id, after.cell? id = heap.cell? id) :
    after.Unbroken := by
  intro id content hcell ref href
  rw [isLive, hcells]
  exact h id content (hcells id ▸ hcell) ref href

/-- A move leaves all cells alone, or it is one that a heap could make that is passed
live references only. -/
theorem Move.live_cases (h : Move given heap after) :
    (∀ id, after.cell? id = heap.cell? id) ∨
      Move { ref | heap.isLive ref.id = true } heap after := by
  cases h with
  | create hscript hroom hgrows => exact Or.inr (.create hscript hroom hgrows)
  | store _ hlive hscript hstores => exact Or.inr (.store hlive hlive hscript hstores)
  | edit hscript hedits => exact Or.inr (.edit hscript hedits)
  | share hscript himage hroom => exact Or.inr (.share hscript himage hroom)
  | _ => exact Or.inl fun _ => rfl

theorem Unbroken.move (h : heap.Unbroken) (hmove : Move given heap after) : after.Unbroken := by
  rcases hmove.live_cases with hsame | hmove
  · exact h.congr hsame
  · rcases hmove.cell?_cases with hsame | ⟨script, content, changed, hscript, _, hrefs, hcells⟩
    · exact h.congr hsame
    · intro id found hfound ref href
      rw [hmove.isLive_eq]
      rw [hcells] at hfound
      split at hfound
      · obtain rfl := Cell.script.inj (Option.some.inj hfound)
        have hheld := h script.id content ((script_eq_ok_iff _ _ _).1 hscript)
        exact (hrefs ref href).elim (hheld ref) fun hlive => hlive
      · exact h id found hfound ref href

theorem Unbroken.collected (h : heap.Unbroken) : heap.collected.Unbroken := by
  intro id content hcell ref href
  have hold := cell?_of_cell?_collected hcell
  have hreached := (isLive_collected_iff heap id).1 ((isLive_iff _ id).2 ⟨_, hcell⟩)
  refine (isLive_collected_iff heap ref.id).2 ?_
  exact .edge hreached ((edge_iff heap id ref).2 ⟨_, hold, href⟩) (h id content hold ref href)

theorem Unbroken.passage (h : heap.Unbroken) (hpassage : Passage given heap after) :
    after.Unbroken :=
  hpassage.keep Unbroken.move Unbroken.collected h

/-- A new cell makes no other one go, and refers to nothing if it is a script. -/
theorem Unbroken.birth {issue : Issue} (h : heap.Unbroken) (hslots : heap.SlotsSound)
    (hbirth : Birth heap issue after)
    (hplain : ∀ content, issue.cell = .script content → (Cell.script content).references = []) :
    after.Unbroken := by
  intro id content hcell ref href
  rw [isLive, hbirth.cell? hslots]
  rw [hbirth.cell? hslots] at hcell
  split at hcell
  · simp [hplain content (Option.some.inj hcell)] at href
  · split
    · rfl
    · exact h id content hcell ref href

end Heap

namespace Request

/-- A script that is asked for refers to nothing yet. -/
theorem references_eq_nil_of_asked {request : Request} {content : Script}
    (h : request.asked? = some (.script content)) : (Cell.script content).references = [] := by
  cases request with
  | perform operation =>
      cases operation with
      | atomize bytes =>
          obtain ⟨text, _, hcell⟩ := Option.map_eq_some_iff.1 h
          simp at hcell
      | allocScope => simp [asked?, Operation.asked?] at h
      | allocScript =>
          obtain rfl := Cell.script.inj (Option.some.inj h)
          rfl
      | _ => simp [asked?, Operation.asked?] at h
  | pushRoot | truncateRoots => simp [asked?] at h

end Request

namespace Heap

variable {heap : Heap} {id : CellId} {requests : List Request}

theorem Unbroken.next (h : heap.Unbroken) (hsound : heap.Sound) (request : Request) :
    (request.next heap).Unbroken := by
  rcases request.next_cases hsound with
    hpassage | ⟨_, _, hborn, hpassage, hbirth⟩ | ⟨roots, free, hroots⟩
  · exact h.passage hpassage
  · refine (h.passage hpassage).birth (hsound.passage hpassage).slots hbirth ?_
    intro content hcell
    have hasked := Request.asked?_of_born? hborn
    exact Request.references_eq_nil_of_asked (hcell ▸ hasked)
  · rw [hroots]
    exact h.congr fun _ => rfl

/-- In a reachable heap the references of a live script name live cells. -/
theorem Reachable.unbroken (h : heap.Reachable) : heap.Unbroken := by
  induction h with
  | initial hinitial =>
      intro id content hcell
      simp [Heap.cell?, cellAt?, slotAt?, hinitial.slots_eq] at hcell
  | request request hreachable ih => exact ih.next hreachable.sound request

end Heap

end ScriptLinker
