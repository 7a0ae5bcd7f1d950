import ScriptLinker.Proofs.Reach
/-!
# Marking is exact

While a marking runs, the references it still has to visit are the unvisited
rest of a list, here called `busy`, and what the pending cells hold.
`Marking.Correct heap busy` says that every mark is deserved and that nothing
reached is missing but for these. A visit takes the head of `busy` away, a round
of `drain` turns a pending cell into a `busy` list and empties it. Each visit
trades an unmarked slot for a pending cell and each round drops one, so as many
rounds as there are slots leave nothing pending.
-/

namespace ScriptLinker.Heap

/-- A live address is the one its slot would issue. -/
theorem addressOf_index {heap : Heap} {id : CellId} (h : heap.isLive id = true) :
    heap.addressOf id.index = id := by
  obtain ⟨slot, hslot, hgeneration, _⟩ := (isLive_iff_slot heap id).1 h
  cases id
  simp_all [addressOf, Array.getD_eq_getD_getElem?]

namespace Marking

theorem isMarked_visit_iff {heap : Heap} {marking : Marking}
    (hsize : marking.marks.size = heap.slots.size) (ref : CellRef) (index : Nat) :
    (visit heap.slots marking ref).isMarked index = true ↔
      marking.isMarked index = true ∨ heap.isLive ref.id = true ∧ ref.id.index = index := by
  have hlive : heap.isLive ref.id = (cellAt? heap.slots ref.id).isSome := rfl
  unfold visit
  cases hcell : cellAt? heap.slots ref.id with
  | none => simp [hlive, hcell, isMarked]
  | some cell =>
      have hbound : ref.id.index < marking.marks.size := by
        obtain ⟨slot, hslot, _⟩ := (cellAt?_eq_some_iff _ _ _).1 hcell
        exact hsize ▸ (Array.getElem?_eq_some_iff.1 hslot).1
      by_cases hmark : marking.isMarked ref.id.index = true
      · simp only [hmark, if_true, hlive, hcell, Option.isSome_some, true_and]
        exact ⟨Or.inl, fun h => h.elim id fun heq => heq ▸ hmark⟩
      · rw [hlive, hcell]
        dsimp only
        rw [if_neg hmark]
        simp only [Option.isSome_some, true_and, isMarked, Array.getD_eq_getD_getElem?,
          Array.getElem?_setIfInBounds]
        by_cases hindex : ref.id.index = index
        · simp [hindex, hindex ▸ hbound]
        · simp [hindex]

theorem mem_pending_visit {slots : Array Slot} {marking : Marking} {id : CellId}
    (h : id ∈ marking.pending) (ref : CellRef) :
    id ∈ (visit slots marking ref).pending := by
  unfold visit
  split
  · exact h
  · split
    · exact h
    · exact List.mem_cons_of_mem _ h

/-- What a visit adds to the pending cells is the cell it visited. -/
theorem mem_pending_of_visit {heap : Heap} {marking : Marking} {ref : CellRef} {id : CellId}
    (h : id ∈ (visit heap.slots marking ref).pending) :
    id ∈ marking.pending ∨ id = ref.id ∧ heap.isLive ref.id = true := by
  have hlive : heap.isLive ref.id = (cellAt? heap.slots ref.id).isSome := rfl
  unfold visit at h
  split at h
  · exact Or.inl h
  · rename_i hcell
    split at h
    · exact Or.inl h
    · rcases List.mem_cons.1 h with heq | hmem
      · exact Or.inr ⟨heq, by simp [hlive, hcell]⟩
      · exact Or.inl hmem

/-- A slot that a visit marks first becomes pending. -/
theorem mem_pending_visit_self {heap : Heap} {marking : Marking} {ref : CellRef}
    (hlive : heap.isLive ref.id = true) (hmark : ¬ marking.isMarked ref.id.index = true) :
    ref.id ∈ (visit heap.slots marking ref).pending := by
  obtain ⟨cell, hcell⟩ := (isLive_iff heap ref.id).1 hlive
  have hat : cellAt? heap.slots ref.id = some cell := hcell
  simp [visit, hat, hmark]

/-- How many rounds a marking can still take: one for each slot without a mark
and one for each pending cell. -/
def remaining (marking : Marking) : Nat :=
  marking.marks.count false + marking.pending.length

theorem remaining_visit {heap : Heap} {marking : Marking}
    (hsize : marking.marks.size = heap.slots.size) (ref : CellRef) :
    (visit heap.slots marking ref).remaining = marking.remaining := by
  unfold visit
  cases hcell : cellAt? heap.slots ref.id with
  | none => rfl
  | some cell =>
      have hbound : ref.id.index < marking.marks.size := by
        obtain ⟨slot, hslot, _⟩ := (cellAt?_eq_some_iff _ _ _).1 hcell
        exact hsize ▸ (Array.getElem?_eq_some_iff.1 hslot).1
      by_cases hmark : marking.isMarked ref.id.index = true
      · simp [hmark]
      · have hfalse : marking.marks[ref.id.index] = false := by
          simpa [isMarked, hbound] using hmark
        have hpos : 0 < marking.marks.count false :=
          Array.count_pos_iff.2 (hfalse ▸ Array.getElem_mem hbound)
        have hcount : (marking.marks.setIfInBounds ref.id.index true).count false =
            marking.marks.count false - 1 := by
          rw [Array.setIfInBounds, dif_pos hbound, Array.count_set hbound, hfalse]
          simp
        dsimp only
        rw [if_neg hmark, remaining, remaining, hcount, List.length_cons]
        omega

theorem remaining_visitAll {heap : Heap} {marking : Marking}
    (hsize : marking.marks.size = heap.slots.size) (refs : List CellRef) :
    (visitAll heap.slots marking refs).remaining = marking.remaining := by
  induction refs generalizing marking with
  | nil => rfl
  | cons ref refs ih =>
      rw [visitAll_cons, ih ((size_marks_visit _ _ _).trans hsize), remaining_visit hsize]

/-- With as many rounds as a marking can take, it finishes. -/
theorem pending_drain {heap : Heap} {marking : Marking} {rounds : Nat}
    (hsize : marking.marks.size = heap.slots.size) (h : marking.remaining ≤ rounds) :
    (drain heap.slots rounds marking).pending = [] := by
  induction rounds generalizing marking with
  | zero =>
      have hnil : marking.pending.length = 0 := by
        have hle : marking.pending.length ≤ marking.remaining := Nat.le_add_left _ _
        omega
      simpa [drain] using hnil
  | succ rounds ih =>
      unfold drain
      cases hpending : marking.pending with
      | nil => exact hpending
      | cons id rest =>
          refine ih ((size_marks_visitAll _ _ _).trans hsize) ?_
          rw [remaining_visitAll (by simpa using hsize)]
          simp only [remaining, hpending, List.length_cons] at h ⊢
          omega

/-- More rounds change nothing once nothing is pending. -/
theorem drain_of_pending_nil {slots : Array Slot} {marking : Marking}
    (h : marking.pending = []) (rounds : Nat) : drain slots rounds marking = marking := by
  cases rounds with
  | zero => rfl
  | succ rounds => simp [drain, h]

theorem drain_add (slots : Array Slot) (rounds more : Nat) (marking : Marking) :
    drain slots (rounds + more) marking = drain slots more (drain slots rounds marking) := by
  induction rounds generalizing marking with
  | zero => simp [drain]
  | succ rounds ih =>
      rw [Nat.add_right_comm]
      cases hpending : marking.pending with
      | nil => simp [drain_of_pending_nil hpending]
      | cons id rest =>
          simp only [drain, hpending]
          exact ih _

/-- Every mark is deserved, and nothing that the roots reach is missing except
through what is pending or in `busy`. -/
structure Correct (heap : Heap) (busy : List CellRef) (marking : Marking) : Prop where
  size_marks : marking.marks.size = heap.slots.size
  pending_live : ∀ id ∈ marking.pending,
    heap.isLive id = true ∧ marking.isMarked id.index = true
  marked_reached : ∀ index, marking.isMarked index = true →
    heap.Reaches (heap.addressOf index)
  busy_reached : ∀ ref ∈ busy, heap.isLive ref.id = true → heap.Reaches ref.id
  root_marked : ∀ ref ∈ heap.roots, heap.isLive ref.id = true →
    marking.isMarked ref.id.index = true ∨ ref ∈ busy
  edge_marked : ∀ id, heap.isLive id = true → marking.isMarked id.index = true →
    id ∈ marking.pending ∨ ∀ ref, heap.Edge id ref → heap.isLive ref.id = true →
      marking.isMarked ref.id.index = true ∨ ref ∈ busy

theorem correct_start (heap : Heap) : Correct heap heap.roots (start heap.slots) where
  size_marks := by simp [start]
  pending_live := by simp [start]
  marked_reached := by
    intro index h
    simp [start, isMarked, Array.getElem?_replicate] at h
    split at h <;> simp at h
  busy_reached := fun _ href hlive => .of_root href hlive
  root_marked := fun _ href _ => Or.inr href
  edge_marked := by
    intro id _ h
    simp [start, isMarked, Array.getElem?_replicate] at h
    split at h <;> simp at h

/-- A visited reference is busy no more, it is marked. -/
theorem Correct.visit {heap : Heap} {ref : CellRef} {busy : List CellRef} {marking : Marking}
    (h : Correct heap (ref :: busy) marking) :
    Correct heap busy (visit heap.slots marking ref) := by
  have hiff := isMarked_visit_iff h.size_marks ref
  have hmono : ∀ {index}, marking.isMarked index = true →
      (Marking.visit heap.slots marking ref).isMarked index = true :=
    fun hmark => (hiff _).2 (Or.inl hmark)
  have hbusy : ∀ other, heap.isLive other.id = true →
      marking.isMarked other.id.index = true ∨ other ∈ ref :: busy →
      (Marking.visit heap.slots marking ref).isMarked other.id.index = true ∨ other ∈ busy := by
    rintro other hlive (hmark | hmem)
    · exact Or.inl (hmono hmark)
    · rcases List.mem_cons.1 hmem with rfl | hmem
      · exact Or.inl ((hiff _).2 (Or.inr ⟨hlive, rfl⟩))
      · exact Or.inr hmem
  refine ⟨(size_marks_visit _ _ _).trans h.size_marks, ?_, ?_, ?_, ?_, ?_⟩
  · intro id hid
    rcases mem_pending_of_visit hid with hold | ⟨rfl, hlive⟩
    · exact ⟨(h.pending_live id hold).1, hmono (h.pending_live id hold).2⟩
    · exact ⟨hlive, (hiff _).2 (Or.inr ⟨hlive, rfl⟩)⟩
  · intro index hmark
    rcases (hiff index).1 hmark with hold | ⟨hlive, rfl⟩
    · exact h.marked_reached index hold
    · rw [addressOf_index hlive]
      exact h.busy_reached ref List.mem_cons_self hlive
  · exact fun other hmem => h.busy_reached other (List.mem_cons_of_mem _ hmem)
  · exact fun other hmem hlive => hbusy other hlive (h.root_marked other hmem hlive)
  · intro id hlive hmark
    by_cases hold : marking.isMarked id.index = true
    · rcases h.edge_marked id hlive hold with hpending | hdone
      · exact Or.inl (mem_pending_visit hpending ref)
      · exact Or.inr fun other hedge htarget => hbusy other htarget (hdone other hedge htarget)
    · obtain ⟨hvisited, hindex⟩ := ((hiff _).1 hmark).resolve_left hold
      obtain rfl := eq_of_isLive_of_index_eq hvisited hlive hindex
      exact Or.inl (mem_pending_visit_self hvisited hold)

theorem Correct.visitAll {heap : Heap} {busy : List CellRef} {marking : Marking}
    (h : Correct heap busy marking) : Correct heap [] (visitAll heap.slots marking busy) := by
  induction busy generalizing marking with
  | nil => exact h
  | cons ref busy ih => exact ih h.visit

theorem edge_iff_mem_referencesAt {heap : Heap} {id : CellId} (hlive : heap.isLive id = true)
    (ref : CellRef) : heap.Edge id ref ↔ ref ∈ referencesAt heap.slots id := by
  obtain ⟨cell, hcell⟩ := (isLive_iff heap id).1 hlive
  obtain ⟨slot, hslot, _, hslotCell⟩ := (cellAt?_eq_some_iff _ _ _).1 hcell
  rw [edge_iff]
  constructor
  · rintro ⟨other, hother, href⟩
    obtain rfl := Option.some.inj (hcell.symm.trans hother)
    simpa [referencesAt, hslot, hslotCell] using href
  · intro href
    exact ⟨cell, hcell, by simpa [referencesAt, hslot, hslotCell] using href⟩

/-- A round turns the next pending cell into the references it holds. -/
theorem Correct.pop {heap : Heap} {marking : Marking} {id : CellId} {rest : List CellId}
    (h : Correct heap [] marking) (hpending : marking.pending = id :: rest) :
    Correct heap (referencesAt heap.slots id) { marking with pending := rest } := by
  obtain ⟨hlive, hmark⟩ := h.pending_live id (by simp [hpending])
  have hreached : heap.Reaches id := addressOf_index hlive ▸ h.marked_reached id.index hmark
  refine ⟨h.size_marks, ?_, h.marked_reached, ?_, ?_, ?_⟩
  · exact fun other hmem => h.pending_live other (by simp [hpending, hmem])
  · intro ref href htarget
    exact .edge hreached ((edge_iff_mem_referencesAt hlive ref).2 href) htarget
  · intro ref href htarget
    exact Or.inl ((h.root_marked ref href htarget).resolve_right List.not_mem_nil)
  · intro other hother hmarked
    rcases h.edge_marked other hother hmarked with hmem | hdone
    · rcases List.mem_cons.1 (hpending ▸ hmem) with rfl | hmem
      · exact Or.inr fun ref hedge _ => Or.inr ((edge_iff_mem_referencesAt hlive ref).1 hedge)
      · exact Or.inl hmem
    · exact Or.inr fun ref hedge htarget =>
        Or.inl ((hdone ref hedge htarget).resolve_right List.not_mem_nil)

theorem Correct.drain {heap : Heap} {marking : Marking} (h : Correct heap [] marking)
    (rounds : Nat) : Correct heap [] (drain heap.slots rounds marking) := by
  induction rounds generalizing marking with
  | zero => exact h
  | succ rounds ih =>
      unfold Marking.drain
      cases hpending : marking.pending with
      | nil => exact h
      | cons id rest => exact ih (h.pop hpending).visitAll

end Marking

theorem correct_mark (heap : Heap) : Marking.Correct heap [] heap.mark :=
  (Marking.correct_start heap).visitAll.drain heap.slots.size

/-- The rounds a collection allows are enough: nothing is left to follow. -/
theorem pending_mark (heap : Heap) : heap.mark.pending = [] := by
  have hsize : (Marking.start heap.slots).marks.size = heap.slots.size := by
    simp [Marking.start]
  apply Marking.pending_drain ((Marking.size_marks_visitAll _ _ _).trans hsize)
  rw [Marking.remaining_visitAll hsize]
  simp [Marking.remaining, Marking.start]

/-- A slot is marked if the roots reach the cell in it. -/
theorem isMarked_mark_iff (heap : Heap) (index : Nat) :
    heap.mark.isMarked index = true ↔ heap.Reaches (heap.addressOf index) := by
  have hcorrect := correct_mark heap
  constructor
  · exact hcorrect.marked_reached index
  · intro h
    have hmarked : ∀ {id}, heap.Reaches id → heap.mark.isMarked id.index = true := by
      intro id hid
      refine Reaches.of_closed (P := fun id => heap.isLive id = true ∧
        heap.mark.isMarked id.index = true) ?_ ?_ hid |>.2
      · intro ref href hlive
        exact ⟨hlive, (hcorrect.root_marked ref href hlive).resolve_right List.not_mem_nil⟩
      · rintro id ref ⟨hlive, hmark⟩ hedge htarget
        have hdone := (hcorrect.edge_marked id hlive hmark).resolve_left
          (by simp [pending_mark])
        exact ⟨htarget, (hdone ref hedge htarget).resolve_right List.not_mem_nil⟩
    exact hmarked h

theorem isMarked_mark_index_iff {heap : Heap} {id : CellId} (hlive : heap.isLive id = true) :
    heap.mark.isMarked id.index = true ↔ heap.Reaches id := by
  rw [isMarked_mark_iff, addressOf_index hlive]

/-- Whether an address is reached can be computed: it is live and marked. -/
instance (heap : Heap) (id : CellId) : Decidable (heap.Reaches id) :=
  decidable_of_iff (heap.isLive id = true ∧ heap.mark.isMarked id.index = true) <| by
    constructor
    · exact fun h => (isMarked_mark_index_iff h.1).1 h.2
    · exact fun h => ⟨h.isLive, (isMarked_mark_index_iff h.isLive).2 h⟩

end ScriptLinker.Heap
