import ScriptLinker.Proofs.Replies
/-!
# Runs of a heap and the references they hand out

A history is a heap with the cells placed on it so far and the references it has
handed out. It admits a request that passes only references handed out before,
if the request wraps no generation. `issued_faithfully` says that along admitted
requests a reference never comes to name another cell than the one it was issued
for.
-/

namespace ScriptLinker

/-- A heap with what has happened on it. -/
structure History where
  heap : Heap
  /-- The cells placed so far with their addresses, the newest first. -/
  issued : List Issue := []
  /-- The references handed out so far. -/
  returned : List CellRef := []

namespace History

/-- The history after a request. -/
def next (history : History) (request : Request) : History where
  heap := request.next history.heap
  issued := request.issuedAfter history.heap history.issued
  returned := request.handedOut history.heap ++ history.returned

/-- A request that passes only references handed out before and that makes no
slot's generation start over. -/
structure Admits (history : History) (request : Request) : Prop where
  refs_returned : ∀ ref ∈ request.refs, ref ∈ history.returned
  no_wrap : ∀ index,
    history.heap.generationAt index ≤ (request.next history.heap).generationAt index

/-- One admitted request. -/
def Step (history after : History) : Prop :=
  ∃ request, history.Admits request ∧ after = history.next request

/-- Any number of admitted requests. -/
abbrev Run : History → History → Prop := Relation.ReflTransGen Step

/-- The history after requests, first to last. -/
def nextAll (requests : List Request) (history : History) : History :=
  requests.foldl next history

/-- Whether requests are admitted one after the other. -/
def AdmitsAll : List Request → History → Prop
  | [], _ => True
  | request :: rest, history => history.Admits request ∧ AdmitsAll rest (history.next request)

theorem run_nextAll {requests : List Request} {history : History}
    (h : AdmitsAll requests history) : Run history (nextAll requests history) := by
  induction requests generalizing history with
  | nil => exact .refl
  | cons request rest ih => exact .head ⟨request, h.1, rfl⟩ (ih h.2)

/-- Whether requests pass only references that were handed out before. -/
def Passes : List Request → History → Prop
  | [], _ => True
  | request :: rest, history =>
    (∀ ref ∈ request.refs, ref ∈ history.returned) ∧ Passes rest (history.next request)

/-- Whether requests make no generation start over. -/
def Lasts : List Request → History → Prop
  | [], _ => True
  | request :: rest, history =>
    (∀ index, history.heap.generationAt index ≤
      (request.next history.heap).generationAt index) ∧ Lasts rest (history.next request)

theorem admitsAll_iff (requests : List Request) (history : History) :
    AdmitsAll requests history ↔ Passes requests history ∧ Lasts requests history := by
  induction requests generalizing history with
  | nil => simp [AdmitsAll, Passes, Lasts]
  | cons request rest ih =>
      have hadmits : history.Admits request ↔ (∀ ref ∈ request.refs, ref ∈ history.returned) ∧
          ∀ index, history.heap.generationAt index ≤
            (request.next history.heap).generationAt index :=
        ⟨fun h => ⟨h.refs_returned, h.no_wrap⟩, fun h => ⟨h.1, h.2⟩⟩
      simp only [AdmitsAll, Passes, Lasts, ih, hadmits]
      tauto

theorem passes_append (first rest : List Request) (history : History) :
    Passes (first ++ rest) history ↔
      Passes first history ∧ Passes rest (nextAll first history) := by
  induction first generalizing history with
  | nil => simp [Passes, nextAll]
  | cons request first ih => simp only [List.cons_append, Passes, ih, and_assoc]; rfl

theorem admitsAll_of_append {first rest : List Request} (h : AdmitsAll (first ++ rest) history) :
    AdmitsAll first history := by
  induction first generalizing history with
  | nil => trivial
  | cons request first ih => exact ⟨h.1, ih h.2⟩

theorem heap_nextAll (requests : List Request) (history : History) :
    (nextAll requests history).heap = Request.nextAll requests history.heap := by
  induction requests generalizing history with
  | nil => rfl
  | cons request rest ih => exact ih (history.next request)

theorem nextAll_append (first rest : List Request) (history : History) :
    nextAll (first ++ rest) history = nextAll rest (nextAll first history) :=
  List.foldl_append

/-- The slots past the end of the table have no generation to wrap. -/
theorem no_wrap_iff (heap after : Heap) :
    (∀ index, heap.generationAt index ≤ after.generationAt index) ↔
      ∀ index < heap.slots.size, heap.generationAt index ≤ after.generationAt index := by
  constructor
  · exact fun h index _ => h index
  · intro h index
    by_cases hindex : index < heap.slots.size
    · exact h index hindex
    · have hnone : heap.slots[index]? = none := by simpa using hindex
      simp [Heap.generationAt, Heap.addressOf, Array.getD_eq_getD_getElem?, hnone]

instance (history : History) (request : Request) : Decidable (history.Admits request) :=
  decidable_of_iff
    ((∀ ref ∈ request.refs, ref ∈ history.returned) ∧
      ∀ index < history.heap.slots.size,
        history.heap.generationAt index ≤ (request.next history.heap).generationAt index)
    ⟨fun h => ⟨h.1, (no_wrap_iff _ _).2 h.2⟩, fun h => ⟨h.1, (no_wrap_iff _ _).1 h.2⟩⟩

instance decidableAdmitsAll : (requests : List Request) → (history : History) →
    Decidable (AdmitsAll requests history)
  | [], _ => .isTrue trivial
  | request :: rest, history =>
    have := decidableAdmitsAll rest (history.next request)
    inferInstanceAs (Decidable (_ ∧ _))

/-- What holds of every history. -/
structure Sound (history : History) : Prop where
  heap : history.heap.Sound
  coherent : history.heap.Coherent history.issued
  returned_issued : ∀ ref ∈ history.returned, ref ∈ Issue.refs history.issued

theorem Sound.next {history : History} (h : history.Sound) {request : Request}
    (hadmits : history.Admits request) : (history.next request).Sound := by
  have hrefs : ∀ ref ∈ request.refs, ref ∈ Issue.refs history.issued :=
    fun ref href => h.returned_issued ref (hadmits.refs_returned ref href)
  refine ⟨Request.sound_next h.heap request,
    Request.coherent_next h.heap h.coherent hrefs hadmits.no_wrap, fun ref href => ?_⟩
  rcases List.mem_append.1 href with hnew | hold
  · exact Request.handedOut_issued h.heap h.coherent hrefs hnew
  · exact Request.refs_subset_issuedAfter (h.returned_issued ref hold)

/-- A run starts on an empty heap, with nothing handed out. -/
theorem sound_initial {heap : Heap} (h : heap.Initial) : Sound { heap } := by
  refine ⟨h.sound, ?_, by simp⟩
  have hslots : heap.slots = #[] ∧ heap.roots = [] ∧ heap.storeBuffer = #[] := by
    cases h with
    | ofLimits limits => exact ⟨rfl, rfl, rfl⟩
    | ofSettings hsettings =>
        rw [Heap.eq_of_ofSettings? hsettings]
        exact ⟨rfl, rfl, rfl⟩
  obtain ⟨hslots, hroots, hbuffer⟩ := hslots
  have hdead : ∀ id, heap.cell? id = none := by
    intro id
    simp [Heap.cell?, Heap.cellAt?, Heap.slotAt?, hslots]
  refine ⟨List.nodup_nil, by simp, by simp, by simp, ?_, ?_⟩
  · intro id hlive
    simp [Heap.isLive, hdead] at hlive
  · rintro ref (hroot | ⟨id, hedge⟩ | ⟨owner, hstore⟩)
    · simp [hroots] at hroot
    · obtain ⟨cell, hcell, _⟩ := (Heap.edge_iff heap id ref).1 hedge
      simp [hdead] at hcell
    · simp [hbuffer] at hstore

theorem Sound.run {history later : History} (h : history.Sound) (hrun : Run history later) :
    later.Sound := by
  induction hrun with
  | refl => exact h
  | tail _ hstep ih =>
      obtain ⟨request, hadmits, rfl⟩ := hstep
      exact ih.next hadmits

/-- What was issued stays issued, and generations only rise. -/
theorem Run.mono {history later : History} (hrun : Run history later) :
    (∀ issue ∈ history.issued, issue ∈ later.issued) ∧
      ∀ index, history.heap.generationAt index ≤ later.heap.generationAt index := by
  induction hrun with
  | refl => exact ⟨fun _ => id, fun _ => le_refl _⟩
  | tail _ hstep ih =>
      obtain ⟨request, hadmits, rfl⟩ := hstep
      exact ⟨fun issue hissue => List.mem_append_right _ (ih.1 issue hissue),
        fun index => (ih.2 index).trans (hadmits.no_wrap index)⟩

/-- An address that names nothing never names anything again. -/
theorem Sound.stale_forever {history later : History} (h : history.Sound)
    (hrun : Run history later) {issue : Issue} (hissue : issue ∈ history.issued)
    (hstale : ¬ history.heap.isLive issue.id = true) : ¬ later.heap.isLive issue.id = true :=
  h.coherent.not_live_of_stale hissue hstale (hrun.mono.2 issue.id.index)

/-- Along a run of admitted requests on one heap, of any length, every address is issued for
one cell only and names that cell or nothing.

What is handed out was issued. Now and later an issued reference names what has become of
its cell, or it is stale, and then it stays stale. The next request answers with a reference
to the cell that it asked for, if it asked for one and succeeds, and it never meets a cell
of the wrong kind. -/
theorem issued_faithfully {start : Heap} (hinitial : start.Initial) {history : History}
    (hrun : Run { heap := start } history) :
    (history.issued.map Issue.id).Nodup ∧
    (∀ ref ∈ history.returned, ∃ issue ∈ history.issued, issue.ref = ref) ∧
    (∀ issue ∈ history.issued, ∀ later, Run history later →
      (∃ cell, later.heap.lookUp issue.ref = .ok cell ∧ issue.cell.Continues cell) ∨
        later.heap.lookUp issue.ref = .error (.staleReference issue.id)) ∧
    (∀ issue ∈ history.issued,
      history.heap.lookUp issue.ref = .error (.staleReference issue.id) →
      ∀ later, Run history later →
        later.heap.lookUp issue.ref = .error (.staleReference issue.id)) ∧
    ∀ request, history.Admits request →
      (∀ cell reply, request.asked? = some cell → request.result history.heap = .ok reply →
        ∃ issue ∈ (history.next request).issued, reply = .cell issue.ref ∧ issue.cell = cell) ∧
      ∀ error ∈ request.faults history.heap, error.isWrongKind = false := by
  have hsound := (sound_initial hinitial).run hrun
  refine ⟨hsound.coherent.ids_nodup, hsound.returned_issued, ?_, ?_, ?_⟩
  · intro issue hissue later hlater
    exact (hsound.run hlater).coherent.lookUp_of_issue (hlater.mono.1 issue hissue)
  · intro issue hissue hstale later hlater
    have hdead := hsound.stale_forever hlater hissue
      (by simpa using Heap.not_live_of_lookUp hstale)
    rw [Heap.lookUp_of_not_live (by rwa [Issue.id_ref]), Issue.id_ref]
  · intro request hadmits
    have hrefs : ∀ ref ∈ request.refs, ref ∈ Issue.refs history.issued :=
      fun ref href => hsound.returned_issued ref (hadmits.refs_returned ref href)
    refine ⟨fun cell reply hasked hresult => ?_, fun error herror => ?_⟩
    · exact Request.answer_of_asked hsound.heap hsound.coherent hasked hresult
    · exact Request.not_wrongKind_of_faults hsound.heap hsound.coherent
        (hsound.next hadmits).coherent hrefs herror

/-- A slot that an atom left is taken by a script, and the atom's reference is stale. -/
theorem issued_faithfully_reusedSlot :
    ∃ history : History, Run { heap := .ofLimits ⟨1000, 1000⟩ } history ∧
      history.issued.map Issue.id = [⟨1, 1⟩, ⟨1, 0⟩, ⟨0, 0⟩] ∧
      history.heap.lookUp (.atom ⟨⟨1, 0⟩⟩) = .error (.staleReference ⟨1, 0⟩) ∧
      history.Admits (.perform (.readAtom ⟨⟨1, 0⟩⟩)) ∧
      ∀ error ∈ (Request.perform (.readAtom ⟨⟨1, 0⟩⟩)).faults history.heap,
        error.isWrongKind = false := by
  have hadmits : AdmitsAll [.perform (.allocScope .global none), .perform (.atomize [120]),
      .perform .collect, .perform (.allocScript {})] { heap := .ofLimits ⟨1000, 1000⟩ } := by
    decide +kernel
  have hrun := run_nextAll hadmits
  obtain ⟨_, _, _, _, hnext⟩ := issued_faithfully (.ofLimits _) hrun
  refine ⟨_, hrun, by decide +kernel, by decide +kernel, by decide +kernel, ?_⟩
  exact (hnext _ (by decide +kernel)).2

end History

/-- Admitted requests led to a heap: each passed only references handed out before, and
none made the generation of a slot start over. -/
def Heap.Admitted (heap : Heap) : Prop :=
  ∃ start history, start.Initial ∧ History.Run { heap := start } history ∧ history.heap = heap

/-- A request without references is admitted where it makes no generation start over. -/
theorem Heap.Admitted.next {heap : Heap} (h : heap.Admitted) {request : Request}
    (hrefs : request.refs = [])
    (hsteady : ∀ index, heap.generationAt index ≤ (request.next heap).generationAt index) :
    (request.next heap).Admitted := by
  obtain ⟨start, history, hinitial, hrun, rfl⟩ := h
  have hadmits : history.Admits request := ⟨by simp [hrefs], hsteady⟩
  exact ⟨start, history.next request, hinitial, hrun.tail ⟨request, hadmits, rfl⟩, rfl⟩

/-- Such a heap issued all the references that it holds. -/
theorem Heap.Admitted.coherent {heap : Heap} (h : heap.Admitted) :
    ∃ issued, heap.Coherent issued := by
  obtain ⟨start, history, hinitial, hrun, rfl⟩ := h
  exact ⟨history.issued, ((History.sound_initial hinitial).run hrun).coherent⟩

end ScriptLinker
