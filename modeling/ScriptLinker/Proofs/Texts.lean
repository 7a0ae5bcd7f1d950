import ScriptLinker.Proofs.Population
/-!
# One atom for each text

On a reachable heap the table of atoms is a bijection between the texts of the live
atoms and the live atoms. So a text that is there already is found without a request
for room, and a text that is not is placed and entered, even where making room for it
frees a slot that an atom of the same text has left.
-/

namespace ScriptLinker.Heap

variable {heap after : Heap} {text : String} {atom : AtomId} {bytes : Bytes}

theorem AtomsSound.internedAtom?_eq_iff_atom (h : heap.AtomsSound) (text : String)
    (atom : AtomId) : heap.internedAtom? text = some atom ↔ heap.atom atom = .ok text := by
  rw [h.internedAtom?_eq_some_iff, atom_eq_ok_iff]

/-- The table holds the live atoms and no others. -/
theorem AtomsSound.mem_atoms_iff (h : heap.AtomsSound) (text : String) (atom : AtomId) :
    (text, atom) ∈ heap.atoms ↔ heap.atom atom = .ok text := by
  rw [atom_eq_ok_iff]
  exact ⟨h.entry_live text atom, h.live_entered atom.id text⟩

/-- Live atoms are told apart by their texts. -/
theorem AtomsSound.eq_iff_text_eq (h : heap.AtomsSound) {other : AtomId} {otherText : String}
    (hatom : heap.atom atom = .ok text) (hother : heap.atom other = .ok otherText) :
    atom = other ↔ text = otherText := by
  constructor
  · rintro rfl
    exact Except.ok.inj (hatom.symm.trans hother)
  · rintro rfl
    rw [← h.internedAtom?_eq_iff_atom] at hatom hother
    exact Option.some.inj (hatom.symm.trans hother)

/-- No atom is listed twice, since it has one text. -/
theorem AtomsSound.nodup_atoms (h : heap.AtomsSound) : (heap.atoms.map Prod.snd).Nodup := by
  refine List.Nodup.map_on ?_ (.of_map _ h.keys_nodup)
  rintro ⟨first, atom⟩ hfirst ⟨second, other⟩ hsecond rfl
  rw [h.mem_atoms_iff] at hfirst hsecond
  rw [Except.ok.inj (hfirst.symm.trans hsecond)]

theorem AtomsSound.encard_atoms (h : heap.AtomsSound) :
    { atom : AtomId | ∃ text, heap.atom atom = .ok text }.encard = heap.summary.atomCount := by
  have hmem : ∀ atom, atom ∈ { atom : AtomId | ∃ text, heap.atom atom = .ok text } ↔
      atom ∈ heap.atoms.map Prod.snd := by
    simp [← h.mem_atoms_iff]
  rw [encard_eq_length h.nodup_atoms hmem, List.length_map]
  rfl

/-- A text whose atom is alive is interned without a request for room. -/
theorem AtomsSound.run_intern (h : heap.AtomsSound) (hatom : heap.atom atom = .ok text) :
    (intern text).run heap = ⟨.ok atom, heap, []⟩ := by
  rw [← h.internedAtom?_eq_iff_atom] at hatom
  unfold intern
  rw [Action.run_bind, Action.run_get]
  dsimp only
  rw [h.filter_internedAtom?, hatom]
  rfl

/-- An interned text is that of the atom that is answered. -/
theorem Sound.atom_of_intern (h : heap.Sound)
    (hending : (intern text).ending heap = (.ok atom, after)) : after.atom atom = .ok text := by
  rw [ending_intern, h.atoms.filter_internedAtom?] at hending
  cases hfound : heap.internedAtom? text with
  | some old =>
      rw [hfound] at hending
      obtain ⟨hold, rfl⟩ := Prod.mk.inj hending
      rwa [← Except.ok.inj hold, ← h.atoms.internedAtom?_eq_iff_atom]
  | none =>
      rw [hfound] at hending
      cases hallocate : (allocate (.atom text) (Charge.atom text)).ending heap with
      | mk result placed =>
          rw [hallocate] at hending
          cases result with
          | error error => simp at hending
          | ok id =>
              obtain ⟨hid, rfl⟩ := Prod.mk.inj hending
              obtain ⟨ready, hreserve, hplaces⟩ := places_of_allocate hallocate
              have hplaced := hplaces.placed (h.reserve hreserve).slots
              obtain rfl := Except.ok.inj hid
              exact (atom_eq_ok_iff _ _ _).2 ((hplaced.cell? id).trans (if_pos rfl))

/-- Interning a text fails for want of room only. -/
theorem error_of_intern {error : HeapError}
    (hending : (intern text).ending heap = (.error error, after)) : error = .outOfMemory := by
  rw [ending_intern] at hending
  split at hending
  · simp at hending
  · cases hallocate : (allocate (.atom text) (Charge.atom text)).ending heap with
    | mk result placed =>
        rw [hallocate] at hending
        cases result with
        | ok id => simp at hending
        | error fault =>
            rw [← Except.error.inj (Prod.mk.inj hending).1]
            exact (error_of_allocate hallocate).1

theorem atomize_encode (text : String) : atomize (Utf8.encode text) = intern text := by
  rw [atomize, Utf8.decode?_encode]

/-- Bytes that encode no text are refused at once. -/
theorem run_atomize_of_not_text (h : ¬ ∃ text, Utf8.encode text = bytes) (heap : Heap) :
    (atomize bytes).run heap = ⟨.error .invalidUtf8, heap, []⟩ := by
  have hdecode : Utf8.decode? bytes = none := by
    rw [Option.eq_none_iff_forall_ne_some]
    exact fun text htext => h ⟨text, (Utf8.decode?_eq_some_iff.1 htext).symm⟩
  rw [atomize, hdecode]
  rfl

theorem error_atomize_iff (heap : Heap) (bytes : Bytes) :
    ((atomize bytes).run heap).result = .error .invalidUtf8 ↔
      ¬ ∃ text, Utf8.encode text = bytes := by
  constructor
  · rintro hresult ⟨text, rfl⟩
    rw [atomize_encode] at hresult
    cases hending : (intern text).ending heap with
    | mk result after =>
        have hsame : result = .error .invalidUtf8 := (congrArg Prod.fst hending).symm.trans hresult
        subst hsame
        simpa using error_of_intern hending
  · intro h
    rw [run_atomize_of_not_text h]

/-- The atoms of a reachable heap, and what atomizing bytes comes to on it.

The table maps each text to the live atom of that text and lists every live atom, and live
atoms are equal if their texts are. Bytes are refused as invalid exactly if they encode no
text, and then nothing happens. An atom that is answered has a text, and the bytes encode
it. A live atom of that text is answered without a request for room, which could collect or
fail. -/
theorem atoms_exact {heap : Heap} (h : heap.Reachable) :
    (heap.atoms.map Prod.fst).Nodup ∧
    (∀ text atom, (text, atom) ∈ heap.atoms ↔ heap.atom atom = .ok text) ∧
    { atom : AtomId | ∃ text, heap.atom atom = .ok text }.encard = heap.summary.atomCount ∧
    (∀ first second text other, heap.atom first = .ok text → heap.atom second = .ok other →
      (first = second ↔ text = other)) ∧
    ∀ bytes,
      (((atomize bytes).run heap).result = .error .invalidUtf8 ↔
        ¬ ∃ text, Utf8.encode text = bytes) ∧
      ((¬ ∃ text, Utf8.encode text = bytes) →
        (atomize bytes).run heap = ⟨.error .invalidUtf8, heap, []⟩) ∧
      (∀ atom after, (atomize bytes).ending heap = (.ok atom, after) →
        ∃ text, after.atom atom = .ok text ∧ Utf8.encode text = bytes) ∧
      ∀ atom text, heap.atom atom = .ok text → Utf8.encode text = bytes →
        (atomize bytes).run heap = ⟨.ok atom, heap, []⟩ := by
  have hsound := h.sound
  refine ⟨hsound.atoms.keys_nodup, hsound.atoms.mem_atoms_iff, hsound.atoms.encard_atoms,
    fun _ _ _ _ => hsound.atoms.eq_iff_text_eq, fun bytes =>
      ⟨error_atomize_iff heap bytes, fun hnot => run_atomize_of_not_text hnot heap, ?_, ?_⟩⟩
  · intro atom after hending
    by_cases htext : ∃ text, Utf8.encode text = bytes
    · obtain ⟨text, rfl⟩ := htext
      rw [atomize_encode] at hending
      exact ⟨text, hsound.atom_of_intern hending, rfl⟩
    · have hrun := run_atomize_of_not_text htext heap
      rw [Action.ending, hrun] at hending
      simp at hending
  · rintro atom text hatom rfl
    rw [atomize_encode]
    exact hsound.atoms.run_intern hatom

/-- A text is interned, and then allocations are set to collect and the next one to fail. -/
def arming : List Request :=
  [.perform (.atomize [104, 105]), .perform (.setZeal true), .perform (.failAfter 0)]

/-- An atom that nothing holds is found with every allocation set to collect and the
next one to fail, and bytes that are no text are refused. -/
theorem atoms_exact_armed :
    ∃ heap : Heap, heap.Reachable ∧ heap.zeal = true ∧ heap.failureCountdown = some 0 ∧
      heap.atom ⟨⟨0, 0⟩⟩ = .ok (String.ofList ['h', 'i']) ∧
      (atomize [104, 105]).run heap = ⟨.ok ⟨⟨0, 0⟩⟩, heap, []⟩ ∧
      (atomize [255]).run heap = ⟨.error .invalidUtf8, heap, []⟩ := by
  have hempty : (ofLimits ⟨1000, 1000⟩).Reachable := .initial (.ofLimits _)
  have hreachable := hempty.nextAll arming
  obtain ⟨_, _, _, _, hbytes⟩ := atoms_exact hreachable
  have hatom : (Request.nextAll arming (ofLimits ⟨1000, 1000⟩)).atom ⟨⟨0, 0⟩⟩ =
      .ok (String.ofList ['h', 'i']) := by
    decide +kernel
  have hnot : ¬ ∃ text, Utf8.encode text = [255] := by
    rintro ⟨text, htext⟩
    have hdecode := Utf8.decode?_eq_some_iff.2 htext.symm
    simp [show Utf8.decode? [255] = none by decide +kernel] at hdecode
  exact ⟨_, hreachable, by decide +kernel, by decide +kernel, hatom,
    (hbytes [104, 105]).2.2.2 _ _ hatom (by decide +kernel), (hbytes [255]).2.1 hnot⟩

end ScriptLinker.Heap
