import ScriptLinker.Link.Materialize
import ScriptLinker.Proofs.Expense
/-!
# The stages of a construction

Each heap operation that a construction performs takes a draft to a draft, or it
fails as `Fails` allows: a string is not UTF-8, or there is no memory for it. The
bound `need` is what the whole construction has to find room for, so each stage
only has to show that it asks for no more.
-/

namespace ScriptLinker.Heap

/-- How a construction can fail on a heap that it leaves intact. -/
structure Fails (base : Heap) (strings : List Bytes) (need : Nat) (error : HeapError)
    (after : Heap) : Prop where
  intact : base.Intact after
  cause : (error = .invalidUtf8 ∧ ∃ string ∈ strings, Utf8.decode? string = none) ∨
    error = .outOfMemory ∧ (base.failureCountdown ≠ none ∨ maxSlots ≤ after.slots.size ∨
      (base.limits.maxBytes < maxSize → base.limits.maxBytes < need))

theorem intact_of_keeps {base after : Heap} (hkeeps : base.Keeps after) (hsound : after.Sound) :
    base.Intact after :=
  ⟨hsound, hkeeps.slots, hkeeps.persistentRoots, hkeeps.freeRoots, hkeeps.limits⟩

/-- An empty script is a draft as soon as it is rooted. -/
theorem draft_of_places {base ready after : Heap} {extent : SourceExtent} {id : CellId}
    (hkeeps : base.Keeps ready) (hsound : ready.Sound)
    (hplaces : ready.Places (.script { extent }) Charge.script id after) :
    Draft base ⟨id⟩ { extent } Charge.script [] ∅ (after.pushRoot (.script ⟨id⟩)) := by
  have hplaced := hplaces.placed hsound.slots
  have hcell : after.cell? id = some (.script { extent }) := by rw [hplaced.cell?, if_pos rfl]
  have hleaf : (Cell.script { extent }).references = [] := by
    simp [Cell.references, Script.thingSlots, Script.atomSlots]
  have hbase : ∀ {other}, base.Reaches other → ready.Reaches other :=
    fun hother => (hkeeps.reaches_iff _).2 hother
  have hfresh : ¬ base.Reaches id := by
    intro hid
    have hlive := (hbase hid).isLive
    simp [isLive, hplaced.not_live] at hlive
  have hmove : Move Set.univ after (after.pushRoot (.script ⟨id⟩)) := .pushRoot (Set.mem_univ _)
  refine ⟨⟨(hsound.birth (.plain (by simp) hplaces)).move hmove, ?_, ?_, ?_, ?_⟩, ⟨?_, ?_, ?_⟩,
    ?_, ?_, hfresh, ?_, ?_, ?_, ?_⟩
  · intro other hother
    exact (hplaced.slot_of_isLive (hbase hother).isLive).trans (hkeeps.slots other hother)
  · exact hplaced.persistentRoots.trans hkeeps.persistentRoots
  · exact hplaced.freeRoots.trans hkeeps.freeRoots
  · exact hplaced.limits.trans hkeeps.limits
  · simp [Script.thingSlots]
  · simp
  · simp [Script.atomSlots]
  · exact (script_eq_ok_iff _ _ _).2 hcell
  · exact bytesAt_of_getElem? hplaced.slot
  · simp [hplaced.rootStack, hkeeps.rootStack]
  · exact fun hnone => hplaced.failureCountdown.trans (hkeeps.countdown_eq_none hnone)
  · exact fun other hother => reaches_pushRoot (hplaced.reaches (hbase hother)) _
  · intro other hother
    have hcell' : after.cell? (CellRef.script ⟨id⟩).id = some (.script { extent }) := hcell
    rcases reaches_pushRoot_cases hcell' hleaf hother with hold | rfl
    · rcases hplaced.reaches_cases hleaf hold with hready | rfl
      · exact Or.inl ((hkeeps.reaches_iff _).1 hready)
      · exact Or.inr (Or.inl rfl)
    · exact Or.inr (Or.inl rfl)

/-- A construction begins with an empty script, which is rooted at once. -/
theorem ensures_allocScript {base : Heap} (h : base.Sound) {need : Nat} (strings : List Bytes)
    (extent : SourceExtent) (hneed : base.reachedBytes + Charge.script ≤ need) :
    (allocScript extent).Ensures base
      (fun script after => Draft base script { extent } Charge.script [] ∅
        (after.pushRoot (.script script)))
      (Fails base strings need) := by
  refine ((ensures_allocate h (.script { extent }) Charge.script).mono ?_ ?_).bind
    fun id after (hdone : Draft base ⟨id⟩ { extent } Charge.script [] ∅
      (after.pushRoot (.script ⟨id⟩))) => hdone
  · rintro id after ⟨ready, hkeeps, hsound, hplaces, _⟩
    exact draft_of_places hkeeps hsound hplaces
  · rintro error after ⟨hkeeps, hsound, rfl, hcause⟩
    refine ⟨intact_of_keeps hkeeps hsound, Or.inr ⟨rfl, ?_⟩⟩
    exact hcause.imp_right (Or.imp_right fun hfull hlimit => (hfull hlimit).trans_le hneed)

/-- A part that is missing is created without a change to what the slots hold. -/
theorem Fits.grows {base heap : Heap} {stored : List Bytes} {content changed : Script}
    {bytes : Nat} (h : Fits base heap stored content) (hgrows : content.Grows bytes changed) :
    Fits base heap stored changed := by
  cases hgrows with
  | things count _ =>
      refine ⟨fun ref href => ?_, h.entry, h.entry_lt⟩
      simp [Script.thingSlots] at href
  | atoms count hmissing =>
      have hnone : content.atoms = none := by
        simpa [Script.has] using ((Script.requireMissing_eq_ok_iff _ _).1 hmissing).2
      refine ⟨h.things_reached, fun index string hstring => ?_, fun index atom hatom => ?_⟩
      · obtain ⟨atom, _, hatom, _⟩ := h.entry index string hstring
        simp [Script.atomSlots, hnone] at hatom
      · simp [Script.atomSlots, List.getElem?_replicate] at hatom
  | image codeLength noteLength _ => exact ⟨h.things_reached, h.entry, h.entry_lt⟩

/-- The entry that is filled next was empty, so none is lost. -/
theorem Fits.mem_set {base heap : Heap} {stored : List Bytes} {content : Script}
    {slots : List (Option AtomId)} {atom : AtomId}
    (h : Fits base heap stored { content with atoms := some slots }) {other : AtomId}
    (hother : some other ∈ slots) : some other ∈ slots.set stored.length (some atom) := by
  obtain ⟨position, hposition⟩ := List.mem_iff_getElem?.1 hother
  have hlt := h.entry_lt position other hposition
  refine List.mem_iff_getElem?.2 ⟨position, ?_⟩
  rwa [List.getElem?_set_ne hlt.ne']

/-- The atom of the next string fills the next entry. -/
theorem Fits.set {base heap : Heap} {stored : List Bytes} {content : Script}
    {slots : List (Option AtomId)} {atom : AtomId} {string : Bytes} {text : String}
    (h : Fits base heap stored { content with atoms := some slots })
    (hindex : stored.length < slots.length) (hdecode : Utf8.decode? string = some text)
    (hcell : heap.cell? atom.id = some (.atom text)) :
    Fits base heap (stored ++ [string])
      { content with atoms := some (slots.set stored.length (some atom)) } := by
  refine ⟨h.things_reached, fun index other hother => ?_, fun index other hother => ?_⟩
  · rcases Nat.lt_or_ge index stored.length with hlt | hge
    · rw [List.getElem?_append_left hlt] at hother
      obtain ⟨found, word, hfound, hword, hatom⟩ := h.entry index other hother
      refine ⟨found, word, ?_, hword, hatom⟩
      simpa [Script.atomSlots, List.getElem?_set_ne hlt.ne'] using hfound
    · rw [List.getElem?_append_right hge, List.getElem?_singleton] at hother
      split at hother
      · rename_i hzero
        obtain rfl := Option.some.inj hother
        have heq : index = stored.length := by omega
        refine ⟨atom, text, ?_, hdecode, hcell⟩
        simp [Script.atomSlots, heq, hindex]
      · simp at hother
  · rw [List.length_append, List.length_singleton]
    by_cases heq : index = stored.length
    · omega
    · have hold : slots[index]? = some (some other) := by
        simpa [Script.atomSlots, List.getElem?_set_ne (Ne.symm heq)] using hother
      have hlt := h.entry_lt index other hold
      omega

namespace Draft

variable {base heap : Heap} {script : ScriptId} {content changed : Script}
  {bytes need : Nat} {stored stored' strings : List Bytes} {loose : Set CellId}

/-- A draft gets room if what it reaches leaves any; else it fails for lack of
memory. -/
theorem ensures_reserve (h : Draft base script content bytes stored ∅ heap) {request : Nat}
    (hneed : base.reachedBytes + bytes + base.newBytes stored + request ≤ need) :
    (reserve request).Ensures heap
      (fun _ ready => Draft base script content bytes stored ∅ ready ∧ ready.HasRoom request ∧
        (base.limits.maxBytes < maxSize →
          base.reachedBytes + bytes + base.newBytes stored + request ≤ base.limits.maxBytes))
      (Fails base strings need) := by
  have hreached := h.reachedBytes_eq
  refine (Heap.ensures_reserve h.sound request).mono ?_ ?_
  · rintro _ ready ⟨hkeeps, hsound, hroom, hfits⟩
    refine ⟨h.keeps hkeeps hsound, hroom, fun hlimit => ?_⟩
    rw [h.limits, hreached] at hfits
    exact hfits hlimit
  · rintro error after ⟨hkeeps, hsound, rfl, hcause⟩
    refine ⟨(h.keeps hkeeps hsound).toIntact, Or.inr ⟨rfl, ?_⟩⟩
    rcases hcause with harmed | hfull
    · exact Or.inl fun hnone => harmed (h.countdown_eq_none hnone)
    · rw [h.limits, hreached] at hfull
      exact Or.inr (Or.inr fun hlimit => (hfull hlimit).trans_le hneed)

/-- Creating a part that is missing. -/
theorem ensures_createPart (h : Draft base script content bytes stored ∅ heap)
    {part : ScriptPart} {request : Nat} {install : Script → Script}
    (hmissing : content.requireMissing part = .ok ())
    (hgrows : content.Grows request (install content))
    (hneed : base.reachedBytes + bytes + base.newBytes stored + request ≤ need) :
    (createPart script part request install).Ensures heap
      (fun _ after => Draft base script (install content) (bytes + request) stored ∅ after)
      (Fails base strings need) := by
  have hreserve : (reserve request).Ensures heap _ (Fails base strings need) :=
    h.ensures_reserve hneed
  unfold Action.Ensures at hreserve ⊢
  rw [ending_createPart, h.script_eq]
  simp only [hmissing]
  cases hending : (reserve request).ending heap with
  | mk result ready =>
      rw [hending] at hreserve
      cases result with
      | error error => exact hreserve
      | ok done =>
          obtain ⟨hready, hroom, _⟩ := hreserve
          simp only [if_pos hready.reaches_script.isLive]
          refine hready.rewrite (rewrites_create ready script (install content) request) ?_ ?_ ?_ ?_
          · have hmove : Move ∅ ready _ := .create hready.script_eq hroom hgrows
            exact hready.sound.move hmove
          · exact fun ref href => hgrows.references_eq ▸ href
          · exact hready.fits.grows hgrows
          · exact fun id hid => absurd hid (Set.notMem_empty id)

/-- Storing a reference that is alive. -/
theorem ensures_storeRef (h : Draft base script content bytes stored loose heap) {ref : CellRef}
    {install : Script → Except HeapError Script} {failed : HeapError → Heap → Prop}
    (hlive : heap.isLive ref.id = true) (hinstall : install content = .ok changed)
    (hstores : content.Stores ref changed)
    (hrefs : ∀ ref ∈ (Cell.script content).references, ref ∈ (Cell.script changed).references)
    (hfits : Fits base heap stored' changed)
    (hloose : ∀ id ∈ loose, ∃ atom, some atom ∈ changed.atomSlots ∧ atom.id = id) :
    (storeRef script ref install).Ensures heap
      (fun _ after => Draft base script changed bytes stored' ∅ after) failed := by
  have hending : (storeRef script ref install).ending heap =
      (.ok (), (heap.setScript script changed).recordStore script.id ref) := by
    rw [ending_storeRef, if_pos hlive, h.script_eq]
    simp only [hinstall]
  apply Action.ensures_of_ending hending
  refine h.rewrite (rewrites_store heap script changed ref) ?_ hrefs hfits hloose
  have hmove : Move Set.univ heap _ := .store (Set.mem_univ ref) hlive h.script_eq hstores
  exact h.sound.move hmove

/-- Changing the flags or the owned image. -/
theorem ensures_updateScript (h : Draft base script content bytes stored ∅ heap)
    {change : Script → Except HeapError Script} {failed : HeapError → Heap → Prop}
    (hchange : change content = .ok changed) (hedits : content.Edits changed)
    (hfits : Fits base heap stored changed) :
    (updateScript script change).Ensures heap
      (fun _ after => Draft base script changed bytes stored ∅ after) failed := by
  have hending : (updateScript script change).ending heap =
      (.ok (), heap.setScript script changed) := by
    rw [ending_updateScript, h.script_eq]
    simp only [hchange]
  apply Action.ensures_of_ending hending
  refine h.rewrite (rewrites_setScript heap script changed) ?_ ?_ hfits ?_
  · have hmove : Move ∅ heap _ := .edit h.script_eq hedits
    exact h.sound.move hmove
  · exact fun ref href => hedits.references ▸ href
  · exact fun id hid => absurd hid (Set.notMem_empty id)

/-- Replacing the owned image by one of the same length. -/
theorem ensures_modifyImage (h : Draft base script content bytes stored ∅ heap)
    {image : ScriptImage} {change : ScriptImage → ScriptImage}
    {failed : HeapError → Heap → Prop} (himage : content.image = .owned image)
    (hlength : (change image).totalLength = image.totalLength) :
    (modifyImage script change).Ensures heap
      (fun _ after => Draft base script { content with image := .owned (change image) } bytes
        stored ∅ after) failed := by
  refine h.ensures_updateScript ?_ (.image himage hlength) ?_
  · rw [(Script.ownedImage_eq_ok_iff content image).2 himage]
    rfl
  · exact ⟨h.fits.things_reached, h.fits.entry, h.fits.entry_lt⟩

theorem mono_loose (h : Draft base script content bytes stored ∅ heap) (loose : Set CellId) :
    Draft base script content bytes stored loose heap := by
  refine { h with reached_cases := fun id hid => ?_ }
  rcases h.reached_cases id hid with hbase | hscript | hatom | hempty
  · exact Or.inl hbase
  · exact Or.inr (Or.inl hscript)
  · exact Or.inr (Or.inr (Or.inl hatom))
  · exact absurd hempty (Set.notMem_empty id)

/-- A string whose atom is gone adds to what a draft is charged. -/
theorem newBytes_concat_of_absent (h : Draft base script content bytes stored ∅ heap)
    {string : Bytes} {text : String} (hdecode : Utf8.decode? string = some text)
    (habsent : heap.internedAtom? text = none) :
    base.newBytes (stored ++ [string]) = base.newBytes stored + Charge.atom text := by
  rw [h.sound.atoms.internedAtom?_eq_none_iff] at habsent
  rw [charge_atom_of_decode? hdecode]
  refine newBytes_concat (fun hmem => ?_) fun hholds => ?_
  · obtain ⟨index, hindex⟩ := List.mem_iff_getElem?.1 hmem
    obtain ⟨atom, found, _, hfound, hcell⟩ := h.fits.entry index string hindex
    obtain rfl := Option.some.inj (hdecode.symm.trans hfound)
    exact habsent atom.id hcell
  · obtain ⟨id, hid, hcell⟩ := hholds
    rw [hdecode, Option.map_some, ← h.toIntact.cell? ((mem_reached _ _).1 hid)] at hcell
    exact habsent id hcell

/-- The atom of a string: an old one, wherever it was left, or a new one. -/
theorem ensures_atomize (h : Draft base script content bytes stored ∅ heap) {string : Bytes}
    (hmem : string ∈ strings)
    (hneed : base.reachedBytes + bytes + base.newBytes (stored ++ [string]) ≤ need) :
    (atomize string).Ensures heap
      (fun atom after => Draft base script content bytes stored {atom.id} after ∧
        ∃ text, Utf8.decode? string = some text ∧ after.cell? atom.id = some (.atom text))
      (Fails base strings need) := by
  unfold atomize
  cases hdecode : Utf8.decode? string with
  | none => exact ⟨h.toIntact, Or.inl ⟨rfl, string, hmem, hdecode⟩⟩
  | some text =>
      dsimp only
      unfold Action.Ensures
      rw [ending_intern, h.sound.atoms.filter_internedAtom?]
      cases hfound : heap.internedAtom? text with
      | some atom =>
          have hcell := (h.sound.atoms.internedAtom?_eq_some_iff text atom).1 hfound
          exact ⟨h.mono_loose _, text, rfl, hcell⟩
      | none =>
          have hallocate := ensures_allocate h.sound (.atom text) (Charge.atom text)
          unfold Action.Ensures at hallocate
          dsimp only
          cases hending : (allocate (.atom text) (Charge.atom text)).ending heap with
          | mk result after =>
              rw [hending] at hallocate
              cases result with
              | ok id =>
                  obtain ⟨ready, hkeeps, hsound, hplaces, _⟩ := hallocate
                  have habsent : ready.internedAtom? text = none := by
                    rw [h.sound.atoms.internedAtom?_eq_none_iff] at hfound
                    rw [hsound.atoms.internedAtom?_eq_none_iff]
                    exact fun other hother => hfound other (hkeeps.cell?_of_cell? other _ hother)
                  have hcell : after.cell? id = some (.atom text) := by
                    rw [(hplaces.placed hsound.slots).cell?, if_pos rfl]
                  exact ⟨(h.keeps hkeeps hsound).placed_atom habsent hplaces, text, rfl, hcell⟩
              | error error =>
                  obtain ⟨hkeeps, hsound, rfl, hcause⟩ := hallocate
                  refine ⟨(h.keeps hkeeps hsound).toIntact, Or.inr ⟨rfl, ?_⟩⟩
                  rw [h.limits, h.reachedBytes_eq] at hcause
                  rw [h.newBytes_concat_of_absent hdecode hfound] at hneed
                  rcases hcause with harmed | hfull | hlow
                  · exact Or.inl fun hnone => harmed (h.countdown_eq_none hnone)
                  · exact Or.inr (Or.inl hfull)
                  · exact Or.inr (Or.inr fun hlimit => (hlow hlimit).trans_le (by omega))

/-- The next entry of the atom table is filled. -/
theorem ensures_initAtom {atom : AtomId} {slots : List (Option AtomId)} {string : Bytes}
    {text : String} {failed : HeapError → Heap → Prop}
    (h : Draft base script { content with atoms := some slots } bytes stored {atom.id} heap)
    (hsealed : content.isSealed = false) (hindex : stored.length < slots.length)
    (hdecode : Utf8.decode? string = some text)
    (hcell : heap.cell? atom.id = some (.atom text)) :
    (initAtom script stored.length atom).Ensures heap
      (fun _ after => Draft base script
        { content with atoms := some (slots.set stored.length (some atom)) } bytes
        (stored ++ [string]) ∅ after) failed := by
  have hset : Script.setAtom stored.length atom { content with atoms := some slots } =
      .ok { content with atoms := some (slots.set stored.length (some atom)) } :=
    (Script.setAtom_eq_ok_iff _ _ _ _).2 ⟨hsealed, slots, rfl, hindex, rfl⟩
  have hlive : heap.isLive atom.id = true := (isLive_iff heap _).2 ⟨_, hcell⟩
  refine h.ensures_storeRef hlive hset (.atom hset) ?_ (h.fits.set hindex hdecode hcell) ?_
  · intro ref href
    rw [Cell.mem_references_script] at href ⊢
    apply href.imp_right
    rintro ⟨other, hother, rfl⟩
    exact ⟨other, h.fits.mem_set hother, rfl⟩
  · rintro id rfl
    refine ⟨atom, List.mem_iff_getElem?.2 ⟨stored.length, ?_⟩, rfl⟩
    simp [Script.atomSlots, hindex]

/-- Every string is interned and stored before the next one. -/
theorem ensures_internStrings (hsealed : content.isSealed = false)
    (hneed : base.reachedBytes + bytes + base.newBytes strings ≤ need) (rest : List Bytes) :
    ∀ {stored : List Bytes} {slots : List (Option AtomId)} {heap : Heap},
      Draft base script { content with atoms := some slots } bytes stored ∅ heap →
      stored.length + rest.length ≤ slots.length → stored ++ rest ⊆ strings →
      (Blueprint.internStrings script stored.length rest).Ensures heap
        (fun _ after => ∃ slots', slots'.length = slots.length ∧
          Draft base script { content with atoms := some slots' } bytes (stored ++ rest) ∅ after)
        (Fails base strings need) := by
  induction rest with
  | nil =>
      intro stored slots heap h _ _
      have hending : (Blueprint.internStrings script stored.length []).ending heap =
          (.ok (), heap) := rfl
      refine Action.ensures_of_ending hending ⟨slots, rfl, ?_⟩
      rwa [List.append_nil]
  | cons string rest ih =>
      intro stored slots heap h hlength hsubset
      have hearlier : stored ++ [string] ⊆ strings := by
        intro other hother
        apply hsubset
        rw [List.mem_append, List.mem_singleton] at hother
        exact List.mem_append.2
          (hother.imp_right fun (heq : other = string) => heq ▸ List.mem_cons_self)
      have hbound : base.newBytes (stored ++ [string]) ≤ base.newBytes strings :=
        newBytes_le hearlier
      rw [List.length_cons] at hlength
      apply (h.ensures_atomize (hearlier (by simp)) (by omega)).bind
      rintro atom middle ⟨hatom, text, hdecode, hcell⟩
      apply (hatom.ensures_initAtom hsealed (by omega) hdecode hcell).bind
      intro _ after hafter
      have hnext := ih hafter (by simp; omega) (by simpa using hsubset)
      simpa using hnext

/-- Sealing a script that owns its image. -/
theorem ensures_share {image : ScriptImage}
    (h : Draft base script content bytes stored ∅ heap) (himage : content.image = .owned image)
    (hneed : base.reachedBytes + bytes + base.newBytes stored + Charge.hold ≤ need) :
    (share script).Ensures heap
      (fun _ after => ∃ object bytes', object.image = image ∧
        Draft base script { content with image := .shared object } bytes' stored ∅ after ∧
        (base.limits.maxBytes < maxSize →
          base.reachedBytes + bytes + base.newBytes stored + Charge.hold ≤ base.limits.maxBytes))
      (Fails base strings need) := by
  have howned := (Script.ownedImage_eq_ok_iff content image).2 himage
  have hreserve : (reserve Charge.hold).Ensures heap _ (Fails base strings need) :=
    h.ensures_reserve hneed
  unfold Action.Ensures at hreserve ⊢
  rw [ending_share, h.script_eq]
  simp only [howned]
  cases hending : (reserve Charge.hold).ending heap with
  | mk result ready =>
      rw [hending] at hreserve
      cases result with
      | error error => exact hreserve
      | ok done =>
          obtain ⟨hready, hroom, hfits⟩ := hreserve
          simp only [if_pos hready.reaches_script.isLive]
          refine ⟨((ready.charged script.id Charge.hold).shelved script image).1,
            ready.sealedBytes image bytes, image_shelved _ _ _, ?_, hfits⟩
          refine hready.rewrite (rewrites_share hready.script_eq image _) ?_ ?_ ?_ ?_
          · have hmove : Move ∅ ready _ := .share hready.script_eq himage hroom
            exact hready.sound.move hmove
          · exact fun ref href => href
          · exact ⟨hready.fits.things_reached, hready.fits.entry, hready.fits.entry_lt⟩
          · exact fun id hid => absurd hid (Set.notMem_empty id)

end Draft

end ScriptLinker.Heap
