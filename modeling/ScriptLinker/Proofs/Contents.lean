import Mathlib.Order.Bounds.Defs
import ScriptLinker.Proofs.GlobalScope
/-!
# What a materialized script holds

`sealed_of_materialize` is the specification of a materialization that succeeds,
in any reachable context: the script is sealed and holds the numbers, the code,
the strings and the flags of its descriptor, with the global scope of the context
as its only thing.
-/

namespace ScriptLinker

/-- The notes of a code are the fewest that pad it. -/
theorem isLeast_noteLength (codeLength : Nat) :
    IsLeast { count | 4 ∣ 1 + codeLength + count } (noteLength codeLength) := by
  refine ⟨dvd_noteLength codeLength, fun count hcount => ?_⟩
  have hdvd : 4 ∣ 1 + codeLength + count := hcount
  unfold noteLength
  omega

/-- Two entries of an atom table are the same if their strings are: a text has one
atom. -/
theorem Heap.AtomsSound.entry_eq_iff {heap : Heap} (h : heap.AtomsSound) {strings : List Bytes}
    {slots : List (Option AtomId)}
    (hentry : ∀ (index : Nat) (string : Bytes), strings[index]? = some string →
      ∃ atom text, slots[index]? = some (some atom) ∧ Utf8.decode? string = some text ∧
        heap.cell? atom.id = some (.atom text))
    {left right : Nat} (hleft : left < strings.length) (hright : right < strings.length) :
    slots[left]? = slots[right]? ↔ strings[left]? = strings[right]? := by
  have hleftString := List.getElem?_eq_getElem hleft
  have hrightString := List.getElem?_eq_getElem hright
  obtain ⟨atom, text, hatom, hdecode, hcell⟩ := hentry left _ hleftString
  obtain ⟨atom', text', hatom', hdecode', hcell'⟩ := hentry right _ hrightString
  rw [hatom, hatom', hleftString, hrightString, Option.some_inj, Option.some_inj, Option.some_inj]
  constructor
  · rintro rfl
    obtain rfl := Cell.atom.inj (Option.some.inj (hcell.symm.trans hcell'))
    rw [Utf8.decode?_eq_some_iff.1 hdecode, Utf8.decode?_eq_some_iff.1 hdecode']
  · intro heq
    rw [heq, hdecode'] at hdecode
    obtain rfl := Option.some.inj hdecode
    have hid := h.eq_of_text hcell hcell'
    cases atom
    cases atom'
    exact congrArg AtomId.mk hid

namespace Context

/-- A materialization that succeeds has built what its descriptor says. -/
theorem built_of_materialize {context after : Context} (h : context.Sound)
    {descriptor : Descriptor} {sourceLength : Nat} {script : ScriptId}
    (hmade : (materialize descriptor sourceLength).ending context = (.ok script, after)) :
    descriptor.Consistent context.link sourceLength ∧
      Heap.Built context.heap (.ofDescriptor context.options descriptor sourceLength)
        context.globalScope script after.heap ∧
      after.heap.rootStack = context.heap.rootStack := by
  obtain ⟨blueprint, hblueprint, hending⟩ := build_of_materialize hmade
  obtain ⟨hbuilt, _⟩ := (h.ensures_build hblueprint).of_ok hending
  have htake := Heap.take_rootStack_build blueprint context.globalScope context.heap
  rw [hending] at htake
  obtain ⟨hconsistent, rfl⟩ := (Blueprint.ofDescriptor?_eq_ok_iff _ _ _ _ _).1 hblueprint
  exact ⟨hconsistent, hbuilt, htake.symm.trans hbuilt.rootStack_take⟩

/-- What a script holds that was materialized in a reachable context, whatever the
thresholds of its heap, its garbage and its roots.

Its extent is the whole source, and its only thing the empty global scope of the context,
which is alive. Its atoms are those of the strings, in their order, one for equal strings.
The code is copied, the fewest null notes pad it, and the numbers are those of the
descriptor. The roots are as before, and so is all that they reached. -/
theorem sealed_of_materialize {context after : Context} (h : context.Reachable)
    {descriptor : Descriptor} {sourceLength : Nat} {script : ScriptId}
    (hmade : (materialize descriptor sourceLength).ending context = (.ok script, after)) :
    ∃ content image slots scope, after.heap.isLive script.id = true ∧
      after.heap.script script = .ok content ∧ content.isSealed = true ∧
      (∃ length : UInt32, length.toNat = sourceLength ∧ content.extent =
        { sourceStart := 0, sourceEnd := length, toStringStart := 0, toStringEnd := length,
          lineno := descriptor.metadata.lineno, column := descriptor.metadata.column }) ∧
      content.things = some [some (.scope context.globalScope)] ∧
      after.globalScope = context.globalScope ∧
      after.heap.scope context.globalScope = .ok scope ∧ scope.isEmptyGlobal = true ∧
      content.atoms = some slots ∧ slots.length = descriptor.strings.length ∧
      (∀ (index : Nat) (string : Bytes), descriptor.strings[index]? = some string →
        ∃ atom text, slots[index]? = some (some atom) ∧ after.heap.atom atom = .ok text ∧
          Utf8.encode text = string) ∧
      (∀ left right, left < descriptor.strings.length → right < descriptor.strings.length →
        (slots[left]? = slots[right]? ↔ descriptor.strings[left]? = descriptor.strings[right]?)) ∧
      content.image? = some image ∧ image.code = descriptor.bytecode ∧
      (∀ note ∈ image.notes, note = nullNote) ∧
      IsLeast { count | 4 ∣ 1 + descriptor.bytecode.length + count } image.notes.length ∧
      image.mainOffset = descriptor.metadata.mainOffset ∧
      image.nfixed = descriptor.metadata.layout.maxFixedSlots ∧
      image.nslots.toNat = descriptor.metadata.layout.maxFixedSlots.toNat +
        descriptor.metadata.layout.maximumStackDepth.toNat ∧
      image.bodyScopeIndex = descriptor.metadata.layout.bodyScopeIndex ∧
      image.icEntryCount = descriptor.metadata.layout.icEntryCount ∧
      image.typeSetCount = descriptor.metadata.layout.typeSetCount ∧
      content.flags =
        { descriptor.flags with noResultValue := context.options.noResultValue } ∧
      after.heap.rootStack = context.heap.rootStack ∧
      after.heap.persistentRoots = context.heap.persistentRoots ∧
      ∀ id, context.heap.Reaches id → after.heap.cell? id = context.heap.cell? id := by
  obtain ⟨hconsistent, hbuilt, hstack⟩ := built_of_materialize h.sound hmade
  obtain ⟨slots, object, hscript, hobject, hlength, hentry⟩ := hbuilt.script_eq
  have hanchors := h.sound.anchors
  have hstate : after = { context with heap := after.heap } := by
    have hsame := state_materialize descriptor sourceLength context
    rwa [hmade] at hsame
  have hscope : after.heap.cell? context.globalScope.id = _ :=
    (hbuilt.toIntact.cell? hanchors.reaches).trans hanchors.cell_eq
  have hlive : after.heap.isLive script.id = true :=
    (Heap.isLive_iff _ _).2 ⟨_, (Heap.script_eq_ok_iff _ _ _).1 hscript⟩
  have hsource : (UInt32.ofNat sourceLength).toNat = sourceLength :=
    UInt32.toNat_ofNat_of_lt' hconsistent.source_lt
  refine ⟨_, object.image, slots, _, hlive, hscript, rfl, ⟨_, hsource, rfl⟩, rfl,
    by rw [hstate], (Heap.scope_eq_ok_iff _ _ _).2 hscope, rfl, rfl, hlength, ?_, ?_, rfl, ?_⟩
  · intro index string hstring
    obtain ⟨atom, text, hatom, hdecode, hcell⟩ := hentry index string hstring
    exact ⟨atom, text, hatom, (Heap.atom_eq_ok_iff _ _ _).2 hcell,
      (Utf8.decode?_eq_some_iff.1 hdecode).symm⟩
  · exact fun left right hleft hright => hbuilt.sound.atoms.entry_eq_iff hentry hleft hright
  · rw [hobject]
    refine ⟨rfl, fun note => List.eq_of_mem_replicate, ?_, rfl, rfl, ?_, rfl, rfl, rfl, rfl,
      hstack, hbuilt.persistentRoots, fun id => hbuilt.toIntact.cell?⟩
    · rw [Blueprint.ofDescriptor, List.length_replicate]
      exact isLeast_noteLength _
    · rw [Blueprint.ofDescriptor, UInt32.toNat_add]
      exact Nat.mod_eq_of_lt hconsistent.slots_lt

/-- After an injected failure left half a script behind, the same descriptor is
materialized with one atom for its two equal strings. -/
theorem sealed_of_materialize_afterFailure :
    ∃ (context after : Context) (script : ScriptId) (content : Script)
      (slots : List (Option AtomId)), context.Reachable ∧
      (materialize { revision := .metadata, bytecode := [153], strings := [[120], [121], [120]] }
        3).ending context = (.ok script, after) ∧
      after.heap.script script = .ok content ∧ content.isSealed = true ∧
      content.atoms = some slots ∧ slots.length = 3 ∧ slots[0]? = slots[2]? ∧
      slots[0]? ≠ slots[1]? := by
  have hstart := reachable_of_isSome (rfl : (ofConfig?
    { heap := { gcThreshold := 0, maxBytes := 400, gcZeal := true } }).toOption.isSome = true)
  have hfailed := ((hstart.request (.perform (.atomize [121])) (by simp)).request
    (.perform (.failAfter 5)) (by simp)).materialize
      { revision := .metadata, bytecode := [153], strings := [[120], [121], [120]] } 3
  obtain ⟨context, script, hreachable, hmade⟩ : ∃ (context : Context) (script : ScriptId),
      context.Reachable ∧ ((materialize
        { revision := .metadata, bytecode := [153], strings := [[120], [121], [120]] }
        3).ending context).1 = .ok script :=
    ⟨_, ⟨⟨3, 1⟩⟩, hfailed, by decide +kernel⟩
  obtain ⟨content, _, slots, _, _, hscript, hsealed, _, _, _, _, _, hatoms, hlength, _, hsame, _⟩ :=
    sealed_of_materialize hreachable (Prod.ext hmade rfl)
  refine ⟨context, _, script, content, slots, hreachable, Prod.ext hmade rfl, hscript, hsealed,
    hatoms, hlength, ?_, ?_⟩
  · exact (hsame 0 2 (by decide) (by decide)).2 rfl
  · exact fun heq => absurd ((hsame 0 1 (by decide) (by decide)).1 heq) (by decide)

end Context

end ScriptLinker
