import ScriptLinker.Proofs.GlobalScope
/-!
# When a script can be afforded

`materialize_eq_ok_iff` decides a materialization before it is begun: it succeeds
if the cells that the roots reach and what the new script is charged fit under
the hard limit together. Neither the thresholds nor the garbage on the heap enter
into it, nor when collections happen.
-/

namespace ScriptLinker

namespace Heap

/-- The roots reach an atom of a string. -/
theorem holdsAtom_iff_exists (heap : Heap) (string : Bytes) :
    heap.HoldsAtom string ↔
      ∃ id text, heap.Reaches id ∧ heap.cell? id = some (.atom text) ∧
        Utf8.encode text = string := by
  constructor
  · rintro ⟨id, hid, hcell⟩
    rw [mem_reached] at hid
    obtain ⟨cell, hfound⟩ := (isLive_iff heap id).1 hid.isLive
    rw [hcell] at hfound
    obtain ⟨text, hdecode, rfl⟩ := Option.map_eq_some_iff.1 hfound
    exact ⟨id, text, hid, hcell.trans hfound, (Utf8.decode?_eq_some_iff.1 hdecode).symm⟩
  · rintro ⟨id, text, hid, hcell, rfl⟩
    exact ⟨id, (mem_reached _ _).2 hid, by rw [hcell, Utf8.decode?_encode, Option.map_some]⟩

theorem demand_ofDescriptor (heap : Heap) (options : CompileOptions) (descriptor : Descriptor)
    (sourceLength : Nat) :
    heap.demand (.ofDescriptor options descriptor sourceLength) =
      ∑ id ∈ heap.reached, heap.bytesAt id.index +
        (Charge.script + Charge.things 1 + Charge.atoms descriptor.strings.length +
          ∑ string ∈ heap.newStrings descriptor.strings, (16 + string.length) +
          Charge.image (descriptor.bytecode.length + noteLength descriptor.bytecode.length) +
          Charge.hold) := by
  have hcharge : (Blueprint.ofDescriptor options descriptor sourceLength).charge =
      Charge.script + Charge.things 1 + Charge.atoms descriptor.strings.length +
        Charge.image (descriptor.bytecode.length + noteLength descriptor.bytecode.length) +
        Charge.hold := by
    simp [Blueprint.charge, Blueprint.ofDescriptor, ScriptImage.totalLength]
  have hstrings : (Blueprint.ofDescriptor options descriptor sourceLength).strings =
      descriptor.strings := rfl
  rw [demand, hcharge, hstrings, reachedBytes, bytesOf, newBytes]
  omega

end Heap

namespace Context

/-- A materialization that nothing but the lack of memory can stop succeeds within
the hard limit, and only there. -/
theorem materialize_cases {context : Context} (h : context.Sound)
    (hlimit : context.heap.limits.maxBytes < maxSize)
    (hunarmed : context.heap.failureCountdown = none) {descriptor : Descriptor}
    {sourceLength : Nat} (hconsistent : descriptor.Consistent context.link sourceLength)
    (hstrings : ∀ string ∈ descriptor.strings, ∃ text, Utf8.encode text = string)
    (hslots : ((materialize descriptor sourceLength).ending context).2.heap.slots.size <
      Heap.maxSlots) :
    let demand := context.heap.demand (.ofDescriptor context.options descriptor sourceLength)
    ((∃ script, ((materialize descriptor sourceLength).ending context).1 = .ok script) ∧
        demand ≤ context.heap.limits.maxBytes) ∨
      ((materialize descriptor sourceLength).ending context).1 = .error .outOfMemory ∧
        context.heap.limits.maxBytes < demand := by
  have hblueprint : context.blueprint? descriptor sourceLength =
      .ok (.ofDescriptor context.options descriptor sourceLength) :=
    (Blueprint.ofDescriptor?_eq_ok_iff _ _ _ _ _).2 ⟨hconsistent, rfl⟩
  have hbuild := h.ensures_build hblueprint
  rw [ending_materialize, hblueprint] at hslots ⊢
  dsimp only at hslots ⊢
  unfold Action.Ensures at hbuild
  cases hending : (Blueprint.build (.ofDescriptor context.options descriptor sourceLength)
      context.globalScope).ending context.heap with
  | mk result after =>
      rw [hending] at hbuild hslots
      cases result with
      | ok script => exact Or.inl ⟨⟨script, rfl⟩, hbuild.2 hlimit⟩
      | error error =>
          rcases hbuild.cause with ⟨_, string, hstring, hinvalid⟩ | ⟨rfl, harmed | hfull | hlow⟩
          · obtain ⟨text, rfl⟩ := hstrings string hstring
            simp at hinvalid
          · exact absurd hunarmed harmed
          · exact absurd hslots (Nat.not_lt.2 hfull)
          · exact Or.inr ⟨rfl, hlow hlimit⟩

/-- A materialization of valid strings that passes the checks, in a reachable
context without an armed failure, succeeds if it fits next to the reached cells;
otherwise it is out of memory. -/
theorem materialize_eq_ok_iff {context : Context} (h : context.Reachable)
    (hlimit : context.heap.limits.maxBytes < maxSize)
    (hunarmed : context.heap.failureCountdown = none) {descriptor : Descriptor}
    {sourceLength : Nat} (hconsistent : descriptor.Consistent context.link sourceLength)
    (hstrings : ∀ string ∈ descriptor.strings, ∃ text, Utf8.encode text = string)
    (hslots : ((materialize descriptor sourceLength).ending context).2.heap.slots.size <
      Heap.maxSlots) :
    ∃ (reached : Finset CellId) (missing : Finset Bytes),
      (∀ id, id ∈ reached ↔ context.heap.Reaches id) ∧
      (∀ string, string ∈ missing ↔ string ∈ descriptor.strings ∧
        ¬ ∃ id text, context.heap.Reaches id ∧ context.heap.cell? id = some (.atom text) ∧
          Utf8.encode text = string) ∧
      let occupied := ∑ id ∈ reached, context.heap.bytesAt id.index
      let cost := Charge.script + Charge.things 1 + Charge.atoms descriptor.strings.length +
        ∑ string ∈ missing, (16 + string.length) +
        Charge.image (descriptor.bytecode.length + noteLength descriptor.bytecode.length) +
        Charge.hold
      ((∃ script, ((materialize descriptor sourceLength).ending context).1 = .ok script) ↔
        occupied + cost ≤ context.heap.limits.maxBytes) ∧
      (¬ occupied + cost ≤ context.heap.limits.maxBytes →
        ((materialize descriptor sourceLength).ending context).1 = .error .outOfMemory) := by
  refine ⟨context.heap.reached, context.heap.newStrings descriptor.strings,
    Heap.mem_reached context.heap, fun string => ?_, ?_⟩
  · rw [Heap.mem_newStrings, Heap.holdsAtom_iff_exists]
  · dsimp only
    rw [← Heap.demand_ofDescriptor _ context.options _ sourceLength]
    rcases materialize_cases h.sound hlimit hunarmed hconsistent hstrings hslots with
      ⟨hmade, hfits⟩ | ⟨herror, hshort⟩
    · exact ⟨iff_of_true hmade hfits, fun hnot => absurd hfits hnot⟩
    · refine ⟨iff_of_false ?_ (Nat.not_le.2 hshort), fun _ => herror⟩
      rintro ⟨script, hmade⟩
      rw [herror] at hmade
      simp at hmade

/-- A script fits to the byte, with a text that a stack root holds, one that is
garbage, and a string that occurs twice. -/
theorem materialize_eq_ok_iff_exactFit :
    ∃ context : Context, context.Reachable ∧ context.heap.limits.maxBytes = 265 ∧
      context.heap.failureCountdown = none ∧
      (∃ script, ((materialize
        { revision := .metadata, bytecode := [153], strings := [[120], [121], [121]] }
        1).ending context).1 = .ok script) ∧
      ∃ (reached : Finset CellId) (missing : Finset Bytes),
        (∀ id, id ∈ reached ↔ context.heap.Reaches id) ∧
        ∑ id ∈ reached, context.heap.bytesAt id.index + (88 + 28 + 36 +
          ∑ string ∈ missing, (16 + string.length) + 51 + 8) ≤ 265 := by
  have hstart := reachable_of_isSome (rfl : (ofConfig?
    { heap := { gcThreshold := 0, maxBytes := 265, gcZeal := true } }).toOption.isSome = true)
  have hready := ((hstart.request (.perform (.atomize [120])) (by simp)).request
    (.pushRoot (.atom ⟨⟨1, 0⟩⟩)) (by simp)).request (.perform (.atomize [121])) (by simp)
  obtain ⟨context, hreachable, hbytes, hunarmed, hvalidate, hslots, hmade⟩ :
      ∃ context : Context, context.Reachable ∧ context.heap.limits.maxBytes = 265 ∧
        context.heap.failureCountdown = none ∧ context.link.validateStencils = false ∧
        ((materialize
          { revision := .metadata, bytecode := [153], strings := [[120], [121], [121]] }
          1).ending context).2.heap.slots.size < Heap.maxSlots ∧
        ((materialize
          { revision := .metadata, bytecode := [153], strings := [[120], [121], [121]] }
          1).ending context).1 = .ok ⟨⟨2, 1⟩⟩ :=
    ⟨_, hready, by decide +kernel, by decide +kernel, by decide +kernel, by decide +kernel,
      by decide +kernel⟩
  have hlimit : context.heap.limits.maxBytes < maxSize := by rw [hbytes]; decide
  have hstrings : ∀ string ∈ ([[120], [121], [121]] : List Bytes),
      ∃ text, Utf8.encode text = string := by
    intro string hstring
    simp only [List.mem_cons, List.not_mem_nil, or_false] at hstring
    rcases hstring with rfl | rfl | rfl
    · exact ⟨"x", by decide⟩
    · exact ⟨"y", by decide⟩
    · exact ⟨"y", by decide⟩
  obtain ⟨reached, missing, hreached, _, hiff, _⟩ := materialize_eq_ok_iff hreachable hlimit
    hunarmed ⟨by decide, by decide, by decide, by decide, by simp [hvalidate]⟩ hstrings hslots
  refine ⟨context, hreachable, hbytes, hunarmed, ⟨_, hmade⟩, reached, missing, hreached, ?_⟩
  exact hbytes ▸ hiff.1 ⟨_, hmade⟩

end Context

end ScriptLinker
