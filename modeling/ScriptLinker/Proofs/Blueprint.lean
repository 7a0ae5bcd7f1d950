import ScriptLinker.Link.Materialize
import ScriptLinker.Proofs.Revision
/-!
# The blueprint of a descriptor

A descriptor has a blueprint if its lengths and its number of slots fit 32 bits
and, where the context asks for it, its offset and its body scope are in range.
`ofDescriptor?_eq_ok_iff` says so, and which blueprint it is.
-/

namespace ScriptLinker

/-- What the checks before the first allocation ask of a descriptor. -/
structure Descriptor.Consistent (link : LinkSettings) (descriptor : Descriptor)
    (sourceLength : Nat) : Prop where
  code_lt : descriptor.bytecode.length < UInt32.size
  strings_lt : descriptor.strings.length < UInt32.size
  source_lt : sourceLength < UInt32.size
  slots_lt : descriptor.metadata.layout.maxFixedSlots.toNat +
    descriptor.metadata.layout.maximumStackDepth.toNat < UInt32.size
  in_range : link.validateStencils = true →
    descriptor.metadata.mainOffset.toNat ≤ descriptor.bytecode.length ∧
      descriptor.metadata.layout.bodyScopeIndex.toNat < 1

namespace Blueprint

/-- The blueprint of a descriptor that passes the checks. -/
def ofDescriptor (options : CompileOptions) (descriptor : Descriptor) (sourceLength : Nat) :
    Blueprint :=
  let layout := descriptor.metadata.layout
  { extent := .ofSource (UInt32.ofNat sourceLength) descriptor.metadata.lineno
      descriptor.metadata.column
    plan := .ofGlobalScript
    strings := descriptor.strings
    image :=
      { code := descriptor.bytecode
        notes := List.replicate (noteLength descriptor.bytecode.length) nullNote
        mainOffset := descriptor.metadata.mainOffset
        nfixed := layout.maxFixedSlots
        nslots := layout.maxFixedSlots + layout.maximumStackDepth
        bodyScopeIndex := layout.bodyScopeIndex
        icEntryCount := layout.icEntryCount
        typeSetCount := layout.typeSetCount }
    flags := { descriptor.flags with noResultValue := options.noResultValue } }

theorem narrow_eq_ok_iff (field : NarrowField) (value : Nat) (word : UInt32) :
    narrow field value = .ok word ↔ value < UInt32.size ∧ word = UInt32.ofNat value := by
  by_cases hvalue : value < UInt32.size
  · have hnarrow : narrow field value = .ok (UInt32.ofNat value) := by
      rw [narrow, ScriptLinker.narrow, if_pos hvalue]
      rfl
    rw [hnarrow, Except.ok.injEq, eq_comm]
    exact (and_iff_right hvalue).symm
  · have hnarrow : narrow field value = .error (.descriptor (.fieldOutOfRange field value)) := by
      rw [narrow, ScriptLinker.narrow, if_neg hvalue]
      rfl
    simp [hnarrow, hvalue]

theorem slotCount_eq_ok_iff (layout : FrameLayout) (count : UInt32) :
    slotCount layout = .ok count ↔
      layout.maxFixedSlots.toNat + layout.maximumStackDepth.toNat < UInt32.size ∧
        count = layout.maxFixedSlots + layout.maximumStackDepth := by
  unfold slotCount
  split <;> simp [*, eq_comm]

theorem validate_eq_ok_iff (descriptor : Descriptor) (plan : ThingPlan) :
    validate descriptor plan = .ok () ↔
      descriptor.metadata.mainOffset.toNat ≤ descriptor.bytecode.length ∧
        descriptor.metadata.layout.bodyScopeIndex.toNat < plan.length := by
  unfold validate
  split
  · rename_i hpast
    simp only [reduceCtorEq, false_iff]
    omega
  · split
    · rename_i hrange
      simp only [reduceCtorEq, false_iff]
      omega
    · simp only [true_iff]
      omega

/-- A descriptor has a blueprint if it passes the checks. -/
theorem ofDescriptor?_eq_ok_iff (options : CompileOptions) (link : LinkSettings)
    (descriptor : Descriptor) (sourceLength : Nat) (blueprint : Blueprint) :
    ofDescriptor? options link descriptor sourceLength = .ok blueprint ↔
      descriptor.Consistent link sourceLength ∧
        blueprint = ofDescriptor options descriptor sourceLength := by
  unfold ofDescriptor?
  simp only [bind_eq_ok_iff, narrow_eq_ok_iff, slotCount_eq_ok_iff]
  constructor
  · rintro ⟨_, ⟨hcode, _⟩, _, ⟨hstrings, _⟩, _, _, _, ⟨hsource, rfl⟩, _, ⟨hslots, rfl⟩, hrest⟩
    split at hrest
    · obtain ⟨_, hvalid, hpure⟩ := (bind_eq_ok_iff _ _ _).1 hrest
      have hrange := (validate_eq_ok_iff descriptor .ofGlobalScript).1 hvalid
      exact ⟨⟨hcode, hstrings, hsource, hslots, fun _ => hrange⟩, (Except.ok.inj hpure).symm⟩
    · rename_i hoff
      exact ⟨⟨hcode, hstrings, hsource, hslots, fun hon => absurd hon hoff⟩,
        (Except.ok.inj hrest).symm⟩
  · rintro ⟨⟨hcode, hstrings, hsource, hslots, hrange⟩, rfl⟩
    refine ⟨_, ⟨hcode, rfl⟩, _, ⟨hstrings, rfl⟩, _, ⟨by decide, rfl⟩, _, ⟨hsource, rfl⟩, _,
      ⟨hslots, rfl⟩, ?_⟩
    split
    · rename_i hon
      have hvalid := (validate_eq_ok_iff descriptor .ofGlobalScript).2 (hrange hon)
      exact (bind_eq_ok_iff _ _ _).2 ⟨(), hvalid, rfl⟩
    · rfl

/-- A descriptor plans the things of a global script. -/
theorem plan_of_ofDescriptor? {options : CompileOptions} {link : LinkSettings}
    {descriptor : Descriptor} {sourceLength : Nat} {blueprint : Blueprint}
    (h : ofDescriptor? options link descriptor sourceLength = .ok blueprint) :
    blueprint.plan = .ofGlobalScript := by
  obtain ⟨_, rfl⟩ := (ofDescriptor?_eq_ok_iff _ _ _ _ _).1 h
  rfl

end Blueprint

end ScriptLinker
