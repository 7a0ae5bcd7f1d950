import ScriptLinker.Proofs.GlobalScope
/-!
# How a materialization fails

A descriptor is checked before anything is built, and a check that fails leaves
no trace. Once building has begun, the context holds its global scope and the
script its place on the stack, so of all the errors of a heap only two can come
up: a string is not UTF-8, or there is no memory. `failure_of_materialize` says
so of every reachable context.
-/

namespace ScriptLinker

/-- Whether a check of the descriptor failed, before anything was built. -/
inductive LinkError.OfCheck : LinkError → Prop where
  | outOfRange (field : NarrowField) {value : Nat} : UInt32.size ≤ value →
      OfCheck (.descriptor (.fieldOutOfRange field value))
  | inconsistent (fault : Inconsistency) : OfCheck (.inconsistent fault)

namespace Blueprint

open LinkError (OfCheck)

/-- A sequence of checks fails in one of them. -/
theorem ofCheck_of_bind {α β : Type} {first : Except LinkError α}
    {next : α → Except LinkError β} {error : LinkError}
    (h : (first >>= next) = .error error)
    (hfirst : first = .error error → OfCheck error)
    (hnext : ∀ value, next value = .error error → OfCheck error) : OfCheck error := by
  cases first with
  | error fault => exact hfirst (congrArg Except.error (Except.error.inj h))
  | ok value => exact hnext value h

theorem ofCheck_of_narrow {field : NarrowField} {value : Nat} {error : LinkError}
    (h : narrow field value = .error error) : OfCheck error := by
  unfold narrow ScriptLinker.narrow at h
  split at h
  · simp [Except.mapError] at h
  · rename_i hvalue
    exact Except.error.inj h ▸ .outOfRange field (Nat.le_of_not_lt hvalue)

theorem ofCheck_of_slotCount {layout : FrameLayout} {error : LinkError}
    (h : slotCount layout = .error error) : OfCheck error := by
  unfold slotCount at h
  split at h
  · simp at h
  · exact Except.error.inj h ▸ .inconsistent _

theorem ofCheck_of_validate {descriptor : Descriptor} {plan : ThingPlan} {error : LinkError}
    (h : validate descriptor plan = .error error) : OfCheck error := by
  unfold validate at h
  split at h
  · exact Except.error.inj h ▸ .inconsistent _
  · split at h
    · exact Except.error.inj h ▸ .inconsistent _
    · simp at h

/-- A descriptor without a blueprint failed a check. -/
theorem ofCheck_of_ofDescriptor? {options : CompileOptions} {link : LinkSettings}
    {descriptor : Descriptor} {sourceLength : Nat} {error : LinkError}
    (h : ofDescriptor? options link descriptor sourceLength = .error error) : OfCheck error := by
  unfold ofDescriptor? at h
  refine ofCheck_of_bind h ofCheck_of_narrow fun _ hstrings => ?_
  refine ofCheck_of_bind hstrings ofCheck_of_narrow fun _ hthings => ?_
  refine ofCheck_of_bind hthings ofCheck_of_narrow fun _ hsource => ?_
  refine ofCheck_of_bind hsource ofCheck_of_narrow fun _ hslots => ?_
  refine ofCheck_of_bind hslots ofCheck_of_slotCount fun _ hrest => ?_
  split at hrest
  · exact ofCheck_of_bind hrest ofCheck_of_validate (by simp [pure, Except.pure])
  · simp [pure, Except.pure] at hrest

end Blueprint

namespace Context

/-- A check that fails leaves no trace. -/
theorem run_materialize_of_error {context : Context} {descriptor : Descriptor}
    {sourceLength : Nat} {error : LinkError}
    (h : context.blueprint? descriptor sourceLength = .error error) :
    (materialize descriptor sourceLength).run context = ⟨.error error, context, []⟩ := by
  unfold materialize
  rw [Action.run_bind_of_ok (Action.run_get context),
    Action.run_bind_of_error (by rw [Action.run_ofExcept, h])]
  rfl

/-- Where building fails, memory ran out or a string is not UTF-8. -/
theorem error_of_build {context : Context} (h : context.Sound) {blueprint : Blueprint}
    {descriptor : Descriptor} {sourceLength : Nat} {error : LinkError}
    (hblueprint : context.blueprint? descriptor sourceLength = .ok blueprint)
    (hfailed : ((materialize descriptor sourceLength).ending context).1 = .error error) :
    error = .outOfMemory ∨
      error = .heap .invalidUtf8 ∧ ∃ string ∈ descriptor.strings, Utf8.decode? string = none := by
  have hbuild := h.ensures_build hblueprint
  have hstrings : blueprint.strings = descriptor.strings := by
    obtain ⟨_, rfl⟩ := (Blueprint.ofDescriptor?_eq_ok_iff _ _ _ _ _).1 hblueprint
    rfl
  rw [ending_materialize, hblueprint] at hfailed
  dsimp only at hfailed
  unfold Action.Ensures at hbuild
  cases hending : (blueprint.build context.globalScope).ending context.heap with
  | mk result after =>
      rw [hending] at hbuild hfailed
      cases result with
      | ok script => simp [Except.mapError] at hfailed
      | error cause =>
          obtain rfl := Except.error.inj hfailed
          rcases hbuild.cause with ⟨rfl, hinvalid⟩ | ⟨rfl, _⟩
          · exact Or.inr ⟨rfl, hstrings ▸ hinvalid⟩
          · exact Or.inl rfl

/-- A materialization in a reachable context, with or without an armed failure, fails only
for lack of memory, for a string that is not UTF-8, or in a check of the descriptor.

Of the errors of a heap there is one, and lack of memory is not reported as such. A failed
check leaves the context as it was, and notes nothing. -/
theorem failure_of_materialize {context : Context} (h : context.Reachable)
    {descriptor : Descriptor} {sourceLength : Nat} {error : LinkError}
    (hfailed : ((materialize descriptor sourceLength).ending context).1 = .error error) :
    (error = .outOfMemory ∨
      (error = .heap .invalidUtf8 ∧
        ∃ string ∈ descriptor.strings, ¬ ∃ text, Utf8.encode text = string) ∨
      (∃ field value, error = .descriptor (.fieldOutOfRange field value)) ∨
      ∃ fault, error = .inconsistent fault) ∧
    (∀ cause, error = .heap cause → cause = .invalidUtf8) ∧
    ((∃ cause, error = .descriptor cause) ∨ (∃ fault, error = .inconsistent fault) →
      (materialize descriptor sourceLength).run context = ⟨.error error, context, []⟩) := by
  cases hblueprint : context.blueprint? descriptor sourceLength with
  | error fault =>
      have hrun := run_materialize_of_error hblueprint
      obtain rfl : fault = error := by
        rw [Action.ending, hrun] at hfailed
        exact Except.error.inj hfailed
      have hcheck : fault.OfCheck := Blueprint.ofCheck_of_ofDescriptor? hblueprint
      refine ⟨?_, ?_, fun _ => hrun⟩
      · cases hcheck with
        | outOfRange field _ => exact Or.inr (Or.inr (Or.inl ⟨field, _, rfl⟩))
        | inconsistent fault => exact Or.inr (Or.inr (Or.inr ⟨fault, rfl⟩))
      · rintro cause rfl
        cases hcheck
  | ok blueprint =>
      rcases error_of_build h.sound hblueprint hfailed with rfl | ⟨rfl, string, hstring, hinvalid⟩
      · exact ⟨Or.inl rfl, by simp, by simp⟩
      · refine ⟨Or.inr (Or.inl ⟨rfl, string, hstring, ?_⟩), by simp, by simp⟩
        rintro ⟨text, rfl⟩
        simp at hinvalid

/-- An armed failure strikes the second string, a second string is not UTF-8, and
an offset lies past the end of the bytecode. -/
theorem failure_of_materialize_threeWays :
    ∃ context : Context, context.Reachable ∧ context.heap.failureCountdown = some 4 ∧
      ((materialize { revision := .metadata, strings := [[120], [121]] } 1).ending context).1 =
        .error .outOfMemory ∧
      (∃ string ∈ ([[120], [255]] : List Bytes), ¬ ∃ text, Utf8.encode text = string) ∧
      (materialize { revision := .metadata, metadata := { mainOffset := 1 } } 1).run context =
        ⟨.error (.inconsistent (.mainOffsetPastEnd 1 0)), context, []⟩ := by
  have hstart := reachable_of_isSome (rfl : (ofConfig?
    { link := { validateStencils := true } }).toOption.isSome = true)
  have hready := hstart.request (.perform (.failAfter 4)) (by simp)
  obtain ⟨context, hreachable, harmed, hmemory, hinvalid, hcheck⟩ :
      ∃ context : Context, context.Reachable ∧ context.heap.failureCountdown = some 4 ∧
        ((materialize { revision := .metadata, strings := [[120], [121]] } 1).ending context).1 =
          .error .outOfMemory ∧
        ((materialize { revision := .metadata, strings := [[120], [255]] } 1).ending context).1 =
          .error (.heap .invalidUtf8) ∧
        ((materialize { revision := .metadata, metadata := { mainOffset := 1 } } 1).ending
          context).1 = .error (.inconsistent (.mainOffsetPastEnd 1 0)) :=
    ⟨_, hready, by decide +kernel, by decide +kernel, by decide +kernel, by decide +kernel⟩
  refine ⟨context, hreachable, harmed, hmemory, ?_, ?_⟩
  · simpa using (failure_of_materialize hreachable hinvalid).1
  · exact (failure_of_materialize hreachable hcheck).2.2 (Or.inr ⟨_, rfl⟩)

end Context

end ScriptLinker
