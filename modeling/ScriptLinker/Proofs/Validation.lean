import ScriptLinker.Proofs.Compilations
import ScriptLinker.Proofs.Linking
import ScriptLinker.Proofs.StoreBuffer
/-!
# What validation is worth

Two checks of a descriptor are made only where the settings ask for them, after those
that are always made. A context that makes them refuses some descriptors that it would
take otherwise, without a trace, and treats the others as if it did not make them. In
return every script that it compiles has its offset and its body scope in range, and
since a sealed script is never revised, it has them for as long as it lives.
-/

namespace ScriptLinker

/-- The errors of the checks that are made whatever the settings. -/
inductive LinkError.Unconditional : LinkError → Prop where
  | outOfRange (field : NarrowField) (value : Nat) :
      Unconditional (.descriptor (.fieldOutOfRange field value))
  | slotOverflow (fixed depth : UInt32) : Unconditional (.inconsistent (.slotOverflow fixed depth))

namespace Descriptor

/-- What is asked of a descriptor where it is validated. -/
def InRange (descriptor : Descriptor) : Prop :=
  descriptor.metadata.mainOffset.toNat ≤ descriptor.bytecode.length ∧
    descriptor.metadata.layout.bodyScopeIndex.toNat < ThingPlan.ofGlobalScript.length

/-- What is said of a descriptor that is not in range: its offset comes first. -/
def fault (descriptor : Descriptor) : Inconsistency :=
  let offset := descriptor.metadata.mainOffset
  if descriptor.bytecode.length < offset.toNat then
    .mainOffsetPastEnd offset descriptor.bytecode.length
  else
    .bodyScopeOutOfRange descriptor.metadata.layout.bodyScopeIndex ThingPlan.ofGlobalScript.length

end Descriptor

/-- What a script of a validating context promises: its offset is in its code, its fixed
slots are among its slots, and its body scope is this one. -/
def Script.InBounds (content : Script) (scope : ScopeId) : Prop :=
  ∃ image things, content.image? = some image ∧ content.things = some things ∧
    image.mainOffset.toNat ≤ image.code.length ∧ image.nfixed.toNat ≤ image.nslots.toNat ∧
    things[image.bodyScopeIndex.toNat]? = some (some (.scope scope))

/-- What is in a thing slot is referred to. -/
theorem Cell.mem_references_of_things {content : Script} {things : List (Option CellRef)}
    {ref : CellRef} (hthings : content.things = some things) (h : some ref ∈ things) :
    ref ∈ (Cell.script content).references :=
  (mem_references_script _ _).2 (Or.inl (by simp [Script.thingSlots, hthings, h]))

namespace Blueprint

variable {descriptor : Descriptor} {error : LinkError}

theorem validate_of_inRange (h : descriptor.InRange) :
    validate descriptor .ofGlobalScript = .ok () :=
  (validate_eq_ok_iff _ _).2 h

theorem validate_of_not_inRange (h : ¬ descriptor.InRange) :
    validate descriptor .ofGlobalScript = .error (.inconsistent descriptor.fault) := by
  unfold validate Descriptor.fault
  dsimp only [gt_iff_lt]
  split
  · rfl
  · rename_i hoffset
    have hscope : descriptor.metadata.layout.bodyScopeIndex.toNat ≥
        ThingPlan.ofGlobalScript.length :=
      Nat.le_of_not_lt fun hlt => h ⟨Nat.le_of_not_lt hoffset, hlt⟩
    rw [if_pos hscope]

theorem unconditional_of_narrow {field : NarrowField} {value : Nat}
    (h : narrow field value = .error error) : error.Unconditional := by
  unfold narrow ScriptLinker.narrow at h
  split at h
  · simp [Except.mapError] at h
  · exact Except.error.inj h ▸ .outOfRange field value

theorem slotCount_of_overflow {layout : FrameLayout}
    (h : UInt32.size ≤ layout.maxFixedSlots.toNat + layout.maximumStackDepth.toNat) :
    slotCount layout =
      .error (.inconsistent (.slotOverflow layout.maxFixedSlots layout.maximumStackDepth)) :=
  if_neg (Nat.not_lt_of_le h)

theorem unconditional_of_slotCount {layout : FrameLayout}
    (h : slotCount layout = .error error) : error.Unconditional := by
  unfold slotCount at h
  split at h
  · simp at h
  · exact Except.error.inj h ▸ .slotOverflow _ _

/-- A check that is made whatever the settings refuses the descriptor, or only those are
left that are not. -/
theorem ofDescriptor?_cases (options : CompileOptions) (descriptor : Descriptor)
    (sourceLength : Nat) :
    (∃ error, error.Unconditional ∧
      ∀ link, ofDescriptor? options link descriptor sourceLength = .error error) ∨
    ∀ link, ofDescriptor? options link descriptor sourceLength =
      if link.validateStencils then
        (validate descriptor .ofGlobalScript).map fun _ =>
          ofDescriptor options descriptor sourceLength
      else
        .ok (ofDescriptor options descriptor sourceLength) := by
  unfold ofDescriptor?
  dsimp only
  cases hcode : narrow .bytecode descriptor.bytecode.length with
  | error error => exact Or.inl ⟨error, unconditional_of_narrow hcode, fun _ => rfl⟩
  | ok code =>
  cases hstrings : narrow .strings descriptor.strings.length with
  | error error => exact Or.inl ⟨error, unconditional_of_narrow hstrings, fun _ => rfl⟩
  | ok strings =>
  cases hthings : narrow .things ThingPlan.ofGlobalScript.length with
  | error error => exact Or.inl ⟨error, unconditional_of_narrow hthings, fun _ => rfl⟩
  | ok things =>
  cases hsource : narrow .source sourceLength with
  | error error => exact Or.inl ⟨error, unconditional_of_narrow hsource, fun _ => rfl⟩
  | ok length =>
  cases hslots : slotCount descriptor.metadata.layout with
  | error error => exact Or.inl ⟨error, unconditional_of_slotCount hslots, fun _ => rfl⟩
  | ok count =>
  obtain ⟨_, rfl⟩ := (narrow_eq_ok_iff _ _ _).1 hsource
  obtain ⟨_, rfl⟩ := (slotCount_eq_ok_iff _ _).1 hslots
  refine Or.inr fun link => ?_
  cases hvalidate : link.validateStencils with
  | false => rfl
  | true => cases validate descriptor .ofGlobalScript <;> rfl

/-- A number of slots that overflows is refused without validation as well, and as such if
the lengths fit. -/
theorem ofDescriptor?_of_overflow (options : CompileOptions) (descriptor : Descriptor)
    (sourceLength : Nat)
    (hslots : UInt32.size ≤ descriptor.metadata.layout.maxFixedSlots.toNat +
      descriptor.metadata.layout.maximumStackDepth.toNat) :
    ∃ error, error.Unconditional ∧
      (∀ link, ofDescriptor? options link descriptor sourceLength = .error error) ∧
      (descriptor.bytecode.length < UInt32.size → descriptor.strings.length < UInt32.size →
        sourceLength < UInt32.size →
        error = .inconsistent (.slotOverflow descriptor.metadata.layout.maxFixedSlots
          descriptor.metadata.layout.maximumStackDepth)) := by
  have hnarrow : ∀ {field : NarrowField} {value : Nat}, value < UInt32.size →
      narrow field value = .ok (UInt32.ofNat value) :=
    fun hvalue => (narrow_eq_ok_iff _ _ _).2 ⟨hvalue, rfl⟩
  have hplan : ThingPlan.ofGlobalScript.length < UInt32.size := by decide
  rcases ofDescriptor?_cases options descriptor sourceLength with
    ⟨error, hkind, hrefused⟩ | hchecked
  · refine ⟨error, hkind, hrefused, fun hcode hstrings hsource => ?_⟩
    have hfound := hrefused {}
    unfold ofDescriptor? at hfound
    dsimp only at hfound
    rw [hnarrow hcode, hnarrow hstrings, hnarrow hplan, hnarrow hsource,
      slotCount_of_overflow hslots] at hfound
    exact (Except.error.inj hfound).symm
  · have hpassed : ofDescriptor? options {} descriptor sourceLength =
        .ok (ofDescriptor options descriptor sourceLength) := hchecked {}
    have hconsistent := ((ofDescriptor?_eq_ok_iff _ _ _ _ _).1 hpassed).1
    exact absurd hconsistent.slots_lt (Nat.not_lt_of_le hslots)

end Blueprint

namespace Context

/-- A context that validates stencils, or does not. -/
def validating (on : Bool) (context : Context) : Context :=
  { context with link := { context.link with validateStencils := on } }

variable {context : Context} {descriptor : Descriptor} {sourceLength : Nat}

/-- What a materialization does with its whole context, and what it notes. -/
theorem run_materialize (descriptor : Descriptor) (sourceLength : Nat) (context : Context) :
    (materialize descriptor sourceLength).run context =
      match context.blueprint? descriptor sourceLength with
      | .error error => ⟨.error error, context, []⟩
      | .ok blueprint =>
        let built := (blueprint.build context.globalScope).run context.heap
        ⟨built.result.mapError .ofHeapError, { context with heap := built.state },
          built.events⟩ := by
  cases hblueprint : context.blueprint? descriptor sourceLength with
  | error error => exact run_materialize_of_error hblueprint
  | ok blueprint =>
      have hchecked : (Action.ofExcept (context.blueprint? descriptor sourceLength) :
          Action Context LinkError Blueprint).run context = ⟨.ok blueprint, context, []⟩ := by
        rw [Action.run_ofExcept, hblueprint]
      unfold materialize
      rw [Action.run_bind_of_ok (Action.run_get context), Action.run_bind_of_ok hchecked]
      rfl

/-- What building a script fails with is no error of a check. -/
theorem not_unconditional_of_build {blueprint : Blueprint} {error : LinkError}
    (hblueprint : context.blueprint? descriptor sourceLength = .ok blueprint)
    (hfailed : ((materialize descriptor sourceLength).run context).result = .error error) :
    ¬ error.Unconditional := by
  rw [run_materialize, hblueprint] at hfailed
  dsimp only at hfailed
  cases hresult : ((blueprint.build context.globalScope).run context.heap).result with
  | ok script => simp [hresult, Except.mapError] at hfailed
  | error cause =>
      rw [hresult] at hfailed
      obtain rfl := Except.error.inj hfailed
      cases cause <;> exact fun h => nomatch h

/-- A context refuses a descriptor whether it validates or not, or validation decides. -/
theorem blueprint?_validating_cases (context : Context) (descriptor : Descriptor)
    (sourceLength : Nat) :
    (∃ error, error.Unconditional ∧
      ∀ on, (context.validating on).blueprint? descriptor sourceLength = .error error) ∨
    ∃ blueprint, (context.validating false).blueprint? descriptor sourceLength = .ok blueprint ∧
      (context.validating true).blueprint? descriptor sourceLength =
        (Blueprint.validate descriptor .ofGlobalScript).map fun _ => blueprint := by
  refine (Blueprint.ofDescriptor?_cases context.options descriptor sourceLength).imp ?_
    fun hchecked => ⟨_, hchecked _, hchecked _⟩
  rintro ⟨error, hkind, hrefused⟩
  exact ⟨error, hkind, fun _ => hrefused _⟩

/-- Without validation the checks refuse just what is not consistent. -/
theorem unconditional_iff_not_consistent :
    (∃ error : LinkError, error.Unconditional ∧
      ((materialize descriptor sourceLength).run (context.validating false)).result =
        .error error) ↔
      ¬ descriptor.Consistent (context.validating false).link sourceLength := by
  have hok := Blueprint.ofDescriptor?_eq_ok_iff context.options (context.validating false).link
    descriptor sourceLength
  constructor
  · rintro ⟨error, hkind, hfailed⟩ hconsistent
    exact not_unconditional_of_build ((hok _).2 ⟨hconsistent, rfl⟩) hfailed hkind
  · intro hinconsistent
    rcases context.blueprint?_validating_cases descriptor sourceLength with
      ⟨error, hkind, hrefused⟩ | ⟨blueprint, htrusted, _⟩
    · exact ⟨error, hkind, congrArg Outcome.result (run_materialize_of_error (hrefused false))⟩
    · exact absurd ((hok blueprint).1 htrusted).1 hinconsistent

/-- What is in range is treated alike by contexts that validate and that do not. -/
theorem run_validating_of_inRange (h : descriptor.InRange) :
    (materialize descriptor sourceLength).run (context.validating true) =
      let trusted := (materialize descriptor sourceLength).run (context.validating false)
      { trusted with state := trusted.state.validating true } := by
  have hsame : (context.validating true).blueprint? descriptor sourceLength =
      (context.validating false).blueprint? descriptor sourceLength := by
    rcases context.blueprint?_validating_cases descriptor sourceLength with
      ⟨error, _, hrefused⟩ | ⟨blueprint, htrusted, hchecked⟩
    · exact (hrefused _).trans (hrefused _).symm
    · rw [hchecked, htrusted, Blueprint.validate_of_inRange h]
      rfl
  rw [run_materialize, run_materialize, hsame]
  cases (context.validating false).blueprint? descriptor sourceLength <;> rfl

/-- What is refused whatever the settings is refused for the same reason. -/
theorem run_validating_of_unconditional {error : LinkError} (hkind : error.Unconditional)
    (hrefused : ((materialize descriptor sourceLength).run (context.validating false)).result =
      .error error) :
    (materialize descriptor sourceLength).run (context.validating true) =
      ⟨.error error, context.validating true, []⟩ := by
  rcases context.blueprint?_validating_cases descriptor sourceLength with
    ⟨cause, _, hcause⟩ | ⟨blueprint, htrusted, _⟩
  · have htrusted : (materialize descriptor sourceLength).run (context.validating false) =
        ⟨.error cause, context.validating false, []⟩ := run_materialize_of_error (hcause _)
    rw [htrusted] at hrefused
    obtain rfl := Except.error.inj hrefused
    exact run_materialize_of_error (hcause _)
  · exact absurd hkind (not_unconditional_of_build htrusted hrefused)

/-- What passes the other checks and is not in range is refused for its fault. -/
theorem run_validating_of_not_inRange (h : ¬ descriptor.InRange)
    (hpassed : ∀ error,
      ((materialize descriptor sourceLength).run (context.validating false)).result =
        .error error → ¬ error.Unconditional) :
    (materialize descriptor sourceLength).run (context.validating true) =
      ⟨.error (.inconsistent descriptor.fault), context.validating true, []⟩ := by
  rcases context.blueprint?_validating_cases descriptor sourceLength with
    ⟨cause, hkind, hcause⟩ | ⟨blueprint, _, hchecked⟩
  · have htrusted : (materialize descriptor sourceLength).run (context.validating false) =
        ⟨.error cause, context.validating false, []⟩ := run_materialize_of_error (hcause _)
    exact absurd hkind (hpassed cause (congrArg Outcome.result htrusted))
  · refine run_materialize_of_error ?_
    rw [hchecked, Blueprint.validate_of_not_inRange h]
    rfl

/-- The ways in which a context comes to a script. -/
inductive Compiles (context : Context) (script : ScriptId) : Context → Prop where
  | materialize {after : Context} (descriptor : Descriptor) (sourceLength : Nat) :
      (Context.materialize descriptor sourceLength).ending context = (.ok script, after) →
      Compiles context script after
  | compile {ledger : FrontEnd.Ledger} {after : Desk} (bridge : Bridge) (source : Bytes) :
      (Desk.compile bridge source).ending ⟨context, ledger⟩ = (.ok (.compiled script), after) →
      Compiles context script after.context

/-- A script that was carried out was materialized. -/
theorem materialize_of_carryOut {after : Context} {script : ScriptId}
    (h : (carryOut descriptor sourceLength).ending context = (.ok (.compiled script), after)) :
    (materialize descriptor sourceLength).ending context = (.ok script, after) := by
  rw [ending_carryOut] at h
  cases hverdict : descriptor.verdict with
  | syntaxError message => simp [hverdict] at h
  | unimplemented => simp [hverdict] at h
  | success =>
      rw [hverdict] at h
      dsimp only at h
      cases hmade : (materialize descriptor sourceLength).ending context with
      | mk result last =>
          rw [hmade] at h
          obtain ⟨hresult, rfl⟩ := Prod.mk.inj h
          cases result with
          | error error => cases hresult
          | ok made => cases hresult; rfl

/-- In either way a descriptor is materialized. -/
theorem Compiles.exists_descriptor {after : Context} {script : ScriptId}
    (h : context.Compiles script after) :
    ∃ (descriptor : Descriptor) (sourceLength : Nat),
      (Context.materialize descriptor sourceLength).ending context = (.ok script, after) := by
  cases h with
  | materialize descriptor sourceLength hmade => exact ⟨descriptor, sourceLength, hmade⟩
  | @compile ledger desk bridge source hcompiled =>
      rw [Desk.ending_compile] at hcompiled
      dsimp only at hcompiled
      cases hread : Descriptor.ofStencil?
          (bridge.frontEnd.compile source context.options) with
      | error error => simp [hread] at hcompiled
      | ok descriptor =>
          rw [hread] at hcompiled
          obtain ⟨hresult, rfl⟩ := Prod.mk.inj hcompiled
          exact ⟨descriptor, source.length, materialize_of_carryOut (Prod.ext hresult rfl)⟩

section Later

variable {after : Context} {script : ScriptId}

/-- What a validating context materializes is in bounds. -/
theorem inBounds_of_materialize (hheap : context.heap.Reachable)
    (hon : context.link.validateStencils = true)
    (hmade : (materialize descriptor sourceLength).ending context = (.ok script, after)) :
    ∃ content, after.heap.script script = .ok content ∧ content.isSealed = true ∧
      content.InBounds context.globalScope := by
  obtain ⟨blueprint, hblueprint, _⟩ := build_of_materialize hmade
  have hconsistent := ((Blueprint.ofDescriptor?_eq_ok_iff _ _ _ _ _).1 hblueprint).1
  obtain ⟨hoffset, hscope⟩ := hconsistent.in_range hon
  obtain ⟨content, object, hscript, hshared, himage⟩ := sharesImage_of_materialize hmade
  obtain ⟨linked, hlinked, hthings⟩ := hasThings_of_materialize hheap hmade
  obtain rfl := Except.ok.inj (hscript.symm.trans hlinked)
  have hnslots : object.image.nslots.toNat =
      descriptor.metadata.layout.maxFixedSlots.toNat +
        descriptor.metadata.layout.maximumStackDepth.toNat := by
    rw [himage]
    exact (UInt32.toNat_add _ _).trans (Nat.mod_eq_of_lt hconsistent.slots_lt)
  refine ⟨content, hscript, (Script.isSealed_iff content).2 ⟨object, hshared⟩, object.image, _,
    by rw [Script.image?, hshared], hthings, ?_, ?_, ?_⟩
  · rw [himage]
    exact hoffset
  · rw [hnslots, himage]
    exact Nat.le_add_right _ _
  · rw [himage]
    have hzero : descriptor.metadata.layout.bodyScopeIndex.toNat = 0 := Nat.lt_one_iff.1 hscope
    exact congrArg ([some (CellRef.scope context.globalScope)][·]?) hzero

/-- A context that was set up from a configuration, with whatever has been done to its heap
since. -/
def Configured (context : Context) : Prop :=
  ∃ (config : EngineConfig) (start : Context) (events : List Event) (deeds : List Deed),
    ofConfig? config = .ok (start, events) ∧ context.heap = Deed.nextAll deeds start.heap ∧
      context.globalScope = start.globalScope

theorem Reachable.configured (h : context.Reachable) : context.Configured := by
  induction h with
  | start hstart => exact ⟨_, _, _, [], hstart, rfl, rfl⟩
  | request request _ _ ih =>
      obtain ⟨config, start, events, deeds, hstart, hheap, hscope⟩ := ih
      refine ⟨config, start, events, deeds ++ [.ask request], hstart, ?_, hscope⟩
      rw [Deed.nextAll_append, ← hheap]
      rfl
  | @materialize context descriptor sourceLength _ ih =>
      obtain ⟨config, start, events, deeds, hstart, hheap, hscope⟩ := ih
      refine ⟨config, start, events, deeds ++ [.materialize context descriptor sourceLength],
        hstart, ?_, ?_⟩
      · rw [Deed.nextAll_append, ← hheap]
        rfl
      · rw [state_materialize]
        exact hscope
  | setOptions | setSink =>
      rename_i ih
      exact ih

theorem Configured.heap_reachable (h : context.Configured) : context.heap.Reachable := by
  obtain ⟨_, _, _, deeds, hstart, hheap, _⟩ := h
  rw [hheap, ← Deed.nextAll_requestsAll]
  exact (Reachable.start hstart).heap_reachable.nextAll _

/-- Before generations start over, a global scope that is found alive is the one that its
context was set up with. -/
theorem Configured.cell?_globalScope (h : context.Configured) {requests : List Request}
    (hruns : (Request.nextAll requests context.heap).stats.gcRuns < UInt32.size)
    (hlive : (Request.nextAll requests context.heap).isLive context.globalScope.id = true) :
    (Request.nextAll requests context.heap).cell? context.globalScope.id =
      some (.scope { kind := .global, enclosing := none }) := by
  obtain ⟨config, start, events, deeds, hstart, hheap, hscope⟩ := h
  have hreachable := (Reachable.start hstart).heap_reachable
  have hanchors := (Reachable.start hstart).sound.anchors
  rw [hheap, ← Deed.nextAll_requestsAll, ← Request.nextAll_append] at hruns hlive ⊢
  rw [hscope] at hlive ⊢
  have halong := Heap.AliveAlong.of_isLive hreachable hruns hanchors.isLive hlive
  obtain ⟨last, hlast, hcontinues⟩ := halong.carriesOn hreachable.sound hanchors.cell_eq
  cases hcontinues
  exact hlast

/-- The global scope that a new script was linked to is empty, as long as its root is kept
or generations do not start over: in the second case it is the script that keeps it alive. -/
theorem Configured.cell?_of_materialize (h : context.Configured)
    (hmade : (materialize descriptor sourceLength).ending context = (.ok script, after))
    (hkept : context.Reachable ∨ after.heap.stats.gcRuns < UInt32.size) :
    after.heap.cell? context.globalScope.id =
      some (.scope { kind := .global, enclosing := none }) := by
  have hscopes := congrArg Context.globalScope (state_materialize descriptor sourceLength context)
  rw [hmade] at hscopes
  have hsame : after.globalScope = context.globalScope := hscopes
  rcases hkept with hreachable | hruns
  · have hafter := hreachable.materialize descriptor sourceLength
    rw [hmade] at hafter
    exact hsame ▸ hafter.sound.anchors.cell_eq
  · have hheap := h.heap_reachable
    have hrequests : Request.nextAll (context.requests descriptor sourceLength) context.heap =
        after.heap := by
      rw [nextAll_requests, hmade]
    obtain ⟨content, hscript, hthings⟩ := hasThings_of_materialize hheap hmade
    have hlive := (hheap.materialize hmade).isLive_of_mem_references hscript
      (Cell.mem_references_of_things hthings (List.mem_singleton_self _))
    rw [← hrequests] at hruns hlive ⊢
    exact h.cell?_globalScope hruns hlive

/-- A script that a validating context compiled is in bounds for as long as it lives. -/
theorem Compiles.inBounds_nextAll (h : context.Compiles script after)
    (hheap : context.heap.Reachable) (hon : context.link.validateStencils = true)
    {requests : List Request} (halive : Heap.AliveAlong script.id requests after.heap) :
    ∃ content, (Request.nextAll requests after.heap).script script = .ok content ∧
      content.isSealed = true ∧ content.InBounds context.globalScope := by
  obtain ⟨descriptor, sourceLength, hmade⟩ := h.exists_descriptor
  obtain ⟨content, hscript, hsealed, hbounds⟩ := inBounds_of_materialize hheap hon hmade
  have hkept := halive.script_eq (hheap.materialize hmade).sound hscript hsealed
  exact ⟨content, hkept, hsealed, hbounds⟩

/-- The global scope of a compiled script is empty for as long as the script lives. -/
theorem Compiles.scope_nextAll (h : context.Compiles script after)
    (hconfigured : context.Configured)
    (hkept : context.Reachable ∨ after.heap.stats.gcRuns < UInt32.size)
    {requests : List Request} (halive : Heap.AliveAlong script.id requests after.heap) :
    (Request.nextAll requests after.heap).scope context.globalScope =
      .ok { kind := .global, enclosing := none } := by
  obtain ⟨descriptor, sourceLength, hmade⟩ := h.exists_descriptor
  have hheap := hconfigured.heap_reachable
  have hafter := hheap.materialize hmade
  obtain ⟨content, object, hscript, hobject, _⟩ := sharesImage_of_materialize hmade
  obtain ⟨linked, hlinked, hthings⟩ := hasThings_of_materialize hheap hmade
  obtain rfl := Except.ok.inj (hscript.symm.trans hlinked)
  have hsealed := (Script.isSealed_iff content).2 ⟨object, hobject⟩
  have hscope : Heap.AliveAlong context.globalScope.id requests after.heap :=
    halive.of_mem_references hafter hscript hsealed
      (Cell.mem_references_of_things hthings (List.mem_singleton_self _))
  obtain ⟨last, hlast, hcontinues⟩ :=
    hscope.carriesOn hafter.sound (hconfigured.cell?_of_materialize hmade hkept)
  cases hcontinues
  exact (Heap.scope_eq_ok_iff _ _ _).2 hlast

/-- Before generations start over, a compiled script that is found alive has been so ever
since. -/
theorem Compiles.aliveAlong (h : context.Compiles script after)
    (hheap : context.heap.Reachable) {requests : List Request}
    (hruns : (Request.nextAll requests after.heap).stats.gcRuns < UInt32.size)
    (hlive : (Request.nextAll requests after.heap).isLive script.id = true) :
    Heap.AliveAlong script.id requests after.heap := by
  obtain ⟨descriptor, sourceLength, hmade⟩ := h.exists_descriptor
  obtain ⟨content, _, hscript, _⟩ := sharesImage_of_materialize hmade
  exact .of_isLive (hheap.materialize hmade) hruns (Heap.isLive_of_script hscript) hlive

end Later

/-- A context that validates refuses what is out of range and treats the rest as one that
does not, and what it compiles is in bounds for good.

What is out of range is refused without a trace: as it would be anyway, or for its fault.
Without validation the checks refuse just what is not consistent, and slots that overflow
are refused either way, as such if the lengths fit. Whatever the validating context compiles
is in bounds for as long as it lives, which a look at its address tells before generations
start over. -/
theorem validation_filters (context : Context) (descriptor : Descriptor) (sourceLength : Nat) :
    let checking := context.validating true
    let trusting := context.validating false
    let checked := (materialize descriptor sourceLength).run checking
    let trusted := (materialize descriptor sourceLength).run trusting
    let layout := descriptor.metadata.layout
    (descriptor.InRange → checked = { trusted with state := trusted.state.validating true }) ∧
    (¬ descriptor.InRange →
      (∀ error, error.Unconditional → trusted.result = .error error →
        checked = ⟨.error error, checking, []⟩) ∧
      ((∀ error, trusted.result = .error error → ¬ error.Unconditional) →
        checked = ⟨.error (.inconsistent descriptor.fault), checking, []⟩)) ∧
    ((∃ error : LinkError, error.Unconditional ∧ trusted.result = .error error) ↔
      ¬ descriptor.Consistent trusting.link sourceLength) ∧
    (UInt32.size ≤ layout.maxFixedSlots.toNat + layout.maximumStackDepth.toNat →
      ∃ error, error.Unconditional ∧ checked = ⟨.error error, checking, []⟩ ∧
        trusted = ⟨.error error, trusting, []⟩ ∧
        (descriptor.bytecode.length < UInt32.size → descriptor.strings.length < UInt32.size →
          sourceLength < UInt32.size →
          error = .inconsistent (.slotOverflow layout.maxFixedSlots layout.maximumStackDepth))) ∧
    (checking.Configured → ∀ script after deeds, checking.Compiles script after →
      let later := Deed.nextAll deeds after.heap
      Heap.AliveAlong script.id (Deed.requestsAll deeds after.heap) after.heap ∨
        (later.stats.gcRuns < UInt32.size ∧ later.isLive script.id = true) →
      (∃ content, later.script script = .ok content ∧ content.isSealed = true ∧
        content.InBounds context.globalScope) ∧
      (checking.Reachable ∨ after.heap.stats.gcRuns < UInt32.size →
        later.scope context.globalScope = .ok { kind := .global, enclosing := none })) := by
  intro checking trusting checked trusted layout
  refine ⟨run_validating_of_inRange, fun hrange => ⟨fun _ => run_validating_of_unconditional,
    run_validating_of_not_inRange hrange⟩, unconditional_iff_not_consistent, fun hslots => ?_, ?_⟩
  · obtain ⟨error, hkind, hrefused, hoverflow⟩ :=
      Blueprint.ofDescriptor?_of_overflow context.options descriptor sourceLength hslots
    exact ⟨error, hkind, run_materialize_of_error (hrefused _),
      run_materialize_of_error (hrefused _), hoverflow⟩
  · intro hconfigured script after deeds hcompiled later halive
    have hheap := hconfigured.heap_reachable
    have hlater : Request.nextAll (Deed.requestsAll deeds after.heap) after.heap = later :=
      Deed.nextAll_requestsAll deeds after.heap
    have halong : Heap.AliveAlong script.id (Deed.requestsAll deeds after.heap) after.heap :=
      halive.elim id fun hlive => hcompiled.aliveAlong hheap (hlater ▸ hlive.1) (hlater ▸ hlive.2)
    rw [← hlater]
    exact ⟨hcompiled.inBounds_nextAll hheap rfl halong,
      fun hkept => hcompiled.scope_nextAll hconfigured hkept halong⟩

/-- The context of a configuration that only asks for validation. -/
def cautious : Context :=
  ((ofConfig? { link := { validateStencils := true } }).toOption.get
    (rfl : (ofConfig? { link := { validateStencils := true } }).toOption.isSome = true)).1

/-- A descriptor of one byte of code and a stack of two slots. -/
def oneByte (offset fixed : UInt32) : Descriptor :=
  { revision := .metadata
    bytecode := [153]
    metadata :=
      { mainOffset := offset, layout := { maxFixedSlots := fixed, maximumStackDepth := 2 } } }

/-- The first script is rooted, another is built, and the heap collects. -/
def aftermath : List Deed :=
  [.ask (.perform (.addRoot (.script ⟨⟨1, 0⟩⟩))), .materialize cautious (oneByte 0 7) 3,
    .ask (.perform .collect)]

/-- An offset at the end of the code is taken and one past it refused, unless the slots
overflow, which is found first. The script that was built outlasts a collection. -/
theorem validation_filters_oneByte :
    (materialize (oneByte 1 7) 3).run (cautious.validating true) =
      { (materialize (oneByte 1 7) 3).run (cautious.validating false) with
        state := ((materialize (oneByte 1 7) 3).run
          (cautious.validating false)).state.validating true } ∧
    (materialize (oneByte 2 7) 3).run (cautious.validating true) =
      ⟨.error (.inconsistent (.mainOffsetPastEnd 2 1)), cautious.validating true, []⟩ ∧
    ((materialize (oneByte 2 7) 3).run (cautious.validating false)).result = .ok ⟨⟨1, 0⟩⟩ ∧
    (∀ on, (materialize (oneByte 2 4294967295) 3).run (cautious.validating on) =
      ⟨.error (.inconsistent (.slotOverflow 4294967295 2)), cautious.validating on, []⟩) ∧
    ∃ after : Context, cautious.Compiles ⟨⟨1, 0⟩⟩ after ∧
      (Deed.nextAll aftermath after.heap).stats.gcRuns = 1 ∧
      (∃ content, (Deed.nextAll aftermath after.heap).script ⟨⟨1, 0⟩⟩ = .ok content ∧
        content.isSealed = true ∧ content.InBounds cautious.globalScope) ∧
      (Deed.nextAll aftermath after.heap).scope cautious.globalScope =
        .ok { kind := .global, enclosing := none } := by
  have hreachable : cautious.Reachable := reachable_of_isSome rfl
  have hmade : ((materialize (oneByte 1 7) 3).ending cautious).1 = .ok ⟨⟨1, 0⟩⟩ := by
    decide +kernel
  have hcompiled : cautious.Compiles ⟨⟨1, 0⟩⟩ ((materialize (oneByte 1 7) 3).ending cautious).2 :=
    .materialize (oneByte 1 7) 3 (Prod.ext hmade rfl)
  have hlate : ((materialize (oneByte 2 7) 3).run (cautious.validating false)).result =
      .ok ⟨⟨1, 0⟩⟩ := by
    decide +kernel
  obtain ⟨hinRange, _, _, _, hlater⟩ := validation_filters cautious (oneByte 1 7) 3
  obtain ⟨_, houtOfRange, _, _, _⟩ := validation_filters cautious (oneByte 2 7) 3
  obtain ⟨_, hrefused, _, hoverflow, _⟩ := validation_filters cautious (oneByte 2 4294967295) 3
  obtain ⟨error, hkind, hchecked, htrusted, herror⟩ := hoverflow (by decide +kernel)
  obtain rfl := herror (by decide) (by decide) (by decide)
  have hlast := hlater hreachable.configured ⟨⟨1, 0⟩⟩ _ aftermath hcompiled
    (Or.inl (by decide +kernel))
  refine ⟨hinRange ⟨by decide, by decide⟩, ?_, hlate, fun on => ?_, _, hcompiled,
    by decide +kernel, hlast.1, hlast.2 (Or.inl hreachable)⟩
  · refine (houtOfRange fun h => absurd h.1 (by decide)).2 fun error hfailed => ?_
    rw [hlate] at hfailed
    cases hfailed
  · cases on with
    | false => exact htrusted
    | true =>
        have hresult := congrArg Outcome.result htrusted
        exact (hrefused fun h => absurd h.1 (by decide)).1 _ hkind hresult

end Context

end ScriptLinker
