import ScriptLinker.Config.Read
import ScriptLinker.Proofs.Charges
import ScriptLinker.Proofs.Leases
/-!
# Setting up

The settings of a heap are checked where a configuration is read, where limits are
validated and where a context is set up. All three refuse the same settings, those with
a threshold past the hard limit, and a heap that takes limits unchecked lowers the
threshold first. What passes the check can still be too small: a context needs room for
its global scope, and for nothing else.
-/

namespace ScriptLinker

namespace HeapLimits

/-- Limits are refused for the two sizes that contradict each other. -/
theorem validate_eq_error_iff (limits : HeapLimits) (error : HeapError) :
    limits.validate = .error error ↔ limits.maxBytes < limits.gcThreshold ∧
      .invalidLimits limits.gcThreshold limits.maxBytes = error := by
  unfold validate
  by_cases h : limits.gcThreshold > limits.maxBytes <;> simp [h]

/-- A threshold that was lowered is not lowered again. -/
@[simp] theorem clamp_clamp (limits : HeapLimits) : limits.clamp.clamp = limits.clamp := by
  simp [clamp]

theorem clamp_of_le {limits : HeapLimits} (h : limits.gcThreshold ≤ limits.maxBytes) :
    limits.clamp = limits := by
  rw [clamp, Nat.min_eq_left h]

end HeapLimits

/-- The settings that limits stand for once the threshold is lowered to the hard limit. -/
def HeapSettings.lowered (limits : HeapLimits) (zeal : Bool) : HeapSettings where
  gcThreshold := min limits.gcThreshold limits.maxBytes
  maxBytes := limits.maxBytes
  gcZeal := zeal

namespace EngineConfig

theorem validate_eq_error_iff (config : EngineConfig) (error : ConfigError) :
    config.validate = .error error ↔ config.heap.maxBytes < config.heap.gcThreshold ∧
      .invalidHeapLimits config.heap.gcThreshold config.heap.maxBytes = error := by
  unfold validate
  by_cases h : config.heap.gcThreshold > config.heap.maxBytes <;> simp [h]

end EngineConfig

namespace Heap

variable {heap : Heap} {bytes : Nat}

/-- Settings are refused with their limits, and add their zeal to an empty heap. -/
theorem ofSettings?_eq (settings : HeapSettings) :
    ofSettings? settings =
      if settings.gcThreshold ≤ settings.maxBytes then
        .ok ((ofLimits (.ofSettings settings)).setZeal settings.gcZeal)
      else .error (.invalidLimits settings.gcThreshold settings.maxBytes) := by
  unfold ofSettings?
  by_cases h : settings.gcThreshold ≤ settings.maxBytes
  · rw [if_pos h, (HeapLimits.validate_eq_ok_iff (.ofSettings settings)).2 h]
    rfl
  · have hrefused := (HeapLimits.validate_eq_error_iff (.ofSettings settings) _).2
      ⟨Nat.lt_of_not_le h, rfl⟩
    rw [if_neg h, hrefused]
    rfl

theorem limits_of_ofSettings? {settings : HeapSettings} (h : ofSettings? settings = .ok heap) :
    heap.limits = .ofSettings settings := by
  rw [ofSettings?_eq] at h
  split at h
  · rename_i hvalid
    rw [← Except.ok.inj h]
    exact HeapLimits.clamp_of_le hvalid
  · cases h

/-- Limits that are taken unchecked make the heap of the lowered ones. -/
theorem ofSettings?_lowered (limits : HeapLimits) (zeal : Bool) :
    ofSettings? (.lowered limits zeal) = .ok ((ofLimits limits).setZeal zeal) := by
  have hclamp : ofLimits limits.clamp = ofLimits limits := by
    rw [ofLimits, HeapLimits.clamp_clamp, ofLimits]
  have hle : (HeapSettings.lowered limits zeal).gcThreshold ≤
      (HeapSettings.lowered limits zeal).maxBytes := Nat.min_le_right _ _
  rw [ofSettings?_eq, if_pos hle, ← hclamp]
  rfl

/-- A heap on which no cell was ever placed, with no failure armed. -/
structure Unused (heap : Heap) : Prop where
  slots : heap.slots = #[]
  freeSlots : heap.freeSlots = []
  usedBytes : heap.usedBytes = 0
  failureCountdown : heap.failureCountdown = none

theorem Initial.unused (h : heap.Initial) : heap.Unused := by
  cases h with
  | ofLimits limits => exact ⟨rfl, rfl, rfl, rfl⟩
  | ofSettings hsettings =>
      rw [eq_of_ofSettings? hsettings]
      exact ⟨rfl, rfl, rfl, rfl⟩

/-- The heap with its first cell. -/
def withFirst (heap : Heap) (cell : Cell) (bytes : Nat) : Heap :=
  { (heap.readied bytes).grown with slots := #[⟨some cell, 0, bytes⟩], usedBytes := bytes }

namespace Unused

theorem passed (h : heap.Unused) : heap.passed.Unused where
  slots := h.slots
  freeSlots := h.freeSlots
  usedBytes := h.usedBytes
  failureCountdown := by
    unfold Heap.passed
    rw [h.failureCountdown]
    rfl

theorem collected (h : heap.Unused) : heap.collected.Unused where
  slots := by
    apply Array.eq_empty_of_size_eq_zero
    rw [size_slots_collected, h.slots, Array.size_empty]
  freeSlots := by
    have hgarbage : heap.garbage heap.mark = [] := by simp [garbage, h.slots]
    rw [freeSlots_collected, hgarbage, h.freeSlots]
    rfl
  usedBytes := by rw [usedBytes_collected, h.usedBytes, Nat.zero_sub]
  failureCountdown := h.failureCountdown

/-- Making room on it changes nothing of this, with a collection or without. -/
theorem readied (h : heap.Unused) (bytes : Nat) : (heap.readied bytes).Unused := by
  unfold Heap.readied
  split
  · exact h.passed.collected
  · exact h.passed

theorem satAdd_usedBytes (h : heap.Unused) (hbytes : bytes ≤ maxSize) :
    satAdd heap.usedBytes bytes = bytes := by
  rw [h.usedBytes, satAdd_eq_add (by omega), Nat.zero_add]

/-- The first cell is placed if its bytes fit under the hard limit, whatever the threshold
and the zeal. -/
theorem ending_allocate (h : heap.Unused) (cell : Cell) (hbytes : bytes ≤ maxSize) :
    (allocate cell bytes).ending heap =
      if bytes ≤ heap.limits.maxBytes then
        (.ok ⟨0, 0⟩, heap.withFirst cell bytes)
      else
        (.error .outOfMemory, heap.readied bytes) := by
  have hready := h.readied bytes
  have hroom : (heap.readied bytes).HasRoom bytes ↔ bytes ≤ heap.limits.maxBytes := by
    rw [HasRoom, hready.satAdd_usedBytes hbytes, (keeps_readied bytes heap).limits]
  rw [Heap.ending_allocate, ending_reserve, if_neg (by simp [h.failureCountdown])]
  by_cases hfits : bytes ≤ heap.limits.maxBytes
  · rw [if_pos (hroom.2 hfits), if_pos hfits]
    dsimp only
    have hvacancy : (heap.readied bytes).vacancy? = some (0, (heap.readied bytes).grown) := by
      simp [vacancy?, hready.freeSlots, hready.slots, maxSlots]
    have hused : satAdd (heap.readied bytes).grown.usedBytes bytes = bytes :=
      hready.satAdd_usedBytes hbytes
    rw [ending_place, hvacancy]
    simp [addressOf, fill, modifySlot, withFirst, hready.slots, hused]
  · rw [if_neg (mt hroom.1 hfits), if_neg hfits]

end Unused

/-- The free list of the root slots is exact on every reachable heap. -/
theorem Reachable.rootsSound (h : heap.Reachable) : heap.RootsSound := by
  induction h with
  | initial hinitial => exact hinitial.rootsSound
  | @request heap request hreachable ih =>
      cases hreroots : request.reroots with
      | false =>
          obtain ⟨hroots, hfree⟩ := request.roots_eq hreachable.sound hreroots
          exact ih.congr hroots hfree
      | true =>
          unfold Request.reroots at hreroots
          split at hreroots
          · exact ih.addRoot _
          · exact ih.removeRoot _
          · cases hreroots

end Heap

namespace Context

/-- The cell of a global scope without bindings. -/
def emptyGlobal : Cell :=
  .scope { kind := .global, enclosing := none }

/-- Setting a heap up fails where its first cell cannot be placed. -/
theorem ending_prepareHeap (empty : Heap) :
    prepareHeap.ending empty =
      match (Heap.allocate emptyGlobal Charge.scope).ending empty with
      | (.ok id, heap) =>
        (.ok (⟨id⟩, (heap.addRoot (.scope ⟨id⟩)).1), (heap.addRoot (.scope ⟨id⟩)).2)
      | (.error error, heap) => (.error error, heap) := by
  unfold prepareHeap Heap.allocScope emptyGlobal
  rw [Action.ending_bind, Action.ending_bind]
  cases (Heap.allocate (.scope { kind := .global, enclosing := none }) Charge.scope).ending
      empty with
  | mk result heap => cases result <;> rfl

/-- An empty heap is set up if the scope fits under the hard limit. -/
theorem ending_prepareHeap_unused {empty : Heap} (h : empty.Unused) :
    prepareHeap.ending empty =
      if Charge.scope ≤ empty.limits.maxBytes then
        let first := empty.withFirst emptyGlobal Charge.scope
        (.ok (⟨⟨0, 0⟩⟩, (first.addRoot (.scope ⟨⟨0, 0⟩⟩)).1), (first.addRoot (.scope ⟨⟨0, 0⟩⟩)).2)
      else
        (.error .outOfMemory, empty.readied Charge.scope) := by
  rw [ending_prepareHeap, h.ending_allocate emptyGlobal (by decide)]
  by_cases hfits : Charge.scope ≤ empty.limits.maxBytes
  · rw [if_pos hfits, if_pos hfits]
  · rw [if_neg hfits, if_neg hfits]

/-- How setting a context up ends, by the two sizes alone. -/
theorem ofConfig?_cases (config : EngineConfig) :
    (config.heap.maxBytes < config.heap.gcThreshold ∧ ofConfig? config =
        .error (.invalidLimits config.heap.gcThreshold config.heap.maxBytes)) ∨
      (config.heap.gcThreshold ≤ config.heap.maxBytes ∧
        config.heap.maxBytes < Charge.scope ∧ ofConfig? config = .error .outOfMemory) ∨
      config.heap.gcThreshold ≤ config.heap.maxBytes ∧ Charge.scope ≤ config.heap.maxBytes ∧
        ∃ made, ofConfig? config = .ok made := by
  have hempty := Heap.ofSettings?_eq config.heap
  unfold ofConfig?
  by_cases hvalid : config.heap.gcThreshold ≤ config.heap.maxBytes
  · rw [if_pos hvalid] at hempty
    have hprepare := ending_prepareHeap_unused (Heap.Initial.ofSettings hempty).unused
    have hlimit : ((Heap.ofLimits (.ofSettings config.heap)).setZeal
        config.heap.gcZeal).limits.maxBytes = config.heap.maxBytes := rfl
    rw [hlimit] at hprepare
    rw [hempty]
    right
    by_cases hfits : Charge.scope ≤ config.heap.maxBytes
    · rw [if_pos hfits] at hprepare
      have hresult : (prepareHeap.run _).result = _ := congrArg Prod.fst hprepare
      refine Or.inr ⟨hvalid, hfits, ?_⟩
      simp only [bind, Except.bind, hresult]
      exact ⟨_, rfl⟩
    · rw [if_neg hfits] at hprepare
      have hresult : (prepareHeap.run _).result = _ := congrArg Prod.fst hprepare
      refine Or.inl ⟨hvalid, Nat.lt_of_not_le hfits, ?_⟩
      simp only [bind, Except.bind, hresult]
  · rw [if_neg hvalid] at hempty
    rw [hempty]
    exact Or.inl ⟨Nat.lt_of_not_le hvalid, rfl⟩

/-- What a configuration leads to: a context where all that holds of reachable heaps does,
whose heap holds the empty global scope, rooted, and nothing else. -/
structure SetUp (config : EngineConfig) (context : Context) : Prop where
  reachable : context.heap.Reachable
  sound : context.heap.Sound
  sharing : context.heap.SharingSound
  charges : context.heap.ChargesSound
  roots : context.heap.RootsSound
  limits : context.heap.limits = .ofSettings config.heap
  gcThreshold_le : config.heap.gcThreshold ≤ context.heap.nextThreshold
  nextThreshold_le : context.heap.nextThreshold ≤ config.heap.maxBytes
  slots : context.heap.slots = #[⟨some emptyGlobal, 0, Charge.scope⟩]
  /-- Also at the largest limit, where the ledger of a heap need not stay exact. -/
  usedBytes_eq : context.heap.usedBytes = context.heap.totalBytes
  usedBytes_le : context.heap.usedBytes ≤ config.heap.maxBytes
  root_eq : context.heap.root? context.globalRoot = some (.scope context.globalScope)
  cell_eq : context.heap.cell? context.globalScope.id = some emptyGlobal
  reached : context.heap.Reaches context.globalScope.id

/-- The heap of a new context, but for its root. -/
theorem rerooted_of_ofConfig? {config : EngineConfig} {context : Context} {events : List Event}
    (h : ofConfig? config = .ok (context, events)) :
    ∃ empty : Heap, empty.limits = .ofSettings config.heap ∧
      (empty.withFirst emptyGlobal Charge.scope).Rerooted context.heap := by
  obtain ⟨empty, hempty, hending⟩ := prepareHeap_of_ofConfig? h
  refine ⟨empty, Heap.limits_of_ofSettings? hempty, ?_⟩
  rw [ending_prepareHeap_unused (Heap.Initial.ofSettings hempty).unused] at hending
  split at hending
  · rw [← (Prod.mk.inj hending).2]
    exact Heap.rerooted_addRoot _ _
  · cases (Prod.mk.inj hending).1

/-- Every invariant of reachable heaps holds of a new context, and its one slot is read off. -/
theorem setUp_of_ofConfig? {config : EngineConfig} {context : Context} {events : List Event}
    (h : ofConfig? config = .ok (context, events)) : SetUp config context := by
  have hreachable := (Reachable.start h).heap_reachable
  obtain ⟨hsound, hanchors⟩ := (Reachable.start h).sound
  obtain ⟨empty, hlimits, roots, free, hheap⟩ := rerooted_of_ofConfig? h
  have hslots : context.heap.slots = #[⟨some emptyGlobal, 0, Charge.scope⟩] := by rw [hheap]; rfl
  have hused : context.heap.usedBytes = Charge.scope := by rw [hheap]; rfl
  have hsame : context.heap.limits = .ofSettings config.heap := by
    rw [hheap]
    exact (Heap.keeps_readied _ empty).limits.trans hlimits
  have hthreshold := hsound.ledger.gcThreshold_le
  have hnext := hsound.ledger.nextThreshold_le
  have hle := hsound.ledger.usedBytes_le
  rw [hsame] at hthreshold hnext hle
  exact
    { reachable := hreachable
      sound := hsound
      sharing := hreachable.sharingSound
      charges := hreachable.chargesSound
      roots := hreachable.rootsSound
      limits := hsame
      gcThreshold_le := hthreshold
      nextThreshold_le := hnext
      slots := hslots
      usedBytes_eq := by
        rw [hused, Heap.totalBytes, hslots]
        simp [Heap.bytesAt, hslots]
      usedBytes_le := hle
      root_eq := hanchors.root_eq
      cell_eq := hanchors.cell_eq
      reached := hanchors.reaches }

/-- A context refuses the sizes that contradict each other. -/
theorem ofConfig?_eq_invalidLimits_iff (config : EngineConfig) (threshold limit : Nat) :
    ofConfig? config = .error (.invalidLimits threshold limit) ↔
      config.heap.maxBytes < config.heap.gcThreshold ∧
        config.heap.gcThreshold = threshold ∧ config.heap.maxBytes = limit := by
  rcases ofConfig?_cases config with ⟨hlt, hrefused⟩ | ⟨hle, _, hfull⟩ | ⟨hle, _, made, hmade⟩
  · simp [hrefused, hlt]
  · simp [hfull, hle]
  · simp [hmade, hle]

/-- No context refuses the limits of a configuration that is valid. -/
theorem validate_eq_ok_iff_not_refused (config : EngineConfig) :
    config.validate = .ok () ↔
      ∀ threshold limit, ofConfig? config ≠ .error (.invalidLimits threshold limit) := by
  rw [config.validate_eq_ok_iff]
  simp only [ne_eq, ofConfig?_eq_invalidLimits_iff]
  constructor
  · exact fun hle _ _ hrefused => absurd hrefused.1 (Nat.not_lt.2 hle)
  · exact fun hnone => Nat.le_of_not_lt fun hlt => hnone _ _ ⟨hlt, rfl, rfl⟩

/-- Which configurations, documents and limits are refused, and what becomes of the others.

The three checks refuse the same settings, and name the same sizes. Settings that pass need
room for the global scope, whatever the threshold and the zeal. A document or a file is
accepted if it can be read and no check refuses what it says. Limits that are taken
unchecked make the very heap that the lowered ones make, so no later operation tells the two
apart. -/
theorem setup_exact :
    (∀ config : EngineConfig,
      let limits := HeapLimits.ofSettings config.heap
      (config.validate = .ok () ↔ limits.validate = .ok ()) ∧
      (limits.validate = .ok () ↔
        ∀ threshold limit, ofConfig? config ≠ .error (.invalidLimits threshold limit)) ∧
      (∀ threshold limit,
        (config.validate = .error (.invalidHeapLimits threshold limit) ↔
          limits.validate = .error (.invalidLimits threshold limit)) ∧
        (limits.validate = .error (.invalidLimits threshold limit) ↔
          ofConfig? config = .error (.invalidLimits threshold limit))) ∧
      (limits.validate = .ok () →
        ((∃ made, ofConfig? config = .ok made) ↔ Charge.scope ≤ config.heap.maxBytes) ∧
        (ofConfig? config = .error .outOfMemory ↔ config.heap.maxBytes < Charge.scope)) ∧
      ∀ context events, ofConfig? config = .ok (context, events) → SetUp config context) ∧
    (∀ (reader : String → Option EngineConfig) (config : EngineConfig),
      (∀ text, EngineConfig.readWith reader text = .ok config ↔ reader text = some config ∧
        ∀ threshold limit, ofConfig? config ≠ .error (.invalidLimits threshold limit)) ∧
      ∀ path found, EngineConfig.loadWith reader path found = .ok config ↔
        ∃ text, found.text = .ok text ∧ reader text = some config ∧
          ∀ threshold limit, ofConfig? config ≠ .error (.invalidLimits threshold limit)) ∧
    ∀ limits : HeapLimits,
      Heap.ofSettings? (.lowered limits false) = .ok (Heap.ofLimits limits) ∧
      ∀ zeal, Heap.ofSettings? (.lowered limits zeal) =
        .ok ((Heap.ofLimits limits).setZeal zeal) := by
  have hlimits : ∀ config : EngineConfig,
      config.validate = .ok () ↔ (HeapLimits.ofSettings config.heap).validate = .ok () :=
    fun config => config.validate_eq_ok_iff.trans
      (HeapLimits.validate_eq_ok_iff (.ofSettings config.heap)).symm
  refine ⟨fun config => ⟨hlimits config,
      (hlimits config).symm.trans (validate_eq_ok_iff_not_refused config), ?_, ?_,
      fun context events => setUp_of_ofConfig?⟩,
    fun reader config => ⟨fun text => ?_, fun path found => ?_⟩,
    fun limits => ⟨Heap.ofSettings?_lowered limits false, Heap.ofSettings?_lowered limits⟩⟩
  · intro threshold limit
    rw [config.validate_eq_error_iff, HeapLimits.validate_eq_error_iff,
      ofConfig?_eq_invalidLimits_iff, ConfigError.invalidHeapLimits.injEq,
      HeapError.invalidLimits.injEq]
    exact ⟨Iff.rfl, Iff.rfl⟩
  · intro hpasses
    have hle := (HeapLimits.validate_eq_ok_iff _).1 hpasses
    rcases ofConfig?_cases config with ⟨hlt, _⟩ | ⟨_, hsmall, hfull⟩ | ⟨_, hroom, made, hmade⟩
    · exact absurd hlt (Nat.not_lt.2 hle)
    · simp [hfull, hsmall]
    · simp [hmade, hroom]
  · rw [EngineConfig.readWith_eq_ok_iff, validate_eq_ok_iff_not_refused]
  · simp only [EngineConfig.loadWith_eq_ok_iff, EngineConfig.readWith_eq_ok_iff,
      validate_eq_ok_iff_not_refused]

/-- A configuration with zeal and nothing else but its two sizes. -/
def zealous (gcThreshold maxBytes : Nat) : EngineConfig where
  heap := { gcThreshold, maxBytes, gcZeal := true }

/-- A limit of twenty bytes is enough for a context and one of nineteen is not, which shows
only if the threshold is no larger. -/
theorem setup_exact_twentyBytes :
    (∃ context events, ofConfig? (zealous 20 20) = .ok (context, events) ∧
      SetUp (zealous 20 20) context) ∧
    ofConfig? (zealous 19 19) = .error .outOfMemory ∧
    ofConfig? (zealous 20 19) = .error (.invalidLimits 20 19) ∧
    EngineConfig.readWith (fun _ => some (zealous 19 19)) "" = .ok (zealous 19 19) ∧
    EngineConfig.readWith (fun _ => some (zealous 20 19)) "" ≠ .ok (zealous 20 19) ∧
    Heap.ofSettings? (.lowered ⟨20, 19⟩ false) = .ok (Heap.ofLimits ⟨20, 19⟩) := by
  obtain ⟨hconfigs, hdocuments, hheaps⟩ := setup_exact
  obtain ⟨_, _, _, hroom, hmade⟩ := hconfigs (zealous 20 20)
  obtain ⟨_, hpasses, _, hfull, _⟩ := hconfigs (zealous 19 19)
  obtain ⟨_, _, hrefused, _⟩ := hconfigs (zealous 20 19)
  obtain ⟨⟨context, events⟩, hcontext⟩ := (hroom rfl).1.2 (by decide)
  have hthreshold : ofConfig? (zealous 20 19) = .error (.invalidLimits 20 19) :=
    (hrefused 20 19).2.1 rfl
  refine ⟨⟨context, events, hcontext, hmade context events hcontext⟩,
    (hfull rfl).2.2 (by decide), hthreshold, ?_, fun haccepted => ?_, (hheaps ⟨20, 19⟩).1⟩
  · exact ((hdocuments _ _).1 "").2 ⟨rfl, hpasses.1 rfl⟩
  · exact (((hdocuments _ _).1 "").1 haccepted).2 20 19 hthreshold

end Context

end ScriptLinker
