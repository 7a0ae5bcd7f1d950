import ScriptLinker.Proofs.Client
import ScriptLinker.Proofs.Rooting
/-!
# Handles of persistent roots

A root slot that is given back is issued again, so a handle says whose it is only by
the order of the calls. A `Lease` is one handle from when it was issued: what it was
issued for, and whether it was given back. A client that gives a handle back again does
so before another one is issued; under this rule the free list lists every vacant slot
once, outstanding handles are different, and what they hold stays alive.
-/

namespace ScriptLinker

namespace Heap

variable {given : Set CellRef} {heap after : Heap}

/-- The free list lists the vacant root slots, each of them once. -/
structure RootsSound (heap : Heap) : Prop where
  free_nodup : heap.freeRoots.Nodup
  mem_free_iff : ∀ index, index ∈ heap.freeRoots ↔ heap.persistentRoots[index]? = some none

namespace RootsSound

theorem congr (h : heap.RootsSound) (hroots : after.persistentRoots = heap.persistentRoots)
    (hfree : after.freeRoots = heap.freeRoots) : after.RootsSound where
  free_nodup := hfree ▸ h.free_nodup
  mem_free_iff := fun index => by rw [hroots, hfree, h.mem_free_iff]

/-- A root that is issued was vacant. -/
theorem root?_issued (h : heap.RootsSound) (ref : CellRef) :
    heap.root? (heap.addRoot ref).1 = none := by
  unfold addRoot
  cases hfree : heap.freeRoots with
  | nil => simp [root?]
  | cons index rest =>
      have hvacant := (h.mem_free_iff index).1 (hfree ▸ List.mem_cons_self)
      simp [root?, hvacant]

/-- It holds what it was issued for, and the other roots hold what they held. -/
theorem root?_addRoot (h : heap.RootsSound) (ref : CellRef) (root : RootId) :
    (heap.addRoot ref).2.root? root =
      if root = (heap.addRoot ref).1 then some ref else heap.root? root := by
  obtain ⟨place⟩ := root
  unfold addRoot
  cases hfree : heap.freeRoots with
  | nil =>
      simp only [root?, RootId.mk.injEq, Array.getElem?_push]
      split <;> rfl
  | cons index rest =>
      have hvacant := (h.mem_free_iff index).1 (hfree ▸ List.mem_cons_self)
      obtain ⟨hsize, _⟩ := Array.getElem?_eq_some_iff.1 hvacant
      simp only [root?, RootId.mk.injEq, Array.getElem?_setIfInBounds, eq_comm (a := place)]
      split <;> rfl

theorem addRoot (h : heap.RootsSound) (ref : CellRef) : (heap.addRoot ref).2.RootsSound := by
  unfold Heap.addRoot
  cases hfree : heap.freeRoots with
  | nil =>
      refine ⟨List.nodup_nil, fun index => ?_⟩
      have hvacant := h.mem_free_iff index
      rw [hfree] at hvacant
      dsimp only
      rw [hvacant, Array.getElem?_push]
      split
      · rename_i heq
        simp [heq]
      · rfl
  | cons index rest =>
      have hnodup := h.free_nodup
      rw [hfree, List.nodup_cons] at hnodup
      refine ⟨hnodup.2, fun other => ?_⟩
      have hvacant := h.mem_free_iff other
      rw [hfree, List.mem_cons] at hvacant
      dsimp only
      rw [Array.getElem?_setIfInBounds]
      split
      · rename_i heq
        subst heq
        split <;> simp [hnodup.1]
      · rename_i hne
        rw [← hvacant]
        exact ⟨Or.inr, fun hmem => hmem.resolve_left (Ne.symm hne)⟩

theorem removeRoot (h : heap.RootsSound) (root : RootId) : (heap.removeRoot root).RootsSound := by
  unfold Heap.removeRoot
  cases hroot : heap.root? root with
  | none => exact h
  | some ref =>
      have hslot : heap.persistentRoots[root.index]? = some (some ref) := by
        simpa [root?, Option.join_eq_some_iff] using hroot
      obtain ⟨hsize, _⟩ := Array.getElem?_eq_some_iff.1 hslot
      refine ⟨List.nodup_cons.2 ⟨fun hmem => ?_, h.free_nodup⟩, fun index => ?_⟩
      · have hvacant := (h.mem_free_iff root.index).1 hmem
        simp [hslot] at hvacant
      · dsimp only
        rw [List.mem_cons, h.mem_free_iff, Array.getElem?_setIfInBounds]
        split
        · rename_i heq
          simp [heq ▸ hsize, heq]
        · rename_i hne
          exact or_iff_right (Ne.symm hne)

end RootsSound

theorem Initial.rootsSound (h : heap.Initial) : heap.RootsSound := by
  cases h with
  | ofLimits limits => exact ⟨List.nodup_nil, by simp [Heap.ofLimits]⟩
  | ofSettings hsettings =>
      rw [eq_of_ofSettings? hsettings]
      exact ⟨List.nodup_nil, by simp [Heap.ofLimits]⟩

theorem Passage.roots_eq (h : Passage given heap after) :
    after.persistentRoots = heap.persistentRoots ∧ after.freeRoots = heap.freeRoots :=
  h.keep (p := fun next =>
      next.persistentRoots = heap.persistentRoots ∧ next.freeRoots = heap.freeRoots)
    (fun hsame hmove => ⟨hmove.frame.persistentRoots.trans hsame.1,
      hmove.frame.freeRoots.trans hsame.2⟩)
    id ⟨rfl, rfl⟩

end Heap

namespace Request

/-- Whether a request issues a handle of a persistent root or takes one back. -/
def reroots : Request → Bool
  | perform (.addRoot _) | perform (.removeRoot _) => true
  | _ => false

/-- Other requests leave the persistent roots alone. -/
theorem roots_eq {heap : Heap} (h : heap.Sound) {request : Request}
    (hother : request.reroots = false) :
    (request.next heap).persistentRoots = heap.persistentRoots ∧
      (request.next heap).freeRoots = heap.freeRoots := by
  have heffect := request.effect h
  generalize request.next heap = after at heffect ⊢
  generalize request.born? heap = born at heffect
  cases heffect with
  | passage hpassage => exact hpassage.roots_eq
  | birth hpassage hbirth _ =>
      obtain ⟨_, placed, hplaced, hafter⟩ := hbirth.placed (h.passage hpassage).slots
      obtain ⟨hroots, hfree⟩ := hpassage.roots_eq
      rw [hafter]
      exact ⟨hplaced.persistentRoots.trans hroots, hplaced.freeRoots.trans hfree⟩
  | addRoot heq => simp [heq, reroots] at hother
  | removeRoot heq => simp [heq, reroots] at hother

end Request

/-- How far a handle has come: it is outstanding, it was given back, or it was given back
and another handle was issued since, which may be the same. -/
inductive Lease.Stage where
  | held
  | returned
  | lapsed
  deriving DecidableEq

/-- A handle of a persistent root as it was issued: the reference that it was issued for,
and the cell that this named then. -/
structure Lease where
  root : RootId
  ref : CellRef
  cell? : Option Cell
  stage : Lease.Stage := .held

namespace Lease

/-- The lease of the root that is added next. -/
def ofAdd (heap : Heap) (ref : CellRef) : Lease where
  root := (heap.addRoot ref).1
  ref := ref
  cell? := heap.cell? ref.id

def giveBack (lease : Lease) : Lease := { lease with stage := .returned }

/-- What issuing another handle makes of a lease. -/
def lapse (lease : Lease) : Lease :=
  match lease.stage with
  | .returned => { lease with stage := .lapsed }
  | _ => lease

theorem stage_lapse_ne (lease : Lease) : lease.lapse.stage ≠ .returned := by
  unfold lapse
  split
  · simp
  · assumption

theorem lapse_of_held {lease : Lease} (h : lease.lapse.stage = .held) : lease.lapse = lease := by
  unfold lapse at h ⊢
  split
  · rename_i hreturned
    simp [hreturned] at h
  · rfl

end Lease

namespace Heap

/-- The heaps that a client leads to from an empty one, with its leases in the order in
which it was issued them. It gives back what it was issued, and gives a handle back again
only while no other has been issued since; all else it asks as it likes. -/
inductive Leased : Heap → List Lease → Prop where
  | start {heap : Heap} : heap.Initial → Leased heap []
  | add {heap : Heap} {leases : List Lease} (ref : CellRef) : Leased heap leases →
      Leased (heap.addRoot ref).2 (leases.map Lease.lapse ++ [.ofAdd heap ref])
  | remove {heap : Heap} {leases : List Lease} {lease : Lease} (number : Nat) :
      Leased heap leases → leases[number]? = some lease → lease.stage ≠ .lapsed →
      Leased (heap.removeRoot lease.root) (leases.modify number Lease.giveBack)
  | ask {heap : Heap} {leases : List Lease} (request : Request) : Leased heap leases →
      request.reroots = false → Leased (request.next heap) leases

variable {heap : Heap} {leases : List Lease}

/-- Of the leases before another handle is issued, those that are held afterwards are the
ones that were, and the new one. -/
theorem held_add {ref : CellRef} {place : Nat} {lease : Lease}
    (h : (leases.map Lease.lapse ++ [.ofAdd heap ref])[place]? = some lease)
    (hheld : lease.stage = .held) :
    leases[place]? = some lease ∨ place = leases.length ∧ lease = .ofAdd heap ref := by
  rw [List.getElem?_append, List.length_map] at h
  split at h
  · obtain ⟨old, hold, rfl⟩ := Option.map_eq_some_iff.1 (List.getElem?_map ▸ h)
    exact Or.inl (hold.trans (congrArg some (Lease.lapse_of_held hheld).symm))
  · rename_i hge
    rw [List.getElem?_singleton] at h
    split at h
    · exact Or.inr ⟨by omega, (Option.some.inj h).symm⟩
    · simp at h

/-- Giving a handle back makes no other lease a held one. -/
theorem held_remove {number place : Nat} {lease : Lease}
    (h : (leases.modify number Lease.giveBack)[place]? = some lease)
    (hheld : lease.stage = .held) : place ≠ number ∧ leases[place]? = some lease := by
  rw [List.getElem?_modify] at h
  split at h
  · obtain ⟨old, _, rfl⟩ := Option.map_eq_some_iff.1 h
    simp [Lease.giveBack] at hheld
  · rename_i hne
    exact ⟨Ne.symm hne, by simpa using h⟩

/-- What a client's leases say of the roots of a heap. -/
structure LeasesSound (heap : Heap) (leases : List Lease) : Prop where
  reachable : heap.Reachable
  roots : heap.RootsSound
  held : ∀ lease ∈ leases, lease.stage = .held → heap.root? lease.root = some lease.ref ∧
    ∀ cell, lease.cell? = some cell → CarriesOn cell lease.ref.id heap
  returned : ∀ lease ∈ leases, lease.stage = .returned → heap.root? lease.root = none
  owned : ∀ root ref, heap.root? root = some ref →
    ∃ lease ∈ leases, lease.stage = .held ∧ lease.root = root
  distinct : ∀ (place place' : Nat) (lease lease' : Lease), leases[place]? = some lease →
    leases[place']? = some lease' → lease.stage = .held → lease'.stage = .held →
    lease.root = lease'.root → place = place'

namespace LeasesSound

theorem start (h : heap.Initial) : heap.LeasesSound [] := by
  have hroot : ∀ root, heap.root? root = none := by
    intro root
    cases h with
    | ofLimits limits => simp [root?, ofLimits]
    | ofSettings hsettings => simp [eq_of_ofSettings? hsettings, root?, ofLimits]
  exact ⟨.initial h, h.rootsSound, by simp, by simp, by simp [hroot], by simp⟩

/-- An outstanding handle holds something, so it is not the one that is issued next. -/
theorem add (h : heap.LeasesSound leases) (ref : CellRef) :
    (heap.addRoot ref).2.LeasesSound (leases.map Lease.lapse ++ [.ofAdd heap ref]) := by
  have hvacant := h.roots.root?_issued ref
  have hroot := h.roots.root?_addRoot ref
  have hrerooted := rerooted_addRoot ref heap
  have hne : ∀ lease ∈ leases, lease.stage = .held → lease.root ≠ (heap.addRoot ref).1 := by
    intro lease hlease hheld heq
    rw [← heq, (h.held lease hlease hheld).1] at hvacant
    simp at hvacant
  refine ⟨h.reachable.request (.perform (.addRoot ref)), h.roots.addRoot ref, ?_, ?_, ?_, ?_⟩
  · intro lease hlease hheld
    obtain ⟨place, hplace⟩ := List.mem_iff_getElem?.1 hlease
    rcases held_add hplace hheld with hold | ⟨_, rfl⟩
    · have hmem := List.mem_of_getElem? hold
      obtain ⟨hholds, hcell⟩ := h.held lease hmem hheld
      rw [hroot, if_neg (hne lease hmem hheld)]
      exact ⟨hholds, fun cell hcell' => (hcell cell hcell').rerooted hrerooted⟩
    · rw [hroot, Lease.ofAdd, if_pos rfl]
      exact ⟨rfl, fun cell hcell => .rerooted ⟨cell, hcell, .refl cell⟩ hrerooted⟩
  · intro lease hlease hreturned
    rcases List.mem_append.1 hlease with hold | hnew
    · obtain ⟨old, _, rfl⟩ := List.mem_map.1 hold
      exact absurd hreturned old.stage_lapse_ne
    · obtain rfl := List.mem_singleton.1 hnew
      simp [Lease.ofAdd] at hreturned
  · intro root held hheld
    rw [hroot] at hheld
    split at hheld
    · rename_i heq
      exact ⟨.ofAdd heap ref, by simp, rfl, heq.symm⟩
    · obtain ⟨lease, hlease, hstage, hleased⟩ := h.owned root held hheld
      have hkept : lease.lapse = lease := by simp [Lease.lapse, hstage]
      exact ⟨lease, List.mem_append_left _ (List.mem_map.2 ⟨lease, hlease, hkept⟩), hstage, hleased⟩
  · intro place place' lease lease' hplace hplace' hheld hheld' heq
    rcases held_add hplace hheld with hold | ⟨rfl, rfl⟩ <;>
      rcases held_add hplace' hheld' with hold' | ⟨rfl, rfl⟩
    · exact h.distinct place place' lease lease' hold hold' hheld hheld' heq
    · exact absurd heq (hne lease (List.mem_of_getElem? hold) hheld)
    · exact absurd heq.symm (hne lease' (List.mem_of_getElem? hold') hheld')
    · rfl

/-- A handle that is given back, for the first time or again, is not an outstanding one of
another lease. -/
theorem root_ne (h : heap.LeasesSound leases) {number place : Nat} {lease other : Lease}
    (hlease : leases[number]? = some lease) (hlapsed : lease.stage ≠ .lapsed)
    (hother : leases[place]? = some other) (hheld : other.stage = .held)
    (hne : place ≠ number) : other.root ≠ lease.root := by
  intro heq
  cases hstage : lease.stage with
  | held => exact hne (h.distinct place number other lease hother hlease hheld hstage heq)
  | returned =>
      have hholds := (h.held other (List.mem_of_getElem? hother) hheld).1
      rw [heq, h.returned lease (List.mem_of_getElem? hlease) hstage] at hholds
      simp at hholds
  | lapsed => exact hlapsed hstage

theorem remove (h : heap.LeasesSound leases) {number : Nat} {lease : Lease}
    (hlease : leases[number]? = some lease) (hlapsed : lease.stage ≠ .lapsed) :
    (heap.removeRoot lease.root).LeasesSound (leases.modify number Lease.giveBack) := by
  have hrerooted := rerooted_removeRoot lease.root heap
  refine ⟨h.reachable.request (.perform (.removeRoot lease.root)), h.roots.removeRoot lease.root,
    ?_, ?_, ?_, ?_⟩
  · intro other hother hheld
    obtain ⟨place, hplace⟩ := List.mem_iff_getElem?.1 hother
    obtain ⟨hne, hold⟩ := held_remove hplace hheld
    obtain ⟨hholds, hcell⟩ := h.held other (List.mem_of_getElem? hold) hheld
    rw [root?_removeRoot_of_ne (h.root_ne hlease hlapsed hold hheld hne)]
    exact ⟨hholds, fun cell hcell' => (hcell cell hcell').rerooted hrerooted⟩
  · intro other hother hreturned
    by_cases heq : other.root = lease.root
    · rw [heq, root?_removeRoot_self]
    · rw [root?_removeRoot_of_ne heq]
      obtain ⟨place, hplace⟩ := List.mem_iff_getElem?.1 hother
      rw [List.getElem?_modify] at hplace
      split at hplace
      · rename_i hnumber
        rw [← hnumber, hlease] at hplace
        obtain rfl := Option.some.inj hplace
        exact absurd rfl heq
      · exact h.returned other (List.mem_of_getElem? (by simpa using hplace)) hreturned
  · intro root ref hheld
    have hne : root ≠ lease.root := by
      rintro rfl
      simp at hheld
    rw [root?_removeRoot_of_ne hne] at hheld
    obtain ⟨other, hother, hstage, rfl⟩ := h.owned root ref hheld
    obtain ⟨place, hplace⟩ := List.mem_iff_getElem?.1 hother
    have hplaces : number ≠ place := by
      rintro rfl
      rw [hlease] at hplace
      exact hne (congrArg Lease.root (Option.some.inj hplace).symm)
    refine ⟨other, List.mem_of_getElem? (i := place) ?_, hstage, rfl⟩
    simp [hplaces, hplace]
  · intro place place' other other' hplace hplace' hheld hheld' heq
    exact h.distinct place place' other other' (held_remove hplace hheld).2
      (held_remove hplace' hheld').2 hheld hheld' heq

/-- What an outstanding handle holds is reached, so no request takes its place. -/
theorem ask (h : heap.LeasesSound leases) {request : Request} (hother : request.reroots = false) :
    (request.next heap).LeasesSound leases := by
  obtain ⟨hroots, hfree⟩ := request.roots_eq h.reachable.sound hother
  have hroot : ∀ root, (request.next heap).root? root = heap.root? root :=
    fun root => by rw [root?, root?, hroots]
  refine ⟨h.reachable.request request, h.roots.congr hroots hfree, ?_, ?_, ?_, h.distinct⟩
  · intro lease hlease hheld
    obtain ⟨hholds, hcell⟩ := h.held lease hlease hheld
    refine ⟨(hroot _).trans hholds, fun cell hcell' => ?_⟩
    have hcarries := hcell cell hcell'
    exact hcarries.next (.persistentRoot hholds hcarries.isLive) h.reachable.sound request
  · exact fun lease hlease hreturned => (hroot _).trans (h.returned lease hlease hreturned)
  · exact fun root ref hheld => h.owned root ref ((hroot root).symm.trans hheld)

end LeasesSound

theorem Leased.sound (h : heap.Leased leases) : heap.LeasesSound leases := by
  induction h with
  | start hinitial => exact .start hinitial
  | add ref _ ih => exact ih.add ref
  | remove number _ hlease hlapsed ih => exact ih.remove hlease hlapsed
  | ask request _ hother ih => exact ih.ask hother

/-- What the handles of persistent roots are worth to a client that gives none back again
after another was issued.

Outstanding handles are different, and hold what they were issued for; if that was alive it
is, in its place. A handle that was given back and not issued again holds nothing. Giving a
handle back makes no difference to another one, outstanding or not, and giving it back again
makes none at all. A context whose root of the global scope is not given back has its empty
global scope. -/
theorem persistentRoots_exact (h : heap.Leased leases) :
    (∀ (place place' : Nat) (lease lease' : Lease), leases[place]? = some lease →
      leases[place']? = some lease' → lease.stage = .held → lease'.stage = .held →
      place ≠ place' → lease.root ≠ lease'.root) ∧
    (∀ lease ∈ leases, lease.stage = .held → heap.root? lease.root = some lease.ref ∧
      ∀ cell, lease.cell? = some cell → CarriesOn cell lease.ref.id heap) ∧
    (∀ lease ∈ leases, lease.stage ≠ .held →
      (∀ other ∈ leases, other.stage = .held → other.root ≠ lease.root) →
      heap.root? lease.root = none) ∧
    (∀ (number : Nat) (lease : Lease), leases[number]? = some lease → lease.stage ≠ .lapsed →
      (∀ (place : Nat) (other : Lease), place ≠ number → leases[place]? = some other →
        other.stage = .held → other.root ≠ lease.root) ∧
      (∀ root, root ≠ lease.root → (heap.removeRoot lease.root).root? root = heap.root? root) ∧
      (lease.stage = .returned → heap.removeRoot lease.root = heap) ∧
      (heap.removeRoot lease.root).removeRoot lease.root = heap.removeRoot lease.root) ∧
    ∀ context : Context, context.Reachable →
      context.heap.root? context.globalRoot = some (.scope context.globalScope) ∧
      context.heap.scope context.globalScope = .ok { kind := .global, enclosing := none } := by
  have hsound := h.sound
  refine ⟨?_, hsound.held, ?_, ?_, ?_⟩
  · intro place place' lease lease' hplace hplace' hheld hheld' hne heq
    exact hne (hsound.distinct place place' lease lease' hplace hplace' hheld hheld' heq)
  · intro lease _ _ hfresh
    rw [Option.eq_none_iff_forall_ne_some]
    intro ref hroot
    obtain ⟨other, hother, hheld, heq⟩ := hsound.owned lease.root ref hroot
    exact hfresh other hother hheld heq
  · intro number lease hlease hlapsed
    refine ⟨fun place other hne hother hheld => ?_, fun root hne => ?_, fun hreturned => ?_, ?_⟩
    · exact hsound.root_ne hlease hlapsed hother hheld hne
    · exact root?_removeRoot_of_ne hne heap
    · rw [removeRoot, hsound.returned lease (List.mem_of_getElem? hlease) hreturned]
    · exact removeRoot_removeRoot lease.root heap
  · intro context hcontext
    have hanchors := hcontext.sound.anchors
    exact ⟨hanchors.root_eq, (scope_eq_ok_iff _ _ _).2 hanchors.cell_eq⟩

/-- A handle is given back twice with a collection in between, and then issued again for
another cell. Both cells that are held outlast a second collection, and the default context
has its scope. -/
theorem persistentRoots_exact_reissued :
    ∃ (heap : Heap) (leases : List Lease) (context : Context), Leased heap leases ∧
      leases.map (fun lease => (lease.root.index, lease.ref.id.index, lease.stage)) =
        [(0, 0, .lapsed), (1, 1, .held), (0, 2, .held)] ∧
      heap.stats.gcRuns = 2 ∧
      heap.root? ⟨0⟩ = some (.scope ⟨⟨2, 0⟩⟩) ∧ heap.isLive ⟨2, 0⟩ = true ∧
      heap.root? ⟨1⟩ = some (.scope ⟨⟨1, 0⟩⟩) ∧ heap.isLive ⟨1, 0⟩ = true ∧
      heap.isLive ⟨0, 0⟩ = false ∧ context.Reachable ∧
      context.heap.scope context.globalScope = .ok { kind := .global, enclosing := none } := by
  have hscopes := (((Leased.start (.ofLimits ⟨1000, 1000⟩)).ask
    (.perform (.allocScope .global none)) rfl).ask (.perform (.allocScope .lexical none)) rfl).ask
    (.perform (.allocScope .lexical none)) rfl
  have hadded := (hscopes.add (.scope ⟨⟨0, 0⟩⟩)).add (.scope ⟨⟨1, 0⟩⟩)
  have hreturned := (((hadded.ask (.pushRoot (.scope ⟨⟨2, 0⟩⟩)) rfl).remove 0 rfl
    (by decide)).ask (.perform .collect) rfl).remove 0 rfl (by decide)
  have hreissued := ((hreturned.add (.scope ⟨⟨2, 0⟩⟩)).ask (.truncateRoots 0) rfl).ask
    (.perform .collect) rfl
  obtain ⟨_, hheld, _, _, hcontexts⟩ := persistentRoots_exact hreissued
  obtain ⟨hsecond, hsecondCell⟩ := hheld _ (List.mem_of_getElem? (i := 1) rfl) rfl
  obtain ⟨hthird, hthirdCell⟩ := hheld _ (List.mem_of_getElem? (i := 2) rfl) rfl
  have hcontext := Context.reachable_of_isSome
    (rfl : (Context.ofConfig? {}).toOption.isSome = true)
  exact ⟨_, _, _, hreissued, by decide +kernel, by decide +kernel, hthird,
    (hthirdCell _ rfl).isLive, hsecond, (hsecondCell _ rfl).isLive, by decide +kernel, hcontext,
    (hcontexts _ hcontext).2⟩

end Heap

end ScriptLinker
