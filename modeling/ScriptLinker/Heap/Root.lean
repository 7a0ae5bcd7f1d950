import ScriptLinker.Heap.Basic
/-!
# Roots

Stack roots are pushed within a scope and dropped when the scope is left,
whatever happened in it. Persistent roots have handles; a handle that is given
back may be issued again.
-/

namespace ScriptLinker

/-- The handle of a persistent root. -/
structure RootId where
  index : Nat
  deriving DecidableEq, Inhabited

namespace Heap

def pushRoot (ref : CellRef) (heap : Heap) : Heap :=
  { heap with rootStack := heap.rootStack ++ [ref] }

/-- Drops the stack roots past the first `count`. -/
def truncateRoots (count : Nat) (heap : Heap) : Heap :=
  { heap with rootStack := heap.rootStack.take count }

/-- Runs an action and drops the stack roots it pushed, also when it fails. -/
def withRoots {ε α : Type} (action : Action Heap ε α) : Action Heap ε α := fun heap =>
  action.andThenAlways (Action.modify (truncateRoots heap.rootStack.length)) heap

/-- Registers a root that lives until it is removed. -/
def addRoot (ref : CellRef) (heap : Heap) : RootId × Heap :=
  match heap.freeRoots with
  | index :: rest =>
    (⟨index⟩,
      { heap with
        persistentRoots := heap.persistentRoots.setIfInBounds index (some ref)
        freeRoots := rest })
  | [] =>
    (⟨heap.persistentRoots.size⟩,
      { heap with persistentRoots := heap.persistentRoots.push (some ref) })

def root? (heap : Heap) (root : RootId) : Option CellRef :=
  heap.persistentRoots[root.index]?.join

/-- Gives a handle back; one that holds nothing is left alone. -/
def removeRoot (root : RootId) (heap : Heap) : Heap :=
  match heap.root? root with
  | none => heap
  | some _ =>
    { heap with
      persistentRoots := heap.persistentRoots.setIfInBounds root.index none
      freeRoots := root.index :: heap.freeRoots }

@[simp] theorem rootStack_pushRoot (ref : CellRef) (heap : Heap) :
    (heap.pushRoot ref).rootStack = heap.rootStack ++ [ref] := rfl

@[simp] theorem rootStack_truncateRoots (count : Nat) (heap : Heap) :
    (heap.truncateRoots count).rootStack = heap.rootStack.take count := rfl

@[simp] theorem result_withRoots {ε α : Type} (action : Action Heap ε α) (heap : Heap) :
    ((withRoots action).run heap).result = (action.run heap).result := rfl

/-- What an action pushed is dropped when its scope is left. -/
theorem rootStack_withRoots {ε α : Type} (action : Action Heap ε α) (heap : Heap) :
    ((withRoots action).run heap).state.rootStack =
      (action.run heap).state.rootStack.take heap.rootStack.length := rfl

/-- Two heaps differ in their persistent roots at most. -/
def Rerooted (heap after : Heap) : Prop :=
  ∃ roots free, after = { heap with persistentRoots := roots, freeRoots := free }

theorem rerooted_addRoot (ref : CellRef) (heap : Heap) : Rerooted heap (heap.addRoot ref).2 := by
  unfold addRoot
  split <;> exact ⟨_, _, rfl⟩

theorem rerooted_removeRoot (root : RootId) (heap : Heap) :
    Rerooted heap (heap.removeRoot root) := by
  unfold removeRoot
  split <;> exact ⟨_, _, rfl⟩

@[simp] theorem root?_removeRoot_self (root : RootId) (heap : Heap) :
    (heap.removeRoot root).root? root = none := by
  unfold removeRoot
  split
  · assumption
  · simp only [root?, Array.getElem?_setIfInBounds]
    split
    · split <;> rfl
    · contradiction

theorem root?_removeRoot_of_ne {root other : RootId} (h : other ≠ root) (heap : Heap) :
    (heap.removeRoot root).root? other = heap.root? other := by
  have hindex : root.index ≠ other.index := fun heq => h (by cases root; cases other; simp_all)
  unfold removeRoot
  split
  · rfl
  · simp [root?, hindex]

/-- Giving a handle back twice is giving it back once. -/
theorem removeRoot_removeRoot (root : RootId) (heap : Heap) :
    (heap.removeRoot root).removeRoot root = heap.removeRoot root := by
  rw [removeRoot, root?_removeRoot_self]

end Heap

end ScriptLinker
