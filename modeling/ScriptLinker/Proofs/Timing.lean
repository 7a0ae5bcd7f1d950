import ScriptLinker.Proofs.Holdings
import ScriptLinker.Proofs.Lifetimes
import ScriptLinker.Proofs.Mirror
import ScriptLinker.Proofs.Timeless
import ScriptLinker.Proofs.Turnover
/-!
# When the heap collects is not observed

A program that keeps its references in registers is shown the same whenever its heap
collects, as long as it is not refused for lack of room or of a cell and no slot's
generation starts over. Its run shadows the run of the program on an archive: the heap
mirrors the archive, and the registers hold the same under the names of the addresses.
`timing_unobservable` compares two programs that differ in timed steps only, on heaps
with any limits: both shadow the same run. `timing_observed` shows what is left to see: a
comparison of scripts of which one is gone, and an address that is issued again.
-/

namespace ScriptLinker

namespace Heap

variable {heap : Heap} {issued : List Issue}

/-- A sound heap, with the cells placed on it so far. -/
structure Tracked (issued : List Issue) (heap : Heap) : Prop where
  sound : heap.Sound
  sharing : heap.SharingSound
  coherent : heap.Coherent issued

theorem Tracked.next (h : heap.Tracked issued) (request : Request)
    (hrefs : ∀ ref ∈ request.refs, ref ∈ Issue.refs issued)
    (hwrap : ∀ index, heap.generationAt index ≤ (request.next heap).generationAt index) :
    (request.next heap).Tracked (request.issuedAfter heap issued) :=
  ⟨Request.sound_next h.sound request, h.sharing.next h.sound request,
    Request.coherent_next h.sound h.coherent hrefs hwrap⟩

theorem Initial.tracked (h : heap.Initial) : heap.Tracked [] :=
  ⟨h.sound, h.sharingSound, (History.sound_initial h).coherent⟩

/-- An empty heap mirrors an empty archive. -/
theorem Initial.mirrors (h : heap.Initial) (name : CellId → CellId) (limits : HeapLimits) :
    heap.Mirrors name (Heap.ofLimits limits) := by
  have hroots : heap.rootStack = [] ∧ heap.persistentRoots = #[] ∧ heap.freeRoots = [] := by
    cases h with
    | ofLimits limits => exact ⟨rfl, rfl, rfl⟩
    | ofSettings hsettings =>
        rw [eq_of_ofSettings? hsettings]
        exact ⟨rfl, rfl, rfl⟩
  obtain ⟨hstack, hpersistent, hfree⟩ := hroots
  refine ⟨?_, ?_, ?_, ?_, by simp [hstack, Heap.ofLimits], by simp [hpersistent, Heap.ofLimits],
    by simp [hfree, Heap.ofLimits]⟩
  · intro id cell hcell
    simp [h.cell?_eq_none] at hcell
  · intro id other hid
    simp [isLive, h.cell?_eq_none] at hid
  · intro id text hcell
    simp [h.cell?_eq_none] at hcell
  · intro text atom hatom
    simp [internedAtom?, Heap.ofLimits] at hatom

end Heap

mutual

/-- In no operation of a step does the generation of a slot start over. -/
def Step.Steady : Step → Option Nat → Workspace → Prop
  | .perform number keep operation, _, workspace =>
    ∀ index, workspace.heap.generationAt index ≤
      (workspace.perform number keep operation).2.heap.generationAt index
  | .rootScope body, _, workspace =>
    Step.SteadyAll body (some workspace.heap.rootStack.length) workspace
  | _, _, _ => True

def Step.SteadyAll : List Step → Option Nat → Workspace → Prop
  | [], _, _ => True
  | step :: rest, entry, workspace =>
    step.Steady entry workspace ∧ Step.SteadyAll rest entry (step.run entry workspace).2

end

mutual

/-- Whether a step finds the scripts that it compares. -/
def Step.findsBoth : Step → Option Nat → Workspace → Bool
  | .perform _ _ operation, _, workspace =>
    match operation.resolve workspace.registers.find with
    | .ok resolved => resolved.findsBoth workspace.heap
    | .error _ => true
  | .rootScope body, _, workspace =>
    Step.findsBothAll body (some workspace.heap.rootStack.length) workspace
  | _, _, _ => true

def Step.findsBothAll : List Step → Option Nat → Workspace → Bool
  | [], _, _ => true
  | step :: rest, entry, workspace =>
    step.findsBoth entry workspace && Step.findsBothAll rest entry (step.run entry workspace).2

end

namespace StepResult

/-- A result shows what a result on an archive does, but for a comparison of scripts
that were not both found. -/
inductive Shows (found : Bool) : StepResult → StepResult → Prop where
  | same (result : StepResult) : Shows found result result
  | unseen (answer : Option Bool) : found = false →
      Shows found (.reply (.sameImage none)) (.reply (.sameImage answer))

/-- Two results show the same, but for comparisons of which one was not told of two
shared objects. -/
inductive Agrees : StepResult → StepResult → Prop where
  | same (result : StepResult) : Agrees result result
  | left (answer : Option Bool) : Agrees (.reply (.sameImage none)) (.reply (.sameImage answer))
  | right (answer : Option Bool) : Agrees (.reply (.sameImage answer)) (.reply (.sameImage none))

/-- What a comparison tells of two shared objects. -/
def comparison? : StepResult → Option Bool
  | .reply (.sameImage answer) => answer
  | _ => none

theorem Shows.mono {found found' : Bool} {result ideal : StepResult} (h : Shows found result ideal)
    (hfound : found' = true → found = true) : Shows found' result ideal := by
  cases h with
  | same => exact .same _
  | unseen answer hunseen => exact .unseen answer (by cases found' <;> simp_all)

theorem Shows.eq {result ideal : StepResult} (h : Shows true result ideal) : result = ideal := by
  cases h with
  | same => rfl
  | unseen answer hunseen => simp at hunseen

theorem Shows.agrees {found found' : Bool} {first second ideal : StepResult}
    (h : Shows found first ideal) (h' : Shows found' second ideal) : first.Agrees second := by
  cases h with
  | same =>
      cases h' with
      | same => exact .same _
      | unseen answer _ => exact .right answer
  | unseen answer _ =>
      cases h' with
      | same => exact .left answer
      | unseen => exact .same _

theorem agrees_of_shows {found found' : Bool} {first second ideal : List StepResult}
    (h : List.Forall₂ (Shows found) first ideal) (h' : List.Forall₂ (Shows found') second ideal) :
    List.Forall₂ Agrees first second := by
  induction h generalizing second with
  | nil =>
      cases h'
      exact .nil
  | cons hfirst _ ih =>
      cases h' with
      | cons hsecond hrest => exact .cons (hfirst.agrees hsecond) (ih hrest)

theorem eq_of_shows {results ideal : List StepResult}
    (h : List.Forall₂ (Shows true) results ideal) : results = ideal :=
  List.forall₂_eq_eq_eq ▸ h.imp fun _ _ => Shows.eq

end StepResult

namespace Reflects

variable {found : Bool} {name : CellId → CellId} {reply replayed : Reply}

theorem shows (h : Reflects found name (.ok reply) (.ok replayed)) :
    StepResult.Shows found (.reply reply.view) (.reply replayed.view) := by
  cases h with
  | reply =>
      rw [Reply.view_rename]
      exact .same _
  | truth value other => exact .same _
  | stores entries others => exact .same _
  | unseen answer hunseen => exact .unseen answer hunseen

/-- What a register keeps of an answer, and of that of the archive. -/
theorem keep_eq (h : Reflects found name (.ok reply) (.ok replayed)) (register : Option String)
    (registers : Registers) :
    (registers.rename name).keep register replayed =
      (registers.keep register reply).rename name := by
  cases h with
  | reply => exact (Registers.keep_rename name register reply registers).symm
  | truth value other => cases register <;> rfl
  | stores entries others => cases register <;> rfl
  | unseen answer _ => cases register <;> rfl

end Reflects

namespace Workspace

variable {issued : List Issue} {name : CellId → CellId} {workspace ideal : Workspace}

/-- The heap of a workspace mirrors the archive of another one, and the registers of
both hold the same cells. -/
structure Shadows (issued : List Issue) (name : CellId → CellId) (workspace ideal : Workspace) :
    Prop where
  tracked : workspace.heap.Tracked issued
  refs_issued : ∀ ref ∈ workspace.registers.refs, ref ∈ Issue.refs issued
  others_eq : workspace.others = []
  mirrors : workspace.heap.Mirrors name ideal.heap
  registers_eq : ideal.registers = workspace.registers.rename name

/-- The first workspace shadows the second in some way. -/
def Shadowed (workspace ideal : Workspace) : Prop :=
  ∃ issued name, Shadows issued name workspace ideal

/-- An operation on the first heap, whose references the registers hold. -/
theorem perform_of_resolve {operation : Operation Named} {resolved : Operation Issued}
    (hresolve : operation.resolve workspace.registers.find = .ok resolved) (keep : Option String) :
    ∃ summary events, workspace.perform 0 keep operation =
      match resolved.run.ending workspace.heap with
      | (.error error, heap) => (.single (.failed error) summary events, { workspace with heap })
      | (.ok reply, heap) =>
        (.single (.reply reply) summary events,
          { workspace with heap, registers := workspace.registers.keep keep reply }) := by
  refine ⟨(resolved.run.run workspace.heap).state.summary,
    (resolved.run.run workspace.heap).events, ?_⟩
  simp only [perform, heapAt?, hresolve, setHeapAt, Action.ending]
  cases (resolved.run.run workspace.heap).result <;> rfl

namespace Shadows

theorem resolve_eq (h : Shadows issued name workspace ideal) (operation : Operation Named) :
    operation.resolve ideal.registers.find =
      (operation.resolve workspace.registers.find).map (Operation.rename name) := by
  have hfind : ideal.registers.find = fun sort register =>
      (workspace.registers.find sort register).map (Issued.rename name sort) := by
    funext sort register
    rw [h.registers_eq, Registers.find_rename]
  rw [hfind]
  exact Operation.resolve_map (Issued.rename name) operation

/-- A request that the archive follows. Only an address that was not issued before may
get another name. -/
theorem of_request (h : Shadows issued name workspace ideal) (request : Request)
    {other : CellId → CellId} {filed : Heap}
    (hrefs : ∀ ref ∈ request.refs, ref ∈ Issue.refs issued)
    (hwrap : ∀ index, workspace.heap.generationAt index ≤
      (request.next workspace.heap).generationAt index)
    (hagree : ∀ issue ∈ issued, other issue.id = name issue.id)
    (hmirrors : (request.next workspace.heap).Mirrors other filed) :
    Shadows (request.issuedAfter workspace.heap issued) other
      { workspace with heap := request.next workspace.heap } { ideal with heap := filed } where
  tracked := h.tracked.next request hrefs hwrap
  refs_issued := fun ref href => Request.refs_subset_issuedAfter (h.refs_issued ref href)
  others_eq := h.others_eq
  mirrors := hmirrors
  registers_eq := by
    rw [h.registers_eq]
    refine (Registers.rename_congr fun ref href => ?_).symm
    obtain ⟨issue, hissue, rfl⟩ := h.refs_issued ref href
    rw [Issue.id_ref, hagree issue hissue]

/-- What is kept of an answer names cells that were issued. -/
theorem keep (h : Shadows issued name workspace ideal) {found : Bool} {reply replayed : Reply}
    (hreply : ∀ ref ∈ reply.refs, ref ∈ Issue.refs issued)
    (hreflects : Reflects found name (.ok reply) (.ok replayed)) (register : Option String) :
    Shadows issued name { workspace with registers := workspace.registers.keep register reply }
      { ideal with registers := ideal.registers.keep register replayed } where
  tracked := h.tracked
  refs_issued := fun ref href =>
    (Registers.mem_refs_keep href).elim (h.refs_issued ref) (hreply ref)
  others_eq := h.others_eq
  mirrors := h.mirrors
  registers_eq := by
    rw [h.registers_eq]
    exact hreflects.keep_eq register workspace.registers

/-- An operation ends as on the archive, and what it hands out was issued. -/
theorem operate (h : Shadows issued name workspace ideal) {operation : Operation Issued}
    {result : Except HeapError Reply} {after : Heap}
    (hending : operation.run.ending workspace.heap = (result, after))
    (hrefs : ∀ ref ∈ operation.refs, ref ∈ workspace.registers.refs)
    (hwrap : ∀ index, workspace.heap.generationAt index ≤ after.generationAt index)
    (hgood : ∀ error ∈ (Request.perform operation).faults workspace.heap,
      error.ofTiming = false) :
    ∃ issued other, Shadows issued other { workspace with heap := after }
        { ideal with heap := ((operation.rename name).replay ideal.heap).2 } ∧
      Reflects (operation.findsBoth workspace.heap) other result
        ((operation.rename name).replay ideal.heap).1 ∧
      ∀ ref ∈ (Request.perform operation).handedOut workspace.heap, ref ∈ Issue.refs issued := by
  have hnext : (Request.perform operation).next workspace.heap = after := congrArg Prod.snd hending
  have hknown : ∀ ref ∈ (Request.perform operation).refs, ref ∈ Issue.refs issued :=
    fun ref href => h.refs_issued ref (hrefs ref href)
  rw [← hnext] at hwrap
  have htracked := h.tracked.next (.perform operation) hknown hwrap
  obtain ⟨other, hagree, hmirrors, hreflects⟩ := Operation.mirrors_run h.mirrors h.tracked.sound
    h.tracked.sharing h.tracked.coherent htracked.coherent hknown hgood
  have hshadows := h.of_request (.perform operation) hknown hwrap hagree hmirrors
  rw [hnext] at hshadows
  rw [hending] at hreflects
  exact ⟨_, other, hshadows, hreflects, fun ref =>
    Request.handedOut_issued h.tracked.sound h.tracked.coherent hknown⟩

/-- An operation is answered as on the archive. -/
theorem perform (h : Shadows issued name workspace ideal) (keep : Option String)
    (operation : Operation Named)
    (hsteady : ∀ index, workspace.heap.generationAt index ≤
      (workspace.perform 0 keep operation).2.heap.generationAt index)
    (hgood : ∀ error ∈ (workspace.perform 0 keep operation).1.faults, error.ofTiming = false) :
    Shadowed (workspace.perform 0 keep operation).2 (ideal.replay keep operation).2 ∧
      ∃ result summary events, (workspace.perform 0 keep operation).1 =
          .single result summary events ∧
        StepResult.Shows ((Step.perform 0 keep operation).findsBoth none workspace) result.view
          (ideal.replay keep operation).1.view := by
  unfold Workspace.replay Step.findsBoth
  rw [h.resolve_eq]
  cases hresolve : operation.resolve workspace.registers.find with
  | error error =>
      have hperform : workspace.perform 0 keep operation =
          (.single (.badRegister error) workspace.heap.summary [], workspace) := by
        simp only [Workspace.perform, heapAt?, hresolve]
      rw [hperform]
      exact ⟨⟨issued, name, h⟩, _, _, _, rfl, .same _⟩
  | ok resolved =>
      dsimp only [Except.map]
      obtain ⟨summary, events, hperform⟩ := perform_of_resolve hresolve keep
      rw [hperform] at hsteady hgood ⊢
      cases hending : resolved.run.ending workspace.heap with
      | mk result after =>
          have hresult : (Request.perform resolved).result workspace.heap = result :=
            congrArg Prod.fst hending
          rw [hending] at hsteady hgood
          obtain ⟨known, other, hshadows, hreflects, hknown⟩ := h.operate hending
            (fun ref => Operation.refs_of_resolve hresolve) (by cases result <;> exact hsteady)
            (by
              rw [Request.faults, hresult]
              cases result <;> exact hgood)
          rw [Request.handedOut, hresult] at hknown
          cases hreplay : (resolved.rename name).replay ideal.heap with
          | mk replayed filed =>
              rw [hreplay] at hshadows hreflects
              cases result with
              | error error =>
                  cases hreflects
                  exact ⟨⟨known, other, hshadows⟩, _, _, _, rfl, .same _⟩
              | ok reply =>
                  cases replayed with
                  | error error => cases hreflects
                  | ok replayed =>
                      exact ⟨⟨known, other, hshadows.keep hknown hreflects keep⟩, _, _, _, rfl,
                        hreflects.shows⟩

theorem length_rootStack_eq (h : Shadows issued name workspace ideal) :
    ideal.heap.rootStack.length = workspace.heap.rootStack.length := by
  rw [h.mirrors.rootStack, List.length_map]

/-- Closing a root scope. -/
theorem truncateRoots (h : Shadows issued name workspace ideal) (count : Nat) :
    Shadowed { workspace with heap := workspace.heap.truncateRoots count }
      { ideal with heap := ideal.heap.truncateRoots count } :=
  ⟨_, name, h.of_request (.truncateRoots count) (by simp [Request.refs]) (fun _ => le_refl _)
    (fun _ _ => rfl) (h.mirrors.truncateRoots count)⟩

end Shadows

end Workspace

namespace Step

open Workspace (Shadowed)

variable {workspace ideal : Workspace}

/-- What a step does and shows is what it does and shows on the archive. -/
def Shadowing (step : Step) (entry : Option Nat) (workspace ideal : Workspace) : Prop :=
  Shadowed (step.run entry workspace).2 (step.replay entry ideal).2 ∧
    List.Forall₂ (StepResult.Shows (step.findsBoth entry workspace))
      (step.views (step.run entry workspace).1) (step.replay entry ideal).1

/-- A timed operation does nothing to an archive. -/
theorem replay_of_isTimed {operation : Operation Named} (h : operation.isTimed = true)
    (keep : Option String) (ideal : Workspace) : (ideal.replay keep operation).2 = ideal := by
  cases operation <;> simp [Operation.isTimed] at h <;> cases keep <;> rfl

theorem shadowing_perform (h : Shadowed workspace ideal) (number : Nat) (keep : Option String)
    (operation : Operation Named) (entry : Option Nat)
    (hsteady : (perform number keep operation).Steady entry workspace)
    (hgood : ∀ error ∈ ((perform number keep operation).run entry workspace).1.faults,
      error.ofTiming = false) :
    (perform number keep operation).Shadowing entry workspace ideal := by
  obtain ⟨issued, name, h⟩ := h
  unfold Shadowing
  cases number with
  | zero =>
      obtain ⟨hshadowed, result, summary, events, hanswer, hshows⟩ :=
        h.perform keep operation hsteady hgood
      rw [run, hanswer, views, replay]
      cases htimed : operation.isTimed with
      | true =>
          rw [replay_of_isTimed htimed] at hshadowed
          exact ⟨hshadowed, .nil⟩
      | false => exact ⟨hshadowed, .cons hshows .nil⟩
  | succ number =>
      have hperform : workspace.perform (number + 1) keep operation =
          (.single .misplaced workspace.heap.summary [], workspace) := by
        simp [Workspace.perform, Workspace.heapAt?, h.others_eq]
      rw [run, hperform, views, replay]
      cases operation.isTimed with
      | true => exact ⟨⟨issued, name, h⟩, .nil⟩
      | false => exact ⟨⟨issued, name, h⟩, .cons (.same _) .nil⟩

theorem shadowing_pushRoot (h : Shadowed workspace ideal) (cell : String) (entry : Option Nat) :
    (pushRoot cell).Shadowing entry workspace ideal := by
  obtain ⟨issued, name, h⟩ := h
  unfold Shadowing
  cases entry with
  | none => exact ⟨⟨issued, name, h⟩, .cons (.same _) .nil⟩
  | some entry =>
      have hfind : ideal.registers.find .cell cell =
          (workspace.registers.find .cell cell).map (CellRef.rename name) := by
        rw [h.registers_eq]
        exact Registers.find_rename name _ .cell cell
      simp only [replay, run, Workspace.pushRoot, hfind]
      cases hcell : workspace.registers.find .cell cell with
      | error error => exact ⟨⟨issued, name, h⟩, .cons (.same _) .nil⟩
      | ok ref =>
          have href : ref ∈ Issue.refs issued :=
            h.refs_issued ref (Registers.mem_refs_of_find hcell (List.mem_singleton_self _))
          refine ⟨⟨_, name, h.of_request (.pushRoot ref) (by simpa [Request.refs])
            (fun _ => le_refl _) (fun _ _ => rfl) (h.mirrors.pushRoot ref)⟩, .cons ?_ .nil⟩
          exact Reflects.shows (.reply (.cell ref))

theorem shadowing_askPushed (h : Shadowed workspace ideal) (entry : Option Nat) :
    askPushed.Shadowing entry workspace ideal := by
  obtain ⟨issued, name, h⟩ := h
  unfold Shadowing
  cases entry with
  | none => exact ⟨⟨issued, name, h⟩, .cons (.same _) .nil⟩
  | some entry =>
      simp only [replay, run, Workspace.askPushed, h.length_rootStack_eq]
      exact ⟨⟨issued, name, h⟩, .cons (.same _) .nil⟩

mutual

/-- A step that meets no lack of room or of a cell goes as on the archive. -/
theorem shadowing : ∀ (step : Step) (entry : Option Nat) {workspace ideal : Workspace},
    Shadowed workspace ideal → step.Steady entry workspace →
    (∀ error ∈ (step.run entry workspace).1.faults, error.ofTiming = false) →
    step.Shadowing entry workspace ideal
  | .perform number keep operation, entry, workspace, ideal, h, hsteady, hgood =>
      shadowing_perform h number keep operation entry hsteady hgood
  | .pushRoot cell, entry, workspace, ideal, h, _, _ => shadowing_pushRoot h cell entry
  | .askPushed, entry, workspace, ideal, h, _, _ => shadowing_askPushed h entry
  | .rootScope body, entry, workspace, ideal, h, hsteady, hgood => by
      have hbody := shadowingAll body (some workspace.heap.rootStack.length) h hsteady hgood
      have hlength : ideal.heap.rootStack.length = workspace.heap.rootStack.length := by
        obtain ⟨issued, name, h⟩ := h
        exact h.length_rootStack_eq
      unfold Shadowing
      simp only [replay, hlength]
      obtain ⟨⟨issued, name, hafter⟩, hshows⟩ := hbody
      exact ⟨hafter.truncateRoots _, hshows⟩

theorem shadowingAll : ∀ (steps : List Step) (entry : Option Nat) {workspace ideal : Workspace},
    Shadowed workspace ideal → SteadyAll steps entry workspace →
    (∀ error ∈ Answer.faultsAll (runAll steps entry workspace).1, error.ofTiming = false) →
    Shadowed (runAll steps entry workspace).2 (replayAll steps entry ideal).2 ∧
      List.Forall₂ (StepResult.Shows (findsBothAll steps entry workspace))
        (viewsAll steps (runAll steps entry workspace).1) (replayAll steps entry ideal).1
  | [], entry, workspace, ideal, h, _, _ => ⟨h, .nil⟩
  | step :: rest, entry, workspace, ideal, h, hsteady, hgood => by
      obtain ⟨hmiddle, hfirst⟩ := shadowing step entry h hsteady.1 fun error herror =>
        hgood error (List.mem_append_left _ herror)
      obtain ⟨hafter, hrest⟩ := shadowingAll rest entry hmiddle hsteady.2 fun error herror =>
        hgood error (List.mem_append_right _ herror)
      refine ⟨hafter, List.rel_append (hfirst.imp fun _ _ hshows => hshows.mono fun hfound => ?_)
        (hrest.imp fun _ _ hshows => hshows.mono fun hfound => ?_)⟩
      · exact (Bool.and_eq_true_iff.1 hfound).1
      · exact (Bool.and_eq_true_iff.1 hfound).2

end

/-- A step keeps a heap sound and lets it age; no generation starts over in it before
there are as many collections as generations. -/
def Aging (step : Step) (entry : Option Nat) (workspace : Workspace) : Prop :=
  (step.run entry workspace).2.heap.Sound ∧
    workspace.heap.Ages (step.run entry workspace).2.heap ∧
    (workspace.heap.Aged → (step.run entry workspace).2.heap.stats.gcRuns < UInt32.size →
      step.Steady entry workspace)

theorem ages_perform (h : workspace.heap.Sound) (number : Nat) (keep : Option String)
    (operation : Operation Named) :
    (workspace.perform number keep operation).2.heap.Sound ∧
      workspace.heap.Ages (workspace.perform number keep operation).2.heap := by
  have hsame : workspace.heap.Ages workspace.heap := .of_eq rfl fun _ => rfl
  cases number with
  | zero =>
      cases hresolve : operation.resolve workspace.registers.find with
      | error error =>
          simp only [Workspace.perform, Workspace.heapAt?, hresolve]
          exact ⟨h, hsame⟩
      | ok resolved =>
          obtain ⟨summary, events, hperform⟩ := Workspace.perform_of_resolve hresolve keep
          have hsound := Request.sound_next h (.perform resolved)
          have hages := Heap.Ages.next h (.perform resolved)
          unfold Request.next Request.action at hsound hages
          rw [hperform]
          cases hending : resolved.run.ending workspace.heap with
          | mk result after =>
              rw [hending] at hsound hages
              cases result <;> exact ⟨hsound, hages⟩
  | succ number =>
      unfold Workspace.perform
      split
      · exact ⟨h, hsame⟩
      · split
        · exact ⟨h, hsame⟩
        · dsimp only
          split <;> exact ⟨h, hsame⟩

mutual

theorem aging : ∀ (step : Step) (entry : Option Nat) {workspace : Workspace},
    workspace.heap.Sound → step.Aging entry workspace
  | .perform number keep operation, entry, workspace, h => by
      obtain ⟨hsound, hages⟩ := ages_perform h number keep operation
      exact ⟨hsound, hages, hages.no_wrap⟩
  | .pushRoot cell, entry, workspace, h => by
      cases entry with
      | none => exact ⟨h, .of_eq rfl fun _ => rfl, fun _ _ => trivial⟩
      | some entry =>
          unfold Aging
          rw [run, Workspace.pushRoot]
          cases workspace.registers.find .cell cell with
          | error error => exact ⟨h, .of_eq rfl fun _ => rfl, fun _ _ => trivial⟩
          | ok ref =>
              exact ⟨h.congr rfl rfl rfl rfl rfl rfl, .of_eq rfl fun _ => rfl, fun _ _ => trivial⟩
  | .askPushed, entry, workspace, h => by
      cases entry <;> exact ⟨h, .of_eq rfl fun _ => rfl, fun _ _ => trivial⟩
  | .rootScope body, entry, workspace, h => by
      obtain ⟨hafter, hages, hsteady⟩ := agingAll body (some workspace.heap.rootStack.length) h
      exact ⟨hafter.congr rfl rfl rfl rfl rfl rfl, hages.trans (.of_eq rfl fun _ => rfl), hsteady⟩

theorem agingAll : ∀ (steps : List Step) (entry : Option Nat) {workspace : Workspace},
    workspace.heap.Sound → (runAll steps entry workspace).2.heap.Sound ∧
      workspace.heap.Ages (runAll steps entry workspace).2.heap ∧
      (workspace.heap.Aged → (runAll steps entry workspace).2.heap.stats.gcRuns < UInt32.size →
        SteadyAll steps entry workspace)
  | [], entry, workspace, h => ⟨h, .of_eq rfl fun _ => rfl, fun _ _ => trivial⟩
  | step :: rest, entry, workspace, h => by
      obtain ⟨hmiddle, hages, hsteady⟩ := aging step entry h
      obtain ⟨hafter, hages', hsteady'⟩ := agingAll rest entry hmiddle
      refine ⟨hafter, hages.trans hages', fun haged hruns => ?_⟩
      exact ⟨hsteady haged (hages'.gcRuns_le.trans_lt hruns), hsteady' (hages.aged haged) hruns⟩

end

end Step

namespace Workspace

variable {heap heap' : Heap} {steps steps' : List Step}

/-- On an empty heap no generation starts over in a program that collects less often
than there are generations. -/
theorem steadyAll_of_gcRuns_lt (h : heap.Initial)
    (hruns : (runProgram { heap } steps).2.heap.stats.gcRuns < UInt32.size) :
    Step.SteadyAll steps none { heap } :=
  (Step.agingAll steps none h.sound).2.2 h.aged hruns

/-- On an empty heap a program starts as on an empty archive. -/
theorem shadowed_initial (h : heap.Initial) : Shadowed { heap } { heap := .ofLimits default } :=
  ⟨[], fun _ => default, h.tracked, by simp [Registers.refs], rfl, h.mirrors _ _, rfl⟩

/-- Programs that differ only in when they collect, switch the zeal and arm failures show
the same on empty heaps of any limits, as long as no step meets a lack of room or a stale
reference and no slot's generation starts over: every step succeeds or fails with the same
error, and what it shows is the same but for addresses.

A comparison does not tell that a script is gone, so programs with one that misses a script
may differ in it; if all find the scripts that they compare, the comparisons are the same as
well. Without its timed steps either program is the same program on the archive, and shows
what that shows. -/
theorem timing_unobservable (h : heap.Initial) (h' : heap'.Initial)
    (hsame : Step.untimeAll steps = Step.untimeAll steps')
    (hgood : ∀ error ∈ Answer.faultsAll (runProgram { heap } steps).1, error.ofTiming = false)
    (hgood' : ∀ error ∈ Answer.faultsAll (runProgram { heap := heap' } steps').1,
      error.ofTiming = false)
    (hsteady : Step.SteadyAll steps none { heap })
    (hsteady' : Step.SteadyAll steps' none { heap := heap' }) :
    let views := Step.viewsAll steps (runProgram { heap } steps).1
    let views' := Step.viewsAll steps' (runProgram { heap := heap' } steps').1
    List.Forall₂ StepResult.Agrees views views' ∧
      (Step.findsBothAll steps none { heap } = true →
        Step.findsBothAll steps' none { heap := heap' } = true → views = views') := by
  intro views views'
  have hshows := (Step.shadowingAll steps none (shadowed_initial h) hsteady hgood).2
  have hshows' := (Step.shadowingAll steps' none (shadowed_initial h') hsteady' hgood').2
  rw [← Step.replayAll_untimeAll, hsame, Step.replayAll_untimeAll] at hshows
  refine ⟨StepResult.agrees_of_shows hshows hshows', fun hfound hfound' => ?_⟩
  rw [hfound] at hshows
  rw [hfound'] at hshows'
  exact (StepResult.eq_of_shows hshows).trans (StepResult.eq_of_shows hshows').symm

/-- An atom that nothing roots is found again in one run, and collected and placed anew
in the other. -/
theorem timing_unobservable_reusedSlot :
    ∃ steps steps' : List Step, Step.untimeAll steps = Step.untimeAll steps' ∧
      (runProgram { heap := .ofLimits ⟨1000, 1000⟩ } steps).2.registers.find .atom "a" =
        .ok ⟨⟨1, 0⟩⟩ ∧
      (runProgram { heap := .ofLimits ⟨100, 1000⟩ } steps').2.registers.find .atom "a" =
        .ok ⟨⟨1, 1⟩⟩ ∧
      Step.viewsAll steps (runProgram { heap := .ofLimits ⟨1000, 1000⟩ } steps).1 =
        Step.viewsAll steps' (runProgram { heap := .ofLimits ⟨100, 1000⟩ } steps').1 := by
  refine ⟨[.perform 0 (some "g") (.allocScope .global none), .perform 0 none (.addRoot "g"),
      .perform 0 none (.atomize [120]), .perform 0 (some "a") (.atomize [120]),
      .rootScope [.pushRoot "a", .perform 0 (some "s") (.allocScript {}), .pushRoot "s",
        .perform 0 none (.createAtoms "s" 1), .perform 0 none (.initAtom "s" 0 "a"),
        .perform 0 none (.createImage "s" 1 0), .perform 0 none (.share "s"),
        .perform 0 none (.setFlags "s" {}), .perform 0 none (.compareImages "s" "s"),
        .perform 0 none (.readScript "s")]],
    [.perform 0 none (.setZeal true), .perform 0 (some "g") (.allocScope .global none),
      .perform 0 none (.addRoot "g"), .perform 0 none (.atomize [120]),
      .perform 0 none .collect, .perform 0 (some "a") (.atomize [120]),
      .rootScope [.pushRoot "a", .perform 0 (some "s") (.allocScript {}), .pushRoot "s",
        .perform 0 none (.createAtoms "s" 1), .perform 0 none (.initAtom "s" 0 "a"),
        .perform 0 none (.createImage "s" 1 0), .perform 0 none (.share "s"),
        .perform 0 none .collect, .perform 0 none (.setFlags "s" {}),
        .perform 0 none (.compareImages "s" "s"), .perform 0 none (.readScript "s")]],
    rfl, by decide +kernel, by decide +kernel, ?_⟩
  refine (timing_unobservable (.ofLimits _) (.ofLimits _) ?_ ?_ ?_ ?_ ?_).2 ?_ ?_
  · rfl
  · decide +kernel
  · decide +kernel
  · exact steadyAll_of_gcRuns_lt (.ofLimits _) (by decide +kernel)
  · exact steadyAll_of_gcRuns_lt (.ofLimits _) (by decide +kernel)
  · decide +kernel
  · decide +kernel

/-- Allocates a scope that nothing is to hold. -/
def idleStep : Step :=
  .perform 0 none (.allocScope .global none)

/-- Scopes that nothing refers to take their turns in one slot, without a fault. -/
theorem runAll_turnover {workspace : Workspace} {index generation : Nat}
    (h : workspace.heap.passed.collected.Pivots index)
    (hslot : workspace.heap.passed.collected.slots[index]? = some { generation })
    (hgeneration : generation < UInt32.size) {turns : Nat}
    (hroots : ∀ turn, turn + 1 < turns → ∀ ref ∈ workspace.heap.roots,
      ref.id ≠ ⟨index, (generation + turn) % UInt32.size⟩) (entry : Option Nat) :
    (Step.runAll (List.replicate turns idleStep) entry workspace).2 =
        { workspace with heap := workspace.heap.turnedOver index generation turns } ∧
      Answer.faultsAll (Step.runAll (List.replicate turns idleStep) entry workspace).1 = [] := by
  have hcount : ∀ count ≤ turns,
      (Step.runAll (List.replicate count idleStep) entry workspace).2 =
          { workspace with heap := workspace.heap.turnedOver index generation count } ∧
        Answer.faultsAll (Step.runAll (List.replicate count idleStep) entry workspace).1 = [] := by
    intro count hle
    induction count with
    | zero => exact ⟨rfl, rfl⟩
    | succ count ih =>
        obtain ⟨hafter, hfaults⟩ := ih (by omega)
        have hending := h.ending_allocScope_turnedOver hslot hgeneration hroots
          (show count < turns by omega)
        have hturn : (Operation.run (.allocScope .global none)).ending
            (workspace.heap.turnedOver index generation count) =
              (.ok (.cell (.scope ⟨⟨index, (generation + count) % UInt32.size⟩⟩)),
                workspace.heap.turnedOver index generation (count + 1)) :=
          Action.ending_bind_of_ok hending _
        rw [List.replicate_succ', Step.runAll_append, Answer.faultsAll_append, hfaults, hafter]
        obtain ⟨summary, events, hperform⟩ := @perform_of_resolve
          { workspace with heap := workspace.heap.turnedOver index generation count }
          (.allocScope .global none) _ rfl none
        dsimp only at hperform
        rw [hturn] at hperform
        simp only [Step.runAll, Step.run, idleStep, hperform]
        exact ⟨rfl, rfl⟩
  exact hcount turns le_rfl

/-- The run of a program on an empty heap. -/
def runOn (limits : HeapLimits) (steps : List Step) : List Answer × Workspace :=
  runProgram { heap := .ofLimits limits } steps

/-- What the program shows. -/
def shownOn (limits : HeapLimits) (steps : List Step) : List StepResult :=
  Step.viewsAll steps (runOn limits steps).1

/-- Two programs that differ in timed steps only, and that meet no lack of room and no stale
reference on empty heaps of the same limits. -/
structure TimedApart (limits : HeapLimits) (steps steps' : List Step) : Prop where
  same : Step.untimeAll steps = Step.untimeAll steps'
  good : ∀ error ∈ Answer.faultsAll (runOn limits steps).1, error.ofTiming = false
  good' : ∀ error ∈ Answer.faultsAll (runOn limits steps').1, error.ofTiming = false

/-- Seals two scripts with equal images and roots the second one. -/
def sealTwo : List Step :=
  [.perform 0 (some "a") (.allocScript {}), .perform 0 none (.createImage "a" 1 0),
    .perform 0 none (.share "a"), .perform 0 (some "b") (.allocScript {}),
    .perform 0 none (.addRoot "b"), .perform 0 none (.createImage "b" 1 0),
    .perform 0 none (.share "b")]

/-- Roots a lexical scope, but takes other steps before. Then a scope is allocated that nothing
is to hold. -/
def rootLate (before : List Step) : List Step :=
  [.perform 0 none (.setZeal true), .perform 0 (some "g") (.allocScope .global none),
    .perform 0 none (.addRoot "g"), .perform 0 (some "a") (.allocScope .lexical none)] ++
    before ++ [.perform 0 none (.addRoot "a"), idleStep]

/-- The program that goes on with so many turns of a slot, and then reads the scope that it has
rooted. -/
def rereadLate (turns : Nat) (before : List Step) : List Step :=
  rootLate before ++ List.replicate turns idleStep ++ [.perform 0 none (.readScope "a")]

/-- The workspace when the scope is rooted. -/
def rootedLate (before : List Step) : Workspace :=
  (runOn ⟨1000, 1000⟩ (rootLate before)).2

/-- What the program shows last is what the register names in the end. -/
theorem views_rereadLate {before : List Step} {index generation turns : Nat} {scope : ScopeId}
    {content : Scope}
    (hfaults : Answer.faultsAll (runOn ⟨1000, 1000⟩ (rootLate before)).1 = [])
    (h : (rootedLate before).heap.passed.collected.Pivots index)
    (hslot : (rootedLate before).heap.passed.collected.slots[index]? = some { generation })
    (hgeneration : generation < UInt32.size)
    (hroots : ∀ turn, turn + 1 < turns → ∀ ref ∈ (rootedLate before).heap.roots,
      ref.id ≠ ⟨index, (generation + turn) % UInt32.size⟩)
    (hfind : (rootedLate before).registers.find .scope "a" = .ok scope)
    (hread : ((rootedLate before).heap.turnedOver index generation turns).scope scope =
      .ok content) :
    Answer.faultsAll (runOn ⟨1000, 1000⟩ (rereadLate turns before)).1 = [] ∧
      ∃ first, shownOn ⟨1000, 1000⟩ (rereadLate turns before) =
        first ++ [.reply (Reply.scope content).view] := by
  obtain ⟨hafter, hquiet⟩ := runAll_turnover h hslot hgeneration hroots none
  have hresolve : Operation.resolve (rootedLate before).registers.find (.readScope "a") =
      .ok (.readScope scope) := by
    simp [Operation.resolve, hfind, bind, Except.bind, pure, Except.pure]
  obtain ⟨summary, events, hperform⟩ := @perform_of_resolve
    { rootedLate before with heap := (rootedLate before).heap.turnedOver index generation turns }
    _ _ hresolve none
  have hending : (Operation.run (.readScope scope)).ending
      ((rootedLate before).heap.turnedOver index generation turns) =
        (.ok (.scope content), (rootedLate before).heap.turnedOver index generation turns) := by
    rw [Operation.run, Action.ending_bind, Action.ending_read, hread]
    rfl
  dsimp only at hperform
  rw [hending] at hperform
  have hlast : (Step.runAll [.perform 0 none (.readScope "a")] none
      (Step.runAll (List.replicate turns idleStep) none (rootedLate before)).2).1 =
        [.single (.reply (.scope content)) summary events] := by
    rw [hafter]
    simp only [Step.runAll, Step.run, hperform]
  have hrun : (runOn ⟨1000, 1000⟩ (rereadLate turns before)).1 =
      (runOn ⟨1000, 1000⟩ (rootLate before)).1 ++
        (Step.runAll (List.replicate turns idleStep) none (rootedLate before)).1 ++
          [.single (.reply (.scope content)) summary events] := by
    simp only [runOn, runProgram, rereadLate, Step.runAll_append]
    exact congrArg _ hlast
  rw [shownOn, hrun]
  constructor
  · rw [Answer.faultsAll_append, Answer.faultsAll_append, hfaults, hquiet]
    rfl
  · have hlength : ((runOn ⟨1000, 1000⟩ (rootLate before)).1 ++
        (Step.runAll (List.replicate turns idleStep) none (rootedLate before)).1).length =
          (rootLate before ++ List.replicate turns idleStep).length := by
      simp [runOn, runProgram, Step.length_runAll]
    exact ⟨_, Step.viewsAll_append hlength _ _⟩

theorem untimeAll_rereadLate (turns : Nat) {before : List Step}
    (h : Step.untimeAll before = []) :
    Step.untimeAll (rereadLate turns []) = Step.untimeAll (rereadLate turns before) := by
  simp only [rereadLate, rootLate, Step.untimeAll_append, h, Step.untimeAll, List.append_nil]

/-- A scope that is rooted in time is read again. -/
theorem views_rereadLate_inTime :
    Answer.faultsAll (runOn ⟨1000, 1000⟩ (rereadLate (UInt32.size - 1) [])).1 = [] ∧
      ∃ first, shownOn ⟨1000, 1000⟩ (rereadLate (UInt32.size - 1) []) =
        first ++ [.reply (.scope { kind := .lexical, enclosing := none })] := by
  have hslot : (rootedLate []).heap.passed.collected.slots[2]? = some { generation := 1 } := by
    decide +kernel
  have hpivots : (rootedLate []).heap.passed.collected.Pivots 2 :=
    ⟨Heap.tidy_collected _, by decide +kernel, by decide +kernel, by decide +kernel,
      ⟨_, hslot, rfl⟩, by decide +kernel, by decide +kernel, by decide +kernel⟩
  have hroots : (rootedLate []).heap.roots = [.scope ⟨⟨0, 0⟩⟩, .scope ⟨⟨1, 0⟩⟩] := by
    decide +kernel
  have hfind : (rootedLate []).registers.find .scope "a" = .ok ⟨⟨1, 0⟩⟩ := by decide +kernel
  have hread : ((rootedLate []).heap.turnedOver 2 1 (UInt32.size - 1)).scope ⟨⟨1, 0⟩⟩ =
      .ok { kind := .lexical, enclosing := none } := by decide +kernel
  refine views_rereadLate (by decide +kernel) hpivots hslot (by decide) ?_ hfind hread
  intro turn _ ref href
  rw [hroots] at href
  rcases List.mem_pair.1 href with rfl | rfl <;> simp [CellRef.id]

/-- After a collection its address is rooted in vain, until a scope of another kind gets it. -/
theorem views_rereadLate_tooLate :
    Answer.faultsAll (runOn ⟨1000, 1000⟩
        (rereadLate (UInt32.size - 1) [.perform 0 none .collect])).1 = [] ∧
      ∃ first, shownOn ⟨1000, 1000⟩ (rereadLate (UInt32.size - 1) [.perform 0 none .collect]) =
        first ++ [.reply (.scope { kind := .global, enclosing := none })] := by
  have hslot : (rootedLate [.perform 0 none .collect]).heap.passed.collected.slots[1]? =
      some { generation := 2 } := by decide +kernel
  have hpivots : (rootedLate [.perform 0 none .collect]).heap.passed.collected.Pivots 1 :=
    ⟨Heap.tidy_collected _, by decide +kernel, by decide +kernel, by decide +kernel,
      ⟨_, hslot, rfl⟩, by decide +kernel, by decide +kernel, by decide +kernel⟩
  have hroots : (rootedLate [.perform 0 none .collect]).heap.roots =
      [.scope ⟨⟨0, 0⟩⟩, .scope ⟨⟨1, 0⟩⟩] := by decide +kernel
  have hfind : (rootedLate [.perform 0 none .collect]).registers.find .scope "a" =
      .ok ⟨⟨1, 0⟩⟩ := by decide +kernel
  have hread : ((rootedLate [.perform 0 none .collect]).heap.turnedOver 1 2
      (UInt32.size - 1)).scope ⟨⟨1, 0⟩⟩ = .ok { kind := .global, enclosing := none } := by
    decide +kernel
  refine views_rereadLate (by decide +kernel) hpivots hslot (by decide) ?_ hfind hread
  intro turn hturn ref href
  rw [hroots] at href
  rw [Nat.mod_eq_of_lt (by omega)]
  rcases List.mem_pair.1 href with rfl | rfl <;> simp [CellRef.id]; omega

/-- Two programs that differ in a collection, and neither is told of a lack of room or of a
stale reference. A sealed script that is collected before it is compared is not found, which
is no fault. And where the generations of a slot are used up a read finds another scope: one
program has rooted the first one in time, and in the other its address is issued again. -/
theorem timing_observed :
    (∃ steps steps', TimedApart ⟨1000, 1000⟩ steps steps' ∧
      shownOn ⟨1000, 1000⟩ steps ≠ shownOn ⟨1000, 1000⟩ steps') ∧
    ∃ steps steps', TimedApart ⟨1000, 1000⟩ steps steps' ∧
      ¬ List.Forall₂ StepResult.Agrees (shownOn ⟨1000, 1000⟩ steps)
        (shownOn ⟨1000, 1000⟩ steps') := by
  constructor
  · refine ⟨sealTwo ++ [.perform 0 none (.compareImages "a" "b")],
      sealTwo ++ [.perform 0 none .collect, .perform 0 none (.compareImages "a" "b")],
      ⟨rfl, by decide +kernel, by decide +kernel⟩, fun hsame => ?_⟩
    have hshared : (shownOn ⟨1000, 1000⟩
        (sealTwo ++ [.perform 0 none (.compareImages "a" "b")])).filterMap
          StepResult.comparison? = [true] := by decide +kernel
    rw [hsame] at hshared
    exact absurd hshared (by decide +kernel)
  · obtain ⟨hquiet, first, hviews⟩ := views_rereadLate_inTime
    obtain ⟨hquiet', first', hviews'⟩ := views_rereadLate_tooLate
    refine ⟨rereadLate (UInt32.size - 1) [],
      rereadLate (UInt32.size - 1) [.perform 0 none .collect],
      ⟨untimeAll_rereadLate _ rfl, fun error herror => ?_, fun error herror => ?_⟩,
      fun hagree => ?_⟩
    · rw [hquiet] at herror
      cases herror
    · rw [hquiet'] at herror
      cases herror
    · rw [hviews, hviews'] at hagree
      have hlast := List.forall₂_reverse_iff.2 hagree
      simp only [List.reverse_append, List.reverse_singleton, List.singleton_append] at hlast
      cases hlast with
      | cons hscope _ => cases hscope

end Workspace

end ScriptLinker
