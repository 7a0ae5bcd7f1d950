import ScriptLinker.Proofs.Images
import ScriptLinker.Proofs.Transcript
/-!
# The things of a script that was built

A construction that succeeds has linked the script to the global scope it was given, on
any reachable heap: the scope was found when the one thing slot was filled, and nothing
after that touches the slot. Interning a string can collect, but the atom is stored in
the script next, so the script was not collected where the construction goes on.
-/

namespace ScriptLinker

/-- Heaps stay reachable under what comes down to requests. -/
theorem Transcript.ensures_reachable {α : Type} {action : Action Heap HeapError α}
    (transcript : Transcript action) {heap : Heap} (h : heap.Reachable) :
    action.Ensures heap (fun _ after => after.Reachable) fun _ after => after.Reachable := by
  have hafter : (action.ending heap).2.Reachable :=
    transcript.nextAll_requests heap ▸ h.nextAll _
  exact (Heap.keeping_iff Heap.Reachable action heap).2 hafter

namespace Heap

variable {heap after : Heap} {script : ScriptId} {things : List (Option CellRef)}

/-- A script is alive and holds these things. -/
def HasThings (things : List (Option CellRef)) (script : ScriptId) (heap : Heap) : Prop :=
  ∃ content, heap.script script = .ok content ∧ content.things = some things

/-- A store that succeeds installs the reference. -/
theorem script_of_storeRef {ref : CellRef} {install : Script → Except HeapError Script}
    {result : Unit} (h : (storeRef script ref install).ending heap = (.ok result, after)) :
    ∃ content changed, heap.script script = .ok content ∧ install content = .ok changed ∧
      after.script script = .ok changed := by
  rw [ending_storeRef] at h
  split at h
  · cases hscript : heap.script script with
    | error error => simp [hscript] at h
    | ok content =>
        rw [hscript] at h
        cases hinstall : install content with
        | error error => simp [hinstall] at h
        | ok changed =>
            simp only [hinstall] at h
            obtain rfl := (Prod.mk.inj h).2
            refine ⟨content, changed, rfl, hinstall, (script_eq_ok_iff _ _ _).2 ?_⟩
            exact (cell?_setScript hscript _ _).trans (if_pos rfl)
  · simp at h

/-- A script that is found after a text was interned is the one that was there. -/
theorem script_of_atomize (hsound : heap.Sound) {bytes : Bytes} {atom : AtomId}
    {content : Script} (h : (atomize bytes).ending heap = (.ok atom, after))
    (hscript : after.script script = .ok content) : heap.script script = .ok content := by
  unfold atomize at h
  cases hdecode : Utf8.decode? bytes with
  | none => simp [hdecode] at h
  | some text =>
      rw [hdecode] at h
      have hbearing := bearing_intern hsound text
      rw [show (intern text).ending heap = (.ok atom, after) from h] at hbearing
      rcases hbearing with ⟨⟨error, herror, _⟩, _⟩ | ⟨id, _, hbears⟩
      · cases herror
      · generalize heap.placed? (.atom text) = issue at hbears
        cases hbears with
        | found => exact hscript
        | placed hkeeps hready hbirth =>
            rw [script_eq_ok_iff, hbirth.cell? hready.slots] at hscript
            split at hscript
            · cases hscript
            · exact (script_eq_ok_iff _ _ _).2 (hkeeps.cell?_of_cell? _ _ hscript)

namespace HasThings

theorem createPart (h : HasThings things script heap) {install : Script → Script}
    (hinstall : ∀ content, (install content).things = content.things) (part : ScriptPart)
    (bytes : Nat) :
    (createPart script part bytes install).Ensures heap (fun _ => HasThings things script)
      fun _ _ => True := by
  refine Action.ensures_of_ok fun _ after hending => ?_
  obtain ⟨content, hscript, hthings⟩ := h
  obtain ⟨old, hold, hafter⟩ := script_of_createPart hending
  obtain rfl := Except.ok.inj (hscript.symm.trans hold)
  exact ⟨_, hafter, (hinstall content).trans hthings⟩

theorem createAtoms (h : HasThings things script heap) (count : Nat) :
    (Heap.createAtoms script count).Ensures heap (fun _ => HasThings things script)
      fun _ _ => True := by
  refine h.createPart ?_ _ _
  exact fun _ => rfl

theorem createImage (h : HasThings things script heap) (codeLength noteLength : Nat) :
    (Heap.createImage script codeLength noteLength).Ensures heap
      (fun _ => HasThings things script) fun _ _ => True := by
  refine h.createPart ?_ _ _
  exact fun _ => rfl

theorem updateScript (h : HasThings things script heap) {change : Script → Except HeapError Script}
    (hchange : ∀ content changed, change content = .ok changed →
      changed.things = content.things) :
    (updateScript script change).Ensures heap (fun _ => HasThings things script)
      fun _ _ => True := by
  refine Action.ensures_of_ok fun _ after hending => ?_
  obtain ⟨content, hscript, hthings⟩ := h
  obtain ⟨old, changed, hold, hchanged, hafter⟩ := script_of_updateScript hending
  obtain rfl := Except.ok.inj (hscript.symm.trans hold)
  exact ⟨_, hafter, (hchange content changed hchanged).trans hthings⟩

theorem share (h : HasThings things script heap) :
    (share script).Ensures heap (fun _ => HasThings things script) fun _ _ => True := by
  refine Action.ensures_of_ok fun _ after hending => ?_
  obtain ⟨content, hscript, hthings⟩ := h
  obtain ⟨old, object, hold, _, hafter⟩ := script_of_share hending
  obtain rfl := Except.ok.inj (hscript.symm.trans hold)
  exact ⟨_, hafter, hthings⟩

theorem buildImage (h : HasThings things script heap) (blueprint : Blueprint) :
    (blueprint.buildImage script).Ensures heap (fun _ => HasThings things script)
      fun _ _ => True := by
  refine (h.createImage _ _).bind fun _ created hcreated => ?_
  apply Action.ensures_note_bind
  refine (hcreated.updateScript fun content changed hchange => ?_).bind fun _ copied hcopied => ?_
  · obtain ⟨_, _, hpure⟩ := (bind_eq_ok_iff _ _ _).1 hchange
    exact Except.ok.inj hpure ▸ rfl
  · refine (hcopied.updateScript fun content changed hchange => ?_).bind fun _ _ hflagged => ?_
    · obtain ⟨_, rfl⟩ := (Script.setFlags_eq_ok_iff _ _ _).1 hchange
      rfl
    · exact Action.ensures_note _ hflagged

/-- A string that is interned and stored leaves the things as they were. -/
theorem internStrings (strings : List Bytes) : ∀ (index : Nat) {heap : Heap}, heap.Reachable →
    HasThings things script heap →
    (Blueprint.internStrings script index strings).Ensures heap
      (fun _ => HasThings things script) fun _ _ => True := by
  induction strings with
  | nil => exact fun _ _ _ h => Action.ensures_of_ok fun _ _ hending =>
      (Prod.mk.inj hending).2 ▸ h
  | cons string rest ih =>
      intro index heap hreachable ⟨content, hscript, hthings⟩
      have hinterned := Action.ensures_of_ok fun atom after
        (hending : (atomize string).ending heap = (.ok atom, after)) => hending
      refine hinterned.bind fun atom middle hmiddle => ?_
      have hmiddleReachable : middle.Reachable := by
        have hensures := (Transcript.perform (.atomize string) rfl).ensures_reachable hreachable
        exact hensures.of_ok hmiddle
      have hstored : (initAtom script index atom).Ensures middle
          (fun _ after => after.Reachable ∧ HasThings things script after) fun _ _ => True := by
        refine Action.ensures_of_ok fun _ after hending => ⟨?_, ?_⟩
        · have hensures :=
            (Transcript.perform (.initAtom script index atom) rfl).ensures_reachable
              hmiddleReachable
          exact hensures.of_ok hending
        · obtain ⟨old, changed, hold, hset, hafter⟩ := script_of_storeRef hending
          have hsame := script_of_atomize hreachable.sound hmiddle hold
          obtain rfl := Except.ok.inj (hscript.symm.trans hsame)
          obtain ⟨_, slots, _, _, rfl⟩ := (Script.setAtom_eq_ok_iff _ _ _ _).1 hset
          exact ⟨_, hafter, hthings⟩
      exact hstored.bind fun _ after hafter => ih (index + 1) hafter.1 hafter.2

theorem buildAtoms (h : HasThings things script heap) (hreachable : heap.Reachable)
    (blueprint : Blueprint) :
    (blueprint.buildAtoms script).Ensures heap (fun _ => HasThings things script)
      fun _ _ => True := by
  have hcreated : (Heap.createAtoms script blueprint.strings.length).Ensures heap
      (fun _ after => after.Reachable ∧ HasThings things script after) fun _ _ => True := by
    refine Action.ensures_of_ok fun _ after hending => ⟨?_, ?_⟩
    · have hensures := (Transcript.perform (.createAtoms script blueprint.strings.length)
        rfl).ensures_reachable hreachable
      exact hensures.of_ok hending
    · exact (h.createAtoms _).of_ok hending
  refine hcreated.bind fun _ created hthings => ?_
  apply Action.ensures_note_bind
  refine (internStrings blueprint.strings 0 hthings.1 hthings.2).bind fun _ after hafter => ?_
  exact Action.ensures_note _ hafter

end HasThings

/-- The slot of a top-level script is filled with the global scope. -/
theorem hasThings_of_fillThings (h : HasThings [none] script heap) (globalScope : ScopeId) :
    (fillThings .ofGlobalScript script globalScope).Ensures heap
      (fun _ => HasThings [some (.scope globalScope)] script) fun _ _ => True := by
  refine Action.ensures_of_ok fun _ after hending => ?_
  rw [ending_fillThings] at hending
  cases hscope : heap.scope globalScope with
  | error error => simp [hscope] at hending
  | ok scope =>
      rw [hscope] at hending
      obtain ⟨content, hscript, hcontent⟩ := h
      obtain ⟨old, changed, hold, hset, hafter⟩ := script_of_storeRef hending
      obtain rfl := Except.ok.inj (hscript.symm.trans hold)
      obtain ⟨_, slots, hslots, _, rfl⟩ := (Script.setThing_eq_ok_iff _ _ _ _).1 hset
      obtain rfl := Option.some.inj (hcontent.symm.trans hslots)
      exact ⟨_, hafter, rfl⟩

/-- The one thing of a top-level script is the global scope. -/
theorem hasThings_of_buildThings {blueprint : Blueprint}
    (hplan : blueprint.plan = .ofGlobalScript) (globalScope : ScopeId) (script : ScriptId)
    (heap : Heap) :
    (blueprint.buildThings globalScope script).Ensures heap
      (fun _ => HasThings [some (.scope globalScope)] script) fun _ _ => True := by
  have hcreated : (createThings script 1).Ensures heap (fun _ => HasThings [none] script)
      fun _ _ => True := by
    refine Action.ensures_of_ok fun _ after hending => ?_
    obtain ⟨content, _, hafter⟩ := script_of_createPart hending
    exact ⟨_, hafter, rfl⟩
  unfold Blueprint.buildThings
  rw [hplan, ThingPlan.length_ofGlobalScript]
  refine hcreated.bind fun _ created hthings => Action.ensures_note_bind _ ?_
  refine (hasThings_of_fillThings hthings globalScope).bind fun _ after hafter => ?_
  exact Action.ensures_note _ hafter

/-- A script that was built on a reachable heap holds its global scope, whatever roots
there were for that. -/
theorem hasThings_of_build {blueprint : Blueprint} (hplan : blueprint.plan = .ofGlobalScript)
    (h : heap.Reachable) (globalScope : ScopeId) :
    (blueprint.build globalScope).Ensures heap
      (fun script => HasThings [some (.scope globalScope)] script) fun _ _ => True := by
  rw [Blueprint.build_eq]
  refine ensures_withRoots ?_ (fun _ _ => id) fun _ _ => id
  have hshell := (Transcript.perform (.allocScript blueprint.extent) rfl).ensures_reachable h
  refine (hshell.mono (fun _ _ => id) fun _ _ _ => trivial).bind fun script shell hreachable => ?_
  refine Action.ensures_modify_bind (Action.ensures_note_bind _ ?_)
  have hpushed : (shell.pushRoot (.script script)).Reachable :=
    hreachable.request (.pushRoot (.script script))
  have hlinked : (blueprint.buildThings globalScope script).Ensures
      (shell.pushRoot (.script script)) (fun _ after => after.Reachable ∧
        HasThings [some (.scope globalScope)] script after) fun _ _ => True :=
    Action.ensures_of_ok fun _ after hending =>
      ⟨((blueprint.transcriptBuildThings script globalScope).ensures_reachable hpushed).of_ok
          hending,
        (hasThings_of_buildThings hplan globalScope script _).of_ok hending⟩
  refine hlinked.bind fun _ filled hfilled => ?_
  refine (hfilled.2.buildAtoms hfilled.1 blueprint).bind fun _ interned hinterned => ?_
  refine (hinterned.buildImage blueprint).bind fun _ copied hcopied => ?_
  exact hcopied.share.bind fun _ after hafter => Action.ensures_note_bind _ hafter

end Heap

namespace Context

/-- A script that was materialized holds the global scope of its context. -/
theorem hasThings_of_materialize {context after : Context} (h : context.heap.Reachable)
    {descriptor : Descriptor} {sourceLength : Nat} {script : ScriptId}
    (hmade : (materialize descriptor sourceLength).ending context = (.ok script, after)) :
    Heap.HasThings [some (.scope context.globalScope)] script after.heap := by
  obtain ⟨blueprint, hblueprint, hbuilt⟩ := build_of_materialize hmade
  have hplan := Blueprint.plan_of_ofDescriptor? hblueprint
  exact (Heap.hasThings_of_build hplan h context.globalScope).of_ok hbuilt

end Context

end ScriptLinker
