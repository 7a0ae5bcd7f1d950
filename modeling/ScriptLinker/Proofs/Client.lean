import ScriptLinker.Proofs.GlobalScope
import ScriptLinker.Proofs.Records
import ScriptLinker.Proofs.Replies
/-!
# A context as a client of its heap

Building a script asks nothing of a heap that a client could not ask for request
by request, with the references it has been handed out. What such requests keep
is a `ClientInvariant`, and `ClientInvariant.ensures_build` says that a
construction keeps it too. One of them is to be reachable by requests, so what
holds of every reachable heap holds of the heap of a reachable context.
-/

namespace ScriptLinker

/-- The requests that fill a script, or intern a text for it. -/
inductive Request.Fills (script : ScriptId) : Request → Prop where
  | atomize (bytes : Bytes) : Fills script (.perform (.atomize bytes))
  | createThings (count : Nat) : Fills script (.perform (.createThings script count))
  | createAtoms (count : Nat) : Fills script (.perform (.createAtoms script count))
  | createImage (codeLength noteLength : Nat) :
      Fills script (.perform (.createImage script codeLength noteLength))
  | fillThings (scope : ScopeId) : Fills script (.perform (.fillThings script scope))
  | initAtom (index : Nat) (atom : AtomId) :
      Fills script (.perform (.initAtom script index atom))
  | patchImage (patch : ImagePatch) : Fills script (.perform (.patchImage script patch))
  | setFlags (flags : ScriptFlags) : Fills script (.perform (.setFlags script flags))
  | share : Fills script (.perform (.share script))

namespace Blueprint

/-- Fills and seals a shell. -/
def fill (blueprint : Blueprint) (globalScope : ScopeId) (script : ScriptId) :
    Action Heap HeapError ScriptId := do
  blueprint.buildThings globalScope script
  blueprint.buildAtoms script
  blueprint.buildImage script
  Heap.share script
  Action.note (.dataShared script)
  pure script

/-- A script is built as a rooted shell that is then filled. -/
theorem build_eq (blueprint : Blueprint) (globalScope : ScopeId) :
    blueprint.build globalScope = Heap.withRoots (do
      let script ← Heap.allocScript blueprint.extent
      Action.modify (Heap.pushRoot (.script script))
      Action.note (.shellAllocated script)
      blueprint.fill globalScope script) :=
  rfl

end Blueprint

namespace Heap

/-- What requests keep that pass only references from a list, while what they hand
out is added to it. -/
structure ClientInvariant (holds : List CellRef → Heap → Prop) : Prop where
  next : ∀ {returned : List CellRef} {heap : Heap} (request : Request), holds returned heap →
    (∀ ref ∈ request.refs, ref ∈ returned) →
    holds (request.handedOut heap ++ returned) (request.next heap)
  mono : ∀ {returned fewer : List CellRef} {heap : Heap}, holds returned heap →
    fewer ⊆ returned → holds fewer heap

/-- What a client invariant asks for, of the requests that fill one script only. -/
structure FillInvariant (script : ScriptId) (holds : List CellRef → Heap → Prop) : Prop where
  next : ∀ {returned : List CellRef} {heap : Heap} {request : Request}, request.Fills script →
    holds returned heap → (∀ ref ∈ request.refs, ref ∈ returned) →
    holds (request.handedOut heap ++ returned) (request.next heap)
  mono : ∀ {returned fewer : List CellRef} {heap : Heap}, holds returned heap →
    fewer ⊆ returned → holds fewer heap

/-- An action keeps a property of the heap, whether it succeeds or fails. -/
def Keeping {α : Type} (holds : Heap → Prop) (action : Action Heap HeapError α) (heap : Heap) :
    Prop :=
  action.Ensures heap (fun _ after => holds after) (fun _ after => holds after)

variable {heap : Heap} {α β : Type} {holds : List CellRef → Heap → Prop}
  {returned : List CellRef}

theorem keeping_iff (holds : Heap → Prop) (action : Action Heap HeapError α) (heap : Heap) :
    Keeping holds action heap ↔ holds (action.ending heap).2 := by
  unfold Keeping Action.Ensures
  cases action.ending heap with
  | mk result after => cases result <;> exact Iff.rfl

/-- A new part is installed. -/
theorem script_of_createPart {script : ScriptId} {part : ScriptPart} {bytes : Nat}
    {install : Script → Script} {after : Heap}
    (h : (createPart script part bytes install).ending heap = (.ok (), after)) :
    ∃ content, heap.script script = .ok content ∧
      after.script script = .ok (install content) := by
  rw [ending_createPart] at h
  cases hscript : heap.script script with
  | error error => simp [hscript] at h
  | ok content =>
      simp only [hscript] at h
      cases hmissing : content.requireMissing part with
      | error error => simp [hmissing] at h
      | ok done =>
          simp only [hmissing] at h
          cases hreserve : (reserve bytes).ending heap with
          | mk result ready =>
              cases result with
              | error error => simp [hreserve] at h
              | ok done =>
                  simp only [hreserve] at h
                  split at h
                  · rename_i hlive
                    obtain ⟨_, rfl⟩ := Prod.mk.inj h
                    have hcharged := script_charged_of_reserve hreserve hscript hlive
                    refine ⟨content, rfl, (script_eq_ok_iff _ _ _).2 ?_⟩
                    rw [cell?_setScript hcharged, if_pos rfl]
                  · simp at h

/-- An operation that answers with a reference hands it out. -/
theorem ensures_recorded_of_handedOut (holds : List CellRef → Record → Prop) {record : Record}
    {action : Action Heap HeapError α} {answer : α → CellRef} {operation : Operation Issued}
    (hrun : operation.run = action >>= fun value => pure (.cell (answer value)))
    (hnext : holds ((Request.perform operation).handedOut record.heap ++ returned)
      ((Request.perform operation).record record)) :
    (recorded action).Ensures record (fun value after => holds (answer value :: returned) after)
      (fun _ after => holds returned after) := by
  have hresult : (Request.perform operation).result record.heap =
      (action.ending record.heap).1.map fun value => .cell (answer value) := by
    rw [Request.result, Request.action, hrun, Action.ending_bind]
    cases action.ending record.heap with
    | mk result after => cases result <;> rfl
  have hrecord := (Request.perform operation).record_eq_of_bind_pure hrun record
  rw [hrecord, Request.handedOut, hresult] at hnext
  unfold Action.Ensures
  rw [ending_recorded] at hnext ⊢
  cases hending : action.ending record.heap with
  | mk result after =>
      rw [hending] at hnext
      cases result <;> exact hnext

/-- A new image is blank, so filling it is a patch that a client could ask for. -/
theorem ending_buildImage (blueprint : Blueprint) (script : ScriptId) (heap : Heap) :
    (blueprint.buildImage script).ending heap = (do
      createImage script blueprint.image.code.length blueprint.image.notes.length
      modifyImage script (ScriptImage.apply (.ofImage blueprint.image))
      setFlags script blueprint.flags : Action Heap HeapError Unit).ending heap := by
  unfold Blueprint.buildImage
  rw [Action.ending_bind, Action.ending_bind]
  cases hending : (createImage script blueprint.image.code.length
      blueprint.image.notes.length).ending heap with
  | mk result middle =>
      cases result with
      | error error => rfl
      | ok done =>
          obtain ⟨content, _, hscript⟩ := script_of_createPart hending
          have hpatched : ScriptImage.apply (.ofImage blueprint.image) (.blank
              blueprint.image.code.length blueprint.image.notes.length) = blueprint.image :=
            ScriptImage.apply_ofImage (by simp [ScriptImage.blank]) (by simp [ScriptImage.blank])
          have hcopied : (modifyImage script fun _ => blueprint.image).ending middle =
              (modifyImage script (ScriptImage.apply (.ofImage blueprint.image))).ending
                middle := by
            simp only [modifyImage, ending_updateScript, hscript, Script.ownedImage, bind,
              Except.bind, pure, Except.pure, hpatched]
          change ((modifyImage script fun _ => blueprint.image) >>= _).ending middle = _
          dsimp only
          rw [Action.ending_bind, hcopied, Action.ending_bind]
          cases (modifyImage script (ScriptImage.apply (.ofImage blueprint.image))).ending
              middle with
          | mk result copied =>
              cases result with
              | error error => rfl
              | ok done =>
                  dsimp only
                  rw [Action.ending_bind]
                  cases (setFlags script blueprint.flags).ending copied with
                  | mk result after => cases result <;> rfl

/-- A new image is filled without a collection, so that the same requests do for a record. -/
theorem ending_recorded_buildImage (blueprint : Blueprint) (script : ScriptId) (record : Record) :
    (recorded (blueprint.buildImage script)).ending record = (recorded do
      createImage script blueprint.image.code.length blueprint.image.notes.length
      modifyImage script (ScriptImage.apply (.ofImage blueprint.image))
      setFlags script blueprint.flags : Action Record HeapError Unit).ending record := by
  have hskips : (blueprint.buildImage script).skips record.heap = Action.skips (do
      createImage script blueprint.image.code.length blueprint.image.notes.length
      modifyImage script (ScriptImage.apply (.ofImage blueprint.image))
      setFlags script blueprint.flags) record.heap := by
    refine (Action.skips_bind_of_silent (fun _ => ?_) record.heap).trans
      (Action.skips_bind_of_silent (fun _ => ?_) record.heap).symm
    · exact (Action.silent_note rfl).bind fun _ => (silent_updateScript script _).bind fun _ =>
        (silent_updateScript script _).bind fun _ => Action.silent_note rfl
    · exact (silent_updateScript script _).bind fun _ => silent_updateScript script _
  rw [ending_recorded, ending_recorded, ending_buildImage, hskips]

/-- What requests of a kind keep that pass only references from a list, while what they
hand out is added to it. -/
structure RecordInvariant (asks : Request → Prop) (holds : List CellRef → Record → Prop) :
    Prop where
  next : ∀ {returned : List CellRef} {record : Record} {request : Request}, asks request →
    holds returned record → (∀ ref ∈ request.refs, ref ∈ returned) →
    holds (request.handedOut record.heap ++ returned) (request.record record)
  mono : ∀ {returned fewer : List CellRef} {record : Record}, holds returned record →
    fewer ⊆ returned → holds fewer record

/-- An action keeps a property of the record, whether it succeeds or fails. -/
def KeepingRecord (holds : Record → Prop) (action : Action Heap HeapError α) (record : Record) :
    Prop :=
  (recorded action).Ensures record (fun _ after => holds after) (fun _ after => holds after)

namespace RecordInvariant

variable {script : ScriptId} {asks : Request → Prop} {holds : List CellRef → Record → Prop}
  {record : Record}

theorem keep (hkept : RecordInvariant asks holds) (h : holds returned record) {request : Request}
    (hasks : asks request) (hrefs : ∀ ref ∈ request.refs, ref ∈ returned) :
    holds returned (request.record record) :=
  hkept.mono (hkept.next hasks h hrefs) (List.subset_append_right _ _)

/-- What a single request does. -/
theorem keeping (hkept : RecordInvariant asks holds) (h : holds returned record)
    {action : Action Heap HeapError α} {request : Request} (hasks : asks request)
    (hnext : request.record record = ((recorded action).ending record).2)
    (hrefs : ∀ ref ∈ request.refs, ref ∈ returned) :
    KeepingRecord (holds returned) action record := by
  have hafter := hkept.keep h hasks hrefs
  rw [hnext] at hafter
  unfold KeepingRecord Action.Ensures
  cases hending : (recorded action).ending record with
  | mk result after =>
      rw [hending] at hafter
      cases result <;> exact hafter

/-- Every atom is stored with the reference that was just handed out. -/
theorem keeping_internStrings (hkept : RecordInvariant asks holds)
    (hasks : ∀ {request}, Request.Fills script request → asks request)
    (hscript : .script script ∈ returned) (strings : List Bytes) :
    ∀ (index : Nat) {record : Record}, holds returned record →
      KeepingRecord (holds returned) (Blueprint.internStrings script index strings) record := by
  induction strings with
  | nil =>
      intro index record h
      exact ensures_recorded_of_silent (Action.silent_pure ()) h
  | cons string rest ih =>
      intro index record h
      have hatomize := hkept.next (hasks (.atomize string)) h (by simp [Request.refs,
        Operation.refs])
      refine ensures_recorded_bind (ensures_recorded_of_handedOut holds rfl hatomize)
        fun atom middle hmiddle => ?_
      have hstore : KeepingRecord (holds (.atom atom :: returned)) (initAtom script index atom)
          middle :=
        hkept.keeping hmiddle (hasks (.initAtom index atom))
          (Request.record_eq_of_bind_pure _ rfl _)
          (by simp [Request.refs, Operation.refs, hscript])
      have hforget : ∀ after, holds (.atom atom :: returned) after → holds returned after :=
        fun after hafter => hkept.mono hafter (List.subset_cons_self _ _)
      exact ensures_recorded_bind (hstore.mono (fun _ => hforget) fun _ => hforget)
        fun _ after hafter => ih (index + 1) hafter

variable {blueprint : Blueprint}

theorem keeping_buildThings (hkept : RecordInvariant asks holds)
    (hasks : ∀ {request}, Request.Fills script request → asks request)
    (h : holds returned record) (hplan : blueprint.plan = .ofGlobalScript)
    {globalScope : ScopeId} (hscope : .scope globalScope ∈ returned)
    (hmem : .script script ∈ returned) :
    KeepingRecord (holds returned) (blueprint.buildThings globalScope script) record := by
  unfold Blueprint.buildThings
  rw [hplan]
  refine ensures_recorded_bind (hkept.keeping h (hasks (.createThings _))
    (Request.record_eq_of_bind_pure _ rfl _) (by simp [Request.refs, Operation.refs, hmem]))
    fun _ created hcreated => ?_
  apply ensures_recorded_note_bind rfl
  refine ensures_recorded_bind (hkept.keeping hcreated (hasks (.fillThings globalScope))
    (Request.record_eq_of_bind_pure _ rfl _) (by simp [Request.refs, Operation.refs, hmem, hscope]))
    fun _ after hafter => ?_
  exact ensures_recorded_note rfl hafter

theorem keeping_buildAtoms (hkept : RecordInvariant asks holds)
    (hasks : ∀ {request}, Request.Fills script request → asks request)
    (h : holds returned record) (hmem : .script script ∈ returned) :
    KeepingRecord (holds returned) (blueprint.buildAtoms script) record := by
  refine ensures_recorded_bind (hkept.keeping h (hasks (.createAtoms _))
    (Request.record_eq_of_bind_pure _ rfl _) (by simp [Request.refs, Operation.refs, hmem]))
    fun _ created hcreated => ?_
  apply ensures_recorded_note_bind rfl
  refine ensures_recorded_bind (hkept.keeping_internStrings hasks hmem _ 0 hcreated)
    fun _ after hafter => ?_
  exact ensures_recorded_note rfl hafter

theorem keeping_buildImage (hkept : RecordInvariant asks holds)
    (hasks : ∀ {request}, Request.Fills script request → asks request)
    (h : holds returned record) (hmem : .script script ∈ returned) :
    KeepingRecord (holds returned) (blueprint.buildImage script) record := by
  have hrefs : ∀ ref ∈ [CellRef.script script], ref ∈ returned := by simp [hmem]
  have hpatch : ∀ record, (Request.perform (.patchImage script
      (.ofImage blueprint.image))).record record =
        ((recorded (modifyImage script (ScriptImage.apply (.ofImage blueprint.image)))).ending
          record).2 :=
    Request.record_eq _ rfl (fun _ => (Action.silent_read _).bind fun _ => Action.silent_pure _)
      fun _ _ => Action.state_ending_read_bind_pure _ _ _
  unfold KeepingRecord Action.Ensures
  rw [ending_recorded_buildImage]
  refine ensures_recorded_bind (hkept.keeping h (hasks (.createImage _ _))
    (Request.record_eq_of_bind_pure _ rfl _) hrefs) fun _ created hcreated => ?_
  refine ensures_recorded_bind (hkept.keeping hcreated (hasks (.patchImage _)) (hpatch _) hrefs)
    fun _ copied hcopied => ?_
  exact hkept.keeping hcopied (hasks (.setFlags _)) (Request.record_eq_of_bind_pure _ rfl _) hrefs

/-- A shell is filled and sealed by requests for it, which pass it and the global
scope. -/
theorem ensures_fill (hkept : RecordInvariant asks holds)
    (hasks : ∀ {request}, Request.Fills script request → asks request)
    (h : holds returned record) (hplan : blueprint.plan = .ofGlobalScript)
    {globalScope : ScopeId} (hscope : .scope globalScope ∈ returned)
    (hmem : .script script ∈ returned) :
    (recorded (blueprint.fill globalScope script)).Ensures record
      (fun made after => made = script ∧ holds returned after)
      (fun _ after => holds returned after) := by
  refine ensures_recorded_bind (hkept.keeping_buildThings hasks h hplan hscope hmem)
    fun _ filled hfilled => ?_
  refine ensures_recorded_bind (hkept.keeping_buildAtoms hasks hfilled hmem)
    fun _ interned hinterned => ?_
  refine ensures_recorded_bind (hkept.keeping_buildImage hasks hinterned hmem)
    fun _ copied hcopied => ?_
  refine ensures_recorded_bind (hkept.keeping hcopied (hasks .share)
    (Request.record_eq_of_bind_pure _ rfl _) (by simp [Request.refs, Operation.refs, hmem]))
    fun _ after hafter => ?_
  apply ensures_recorded_note_bind rfl
  exact ensures_recorded_of_silent (Action.silent_pure script) ⟨rfl, hafter⟩

/-- Building a script hands its reference out, and passes no others than the ones it got and
the global scope. Where a later stage fails, the reference of the script is forgotten. -/
theorem ensures_build (hkept : RecordInvariant asks holds) (hasks : ∀ request, asks request)
    (h : holds returned record) (hplan : blueprint.plan = .ofGlobalScript)
    {globalScope : ScopeId} (hscope : .scope globalScope ∈ returned) :
    (recorded (blueprint.build globalScope)).Ensures record
      (fun script after => holds (.script script :: returned) after)
      (fun _ after => holds returned after) := by
  have hsilent : ∀ change : Heap → Heap,
      (Action.modify change >>= fun _ => pure Reply.done : Action Heap HeapError Reply).Silent :=
    fun change => (Action.silent_modify change).bind fun _ => Action.silent_pure _
  have hdropped : ∀ {more : List CellRef} {after : Record}, holds more after →
      holds more { after with heap := after.heap.truncateRoots record.heap.rootStack.length } :=
    fun hafter => (Request.truncateRoots _).record_of_silent (hsilent _) _ ▸
      hkept.keep hafter (hasks (.truncateRoots _)) (by simp [Request.refs])
  rw [Blueprint.build_eq]
  refine ensures_recorded_withRoots ?_ (fun _ _ => hdropped) fun _ _ => hdropped
  have hshell := hkept.next (hasks (.perform (.allocScript blueprint.extent))) h
    (by simp [Request.refs, Operation.refs])
  refine ensures_recorded_bind (ensures_recorded_of_handedOut holds rfl hshell)
    fun script shell hshell => ?_
  have hmem : CellRef.script script ∈ CellRef.script script :: returned := List.mem_cons_self
  have hrooted : holds (.script script :: returned)
      { shell with heap := shell.heap.pushRoot (.script script) } :=
    (Request.pushRoot (.script script)).record_of_silent (hsilent _) _ ▸
      hkept.keep hshell (hasks (.pushRoot (.script script))) (by simp [Request.refs])
  have hfill := hkept.ensures_fill (fun _ => hasks _) hrooted hplan
    (List.mem_cons_of_mem _ hscope) hmem
  apply ensures_recorded_modify_bind
  apply ensures_recorded_note_bind rfl
  refine hfill.mono (fun made after => ?_) fun _ after hafter => ?_
  · rintro ⟨rfl, hafter⟩
    exact hafter
  · exact hkept.mono hafter (List.subset_cons_self _ _)

end RecordInvariant

theorem FillInvariant.recordInvariant {script : ScriptId} (hfill : FillInvariant script holds) :
    RecordInvariant (Request.Fills script) fun returned record => holds returned record.heap :=
  ⟨hfill.next, hfill.mono⟩

theorem ClientInvariant.recordInvariant (hclient : ClientInvariant holds) :
    RecordInvariant (fun _ => True) fun returned record => holds returned record.heap :=
  ⟨fun {_ _ request} _ => hclient.next request, hclient.mono⟩

theorem ClientInvariant.keep (hclient : ClientInvariant holds) (h : holds returned heap)
    (request : Request) (hrefs : ∀ ref ∈ request.refs, ref ∈ returned) :
    holds returned (request.next heap) :=
  hclient.mono (hclient.next request h hrefs) (List.subset_append_right _ _)

theorem ensures_of_handedOut {action : Action Heap HeapError α} {answer : α → CellRef}
    {operation : Operation Issued}
    (hrun : operation.run = action >>= fun value => pure (.cell (answer value)))
    (hnext : holds ((Request.perform operation).handedOut heap ++ returned)
      ((Request.perform operation).next heap)) :
    action.Ensures heap (fun value after => holds (answer value :: returned) after)
      (fun _ after => holds returned after) :=
  ensures_of_recorded <|
    ensures_recorded_of_handedOut (fun returned record => holds returned record.heap) hrun hnext

/-- What the requests that fill a script keep holds of the heap when it is filled. -/
theorem FillInvariant.ensures_fill {script : ScriptId} (hfill : FillInvariant script holds)
    (h : holds returned heap) {blueprint : Blueprint} (hplan : blueprint.plan = .ofGlobalScript)
    {globalScope : ScopeId} (hscope : .scope globalScope ∈ returned)
    (hmem : .script script ∈ returned) :
    (blueprint.fill globalScope script).Ensures heap
      (fun made after => made = script ∧ holds returned after)
      (fun _ after => holds returned after) :=
  ensures_of_recorded (hfill.recordInvariant.ensures_fill id h hplan hscope hmem)

theorem clientInvariant_reachable : ClientInvariant fun _ heap => heap.Reachable :=
  ⟨fun request h _ => h.request request, fun h _ => h⟩

end Heap

namespace Context

/-- What an empty heap has holds of the heap of a new context as well, for its
global scope. -/
theorem holds_of_ofConfig? {holds : List CellRef → Heap → Prop}
    (hclient : Heap.ClientInvariant holds) {config : EngineConfig} {context : Context}
    {events : List Event} (h : ofConfig? config = .ok (context, events))
    (hinitial : ∀ heap : Heap, heap.Initial → holds [] heap) :
    holds [.scope context.globalScope] context.heap := by
  obtain ⟨empty, hempty, hending⟩ := prepareHeap_of_ofConfig? h
  have hprepare : prepareHeap.Ensures empty
      (fun made after => holds [.scope made.1] after) (fun _ _ => True) := by
    have hscope := hclient.next (.perform (.allocScope .global none))
      (hinitial empty (.ofSettings hempty)) (by simp [Request.refs, Operation.refs])
    refine ((Heap.ensures_of_handedOut rfl hscope).mono (fun _ _ => id)
      fun _ _ _ => trivial).bind fun scope after hafter => ?_
    exact hclient.keep hafter (.perform (.addRoot (.scope scope)))
      (by simp [Request.refs, Operation.refs])
  exact hprepare.of_ok hending

/-- Only building the script can skip anything. -/
theorem skips_materialize (descriptor : Descriptor) (sourceLength : Nat) (context : Context) :
    (materialize descriptor sourceLength).skips context =
      match context.blueprint? descriptor sourceLength with
      | .error _ => []
      | .ok blueprint => (blueprint.build context.globalScope).skips context.heap := by
  unfold materialize
  rw [Action.skips_bind, Action.ending_get, Action.silent_get, List.nil_append]
  dsimp only
  rw [Action.skips_bind, Action.ending_ofExcept, Action.silent_ofExcept, List.nil_append]
  cases context.blueprint? descriptor sourceLength <;> rfl

/-- Building a script in a context asks its heap for what a client could, and skips what is
skipped then. -/
theorem ensures_materialize_record {asks : Request → Prop}
    {holds : List CellRef → Heap.Record → Prop} {returned : List CellRef}
    (hkept : Heap.RecordInvariant asks holds) (hasks : ∀ request, asks request)
    {context : Context} (skipped : List CellId) (h : holds returned ⟨context.heap, skipped⟩)
    (hscope : .scope context.globalScope ∈ returned) (descriptor : Descriptor)
    (sourceLength : Nat) :
    (materialize descriptor sourceLength).Ensures context
      (fun script after => holds (.script script :: returned)
        ⟨after.heap, skipped ++ (materialize descriptor sourceLength).skips context⟩)
      (fun _ after => holds returned
        ⟨after.heap, skipped ++ (materialize descriptor sourceLength).skips context⟩) := by
  unfold Action.Ensures
  rw [ending_materialize, skips_materialize]
  cases hblueprint : context.blueprint? descriptor sourceLength with
  | error error =>
      dsimp only
      rwa [List.append_nil]
  | ok blueprint =>
      have hbuild := hkept.ensures_build hasks h (Blueprint.plan_of_ofDescriptor? hblueprint) hscope
      unfold Action.Ensures at hbuild
      rw [Heap.ending_recorded] at hbuild
      dsimp only at hbuild ⊢
      cases hending : (blueprint.build context.globalScope).ending context.heap with
      | mk result after =>
          rw [hending] at hbuild
          cases result <;> exact hbuild

/-- Building a script in a context keeps a client invariant of its heap. -/
theorem ensures_materialize {holds : List CellRef → Heap → Prop} {returned : List CellRef}
    (hclient : Heap.ClientInvariant holds) {context : Context} (h : holds returned context.heap)
    (hscope : .scope context.globalScope ∈ returned) (descriptor : Descriptor)
    (sourceLength : Nat) :
    (materialize descriptor sourceLength).Ensures context
      (fun script after => holds (.script script :: returned) after.heap)
      (fun _ after => holds returned after.heap) :=
  ensures_materialize_record hclient.recordInvariant (fun _ => trivial) [] h hscope descriptor
    sourceLength

/-- The heap of a reachable context is reachable by requests. -/
theorem Reachable.heap_reachable {context : Context} (h : context.Reachable) :
    context.heap.Reachable := by
  have hclient := Heap.clientInvariant_reachable
  induction h with
  | start hstart => exact holds_of_ofConfig? hclient hstart fun _ => .initial
  | request request _ _ ih => exact ih.request request
  | @materialize context descriptor sourceLength _ ih =>
      have hbuild := ensures_materialize hclient ih
        (List.mem_singleton_self (CellRef.scope context.globalScope)) descriptor sourceLength
      unfold Action.Ensures at hbuild
      cases hending : (Context.materialize descriptor sourceLength).ending context with
      | mk result after =>
          rw [hending] at hbuild
          cases result <;> exact hbuild
  | setOptions options _ ih => exact ih
  | setSink sink _ ih => exact ih

end Context

end ScriptLinker
