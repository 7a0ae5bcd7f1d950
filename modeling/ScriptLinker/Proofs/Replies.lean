import ScriptLinker.Proofs.Coherence
import ScriptLinker.Proofs.Faults
/-!
# What requests answer

A reply can carry references and errors. On a heap that is coherent with the
cells placed on it, every reference handed out was issued for one of them, and a
request that passes issued references never answers that it met a cell of the
wrong kind.
-/

namespace ScriptLinker

/-- The references in a reply. -/
def Reply.refs : Reply → List CellRef
  | .cell ref => [ref]
  | .rooted ref => ref.toList
  | .script report => (Cell.script report.script).references
  | .scope content => (Cell.scope content).references
  | .stores entries => entries.map Prod.snd
  | _ => []

/-- The errors in a reply. -/
def Reply.faults : Reply → List HeapError
  | .script report => report.atomTexts.filterMap fun entry =>
    entry.bind fun pair =>
      match pair.2 with
      | .ok _ => none
      | .error error => some error
  | _ => []

namespace Request

/-- The references that a request hands out. -/
def handedOut (request : Request) (heap : Heap) : List CellRef :=
  match request.result heap with
  | .ok reply => reply.refs
  | .error _ => []

/-- The errors that a request answers with. -/
def faults (request : Request) (heap : Heap) : List HeapError :=
  match request.result heap with
  | .ok reply => reply.faults
  | .error error => [error]

end Request

namespace Heap

/-- A report is of the script that the reference names. -/
theorem report_eq_ok {heap : Heap} {script : ScriptId} {report : ScriptReport}
    (h : heap.report script = .ok report) :
    ∃ content, heap.script script = .ok content ∧
      report = ⟨content, content.atomSlots.map fun entry =>
        entry.map fun atom => (atom, heap.atom atom)⟩ := by
  unfold Heap.report at h
  cases hscript : heap.script script with
  | error fault => simp [hscript, bind, Except.bind] at h
  | ok content =>
      rw [hscript] at h
      exact ⟨content, rfl, (Except.ok.inj h).symm⟩

end Heap

namespace Request

variable {heap : Heap} {issued : List Issue} {request : Request}

theorem born?_of_allocate {cell : Cell} {id : CellId} (hasked : request.asked? = some cell)
    (hlacks : heap.lacks cell = true)
    (hallocate : ((Heap.allocate cell cell.charge).ending heap).1 = .ok id) :
    request.born? heap = some ⟨id, cell⟩ := by
  rw [born?, hasked, Option.bind_some, Heap.placed?, if_pos hlacks, hallocate]

theorem issuedAfter_of_allocate {cell : Cell} {id : CellId} (hasked : request.asked? = some cell)
    (hlacks : heap.lacks cell = true)
    (hallocate : ((Heap.allocate cell cell.charge).ending heap).1 = .ok id) :
    ⟨id, cell⟩ ∈ request.issuedAfter heap issued := by
  simp [issuedAfter, born?_of_allocate hasked hlacks hallocate]

/-- A text that has an atom already is answered with the reference that was issued
for it. -/
theorem answer_of_interned (hsound : heap.Sound) (h : heap.Coherent issued) {text : String}
    {atom : AtomId} (hfound : heap.internedAtom? text = some atom) :
    ∃ issue ∈ issued, CellRef.atom atom = issue.ref ∧ issue.cell = .atom text := by
  have hcell := (hsound.atoms.internedAtom?_eq_some_iff text atom).1 hfound
  obtain ⟨issue, hissue, hid, hcontinues⟩ := h.issue_of_cell? hcell
  have hissued : issue.cell = .atom text := by
    cases hcell' : issue.cell <;> rw [hcell'] at hcontinues <;> cases hcontinues
    rfl
  refine ⟨issue, hissue, ?_, hissued⟩
  rw [Issue.ref, hissued, hid]
  rfl

theorem answer_of_atomize (hsound : heap.Sound) (h : heap.Coherent issued) {bytes : Bytes}
    {text : String} {atom : AtomId} (hdecode : Utf8.decode? bytes = some text)
    (hatom : ((Heap.atomize bytes).ending heap).1 = .ok atom) :
    ∃ issue ∈ (perform (.atomize bytes)).issuedAfter heap issued,
      CellRef.atom atom = issue.ref ∧ issue.cell = .atom text := by
  rw [Heap.atomize, hdecode] at hatom
  dsimp only at hatom
  rw [Heap.ending_intern, hsound.atoms.filter_internedAtom?] at hatom
  cases hfound : heap.internedAtom? text with
  | some found =>
      rw [hfound] at hatom
      obtain rfl := Except.ok.inj hatom
      obtain ⟨issue, hissue, hanswer⟩ := answer_of_interned hsound h hfound
      exact ⟨issue, List.mem_append_right _ hissue, hanswer⟩
  | none =>
      rw [hfound] at hatom
      have hasked : (perform (.atomize bytes)).asked? = some (.atom text) :=
        congrArg (Option.map Cell.atom) hdecode
      have hlacks : heap.lacks (.atom text) = true := by
        rw [Heap.lacks, hsound.atoms.filter_internedAtom?, hfound]
        rfl
      cases hallocate : (Heap.allocate (.atom text) (Charge.atom text)).ending heap with
      | mk result after =>
          rw [hallocate] at hatom
          cases result with
          | error error => simp at hatom
          | ok id =>
              obtain rfl := Except.ok.inj hatom
              exact ⟨_, issuedAfter_of_allocate hasked hlacks (congrArg Prod.fst hallocate),
                rfl, rfl⟩

/-- A request for a cell that succeeds answers with a reference issued for such a
cell. -/
theorem answer_of_asked (hsound : heap.Sound) (h : heap.Coherent issued) {cell : Cell}
    {reply : Reply} (hasked : request.asked? = some cell)
    (hresult : request.result heap = .ok reply) :
    ∃ issue ∈ request.issuedAfter heap issued, reply = .cell issue.ref ∧ issue.cell = cell := by
  cases request with
  | pushRoot ref => simp [asked?] at hasked
  | truncateRoots count => simp [asked?] at hasked
  | perform operation =>
      unfold result action at hresult
      cases operation with
      | allocScope kind enclosing =>
          obtain rfl := Option.some.inj hasked
          obtain ⟨scope, hscope, rfl⟩ := Action.ok_of_ending_bind_pure hresult
          obtain ⟨id, hallocate, hrest⟩ := Action.ok_of_ending_bind hscope
          refine ⟨_, issuedAfter_of_allocate hasked rfl hallocate, ?_, rfl⟩
          have hid : scope = ⟨id⟩ := by
            cases enclosing with
            | none => simpa [eq_comm] using hrest
            | some outer =>
                obtain ⟨content, _, heq⟩ := Action.ok_of_ending_bind_pure hrest
                exact heq.symm
          rw [hid]
          rfl
      | allocScript extent =>
          obtain rfl := Option.some.inj hasked
          obtain ⟨script, hscript, rfl⟩ := Action.ok_of_ending_bind_pure hresult
          obtain ⟨id, hallocate, rfl⟩ := Action.ok_of_ending_bind_pure hscript
          exact ⟨_, issuedAfter_of_allocate hasked rfl hallocate, rfl, rfl⟩
      | atomize bytes =>
          obtain ⟨text, hdecode, rfl⟩ := Option.map_eq_some_iff.1 hasked
          obtain ⟨atom, hatom, rfl⟩ := Action.ok_of_ending_bind_pure hresult
          obtain ⟨issue, hissue, href, hcell⟩ := answer_of_atomize hsound h hdecode hatom
          exact ⟨issue, hissue, congrArg Reply.cell href, hcell⟩
      | _ => simp [asked?, Operation.asked?] at hasked

/-- The replies that carry references or errors, by the requests they answer. -/
inductive Answers (heap : Heap) : Request → Reply → Prop where
  | asked {request : Request} {reply : Reply} {cell : Cell} : request.asked? = some cell →
      Answers heap request reply
  | script {script : ScriptId} {report : ScriptReport} : heap.report script = .ok report →
      Answers heap (perform (.readScript script)) (.script report)
  | scope {scope : ScopeId} {content : Scope} : heap.scope scope = .ok content →
      Answers heap (perform (.readScope scope)) (.scope content)
  | root (root : RootId) : Answers heap (perform (.readRoot root)) (.rooted (heap.root? root))
  | stores : Answers heap (perform .readStores) (.stores heap.storeBuffer.toList)
  | thing (scope : ScopeId) : Answers heap (perform (.planThing scope)) (.cell (.scope scope))
  | other {request : Request} {reply : Reply} : reply.refs = [] → reply.faults = [] →
      Answers heap request reply

theorem answers_of_result {reply : Reply} (hresult : request.result heap = .ok reply) :
    Answers heap request reply := by
  cases request with
  | pushRoot | truncateRoots =>
      obtain ⟨_, _, rfl⟩ := Action.ok_of_ending_bind_pure hresult
      exact .other rfl rfl
  | perform operation =>
      unfold result action at hresult
      cases operation with
      | allocScope | allocScript => exact .asked rfl
      | atomize bytes =>
          cases hdecode : Utf8.decode? bytes with
          | some text => exact .asked (congrArg (Option.map Cell.atom) hdecode)
          | none =>
              obtain ⟨_, hatom, _⟩ := Action.ok_of_ending_bind_pure hresult
              simp [Heap.atomize, hdecode] at hatom
      | readScript script =>
          obtain ⟨report, hreport, rfl⟩ := Action.ok_of_ending_bind_pure hresult
          exact .script hreport
      | readScope scope =>
          obtain ⟨content, hcontent, rfl⟩ := Action.ok_of_ending_bind_pure hresult
          exact .scope hcontent
      | readRoot root => exact Except.ok.inj hresult ▸ .root root
      | readStores => exact Except.ok.inj hresult ▸ .stores
      | planThing scope =>
          obtain ⟨thing, hthing, rfl⟩ := Action.ok_of_ending_bind_pure hresult
          simp only [Action.ending_read, Heap.thingOf_emptyGlobalScope] at hthing
          cases hscope : heap.scope scope with
          | error fault => simp [hscope, Except.map] at hthing
          | ok content =>
              rw [hscope] at hthing
              exact Except.ok.inj hthing ▸ .thing scope
      | readAtom | createThings | createAtoms | createImage | initThing | initAtom | setFlags
      | share | fillThings | removeRoot | collect | setZeal | failAfter | recordStore =>
          obtain ⟨_, _, rfl⟩ := Action.ok_of_ending_bind_pure hresult
          exact .other rfl rfl
      | patchImage =>
          obtain ⟨_, _, hread⟩ := Action.ok_of_ending_bind hresult
          obtain ⟨_, _, rfl⟩ := Action.ok_of_ending_bind_pure hread
          exact .other rfl rfl
      | compareImages | askLive | addRoot | readPlan =>
          exact Except.ok.inj hresult ▸ .other rfl rfl

/-- What a request hands out was held or passed before, or it is a cell that was asked for. -/
theorem handedOut_cases {ref : CellRef} (href : ref ∈ request.handedOut heap) :
    heap.Holds ref ∨ ref ∈ request.refs ∨
      ∃ cell reply, request.asked? = some cell ∧ request.result heap = .ok reply ∧
        ref ∈ reply.refs := by
  unfold handedOut at href
  cases hresult : request.result heap with
  | error error => simp [hresult] at href
  | ok reply =>
      rw [hresult] at href
      dsimp only at href
      cases answers_of_result hresult with
      | asked hasked => exact Or.inr (Or.inr ⟨_, reply, hasked, rfl, href⟩)
      | @script script report hreport =>
          obtain ⟨content, hcontent, rfl⟩ := Heap.report_eq_ok hreport
          exact Or.inl (Or.inr (Or.inl ⟨script.id, (Heap.edge_iff _ _ _).2
            ⟨_, (Heap.script_eq_ok_iff _ _ _).1 hcontent, href⟩⟩))
      | @scope scope content hcontent =>
          exact Or.inl (Or.inr (Or.inl ⟨scope.id, (Heap.edge_iff _ _ _).2
            ⟨_, (Heap.scope_eq_ok_iff _ _ _).1 hcontent, href⟩⟩))
      | root root =>
          exact Or.inl (Or.inl ((Heap.mem_roots_iff heap ref).2
            (Or.inr ⟨root, Option.mem_toList.1 href⟩)))
      | stores =>
          obtain ⟨⟨owner, target⟩, hmem, rfl⟩ := List.mem_map.1 href
          exact Or.inl (Or.inr (Or.inr ⟨owner, Array.mem_toList_iff.1 hmem⟩))
      | thing scope =>
          obtain rfl := List.mem_singleton.1 href
          exact Or.inr (Or.inl (by simp [refs, Operation.refs]))
      | other hnone _ => simp [hnone] at href

/-- What a request hands out was issued. -/
theorem handedOut_issued (hsound : heap.Sound) (h : heap.Coherent issued)
    (hrefs : ∀ ref ∈ request.refs, ref ∈ Issue.refs issued) {ref : CellRef}
    (href : ref ∈ request.handedOut heap) :
    ref ∈ Issue.refs (request.issuedAfter heap issued) := by
  rcases handedOut_cases href with hheld | hpassed | ⟨cell, reply, hasked, hresult, hmem⟩
  · exact refs_subset_issuedAfter (h.held_issued ref hheld)
  · exact refs_subset_issuedAfter (hrefs ref hpassed)
  · obtain ⟨issue, hissue, rfl, _⟩ := answer_of_asked hsound h hasked hresult
    exact ⟨issue, hissue, (List.mem_singleton.1 hmem).symm⟩

end Request

namespace Heap

variable {heap : Heap} {issued : List Issue}

theorem lookUp_of_not_live {ref : CellRef} (h : ¬ heap.isLive ref.id = true) :
    heap.lookUp ref = .error (.staleReference ref.id) := by
  have hnone : heap.cell? ref.id = none := by
    simpa [isLive, Option.isSome_iff_ne_none] using h
  rw [lookUp_eq, hnone]

theorem not_live_of_lookUp {ref : CellRef} {id : CellId}
    (h : heap.lookUp ref = .error (.staleReference id)) : ¬ heap.isLive ref.id = true := by
  intro hlive
  obtain ⟨cell, hcell⟩ := (isLive_iff heap _).1 hlive
  rw [lookUp_eq, hcell] at h
  dsimp only at h
  split at h <;> simp at h

/-- An issued reference names what has become of its cell, or nothing. -/
theorem Coherent.lookUp_of_issue (h : heap.Coherent issued) {issue : Issue}
    (hissue : issue ∈ issued) :
    (∃ cell, heap.lookUp issue.ref = .ok cell ∧ issue.cell.Continues cell) ∨
      heap.lookUp issue.ref = .error (.staleReference issue.id) := by
  by_cases hlive : heap.isLive issue.id = true
  · obtain ⟨cell, hcell, hcontinues⟩ :=
      h.cell_of_current issue hissue (generationAt_of_isLive hlive).symm
    refine Or.inl ⟨cell, ?_, hcontinues⟩
    rw [lookUp_eq, Issue.id_ref, hcell, Issue.kind_ref]
    exact if_pos hcontinues.kind_eq
  · exact Or.inr (by rw [lookUp_of_not_live (by rwa [Issue.id_ref]), Issue.id_ref])

theorem Coherent.not_wrongKind (h : heap.Coherent issued) {ref : CellRef}
    (href : ref ∈ Issue.refs issued) {error : HeapError} (hfault : heap.lookUp ref = .error error) :
    error.isWrongKind = false := by
  obtain ⟨issue, hissue, rfl⟩ := href
  rcases h.lookUp_of_issue hissue with ⟨cell, hcell, _⟩ | hstale
  · rw [hcell] at hfault
    contradiction
  · rw [hstale] at hfault
    exact Except.error.inj hfault ▸ rfl

/-- The atoms that a report reads are of the right kind. -/
theorem Coherent.not_wrongKind_of_report (h : heap.Coherent issued) {script : ScriptId}
    {report : ScriptReport} (hreport : heap.report script = .ok report) {error : HeapError}
    (herror : error ∈ (Reply.script report).faults) : error.isWrongKind = false := by
  obtain ⟨content, hcontent, rfl⟩ := report_eq_ok hreport
  simp only [Reply.faults, List.mem_filterMap, List.mem_map] at herror
  obtain ⟨_, ⟨entry, hentry, rfl⟩, hfault⟩ := herror
  cases entry with
  | none => simp at hfault
  | some atom =>
      have hheld : heap.Holds (.atom atom) :=
        Or.inr (Or.inl ⟨script.id, (edge_iff _ _ _).2
          ⟨_, (script_eq_ok_iff _ _ _).1 hcontent, Cell.mem_references_of_atom hentry⟩⟩)
      apply h.not_wrongKind (h.held_issued _ hheld)
      rw [lookUp]
      cases hatom : heap.atom atom with
      | ok text => simp [hatom] at hfault
      | error fault =>
          simp only [Option.map_some, Option.bind_some, hatom, Option.some.injEq] at hfault
          rw [hfault]
          rfl

end Heap

namespace Request

variable {heap : Heap} {issued : List Issue} {request : Request}

/-- A request that passes only issued references never answers that it met a cell
of the wrong kind. -/
theorem not_wrongKind_of_faults (hsound : heap.Sound) (h : heap.Coherent issued)
    (hnext : (request.next heap).Coherent (request.issuedAfter heap issued))
    (hrefs : ∀ ref ∈ request.refs, ref ∈ Issue.refs issued) {error : HeapError}
    (herror : error ∈ request.faults heap) : error.isWrongKind = false := by
  unfold faults at herror
  cases hresult : request.result heap with
  | error fault =>
      rw [hresult] at herror
      obtain rfl := List.mem_singleton.1 herror
      by_contra hkind
      obtain ⟨ref, href, hlook⟩ := lookUp_of_wrongKind hresult (by simpa using hkind)
      rcases hlook with hbefore | hafter
      · exact hkind (h.not_wrongKind (hrefs ref href) hbefore)
      · exact hkind (hnext.not_wrongKind (refs_subset_issuedAfter (hrefs ref href)) hafter)
  | ok reply =>
      rw [hresult] at herror
      dsimp only at herror
      cases answers_of_result hresult with
      | asked hasked =>
          obtain ⟨issue, _, rfl, _⟩ := answer_of_asked hsound h hasked hresult
          simp [Reply.faults] at herror
      | script hreport => exact h.not_wrongKind_of_report hreport herror
      | other _ hnone => simp [hnone] at herror
      | _ => simp [Reply.faults] at herror

end Request

end ScriptLinker
