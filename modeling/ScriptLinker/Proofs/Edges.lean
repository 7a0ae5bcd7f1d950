import ScriptLinker.Proofs.Enclosing
import ScriptLinker.Proofs.Materialization
import ScriptLinker.Proofs.Persistence
/-!
# Edges of what the roots reach

The references of a live script name live cells, whatever is done to a heap. A scope can
be left behind whose enclosing scope is gone, but no reference to it was handed out, so
that a client that passes only what it was handed out never roots it. That is kept by
every request: what a heap holds was handed out, and the scopes that were handed out are
in live ones. Each cell refers to cells that were placed before it, so that the scopes
around a scope come to an end.
-/

namespace ScriptLinker

namespace Heap

variable {heap after : Heap} {scope outer : ScopeId} {outers others : List ScopeId}

/-- The scopes around a scope, from the inside out, up to one that is in no other. -/
inductive Outers (heap : Heap) : ScopeId → List ScopeId → Prop where
  | outermost {scope : ScopeId} {content : Scope} : heap.scope scope = .ok content →
      content.enclosing = none → Outers heap scope []
  | inside {scope outer : ScopeId} {content : Scope} {outers : List ScopeId} :
      heap.scope scope = .ok content → content.enclosing = some outer →
      Outers heap outer outers → Outers heap scope (outer :: outers)

namespace Outers

theorem isLive (h : heap.Outers scope outers) : heap.isLive scope.id = true := by
  cases h with
  | outermost hscope _ => exact (isLive_iff heap _).2 ⟨_, (scope_eq_ok_iff _ _ _).1 hscope⟩
  | inside hscope _ _ => exact (isLive_iff heap _).2 ⟨_, (scope_eq_ok_iff _ _ _).1 hscope⟩

theorem eq (h : heap.Outers scope outers) (h' : heap.Outers scope others) : outers = others := by
  induction h generalizing others with
  | outermost hscope hnone =>
      cases h' with
      | outermost _ _ => rfl
      | inside hscope' hsome _ =>
          obtain rfl := Except.ok.inj (hscope.symm.trans hscope')
          cases hnone.symm.trans hsome
  | inside hscope hsome _ ih =>
      cases h' with
      | outermost hscope' hnone =>
          obtain rfl := Except.ok.inj (hscope.symm.trans hscope')
          cases hnone.symm.trans hsome
      | inside hscope' hsome' hrest =>
          obtain rfl := Except.ok.inj (hscope.symm.trans hscope')
          obtain rfl := Option.some.inj (hsome.symm.trans hsome')
          rw [ih hrest]

/-- The scopes around an outer scope are fewer. -/
theorem exists_of_mem (h : heap.Outers scope outers) (hmem : outer ∈ outers) :
    ∃ rest, heap.Outers outer rest ∧ rest.length < outers.length := by
  induction h with
  | outermost _ _ => simp at hmem
  | inside _ _ hrest ih =>
      rcases List.mem_cons.1 hmem with rfl | hmem
      · exact ⟨_, hrest, Nat.lt_succ_self _⟩
      · obtain ⟨rest, houters, hlt⟩ := ih hmem
        exact ⟨rest, houters, Nat.lt_succ_of_lt hlt⟩

/-- No scope is around itself. -/
theorem not_mem (h : heap.Outers scope outers) : scope ∉ outers := by
  intro hmem
  obtain ⟨rest, hrest, hlt⟩ := h.exists_of_mem hmem
  rw [h.eq hrest] at hlt
  exact lt_irrefl _ hlt

theorem nodup (h : heap.Outers scope outers) : (scope :: outers).Nodup := by
  induction h with
  | outermost _ _ => simp
  | inside hscope hsome hrest ih =>
      exact List.nodup_cons.2 ⟨(inside hscope hsome hrest).not_mem, ih⟩

theorem reaches (h : heap.Outers scope outers) (hscope : heap.Reaches scope.id) :
    ∀ outer ∈ outers, heap.Reaches outer.id := by
  induction h with
  | outermost _ _ => simp
  | inside hcontent hsome hrest ih =>
      have hedge := Edge.enclosing ((scope_eq_ok_iff _ _ _).1 hcontent) hsome
      have houter := Reaches.edge hscope hedge hrest.isLive
      exact List.forall_mem_cons.2 ⟨houter, ih houter⟩

theorem congr (h : heap.Outers scope outers) (hscope : after.scope scope = heap.scope scope)
    (houters : ∀ outer ∈ outers, after.scope outer = heap.scope outer) :
    after.Outers scope outers := by
  induction h with
  | outermost hcontent hnone => exact .outermost (hscope.trans hcontent) hnone
  | inside hcontent hsome _ ih =>
      obtain ⟨houter, hrest⟩ := List.forall_mem_cons.1 houters
      exact .inside (hscope.trans hcontent) hsome (ih houter hrest)

end Outers

/-- What the roots reach refers to live cells of the right kind, and the scopes around a
scope come to an end. -/
structure NoDangling (heap : Heap) : Prop where
  edge_found : ∀ id ref, heap.Reaches id → heap.Edge id ref → ∃ cell, heap.lookUp ref = .ok cell
  outers_end : ∀ scope content, heap.Reaches scope.id → heap.scope scope = .ok content →
    ∃ outers, heap.Outers scope outers ∧ (scope :: outers).Nodup ∧
      ∀ outer ∈ outers, heap.Reaches outer.id

namespace NoDangling

theorem edge_isLive (h : heap.NoDangling) {id : CellId} {ref : CellRef} (hid : heap.Reaches id)
    (hedge : heap.Edge id ref) : heap.isLive ref.id = true := by
  obtain ⟨cell, hcell⟩ := h.edge_found id ref hid hedge
  by_contra hstale
  rw [lookUp_of_not_live hstale] at hcell
  simp at hcell

/-- Making room leaves what the roots reach as it was. -/
theorem keeps (h : heap.NoDangling) (hkeeps : heap.Keeps after) : after.NoDangling := by
  refine ⟨fun id ref hid hedge => ?_, fun scope content hid hscope => ?_⟩
  · have hid' := (hkeeps.reaches_iff id).1 hid
    obtain ⟨cell, hcell, href⟩ := (edge_iff after id ref).1 hedge
    have hedge' := (edge_iff heap id ref).2 ⟨cell, hkeeps.cell?_of_cell? id cell hcell, href⟩
    have htarget := Reaches.edge hid' hedge' (h.edge_isLive hid' hedge')
    rw [lookUp_eq, hkeeps.cell? htarget, ← lookUp_eq]
    exact h.edge_found id ref hid' hedge'
  · have hid' := (hkeeps.reaches_iff scope.id).1 hid
    have hsame := scope_congr (hkeeps.cell? hid')
    obtain ⟨outers, houters, hnodup, hreached⟩ := h.outers_end scope content hid' (hsame ▸ hscope)
    refine ⟨outers, houters.congr hsame fun outer houter => ?_, hnodup, fun outer houter => ?_⟩
    · exact scope_congr (hkeeps.cell? (hreached outer houter))
    · exact (hkeeps.reaches_iff _).2 (hreached outer houter)

/-- A collection skips the stale roots, and no reference of a cell that the roots reach. -/
theorem skipped_mark (h : heap.NoDangling) : heap.mark.skipped = heap.stale heap.roots :=
  Heap.skipped_mark fun _ _ => h.edge_isLive

end NoDangling

variable {given : Set CellRef}

/-- The scope at an address, if there is one in another, is in a live one. -/
def Enclosed (id : CellId) (heap : Heap) : Prop :=
  ∀ content outer, heap.cell? id = some (.scope content) → content.enclosing = some outer →
    heap.isLive outer.id = true

variable {id : CellId}

theorem Enclosed.congr (h : Enclosed id heap) (hcells : ∀ id, after.cell? id = heap.cell? id) :
    Enclosed id after := by
  intro content outer hcell houter
  rw [isLive, hcells]
  exact h content outer (hcells id ▸ hcell) houter

/-- A move changes no scope and leaves everything alive. -/
theorem Enclosed.move (h : Enclosed id heap) (hmove : Move given heap after) :
    Enclosed id after := by
  rcases hmove.cell?_cases with hsame | ⟨script, found, changed, _, _, _, hcells⟩
  · exact h.congr hsame
  · intro content outer hcell houter
    rw [hcells] at hcell
    split at hcell
    · cases hcell
    · exact hmove.isLive_eq outer.id ▸ h content outer hcell houter

/-- A scope that a collection leaves was reached, and so is the one that it is in. -/
theorem Enclosed.collected (h : Enclosed id heap) : Enclosed id heap.collected := by
  intro content outer hcell houter
  have hold := cell?_of_cell?_collected hcell
  have hreached := (isLive_collected_iff heap id).1 ((isLive_iff _ id).2 ⟨_, hcell⟩)
  exact (isLive_collected_iff heap _).2
    (.edge hreached (.enclosing hold houter) (h content outer hold houter))

theorem Enclosed.passage (h : Enclosed id heap) (hpassage : Passage given heap after) :
    Enclosed id after :=
  hpassage.keep Enclosed.move Enclosed.collected h

theorem Enclosed.birth {issue : Issue} (h : Enclosed id heap) (hslots : heap.SlotsSound)
    (hbirth : Birth heap issue after) (hne : id ≠ issue.id) : Enclosed id after := by
  intro content outer hcell houter
  rw [hbirth.cell? hslots, if_neg hne] at hcell
  rw [isLive, hbirth.cell? hslots]
  split
  · rfl
  · exact h content outer hcell houter

end Heap

namespace Request

variable {heap : Heap} {request : Request}

/-- A request leaves a scope in a live one, if it was in one before and is not new. -/
theorem enclosed_next (hsound : heap.Sound) {id : CellId} (h : Heap.Enclosed id heap)
    (hold : ∀ issue, request.born? heap = some issue → id ≠ issue.id) :
    Heap.Enclosed id (request.next heap) := by
  rcases request.next_cases hsound with
    hpassage | ⟨_, issue, hborn, hpassage, hbirth⟩ | ⟨roots, free, hroots⟩
  · exact h.passage hpassage
  · exact (h.passage hpassage).birth (hsound.passage hpassage).slots hbirth (hold issue hborn)
  · rw [hroots]
    exact h.congr fun _ => rfl

/-- Only an allocation of a scope asks for one. -/
theorem eq_allocScope_of_asked {content : Scope} (h : request.asked? = some (.scope content)) :
    request = perform (.allocScope content.kind content.enclosing) := by
  cases request with
  | pushRoot | truncateRoots => simp [asked?] at h
  | perform operation =>
      cases operation with
      | allocScope kind enclosing =>
          obtain rfl := Cell.scope.inj (Option.some.inj h)
          rfl
      | atomize bytes =>
          obtain ⟨text, _, hcell⟩ := Option.map_eq_some_iff.1 h
          cases hcell
      | _ => simp [asked?, Operation.asked?] at h

/-- A scope is handed out only if the one that it is in was found. -/
theorem outer_isLive_of_allocScope {kind : ScopeKind} {outer : ScopeId} {reply : Reply}
    (h : (perform (.allocScope kind (some outer))).result heap = .ok reply) :
    ((perform (.allocScope kind (some outer))).next heap).isLive outer.id = true := by
  have hstate : (perform (.allocScope kind (some outer))).next heap =
      ((Heap.allocScope kind (some outer)).ending heap).2 := Action.state_ending_bind_pure _ _ _
  obtain ⟨scope, hscope, _⟩ := Action.ok_of_ending_bind_pure h
  rw [hstate]
  rw [Heap.ending_allocScope] at hscope ⊢
  cases hallocate : (Heap.allocate (.scope { kind, enclosing := some outer })
      Charge.scope).ending heap with
  | mk result after =>
      rw [hallocate] at hscope
      cases result with
      | error error => cases hscope
      | ok id =>
          dsimp only at hscope ⊢
          cases houter : after.scope outer with
          | error error => rw [houter] at hscope; cases hscope
          | ok content =>
              exact (Heap.isLive_iff _ _).2 ⟨_, (Heap.scope_eq_ok_iff _ _ _).1 houter⟩

end Request

namespace Issue

/-- Whether every cell was placed after the ones that it referred to then. -/
def Ordered : List Issue → Prop
  | [] => True
  | issue :: older => (∀ ref ∈ issue.cell.references, ref ∈ refs older) ∧ Ordered older

end Issue

namespace History

variable {history : History}

/-- The scope that a reference names was placed as it is. -/
theorem Sound.cell_of_scope (h : history.Sound) {issue : Issue} (hissue : issue ∈ history.issued)
    {content : Scope} (hcell : history.heap.cell? issue.id = some (.scope content)) :
    issue.cell = .scope content := by
  obtain ⟨found, hfound, hcontinues⟩ := h.coherent.cell_of_current issue hissue
    (Heap.generationAt_of_isLive ((Heap.isLive_iff _ _).2 ⟨_, hcell⟩)).symm
  obtain rfl := Option.some.inj (hcell.symm.trans hfound)
  cases hissued : issue.cell <;> rw [hissued] at hcontinues <;> cases hcontinues
  rfl

/-- A reference that was handed out and is not stale is of the kind of its cell. -/
theorem Sound.lookUp_eq_ok (h : history.Sound) {ref : CellRef} (href : ref ∈ history.returned)
    (hlive : history.heap.isLive ref.id = true) : ∃ cell, history.heap.lookUp ref = .ok cell := by
  obtain ⟨issue, hissue, rfl⟩ := h.returned_issued ref href
  rcases h.coherent.lookUp_of_issue hissue with ⟨cell, hcell, _⟩ | hstale
  · exact ⟨cell, hcell⟩
  · exact absurd hlive (Heap.not_live_of_lookUp hstale)

theorem Sound.scope_eq_ok (h : history.Sound) {scope : ScopeId}
    (href : .scope scope ∈ history.returned) (hlive : history.heap.isLive scope.id = true) :
    ∃ content, history.heap.scope scope = .ok content := by
  obtain ⟨cell, hcell⟩ := h.lookUp_eq_ok href hlive
  cases hscope : history.heap.scope scope with
  | error error => simp [Heap.lookUp, hscope, Except.map] at hcell
  | ok content => exact ⟨content, rfl⟩

/-- What a heap holds was handed out, the scopes that were handed out are in live ones, and
every cell was placed after the ones that it referred to. -/
structure Grounded (history : History) : Prop extends Sound history where
  unbroken : history.heap.Unbroken
  held_returned : ∀ ref, history.heap.Holds ref → ref ∈ history.returned
  scopes_enclosed : ∀ scope, .scope scope ∈ history.returned →
    Heap.Enclosed scope.id history.heap
  ordered : Issue.Ordered history.issued

theorem grounded_initial {heap : Heap} (h : heap.Initial) : Grounded { heap } := by
  refine ⟨sound_initial h, (Heap.Reachable.initial h).unbroken, fun ref href => ?_, by simp,
    trivial⟩
  obtain ⟨issue, hissue, _⟩ := (sound_initial h).coherent.held_issued ref href
  cases hissue

namespace Grounded

section Next

variable {request : Request}

theorem held_next (h : history.Grounded) (hadmits : history.Admits request) {ref : CellRef}
    (href : (request.next history.heap).Holds ref) : ref ∈ history.returned :=
  (Request.holds_cases h.heap href).elim (h.held_returned ref) (hadmits.refs_returned ref)

/-- A scope that is handed out as new is in the one that it was asked for in. -/
theorem enclosed_of_asked (h : history.Grounded) (hadmits : history.Admits request) {cell : Cell}
    {reply : Reply} (hasked : request.asked? = some cell)
    (hresult : request.result history.heap = .ok reply) {scope : ScopeId}
    (hscope : .scope scope ∈ reply.refs) :
    Heap.Enclosed scope.id (request.next history.heap) := by
  intro content outer hcell houter
  obtain ⟨issue, hissue, rfl, rfl⟩ := Request.answer_of_asked h.heap h.coherent hasked hresult
  have hid : issue.id = scope.id := Issue.id_eq_of_ref (List.mem_singleton.1 hscope).symm
  have hplaced := (h.toSound.next hadmits).cell_of_scope hissue (hid ▸ hcell)
  rw [hplaced] at hasked
  obtain rfl := Request.eq_allocScope_of_asked hasked
  rw [houter] at hresult ⊢
  exact Request.outer_isLive_of_allocScope hresult

/-- One that was handed out before is not new. -/
theorem enclosed_next (h : history.Grounded) (hadmits : history.Admits request)
    {scope : ScopeId} (hscope : .scope scope ∈ history.returned) :
    Heap.Enclosed scope.id (request.next history.heap) := by
  refine Request.enclosed_next h.heap (h.scopes_enclosed scope hscope) fun issue hborn => ?_
  obtain ⟨other, hother, href⟩ := h.returned_issued _ hscope
  have hid : other.id = scope.id := Issue.id_eq_of_ref href
  exact hid ▸ h.born_not_issued hadmits hborn other hother

theorem ordered_next (h : history.Grounded) (hadmits : history.Admits request) :
    Issue.Ordered (request.issuedAfter history.heap history.issued) := by
  have heffect := request.effect h.heap
  unfold Request.issuedAfter
  generalize request.next history.heap = after at heffect
  generalize request.born? history.heap = born at heffect ⊢
  cases heffect with
  | birth _ _ hknown =>
      refine ⟨fun ref href => ?_, h.ordered⟩
      exact h.returned_issued ref (hadmits.refs_returned ref (hknown ref href))
  | _ => exact h.ordered

theorem next (h : history.Grounded) (hadmits : history.Admits request) :
    (history.next request).Grounded where
  toSound := h.toSound.next hadmits
  unbroken := h.unbroken.next h.heap request
  held_returned := fun _ href => List.mem_append_right _ (h.held_next hadmits href)
  scopes_enclosed := fun scope hscope => by
    rcases List.mem_append.1 hscope with hnew | hold
    · rcases Request.handedOut_cases hnew with hheld | hpassed | ⟨_, _, hasked, hresult, hmem⟩
      · exact h.enclosed_next hadmits (h.held_returned _ hheld)
      · exact h.enclosed_next hadmits (hadmits.refs_returned _ hpassed)
      · exact h.enclosed_of_asked hadmits hasked hresult hmem
    · exact h.enclosed_next hadmits hold
  ordered := h.ordered_next hadmits

theorem run {later : History} (h : history.Grounded) (hrun : Run history later) :
    later.Grounded := by
  induction hrun with
  | refl => exact h
  | tail _ hstep ih =>
      obtain ⟨request, hadmits, rfl⟩ := hstep
      exact ih.next hadmits

end Next

/-- A scope that the roots reach was handed out: the reference under which it is held is one
of a scope, since it can be looked up. -/
theorem scope_returned (h : history.Grounded) {scope : ScopeId} {content : Scope}
    (hreached : history.heap.Reaches scope.id)
    (hscope : history.heap.scope scope = .ok content) : .scope scope ∈ history.returned := by
  obtain ⟨ref, hheld, hid⟩ := hreached.exists_held
  have href := h.held_returned ref hheld
  obtain ⟨cell, hcell⟩ := h.lookUp_eq_ok href (hid ▸ hreached.isLive)
  rw [Heap.lookUp_eq, hid, (Heap.scope_eq_ok_iff _ _ _).1 hscope] at hcell
  dsimp only at hcell
  split at hcell
  · rename_i hkind
    cases ref with
    | scope found =>
        obtain rfl : found = scope := congrArg ScopeId.mk hid
        exact href
    | atom | script => cases hkind
  · cases hcell

theorem edge_isLive (h : history.Grounded) {id : CellId} {ref : CellRef}
    (hreached : history.heap.Reaches id) (hedge : history.heap.Edge id ref) :
    history.heap.isLive ref.id = true := by
  obtain ⟨cell, hcell, href⟩ := (Heap.edge_iff _ id ref).1 hedge
  cases hedge with
  | enclosing hscope houter =>
      have hfound := (Heap.scope_eq_ok_iff _ ⟨id⟩ _).2 hscope
      exact h.scopes_enclosed _ (h.scope_returned hreached hfound) _ _ hscope houter
  | thing hscript _ _ =>
      obtain rfl := Option.some.inj (hscript.symm.trans hcell)
      exact h.unbroken id _ hscript _ href
  | atom hscript _ _ =>
      obtain rfl := Option.some.inj (hscript.symm.trans hcell)
      exact h.unbroken id _ hscript _ href

/-- The scopes around one that the roots reach come to an end, since each was placed before
the one that is in it. -/
theorem exists_outers (h : history.Grounded) {issued : List Issue}
    (hordered : Issue.Ordered issued) (hsubset : issued ⊆ history.issued) {scope : ScopeId}
    {content : Scope} (hissued : .scope scope ∈ Issue.refs issued)
    (hreached : history.heap.Reaches scope.id)
    (hscope : history.heap.scope scope = .ok content) :
    ∃ outers, history.heap.Outers scope outers := by
  induction issued generalizing scope content with
  | nil =>
      obtain ⟨_, hissue, _⟩ := hissued
      cases hissue
  | cons newest older ih =>
      obtain ⟨hrefs, holder⟩ := hordered
      have hrest := List.subset_of_cons_subset hsubset
      obtain ⟨issue, hissue, href⟩ := hissued
      rcases List.mem_cons.1 hissue with rfl | hissue
      · have hid : issue.id = scope.id := Issue.id_eq_of_ref href
        have hcell := (Heap.scope_eq_ok_iff _ _ _).1 hscope
        have hplaced := h.cell_of_scope (hsubset hissue) (hid ▸ hcell)
        cases houter : content.enclosing with
        | none => exact ⟨[], .outermost hscope houter⟩
        | some outer =>
            have hedge := Heap.Edge.enclosing hcell houter
            have hlive := h.edge_isLive hreached hedge
            have hreturned := h.held_returned _ (Or.inr (Or.inl ⟨_, hedge⟩))
            obtain ⟨content', hfound⟩ := h.scope_eq_ok hreturned hlive
            have hissued : .scope outer ∈ Issue.refs older :=
              hrefs _ (by simp [hplaced, Cell.references, houter])
            obtain ⟨outers, houters⟩ :=
              ih holder hrest hissued (.edge hreached hedge hlive) hfound
            exact ⟨outer :: outers, .inside hscope houter houters⟩
      · exact ih holder hrest ⟨issue, hissue, href⟩ hreached hscope

theorem noDangling (h : history.Grounded) : history.heap.NoDangling where
  edge_found := fun id ref hreached hedge =>
    h.lookUp_eq_ok (h.held_returned ref (Or.inr (Or.inl ⟨id, hedge⟩)))
      (h.edge_isLive hreached hedge)
  outers_end := fun scope content hreached hscope => by
    have hissued := h.returned_issued _ (h.scope_returned hreached hscope)
    obtain ⟨outers, houters⟩ :=
      h.exists_outers h.ordered (List.Subset.refl _) hissued hreached hscope
    exact ⟨outers, houters, houters.nodup, houters.reaches hreached⟩

end Grounded

end History

namespace Heap

/-- No collection meets an edge to a cell that is gone: what the roots reach refers to live
cells, also where room is made, and stale roots are all that a request can skip. -/
structure EdgeSafe (heap : Heap) : Prop where
  noDangling : heap.NoDangling
  noDangling_readied : ∀ bytes, heap.passed.NoDangling ∧ (heap.readied bytes).NoDangling
  skips_cases : ∀ request : Request,
    request.skips heap = [] ∨ request.skips heap = heap.stale heap.roots

theorem NoDangling.edgeSafe {heap : Heap} (h : heap.NoDangling) : heap.EdgeSafe where
  noDangling := h
  noDangling_readied := fun bytes =>
    ⟨h.keeps (keeps_passed heap), h.keeps (keeps_readied bytes heap)⟩
  skips_cases := fun request => h.skipped_mark ▸ request.skips_cases heap

end Heap

theorem Heap.Admitted.noDangling {heap : Heap} (h : heap.Admitted) : heap.NoDangling := by
  obtain ⟨start, history, hinitial, hrun, rfl⟩ := h
  exact ((History.grounded_initial hinitial).run hrun).noDangling

namespace History

theorem edgeSafe {start : Heap} (hinitial : start.Initial) {history : History}
    (hrun : Run { heap := start } history) : history.heap.EdgeSafe :=
  ((grounded_initial hinitial).run hrun).noDangling.edgeSafe

/-- On a heap that is passed only references that it has handed out, no edge of what the
roots reach ever dangles.

In every state what the roots reach refers to live cells of the kind that the reference
says, and the scopes around a scope are finitely many, all different, and end in one that is
in no other. So it is where a request makes room, before a collection and after it, and what
is skipped is the stale roots. A materialization, which allocates many times, does what
requests do that pass only references handed out before, in the heap and in what its
collections skip; the same holds in between, if no generation starts over. -/
theorem edges_never_dangle {start : Heap} (hinitial : start.Initial) {history : History}
    (hrun : Run { heap := start } history) :
    history.heap.EdgeSafe ∧
    ∀ context descriptor sourceLength, context.heap = history.heap →
      .scope context.globalScope ∈ history.returned →
        ∃ requests, history.Passes requests ∧
          (nextAll requests history).heap =
            ((Context.materialize descriptor sourceLength).ending context).2.heap ∧
          Request.skipsAll requests history.heap =
            (Context.materialize descriptor sourceLength).skips context ∧
          (∀ script,
            ((Context.materialize descriptor sourceLength).ending context).1 = .ok script →
              .script script ∈ (nextAll requests history).returned) ∧
          (Lasts requests history → ∀ first rest, requests = first ++ rest →
            Run history (nextAll first history) ∧ (nextAll first history).heap.EdgeSafe) := by
  refine ⟨edgeSafe hinitial hrun, ?_⟩
  intro context descriptor sourceLength hheap hscope
  obtain ⟨requests, hpasses, hafter, hskips, hmade⟩ :=
    exists_requests_of_materialize hheap hscope descriptor sourceLength
  refine ⟨requests, hpasses, hafter, hskips, hmade, fun hlasts first rest hrequests => ?_⟩
  have hadmits := (admitsAll_iff requests history).2 ⟨hpasses, hlasts⟩
  have hfirst := run_nextAll (admitsAll_of_append (hrequests ▸ hadmits))
  exact ⟨hfirst, edgeSafe hinitial (hrun.trans hfirst)⟩

/-- A rooted scope in another one, a root of a scope that is gone, and a scope that was left
behind in that one. -/
def leavingBehind : List Request :=
  [.perform (.allocScope .global none), .perform (.addRoot (.scope ⟨⟨0, 0⟩⟩)),
    .perform (.allocScope .lexical (some ⟨⟨0, 0⟩⟩)), .pushRoot (.scope ⟨⟨1, 0⟩⟩),
    .perform (.allocScope .global none), .perform .collect,
    .perform (.addRoot (.scope ⟨⟨2, 0⟩⟩)), .perform (.allocScope .lexical (some ⟨⟨2, 0⟩⟩))]

/-- The edge of the scope that was left behind dangles, and the roots do not reach it. A
collection skips the stale root, the scopes around the inner one come to an end, and a script
that is materialized with the outer one is built by requests. -/
theorem edges_never_dangle_leftBehind :
    ∃ history : History, Run { heap := .ofLimits ⟨1000, 1000⟩ } history ∧
      (history.heap.scope ⟨⟨2, 1⟩⟩ = .ok { kind := .lexical, enclosing := some ⟨⟨2, 0⟩⟩ } ∧
        history.heap.isLive ⟨2, 0⟩ = false ∧ ¬ history.heap.Reaches ⟨2, 1⟩) ∧
      (Request.perform .collect).skips history.heap = [⟨2, 0⟩] ∧
      (∃ outers, history.heap.Outers ⟨⟨1, 0⟩⟩ outers ∧ outers ≠ [] ∧ (⟨⟨1, 0⟩⟩ :: outers).Nodup) ∧
      ∃ requests, history.Passes requests ∧
        .script ⟨⟨3, 0⟩⟩ ∈ (nextAll requests history).returned := by
  have hrun : Run { heap := .ofLimits ⟨1000, 1000⟩ }
      (nextAll leavingBehind { heap := .ofLimits ⟨1000, 1000⟩ }) :=
    run_nextAll (by decide +kernel)
  obtain ⟨hsafe, hmaterialize⟩ := edges_never_dangle (.ofLimits _) hrun
  refine ⟨_, hrun, ⟨by decide +kernel, by decide +kernel, by decide +kernel⟩, ?_, ?_, ?_⟩
  · exact ((hsafe.skips_cases _).resolve_left (by decide +kernel)).trans (by decide +kernel)
  · have hscope : (nextAll leavingBehind { heap := .ofLimits ⟨1000, 1000⟩ }).heap.scope
        ⟨⟨1, 0⟩⟩ = .ok { kind := .lexical, enclosing := some ⟨⟨0, 0⟩⟩ } := by
      decide +kernel
    obtain ⟨outers, houters, hnodup, _⟩ :=
      hsafe.noDangling.outers_end ⟨⟨1, 0⟩⟩ _ (by decide +kernel) hscope
    refine ⟨outers, houters, ?_, hnodup⟩
    rintro rfl
    obtain ⟨hfound, hnone⟩ := houters
    cases hscope.symm.trans hfound
    cases hnone
  · let context : Context :=
      { heap := (nextAll leavingBehind { heap := .ofLimits ⟨1000, 1000⟩ }).heap
        globalScope := ⟨⟨0, 0⟩⟩, globalRoot := ⟨0⟩, options := {}, link := {} }
    obtain ⟨requests, hpasses, _, _, hmade, _⟩ := hmaterialize context
      { revision := .metadata, bytecode := [153], strings := [[120]] } 3 rfl (by decide +kernel)
    exact ⟨requests, hpasses, hmade _ (by decide +kernel)⟩

end History

end ScriptLinker
