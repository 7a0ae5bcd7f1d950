import ScriptLinker.Proofs.Renaming
import ScriptLinker.Proofs.Replies
/-!
# The references in registers

A client that keeps its references in registers passes only what the registers hold,
and they hold only what replies brought.
-/

namespace ScriptLinker

/-- The references in what a register can hold. -/
def Issued.refs : (sort : RefSort) → Issued sort → List CellRef
  | .atom, atom => [.atom atom]
  | .scope, scope => [.scope scope]
  | .script, script => [.script script]
  | .cell, ref => [ref]
  | .root, _ => []

def Binding.ref? : Binding → Option CellRef
  | .cell ref => some ref
  | .root _ => none

namespace Registers

variable {registers : Registers} {name other : CellId → CellId} {ref : CellRef}

/-- The references in registers. -/
def refs (registers : Registers) : List CellRef :=
  registers.bindings.filterMap fun entry => entry.2.ref?

theorem rename_congr (h : ∀ ref ∈ registers.refs, other ref.id = name ref.id) :
    registers.rename other = registers.rename name := by
  refine congrArg Registers.mk (List.map_congr_left fun entry hentry => ?_)
  obtain ⟨register, binding⟩ := entry
  cases binding with
  | cell ref =>
      have hmem : ref ∈ registers.refs := List.mem_filterMap.2 ⟨_, hentry, rfl⟩
      simp [Binding.rename, CellRef.rename_congr (h ref hmem)]
  | root issued => rfl

theorem mem_refs_of_find? {register : String} (h : registers.find? register = some (.cell ref)) :
    ref ∈ registers.refs := by
  obtain ⟨before, after, hbindings, _⟩ := List.lookup_eq_some_iff.1 h
  exact List.mem_filterMap.2 ⟨(register, .cell ref), by simp [hbindings], rfl⟩

theorem mem_refs_of_find {sort : RefSort} {register : String} {issued : Issued sort}
    (h : registers.find sort register = .ok issued) (href : ref ∈ Issued.refs sort issued) :
    ref ∈ registers.refs := by
  unfold find at h
  cases hfind : registers.find? register with
  | none => simp [hfind] at h
  | some binding =>
      rw [hfind] at h
      cases binding with
      | root issued => cases sort <;> simp [issued?] at h; simp [Issued.refs] at href
      | cell target =>
          refine mem_refs_of_find? (hfind.trans ?_)
          cases sort <;> cases target <;> simp [issued?] at h <;> subst h <;>
            simp [Issued.refs] at href <;> rw [href]

theorem mem_refs_keep {register : Option String} {reply : Reply}
    (h : ref ∈ (registers.keep register reply).refs) : ref ∈ registers.refs ∨ ref ∈ reply.refs := by
  have hbind : ∀ {register : String} {binding : Binding},
      ref ∈ (registers.bind register binding).refs →
      ref ∈ registers.refs ∨ binding.ref? = some ref := by
    intro register binding hmem
    obtain ⟨entry, hentry, href⟩ := List.mem_filterMap.1 hmem
    rcases List.mem_cons.1 hentry with rfl | hold
    · exact Or.inr href
    · exact Or.inl (List.mem_filterMap.2 ⟨entry, (List.mem_filter.1 hold).1, href⟩)
  cases register with
  | none => exact Or.inl h
  | some register =>
      cases reply with
      | cell target =>
          refine (hbind h).imp_right fun heq => ?_
          exact List.mem_singleton.2 (Option.some.inj heq).symm
      | root issued => exact (hbind h).imp_right fun heq => by simp [Binding.ref?] at heq
      | _ => exact Or.inl h

end Registers

namespace Operation

variable {registers : Registers} {resolved : Operation Issued} {ref : CellRef}

/-- An operation on what one register holds. -/
theorem refs_of_find {sort : RefSort} {register : String}
    {make : Issued sort → Operation Issued}
    (h : (registers.find sort register >>= fun issued => pure (make issued)) = .ok resolved)
    (hmake : ∀ issued, (make issued).refs ⊆ Issued.refs sort issued) (href : ref ∈ resolved.refs) :
    ref ∈ registers.refs := by
  obtain ⟨issued, hfind, hrest⟩ := (bind_eq_ok_iff _ _ _).1 h
  obtain rfl := Except.ok.inj hrest
  exact Registers.mem_refs_of_find hfind (hmake issued href)

/-- An operation on what two registers hold. -/
theorem refs_of_find_two {sort sort' : RefSort} {register register' : String}
    {make : Issued sort → Issued sort' → Operation Issued}
    (h : (registers.find sort register >>= fun first =>
      registers.find sort' register' >>= fun second => pure (make first second)) = .ok resolved)
    (hmake : ∀ first second,
      (make first second).refs ⊆ Issued.refs sort first ++ Issued.refs sort' second)
    (href : ref ∈ resolved.refs) : ref ∈ registers.refs := by
  obtain ⟨first, hfirst, hmore⟩ := (bind_eq_ok_iff _ _ _).1 h
  obtain ⟨second, hsecond, hrest⟩ := (bind_eq_ok_iff _ _ _).1 hmore
  obtain rfl := Except.ok.inj hrest
  exact (List.mem_append.1 (hmake first second href)).elim
    (Registers.mem_refs_of_find hfirst) (Registers.mem_refs_of_find hsecond)

/-- An operation passes only references that are found in registers. -/
theorem refs_of_resolve {operation : Operation Named}
    (h : operation.resolve registers.find = .ok resolved) (href : ref ∈ resolved.refs) :
    ref ∈ registers.refs := by
  cases operation with
  | createThings | createAtoms | createImage | patchImage | setFlags | share | readScript
  | readAtom | readScope | planThing | askLive | addRoot =>
      exact refs_of_find h (fun _ => List.Subset.refl _) href
  | initThing | initAtom | compareImages | recordStore | fillThings =>
      exact refs_of_find_two h (fun _ _ => List.Subset.refl _) href
  | readRoot | removeRoot => exact refs_of_find h (fun _ => List.nil_subset _) href
  | allocScope kind enclosing =>
      cases enclosing with
      | none =>
          obtain rfl := Except.ok.inj h
          simp [refs] at href
      | some outer => exact refs_of_find h (fun _ => List.Subset.refl _) href
  | atomize | allocScript | collect | setZeal | failAfter | readStores | readPlan =>
      obtain rfl := Except.ok.inj h
      simp [refs] at href

end Operation

end ScriptLinker
