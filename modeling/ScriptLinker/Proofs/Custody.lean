import Mathlib.Data.List.Perm.Basic
import Mathlib.Data.String.Basic
import ScriptLinker.Proofs.GlobalScope
import ScriptLinker.Session.BridgeBench
/-!
# Where every stencil is

A counter is a front end with both of its customers: a bench that keeps guards
under names, and an engine that compiles scripts with its context. `Custody` is
what ought to be known about the stencils without looking at one: they are
numbered as they are made, a name keeps a number, and a number goes back. What a
counter does is followed by its custody, step by step: the released stencils are
those of the numbers that went back, the guards hold those of the numbers kept,
and every number is in one of the two places, once.
-/

namespace ScriptLinker

namespace Keyed

variable {κ α β : Type} [BEq κ]

theorem lookup_map (key : κ) (f : α → β) (pairs : List (κ × α)) :
    (pairs.map fun pair => (pair.1, f pair.2)).lookup key = (pairs.lookup key).map f := by
  induction pairs with
  | nil => rfl
  | cons pair rest ih =>
    rw [List.map_cons, List.lookup_cons, List.lookup_cons, ih]
    cases key == pair.1 <;> rfl

theorem nodup_erase {pairs : List (κ × α)} (h : (pairs.map Prod.fst).Nodup) (key : κ) :
    ((erase key pairs).map Prod.fst).Nodup :=
  h.sublist (List.filter_sublist.map _)

variable [LawfulBEq κ]

/-- Two lists in which no key stands twice are the same but for their order if every key
has the same value in both. -/
theorem perm_of_lookup {pairs others : List (κ × α)} (hpairs : (pairs.map Prod.fst).Nodup)
    (hothers : (others.map Prod.fst).Nodup) (h : ∀ key, pairs.lookup key = others.lookup key) :
    pairs.Perm others := by
  rw [List.perm_ext_iff_of_nodup (.of_map _ hpairs) (.of_map _ hothers)]
  rintro ⟨key, value⟩
  rw [← lookup_eq_some_iff_mem hpairs, ← lookup_eq_some_iff_mem hothers, h]

theorem nodup_put {pairs : List (κ × α)} (h : (pairs.map Prod.fst).Nodup) (key : κ)
    (value : α) : ((put key value pairs).map Prod.fst).Nodup := by
  refine List.nodup_cons.2 ⟨fun hmem => ?_, nodup_erase h key⟩
  obtain ⟨pair, hpair, hkey⟩ := List.mem_map.1 hmem
  simpa [hkey] using (List.mem_filter.1 hpair).2

theorem erase_eq_self {key : κ} {pairs : List (κ × α)} (h : pairs.lookup key = none) :
    erase key pairs = pairs := by
  refine List.filter_eq_self.2 fun pair hpair => ?_
  have hkey := List.lookup_eq_none_iff.1 h pair hpair
  simpa using Ne.symm (by simpa using hkey)

/-- What is erased under a key is what the key had. -/
theorem perm_lookup_erase {pairs : List (κ × α)} (h : (pairs.map Prod.fst).Nodup) (key : κ) :
    (pairs.map Prod.snd).Perm ((pairs.lookup key).toList ++ (erase key pairs).map Prod.snd) := by
  cases hlookup : pairs.lookup key with
  | none =>
      rw [erase_eq_self hlookup]
      rfl
  | some value =>
      have hput : pairs.Perm (put key value pairs) := by
        refine perm_of_lookup h (nodup_put h key value) fun other => ?_
        by_cases hother : other = key
        · rw [hother, lookup_put_self, hlookup]
        · rw [lookup_put_of_ne hother]
      exact hput.map Prod.snd

end Keyed

namespace BridgeBench

theorem lookup_insertGuard_of_ne {name other : String} (h : other ≠ name) (guard : Guard)
    (guards : List (String × Guard)) :
    (insertGuard name guard guards).lookup other = guards.lookup other := by
  induction guards with
  | nil => simp [insertGuard, List.lookup_cons, beq_eq_false_iff_ne.2 h]
  | cons entry rest ih =>
      unfold insertGuard
      split
      · rw [List.lookup_cons, beq_eq_false_iff_ne.2 h]
      · split
        · rename_i hname
          rw [List.lookup_cons, List.lookup_cons, beq_eq_false_iff_ne.2 h,
            beq_eq_false_iff_ne.2 (hname ▸ h)]
        · rw [List.lookup_cons, List.lookup_cons, ih]

theorem mem_insertGuard {name : String} {guard : Guard} {guards : List (String × Guard)}
    {entry : String × Guard} (h : entry ∈ insertGuard name guard guards) :
    entry = (name, guard) ∨ entry ∈ guards := by
  induction guards with
  | nil => simpa [insertGuard] using h
  | cons first rest ih =>
      unfold insertGuard at h
      split at h
      · simpa using h
      · split at h
        · exact (List.mem_cons.1 h).imp_right (List.mem_cons_of_mem _)
        · rcases List.mem_cons.1 h with rfl | hrest
          · exact Or.inr (List.mem_cons_self ..)
          · exact (ih hrest).imp_right (List.mem_cons_of_mem _)

/-- The guards stay in ascending order of their names. -/
theorem ascending_insertGuard {guards : List (String × Guard)}
    (h : guards.Pairwise (·.1 < ·.1)) (name : String) (guard : Guard) :
    (insertGuard name guard guards).Pairwise (·.1 < ·.1) := by
  induction guards with
  | nil => simp [insertGuard]
  | cons first rest ih =>
      obtain ⟨hfirst, hrest⟩ := List.pairwise_cons.1 h
      unfold insertGuard
      split
      · rename_i hlt
        refine List.pairwise_cons.2 ⟨fun entry hentry => ?_, h⟩
        rcases List.mem_cons.1 hentry with rfl | hentry
        · exact hlt
        · exact hlt.trans (hfirst entry hentry)
      · split
        · rename_i heq
          exact List.pairwise_cons.2 ⟨fun entry hentry => heq ▸ hfirst entry hentry, hrest⟩
        · rename_i hnot hne
          refine List.pairwise_cons.2 ⟨fun entry hentry => ?_, ih hrest⟩
          rcases mem_insertGuard hentry with rfl | hentry
          · exact lt_of_le_of_ne (not_lt.1 hnot) (Ne.symm hne)
          · exact hfirst entry hentry

variable {ε α : Type}

theorem ending_onLedger (action : Action FrontEnd.Ledger ε α) (bench : BridgeBench) :
    (onLedger action).ending bench =
      ((action.ending bench.ledger).1, { bench with ledger := (action.ending bench.ledger).2 }) :=
  rfl

/-- The ledger after the stencil of a guard has gone back, if there is one. -/
def takeBack (guard : Option Guard) (bench : BridgeBench) : BridgeBench :=
  { bench with
    ledger := { bench.ledger with
      released := bench.ledger.released ++ (guard.map Guard.stencil).toList } }

theorem ending_release (guard : Option Guard) (bench : BridgeBench) :
    (release guard : Action BridgeBench ε Unit).ending bench =
      (.ok (), bench.takeBack guard) := by
  cases guard with
  | none => simp [release, takeBack]
  | some guard => rfl

end BridgeBench

theorem Bridge.ending_compile {ε : Type} (bridge : Bridge) (source : Bytes)
    (options : CompileOptions) (ledger : FrontEnd.Ledger) :
    (bridge.compile source options : Action FrontEnd.Ledger ε Guard).ending ledger =
      (.ok ⟨bridge.frontEnd.compile source options⟩,
        enterCompiled source options (bridge.frontEnd.compile source options) ledger) := by
  obtain ⟨frontEnd, route⟩ := bridge
  cases route <;> rfl

namespace BridgeStep

/-- The bench that a step leaves. -/
def next (step : BridgeStep) (bench : BridgeBench) : BridgeBench :=
  ((step.run : Action BridgeBench Empty BridgeReply).ending bench).2

theorem next_compile (name : String) (source : Bytes) (parts : Stencil.Parts)
    (options : CompileOptions) (bench : BridgeBench) :
    (compile name source parts options).next bench =
      BridgeBench.takeBack (bench.guard? name)
        { bench with
          guards := BridgeBench.insertGuard name ⟨parts.toStencil⟩ bench.guards
          ledger := Bridge.enterCompiled source options parts.toStencil bench.ledger } := by
  unfold next run
  simp only [Action.ending_bind, Action.ending_get, BridgeBench.ending_onLedger,
    Bridge.ending_compile, Action.ending_modify, BridgeBench.ending_release, Action.ending_pure]
  rfl

theorem next_describe (name : String) (bench : BridgeBench) :
    (describe name).next bench = bench := by
  unfold next run
  rw [Action.ending_bind_of_ok (Action.ending_get bench)]
  cases bench.guard? name <;> rfl

theorem next_drop (name : String) (bench : BridgeBench) :
    (drop name).next bench = (bench.forgetGuard name).takeBack (bench.guard? name) := by
  unfold next run
  rw [Action.ending_bind_of_ok (Action.ending_get bench)]
  cases hguard : bench.guard? name with
  | none => simp [BridgeBench.forgetGuard, BridgeBench.takeBack, Keyed.erase_eq_self hguard]
  | some guard =>
      simp only [Action.ending_bind, Action.ending_modify, BridgeBench.ending_release,
        Action.ending_pure]

end BridgeStep

/-- A front end with both of its customers. -/
structure Counter where
  context : Context
  bench : BridgeBench

/-- What is done at a counter. -/
inductive Dealing where
  | onBench (step : BridgeStep)
  /-- The engine compiles a source, and reaches the front end by a way of its own. -/
  | compile (bridge : Bridge) (source : Bytes)
  /-- The engine does something else with its context. -/
  | elsewhere (change : Context → Context)

/-- Where the stencils are, by their numbers. -/
structure Custody where
  made : Nat := 0
  kept : List (String × Nat) := []
  returned : List Nat := []
  deriving DecidableEq, Inhabited

namespace Counter

def desk (counter : Counter) : Desk where
  context := counter.context
  ledger := counter.bench.ledger

def withDesk (desk : Desk) (counter : Counter) : Counter where
  context := desk.context
  bench := { counter.bench with ledger := desk.ledger }

end Counter

namespace Custody

/-- A stencil is made and kept under a name; the one kept there goes back. -/
def keep (name : String) (custody : Custody) : Custody where
  made := custody.made + 1
  kept := Keyed.put name custody.made custody.kept
  returned := custody.returned ++ (custody.kept.lookup name).toList

/-- The stencil kept under a name goes back. -/
def giveBack (name : String) (custody : Custody) : Custody :=
  { custody with
    kept := Keyed.erase name custody.kept
    returned := custody.returned ++ (custody.kept.lookup name).toList }

/-- A stencil is made and goes back at once. -/
def passThrough (custody : Custody) : Custody :=
  { custody with
    made := custody.made + 1
    returned := custody.returned ++ [custody.made] }

end Custody

namespace Dealing

def next : Dealing → Counter → Counter
  | onBench step, counter =>
    { counter with bench := step.next counter.bench }
  | compile bridge source, counter =>
    counter.withDesk ((Desk.compile bridge source).ending counter.desk).2
  | elsewhere change, counter => { counter with context := change counter.context }

def nextAll (dealings : List Dealing) (counter : Counter) : Counter :=
  dealings.foldl (fun counter dealing => dealing.next counter) counter

/-- A compilation of the engine brings its stencil back, whatever comes of it. -/
theorem bench_compile (bridge : Bridge) (source : Bytes) (counter : Counter) :
    ((compile bridge source).next counter).bench =
      let stencil := bridge.frontEnd.compile source counter.context.options
      { counter.bench with
        ledger := Guard.enterReleased ⟨stencil⟩
          (Bridge.enterCompiled source counter.context.options stencil counter.bench.ledger) } := by
  rw [next, Desk.ending_compile]
  rfl

/-- The stencil that a dealing has made, if it is a compilation. -/
def stencil? : Dealing → Counter → Option Stencil
  | onBench (.compile _ _ parts _), _ => some parts.toStencil
  | onBench (.describe _), _ | onBench (.drop _), _ | onBench (.probe _ _ _), _ => none
  | compile bridge source, counter => some (bridge.frontEnd.compile source counter.context.options)
  | elsewhere _, _ => none

def stencils : List Dealing → Counter → List Stencil
  | [], _ => []
  | dealing :: rest, counter =>
    (dealing.stencil? counter).toList ++ stencils rest (dealing.next counter)

/-- Where a dealing puts the stencils. -/
def follow : Dealing → Custody → Custody
  | onBench (.compile name _ _ _) => Custody.keep name
  | onBench (.drop name) => Custody.giveBack name
  | compile _ _ => Custody.passThrough
  | onBench (.describe _) | onBench (.probe _ _ _) | elsewhere _ => id

def followAll (dealings : List Dealing) (custody : Custody) : Custody :=
  dealings.foldl (fun custody dealing => dealing.follow custody) custody

/-- A name that is used again gives the older stencil back; the engine keeps none. -/
example (bridge : Bridge) (parts : Stencil.Parts) :
    followAll
      [.onBench (.compile "a" [] parts {}), .onBench (.compile "a" [] parts {}),
        .compile bridge [], .onBench (.compile "b" [] parts {}), .onBench (.drop "a")] {} =
      { made := 4, kept := [("b", 3)], returned := [0, 2, 1] } := by
  rfl

end Dealing

namespace Custody

/-- Every number made is in one of the two places, once. -/
structure Complete (custody : Custody) : Prop where
  names : (custody.kept.map Prod.fst).Nodup
  numbers : (custody.returned ++ custody.kept.map Prod.snd).Perm (List.range custody.made)

theorem Complete.keep {custody : Custody} (h : custody.Complete) (name : String) :
    (custody.keep name).Complete where
  names := Keyed.nodup_put h.names name custody.made
  numbers := by
    have hback := (Keyed.perm_lookup_erase h.names name).append_left custody.returned
    have hnumbers := (hback.symm.trans h.numbers).append_right [custody.made]
    simp only [Custody.keep, Keyed.put, List.map_cons, List.range_succ]
    refine List.Perm.trans ?_ hnumbers
    simpa using ((List.perm_append_singleton _ _).symm.append_left _).append_left custody.returned

theorem Complete.giveBack {custody : Custody} (h : custody.Complete) (name : String) :
    (custody.giveBack name).Complete where
  names := Keyed.nodup_erase h.names name
  numbers := by
    have hback := Keyed.perm_lookup_erase h.names name
    refine List.Perm.trans ?_ h.numbers
    simpa [Custody.giveBack] using (hback.append_left custody.returned).symm

theorem Complete.passThrough {custody : Custody} (h : custody.Complete) :
    custody.passThrough.Complete where
  names := h.names
  numbers := by
    simp only [Custody.passThrough, List.range_succ, List.append_assoc]
    exact List.perm_middle.trans ((h.numbers.cons _).trans (List.perm_append_singleton _ _).symm)

theorem Complete.follow {custody : Custody} (h : custody.Complete) (dealing : Dealing) :
    (dealing.follow custody).Complete := by
  cases dealing with
  | onBench step =>
      cases step with
      | compile name source parts options => exact h.keep name
      | describe name => exact h
      | drop name => exact h.giveBack name
      | probe source scripts modules => exact h
  | compile bridge source => exact h.passThrough
  | elsewhere change => exact h

theorem Complete.lt_made {custody : Custody} (h : custody.Complete) {number : Nat}
    (hnumber : number ∈ custody.returned ∨ number ∈ custody.kept.map Prod.snd) :
    number < custody.made :=
  List.mem_range.1 (h.numbers.mem_iff.1 (List.mem_append.2 hnumber))

/-- The stencils of a bench are where the custody says. -/
structure Describes (custody : Custody) (bench : BridgeBench) : Prop where
  ascending : bench.guards.Pairwise (·.1 < ·.1)
  made : custody.made = bench.ledger.compiled.length
  kept : ∀ name, (bench.guard? name).map (fun guard => some guard.stencil) =
    (custody.kept.lookup name).map (bench.ledger.compiled[·]?)
  returned : bench.ledger.released.map some = custody.returned.map (bench.ledger.compiled[·]?)

variable {custody : Custody} {bench : BridgeBench}

/-- A stencil made later does not change which one a number stands for. -/
theorem Describes.getElem?_append (h : custody.Describes bench) (hcomplete : custody.Complete)
    (stencil : Stencil) {number : Nat}
    (hnumber : number ∈ custody.returned ∨ number ∈ custody.kept.map Prod.snd) :
    (bench.ledger.compiled ++ [stencil])[number]? = bench.ledger.compiled[number]? :=
  List.getElem?_append_left (h.made ▸ hcomplete.lt_made hnumber)

theorem Describes.getElem?_made (h : custody.Describes bench) (stencil : Stencil) :
    (bench.ledger.compiled ++ [stencil])[custody.made]? = some stencil := by
  rw [h.made, List.getElem?_concat_length]

theorem Describes.map_returned (h : custody.Describes bench) (hcomplete : custody.Complete)
    (stencil : Stencil) :
    custody.returned.map ((bench.ledger.compiled ++ [stencil])[·]?) =
      bench.ledger.released.map some := by
  rw [h.returned]
  exact List.map_congr_left fun number hnumber =>
    h.getElem?_append hcomplete stencil (Or.inl hnumber)

theorem Describes.map_lookup (h : custody.Describes bench) (hcomplete : custody.Complete)
    (stencil : Stencil) (name : String) :
    (custody.kept.lookup name).map ((bench.ledger.compiled ++ [stencil])[·]?) =
      (bench.guard? name).map fun guard => some guard.stencil := by
  rw [h.kept]
  refine Option.map_congr fun number hnumber => ?_
  have hmem := (Keyed.lookup_eq_some_iff_mem hcomplete.names name number).1 hnumber
  exact h.getElem?_append hcomplete stencil (Or.inr (List.mem_map_of_mem hmem))

/-- What goes back for a name is what the custody says. -/
theorem map_toList_guard {compiled : List Stencil} {guard : Option Guard} {number : Option Nat}
    (h : number.map (compiled[·]?) = guard.map fun guard => some guard.stencil) :
    number.toList.map (compiled[·]?) = (guard.map Guard.stencil).toList.map some := by
  cases number <;> cases guard <;> simp_all

theorem Describes.keep (h : custody.Describes bench) (hcomplete : custody.Complete)
    (name : String) (source : Bytes) (parts : Stencil.Parts) (options : CompileOptions) :
    (custody.keep name).Describes ((BridgeStep.compile name source parts options).next bench) := by
  rw [BridgeStep.next_compile]
  refine ⟨BridgeBench.ascending_insertGuard h.ascending _ _, ?_, fun other => ?_, ?_⟩
  · simp [Custody.keep, BridgeBench.takeBack, Bridge.enterCompiled, h.made]
  · change ((BridgeBench.insertGuard name _ bench.guards).lookup other).map _ =
      ((Keyed.put name custody.made custody.kept).lookup other).map
        ((bench.ledger.compiled ++ [parts.toStencil])[·]?)
    by_cases hother : other = name
    · rw [hother, BridgeBench.lookup_insertGuard_self, Keyed.lookup_put_self]
      exact congrArg some (h.getElem?_made _).symm
    · rw [BridgeBench.lookup_insertGuard_of_ne hother, Keyed.lookup_put_of_ne hother]
      exact (h.map_lookup hcomplete _ other).symm
  · change (bench.ledger.released ++ _).map some =
      (custody.returned ++ (custody.kept.lookup name).toList).map
        ((bench.ledger.compiled ++ [parts.toStencil])[·]?)
    rw [List.map_append, List.map_append, h.map_returned hcomplete,
      map_toList_guard (h.map_lookup hcomplete _ name)]

theorem Describes.giveBack (h : custody.Describes bench) (name : String) :
    (custody.giveBack name).Describes ((BridgeStep.drop name).next bench) := by
  rw [BridgeStep.next_drop]
  refine ⟨h.ascending.filter _, h.made, fun other => ?_, ?_⟩
  · change ((Keyed.erase name bench.guards).lookup other).map _ =
      ((Keyed.erase name custody.kept).lookup other).map (bench.ledger.compiled[·]?)
    by_cases hother : other = name
    · rw [hother, Keyed.lookup_erase_self, Keyed.lookup_erase_self]
      rfl
    · rw [Keyed.lookup_erase_of_ne hother, Keyed.lookup_erase_of_ne hother]
      exact h.kept other
  · change (bench.ledger.released ++ _).map some =
      (custody.returned ++ (custody.kept.lookup name).toList).map (bench.ledger.compiled[·]?)
    rw [List.map_append, List.map_append, h.returned, map_toList_guard (h.kept name).symm]

theorem Describes.passThrough (h : custody.Describes bench) (hcomplete : custody.Complete)
    (stencil : Stencil) (source : Bytes) (options : CompileOptions) :
    custody.passThrough.Describes
      { bench with
        ledger := Guard.enterReleased ⟨stencil⟩
          (Bridge.enterCompiled source options stencil bench.ledger) } := by
  refine ⟨h.ascending, ?_, fun name => (h.map_lookup hcomplete stencil name).symm, ?_⟩
  · simp [Custody.passThrough, Guard.enterReleased, Bridge.enterCompiled, h.made]
  · change (bench.ledger.released ++ [stencil]).map some =
      (custody.returned ++ [custody.made]).map ((bench.ledger.compiled ++ [stencil])[·]?)
    rw [List.map_append, List.map_append, h.map_returned hcomplete]
    simp [h.getElem?_made]

theorem Describes.next {counter : Counter} (h : custody.Describes counter.bench)
    (hcomplete : custody.Complete) (dealing : Dealing) :
    (dealing.follow custody).Describes (dealing.next counter).bench := by
  cases dealing with
  | onBench step =>
      cases step with
      | compile name source parts options => exact h.keep hcomplete name source parts options
      | describe name =>
          rw [Dealing.next, BridgeStep.next_describe]
          exact h
      | drop name => exact h.giveBack name
      | probe source scripts modules => exact h
  | compile bridge source =>
      rw [Dealing.bench_compile]
      exact h.passThrough hcomplete _ source counter.context.options
  | elsewhere change => exact h

theorem Describes.nextAll {counter : Counter} (h : custody.Describes counter.bench)
    (hcomplete : custody.Complete) (dealings : List Dealing) :
    (Dealing.followAll dealings custody).Complete ∧
      (Dealing.followAll dealings custody).Describes (Dealing.nextAll dealings counter).bench := by
  induction dealings generalizing custody counter with
  | nil => exact ⟨hcomplete, h⟩
  | cons dealing rest ih => exact ih (h.next hcomplete dealing) (hcomplete.follow dealing)

/-- What went back and what is kept are together what was made. -/
theorem Describes.perm_compiled (h : custody.Describes bench) (hcomplete : custody.Complete) :
    (bench.ledger.released ++ bench.guards.map fun entry => entry.2.stencil).Perm
      bench.ledger.compiled := by
  have hkept : (bench.guards.map fun entry => (entry.1, some entry.2.stencil)).Perm
      (custody.kept.map fun entry => (entry.1, bench.ledger.compiled[entry.2]?)) := by
    refine Keyed.perm_of_lookup ?_ ?_ fun name => ?_
    · rw [List.map_map]
      exact List.pairwise_map.2 (h.ascending.imp ne_of_lt)
    · rw [List.map_map]
      exact hcomplete.names
    · rw [Keyed.lookup_map name fun guard : Guard => some guard.stencil, Keyed.lookup_map]
      exact h.kept name
  have hall : ((bench.ledger.released ++ bench.guards.map fun entry => entry.2.stencil).map
      some).Perm
      ((custody.returned ++ custody.kept.map Prod.snd).map (bench.ledger.compiled[·]?)) := by
    rw [List.map_append, List.map_append, h.returned]
    simpa [Function.comp_def] using (hkept.map Prod.snd).append_left _
  have hrange : (List.range bench.ledger.compiled.length).map (bench.ledger.compiled[·]?) =
      bench.ledger.compiled.map some :=
    List.ext_getElem (by simp) fun index _ _ => by simp
  refine (List.map_perm_map_iff (Option.some_injective _)).1 (hall.trans ?_)
  rw [← hrange, ← h.made]
  exact hcomplete.numbers.map _

end Custody

namespace Dealing

theorem compiled_next (dealing : Dealing) (counter : Counter) :
    (dealing.next counter).bench.ledger.compiled =
      counter.bench.ledger.compiled ++ (dealing.stencil? counter).toList := by
  cases dealing with
  | onBench step =>
      cases step with
      | compile name source parts options => rw [next, BridgeStep.next_compile]; rfl
      | describe name => rw [next, BridgeStep.next_describe]; exact (List.append_nil _).symm
      | drop name => rw [next, BridgeStep.next_drop]; exact (List.append_nil _).symm
      | probe source scripts modules => exact (List.append_nil _).symm
  | compile bridge source => rw [bench_compile]; rfl
  | elsewhere change => exact (List.append_nil _).symm

/-- The compiled stencils are those that the dealings made, in their order. -/
theorem compiled_nextAll (dealings : List Dealing) (counter : Counter) :
    (nextAll dealings counter).bench.ledger.compiled =
      counter.bench.ledger.compiled ++ stencils dealings counter := by
  induction dealings generalizing counter with
  | nil => exact (List.append_nil _).symm
  | cons dealing rest ih =>
      change (nextAll rest (dealing.next counter)).bench.ledger.compiled = _
      rw [ih, compiled_next, stencils, List.append_assoc]

end Dealing

/-- When all guards are dropped, their stencils go back, first name first. -/
theorem BridgeBench.ending_releaseAll (bench : BridgeBench) :
    (releaseAll : Action BridgeBench Empty Unit).ending bench =
      (.ok (), { bench with
        guards := []
        ledger := { bench.ledger with
          released :=
            bench.ledger.released ++ bench.guards.map fun entry => entry.2.stencil } }) := by
  have hall : ∀ (guards : List (String × Guard)) (bench : BridgeBench),
      (guards.forM fun entry => onLedger entry.2.release :
        Action BridgeBench Empty Unit).ending bench =
      (.ok (), { bench with
        ledger := { bench.ledger with
          released := bench.ledger.released ++ guards.map fun entry => entry.2.stencil } }) := by
    intro guards
    induction guards with
    | nil => intro bench; simp [List.forM_nil]
    | cons entry rest ih =>
        intro bench
        refine (Action.ending_bind_of_ok (ending_release (some entry.2) bench) _).trans ?_
        rw [ih]
        simp [takeBack]
  unfold releaseAll
  rw [Action.ending_bind_of_ok (Action.ending_get bench),
    Action.ending_bind_of_ok (hall bench.guards bench)]
  rfl

/-- Every stencil that a front end has made is kept by one guard or has gone back once.
The stencils are numbered in the order they were made: the released ones are those of
the numbers that went back, and a name keeps the one it was last compiled under. Reading
and probing leave all as it is, a drop gives back what its guard held, a compilation of
the engine gives back what it made, and when the guards are dropped nothing is missing. -/
theorem Counter.returned_once (context : Context) (route : Route) (dealings : List Dealing) :
    let before : Counter := ⟨context, { route }⟩
    let after := Dealing.nextAll dealings before
    let custody := Dealing.followAll dealings {}
    let ledger := after.bench.ledger
    ledger.compiled = Dealing.stencils dealings before ∧
      ledger.released.map some = custody.returned.map (ledger.compiled[·]?) ∧
      (∀ name, (after.bench.guard? name).map (fun guard => some guard.stencil) =
        (custody.kept.lookup name).map (ledger.compiled[·]?)) ∧
      (custody.returned ++ custody.kept.map Prod.snd).Perm
        (List.range ledger.compiled.length) ∧
      (ledger.released ++ after.bench.guards.map fun entry => entry.2.stencil).Perm
        ledger.compiled ∧
      ledger.compiled.length = ledger.released.length + after.bench.guards.length ∧
      (∀ name, (Dealing.onBench (.describe name)).next after = after) ∧
      (∀ source scripts modules,
        (Dealing.onBench (.probe source scripts modules)).next after = after) ∧
      (∀ name, ((Dealing.onBench (.drop name)).next after).bench.ledger =
        { ledger with
          released := ledger.released ++ ((after.bench.guard? name).map Guard.stencil).toList }) ∧
      (∀ bridge source,
        let stencil := bridge.frontEnd.compile source after.context.options
        ((Dealing.compile bridge source).next after).bench.ledger =
          { compiled := ledger.compiled ++ [stencil]
            released := ledger.released ++ [stencil]
            last := some (source, after.context.options) }) ∧
      let closed := ((BridgeBench.releaseAll :
        Action BridgeBench Empty Unit).ending after.bench).2
      closed.guards = [] ∧ closed.ledger.compiled = ledger.compiled ∧
        closed.ledger.released.Perm ledger.compiled := by
  intro before after custody ledger
  have hstart : Custody.Describes {} before.bench := ⟨.nil, rfl, fun _ => rfl, rfl⟩
  obtain ⟨hcomplete, hafter⟩ : custody.Complete ∧ custody.Describes after.bench :=
    hstart.nextAll ⟨List.nodup_nil, .nil⟩ dealings
  have hperm := hafter.perm_compiled hcomplete
  refine ⟨?_, hafter.returned, hafter.kept, ?_, hperm, ?_, fun name => ?_, fun _ _ _ => rfl,
    fun name => ?_, fun bridge source => ?_, ?_⟩
  · exact Dealing.compiled_nextAll dealings before
  · exact hafter.made ▸ hcomplete.numbers
  · simpa using hperm.length_eq.symm
  · rw [Dealing.next, BridgeStep.next_describe]
  · rw [Dealing.next, BridgeStep.next_drop]
    rfl
  · rw [Dealing.bench_compile]
    rfl
  · rw [BridgeBench.ending_releaseAll]
    exact ⟨rfl, rfl, hperm⟩

end ScriptLinker
