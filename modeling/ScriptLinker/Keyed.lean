/-!
# Values under keys

A list of pairs holds at most one value for each key if values are put in with
`put` and taken out with `erase`. The newest pair stands first. The equations
below say what `lookup` finds after either, under the same key and under
another.
-/

namespace ScriptLinker.Keyed

variable {κ α : Type} [BEq κ] [LawfulBEq κ]

/-- The pairs without those of a key. -/
def erase (key : κ) (pairs : List (κ × α)) : List (κ × α) :=
  pairs.filter fun pair => pair.1 != key

/-- The pairs with a value for a key, in place of the one it had. -/
def put (key : κ) (value : α) (pairs : List (κ × α)) : List (κ × α) :=
  (key, value) :: erase key pairs

@[simp] theorem lookup_erase_self (key : κ) (pairs : List (κ × α)) :
    (erase key pairs).lookup key = none := by
  rw [List.lookup_eq_none_iff]
  intro pair hpair
  have hne := (List.mem_filter.1 hpair).2
  simpa using Ne.symm (by simpa using hne)

theorem lookup_erase_of_ne {key other : κ} (h : other ≠ key) (pairs : List (κ × α)) :
    (erase key pairs).lookup other = pairs.lookup other := by
  induction pairs with
  | nil => rfl
  | cons pair rest ih =>
    obtain ⟨name, value⟩ := pair
    by_cases hname : name = key
    · have herase : erase key ((name, value) :: rest) = erase key rest := by
        simp [erase, hname]
      rw [herase, ih, List.lookup_cons, beq_eq_false_iff_ne.2 (hname ▸ h)]
    · have herase : erase key ((name, value) :: rest) = (name, value) :: erase key rest := by
        simp [erase, hname]
      rw [herase, List.lookup_cons, List.lookup_cons, ih]

@[simp] theorem lookup_put_self (key : κ) (value : α) (pairs : List (κ × α)) :
    (put key value pairs).lookup key = some value := by
  simp [put]

theorem lookup_put_of_ne {key other : κ} (h : other ≠ key) (value : α)
    (pairs : List (κ × α)) :
    (put key value pairs).lookup other = pairs.lookup other := by
  rw [put, List.lookup_cons, beq_eq_false_iff_ne.2 h]
  exact lookup_erase_of_ne h pairs

end ScriptLinker.Keyed
