/-!
# Tables under construction

A document builds a tree of tables. Whether a key may be added depends on how a
table came to be: a table with a header of its own is closed to dotted keys from
elsewhere, one that a longer header brought along may still get its header, and
one made by a dotted key may be extended by dotted keys only. `edit?` changes
the entries at the end of a path under these rules.
-/

namespace ScriptLinker.Toml

/-- How a table came to be. -/
inductive Origin where
  /-- It has a header. -/
  | header
  /-- A longer header runs through it. -/
  | implied
  /-- A dotted key runs through it. -/
  | dotted
  deriving DecidableEq, Inhabited

/-- A value, or a table of the document. -/
inductive Item where
  | text (value : String)
  | integer (value : Int)
  | float
  | boolean (value : Bool)
  | dateTime
  | array (items : List Item)
  /-- A table written as a value; nothing can be added to it. -/
  | inlineTable (entries : List (String × Item))
  | table (origin : Origin) (entries : List (String × Item))
  /-- A row of tables with one header each; keys are added to the last. -/
  | tables (rows : List (List (String × Item)))

/-- The entries of a table, in no particular order. -/
abbrev Entries := List (String × Item)

namespace Entries

def find? (entries : Entries) (key : String) : Option Item :=
  entries.lookup key

/-- Replaces the item under a key by what `change` makes of it, or of its
absence. -/
def alter? (key : String) (change : Option Item → Option Item) : Entries → Option Entries
  | [] => (change none).map fun item => [(key, item)]
  | (name, item) :: rest =>
    if name = key then
      (change (some item)).map fun item => (name, item) :: rest
    else
      (alter? key change rest).map ((name, item) :: ·)

/-- After a change, the key holds what the change made of what it held. -/
theorem find?_of_alter? {key : String} {change : Option Item → Option Item}
    {entries altered : Entries} (h : entries.alter? key change = some altered) :
    altered.find? key = change (entries.find? key) := by
  induction entries generalizing altered with
  | nil =>
    obtain ⟨item, hitem, rfl⟩ := Option.map_eq_some_iff.1 h
    simp [find?, hitem]
  | cons entry rest ih =>
    obtain ⟨name, item⟩ := entry
    unfold alter? at h
    split at h
    · rename_i hname
      obtain ⟨new, hnew, rfl⟩ := Option.map_eq_some_iff.1 h
      simp [find?, hname, hnew]
    · rename_i hname
      obtain ⟨more, hmore, rfl⟩ := Option.map_eq_some_iff.1 h
      simp only [find?, List.lookup_cons, beq_eq_false_iff_ne.2 (Ne.symm hname)]
      exact ih hmore

/-- A change of the entries succeeds if the change of the one item does. -/
theorem isSome_alter? (key : String) (change : Option Item → Option Item) (entries : Entries) :
    (entries.alter? key change).isSome = (change (entries.find? key)).isSome := by
  induction entries with
  | nil => simp [alter?, find?]
  | cons entry rest ih =>
    obtain ⟨name, item⟩ := entry
    unfold alter?
    split
    · rename_i hname
      simp [find?, hname]
    · rename_i hname
      simp only [find?, List.lookup_cons, beq_eq_false_iff_ne.2 (Ne.symm hname),
        Option.isSome_map]
      exact ih

def alterLast? (change : Entries → Option Entries) : List Entries → Option (List Entries)
  | [] => none
  | [last] => (change last).map ([·])
  | row :: rest => (alterLast? change rest).map (row :: ·)

/-- Changes the entries at the end of a path. `dotted` says whether a dotted key
leads there or a header; tables that are missing on the way are made. `change`
learns whether a dotted key made the table it changes. -/
def edit? (dotted : Bool) (change : Bool → Entries → Option Entries) :
    List String → Bool → Entries → Option Entries
  | [], byDots, entries => change byDots entries
  | key :: path, _, entries =>
    entries.alter? key fun
      | none =>
        (edit? dotted change path dotted []).map
          (.table (if dotted then .dotted else .implied))
      | some (.table origin inner) =>
        if dotted && origin = .header then none
        else (edit? dotted change path (origin = .dotted) inner).map (.table origin)
      | some (.tables rows) =>
        (alterLast? (edit? dotted change path false) rows).map .tables
      | some _ => none

def add? (key : String) (item : Item) (entries : Entries) : Option Entries :=
  entries.alter? key fun
    | none => some item
    | some _ => none

/-- A key can be added just once. -/
theorem isSome_add? (key : String) (item : Item) (entries : Entries) :
    (entries.add? key item).isSome = (entries.find? key).isNone := by
  rw [add?, isSome_alter?]
  split <;> simp_all

/-- Adds an item under a dotted key. A dotted key ends in a table that dotted
keys made, and a key of one part does not. -/
def addDotted? (path : List String) (key : String) (item : Item) :
    Bool → Entries → Option Entries :=
  edit? true (fun byDots entries => if byDots = path.isEmpty then none else entries.add? key item)
    path

/-- Opens the table of a header. -/
def openTable? (path : List String) (key : String) (entries : Entries) : Option Entries :=
  edit? false (fun _ entries => entries.alter? key fun
    | none => some (.table .header [])
    | some (.table .implied inner) => some (.table .header inner)
    | some _ => none) path false entries

def openRow? (path : List String) (key : String) (entries : Entries) : Option Entries :=
  edit? false (fun _ entries => entries.alter? key fun
    | none => some (.tables [[]])
    | some (.tables rows) => some (.tables (rows ++ [[]]))
    | some _ => none) path false entries

/-- Adds an item under a dotted key to the table that was opened at `place`. -/
def addAt? (place path : List String) (key : String) (item : Item) (entries : Entries) :
    Option Entries :=
  edit? false (fun _ => addDotted? path key item false) place false entries

end Entries

end ScriptLinker.Toml
