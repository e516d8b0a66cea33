/-!
# Dictionaries and sets of names

A `Dict` is a list of named values in strictly ascending order of their names, so two dictionaries
with the same contents are equal and every listing is in name order. `insert` replaces the value of
a name that is already there. A `NameSet` is the same without values.

The order of names is that of `String`, by code point, which is also the order of their UTF-8
bytes.
-/

namespace ModelClient

/-- Whether the names of a list of named values are strictly ascending. -/
def Ascending {α : Type u} (entries : List (String × α)) : Prop :=
  entries.Pairwise (·.1 < ·.1)

/-- The list with `value` under `name`, put in its place or in place of the value already there. -/
def insertEntry {α : Type u} (name : String) (value : α) :
    List (String × α) → List (String × α)
  | [] => [(name, value)]
  | (key, x) :: rest =>
    if name < key then (name, value) :: (key, x) :: rest
    else if name = key then (name, value) :: rest
    else (key, x) :: insertEntry name value rest

/-- An entry of the list is the one that was inserted, or an entry from before. -/
theorem mem_insertEntry {α : Type u} {name : String} {value : α} {e : String × α}
    {entries : List (String × α)} (h : e ∈ insertEntry name value entries) :
    e = (name, value) ∨ e ∈ entries := by
  induction entries with
  | nil => simpa [insertEntry] using h
  | cons entry rest ih =>
    obtain ⟨key, x⟩ := entry
    simp only [insertEntry] at h
    split at h
    · rcases List.mem_cons.1 h with h | h
      · exact .inl h
      · exact .inr h
    · split at h
      · rcases List.mem_cons.1 h with h | h
        · exact .inl h
        · exact .inr (List.mem_cons_of_mem _ h)
      · rcases List.mem_cons.1 h with h | h
        · exact .inr (h ▸ List.mem_cons_self)
        · exact (ih h).imp id (List.mem_cons_of_mem _)

/-- Inserting an entry keeps the order of the names. -/
theorem ascending_insertEntry {α : Type u} (name : String) (value : α)
    {entries : List (String × α)} (h : Ascending entries) :
    Ascending (insertEntry name value entries) := by
  induction entries with
  | nil => exact List.pairwise_singleton _ _
  | cons entry rest ih =>
    obtain ⟨key, x⟩ := entry
    obtain ⟨hhead, hrest⟩ := List.pairwise_cons.1 h
    simp only [insertEntry]
    split
    · next hlt =>
      refine List.pairwise_cons.2 ⟨fun e he => ?_, h⟩
      rcases List.mem_cons.1 he with rfl | he
      · exact hlt
      · exact String.lt_trans hlt (hhead e he)
    · next hnlt =>
      split
      · next heq => subst heq; exact List.pairwise_cons.2 ⟨hhead, hrest⟩
      · next hne =>
        refine List.pairwise_cons.2 ⟨fun e he => ?_, ih hrest⟩
        rcases mem_insertEntry he with rfl | he
        · refine Decidable.byContradiction fun hge => hne ?_
          exact String.le_antisymm (String.not_lt.1 hge) (String.not_lt.1 hnlt)
        · exact hhead e he

/-- What is found under a name is the first entry's value or comes from the others. -/
theorem lookup_entry {α : Type u} (name key : String) (value : α)
    (entries : List (String × α)) :
    ((name, value) :: entries).lookup key =
      if key = name then some value else entries.lookup key := by
  rw [List.lookup_cons]
  by_cases h : key = name
  · rw [if_pos h, beq_iff_eq.2 h]
  · rw [if_neg h, beq_eq_false_iff_ne.2 h]

/-- What is found after inserting is the value that was inserted, or what was found before. -/
theorem lookup_insertEntry {α : Type u} (name key : String) (value : α)
    (entries : List (String × α)) :
    (insertEntry name value entries).lookup key =
      if key = name then some value else entries.lookup key := by
  induction entries with
  | nil => exact lookup_entry name key value []
  | cons entry rest ih =>
    obtain ⟨other, x⟩ := entry
    simp only [insertEntry]
    split
    · exact lookup_entry name key value _
    · split
      · next heq =>
        subst heq
        rw [lookup_entry, lookup_entry]
        by_cases h : key = name
        · rw [if_pos h, if_pos h]
        · rw [if_neg h, if_neg h, if_neg h]
      · next hne =>
        rw [lookup_entry, lookup_entry, ih]
        by_cases h : key = name
        · subst h
          rw [if_neg hne, if_pos rfl, if_pos rfl]
        · rw [if_neg h, if_neg h]

/-- Values by name, in ascending order of their names. -/
structure Dict (α : Type u) where
  entries : List (String × α)
  ascending : Ascending entries
deriving DecidableEq

namespace Dict

variable {α : Type u}

/-- The dictionary without entries. -/
def empty : Dict α := ⟨[], List.Pairwise.nil⟩

instance : EmptyCollection (Dict α) := ⟨empty⟩

instance : Inhabited (Dict α) := ⟨empty⟩

/-- The dictionary with `value` under `name`. -/
def insert (d : Dict α) (name : String) (value : α) : Dict α :=
  ⟨insertEntry name value d.entries, ascending_insertEntry name value d.ascending⟩

/-- The named values put in one after the other; the last value of a name stays. -/
def insertAll (d : Dict α) (entries : List (String × α)) : Dict α :=
  entries.foldl (fun d e => d.insert e.1 e.2) d

/-- The dictionary of a list of named values; the last value of a name stays. -/
def ofList (entries : List (String × α)) : Dict α := insertAll empty entries

/-- The value under a name. -/
def get? (d : Dict α) (name : String) : Option α := d.entries.lookup name

/-- Putting in a value changes what is under its name and nothing else. -/
theorem get?_insert (d : Dict α) (name key : String) (value : α) :
    (d.insert name value).get? key = if key = name then some value else d.get? key :=
  lookup_insertEntry name key value d.entries

/-- The names, in ascending order. -/
def names (d : Dict α) : List String := d.entries.map (·.1)

/-- The number of entries. -/
def size (d : Dict α) : Nat := d.entries.length

/-- Whether there are no entries. -/
def isEmpty (d : Dict α) : Bool := d.entries.isEmpty

/-- The union of two dictionaries, in which the values of the second one win. -/
def union (d e : Dict α) : Dict α := d.insertAll e.entries

end Dict

/-- A set of names, listed in ascending order. -/
structure NameSet where
  names : List String
  ascending : names.Pairwise (· < ·)
deriving DecidableEq

namespace NameSet

/-- The set without names. -/
def empty : NameSet := ⟨[], List.Pairwise.nil⟩

instance : EmptyCollection NameSet := ⟨empty⟩

instance : Inhabited NameSet := ⟨empty⟩

/-- The names under which a dictionary has a value. -/
def ofDict {α : Type u} (d : Dict α) : NameSet :=
  ⟨d.names, List.pairwise_map.2 d.ascending⟩

/-- The set of the names in a list. -/
def ofList (names : List String) : NameSet :=
  ofDict (Dict.ofList (names.map (·, ())))

/-- Whether the set has the name. -/
def contains (s : NameSet) (name : String) : Bool := s.names.contains name

/-- Whether the set has no names. -/
def isEmpty (s : NameSet) : Bool := s.names.isEmpty

/-- The set with one more name. -/
def insert (s : NameSet) (name : String) : NameSet := ofList (s.names ++ [name])

/-- The names of either set. -/
def union (s t : NameSet) : NameSet := ofList (s.names ++ t.names)

end NameSet

end ModelClient
