import Mathlib.Data.List.Sort
import ModelClient.Dict

/-!
# Dictionaries by their contents

A dictionary lists its entries in ascending order of their names, so it is determined by what is
found under each name (`Dict.ext_get?`). A union has under a name what the second dictionary has, or
else what the first one has (`Dict.get?_union`). Laws of unions are laws of these lookups, whatever
the names are and in whatever order they come. A set of names is determined by what it contains in
the same way (`NameSet.ext_mem`).
-/

namespace ModelClient

/-- Entries in ascending order are determined by what there is under each name. -/
theorem Ascending.eq_of_mem_iff {α : Type u} {entries others : List (String × α)}
    (hentries : Ascending entries) (hothers : Ascending others)
    (h : ∀ name value, (name, value) ∈ entries ↔ (name, value) ∈ others) : entries = others := by
  have hirrefl : Std.Irrefl fun a b : String × α => a.1 < b.1 := ⟨fun a => String.lt_irrefl a.1⟩
  have hantisymm : Std.Antisymm fun a b : String × α => a.1 < b.1 :=
    ⟨fun a _ hab hba => absurd (String.lt_trans hab hba) (String.lt_irrefl a.1)⟩
  exact List.Pairwise.eq_of_mem_iff hentries hothers fun entry => h entry.1 entry.2

namespace Dict

variable {α : Type u}

/-- What is found under a name is an entry. -/
theorem mem_of_lookup_eq_some {entries : List (String × α)} {name : String} {value : α}
    (h : entries.lookup name = some value) : (name, value) ∈ entries := by
  induction entries with
  | nil => cases h
  | cons entry rest ih =>
    obtain ⟨key, x⟩ := entry
    rw [lookup_entry] at h
    split at h
    · next heq =>
      cases heq
      cases h
      exact List.mem_cons_self
    · exact List.mem_cons_of_mem _ (ih h)

/-- No name is repeated in ascending order. -/
theorem nodup_names_of_ascending {entries : List (String × α)} (h : Ascending entries) :
    (entries.map (·.1)).Nodup := by
  refine List.pairwise_map.2 (h.imp ?_)
  rintro a b hlt heq
  exact String.lt_irrefl b.1 (heq ▸ hlt)

/-- Of some entries without a repeated name only one has the name. -/
theorem lookup_eq_some_iff_mem {entries : List (String × α)} (hentries : (entries.map (·.1)).Nodup)
    {name : String} {value : α} :
    entries.lookup name = some value ↔ (name, value) ∈ entries := by
  refine ⟨mem_of_lookup_eq_some, fun h => ?_⟩
  induction entries with
  | nil => cases h
  | cons entry rest ih =>
    obtain ⟨key, x⟩ := entry
    obtain ⟨hhead, hrest⟩ := List.nodup_cons.1 hentries
    rw [lookup_entry]
    rcases List.mem_cons.1 h with heq | hmem
    · cases heq
      exact if_pos rfl
    · have hne : name ≠ key := by
        rintro rfl
        exact hhead (List.mem_map.2 ⟨_, hmem, rfl⟩)
      rw [if_neg hne]
      exact ih hrest hmem

/-- The order of entries without a repeated name does not matter to a lookup. -/
theorem lookup_eq_of_perm {entries others : List (String × α)} (h : entries.Perm others)
    (hentries : (entries.map (·.1)).Nodup) (name : String) :
    others.lookup name = entries.lookup name := by
  have hothers : (others.map (·.1)).Nodup := (h.map _).nodup_iff.1 hentries
  ext value
  rw [lookup_eq_some_iff_mem hothers, lookup_eq_some_iff_mem hentries, h.mem_iff]

/-- A dictionary that lists nothing is the empty one. -/
theorem eq_empty_of_isEmpty {d : Dict α} (h : d.isEmpty = true) : d = {} := by
  obtain ⟨entries, hentries⟩ := d
  cases List.isEmpty_iff.1 h
  rfl

/-- What is found under a name is what is listed under it. -/
theorem get?_eq_some_iff {d : Dict α} {name : String} {value : α} :
    d.get? name = some value ↔ (name, value) ∈ d.entries :=
  lookup_eq_some_iff_mem (nodup_names_of_ascending d.ascending)

/-- Dictionaries with the same contents are equal. -/
theorem ext_get? {d e : Dict α} (h : ∀ name, d.get? name = e.get? name) : d = e := by
  have hmem : ∀ name value, (name, value) ∈ d.entries ↔ (name, value) ∈ e.entries := by
    intro name value
    rw [← get?_eq_some_iff, h, get?_eq_some_iff]
  have hentries := d.ascending.eq_of_mem_iff e.ascending hmem
  cases d
  cases e
  cases hentries
  rfl

/-- Entries without a repeated name that are put in have their values, and other names keep theirs.
-/
theorem get?_insertAll {entries : List (String × α)} (hentries : (entries.map (·.1)).Nodup)
    (d : Dict α) (name : String) :
    (d.insertAll entries).get? name = (entries.lookup name <|> d.get? name) := by
  induction entries generalizing d with
  | nil => rfl
  | cons entry rest ih =>
    obtain ⟨key, value⟩ := entry
    obtain ⟨hhead, hrest⟩ := List.nodup_cons.1 hentries
    show ((d.insert key value).insertAll rest).get? name = _
    rw [ih hrest, get?_insert, lookup_entry]
    by_cases h : name = key
    · -- The name is that of the first entry, so no later entry has it.
      have hnone : rest.lookup name = none := by
        cases hlookup : rest.lookup name with
        | none => rfl
        | some other =>
          exact absurd (List.mem_map.2 ⟨_, mem_of_lookup_eq_some hlookup, h⟩) hhead
      rw [if_pos h, if_pos h, hnone]
      rfl
    · rw [if_neg h, if_neg h]

/-- The entries of a dictionary give the dictionary back in whatever order they are put in. -/
theorem ofList_of_perm {d : Dict α} {entries : List (String × α)} (h : d.entries.Perm entries) :
    ofList entries = d := by
  have hnames := nodup_names_of_ascending d.ascending
  refine ext_get? fun name => ?_
  rw [ofList, get?_insertAll ((h.map _).nodup_iff.1 hnames), lookup_eq_of_perm h hnames]
  show (d.get? name <|> none) = d.get? name
  cases d.get? name <;> rfl

/-- Every entry after some are put in was there before or is one of these. -/
theorem mem_insertAll {d : Dict α} {entries : List (String × α)} {entry : String × α}
    (h : entry ∈ (d.insertAll entries).entries) : entry ∈ d.entries ∨ entry ∈ entries := by
  induction entries generalizing d with
  | nil => exact .inl h
  | cons first rest ih =>
    rcases ih (d := d.insert first.1 first.2) h with h | h
    · rcases mem_insertEntry h with rfl | h
      · exact .inr List.mem_cons_self
      · exact .inl h
    · exact .inr (List.mem_cons_of_mem _ h)

/-- A union has what the second dictionary has, or else what the first one has. -/
theorem get?_union (d e : Dict α) (name : String) :
    (d.union e).get? name = (e.get? name <|> d.get? name) :=
  get?_insertAll (nodup_names_of_ascending e.ascending) d name

/-- The union with a dictionary that has all names of the first one is that dictionary. -/
theorem union_eq_right {d e : Dict α} (h : ∀ name, e.get? name = none → d.get? name = none) :
    d.union e = e := by
  refine ext_get? fun name => ?_
  rw [get?_union]
  cases hname : e.get? name with
  | none => exact h name hname
  | some value => rfl

/-- Three dictionaries are united in any grouping. -/
theorem union_assoc (d e f : Dict α) : (d.union e).union f = d.union (e.union f) := by
  refine ext_get? fun name => ?_
  rw [get?_union, get?_union, get?_union, get?_union]
  cases f.get? name <;> rfl

/-- A dictionary has the names under which something is found. -/
theorem mem_names_iff {d : Dict α} {name : String} :
    name ∈ d.names ↔ ∃ value, d.get? name = some value := by
  simp [names, get?_eq_some_iff]

/-- Inserting entries adds their names. -/
theorem mem_names_insertAll (d : Dict α) (entries : List (String × α)) (name : String) :
    name ∈ (d.insertAll entries).names ↔ name ∈ entries.map (·.1) ∨ name ∈ d.names := by
  induction entries generalizing d with
  | nil => simp [insertAll]
  | cons entry rest ih =>
    have hinsert : name ∈ (d.insert entry.1 entry.2).names ↔ name = entry.1 ∨ name ∈ d.names := by
      rw [mem_names_iff, get?_insert]
      split
      · next h => exact ⟨fun _ => .inl h, fun _ => ⟨_, rfl⟩⟩
      · next h => rw [mem_names_iff, or_iff_right h]
    show name ∈ ((d.insert entry.1 entry.2).insertAll rest).names ↔ _
    rw [ih, hinsert, List.map_cons, List.mem_cons, or_left_comm, or_assoc]

end Dict

namespace NameSet

/-- The set of some names contains them and no others. -/
@[simp]
theorem mem_names_ofList {names : List String} {name : String} :
    name ∈ (ofList names).names ↔ name ∈ names := by
  have hnone : name ∉ (Dict.empty : Dict Unit).names := List.not_mem_nil
  show name ∈ (Dict.empty.insertAll (names.map (·, ()))).names ↔ _
  rw [Dict.mem_names_insertAll, or_iff_left hnone, List.map_map]
  show name ∈ names.map id ↔ _
  rw [List.map_id]

/-- A union contains what either set contains. -/
@[simp]
theorem mem_names_union {s t : NameSet} {name : String} :
    name ∈ (s.union t).names ↔ name ∈ s.names ∨ name ∈ t.names := by
  rw [union, mem_names_ofList, List.mem_append]

/-- A set that lists nothing is the empty one. -/
theorem eq_empty_of_isEmpty {s : NameSet} (h : s.isEmpty = true) : s = {} := by
  obtain ⟨names, hnames⟩ := s
  cases List.isEmpty_iff.1 h
  rfl

/-- Sets of the same names are equal. -/
theorem ext_mem {s t : NameSet} (h : ∀ name, name ∈ s.names ↔ name ∈ t.names) : s = t := by
  have hirrefl : Std.Irrefl fun a b : String => a < b := ⟨String.lt_irrefl⟩
  have hantisymm : Std.Antisymm fun a b : String => a < b :=
    ⟨fun a _ hab hba => absurd (String.lt_trans hab hba) (String.lt_irrefl a)⟩
  have hnames := s.ascending.eq_of_mem_iff t.ascending fun {name} => h name
  cases s
  cases t
  cases hnames
  rfl

/-- Nothing is added by the empty set. -/
theorem union_empty (s : NameSet) : s.union {} = s :=
  ext_mem fun name => by
    have hnone : name ∉ ({} : NameSet).names := List.not_mem_nil
    rw [mem_names_union, or_iff_left hnone]

end NameSet

end ModelClient
