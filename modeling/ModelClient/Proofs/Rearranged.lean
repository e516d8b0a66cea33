import Mathlib.Data.List.Perm.Basic
import ModelClient.Proofs.Dictionaries
import ModelClient.Proofs.ParsedDocuments
import ModelClient.Proofs.Printing

/-!
# Objects with their fields in another order

Who writes a value may list the fields of its objects in any order. `Rearranged v w` says that `w`
is the value `v` written in this way. The text of `w` is as legible as that of `v` and nests no
deeper, and a value that a document holds (`Json.Held`) is read from `w` as from `v`, because an
object is read into ascending order of its names.

Induction is on a bound of the nesting and not on the value, since the parts of an object are
reached through a permutation of its fields.

## Main statements

* `Json.held_of_toJson?`: what the value of a document is like.
* `Json.Held.toJson?_toDoc`: it is read back from every rearrangement.
-/

namespace ModelClient

namespace Json

mutual

/-- `w` is the value with the fields of its objects in some order. -/
def Rearranged : Json → Json → Prop
  | .arr items, w => ∃ others, ItemsRearranged items others ∧ w = .arr others
  | .obj fields, w => ∃ aligned others, FieldsRearranged fields aligned ∧ aligned.Perm others ∧
      w = .obj others
  | v, w => w = v

/-- So are the items of an array, one by one. -/
def ItemsRearranged : List Json → List Json → Prop
  | [], others => others = []
  | item :: rest, others => ∃ w ws, item.Rearranged w ∧ ItemsRearranged rest ws ∧ others = w :: ws

/-- So are the fields of an object, one by one. -/
def FieldsRearranged : List (String × Json) → List (String × Json) → Prop
  | [], others => others = []
  | (name, value) :: rest, others =>
    ∃ w ws, value.Rearranged w ∧ FieldsRearranged rest ws ∧ others = (name, w) :: ws

end

/-- Two fields have one name, and the value of the second one is a rearrangement. -/
def SameField (field other : String × Json) : Prop :=
  field.1 = other.1 ∧ field.2.Rearranged other.2

section

open List (Forall₂)

/-- Items are rearranged one by one. -/
theorem itemsRearranged_iff {items others : List Json} :
    ItemsRearranged items others ↔ Forall₂ Rearranged items others := by
  induction items generalizing others with
  | nil => rw [ItemsRearranged, List.forall₂_nil_left_iff]
  | cons item rest ih =>
    rw [ItemsRearranged, List.forall₂_cons_left_iff]
    simp only [ih]

/-- Fields are rearranged one by one. -/
theorem fieldsRearranged_iff {fields others : List (String × Json)} :
    FieldsRearranged fields others ↔ Forall₂ SameField fields others := by
  induction fields generalizing others with
  | nil => rw [FieldsRearranged, List.forall₂_nil_left_iff]
  | cons field rest ih =>
    rw [FieldsRearranged, List.forall₂_cons_left_iff]
    simp only [ih]
    constructor
    · rintro ⟨w, ws, hvalue, hrest, rfl⟩
      exact ⟨(field.1, w), ws, ⟨rfl, hvalue⟩, hrest, rfl⟩
    · rintro ⟨other, ws, ⟨hname, hvalue⟩, hrest, rfl⟩
      exact ⟨other.2, ws, hvalue, hrest, by rw [hname]⟩

/-- A rearrangement of an array is an array with its items rearranged. -/
theorem rearranged_arr_iff {items : List Json} {w : Json} :
    (arr items).Rearranged w ↔ ∃ others, Forall₂ Rearranged items others ∧ w = .arr others := by
  simp only [Rearranged, itemsRearranged_iff]

/-- The fields of an object are permuted and then rearranged one by one. -/
theorem rearranged_obj_iff {fields : List (String × Json)} {w : Json} :
    (obj fields).Rearranged w ↔
      ∃ permuted others, fields.Perm permuted ∧ Forall₂ SameField permuted others ∧
        w = .obj others := by
  -- The definition permutes what has been rearranged; the two steps may be exchanged.
  have hcomm := List.forall₂_comp_perm_eq_perm_comp_forall₂ (r := SameField)
  simp only [Rearranged, fieldsRearranged_iff]
  constructor
  · rintro ⟨aligned, others, haligned, hperm, rfl⟩
    have hcomp : Relation.Comp (Forall₂ SameField) List.Perm fields others :=
      ⟨aligned, haligned, hperm⟩
    rw [hcomm] at hcomp
    obtain ⟨permuted, hpermuted, hothers⟩ := hcomp
    exact ⟨permuted, others, hpermuted, hothers, rfl⟩
  · rintro ⟨permuted, others, hpermuted, hothers, rfl⟩
    obtain ⟨aligned, haligned, hperm⟩ := List.perm_comp_forall₂ hpermuted hothers
    exact ⟨aligned, others, haligned, hperm, rfl⟩

end

/-- Only `null` is written as `null`. -/
theorem Rearranged.ne_null {v w : Json} (h : v.Rearranged w) (hv : v ≠ .null) : w ≠ .null := by
  rintro rfl
  cases v with
  | null => exact hv rfl
  | arr _ | obj _ => simp [Rearranged] at h
  | bool _ | num _ | str _ => cases h

mutual

/-- A value may be written in its own order. -/
theorem Rearranged.refl : (v : Json) → v.Rearranged v
  | .null | .bool _ | .num _ | .str _ => rfl
  | .arr items => ⟨items, ItemsRearranged.refl items, rfl⟩
  | .obj fields => ⟨fields, fields, FieldsRearranged.refl fields, .refl fields, rfl⟩

/-- Items are rearrangements of themselves. -/
theorem ItemsRearranged.refl : (items : List Json) → ItemsRearranged items items
  | [] => rfl
  | item :: rest => ⟨item, rest, Rearranged.refl item, ItemsRearranged.refl rest, rfl⟩

/-- Fields are rearrangements of themselves. -/
theorem FieldsRearranged.refl : (fields : List (String × Json)) → FieldsRearranged fields fields
  | [] => rfl
  | (_, value) :: rest => ⟨value, rest, Rearranged.refl value, FieldsRearranged.refl rest, rfl⟩

end

/-- Every part on the right of a relation between two lists has a part on the left. -/
theorem exists_mem_of_forall₂ {α β : Type} {R : α → β → Prop} {as : List α} {bs : List β}
    (h : List.Forall₂ R as bs) {b : β} (hb : b ∈ bs) : ∃ a ∈ as, R a b := by
  induction h with
  | nil => cases hb
  | cons hhead _ ih =>
    rcases List.mem_cons.1 hb with rfl | hb
    · exact ⟨_, List.mem_cons_self, hhead⟩
    · obtain ⟨a, ha, hR⟩ := ih hb
      exact ⟨a, List.mem_cons_of_mem _ ha, hR⟩

/-! ## Text -/

/-- Items are legible if each of them is. -/
theorem areItemsLegible_iff {items : List Json} :
    AreItemsLegible items ↔ ∀ item ∈ items, item.Legible := by
  induction items with
  | nil => simp [AreItemsLegible]
  | cons item rest ih => rw [AreItemsLegible, List.forall_mem_cons, ih]

/-- Fields are legible if the value of each of them is. -/
theorem areFieldsLegible_iff {fields : List (String × Json)} :
    AreFieldsLegible fields ↔ ∀ field ∈ fields, field.2.Legible := by
  induction fields with
  | nil => simp [AreFieldsLegible]
  | cons field rest ih => rw [AreFieldsLegible, List.forall_mem_cons, ih]

/-- An array nests one level more than its items. -/
theorem depth_arr_le_iff {items : List Json} {n : Nat} :
    (arr items).depth ≤ n + 1 ↔ ∀ item ∈ items, item.depth ≤ n := by
  rw [depth, Nat.add_comm, Nat.add_le_add_iff_right]
  induction items with
  | nil => simp [itemDepth]
  | cons item rest ih => rw [itemDepth, Nat.max_le, List.forall_mem_cons, ih]

/-- An object nests one level more than its fields. -/
theorem depth_obj_le_iff {fields : List (String × Json)} {n : Nat} :
    (obj fields).depth ≤ n + 1 ↔ ∀ field ∈ fields, field.2.depth ≤ n := by
  rw [depth, Nat.add_comm, Nat.add_le_add_iff_right]
  induction fields with
  | nil => simp [fieldDepth]
  | cons field rest ih => rw [fieldDepth, Nat.max_le, List.forall_mem_cons, ih]

/-- An array nests one level at least. -/
theorem not_depth_arr_le_zero (items : List Json) : ¬(arr items).depth ≤ 0 := by
  rw [depth]
  omega

/-- An object nests one level at least. -/
theorem not_depth_obj_le_zero (fields : List (String × Json)) : ¬(obj fields).depth ≤ 0 := by
  rw [depth]
  omega

/-- A rearrangement is as legible as the value and nests no deeper. -/
theorem Rearranged.legible_and_depth_le : {n : Nat} → {v w : Json} → v.Rearranged w →
    v.Legible → v.depth ≤ n → w.Legible ∧ w.depth ≤ n
  | _, .null, _, rfl, hlegible, hdepth | _, .bool _, _, rfl, hlegible, hdepth
  | _, .num _, _, rfl, hlegible, hdepth | _, .str _, _, rfl, hlegible, hdepth =>
    ⟨hlegible, hdepth⟩
  | 0, .arr items, _, _, _, hdepth => absurd hdepth (not_depth_arr_le_zero items)
  | 0, .obj fields, _, _, _, hdepth => absurd hdepth (not_depth_obj_le_zero fields)
  | n + 1, .arr items, _, h, hlegible, hdepth => by
    obtain ⟨others, hothers, rfl⟩ := rearranged_arr_iff.1 h
    rw [Legible, areItemsLegible_iff] at hlegible ⊢
    rw [depth_arr_le_iff] at hdepth ⊢
    have hmem (w) (hw : w ∈ others) : w.Legible ∧ w.depth ≤ n := by
      obtain ⟨item, hitem, hR⟩ := exists_mem_of_forall₂ hothers hw
      exact hR.legible_and_depth_le (hlegible item hitem) (hdepth item hitem)
    exact ⟨fun w hw => (hmem w hw).1, fun w hw => (hmem w hw).2⟩
  | n + 1, .obj fields, _, h, hlegible, hdepth => by
    obtain ⟨permuted, others, hperm, hothers, rfl⟩ := rearranged_obj_iff.1 h
    rw [Legible, areFieldsLegible_iff] at hlegible ⊢
    rw [depth_obj_le_iff] at hdepth ⊢
    have hmem (g) (hg : g ∈ others) : g.2.Legible ∧ g.2.depth ≤ n := by
      obtain ⟨field, hfield, -, hR⟩ := exists_mem_of_forall₂ hothers hg
      have hfield := hperm.mem_iff.2 hfield
      exact hR.legible_and_depth_le (hlegible field hfield) (hdepth field hfield)
    exact ⟨fun g hg => (hmem g hg).1, fun g hg => (hmem g hg).2⟩

/-! ## Values that a document holds -/

/-- The value nests at most that many arrays and objects, has finite numbers only and lists the
fields of its objects in ascending order. -/
def Held : Nat → Json → Prop
  | _, .num n => n.Finite
  | 0, .arr _ | 0, .obj _ => False
  | limit + 1, .arr items => ∀ item ∈ items, item.Held limit
  | limit + 1, .obj fields => Ascending fields ∧ ∀ field ∈ fields, field.2.Held limit
  | _, .null | _, .bool _ | _, .str _ => True

/-- A value that is held nests no deeper than the limit. -/
theorem Held.depth_le {limit : Nat} {v : Json} (h : v.Held limit) : v.depth ≤ limit := by
  induction limit generalizing v with
  | zero =>
    cases v with
    | arr _ | obj _ => exact h.elim
    | null | bool _ | num _ | str _ => exact Nat.le_refl 0
  | succ limit ih =>
    cases v with
    | arr items => exact depth_arr_le_iff.2 fun item hitem => ih (h item hitem)
    | obj fields => exact depth_obj_le_iff.2 fun field hfield => ih (h.2 field hfield)
    | null | bool _ | num _ | str _ => exact Nat.zero_le _

/-- A value of an array is the value of an item. -/
theorem exists_of_mem_itemsToJson? {items : List Doc} {values : List Json}
    (h : Doc.itemsToJson? items = some values) {v : Json} (hv : v ∈ values) :
    ∃ item ∈ items, item.toJson? = some v := by
  induction items generalizing values with
  | nil =>
    cases h
    cases hv
  | cons item rest ih =>
    rw [Doc.itemsToJson?] at h
    obtain ⟨value, hvalue, h⟩ := Option.bind_eq_some_iff.1 h
    obtain ⟨others, hothers, h⟩ := Option.bind_eq_some_iff.1 h
    cases h
    rcases List.mem_cons.1 hv with rfl | hv
    · exact ⟨item, List.mem_cons_self, hvalue⟩
    · obtain ⟨found, hfound, hfoundValue⟩ := ih hothers hv
      exact ⟨found, List.mem_cons_of_mem _ hfound, hfoundValue⟩

/-- A value of an object is the value of a field. -/
theorem exists_of_mem_fieldsToJson? {fields : List (Option String × Doc)}
    {values : List (String × Json)} (h : Doc.fieldsToJson? fields = some values)
    {v : String × Json} (hv : v ∈ values) : ∃ field ∈ fields, field.2.toJson? = some v.2 := by
  induction fields generalizing values with
  | nil =>
    cases h
    cases hv
  | cons field rest ih =>
    rw [Doc.fieldsToJson?] at h
    obtain ⟨name, -, h⟩ := Option.bind_eq_some_iff.1 h
    obtain ⟨value, hvalue, h⟩ := Option.bind_eq_some_iff.1 h
    obtain ⟨others, hothers, h⟩ := Option.bind_eq_some_iff.1 h
    cases h
    rcases List.mem_cons.1 hv with rfl | hv
    · exact ⟨field, List.mem_cons_self, hvalue⟩
    · obtain ⟨found, hfound, hfoundValue⟩ := ih hothers hv
      exact ⟨found, List.mem_cons_of_mem _ hfound, hfoundValue⟩

/-- A finite number is a number of a value as it is. -/
theorem ofNumber_of_finite {n : Number} (h : n.Finite) : ofNumber n = .num n := by
  cases n with
  | int _ _ => rfl
  | float x => exact if_pos h

/-- What the value of a document is like. -/
theorem held_of_toJson? : {limit : Nat} → {d : Doc} → {v : Json} → d.Fits limit →
    d.toJson? = some v → v.Held limit
  | _, .null, _, _, rfl | _, .bool _, _, _, rfl => by simp [Held]
  | _, .str _, _, _, h => by
    obtain ⟨_, -, rfl⟩ := Option.map_eq_some_iff.1 h
    simp [Held]
  | _, .num n, _, hfits, h => by
    obtain ⟨m, hm, rfl⟩ := Option.map_eq_some_iff.1 h
    rw [Doc.Fits] at hfits
    rw [ofNumber_of_finite (hfits m hm), Held]
    exact hfits m hm
  | 0, .arr _ _, _, hfits, _ | 0, .obj _ _, _, hfits, _ => hfits.elim
  | limit + 1, .arr _ items, _, hfits, h => by
    obtain ⟨values, hvalues, rfl⟩ := Option.map_eq_some_iff.1 h
    intro v hv
    obtain ⟨item, hitem, hvalue⟩ := exists_of_mem_itemsToJson? hvalues hv
    exact held_of_toJson? (hfits item hitem) hvalue
  | limit + 1, .obj _ fields, _, hfits, h => by
    obtain ⟨values, hvalues, rfl⟩ := Option.map_eq_some_iff.1 h
    refine ⟨(Dict.ofList values).ascending, fun v hv => ?_⟩
    have hv : v ∈ values := (Dict.mem_insertAll hv).resolve_left nofun
    obtain ⟨field, hfield, hvalue⟩ := exists_of_mem_fieldsToJson? hvalues hv
    exact held_of_toJson? (hfits field hfield) hvalue

/-- Only `null` is read as `null`. -/
theorem eq_null_of_toJson? {limit : Nat} {d : Doc} (hd : d.Fits limit)
    (h : d.toJson? = some .null) : d = .null := by
  cases d with
  | null => rfl
  | num n =>
    obtain ⟨m, hm, hnull⟩ := Option.map_eq_some_iff.1 h
    rw [Doc.Fits] at hd
    rw [ofNumber_of_finite (hd m hm)] at hnull
    cases hnull
  | str _ | arr _ _ | obj _ _ =>
    obtain ⟨_, -, hnull⟩ := Option.map_eq_some_iff.1 h
    cases hnull
  | bool _ | tooDeep | outOfRange => cases h

/-! ## Reading back -/

section

open List (Forall₂)

/-- Items are read back if each of them is. -/
theorem itemsToJson?_itemsToDoc {items others : List Json}
    (h : Forall₂ (fun v w => w.toDoc.toJson? = some v) items others) :
    Doc.itemsToJson? (itemsToDoc others) = some items := by
  induction h with
  | nil => rfl
  | cons hhead _ ih =>
    rw [itemsToDoc, Doc.itemsToJson?, hhead, ih]
    rfl

/-- Fields are read back if each of them is. -/
theorem fieldsToJson?_fieldsToDoc {fields others : List (String × Json)}
    (h : Forall₂ (fun f g => f.1 = g.1 ∧ g.2.toDoc.toJson? = some f.2) fields others) :
    Doc.fieldsToJson? (fieldsToDoc others) = some fields := by
  induction h with
  | nil => rfl
  | cons hhead _ ih =>
    obtain ⟨hname, hvalue⟩ := hhead
    rw [fieldsToDoc, Doc.fieldsToJson?, hvalue, ih, ← hname]
    rfl

/-- A value that a document holds is read back, in whatever order its fields are written. -/
theorem Held.toJson?_toDoc : {limit : Nat} → {v w : Json} → v.Held limit → v.Rearranged w →
    w.toDoc.toJson? = some v
  | _, .null, _, _, rfl | _, .bool _, _, _, rfl | _, .str _, _, _, rfl => rfl
  | _, .num n, _, h, rfl => by
    rw [Held] at h
    exact congrArg some (ofNumber_of_finite h)
  | 0, .arr _, _, h, _ | 0, .obj _, _, h, _ => h.elim
  | limit + 1, .arr items, _, h, hw => by
    obtain ⟨others, hothers, rfl⟩ := rearranged_arr_iff.1 hw
    have hread := itemsToJson?_itemsToDoc (((List.forall₂_and_left _ _).2 ⟨h, hothers⟩).imp
      fun _ _ hboth => hboth.1.toJson?_toDoc hboth.2)
    rw [toDoc, Doc.toJson?, hread]
    rfl
  | limit + 1, .obj fields, _, h, hw => by
    obtain ⟨permuted, others, hperm, hothers, rfl⟩ := rearranged_obj_iff.1 hw
    have hheld : ∀ field ∈ permuted, field.2.Held limit := fun field hfield =>
      h.2 field (hperm.mem_iff.2 hfield)
    have hread := fieldsToJson?_fieldsToDoc (((List.forall₂_and_left _ _).2 ⟨hheld, hothers⟩).imp
      fun _ _ hboth => ⟨hboth.2.1, hboth.1.toJson?_toDoc hboth.2.2⟩)
    rw [toDoc, Doc.toJson?, hread, Option.map_some,
      Dict.ofList_of_perm (d := ⟨fields, h.1⟩) hperm]
    rfl

end

end Json

end ModelClient
