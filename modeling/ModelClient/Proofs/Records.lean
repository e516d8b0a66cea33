import Mathlib.Data.List.Permutation
import ModelClient.Json.Tagged
import ModelClient.Proofs.Rearranged

/-!
# Records that are written and read

A record is written as an object of the fields that are present, and read from the fields under the
names that the reader knows. In whatever order the fields come, the reader finds under a name what
was written under it (`Record.Gives`), so a reader that reads every field reads the record. The
rules for fields and for lists put readers of parts together to a reader of the whole
(`Decode.Reads`). A tagged value is checked as a whole before its tag is read, which every written
value passes.

## Main statements

* `Json.exists_record?`: a written record gives its fields.
* `Json.Decode.reads_record`: a record is read if its fields are.
-/

namespace ModelClient

namespace Json

/-! ## Known fields -/

/-- The reader finds under a name that it knows what is there among all fields. -/
theorem lookup_knownFields {names : List String} {name : String} (hname : name ∈ names)
    {fields : List (Option String × Doc)} {known : List (String × Doc)}
    (h : knownFields names fields = some known) :
    known.lookup name = fields.lookup (some name) := by
  induction fields generalizing known with
  | nil =>
    cases h
    rfl
  | cons field rest ih =>
    obtain ⟨first, value⟩ := field
    simp only [knownFields, Option.bind_eq_bind, Option.bind_eq_some_iff] at h
    obtain ⟨key, rfl, others, hothers, h⟩ := h
    rw [List.lookup_cons]
    -- A field of a known name is kept; one of any other name may be passed over.
    by_cases hkey : name = key
    · subst hkey
      have hcontains : names.contains name = true := List.contains_iff_mem.2 hname
      rw [hcontains] at h
      split at h
      · contradiction
      split at h
      · cases h
      cases h
      simp
    · have hne : (some name == some key) = false := by simp [hkey]
      rw [hne, ← ih hothers]
      split at h
      · split at h
        · cases h
          rfl
        · cases h
      · split at h
        · cases h
        · cases h
          rw [lookup_entry, if_neg hkey]

mutual

/-- Every value may be passed over. -/
theorem isPassable_toDoc : (v : Json) → v.toDoc.isPassable = true
  | .null | .bool _ | .num _ | .str _ => rfl
  | .arr items => by rw [toDoc, Doc.isPassable, areItemsPassable_itemsToDoc items]
  | .obj fields => by rw [toDoc, Doc.isPassable, areFieldsPassable_fieldsToDoc fields]

/-- Every item may be passed over. -/
theorem areItemsPassable_itemsToDoc : (items : List Json) →
    Doc.areItemsPassable (itemsToDoc items) = true
  | [] => rfl
  | item :: rest => by
    rw [itemsToDoc, Doc.areItemsPassable, isPassable_toDoc item, areItemsPassable_itemsToDoc rest]
    rfl

/-- Every field may be passed over. -/
theorem areFieldsPassable_fieldsToDoc : (fields : List (String × Json)) →
    Doc.areFieldsPassable (fieldsToDoc fields) = true
  | [] => rfl
  | (_, value) :: rest => by
    rw [fieldsToDoc, Doc.areFieldsPassable, isPassable_toDoc value,
      areFieldsPassable_fieldsToDoc rest]
    rfl

end

/-- A field is found under its name as the document of its value. -/
theorem lookup_fieldsToDoc (name : String) (fields : List (String × Json)) :
    (fieldsToDoc fields).lookup (some name) = (fields.lookup name).map toDoc := by
  induction fields with
  | nil => rfl
  | cons field rest ih =>
    obtain ⟨key, value⟩ := field
    rw [fieldsToDoc, lookup_entry, List.lookup_cons]
    by_cases h : name = key
    · simp [h]
    · have hne : (some name == some key) = false := by simp [h]
      rw [if_neg h, hne, ih]

/-- The fields of an object are read if no name is repeated. -/
theorem exists_knownFields (names : List String) {fields : List (String × Json)}
    (h : (fields.map (·.1)).Nodup) :
    ∃ known, knownFields names (fieldsToDoc fields) = some known := by
  induction fields with
  | nil => exact ⟨[], rfl⟩
  | cons field rest ih =>
    obtain ⟨name, value⟩ := field
    obtain ⟨hname, hrest⟩ := List.nodup_cons.1 h
    obtain ⟨known, hknown⟩ := ih hrest
    have hfirst : rest.lookup name = none := by
      cases hlookup : rest.lookup name with
      | none => rfl
      | some other =>
        exact absurd (List.mem_map.2 ⟨_, Dict.mem_of_lookup_eq_some hlookup, rfl⟩) hname
    rw [fieldsToDoc, knownFields, hknown]
    by_cases hmem : name ∈ names
    · have hlookup : known.lookup name = none := by
        rw [lookup_knownFields hmem hknown, lookup_fieldsToDoc, hfirst]
        rfl
      refine ⟨(name, value.toDoc) :: known, ?_⟩
      simp [hmem, hlookup]
    · refine ⟨known, ?_⟩
      simp [hmem, isPassable_toDoc]

/-- The fields of the document are the fields of the value, with their names read. -/
theorem fieldsToDoc_eq_map (fields : List (String × Json)) :
    fieldsToDoc fields = fields.map fun field => (some field.1, field.2.toDoc) := by
  induction fields with
  | nil => rfl
  | cons field rest ih => rw [fieldsToDoc, ih, List.map_cons]

/-! ## Fields -/

section

open List (Forall₂)

/-- What is found under a name in rearranged fields is a rearrangement of what was there. -/
theorem lookup_of_sameFields {fields others : List (String × Json)}
    (h : Forall₂ SameField fields others) (name : String) :
    Option.Rel Rearranged (fields.lookup name) (others.lookup name) := by
  induction h with
  | nil => exact .none
  | @cons field other _ _ hhead _ ih =>
    obtain ⟨key, value⟩ := field
    obtain ⟨key', value'⟩ := other
    obtain ⟨rfl, hvalue⟩ := hhead
    rw [lookup_entry, lookup_entry]
    split
    · exact .some hvalue
    · exact ih

/-- Rearranging the values leaves the names as they are. -/
theorem names_of_sameFields {fields others : List (String × Json)}
    (h : Forall₂ SameField fields others) : others.map (·.1) = fields.map (·.1) := by
  induction h with
  | nil => rfl
  | cons hhead _ ih => rw [List.map_cons, List.map_cons, hhead.1, ih]

/-- A choice of fields by their names rearranges along with them. -/
theorem filter_of_sameFields {fields others : List (String × Json)}
    (h : Forall₂ SameField fields others) (p : String → Bool) :
    Forall₂ SameField (fields.filter fun field => p field.1)
      (others.filter fun field => p field.1) :=
  List.rel_filter (fun field other hsame => by
    show p field.1 = true ↔ p other.1 = true
    rw [hsame.1]) h

end

/-- The fields of a record that are present. -/
def present (fields : List (String × Option Json)) : List (String × Json) :=
  fields.filterMap fun (name, value) => value.map (name, ·)

/-- The present fields come in the order of all fields. -/
theorem names_present_sublist (fields : List (String × Option Json)) :
    ((present fields).map (·.1)).Sublist (fields.map (·.1)) := by
  induction fields with
  | nil => exact List.Sublist.slnil
  | cons field rest ih =>
    obtain ⟨name, _ | value⟩ := field
    · exact ih.cons name
    · exact ih.cons_cons name

/-- Among the present fields, what is found under a name is what is written under it. -/
theorem lookup_present {fields : List (String × Option Json)} (h : (fields.map (·.1)).Nodup)
    {name : String} {value? : Option Json} (hvalue : fields.lookup name = some value?) :
    (present fields).lookup name = value? := by
  ext v
  have hmem : (name, v) ∈ present fields ↔ (name, some v) ∈ fields := by
    simp [present]
  rw [Dict.lookup_eq_some_iff_mem ((names_present_sublist fields).nodup h), hmem,
    ← Dict.lookup_eq_some_iff_mem h, hvalue, Option.some.injEq]

/-- A choice by names may be made before the fields that are not present are left out. -/
theorem present_filter (p : String → Bool) (fields : List (String × Option Json)) :
    (present fields).filter (fun field => p field.1) =
      present (fields.filter fun field => p field.1) := by
  simp only [present]
  induction fields with
  | nil => rfl
  | cons field rest ih =>
    obtain ⟨name, value?⟩ := field
    cases value? <;> cases hp : p name <;> simp [hp, ih]

/-- The record gives a rearrangement of a value under a name, or nothing if there is no value. -/
def Record.Gives (r : Record) (name : String) (value? : Option Json) : Prop :=
  Option.Rel (fun v d => ∃ w, v.Rearranged w ∧ d = w.toDoc) value? (r.doc? name)

/-- A written record gives its fields, in whatever order they are written. -/
theorem exists_record? {fields : List (String × Option Json)} (hfields : (fields.map (·.1)).Nodup)
    {w : Json} (h : (record fields).Rearranged w) (names : List String) :
    ∃ r, w.toDoc.record? names = some r ∧
      ∀ name ∈ names, ∀ value?, fields.lookup name = some value? → r.Gives name value? := by
  obtain ⟨permuted, others, hperm, hothers, rfl⟩ := rearranged_obj_iff.1 h
  have hpresent : ((present fields).map (·.1)).Nodup := (names_present_sublist fields).nodup hfields
  have hnames : (others.map (·.1)).Nodup := by
    rw [names_of_sameFields hothers]
    exact (hperm.map _).nodup_iff.1 hpresent
  obtain ⟨known, hknown⟩ := exists_knownFields names hnames
  refine ⟨⟨known, false⟩, ?_, fun name hname value? hvalue => ?_⟩
  · rw [toDoc, Doc.record?, hknown]
    rfl
  · -- No name is repeated, so neither the order nor the fields that are left out show in a lookup.
    have hrel := lookup_of_sameFields hothers name
    rw [Dict.lookup_eq_of_perm hperm hpresent] at hrel
    change Option.Rel Rearranged ((present fields).lookup name) _ at hrel
    rw [lookup_present hfields hvalue] at hrel
    show Option.Rel _ value? (known.lookup name)
    rw [lookup_knownFields hname hknown, lookup_fieldsToDoc]
    generalize others.lookup name = other? at hrel
    cases hrel with
    | none => exact .none
    | some hR => exact .some ⟨_, hR, rfl⟩

/-! ## Readers -/

/-- The decoder reads the value as `a` from all of its rearrangements; it is not `null`. -/
structure Decode.Reads {α : Type} (decode : Decoder α) (v : Json) (a : α) : Prop where
  ne_null : v ≠ .null
  decode_eq : ∀ w, v.Rearranged w → decode w.toDoc = some a

namespace Record.Gives

variable {α : Type} {decode : Decoder α} {r : Record} {name : String}

/-- What is given under a name is read from a rearrangement of it. -/
theorem exists_doc {v : Json} (h : r.Gives name (some v)) :
    ∃ w, v.Rearranged w ∧ r.doc? name = some w.toDoc := by
  unfold Gives at h
  generalize r.doc? name = d at h
  cases h with
  | some hd =>
    obtain ⟨w, hw, rfl⟩ := hd
    exact ⟨w, hw, rfl⟩

/-- If nothing is given under a name, there is nothing to read. -/
theorem doc?_eq_none (h : r.Gives name none) : r.doc? name = none := by
  unfold Gives at h
  generalize r.doc? name = d at h
  cases h
  rfl

/-- A field that has to be given may be `null` if that is read as its value. -/
theorem required_of_forall {v : Json} {a : α} (h : r.Gives name (some v))
    (hv : ∀ w, v.Rearranged w → decode w.toDoc = some a) : r.required name decode = some a := by
  obtain ⟨w, hw, hdoc⟩ := h.exists_doc
  rw [Record.required, hdoc]
  exact hv w hw

/-- A field that has to be there is read. -/
theorem required {v : Json} {a : α} (h : r.Gives name (some v)) (hv : Decode.Reads decode v a) :
    r.required name decode = some a :=
  h.required_of_forall hv.decode_eq

/-- A field with a default is read if it is there. -/
theorem defaulted {v : Json} {a : α} (h : r.Gives name (some v)) (hv : Decode.Reads decode v a)
    (default : α) : r.defaulted name default decode = some a := by
  obtain ⟨w, hw, hdoc⟩ := h.exists_doc
  rw [Record.defaulted, hdoc]
  exact hv.decode_eq w hw

/-- A value that is not `null` is read as it is read where it may not be missing. -/
theorem nullable_toDoc {w : Json} (hw : w ≠ .null) :
    Decode.nullable decode w.toDoc = (decode w.toDoc).map some := by
  cases w with
  | null => exact absurd rfl hw
  | bool _ | num _ | str _ | arr _ | obj _ => rfl

/-- A field that is given is not `null`, whatever it were if it was missing. -/
theorem defaulted_nullable {v : Json} {a : α} (h : r.Gives name (some v))
    (hv : Decode.Reads decode v a) (default : Option α) :
    r.defaulted name default (Decode.nullable decode) = some (some a) := by
  obtain ⟨w, hw, hdoc⟩ := h.exists_doc
  rw [Record.defaulted, hdoc]
  show Decode.nullable decode w.toDoc = _
  rw [nullable_toDoc (hw.ne_null hv.ne_null), hv.decode_eq w hw]
  rfl

/-- A field that may be missing is read if it is there. -/
theorem optional_some {v : Json} {a : α} (h : r.Gives name (some v))
    (hv : Decode.Reads decode v a) : r.optional name decode = some (some a) :=
  h.defaulted_nullable hv none

/-- A field that is left out without a value. -/
theorem optional_map {a? : Option α} {toJson : α → Json} (h : r.Gives name (a?.map toJson))
    (hread : ∀ a ∈ a?, Decode.Reads decode (toJson a) a) : r.optional name decode = some a? := by
  cases a? with
  | none => rw [Record.optional, Record.defaulted, h.doc?_eq_none]
  | some a => exact h.optional_some (hread a rfl)

/-- A field that is `null` without a value. -/
theorem optional_orNull {a? : Option α} {toJson : α → Json}
    (h : r.Gives name (some (orNull toJson a?)))
    (hread : ∀ a ∈ a?, Decode.Reads decode (toJson a) a) : r.optional name decode = some a? := by
  cases a? with
  | none =>
    obtain ⟨w, rfl, hdoc⟩ := h.exists_doc
    rw [Record.optional, Record.defaulted, hdoc]
    rfl
  | some a => exact h.optional_some (hread a rfl)

/-- A field that is given by a value or by `null` is read as the value or as none. -/
theorem nullable_orNull {a? : Option α} {toJson : α → Json}
    (h : r.Gives name (some (orNull toJson a?)))
    (hread : ∀ a ∈ a?, Decode.Reads decode (toJson a) a) : r.nullable name decode = some a? := by
  obtain ⟨w, -, hdoc⟩ := h.exists_doc
  have hoptional := h.optional_orNull hread
  rw [Record.optional, Record.defaulted, hdoc] at hoptional
  rw [Record.nullable, hdoc]
  exact hoptional

/-- A field that is left out if it has its default. -/
theorem defaulted_ite {omitted : Prop} [Decidable omitted] {v : Json} {a default : α}
    (h : r.Gives name (if omitted then none else some v)) (hdefault : omitted → a = default)
    (hread : ¬omitted → Decode.Reads decode v a) : r.defaulted name default decode = some a := by
  split at h
  · next homitted => rw [Record.defaulted, h.doc?_eq_none, hdefault homitted]
  · next hpresent => exact h.defaulted (hread hpresent) default

end Record.Gives

namespace Decode

variable {α : Type} {decode : Decoder α}

/-- A record is read if its fields are. -/
theorem reads_record {fields : List (String × Option Json)} (hfields : (fields.map (·.1)).Nodup)
    {names : List String} {read : Record → Option α}
    (hdecode : ∀ d, decode d = (d.record? names).bind read) {a : α}
    (hread : ∀ r : Record,
      (∀ name ∈ names, ∀ value?, fields.lookup name = some value? → r.Gives name value?) →
        read r = some a) :
    Reads decode (record fields) a where
  ne_null h := by cases h
  decode_eq w hw := by
    obtain ⟨r, hr, hgives⟩ := exists_record? hfields hw names
    rw [hdecode, hr]
    exact hread r hgives

/-- A list is read item by item. -/
theorem reads_list {as : List α} {toJson : α → Json} (h : ∀ a ∈ as, Reads decode (toJson a) a) :
    Reads (list decode) (.arr (as.map toJson)) as where
  ne_null h := by cases h
  decode_eq w hw := by
    obtain ⟨others, hothers, rfl⟩ := rearranged_arr_iff.1 hw
    rw [List.forall₂_map_left_iff] at hothers
    show (itemsToDoc others).mapM decode = some as
    clear hw
    induction hothers with
    | nil => rfl
    | cons hhead _ ih =>
      obtain ⟨ha, has⟩ := List.forall_mem_cons.1 h
      rw [itemsToDoc, List.mapM_cons, ha.decode_eq _ hhead, ih has]
      rfl

/-- A string is read back. -/
theorem reads_str (s : String) : Reads string (.str s) s where
  ne_null h := by cases h
  decode_eq := by
    rintro _ rfl
    rfl

/-- A choice is read from its name. -/
theorem reads_choice {ofName? : String → Option α} {s : String} {a : α} (h : ofName? s = some a) :
    Reads (choice ofName?) (.str s) a where
  ne_null h := by cases h
  decode_eq := by
    rintro _ rfl
    exact h

/-- An integer between the bounds is read from its document. -/
theorem intIn_toDoc_int {low high n : Int} (h : low ≤ n ∧ n ≤ high)
    (hrange : -2 ^ 63 ≤ n ∧ n < 2 ^ 64) : intIn low high (Json.int n).toDoc = some n := by
  rw [Json.int, Number.ofInt, dif_pos hrange]
  exact if_pos h

/-- An integer in a range is read back. -/
theorem reads_intIn {low high n : Int} (h : low ≤ n ∧ n ≤ high)
    (hrange : -2 ^ 63 ≤ n ∧ n < 2 ^ 64) {ofInt : Int → α} {a : α} (ha : ofInt n = a) :
    Reads (fun d => (intIn low high d).map ofInt) (.int n) a where
  ne_null h := by
    rw [Json.int] at h
    cases h
  decode_eq := by
    rintro _ rfl
    rw [intIn_toDoc_int h hrange, Option.map_some, ha]

/-- A number of 8 bits is read back. -/
theorem reads_uint8 (n : UInt8) : Reads uint8 (.nat n.toNat) n := by
  have hn : n.toNat < 2 ^ 8 := n.toNat_lt
  refine reads_intIn (n := n.toNat) (by omega) (by omega) ?_
  rw [Int.toNat_natCast, UInt8.ofNat_toNat]

/-- A number of 32 bits is read back. -/
theorem reads_uint32 (n : UInt32) : Reads uint32 (.nat n.toNat) n := by
  have hn : n.toNat < 2 ^ 32 := n.toNat_lt
  refine reads_intIn (n := n.toNat) (by omega) (by omega) ?_
  rw [Int.toNat_natCast, UInt32.ofNat_toNat]

/-- A number of 64 bits is read back. -/
theorem reads_uint64 (n : UInt64) : Reads uint64 (.nat n.toNat) n := by
  have hn : n.toNat < 2 ^ 64 := n.toNat_lt
  refine reads_intIn (n := n.toNat) (by omega) (by omega) ?_
  rw [Int.toNat_natCast, UInt64.ofNat_toNat]

/-- A number of 64 bits with a sign is read back. -/
theorem reads_int64 (n : Int64) : Reads int64 (.int n.toInt) n := by
  have hlow : -2 ^ 63 ≤ n.toInt := n.le_toInt
  have hhigh : n.toInt < 2 ^ 63 := n.toInt_lt
  refine reads_intIn (n := n.toInt) (by omega) (by omega) ?_
  rw [Int64.ofInt_toInt]

/-- A truth value is read back. -/
theorem reads_bool (b : Bool) : Reads bool (.bool b) b where
  ne_null h := by cases h
  decode_eq := by
    rintro _ rfl
    rfl

/-- A value that a document holds is read as it is. -/
theorem reads_json {limit : Nat} {v : Json} (h : v.Held limit) (hv : v ≠ .null) :
    Reads json v v where
  ne_null := hv
  decode_eq _ hw := h.toJson?_toDoc hw

end Decode

/-! ## Tagged values -/

mutual

/-- Every place of a written value has a value. -/
theorem isSome_toJson?_toDoc : (v : Json) → v.toDoc.toJson?.isSome = true
  | .null | .bool _ | .num _ | .str _ => rfl
  | .arr items => by
    rw [toDoc, Doc.toJson?, Option.isSome_map, isSome_itemsToJson?_itemsToDoc items]
  | .obj fields => by
    rw [toDoc, Doc.toJson?, Option.isSome_map, isSome_fieldsToJson?_fieldsToDoc fields]

/-- Every place of written items has values. -/
theorem isSome_itemsToJson?_itemsToDoc : (items : List Json) →
    (Doc.itemsToJson? (itemsToDoc items)).isSome = true
  | [] => rfl
  | item :: rest => by
    obtain ⟨value, hvalue⟩ := Option.isSome_iff_exists.1 (isSome_toJson?_toDoc item)
    obtain ⟨values, hvalues⟩ := Option.isSome_iff_exists.1 (isSome_itemsToJson?_itemsToDoc rest)
    rw [itemsToDoc, Doc.itemsToJson?, hvalue, hvalues]
    rfl

/-- Every place of written fields has values. -/
theorem isSome_fieldsToJson?_fieldsToDoc : (fields : List (String × Json)) →
    (Doc.fieldsToJson? (fieldsToDoc fields)).isSome = true
  | [] => rfl
  | (_, value) :: rest => by
    obtain ⟨value, hvalue⟩ := Option.isSome_iff_exists.1 (isSome_toJson?_toDoc value)
    obtain ⟨values, hvalues⟩ := Option.isSome_iff_exists.1 (isSome_fieldsToJson?_fieldsToDoc rest)
    rw [fieldsToDoc, Doc.fieldsToJson?, hvalue, hvalues]
    rfl

end

/-- A written value is sound as a whole. -/
theorem sound?_toDoc (v : Json) : v.toDoc.sound? = some v.toDoc :=
  if_pos (isSome_toJson?_toDoc v)

/-- The field of a name that occurs once. -/
theorem filter_eq_singleton_of_lookup {fields : List (String × Json)}
    (hfields : (fields.map (·.1)).Nodup) {name : String} {v : Json}
    (h : fields.lookup name = some v) :
    fields.filter (fun field => field.1 == name) = [(name, v)] := by
  induction fields with
  | nil => cases h
  | cons field rest ih =>
    obtain ⟨key, value⟩ := field
    obtain ⟨hkey, hrest⟩ := List.nodup_cons.1 hfields
    rw [lookup_entry] at h
    split at h
    · next heq =>
      subst heq
      cases h
      have hnone : rest.filter (fun field => field.1 == name) = [] :=
        List.filter_eq_nil_iff.2 fun field hfield hname =>
          hkey (List.mem_map.2 ⟨field, hfield, eq_of_beq hname⟩)
      rw [List.filter_cons_of_pos (by simp), hnone]
    · next hne =>
      rw [List.filter_cons_of_neg (by simpa using Ne.symm hne), ih hrest h]

/-- A tagged record is read as its tag and the record of its other fields. -/
theorem exists_tagged? {fields : List (String × Option Json)}
    (hfields : (fields.map (·.1)).Nodup) (tag : String) {kind : String}
    (htag : fields.lookup tag = some (some (.str kind))) {w : Json}
    (h : (record fields).Rearranged w) :
    ∃ rest, w.toDoc.tagged? tag = some (.str (some kind), rest.toDoc) ∧
      (record (fields.filter fun field => field.1 != tag)).Rearranged rest := by
  obtain ⟨permuted, others, hperm, hothers, rfl⟩ := rearranged_obj_iff.1 h
  change (present fields).Perm permuted at hperm
  have hpresent : ((present fields).map (·.1)).Nodup := (names_present_sublist fields).nodup hfields
  have hnames : (others.map (·.1)).Nodup := by
    rw [names_of_sameFields hothers]
    exact (hperm.map _).nodup_iff.1 hpresent
  have hkind : others.lookup tag = some (.str kind) := by
    have hrel := lookup_of_sameFields hothers tag
    rw [Dict.lookup_eq_of_perm hperm hpresent, lookup_present hfields htag] at hrel
    generalize others.lookup tag = found at hrel
    cases hrel with
    | some hkind => rw [hkind]
  have hrest : (present (fields.filter fun field => field.1 != tag)).Perm
      (permuted.filter fun field => field.1 != tag) := by
    rw [← present_filter (· != tag)]
    exact hperm.filter _
  refine ⟨.obj (others.filter fun field => field.1 != tag), ?_, rearranged_obj_iff.2
    ⟨_, _, hrest, filter_of_sameFields hothers (· != tag), rfl⟩⟩
  -- The names are distinct, so partitioning by the tag singles out one field.
  have htagged : ((fieldsToDoc others).filter fun field => field.1 == some tag) =
      [(some tag, .str (some kind))] := by
    have hsingle := filter_eq_singleton_of_lookup hnames hkind
    rw [fieldsToDoc_eq_map, List.filter_map]
    show (others.filter fun field => some field.1 == some tag).map _ = _
    simp only [Option.some_beq_some, hsingle]
    rfl
  have huntagged : ((fieldsToDoc others).filter (not ∘ fun field => field.1 == some tag)) =
      fieldsToDoc (others.filter fun field => field.1 != tag) := by
    rw [fieldsToDoc_eq_map, fieldsToDoc_eq_map, List.filter_map]
    rfl
  rw [Doc.tagged?, sound?_toDoc]
  simp only [toDoc, Option.bind_eq_bind, Option.bind_some, List.partition_eq_filter_filter, htagged,
    huntagged]
/-- A variant is read as its name and its content. -/
theorem exists_variant? {name : String} {content w : Json}
    (h : (record [(name, some content)]).Rearranged w) :
    ∃ content', content.Rearranged content' ∧
      w.toDoc.variant? = some (name, content'.toDoc) := by
  obtain ⟨permuted, others, hperm, hothers, rfl⟩ := rearranged_obj_iff.1 h
  have hsingle : permuted = [(name, content)] := List.perm_singleton.1 hperm.symm
  rw [hsingle, List.forall₂_cons_left_iff] at hothers
  obtain ⟨⟨_, content'⟩, rest, ⟨rfl, hcontent⟩, hrest, rfl⟩ := hothers
  rw [List.forall₂_nil_left_iff.1 hrest]
  exact ⟨content', hcontent, rfl⟩

/-! ## Nesting -/

/-- A record nests one level more than its fields. -/
theorem depth_record_le {fields : List (String × Option Json)} {n : Nat}
    (h : ∀ field ∈ fields, ∀ v ∈ field.2, v.depth ≤ n) : (record fields).depth ≤ n + 1 := by
  refine depth_obj_le_iff.2 fun written hwritten => ?_
  obtain ⟨field, hfield, hvalue⟩ := List.mem_filterMap.1 hwritten
  obtain ⟨v, hv, rfl⟩ := Option.map_eq_some_iff.1 hvalue
  exact h field hfield v hv

/-- A list nests one level more than its items. -/
theorem depth_arr_map_le {α : Type} {toJson : α → Json} {as : List α} {n : Nat}
    (h : ∀ a ∈ as, (toJson a).depth ≤ n) : (arr (as.map toJson)).depth ≤ n + 1 :=
  depth_arr_le_iff.2 (List.forall_mem_map.2 h)

/-- A value that may be missing nests as deep as a value that is there. -/
theorem depth_map_le {α : Type} {toJson : α → Json} {a? : Option α} {n : Nat}
    (h : ∀ a ∈ a?, (toJson a).depth ≤ n) : ∀ v ∈ a?.map toJson, v.depth ≤ n := by
  intro v hv
  obtain ⟨a, ha, rfl⟩ := Option.map_eq_some_iff.1 hv
  exact h a ha

/-- A value that may be `null` nests as deep as a value that is there. -/
theorem depth_orNull_le {α : Type} {toJson : α → Json} {a? : Option α} {n : Nat}
    (h : ∀ a ∈ a?, (toJson a).depth ≤ n) : ∀ v ∈ some (orNull toJson a?), v.depth ≤ n := by
  rintro _ ⟨⟩
  cases a? with
  | none => exact Nat.zero_le n
  | some a => exact h a rfl

end Json

end ModelClient
