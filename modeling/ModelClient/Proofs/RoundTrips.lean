import ModelClient.Proofs.Records

/-!
# What is read is written and read again

A reader and a writer of one type belong together if whatever the reader finds in a document is
written as a value that it reads as the same (`Decode.RoundTrips`). For most types the writer's
value is always read back. Where it holds a part of the document as it was, a number in double
precision or any value at all, this needs the numbers of the document to be finite, which they are
in every parsed text and in every tree (`Json.Doc.Finite`).

A record round-trips if its fields do: the fields that were read are those that are written, and a
field that is left out is one that the reader takes to have the same value when it is missing.

## Main statements

* `Json.Record.Finite.required`, `Json.Record.Finite.optional`, `Json.Record.Finite.defaulted`: a
  field that was read is read back.
-/

namespace ModelClient

namespace Json

/-! ## Finite documents -/

/-- The numbers of the document are finite: it fits into some limit. -/
def Doc.Finite (d : Doc) : Prop := ∃ limit, d.Fits limit

/-- The fields of the record are finite. -/
def Record.Finite (r : Record) : Prop := ∀ name field, r.doc? name = some field → field.Finite

namespace Doc

/-- A document that is parsed has finite numbers. -/
theorem finite_of_parse? {text : List (Option Char)} {d : Doc} (h : parse? text = some d) :
    d.Finite :=
  ⟨depthLimit, fits_of_parse? h⟩

variable {α : Type} {d : Doc}

/-- The fields of a record in a finite document are finite. -/
theorem Finite.of_record? (h : d.Finite) {names : List String} {r : Record}
    (hr : d.record? names = some r) : r.Finite := by
  obtain ⟨limit, hfits⟩ := h
  exact fun name field hfield =>
    ⟨limit, (hfits.mono (Nat.le_succ limit)).of_record? hr hfield⟩

/-- An item of a list that is read from a finite document comes from a finite document. -/
theorem Finite.of_list (h : d.Finite) {decode : Decoder α} {as : List α}
    (hread : Decode.list decode d = some as) {a : α} (ha : a ∈ as) :
    ∃ item : Doc, item.Finite ∧ decode item = some a := by
  obtain ⟨limit, hfits⟩ := h
  obtain ⟨item, hitem, hitemRead⟩ := (hfits.mono (Nat.le_succ limit)).of_list hread ha
  exact ⟨item, ⟨limit, hitem⟩, hitemRead⟩

/-- A sound document is left as it is. -/
theorem eq_of_sound? {d e : Doc} (h : d.sound? = some e) : e = d := by
  unfold sound? at h
  split at h
  · exact (Option.some.inj h).symm
  · cases h

/-- A value without its tag is finite. -/
theorem Finite.of_tagged? (h : d.Finite) {tag : String} {name rest : Doc}
    (htagged : d.tagged? tag = some (name, rest)) : rest.Finite := by
  obtain ⟨limit, hfits⟩ := h
  have hfits := hfits.mono (Nat.le_succ limit)
  obtain ⟨e, he, htagged⟩ := Option.bind_eq_some_iff.1 htagged
  rw [eq_of_sound? he] at htagged
  refine ⟨limit + 1, ?_⟩
  cases d with
  | obj dialect fields =>
    simp only [List.partition_eq_filter_filter] at htagged
    split at htagged
    · next heq =>
      cases htagged
      rw [← (Prod.mk.inj heq).2]
      exact fun field hfield => hfits field (List.mem_of_mem_filter hfield)
    · cases htagged
  | arr dialect items =>
    cases items with
    | nil => cases htagged
    | cons first others =>
      cases htagged
      exact fun item hitem => hfits item (List.mem_cons_of_mem _ hitem)
  | null | bool _ | num _ | str _ | tooDeep | outOfRange => cases htagged

end Doc

/-- An item of the document is the document of an item. -/
theorem mem_itemsToDoc {items : List Json} {d : Doc} (h : d ∈ itemsToDoc items) :
    ∃ item ∈ items, d = item.toDoc := by
  induction items with
  | nil => cases h
  | cons item rest ih =>
    rcases List.mem_cons.1 h with rfl | h
    · exact ⟨item, List.mem_cons_self, rfl⟩
    · obtain ⟨found, hfound, heq⟩ := ih h
      exact ⟨found, List.mem_cons_of_mem item hfound, heq⟩

/-- A tree of finite numbers is a finite document. -/
theorem Held.fits_toDoc {limit : Nat} {v : Json} (h : v.Held limit) : v.toDoc.Fits limit := by
  induction limit generalizing v with
  | zero =>
    cases v with
    | arr _ | obj _ => exact h.elim
    | num n =>
      unfold Held at h
      unfold toDoc Doc.Fits
      rintro _ ⟨⟩
      exact h
    | null | bool _ | str _ =>
      unfold toDoc Doc.Fits
      trivial
  | succ limit ih =>
    cases v with
    | arr items =>
      intro d hd
      obtain ⟨item, hitem, rfl⟩ := mem_itemsToDoc hd
      exact ih (h item hitem)
    | obj fields =>
      rw [toDoc, fieldsToDoc_eq_map]
      exact List.forall_mem_map.2 fun field hfield => ih (h.2 field hfield)
    | num n =>
      unfold Held at h
      unfold toDoc Doc.Fits
      rintro _ ⟨⟩
      exact h
    | null | bool _ | str _ =>
      unfold toDoc Doc.Fits
      trivial

/-! ## Readers and writers -/

namespace Decode

variable {α : Type} {decode : Decoder α} {toJson : α → Json}

/-- What is read from a finite document is written as a value that is read back. -/
def RoundTrips (decode : Decoder α) (toJson : α → Json) : Prop :=
  ∀ (d : Doc) (a : α), d.Finite → decode d = some a → Reads decode (toJson a) a

/-- A type that is always read back round-trips. -/
theorem RoundTrips.of_reads (h : ∀ a, Reads decode (toJson a) a) : RoundTrips decode toJson :=
  fun _ a _ _ => h a

/-- If the document is read, what is read is written as a tree that is read as the same, and this is
written as the same tree. -/
def Recovers (decode : Decoder α) (toJson : α → Json) (d : Doc) : Prop :=
  ∀ a, decode d = some a → ∃ b, decode (toJson a).toDoc = some b ∧ b = a ∧ toJson b = toJson a

/-- A type that round-trips recovers whatever it finds. -/
theorem RoundTrips.recovers (h : RoundTrips decode toJson) {d : Doc} (hd : d.Finite) :
    Recovers decode toJson d :=
  fun a ha => ⟨a, (h d a hd ha).decode_eq _ (.refl _), rfl, rfl⟩

/-- A list round-trips if its items do. -/
theorem RoundTrips.list (h : RoundTrips decode toJson) :
    RoundTrips (list decode) fun as => .arr (as.map toJson) := by
  intro d as hd has
  refine reads_list fun a ha => ?_
  obtain ⟨item, hitem, hread⟩ := hd.of_list has ha
  exact h item a hitem hread

/-- A finite number is read back. -/
theorem reads_float {x : Binary64} (h : x.isFinite = true) : Reads binary64 (.float x) x where
  ne_null hnull := by
    rw [float, if_pos h] at hnull
    cases hnull
  decode_eq := by
    rw [float, if_pos h]
    rintro _ rfl
    rfl

/-- A number in double precision round-trips. -/
theorem roundTrips_float : RoundTrips binary64 .float := by
  intro d x hd h
  obtain ⟨limit, hfits⟩ := hd
  obtain ⟨n, hn, rfl⟩ := Option.map_eq_some_iff.1 h
  refine reads_float ?_
  cases d with
  | num n? =>
    cases hn
    unfold Doc.Fits at hfits
    exact (hfits n rfl).isFinite_toBinary64
  | _ => cases hn

/-- Reading every field as a value is reading the fields of a value. -/
theorem mapM_json_eq (fields : List (Option String × Doc)) :
    fields.mapM (fun (name, value) => do
      let name ← name
      let value ← json value
      some (name, value)) = Doc.fieldsToJson? fields := by
  induction fields with
  | nil => rfl
  | cons field rest ih =>
    obtain ⟨name, value⟩ := field
    rw [List.mapM_cons, ih, Doc.fieldsToJson?]
    cases name with
    | none => rfl
    | some name =>
      show (Option.bind (Option.bind value.toJson? _) _) = Option.bind value.toJson? _
      cases value.toJson? <;> rfl

/-- Values by name are those of an object. -/
theorem dict_json_eq_some_iff {d : Doc} {entries : Dict Json} :
    dict json d = some entries ↔
      (∃ dialect fields, d = .obj dialect fields) ∧ d.toJson? = some (ofDict entries) := by
  constructor
  · intro h
    cases d with
    | obj dialect fields =>
      rw [dict, mapM_json_eq] at h
      obtain ⟨values, hvalues, h⟩ := Option.bind_eq_some_iff.1 h
      cases h
      rw [Doc.toJson?, hvalues]
      exact ⟨⟨dialect, fields, rfl⟩, rfl⟩
    | _ => cases h
  · rintro ⟨⟨dialect, fields, rfl⟩, h⟩
    rw [Doc.toJson?] at h
    obtain ⟨values, hvalues, h⟩ := Option.map_eq_some_iff.1 h
    rw [dict, mapM_json_eq, hvalues]
    obtain ⟨entries, hentries⟩ := entries
    cases Json.obj.inj h
    rfl

/-- A dictionary of values round-trips. -/
theorem roundTrips_dict : RoundTrips (dict json) ofDict := by
  rintro d entries ⟨limit, hfits⟩ h
  obtain ⟨-, hvalue⟩ := dict_json_eq_some_iff.1 h
  refine ⟨nofun, fun w hw => dict_json_eq_some_iff.2 ⟨?_, ?_⟩⟩
  · obtain ⟨_, others, -, -, rfl⟩ := rearranged_obj_iff.1 hw
    exact ⟨.json, _, rfl⟩
  · exact (held_of_toJson? hfits hvalue).toJson?_toDoc hw

/-- Any value is read back, `null` included. -/
theorem json_toDoc_of_json {d : Doc} {v : Json} (hd : d.Finite) (h : json d = some v) :
    ∀ w, v.Rearranged w → json w.toDoc = some v := by
  obtain ⟨limit, hfits⟩ := hd
  exact fun w hw => (held_of_toJson? hfits h).toJson?_toDoc hw

end Decode

/-! ## Fields that were read -/

namespace Record.Finite

open Decode

variable {α : Type} {decode : Decoder α} {toJson : α → Json} {r : Record} {name : String}

/-- A field that has to be there is read back if its type round-trips. -/
theorem required (h : r.Finite) (hfield : RoundTrips decode toJson) {a : α}
    (ha : r.required name decode = some a) : Reads decode (toJson a) a := by
  obtain ⟨field, hdoc, hread⟩ := Option.bind_eq_some_iff.1 ha
  exact hfield field a (h name field hdoc) hread

/-- A value that has to be there is read back, in whatever order its fields come. -/
theorem required_json (h : r.Finite) {v : Json} (hv : r.required name json = some v) :
    ∀ w, v.Rearranged w → json w.toDoc = some v := by
  obtain ⟨field, hdoc, hread⟩ := Option.bind_eq_some_iff.1 hv
  exact json_toDoc_of_json (h name field hdoc) hread

/-- What holds of the default and of all that is read holds of a field that may be missing. -/
theorem of_defaulted (h : r.Finite) {P : α → Prop} {a default : α} (hdefault : P default)
    (hread : ∀ d a, d.Finite → decode d = some a → P a)
    (ha : r.defaulted name default decode = some a) : P a := by
  unfold Record.defaulted at ha
  split at ha
  · cases ha
    exact hdefault
  · next field hdoc => exact hread field a (h name field hdoc) ha

/-- A field with a default is read back if its type round-trips and the default is read back. -/
theorem defaulted (h : r.Finite) (hfield : RoundTrips decode toJson) {a default : α}
    (hdefault : Reads decode (toJson default) default)
    (ha : r.defaulted name default decode = some a) : Reads decode (toJson a) a :=
  h.of_defaulted (P := fun a => Reads decode (toJson a) a) hdefault hfield ha

/-- A list that is empty by default is read back if its items round-trip. -/
theorem defaulted_list (h : r.Finite) (hitem : RoundTrips decode toJson) {as : List α}
    (ha : r.defaulted name [] (list decode) = some as) :
    Reads (list decode) (.arr (as.map toJson)) as :=
  h.defaulted hitem.list (reads_list (List.forall_mem_nil _)) ha

/-- A dictionary that is empty by default is read back. -/
theorem defaulted_dict (h : r.Finite) {entries : Dict Json}
    (ha : r.defaulted name {} (dict json) = some entries) :
    Reads (dict json) (ofDict entries) entries := by
  have hempty : (Doc.obj .json []).Finite := ⟨1, List.forall_mem_nil _⟩
  exact h.defaulted roundTrips_dict (roundTrips_dict _ _ hempty rfl) ha

/-- A field that may be missing and is read is there and not `null`. -/
theorem exists_of_optional {a : α} (ha : r.optional name decode = some (some a)) :
    ∃ field, r.doc? name = some field ∧ field ≠ .null ∧ decode field = some a := by
  unfold Record.optional Record.defaulted at ha
  split at ha
  · cases ha
  · next field hdoc => exact ⟨field, hdoc, eq_some_of_nullable ha⟩

/-- A field that may be missing is read back, if it is there, when its type round-trips. -/
theorem optional (h : r.Finite) (hfield : RoundTrips decode toJson) {a? : Option α}
    (ha : r.optional name decode = some a?) : ∀ a ∈ a?, Reads decode (toJson a) a := by
  rintro a rfl
  obtain ⟨field, hdoc, -, hread⟩ := exists_of_optional ha
  exact hfield field a (h name field hdoc) hread

/-- A value that may be missing is not `null`. -/
theorem optional_json (h : r.Finite) {v? : Option Json} (hv : r.optional name json = some v?) :
    ∀ v ∈ v?, Reads json v v := by
  rintro v rfl
  obtain ⟨field, hdoc, hne, hread⟩ := exists_of_optional hv
  have hd := h name field hdoc
  refine ⟨?_, json_toDoc_of_json hd hread⟩
  rintro rfl
  obtain ⟨limit, hfits⟩ := hd
  exact hne (eq_null_of_toJson? hfits hread)

end Record.Finite

end Json

end ModelClient
