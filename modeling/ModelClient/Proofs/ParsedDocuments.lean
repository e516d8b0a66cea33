import ModelClient.Json.Decode
import ModelClient.Proofs.Dictionaries
import ModelClient.Proofs.FiniteNumbers

/-!
# Documents that come out of the parser

The parser gives no document that nests more than `depthLimit` arrays and objects, since it puts
`tooDeep` in place of what would, and none with a number that is infinite. Both together are
`Doc.Fits`. The parser keeps it as an invariant of the arrays and objects that are still open: the
parts of each fit into what the ones around it leave of the limit. What a reader takes out of a
document, the field of a record or the item of a list, has one level less.

## Main statements

* `Json.Doc.fits_of_parse?`: what a parsed document fits into.
* `Json.Doc.Fits.of_record?`, `Json.Doc.Fits.of_list`: what its parts fit into.
-/

namespace ModelClient

namespace Json

/-- The document nests at most that many arrays and objects, and its numbers are finite. -/
def Doc.Fits : Nat → Doc → Prop
  | _, .num n => ∀ m ∈ n, m.Finite
  | 0, .arr _ _ | 0, .obj _ _ => False
  | limit + 1, .arr _ items => ∀ item ∈ items, item.Fits limit
  | limit + 1, .obj _ fields => ∀ field ∈ fields, field.2.Fits limit
  | _, .null | _, .bool _ | _, .str _ | _, .tooDeep | _, .outOfRange => True

/-- A document that fits into a limit fits into a higher one. -/
theorem Doc.Fits.mono {m n : Nat} {d : Doc} (h : d.Fits m) (hmn : m ≤ n) : d.Fits n := by
  induction m generalizing d n with
  | zero =>
    cases d with
    | arr _ _ | obj _ _ => exact h.elim
    | num _ | null | bool _ | str _ | tooDeep | outOfRange =>
      unfold Doc.Fits at h ⊢
      exact h
  | succ m ih =>
    obtain ⟨n, rfl⟩ : ∃ k, n = k + 1 := ⟨n - 1, by omega⟩
    cases d with
    | arr _ items => exact fun item hitem => ih (h item hitem) (Nat.le_of_succ_le_succ hmn)
    | obj _ fields => exact fun field hfield => ih (h field hfield) (Nat.le_of_succ_le_succ hmn)
    | num _ | null | bool _ | str _ | tooDeep | outOfRange =>
      unfold Doc.Fits at h ⊢
      exact h

/-! ## Tokens -/

/-- A number token has no infinite number. -/
def Token.Finite : Token → Prop
  | .num n => ∀ m ∈ n, m.Finite
  | _ => True

/-- What every step keeps holds after all of them. -/
theorem foldlM_invariant {σ α : Type} {step : σ → α → Option σ} {Inv : σ → Prop} {Ok : α → Prop}
    (hstep : ∀ s a s', Inv s → Ok a → step s a = some s' → Inv s') {as : List α}
    (hok : ∀ a ∈ as, Ok a) {s s' : σ} (hs : Inv s) (h : as.foldlM step s = some s') : Inv s' := by
  induction as generalizing s with
  | nil =>
    cases h
    exact hs
  | cons a as ih =>
    rw [List.foldlM_cons] at h
    obtain ⟨next, hnext, h⟩ := Option.bind_eq_some_iff.1 h
    obtain ⟨ha, has⟩ := List.forall_mem_cons.1 hok
    exact ih has (hstep s a next hs ha hnext) h

/-- A word that is a number is a finite one. -/
theorem finite_of_word? {chars : List Char} {t : Token} (h : word? chars = some t) : t.Finite := by
  unfold word? at h
  split at h
  case h_4 =>
    obtain ⟨s, -, rfl⟩ := Option.map_eq_some_iff.1 h
    exact fun _ => Spelling.finite_of_number?
  all_goals
    cases h
    trivial

namespace Lexer

/-- The completed tokens of a lexer have no infinite number. -/
def Finite (l : Lexer) : Prop := ∀ t ∈ l.tokens, t.Finite

/-- A punctuation mark is no number. -/
theorem finite_of_punctuation? {c : Char} {t : Token} (h : punctuation? c = some t) : t.Finite := by
  unfold punctuation? at h
  split at h <;> cases h <;> trivial

/-- What a character begins adds no infinite number. -/
theorem finite_start {tokens : List Token} (h : ∀ t ∈ tokens, t.Finite) (c : Char) :
    (start tokens c).Finite := by
  unfold start
  split
  · exact h
  split
  · exact h
  split
  · next t ht => exact List.forall_mem_cons.2 ⟨finite_of_punctuation? ht, h⟩
  · exact h

/-- A step of the lexer adds no infinite number. -/
theorem finite_step (l : Lexer) (c : Option Char) (l' : Lexer) (h : l.Finite) (_ : True)
    (hstep : l.step c = some l') : l'.Finite := by
  unfold step at hstep
  split at hstep
  · cases hstep
    exact finite_start h _
  · split at hstep
    -- The end of a word is the only place where a number becomes a token.
    · obtain ⟨t, ht, rfl⟩ := Option.map_eq_some_iff.1 hstep
      exact finite_start (List.forall_mem_cons.2 ⟨finite_of_word? ht, h⟩) _
    · cases hstep
      exact h
  · split at hstep
    · cases hstep
      exact List.forall_mem_cons.2 ⟨trivial, h⟩
    split at hstep
    · cases hstep
      exact h
    split at hstep
    · cases hstep
    · cases hstep
      exact h
  · cases hstep
    exact h
  · split at hstep
    · cases hstep
      exact h
    · obtain ⟨_, -, rfl⟩ := Option.map_eq_some_iff.1 hstep
      exact h
  · obtain ⟨_, -, hstep⟩ := Option.bind_eq_some_iff.1 hstep
    simp only at hstep
    split at hstep <;> cases hstep <;> exact h
  all_goals cases hstep

/-- The end of the text adds no infinite number. -/
theorem finite_finish {l : Lexer} (h : l.Finite) {tokens : List Token}
    (hfinish : l.finish = some tokens) : ∀ t ∈ tokens, t.Finite := by
  unfold finish at hfinish
  split at hfinish
  · cases hfinish
    exact fun t ht => h t (List.mem_reverse.1 ht)
  · obtain ⟨t, ht, rfl⟩ := Option.map_eq_some_iff.1 hfinish
    exact fun u hu =>
      List.forall_mem_cons.2 ⟨finite_of_word? ht, h⟩ u (List.mem_reverse.1 hu)
  all_goals cases hfinish

end Lexer

/-- The tokens of a text have no infinite number. -/
theorem finite_of_tokens? {text : List (Option Char)} {tokens : List Token}
    (h : tokens? text = some tokens) : ∀ t ∈ tokens, t.Finite := by
  obtain ⟨l, hl, h⟩ := Option.bind_eq_some_iff.1 h
  have hstart : Lexer.Finite ⟨.between, []⟩ := List.forall_mem_nil _
  have hfinite : l.Finite :=
    foldlM_invariant Lexer.finite_step (fun _ _ => trivial) hstart hl
  exact Lexer.finite_finish hfinite h

/-! ## The parser -/

namespace Doc

/-- How much nesting is left inside some open arrays and objects. -/
def left (around : List Frame) : Nat := depthLimit - around.length

/-- The parts of the open arrays and objects fit into what is left. -/
def AreOpen : List Frame → Prop
  | [] => True
  | .arr items :: around =>
    (∀ item ∈ items, item.Fits (left around - 1)) ∧ AreOpen around
  | .obj fields _ :: around =>
    (∀ field ∈ fields, field.2.Fits (left around - 1)) ∧ AreOpen around

namespace Parser

/-- What the parser has read so far fits. -/
def Fits : Parser → Prop
  | value around | firstItem around | firstName around => AreOpen around
  | afterItem items around => AreOpen (.arr items :: around)
  | nextName fields around | nextColon fields _ around | afterField fields around =>
    AreOpen (.obj fields none :: around)
  | finished doc => doc.Fits depthLimit

variable {around : List Frame} {doc : Doc}

/-- A document that fits may be put where it belongs. -/
theorem fits_push (hdoc : doc.Fits (left around)) (h : AreOpen around) :
    (push doc around).Fits := by
  cases around with
  | nil => exact hdoc
  | cons frame outer =>
    cases frame with
    | arr items => exact ⟨List.forall_mem_cons.2 ⟨hdoc, h.1⟩, h.2⟩
    | obj fields name => exact ⟨List.forall_mem_cons.2 ⟨hdoc, h.1⟩, h.2⟩

/-- An array or object takes one level of what is left, and beyond the limit it is not kept. -/
theorem fits_close (hdoc : ∀ limit, left around = limit + 1 → doc.Fits (limit + 1))
    (h : AreOpen around) : (close doc around).Fits := by
  refine fits_push ?_ h
  split
  · -- There is a level left, which is the one that the array or object takes.
    have hleft : left around = left around - 1 + 1 := by
      unfold left
      omega
    rw [hleft]
    exact hdoc _ hleft
  · unfold Doc.Fits
    trivial

/-- An array that is closed fits. -/
theorem fits_closeArray {items : List Doc} (h : AreOpen (.arr items :: around)) :
    (close (.arr .json items.reverse) around).Fits := by
  refine fits_close (fun limit hlimit item hitem => ?_) h.2
  have hfits := h.1 item (List.mem_reverse.1 hitem)
  rwa [hlimit] at hfits

/-- An object that is closed fits. -/
theorem fits_closeObject {fields : List (Option String × Doc)}
    (h : AreOpen (.obj fields none :: around)) :
    (close (.obj .json fields.reverse) around).Fits := by
  refine fits_close (fun limit hlimit field hfield => ?_) h.2
  have hfits := h.1 field (List.mem_reverse.1 hfield)
  rwa [hlimit] at hfits

/-- An array may be opened. -/
theorem areOpen_nil_arr (h : AreOpen around) : AreOpen (.arr [] :: around) :=
  ⟨nofun, h⟩

/-- An object may be opened. -/
theorem areOpen_nil_obj (h : AreOpen around) : AreOpen (.obj [] none :: around) :=
  ⟨nofun, h⟩

/-- A token that begins a value keeps what has been read within the limit. -/
theorem fits_open? {t : Token} (ht : t.Finite) (h : AreOpen around) {q : Parser}
    (hopen : open? around t = some q) : q.Fits := by
  cases t with
  | num n =>
    cases hopen
    refine fits_push ?_ h
    unfold Doc.Fits
    exact ht
  | null | bool _ | str _ =>
    cases hopen
    exact fits_push (by unfold Doc.Fits; trivial) h
  | openArray | openObject =>
    cases hopen
    exact h
  | closeArray | closeObject | comma | colon => cases hopen

/-- A token keeps that everything read so far fits. -/
theorem fits_step (p : Parser) (t : Token) (q : Parser) (h : p.Fits) (ht : t.Finite)
    (hstep : step p t = some q) : q.Fits := by
  unfold step at hstep
  split at hstep
  · exact fits_open? ht h hstep
  · cases hstep
    exact fits_closeArray (areOpen_nil_arr h)
  · exact fits_open? ht (areOpen_nil_arr h) hstep
  · cases hstep
    exact h
  · cases hstep
    exact fits_closeArray h
  · cases hstep
    exact fits_closeObject (areOpen_nil_obj h)
  · cases hstep
    exact areOpen_nil_obj h
  · cases hstep
    exact h
  · cases hstep
    exact h
  · cases hstep
    exact h
  · cases hstep
    exact fits_closeObject h
  all_goals cases hstep

end Parser

/-- A parsed document nests no more than the limit, and its numbers are finite. -/
theorem fits_of_parse? {text : List (Option Char)} {d : Doc} (h : parse? text = some d) :
    d.Fits depthLimit := by
  obtain ⟨tokens, htokens, h⟩ := Option.bind_eq_some_iff.1 h
  obtain ⟨p, hp, h⟩ := Option.bind_eq_some_iff.1 h
  have hstart : Parser.Fits (.value []) := trivial
  have hfits : p.Fits := foldlM_invariant Parser.fits_step (finite_of_tokens? htokens) hstart hp
  cases p with
  | finished doc =>
    cases h
    exact hfits
  | _ => cases h

end Doc

/-! ## Parts of a parsed document -/

/-- A known field is one of all fields. -/
theorem mem_of_knownFields {names : List String} {fields : List (Option String × Doc)}
    {known : List (String × Doc)} (h : knownFields names fields = some known)
    {field : String × Doc} (hfield : field ∈ known) : (some field.1, field.2) ∈ fields := by
  induction fields generalizing known with
  | nil =>
    cases h
    cases hfield
  | cons first rest ih =>
    obtain ⟨name, hname, h⟩ := Option.bind_eq_some_iff.1 h
    obtain ⟨others, hothers, h⟩ := Option.bind_eq_some_iff.1 h
    have hrest (hmem : field ∈ others) := List.mem_cons_of_mem first (ih hothers hmem)
    split at h
    · split at h
      · cases h
        exact hrest hfield
      · cases h
    split at h
    · cases h
    cases h
    rcases List.mem_cons.1 hfield with rfl | hmem
    · rw [← hname]
      exact List.mem_cons_self
    · exact hrest hmem

/-- What comes out of a list comes from one of its members. -/
theorem exists_of_mem_mapM {α β : Type} {f : α → Option β} {as : List α} {bs : List β}
    (h : as.mapM f = some bs) {b : β} (hb : b ∈ bs) : ∃ a ∈ as, f a = some b := by
  induction as generalizing bs with
  | nil =>
    cases h
    cases hb
  | cons a as ih =>
    rw [List.mapM_cons] at h
    obtain ⟨first, hfirst, h⟩ := Option.bind_eq_some_iff.1 h
    obtain ⟨rest, hrest, h⟩ := Option.bind_eq_some_iff.1 h
    cases h
    rcases List.mem_cons.1 hb with rfl | hb
    · exact ⟨a, List.mem_cons_self, hfirst⟩
    · obtain ⟨a', ha', hf⟩ := ih hrest hb
      exact ⟨a', List.mem_cons_of_mem a ha', hf⟩

/-- A value that may be `null` and is there is read from a document that is not `null`. -/
theorem Decode.eq_some_of_nullable {α : Type} {decode : Decoder α} {d : Doc} {a : α}
    (h : Decode.nullable decode d = some (some a)) : d ≠ .null ∧ decode d = some a := by
  cases d with
  | null => cases h
  | bool _ | num _ | str _ | arr _ _ | obj _ _ | tooDeep | outOfRange =>
    obtain ⟨_, hread, heq⟩ := Option.map_eq_some_iff.1 h
    cases heq
    exact ⟨nofun, hread⟩

namespace Doc

/-- The fields of a record have one level less. -/
theorem Fits.of_record? {limit : Nat} {d : Doc} (h : d.Fits (limit + 1)) {names : List String}
    {r : Record} (hr : d.record? names = some r) {name : String} {field : Doc}
    (hfield : r.doc? name = some field) : field.Fits limit := by
  have hmem := Dict.mem_of_lookup_eq_some hfield
  unfold record? at hr
  split at hr
  · obtain ⟨known, hknown, rfl⟩ := Option.map_eq_some_iff.1 hr
    exact h _ (mem_of_knownFields hknown hmem)
  · split at hr
    · cases hr
      exact h _ (List.of_mem_zip hmem).2
    · cases hr
  · cases hr
    exact h _ (List.of_mem_zip hmem).2
  · cases hr

/-- The items of a list have one level less, and each value is read from one of them. -/
theorem Fits.of_list {α : Type} {decode : Decoder α} {limit : Nat} {d : Doc}
    (h : d.Fits (limit + 1)) {as : List α} (hread : Decode.list decode d = some as) {a : α}
    (ha : a ∈ as) : ∃ item : Doc, item.Fits limit ∧ decode item = some a := by
  cases d with
  | arr _ items =>
    obtain ⟨item, hitem, hitemRead⟩ := exists_of_mem_mapM hread ha
    exact ⟨item, h item hitem, hitemRead⟩
  | _ => cases hread

end Doc

end Json

end ModelClient
