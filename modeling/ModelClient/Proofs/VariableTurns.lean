import ModelClient.Proofs.ConfigRoundTrips

/-!
# Variables and their settings

Seventeen variables of the environment can take the places of settings. What they come to is one
table (`Config.under`): each setting has what its own variable gives, or else what it had.

The argument is about one variable at a time. A turn of a variable (`Config.Variable.turn`) does
nothing if the variable is not given, so turns with the first variables only are turns with all
variables in an environment that gives only the first ones (`Config.turns_only`). A section of the
configuration is changed by its own variables only (`Config.turns_own`), and so the turns of all
variables are put together from sections (`Config.turns_overlaid`).
-/

namespace ModelClient

namespace Config

/-! ## Values -/

/-- The text stands for the truth value, blanks around it aside. -/
def SpellsFlag (value : String) (b : Bool) : Prop :=
  Text.trim value = if b then "true" else "false"

/-- The digits stand for the number. -/
structure IsNumeral (digits : List Char) (n : UInt32) : Prop where
  ne_nil : digits ≠ []
  isDigit : ∀ d ∈ digits, d.isDigit = true
  value : Nat.ofDigitChars 10 digits 0 = n.toNat

/-- The text stands for the number: digits with a plus in front or without one, blanks around them
aside. -/
def SpellsNumber (value : String) (n : UInt32) : Prop :=
  ∃ digits, IsNumeral digits n ∧
    ((Text.trim value).toList = digits ∨ (Text.trim value).toList = '+' :: digits)

/-- The truth value that is read is the one that the text stands for. -/
theorem readBool?_eq_some_iff {value : String} {b : Bool} :
    readBool? value = some b ↔ SpellsFlag value b := by
  unfold readBool? SpellsFlag
  split
  · next h => cases b <;> simp [h]
  · next h => cases b <;> simp [h]
  · next htrue hfalse =>
    refine iff_of_false nofun ?_
    cases b
    · exact hfalse
    · exact htrue

/-- The value of some digits is that of the core library. -/
theorem digitsValue_eq (ds : List Char) :
    Binary.digitsValue ds = Nat.ofDigitChars 10 ds 0 := by
  simp only [Binary.digitsValue, Nat.ofDigitChars, Nat.mul_comm]

/-- The check of the digits accepts the numerals. -/
theorem isNumeral_iff {ds : List Char} {n : UInt32} :
    (if !ds.isEmpty ∧ ds.all Char.isDigit ∧ Binary.digitsValue ds < 2 ^ 32 then
      some (UInt32.ofNat (Binary.digitsValue ds)) else none) = some n ↔ IsNumeral ds n := by
  rw [digitsValue_eq]
  constructor
  · intro h
    split at h
    · next hds =>
      obtain ⟨hne, hdigits, hlt⟩ := hds
      cases h
      refine ⟨by simpa using hne, List.all_eq_true.1 hdigits, ?_⟩
      exact (UInt32.toNat_ofNat_of_lt' hlt).symm
    · cases h
  · rintro ⟨hne, hdigits, hvalue⟩
    have hlt := n.toNat_lt
    rw [if_pos ⟨by simpa using hne, List.all_eq_true.2 hdigits, by omega⟩, hvalue,
      UInt32.ofNat_toNat]

/-- The number that is read is the one that the text stands for. -/
theorem readUInt32?_eq_some_iff {value : String} {n : UInt32} :
    readUInt32? value = some n ↔ SpellsNumber value n := by
  unfold readUInt32? SpellsNumber
  generalize (Text.trim value).toList = cs
  refine isNumeral_iff.trans ?_
  split
  · next ds =>
    -- What follows a plus has no other one in front of it, because a plus is no digit.
    refine ⟨fun h => ⟨ds, h, .inr rfl⟩, ?_⟩
    rintro ⟨digits, h, rfl | heq⟩
    · exact absurd (h.isDigit '+' List.mem_cons_self) (by decide)
    · cases heq
      exact h
  · next hplus =>
    refine ⟨fun h => ⟨cs, h, .inl rfl⟩, ?_⟩
    rintro ⟨digits, h, rfl | heq⟩
    · exact h
    · exact absurd heq (hplus digits)

/-! ## Variables -/

/-- The variables with a truth value. -/
def flagNames : List String :=
  ["YTOAI_CHAT_ENABLED", "YTOAI_EMBEDDING_ENABLED", "YTOAI_IMAGE_ENABLED"]

/-- The variables with a number. -/
def numberNames : List String := ["YTOAI_EMBEDDING_DIMENSIONS", "YTOAI_RETRY_MAX_ATTEMPTS"]

/-- The text is spelled right for the variable. -/
structure Spells (name value : String) : Prop where
  flag : name ∈ flagNames → ∃ b, SpellsFlag value b
  number : name ∈ numberNames → ∃ n, SpellsNumber value n

/-- The variable is not given, or it is spelled right. -/
def IsSpelled (lookup : String → Option String) (name : String) : Prop :=
  ∀ value ∈ given? lookup name, Spells name value

/-- The truth values and numbers that are given are spelled right. -/
def WellSpelled (lookup : String → Option String) : Prop :=
  ∀ name ∈ flagNames ++ numberNames, IsSpelled lookup name

/-- A variable is refused exactly if it is not spelled right, whatever the configuration is. -/
def Variable.Checks (v : Variable) : Prop :=
  ∀ value c, v.set value c = none ↔ ¬Spells v.name value

section Checks

variable {name : String}

/-- A variable with a truth value sets what is read. -/
theorem set_flag (set : Bool → Config → Config) (value : String) (c : Config) :
    (boolVariable name set).set value c = (readBool? value).map (set · c) := by
  simp only [boolVariable]

/-- A variable with a number sets what is read. -/
theorem set_number (set : UInt32 → Config → Config) (value : String) (c : Config) :
    (numberVariable name set).set value c = (readUInt32? value).map (set · c) := by
  simp only [numberVariable]

/-- A text is never refused. -/
theorem checks_text (hflag : name ∉ flagNames) (hnumber : name ∉ numberNames)
    (set : String → Config → Config) : (textVariable name set).Checks := by
  intro value c
  have hspells : Spells name value := ⟨fun h => absurd h hflag, fun h => absurd h hnumber⟩
  exact iff_of_false nofun (not_not_intro hspells)

/-- What is read is refused unless it is spelled right. -/
theorem checks_read {α : Type} {v : Variable} {set : α → Config → Config}
    {read : String → Option α} {Stands : String → α → Prop}
    (hset : ∀ value c, v.set value c = (read value).map (set · c))
    (hread : ∀ value a, read value = some a ↔ Stands value a)
    (hspells : ∀ value, Spells v.name value ↔ ∃ a, Stands value a) : v.Checks := by
  intro value c
  rw [hset, Option.map_eq_none_iff, Option.eq_none_iff_forall_ne_some, hspells, not_exists]
  exact forall_congr' fun a => not_congr (hread value a)

/-- A truth value is refused unless it is spelled right. -/
theorem checks_flag (hflag : name ∈ flagNames) (hnumber : name ∉ numberNames)
    (set : Bool → Config → Config) : (boolVariable name set).Checks := by
  refine checks_read (set_flag set) (fun _ _ => readBool?_eq_some_iff) fun value => ?_
  exact ⟨fun h => h.flag hflag, fun h => ⟨fun _ => h, fun h => absurd h hnumber⟩⟩

/-- A number is refused unless it is spelled right. -/
theorem checks_number (hflag : name ∉ flagNames) (hnumber : name ∈ numberNames)
    (set : UInt32 → Config → Config) : (numberVariable name set).Checks := by
  refine checks_read (set_number set) (fun _ _ => readUInt32?_eq_some_iff) fun value => ?_
  exact ⟨fun h => h.number hnumber, fun h => ⟨fun h => absurd h hflag, fun _ => h⟩⟩

end Checks

/-- Every variable checks its spelling and nothing else. -/
theorem checks_overlaid : ∀ v ∈ overlaid, v.Checks := by
  have text {name : String} (h : name ∉ flagNames ∧ name ∉ numberNames) :=
    checks_text h.1 h.2
  simp only [overlaid, List.forall_mem_cons]
  refine ⟨?_, ?_, ?_, ?_, ?_, ?_, ?_, ?_, ?_, ?_, ?_, ?_, ?_, ?_, ?_, ?_, ?_,
    List.forall_mem_nil _⟩
  · exact text (by decide) _
  · exact text (by decide) _
  · exact checks_flag (by decide) (by decide) _
  · exact text (by decide) _
  · exact text (by decide) _
  · exact text (by decide) _
  · exact checks_flag (by decide) (by decide) _
  · exact text (by decide) _
  · exact text (by decide) _
  · exact text (by decide) _
  · exact checks_number (by decide) (by decide) _
  · exact checks_flag (by decide) (by decide) _
  · exact text (by decide) _
  · exact text (by decide) _
  · exact text (by decide) _
  · exact text (by decide) _
  · exact checks_number (by decide) (by decide) _

/-! ## One variable after the other -/

/-- What becomes of a configuration when a variable is looked up. -/
def Variable.turn (v : Variable) (lookup : String → Option String) (c : Config) : Config :=
  ((given? lookup v.name).bind (v.set · c)).getD c

/-- What becomes of a configuration when some variables are looked up. -/
def turns (lookup : String → Option String) (vs : List Variable) (c : Config) : Config :=
  vs.foldl (fun c v => v.turn lookup c) c

/-- The environment that gives some of the variables only. -/
def only (names : List String) (lookup : String → Option String) (name : String) : Option String :=
  if name ∈ names then lookup name else none

variable {lookup : String → Option String}

/-- The first variable has its turn before the others. -/
theorem turns_cons (v : Variable) (vs : List Variable) (c : Config) :
    turns lookup (v :: vs) c = turns lookup vs (v.turn lookup c) := rfl

/-- Some variables have their turns before the others. -/
theorem turns_append (vs ws : List Variable) (c : Config) :
    turns lookup (vs ++ ws) c = turns lookup ws (turns lookup vs c) :=
  List.foldl_append

/-- A variable that is not given does nothing. -/
theorem Variable.turn_of_none {v : Variable} (h : given? lookup v.name = none) (c : Config) :
    v.turn lookup c = c := by
  rw [turn, h]
  rfl

/-- What a variable does depends on its own value only. -/
theorem Variable.turn_congr {v : Variable} {other : String → Option String}
    (h : given? lookup v.name = given? other v.name) (c : Config) :
    v.turn lookup c = v.turn other c := by
  rw [turn, h, turn]

/-- A variable that is kept has its value. -/
theorem given?_only_of_mem {names : List String} {name : String} (h : name ∈ names) :
    given? (only names lookup) name = given? lookup name := by
  rw [given?, only, if_pos h, given?]

/-- A variable that is not kept is not given. -/
theorem given?_only_of_not_mem {names : List String} {name : String} (h : name ∉ names) :
    given? (only names lookup) name = none := by
  rw [given?, only, if_neg h]
  rfl

/-- A configuration that every variable leaves as it is stays so. -/
theorem turns_eq_self {vs : List Variable} {c : Config} (h : ∀ v ∈ vs, v.turn lookup c = c) :
    turns lookup vs c = c := by
  induction vs with
  | nil => rfl
  | cons v vs ih =>
    obtain ⟨hv, hvs⟩ := List.forall_mem_cons.1 h
    rw [turns_cons, hv, ih hvs]

/-- What some variables make of a configuration depends on these variables only. -/
theorem turns_congr {other : String → Option String} {vs : List Variable}
    (h : ∀ v ∈ vs, given? lookup v.name = given? other v.name) (c : Config) :
    turns lookup vs c = turns other vs c := by
  induction vs generalizing c with
  | nil => rfl
  | cons v vs ih =>
    obtain ⟨hv, hvs⟩ := List.forall_mem_cons.1 h
    rw [turns_cons, Variable.turn_congr hv, ih hvs, turns_cons]

/-- Looking up the first variables is looking up all of them where only the first ones are given. -/
theorem turns_only {before after : List Variable}
    (hnames : ((before ++ after).map (·.name)).Nodup) (c : Config) :
    turns (only (before.map (·.name)) lookup) (before ++ after) c = turns lookup before c := by
  rw [List.map_append] at hnames
  rw [turns_append, turns_eq_self, turns_congr]
  · exact fun v hv => given?_only_of_mem (List.mem_map_of_mem hv)
  · exact fun v hv => Variable.turn_of_none (given?_only_of_not_mem fun hmem =>
      List.disjoint_of_nodup_append hnames hmem (List.mem_map_of_mem hv)) _

/-- A variable that is looked up is not given, or it takes the place of its setting, or it ends the
overlay. -/
theorem overlayFrom_cons (v : Variable) (rest : List Variable) (c : Config) :
    overlayFrom lookup (v :: rest) c =
      match given? lookup v.name with
      | none => overlayFrom lookup rest c
      | some value =>
        match v.set value c with
        | some next => overlayFrom lookup rest next
        | none => (c, some (invalidValue v.name value)) := by
  rw [overlayFrom, given?]
  cases lookup v.name with
  | none => rfl
  | some value =>
    simp only [Option.filter_some]
    cases Text.isBlank value <;> rfl

/-- A variable that is spelled right has its turn, and the overlay goes on. -/
theorem overlayFrom_of_isSpelled {v : Variable} (hv : v.Checks)
    (h : IsSpelled lookup v.name) (rest : List Variable) (c : Config) :
    overlayFrom lookup (v :: rest) c = overlayFrom lookup rest (v.turn lookup c) := by
  rw [overlayFrom_cons, Variable.turn]
  cases hgiven : given? lookup v.name with
  | none => rfl
  | some value =>
    cases hset : v.set value c with
    | none => exact absurd (h value hgiven) ((hv value c).1 hset)
    | some next => simp [hset]

/-- A variable that is not spelled right ends the overlay with an error about its value. -/
theorem overlayFrom_of_not_spells {v : Variable} (hv : v.Checks) {value : String}
    (hgiven : given? lookup v.name = some value) (hvalue : ¬Spells v.name value)
    (rest : List Variable) (c : Config) :
    overlayFrom lookup (v :: rest) c = (c, some (invalidValue v.name value)) := by
  rw [overlayFrom_cons, hgiven]
  simp only [(hv value c).2 hvalue]

/-- Variables that are spelled right have their turns. -/
theorem overlayFrom_append {before : List Variable} (hchecks : ∀ v ∈ before, v.Checks)
    (h : ∀ v ∈ before, IsSpelled lookup v.name) (rest : List Variable) (c : Config) :
    overlayFrom lookup (before ++ rest) c = overlayFrom lookup rest (turns lookup before c) := by
  induction before generalizing c with
  | nil => rfl
  | cons v before ih =>
    obtain ⟨hv, hbefore⟩ := List.forall_mem_cons.1 hchecks
    obtain ⟨hspelled, hrest⟩ := List.forall_mem_cons.1 h
    rw [List.cons_append, overlayFrom_of_isSpelled hv hspelled, ih hbefore hrest, turns_cons]

/-! ## The settings -/

open Classical in
/-- What the value that the environment gives stands for, if it stands for anything. -/
noncomputable def spelled? {α : Type} (Stands : String → α → Prop)
    (lookup : String → Option String) (name : String) : Option α :=
  (given? lookup name).bind fun value =>
    if h : ∃ a, Stands value a then some h.choose else none

/-- The truth value that the environment gives. -/
noncomputable def flag? : (String → Option String) → String → Option Bool := spelled? SpellsFlag

/-- The number that the environment gives. -/
noncomputable def number? : (String → Option String) → String → Option UInt32 :=
  spelled? SpellsNumber

/-- What a value stands for is what a reader finds that accepts the same spellings. -/
theorem spelled?_eq_bind {α : Type} {Stands : String → α → Prop} {read : String → Option α}
    (hread : ∀ value a, read value = some a ↔ Stands value a) (name : String) :
    spelled? Stands lookup name = (given? lookup name).bind read := by
  refine congrArg (given? lookup name).bind (funext fun value => ?_)
  split
  · next h => exact ((hread value _).2 h.choose_spec).symm
  · next h =>
    refine (Option.eq_none_iff_forall_ne_some.2 fun a ha => ?_).symm
    exact h ⟨a, (hread value a).1 ha⟩

/-- The configuration in which every variable that is given has taken the place of its setting. -/
noncomputable def under (c : Config) (lookup : String → Option String) : Config :=
  { c with
    baseUrl := (given? lookup "YTOAI_BASE_URL").getD c.baseUrl
    apiKey := (given? lookup "YTOAI_API_KEY").getD c.apiKey
    chat.enabled := (flag? lookup "YTOAI_CHAT_ENABLED").getD c.chat.enabled
    chat.baseUrl := given? lookup "YTOAI_CHAT_BASE_URL" <|> c.chat.baseUrl
    chat.apiKey := given? lookup "YTOAI_CHAT_API_KEY" <|> c.chat.apiKey
    chat.options.model := given? lookup "YTOAI_CHAT_MODEL" <|> c.chat.options.model
    embedding.enabled := (flag? lookup "YTOAI_EMBEDDING_ENABLED").getD c.embedding.enabled
    embedding.baseUrl := given? lookup "YTOAI_EMBEDDING_BASE_URL" <|> c.embedding.baseUrl
    embedding.apiKey := given? lookup "YTOAI_EMBEDDING_API_KEY" <|> c.embedding.apiKey
    embedding.options.model :=
      given? lookup "YTOAI_EMBEDDING_MODEL" <|> c.embedding.options.model
    embedding.options.dimensions :=
      number? lookup "YTOAI_EMBEDDING_DIMENSIONS" <|> c.embedding.options.dimensions
    image.enabled := (flag? lookup "YTOAI_IMAGE_ENABLED").getD c.image.enabled
    image.baseUrl := given? lookup "YTOAI_IMAGE_BASE_URL" <|> c.image.baseUrl
    image.apiKey := given? lookup "YTOAI_IMAGE_API_KEY" <|> c.image.apiKey
    image.options.model := given? lookup "YTOAI_IMAGE_MODEL" <|> c.image.options.model
    image.options.user := given? lookup "YTOAI_IMAGE_USER" <|> c.image.options.user
    retry.maxAttempts :=
      (number? lookup "YTOAI_RETRY_MAX_ATTEMPTS").getD c.retry.maxAttempts }

/-- The parts of a configuration. -/
inductive Section where
  | connection
  | chat
  | embedding
  | image
  | retry

namespace Section

/-- The variables of the settings of a section. -/
def names : Section → List String
  | connection => ["YTOAI_BASE_URL", "YTOAI_API_KEY"]
  | chat => ["YTOAI_CHAT_ENABLED", "YTOAI_CHAT_BASE_URL", "YTOAI_CHAT_API_KEY", "YTOAI_CHAT_MODEL"]
  | embedding => ["YTOAI_EMBEDDING_ENABLED", "YTOAI_EMBEDDING_BASE_URL", "YTOAI_EMBEDDING_API_KEY",
    "YTOAI_EMBEDDING_MODEL", "YTOAI_EMBEDDING_DIMENSIONS"]
  | image => ["YTOAI_IMAGE_ENABLED", "YTOAI_IMAGE_BASE_URL", "YTOAI_IMAGE_API_KEY",
    "YTOAI_IMAGE_MODEL", "YTOAI_IMAGE_USER"]
  | retry => ["YTOAI_RETRY_MAX_ATTEMPTS"]

/-- The configurations have the same settings in the section. -/
def Same : Section → Config → Config → Prop
  | connection, c, d => c.baseUrl = d.baseUrl ∧ c.apiKey = d.apiKey
  | chat, c, d => c.chat = d.chat
  | embedding, c, d => c.embedding = d.embedding
  | image, c, d => c.image = d.image
  | retry, c, d => c.retry = d.retry

/-- A configuration with a section of another one. -/
def graft : Section → Config → Config → Config
  | connection, d, c => { c with baseUrl := d.baseUrl, apiKey := d.apiKey }
  | chat, d, c => { c with chat := d.chat }
  | embedding, d, c => { c with embedding := d.embedding }
  | image, d, c => { c with image := d.image }
  | retry, d, c => { c with retry := d.retry }

/-- The variables of a section, in the order in which they are looked up. -/
def own (σ : Section) : List Variable := overlaid.filter fun v => v.name ∈ σ.names

end Section

/-- The variables are looked up section by section. -/
theorem overlaid_eq_flatMap :
    overlaid = [Section.connection, .chat, .embedding, .image, .retry].flatMap (·.own) := by
  rfl

/-- The turn of a variable with a text sets the text, if it is given. -/
theorem turn_text (name : String) (set : String → Config → Config) (c : Config) :
    (textVariable name set).turn lookup c = (given? lookup name).elim c (set · c) := by
  show ((given? lookup name).bind fun value => some (set value c)).getD c = _
  cases given? lookup name <;> rfl

/-- The turn of a variable that is read sets what its value stands for, if it is given. -/
theorem turn_read {α : Type} {v : Variable} {set : α → Config → Config}
    {read : String → Option α} {Stands : String → α → Prop}
    (hset : ∀ value c, v.set value c = (read value).map (set · c))
    (hread : ∀ value a, read value = some a ↔ Stands value a) (c : Config) :
    v.turn lookup c = (spelled? Stands lookup v.name).elim c (set · c) := by
  rw [Variable.turn, spelled?_eq_bind hread]
  cases given? lookup v.name with
  | none => rfl
  | some value =>
    simp only [Option.bind_some, hset]
    cases read value <;> rfl

/-- The turn of a variable with a truth value sets the truth value, if it is given. -/
theorem turn_flag (name : String) (set : Bool → Config → Config) (c : Config) :
    (boolVariable name set).turn lookup c = (flag? lookup name).elim c (set · c) :=
  turn_read (set_flag set) (fun _ _ => readBool?_eq_some_iff) c

/-- The turn of a variable with a number sets the number, if it is given. -/
theorem turn_number (name : String) (set : UInt32 → Config → Config) (c : Config) :
    (numberVariable name set).turn lookup c = (number? lookup name).elim c (set · c) :=
  turn_read (set_number set) (fun _ _ => readUInt32?_eq_some_iff) c

/-- The variables of a section change this section and nothing else. -/
theorem turns_own (σ : Section) (c : Config) :
    turns lookup σ.own c = σ.graft (c.under lookup) c := by
  -- The turns of a section touch different settings, so each may be given or not by itself.
  cases σ with
  | connection =>
    have hown : Section.connection.own = overlaid.take 2 := rfl
    rw [hown]
    simp only [overlaid, List.take_succ_cons, List.take_zero, turns, List.foldl_cons, List.foldl_nil,
      turn_text, Section.graft, under]
    cases given? lookup "YTOAI_BASE_URL" <;> cases given? lookup "YTOAI_API_KEY" <;> rfl
  | chat =>
    have hown : Section.chat.own = (overlaid.drop 2).take 4 := rfl
    rw [hown]
    simp only [overlaid, List.drop_succ_cons, List.drop_zero, List.take_succ_cons, List.take_zero,
      turns, List.foldl_cons, List.foldl_nil, turn_text, turn_flag, Section.graft, under]
    cases flag? lookup "YTOAI_CHAT_ENABLED" <;> cases given? lookup "YTOAI_CHAT_BASE_URL" <;>
      cases given? lookup "YTOAI_CHAT_API_KEY" <;> cases given? lookup "YTOAI_CHAT_MODEL" <;> rfl
  | embedding =>
    have hown : Section.embedding.own = (overlaid.drop 6).take 5 := rfl
    rw [hown]
    simp only [overlaid, List.drop_succ_cons, List.drop_zero, List.take_succ_cons, List.take_zero,
      turns, List.foldl_cons, List.foldl_nil, turn_text, turn_flag, turn_number, Section.graft,
      under]
    cases flag? lookup "YTOAI_EMBEDDING_ENABLED" <;>
      cases given? lookup "YTOAI_EMBEDDING_BASE_URL" <;>
      cases given? lookup "YTOAI_EMBEDDING_API_KEY" <;>
      cases given? lookup "YTOAI_EMBEDDING_MODEL" <;>
      cases number? lookup "YTOAI_EMBEDDING_DIMENSIONS" <;> rfl
  | image =>
    have hown : Section.image.own = (overlaid.drop 11).take 5 := rfl
    rw [hown]
    simp only [overlaid, List.drop_succ_cons, List.drop_zero, List.take_succ_cons, List.take_zero,
      turns, List.foldl_cons, List.foldl_nil, turn_text, turn_flag, Section.graft, under]
    cases flag? lookup "YTOAI_IMAGE_ENABLED" <;> cases given? lookup "YTOAI_IMAGE_BASE_URL" <;>
      cases given? lookup "YTOAI_IMAGE_API_KEY" <;> cases given? lookup "YTOAI_IMAGE_MODEL" <;>
      cases given? lookup "YTOAI_IMAGE_USER" <;> rfl
  | retry =>
    have hown : Section.retry.own = overlaid.drop 16 := rfl
    rw [hown]
    simp only [overlaid, List.drop_succ_cons, List.drop_zero, turns, List.foldl_cons,
      List.foldl_nil, turn_number, Section.graft, under]
    cases number? lookup "YTOAI_RETRY_MAX_ATTEMPTS" <;> rfl

/-- All variables make of a configuration what the table says. -/
theorem turns_overlaid (c : Config) : turns lookup overlaid c = c.under lookup := by
  rw [overlaid_eq_flatMap]
  simp only [List.flatMap_cons, List.flatMap_nil, turns_append, turns_own]
  rfl

/-- No two variables have the same name. -/
theorem nodup_names_overlaid : (overlaid.map (·.name)).Nodup := by decide

/-- The first variables make of a configuration what the table says for them. -/
theorem turns_eq_under {before after : List Variable} (h : overlaid = before ++ after)
    (c : Config) : turns lookup before c = c.under (only (before.map (·.name)) lookup) := by
  have hnames := nodup_names_overlaid
  rw [h] at hnames
  rw [← turns_only hnames, ← h, turns_overlaid]

/-- One variable makes of a configuration what the table says for it. -/
theorem turn_eq_under {v : Variable} (hv : v ∈ overlaid) (c : Config) :
    v.turn lookup c = c.under (only [v.name] lookup) := by
  obtain ⟨before, after, hoverlaid⟩ := List.append_of_mem hv
  have hnames := nodup_names_overlaid
  rw [hoverlaid, List.map_append, List.map_cons, List.nodup_middle, List.nodup_cons] at hnames
  have hothers {w : Variable} (hw : w ∈ before ++ after) (c : Config) :
      w.turn (only [v.name] lookup) c = c := by
    refine Variable.turn_of_none (given?_only_of_not_mem fun hmem => hnames.1 ?_) c
    rw [← List.mem_singleton.1 hmem, ← List.map_append]
    exact List.mem_map_of_mem hw
  calc v.turn lookup c
      = v.turn (only [v.name] lookup) c :=
        Variable.turn_congr (given?_only_of_mem (List.mem_singleton_self _)).symm c
    _ = turns (only [v.name] lookup) overlaid c := by
        rw [hoverlaid, turns_append, turns_cons,
          turns_eq_self fun w hw => hothers (List.mem_append_left _ hw) c,
          turns_eq_self fun w hw => hothers (List.mem_append_right _ hw) _]
    _ = c.under (only [v.name] lookup) := turns_overlaid c

/-- A section is as its own variables make it. -/
theorem Section.same_under {other : String → Option String} {σ : Section}
    (h : ∀ name ∈ σ.names, given? lookup name = given? other name) (c : Config) :
    σ.Same (c.under lookup) (c.under other) := by
  cases σ <;> simp only [names, List.forall_mem_cons, List.not_mem_nil] at h <;>
    simp [Same, under, flag?, number?, spelled?, h]

section Absorb

variable {α : Type} {given less : Option α}

/-- A value that is given again, or not given, stays in the place of the setting. -/
theorem orElse_absorb (h : less = none ∨ less = given) (x : Option α) :
    (less <|> (given <|> x)) = (given <|> x) := by
  rcases h with rfl | rfl
  · rfl
  · cases less <;> rfl

/-- A value that is given again, or not given, stays in the place of a setting that is always there.
-/
theorem getD_absorb (h : less = none ∨ less = given) (x : α) :
    less.getD (given.getD x) = given.getD x := by
  rcases h with rfl | rfl
  · rfl
  · cases less <;> rfl

end Absorb

/-- A value that is given again, or not given, stands for the same, or for nothing. -/
theorem spelled?_absorb {α : Type} {Stands : String → α → Prop} {other : String → Option String}
    {name : String} (h : given? other name = none ∨ given? other name = given? lookup name) :
    spelled? Stands other name = none ∨
      spelled? Stands other name = spelled? Stands lookup name := by
  rcases h with hnone | hsame
  · exact .inl (by rw [spelled?, hnone, Option.bind_none])
  · exact .inr (by rw [spelled?, hsame, spelled?])

/-- What the table says is not changed by an environment that gives the same or less. -/
theorem under_under {other : String → Option String}
    (h : ∀ name, given? other name = none ∨ given? other name = given? lookup name) (c : Config) :
    (c.under lookup).under other = c.under lookup := by
  have hflag (name : String) : flag? other name = none ∨ flag? other name = flag? lookup name :=
    spelled?_absorb (h name)
  have hnumber (name : String) :
      number? other name = none ∨ number? other name = number? lookup name :=
    spelled?_absorb (h name)
  simp only [under, orElse_absorb (h _), getD_absorb (h _), getD_absorb (hflag _),
    orElse_absorb (hnumber _), getD_absorb (hnumber _)]

end Config

end ModelClient
