import ModelClient.Proofs.Aggregation

/-!
# The roles that a stream remembers

Only the first part of a streamed completion names the role, so a stream remembers the roles by
completion id. How the choices are spread over completions plays no part in that: a stream is one
sequence of choices, each with the id of its completion (`Utterance`), and its generations are what
is heard of that sequence (`ChatResponse.generations_streamed`).

What the roles are at any time is described without the dictionary: the role of an id is the first
one that was given under it (`firstRole`). That the dictionary agrees (`Remembers`) is the invariant
of the sequence. The first role that was given does not depend on what comes after it, nor on what
is said under other ids.

The main result is `ChatResponse.roles_streamed`.
-/

namespace ModelClient

/-- A choice of a stream, with the id of its completion. -/
structure Utterance where
  id : String
  choice : Wire.Choice

/-- The choices of a completion. An absent id counts as the empty one. -/
def Wire.Completion.utterances (c : Wire.Completion) : List Utterance :=
  c.choices.map (⟨c.id.getD "", ·⟩)

/-- The first role that was given under an id. -/
def firstRole (id : String) (said : List Utterance) : Option Wire.Role :=
  said.findSome? fun u => if u.id = id then u.choice.message.role else none

/-- The text for a role, which is empty for one that is not known. -/
def roleText (role : Option Wire.Role) : String := (role.map Wire.Role.name).getD ""

/-- A role that was given stays the first one. -/
theorem firstRole_append (id : String) (said more : List Utterance) :
    firstRole id (said ++ more) = (firstRole id said).or (firstRole id more) :=
  List.findSome?_append

/-- What is said later does not change the first role. -/
theorem firstRole_of_isPrefix {id : String} {role : Wire.Role} {said more : List Utterance}
    (h : said <+: more) (hrole : firstRole id said = some role) :
    firstRole id more = some role := by
  obtain ⟨rest, rfl⟩ := h
  rw [firstRole_append, hrole, Option.some_or]

namespace Generation

/-- The completion that the metadata of a generation names. -/
def completionId? (g : Generation) : Option Json := g.output.metadata.get? "id"

/-- The role that the metadata of a generation names. -/
def role? (g : Generation) : Option Json := g.output.metadata.get? "role"

/-- A generation names the completion that it is made for. -/
theorem completionId?_ofChoice (choice : Wire.Choice) (id role : String) :
    (ofChoice choice id role).completionId? = some (.str id) := by
  simp [completionId?, ofChoice, Dict.ofList, Dict.insertAll, Dict.get?_insert]

/-- A generation names the role that it is made with. -/
theorem role?_ofChoice (choice : Wire.Choice) (id role : String) :
    (ofChoice choice id role).role? = some (.str role) := by
  simp [role?, ofChoice, Dict.ofList, Dict.insertAll, Dict.get?_insert]

end Generation

namespace ChatResponse

/-! ## The dictionary of roles -/

/-- A role is remembered for its own id only. -/
theorem Roles.get?_remember_of_ne {id other : String} (h : other ≠ id) (roles : Roles)
    (role : Option Wire.Role) : (roles.remember id role).get? other = roles.get? other := by
  unfold remember
  split
  · rw [Dict.get?_insert, if_neg h]
  · rfl

/-- The dictionary has the first role for each id. -/
def Remembers (roles : Roles) (said : List Utterance) : Prop :=
  ∀ id, roles.get? id = firstRole id said

/-- At first no role is known. -/
theorem remembers_empty : Remembers {} [] := fun _ => rfl

/-- Remembering the role of one more choice. -/
theorem Remembers.remember {roles : Roles} {said : List Utterance} (h : Remembers roles said)
    (u : Utterance) :
    Remembers (roles.remember u.id u.choice.message.role) (said ++ [u]) := by
  intro id
  have hlast : firstRole id [u] = if u.id = id then u.choice.message.role else none := by
    cases hrole : (if u.id = id then u.choice.message.role else none) <;>
      simp only [firstRole, List.findSome?_cons, List.findSome?_nil, hrole]
  rw [firstRole_append, hlast, ← h id]
  by_cases hid : u.id = id
  · subst hid
    rw [Roles.get?_remember, if_pos rfl]
    exact Option.or_eq_orElse.symm
  · rw [Roles.get?_remember_of_ne (Ne.symm hid), if_neg hid, Option.or_none]

/-! ## The choices of a stream, one after the other -/

/-- The generations of a sequence of choices, and the roles known after them. -/
def heard : Roles → List Utterance → List Generation × Roles
  | roles, [] => ([], roles)
  | roles, u :: rest =>
    let roles := roles.remember u.id u.choice.message.role
    let (generations, known) := heard roles rest
    (.ofChoice u.choice u.id (roleText (roles.get? u.id)) :: generations, known)

/-- Two sequences of choices are heard one after the other, with the roles known in between. -/
theorem heard_append (roles : Roles) (said more : List Utterance) :
    heard roles (said ++ more) =
      ((heard roles said).1 ++ (heard (heard roles said).2 more).1,
        (heard (heard roles said).2 more).2) := by
  induction said generalizing roles with
  | nil => rfl
  | cons u rest ih => simp only [List.cons_append, heard, ih]

/-- Every choice is heard as a generation. -/
theorem length_heard (roles : Roles) (said : List Utterance) :
    (heard roles said).1.length = said.length := by
  induction said generalizing roles with
  | nil => rfl
  | cons u rest ih => simp only [heard, List.length_cons, ih]

/-- The generations of a completion are what is heard of its choices. -/
theorem generationsOf_eq_heard (id : String) (roles : Roles) (choices : List Wire.Choice) :
    generationsOf id roles choices = heard roles (choices.map (⟨id, ·⟩)) := by
  induction choices generalizing roles with
  | nil => rfl
  | cons choice rest ih =>
    simp only [generationsOf, List.map_cons, heard, ih]
    rfl

/-- The responses of a sequence of streamed completions, and the roles known after them. -/
def streamed : Roles → List Wire.Completion → List ChatResponse × Roles
  | roles, [] => ([], roles)
  | roles, c :: rest =>
    let (response, roles) := ofStreamed roles c
    let (responses, known) := streamed roles rest
    (response :: responses, known)

/-- The parts of a stream are the responses of the completions that its chunks stand for. -/
theorem parts_eq_streamed (roles : Roles) (chunks : List Wire.Chunk) :
    parts roles chunks = streamed roles (chunks.map Wire.Chunk.toCompletion) := by
  induction chunks generalizing roles with
  | nil => rfl
  | cons chunk rest ih => simp only [parts, List.map_cons, streamed, ih]

/-- All generations of a sequence of streamed completions, in order. -/
def generationsStreamed (cs : List Wire.Completion) : List Generation :=
  (streamed {} cs).1.flatMap (·.generations)

/-- The generations of some completions are what is heard of all their choices. -/
theorem generations_streamed_from (roles : Roles) (cs : List Wire.Completion) :
    ((streamed roles cs).1.flatMap (·.generations), (streamed roles cs).2) =
      heard roles (cs.flatMap Wire.Completion.utterances) := by
  induction cs generalizing roles with
  | nil => rfl
  | cons c rest ih =>
    rw [List.flatMap_cons, heard_append, Wire.Completion.utterances, ← generationsOf_eq_heard,
      ← ih]
    rfl

/-- The generations of a stream are what is heard of its choices. -/
theorem generations_streamed (cs : List Wire.Completion) :
    generationsStreamed cs = (heard {} (cs.flatMap Wire.Completion.utterances)).1 :=
  congrArg Prod.fst (generations_streamed_from {} cs)

/-! ## What is heard -/

/-- Each choice is heard with the first role that was given under its id up to then. -/
theorem heard_eq {roles : Roles} {past : List Utterance} (h : Remembers roles past)
    (said : List Utterance) :
    (heard roles said).1 = said.mapIdx fun k u =>
      .ofChoice u.choice u.id (roleText (firstRole u.id (past ++ said.take (k + 1)))) := by
  induction said generalizing roles past with
  | nil => rfl
  | cons u rest ih =>
    have hstep := h.remember u
    rw [List.mapIdx_cons]
    simp only [heard, ih hstep, hstep u.id, List.take_succ_cons, List.take_zero, List.append_assoc,
      List.singleton_append]

/-- What is heard under an id depends on what is said under it, and on the role known for it. -/
theorem filter_heard {id : String} {roles known : Roles} (h : roles.get? id = known.get? id)
    (said : List Utterance) :
    (heard roles said).1.filter (·.completionId? = some (.str id)) =
      (heard known (said.filter (·.id = id))).1 := by
  induction said generalizing roles known with
  | nil => rfl
  | cons u rest ih =>
    by_cases hid : u.id = id
    · subst hid
      have hstep : (roles.remember u.id u.choice.message.role).get? u.id =
          (known.remember u.id u.choice.message.role).get? u.id := by
        rw [Roles.get?_remember, Roles.get?_remember, h]
      rw [List.filter_cons_of_pos (by simp)]
      simp only [heard]
      rw [List.filter_cons_of_pos (by simp [Generation.completionId?_ofChoice]), hstep, ih hstep]
    · have hstep : (roles.remember u.id u.choice.message.role).get? id = known.get? id := by
        rw [Roles.get?_remember_of_ne (Ne.symm hid), h]
      rw [List.filter_cons_of_neg (by simpa using hid)]
      simp only [heard]
      rw [List.filter_cons_of_neg (by simp [Generation.completionId?_ofChoice, hid]), ih hstep]

/-- A role that has been heard under an id is heard under it from then on. -/
theorem pairwise_heard (said : List Utterance) :
    (heard {} said).1.Pairwise fun g later =>
      later.completionId? = g.completionId? → g.role? ≠ some (.str "") →
        later.role? = g.role? := by
  rw [heard_eq remembers_empty, List.pairwise_iff_getElem]
  intro k l hk hl hkl hid hrole
  simp only [List.getElem_mapIdx, Generation.completionId?_ofChoice, Generation.role?_ofChoice,
    Option.some.injEq, Json.str.injEq, List.nil_append] at hid hrole ⊢
  rw [List.length_mapIdx] at hk hl
  rw [hid]
  have hprefix : said.take (k + 1) <+: said.take (l + 1) :=
    List.take_prefix_take_left (by omega)
  cases hfirst : firstRole said[k].id (said.take (k + 1)) with
  | none => exact absurd (by rw [hfirst]; rfl) hrole
  | some role => rw [firstRole_of_isPrefix hprefix hfirst]

/-! ## Streams -/

/-- A response of a stream has a generation for each choice. -/
theorem lengths_streamed (roles : Roles) (cs : List Wire.Completion) :
    (streamed roles cs).1.map (·.generations.length) = cs.map (·.choices.length) := by
  induction cs generalizing roles with
  | nil => rfl
  | cons c rest ih =>
    have hlength : (ofStreamed roles c).1.generations.length = c.choices.length := by
      show (generationsOf (c.id.getD "") roles c.choices).1.length = _
      rw [generationsOf_eq_heard, length_heard, List.length_map]
    rw [List.map_cons, ← ih (ofStreamed roles c).2, ← hlength]
    rfl

/-- The choices that are said under an id are those of the completions with that id. -/
theorem filter_utterances (id : String) (cs : List Wire.Completion) :
    (cs.flatMap Wire.Completion.utterances).filter (·.id = id) =
      (cs.filter (·.id.getD "" = id)).flatMap Wire.Completion.utterances := by
  induction cs with
  | nil => rfl
  | cons c rest ih =>
    rw [List.flatMap_cons, List.filter_append, ih]
    by_cases hid : c.id.getD "" = id
    · have hall : c.utterances.filter (·.id = id) = c.utterances :=
        List.filter_eq_self.2 (by simpa [Wire.Completion.utterances] using fun _ _ => hid)
      rw [hall, List.filter_cons_of_pos (by simpa using hid), List.flatMap_cons]
    · have hnone : c.utterances.filter (·.id = id) = [] :=
        List.filter_eq_nil_iff.2 (by simpa [Wire.Completion.utterances] using fun _ _ => hid)
      rw [hnone, List.filter_cons_of_neg (by simpa using hid), List.nil_append]

/-- **The role of a generation is the first one that was given under its completion's id**, by any
choice of the stream up to its own. It does not change once it is known, and what is said under
other ids makes no difference to it. The parts of a stream are such responses, to the completions
that its chunks stand for. -/
theorem roles_streamed (cs : List Wire.Completion) :
    let said := cs.flatMap Wire.Completion.utterances
    (∀ chunks : List Wire.Chunk, chunks.map Wire.Chunk.toCompletion = cs →
      (parts {} chunks).1 = (streamed {} cs).1) ∧
    (streamed {} cs).1.map (·.generations.length) = cs.map (·.choices.length) ∧
      (generationsStreamed cs).map (fun g => (g.completionId?, g.role?)) =
        said.mapIdx (fun k u =>
          (some (.str u.id), some (.str (roleText (firstRole u.id (said.take (k + 1))))))) ∧
      (generationsStreamed cs).Pairwise (fun g later =>
        later.completionId? = g.completionId? → g.role? ≠ some (.str "") →
          later.role? = g.role?) ∧
      ∀ id, (generationsStreamed cs).filter (·.completionId? = some (.str id)) =
        generationsStreamed (cs.filter (·.id.getD "" = id)) := by
  refine ⟨?_, lengths_streamed {} cs, ?_, ?_, fun id => ?_⟩
  · rintro chunks rfl
    rw [parts_eq_streamed]
  · rw [generations_streamed, heard_eq remembers_empty]
    refine List.ext_getElem? fun k => ?_
    simp only [List.getElem?_map, List.getElem?_mapIdx, Option.map_map, Function.comp_def,
      Generation.completionId?_ofChoice, Generation.role?_ofChoice, List.nil_append]
  · rw [generations_streamed]
    exact pairwise_heard _
  · rw [generations_streamed, generations_streamed, filter_heard rfl, filter_utterances]

/-- A completion with one choice of the given role. -/
def spoken (id : String) (role : Option Wire.Role) : Wire.Completion :=
  { id := some id
    choices := [{ finishReason := none, index := none, logprobs := none, message := { role } }] }

example : (generationsStreamed [spoken "a" (some .user), spoken "b" none,
      spoken "a" (some .assistant), spoken "b" (some .assistant)]).map (·.role?) =
    [some (.str "user"), some (.str ""), some (.str "user"), some (.str "assistant")] := by
  decide

end ChatResponse

end ModelClient
