import Mathlib.Algebra.GroupWithZero.Nat
import ModelClient.Proofs.Attempts

/-!
# Batches of texts to embed

A batch is embedded text by text. What becomes of a text is a `Turn`: the answers to the requests
for it and what they come to. `Turn.Goes` says how a turn can go, and from a turn follow the
requests with their answers (`Turn.exchanges`), the vector of the text (`Turn.vector`) and what it
adds to the usage (`Turn.counted`). A batch is a sequence of turns, one for each text up to the
first one that fails, so the place of a vector is the place of its text whatever the answers before
it lack. It is halted where the usage of the turns so far does not fit, or where the policy for
repeated requests comes to a negative wait (`EmbeddingModel.Breaks`).

## Main statements

* `EmbeddingModel.call_turns`: the turns of a call, its vectors and its error.
-/

namespace ModelClient

open Json

/-- The request for the embedding of a text, as the service receives it. -/
def Client.embeddingRequest (c : Client) (request : Wire.EmbeddingRequest) : Request :=
  { url := endpoint c.baseUrl embeddingPath
    contentType
    authorization := authorization? c.apiKey
    body := request.toJson }

/-! ## Sums of usage -/

/-- Two counts are added if their sum is a count. -/
theorem addCounts?_eq_some_iff {a b c : UInt32} :
    addCounts? a b = some c ↔ c.toNat = a.toNat + b.toNat := by
  have hlt := c.toNat_lt
  unfold addCounts?
  split
  · next hfits =>
    have hsum : (a + b).toNat = a.toNat + b.toNat := by
      rw [UInt32.toNat_add, Nat.mod_eq_of_lt hfits]
    rw [Option.some_inj, ← UInt32.toNat_inj, hsum, eq_comm]
  · next hexceeds =>
    exact ⟨nofun, fun hsum => by omega⟩

namespace Usage

/-- The counts of a usage. -/
def counts : List (Usage → UInt32) := [promptTokens, generationTokens, totalTokens]

/-- One of the counts added up over some usages. -/
def sum (count : Usage → UInt32) (usages : List Usage) : Nat :=
  (usages.map fun u => (count u).toNat).sum

/-- A usage is the sum of some others, count by count. -/
def IsSum (total : Usage) (usages : List Usage) : Prop :=
  ∀ count ∈ counts, (count total).toNat = sum count usages

/-- The sum of some usages is a usage. -/
def Fits (usages : List Usage) : Prop := ∀ count ∈ counts, sum count usages < 2 ^ 32

/-- The empty usage counts nothing. -/
theorem toNat_count_empty {count : Usage → UInt32} (h : count ∈ counts) :
    (count {}).toNat = 0 := by
  simp only [counts, List.mem_cons, List.not_mem_nil, or_false] at h
  rcases h with rfl | rfl | rfl <;> rfl

/-- The first usage adds its count to the sum of the others. -/
theorem sum_cons (count : Usage → UInt32) (u : Usage) (usages : List Usage) :
    sum count (u :: usages) = (count u).toNat + sum count usages := by
  rw [sum, List.map_cons, List.sum_cons]
  rfl

/-- The sum over two groups of usages is the sum of their sums. -/
theorem sum_append (count : Usage → UInt32) (us vs : List Usage) :
    sum count (us ++ vs) = sum count us + sum count vs := by
  rw [sum, List.map_append, List.sum_append]
  rfl

/-- Usages with a sum fit. -/
theorem IsSum.fits {total : Usage} {usages : List Usage} (h : IsSum total usages) :
    Fits usages := fun count hcount => h count hcount ▸ (count total).toNat_lt

/-- A single usage fits. -/
theorem fits_singleton (u : Usage) : Fits [u] := by
  intro count _
  simpa [sum] using (count u).toNat_lt

/-- Of usages that fit together the first ones do. -/
theorem Fits.of_isPrefix {us vs : List Usage} (h : Fits vs) (hbegins : us <+: vs) : Fits us := by
  obtain ⟨rest, rfl⟩ := hbegins
  intro count hcount
  have hlt := h count hcount
  rw [sum_append] at hlt
  omega

/-- Two usages are added to their sum, count by count. -/
theorem add?_eq_some_iff {u v w : Usage} : u.add? v = some w ↔ IsSum w [u, v] := by
  obtain ⟨prompt, generation, total⟩ := w
  simp [add?, Option.bind_eq_some_iff, addCounts?_eq_some_iff, IsSum, counts, sum]

/-- Two usages are not added if one of the counts does not fit. -/
theorem add?_eq_none_iff {u v : Usage} : u.add? v = none ↔ ¬Fits [u, v] := by
  refine ⟨fun hnone hfits => ?_, fun hexceeds => ?_⟩
  · have hcounts (count : Usage → UInt32) (hcount : count ∈ counts) :
        addCounts? (count u) (count v) = some (count u + count v) :=
      if_pos (by simpa [sum] using hfits count hcount)
    rw [add?, hcounts promptTokens (by simp [counts]), hcounts generationTokens (by simp [counts]),
      hcounts totalTokens (by simp [counts])] at hnone
    cases hnone
  · exact Option.eq_none_iff_forall_ne_some.2 fun w hsome =>
      hexceeds (add?_eq_some_iff.1 hsome).fits

/-- The sum of two usages stands for them. -/
theorem IsSum.sum_cons {u v w : Usage} (h : IsSum w [u, v]) {count : Usage → UInt32}
    (hcount : count ∈ counts) (usages : List Usage) :
    sum count (w :: usages) = sum count (u :: v :: usages) := by
  have hsum := h count hcount
  simp only [Usage.sum_cons] at hsum ⊢
  rw [hsum, Nat.add_assoc]
  rfl

end Usage

namespace EmbeddingModel

/-- The answer has a vector. -/
def hasVector (answer : Option Wire.EmbeddingList) : Bool :=
  answer.any fun list => !list.data.isEmpty

/-- The usage that an answer reports. -/
def reported (answer : Option Wire.EmbeddingList) : Usage :=
  ((answer.bind (·.usage)).map .ofWire).getD {}

/-- The usage that counts: what an answer with a vector reports. -/
def counted (answer : Option Wire.EmbeddingList) : Usage :=
  if hasVector answer then reported answer else {}

/-- One text of a batch: the answers to the requests for it, and the result. -/
structure Turn where
  input : String
  answers : List Answer
  result : Except Error (Option Wire.EmbeddingList)

namespace Turn

/-- How a turn of the model goes. A text is asked for as often as the policy allows. The empty text
is not asked for, and neither is any text if the policy leaves no attempt. -/
inductive Goes (m : EmbeddingModel) : Turn → Prop
  | asked {input : String} {answers : List Answer}
      {result : Except Error (Option Wire.EmbeddingList)} (hinput : input ≠ "")
      (htries : RetryPolicy.Tries (m.client.read Wire.EmbeddingList.decode)
        m.retry.maxAttempts.toNat answers result) : Goes m ⟨input, answers, result⟩
  | empty (hattempts : m.retry.maxAttempts ≠ 0) :
      Goes m ⟨"", [], .error (.invalidArgument "Embedding input must not be empty")⟩
  | unattempted {input : String} (hattempts : m.retry.maxAttempts = 0) :
      Goes m ⟨input, [], .error .zeroAttempts⟩

/-- The requests of a turn with the given options, each with its answer. -/
def exchanges (m : EmbeddingModel) (options : EmbeddingLayer) (t : Turn) :
    List (Request × Answer) :=
  t.answers.map (m.client.embeddingRequest (options.toRequest t.input), ·)

/-- The first vector of the answer; without one, the empty vector. -/
def vector (t : Turn) : List Binary32 :=
  match t.result with
  | .ok (some list) => (list.data.head?.map (·.vector)).getD []
  | _ => []

/-- What the turn adds to the usage. -/
def counted (t : Turn) : Usage :=
  match t.result with
  | .ok answer => EmbeddingModel.counted answer
  | .error _ => {}

/-- The turn has a result. -/
def Succeeds (t : Turn) : Prop := ∃ list, t.result = .ok list

/-- A result is the reading of the last answer, and the answers before it are read as errors. -/
theorem Goes.exists_read {m : EmbeddingModel} {t : Turn} (h : t.Goes m) (hok : t.Succeeds) :
    ∃ failures last, t.answers = failures ++ [last] ∧
      m.client.read Wire.EmbeddingList.decode last = t.result ∧
      ∀ answer ∈ failures, ∃ e, m.client.read Wire.EmbeddingList.decode answer = .error e := by
  obtain ⟨list, hlist⟩ := hok
  cases h with
  | asked _ htries =>
    obtain ⟨failures, last, hanswers, hlast, hfailures⟩ := htries.exists_read
    refine ⟨failures, last, hanswers, hlast, fun answer ha => ?_⟩
    obtain ⟨e, he, -⟩ := hfailures answer ha
    exact ⟨e, he⟩
  | empty | unattempted => cases hlist

end Turn

/-- A batch keeps the vector of a turn and adds up what it counts. -/
theorem account_eq {t : Turn} {answer : Option Wire.EmbeddingList} (h : t.result = .ok answer)
    (usage : Usage) : account usage answer = (usage.add? t.counted).map (t.vector, ·) := by
  have hnothing : usage.add? {} = some usage :=
    Usage.add?_eq_some_iff.2 fun count hcount => by
      simp [Usage.sum, Usage.toNat_count_empty hcount]
  rw [Turn.vector, Turn.counted, h]
  match answer with
  | none => exact (congrArg (Option.map _) hnothing).symm
  | some ⟨_, [], _, _⟩ => exact (congrArg (Option.map _) hnothing).symm
  | some ⟨_, first :: _, _, none⟩ => exact (congrArg (Option.map _) hnothing).symm
  | some ⟨_, first :: _, _, some reported⟩ => rfl

variable (m : EmbeddingModel) (s : Session)

/-- Embedding a text asks with one request and reads the answer. -/
theorem embed_asks (request : Wire.EmbeddingRequest) (hinput : request.input ≠ "") :
    (m.client.embed request).Asks (m.client.embeddingRequest request)
      (m.client.read Wire.EmbeddingList.decode) := by
  unfold Client.embed
  rw [if_neg hinput]
  exact m.client.request_asks _ _ _

/-- One text is a turn, unless a wait would be negative. -/
theorem execute_turn (options : EmbeddingLayer) (input : String) (script : List Answer) :
    (m.retry.execute (m.client.embed (options.toRequest input)) (s.scripted script)).value =
        .error (.halt .crashed) ∨
      ∃ t : Turn, t.input = input ∧ t.Goes m ∧
        (m.retry.execute (m.client.embed (options.toRequest input))).Exchanges s script
          (t.exchanges m options) t.result := by
  by_cases hattempts : m.retry.maxAttempts = 0
  · rw [RetryPolicy.execute_of_zero hattempts]
    exact .inr ⟨_, rfl, .unattempted hattempts, .fail _⟩
  by_cases hinput : input = ""
  · subst hinput
    have hfail : m.client.embed (options.toRequest "") =
        .fail (.invalidArgument "Embedding input must not be empty") := rfl
    rw [hfail, RetryPolicy.execute_fail _ hattempts rfl]
    exact .inr ⟨_, rfl, .empty hattempts, .fail _⟩
  · have hasks := m.embed_asks (options.toRequest input) hinput
    obtain hcrash | ⟨answers, result, htries, hrun⟩ :=
      m.retry.execute_exchanges hattempts hasks s script
    · exact .inl hcrash
    · exact .inr ⟨⟨input, answers, result⟩, rfl, .asked hinput htries, hrun⟩

/-! ## The turns of a batch -/

/-- There is a turn for each text, and every one has a result. -/
structure Completes (inputs : List String) (turns : List Turn) : Prop where
  inputs : turns.map (·.input) = inputs
  goes : ∀ t ∈ turns, t.Goes m
  succeeds : ∀ t ∈ turns, t.Succeeds

/-- There is a turn for each text up to the first one without a result, which has the error. -/
structure Fails (inputs : List String) (earlier : List Turn) (failing : Turn) (e : Error) :
    Prop where
  inputs : ∃ later, inputs = earlier.map (·.input) ++ failing.input :: later
  goes : ∀ t ∈ earlier ++ [failing], t.Goes m
  succeeds : ∀ t ∈ earlier, t.Succeeds
  fails : failing.result = .error e

variable {m}

/-- A turn that succeeds may come before a batch that is completed. -/
theorem Completes.cons {inputs : List String} {turns : List Turn} {t : Turn} (ht : t.Goes m)
    (hok : t.Succeeds) (h : m.Completes inputs turns) :
    m.Completes (t.input :: inputs) (t :: turns) :=
  ⟨by rw [List.map_cons, h.inputs], List.forall_mem_cons.2 ⟨ht, h.goes⟩,
    List.forall_mem_cons.2 ⟨hok, h.succeeds⟩⟩

/-- A turn that succeeds may come before a batch that fails. -/
theorem Fails.cons {inputs : List String} {earlier : List Turn} {failing t : Turn} {e : Error}
    (ht : t.Goes m) (hok : t.Succeeds) (h : m.Fails inputs earlier failing e) :
    m.Fails (t.input :: inputs) (t :: earlier) failing e := by
  obtain ⟨later, hinputs⟩ := h.inputs
  exact ⟨⟨later, by rw [hinputs]; rfl⟩, List.forall_mem_cons.2 ⟨ht, h.goes⟩,
    List.forall_mem_cons.2 ⟨hok, h.succeeds⟩, h.fails⟩

variable (m)

/-- The requests of some turns, each with its answer. -/
def exchangesOf (options : EmbeddingLayer) (turns : List Turn) : List (Request × Answer) :=
  turns.flatMap (·.exchanges m options)

/-- The exchanges of a single turn. -/
theorem exchangesOf_singleton (options : EmbeddingLayer) (t : Turn) :
    m.exchangesOf options [t] = t.exchanges m options :=
  List.flatMap_singleton _ _

/-- The answers in the exchanges of a turn are the turn's. -/
theorem Turn.map_answer_exchanges (options : EmbeddingLayer) (t : Turn) :
    (t.exchanges m options).map (·.2) = t.answers := by
  rw [exchanges, List.map_map]
  exact List.map_id _

/-- The answers of some turns. -/
def answersOf (turns : List Turn) : List Answer := turns.flatMap (·.answers)

/-- The answers in the exchanges of some turns are those of the turns. -/
theorem map_answer_exchangesOf (options : EmbeddingLayer) (turns : List Turn) :
    (m.exchangesOf options turns).map (·.2) = answersOf turns := by
  rw [exchangesOf, List.map_flatMap, answersOf]
  exact congrArg (turns.flatMap ·) (funext fun t => t.map_answer_exchanges m options)

/-- Some turns for the first of the texts, with the next answers of a script. -/
structure Takes (inputs : List String) (script : List Answer) (turns : List Turn) : Prop where
  inputs : turns.map (·.input) <+: inputs
  goes : ∀ t ∈ turns, t.Goes m
  answers : answersOf turns = Service.first (answersOf turns).length script

variable {m} in
/-- The turns that a run exchanges with the service are taken from its script. -/
theorem Takes.of_exchanges {inputs : List String} {script : List Answer} {turns : List Turn}
    {options : EmbeddingLayer} {α : Type} {x : Run Session α} {result : Except Error α}
    (hinputs : turns.map (·.input) <+: inputs) (hgoes : ∀ t ∈ turns, t.Goes m)
    (hx : x.Exchanges s script (m.exchangesOf options turns) result) :
    m.Takes inputs script turns := by
  have hanswers := hx.answers
  rw [map_answer_exchangesOf, ← List.length_map (·.2), map_answer_exchangesOf] at hanswers
  exact ⟨hinputs, hgoes, hanswers⟩

variable {m} in
/-- One turn and then some more. -/
theorem Takes.cons {inputs : List String} {script : List Answer} {turns : List Turn} {t : Turn}
    (ht : t.Goes m) (hanswers : t.answers = Service.first t.answers.length script)
    (h : m.Takes inputs (Service.behind t.answers.length script) turns) :
    m.Takes (t.input :: inputs) script (t :: turns) where
  inputs := List.cons_prefix_cons.2 ⟨rfl, h.inputs⟩
  goes := List.forall_mem_cons.2 ⟨ht, h.goes⟩
  answers := by
    have hall : answersOf (t :: turns) = t.answers ++ answersOf turns := rfl
    rw [hall, List.length_append, Service.first_add, ← hanswers, ← h.answers]

/-- Some turns with a result, after which the usage does not fit any more. -/
structure Overflows (usage : Usage) (inputs : List String) (script : List Answer)
    (turns : List Turn) : Prop where
  takes : m.Takes inputs script turns
  succeeds : ∀ t ∈ turns, t.Succeeds
  exceeds : ¬Usage.Fits (usage :: turns.map Turn.counted)

/-- Some turns with a result, after which a wait between two requests for the next text would be
negative. -/
structure Recedes (options : EmbeddingLayer) (inputs : List String) (script : List Answer)
    (turns : List Turn) (input : String) : Prop where
  takes : m.Takes inputs script turns
  succeeds : ∀ t ∈ turns, t.Succeeds
  next : turns.map (·.input) ++ [input] <+: inputs
  crashes : (m.retry.execute (m.client.embed (options.toRequest input))
    (s.scripted (Service.behind (answersOf turns).length script))).value = .error (.halt .crashed)

/-- Embedding some texts is halted after some turns. -/
inductive Breaks (options : EmbeddingLayer) (usage : Usage) (inputs : List String)
    (script : List Answer) : Prop
  | overflows (turns : List Turn) (h : m.Overflows usage inputs script turns)
  | recedes (turns : List Turn) (input : String) (h : m.Recedes s options inputs script turns input)

variable {m s} in
/-- What is halted after some turns is halted after one more turn before them. -/
theorem Breaks.cons {options : EmbeddingLayer} {usage next : Usage} {inputs : List String}
    {script : List Answer} {t : Turn} (ht : t.Goes m) (hok : t.Succeeds)
    (hanswers : t.answers = Service.first t.answers.length script)
    (hnext : Usage.IsSum next [usage, t.counted])
    (h : m.Breaks s options next inputs (Service.behind t.answers.length script)) :
    m.Breaks s options usage (t.input :: inputs) script := by
  cases h with
  | overflows turns h =>
    refine .overflows (t :: turns) ⟨.cons ht hanswers h.takes,
      List.forall_mem_cons.2 ⟨hok, h.succeeds⟩, fun hfits => h.exceeds fun count hcount => ?_⟩
    rw [hnext.sum_cons hcount]
    exact hfits count hcount
  | recedes turns input h =>
    refine .recedes (t :: turns) input ⟨.cons ht hanswers h.takes,
      List.forall_mem_cons.2 ⟨hok, h.succeeds⟩, List.cons_prefix_cons.2 ⟨rfl, h.next⟩, ?_⟩
    have hall : (answersOf (t :: turns)).length = t.answers.length + (answersOf turns).length :=
      List.length_append
    rw [hall, Service.behind_add]
    exact h.crashes

/-- A text with a result whose usage fits, and then the other texts: all end as these do. -/
theorem embedAll_cons (options : EmbeddingLayer) {usage next : Usage} (inputs : List String)
    {script : List Answer} {t : Turn} (hok : t.Succeeds)
    (hturn : (m.retry.execute (m.client.embed (options.toRequest t.input))).Exchanges s script
      (t.exchanges m options) t.result)
    (hadd : usage.add? t.counted = some next) :
    (∀ stop, (m.embedAll options next inputs
        (s.scripted (Service.behind t.answers.length script))).value = .error stop →
      (m.embedAll options usage (t.input :: inputs) (s.scripted script)).value = .error stop) ∧
    ∀ more result, (m.embedAll options next inputs).Exchanges s
        (Service.behind t.answers.length script) more result →
      (m.embedAll options usage (t.input :: inputs)).Exchanges s script
        (t.exchanges m options ++ more)
        (result.map fun (vectors, total) => (t.vector :: vectors, total)) := by
  obtain ⟨answer, hresult⟩ := hok
  have haccount := account_eq hresult usage
  have hlength : (t.exchanges m options).length = t.answers.length := List.length_map _
  rw [hresult] at hturn
  rw [hadd] at haccount
  rw [← hlength, embedAll]
  refine ⟨fun stop hstop => (hturn.value_bind _).trans ?_, fun more result hrest => hturn.bind ?_⟩
  · simp only [haccount]
    exact Run.value_bind_of_error hstop _
  · simp only [haccount]
    cases result with
    | ok made => exact hrest.bind_quiet (.pure _)
    | error e => exact hrest.bind_error _

/-- How embedding some texts ends: it is halted, or all have a turn with a result and the usage is
the sum of what they count, or the turns go on up to one that fails and their usage fits. -/
theorem embedAll_ends (options : EmbeddingLayer) (usage : Usage) (inputs : List String)
    (script : List Answer) :
    ((m.embedAll options usage inputs (s.scripted script)).value = .error (.halt .crashed) ∧
      m.Breaks s options usage inputs script) ∨
    (∃ turns total, m.Completes inputs turns ∧
      (m.embedAll options usage inputs).Exchanges s script (m.exchangesOf options turns)
        (.ok (turns.map (·.vector), total)) ∧
      Usage.IsSum total (usage :: turns.map Turn.counted)) ∨
    ∃ earlier failing e, m.Fails inputs earlier failing e ∧
      (m.embedAll options usage inputs).Exchanges s script
        (m.exchangesOf options (earlier ++ [failing])) (.error e) ∧
      Usage.Fits (usage :: earlier.map Turn.counted) := by
  induction inputs generalizing usage script with
  | nil =>
    exact .inr (.inl ⟨[], usage, ⟨rfl, nofun, nofun⟩, .pure _, fun count _ => by simp [Usage.sum]⟩)
  | cons input inputs ih =>
    obtain hcrash | ⟨t, rfl, hgoes, hturn⟩ := m.execute_turn s options input script
    · -- A wait for the first text is negative.
      refine .inl ⟨Run.value_bind_of_error hcrash _, .recedes [] input ?_⟩
      exact ⟨⟨List.nil_prefix, nofun, rfl⟩, nofun, List.cons_prefix_cons.2 ⟨rfl, List.nil_prefix⟩,
        hcrash⟩
    have hanswers : t.answers = Service.first t.answers.length script := by
      have h := hturn.answers
      rwa [← List.length_map (·.2), t.map_answer_exchanges] at h
    -- The first text fails, or its usage does not fit, or the others go on with what is left of
    -- the script.
    cases hresult : t.result with
    | error e =>
      rw [hresult] at hturn
      refine .inr (.inr ⟨[], t, e, ⟨⟨inputs, rfl⟩, by simpa using hgoes, nofun, hresult⟩, ?_,
        Usage.fits_singleton usage⟩)
      rw [List.nil_append, exchangesOf_singleton]
      exact hturn.bind_error _
    | ok answer =>
      have hok : t.Succeeds := ⟨answer, hresult⟩
      cases hadd : usage.add? t.counted with
      | none =>
        have haccount := account_eq hresult usage
        rw [hresult] at hturn
        rw [hadd] at haccount
        refine .inl ⟨(hturn.value_bind _).trans ?_, .overflows [t] ⟨?_, ?_, ?_⟩⟩
        · simp only [haccount]
          rfl
        · exact .cons hgoes hanswers ⟨List.nil_prefix, nofun, rfl⟩
        · exact List.forall_mem_singleton.2 hok
        · exact Usage.add?_eq_none_iff.1 hadd
      | some next =>
        have hnext := Usage.add?_eq_some_iff.1 hadd
        obtain ⟨hstops, hends⟩ := m.embedAll_cons s options inputs hok hturn hadd
        obtain ⟨hcrash, hbreaks⟩ | ⟨turns, total, hturns, hrest, htotal⟩ |
          ⟨earlier, failing, e, hfails, hrest, hfits⟩ :=
          ih next (Service.behind t.answers.length script)
        · exact .inl ⟨hstops _ hcrash, hbreaks.cons hgoes hok hanswers hnext⟩
        · refine .inr (.inl ⟨t :: turns, total, hturns.cons hgoes hok, hends _ _ hrest, ?_⟩)
          intro count hcount
          rw [htotal count hcount, hnext.sum_cons hcount]
          rfl
        · refine .inr (.inr ⟨t :: earlier, failing, e, hfails.cons hgoes hok, hends _ _ hrest, ?_⟩)
          intro count hcount
          rw [List.map_cons, ← hnext.sum_cons hcount]
          exact hfits count hcount

/-- How a call ends: as embedding its texts does, with the vectors numbered in order. -/
theorem call_ends {c : EmbeddingCall} (hinputs : c.inputs ≠ []) (script : List Answer) :
    ((m.call c (s.scripted script)).value = .error (.halt .crashed) ∧
      m.Breaks s (m.defaults.merge c.options) {} c.inputs script) ∨
    (∃ turns response, m.Completes c.inputs turns ∧
      (m.call c).Exchanges s script (m.exchangesOf (m.defaults.merge c.options) turns)
        (.ok response) ∧
      (response.embeddings = turns.mapIdx fun i t => ⟨i, t.vector⟩) ∧
      Usage.IsSum response.usage ({} :: turns.map Turn.counted)) ∨
    ∃ earlier failing e, m.Fails c.inputs earlier failing e ∧
      (m.call c).Exchanges s script
        (m.exchangesOf (m.defaults.merge c.options) (earlier ++ [failing])) (.error e) ∧
      Usage.Fits ({} :: earlier.map Turn.counted) := by
  unfold call
  rw [if_neg (by simpa using hinputs)]
  obtain ⟨hcrash, hbreaks⟩ | ⟨turns, total, hturns, hrun, htotal⟩ |
    ⟨earlier, failing, e, hfails, hrun, hfits⟩ :=
    m.embedAll_ends s (m.defaults.merge c.options) {} c.inputs script
  · exact .inl ⟨Run.value_bind_of_error hcrash _, hbreaks⟩
  · refine .inr (.inl ⟨turns, _, hturns, .observe _ _ _ (hrun.bind_quiet (.pure _)), ?_, htotal⟩)
    show (turns.map (·.vector)).mapIdx IndexedVector.mk = _
    rw [List.mapIdx_eq_zipIdx_map, List.zipIdx_map, List.map_map, List.mapIdx_eq_zipIdx_map]
    rfl
  · exact .inr (.inr ⟨earlier, failing, e, hfails, .observe _ _ _ (hrun.bind_error _), hfits⟩)

/-- A model that no one watches. -/
def unwatched : EmbeddingModel := .ofClient .keyless

end EmbeddingModel

end ModelClient
