import ModelClient.Proofs.EmbeddingBatches
import ModelClient.Proofs.Repetition

/-!
# The usage of a batch

The usage of a batch is the sum of what its answers report, but only an answer with a vector counts.
So the sum is complete, count by count, exactly if the answers without a vector report nothing
(`EmbeddingModel.call_usage`).

A sum that does not fit halts the call. Whether it does is a matter of the service's script alone:
the turns that a call takes are determined by it (`EmbeddingModel.Takes.prefix_total`), so turns
whose usage does not fit are those of the call, up to the one that is too much
(`EmbeddingModel.call_overflows`).

## Main statements

* `EmbeddingModel.call_usage`: the usage of a call, and when it is complete.
* `EmbeddingModel.call_overflows`: when a call is halted by its usage.
-/

namespace ModelClient

variable {α : Type}

/-- Attempts at a request go from one answer of the script to the next. -/
theorem Run.Asks.goes {request : Request} {read : Answer → Except Error α} {x : Run Session α}
    (h : x.Asks request read) (s : Session) (script : List Answer) :
    x.Goes (fun n => s.scripted (Service.behind n script))
      (fun n => (x (s.scripted (Service.behind n script))).effects)
      (fun n => read (Service.next (Service.behind n script)).1) := by
  intro n
  obtain ⟨hvalue, -, -, hstate⟩ := h s (Service.behind n script)
  rw [List.length_singleton, ← Service.behind_add] at hstate
  show x (s.scripted (Service.behind n script)) =
    ⟨_, s.scripted (Service.behind (n + 1) script), _⟩
  rw [← hstate, ← hvalue]

/-! ## Usages added up -/

namespace Usage

/-- The empty usage adds nothing. -/
theorem sum_empty_cons {count : Usage → UInt32} (h : count ∈ counts) (usages : List Usage) :
    sum count ({} :: usages) = sum count usages := by
  rw [sum_cons, toNat_count_empty h, Nat.zero_add]

/-- A sum is zero only if everything in it is. -/
theorem sum_eq_zero_iff {count : Usage → UInt32} {usages : List Usage} :
    sum count usages = 0 ↔ ∀ u ∈ usages, (count u).toNat = 0 := by
  rw [sum, List.sum_eq_zero_iff_forall_eq_nat, List.forall_mem_map]

/-- A usage without any count is the empty one. -/
theorem eq_empty_iff {u : Usage} : u = {} ↔ ∀ count ∈ counts, (count u).toNat = 0 := by
  obtain ⟨prompt, generation, total⟩ := u
  simp [counts, ← UInt32.toNat_inj]

end Usage

namespace EmbeddingModel

/-- What counts of some answers is what those with a vector report. -/
theorem sum_counted {count : Usage → UInt32} (hcount : count ∈ Usage.counts)
    (answers : List (Option Wire.EmbeddingList)) :
    Usage.sum count (answers.map counted) =
      Usage.sum count ((answers.filter hasVector).map reported) := by
  induction answers with
  | nil => rfl
  | cons answer answers ih =>
    rw [List.map_cons, Usage.sum_cons, ih, counted]
    cases hvector : hasVector answer with
    | true => rw [if_pos rfl, List.filter_cons_of_pos hvector, List.map_cons, Usage.sum_cons]
    | false =>
      rw [if_neg Bool.false_ne_true, List.filter_cons_of_neg (by rw [hvector]; decide),
        Usage.toNat_count_empty hcount, Nat.zero_add]

/-- What some answers report is what those with a vector do and what the others do. -/
theorem sum_reported (count : Usage → UInt32) (answers : List (Option Wire.EmbeddingList)) :
    Usage.sum count (answers.map reported) =
      Usage.sum count ((answers.filter hasVector).map reported) +
        Usage.sum count ((answers.filter fun answer => !hasVector answer).map reported) := by
  induction answers with
  | nil => rfl
  | cons answer answers ih =>
    rw [List.map_cons, Usage.sum_cons, ih]
    cases hvector : hasVector answer <;>
      simp only [hvector, List.filter_cons, Bool.not_true, Bool.not_false, Bool.false_eq_true,
        if_true, if_false, List.map_cons, Usage.sum_cons] <;> omega

/-- The sum of what the answers with a vector report is that of all exactly if the others report
nothing. -/
theorem isSum_reported_iff {usage : Usage} {answers : List (Option Wire.EmbeddingList)}
    (h : Usage.IsSum usage ((answers.filter hasVector).map reported)) :
    Usage.IsSum usage (answers.map reported) ↔
      ∀ answer ∈ answers, hasVector answer = false → reported answer = {} := by
  have hothers : Usage.IsSum usage (answers.map reported) ↔ ∀ count ∈ Usage.counts,
      Usage.sum count ((answers.filter fun answer => !hasVector answer).map reported) = 0 :=
    forall₂_congr fun count hcount => by rw [sum_reported, h count hcount, Nat.left_eq_add]
  rw [hothers]
  constructor
  · intro hzero answer hmem hnone
    apply Usage.eq_empty_iff.2
    intro count hcount
    have hnothing := Usage.sum_eq_zero_iff.1 (hzero count hcount)
    exact hnothing _ (List.mem_map_of_mem (List.mem_filter.2 ⟨hmem, by rw [hnone]; rfl⟩))
  · intro hnothing count hcount
    rw [Usage.sum_eq_zero_iff, List.forall_mem_map]
    intro answer hmem
    obtain ⟨hmem, hnone⟩ := List.mem_filter.1 hmem
    rw [hnothing answer hmem (by simpa using hnone), Usage.toNat_count_empty hcount]

variable (m : EmbeddingModel) (s : Session)

/-- A call without a text fails. -/
theorem call_of_nil {c : EmbeddingCall} (hinputs : c.inputs = []) :
    m.call c = .fail (.invalidArgument "At least one text is required") := by
  rw [call, hinputs]
  rfl

/-- What an answer is read as, if it is no error. -/
def success? (answer : Answer) : Option (Option Wire.EmbeddingList) :=
  (m.client.read Wire.EmbeddingList.decode answer).toOption

/-- What the answers are read as that are no errors. -/
def successes (answers : List Answer) : List (Option Wire.EmbeddingList) :=
  answers.filterMap m.success?

/-- Of the answers of a turn with a result the last one is read as the result and the others as
errors. -/
theorem successes_answers {t : Turn} (h : t.Goes m)
    {answer : Option Wire.EmbeddingList} (hresult : t.result = .ok answer) :
    m.successes t.answers = [answer] := by
  obtain ⟨failures, last, hanswers, hlast, hfailures⟩ := h.exists_read ⟨answer, hresult⟩
  have hnone : m.successes failures = [] :=
    List.filterMap_eq_nil_iff.2 fun a ha => by
      obtain ⟨e, he⟩ := hfailures a ha
      rw [success?, he]
      rfl
  have hsome : m.success? last = some answer := by
    rw [success?, hlast, hresult]
    rfl
  rw [successes, hanswers, List.filterMap_append, List.filterMap_cons_some hsome]
  exact congrArg (· ++ [answer]) hnone

/-- Some turns with a result count what their answers do. -/
theorem map_counted_answersOf {turns : List Turn} (hgoes : ∀ t ∈ turns, t.Goes m)
    (hok : ∀ t ∈ turns, t.Succeeds) :
    (m.successes (answersOf turns)).map counted = turns.map Turn.counted := by
  induction turns with
  | nil => rfl
  | cons t turns ih =>
    obtain ⟨hfirst, hgoes⟩ := List.forall_mem_cons.1 hgoes
    obtain ⟨⟨answer, hresult⟩, hok⟩ := List.forall_mem_cons.1 hok
    have hall : m.successes (answersOf (t :: turns)) =
        m.successes t.answers ++ m.successes (answersOf turns) := List.filterMap_append
    rw [hall, m.successes_answers hfirst hresult, List.singleton_append, List.map_cons,
      List.map_cons, ih hgoes hok, Turn.counted, hresult]

/-- **The usage of a call.** If a call has a response, its usage is the sum of what the answers with
a vector report. This is the sum over all answers that were read, exactly if those without a vector
report nothing. -/
theorem call_usage {c : EmbeddingCall} {script : List Answer} {response : EmbeddingResponse}
    (h : (m.call c (s.scripted script)).value = .ok response) :
    ∃ exchanges, (m.call c).Exchanges s script exchanges (.ok response) ∧
      Usage.IsSum response.usage
        (((m.successes (exchanges.map (·.2))).filter hasVector).map reported) ∧
      (Usage.IsSum response.usage ((m.successes (exchanges.map (·.2))).map reported) ↔
        ∀ answer ∈ m.successes (exchanges.map (·.2)),
          hasVector answer = false → reported answer = {}) := by
  have hinputs : c.inputs ≠ [] := by
    intro hnil
    rw [m.call_of_nil hnil] at h
    cases h
  obtain ⟨hcrash, -⟩ | ⟨turns, _, hturns, hrun, -, htotal⟩ | ⟨_, _, _, -, hrun, -⟩ :=
    m.call_ends s hinputs script
  · cases hcrash.symm.trans h
  · cases hrun.value.symm.trans h
    refine ⟨_, hrun, ?_⟩
    rw [map_answer_exchangesOf]
    -- What a turn counts is what the last of its answers reports, if that has a vector.
    have hvectors : Usage.IsSum response.usage
        (((m.successes (answersOf turns)).filter hasVector).map reported) := by
      intro count hcount
      rw [htotal count hcount, Usage.sum_empty_cons hcount, ← sum_counted hcount,
        m.map_counted_answersOf hturns.goes hturns.succeeds]
    exact ⟨hvectors, isSum_reported_iff hvectors⟩
  · cases hrun.value.symm.trans h

/-- An answer with some vectors, which reports some usage. -/
def replying (data usage : String) : Answer :=
  .reply 200 [Text.encode ("\x7b\"data\":" ++ data ++ ",\"usage\":" ++ usage ++ "\x7d")] false

/-- Two answers that report what they have used, of which only the second one has a vector. -/
def halfEmpty : List Answer :=
  [replying "[]" "\x7b\"prompt_tokens\":3,\"total_tokens\":3\x7d",
    replying "[\x7b\"embedding\":[2]\x7d]" "\x7b\"prompt_tokens\":4,\"total_tokens\":4\x7d"]

/-- The call for two texts with these answers. -/
def halfEmptyCall : Outcome Session EmbeddingResponse :=
  unwatched.call { inputs := ["a", "b"] } (Session.scripted { service := .unreachable } halfEmpty)

/-- The first text has no vector, and only the usage of the second one is reported. -/
theorem value_halfEmptyCall : halfEmptyCall.value =
    .ok ⟨[⟨0, []⟩, ⟨1, [Binary32.ofInt 2]⟩], "embedding-2", ⟨4, 0, 4⟩⟩ := by decide +kernel

/-- Four tokens are what the answers with a vector report. -/
theorem call_usage_halfEmpty : ∃ exchanges,
    halfEmptyCall.Exchanges { service := .unreachable } halfEmpty exchanges
      (.ok ⟨[⟨0, []⟩, ⟨1, [Binary32.ofInt 2]⟩], "embedding-2", ⟨4, 0, 4⟩⟩) ∧
    Usage.IsSum ⟨4, 0, 4⟩
      (((unwatched.successes (exchanges.map (·.2))).filter hasVector).map reported) := by
  obtain ⟨exchanges, hrun, hvectors, -⟩ := unwatched.call_usage _ value_halfEmptyCall
  exact ⟨exchanges, hrun, hvectors⟩

/-- Both answers are read, and seven tokens are what they report. -/
theorem usage_less_than_reported :
    (sentRequests halfEmptyCall.effects).length = halfEmpty.length ∧
      (unwatched.successes halfEmpty).length = halfEmpty.length ∧
      Usage.IsSum ⟨7, 0, 7⟩ ((unwatched.successes halfEmpty).map reported) ∧
      ∃ response, halfEmptyCall.value = .ok response ∧ response.usage ≠ ⟨7, 0, 7⟩ := by
  have hreported : (unwatched.successes halfEmpty).map reported = [⟨3, 0, 3⟩, ⟨4, 0, 4⟩] := by
    decide +kernel
  have hread : (unwatched.successes halfEmpty).length = 2 := by
    rw [← List.length_map reported, hreported]
    rfl
  refine ⟨by decide +kernel, hread, ?_, _, value_halfEmptyCall, by decide⟩
  rw [hreported]
  simp [Usage.IsSum, Usage.counts, Usage.sum]

/-! ## Turns of one script -/

/-- Of the turns that a text can have none begins like another. -/
theorem Turn.Goes.eq_of_isPrefix {m : EmbeddingModel} {t t' : Turn} (h : t.Goes m) (h' : t'.Goes m)
    (hinput : t.input = t'.input) (hbegins : t.answers <+: t'.answers) : t = t' := by
  cases h with
  | asked hnonempty htries =>
    cases h' with
    | asked _ htries' =>
      obtain ⟨rfl, rfl⟩ := htries.eq_of_isPrefix htries' hbegins
      cases hinput
      rfl
    | empty => exact absurd hinput hnonempty
    | unattempted hattempts =>
      rw [hattempts] at htries
      exact absurd htries.pos (Nat.lt_irrefl 0)
  | empty hattempts =>
    cases h' with
    | asked hnonempty => exact absurd hinput.symm hnonempty
    | empty => rfl
    | unattempted hzero => exact absurd hzero hattempts
  | unattempted hzero =>
    cases h' with
    | asked _ htries =>
      rw [hzero] at htries
      exact absurd htries.pos (Nat.lt_irrefl 0)
    | empty hattempts => exact absurd hzero hattempts
    | unattempted => cases hinput; rfl

variable {m s}

/-- The first of some turns and the others. -/
theorem Takes.of_cons {inputs : List String} {script : List Answer} {t : Turn} {turns : List Turn}
    (h : m.Takes inputs script (t :: turns)) :
    t.answers = Service.first t.answers.length script ∧ ∃ rest, inputs = t.input :: rest ∧
      m.Takes rest (Service.behind t.answers.length script) turns := by
  obtain ⟨⟨later, hinputs⟩, hgoes, hanswers⟩ := h
  have hall : answersOf (t :: turns) = t.answers ++ answersOf turns := rfl
  rw [hall, List.length_append, Service.first_add] at hanswers
  obtain ⟨hfirst, hothers⟩ := List.append_inj hanswers (Service.length_first _ _).symm
  exact ⟨hfirst, _, hinputs.symm, List.prefix_append _ _, (List.forall_mem_cons.1 hgoes).2, hothers⟩

/-- A script has only one turn for a text. -/
theorem Takes.first_unique {inputs : List String} {script : List Answer} {t t' : Turn}
    {turns turns' : List Turn} (h : m.Takes inputs script (t :: turns))
    (h' : m.Takes inputs script (t' :: turns')) : t = t' := by
  wlog hle : t.answers.length ≤ t'.answers.length generalizing t t' turns turns' with hsymm
  · exact (hsymm h' h (Nat.le_of_not_le hle)).symm
  obtain ⟨hanswers, rest, rfl, -⟩ := h.of_cons
  obtain ⟨hanswers', rest', hinputs, -⟩ := h'.of_cons
  have hinput : t.input = t'.input := (List.cons.inj hinputs).1
  apply (h.goes t List.mem_cons_self).eq_of_isPrefix (h'.goes t' List.mem_cons_self) hinput
  rw [hanswers, hanswers']
  exact Service.first_prefix_first hle script

/-- The turns for some texts are determined by the script, so some of them are the first of some
others. -/
theorem Takes.prefix_total {inputs : List String} {script : List Answer} {turns turns' : List Turn}
    (h : m.Takes inputs script turns) (h' : m.Takes inputs script turns') :
    turns <+: turns' ∨ turns' <+: turns := by
  induction turns generalizing inputs script turns' with
  | nil => exact .inl List.nil_prefix
  | cons t turns ih =>
    cases turns' with
    | nil => exact .inr List.nil_prefix
    | cons t' turns' =>
      obtain rfl := h.first_unique h'
      obtain ⟨-, rest, rfl, hrest⟩ := h.of_cons
      obtain ⟨-, rest', hinputs, hrest'⟩ := h'.of_cons
      cases hinputs
      exact (ih hrest hrest').imp (fun hbegins => List.cons_prefix_cons.2 ⟨rfl, hbegins⟩)
        (fun hbegins => List.cons_prefix_cons.2 ⟨rfl, hbegins⟩)

/-- Turns for all texts have no others after them. -/
theorem Takes.prefix_of_completes {inputs : List String} {script : List Answer}
    {turns turns' : List Turn} (h : m.Takes inputs script turns)
    (h' : m.Takes inputs script turns') (hall : turns'.map (·.input) = inputs) :
    turns <+: turns' := by
  rcases h.prefix_total h' with hbegins | hbegins
  · exact hbegins
  · have hlength : turns.length ≤ turns'.length := by
      have hle := h.inputs.length_le
      rwa [← hall, List.length_map, List.length_map] at hle
    obtain rfl := hbegins.eq_of_length_le hlength
    exact List.prefix_rfl

/-- Turns with a result are over before one that fails. -/
theorem Takes.prefix_of_fails {inputs : List String} {script : List Answer}
    {turns earlier : List Turn} {failing : Turn} {e : Error} (h : m.Takes inputs script turns)
    (hok : ∀ t ∈ turns, t.Succeeds) (h' : m.Takes inputs script (earlier ++ [failing]))
    (hfails : failing.result = .error e) : turns <+: earlier := by
  have hfailing : failing ∉ turns := by
    intro hmem
    obtain ⟨list, hlist⟩ := hok failing hmem
    cases hlist.symm.trans hfails
  have hlast : failing ∈ earlier ++ [failing] := List.mem_append_right _ List.mem_cons_self
  rcases h.prefix_total h' with hbegins | hbegins
  · rcases List.prefix_concat_iff.1 hbegins with rfl | hbegins
    · exact absurd hlast hfailing
    · exact hbegins
  · exact absurd (hbegins.subset hlast) hfailing

/-! ## A usage that does not fit -/

/-- Turns whose usage does not fit are not the first of some whose usage does. -/
theorem Overflows.not_isPrefix {usage : Usage} {inputs : List String} {script : List Answer}
    {turns others : List Turn} (h : m.Overflows usage inputs script turns)
    (hfits : Usage.Fits (usage :: others.map Turn.counted)) : ¬turns <+: others := by
  intro hbegins
  apply h.exceeds
  apply hfits.of_isPrefix
  exact List.cons_prefix_cons.2 ⟨rfl, hbegins.map _⟩

/-- Without texts there is nothing that could not fit. -/
theorem Overflows.inputs_ne_nil {usage : Usage} {inputs : List String} {script : List Answer}
    {turns : List Turn} (h : m.Overflows usage inputs script turns) : inputs ≠ [] := by
  rintro rfl
  have hnone : turns = [] := by simpa using h.takes.inputs
  subst hnone
  exact h.exceeds (Usage.fits_singleton usage)

/-- Turns whose usage does not fit halt the call. -/
theorem Overflows.value_call {c : EmbeddingCall} {script : List Answer} {turns : List Turn}
    (h : m.Overflows {} c.inputs script turns) :
    (m.call c (s.scripted script)).value = .error (.halt .crashed) := by
  obtain ⟨hcrash, -⟩ | ⟨turns', _, hturns, hrun, -, htotal⟩ |
    ⟨earlier, failing, e, hfails, hrun, hfits⟩ := m.call_ends s h.inputs_ne_nil script
  · exact hcrash
  · have htakes : m.Takes c.inputs script turns' :=
      .of_exchanges s (hturns.inputs ▸ List.prefix_rfl) hturns.goes hrun
    exact absurd (h.takes.prefix_of_completes htakes hturns.inputs) (h.not_isPrefix htotal.fits)
  · have htakes : m.Takes c.inputs script (earlier ++ [failing]) := by
      obtain ⟨later, hinputs⟩ := hfails.inputs
      exact .of_exchanges s ⟨later, by simp [hinputs]⟩ hfails.goes hrun
    exact absurd (h.takes.prefix_of_fails h.succeeds htakes hfails.fails) (h.not_isPrefix hfits)

/-- A wait is negative only under a factor below zero. -/
theorem Recedes.isBelowZero {options : EmbeddingLayer} {inputs : List String}
    {script : List Answer} {turns : List Turn} {input : String}
    (h : m.Recedes s options inputs script turns input) :
    m.retry.multiplier.isBelowZero = true := by
  by_contra hnot
  have hpolicy : m.retry.multiplier.isBelowZero = false := by simpa using hnot
  have hcrash := h.crashes
  by_cases hempty : input = ""
  · subst hempty
    have hgoes : (m.client.embed (options.toRequest "")).Goes
        (fun _ => s.scripted (Service.behind (answersOf turns).length script)) (fun _ => [])
        fun _ => .error (.invalidArgument "Embedding input must not be empty") := fun _ => rfl
    exact RetryPolicy.value_execute_ne_halt hpolicy hgoes _ hcrash
  · have hgoes := (m.embed_asks (options.toRequest input) hempty).goes s
      (Service.behind (answersOf turns).length script)
    exact RetryPolicy.value_execute_ne_halt hpolicy hgoes _ hcrash

/-- A call is halted by its usage or by a negative wait. -/
theorem breaks_of_halted {c : EmbeddingCall} {script : List Answer} {halt : Halt}
    (h : (m.call c (s.scripted script)).value = .error (.halt halt)) :
    halt = .crashed ∧ m.Breaks s (m.defaults.merge c.options) {} c.inputs script := by
  by_cases hinputs : c.inputs = []
  · rw [m.call_of_nil hinputs] at h
    cases h
  obtain ⟨hcrash, hbreaks⟩ | ⟨_, _, _, hrun, -⟩ | ⟨_, _, _, _, hrun, -⟩ :=
    m.call_ends s hinputs script
  · cases hcrash.symm.trans h
    exact ⟨rfl, hbreaks⟩
  · cases hrun.value.symm.trans h
  · cases hrun.value.symm.trans h

variable (m s)

/-- **A usage that does not fit.** Texts with a result whose usage does not fit together halt the
call, whatever the policy for repeated requests. Only one more thing keeps a result or an error from
the caller: a negative wait between two requests for a text, and this takes a factor below zero. -/
theorem call_overflows (c : EmbeddingCall) (script : List Answer) :
    ((∃ turns, m.Overflows {} c.inputs script turns) →
      (m.call c (s.scripted script)).value = .error (.halt .crashed)) ∧
    (∀ halt, (m.call c (s.scripted script)).value = .error (.halt halt) →
      halt = .crashed ∧ ((∃ turns, m.Overflows {} c.inputs script turns) ∨
        m.retry.multiplier.isBelowZero = true ∧
          ∃ turns input, m.Recedes s (m.defaults.merge c.options) c.inputs script turns input)) ∧
    (m.retry.multiplier.isBelowZero = false →
      ((m.call c (s.scripted script)).value = .error (.halt .crashed) ↔
        ∃ turns, m.Overflows {} c.inputs script turns)) := by
  have hhalts : (∃ turns, m.Overflows {} c.inputs script turns) →
      (m.call c (s.scripted script)).value = .error (.halt .crashed) :=
    fun ⟨turns, h⟩ => h.value_call
  have hhalted : ∀ halt, (m.call c (s.scripted script)).value = .error (.halt halt) →
      halt = .crashed ∧ ((∃ turns, m.Overflows {} c.inputs script turns) ∨
        m.retry.multiplier.isBelowZero = true ∧ ∃ turns input,
          m.Recedes s (m.defaults.merge c.options) c.inputs script turns input) := by
    intro halt hhalt
    obtain ⟨rfl, hbreaks⟩ := breaks_of_halted hhalt
    cases hbreaks with
    | overflows turns h => exact ⟨rfl, .inl ⟨turns, h⟩⟩
    | recedes turns input h => exact ⟨rfl, .inr ⟨h.isBelowZero, turns, input, h⟩⟩
  refine ⟨hhalts, hhalted, fun hpolicy => ⟨fun hcrash => ?_, hhalts⟩⟩
  obtain ⟨-, hoverflows | ⟨hbelow, -⟩⟩ := hhalted .crashed hcrash
  · exact hoverflows
  · exact absurd (hbelow.symm.trans hpolicy) (by decide)

/-- An answer with as many tokens as an answer can report, and one with one more. -/
def lavish : List Answer :=
  [replying "[\x7b\"embedding\":[2]\x7d]" "\x7b\"prompt_tokens\":4294967295\x7d",
    replying "[\x7b\"embedding\":[2]\x7d]" "\x7b\"prompt_tokens\":1\x7d"]

/-- The usage of the second answer does not fit next to that of the first one. -/
theorem call_lavish : (unwatched.call { inputs := ["a", "b"] }
    (Session.scripted { service := .unreachable } lavish)).value = .error (.halt .crashed) := by
  decide +kernel

/-- What halts the call is the usage of its turns. -/
theorem call_overflows_lavish : ∃ turns, unwatched.Overflows {} ["a", "b"] lavish turns :=
  ((unwatched.call_overflows _ _ _).2.2 (by decide)).1 call_lavish

/-- Answers that can be read halt a call whose policy never makes a wait negative. -/
theorem halted_by_readable_answers :
    unwatched.retry.multiplier.isBelowZero = false ∧
      (∀ answer ∈ lavish, (unwatched.success? answer).isSome = true) ∧
      (unwatched.call { inputs := ["a", "b"] }
        (Session.scripted { service := .unreachable } lavish)).value = .error (.halt .crashed) :=
  ⟨by decide, by decide +kernel, call_lavish⟩

end EmbeddingModel

end ModelClient
