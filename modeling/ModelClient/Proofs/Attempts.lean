import ModelClient.Proofs.Authorization

/-!
# Attempts and their answers

What a run tells the service and what it hears is the list of its requests, each with the answer to
it. `Run.Exchanges` says of a run against a script that it ends with a result, after these requests
and no others, and that the script goes on behind the answers. One run after another puts the lists
one behind the other (`Run.Exchanges.bind`), and what concerns only listeners and handlers leaves
them alone.

A policy repeats a request as long as the answer to it reads as a transient error and attempts are
left. `RetryPolicy.Tries` is the history of such attempts: the answers and the result they come to.
Every repeated request has one (`RetryPolicy.execute_exchanges`), unless the wait between two
attempts would be negative. None is the beginning of another one
(`RetryPolicy.Tries.eq_of_isPrefix`), so a script has only one history of a request.

## Main statements

* `RetryPolicy.execute_exchanges`: a repeated request, its answers and its result.
-/

namespace ModelClient

variable {σ α β : Type}

/-! ## Answers in order -/

namespace Service

/-- The answers to the next `n` requests. -/
def first : Nat → List Answer → List Answer
  | 0, _ => []
  | n + 1, answers => (next answers).1 :: first n (next answers).2

/-- The script behind the answers to the next `n` requests. -/
def behind : Nat → List Answer → List Answer
  | 0, answers => answers
  | n + 1, answers => behind n (next answers).2

/-- The next answers are some of them and then those that come next. -/
theorem first_add (n k : Nat) (answers : List Answer) :
    first (n + k) answers = first n answers ++ first k (behind n answers) := by
  induction n generalizing answers with
  | zero => rw [Nat.zero_add, first, behind, List.nil_append]
  | succ n ih => rw [Nat.succ_add, first, first, behind, ih, List.cons_append]

/-- Behind the next answers is what is behind the later ones of them. -/
theorem behind_add (n k : Nat) (answers : List Answer) :
    behind (n + k) answers = behind k (behind n answers) := by
  induction n generalizing answers with
  | zero => rw [Nat.zero_add, behind]
  | succ n ih => rw [Nat.succ_add, behind, behind, ih]

/-- There is an answer to every request. -/
theorem length_first (n : Nat) (answers : List Answer) : (first n answers).length = n := by
  induction n generalizing answers with
  | zero => rfl
  | succ n ih => rw [first, List.length_cons, ih]

/-- Fewer requests get the first of the answers. -/
theorem first_prefix_first {n k : Nat} (h : n ≤ k) (answers : List Answer) :
    first n answers <+: first k answers := by
  obtain ⟨more, rfl⟩ := Nat.exists_eq_add_of_le h
  rw [first_add]
  exact List.prefix_append _ _

end Service

/-- The session whose service has the given answers. -/
def Session.scripted (s : Session) (answers : List Answer) : Session :=
  { s with service := .script answers }

/-! ## Requests with their answers -/

/-- An outcome against a script: the result, the requests that were sent, each with its answer, and
the script behind these answers. -/
structure Outcome.Exchanges (s : Session) (script : List Answer)
    (exchanges : List (Request × Answer)) (result : Except Error α) (o : Outcome Session α) :
    Prop where
  value : o.value = result.mapError .error
  requests : sentRequests o.effects = exchanges.map (·.1)
  answers : exchanges.map (·.2) = Service.first exchanges.length script
  state : o.state = s.scripted (Service.behind exchanges.length script)

namespace Run

/-- A run that stops early stops what it begins. -/
theorem value_bind_of_error {x : Run σ α} {s : σ} {stop : Stop} (h : (x s).value = .error stop)
    (f : α → Run σ β) : ((x >>= f) s).value = .error stop := by
  have ho : x s = ⟨(x s).effects, (x s).state, .error stop⟩ := by rw [← h]
  rw [bind_of_error ho]

/-- Against a script, the run ends with the result after these requests and no others. -/
def Exchanges (s : Session) (script : List Answer) (exchanges : List (Request × Answer))
    (result : Except Error α) (x : Run Session α) : Prop :=
  (x (s.scripted script)).Exchanges s script exchanges result

namespace Exchanges

variable {s : Session} {script : List Answer} {exchanges more : List (Request × Answer)}
  {x : Run Session α}

/-- A run that gives a value exchanges nothing. -/
theorem pure (a : α) : Exchanges s script [] (.ok a) (Pure.pure a) :=
  ⟨rfl, rfl, rfl, rfl⟩

/-- A run that fails exchanges nothing. -/
theorem fail (e : Error) : Exchanges s script [] (.error e) (Run.fail e : Run Session α) :=
  ⟨rfl, rfl, rfl, rfl⟩

/-- A request is exchanged for the next answer. -/
theorem send (request : Request) :
    Exchanges s script [(request, (Service.next script).1)] (.ok (Service.next script).1)
      (Session.send request) :=
  ⟨rfl, rfl, rfl, rfl⟩

/-- Telling someone or waiting is no request. -/
theorem emitAll {es : List Effect} (h : sentRequests es = []) :
    Exchanges s script [] (.ok ()) (Run.emitAll es) :=
  ⟨rfl, h, rfl, rfl⟩

/-- Telling the listeners exchanges nothing. -/
theorem notify (policy : RetryPolicy) (notice : RetryNotice) :
    Exchanges s script [] (.ok ()) (policy.notify notice) := by
  refine emitAll (List.filterMap_eq_nil_iff.2 fun e he => ?_)
  obtain ⟨i, -, rfl⟩ := List.mem_map.1 he
  rfl

/-- What a run exchanges says how it ends and what it sends. -/
theorem exists_eq {result : Except Error α} (hx : Exchanges s script exchanges result x) :
    ∃ effects, x (s.scripted script) =
        ⟨effects, s.scripted (Service.behind exchanges.length script), result.mapError .error⟩ ∧
      sentRequests effects = exchanges.map (·.1) :=
  ⟨_, by rw [← hx.value, ← hx.state], hx.requests⟩

/-- What follows a run begins where the run has ended. -/
theorem value_bind {a : α} (hx : Exchanges s script exchanges (.ok a) x)
    (f : α → Run Session β) :
    ((x >>= f) (s.scripted script)).value =
      (f a (s.scripted (Service.behind exchanges.length script))).value := by
  obtain ⟨effects, ho, -⟩ := hx.exists_eq
  rw [bind_of_ok ho]

/-- A run and what follows it. -/
theorem bind {a : α} {f : α → Run Session β} {result : Except Error β}
    (hx : Exchanges s script exchanges (.ok a) x)
    (hf : Exchanges s (Service.behind exchanges.length script) more result (f a)) :
    Exchanges s script (exchanges ++ more) result (x >>= f) := by
  obtain ⟨effects, ho, hrequests⟩ := hx.exists_eq
  refine ⟨(hx.value_bind f).trans hf.value, ?_, ?_, ?_⟩
  · rw [bind_of_ok ho, sentRequests_append, hrequests, hf.requests, List.map_append]
  · rw [List.map_append, List.length_append, Service.first_add, hx.answers, hf.answers]
  · rw [bind_of_ok ho, List.length_append, Service.behind_add]
    exact hf.state

/-- A run without a request and what follows it. -/
theorem quiet_bind {a : α} {f : α → Run Session β} {result : Except Error β}
    (hx : Exchanges s script [] (.ok a) x) (hf : Exchanges s script more result (f a)) :
    Exchanges s script more result (x >>= f) :=
  hx.bind hf

/-- A run and what follows it without a request. -/
theorem bind_quiet {a : α} {f : α → Run Session β} {result : Except Error β}
    (hx : Exchanges s script exchanges (.ok a) x)
    (hf : Exchanges s (Service.behind exchanges.length script) [] result (f a)) :
    Exchanges s script exchanges result (x >>= f) := by
  have h := hx.bind hf
  rwa [List.append_nil] at h

/-- A run that fails has nothing follow it. -/
theorem bind_error {e : Error} (hx : Exchanges s script exchanges (.error e) x)
    (f : α → Run Session β) : Exchanges s script exchanges (.error e) (x >>= f) := by
  obtain ⟨effects, ho, hrequests⟩ := hx.exists_eq
  unfold Exchanges
  rw [bind_of_error ho]
  exact ⟨rfl, hrequests, hx.answers, rfl⟩

/-- A failure as a value. -/
theorem attempt {result : Except Error α} (hx : Exchanges s script exchanges result x) :
    Exchanges s script exchanges (.ok result) x.attempt := by
  obtain ⟨effects, ho, hrequests⟩ := hx.exists_eq
  unfold Exchanges
  cases result with
  | ok a =>
    rw [attempt_of_ok ho]
    exact ⟨rfl, hrequests, hx.answers, rfl⟩
  | error e =>
    rw [attempt_of_error ho]
    exact ⟨rfl, hrequests, hx.answers, rfl⟩

/-- Whoever watches a run sends nothing. -/
theorem observe {result : Except Error α} (observer : Observer) (context : Observation.Context)
    (summarize : α → ResponseSummary) (hx : Exchanges s script exchanges result x) :
    Exchanges s script exchanges result (ModelClient.observe observer context summarize x) :=
  ⟨hx.value, (sentRequests_observe observer context summarize x _).trans hx.requests, hx.answers,
    hx.state⟩

end Exchanges

/-- The run sends one request and its result is the reading of the answer. -/
def Asks (request : Request) (read : Answer → Except Error α) (x : Run Session α) : Prop :=
  ∀ s script, Exchanges s script [(request, (Service.next script).1)]
    (read (Service.next script).1) x

end Run

namespace Client

/-- What an answer to a request is read as. -/
def read (c : Client) (decode : Json.Decoder α) : Answer → Except Error (Option α)
  | .reply status pieces breaksOff => readBody decode status pieces breaksOff
  | .drop => .error .network
  | .hang => .error (.timeout c.timeout)

/-- A client's request asks with its body and reads the answer. -/
theorem request_asks (c : Client) (path : String) (body : Json) (decode : Json.Decoder α) :
    (c.request path body decode).Asks
      ⟨endpoint c.baseUrl path, contentType, authorization? c.apiKey, body⟩ (c.read decode) := by
  intro s script
  refine (Run.Exchanges.send _).bind_quiet ?_
  generalize (Service.next script).1 = answer
  cases answer with
  | reply status pieces breaksOff =>
    simp only [read]
    cases readBody decode status pieces breaksOff with
    | ok value => exact .pure value
    | error e => exact .fail e
  | drop => exact .fail _
  | hang => exact .fail _

end Client

/-! ## Repeated requests -/

namespace RetryPolicy

/-- The answers to at most so many attempts, and the result. Every answer but the last one is read
as a transient error. The last one is read as the result, and if that is transient there are as many
answers as attempts. -/
inductive Tries (read : Answer → Except Error α) : Nat → List Answer → Except Error α → Prop
  | succeeded {left : Nat} {answer : Answer} {a : α} (h : read answer = .ok a) :
      Tries read (left + 1) [answer] (.ok a)
  | failed {left : Nat} {answer : Answer} {e : Error} (h : read answer = .error e)
      (hfinal : e.isRetryable = false ∨ left = 0) : Tries read (left + 1) [answer] (.error e)
  | again {left : Nat} {answer : Answer} {answers : List Answer} {e : Error}
      {result : Except Error α} (h : read answer = .error e) (htransient : e.isRetryable = true)
      (hrest : Tries read left answers result) : Tries read (left + 1) (answer :: answers) result

/-- There are no more answers than attempts. -/
theorem Tries.length_le {read : Answer → Except Error α} {left : Nat} {answers : List Answer}
    {result : Except Error α} (h : Tries read left answers result) : answers.length ≤ left := by
  induction h with
  | succeeded | failed => exact Nat.succ_le_succ (Nat.zero_le _)
  | again _ _ _ ih => exact Nat.succ_le_succ ih

/-- The last answer is read as the result. -/
theorem Tries.exists_read {read : Answer → Except Error α} {left : Nat} {answers : List Answer}
    {result : Except Error α} (h : Tries read left answers result) :
    ∃ failures last, answers = failures ++ [last] ∧ read last = result ∧
      ∀ answer ∈ failures, ∃ e, read answer = .error e ∧ e.isRetryable = true := by
  induction h with
  | @succeeded _ answer _ h => exact ⟨[], answer, rfl, h, nofun⟩
  | @failed _ answer _ h _ => exact ⟨[], answer, rfl, h, nofun⟩
  | @again _ answer _ e _ h htransient _ ih =>
    obtain ⟨failures, last, rfl, hlast, hfailures⟩ := ih
    refine ⟨answer :: failures, last, rfl, hlast, fun a ha => ?_⟩
    rcases List.mem_cons.1 ha with rfl | ha
    · exact ⟨e, h, htransient⟩
    · exact hfailures a ha

/-- Without an attempt there is no history. -/
theorem Tries.pos {read : Answer → Except Error α} {left : Nat} {answers : List Answer}
    {result : Except Error α} (h : Tries read left answers result) : 0 < left := by
  cases h <;> exact Nat.succ_pos _

/-- The answer is read as a transient error, and attempts are left. -/
def Repeats (read : Answer → Except Error α) (left : Nat) (answer : Answer) : Prop :=
  ∃ e, read answer = .error e ∧ e.isRetryable = true ∧ left ≠ 0

/-- The first answer is the last one or leads to one more attempt. -/
theorem Tries.first {read : Answer → Except Error α} {left : Nat} {answers : List Answer}
    {result : Except Error α} (h : Tries read (left + 1) answers result) :
    (∃ answer, answers = [answer] ∧ result = read answer ∧ ¬Repeats read left answer) ∨
      ∃ answer rest, answers = answer :: rest ∧ Repeats read left answer ∧
        Tries read left rest result := by
  cases h with
  | @succeeded _ answer _ h =>
    refine .inl ⟨answer, rfl, h.symm, fun ⟨e, he, _⟩ => ?_⟩
    cases h.symm.trans he
  | @failed _ answer _ h hfinal =>
    refine .inl ⟨answer, rfl, h.symm, fun ⟨e, he, htransient, hleft⟩ => ?_⟩
    cases h.symm.trans he
    exact hfinal.elim (fun hfinal => absurd (htransient.symm.trans hfinal) (by decide)) hleft
  | @again _ answer answers e _ h htransient hrest =>
    exact .inr ⟨answer, answers, rfl, ⟨e, h, htransient, Nat.ne_of_gt hrest.pos⟩, hrest⟩

/-- No history is the beginning of another one. -/
theorem Tries.eq_of_isPrefix {read : Answer → Except Error α} {left : Nat}
    {answers answers' : List Answer} {result result' : Except Error α}
    (h : Tries read left answers result) (h' : Tries read left answers' result')
    (hbegins : answers <+: answers') : answers = answers' ∧ result = result' := by
  induction left generalizing answers answers' with
  | zero => exact absurd h.pos (Nat.lt_irrefl 0)
  | succ left ih =>
    obtain ⟨answer, rfl, rfl, hlast⟩ | ⟨answer, rest, rfl, hrepeats, hrest⟩ := h.first <;>
      obtain ⟨answer', rfl, rfl, hlast'⟩ | ⟨answer', rest', rfl, hrepeats', hrest'⟩ := h'.first <;>
      obtain ⟨rfl, hrests⟩ := List.cons_prefix_cons.1 hbegins
    · exact ⟨rfl, rfl⟩
    · exact absurd hrepeats' hlast
    · exact absurd hrepeats hlast'
    · obtain ⟨rfl, rfl⟩ := ih hrest hrest' hrests
      exact ⟨rfl, rfl⟩

variable {request : Request} {read : Answer → Except Error α} {x : Run Session α}

/-- The attempts that are left have a history, unless a wait would be negative. -/
theorem executeFrom_exchanges (p : RetryPolicy) (hx : x.Asks request read) (s : Session)
    {left : Nat} (hleft : left ≠ 0) (failed backoff : Nat) (script : List Answer) :
    (p.executeFrom x left failed backoff (s.scripted script)).value = .error (.halt .crashed) ∨
      ∃ answers result, Tries read left answers result ∧
        (p.executeFrom x left failed backoff).Exchanges s script (answers.map (request, ·))
          result := by
  induction left generalizing failed backoff script with
  | zero => exact absurd rfl hleft
  | succ left ih =>
    have hattempt := (hx s script).attempt
    unfold executeFrom
    cases hread : read (Service.next script).1 with
    | ok a =>
      rw [hread] at hattempt
      exact .inr ⟨_, _, .succeeded hread,
        hattempt.bind_quiet (.quiet_bind (.notify p _) (.pure a))⟩
    | error e =>
      rw [hread] at hattempt
      by_cases hfinal : (!e.isRetryable || left == 0) = true
      · have hlast : e.isRetryable = false ∨ left = 0 := by simpa using hfinal
        refine .inr ⟨_, _, .failed hread hlast, hattempt.bind_quiet ?_⟩
        simp only [if_pos hfinal]
        exact .fail e
      · obtain ⟨htransient, hmore⟩ : e.isRetryable = true ∧ left ≠ 0 := by simpa using hfinal
        -- What happens between two attempts is no request.
        have hnotify : (p.notify (.retrying (failed + 1) e)).Exchanges s
            (Service.next script).2 [] (.ok ()) := .notify p _
        have hpause : (Run.emit (.paused (.after backoff e))).Exchanges s
            (Service.next script).2 [] (.ok ()) := .emitAll rfl
        cases p.nextBackoff? backoff with
        | none =>
          left
          rw [hattempt.value_bind]
          simp only [if_neg hfinal]
          exact (hnotify.value_bind _).trans (hpause.value_bind _)
        | some next =>
          obtain hcrash | ⟨answers, result, htries, hrun⟩ :=
            ih hmore (failed + 1) next (Service.next script).2
          · left
            rw [hattempt.value_bind]
            simp only [if_neg hfinal]
            exact (hnotify.value_bind _).trans ((hpause.value_bind _).trans hcrash)
          · refine .inr ⟨_, _, .again hread htransient htries, hattempt.bind ?_⟩
            simp only [if_neg hfinal]
            exact .quiet_bind hnotify (.quiet_bind hpause hrun)

/-- What fails for good without a request is not repeated. -/
theorem execute_fail (p : RetryPolicy) (hattempts : p.maxAttempts ≠ 0) {e : Error}
    (hfinal : e.isRetryable = false) : p.execute (.fail e : Run σ α) = .fail e := by
  obtain ⟨left, hleft⟩ := p.exists_maxAttempts_eq_add_one hattempts
  funext s
  have hattempt : (Run.fail e : Run σ α).attempt s = ⟨[], s, .ok (.error e)⟩ := rfl
  rw [execute, hleft, executeFrom, Run.bind_of_ok hattempt]
  simp only [hfinal, Bool.not_false, Bool.true_or, if_true]
  rfl

/-- A repeated request has a history, unless a wait would be negative. -/
theorem execute_exchanges (p : RetryPolicy) (hattempts : p.maxAttempts ≠ 0)
    (hx : x.Asks request read) (s : Session) (script : List Answer) :
    (p.execute x (s.scripted script)).value = .error (.halt .crashed) ∨
      ∃ answers result, Tries read p.maxAttempts.toNat answers result ∧
        (p.execute x).Exchanges s script (answers.map (request, ·)) result := by
  obtain ⟨left, hleft⟩ := p.exists_maxAttempts_eq_add_one hattempts
  exact p.executeFrom_exchanges hx s (by omega) 0 p.firstBackoff script

end RetryPolicy

end ModelClient
