import ModelClient.Proofs.FollowUp
import ModelClient.Proofs.HandlerLogs

/-!
# The observations of a call

Each round of a call that asks for a response is observed, and nothing else is. The attempts of a
round are made under one observation, and tools are run after it has stopped. So what a handler is
told falls into one block for each round that has asked, in the order of the rounds: the start and
the stop with the summary of the round's own response, or the start, the error and the stop of a
round that the retry policy has given up. After the second kind the call is over.

A round asks as soon as its request is prepared, also under a policy that allows no attempts. Then
nothing is sent, and the handlers are told all the same (`handlerLog_call_of_zero`).

## Main statements

* `ChatModel.call_observations`: what the handlers of a call are told.
-/

namespace ModelClient

open Observation

variable {σ α β : Type} {i : Nat}

/-! ## Runs that are halted by a crash only -/

/-- If the run is halted, it has crashed. -/
def Run.OnlyCrashes (x : Run σ α) : Prop := ∀ s h, (x s).value = .error (.halt h) → h = .crashed

namespace Run.OnlyCrashes

/-- A run that always has a value is not halted. -/
theorem of_ok {x : Run σ α} (h : ∀ s, ∃ a, (x s).value = .ok a) : x.OnlyCrashes := by
  intro s halt hvalue
  obtain ⟨a, ha⟩ := h s
  rw [ha] at hvalue
  cases hvalue

/-- A run that fails is not halted. -/
theorem fail (e : Error) : (Run.fail e : Run σ α).OnlyCrashes := fun _ _ h => by cases h

/-- A value or an error that is there already is not halted. -/
theorem ofExcept (x : Except Error α) : (Run.ofExcept x : Run σ α).OnlyCrashes := by
  cases x with
  | ok a => exact of_ok fun _ => ⟨a, rfl⟩
  | error e => exact fail e

/-- Two runs that are only halted by a crash make one that is. -/
theorem bind {x : Run σ α} {f : α → Run σ β} (hx : x.OnlyCrashes) (hf : ∀ a, (f a).OnlyCrashes) :
    (x >>= f).OnlyCrashes := by
  intro s h hvalue
  have hfirst := hx s h
  change (Run.bind x f s).value = .error (.halt h) at hvalue
  unfold Run.bind at hvalue
  generalize x s = o at hfirst hvalue
  rcases o with ⟨effects, t, stop | a⟩
  · cases hvalue
    exact hfirst rfl
  · exact hf a t h hvalue

/-- An attempt is halted where the run is halted. -/
theorem attempt {x : Run σ α} (hx : x.OnlyCrashes) : x.attempt.OnlyCrashes := by
  intro s h hvalue
  have hfirst := hx s h
  unfold Run.attempt at hvalue
  generalize x s = o at hfirst hvalue
  rcases o with ⟨effects, t, (e | halt) | a⟩
  · cases hvalue
  · cases hvalue
    exact hfirst rfl
  · cases hvalue

/-- Repeating an attempt is only halted by a crash if the attempt is. -/
theorem executeFrom {x : Run σ α} (hx : x.OnlyCrashes) (policy : RetryPolicy)
    (left failed backoff : Nat) : (policy.executeFrom x left failed backoff).OnlyCrashes := by
  induction left generalizing failed backoff with
  | zero => exact fail _
  | succ left ih =>
    unfold RetryPolicy.executeFrom
    refine hx.attempt.bind fun r => ?_
    cases r with
    | ok a => exact (of_ok fun _ => ⟨(), rfl⟩).bind fun _ => of_ok fun _ => ⟨a, rfl⟩
    | error e =>
      simp only
      split
      · exact fail e
      · refine (of_ok fun _ => ⟨(), rfl⟩).bind fun _ => (of_ok fun _ => ⟨(), rfl⟩).bind fun _ => ?_
        split
        -- The next wait would be negative.
        · exact fun _ _ h => by cases h; rfl
        · exact ih _ _

/-- Sending a request is not halted. -/
theorem send (request : Request) : (Session.send request).OnlyCrashes := by
  refine of_ok fun s => ?_
  unfold Session.send
  cases s.service <;> exact ⟨_, rfl⟩

/-- Whole completions are waited for no longer than the time allowed. -/
theorem complete (c : Client) (request : Wire.ChatRequest) : (c.complete request).OnlyCrashes := by
  unfold Client.complete
  split
  · exact fail _
  · refine (send _).bind fun answer => ?_
    cases answer with
    | reply => exact ofExcept _
    | drop | hang => exact fail _

end Run.OnlyCrashes

/-! ## Services with a script -/

/-- The service has a script. -/
def Session.IsScripted (s : Session) : Prop := ∃ answers, s.service = .script answers

/-- A service with a script keeps one. -/
theorem isScripted_send (request : Request) :
    Run.Bounded (fun _ => false) Session.IsScripted 0 (fun _ => True) (Session.send request) := by
  rintro s ⟨answers, hs⟩
  rw [Session.send_of_next hs rfl]
  exact ⟨Nat.le_refl 0, ⟨_, rfl⟩, fun _ _ => trivial⟩

namespace ChatModel

variable {m : ChatModel} {prompt last : Prompt} {s t : Session} {prepared : PreparedRequest}

/-- A service keeps its script while it is asked for a response. -/
theorem isScripted_respond (m : ChatModel) (prepared : PreparedRequest) (hs : s.IsScripted) :
    (m.respond prepared s).state.IsScripted := by
  have hunreported : Unreported fun _ => false := fun _ _ => rfl
  have hcomplete : Run.Bounded (fun _ => false) Session.IsScripted 0 (fun _ => True)
      (m.client.complete prepared.request) := by
    unfold Client.complete
    split
    · exact .fail _
    · refine .quiet_bind (isScripted_send _) fun answer _ => ?_
      cases answer with
      | reply => exact .ofExcept fun _ _ => trivial
      | drop | hang => exact .fail _
  have hrespond : Run.Bounded (fun _ => false) Session.IsScripted 0 (fun _ => True)
      (m.respond prepared) := by
    refine .observe hunreported _ _ _
      (.quiet_bind (.execute_quiet hunreported _ hcomplete) fun answer _ => ?_)
    cases answer <;> exact .pure trivial
  exact (hrespond s hs).state

/-! ## One round -/

/-- The options of the request of a prompt depend on the prompt's options only. -/
theorem prepare_options_eq {streamed streamed' : Bool} {prompt' : Prompt}
    {prepared' : PreparedRequest} (h : m.prepare prompt streamed = .ok prepared)
    (h' : m.prepare prompt' streamed' = .ok prepared') (ho : prompt'.options = prompt.options) :
    prepared'.options = prepared.options := by
  obtain ⟨wire, tools, -, htools, rfl⟩ := prepare_eq_ok_iff.1 h
  obtain ⟨wire', tools', -, htools', rfl⟩ := prepare_eq_ok_iff.1 h'
  rw [ho, htools] at htools'
  cases htools'
  simp only [ho]

/-- What a handler is told of a round that gets a response. -/
def answeredBlock (m : ChatModel) (options : ChatLayer) (response : ChatResponse) : List Event :=
  [m.observer.event (context options) .start,
    m.observer.answered (context options) (summarize response)]

/-- What a handler is told of a round that the retry policy gives up. -/
def failedBlock (m : ChatModel) (options : ChatLayer) (e : Error) : List Event :=
  [m.observer.event (context options) .start, m.observer.event (context options) (.error e),
    m.observer.event (context options) .stop]

/-- Of a round a handler is told the start and the end, however often its request is tried. -/
theorem handlerLog_respond (hi : i < m.observer.handlers) (prepared : PreparedRequest)
    (s : Session) :
    handlerLog i (m.respond prepared s).effects =
      m.observer.event (context prepared.options) .start ::
        m.observer.closing (context prepared.options) summarize (m.respond prepared s).value := by
  obtain ⟨x, hx, hasks⟩ := m.exists_respond_eq_observe prepared
  rw [hx, handlerLog_observe hi, handlerLog_of_isAsking (hasks.isAsking s)]
  rfl

/-- What a handler is told of a round with a response. -/
theorem handlerLog_of_respond_ok (hi : i < m.observer.handlers) {asking : List Effect}
    {response : ChatResponse} (h : m.respond prepared s = ⟨asking, t, .ok response⟩) :
    handlerLog i asking = m.answeredBlock prepared.options response := by
  have hlog := handlerLog_respond hi prepared s
  rw [h] at hlog
  exact hlog

/-- What a handler is told of a round that fails. -/
theorem handlerLog_of_respond_error (hi : i < m.observer.handlers) {asking : List Effect}
    {e : Error} (h : m.respond prepared s = ⟨asking, t, .error (.error e)⟩) :
    handlerLog i asking = m.failedBlock prepared.options e := by
  have hlog := handlerLog_respond hi prepared s
  rw [h] at hlog
  exact hlog

/-- Running tools tells the handlers nothing. -/
theorem handlerLog_runs (runs : List ToolRun) : handlerLog i (runs.map ToolRun.effect) = [] := by
  refine List.filterMap_eq_nil_iff.2 fun e he => ?_
  obtain ⟨run, -, rfl⟩ := List.mem_map.1 he
  rfl

/-- What a handler is told of a complete round, in which telling the tools adds nothing. -/
theorem Takes.handlerLog_effects {r : Round} (h : m.Takes prompt s r t prepared)
    (hi : i < m.observer.handlers) :
    handlerLog i r.effects = m.answeredBlock prepared.options r.response := by
  have hruns : handlerLog i (.delegated r.response :: r.runs.map ToolRun.effect) = [] :=
    handlerLog_runs r.runs
  rw [Round.effects, handlerLog_append, hruns, List.append_nil,
    handlerLog_of_respond_ok hi h.respond]

/-! ## The rounds and the end of a call -/

/-- The prompt keeps its options through the rounds. -/
theorem Rounds.options_eq {rounds : List Round} (h : m.Rounds prompt s rounds last t) :
    last.options = prompt.options := by
  induction h with
  | nil => rfl
  | cons _ _ ih => exact ih

/-- What a handler is told of complete rounds is a block for each. -/
theorem Rounds.handlerLog_effects {rounds : List Round} (h : m.Rounds prompt s rounds last t)
    (hi : i < m.observer.handlers) {options : ChatLayer}
    (ho : ∀ p prepared, p.options = prompt.options → m.prepare p false = .ok prepared →
      prepared.options = options) :
    handlerLog i (rounds.flatMap Round.effects) =
      rounds.flatMap fun r => m.answeredBlock options r.response := by
  induction h with
  | nil => rfl
  | @cons prompt s r t prepared rounds last u first rest ih =>
    rw [List.flatMap_cons, handlerLog_append, first.handlerLog_effects hi, ih ho,
      ho prompt prepared rfl first.prepare, List.flatMap_cons]

namespace Ending

/-- What is done in the last round that has begun to ask, if it is not complete. -/
def asking? : Ending → Option (List Effect)
  | exhausted | unprepared _ => none
  | unanswered asking _ | settled asking _ | toolFailed asking _ _ _ _ => some asking

/-- What a handler is told at the end of a call, after the blocks of the rounds. Nothing is said
about a call that crashes. -/
def block? (m : ChatModel) (options : ChatLayer) : Ending → Option (List Event)
  | exhausted | unprepared _ => some []
  | unanswered _ (.error e) => some (m.failedBlock options e)
  | unanswered _ (.halt _) => none
  | settled _ response | toolFailed _ response _ _ _ => some (m.answeredBlock options response)

end Ending

namespace Ends

variable {left : Nat} {ending : Ending}

/-- What a handler is told at the end of a call. -/
theorem handlerLog_effects (h : m.Ends prompt s left ending) (hi : i < m.observer.handlers)
    {options : ChatLayer}
    (ho : ∀ prepared, m.prepare prompt false = .ok prepared → prepared.options = options) :
    ∀ block ∈ ending.block? m options, handlerLog i ending.effects = block := by
  cases h with
  | exhausted | unprepared =>
    rintro block hblock
    cases hblock
    rfl
  | @unanswered _ prepared asking t stop hprepare hrespond =>
    cases stop with
    | halt h => nofun
    | error e =>
      rintro block hblock
      cases hblock
      rw [Ending.effects, handlerLog_of_respond_error hi hrespond, ho prepared hprepare]
  | @settled _ prepared asking t response hprepare hrespond =>
    rintro block hblock
    cases hblock
    rw [Ending.effects, handlerLog_of_respond_ok hi hrespond, ho prepared hprepare]
  | @toolFailed _ prepared asking t response _ _ _ _ runs failing e hprepare hrespond _ _ _ _
      hfails =>
    rintro block hblock
    cases hblock
    have hfailing : handlerLog i failing = [] := by
      cases hfails <;> rfl
    have htools :
        handlerLog i (.delegated response :: (runs.map ToolRun.effect ++ failing)) = [] := by
      show handlerLog i (runs.map ToolRun.effect ++ failing) = []
      rw [handlerLog_append, handlerLog_runs, hfailing]
      rfl
    rw [Ending.effects, handlerLog_append, htools, List.append_nil,
      handlerLog_of_respond_ok hi hrespond, ho prepared hprepare]

/-- A round that neither gets a response nor fails has crashed. -/
theorem eq_crashed (h : m.Ends prompt s left ending) {asking : List Effect} {halt : Halt}
    (hending : ending = .unanswered asking (.halt halt)) : halt = .crashed := by
  subst hending
  cases h with
  | @unanswered _ prepared _ t _ hprepare hrespond =>
    have hcrashes : Run.OnlyCrashes (m.respond prepared) := by
      refine Run.OnlyCrashes.bind (.executeFrom (.complete _ _) _ _ _ _) fun answer => ?_
      cases answer <;> exact .of_ok fun _ => ⟨_, rfl⟩
    exact hcrashes s halt (by rw [hrespond])

end Ends

/-! ## What is sent -/

section Sent

variable (hattempts : m.retry.maxAttempts ≠ 0)

include hattempts

/-- A round that asks a service with a script sends something. -/
theorem sentRequests_ne_nil_of_respond (hprepare : m.prepare prompt false = .ok prepared)
    (hs : s.IsScripted) {asking : List Effect} {value : Except Stop ChatResponse}
    (hrespond : m.respond prepared s = ⟨asking, t, value⟩) : sentRequests asking ≠ [] := by
  obtain ⟨answers, hs⟩ := hs
  have hfirst := respond_sendsFirst hprepare hattempts hs
  rw [Run.SendsFirst, hrespond] at hfirst
  intro hnil
  rw [hnil] at hfirst
  cases hfirst

/-- Every complete round has sent something. -/
theorem Rounds.sentRequests_ne_nil {rounds : List Round} (h : m.Rounds prompt s rounds last t)
    (hs : s.IsScripted) : (∀ r ∈ rounds, sentRequests r.asking ≠ []) ∧ t.IsScripted := by
  induction h with
  | nil => exact ⟨fun _ h => absurd h List.not_mem_nil, hs⟩
  | @cons prompt s r t prepared rounds last u first rest ih =>
    have ht := isScripted_respond m prepared hs
    rw [first.respond] at ht
    obtain ⟨hrest, hu⟩ := ih ht
    exact ⟨List.forall_mem_cons.2
      ⟨sentRequests_ne_nil_of_respond hattempts first.prepare hs first.respond, hrest⟩, hu⟩

/-- A round that is not complete has sent something, too. -/
theorem Ends.sentRequests_ne_nil {left : Nat} {ending : Ending} (h : m.Ends prompt s left ending)
    (hs : s.IsScripted) : ∀ asking ∈ ending.asking?, sentRequests asking ≠ [] := by
  cases h with
  | exhausted | unprepared => nofun
  | unanswered hprepare hrespond | settled hprepare hrespond | toolFailed hprepare hrespond =>
    rintro asking hasking
    cases hasking
    exact sentRequests_ne_nil_of_respond hattempts hprepare hs hrespond

end Sent

/-- **The observations of a call.** What a handler is told falls into blocks, one for each round
that asks for a response, in the order of the rounds: the start and the stop, with the summary of
the round's own response, and at the end of a call that gets no response the start, the error and
the stop. A round asks once its request is prepared; under a policy that allows attempts it has then
sent something. Repeated attempts, requests that cannot be prepared, tools that fail and a call that
does not settle tell nothing. What is told when a call crashes is left open. -/
theorem call_observations (m : ChatModel) (prompt : Prompt) (s : Session) :
    ∃ options rounds last t left ending, rounds.length + left = 20 ∧
      m.Rounds prompt s rounds last t ∧ m.Ends last t left ending ∧
      (m.call prompt s).effects = rounds.flatMap Round.effects ++ ending.effects ∧
      (m.call prompt s).value = ending.value ∧
      (∀ prepared, m.prepare prompt false = .ok prepared → prepared.options = options) ∧
      (∀ i < m.observer.handlers, ∃ rest,
        handlerLog i (m.call prompt s).effects =
          rounds.flatMap (fun r => m.answeredBlock options r.response) ++ rest ∧
        ∀ block ∈ ending.block? m options, rest = block) ∧
      (∀ asking h, ending = .unanswered asking (.halt h) → h = .crashed) ∧
      (m.retry.maxAttempts ≠ 0 → s.IsScripted →
        ∀ asking ∈ rounds.map Round.asking ++ ending.asking?.toList,
          sentRequests asking ≠ []) := by
  obtain ⟨rounds, last, t, left, ending, hlength, hrounds, hends, heffects, hvalue⟩ :=
    m.exists_history maxRounds prompt s
  have hcall : (m.call prompt s).effects = rounds.flatMap Round.effects ++ ending.effects :=
    heffects
  -- The prompt keeps its options, so all requests that can be prepared are made with the same ones.
  obtain ⟨options, hoptions⟩ : ∃ options, ∀ p prepared, p.options = prompt.options →
      m.prepare p false = .ok prepared → prepared.options = options := by
    by_cases hsome : ∃ p prepared, p.options = prompt.options ∧ m.prepare p false = .ok prepared
    · obtain ⟨p, prepared, hp, hprepare⟩ := hsome
      exact ⟨prepared.options, fun p' prepared' hp' hprepare' =>
        prepare_options_eq hprepare hprepare' (hp'.trans hp.symm)⟩
    · exact ⟨{}, fun p prepared hp hprepare => absurd ⟨p, prepared, hp, hprepare⟩ hsome⟩
  refine ⟨options, rounds, last, t, left, ending, hlength, hrounds, hends, hcall, hvalue,
    fun prepared => hoptions prompt prepared rfl, fun i hi => ⟨handlerLog i ending.effects, ?_, ?_⟩,
    fun asking h => hends.eq_crashed, fun hattempts hs => ?_⟩
  · rw [hcall, handlerLog_append, hrounds.handlerLog_effects hi hoptions]
  · exact hends.handlerLog_effects hi fun prepared => hoptions last prepared hrounds.options_eq
  · obtain ⟨hsent, ht⟩ := hrounds.sentRequests_ne_nil hattempts hs
    refine List.forall_mem_append.2 ⟨List.forall_mem_map.2 hsent, fun asking hasking => ?_⟩
    exact hends.sentRequests_ne_nil hattempts ht asking (Option.mem_toList.1 hasking)

/-! ## A policy without attempts -/

/-- Under a policy that allows no attempts the first round is observed and nothing is sent. -/
theorem handlerLog_call_of_zero (hattempts : m.retry.maxAttempts = 0)
    (hprepare : m.prepare prompt false = .ok prepared) (hi : i < m.observer.handlers)
    (s : Session) :
    handlerLog i (m.call prompt s).effects = m.failedBlock prepared.options .zeroAttempts ∧
      sentRequests (m.call prompt s).effects = [] := by
  have hexecute := RetryPolicy.execute_of_zero hattempts (m.client.complete prepared.request)
  have hvalue : (m.respond prepared s).value = .error (.error .zeroAttempts) := by
    unfold respond
    rw [hexecute]
    rfl
  have hsent : sentRequests (m.respond prepared s).effects = [] := by
    unfold respond
    rw [hexecute, sentRequests_observe]
    rfl
  have hlog := handlerLog_respond hi prepared s
  rw [hvalue] at hlog
  have hrespond : m.respond prepared s = ⟨(m.respond prepared s).effects,
      (m.respond prepared s).state, .error (.error .zeroAttempts)⟩ := by rw [← hvalue]
  rw [call, maxRounds_eq, callRounds_of_respond_error hprepare hrespond]
  exact ⟨hlog, hsent⟩

namespace NoAttempts

/-- A model with a handler and a retry policy that allows no attempts. -/
def model : ChatModel :=
  { ChatModel.ofClient .keyless with
    retry := { RetryPolicy.standard with maxAttempts := 0 }
    observer := { handlers := 1 } }

/-- A service that would answer. -/
def session : Session := { service := .script [.reply 200 [] false] }

end NoAttempts

open NoAttempts in
/-- The handler is told of a round although no request is sent. -/
theorem call_without_attempts : ∃ prepared, model.prepare (.ofText "Hello") false = .ok prepared ∧
    handlerLog 0 (model.call (.ofText "Hello") session).effects =
      model.failedBlock prepared.options .zeroAttempts ∧
    sentRequests (model.call (.ofText "Hello") session).effects = [] :=
  ⟨_, rfl, handlerLog_call_of_zero rfl rfl (by decide) session⟩

end ChatModel

end ModelClient
