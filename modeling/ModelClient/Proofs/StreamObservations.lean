import ModelClient.Proofs.StreamTraces

/-!
# The observations of a stream

The rounds of a stream are observed one inside another, and each observation can be stopped in
several ways: by an error that passes through it, at the end of its round, or because the consumer
wants no more. Read as brackets, what a handler is told is a well-nested sequence all the same, in
which the innermost open observation is the one that is stopped.

The reason is that an error passes through the observations from the innermost one outwards: when it
reaches an observation, all observations inside are stopped already. So for the moments of a round
the invariant is that no observation inside it is open when an error is handed on, and the
observation around it, which is stopped then, can be put below the open ones (`foldlM_relay`).

## Main statements

* `ChatModel.stream_observations`: what the handlers of a stream are told is the same for all of
  them, and it is well nested.
-/

namespace ModelClient

open Observation

/-! ## Open observations -/

namespace Observation

/-- What tells observations apart: the name, and what is known about the call at its start. -/
abbrev Subject := String × Context

/-- The subject of an observation whose call is described by a context. -/
def subject (name : String) (context : Context) : Subject :=
  (name, { context with response := none })

/-- The observations that are open after an event, the innermost one first. Only the innermost one
may be stopped. -/
def Event.advance? (opened : List Subject) (e : Event) : Option (List Subject) :=
  match e.stage, opened with
  | .start, opened => some (subject e.name e.context :: opened)
  | .error _, opened => some opened
  | .stop, innermost :: outer => if subject e.name e.context = innermost then some outer else none
  | .stop, [] => none

/-- The observations that are left open by a log, if its starts and stops are well nested: every
stop is that of the innermost observation that has been started and not stopped. -/
def leftOpen? (log : List Event) : Option (List Subject) := log.foldlM Event.advance? []

/-- Observations around those that are open stay as they are. -/
theorem Event.advance?_append {opened next : List Subject} {e : Event}
    (h : e.advance? opened = some next) (around : List Subject) :
    e.advance? (opened ++ around) = some (next ++ around) := by
  obtain ⟨stage, name, context⟩ := e
  cases stage with
  | start | error =>
    cases h
    rfl
  | stop =>
    cases opened with
    | nil => cases h
    | cons innermost outer =>
      simp only [advance?, List.cons_append] at h ⊢
      by_cases hsame : subject name context = innermost
      · rw [if_pos hsame] at h ⊢
        cases h
        rfl
      · rw [if_neg hsame] at h
        cases h

end Observation

namespace Moment

/-- The observations that are open after a moment. When an error is handed on, none may be. -/
def advance? (opened : List Subject) : Moment → Option (List Subject)
  | told e => e.advance? opened
  | sent _ => some opened
  | failed _ => if opened = [] then some [] else none

end Moment

/-- An error is handed over when no observation is open. -/
theorem Moment.advance?_failed {opened next : List Subject} {e : Error}
    (h : (failed e).advance? opened = some next) : opened = [] ∧ next = [] := by
  rw [advance?] at h
  by_cases hopened : opened = []
  · rw [if_pos hopened] at h
    cases h
    exact ⟨hopened, rfl⟩
  · rw [if_neg hopened] at h
    cases h

/-- The log of moments that keep to the nesting is well nested. -/
theorem foldlM_filterMap_event? {ms : List Moment} {opened next : List Subject}
    (h : ms.foldlM Moment.advance? opened = some next) :
    (ms.filterMap Moment.event?).foldlM Event.advance? opened = some next := by
  induction ms generalizing opened with
  | nil => exact h
  | cons moment ms ih =>
    rw [List.foldlM_cons] at h
    obtain ⟨middle, hmoment, hrest⟩ := Option.bind_eq_some_iff.1 h
    cases moment with
    | told e =>
      show List.foldlM Event.advance? opened (e :: ms.filterMap Moment.event?) = some next
      rw [List.foldlM_cons]
      exact Option.bind_eq_some_iff.2 ⟨middle, hmoment, ih hrest⟩
    | sent request =>
      cases hmoment
      exact ih hrest
    | failed e =>
      obtain ⟨rfl, rfl⟩ := Moment.advance?_failed hmoment
      exact ih hrest

/-! ## A round under an observation -/

section Round

variable {observer : Observer} {context : Context}

/-- The observation of a round, if it has not been stopped. -/
def Observer.around (observer : Observer) (context : Context) (stopped : Bool) : List Subject :=
  if stopped then [] else [subject (observer.convention context) context]

/-- The observation of a round stands below those of the rounds inside it, until the first error
stops it. -/
theorem foldlM_relay {ms : List Moment} {opened next : List Subject}
    (h : ms.foldlM Moment.advance? opened = some next) (stopped : Bool) :
    (observer.relay context stopped ms).foldlM Moment.advance?
        (opened ++ observer.around context stopped) =
      some (next ++ observer.around context (stopped || ms.any Moment.isFailure)) := by
  induction ms generalizing opened stopped with
  | nil =>
    cases h
    simp [Observer.relay]
  | cons moment ms ih =>
    rw [List.foldlM_cons] at h
    obtain ⟨middle, hmoment, hrest⟩ := Option.bind_eq_some_iff.1 h
    cases moment with
    | told e =>
      show List.foldlM Moment.advance? _ (.told e :: observer.relay context stopped ms) = _
      rw [List.foldlM_cons]
      exact Option.bind_eq_some_iff.2 ⟨_, Event.advance?_append hmoment _, ih hrest stopped⟩
    | sent request =>
      cases hmoment
      exact ih hrest stopped
    | failed e =>
      obtain ⟨rfl, rfl⟩ := Moment.advance?_failed hmoment
      have hrest := ih hrest true
      -- Nothing inside is open, so what is stopped is the observation around.
      cases stopped <;>
        simpa [Observer.relay, Observer.around, Moment.advance?, Event.advance?, Observer.event,
          Moment.isFailure] using hrest

end Round

/-- Asking tells nothing and hands nothing on. -/
theorem foldlM_moments_of_isAsking {P : Json → Bool} {asks : List Effect}
    (h : ∀ e ∈ asks, e.isAsking P = true) (i : Nat) (es : List Effect) (opened : List Subject) :
    (moments i (asks ++ es)).foldlM Moment.advance? opened =
      (moments i es).foldlM Moment.advance? opened := by
  rw [moments_append, moments_of_isAsking h]
  induction sentRequests asks with
  | nil => rfl
  | cons request rest ih => exact ih

/-- The observations that a round leaves open, if it keeps to the nesting before it is observed:
none, unless it never ends. -/
theorem exists_foldlM_watched {observer : Observer} {context : Context} {es : List Effect}
    {v : Except Stop Unit} {i : Nat} (hi : i < observer.handlers) {opened : List Subject}
    (h : (moments i es).foldlM Moment.advance? [] = some opened)
    (hopened : v ≠ .error (.halt .stalled) → opened = [])
    (hfailed : v = .error (.halt .stalled) → opened = [] → es.any Effect.isFailure = false) :
    ∃ left, (moments i (watched observer context es v)).foldlM Moment.advance? [] = some left ∧
      (left = [] ↔ v ≠ .error (.halt .stalled)) := by
  obtain ⟨closing, hclosing, hmoments⟩ := exists_moments_watched observer context es v
  have hinside : (observer.relay context false (moments i es)).foldlM Moment.advance?
      (observer.around context false) =
        some (opened ++ observer.around context (es.any Effect.isFailure)) := by
    rw [← any_isFailure_moments i]
    exact foldlM_relay h false
  have hall : (moments i (watched observer context es v)).foldlM Moment.advance? [] =
      (closing.map .told).foldlM Moment.advance?
        (opened ++ observer.around context (es.any Effect.isFailure)) := by
    rw [hmoments i hi, List.foldlM_cons]
    show List.foldlM Moment.advance? (observer.around context false) _ = _
    rw [List.foldlM_append, hinside]
    rfl
  rw [hall]
  -- The round's own observation is closed by the first error inside, or else by the stop.
  rcases hclosing with ⟨hend, rfl⟩ | ⟨hfailed, hv, response, rfl⟩
  · refine ⟨_, rfl, ?_⟩
    by_cases hv : v = .error (.halt .stalled)
    · refine iff_of_false (fun hleft => ?_) (by simpa using hv)
      obtain ⟨hnone, haround⟩ := List.append_eq_nil_iff.1 hleft
      rw [hfailed hv hnone] at haround
      cases haround
    · have hfailed := hend.resolve_right hv
      rw [hopened hv, hfailed]
      exact iff_of_true rfl hv
  · refine ⟨[], ?_, iff_of_true rfl hv⟩
    rw [hopened hv, hfailed]
    simp [Moment.advance?, Event.advance?, Observer.around, subject]

namespace StreamTrace

variable {m : ChatModel} {es : List Effect} {v : Except Stop Unit} {i j : Nat}

/-- A stream keeps to the nesting, and leaves observations open only if it never ends. -/
theorem exists_foldlM_moments (h : StreamTrace m es v) (hi : i < m.observer.handlers) :
    ∃ opened, (moments i es).foldlM Moment.advance? [] = some opened ∧
      (opened = [] ↔ v ≠ .error (.halt .stalled)) := by
  induction h with
  | @relayed es v hrelayed hv =>
    refine ⟨[], ?_, iff_of_true rfl hv⟩
    clear hv
    induction es with
    | nil => rfl
    | cons e es ih =>
      have hrest := ih fun f hf => hrelayed f (List.mem_cons_of_mem _ hf)
      rw [moments_cons]
      -- An error is allowed here, because no observation is open.
      rcases Effect.moment?_of_isRelayed (hrelayed e List.mem_cons_self) i with he | ⟨err, he⟩
      · rw [he]
        exact hrest
      · rw [he]
        exact hrest
  | @append es fs v first rest ih ih' =>
    obtain ⟨opened, hopened, hnone⟩ := ih
    obtain rfl := hnone.2 (by nofun)
    obtain ⟨left, hleft, hiff⟩ := ih'
    refine ⟨left, ?_, hiff⟩
    rw [moments_append, List.foldlM_append, hopened]
    exact hleft
  | @round prompt prepared asks es v hprepare hasking rest ih =>
    obtain ⟨opened, hopened, hiff⟩ := ih
    rw [← foldlM_moments_of_isAsking hasking] at hopened
    exact exists_foldlM_watched hi hopened hiff.2 fun hv hnone => absurd hv (hiff.1 hnone)
  | @stalled prompt prepared asks hprepare hasking =>
    have hopened := foldlM_moments_of_isAsking hasking i [] []
    rw [List.append_nil] at hopened
    refine exists_foldlM_watched hi hopened (fun _ => rfl) fun _ _ => ?_
    rw [← any_isFailure_moments i, moments_of_isAsking hasking]
    simp [Moment.isFailure]

/-- All handlers see the same moments. -/
theorem moments_eq (h : StreamTrace m es v) (hi : i < m.observer.handlers)
    (hj : j < m.observer.handlers) : moments i es = moments j es := by
  induction h with
  | relayed hrelayed =>
    refine List.filterMap_congr fun e he => ?_
    have hrelayed := hrelayed e he
    cases e with
    | observed => cases hrelayed
    | yielded item => cases item <;> rfl
    | _ => rfl
  | append _ _ ih ih' => rw [moments_append, moments_append, ih, ih']
  | @round prompt prepared asks es v _ hasking _ ih =>
    obtain ⟨closing, -, hmoments⟩ :=
      exists_moments_watched m.observer (ChatModel.context prepared.options) (asks ++ es) v
    have hsame : moments i (asks ++ es) = moments j (asks ++ es) := by
      rw [moments_append, moments_append, moments_of_isAsking hasking, moments_of_isAsking hasking,
        ih]
    rw [hmoments i hi, hmoments j hj, hsame]
  | @stalled prompt prepared asks _ hasking =>
    obtain ⟨closing, -, hmoments⟩ := exists_moments_watched m.observer
      (ChatModel.context prepared.options) asks (.error (.halt .stalled))
    rw [hmoments i hi, hmoments j hj, moments_of_isAsking hasking, moments_of_isAsking hasking]

end StreamTrace

/-- **The observations of a stream.** All handlers are told the same. The starts and stops that they
are told are well nested, each stop being that of the innermost observation that has been started
and not stopped. In the end no observation is left open, whatever the service answers and whenever
the consumer wants no more, unless the service leaves the stream waiting for ever. -/
theorem ChatModel.stream_observations (m : ChatModel) (prompt : Prompt) (s : Session) :
    (∀ i j : Fin m.observer.handlers,
      handlerLog i (m.stream prompt s).effects = handlerLog j (m.stream prompt s).effects) ∧
    ∀ i : Fin m.observer.handlers,
      ∃ opened, leftOpen? (handlerLog i (m.stream prompt s).effects) = some opened ∧
        (opened = [] ↔ (m.stream prompt s).value ≠ .error (.halt .stalled)) := by
  have htrace := m.streamTrace_stream prompt s
  refine ⟨fun i j => ?_, fun i => ?_⟩
  · rw [handlerLog_eq_moments, handlerLog_eq_moments, htrace.moments_eq i.isLt j.isLt]
  · obtain ⟨opened, hopened, hiff⟩ := htrace.exists_foldlM_moments i.isLt
    refine ⟨opened, ?_, hiff⟩
    rw [leftOpen?, handlerLog_eq_moments]
    exact foldlM_filterMap_event? hopened

end ModelClient
