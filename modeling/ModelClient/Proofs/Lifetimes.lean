import Mathlib.Data.List.Induction
import ModelClient.Proofs.HandlerLogs

/-!
# The lifetime of an observation

An observation lives from its start until it is dropped. In between it may be stopped, be told of
errors and be given responses, in any order and however often; to drop it is to stop it.

All that an observation remembers is what it has been given last and whether it has been stopped, so
its state is known from the actions so far (`Observation.after`), and so is what the handlers are
told of the next one (`Observation.tells?`). One action keeps this up (`Observation.perform_after`);
by induction on the actions, what is told of a lifetime is the start and then what each action
tells after those in front of it.

## Main statements

* `Observation.lifetime_told`: what the handlers of an observation are told until it is dropped.
-/

namespace ModelClient

namespace Observation

/-- Something that is done to an observation after its start. -/
inductive Action where
  | stop
  | error (e : Error)
  | setResponse (summary : ResponseSummary)
deriving DecidableEq

namespace Action

/-- The response that the action gives. -/
def response? : Action → Option ResponseSummary
  | setResponse summary => some summary
  | _ => none

/-- The error that the action reports. -/
def error? : Action → Option Error
  | error e => some e
  | _ => none

end Action

/-- The error that the event reports. -/
def Event.error? (e : Event) : Option Error :=
  match e.stage with
  | .error e => some e
  | _ => none

/-- The notices of an action and the observation after it. -/
def perform (o : Observation) : Action → List Notice × Observation
  | .stop => o.stop
  | .error e => (o.error e, o)
  | .setResponse summary => ([], o.setResponse summary)

/-- The notices of some actions, one after the other, and the observation after them. -/
def performAll (o : Observation) : List Action → List Notice × Observation
  | [] => ([], o)
  | action :: rest =>
    let (notices, o) := o.perform action
    let (more, o) := o.performAll rest
    (notices ++ more, o)

/-- The notices of an observation that is started, goes through some actions and is dropped. -/
def lifetime (handlers : Nat) (convention : Convention) (context : Context)
    (actions : List Action) : List Notice :=
  let (started, o) := start handlers convention context
  started ++ (o.performAll (actions ++ [.stop])).1

/-! ## What is told -/

/-- What is known about the call after some actions. Its response is the last one given, and nothing
else changes. -/
def Context.after (context : Context) (actions : List Action) : Context :=
  { context with
    response := (actions.filterMap Action.response?).getLast? <|> context.response }

/-- The actions in front of the first stop. -/
def untilStop (actions : List Action) : List Action := actions.takeWhile (· ≠ .stop)

variable (handlers : Nat) (name : String) (context : Context)

/-- What handlers are told of an action that comes after some others. -/
def tells? (before : List Action) : Action → Option Event
  | .stop => if .stop ∈ before then none else some ⟨.stop, name, context.after before⟩
  | .error e => some ⟨.error e, name, context.after before⟩
  | .setResponse _ => none

/-- What handlers are told of some actions, of each one after those in front of it. -/
def told (actions : List Action) : List Event :=
  (List.range actions.length).filterMap fun k =>
    actions[k]?.bind (tells? name context (actions.take k))

/-- The notices of an event, one for each handler in the order of their registration. -/
def announce (e : Event) : List Notice := (List.range handlers).map (⟨·, e⟩)

/-- One more action tells one event more, or none. -/
theorem told_concat (actions : List Action) (action : Action) :
    told name context (actions ++ [action]) =
      told name context actions ++ (tells? name context actions action).toList := by
  have hbefore : (List.range actions.length).filterMap (fun k =>
      (actions ++ [action])[k]?.bind (tells? name context ((actions ++ [action]).take k))) =
        told name context actions := by
    refine List.filterMap_congr fun k hk => ?_
    have hlt := List.mem_range.1 hk
    rw [List.getElem?_append_left hlt, List.take_append_of_le_length (Nat.le_of_lt hlt)]
  rw [told, List.length_append, List.length_singleton, List.range_succ, List.filterMap_append,
    hbefore, List.filterMap_cons, List.filterMap_nil, List.getElem?_concat_length, List.take_left,
    Option.bind_some]
  cases tells? name context actions action <;> rfl

/-- After one more action the context has the action's response, if it gives one. -/
theorem Context.after_concat (actions : List Action) (action : Action) :
    context.after (actions ++ [action]) =
      (action.response?.map fun summary =>
        { context.after actions with response := some summary }).getD (context.after actions) := by
  simp only [Context.after, List.filterMap_append]
  cases action <;> simp [Action.response?]

/-- What a handler is told of a lifetime: the start, and then what the actions and the drop tell. -/
def lifetimeLog (actions : List Action) : List Event :=
  ⟨.start, name, context⟩ :: told name context (actions ++ [.stop])

/-! ## Actions one after the other -/

/-- The observation after some actions. -/
def after (actions : List Action) : Observation :=
  ⟨name, context.after actions, handlers, decide (.stop ∈ actions)⟩

/-- An action tells what it tells after those before it, and leaves the observation after one more
action. -/
theorem perform_after (before : List Action) (action : Action) :
    (after handlers name context before).perform action =
      ((tells? name context before action).toList.flatMap (announce handlers),
        after handlers name context (before ++ [action])) := by
  cases action with
  | error e => simp [perform, error, notices, tells?, announce, after, Context.after_concat,
      Action.response?]
  | setResponse summary => simp [perform, setResponse, tells?, after, Context.after_concat,
      Action.response?]
  | stop =>
    by_cases hstopped : Action.stop ∈ before
    · simp [perform, stop, tells?, after, Context.after_concat, Action.response?, hstopped]
    · simp [perform, stop, notices, tells?, announce, after, Context.after_concat,
        Action.response?, hstopped]

/-- One more action is performed on what the others have left. -/
theorem performAll_concat (o : Observation) (actions : List Action) (action : Action) :
    o.performAll (actions ++ [action]) =
      ((o.performAll actions).1 ++ ((o.performAll actions).2.perform action).1,
        ((o.performAll actions).2.perform action).2) := by
  induction actions generalizing o with
  | nil => simp [performAll]
  | cons first rest ih => simp [performAll, ih]

/-- **Some actions.** Every handler is told what the actions tell, one event after the other. -/
theorem performAll_after (actions : List Action) :
    (after handlers name context []).performAll actions =
      ((told name context actions).flatMap (announce handlers),
        after handlers name context actions) := by
  induction actions using List.reverseRecOn with
  | nil => rfl
  | append_singleton actions action ih =>
    rw [performAll_concat, ih, perform_after, told_concat, List.flatMap_append]

/-! ## Lifetimes -/

/-- A handler is told every event once. -/
theorem handlerLog_flatMap_announce (i : Fin handlers) (events : List Event) :
    handlerLog i (effects (events.flatMap (announce handlers))) = events := by
  induction events with
  | nil => rfl
  | cons e rest ih =>
    have hfirst : handlerLog i (effects (announce handlers e)) = [e] := by
      rw [handlerLog, effects, announce, List.filterMap_map, List.filterMap_map]
      exact filterMap_range_eq e i.isLt
    rw [List.flatMap_cons, effects, List.map_append, handlerLog_append]
    exact congrArg₂ (· ++ ·) hfirst ih

/-- What an action tells has the name of the observation and is not its start. -/
theorem of_mem_told {e : Event} {actions : List Action} (h : e ∈ told name context actions) :
    e.name = name ∧ e.stage ≠ .start := by
  obtain ⟨k, -, htells⟩ := List.mem_filterMap.1 h
  obtain ⟨action, -, htells⟩ := Option.bind_eq_some_iff.1 htells
  cases action with
  | stop =>
    obtain ⟨-, rfl⟩ : _ ∧ _ = e := by simpa [tells?] using htells
    exact ⟨rfl, nofun⟩
  | error =>
    cases htells
    exact ⟨rfl, nofun⟩
  | setResponse => cases htells

/-- Without a stop the actions go on into what comes after them. -/
theorem untilStop_append_of_not_mem {before : List Action} (h : .stop ∉ before)
    (rest : List Action) : untilStop (before ++ rest) = before ++ untilStop rest :=
  List.takeWhile_append_of_pos fun _ haction =>
    decide_eq_true fun heq => h (heq ▸ haction)

/-- Before the first stop there are all actions up to it. -/
theorem untilStop_append_stop {before : List Action} (h : .stop ∉ before) (rest : List Action) :
    untilStop (before ++ .stop :: rest) = before := by
  rw [untilStop_append_of_not_mem h]
  exact List.append_nil before

/-- Nothing that comes after the first stop matters. -/
theorem untilStop_append_of_mem {actions : List Action} (h : .stop ∈ actions)
    (more : List Action) : untilStop (actions ++ more) = untilStop actions := by
  obtain ⟨before, rest, rfl, hbefore⟩ := List.eq_append_cons_of_mem h
  rw [List.append_assoc, List.cons_append, untilStop_append_stop hbefore,
    untilStop_append_stop hbefore]

/-- To be dropped is to be stopped at the latest. -/
theorem untilStop_concat_stop (actions : List Action) :
    untilStop (actions ++ [.stop]) = untilStop actions := by
  by_cases hstopped : Action.stop ∈ actions
  · exact untilStop_append_of_mem hstopped _
  · have hall := untilStop_append_of_not_mem hstopped []
    rw [List.append_nil] at hall
    rw [untilStop_append_stop hstopped, hall]
    exact (List.append_nil actions).symm

/-- The first stop is told, with what is known then, and no later one is. -/
theorem filter_stop_told (actions : List Action) :
    (told name context actions).filter (·.stage = .stop) =
      if .stop ∈ actions then [⟨.stop, name, context.after (untilStop actions)⟩] else [] := by
  induction actions using List.reverseRecOn with
  | nil => rfl
  | append_singleton actions action ih =>
    rw [told_concat, List.filter_append, ih]
    by_cases hstopped : Action.stop ∈ actions
    · have hnone : (tells? name context actions action).toList.filter (·.stage = .stop) = [] := by
        cases action <;> simp [tells?, hstopped]
      rw [hnone, List.append_nil, untilStop_append_of_mem hstopped, if_pos hstopped,
        if_pos (List.mem_append_left _ hstopped)]
    · rw [if_neg hstopped, List.nil_append]
      cases action with
      | stop => simp [tells?, hstopped, untilStop_append_stop]
      | error e => simp [tells?, hstopped]
      | setResponse summary => simp [tells?, hstopped]

/-- The errors are told in the order in which they are reported. -/
theorem filterMap_error?_told (actions : List Action) :
    (told name context actions).filterMap Event.error? = actions.filterMap Action.error? := by
  induction actions using List.reverseRecOn with
  | nil => rfl
  | append_singleton actions action ih =>
    have haction : (tells? name context actions action).toList.filterMap Event.error? =
        [action].filterMap Action.error? := by
      cases action with
      | stop =>
        by_cases hstopped : Action.stop ∈ actions
        · rw [tells?, if_pos hstopped]
          rfl
        · rw [tells?, if_neg hstopped]
          rfl
      | error | setResponse => rfl
    rw [told_concat, List.filterMap_append, ih, haction, List.filterMap_append]

/-- A lifetime is the start, the actions and the drop, each told to all handlers. -/
theorem lifetime_eq (convention : Convention) (actions : List Action) :
    lifetime handlers convention context actions =
      (lifetimeLog (convention context) context actions).flatMap (announce handlers) := by
  have hrun := performAll_after handlers (convention context) context (actions ++ [.stop])
  show announce handlers _ ++ ((after handlers _ context []).performAll _).1 = _
  rw [hrun]
  rfl

/-- **The lifetime of an observation.** Whatever is done to an observation until it is dropped, each
event is told to all handlers in the order of their registration, and every handler is told the
same: first the start, and then what each action tells after those in front of it, the drop being a
stop at the end. So there is one start; one stop, which is that of the first action that stops or
else of the drop; and one error for each one reported, in their order. All events have the name made
up at the start, and what is known changes only by the last response given before the event. -/
theorem lifetime_told (convention : Convention) (actions : List Action) :
    lifetime handlers convention context actions =
        (lifetimeLog (convention context) context actions).flatMap (announce handlers) ∧
      (∀ i : Fin handlers,
        handlerLog i (effects (lifetime handlers convention context actions)) =
          lifetimeLog (convention context) context actions) ∧
      (lifetimeLog (convention context) context actions).filter (·.stage = .start) =
        [⟨.start, convention context, context⟩] ∧
      (lifetimeLog (convention context) context actions).filter (·.stage = .stop) =
        [⟨.stop, convention context, context.after (untilStop actions)⟩] ∧
      (lifetimeLog (convention context) context actions).filterMap Event.error? =
        actions.filterMap Action.error? ∧
      ∀ e ∈ lifetimeLog (convention context) context actions, e.name = convention context := by
  have hdrop : Action.stop ∈ actions ++ [.stop] := List.mem_append_right _ List.mem_cons_self
  -- Being dropped is one more stop at the end, so there is a first one.
  have hstops := filter_stop_told (convention context) context (actions ++ [.stop])
  rw [if_pos hdrop, untilStop_concat_stop] at hstops
  have htold : ∀ e ∈ told (convention context) context (actions ++ [.stop]),
      e.name = convention context ∧ e.stage ≠ .start := fun e he => of_mem_told _ _ he
  refine ⟨lifetime_eq handlers context convention actions, fun i => ?_, ?_, hstops, ?_, ?_⟩
  · rw [lifetime_eq, handlerLog_flatMap_announce]
  · have hnone : (told (convention context) context (actions ++ [.stop])).filter
        (·.stage = .start) = [] :=
      List.filter_eq_nil_iff.2 fun e he => by simpa using (htold e he).2
    simp [lifetimeLog, hnone]
  · show (told _ context (actions ++ [.stop])).filterMap Event.error? = _
    rw [filterMap_error?_told, List.filterMap_append]
    exact List.append_nil _
  · exact List.forall_mem_cons.2 ⟨rfl, fun e he => (htold e he).1⟩

/-- A stop in between is the only one, and an error after it is still told. -/
example (name : String) (context : Context) (summary : ResponseSummary) (e : Error) :
    lifetimeLog name context [.error e, .setResponse summary, .stop, .error e] =
      [⟨.start, name, context⟩, ⟨.error e, name, context⟩,
        ⟨.stop, name, { context with response := some summary }⟩,
        ⟨.error e, name, { context with response := some summary }⟩] := rfl

end Observation

end ModelClient
