import ModelClient.ChatModel.Stream

/-!
# How often a run does something

`Run.Bounded p I n Q x` says of a run `x`, started in any state of the invariant `I`, that it leaves
at most `n` effects of the kind `p`, keeps the invariant, and has a value in `Q` if it has one. One
run after another adds the bounds (`Run.Bounded.bind`), and a run that stops early leaves no more
than the one that goes on. A bound of zero says that something never happens.

Observing a run only adds reports, so a bound on what reaches the service or the tools passes
through unchanged (`Run.Bounded.observe`, `Run.Bounded.watch`), and repeating an attempt multiplies
the bound by the number of attempts (`Run.Bounded.execute`).
-/

namespace ModelClient

variable {σ α β : Type} {p : Effect → Bool} {I : σ → Prop} {Q : α → Prop} {R : β → Prop} {n k : Nat}

/-- At most `n` effects in `p`, a state in `I`, and a value in `Q` if there is one. -/
structure Outcome.Within (p : Effect → Bool) (I : σ → Prop) (n : Nat) (Q : α → Prop)
    (o : Outcome σ α) : Prop where
  count : o.effects.countP p ≤ n
  state : I o.state
  value : ∀ a, o.value = .ok a → Q a

namespace Run

/-- From every state in `I`, the run leaves at most `n` effects in `p` and a state in `I`, and its
value is in `Q`. -/
def Bounded (p : Effect → Bool) (I : σ → Prop) (n : Nat) (Q : α → Prop) (x : Run σ α) : Prop :=
  ∀ s, I s → (x s).Within p I n Q

namespace Bounded

/-- A bound may be raised, and what holds of the value weakened. -/
theorem mono {x : Run σ α} (h : Bounded p I n Q x) (hn : n ≤ k) {Q' : α → Prop}
    (hQ : ∀ a, Q a → Q' a) : Bounded p I k Q' x := by
  intro s hs
  obtain ⟨hcount, hstate, hvalue⟩ := h s hs
  exact ⟨Nat.le_trans hcount hn, hstate, fun a ha => hQ a (hvalue a ha)⟩

/-- A bound of zero says that no effect is in `p`. -/
theorem eq_false {x : Run σ α} (h : Bounded p I 0 Q x) {s : σ} (hs : I s) :
    ∀ e ∈ (x s).effects, p e = false := by
  intro e he
  have hnone := List.countP_eq_zero.1 (Nat.le_zero.1 (h s hs).count) e he
  rwa [Bool.not_eq_true] at hnone

/-- A run that does nothing in `p` is within every bound. -/
theorem of_quiet {x : Run σ α} (h : Bounded p I 0 Q x) : Bounded p I n Q x :=
  h.mono (Nat.zero_le n) fun _ ha => ha

/-- Giving a value leaves no effects. -/
theorem pure {a : α} (h : Q a) : Bounded p I 0 Q (Pure.pure a : Run σ α) := by
  intro s hs
  refine ⟨Nat.le_refl 0, hs, fun b hb => ?_⟩
  cases hb
  exact h

/-- Failing leaves no effects, and there is no value. -/
theorem fail (e : Error) : Bounded p I 0 Q (Run.fail e : Run σ α) :=
  fun _ hs => ⟨Nat.le_refl 0, hs, nofun⟩

/-- Stopping leaves no effects, and there is no value. -/
theorem halt (h : Halt) : Bounded p I 0 Q (Run.halt h : Run σ α) :=
  fun _ hs => ⟨Nat.le_refl 0, hs, nofun⟩

/-- Leaving effects is bounded by how many of them count. -/
theorem emitAll (es : List Effect) (h : es.countP p ≤ n) :
    Bounded p I n (fun _ => True) (Run.emitAll es : Run σ Unit) :=
  fun _ hs => ⟨h, hs, fun _ _ => trivial⟩

/-- An effect is bounded by whether it counts. -/
theorem emit (e : Effect) (h : [e].countP p ≤ n) :
    Bounded p I n (fun _ => True) (Run.emit e : Run σ Unit) :=
  emitAll [e] h

/-- A value or an error that is there already leaves no effects. -/
theorem ofExcept {x : Except Error α} (h : ∀ a, x = .ok a → Q a) :
    Bounded p I 0 Q (Run.ofExcept x : Run σ α) := by
  cases x with
  | ok a => exact pure (h a rfl)
  | error e => exact fail e

/-- One run after another: the bounds add up, and stopping early is within them. -/
theorem bind {x : Run σ α} {f : α → Run σ β} (hx : Bounded p I n Q x)
    (hf : ∀ a, Q a → Bounded p I k R (f a)) : Bounded p I (n + k) R (x >>= f) := by
  intro s hs
  have hfirst := hx s hs
  show (Run.bind x f s).Within p I (n + k) R
  unfold Run.bind
  generalize x s = o at hfirst ⊢
  rcases o with ⟨effects, t, stop | a⟩
  -- The first run stops early, so the second one leaves nothing.
  · exact ⟨Nat.le_trans hfirst.count (Nat.le_add_right n k), hfirst.state, nofun⟩
  · have hrest := hf a (hfirst.value a rfl) t hfirst.state
    refine ⟨?_, hrest.state, hrest.value⟩
    rw [List.countP_append]
    exact Nat.add_le_add hfirst.count hrest.count

/-- A run that does nothing in `p` and then another. -/
theorem quiet_bind {x : Run σ α} {f : α → Run σ β} (hx : Bounded p I 0 Q x)
    (hf : ∀ a, Q a → Bounded p I k R (f a)) : Bounded p I k R (x >>= f) := by
  have h := bind hx hf
  rwa [Nat.zero_add] at h

/-- A failure as a value leaves the same effects. -/
theorem attempt {x : Run σ α} (h : Bounded p I n Q x) :
    Bounded p I n (fun r => ∀ a, r = .ok a → Q a) x.attempt := by
  intro s hs
  have hx := h s hs
  unfold Run.attempt
  generalize x s = o at hx ⊢
  -- Only an error becomes a value: a run that was halted stays so.
  rcases o with ⟨effects, t, (e | e) | a⟩
  · exact ⟨hx.count, hx.state, fun r hr => by cases hr; nofun⟩
  · exact ⟨hx.count, hx.state, nofun⟩
  · refine ⟨hx.count, hx.state, fun r hr b hb => ?_⟩
    cases hr
    cases hb
    exact hx.value a rfl

end Bounded

end Run

/-! ## Runs with a known outcome -/

namespace Run

variable {x : Run σ α} {s t : σ} {es : List Effect} {a : α}

/-- If the first run has a value, the second one goes on with it. -/
theorem bind_of_ok (h : x s = ⟨es, t, .ok a⟩) (f : α → Run σ β) :
    (x >>= f) s = ⟨es ++ (f a t).effects, (f a t).state, (f a t).value⟩ := by
  show Run.bind x f s = _
  unfold Run.bind
  rw [h]

/-- A run and what follows it, both with known outcomes. -/
theorem bind_eq_of_ok {f : α → Run σ β} {u : σ} {fs : List Effect} {b : Except Stop β}
    (h : x s = ⟨es, t, .ok a⟩) (hf : f a t = ⟨fs, u, b⟩) : (x >>= f) s = ⟨es ++ fs, u, b⟩ := by
  rw [bind_of_ok h, hf]

/-- A result that is already known leads to what follows it. -/
theorem ofExcept_ok_bind (a : α) (f : α → Run σ β) (s : σ) :
    ((ofExcept (.ok a) : Run σ α) >>= f) s = f a s :=
  rfl

/-- One effect and what follows it. -/
theorem emit_bind (e : Effect) (f : Unit → Run σ β) (s : σ) :
    ((emit e : Run σ Unit) >>= f) s =
      ⟨e :: (f () s).effects, (f () s).state, (f () s).value⟩ :=
  rfl

/-- A run that stops early has nothing follow it. -/
theorem bind_of_error {stop : Stop} (h : x s = ⟨es, t, .error stop⟩) (f : α → Run σ β) :
    (x >>= f) s = ⟨es, t, .error stop⟩ := by
  show Run.bind x f s = _
  unfold Run.bind
  rw [h]

/-- What is attempted is done. -/
theorem effects_attempt (x : Run σ α) (s : σ) : (x.attempt s).effects = (x s).effects := by
  unfold Run.attempt
  rcases x s with ⟨effects, t, (e | halt) | a⟩ <;> rfl

/-- An attempt that succeeds gives its value. -/
theorem attempt_of_ok (h : x s = ⟨es, t, .ok a⟩) : x.attempt s = ⟨es, t, .ok (.ok a)⟩ := by
  unfold Run.attempt
  rw [h]

/-- An attempt that fails gives its error as a value, so the run goes on. -/
theorem attempt_of_error {e : Error} (h : x s = ⟨es, t, .error (.error e)⟩) :
    x.attempt s = ⟨es, t, .ok (.error e)⟩ := by
  unfold Run.attempt
  rw [h]

/-- A run that was halted stays so. -/
theorem attempt_of_halt {halt : Halt} (h : x s = ⟨es, t, .error (.halt halt)⟩) :
    x.attempt s = ⟨es, t, .error (.halt halt)⟩ := by
  unfold Run.attempt
  rw [h]

/-- What comes after a run only adds effects behind those of the run. -/
theorem exists_effects_bind (x : Run σ α) (f : α → Run σ β) (s : σ) :
    ∃ fs, ((x >>= f) s).effects = (x s).effects ++ fs := by
  show ∃ fs, (Run.bind x f s).effects = (x s).effects ++ fs
  unfold Run.bind
  rcases x s with ⟨effects, t, stop | a⟩
  · exact ⟨[], (List.append_nil effects).symm⟩
  · exact ⟨(f a t).effects, rfl⟩

/-- Doing something with the value does nothing to the outside. -/
theorem effects_bind_pure (x : Run σ α) (f : α → β) (s : σ) :
    ((x >>= fun a => Pure.pure (f a)) s).effects = (x s).effects := by
  show (Run.bind x _ s).effects = (x s).effects
  unfold Run.bind
  rcases x s with ⟨effects, t, stop | a⟩
  · rfl
  · exact List.append_nil effects

/-- What the first run does stays done, whatever comes after it. -/
theorem mem_bind_of_mem {e : Effect} (h : e ∈ (x s).effects) (f : α → Run σ β) :
    e ∈ ((x >>= f) s).effects := by
  obtain ⟨fs, hfs⟩ := exists_effects_bind x f s
  rw [hfs]
  exact List.mem_append_left fs h

end Run

/-- A policy with attempts has a first one. -/
theorem RetryPolicy.exists_maxAttempts_eq_add_one (policy : RetryPolicy)
    (hattempts : policy.maxAttempts ≠ 0) : ∃ left, policy.maxAttempts.toNat = left + 1 :=
  Nat.exists_eq_add_one_of_ne_zero fun hzero => hattempts (UInt32.toNat_inj.1 hzero)

/-- An attempt that succeeds at once is not repeated. -/
theorem RetryPolicy.execute_of_ok {x : Run σ α} {s t : σ} {es : List Effect} {a : α}
    (policy : RetryPolicy) (hattempts : policy.maxAttempts ≠ 0) (h : x s = ⟨es, t, .ok a⟩) :
    ∃ told, policy.execute x s = ⟨es ++ (List.range policy.listeners).map told, t, .ok a⟩ := by
  obtain ⟨left, hleft⟩ := policy.exists_maxAttempts_eq_add_one hattempts
  refine ⟨fun i => .retried i (.succeeded 0), ?_⟩
  unfold execute
  rw [hleft, executeFrom, Run.bind_of_ok (Run.attempt_of_ok h)]
  show (⟨es ++ (_ ++ []), t, .ok a⟩ : Outcome σ α) = _
  rw [List.append_nil]

/-- An observed run with a value has this value, after more effects. -/
theorem observe_of_ok {x : Run σ α} {s t : σ} {es : List Effect} {a : α} (observer : Observer)
    (context : Observation.Context) (summarize : α → ResponseSummary) (h : x s = ⟨es, t, .ok a⟩) :
    ∃ fs, observe observer context summarize x s = ⟨fs, t, .ok a⟩ := by
  refine ⟨(observe observer context summarize x s).effects, ?_⟩
  simp only [observe, h]

/-- Without attempts an execution fails at once. -/
theorem RetryPolicy.execute_of_zero {policy : RetryPolicy} (h : policy.maxAttempts = 0)
    (x : Run σ α) : policy.execute x = .fail .zeroAttempts := by
  rw [execute, h]
  rfl

/-! ## What remains of an observed run without the reports -/

section

variable {γ : Type} {f : Effect → Option γ} (hf : ∀ notice, f (.observed notice) = none)

include hf

/-- Notices go unseen. -/
theorem filterMap_observed (notices : List Observation.Notice) :
    (Observation.effects notices).filterMap f = [] := by
  refine List.filterMap_eq_nil_iff.2 fun e he => ?_
  obtain ⟨notice, -, rfl⟩ := List.mem_map.1 he
  exact hf notice

/-- What a watch adds to an effect that passes goes unseen. -/
theorem Watch.filterMap_pass (w : Watch) (e : Effect) :
    (w.pass e).1.filterMap f = [e].filterMap f := by
  cases e with
  | yielded item =>
    cases item with
    | ok part => rfl
    -- An error is reported to the observer before it is passed on.
    | error err =>
      simp only [pass]
      rw [List.filterMap_append, filterMap_observed hf, List.nil_append]
  | _ => rfl

/-- An observation adds only reports and takes no effect away. -/
theorem Watch.filterMap_passAll (es : List Effect) (w : Watch) :
    (w.passAll es).1.filterMap f = es.filterMap f := by
  induction es generalizing w with
  | nil => rfl
  | cons e rest ih =>
    simp only [passAll]
    rw [List.filterMap_append, filterMap_pass hf, ih, ← List.filterMap_append,
      List.singleton_append]

/-- Watching a round changes nothing but the reports. -/
theorem filterMap_watch (observer : Observer) (context : Observation.Context)
    (round : Run Session Unit) (s : Session) :
    (watch observer context round s).effects.filterMap f = (round s).effects.filterMap f := by
  simp only [watch, List.filterMap_append, filterMap_observed hf, Watch.filterMap_passAll hf,
    List.nil_append, List.append_nil]

/-- Observing a run changes nothing but the reports. -/
theorem filterMap_observe (observer : Observer) (context : Observation.Context)
    (summarize : α → ResponseSummary) (x : Run σ α) (s : σ) :
    (observe observer context summarize x s).effects.filterMap f = (x s).effects.filterMap f := by
  simp only [observe, List.filterMap_append, filterMap_observed hf, List.nil_append,
    List.append_nil]

end

/-- An observation leaves the effects of a kind that no report is of as they are. -/
theorem filter_watch (hp : ∀ notice, p (.observed notice) = false) (observer : Observer)
    (context : Observation.Context) (round : Run Session Unit) (s : Session) :
    (watch observer context round s).effects.filter p = (round s).effects.filter p := by
  have hguard : ∀ notice, Option.guard p (.observed notice) = none := fun notice => by
    simp [Option.guard, hp notice]
  have hwatch := filterMap_watch hguard observer context round s
  rwa [List.filterMap_eq_filter] at hwatch

/-! ## Reports -/

/-- Whether the effect only tells someone about the run or lets time pass. -/
def Effect.isReport : Effect → Bool
  | .observed _ | .retried _ _ | .paused _ => true
  | _ => false

/-- No report is in `p`. -/
def Unreported (p : Effect → Bool) : Prop := ∀ e : Effect, e.isReport = true → p e = false

/-- What a retry policy does between two attempts is not in `p`. -/
structure Unretried (p : Effect → Bool) : Prop where
  retried : ∀ listener notice, p (.retried listener notice) = false
  paused : ∀ pause, p (.paused pause) = false

/-- What a retry policy does between two attempts is a report. -/
theorem Unreported.unretried (hp : Unreported p) : Unretried p :=
  ⟨fun _ _ => hp _ rfl, fun _ => hp _ rfl⟩

/-- Effects of a kind are counted by listing them. -/
theorem countP_eq_length_filterMap (p : Effect → Bool) (es : List Effect) :
    es.countP p = (es.filterMap (Option.guard p)).length := by
  rw [List.countP_eq_length_filter, List.filterMap_eq_filter]

namespace Unreported

/-- A notice is not listed. -/
theorem guard_observed (hp : Unreported p) (notice : Observation.Notice) :
    Option.guard p (.observed notice) = none := by
  simp [Option.guard, hp (.observed notice) rfl]

/-- Watching a round does not change how often it does something else than report. -/
theorem countP_watch (hp : Unreported p) (observer : Observer) (context : Observation.Context)
    (round : Run Session Unit) (s : Session) :
    (watch observer context round s).effects.countP p = (round s).effects.countP p := by
  rw [countP_eq_length_filterMap, filterMap_watch hp.guard_observed, countP_eq_length_filterMap]

/-- Observing a run does not change how often it does something else than report. -/
theorem countP_observe (hp : Unreported p) (observer : Observer) (context : Observation.Context)
    (summarize : α → ResponseSummary) (x : Run σ α) (s : σ) :
    (observe observer context summarize x s).effects.countP p = (x s).effects.countP p := by
  rw [countP_eq_length_filterMap, filterMap_observe hp.guard_observed, countP_eq_length_filterMap]

end Unreported

/-! ## Effects that reach the service or the tools -/

/-- Whether the effect is a request or part of answering tool calls. -/
def Effect.isAction : Effect → Bool
  | .sent _ | .delegated _ | .ran _ _ => true
  | _ => false

/-- The effects in `p` are all requests or part of answering tool calls. -/
def ActionKind (p : Effect → Bool) : Prop := ∀ e, p e = true → e.isAction = true

namespace ActionKind

/-- What is no action is not of the kind. -/
theorem eq_false (hp : ActionKind p) {e : Effect} (he : e.isAction = false) : p e = false := by
  refine Bool.eq_false_iff.2 fun h => ?_
  rw [hp e h] at he
  cases he

/-- A report is no action. -/
theorem unreported (hp : ActionKind p) : Unreported p := by
  intro e he
  refine hp.eq_false ?_
  cases e <;> first | rfl | cases he

end ActionKind

/-- Whether the effect is part of answering tool calls. -/
def Effect.concernsTools : Effect → Bool
  | .delegated _ | .ran _ _ => true
  | _ => false

/-- The effects in `p` are all part of answering tool calls. -/
def ToolKind (p : Effect → Bool) : Prop := ∀ e, p e = true → e.concernsTools = true

namespace ToolKind

/-- What concerns tools is an action. -/
theorem actionKind (hp : ToolKind p) : ActionKind p := by
  intro e he
  have h := hp e he
  cases e <;> first | rfl | cases h

/-- A request does not concern tools. -/
theorem countP_sent (hp : ToolKind p) (request : Request) : [Effect.sent request].countP p = 0 := by
  rw [List.countP_eq_zero]
  intro e he h
  rw [List.mem_singleton.1 he] at h
  cases hp _ h

end ToolKind

/-- Observing a round of a stream changes neither its end nor what it does in `p`. -/
theorem watch_of_ok (hp : Unreported p) (observer : Observer) (context : Observation.Context)
    {round : Run Session Unit} {s t : Session} {es : List Effect} {u : Unit}
    (h : round s = ⟨es, t, .ok u⟩) :
    ∃ fs, watch observer context round s = ⟨fs, t, .ok u⟩ ∧ fs.countP p = es.countP p := by
  refine ⟨(watch observer context round s).effects, ?_, ?_⟩
  · simp only [watch, h]
  · rw [hp.countP_watch, h]

namespace Run.Bounded

/-- Telling the listeners does not count. -/
theorem notify (hp : Unretried p) (policy : RetryPolicy) (notice : RetryNotice) :
    Bounded p I 0 (fun _ => True) (policy.notify notice : Run σ Unit) := by
  refine emitAll _ (Nat.le_of_eq (List.countP_eq_zero.2 fun e he => ?_))
  obtain ⟨i, -, rfl⟩ := List.mem_map.1 he
  simp [hp.retried]

/-- The attempts that are left multiply the bound of one attempt. -/
theorem executeFrom (hp : Unretried p) (policy : RetryPolicy) {x : Run σ α}
    (h : Bounded p I n Q x) (left failed backoff : Nat) :
    Bounded p I (left * n) Q (policy.executeFrom x left failed backoff) := by
  induction left generalizing failed backoff with
  | zero => exact of_quiet (fail _)
  | succ left ih =>
    unfold RetryPolicy.executeFrom
    rw [Nat.succ_mul, Nat.add_comm]
    -- One attempt, and then either nothing in `p` or the attempts that are left.
    refine bind h.attempt fun r hr => ?_
    cases r with
    | ok a => exact of_quiet (quiet_bind (notify hp policy _) fun _ _ => pure (hr a rfl))
    | error e =>
      simp only
      split
      · exact of_quiet (fail e)
      · refine quiet_bind (notify hp policy _) fun _ _ => ?_
        have hpause : [Effect.paused (.after backoff e)].countP p = 0 := by
          simp [hp.paused]
        refine quiet_bind (emit _ (Nat.le_of_eq hpause)) fun _ _ => ?_
        split
        · exact of_quiet (halt _)
        · exact ih _ _

/-- Repeating an attempt costs at most as many times as there are attempts. -/
theorem execute_of_unretried (hp : Unretried p) (policy : RetryPolicy) {x : Run σ α}
    (h : Bounded p I n Q x) :
    Bounded p I (policy.maxAttempts.toNat * n) Q (policy.execute x) :=
  executeFrom hp policy h _ _ _

/-- An execution multiplies the bound of one attempt by the number of attempts. -/
theorem execute (hp : Unreported p) (policy : RetryPolicy) {x : Run σ α}
    (h : Bounded p I n Q x) :
    Bounded p I (policy.maxAttempts.toNat * n) Q (policy.execute x) :=
  execute_of_unretried hp.unretried policy h

/-- Repeating an attempt that does nothing in `p` does nothing in `p`. -/
theorem execute_quiet (hp : Unreported p) (policy : RetryPolicy) {x : Run σ α}
    (h : Bounded p I 0 Q x) : Bounded p I 0 Q (policy.execute x) :=
  execute hp policy h

/-- Observing a run keeps its bound. -/
theorem observe (hp : Unreported p) (observer : Observer) (context : Observation.Context)
    (summarize : α → ResponseSummary) {x : Run σ α} (h : Bounded p I n Q x) :
    Bounded p I n Q (ModelClient.observe observer context summarize x) := by
  intro s hs
  obtain ⟨hcount, hstate, hvalue⟩ := h s hs
  exact ⟨hp.countP_observe observer context summarize x s ▸ hcount, hstate, hvalue⟩

/-- Observing a round of a stream keeps its bound. -/
theorem watch (hp : Unreported p) (observer : Observer) (context : Observation.Context)
    {I : Session → Prop} {Q : Unit → Prop} {x : Run Session Unit} (h : Bounded p I n Q x) :
    Bounded p I n Q (ModelClient.watch observer context x) := by
  intro s hs
  obtain ⟨hcount, hstate, hvalue⟩ := h s hs
  exact ⟨hp.countP_watch observer context x s ▸ hcount, hstate, hvalue⟩

end Run.Bounded

/-! ## The requests of a run -/

/-- The request that the effect sends, if it is one. -/
def Effect.request? : Effect → Option Request
  | .sent request => some request
  | _ => none

/-- A client at the service's own address, without a key. -/
def Client.keyless : Client := { baseUrl := defaultBaseUrl, apiKey := "" }

/-- The requests that some effects send, in order. -/
def sentRequests (effects : List Effect) : List Request := effects.filterMap Effect.request?

/-- The requests of two parts are those of the first and then those of the second. -/
theorem sentRequests_append (es fs : List Effect) :
    sentRequests (es ++ fs) = sentRequests es ++ sentRequests fs :=
  List.filterMap_append

/-- An observed run sends what it sends unobserved. -/
theorem sentRequests_observe (observer : Observer) (context : Observation.Context)
    (summarize : α → ResponseSummary) (x : Run σ α) (s : σ) :
    sentRequests (observe observer context summarize x s).effects = sentRequests (x s).effects :=
  filterMap_observe (fun _ => rfl) observer context summarize x s

/-- An observed round of a stream sends what it sends unobserved. -/
theorem sentRequests_watch (observer : Observer) (context : Observation.Context)
    (round : Run Session Unit) (s : Session) :
    sentRequests (watch observer context round s).effects = sentRequests (round s).effects :=
  filterMap_watch (fun _ => rfl) observer context round s

/-- The requests of a run are those among its effects. -/
theorem mem_sentRequests {request : Request} {es : List Effect} :
    request ∈ sentRequests es ↔ .sent request ∈ es := by
  rw [sentRequests, List.mem_filterMap]
  constructor
  · rintro ⟨e, he, heq⟩
    cases e <;> cases heq
    exact he
  · exact fun h => ⟨_, h, rfl⟩

/-- A run and what follows it only have a value if the run has one. -/
theorem Run.exists_of_bind_value {x : Run σ α} {f : α → Run σ β} {s : σ} {b : β}
    (h : ((x >>= f) s).value = .ok b) : ∃ a t, (f a t).value = .ok b := by
  change (Run.bind x f s).value = .ok b at h
  unfold Run.bind at h
  generalize x s = o at h
  rcases o with ⟨effects, t, stop | a⟩
  · cases h
  · exact ⟨a, t, h⟩

/-! ## Sessions whose answers are known -/

namespace Session

/-- The answers that the service has for the requests to come. -/
def answers (s : Session) : List Answer :=
  match s.service with
  | .unreachable => []
  | .script answers => answers

/-- Every answer of the service's script is in `P`. -/
def Answers (P : Answer → Prop) (s : Session) : Prop := ∀ a ∈ s.answers, P a

end Session

/-- Holds of the answers that a service gives without a script for them. -/
structure Answer.Unscripted (P : Answer → Prop) : Prop where
  drop : P .drop
  failure : P (.reply 500 [] false)

/-- The next answer is one of the script's, or a failure of the server when the script is empty. -/
theorem Service.next_mem (answers : List Answer) :
    (Service.next answers).1 = .reply 500 [] false ∨ (Service.next answers).1 ∈ answers := by
  match answers with
  | [] => exact .inl rfl
  | [last] => exact .inr List.mem_cons_self
  | answer :: second :: rest => exact .inr List.mem_cons_self

/-- No answers are added on the way. -/
theorem Service.next_subset (answers : List Answer) : (Service.next answers).2 ⊆ answers := by
  match answers with
  | [] => exact List.Subset.refl []
  | [last] => exact List.Subset.refl [last]
  | answer :: second :: rest => exact List.subset_cons_self answer (second :: rest)

/-- A request is answered with the next answer. -/
theorem Session.send_of_next {s : Session} {answers rest : List Answer} {a : Answer}
    (hs : s.service = .script answers) (hnext : Service.next answers = (a, rest))
    (request : Request) :
    Session.send request s = ⟨[.sent request], { s with service := .script rest }, .ok a⟩ := by
  simp only [send, hs, hnext]

/-- A chat request as the service receives it. -/
def Client.chatRequest (c : Client) (request : Wire.ChatRequest) : Request :=
  { url := endpoint c.baseUrl chatPath
    contentType
    authorization := authorization? c.apiKey
    body := request.toJson }

/-- An answer that can be read is what a request gives. -/
theorem Client.request_of_readBody {s : Session} {answers rest : List Answer} {status : Nat}
    {pieces : List (List UInt8)} {breaksOff : Bool} (hs : s.service = .script answers)
    (hnext : Service.next answers = (.reply status pieces breaksOff, rest))
    {decode : Json.Decoder α} {value : Option α}
    (hread : readBody decode status pieces breaksOff = .ok value) (c : Client) (path : String)
    (body : Json) :
    ∃ sent, c.request path body decode s =
      ⟨[.sent sent], { s with service := .script rest }, .ok value⟩ := by
  obtain ⟨sent, hpost⟩ : ∃ sent, c.post path body s =
      ⟨[.sent sent], { s with service := .script rest }, .ok (.reply status pieces breaksOff)⟩ :=
    ⟨_, Session.send_of_next hs hnext _⟩
  refine ⟨sent, ?_⟩
  rw [request, Run.bind_of_ok hpost]
  simp only [hread]
  rfl

/-- A completion that can be read is what asking for a whole one gives. -/
theorem Client.complete_of_readBody {s : Session} {answers rest : List Answer} {status : Nat}
    {pieces : List (List UInt8)} {breaksOff : Bool} (hs : s.service = .script answers)
    (hnext : Service.next answers = (.reply status pieces breaksOff, rest))
    {value : Option Wire.Completion}
    (hread : readBody Wire.Completion.decode status pieces breaksOff = .ok value) (c : Client)
    {request : Wire.ChatRequest} (hrequest : request.stream = false) :
    ∃ sent, c.complete request s =
      ⟨[.sent sent], { s with service := .script rest }, .ok value⟩ := by
  rw [complete, hrequest, if_neg Bool.false_ne_true]
  exact request_of_readBody hs hnext hread c _ _

/-- The chunks of a successful reply are what asking for a stream gives. -/
theorem Client.stream_of_reply {s : Session} {answers rest : List Answer} {status : Nat}
    {pieces : List (List UInt8)} {breaksOff : Bool} (hs : s.service = .script answers)
    (hnext : Service.next answers = (.reply status pieces breaksOff, rest))
    (hstatus : isSuccess status = true) (c : Client) {request : Wire.ChatRequest}
    (hrequest : request.stream = true) :
    ∃ sent, c.stream request s =
      ⟨[.sent sent], { s with service := .script rest }, .ok (chunks pieces breaksOff)⟩ := by
  obtain ⟨sent, hpost⟩ : ∃ sent, c.post chatPath request.toJson s =
      ⟨[.sent sent], { s with service := .script rest }, .ok (.reply status pieces breaksOff)⟩ :=
    ⟨_, Session.send_of_next hs hnext _⟩
  refine ⟨sent, ?_⟩
  rw [stream, hrequest, if_neg (by decide), Run.bind_of_ok hpost]
  simp only [hstatus, if_true]
  rfl

namespace Run.Bounded

variable {P : Answer → Prop}

/-- An answer is one of the script, or one that needs none. -/
theorem send (hP : Answer.Unscripted P) {request : Request}
    (hsent : [Effect.sent request].countP p ≤ n) :
    Bounded p (Session.Answers P) n P (Session.send request) := by
  rintro ⟨service, demand, leaves⟩ hs
  cases service with
  | unreachable =>
    refine ⟨Nat.zero_le n, hs, fun a ha => ?_⟩
    cases ha
    exact hP.drop
  | script answers =>
    refine ⟨hsent, fun a ha => hs a (Service.next_subset answers ha), fun a ha => ?_⟩
    cases ha
    show P (Service.next answers).1
    rcases Service.next_mem answers with h | h
    · rw [h]
      exact hP.failure
    · exact hs _ h

/-- Handing an item to the consumer is no action. -/
theorem yield (hp : ActionKind p) (item : Except Error ChatResponse) :
    Bounded p (Session.Answers P) 0 (fun _ => True) (Session.yield item) :=
  fun _ hs => ⟨Nat.le_of_eq (by simp [Session.yield, hp.eq_false (e := .yielded item) rfl]), hs,
    fun _ _ => trivial⟩

/-- Asking for a whole completion sends one request at most. -/
theorem complete (hP : Answer.Unscripted P) {c : Client} {request : Wire.ChatRequest}
    (hsent : [Effect.sent (c.chatRequest request)].countP p ≤ n) :
    Bounded p (Session.Answers P) n (fun _ => True) (c.complete request) := by
  unfold Client.complete
  split
  · exact of_quiet (fail _)
  · refine bind (k := 0) (send hP hsent) fun answer _ => ?_
    cases answer with
    | reply status pieces breaksOff => exact ofExcept fun _ _ => trivial
    | drop => exact fail _
    | hang => exact fail _

/-- The chunks of a streamed answer are those of a successful reply. -/
theorem stream (hP : Answer.Unscripted P) {c : Client} {request : Wire.ChatRequest}
    (hsent : [Effect.sent (c.chatRequest request)].countP p ≤ n) :
    Bounded p (Session.Answers P) n
      (fun chunks => ∃ status pieces breaksOff, P (.reply status pieces breaksOff) ∧
        Client.isSuccess status = true ∧ chunks = Client.chunks pieces breaksOff)
      (c.stream request) := by
  unfold Client.stream
  split
  · exact of_quiet (fail _)
  · refine bind (k := 0) (send hP hsent) fun answer hanswer => ?_
    cases answer with
    | reply status pieces breaksOff =>
      simp only
      split
      · next h => exact pure ⟨status, pieces, breaksOff, hanswer, h, rfl⟩
      · exact fail _
    | drop => exact fail _
    | hang => exact halt _

end Run.Bounded

end ModelClient
