import Mathlib.Algebra.Order.Ring.Rat
import Mathlib.Data.Nat.Cast.Order.Ring
import Mathlib.Data.Nat.Find
import ModelClient.Proofs.HandlerLogs

/-!
# Repeated attempts

What a retry policy does with an operation, for every sequence of outcomes that its attempts may
have. The attempts go on until one is final, because it succeeds or fails for good, or until there
are no more (`RetryPolicy.Makes`). Everything that happens is one list of effects: what each attempt
does, and between two attempts a notice to each listener and then a pause.

The recursion of the policy counts two ways: it has so many attempts left, and so many have failed.
`RetryPolicy.executeFrom_repeated` is stated for the attempts after any number of failures, with the
waits of the policy as a sequence (`RetryPolicy.waits`), so that the induction is on the attempts
that are repeated. A factor that is not below zero makes no wait negative, so the sequence does not
end.

## Main statements

* `RetryPolicy.execute_repeats`: the attempts, the result, what listeners are told and the pauses.
-/

namespace ModelClient

variable {σ α : Type}

/-! ## Outcomes -/

/-- The attempt need not be repeated: it succeeds, or fails for good. -/
def isFinal : Except Error α → Bool
  | .ok _ => true
  | .error e => !e.isRetryable

/-- Every attempt goes on from the state that the one before it has left, does some work and has an
outcome. -/
def Run.Goes (x : Run σ α) (states : Nat → σ) (work : Nat → List Effect)
    (outcomes : Nat → Except Error α) : Prop :=
  ∀ n, x (states n) = ⟨work n, states (n + 1), (outcomes n).mapError .error⟩

/-- An operation of which only the outcomes are known. -/
def Run.ofOutcomes (outcomes : Nat → Except Error α) : Run Nat α :=
  fun n => ⟨[], n + 1, (outcomes n).mapError .error⟩

/-- Every sequence of outcomes is that of an operation. -/
theorem Run.goes_ofOutcomes (outcomes : Nat → Except Error α) :
    (Run.ofOutcomes outcomes).Goes id (fun _ => []) outcomes := fun _ => rfl

/-! ## Waits -/

/-- The number is less than zero. -/
def Binary64.isBelowZero (x : Binary64) : Bool := !x.isNaN && x.negative && x.pattern != 0

/-- Zero with a minus is zero. -/
theorem Binary64.magnitude_of_pattern_eq_zero {x : Binary64} (h : x.pattern = 0) :
    x.isFinite = true ∧ x.magnitude.1 = 0 := by
  rw [isFinite, magnitude, h]
  exact ⟨by decide, by decide⟩

/-- No wait, or a factor that is zero, gives a product that is nothing. -/
theorem RetryPolicy.isNegligible_of_mul_eq_zero {backoff : Nat} {factor : Binary64}
    (h : (seconds backoff).magnitude.1 = 0 ∨ factor.magnitude.1 = 0) :
    isNegligible backoff factor = true := by
  have hproduct : (seconds backoff).magnitude.1 * factor.magnitude.1 = 0 := Nat.mul_eq_zero.2 h
  rw [isNegligible, Binary64.mul]
  simp only [hproduct, Binary64.ofFraction, Binary.Format.round, true_or, if_true]
  cases ((seconds backoff).negative != factor.negative) <;> decide

/-- A factor that is not below zero makes no wait negative. -/
theorem RetryPolicy.isSome_nextBackoff? {p : RetryPolicy} (h : p.multiplier.isBelowZero = false)
    (backoff : Nat) : (p.nextBackoff? backoff).isSome := by
  rw [nextBackoff?]
  by_cases hnan : p.multiplier.isNaN = true
  · simp [hnan]
  by_cases hnegative : p.multiplier.negative = true
  · have hzero : p.multiplier.pattern = 0 := by
      simpa [Binary64.isBelowZero, hnan, hnegative] using h
    obtain ⟨hfinite, hmagnitude⟩ := Binary64.magnitude_of_pattern_eq_zero hzero
    have hnegligible : isNegligible backoff p.multiplier = true :=
      isNegligible_of_mul_eq_zero (.inr hmagnitude)
    simp [hnan, hnegative, hfinite, hnegligible]
  · simp only [hnan, hnegative]
    split
    · rfl
    split
    · rfl
    simp only [Bool.false_eq_true, if_false]
    split <;> rfl

namespace Pause

/-- The longest wait there is, in nanoseconds. -/
def longest : Nat := longestWait * RetryPolicy.millisecond

/-- A wait is cut off at the longest there is. -/
theorem length_eq (p : Pause) (jitter : Rat) :
    p.length jitter = min (max (p.atLeast : Rat) (p.backoff * jitter)) longest := by
  have hmax : max (p.atLeast : Rat) (p.backoff * jitter) =
      if (p.backoff : Rat) * jitter ≤ p.atLeast then (p.atLeast : Rat) else p.backoff * jitter := by
    rw [max_comm, max_def]
  rw [length, hmax, min_def]
  rfl

/-- No wait is longer than the longest. -/
theorem length_le (p : Pause) (jitter : Rat) : p.length jitter ≤ longest := by
  rw [length_eq]
  exact min_le_right _ _

/-- A wait is not shorter than the service asks for, unless no wait is that long. -/
theorem min_le_length (p : Pause) (jitter : Rat) :
    ((min p.atLeast longest : Nat) : Rat) ≤ p.length jitter := by
  rw [length_eq, Nat.cast_min]
  exact min_le_min (le_max_left _ _) le_rfl

end Pause

namespace RetryPolicy

/-- The waits of the policy, without an end. -/
def waits (p : RetryPolicy) : Nat → Nat
  | 0 => p.firstBackoff
  | n + 1 => (p.nextBackoff? (p.waits n)).getD 0

/-- The wait that follows, if there is one, is the next one in the row. -/
theorem nextBackoff?_waits {p : RetryPolicy} {n : Nat} (h : (p.nextBackoff? (p.waits n)).isSome) :
    p.nextBackoff? (p.waits n) = some (p.waits (n + 1)) := by
  obtain ⟨next, hnext⟩ := Option.isSome_iff_exists.1 h
  rw [waits, hnext, Option.getD_some]

/-! ## Effects -/

/-- Each listener is told, in the order of registration. -/
def told (p : RetryPolicy) (notice : RetryNotice) : List Effect :=
  (List.range p.listeners).map fun i => .retried i notice

/-- What happens in an attempt that is repeated and up to the next one: its work, a notice to each
listener and a pause. Attempts are counted from zero here. -/
def repeated (p : RetryPolicy) (work : Nat → List Effect) (outcomes : Nat → Except Error α)
    (n : Nat) : List Effect :=
  work n ++ match outcomes n with
    | .ok _ => []
    | .error e => p.told (.retrying (n + 1) e) ++ [.paused (.after (p.waits n) e)]

/-- What happens in the last attempt: its work, and if it succeeds a notice to each listener. -/
def concluded (p : RetryPolicy) (work : Nat → List Effect) (outcomes : Nat → Except Error α)
    (n : Nat) : List Effect :=
  work n ++ match outcomes n with
    | .ok _ => p.told (.succeeded n)
    | .error _ => []

variable {p : RetryPolicy} {x : Run σ α} {states : Nat → σ} {work : Nat → List Effect}
  {outcomes : Nat → Except Error α}

/-- The last attempt. -/
theorem executeFrom_of_last (hx : x.Goes states work outcomes) {left n : Nat}
    (hlast : isFinal (outcomes n) = true ∨ left = 0) (backoff : Nat) :
    p.executeFrom x (left + 1) n backoff (states n) =
      ⟨p.concluded work outcomes n, states (n + 1), (outcomes n).mapError .error⟩ := by
  have hn := hx n
  rw [executeFrom, concluded]
  cases houtcome : outcomes n with
  | ok a =>
    rw [houtcome] at hn
    have hnotify : (do p.notify (.succeeded n); return a : Run σ α) (states (n + 1)) =
        ⟨p.told (.succeeded n) ++ [], states (n + 1), .ok a⟩ := rfl
    rw [List.append_nil] at hnotify
    exact Run.bind_eq_of_ok (Run.attempt_of_ok hn) hnotify
  | error e =>
    rw [houtcome] at hn hlast
    have hfinal : (!e.isRetryable || left == 0) = true := by
      simpa [isFinal] using hlast
    rw [Run.bind_of_ok (Run.attempt_of_error hn)]
    simp only [hfinal, if_true]
    rfl

/-- An attempt that fails but not for good, with an attempt left. -/
theorem executeFrom_of_transient (hx : x.Goes states work outcomes) {left n : Nat}
    (htransient : isFinal (outcomes n) = false) :
    p.executeFrom x (left + 2) n (p.waits n) (states n) =
      let after := (match p.nextBackoff? (p.waits n) with
        | none => .halt .crashed
        | some next => p.executeFrom x (left + 1) (n + 1) next : Run σ α) (states (n + 1))
      ⟨p.repeated work outcomes n ++ after.effects, after.state, after.value⟩ := by
  have hn := hx n
  rw [executeFrom, repeated]
  cases houtcome : outcomes n with
  | ok a =>
    rw [houtcome] at htransient
    cases htransient
  | error e =>
    rw [houtcome] at hn htransient
    have hretry : (!e.isRetryable || left + 1 == 0) = false := by
      simpa [isFinal] using htransient
    have hnotify : p.notify (.retrying (n + 1) e) (states (n + 1)) =
        ⟨p.told (.retrying (n + 1) e), states (n + 1), .ok ()⟩ := rfl
    rw [Run.bind_of_ok (Run.attempt_of_error hn)]
    simp only [hretry, Bool.false_eq_true, if_false]
    rw [Run.bind_of_ok hnotify, Run.emit_bind]
    -- The notices and the pause are repeated work, however the attempts go on.
    cases p.nextBackoff? (p.waits n) <;> simp only [List.append_assoc, List.singleton_append]

/-- An attempt that is repeated. -/
theorem executeFrom_of_repeated (hx : x.Goes states work outcomes) (left n : Nat)
    (htransient : isFinal (outcomes n) = false) (hnext : (p.nextBackoff? (p.waits n)).isSome) :
    p.executeFrom x (left + 2) n (p.waits n) (states n) =
      let after := p.executeFrom x (left + 1) (n + 1) (p.waits (n + 1)) (states (n + 1))
      ⟨p.repeated work outcomes n ++ after.effects, after.state, after.value⟩ := by
  rw [executeFrom_of_transient hx htransient, nextBackoff?_waits hnext]

/-- The attempts after some failures that are repeated, and what follows them. -/
theorem executeFrom_repeated (hx : x.Goes states work outcomes) (left : Nat) {count failed : Nat}
    (htransient : ∀ i < count, isFinal (outcomes (failed + i)) = false)
    (hnext : ∀ i < count, (p.nextBackoff? (p.waits (failed + i))).isSome) :
    p.executeFrom x (left + 1 + count) failed (p.waits failed) (states failed) =
      let after := p.executeFrom x (left + 1) (failed + count) (p.waits (failed + count))
        (states (failed + count))
      ⟨(List.range' failed count).flatMap (p.repeated work outcomes) ++ after.effects, after.state,
        after.value⟩ := by
  induction count generalizing failed with
  | zero => rfl
  | succ count ih =>
    have hshift (i : Nat) : failed + 1 + i = failed + (i + 1) := by omega
    have hrest := @ih (failed + 1)
      (fun i hi => by rw [hshift]; exact htransient (i + 1) (Nat.succ_lt_succ hi))
      (fun i hi => by rw [hshift]; exact hnext (i + 1) (Nat.succ_lt_succ hi))
    have hfirst := executeFrom_of_repeated hx (left + count) failed
      (htransient 0 (Nat.succ_pos count)) (hnext 0 (Nat.succ_pos count))
    have hleft : left + 1 + (count + 1) = left + count + 2 := by omega
    have hleft' : left + count + 1 = left + 1 + count := by omega
    rw [hleft, hfirst, hleft', hrest, hshift, List.range'_succ, List.flatMap_cons]
    simp only [List.append_assoc]

/-- The first attempts that are repeated, and what follows them. -/
theorem execute_repeated (hx : x.Goes states work outcomes) {left count : Nat}
    (hleft : p.maxAttempts.toNat = left + 1 + count)
    (htransient : ∀ i < count, isFinal (outcomes i) = false)
    (hnext : ∀ i < count, (p.nextBackoff? (p.waits i)).isSome) :
    p.execute x (states 0) =
      let after := p.executeFrom x (left + 1) count (p.waits count) (states count)
      ⟨(List.range count).flatMap (p.repeated work outcomes) ++ after.effects, after.state,
        after.value⟩ := by
  have hrepeated : p.executeFrom x (left + 1 + count) 0 (p.waits 0) (states 0) = _ :=
    executeFrom_repeated hx left (fun i hi => by rw [Nat.zero_add]; exact htransient i hi)
      (fun i hi => by rw [Nat.zero_add]; exact hnext i hi)
  rw [← hleft, Nat.zero_add, ← List.range_eq_range'] at hrepeated
  exact hrepeated

/-! ## Attempts -/

/-- So many attempts are made: all before the last one have failed but not for good, and the last
one is final or uses up the policy's attempts. -/
structure Makes (p : RetryPolicy) (outcomes : Nat → Except Error α) (k : Nat) : Prop where
  pos : 0 < k
  le : k ≤ p.maxAttempts.toNat
  transient : ∀ i, i + 1 < k → isFinal (outcomes i) = false
  last : isFinal (outcomes (k - 1)) = true ∨ k = p.maxAttempts.toNat

/-- A policy that allows attempts makes some number of them. -/
theorem exists_makes (h : p.maxAttempts ≠ 0) (outcomes : Nat → Except Error α) :
    ∃ k, p.Makes outcomes k := by
  obtain ⟨left, hleft⟩ := p.exists_maxAttempts_eq_add_one h
  -- The first attempt that is final, or the last one that is left.
  have hends : ∃ n, isFinal (outcomes n) = true ∨ n = left := ⟨left, .inr rfl⟩
  have hlast := Nat.find_spec hends
  have hle : Nat.find hends ≤ left := Nat.find_min' hends (.inr rfl)
  refine ⟨Nat.find hends + 1, Nat.succ_pos _, by omega, fun i hi => ?_, ?_⟩
  · have hnot := Nat.find_min hends (Nat.lt_of_succ_lt_succ hi)
    exact Bool.eq_false_iff.2 fun hfinal => hnot (.inl hfinal)
  · exact hlast.imp_right fun heq => by omega

/-- The number of attempts is determined. -/
theorem Makes.unique {k k' : Nat} (h : p.Makes outcomes k) (h' : p.Makes outcomes k') : k = k' := by
  have hnot {k k' : Nat} (h : p.Makes outcomes k) (h' : p.Makes outcomes k') : ¬k < k' := by
    intro hlt
    rcases h.last with hfinal | heq
    · have hpos := h.pos
      have htransient := h'.transient (k - 1) (by omega)
      exact absurd (hfinal.symm.trans htransient) (by decide)
    · have hle := h'.le
      omega
  have hle := hnot h h'
  have hge := hnot h' h
  omega

end RetryPolicy

/-! ## What listeners are told -/

/-- What the effect tells a listener, if it does. -/
def Effect.noticeTo? (listener : Nat) : Effect → Option RetryNotice
  | .retried i notice => if i = listener then some notice else none
  | _ => none

/-- What a listener is told, in order. -/
def noticesTo (listener : Nat) (effects : List Effect) : List RetryNotice :=
  effects.filterMap (Effect.noticeTo? listener)

/-- The notices of two parts are those of the first and then those of the second. -/
theorem noticesTo_append (listener : Nat) (es fs : List Effect) :
    noticesTo listener (es ++ fs) = noticesTo listener es ++ noticesTo listener fs :=
  List.filterMap_append

/-- What is said of a failed attempt that is repeated; attempts are counted from zero here. -/
def retryNotice? (outcomes : Nat → Except Error α) (n : Nat) : Option RetryNotice :=
  match outcomes n with
  | .ok _ => none
  | .error e => some (.retrying (n + 1) e)

/-- What is said of the last attempt, if it succeeds. -/
def successNotice? (outcomes : Nat → Except Error α) (n : Nat) : Option RetryNotice :=
  match outcomes n with
  | .ok _ => some (.succeeded n)
  | .error _ => none

namespace RetryPolicy

variable {p : RetryPolicy} {x : Run σ α} {states : Nat → σ} {work : Nat → List Effect}
  {outcomes : Nat → Except Error α} {listener : Nat}

/-- Every registered listener is told once. -/
theorem noticesTo_told (hlistener : listener < p.listeners) (notice : RetryNotice) :
    noticesTo listener (p.told notice) = [notice] := by
  rw [noticesTo, told, List.filterMap_map]
  exact filterMap_range_eq notice hlistener

/-- An attempt that is repeated tells a listener that it is. -/
theorem noticesTo_repeated (hlistener : listener < p.listeners) {n : Nat}
    (hwork : noticesTo listener (work n) = []) :
    noticesTo listener (p.repeated work outcomes n) = (retryNotice? outcomes n).toList := by
  rw [repeated, noticesTo_append, hwork, retryNotice?, List.nil_append]
  cases outcomes n with
  | ok a => rfl
  | error e =>
    simp only [noticesTo_append, noticesTo_told hlistener]
    rfl

/-- The last attempt tells a listener if it succeeds after others. -/
theorem noticesTo_concluded (hlistener : listener < p.listeners) {n : Nat}
    (hwork : noticesTo listener (work n) = []) :
    noticesTo listener (p.concluded work outcomes n) = (successNotice? outcomes n).toList := by
  rw [concluded, noticesTo_append, hwork, successNotice?, List.nil_append]
  cases outcomes n with
  | ok a => exact noticesTo_told hlistener _
  | error e => rfl

/-- Some attempts that are repeated tell a listener once each. -/
theorem noticesTo_flatMap_repeated (hlistener : listener < p.listeners)
    (hwork : ∀ n, noticesTo listener (work n) = []) (ns : List Nat) :
    noticesTo listener (ns.flatMap (p.repeated work outcomes)) =
      ns.filterMap (retryNotice? outcomes) := by
  induction ns with
  | nil => rfl
  | cons n ns ih =>
    rw [List.flatMap_cons, noticesTo_append, noticesTo_repeated hlistener (hwork n), ih,
      List.filterMap_cons]
    cases retryNotice? outcomes n <;> rfl

/-! ## The whole repetition -/

/-- The attempts that are made while no wait is negative, with everything that happens. -/
theorem execute_eq_of_isSome (hx : x.Goes states work outcomes) {k : Nat}
    (hk : p.Makes outcomes k) (hnext : ∀ n, n + 1 < k → (p.nextBackoff? (p.waits n)).isSome) :
    p.execute x (states 0) =
      ⟨(List.range (k - 1)).flatMap (p.repeated work outcomes) ++ p.concluded work outcomes (k - 1),
        states k, (outcomes (k - 1)).mapError .error⟩ := by
  have hpos := hk.pos
  have hle := hk.le
  obtain ⟨left, hleft⟩ : ∃ left, p.maxAttempts.toNat = left + 1 + (k - 1) :=
    ⟨p.maxAttempts.toNat - k, by omega⟩
  have hlast : isFinal (outcomes (k - 1)) = true ∨ left = 0 :=
    hk.last.imp_right fun h => by omega
  have hsucc : k - 1 + 1 = k := by omega
  rw [execute_repeated hx hleft (fun i hi => hk.transient i (by omega))
    (fun i hi => hnext i (by omega)), executeFrom_of_last hx hlast, hsucc]

/-- A factor that is not below zero makes no wait negative, so the attempts are made. -/
theorem execute_eq_of_makes (hp : p.multiplier.isBelowZero = false)
    (hx : x.Goes states work outcomes) {k : Nat} (hk : p.Makes outcomes k) :
    p.execute x (states 0) =
      ⟨(List.range (k - 1)).flatMap (p.repeated work outcomes) ++ p.concluded work outcomes (k - 1),
        states k, (outcomes (k - 1)).mapError .error⟩ :=
  execute_eq_of_isSome hx hk fun _ _ => isSome_nextBackoff? hp _

/-- Nor does it keep a result from the caller. -/
theorem value_execute_ne_halt (hp : p.multiplier.isBelowZero = false)
    (hx : x.Goes states work outcomes) (halt : Halt) :
    (p.execute x (states 0)).value ≠ .error (.halt halt) := by
  by_cases hzero : p.maxAttempts = 0
  · rw [execute_of_zero hzero]
    exact nofun
  · obtain ⟨k, hk⟩ := exists_makes hzero outcomes
    rw [execute_eq_of_makes hp hx hk]
    cases outcomes (k - 1) <;> exact nofun

/-- **Repetition.** Let the factor of a policy be not below zero, and the attempts at an operation
have any outcomes at all. A policy that allows no attempts makes none and fails. Otherwise attempts
are made up to the first one that succeeds or fails for good, or up to the policy's limit, and the
outcome of the last one is the result. Between two attempts, and nowhere else, each listener is told
of the failure, in the order of registration, and then there is a pause; after the last attempt each
listener is told if it succeeds. So a listener is told of every failure that is repeated, then of
the success, and of no other failure. A pause is not shorter than a service that is too busy asks
for, unless this is longer than anyone can wait. -/
theorem execute_repeats (hp : p.multiplier.isBelowZero = false)
    (hx : x.Goes states work outcomes) :
    (p.maxAttempts = 0 → p.execute x (states 0) = ⟨[], states 0, .error (.error .zeroAttempts)⟩) ∧
    (p.maxAttempts ≠ 0 → ∃! k, p.Makes outcomes k) ∧
    (∀ k, p.Makes outcomes k →
      p.execute x (states 0) =
        ⟨(List.range (k - 1)).flatMap (p.repeated work outcomes) ++
            p.concluded work outcomes (k - 1),
          states k, (outcomes (k - 1)).mapError .error⟩ ∧
      ∀ listener < p.listeners, (∀ n, noticesTo listener (work n) = []) →
        noticesTo listener (p.execute x (states 0)).effects =
          (List.range (k - 1)).filterMap (retryNotice? outcomes) ++
            (successNotice? outcomes (k - 1)).toList) ∧
    ∀ backoff ms jitter, ((min (ms * millisecond) Pause.longest : Nat) : Rat) ≤
      (Pause.after backoff (.rateLimited (some ms))).length jitter := by
  refine ⟨fun hzero => ?_, fun hattempts => ?_, fun k hk => ?_,
    fun backoff ms jitter => Pause.min_le_length _ jitter⟩
  · rw [execute_of_zero hzero]
    rfl
  · obtain ⟨k, hk⟩ := exists_makes hattempts outcomes
    exact ⟨k, hk, fun k' hk' => hk'.unique hk⟩
  · have heq := execute_eq_of_makes hp hx hk
    refine ⟨heq, fun listener hlistener hwork => ?_⟩
    rw [heq, noticesTo_append, noticesTo_flatMap_repeated hlistener hwork,
      noticesTo_concluded hlistener (hwork _)]

end RetryPolicy

/-! ## A service that is too busy once -/

namespace RetryPolicy

namespace BusyOnce

/-- Two attempts, of which one listener is told. -/
def policy : RetryPolicy := { standard with maxAttempts := 2, listeners := 1 }

/-- The service asks for a wait of so many milliseconds, and answers then. -/
def outcomes (ms : Nat) : Nat → Except Error String
  | 0 => .error (.rateLimited (some ms))
  | _ + 1 => .ok "Hello"

/-- The multiplier of the policy is not below zero. -/
theorem isBelowZero_multiplier : policy.multiplier.isBelowZero = false := by decide

/-- Two attempts are made: the service is too busy for the first one and answers the second one. -/
theorem makes (ms : Nat) : policy.Makes (outcomes ms) 2 where
  pos := by decide
  le := by decide
  transient i hi := by
    obtain rfl : i = 0 := by omega
    rfl
  last := .inl rfl

end BusyOnce

open BusyOnce in
/-- After a wait of a second the second attempt succeeds. -/
theorem execute_repeats_busyOnce :
    (policy.execute (.ofOutcomes (outcomes 1000)) 0).value = .ok "Hello" ∧
      noticesTo 0 (policy.execute (.ofOutcomes (outcomes 1000)) 0).effects =
        [.retrying 1 (.rateLimited (some 1000)), .succeeded 1] := by
  obtain ⟨-, -, hmakes, -⟩ :=
    execute_repeats isBelowZero_multiplier (Run.goes_ofOutcomes (outcomes 1000))
  obtain ⟨heq, hnotices⟩ := hmakes 2 (makes 1000)
  exact ⟨congrArg Outcome.value heq, hnotices 0 (by decide) fun _ => rfl⟩

open BusyOnce in
/-- A service that asks for the longest wait it can write does not get it. -/
theorem pause_shorter_than_asked :
    ∃ pause, .paused pause ∈ (policy.execute (.ofOutcomes (outcomes (2 ^ 64 - 1))) 0).effects ∧
      ∀ jitter, pause.length jitter < (((2 ^ 64 - 1) * millisecond : Nat) : Rat) := by
  have heq := execute_eq_of_makes isBelowZero_multiplier
    (Run.goes_ofOutcomes (outcomes (2 ^ 64 - 1))) (makes _)
  refine ⟨.after policy.firstBackoff (.rateLimited (some (2 ^ 64 - 1))), ?_, fun jitter => ?_⟩
  · rw [show (0 : Nat) = id 0 from rfl, heq]
    refine List.mem_append_left _ (List.mem_flatMap.2 ⟨0, by decide, ?_⟩)
    exact List.mem_append_right _ (List.mem_append_right _ (List.mem_singleton_self _))
  · refine lt_of_le_of_lt (Pause.length_le _ jitter) ?_
    have hlt : Pause.longest < (2 ^ 64 - 1) * millisecond := by decide
    exact_mod_cast hlt

end RetryPolicy

end ModelClient
