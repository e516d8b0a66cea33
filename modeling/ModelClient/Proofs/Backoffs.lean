import Mathlib.Order.Interval.Set.Defs
import Mathlib.Tactic.GCongr
import Mathlib.Tactic.Linarith
import ModelClient.Config
import ModelClient.Proofs.FiniteNumbers
import ModelClient.Proofs.Repetition

/-!
# Waits within their limits

A policy has a longest wait, and says how the next wait follows from the one before it. Every wait
that follows another is cut off at the longest one (`RetryPolicy.nextBackoff?_le`), but the first
wait is the policy's own and nobody cuts it off. A factor below zero makes the next wait negative,
which ends the run, unless the product is as good as nothing; minus infinity keeps to a rule of its
own, for its product with no wait at all is no number. `RetryPolicy.SparesWaits` lists what a policy
can have to get through a number of attempts.

`Outcome.KeepsRange` says of a run that no wait leaves its limits. It holds of all runs of a policy
in which there are at most so many attempts, or of none: what the errors are does not matter.

## Main statements

* `RetryPolicy.execute_keepsRange_iff`: when all waits of a run keep within their limits.
-/

namespace ModelClient

variable {σ α : Type}

/-! ## Lengths of pauses -/

namespace Pause

/-- No pause is negative. -/
theorem length_nonneg (p : Pause) (jitter : Rat) : 0 ≤ p.length jitter := by
  have hleast : (0 : Rat) ≤ p.atLeast := Nat.cast_nonneg _
  have hlongest : (0 : Rat) ≤ longest := Nat.cast_nonneg _
  rw [length_eq]
  exact le_min (le_max_of_le_left hleast) hlongest

/-- A pause that is not as long as it is for the service's sake is the jittered wait at most. -/
theorem length_le_of_atLeast_le (p : Pause) {jitter limit : Rat}
    (h : (p.atLeast : Rat) ≤ p.backoff * jitter) (hlimit : p.backoff * jitter ≤ limit) :
    p.length jitter ≤ limit := by
  rw [length_eq, max_eq_right h]
  exact (min_le_left _ _).trans hlimit

end Pause

/-- All pauses of a run keep within the limits of the policy: the wait before jitter is not above
the longest one, with a jitter of up to a quarter either way the pause is neither negative nor, if
the service does not ask for more, above five quarters of the longest wait, and no wait that is
computed is negative. -/
structure RetryPolicy.KeepsRange (p : RetryPolicy) (o : Outcome σ α) : Prop where
  backoff_le : ∀ pause, .paused pause ∈ o.effects → pause.backoff ≤ p.longestBackoff
  length_nonneg : ∀ pause, .paused pause ∈ o.effects →
    ∀ jitter ∈ Set.Icc (3 / 4 : Rat) (5 / 4), 0 ≤ pause.length jitter
  length_le : ∀ pause, .paused pause ∈ o.effects →
    ∀ jitter ∈ Set.Icc (3 / 4 : Rat) (5 / 4), (pause.atLeast : Rat) ≤ pause.backoff * jitter →
      pause.length jitter ≤ 5 / 4 * (p.longestBackoff : Rat)
  not_crashed : o.value ≠ .error (.halt .crashed)

namespace RetryPolicy

variable {p : RetryPolicy}

/-- The wait before jitter decides about the pause. -/
theorem KeepsRange.of_backoff_le {o : Outcome σ α}
    (hbackoff : ∀ pause, .paused pause ∈ o.effects → pause.backoff ≤ p.longestBackoff)
    (hvalue : o.value ≠ .error (.halt .crashed)) : p.KeepsRange o where
  backoff_le := hbackoff
  length_nonneg pause _ jitter _ := pause.length_nonneg jitter
  length_le pause hpause jitter hjitter hasked := by
    refine pause.length_le_of_atLeast_le hasked ?_
    have hle : (pause.backoff : Rat) ≤ p.longestBackoff := by
      exact_mod_cast hbackoff pause hpause
    have hpos : (0 : Rat) ≤ jitter := by linarith [hjitter.1]
    calc (pause.backoff : Rat) * jitter
        ≤ p.longestBackoff * jitter := by gcongr
      _ ≤ p.longestBackoff * (5 / 4) := by gcongr; exact hjitter.2
      _ = 5 / 4 * p.longestBackoff := mul_comm _ _
  not_crashed := hvalue

/-! ## The next wait -/

/-- A wait that follows another is not longer than the longest. -/
theorem nextBackoff?_le {backoff next : Nat} (h : p.nextBackoff? backoff = some next) :
    next ≤ p.longestBackoff := by
  unfold nextBackoff? at h
  simp only at h
  split at h
  · cases h
    exact le_rfl
  split at h
  · split at h
    · cases h
    · cases h
      exact le_rfl
  split at h
  · split at h
    · cases h
      exact Nat.zero_le _
    · cases h
  split at h
  · cases h
    exact le_rfl
  next hless =>
    cases h
    refine Binary.roundHalfEven_le ?_
    rw [Nat.mul_comm p.multiplier.magnitude.2]
    exact Nat.lt_of_not_le hless

/-- Only the first wait can be longer than the longest. -/
theorem waits_succ_le (n : Nat) : p.waits (n + 1) ≤ p.longestBackoff := by
  rw [waits]
  cases hnext : p.nextBackoff? (p.waits n) with
  | none => exact Nat.zero_le _
  | some next => exact nextBackoff?_le hnext

/-- The first wait is within the limit exactly if the policy's settings say so. -/
theorem firstBackoff_le_iff :
    p.firstBackoff ≤ p.longestBackoff ↔ p.initialBackoff ≤ p.maxBackoff := by
  rw [UInt64.le_iff_toNat_le, firstBackoff, longestBackoff]
  exact Nat.mul_le_mul_right_iff (by decide)

/-- If the first wait is within the limit, all of them are. -/
theorem waits_le (h : p.initialBackoff ≤ p.maxBackoff) : ∀ n, p.waits n ≤ p.longestBackoff
  | 0 => firstBackoff_le_iff.2 h
  | n + 1 => waits_succ_le n

/-- The next wait under a factor below zero. -/
theorem nextBackoff?_of_isBelowZero (h : p.multiplier.isBelowZero = true) (backoff : Nat) :
    p.nextBackoff? backoff =
      if p.multiplier.isFinite then
        if isNegligible backoff p.multiplier then some 0 else none
      else if backoff = 0 then some p.longestBackoff else none := by
  obtain ⟨⟨hnan, hnegative⟩, -⟩ :
      (p.multiplier.isNaN = false ∧ p.multiplier.negative = true) ∧ p.multiplier.pattern ≠ 0 := by
    simpa [Binary64.isBelowZero] using h
  rw [nextBackoff?]
  simp only [hnan, hnegative, Bool.false_or]
  cases p.multiplier.isFinite <;> by_cases hzero : backoff = 0 <;> simp [hzero]

/-- No wait is nothing, whatever it is multiplied by. -/
theorem isNegligible_zero (factor : Binary64) : isNegligible 0 factor = true :=
  isNegligible_of_mul_eq_zero (.inl (by decide +kernel))

/-- What a policy can have to get through some attempts without a negative wait. -/
inductive SparesWaits (p : RetryPolicy) (attempts : Nat) : Prop
  /-- The factor is not below zero. -/
  | notBelowZero (h : p.multiplier.isBelowZero = false)
  /-- The product of the first wait and the factor is as good as nothing. -/
  | negligible (hfinite : p.multiplier.isFinite = true)
    (h : isNegligible p.firstBackoff p.multiplier = true)
  /-- The factor is infinite, there is no first wait, and no later wait is multiplied or there is
  none. -/
  | infinite (hinfinite : p.multiplier.isFinite = false) (hfirst : p.firstBackoff = 0)
    (h : attempts ≤ 2 ∨ p.longestBackoff = 0)

/-- The waits go on under a finite factor below zero if the first one does. -/
theorem isSome_nextBackoff?_of_negligible (hbelow : p.multiplier.isBelowZero = true)
    (hfinite : p.multiplier.isFinite = true)
    (h : isNegligible p.firstBackoff p.multiplier = true)
    (n : Nat) : p.nextBackoff? (p.waits n) = some 0 := by
  induction n with
  | zero =>
    have hfirst : p.waits 0 = p.firstBackoff := rfl
    rw [nextBackoff?_of_isBelowZero hbelow, if_pos hfinite, hfirst, if_pos h]
  | succ n ih =>
    have hwait : p.waits (n + 1) = 0 := by rw [waits, ih, Option.getD_some]
    rw [nextBackoff?_of_isBelowZero hbelow, if_pos hfinite, hwait, if_pos (isNegligible_zero _)]

/-- The waits go on under minus infinity as long as there are none. -/
theorem nextBackoff?_of_infinite (hbelow : p.multiplier.isBelowZero = true)
    (hinfinite : p.multiplier.isFinite = false) (n : Nat) :
    (p.nextBackoff? (p.waits n)).isSome ↔ p.waits n = 0 := by
  rw [nextBackoff?_of_isBelowZero hbelow, hinfinite]
  by_cases hzero : p.waits n = 0 <;> simp [hzero]

/-- Under minus infinity a wait of nothing is followed by the longest. -/
theorem waits_succ_of_infinite (hbelow : p.multiplier.isBelowZero = true)
    (hinfinite : p.multiplier.isFinite = false) {n : Nat} (h : p.waits n = 0) :
    p.waits (n + 1) = p.longestBackoff := by
  rw [waits, h, nextBackoff?_of_isBelowZero hbelow, hinfinite]
  simp

/-- The waits between some attempts are there exactly if the policy spares them. -/
theorem isSome_nextBackoff?_waits_iff {k : Nat} (hk : 1 < k) :
    (∀ n, n + 1 < k → (p.nextBackoff? (p.waits n)).isSome) ↔ p.SparesWaits k := by
  cases hbelow : p.multiplier.isBelowZero with
  | false => exact ⟨fun _ => .notBelowZero hbelow, fun _ n _ => isSome_nextBackoff? hbelow _⟩
  | true =>
    have hfirst : p.waits 0 = p.firstBackoff := rfl
    -- A finite factor shows at the first wait; minus infinity shows where a wait is not nothing.
    cases hfinite : p.multiplier.isFinite with
    | true =>
      refine ⟨fun hsome => .negligible hfinite ?_, fun hspares n _ => ?_⟩
      · have hzero := hsome 0 hk
        rw [nextBackoff?_of_isBelowZero hbelow, if_pos hfinite, hfirst] at hzero
        by_contra hnot
        rw [if_neg hnot] at hzero
        cases hzero
      · cases hspares with
        | notBelowZero h => exact absurd (hbelow.symm.trans h) (by decide)
        | negligible _ h => rw [isSome_nextBackoff?_of_negligible hbelow hfinite h]; rfl
        | infinite h => exact absurd (hfinite.symm.trans h) (by decide)
    | false =>
      have hnext := nextBackoff?_of_infinite hbelow hfinite
      refine ⟨fun hsome => ?_, fun hspares n hn => ?_⟩
      · have hzero : p.waits 0 = 0 := (hnext 0).1 (hsome 0 hk)
        refine .infinite hfinite hzero ?_
        rcases Nat.lt_or_ge 2 k with hmore | hle
        · have hsecond := (hnext 1).1 (hsome 1 hmore)
          rw [waits_succ_of_infinite hbelow hfinite hzero] at hsecond
          exact .inr hsecond
        · exact .inl hle
      · cases hspares with
        | notBelowZero h => exact absurd (hbelow.symm.trans h) (by decide)
        | negligible h => exact absurd (hfinite.symm.trans h) (by decide)
        | infinite _ hzero hfew =>
          refine (hnext n).2 ?_
          rcases hfew with hle | hlongest
          · obtain rfl : n = 0 := by omega
            exact hzero
          · cases n with
            | zero => exact hzero
            | succ n => exact Nat.le_zero.1 (hlongest ▸ waits_succ_le n)

/-! ## The waits of a run -/

variable {x : Run σ α} {states : Nat → σ} {work : Nat → List Effect}
  {outcomes : Nat → Except Error α}

/-- An attempt that is repeated is followed by a pause of the wait that is due. -/
theorem paused_mem_repeated_iff (hwork : ∀ n pause, .paused pause ∉ work n) {n : Nat}
    {pause : Pause} :
    .paused pause ∈ p.repeated work outcomes n ↔
      ∃ e, outcomes n = .error e ∧ pause = .after (p.waits n) e := by
  rw [repeated, List.mem_append, or_iff_right (hwork n pause)]
  cases outcomes n with
  | ok a => simp
  | error e => simp [told]

/-- After the last attempt there is no pause. -/
theorem paused_not_mem_concluded (hwork : ∀ n pause, .paused pause ∉ work n) (n : Nat)
    (pause : Pause) : .paused pause ∉ p.concluded work outcomes n := by
  rw [concluded, List.mem_append, or_iff_right (hwork n pause)]
  cases outcomes n <;> simp [told]

/-- An error does not change the wait of the policy. -/
theorem backoff_after (backoff : Nat) (e : Error) : (Pause.after backoff e).backoff = backoff := by
  unfold Pause.after
  split <;> rfl

/-- The run ends where a wait would be negative. -/
theorem execute_eq_of_none (hx : x.Goes states work outcomes) {k n : Nat}
    (hk : p.Makes outcomes k) (hn : n + 1 < k)
    (hnext : ∀ i < n, (p.nextBackoff? (p.waits i)).isSome)
    (hnone : p.nextBackoff? (p.waits n) = none) :
    p.execute x (states 0) =
      ⟨(List.range (n + 1)).flatMap (p.repeated work outcomes), states (n + 1),
        .error (.halt .crashed)⟩ := by
  obtain ⟨left, hleft⟩ : ∃ left, p.maxAttempts.toNat = left + 1 + 1 + n := by
    have hle := hk.le
    exact ⟨p.maxAttempts.toNat - n - 2, by omega⟩
  rw [execute_repeated hx hleft (fun i hi => hk.transient i (by omega)) hnext,
    executeFrom_of_transient hx (hk.transient n hn), hnone]
  simp [Run.halt, List.range_succ]

/-- A run without a negative wait keeps within the limits if its waits do. -/
theorem KeepsRange.of_waits_le (hx : x.Goes states work outcomes)
    (hwork : ∀ n pause, .paused pause ∉ work n) {k : Nat} (hk : p.Makes outcomes k)
    (hnext : ∀ n, n + 1 < k → (p.nextBackoff? (p.waits n)).isSome)
    (hwaits : ∀ n, n + 1 < k → p.waits n ≤ p.longestBackoff) :
    p.KeepsRange (p.execute x (states 0)) := by
  rw [execute_eq_of_isSome hx hk hnext]
  refine .of_backoff_le (fun pause hpause => ?_) ?_
  · rcases List.mem_append.1 hpause with hpause | hpause
    · obtain ⟨n, hn, hpause⟩ := List.mem_flatMap.1 hpause
      obtain ⟨e, -, rfl⟩ := (paused_mem_repeated_iff hwork).1 hpause
      rw [backoff_after]
      have hlt := List.mem_range.1 hn
      exact hwaits n (by omega)
    · exact absurd hpause (paused_not_mem_concluded hwork _ _)
  · cases outcomes (k - 1) <;> simp [Except.mapError]

/-- No wait is negative in a run that keeps within the limits. -/
theorem KeepsRange.isSome_nextBackoff? (hx : x.Goes states work outcomes) {k : Nat}
    (hk : p.Makes outcomes k) (h : p.KeepsRange (p.execute x (states 0))) (n : Nat)
    (hn : n + 1 < k) : (p.nextBackoff? (p.waits n)).isSome := by
  induction n using Nat.strong_induction_on with
  | h n ih =>
    refine Option.isSome_iff_ne_none.2 fun hnone => h.not_crashed ?_
    rw [execute_eq_of_none hx hk hn (fun i hi => ih i hi (by omega)) hnone]

/-- The first wait of a run that keeps within the limits is not above the longest. -/
theorem KeepsRange.initialBackoff_le (hx : x.Goes states work outcomes)
    (hwork : ∀ n pause, .paused pause ∉ work n) {k : Nat} (hk : p.Makes outcomes k) (hmore : 1 < k)
    (h : p.KeepsRange (p.execute x (states 0))) : p.initialBackoff ≤ p.maxBackoff := by
  obtain ⟨e, he⟩ : ∃ e, outcomes 0 = .error e := by
    have htransient := hk.transient 0 hmore
    cases houtcome : outcomes 0 with
    | ok a => rw [houtcome] at htransient; cases htransient
    | error e => exact ⟨e, rfl⟩
  have hpause : .paused (.after (p.waits 0) e) ∈ (p.execute x (states 0)).effects := by
    rw [execute_eq_of_isSome hx hk fun n hn => h.isSome_nextBackoff? hx hk n hn]
    refine List.mem_append_left _ (List.mem_flatMap.2 ⟨0, List.mem_range.2 (by omega), ?_⟩)
    exact (paused_mem_repeated_iff hwork).2 ⟨e, he, rfl⟩
  have hle := h.backoff_le _ hpause
  rw [backoff_after] at hle
  exact firstBackoff_le_iff.1 hle

/-- **Waits within their limits.** A policy that allows no attempts has no waits. Otherwise let so
many attempts be made, as the outcomes of an operation have it. All waits of the run keep within the
limits of the policy exactly if there is no wait, or if the first wait is not above the longest and
the policy gets through these attempts without a negative wait: its factor is not below zero, or its
product with the first wait is as good as nothing, or it is infinite and there is nothing that it
multiplies. -/
theorem execute_keepsRange_iff (hx : x.Goes states work outcomes)
    (hwork : ∀ n pause, .paused pause ∉ work n) :
    (p.maxAttempts = 0 → p.KeepsRange (p.execute x (states 0))) ∧
    ∀ k, p.Makes outcomes k →
      (p.KeepsRange (p.execute x (states 0)) ↔
        k = 1 ∨ p.initialBackoff ≤ p.maxBackoff ∧ p.SparesWaits k) := by
  refine ⟨fun hzero => ?_, fun k hk => ⟨fun hkeeps => ?_, fun hlimits => ?_⟩⟩
  · rw [execute_of_zero hzero]
    exact .of_backoff_le nofun nofun
  · have hpos := hk.pos
    by_cases hone : k = 1
    · exact .inl hone
    have hmore : 1 < k := by omega
    have hspares := (isSome_nextBackoff?_waits_iff hmore).1 fun n hn =>
      hkeeps.isSome_nextBackoff? hx hk n hn
    exact .inr ⟨hkeeps.initialBackoff_le hx hwork hk hmore, hspares⟩
  · have hpos := hk.pos
    rcases hlimits with rfl | ⟨hfirst, hspares⟩
    · exact .of_waits_le hx hwork hk (fun n hn => by omega) (fun n hn => by omega)
    by_cases hmore : 1 < k
    · have hnext := (isSome_nextBackoff?_waits_iff hmore).2 hspares
      exact .of_waits_le hx hwork hk hnext fun n _ => waits_le hfirst n
    · exact .of_waits_le hx hwork hk (fun n hn => by omega) (fun n hn => by omega)

/-! ## Policies of configuration files -/

namespace OutOfRange

/-- Every attempt fails, and is worth repeating. -/
def failing : Nat → Except Error Unit := fun _ => .error .network

/-- All attempts of the policy are made. -/
theorem makes_failing (h : p.maxAttempts ≠ 0) : p.Makes failing p.maxAttempts.toNat where
  pos := by
    obtain ⟨left, hleft⟩ := p.exists_maxAttempts_eq_add_one h
    omega
  le := le_rfl
  transient _ _ := rfl
  last := .inr rfl

/-- A factor of minus infinity in so many attempts, of which the first has no wait after it. -/
def starting (attempts : UInt32) : RetryPolicy :=
  ⟨attempts, 0, 1000, .ofPattern true Binary64.infinity.pattern, 0⟩

/-- A first wait of two seconds under a limit of one. -/
def hasty : RetryPolicy := ⟨3, 2000, 1000, Binary64.ofNat 2, 0⟩

/-- A factor of minus one. -/
def receding : RetryPolicy := ⟨3, 500, 30000, Binary64.ofInt (-1), 0⟩

end OutOfRange

open OutOfRange in
/-- Minus infinity does no harm in two attempts, and in three it does. -/
theorem execute_keepsRange_iff_starting :
    (starting 2).KeepsRange ((starting 2).execute (.ofOutcomes failing) 0) ∧
      ¬(starting 3).KeepsRange ((starting 3).execute (.ofOutcomes failing) 0) := by
  have hiff (attempts : UInt32) := (execute_keepsRange_iff (p := starting attempts)
    (Run.goes_ofOutcomes failing) fun _ _ => List.not_mem_nil).2
  have hlimit : (starting 3).longestBackoff ≠ 0 := by decide
  refine ⟨(hiff 2 2 (makes_failing (by decide))).2 (.inr ⟨by decide, ?_⟩), fun hkeeps => ?_⟩
  · exact .infinite (by decide) rfl (.inl le_rfl)
  · rcases (hiff 3 3 (makes_failing (by decide))).1 hkeeps with hone | ⟨-, hspares⟩
    · exact absurd hone (by decide)
    · cases hspares with
      | notBelowZero h => exact absurd h (by decide)
      | negligible hfinite => exact absurd hfinite (by decide)
      | infinite _ _ h => exact h.elim (by decide) hlimit

open OutOfRange in
/-- Of two policies that configuration files give, the one waits longer than its longest wait, and
the other goes backwards after the first wait. -/
theorem read_policies_leave_range :
    ((Config.ofToml? "[retry]\ninitial_backoff = 2000\nmax_backoff = 1000\n").map (·.retry) =
        some hasty ∧
      ¬hasty.KeepsRange (hasty.execute (.ofOutcomes failing) 0)) ∧
    (Config.ofToml? "[retry]\nmultiplier = -1.0\n").map (·.retry) = some receding ∧
      (receding.execute (.ofOutcomes failing) 0).value = .error (.halt .crashed) := by
  refine ⟨⟨by decide +kernel, fun hkeeps => ?_⟩, by decide +kernel, ?_⟩
  · have hle := hkeeps.initialBackoff_le (Run.goes_ofOutcomes failing)
      (fun _ _ => List.not_mem_nil) (makes_failing (by decide)) (by decide)
    exact absurd hle (by decide)
  · have hnone : receding.nextBackoff? (receding.waits 0) = none := by decide +kernel
    have hrun := execute_eq_of_none (Run.goes_ofOutcomes failing) (makes_failing (by decide))
      (by decide : 0 + 1 < receding.maxAttempts.toNat) (fun _ h => absurd h (Nat.not_lt_zero _))
      hnone
    exact congrArg Outcome.value hrun

end RetryPolicy

end ModelClient
