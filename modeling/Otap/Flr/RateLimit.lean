import Mathlib.Tactic

/-!
# The rate limiter of the API

Embeds `rateLimiter` of `flr/internal/api/interceptor.go`, a token bucket, with the numbers of an ordered field for its
floating-point ones and instants in seconds. A call adds to the tokens what has accrued since the call before, up to
`maxTokens`, and takes one if there is one.

What a limiter allows until an instant is paid for by the tokens that it has and those that accrue until then
(`allowed_le_tokens`); in a window it starts with `maxTokens` at most (`allowed_le_window`).
-/

namespace Otap.Flr

variable {K : Type*} [Field K] [LinearOrder K]

/-! ## The code -/

/-- `rateLimiter`. -/
structure RateLimiter (K : Type*) where
  tokens : K
  maxTokens : K
  refillRate : K
  lastRefill : K

/-- `newRateLimiter`, with `now` its clock reading. -/
def newRateLimiter (maxPerSecond : Int) (now : K) : RateLimiter K where
  tokens := maxPerSecond
  maxTokens := maxPerSecond
  refillRate := maxPerSecond
  lastRefill := now

/-- The `min` of the source. -/
def lesser (a b : K) : K :=
  if a < b then a else b

namespace RateLimiter

/-- The limiter after the refill of a call. -/
def refill (rl : RateLimiter K) (now : K) : RateLimiter K :=
  { rl with
    tokens := lesser rl.maxTokens (rl.tokens + (now - rl.lastRefill) * rl.refillRate)
    lastRefill := now }

/-- `allow`, with `now` its clock reading. -/
def allow (rl : RateLimiter K) (now : K) : Bool × RateLimiter K :=
  let rl := rl.refill now
  if rl.tokens ≥ 1 then (true, { rl with tokens := rl.tokens - 1 }) else (false, rl)

/-- The limiter after calls at the given instants. -/
def after (rl : RateLimiter K) (calls : List K) : RateLimiter K :=
  calls.foldl (fun rl now => (rl.allow now).2) rl

/-- The instants of the calls that are allowed. -/
def allowed (rl : RateLimiter K) : List K → List K
  | [] => []
  | now :: calls => if (rl.allow now).1 then now :: (rl.allow now).2.allowed calls else (rl.allow now).2.allowed calls

/-- The number of calls that are allowed from `a` to `b`. -/
def allowedWithin (rl : RateLimiter K) (a b : K) (calls : List K) : Nat :=
  (rl.allowed calls).countP fun now => a ≤ now ∧ now ≤ b

/-! ## One call -/

/-- A call takes a token if there is one, and nothing otherwise. -/
lemma allow_cases (rl : RateLimiter K) (now : K) :
    (1 ≤ (rl.refill now).tokens ∧ rl.allow now = (true, { rl.refill now with tokens := (rl.refill now).tokens - 1 })) ∨
      ((rl.refill now).tokens < 1 ∧ rl.allow now = (false, rl.refill now)) := by
  rcases le_or_gt 1 (rl.refill now).tokens with full | empty
  · exact .inl ⟨full, if_pos full⟩
  · exact .inr ⟨empty, if_neg (not_le.mpr empty)⟩

/-- The other fields of the limiter after a call. -/
lemma allow_fields (rl : RateLimiter K) (now : K) :
    (rl.allow now).2.lastRefill = now ∧ (rl.allow now).2.maxTokens = rl.maxTokens ∧
      (rl.allow now).2.refillRate = rl.refillRate := by
  rcases allow_cases rl now with ⟨_, eq⟩ | ⟨_, eq⟩
  · rw [eq]
    exact ⟨rfl, rfl, rfl⟩
  · rw [eq]
    exact ⟨rfl, rfl, rfl⟩

/-- The tokens of a call, before it takes one: no more than fit, and no more than have accrued. -/
lemma refill_tokens (rl : RateLimiter K) (now : K) :
    (rl.refill now).tokens = min rl.maxTokens (rl.tokens + (now - rl.lastRefill) * rl.refillRate) := by
  rw [refill, lesser, min_def_lt]

/-- What holds of a limiter at any time. -/
structure Sane (rl : RateLimiter K) : Prop where
  tokens_nonneg : 0 ≤ rl.tokens
  max_ge_one : 1 ≤ rl.maxTokens
  rate_nonneg : 0 ≤ rl.refillRate

variable {rl : RateLimiter K} {now a b : K} {calls : List K}

/-- A call that comes when a token has accrued is allowed. -/
lemma Sane.allow_of_accrued (sane : rl.Sane) (accrued : 1 ≤ rl.tokens + (now - rl.lastRefill) * rl.refillRate) :
    (rl.allow now).1 = true := by
  have full : 1 ≤ (rl.refill now).tokens := by
    rw [refill_tokens]
    exact le_min sane.max_ge_one accrued
  rcases allow_cases rl now with ⟨_, eq⟩ | ⟨empty, _⟩
  · rw [eq]
  · exact absurd full (not_le.mpr empty)

/-! ## Calls in a window -/

lemma mem_allowed {rl : RateLimiter K} {t : K} (mem : t ∈ rl.allowed calls) : t ∈ calls := by
  induction calls generalizing rl with
  | nil => exact mem
  | cons now calls ih =>
    rw [allowed] at mem
    split at mem
    case isTrue =>
      rcases List.mem_cons.mp mem with rfl | later
      · exact List.mem_cons_self
      · exact List.mem_cons_of_mem _ (ih later)
    case isFalse => exact List.mem_cons_of_mem _ (ih mem)

/-- Calls after a window are not in it. -/
lemma allowedWithin_of_lt (ordered : (now :: calls).IsChain (· ≤ ·)) (past : b < now) :
    rl.allowedWithin a b (now :: calls) = 0 := by
  rw [allowedWithin, List.countP_eq_zero]
  intro t mem within
  have from_now : now ≤ t := by
    rcases List.mem_cons.mp (mem_allowed mem) with rfl | later
    · exact le_rfl
    · exact List.rel_of_pairwise_cons (List.isChain_iff_pairwise.mp ordered) later
  exact absurd (past.trans_le from_now) (not_lt.mpr (of_decide_eq_true within).2)

/-- A call before a window is not in it. -/
lemma allowedWithin_of_gt (early : now < a) (calls : List K) :
    rl.allowedWithin a b (now :: calls) = (rl.allow now).2.allowedWithin a b calls := by
  rw [allowedWithin, allowed, allowedWithin]
  split
  case isTrue => exact List.countP_cons_of_neg (by simp [early])
  case isFalse => rfl

variable [IsStrictOrderedRing K]

lemma sane_new {maxPerSecond : Int} (pos : 1 ≤ maxPerSecond) (now : K) : (newRateLimiter maxPerSecond now).Sane := by
  have one_le : (1 : K) ≤ maxPerSecond := by exact_mod_cast pos
  exact ⟨zero_le_one.trans one_le, one_le, zero_le_one.trans one_le⟩

/-- What accrues until an instant. -/
lemma Sane.accrual_nonneg (sane : rl.Sane) (ordered : rl.lastRefill ≤ now) :
    0 ≤ (now - rl.lastRefill) * rl.refillRate :=
  mul_nonneg (sub_nonneg.mpr ordered) sane.rate_nonneg

lemma Sane.allow (sane : rl.Sane) (ordered : rl.lastRefill ≤ now) : (rl.allow now).2.Sane := by
  have refilled : 0 ≤ (rl.refill now).tokens := by
    rw [refill_tokens]
    exact le_min (zero_le_one.trans sane.max_ge_one) (add_nonneg sane.tokens_nonneg (sane.accrual_nonneg ordered))
  rcases allow_cases rl now with ⟨full, eq⟩ | ⟨_, eq⟩
  · rw [eq]
    exact ⟨sub_nonneg.mpr full, sane.max_ge_one, sane.rate_nonneg⟩
  · rw [eq]
    exact ⟨refilled, sane.max_ge_one, sane.rate_nonneg⟩

/-! ## Runs -/

/-- If the tokens after a call pay for what is allowed from then on, the tokens before it pay for the call too. -/
lemma allowedWithin_cons_le {a b rate : K}
    (paid : ((rl.allow now).2.allowedWithin a b calls : K) ≤ (rl.allow now).2.tokens + (b - now) * rate) :
    (rl.allowedWithin a b (now :: calls) : K) ≤ (rl.refill now).tokens + (b - now) * rate := by
  rw [allowedWithin, allowed]
  rcases allow_cases rl now with ⟨_, eq⟩ | ⟨_, eq⟩
  · rw [eq] at paid ⊢
    have counted : ((now :: (rl.allow now).2.allowed calls).countP fun t => a ≤ t ∧ t ≤ b) ≤
        (rl.allow now).2.allowedWithin a b calls + 1 := by
      rw [List.countP_cons, allowedWithin]
      split
      case isTrue => exact le_rfl
      case isFalse => exact Nat.le_succ _
    rw [eq] at counted
    have counted : (_ : K) ≤ _ := Nat.cast_le.mpr counted
    push_cast at counted
    dsimp only at paid ⊢
    rw [if_pos rfl]
    linarith
  · rw [eq] at paid ⊢
    exact paid

/-- What is allowed until an instant is paid for by the tokens and by what accrues until then. -/
lemma allowed_le_tokens (sane : rl.Sane) (ordered : (rl.lastRefill :: calls).IsChain (· ≤ ·)) {b : K}
    (le : rl.lastRefill ≤ b) (a : K) :
    (rl.allowedWithin a b calls : K) ≤ rl.tokens + (b - rl.lastRefill) * rl.refillRate := by
  induction calls generalizing rl with
  | nil =>
    rw [allowedWithin, allowed, List.countP_nil, Nat.cast_zero]
    exact add_nonneg sane.tokens_nonneg (sane.accrual_nonneg le)
  | cons now calls ih =>
    obtain ⟨first, rest⟩ := List.isChain_cons_cons.mp ordered
    rcases lt_or_ge b now with past | within
    · rw [allowedWithin_of_lt rest past, Nat.cast_zero]
      exact add_nonneg sane.tokens_nonneg (sane.accrual_nonneg le)
    · obtain ⟨last, _, rate⟩ := allow_fields rl now
      have paid := ih (sane.allow first) (last.symm ▸ rest) (last.symm ▸ within)
      rw [last, rate] at paid
      have accrued : (rl.refill now).tokens ≤ rl.tokens + (now - rl.lastRefill) * rl.refillRate :=
        (refill_tokens rl now).trans_le (min_le_right _ _)
      calc (rl.allowedWithin a b (now :: calls) : K)
          ≤ (rl.refill now).tokens + (b - now) * rl.refillRate := allowedWithin_cons_le paid
        _ ≤ rl.tokens + (now - rl.lastRefill) * rl.refillRate + (b - now) * rl.refillRate := by gcongr
        _ = rl.tokens + (b - rl.lastRefill) * rl.refillRate := by ring

/-- In a window the tokens are `maxTokens` at most when the first call comes. -/
lemma allowed_le_window (sane : rl.Sane) (ordered : (rl.lastRefill :: calls).IsChain (· ≤ ·))
    (le : a ≤ b) : (rl.allowedWithin a b calls : K) ≤ rl.maxTokens + (b - a) * rl.refillRate := by
  have nonneg : 0 ≤ rl.maxTokens + (b - a) * rl.refillRate :=
    add_nonneg (zero_le_one.trans sane.max_ge_one) (mul_nonneg (sub_nonneg.mpr le) sane.rate_nonneg)
  induction calls generalizing rl with
  | nil =>
    rw [allowedWithin, allowed, List.countP_nil, Nat.cast_zero]
    exact nonneg
  | cons now calls ih =>
    obtain ⟨first, rest⟩ := List.isChain_cons_cons.mp ordered
    obtain ⟨last, max, rate⟩ := allow_fields rl now
    have next := sane.allow first
    rcases lt_or_ge now a with early | from_a
    · rw [allowedWithin_of_gt early, ← max, ← rate]
      exact ih next (last.symm ▸ rest) (by rwa [max, rate])
    rcases lt_or_ge b now with past | within
    · rwa [allowedWithin_of_lt rest past, Nat.cast_zero]
    · have paid := allowed_le_tokens next (last.symm ▸ rest) (last.symm ▸ within) a
      rw [last, rate] at paid
      have fits : (rl.refill now).tokens ≤ rl.maxTokens := (refill_tokens rl now).trans_le (min_le_left _ _)
      calc (rl.allowedWithin a b (now :: calls) : K)
          ≤ (rl.refill now).tokens + (b - now) * rl.refillRate := allowedWithin_cons_le paid
        _ ≤ rl.maxTokens + (b - a) * rl.refillRate :=
          add_le_add fits (mul_le_mul_of_nonneg_right (sub_le_sub_left from_a b) sane.rate_nonneg)

/-- The limiter after calls, of which the last one is `previous`. -/
lemma Sane.after (sane : rl.Sane) (ordered : (rl.lastRefill :: calls).IsChain (· ≤ ·)) :
    (rl.after calls).Sane ∧ (rl.after calls).refillRate = rl.refillRate ∧
      ∀ previous ∈ calls.getLast?, (rl.after calls).lastRefill = previous := by
  induction calls generalizing rl with
  | nil => exact ⟨sane, rfl, fun _ none => (by cases none)⟩
  | cons now calls ih =>
    obtain ⟨first, rest⟩ := List.isChain_cons_cons.mp ordered
    obtain ⟨last, _, rate⟩ := allow_fields rl now
    obtain ⟨sane', rate', last'⟩ := ih (sane.allow first) (last.symm ▸ rest)
    refine ⟨sane', rate'.trans rate, fun previous got => ?_⟩
    cases calls with
    | nil =>
      cases got
      exact last
    | cons next calls => exact last' previous (List.getLast?_cons_cons ▸ got)

end RateLimiter

/-! ## Main result -/

open RateLimiter

/-- Of calls at instants that do not decrease, no more than `N + N * T` are allowed in any interval of length `T`; a
    call that comes `1 / N` after the previous one or later is allowed, and so is the first one. -/
theorem rateLimiter_bounds [IsStrictOrderedRing K] (maxPerSecond : Int) (pos : 1 ≤ maxPerSecond) (start : K)
    (calls : List K) (ordered : (start :: calls).IsChain (· ≤ ·)) :
    (∀ a T : K, 0 ≤ T →
      ((newRateLimiter maxPerSecond start).allowedWithin a (a + T) calls : K) ≤ maxPerSecond + maxPerSecond * T) ∧
    ∀ (before : List K) (now : K) (later : List K), calls = before ++ now :: later →
      (∀ previous ∈ before.getLast?, previous + 1 / maxPerSecond ≤ now) →
      (((newRateLimiter maxPerSecond start).after before).allow now).1 = true := by
  have sane := sane_new pos start
  have rate_pos : (0 : K) < maxPerSecond := by exact_mod_cast zero_lt_one.trans_le pos
  refine ⟨fun a T nonneg => ?_, fun before now later eq waited => ?_⟩
  · have bound := allowed_le_window sane ordered (le_add_of_nonneg_right nonneg : a ≤ a + T)
    rwa [add_sub_cancel_left, mul_comm] at bound
  · subst eq
    have before_ordered : (start :: before).IsChain (· ≤ ·) := (List.isChain_append.mp ordered).1
    obtain ⟨sane', rate, last⟩ := sane.after before_ordered
    apply sane'.allow_of_accrued
    cases got : before.getLast? with
    | none =>
      obtain rfl := List.getLast?_eq_none_iff.mp got
      have first : start ≤ now := (List.isChain_cons_cons.mp ordered).1
      exact le_add_of_le_of_nonneg sane.max_ge_one (sane.accrual_nonneg first)
    | some previous =>
      rw [last previous got, rate]
      have gap : 1 / (maxPerSecond : K) ≤ now - previous := le_sub_iff_add_le'.mpr (waited previous got)
      have accrued : 1 ≤ (now - previous) * (maxPerSecond : K) := (div_le_iff₀ rate_pos).mp gap
      exact le_add_of_nonneg_of_le sane'.tokens_nonneg accrued

theorem rateLimiter_bounds_three :
    ((newRateLimiter 1 (0 : ℚ)).allowedWithin 0 (0 + 1 / 2) [0, 1 / 4, 1 / 2] : ℚ) ≤ (1 : Int) + (1 : Int) * (1 / 2) :=
  (rateLimiter_bounds 1 le_rfl (0 : ℚ) [0, 1 / 4, 1 / 2] (by norm_num)).1 0 (1 / 2) (by norm_num)

example : (newRateLimiter 1 (0 : ℚ)).allowed [0, 1 / 4, 1 / 2, 1] = [0, 1] := by decide +kernel

end Otap.Flr
