import Mathlib.Algebra.Order.Ring.Rat
import Mathlib.Data.List.Sort
import Zbag.Lib.Transition

/-!
# Network — the rate limit of the exchange rates

`fetch_rates` asks for new rates at most every two minutes. A call checks the cool-down in one
critical section, stores its start in a second one, and takes it back in a third if the transport
fails closed. Calls run side by side; each lock, each read of the clock and each wait is a step.
-/

namespace ZbagRates

open Transition

/-! ## Data -/

inductive FiatCurrency
  | usd | eur | gbp | chf | cad | aud | jpy
  deriving DecidableEq, Repr

abbrev Instant := ℕ

structure ExchangeRate where
  currency : FiatCurrency
  price : ℚ
  fetchedAtMs : ℤ
  deriving DecidableEq, Repr

structure CachedRate where
  rates : List ExchangeRate
  fetchedAt : Instant
  deriving DecidableEq, Repr

inductive HttpClientError
  | failClosed (error : String)
  | other (error : String)
  deriving DecidableEq, Repr

inductive ExchangeRateError
  | httpError (error : HttpClientError)
  | parseError (error : String)
  | rateLimited (secs : ℕ)
  | notAvailable
  deriving DecidableEq, Repr

/-- An error of the conversion, or the prices if there are any. -/
structure JsonResponse where
  status : ℕ
  retryAfter : Option ℕ
  body : Except String (Option (FiatCurrency → Option ℚ))

/-! ## The call -/

def rateLimitSecs : ℕ := 120

/-- An attempt is the start of a call that is not forced, and the time stored before it. -/
inductive Pc
  | check
  /-- to return what is cached -/
  | limited (cooldown : ℕ)
  | passed
  | store (attemptedAt : Instant)
  | select (attempt : Option (Instant × Option Instant))
  | restore (attemptedAt : Instant) (prev : Option Instant) (error : String)
  | waiting
  | cache (rates : List ExchangeRate)
  | returned (result : Except ExchangeRateError (List ExchangeRate))
  deriving DecidableEq

structure Call where
  force : Bool
  pc : Pc
  deriving DecidableEq

/-- `reached`: the starts of the calls whose request has reached the transport, latest first. -/
structure Service where
  clock : Instant
  lastFetch : Option Instant
  cached : Option CachedRate
  reached : List Instant
  deriving DecidableEq

/-- `refresh_cooldown_secs`. -/
def cooldownSecs (s : Service) : ℕ :=
  match s.lastFetch with
  | some t => rateLimitSecs - (s.clock - t) / 1000000000
  | none => 0

inductive Answer
  | proceed
  /-- the transport fails closed -/
  | failClosed (error : String)
  | response (result : Except String JsonResponse) (nowMs : ℤ)

def pushRates (nowMs : ℤ) (prices : FiatCurrency → Option ℚ) : List ExchangeRate :=
  [FiatCurrency.usd, .eur, .gbp, .chf, .cad, .aud, .jpy].filterMap fun currency =>
    (prices currency).map fun price => ⟨currency, price, nowMs⟩

/-- What becomes of a request. -/
def readResponse (nowMs : ℤ) :
    Except String JsonResponse → Except ExchangeRateError (List ExchangeRate)
  | .error error => .error (.httpError (.other error))
  | .ok response =>
    if response.status = 429 then .error (.rateLimited (response.retryAfter.getD 60))
    else if response.status ≠ 200 then
      .error (.parseError ("API returned status " ++ toString response.status))
    else
      match response.body with
      | .error error => .error (.parseError error)
      | .ok none => .error .notAvailable
      | .ok (some prices) => .ok (pushRates nowMs prices)

def fetchStep (s : Service) (force : Bool) : Pc → Answer → Option (Service × Pc)
  | .check, .proceed =>
    some (s, if 0 < cooldownSecs s ∧ force = false then .limited (cooldownSecs s)
      else if force then .select none else .passed)
  | .limited cooldown, .proceed =>
    some (s, .returned (s.cached.elim (.error (.rateLimited cooldown)) fun cached =>
      .ok cached.rates))
  | .passed, .proceed => some (s, .store s.clock)
  | .store attemptedAt, .proceed =>
    some ({ s with lastFetch := some attemptedAt }, .select (some (attemptedAt, s.lastFetch)))
  | .select attempt, .proceed =>
    some ({ s with reached := (attempt.map Prod.fst).toList ++ s.reached }, .waiting)
  | .select none, .failClosed error =>
    some (s, .returned (.error (.httpError (.failClosed error))))
  | .select (some (attemptedAt, prev)), .failClosed error =>
    some (s, .restore attemptedAt prev error)
  | .restore attemptedAt prev error, .proceed =>
    some ({ s with lastFetch := if s.lastFetch = some attemptedAt then prev else s.lastFetch },
      .returned (.error (.httpError (.failClosed error))))
  | .waiting, .response result nowMs =>
    match readResponse nowMs result with
    | .error error => some (s, .returned (.error error))
    | .ok rates => some (s, .cache rates)
  | .cache rates, .proceed =>
    some ({ s with cached := some ⟨rates, s.clock⟩ }, .returned (.ok rates))
  | _, _ => none

/-! ## The system -/

structure Rates where
  service : Service
  calls : List Call
  deriving DecidableEq

inductive Action
  | tick (n : ℕ)
  | call (force : Bool)
  | step (i : ℕ) (answer : Answer)

def Rates.step (s : Rates) : Action → Option Rates
  | .tick n => some { s with service := { s.service with clock := s.service.clock + n } }
  | .call force => some { s with calls := s.calls ++ [⟨force, .check⟩] }
  | .step i answer =>
    s.calls[i]?.bind fun c =>
      (fetchStep s.service c.force c.pc answer).map fun (service, pc) =>
        ⟨service, s.calls.set i { c with pc }⟩

/-- **All interleavings** of calls of `fetch_rates`, from a service without rates. -/
def rates : System Rates Action where
  init s := s.service.lastFetch = none ∧ s.service.cached = none ∧ s.service.reached = [] ∧
    s.calls = []
  step := Rates.step

/-! ## What a step can do -/

/-- The call has passed its check, and its request has not reached the transport. -/
def Pc.attempting : Pc → Bool
  | .passed | .store _ | .select (some _) | .restore .. => true
  | .check | .limited _ | .select none | .waiting | .cache _ | .returned _ => false

def Pc.isReturned : Pc → Bool
  | .returned _ => true
  | _ => false

variable {pc : Pc} {s s' : Service} {force : Bool} {pc' : Pc}

theorem Pc.not_attempting_of_isReturned (h : pc.isReturned = true) : pc.attempting = false := by
  cases pc <;> first | rfl | cases h

inductive Moves (s : Service) (force : Bool) : Pc → Service → Pc → Prop
  | pass (hforce : force = false) (hcooldown : cooldownSecs s = 0) : Moves s force .check s .passed
  | now : Moves s force .passed s (.store s.clock)
  | store (t : Instant) :
      Moves s force (.store t) { s with lastFetch := some t } (.select (some (t, s.lastFetch)))
  | reach (t : Instant) (prev : Option Instant) :
      Moves s force (.select (some (t, prev))) { s with reached := t :: s.reached } .waiting
  | fail (t : Instant) (prev : Option Instant) (error : String) :
      Moves s force (.select (some (t, prev))) s (.restore t prev error)
  | restore (t : Instant) (prev : Option Instant) (error : String)
      (result : Except ExchangeRateError (List ExchangeRate)) :
      Moves s force (.restore t prev error)
        { s with lastFetch := if s.lastFetch = some t then prev else s.lastFetch }
        (.returned result)
  | aside {pc pc' : Pc} (cached : Option CachedRate) (hpc : pc.attempting = false)
      (hpc' : pc'.attempting = false) : Moves s force pc { s with cached } pc'

/-- **Everything a step can do.** -/
theorem fetchStep_moves {answer : Answer} (h : fetchStep s force pc answer = some (s', pc')) :
    Moves s force pc s' pc' := by
  unfold fetchStep at h
  split at h
  · cases h
    split_ifs with hcooldown hforce
    · exact .aside s.cached rfl rfl
    · exact .aside s.cached rfl rfl
    · rw [Bool.not_eq_true] at hforce
      exact .pass hforce (by simpa [hforce] using hcooldown)
  · cases h
    exact .aside s.cached rfl rfl
  · cases h
    exact .now
  · cases h
    exact .store _
  · cases h
    rename_i attempt
    cases attempt with
    | none => exact .aside s.cached rfl rfl
    | some attempt => exact .reach attempt.1 attempt.2
  · cases h
    exact .aside s.cached rfl rfl
  · cases h
    exact .fail ..
  · cases h
    exact .restore ..
  · split at h
    · cases h
      exact .aside s.cached rfl rfl
    · cases h
      exact .aside s.cached rfl rfl
  · cases h
    exact .aside _ rfl rfl
  · cases h

/-! ## The invariant -/

/-- `RATE_LIMIT_SECS` on the clock. -/
def rateLimit : ℕ := rateLimitSecs * 1000000000

def Ready (reached : List Instant) (t : Instant) : Prop :=
  ∀ last ∈ reached.head?, last + rateLimit ≤ t

/-- A cool-down lies between two requests. -/
def Apart (reached : List Instant) : Prop :=
  reached.Pairwise fun later earlier => earlier + rateLimit ≤ later

/-- The stored time is the latest request, or the start of the attempt. -/
def Fits (s : Service) : Pc → Prop
  | .passed => s.lastFetch = s.reached.head? ∧ Ready s.reached s.clock
  | .store t => s.lastFetch = s.reached.head? ∧ Ready s.reached t
  | .select (some (t, prev)) =>
    s.lastFetch = some t ∧ prev = s.reached.head? ∧ Ready s.reached t
  | .restore t prev _ => s.lastFetch = some t ∧ prev = s.reached.head?
  | .check | .limited _ | .select none | .waiting | .cache _ | .returned _ => True

theorem fits_of_not_attempting (h : pc.attempting = false) : Fits s pc := by
  cases pc with
  | select attempt =>
    cases attempt with
    | none => trivial
    | some attempt => cases h
  | passed | store | restore => cases h
  | check | limited | waiting | cache | returned => trivial

/-- The check of the cool-down. -/
theorem ready_of_cooldown (hcooldown : cooldownSecs s = 0) (hlast : s.lastFetch = s.reached.head?) :
    Ready s.reached s.clock := by
  intro last hmem
  have hsecs : rateLimitSecs ≤ (s.clock - last) / 1000000000 := by
    simp only [cooldownSecs, hlast, Option.mem_def.mp hmem] at hcooldown
    exact Nat.sub_eq_zero_iff_le.mp hcooldown
  have hns : rateLimit ≤ s.clock - last :=
    (Nat.le_div_iff_mul_le (Nat.succ_pos _)).mp hsecs
  have hpos : 0 < rateLimit := Nat.mul_pos (Nat.succ_pos _) (Nat.succ_pos _)
  have hle : last ≤ s.clock := by
    by_contra hlt
    rw [Nat.sub_eq_zero_of_le (Nat.le_of_not_le hlt)] at hns
    exact Nat.not_le_of_lt hpos hns
  exact Nat.add_le_of_le_sub' hle hns

theorem apart_cons {reached : List Instant} (h : Apart reached) {t : Instant}
    (ht : Ready reached t) : Apart (t :: reached) := by
  refine List.pairwise_cons.mpr ⟨fun earlier hmem => ?_, h⟩
  cases reached with
  | nil => cases hmem
  | cons last reached =>
    have hlast : last + rateLimit ≤ t := ht last rfl
    cases hmem with
    | head => exact hlast
    | tail _ hmem =>
      have hold : earlier + rateLimit ≤ last := (List.pairwise_cons.mp h).1 earlier hmem
      exact hold.trans ((Nat.le_add_right _ _).trans hlast)

theorem attempt_moves (h : Moves s force pc s' pc') (hpc : pc.attempting = true) (hfits : Fits s pc)
    (hapart : Apart s.reached) :
    Apart s'.reached ∧ Fits s' pc' ∧
      (pc'.attempting = false → s'.lastFetch = s'.reached.head?) := by
  cases h with
  | pass => cases hpc
  | now => exact ⟨hapart, hfits, nofun⟩
  | store t => exact ⟨hapart, ⟨rfl, hfits.1, hfits.2⟩, nofun⟩
  | reach t prev =>
    obtain ⟨hlast, -, hready⟩ := hfits
    exact ⟨apart_cons hapart hready, trivial, fun _ => hlast⟩
  | fail t prev error => exact ⟨hapart, ⟨hfits.1, hfits.2.1⟩, nofun⟩
  | restore t prev error result =>
    obtain ⟨hlast, hprev⟩ := hfits
    refine ⟨hapart, trivial, fun _ => ?_⟩
    show (if s.lastFetch = some t then prev else s.lastFetch) = s.reached.head?
    rw [if_pos hlast, hprev]
  | aside cached hnot => cases hnot.symm.trans hpc

theorem other_moves (h : Moves s force pc s' pc') (hpc : pc.attempting = false) :
    (force = false ∧ pc = .check ∧ cooldownSecs s = 0) ∧ pc' = .passed ∧ s' = s ∨
      pc'.attempting = false ∧ ∃ cached, s' = { s with cached } := by
  cases h with
  | pass hforce hcooldown => exact .inl ⟨⟨hforce, rfl, hcooldown⟩, rfl, rfl⟩
  | aside cached _ hpc' => exact .inr ⟨hpc', cached, rfl⟩
  | now | store | reach | fail | restore => cases hpc

/-- At most one call is in an attempt; without one, the stored time is the latest request. -/
structure Inv (s : Rates) : Prop where
  apart : Apart s.service.reached
  unique : ∀ (i j : ℕ) (c d : Call), s.calls[i]? = some c → s.calls[j]? = some d →
    c.pc.attempting = true → d.pc.attempting = true → i = j
  fits : ∀ (i : ℕ) (c : Call), s.calls[i]? = some c → Fits s.service c.pc
  idle : (∀ c ∈ s.calls, c.pc.attempting = false) → s.service.lastFetch = s.service.reached.head?

/-- A call passes its check while no other one is in an attempt. -/
def Alone (s : Rates) : Action → Prop
  | .step i _ => ∀ c ∈ s.calls[i]?, c.force = false → c.pc = .check → cooldownSecs s.service = 0 →
    ∀ d ∈ s.calls, d.pc.attempting = false
  | .tick _ | .call _ => True

instance (s : Rates) : (a : Action) → Decidable (Alone s a)
  | .step i _ => inferInstanceAs (Decidable (∀ c ∈ s.calls[i]?, _ → _ → _ → ∀ d ∈ s.calls, _))
  | .tick _ => isTrue trivial
  | .call _ => isTrue trivial

theorem getElem?_set_cases {calls : List Call} {i j : ℕ} {c d : Call}
    (h : (calls.set i c)[j]? = some d) : j = i ∧ d = c ∨ j ≠ i ∧ calls[j]? = some d := by
  by_cases hj : j = i
  · subst hj
    rw [List.getElem?_set_self'] at h
    obtain ⟨e, -, rfl⟩ := Option.map_eq_some_iff.mp h
    exact .inl ⟨rfl, rfl⟩
  · rw [List.getElem?_set_ne (Ne.symm hj)] at h
    exact .inr ⟨hj, h⟩

theorem getElem?_snoc_cases {calls : List Call} {j : ℕ} {c d : Call}
    (h : (calls ++ [c])[j]? = some d) : calls[j]? = some d ∨ d = c := by
  rw [List.getElem?_append] at h
  split_ifs at h
  · exact .inl h
  · exact .inr (List.mem_singleton.mp (List.mem_of_getElem? h))

theorem fits_later (h : Fits s pc) (hclock : s.clock ≤ s'.clock)
    (hlast : s'.lastFetch = s.lastFetch) (hreached : s'.reached = s.reached) : Fits s' pc := by
  cases pc with
  | passed =>
    rw [Fits, hlast, hreached]
    exact ⟨h.1, fun last hmem => (h.2 last hmem).trans hclock⟩
  | store t =>
    rw [Fits, hlast, hreached]
    exact h
  | select attempt =>
    cases attempt with
    | none => trivial
    | some attempt =>
      rw [Fits, hlast, hreached]
      exact h
  | restore t prev error =>
    rw [Fits, hlast, hreached]
    exact h
  | check | limited | waiting | cache | returned => trivial

section Step

variable {s : Rates} {i : ℕ} {c : Call} {service : Service} {pc : Pc}

theorem inv_attempt (hs : Inv s) (hc : s.calls[i]? = some c) (hpc : c.pc.attempting = true)
    (hmove : Moves s.service c.force c.pc service pc) :
    Inv ⟨service, s.calls.set i { c with pc }⟩ := by
  obtain ⟨hapart, hfits, hidle⟩ := attempt_moves hmove hpc (hs.fits i c hc) hs.apart
  have hothers : ∀ j d, s.calls[j]? = some d → j ≠ i → d.pc.attempting = false := by
    intro j d hd hne
    rw [← Bool.not_eq_true]
    exact fun hatt => hne (hs.unique j i d c hd hc hatt hpc)
  refine ⟨hapart, fun j k d e hd he hdatt heatt => ?_, fun j d hd => ?_, fun hnone => ?_⟩
  · -- both are the call that has moved
    have hmoved : ∀ j d, (s.calls.set i { c with pc })[j]? = some d → d.pc.attempting = true →
        j = i := by
      intro j d hd hatt
      obtain ⟨rfl, -⟩ | ⟨hne, hd⟩ := getElem?_set_cases hd
      · rfl
      · cases (hothers j d hd hne).symm.trans hatt
    rw [hmoved j d hd hdatt, hmoved k e he heatt]
  · obtain ⟨rfl, rfl⟩ | ⟨hne, hd⟩ := getElem?_set_cases hd
    · exact hfits
    · exact fits_of_not_attempting (hothers j d hd hne)
  · have hlt := (List.getElem?_eq_some_iff.mp hc).1
    exact hidle (hnone _ (List.mem_of_getElem? (List.getElem?_set_self hlt)))

theorem inv_other (hs : Inv s) (hc : s.calls[i]? = some c) (hpc : c.pc.attempting = false)
    (hpc' : pc.attempting = false) (cached : Option CachedRate) :
    Inv ⟨{ s.service with cached }, s.calls.set i { c with pc }⟩ := by
  have hold : ∀ (j : ℕ) (d : Call), (s.calls.set i { c with pc })[j]? = some d →
      d.pc.attempting = true → s.calls[j]? = some d := by
    intro j d hd hatt
    obtain ⟨-, rfl⟩ | ⟨-, hd⟩ := getElem?_set_cases hd
    · cases hpc'.symm.trans hatt
    · exact hd
  refine ⟨hs.apart, fun j k d e hd he hdatt heatt => ?_, fun j d hd => ?_, fun hnone => ?_⟩
  · exact hs.unique j k d e (hold j d hd hdatt) (hold k e he heatt) hdatt heatt
  · obtain ⟨-, rfl⟩ | ⟨-, hd⟩ := getElem?_set_cases hd
    · exact fits_of_not_attempting hpc'
    · exact fits_later (hs.fits j d hd) le_rfl rfl rfl
  · refine hs.idle fun d hd => ?_
    obtain ⟨j, hj⟩ := List.mem_iff_getElem?.mp hd
    by_cases hne : j = i
    · subst hne
      rw [hc] at hj
      rw [← Option.some.inj hj]
      exact hpc
    · exact hnone d (List.mem_of_getElem? ((List.getElem?_set_ne (Ne.symm hne)).trans hj))

theorem inv_pass (hs : Inv s) (hnone : ∀ d ∈ s.calls, d.pc.attempting = false)
    (hcooldown : cooldownSecs s.service = 0) :
    Inv ⟨s.service, s.calls.set i { c with pc := .passed }⟩ := by
  have hlast := hs.idle hnone
  have hmoved : ∀ j d, (s.calls.set i { c with pc := .passed })[j]? = some d →
      d.pc.attempting = true → j = i := by
    intro j d hd hatt
    obtain ⟨rfl, -⟩ | ⟨-, hd⟩ := getElem?_set_cases hd
    · rfl
    · cases (hnone d (List.mem_of_getElem? hd)).symm.trans hatt
  refine ⟨hs.apart, fun j k d e hd he hdatt heatt => ?_, fun j d hd => ?_, fun _ => hlast⟩
  · rw [hmoved j d hd hdatt, hmoved k e he heatt]
  · obtain ⟨-, rfl⟩ | ⟨-, hd⟩ := getElem?_set_cases hd
    · exact ⟨hlast, ready_of_cooldown hcooldown hlast⟩
    · exact fits_of_not_attempting (hnone d (List.mem_of_getElem? hd))

end Step

theorem inv_step {s t : Rates} {a : Action} (hs : Inv s) (halone : Alone s a)
    (hstep : s.step a = some t) : Inv t := by
  cases a with
  | tick n =>
    cases hstep
    refine ⟨hs.apart, hs.unique, fun i c hc => ?_, hs.idle⟩
    exact fits_later (hs.fits i c hc) (Nat.le_add_right _ _) rfl rfl
  | call force =>
    cases hstep
    have hold : ∀ (j : ℕ) (d : Call), (s.calls ++ [⟨force, .check⟩])[j]? = some d →
        d.pc.attempting = true → s.calls[j]? = some d := by
      intro j d hd hatt
      obtain hd | rfl := getElem?_snoc_cases hd
      · exact hd
      · cases hatt
    refine ⟨hs.apart, fun j k d e hd he hdatt heatt => ?_, fun j d hd => ?_, fun hnone => ?_⟩
    · exact hs.unique j k d e (hold j d hd hdatt) (hold k e he heatt) hdatt heatt
    · obtain hd | rfl := getElem?_snoc_cases hd
      · exact hs.fits j d hd
      · trivial
    · exact hs.idle fun d hd => hnone d (List.mem_append_left _ hd)
  | step i answer =>
    obtain ⟨c, hc, hstep⟩ := Option.bind_eq_some_iff.mp hstep
    obtain ⟨⟨service, pc⟩, hmove, rfl⟩ := Option.map_eq_some_iff.mp hstep
    have hmoves := fetchStep_moves hmove
    cases hpc : c.pc.attempting with
    | true => exact inv_attempt hs hc hpc hmoves
    | false =>
      obtain ⟨⟨hforce, hcheck, hcooldown⟩, rfl, rfl⟩ | ⟨hpc', cached, rfl⟩ :=
        other_moves hmoves hpc
      · exact inv_pass hs (halone c hc hforce hcheck hcooldown) hcooldown
      · exact inv_other hs hc hpc hpc' cached

theorem inv_reach {s : Rates} (h : Reach rates Alone s) : Inv s := by
  refine h.invariant (I := Inv) (fun s hs => ?_)
    fun _ _ _ hs halone hstep => inv_step hs halone hstep
  obtain ⟨hlast, -, hreached, hcalls⟩ := hs
  refine ⟨?_, fun i j c d hc => ?_, fun i c hc => ?_, fun _ => ?_⟩
  · rw [hreached]
    exact List.Pairwise.nil
  · rw [hcalls] at hc
    cases hc
  · rw [hcalls] at hc
    cases hc
  · rw [hlast, hreached]
    rfl

/-! ## The rate limit -/

theorem max?_of_apart {reached : List Instant} (h : Apart reached) :
    reached.max? = reached.head? := by
  cases reached with
  | nil => rfl
  | cons last reached =>
    refine List.max?_eq_some_iff.mpr ⟨List.mem_cons_self, fun t ht => ?_⟩
    cases ht with
    | head => exact le_rfl
    | tail _ ht => exact (Nat.le_add_right _ _).trans ((List.pairwise_cons.mp h).1 t ht)

/-- **The rate limit is kept** if calls pass their check one at a time, and the stored time is the
start of the latest request. -/
theorem rate_limit_kept (s : Rates) (h : Reach rates Alone s) :
    (s.service.reached.Pairwise fun t t' => t + rateLimit ≤ t' ∨ t' + rateLimit ≤ t) ∧
      ((∀ c ∈ s.calls, c.pc.isReturned = true) →
        s.service.lastFetch = s.service.reached.max?) := by
  have hs := inv_reach h
  refine ⟨hs.apart.imp .inr, fun hreturned => ?_⟩
  rw [max?_of_apart hs.apart]
  exact hs.idle fun c hc => Pc.not_attempting_of_isReturned (hreturned c hc)

def newService : Rates := ⟨⟨0, none, none, []⟩, []⟩

def attempt (i : ℕ) : List Action := List.replicate 4 (Action.step i .proceed)

/-- Both calls pass the check before one of them has stored its time. -/
theorem rate_limit_broken :
    (∃ s, Reach rates Free s ∧ s.service.reached = [0, 0]) ∧
    ∃ s, Reach rates Free s ∧ (∀ c ∈ s.calls, c.pc.isReturned = true) ∧
      s.service.lastFetch = some 0 ∧ s.service.reached = [] := by
  constructor
  · exact exec_reach (S := rates) (G := Free) (s := newService)
      (p := fun s => s.service.reached = [0, 0])
      ([Action.call false, .call false, .step 0 .proceed] ++ (attempt 1 ++
        [Action.step 0 .proceed, .step 0 .proceed, .step 0 .proceed]))
      ⟨rfl, rfl, rfl, rfl⟩ (along_free _ _) (by decide +kernel)
  · exact exec_reach (S := rates) (G := Free) (s := newService)
      (p := fun s => (∀ c ∈ s.calls, c.pc.isReturned = true) ∧ s.service.lastFetch = some 0 ∧
        s.service.reached = [])
      ([Action.call false, .call false, .step 0 .proceed, .step 1 .proceed] ++
        ([Action.step 0 .proceed, .step 0 .proceed, .tick 1, .step 1 .proceed, .step 1 .proceed] ++
          [Action.step 0 (.failClosed "tor"), .step 0 .proceed, .step 1 (.failClosed "tor"),
            .step 1 .proceed]))
      ⟨rfl, rfl, rfl, rfl⟩ (along_free _ _) (by decide +kernel)

theorem rate_limit_kept_run : ∃ s, Reach rates Alone s ∧
    s.service.reached = [120000000000, 0] ∧ s.service.lastFetch = s.service.reached.max? := by
  obtain ⟨s, hs, hreached, hreturned⟩ := exec_reach (S := rates) (G := Alone) (s := newService)
    (p := fun s => s.service.reached = [120000000000, 0] ∧ ∀ c ∈ s.calls, c.pc.isReturned = true)
    ([Action.call false] ++ (attempt 0 ++
      ([Action.step 0 (.response (.error "timeout") 0), .tick 120000000000, .call false] ++
        (attempt 1 ++ [Action.step 1 (.response (.error "timeout") 0)]))))
    ⟨rfl, rfl, rfl, rfl⟩ (by decide +kernel) (by decide +kernel)
  exact ⟨s, hs, hreached, (rate_limit_kept s hs).2 hreturned⟩

end ZbagRates
