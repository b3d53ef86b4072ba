import Zbag.Lib.Table
import Zbag.Net.Rates

/-!
# App — the fiat display

`useFiatDisplay` holds the settings and an exchange rate. Its functions ask the backend and put the
answers into the state when they arrive. A rate is meant to be of the selected currency; a request
that was answered before the currency was changed may still arrive after that. Timers and events may
fire whenever their effect is in place.
-/

namespace ZbagFiat

open Transition
open ZbagRates (FiatCurrency)

/-! ## State -/

structure FiatDisplaySettings where
  enabled : Bool
  currency : FiatCurrency
  privacyAcknowledged : Bool
  deriving DecidableEq, Repr

structure ExchangeRate where
  currency : FiatCurrency
  price : ℚ
  fetchedAtMs : ℕ
  deriving DecidableEq, Repr

structure FiatDisplayState where
  settings : Option FiatDisplaySettings
  rate : Option ExchangeRate
  isStale : Bool
  refreshCooldownSecs : ℕ
  loading : Bool
  error : Option String
  refreshError : Option String
  retryAttempt : ℕ
  deriving DecidableEq, Repr

def FiatDisplayState.initial : FiatDisplayState := ⟨none, none, true, 0, true, none, none, 0⟩

def FiatDisplayState.enabled (d : FiatDisplayState) : Bool :=
  (d.settings.map FiatDisplaySettings.enabled).getD false

structure RateResponse where
  rate : Option ExchangeRate
  isStale : Bool
  refreshCooldownSecs : ℕ
  deriving DecidableEq, Repr

inductive Reply (α : Type)
  | ok (a : α)
  | err (message : String)
  | threw (message : String)
  deriving DecidableEq, Repr

def receiveRate (reply : Reply RateResponse) (prev : FiatDisplayState) : FiatDisplayState :=
  match reply with
  | .err message | .threw message =>
    { prev with
      rate := none, isStale := true, refreshError := some message
      retryAttempt := prev.retryAttempt + 1 }
  | .ok res =>
    match res.rate with
    | some rate =>
      { prev with
        rate := some rate, isStale := res.isStale
        refreshCooldownSecs := res.refreshCooldownSecs, refreshError := none, retryAttempt := 0 }
    | none =>
      { prev with
        -- a rate of the selected currency is kept
        rate := prev.rate.filter fun rate =>
          prev.settings.any fun settings => rate.currency = settings.currency
        isStale := true
        refreshCooldownSecs := res.refreshCooldownSecs
        refreshError :=
          if 0 < res.refreshCooldownSecs then
            some ("Exchange rate temporarily unavailable. Retry in " ++
              toString res.refreshCooldownSecs ++ "s.")
          else some "Exchange rate temporarily unavailable."
        retryAttempt := prev.retryAttempt + 1 }

def switchOff (prev : FiatDisplayState) : FiatDisplayState :=
  { prev with
    rate := none, isStale := true, refreshCooldownSecs := 0, refreshError := none
    retryAttempt := 0, loading := false }

/-! ## Calls -/

/-- Where `loadSettings` or `updateSettings` is. -/
inductive SettingsPc
  | asking
  | answered (reply : Reply FiatDisplaySettings)
  | fetching
  | fetched (reply : Reply RateResponse)
  | finishing
  | returned
  deriving DecidableEq, Repr

inductive FetchPc
  | fetching
  | fetched (reply : Reply RateResponse)
  | returned
  deriving DecidableEq, Repr

inductive Call
  | settings (request : Option FiatDisplaySettings) (pc : SettingsPc)
  /-- with the signal of an effect, or without one -/
  | fetchRate (signal : Option ℕ) (pc : FetchPc)
  deriving DecidableEq, Repr

/-- The effects of the hook. -/
inductive Timer
  | periodic
  | retry
  | tor
  deriving DecidableEq, Repr

def Timer.wanted (t : Timer) (d : FiatDisplayState) : Bool :=
  match t with
  | periodic => d.enabled
  | retry | tor => d.enabled && d.rate.isNone

/-- The dependencies have changed. -/
def Timer.changed (t : Timer) (d d' : FiatDisplayState) : Bool :=
  match t with
  | periodic => d.enabled != d'.enabled
  | retry => d.enabled != d'.enabled || d.rate != d'.rate ||
    d.refreshCooldownSecs != d'.refreshCooldownSecs || d.retryAttempt != d'.retryAttempt
  | tor => d.enabled != d'.enabled || d.rate != d'.rate

/-- An abort controller is a number. -/
structure App where
  display : FiatDisplayState
  stored : FiatDisplaySettings
  calls : List Call
  rendered : FiatDisplayState
  signal : Timer → Option ℕ
  aborted : ℕ → Bool
  controllers : ℕ

def App.rerun (s : App) (t : Timer) : App :=
  if t.changed s.rendered s.display then
    { s with
      aborted := fun c => s.aborted c || s.signal t == some c
      signal := Function.update s.signal t
        (if t.wanted s.display then some s.controllers else none)
      controllers := s.controllers + 1 }
  else s

def App.render (s : App) : App :=
  let s' := [Timer.periodic, .retry, .tor].foldl App.rerun s
  { s' with rendered := s.display }

inductive Outcome
  | works (price : Option (ℚ × ℕ)) (isStale : Bool) (cooldown : ℕ)
  | err (message : String)
  | threw (message : String)
  deriving DecidableEq, Repr

inductive Action
  | loadSettings
  | updateSettings (request : FiatDisplaySettings)
  | refreshRate
  | fire (t : Timer)
  | handle (i : ℕ) (outcome : Outcome)
  | receive (i : ℕ)
  | render
  deriving DecidableEq, Repr

def App.addCall (s : App) (c : Call) : App := { s with calls := s.calls ++ [c] }

def App.setCall (s : App) (i : ℕ) (c : Call) : App := { s with calls := s.calls.set i c }

def App.isAborted (s : App) (signal : Option ℕ) : Bool := signal.any s.aborted

def App.settingsReply (s : App) : Outcome → Reply FiatDisplaySettings
  | .works _ _ _ => .ok s.stored
  | .err message => .err message
  | .threw message => .threw message

/-- Of the currency stored when the request is handled. -/
def App.rateReply (s : App) : Outcome → Reply RateResponse
  | .works price isStale cooldown =>
    .ok ⟨price.map fun p => ⟨s.stored.currency, p.1, p.2⟩, isStale, cooldown⟩
  | .err message => .err message
  | .threw message => .threw message

def App.store (s : App) (request : Option FiatDisplaySettings) : Outcome → App
  | .works _ _ _ => { s with stored := request.getD s.stored }
  | _ => s

def App.handle (s : App) (i : ℕ) (outcome : Outcome) : Call → Option App
  | .settings request .asking =>
    let s := s.store request outcome
    some (s.setCall i (.settings request (.answered (s.settingsReply outcome))))
  | .settings request .fetching =>
    some (s.setCall i (.settings request (.fetched (s.rateReply outcome))))
  | .fetchRate signal .fetching =>
    some (s.setCall i (.fetchRate signal (.fetched (s.rateReply outcome))))
  | _ => none

def App.receive (s : App) (i : ℕ) : Call → Option App
  | .settings request (.answered (.ok settings)) =>
    let shown := { s.display with settings := some settings, error := none }
    -- `loadSettings` looks at the answer, `updateSettings` at its argument
    if (request.getD settings).enabled then
      some { s.setCall i (.settings request .fetching) with display := shown }
    else some { s.setCall i (.settings request .returned) with display := switchOff shown }
  | .settings request (.answered (.err message)) | .settings request (.answered (.threw message)) =>
    some { s.setCall i (.settings request .returned) with
      display := { s.display with error := some message, loading := false } }
  | .settings request (.fetched reply) =>
    some { s.setCall i (.settings request .finishing) with display := receiveRate reply s.display }
  | .settings request .finishing =>
    some { s.setCall i (.settings request .returned) with
      display := { s.display with loading := false } }
  | .fetchRate signal (.fetched reply) =>
    some { s.setCall i (.fetchRate signal .returned) with
      display := if s.isAborted signal then s.display else receiveRate reply s.display }
  | _ => none

def step (s : App) : Action → Option App
  | .loadSettings =>
    some { s.addCall (.settings none .asking) with display := { s.display with loading := true } }
  | .updateSettings request =>
    some { s.addCall (.settings (some request) .asking) with
      display := { s.display with loading := true, error := none } }
  | .refreshRate => some (s.addCall (.fetchRate none .fetching))
  | .fire t => (s.signal t).map fun signal => s.addCall (.fetchRate (some signal) .fetching)
  | .handle i outcome => s.calls[i]?.bind (s.handle i outcome)
  | .receive i => s.calls[i]?.bind (s.receive i)
  | .render => some s.render

def App.mounted (stored : FiatDisplaySettings) : App :=
  ⟨.initial, stored, [.settings none .asking], .initial, fun _ => none, fun _ => false, 0⟩

def hook : System App Action where
  init s := ∃ stored, s = .mounted stored
  step := step

/-! ## The rate and the settings -/

def FiatDisplayState.Fits (d : FiatDisplayState) : Prop :=
  ∀ settings ∈ d.settings, ∀ rate ∈ d.rate, rate.currency = settings.currency

/-- It has not returned. -/
def Call.changing : Call → Bool
  | .settings _ pc => pc != .returned
  | .fetchRate _ _ => false

/-- The settings are in the state, and their rate has not arrived. -/
def Call.settling : Call → Bool
  | .settings _ (.fetching) | .settings _ (.fetched _) => true
  | _ => false

def Call.arriving (s : App) : Call → Option ExchangeRate
  | .settings _ (.fetched (.ok res)) => res.rate
  | .fetchRate signal (.fetched (.ok res)) => if s.isAborted signal then none else res.rate
  | _ => none

/-- **The condition**: changes of the settings do not overlap, and rates are of the selected
currency. -/
def Orderly (s : App) : Action → Prop
  | .loadSettings | .updateSettings _ => ∀ c ∈ s.calls, c.changing = false
  | .receive i => ∀ c ∈ s.calls[i]?, ∀ rate ∈ c.arriving s, ∀ settings ∈ s.display.settings,
    rate.currency = settings.currency
  | _ => True

instance (s : App) : (a : Action) → Decidable (Orderly s a)
  | .loadSettings | .updateSettings _ => inferInstanceAs (Decidable (∀ c ∈ s.calls, _))
  | .receive i => inferInstanceAs (Decidable (∀ c ∈ s.calls[i]?, ∀ rate ∈ c.arriving s,
      ∀ settings ∈ s.display.settings, _))
  | .refreshRate | .fire _ | .handle _ _ | .render => isTrue trivial

structure Inv (s : App) : Prop where
  fits : s.display.Fits ∨ 0 < s.calls.countP Call.settling
  loading : 0 < s.calls.countP Call.changing → s.display.loading = true
  single : s.calls.countP Call.changing ≤ 1

variable {s t : App} {i : ℕ} {c : Call} {d : FiatDisplayState}

theorem Inv.good (h : Inv s) (hloading : s.display.loading = false) : s.display.Fits := by
  refine h.fits.resolve_right fun hsettling => ?_
  have hle : s.calls.countP Call.settling ≤ s.calls.countP Call.changing := by
    refine List.countP_mono_left fun c _ hc => ?_
    unfold Call.settling at hc
    split at hc
    · rfl
    · rfl
    · cases hc
  exact absurd (h.loading (by omega)) (by simp [hloading])

theorem fits_receiveRate {reply : Reply RateResponse}
    (h : ∀ res, reply = .ok res → ∀ rate ∈ res.rate, ∀ settings ∈ d.settings,
      rate.currency = settings.currency) : (receiveRate reply d).Fits := by
  unfold receiveRate
  split
  · exact nofun
  · exact nofun
  · rename_i res
    split
    · rename_i rate hrate
      intro settings hsettings rate' hrate'
      obtain rfl := Option.some.inj hrate'
      exact h res rfl rate hrate settings hsettings
    · intro settings hsettings rate hrate
      obtain ⟨-, hany⟩ := Option.filter_eq_some_iff.mp hrate
      have hsettings : d.settings = some settings := hsettings
      simpa [hsettings] using hany

/-- A call goes on. -/
theorem Inv.set {c' : Call} (h : Inv s) (hc : s.calls[i]? = some c)
    (hcalls : t.calls = s.calls.set i c') (hchanging : c'.changing = true → c.changing = true)
    (hfits : t.display.Fits ∨ c'.settling = true ∨
      c.settling = false ∧ (s.display.Fits → t.display.Fits))
    (hloading : t.display.loading = s.display.loading ∨
      c.changing = true ∧ c'.changing = false) : Inv t := by
  have hchange := Table.countP_set_add (b := c') Call.changing hc
  have hsettle := Table.countP_set_add (b := c') Call.settling hc
  have hsingle := h.single
  have hle : (if c'.changing = true then 1 else 0) ≤ if c.changing = true then 1 else 0 := by
    split_ifs with h₁ h₂
    · exact Nat.le_refl 1
    · exact absurd (hchanging h₁) h₂
    · exact Nat.zero_le 1
    · exact Nat.le_refl 0
  rw [← hcalls] at hchange hsettle
  refine ⟨?_, fun hpos => ?_, by omega⟩
  · rcases hfits with hfits | hfits | ⟨hnot, hkeep⟩
    · exact .inl hfits
    · have hmem : c' ∈ t.calls := by
        rw [hcalls]
        exact List.mem_set (List.getElem?_eq_some_iff.mp hc).1 c'
      exact .inr (List.countP_pos_iff.mpr ⟨c', hmem, hfits⟩)
    · rw [hnot] at hsettle
      exact h.fits.imp hkeep fun hpos => by simp at hsettle; omega
  · rcases hloading with hloading | ⟨hbefore, hafter⟩
    · rw [hloading]
      exact h.loading (by omega)
    · rw [hbefore, hafter] at hchange
      simp at hchange
      omega

/-- A call starts. -/
theorem Inv.add (h : Inv s) (hcalls : t.calls = s.calls ++ [c])
    (hfits : s.display.Fits → t.display.Fits)
    (hchanging : c.changing = false ∧ t.display.loading = s.display.loading ∨
      t.display.loading = true ∧ ∀ c ∈ s.calls, c.changing = false) : Inv t := by
  refine ⟨?_, ?_, ?_⟩
  · rw [hcalls, List.countP_append]
    exact h.fits.imp hfits fun hpos => Nat.add_pos_left hpos _
  · rcases hchanging with ⟨hnot, hloading⟩ | ⟨hloading, -⟩
    · rw [hcalls, List.countP_append, hloading]
      simpa [hnot] using h.loading
    · exact fun _ => hloading
  · rw [hcalls, List.countP_append]
    rcases hchanging with ⟨hnot, -⟩ | ⟨-, hnone⟩
    · simpa [hnot] using h.single
    · rw [List.countP_eq_zero.mpr (by simpa using hnone), Nat.zero_add]
      exact List.countP_le_length

theorem loading_receiveRate (reply : Reply RateResponse) :
    (receiveRate reply d).loading = d.loading := by
  unfold receiveRate
  split
  · rfl
  · rfl
  · split
    · rfl
    · rfl

theorem inv_handle {outcome : Outcome} (h : Inv s) (hc : s.calls[i]? = some c)
    (ht : s.handle i outcome c = some t) : Inv t := by
  unfold App.handle at ht
  split at ht
  · cases ht
    cases outcome with
    | works | err | threw =>
      exact h.set hc rfl (fun _ => rfl) (.inr (.inr ⟨rfl, id⟩)) (.inl rfl)
  · cases ht
    exact h.set hc rfl (fun _ => rfl) (.inr (.inl rfl)) (.inl rfl)
  · cases ht
    exact h.set hc rfl nofun (.inr (.inr ⟨rfl, id⟩)) (.inl rfl)
  · cases ht

theorem inv_receive (h : Inv s) (hc : s.calls[i]? = some c) (hg : Orderly s (.receive i))
    (ht : s.receive i c = some t) : Inv t := by
  have hg := hg c hc
  unfold App.receive at ht
  split at ht
  · split_ifs at ht
    · cases ht
      exact h.set hc rfl (fun _ => rfl) (.inr (.inl rfl)) (.inl rfl)
    · cases ht
      exact h.set hc rfl nofun (.inl nofun) (.inr ⟨rfl, rfl⟩)
  · cases ht
    exact h.set hc rfl nofun (.inr (.inr ⟨rfl, id⟩)) (.inr ⟨rfl, rfl⟩)
  · cases ht
    exact h.set hc rfl nofun (.inr (.inr ⟨rfl, id⟩)) (.inr ⟨rfl, rfl⟩)
  · cases ht
    refine h.set hc rfl (fun _ => rfl) (.inl (fits_receiveRate ?_)) (.inl (loading_receiveRate _))
    rintro res rfl
    exact hg
  · cases ht
    exact h.set hc rfl nofun (.inr (.inr ⟨rfl, id⟩)) (.inr ⟨rfl, rfl⟩)
  · rename_i signal reply
    cases ht
    by_cases haborted : s.isAborted signal = true
    · refine h.set hc rfl nofun (.inr (.inr ⟨rfl, fun hfits => ?_⟩)) (.inl ?_)
      · simpa [haborted] using hfits
      · simp [haborted]
    · refine h.set hc rfl nofun (.inl ?_) (.inl ?_)
      · simp only [if_neg haborted]
        refine fits_receiveRate ?_
        rintro res rfl
        simpa [Call.arriving, haborted] using hg
      · simp only [if_neg haborted, loading_receiveRate]
  · cases ht

theorem render_eq (s : App) : s.render.display = s.display ∧ s.render.calls = s.calls := by
  have hrerun : ∀ (s : App) (t : Timer),
      (s.rerun t).display = s.display ∧ (s.rerun t).calls = s.calls := by
    intro s t
    by_cases h : t.changed s.rendered s.display = true
    · simp [App.rerun, h]
    · simp [App.rerun, h]
  have hfold : ∀ (ts : List Timer) (s : App),
      (ts.foldl App.rerun s).display = s.display ∧ (ts.foldl App.rerun s).calls = s.calls := by
    intro ts
    induction ts with
    | nil => exact fun s => ⟨rfl, rfl⟩
    | cons t ts ih =>
      intro s
      exact ⟨(ih _).1.trans (hrerun s t).1, (ih _).2.trans (hrerun s t).2⟩
  exact hfold _ s

theorem inv_step {a : Action} (h : Inv s) (hg : Orderly s a) (ht : step s a = some t) : Inv t := by
  cases a with
  | loadSettings | updateSettings =>
    cases ht
    exact h.add rfl id (.inr ⟨rfl, hg⟩)
  | refreshRate =>
    cases ht
    exact h.add rfl id (.inl ⟨rfl, rfl⟩)
  | fire timer =>
    obtain ⟨signal, -, rfl⟩ := Option.map_eq_some_iff.mp ht
    exact h.add rfl id (.inl ⟨rfl, rfl⟩)
  | handle i outcome =>
    obtain ⟨c, hc, ht⟩ := Option.bind_eq_some_iff.mp ht
    exact inv_handle h hc ht
  | receive i =>
    obtain ⟨c, hc, ht⟩ := Option.bind_eq_some_iff.mp ht
    exact inv_receive h hc hg ht
  | render =>
    cases ht
    obtain ⟨hdisplay, hcalls⟩ := render_eq s
    refine ⟨?_, ?_, ?_⟩
    · rw [hdisplay, hcalls]
      exact h.fits
    · rw [hdisplay, hcalls]
      exact h.loading
    · rw [hcalls]
      exact h.single

theorem inv_reach (h : Reach hook Orderly s) : Inv s := by
  refine h.invariant ?_ fun _ _ _ hs hg ht => inv_step hs hg ht
  rintro s ⟨stored, rfl⟩
  exact ⟨.inl (by simp [App.mounted, FiatDisplayState.Fits, FiatDisplayState.initial]),
    fun _ => rfl, Nat.le_refl 1⟩

theorem arrives {rate : ExchangeRate} (hc : s.calls[i]? = some c) (hrate : rate ∈ c.arriving s)
    (ht : step s (.receive i) = some t) : t.display.rate = some rate ∧
      t.display.loading = s.display.loading ∧ t.display.settings = s.display.settings := by
  obtain ⟨c', hc', ht⟩ := Option.bind_eq_some_iff.mp ht
  obtain rfl : c' = c := Option.some.inj (hc'.symm.trans hc)
  have hshown : ∀ res : RateResponse, res.rate = some rate →
      (receiveRate (.ok res) s.display).rate = some rate ∧
      (receiveRate (.ok res) s.display).loading = s.display.loading ∧
      (receiveRate (.ok res) s.display).settings = s.display.settings := by
    intro res hres
    simp [receiveRate, hres]
  unfold Call.arriving at hrate
  split at hrate
  · cases ht
    exact hshown _ hrate
  · split_ifs at hrate with haborted
    · cases hrate
    · cases ht
      simpa [haborted] using hshown _ hrate
  · cases hrate

def dollars : FiatDisplaySettings := ⟨true, .usd, true⟩

def euros : FiatDisplaySettings := ⟨true, .eur, true⟩

def priced : Outcome := .works (some (50, 0)) false 0

def loaded : List Action :=
  [.handle 0 priced, .receive 0, .handle 0 priced, .receive 0, .receive 0]

/-- A rate is answered, then the currency is changed, and then the rate arrives. -/
def lateRate : List Action :=
  loaded ++ [.refreshRate, .handle 1 priced, .updateSettings euros, .handle 2 priced, .receive 2,
    .handle 2 priced, .receive 2, .receive 2, .receive 1]

def timelyRate : List Action :=
  loaded ++ [.refreshRate, .handle 1 priced, .receive 1, .render, .updateSettings euros,
    .handle 2 priced, .receive 2, .handle 2 priced, .receive 2, .receive 2]

end ZbagFiat
