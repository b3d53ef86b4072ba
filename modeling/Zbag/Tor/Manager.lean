import Zbag.Lib.Transition

/-!
# Tor — the Tor manager

`TorManager` keeps the Tor state and the Tor client under one mutex. `set_enabled` cancels the
bootstrap that is under way and starts a new one as a task of its own; the handle of that task is
stored later, under a second lock. A bootstrap publishes its result only if its cancel flag is not
set and Tor is enabled. Every critical section is one step of the model, and so is the code of a
task between two reads of its cancel flag.
-/

namespace ZbagTor

open Transition

inductive TorStatus
  | off
  | connecting
  | on
  | error
  deriving DecidableEq, Repr

structure TorState where
  enabled : Bool
  status : TorStatus
  lastError : Option String
  deriving DecidableEq, Repr

/-- Known by the number of the bootstrap that made it. -/
structure TorClient where
  bootstrap : ℕ
  deriving DecidableEq, Repr

/-- A cancel sender and a task handle are known by the number of their bootstrap. -/
structure Inner where
  state : TorState
  torClient : Option TorClient
  cancelBootstrap : Option ℕ
  bootstrapTask : Option ℕ
  deriving DecidableEq, Repr

/-! ## Bootstraps -/

inductive CallPc
  | spawn
  | storeHandle
  | returned
  deriving DecidableEq, Repr

inductive TaskPc
  | unspawned
  | start
  | createDir
  | dirFailed (err : String)
  | dirCreated
  | bootstrap
  | publish (result : Except String Unit)
  | finished
  deriving DecidableEq, Repr

/-- The value of its cancel channel, the call that started it, its task. -/
structure Bootstrap where
  cancelled : Bool
  call : CallPc
  task : TaskPc
  aborted : Bool
  deriving DecidableEq, Repr

inductive TaskAnswer
  | proceed
  | failed (err : String)
  | timedOut
  | cancelled
  | dropped
  deriving DecidableEq, Repr

def Bootstrap.next (b : Bootstrap) : TaskAnswer → Option TaskPc
  | .dropped => if b.aborted && b.task != .unspawned then some .finished else none
  | answer =>
    match b.task, answer with
    | .start, .proceed => some (if b.cancelled then .finished else .createDir)
    | .createDir, .proceed => some .dirCreated
    | .createDir, .failed err => some (.dirFailed err)
    | .dirFailed err, .proceed =>
      some (if b.cancelled then .finished
        else .publish (.error ("failed to create tor directory: " ++ err)))
    | .dirCreated, .proceed => some (if b.cancelled then .finished else .bootstrap)
    | .bootstrap, .cancelled => if b.cancelled then some .finished else none
    | .bootstrap, .timedOut => some (.publish (.error "Tor bootstrap timed out"))
    | .bootstrap, .failed err => some (.publish (.error err))
    | .bootstrap, .proceed => some (.publish (.ok ()))
    | _, _ => none

/-! ## The manager -/

inductive Section
  | started (bootstrap : ℕ)
  /-- Tor was on already -/
  | kept
  | disabled
  deriving DecidableEq, Repr

/-- `sections` are those of `set_enabled`, latest first; `publisher` has written the status. -/
structure TorManager where
  inner : Inner
  bootstraps : List Bootstrap
  sections : List Section
  publisher : Option ℕ
  deriving DecidableEq, Repr

namespace TorManager

/-- `TorManager::new`. -/
def new (initial : TorState) : TorManager :=
  let initial := if !initial.enabled then { initial with status := .off, lastError := none }
    else initial
  let initial := if initial.status = .on then { initial with status := .off, lastError := none }
    else initial
  ⟨⟨initial, none, none, none⟩, [], [], none⟩

def sendCancel (m : TorManager) : TorManager :=
  match m.inner.cancelBootstrap with
  | none => m
  | some k =>
    { m with
      inner := { m.inner with cancelBootstrap := none }
      bootstraps := m.bootstraps.modify k fun b => { b with cancelled := true } }

def abortTask (m : TorManager) : TorManager :=
  match m.inner.bootstrapTask with
  | none => m
  | some k =>
    { m with
      inner := { m.inner with bootstrapTask := none }
      bootstraps := m.bootstraps.modify k fun b => { b with aborted := true } }

/-- The flag, the cancel signal and the abort. -/
def beginSetEnabled (m : TorManager) (enabled : Bool) : TorManager :=
  sendCancel { m with inner := { m.inner with state := { m.inner.state with enabled } } }
    |>.abortTask

def setEnabled (m : TorManager) (enabled : Bool) : TorManager :=
  let m := m.beginSetEnabled enabled
  if !enabled then
    { m with
      inner := { m.inner with
        state := { m.inner.state with status := .off, lastError := none }, torClient := none }
      sections := .disabled :: m.sections
      publisher := none }
  else if m.inner.state.status = .on ∧ m.inner.torClient.isSome then
    { m with sections := .kept :: m.sections }
  else
    { inner := { m.inner with
        state := { m.inner.state with status := .connecting, lastError := none }
        torClient := none
        cancelBootstrap := some m.bootstraps.length }
      bootstraps := m.bootstraps ++ [⟨false, .spawn, .unspawned, false⟩]
      sections := .started m.bootstraps.length :: m.sections
      publisher := none }

def torClient (m : TorManager) : Option TorClient :=
  if m.inner.state.enabled && m.inner.state.status == .on then m.inner.torClient else none

def cancelled (m : TorManager) (k : ℕ) : Bool := m.bootstraps[k]?.any Bootstrap.cancelled

def setStatusIfActive (m : TorManager) (k : ℕ) (status : TorStatus) (lastError : Option String)
    (client : Option TorClient) : TorManager :=
  if m.cancelled k || !m.inner.state.enabled then m
  else
    { m with
      inner := { m.inner with
        state := { m.inner.state with status, lastError }, torClient := client }
      publisher := some k }

def publish (m : TorManager) (k : ℕ) : Except String Unit → TorManager
  | .ok _ => m.setStatusIfActive k .on none (some ⟨k⟩)
  | .error err => m.setStatusIfActive k .error (some err) none

def setBootstrap (m : TorManager) (k : ℕ) (b : Bootstrap) : TorManager :=
  { m with bootstraps := m.bootstraps.set k b }

inductive Action
  | setEnabled (enabled : Bool)
  | spawn (k : ℕ)
  | storeHandle (k : ℕ)
  | task (k : ℕ) (answer : TaskAnswer)
  deriving DecidableEq, Repr

def taskStep (m : TorManager) (k : ℕ) (b : Bootstrap) (answer : TaskAnswer) : Option TorManager :=
  match b.task, answer with
  | .publish result, .proceed =>
    some ((m.publish k result).setBootstrap k { b with task := .finished })
  | _, answer => (b.next answer).map fun pc => m.setBootstrap k { b with task := pc }

def step (m : TorManager) : Action → Option TorManager
  | .setEnabled enabled => some (m.setEnabled enabled)
  | .spawn k =>
    m.bootstraps[k]?.bind fun b =>
      if b.call = .spawn then
        some (m.setBootstrap k { b with call := .storeHandle, task := .start })
      else none
  | .storeHandle k =>
    m.bootstraps[k]?.bind fun b =>
      if b.call = .storeHandle then
        some { m.setBootstrap k { b with call := .returned } with
          inner := { m.inner with bootstrapTask := some k } }
      else none
  | .task k answer => m.bootstraps[k]?.bind fun b => m.taskStep k b answer

end TorManager

open TorManager

/-- **All interleavings** of `set_enabled` calls and bootstrap tasks. -/
def torManager : System TorManager Action where
  init m := ∃ initial, m = .new initial
  step := TorManager.step

/-! ## What a step can do -/

/-- A `set_enabled`, the publication of a result, or neither state nor client is touched. -/
inductive Step (m : TorManager) : Action → TorManager → Prop
  | setEnabled (enabled : Bool) : Step m (.setEnabled enabled) (m.setEnabled enabled)
  | publish {k : ℕ} {b : Bootstrap} {result : Except String Unit} {answer : TaskAnswer}
      (hb : m.bootstraps[k]? = some b) :
      Step m (.task k answer) ((m.publish k result).setBootstrap k { b with task := .finished })
  | silent {a : Action} {k : ℕ} {b b' : Bootstrap} {handle : Option ℕ}
      (hb : m.bootstraps[k]? = some b) (hflag : b'.cancelled = b.cancelled) :
      Step m a { m.setBootstrap k b' with inner := { m.inner with bootstrapTask := handle } }

variable {m m' : TorManager} {k : ℕ} {b : Bootstrap} {j : ℕ}

theorem taskStep_cases {answer : TaskAnswer} (hb : m.bootstraps[k]? = some b)
    (h : m.taskStep k b answer = some m') :
    Step m (.task k answer) m' := by
  unfold taskStep at h
  split at h
  · cases h
    exact .publish hb
  · obtain ⟨pc, -, rfl⟩ := Option.map_eq_some_iff.mp h
    exact .silent hb rfl

/-- **Everything a step can do.** -/
theorem step_cases {a : Action} (h : m.step a = some m') : Step m a m' := by
  cases a with
  | setEnabled enabled =>
    cases h
    exact .setEnabled enabled
  | spawn k | storeHandle k =>
    obtain ⟨b, hb, h⟩ := Option.bind_eq_some_iff.mp h
    split_ifs at h
    cases h
    exact .silent hb rfl
  | task k answer =>
    obtain ⟨b, hb, h⟩ := Option.bind_eq_some_iff.mp h
    exact taskStep_cases hb h

/-! ## Cancel flags -/

def TorManager.Live (m : TorManager) (k : ℕ) : Prop :=
  ∃ b, m.bootstraps[k]? = some b ∧ b.cancelled = false

theorem live_of_setBootstrap {b' : Bootstrap} (hb : m.bootstraps[k]? = some b)
    (hflag : b'.cancelled = b.cancelled) (h : (m.setBootstrap k b').Live j) : m.Live j := by
  obtain ⟨b₁, hb₁, hlive⟩ := h
  rw [setBootstrap, List.getElem?_set] at hb₁
  split_ifs at hb₁ with hkj hlt
  · obtain rfl := Option.some.inj hb₁
    exact ⟨b, hkj ▸ hb, hflag ▸ hlive⟩
  · exact ⟨b₁, hb₁, hlive⟩

theorem live_of_abortTask (h : m.abortTask.Live j) : m.Live j := by
  unfold abortTask at h
  split at h
  · exact h
  · obtain ⟨b, hb, hlive⟩ := h
    rw [List.getElem?_modify] at hb
    obtain ⟨b', hb', rfl⟩ := Option.map_eq_some_iff.mp hb
    refine ⟨b', hb', ?_⟩
    split_ifs at hlive
    · exact hlive
    · exact hlive

theorem live_of_sendCancel (h : m.sendCancel.Live j) :
    m.Live j ∧ m.inner.cancelBootstrap ≠ some j := by
  unfold sendCancel at h
  split at h
  · rename_i hnone
    exact ⟨h, by simp [hnone]⟩
  · rename_i k hk
    obtain ⟨b, hb, hlive⟩ := h
    rw [List.getElem?_modify] at hb
    obtain ⟨b', hb', rfl⟩ := Option.map_eq_some_iff.mp hb
    by_cases hkj : k = j
    · rw [if_pos hkj] at hlive
      cases hlive
    · rw [if_neg hkj] at hlive
      exact ⟨⟨b', hb', hlive⟩, by rw [hk]; simpa using hkj⟩

/-! ## The invariant -/

/-- If no `set_enabled(false)` came after it. -/
def latestStart : List Section → Option ℕ
  | [] => none
  | .kept :: rest => latestStart rest
  | .started k :: _ => some k
  | .disabled :: _ => none

/-- **State and client of the manager agree, and come from the latest bootstrap.** -/
structure TorManager.Consistent (m : TorManager) : Prop where
  off : m.inner.state.enabled = false → m.inner.state.status = .off ∧ m.inner.torClient = none
  on : m.inner.state.status = .on ↔ m.inner.torClient.isSome = true
  client : ∀ c ∈ m.inner.torClient, latestStart m.sections = some c.bootstrap
  error : m.inner.state.status = .error →
    m.sections = [] ∨ ∃ k, m.publisher = some k ∧ latestStart m.sections = some k

/-- Only the bootstrap that the last `set_enabled` started is not cancelled. -/
structure Inv (m : TorManager) : Prop extends m.Consistent where
  live : ∀ k, m.Live k →
    m.inner.cancelBootstrap = some k ∧ m.sections.head? = some (.started k)

theorem inv_new (initial : TorState) : Inv (.new initial) := by
  have hlive : ∀ k, ¬ (TorManager.new initial).Live k := by
    rintro k ⟨b, hb, -⟩
    cases hb
  refine ⟨⟨?_, ?_, nofun, fun _ => .inl rfl⟩, fun k hk => absurd hk (hlive k)⟩
  · unfold TorManager.new
    grind
  · unfold TorManager.new
    grind

theorem not_live_begin (hm : ∀ k, m.Live k → m.inner.cancelBootstrap = some k) (enabled : Bool)
    (k : ℕ) : ¬ (m.beginSetEnabled enabled).Live k := by
  intro h
  obtain ⟨hlive, hne⟩ := live_of_sendCancel (live_of_abortTask h)
  exact hne (hm k hlive)

theorem begin_keeps (m : TorManager) (enabled : Bool) :
    (m.beginSetEnabled enabled).inner.state = { m.inner.state with enabled } ∧
      (m.beginSetEnabled enabled).inner.torClient = m.inner.torClient ∧
      (m.beginSetEnabled enabled).sections = m.sections := by
  unfold beginSetEnabled abortTask sendCancel
  split <;> split <;> exact ⟨rfl, rfl, rfl⟩

theorem live_of_start (hdead : ∀ k, ¬ m.Live k) {inner : Inner} {sections : List Section}
    {publisher : Option ℕ}
    (h : TorManager.Live ⟨inner, m.bootstraps ++ [⟨false, .spawn, .unspawned, false⟩], sections,
      publisher⟩ k) : k = m.bootstraps.length := by
  obtain ⟨b, hb, hlive⟩ := h
  by_contra hk
  refine hdead k ⟨b, ?_, hlive⟩
  have hlt := (List.getElem?_eq_some_iff.mp hb).1
  rw [List.length_append, List.length_singleton] at hlt
  rwa [List.getElem?_append_left (by omega)] at hb

theorem inv_setEnabled (h : Inv m) (enabled : Bool) : Inv (m.setEnabled enabled) := by
  obtain ⟨hstate, hclient, hsections⟩ := begin_keeps m enabled
  have hdead := not_live_begin (fun k hk => (h.live k hk).1) enabled
  unfold setEnabled
  cases enabled with
  | false =>
    exact ⟨⟨fun _ => ⟨rfl, rfl⟩, by simp, nofun, nofun⟩,
      fun k hk => absurd hk (hdead k)⟩
  | true =>
    rw [if_neg (by simp)]
    split_ifs with hon
    · refine ⟨⟨fun hoff => ?_, ?_, fun c hc => ?_, fun he => ?_⟩, fun k hk => absurd hk (hdead k)⟩
      · rw [hstate] at hoff
        cases hoff
      · exact iff_of_true hon.1 hon.2
      · rw [hclient] at hc
        rw [hsections]
        exact h.client c hc
      · cases hon.1.symm.trans he
    · refine ⟨⟨fun hoff => ?_, by simp, nofun, nofun⟩,
        fun k hk => ?_⟩
      · rw [hstate] at hoff
        cases hoff
      · obtain rfl := live_of_start hdead hk
        exact ⟨rfl, rfl⟩

theorem inv_publish (h : Inv m) (hb : m.bootstraps[k]? = some b) (result : Except String Unit) :
    Inv (m.publish k result) := by
  have hset : ∀ status lastError client, (status = .on ↔ client.isSome = true) →
      (∀ c ∈ client, c = ⟨k⟩) → Inv (m.setStatusIfActive k status lastError client) := by
    intro status lastError client hon hclient
    unfold setStatusIfActive
    split_ifs with hactive
    · exact h
    · simp only [Bool.or_eq_true, not_or, Bool.not_eq_true, Bool.not_eq_eq_eq_not, Bool.not_true,
        cancelled, hb, Option.any_some] at hactive
      obtain ⟨hcancel, henabled⟩ := hactive
      have hhead := (h.live k ⟨b, hb, hcancel⟩).2
      have hlatest : latestStart m.sections = some k := by
        obtain ⟨rest, hrest⟩ := List.head?_eq_some_iff.mp hhead
        rw [hrest]
        rfl
      refine ⟨⟨fun hoff => ?_, hon, fun c hc => ?_, fun _ => .inr ⟨k, rfl, hlatest⟩⟩, h.live⟩
      · exact absurd hoff (by simp [henabled])
      · rw [hclient c hc]
        exact hlatest
  cases result with
  | ok u | error err => exact hset _ _ _ (by simp) (by simp)

theorem inv_silent (h : Inv m) {b' : Bootstrap} {handle : Option ℕ} (hb : m.bootstraps[k]? = some b)
    (hflag : b'.cancelled = b.cancelled) :
    Inv { m.setBootstrap k b' with inner := { m.inner with bootstrapTask := handle } } :=
  ⟨⟨h.off, h.on, h.client, h.error⟩, fun j hj => h.live j (live_of_setBootstrap hb hflag hj)⟩

theorem publish_bootstraps (m : TorManager) (k : ℕ) (result : Except String Unit) :
    (m.publish k result).bootstraps = m.bootstraps := by
  unfold publish setStatusIfActive
  split <;> split_ifs <;> rfl

theorem inv_step {a : Action} (h : Inv m) (hstep : m.step a = some m') : Inv m' := by
  cases step_cases hstep with
  | setEnabled enabled => exact inv_setEnabled h enabled
  | @publish k b result _ hb =>
    have hb' : (m.publish k result).bootstraps[k]? = some b := by rw [publish_bootstraps, hb]
    exact inv_silent (inv_publish h hb result) hb' rfl
  | silent hb hflag => exact inv_silent h hb hflag

/-- **The Tor manager is consistent in every state**: off without a client, on with one, of the
latest bootstrap. -/
theorem torManager_consistent {m : TorManager} (h : Reach torManager Free m) : m.Consistent :=
  (h.invariant (I := Inv) (by rintro _ ⟨initial, rfl⟩; exact inv_new initial)
    fun _ _ _ hm _ hstep => inv_step hm hstep).toConsistent

/-- The first task comes late, and its handle replaces the one of the second. -/
def overlappingCalls : List Action :=
  [.setEnabled true, .setEnabled true, .spawn 1, .storeHandle 1, .spawn 0, .storeHandle 0,
    .task 0 .proceed, .task 1 .proceed, .task 1 .proceed, .task 1 .proceed, .task 1 .proceed,
    .task 1 .proceed]

theorem torManager_consistent_overlapping : ∃ m, Reach torManager Free m ∧
    m.inner.torClient = some ⟨1⟩ ∧ m.inner.bootstrapTask = some 0 ∧ m.Consistent := by
  obtain ⟨m, hm, hclient, htask⟩ := exec_reach (S := torManager) (G := Free)
    (p := fun m => m.inner.torClient = some ⟨1⟩ ∧ m.inner.bootstrapTask = some 0)
    overlappingCalls ⟨⟨false, .off, none⟩, rfl⟩ (along_free _ _) (by decide)
  exact ⟨m, hm, hclient, htask, torManager_consistent hm⟩

end ZbagTor
