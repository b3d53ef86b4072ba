import Zbag.Lib.Channel
import Zbag.Tor.Manager

/-!
# Tor — status events

The Tor manager publishes its state through a watch channel, in the critical section that changes
it. The constructor drops the first receiver of the channel, and a publication that nobody listens
to is lost: a receiver that subscribes later sees the state before it, until the next publication.
-/

namespace ZbagTor

open Transition Channel TorManager

/-! ## Publication -/

structure TorStatusEvent where
  schemaVersion : ℕ
  event : String
  state : TorState
  deriving DecidableEq, Repr

def statusEvent (state : TorState) : TorStatusEvent := ⟨1, "tor.status", state⟩

/-- Every critical section of `set_enabled` publishes, `set_status_if_active` if active. -/
def publishes (m : TorManager) : Action → Bool
  | .setEnabled _ => true
  | .spawn _ | .storeHandle _ => false
  | .task k answer =>
    m.bootstraps[k]?.any fun b =>
      match b.task, answer with
      | .publish _, .proceed => !(m.cancelled k || !m.inner.state.enabled)
      | _, _ => false

structure TorEvents where
  manager : TorManager
  events : Watch TorStatusEvent
  deriving DecidableEq, Repr

/-- The initial state as it was corrected. -/
def TorEvents.new (initial : TorState) : TorEvents :=
  ⟨.new initial, .new (statusEvent (TorManager.new initial).inner.state)⟩

inductive EventAction
  | manager (a : Action)
  | subscribe
  | dropReceiver
  deriving DecidableEq, Repr

def TorEvents.step (s : TorEvents) : EventAction → Option TorEvents
  | .manager a =>
    (s.manager.step a).map fun m =>
      ⟨m, if publishes s.manager a then s.events.send (statusEvent m.inner.state) else s.events⟩
  | .subscribe => some { s with events := s.events.subscribe }
  | .dropReceiver =>
    if 0 < s.events.receivers then some { s with events := s.events.dropReceiver } else none

/-- **The Tor manager with its receivers**, from any persisted state. -/
def torEvents : System TorEvents EventAction where
  init s := ∃ initial, s = .new initial
  step := TorEvents.step

/-! ## The state changes where it is published -/

theorem setStatusIfActive_of_inactive {m : TorManager} {k : ℕ}
    (h : (m.cancelled k || !m.inner.state.enabled) = true) (status : TorStatus)
    (lastError : Option String) (client : Option TorClient) :
    m.setStatusIfActive k status lastError client = m :=
  if_pos h

theorem publish_of_inactive {m : TorManager} {k : ℕ}
    (h : (m.cancelled k || !m.inner.state.enabled) = true) (result : Except String Unit) :
    m.publish k result = m := by
  cases result with
  | ok u | error err => exact setStatusIfActive_of_inactive h ..

/-- **A step that does not publish keeps the state.** -/
theorem state_of_not_publishes {m m' : TorManager} {a : Action} (hstep : m.step a = some m')
    (h : publishes m a = false) : m'.inner.state = m.inner.state := by
  cases a with
  | setEnabled enabled => cases h
  | spawn k | storeHandle k =>
    obtain ⟨b, -, hstep⟩ := Option.bind_eq_some_iff.mp hstep
    split_ifs at hstep
    cases hstep
    rfl
  | task k answer =>
    obtain ⟨b, hb, hstep⟩ := Option.bind_eq_some_iff.mp hstep
    simp only [publishes, hb, Option.any_some] at h
    unfold taskStep at hstep
    split at hstep
    next result hpc _ =>
      cases hstep
      simp only [hpc, Bool.not_eq_false'] at h
      rw [publish_of_inactive h]
      rfl
    next =>
      obtain ⟨pc, -, rfl⟩ := Option.map_eq_some_iff.mp hstep
      rfl

/-! ## What receivers see -/

def Changes (m : TorManager) (a : Action) : Prop :=
  ∃ m' ∈ m.step a, m'.inner.state ≠ m.inner.state

/-- The state changes only while somebody listens. -/
def Heard (s : TorEvents) : EventAction → Prop
  | .manager a => Changes s.manager a → 0 < s.events.receivers
  | .subscribe | .dropReceiver => True

def TorEvents.InStep (s : TorEvents) : Prop :=
  ∀ event ∈ s.events.borrow, event.state = s.manager.inner.state

theorem value_step {s t : TorEvents} {a : EventAction}
    (hs : s.events.value.state = s.manager.inner.state) (hheard : Heard s a)
    (hstep : s.step a = some t) : t.events.value.state = t.manager.inner.state := by
  cases a with
  | manager a =>
    obtain ⟨m, hm, rfl⟩ := Option.map_eq_some_iff.mp hstep
    dsimp only
    split_ifs with hpub
    · by_cases hpos : 0 < s.events.receivers
      · rw [Watch.send_of_pos hpos]
        rfl
      · -- the publication is lost, but there was nothing new in it
        have hsame : m.inner.state = s.manager.inner.state := by
          by_contra hne
          exact hpos (hheard ⟨m, hm, hne⟩)
        rw [Watch.send_of_zero (Nat.eq_zero_of_not_pos hpos), hsame]
        exact hs
    · rw [state_of_not_publishes hm (by simpa using hpub)]
      exact hs
  | subscribe =>
    cases hstep
    exact hs
  | dropReceiver =>
    simp only [TorEvents.step] at hstep
    split_ifs at hstep
    cases hstep
    exact hs

theorem value_reach {s : TorEvents} (h : Reach torEvents Heard s) :
    s.events.value.state = s.manager.inner.state :=
  h.invariant (I := fun s => s.events.value.state = s.manager.inner.state)
    (by rintro _ ⟨initial, rfl⟩; rfl) fun _ _ _ hs hheard hstep => value_step hs hheard hstep

/-- **Receivers see the state of the manager** if it changes only while somebody listens; if not,
the next one sees the state from before. -/
theorem receivers_see_state (s : TorEvents) (h : Reach torEvents Heard s) :
    s.InStep ∧ ∀ a t, s.step a = some t → ¬ Heard s a →
      ∃ u, t.step .subscribe = some u ∧ ¬ u.InStep := by
  have hvalue := value_reach h
  refine ⟨fun event hevent => ?_, fun a t hstep hheard => ?_⟩
  · rw [Watch.eq_value_of_borrow hevent]
    exact hvalue
  · cases a with
    | manager a =>
      simp only [Heard, Classical.not_imp] at hheard
      obtain ⟨⟨m, hm, hne⟩, hzero⟩ := hheard
      obtain ⟨m', hm', rfl⟩ := Option.map_eq_some_iff.mp hstep
      obtain rfl : m = m' := Option.mem_unique hm hm'
      refine ⟨_, rfl, fun hu => hne ?_⟩
      have hseen := hu _ (Watch.borrow_subscribe _)
      rw [Watch.send_of_zero (Nat.eq_zero_of_not_pos hzero), ite_self] at hseen
      rw [← hvalue, hseen]
    | subscribe | dropReceiver => exact absurd trivial hheard

/-- `start_if_enabled` comes first, then the subscription. -/
theorem receiver_misses_start : ∃ s, Reach torEvents Free s ∧
    s.events.borrow = some (statusEvent ⟨true, .off, none⟩) ∧
    s.manager.inner.state = ⟨true, .connecting, none⟩ :=
  exec_reach (S := torEvents) (G := Free)
    (p := fun s => s.events.borrow = some (statusEvent ⟨true, .off, none⟩) ∧
      s.manager.inner.state = ⟨true, .connecting, none⟩)
    [.manager (.setEnabled true), .subscribe] ⟨⟨true, .off, none⟩, rfl⟩ (along_free _ _)
    (by decide)

theorem receivers_see_state_run : ∃ s, Reach torEvents Heard s ∧
    s.manager.inner.state = ⟨true, .connecting, none⟩ ∧ s.InStep := by
  obtain ⟨s, hs, hstate⟩ := exec_reach (S := torEvents) (G := Heard)
    (p := fun s => s.manager.inner.state = ⟨true, .connecting, none⟩)
    (s := .new ⟨true, .off, none⟩) [.subscribe, .manager (.setEnabled true)]
    ⟨⟨true, .off, none⟩, rfl⟩
    ((along_cons rfl).mpr ⟨trivial, (along_cons rfl).mpr ⟨fun _ => by decide, trivial⟩⟩)
    (by decide)
  exact ⟨s, hs, hstate, (receivers_see_state s hs).1⟩

end ZbagTor
