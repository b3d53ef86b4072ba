import Mathlib.Tactic.Common

/-!
# Channels

Two channels as an asynchronous runtime gives them. A bounded channel: `send` blocks while the
channel is full and its receiver is alive, and fails once the receiver is dropped; the capacity
bound is a field of the structure. A watch channel: it has one value, which its receivers look at;
a `send` replaces it, but fails and leaves it as it is while there is no receiver.

* `Watch.send`, `Watch.subscribe`, `Watch.dropReceiver`, `Watch.borrow`.
-/

namespace Channel

universe u

/-- The messages in flight, and whether the receiver is alive. -/
structure Chan (α : Type u) (cap : ℕ) where
  queue : List α
  alive : Bool
  bounded : queue.length ≤ cap
  deriving DecidableEq, Repr

variable {α : Type u} {cap : ℕ}

namespace Chan

def new : Chan α cap := ⟨[], true, Nat.zero_le _⟩

/-- A sender has to wait. -/
def Blocked (c : Chan α cap) : Prop := c.alive = true ∧ c.queue.length = cap

instance (c : Chan α cap) : Decidable c.Blocked := inferInstanceAs (Decidable (_ ∧ _))

/-- `none`: it waits; otherwise whether the message was accepted. -/
def send (c : Chan α cap) (a : α) : Option (Chan α cap × Bool) :=
  if c.alive then
    if h : c.queue.length < cap then
      some (⟨c.queue ++ [a], true, by rw [List.length_append]; exact h⟩, true)
    else none
  else some (c, false)

def recv (c : Chan α cap) : Option (α × Chan α cap) :=
  match h : c.queue with
  | [] => none
  | a :: q => some (a, ⟨q, c.alive, by
      have := c.bounded
      rw [h, List.length_cons] at this
      omega⟩)

/-- The messages in flight are lost and every later send fails. -/
def dropReceiver (_ : Chan α cap) : Chan α cap := ⟨[], false, Nat.zero_le _⟩

/-- **A send waits exactly on a full channel with a live receiver.** -/
theorem send_eq_none_iff {c : Chan α cap} {a : α} : c.send a = none ↔ c.Blocked := by
  have hb := c.bounded
  unfold send Blocked
  split_ifs with ha h
  · simp only [false_iff, not_and]
    omega
  · simp only [ha, true_and, true_iff]
    omega
  · simp [ha]

theorem send_eq_some {c c' : Chan α cap} {a : α} {ok : Bool} (h : c.send a = some (c', ok)) :
    (ok = true ∧ c.alive = true ∧ c'.alive = true ∧ c'.queue = c.queue ++ [a]) ∨
      (ok = false ∧ c.alive = false ∧ c' = c) := by
  unfold send at h
  split_ifs at h with ha hlt
  · left
    rw [Option.some.injEq, Prod.mk.injEq] at h
    obtain ⟨rfl, rfl⟩ := h
    exact ⟨rfl, ha, rfl, rfl⟩
  · right
    rw [Option.some.injEq, Prod.mk.injEq] at h
    obtain ⟨rfl, rfl⟩ := h
    exact ⟨rfl, by simpa using ha, rfl⟩

theorem recv_eq_some {c c' : Chan α cap} {a : α} (h : c.recv = some (a, c')) :
    c.queue = a :: c'.queue ∧ c'.alive = c.alive := by
  unfold recv at h
  split at h
  · cases h
  · rename_i b q hq
    rw [Option.some.injEq, Prod.mk.injEq] at h
    obtain ⟨rfl, rfl⟩ := h
    exact ⟨hq, rfl⟩

end Chan

/-! ## Watch channels -/

structure Watch (α : Type u) where
  value : α
  receivers : ℕ
  deriving DecidableEq, Repr

namespace Watch

def new (a : α) : Watch α := ⟨a, 0⟩

def send (c : Watch α) (a : α) : Watch α := if c.receivers = 0 then c else { c with value := a }

def subscribe (c : Watch α) : Watch α := { c with receivers := c.receivers + 1 }

def dropReceiver (c : Watch α) : Watch α := { c with receivers := c.receivers - 1 }

/-- What each receiver sees. -/
def borrow (c : Watch α) : Option α := if c.receivers = 0 then none else some c.value

theorem send_of_pos {c : Watch α} (h : 0 < c.receivers) (a : α) :
    c.send a = { c with value := a } :=
  if_neg (Nat.ne_of_gt h)

theorem send_of_zero {c : Watch α} (h : c.receivers = 0) (a : α) : c.send a = c := if_pos h

theorem borrow_subscribe (c : Watch α) : c.subscribe.borrow = some c.value :=
  if_neg (Nat.succ_ne_zero _)

theorem eq_value_of_borrow {c : Watch α} {a : α} (h : c.borrow = some a) : a = c.value := by
  unfold borrow at h
  split_ifs at h
  exact (Option.some.inj h).symm

end Watch

end Channel
