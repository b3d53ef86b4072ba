import Mathlib.Algebra.Group.Nat.Defs
import Mathlib.Data.Int.Notation
import Zbag.Tx.Broadcast

/-!
# Transactions — the retry policy

What is kept with a queued transaction, and when it may still be sent: never after an error of the
terminal class, and not once the budget of failed attempts is spent.

* `retryBudgetTerminalReason`, `applyRetryPolicy`, `normalizeQueuedBroadcastMeta`;
* `retentionExpired`: how long an entry is kept.
-/

namespace ZbagTx

def failoverTransportFailureThreshold : ℕ := 2

def maxTotalBroadcastRetryAttempts : ℕ := 7

def maxUnknownBroadcastRetryAttempts : ℕ := 3

def saturatingAdd (a b : ℕ) : ℕ := min (a + b) (2 ^ 32 - 1)

def shouldTriggerFailover (transportFailureStreak : ℕ) : Bool :=
  failoverTransportFailureThreshold ≤ transportFailureStreak

/-- Times are in milliseconds. -/
structure QueuedBroadcastMeta where
  createdAtMs : ℤ
  attemptCount : ℕ
  nextAttemptAtMs : Option ℤ
  lastAttemptAtMs : Option ℤ
  transportFailureStreak : ℕ
  retryable : Bool
  lastErrorClass : Option BroadcastErrorClass
  terminalReason : Option String
  lastError : Option String
  deriving DecidableEq, Repr

def retryBudgetTerminalReason (errorClass : BroadcastErrorClass) (attemptCount : ℕ) :
    Option String :=
  if errorClass = .unknown ∧ maxUnknownBroadcastRetryAttempts ≤ attemptCount then
    some "unknown broadcast retry budget exhausted"
  else if maxTotalBroadcastRetryAttempts ≤ attemptCount then
    some "broadcast retry budget exhausted"
  else none

/-- The class as its `Debug` text. -/
def BroadcastErrorClass.text : BroadcastErrorClass → String
  | .transientTransport => "TransientTransport"
  | .transientServer => "TransientServer"
  | .terminal => "Terminal"
  | .unknown => "Unknown"

def applyRetryPolicy (retryable : Bool) (attemptCount : ℕ)
    (lastErrorClass : Option BroadcastErrorClass) (terminalReason : Option String) :
    Bool × Option String :=
  match lastErrorClass with
  | none => if retryable then (true, none) else (false, terminalReason)
  | some errorClass =>
    if isRetryableBroadcastErrorClass errorClass then
      if retryable then
        match retryBudgetTerminalReason errorClass attemptCount with
        | some reason => (false, some reason)
        | none => (true, none)
      else (false, terminalReason)
    else
      (false, some (terminalReason.getD
        ("broadcast error classified as terminal (" ++ errorClass.text ++ ")")))

def normalizeQueuedBroadcastMeta (m : QueuedBroadcastMeta) (nowMs : ℤ) : QueuedBroadcastMeta :=
  let errorClass := m.lastErrorClass <|> m.lastError.map classifyBroadcastErrorMessage
  let policy := applyRetryPolicy m.retryable m.attemptCount errorClass m.terminalReason
  { m with
    lastErrorClass := errorClass
    retryable := policy.1
    terminalReason := policy.2
    nextAttemptAtMs := if policy.1 then some (m.nextAttemptAtMs.getD nowMs) else none }

def firstStreak (lastErrorClass : Option BroadcastErrorClass) : ℕ :=
  if lastErrorClass = some .transientTransport then 1 else 0

/-- `delayMs`: the first backoff with its jitter. -/
def queueBroadcastMeta (lastError : Option String) (lastErrorClass : Option BroadcastErrorClass)
    (retryable : Bool) (delayMs createdAtMs : ℤ) : QueuedBroadcastMeta :=
  let policy := applyRetryPolicy retryable 0 lastErrorClass none
  { createdAtMs := createdAtMs
    attemptCount := 0
    nextAttemptAtMs := if policy.1 then some (createdAtMs + delayMs) else none
    lastAttemptAtMs := some createdAtMs
    transportFailureStreak := firstStreak lastErrorClass
    retryable := policy.1
    lastErrorClass := lastErrorClass
    terminalReason := policy.2
    lastError := lastError }

/-- The policy is left to the next scan. -/
def queueBroadcastForRetryMeta (lastError : Option String)
    (lastErrorClass : Option BroadcastErrorClass) (retryable : Bool) (delayMs createdAtMs : ℤ) :
    QueuedBroadcastMeta where
  createdAtMs := createdAtMs
  attemptCount := 0
  nextAttemptAtMs := if retryable then some (createdAtMs + delayMs) else none
  lastAttemptAtMs := some createdAtMs
  transportFailureStreak := firstStreak lastErrorClass
  retryable := retryable
  lastErrorClass := lastErrorClass
  terminalReason := none
  lastError := lastError

/-! ## Time -/

abbrev Time := ℕ

def toUnixMs (t : Time) : ℤ := ((t / 1000000 : ℕ) : ℤ)

def queuedBroadcastRetention : ℕ := 7 * 24 * 60 * 60 * 1000000000

def createdAt (m : QueuedBroadcastMeta) : Time := m.createdAtMs.toNat * 1000000

def retentionExpired (now : Time) (m : QueuedBroadcastMeta) : Bool :=
  queuedBroadcastRetention < now - createdAt m

end ZbagTx
