import Mathlib.Data.Nat.Notation
import Mathlib.Tactic.Common

/-!
# Transactions — sending

How a send ends and how the text of a failed one is read: as a duplicate relay, which counts as a
success, or as an error of some class.

* `containsText`, `toLowercase`: substring search in a lowercased message;
* `isEffectiveSuccessBroadcastError`, `classifyBroadcastErrorMessage`,
  `isRetryableBroadcastErrorClass`;
* `SendAnswer`, `relay`: what a send comes to, and what its callers see of it.
-/

namespace ZbagTx

abbrev TxId := ℕ

inductive BroadcastErrorClass
  | transientTransport
  | transientServer
  | terminal
  | unknown
  deriving DecidableEq, Repr

/-- As far as it has ASCII letters: only the Kelvin sign and the dotted capital I do beside them. -/
def lowerChar (c : Char) : List Char :=
  if c.toNat = 0x212A then ['k']
  else if c.toNat = 0x130 then ['i', Char.ofNat 0x307]
  else [c.toLower]

def toLowercase (message : String) : List Char := message.toList.flatMap lowerChar

def containsText (text : List Char) (pattern : String) : Bool :=
  text.tails.any fun rest => pattern.toList.isPrefixOf rest

def isBenignDuplicateRelayMessageLowercase (lower : List Char) : Bool :=
  ["already in mempool", "already known", "txn-already-in-mempool"].any (containsText lower)

def isEffectiveSuccessBroadcastError (message : String) : Bool :=
  isBenignDuplicateRelayMessageLowercase (toLowercase message)

def terminalTexts : List String :=
  ["broadcast rejected", "non-mandatory-script-verify-flag", "bad-txns", "already spent",
    "double spend", "txn-mempool-conflict"]

def transportTexts : List String :=
  ["failed to connect", "connection", "transport", "timed out", "timeout", "deadline exceeded",
    "unavailable", "broken pipe", "reset by peer", "refused", "dns", "h2"]

def serverTexts : List String :=
  ["resource exhausted", "temporarily", "try again", "sendtransaction rpc failed", "rpc failed",
    "internal"]

def classifyBroadcastErrorMessage (message : String) : BroadcastErrorClass :=
  let lower := toLowercase message
  if isBenignDuplicateRelayMessageLowercase lower then .transientServer
  else if terminalTexts.any (containsText lower) then .terminal
  else if transportTexts.any (containsText lower) then .transientTransport
  else if serverTexts.any (containsText lower) then .transientServer
  else .unknown

def isRetryableBroadcastErrorClass : BroadcastErrorClass → Bool
  | .transientTransport | .transientServer | .unknown => true
  | .terminal => false

/-! ## Sends -/

inductive Fate
  /-- it reached no server -/
  | unsent
  | refused
  | taken
  deriving DecidableEq, Repr

/-- How `send_transaction` ends. -/
inductive SendAnswer
  | ok
  | error (message : String) (fate : Fate)
  deriving DecidableEq, Repr

/-- A server that calls it known has seen it. -/
def SendAnswer.reached : SendAnswer → Bool
  | .ok => true
  | .error message fate => isEffectiveSuccessBroadcastError message || fate != .unsent

def SendAnswer.taken : SendAnswer → Bool
  | .ok => true
  | .error message fate => isEffectiveSuccessBroadcastError message || fate == .taken

inductive Relay
  | accepted
  | duplicate
  | failed (error : String)
  deriving DecidableEq, Repr

def relay : SendAnswer → Relay
  | .ok => .accepted
  | .error message _ =>
    if isEffectiveSuccessBroadcastError message then .duplicate else .failed message

def Relay.isFailed : Relay → Bool
  | .failed _ => true
  | .accepted | .duplicate => false

theorem SendAnswer.taken_of_not_failed {answer : SendAnswer}
    (h : (relay answer).isFailed = false) : answer.taken = true := by
  cases answer with
  | ok => rfl
  | error message fate =>
    by_cases hdup : isEffectiveSuccessBroadcastError message = true
    · simp [SendAnswer.taken, hdup]
    · simp [relay, hdup, Relay.isFailed] at h

inductive LoadError
  | read (error : String)
  | unavailable
  | serialize (error : String)
  deriving DecidableEq, Repr

def LoadError.text : LoadError → String
  | .read error => "failed to load tx: " ++ error
  | .unavailable => "tx bytes unavailable"
  | .serialize error => "failed to serialize tx: " ++ error

/-- In the wallet database, at a server, taken by one, in the retry queue. -/
structure Outbox where
  stored : List TxId
  sent : List TxId
  accepted : List TxId
  queued : List TxId
  deriving DecidableEq, Repr

namespace Outbox

def empty : Outbox := ⟨[], [], [], []⟩

def store (o : Outbox) (txids : List TxId) : Outbox := { o with stored := txids ++ o.stored }

def send (o : Outbox) (txid : TxId) (answer : SendAnswer) : Outbox :=
  { o with
    sent := if answer.reached then txid :: o.sent else o.sent
    accepted := if answer.taken then txid :: o.accepted else o.accepted }

def queue (o : Outbox) (txid : TxId) : Outbox := { o with queued := txid :: o.queued }

/-- `delete_queued_broadcast`. -/
def unqueue (o : Outbox) (txid : TxId) : Outbox :=
  { o with queued := o.queued.filter (· ≠ txid) }

end Outbox

end ZbagTx
