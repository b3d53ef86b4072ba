import Zbag.Lib.Transition
import Zbag.Swap.Meta
import Zbag.Wallet.Manager

/-!
# Swaps — the swap service

The calls and tasks of the swap service that share its quote map, its registries and the swap
rows: `request_swap_quote`, `start_swap` with `start_swap_from_zec`, `refresh_swap_status`,
`resume_pending_swaps` and the polling tasks. Each critical section and each database write is one
step; what the network, the wallet and the database answer is part of the action.

* `swapSystem`: all of it, with crashes that only the rows survive.
-/

namespace ZbagSwap

open ZbagWallet Transition

inductive Network
  | mainnet
  | testnet
  deriving DecidableEq, Repr

structure SwapIntent where
  swapType : SwapType
  inputAsset : String
  outputAsset : String
  destinationAddress : Option String
  refundAddress : Option String
  deriving DecidableEq, Repr

structure SwapQuote where
  /-- in smallest units -/
  inputAmount : String
  inputAmountFormatted : String
  outputAmountFormatted : String
  deadline : ℤ
  depositAddress : Option String
  depositMemo : Option String
  correlationId : String
  deriving DecidableEq, Repr

structure QuoteRecord where
  walletId : WalletId
  intent : SwapIntent
  quote : SwapQuote
  deriving DecidableEq, Repr

/-- The quotes by quote id. -/
abbrev Quotes := String → Option QuoteRecord

structure StartSwapRequest where
  walletId : WalletId
  network : Network
  quoteId : String
  allowTransparentInteraction : Bool
  reauthToken : Option String
  deriving DecidableEq, Repr

/-! ## Quotes -/

/-- Expired quotes go. -/
def storeQuote (quotes : Quotes) (record : QuoteRecord) (now : ℤ) : Quotes :=
  Function.update
    (fun quoteId => (quotes quoteId).filter fun r =>
      r.quote.deadline == 0 || now < r.quote.deadline)
    record.quote.correlationId (some record)

/-- The record is copied, not taken; only an expired one is removed. -/
def takeRecord (quotes : Quotes) (req : StartSwapRequest) (now : ℤ) :
    Except IpcError QuoteRecord × Quotes :=
  match quotes req.quoteId with
  | none => (.error ⟨.quoteExpired, "quote not found"⟩, quotes)
  | some record =>
    if record.walletId ≠ req.walletId then (.error ⟨.quoteExpired, "quote not found"⟩, quotes)
    else if record.quote.deadline > 0 ∧ now ≥ record.quote.deadline then
      (.error ⟨.quoteExpired, "quote expired"⟩, Function.update quotes req.quoteId none)
    else (.ok record, quotes)

def tokenGiven (token : Option String) : Bool := token.any fun t => !(trim t).isEmpty

def startChecks (req : StartSwapRequest) (record : QuoteRecord) : Except IpcError Unit := do
  if record.intent.swapType = .fromZec then
    unless req.allowTransparentInteraction do
      throw ⟨.privacyAckRequired, "swap-from-ZEC requires transparent interaction acknowledgement"⟩
    unless tokenGiven req.reauthToken do
      throw ⟨.invalidRequest, "reauth_token required"⟩
  unless record.quote.depositAddress.isSome do
    throw ⟨.swapFailed, "quote missing deposit address"⟩

/-- Up to its first database access. -/
def startSwap (quotes : Quotes) (req : StartSwapRequest) (now : ℤ) :
    Except IpcError QuoteRecord × Quotes :=
  if req.network = .testnet then
    (.error ⟨.swapUnsupportedNetwork, "swaps are not supported on Testnet"⟩, quotes)
  else
    match takeRecord quotes req now with
    | (.error e, quotes') => (.error e, quotes')
    | (.ok record, quotes') =>
      match startChecks req record with
      | .error e => (.error e, quotes')
      | .ok _ => (.ok record, quotes')

def newSwap (record : QuoteRecord) (id : SwapId) (now : ℤ) : SwapInfo where
  id := id
  remoteId := some record.quote.correlationId
  swapType := record.intent.swapType
  inputAsset := record.intent.inputAsset
  inputAmount := record.quote.inputAmountFormatted
  outputAsset := record.intent.outputAsset
  outputAmount := some record.quote.outputAmountFormatted
  depositAddress := record.quote.depositAddress
  depositMemo := record.quote.depositMemo
  destinationAddress := record.intent.destinationAddress
  refundAddress := record.intent.refundAddress
  state := if record.intent.swapType = .fromZec then .draft else .awaitingDeposit
  deadline := some record.quote.deadline
  lastError := none
  createdAt := now
  updatedAt := now

/-! ## Tasks -/

inductive CallPc
  | insert
  | prepare (swap : SwapInfo) (account : AccountId)
  | execute (swap : SwapInfo)
  | pend (swap : SwapInfo)
  | fail (swap : SwapInfo) (error : String)
  | poll (swap : SwapInfo)
  | returned (result : Except String SwapInfo)
  deriving DecidableEq, Repr

structure Call where
  walletId : WalletId
  record : QuoteRecord
  pc : CallPc
  deriving DecidableEq, Repr

/-- `spawn` is registered but not yet running, `stop` still holds the registry entry. -/
inductive PollerPc
  | spawn
  | loop
  | stop
  | ended
  deriving DecidableEq, Repr

structure Poller where
  walletId : WalletId
  swap : SwapInfo
  pc : PollerPc
  deriving DecidableEq, Repr

inductive RefreshPc
  | acquire
  | status
  | release
  | returned
  deriving DecidableEq, Repr

structure Refresh where
  walletId : WalletId
  swap : SwapInfo
  pc : RefreshPc
  deriving DecidableEq, Repr

structure Resume where
  walletId : WalletId
  left : List SwapInfo
  deriving DecidableEq, Repr

/-- `sent`: a transaction of the deposit reached a server. -/
structure DepositSend where
  quoteId : String
  swapId : SwapId
  sent : Bool
  deriving DecidableEq, Repr

structure World where
  quotes : Quotes
  jobs : SwapId → Bool
  refreshInflight : SwapId → Bool
  swaps : SwapTable
  calls : List Call
  pollers : List Poller
  refreshes : List Refresh
  resumes : List Resume
  sends : List DepositSend

def World.fresh : World where
  quotes _ := none
  jobs _ := false
  refreshInflight _ := false
  swaps := .empty
  calls := []
  pollers := []
  refreshes := []
  resumes := []
  sends := []

def World.restart (s : World) : World :=
  { World.fresh with swaps := s.swaps, sends := s.sends }

/-- Nothing happens when a task is registered for the swap. -/
def startPolling (s : World) (w : WalletId) (swap : SwapInfo) : World :=
  if s.jobs swap.id then s
  else
    { s with
      jobs := Function.update s.jobs swap.id true
      pollers := s.pollers ++ [⟨w, swap, .spawn⟩] }

@[simp] theorem startPolling_quotes (s : World) (w : WalletId) (swap : SwapInfo) :
    (startPolling s w swap).quotes = s.quotes := by
  unfold startPolling; split_ifs <;> rfl

@[simp] theorem startPolling_calls (s : World) (w : WalletId) (swap : SwapInfo) :
    (startPolling s w swap).calls = s.calls := by
  unfold startPolling; split_ifs <;> rfl

@[simp] theorem startPolling_sends (s : World) (w : WalletId) (swap : SwapInfo) :
    (startPolling s w swap).sends = s.sends := by
  unfold startPolling; split_ifs <;> rfl

@[simp] theorem startPolling_swaps (s : World) (w : WalletId) (swap : SwapInfo) :
    (startPolling s w swap).swaps = s.swaps := by
  unfold startPolling; split_ifs <;> rfl

/-! ## `start_swap` -/

inductive CallAnswer
  | insert (accounts : Except String (List (AccountId × AccountType))) (id : SwapId)
      (error : Option String) (now : ℤ)
  | prepare (error : Option String)
  | execute (sent : Bool) (error : Option String)
  | update (ok : Bool) (now : ℤ)
  | poll
  deriving DecidableEq, Repr

def softwareAccount (accounts : Except String (List (AccountId × AccountType))) :
    Except String AccountId :=
  match accounts with
  | .error e => .error e
  | .ok accounts =>
    match accounts.find? fun a => a.2 = .software with
    | none => .error "no spend-capable account available"
    | some a => .ok a.1

def setCall (s : World) (i : ℕ) (c : Call) (pc : CallPc) : World :=
  { s with calls := s.calls.set i { c with pc := pc } }

def insertRow (s : World) (i : ℕ) (c : Call) (swap : SwapInfo) (error : Option String)
    (next : CallPc) : World :=
  match error, insertSwap s.swaps c.walletId swap with
  | none, some t => setCall { s with swaps := t } i c next
  | none, none => setCall s i c (.returned (.error "failed to insert swap"))
  | some e, _ => setCall s i c (.returned (.error e))

/-- The database may refuse it. -/
def persist (s : World) (w : WalletId) (swap : SwapInfo) (ok : Bool) : World :=
  if ok then { s with swaps := updateSwap s.swaps w swap } else s

@[simp] theorem persist_quotes (s : World) (w : WalletId) (swap : SwapInfo) (ok : Bool) :
    (persist s w swap ok).quotes = s.quotes := by
  cases ok <;> rfl

@[simp] theorem persist_calls (s : World) (w : WalletId) (swap : SwapInfo) (ok : Bool) :
    (persist s w swap ok).calls = s.calls := by
  cases ok <;> rfl

@[simp] theorem persist_sends (s : World) (w : WalletId) (swap : SwapInfo) (ok : Bool) :
    (persist s w swap ok).sends = s.sends := by
  cases ok <;> rfl

def failedSwap (swap : SwapInfo) (error : String) (now : ℤ) : SwapInfo :=
  { swap with state := .failed, updatedAt := now, lastError := some error }

def pendingSwap (swap : SwapInfo) (now : ℤ) : SwapInfo :=
  { swap with state := .pending, updatedAt := now }

def orFail (swap : SwapInfo) (error : Option String) (next : CallPc) : CallPc :=
  match error with
  | none => next
  | some e => .fail swap e

def callStep (s : World) (i : ℕ) (c : Call) : CallAnswer → Option World
  | .insert accounts id error now =>
    match c.pc with
    | .insert =>
      match c.record.intent.swapType with
      | .toZec =>
        some (insertRow s i c (newSwap c.record id now) error (.poll (newSwap c.record id now)))
      | .fromZec =>
        match softwareAccount accounts with
        | .error e => some (setCall s i c (.returned (.error e)))
        | .ok account =>
          some (insertRow s i c (newSwap c.record id now) error
            (.prepare (newSwap c.record id now) account))
    | _ => none
  | .prepare error =>
    match c.pc with
    | .prepare swap _ => some (setCall s i c (orFail swap error (.execute swap)))
    | _ => none
  | .execute sent error =>
    match c.pc with
    | .execute swap =>
      some (setCall { s with sends := ⟨c.record.quote.correlationId, swap.id, sent⟩ :: s.sends } i c
        (orFail swap error (.pend swap)))
    | _ => none
  | .update ok now =>
    match c.pc with
    | .fail swap e =>
      -- a write that fails is only logged
      some (setCall (persist s c.walletId (failedSwap swap e now) ok) i c (.returned (.error e)))
    | .pend swap =>
      some (setCall (persist s c.walletId (pendingSwap swap now) ok) i c
        (if ok then .poll (pendingSwap swap now)
          else .returned (.error "failed to update swap")))
    | _ => none
  | .poll =>
    match c.pc with
    | .poll swap => some (startPolling (setCall s i c (.returned (.ok swap))) c.walletId swap)
    | _ => none

/-! ## Remote statuses -/

inductive NearIntentsError
  | rateLimited
  | torNotReady
  | transport (message : String)
  | http (status : ℕ) (message : String)
  | invalidResponse (message : String)
  deriving DecidableEq, Repr

def NearIntentsError.text : NearIntentsError → String
  | .rateLimited => "rate limited"
  | .torNotReady => "Tor is enabled but not ready"
  | .transport message => "transport error: " ++ message
  | .http status message => "http error: status=" ++ toString status ++ " " ++ message
  | .invalidResponse message => "invalid response: " ++ message

inductive StatusAnswer
  | status (remote : RemoteStatus) (message : Option String) (confirmed : Bool)
  | error (e : NearIntentsError)
  deriving DecidableEq, Repr

def applyAnswer (swap : SwapInfo) (now : ℤ) : StatusAnswer → Option SwapInfo
  | .status remote message confirmed =>
    if nextStateFromRemoteStatus remote confirmed ≠ swap.state ∨ message ≠ swap.lastError then
      some
        { swap with
          state := nextStateFromRemoteStatus remote confirmed
          updatedAt := now
          lastError := message }
    else none
  | .error e => some { swap with lastError := some e.text, updatedAt := now }

def persistAnswer (s : World) (w : WalletId) (changed : Option SwapInfo) (ok : Bool) : World :=
  match changed with
  | none => s
  | some swap => persist s w swap ok

@[simp] theorem persistAnswer_quotes (s : World) (w : WalletId) (changed : Option SwapInfo)
    (ok : Bool) : (persistAnswer s w changed ok).quotes = s.quotes := by
  cases changed <;> simp [persistAnswer]

@[simp] theorem persistAnswer_calls (s : World) (w : WalletId) (changed : Option SwapInfo)
    (ok : Bool) : (persistAnswer s w changed ok).calls = s.calls := by
  cases changed <;> simp [persistAnswer]

@[simp] theorem persistAnswer_sends (s : World) (w : WalletId) (changed : Option SwapInfo)
    (ok : Bool) : (persistAnswer s w changed ok).sends = s.sends := by
  cases changed <;> simp [persistAnswer]

/-! ## `refresh_swap_status` -/

/-- `none` returns to the caller. -/
def loadForRefresh (t : SwapTable) (w : WalletId) (id : SwapId) : Option SwapInfo :=
  match getSwap t id with
  | none => none
  | some row =>
    if row.walletId ≠ w ∨ row.info.state.isTerminal ∨ row.info.depositAddress = none then none
    else some row.info

inductive RefreshAnswer
  | acquire
  | status (answer : StatusAnswer) (ok : Bool) (now : ℤ)
  | release
  deriving DecidableEq, Repr

def setRefresh (s : World) (i : ℕ) (r : Refresh) (pc : RefreshPc) : World :=
  { s with refreshes := s.refreshes.set i { r with pc := pc } }

def refreshStep (s : World) (i : ℕ) (r : Refresh) : RefreshAnswer → Option World
  | .acquire =>
    if r.pc = .acquire then
      if s.refreshInflight r.swap.id then some (setRefresh s i r .returned)
      else
        some (setRefresh
          { s with refreshInflight := Function.update s.refreshInflight r.swap.id true } i r
          .status)
    else none
  | .status answer ok now =>
    if r.pc = .status then
      some (setRefresh (persistAnswer s r.walletId (applyAnswer r.swap now answer) ok) i r .release)
    else none
  | .release =>
    if r.pc = .release then
      some (setRefresh
        { s with refreshInflight := Function.update s.refreshInflight r.swap.id false } i r
        .returned)
    else none

/-! ## Polling -/

inductive PollAnswer
  /-- or spawning it panics -/
  | spawn (ok : Bool)
  /-- the wallet is no longer active, the task is cancelled, or it panics -/
  | quit
  | status (answer : StatusAnswer) (ok : Bool) (now : ℤ)
  | drop
  deriving DecidableEq, Repr

def setPoller (s : World) (i : ℕ) (p : Poller) (swap : SwapInfo) (pc : PollerPc) : World :=
  { s with pollers := s.pollers.set i { p with swap := swap, pc := pc } }

def endPoller (s : World) (i : ℕ) (p : Poller) : World :=
  setPoller { s with jobs := Function.update s.jobs p.swap.id false } i p p.swap .ended

def StatusAnswer.isStatus : StatusAnswer → Bool
  | .status .. => true
  | .error _ => false

def polledCopy (p : Poller) (now : ℤ) (answer : StatusAnswer) : SwapInfo :=
  (applyAnswer p.swap now answer).getD p.swap

/-- A rate limit only delays the next turn; a terminal status ends the loop. -/
def pollAnswer (s : World) (i : ℕ) (p : Poller) (answer : StatusAnswer) (ok : Bool) (now : ℤ) :
    World :=
  if answer = .error .rateLimited then s
  else
    setPoller (persistAnswer s p.walletId (applyAnswer p.swap now answer) ok) i p
      (polledCopy p now answer)
      (if answer.isStatus && (polledCopy p now answer).state.isTerminal then .stop else .loop)

def pollStep (s : World) (i : ℕ) (p : Poller) : PollAnswer → Option World
  | .spawn ok =>
    if p.pc = .spawn then some (if ok then setPoller s i p p.swap .loop else endPoller s i p)
    else none
  | .quit => if p.pc = .loop then some (setPoller s i p p.swap .stop) else none
  | .status answer ok now =>
    if p.pc = .loop then
      if p.swap.depositAddress = none then some (setPoller s i p p.swap .stop)
      else some (pollAnswer s i p answer ok now)
    else none
  | .drop => if p.pc = .stop then some (endPoller s i p) else none

/-! ## The system -/

inductive Action
  | requestSwapQuote (record : QuoteRecord) (now : ℤ)
  | startSwap (req : StartSwapRequest) (now : ℤ)
  | call (i : ℕ) (answer : CallAnswer)
  | refreshSwapStatus (w : WalletId) (id : SwapId)
  | refresh (i : ℕ) (answer : RefreshAnswer)
  | poll (i : ℕ) (answer : PollAnswer)
  | resumePendingSwaps (w : WalletId) (now : ℤ)
  | resume (i : ℕ)
  | crash
  deriving DecidableEq, Repr

def resumeStep (s : World) (i : ℕ) (r : Resume) : Option World :=
  match r.left with
  | [] => none
  | swap :: left =>
    some (startPolling { s with resumes := s.resumes.set i { r with left := left } } r.walletId
      swap)

def step (s : World) : Action → Option World
  | .requestSwapQuote record now => some { s with quotes := storeQuote s.quotes record now }
  | .startSwap req now =>
    match startSwap s.quotes req now with
    | (.error _, quotes) => some { s with quotes := quotes }
    | (.ok record, quotes) =>
      some { s with quotes := quotes, calls := s.calls ++ [⟨req.walletId, record, .insert⟩] }
  | .call i answer => s.calls[i]?.bind fun c => callStep s i c answer
  | .refreshSwapStatus w id =>
    match loadForRefresh s.swaps w id with
    | none => some s
    | some swap => some { s with refreshes := s.refreshes ++ [⟨w, swap, .acquire⟩] }
  | .refresh i answer => s.refreshes[i]?.bind fun r => refreshStep s i r answer
  | .poll i answer => s.pollers[i]?.bind fun p => pollStep s i p answer
  | .resumePendingSwaps w now =>
    some { s with resumes := s.resumes ++ [⟨w, listPollableSwapsForWallet s.swaps w now⟩] }
  | .resume i => s.resumes[i]?.bind fun r => resumeStep s i r
  | .crash => some s.restart

def swapSystem : System World Action where
  init s := s = World.fresh
  step := step

end ZbagSwap
