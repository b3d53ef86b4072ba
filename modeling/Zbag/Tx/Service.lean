import Zbag.Lib.Script
import Zbag.Tx.Broadcast
import Zbag.Tx.Pricing
import Zbag.Wallet.Manager

/-!
# Transactions — sending and shielding in one call

`confirm_send` and `shield_funds` of the transaction service build transactions and broadcast them
before they return. Each step can fail, and an error returns at once: what was sent or queued
before stays so.

* `TxEnv`, `ConfirmEnv`, `BatchEnv`, `ShieldEnv`: what the steps of a call meet outside;
* `confirmSend`, `executePreparedConfirmSendTask`;
* `shieldBatch`, `shieldBatches`, `shieldFunds`.
-/

namespace ZbagTx

open Script ZbagWallet

abbrev TxCall := Call IpcError Outbox

def fail {α : Type} (code : ErrorCode) (message : String) : TxCall α :=
  throw (.error ⟨code, message⟩)

def errorOf : Except IpcError Unit → Option IpcError
  | .ok _ => none
  | .error e => some e

/-- Its cause is in the log only. -/
def internal (message : String) (cause : Option String) : Option IpcError :=
  cause.map fun _ => ⟨.internalError, message⟩

def transactionFailed (what : String) (cause : Option String) : Option IpcError :=
  cause.map fun e => ⟨.transactionFailed, what ++ e⟩

/-! ## One transaction -/

/-- `queue`: the error of `queue_broadcast`. -/
structure TxEnv where
  txid : TxId
  load : Option LoadError
  send : SendAnswer
  queue : Option String
  deriving DecidableEq, Repr

def TxEnv.loadError (tx : TxEnv) : Option IpcError :=
  tx.load.map fun e => ⟨.transactionFailed, e.text⟩

def TxEnv.queueError (tx : TxEnv) : Option IpcError :=
  internal "failed to write queued tx bytes" tx.queue

/-- What is not delivered goes to the retry queue. -/
def sendOrQueue (tx : TxEnv) : TxCall Unit := do
  check tx.loadError
  if (relay tx.send).isFailed then
    modify fun o => o.send tx.txid tx.send
    check tx.queueError
    modify fun o => o.queue tx.txid
  else
    modify fun o => (o.send tx.txid tx.send).unqueue tx.txid

def scanQueuedBroadcasts (error : Option String) : TxCall Unit :=
  check (internal "failed to read queued broadcasts dir" error)

/-! ## Sending -/

/-- `scan`: the error of the scan after the broadcasts. -/
structure ConfirmEnv where
  now : ℕ
  openWalletDb : Option String
  openAppDb : Option String
  appDb : AppDb
  /-- at least one -/
  build : Except String (TxEnv × List TxEnv)
  scan : Option String

def proposalError (env : ConfirmEnv) (w : WalletId) (record : ProposalRecord) : Option IpcError :=
  if record.walletId ≠ w then some ⟨.proposalNotFound, "proposal not found"⟩
  else if record.expiresAt < env.now then some ⟨.proposalExpired, "proposal expired"⟩
  else none

def transparentInputsError (record : ProposalRecord) : Option IpcError :=
  if record.transparentInputs.any id then
    some ⟨.transparentSpendBlocked, "transparent inputs are not allowed for sends"⟩
  else none

def sendAll : List TxEnv → TxCall Unit
  | [] => pure ()
  | tx :: txs => do
    sendOrQueue tx
    sendAll txs

def confirmSend (env : ConfirmEnv) (w : WalletId) (record : ProposalRecord) : TxCall TxId := do
  check (proposalError env w record)
  check (internal "failed to open app db for send policy checks" env.openAppDb)
  check (errorOf (ensureSpendAllowed env.appDb w record.accountId))
  check (transparentInputsError record)
  match env.build with
  | .error e => fail .transactionFailed ("failed to build tx: " ++ e)
  | .ok (tx, txs) => do
    modify fun o => o.store ((tx :: txs).map TxEnv.txid)
    sendAll (tx :: txs)
    scanQueuedBroadcasts env.scan
    return tx.txid

/-- With the proposal that the task took along. -/
def executePreparedConfirmSendTask (env : ConfirmEnv) (w : WalletId) (record : ProposalRecord) :
    TxCall TxId := do
  check (internal "failed to open wallet db" env.openWalletDb)
  confirmSend env w record

/-! ## Shielding -/

/-- The queue is scanned after each transaction. -/
structure ShieldTxEnv extends TxEnv where
  scan : Option String
  deriving DecidableEq, Repr

structure BatchEnv where
  walletMeta : Option String
  answers : List StrategyAnswer
  proposal : Option String
  build : Except String (ShieldTxEnv × List ShieldTxEnv)

structure ShieldFundsResponse where
  txid : TxId
  fee : ℕ
  deriving DecidableEq, Repr

def shieldSend (tx : ShieldTxEnv) : TxCall Unit := do
  sendOrQueue tx.toTxEnv
  scanQueuedBroadcasts tx.scan

/-- The first transaction of the call is its primary one. -/
def shieldSends (fee : ℕ) :
    List ShieldTxEnv → Option ShieldFundsResponse → TxCall (Option ShieldFundsResponse)
  | [], primary => pure primary
  | tx :: txs, primary => do
    shieldSend tx
    shieldSends fee txs (some (primary.getD ⟨tx.txid, fee⟩))

def shieldBuild (env : BatchEnv) (fee : ℕ) (primary : Option ShieldFundsResponse) :
    TxCall (Option ShieldFundsResponse) := do
  check (transactionFailed "invalid shielding proposal: " env.proposal)
  match env.build with
  | .error e => fail .transactionFailed ("failed to build shielding tx: " ++ e)
  | .ok (tx, txs) => do
    modify fun o => o.store ((tx :: txs).map fun tx => tx.txid)
    shieldSends fee (tx :: txs) primary

def shieldBatch (env : BatchEnv) (batch : List OutPoint) (primary : Option ShieldFundsResponse) :
    TxCall (Option ShieldFundsResponse) :=
  if batch.isEmpty then pure primary
  else do
    check (internal "failed to load wallet metadata for shielding" env.walletMeta)
    match priceBatch batch env.answers with
    | none => throw .waiting
    | some .skip => pure primary
    | some (.insufficientFunds _ _) =>
      fail .insufficientFunds "insufficient transparent balance to cover shielding fee"
    | some (.failed e) => fail .transactionFailed ("failed to compute shielding balance: " ++ e)
    | some (.inputs _ fee) => shieldBuild env fee primary

def shieldBatchLoop :
    List (List OutPoint) → List BatchEnv → Option ShieldFundsResponse →
      TxCall (Option ShieldFundsResponse)
  | [], _, primary => pure primary
  | _ :: _, [], _ => throw .waiting
  | batch :: batches, env :: envs, primary => do
    let primary ← shieldBatch env batch primary
    shieldBatchLoop batches envs primary

structure ShieldEnv where
  openAppDb : Option String
  appDb : AppDb
  /-- account, receivers, chain height and spendable outputs -/
  setup : Except SetupError (List OutPoint)
  batches : List BatchEnv

/-- An error before the batch loop. -/
def setupIpcError : SetupError → IpcError
  | .listAccounts _ => ⟨.internalError, "failed to resolve wallet account"⟩
  | .accountNotFound => ⟨.accountNotFound, "account not found"⟩
  | .transparentReceivers _ => ⟨.internalError, "failed to list transparent receivers"⟩
  | .chainHeight _ => ⟨.internalError, "failed to read chain height"⟩
  | .mustScan => ⟨.transactionFailed, "must scan blocks first"⟩
  | .transparentOutputs _ => ⟨.internalError, "failed to list transparent outputs"⟩

def shieldResponse (primary : Option ShieldFundsResponse) : TxCall ShieldFundsResponse :=
  match primary with
  | none => fail .insufficientFunds "no transparent funds to shield"
  | some response => pure response

def shieldFunds (env : ShieldEnv) (w : WalletId) (a : AccountId) : TxCall ShieldFundsResponse := do
  check (internal "failed to open app db for shield policy checks" env.openAppDb)
  check (errorOf (ensureSpendAllowed env.appDb w a))
  match env.setup with
  | .error e => throw (.error (setupIpcError e))
  | .ok inputs =>
    if inputs.isEmpty then fail .insufficientFunds "no transparent funds to shield"
    else do
      let primary ← shieldBatchLoop (shieldingBatches inputs) env.batches none
      shieldResponse primary

end ZbagTx
