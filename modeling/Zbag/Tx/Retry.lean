import Mathlib.Algebra.Group.Int.Defs
import Zbag.Account.Ids
import Zbag.Tx.Queue
import Zbag.Wallet.Manager

/-!
# Transactions — listing and retrying

`list_transactions` offers a retry for what is queued and may still be sent; `retry_broadcast` looks
up the sending account, passes the spend gate and the queue, and sends. After enough transport
failures it switches to another server and goes on; the outcome is kept with the entry.

* `Server`, `tryFailoverServer`;
* `updateQueuedBroadcastError`, `decryptQueuedTxBytes`;
* `retryLoop`, `retryBroadcast`: on a bounded number of rounds.
-/

namespace ZbagRetry

open ZbagTx ZbagQueue ZbagWallet ZbagAccount

/-! ## Listing -/

structure TxRow where
  account : AccountUuid
  txid : TxId
  minedHeight : Option ℤ
  expiryHeight : Option ℤ
  feePaid : Option ℤ
  totalSpent : ℤ
  totalReceived : ℤ
  blockTime : Option ℤ
  isShielding : Bool
  sentNoteCount : ℤ
  receivedNoteCount : ℤ
  deriving DecidableEq, Repr

structure TxOutput where
  txid : TxId
  fromAccount : Option AccountUuid
  deriving DecidableEq, Repr

structure WalletRows where
  transactions : Table fun row : TxRow => (row.account, row.txid)
  outputs : List TxOutput
  chainHeight : Option ℕ

inductive TransactionType
  | send
  | receive
  | shield
  | consolidate
  deriving DecidableEq, Repr

inductive TransactionStatus
  | pending
  | confirmed
  | failed
  | expired
  deriving DecidableEq, Repr

/-- `createdAt` is the time of the call for a transaction that is not in a block. -/
structure TransactionInfo where
  txid : TxId
  accountId : AccountId
  txType : TransactionType
  value : ℕ
  fee : ℕ
  status : TransactionStatus
  lastError : Option String
  canRetryBroadcast : Bool
  minedHeight : Option ℕ
  createdAt : ℤ
  confirmedAt : Option ℤ
  deriving DecidableEq, Repr

/-- `u32::try_from`. -/
def toU32 (n : ℤ) : Option ℕ := if 0 ≤ n ∧ n < 2 ^ 32 then some n.toNat else none

def TxRow.txType (row : TxRow) : TransactionType :=
  if row.isShielding then .shield
  else if 0 < row.sentNoteCount then .send
  else if 0 < row.receivedNoteCount then .receive
  else .consolidate

def TxRow.fee (row : TxRow) : ℕ := (row.feePaid.getD 0).toNat

def TxRow.value (row : TxRow) : ℕ :=
  match row.txType with
  | .send => row.totalSpent.toNat - row.totalReceived.toNat - row.fee
  | .shield | .receive | .consolidate => row.totalReceived.toNat

def TxRow.mined (row : TxRow) : Option ℕ := row.minedHeight.bind toU32

def TxRow.expired (chainHeight : Option ℕ) (row : TxRow) : Bool :=
  row.mined.isNone &&
    match row.expiryHeight.bind toU32, chainHeight with
    | some expiry, some height => expiry < height
    | _, _ => false

def TxRow.status (chainHeight : Option ℕ) (row : TxRow) : TransactionStatus :=
  if row.expired chainHeight then .expired
  else if row.mined.isSome then .confirmed
  else .pending

def queuedBroadcastErrorForDisplay (entry : QueuedBroadcastMeta) : Option String :=
  match entry.lastError, entry.terminalReason with
  | some lastError, some reason =>
    if containsText lastError.toList reason then some lastError
    else some (lastError ++ " [terminal: " ++ reason ++ "]")
  | some lastError, none => some lastError
  | none, reason => reason

def queueStatus : TransactionStatus → Option QueuedBroadcastMeta →
    TransactionStatus × Option String × Bool
  | .confirmed, _ => (.confirmed, none, false)
  | .expired, _ => (.expired, none, false)
  | .pending, some entry => (.failed, queuedBroadcastErrorForDisplay entry, entry.retryable)
  | .failed, some entry => (.failed, queuedBroadcastErrorForDisplay entry, entry.retryable)
  | status, none => (status, none, false)

def transactionInfo (queued : QueuedBroadcasts) (chainHeight : Option ℕ) (nowMs : ℤ)
    (a : AccountId) (row : TxRow) : TransactionInfo :=
  let (status, lastError, canRetry) :=
    queueStatus (row.status chainHeight) (queued.lookup row.txid)
  { txid := row.txid
    accountId := a
    txType := row.txType
    value := row.value
    fee := row.fee
    status := status
    lastError := lastError
    canRetryBroadcast := canRetry
    minedHeight := row.mined
    createdAt := (row.blockTime.map (· * 1000)).getD nowMs
    confirmedAt := row.blockTime.map (· * 1000) }

/-- The newest first. -/
def listedBefore (row row' : TxRow) : Prop :=
  row'.blockTime.getD 0 < row.blockTime.getD 0 ∨
    (row'.blockTime.getD 0 = row.blockTime.getD 0 ∧ row'.txid ≤ row.txid)

instance : DecidableRel listedBefore := fun _ _ => inferInstanceAs (Decidable (_ ∨ _))

def pageRows (rows : WalletRows) (account : AccountUuid) (limit offset : ℕ) : List TxRow :=
  (((rows.transactions.rows.filter (·.account = account)).insertionSort listedBefore).drop
    offset).take limit

def deleteExpired (chainHeight : Option ℕ) (d : QueueDir) (page : List TxRow) : QueueDir :=
  page.foldl
    (fun d row => if row.expired chainHeight then deleteQueuedBroadcast d row.txid else d) d

/-- With the directory afterwards. -/
def listTransactions (now : Time) (d : QueueDir) (accounts : AccountDb) (reads : DbReads)
    (rows : WalletRows) (a : AccountId) (limit offset : ℕ) :
    Except IpcError (List TransactionInfo × ℕ) × QueueDir :=
  let (d, queued) := scanQueuedBroadcasts now d
  match resolveWalletAccountUuid accounts reads a with
  | .error e => (.error e, d)
  | .ok uuid =>
    let page := pageRows rows uuid limit offset
    (.ok (page.map (transactionInfo queued rows.chainHeight (toUnixMs now) a),
      (rows.transactions.rows.filter (·.account = uuid)).length),
      deleteExpired rows.chainHeight d page)

/-! ## Servers -/

inductive Network
  | mainnet
  | testnet
  deriving DecidableEq, Repr

structure Server where
  id : ℕ
  network : Network
  grpcUrl : String
  isDefault : Bool
  deriving DecidableEq, Repr

def setDefaultServer (servers : List Server) (server : Server) : List Server :=
  servers.map fun other =>
    if other.id = server.id then { other with isDefault := true }
    else if other.network = server.network then { other with isDefault := false }
    else other

/-- The first other server that answers a probe becomes the default. -/
def tryFailoverServer (validateGrpcUrl probe : String → Bool) (network : Network)
    (currentGrpcUrl : String) (servers : List Server) : Option (Server × List Server) :=
  let networkServers :=
    servers.filter fun server => server.network = network && validateGrpcUrl server.grpcUrl
  if networkServers.length < 2 then none
  else
    match networkServers.find? (·.grpcUrl = currentGrpcUrl) <|>
      networkServers.find? (·.isDefault) with
    | none => none
    | some fromServer =>
      ((networkServers.filter (·.id ≠ fromServer.id)).find? fun server =>
        probe server.grpcUrl).map fun candidate =>
          (candidate, setDefaultServer servers candidate)

/-! ## Retrying -/

inductive TxError
  | ipc (e : IpcError)
  | other (message : String)
  deriving DecidableEq, Repr

structure Send where
  grpcUrl : String
  bytes : List ℕ
  answer : SendAnswer
  deriving DecidableEq, Repr

/-- A duplicate relay is none. -/
def Send.failure? (send : Send) : Option String :=
  match relay send.answer with
  | .accepted | .duplicate => none
  | .failed message => some message

structure Round where
  answer : SendAnswer
  probe : String → Bool

structure Loop where
  grpcTarget : String
  attemptCount : ℕ
  transportFailureStreak : ℕ
  servers : List Server
  sends : List Send
  failovers : List Server
  deriving DecidableEq, Repr

inductive LoopEnd
  | succeeded
  | failed (message : String) (retryable : Bool)
  deriving DecidableEq, Repr

/-- Where the retries run. -/
structure RetrySite where
  network : Network
  validateGrpcUrl : String → Bool

def attemptLeft (message : String) (attemptCount : ℕ) : Bool :=
  let errorClass := classifyBroadcastErrorMessage message
  (applyRetryPolicy (isRetryableBroadcastErrorClass errorClass) attemptCount (some errorClass)
    none).1

def nextStreak (message : String) (streak : ℕ) : ℕ :=
  if classifyBroadcastErrorMessage message = .transientTransport then saturatingAdd streak 1 else 0

def failover (site : RetrySite) (round : Round) (message : String) (l : Loop) :
    Option (Server × List Server) :=
  if classifyBroadcastErrorMessage message = .transientTransport ∧
      shouldTriggerFailover (nextStreak message l.transportFailureStreak) then
    tryFailoverServer site.validateGrpcUrl round.probe site.network l.grpcTarget l.servers
  else none

/-- At most `fuel` rounds. -/
def retryLoop (site : RetrySite) (bytes : List ℕ) (rounds : ℕ → Round) :
    ℕ → ℕ → Loop → Option (Loop × LoopEnd)
  | 0, _, _ => none
  | fuel + 1, i, l =>
    let send : Send := ⟨l.grpcTarget, bytes, (rounds i).answer⟩
    let l := { l with sends := l.sends ++ [send] }
    match send.failure? with
    | none => some (l, .succeeded)
    | some message =>
      let attemptCount := saturatingAdd l.attemptCount 1
      let retryable := attemptLeft message attemptCount
      match failover site (rounds i) message l with
      | some (server, servers) =>
        let l := { l with
          attemptCount := attemptCount
          grpcTarget := server.grpcUrl
          transportFailureStreak := 0
          servers := servers
          failovers := l.failovers ++ [server] }
        if retryable then retryLoop site bytes rounds fuel (i + 1) l
        else some (l, .failed message retryable)
      | none =>
        some ({ l with
          attemptCount := attemptCount
          transportFailureStreak := nextStreak message l.transportFailureStreak },
          .failed message retryable)

def freshMeta (createdAtMs : ℤ) : QueuedBroadcastMeta where
  createdAtMs := createdAtMs
  attemptCount := 0
  nextAttemptAtMs := none
  lastAttemptAtMs := none
  transportFailureStreak := 0
  retryable := true
  lastErrorClass := none
  terminalReason := none
  lastError := none

def FileData.meta? : FileData → Option QueuedBroadcastMeta
  | .json entry => some entry
  | .empty | .tx _ | .other => none

def updatedMeta (createdAt now : Time) (delayMs : ℤ) (existing : Option QueuedBroadcastMeta)
    (message : String) (retryable : Bool) (attemptCount streak : ℕ) : QueuedBroadcastMeta :=
  let existing := existing.getD (freshMeta (toUnixMs createdAt))
  let errorClass := classifyBroadcastErrorMessage message
  let policy := applyRetryPolicy retryable attemptCount (some errorClass) existing.terminalReason
  { createdAtMs := existing.createdAtMs
    attemptCount := attemptCount
    nextAttemptAtMs := if policy.1 then some (toUnixMs now + delayMs) else none
    lastAttemptAtMs := some (toUnixMs now)
    transportFailureStreak := streak
    retryable := policy.1
    lastErrorClass := some errorClass
    terminalReason := policy.2
    lastError := some message }

/-- Sealed for the wallet and the name of the file. -/
def decryptQueuedTxBytes (w : WalletId) (txid : TxId) : Option (File FileData) →
    Except TxError (List ℕ)
  | none => .error (.other "failed to read queued tx bytes")
  | some ⟨_, .tx sealed⟩ =>
    if sealed.walletId = w ∧ sealed.txid = txid then .ok sealed.bytes
    else .error (.other "failed to decrypt queued tx: aead::Error")
  | some ⟨_, .empty⟩ => .error (.other "queued tx blob too short")
  | some _ => .error (.other "failed to decrypt queued tx: aead::Error")

structure RetryDb where
  appDb : AppDb
  accounts : AccountDb
  reads : DbReads
  rows : WalletRows

/-- Its readings of the clock, the answers to its rounds and the backoff. -/
structure RetryEnv where
  db : RetryDb
  site : RetrySite
  grpcUrl : String
  clock : ℕ → Time
  rounds : ℕ → Round
  delayMs : ℤ
  onTxChanged : Bool

/-- Its ZIP 32 index: `none` is no row. -/
def sendingAccount (db : RetryDb) (txid : TxId) : Option (Option AccountId) :=
  db.rows.outputs.findSome? fun output =>
    if output.txid = txid then
      (output.fromAccount.bind db.accounts.find?).map Account.derivedId
    else none

structure RetryState where
  dir : QueueDir
  servers : List Server

structure RetryReport where
  result : Except TxError TxId
  state : RetryState
  sends : List Send
  failovers : List Server

def lookupSender (db : RetryDb) (txid : TxId) : Except TxError AccountId :=
  match sendingAccount db txid with
  | none => .error (.ipc ⟨.queuedBroadcastNotFound, "queued broadcast not found"⟩)
  | some none => .error (.other "Invalid column type Null at index: 0, name: hd_account_index")
  | some (some accountId) => .ok accountId

def lookupEntry (queued : QueuedBroadcasts) (txid : TxId) : Except TxError QueuedBroadcastMeta :=
  match queued.lookup txid with
  | none => .error (.ipc ⟨.queuedBroadcastNotFound, "queued broadcast not found"⟩)
  | some entry =>
    if entry.retryable then .ok entry
    else .error (.ipc ⟨.transactionFailed, "broadcast failure is terminal and cannot be retried"⟩)

def retryChecks (db : RetryDb) (w : WalletId) (queued : QueuedBroadcasts) (d : QueueDir)
    (txid : TxId) : Except TxError (AccountId × QueuedBroadcastMeta × List ℕ) := do
  let accountId ← lookupSender db txid
  (ensureSpendAllowed db.appDb w accountId).mapError .ipc
  let entry ← lookupEntry queued txid
  let bytes ← decryptQueuedTxBytes w txid (d.file (.bin txid))
  return (accountId, entry, bytes)

def settle (env : RetryEnv) (txid : TxId) (d : QueueDir) (l : Loop) : LoopEnd → QueueDir
  | .succeeded => deleteQueuedBroadcast d txid
  | .failed message retryable =>
    d.create (.json txid) (.json (updatedMeta (env.clock 1) (env.clock 2) env.delayMs
      ((d.file (.json txid)).bind fun file => FileData.meta? file.data) message retryable
      l.attemptCount l.transportFailureStreak))

def retryResult (txid : TxId) (listed : Except IpcError (List TransactionInfo × ℕ)) :
    LoopEnd → Except TxError TxId
  | outcome =>
    match listed, outcome with
    | .error e, _ => .error (.ipc e)
    | .ok _, .succeeded => .ok txid
    | .ok _, .failed message _ => .error (.other message)

def retryBroadcast (w : WalletId) (env : RetryEnv) (txid : TxId) (fuel : ℕ) (s : RetryState) :
    Option RetryReport :=
  let (d, queued) := scanQueuedBroadcasts (env.clock 0) s.dir
  match retryChecks env.db w queued d txid with
  | .error e => some ⟨.error e, { s with dir := d }, [], []⟩
  | .ok (accountId, entry, bytes) =>
    (retryLoop env.site bytes env.rounds fuel 0
      ⟨env.grpcUrl, entry.attemptCount, entry.transportFailureStreak, s.servers, [], []⟩).map
      fun (l, outcome) =>
        let d := (scanQueuedBroadcasts (env.clock 3) (settle env txid d l outcome)).1
        let (listed, d) :=
          if env.onTxChanged then
            listTransactions (env.clock 4) d env.db.accounts env.db.reads env.db.rows accountId
              200 0
          else (.ok ([], 0), d)
        ⟨retryResult txid listed outcome, ⟨d, l.servers⟩, l.sends, l.failovers⟩

/-! ## Files that go -/

theorem thins_deleteExpired (height : Option ℕ) (d : QueueDir) (page : List TxRow) :
    Directory.Thins d (deleteExpired height d page) := by
  induction page generalizing d with
  | nil => exact .refl _
  | cons row page ih =>
    refine Directory.Thins.trans ?_ (ih _)
    dsimp only
    split_ifs
    · exact thins_delete d row.txid
    · exact .refl _

theorem thins_list (now : Time) (d : QueueDir) (db : RetryDb) (a : AccountId)
    (limit offset : ℕ) :
    Directory.Thins d (listTransactions now d db.accounts db.reads db.rows a limit offset).2 := by
  unfold listTransactions
  dsimp only
  split
  · exact thins_scan now d
  · exact (thins_scan now d).trans (thins_deleteExpired _ _ _)

/-! ## Passing the checks -/

theorem retryChecks_eq_ok {db : RetryDb} {w : WalletId} {queued : QueuedBroadcasts} {d : QueueDir}
    {txid : TxId} {accountId : AccountId} {entry : QueuedBroadcastMeta} {bytes : List ℕ} :
    retryChecks db w queued d txid = .ok (accountId, entry, bytes) ↔
      lookupSender db txid = .ok accountId ∧ ensureSpendAllowed db.appDb w accountId = .ok () ∧
      lookupEntry queued txid = .ok entry ∧
      decryptQueuedTxBytes w txid (d.file (.bin txid)) = .ok bytes := by
  unfold retryChecks
  cases lookupSender db txid with
  | error e => simp [bind, Except.bind]
  | ok a =>
    cases hspend : ensureSpendAllowed db.appDb w a with
    | error e =>
      simp only [bind, Except.bind, Except.mapError, hspend, reduceCtorEq, false_iff]
      rintro ⟨ha, hok, -⟩
      rw [← Except.ok.inj ha, hspend] at hok
      cases hok
    | ok _ =>
      cases lookupEntry queued txid with
      | error e => simp [bind, Except.bind, Except.mapError, hspend]
      | ok m =>
        cases decryptQueuedTxBytes w txid (d.file (.bin txid)) with
        | error e => simp [bind, Except.bind, Except.mapError, hspend]
        | ok data =>
          simp only [bind, Except.bind, Except.mapError, hspend, pure, Except.pure, Except.ok.injEq,
            Prod.mk.injEq]
          constructor
          · rintro ⟨rfl, rfl, rfl⟩
            exact ⟨rfl, hspend, rfl, rfl⟩
          · rintro ⟨rfl, -, rfl, rfl⟩
            exact ⟨rfl, rfl, rfl⟩

theorem lookupEntry_eq_ok {queued : QueuedBroadcasts} {txid : TxId} {entry : QueuedBroadcastMeta} :
    lookupEntry queued txid = .ok entry ↔
      queued.lookup txid = some entry ∧ entry.retryable = true := by
  unfold lookupEntry
  cases queued.lookup txid with
  | none => simp
  | some m =>
    dsimp only
    split_ifs with h
    · rw [Except.ok.injEq, Option.some.injEq]
      constructor
      · rintro rfl
        exact ⟨rfl, h⟩
      · exact And.left
    · simp only [Option.some.injEq, false_iff, not_and]
      rintro rfl
      exact h

end ZbagRetry
