import Mathlib.Algebra.Group.Nat.Defs
import Mathlib.Logic.Function.Basic
import Mathlib.Tactic.Common

/-!
# Wallet — what the wallet manager keeps

The data behind the wallet operations: the rows of the app database that they read, the active
wallet, the in-memory tables of the manager and of the transaction service, the tasks that run
outside the manager's lock, and a record of the transactions built and sent. Tables are partial
functions; a write is `Function.update`.
-/

namespace ZbagWallet

abbrev WalletId := ℕ

/-- `u32` -/
abbrev AccountId := ℕ

inductive WalletType
  | software
  | watchOnly
  deriving DecidableEq, Repr

inductive AccountType
  | software
  | watchOnly
  | hardwareSigner
  deriving DecidableEq, Repr

inductive WalletLockStatus
  | locked
  | unlocked
  deriving DecidableEq, Repr

inductive ReauthPurpose
  | spend
  | viewSeedPhrase
  deriving DecidableEq, Repr

/-! ## Errors -/

inductive ErrorCode
  | invalidRequest
  | internalError
  | walletNotFound
  | walletLocked
  | invalidWalletPassword
  | backupRequired
  | backupChallengeInvalid
  | backupChallengeExpired
  | backupChallengeTooManyAttempts
  | reauthTokenInvalid
  | reauthTokenExpired
  | accountNotFound
  | invalidSeedPhrase
  | invalidUfvk
  | watchOnlyCannotSpend
  | watchOnlyCannotShield
  | watchOnlyNoBackup
  | watchOnlyNoSeed
  | proposalNotFound
  | proposalExpired
  | transparentSpendBlocked
  | transactionFailed
  | queuedBroadcastNotFound
  | insufficientFunds
  | privacyAckRequired
  | memoNotAllowed
  | memoTooLong
  | invalidPczt
  | signingFailed
  | quoteExpired
  | swapUnsupportedNetwork
  | swapFailed
  deriving DecidableEq, Repr

structure IpcError where
  code : ErrorCode
  message : String
  deriving DecidableEq, Repr

/-! ## Tables -/

structure AppDb where
  wallets : WalletId → Option WalletType
  backupRequired : WalletId → Option Bool
  accounts : WalletId → AccountId → Option AccountType

/-- A missing row counts as `true`. -/
def AppDb.backupFlag (db : AppDb) (w : WalletId) : Bool := (db.backupRequired w).getD true

/-- Known by the wallet it was made for. -/
structure Dek where
  wallet : WalletId
  deriving DecidableEq, Repr

structure Connection where
  wallet : WalletId
  deriving DecidableEq, Repr

structure ActiveWallet where
  wallet : WalletId
  walletType : WalletType
  lockStatus : WalletLockStatus
  dek : Option Dek
  walletDb : Option Connection
  deriving DecidableEq, Repr

structure BackupChallengeState where
  challengeId : ℕ
  indices : List ℕ
  expiresAt : ℕ
  failedAttempts : ℕ
  deriving DecidableEq, Repr

structure TokenRecord where
  walletId : WalletId
  purpose : ReauthPurpose
  expiresAt : ℕ
  used : Bool
  deriving DecidableEq, Repr

/-- `transparentInputs`: for each step; `serial`: among all proposals ever made. -/
structure ProposalRecord where
  walletId : WalletId
  accountId : AccountId
  expiresAt : ℕ
  transparentInputs : List Bool
  serial : ℕ
  deriving DecidableEq, Repr

structure PendingSigningRequest where
  walletId : WalletId
  expiresAt : ℕ
  deriving DecidableEq, Repr

/-! ## Tasks and the transactions they make -/

/-- `readAt` is the clock of the call which took it. -/
structure TakenProposal where
  proposalId : ℕ
  record : ProposalRecord
  readAt : ℕ
  deriving DecidableEq, Repr

/-- Builds or sends transactions outside the manager's lock. -/
inductive TaskKind
  | confirmSend
  | shieldFunds
  | finalizeSigning
  | retryBroadcast
  | sendJob
  | shieldJob
  deriving DecidableEq, Repr

inductive TaskPc
  | gate
  | create
  | send (left : ℕ)
  | finished
  deriving DecidableEq, Repr

structure Task where
  kind : TaskKind
  walletId : WalletId
  accountId : AccountId
  transparentInputs : List Bool
  proposal : Option TakenProposal
  pc : TaskPc
  deriving DecidableEq, Repr

inductive TxEventKind
  | created
  | sent
  deriving DecidableEq, Repr

/-- With the stored backup flag at that moment and its proposal. -/
structure TxEvent where
  walletId : WalletId
  kind : TxEventKind
  backupRequired : Bool
  proposal : Option TakenProposal
  deriving DecidableEq, Repr

/-- `prepared` counts the proposals made so far. -/
structure World where
  appDb : AppDb
  mnemonics : WalletId → Option (List String)
  activeWallet : Option ActiveWallet
  backupChallenges : WalletId → Option BackupChallengeState
  tokens : ℕ → Option TokenRecord
  proposals : ℕ → Option ProposalRecord
  prepared : ℕ
  pendingSigningRequests : ℕ → Option PendingSigningRequest
  tasks : List Task
  log : List TxEvent

def World.fresh : World where
  appDb := ⟨fun _ => none, fun _ => none, fun _ _ => none⟩
  mnemonics _ := none
  activeWallet := none
  backupChallenges _ := none
  tokens _ := none
  proposals _ := none
  prepared := 0
  pendingSigningRequests _ := none
  tasks := []
  log := []

abbrev Op := ExceptT IpcError (StateM World)

def ipcErr {α : Type} (code : ErrorCode) (message : String) : Op α := throw ⟨code, message⟩

/-- The state it leaves, whatever it returns. -/
def Op.exec {α : Type} (op : Op α) (s : World) : World := (op.run s).2

def World.record (s : World) (w : WalletId) (kind : TxEventKind)
    (proposal : Option TakenProposal) : World :=
  { s with log := ⟨w, kind, s.appDb.backupFlag w, proposal⟩ :: s.log }

end ZbagWallet
