import Zbag.Wallet.State

/-!
# Wallet — the operations of the wallet manager

Each operation of the wallet manager and of the transaction service that runs under the manager's
lock, in the order of the checks of the source. What comes from outside (the clock, key derivation,
the proposer, database errors) is the `Env` of the call.

* `prepareConfirmSendTask`, `prepareShieldFundsTask`, `prepareFinalizeSigningTask`,
  `prepareRetryBroadcastTask`, `startSendJob`, `startShieldJob`, `startSwap`: the ways to a task.
-/

namespace ZbagWallet

structure Env where
  /-- the clock -/
  now : ℕ
  /-- when the call checks a reauth token -/
  tokenAt : ℕ
  /-- when it takes a proposal or a signing request -/
  takenAt : ℕ
  /-- writes to the app database succeed -/
  appDb : Bool
  /-- the spending key can be derived -/
  deriveKey : Bool
  /-- a server is configured -/
  resolveGrpcUrl : Bool
  /-- the databases can be opened -/
  preflight : Bool
  /-- the stored directory is the one of its network -/
  walletDir : Bool
  /-- the queue can be scanned -/
  scan : Bool
  /-- for each step of the proposal, whether it has transparent inputs -/
  propose : Except IpcError (List Bool)
  createPczt : Bool

def Env.works : Env := ⟨0, 0, 0, true, true, true, true, true, true, .ok [], true⟩

/-! ## Gates -/

def ensureBackupComplete (db : AppDb) (w : WalletId) : Except IpcError Unit :=
  if db.backupFlag w then .error ⟨.backupRequired, "backup required"⟩ else .ok ()

/-- `ensure_spend_allowed_conn`. -/
def ensureSpendAllowed (db : AppDb) (w : WalletId) (a : AccountId) : Except IpcError Unit :=
  if db.backupFlag w then .error ⟨.backupRequired, "backup required"⟩
  else
    match db.accounts w a with
    | none => .error ⟨.accountNotFound, "account not found"⟩
    | some .software => .ok ()
    | some _ => .error ⟨.watchOnlyCannotSpend, "watch-only accounts cannot spend"⟩

def ofExcept {α : Type} : Except IpcError α → Op α
  | .ok a => pure a
  | .error e => throw e

/-! ## The active wallet -/

def activeWallet : Op ActiveWallet := do
  let some active := (← get).activeWallet | ipcErr .walletLocked "wallet locked"
  return active

/-- Also `require_unlocked_wallet_snapshot`. -/
def unlockedWalletDek (w : WalletId) : Op Dek := do
  let active ← activeWallet
  if active.wallet ≠ w then ipcErr .walletNotFound "wallet not found"
  if active.lockStatus ≠ .unlocked then ipcErr .walletLocked "wallet locked"
  let some dek := active.dek | ipcErr .walletLocked "wallet locked"
  return dek

/-- As `prepare_send` and `build_signing_request` need it. -/
def activeWalletDb : Op ActiveWallet := do
  let active ← activeWallet
  if active.lockStatus ≠ .unlocked then ipcErr .walletLocked "wallet locked"
  let some _ := active.walletDb | ipcErr .walletLocked "wallet locked"
  return active

def requireUnlockedWalletDb (w : WalletId) : Op Connection := do
  let active ← activeWallet
  if active.wallet ≠ w then ipcErr .walletNotFound "wallet not found"
  if active.lockStatus ≠ .unlocked then ipcErr .walletLocked "wallet locked"
  let some conn := active.walletDb | ipcErr .walletLocked "wallet locked"
  return conn

structure TxOperationContext where
  walletId : WalletId
  dek : Dek
  deriving DecidableEq, Repr

def getTxOperationContext (env : Env) : Op TxOperationContext := do
  let active ← activeWallet
  if active.lockStatus ≠ .unlocked then ipcErr .walletLocked "wallet locked"
  let some dek := active.dek | ipcErr .walletLocked "wallet locked"
  if !env.resolveGrpcUrl then
    ipcErr .internalError "failed to resolve active lightwalletd endpoint"
  return ⟨active.wallet, dek⟩

def consumeReauthToken (env : Env) (w : WalletId) (token : ℕ) (purpose : ReauthPurpose) :
    Op Unit := do
  let some record := (← get).tokens token
    | ipcErr .reauthTokenInvalid "reauth token invalid"
  if record.used then ipcErr .reauthTokenInvalid "reauth token invalid"
  if record.walletId ≠ w ∨ record.purpose ≠ purpose then
    ipcErr .reauthTokenInvalid "reauth token invalid"
  if record.expiresAt < env.tokenAt then ipcErr .reauthTokenExpired "reauth token expired"
  modify fun s =>
    { s with tokens := Function.update s.tokens token (some { record with used := true }) }

/-- After the password was checked: a token for two minutes. -/
def reauthWallet (env : Env) (w : WalletId) (purpose : ReauthPurpose) (token : ℕ) : Op Unit := do
  let some _ := (← get).appDb.wallets w | ipcErr .walletNotFound "wallet not found"
  modify fun s =>
    { s with tokens := Function.update s.tokens token (some ⟨w, purpose, env.now + 120000, false⟩) }

/-- Under the wallet's own key. -/
def decryptMnemonic (w : WalletId) (dek : Dek) : Op (List String) := do
  let some words := (← get).mnemonics w | ipcErr .internalError "failed to decrypt mnemonic"
  if dek.wallet ≠ w then ipcErr .internalError "failed to decrypt mnemonic"
  return words

/-- From the seed of a wallet. -/
structure UnifiedSpendingKey where
  wallet : WalletId
  account : AccountId
  deriving DecidableEq, Repr

def deriveUnifiedSpendingKey (env : Env) (w : WalletId) (a : AccountId) :
    Op UnifiedSpendingKey := do
  let dek ← unlockedWalletDek w
  let _ ← decryptMnemonic w dek
  if 2 ^ 31 ≤ a then ipcErr .invalidRequest "invalid account_id"
  if !env.deriveKey then ipcErr .internalError "failed to derive spending key"
  return ⟨w, a⟩

/-! ## Wallets -/

/-- The id is the primary key. -/
def insertWallet (env : Env) (w : WalletId) (walletType : WalletType) : Op Unit := do
  if (← get).appDb.wallets w ≠ none ∨ !env.appDb then
    ipcErr .internalError "UNIQUE constraint failed: wallets.id"
  modify fun s =>
    { s with appDb := { s.appDb with wallets := Function.update s.appDb.wallets w walletType } }

def setBackupRequired (env : Env) (w : WalletId) (required : Bool) : Op Unit := do
  if !env.appDb then ipcErr .internalError "app db write failed"
  modify fun s =>
    { s with
      appDb := { s.appDb with
        backupRequired := Function.update s.appDb.backupRequired w required } }

def markBackupComplete (env : Env) (w : WalletId) : Op Unit := setBackupRequired env w false

def upsertAccount (env : Env) (w : WalletId) (a : AccountId) (accountType : AccountType) :
    Op Unit := do
  if !env.appDb then ipcErr .internalError "failed to insert account metadata"
  modify fun s =>
    { s with
      appDb := { s.appDb with
        accounts := Function.update s.appDb.accounts w
          (Function.update (s.appDb.accounts w) a accountType) } }

/-- Four of the 24 words, for ten minutes. -/
def issueBackupChallenge (env : Env) (w : WalletId) (challengeId : ℕ) (indices : List ℕ) :
    Op Unit := do
  let some _ := (← get).appDb.wallets w | ipcErr .walletNotFound "wallet not found"
  modify fun s =>
    { s with
      backupChallenges := Function.update s.backupChallenges w
        (some ⟨challengeId, indices, env.now + 600000, 0⟩) }

/-- Encryption metadata, wallet database, key store. -/
def storeSecrets (w : WalletId) (words : Option (List String)) (ok : Bool) : Op Unit := do
  if !ok then ipcErr .internalError "failed to initialize encrypted wallet db"
  modify fun s => { s with mnemonics := Function.update s.mnemonics w words }

def activate (w : WalletId) (walletType : WalletType) : Op Unit :=
  modify fun s => { s with activeWallet := some ⟨w, walletType, .unlocked, some ⟨w⟩, some ⟨w⟩⟩ }

/-- Of the scan only the result matters here. -/
def scanQueuedBroadcasts (env : Env) : Op Unit := do
  if !env.scan then ipcErr .internalError "failed to scan queued broadcasts"

/-- From a valid request on; each of the three database writes may fail on its own. -/
def createWallet (env backupEnv accountEnv : Env) (w : WalletId) (words : List String)
    (secrets : Bool) (challengeId : ℕ) (indices : List ℕ) : Op Unit := do
  insertWallet env w .software
  setBackupRequired backupEnv w true
  storeSecrets w (some words) secrets
  upsertAccount accountEnv w 0 .software
  issueBackupChallenge accountEnv w challengeId indices
  activate w .software
  scanQueuedBroadcasts accountEnv

/-- The user typed the seed phrase: no backup is asked for. -/
def restoreWallet (env backupEnv accountEnv : Env) (w : WalletId) (words : List String)
    (secrets : Bool) : Op Unit := do
  insertWallet env w .software
  markBackupComplete backupEnv w
  storeSecrets w (some words) secrets
  upsertAccount accountEnv w 0 .software
  activate w .software
  scanQueuedBroadcasts accountEnv

/-- There is no seed to back up. -/
def createKeystoneWallet (env backupEnv accountEnv : Env) (w : WalletId) (secrets : Bool) :
    Op Unit := do
  insertWallet env w .watchOnly
  markBackupComplete backupEnv w
  storeSecrets w none secrets
  upsertAccount accountEnv w 0 .hardwareSigner
  activate w .watchOnly
  scanQueuedBroadcasts accountEnv

/-- The app database keeps the account row. -/
def importUfvk (env : Env) (w : WalletId) (a : AccountId) : Op Unit := do
  let _ ← requireUnlockedWalletDb w
  upsertAccount env w a .hardwareSigner

/-- An unlocked wallet stays unlocked, any other one is locked. -/
def loadWallet (env : Env) (w : WalletId) : Op Unit := do
  let some walletType := (← get).appDb.wallets w | ipcErr .walletNotFound "wallet not found"
  if !env.walletDir then ipcErr .invalidRequest "wallet directory does not match network"
  if !env.appDb then ipcErr .internalError "app db write failed"
  let keep := (← get).activeWallet.any fun active =>
    active.wallet == w && active.lockStatus == .unlocked && active.dek.isSome &&
      active.walletDb.isSome
  if !keep then
    modify fun s => { s with activeWallet := some ⟨w, walletType, .locked, none, none⟩ }
    scanQueuedBroadcasts env

/-- `password`: the key could be unwrapped. -/
def unlockWallet (env : Env) (w : WalletId) (password : Bool) : Op Unit := do
  let some walletType := (← get).appDb.wallets w | ipcErr .walletNotFound "wallet not found"
  if !env.walletDir then ipcErr .invalidRequest "wallet directory does not match network"
  if !password then ipcErr .invalidWalletPassword "invalid wallet password"
  if !env.preflight then ipcErr .internalError "failed to open wallet db"
  if !env.appDb then ipcErr .internalError "app db write failed"
  activate w walletType
  scanQueuedBroadcasts env

def lockWallet (w : WalletId) : Op Unit :=
  modify fun s =>
    { s with
      activeWallet := s.activeWallet.map fun active =>
        if active.wallet = w then
          { active with lockStatus := .locked, dek := none, walletDb := none }
        else active }

def clearProposalsForWallet (w : WalletId) : Op Unit :=
  modify fun s => { s with proposals := fun p => (s.proposals p).filter fun r => r.walletId ≠ w }

def removeBackupChallenge (w : WalletId) : Op Unit :=
  modify fun s => { s with backupChallenges := Function.update s.backupChallenges w none }

def logoutWallet (w : WalletId) : Op Unit := do
  let some active := (← get).activeWallet | ipcErr .walletNotFound "no active wallet"
  if active.wallet ≠ w then ipcErr .walletNotFound "wallet not active"
  removeBackupChallenge w
  clearProposalsForWallet w
  modify fun s => { s with activeWallet := none }

/-! ## Backup verification -/

/-- What `str::trim` removes (`White_Space`). -/
def isWhitespace (c : Char) : Bool :=
  (9 ≤ c.toNat && c.toNat ≤ 13) || c.toNat == 0x20 || c.toNat == 0x85 || c.toNat == 0xA0 ||
    c.toNat == 0x1680 || (0x2000 ≤ c.toNat && c.toNat ≤ 0x200A) || c.toNat == 0x2028 ||
    c.toNat == 0x2029 || c.toNat == 0x202F || c.toNat == 0x205F || c.toNat == 0x3000

def trim (s : String) : List Char :=
  ((s.toList.dropWhile isWhitespace).reverse.dropWhile isWhitespace).reverse

/-- Counted from one, leniently compared. -/
def wordMatches (words : List String) (answers : ℕ → Option String) (index : ℕ) : Bool :=
  match index, answers index with
  | i + 1, some actual =>
    match words[i]? with
    | some expected => (trim actual).map Char.toLower == expected.toList.map Char.toLower
    | none => false
  | _, _ => false

def isActiveWatchOnly (s : World) (w : WalletId) : Bool :=
  s.activeWallet.any fun active => active.wallet == w && active.walletType == .watchOnly

def getBackupChallenge (env : Env) (w : WalletId) (challengeId : ℕ) (indices : List ℕ) :
    Op Unit := do
  if isActiveWatchOnly (← get) w then
    ipcErr .watchOnlyNoBackup "no backup required for watch-only wallet"
  issueBackupChallenge env w challengeId indices

/-- The fifth wrong answer drops the challenge. -/
def countFailedAttempt (w : WalletId) (state : BackupChallengeState) : Op Unit := do
  let failedAttempts := min (state.failedAttempts + 1) 255
  if 5 ≤ failedAttempts then
    removeBackupChallenge w
    ipcErr .backupChallengeTooManyAttempts "too many failed attempts"
  modify fun s =>
    { s with
      backupChallenges :=
        Function.update s.backupChallenges w (some { state with failedAttempts }) }
  ipcErr .backupChallengeInvalid "backup challenge invalid"

def verifyBackup (env : Env) (w : WalletId) (challengeId : ℕ) (answers : ℕ → Option String) :
    Op Unit := do
  if isActiveWatchOnly (← get) w then
    ipcErr .watchOnlyNoBackup "no backup required for watch-only wallet"
  let some state := (← get).backupChallenges w
    | ipcErr .backupChallengeInvalid "backup challenge invalid"
  if state.challengeId ≠ challengeId then
    ipcErr .backupChallengeInvalid "backup challenge invalid"
  if state.expiresAt < env.now then
    removeBackupChallenge w
    ipcErr .backupChallengeExpired "backup challenge expired"
  if 5 ≤ state.failedAttempts then
    removeBackupChallenge w
    ipcErr .backupChallengeTooManyAttempts "too many failed attempts"
  let dek ← unlockedWalletDek w
  let words ← decryptMnemonic w dek
  if words.length ≠ 24 then ipcErr .internalError "invalid stored mnemonic"
  if state.indices.all (wordMatches words answers) then
    markBackupComplete env w
    removeBackupChallenge w
  else
    countFailedAttempt w state

/-- The token is used up before the wallet is known to be unlocked. -/
def viewSeedPhrase (env : Env) (w : WalletId) (token : ℕ) : Op (List String) := do
  if isActiveWatchOnly (← get) w then
    ipcErr .watchOnlyNoSeed "cannot view seed phrase for watch-only wallet"
  consumeReauthToken env w token .viewSeedPhrase
  let dek ← unlockedWalletDek w
  decryptMnemonic w dek

/-! ## Proposals -/

def proposalTtl : ℕ := 600000

def insertProposal (proposalId : ℕ) (record : ProposalRecord) : Op Unit :=
  modify fun s =>
    { s with
      proposals := Function.update s.proposals proposalId (some record)
      prepared := s.prepared + 1 }

/-- `proposalId` is the new UUID. -/
def prepareSend (env : Env) (a : AccountId) (proposalId : ℕ) : Op Unit := do
  let active ← activeWalletDb
  ofExcept (ensureSpendAllowed (← get).appDb active.wallet a)
  let transparentInputs ← ofExcept env.propose
  if transparentInputs.any id then
    ipcErr .transparentSpendBlocked
      "transparent inputs are not allowed; shield funds before sending"
  insertProposal proposalId
    ⟨active.wallet, a, env.now + proposalTtl, transparentInputs, (← get).prepared⟩

def removeProposal (proposalId : ℕ) : Op Unit :=
  modify fun s => { s with proposals := Function.update s.proposals proposalId none }

def cancelSend (proposalId : ℕ) : Op Bool := do
  let found := ((← get).proposals proposalId).isSome
  removeProposal proposalId
  return found

def validateProposalForWallet (now : ℕ) (proposalId : ℕ) (w : WalletId) :
    Op ProposalRecord := do
  let some record := (← get).proposals proposalId
    | ipcErr .proposalNotFound "proposal not found"
  if record.walletId ≠ w then ipcErr .proposalNotFound "proposal not found"
  if record.expiresAt < now then
    removeProposal proposalId
    ipcErr .proposalExpired "proposal expired"
  return record

/-- The checks again, then the proposal leaves the table. -/
def takeProposalForExecution (now : ℕ) (proposalId : ℕ) (w : WalletId) : Op TakenProposal := do
  let record ← validateProposalForWallet now proposalId w
  removeProposal proposalId
  return ⟨proposalId, record, now⟩

def setSigningRequest (requestId : ℕ) (request : Option PendingSigningRequest) : Op Unit :=
  modify fun s =>
    { s with
      pendingSigningRequests := Function.update s.pendingSigningRequests requestId request }

def recordCreated (w : WalletId) : Op Unit := modify fun s => s.record w .created none

/-- The PCZT is the transaction of the hardware signing flow. -/
def buildSigningRequest (env : Env) (requestId : ℕ) : Op Unit := do
  let active ← activeWalletDb
  ofExcept (ensureBackupComplete (← get).appDb active.wallet)
  let transparentInputs ← ofExcept env.propose
  if transparentInputs.any id then
    ipcErr .transparentSpendBlocked
      "transparent inputs are not allowed; shield funds before sending"
  if !env.createPczt then ipcErr .signingFailed "failed to create signing request"
  recordCreated active.wallet
  setSigningRequest requestId (some ⟨active.wallet, env.now + proposalTtl⟩)

/-! ## Tasks -/

def spawn (task : Task) : Op Unit := modify fun s => { s with tasks := s.tasks ++ [task] }

def prepareConfirmSend (env : Env) (proposalId token : ℕ) :
    Op (TxOperationContext × UnifiedSpendingKey) := do
  let active ← activeWallet
  if active.walletType = .watchOnly then
    ipcErr .watchOnlyCannotSpend
      "cannot confirm send for watch-only wallet; use hardware signing flow"
  let record ← validateProposalForWallet env.now proposalId active.wallet
  let key ← deriveUnifiedSpendingKey env active.wallet record.accountId
  consumeReauthToken env active.wallet token .spend
  let ctx ← getTxOperationContext env
  return (ctx, key)

/-- `prepare_confirm_send_task`, once authorised. -/
def takeConfirmSendTask (env : Env) (proposalId : ℕ) (ctx : TxOperationContext) : Op Unit := do
  if !env.preflight then ipcErr .internalError "failed to open app db for confirm send preflight"
  let taken ← takeProposalForExecution env.takenAt proposalId ctx.walletId
  spawn ⟨.confirmSend, ctx.walletId, taken.record.accountId, taken.record.transparentInputs,
    some taken, .gate⟩

def prepareConfirmSendTask (env : Env) (proposalId token : ℕ) : Op Unit := do
  let granted ← prepareConfirmSend env proposalId token
  takeConfirmSendTask env proposalId granted.1

def prepareShieldFunds (env : Env) (a : AccountId) (token : ℕ) :
    Op (TxOperationContext × UnifiedSpendingKey) := do
  let active ← activeWallet
  if active.walletType = .watchOnly then
    ipcErr .watchOnlyCannotShield "shielding not supported for watch-only wallet"
  consumeReauthToken env active.wallet token .spend
  let key ← deriveUnifiedSpendingKey env active.wallet a
  let ctx ← getTxOperationContext env
  return (ctx, key)

def prepareShieldFundsTask (env : Env) (a : AccountId) (token : ℕ) : Op Unit := do
  let granted ← prepareShieldFunds env a token
  spawn ⟨.shieldFunds, granted.1.walletId, a, [], none, .gate⟩

def prepareFinalizeSigningTask (env : Env) (requestId token : ℕ) : Op Unit := do
  let active ← activeWallet
  consumeReauthToken env active.wallet token .spend
  let ctx ← getTxOperationContext env
  if !env.preflight then
    ipcErr .internalError "failed to open app db for finalize signing preflight"
  let some request := (← get).pendingSigningRequests requestId
    | ipcErr .proposalNotFound "signing request not found or expired"
  if request.expiresAt < env.takenAt then
    setSigningRequest requestId none
    ipcErr .proposalExpired "signing request expired"
  if request.walletId ≠ active.wallet then ipcErr .proposalNotFound "signing request not found"
  setSigningRequest requestId none
  spawn ⟨.finalizeSigning, ctx.walletId, 0, [], none, .gate⟩

def prepareRetryBroadcastTask (env : Env) (token : ℕ) : Op Unit := do
  let active ← activeWallet
  consumeReauthToken env active.wallet token .spend
  let ctx ← getTxOperationContext env
  spawn ⟨.retryBroadcast, ctx.walletId, 0, [], none, .gate⟩

/-- The gate is the one the proposal has passed. -/
def startSendJob (env : Env) (proposalId token : ℕ) : Op Unit := do
  let active ← activeWallet
  if active.walletType = .watchOnly then
    ipcErr .watchOnlyCannotSpend "cannot send from watch-only wallet; use hardware signing flow"
  let _ ← unlockedWalletDek active.wallet
  let record ← validateProposalForWallet env.now proposalId active.wallet
  let _ ← deriveUnifiedSpendingKey env active.wallet record.accountId
  consumeReauthToken env active.wallet token .spend
  if !env.resolveGrpcUrl then
    ipcErr .internalError "failed to resolve active lightwalletd endpoint"
  -- `take_proposal` has no checks of its own; the proposal is still the validated one
  removeProposal proposalId
  spawn ⟨.sendJob, active.wallet, record.accountId, record.transparentInputs,
    some ⟨proposalId, record, env.now⟩, .create⟩

/-- There is no backup check here, and none in the job. -/
def startShieldJob (env : Env) (a : AccountId) (token : ℕ) : Op Unit := do
  let active ← activeWallet
  if active.walletType = .watchOnly then
    ipcErr .watchOnlyCannotShield "shielding not supported for watch-only wallet"
  let _ ← unlockedWalletDek active.wallet
  consumeReauthToken env active.wallet token .spend
  let _ ← deriveUnifiedSpendingKey env active.wallet a
  if !env.resolveGrpcUrl then
    ipcErr .internalError "failed to resolve active lightwalletd endpoint"
  spawn ⟨.shieldJob, active.wallet, a, [], none, .create⟩

def startSwap (env : Env) (a : AccountId) (proposalId token : ℕ) : Op Unit := do
  prepareSend env a proposalId
  prepareConfirmSendTask env proposalId token

end ZbagWallet
