import Zbag.Wallet.Spec

/-!
# Wallet — what the operations do

Every operation changes the world by a few kinds of moves, each after the checks that the operation
has made. The invariants of wallet runs are proved move by move.
-/

set_option mvcgen.warning false

namespace ZbagWallet

open Std.Do

inductive MoveKind
  /-- of wallet rows, backup flags, challenges and mnemonics -/
  | backup
  /-- of something that can be presented later -/
  | adds
  /-- of a job that has no gate -/
  | shield
  /-- of tokens -/
  | tokens
  deriving DecidableEq, Repr

/-- Key and connection are its own, there exactly when it is unlocked. -/
def ActiveWallet.Sound (active : ActiveWallet) : Prop :=
  match active.lockStatus with
  | .unlocked => active.dek = some ⟨active.wallet⟩ ∧ active.walletDb = some ⟨active.wallet⟩
  | .locked => active.dek = none ∧ active.walletDb = none

/-- What an operation can make of the world: each write comes with what was checked before it. -/
inductive WorldMoves (K : MoveKind → Bool) (I : World → Prop) : World → Prop
  | start {s : World} (h : I s) : WorldMoves K I s
  | row {s : World} (h : WorldMoves K I s) (w : WalletId) (walletType : WalletType)
      (hK : K .backup = true) (hnew : s.appDb.wallets w = none) :
      WorldMoves K I { s with
        appDb := { s.appDb with wallets := Function.update s.appDb.wallets w walletType } }
  | rows {s : World} (h : WorldMoves K I s) (w : WalletId) (walletType : WalletType)
      (required : Bool) (hK : K .backup = true) (hnew : s.appDb.wallets w = none) :
      WorldMoves K I { s with
        appDb := { s.appDb with
          wallets := Function.update s.appDb.wallets w walletType
          backupRequired := Function.update s.appDb.backupRequired w required } }
  | complete {s : World} (h : WorldMoves K I s) (w : WalletId) (hK : K .backup = true)
      (hstate : s.backupChallenges w ≠ none) :
      WorldMoves K I { s with
        appDb := { s.appDb with
          backupRequired := Function.update s.appDb.backupRequired w false } }
  | issue {s : World} (h : WorldMoves K I s) (w : WalletId) (state : BackupChallengeState)
      (hK : K .backup = true ∧ K .adds = true) (hrow : s.appDb.wallets w ≠ none) :
      WorldMoves K I { s with
        backupChallenges := Function.update s.backupChallenges w (some state) }
  | count {s : World} (h : WorldMoves K I s) (w : WalletId) (state : BackupChallengeState)
      (failedAttempts : ℕ) (hK : K .backup = true) (hstate : s.backupChallenges w = some state) :
      WorldMoves K I { s with
        backupChallenges := Function.update s.backupChallenges w
          (some { state with failedAttempts }) }
  | dropChallenge {s : World} (h : WorldMoves K I s) (w : WalletId) (hK : K .backup = true) :
      WorldMoves K I { s with backupChallenges := Function.update s.backupChallenges w none }
  | secrets {s : World} (h : WorldMoves K I s) (mnemonics : WalletId → Option (List String))
      (hK : K .backup = true) : WorldMoves K I { s with mnemonics }
  | accounts {s : World} (h : WorldMoves K I s)
      (accounts : WalletId → AccountId → Option AccountType) :
      WorldMoves K I { s with appDb := { s.appDb with accounts } }
  | active {s : World} (h : WorldMoves K I s) (activeWallet : Option ActiveWallet)
      (hsound : ∀ active ∈ activeWallet, active ∈ s.activeWallet ∨ active.Sound) :
      WorldMoves K I { s with activeWallet }
  | token {s : World} (h : WorldMoves K I s) (token : ℕ) (record : TokenRecord)
      (hK : K .tokens = true) (hused : record.used = true ∨ K .adds = true) :
      WorldMoves K I { s with tokens := Function.update s.tokens token (some record) }
  | prepare {s : World} (h : WorldMoves K I s) (p : ℕ) (record : ProposalRecord)
      (hK : K .adds = true) (hserial : record.serial = s.prepared)
      (hflag : s.appDb.backupFlag record.walletId = false)
      (hshielded : record.transparentInputs.any id = false) :
      WorldMoves K I { s with
        proposals := Function.update s.proposals p (some record)
        prepared := s.prepared + 1 }
  | remove {s : World} (h : WorldMoves K I s) (p : ℕ) :
      WorldMoves K I { s with proposals := Function.update s.proposals p none }
  | clear {s : World} (h : WorldMoves K I s) (w : WalletId) :
      WorldMoves K I { s with
        proposals := fun p => (s.proposals p).filter fun r => r.walletId ≠ w }
  | take {s : World} (h : WorldMoves K I s) (p : ℕ) (task : Task) (taken : TakenProposal)
      (hp : s.proposals p = some taken.record) (htask : task.proposal = some taken)
      (hkind : task.kind = .confirmSend ∨ task.kind = .sendJob)
      (hwallet : taken.record.walletId = task.walletId)
      (hread : taken.readAt ≤ taken.record.expiresAt) :
      WorldMoves K I { s with
        proposals := Function.update s.proposals p none
        tasks := s.tasks ++ [task] }
  | spawn {s : World} (h : WorldMoves K I s) (task : Task) (hnone : task.proposal = none)
      (hkind : ¬ (task.kind = .confirmSend ∨ task.kind = .sendJob))
      (hpc : task.pc = .gate ∨ K .shield = true) :
      WorldMoves K I { s with tasks := s.tasks ++ [task] }
  | request {s : World} (h : WorldMoves K I s) (q : ℕ) (request : Option PendingSigningRequest)
      (hK : request = none ∨ K .adds = true) :
      WorldMoves K I { s with
        pendingSigningRequests := Function.update s.pendingSigningRequests q request }
  | created {s : World} (h : WorldMoves K I s) (w : WalletId)
      (hflag : s.appDb.backupFlag w = false) : WorldMoves K I (s.record w .created none)

variable {K : MoveKind → Bool} {I : World → Prop}

/-- Whether it fails or not. -/
abbrev Moving {α : Type} (K : MoveKind → Bool) (I : World → Prop) (op : Op α) : Prop :=
  ⦃fun s => ⌜WorldMoves K I s⌝⦄ op
    ⦃post⟨fun _ s => ⌜WorldMoves K I s⌝, fun _ s => ⌜WorldMoves K I s⌝⟩⦄

/-- The row of `w` was inserted just now, and its flag was not written yet. -/
def Inserted (K : MoveKind → Bool) (I : World → Prop) (w : WalletId) (s : World) : Prop :=
  ∃ s₁ walletType, WorldMoves K I s₁ ∧ s₁.appDb.wallets w = none ∧ s = { s₁ with
    appDb := { s₁.appDb with wallets := Function.update s₁.appDb.wallets w (some walletType) } }

theorem backupFlag_of_ensureBackupComplete {db : AppDb} {w : WalletId}
    (h : ensureBackupComplete db w = .ok ()) : db.backupFlag w = false := by
  unfold ensureBackupComplete at h
  split_ifs at h with hb
  simpa using hb

theorem backupFlag_of_ensureSpendAllowed {db : AppDb} {w : WalletId} {a : AccountId}
    (h : ensureSpendAllowed db w a = .ok ()) : db.backupFlag w = false := by
  unfold ensureSpendAllowed at h
  split_ifs at h with hb
  simpa using hb

section Operations

variable {env backupEnv accountEnv : Env} {w : WalletId} {a : AccountId} {words : List String}
  {secrets password : Bool} {challengeId : ℕ} {indices : List ℕ} {answers : ℕ → Option String}
  {purpose : ReauthPurpose} {now proposalId requestId token : ℕ} {walletType : WalletType}
  {accountType : AccountType} {required : Bool}

/-! ### Single writes -/

@[local spec]
theorem consumeReauthToken_moving (hK : K .tokens = true) :
    Moving K I (consumeReauthToken env w token purpose) := by
  mvcgen [consumeReauthToken, ipcErr]
  all_goals grind [WorldMoves.token]

theorem reauthWallet_moving (hK : K .tokens = true ∧ K .adds = true) :
    Moving K I (reauthWallet env w purpose token) := by
  mvcgen [reauthWallet, ipcErr]
  all_goals grind [WorldMoves.token]

@[local spec]
theorem insertWallet_moving (hK : K .backup = true) :
    ⦃fun s => ⌜WorldMoves K I s⌝⦄ insertWallet env w walletType
    ⦃post⟨fun _ s => ⌜WorldMoves K I s ∧ Inserted K I w s⌝, fun _ s => ⌜WorldMoves K I s⌝⟩⦄ := by
  mvcgen [insertWallet, ipcErr]
  all_goals grind [WorldMoves.row, Inserted]

@[local spec]
theorem setBackupRequired_moving (hK : K .backup = true) :
    ⦃fun s => ⌜WorldMoves K I s ∧ Inserted K I w s⌝⦄ setBackupRequired env w required
    ⦃post⟨fun _ s => ⌜WorldMoves K I s⌝, fun _ s => ⌜WorldMoves K I s⌝⟩⦄ := by
  mvcgen [setBackupRequired, ipcErr]
  all_goals grind [WorldMoves.rows, Inserted]

@[local spec]
theorem storeSecrets_moving (words : Option (List String)) (ok : Bool) (hK : K .backup = true) :
    Moving K I (storeSecrets w words ok) := by
  mvcgen [storeSecrets, ipcErr]
  all_goals grind [WorldMoves.secrets]

@[local spec]
theorem upsertAccount_moving : Moving K I (upsertAccount env w a accountType) := by
  mvcgen [upsertAccount, ipcErr]
  all_goals grind [WorldMoves.accounts]

@[local spec]
theorem issueBackupChallenge_moving (hK : K .backup = true ∧ K .adds = true) :
    Moving K I (issueBackupChallenge env w challengeId indices) := by
  mvcgen [issueBackupChallenge, ipcErr]
  all_goals grind [WorldMoves.issue]

@[local spec]
theorem removeBackupChallenge_moving (hK : K .backup = true) :
    Moving K I (removeBackupChallenge w) := by
  mvcgen [removeBackupChallenge]
  all_goals grind [WorldMoves.dropChallenge]

@[local spec]
theorem activate_moving : Moving K I (activate w walletType) := by
  mvcgen [activate]
  all_goals grind [WorldMoves.active, ActiveWallet.Sound]

@[local spec]
theorem removeProposal_moving : Moving K I (removeProposal proposalId) := by
  mvcgen [removeProposal]
  all_goals grind [WorldMoves.remove]

@[local spec]
theorem clearProposalsForWallet_moving : Moving K I (clearProposalsForWallet w) := by
  mvcgen [clearProposalsForWallet]
  rename_i s hs _
  exact hs.clear w

@[local spec]
theorem setSigningRequest_moving {request : Option PendingSigningRequest}
    (hK : request = none ∨ K .adds = true) :
    Moving K I (setSigningRequest requestId request) := by
  mvcgen [setSigningRequest]
  all_goals grind [WorldMoves.request]

theorem spawn_moving {task : Task} (hnone : task.proposal = none)
    (hkind : ¬ (task.kind = .confirmSend ∨ task.kind = .sendJob))
    (hpc : task.pc = .gate ∨ K .shield = true) : Moving K I (spawn task) := by
  mvcgen [spawn]
  all_goals grind [WorldMoves.spawn]

/-! ### Calls -/

theorem createWallet_moving (hK : K .backup = true ∧ K .adds = true) :
    Moving K I (createWallet env backupEnv accountEnv w words secrets challengeId indices) := by
  mvcgen [createWallet]
  all_goals grind

theorem restoreWallet_moving (hK : K .backup = true) :
    Moving K I (restoreWallet env backupEnv accountEnv w words secrets) := by
  mvcgen [restoreWallet, markBackupComplete]
  all_goals grind

theorem createKeystoneWallet_moving (hK : K .backup = true) :
    Moving K I (createKeystoneWallet env backupEnv accountEnv w secrets) := by
  mvcgen [createKeystoneWallet, markBackupComplete]
  all_goals grind

theorem importUfvk_moving : Moving K I (importUfvk env w a) := by
  mvcgen [importUfvk]
  all_goals grind

theorem loadWallet_moving : Moving K I (loadWallet env w) := by
  mvcgen [loadWallet, ipcErr]
  all_goals grind [WorldMoves.active, ActiveWallet.Sound]

theorem unlockWallet_moving : Moving K I (unlockWallet env w password) := by
  mvcgen [unlockWallet, ipcErr]
  all_goals grind

theorem lockWallet_moving : Moving K I (lockWallet w) := by
  mvcgen [lockWallet]
  rename_i s hs _
  refine hs.active _ fun active hactive => ?_
  obtain ⟨active', hactive', rfl⟩ := Option.map_eq_some_iff.mp hactive
  split_ifs
  · exact .inr ⟨rfl, rfl⟩
  · exact .inl hactive'

theorem logoutWallet_moving (hK : K .backup = true) : Moving K I (logoutWallet w) := by
  mvcgen [logoutWallet, ipcErr]
  all_goals grind [WorldMoves.active]

theorem viewSeedPhrase_moving (hK : K .tokens = true) :
    Moving K I (viewSeedPhrase env w token) := by
  mvcgen [viewSeedPhrase, ipcErr]
  all_goals grind

theorem getBackupChallenge_moving (hK : K .backup = true ∧ K .adds = true) :
    Moving K I (getBackupChallenge env w challengeId indices) := by
  mvcgen [getBackupChallenge, ipcErr]

theorem verifyBackup_moving (hK : K .backup = true) :
    Moving K I (verifyBackup env w challengeId answers) := by
  mvcgen [verifyBackup, markBackupComplete, setBackupRequired, countFailedAttempt, ipcErr,
    -setBackupRequired_moving]
  all_goals grind [WorldMoves.complete, WorldMoves.count]

@[local spec]
theorem prepareSend_moving (hK : K .adds = true) : Moving K I (prepareSend env a proposalId) := by
  mvcgen [prepareSend, insertProposal, ipcErr]
  all_goals grind [WorldMoves.prepare, backupFlag_of_ensureSpendAllowed]

theorem cancelSend_moving : Moving K I (cancelSend proposalId) := by
  mvcgen [cancelSend]

@[local spec]
theorem validateProposalForWallet_finds :
    ⦃fun s => ⌜WorldMoves K I s⌝⦄ validateProposalForWallet now proposalId w
    ⦃post⟨fun record s => ⌜WorldMoves K I s ∧ s.proposals proposalId = some record ∧
        record.walletId = w ∧ now ≤ record.expiresAt⌝, fun _ s => ⌜WorldMoves K I s⌝⟩⦄ := by
  mvcgen [validateProposalForWallet, ipcErr]
  all_goals grind

theorem validateProposalForWallet_moving :
    Moving K I (validateProposalForWallet now proposalId w) := by
  mvcgen
  all_goals grind

theorem takeProposalForExecution_moving :
    Moving K I (takeProposalForExecution now proposalId w) := by
  mvcgen [takeProposalForExecution]
  all_goals grind

@[local spec]
theorem prepareConfirmSend_moving (hK : K .tokens = true) :
    Moving K I (prepareConfirmSend env proposalId token) := by
  mvcgen [prepareConfirmSend, ipcErr]
  all_goals grind

@[local spec]
theorem prepareConfirmSendTask_moving (hK : K .tokens = true) :
    Moving K I (prepareConfirmSendTask env proposalId token) := by
  mvcgen [prepareConfirmSendTask, takeConfirmSendTask, takeProposalForExecution, removeProposal,
    spawn, ipcErr, -removeProposal_moving]
  all_goals grind [WorldMoves.take]

@[local spec]
theorem prepareShieldFunds_moving (hK : K .tokens = true) :
    Moving K I (prepareShieldFunds env a token) := by
  mvcgen [prepareShieldFunds, ipcErr]
  all_goals grind

theorem prepareShieldFundsTask_moving (hK : K .tokens = true) :
    Moving K I (prepareShieldFundsTask env a token) := by
  mvcgen [prepareShieldFundsTask, spawn_moving]
  all_goals grind

theorem buildSigningRequest_moving (hK : K .adds = true) :
    Moving K I (buildSigningRequest env requestId) := by
  mvcgen [buildSigningRequest, recordCreated, ipcErr]
  all_goals grind [WorldMoves.created, backupFlag_of_ensureBackupComplete]

theorem prepareFinalizeSigningTask_moving (hK : K .tokens = true) :
    Moving K I (prepareFinalizeSigningTask env requestId token) := by
  mvcgen [prepareFinalizeSigningTask, spawn_moving, ipcErr]
  all_goals grind

theorem prepareRetryBroadcastTask_moving (hK : K .tokens = true) :
    Moving K I (prepareRetryBroadcastTask env token) := by
  mvcgen [prepareRetryBroadcastTask, spawn_moving]
  all_goals grind

theorem startSendJob_moving (hK : K .tokens = true) :
    Moving K I (startSendJob env proposalId token) := by
  mvcgen [startSendJob, consumeReauthToken, removeProposal, spawn, ipcErr,
    -consumeReauthToken_moving, -removeProposal_moving]
  case vc7 =>
    rename_i r s₁ hvalid _ s hs _ _ _ _ _ _ _ _ _ _ _ _ _
    obtain ⟨rfl, -⟩ := hs
    exact (hvalid.1.token token _ hK (.inl rfl)).take proposalId _ ⟨proposalId, r, env.now⟩
      hvalid.2.1 rfl (.inr rfl) hvalid.2.2.1 hvalid.2.2.2
  all_goals grind [WorldMoves.token]

theorem startShieldJob_moving (hK : K .shield = true ∧ K .tokens = true) :
    Moving K I (startShieldJob env a token) := by
  mvcgen [startShieldJob, spawn_moving, ipcErr]
  all_goals grind

theorem startSwap_moving (hK : K .adds = true ∧ K .tokens = true) :
    Moving K I (startSwap env a proposalId token) := by
  mvcgen [startSwap]
  all_goals grind

end Operations

def Call.touchesBackup : Call → Bool
  | .createWallet .. | .restoreWallet .. | .createKeystoneWallet .. | .getBackupChallenge ..
  | .verifyBackup .. | .logoutWallet .. => true
  | _ => false

def Call.allows : Call → MoveKind → Bool
  | c, .backup => c.touchesBackup
  | .createWallet .., .adds | .getBackupChallenge .., .adds | .reauthWallet .., .adds
  | .prepareSend .., .adds | .buildSigningRequest .., .adds | .startSwap .., .adds => true
  | .startShieldJob .., .shield => true
  | .reauthWallet .., .tokens | .consumeReauthToken .., .tokens | .viewSeedPhrase .., .tokens
  | .prepareConfirmSend .., .tokens | .prepareShieldFunds .., .tokens | .confirmSend .., .tokens
  | .shieldFunds .., .tokens | .finalizeSigning .., .tokens | .retryBroadcast .., .tokens
  | .startSendJob .., .tokens | .startShieldJob .., .tokens | .startSwap .., .tokens => true
  | _, _ => false

/-- **What a call does** is a sequence of the moves it allows, whether it fails or not. -/
theorem call_moves {s : World} (c : Call) (hs : I s) : WorldMoves c.allows I (c.op.exec s) := by
  replace hs := WorldMoves.start (K := c.allows) hs
  cases c with
  | createWallet => exact exec_of_triple (createWallet_moving ⟨rfl, rfl⟩) hs
  | restoreWallet => exact exec_of_triple (restoreWallet_moving rfl) hs
  | createKeystoneWallet => exact exec_of_triple (createKeystoneWallet_moving rfl) hs
  | importUfvk => exact exec_of_triple importUfvk_moving hs
  | loadWallet => exact exec_of_triple loadWallet_moving hs
  | unlockWallet => exact exec_of_triple unlockWallet_moving hs
  | lockWallet => exact exec_of_triple lockWallet_moving hs
  | logoutWallet => exact exec_of_triple (logoutWallet_moving rfl) hs
  | reauthWallet => exact exec_of_triple (reauthWallet_moving ⟨rfl, rfl⟩) hs
  | consumeReauthToken => exact exec_of_triple (consumeReauthToken_moving rfl) hs
  | viewSeedPhrase => exact exec_discard_of_triple (viewSeedPhrase_moving rfl) hs
  | getBackupChallenge => exact exec_of_triple (getBackupChallenge_moving ⟨rfl, rfl⟩) hs
  | verifyBackup => exact exec_of_triple (verifyBackup_moving rfl) hs
  | prepareSend => exact exec_of_triple (prepareSend_moving rfl) hs
  | cancelSend => exact exec_discard_of_triple cancelSend_moving hs
  | clearProposalsForWallet => exact exec_of_triple clearProposalsForWallet_moving hs
  | validateProposalForWallet =>
    exact exec_discard_of_triple validateProposalForWallet_moving hs
  | takeProposalForExecution => exact exec_discard_of_triple takeProposalForExecution_moving hs
  | prepareConfirmSend => exact exec_discard_of_triple (prepareConfirmSend_moving rfl) hs
  | prepareShieldFunds => exact exec_discard_of_triple (prepareShieldFunds_moving rfl) hs
  | confirmSend => exact exec_of_triple (prepareConfirmSendTask_moving rfl) hs
  | shieldFunds => exact exec_of_triple (prepareShieldFundsTask_moving rfl) hs
  | buildSigningRequest => exact exec_of_triple (buildSigningRequest_moving rfl) hs
  | finalizeSigning => exact exec_of_triple (prepareFinalizeSigningTask_moving rfl) hs
  | retryBroadcast => exact exec_of_triple (prepareRetryBroadcastTask_moving rfl) hs
  | startSendJob => exact exec_of_triple (startSendJob_moving rfl) hs
  | startShieldJob => exact exec_of_triple (startShieldJob_moving ⟨rfl, rfl⟩) hs
  | startSwap => exact exec_of_triple (startSwap_moving ⟨rfl, rfl⟩) hs

end ZbagWallet
