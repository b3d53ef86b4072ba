import Zbag.Lib.Transition
import Zbag.Wallet.Manager

/-!
# Wallet — runs of wallet operations and tasks

The tasks started by the wallet manager run beside its operations: each has a gate, then builds and
sends transactions. A run interleaves operations of any wallet with steps of any task, and the
application may stop at any point.

* `taskStep`: one step of a task, from the gate to the last send, **`taskStep_cases`**: what it can
  do;
* `Action`, `step`, `walletSystem`: runs.
-/

namespace ZbagWallet

open Transition

/-- What a step of a task meets outside. -/
inductive TaskAnswer
  /-- at a `create` this many transactions were built -/
  | proceed (built : ℕ)
  /-- what the gate of a retry reads from the wallet database -/
  | account (a : AccountId)
  /-- at the gate of a confirmed send -/
  | clock (now : ℕ)
  /-- the same transaction once more, after a failover -/
  | again
  /-- an error, a cancellation or the end of the work -/
  | stop
  deriving DecidableEq, Repr

/-- Account checks on the direct paths, the backup check in the hardware flow. -/
def passesGate (db : AppDb) (task : Task) : TaskAnswer → Bool
  | .account a => task.kind == .retryBroadcast && (ensureSpendAllowed db task.walletId a).isOk
  | .clock now =>
    -- the task's own transaction service checks the imported proposal once more
    task.kind == .confirmSend &&
      (task.proposal.any fun taken => decide (now ≤ taken.record.expiresAt)) &&
      (ensureSpendAllowed db task.walletId task.accountId).isOk && !task.transparentInputs.any id
  | .proceed _ =>
    match task.kind with
    | .shieldFunds => (ensureSpendAllowed db task.walletId task.accountId).isOk
    | .finalizeSigning => (ensureBackupComplete db task.walletId).isOk
    | _ => false
  | _ => false

/-- A retry has its transaction already. -/
def Task.afterGate (task : Task) : TaskPc :=
  if task.kind = .retryBroadcast then .send 1 else .create

/-- Shielding goes on with the next batch. -/
def Task.afterSends (task : Task) : TaskPc :=
  if task.kind = .shieldFunds ∨ task.kind = .shieldJob then .create else .finished

def setTask (s : World) (i : ℕ) (task : Task) (pc : TaskPc) : World :=
  { s with tasks := s.tasks.set i { task with pc } }

def taskStep (s : World) (i : ℕ) (answer : TaskAnswer) : Option World :=
  match s.tasks[i]? with
  | none => none
  | some task =>
    match task.pc, answer with
    | .finished, _ => none
    | _, .stop => some (setTask s i task .finished)
    | .gate, answer =>
      if passesGate s.appDb task answer then some (setTask s i task task.afterGate)
      else some (setTask s i task .finished)
    | .create, .proceed built =>
      some ((setTask s i task (.send built)).record task.walletId .created task.proposal)
    | .send (left + 1), .proceed _ =>
      some ((setTask s i task (.send left)).record task.walletId .sent task.proposal)
    | .send (left + 1), .again =>
      if task.kind = .retryBroadcast then
        some ((setTask s i task (.send (left + 1))).record task.walletId .sent task.proposal)
      else none
    | .send 0, .proceed _ => some (setTask s i task task.afterSends)
    | _, _ => none

/-- It ends, passes its gate, builds, sends, or goes on when all are sent. -/
inductive TaskMove (s : World) (i : ℕ) (task : Task) : World → Prop
  | finish : TaskMove s i task (setTask s i task .finished)
  | pass (answer : TaskAnswer) (hpc : task.pc = .gate)
      (hgate : passesGate s.appDb task answer = true) :
      TaskMove s i task (setTask s i task task.afterGate)
  | build (built : ℕ) (hpc : task.pc = .create) :
      TaskMove s i task
        ((setTask s i task (.send built)).record task.walletId .created task.proposal)
  | send (left rest : ℕ) (hpc : task.pc = .send (left + 1)) :
      TaskMove s i task ((setTask s i task (.send rest)).record task.walletId .sent task.proposal)
  | goOn (hpc : task.pc = .send 0) : TaskMove s i task (setTask s i task task.afterSends)

theorem taskStep_cases {s t : World} {i : ℕ} {answer : TaskAnswer}
    (h : taskStep s i answer = some t) :
    ∃ task, s.tasks[i]? = some task ∧ TaskMove s i task t := by
  unfold taskStep at h
  split at h
  · cases h
  · rename_i task htask
    refine ⟨task, htask, ?_⟩
    split at h
    · cases h
    · cases h
      exact .finish
    · rename_i hpc _
      split_ifs at h with hgate
      · cases h
        exact .pass _ hpc hgate
      · cases h
        exact .finish
    · rename_i built hpc
      cases h
      exact .build built hpc
    · rename_i left _ hpc
      cases h
      exact .send left left hpc
    · rename_i left hpc
      split_ifs at h
      cases h
      exact .send left (left + 1) hpc
    · rename_i hpc
      cases h
      exact .goOn hpc
    · cases h

/-- With what the caller and the outside give. -/
inductive Call
  | createWallet (env backupEnv accountEnv : Env) (w : WalletId) (words : List String)
      (secrets : Bool) (challengeId : ℕ) (indices : List ℕ)
  | restoreWallet (env backupEnv accountEnv : Env) (w : WalletId) (words : List String)
      (secrets : Bool)
  | createKeystoneWallet (env backupEnv accountEnv : Env) (w : WalletId) (secrets : Bool)
  | importUfvk (env : Env) (w : WalletId) (a : AccountId)
  | loadWallet (env : Env) (w : WalletId)
  | unlockWallet (env : Env) (w : WalletId) (password : Bool)
  | lockWallet (w : WalletId)
  | logoutWallet (w : WalletId)
  | reauthWallet (env : Env) (w : WalletId) (purpose : ReauthPurpose) (token : ℕ)
  | consumeReauthToken (env : Env) (w : WalletId) (token : ℕ) (purpose : ReauthPurpose)
  | viewSeedPhrase (env : Env) (w : WalletId) (token : ℕ)
  | getBackupChallenge (env : Env) (w : WalletId) (challengeId : ℕ) (indices : List ℕ)
  | verifyBackup (env : Env) (w : WalletId) (challengeId : ℕ) (answers : ℕ → Option String)
  | prepareSend (env : Env) (a : AccountId) (proposalId : ℕ)
  | cancelSend (proposalId : ℕ)
  | clearProposalsForWallet (w : WalletId)
  | validateProposalForWallet (now proposalId : ℕ) (w : WalletId)
  | takeProposalForExecution (now proposalId : ℕ) (w : WalletId)
  | prepareConfirmSend (env : Env) (proposalId token : ℕ)
  | prepareShieldFunds (env : Env) (a : AccountId) (token : ℕ)
  | confirmSend (env : Env) (proposalId token : ℕ)
  | shieldFunds (env : Env) (a : AccountId) (token : ℕ)
  | buildSigningRequest (env : Env) (requestId : ℕ)
  | finalizeSigning (env : Env) (requestId token : ℕ)
  | retryBroadcast (env : Env) (token : ℕ)
  | startSendJob (env : Env) (proposalId token : ℕ)
  | startShieldJob (env : Env) (a : AccountId) (token : ℕ)
  | startSwap (env : Env) (a : AccountId) (proposalId token : ℕ)

def Call.op : Call → Op Unit
  | .createWallet env backupEnv accountEnv w words secrets challengeId indices =>
    ZbagWallet.createWallet env backupEnv accountEnv w words secrets challengeId indices
  | .restoreWallet env backupEnv accountEnv w words secrets =>
    ZbagWallet.restoreWallet env backupEnv accountEnv w words secrets
  | .createKeystoneWallet env backupEnv accountEnv w secrets =>
    ZbagWallet.createKeystoneWallet env backupEnv accountEnv w secrets
  | .importUfvk env w a => ZbagWallet.importUfvk env w a
  | .loadWallet env w => ZbagWallet.loadWallet env w
  | .unlockWallet env w password => ZbagWallet.unlockWallet env w password
  | .lockWallet w => ZbagWallet.lockWallet w
  | .logoutWallet w => ZbagWallet.logoutWallet w
  | .reauthWallet env w purpose token => ZbagWallet.reauthWallet env w purpose token
  | .consumeReauthToken env w token purpose =>
    ZbagWallet.consumeReauthToken env w token purpose
  | .viewSeedPhrase env w token => discard (ZbagWallet.viewSeedPhrase env w token)
  | .getBackupChallenge env w challengeId indices =>
    ZbagWallet.getBackupChallenge env w challengeId indices
  | .verifyBackup env w challengeId answers => ZbagWallet.verifyBackup env w challengeId answers
  | .prepareSend env a proposalId => ZbagWallet.prepareSend env a proposalId
  | .cancelSend proposalId => discard (ZbagWallet.cancelSend proposalId)
  | .clearProposalsForWallet w => ZbagWallet.clearProposalsForWallet w
  | .validateProposalForWallet now proposalId w =>
    discard (ZbagWallet.validateProposalForWallet now proposalId w)
  | .takeProposalForExecution now proposalId w =>
    discard (ZbagWallet.takeProposalForExecution now proposalId w)
  | .prepareConfirmSend env proposalId token =>
    discard (ZbagWallet.prepareConfirmSend env proposalId token)
  | .prepareShieldFunds env a token => discard (ZbagWallet.prepareShieldFunds env a token)
  | .confirmSend env proposalId token => prepareConfirmSendTask env proposalId token
  | .shieldFunds env a token => prepareShieldFundsTask env a token
  | .buildSigningRequest env requestId => ZbagWallet.buildSigningRequest env requestId
  | .finalizeSigning env requestId token => prepareFinalizeSigningTask env requestId token
  | .retryBroadcast env token => prepareRetryBroadcastTask env token
  | .startSendJob env proposalId token => ZbagWallet.startSendJob env proposalId token
  | .startShieldJob env a token => ZbagWallet.startShieldJob env a token
  | .startSwap env a proposalId token => ZbagWallet.startSwap env a proposalId token

inductive Action
  | call (c : Call)
  | task (i : ℕ) (answer : TaskAnswer)
  /-- the app database and the key store stay -/
  | restart

/-- What is left after a restart. -/
def World.restart (s : World) : World :=
  { World.fresh with
    appDb := s.appDb, mnemonics := s.mnemonics, prepared := s.prepared, log := s.log }

def step (s : World) : Action → Option World
  | .call c => some (c.op.exec s)
  | .task i answer => taskStep s i answer
  | .restart => some s.restart

/-- **Runs of wallet operations**, from an empty database. -/
def walletSystem : System World Action where
  init s := s = World.fresh
  step := step

end ZbagWallet
