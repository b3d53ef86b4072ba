import Mathlib
import Zbag.Wallet.Tasks

/-!
# Wallet — specifications of operations

A specification says what holds of the result and the world after an operation. Those that only
read are specified here, once for all.

* `run_of_triple`, `exec_of_triple`: from a specification to a statement about runs.
-/

set_option mvcgen.warning false

namespace ZbagWallet

open Std.Do

/-- What may be spent. -/
structure SpendState where
  appDb : AppDb
  backupChallenges : WalletId → Option BackupChallengeState
  proposals : ℕ → Option ProposalRecord
  prepared : ℕ
  tasks : List Task
  log : List TxEvent

def World.spend (s : World) : SpendState :=
  ⟨s.appDb, s.backupChallenges, s.proposals, s.prepared, s.tasks, s.log⟩

abbrev Reads {α : Type} (s₀ : World) (op : Op α) (R : α → World → Prop) : Prop :=
  ⦃fun s => ⌜s = s₀⌝⦄ op ⦃post⟨fun a s => ⌜s = s₀ ∧ R a s₀⌝, fun _ s => ⌜s = s₀⌝⟩⦄

variable {α : Type} {op : Op α} {P : World → Prop} {s : World}

theorem run_of_triple {Q : α → World → Prop} {E : IpcError → World → Prop}
    (h : ⦃fun s => ⌜P s⌝⦄ op ⦃post⟨fun a s => ⌜Q a s⌝, fun e s => ⌜E e s⌝⟩⦄) (hs : P s) :
    (∀ a, (op.run s).1 = .ok a → Q a (op.run s).2) ∧
      ∀ e, (op.run s).1 = .error e → E e (op.run s).2 := by
  have hwp := h s hs
  simp only [wp, PredTrans.apply_pushExcept, PredTrans.apply_pushArg] at hwp
  simp only [StateT.run, ExceptT.run, PredTrans.apply_Pure_pure] at hwp
  unfold ExceptT.run
  refine ⟨fun a ha => ?_, fun e he => ?_⟩
  · rw [show (Id.run (op s)).1 = .ok a from ha] at hwp
    exact hwp
  · rw [show (Id.run (op s)).1 = .error e from he] at hwp
    exact hwp

theorem exec_of_triple {Q : World → Prop}
    (h : ⦃fun s => ⌜P s⌝⦄ op ⦃post⟨fun _ s => ⌜Q s⌝, fun _ s => ⌜Q s⌝⟩⦄) (hs : P s) :
    Q (op.exec s) := by
  obtain ⟨hok, herr⟩ := run_of_triple h hs
  cases hr : (op.run s).1 with
  | ok a => exact hok a hr
  | error e => exact herr e hr

theorem exec_discard (op : Op α) (s : World) : Op.exec (discard op) s = op.exec s := by
  unfold Op.exec discard
  simp only [ExceptT.run, Functor.mapConst, Function.comp, ExceptT.map, ExceptT.mk, bind,
    StateT.bind]
  rcases op s with ⟨r, t⟩
  cases r <;> rfl

theorem exec_discard_of_triple {Q : World → Prop}
    (h : ⦃fun s => ⌜P s⌝⦄ op ⦃post⟨fun _ s => ⌜Q s⌝, fun _ s => ⌜Q s⌝⟩⦄) (hs : P s) :
    Q (Op.exec (discard op) s) :=
  exec_discard op s ▸ exec_of_triple h hs

/-! ## Operations that only read -/

@[spec]
theorem activeWallet_reads (s₀ : World) :
    Reads s₀ activeWallet fun active s => s.activeWallet = some active := by
  mvcgen [activeWallet, ipcErr]
  all_goals grind

def HoldsDek (s : World) (w : WalletId) (dek : Dek) : Prop :=
  ∃ active ∈ s.activeWallet,
    active.wallet = w ∧ active.lockStatus = .unlocked ∧ active.dek = some dek

def HoldsDb (s : World) (w : WalletId) (conn : Connection) : Prop :=
  ∃ active ∈ s.activeWallet,
    active.wallet = w ∧ active.lockStatus = .unlocked ∧ active.walletDb = some conn

@[spec]
theorem unlockedWalletDek_reads (w : WalletId) (s₀ : World) :
    Reads s₀ (unlockedWalletDek w) fun dek s => HoldsDek s w dek := by
  mvcgen [unlockedWalletDek, ipcErr]
  all_goals grind [HoldsDek]

@[spec]
theorem requireUnlockedWalletDb_reads (w : WalletId) (s₀ : World) :
    Reads s₀ (requireUnlockedWalletDb w) fun conn s => HoldsDb s w conn := by
  mvcgen [requireUnlockedWalletDb, ipcErr]
  all_goals grind [HoldsDb]

@[spec]
theorem activeWalletDb_reads (s₀ : World) :
    Reads s₀ activeWalletDb fun active s => s.activeWallet = some active := by
  mvcgen [activeWalletDb, ipcErr]
  all_goals grind

@[spec]
theorem getTxOperationContext_reads (env : Env) (s₀ : World) :
    Reads s₀ (getTxOperationContext env) fun ctx s => HoldsDek s ctx.walletId ctx.dek := by
  mvcgen [getTxOperationContext, ipcErr]
  all_goals grind [HoldsDek]

@[spec]
theorem decryptMnemonic_reads (w : WalletId) (dek : Dek) (s₀ : World) :
    Reads s₀ (decryptMnemonic w dek) fun words s =>
      dek.wallet = w ∧ s.mnemonics w = some words := by
  mvcgen [decryptMnemonic, ipcErr]
  all_goals grind

@[spec]
theorem deriveUnifiedSpendingKey_reads (env : Env) (w : WalletId) (a : AccountId) (s₀ : World) :
    Reads s₀ (deriveUnifiedSpendingKey env w a) fun key s =>
      key = ⟨w, a⟩ ∧ ∃ dek, HoldsDek s w dek := by
  mvcgen [deriveUnifiedSpendingKey, ipcErr]
  all_goals grind

@[spec]
theorem scanQueuedBroadcasts_reads (env : Env) (s₀ : World) :
    Reads s₀ (scanQueuedBroadcasts env) fun _ _ => True := by
  mvcgen [scanQueuedBroadcasts, ipcErr]

@[spec]
theorem ofExcept_reads (x : Except IpcError α) (s₀ : World) :
    Reads s₀ (ofExcept x) fun a _ => x = .ok a := by
  cases x with
  | ok a | error e => mvcgen [ofExcept]

end ZbagWallet
