import Zbag.Wallet.Proposals

/-!
# Wallet — tokens and the active wallet

What each operation does to the two parts of the world that decide who may act: the table of reauth
tokens and the active wallet with its keys. Most operations leave both alone; `k` stands for their
value before.
-/

set_option mvcgen.warning false

namespace ZbagWallet

open Std.Do

/-- Who may act. -/
structure Access where
  tokens : ℕ → Option TokenRecord
  activeWallet : Option ActiveWallet

def World.access (s : World) : Access := ⟨s.tokens, s.activeWallet⟩

abbrev KeepsAccess {α : Type} (k : Access) (op : Op α) : Prop :=
  ⦃fun s => ⌜s.access = k⌝⦄ op ⦃post⟨fun _ s => ⌜s.access = k⌝, fun _ s => ⌜s.access = k⌝⟩⦄

variable (k : Access)

/-! ## A token is used up, a task is added -/

/-- A valid token of `w` for this purpose was used up. -/
def Spent (now token : ℕ) (purpose : ReauthPurpose) (w : WalletId) (k k' : Access) : Prop :=
  ∃ record, k.tokens token = some record ∧ record.used = false ∧ record.walletId = w ∧
    record.purpose = purpose ∧ now ≤ record.expiresAt ∧
      k' = { k with tokens := Function.update k.tokens token (some { record with used := true }) }

theorem Spent.wallet_eq {now token : ℕ} {purpose : ReauthPurpose} {w w' : WalletId} {s t : World}
    {active : ActiveWallet} {dek : Dek} (h : Spent now token purpose w s.access t.access)
    (hs : s.activeWallet = some active) (ht : HoldsDek t w' dek) : active.wallet = w' := by
  obtain ⟨record, _, _, _, _, _, hk⟩ := h
  obtain ⟨active', hactive', hw, _⟩ := ht
  have hsame : t.activeWallet = s.activeWallet := congrArg Access.activeWallet hk
  rw [hsame, hs, Option.mem_def, Option.some.injEq] at hactive'
  exact hactive' ▸ hw

/-- Succeeds only by using up a token, and uses up at most this one when it fails. -/
abbrev SpendsOne {α : Type} (now token : ℕ) (purpose : ReauthPurpose)
    (walletOf : α → World → WalletId → Prop) (op : Op α) : Prop :=
  ⦃fun s => ⌜s.access = k⌝⦄ op
    ⦃post⟨fun a s => ⌜∃ w, walletOf a s w ∧ Spent now token purpose w k s.access⌝,
      fun _ s => ⌜s.access = k ∨ ∃ w, Spent now token purpose w k s.access⌝⟩⦄

@[local spec]
theorem consumeReauthToken_access (env : Env) (w : WalletId) (token : ℕ)
    (purpose : ReauthPurpose) :
    ⦃fun s => ⌜s.access = k⌝⦄ consumeReauthToken env w token purpose
    ⦃post⟨fun _ s => ⌜Spent env.tokenAt token purpose w k s.access⌝,
      fun _ s => ⌜s.access = k⌝⟩⦄ := by
  mvcgen [consumeReauthToken, ipcErr]
  all_goals grind [Spent, World.access]

def LastTaskOf (s : World) (w : WalletId) : Prop := ∃ task ∈ s.tasks.getLast?, task.walletId = w

@[local spec]
theorem spawn_access (task : Task) :
    ⦃fun s => ⌜s.access = k⌝⦄ spawn task
    ⦃post⟨fun _ s => ⌜s.access = k ∧ LastTaskOf s task.walletId⌝,
      fun _ s => ⌜s.access = k⌝⟩⦄ := by
  mvcgen [spawn]
  rename_i s hs _
  exact ⟨hs, task, List.getLast?_concat, rfl⟩

/-! ## Calls that use up and issue none -/

/-- **Moves that leave the tokens** can only replace the active wallet, and by a sound one. -/
theorem WorldMoves.access {K : MoveKind → Bool} {I : World → Prop} {k : Access} {t : World}
    (h : WorldMoves K I t) (hK : K .tokens = false)
    (hI : ∀ s, I s → s.tokens = k.tokens ∧
      ∀ active ∈ s.activeWallet, active ∈ k.activeWallet ∨ active.Sound) :
    t.tokens = k.tokens ∧
      ∀ active ∈ t.activeWallet, active ∈ k.activeWallet ∨ active.Sound := by
  induction h with
  | start h => exact hI _ h
  | active _ activeWallet hsound ih =>
    exact ⟨ih.1, fun active hactive => (hsound active hactive).elim (ih.2 active) .inr⟩
  | token _ _ _ htokens _ _ =>
    rw [hK] at htokens
    cases htokens
  | row _ _ _ _ _ ih | rows _ _ _ _ _ _ ih | complete _ _ _ _ ih | issue _ _ _ _ _ ih
  | count _ _ _ _ _ _ ih | dropChallenge _ _ _ ih | secrets _ _ _ ih | accounts _ _ ih
  | prepare _ _ _ _ _ _ _ ih | remove _ _ ih | clear _ _ ih | take _ _ _ _ _ _ _ _ _ ih
  | spawn _ _ _ _ _ ih | request _ _ _ _ ih | created _ _ _ ih => exact ih

section Operations

variable {env : Env} {w : WalletId} {a : AccountId} {purpose : ReauthPurpose}
  {now proposalId requestId token : ℕ}

/-! ## Operations that use up a token -/

theorem viewSeedPhrase_access :
    SpendsOne k env.tokenAt token .viewSeedPhrase (fun _ _ w' => w' = w)
      (viewSeedPhrase env w token) := by
  mvcgen [viewSeedPhrase, ipcErr]
  all_goals grind

@[local spec]
theorem prepareConfirmSend_access :
    SpendsOne k env.tokenAt token .spend (fun r _ w => w = r.1.walletId)
      (prepareConfirmSend env proposalId token) := by
  mvcgen [prepareConfirmSend, validateProposalForWallet, removeProposal, ipcErr]
  all_goals grind [Spent.wallet_eq, World.access]

theorem prepareShieldFunds_access :
    SpendsOne k env.tokenAt token .spend (fun r _ w => w = r.1.walletId)
      (prepareShieldFunds env a token) := by
  mvcgen [prepareShieldFunds, ipcErr]
  all_goals grind [Spent.wallet_eq]

theorem spawn_keepsAccess (task : Task) : KeepsAccess k (spawn task) := by
  mvcgen
  all_goals grind

theorem proposeAndConfirm_access :
    SpendsOne k env.tokenAt token .spend (fun r _ w => w = r.1.walletId)
      (prepareSend env a proposalId >>= fun _ => prepareConfirmSend env proposalId token) := by
  mvcgen [prepareSend, insertProposal, ipcErr]
  all_goals grind [World.access]

theorem takeConfirmSendTask_access (env : Env) (proposalId : ℕ) (ctx : TxOperationContext) :
    KeepsAccess k (takeConfirmSendTask env proposalId ctx) := by
  mvcgen [takeConfirmSendTask, takeProposalForExecution, validateProposalForWallet,
    removeProposal, ipcErr]
  all_goals grind [World.access]

theorem prepareFinalizeSigningTask_access :
    SpendsOne k env.tokenAt token .spend (fun _ => LastTaskOf)
      (prepareFinalizeSigningTask env requestId token) := by
  mvcgen [prepareFinalizeSigningTask, setSigningRequest, ipcErr]
  all_goals grind [Spent.wallet_eq, World.access]

theorem prepareRetryBroadcastTask_access :
    SpendsOne k env.tokenAt token .spend (fun _ => LastTaskOf)
      (prepareRetryBroadcastTask env token) := by
  mvcgen [prepareRetryBroadcastTask]
  all_goals grind [Spent.wallet_eq]

theorem startSendJob_access :
    SpendsOne k env.tokenAt token .spend (fun _ => LastTaskOf)
      (startSendJob env proposalId token) := by
  mvcgen [startSendJob, validateProposalForWallet, removeProposal, ipcErr]
  all_goals grind [World.access]

theorem startShieldJob_access :
    SpendsOne k env.tokenAt token .spend (fun _ => LastTaskOf) (startShieldJob env a token) := by
  mvcgen [startShieldJob, ipcErr]
  all_goals grind

theorem reauthWallet_access :
    ⦃fun s => ⌜s.access = k⌝⦄ reauthWallet env w purpose token
    ⦃post⟨fun _ s => ⌜s.access = { k with
        tokens := Function.update k.tokens token
          (some ⟨w, purpose, env.now + 120000, false⟩) }⌝,
      fun _ s => ⌜s.access = k⌝⟩⦄ := by
  mvcgen [reauthWallet, ipcErr]
  all_goals grind [World.access]

end Operations

end ZbagWallet
