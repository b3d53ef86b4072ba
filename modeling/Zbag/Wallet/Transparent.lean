import Zbag.Wallet.Ordinary

/-!
# Wallet — transparent funds are not spent by sends

The proposer may return any proposal. `prepare_send` and `build_signing_request` refuse one that has
a step with transparent inputs, and so does `confirm_send`; a send job takes its proposal from the
table without a look at it.
-/

set_option mvcgen.warning false

namespace ZbagWallet

open Std.Do Transition

/-! ## The direct send -/

/-- Up to the building of the transactions. -/
def confirmSend (env : Env) (w : WalletId) (proposalId : ℕ) (built : Bool) : Op Unit := do
  let _ ← validateProposalForWallet env.now proposalId w
  if !env.preflight then ipcErr .internalError "failed to open app db for send policy checks"
  let some record := (← get).proposals proposalId
    | ipcErr .proposalNotFound "proposal not found"
  removeProposal proposalId
  ofExcept (ensureSpendAllowed (← get).appDb w record.accountId)
  if record.transparentInputs.any id then
    ipcErr .transparentSpendBlocked "transparent inputs are not allowed for sends"
  if !built then ipcErr .transactionFailed "failed to build tx"
  modify fun s => s.record w .created (some ⟨proposalId, record, env.now⟩)

/-! ## Runs -/

/-- For each signing request, which steps of its proposal have transparent inputs. -/
structure SendState where
  world : World
  signed : List (List Bool)

inductive SendAction
  | wallet (a : Action)
  | confirmSend (env : Env) (w : WalletId) (proposalId : ℕ) (built : Bool)

def signedBy (s : World) : Action → List (List Bool)
  | .call (.buildSigningRequest env requestId) =>
    if ((buildSigningRequest env requestId).run s).1.isOk then env.propose.toOption.toList else []
  | _ => []

def SendState.step (s : SendState) : SendAction → Option SendState
  | .wallet a => (ZbagWallet.step s.world a).map fun t => ⟨t, signedBy s.world a ++ s.signed⟩
  | .confirmSend env w proposalId built =>
    some { s with world := (ZbagWallet.confirmSend env w proposalId built).exec s.world }

/-- Runs from an empty database. -/
def sendSystem : System SendState SendAction where
  init s := s = ⟨World.fresh, []⟩
  step := SendState.step

/-! ## All proposals stay shielded -/

abbrev KeepsShielded {α : Type} (op : Op α) : Prop :=
  ⦃fun s => ⌜Shielded s⌝⦄ op ⦃post⟨fun _ s => ⌜Shielded s⌝, fun _ s => ⌜Shielded s⌝⟩⦄

theorem confirmSend_shielded (env : Env) (w : WalletId) (proposalId : ℕ) (built : Bool) :
    KeepsShielded (confirmSend env w proposalId built) := by
  mvcgen [confirmSend, validateProposalForWallet, removeProposal, ipcErr]
  all_goals grind [Shielded, Shielded.remove, Shielded.record, shieldedFrom_some]

theorem buildSigningRequest_refuses (env : Env) (requestId : ℕ) (s₀ : World) :
    ⦃fun s => ⌜s = s₀⌝⦄ buildSigningRequest env requestId
    ⦃post⟨fun _ _ => ⌜∀ steps, env.propose = .ok steps → steps.any id = false⌝,
      fun _ _ => ⌜True⌝⟩⦄ := by
  mvcgen [buildSigningRequest, recordCreated, setSigningRequest, ipcErr]
  all_goals grind

/-- **Every action of a wallet run keeps all proposals shielded.** -/
theorem Shielded.step {s t : World} {a : Action} (hs : Shielded s)
    (h : ZbagWallet.step s a = some t) : Shielded t := by
  cases a with
  | call c =>
    cases h
    exact (call_moves c hs).shielded fun _ h => h
  | task i answer => exact hs.taskStep h
  | restart =>
    cases h
    exact ⟨nofun, nofun, hs.log⟩

theorem shielded_fresh : Shielded World.fresh :=
  ⟨nofun, nofun, nofun⟩

theorem signedBy_shielded (s : World) (a : Action) :
    ∀ steps ∈ signedBy s a, steps.any id = false := by
  intro steps hmem
  unfold signedBy at hmem
  split at hmem
  · rename_i env requestId
    split_ifs at hmem with hok
    · cases hrun : ((buildSigningRequest env requestId).run s).1 with
      | error e =>
        rw [hrun] at hok
        cases hok
      | ok u =>
        have hspec := (run_of_triple (buildSigningRequest_refuses env requestId s) rfl).1 u hrun
        cases hpropose : env.propose with
        | error e =>
          rw [hpropose] at hmem
          cases hmem
        | ok steps' =>
          rw [hpropose] at hmem
          obtain rfl := List.mem_singleton.mp hmem
          exact hspec steps hpropose
    · cases hmem
  · cases hmem

/-- Also those that signing requests were made from. -/
structure SendState.Ok (s : SendState) : Prop where
  world : Shielded s.world
  signed : ∀ steps ∈ s.signed, steps.any id = false

theorem SendState.Ok.step {s t : SendState} {a : SendAction} (hs : s.Ok)
    (h : s.step a = some t) : t.Ok := by
  cases a with
  | wallet a =>
    obtain ⟨world, hworld, rfl⟩ := Option.map_eq_some_iff.mp h
    refine ⟨hs.world.step hworld, fun steps hmem => ?_⟩
    rcases List.mem_append.mp hmem with hmem | hmem
    · exact signedBy_shielded _ a steps hmem
    · exact hs.signed steps hmem
  | confirmSend env w proposalId built =>
    cases h
    exact ⟨exec_of_triple (confirmSend_shielded env w proposalId built) hs.world, hs.signed⟩

/-- **Transparent funds are not spent by sends**: no proposal has a step with transparent inputs,
wherever it is. -/
theorem transparent_never_sent {s : SendState} (h : Reach sendSystem Free s) :
    (∀ p r, s.world.proposals p = some r → r.transparentInputs.any id = false) ∧
    (∀ task ∈ s.world.tasks, task.kind = .confirmSend ∨ task.kind = .sendJob →
      ∃ taken, task.proposal = some taken ∧ taken.record.transparentInputs.any id = false) ∧
    (∀ e ∈ s.world.log, ∀ taken ∈ e.proposal, taken.record.transparentInputs.any id = false) ∧
    ∀ steps ∈ s.signed, steps.any id = false := by
  have hok : s.Ok := h.invariant (I := SendState.Ok)
    (by rintro s rfl; exact ⟨shielded_fresh, nofun⟩)
    fun _ _ _ hs _ hstep => hs.step hstep
  refine ⟨hok.world.proposals, fun task hmem hkind => ?_, hok.world.log, hok.signed⟩
  obtain ⟨taken, htaken⟩ := Option.ne_none_iff_exists'.mp ((hok.world.tasks task hmem).sends hkind)
  exact ⟨taken, htaken, (hok.world.tasks task hmem).proposal taken htaken⟩

def Env.proposes (steps : List Bool) : Env := { Env.works with propose := .ok steps }

/-- Only the second step of a proposal has transparent inputs: it is refused, the others are not. -/
def mixedProposals : List SendAction :=
  [.wallet (.call (.restoreWallet .works .works .works 0 (List.replicate 24 "abandon") true)),
    .wallet (.call (.prepareSend (.proposes [false, true]) 0 5)),
    .wallet (.call (.prepareSend (.proposes [false, false]) 0 6)),
    .wallet (.call (.prepareSend (.proposes [false]) 0 7)),
    .wallet (.call (.reauthWallet .works 0 .spend 0)),
    .wallet (.call (.startSendJob .works 6 0)),
    .confirmSend .works 0 7 true,
    .wallet (.call (.buildSigningRequest (.proposes [true]) 8)),
    .wallet (.call (.buildSigningRequest (.proposes [false]) 9))]

theorem transparent_never_sent_mixed : ∃ s, (Reach sendSystem Free s ∧
    s.world.tasks.map Task.kind = [.sendJob] ∧ s.world.log.length = 2 ∧ s.signed = [[false]]) ∧
    ∀ e ∈ s.world.log, ∀ taken ∈ e.proposal, taken.record.transparentInputs.any id = false := by
  obtain ⟨s, hs, hrun⟩ := exec_reach (S := sendSystem) (G := Free)
    (p := fun s => s.world.tasks.map Task.kind = [.sendJob] ∧ s.world.log.length = 2 ∧
      s.signed = [[false]]) mixedProposals rfl (along_free _ _) (by decide +kernel)
  exact ⟨s, ⟨hs, hrun⟩, (transparent_never_sent hs).2.2.1⟩

end ZbagWallet
