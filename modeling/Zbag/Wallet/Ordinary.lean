import Zbag.Wallet.Keys

/-!
# Wallet — calls that leave the backup state alone

Six calls create wallets, issue and verify backup challenges or log out. All others leave the wallet
rows, the backup flags, the challenges and the mnemonics as they are. They move send proposals
around, and only such whose steps have no transparent inputs.
-/

set_option mvcgen.warning false

namespace ZbagWallet

open Std.Do

/-- Whether a wallet is backed up. -/
structure Backup where
  wallets : WalletId → Option WalletType
  required : WalletId → Option Bool
  challenges : WalletId → Option BackupChallengeState
  mnemonics : WalletId → Option (List String)

def World.backup (s : World) : Backup :=
  ⟨s.appDb.wallets, s.appDb.backupRequired, s.backupChallenges, s.mnemonics⟩

/-! ## Proposals without transparent inputs -/

/-- No step has transparent inputs. -/
def ProposalRecord.Shielded (r : ProposalRecord) : Prop := r.transparentInputs.any id = false

def ShieldedFrom (proposal : Option TakenProposal) : Prop :=
  ∀ taken ∈ proposal, taken.record.Shielded

structure Task.Shielded (task : Task) : Prop where
  sends : task.kind = .confirmSend ∨ task.kind = .sendJob → task.proposal ≠ none
  proposal : ShieldedFrom task.proposal

/-- No proposal has a step with transparent inputs: stored, with a task, or built from. -/
structure Shielded (s : World) : Prop where
  proposals : ∀ p r, s.proposals p = some r → r.Shielded
  tasks : ∀ task ∈ s.tasks, task.Shielded
  log : ∀ e ∈ s.log, ShieldedFrom e.proposal

theorem shieldedFrom_none : ShieldedFrom none := nofun

theorem shieldedFrom_some {taken : TakenProposal} (h : taken.record.Shielded) :
    ShieldedFrom (some taken) := by
  rintro _ ⟨⟩
  exact h

variable {task : Task} {s : World} {i : ℕ}

theorem Task.shielded_of_some {taken : TakenProposal} (htask : task.proposal = some taken)
    (h : taken.record.Shielded) : task.Shielded where
  sends _ := by simp [htask]
  proposal := htask ▸ shieldedFrom_some h

theorem Task.shielded_of_none (htask : task.proposal = none)
    (hkind : ¬ (task.kind = .confirmSend ∨ task.kind = .sendJob)) : task.Shielded where
  sends h := absurd h hkind
  proposal := htask ▸ shieldedFrom_none

namespace Shielded

variable {s t : World}

theorem drop (h : Shielded s) (hproposals : ∀ p r, t.proposals p = some r → s.proposals p = some r)
    (htasks : t.tasks = s.tasks) (hlog : t.log = s.log) : Shielded t where
  proposals p r hp := h.proposals p r (hproposals p r hp)
  tasks := htasks ▸ h.tasks
  log := hlog ▸ h.log

theorem insert (h : Shielded s) (p : ℕ) {record : ProposalRecord} (hrecord : record.Shielded) :
    Shielded { s with
      proposals := Function.update s.proposals p (some record)
      prepared := s.prepared + 1 } := by
  refine ⟨fun p' r hp => ?_, h.tasks, h.log⟩
  change Function.update s.proposals p (some record) p' = some r at hp
  by_cases e : p' = p
  · rw [e, Function.update_self, Option.some.injEq] at hp
    exact hp ▸ hrecord
  · rw [Function.update_of_ne e] at hp
    exact h.proposals p' r hp

theorem remove (h : Shielded s) (p : ℕ) :
    Shielded { s with proposals := Function.update s.proposals p none } := by
  refine h.drop (fun p' r hp => ?_) rfl rfl
  change Function.update s.proposals p none p' = some r at hp
  by_cases e : p' = p
  · rw [e, Function.update_self] at hp
    cases hp
  · rwa [Function.update_of_ne e] at hp

theorem spawn (h : Shielded s) {task : Task} (htask : task.Shielded) :
    Shielded { s with tasks := s.tasks ++ [task] } := by
  refine ⟨h.proposals, fun task' hmem => ?_, h.log⟩
  rcases List.mem_append.mp hmem with hmem | hmem
  · exact h.tasks task' hmem
  · obtain rfl := List.mem_singleton.mp hmem
    exact htask

theorem record (h : Shielded s) (w : WalletId) (kind : TxEventKind)
    {proposal : Option TakenProposal} (hproposal : ShieldedFrom proposal) :
    Shielded (s.record w kind proposal) := by
  refine ⟨h.proposals, h.tasks, fun e hmem => ?_⟩
  rcases List.mem_cons.mp hmem with rfl | hmem
  · exact hproposal
  · exact h.log e hmem

end Shielded

/-! ## Operations -/

section Operations

variable {K : MoveKind → Bool} {I : World → Prop} {b : Backup} {t : World}

theorem WorldMoves.backup (h : WorldMoves K I t) (hK : K .backup = false)
    (hI : ∀ s, I s → s.backup = b) : t.backup = b := by
  induction h with
  | start h => exact hI _ h
  | row _ _ _ hb _ _ | rows _ _ _ _ hb _ _ | complete _ _ hb _ _ | count _ _ _ _ hb _ _
  | dropChallenge _ _ hb _ | secrets _ _ hb _ =>
    rw [hK] at hb
    cases hb
  | issue _ _ _ hb _ _ =>
    rw [hK] at hb
    cases hb.1
  | accounts _ _ ih | active _ _ _ ih | token _ _ _ _ _ ih | prepare _ _ _ _ _ _ _ ih
  | remove _ _ ih | clear _ _ ih | take _ _ _ _ _ _ _ _ _ ih | spawn _ _ _ _ _ ih | request _ _ _ _ ih
  | created _ _ _ ih => exact ih

/-- **The other calls leave the backup state.** -/
theorem op_backup {c : Call} (hc : c.touchesBackup = false) : (c.op.exec s).backup = s.backup :=
  (call_moves (I := (· = s)) c rfl).backup hc (by rintro _ rfl; rfl)

/-- **Moves keep the proposals shielded.** -/
theorem WorldMoves.shielded (h : WorldMoves K I t) (hI : ∀ s, I s → Shielded s) : Shielded t := by
  induction h with
  | start h => exact hI _ h
  | row _ _ _ _ _ ih | rows _ _ _ _ _ _ ih | complete _ _ _ _ ih | issue _ _ _ _ _ ih
  | count _ _ _ _ _ _ ih | dropChallenge _ _ _ ih | secrets _ _ _ ih | accounts _ _ ih
  | active _ _ _ ih | token _ _ _ _ _ ih | request _ _ _ _ ih =>
    exact ih.drop (fun _ _ hp => hp) rfl rfl
  | prepare _ p record _ _ _ hshielded ih => exact ih.insert p hshielded
  | remove _ p ih => exact ih.remove p
  | clear _ w ih => exact ih.drop (fun _ _ hp => (Option.filter_eq_some_iff.mp hp).1) rfl rfl
  | take _ p task taken hp htask _ _ _ ih =>
    exact (ih.remove p).spawn (Task.shielded_of_some htask (ih.proposals p _ hp))
  | spawn _ task hnone hkind _ ih => exact ih.spawn (Task.shielded_of_none hnone hkind)
  | created _ w _ ih => exact ih.record w .created shieldedFrom_none

end Operations

/-! ## Tasks -/

theorem taskStep_backup {t : World} {answer : TaskAnswer} (h : taskStep s i answer = some t) :
    t.backup = s.backup := by
  obtain ⟨task, htask, hmove⟩ := taskStep_cases h
  cases hmove <;> rfl

theorem Shielded.setTask (h : Shielded s) (htask : s.tasks[i]? = some task) (pc : TaskPc) :
    Shielded (setTask s i task pc) := by
  refine ⟨h.proposals, fun task' hmem => ?_, h.log⟩
  rcases List.mem_or_eq_of_mem_set hmem with hmem | rfl
  · exact h.tasks task' hmem
  · obtain ⟨hsends, hproposal⟩ := h.tasks task (List.mem_of_getElem? htask)
    exact ⟨hsends, hproposal⟩

theorem Shielded.taskStep {t : World} {answer : TaskAnswer} (hs : Shielded s)
    (h : taskStep s i answer = some t) : Shielded t := by
  obtain ⟨task, htask, hmove⟩ := taskStep_cases h
  have hproposal := (hs.tasks task (List.mem_of_getElem? htask)).proposal
  cases hmove with
  | finish | pass answer hpc hgate => exact hs.setTask htask _
  | build built hpc => exact (hs.setTask htask _).record _ .created hproposal
  | send left rest hpc => exact (hs.setTask htask _).record _ .sent hproposal
  | goOn hpc => exact hs.setTask htask _

end ZbagWallet
