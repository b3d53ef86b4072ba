import Zbag.Wallet.Moves

/-!
# Wallet — nothing is spent before the backup

A wallet's transactions may be built and sent only once its stored `backup_required` flag is
`false`. The flag of an existing wallet never returns to `true`, so a check stays valid for the
whole task that made it; every path to a transaction has such a check except the shield job.
-/

set_option mvcgen.warning false

namespace ZbagWallet

open Std.Do Transition

def TaskPc.pastGate : TaskPc → Bool
  | .create => true
  | .send _ => true
  | _ => false

/-- What can lead to a transaction belongs to a wallet that is backed up. -/
structure Gated (g : SpendState) : Prop where
  rows : ∀ w, g.appDb.backupRequired w ≠ none → g.appDb.wallets w ≠ none
  challenges : ∀ w, g.backupChallenges w ≠ none → g.appDb.wallets w ≠ none
  proposals : ∀ p r, g.proposals p = some r → g.appDb.backupFlag r.walletId = false
  tasks : ∀ t ∈ g.tasks, t.pc.pastGate = true → g.appDb.backupFlag t.walletId = false
  log : ∀ e ∈ g.log, e.backupRequired = false

namespace Gated

variable {g : SpendState}

theorem fresh : Gated World.fresh.spend :=
  ⟨fun _ h => absurd rfl h, fun _ h => absurd rfl h, nofun,
    nofun, nofun⟩

theorem of_appDb (h : Gated g) {db : AppDb}
    (hrows : ∀ w, db.backupRequired w ≠ none → db.wallets w ≠ none)
    (hwallets : ∀ w, g.appDb.wallets w ≠ none → db.wallets w ≠ none)
    (hflag : ∀ w, g.appDb.backupFlag w = false → db.backupFlag w = false) :
    Gated { g with appDb := db } :=
  ⟨hrows, fun w hw => hwallets w (h.challenges w hw), fun p r hp => hflag _ (h.proposals p r hp),
    fun t ht hp => hflag _ (h.tasks t ht hp), h.log⟩

theorem insertWallet (h : Gated g) (w : WalletId) (walletType : WalletType) :
    Gated { g with
      appDb := { g.appDb with wallets := Function.update g.appDb.wallets w walletType } } := by
  have hwallets : ∀ w', g.appDb.wallets w' ≠ none →
      Function.update g.appDb.wallets w (some walletType) w' ≠ none := by
    intro w' hw'
    by_cases hw : w' = w
    · rw [hw, Function.update_self]
      simp
    · rwa [Function.update_of_ne hw]
  exact h.of_appDb (fun w' hw' => hwallets w' (h.rows w' hw')) hwallets fun _ hw' => hw'

theorem setBackup (h : Gated g) {w : WalletId} {required : Bool} (hw : g.appDb.wallets w ≠ none)
    (hreq : required = true → g.appDb.backupFlag w = true) :
    Gated { g with appDb := { g.appDb with
      backupRequired := Function.update g.appDb.backupRequired w required } } := by
  refine h.of_appDb (fun w' hw' => ?_) (fun _ hw' => hw') fun w' hw' => ?_
  · by_cases e : w' = w
    · exact e ▸ hw
    · change Function.update g.appDb.backupRequired w (some required) w' ≠ none at hw'
      rw [Function.update_of_ne e] at hw'
      exact h.rows w' hw'
  · by_cases e : w' = w
    · subst e
      cases required with
      | true => rw [hreq rfl] at hw'; cases hw'
      | false => simp [AppDb.backupFlag]
    · simpa [AppDb.backupFlag, Function.update_of_ne e] using hw'

theorem upsertAccount (h : Gated g) (accounts : WalletId → AccountId → Option AccountType) :
    Gated { g with appDb := { g.appDb with accounts } } :=
  h.of_appDb h.rows (fun _ hw => hw) fun _ hw => hw

theorem setChallenge (h : Gated g) {w : WalletId} (hw : g.appDb.wallets w ≠ none)
    (challenge : Option BackupChallengeState) :
    Gated { g with backupChallenges := Function.update g.backupChallenges w challenge } := by
  refine ⟨h.rows, fun w' hw' => ?_, h.proposals, h.tasks, h.log⟩
  by_cases e : w' = w
  · exact e ▸ hw
  · change Function.update g.backupChallenges w challenge w' ≠ none at hw'
    rw [Function.update_of_ne e] at hw'
    exact h.challenges w' hw'

theorem wallet_of_challenge {s : World} (h : Gated s.spend) {w : WalletId}
    {state : BackupChallengeState} (hc : s.backupChallenges w = some state) :
    s.appDb.wallets w ≠ none :=
  h.challenges w (by simp [World.spend, hc])

theorem dropChallenge (h : Gated g) (w : WalletId) :
    Gated { g with backupChallenges := Function.update g.backupChallenges w none } := by
  refine ⟨h.rows, fun w' hw' => ?_, h.proposals, h.tasks, h.log⟩
  change Function.update g.backupChallenges w none w' ≠ none at hw'
  by_cases e : w' = w
  · simp [e] at hw'
  · rw [Function.update_of_ne e] at hw'
    exact h.challenges w' hw'

theorem of_proposals (h : Gated g) {proposals : ℕ → Option ProposalRecord} (prepared : ℕ)
    (hp : ∀ p r, proposals p = some r → g.appDb.backupFlag r.walletId = false) :
    Gated { g with proposals, prepared } :=
  ⟨h.rows, h.challenges, hp, h.tasks, h.log⟩

theorem dropProposal (h : Gated g) (p : ℕ) :
    Gated { g with proposals := Function.update g.proposals p none } := by
  refine h.of_proposals g.prepared fun p' r hp => ?_
  by_cases e : p' = p
  · simp [e] at hp
  · rw [Function.update_of_ne e] at hp
    exact h.proposals p' r hp

theorem addProposal (h : Gated g) (p prepared : ℕ) {record : ProposalRecord}
    (hr : g.appDb.backupFlag record.walletId = false) :
    Gated { g with proposals := Function.update g.proposals p (some record), prepared } := by
  refine h.of_proposals prepared fun p' r hp => ?_
  by_cases e : p' = p
  · rw [e, Function.update_self, Option.some.injEq] at hp
    exact hp ▸ hr
  · rw [Function.update_of_ne e] at hp
    exact h.proposals p' r hp

theorem filterProposals (h : Gated g) (keep : ProposalRecord → Bool) :
    Gated { g with proposals := fun p => (g.proposals p).filter keep } := by
  refine h.of_proposals g.prepared fun p r hp => ?_
  rw [Option.filter_eq_some_iff] at hp
  exact h.proposals p r hp.1

theorem addTask (h : Gated g) {task : Task}
    (ht : task.pc.pastGate = true → g.appDb.backupFlag task.walletId = false) :
    Gated { g with tasks := g.tasks ++ [task] } := by
  refine ⟨h.rows, h.challenges, h.proposals, fun t hmem hp => ?_, h.log⟩
  rcases List.mem_append.mp hmem with hold | hnew
  · exact h.tasks t hold hp
  · rw [List.mem_singleton] at hnew
    exact hnew ▸ ht (hnew ▸ hp)

theorem setTask (h : Gated g) (i : ℕ) {task : Task}
    (ht : task.pc.pastGate = true → g.appDb.backupFlag task.walletId = false) :
    Gated { g with tasks := g.tasks.set i task } := by
  refine ⟨h.rows, h.challenges, h.proposals, fun t hmem hp => ?_, h.log⟩
  rcases List.mem_or_eq_of_mem_set hmem with hold | rfl
  · exact h.tasks t hold hp
  · exact ht hp

theorem record (h : Gated g) {w : WalletId} (kind : TxEventKind)
    (proposal : Option TakenProposal) (hw : g.appDb.backupFlag w = false) :
    Gated { g with log := ⟨w, kind, g.appDb.backupFlag w, proposal⟩ :: g.log } := by
  refine ⟨h.rows, h.challenges, h.proposals, h.tasks, fun e he => ?_⟩
  rcases List.mem_cons.mp he with rfl | hold
  · exact hw
  · exact h.log e hold

end Gated

/-! ## Operations -/

/-- **Moves keep `Gated`** unless a job without a gate is started. -/
theorem WorldMoves.gated {K : MoveKind → Bool} {I : World → Prop} {t : World}
    (h : WorldMoves K I t) (hK : K .shield = false) (hI : ∀ s, I s → Gated s.spend) :
    Gated t.spend := by
  induction h with
  | start h => exact hI _ h
  | row _ w walletType _ _ ih => exact ih.insertWallet w walletType
  | @rows s _ w walletType required _ hnew ih =>
    have hrow : s.appDb.backupRequired w = none := by
      by_contra hne
      exact ih.rows w hne hnew
    exact (ih.insertWallet w walletType).setBackup (by simp) fun _ => by
      simp [AppDb.backupFlag, World.spend, hrow]
  | complete _ w _ hstate ih => exact ih.setBackup (ih.challenges w hstate) nofun
  | issue _ w state _ hrow ih => exact ih.setChallenge hrow _
  | count _ w state _ _ hstate ih => exact ih.setChallenge (ih.wallet_of_challenge hstate) _
  | dropChallenge _ w _ ih => exact ih.dropChallenge w
  | accounts _ accounts ih => exact ih.upsertAccount accounts
  | secrets _ _ _ ih | active _ _ _ ih | token _ _ _ _ _ ih | request _ _ _ _ ih => exact ih
  | prepare _ p record _ _ hflag _ ih => exact ih.addProposal p _ hflag
  | remove _ p ih => exact ih.dropProposal p
  | clear _ w ih => exact ih.filterProposals _
  | take _ p task taken hp _ _ hwallet _ ih =>
    exact (ih.dropProposal p).addTask fun _ => hwallet ▸ ih.proposals p _ hp
  | spawn _ task _ _ hpc ih =>
    refine ih.addTask fun hpast => ?_
    rcases hpc with hpc | hshield
    · rw [hpc] at hpast
      cases hpast
    · rw [hK] at hshield
      cases hshield
  | created _ w hflag ih => exact ih.record .created none hflag

def BackupDone (s : World) : Prop :=
  ∀ active ∈ s.activeWallet, s.appDb.backupFlag active.wallet = false

instance (s : World) : Decidable (BackupDone s) :=
  inferInstanceAs (Decidable (∀ active ∈ s.activeWallet, _))

theorem startShieldJob_spawns (env : Env) (a : AccountId) (token : ℕ) (s₀ : World) :
    ⦃fun s => ⌜s = s₀⌝⦄ startShieldJob env a token
    ⦃post⟨fun _ s => ⌜∃ active ∈ s₀.activeWallet, s.spend = { s₀.spend with
        tasks := s₀.spend.tasks ++ [⟨.shieldJob, active.wallet, a, [], none, .create⟩] }⌝,
      fun _ s => ⌜s.spend = s₀.spend⌝⟩⦄ := by
  mvcgen [startShieldJob, consumeReauthToken, spawn, ipcErr]
  all_goals grind [World.spend]

/-- A call of `start_shield_job` finds the active wallet backed up. -/
def ShieldJobAfterBackup (s : World) : Action → Prop
  | .call (.startShieldJob _ _ _) => BackupDone s
  | _ => True

instance (s : World) : ∀ a : Action, Decidable (ShieldJobAfterBackup s a)
  | .call c => by cases c <;> unfold ShieldJobAfterBackup <;> infer_instance
  | .task _ _ => isTrue trivial
  | .restart => isTrue trivial

/-- **Every operation keeps `Gated`.** -/
theorem op_gated {s : World} {c : Call} (hs : Gated s.spend)
    (hg : ShieldJobAfterBackup s (.call c)) : Gated (c.op.exec s).spend := by
  cases c with
  | startShieldJob env a token =>
    obtain ⟨hok, herr⟩ := run_of_triple (startShieldJob_spawns env a token s) rfl
    change Gated ((startShieldJob env a token).run s).2.spend
    cases hr : ((startShieldJob env a token).run s).1 with
    | ok u =>
      obtain ⟨active, hactive, hspend⟩ := hok u hr
      rw [hspend]
      exact hs.addTask fun _ => hg active hactive
    | error e =>
      rw [herr e hr]
      exact hs
  | _ => exact (call_moves (I := fun s => Gated s.spend) _ hs).gated rfl fun _ h => h

/-! ## Tasks -/

theorem backupFlag_of_passesGate {db : AppDb} {task : Task} {answer : TaskAnswer}
    (h : passesGate db task answer = true) : db.backupFlag task.walletId = false := by
  have hspend : ∀ a, (ensureSpendAllowed db task.walletId a).isOk = true →
      db.backupFlag task.walletId = false := by
    intro a ha
    cases he : ensureSpendAllowed db task.walletId a with
    | ok u => exact backupFlag_of_ensureSpendAllowed he
    | error e => rw [he] at ha; cases ha
  unfold passesGate at h
  split at h
  · exact hspend _ (Bool.and_eq_true_iff.mp h).2
  · simp only [Bool.and_eq_true] at h
    exact hspend _ h.1.2
  · split at h
    · exact hspend _ h
    · cases he : ensureBackupComplete db task.walletId with
      | ok u => exact backupFlag_of_ensureBackupComplete he
      | error e => rw [he] at h; cases h
    · cases h
  · cases h

/-- **Every step of a task keeps `Gated`**: only the gate leads to the building and sending. -/
theorem taskStep_gated {s t : World} {i : ℕ} {answer : TaskAnswer} (hs : Gated s.spend)
    (h : taskStep s i answer = some t) : Gated t.spend := by
  obtain ⟨task, htask, hmove⟩ := taskStep_cases h
  have hflag : task.pc.pastGate = true → s.appDb.backupFlag task.walletId = false :=
    hs.tasks task (List.mem_of_getElem? htask)
  have hset : ∀ pc : TaskPc, (pc.pastGate = true → s.appDb.backupFlag task.walletId = false) →
      Gated (setTask s i task pc).spend := fun pc hpc => hs.setTask i hpc
  cases hmove with
  | finish => exact hset .finished nofun
  | pass answer hpc hgate => exact hset _ fun _ => backupFlag_of_passesGate hgate
  | build built hpc =>
    have hdone := hflag (by rw [hpc]; rfl)
    exact (hset (.send built) fun _ => hdone).record .created _ hdone
  | send left rest hpc =>
    have hdone := hflag (by rw [hpc]; rfl)
    exact (hset (.send rest) fun _ => hdone).record .sent _ hdone
  | goOn hpc => exact hset _ fun _ => hflag (by rw [hpc]; rfl)

/-! ## Runs -/

theorem step_gated {s t : World} {a : Action} (hs : Gated s.spend) (hg : ShieldJobAfterBackup s a)
    (h : step s a = some t) : Gated t.spend := by
  cases a with
  | call c =>
    rw [step, Option.some.injEq] at h
    exact h ▸ op_gated hs hg
  | task i answer => exact taskStep_gated hs h
  | restart =>
    rw [step, Option.some.injEq] at h
    subst h
    exact ⟨hs.rows, fun _ hw => absurd rfl hw, nofun,
      nofun, hs.log⟩

theorem gated_of_reach {s : World} (h : Reach walletSystem ShieldJobAfterBackup s) :
    Gated s.spend :=
  h.invariant (I := fun s => Gated s.spend) (by rintro s rfl; exact Gated.fresh)
    fun _ _ _ hs hg hst => step_gated hs hg hst

theorem taskStep_create {s : World} {i : ℕ} {task : Task} (h : s.tasks[i]? = some task)
    (hpc : task.pc = .create) (built : ℕ) :
    taskStep s i (.proceed built) =
      some ((setTask s i task (.send built)).record task.walletId .created task.proposal) := by
  simp [taskStep, h, hpc]

/-- **No transaction before the backup**, if `start_shield_job` is only called once the active
wallet is backed up. A shield job accepted for another wallet can go on to build a transaction of
it. -/
theorem transactions_after_backup (s : World) :
    (Reach walletSystem ShieldJobAfterBackup s → ∀ e ∈ s.log, e.backupRequired = false) ∧
      ∀ env a token, (startShieldJob env a token |>.run s).1 = .ok () → ¬ BackupDone s →
        ∃ u, Path walletSystem Free ((startShieldJob env a token).exec s) u ∧
          ∃ e ∈ u.log, e.kind = .created ∧ e.backupRequired = true := by
  refine ⟨fun h => (gated_of_reach h).log, fun env a token hok hnot => ?_⟩
  obtain ⟨active, hactive, hspend⟩ :=
    (run_of_triple (startShieldJob_spawns env a token s) rfl).1 () hok
  set t := (startShieldJob env a token).exec s with ht
  have hdb : t.appDb = s.appDb := congrArg SpendState.appDb hspend
  have htask :
      t.tasks[s.tasks.length]? = some ⟨.shieldJob, active.wallet, a, [], none, .create⟩ := by
    rw [show t.tasks = _ from congrArg SpendState.tasks hspend]
    exact List.getElem?_concat_length
  refine ⟨_, Path.single (a := .task s.tasks.length (.proceed 1)) trivial
    (taskStep_create htask rfl 1), _, List.mem_cons_self, rfl, ?_⟩
  -- the stored flag is the one that the call found
  simp only [setTask, hdb]
  by_contra hflag
  refine hnot fun active' hactive' => ?_
  rw [Option.mem_def, hactive, Option.some.injEq] at hactive'
  exact hactive' ▸ by simpa using hflag

/-- A new wallet, a spend authorisation, a shield job and two steps of the job. -/
def shieldBeforeBackup : List Action :=
  [.call (.createWallet .works .works .works 0 (List.replicate 24 "abandon") true 0 [1, 2, 3, 4]),
    .call (.reauthWallet .works 0 .spend 0), .call (.startShieldJob .works 0 0),
    .task 0 (.proceed 1), .task 0 (.proceed 0)]

theorem shieldJob_sends_before_backup : ∃ s, Reach walletSystem Free s ∧
    (∃ e ∈ s.log, e.walletId = 0 ∧ e.kind = .created ∧ e.backupRequired = true) ∧
      ∃ e ∈ s.log, e.walletId = 0 ∧ e.kind = .sent ∧ e.backupRequired = true :=
  exec_reach shieldBeforeBackup rfl (along_free _ _) (by decide +kernel)

def shieldAfterRestore : List Action :=
  [.call (.restoreWallet .works .works .works 0 (List.replicate 24 "abandon") true),
    .call (.reauthWallet .works 0 .spend 0), .call (.startShieldJob .works 0 0),
    .task 0 (.proceed 1), .task 0 (.proceed 0)]

theorem transactions_after_backup_restored :
    (∃ s, (Reach walletSystem ShieldJobAfterBackup s ∧ s.log.length = 2) ∧
      ∀ e ∈ s.log, e.backupRequired = false) ∧
    ∃ s u, Path walletSystem Free ((startShieldJob .works 0 0).exec s) u ∧
      ∃ e ∈ u.log, e.kind = .created ∧ e.backupRequired = true := by
  constructor
  · obtain ⟨s, hs, hlen⟩ := exec_reach (S := walletSystem) (G := ShieldJobAfterBackup)
      (p := fun s => s.log.length = 2) shieldAfterRestore rfl (by decide +kernel)
      (by decide +kernel)
    exact ⟨s, ⟨hs, hlen⟩, (transactions_after_backup s).1 hs⟩
  · obtain ⟨s, _, hok, hnot⟩ := exec_reach (S := walletSystem) (G := Free)
      (p := fun s => ((startShieldJob .works 0 0).run s).1.isOk = true ∧ ¬ BackupDone s)
      (shieldBeforeBackup.take 2) rfl (along_free _ _) (by decide +kernel)
    refine ⟨s, (transactions_after_backup s).2 .works 0 0 ?_ hnot⟩
    cases hr : ((startShieldJob .works 0 0).run s).1 with
    | ok u => rfl
    | error e => rw [hr] at hok; cases hok

end ZbagWallet
