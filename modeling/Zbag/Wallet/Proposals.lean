import Zbag.Wallet.BackupGate
import Zbag.Lib.Table

/-!
# Wallet — a proposal is built from at most once

A send proposal is in one place at a time: in the table of the transaction service, with one task
that has not built yet, or spent. Every operation and every step of a task moves proposals in one
of a few ways, and each of these keeps the places apart.
-/

set_option mvcgen.warning false

namespace ZbagWallet

open Std.Do Transition Relation

/-! ## Places -/

structure Custody where
  proposals : ℕ → Option ProposalRecord
  prepared : ℕ
  tasks : List Task
  log : List TxEvent

def SpendState.custody (g : SpendState) : Custody := ⟨g.proposals, g.prepared, g.tasks, g.log⟩

def TaskPc.beforeBuild : TaskPc → Bool
  | .gate => true
  | .create => true
  | _ => false

/-- It can still build from proposal number `n`. -/
def Task.owes (n : ℕ) (t : Task) : Bool :=
  t.pc.beforeBuild && t.proposal.any fun taken => taken.record.serial == n

def TxEvent.builds (n : ℕ) (e : TxEvent) : Bool :=
  e.kind == .created && e.proposal.any fun taken => taken.record.serial == n

/-- Tasks that can still build from proposal number `n`, and how often this was done. -/
def Custody.uses (c : Custody) (n : ℕ) : ℕ :=
  c.tasks.countP (Task.owes n) + c.log.countP (TxEvent.builds n)

/-- Shielding builds again after it has sent. -/
def TaskKind.shields : TaskKind → Bool
  | .shieldFunds => true
  | .shieldJob => true
  | _ => false

/-- One of `w`, taken at a clock not after its expiry. -/
def TakenProposal.GrantedFor (w : WalletId) (taken : TakenProposal) : Prop :=
  taken.record.walletId = w ∧ taken.readAt ≤ taken.record.expiresAt

instance (w : WalletId) (taken : TakenProposal) : Decidable (taken.GrantedFor w) :=
  inferInstanceAs (Decidable (_ ∧ _))

/-! ## Moves -/

/-- What can happen to the proposals. -/
inductive Move (c : Custody) : Custody → Prop
  | drop {proposals : ℕ → Option ProposalRecord} :
      (∀ p r, proposals p = some r → c.proposals p = some r) → Move c { c with proposals }
  | prepare (p : ℕ) (record : ProposalRecord) : record.serial = c.prepared →
      Move c { c with
        proposals := Function.update c.proposals p (some record)
        prepared := c.prepared + 1 }
  | take (p : ℕ) (task : Task) (taken : TakenProposal) : c.proposals p = some taken.record →
      task.proposal = some taken → task.kind.shields = false → taken.GrantedFor task.walletId →
      Move c { c with
        proposals := Function.update c.proposals p none
        tasks := c.tasks ++ [task] }
  | spawn (task : Task) : task.proposal = none → Move c { c with tasks := c.tasks ++ [task] }
  | advance (i : ℕ) (task : Task) (pc : TaskPc) : c.tasks[i]? = some task →
      (pc.beforeBuild = true → task.pc.beforeBuild = true ∨ task.kind.shields = true) →
      Move c { c with tasks := c.tasks.set i { task with pc } }
  | build (i : ℕ) (task : Task) (sends : ℕ) (flag : Bool) : c.tasks[i]? = some task →
      task.pc = .create →
      Move c { c with
        tasks := c.tasks.set i { task with pc := .send sends }
        log := ⟨task.walletId, .created, flag, task.proposal⟩ :: c.log }
  | send (i : ℕ) (task : Task) (sends : ℕ) (flag : Bool) : c.tasks[i]? = some task →
      Move c { c with
        tasks := c.tasks.set i { task with pc := .send sends }
        log := ⟨task.walletId, .sent, flag, task.proposal⟩ :: c.log }
  | record (e : TxEvent) : e.proposal = none → Move c { c with log := e :: c.log }
  | restart : Move c { c with proposals := fun _ => none, tasks := [] }

def Moves : Custody → Custody → Prop := ReflTransGen Move

namespace Moves

variable {c : Custody} {g : SpendState}

theorem dropProposal (h : Moves c g.custody) (p : ℕ) :
    Moves c { g with proposals := Function.update g.proposals p none : SpendState }.custody := by
  refine h.tail (.drop fun p' r hp => ?_)
  change Function.update g.proposals p none p' = some r at hp
  by_cases e : p' = p
  · simp [e] at hp
  · rwa [Function.update_of_ne e] at hp

theorem filterProposals (h : Moves c g.custody) (keep : ProposalRecord → Bool) :
    Moves c { g with proposals := fun p => (g.proposals p).filter keep : SpendState }.custody :=
  h.tail (.drop fun _ _ hp => (Option.filter_eq_some_iff.mp hp).1)

end Moves

/-! ## Operations -/

theorem shields_of_sends {kind : TaskKind} (h : kind = .confirmSend ∨ kind = .sendJob) :
    kind.shields = false := by
  rcases h with rfl | rfl <;> rfl

theorem WorldMoves.custody {K : MoveKind → Bool} {I : World → Prop} {c : Custody} {t : World}
    (h : WorldMoves K I t) (hI : ∀ s, I s → Moves c s.spend.custody) :
    Moves c t.spend.custody := by
  induction h with
  | start h => exact hI _ h
  | row _ _ _ _ _ ih | rows _ _ _ _ _ _ ih | complete _ _ _ _ ih | issue _ _ _ _ _ ih
  | count _ _ _ _ _ _ ih | dropChallenge _ _ _ ih | secrets _ _ _ ih | accounts _ _ ih
  | active _ _ _ ih | token _ _ _ _ _ ih | request _ _ _ _ ih => exact ih
  | prepare _ p record _ hserial _ _ ih => exact ih.tail (.prepare p record hserial)
  | remove _ p ih => exact ih.dropProposal p
  | clear _ w ih => exact ih.filterProposals _
  | take _ p task taken hp htask hkind hwallet hread ih =>
    exact ih.tail (.take p task taken hp htask (shields_of_sends hkind) ⟨hwallet, hread⟩)
  | spawn _ task hnone _ _ ih => exact ih.tail (.spawn task hnone)
  | created _ w _ ih => exact ih.tail (.record _ rfl)

/-- **Every operation moves proposals in these ways only.** -/
theorem op_moves (s : World) (call : Call) :
    Moves s.spend.custody (call.op.exec s).spend.custody :=
  (call_moves (I := (· = s)) call rfl).custody (by rintro _ rfl; exact .refl)

/-! ## Tasks -/

theorem beforeBuild_afterSends {task : Task} (h : task.afterSends.beforeBuild = true) :
    task.kind.shields = true := by
  unfold Task.afterSends at h
  split_ifs at h with hkind
  · rcases hkind with hkind | hkind <;> rw [hkind] <;> rfl
  · cases h

variable {s t : World} {p : ℕ} {r : ProposalRecord}

/-- **Every step of a task is one move.** -/
theorem taskStep_move {i : ℕ} {answer : TaskAnswer} (h : taskStep s i answer = some t) :
    Move s.spend.custody t.spend.custody := by
  obtain ⟨task, htask, hmove⟩ := taskStep_cases h
  cases hmove with
  | finish => exact .advance i task .finished htask nofun
  | pass answer hpc hgate => exact .advance i task _ htask fun _ => .inl (by rw [hpc]; rfl)
  | build built hpc => exact .build i task built _ htask hpc
  | send left rest hpc => exact .send i task rest _ htask
  | goOn hpc => exact .advance i task _ htask fun hb => .inr (beforeBuild_afterSends hb)

theorem step_moves {a : Action} (h : step s a = some t) :
    Moves s.spend.custody t.spend.custody := by
  cases a with
  | call call =>
    rw [step, Option.some.injEq] at h
    exact h ▸ op_moves s call
  | task i answer => exact .single (taskStep_move h)
  | restart =>
    rw [step, Option.some.injEq] at h
    exact h ▸ .single .restart

/-! ## One place at a time -/

/-- No proposal is in two places, and those let go were so for their own wallet, in time. -/
structure Kept (c : Custody) : Prop where
  stored_lt : ∀ p r, c.proposals p = some r → r.serial < c.prepared
  stored_inj : ∀ p q r r', c.proposals p = some r → c.proposals q = some r' →
    r.serial = r'.serial → p = q
  once : ∀ n, c.uses n ≤ 1
  apart : ∀ p r, c.proposals p = some r → c.uses r.serial = 0
  used_lt : ∀ n, c.uses n ≠ 0 → n < c.prepared
  kinds : ∀ t ∈ c.tasks, t.proposal ≠ none → t.kind.shields = false
  tasks : ∀ t ∈ c.tasks, ∀ taken ∈ t.proposal, taken.GrantedFor t.walletId
  log : ∀ e ∈ c.log, ∀ taken ∈ e.proposal, taken.GrantedFor e.walletId

/-- Made, and neither stored nor with a task nor built from. -/
structure Lost (n : ℕ) (c : Custody) : Prop where
  prepared : n < c.prepared
  stored : ∀ p r, c.proposals p = some r → r.serial ≠ n
  uses : c.uses n = 0

section Moves

variable {c c' : Custody}

variable {t : Task} {n : ℕ}

theorem Task.owes_of_none (h : t.proposal = none) (n : ℕ) : t.owes n = false := by
  simp [Task.owes, h]

theorem serial_of_owes {taken : TakenProposal} (h : t.owes n = true)
    (ht : t.proposal = some taken) : taken.record.serial = n := by
  simpa [Task.owes, ht] using (Bool.and_eq_true_iff.mp h).2

theorem uses_append (c : Custody) (task : Task) (proposals : ℕ → Option ProposalRecord) (n : ℕ) :
    { c with proposals, tasks := c.tasks ++ [task] : Custody }.uses n =
      c.uses n + if task.owes n then 1 else 0 := by
  simp only [Custody.uses, List.countP_append, List.countP_singleton]
  omega

theorem uses_set {i : ℕ} {task : Task} (h : c.tasks[i]? = some task) (task' : Task)
    (log : List TxEvent) (n : ℕ) :
    { c with tasks := c.tasks.set i task', log := log ++ c.log : Custody }.uses n +
        (if task.owes n then 1 else 0) =
      c.uses n + (if task'.owes n then 1 else 0) + log.countP (TxEvent.builds n) := by
  have hset := Table.countP_set_add (b := task') (Task.owes n) h
  simp only [Custody.uses, List.countP_append]
  omega

/-- Into use only by leaving the table. -/
theorem Move.uses (hc : Kept c) (h : Move c c') (n : ℕ) :
    c'.uses n ≤ c.uses n ∨ c'.uses n ≤ c.uses n + 1 ∧
      (∃ p r, c.proposals p = some r ∧ r.serial = n) ∧
        ∀ p r, c'.proposals p = some r → r.serial ≠ n := by
  cases h with
  | drop | prepare => exact .inl le_rfl
  | take p task taken hp ht hk hg =>
    have huses := uses_append c task (Function.update c.proposals p none) n
    by_cases howes : task.owes n = true
    · have hn := serial_of_owes howes ht
      rw [if_pos howes] at huses
      refine .inr ⟨huses.le, ⟨p, _, hp, hn⟩, fun q r hq hr => ?_⟩
      have hne : q ≠ p := by
        rintro rfl
        simp at hq
      have hold : c.proposals q = some r := by rwa [← Function.update_of_ne hne none c.proposals]
      exact hne (hc.stored_inj q p _ _ hold hp (hr.trans hn.symm))
    · rw [if_neg howes] at huses
      exact .inl huses.le
  | spawn task ht =>
    have huses := uses_append c task c.proposals n
    rw [Task.owes_of_none ht] at huses
    exact .inl huses.le
  | advance i task pc hi hpc =>
    have huses := uses_set hi { task with pc } [] n
    have howes : { task with pc : Task }.owes n = true → task.owes n = true := by
      intro h
      have hb := Bool.and_eq_true_iff.mp h
      rcases hpc hb.1 with hbefore | hshields
      · exact Bool.and_eq_true_iff.mpr ⟨hbefore, hb.2⟩
      · have hnone : task.proposal = none := by
          by_contra hne
          rw [hc.kinds task (List.mem_of_getElem? hi) hne] at hshields
          cases hshields
        rw [hnone] at hb
        cases hb.2
    left
    simp only [List.nil_append, List.countP_nil] at huses
    by_cases h' : { task with pc : Task }.owes n = true
    · rw [if_pos h', if_pos (howes h')] at huses
      omega
    · rw [if_neg h'] at huses
      omega
  | build i task sends flag hi hpc =>
    have huses := uses_set hi { task with pc := .send sends }
      [⟨task.walletId, .created, flag, task.proposal⟩] n
    -- the event is counted where the task was
    have hevent :
        TxEvent.builds n ⟨task.walletId, .created, flag, task.proposal⟩ = task.owes n := by
      simp [TxEvent.builds, Task.owes, hpc, TaskPc.beforeBuild]
    have hafter : { task with pc := .send sends : Task }.owes n = false := rfl
    rw [List.countP_singleton, hevent, hafter] at huses
    left
    simp only [List.singleton_append] at huses
    simp only [Bool.false_eq_true, if_false] at huses
    omega
  | send i task sends flag hi =>
    have huses := uses_set hi { task with pc := .send sends }
      [⟨task.walletId, .sent, flag, task.proposal⟩] n
    have hevent : TxEvent.builds n ⟨task.walletId, .sent, flag, task.proposal⟩ = false := rfl
    have hafter : { task with pc := .send sends : Task }.owes n = false := rfl
    rw [List.countP_singleton, hevent, hafter] at huses
    left
    simp only [List.singleton_append, Bool.false_eq_true, if_false] at huses
    omega
  | record e he =>
    left
    simp [Custody.uses, TxEvent.builds, he]
  | restart =>
    left
    simp [Custody.uses]

theorem Move.stored (h : Move c c') (hp : c'.proposals p = some r) :
    c.proposals p = some r ∨ r.serial = c.prepared ∧ c'.prepared = c.prepared + 1 ∧
      ∀ q, q ≠ p → c'.proposals q = c.proposals q := by
  cases h with
  | drop hsub => exact .inl (hsub p r hp)
  | prepare q record hr =>
    by_cases e : p = q
    · subst e
      simp only [Function.update_self, Option.some.injEq] at hp
      exact .inr ⟨hp ▸ hr, rfl, fun q hq => Function.update_of_ne hq _ _⟩
    · exact .inl (by simpa [Function.update_of_ne e] using hp)
  | take q task taken =>
    by_cases e : p = q
    · simp [e] at hp
    · exact .inl (by simpa [Function.update_of_ne e] using hp)
  | restart => cases hp
  | spawn | advance | build | send | record => exact .inl hp

theorem Move.prepared_le (h : Move c c') : c.prepared ≤ c'.prepared := by
  cases h with
  | prepare => exact Nat.le_succ _
  | drop | take | spawn | advance | build | send | record | restart => exact le_rfl

theorem Move.mem_tasks (h : Move c c') (ht : t ∈ c'.tasks) :
    (∃ t' ∈ c.tasks, t.kind = t'.kind ∧ t.walletId = t'.walletId ∧ t.proposal = t'.proposal) ∨
      t.proposal = none ∨
        t.kind.shields = false ∧
          ∃ taken, t.proposal = some taken ∧ taken.GrantedFor t.walletId := by
  have hset : ∀ {i : ℕ} {task : Task} {pc : TaskPc}, c.tasks[i]? = some task →
      t ∈ c.tasks.set i { task with pc } →
        ∃ t' ∈ c.tasks, t.kind = t'.kind ∧ t.walletId = t'.walletId ∧ t.proposal = t'.proposal := by
    intro i task pc hi hmem
    rcases List.mem_or_eq_of_mem_set hmem with hold | rfl
    · exact ⟨t, hold, rfl, rfl, rfl⟩
    · exact ⟨task, List.mem_of_getElem? hi, rfl, rfl, rfl⟩
  cases h with
  | drop | prepare | record => exact .inl ⟨t, ht, rfl, rfl, rfl⟩
  | take p task taken _ htask hk hg =>
    rcases List.mem_append.mp ht with hold | hnew
    · exact .inl ⟨t, hold, rfl, rfl, rfl⟩
    · rw [List.mem_singleton] at hnew
      subst hnew
      exact .inr (.inr ⟨hk, taken, htask, hg⟩)
  | spawn task hnone =>
    rcases List.mem_append.mp ht with hold | hnew
    · exact .inl ⟨t, hold, rfl, rfl, rfl⟩
    · rw [List.mem_singleton] at hnew
      exact .inr (.inl (hnew ▸ hnone))
  | advance i task pc hi | build i task sends flag hi | send i task sends flag hi =>
    exact .inl (hset hi ht)
  | restart => cases ht

theorem Move.mem_log (h : Move c c') {e : TxEvent} (he : e ∈ c'.log) :
    e ∈ c.log ∨ e.proposal = none ∨
      ∃ t ∈ c.tasks, e.walletId = t.walletId ∧ e.proposal = t.proposal := by
  cases h with
  | build i task sends flag hi | send i task sends flag hi =>
    rcases List.mem_cons.mp he with rfl | hold
    · exact .inr (.inr ⟨task, List.mem_of_getElem? hi, rfl, rfl⟩)
    · exact .inl hold
  | record e' hnone =>
    rcases List.mem_cons.mp he with rfl | hold
    · exact .inr (.inl hnone)
    · exact .inl hold
  | drop | prepare | take | spawn | advance | restart => exact .inl he

/-- **A move keeps the places apart.** -/
theorem kept_move (hc : Kept c) (h : Move c c') : Kept c' where
  stored_lt p r hp := by
    rcases h.stored hp with hold | ⟨hr, hprep, _⟩
    · exact (hc.stored_lt p r hold).trans_le h.prepared_le
    · omega
  stored_inj p q r r' hp hq hrr := by
    by_contra hne
    rcases h.stored hp with hold | ⟨hr, _, hrest⟩
    · rcases h.stored hq with hold' | ⟨hr', _⟩
      · exact hne (hc.stored_inj p q r r' hold hold' hrr)
      · have := hc.stored_lt p r hold
        omega
    · rw [hrest q (Ne.symm hne)] at hq
      have := hc.stored_lt q r' hq
      omega
  once n := by
    rcases h.uses hc n with hle | ⟨hle, ⟨p, r, hp, rfl⟩, _⟩
    · exact hle.trans (hc.once n)
    · rw [hc.apart p r hp] at hle
      exact hle
  apart p r hp := by
    have hzero : c.uses r.serial = 0 := by
      rcases h.stored hp with hold | ⟨hr, _⟩
      · exact hc.apart p r hold
      · by_contra hne
        have := hc.used_lt _ hne
        omega
    rcases h.uses hc r.serial with hle | ⟨_, _, hnot⟩
    · omega
    · exact absurd rfl (hnot p r hp)
  used_lt n hn := by
    rcases h.uses hc n with hle | ⟨_, ⟨p, r, hp, rfl⟩, _⟩
    · exact (hc.used_lt n (by omega)).trans_le h.prepared_le
    · exact (hc.stored_lt p r hp).trans_le h.prepared_le
  kinds t ht hne := by
    rcases h.mem_tasks ht with ⟨t', ht', hk, _, hp⟩ | hnone | ⟨hk, _⟩
    · exact hk ▸ hc.kinds t' ht' (hp ▸ hne)
    · exact absurd hnone hne
    · exact hk
  tasks t ht taken htaken := by
    rcases h.mem_tasks ht with ⟨t', ht', _, hw, hp⟩ | hnone | ⟨_, taken', hp, hg⟩
    · exact hw ▸ hc.tasks t' ht' taken (hp ▸ htaken)
    · rw [hnone] at htaken
      cases htaken
    · rw [hp, Option.mem_def, Option.some.injEq] at htaken
      exact htaken ▸ hg
  log e he taken htaken := by
    rcases h.mem_log he with hold | hnone | ⟨t, ht, hw, hp⟩
    · exact hc.log e hold taken htaken
    · rw [hnone] at htaken
      cases htaken
    · exact hw ▸ hc.tasks t ht taken (hp ▸ htaken)

/-- **A proposal that is nowhere stays away.** -/
theorem lost_move (hc : Kept c) (hn : Lost n c) (h : Move c c') : Lost n c' where
  prepared := hn.prepared.trans_le h.prepared_le
  stored p r hp := by
    rcases h.stored hp with hold | ⟨hr, _⟩
    · exact hn.stored p r hold
    · have := hn.prepared
      omega
  uses := by
    have hzero := hn.uses
    rcases h.uses hc n with hle | ⟨_, ⟨p, r, hp, hr⟩, _⟩
    · omega
    · exact absurd hr (hn.stored p r hp)

theorem kept_moves (hc : Kept c) (h : Moves c c') : Kept c' := by
  induction h with
  | refl => exact hc
  | tail _ hmove ih => exact kept_move ih hmove

theorem lost_moves (hc : Kept c) (hn : Lost n c) (h : Moves c c') : Lost n c' := by
  induction h with
  | refl => exact hn
  | tail hmoves hmove ih => exact lost_move (kept_moves hc hmoves) ih hmove

end Moves

/-! ## Runs -/

theorem kept_fresh : Kept World.fresh.spend.custody where
  stored_lt _ _ hp := by cases hp
  stored_inj _ _ _ _ hp := by cases hp
  once _ := Nat.zero_le 1
  apart _ _ hp := by cases hp
  used_lt _ hn := absurd rfl hn
  kinds _ ht := by cases ht
  tasks _ ht := by cases ht
  log _ he := by cases he

theorem kept_of_reach (h : Reach walletSystem Free s) : Kept s.spend.custody :=
  h.invariant (I := fun s => Kept s.spend.custody) (by rintro s rfl; exact kept_fresh)
    fun _ _ _ hs _ hstep => kept_moves hs (step_moves hstep)

def NeverBuilt (s : World) (n : ℕ) : Prop :=
  ∀ u, Path walletSystem Free s u → ∀ e ∈ u.log, e.builds n = false

theorem neverBuilt_of_lost {n : ℕ} (hs : Kept s.spend.custody) (hn : Lost n s.spend.custody) :
    NeverBuilt s n := by
  intro u hu e he
  have hlost := (hu.invariant (I := fun u => Kept u.spend.custody ∧ Lost n u.spend.custody)
    ⟨hs, hn⟩ fun _ _ _ hs _ hstep =>
      ⟨kept_moves hs.1 (step_moves hstep), lost_moves hs.1 hs.2 (step_moves hstep)⟩).2
  by_contra hb
  have hpos : 0 < u.log.countP (TxEvent.builds n) :=
    List.countP_pos_iff.mpr ⟨e, he, Bool.eq_true_of_not_eq_false hb⟩
  have hzero : u.tasks.countP (Task.owes n) + u.log.countP (TxEvent.builds n) = 0 := hlost.uses
  omega

theorem neverBuilt_of_removed (hs : Kept s.spend.custody) (hp : s.proposals p = some r)
    (ht : ∃ proposals, t.spend.custody = { s.spend.custody with proposals } ∧
      proposals p = none ∧ ∀ q r', proposals q = some r' → s.proposals q = some r') :
    NeverBuilt t r.serial := by
  obtain ⟨proposals, ht, hnone, hsub⟩ := ht
  have hmove : Move s.spend.custody t.spend.custody := ht ▸ .drop hsub
  refine neverBuilt_of_lost (kept_move hs hmove) ⟨?_, fun q r' hq hr => ?_, ?_⟩
  · exact (hs.stored_lt p r hp).trans_le hmove.prepared_le
  · rw [ht] at hq
    obtain rfl := hs.stored_inj q p r' r (hsub q r' hq) hp hr
    rw [show proposals q = some r' from hq] at hnone
    cases hnone
  · rw [ht]
    exact hs.apart p r hp

theorem neverBuilt_cancelSend (hs : Kept s.spend.custody) (hp : s.proposals p = some r) :
    NeverBuilt ((cancelSend p).exec s) r.serial := by
  refine neverBuilt_of_removed hs hp ⟨Function.update s.proposals p none, rfl,
    Function.update_self .., fun q r' hq => ?_⟩
  by_cases e : q = p
  · simp [e] at hq
  · rwa [Function.update_of_ne e] at hq

theorem filter_removes (hp : s.proposals p = some r) :
    (s.proposals p).filter (fun r' => decide (r'.walletId ≠ r.walletId)) = none ∧
      ∀ q r', (s.proposals q).filter (fun r' => decide (r'.walletId ≠ r.walletId)) = some r' →
        s.proposals q = some r' :=
  ⟨by simp [hp], fun _ _ hq => (Option.filter_eq_some_iff.mp hq).1⟩

theorem logoutWallet_clears (w : WalletId) (s₀ : World) :
    ⦃fun s => ⌜s = s₀⌝⦄ logoutWallet w
    ⦃post⟨fun _ s => ⌜s.spend.custody = { s₀.spend.custody with
        proposals := fun p => (s₀.proposals p).filter fun r => r.walletId ≠ w }⌝,
      fun _ _ => ⌜True⌝⟩⦄ := by
  mvcgen [logoutWallet, removeBackupChallenge, clearProposalsForWallet, ipcErr]
  rename_i hs _ _ _ _ _ _ _
  subst hs
  rfl

/-- **A proposal is built from at most once**, for its own wallet and by a call in time; one that
was cancelled or cleared is never built from. -/
theorem proposal_built_once (s : World) (h : Reach walletSystem Free s) :
    (∀ n, s.log.countP (TxEvent.builds n) ≤ 1) ∧
    (∀ e ∈ s.log, ∀ taken ∈ e.proposal,
      taken.record.walletId = e.walletId ∧ taken.readAt ≤ taken.record.expiresAt) ∧
    (∀ p, ((cancelSend p).run s).1 = .ok true →
      ∃ r, s.proposals p = some r ∧ NeverBuilt ((cancelSend p).exec s) r.serial) ∧
    ∀ p r, s.proposals p = some r →
      NeverBuilt ((clearProposalsForWallet r.walletId).exec s) r.serial ∧
        (((logoutWallet r.walletId).run s).1 = .ok () →
          NeverBuilt ((logoutWallet r.walletId).exec s) r.serial) := by
  have hs := kept_of_reach h
  refine ⟨fun n => (Nat.le_add_left ..).trans (hs.once n), hs.log, fun p hp => ?_,
    fun p r hp => ⟨?_, fun hok => ?_⟩⟩
  · have hfound : (s.proposals p).isSome = true := Except.ok.inj hp
    obtain ⟨r, hr⟩ := Option.isSome_iff_exists.mp hfound
    exact ⟨r, hr, neverBuilt_cancelSend hs hr⟩
  · exact neverBuilt_of_removed hs hp ⟨_, rfl, filter_removes hp⟩
  · have hclears := (run_of_triple (logoutWallet_clears r.walletId s) rfl).1 () hok
    exact neverBuilt_of_removed hs hp ⟨_, hclears, filter_removes hp⟩

/-- Two sends are prepared; the first is confirmed and built. -/
def twoSends : List Action :=
  [.call (.restoreWallet .works .works .works 0 (List.replicate 24 "abandon") true),
    .call (.prepareSend .works 0 5), .call (.prepareSend .works 0 6),
    .call (.reauthWallet .works 0 .spend 0), .call (.confirmSend .works 5 0),
    .task 0 (.clock 1000), .task 0 (.proceed 1)]

theorem proposal_built_once_twoSends : ∃ s, (Reach walletSystem Free s ∧
    s.log.countP (TxEvent.builds 0) = 1 ∧ ((cancelSend 6).run s).1 = .ok true) ∧
    s.log.countP (TxEvent.builds 0) ≤ 1 ∧
      ∃ r, s.proposals 6 = some r ∧ NeverBuilt ((cancelSend 6).exec s) r.serial := by
  obtain ⟨s, hs, hbuilt, hstored⟩ := exec_reach (S := walletSystem) (G := Free)
    (p := fun s => s.log.countP (TxEvent.builds 0) = 1 ∧ (s.proposals 6).isSome = true)
    twoSends rfl (along_free _ _) (by decide +kernel)
  have hcancel : ((cancelSend 6).run s).1 = .ok true := congrArg Except.ok hstored
  have hall := proposal_built_once s hs
  exact ⟨s, ⟨hs, hbuilt, hcancel⟩, hall.1 0, hall.2.2.1 6 hcancel⟩

end ZbagWallet
