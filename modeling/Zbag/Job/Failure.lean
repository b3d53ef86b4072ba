import Zbag.Job.Cancel
import Zbag.Tx.Scripts

/-!
# Jobs — what a failed shielding has sent

Shielding prices, builds and broadcasts its batches one after the other, in `shield_funds` as in a
shield job. An error on the way returns at once, also when an earlier batch is already with a
server.

* `FailInv`: where a shield job stands whose errors all come before its first send.
-/

namespace ZbagJob

open ZbagTx Transition Script
open ZbagWallet (AccountId AppDb IpcError WalletId)

/-! ## Failing steps -/

def ClosurePc.fails : ClosurePc → ClosureAnswer → Bool
  | .shieldPrice batch _, .price metaError answers proposalError =>
    priceFails batch metaError answers proposalError
  | .shieldCreate _, .create (.error _) => true
  | .shieldLoad (_ :: _) _, .load (some _) => true
  | _, _ => false

def ClosurePc.unsent : ClosurePc → Bool
  | .idle | .shieldCheck | .shieldSetup | .shieldStart _ => true
  | .shieldBatch run | .shieldPrice _ run | .shieldProve run | .shieldCreate run
  | .shieldLoad _ run => run.primaryTxid.isNone
  | .returned (.failed e) => e ≠ "cancelled"
  | _ => false

def ClosurePc.named : ClosurePc → Bool
  | .shieldEmit _ _ run | .shieldSend _ _ run => run.primaryTxid.isSome
  | _ => true

def ClosurePc.halted : ClosurePc → Bool
  | .idle | .returned _ => true
  | _ => false

def TaskPc.starts : TaskPc → Bool
  | .check | .start | .openDb => true
  | _ => false

def JobProgress.isBlankFailure (p : JobProgress) : Bool :=
  p.state == .failed && p.txid.isNone

section moves

variable {t : JobType} {cancelled : Bool} {result : Option ClosureResult} {pc pc' : TaskPc}
  {answer : TaskAnswer} {cpc cpc' : ClosurePc} {canswer : ClosureAnswer} {e : Effect}

theorem ShieldLoop.withAnswer_primaryTxid (run : ShieldLoop) (answer : SendAnswer) :
    (run.withAnswer answer).primaryTxid = run.primaryTxid := by
  unfold ShieldLoop.withAnswer
  split <;> rfl

theorem ShieldLoop.result_unsent (run : ShieldLoop)
    (h : (ClosurePc.returned run.result).unsent = true) : run.primaryTxid.isNone = true := by
  unfold ShieldLoop.result at h
  split at h
  · rename_i hp
    rw [hp]
    rfl
  · cases h

theorem ClosureMove.unsent_of (h : ClosureMove cancelled cpc canswer cpc' e)
    (hs : cpc.ofShield = true) (hn : cpc.named = true) (hu : cpc'.unsent = true) :
    e.sends = [] ∧ (cpc.unsent = true ∨ cpc.fails canswer = true) := by
  cases h
  case loopEnd run _ => exact ⟨rfl, .inl (run.result_unsent hu)⟩
  case priceFailed hfails => exact ⟨rfl, .inr hfails⟩
  case shieldSend run txid txids answer queueOk =>
    have hsome : run.primaryTxid.isSome = true := hn
    have hnone : (run.withAnswer answer).primaryTxid.isNone = true := hu
    rw [ShieldLoop.withAnswer_primaryTxid, Option.isNone_iff_eq_none] at hnone
    rw [hnone] at hsome
    cases hsome
  all_goals
    first
    | exact ⟨rfl, .inl rfl⟩
    | exact ⟨rfl, .inl hu⟩
    | exact ⟨rfl, .inr rfl⟩
    | exact absurd hs (by decide)
    | exact absurd hu (by decide)
    | exact absurd hu Bool.false_ne_true

theorem ClosureMove.named_of (h : ClosureMove cancelled cpc canswer cpc' e)
    (hn : cpc.named = true) : cpc'.named = true := by
  cases h <;> first | rfl | exact hn

theorem ClosureMove.not_halted (h : ClosureMove cancelled cpc canswer cpc' e) :
    cpc.halted = false := by
  cases h <;> rfl

theorem ClosureMove.progress_of (h : ClosureMove cancelled cpc canswer cpc' e) {p : JobProgress}
    (hp : e.progress? = some p) : p.isBlankFailure = false := by
  cases h <;> cases hp <;> rfl

theorem TaskMove.starts_of (h : TaskMove t cancelled result pc answer pc' e)
    (hs : pc'.starts = true) : pc.starts = true ∧ e ≠ .spawn := by
  cases h <;> first | exact ⟨rfl, Effect.noConfusion⟩ | cases hs

theorem TaskMove.blankFailure_of (h : TaskMove t cancelled result pc answer pc' e)
    {p : JobProgress} (hp : e.progress? = some p) (hb : p.isBlankFailure = true) :
    pc' = .ended ∧ (pc.starts = true ∨ ∃ e, result = some (.failed e) ∧ e ≠ "cancelled") := by
  cases h
  case noDb => exact ⟨rfl, .inl rfl⟩
  case failed e hr =>
    refine ⟨rfl, .inr ⟨e, hr, fun hc => ?_⟩⟩
    rw [Effect.progress?, Option.some.injEq, if_pos hc] at hp
    subst hp
    cases hb
  all_goals cases hp <;> cases hb

end moves

/-! ## Runs -/

/-- Errors of the batch loop come while nothing is sent. -/
def FailsUnsent (j : Job) : Action → Prop
  | .closure answer => j.closure.fails answer = true → j.sent = []
  | _ => True

instance (j : Job) : ∀ a, Decidable (FailsUnsent j a)
  | .closure _ => inferInstanceAs (Decidable (_ → _))
  | .register | .cancel | .abort | .task _ => isTrue trivial

structure FailInv (j : Job) : Prop where
  kind : ShieldKind j
  starts : j.task.starts = true → j.closure = .idle
  named : j.closure.named = true
  unsent : j.closure.unsent = true → j.sent = []
  blank : j.progress.isBlankFailure = true →
    j.task = .ended ∧ j.closure.halted = true ∧ j.sent = []

theorem failInv_fresh : FailInv (Job.fresh .shield) where
  kind := shieldKind_fresh
  starts _ := rfl
  named := rfl
  unsent _ := rfl
  blank h := by cases h

theorem result?_eq_some {pc : ClosurePc} {result : ClosureResult} (h : pc.result? = some result) :
    pc = .returned result := by
  cases pc <;> cases h
  rfl

variable {j k : Job} {answer : ClosureAnswer}

theorem failInv_task {answer : TaskAnswer} (hj : FailInv j) (h : step j (.task answer) = some k) :
    FailInv k := by
  have hkind := shieldKind_step hj.kind h
  obtain ⟨pc, e, hmove, _, rfl⟩ := step_task h
  obtain ⟨_, hsends⟩ := hmove.ofShield (result?_of_ofShield hj.kind.closure) hj.kind.task
  have hsent : (({ j with task := pc } : Job).perform e).sent = j.sent := by simp [hsends]
  by_cases hspawn : e = .spawn
  · subst hspawn
    obtain ⟨hpc, rfl⟩ := hmove.spawn_of
    have hidle := hj.starts (by rw [hpc]; rfl)
    have hcl : (({ j with task := .await } : Job).perform .spawn).closure = .shieldCheck := by
      simp [Job.perform, hj.kind.jobType]
    refine ⟨hkind, fun hs => (by cases hs), by rw [hcl]; rfl, fun _ => ?_, fun hb => ?_⟩
    · rw [hsent]
      exact hj.unsent (by rw [hidle]; rfl)
    · have hended := (hj.blank hb).1
      rw [hpc] at hended
      cases hended
  · have hcl := Job.perform_closure { j with task := pc } e hspawn
    refine ⟨hkind, fun hs => ?_, by rw [hcl]; exact hj.named, fun hu => ?_, fun hb => ?_⟩
    · rw [Job.perform_task] at hs
      rw [hcl]
      exact hj.starts (hmove.starts_of hs).1
    · rw [hcl] at hu
      rw [hsent]
      exact hj.unsent hu
    · rw [Job.perform_task, hcl, hsent]
      rw [Job.perform_progress] at hb
      cases hp : e.progress? with
      | none =>
        -- a job that has failed before has no task left to move
        rw [hp] at hb
        have hended := (hj.blank hb).1
        rw [hended] at hmove
        cases hmove
      | some p =>
        rw [hp] at hb
        obtain ⟨hpc, hstarts | ⟨e', hr, hne⟩⟩ := hmove.blankFailure_of hp hb
        · have hidle := hj.starts hstarts
          exact ⟨hpc, by rw [hidle]; rfl, hj.unsent (by rw [hidle]; rfl)⟩
        · have hret := result?_eq_some hr
          have hunsent : j.closure.unsent = true := by
            rw [hret]
            simpa [ClosurePc.unsent] using hne
          exact ⟨hpc, by rw [hret]; rfl, hj.unsent hunsent⟩

theorem failInv_closure (hj : FailInv j) (hg : FailsUnsent j (.closure answer))
    (h : step j (.closure answer) = some k) :
    FailInv k := by
  have hkind := shieldKind_step hj.kind h
  obtain ⟨pc, e, hmove, rfl⟩ := step_closure h
  have hcl := Job.perform_closure { j with closure := pc } e hmove.ne_spawn
  have hrun := hmove.not_halted
  refine ⟨hkind, fun hs => ?_, by rw [hcl]; exact hmove.named_of hj.named, fun hu => ?_,
    fun hb => ?_⟩
  · rw [Job.perform_task] at hs
    rw [hj.starts hs] at hrun
    cases hrun
  · rw [hcl] at hu
    obtain ⟨hsends, hor⟩ := hmove.unsent_of hj.kind.closure hj.named hu
    rw [Job.perform_sent, hsends]
    rcases hor with hpc | hfails
    · exact hj.unsent hpc
    · exact hg hfails
  · rw [Job.perform_progress] at hb
    cases hp : e.progress? with
    | none =>
      rw [hp] at hb
      rw [(hj.blank hb).2.1] at hrun
      cases hrun
    | some p =>
      rw [hp, Option.getD_some, hmove.progress_of hp] at hb
      cases hb

theorem failInv_step {a : Action} (hj : FailInv j) (hg : FailsUnsent j a) (h : step j a = some k) :
    FailInv k := by
  have hkind := shieldKind_step hj.kind h
  cases step_move h with
  | register => exact ⟨hkind, hj.starts, hj.named, hj.unsent, hj.blank⟩
  | kept => exact hj
  | cancelled => exact ⟨hkind, hj.starts, hj.named, hj.unsent, nofun⟩
  | abort =>
    exact ⟨hkind, nofun, hj.named, hj.unsent, fun hb => ⟨rfl, (hj.blank hb).2⟩⟩
  | task answer h => exact failInv_task hj h
  | closure answer h => exact failInv_closure hj hg h

theorem failInv_of_reach (h : Reach (jobSystem .shield) FailsUnsent j) : FailInv j :=
  h.invariant (by rintro j rfl; exact failInv_fresh) fun _ _ _ hj hg hst => failInv_step hj hg hst

/-! ## An error after a send -/

theorem append_ne_cancelled {text : String} (h : 9 < text.length) (e : String) :
    text ++ e ≠ "cancelled" := by
  intro heq
  have hlen := congrArg String.length heq
  rw [String.length_append, show "cancelled".length = 9 from rfl] at hlen
  omega

theorem LoadError.text_ne_cancelled (e : LoadError) : e.text ≠ "cancelled" := by
  cases e with
  | read e => exact append_ne_cancelled (by decide) e
  | unavailable => decide
  | serialize e => exact append_ne_cancelled (by decide) e

theorem pricedNext_of_fails {batch : List OutPoint} (run : ShieldLoop)
    {answers : List StrategyAnswer} {proposalError : Option String} {priced : Priced}
    (hp : priceBatch batch answers = some priced)
    (h : priceFails batch none answers proposalError = true) :
    ∃ e, e ≠ "cancelled" ∧ pricedNext run proposalError priced = .returned (.failed e) := by
  simp only [priceFails, hp, Option.isSome_none, Bool.false_or] at h
  cases priced with
  | skip => cases h
  | insufficientFunds available required => exact ⟨_, by decide, rfl⟩
  | failed e => exact ⟨_, append_ne_cancelled (by decide) e, rfl⟩
  | inputs selection fee =>
    cases proposalError with
    | none => cases h
    | some e => exact ⟨_, append_ne_cancelled (by decide) e, rfl⟩

theorem closureNext_of_fails {pc : ClosurePc} (cancelled : Bool) (h : pc.fails answer = true) :
    ∃ e, e ≠ "cancelled" ∧
      closureNext cancelled pc answer = some (.returned (.failed e), .none) := by
  unfold ClosurePc.fails at h
  split at h
  · rename_i batch run metaError answers proposalError
    cases metaError with
    | some e => exact ⟨_, append_ne_cancelled (by decide) e, rfl⟩
    | none =>
      cases hp : priceBatch batch answers with
      | none => simp [priceFails, hp] at h
      | some priced =>
        obtain ⟨e, hne, heq⟩ := pricedNext_of_fails run hp h
        refine ⟨e, hne, ?_⟩
        rw [closureNext, hp, Option.map_some, heq]
  · exact ⟨_, append_ne_cancelled (by decide) _, rfl⟩
  · exact ⟨_, LoadError.text_ne_cancelled _, rfl⟩
  · cases h

theorem path_blankFailure (htask : j.task = .await) (hab : j.aborted = false)
    (hfails : j.closure.fails answer = true) :
    ∃ k, Path (jobSystem .shield) Free j k ∧ k.progress.isBlankFailure = true ∧
      k.sent = j.sent := by
  obtain ⟨e, hne, hnext⟩ := closureNext_of_fails j.cancelled hfails
  have hclosure : step j (.closure answer) = some { j with closure := .returned (.failed e) } := by
    rw [step, hnext]
    rfl
  have htaskStep : step { j with closure := .returned (.failed e) } (.task .go) =
      some (({ j with closure := .returned (.failed e), task := .ended } : Job).perform
        (.emit (.failed j.jobType e none))) := by
    simp [step, hab, htask, taskNext, ClosurePc.result?, hne]
  have hpath : Path (jobSystem .shield) Free j
      (({ j with closure := .returned (.failed e), task := .ended } : Job).perform
        (.emit (.failed j.jobType e none))) :=
    (Path.single (a := .closure answer) trivial hclosure).tail (a := .task .go) trivial htaskStep
  exact ⟨_, hpath, rfl, rfl⟩

/-- **A failed shielding has sent nothing**, in `shield_funds` exactly if no step fails after a
send, in a job if its errors all come before one; a later error ends the job in `Failed`
nevertheless. -/
theorem shield_error_sends_nothing (env : ShieldEnv) (w : WalletId) (a : AccountId) :
    ((∀ e, ((shieldFunds env w a).run .empty).1 = .error (.error e) →
        ((shieldFunds env w a).run .empty).2.sent = []) ↔
      FailsClean (shieldScript .sent env w a)) ∧
    (∀ j, Reach (jobSystem .shield) FailsUnsent j → j.progress.isBlankFailure = true →
      j.sent = []) ∧
    ∀ j answer, Reach (jobSystem .shield) Free j → j.task = .await → j.aborted = false →
      j.closure.fails answer = true → j.sent ≠ [] →
        ∃ k, Path (jobSystem .shield) Free j k ∧ k.progress.isBlankFailure = true ∧
          k.sent ≠ [] := by
  refine ⟨?_, fun j h hb => ((failInv_of_reach h).blank hb).2.2,
    fun j answer _ htask hab hfails hsent => ?_⟩
  · rw [← (shieldFunds_follows .sent env w a).error_clean_iff (s := .empty) (fun h => h rfl)]
    simp only [View.sent, ne_eq, not_not]
  · obtain ⟨k, hpath, hblank, heq⟩ := path_blankFailure htask hab hfails
    exact ⟨k, hpath, hblank, by rwa [heq]⟩

def backedUpDb : AppDb :=
  ⟨fun _ => some .software, fun _ => some false, fun _ _ => some .software⟩

def sentBatch (txid : TxId) : BatchEnv :=
  ⟨none, [.balance 10000], none, .ok (⟨⟨txid, none, .ok, none⟩, none⟩, [])⟩

def poorBatch : BatchEnv := ⟨none, [.insufficientFunds 5000 10000], none, .error ""⟩

/-- Two batches, of which the second does not cover its fee. -/
def secondBatchPoor : ShieldEnv :=
  ⟨none, backedUpDb, .ok (List.range 201), [sentBatch 7, poorBatch]⟩

def firstBatchPoor : ShieldEnv := ⟨none, backedUpDb, .ok (List.range 201), [poorBatch]⟩

def insufficientBalance : IpcError :=
  ⟨.insufficientFunds, "insufficient transparent balance to cover shielding fee"⟩

def firstBatchSent : List Action :=
  [Action.closure .go, .closure (.setup (.ok (List.range 201))), .closure .go, .closure .go] ++
    priceAndProve 7 ++ loadAndSend ++ [Action.closure .go, .closure .go]

def poorPrice : ClosureAnswer := .price none [.insufficientFunds 5000 10000] none

/-- Transaction 7 was sent before. -/
theorem shield_error_after_send :
    (((shieldFunds secondBatchPoor 1 0).run .empty).1 = .error (.error insufficientBalance) ∧
      ((shieldFunds secondBatchPoor 1 0).run .empty).2.sent = [7]) ∧
    ∃ j, Reach (jobSystem .shield) Free j ∧ j.progress.isBlankFailure = true ∧ j.sent = [7] :=
  ⟨by decide +kernel,
    exec_reach (started ++ firstBatchSent ++ [Action.closure poorPrice, .task .go]) rfl
      (along_free _ _) (by decide +kernel)⟩

theorem shield_error_sends_nothing_firstBatch :
    ((shieldFunds firstBatchPoor 1 0).run .empty).2.sent = [] ∧
    (∃ j, (Reach (jobSystem .shield) FailsUnsent j ∧ j.progress.isBlankFailure = true) ∧
      j.sent = []) ∧
    ∃ j, Reach (jobSystem .shield) Free j ∧
      ∃ k, Path (jobSystem .shield) Free j k ∧ k.progress.isBlankFailure = true ∧ k.sent ≠ [] := by
  refine ⟨?_, ?_, ?_⟩
  · exact (shield_error_sends_nothing firstBatchPoor 1 0).1.mpr (by decide +kernel)
      insufficientBalance (by decide +kernel)
  · obtain ⟨j, hj, hb⟩ := exec_reach (S := jobSystem .shield) (G := FailsUnsent)
      (p := fun j => j.progress.isBlankFailure = true)
      (started ++ toFirstPrice ++ [Action.closure poorPrice, .task .go]) rfl (by decide +kernel)
      (by decide +kernel)
    exact ⟨j, ⟨hj, hb⟩, (shield_error_sends_nothing firstBatchPoor 1 0).2.1 j hj hb⟩
  · obtain ⟨j, hj, htask, hab, hfails, hsent⟩ := exec_reach (S := jobSystem .shield) (G := Free)
      (p := fun j => j.task = .await ∧ j.aborted = false ∧ j.closure.fails poorPrice = true ∧
        j.sent ≠ [])
      (started ++ firstBatchSent) rfl (along_free _ _) (by decide +kernel)
    exact ⟨j, hj, (shield_error_sends_nothing firstBatchPoor 1 0).2.2 j poorPrice hj htask hab
      hfails hsent⟩

end ZbagJob
