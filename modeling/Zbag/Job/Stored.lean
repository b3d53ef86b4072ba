import Zbag.Job.Failure

/-!
# Jobs — what becomes of the stored transactions

A transaction that is stored in the wallet database locks its notes, so it must come to a server or
into the queue of broadcasts to retry. Until then it is pending somewhere in the job: with the
closure, handed over to the task, or with the task.
-/

namespace ZbagJob

open ZbagTx Transition

def Job.Settled (j : Job) (txid : TxId) : Prop := txid ∈ j.accepted ∨ txid ∈ j.queued

instance (j : Job) (txid : TxId) : Decidable (j.Settled txid) := inferInstanceAs (Decidable (_ ∨ _))

def Job.HasEnded (j : Job) : Prop := j.task = .ended ∧ j.closure.halted = true

instance (j : Job) : Decidable j.HasEnded := inferInstanceAs (Decidable (_ ∧ _))

/-! ## Pending transactions -/

def TaskPc.pending : TaskPc → List TxId
  | .emit primary others => primary :: others
  | .load _ left _ => left
  | .broadcast _ txid left _ => txid :: left
  | _ => []

def ClosurePc.pending : ClosurePc → List TxId
  | .sendRecheck primary others => primary :: others
  | .shieldLoad txids _ => txids
  | .shieldEmit txid txids _ | .shieldSend txid txids _ => txid :: txids
  | _ => []

/-- Returned by the closure and not yet taken by the task. -/
def Job.handover (j : Job) : List TxId :=
  match j.task, j.closure with
  | .await, .returned (.proved primary others) => primary :: others
  | _, _ => []

def Job.pending (j : Job) : List TxId := j.task.pending ++ j.closure.pending ++ j.handover

/-- It will build nothing if the flag is raised. -/
def ClosurePc.builtNothing : ClosurePc → Bool
  | .idle | .sendCheck | .returned (.failed _) => true
  | _ => false

def ClosurePc.isProved : ClosurePc → Bool
  | .returned (.proved ..) => true
  | _ => false

/-! ## Steps -/

def TaskAnswer.dbOk : TaskAnswer → Bool
  | .go => true
  | .openDb error => error.isNone
  | .load error => error.isNone
  | .broadcast _ queueOk => queueOk

def ClosureAnswer.dbOk : ClosureAnswer → Bool
  | .load error => error.isNone
  | .broadcast _ queueOk => queueOk
  | .go | .create _ | .setup _ | .price .. => true

def Action.dbOk : Action → Bool
  | .task answer => answer.dbOk
  | .closure answer => answer.dbOk
  | .register | .cancel | .abort => true

/-- A send job is only cancelled before it proves, or after an error. -/
def CancelsUnbuilt (j : Job) : Action → Prop
  | .cancel => j.jobType = .send → j.cancels = true → j.closure.builtNothing = true
  | _ => True

instance (j : Job) : ∀ a, Decidable (CancelsUnbuilt j a)
  | .cancel => inferInstanceAs (Decidable (_ → _))
  | .register | .abort | .task _ | .closure _ => isTrue trivial

section moves

variable {t : JobType} {cancelled : Bool} {result : Option ClosureResult} {pc pc' : TaskPc}
  {answer : TaskAnswer} {cpc cpc' : ClosurePc} {canswer : ClosureAnswer} {e : Effect} {txid : TxId}

def Effect.Settles (e : Effect) (txid : TxId) : Prop := ∃ answer, e = .broadcast txid answer true

theorem TaskMove.stores (h : TaskMove t cancelled result pc answer pc' e) : e.stores = [] := by
  cases h <;> rfl

theorem TaskMove.pending_of (h : TaskMove t cancelled result pc answer pc' e)
    (hdb : answer.dbOk = true) (hp : txid ∈ pc.pending) : txid ∈ pc'.pending ∨ e.Settles txid := by
  cases h
  case loadFailed => cases hdb
  case broadcast primary first left error sent queueOk =>
    have hq : queueOk = true := hdb
    subst hq
    rcases List.mem_cons.mp hp with rfl | hleft
    · exact .inr ⟨sent, rfl⟩
    · exact .inl hleft
  all_goals first | exact .inl hp | cases hp

theorem TaskMove.pending_ne_nil (h : TaskMove t cancelled result pc answer pc' e)
    (hp : pc'.pending ≠ []) :
    pc.pending ≠ [] ∨ ∃ primary others, result = some (.proved primary others) := by
  cases h
  case proved primary others hr => exact .inr ⟨primary, others, hr⟩
  case emit => exact .inl (List.cons_ne_nil _ _)
  case loaded => exact .inl hp
  case broadcast => exact .inl (List.cons_ne_nil _ _)
  all_goals exact absurd rfl hp

theorem ClosureMove.pending_of (h : ClosureMove cancelled cpc canswer cpc' e)
    (hdb : canswer.dbOk = true)
    (hc : ∀ primary others, cpc = .sendRecheck primary others → cancelled = false)
    (hp : txid ∈ e.stores ∨ txid ∈ cpc.pending) :
    txid ∈ cpc'.pending ∨ e.Settles txid ∨
      ∃ primary others, cpc = .sendRecheck primary others ∧
        cpc' = .returned (.proved primary others) ∧ txid ∈ primary :: others := by
  cases h
  case recheckCancelled primary others hcan =>
    rw [hc primary others rfl] at hcan
    cases hcan
  case proved primary others _ =>
    rcases hp with hp | hp
    · cases hp
    · exact .inr (.inr ⟨primary, others, rfl, rfl, hp⟩)
  case loadFailed => cases hdb
  case shieldSend run first txids sent queueOk =>
    have hq : queueOk = true := hdb
    subst hq
    rcases hp with hp | hp
    · cases hp
    · rcases List.mem_cons.mp hp with rfl | hleft
      · exact .inr (.inl ⟨sent, rfl⟩)
      · exact .inl hleft
  all_goals
    rcases hp with hp | hp
    all_goals first | exact .inl hp | cases hp

theorem ClosureMove.builtNothing_of (h : ClosureMove true cpc canswer cpc' e)
    (hb : cpc.builtNothing = true) : cpc'.builtNothing = true := by
  cases h <;> first | rfl | contradiction

theorem ClosureMove.proves_of (h : ClosureMove cancelled cpc canswer cpc' e)
    (hp : cpc'.proves = true) : cpc.proves = true := by
  cases h <;> first | rfl | cases hp

end moves

section settled

variable {txid : TxId}

theorem Job.Settled.perform {j : Job} (h : j.Settled txid) (e : Effect) :
    (j.perform e).Settled txid := by
  cases e with
  | broadcast t answer queueOk =>
    rcases h with h | h
    · left
      simp only [Job.perform, broadcastAndQueue]
      split_ifs <;> simp only [Outbox.queue, Outbox.send] <;> split_ifs <;> simp [h]
    · right
      simp only [Job.perform, broadcastAndQueue]
      split_ifs <;> simp [Outbox.queue, Outbox.send, h]
  | _ => exact h

theorem Effect.Settles.settled {e : Effect} (h : e.Settles txid) (j : Job) :
    (j.perform e).Settled txid := by
  obtain ⟨answer, rfl⟩ := h
  cases hf : (relay answer).isFailed with
  | false =>
    left
    simp [Job.perform, broadcastAndQueue, hf, Outbox.send, SendAnswer.taken_of_not_failed hf]
  | true =>
    right
    simp [Job.perform, broadcastAndQueue, hf, Outbox.queue]

end settled

/-! ## Runs -/

/-- Every stored transaction is settled or pending. -/
structure StoreInv (j : Job) : Prop where
  kind : SendInv j ∨ ShieldKind j
  stored : ∀ txid ∈ j.stored, j.Settled txid ∨ txid ∈ j.pending
  starts : j.task.starts = true → j.closure = .idle
  proved : j.task.pending ≠ [] → j.closure.isProved = true
  aborted : j.aborted = true → j.cancelled = true
  waits : j.closure.proves = true → j.cancelled = false → j.task = .await
  safe : j.jobType = .send → j.cancelled = true → j.closure.builtNothing = true

theorem storeInv_fresh (t : JobType) : StoreInv (Job.fresh t) where
  kind := by
    cases t with
    | send => exact .inl sendInv_fresh
    | shield => exact .inr shieldKind_fresh
  stored txid h := by cases h
  starts _ := rfl
  proved h := absurd rfl h
  aborted h := by cases h
  waits h := by cases h
  safe _ h := by cases h

variable {j k : Job} {a : Action} {txid primary : TxId} {others : List TxId} {pc : ClosurePc}

theorem kind_step (hj : SendInv j ∨ ShieldKind j) (h : step j a = some k) :
    SendInv k ∨ ShieldKind k :=
  hj.imp (sendInv_step · h) (shieldKind_step · h)

theorem Job.mem_handover (h : txid ∈ j.handover) :
    ∃ primary others, j.task = .await ∧ j.closure = .returned (.proved primary others) ∧
      txid ∈ primary :: others := by
  unfold Job.handover at h
  split at h
  · rename_i primary others htask hclosure
    exact ⟨primary, others, htask, hclosure, h⟩
  · cases h

theorem Job.handover_of (htask : j.task = .await)
    (hclosure : j.closure = .returned (.proved primary others)) :
    j.handover = primary :: others := by
  simp only [Job.handover, htask, hclosure]

theorem Job.mem_pending :
    txid ∈ j.pending ↔ txid ∈ j.task.pending ∨ txid ∈ j.closure.pending ∨ txid ∈ j.handover := by
  simp only [Job.pending, List.mem_append, or_assoc]

theorem StoreInv.not_proved (hj : StoreInv j) (hc : j.cancelled = true) :
    j.closure.isProved = false := by
  rcases hj.kind with hsend | hshield
  · have hsafe := hj.safe hsend.jobType hc
    cases hpc : j.closure with
    | returned result => cases result <;> simp_all [ClosurePc.builtNothing, ClosurePc.isProved]
    | _ => rfl
  · have hkind := hshield.closure
    cases hpc : j.closure with
    | returned result => cases result <;> simp_all [ClosurePc.ofShield, ClosurePc.isProved]
    | _ => rfl

theorem isProved_of_result? (h : pc.result? = some (.proved primary others)) :
    pc.isProved = true := by
  rw [result?_eq_some h]
  rfl

theorem halted_of_isProved (h : pc.isProved = true) : pc.halted = true := by
  cases pc <;> first | rfl | cases h

section moves

variable {t : JobType} {cancelled : Bool} {pc' : TaskPc} {answer : TaskAnswer} {e : Effect}

theorem TaskMove.takes {primary : TxId} {others : List TxId}
    (h : TaskMove t cancelled (some (.proved primary others)) .await answer pc' e) :
    pc' = .emit primary others := by
  cases h with
  | failed e hr => cases hr
  | proved p o hr =>
    cases hr
    rfl
  | shielded p e hr => cases hr

theorem TaskMove.not_waiting (h : TaskMove t cancelled none .await answer pc' e) : False := by
  cases h <;> contradiction

end moves

theorem storeInv_spawn (hj : StoreInv j) (htask : j.task = .openDb)
    (hkind : SendInv (({ j with task := .await } : Job).perform .spawn) ∨
      ShieldKind (({ j with task := .await } : Job).perform .spawn)) :
    StoreInv (({ j with task := .await } : Job).perform .spawn) := by
  have hidle := hj.starts (by rw [htask]; rfl)
  refine ⟨hkind, fun txid hs => ?_, nofun, fun hp => absurd rfl hp, hj.aborted,
    fun _ _ => rfl, fun hsend _ => ?_⟩
  · rcases hj.stored txid hs with hset | hp
    · exact .inl hset
    · simp [Job.mem_pending, Job.handover, htask, hidle, TaskPc.pending, ClosurePc.pending] at hp
  · have hsend' : j.jobType = .send := hsend
    simp [Job.perform, hsend', ClosurePc.builtNothing]

theorem storeInv_task {answer : TaskAnswer} (hj : StoreInv j) (hdb : answer.dbOk = true)
    (h : step j (.task answer) = some k) : StoreInv k := by
  have hkind := kind_step hj.kind h
  obtain ⟨pc, e, hmove, _, rfl⟩ := step_task h
  by_cases hspawn : e = .spawn
  · subst hspawn
    obtain ⟨htask, rfl⟩ := hmove.spawn_of
    exact storeInv_spawn hj htask hkind
  have hcl := Job.perform_closure { j with task := pc } e hspawn
  refine ⟨hkind, fun txid hs => ?_, fun hs => ?_, fun hp => ?_, by simpa using hj.aborted,
    fun hp hc => ?_, fun hsend hc => ?_⟩
  · rw [Job.perform_stored, hmove.stores, List.nil_append] at hs
    rw [Job.mem_pending, Job.perform_task, hcl]
    rcases hj.stored txid hs with hset | hp
    · exact .inl (Job.Settled.perform (j := { j with task := pc }) hset e)
    · rcases Job.mem_pending.mp hp with htask | hclosure | hhand
      · rcases hmove.pending_of hdb htask with hpc | hsettles
        · exact .inr (.inl hpc)
        · exact .inl (hsettles.settled _)
      · exact .inr (.inr (.inl hclosure))
      · -- the task takes what the closure has returned
        obtain ⟨primary, others, htask, hret, hmem⟩ := Job.mem_handover hhand
        rw [htask, hret] at hmove
        rw [TaskMove.takes hmove]
        exact .inr (.inl hmem)
  · rw [Job.perform_task] at hs
    rw [hcl]
    exact hj.starts (hmove.starts_of hs).1
  · rw [Job.perform_task] at hp
    rw [hcl]
    rcases hmove.pending_ne_nil hp with hp' | ⟨primary, others, hr⟩
    · exact hj.proved hp'
    · exact isProved_of_result? hr
  · rw [hcl] at hp
    rw [Job.perform_cancelled] at hc
    rw [hj.waits hp hc, result?_of_proves hp] at hmove
    exact (TaskMove.not_waiting hmove).elim
  · rw [hcl]
    exact hj.safe (by simpa using hsend) (by simpa using hc)

theorem storeInv_closure {answer : ClosureAnswer} (hj : StoreInv j) (hdb : answer.dbOk = true)
    (h : step j (.closure answer) = some k) : StoreInv k := by
  have hkind := kind_step hj.kind h
  obtain ⟨pc, e, hmove, rfl⟩ := step_closure h
  have hcl := Job.perform_closure { j with closure := pc } e hmove.ne_spawn
  have hrun := hmove.not_halted
  have hcheck : ∀ primary others,
      j.closure = .sendRecheck primary others → j.cancelled = false := by
    intro primary others hpc
    by_contra hc
    rw [Bool.not_eq_false] at hc
    rcases hj.kind with hsend | hshield
    · have hsafe := hj.safe hsend.jobType hc
      rw [hpc] at hsafe
      cases hsafe
    · have hof := hshield.closure
      rw [hpc] at hof
      cases hof
  refine ⟨hkind, fun txid hs => ?_, fun hs => ?_, fun hp => ?_, by simpa using hj.aborted,
    fun hp hc => ?_, fun hsend hc => ?_⟩
  · have hkeep : txid ∈ e.stores ∨ txid ∈ j.closure.pending →
        (({ j with closure := pc } : Job).perform e).Settled txid ∨
          txid ∈ (({ j with closure := pc } : Job).perform e).pending := by
      intro hp
      rw [Job.mem_pending, hcl]
      rcases hmove.pending_of hdb hcheck hp with hpc | hset | ⟨primary, others, hpc, hpc', hmem⟩
      · exact .inr (.inr (.inl hpc))
      · exact .inl (hset.settled _)
      · -- the task is waiting for it
        have htask := hj.waits (by rw [hpc]; rfl) (hcheck primary others hpc)
        refine .inr (.inr (.inr ?_))
        rw [Job.handover_of (by simpa using htask) (hcl.trans hpc')]
        exact hmem
    rw [Job.perform_stored, List.mem_append] at hs
    rcases hs with hs | hs
    · exact hkeep (.inl hs)
    · rcases hj.stored txid hs with hset | hp
      · exact .inl (Job.Settled.perform (j := { j with closure := pc }) hset e)
      · rcases Job.mem_pending.mp hp with htask | hclosure | hhand
        · exact .inr (Job.mem_pending.mpr (.inl (by simpa using htask)))
        · exact hkeep (.inr hclosure)
        · obtain ⟨_, _, _, hret, _⟩ := Job.mem_handover hhand
          rw [hret] at hrun
          cases hrun
  · rw [Job.perform_task] at hs
    rw [hj.starts hs] at hrun
    cases hrun
  · rw [Job.perform_task] at hp
    rw [halted_of_isProved (hj.proved hp)] at hrun
    cases hrun
  · rw [hcl] at hp
    rw [Job.perform_task]
    exact hj.waits (hmove.proves_of hp) (by simpa using hc)
  · have hc' : j.cancelled = true := by simpa using hc
    rw [hcl]
    rw [hc'] at hmove
    exact hmove.builtNothing_of (hj.safe (by simpa using hsend) hc')

theorem storeInv_abort (hj : StoreInv j) (hab : j.aborted = true)
    (hkind : SendInv { j with task := .ended } ∨ ShieldKind { j with task := .ended }) :
    StoreInv { j with task := .ended } := by
  have hnot := hj.not_proved (hj.aborted hab)
  refine ⟨hkind, fun txid hs => ?_, nofun, fun hp => absurd rfl hp, hj.aborted,
    fun hp hc => ?_, hj.safe⟩
  · rcases hj.stored txid hs with hset | hp
    · exact .inl hset
    · rcases Job.mem_pending.mp hp with htask | hclosure | hhand
      · rw [hj.proved (List.ne_nil_of_mem htask)] at hnot
        cases hnot
      · exact .inr (Job.mem_pending.mpr (.inr (.inl hclosure)))
      · obtain ⟨_, _, _, hret, _⟩ := Job.mem_handover hhand
        rw [hret] at hnot
        cases hnot
  · have hc' : j.cancelled = false := hc
    rw [hj.aborted hab] at hc'
    cases hc'

def KeepsStored (j : Job) (a : Action) : Prop := a.dbOk = true ∧ CancelsUnbuilt j a

instance (j : Job) (a : Action) : Decidable (KeepsStored j a) := inferInstanceAs (Decidable (_ ∧ _))

theorem storeInv_step (hj : StoreInv j) (hg : KeepsStored j a) (h : step j a = some k) :
    StoreInv k := by
  have hkind := kind_step hj.kind h
  cases step_move h with
  | register => exact ⟨hkind, hj.stored, hj.starts, hj.proved, hj.aborted, hj.waits, hj.safe⟩
  | kept => exact hj
  | cancelled hcan =>
    exact ⟨hkind, hj.stored, hj.starts, hj.proved, fun _ => rfl, nofun,
      fun hsend _ => hg.2 hsend hcan⟩
  | abort hab => exact storeInv_abort hj hab hkind
  | task answer h => exact storeInv_task hj hg.1 h
  | closure answer h => exact storeInv_closure hj hg.1 h

theorem storeInv_of_reach {t : JobType} (h : Reach (jobSystem t) KeepsStored j) : StoreInv j :=
  h.invariant (by rintro j rfl; exact storeInv_fresh t)
    fun _ _ _ hj hg hst => storeInv_step hj hg hst

theorem Job.HasEnded.pending (h : j.HasEnded) : j.pending = [] := by
  obtain ⟨htask, hclosure⟩ := h
  have hpc : j.closure.pending = [] := by
    cases hc : j.closure <;> first | rfl | (rw [hc] at hclosure; cases hclosure)
  simp [Job.pending, Job.handover, htask, hpc, TaskPc.pending]

/-! ## A cancellation that loses a transaction -/

structure SendPlace (j : Job) : Prop where
  inv : SendInv j
  starts : j.task.starts = true → j.closure = .idle
  registered : j.registered = true → j.starting = false
  aborted : j.aborted = true → j.registered = false ∧ j.starting = false
  waits : j.closure.proves = true → j.aborted = false → j.task = .await
  ended : j.task = .ended → j.aborted = false →
    j.progress.state.isTerminal = true ∧ j.closure.halted = true
  recheck : ∀ primary others, j.closure = .sendRecheck primary others → primary ∈ j.stored
  proved : ∀ primary others, j.closure = .returned (.proved primary others) → primary ∈ j.stored
  early : j.task.early = true → j.accepted = [] ∧ j.queued = []

theorem sendPlace_fresh : SendPlace (Job.fresh .send) where
  inv := sendInv_fresh
  starts _ := rfl
  registered h := by cases h
  aborted h := by cases h
  waits h := by cases h
  ended h := by cases h
  recheck _ _ h := by cases h
  proved _ _ h := by cases h
  early _ := ⟨rfl, rfl⟩

theorem halted_of_not_proves (h : pc.ofSend = true) (hp : pc.proves = false) :
    pc.halted = true := by
  cases pc <;> first | rfl | contradiction

def Effect.isBroadcast : Effect → Bool
  | .broadcast .. => true
  | .none | .progress _ | .emit _ | .spawn | .store _ => false

theorem Job.perform_settled {e : Effect} (h : e.isBroadcast = false) :
    (j.perform e).accepted = j.accepted ∧ (j.perform e).queued = j.queued := by
  cases e <;> first | exact ⟨rfl, rfl⟩ | cases h

section moves

variable {t : JobType} {cancelled : Bool} {result : Option ClosureResult} {pc pc' : TaskPc}
  {answer : TaskAnswer} {cpc cpc' : ClosurePc} {canswer : ClosureAnswer} {e : Effect}

theorem TaskMove.ended_of (h : TaskMove t cancelled result pc answer .ended e) :
    (∃ p, e.progress? = some p ∧ p.state.isTerminal = true) ∧
      (pc.starts = true ∨ result ≠ none ∨ pc.late = true) := by
  cases h
  case failed e hr =>
    refine ⟨⟨_, rfl, ?_⟩, .inr (.inl (by simp [hr]))⟩
    split_ifs <;> rfl
  case cancelled | noDb => exact ⟨⟨_, rfl, rfl⟩, .inl rfl⟩
  case finishFailed | completed => exact ⟨⟨_, rfl, rfl⟩, .inr (.inr rfl)⟩

theorem TaskMove.quiet_of_early (h : TaskMove t cancelled result pc answer pc' e)
    (he : pc.early = true) : e.isBroadcast = false := by
  cases h <;> first | rfl | cases he

theorem ClosureMove.quiet_of_send (h : ClosureMove cancelled cpc canswer cpc' e)
    (hs : cpc.ofSend = true) : e.isBroadcast = false := by
  cases h <;> first | rfl | cases hs

theorem ClosureMove.recheck_of
    (h : ClosureMove cancelled cpc canswer (.sendRecheck primary others) e) :
    primary ∈ e.stores := by
  cases h
  exact List.mem_cons_self

theorem ClosureMove.proved_of (h : ClosureMove cancelled cpc canswer cpc' e)
    (hp : cpc' = .returned (.proved primary others)) : cpc = .sendRecheck primary others := by
  cases h
  case proved =>
    cases hp
    rfl
  case loopEnd run _ =>
    have hres := run.result_ofShield
    rw [hp] at hres
    cases hres
  all_goals cases hp

end moves

theorem SendPlace.aborted_perform (hj : SendPlace j) (ha : j.aborted = true) (k : Job)
    (hr : k.registered = j.registered) (hs : k.starting = j.starting) (e : Effect) :
    (k.perform e).registered = false ∧ (k.perform e).starting = false := by
  obtain ⟨hreg, hstart⟩ := hj.aborted ha
  refine ⟨?_, by rw [Job.perform_starting, hs, hstart]⟩
  by_contra hr'
  have := Job.registered_of_perform k e (by simpa using hr')
  rw [hr, hreg] at this
  cases this

theorem sendPlace_task {answer : TaskAnswer} (hj : SendPlace j)
    (h : step j (.task answer) = some k) : SendPlace k := by
  have hinv := sendInv_step hj.inv h
  obtain ⟨pc, e, hmove, _, rfl⟩ := step_task h
  have hearly : pc.early = true → (({ j with task := pc } : Job).perform e).accepted = [] ∧
      (({ j with task := pc } : Job).perform e).queued = [] := fun he => by
    have he' := hmove.early_of he
    obtain ⟨hacc, hqueue⟩ := Job.perform_settled (j := { j with task := pc })
      (hmove.quiet_of_early he')
    rw [hacc, hqueue]
    exact hj.early he'
  have hreg : (({ j with task := pc } : Job).perform e).registered = true →
      (({ j with task := pc } : Job).perform e).starting = false := fun hr => by
    rw [Job.perform_starting]
    exact hj.registered (Job.registered_of_perform { j with task := pc } e hr)
  have hab : (({ j with task := pc } : Job).perform e).aborted = true →
      (({ j with task := pc } : Job).perform e).registered = false ∧
        (({ j with task := pc } : Job).perform e).starting = false := fun ha =>
    hj.aborted_perform (by simpa using ha) { j with task := pc } rfl rfl e
  by_cases hspawn : e = .spawn
  · subst hspawn
    obtain ⟨_, rfl⟩ := hmove.spawn_of
    have hcl : (({ j with task := .await } : Job).perform .spawn).closure = .sendCheck := by
      simp [Job.perform, hj.inv.jobType]
    exact ⟨hinv, fun hs => (by cases hs), hreg, hab, fun _ _ => rfl, fun hend => (by cases hend),
      fun _ _ hpc => (by rw [hcl] at hpc; cases hpc),
      fun _ _ hpc => (by rw [hcl] at hpc; cases hpc), hearly⟩
  have hcl := Job.perform_closure { j with task := pc } e hspawn
  refine ⟨hinv, fun hs => ?_, hreg, hab, fun hp ha => ?_, fun hend ha => ?_,
    fun primary others hpc => ?_, fun primary others hpc => ?_,
    fun he => hearly (by simpa using he)⟩
  · rw [Job.perform_task] at hs
    rw [hcl]
    exact hj.starts (hmove.starts_of hs).1
  · rw [hcl] at hp
    rw [hj.waits hp (by simpa using ha), result?_of_proves hp] at hmove
    exact (TaskMove.not_waiting hmove).elim
  · rw [Job.perform_task] at hend
    subst hend
    obtain ⟨⟨p, hp, hterm⟩, hor⟩ := hmove.ended_of
    refine ⟨by rw [Job.perform_progress, hp]; exact hterm, ?_⟩
    rw [hcl]
    rcases hor with hs | hr | hl
    · rw [hj.starts hs]
      rfl
    · cases hres : j.closure.result? with
      | none => exact absurd hres hr
      | some result =>
        rw [result?_eq_some hres]
        rfl
    · -- the task only takes the transactions when the closure has returned
      refine halted_of_not_proves hj.inv.closure ?_
      by_contra hp
      rw [Bool.not_eq_false] at hp
      rw [(hj.inv.proves hp).2] at hl
      cases hl
  · rw [hcl] at hpc
    rw [Job.perform_stored, hmove.stores]
    exact hj.recheck primary others hpc
  · rw [hcl] at hpc
    rw [Job.perform_stored, hmove.stores]
    exact hj.proved primary others hpc

theorem sendPlace_closure {answer : ClosureAnswer} (hj : SendPlace j)
    (h : step j (.closure answer) = some k) : SendPlace k := by
  have hinv := sendInv_step hj.inv h
  obtain ⟨pc, e, hmove, rfl⟩ := step_closure h
  have hcl := Job.perform_closure { j with closure := pc } e hmove.ne_spawn
  have hrun := hmove.not_halted
  have hquiet := Job.perform_settled (j := { j with closure := pc })
    (hmove.quiet_of_send hj.inv.closure)
  refine ⟨hinv, fun hs => ?_, fun hr => ?_, fun ha => ?_, fun _ ha => ?_, fun hend ha => ?_,
    fun primary others hpc => ?_, fun primary others hpc => ?_, fun he => ?_⟩
  · rw [Job.perform_task] at hs
    rw [hj.starts hs] at hrun
    cases hrun
  · rw [Job.perform_starting]
    exact hj.registered (Job.registered_of_perform { j with closure := pc } e hr)
  · exact hj.aborted_perform (by simpa using ha) { j with closure := pc } rfl rfl e
  · rw [Job.perform_task]
    exact hj.waits (hmove.ofSend hj.inv.closure).2.2 (by simpa using ha)
  · rw [Job.perform_task] at hend
    rw [(hj.ended hend (by simpa using ha)).2] at hrun
    cases hrun
  · rw [hcl] at hpc
    subst hpc
    rw [Job.perform_stored]
    exact List.mem_append_left _ hmove.recheck_of
  · rw [hcl] at hpc
    rw [Job.perform_stored]
    exact List.mem_append_right _ (hj.recheck primary others (hmove.proved_of hpc))
  · rw [Job.perform_task] at he
    rw [hquiet.1, hquiet.2]
    exact hj.early he

theorem sendPlace_step (hj : SendPlace j) (h : step j a = some k) : SendPlace k := by
  have hinv := sendInv_step hj.inv h
  cases step_move h with
  | register hs =>
    refine ⟨hinv, hj.starts, fun _ => rfl, fun ha => ?_, hj.waits, hj.ended, hj.recheck, hj.proved,
      hj.early⟩
    rw [(hj.aborted ha).2] at hs
    cases hs
  | kept => exact hj
  | cancelled hcan =>
    have hs : j.starting = false := by
      simp only [Job.cancels, Bool.and_eq_true] at hcan
      exact hj.registered hcan.2
    exact ⟨hinv, hj.starts, fun _ => hs, fun _ => ⟨rfl, hs⟩, fun _ ha => (by cases ha),
      fun _ ha => (by cases ha), hj.recheck, hj.proved, hj.early⟩
  | abort hab =>
    exact ⟨hinv, fun hs => (by cases hs), hj.registered, hj.aborted,
      fun _ ha => absurd (ha.symm.trans hab) Bool.false_ne_true,
      fun _ ha => absurd (ha.symm.trans hab) Bool.false_ne_true, hj.recheck, hj.proved,
      fun he => (by cases he)⟩
  | task answer h => exact sendPlace_task hj h
  | closure answer h => exact sendPlace_closure hj h

theorem sendPlace_of_reach {G : Job → Action → Prop} (h : Reach (jobSystem .send) G j) :
    SendPlace j :=
  h.invariant (by rintro j rfl; exact sendPlace_fresh) fun _ _ _ hj _ hst => sendPlace_step hj hst

/-- The job ends in some run with a stored transaction that is nowhere. -/
def CanLose (j : Job) : Prop :=
  ∃ k, Path (jobSystem .send) (fun _ a => a.dbOk = true) j k ∧ k.HasEnded ∧
    ∃ txid ∈ k.stored, ¬ k.Settled txid

theorem CanLose.of_step (a : Action) (hdb : a.dbOk = true) (h : step j a = some k)
    (hk : CanLose k) : CanLose j := by
  obtain ⟨l, hpath, hl⟩ := hk
  exact ⟨l, (Path.single (a := a) hdb h).trans hpath, hl⟩

theorem not_settled_of_nil (h : j.accepted = [] ∧ j.queued = []) (txid : TxId) :
    ¬ j.Settled txid := by
  simp [Job.Settled, h.1, h.2]

theorem canLose_abort (hab : j.aborted = true) (hat : j.task.atAwait = true)
    (hclosure : j.closure.halted = true) (hst : txid ∈ j.stored)
    (hnil : j.accepted = [] ∧ j.queued = []) : CanLose j := by
  refine .of_step (k := { j with task := .ended }) .abort rfl (by simp [step, hab, hat])
    ⟨_, .refl, ⟨rfl, hclosure⟩, txid, hst, not_settled_of_nil hnil txid⟩

theorem canLose_recheck (hpc : j.closure = .sendRecheck primary others) (hc : j.cancelled = true)
    (hab : j.aborted = true) (htask : j.task = .await) (hst : primary ∈ j.stored)
    (hnil : j.accepted = [] ∧ j.queued = []) : CanLose j := by
  refine .of_step (k := { j with closure := .returned .cancelled }) (.closure .go) rfl ?_
    (canLose_abort hab (by rw [htask]; rfl) rfl hst hnil)
  simp [step, hpc, closureNext, hc, Job.perform]

theorem canLose_create (hpc : j.closure = .sendCreate) (hc : j.cancelled = true)
    (hab : j.aborted = true) (htask : j.task = .await) (hnil : j.accepted = [] ∧ j.queued = []) :
    CanLose j := by
  refine .of_step (k := ({ j with closure := .sendRecheck 0 [] } : Job).perform (.store [0]))
    (.closure (.create (.ok (0, [])))) rfl ?_
    (canLose_recheck rfl hc hab htask List.mem_cons_self hnil)
  simp [step, hpc, closureNext]

theorem canLose_prove (hpc : j.closure = .sendProve) (hc : j.cancelled = true)
    (hab : j.aborted = true) (htask : j.task = .await) (hnil : j.accepted = [] ∧ j.queued = []) :
    CanLose j := by
  refine .of_step (k := ({ j with closure := .sendCreate } : Job).perform
    (.progress (.proving .send (some 50)))) (.closure .go) rfl ?_
    (canLose_create rfl hc hab htask hnil)
  simp [step, hpc, closureNext]

theorem canLose_emit (htask : j.task = .emit primary others) (hab : j.aborted = true)
    (hclosure : j.closure.halted = true) (hst : txid ∈ j.stored)
    (hnil : j.accepted = [] ∧ j.queued = []) : CanLose j := by
  refine .of_step (k := ({ j with task := .load primary (primary :: others) none } : Job).perform
    (.emit (.broadcasting j.jobType primary))) (.task .go) rfl ?_ ?_
  · simp [step, htask, TaskPc.suspended, taskNext]
  · refine .of_step (.task (.load none)) rfl ?_ (canLose_abort (j :=
      { (({ j with task := .load primary (primary :: others) none } : Job).perform
        (.emit (.broadcasting j.jobType primary))) with
          task := .broadcast primary primary others none }) hab rfl hclosure hst hnil)
    simp [step, Job.perform, TaskPc.suspended, taskNext]

/-- **A send job that is cancelled once it proves can lose a transaction.** -/
theorem canLose_of_cancels (hj : SendPlace j) (hcan : j.cancels = true)
    (hb : j.closure.builtNothing = false) : CanLose j.cancelEntry := by
  simp only [Job.cancels, Bool.and_eq_true, Bool.not_eq_true'] at hcan
  obtain ⟨⟨hterm, hcc⟩, hreg⟩ := hcan
  have hab : j.aborted = false := by
    by_contra ha
    rw [Bool.not_eq_false] at ha
    rw [(hj.aborted ha).1] at hreg
    cases hreg
  have hlive : j.task ≠ .ended := fun h => by
    rw [(hj.ended h hab).1] at hterm
    cases hterm
  have hloud : j.task.loud = false := by
    by_contra hl
    rw [Bool.not_eq_false] at hl
    rw [hj.inv.loud hl] at hcc
    cases hcc
  have hearly : j.task.early = true := by
    cases htask : j.task <;> simp_all [TaskPc.loud, TaskPc.early]
  have hnil := hj.early hearly
  cases hpc : j.closure with
  | sendProve => exact canLose_prove hpc rfl rfl (hj.waits (by rw [hpc]; rfl) hab) hnil
  | sendCreate => exact canLose_create hpc rfl rfl (hj.waits (by rw [hpc]; rfl) hab) hnil
  | sendRecheck primary others =>
    exact canLose_recheck hpc rfl rfl (hj.waits (by rw [hpc]; rfl) hab)
      (hj.recheck primary others hpc) hnil
  | returned result =>
    cases result with
    | failed e => simp [hpc, ClosurePc.builtNothing] at hb
    | shielded primary error =>
      have hof := hj.inv.closure
      rw [hpc] at hof
      cases hof
    | proved primary others =>
      have hst := hj.proved primary others hpc
      have hhalt : j.closure.halted = true := by rw [hpc]; rfl
      cases htask : j.task with
      | await => exact canLose_abort (j := j.cancelEntry) rfl (by simp [Job.cancelEntry, htask,
          TaskPc.atAwait]) hhalt hst hnil
      | emit primary' others' => exact canLose_emit (j := j.cancelEntry) htask rfl hhalt hst hnil
      | check | start | openDb =>
        have hidle := hj.starts (by rw [htask]; rfl)
        rw [hpc] at hidle
        cases hidle
      | load | broadcast | finish | ended => simp [htask, TaskPc.early] at hearly
  | idle | sendCheck => simp [hpc, ClosurePc.builtNothing] at hb
  | _ =>
    have hof := hj.inv.closure
    rw [hpc] at hof
    cases hof

/-- **The stored transactions of a job that has ended are settled** if a send job is only cancelled
before it proves or after an error. One that is cancelled later can lose a transaction. -/
theorem stored_transactions_settled (j : Job) :
    (∀ t, Reach (jobSystem t) KeepsStored j → j.HasEnded → ∀ txid ∈ j.stored, j.Settled txid) ∧
    (Reach (jobSystem .send) Free j → j.cancels = true → j.closure.builtNothing = false →
      CanLose (cancelJob j).2) := by
  refine ⟨fun t h hend txid hs => ?_, fun h hcan hb => ?_⟩
  · rcases (storeInv_of_reach h).stored txid hs with hset | hp
    · exact hset
    · rw [hend.pending] at hp
      cases hp
  · rw [cancelJob_of_cancels hcan]
    exact canLose_of_cancels (sendPlace_of_reach h) hcan hb

/-- It is cancelled while its transaction is built. -/
theorem cancelled_send_job_loses : ∃ j, Reach (jobSystem .send) (fun _ a => a.dbOk = true) j ∧
    j.HasEnded ∧ j.stored = [7] ∧ j.accepted = [] ∧ j.queued = [] :=
  exec_reach (started ++ [Action.closure .go, .closure .go, .cancel,
    .closure (.create (.ok (7, []))), .closure .go, .abort]) rfl (by decide +kernel)
    (by decide +kernel)

theorem stored_transactions_settled_runs :
    (∃ j, (Reach (jobSystem .send) KeepsStored j ∧ j.HasEnded ∧ j.stored = [7]) ∧ j.Settled 7) ∧
    (∃ j, (Reach (jobSystem .shield) KeepsStored j ∧ j.HasEnded ∧ j.stored = [7]) ∧ j.Settled 7) ∧
    ∃ j, Reach (jobSystem .send) Free j ∧ CanLose (cancelJob j).2 := by
  refine ⟨?_, ?_, ?_⟩
  · obtain ⟨j, hj, hend, hst⟩ := exec_reach (S := jobSystem .send) (G := KeepsStored)
      (p := fun j => j.HasEnded ∧ j.stored = [7])
      (started ++ [Action.closure .go, .closure .go, .closure (.create (.ok (7, []))), .closure .go,
        .task .go, .task .go, .task (.load none),
        .task (.broadcast (.error "connection refused" .unsent) true), .task .go, .task .go])
      rfl (by decide +kernel) (by decide +kernel)
    exact ⟨j, ⟨hj, hend, hst⟩,
      (stored_transactions_settled j).1 .send hj hend 7 (by rw [hst]; exact List.mem_cons_self)⟩
  · obtain ⟨j, hj, hend, hst⟩ := exec_reach (S := jobSystem .shield) (G := KeepsStored)
      (p := fun j => j.HasEnded ∧ j.stored = [7])
      (started ++ toFirstPrice ++ [Action.closure (.price none [.balance 10000] none), .closure .go,
        .cancel, .abort, .closure (.create (.ok (7, [])))] ++ loadAndSend ++
        [Action.closure .go, .closure .go]) rfl (by decide +kernel) (by decide +kernel)
    exact ⟨j, ⟨hj, hend, hst⟩,
      (stored_transactions_settled j).1 .shield hj hend 7 (by rw [hst]; exact List.mem_cons_self)⟩
  · obtain ⟨j, hj, hcan, hb⟩ := exec_reach (S := jobSystem .send) (G := Free)
      (p := fun j => j.cancels = true ∧ j.closure.builtNothing = false)
      (started ++ [Action.closure .go, .closure .go]) rfl (along_free _ _) (by decide +kernel)
    exact ⟨j, hj, (stored_transactions_settled j).2 hj hcan hb⟩

end ZbagJob
