import Zbag.Job.Moves

/-!
# Jobs — what a cancelled job sends

`cancel_job` takes an unfinished job out of the registry when its progress says that it can be
cancelled, raises the flag and aborts the task. The flag is read by the closure at a few points
only, and an abort stops the task but not the closure.
-/

namespace ZbagJob

open ZbagTx Transition

/-! ## Send jobs -/

def TaskPc.early : TaskPc → Bool
  | .check | .start | .openDb | .await | .emit .. => true
  | .load .. | .broadcast .. | .finish .. | .ended => false

def TaskPc.late : TaskPc → Bool
  | .emit .. | .load .. | .broadcast .. | .finish .. => true
  | .check | .start | .openDb | .await | .ended => false

def TaskPc.loud : TaskPc → Bool
  | .load .. | .broadcast .. | .finish .. => true
  | .check | .start | .openDb | .await | .emit .. | .ended => false

def ClosurePc.ofSend : ClosurePc → Bool
  | .idle | .sendCheck | .sendProve | .sendCreate | .sendRecheck .. => true
  | .returned (.failed _) | .returned (.proved ..) => true
  | _ => false

def ClosurePc.proves : ClosurePc → Bool
  | .sendCheck | .sendProve | .sendCreate | .sendRecheck .. => true
  | _ => false

section moves

variable {t : JobType} {cancelled : Bool} {result : Option ClosureResult} {pc pc' : TaskPc}
  {answer : TaskAnswer} {cpc cpc' : ClosurePc} {canswer : ClosureAnswer} {e : Effect}

theorem TaskMove.early_of (h : TaskMove t cancelled result pc answer pc' e)
    (he : pc'.early = true) : pc.early = true := by
  cases h <;> first | rfl | cases he

theorem TaskMove.late_of (h : TaskMove t cancelled result pc answer pc' e)
    (hl : pc'.late = true) : pc.late = true ∨ result ≠ none := by
  cases h
  case proved hr => exact .inr (by simp [hr])
  case shielded hr => exact .inr (by simp [hr])
  all_goals first | exact .inl rfl | cases hl

theorem TaskMove.sends_of (h : TaskMove t cancelled result pc answer pc' e)
    (hs : e.sends ≠ []) : pc.suspended = true ∧ pc.loud = true ∧ pc'.loud = true := by
  cases h
  case broadcast => exact ⟨rfl, rfl, rfl⟩
  all_goals exact absurd rfl hs

theorem TaskMove.canCancel_of (h : TaskMove t cancelled result pc answer pc' e) {p : JobProgress}
    (hp : e.progress? = some p) (hc : p.canCancel = true) :
    pc.early = true ∧ pc'.loud = false := by
  cases h
  case start => exact ⟨rfl, rfl⟩
  case failed e hr =>
    rw [Effect.progress?, Option.some.injEq] at hp
    subst hp
    split_ifs at hc <;> cases hc
  all_goals cases hp <;> cases hc

theorem TaskMove.loud_of (h : TaskMove t cancelled result pc answer pc' e)
    (hr : ∀ primary error, result ≠ some (.shielded primary error)) (hl : pc'.loud = true) :
    (pc.loud = true ∧ e.progress? = none) ∨ ∃ p, e.progress? = some p ∧ p.canCancel = false := by
  cases h
  case shielded primary error heq => exact absurd heq (hr primary error)
  case emit => exact .inr ⟨_, rfl, rfl⟩
  all_goals first | exact .inl ⟨rfl, rfl⟩ | cases hl

theorem TaskMove.spawn_of (h : TaskMove t cancelled result pc answer pc' .spawn) :
    pc = .openDb ∧ pc' = .await := by
  cases h
  exact ⟨rfl, rfl⟩

theorem ClosureMove.ne_spawn (h : ClosureMove cancelled cpc canswer cpc' e) : e ≠ .spawn := by
  cases h <;> exact Effect.noConfusion

theorem ClosureMove.ofSend (h : ClosureMove cancelled cpc canswer cpc' e)
    (hs : cpc.ofSend = true) : cpc'.ofSend = true ∧ e.sends = [] ∧ cpc.proves = true := by
  cases h <;> first | exact ⟨rfl, rfl, rfl⟩ | cases hs

end moves

/-- Only the task sends, after the closure has returned and the job can no longer be cancelled. -/
structure SendInv (j : Job) : Prop where
  jobType : j.jobType = .send
  closure : j.closure.ofSend = true
  early : j.task.early = true → j.sent = []
  proves : j.closure.proves = true → j.sent = [] ∧ j.task.late = false
  loud : j.task.loud = true → j.progress.canCancel = false
  sent : j.sent ≠ [] → j.progress.canCancel = false
  accepted : j.cancelAccepted = true → j.aborted = true ∧ j.sent = []

theorem sendInv_fresh : SendInv (Job.fresh .send) where
  jobType := rfl
  closure := rfl
  early _ := rfl
  proves h := by cases h
  loud h := by cases h
  sent h := absurd rfl h
  accepted h := by cases h

variable {pc : ClosurePc} {j k : Job} {a : Action} {txid : TxId} {txids : List TxId}
  {run : ShieldLoop}

theorem result?_of_proves (h : pc.proves = true) : pc.result? = none := by
  cases pc <;> first | rfl | cases h

theorem result?_of_ofSend (h : pc.ofSend = true) (primary : TxId) (error : Option String) :
    pc.result? ≠ some (.shielded primary error) := by
  intro hr
  cases pc with
  | returned result =>
    rw [ClosurePc.result?, Option.some.injEq] at hr
    subst hr
    cases h
  | _ => cases hr

theorem sendInv_task {answer : TaskAnswer} (hj : SendInv j) (h : step j (.task answer) = some k) :
    SendInv k := by
  obtain ⟨pc, e, hmove, hab, rfl⟩ := step_task h
  -- a broadcast needs a task that has reported it and is not aborted
  have hquiet : j.task.loud = false ∨ j.aborted = true → e.sends = [] := fun hor => by
    by_contra hs
    obtain ⟨hsus, hloud, _⟩ := hmove.sends_of hs
    rw [hsus, Bool.and_true] at hab
    simp [hloud, hab] at hor
  have hearly : j.task.early = true → e.sends = [] := fun he =>
    hquiet (.inl (by cases htask : j.task <;> simp [htask, TaskPc.early, TaskPc.loud] at he ⊢))
  refine ⟨by simpa using hj.jobType, ?_, fun he => ?_, fun hp => ?_, fun hl => ?_, fun hs => ?_,
    fun ha => ?_⟩
  · by_cases hspawn : e = .spawn
    · subst hspawn
      simp [Job.perform, hj.jobType, ClosurePc.ofSend]
    · rw [Job.perform_closure _ _ hspawn]
      exact hj.closure
  · rw [Job.perform_task] at he
    have he' := hmove.early_of he
    simp [hj.early he', hearly he']
  · by_cases hspawn : e = .spawn
    · subst hspawn
      obtain ⟨hpc, rfl⟩ := hmove.spawn_of
      have := hj.early (by rw [hpc]; rfl)
      simp [this, Effect.sends, TaskPc.late]
    · have hcl : j.closure.proves = true := by rwa [Job.perform_closure _ _ hspawn] at hp
      obtain ⟨hsent, hlate⟩ := hj.proves hcl
      have hnotloud : j.task.loud = false := by
        cases htask : j.task <;> simp [htask, TaskPc.late, TaskPc.loud] at hlate ⊢
      refine ⟨by simp [hsent, hquiet (.inl hnotloud)], ?_⟩
      by_contra hl
      rw [Bool.not_eq_false, Job.perform_task] at hl
      rcases hmove.late_of hl with hl' | hr
      · rw [hlate] at hl'
        cases hl'
      · exact hr (result?_of_proves hcl)
  · rw [Job.perform_task] at hl
    rw [Job.perform_progress]
    rcases hmove.loud_of (result?_of_ofSend hj.closure) hl with ⟨hl', hp⟩ | ⟨p, hp, hc⟩
    · rw [hp]
      exact hj.loud hl'
    · rw [hp]
      exact hc
  · rw [Job.perform_progress]
    by_contra hc
    rw [Bool.not_eq_false] at hc
    rw [Job.perform_sent] at hs
    cases hp : e.progress? with
    | none =>
      rw [hp, Option.getD_none] at hc
      by_cases hsends : e.sends = []
      · rw [hj.sent (by simpa [hsends] using hs)] at hc
        cases hc
      · rw [hj.loud (hmove.sends_of hsends).2.1] at hc
        cases hc
    | some p =>
      rw [hp, Option.getD_some] at hc
      have he := (hmove.canCancel_of hp hc).1
      exact hs (by simp [hj.early he, hearly he])
  · rw [Job.perform_cancelAccepted] at ha
    obtain ⟨hab', hsent⟩ := hj.accepted ha
    exact ⟨by simpa using hab', by simp [hsent, hquiet (.inr hab')]⟩

theorem sendInv_closure {answer : ClosureAnswer} (hj : SendInv j)
    (h : step j (.closure answer) = some k) : SendInv k := by
  obtain ⟨pc, e, hmove, rfl⟩ := step_closure h
  obtain ⟨hpc, hsends, hproves⟩ := hmove.ofSend hj.closure
  obtain ⟨hsent, hlate⟩ := hj.proves hproves
  have hclosure : (({ j with closure := pc } : Job).perform e).closure = pc :=
    Job.perform_closure _ _ hmove.ne_spawn
  have hnotloud : j.task.loud = false := by
    cases htask : j.task <;> simp [htask, TaskPc.late, TaskPc.loud] at hlate ⊢
  refine ⟨by simpa using hj.jobType, by rw [hclosure]; exact hpc, fun _ => by simp [hsent, hsends],
    fun _ => ⟨by simp [hsent, hsends], by simpa using hlate⟩, fun hl => ?_, fun hs => ?_,
    fun ha => ?_⟩
  · rw [Job.perform_task, hnotloud] at hl
    cases hl
  · exact absurd (by simp [hsent, hsends]) hs
  · exact ⟨by simpa using (hj.accepted (by simpa using ha)).1, by simp [hsent, hsends]⟩

theorem sendInv_step (hj : SendInv j) (h : step j a = some k) : SendInv k := by
  cases step_move h with
  | register => exact ⟨hj.jobType, hj.closure, hj.early, hj.proves, hj.loud, hj.sent, hj.accepted⟩
  | kept => exact hj
  | cancelled hcan =>
    refine ⟨hj.jobType, hj.closure, hj.early, hj.proves, fun _ => rfl, fun _ => rfl,
      fun _ => ⟨rfl, ?_⟩⟩
    by_contra hs
    have hc := hj.sent hs
    simp [Job.cancels, hc] at hcan
  | abort =>
    exact ⟨hj.jobType, hj.closure, fun he => (by cases he),
      fun hp => ⟨(hj.proves hp).1, rfl⟩, fun hl => (by cases hl), hj.sent, hj.accepted⟩
  | task answer h => exact sendInv_task hj h
  | closure answer h => exact sendInv_closure hj h

theorem sendInv_of_reach {G : Job → Action → Prop} (h : Reach (jobSystem .send) G j) : SendInv j :=
  h.invariant (by rintro j rfl; exact sendInv_fresh) fun _ _ _ hj _ hst => sendInv_step hj hst

/-! ## Shield jobs -/

def TaskPc.ofShield : TaskPc → Bool
  | .check | .start | .openDb | .await | .finish .. | .ended => true
  | .emit .. | .load .. | .broadcast .. => false

def ClosurePc.ofShield : ClosurePc → Bool
  | .sendCheck | .sendProve | .sendCreate | .sendRecheck .. | .returned (.proved ..) => false
  | _ => true

def ClosurePc.maySend : ClosurePc → Bool
  | .shieldPrice .. | .shieldProve _ | .shieldCreate _ | .shieldEmit .. | .shieldSend .. => true
  | .shieldLoad txids _ => !txids.isEmpty
  | _ => false

section moves

variable {t : JobType} {cancelled : Bool} {result : Option ClosureResult} {pc pc' : TaskPc}
  {answer : TaskAnswer} {cpc cpc' : ClosurePc} {canswer : ClosureAnswer} {e : Effect}

theorem TaskMove.ofShield (h : TaskMove t cancelled result pc answer pc' e)
    (hr : ∀ primary others, result ≠ some (.proved primary others)) (hs : pc.ofShield = true) :
    pc'.ofShield = true ∧ e.sends = [] := by
  cases h
  case proved primary others heq => exact absurd heq (hr primary others)
  all_goals first | exact ⟨rfl, rfl⟩ | cases hs

theorem ShieldLoop.result_ofShield (run : ShieldLoop) :
    (ClosurePc.returned run.result).ofShield = true := by
  unfold ShieldLoop.result
  split <;> rfl

theorem ClosureMove.ofShield (h : ClosureMove cancelled cpc canswer cpc' e)
    (hs : cpc.ofShield = true) : cpc'.ofShield = true := by
  cases h
  case loopEnd run _ => exact run.result_ofShield
  all_goals first | rfl | cases hs

/-- **A closure that sees the flag at its next check stops there.** -/
theorem ClosureMove.stops (h : ClosureMove true cpc canswer cpc' e) (hs : cpc.maySend = false) :
    cpc'.maySend = false ∧ e.sends = [] := by
  cases h <;> first | exact ⟨rfl, rfl⟩ | contradiction

theorem ClosureMove.batch_ne_nil {batch : List OutPoint} {run : ShieldLoop}
    (h : ClosureMove cancelled cpc canswer (.shieldPrice batch run) e) : batch ≠ [] := by
  cases h
  assumption

end moves

theorem result?_of_ofShield (h : pc.ofShield = true) (primary : TxId) (others : List TxId) :
    pc.result? ≠ some (.proved primary others) := by
  intro hr
  cases pc with
  | returned result =>
    rw [ClosurePc.result?, Option.some.injEq] at hr
    subst hr
    cases h
  | _ => cases hr

/-- Its task sends nothing. -/
structure ShieldKind (j : Job) : Prop where
  jobType : j.jobType = .shield
  task : j.task.ofShield = true
  closure : j.closure.ofShield = true
  batch : ∀ batch run, j.closure = .shieldPrice batch run → batch ≠ []

def Stopped (j : Job) : Prop :=
  j.cancelAccepted = true → j.cancelled = true ∧ j.sent = [] ∧ j.closure.maySend = false

/-- A shield job is only cancelled while nothing is sent or on its way. -/
def CancelsUnsent (j : Job) : Action → Prop
  | .cancel => j.jobType = .shield → j.cancels = true → j.sent = [] ∧ j.closure.maySend = false
  | _ => True

instance (j : Job) : ∀ a, Decidable (CancelsUnsent j a)
  | .cancel => inferInstanceAs (Decidable (_ → _))
  | .register | .abort | .task _ | .closure _ => isTrue trivial

theorem shieldKind_step (hj : ShieldKind j) (h : step j a = some k) : ShieldKind k := by
  cases step_move h with
  | register | cancelled => exact ⟨hj.jobType, hj.task, hj.closure, hj.batch⟩
  | kept => exact hj
  | abort => exact ⟨hj.jobType, rfl, hj.closure, hj.batch⟩
  | task answer h =>
    obtain ⟨pc, e, hmove, _, rfl⟩ := step_task h
    obtain ⟨hpc, _⟩ := hmove.ofShield (result?_of_ofShield hj.closure) hj.task
    by_cases hspawn : e = .spawn
    · subst hspawn
      refine ⟨hj.jobType, hpc, ?_, fun batch run hb => ?_⟩
      · simp [Job.perform, hj.jobType, ClosurePc.ofShield]
      · simp [Job.perform, hj.jobType] at hb
    · have hcl := Job.perform_closure { j with task := pc } e hspawn
      exact ⟨by simpa using hj.jobType, by simpa using hpc, by rw [hcl]; exact hj.closure,
        fun batch run hb => hj.batch batch run (hcl.symm.trans hb)⟩
  | closure answer h =>
    obtain ⟨pc, e, hmove, rfl⟩ := step_closure h
    have hcl := Job.perform_closure { j with closure := pc } e hmove.ne_spawn
    refine ⟨by simpa using hj.jobType, by simpa using hj.task, ?_, fun batch run hb => ?_⟩
    · rw [hcl]
      exact hmove.ofShield hj.closure
    · rw [hcl] at hb
      subst hb
      exact hmove.batch_ne_nil

theorem stopped_step (hj : ShieldKind j) (hs : Stopped j) (hg : CancelsUnsent j a)
    (h : step j a = some k) : Stopped k := by
  intro ha
  cases step_move h with
  | register | kept | abort => exact hs ha
  | cancelled hcan => exact ⟨rfl, hg hj.jobType hcan⟩
  | task answer h =>
    obtain ⟨pc, e, hmove, _, rfl⟩ := step_task h
    obtain ⟨_, hsends⟩ := hmove.ofShield (result?_of_ofShield hj.closure) hj.task
    obtain ⟨hc, hsent, hmay⟩ := hs (by simpa using ha)
    refine ⟨by simpa using hc, by simp [hsends, hsent], ?_⟩
    by_cases hspawn : e = .spawn
    · -- the closure starts with a check
      subst hspawn
      simp [Job.perform, hj.jobType, ClosurePc.maySend]
    · rw [Job.perform_closure _ _ hspawn]
      exact hmay
  | closure answer h =>
    obtain ⟨pc, e, hmove, rfl⟩ := step_closure h
    obtain ⟨hc, hsent, hmay⟩ := hs (by simpa using ha)
    rw [hc] at hmove
    obtain ⟨hmay', hsends⟩ := hmove.stops hmay
    refine ⟨by simpa using hc, by simp [hsends, hsent], ?_⟩
    rw [Job.perform_closure _ _ hmove.ne_spawn]
    exact hmay'

theorem shieldKind_fresh : ShieldKind (Job.fresh .shield) :=
  ⟨rfl, rfl, rfl, nofun⟩

theorem shieldKind_of_reach {G : Job → Action → Prop} (h : Reach (jobSystem .shield) G j) :
    ShieldKind j :=
  h.invariant (by rintro j rfl; exact shieldKind_fresh) fun _ _ _ hj _ hst => shieldKind_step hj hst

theorem stopped_of_reach (h : Reach (jobSystem .shield) CancelsUnsent j) : Stopped j := by
  have hboth : ShieldKind j ∧ Stopped j :=
    h.invariant (I := fun j => ShieldKind j ∧ Stopped j)
      (by rintro j rfl; exact ⟨shieldKind_fresh, nofun⟩)
      fun _ _ _ hj hg hst => ⟨shieldKind_step hj.1 hst, stopped_step hj.1 hj.2 hg hst⟩
  exact hboth.2

/-! ## A cancelled shield job that sends -/

def CanSend (j : Job) : Prop :=
  ∃ k, Path (jobSystem .shield) Free j k ∧ k.sent ≠ [] ∧ k.cancelAccepted = j.cancelAccepted

theorem CanSend.of_closure {pc' : ClosurePc} {e : Effect} (answer : ClosureAnswer)
    (hpc : j.closure = pc) (hnext : closureNext j.cancelled pc answer = some (pc', e))
    (hk : CanSend (({ j with closure := pc' } : Job).perform e)) : CanSend j := by
  obtain ⟨k, hpath, hsent, hacc⟩ := hk
  have hstep : step j (.closure answer) = some (({ j with closure := pc' } : Job).perform e) := by
    rw [step, hpc, hnext, Option.map_some]
  exact ⟨k, (Path.single (a := .closure answer) trivial hstep).trans hpath, hsent,
    hacc.trans (Job.perform_cancelAccepted _ _)⟩

theorem canSend_shieldSend (h : j.closure = .shieldSend txid txids run) : CanSend j :=
  .of_closure (.broadcast .ok true) h rfl
    ⟨_, .refl, by simp [Effect.sends, SendAnswer.reached], rfl⟩

theorem canSend_shieldEmit (h : j.closure = .shieldEmit txid txids run) : CanSend j :=
  .of_closure .go h rfl (canSend_shieldSend rfl)

theorem canSend_shieldLoad (h : j.closure = .shieldLoad (txid :: txids) run) : CanSend j :=
  .of_closure (.load none) h rfl (canSend_shieldEmit rfl)

theorem canSend_shieldCreate (h : j.closure = .shieldCreate run) : CanSend j :=
  .of_closure (.create (.ok (0, []))) h rfl (canSend_shieldLoad rfl)

theorem canSend_shieldProve (h : j.closure = .shieldProve run) : CanSend j :=
  .of_closure .go h rfl (canSend_shieldCreate rfl)

/-- For a batch of any inputs a price is found. -/
theorem closureNext_price {cancelled : Bool} {batch : List OutPoint} (hb : batch ≠ [])
    (run : ShieldLoop) :
    closureNext cancelled (.shieldPrice batch run) (.price none [.balance 10000] none) =
      some (.shieldProve run, .none) := by
  have hpriced : priceBatch batch [.balance 10000] = some (.inputs batch 10000) := by
    simp [priceBatch, hb]
  rw [closureNext, hpriced]
  rfl

theorem canSend_shieldPrice {batch : List OutPoint} (h : j.closure = .shieldPrice batch run)
    (hb : batch ≠ []) : CanSend j :=
  .of_closure _ h (closureNext_price hb run) (canSend_shieldProve rfl)

/-- **Between the check of a batch and its broadcasts nothing stops the closure.** -/
theorem canSend_of_maySend (hj : ShieldKind j) (h : j.closure.maySend = true) : CanSend j := by
  cases hpc : j.closure with
  | shieldPrice batch run => exact canSend_shieldPrice hpc (hj.batch batch run hpc)
  | shieldProve run => exact canSend_shieldProve hpc
  | shieldCreate run => exact canSend_shieldCreate hpc
  | shieldLoad txids run =>
    cases txids with
    | nil => simp [hpc, ClosurePc.maySend] at h
    | cons txid txids => exact canSend_shieldLoad hpc
  | shieldEmit txid txids run => exact canSend_shieldEmit hpc
  | shieldSend txid txids run => exact canSend_shieldSend hpc
  | _ => simp [hpc, ClosurePc.maySend] at h

/-- **A cancelled job sends nothing.** A send job never; a shield job if nothing is sent and the
closure is not between the check of a batch and its broadcasts. Otherwise it can send. -/
theorem cancelled_job_sends_nothing (j : Job) :
    (Reach (jobSystem .send) Free j → j.cancelAccepted = true → j.sent = []) ∧
      (Reach (jobSystem .shield) CancelsUnsent j → j.cancelAccepted = true → j.sent = []) ∧
      (Reach (jobSystem .shield) Free j → j.cancels = true →
        ¬ (j.sent = [] ∧ j.closure.maySend = false) →
          ∃ k, Path (jobSystem .shield) Free (cancelJob j).2 k ∧ k.cancelAccepted = true ∧
            k.sent ≠ []) := by
  refine ⟨fun h ha => ((sendInv_of_reach h).accepted ha).2,
    fun h ha => (stopped_of_reach h ha).2.1, fun h hcan hbad => ?_⟩
  rw [cancelJob_of_cancels hcan]
  by_cases hsent : j.sent = []
  · have hmay : j.closure.maySend = true := by simpa [hsent] using hbad
    have hj := shieldKind_of_reach h
    obtain ⟨k, hpath, hk, hacc⟩ := canSend_of_maySend (j := j.cancelEntry)
      ⟨hj.jobType, hj.task, hj.closure, hj.batch⟩ hmay
    exact ⟨k, hpath, hacc, hk⟩
  · exact ⟨_, .refl, rfl, hsent⟩

def started : List Action := [.register, .task .go, .task .go, .task (.openDb none)]

def toFirstPrice : List Action :=
  [.closure .go, .closure (.setup (.ok [1, 2])), .closure .go, .closure .go]

def priceAndProve (txid : TxId) : List Action :=
  [.closure (.price none [.balance 10000] none), .closure .go, .closure (.create (.ok (txid, [])))]

def loadAndSend : List Action :=
  [.closure (.load none), .closure .go, .closure (.broadcast .ok true)]

/-- It is cancelled while it proves. -/
theorem cancelled_shield_job_sends : ∃ j, Reach (jobSystem .shield) Free j ∧
    j.cancelAccepted = true ∧ j.task = .ended ∧ j.sent = [7] :=
  exec_reach (started ++ toFirstPrice ++ [Action.closure (.price none [.balance 10000] none),
    .closure .go, .cancel, .abort, .closure (.create (.ok (7, [])))] ++ loadAndSend)
    rfl (along_free _ _)
    (by decide +kernel)

theorem cancelled_job_sends_nothing_runs :
    (∃ j, (Reach (jobSystem .send) Free j ∧ j.cancelAccepted = true ∧ j.stored = [7]) ∧
      j.sent = []) ∧
    (∃ j, (Reach (jobSystem .shield) CancelsUnsent j ∧ j.cancelAccepted = true) ∧ j.sent = []) ∧
    ∃ j, Reach (jobSystem .shield) Free j ∧
      ∃ k, Path (jobSystem .shield) Free (cancelJob j).2 k ∧ k.cancelAccepted = true ∧
        k.sent ≠ [] := by
  refine ⟨?_, ?_, ?_⟩
  · obtain ⟨j, hj, ha, hst⟩ := exec_reach (S := jobSystem .send) (G := Free)
      (p := fun j => j.cancelAccepted = true ∧ j.stored = [7])
      (started ++ [Action.closure .go, .closure .go, .cancel, .closure (.create (.ok (7, []))),
        .closure .go, .abort]) rfl (along_free _ _) (by decide +kernel)
    exact ⟨j, ⟨hj, ha, hst⟩, (cancelled_job_sends_nothing j).1 hj ha⟩
  · obtain ⟨j, hj, ha⟩ := exec_reach (S := jobSystem .shield) (G := CancelsUnsent)
      (p := fun j => j.cancelAccepted = true)
      (started ++ [Action.closure .go, .cancel, .closure (.setup (.ok [1, 2])), .closure .go,
        .closure .go]) rfl (by decide +kernel) (by decide +kernel)
    exact ⟨j, ⟨hj, ha⟩, (cancelled_job_sends_nothing j).2.1 hj ha⟩
  · obtain ⟨j, hj, hcan, hbad⟩ := exec_reach (S := jobSystem .shield) (G := Free)
      (p := fun j => j.cancels = true ∧ ¬ (j.sent = [] ∧ j.closure.maySend = false))
      (started ++ toFirstPrice ++
        [Action.closure (.price none [.balance 10000] none), .closure .go]) rfl
      (along_free _ _) (by decide +kernel)
    exact ⟨j, hj, (cancelled_job_sends_nothing j).2.2 hj hcan hbad⟩

end ZbagJob
