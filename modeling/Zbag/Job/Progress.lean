import Zbag.Job.Failure

/-!
# Jobs — a finished progress is kept

`cancel_job` records the cancelled state under the lock, but the task between two awaits and the
closure between two checks of the flag record their progress without looking at what is there.

* `Settled`: a finished job whose task and closure record nothing new;
* `canOverwrite_of_writes`: a cancelled state is replaced whenever one of them writes.
-/

namespace ZbagJob

open ZbagTx Transition

/-- The task can record a progress before its next await. -/
def TaskPc.writes : TaskPc → Bool
  | .start | .openDb | .emit .. | .load .. | .finish .. => true
  | .check | .await | .broadcast .. | .ended => false

/-- It can record a progress before its next check of the flag. -/
def ClosurePc.writes : ClosurePc → Bool
  | .sendProve | .shieldSetup | .shieldStart _ | .shieldPrice .. | .shieldProve _
  | .shieldCreate _ | .shieldEmit .. => true
  | .shieldLoad txids _ | .shieldSend _ txids _ => !txids.isEmpty
  | .idle | .sendCheck | .sendCreate | .sendRecheck .. | .shieldCheck | .shieldBatch _
  | .returned _ => false

/-- Neither the task nor the closure writes. -/
def CancelsQuiet (j : Job) : Action → Prop
  | .cancel => j.cancels = true → j.task.writes = false ∧ j.closure.writes = false
  | .register | .abort | .task _ | .closure _ => True

instance (j : Job) : ∀ a, Decidable (CancelsQuiet j a)
  | .cancel => inferInstanceAs (Decidable (_ → _))
  | .register | .abort | .task _ | .closure _ => isTrue trivial

/-! ## Moves -/

section moves

variable {t : JobType} {cancelled : Bool} {result : Option ClosureResult} {pc pc' : TaskPc}
  {answer : TaskAnswer} {cpc cpc' : ClosurePc} {canswer : ClosureAnswer} {e : Effect}

/-- **A closure that sees the flag at its next check records nothing before it.** -/
theorem ClosureMove.quiet (h : ClosureMove true cpc canswer cpc' e) (hw : cpc.writes = false) :
    cpc'.writes = false ∧ e.progress? = none := by
  cases h
  case shieldSend txids _ _ => exact ⟨hw, rfl⟩
  all_goals first | exact ⟨rfl, rfl⟩ | contradiction

theorem ClosureMove.running_of (h : ClosureMove cancelled cpc canswer cpc' e) {p : JobProgress}
    (hp : e.progress? = some p) : p.state = .running := by
  cases h <;> cases hp <;> rfl

theorem TaskMove.finished_of (h : TaskMove t cancelled result pc answer pc' e) {p : JobProgress}
    (hp : e.progress? = some p) (hf : p.state.isTerminal = true) :
    pc' = .ended ∧ (pc.starts = true ∨ pc.late = true ∨ result ≠ none) := by
  cases h
  case cancelled => exact ⟨rfl, .inl rfl⟩
  case noDb => exact ⟨rfl, .inl rfl⟩
  case failed hr => exact ⟨rfl, .inr (.inr (by rw [hr]; exact Option.some_ne_none _))⟩
  case finishFailed => exact ⟨rfl, .inr (.inl rfl)⟩
  case completed => exact ⟨rfl, .inr (.inl rfl)⟩
  all_goals cases hp <;> cases hf

end moves

/-! ## Where the closure is -/

structure Ordered (j : Job) : Prop where
  starts : j.task.starts = true → j.closure = .idle
  late : j.task.late = true → j.closure.halted = true

theorem halted_of_result {pc : ClosurePc} (h : pc.result? ≠ none) : pc.halted = true := by
  cases pc with
  | returned => rfl
  | _ => exact absurd rfl h

variable {j k : Job} {answer : TaskAnswer} {a : Action} {t : JobType}

theorem ordered_task (hj : Ordered j) (h : step j (.task answer) = some k) : Ordered k := by
  obtain ⟨pc, e, hmove, -, rfl⟩ := step_task h
  constructor
  · intro hs
    rw [Job.perform_task] at hs
    obtain ⟨hstarts, hspawn⟩ := hmove.starts_of hs
    rw [Job.perform_closure _ _ hspawn]
    exact hj.starts hstarts
  · intro hl
    rw [Job.perform_task] at hl
    have hspawn : e ≠ .spawn := by
      rintro rfl
      rw [hmove.spawn_of.2] at hl
      cases hl
    rw [Job.perform_closure _ _ hspawn]
    obtain hlate | hr := hmove.late_of hl
    · exact hj.late hlate
    · exact halted_of_result hr

theorem ordered_closure {answer : ClosureAnswer} (hj : Ordered j)
    (h : step j (.closure answer) = some k) : Ordered k := by
  obtain ⟨pc, e, hmove, rfl⟩ := step_closure h
  have hrun := hmove.not_halted
  constructor
  · intro hs
    rw [Job.perform_task] at hs
    rw [hj.starts hs] at hrun
    cases hrun
  · intro hl
    rw [Job.perform_task] at hl
    rw [hj.late hl] at hrun
    cases hrun

theorem ordered_step (hj : Ordered j) (h : step j a = some k) : Ordered k := by
  cases step_move h with
  | register | cancelled => exact ⟨hj.starts, hj.late⟩
  | kept => exact hj
  | abort => exact ⟨nofun, nofun⟩
  | task answer h => exact ordered_task hj h
  | closure answer h => exact ordered_closure hj h

/-! ## Finished jobs -/

/-- It has ended, or ends at its await. -/
def Job.TaskSettled (j : Job) : Prop :=
  j.task = .ended ∨
    (j.task.writes = false ∧ j.aborted = true ∧ j.cancelled = true ∧ j.progress.state = .cancelled)

/-- It has returned or never runs, or ends at its next check. -/
def Job.ClosureSettled (j : Job) : Prop :=
  j.closure.halted = true ∨ (j.cancelled = true ∧ j.closure.writes = false)

def Job.Settling (j : Job) : Prop :=
  j.progress.state.isTerminal = true → j.TaskSettled ∧ j.ClosureSettled

theorem settled_task (ht : j.TaskSettled) (hc : j.ClosureSettled)
    (h : step j (.task answer) = some k) :
    k.TaskSettled ∧ k.ClosureSettled ∧ k.progress.state = j.progress.state := by
  obtain ⟨pc, e, hmove, hab, rfl⟩ := step_task h
  obtain hended | ⟨hwrites, haborted, hcancelled, hstate⟩ := ht
  · rw [hended] at hmove
    cases hmove
  · rw [haborted, Bool.true_and] at hab
    rw [hcancelled] at hmove
    -- only a task that has not been polled yet is left
    generalize j.task = task at hmove hab hwrites
    cases hmove with
    | cancelled => exact ⟨.inl rfl, hc, hstate.symm⟩
    | checked hnot => cases hnot
    | start | noDb | spawn | emit | sentAll | loaded | loadFailed | finishFailed | completed =>
      cases hwrites
    | failed | proved | shielded | broadcast => cases hab

theorem settled_closure {answer : ClosureAnswer} (ht : j.TaskSettled) (hc : j.ClosureSettled)
    (h : step j (.closure answer) = some k) :
    k.TaskSettled ∧ k.ClosureSettled ∧ k.progress.state = j.progress.state := by
  obtain ⟨pc, e, hmove, rfl⟩ := step_closure h
  obtain hhalted | ⟨hcancelled, hwrites⟩ := hc
  · rw [hmove.not_halted] at hhalted
    cases hhalted
  · rw [hcancelled] at hmove
    obtain ⟨hpc, hnone⟩ := hmove.quiet hwrites
    have hprogress : (({ j with closure := pc } : Job).perform e).progress = j.progress := by
      rw [Job.perform_progress, hnone]
      rfl
    refine ⟨?_, .inr ⟨by simpa using hcancelled, ?_⟩, by rw [hprogress]⟩
    · unfold Job.TaskSettled
      rw [Job.perform_task, Job.perform_aborted, Job.perform_cancelled, hprogress]
      exact ht
    · rw [Job.perform_closure _ _ hmove.ne_spawn]
      exact hpc

/-- **A finished job stays finished**, in the state it has. -/
theorem settled_step (hf : j.progress.state.isTerminal = true) (ht : j.TaskSettled)
    (hc : j.ClosureSettled) (h : step j a = some k) :
    k.TaskSettled ∧ k.ClosureSettled ∧ k.progress.state = j.progress.state := by
  cases step_move h with
  | register | kept => exact ⟨ht, hc, rfl⟩
  | cancelled hcan => simp [Job.cancels, hf] at hcan
  | abort => exact ⟨.inl rfl, hc, rfl⟩
  | task answer h => exact settled_task ht hc h
  | closure answer h => exact settled_closure ht hc h

theorem settling_task (ho : Ordered j) (hf : j.progress.state.isTerminal = false)
    (h : step j (.task answer) = some k) :
    k.Settling := by
  obtain ⟨pc, e, hmove, -, rfl⟩ := step_task h
  intro hterm
  rw [Job.perform_progress] at hterm
  cases hp : e.progress? with
  | none =>
    rw [hp, Option.getD_none] at hterm
    rw [show ({ j with task := pc } : Job).progress = j.progress from rfl, hf] at hterm
    cases hterm
  | some p =>
    rw [hp, Option.getD_some] at hterm
    obtain ⟨rfl, hplace⟩ := hmove.finished_of hp hterm
    have hspawn : e ≠ .spawn := by
      rintro rfl
      cases hp
    refine ⟨.inl (Job.perform_task _ _), .inl ?_⟩
    rw [Job.perform_closure _ _ hspawn]
    obtain hs | hl | hr := hplace
    · show j.closure.halted = true
      rw [ho.starts hs]
      rfl
    · exact ho.late hl
    · exact halted_of_result hr

theorem settling_step (ho : Ordered j) (hs : j.Settling) (hg : CancelsQuiet j a)
    (h : step j a = some k) : k.Settling := by
  cases hf : j.progress.state.isTerminal with
  | true =>
    intro _
    obtain ⟨ht, hc⟩ := hs hf
    obtain ⟨ht', hc', -⟩ := settled_step hf ht hc h
    exact ⟨ht', hc'⟩
  | false =>
    have hsame : k.progress = j.progress → k.Settling := by
      intro he hterm
      rw [he, hf] at hterm
      cases hterm
    cases step_move h with
    | register | abort => exact hsame rfl
    | kept => exact hs
    | cancelled hcan =>
      obtain ⟨ht, hc⟩ := hg hcan
      exact fun _ => ⟨.inr ⟨ht, rfl, rfl, rfl⟩, .inr ⟨rfl, hc⟩⟩
    | task answer h => exact settling_task ho hf h
    | closure answer h =>
      obtain ⟨pc, e, hmove, rfl⟩ := step_closure h
      intro hterm
      rw [Job.perform_progress] at hterm
      cases hp : e.progress? with
      | none =>
        rw [hp, Option.getD_none] at hterm
        rw [show ({ j with closure := pc } : Job).progress = j.progress from rfl, hf] at hterm
        cases hterm
      | some p =>
        rw [hp, Option.getD_some, hmove.running_of hp] at hterm
        cases hterm

theorem settling_of_reach (h : Reach (jobSystem t) CancelsQuiet j) : j.Settling := by
  have hboth : Ordered j ∧ j.Settling := by
    refine h.invariant (I := fun j => Ordered j ∧ j.Settling) ?_ ?_
    · rintro j rfl
      exact ⟨⟨fun _ => rfl, nofun⟩, nofun⟩
    · rintro j a k ⟨ho, hs⟩ hg hst
      exact ⟨ordered_step ho hst, settling_step ho hs hg hst⟩
  exact hboth.2

theorem settled_path (h : Path (jobSystem t) CancelsQuiet j k)
    (hf : j.progress.state.isTerminal = true) (ht : j.TaskSettled) (hc : j.ClosureSettled) :
    k.progress.state = j.progress.state := by
  have hinv : k.TaskSettled ∧ k.ClosureSettled ∧ k.progress.state = j.progress.state := by
    refine h.invariant (I := fun k =>
      k.TaskSettled ∧ k.ClosureSettled ∧ k.progress.state = j.progress.state) ⟨ht, hc, rfl⟩ ?_
    rintro k a l ⟨ht', hc', hstate⟩ - hst
    obtain ⟨ht'', hc'', hstate'⟩ := settled_step (by rw [hstate]; exact hf) ht' hc' hst
    exact ⟨ht'', hc'', hstate'.trans hstate⟩
  exact hinv.2.2

/-! ## A cancelled state that is replaced -/

def CanOverwrite (t : JobType) (j : Job) : Prop :=
  ∃ k, Path (jobSystem t) Free j k ∧ k.progress.state ≠ .cancelled

section overwrite

variable {t : JobType} {j : Job}

theorem CanOverwrite.of_step (a : Action) (h : step j a = some k) (hk : CanOverwrite t k) :
    CanOverwrite t j := by
  obtain ⟨l, hpath, hl⟩ := hk
  exact ⟨l, (Path.single (a := a) trivial h).trans hpath, hl⟩

theorem CanOverwrite.of_closure {pc pc' : ClosurePc} {e : Effect} (answer : ClosureAnswer)
    (hpc : j.closure = pc) (hnext : closureNext j.cancelled pc answer = some (pc', e))
    (hk : CanOverwrite t (({ j with closure := pc' } : Job).perform e)) : CanOverwrite t j := by
  refine .of_step (.closure answer) ?_ hk
  rw [step, hpc, hnext, Option.map_some]

theorem CanOverwrite.of_task {pc pc' : TaskPc} {e : Effect} (answer : TaskAnswer)
    (hpc : j.task = pc) (hawait : pc.suspended = false)
    (hnext : taskNext j.jobType j.cancelled j.closure.result? pc answer = some (pc', e))
    (hk : CanOverwrite t (({ j with task := pc' } : Job).perform e)) : CanOverwrite t j := by
  refine .of_step (.task answer) ?_ hk
  rw [step, hpc, hawait, Bool.and_false, if_neg Bool.false_ne_true, hnext, Option.map_some]

theorem CanOverwrite.here (h : j.progress.state ≠ .cancelled) : CanOverwrite t j := ⟨j, .refl, h⟩

theorem canOverwrite_finish {primary : TxId} {error : Option String}
    (h : j.task = .finish primary error) : CanOverwrite t j := by
  cases error with
  | none | some e => exact .of_task .go h rfl rfl (.here JobState.noConfusion)

theorem canOverwrite_task (h : j.task.writes = true) : CanOverwrite t j := by
  cases hpc : j.task with
  | start => exact .of_task .go hpc rfl rfl (.here JobState.noConfusion)
  | openDb => exact .of_task (.openDb (some "")) hpc rfl rfl (.here JobState.noConfusion)
  | emit primary others => exact .of_task .go hpc rfl rfl (.here JobState.noConfusion)
  | load primary left error =>
    cases left with
    | nil => exact .of_task .go hpc rfl rfl (canOverwrite_finish rfl)
    | cons txid left =>
      exact .of_task (.load (some .unavailable)) hpc rfl rfl (canOverwrite_finish rfl)
  | finish primary error => exact canOverwrite_finish hpc
  | check | await | broadcast | ended =>
    rw [hpc] at h
    cases h

variable {run : ShieldLoop}

theorem canOverwrite_shieldEmit {txid : TxId} {txids : List TxId}
    (h : j.closure = .shieldEmit txid txids run) : CanOverwrite t j :=
  .of_closure .go h rfl (.here JobState.noConfusion)

theorem canOverwrite_shieldLoad {txid : TxId} {txids : List TxId}
    (h : j.closure = .shieldLoad (txid :: txids) run) : CanOverwrite t j :=
  .of_closure (.load none) h rfl (canOverwrite_shieldEmit rfl)

theorem canOverwrite_shieldProve (h : j.closure = .shieldProve run) : CanOverwrite t j :=
  .of_closure .go h rfl (.here JobState.noConfusion)

theorem canOverwrite_shieldPrice {batch : List OutPoint} (h : j.closure = .shieldPrice batch run)
    (hb : batch ≠ []) : CanOverwrite t j :=
  .of_closure _ h (closureNext_price hb run) (canOverwrite_shieldProve rfl)

/-- **Between two checks of the flag nothing keeps the closure from recording.** -/
theorem canOverwrite_closure (hb : ∀ batch run, j.closure = .shieldPrice batch run → batch ≠ [])
    (h : j.closure.writes = true) : CanOverwrite t j := by
  cases hpc : j.closure with
  | sendProve => exact .of_closure .go hpc rfl (.here JobState.noConfusion)
  | shieldSetup =>
    exact .of_closure (.setup (.ok [0])) hpc rfl
      (.of_closure .go rfl rfl (.here JobState.noConfusion))
  | shieldStart run => exact .of_closure .go hpc rfl (.here JobState.noConfusion)
  | shieldPrice batch run => exact canOverwrite_shieldPrice hpc (hb batch run hpc)
  | shieldProve run => exact canOverwrite_shieldProve hpc
  | shieldCreate run =>
    exact .of_closure (.create (.ok (0, []))) hpc rfl (canOverwrite_shieldLoad rfl)
  | shieldEmit txid txids run => exact canOverwrite_shieldEmit hpc
  | shieldLoad txids run =>
    cases txids with
    | nil =>
      rw [hpc] at h
      cases h
    | cons txid txids => exact canOverwrite_shieldLoad hpc
  | shieldSend txid txids run =>
    cases txids with
    | nil =>
      rw [hpc] at h
      cases h
    | cons txid' txids =>
      exact .of_closure (.broadcast .ok true) hpc rfl (canOverwrite_shieldLoad rfl)
  | idle | sendCheck | sendCreate | sendRecheck | shieldCheck | shieldBatch | returned =>
    rw [hpc] at h
    cases h

end overwrite

theorem batch_ne_nil_of_reach (h : Reach (jobSystem t) Free j) (batch : List OutPoint)
    (run : ShieldLoop) (hpc : j.closure = .shieldPrice batch run) :
    batch ≠ [] := by
  cases t with
  | send =>
    have hof := (sendInv_of_reach h).closure
    rw [hpc] at hof
    cases hof
  | shield => exact (shieldKind_of_reach h).batch batch run hpc

/-- **A finished progress is kept** if no cancellation is accepted while task or closure is about to
record. One that is accepted otherwise can be followed by another state. -/
theorem finished_progress_kept (t : JobType) (j : Job) :
    (Reach (jobSystem t) CancelsQuiet j → j.progress.state.isTerminal = true →
      ∀ k, Path (jobSystem t) CancelsQuiet j k → k.progress.state = j.progress.state) ∧
    (Reach (jobSystem t) Free j → j.cancels = true →
      ¬ (j.task.writes = false ∧ j.closure.writes = false) →
        (cancelJob j).2.progress.state = .cancelled ∧
          ∃ k, Path (jobSystem t) Free (cancelJob j).2 k ∧ k.progress.state ≠ .cancelled) := by
  constructor
  · intro h hf k hpath
    obtain ⟨ht, hc⟩ := settling_of_reach h hf
    exact settled_path hpath hf ht hc
  · intro h hcan hbad
    rw [cancelJob_of_cancels hcan]
    refine ⟨rfl, ?_⟩
    by_cases hwrites : j.task.writes = true
    · exact canOverwrite_task (j := j.cancelEntry) hwrites
    · have hclosure : j.closure.writes = true := by
        by_contra hc
        exact hbad ⟨Bool.eq_false_iff.mpr hwrites, Bool.eq_false_iff.mpr hc⟩
      have hbatch := batch_ne_nil_of_reach h
      exact canOverwrite_closure (j := j.cancelEntry) hbatch hclosure

/-- It is cancelled before its closure records that it proves. -/
theorem cancelled_progress_replaced : ∃ j k, Reach (jobSystem .send) Free j ∧
    j.progress.state = .cancelled ∧ Path (jobSystem .send) Free j k ∧
    k.progress.state = .running := by
  obtain ⟨j, hj, hstate, hnext⟩ := exec_reach (S := jobSystem .send) (G := Free)
    (p := fun j => j.progress.state = .cancelled ∧
      ∃ k ∈ step j (.closure .go), k.progress.state = .running)
    (started ++ [Action.closure .go, .cancel]) rfl (along_free _ _) (by decide +kernel)
  obtain ⟨k, hk, hrunning⟩ := hnext
  exact ⟨j, k, hj, hstate, .single (a := .closure .go) trivial hk, hrunning⟩

theorem finished_progress_kept_runs :
    (∃ j, (Reach (jobSystem .send) CancelsQuiet j ∧ j.progress.state = .cancelled) ∧
      ∀ k, Path (jobSystem .send) CancelsQuiet j k → k.progress.state = .cancelled) ∧
    ∃ j, Reach (jobSystem .send) Free j ∧
      ∃ k, Path (jobSystem .send) Free (cancelJob j).2 k ∧ k.progress.state ≠ .cancelled := by
  constructor
  · obtain ⟨j, hj, hstate⟩ := exec_reach (S := jobSystem .send) (G := CancelsQuiet)
      (p := fun j => j.progress.state = .cancelled)
      (started ++ [Action.closure .go, .closure .go, .cancel]) rfl (by decide +kernel)
      (by decide +kernel)
    refine ⟨j, ⟨hj, hstate⟩, fun k hk => ?_⟩
    rw [(finished_progress_kept .send j).1 hj (by rw [hstate]; rfl) k hk, hstate]
  · obtain ⟨j, hj, hcan, hbad⟩ := exec_reach (S := jobSystem .send) (G := Free)
      (p := fun j => j.cancels = true ∧ ¬ (j.task.writes = false ∧ j.closure.writes = false))
      (started ++ [Action.closure .go]) rfl (along_free _ _) (by decide +kernel)
    exact ⟨j, hj, ((finished_progress_kept .send j).2 hj hcan hbad).2⟩

end ZbagJob
