import Zbag.Sync.Entry
import Zbag.Sync.Estimate

/-!
# Sync — the phase that is left behind

`start_sync` records the phase `Preparing` before it resolves the server, and a task records its
phases with no look at the jobs map. When the resolution fails, or a task that `stop_sync` has
aborted comes to an update before its next await, a busy phase stays recorded for a wallet that does
not sync.
-/

namespace ZbagSync

open Transition

/-! ## Polls -/

def SyncPhase.isBusy : SyncPhase → Bool
  | .preparing | .downloading | .scanning | .enhancing | .catchingUp => true
  | .idle | .offline | .error => false

/-- No entry, no call in progress and no aborted task that still runs. -/
def Slot.Stranded (s : Slot) : Prop :=
  s.job = none ∧ s.Settled ∧ (∀ t ∈ s.tasks, t.aborted = true → t.isFinished = true) ∧
    s.phase.isBusy = true

instance (s : Slot) : Decidable s.Stranded := inferInstanceAs (Decidable (_ ∧ _))

/-- With `get_progress` and what it finds. -/
inductive PolledAction
  | slot (a : SlotAction)
  | getProgress (estimate : Option SyncProgressEstimate) (frontier tip percent : ℕ)
  deriving DecidableEq, Repr

/-- It stores the progress that it has read. -/
def polled : System Slot PolledAction where
  init s := s = .initial
  step s
    | .slot a => s.step a
    | .getProgress estimate frontier tip percent =>
      some { s with phase := (withEta estimate ⟨s.phase, frontier, tip, percent⟩).2.phase }

def exceptPolls (G : Slot → SlotAction → Prop) (s : Slot) : PolledAction → Prop
  | .slot a => G s a
  | .getProgress .. => True

instance (G : Slot → SlotAction → Prop) [∀ s a, Decidable (G s a)] (s : Slot) :
    ∀ a, Decidable (exceptPolls G s a)
  | .slot a => inferInstanceAs (Decidable (G s a))
  | .getProgress .. => isTrue trivial

/-- **A poll changes no phase**: what is reached with polls is reached without. -/
theorem reach_of_polled {G : Slot → SlotAction → Prop} {s : Slot}
    (h : Reach polled (exceptPolls G) s) : Reach slot G s := by
  refine h.invariant (I := Reach slot G) (fun s hs => .of_init hs) ?_
  intro s a t hs hguard hstep
  cases a with
  | slot a => exact hs.step hguard hstep
  | getProgress estimate frontier tip percent =>
    cases hstep
    rwa [withEta_phase]

/-! ## Who replaces a busy phase -/

/-- It will record another phase. -/
def SyncTask.engaged (t : SyncTask) : Bool :=
  match t.pc with
  | .awaiting .cleanup | .running .cleanup => false
  | _ => t.working

def Slot.covered (s : Slot) : Bool :=
  s.calls.any (fun pc => pc = .resolving) || s.tasks.any SyncTask.engaged

/-- A failed resolution, or a busy phase of an aborted task, is left to another call or task. -/
def Accounted (s : Slot) : SlotAction → Prop
  | .start c false => s.calls[c]? = some .resolving → s.phase.isBusy = true →
      (s.setCall c (.returned (some .unresolvedEndpoint))).covered = true
  | .task i (.report phase) => ∀ t ∈ s.tasks[i]?, t.aborted = true → phase.isBusy = true →
      s.covered = true
  | _ => True

instance (s : Slot) : ∀ a, Decidable (Accounted s a)
  | .start _ false => inferInstanceAs (Decidable (_ → _ → _))
  | .task i (.report _) => inferInstanceAs (Decidable (∀ t ∈ s.tasks[i]?, _))
  | .startSync | .start _ true | .stopSync => isTrue trivial
  | .task _ .next | .task _ (.goto _) | .task _ .fail | .task _ .scan | .task _ .closure =>
    isTrue trivial

def Tidy (s : Slot) (a : SlotAction) : Prop := Orderly s a ∧ Accounted s a

instance (s : Slot) (a : SlotAction) : Decidable (Tidy s a) := inferInstanceAs (Decidable (_ ∧ _))

section task

variable {t t' : SyncTask} {move : TaskMove} {e : Effect}

theorem SyncTask.working_of_engaged (h : t.engaged = true) : t.working = true := by
  unfold engaged at h
  split at h
  · cases h
  · cases h
  · exact h

/-- **An engaged task stays so until it records a phase that is not busy.** -/
theorem SyncTask.engaged_of_step (h : t.step move = some (t', e)) (ht : t.engaged = true) :
    t'.engaged = true ∨ ∃ phase, e = .report phase ∧ phase.isBusy = false := by
  cases moves_of_step h with
  | fail | quitPrepare | quitLoop => exact .inr ⟨_, rfl, rfl⟩
  | clear | finish | dropJoining => cases ht
  | dropAwaiting stage => cases stage <;> cases ht
  | poll stage => exact .inl (by cases stage <;> exact ht)
  | goto stage target aborted scan hto =>
    -- Only a task that is not aborted is engaged, and such a task goes on without its clean-up.
    obtain rfl : aborted = false := by simpa [working, alive] using working_of_engaged ht
    exact .inl (by cases stage <;> cases target <;> first | rfl | cases hto)
  | _ => exact .inl ht

theorem SyncTask.of_report {phase : SyncPhase} (h : t.step move = some (t', .report phase))
    (hbusy : phase.isBusy = true) :
    move = .report phase ∧ t' = t ∧ (t.aborted = true ∨ t.engaged = true) := by
  cases moves_of_step h with
  | fail | quitPrepare | quitLoop => cases hbusy
  | report stage phase aborted scan hreports =>
    refine ⟨rfl, rfl, ?_⟩
    cases stage with
    | prepare | loop => cases aborted <;> simp [engaged, working, alive]
    | _ => cases hreports

end task

/-! ## Steps -/

namespace Slot

variable {s : Slot} {c i : ℕ}

theorem covered_iff : s.covered = true ↔
    (∃ c : ℕ, s.calls[c]? = some .resolving) ∨
      ∃ (i : ℕ) (t : SyncTask), s.tasks[i]? = some t ∧ t.engaged = true := by
  simp only [covered, Bool.or_eq_true, List.any_eq_true, decide_eq_true_eq, List.mem_iff_getElem?]
  constructor
  · rintro (⟨pc, ⟨c, hc⟩, rfl⟩ | ⟨t, ⟨i, hi⟩, ht⟩)
    · exact .inl ⟨c, hc⟩
    · exact .inr ⟨i, t, hi, ht⟩
  · rintro (⟨c, hc⟩ | ⟨i, t, hi, ht⟩)
    · exact .inl ⟨_, ⟨c, hc⟩, rfl⟩
    · exact .inr ⟨t, ⟨i, hi⟩, ht⟩

theorem covered_setCall {pc : StartPc} (h : s.covered = true) (hc : s.calls[c]? = some pc)
    (hpc : pc ≠ .resolving) (pc' : StartPc) : (s.setCall c pc').covered = true := by
  rw [covered_iff] at h ⊢
  refine h.imp_left ?_
  rintro ⟨d, hd⟩
  have hne : c ≠ d := by
    rintro rfl
    rw [hc, Option.some.injEq] at hd
    exact hpc hd
  exact ⟨d, by rw [setCall_calls, List.getElem?_set_ne hne, hd]⟩

theorem covered_setTask {t t' : SyncTask} (h : s.covered = true) (ht : s.tasks[i]? = some t)
    (hengaged : t.engaged = true → t'.engaged = true) : (s.setTask i t').covered = true := by
  rw [covered_iff] at h ⊢
  refine h.imp_right ?_
  rintro ⟨j, u, hj, hu⟩
  by_cases hij : i = j
  · subst hij
    rw [ht, Option.some.injEq] at hj
    subst hj
    exact ⟨i, t', by rw [getElem?_setTask ht, if_pos rfl], hengaged hu⟩
  · exact ⟨j, u, by rw [getElem?_setTask ht, if_neg hij, hj], hu⟩

theorem covered_congr {s' : Slot} (hcalls : s'.calls = s.calls) (htasks : s'.tasks = s.tasks) :
    s'.covered = s.covered := by
  rw [covered, covered, hcalls, htasks]

@[simp] theorem covered_apply (s : Slot) (e : Effect) : (s.apply e).covered = s.covered :=
  covered_congr (apply_calls s e) (apply_tasks s e)

theorem apply_phase (s : Slot) (e : Effect) :
    (s.apply e).phase = s.phase ∨ e = .report (s.apply e).phase := by
  cases e with
  | report phase => exact .inr rfl
  | _ => exact .inl rfl

end Slot

def Attended (s : Slot) : Prop := s.phase.isBusy = true → s.covered = true

theorem attended_task {s : Slot} {i : ℕ} {move : TaskMove} {t t' : SyncTask} {e : Effect}
    (hs : Attended s) (ha : Accounted s (.task i move)) (ht : s.tasks[i]? = some t)
    (hstep : t.step move = some (t', e)) : Attended ((s.setTask i t').apply e) := by
  intro hbusy
  rw [Slot.covered_apply]
  obtain hphase | he := (s.setTask i t').apply_phase e
  · -- the phase is the old one
    rw [hphase] at hbusy
    refine Slot.covered_setTask (hs hbusy) ht fun hengaged => ?_
    obtain h | ⟨phase, rfl, hidle⟩ := SyncTask.engaged_of_step hstep hengaged
    · exact h
    · rw [← hphase] at hbusy
      exact absurd (hbusy.symm.trans hidle) nofun
  · generalize hphase : ((s.setTask i t').apply e).phase = phase at hbusy he
    subst he
    obtain ⟨rfl, rfl, hreporter⟩ := SyncTask.of_report hstep hbusy
    obtain haborted | hengaged := hreporter
    · exact Slot.covered_setTask (ha t' ht haborted hbusy) ht id
    · refine Slot.covered_iff.mpr (.inr ⟨i, t', ?_, hengaged⟩)
      rw [Slot.getElem?_setTask ht, if_pos rfl]

theorem attended_step {s s' : Slot} {a : SlotAction} (hs : Attended s) (ha : Accounted s a)
    (h : slot.step s a = some s') : Attended s' := by
  cases step_cases h with
  | request =>
    intro hbusy
    have hold := hs hbusy
    rw [Slot.covered_iff] at hold ⊢
    refine hold.imp_left ?_
    rintro ⟨c, hc⟩
    have hlt := (List.getElem?_eq_some_iff.mp hc).1
    exact ⟨c, (List.getElem?_append_left hlt).trans hc⟩
  | refuse hc => exact fun hbusy => Slot.covered_setCall (hs hbusy) hc nofun _
  | @accept c _ hc =>
    have hlt := (List.getElem?_eq_some_iff.mp hc).1
    exact fun _ => Slot.covered_iff.mpr (.inl ⟨c, List.getElem?_set_self hlt⟩)
  | spawn hc =>
    exact fun _ => Slot.covered_iff.mpr
      (.inr ⟨s.tasks.length, .spawned, List.getElem?_concat_length, rfl⟩)
  | unresolved hc => exact fun hbusy => ha hc hbusy
  | probe hc => exact fun hbusy => Slot.covered_setCall (hs hbusy) hc nofun _
  | insert hc | tidy hc =>
    intro hbusy
    refine Slot.covered_setCall ?_ hc nofun _
    exact (Slot.covered_congr rfl rfl).trans (hs hbusy)
  | stopIdle => exact hs
  | stop => exact nofun
  | task ht hstep => exact attended_task hs ha ht hstep

/-! ## Runs -/

theorem attended_of_reach {s : Slot} (h : Reach slot Accounted s) : Attended s := by
  refine h.invariant (I := Attended) ?_ fun s a t hs ha hstep => attended_step hs ha hstep
  rintro s rfl
  exact nofun

theorem not_stranded {s : Slot} (h : Reach slot Tidy s) : ¬ s.Stranded := by
  rintro ⟨hjob, hsettled, -, hbusy⟩
  obtain ⟨htracked, hmatched⟩ := matched_of_reach (h.mono fun _ _ => And.left)
  have hcovered := attended_of_reach (h.mono fun _ _ => And.right) hbusy
  obtain ⟨c, hc⟩ | ⟨i, t, ht, hengaged⟩ := Slot.covered_iff.mp hcovered
  · cases hsettled _ (List.mem_of_getElem? hc)
  · have hworking : s.isWorking i = true := by
      rw [Slot.isWorking_of_task ht]
      exact SyncTask.working_of_engaged hengaged
    rw [isWorking_iff_job htracked hmatched hsettled, hjob] at hworking
    cases hworking

/-- **No wallet is left with a busy phase** in every run whose steps are tidy. -/
theorem never_stranded {W : Type} [DecidableEq W] {s : W → Slot}
    (h : Reach (polled.family W) (onComponent (exceptPolls Tidy)) s) (w : W) :
    ¬ (s w).Stranded :=
  not_stranded (reach_of_polled (h.component w))

def stoppedSync : List PolledAction :=
  [PolledAction.slot .startSync] ++ List.replicate 4 (PolledAction.slot (.start 0 true)) ++
    [PolledAction.slot (.task 0 .next), .slot (.task 0 (.report .preparing)),
      .getProgress none 0 0 0, .slot (.task 0 (.goto .loop)), .slot .stopSync,
      .slot (.task 0 .next)]

theorem never_stranded_stoppedSync :
    ∃ s : ℕ → Slot, Reach (polled.family ℕ) (onComponent (exceptPolls Tidy)) s ∧
      (s 7).job = none ∧ (s 7).Settled ∧ (s 7).tasks = [⟨.dropped, true, none⟩] ∧
      ¬ (s 7).Stranded := by
  obtain ⟨t, ht, hjob, hsettled, htasks⟩ :
      ∃ t, Reach polled (exceptPolls Tidy) t ∧ t.job = none ∧ t.Settled ∧
        t.tasks = [⟨.dropped, true, none⟩] :=
    exec_reach stoppedSync rfl (by decide +kernel) (by decide +kernel)
  obtain ⟨s, hs, rfl⟩ := ht.family (7 : ℕ)
  exact ⟨s, hs, hjob, hsettled, htasks, never_stranded hs 7⟩

def unresolvedStart : List PolledAction :=
  [.slot .startSync, .slot (.start 0 true), .slot (.start 0 false)]

/-- The task is stopped between two awaits. -/
def lateUpdate : List PolledAction :=
  [PolledAction.slot .startSync] ++ List.replicate 4 (PolledAction.slot (.start 0 true)) ++
    [PolledAction.slot (.task 0 .next), .slot .stopSync, .slot (.task 0 (.report .preparing)),
      .slot (.task 0 (.goto .loop)), .slot (.task 0 .next)]

/-- **The phase `Preparing` is left behind** by a failed call, and by a stopped task. -/
theorem stranded_preparing :
    (∃ s, Reach polled Free s ∧ s.Stranded ∧ s.tasks = []) ∧
      ∃ s, Reach polled Free s ∧ s.Stranded ∧ s.tasks = [⟨.dropped, true, none⟩] :=
  ⟨exec_reach unresolvedStart rfl (along_free _ _) (by decide +kernel),
    exec_reach lateUpdate rfl (along_free _ _) (by decide +kernel)⟩

end ZbagSync
