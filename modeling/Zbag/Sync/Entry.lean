import Zbag.Sync.Service

/-!
# Sync — the jobs map and the tasks it stands for

`start_sync` checks the entry of its wallet, probes the handle of the task it has spawned and
inserts the entry in separate critical sections; the task clears the entry at its end, whichever
task's entry it is. Between calls the map has an entry exactly for the one living task, in every
run in which no section removes or replaces the entry of another living task and no task completes
unseen between its probe and its insertion.
-/

namespace ZbagSync

open Transition

/-! ## Entries and tasks -/

def SyncTask.alive (t : SyncTask) : Bool :=
  match t.pc with
  | .awaiting _ | .running _ | .holding | .joining => true
  | .cleared | .finished | .dropped => false

def SyncTask.working (t : SyncTask) : Bool := t.alive && !t.aborted

def StartPc.pending : StartPc → Option ℕ
  | .probing i | .inserting i _ => some i
  | _ => none

def StartPc.seenFinished : StartPc → Option ℕ
  | .inserting i true | .tidying i => some i
  | _ => none

def StartPc.hasReturned : StartPc → Bool
  | .returned _ => true
  | _ => false

namespace Slot

def isAlive (s : Slot) (i : ℕ) : Bool := s.tasks[i]?.any SyncTask.alive

def isWorking (s : Slot) (i : ℕ) : Bool := s.tasks[i]?.any SyncTask.working

def callAt (s : Slot) (f : StartPc → Option ℕ) (c : ℕ) : Option ℕ := s.calls[c]?.bind f

def Settled (s : Slot) : Prop := ∀ pc ∈ s.calls, pc.hasReturned = true

/-- At most one task works, and there is an entry exactly if one does. -/
def Consistent (s : Slot) : Prop :=
  s.tasks.countP SyncTask.working ≤ 1 ∧
    (s.job.isSome = true ↔ ∃ t ∈ s.tasks, t.working = true)

instance (s : Slot) : Decidable s.Settled := inferInstanceAs (Decidable (∀ pc ∈ s.calls, _))

instance (s : Slot) : Decidable s.Consistent := inferInstanceAs (Decidable (_ ∧ _))

def Spares (s : Slot) (i : ℕ) : Prop := ∀ j ∈ s.job, j ≠ i → s.isAlive j = false

instance (s : Slot) (i : ℕ) : Decidable (s.Spares i) :=
  inferInstanceAs (Decidable (∀ j ∈ s.job, _))

end Slot

/-- Other tasks are spared, and a task is alive when it is inserted, unless seen finished. -/
def Orderly (s : Slot) : SlotAction → Prop
  | .start c _ =>
    match s.calls[c]? with
    | some (.inserting i finished) => s.Spares i ∧ (finished = false → s.isAlive i = true)
    | some (.tidying i) => s.Spares i
    | _ => True
  | .task i .next => (s.tasks[i]?.map SyncTask.pc) = some (.running .cleanup) → s.Spares i
  | _ => True

instance (s : Slot) (a : SlotAction) : Decidable (Orderly s a) := by
  unfold Orderly
  repeat' split
  all_goals infer_instance

/-! ## What a step of a task does to its life -/

section TaskStep

variable {t t' : SyncTask} {move : TaskMove} {e : Effect}

theorem SyncTask.alive_of_step (h : t.step move = some (t', e)) (ht' : t'.alive = true) :
    t.alive = true := by
  cases moves_of_step h with
  | startScan | endScan => exact ht'
  | clear | finish | dropAwaiting | dropJoining => cases ht'
  | _ => rfl

theorem SyncTask.clear_of_step (h : t.step move = some (t', e)) (hw : t.working = true)
    (ht' : t'.alive = false) : e = .clear := by
  cases moves_of_step h with
  | clear => rfl
  | finish | dropAwaiting | dropJoining => cases hw
  | startScan | endScan =>
    rw [working, Bool.and_eq_true] at hw
    exact absurd (ht'.symm.trans hw.1) Bool.false_ne_true
  | _ => cases ht'

theorem SyncTask.of_clear (h : t.step move = some (t', .clear)) :
    t.pc = .running .cleanup ∧ move = .next ∧ t'.alive = false := by
  cases moves_of_step h with
  | clear => exact ⟨rfl, rfl, rfl⟩

theorem SyncTask.working_of_step (h : t.step move = some (t', e)) (ht' : t'.working = true) :
    t.working = true := by
  simp only [working, Bool.and_eq_true] at ht' ⊢
  exact ⟨alive_of_step h ht'.1, aborted_of_step h ▸ ht'.2⟩

end TaskStep

namespace Slot

variable {s : Slot} {c i : ℕ}

theorem callAt_of_call {f : StartPc → Option ℕ} {pc : StartPc} (hc : s.calls[c]? = some pc) :
    s.callAt f c = f pc := by
  rw [callAt, hc, Option.bind_some]

theorem callAt_setCall {pc pc' : StartPc} (f : StartPc → Option ℕ) (hc : s.calls[c]? = some pc)
    (d : ℕ) : (s.setCall c pc').callAt f d = if c = d then f pc' else s.callAt f d := by
  have hlt : c < s.calls.length := (List.getElem?_eq_some_iff.mp hc).1
  unfold callAt
  rw [setCall_calls, List.getElem?_set]
  split_ifs
  · rfl
  · rfl

theorem isWorking_iff : s.isWorking i = true ↔ ∃ t, s.tasks[i]? = some t ∧ t.working = true :=
  Option.any_eq_true ..

theorem isAlive_of_isWorking (h : s.isWorking i = true) : s.isAlive i = true := by
  obtain ⟨t, ht, hw⟩ := isWorking_iff.mp h
  rw [SyncTask.working, Bool.and_eq_true] at hw
  rw [isAlive, ht]
  exact hw.1

theorem isAlive_of_task {t : SyncTask} (ht : s.tasks[i]? = some t) : s.isAlive i = t.alive := by
  rw [isAlive, ht]
  rfl

theorem isWorking_of_task {t : SyncTask} (ht : s.tasks[i]? = some t) :
    s.isWorking i = t.working := by
  rw [isWorking, ht]
  rfl

theorem getElem?_setTask {t : SyncTask} (ht : s.tasks[i]? = some t) (t' : SyncTask) (j : ℕ) :
    (s.setTask i t').tasks[j]? = if i = j then some t' else s.tasks[j]? := by
  have hlt := (List.getElem?_eq_some_iff.mp ht).1
  rw [setTask_tasks, List.getElem?_set]
  split_ifs
  · rfl
  · rfl

theorem isAlive_setTask {t : SyncTask} (ht : s.tasks[i]? = some t) (t' : SyncTask) (j : ℕ) :
    (s.setTask i t').isAlive j = if i = j then t'.alive else s.isAlive j := by
  rw [isAlive, getElem?_setTask ht]
  split_ifs
  · rfl
  · rfl

theorem isWorking_setTask {t : SyncTask} (ht : s.tasks[i]? = some t) (t' : SyncTask) (j : ℕ) :
    (s.setTask i t').isWorking j = if i = j then t'.working else s.isWorking j := by
  rw [isWorking, getElem?_setTask ht]
  split_ifs
  · rfl
  · rfl

theorem isWorking_stop (s : Slot) (i j : ℕ) :
    ({ s with job := none, phase := .idle, tasks := s.tasks.modify i SyncTask.abort } :
      Slot).isWorking j = if i = j then false else s.isWorking j := by
  unfold isWorking
  split_ifs with hij
  · subst hij
    rw [List.getElem?_modify_eq]
    cases s.tasks[i]? with
    | none => rfl
    | some t => simp [SyncTask.working, SyncTask.abort]
  · rw [List.getElem?_modify_ne _ _ hij]

end Slot

/-! ## Entries and pending calls -/

/-- Every call inserts a task of its own, which is not aborted. -/
structure Tracked (s : Slot) : Prop where
  job : ∀ i, s.job = some i → ∃ t, s.tasks[i]? = some t ∧ t.aborted = false
  pending : ∀ c i, s.callAt StartPc.pending c = some i →
    s.job ≠ some i ∧ ∃ t, s.tasks[i]? = some t ∧ t.aborted = false
  pending_inj : ∀ c d i, s.callAt StartPc.pending c = some i →
    s.callAt StartPc.pending d = some i → c = d
  seen : ∀ c i, s.callAt StartPc.seenFinished c = some i →
    ∃ t, s.tasks[i]? = some t ∧ t.alive = false

namespace Tracked

variable {s s' : Slot} {c i : ℕ}

theorem of_le (h : Tracked s) (ht : s'.tasks = s.tasks)
    (hc : ∀ f : StartPc → Option ℕ, f .requested = none → ∀ d, s'.callAt f d = s.callAt f d)
    (hj : ∀ i, s'.job = some i → s.job = some i) : Tracked s' := by
  have hpend := hc StartPc.pending rfl
  have hseen := hc StartPc.seenFinished rfl
  constructor
  · intro i hi
    rw [ht]
    exact h.job i (hj i hi)
  · intro c i hi
    rw [hpend] at hi
    rw [ht]
    exact ⟨fun hi' => (h.pending c i hi).1 (hj i hi'), (h.pending c i hi).2⟩
  · intro c d i hi hd
    rw [hpend] at hi hd
    exact h.pending_inj c d i hi hd
  · intro c i hi
    rw [hseen] at hi
    rw [ht]
    exact h.seen c i hi

theorem setCall {pc pc' : StartPc} (h : Tracked s) (hc : s.calls[c]? = some pc)
    (hpend : ∀ i, pc'.pending = some i →
      (s.job ≠ some i ∧ ∃ t, s.tasks[i]? = some t ∧ t.aborted = false) ∧
        ∀ d, s.callAt StartPc.pending d = some i → d = c)
    (hseen : ∀ i, pc'.seenFinished = some i → ∃ t, s.tasks[i]? = some t ∧ t.alive = false) :
    Tracked (s.setCall c pc') := by
  constructor
  · exact h.job
  · intro d i hd
    rw [Slot.callAt_setCall _ hc] at hd
    split_ifs at hd
    · exact (hpend i hd).1
    · exact h.pending d i hd
  · intro d e i hd he
    rw [Slot.callAt_setCall _ hc] at hd he
    split_ifs at hd he with hcd hce hce
    · exact hcd.symm.trans hce
    · exact hcd.symm.trans ((hpend i hd).2 e he).symm
    · exact ((hpend i he).2 d hd).trans hce
    · exact h.pending_inj d e i hd he
  · intro d i hd
    rw [Slot.callAt_setCall _ hc] at hd
    split_ifs at hd
    · exact hseen i hd
    · exact h.seen d i hd

theorem insert (h : Tracked s) (ht : ∃ t, s.tasks[i]? = some t ∧ t.aborted = false)
    (hp : ∀ c, s.callAt StartPc.pending c ≠ some i) : Tracked { s with job := some i } := by
  constructor
  · intro j hj
    cases hj
    exact ht
  · intro c j hj
    refine ⟨fun hi => hp c ?_, (h.pending c j hj).2⟩
    cases hi
    exact hj
  · exact h.pending_inj
  · exact h.seen

theorem of_tasks {tasks : List SyncTask} (h : Tracked s)
    (hab : ∀ (i : ℕ) (t : SyncTask), s.tasks[i]? = some t → t.aborted = false →
      ∃ t', tasks[i]? = some t' ∧ t'.aborted = false)
    (hdead : ∀ (i : ℕ) (t : SyncTask), s.tasks[i]? = some t → t.alive = false →
      ∃ t', tasks[i]? = some t' ∧ t'.alive = false) : Tracked { s with tasks := tasks } := by
  constructor
  · intro i hi
    obtain ⟨t, ht, ha⟩ := h.job i hi
    exact hab i t ht ha
  · intro c i hi
    obtain ⟨hne, t, ht, ha⟩ := h.pending c i hi
    exact ⟨hne, hab i t ht ha⟩
  · exact h.pending_inj
  · intro c i hi
    obtain ⟨t, ht, ha⟩ := h.seen c i hi
    exact hdead i t ht ha

theorem spawn (h : Tracked s) (hc : s.calls[c]? = some .resolving) :
    Tracked ({ s with tasks := s.tasks ++ [SyncTask.spawned] }.setCall c
      (.probing s.tasks.length)) := by
  have hold : ∀ (i : ℕ) (t : SyncTask), s.tasks[i]? = some t →
      (s.tasks ++ [SyncTask.spawned])[i]? = some t := by
    intro i t ht
    rw [List.getElem?_append_left (List.getElem?_eq_some_iff.mp ht).1, ht]
  have hfresh : ∀ t, s.tasks[s.tasks.length]? ≠ some t := by simp
  have hs : Tracked { s with tasks := s.tasks ++ [SyncTask.spawned] } :=
    h.of_tasks (fun i t ht ha => ⟨t, hold i t ht, ha⟩) (fun i t ht ha => ⟨t, hold i t ht, ha⟩)
  refine hs.setCall hc ?_ nofun
  intro i hi
  obtain rfl : s.tasks.length = i := Option.some.inj hi
  refine ⟨⟨fun hj => ?_, .spawned, by simp, rfl⟩, fun d hd => ?_⟩
  · obtain ⟨t, ht, -⟩ := h.job _ hj
    exact absurd ht (hfresh t)
  · obtain ⟨-, t, ht, -⟩ := h.pending d _ hd
    exact absurd ht (hfresh t)

theorem clear (h : Tracked s) : Tracked { s with job := none } :=
  h.of_le rfl (fun _ _ _ => rfl) nofun

theorem stop (h : Tracked s) (hj : s.job = some i) :
    Tracked { s with job := none, phase := .idle, tasks := s.tasks.modify i SyncTask.abort } := by
  constructor
  · intro j hj
    cases hj
  · intro c j hc
    obtain ⟨hne, t, ht, ha⟩ := h.pending c j hc
    have hij : i ≠ j := fun hij => hne (hij ▸ hj)
    exact ⟨nofun, t, (List.getElem?_modify_ne _ _ hij).trans ht, ha⟩
  · exact h.pending_inj
  · intro c j hc
    obtain ⟨t, ht, hdead⟩ := h.seen c j hc
    rcases eq_or_ne i j with rfl | hij
    · exact ⟨t.abort, by simp [ht], hdead⟩
    · exact ⟨t, (List.getElem?_modify_ne _ _ hij).trans ht, hdead⟩

theorem task {t t' : SyncTask} {move : TaskMove} {e : Effect} (h : Tracked s)
    (ht : s.tasks[i]? = some t) (hstep : t.step move = some (t', e)) :
    Tracked ((s.setTask i t').apply e) := by
  have hlt : i < s.tasks.length := (List.getElem?_eq_some_iff.mp ht).1
  have hother : ∀ (j : ℕ) (u : SyncTask), s.tasks[j]? = some u →
      (s.tasks.set i t')[j]? = some (if i = j then t' else u) := by
    intro j u hu
    rw [List.getElem?_set]
    split_ifs <;> simp_all
  have hs : Tracked (s.setTask i t') := by
    refine h.of_tasks (fun j u hu ha => ⟨_, hother j u hu, ?_⟩)
      (fun j u hu ha => ⟨_, hother j u hu, ?_⟩)
    · split_ifs with hij
      · subst hij
        obtain rfl := Option.some.inj (ht.symm.trans hu)
        rw [SyncTask.aborted_of_step hstep, ha]
      · exact ha
    · split_ifs with hij
      · subst hij
        obtain rfl := Option.some.inj (ht.symm.trans hu)
        exact Bool.eq_false_iff.mpr fun ht' =>
          Bool.eq_false_iff.mp ha (SyncTask.alive_of_step hstep ht')
      · exact ha
  refine hs.of_le (Slot.apply_tasks ..) (fun f _ d => by rw [Slot.callAt, Slot.apply_calls]; rfl) ?_
  intro j hj
  rw [Slot.apply_job] at hj
  split_ifs at hj
  exact hj

end Tracked

variable {s : Slot} {a : SlotAction} {i : ℕ}

theorem tracked_step {s' : Slot} (h : Tracked s) (hst : slot.step s a = some s') : Tracked s' := by
  cases step_cases hst with
  | request =>
    refine h.of_le rfl (fun f hf d => ?_) fun _ hj => hj
    unfold Slot.callAt
    grind
  | refuse hc | unresolved hc =>
    exact h.setCall hc nofun nofun
  | accept hc =>
    have hs : Tracked { s with phase := .preparing } := h.of_le rfl (fun _ _ _ => rfl) fun _ => id
    exact hs.setCall hc nofun nofun
  | spawn hc => exact h.spawn hc
  | @probe c i resolved hc =>
    have hpend : s.callAt StartPc.pending c = some i := Slot.callAt_of_call hc
    refine h.setCall hc (fun j hj => ?_) (fun j hj => ?_)
    · obtain rfl : i = j := Option.some.inj hj
      exact ⟨h.pending c i hpend, fun d hd => h.pending_inj d c i hd hpend⟩
    · obtain ⟨-, t, ht, -⟩ := h.pending c i hpend
      have hfin : s.isFinished i = t.isFinished := by simp [Slot.isFinished, ht]
      rw [hfin] at hj
      cases hf : t.isFinished with
      | false =>
        rw [hf] at hj
        cases hj
      | true =>
        rw [hf] at hj
        obtain rfl : i = j := Option.some.inj hj
        refine ⟨t, ht, ?_⟩
        unfold SyncTask.isFinished at hf
        unfold SyncTask.alive
        grind
  | @insert c i resolved finished hc =>
    have hpend : s.callAt StartPc.pending c = some i := Slot.callAt_of_call hc
    have hs : Tracked (s.setCall c (if finished then .tidying i else .returned none)) := by
      refine h.setCall hc (fun j hj => ?_) (fun j hj => ?_)
      · cases finished <;> cases hj
      · refine h.seen c j ?_
        rw [Slot.callAt_of_call hc]
        cases finished with
        | false => cases hj
        | true => exact hj
    refine hs.insert (h.pending c i hpend).2 fun d hd => ?_
    rw [Slot.callAt_setCall _ hc] at hd
    by_cases hcd : c = d
    · rw [if_pos hcd] at hd
      cases finished <;> cases hd
    · rw [if_neg hcd] at hd
      exact hcd (h.pending_inj c d i hpend hd)
  | tidy hc => exact h.clear.setCall hc nofun nofun
  | stopIdle => exact h
  | stop hj => exact h.stop hj
  | task ht hstep => exact h.task ht hstep

theorem tracked_of_reach {G : Slot → SlotAction → Prop} (h : Reach slot G s) : Tracked s := by
  refine h.invariant ?_ fun s a t hs _ hst => tracked_step hs hst
  rintro s rfl
  constructor <;> intros <;> simp_all [Slot.initial, Slot.callAt]

/-! ## Orderly runs -/

/-- Every working task has the entry or is still to get it, and the entry is that of a living task.
-/
structure Matched (s : Slot) : Prop where
  working : ∀ i, s.isWorking i = true →
    s.job = some i ∨ ∃ c, s.callAt StartPc.pending c = some i
  entry : ∀ i, s.job = some i →
    s.isAlive i = true ∨ ∃ c, s.callAt StartPc.seenFinished c = some i

namespace Matched

variable {s s' : Slot} {c i : ℕ}

theorem of_calls (h : Matched s) (ht : s'.tasks = s.tasks) (hj : s'.job = s.job)
    (hp : ∀ c i, s.callAt StartPc.pending c = some i → s'.callAt StartPc.pending c = some i)
    (hs : ∀ c i, s.callAt StartPc.seenFinished c = some i →
      s'.callAt StartPc.seenFinished c = some i) : Matched s' := by
  constructor
  · intro i hi
    rw [Slot.isWorking, ht] at hi
    rcases h.working i hi with hi | ⟨c, hc⟩
    · exact .inl (hj ▸ hi)
    · exact .inr ⟨c, hp c i hc⟩
  · intro i hi
    rw [hj] at hi
    rcases h.entry i hi with hi | ⟨c, hc⟩
    · exact .inl (by rwa [Slot.isAlive, ht])
    · exact .inr ⟨c, hs c i hc⟩

theorem setCall {pc pc' : StartPc} (h : Matched s) (hc : s.calls[c]? = some pc)
    (hp : ∀ i, pc.pending = some i → pc'.pending = some i)
    (hs : ∀ i, pc.seenFinished = some i → pc'.seenFinished = some i) :
    Matched (s.setCall c pc') := by
  have hkeep : ∀ f : StartPc → Option ℕ, (∀ i, f pc = some i → f pc' = some i) →
      ∀ d i, s.callAt f d = some i → (s.setCall c pc').callAt f d = some i := by
    intro f hf d i hd
    rw [Slot.callAt_setCall f hc]
    split_ifs with hcd
    · subst hcd
      rw [Slot.callAt_of_call hc] at hd
      exact hf i hd
    · exact hd
  exact h.of_calls rfl rfl (hkeep _ hp) (hkeep _ hs)

theorem spawn (h : Matched s) (htr : Tracked s) (hc : s.calls[c]? = some .resolving) :
    Matched ({ s with tasks := s.tasks ++ [SyncTask.spawned] }.setCall c
      (.probing s.tasks.length)) := by
  have hs : Matched (s.setCall c (.probing s.tasks.length)) :=
    h.setCall hc nofun nofun
  constructor
  · intro i hi
    obtain ⟨t, ht, hw⟩ := Slot.isWorking_iff.mp hi
    rcases Nat.lt_trichotomy i s.tasks.length with hlt | rfl | hgt
    · refine hs.working i (Slot.isWorking_iff.mpr ⟨t, ?_, hw⟩)
      exact (List.getElem?_append_left hlt).symm.trans ht
    · refine .inr ⟨c, ?_⟩
      exact (Slot.callAt_setCall (s := { s with tasks := _ }) _ hc c).trans (if_pos rfl)
    · have hlen := (List.getElem?_eq_some_iff.mp ht).1
      simp only [Slot.setCall_tasks, List.length_append, List.length_singleton] at hlen
      omega
  · intro i hi
    obtain ⟨t, ht, -⟩ := htr.job i hi
    have hlt := (List.getElem?_eq_some_iff.mp ht).1
    refine (hs.entry i hi).imp_left fun halive => ?_
    change s.isAlive i = true at halive
    rw [Slot.isAlive_of_task ht] at halive
    exact (Slot.isAlive_of_task ((List.getElem?_append_left hlt).trans ht)).trans halive

theorem insert {finished : Bool} (h : Matched s) (hc : s.calls[c]? = some (.inserting i finished))
    (hspare : s.Spares i) (halive : finished = false → s.isAlive i = true) :
    Matched ({ s with job := some i }.setCall c
      (if finished then .tidying i else .returned none)) := by
  constructor
  · intro j hj
    change s.isWorking j = true at hj
    by_cases hij : i = j
    · exact .inl (congrArg some hij)
    rcases h.working j hj with hjob | ⟨d, hd⟩
    · have hdead := hspare j hjob (Ne.symm hij)
      rw [Slot.isAlive_of_isWorking hj] at hdead
      cases hdead
    · refine .inr ⟨d, ?_⟩
      have hcd : c ≠ d := by
        rintro rfl
        rw [Slot.callAt_of_call hc] at hd
        exact hij (Option.some.inj hd)
      rw [Slot.callAt_setCall (s := { s with job := some i }) _ hc, if_neg hcd]
      exact hd
  · intro j hj
    obtain rfl : i = j := Option.some.inj hj
    cases finished with
    | false => exact .inl (halive rfl)
    | true =>
      refine .inr ⟨c, ?_⟩
      rw [Slot.callAt_setCall (s := { s with job := some i }) _ hc, if_pos rfl]
      rfl

theorem of_noEntry (h : Matched s) (hnone : s'.job = none)
    (hw : ∀ j, s'.isWorking j = true → s.isWorking j = true ∧ s.job ≠ some j)
    (hp : ∀ c j, s.callAt StartPc.pending c = some j → s'.callAt StartPc.pending c = some j) :
    Matched s' := by
  constructor
  · intro j hj
    obtain ⟨hjs, hne⟩ := hw j hj
    obtain ⟨c, hc⟩ := (h.working j hjs).resolve_left hne
    exact .inr ⟨c, hp c j hc⟩
  · intro j hj
    rw [hnone] at hj
    cases hj

theorem of_tasks {tasks : List SyncTask} (h : Matched s)
    (hw : ∀ i, ({ s with tasks := tasks } : Slot).isWorking i = true → s.isWorking i = true)
    (ha : ∀ i, s.job = some i → s.isAlive i = true →
      ({ s with tasks := tasks } : Slot).isAlive i = true) : Matched { s with tasks := tasks } := by
  constructor
  · exact fun i hi => h.working i (hw i hi)
  · exact fun i hi => (h.entry i hi).imp_left (ha i hi)

variable {t t' : SyncTask} {move : TaskMove}

theorem working_back {e : Effect} {j : ℕ} (ht : s.tasks[i]? = some t)
    (hstep : t.step move = some (t', e)) (hj : (s.setTask i t').isWorking j = true) :
    s.isWorking j = true := by
  rw [Slot.isWorking_setTask ht] at hj
  split_ifs at hj with hij
  · subst hij
    rw [Slot.isWorking_of_task ht]
    exact SyncTask.working_of_step hstep hj
  · exact hj

theorem task {e : Effect} (h : Matched s) (htr : Tracked s) (ht : s.tasks[i]? = some t)
    (hstep : t.step move = some (t', e)) (he : e ≠ .clear) :
    Matched (s.setTask i t') := by
  refine h.of_tasks (fun j hj => ?_) fun j hj halive => ?_
  · exact working_back ht hstep hj
  · change (s.setTask i t').isAlive j = true
    rw [Slot.isAlive_setTask ht]
    split_ifs with hij
    · subst hij
      rw [Slot.isAlive_of_task ht] at halive
      obtain ⟨u, hu, hab⟩ := htr.job i hj
      obtain rfl := Option.some.inj (ht.symm.trans hu)
      have hw : t.working = true := by rw [SyncTask.working, halive, hab]; rfl
      by_contra hdead
      exact he (SyncTask.clear_of_step hstep hw (Bool.eq_false_iff.mpr hdead))
    · exact halive

theorem finish (h : Matched s) (ht : s.tasks[i]? = some t) (hstep : t.step move = some (t', .clear))
    (hspare : s.Spares i) :
    Matched ((s.setTask i t').apply .clear) := by
  refine h.of_noEntry rfl (fun j hj => ?_) (fun _ _ hp => hp)
  change (s.setTask i t').isWorking j = true at hj
  have hw := working_back ht hstep hj
  refine ⟨hw, fun hjob => ?_⟩
  have halive := Slot.isAlive_of_isWorking hw
  rcases eq_or_ne i j with rfl | hij
  · rw [Slot.isWorking_setTask ht, if_pos rfl, SyncTask.working,
      (SyncTask.of_clear hstep).2.2] at hj
    cases hj
  · rw [hspare j hjob hij.symm] at halive
    cases halive

end Matched

theorem matched_step {s' : Slot} (htr : Tracked s) (h : Matched s) (ha : Orderly s a)
    (hst : slot.step s a = some s') : Matched s' := by
  cases step_cases hst with
  | request =>
    have hsame : ∀ f : StartPc → Option ℕ, f .requested = none → ∀ d,
        ({ s with calls := s.calls ++ [.requested] } : Slot).callAt f d = s.callAt f d := by
      intro f hf d
      unfold Slot.callAt
      grind
    exact h.of_calls rfl rfl (fun c i hc => (hsame _ rfl c).trans hc)
      (fun c i hc => (hsame _ rfl c).trans hc)
  | refuse hc | unresolved hc =>
    exact h.setCall hc nofun nofun
  | accept hc =>
    have hs : Matched { s with phase := .preparing } :=
      h.of_calls rfl rfl (fun _ _ => id) (fun _ _ => id)
    exact hs.setCall hc nofun nofun
  | spawn hc => exact h.spawn htr hc
  | probe hc => exact h.setCall hc (fun i hi => hi) nofun
  | @insert c i resolved finished hc =>
    simp only [Orderly, hc] at ha
    exact h.insert hc ha.1 ha.2
  | @tidy c i resolved hc =>
    simp only [Orderly, hc] at ha
    obtain ⟨t, ht, hdead⟩ := htr.seen c i (Slot.callAt_of_call hc)
    refine h.of_noEntry rfl (fun j hj => ⟨hj, fun hjob => ?_⟩) (fun d j hd => ?_)
    · have halive : s.isAlive j = true := Slot.isAlive_of_isWorking hj
      rcases eq_or_ne j i with rfl | hij
      · rw [Slot.isAlive_of_task ht, hdead] at halive
        cases halive
      · rw [ha j hjob hij] at halive
        cases halive
    · have hcd : c ≠ d := by
        rintro rfl
        rw [Slot.callAt_of_call hc] at hd
        cases hd
      rw [Slot.callAt_setCall (s := { s with job := none }) _ hc, if_neg hcd]
      exact hd
  | stopIdle => exact h
  | @stop i hj =>
    refine h.of_noEntry rfl (fun j hw => ?_) (fun _ _ hp => hp)
    rw [Slot.isWorking_stop] at hw
    split_ifs at hw with hij
    exact ⟨hw, fun hj' => hij (Option.some.inj (hj.symm.trans hj'))⟩
  | @task i move t t' e ht hstep =>
    by_cases he : e = .clear
    · subst he
      obtain ⟨hpc, rfl, -⟩ := SyncTask.of_clear hstep
      exact h.finish ht hstep (ha (by rw [ht, Option.map_some, hpc]))
    · refine (h.task htr ht hstep he).of_calls (Slot.apply_tasks ..) ?_ ?_ ?_
      · rw [Slot.apply_job, if_neg he]
      · intro c j hc
        rwa [Slot.callAt, Slot.apply_calls]
      · intro c j hc
        rwa [Slot.callAt, Slot.apply_calls]

theorem matched_of_reach (h : Reach slot Orderly s) : Tracked s ∧ Matched s := by
  refine h.invariant (I := fun s => Tracked s ∧ Matched s) ?_ fun s a t hs ha hst =>
    ⟨tracked_step hs.1 hst, matched_step hs.1 hs.2 ha hst⟩
  rintro s rfl
  refine ⟨tracked_of_reach (G := Free) (.of_init rfl), ?_, ?_⟩
  · simp [Slot.initial, Slot.isWorking]
  · simp [Slot.initial]

/-! ## Between calls -/

theorem Slot.Settled.callAt (h : s.Settled) {f : StartPc → Option ℕ}
    (hf : ∀ error, f (.returned error) = none) (c : ℕ) : s.callAt f c = none := by
  unfold Slot.callAt
  cases hc : s.calls[c]? with
  | none => rfl
  | some pc =>
    have hret := h pc (List.mem_of_getElem? hc)
    cases pc with
    | returned error => exact hf error
    | requested | resolving | probing | inserting | tidying => cases hret

theorem isWorking_iff_job (htr : Tracked s) (h : Matched s) (hs : s.Settled) (i : ℕ) :
    s.isWorking i = true ↔ s.job = some i := by
  constructor
  · intro hw
    refine (h.working i hw).resolve_right ?_
    rintro ⟨c, hc⟩
    rw [hs.callAt (fun _ => rfl)] at hc
    cases hc
  · intro hj
    have halive := (h.entry i hj).resolve_right (by
      rintro ⟨c, hc⟩
      rw [hs.callAt (fun _ => rfl)] at hc
      cases hc)
    obtain ⟨t, ht, hab⟩ := htr.job i hj
    rw [Slot.isAlive_of_task ht] at halive
    rw [Slot.isWorking_of_task ht, SyncTask.working, halive, hab]
    rfl

theorem exists_working_iff : (∃ t ∈ s.tasks, t.working = true) ↔ ∃ i, s.isWorking i = true := by
  constructor
  · rintro ⟨t, ht, hw⟩
    obtain ⟨i, hi⟩ := List.mem_iff_getElem?.mp ht
    exact ⟨i, Slot.isWorking_iff.mpr ⟨t, hi, hw⟩⟩
  · rintro ⟨i, hi⟩
    obtain ⟨t, ht, hw⟩ := Slot.isWorking_iff.mp hi
    exact ⟨t, List.mem_of_getElem? ht, hw⟩

theorem consistent_of_matched (htr : Tracked s) (h : Matched s) (hs : s.Settled) :
    s.Consistent := by
  have hiff := isWorking_iff_job htr h hs
  constructor
  · refine Table.countP_le_one fun i j a b hi hj ha hb => ?_
    have hi' := (hiff i).mp (Slot.isWorking_iff.mpr ⟨a, hi, ha⟩)
    have hj' := (hiff j).mp (Slot.isWorking_iff.mpr ⟨b, hj, hb⟩)
    exact Option.some.inj (hi'.symm.trans hj')
  · rw [exists_working_iff, Option.isSome_iff_exists]
    exact exists_congr fun i => (hiff i).symm

/-! ## Why the condition is needed -/

/-- The entry it leaves is the old one, none, or that of its task. -/
def Finishes (s : Slot) (c : ℕ) (pc : StartPc) : Prop :=
  ∃ s' error, Path slot Free s s' ∧ s'.tasks = s.tasks ∧
    s'.calls = s.calls.set c (.returned error) ∧
    ∀ i, s'.job = some i → s.job = some i ∨ pc.pending = some i

section Finishes

variable {s s₁ : Slot} {c : ℕ} {pc pc₁ : StartPc}

theorem finishes_returned {error : Option StartError}
    (hc : s.calls[c]? = some (.returned error)) : Finishes s c (.returned error) := by
  obtain ⟨hlt, hget⟩ := List.getElem?_eq_some_iff.mp hc
  exact ⟨s, error, .refl, rfl, by rw [← hget, List.set_getElem_self], fun _ => .inl⟩

theorem Finishes.of_step {resolved : Bool} (h : Finishes s₁ c pc₁)
    (hst : slot.step s (.start c resolved) = some s₁) (ht : s₁.tasks = s.tasks)
    (hcalls : s₁.calls = s.calls.set c pc₁)
    (hj : ∀ i, s₁.job = some i → s.job = some i ∨ pc.pending = some i)
    (hp : ∀ i, pc₁.pending = some i → pc.pending = some i) : Finishes s c pc := by
  obtain ⟨s', error, hpath, ht', hcalls', hj'⟩ := h
  refine ⟨s', error, (Path.single trivial hst).trans hpath, ht'.trans ht, ?_, fun i hi => ?_⟩
  · rw [hcalls', hcalls, List.set_set]
  · exact (hj' i hi).elim (hj i) fun hi => .inr (hp i hi)

theorem getElem?_setCall (hc : s.calls[c]? = some pc) (pc' : StartPc) :
    (s.setCall c pc').calls[c]? = some pc' := by
  have hlt := (List.getElem?_eq_some_iff.mp hc).1
  simp [hlt]

theorem finishes_tidying {i : ℕ} (hc : s.calls[c]? = some (.tidying i)) :
    Finishes s c (.tidying i) := by
  have hst : slot.step s (.start c true) = some ({ s with job := none }.setCall c
      (.returned none)) := by
    simp [slot, Slot.step, Slot.startStep, hc]
  have hrest := finishes_returned (s := { s with job := none }.setCall c (.returned none))
    (getElem?_setCall (s := { s with job := none }) hc _)
  exact hrest.of_step hst rfl rfl (fun _ hi => by cases hi) (fun _ hi => by cases hi)

theorem finishes_inserting {i : ℕ} {finished : Bool}
    (hc : s.calls[c]? = some (.inserting i finished)) : Finishes s c (.inserting i finished) := by
  have hst : slot.step s (.start c true) = some ({ s with job := some i }.setCall c
      (if finished then .tidying i else .returned none)) := by
    simp [slot, Slot.step, Slot.startStep, hc]
  have hc₁ := getElem?_setCall (s := { s with job := some i }) hc
    (if finished then .tidying i else .returned none)
  cases finished with
  | false =>
    exact (finishes_returned hc₁).of_step hst rfl rfl (fun _ hi => .inr hi)
      (fun _ hi => by cases hi)
  | true =>
    exact (finishes_tidying hc₁).of_step hst rfl rfl (fun _ hi => .inr hi)
      (fun _ hi => by cases hi)

theorem finishes_resolving (hc : s.calls[c]? = some .resolving) : Finishes s c .resolving := by
  have hst : slot.step s (.start c false) =
      some (s.setCall c (.returned (some .unresolvedEndpoint))) := by
    simp [slot, Slot.step, Slot.startStep, hc]
  exact (finishes_returned (getElem?_setCall hc _)).of_step hst rfl rfl (fun _ => .inl)
    (fun _ hi => by cases hi)

theorem finishes (hc : s.calls[c]? = some pc) : Finishes s c pc := by
  cases pc with
  | returned error => exact finishes_returned hc
  | tidying i => exact finishes_tidying hc
  | inserting i finished => exact finishes_inserting hc
  | resolving => exact finishes_resolving hc
  | probing i =>
    have hst : slot.step s (.start c true) =
        some (s.setCall c (.inserting i (s.isFinished i))) := by
      simp [slot, Slot.step, Slot.startStep, hc]
    exact (finishes_inserting (getElem?_setCall hc _)).of_step hst rfl rfl (fun _ => .inl)
      (fun _ hi => hi)
  | requested =>
    cases hr : s.refuses with
    | true =>
      have hst : slot.step s (.start c true) =
          some (s.setCall c (.returned (some .syncInProgress))) := by
        simp [slot, Slot.step, Slot.startStep, hc, hr]
      exact (finishes_returned (getElem?_setCall hc _)).of_step hst rfl rfl (fun _ => .inl)
        (fun _ hi => by cases hi)
    | false =>
      have hst : slot.step s (.start c true) =
          some ({ s with phase := .preparing }.setCall c .resolving) := by
        simp [slot, Slot.step, Slot.startStep, hc, hr]
      have hc₁ := getElem?_setCall (s := { s with phase := .preparing }) hc .resolving
      exact (finishes_resolving hc₁).of_step hst rfl rfl (fun _ => .inl) (fun _ hi => by cases hi)

end Finishes

theorem settle_others (s : Slot) (keep : ℕ → Prop) :
    ∃ s', Path slot Free s s' ∧ s'.tasks = s.tasks ∧
      (∀ d pc, s'.calls[d]? = some pc → keep d ∨ pc.hasReturned = true) ∧
      (∀ d, keep d → s'.calls[d]? = s.calls[d]?) ∧
      ∀ i, s'.job = some i → s.job = some i ∨ ∃ d, s.callAt StartPc.pending d = some i := by
  -- by induction on the number of calls looked at so far
  have hupto : ∀ n, ∃ s', Path slot Free s s' ∧ s'.tasks = s.tasks ∧
      (∀ d pc, d < n → s'.calls[d]? = some pc → keep d ∨ pc.hasReturned = true) ∧
      (∀ d, n ≤ d ∨ keep d → s'.calls[d]? = s.calls[d]?) ∧
      ∀ i, s'.job = some i → s.job = some i ∨ ∃ d, s.callAt StartPc.pending d = some i := by
    intro n
    induction n with
    | zero => exact ⟨s, .refl, rfl, fun _ _ h => by omega, fun _ _ => rfl, fun _ => .inl⟩
    | succ n ih =>
      obtain ⟨s₁, hpath, htasks, hret, hsame, hjob⟩ := ih
      by_cases hstay : keep n ∨ s₁.calls[n]? = none
      · refine ⟨s₁, hpath, htasks, fun d pc hd hpc => ?_, fun d hd => hsame d ?_, hjob⟩
        · rcases Nat.lt_succ_iff_lt_or_eq.mp hd with hd | rfl
          · exact hret d pc hd hpc
          · exact hstay.imp_right fun hnone => by rw [hnone] at hpc; cases hpc
        · exact hd.imp_left fun hd => by omega
      · obtain ⟨hkeep, hcall⟩ := not_or.mp hstay
        obtain ⟨pc, hpc⟩ := Option.ne_none_iff_exists'.mp hcall
        obtain ⟨s₂, error, hpath₂, htasks₂, hcalls₂, hjob₂⟩ := finishes hpc
        refine ⟨s₂, hpath.trans hpath₂, htasks₂.trans htasks, fun d pc' hd hpc' => ?_,
          fun d hd => ?_, fun i hi => ?_⟩
        · rw [hcalls₂, List.getElem?_set] at hpc'
          split_ifs at hpc' with hnd
          · obtain rfl := Option.some.inj hpc'
            exact .inr rfl
          · exact hret d pc' (by omega) hpc'
        · have hnd : n ≠ d := by
            rintro rfl
            exact hd.elim (by omega) hkeep
          rw [hcalls₂, List.getElem?_set_ne hnd]
          exact hsame d (hd.imp_left fun hd => by omega)
        · rcases hjob₂ i hi with hi | hi
          · exact hjob i hi
          · refine .inr ⟨n, ?_⟩
            rw [hsame n (.inl (Nat.le_refl n))] at hpc
            rw [Slot.callAt_of_call hpc, hi]
  obtain ⟨s', hpath, htasks, hret, hsame, hjob⟩ := hupto s.calls.length
  refine ⟨s', hpath, htasks, fun d pc hpc => ?_, fun d hd => hsame d (.inr hd), hjob⟩
  by_cases hd : d < s.calls.length
  · exact hret d pc hd hpc
  · rw [hsame d (.inl (by omega)), List.getElem?_eq_none (by omega)] at hpc
    cases hpc

theorem inconsistent_of_orphan (hw : s.isWorking i = true) (hj : s.job ≠ some i)
    (hp : ∀ c, s.callAt StartPc.pending c ≠ some i) :
    ∃ s', Path slot Free s s' ∧ s'.Settled ∧ ¬ s'.Consistent := by
  obtain ⟨s₁, hpath, htasks, hret, -, hjob⟩ := settle_others s fun _ => False
  have hw₁ : s₁.isWorking i = true := by rwa [Slot.isWorking, htasks]
  have hsettled : s₁.Settled := by
    intro pc hpc
    obtain ⟨d, hd⟩ := List.mem_iff_getElem?.mp hpc
    exact (hret d pc hd).resolve_left id
  cases hj₁ : s₁.job with
  | none =>
    refine ⟨s₁, hpath, hsettled, fun hcons => ?_⟩
    have hsome := hcons.2.mpr (exists_working_iff.mpr ⟨i, hw₁⟩)
    rw [hj₁] at hsome
    cases hsome
  | some k =>
    have hki : k ≠ i := by
      rintro rfl
      rcases hjob k hj₁ with hk | ⟨d, hd⟩
      · exact hj hk
      · exact hp d hd
    have hst : slot.step s₁ .stopSync = some { s₁ with
        job := none, phase := .idle, tasks := s₁.tasks.modify k SyncTask.abort } := by
      simp [slot, Slot.step, Slot.stopSync, hj₁]
    refine ⟨_, hpath.tail trivial hst, hsettled, fun hcons => ?_⟩
    have hw₂ := Slot.isWorking_stop s₁ k i
    rw [if_neg hki, hw₁] at hw₂
    cases hcons.2.mpr (exists_working_iff.mpr ⟨i, hw₂⟩)

theorem inconsistent_of_late_insert {c : ℕ} (hc : s.calls[c]? = some (.inserting i false))
    (hdead : s.isAlive i = false) :
    ∃ s', Path slot Free s s' ∧ s'.Settled ∧ ¬ s'.Consistent := by
  obtain ⟨s₁, hpath, htasks, hret, hsame, -⟩ := settle_others s (· = c)
  have hc₁ : s₁.calls[c]? = some (.inserting i false) := (hsame c rfl).trans hc
  have hst : slot.step s₁ (.start c true) =
      some ({ s₁ with job := some i }.setCall c (.returned none)) := by
    simp [slot, Slot.step, Slot.startStep, hc₁]
  have hsettled : ({ s₁ with job := some i }.setCall c (.returned none)).Settled := by
    intro pc hpc
    obtain ⟨d, hd⟩ := List.mem_iff_getElem?.mp hpc
    rw [Slot.setCall_calls, List.getElem?_set] at hd
    split_ifs at hd with hcd
    · cases hd
      rfl
    · exact (hret d pc hd).resolve_left (Ne.symm hcd)
  have hpath₂ := hpath.tail trivial hst
  by_cases hwork : ∃ j, s₁.isWorking j = true
  · obtain ⟨j, hj⟩ := hwork
    have hij : i ≠ j := by
      rintro rfl
      have halive := Slot.isAlive_of_isWorking hj
      rw [Slot.isAlive, htasks] at halive
      exact absurd (hdead.symm.trans halive) Bool.false_ne_true
    obtain ⟨s', hpath', hs'⟩ := inconsistent_of_orphan
      (s := { s₁ with job := some i }.setCall c (.returned none)) (i := j) hj
      (fun h => hij (Option.some.inj h))
      (fun d => by rw [hsettled.callAt fun _ => rfl]; exact Option.some_ne_none j |>.symm)
    exact ⟨s', hpath₂.trans hpath', hs'⟩
  · refine ⟨_, hpath₂, hsettled, fun hcons => hwork ?_⟩
    exact exists_working_iff.mp (hcons.2.mp rfl)

theorem exists_of_not_spares (h : Tracked s) (hs : ¬ s.Spares i) :
    ∃ j, s.job = some j ∧ i ≠ j ∧ s.isWorking j = true := by
  simp only [Slot.Spares, not_forall] at hs
  obtain ⟨j, hj, hij, halive⟩ := hs
  obtain ⟨t, ht, hab⟩ := h.job j hj
  rw [Bool.not_eq_false, Slot.isAlive_of_task ht] at halive
  refine ⟨j, hj, Ne.symm hij, ?_⟩
  rw [Slot.isWorking_of_task ht, SyncTask.working, halive, hab]
  rfl

theorem inconsistent_of_lost {s₁ : Slot} {j : ℕ} (h : Tracked s) (hst : slot.step s a = some s₁)
    (hj : s.job = some j) (hw : s₁.isWorking j = true) (hj₁ : s₁.job ≠ some j)
    (hp : ∀ d, s₁.callAt StartPc.pending d = some j → s.callAt StartPc.pending d = some j) :
    ∃ s', Path slot Free s s' ∧ s'.Settled ∧ ¬ s'.Consistent := by
  have hnone : ∀ d, s₁.callAt StartPc.pending d ≠ some j := by
    intro d hd
    exact (h.pending d j (hp d hd)).1 hj
  obtain ⟨s', hpath, hs'⟩ := inconsistent_of_orphan hw hj₁ hnone
  exact ⟨s', (Path.single trivial hst).trans hpath, hs'⟩

/-- **A step that is not orderly can lead to an inconsistent map.** -/
theorem disorder_follows (h : Tracked s) (ha : ¬ Orderly s a) :
    ∃ s', Path slot Free s s' ∧ s'.Settled ∧ ¬ s'.Consistent := by
  unfold Orderly at ha
  split at ha
  · rename_i c resolved
    split at ha
    · rename_i i finished hc
      by_cases hspare : s.Spares i
      · obtain ⟨rfl, hdead⟩ : finished = false ∧ ¬ s.isAlive i = true := by
          simpa only [not_and, hspare, forall_const, Classical.not_imp] using ha
        exact inconsistent_of_late_insert hc (Bool.eq_false_iff.mpr hdead)
      · obtain ⟨j, hj, hij, hw⟩ := exists_of_not_spares h hspare
        have hst : slot.step s (.start c resolved) = some ({ s with job := some i }.setCall c
            (if finished then .tidying i else .returned none)) := by
          simp [slot, Slot.step, Slot.startStep, hc]
        refine inconsistent_of_lost h hst hj hw (fun hi => hij (Option.some.inj hi)) fun d hd => ?_
        rw [Slot.callAt_setCall (s := { s with job := some i }) _ hc] at hd
        by_cases hcd : c = d
        · rw [if_pos hcd] at hd
          cases finished <;> cases hd
        · rw [if_neg hcd] at hd
          exact hd
    · rename_i i hc
      obtain ⟨j, hj, -, hw⟩ := exists_of_not_spares h ha
      have hst : slot.step s (.start c resolved) =
          some ({ s with job := none }.setCall c (.returned none)) := by
        simp [slot, Slot.step, Slot.startStep, hc]
      refine inconsistent_of_lost h hst hj hw (fun hi => by cases hi) fun d hd => ?_
      rw [Slot.callAt_setCall (s := { s with job := none }) _ hc] at hd
      by_cases hcd : c = d
      · rw [if_pos hcd] at hd
        cases hd
      · rw [if_neg hcd] at hd
        exact hd
    · exact absurd trivial ha
  · rename_i i
    obtain ⟨hpc, hspare⟩ := Classical.not_imp.mp ha
    obtain ⟨t, ht, hpc⟩ := Option.map_eq_some_iff.mp hpc
    obtain ⟨j, hj, hij, hw⟩ := exists_of_not_spares h hspare
    have hstep : t.step .next = some ({ t with pc := .cleared }, .clear) := by
      simp [SyncTask.step, hpc]
    have hst : slot.step s (.task i .next) =
        some ((s.setTask i { t with pc := .cleared }).apply .clear) := by
      simp [slot, Slot.step, ht, hstep]
    refine inconsistent_of_lost h hst hj ?_ (fun hi => by cases hi) fun d hd => hd
    change (s.setTask i { t with pc := .cleared }).isWorking j = true
    rw [Slot.isWorking_setTask ht, if_neg hij, hw]
  · exact absurd trivial ha

/-! ## The service -/

/-- **Between calls the jobs map stands for the one working task in every orderly run**; a step that
is not orderly can lead to an inconsistent map. -/
theorem entry_consistent {W : Type} [DecidableEq W] (s : W → Slot) (w : W) :
    (Reach (service W) (onComponent Orderly) s → (s w).Settled → (s w).Consistent) ∧
      (Reach (service W) Free s → ∀ a, ¬ Orderly (s w) a →
        ∃ s', Path (service W) Free s s' ∧ (s' w).Settled ∧ ¬ (s' w).Consistent) := by
  constructor
  · intro h hs
    obtain ⟨htr, hm⟩ := matched_of_reach (h.component w)
    exact consistent_of_matched htr hm hs
  · intro h a ha
    have htr : Tracked (s w) :=
      tracked_of_reach (Reach.component (G := Free) (h.mono fun _ _ _ => trivial) w)
    obtain ⟨t, hpath, hsettled, hcons⟩ := disorder_follows htr ha
    refine ⟨Function.update s w t, (hpath.family s w rfl).mono fun _ _ _ => trivial, ?_⟩
    rw [Function.update_self]
    exact ⟨hsettled, hcons⟩

def failedTask (i : ℕ) : List SlotAction :=
  [.next, .goto .quitPrepare, .next, .next, .next, .next].map (.task i)

def failedStart : List SlotAction :=
  [SlotAction.startSync, .start 0 true, .start 0 true] ++ failedTask 0 ++
    List.replicate 3 (SlotAction.start 0 true) ++ [SlotAction.startSync] ++
    List.replicate 4 (SlotAction.start 1 true)

theorem entry_consistent_failedStart :
    ∃ s : ℕ → Slot, Reach (service ℕ) (onComponent Orderly) s ∧ (s 7).Settled ∧
      (s 7).job = some 1 ∧ (s 7).Consistent := by
  obtain ⟨t, ht, hsettled, hjob⟩ : ∃ t, Reach slot Orderly t ∧ t.Settled ∧ t.job = some 1 :=
    exec_reach failedStart rfl (by decide +kernel) (by decide +kernel)
  obtain ⟨s, hs, rfl⟩ := ht.family (7 : ℕ)
  exact ⟨s, hs, hsettled, hjob, (entry_consistent s 7).1 hs hsettled⟩

/-- The task returns between the probe of its handle and the insertion of its entry. -/
def staleEntry : List SlotAction :=
  .startSync :: List.replicate 3 (SlotAction.start 0 true) ++ failedTask 0 ++
    [SlotAction.start 0 true]

/-- The first task is stopped on its way out, and clears the entry of the second. -/
def lostEntry : List SlotAction :=
  .startSync :: List.replicate 4 (SlotAction.start 0 true) ++
    [TaskMove.next, .goto .quitPrepare, .next].map (SlotAction.task 0) ++
    [SlotAction.stopSync, .startSync] ++ List.replicate 4 (SlotAction.start 1 true) ++
    [TaskMove.next, .next, .next].map (SlotAction.task 0)

/-- **An entry with no task, and a task with no entry**, with no call in progress. -/
theorem entry_inconsistent :
    (∃ s ∈ exec slot .initial staleEntry, s.Settled ∧ s.job = some 0 ∧
        ∀ t ∈ s.tasks, t.pc = .finished) ∧
      (∃ s ∈ exec slot .initial lostEntry, s.Settled ∧ s.job = none ∧
        ∃ t ∈ s.tasks, t.working = true) ∧
      ∃ s : ℕ → Slot, Reach (service ℕ) Free s ∧ (s 7).Settled ∧ ¬ (s 7).Consistent := by
  refine ⟨by decide +kernel, by decide +kernel, ?_⟩
  obtain ⟨t, ht, hsettled, hcons⟩ : ∃ t, Reach slot Free t ∧ t.Settled ∧ ¬ t.Consistent :=
    exec_reach staleEntry rfl (along_free _ _) (by decide +kernel)
  obtain ⟨s, hs, rfl⟩ := ht.family (7 : ℕ)
  exact ⟨s, hs.free, hsettled, hcons⟩

end ZbagSync
