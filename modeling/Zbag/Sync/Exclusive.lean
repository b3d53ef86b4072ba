import Zbag.Sync.Service

/-!
# Sync — blocking scans of a wallet do not overlap

`start_sync` refuses while the wallet has a job or a blocking scan in flight. Neither covers a task
that has no entry any more and has not taken its in-flight guard yet, nor a call that has passed
its check and has not inserted its job. Two scans of one wallet can overlap if and only if a call
gets past its check while one of these is there.
-/

namespace ZbagSync

open Transition

/-! ## Sources of scans -/

def Stage.scans : Stage → Bool
  | .prepare | .loop | .batch => true
  | .quitPrepare | .quitLoop | .cleanup => false

theorem Stage.scans_of_leadsTo {cancelled : Bool} {stage target : Stage}
    (h : stage.leadsTo cancelled target = true) (ht : target.scans = true) :
    stage.scans = true := by
  cases stage <;> cases target <;> simp_all [Stage.leadsTo, Stage.scans]

/-- An aborted task only if no await is left before it. -/
def SyncTask.mayScan (t : SyncTask) : Bool :=
  match t.pc with
  | .awaiting stage => stage.scans && !t.aborted
  | .running stage => stage == .batch || (stage.scans && !t.aborted)
  | .holding => true
  | .joining => !t.aborted
  | .cleared | .finished | .dropped => false

def SyncTask.isScanning (t : SyncTask) : Bool := t.scan == some .scanning

def SyncTask.holdsGuard (t : SyncTask) : Bool := t.pc == .holding || t.scan.isSome

def SyncTask.occupies (t : SyncTask) : Bool := t.mayScan || t.scan.isSome

def StartPc.isStarting : StartPc → Bool
  | .resolving => true
  | _ => false

namespace Slot

def scans (s : Slot) : ℕ := s.tasks.countP SyncTask.isScanning

def sources (s : Slot) : ℕ := s.calls.countP StartPc.isStarting + s.tasks.countP SyncTask.mayScan

end Slot

/-- A call that gets past its check is the only source of scans. -/
def StartsAlone (s : Slot) : SlotAction → Prop
  | .start c _ => s.calls[c]? = some .requested → s.refuses = false → s.sources = 0
  | _ => True

instance (s : Slot) : DecidablePred (StartsAlone s)
  | .start c _ => inferInstanceAs
      (Decidable (s.calls[c]? = some .requested → s.refuses = false → s.sources = 0))
  | .startSync | .stopSync | .task _ _ => isTrue trivial

/-! ## What a step of a task does to its guard -/

def SyncTask.WellFormed (t : SyncTask) : Prop :=
  t.scan.isSome = true → t.pc = .joining ∨ t.pc = .dropped

section TaskStep

variable {t t' : SyncTask} {move : TaskMove} {e : Effect}

theorem SyncTask.wellFormed_of_step (hwf : t.WellFormed) (h : t.step move = some (t', e)) :
    t'.WellFormed := by
  unfold WellFormed at *
  cases moves_of_step h with
  | spawn | dropJoining | dropAwaiting => simp
  | startScan | endScan => simp_all
  | joined => simp
  | _ => exact fun hscan => absurd (hwf hscan) (by simp)

theorem SyncTask.occupies_of_step (hwf : t.WellFormed) (h : t.step move = some (t', e))
    (ht' : t'.occupies = true) : t.occupies = true := by
  unfold occupies mayScan at *
  cases moves_of_step h with
  | goto stage target aborted scan hto =>
    have := Stage.scans_of_leadsTo hto
    grind
  | poll stage => cases stage <;> simp_all [Stage.scans]
  | startScan | endScan => simp
  | _ => simp_all [Stage.scans]

theorem SyncTask.holdsGuard_of_step (hwf : t.WellFormed) (h : t.step move = some (t', e)) :
    (if t.holdsGuard then 1 else 0) + (if e = .acquire then 1 else 0) =
      (if t'.holdsGuard then 1 else 0) + if e = .release then 1 else 0 := by
  unfold WellFormed holdsGuard at *
  cases moves_of_step h with
  | acquire aborted scan =>
    have hscan : scan = none := by simpa using hwf
    simp [hscan]
  | endScan pc aborted =>
    obtain rfl | rfl : pc = .joining ∨ pc = .dropped := hwf rfl <;> simp
  | _ => simp_all

end TaskStep

theorem Slot.apply_blockingScans (s : Slot) (e : Effect) :
    (s.apply e).blockingScans =
      s.blockingScans + (if e = .acquire then 1 else 0) - if e = .release then 1 else 0 := by
  cases e <;> simp [Slot.apply]

/-! ## The count of the service -/

structure Counted (s : Slot) : Prop where
  wellFormed : ∀ t ∈ s.tasks, t.WellFormed
  count : s.blockingScans = s.tasks.countP SyncTask.holdsGuard

variable {s s' : Slot} {a : SlotAction} {t : SyncTask}

theorem Counted.of_eq (h : Counted s) (ht : s'.tasks = s.tasks)
    (hb : s'.blockingScans = s.blockingScans) : Counted s' :=
  ⟨ht ▸ h.wellFormed, by rw [hb, ht, h.count]⟩

theorem counted_step (h : Counted s) (hst : slot.step s a = some s') : Counted s' := by
  cases step_cases hst with
  | request | refuse | accept | unresolved | probe | insert | tidy | stopIdle =>
    exact h.of_eq rfl rfl
  | spawn =>
    constructor
    · intro t ht
      rcases List.mem_append.mp ht with ht | ht
      · exact h.wellFormed t ht
      · rw [List.mem_singleton.mp ht]
        intro hscan
        cases hscan
    · change s.blockingScans = (s.tasks ++ [SyncTask.spawned]).countP SyncTask.holdsGuard
      rw [List.countP_append, h.count]
      rfl
  | @stop i hj =>
    constructor
    · intro t ht
      obtain ⟨j, hj⟩ := List.mem_iff_getElem?.mp ht
      obtain ⟨u, hu, rfl⟩ := Option.map_eq_some_iff.mp (List.getElem?_modify .. ▸ hj)
      have hwf := h.wellFormed u (List.mem_of_getElem? hu)
      split_ifs
      · exact hwf
      · exact hwf
    · have habort : ∀ t : SyncTask, t.abort.holdsGuard = t.holdsGuard := fun _ => rfl
      exact h.count.trans (Table.countP_modify i habort).symm
  | @task i move t t' e ht hstep =>
    have hwf := h.wellFormed t (List.mem_of_getElem? ht)
    constructor
    · intro u hu
      rw [Slot.apply_tasks, Slot.setTask_tasks] at hu
      rcases List.mem_or_eq_of_mem_set hu with hu | rfl
      · exact h.wellFormed u hu
      · exact SyncTask.wellFormed_of_step hwf hstep
    · have hguard := SyncTask.holdsGuard_of_step hwf hstep
      have hset := Table.countP_set_add (b := t') SyncTask.holdsGuard ht
      have hcount := h.count
      rw [Slot.apply_blockingScans, Slot.apply_tasks, Slot.setTask_tasks]
      change s.blockingScans + _ - _ = _
      omega

theorem counted_of_reach {G : Slot → SlotAction → Prop} (h : Reach slot G s) : Counted s := by
  refine h.invariant ?_ fun s a t hs _ hst => counted_step hs hst
  rintro s rfl
  exact ⟨by simp [Slot.initial], rfl⟩

theorem Counted.scan_eq_none (h : Counted s) (hr : s.refuses = false) (ht : t ∈ s.tasks) :
    t.scan = none := by
  have hb : s.blockingScans = 0 := by
    simp only [Slot.refuses, Bool.or_eq_false_iff, decide_eq_false_iff_not] at hr
    omega
  have hguard := List.countP_eq_zero.mp (h.count.symm.trans hb) t ht
  simp only [SyncTask.holdsGuard, Bool.or_eq_true, not_or] at hguard
  simpa using hguard.2

/-! ## One source at a time -/

def Single (s : Slot) : Prop :=
  s.calls.countP StartPc.isStarting + s.tasks.countP SyncTask.occupies ≤ 1

theorem scans_le_of_single (h : Single s) : s.scans ≤ 1 := by
  have hle : s.scans ≤ s.tasks.countP SyncTask.occupies := by
    refine List.countP_mono_left fun t _ ht => ?_
    rw [SyncTask.isScanning, beq_iff_eq] at ht
    simp [SyncTask.occupies, ht]
  unfold Single at h
  omega

theorem single_of_sources (h : Counted s) (hr : s.refuses = false) (hs : s.sources = 0) :
    s.calls.countP StartPc.isStarting = 0 ∧ s.tasks.countP SyncTask.occupies = 0 := by
  have hsame : s.tasks.countP SyncTask.occupies = s.tasks.countP SyncTask.mayScan := by
    refine List.countP_congr fun t ht => ?_
    rw [SyncTask.occupies, h.scan_eq_none hr ht, Option.isSome_none, Bool.or_false]
  rw [Slot.sources] at hs
  omega

theorem Single.setCall {c : ℕ} {pc pc' : StartPc} (h : Single s) (hc : s.calls[c]? = some pc)
    (hpc : pc'.isStarting = false) : Single (s.setCall c pc') := by
  have hset := Table.countP_set_add (b := pc') StartPc.isStarting hc
  simp only [hpc, Bool.false_eq_true, if_false] at hset
  unfold Single at h ⊢
  rw [Slot.setCall_calls, Slot.setCall_tasks]
  omega

theorem single_step (hcount : Counted s) (h : Single s) (ha : StartsAlone s a)
    (hst : slot.step s a = some s') : Single s' := by
  cases step_cases hst with
  | request =>
    unfold Single at h ⊢
    rw [List.countP_append]
    exact h
  | stopIdle => exact h
  | refuse hc | unresolved hc | probe hc => exact h.setCall hc rfl
  | @insert c i resolved finished hc =>
    refine Single.setCall (s := { s with job := some i }) h hc ?_
    cases finished <;> rfl
  | tidy hc => exact Single.setCall (s := { s with job := none }) h hc rfl
  | @accept c resolved hc hr =>
    -- the guard empties the slot, so the call becomes its only source
    obtain ⟨hcalls, htasks⟩ := single_of_sources hcount hr (ha hc hr)
    have hset := Table.countP_set_add (b := StartPc.resolving) StartPc.isStarting hc
    simp only [StartPc.isStarting, Bool.false_eq_true, if_false, if_true] at hset
    change (s.calls.set c .resolving).countP _ + s.tasks.countP _ ≤ 1
    omega
  | @spawn c hc =>
    -- the call hands its place to the task
    have hset := Table.countP_set_add (b := .probing s.tasks.length) StartPc.isStarting hc
    simp only [StartPc.isStarting, Bool.false_eq_true, if_false, if_true] at hset
    have hone : [SyncTask.spawned].countP SyncTask.occupies = 1 := rfl
    unfold Single at h
    change (s.calls.set c (.probing s.tasks.length)).countP _ +
      (s.tasks ++ [SyncTask.spawned]).countP _ ≤ 1
    rw [List.countP_append, hone]
    omega
  | @stop i hj =>
    have habort : ∀ t : SyncTask, t.abort.occupies = true → t.occupies = true := by
      intro t
      unfold SyncTask.occupies SyncTask.mayScan SyncTask.abort
      grind
    have hle := Table.countP_modify_le (l := s.tasks) i habort
    unfold Single at h
    change s.calls.countP _ + (s.tasks.modify i SyncTask.abort).countP _ ≤ 1
    omega
  | @task i move t t' e ht hstep =>
    have hwf := hcount.wellFormed t (List.mem_of_getElem? ht)
    have hset := Table.countP_set_add (b := t') SyncTask.occupies ht
    have hle : (if t'.occupies = true then 1 else 0) ≤ if t.occupies = true then 1 else 0 := by
      by_cases ht' : t'.occupies = true
      · simp [ht', SyncTask.occupies_of_step hwf hstep ht']
      · simp [ht']
    unfold Single at h ⊢
    rw [Slot.apply_calls, Slot.apply_tasks, Slot.setTask_calls, Slot.setTask_tasks]
    omega

theorem single_of_reach (h : Reach slot StartsAlone s) : Single s := by
  have hinv : Counted s ∧ Single s := by
    refine h.invariant (I := fun s => Counted s ∧ Single s) ?_ fun s a t hs ha hst =>
      ⟨counted_step hs.1 hst, single_step hs.1 hs.2 ha hst⟩
    rintro s rfl
    exact ⟨⟨by simp [Slot.initial], rfl⟩, Nat.zero_le _⟩
  exact hinv.2

/-! ## Why the condition is needed -/

def lone : System SyncTask TaskMove where
  init t := t = .spawned
  step t move := (t.step move).map Prod.fst

def scanMoves : List TaskMove := [.scan, .next, .closure]

def batchMoves : List TaskMove := .goto .batch :: .next :: scanMoves

def loopMoves : List TaskMove := .goto .loop :: .next :: batchMoves

def movesToScan : TaskPc → List TaskMove
  | .awaiting .prepare => .next :: loopMoves
  | .running .prepare => loopMoves
  | .awaiting .loop | .joining => .next :: batchMoves
  | .running .loop => batchMoves
  | .awaiting .batch => .next :: scanMoves
  | .running .batch => scanMoves
  | .holding => [.next, .closure]
  | _ => []

theorem exec_movesToScan (hm : t.mayScan = true) (hs : t.scan = none) :
    exec lone t (movesToScan t.pc) = some ⟨.joining, t.aborted, some .scanning⟩ := by
  obtain ⟨pc, aborted, scan⟩ := t
  obtain rfl : scan = none := hs
  cases pc with
  | awaiting stage | running stage =>
    cases stage <;> cases aborted <;> first | rfl | exact absurd hm (by decide)
  | joining => cases aborted <;> first | rfl | exact absurd hm (by decide)
  | holding => rfl
  | cleared | finished | dropped => exact absurd hm (by simp [SyncTask.mayScan])

theorem path_of_exec_lone {t' : SyncTask} {moves : List TaskMove} (h : exec lone t moves = some t')
    {i : ℕ} (ht : s.tasks[i]? = some t) :
    ∃ s', Path slot Free s s' ∧ s'.calls = s.calls ∧ s'.tasks = s.tasks.set i t' := by
  induction moves generalizing s t with
  | nil =>
    obtain rfl := Option.some.inj h
    obtain ⟨hi, rfl⟩ := List.getElem?_eq_some_iff.mp ht
    exact ⟨s, .refl, rfl, (List.set_getElem_self hi).symm⟩
  | cons move moves ih =>
    obtain ⟨u, hu, hrest⟩ := Option.bind_eq_some_iff.mp h
    obtain ⟨⟨u', e⟩, hstep, rfl⟩ := Option.map_eq_some_iff.mp hu
    have hi : i < s.tasks.length := (List.getElem?_eq_some_iff.mp ht).1
    have hst : slot.step s (.task i move) = some ((s.setTask i u').apply e) := by
      simp [slot, Slot.step, ht, hstep]
    obtain ⟨s', hpath, hcalls, htasks⟩ := ih hrest (s := (s.setTask i u').apply e) (by simp [hi])
    refine ⟨s', (Path.single trivial hst).trans hpath, ?_, ?_⟩
    · rw [hcalls, Slot.apply_calls, Slot.setTask_calls]
    · rw [htasks, Slot.apply_tasks, Slot.setTask_tasks, List.set_set]

theorem scan_of_mayScan {i : ℕ} (ht : s.tasks[i]? = some t) (hm : t.mayScan = true)
    (hs : t.scan = none) :
    ∃ s' t', Path slot Free s s' ∧ s'.calls = s.calls ∧ s'.tasks = s.tasks.set i t' ∧
      t'.isScanning = true := by
  obtain ⟨s', hpath, hcalls, htasks⟩ := path_of_exec_lone (exec_movesToScan hm hs) ht
  exact ⟨s', _, hpath, hcalls, htasks, rfl⟩

theorem scan_of_starting {c : ℕ} (hc : s.calls[c]? = some .resolving) :
    ∃ s' t', Path slot Free s s' ∧ s'.calls = s.calls.set c (.probing s.tasks.length) ∧
      s'.tasks = s.tasks ++ [t'] ∧ t'.isScanning = true := by
  have hst : slot.step s (.start c true) =
      some ({ s with tasks := s.tasks ++ [SyncTask.spawned] }.setCall c
        (.probing s.tasks.length)) := by
    simp [slot, Slot.step, Slot.startStep, hc]
  obtain ⟨s', t', hpath, hcalls, htasks, hscan⟩ := scan_of_mayScan
    (s := { s with tasks := s.tasks ++ [SyncTask.spawned] }.setCall c (.probing s.tasks.length))
    (i := s.tasks.length) (t := .spawned) (by simp) rfl rfl
  refine ⟨s', t', (Path.single trivial hst).trans hpath, hcalls, ?_, hscan⟩
  rw [htasks]
  simp

/-- **A call that starts beside another source can lead to two scans at once.** -/
theorem overlap_follows (h : Counted s) (ha : ¬ StartsAlone s a) :
    ∃ s', Path slot Free s s' ∧ 2 ≤ s'.scans := by
  obtain ⟨c, resolved, rfl⟩ : ∃ c resolved, a = .start c resolved := by
    cases a with
    | start c resolved => exact ⟨c, resolved, rfl⟩
    | startSync | stopSync | task => exact absurd trivial ha
  simp only [StartsAlone, Classical.not_imp] at ha
  obtain ⟨hc, hr, hsources⟩ := ha
  have hst : slot.step s (.start c resolved) =
      some ({ s with phase := .preparing }.setCall c .resolving) := by
    simp [slot, Slot.step, Slot.startStep, hc, hr]
  have hlt : c < s.calls.length := (List.getElem?_eq_some_iff.mp hc).1
  rw [Slot.sources] at hsources
  by_cases htask : s.tasks.countP SyncTask.mayScan = 0
  · -- the other source is a call
    obtain ⟨pc, hpc, hstarting⟩ := List.countP_pos_iff.mp
      (show 0 < s.calls.countP StartPc.isStarting by omega)
    obtain ⟨d, hd⟩ := List.mem_iff_getElem?.mp hpc
    obtain rfl : pc = .resolving := by
      cases pc <;> first | rfl | cases hstarting
    have hne : c ≠ d := by
      rintro rfl
      rw [hc] at hd
      cases hd
    obtain ⟨s₁, t₁, hpath₁, hcalls₁, htasks₁, hscan₁⟩ := scan_of_starting
      (s := { s with phase := .preparing }.setCall c .resolving) (c := d)
      (by simp [List.getElem?_set_ne hne, hd])
    obtain ⟨s₂, t₂, hpath₂, -, htasks₂, hscan₂⟩ := scan_of_starting (s := s₁) (c := c)
      (by rw [hcalls₁, List.getElem?_set_ne hne.symm]; simp [hlt])
    refine ⟨s₂, ((Path.single trivial hst).trans hpath₁).trans hpath₂, ?_⟩
    rw [Slot.scans, htasks₂, htasks₁, List.countP_append, List.countP_append,
      List.countP_singleton, List.countP_singleton, if_pos hscan₁, if_pos hscan₂]
    omega
  · -- the other source is a task
    obtain ⟨t, ht, hm⟩ := List.countP_pos_iff.mp (Nat.pos_of_ne_zero htask)
    obtain ⟨i, hi⟩ := List.mem_iff_getElem?.mp ht
    obtain ⟨s₁, t₁, hpath₁, hcalls₁, htasks₁, hscan₁⟩ := scan_of_mayScan
      (s := { s with phase := .preparing }.setCall c .resolving) (i := i) hi hm
      (h.scan_eq_none hr ht)
    obtain ⟨s₂, t₂, hpath₂, -, htasks₂, hscan₂⟩ := scan_of_starting (s := s₁) (c := c)
      (by rw [hcalls₁]; simp [hlt])
    have hpos : 0 < (s.tasks.set i t₁).countP SyncTask.isScanning := by
      have hlen : i < s.tasks.length := (List.getElem?_eq_some_iff.mp hi).1
      exact List.countP_pos_iff.mpr ⟨t₁, List.mem_set hlen _, hscan₁⟩
    refine ⟨s₂, ((Path.single trivial hst).trans hpath₁).trans hpath₂, ?_⟩
    rw [Slot.scans, htasks₂, htasks₁, List.countP_append, List.countP_singleton, if_pos hscan₂]
    change 2 ≤ (s.tasks.set i t₁).countP _ + 1
    omega

/-! ## The service -/

/-- **No two blocking scans of a wallet overlap in a run whose calls start alone**; a call that does
not can lead to two at once. -/
theorem scans_exclusive {W : Type} [DecidableEq W] (s : W → Slot) (w : W) :
    (Reach (service W) (onComponent StartsAlone) s → (s w).scans ≤ 1) ∧
      (Reach (service W) Free s → ∀ a, ¬ StartsAlone (s w) a →
        ∃ s', Path (service W) Free s s' ∧ 2 ≤ (s' w).scans) := by
  constructor
  · intro h
    exact scans_le_of_single (single_of_reach (h.component w))
  · intro h a ha
    have hcount : Counted (s w) :=
      counted_of_reach (Reach.component (G := Free) (h.mono fun _ _ _ => trivial) w)
    obtain ⟨t, hpath, hscans⟩ := overlap_follows hcount ha
    refine ⟨Function.update s w t, (hpath.family s w rfl).mono fun _ _ _ => trivial, ?_⟩
    rwa [Function.update_self]

def startCall (c : ℕ) : List SlotAction :=
  .startSync :: List.replicate 4 (.start c true)

def toBatch (i : ℕ) : List SlotAction :=
  [.next, .goto .loop, .next, .goto .batch, .next].map (.task i)

def toScan (i : ℕ) : List SlotAction := scanMoves.map (.task i)

/-- The second task is started once the scan of the first has returned. -/
def restart : List SlotAction :=
  startCall 0 ++ toBatch 0 ++ toScan 0 ++ [SlotAction.stopSync, .task 0 .next, .task 0 .closure] ++
    startCall 1 ++ toBatch 1 ++ toScan 1

theorem scans_exclusive_restart :
    ∃ s : ℕ → Slot, Reach (service ℕ) (onComponent StartsAlone) s ∧ (s 7).scans = 1 ∧
      (s 7).scans ≤ 1 := by
  obtain ⟨t, ht, hscan⟩ : ∃ t, Reach slot StartsAlone t ∧ t.scans = 1 :=
    exec_reach restart rfl (by decide +kernel) (by decide +kernel)
  obtain ⟨s, hs, hw⟩ := ht.family (7 : ℕ)
  exact ⟨s, hs, hw ▸ hscan, (scans_exclusive s 7).1 hs⟩

/-- The second `start_sync` sees neither a job nor a scan. -/
def lateScan : List SlotAction :=
  startCall 0 ++ toBatch 0 ++ [SlotAction.stopSync] ++ startCall 1 ++ toBatch 1 ++ toScan 1 ++
    toScan 0

/-- Both pass the check before either inserts its job. -/
def doubleStart : List SlotAction :=
  [SlotAction.startSync, .startSync, .start 0 true, .start 1 true] ++
    List.replicate 3 (SlotAction.start 0 true) ++ List.replicate 3 (SlotAction.start 1 true) ++
    toBatch 0 ++ toScan 0 ++ toBatch 1 ++ toScan 1

/-- **Two scans of one wallet at once.** -/
theorem scans_overlap :
    (∃ s ∈ exec slot .initial lateScan, 2 ≤ s.scans) ∧
      (∃ s ∈ exec slot .initial doubleStart, 2 ≤ s.scans) ∧
      ∃ s : ℕ → Slot, Reach (service ℕ) Free s ∧ 2 ≤ (s 7).scans := by
  have hlate : ∃ s ∈ exec slot .initial lateScan, 2 ≤ s.scans := by decide +kernel
  obtain ⟨t, ht, hscan⟩ : ∃ t, Reach slot Free t ∧ 2 ≤ t.scans :=
    exec_reach lateScan rfl (along_free _ _) hlate
  obtain ⟨s, hs, hw⟩ := ht.family (7 : ℕ)
  exact ⟨hlate, by decide +kernel, s, hs.free, hw ▸ hscan⟩

end ZbagSync
