import Zbag.Lib.Table
import Zbag.Lib.Transition

/-!
# Sync — the sync service

`SyncService` keeps its maps under one mutex, all with the wallet as the key: the running job, the
number of blocking scans in flight, the progress. Callers run `start_sync` and `stop_sync` at any
time, a sync task runs on the async runtime and its scans run on blocking threads. Every critical
section is one step of the model; the code of a task between two awaits is several. An abort takes
effect where the task next awaits, and a blocking closure runs to its end even if the task that
spawned it is gone.

* **`step_cases`**: everything a step can do.
-/

namespace ZbagSync

open Transition

inductive SyncPhase
  | idle
  | preparing
  | downloading
  | scanning
  | enhancing
  | catchingUp
  | offline
  | error
  deriving DecidableEq, Repr

/-! ## The task -/

/-- By what they may do before their next await. -/
inductive Stage
  /-- Opening the databases, waiting for Tor, filling in the birthday tree sizes. -/
  | prepare
  /-- The sync loop outside a batch. -/
  | loop
  /-- Its scan is next. -/
  | batch
  /-- of a preparation that failed or was cancelled -/
  | quitPrepare
  /-- of a loop that was cancelled -/
  | quitLoop
  /-- The last await: removing the cache, or the balances. -/
  | cleanup
  deriving DecidableEq, Repr

/-- `cancelled`: what it reads from the cancel flag. -/
def Stage.leadsTo (cancelled : Bool) : Stage → Stage → Bool
  | .prepare, .prepare | .prepare, .loop | .prepare, .quitPrepare => true
  -- cancelled at the first iteration of the loop, or while it waited for Tor
  | .prepare, .quitLoop | .prepare, .cleanup => cancelled
  | .loop, .loop | .loop, .batch => true
  | .loop, .quitLoop => cancelled
  | .batch, .batch | .batch, .loop => true
  | _, _ => false

def Stage.reports : Stage → SyncPhase → Bool
  | .prepare, .preparing => true
  | .loop, .downloading | .loop, .scanning | .loop, .enhancing | .loop, .catchingUp => true
  | .loop, .offline | .loop, .error => true
  | _, _ => false

def Stage.canFail : Stage → Bool
  | .prepare | .loop | .batch => true
  | _ => false

inductive TaskPc
  /-- At an await, or not polled yet. -/
  | awaiting (stage : Stage)
  | running (stage : Stage)
  | holding
  | joining
  | cleared
  | finished
  | dropped
  deriving DecidableEq, Repr

/-- It owns the in-flight guard. -/
inductive Closure
  | queued
  | scanning
  deriving DecidableEq, Repr

/-- `aborted`: the cancel flag and the abort of the handle; `scan`: its closure, until it returns.
-/
structure SyncTask where
  pc : TaskPc
  aborted : Bool
  scan : Option Closure
  deriving DecidableEq, Repr

inductive TaskMove
  | next
  | goto (stage : Stage)
  | report (phase : SyncPhase)
  | fail
  | scan
  | closure
  deriving DecidableEq, Repr

inductive Effect
  | silent
  | report (phase : SyncPhase)
  | acquire
  /-- The drop of the guard. -/
  | release
  /-- whichever task's entry it is -/
  | clear
  deriving DecidableEq, Repr

def SyncTask.step (t : SyncTask) (move : TaskMove) : Option (SyncTask × Effect) :=
  match t.pc, move with
  | .awaiting stage, .next =>
    some ({ t with pc := if t.aborted then .dropped else .running stage }, .silent)
  | .running stage, .goto target =>
    if stage.leadsTo t.aborted target then some ({ t with pc := .awaiting target }, .silent)
    else none
  | .running stage, .report phase =>
    if stage.reports phase then some (t, .report phase) else none
  | .running stage, .fail =>
    if stage.canFail then some ({ t with pc := .awaiting .cleanup }, .report .error) else none
  | .running .batch, .scan => some ({ t with pc := .holding }, .acquire)
  | .running .quitPrepare, .next => some ({ t with pc := .running .cleanup }, .report .idle)
  | .running .quitLoop, .next => some ({ t with pc := .awaiting .cleanup }, .report .idle)
  | .running .cleanup, .next => some ({ t with pc := .cleared }, .clear)
  | .holding, .next => some ({ t with pc := .joining, scan := some .queued }, .silent)
  | .joining, .next =>
    if t.aborted then some ({ t with pc := .dropped }, .silent)
    else if t.scan = none then some ({ t with pc := .running .loop }, .silent)
    else none
  | .cleared, .next => some ({ t with pc := .finished }, .silent)
  | _, .closure =>
    match t.scan with
    | some .queued => some ({ t with scan := some .scanning }, .silent)
    | some .scanning => some ({ t with scan := none }, .release)
    | none => none
  | _, _ => none

/-- **What a step of a task can do.** -/
inductive SyncTask.Moves : SyncTask → TaskMove → SyncTask → Effect → Prop
  | poll (stage : Stage) (scan : Option Closure) :
    Moves ⟨.awaiting stage, false, scan⟩ .next ⟨.running stage, false, scan⟩ .silent
  | dropAwaiting (stage : Stage) (scan : Option Closure) :
    Moves ⟨.awaiting stage, true, scan⟩ .next ⟨.dropped, true, scan⟩ .silent
  | goto (stage target : Stage) (aborted : Bool) (scan : Option Closure)
      (h : stage.leadsTo aborted target = true) :
    Moves ⟨.running stage, aborted, scan⟩ (.goto target) ⟨.awaiting target, aborted, scan⟩ .silent
  | report (stage : Stage) (phase : SyncPhase) (aborted : Bool) (scan : Option Closure)
      (h : stage.reports phase = true) :
    Moves ⟨.running stage, aborted, scan⟩ (.report phase) ⟨.running stage, aborted, scan⟩
      (.report phase)
  | fail (stage : Stage) (aborted : Bool) (scan : Option Closure) (h : stage.canFail = true) :
    Moves ⟨.running stage, aborted, scan⟩ .fail ⟨.awaiting .cleanup, aborted, scan⟩
      (.report .error)
  | acquire (aborted : Bool) (scan : Option Closure) :
    Moves ⟨.running .batch, aborted, scan⟩ .scan ⟨.holding, aborted, scan⟩ .acquire
  | quitPrepare (aborted : Bool) (scan : Option Closure) :
    Moves ⟨.running .quitPrepare, aborted, scan⟩ .next ⟨.running .cleanup, aborted, scan⟩
      (.report .idle)
  | quitLoop (aborted : Bool) (scan : Option Closure) :
    Moves ⟨.running .quitLoop, aborted, scan⟩ .next ⟨.awaiting .cleanup, aborted, scan⟩
      (.report .idle)
  | clear (aborted : Bool) (scan : Option Closure) :
    Moves ⟨.running .cleanup, aborted, scan⟩ .next ⟨.cleared, aborted, scan⟩ .clear
  | spawn (aborted : Bool) (scan : Option Closure) :
    Moves ⟨.holding, aborted, scan⟩ .next ⟨.joining, aborted, some .queued⟩ .silent
  | dropJoining (scan : Option Closure) :
    Moves ⟨.joining, true, scan⟩ .next ⟨.dropped, true, scan⟩ .silent
  | joined : Moves ⟨.joining, false, none⟩ .next ⟨.running .loop, false, none⟩ .silent
  | finish (aborted : Bool) (scan : Option Closure) :
    Moves ⟨.cleared, aborted, scan⟩ .next ⟨.finished, aborted, scan⟩ .silent
  | startScan (pc : TaskPc) (aborted : Bool) :
    Moves ⟨pc, aborted, some .queued⟩ .closure ⟨pc, aborted, some .scanning⟩ .silent
  | endScan (pc : TaskPc) (aborted : Bool) :
    Moves ⟨pc, aborted, some .scanning⟩ .closure ⟨pc, aborted, none⟩ .release

theorem SyncTask.moves_of_step {t t' : SyncTask} {move : TaskMove} {e : Effect}
    (h : t.step move = some (t', e)) : t.Moves move t' e := by
  obtain ⟨pc, aborted, scan⟩ := t
  unfold SyncTask.step at h
  dsimp only at h
  split at h
  · cases h
    cases aborted
    · exact .poll _ _
    · exact .dropAwaiting _ _
  · split_ifs at h with hto
    cases h
    exact .goto _ _ _ _ hto
  · split_ifs at h with hreports
    cases h
    exact .report _ _ _ _ hreports
  · split_ifs at h with hfails
    cases h
    exact .fail _ _ _ hfails
  · cases h
    exact .acquire _ _
  · cases h
    exact .quitPrepare _ _
  · cases h
    exact .quitLoop _ _
  · cases h
    exact .clear _ _
  · cases h
    exact .spawn _ _
  · split_ifs at h with haborted hscan
    · cases h
      subst haborted
      exact .dropJoining _
    · cases h
      subst hscan
      obtain rfl := Bool.eq_false_iff.mpr haborted
      exact .joined
  · cases h
    exact .finish _ _
  · split at h
    · cases h
      exact .startScan _ _
    · cases h
      exact .endScan _ _
    · cases h
  · cases h

theorem SyncTask.aborted_of_step {t t' : SyncTask} {move : TaskMove} {e : Effect}
    (h : t.step move = some (t', e)) : t'.aborted = t.aborted := by
  cases moves_of_step h <;> rfl

def SyncTask.spawned : SyncTask := ⟨.awaiting .prepare, false, none⟩

def SyncTask.abort (t : SyncTask) : SyncTask := { t with aborted := true }

/-- `JoinHandle::is_finished`. -/
def SyncTask.isFinished (t : SyncTask) : Bool :=
  match t.pc with
  | .finished | .dropped => true
  | _ => false

/-! ## The calls -/

inductive StartError
  | syncInProgress
  | unresolvedEndpoint
  deriving DecidableEq, Repr

def StartError.message : StartError → String
  | .syncInProgress => "sync already in progress"
  | .unresolvedEndpoint => "failed to resolve active lightwalletd endpoint"

inductive StartPc
  | requested
  | resolving
  | probing (task : ℕ)
  | inserting (task : ℕ) (finished : Bool)
  | tidying (task : ℕ)
  | returned (error : Option StartError)
  deriving DecidableEq, Repr

/-- `job` is the entry of the wallet, `phase` that of its progress. -/
structure Slot where
  job : Option ℕ
  blockingScans : ℕ
  phase : SyncPhase
  calls : List StartPc
  tasks : List SyncTask
  deriving DecidableEq, Repr

namespace Slot

def initial : Slot := ⟨none, 0, .idle, [], []⟩

def setCall (s : Slot) (c : ℕ) (pc : StartPc) : Slot := { s with calls := s.calls.set c pc }

def setTask (s : Slot) (i : ℕ) (t : SyncTask) : Slot := { s with tasks := s.tasks.set i t }

def apply (s : Slot) : Effect → Slot
  | .silent => s
  | .report phase => { s with phase := phase }
  | .acquire => { s with blockingScans := s.blockingScans + 1 }
  | .release => { s with blockingScans := s.blockingScans - 1 }
  | .clear => { s with job := none }

/-- There is a job or a blocking scan. -/
def refuses (s : Slot) : Bool := s.job.isSome || 0 < s.blockingScans

def isFinished (s : Slot) (i : ℕ) : Bool := (s.tasks[i]?.map SyncTask.isFinished).getD false

def stopSync (s : Slot) : Slot :=
  match s.job with
  | none => s
  | some i => { s with job := none, phase := .idle, tasks := s.tasks.modify i SyncTask.abort }

/-- `resolved`: the answer of `resolve_grpc_url`. -/
def startStep (s : Slot) (c : ℕ) (resolved : Bool) : StartPc → Option Slot
  | .requested =>
    if s.refuses then some (s.setCall c (.returned (some .syncInProgress)))
    else some ({ s with phase := .preparing }.setCall c .resolving)
  | .resolving =>
    if resolved then
      some ({ s with tasks := s.tasks ++ [SyncTask.spawned] }.setCall c (.probing s.tasks.length))
    else some (s.setCall c (.returned (some .unresolvedEndpoint)))
  | .probing i => some (s.setCall c (.inserting i (s.isFinished i)))
  | .inserting i finished =>
    some ({ s with job := some i }.setCall c (if finished then .tidying i else .returned none))
  | .tidying _ => some ({ s with job := none }.setCall c (.returned none))
  | .returned _ => none

end Slot

/-! ## The service -/

inductive SlotAction
  /-- Someone calls `start_sync`. -/
  | startSync
  /-- A step of the call `c`. -/
  | start (c : ℕ) (resolved : Bool)
  | stopSync
  | task (i : ℕ) (move : TaskMove)
  deriving DecidableEq, Repr

def Slot.step (s : Slot) : SlotAction → Option Slot
  | .startSync => some { s with calls := s.calls ++ [.requested] }
  | .start c resolved => s.calls[c]?.bind (s.startStep c resolved)
  | .stopSync => some s.stopSync
  | .task i move =>
    s.tasks[i]?.bind fun t => (t.step move).map fun r => (s.setTask i r.1).apply r.2

def slot : System Slot SlotAction where
  init s := s = .initial
  step := Slot.step

def service (W : Type) [DecidableEq W] : System (W → Slot) (W × SlotAction) := slot.family W

inductive Slot.Step (s : Slot) : SlotAction → Slot → Prop
  | request : Step s .startSync { s with calls := s.calls ++ [.requested] }
  | refuse {c : ℕ} {resolved : Bool} (hc : s.calls[c]? = some .requested) (h : s.refuses = true) :
    Step s (.start c resolved) (s.setCall c (.returned (some .syncInProgress)))
  | accept {c : ℕ} {resolved : Bool} (hc : s.calls[c]? = some .requested) (h : s.refuses = false) :
    Step s (.start c resolved) ({ s with phase := .preparing }.setCall c .resolving)
  | spawn {c : ℕ} (hc : s.calls[c]? = some .resolving) :
    Step s (.start c true)
      ({ s with tasks := s.tasks ++ [SyncTask.spawned] }.setCall c (.probing s.tasks.length))
  | unresolved {c : ℕ} (hc : s.calls[c]? = some .resolving) :
    Step s (.start c false) (s.setCall c (.returned (some .unresolvedEndpoint)))
  | probe {c i : ℕ} {resolved : Bool} (hc : s.calls[c]? = some (.probing i)) :
    Step s (.start c resolved) (s.setCall c (.inserting i (s.isFinished i)))
  | insert {c i : ℕ} {resolved finished : Bool}
    (hc : s.calls[c]? = some (.inserting i finished)) :
    Step s (.start c resolved)
      ({ s with job := some i }.setCall c (if finished then .tidying i else .returned none))
  | tidy {c i : ℕ} {resolved : Bool} (hc : s.calls[c]? = some (.tidying i)) :
    Step s (.start c resolved) ({ s with job := none }.setCall c (.returned none))
  | stopIdle (hj : s.job = none) : Step s .stopSync s
  | stop {i : ℕ} (hj : s.job = some i) : Step s .stopSync
      { s with job := none, phase := .idle, tasks := s.tasks.modify i SyncTask.abort }
  | task {i : ℕ} {move : TaskMove} {t t' : SyncTask} {effect : Effect} (ht : s.tasks[i]? = some t)
    (hstep : t.step move = some (t', effect)) :
    Step s (.task i move) ((s.setTask i t').apply effect)

theorem step_cases {s s' : Slot} {a : SlotAction} (h : slot.step s a = some s') : s.Step a s' := by
  change s.step a = some s' at h
  cases a with
  | startSync =>
    cases h
    exact .request
  | stopSync =>
    cases h
    unfold Slot.stopSync
    split
    · exact .stopIdle ‹_›
    · exact .stop ‹_›
  | task i move =>
    obtain ⟨t, ht, h⟩ := Option.bind_eq_some_iff.mp h
    obtain ⟨⟨t', effect⟩, hstep, rfl⟩ := Option.map_eq_some_iff.mp h
    exact .task ht hstep
  | start c resolved =>
    obtain ⟨pc, hc, h⟩ := Option.bind_eq_some_iff.mp h
    cases pc with
    | requested =>
      rw [Slot.startStep] at h
      split at h
      · cases h
        exact .refuse hc ‹_›
      · cases h
        exact .accept hc (Bool.eq_false_iff.mpr ‹_›)
    | resolving =>
      rw [Slot.startStep] at h
      cases resolved with
      | true =>
        cases h
        exact .spawn hc
      | false =>
        cases h
        exact .unresolved hc
    | probing i =>
      cases h
      exact .probe hc
    | inserting i finished =>
      cases h
      exact .insert hc
    | tidying i =>
      cases h
      exact .tidy hc
    | returned error => cases h

namespace Slot

@[simp] theorem setCall_tasks (s : Slot) (c : ℕ) (pc : StartPc) :
    (s.setCall c pc).tasks = s.tasks := rfl

@[simp] theorem setCall_calls (s : Slot) (c : ℕ) (pc : StartPc) :
    (s.setCall c pc).calls = s.calls.set c pc := rfl

@[simp] theorem apply_calls (s : Slot) (e : Effect) : (s.apply e).calls = s.calls := by
  cases e <;> rfl

@[simp] theorem apply_tasks (s : Slot) (e : Effect) : (s.apply e).tasks = s.tasks := by
  cases e <;> rfl

@[simp] theorem setTask_calls (s : Slot) (i : ℕ) (t : SyncTask) :
    (s.setTask i t).calls = s.calls := rfl

@[simp] theorem setTask_tasks (s : Slot) (i : ℕ) (t : SyncTask) :
    (s.setTask i t).tasks = s.tasks.set i t := rfl

theorem apply_job (s : Slot) (e : Effect) :
    (s.apply e).job = if e = .clear then none else s.job := by
  cases e <;> rfl

end Slot

end ZbagSync
