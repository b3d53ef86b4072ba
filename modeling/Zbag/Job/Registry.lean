import Zbag.Job.Clear

/-!
# Jobs — the registry lists unfinished jobs

A starting call stores the registry entry of its job after it has spawned the task, and the task
drops the entry when it records a finished progress. A task that is faster leaves nothing to drop,
and the entry that is stored then stays: `list_jobs` returns the job as long as its record is there.
-/

namespace ZbagJob

open ZbagTx Transition

variable {W : Type} [DecidableEq W]

/-- In the order in which the jobs were started. -/
def listJobs (s : JobService W) (w : W) : List JobProgress :=
  (s.filter fun r => r.entry? = some w).filterMap JobRecord.progress?

/-- A job that is listed is unfinished, unless it is being started. -/
structure ListsUnfinished (s : JobService W) : Prop where
  released : ∀ r ∈ s, r.job.starting = false → r.finished = true → r.entry? = none
  listed : ∀ w, ∀ p ∈ listJobs s w, p.state.isTerminal = false

def StoresUnfinished (s : JobService W) : ServiceAction W → Prop
  | .job i .register => ∀ r ∈ s[i]?, r.finished = false
  | _ => True

instance (s : JobService W) : ∀ a, Decidable (StoresUnfinished s a)
  | .job i .register => inferInstanceAs (Decidable (∀ r ∈ s[i]?, r.finished = false))
  | .job _ .cancel | .job _ .abort | .job _ (.task _) | .job _ (.closure _) | .startJob _ _
  | .clear _ => isTrue trivial

/-! ## Runs -/

theorem listsUnfinished_of_released {s : JobService W} (hs : ∀ r ∈ s, r.Released) :
    ListsUnfinished s where
  released r hr _ hfinished := JobRecord.entry?_eq_none_iff.mpr (hs r hr hfinished)
  listed w p hp := by
    obtain ⟨r, hr, hprogress⟩ := List.mem_filterMap.mp hp
    obtain ⟨hmem, hentry⟩ := List.mem_filter.mp hr
    rw [Bool.eq_false_iff]
    intro hterminal
    have hfinished : r.finished = true := by
      rw [JobRecord.finished, hprogress]
      exact hterminal
    have hnone := JobRecord.entry?_eq_none_iff.mpr (hs r hmem hfinished)
    simp [hnone] at hentry

theorem storesUnfinished_of_lists {s t : JobService W} {a : ServiceAction W}
    (h : serviceStep s a = some t) (ht : ListsUnfinished t) : StoresUnfinished s a := by
  match a, h with
  | .job i .register, h =>
    intro r hr
    rw [Bool.eq_false_iff]
    intro hfinished
    obtain ⟨r₀, hr₀, h⟩ := Option.bind_eq_some_iff.mp h
    obtain rfl : r = r₀ := Option.some.inj (hr.symm.trans hr₀)
    obtain ⟨r', hr', rfl⟩ := Option.map_eq_some_iff.mp h
    have hmem : r' ∈ s.set i r' :=
      List.mem_set (List.getElem?_eq_some_iff.mp hr₀).1 _
    unfold JobRecord.step at hr'
    rw [if_neg (by simp)] at hr'
    obtain ⟨j, hj, rfl⟩ := Option.map_eq_some_iff.mp hr'
    obtain ⟨-, hj⟩ := Option.ite_none_right_eq_some.mp hj
    cases hj
    obtain ⟨hrec, hterminal⟩ := JobRecord.finished_iff.mp hfinished
    have hnone := ht.released _ hmem rfl
      (JobRecord.finished_iff.mpr ⟨(Bool.or_false _).trans hrec, hterminal⟩)
    cases JobRecord.entry?_eq_none_iff.mp hnone
  | .job _ .cancel, _ | .job _ .abort, _ | .job _ (.task _), _ | .job _ (.closure _), _
  | .startJob _ _, _ | .clear _, _ => trivial

/-- **The registry lists unfinished jobs only** exactly if no entry is stored for a finished one. -/
theorem lists_unfinished_iff (as : List (ServiceAction W)) (s : JobService W)
    (hrun : exec (jobService W) [] as = some s) :
    AfterEach (jobService W) ListsUnfinished [] as ↔
      Along (jobService W) StoresUnfinished [] as := by
  refine afterEach_iff_along (I := fun s : JobService W => ∀ r ∈ s, r.Released) ?_
    (fun _ hs => listsUnfinished_of_released hs)
    (fun _ _ _ _ hstep ht => storesUnfinished_of_lists hstep ht) (List.forall_mem_nil _) hrun
  intro s a t hs hguard hstep
  refine released_serviceStep hs ?_ hstep
  rintro i rfl
  exact hguard

def storedThenFails : List (ServiceAction ℕ) :=
  [.startJob 1 .send, .job 0 .register, .job 0 (.task .go), .job 0 (.task .go),
    .job 0 (.task (.openDb (some "disk")))]

theorem lists_unfinished_storedThenFails :
    (exec (jobService ℕ) [] storedThenFails).isSome = true ∧
      AfterEach (jobService ℕ) ListsUnfinished [] storedThenFails := by
  have hsome : (exec (jobService ℕ) [] storedThenFails).isSome = true := by decide +kernel
  obtain ⟨s, hrun⟩ := Option.isSome_iff_exists.mp hsome
  exact ⟨hsome, (lists_unfinished_iff storedThenFails s hrun).mpr (by decide +kernel)⟩

/-- The task is through before the starting call stores the entry. -/
def failsThenStored : List (ServiceAction ℕ) :=
  [.startJob 1 .send, .job 0 (.task .go), .job 0 (.task .go),
    .job 0 (.task (.openDb (some "disk"))), .job 0 .register]

/-- **A failed job stays listed.** -/
theorem failed_job_listed : ∃ s, Reach (jobService ℕ) Free s ∧
    s.map (fun r => (r.job.starting, r.job.task)) = [(false, .ended)] ∧
      listJobs s 1 = [.failed .send "failed to open wallet: disk" none] ∧
        ¬ ListsUnfinished s := by
  obtain ⟨s, hreach, hjob, hlist⟩ := exec_reach (S := jobService ℕ) (G := Free)
    (p := fun s => s.map (fun r => (r.job.starting, r.job.task)) = [(false, .ended)] ∧
      listJobs s 1 = [.failed .send "failed to open wallet: disk" none])
    failsThenStored rfl (along_free _ _) (by decide +kernel)
  refine ⟨s, hreach, hjob, hlist, fun h => ?_⟩
  have hunfinished := h.listed 1 _ (hlist ▸ List.mem_singleton_self _)
  cases hunfinished

end ZbagJob
