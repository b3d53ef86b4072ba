import Zbag.Job.Progress

/-!
# Jobs — clearing the finished jobs of a wallet

The job service keeps the progress of its jobs in one map and their registry entries in another.
Only a registry entry names the wallet of a job, and it is dropped when the job finishes.
`clear_finished_jobs` takes a finished job without an entry for one of the wallet it was called for.
-/

namespace ZbagJob

open ZbagTx Transition

variable {W : Type} [DecidableEq W]

/-! ## The service -/

/-- `recorded`: the progress map has a record of it. -/
structure JobRecord (W : Type) where
  owner : W
  job : Job
  recorded : Bool
  deriving DecidableEq, Repr

abbrev JobService (W : Type) := List (JobRecord W)

namespace JobRecord

/-- `state.progress.get(job_id)`. -/
def progress? (r : JobRecord W) : Option JobProgress :=
  if r.recorded then some r.job.progress else none

def entry? (r : JobRecord W) : Option W := if r.job.registered then some r.owner else none

def finished (r : JobRecord W) : Bool := r.progress?.any fun p => p.state.isTerminal

/-- Its entry names the wallet, or there is none. -/
def cleared (w : W) (r : JobRecord W) : Bool := r.finished && r.entry?.all (· = w)

def clear (w : W) (r : JobRecord W) : JobRecord W :=
  if r.cleared w then { r with recorded := false, job := { r.job with registered := false } } else r

def records (j : Job) : Action → Bool
  | .task answer => (taskNext j.jobType j.cancelled j.closure.result? j.task answer).any
      fun next => next.2.progress?.isSome
  | .closure answer => (closureNext j.cancelled j.closure answer).any
      fun next => next.2.progress?.isSome
  | .register | .cancel | .abort => false

def cancelUnrecorded (j : Job) : Job :=
  if j.registered then { j with registered := false, cancelled := true, aborted := true } else j

def step (r : JobRecord W) (a : Action) : Option (JobRecord W) :=
  if a = .cancel ∧ r.recorded = false then some { r with job := cancelUnrecorded r.job }
  else (ZbagJob.step r.job a).map fun j =>
    { r with job := j, recorded := r.recorded || records r.job a }

end JobRecord

def clearFinishedJobs (s : JobService W) (w : W) : JobService W := s.map (JobRecord.clear w)

inductive ServiceAction (W : Type)
  | startJob (owner : W) (jobType : JobType)
  | job (i : ℕ) (a : Action)
  | clear (w : W)
  deriving DecidableEq, Repr

def serviceStep (s : JobService W) : ServiceAction W → Option (JobService W)
  | .startJob owner jobType => some (s ++ [⟨owner, .fresh jobType, true⟩])
  | .job i a => s[i]?.bind fun r => (r.step a).map (s.set i)
  | .clear w => some (clearFinishedJobs s w)

/-- **The job service** with the jobs of all wallets. -/
def jobService (W : Type) [DecidableEq W] : System (JobService W) (ServiceAction W) where
  init s := s = []
  step := serviceStep

/-! ## What a call clears -/

def progressOf (s : JobService W) (i : ℕ) : Option JobProgress := s[i]?.bind JobRecord.progress?

/-- The records of the wallet's finished jobs are gone, and no others. -/
def ClearsExactly (s : JobService W) (w : W) : Prop :=
  ∀ (i : ℕ) (r : JobRecord W), s[i]? = some r →
    progressOf (clearFinishedJobs s w) i =
      if r.finished = true ∧ r.owner = w then none else r.progress?

def OwnsFinished (s : JobService W) (w : W) : Prop :=
  ∀ r ∈ s, r.finished = true → r.job.registered = false → r.owner = w

instance (s : JobService W) (w : W) : Decidable (OwnsFinished s w) :=
  inferInstanceAs (Decidable (∀ r ∈ s, _))

namespace JobRecord

variable (w : W) (r : JobRecord W)

theorem cleared_iff : r.cleared w = true ↔
    r.finished = true ∧ (r.job.registered = true → r.owner = w) := by
  unfold cleared entry?
  by_cases hreg : r.job.registered = true <;> simp [hreg]

theorem progress?_clear :
    (r.clear w).progress? = if r.cleared w = true then none else r.progress? := by
  unfold clear
  split_ifs <;> rfl

omit [DecidableEq W] in
variable {r} in
theorem progress?_ne_none (h : r.finished = true) : r.progress? ≠ none := by
  intro hnone
  rw [finished, hnone] at h
  cases h

end JobRecord

theorem progressOf_clear {s : JobService W} {i : ℕ} {r : JobRecord W} (h : s[i]? = some r) (w : W) :
    progressOf (clearFinishedJobs s w) i = if r.cleared w = true then none else r.progress? := by
  rw [progressOf, clearFinishedJobs, List.getElem?_map, h, Option.map_some, Option.bind_some,
    JobRecord.progress?_clear]

/-- **`clear_finished_jobs` clears exactly the finished jobs of its wallet** if and only if every
finished job without a registry entry is one of them. -/
theorem clears_exactly_iff (s : JobService W) (w : W) :
    ClearsExactly s w ↔ OwnsFinished s w := by
  constructor
  · intro h r hr hfinished hreg
    obtain ⟨i, hi⟩ := List.mem_iff_getElem?.mp hr
    by_contra howner
    have hclears := h i r hi
    have hcleared : r.cleared w = true :=
      (r.cleared_iff w).mpr ⟨hfinished, fun h => absurd (hreg.symm.trans h) nofun⟩
    rw [progressOf_clear hi, if_pos hcleared, if_neg fun h => howner h.2] at hclears
    exact JobRecord.progress?_ne_none hfinished hclears.symm
  · intro h i r hi
    rw [progressOf_clear hi]
    refine if_congr ?_ rfl rfl
    rw [JobRecord.cleared_iff]
    constructor
    · rintro ⟨hfinished, howner⟩
      refine ⟨hfinished, ?_⟩
      by_cases hreg : r.job.registered = true
      · exact howner hreg
      · exact h r (List.mem_of_getElem? hi) hfinished (Bool.eq_false_iff.mpr hreg)
    · rintro ⟨hfinished, howner⟩
      exact ⟨hfinished, fun _ => howner⟩

/-! ## Runs -/

def StoredInTime (s : JobService W) : ServiceAction W → Prop
  | .job i .register => ∀ r ∈ s[i]?, r.job.progress.state.isTerminal = false
  | _ => True

theorem registered_emit {p : JobProgress} (j : Job) (h : p.state.isTerminal = true) :
    (j.perform (.emit p)).registered = false := by
  change (j.registered && !p.state.isTerminal) = false
  rw [h, Bool.not_true, Bool.and_false]

theorem TaskMove.ne_progress {t : JobType} {cancelled : Bool} {result : Option ClosureResult}
    {pc pc' : TaskPc} {answer : TaskAnswer} {e : Effect}
    (h : TaskMove t cancelled result pc answer pc' e) (p : JobProgress) : e ≠ .progress p := by
  cases h <;> exact nofun

namespace JobRecord

/-- A finished record has no entry. -/
def Released (r : JobRecord W) : Prop := r.finished = true → r.job.registered = false

omit [DecidableEq W] in
theorem finished_iff {r : JobRecord W} :
    r.finished = true ↔ r.recorded = true ∧ r.job.progress.state.isTerminal = true := by
  unfold finished progress?
  by_cases hrecorded : r.recorded = true <;> simp [hrecorded]

omit [DecidableEq W] in
theorem entry?_eq_none_iff {r : JobRecord W} : r.entry? = none ↔ r.job.registered = false := by
  unfold entry?
  by_cases hreg : r.job.registered = true <;> simp [hreg]

omit [DecidableEq W] in
theorem released_of_effect {r : JobRecord W} {j : Job} {e : Effect} {recorded : Bool}
    (hr : r.Released) (hreg : j.registered = r.job.registered)
    (hprogress : j.progress = r.job.progress)
    (hrecorded : recorded = (r.recorded || e.progress?.isSome))
    (he : ∀ p, e = .progress p → p.state.isTerminal = false) :
    Released { r with job := j.perform e, recorded := recorded } := by
  intro hfinished
  obtain ⟨hrec, hterminal⟩ := finished_iff.mp hfinished
  cases e with
  | emit p => exact registered_emit j hterminal
  | progress p => exact absurd ((he p rfl).symm.trans hterminal) nofun
  | none | spawn | store _ | broadcast _ _ _ =>
    have hsame : recorded = r.recorded := by simpa [Effect.progress?] using hrecorded
    have hold : r.finished = true :=
      finished_iff.mpr ⟨hsame.symm.trans hrec, by rw [← hprogress]; exact hterminal⟩
    exact hreg.trans (hr hold)

omit [DecidableEq W] in
theorem released_of_step {r r' : JobRecord W} {a : Action} (hr : r.Released)
    (hstored : a = .register → r.finished = false) (h : r.step a = some r') : r'.Released := by
  unfold step at h
  split_ifs at h with hcancel
  · cases h
    intro hfinished
    exact absurd ((finished_iff.mp hfinished).1.symm.trans hcancel.2) nofun
  · obtain ⟨j, hj, rfl⟩ := Option.map_eq_some_iff.mp h
    cases step_move hj with
    | register =>
      intro hfinished
      obtain ⟨hrec, hterminal⟩ := finished_iff.mp hfinished
      have hold : r.finished = true :=
        finished_iff.mpr ⟨(Bool.or_false _).symm.trans hrec, hterminal⟩
      exact absurd ((hstored rfl).symm.trans hold) nofun
    | kept => exact released_of_effect (e := .none) hr rfl rfl rfl nofun
    | cancelled => exact fun _ => rfl
    | abort =>
      exact released_of_effect (j := { r.job with task := .ended }) (e := .none) hr rfl rfl rfl
        nofun
    | task answer hj =>
      rw [ZbagJob.step] at hj
      split_ifs at hj
      obtain ⟨⟨pc, e⟩, hnext, rfl⟩ := Option.map_eq_some_iff.mp hj
      refine released_of_effect (j := { r.job with task := pc }) hr rfl rfl ?_ ?_
      · rw [records, hnext, Option.any_some]
      · exact fun p he => absurd he ((taskNext_move hnext).ne_progress p)
    | closure answer hj =>
      obtain ⟨⟨pc, e⟩, hnext, rfl⟩ := Option.map_eq_some_iff.mp hj
      refine released_of_effect (j := { r.job with closure := pc }) hr rfl rfl ?_ ?_
      · rw [records, hnext, Option.any_some]
      · rintro p rfl
        rw [(closureNext_move hnext).running_of rfl]
        rfl

theorem released_clear {r : JobRecord W} (hr : r.Released) (w : W) : (r.clear w).Released := by
  unfold clear
  split_ifs
  · exact fun _ => rfl
  · exact hr

end JobRecord

theorem released_serviceStep {s t : JobService W} {a : ServiceAction W}
    (hs : ∀ r ∈ s, r.Released)
    (hstored : ∀ i, a = .job i .register → ∀ r ∈ s[i]?, r.finished = false)
    (h : serviceStep s a = some t) : ∀ r ∈ t, r.Released := by
  cases a with
  | startJob owner jobType =>
    cases h
    exact List.forall_mem_append.mpr ⟨hs, List.forall_mem_singleton.mpr fun _ => rfl⟩
  | job i a =>
    obtain ⟨r, hr, h⟩ := Option.bind_eq_some_iff.mp h
    obtain ⟨r', hr', rfl⟩ := Option.map_eq_some_iff.mp h
    have hreleased : r'.Released := by
      refine JobRecord.released_of_step (hs r (List.mem_of_getElem? hr)) ?_ hr'
      rintro rfl
      exact hstored i rfl r hr
    intro u hu
    obtain hu | rfl := List.mem_or_eq_of_mem_set hu
    · exact hs u hu
    · exact hreleased
  | clear w =>
    cases h
    intro u hu
    obtain ⟨r, hr, rfl⟩ := List.mem_map.mp hu
    exact JobRecord.released_clear (hs r hr) w

theorem released_of_reach {s : JobService W} (h : Reach (jobService W) StoredInTime s) :
    ∀ r ∈ s, r.Released := by
  refine h.invariant (I := fun s => ∀ r ∈ s, r.Released) ?_ ?_
  · rintro s rfl
    exact List.forall_mem_nil _
  · intro s a t hs hguard hstep
    refine released_serviceStep hs ?_ hstep
    rintro i rfl r hr
    rw [Bool.eq_false_iff]
    intro hfinished
    exact absurd ((hguard r hr).symm.trans (JobRecord.finished_iff.mp hfinished).2) nofun

/-- **Where entries are stored in time, every finished record is cleared**, whichever wallet it is.
-/
theorem clears_all_finished {s : JobService W} (h : Reach (jobService W) StoredInTime s) (w : W) :
    ∀ r ∈ clearFinishedJobs s w, r.finished = false := by
  intro u hu
  obtain ⟨r, hr, rfl⟩ := List.mem_map.mp hu
  by_cases hfinished : r.finished = true
  · have hreg := released_of_reach h r hr hfinished
    have hcleared : r.cleared w = true :=
      (r.cleared_iff w).mpr ⟨hfinished, fun h => absurd (hreg.symm.trans h) nofun⟩
    rw [JobRecord.finished, JobRecord.progress?_clear, if_pos hcleared]
    rfl
  · rw [Bool.not_eq_true] at hfinished
    rw [JobRecord.clear, if_neg fun h => absurd (hfinished.symm.trans ((r.cleared_iff w).mp h).1)
      nofun]
    exact hfinished

theorem clears_all_finished_run : ∃ s, Reach (jobService ℕ) StoredInTime s ∧
    progressOf s 0 = some (.cancelled .send) ∧
      ∀ r ∈ clearFinishedJobs s 2, r.finished = false := by
  obtain ⟨s, hs, hcancelled⟩ := exec_reach (S := jobService ℕ) (G := StoredInTime)
    (p := fun s => progressOf s 0 = some (.cancelled .send))
    [.startJob 1 .send, .job 0 .register, .job 0 .cancel] rfl
    (by simp [Along, StoredInTime, jobService, serviceStep]; rfl) (by decide +kernel)
  exact ⟨s, hs, hcancelled, clears_all_finished hs 2⟩

def oneFinished : List (ServiceAction ℕ) :=
  [.startJob 1 .send, .job 0 .register, .startJob 2 .shield, .job 1 .register, .job 0 .cancel]

/-- **A call for wallet `2` clears the finished job of wallet `1`.** -/
theorem clears_other_wallet : ∃ s, Reach (jobService ℕ) Free s ∧
    progressOf s 0 = some (.cancelled .send) ∧ s[0]?.map JobRecord.owner = some 1 ∧
      progressOf (clearFinishedJobs s 2) 0 = none ∧ ¬ ClearsExactly s 2 := by
  obtain ⟨s, hreach, hprogress, howner, hgone⟩ := exec_reach (S := jobService ℕ) (G := Free)
    (p := fun s => progressOf s 0 = some (.cancelled .send) ∧
      s[0]?.map JobRecord.owner = some 1 ∧ progressOf (clearFinishedJobs s 2) 0 = none)
    oneFinished rfl (along_free _ _) (by decide +kernel)
  refine ⟨s, hreach, hprogress, howner, hgone, fun h => ?_⟩
  obtain ⟨r, hr, hr1⟩ := Option.map_eq_some_iff.mp howner
  have hclears := h 0 r hr
  rw [hgone, if_neg (by rw [hr1]; exact nofun)] at hclears
  rw [progressOf, hr, Option.bind_some, ← hclears] at hprogress
  cases hprogress

end ZbagJob
