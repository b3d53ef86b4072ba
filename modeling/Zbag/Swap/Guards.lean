import Zbag.Lib.Guard
import Zbag.Swap.Resume

/-!
# Swaps — one polling task and one refresh at a time

`start_polling` enters a swap in the registry before it spawns the task, and the task takes the
entry out with a guard that is dropped last, also when it panics; `refresh_swap_status` marks a swap
as in flight until it returns. Both are guards by swap id.
-/

namespace ZbagSwap

open ZbagWallet Transition Guard

def Poller.registered (p : Poller) : Bool :=
  match p.pc with
  | .spawn | .loop | .stop => true
  | .ended => false

def Refresh.inFlight (r : Refresh) : Bool :=
  match r.pc with
  | .status | .release => true
  | .acquire | .returned => false

def Poller.swapId (p : Poller) : SwapId := p.swap.id

def Refresh.swapId (r : Refresh) : SwapId := r.swap.id

structure Guarded (s : World) : Prop where
  pollers : Exclusive Poller.swapId Poller.registered s.jobs s.pollers
  refreshes : Exclusive Refresh.swapId Refresh.inFlight s.refreshInflight s.refreshes

theorem guarded_fresh : Guarded World.fresh := ⟨exclusive_nil _ _, exclusive_nil _ _⟩

structure SameGuards (s t : World) : Prop where
  jobs : t.jobs = s.jobs
  pollers : t.pollers = s.pollers
  refreshInflight : t.refreshInflight = s.refreshInflight
  refreshes : t.refreshes = s.refreshes

variable {s t : World} {i : ℕ} {p : Poller}

theorem Guarded.congr (hs : Guarded s) (h : SameGuards s t) : Guarded t := by
  refine ⟨?_, ?_⟩
  · rw [h.jobs, h.pollers]
    exact hs.pollers
  · rw [h.refreshInflight, h.refreshes]
    exact hs.refreshes

theorem Guarded.persist (hs : Guarded s) (w : WalletId) (swap : SwapInfo) (ok : Bool) :
    Guarded (persist s w swap ok) := by
  cases ok <;> exact hs.congr ⟨rfl, rfl, rfl, rfl⟩

theorem persistAnswer_sameGuards (s : World) (w : WalletId) (changed : Option SwapInfo)
    (ok : Bool) : SameGuards s (persistAnswer s w changed ok) := by
  cases changed <;> cases ok <;> exact ⟨rfl, rfl, rfl, rfl⟩

theorem Guarded.setCall (hs : Guarded s) (i : ℕ) (c : Call) (pc : CallPc) :
    Guarded (setCall s i c pc) := hs.congr ⟨rfl, rfl, rfl, rfl⟩

/-! ## The steps -/

theorem Guarded.startPolling (hs : Guarded s) (w : WalletId) (swap : SwapInfo) :
    Guarded (startPolling s w swap) := by
  unfold ZbagSwap.startPolling
  split_ifs with hjob
  · exact hs
  · have hdown : s.jobs (Poller.swapId ⟨w, swap, .spawn⟩) = false :=
      Bool.eq_false_of_not_eq_true hjob
    exact ⟨hs.pollers.enter hdown rfl, hs.refreshes⟩

theorem guarded_call {c : Call} {answer : CallAnswer} (hs : Guarded s)
    (h : callStep s i c answer = some t) : Guarded t := by
  cases callStep_callMove h with
  | insert | stop | prepare | execute => exact hs.congr ⟨rfl, rfl, rfl, rfl⟩
  | fail | pend => exact (hs.persist ..).setCall ..
  | poll => exact (hs.setCall ..).startPolling ..

theorem guarded_refresh {r : Refresh} {answer : RefreshAnswer} (hs : Guarded s)
    (hr : s.refreshes[i]? = some r) (h : refreshStep s i r answer = some t) :
    Guarded t := by
  cases answer with
  | acquire =>
    simp only [refreshStep] at h
    split_ifs at h with hpc hflag <;> cases h
    · refine ⟨hs.pollers, hs.refreshes.set_keep hr rfl ?_⟩
      simp [Refresh.inFlight, hpc]
    · have hout : r.inFlight = false := by simp [Refresh.inFlight, hpc]
      exact ⟨hs.pollers, hs.refreshes.set_enter hr rfl hout rfl
        (Bool.eq_false_of_not_eq_true hflag)⟩
  | status answer ok now =>
    simp only [refreshStep] at h
    split_ifs at h with hpc
    cases h
    have hsame := persistAnswer_sameGuards s r.walletId (applyAnswer r.swap now answer) ok
    have hu := hs.congr hsame
    rw [← hsame.refreshes] at hr
    refine ⟨hu.pollers, hu.refreshes.set_keep hr rfl ?_⟩
    simp [Refresh.inFlight, hpc]
  | release =>
    simp only [refreshStep] at h
    split_ifs at h with hpc
    cases h
    have hin : r.inFlight = true := by simp [Refresh.inFlight, hpc]
    exact ⟨hs.pollers, hs.refreshes.set_leave hr hin rfl⟩

theorem Guarded.setPoller {swap : SwapInfo} {pc : PollerPc} (hs : Guarded s)
    (hp : s.pollers[i]? = some p) (hid : swap.id = p.swap.id) (hin : p.registered = true)
    (hpc : Poller.registered { p with swap := swap, pc := pc } = true) :
    Guarded (setPoller s i p swap pc) :=
  ⟨hs.pollers.set_keep hp hid (hpc.trans hin.symm), hs.refreshes⟩

theorem Guarded.endPoller (hs : Guarded s) (hp : s.pollers[i]? = some p)
    (hin : p.registered = true) : Guarded (endPoller s i p) :=
  ⟨hs.pollers.set_leave hp hin rfl, hs.refreshes⟩

theorem polledCopy_id (p : Poller) (now : ℤ) (answer : StatusAnswer) :
    (polledCopy p now answer).id = p.swap.id := by
  cases answer with
  | status remote message confirmed =>
    simp only [polledCopy, applyAnswer]
    split_ifs <;> rfl
  | error e => rfl

theorem guarded_poll {answer : PollAnswer} (hs : Guarded s) (hp : s.pollers[i]? = some p)
    (h : pollStep s i p answer = some t) : Guarded t := by
  cases answer with
  | spawn ok =>
    simp only [pollStep] at h
    split_ifs at h with hpc hok <;> cases h
    · exact hs.setPoller hp rfl (by simp [Poller.registered, hpc]) rfl
    · exact hs.endPoller hp (by simp [Poller.registered, hpc])
  | quit =>
    simp only [pollStep] at h
    split_ifs at h with hpc
    cases h
    exact hs.setPoller hp rfl (by simp [Poller.registered, hpc]) rfl
  | status answer ok now =>
    simp only [pollStep] at h
    split_ifs at h with hpc haddr <;> cases h
    · exact hs.setPoller hp rfl (by simp [Poller.registered, hpc]) rfl
    · unfold pollAnswer
      by_cases hrate : answer = .error .rateLimited
      · rw [if_pos hrate]
        exact hs
      · have hsame := persistAnswer_sameGuards s p.walletId (applyAnswer p.swap now answer) ok
        rw [← hsame.pollers] at hp
        rw [if_neg hrate]
        refine (hs.congr hsame).setPoller hp (polledCopy_id p now answer)
          (by simp [Poller.registered, hpc]) ?_
        split_ifs <;> rfl
  | drop =>
    simp only [pollStep] at h
    split_ifs at h with hpc
    cases h
    exact hs.endPoller hp (by simp [Poller.registered, hpc])

/-- **Every step keeps the guards.** -/
theorem Guarded.step {a : Action} (hs : Guarded s) (h : step s a = some t) : Guarded t := by
  cases a with
  | requestSwapQuote record now =>
    cases h
    exact hs.congr ⟨rfl, rfl, rfl, rfl⟩
  | startSwap req now =>
    simp only [ZbagSwap.step] at h
    split at h <;> obtain rfl := Option.some.inj h <;> exact hs.congr ⟨rfl, rfl, rfl, rfl⟩
  | call i answer =>
    obtain ⟨c, -, h⟩ := Option.bind_eq_some_iff.mp h
    exact guarded_call hs h
  | refreshSwapStatus w id =>
    simp only [ZbagSwap.step] at h
    split at h <;> cases h
    · exact hs
    · exact ⟨hs.pollers, hs.refreshes.append rfl⟩
  | refresh i answer =>
    obtain ⟨r, hr, h⟩ := Option.bind_eq_some_iff.mp h
    exact guarded_refresh hs hr h
  | poll i answer =>
    obtain ⟨p, hp, h⟩ := Option.bind_eq_some_iff.mp h
    exact guarded_poll hs hp h
  | resumePendingSwaps w now =>
    cases h
    exact hs.congr ⟨rfl, rfl, rfl, rfl⟩
  | resume i =>
    obtain ⟨r, -, h⟩ := Option.bind_eq_some_iff.mp h
    unfold resumeStep at h
    split at h
    · cases h
    · rename_i swap left _
      cases h
      have hu : Guarded { s with resumes := s.resumes.set i { r with left := left } } :=
        hs.congr ⟨rfl, rfl, rfl, rfl⟩
      exact hu.startPolling ..
  | crash =>
    cases h
    exact ⟨exclusive_nil _ _, exclusive_nil _ _⟩

theorem guarded_of_reach (h : Reach swapSystem Free s) : Guarded s :=
  h.invariant (I := Guarded) (by rintro s rfl; exact guarded_fresh)
    fun _ _ _ hs _ hstep => hs.step hstep

/-- **One polling task and one refresh at a time**, for every swap; the registry has its entry
exactly while there is such a task. -/
theorem swap_tasks_exclusive {s : World} (h : Reach swapSystem Free s) (id : SwapId) :
    (∀ (i j : ℕ) (p q : Poller), s.pollers[i]? = some p → s.pollers[j]? = some q →
      p.swap.id = id → q.swap.id = id → p.pc ≠ .ended → q.pc ≠ .ended → i = j) ∧
    (s.jobs id = true ↔ ∃ p ∈ s.pollers, p.swap.id = id ∧ p.pc ≠ .ended) ∧
    ∀ (i j : ℕ) (r r' : Refresh), s.refreshes[i]? = some r → s.refreshes[j]? = some r' →
      r.swap.id = id → r'.swap.id = id → r.pc = .status ∨ r.pc = .release →
      r'.pc = .status ∨ r'.pc = .release → i = j := by
  have hs := guarded_of_reach h
  have hregistered (p : Poller) : p.registered = true ↔ p.pc ≠ .ended := by
    cases hpc : p.pc <;> simp [Poller.registered, hpc]
  have hinFlight (r : Refresh) : r.inFlight = true ↔ r.pc = .status ∨ r.pc = .release := by
    cases hpc : r.pc <;> simp [Refresh.inFlight, hpc]
  refine ⟨fun i j p q hi hj hp hq hpc hqc => ?_, ?_, fun i j r r' hi hj hr hr' hpc hpc' => ?_⟩
  · exact hs.pollers.holder_unique hi hj (hp.trans hq.symm) ((hregistered p).mpr hpc)
      ((hregistered q).mpr hqc)
  · simpa only [Poller.swapId, hregistered] using hs.pollers.flag_iff id
  · exact hs.refreshes.holder_unique hi hj (hr.trans hr'.symm) ((hinFlight r).mpr hpc)
      ((hinFlight r').mpr hpc')

def resumedWhilePolled : List Action :=
  depositPolled ++ [Action.refreshSwapStatus 1 7, .refresh 0 .acquire, .refreshSwapStatus 1 7,
    .refresh 1 .acquire, .resumePendingSwaps 1 1200, .resume 0]

theorem swap_tasks_exclusive_resumed :
    ∃ s, (Reach swapSystem Free s ∧ s.pollers.length = 1 ∧ s.refreshes.length = 2 ∧
      ∃ p ∈ s.pollers, p.swap.id = 7 ∧ p.pc ≠ .ended) ∧ s.jobs 7 = true := by
  obtain ⟨s, hs, hrun⟩ := exec_reach (S := swapSystem) (G := Free)
    (p := fun s => s.pollers.length = 1 ∧ s.refreshes.length = 2 ∧
      ∃ p ∈ s.pollers, p.swap.id = 7 ∧ p.pc ≠ .ended)
    resumedWhilePolled rfl (along_free _ _) (by decide +kernel)
  exact ⟨s, ⟨hs, hrun⟩, (swap_tasks_exclusive hs 7).2.1.mpr hrun.2.2⟩

end ZbagSwap
