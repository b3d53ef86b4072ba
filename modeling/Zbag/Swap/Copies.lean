import Zbag.Swap.Service

/-!
# Swaps — copies in flight

Calls and tasks work on their own copies of a swap and write whole rows back. This module says
once what a step of the service does to the copies and to the rows.

* `writeOf`: the copy that an action writes back, as it was and as it is stored;
* `step_derived`, `step_swaps`: the copies and the rows after a step.
-/

namespace ZbagSwap

open ZbagWallet Transition

def CallPc.swap? : CallPc → Option SwapInfo
  | .insert | .returned _ => none
  | .prepare swap _ | .execute swap | .pend swap | .fail swap _ | .poll swap => some swap

def PollerPc.polls : PollerPc → Bool
  | .spawn | .loop => true
  | .stop | .ended => false

def RefreshPc.reads : RefreshPc → Bool
  | .acquire | .status => true
  | .release | .returned => false

/-- It may write the copy back. -/
inductive Holds (s : World) : WalletId → SwapInfo → Prop
  | call {c : Call} {swap : SwapInfo} :
      c ∈ s.calls → c.pc.swap? = some swap → Holds s c.walletId swap
  | poller {p : Poller} : p ∈ s.pollers → p.pc.polls = true → Holds s p.walletId p.swap
  | refresh {r : Refresh} : r ∈ s.refreshes → r.pc.reads = true → Holds s r.walletId r.swap
  | resume {r : Resume} {swap : SwapInfo} :
      r ∈ s.resumes → swap ∈ r.left → Holds s r.walletId swap

/-- It comes from an earlier copy of the swap, or from a row that is not terminal. -/
inductive Derived (s : World) (t : SwapTable) (w : WalletId) (swap : SwapInfo) : Prop
  | copy (old : SwapInfo) : Holds s w old → swap.terms = old.terms →
      swap.state = old.state ∨ swap.state.isTerminal = false → Derived s t w swap
  | row (row : SwapRow) : row ∈ t → row.walletId = w → row.info = swap →
      swap.state.isTerminal = false → Derived s t w swap

variable {s : World} {w : WalletId} {swap : SwapInfo} {t : World} {new : SwapInfo} {now : ℤ}
  {answer : StatusAnswer} {a : Action} {i : ℕ} {c : Call} {p : Poller}

theorem Derived.kept {t : SwapTable} (h : Holds s w swap) : Derived s t w swap :=
  .copy swap h rfl (.inl rfl)

theorem derived_of (h : Holds t w swap)
    (hcalls : ∀ c ∈ t.calls, c ∈ s.calls ∨
      ∀ swap, c.pc.swap? = some swap → Derived s t.swaps c.walletId swap)
    (hpollers : ∀ p ∈ t.pollers, p ∈ s.pollers ∨
      (p.pc.polls = true → Derived s t.swaps p.walletId p.swap))
    (hrefreshes : ∀ r ∈ t.refreshes, r ∈ s.refreshes ∨
      (r.pc.reads = true → Derived s t.swaps r.walletId r.swap))
    (hresumes : ∀ r ∈ t.resumes, r ∈ s.resumes ∨
      ∀ swap ∈ r.left, Derived s t.swaps r.walletId swap) : Derived s t.swaps w swap := by
  cases h with
  | call hc hp =>
    rcases hcalls _ hc with h | h
    · exact .kept (.call h hp)
    · exact h _ hp
  | poller hp hpc =>
    rcases hpollers _ hp with h | h
    · exact .kept (.poller h hpc)
    · exact h hpc
  | refresh hr hpc =>
    rcases hrefreshes _ hr with h | h
    · exact .kept (.refresh h hpc)
    · exact h hpc
  | resume hr hl =>
    rcases hresumes _ hr with h | h
    · exact .kept (.resume h hl)
    · exact h _ hl

/-! ## Writes -/

/-- As its holder has it, and as it is stored. -/
structure Write where
  walletId : WalletId
  old : SwapInfo
  new : SwapInfo
  deriving DecidableEq, Repr

def writeOf (s : World) : Action → Option Write
  | .call i (.update true now) =>
    s.calls[i]?.bind fun c =>
      match c.pc with
      | .fail swap e => some ⟨c.walletId, swap, failedSwap swap e now⟩
      | .pend swap => some ⟨c.walletId, swap, pendingSwap swap now⟩
      | _ => none
  | .refresh i (.status answer true now) =>
    s.refreshes[i]?.bind fun r =>
      if r.pc = .status then
        (applyAnswer r.swap now answer).map fun new => ⟨r.walletId, r.swap, new⟩
      else none
  | .poll i (.status answer true now) =>
    s.pollers[i]?.bind fun p =>
      if p.pc = .loop ∧ p.swap.depositAddress ≠ none ∧ answer ≠ .error .rateLimited then
        (applyAnswer p.swap now answer).map fun new => ⟨p.walletId, p.swap, new⟩
      else none
  | _ => none

theorem applyAnswer_terms (h : applyAnswer swap now answer = some new) :
    new.terms = swap.terms := by
  unfold applyAnswer at h
  split at h
  · split_ifs at h
    cases h
    rfl
  · cases h
    rfl

/-- **What is written is a held copy with its terms.** -/
theorem writeOf_holds {wr : Write} (h : writeOf s a = some wr) :
    Holds s wr.walletId wr.old ∧ wr.new.terms = wr.old.terms := by
  unfold writeOf at h
  split at h
  · obtain ⟨c, hc, h⟩ := Option.bind_eq_some_iff.mp h
    have hmem := List.mem_of_getElem? hc
    split at h
    · rename_i swap e hpc
      cases h
      exact ⟨.call hmem (by rw [hpc]; rfl), rfl⟩
    · rename_i swap hpc
      cases h
      exact ⟨.call hmem (by rw [hpc]; rfl), rfl⟩
    · cases h
  · obtain ⟨r, hr, h⟩ := Option.bind_eq_some_iff.mp h
    split_ifs at h with hpc
    obtain ⟨new, hnew, rfl⟩ := Option.map_eq_some_iff.mp h
    exact ⟨.refresh (List.mem_of_getElem? hr) (by rw [hpc]; rfl), applyAnswer_terms hnew⟩
  · obtain ⟨p, hp, h⟩ := Option.bind_eq_some_iff.mp h
    split_ifs at h with hpc
    obtain ⟨new, hnew, rfl⟩ := Option.map_eq_some_iff.mp h
    exact ⟨.poller (List.mem_of_getElem? hp) (by rw [hpc.1]; rfl), applyAnswer_terms hnew⟩
  · cases h

def Action.watches : Action → Bool
  | .refreshSwapStatus .. | .refresh .. | .poll .. | .resumePendingSwaps .. | .resume _ => true
  | .requestSwapQuote .. | .startSwap .. | .call .. | .crash => false

def Inserts (s : World) (t : SwapTable) : Prop :=
  ∃ c ∈ s.calls, c.pc = .insert ∧ ∃ id now,
    insertSwap s.swaps c.walletId (newSwap c.record id now) = some t

/-- The rows after a step. -/
inductive Stores (s : World) (a : Action) (t : SwapTable) : Prop
  | same : t = s.swaps → Stores s a t
  | insert : a.watches = false → Inserts s t → Stores s a t
  | write (wr : Write) : writeOf s a = some wr → t = updateSwap s.swaps wr.walletId wr.new →
      Stores s a t

/-! ## The steps -/

structure SameTasks (s u : World) : Prop where
  calls : u.calls = s.calls
  pollers : u.pollers = s.pollers
  refreshes : u.refreshes = s.refreshes
  resumes : u.resumes = s.resumes

theorem SameTasks.refl (s : World) : SameTasks s s := ⟨rfl, rfl, rfl, rfl⟩

theorem persist_sameTasks (s : World) (w : WalletId) (swap : SwapInfo) (ok : Bool) :
    SameTasks s (persist s w swap ok) := by
  cases ok <;> exact ⟨rfl, rfl, rfl, rfl⟩

theorem persistAnswer_sameTasks (s : World) (w : WalletId) (changed : Option SwapInfo)
    (ok : Bool) : SameTasks s (persistAnswer s w changed ok) := by
  cases changed with
  | none => exact .refl s
  | some swap => exact persist_sameTasks s w swap ok

theorem setCall_derived (s u : World) {pc : CallPc} (hu : SameTasks s u)
    (hpc : ∀ swap, pc.swap? = some swap → Derived s u.swaps c.walletId swap)
    (h : Holds (setCall u i c pc) w swap) :
    Derived s (setCall u i c pc).swaps w swap := by
  refine derived_of h (fun c' hc' => ?_) (fun p hp => .inl ?_) (fun r hr => .inl ?_)
    fun r hr => .inl ?_
  · rcases List.mem_or_eq_of_mem_set hc' with hmem | rfl
    · exact .inl (hu.calls ▸ hmem)
    · exact .inr hpc
  · exact hu.pollers ▸ hp
  · exact hu.refreshes ▸ hr
  · exact hu.resumes ▸ hr

theorem setPoller_derived (s u : World) {pc : PollerPc} (hu : SameTasks s u)
    (hpc : pc.polls = true → Derived s u.swaps p.walletId new)
    (h : Holds (setPoller u i p new pc) w swap) :
    Derived s (setPoller u i p new pc).swaps w swap := by
  refine derived_of h (fun c hc => .inl ?_) (fun p' hp' => ?_) (fun r hr => .inl ?_)
    fun r hr => .inl ?_
  · exact hu.calls ▸ hc
  · rcases List.mem_or_eq_of_mem_set hp' with hmem | rfl
    · exact .inl (hu.pollers ▸ hmem)
    · exact .inr hpc
  · exact hu.refreshes ▸ hr
  · exact hu.resumes ▸ hr

theorem setRefresh_derived (s u : World) {r : Refresh} {pc : RefreshPc} (hu : SameTasks s u)
    (hpc : pc.reads = true → Derived s u.swaps r.walletId r.swap)
    (h : Holds (setRefresh u i r pc) w swap) :
    Derived s (setRefresh u i r pc).swaps w swap := by
  refine derived_of h (fun c hc => .inl ?_) (fun p hp => .inl ?_) (fun r' hr' => ?_)
    fun r' hr' => .inl ?_
  · exact hu.calls ▸ hc
  · exact hu.pollers ▸ hp
  · rcases List.mem_or_eq_of_mem_set hr' with hmem | rfl
    · exact .inl (hu.refreshes ▸ hmem)
    · exact .inr hpc
  · exact hu.resumes ▸ hr'

structure Effect (s : World) (a : Action) (t : World) : Prop where
  derived : ∀ {w : WalletId} {swap : SwapInfo}, Holds t w swap → Derived s t.swaps w swap
  stores : Stores s a t.swaps

theorem startPolling_derived {u : World} {w₀ : WalletId}
    (hu : ∀ {w : WalletId} {swap : SwapInfo}, Holds u w swap → Derived s u.swaps w swap)
    (hnew : Derived s u.swaps w₀ new) (h : Holds (startPolling u w₀ new) w swap) :
    Derived s (startPolling u w₀ new).swaps w swap := by
  by_cases hj : u.jobs new.id = true
  · rw [startPolling, if_pos hj] at h ⊢
    exact hu h
  · rw [startPolling, if_neg hj] at h ⊢
    cases h with
    | call hc hp => exact hu (.call hc hp)
    | refresh hr hpc => exact hu (.refresh hr hpc)
    | resume hr hl => exact hu (.resume hr hl)
    | poller hp hpc =>
      rcases List.mem_append.mp hp with hp | hp
      · exact hu (.poller hp hpc)
      · obtain rfl := List.mem_singleton.mp hp
        exact hnew

theorem newSwap_not_terminal (record : QuoteRecord) (id : SwapId) (now : ℤ) :
    (newSwap record id now).state.isTerminal = false := by
  unfold newSwap
  dsimp only
  split_ifs <;> rfl

/-! ### `start_swap` -/

/-- What a turn of `start_swap` does, one case for each way it goes on. -/
inductive CallMove (s : World) (i : ℕ) (c : Call) : CallAnswer → World → Prop
  | insert {accounts : Except String (List (AccountId × AccountType))} {id : SwapId} {now : ℤ}
      {t : SwapTable} {next : CallPc} :
      c.pc = .insert → insertSwap s.swaps c.walletId (newSwap c.record id now) = some t →
      (next = .poll (newSwap c.record id now) ∨ c.record.intent.swapType = .fromZec ∧
        ∃ account, next = .prepare (newSwap c.record id now) account) →
      CallMove s i c (.insert accounts id none now) (setCall { s with swaps := t } i c next)
  | stop {answer : CallAnswer} {e : String} :
      CallMove s i c answer (setCall s i c (.returned (.error e)))
  | prepare {swap : SwapInfo} {account : AccountId} {error : Option String} :
      c.pc = .prepare swap account →
      CallMove s i c (.prepare error) (setCall s i c (orFail swap error (.execute swap)))
  | execute {swap : SwapInfo} {sent : Bool} {error : Option String} : c.pc = .execute swap →
      CallMove s i c (.execute sent error)
        (setCall { s with sends := ⟨c.record.quote.correlationId, swap.id, sent⟩ :: s.sends } i c
          (orFail swap error (.pend swap)))
  | fail {swap : SwapInfo} {e : String} {ok : Bool} {now : ℤ} : c.pc = .fail swap e →
      CallMove s i c (.update ok now)
        (setCall (persist s c.walletId (failedSwap swap e now) ok) i c (.returned (.error e)))
  | pend {swap : SwapInfo} {ok : Bool} {now : ℤ} : c.pc = .pend swap →
      CallMove s i c (.update ok now)
        (setCall (persist s c.walletId (pendingSwap swap now) ok) i c
          (if ok then .poll (pendingSwap swap now)
            else .returned (.error "failed to update swap")))
  | poll {swap : SwapInfo} : c.pc = .poll swap →
      CallMove s i c .poll (startPolling (setCall s i c (.returned (.ok swap))) c.walletId swap)

theorem insertRow_callMove {accounts : Except String (List (AccountId × AccountType))}
    {id : SwapId} {error : Option String} {next : CallPc} (hpc : c.pc = .insert)
    (hnext : next = .poll (newSwap c.record id now) ∨ c.record.intent.swapType = .fromZec ∧
      ∃ account, next = .prepare (newSwap c.record id now) account) :
    CallMove s i c (.insert accounts id error now)
      (insertRow s i c (newSwap c.record id now) error next) := by
  unfold insertRow
  split
  · rename_i hins
    exact .insert hpc hins hnext
  · exact .stop
  · exact .stop

theorem callStep_callMove {answer : CallAnswer} (h : callStep s i c answer = some t) :
    CallMove s i c answer t := by
  cases answer with
  | insert accounts id error now =>
    simp only [callStep] at h
    split at h
    · rename_i hpc
      split at h
      · cases h
        exact insertRow_callMove hpc (.inl rfl)
      · rename_i htype
        split at h <;> cases h
        · exact .stop
        · exact insertRow_callMove hpc (.inr ⟨htype, _, rfl⟩)
    · cases h
  | prepare error =>
    simp only [callStep] at h
    split at h <;> cases h
    exact .prepare ‹_›
  | execute sent error =>
    simp only [callStep] at h
    split at h <;> cases h
    exact .execute ‹_›
  | update ok now =>
    simp only [callStep] at h
    split at h <;> cases h
    · exact .fail ‹_›
    · exact .pend ‹_›
  | poll =>
    simp only [callStep] at h
    split at h <;> cases h
    exact .poll ‹_›

theorem orFail_swap? {error : Option String} {next : CallPc} (hnext : next.swap? = some swap)
    (h : (orFail swap error next).swap? = some new) :
    new = swap := by
  cases error with
  | none => exact Option.some.inj (h.symm.trans hnext)
  | some e => exact (Option.some.inj h).symm

theorem callStep_effect {answer : CallAnswer} (hc : s.calls[i]? = some c)
    (h : callStep s i c answer = some t) :
    Effect s (.call i answer) t := by
  have hmem := List.mem_of_getElem? hc
  cases callStep_callMove h with
  | @insert _ id now u next hpc hins hnext =>
    refine ⟨fun h => setCall_derived s { s with swaps := u } ⟨rfl, rfl, rfl, rfl⟩
      (fun swap hswap => ?_) h, .insert rfl ⟨c, hmem, hpc, id, now, hins⟩⟩
    obtain rfl : swap = newSwap c.record id now := by
      rcases hnext with rfl | ⟨_, _, rfl⟩ <;> exact (Option.some.inj hswap).symm
    exact .row _ ((Table.mem_insert hins).mpr (.inl rfl)) rfl rfl (newSwap_not_terminal ..)
  | stop =>
    exact ⟨fun h => setCall_derived s s (.refl s) (fun _ hs => by cases hs) h, .same rfl⟩
  | prepare hpc =>
    refine ⟨fun h => setCall_derived s s (.refl s) (fun new hnew => ?_) h, .same rfl⟩
    obtain rfl := orFail_swap? rfl hnew
    exact .kept (.call hmem (by rw [hpc]; rfl))
  | @execute swap sent _ hpc =>
    refine ⟨fun h => setCall_derived s
      { s with sends := ⟨c.record.quote.correlationId, swap.id, sent⟩ :: s.sends }
      ⟨rfl, rfl, rfl, rfl⟩ (fun new hnew => ?_) h, .same rfl⟩
    obtain rfl := orFail_swap? rfl hnew
    exact .kept (.call hmem (by rw [hpc]; rfl))
  | @fail swap e ok now hpc =>
    refine ⟨fun h => setCall_derived s _ (persist_sameTasks ..) (fun _ hs => by cases hs) h, ?_⟩
    cases ok with
    | false => exact .same rfl
    | true =>
      exact .write ⟨c.walletId, swap, failedSwap swap e now⟩ (by simp [writeOf, hc, hpc]) rfl
  | @pend swap ok now hpc =>
    refine ⟨fun h => setCall_derived s _ (persist_sameTasks ..) (fun new hnew => ?_) h, ?_⟩
    · cases ok with
      | false => cases hnew
      | true =>
        cases hnew
        exact .copy swap (.call hmem (by rw [hpc]; rfl)) rfl (.inr rfl)
    · cases ok with
      | false => exact .same rfl
      | true =>
        exact .write ⟨c.walletId, swap, pendingSwap swap now⟩ (by simp [writeOf, hc, hpc]) rfl
  | @poll swap hpc =>
    have hheld : Holds s c.walletId swap := .call hmem (by rw [hpc]; rfl)
    exact ⟨startPolling_derived (setCall_derived s s (.refl s) fun _ hs => by cases hs)
      (.kept hheld), .same (startPolling_swaps ..)⟩

/-! ### `refresh_swap_status` -/

theorem refreshStep_effect {r : Refresh} {answer : RefreshAnswer} (hr : s.refreshes[i]? = some r)
    (h : refreshStep s i r answer = some t) :
    Effect s (.refresh i answer) t := by
  have hmem := List.mem_of_getElem? hr
  cases answer with
  | acquire =>
    simp only [refreshStep] at h
    split_ifs at h with hpc hin <;> cases h
    · exact ⟨fun h => setRefresh_derived s s (.refl s) nofun h,
        .same rfl⟩
    · exact ⟨fun h => setRefresh_derived s
        { s with refreshInflight := Function.update s.refreshInflight r.swap.id true }
        ⟨rfl, rfl, rfl, rfl⟩ (fun _ => .kept (.refresh hmem (by rw [hpc]; rfl))) h, .same rfl⟩
  | status answer ok now =>
    simp only [refreshStep] at h
    split_ifs at h with hpc
    cases h
    refine ⟨fun h => setRefresh_derived s _ (persistAnswer_sameTasks ..)
      nofun h, ?_⟩
    cases hnew : applyAnswer r.swap now answer with
    | none => exact .same rfl
    | some new =>
      cases ok with
      | false => exact .same rfl
      | true => exact .write ⟨r.walletId, r.swap, new⟩ (by simp [writeOf, hr, hpc, hnew]) rfl
  | release =>
    simp only [refreshStep] at h
    split_ifs at h
    cases h
    exact ⟨fun h => setRefresh_derived s
      { s with refreshInflight := Function.update s.refreshInflight r.swap.id false }
      ⟨rfl, rfl, rfl, rfl⟩ nofun h, .same rfl⟩

/-! ### Polling -/

theorem polledCopy_derived {u : SwapTable} (hheld : Holds s p.walletId p.swap)
    (hloop : (answer.isStatus && (polledCopy p now answer).state.isTerminal) = false) :
    Derived s u p.walletId (polledCopy p now answer) := by
  unfold polledCopy at hloop ⊢
  cases hnew : applyAnswer p.swap now answer with
  | none => exact .kept hheld
  | some new =>
    rw [hnew] at hloop
    refine .copy p.swap hheld (applyAnswer_terms hnew) ?_
    cases answer with
    | status remote message confirmed => exact .inr hloop
    | error e =>
      rw [applyAnswer, Option.some.injEq] at hnew
      subst hnew
      exact .inl rfl

theorem pollAnswer_effect {ok : Bool} (hp : s.pollers[i]? = some p) (hpc : p.pc = .loop)
    (haddr : p.swap.depositAddress ≠ none) :
    Effect s (.poll i (.status answer ok now)) (pollAnswer s i p answer ok now) := by
  have hheld : Holds s p.walletId p.swap :=
    .poller (List.mem_of_getElem? hp) (by rw [hpc]; rfl)
  unfold pollAnswer
  by_cases hlim : answer = .error .rateLimited
  · rw [if_pos hlim]
    exact ⟨.kept, .same rfl⟩
  · rw [if_neg hlim]
    refine ⟨fun h => setPoller_derived s _ (persistAnswer_sameTasks ..) (fun hpolls => ?_) h, ?_⟩
    · refine polledCopy_derived hheld ?_
      by_contra hstop
      rw [Bool.not_eq_false] at hstop
      rw [if_pos hstop] at hpolls
      cases hpolls
    · cases hnew : applyAnswer p.swap now answer with
      | none => exact .same rfl
      | some new =>
        cases ok with
        | false => exact .same rfl
        | true =>
          exact .write ⟨p.walletId, p.swap, new⟩ (by simp [writeOf, hp, hpc, haddr, hlim, hnew]) rfl

theorem endPoller_effect (s : World) (i : ℕ) (p : Poller) (a : Action) :
    Effect s a (endPoller s i p) :=
  ⟨fun h => setPoller_derived s { s with jobs := Function.update s.jobs p.swap.id false }
    ⟨rfl, rfl, rfl, rfl⟩ nofun h, .same rfl⟩

theorem pollStep_effect {answer : PollAnswer} (hp : s.pollers[i]? = some p)
    (h : pollStep s i p answer = some t) :
    Effect s (.poll i answer) t := by
  have hmem := List.mem_of_getElem? hp
  cases answer with
  | spawn ok =>
    simp only [pollStep] at h
    split_ifs at h with hpc hok <;> cases h
    · exact ⟨fun h => setPoller_derived s s (.refl s)
        (fun _ => .kept (.poller hmem (by rw [hpc]; rfl))) h, .same rfl⟩
    · exact endPoller_effect s i p _
  | quit =>
    simp only [pollStep] at h
    split_ifs at h
    cases h
    exact ⟨fun h => setPoller_derived s s (.refl s) nofun h, .same rfl⟩
  | status answer ok now =>
    simp only [pollStep] at h
    split_ifs at h with hpc haddr <;> cases h
    · exact ⟨fun h => setPoller_derived s s (.refl s) nofun h,
        .same rfl⟩
    · exact pollAnswer_effect hp hpc haddr
  | drop =>
    simp only [pollStep] at h
    split_ifs at h
    cases h
    exact endPoller_effect s i p _

/-! ### Every step -/

theorem loadForRefresh_row {t : SwapTable} {id : SwapId} (h : loadForRefresh t w id = some swap) :
    ∃ row ∈ t, row.walletId = w ∧ row.info = swap ∧ swap.state.isTerminal = false := by
  unfold loadForRefresh at h
  split at h
  · cases h
  · rename_i row hrow
    split_ifs at h with hcond
    cases h
    simp only [not_or, not_not, Bool.not_eq_true] at hcond
    exact ⟨row, (Table.mem_find?.mp hrow).1, hcond.1, rfl, hcond.2.1⟩

theorem resumeStep_effect {r : Resume} (hr : s.resumes[i]? = some r)
    (h : resumeStep s i r = some t) : Effect s (.resume i) t := by
  have hmem := List.mem_of_getElem? hr
  unfold resumeStep at h
  split at h
  · cases h
  · rename_i swap left hleft
    cases h
    refine ⟨startPolling_derived (s := s) (fun h => ?_) (.kept (.resume hmem (by simp [hleft]))),
      .same (startPolling_swaps ..)⟩
    refine derived_of h (fun _ h => .inl h) (fun _ h => .inl h) (fun _ h => .inl h)
      fun r' hr' => ?_
    rcases List.mem_or_eq_of_mem_set hr' with hr' | rfl
    · exact .inl hr'
    · refine .inr fun swap' hswap' => ?_
      have hin : swap' ∈ r.left := by
        rw [hleft]
        exact List.mem_cons_of_mem _ hswap'
      exact .kept (Holds.resume (r := r) hmem hin)

/-- **What a step does to the copies and the rows.** -/
theorem step_effect (h : step s a = some t) : Effect s a t := by
  cases a with
  | requestSwapQuote record now =>
    cases h
    exact ⟨fun h => derived_of h (fun _ h => .inl h) (fun _ h => .inl h) (fun _ h => .inl h)
      fun _ h => .inl h, .same rfl⟩
  | startSwap req now =>
    simp only [step] at h
    split at h <;> cases h
    · exact ⟨fun h => derived_of h (fun _ h => .inl h) (fun _ h => .inl h) (fun _ h => .inl h)
        fun _ h => .inl h, .same rfl⟩
    · refine ⟨fun h => derived_of h (fun c hc => ?_) (fun _ h => .inl h) (fun _ h => .inl h)
        fun _ h => .inl h, .same rfl⟩
      rcases List.mem_append.mp hc with hc | hc
      · exact .inl hc
      · obtain rfl := List.mem_singleton.mp hc
        exact .inr fun _ hs => by cases hs
  | call i answer =>
    obtain ⟨c, hc, h⟩ := Option.bind_eq_some_iff.mp h
    exact callStep_effect hc h
  | refreshSwapStatus w id =>
    simp only [step] at h
    split at h <;> cases h
    · exact ⟨.kept, .same rfl⟩
    · rename_i swap hload
      refine ⟨fun h => derived_of h (fun _ h => .inl h) (fun _ h => .inl h) (fun r hr => ?_)
        fun _ h => .inl h, .same rfl⟩
      rcases List.mem_append.mp hr with hr | hr
      · exact .inl hr
      · obtain rfl := List.mem_singleton.mp hr
        obtain ⟨row, hrow, hw, hinfo, hstate⟩ := loadForRefresh_row hload
        exact .inr fun _ => .row row hrow hw hinfo hstate
  | refresh i answer =>
    obtain ⟨r, hr, h⟩ := Option.bind_eq_some_iff.mp h
    exact refreshStep_effect hr h
  | poll i answer =>
    obtain ⟨p, hp, h⟩ := Option.bind_eq_some_iff.mp h
    exact pollStep_effect hp h
  | resumePendingSwaps w now =>
    cases h
    refine ⟨fun h => derived_of h (fun _ h => .inl h) (fun _ h => .inl h) (fun _ h => .inl h)
      fun r hr => ?_, .same rfl⟩
    rcases List.mem_append.mp hr with hr | hr
    · exact .inl hr
    · obtain rfl := List.mem_singleton.mp hr
      refine .inr fun swap hswap => ?_
      obtain ⟨row, hrow, hpoll, rfl⟩ := mem_listPollable.mp hswap
      exact .row row hrow (pollable_walletId hpoll) rfl (pollable_not_terminal hpoll)
  | resume i =>
    obtain ⟨r, hr, h⟩ := Option.bind_eq_some_iff.mp h
    exact resumeStep_effect hr h
  | crash =>
    cases h
    refine ⟨fun h => ?_, .same rfl⟩
    cases h with
    | call hc _ => cases hc
    | poller hp _ => cases hp
    | refresh hr _ | resume hr _ => cases hr

/-! ### Watching a swap -/

theorem step_watches (ha : a.watches = true) (h : step s a = some t) :
    t.quotes = s.quotes ∧ t.calls = s.calls ∧ t.sends = s.sends := by
  cases a with
  | refreshSwapStatus w id =>
    simp only [step] at h
    split at h <;> cases h <;> exact ⟨rfl, rfl, rfl⟩
  | refresh i answer =>
    obtain ⟨r, _, h⟩ := Option.bind_eq_some_iff.mp h
    cases answer <;> simp only [refreshStep] at h <;> split_ifs at h <;>
      cases h <;> simp [setRefresh]
  | poll i answer =>
    obtain ⟨p, _, h⟩ := Option.bind_eq_some_iff.mp h
    cases answer <;> simp only [pollStep, pollAnswer] at h <;> split_ifs at h <;>
      cases h <;> simp [setPoller, endPoller]
  | resumePendingSwaps w now =>
    cases h
    exact ⟨rfl, rfl, rfl⟩
  | resume i =>
    obtain ⟨r, _, h⟩ := Option.bind_eq_some_iff.mp h
    unfold resumeStep at h
    split at h
    · cases h
    · cases h
      simp
  | _ => cases ha

/-! ## Copies and rows along a run -/

/-- Every copy belongs to a stored row and is not terminal. -/
def Tracked (s : World) : Prop :=
  ∀ w swap, Holds s w swap → Tracks s.swaps w swap ∧ swap.state.isTerminal = false

theorem tracked_fresh : Tracked World.fresh := by
  intro w swap h
  cases h with
  | call hc _ => cases hc
  | poller hp _ => cases hp
  | refresh hr _ | resume hr _ => cases hr

theorem Stores.tracks {t : SwapTable} (hs : Tracked s) (h : Stores s a t)
    (htr : Tracks s.swaps w swap) : Tracks t w swap := by
  cases h with
  | same ht => exact ht ▸ htr
  | insert _ hins =>
    obtain ⟨c, _, _, id, now, hins⟩ := hins
    exact htr.insert hins
  | write wr hwr ht =>
    obtain ⟨hheld, hterms⟩ := writeOf_holds hwr
    rw [ht]
    exact Tracks.update ((hs _ _ hheld).1.congr hterms) htr

theorem tracked_step (hs : Tracked s) (h : step s a = some t) : Tracked t := by
  have heff := step_effect h
  intro w swap hheld
  cases heff.derived hheld with
  | copy old hold hterms hstate =>
    obtain ⟨htr, hnt⟩ := hs w old hold
    refine ⟨heff.stores.tracks hs (htr.congr hterms), ?_⟩
    rcases hstate with heq | hnt'
    · rw [heq]
      exact hnt
    · exact hnt'
  | row row hrow hw hinfo hstate =>
    refine ⟨?_, hstate⟩
    rw [← hw, ← hinfo]
    exact .of_mem hrow

/-- **Every copy in flight belongs to a stored row and is not terminal.** -/
theorem tracked_of_reach {G : World → Action → Prop} (h : Reach swapSystem G s) : Tracked s :=
  h.invariant (by rintro s rfl; exact tracked_fresh) fun _ _ _ hs _ hst => tracked_step hs hst

end ZbagSwap
