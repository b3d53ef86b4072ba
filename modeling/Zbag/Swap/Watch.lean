import Zbag.Swap.Quotes

/-!
# Swaps — finished swaps

A polling task and `refresh_swap_status` stop at a finished swap, but each works on its own copy and
writes it back whole, without looking at the row. A swap that another task has finished in the
meantime is then set back.

* `StoredAs`: the stored state of a swap.
-/

namespace ZbagSwap

open ZbagWallet Transition

def StoredAs (t : SwapTable) (id : SwapId) (state : SwapState) : Prop :=
  ∃ row ∈ t.rows, row.id = id ∧ row.info.state = state

instance (t : SwapTable) (id : SwapId) (state : SwapState) : Decidable (StoredAs t id state) :=
  inferInstanceAs (Decidable (∃ row ∈ t.rows, row.id = id ∧ row.info.state = state))

/-- A task that writes its copy over a finished swap has read that it is finished. -/
def WritesFresh (s : World) (a : Action) : Prop :=
  ∀ wr ∈ writeOf s a, ∀ row ∈ s.swaps.rows, row.id = wr.old.id →
    row.info.state.isTerminal = true → wr.old.state = row.info.state

instance (s : World) (a : Action) : Decidable (WritesFresh s a) :=
  inferInstanceAs (Decidable (∀ wr ∈ writeOf s a, _))

/-! ## One write -/

theorem step_of_writeOf {s : World} {a : Action} {wr : Write} (h : writeOf s a = some wr) :
    ∃ t, step s a = some t ∧ t.swaps = updateSwap s.swaps wr.walletId wr.new := by
  unfold writeOf at h
  split at h
  · obtain ⟨c, hc, h⟩ := Option.bind_eq_some_iff.mp h
    simp only [step, hc, Option.bind_some, callStep]
    split at h
    · rename_i hpc
      cases h
      simp only [hpc]
      exact ⟨_, rfl, rfl⟩
    · rename_i hpc
      cases h
      simp only [hpc]
      exact ⟨_, rfl, rfl⟩
    · cases h
  · obtain ⟨r, hr, h⟩ := Option.bind_eq_some_iff.mp h
    split_ifs at h with hpc
    obtain ⟨new, hnew, rfl⟩ := Option.map_eq_some_iff.mp h
    simp only [step, hr, Option.bind_some, refreshStep, if_pos hpc, hnew]
    exact ⟨_, rfl, rfl⟩
  · obtain ⟨p, hp, h⟩ := Option.bind_eq_some_iff.mp h
    split_ifs at h with hpc
    obtain ⟨new, hnew, rfl⟩ := Option.map_eq_some_iff.mp h
    obtain ⟨hloop, haddr, hlim⟩ := hpc
    simp only [step, hp, Option.bind_some, pollStep, if_pos hloop, if_neg haddr, pollAnswer,
      if_neg hlim, hnew]
    exact ⟨_, rfl, rfl⟩
  · cases h

theorem storedAs_updateSwap {t : SwapTable} {w : WalletId} {swap : SwapInfo} {row : SwapRow}
    (hrow : row ∈ t) (hid : row.id = swap.id) (state : SwapState) :
    StoredAs (updateSwap t w swap) swap.id state ↔ swap.state = state := by
  constructor
  · rintro ⟨new, hnew, hnid, rfl⟩
    rcases Table.mem_modify.mp hnew with ⟨_, hne⟩ | ⟨old, _, _, rfl⟩
    · exact absurd hnid hne
    · rfl
  · rintro rfl
    exact ⟨rewrite w swap row, Table.mem_modify.mpr (.inr ⟨row, hrow, hid, rfl⟩), rfl, rfl⟩

theorem StoredAs.of_ne {t : SwapTable} {w : WalletId} {swap : SwapInfo} {id : SwapId}
    {state : SwapState} (h : StoredAs t id state) (hid : id ≠ swap.id) :
    StoredAs (updateSwap t w swap) id state := by
  obtain ⟨row, hrow, rfl, hstate⟩ := h
  exact ⟨row, Table.mem_modify.mpr (.inl ⟨hrow, hid⟩), rfl, hstate⟩

/-! ## Fresh writes -/

theorem StoredAs.step {s t : World} {a : Action} {id : SwapId} {state : SwapState}
    (hs : Tracked s) (hfresh : WritesFresh s a) (h : step s a = some t)
    (hterm : state.isTerminal = true) (hst : StoredAs s.swaps id state) :
    StoredAs t.swaps id state := by
  cases (step_effect h).stores with
  | same ht =>
    rw [ht]
    exact hst
  | insert _ hins =>
    obtain ⟨c, _, _, id', now, hins⟩ := hins
    obtain ⟨row, hrow, hid, hstate⟩ := hst
    exact ⟨row, (Table.mem_insert hins).mpr (.inr hrow), hid, hstate⟩
  | write wr hwr ht =>
    obtain ⟨hheld, hterms⟩ := writeOf_holds hwr
    rw [ht]
    refine hst.of_ne fun hid => ?_
    obtain ⟨row, hrow, rfl, rfl⟩ := hst
    -- the writer's copy is not finished, so it was read before the swap was
    have hnot := (hs _ _ hheld).2
    rw [hfresh wr hwr row hrow (hid.trans (id_of_terms hterms)) hterm, hterm] at hnot
    cases hnot

/-! ## Stale writes -/

/-- Its status request fails. -/
def Action.unanswered : Action → Action
  | .refresh i (.status _ ok now) => .refresh i (.status (.error (.transport "timeout")) ok now)
  | .poll i (.status _ ok now) => .poll i (.status (.error (.transport "timeout")) ok now)
  | a => a

def timedOut (swap : SwapInfo) (now : ℤ) : SwapInfo :=
  { swap with lastError := some (NearIntentsError.transport "timeout").text, updatedAt := now }

theorem writeOf_unanswered {s : World} {a : Action} {wr : Write} (ha : a.watches = true)
    (h : writeOf s a = some wr) :
    ∃ new, writeOf s a.unanswered = some ⟨wr.walletId, wr.old, new⟩ ∧
      new.state = wr.old.state := by
  unfold writeOf at h
  split at h
  · cases ha
  · rename_i i answer now
    obtain ⟨r, hr, h⟩ := Option.bind_eq_some_iff.mp h
    split_ifs at h with hpc
    obtain ⟨new, hnew, rfl⟩ := Option.map_eq_some_iff.mp h
    refine ⟨timedOut r.swap now, ?_, rfl⟩
    simp only [Action.unanswered, writeOf, hr, Option.bind_some, if_pos hpc]
    rfl
  · rename_i i answer now
    obtain ⟨p, hp, h⟩ := Option.bind_eq_some_iff.mp h
    split_ifs at h with hpc
    obtain ⟨new, hnew, rfl⟩ := Option.map_eq_some_iff.mp h
    have hpc' : p.pc = .loop ∧ p.swap.depositAddress ≠ none ∧
        StatusAnswer.error (.transport "timeout") ≠ .error .rateLimited :=
      ⟨hpc.1, hpc.2.1, by decide⟩
    refine ⟨timedOut p.swap now, ?_, rfl⟩
    simp only [Action.unanswered, writeOf, hp, Option.bind_some, if_pos hpc']
    rfl
  · cases h

/-- **Finished swaps stay finished** if no task writes back a copy read before. Where one would, a
request that fails takes the finished state away. -/
theorem finished_swap_kept (s : World) :
    (Reach swapSystem WritesFresh s → ∀ t, Path swapSystem WritesFresh s t →
      ∀ id state, state.isTerminal = true → StoredAs s.swaps id state →
        StoredAs t.swaps id state) ∧
      ∀ a, Reach swapSystem Free s → a.watches = true → ¬ WritesFresh s a →
        ∃ t id state, step s a.unanswered = some t ∧ state.isTerminal = true ∧
          StoredAs s.swaps id state ∧ ¬ StoredAs t.swaps id state := by
  constructor
  · intro hs t hpath id state hterm hst
    have hinv : Tracked t ∧ StoredAs t.swaps id state :=
      hpath.invariant (I := fun u => Tracked u ∧ StoredAs u.swaps id state)
        ⟨tracked_of_reach hs, hst⟩ fun u a v hu hfresh hstep =>
          ⟨tracked_step hu.1 hstep, hu.2.step hu.1 hfresh hstep hterm⟩
    exact hinv.2
  · intro a hs ha hstale
    simp only [WritesFresh, not_forall] at hstale
    obtain ⟨wr, hwr, row, hrow, hid, hterm, hne⟩ := hstale
    obtain ⟨new, hnew, hstate⟩ := writeOf_unanswered ha hwr
    obtain ⟨t, hstep, ht⟩ := step_of_writeOf hnew
    have hnid : row.id = new.id := hid.trans (id_of_terms (writeOf_holds hnew).2).symm
    refine ⟨t, new.id, row.info.state, hstep, hterm, ⟨row, hrow, hnid, rfl⟩, fun hkept => hne ?_⟩
    rw [ht, storedAs_updateSwap hrow hnid] at hkept
    exact hstate.symm.trans hkept

/-! ## One polling task and one refresh -/

def refreshFinishes : List Action :=
  [Action.requestSwapQuote zecQuote 1000, .startSwap zecRequest 1000] ++ depositCall 0 7 ++
    [Action.call 0 (.update true 1100), .call 0 .poll, .poll 0 (.spawn true),
      .refreshSwapStatus 1 7, .refresh 0 .acquire,
      .refresh 0 (.status (.status .refunded none false) true 1200)]

/-- The request of the poller times out after the refresh has stored the swap. -/
theorem finished_swap_set_back :
    ∃ s, Reach swapSystem Free s ∧ s.pollers.length = 1 ∧ StoredAs s.swaps 7 .refunded ∧
      ∃ t ∈ step s (.poll 0 (.status (.error (.transport "timeout")) true 1300)),
        StoredAs t.swaps 7 .pending ∧ ¬ StoredAs t.swaps 7 .refunded :=
  exec_reach refreshFinishes rfl (along_free _ _) (by decide +kernel)

theorem finished_swap_kept_refresh :
    (∃ s, Reach swapSystem WritesFresh s ∧ StoredAs s.swaps 7 .refunded ∧
      ∀ t, Path swapSystem WritesFresh s t → StoredAs t.swaps 7 .refunded) ∧
    ∃ s t id state, Reach swapSystem Free s ∧
      step s (.poll 0 (.status (.error (.transport "timeout")) true 1300)) = some t ∧
        state.isTerminal = true ∧ StoredAs s.swaps id state ∧ ¬ StoredAs t.swaps id state := by
  have hrun : ∃ s, Reach swapSystem WritesFresh s ∧ StoredAs s.swaps 7 .refunded ∧
      ¬ WritesFresh s (.poll 0 (.status (.status .refunded none false) true 1300)) :=
    exec_reach refreshFinishes rfl (by decide +kernel) (by decide +kernel)
  obtain ⟨s, hs, hst, hstale⟩ := hrun
  refine ⟨⟨s, hs, hst, fun t ht => (finished_swap_kept s).1 hs t ht 7 .refunded rfl hst⟩, ?_⟩
  obtain ⟨t, id, state, hstep, hterm, hbefore, hafter⟩ :=
    (finished_swap_kept s).2 _ hs.free rfl hstale
  exact ⟨s, t, id, state, hs.free, hstep, hterm, hbefore, hafter⟩

end ZbagSwap
