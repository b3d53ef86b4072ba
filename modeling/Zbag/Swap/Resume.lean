import Zbag.Swap.Quotes

/-!
# Swaps — which swaps are resumed

After a restart polling is resumed for the swaps that `list_pollable_swaps_for_wallet` returns. A
swap whose ZEC deposit was sent may still be stored as a draft, or be set back to awaiting its
deposit by an early remote status; for those two states the query looks at the deadline.

* `Watched`: every row has a deposit address, and every executed deposit has its row.
-/

namespace ZbagSwap

open ZbagWallet Transition

def Deposited (s : World) (id : SwapId) : Prop := ∃ d ∈ s.sends, d.swapId = id ∧ d.sent = true

instance (s : World) (id : SwapId) : Decidable (Deposited s id) :=
  inferInstanceAs (Decidable (∃ d ∈ s.sends, d.swapId = id ∧ d.sent = true))

def CallPc.depositing? : CallPc → Option SwapInfo
  | .prepare swap _ | .execute swap => some swap
  | .insert | .pend _ | .fail .. | .poll _ | .returned _ => none

variable {swap : SwapInfo} {s : World} {i : ℕ} {t : World} {a : Action}

theorem swap?_of_depositing? {pc : CallPc} (h : pc.depositing? = some swap) :
    pc.swap? = some swap := by
  cases pc <;> first | exact h | cases h

/-! ## Calls -/

theorem depositAddress_of_startChecks {req : StartSwapRequest} {record : QuoteRecord}
    (h : startChecks req record = .ok ()) : record.quote.depositAddress.isSome = true := by
  by_contra hnone
  rw [Bool.not_eq_true] at hnone
  simp only [startChecks, hnone] at h
  split_ifs at h <;> contradiction

theorem depositAddress_of_startSwap {quotes : Quotes} {req : StartSwapRequest} {now : ℤ}
    {record : QuoteRecord} (h : (startSwap quotes req now).1 = .ok record) :
    record.quote.depositAddress.isSome = true := by
  unfold startSwap at h
  split_ifs at h
  split at h
  · cases h
  · split at h
    · cases h
    · rename_i hchecks
      rw [← Except.ok.inj h]
      exact depositAddress_of_startChecks hchecks

/-- Only calls for swaps from ZEC come to a deposit and record one. -/
structure CallEffect (s t : World) (i : ℕ) (c : Call) (pc : CallPc) : Prop where
  calls : t.calls = s.calls.set i { c with pc := pc }
  depositing : ∀ swap, pc.depositing? = some swap →
    c.pc.depositing? = some swap ∨ swap.swapType = .fromZec
  sends : t.sends = s.sends ∨ ∃ swap d, c.pc.depositing? = some swap ∧ d.swapId = swap.id ∧
    t.sends = d :: s.sends

theorem orFail_depositing? {new : SwapInfo} {error : Option String} {next : CallPc}
    (h : (orFail swap error next).depositing? = some new) : next.depositing? = some new := by
  cases error with
  | none => exact h
  | some e => cases h

theorem callStep_callEffect {c : Call} {answer : CallAnswer} (h : callStep s i c answer = some t) :
    ∃ pc, CallEffect s t i c pc := by
  cases callStep_callMove h with
  | insert _ _ hnext =>
    refine ⟨_, rfl, fun swap hswap => .inr ?_, .inl rfl⟩
    rcases hnext with rfl | ⟨htype, _, rfl⟩
    · cases hswap
    · rw [← Option.some.inj hswap]
      exact htype
  | stop => exact ⟨_, rfl, fun _ h => (by cases h), .inl rfl⟩
  | prepare hpc =>
    refine ⟨_, rfl, fun new hnew => .inl ?_, .inl rfl⟩
    have hexec := orFail_depositing? hnew
    rw [hpc]
    exact hexec
  | @execute swap _ _ hpc =>
    refine ⟨_, rfl, fun new hnew => ?_, .inr ⟨swap, _, by rw [hpc]; rfl, rfl, rfl⟩⟩
    cases orFail_depositing? hnew
  | fail =>
    exact ⟨_, by rw [setCall, persist_calls], fun _ h => (by cases h), .inl (by simp [setCall])⟩
  | @pend _ ok =>
    refine ⟨_, by rw [setCall, persist_calls], fun _ h => ?_, .inl (by simp [setCall])⟩
    cases ok <;> cases h
  | @poll swap =>
    exact ⟨.returned (.ok swap), by simp [setCall], fun _ h => (by cases h),
      .inl (by simp [setCall])⟩

/-! ## Runs -/

structure Watched (s : World) : Prop where
  tracked : Tracked s
  addresses : ∀ c ∈ s.calls, c.record.quote.depositAddress.isSome = true
  depositing : ∀ c ∈ s.calls, ∀ swap, c.pc.depositing? = some swap → swap.swapType = .fromZec
  rows : ∀ row ∈ s.swaps, row.info.depositAddress.isSome = true
  sends : ∀ d ∈ s.sends, ∃ w swap, swap.id = d.swapId ∧ swap.swapType = .fromZec ∧
    Tracks s.swaps w swap

theorem watched_fresh : Watched World.fresh where
  tracked := tracked_fresh
  addresses _ h := by cases h
  depositing _ h := by cases h
  rows row h := absurd h (Table.not_mem_empty row)
  sends _ h := by cases h

theorem Watched.rows_of_stores {t : SwapTable} (hs : Watched s) (h : Stores s a t) :
    ∀ row ∈ t, row.info.depositAddress.isSome = true := by
  intro row hrow
  cases h with
  | same ht =>
    subst ht
    exact hs.rows row hrow
  | insert _ hins =>
    obtain ⟨c, hc, _, id, now, hins⟩ := hins
    rcases (Table.mem_insert hins).mp hrow with rfl | hold
    · exact hs.addresses c hc
    · exact hs.rows row hold
  | write wr hwr ht =>
    subst ht
    obtain ⟨hheld, hterms⟩ := writeOf_holds hwr
    rcases Table.mem_modify.mp hrow with ⟨hold, _⟩ | ⟨old, hold, hid, rfl⟩
    · exact hs.rows row hold
    · have hkept := (((hs.tracked _ _ hheld).1.congr hterms).rewritten hold hid).2
      rw [depositAddress_of_terms hkept]
      exact hs.rows old hold

theorem watched_of (hs : Watched s) (h : step s a = some t)
    (haddr : ∀ c ∈ t.calls, c.record.quote.depositAddress.isSome = true)
    (hdep : ∀ c ∈ t.calls, ∀ swap, c.pc.depositing? = some swap → swap.swapType = .fromZec)
    (hsends : ∀ d ∈ t.sends, d ∈ s.sends ∨ ∃ w swap, swap.id = d.swapId ∧
      swap.swapType = .fromZec ∧ Tracks s.swaps w swap) : Watched t := by
  have hstores := (step_effect h).stores
  refine ⟨tracked_step hs.tracked h, haddr, hdep, hs.rows_of_stores hstores, fun d hd => ?_⟩
  have hold : ∃ w swap, swap.id = d.swapId ∧ swap.swapType = .fromZec ∧ Tracks s.swaps w swap :=
    (hsends d hd).elim (hs.sends d) id
  obtain ⟨w, swap, hid, htype, htr⟩ := hold
  exact ⟨w, swap, hid, htype, hstores.tracks hs.tracked htr⟩

theorem watched_call {answer : CallAnswer} (hs : Watched s) (h : step s (.call i answer) = some t) :
    Watched t := by
  obtain ⟨c, hc, hcall⟩ := Option.bind_eq_some_iff.mp h
  have hmem := List.mem_of_getElem? hc
  obtain ⟨pc, heff⟩ := callStep_callEffect hcall
  have hcases : ∀ c' ∈ t.calls, c' ∈ s.calls ∨ c' = { c with pc := pc } := fun c' hc' =>
    List.mem_or_eq_of_mem_set (heff.calls ▸ hc')
  refine watched_of hs h (fun c' hc' => ?_) (fun c' hc' swap hswap => ?_) fun d hd => ?_
  · rcases hcases c' hc' with hold | rfl
    · exact hs.addresses c' hold
    · exact hs.addresses c hmem
  · rcases hcases c' hc' with hold | rfl
    · exact hs.depositing c' hold swap hswap
    · rcases heff.depositing swap hswap with hdep | htype
      · exact hs.depositing c hmem swap hdep
      · exact htype
  · rcases heff.sends with hsame | ⟨swap, d', hdep, hid, hsends⟩
    · exact .inl (hsame ▸ hd)
    · rw [hsends] at hd
      rcases List.mem_cons.mp hd with rfl | hold
      · have hheld := hs.tracked _ _ (.call hmem (swap?_of_depositing? hdep))
        exact .inr ⟨c.walletId, swap, hid.symm, hs.depositing c hmem swap hdep, hheld.1⟩
      · exact .inl hold

theorem watched_step (hs : Watched s) (h : step s a = some t) : Watched t := by
  cases a with
  | requestSwapQuote record now =>
    have h' := h
    rw [step, Option.some.injEq] at h'
    subst h'
    exact watched_of hs h hs.addresses hs.depositing fun _ hd => .inl hd
  | startSwap req now =>
    have h' := h
    simp only [step] at h'
    split at h' <;> rename_i heq <;> rw [Option.some.injEq] at h' <;> subst h'
    · exact watched_of hs h hs.addresses hs.depositing fun _ hd => .inl hd
    · rename_i record quotes
      refine watched_of hs h (fun c hc => ?_) (fun c hc swap hswap => ?_) fun _ hd => .inl hd
      · rcases List.mem_append.mp hc with hc | hc
        · exact hs.addresses c hc
        · obtain rfl := List.mem_singleton.mp hc
          exact depositAddress_of_startSwap (congrArg Prod.fst heq)
      · rcases List.mem_append.mp hc with hc | hc
        · exact hs.depositing c hc swap hswap
        · obtain rfl := List.mem_singleton.mp hc
          cases hswap
  | call i answer => exact watched_call hs h
  | crash =>
    have h' := h
    rw [step, Option.some.injEq] at h'
    subst h'
    exact watched_of hs h (fun _ hc => (by cases hc)) (fun _ hc => (by cases hc))
      fun _ hd => .inl hd
  | _ =>
    obtain ⟨_, hcalls, hsends⟩ := step_watches rfl h
    exact watched_of hs h (hcalls ▸ hs.addresses) (hcalls ▸ hs.depositing)
      fun _ hd => .inl (hsends ▸ hd)

theorem watched_of_reach {G : World → Action → Prop} (h : Reach swapSystem G s) : Watched s :=
  h.invariant (by rintro s rfl; exact watched_fresh) fun _ _ _ hs _ hst => watched_step hs hst

/-! ## The query -/

def BeforeDeadline (swap : SwapInfo) (now : ℤ) : Prop :=
  ∀ deadline, swap.deadline = some deadline → now < deadline

theorem pollable_iff {row : SwapRow} (haddr : row.info.depositAddress.isSome = true)
    (hterm : row.info.state.isTerminal = false) (now : ℤ) :
    pollable row.walletId now row = true ↔
      row.info.state = .pending ∨ row.info.state = .confirming ∨ BeforeDeadline row.info now := by
  have hdeadline : (row.info.deadline.all fun deadline => now < deadline) = true ↔
      BeforeDeadline row.info now := by
    cases hd : row.info.deadline <;> simp [BeforeDeadline, hd]
  cases hs : row.info.state <;> simp [pollable, haddr, hs, hdeadline] <;>
    simp [hs, SwapState.isTerminal] at hterm

theorem mem_listPollable_iff {t : SwapTable} {row : SwapRow} (hrow : row ∈ t) (now : ℤ) :
    row.info ∈ listPollableSwapsForWallet t row.walletId now ↔
      pollable row.walletId now row = true := by
  rw [mem_listPollable]
  constructor
  · rintro ⟨row', hrow', hpoll, hinfo⟩
    have hsame : row' = row := Table.eq_of_key hrow' hrow (congrArg SwapInfo.id hinfo)
    rwa [hsame] at hpoll
  · exact fun h => ⟨row, hrow, h, rfl⟩

/-- **When a deposited swap is resumed**: it is stored as one from ZEC and, unless finished,
returned exactly if it is pending or confirming or its deadline has not passed. -/
theorem deposited_swap_resumed (s : World) (hs : Reach swapSystem Free s) (id : SwapId)
    (hid : Deposited s id) :
    ∃ row ∈ s.swaps, row.id = id ∧ row.info.swapType = .fromZec ∧
      (row.info.state.isTerminal = false → ∀ now,
        (row.info ∈ listPollableSwapsForWallet s.swaps row.walletId now ↔
          row.info.state = .pending ∨ row.info.state = .confirming ∨
            BeforeDeadline row.info now)) := by
  have hw := watched_of_reach hs
  obtain ⟨d, hd, rfl, _⟩ := hid
  obtain ⟨w, swap, hswap, htype, row, hrow, _, hterms⟩ := hw.sends d hd
  refine ⟨row, hrow, (id_of_terms hterms).trans hswap, ?_, fun hterm now => ?_⟩
  · exact (swapType_of_terms hterms).trans htype
  · rw [mem_listPollable_iff hrow, pollable_iff (hw.rows row hrow) hterm]

/-! ## Histories -/

def Unlisted (s : World) (id : SwapId) (state : SwapState) (now : ℤ) : Prop :=
  ∃ row ∈ s.swaps.rows, row.id = id ∧ row.info.swapType = .fromZec ∧ row.info.state = state ∧
    row.info ∉ listPollableSwapsForWallet s.swaps row.walletId now

instance (s : World) (id : SwapId) (state : SwapState) (now : ℤ) :
    Decidable (Unlisted s id state now) :=
  inferInstanceAs (Decidable (∃ row ∈ s.swaps.rows, _))

def depositSent : List Action :=
  [Action.requestSwapQuote zecQuote 1000, .startSwap zecRequest 1000] ++ depositCall 0 7

def depositPolled : List Action :=
  depositSent ++ [Action.call 0 (.update true 1100), .call 0 .poll, .poll 0 (.spawn true)]

/-- A crash before the deposit is stored, or before a remote has seen it. -/
theorem deposited_swap_unlisted :
    (∃ s, Reach swapSystem Free s ∧ Deposited s 7 ∧ Unlisted s 7 .draft 3000) ∧
      ∃ s, Reach swapSystem Free s ∧ Deposited s 7 ∧ Unlisted s 7 .awaitingDeposit 3000 :=
  ⟨exec_reach (depositSent ++ [Action.crash]) rfl (along_free _ _) (by decide +kernel),
    exec_reach (depositPolled ++
      [.poll 0 (.status (.status .pendingDeposit none false) true 1200), .crash]) rfl
      (along_free _ _) (by decide +kernel)⟩

theorem deposited_swap_resumed_pending :
    ∃ s, (Reach swapSystem Free s ∧ Deposited s 7) ∧ ∃ row ∈ s.swaps, row.id = 7 ∧
      row.info ∈ listPollableSwapsForWallet s.swaps row.walletId 3000 := by
  have hrun : ∃ s, Reach swapSystem Free s ∧ Deposited s 7 ∧
      ∀ row ∈ s.swaps.rows, row.info.state = .pending :=
    exec_reach (depositPolled ++ [Action.crash]) rfl (along_free _ _) (by decide +kernel)
  obtain ⟨s, hs, hdep, hpending⟩ := hrun
  obtain ⟨row, hrow, hid, _, hlisted⟩ := deposited_swap_resumed s hs 7 hdep
  have hstate := hpending row hrow
  refine ⟨s, ⟨hs, hdep⟩, row, hrow, hid, (hlisted ?_ 3000).mpr (.inl hstate)⟩
  rw [hstate]
  rfl

end ZbagSwap
