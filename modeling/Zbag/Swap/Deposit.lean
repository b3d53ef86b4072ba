import Zbag.Swap.Quotes
import Zbag.Tx.Scripts

/-!
# Swaps — the deposit of a swap from ZEC

`start_swap_from_zec` as one call, with the send that it makes: the row is inserted as a draft, the
deposit is proposed, built and broadcast by a confirm-send task, and the row is stored as pending
or as failed. Whether the swap has failed is read off the result of the send, which can be an error
also when a deposit transaction is already out.
-/

namespace ZbagSwap

open ZbagWallet ZbagTx Transition
open Script (Stop Mark Follows FailsClean)

/-! ## The call -/

structure DepositEnv where
  accounts : Except String (List (AccountId × AccountType))
  id : SwapId
  insert : Option String
  createdAt : ℤ
  /-- of `prepare_send` or `prepare_confirm_send_task` -/
  prepare : Option IpcError
  proposal : ProposalRecord
  confirm : ConfirmEnv
  update : Bool
  updatedAt : ℤ

structure Deposit where
  result : Except (Stop IpcError) SwapInfo
  swaps : SwapTable
  outbox : Outbox

def accountErrorCode : Except String (List (AccountId × AccountType)) → ErrorCode
  | .error _ => .internalError
  | .ok _ => .watchOnlyCannotSpend

/-- The checks and the insert. -/
def insertDeposit (t : SwapTable) (req : StartSwapRequest) (record : QuoteRecord)
    (env : DepositEnv) : Except IpcError SwapTable :=
  match startChecks req record with
  | .error e => .error e
  | .ok _ =>
    match softwareAccount env.accounts with
    | .error e => .error ⟨accountErrorCode env.accounts, e⟩
    | .ok _ =>
      match env.insert, insertSwap t req.walletId (newSwap record env.id env.createdAt) with
      | none, some t' => .ok t'
      | none, none => .error ⟨.internalError, "failed to insert swap"⟩
      | some e, _ => .error ⟨.internalError, e⟩

def sendDeposit (env : DepositEnv) (w : WalletId) : TxCall TxId := do
  Script.check env.prepare
  executePreparedConfirmSendTask env.confirm w env.proposal

def storeOutcome (t : SwapTable) (w : WalletId) (swap : SwapInfo) (env : DepositEnv) :
    Except (Stop IpcError) TxId × Outbox → Deposit
  | (.ok _, o) =>
    if env.update then
      ⟨.ok (pendingSwap swap env.updatedAt), updateSwap t w (pendingSwap swap env.updatedAt), o⟩
    else ⟨.error (.error ⟨.internalError, "failed to update swap"⟩), t, o⟩
  | (.error (.error e), o) =>
    ⟨.error (.error e),
      if env.update then updateSwap t w (failedSwap swap e.message env.updatedAt) else t, o⟩
  | (.error .waiting, o) => ⟨.error .waiting, t, o⟩

def startSwapFromZec (t : SwapTable) (req : StartSwapRequest) (record : QuoteRecord)
    (env : DepositEnv) : Deposit :=
  match insertDeposit t req record env with
  | .error e => ⟨.error (.error e), t, .empty⟩
  | .ok t' =>
    storeOutcome t' req.walletId (newSwap record env.id env.createdAt) env
      ((sendDeposit env req.walletId).run .empty)

/-! ## The script -/

def updateError (env : DepositEnv) : Option IpcError :=
  if env.update then none else some ⟨.internalError, "failed to update swap"⟩

def sendScript (env : DepositEnv) (w : WalletId) : List Mark :=
  (Mark.check env.prepare :: executeScript .out env.confirm w env.proposal) ++
    [Mark.check (updateError env)]

def startScript (t : SwapTable) (req : StartSwapRequest) (record : QuoteRecord)
    (env : DepositEnv) : List Mark :=
  match insertDeposit t req record env with
  | .error _ => [.fail]
  | .ok _ => sendScript env req.walletId

def sendAndUpdate (env : DepositEnv) (w : WalletId) : TxCall Unit := do
  let _ ← sendDeposit env w
  Script.check (updateError env)

theorem sendAndUpdate_follows (env : DepositEnv) (w : WalletId) :
    Follows View.out.visible (sendAndUpdate env w) (sendScript env w) :=
  ((Follows.check _).bind fun _ => executePreparedConfirmSendTask_follows .out _ _ _).bind
    fun _ => Follows.check _

def Deposit.Fails (d : Deposit) : Prop := ∃ e, d.result = .error (.error e)

def Deposit.StoresFailed (d : Deposit) (id : SwapId) : Prop :=
  ∃ row ∈ d.swaps, row.id = id ∧ row.info.state = .failed

theorem storeOutcome_outbox (t : SwapTable) (w : WalletId) (swap : SwapInfo) (env : DepositEnv)
    (outcome : Except (Stop IpcError) TxId × Outbox) :
    (storeOutcome t w swap env outcome).outbox = outcome.2 := by
  obtain ⟨result, o⟩ := outcome
  cases result with
  | ok txid => cases hu : env.update <;> simp [storeOutcome, hu]
  | error stop => cases stop <;> rfl

theorem storeOutcome_spec (t : SwapTable) (w : WalletId) (swap : SwapInfo) (env : DepositEnv) :
    (storeOutcome t w swap env ((sendDeposit env w).run .empty)).outbox =
        ((sendAndUpdate env w).run .empty).2 ∧
      ((storeOutcome t w swap env ((sendDeposit env w).run .empty)).Fails ↔
        ∃ e, ((sendAndUpdate env w).run .empty).1 = .error (.error e)) := by
  rw [sendAndUpdate, Script.run_bind]
  cases (sendDeposit env w).run .empty with
  | mk result o =>
    cases result with
    | ok txid =>
      cases hu : env.update with
      | true =>
        simp only [storeOutcome, updateError, hu, if_true]
        exact ⟨rfl, fun ⟨_, h⟩ => (by cases h), fun ⟨_, h⟩ => (by cases h)⟩
      | false =>
        simp only [storeOutcome, updateError, hu, Bool.false_eq_true, if_false]
        exact ⟨rfl, fun _ => ⟨_, rfl⟩, fun _ => ⟨_, rfl⟩⟩
    | error stop =>
      cases stop with
      | error e => exact ⟨rfl, fun _ => ⟨e, rfl⟩, fun _ => ⟨e, rfl⟩⟩
      | waiting => exact ⟨rfl, fun ⟨_, h⟩ => (by cases h), fun ⟨_, h⟩ => (by cases h)⟩

variable {t : SwapTable} {w : WalletId} {swap : SwapInfo} {env : DepositEnv} {s : World} {i : ℕ}
  {c : Call}

theorem state_of_updated {row : SwapRow} (h : row ∈ updateSwap t w swap) (hid : row.id = swap.id) :
    row.info.state = swap.state := by
  rcases Table.mem_modify.mp h with ⟨_, hne⟩ | ⟨_, _, _, rfl⟩
  · exact absurd hid hne
  · rfl

theorem newSwap_not_failed (record : QuoteRecord) (id : SwapId) (now : ℤ) :
    (newSwap record id now).state ≠ .failed := by
  unfold newSwap
  split_ifs <;> exact SwapState.noConfusion

theorem state_of_inserted {t' : SwapTable} {row : SwapRow} (hins : insertSwap t w swap = some t')
    (h : row ∈ t') (hid : row.id = swap.id) :
    row.info = swap := by
  have hnew : (⟨w, swap⟩ : SwapRow) ∈ t' := (Table.mem_insert hins).mpr (.inl rfl)
  rw [Table.eq_of_key h hnew hid]

theorem insertDeposit_ok {t' : SwapTable} {req : StartSwapRequest} {record : QuoteRecord}
    (h : insertDeposit t req record env = .ok t') :
    insertSwap t req.walletId (newSwap record env.id env.createdAt) = some t' := by
  unfold insertDeposit at h
  split at h
  · cases h
  · split at h
    · cases h
    · split at h <;> cases h
      assumption

theorem fails_of_storesFailed {req : StartSwapRequest} {record : QuoteRecord}
    (h : (startSwapFromZec t req record env).StoresFailed env.id) :
    (startSwapFromZec t req record env).Fails := by
  unfold startSwapFromZec at h ⊢
  cases hins : insertDeposit t req record env with
  | error e => exact ⟨e, rfl⟩
  | ok t' =>
    simp only [hins] at h ⊢
    cases hr : (sendDeposit env req.walletId).run .empty with
    | mk result o =>
      rw [hr] at h
      cases result with
      | error stop =>
        cases stop with
        | error e => exact ⟨e, rfl⟩
        | waiting =>
          obtain ⟨row, hrow, hid, hstate⟩ := h
          rw [state_of_inserted (insertDeposit_ok hins) hrow hid] at hstate
          exact absurd hstate (newSwap_not_failed _ _ _)
      | ok txid =>
        simp only [storeOutcome] at h ⊢
        split_ifs at h ⊢ with hu
        · obtain ⟨row, hrow, hid, hstate⟩ := h
          rw [state_of_updated hrow hid] at hstate
          cases hstate
        · exact ⟨_, rfl⟩

/-! ## The call in the swap system -/

def Deposit.returns (d : Deposit) : Option (Except String SwapInfo) :=
  match d.result with
  | .ok swap => some (.ok swap)
  | .error (.error e) => some (.error e.message)
  | .error .waiting => none

theorem call_next {s' : World} {pc : CallPc} (answer : CallAnswer) (hc : s.calls[i]? = some c)
    (h : callStep s i c answer = some s') (hcalls : s'.calls = s.calls.set i { c with pc }) :
    Path swapSystem Free s s' ∧ s'.calls[i]? = some { c with pc } := by
  obtain ⟨hi, _⟩ := List.getElem?_eq_some_iff.mp hc
  refine ⟨Path.single (a := .call i answer) trivial ?_, by simp [hcalls, hi]⟩
  show step s (.call i answer) = some s'
  rw [step, hc]
  exact h

def Returned (i : ℕ) (r : Except String SwapInfo) (t : SwapTable) (s : World) : Prop :=
  s.swaps = t ∧ ∃ c, s.calls[i]? = some c ∧ c.pc = .returned r

def sendError : Except (Stop IpcError) TxId → Option String
  | .error (.error e) => some e.message
  | .ok _ | .error .waiting => none

variable {record : QuoteRecord} {r : Except String SwapInfo}

theorem storeOutcome_run {o : Except (Stop IpcError) TxId × Outbox}
    (hc : s.calls[i]? = some ⟨w, record, orFail swap (sendError o.1) (.pend swap)⟩)
    (hr : (storeOutcome s.swaps w swap env o).returns = some r) :
    ∃ s', Path swapSystem Free s s' ∧ s'.sends = s.sends ∧
      Returned i r (storeOutcome s.swaps w swap env o).swaps s' := by
  obtain ⟨result, o⟩ := o
  cases result with
  | error stop =>
    cases stop with
    | waiting => cases hr
    | error e =>
      cases hr
      obtain ⟨hpath, hcall⟩ := call_next (.update env.update env.updatedAt) hc rfl
        (by simp only [setCall, persist_calls]; rfl)
      refine ⟨_, hpath, by simp [setCall], ?_, _, hcall, rfl⟩
      cases hu : env.update <;> simp [storeOutcome, persist, setCall, hu]
  | ok txid =>
    obtain ⟨hpath, hcall⟩ := call_next (.update env.update env.updatedAt) hc rfl
      (by simp only [setCall, persist_calls]; rfl)
    cases hu : env.update with
    | false =>
      simp only [storeOutcome, hu, Bool.false_eq_true, if_false, Deposit.returns,
        Option.some.injEq] at hr hcall hpath ⊢
      subst hr
      exact ⟨_, hpath, by simp [setCall], rfl, _, hcall, rfl⟩
    | true =>
      simp only [storeOutcome, hu, if_true, Deposit.returns, Option.some.injEq] at hr hcall hpath ⊢
      subst hr
      obtain ⟨hpoll, hcall⟩ := call_next .poll hcall rfl (startPolling_calls ..)
      exact ⟨_, hpath.trans hpoll, by simp [setCall], by simp [setCall, persist], _, hcall, rfl⟩

theorem sendDeposit_run_prepare {e : IpcError} (h : env.prepare = some e) :
    (sendDeposit env w).run .empty = (.error (.error e), .empty) := by
  rw [sendDeposit, Script.run_bind, h]
  rfl

theorem sendDeposit_run (h : env.prepare = none) :
    (sendDeposit env w).run .empty =
      (executePreparedConfirmSendTask env.confirm w env.proposal).run .empty := by
  rw [sendDeposit, Script.run_bind, h]
  rfl

theorem sendDeposit_path {account : AccountId}
    (hc : s.calls[i]? = some ⟨w, record, .prepare swap account⟩)
    (hr : (storeOutcome s.swaps w swap env ((sendDeposit env w).run .empty)).returns = some r) :
    ∃ s', Path swapSystem Free s s' ∧
      (((sendDeposit env w).run .empty).2.sent ≠ [] →
        ⟨record.quote.correlationId, swap.id, true⟩ ∈ s'.sends) ∧
      Returned i r (storeOutcome s.swaps w swap env ((sendDeposit env w).run .empty)).swaps s' := by
  cases hprep : env.prepare with
  | some e =>
    rw [sendDeposit_run_prepare hprep] at hr ⊢
    obtain ⟨hprepare, hcall⟩ := call_next (.prepare (some e.message)) hc rfl rfl
    obtain ⟨s', hpath, _, hret⟩ := storeOutcome_run (o := (.error (.error e), .empty)) hcall hr
    exact ⟨s', hprepare.trans hpath, fun h => absurd rfl h, hret⟩
  | none =>
    rw [sendDeposit_run hprep] at hr ⊢
    generalize (executePreparedConfirmSendTask env.confirm w env.proposal).run .empty =
      outcome at hr ⊢
    obtain ⟨hprepare, hc₁⟩ := call_next (.prepare none) hc rfl rfl
    obtain ⟨hexecute, hc₂⟩ := call_next
      (.execute (decide (outcome.2.sent ≠ [])) (sendError outcome.1)) hc₁ rfl rfl
    obtain ⟨s', hpath, hsends, hret⟩ := storeOutcome_run hc₂ hr
    refine ⟨s', (hprepare.trans hexecute).trans hpath, fun h => ?_, hret⟩
    rw [hsends]
    simp [setCall, h]

section insert

variable {s : World} {i : ℕ} {req : StartSwapRequest} {record : QuoteRecord} {env : DepositEnv}

theorem callStep_insert (env : DepositEnv) (i : ℕ) (htype : record.intent.swapType = .fromZec)
    (hchecks : startChecks req record = .ok ()) :
    match insertDeposit s.swaps req record env with
    | .error e =>
      callStep s i ⟨req.walletId, record, .insert⟩
          (.insert env.accounts env.id env.insert env.createdAt) =
        some (setCall s i ⟨req.walletId, record, .insert⟩ (.returned (.error e.message)))
    | .ok t =>
      ∃ account, callStep s i ⟨req.walletId, record, .insert⟩
          (.insert env.accounts env.id env.insert env.createdAt) =
        some (setCall { s with swaps := t } i ⟨req.walletId, record, .insert⟩
          (.prepare (newSwap record env.id env.createdAt) account)) := by
  simp only [insertDeposit, hchecks, callStep, htype]
  cases softwareAccount env.accounts with
  | error text => rfl
  | ok account =>
    simp only [insertRow]
    cases env.insert <;>
      cases insertSwap s.swaps req.walletId (newSwap record env.id env.createdAt)
    · rfl
    · exact ⟨account, rfl⟩
    · rfl
    · rfl

/-- **`start_swap_from_zec` as one call is a run of the swap system**, with the same rows and
result. -/
theorem startSwapFromZec_run {r : Except String SwapInfo}
    (hc : s.calls[i]? = some ⟨req.walletId, record, .insert⟩)
    (htype : record.intent.swapType = .fromZec) (hchecks : startChecks req record = .ok ())
    (hr : (startSwapFromZec s.swaps req record env).returns = some r) :
    ∃ s', Path swapSystem Free s s' ∧
      ((startSwapFromZec s.swaps req record env).outbox.sent ≠ [] →
        ⟨record.quote.correlationId, env.id, true⟩ ∈ s'.sends) ∧
      Returned i r (startSwapFromZec s.swaps req record env).swaps s' := by
  have hinsert := callStep_insert (s := s) env i htype hchecks
  unfold startSwapFromZec at hr ⊢
  cases hins : insertDeposit s.swaps req record env with
  | error e =>
    simp only [hins, Deposit.returns, Option.some.injEq] at hr hinsert ⊢
    subst hr
    obtain ⟨hpath, hcall⟩ := call_next _ hc hinsert rfl
    exact ⟨_, hpath, fun h => absurd rfl h, rfl, _, hcall, rfl⟩
  | ok t =>
    simp only [hins] at hr hinsert ⊢
    obtain ⟨account, hstep⟩ := hinsert
    obtain ⟨hinserted, hcall⟩ := call_next _ hc hstep rfl
    obtain ⟨s', hpath, hsends, hret⟩ := sendDeposit_path hcall hr
    refine ⟨s', hinserted.trans hpath, fun h => hsends ?_, hret⟩
    rwa [storeOutcome_outbox] at h

end insert

/-! ## Errors after a deposit is out -/

/-- **A swap that fails has no deposit out** exactly if no step fails after a deposit transaction
was taken or queued. -/
theorem failed_swap_deposits_nothing (t : SwapTable) (req : StartSwapRequest) (record : QuoteRecord)
    (env : DepositEnv) :
    ((startSwapFromZec t req record env).Fails ∨
        (startSwapFromZec t req record env).StoresFailed env.id →
      (startSwapFromZec t req record env).outbox.accepted = [] ∧
        (startSwapFromZec t req record env).outbox.queued = []) ↔
      FailsClean (startScript t req record env) := by
  rw [or_iff_left_of_imp fails_of_storesFailed]
  unfold startSwapFromZec startScript
  cases insertDeposit t req record env with
  | error e =>
    have hclean : FailsClean [.fail] := by decide
    exact ⟨fun _ => hclean, fun _ _ => ⟨rfl, rfl⟩⟩
  | ok t' =>
    obtain ⟨hout, hfails⟩ := storeOutcome_spec t' req.walletId
      (newSwap record env.id env.createdAt) env
    have hclean := (sendAndUpdate_follows env req.walletId).error_clean_iff (s := .empty)
      (by simp [View.out, Outbox.empty])
    simp only [hout, hfails, ← hclean, View.out, ne_eq, not_or, not_not]
    exact ⟨fun h e he => h ⟨e, he⟩, fun h ⟨e, he⟩ => h e he⟩

/-- A server takes transaction 7; `scan` is the error of the scan after the broadcast. -/
def deposit7 (prepare : Option IpcError) (scan : Option String) : DepositEnv where
  accounts := .ok [(0, .software)]
  id := 5
  insert := none
  createdAt := 1000
  prepare := prepare
  proposal := ⟨1, 0, 600000, [false], 0⟩
  confirm := ⟨1000, none, none, ⟨fun _ => some .software, fun _ => some false,
    fun _ _ => some .software⟩, .ok (⟨7, none, .ok, none⟩, []), scan⟩
  update := true
  updatedAt := 1100

/-- The deposit is taken, and the directory of the retry queue cannot be read. -/
theorem failed_swap_after_deposit :
    (startSwapFromZec .empty zecRequest zecQuote (deposit7 none (some "io error"))).Fails ∧
    (startSwapFromZec .empty zecRequest zecQuote (deposit7 none (some "io error"))).StoresFailed 5 ∧
    (startSwapFromZec .empty zecRequest zecQuote
      (deposit7 none (some "io error"))).outbox.accepted = [7] := by
  refine ⟨⟨⟨.internalError, "failed to read queued broadcasts dir"⟩, ?_⟩, ?_, ?_⟩
  · decide +kernel
  · show ∃ row ∈ (startSwapFromZec .empty zecRequest zecQuote
      (deposit7 none (some "io error"))).swaps.rows, row.id = 5 ∧ row.info.state = .failed
    decide +kernel
  · decide +kernel

theorem startSwapFromZec_run_deposit7 : ∃ r s', Path swapSystem Free
      { World.fresh with calls := [⟨zecRequest.walletId, zecQuote, .insert⟩] } s' ∧
    ((startSwapFromZec .empty zecRequest zecQuote (deposit7 none none)).outbox.sent ≠ [] →
      ⟨zecQuote.quote.correlationId, 5, true⟩ ∈ s'.sends) ∧
    Returned 0 r (startSwapFromZec .empty zecRequest zecQuote (deposit7 none none)).swaps s' :=
  ⟨_, startSwapFromZec_run rfl rfl rfl rfl⟩

def noFunds : IpcError := ⟨.insufficientFunds, "insufficient funds"⟩

theorem failed_swap_deposits_nothing_unfunded :
    (startSwapFromZec .empty zecRequest zecQuote
        (deposit7 (some noFunds) none)).Fails ∧
      (startSwapFromZec .empty zecRequest zecQuote
        (deposit7 (some noFunds) none)).outbox.accepted = [] := by
  have hfails : (startSwapFromZec .empty zecRequest zecQuote
      (deposit7 (some noFunds) none)).Fails :=
    ⟨noFunds, by decide +kernel⟩
  exact ⟨hfails, ((failed_swap_deposits_nothing .empty zecRequest zecQuote
    (deposit7 (some noFunds) none)).mpr (by decide +kernel)
    (.inl hfails)).1⟩

end ZbagSwap
