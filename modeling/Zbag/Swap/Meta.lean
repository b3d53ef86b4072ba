import Zbag.Lib.Table
import Zbag.Wallet.State
import Mathlib.Data.List.Sort

/-!
# Swaps — the stored rows

The swap rows of the app database, the remote statuses of a swap and the states they stand for.

* `insertSwap`, `updateSwap`, `getSwap`: a row is found by its id, and an update writes every
  column but the creation time.
-/

namespace ZbagSwap

open ZbagWallet

/-- A swap's UUID. -/
abbrev SwapId := ℕ

inductive SwapType
  | toZec
  | fromZec
  deriving DecidableEq, Repr

inductive SwapState
  | draft
  | awaitingDeposit
  | pending
  | confirming
  | completed
  | refunded
  | failed
  deriving DecidableEq, Repr

def SwapState.isTerminal : SwapState → Bool
  | .completed | .refunded | .failed => true
  | _ => false

inductive RemoteStatus
  | pendingDeposit
  | knownDepositTx
  | incompleteDeposit
  | processing
  | success
  | refunded
  | failed
  | unknown (value : String)
  deriving DecidableEq, Repr

def mapRemoteStatusToLocalState : RemoteStatus → SwapState
  | .pendingDeposit => .awaitingDeposit
  | .knownDepositTx => .pending
  | .incompleteDeposit => .failed
  | .processing => .pending
  | .success => .confirming
  | .refunded => .refunded
  | .failed => .failed
  | .unknown _ => .pending

/-- `confirmed`: what `has_confirmed_zcash_tx` finds. -/
def nextStateFromRemoteStatus (remote : RemoteStatus) (confirmed : Bool) : SwapState :=
  if mapRemoteStatusToLocalState remote = .confirming ∧ confirmed then .completed
  else mapRemoteStatusToLocalState remote

/-- Times are milliseconds (`i64`). -/
structure SwapInfo where
  id : SwapId
  remoteId : Option String
  swapType : SwapType
  inputAsset : String
  inputAmount : String
  outputAsset : String
  outputAmount : Option String
  depositAddress : Option String
  depositMemo : Option String
  destinationAddress : Option String
  refundAddress : Option String
  state : SwapState
  deadline : Option ℤ
  lastError : Option String
  createdAt : ℤ
  updatedAt : ℤ
  deriving DecidableEq, Repr

/-- A row of the `swaps` table. -/
structure SwapRow where
  walletId : WalletId
  info : SwapInfo
  deriving DecidableEq, Repr

def SwapRow.id (row : SwapRow) : SwapId := row.info.id

abbrev SwapTable := Table SwapRow.id

def insertSwap (t : SwapTable) (w : WalletId) (swap : SwapInfo) : Option SwapTable :=
  t.insert ⟨w, swap⟩

def getSwap (t : SwapTable) (id : SwapId) : Option SwapRow := t.find? id

/-- The creation time is the one column that is kept. -/
def rewrite (w : WalletId) (swap : SwapInfo) (row : SwapRow) : SwapRow :=
  ⟨w, { swap with createdAt := row.info.createdAt }⟩

def updateSwap (t : SwapTable) (w : WalletId) (swap : SwapInfo) : SwapTable :=
  t.modify swap.id (rewrite w swap) fun _ _ => rfl

def pollable (w : WalletId) (now : ℤ) (row : SwapRow) : Bool :=
  row.walletId = w && row.info.depositAddress.isSome &&
    match row.info.state with
    | .pending | .confirming => true
    | .draft | .awaitingDeposit => row.info.deadline.all fun deadline => now < deadline
    | _ => false

/-- newest first -/
def listPollableSwapsForWallet (t : SwapTable) (w : WalletId) (now : ℤ) : List SwapInfo :=
  ((t.rows.filter (pollable w now)).map SwapRow.info).insertionSort fun a b =>
    b.createdAt ≤ a.createdAt

variable {t : SwapTable} {w : WalletId} {now : ℤ} {swap : SwapInfo} {row : SwapRow} {a b : SwapInfo}

theorem mem_listPollable :
    swap ∈ listPollableSwapsForWallet t w now ↔
      ∃ row ∈ t, pollable w now row = true ∧ row.info = swap := by
  simp only [listPollableSwapsForWallet, List.mem_insertionSort, List.mem_map, List.mem_filter,
    and_assoc]
  exact Iff.rfl

theorem pollable_walletId (h : pollable w now row = true) : row.walletId = w := by
  simp only [pollable, Bool.and_eq_true, decide_eq_true_eq] at h
  exact h.1.1

theorem pollable_not_terminal (h : pollable w now row = true) :
    row.info.state.isTerminal = false := by
  simp only [pollable, Bool.and_eq_true] at h
  cases hs : row.info.state <;> simp [hs] at h <;> rfl

/-! ## What no update changes -/

/-- Without the columns that its tasks write. -/
def SwapInfo.terms (swap : SwapInfo) : SwapInfo :=
  { swap with state := .draft, lastError := none, updatedAt := 0 }

theorem id_of_terms (h : a.terms = b.terms) : a.id = b.id := congrArg (·.id) h

theorem remoteId_of_terms (h : a.terms = b.terms) : a.remoteId = b.remoteId :=
  congrArg (·.remoteId) h

theorem swapType_of_terms (h : a.terms = b.terms) : a.swapType = b.swapType :=
  congrArg (·.swapType) h

theorem depositAddress_of_terms (h : a.terms = b.terms) : a.depositAddress = b.depositAddress :=
  congrArg (·.depositAddress) h

/-- A copy of a stored swap, up to what its tasks write. -/
def Tracks (t : SwapTable) (w : WalletId) (swap : SwapInfo) : Prop :=
  ∃ row ∈ t, row.walletId = w ∧ row.info.terms = swap.terms

theorem Tracks.of_mem (h : row ∈ t) : Tracks t row.walletId row.info :=
  ⟨row, h, rfl, rfl⟩

theorem Tracks.congr (h : Tracks t w a) (hab : b.terms = a.terms) : Tracks t w b := by
  obtain ⟨row, hrow, hw, ht⟩ := h
  exact ⟨row, hrow, hw, ht.trans hab.symm⟩

theorem Tracks.rewritten (h : Tracks t w swap) (hrow : row ∈ t) (hid : row.id = swap.id) :
    row.walletId = w ∧ (rewrite w swap row).info.terms = row.info.terms := by
  obtain ⟨row', hrow', hw, ht⟩ := h
  have hsame : row' = row := Table.eq_of_key hrow' hrow ((id_of_terms ht).trans hid.symm)
  subst hsame
  refine ⟨hw, ?_⟩
  have hcreated : row'.info.createdAt = swap.createdAt := congrArg (·.createdAt) ht
  rw [ht]
  simp [rewrite, SwapInfo.terms, hcreated]

/-- **Updates by tracking copies keep every tracked swap tracked.** -/
theorem Tracks.update {w' : WalletId} {swap' : SwapInfo} (hw : Tracks t w swap)
    (h : Tracks t w' swap') : Tracks (updateSwap t w swap) w' swap' := by
  obtain ⟨row, hrow, hwallet, hterms⟩ := h
  by_cases hid : row.id = swap.id
  · obtain ⟨hrw, hrt⟩ := hw.rewritten hrow hid
    refine ⟨rewrite w swap row, Table.mem_modify.mpr (.inr ⟨row, hrow, hid, rfl⟩), ?_,
      hrt.trans hterms⟩
    exact hrw.symm.trans hwallet
  · exact ⟨row, Table.mem_modify.mpr (.inl ⟨hrow, hid⟩), hwallet, hterms⟩

theorem Tracks.insert {t' : SwapTable} {w' : WalletId} {swap' : SwapInfo}
    (hins : insertSwap t w swap = some t') (h : Tracks t w' swap') : Tracks t' w' swap' := by
  obtain ⟨row, hrow, hwallet, hterms⟩ := h
  exact ⟨row, (Table.mem_insert hins).mpr (.inr hrow), hwallet, hterms⟩

end ZbagSwap
