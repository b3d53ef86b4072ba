import Zbag.Swap.Amounts
import Zbag.Swap.Meta

/-!
# Swaps — the transaction that completes a swap

A swap whose remote status stands for `Confirming` is completed once the wallet database has a mined
transaction for it: in the direction of the swap, not older than a quarter of an hour before the
swap, with the amount of the swap. The scan over the newest transactions reads each column by itself
and goes on with the next row when it cannot.
-/

namespace ZbagSwap

open ZbagWallet Decimal

/-- A column that cannot be read is `none`. -/
structure TxRow where
  txid : ℕ
  minedHeight : Option ℤ
  feePaid : Option ℤ
  totalSpent : Option ℤ
  totalReceived : Option ℤ
  isShielding : Option Bool
  sentNoteCount : Option ℤ
  receivedNoteCount : Option ℤ
  /-- seconds -/
  blockTime : Option ℤ
  deriving DecidableEq, Repr

/-- `ORDER BY COALESCE(block_time, 0) DESC, txid DESC` -/
def TxRow.Before (r r' : TxRow) : Prop :=
  r'.blockTime.getD 0 < r.blockTime.getD 0 ∨
    r.blockTime.getD 0 = r'.blockTime.getD 0 ∧ r'.txid ≤ r.txid

instance : DecidableRel TxRow.Before := fun _ _ => inferInstanceAs (Decidable (_ ∨ _))

def recentMined (history : List TxRow) : List TxRow :=
  ((history.filter fun row => row.minedHeight.isSome).insertionSort TxRow.Before).take 200

/-! ## The scan -/

/-- Without one every transaction matches. -/
def expectedAmountZat (swap : SwapInfo) : Option ℕ :=
  match swap.swapType with
  | .toZec => swap.outputAmount.bind parseZatoshis
  | .fromZec => parseZatoshis swap.inputAmount

def i64Min : ℤ := -2 ^ 63

/-- A quarter of an hour before the swap was created. -/
def minBlockTimeS (swap : SwapInfo) : ℤ := (max (swap.createdAt - 15 * 60 * 1000) i64Min).tdiv 1000

def receivedU64 (row : TxRow) (sentNoteCount receivedNoteCount : ℤ) : Option ℕ :=
  if 0 < sentNoteCount ∨ receivedNoteCount ≤ 0 then none
  else row.totalReceived.map Int.toNat

/-- Without change and fee. -/
def sentU64 (row : TxRow) (sentNoteCount : ℤ) : Option ℕ :=
  if sentNoteCount ≤ 0 then none
  else do
    let spent ← row.totalSpent
    let received ← row.totalReceived
    return spent.toNat - received.toNat - (row.feePaid.map Int.toNat).getD 0

def TxRow.matchesSwap (swap : SwapInfo) (row : TxRow) : Bool :=
  match row.isShielding, row.sentNoteCount, row.receivedNoteCount with
  | some false, some sent, some received =>
    !row.blockTime.any (· < minBlockTimeS swap) &&
      (match swap.swapType with
        | .toZec => receivedU64 row sent received
        | .fromZec => sentU64 row sent).any fun amount =>
          (expectedAmountZat swap).all (amount = ·)
  | _, _, _ => false

structure ScanEnv where
  activeWallet : Option WalletId
  context : Bool
  openWalletDb : Bool
  query : Bool
  history : List TxRow
  /-- the rows after which stepping fails -/
  readable : ℕ

def hasConfirmedZcashTx (env : ScanEnv) (w : WalletId) (swap : SwapInfo) : Bool :=
  env.activeWallet = some w && env.context && env.openWalletDb && env.query &&
    ((recentMined env.history).take env.readable).any (TxRow.matchesSwap swap)

/-! ## What the scan is for -/

/-- A quarter of an hour before the swap was created. -/
def SwapInfo.since (swap : SwapInfo) : ℤ := swap.createdAt - 15 * 60 * 1000

/-- In the direction of the swap; change and fee do not count. -/
def TxRow.Moves (row : TxRow) (swapType : SwapType) (a : ℕ) : Prop :=
  match swapType with
  | .toZec =>
    (∃ sent ≤ 0, row.sentNoteCount = some sent) ∧ (∃ n > 0, row.receivedNoteCount = some n) ∧
      row.totalReceived = some (a : ℤ)
  | .fromZec =>
    (∃ sent > 0, row.sentNoteCount = some sent) ∧
      ∃ spent received fee, row.totalSpent = some spent ∧ row.totalReceived = some received ∧
        row.feePaid = some fee ∧ spent - received - fee = a

/-- **A transaction that completes the swap**, whose amount is `a`. -/
structure TxRow.Confirms (row : TxRow) (swap : SwapInfo) (a : ℕ) : Prop where
  mined : row.minedHeight.isSome = true
  notShielding : row.isShielding = some false
  recent : ∃ t, row.blockTime = some t ∧ swap.since ≤ t * 1000
  moves : row.Moves swap.swapType a

def SwapInfo.zecAmount (swap : SwapInfo) : Option String :=
  match swap.swapType with
  | .toZec => swap.outputAmount
  | .fromZec => some swap.inputAmount

/-- Written with a point and at most eight digits. -/
def SwapInfo.WritesAmount (swap : SwapInfo) (a : ℕ) : Prop :=
  ∃ (n : Numeral) (frac : List Char), swap.zecAmount = some (String.ofList n.text) ∧
    n.frac = some frac ∧ frac.length ≤ 8 ∧ n.value * 10 ^ 8 = a

/-- It has its block time and, for a swap from ZEC, its fee; its amounts are not negative. -/
structure TxRow.Complete (row : TxRow) (swap : SwapInfo) : Prop where
  blockTime : ∃ t, row.blockTime = some t ∧ (swap.since ≤ t * 1000 ∨ (t + 1) * 1000 ≤ swap.since)
  amounts : swap.swapType = .fromZec → (∃ fee ≥ 0, row.feePaid = some fee) ∧
    (∀ spent ∈ row.totalSpent, 0 ≤ spent) ∧ ∀ received ∈ row.totalReceived, 0 ≤ received

/-! ## The scan finds such transactions -/

theorem ediv_le_tdiv (x : ℤ) : x / 1000 ≤ x.tdiv 1000 := by
  rw [Int.tdiv_eq_ediv]
  split_ifs <;> simp

variable {swap : SwapInfo} {a : ℕ} {row : TxRow}

theorem recent_of_not_lt {t : ℤ} (h : ¬ t < minBlockTimeS swap)
    (hsecond : swap.since ≤ t * 1000 ∨ (t + 1) * 1000 ≤ swap.since) : swap.since ≤ t * 1000 := by
  refine hsecond.resolve_right fun hold => h ?_
  have hle : swap.since ≤ max (swap.createdAt - 15 * 60 * 1000) i64Min := le_max_left _ _
  have htdiv := ediv_le_tdiv (max (swap.createdAt - 15 * 60 * 1000) i64Min)
  unfold minBlockTimeS
  omega

theorem expectedAmountZat_eq_bind (swap : SwapInfo) :
    expectedAmountZat swap = swap.zecAmount.bind parseZatoshis := by
  unfold expectedAmountZat SwapInfo.zecAmount
  cases swap.swapType with
  | toZec | fromZec => rfl

theorem expectedAmountZat_eq (h : swap.WritesAmount a) (hlt : a < u64Size) :
    expectedAmountZat swap = some a := by
  obtain ⟨n, frac, htext, hfrac, hlen, hvalue⟩ := h
  have hscaled : n.scaled 8 = a := by rw [n.scaled_eq_floor, hvalue, Nat.floor_natCast]
  rw [expectedAmountZat_eq_bind, htext, Option.bind_some,
    parseZatoshis_of_point hfrac hlen (hscaled ▸ hlt), hscaled]

theorem moves_of_receivedU64 {sent received : ℤ} (hsent : row.sentNoteCount = some sent)
    (hreceived : row.receivedNoteCount = some received) (h : receivedU64 row sent received = some a)
    (hpos : 0 < a) : row.Moves .toZec a := by
  unfold receivedU64 at h
  split_ifs at h with hcounts
  obtain ⟨total, htotal, rfl⟩ := Option.map_eq_some_iff.mp h
  refine ⟨⟨sent, by omega, hsent⟩, ⟨received, by omega, hreceived⟩, ?_⟩
  rw [htotal, Int.toNat_of_nonneg (by omega)]

theorem moves_of_sentU64 {sent : ℤ} (hcomplete : row.Complete swap)
    (hswap : swap.swapType = .fromZec) (hsent : row.sentNoteCount = some sent)
    (h : sentU64 row sent = some a) (hpos : 0 < a) :
    row.Moves .fromZec a := by
  obtain ⟨⟨fee, hfee_nonneg, hfee⟩, hspent_nonneg, hreceived_nonneg⟩ := hcomplete.amounts hswap
  unfold sentU64 at h
  split_ifs at h with hcount
  obtain ⟨spent, hspent, h⟩ := Option.bind_eq_some_iff.mp h
  obtain ⟨received, hreceived, h⟩ := Option.bind_eq_some_iff.mp h
  have hvalue : spent.toNat - received.toNat - fee.toNat = a := by
    rw [hfee] at h
    exact Option.some.inj h
  have hspent_nonneg := hspent_nonneg spent hspent
  have hreceived_nonneg := hreceived_nonneg received hreceived
  exact ⟨⟨sent, by omega, hsent⟩, spent, received, fee, hspent, hreceived, hfee, by omega⟩

theorem confirms_of_matchesSwap (hexpected : expectedAmountZat swap = some a) (hpos : 0 < a)
    (hmined : row.minedHeight.isSome = true) (hcomplete : row.Complete swap)
    (h : row.matchesSwap swap = true) : row.Confirms swap a := by
  obtain ⟨t, ht, hsecond⟩ := hcomplete.blockTime
  unfold TxRow.matchesSwap at h
  split at h
  swap
  · cases h
  rename_i sent received hshielding hsent hreceived
  rw [Bool.and_eq_true, Option.any_eq_true] at h
  obtain ⟨htime, amount, hamount, hequal⟩ := h
  have hrecent : ¬ t < minBlockTimeS swap := by simpa [ht] using htime
  obtain rfl : amount = a := by simpa [hexpected] using hequal
  refine ⟨hmined, hshielding, ⟨t, ht, recent_of_not_lt hrecent hsecond⟩, ?_⟩
  cases hswap : swap.swapType with
  | toZec =>
    rw [hswap] at hamount
    exact moves_of_receivedU64 hsent hreceived hamount hpos
  | fromZec =>
    rw [hswap] at hamount
    exact moves_of_sentU64 hcomplete hswap hsent hamount hpos

def swapToZec (outputAmount : Option String) : SwapInfo where
  id := 0
  remoteId := some "swap"
  swapType := .toZec
  inputAsset := "nep141:eth.omft.near"
  inputAmount := "0.01"
  outputAsset := "nep141:zec.omft.near"
  outputAmount := outputAmount
  depositAddress := some "deposit"
  depositMemo := none
  destinationAddress := some "t1"
  refundAddress := none
  state := .pending
  deadline := none
  lastError := none
  createdAt := 1000000
  updatedAt := 1000000

def incoming (zatoshis : ℤ) (blockTime : Option ℤ) : TxRow :=
  ⟨1, some 2000000, none, some 0, some zatoshis, some false, some 0, some 1, blockTime⟩

def walletWith (history : List TxRow) : ScanEnv := ⟨some 0, true, true, true, history, 200⟩

end ZbagSwap
