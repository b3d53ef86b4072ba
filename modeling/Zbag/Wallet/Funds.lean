import Mathlib.Data.List.Infix
import Zbag.Lib.Decimal
import Zbag.Lib.Operation
import Zbag.Wallet.Manager

/-!
# Wallet — the funds of a send

`prepare_send` and `build_signing_request` check the request, compare the amount with the balance of
the account and ask the proposer, which alone knows the fee. Transparent funds are not spent: when
they would make up for missing shielded funds, the call says so. The comparison leaves the fee out.
-/

namespace ZbagWallet

open Operation

/-! ## Requests -/

inductive RecipientKind
  | orchard
  | sapling
  | transparent
  deriving DecidableEq, Repr

structure SendRequest where
  amountZat : String
  memo : Option String
  allowTransparentRecipient : Bool
  deriving DecidableEq, Repr

/-- `Zatoshis::MAX_MONEY`. -/
def maxMoney : ℕ := 21000000 * 100000000

def u64Max : ℕ := 2 ^ 64 - 1

def parseU64 (text : String) : Option ℕ := Decimal.parse (u64Max + 1) text.toList

def parseZatoshis (value : String) : Except IpcError ℕ :=
  match Decimal.trim value.toList with
  | [] => .error ⟨.invalidRequest, "amount required"⟩
  | c :: cs =>
    match Decimal.parse (u64Max + 1) (c :: cs) with
    | none => .error ⟨.invalidRequest, "invalid amount"⟩
    | some n => if n ≤ maxMoney then .ok n else .error ⟨.invalidRequest, "invalid amount"⟩

def enforcePrivacyAndMemoRules (kind : RecipientKind) (memo : Option String) (allow : Bool) :
    Except IpcError Unit := do
  if kind = .transparent then
    if memo.isSome then
      throw ⟨.memoNotAllowed, "memos are not allowed for transparent recipients"⟩
    if !allow then
      throw ⟨.privacyAckRequired, "transparent recipient requires privacy acknowledgement"⟩
  if memo.any (512 < ·.utf8ByteSize) then throw ⟨.memoTooLong, "memo too long"⟩

/-! ## Balances -/

/-- in zatoshis -/
structure AccountBalance where
  spendable : ℕ
  changePendingConfirmation : ℕ
  valuePendingSpendability : ℕ
  uneconomic : ℕ
  unshielded : ℕ
  total_le : spendable + changePendingConfirmation + valuePendingSpendability + uneconomic +
    unshielded ≤ maxMoney

def AccountBalance.pending (b : AccountBalance) : ℕ :=
  b.changePendingConfirmation + b.valuePendingSpendability + b.uneconomic

/-- `Balance`: the amounts as text. -/
structure Balance where
  shieldedSpendable : String
  shieldedPending : String
  transparentTotal : String
  deriving DecidableEq, Repr

/-- For the account's balance in the wallet summary. -/
def getBalance (b : AccountBalance) : Balance :=
  ⟨toString b.spendable, toString b.pending, toString b.unshielded⟩

structure Funds where
  amount : ℕ
  spendable : ℕ
  pending : ℕ
  transparent : ℕ
  deriving DecidableEq, Repr

def readAmount (field text : String) : Except IpcError ℕ :=
  match parseU64 text with
  | some n => .ok n
  | none => .error ⟨.internalError, "invalid " ++ field ++ " format"⟩

def readBalance (amount : ℕ) (b : Balance) : Except IpcError Funds := do
  let spendable ← readAmount "shielded_spendable" b.shieldedSpendable
  let pending ← readAmount "shielded_pending" b.shieldedPending
  let transparent ← readAmount "transparent_total" b.transparentTotal
  return ⟨amount, spendable, pending, transparent⟩

/-! ## Before the proposer -/

/-- Covered only together with the transparent funds. -/
def Funds.Blocked (funds : Funds) : Prop :=
  funds.spendable < funds.amount ∧ 0 < funds.transparent ∧
    funds.amount ≤ min (funds.spendable + funds.transparent) u64Max

instance (funds : Funds) : Decidable funds.Blocked := inferInstanceAs (Decidable (_ ∧ _))

/-- The same with what is pending. -/
def Funds.Pending (funds : Funds) : Prop :=
  funds.spendable < funds.amount ∧ 0 < funds.pending ∧
    funds.amount ≤ min (funds.spendable + funds.pending) u64Max

instance (funds : Funds) : Decidable funds.Pending := inferInstanceAs (Decidable (_ ∧ _))

def transparentSpendBlocked : IpcError :=
  ⟨.transparentSpendBlocked, "shielded funds are insufficient; shield transparent funds first"⟩

def checkFunds (funds : Funds) : Except IpcError Unit :=
  if funds.Blocked then .error transparentSpendBlocked
  else if funds.Pending then
    .error ⟨.insufficientFunds,
      "insufficient spendable funds (some funds are still pending sync/restore)"⟩
  else .ok ()

structure FundsEnv where
  /-- `parse_recipient` -/
  recipient : Except IpcError RecipientKind
  balance : Except String AccountBalance
  /-- `resolve_wallet_account_uuid` -/
  account : Except IpcError Unit
  /-- for each step, whether it has transparent inputs -/
  proposer : Except String (List Bool)

def lookUpBalance (env : FundsEnv) : Except IpcError Balance :=
  match env.balance with
  | .ok b => .ok (getBalance b)
  | .error e => .error ⟨.internalError, "balance lookup failed: " ++ e⟩

/-- Everything before the proposer is asked, in both calls. -/
def checkRequest (env : FundsEnv) (request : SendRequest) : Except IpcError Funds := do
  let amount ← parseZatoshis request.amountZat
  if amount = 0 then throw ⟨.invalidRequest, "amount must be > 0"⟩
  let kind ← env.recipient
  enforcePrivacyAndMemoRules kind request.memo request.allowTransparentRecipient
  let balance ← lookUpBalance env
  let funds ← readBalance amount balance
  checkFunds funds
  env.account
  return funds

/-! ## The proposer's answer -/

def Insufficient (error : String) : Prop :=
  "Insufficient balance".toList <:+: error.toList ∨ "Insufficient funds".toList <:+: error.toList

instance (error : String) : Decidable (Insufficient error) :=
  inferInstanceAs (Decidable (_ ∨ _))

def insufficientFunds : IpcError := ⟨.insufficientFunds, "insufficient funds"⟩

def proposeFailed (error : String) : IpcError :=
  ⟨.transactionFailed, "failed to propose transaction: " ++ error⟩

/-- The comparison is made once more. -/
def sendError (funds : Funds) (error : String) : IpcError :=
  if Insufficient error then
    if funds.Blocked then transparentSpendBlocked else insufficientFunds
  else proposeFailed error

def signingError (error : String) : IpcError :=
  if Insufficient error then insufficientFunds else proposeFailed error

def sendProposal (env : FundsEnv) (request : SendRequest) : Except IpcError (List Bool) := do
  let funds ← checkRequest env request
  env.proposer.mapError (sendError funds)

def signingProposal (env : FundsEnv) (request : SendRequest) : Except IpcError (List Bool) := do
  let _ ← checkRequest env request
  env.proposer.mapError signingError

/-! ## The calls -/

def errorCode {α : Type} : Except IpcError α → Option ErrorCode
  | .ok _ => none
  | .error e => some e.code

structure World.Opens (s : World) (active : ActiveWallet) : Prop where
  isActive : s.activeWallet = some active
  unlocked : active.lockStatus = .unlocked
  walletDb : active.walletDb.isSome = true

variable {s : World} {active : ActiveWallet} {a : ℕ}

theorem activeWalletDb_of_opens (h : s.Opens active) :
    outcome activeWalletDb s = (.ok active, s) := by
  obtain ⟨conn, hconn⟩ := Option.isSome_iff_exists.mp h.walletDb
  have hactive : outcome activeWallet s = (.ok active, s) := by
    rw [activeWallet, outcome_get_bind, h.isActive]
    rfl
  rw [activeWalletDb, outcome_bind_ok hactive]
  simp only [h.unlocked, ne_eq, not_true_eq_false, if_false, hconn]
  rfl

theorem outcome_ofExcept {α : Type} (r : Except IpcError α) (s : World) :
    outcome (ofExcept r) s = (r, s) := by
  cases r with
  | ok a | error e => rfl

theorem prepareSend_errorCode {a : AccountId} (hopens : s.Opens active)
    (hgate : ensureSpendAllowed s.appDb active.wallet a = .ok ()) (env : Env) (proposalId : ℕ) :
    errorCode (outcome (prepareSend env a proposalId) s).1 =
      match env.propose with
      | .error e => some e.code
      | .ok steps => if steps.any id then some .transparentSpendBlocked else none := by
  have hget : outcome (get : Op World) s = (.ok s, s) := rfl
  rw [prepareSend, outcome_bind_ok (activeWalletDb_of_opens hopens), outcome_bind_ok hget, hgate,
    outcome_bind_ok (outcome_ofExcept _ s), outcome_bind, outcome_ofExcept]
  cases env.propose with
  | error e => rfl
  | ok steps => cases h : steps.any id <;> simp only [h] <;> rfl

theorem buildSigningRequest_errorCode (hopens : s.Opens active)
    (hgate : ensureBackupComplete s.appDb active.wallet = .ok ()) (env : Env) (requestId : ℕ) :
    errorCode (outcome (buildSigningRequest env requestId) s).1 =
      match env.propose with
      | .error e => some e.code
      | .ok steps =>
        if steps.any id then some .transparentSpendBlocked
        else if env.createPczt then none else some .signingFailed := by
  have hget : outcome (get : Op World) s = (.ok s, s) := rfl
  rw [buildSigningRequest, outcome_bind_ok (activeWalletDb_of_opens hopens), outcome_bind_ok hget,
    hgate, outcome_bind_ok (outcome_ofExcept _ s), outcome_bind, outcome_ofExcept]
  cases env.propose with
  | error e => rfl
  | ok steps =>
    cases h : steps.any id <;> cases hpczt : env.createPczt <;> simp only [h] <;> rfl

/-! ## The funds of a request -/

def AccountBalance.funds (b : AccountBalance) (amount : ℕ) : Funds :=
  ⟨amount, b.spendable, b.pending, b.unshielded⟩

theorem readAmount_toString (field : String) {n : ℕ} (h : n ≤ maxMoney) :
    readAmount field (toString n) = .ok n := by
  have hlt : n < u64Max + 1 := lt_of_le_of_lt h (by decide)
  have hparse : parseU64 (toString n) = some n := by
    rw [parseU64, Nat.toString_eq_ofList_toDigits, String.toList_ofList,
      Decimal.parse_toDigits hlt]
  rw [readAmount, hparse]

theorem readBalance_getBalance (amount : ℕ) (b : AccountBalance) :
    readBalance amount (getBalance b) = .ok (b.funds amount) := by
  have htotal := b.total_le
  have hpending : b.pending ≤ maxMoney := by unfold AccountBalance.pending; omega
  rw [readBalance, getBalance, readAmount_toString _ (by omega), readAmount_toString _ hpending,
    readAmount_toString _ (by omega)]
  rfl

structure FundsEnv.Admits (env : FundsEnv) (request : SendRequest) (amount : ℕ)
    (b : AccountBalance) : Prop where
  positive : 0 < amount
  parses : parseZatoshis request.amountZat = .ok amount
  recipient : ∃ kind, env.recipient = .ok kind ∧
    enforcePrivacyAndMemoRules kind request.memo request.allowTransparentRecipient = .ok ()
  balance : env.balance = .ok b
  account : env.account = .ok ()

theorem parseZatoshis_le {value : String} {n : ℕ} (h : parseZatoshis value = .ok n) :
    n ≤ maxMoney := by
  unfold parseZatoshis at h
  split at h
  · cases h
  · split at h
    · cases h
    · split_ifs at h with hle
      obtain rfl := Except.ok.inj h
      exact hle

section

variable {env : FundsEnv} {request : SendRequest} {amount : ℕ} {b : AccountBalance}

theorem checkRequest_of_admits (h : env.Admits request amount b) :
    checkRequest env request = (checkFunds (b.funds amount)).map fun _ => b.funds amount := by
  obtain ⟨kind, hkind, hrules⟩ := h.recipient
  rw [checkRequest, h.parses, hkind, lookUpBalance, h.balance, h.account]
  simp only [bind, Except.bind, h.positive.ne', if_false, hrules, readBalance_getBalance]
  cases checkFunds (b.funds amount) with
  | ok u | error e => rfl

theorem checkFunds_of_not_pending (hpending : b.pending = 0) :
    checkFunds (b.funds amount) =
      if (b.funds amount).Blocked then .error transparentSpendBlocked else .ok () := by
  have hnot : ¬ (b.funds amount).Pending := fun h => absurd h.2.1 (by simp [AccountBalance.funds,
    hpending])
  rw [checkFunds, if_neg hnot]

/-- Without the limits of the machine integers. -/
theorem blocked_iff (h : env.Admits request amount b) :
    (b.funds amount).Blocked ↔ b.spendable < amount ∧ amount ≤ b.spendable + b.unshielded := by
  have hle : amount ≤ u64Max := (parseZatoshis_le h.parses).trans (by decide)
  simp only [Funds.Blocked, AccountBalance.funds, le_min_iff]
  omega

end

/-! ## Where the funds are -/

/-- What both calls answer, whatever else they do with a proposal. -/
structure Answers (code : Option ErrorCode) (funds : Funds) (proposer : Except String (List Bool)) :
    Prop where
  blocked : funds.Blocked → code = some .transparentSpendBlocked
  failed : ¬ funds.Blocked → ∀ e, proposer = .error e →
    code = some (if Insufficient e then .insufficientFunds else .transactionFailed)
  refused : ¬ funds.Blocked → ∀ steps, proposer = .ok steps → steps.any id = true →
    code = some .transparentSpendBlocked
  proposed : ¬ funds.Blocked → ∀ steps, proposer = .ok steps → steps.any id = false →
    code ≠ some .transparentSpendBlocked ∧ code ≠ some .insufficientFunds

section

variable {env : FundsEnv} {request : SendRequest} {amount : ℕ} {b : AccountBalance} {s : World}
  {active : ActiveWallet}

theorem sendProposal_of_admits (h : env.Admits request amount b) (hpending : b.pending = 0) :
    sendProposal env request =
      if (b.funds amount).Blocked then .error transparentSpendBlocked
      else env.proposer.mapError (sendError (b.funds amount)) := by
  rw [sendProposal, checkRequest_of_admits h, checkFunds_of_not_pending hpending]
  split_ifs <;> rfl

theorem signingProposal_of_admits (h : env.Admits request amount b) (hpending : b.pending = 0) :
    signingProposal env request =
      if (b.funds amount).Blocked then .error transparentSpendBlocked
      else env.proposer.mapError signingError := by
  rw [signingProposal, checkRequest_of_admits h, checkFunds_of_not_pending hpending]
  split_ifs <;> rfl

theorem prepareSend_answers (h : env.Admits request amount b) (hpending : b.pending = 0)
    {a : AccountId} (hopens : s.Opens active)
    (hgate : ensureSpendAllowed s.appDb active.wallet a = .ok ()) (call : Env) (proposalId : ℕ) :
    Answers (errorCode (outcome (prepareSend { call with propose := sendProposal env request } a
      proposalId) s).1) (b.funds amount) env.proposer := by
  rw [prepareSend_errorCode hopens hgate, sendProposal_of_admits h hpending]
  refine ⟨fun hb => ?_, fun hb e he => ?_, fun hb steps hsteps hany => ?_,
    fun hb steps hsteps hany => ?_⟩
  · simp [hb, transparentSpendBlocked]
  · simp only [hb, if_false, he, Except.mapError, sendError]
    split_ifs <;> rfl
  · simp [hb, hsteps, Except.mapError, hany]
  · simp [hb, hsteps, Except.mapError, hany]

theorem buildSigningRequest_answers (h : env.Admits request amount b) (hpending : b.pending = 0)
    (hopens : s.Opens active) (hgate : ensureBackupComplete s.appDb active.wallet = .ok ())
    (call : Env) (requestId : ℕ) :
    Answers (errorCode (outcome (buildSigningRequest
      { call with propose := signingProposal env request } requestId) s).1) (b.funds amount)
      env.proposer := by
  rw [buildSigningRequest_errorCode hopens hgate, signingProposal_of_admits h hpending]
  refine ⟨fun hb => ?_, fun hb e he => ?_, fun hb steps hsteps hany => ?_,
    fun hb steps hsteps hany => ?_⟩
  · simp [hb, transparentSpendBlocked]
  · simp only [hb, if_false, he, Except.mapError, signingError]
    split_ifs <;> rfl
  · simp [hb, hsteps, Except.mapError, hany]
  · simp only [hb, if_false, hsteps, Except.mapError, hany, Bool.false_eq_true]
    split_ifs <;> simp

end

/-- `s` shielded, `t` transparent, for an amount `a` with the fee `f`. -/
def ReportsFunds (code : Option ErrorCode) (s t a f : ℕ) : Prop :=
  (code = some .transparentSpendBlocked ↔ s < a + f ∧ a + f ≤ s + t) ∧
    (code = some .insufficientFunds ↔ s + t < a + f)

/-- The amount alone compares as it would with the fee, or the proposer finds out by itself. -/
def FeeAgrees (s t a f : ℕ) : Prop :=
  s + t < a ∨ a + f ≤ s ∨ (s < a ∧ a + f ≤ s + t) ∨ (a ≤ s ∧ s + t < a + f)

instance (s t a f : ℕ) : Decidable (FeeAgrees s t a f) := inferInstanceAs (Decidable (_ ∨ _))

/-- Funds are missing exactly if the shielded ones do not cover amount and fee. -/
def FundsEnv.NeedsFee (env : FundsEnv) (s a f : ℕ) : Prop :=
  (∃ e, env.proposer = .error e ∧ Insufficient e) ↔ s < a + f

def FundsEnv.ProposesShielded (env : FundsEnv) : Prop :=
  ∀ steps, env.proposer = .ok steps → steps.any id = false

theorem Answers.reports_iff {code : Option ErrorCode} {funds : Funds} {env : FundsEnv} {s t f : ℕ}
    (h : Answers code funds env.proposer) (hblocked : funds.Blocked ↔ s < a ∧ a ≤ s + t)
    (hfee : env.NeedsFee s a f) :
    ReportsFunds code s t a f ↔ FeeAgrees s t a f ∧ env.ProposesShielded := by
  have hshielded : s < a + f → env.ProposesShielded := by
    intro hlt steps hsteps
    obtain ⟨e, he, -⟩ := hfee.mpr hlt
    rw [he] at hsteps
    cases hsteps
  by_cases hb : funds.Blocked
  · -- the amount alone is not covered: the proposer is not asked
    obtain ⟨hlt, hle⟩ := hblocked.mp hb
    rw [h.blocked hb, and_iff_left (hshielded (by omega))]
    simp only [ReportsFunds, FeeAgrees, Option.some.injEq, reduceCtorEq, true_iff, false_iff]
    omega
  have hnot : ¬ (s < a ∧ a ≤ s + t) := fun hlt => hb (hblocked.mpr hlt)
  by_cases hlt : s < a + f
  · obtain ⟨e, he, hins⟩ := hfee.mpr hlt
    rw [h.failed hb e he, if_pos hins, and_iff_left (hshielded hlt)]
    simp only [ReportsFunds, FeeAgrees, Option.some.injEq, reduceCtorEq, true_iff, false_iff]
    omega
  · -- the funds suffice: only a proposal with transparent inputs is refused
    have hagrees : FeeAgrees s t a f := .inr (.inl (by omega))
    have hreports : ReportsFunds code s t a f ↔
        code ≠ some .transparentSpendBlocked ∧ code ≠ some .insufficientFunds := by
      have hblock : ¬ (s < a + f ∧ a + f ≤ s + t) := fun hlt' => hlt hlt'.1
      have hmissing : ¬ s + t < a + f := by omega
      rw [ReportsFunds, iff_false_right hblock, iff_false_right hmissing]
    rw [hreports, and_iff_right hagrees]
    cases hproposer : env.proposer with
    | error e =>
      have hins : ¬ Insufficient e := fun hins => hlt (hfee.mp ⟨e, hproposer, hins⟩)
      rw [h.failed hb e hproposer, if_neg hins]
      refine iff_of_true (by simp) fun steps hsteps => ?_
      rw [hproposer] at hsteps
      cases hsteps
    | ok steps =>
      have hall : env.ProposesShielded ↔ steps.any id = false := by
        refine ⟨fun hall => hall steps hproposer, fun hany steps' hsteps' => ?_⟩
        rw [hproposer] at hsteps'
        obtain rfl := Except.ok.inj hsteps'
        exact hany
      rw [hall]
      cases hany : steps.any id with
      | false => exact iff_of_true (h.proposed hb steps hproposer hany) rfl
      | true =>
        refine iff_of_false (fun hcode => hcode.1 (h.refused hb steps hproposer hany)) ?_
        exact Bool.noConfusion

/-- **The error codes tell where the funds are exactly if the fee does not matter** and the proposer
leaves the transparent funds alone. -/
theorem reports_funds_iff {env : FundsEnv} {request : SendRequest} {a f : ℕ} {b : AccountBalance}
    (hadmits : env.Admits request a b) (hpending : b.pending = 0)
    (hfee : env.NeedsFee b.spendable a f) {s : World} {active : ActiveWallet}
    (hopens : s.Opens active) (call : Env) (account : AccountId) (proposalId requestId : ℕ) :
    (ensureSpendAllowed s.appDb active.wallet account = .ok () →
      (ReportsFunds (errorCode (outcome (prepareSend
          { call with propose := sendProposal env request } account proposalId) s).1)
          b.spendable b.unshielded a f ↔
        FeeAgrees b.spendable b.unshielded a f ∧ env.ProposesShielded)) ∧
    (ensureBackupComplete s.appDb active.wallet = .ok () →
      (ReportsFunds (errorCode (outcome (buildSigningRequest
          { call with propose := signingProposal env request } requestId) s).1)
          b.spendable b.unshielded a f ↔
        FeeAgrees b.spendable b.unshielded a f ∧ env.ProposesShielded)) := by
  have hblocked := blocked_iff hadmits
  refine ⟨fun hgate => ?_, fun hgate => ?_⟩
  · exact (prepareSend_answers hadmits hpending hopens hgate call proposalId).reports_iff hblocked
      hfee
  · exact (buildSigningRequest_answers hadmits hpending hopens hgate call requestId).reports_iff
      hblocked hfee

def spendingWorld : World :=
  { World.fresh with
    appDb := ⟨fun _ => some .software, fun _ => some false, fun _ _ => some .software⟩
    activeWallet := some ⟨0, .software, .unlocked, some ⟨0⟩, some ⟨0⟩⟩ }

/-- A balance with nothing pending. -/
def AccountBalance.settled (s t : ℕ) (h : s + t ≤ maxMoney) : AccountBalance :=
  ⟨s, 0, 0, 0, t, by omega⟩

def FundsEnv.meets (b : AccountBalance) (proposer : Except String (List Bool)) : FundsEnv :=
  ⟨.ok .orchard, .ok b, .ok (), proposer⟩

theorem FundsEnv.meets_admits (b : AccountBalance) (proposer : Except String (List Bool))
    {amountZat : String} (hpos : 0 < a) (hparses : parseZatoshis amountZat = .ok a) :
    (FundsEnv.meets b proposer).Admits ⟨amountZat, none, false⟩ a b :=
  ⟨hpos, hparses, ⟨.orchard, rfl, rfl⟩, rfl, rfl⟩

theorem spendingWorld_opens : ∃ active, spendingWorld.Opens active ∧
    ensureSpendAllowed spendingWorld.appDb active.wallet 0 = .ok () ∧
    ensureBackupComplete spendingWorld.appDb active.wallet = .ok () :=
  ⟨_, ⟨rfl, rfl, rfl⟩, rfl, rfl⟩

def missingFunds : Except String (List Bool) :=
  .error "Insufficient balance (have 5, need 12 including fee)"

theorem missingFunds_needsFee (b : AccountBalance) {f : ℕ} (h : b.spendable < a + f) :
    (FundsEnv.meets b missingFunds).NeedsFee b.spendable a f :=
  iff_of_true ⟨_, rfl, by decide +kernel⟩ h

theorem reports_funds_shield_first :
    let env := FundsEnv.meets (.settled 5 20 (by decide)) missingFunds
    let request : SendRequest := ⟨"10", none, false⟩
    ReportsFunds (errorCode (outcome (prepareSend
      { Env.works with propose := sendProposal env request } 0 0) spendingWorld).1) 5 20 10 2 ∧
    ReportsFunds (errorCode (outcome (buildSigningRequest
      { Env.works with propose := signingProposal env request } 0) spendingWorld).1) 5 20 10 2 := by
  obtain ⟨active, hopens, hspend, hbackup⟩ := spendingWorld_opens
  have hparses : parseZatoshis "10" = .ok 10 := by decide +kernel
  have hreports := reports_funds_iff
    (FundsEnv.meets_admits (.settled 5 20 (by decide)) missingFunds (by decide) hparses) rfl
    (missingFunds_needsFee (f := 2) _ (by decide)) hopens .works 0 0 0
  have hok : FeeAgrees 5 20 10 2 ∧
      (FundsEnv.meets (.settled 5 20 (by decide)) missingFunds).ProposesShielded :=
    ⟨by decide, nofun⟩
  exact ⟨(hreports.1 hspend).mpr hok, (hreports.2 hbackup).mpr hok⟩

/-- The funds are there, but both calls say that they are not. -/
theorem transparent_funds_missed :
    let b := AccountBalance.settled 10 100 (by decide)
    let env := FundsEnv.meets b missingFunds
    let request : SendRequest := ⟨"10", none, false⟩
    (env.Admits request 10 b ∧ b.pending = 0 ∧ env.NeedsFee 10 10 1) ∧
    errorCode (outcome (prepareSend { Env.works with propose := sendProposal env request } 0 0)
      spendingWorld).1 = some .insufficientFunds ∧
    errorCode (outcome (buildSigningRequest
      { Env.works with propose := signingProposal env request } 0) spendingWorld).1 =
        some .insufficientFunds ∧
    ¬ ReportsFunds (some .insufficientFunds) 10 100 10 1 := by
  have hparses : parseZatoshis "10" = .ok 10 := by decide +kernel
  refine ⟨⟨FundsEnv.meets_admits _ _ (by decide) hparses, rfl,
    missingFunds_needsFee (.settled 10 100 (by decide)) (by decide)⟩, by decide +kernel,
    by decide +kernel, fun h => ?_⟩
  exact absurd (h.2.mp rfl) (by decide)

end ZbagWallet
