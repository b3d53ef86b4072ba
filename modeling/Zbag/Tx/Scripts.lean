import Zbag.Tx.Service

/-!
# Transactions — the scripts of sending and shielding

What `confirm_send` and `shield_funds` do, as scripts that are read off what their steps meet
outside. What counts as visible is a `View` of the outbox.

* `confirmScript`, `shieldScript`: the steps of a call in their order.
-/

namespace ZbagTx

open Script ZbagWallet

/-! ## Views -/

structure View where
  visible : Outbox → Prop
  ofSend : SendAnswer → Bool
  ofQueue : Bool
  store_iff : ∀ o txids, visible (o.store txids) ↔ visible o
  send_iff : ∀ o txid answer, visible (o.send txid answer) ↔ visible o ∨ ofSend answer = true
  queue_iff : ∀ o txid, visible (o.queue txid) ↔ visible o ∨ ofQueue = true
  deliver_iff : ∀ o txid answer, (relay answer).isFailed = false →
    (visible ((o.send txid answer).unqueue txid) ↔ visible o ∨ ofSend answer = true)

theorem Outbox.send_sent (o : Outbox) (txid : TxId) (answer : SendAnswer) :
    (o.send txid answer).sent ≠ [] ↔ o.sent ≠ [] ∨ answer.reached = true := by
  cases h : answer.reached <;> simp [Outbox.send, h]

theorem Outbox.send_accepted (o : Outbox) (txid : TxId) (answer : SendAnswer) :
    (o.send txid answer).accepted ≠ [] ↔ o.accepted ≠ [] ∨ answer.taken = true := by
  cases h : answer.taken <;> simp [Outbox.send, h]

def View.sent : View where
  visible o := o.sent ≠ []
  ofSend := SendAnswer.reached
  ofQueue := false
  store_iff _ _ := Iff.rfl
  send_iff := Outbox.send_sent
  queue_iff _ _ := (or_iff_left Bool.false_ne_true).symm
  deliver_iff o txid answer _ := Outbox.send_sent o txid answer

def View.out : View where
  visible o := o.accepted ≠ [] ∨ o.queued ≠ []
  ofSend := SendAnswer.taken
  ofQueue := true
  store_iff _ _ := Iff.rfl
  send_iff o txid answer := by
    rw [Outbox.send_accepted, or_right_comm]
    rfl
  queue_iff o txid := by simp [Outbox.queue]
  deliver_iff o txid answer h := by
    have htaken := SendAnswer.taken_of_not_failed h
    have hacc : ((o.send txid answer).unqueue txid).accepted ≠ [] :=
      (Outbox.send_accepted o txid answer).mpr (.inr htaken)
    simp only [htaken, or_true, iff_true]
    exact .inl hacc

/-! ## Scripts -/

section scripts

variable (V : View)

def TxEnv.script (tx : TxEnv) : List Mark :=
  Mark.check tx.loadError :: Mark.touch (V.ofSend tx.send) ::
    if (relay tx.send).isFailed then [Mark.check tx.queueError, Mark.touch V.ofQueue] else []

def scanMark (error : Option String) : Mark :=
  Mark.check (internal "failed to read queued broadcasts dir" error)

def sendAllScript (txs : List TxEnv) : List Mark := txs.flatMap (TxEnv.script V)

def confirmBuildScript (env : ConfirmEnv) : List Mark :=
  match env.build with
  | .error _ => [.fail]
  | .ok (tx, txs) => .pass :: (sendAllScript V (tx :: txs) ++ [scanMark env.scan])

def confirmScript (env : ConfirmEnv) (w : WalletId) (record : ProposalRecord) : List Mark :=
  [Mark.check (proposalError env w record),
    Mark.check (internal "failed to open app db for send policy checks" env.openAppDb),
    Mark.check (errorOf (ensureSpendAllowed env.appDb w record.accountId)),
    Mark.check (transparentInputsError record)] ++ confirmBuildScript V env

def executeScript (env : ConfirmEnv) (w : WalletId) (record : ProposalRecord) : List Mark :=
  Mark.check (internal "failed to open wallet db" env.openWalletDb) :: confirmScript V env w record

def ShieldTxEnv.script (tx : ShieldTxEnv) : List Mark :=
  tx.toTxEnv.script V ++ [scanMark tx.scan]

def shieldBuildScript (env : BatchEnv) : List Mark :=
  Mark.check (transactionFailed "invalid shielding proposal: " env.proposal) ::
    match env.build with
    | .error _ => [.fail]
    | .ok (tx, txs) => .pass :: (tx :: txs).flatMap (ShieldTxEnv.script V)

def BatchEnv.script (env : BatchEnv) (batch : List OutPoint) : List Mark :=
  if batch.isEmpty then []
  else
    Mark.check (internal "failed to load wallet metadata for shielding" env.walletMeta) ::
      match priceBatch batch env.answers with
      | none => [.wait]
      | some .skip => []
      | some (.insufficientFunds _ _) | some (.failed _) => [.fail]
      | some (.inputs _ _) => shieldBuildScript V env

def batchLoopScript : List (List OutPoint) → List BatchEnv → List Mark
  | [], _ => []
  | _ :: _, [] => [.wait]
  | batch :: batches, env :: envs => env.script V batch ++ batchLoopScript batches envs

def BatchEnv.builds (env : BatchEnv) (batch : List OutPoint) : Bool :=
  !batch.isEmpty &&
    match priceBatch batch env.answers with
    | some (.inputs _ _) => true
    | _ => false

def loopBuilds (batches : List (List OutPoint)) (envs : List BatchEnv) : Bool :=
  (batches.zip envs).any fun p => p.2.builds p.1

def shieldInputsScript (env : ShieldEnv) (inputs : List OutPoint) : List Mark :=
  if inputs.isEmpty then [.fail]
  else
    batchLoopScript V (shieldingBatches inputs) env.batches ++
      if loopBuilds (shieldingBatches inputs) env.batches then [] else [.fail]

def shieldScript (env : ShieldEnv) (w : WalletId) (a : AccountId) : List Mark :=
  [Mark.check (internal "failed to open app db for shield policy checks" env.openAppDb),
    Mark.check (errorOf (ensureSpendAllowed env.appDb w a))] ++
    match env.setup with
    | .error _ => [.fail]
    | .ok inputs => shieldInputsScript V env inputs

end scripts

/-! ## The calls follow their scripts -/

section follows

variable (V : View)

theorem modify_store_follows (txids : List TxId) :
    Follows V.visible (modify fun o => o.store txids : TxCall PUnit) [.pass] := by
  refine Follows.modify (b := false) fun o => ?_
  rw [V.store_iff]
  exact (or_iff_left Bool.false_ne_true).symm

theorem sendOrQueue_follows (tx : TxEnv) :
    Follows V.visible (sendOrQueue tx) (tx.script V) := by
  refine (Follows.check tx.loadError).bind fun _ => ?_
  cases h : (relay tx.send).isFailed with
  | false =>
    simp only [Bool.false_eq_true, if_false]
    exact Follows.modify fun o => V.deliver_iff o tx.txid tx.send h
  | true =>
    simp only [if_true]
    refine (Follows.modify fun o => V.send_iff o tx.txid tx.send).bind fun _ => ?_
    refine (Follows.check tx.queueError).bind fun _ => ?_
    exact Follows.modify fun o => V.queue_iff o tx.txid

theorem scanQueuedBroadcasts_follows (error : Option String) :
    Follows V.visible (scanQueuedBroadcasts error) [scanMark error] :=
  Follows.check _

theorem sendAll_follows (txs : List TxEnv) :
    Follows V.visible (sendAll txs) (sendAllScript V txs) := by
  induction txs with
  | nil => exact Follows.pure ()
  | cons tx txs ih => exact (sendOrQueue_follows V tx).bind fun _ => ih

/-- **`confirm_send` follows its script.** -/
theorem confirmSend_follows (env : ConfirmEnv) (w : WalletId) (record : ProposalRecord) :
    Follows V.visible (confirmSend env w record) (confirmScript V env w record) := by
  refine (Follows.check _).bind fun _ => (Follows.check _).bind fun _ =>
    (Follows.check _).bind fun _ => (Follows.check _).bind fun _ => ?_
  unfold confirmBuildScript
  cases env.build with
  | error e => exact Follows.throw_error _ []
  | ok built =>
    refine (modify_store_follows V _).bind fun _ => (sendAll_follows V _).bind fun _ => ?_
    exact (scanQueuedBroadcasts_follows V _).bind fun _ => Follows.pure _

theorem executePreparedConfirmSendTask_follows (env : ConfirmEnv) (w : WalletId)
    (record : ProposalRecord) :
    Follows V.visible (executePreparedConfirmSendTask env w record)
      (executeScript V env w record) :=
  (Follows.check _).bind fun _ => confirmSend_follows V env w record

theorem shieldSend_follows (tx : ShieldTxEnv) :
    Follows V.visible (shieldSend tx) (tx.script V) :=
  (sendOrQueue_follows V _).bind fun _ => scanQueuedBroadcasts_follows V _

theorem shieldSends_follows (fee : ℕ) (txs : List ShieldTxEnv)
    (primary : Option ShieldFundsResponse) :
    Follows V.visible (shieldSends fee txs primary) (txs.flatMap (ShieldTxEnv.script V)) := by
  induction txs generalizing primary with
  | nil => exact Follows.pure primary
  | cons tx txs ih => exact (shieldSend_follows V tx).bind fun _ => ih _

theorem shieldBuild_follows (env : BatchEnv) (fee : ℕ) (primary : Option ShieldFundsResponse) :
    Follows V.visible (shieldBuild env fee primary) (shieldBuildScript V env) := by
  refine (Follows.check _).bind fun _ => ?_
  cases env.build with
  | error e => exact Follows.throw_error _ []
  | ok built => exact (modify_store_follows V _).bind fun _ => shieldSends_follows V fee _ primary

theorem shieldBatch_follows (env : BatchEnv) (batch : List OutPoint)
    (primary : Option ShieldFundsResponse) :
    Follows V.visible (shieldBatch env batch primary) (env.script V batch) := by
  unfold shieldBatch BatchEnv.script
  split_ifs with hempty
  · exact Follows.pure primary
  · refine (Follows.check _).bind fun _ => ?_
    cases priceBatch batch env.answers with
    | none => exact Follows.throw_waiting []
    | some priced =>
      cases priced with
      | skip => exact Follows.pure primary
      | inputs selection fee => exact shieldBuild_follows V env fee primary
      | insufficientFunds available required | failed e => exact Follows.throw_error _ []

theorem shieldBatchLoop_follows (batches : List (List OutPoint)) (envs : List BatchEnv)
    (primary : Option ShieldFundsResponse) :
    Follows V.visible (shieldBatchLoop batches envs primary) (batchLoopScript V batches envs) := by
  induction batches generalizing envs primary with
  | nil => exact Follows.pure primary
  | cons batch batches ih =>
    cases envs with
    | nil => exact Follows.throw_waiting []
    | cons env envs => exact (shieldBatch_follows V env batch primary).bind fun _ => ih envs _

/-! The response of `shield_funds` is there exactly if a transaction was built. -/

theorem shieldSends_returns (fee : ℕ) (txs : List ShieldTxEnv)
    (primary : Option ShieldFundsResponse) :
    Returns (shieldSends fee txs primary) fun r => r.isSome = (primary.isSome || !txs.isEmpty) := by
  induction txs generalizing primary with
  | nil => exact Returns.pure (by simp)
  | cons tx txs ih =>
    refine Returns.seq fun _ s r hr => ?_
    rw [ih _ s r hr]
    simp

theorem shieldBuild_returns (env : BatchEnv) (fee : ℕ) (primary : Option ShieldFundsResponse) :
    Returns (shieldBuild env fee primary) fun r => r.isSome = true := by
  refine Returns.seq fun _ => ?_
  cases env.build with
  | error e => exact Returns.throw _
  | ok built =>
    refine Returns.seq fun _ s r hr => ?_
    rw [shieldSends_returns fee _ primary s r hr]
    simp

theorem shieldBatch_returns (env : BatchEnv) (batch : List OutPoint)
    (primary : Option ShieldFundsResponse) :
    Returns (shieldBatch env batch primary) fun r =>
      r.isSome = (primary.isSome || env.builds batch) := by
  unfold shieldBatch BatchEnv.builds
  split_ifs with hempty
  · exact Returns.pure (by simp [hempty])
  · refine Returns.seq fun _ => ?_
    cases priceBatch batch env.answers with
    | none => exact Returns.throw _
    | some priced =>
      cases priced with
      | skip => exact Returns.pure (by simp)
      | inputs selection fee =>
        intro s r hr
        rw [shieldBuild_returns env fee primary s r hr]
        simp [hempty]
      | insufficientFunds available required | failed e => exact Returns.throw _

theorem shieldBatchLoop_returns (batches : List (List OutPoint)) (envs : List BatchEnv)
    (primary : Option ShieldFundsResponse) :
    Returns (shieldBatchLoop batches envs primary) fun r =>
      r.isSome = (primary.isSome || loopBuilds batches envs) := by
  induction batches generalizing envs primary with
  | nil => exact Returns.pure (by simp [loopBuilds])
  | cons batch batches ih =>
    cases envs with
    | nil => exact Returns.throw _
    | cons env envs =>
      refine (shieldBatch_returns env batch primary).bind fun r hr s r' hr' => ?_
      rw [ih envs r s r' hr', hr]
      simp [loopBuilds, Bool.or_assoc]

theorem shieldResponse_follows {primary : Option ShieldFundsResponse} {built : Bool}
    (h : primary.isSome = built) :
    Follows V.visible (shieldResponse primary) (if built then [] else [.fail]) := by
  subst h
  cases primary with
  | none => exact Follows.throw_error _ []
  | some response => exact Follows.pure response

/-- **`shield_funds` follows its script.** -/
theorem shieldFunds_follows (env : ShieldEnv) (w : WalletId) (a : AccountId) :
    Follows V.visible (shieldFunds env w a) (shieldScript V env w a) := by
  refine (Follows.check _).bind fun _ => (Follows.check _).bind fun _ => ?_
  cases env.setup with
  | error e => exact Follows.throw_error _ []
  | ok inputs =>
    unfold shieldInputsScript
    by_cases hempty : inputs.isEmpty = true
    · simp only [hempty, if_true]
      exact Follows.throw_error _ []
    · simp only [hempty]
      refine (shieldBatchLoop_follows V _ _ _).bind_of (shieldBatchLoop_returns _ _ _)
        fun primary hp => shieldResponse_follows V ?_
      simpa using hp

end follows

end ZbagTx
