import Zbag.Lib.Transition
import Zbag.Tx.Broadcast
import Zbag.Tx.Pricing

/-!
# Jobs — a send or shield job and its cancellation

One job of the job service: the async task, the closure it runs with `spawn_blocking`, and
`cancel_job`. A step is the code between two accesses to what the three share. An abort takes
effect at an await of the task and never stops the closure.

* `Job.perform`: what an effect does to the progress map and to the job's transactions;
* `cancelJob`, `jobSystem`.
-/

namespace ZbagJob

open ZbagTx Transition

inductive JobType
  | send
  | shield
  deriving DecidableEq, Repr

inductive JobState
  | queued
  | running
  | completed
  | failed
  | cancelled
  deriving DecidableEq, Repr

def JobState.isTerminal : JobState → Bool
  | .completed | .failed | .cancelled => true
  | .queued | .running => false

inductive JobPhase
  | preparing
  | proving
  | broadcasting
  | done
  deriving DecidableEq, Repr

structure JobProgress where
  jobType : JobType
  state : JobState
  phase : JobPhase
  progressPercent : Option ℕ
  txid : Option TxId
  error : Option String
  canCancel : Bool
  deriving DecidableEq, Repr

namespace JobProgress

def queued (t : JobType) : JobProgress := ⟨t, .queued, .preparing, some 0, none, none, true⟩

def proving (t : JobType) (percent : Option ℕ) : JobProgress :=
  ⟨t, .running, .proving, percent, none, none, true⟩

def broadcasting (t : JobType) (txid : TxId) : JobProgress :=
  ⟨t, .running, .broadcasting, some 90, some txid, none, false⟩

def completed (t : JobType) (txid : TxId) : JobProgress :=
  ⟨t, .completed, .done, some 100, some txid, none, false⟩

def failed (t : JobType) (error : String) (txid : Option TxId) : JobProgress :=
  ⟨t, .failed, .done, none, txid, some error, false⟩

def cancelled (t : JobType) : JobProgress := ⟨t, .cancelled, .done, none, none, none, false⟩

end JobProgress

/-! ## Control flow -/

structure ShieldLoop where
  batches : List (List OutPoint)
  primaryTxid : Option TxId
  broadcastError : Option String
  deriving DecidableEq, Repr

inductive ClosureResult
  | failed (error : String)
  | proved (primary : TxId) (others : List TxId)
  | shielded (primary : TxId) (broadcastError : Option String)
  deriving DecidableEq, Repr

inductive ClosurePc
  | idle
  | sendCheck
  | sendProve
  | sendCreate
  | sendRecheck (primary : TxId) (others : List TxId)
  | shieldCheck
  | shieldSetup
  | shieldStart (run : ShieldLoop)
  | shieldBatch (run : ShieldLoop)
  | shieldPrice (batch : List OutPoint) (run : ShieldLoop)
  | shieldProve (run : ShieldLoop)
  | shieldCreate (run : ShieldLoop)
  | shieldLoad (txids : List TxId) (run : ShieldLoop)
  | shieldEmit (txid : TxId) (txids : List TxId) (run : ShieldLoop)
  | shieldSend (txid : TxId) (txids : List TxId) (run : ShieldLoop)
  | returned (result : ClosureResult)
  deriving DecidableEq, Repr

/-- It is at an await in `await` and `broadcast`. -/
inductive TaskPc
  | check
  | start
  | openDb
  | await
  | emit (primary : TxId) (others : List TxId)
  | load (primary : TxId) (left : List TxId) (error : Option String)
  | broadcast (primary : TxId) (txid : TxId) (left : List TxId) (error : Option String)
  | finish (primary : TxId) (error : Option String)
  | ended
  deriving DecidableEq, Repr

inductive Effect
  | none
  /-- `progress.insert` -/
  | progress (p : JobProgress)
  /-- a terminal progress also drops the registry entry -/
  | emit (p : JobProgress)
  | spawn
  | store (txids : List TxId)
  | broadcast (txid : TxId) (answer : SendAnswer) (queueOk : Bool)
  deriving DecidableEq, Repr

inductive ClosureAnswer
  | go
  /-- at least one -/
  | create (result : Except String (TxId × List TxId))
  | setup (result : Except SetupError (List OutPoint))
  | price (metaError : Option String) (answers : List StrategyAnswer)
      (proposalError : Option String)
  | load (error : Option LoadError)
  | broadcast (answer : SendAnswer) (queueOk : Bool)
  deriving DecidableEq, Repr

inductive TaskAnswer
  | go
  | openDb (error : Option String)
  | load (error : Option LoadError)
  | broadcast (answer : SendAnswer) (queueOk : Bool)
  deriving DecidableEq, Repr

def broadcastErrorAfter (answer : SendAnswer) (old : Option String) : Option String :=
  match relay answer with
  | .failed e => some e
  | .accepted | .duplicate => old

/-- `run_send_job` and `run_shield_job`. -/
def taskNext (t : JobType) (cancelled : Bool) (result : Option ClosureResult) :
    TaskPc → TaskAnswer → Option (TaskPc × Effect)
  | .check, .go =>
    if cancelled then some (.ended, .emit (.cancelled t)) else some (.start, .none)
  | .start, .go => some (.openDb, .emit (.proving t (some 10)))
  | .openDb, .openDb (some e) =>
    some (.ended, .emit (.failed t ("failed to open wallet: " ++ e) none))
  | .openDb, .openDb none => some (.await, .spawn)
  | .await, .go =>
    match result with
    | none => none
    | some (.failed e) =>
      some (.ended, .emit (if e = "cancelled" then .cancelled t else .failed t e none))
    | some (.proved primary others) => some (.emit primary others, .none)
    | some (.shielded primary error) => some (.finish primary error, .none)
  | .emit primary others, .go =>
    some (.load primary (primary :: others) none, .emit (.broadcasting t primary))
  | .load primary [] error, .go => some (.finish primary error, .none)
  | .load primary (txid :: left) error, .load none =>
    some (.broadcast primary txid left error, .none)
  | .load primary (_ :: _) _, .load (some e) => some (.finish primary (some e.text), .none)
  | .broadcast primary txid left error, .broadcast answer queueOk =>
    some (.load primary left (broadcastErrorAfter answer error), .broadcast txid answer queueOk)
  | .finish primary (some e), .go => some (.ended, .emit (.failed t e (some primary)))
  | .finish primary none, .go => some (.ended, .emit (.completed t primary))
  | _, _ => none

def ClosureResult.cancelled : ClosureResult := .failed "cancelled"

def ShieldLoop.result (run : ShieldLoop) : ClosureResult :=
  match run.primaryTxid with
  | none => .failed "no transparent funds to shield"
  | some primary => .shielded primary run.broadcastError

def ShieldLoop.withTx (run : ShieldLoop) (txid : TxId) : ShieldLoop :=
  { run with primaryTxid := some (run.primaryTxid.getD txid) }

/-- The first error is reported. -/
def ShieldLoop.withAnswer (run : ShieldLoop) (answer : SendAnswer) : ShieldLoop :=
  match run.broadcastError with
  | some _ => run
  | none => { run with broadcastError := broadcastErrorAfter answer none }

def setupErrorText : SetupError → String
  | .listAccounts e => "failed to list accounts: " ++ e
  | .accountNotFound => "account not found"
  | .transparentReceivers e => "failed to list transparent receivers: " ++ e
  | .chainHeight e => "failed to read chain height: " ++ e
  | .mustScan => "must scan blocks first"
  | .transparentOutputs e => "failed to list transparent outputs: " ++ e

def batchNext (cancelled : Bool) (run : ShieldLoop) : ClosurePc :=
  match run.batches with
  | [] => .returned run.result
  | batch :: batches =>
    if cancelled then .returned .cancelled
    else if batch.isEmpty then .shieldBatch { run with batches := batches }
    else .shieldPrice batch { run with batches := batches }

def pricedNext (run : ShieldLoop) (proposalError : Option String) : Priced → ClosurePc
  | .skip => .shieldBatch run
  | .insufficientFunds _ _ =>
    .returned (.failed "insufficient transparent balance to cover shielding fee")
  | .failed e => .returned (.failed ("failed to compute shielding balance: " ++ e))
  | .inputs _ _ =>
    match proposalError with
    | some e => .returned (.failed ("invalid shielding proposal: " ++ e))
    | none => .shieldProve run

def closureNext (cancelled : Bool) : ClosurePc → ClosureAnswer → Option (ClosurePc × Effect)
  | .sendCheck, .go => some (if cancelled then .returned .cancelled else .sendProve, .none)
  | .sendProve, .go => some (.sendCreate, .progress (.proving .send (some 50)))
  | .sendCreate, .create (.error e) =>
    some (.returned (.failed ("failed to build tx: " ++ e)), .none)
  | .sendCreate, .create (.ok (primary, others)) =>
    some (.sendRecheck primary others, .store (primary :: others))
  | .sendRecheck primary others, .go =>
    some (.returned (if cancelled then .cancelled else .proved primary others), .none)
  | .shieldCheck, .go => some (if cancelled then .returned .cancelled else .shieldSetup, .none)
  | .shieldSetup, .setup (.error e) => some (.returned (.failed (setupErrorText e)), .none)
  | .shieldSetup, .setup (.ok inputs) =>
    some (if inputs.isEmpty then .returned (.failed "no transparent funds to shield")
      else .shieldStart ⟨shieldingBatches inputs, none, none⟩, .none)
  | .shieldStart run, .go => some (.shieldBatch run, .progress (.proving .shield (some 30)))
  | .shieldBatch run, .go => some (batchNext cancelled run, .none)
  | .shieldPrice _ _, .price (some e) _ _ =>
    some (.returned (.failed ("failed to load wallet metadata: " ++ e)), .none)
  | .shieldPrice batch run, .price none answers proposalError =>
    (priceBatch batch answers).map fun priced => (pricedNext run proposalError priced, .none)
  | .shieldProve run, .go => some (.shieldCreate run, .progress (.proving .shield (some 60)))
  | .shieldCreate _, .create (.error e) =>
    some (.returned (.failed ("failed to build shielding tx: " ++ e)), .none)
  | .shieldCreate run, .create (.ok (txid, txids)) =>
    some (.shieldLoad (txid :: txids) run, .store (txid :: txids))
  | .shieldLoad [] run, .go => some (.shieldBatch run, .none)
  | .shieldLoad (txid :: txids) run, .load none =>
    some (.shieldEmit txid txids (run.withTx txid), .none)
  | .shieldLoad (_ :: _) _, .load (some e) => some (.returned (.failed e.text), .none)
  | .shieldEmit txid txids run, .go =>
    some (.shieldSend txid txids run, .progress (.broadcasting .shield txid))
  | .shieldSend txid txids run, .broadcast answer queueOk =>
    some (.shieldLoad txids (run.withAnswer answer), .broadcast txid answer queueOk)
  | _, _ => none

/-! ## The job -/

/-- `starting`: the starting call has still to store the entry; `cancelAccepted`: `cancel_job`
returned `true` on an unfinished job. -/
structure Job extends Outbox where
  jobType : JobType
  starting : Bool
  registered : Bool
  progress : JobProgress
  cancelled : Bool
  aborted : Bool
  task : TaskPc
  closure : ClosurePc
  cancelAccepted : Bool
  deriving DecidableEq, Repr

def Job.fresh (t : JobType) : Job where
  toOutbox := .empty
  jobType := t
  starting := true
  registered := false
  progress := .queued t
  cancelled := false
  aborted := false
  task := .check
  closure := .idle
  cancelAccepted := false

/-- Errors of the queue are only logged. -/
def broadcastAndQueue (o : Outbox) (txid : TxId) (answer : SendAnswer) (queueOk : Bool) : Outbox :=
  if (relay answer).isFailed && queueOk then (o.send txid answer).queue txid
  else o.send txid answer

def Job.perform (j : Job) : Effect → Job
  | .none => j
  | .progress p => { j with progress := p }
  | .emit p => { j with progress := p, registered := j.registered && !p.state.isTerminal }
  | .spawn =>
    { j with
      closure := match j.jobType with
        | .send => .sendCheck
        | .shield => .shieldCheck }
  | .store txids => { j with toOutbox := j.toOutbox.store txids }
  | .broadcast txid answer queueOk =>
    { j with toOutbox := broadcastAndQueue j.toOutbox txid answer queueOk }

def Effect.progress? : Effect → Option JobProgress
  | .progress p | .emit p => some p
  | .none | .spawn | .store _ | .broadcast .. => Option.none

def Effect.sends : Effect → List TxId
  | .broadcast txid answer _ => if answer.reached then [txid] else []
  | .none | .progress _ | .emit _ | .spawn | .store _ => []

def Effect.stores : Effect → List TxId
  | .store txids => txids
  | .none | .progress _ | .emit _ | .spawn | .broadcast .. => []

section perform

variable (j : Job) (e : Effect)

@[simp] theorem Job.perform_jobType : (j.perform e).jobType = j.jobType := by
  cases e <;> rfl

@[simp] theorem Job.perform_cancelled : (j.perform e).cancelled = j.cancelled := by
  cases e <;> rfl

@[simp] theorem Job.perform_starting : (j.perform e).starting = j.starting := by
  cases e <;> rfl

theorem Job.registered_of_perform (h : (j.perform e).registered = true) : j.registered = true := by
  cases e <;> simp_all [Job.perform]

@[simp] theorem Job.perform_aborted : (j.perform e).aborted = j.aborted := by
  cases e <;> rfl

@[simp] theorem Job.perform_task : (j.perform e).task = j.task := by
  cases e <;> rfl

@[simp] theorem Job.perform_cancelAccepted : (j.perform e).cancelAccepted = j.cancelAccepted := by
  cases e <;> rfl

@[simp] theorem broadcastAndQueue_sent (o : Outbox) (txid : TxId) (answer : SendAnswer)
    (queueOk : Bool) : (broadcastAndQueue o txid answer queueOk).sent =
      (Effect.broadcast txid answer queueOk).sends ++ o.sent := by
  unfold broadcastAndQueue
  split_ifs <;> cases hr : answer.reached <;> simp [Outbox.queue, Outbox.send, Effect.sends, hr]

@[simp] theorem Job.perform_sent : (j.perform e).sent = e.sends ++ j.sent := by
  cases e with
  | broadcast txid answer queueOk => exact broadcastAndQueue_sent _ _ _ _
  | _ => rfl

@[simp] theorem Job.perform_stored : (j.perform e).stored = e.stores ++ j.stored := by
  cases e with
  | broadcast txid answer queueOk =>
    simp only [Job.perform, broadcastAndQueue]
    split_ifs <;> rfl
  | _ => rfl

@[simp] theorem Job.perform_progress : (j.perform e).progress = e.progress?.getD j.progress := by
  cases e <;> rfl

theorem Job.perform_closure (h : e ≠ .spawn) : (j.perform e).closure = j.closure := by
  cases e <;> first | rfl | exact absurd rfl h

end perform

def Job.cancels (j : Job) : Bool :=
  !j.progress.state.isTerminal && j.progress.canCancel && j.registered

def Job.cancelEntry (j : Job) : Job :=
  { j with
    registered := false
    progress := .cancelled j.progress.jobType
    cancelled := true
    aborted := true
    cancelAccepted := true }

/-- `cancel_job`, with its answer. -/
def cancelJob (j : Job) : Bool × Job :=
  if j.progress.state.isTerminal then (true, j)
  else if j.cancels then (true, j.cancelEntry)
  else (false, j)

/-- Or it has not been polled yet. -/
def TaskPc.atAwait : TaskPc → Bool
  | .check | .await | .broadcast .. => true
  | _ => false

def TaskPc.suspended : TaskPc → Bool
  | .await | .broadcast .. => true
  | _ => false

def ClosurePc.result? : ClosurePc → Option ClosureResult
  | .returned result => some result
  | _ => none

inductive Action
  | register
  | cancel
  | abort
  | task (answer : TaskAnswer)
  | closure (answer : ClosureAnswer)
  deriving DecidableEq, Repr

def step (j : Job) : Action → Option Job
  | .register => if j.starting then some { j with starting := false, registered := true } else none
  | .cancel => some (cancelJob j).2
  | .abort => if j.aborted && j.task.atAwait then some { j with task := .ended } else none
  | .task answer =>
    if j.aborted && j.task.suspended then none
    else
      (taskNext j.jobType j.cancelled j.closure.result? j.task answer).map fun next =>
        ({ j with task := next.1 } : Job).perform next.2
  | .closure answer =>
    (closureNext j.cancelled j.closure answer).map fun next =>
      ({ j with closure := next.1 } : Job).perform next.2

def jobSystem (t : JobType) : System Job Action where
  init j := j = Job.fresh t
  step := step

end ZbagJob
