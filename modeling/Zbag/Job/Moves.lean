import Zbag.Job.Service

/-!
# Jobs — the moves of the task and of the closure

The control flow of `taskNext` and `closureNext` as relations, one constructor for each way a step
can go; the invariants of a job are proved by cases on them.

* `TaskMove`, `taskNext_move`;
* `ClosureMove`, `closureNext_move`;
* `step_task`, `step_closure`: a step of either is such a move with its effect;
* `JobMove`, `step_move`: what a step of the job is.
-/

namespace ZbagJob

open ZbagTx Transition

/-- Where it is, what it finds, where it goes and what it does. -/
inductive TaskMove (t : JobType) (cancelled : Bool) (result : Option ClosureResult) :
    TaskPc → TaskAnswer → TaskPc → Effect → Prop
  | cancelled : cancelled = true →
      TaskMove t cancelled result .check .go .ended (.emit (.cancelled t))
  | checked : cancelled = false → TaskMove t cancelled result .check .go .start .none
  | start : TaskMove t cancelled result .start .go .openDb (.emit (.proving t (some 10)))
  | noDb (e : String) : TaskMove t cancelled result .openDb (.openDb (some e)) .ended
      (.emit (.failed t ("failed to open wallet: " ++ e) none))
  | spawn : TaskMove t cancelled result .openDb (.openDb none) .await .spawn
  | failed (e : String) : result = some (.failed e) →
      TaskMove t cancelled result .await .go .ended
        (.emit (if e = "cancelled" then .cancelled t else .failed t e none))
  | proved (primary : TxId) (others : List TxId) : result = some (.proved primary others) →
      TaskMove t cancelled result .await .go (.emit primary others) .none
  | shielded (primary : TxId) (error : Option String) : result = some (.shielded primary error) →
      TaskMove t cancelled result .await .go (.finish primary error) .none
  | emit (primary : TxId) (others : List TxId) :
      TaskMove t cancelled result (.emit primary others) .go
        (.load primary (primary :: others) none) (.emit (.broadcasting t primary))
  | sentAll (primary : TxId) (error : Option String) :
      TaskMove t cancelled result (.load primary [] error) .go (.finish primary error) .none
  | loaded (primary txid : TxId) (left : List TxId) (error : Option String) :
      TaskMove t cancelled result (.load primary (txid :: left) error) (.load none)
        (.broadcast primary txid left error) .none
  | loadFailed (primary txid : TxId) (left : List TxId) (error : Option String) (e : LoadError) :
      TaskMove t cancelled result (.load primary (txid :: left) error) (.load (some e))
        (.finish primary (some e.text)) .none
  | broadcast (primary txid : TxId) (left : List TxId) (error : Option String)
      (answer : SendAnswer) (queueOk : Bool) :
      TaskMove t cancelled result (.broadcast primary txid left error) (.broadcast answer queueOk)
        (.load primary left (broadcastErrorAfter answer error)) (.broadcast txid answer queueOk)
  | finishFailed (primary : TxId) (e : String) :
      TaskMove t cancelled result (.finish primary (some e)) .go .ended
        (.emit (.failed t e (some primary)))
  | completed (primary : TxId) :
      TaskMove t cancelled result (.finish primary none) .go .ended (.emit (.completed t primary))

theorem taskNext_move {t : JobType} {cancelled : Bool} {result : Option ClosureResult}
    {pc pc' : TaskPc} {answer : TaskAnswer} {e : Effect}
    (h : taskNext t cancelled result pc answer = some (pc', e)) :
    TaskMove t cancelled result pc answer pc' e := by
  unfold taskNext at h
  split at h
  · split_ifs at h with hc <;> cases h
    · exact .cancelled hc
    · exact .checked (by simpa using hc)
  · cases h; exact .start
  · cases h; exact .noDb _
  · cases h; exact .spawn
  · split at h <;> cases h
    · exact .failed _ rfl
    · exact .proved _ _ rfl
    · exact .shielded _ _ rfl
  · cases h; exact .emit _ _
  · cases h; exact .sentAll _ _
  · cases h; exact .loaded _ _ _ _
  · cases h; exact .loadFailed _ _ _ _ _
  · cases h; exact .broadcast _ _ _ _ _ _
  · cases h; exact .finishFailed _ _
  · cases h; exact .completed _
  · cases h

/-- A step of the blocking closure. -/
inductive ClosureMove (cancelled : Bool) :
    ClosurePc → ClosureAnswer → ClosurePc → Effect → Prop
  | sendCancelled : cancelled = true →
      ClosureMove cancelled .sendCheck .go (.returned .cancelled) .none
  | sendGo : cancelled = false → ClosureMove cancelled .sendCheck .go .sendProve .none
  | sendProve :
      ClosureMove cancelled .sendProve .go .sendCreate (.progress (.proving .send (some 50)))
  | sendFailed (e : String) : ClosureMove cancelled .sendCreate (.create (.error e))
      (.returned (.failed ("failed to build tx: " ++ e))) .none
  | sendStore (primary : TxId) (others : List TxId) :
      ClosureMove cancelled .sendCreate (.create (.ok (primary, others)))
        (.sendRecheck primary others) (.store (primary :: others))
  | recheckCancelled (primary : TxId) (others : List TxId) : cancelled = true →
      ClosureMove cancelled (.sendRecheck primary others) .go (.returned .cancelled) .none
  | proved (primary : TxId) (others : List TxId) : cancelled = false →
      ClosureMove cancelled (.sendRecheck primary others) .go (.returned (.proved primary others))
        .none
  | shieldCancelled : cancelled = true →
      ClosureMove cancelled .shieldCheck .go (.returned .cancelled) .none
  | shieldGo : cancelled = false → ClosureMove cancelled .shieldCheck .go .shieldSetup .none
  | setupFailed (e : String) (answer : Except SetupError (List OutPoint)) :
      ClosureMove cancelled .shieldSetup (.setup answer) (.returned (.failed e)) .none
  | setup (inputs : List OutPoint) :
      ClosureMove cancelled .shieldSetup (.setup (.ok inputs))
        (.shieldStart ⟨shieldingBatches inputs, none, none⟩) .none
  | shieldStart (run : ShieldLoop) :
      ClosureMove cancelled (.shieldStart run) .go (.shieldBatch run)
        (.progress (.proving .shield (some 30)))
  | loopEnd (run : ShieldLoop) : run.batches = [] →
      ClosureMove cancelled (.shieldBatch run) .go (.returned run.result) .none
  | batchCancelled (run : ShieldLoop) : cancelled = true →
      ClosureMove cancelled (.shieldBatch run) .go (.returned .cancelled) .none
  | emptyBatch (run : ShieldLoop) (batches : List (List OutPoint)) : cancelled = false →
      ClosureMove cancelled (.shieldBatch run) .go (.shieldBatch { run with batches := batches })
        .none
  | batch (run : ShieldLoop) (batch : List OutPoint) (batches : List (List OutPoint)) :
      cancelled = false → batch ≠ [] →
      ClosureMove cancelled (.shieldBatch run) .go
        (.shieldPrice batch { run with batches := batches }) .none
  | priceFailed (batch : List OutPoint) (run : ShieldLoop) (e : String)
      (metaError proposalError : Option String) (answers : List StrategyAnswer) :
      priceFails batch metaError answers proposalError = true →
      ClosureMove cancelled (.shieldPrice batch run) (.price metaError answers proposalError)
        (.returned (.failed e)) .none
  | priceSkip (batch : List OutPoint) (run : ShieldLoop) (proposalError : Option String)
      (answers : List StrategyAnswer) :
      ClosureMove cancelled (.shieldPrice batch run) (.price none answers proposalError)
        (.shieldBatch run) .none
  | priced (batch : List OutPoint) (run : ShieldLoop) (answers : List StrategyAnswer) :
      ClosureMove cancelled (.shieldPrice batch run) (.price none answers none) (.shieldProve run)
        .none
  | shieldProve (run : ShieldLoop) :
      ClosureMove cancelled (.shieldProve run) .go (.shieldCreate run)
        (.progress (.proving .shield (some 60)))
  | createFailed (run : ShieldLoop) (e : String) :
      ClosureMove cancelled (.shieldCreate run) (.create (.error e))
        (.returned (.failed ("failed to build shielding tx: " ++ e))) .none
  | stored (run : ShieldLoop) (txid : TxId) (txids : List TxId) :
      ClosureMove cancelled (.shieldCreate run) (.create (.ok (txid, txids)))
        (.shieldLoad (txid :: txids) run) (.store (txid :: txids))
  | batchDone (run : ShieldLoop) :
      ClosureMove cancelled (.shieldLoad [] run) .go (.shieldBatch run) .none
  | loaded (run : ShieldLoop) (txid : TxId) (txids : List TxId) :
      ClosureMove cancelled (.shieldLoad (txid :: txids) run) (.load none)
        (.shieldEmit txid txids (run.withTx txid)) .none
  | loadFailed (run : ShieldLoop) (txid : TxId) (txids : List TxId) (e : LoadError) :
      ClosureMove cancelled (.shieldLoad (txid :: txids) run) (.load (some e))
        (.returned (.failed e.text)) .none
  | shieldEmit (run : ShieldLoop) (txid : TxId) (txids : List TxId) :
      ClosureMove cancelled (.shieldEmit txid txids run) .go (.shieldSend txid txids run)
        (.progress (.broadcasting .shield txid))
  | shieldSend (run : ShieldLoop) (txid : TxId) (txids : List TxId) (answer : SendAnswer)
      (queueOk : Bool) :
      ClosureMove cancelled (.shieldSend txid txids run) (.broadcast answer queueOk)
        (.shieldLoad txids (run.withAnswer answer)) (.broadcast txid answer queueOk)

theorem batchNext_move (cancelled : Bool) (run : ShieldLoop) :
    ClosureMove cancelled (.shieldBatch run) .go (batchNext cancelled run) .none := by
  unfold batchNext
  split
  · rename_i hb
    exact .loopEnd run hb
  · split_ifs with hc he
    · exact .batchCancelled run hc
    · exact .emptyBatch run _ (by simpa using hc)
    · exact .batch run _ _ (by simpa using hc) (by simpa using he)

theorem pricedNext_move (cancelled : Bool) {batch : List OutPoint} (run : ShieldLoop)
    {answers : List StrategyAnswer} (proposalError : Option String) {priced : Priced}
    (h : priceBatch batch answers = some priced) :
    ClosureMove cancelled (.shieldPrice batch run) (.price none answers proposalError)
      (pricedNext run proposalError priced) .none := by
  cases priced with
  | skip => exact .priceSkip ..
  | insufficientFunds available required | failed e =>
    exact .priceFailed _ _ _ _ _ _ (by simp [priceFails, h])
  | inputs selection fee =>
    cases proposalError with
    | none => exact .priced ..
    | some e => exact .priceFailed _ _ _ _ _ _ (by simp [priceFails, h])

theorem closureNext_move {cancelled : Bool} {pc pc' : ClosurePc} {answer : ClosureAnswer}
    {e : Effect} (h : closureNext cancelled pc answer = some (pc', e)) :
    ClosureMove cancelled pc answer pc' e := by
  unfold closureNext at h
  split at h
  · cases hc : cancelled <;> subst hc <;> cases h
    · exact .sendGo rfl
    · exact .sendCancelled rfl
  · cases h; exact .sendProve
  · cases h; exact .sendFailed _
  · cases h; exact .sendStore _ _
  · cases hc : cancelled <;> subst hc <;> cases h
    · exact .proved _ _ rfl
    · exact .recheckCancelled _ _ rfl
  · cases hc : cancelled <;> subst hc <;> cases h
    · exact .shieldGo rfl
    · exact .shieldCancelled rfl
  · cases h; exact .setupFailed _ _
  · split_ifs at h <;> cases h
    · exact .setupFailed _ _
    · exact .setup _
  · cases h; exact .shieldStart _
  · cases h; exact batchNext_move _ _
  · cases h; exact .priceFailed _ _ _ _ _ _ (by simp [priceFails])
  · obtain ⟨priced, hpriced, heq⟩ := Option.map_eq_some_iff.mp h
    cases heq
    exact pricedNext_move _ _ _ hpriced
  · cases h; exact .shieldProve _
  · cases h; exact .createFailed _ _
  · cases h; exact .stored _ _ _
  · cases h; exact .batchDone _
  · cases h; exact .loaded _ _ _
  · cases h; exact .loadFailed _ _ _ _
  · cases h; exact .shieldEmit _ _ _
  · cases h; exact .shieldSend _ _ _ _ _
  · cases h

theorem step_task {j k : Job} {answer : TaskAnswer} (h : step j (.task answer) = some k) :
    ∃ pc e, TaskMove j.jobType j.cancelled j.closure.result? j.task answer pc e ∧
      (j.aborted && j.task.suspended) = false ∧ k = ({ j with task := pc } : Job).perform e := by
  rw [step] at h
  split_ifs at h with hab
  obtain ⟨⟨pc, e⟩, hnext, rfl⟩ := Option.map_eq_some_iff.mp h
  exact ⟨pc, e, taskNext_move hnext, by simpa using hab, rfl⟩

theorem step_closure {j k : Job} {answer : ClosureAnswer}
    (h : step j (.closure answer) = some k) :
    ∃ pc e, ClosureMove j.cancelled j.closure answer pc e ∧
      k = ({ j with closure := pc } : Job).perform e := by
  obtain ⟨⟨pc, e⟩, hnext, rfl⟩ := Option.map_eq_some_iff.mp h
  exact ⟨pc, e, closureNext_move hnext, rfl⟩

theorem cancelJob_of_cancels {j : Job} (h : j.cancels = true) :
    (cancelJob j).2 = j.cancelEntry := by
  have hterm : j.progress.state.isTerminal = false := by
    simp only [Job.cancels, Bool.and_eq_true, Bool.not_eq_true'] at h
    exact h.1.1
  simp [cancelJob, hterm, h]

theorem cancelJob_of_not_cancels {j : Job} (h : j.cancels = false) : (cancelJob j).2 = j := by
  by_cases hterm : j.progress.state.isTerminal = true
  · simp [cancelJob, hterm]
  · simp [cancelJob, hterm, h]

/-- A step of a job. -/
inductive JobMove (j : Job) : Action → Job → Prop
  | register (h : j.starting = true) :
      JobMove j .register { j with starting := false, registered := true }
  | kept (h : j.cancels = false) : JobMove j .cancel j
  | cancelled (h : j.cancels = true) : JobMove j .cancel j.cancelEntry
  | abort (h : j.aborted = true) : JobMove j .abort { j with task := .ended }
  | task (answer : TaskAnswer) {k : Job} (h : step j (.task answer) = some k) :
      JobMove j (.task answer) k
  | closure (answer : ClosureAnswer) {k : Job} (h : step j (.closure answer) = some k) :
      JobMove j (.closure answer) k

theorem step_move {j k : Job} {a : Action} (h : step j a = some k) : JobMove j a k := by
  cases a with
  | register =>
    obtain ⟨hs, h⟩ := Option.ite_none_right_eq_some.mp h
    cases h
    exact .register hs
  | cancel =>
    rw [step, Option.some.injEq] at h
    subst h
    cases hcan : j.cancels with
    | false =>
      rw [cancelJob_of_not_cancels hcan]
      exact .kept hcan
    | true =>
      rw [cancelJob_of_cancels hcan]
      exact .cancelled hcan
  | abort =>
    obtain ⟨hab, h⟩ := Option.ite_none_right_eq_some.mp h
    cases h
    exact .abort (Bool.and_eq_true_iff.mp hab).1
  | task answer => exact .task answer h
  | closure answer => exact .closure answer h

end ZbagJob
