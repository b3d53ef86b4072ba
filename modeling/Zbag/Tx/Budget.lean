import Mathlib.Order.Nat
import Zbag.Tx.Retry

/-!
# Transactions — the budget of a queued transaction

Each failed send of a retry is counted in the entry, and the policy that reads the count is applied
when the entry is written and again when it is scanned. A failover starts the streak of transport
failures anew, so that a call has no second one.

* `retryBroadcast_spec`: what a call can do.
-/

namespace ZbagRetry

open ZbagTx ZbagQueue ZbagWallet Transition

/-! ## The policy -/

theorem applyRetryPolicy_some (retryable : Bool) (n : ℕ) (errorClass : BroadcastErrorClass)
    (reason : Option String) :
    (applyRetryPolicy retryable n (some errorClass) reason).1 =
      (retryable && isRetryableBroadcastErrorClass errorClass &&
        (retryBudgetTerminalReason errorClass n).isNone) := by
  cases hclass : isRetryableBroadcastErrorClass errorClass with
  | false => simp [applyRetryPolicy, hclass]
  | true =>
    cases retryable with
    | false => simp [applyRetryPolicy, hclass]
    | true =>
      cases hreason : retryBudgetTerminalReason errorClass n <;>
        simp [applyRetryPolicy, hclass, hreason]

variable {n : ℕ} {message : String}

theorem lt_of_budget {errorClass : BroadcastErrorClass}
    (h : retryBudgetTerminalReason errorClass n = none) : n < maxTotalBroadcastRetryAttempts := by
  unfold retryBudgetTerminalReason at h
  split_ifs at h with _ hmax
  omega

theorem budget_unknown (h : maxUnknownBroadcastRetryAttempts ≤ n) :
    (retryBudgetTerminalReason .unknown n).isNone = false := by
  unfold retryBudgetTerminalReason
  rw [if_pos ⟨rfl, h⟩]
  rfl

theorem attemptLeft_eq (message : String) (n : ℕ) :
    attemptLeft message n =
      (isRetryableBroadcastErrorClass (classifyBroadcastErrorMessage message) &&
        (retryBudgetTerminalReason (classifyBroadcastErrorMessage message) n).isNone) := by
  unfold attemptLeft
  rw [applyRetryPolicy_some, Bool.and_self]

theorem lt_of_attemptLeft (h : attemptLeft message n = true) :
    n < maxTotalBroadcastRetryAttempts := by
  rw [attemptLeft_eq, Bool.and_eq_true, Option.isNone_iff_eq_none] at h
  exact lt_of_budget h.2

theorem attemptLeft_unknown (hclass : classifyBroadcastErrorMessage message = .unknown)
    (hn : maxUnknownBroadcastRetryAttempts ≤ n) : attemptLeft message n = false := by
  rw [attemptLeft_eq, hclass, budget_unknown hn, Bool.and_false]

def sendable (m : QueuedBroadcastMeta) : Bool :=
  (applyRetryPolicy m.retryable m.attemptCount
    (m.lastErrorClass <|> m.lastError.map classifyBroadcastErrorMessage) m.terminalReason).1

theorem lt_of_sendable {m : QueuedBroadcastMeta} (h : sendable m = true)
    (hclass : m.attemptCount = 0 ∨ m.lastErrorClass.isSome = true) :
    m.attemptCount < maxTotalBroadcastRetryAttempts := by
  obtain hzero | hsome := hclass
  · rw [hzero]
    decide
  · obtain ⟨errorClass, hc⟩ := Option.isSome_iff_exists.mp hsome
    have hpolicy : sendable m =
        (applyRetryPolicy m.retryable m.attemptCount (some errorClass) m.terminalReason).1 := by
      rw [sendable, hc]
      rfl
    rw [hpolicy, applyRetryPolicy_some, Bool.and_eq_true, Option.isNone_iff_eq_none] at h
    exact lt_of_budget h.2

theorem sendable_updatedMeta (createdAt now : Time) (delayMs : ℤ)
    (existing : Option QueuedBroadcastMeta) (message : String) (n streak : ℕ) :
    sendable (updatedMeta createdAt now delayMs existing message (attemptLeft message n) n streak) =
      attemptLeft message n := by
  have hretryable : (updatedMeta createdAt now delayMs existing message (attemptLeft message n) n
      streak).retryable = attemptLeft message n := by
    show (applyRetryPolicy _ _ _ _).1 = _
    rw [applyRetryPolicy_some, Bool.and_assoc, ← attemptLeft_eq, Bool.and_self]
  unfold sendable
  rw [hretryable]
  show (applyRetryPolicy _ _ (some _) _).1 = _
  rw [applyRetryPolicy_some, Bool.and_assoc]
  show (attemptLeft message n && (isRetryableBroadcastErrorClass _ &&
    (retryBudgetTerminalReason _ n).isNone)) = _
  rw [← attemptLeft_eq, Bool.and_self]

/-! ## The loop -/

def failures (sends : List Send) : List String := sends.filterMap Send.failure?

def LoopEnd.failure : LoopEnd → List String
  | .succeeded => []
  | .failed message _ => [message]

/-- **What the loop can do**, from an entry with `n` failed attempts. -/
structure LoopSpec (n : ℕ) (l : Loop) (outcome : LoopEnd) : Prop where
  sends : l.sends.length ≤ 2
  failovers : l.failovers.length ≤ 1
  count : l.attemptCount = n + (failures l.sends).length
  earlier : ∃ before, failures l.sends = before ++ outcome.failure ∧
    ∀ message ∈ before, classifyBroadcastErrorMessage message = .transientTransport
  fits : n < maxTotalBroadcastRetryAttempts → l.attemptCount ≤ maxTotalBroadcastRetryAttempts
  retryable : ∀ message retryable, outcome = .failed message retryable →
    retryable = attemptLeft message l.attemptCount

theorem saturatingAdd_one (h : n < 2 ^ 32 - 1) : saturatingAdd n 1 = n + 1 := by
  unfold saturatingAdd
  omega

section Loop

variable {site : RetrySite} {bytes : List ℕ} {rounds : ℕ → Round} {fuel i : ℕ}

theorem failover_of_streak_zero (round : Round) (message : String) {l : Loop}
    (h : l.transportFailureStreak = 0) : failover site round message l = none := by
  unfold failover
  rw [h]
  apply if_neg
  rintro ⟨hclass, hdue⟩
  rw [nextStreak, if_pos hclass] at hdue
  exact absurd hdue (by decide)

theorem failover_class {round : Round} {message : String} {l : Loop} {r : Server × List Server}
    (h : failover site round message l = some r) :
    classifyBroadcastErrorMessage message = .transientTransport := by
  unfold failover at h
  split_ifs at h with hdue
  exact hdue.1

theorem retryLoop_of_streak_zero {l l' : Loop} {outcome : LoopEnd}
    (hstreak : l.transportFailureStreak = 0) (hn : l.attemptCount < 2 ^ 32 - 1)
    (h : retryLoop site bytes rounds fuel i l = some (l', outcome)) :
    ∃ send, l'.sends = l.sends ++ [send] ∧ l'.failovers = l.failovers ∧
      l'.attemptCount = l.attemptCount + send.failure?.toList.length ∧
      send.failure?.toList = outcome.failure ∧
      ∀ message retryable, outcome = .failed message retryable →
        retryable = attemptLeft message l'.attemptCount := by
  cases fuel with
  | zero => cases h
  | succ fuel =>
    simp only [retryLoop] at h
    refine ⟨⟨l.grpcTarget, bytes, (rounds i).answer⟩, ?_⟩
    split at h
    next hsend =>
      cases h
      rw [hsend]
      exact ⟨rfl, rfl, rfl, rfl, nofun⟩
    next message hsend =>
      rw [failover_of_streak_zero _ _ (by exact hstreak)] at h
      cases h
      rw [hsend]
      refine ⟨rfl, rfl, saturatingAdd_one hn, rfl, ?_⟩
      intro _ _ he
      cases he
      rfl

theorem retryLoop_spec {l l' : Loop} {outcome : LoopEnd} (hsends : l.sends = [])
    (hfailovers : l.failovers = []) (hn : l.attemptCount < maxTotalBroadcastRetryAttempts)
    (h : retryLoop site bytes rounds fuel i l = some (l', outcome)) :
    LoopSpec l.attemptCount l' outcome := by
  have hmax : l.attemptCount + 1 < 2 ^ 32 - 1 := by
    unfold maxTotalBroadcastRetryAttempts at hn
    omega
  cases fuel with
  | zero => cases h
  | succ fuel =>
    simp only [retryLoop, hsends, hfailovers, List.nil_append] at h
    split at h
    next hsend =>
      cases h
      have hnone : failures [⟨l.grpcTarget, bytes, (rounds i).answer⟩] = [] := by
        rw [failures, List.filterMap_cons_none hsend, List.filterMap_nil]
      refine ⟨Nat.le_succ 1, Nat.zero_le _, ?_, ⟨[], ?_, nofun⟩,
        fun h => h.le, ?_⟩
      · rw [hnone]
        rfl
      · exact hnone
      · intro _ _ he
        cases he
    next message hsend =>
      have hone : failures [⟨l.grpcTarget, bytes, (rounds i).answer⟩] = [message] := by
        rw [failures, List.filterMap_cons_some hsend, List.filterMap_nil]
      have hadd := saturatingAdd_one (Nat.lt_of_succ_lt hmax)
      split at h
      next server servers hfail =>
        have hclass := failover_class hfail
        split_ifs at h with hleft
        · -- the only way to a second round
          rw [hadd] at hleft h
          have hlt := lt_of_attemptLeft hleft
          obtain ⟨send, hs, hf, hcount, hend, hretry⟩ := retryLoop_of_streak_zero rfl hmax h
          have htwo : failures l'.sends = [message] ++ outcome.failure := by
            rw [hs, failures, List.filterMap_append]
            change failures [_] ++ _ = _
            rw [hone, ← hend]
            cases hsend' : send.failure? <;> simp [hsend']
          have hlen : outcome.failure.length ≤ 1 := by
            cases outcome with
            | succeeded => exact Nat.zero_le _
            | failed => exact le_rfl
          have hcount' : l'.attemptCount = l.attemptCount + 1 + outcome.failure.length := by
            rw [hcount, hend]
          refine ⟨by rw [hs]; exact le_rfl, by rw [hf]; exact le_rfl, ?_, ⟨[message], htwo, ?_⟩, ?_,
            hretry⟩
          · rw [htwo, hcount', List.length_append, List.length_singleton, Nat.add_assoc]
          · intro m hm
            rw [List.mem_singleton.mp hm]
            exact hclass
          · intro _
            omega
        · cases h
          refine ⟨Nat.le_succ 1, le_rfl, ?_, ⟨[], hone, nofun⟩, ?_, ?_⟩
          · rw [hone]
            exact hadd
          · intro _
            show saturatingAdd _ 1 ≤ _
            rw [hadd]
            exact hn
          · intro _ _ he
            cases he
            rfl
      next hfail =>
        cases h
        refine ⟨Nat.le_succ 1, Nat.zero_le _, ?_, ⟨[], hone, nofun⟩, ?_, ?_⟩
        · rw [hone]
          exact hadd
        · intro _
          show saturatingAdd _ 1 ≤ _
          rw [hadd]
          exact hn
        · intro _ _ he
          cases he
          rfl

/-- **Two rounds are enough.** -/
theorem retryLoop_isSome (site : RetrySite) (bytes : List ℕ) (rounds : ℕ → Round) (i : ℕ)
    (l : Loop) (hfuel : 2 ≤ fuel) : (retryLoop site bytes rounds fuel i l).isSome = true := by
  have hlast : ∀ (fuel i : ℕ) (l : Loop), l.transportFailureStreak = 0 →
      (retryLoop site bytes rounds (fuel + 1) i l).isSome = true := by
    intro fuel i l hstreak
    simp only [retryLoop]
    split
    · rfl
    · rw [failover_of_streak_zero _ _ (by exact hstreak)]
      rfl
  obtain ⟨more, rfl⟩ := Nat.exists_eq_add_of_le' hfuel
  rw [retryLoop]
  dsimp only
  split
  · rfl
  · split
    · split_ifs
      · apply hlast
        rfl
      · rfl
    · rfl

end Loop

/-! ## A call -/

/-- **What a call can do**: take files away, or send one that may be sent and keep the outcome. -/
inductive CallSpec (txid : TxId) (s : RetryState) (r : RetryReport) : Prop
  | refused (hsends : r.sends = []) (hfailovers : r.failovers = [])
      (hthins : Directory.Thins s.dir r.state.dir)
  | sent (m : QueuedBroadcastMeta) (l : Loop) (outcome : LoopEnd)
      (hstored : storedEntry s.dir txid = some m) (hsendable : sendable m = true)
      (hsends : r.sends = l.sends) (hfailovers : r.failovers = l.failovers)
      (hloop : m.attemptCount < maxTotalBroadcastRetryAttempts →
        LoopSpec m.attemptCount l outcome)
      (hkept : ∀ m', storedEntry r.state.dir txid = some m' →
        ∃ message retryable, outcome = .failed message retryable ∧
          m'.attemptCount = l.attemptCount ∧
          m'.lastErrorClass = some (classifyBroadcastErrorMessage message) ∧
          (retryable = attemptLeft message l.attemptCount →
            sendable m' = attemptLeft message l.attemptCount))

theorem storedEntry_settle {env : RetryEnv} {txid : TxId} {d : QueueDir} {l : Loop}
    {outcome : LoopEnd} {m' : QueuedBroadcastMeta}
    (h : storedEntry (settle env txid d l outcome) txid = some m') :
    ∃ message retryable, outcome = .failed message retryable ∧
      m'.attemptCount = l.attemptCount ∧
      m'.lastErrorClass = some (classifyBroadcastErrorMessage message) ∧
      (retryable = attemptLeft message l.attemptCount →
        sendable m' = attemptLeft message l.attemptCount) := by
  cases outcome with
  | succeeded =>
    rw [settle, storedEntry_delete] at h
    cases h
  | failed message retryable =>
    obtain ⟨⟨id, hfile⟩, -⟩ := storedEntry_eq_some.mp h
    rw [settle, Directory.file_create, Option.some.injEq] at hfile
    cases hfile
    refine ⟨message, retryable, rfl, rfl, rfl, ?_⟩
    rintro rfl
    exact sendable_updatedMeta ..

theorem retryBroadcast_spec {w : WalletId} {env : RetryEnv} {txid : TxId} {fuel : ℕ}
    {s : RetryState} {r : RetryReport} (h : retryBroadcast w env txid fuel s = some r) :
    CallSpec txid s r := by
  unfold retryBroadcast at h
  dsimp only at h
  split at h
  next e hchecks =>
    cases h
    exact .refused rfl rfl (thins_scan _ _)
  next accountId entry bytes hchecks =>
    obtain ⟨-, -, hentry, -⟩ := retryChecks_eq_ok.mp hchecks
    obtain ⟨hlookup, hretryable⟩ := lookupEntry_eq_ok.mp hentry
    rw [lookup_scan] at hlookup
    obtain ⟨m, hlive, rfl⟩ := Option.map_eq_some_iff.mp hlookup
    obtain ⟨⟨l, outcome⟩, hloop, rfl⟩ := Option.map_eq_some_iff.mp h
    refine .sent m l outcome (Option.filter_eq_some_iff.mp hlive).1 hretryable rfl rfl
      (fun hn => retryLoop_spec rfl rfl hn hloop) ?_
    intro m' hm'
    -- after the outcome is kept, files are only taken away
    apply storedEntry_settle
    apply storedEntry_of_thins (thins_scan (env.clock 3) _)
    dsimp only at hm'
    split_ifs at hm'
    · exact storedEntry_of_thins (thins_list _ _ env.db _ _ _) hm'
    · exact hm'

/-! ## Sequences of calls -/

structure History where
  state : RetryState
  calls : List (List Send × List Server)

def History.sends (h : History) : List Send := h.calls.flatMap Prod.fst

structure RetryCall where
  env : RetryEnv
  fuel : ℕ

def retryStep (w : WalletId) (txid : TxId) (h : History) (call : RetryCall) : Option History :=
  (retryBroadcast w call.env txid call.fuel h.state).map fun r =>
    ⟨r.state, h.calls ++ [(r.sends, r.failovers)]⟩

def QueueCall.files (c : QueueCall) (createdAtMs : ℤ) (d : QueueDir) : QueueDir :=
  (d.create (.bin c.txid) (.tx c.tx)).create (.json c.txid) (.json (c.entry createdAtMs))

/-- **Retries of a transaction** that `queue_broadcast` has queued. -/
def retrySystem (w : WalletId) (txid : TxId) : System History RetryCall where
  init h := h.calls = [] ∧ ∃ bytes lastError lastErrorClass retryable delayMs createdAtMs d,
    h.state.dir = QueueCall.files
      (queueBroadcast w txid bytes lastError lastErrorClass retryable delayMs) createdAtMs d
  step := retryStep w txid

/-- The entry counts the failed sends; an unknown failure from the third on closes it. -/
structure Counted (txid : TxId) (h : History) : Prop where
  calls : ∀ call ∈ h.calls, call.1.length ≤ 2 ∧ call.2.length ≤ 1
  total : (failures h.sends).length ≤ maxTotalBroadcastRetryAttempts
  counted : ∀ m, storedEntry h.state.dir txid = some m →
    m.attemptCount = (failures h.sends).length
  classed : ∀ m, storedEntry h.state.dir txid = some m →
    m.attemptCount = 0 ∨ m.lastErrorClass.isSome = true
  unknown : ∀ n message, (failures h.sends)[n]? = some message → 2 ≤ n →
    classifyBroadcastErrorMessage message = .unknown →
      ∀ m, storedEntry h.state.dir txid = some m → sendable m = false

variable {w : WalletId} {txid : TxId}

variable {h : History}

theorem counted_init (hi : (retrySystem w txid).init h) : Counted txid h := by
  obtain ⟨hcalls, bytes, lastError, lastErrorClass, retryable, delayMs, createdAtMs, d, hdir⟩ := hi
  have hsends : h.sends = [] := by rw [History.sends, hcalls]; rfl
  have hzero : ∀ m, storedEntry h.state.dir txid = some m → m.attemptCount = 0 := by
    intro m hm
    obtain ⟨⟨id, hfile⟩, -⟩ := storedEntry_eq_some.mp hm
    rw [hdir, QueueCall.files, show QueueFile.json txid = .json (queueBroadcast w txid bytes
      lastError lastErrorClass retryable delayMs).txid from rfl, Directory.file_create] at hfile
    cases hfile
    rfl
  exact
    { calls := by rw [hcalls]; exact nofun
      total := by rw [hsends]; exact Nat.zero_le _
      counted := fun m hm => by rw [hzero m hm, hsends]; rfl
      classed := fun m hm => .inl (hzero m hm)
      unknown := fun n message hn => by rw [hsends] at hn; cases hn }

theorem failures_append (sends sends' : List Send) :
    failures (sends ++ sends') = failures sends ++ failures sends' :=
  List.filterMap_append

theorem History.sends_snoc (state : RetryState) (calls : List (List Send × List Server))
    (call : List Send × List Server) :
    (History.mk state (calls ++ [call])).sends = calls.flatMap Prod.fst ++ call.1 := by
  simp [History.sends]

theorem unknown_is_last {old new before : List String} {outcome : LoopEnd}
    (hnew : new = before ++ outcome.failure)
    (hbefore : ∀ message ∈ before, classifyBroadcastErrorMessage message = .transientTransport)
    (hn : (old ++ new)[n]? = some message)
    (hclass : classifyBroadcastErrorMessage message = .unknown) :
    old[n]? = some message ∨ outcome.failure = [message] ∧ n + 1 = (old ++ new).length := by
  by_cases hlt : n < old.length
  · rw [List.getElem?_append_left hlt] at hn
    exact .inl hn
  · right
    rw [List.getElem?_append_right (not_lt.mp hlt), hnew] at hn
    by_cases hb : n - old.length < before.length
    · rw [List.getElem?_append_left hb] at hn
      have htransport := hbefore message (List.mem_of_getElem? hn)
      rw [hclass] at htransport
      cases htransport
    · rw [List.getElem?_append_right (not_lt.mp hb)] at hn
      cases outcome with
      | succeeded => cases hn
      | failed message' retryable =>
        have hidx : n - old.length - before.length = 0 := by
          by_contra hne
          rw [LoopEnd.failure, List.getElem?_eq_none (by
            rw [List.length_singleton]
            omega)] at hn
          cases hn
        rw [hidx] at hn
        cases hn
        refine ⟨rfl, ?_⟩
        rw [hnew, List.length_append, List.length_append]
        show n + 1 = old.length + (before.length + 1)
        omega

theorem counted_step {h' : History} {call : RetryCall} (hi : Counted txid h)
    (hst : retryStep w txid h call = some h') : Counted txid h' := by
  obtain ⟨r, hr, rfl⟩ := Option.map_eq_some_iff.mp hst
  cases retryBroadcast_spec hr with
  | refused hsends hfailovers hthins =>
    have hsame : (History.mk r.state (h.calls ++ [(r.sends, r.failovers)])).sends = h.sends := by
      rw [History.sends_snoc, hsends, List.append_nil]
      rfl
    constructor
    · intro c hc
      obtain hold | hnew := List.mem_append.mp hc
      · exact hi.calls c hold
      · rw [List.mem_singleton.mp hnew, hsends, hfailovers]
        exact ⟨Nat.zero_le _, Nat.zero_le _⟩
    · rw [hsame]
      exact hi.total
    · intro m hm
      rw [hsame]
      exact hi.counted m (storedEntry_of_thins hthins hm)
    · exact fun m hm => hi.classed m (storedEntry_of_thins hthins hm)
    · intro n message hn htwo hclass m hm
      rw [hsame] at hn
      exact hi.unknown n message hn htwo hclass m (storedEntry_of_thins hthins hm)
  | sent m l outcome hstored hsendable hsends hfailovers hloop hkept =>
    have hlt := lt_of_sendable hsendable (hi.classed m hstored)
    have hl := hloop hlt
    have hcount := hi.counted m hstored
    obtain ⟨before, hnew, hbefore⟩ := hl.earlier
    have hall : failures (History.mk r.state (h.calls ++ [(r.sends, r.failovers)])).sends =
        failures h.sends ++ failures l.sends := by
      rw [History.sends_snoc, failures_append, hsends]
      rfl
    have hlen : (failures h.sends ++ failures l.sends).length = l.attemptCount := by
      rw [List.length_append, hl.count, hcount]
    constructor
    · intro c hc
      obtain hold | hnew := List.mem_append.mp hc
      · exact hi.calls c hold
      · rw [List.mem_singleton.mp hnew, hsends, hfailovers]
        exact ⟨hl.sends, hl.failovers⟩
    · rw [hall, hlen]
      exact hl.fits hlt
    · intro m' hm'
      obtain ⟨_, _, _, hattempts, _⟩ := hkept m' hm'
      rw [hall, hlen]
      exact hattempts
    · intro m' hm'
      obtain ⟨_, _, _, _, hclass, _⟩ := hkept m' hm'
      exact .inr (by rw [hclass]; rfl)
    · intro n message hn htwo hclass m' hm'
      rw [hall] at hn
      obtain ⟨message', retryable, hend, _, _, hflag⟩ := hkept m' hm'
      obtain hold | ⟨hlast, hpos⟩ := unknown_is_last hnew hbefore hn hclass
      · -- an entry closed before would not have been sent
        have hclosed := hi.unknown n message hold htwo hclass m hstored
        rw [hsendable] at hclosed
        cases hclosed
      · rw [hend] at hlast
        cases hlast
        rw [hflag (hl.retryable _ _ hend)]
        refine attemptLeft_unknown hclass ?_
        rw [← hlen, ← hpos]
        exact Nat.succ_le_succ htwo

theorem counted_reach (hr : Reach (retrySystem w txid) Free h) : Counted txid h :=
  hr.invariant (fun _ => counted_init) fun _ _ _ hi _ hst => counted_step hi hst

theorem closed_path {h' : History} (hp : Path (retrySystem w txid) Free h h')
    (hclosed : ∀ m, storedEntry h.state.dir txid = some m → sendable m = false) :
    h'.sends = h.sends := by
  have hinv : h'.sends = h.sends ∧
      ∀ m, storedEntry h'.state.dir txid = some m → sendable m = false := by
    refine hp.invariant (I := fun t => t.sends = h.sends ∧
      ∀ m, storedEntry t.state.dir txid = some m → sendable m = false) ⟨rfl, hclosed⟩ ?_
    rintro t call u ⟨hsends, ht⟩ - hst
    obtain ⟨r, hr, rfl⟩ := Option.map_eq_some_iff.mp hst
    cases retryBroadcast_spec hr with
    | refused hnone _ hthins =>
      refine ⟨?_, fun m hm => ht m (storedEntry_of_thins hthins hm)⟩
      rw [History.sends_snoc, hnone, List.append_nil]
      exact hsends
    | sent m _ _ hstored hsendable =>
      rw [ht m hstored] at hsendable
      cases hsendable
  exact hinv.1

/-- **The retries of a queued transaction are bounded**: two sends and one switch a call, seven
failed sends in all, none from a closed entry, and a call always returns. -/
theorem retries_bounded (w : WalletId) (txid : TxId) (h : History)
    (hr : Reach (retrySystem w txid) Free h) :
    (∀ call ∈ h.calls, call.1.length ≤ 2 ∧ call.2.length ≤ 1) ∧
    (failures h.sends).length ≤ maxTotalBroadcastRetryAttempts ∧
    (∀ n message, (failures h.sends)[n]? = some message → 2 ≤ n →
      classifyBroadcastErrorMessage message = .unknown → ∀ now entry,
        (scanQueuedBroadcasts now h.state.dir).2.lookup txid = some entry →
          entry.retryable = false) ∧
    (∀ now entry, (scanQueuedBroadcasts now h.state.dir).2.lookup txid = some entry →
      entry.retryable = false → ∀ h', Path (retrySystem w txid) Free h h' → h'.sends = h.sends) ∧
    ∀ env fuel, 2 ≤ fuel → (retryBroadcast w env txid fuel h.state).isSome = true := by
  have hi := counted_reach hr
  refine ⟨hi.calls, hi.total, ?_, ?_, ?_⟩
  · intro n message hn htwo hclass now entry hentry
    rw [lookup_scan] at hentry
    obtain ⟨m, hlive, rfl⟩ := Option.map_eq_some_iff.mp hentry
    exact hi.unknown n message hn htwo hclass m (Option.filter_eq_some_iff.mp hlive).1
  · intro now entry hentry hclosed h' hp
    rw [lookup_scan] at hentry
    obtain ⟨m, hlive, rfl⟩ := Option.map_eq_some_iff.mp hentry
    refine closed_path hp fun m' hm' => ?_
    rw [(Option.filter_eq_some_iff.mp hlive).1] at hm'
    cases hm'
    exact hclosed
  · intro env fuel hfuel
    unfold retryBroadcast
    dsimp only
    split
    · rfl
    · rw [Option.isSome_map]
      exact retryLoop_isSome _ _ _ _ _ hfuel

/-! ## A run -/

def softwareDb : RetryDb where
  appDb := ⟨fun _ => some .software, fun _ => some false, fun _ _ => some .software⟩
  accounts := ⟨[⟨5, none, some 0⟩], List.nodup_singleton _⟩
  reads := .all [5]
  rows := ⟨.empty, [⟨7, some 5⟩], none⟩

def failingCall (first second : String) : RetryCall where
  env :=
    { db := softwareDb
      site := ⟨.mainnet, fun _ => true⟩
      grpcUrl := "a"
      clock := fun _ => 0
      rounds := fun i => ⟨.error (if i = 0 then first else second) .unsent, fun _ => true⟩
      delayMs := 5000
      onTxChanged := false }
  fuel := 2

def queuedAfterTransport : History where
  state :=
    { dir := QueueCall.files (queueBroadcast 1 7 [3] (some "connection refused")
        (some .transientTransport) true 5000) 0 .empty
      servers := [⟨0, .mainnet, "a", true⟩, ⟨1, .mainnet, "b", false⟩] }
  calls := []

theorem retries_bounded_three : ∃ h, (Reach (retrySystem 1 7) Free h ∧
    failures h.sends = ["connection refused", "weird", "weird"] ∧
    h.calls.map (fun call => (call.1.length, call.2.length)) = [(2, 1), (1, 0), (0, 0)]) ∧
    (failures h.sends).length ≤ maxTotalBroadcastRetryAttempts ∧
    ∀ h', Path (retrySystem 1 7) Free h h' → h'.sends = h.sends := by
  obtain ⟨h, hr, hfail, hcalls, hentry⟩ := exec_reach (S := retrySystem 1 7) (G := Free)
    (s := queuedAfterTransport)
    (p := fun h => failures h.sends = ["connection refused", "weird", "weird"] ∧
      h.calls.map (fun call => (call.1.length, call.2.length)) = [(2, 1), (1, 0), (0, 0)] ∧
      ((scanQueuedBroadcasts 0 h.state.dir).2.lookup 7).map (·.retryable) = some false)
    [failingCall "connection refused" "weird", failingCall "weird" "weird",
      failingCall "weird" "weird"]
    ⟨rfl, [3], some "connection refused", some .transientTransport, true, 5000, 0, .empty, rfl⟩
    (along_free _ _) (by decide +kernel)
  obtain ⟨entry, hlookup, hclosed⟩ := Option.map_eq_some_iff.mp hentry
  obtain ⟨-, htotal, -, hnever, -⟩ := retries_bounded 1 7 h hr
  exact ⟨h, ⟨hr, hfail, hcalls⟩, htotal, hnever 0 entry hlookup hclosed⟩

end ZbagRetry
