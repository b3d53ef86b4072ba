import Mathlib.Data.Finset.Preimage
import Mathlib.Data.Fintype.EquivFin
import Zbag.Tx.Budget

/-!
# Transactions — the two ways into the queue

A transaction whose first send fails is queued by the service itself or by a job. The service sets
the retry policy when it writes the metadata; the job leaves it to the scan that reads them.

* `classifyJobBroadcastFailure`, `jobQueue`: the same by a job.
-/

namespace ZbagRetry

open ZbagTx ZbagQueue ZbagWallet Transition

/-! ## The two paths -/

/-- A known transaction counts as a success. -/
def sendTransactionBytes : SendAnswer → Except String Unit
  | .ok => .ok ()
  | .error message _ =>
    if isEffectiveSuccessBroadcastError message then .ok () else .error message

def directQueue (w : WalletId) (txid : TxId) (bytes : List ℕ) (answer : SendAnswer)
    (delayMs : ℤ) : Option QueueCall :=
  match sendTransactionBytes answer with
  | .ok () => none
  | .error message =>
    let errorClass := classifyBroadcastErrorMessage message
    let retryable := isRetryableBroadcastErrorClass errorClass
    some (queueBroadcast w txid bytes (some message) (some errorClass) retryable delayMs)

def classifyJobBroadcastFailure (message : String) : Option (BroadcastErrorClass × Bool) :=
  if isEffectiveSuccessBroadcastError message then none
  else
    let errorClass := classifyBroadcastErrorMessage message
    some (errorClass, isRetryableBroadcastErrorClass errorClass)

def jobQueue (w : WalletId) (txid : TxId) (bytes : List ℕ) (answer : SendAnswer)
    (delayMs : ℤ) : Option QueueCall :=
  match answer with
  | .ok => none
  | .error message _ =>
    (classifyJobBroadcastFailure message).map fun (errorClass, retryable) =>
      queueBroadcastForRetry w txid bytes (some message) (some errorClass) retryable delayMs

/-! ## A call alone -/

section Alone

variable {c : QueueCall} {s : Queue}

theorem exists_fresh_temp (d : QueueDir) : ∃ uuid, d.file (.temp uuid) = none := by
  have hinj : Set.InjOn QueueFile.temp (Set.preimage QueueFile.temp ↑d.names.toFinset) :=
    fun _ _ _ _ h => QueueFile.temp.inj h
  obtain ⟨uuid, huuid⟩ := Infinite.exists_notMem_finset (d.names.toFinset.preimage _ hinj)
  refine ⟨uuid, Option.eq_none_iff_forall_ne_some.mpr fun f hf => huuid ?_⟩
  rw [Finset.mem_preimage, List.mem_toFinset]
  exact (d.inUse _ f hf).1

theorem path_write (path : QueueFile) (data : FileData) (at_ : WritePc → CallPc) (next : CallPc)
    (hcall : ∀ (t : Queue) (pc : WritePc) (uuid : ℕ), t.call = at_ pc → callStep c t uuid =
      (writeFileSecure t.dir path data uuid pc).map fun (d, pc') =>
        { t with dir := d, call := pc'.elim next at_ })
    (hs : s.call = at_ .create) :
    ∃ d, Path (queueSystem c) Free s { s with dir := d, call := next } ∧
      (∃ id, d.file path = some ⟨id, data⟩) ∧
      ∀ q, q ≠ path → (∀ uuid, q ≠ .temp uuid) → d.file q = s.dir.file q := by
  have hone : ∀ {t : Queue} {pc : WritePc} {d : QueueDir} {p : Option WritePc} (uuid : ℕ),
      t.call = at_ pc → writeFileSecure t.dir path data uuid pc = some (d, p) →
        Path (queueSystem c) Free t { t with dir := d, call := p.elim next at_ } := by
    intro t pc d p uuid ht hw
    refine Path.single (a := .call uuid) trivial ?_
    show callStep c t uuid = _
    rw [hcall t pc uuid ht, hw]
    rfl
  cases hfile : s.dir.file path with
  | none =>
    -- the file is created under its name and filled through the handle
    have hcreate : writeFileSecure s.dir path data 0 .create =
        some (s.dir.create path .empty, some (.fill s.dir.next)) := by
      simp [writeFileSecure, hfile]
    refine ⟨_, (hone 0 hs hcreate).trans (hone (p := none) 0 rfl rfl), ⟨s.dir.next, ?_⟩,
      fun q hq _ => ?_⟩
    · exact Directory.file_write_self (Directory.file_create s.dir path .empty) data
    · rw [Directory.file_write_of_ne, Directory.file_create_of_ne _ hq]
      intro f hf
      rw [Directory.file_create_of_ne _ hq] at hf
      exact Nat.ne_of_lt (Directory.id_lt hf)
  | some f =>
    -- a new file is filled under a temporary name and takes the place of the old one
    obtain ⟨uuid, hfresh⟩ := exists_fresh_temp s.dir
    have hcreate : writeFileSecure s.dir path data 0 .create = some (s.dir, some .createTemp) := by
      simp [writeFileSecure, hfile]
    have htemp : writeFileSecure s.dir path data uuid .createTemp =
        some (s.dir.create (.temp uuid) .empty, some (.fillTemp uuid s.dir.next)) := by
      simp [writeFileSecure, hfresh]
    refine ⟨_, (((hone 0 hs hcreate).trans (hone uuid rfl htemp)).trans
      (hone uuid rfl rfl)).trans (hone (p := none) uuid rfl rfl), ⟨s.dir.next, ?_⟩,
      fun q hq hqt => ?_⟩
    · rw [Directory.file_rename]
      exact Directory.file_write_self (Directory.file_create s.dir (.temp uuid) .empty) data
    · have hq₁ := Directory.file_create_of_ne s.dir (hqt uuid) .empty
      rw [Directory.file_rename_of_ne _ hq (hqt uuid), Directory.file_write_of_ne, hq₁]
      intro g hg
      rw [hq₁] at hg
      exact Nat.ne_of_lt (Directory.id_lt hg)

/-- **A queueing call that runs alone** returns with its entry stored, as `QueueCall.files` has
it. -/
theorem call_alone (hs : s.call = .mkdir) : ∃ d,
    Path (queueSystem c) Free s
      { s with queueDir := true, dir := d, call := .returned (toUnixMs s.clock) } ∧
    storedEntry d c.txid = some (c.entry (toUnixMs s.clock)) := by
  have hmkdir : Path (queueSystem c) Free s { s with queueDir := true, call := .bin .create } :=
    Path.single (a := .call 0) trivial (by show callStep c s 0 = _; rw [callStep, hs])
  obtain ⟨d₁, hbin, ⟨id₁, hfile₁⟩, -⟩ := path_write (c := c)
    (s := { s with queueDir := true, call := .bin .create }) (.bin c.txid) (.tx c.tx) .bin .clock
    (fun t pc uuid ht => by rw [callStep, ht]) rfl
  have hclock : Path (queueSystem c) Free { s with queueDir := true, dir := d₁, call := .clock }
      { s with queueDir := true, dir := d₁, call := .json (toUnixMs s.clock) .create } :=
    Path.single (a := .call 0) trivial rfl
  obtain ⟨d₂, hjson, hfile₂, hrest⟩ := path_write (c := c)
    (s := { s with queueDir := true, dir := d₁, call := .json (toUnixMs s.clock) .create })
    (.json c.txid) (.json (c.entry (toUnixMs s.clock))) (.json (toUnixMs s.clock))
    (.returned (toUnixMs s.clock)) (fun t pc uuid ht => by rw [callStep, ht]) rfl
  refine ⟨d₂, ((hmkdir.trans hbin).trans hclock).trans hjson, storedEntry_eq_some.mpr ⟨hfile₂, ?_⟩⟩
  rw [hrest (.bin c.txid) QueueFile.noConfusion fun _ => QueueFile.noConfusion, hfile₁]
  rfl

theorem call_alone_first : ∃ d,
    Path (queueSystem (queueBroadcast 1 7 [3] none none true 0)) Free
      ⟨0, false, .empty, .mkdir, [], false⟩ ⟨0, true, d, .returned 0, [], false⟩ ∧
    storedEntry d 7 = some ((queueBroadcast 1 7 [3] none none true 0).entry 0) :=
  call_alone (s := ⟨0, false, .empty, .mkdir, [], false⟩) rfl

theorem storedEntry_files (c : QueueCall) (createdAtMs : ℤ) (d : QueueDir) :
    storedEntry (QueueCall.files c createdAtMs d) c.txid = some (c.entry createdAtMs) := by
  refine storedEntry_eq_some.mpr ⟨⟨_, Directory.file_create ..⟩, ?_⟩
  rw [QueueCall.files, Directory.file_create_of_ne _ QueueFile.noConfusion, Directory.file_create]
  rfl

end Alone

/-! ## Agreement -/

theorem applyRetryPolicy_idempotent (retryable : Bool) (attemptCount : ℕ)
    (lastErrorClass : Option BroadcastErrorClass) (terminalReason : Option String) :
    applyRetryPolicy (applyRetryPolicy retryable attemptCount lastErrorClass terminalReason).1
      attemptCount lastErrorClass
      (applyRetryPolicy retryable attemptCount lastErrorClass terminalReason).2 =
    applyRetryPolicy retryable attemptCount lastErrorClass terminalReason := by
  cases lastErrorClass with
  | none => cases retryable <;> rfl
  | some errorClass =>
    by_cases hclass : isRetryableBroadcastErrorClass errorClass = true
    · cases retryable with
      | false => simp [applyRetryPolicy, hclass]
      | true =>
        cases hbudget : retryBudgetTerminalReason errorClass attemptCount with
        | none | some reason => simp [applyRetryPolicy, hclass, hbudget]
    · simp [applyRetryPolicy, hclass]

theorem of_applyRetryPolicy {retryable : Bool} {n : ℕ} {c : Option BroadcastErrorClass}
    {reason : Option String} (h : (applyRetryPolicy retryable n c reason).1 = true) :
    retryable = true ∧ (applyRetryPolicy retryable n c reason).2 = none ∧
      ∀ errorClass, c = some errorClass → isRetryableBroadcastErrorClass errorClass = true ∧
        retryBudgetTerminalReason errorClass n = none := by
  cases c with
  | none =>
    cases retryable with
    | false => cases h
    | true => exact ⟨rfl, rfl, nofun⟩
  | some errorClass =>
    rw [applyRetryPolicy_some, Bool.and_eq_true, Bool.and_eq_true, Option.isNone_iff_eq_none] at h
    obtain ⟨⟨rfl, hclass⟩, hbudget⟩ := h
    refine ⟨rfl, by simp [applyRetryPolicy, hclass, hbudget], ?_⟩
    rintro _ ⟨⟩
    exact ⟨hclass, hbudget⟩

/-- **The metadata that a scan has read stay as they are.** They have a next attempt exactly if they
are retryable, and none becomes so. -/
theorem normalize_canonical (m : QueuedBroadcastMeta) (t₁ t₂ : ℤ) :
    normalizeQueuedBroadcastMeta (normalizeQueuedBroadcastMeta m t₁) t₂ =
        normalizeQueuedBroadcastMeta m t₁ ∧
      ((normalizeQueuedBroadcastMeta m t₁).retryable = true ↔
        (normalizeQueuedBroadcastMeta m t₁).nextAttemptAtMs.isSome = true) ∧
      (m.retryable = false → (normalizeQueuedBroadcastMeta m t₁).retryable = false) ∧
      ((normalizeQueuedBroadcastMeta m t₁).retryable = true →
        (normalizeQueuedBroadcastMeta m t₁).terminalReason = none) ∧
      ∀ errorClass, (normalizeQueuedBroadcastMeta m t₁).lastErrorClass = some errorClass →
        (normalizeQueuedBroadcastMeta m t₁).retryable = true →
          isRetryableBroadcastErrorClass errorClass = true ∧
            retryBudgetTerminalReason errorClass m.attemptCount = none := by
  have hclass : ((m.lastErrorClass <|> m.lastError.map classifyBroadcastErrorMessage) <|>
      m.lastError.map classifyBroadcastErrorMessage) =
      (m.lastErrorClass <|> m.lastError.map classifyBroadcastErrorMessage) := by
    cases m.lastErrorClass <;> cases m.lastError <;> rfl
  unfold normalizeQueuedBroadcastMeta
  dsimp only
  rw [hclass, applyRetryPolicy_idempotent]
  generalize (m.lastErrorClass <|> m.lastError.map classifyBroadcastErrorMessage) = c
  have hpolicy := @of_applyRetryPolicy m.retryable m.attemptCount c m.terminalReason
  refine ⟨?_, ?_, ?_, fun h => (hpolicy h).2.1, fun e he h => (hpolicy h).2.2 e he⟩
  · congr 1
    split_ifs <;> rfl
  · split_ifs with h <;> simp [h]
  · intro hretryable
    by_contra h
    rw [(hpolicy (by simpa using h)).1] at hretryable
    cases hretryable

/-- But for the jitter of the backoff. -/
def withoutJitter (m : QueuedBroadcastMeta) : QueuedBroadcastMeta :=
  { m with nextAttemptAtMs := m.nextAttemptAtMs.map fun _ => 0 }

/-- **The reader makes the two writers equal**, whatever error is passed on to them. -/
theorem normalize_queued (lastError : Option String) (lastErrorClass : Option BroadcastErrorClass)
    (retryable : Bool) (delayMs delayMs' createdAtMs nowMs : ℤ) :
    withoutJitter (normalizeQueuedBroadcastMeta
      (queueBroadcastMeta lastError lastErrorClass retryable delayMs createdAtMs) nowMs) =
    withoutJitter (normalizeQueuedBroadcastMeta
      (queueBroadcastForRetryMeta lastError lastErrorClass retryable delayMs' createdAtMs)
      nowMs) := by
  -- the class that the reader uses is the writer's, or there was none for the policy to act on
  have hpolicy : ∀ errorClass : Option BroadcastErrorClass,
      lastErrorClass = none ∨ errorClass = lastErrorClass →
        applyRetryPolicy (applyRetryPolicy retryable 0 lastErrorClass none).1 0 errorClass
          (applyRetryPolicy retryable 0 lastErrorClass none).2 =
        applyRetryPolicy retryable 0 errorClass none := by
    rintro errorClass (rfl | rfl)
    · cases retryable <;> rfl
    · exact applyRetryPolicy_idempotent ..
  have hclass : lastErrorClass = none ∨
      (lastErrorClass <|> lastError.map classifyBroadcastErrorMessage) = lastErrorClass := by
    cases lastErrorClass with
    | none => exact .inl rfl
    | some errorClass => exact .inr rfl
  simp only [normalizeQueuedBroadcastMeta, queueBroadcastMeta, queueBroadcastForRetryMeta,
    withoutJitter, hpolicy _ hclass]
  congr 1
  by_cases hretry : (applyRetryPolicy retryable 0
      (lastErrorClass <|> lastError.map classifyBroadcastErrorMessage) none).1 = true
  · simp only [hretry, if_true, Option.map_some]
  · simp only [hretry, if_false, Option.map_none, Bool.false_eq_true]

theorem lookup_scan_files (c : QueueCall) (createdAtMs : ℤ) (now : Time) (d : QueueDir) :
    (scanQueuedBroadcasts now (QueueCall.files c createdAtMs d)).2.lookup c.txid =
      if retentionExpired now (c.entry createdAtMs) then none
      else some (normalizeQueuedBroadcastMeta (c.entry createdAtMs) (toUnixMs now)) := by
  rw [lookup_scan, liveEntry, storedEntry_files]
  cases h : retentionExpired now (c.entry createdAtMs) <;> simp [Option.filter, h]

/-- **The two paths agree.** Both take an error for a success and queue nothing, or both queue and a
scan finds the same metadata but for the jitter. -/
theorem direct_job_agree (w : WalletId) (txid : TxId) (bytes : List ℕ) (message : String)
    (fate : Fate) (delayMs delayMs' : ℤ) (created now : Time) (d d' : QueueDir) :
    (isEffectiveSuccessBroadcastError message = true ∧
      directQueue w txid bytes (.error message fate) delayMs = none ∧
      jobQueue w txid bytes (.error message fate) delayMs' = none) ∨
    (isEffectiveSuccessBroadcastError message = false ∧
      ∃ c c', directQueue w txid bytes (.error message fate) delayMs = some c ∧
        jobQueue w txid bytes (.error message fate) delayMs' = some c' ∧
        let found := (scanQueuedBroadcasts now
          (QueueCall.files c (toUnixMs created) d)).2.lookup txid
        let found' := (scanQueuedBroadcasts now
          (QueueCall.files c' (toUnixMs created) d')).2.lookup txid
        found.map withoutJitter = found'.map withoutJitter ∧
          (found.isSome = true ↔
            now ≤ created / 1000000 * 1000000 + queuedBroadcastRetention)) := by
  by_cases hdup : isEffectiveSuccessBroadcastError message = true
  · refine .inl ⟨hdup, ?_, ?_⟩
    · simp [directQueue, sendTransactionBytes, hdup]
    · simp [jobQueue, classifyJobBroadcastFailure, hdup]
  · rw [Bool.not_eq_true] at hdup
    let errorClass := classifyBroadcastErrorMessage message
    let retryable := isRetryableBroadcastErrorClass errorClass
    let c := queueBroadcast w txid bytes (some message) (some errorClass) retryable delayMs
    let c' :=
      queueBroadcastForRetry w txid bytes (some message) (some errorClass) retryable delayMs'
    refine .inr ⟨hdup, c, c', ?_, ?_, ?_⟩
    · simp [directQueue, sendTransactionBytes, hdup, c, errorClass, retryable]
    · simp [jobQueue, classifyJobBroadcastFailure, hdup, c', errorClass, retryable]
    · have hfound := lookup_scan_files c (toUnixMs created) now d
      have hfound' := lookup_scan_files c' (toUnixMs created) now d'
      have hexpired : retentionExpired now (c'.entry (toUnixMs created)) =
          retentionExpired now (c.entry (toUnixMs created)) := rfl
      have hage : retentionExpired now (c.entry (toUnixMs created)) = false ↔
          now ≤ created / 1000000 * 1000000 + queuedBroadcastRetention := by
        have hcreated : createdAt (c.entry (toUnixMs created)) = created / 1000000 * 1000000 := by
          show ((created / 1000000 : ℕ) : ℤ).toNat * 1000000 = _
          rw [Int.toNat_natCast]
        rw [retentionExpired, hcreated, decide_eq_false_iff_not, not_lt, Nat.sub_le_iff_le_add']
      rw [hexpired] at hfound'
      dsimp only
      rw [show c.txid = txid from rfl] at hfound
      rw [show c'.txid = txid from rfl] at hfound'
      rw [hfound, hfound', ← hage]
      cases retentionExpired now (c.entry (toUnixMs created)) with
      | true => exact ⟨rfl, by simp⟩
      | false =>
        refine ⟨congrArg some ?_, by simp⟩
        exact normalize_queued (some message) (some errorClass) retryable delayMs delayMs'
          (toUnixMs created) (toUnixMs now)

end ZbagRetry
