import Zbag.Tx.Listed
import Zbag.Tx.Budget

/-!
# Transactions — retries beside each other

Several calls of `retry_broadcast` and scans use one queue directory, and any two file operations
may have others in between. A retry that succeeds removes the bytes first and the metadata behind
them; one that fails writes its metadata anew, whether they are still there or not. Nothing writes
bytes, and metadata without bytes are not listed.
-/

namespace ZbagRetry

open ZbagTx ZbagQueue ZbagWallet ZbagAccount Transition

/-! ## The system -/

structure Failure where
  message : String
  retryable : Bool
  attemptCount : ℕ
  transportFailureStreak : ℕ
  deriving DecidableEq, Repr

def Failure.outcome (f : Failure) : LoopEnd := .failed f.message f.retryable

/-- An index is the one of a scan that the call waits for. -/
inductive RetryPc
  | start
  | scanning (i : ℕ)
  | send (a : AccountId) (entry : QueuedBroadcastMeta) (bytes : List ℕ)
  | deleteBin (a : AccountId)
  | deleteJson (a : AccountId)
  | readMeta (a : AccountId) (failure : Failure)
  | update (a : AccountId) (failure : Failure) (existing : Option QueuedBroadcastMeta)
      (createdAt : Time)
  | write (a : AccountId) (failure : Failure) (entry : QueuedBroadcastMeta) (pc : WritePc)
  | rescan (a : AccountId) (outcome : LoopEnd)
  | rescanning (a : AccountId) (outcome : LoopEnd) (i : ℕ)
  | listing (a : AccountId) (outcome : LoopEnd) (i : ℕ)
  | cleanup (outcome : LoopEnd) (todo : List TxId)
  | cleanupJson (outcome : LoopEnd) (expired : TxId) (todo : List TxId)
  | returned (result : Except TxError TxId)

structure Attempt where
  env : RetryEnv
  txid : TxId
  pc : RetryPc

structure Race where
  clock : Time
  /-- the queue directory exists -/
  queueDir : Bool
  dir : QueueDir
  servers : List Server
  /-- late if it starts after the deletion -/
  scans : List Scan
  retries : List Attempt
  /-- of a successful retry -/
  deleted : Bool

def Race.queue (s : Race) : Queue := ⟨s.clock, s.queueDir, s.dir, .mkdir, s.scans, s.deleted⟩

def Race.startScan (s : Race) : Race :=
  { s with scans := s.scans ++ [⟨s.deleted, 0, .start, []⟩] }

def Race.scanned (s : Race) (i : ℕ) : Option QueuedBroadcasts :=
  s.scans[i]?.bind fun scan => if scan.pc = .done then some scan.found else none

def expiredTxids (db : RetryDb) (a : AccountId) : Except IpcError (List TxId) :=
  match resolveWalletAccountUuid db.accounts db.reads a with
  | .error e => .error e
  | .ok uuid =>
    .ok (((pageRows db.rows uuid 200 0).filter (·.expired db.rows.chainHeight)).map TxRow.txid)

def afterLoop (a : AccountId) (l : Loop) : LoopEnd → RetryPc
  | .succeeded => .deleteBin a
  | .failed message retryable =>
    .readMeta a ⟨message, retryable, l.attemptCount, l.transportFailureStreak⟩

variable (w : WalletId) (txid : TxId)

/-- Its loop is one step: the sends and the failovers touch no file of the queue. -/
def attemptStep (s : Race) (r : Attempt) (fuel uuid : ℕ) : Option (Race × RetryPc) :=
  match r.pc with
  | .start => some (s.startScan, .scanning s.scans.length)
  | .scanning i =>
    (s.scanned i).map fun queued =>
      match retryChecks r.env.db w queued s.dir r.txid with
      | .error e => (s, .returned (.error e))
      | .ok (a, entry, bytes) => (s, .send a entry bytes)
  | .send a entry bytes =>
    (retryLoop r.env.site bytes r.env.rounds fuel 0
      ⟨r.env.grpcUrl, entry.attemptCount, entry.transportFailureStreak, s.servers, [], []⟩).map
      fun (l, outcome) => ({ s with servers := l.servers }, afterLoop a l outcome)
  | .deleteBin a => some ({ s with dir := s.dir.remove (.bin r.txid) }, .deleteJson a)
  | .deleteJson a =>
    some ({ s with
      dir := s.dir.remove (.json r.txid)
      deleted := s.deleted || r.txid == txid }, .rescan a .succeeded)
  | .readMeta a failure =>
    let existing := (s.dir.file (.json r.txid)).bind fun file => FileData.meta? file.data
    some (s, .update a failure existing s.clock)
  | .update a failure existing createdAt =>
    some (s, .write a failure (updatedMeta createdAt s.clock r.env.delayMs existing failure.message
      failure.retryable failure.attemptCount failure.transportFailureStreak) .create)
  | .write a failure entry pc =>
    (writeFileSecure s.dir (.json r.txid) (.json entry) uuid pc).map fun (d, next) =>
      ({ s with dir := d }, next.elim (.rescan a failure.outcome) (.write a failure entry))
  | .rescan a outcome => some (s.startScan, .rescanning a outcome s.scans.length)
  | .rescanning a outcome i =>
    (s.scanned i).map fun _ =>
      if r.env.onTxChanged then (s.startScan, .listing a outcome s.scans.length)
      else (s, .returned (retryResult r.txid (.ok ([], 0)) outcome))
  | .listing a outcome i =>
    (s.scanned i).map fun _ =>
      match expiredTxids r.env.db a with
      | .error e => (s, .returned (retryResult r.txid (.error e) outcome))
      | .ok todo => (s, .cleanup outcome todo)
  | .cleanup outcome [] => some (s, .returned (retryResult r.txid (.ok ([], 0)) outcome))
  | .cleanup outcome (expired :: todo) =>
    some ({ s with dir := s.dir.remove (.bin expired) }, .cleanupJson outcome expired todo)
  | .cleanupJson outcome expired todo =>
    some ({ s with dir := s.dir.remove (.json expired) }, .cleanup outcome todo)
  | .returned _ => none

inductive RaceAction
  | tick (n : ℕ)
  | startScan
  | scan (i : ℕ) (names : List TxId)
  | startRetry (env : RetryEnv) (txid : TxId)
  | retry (i fuel uuid : ℕ)

def raceStep (s : Race) : RaceAction → Option Race
  | .tick n => some { s with clock := s.clock + n }
  | .startScan => some s.startScan
  | .scan i names =>
    s.scans[i]?.bind fun scan =>
      (scanStep s.queue scan names).map fun (d, scan') =>
        { s with dir := d, scans := s.scans.set i scan' }
  | .startRetry env txid => some { s with retries := s.retries ++ [⟨env, txid, .start⟩] }
  | .retry i fuel uuid =>
    s.retries[i]?.bind fun r =>
      (attemptStep w txid s r fuel uuid).map fun (t, pc) =>
        { t with retries := s.retries.set i { r with pc := pc } }

/-- **Retries and scans of one wallet**; the deletion that counts is the one of `txid`. -/
def raceSystem : System Race RaceAction where
  init s := s.scans = [] ∧ s.retries = [] ∧ s.deleted = false
  step := raceStep w txid

/-! ## The bytes of the transaction -/

variable {w txid}

variable {d : QueueDir} {s t : Race} {r : Attempt} {pc : RetryPc} {q : Queue} {scan scan' : Scan}
  {names : List TxId}

theorem bin_remove (path : QueueFile) (hbin : d.file (.bin txid) = none) :
    (d.remove path).file (.bin txid) = none := by
  cases hfile : (d.remove path).file (.bin txid) with
  | none => rfl
  | some file => rw [Directory.thins_remove d path _ _ hfile] at hbin; cases hbin

theorem bin_writeFileSecure {d' : QueueDir} {other : TxId} {data : FileData} {uuid : ℕ}
    {pc : WritePc} {next : Option WritePc}
    (h : writeFileSecure d (.json other) data uuid pc = some (d', next))
    (hbin : d.file (.bin txid) = none) : d'.file (.bin txid) = none := by
  cases pc with
  | create =>
    simp only [writeFileSecure] at h
    split_ifs at h
    · cases h
      exact hbin
    · cases h
      rw [Directory.file_create_of_ne _ QueueFile.noConfusion]
      exact hbin
  | createTemp =>
    simp only [writeFileSecure] at h
    split_ifs at h
    cases h
    rw [Directory.file_create_of_ne _ QueueFile.noConfusion]
    exact hbin
  | fill handle | fillTemp _ handle =>
    cases h
    rw [Directory.file_write, hbin]
    rfl
  | renameTemp uuid =>
    cases h
    rw [Directory.file_rename_of_ne _ QueueFile.noConfusion QueueFile.noConfusion]
    exact hbin

def Attempt.Deleting (txid : TxId) (r : Attempt) : Prop :=
  r.txid = txid ∧ ∃ a, r.pc = .deleteJson a

/-- **What a step of a retry does to the transaction.** The deletion returns with the bytes removed.
-/
structure AttemptEffect (txid : TxId) (s : Race) (r : Attempt) (t : Race) (pc : RetryPc) :
    Prop where
  bin : s.dir.file (.bin txid) = none → t.dir.file (.bin txid) = none
  scans : t.scans = s.scans ∨ t.scans = s.startScan.scans
  deleted : t.deleted = s.deleted ∨ t.deleted = true ∧ r.Deleting txid
  deleting : Attempt.Deleting txid { r with pc := pc } → t.dir.file (.bin txid) = none

theorem AttemptEffect.of_quiet (hdir : t.dir = s.dir)
    (hscans : t.scans = s.scans ∨ t.scans = s.startScan.scans) (hdeleted : t.deleted = s.deleted)
    (hpc : ∀ a, pc ≠ .deleteJson a) : AttemptEffect txid s r t pc where
  bin h := by rw [hdir]; exact h
  scans := hscans
  deleted := .inl hdeleted
  deleting := fun ⟨_, a, ha⟩ => absurd ha (hpc a)

theorem AttemptEffect.same (hpc : ∀ a, pc ≠ .deleteJson a) : AttemptEffect txid s r s pc :=
  .of_quiet rfl (.inl rfl) rfl hpc

theorem AttemptEffect.startScan (hpc : ∀ a, pc ≠ .deleteJson a) :
    AttemptEffect txid s r s.startScan pc :=
  .of_quiet rfl (.inr rfl) rfl hpc

theorem AttemptEffect.of_dir (hbin : s.dir.file (.bin txid) = none → d.file (.bin txid) = none)
    (hpc : ∀ a, pc ≠ .deleteJson a) : AttemptEffect txid s r { s with dir := d } pc where
  bin := hbin
  scans := .inl rfl
  deleted := .inl rfl
  deleting := fun ⟨_, a, ha⟩ => absurd ha (hpc a)

theorem attemptStep_effect {fuel uuid : ℕ} (h : attemptStep w txid s r fuel uuid = some (t, pc)) :
    AttemptEffect txid s r t pc := by
  unfold attemptStep at h
  split at h
  next => -- start
    cases h
    exact .startScan nofun
  next i _ => -- scanning
    obtain ⟨queued, -, h⟩ := Option.map_eq_some_iff.mp h
    split at h
    · cases h
      exact .same nofun
    · cases h
      exact .same nofun
  next a entry bytes _ => -- send
    obtain ⟨⟨l, outcome⟩, -, h⟩ := Option.map_eq_some_iff.mp h
    cases h
    cases outcome with
    | succeeded | failed message retryable => exact .of_quiet rfl (.inl rfl) rfl nofun
  next a _ => -- deleteBin
    cases h
    exact {
      bin := bin_remove _
      scans := .inl rfl
      deleted := .inl rfl
      deleting := by
        rintro ⟨rfl, -⟩
        exact Directory.file_remove _ _ }
  next a hpc => -- deleteJson
    cases h
    refine ⟨bin_remove _, .inl rfl, ?_, nofun⟩
    by_cases htxid : r.txid = txid
    · exact .inr ⟨by simp [htxid], htxid, a, hpc⟩
    · exact .inl (by simp [htxid])
  next => -- readMeta
    cases h
    exact .same nofun
  next => -- update
    cases h
    exact .same nofun
  next a failure entry pc _ => -- write
    obtain ⟨⟨d, next⟩, hwrite, h⟩ := Option.map_eq_some_iff.mp h
    cases h
    refine .of_dir (bin_writeFileSecure hwrite) ?_
    cases next with
    | none | some pc => exact nofun
  next => -- rescan
    cases h
    exact .startScan nofun
  next => -- rescanning
    obtain ⟨queued, -, h⟩ := Option.map_eq_some_iff.mp h
    split_ifs at h
    · cases h
      exact .startScan nofun
    · cases h
      exact .same nofun
  next => -- listing
    obtain ⟨queued, -, h⟩ := Option.map_eq_some_iff.mp h
    split at h
    · cases h
      exact .same nofun
    · cases h
      exact .same nofun
  next => -- cleanup, all done
    cases h
    exact .same nofun
  next => -- cleanup
    cases h
    exact .of_dir (bin_remove _) nofun
  next => -- cleanupJson
    cases h
    exact .of_dir (bin_remove _) nofun
  next => cases h

/-! ## Scans without the bytes -/

/-- **What a step of a scan finds**: nothing, or a transaction whose bytes are there. -/
theorem found_scanStep (h : scanStep q scan names = some (d, scan')) :
    scan'.found = scan.found ∨ ∃ other entry, (q.dir.file (.bin other)).isSome = true ∧
      scan'.found = (other, entry) :: scan.found := by
  unfold scanStep at h
  split at h
  case h_6 other id entry todo _ => -- checkBin
    split_ifs at h with hbin hexpired
    · cases h
      exact .inl rfl
    · cases h
      exact .inr ⟨other, _, hbin, rfl⟩
    · cases h
      exact .inl rfl
  case h_3 => -- readDir
    split_ifs at h
    cases h
    exact .inl rfl
  case h_5 => -- the next metadata file
    split at h
    all_goals
      cases h
      exact .inl rfl
  all_goals
    cases h
    try exact .inl rfl

theorem lookup_found_scanStep (h : scanStep q scan names = some (d, scan'))
    (hbin : q.dir.file (.bin txid) = none) (hfound : scan.found.lookup txid = none) :
    scan'.found.lookup txid = none := by
  rcases found_scanStep h with hsame | ⟨other, entry, hother, hcons⟩
  · rw [hsame]
    exact hfound
  · have hne : txid ≠ other := by
      rintro rfl
      rw [hbin] at hother
      cases hother
    rw [hcons, List.lookup_cons, beq_eq_false_iff_ne.mpr hne]
    exact hfound

theorem bin_scanStep (h : scanStep q scan names = some (d, scan'))
    (hbin : q.dir.file (.bin txid) = none) :
    d.file (.bin txid) = none := by
  rcases (scanStep_effect h).dir with rfl | ⟨_, _, -, rfl | rfl⟩
  · exact hbin
  · exact bin_remove _ hbin
  · exact bin_remove _ hbin

/-! ## The invariant -/

/-- The removed bytes stay away, and no late scan has found the transaction. -/
structure RaceInv (txid : TxId) (s : Race) : Prop where
  deleting : ∀ r ∈ s.retries, r.Deleting txid → s.dir.file (.bin txid) = none
  gone : s.deleted = true → s.dir.file (.bin txid) = none
  late : ∀ scan ∈ s.scans, scan.late = true → s.deleted = true
  unlisted : ∀ scan ∈ s.scans, scan.late = true → scan.found.lookup txid = none

theorem raceInv_init (h : (raceSystem w txid).init s) : RaceInv txid s := by
  obtain ⟨hscans, hretries, hdeleted⟩ := h
  constructor
  · intro r hr
    rw [hretries] at hr
    cases hr
  · intro h
    rw [hdeleted] at h
    cases h
  · intro scan hscan
    rw [hscans] at hscan
    cases hscan
  · intro scan hscan
    rw [hscans] at hscan
    cases hscan

theorem mem_startScan (h : scan ∈ s.startScan.scans) :
    scan ∈ s.scans ∨ scan.late = s.deleted ∧ scan.found = [] := by
  rcases List.mem_append.mp h with h | h
  · exact .inl h
  · rw [List.mem_singleton.mp h]
    exact .inr ⟨rfl, rfl⟩

theorem RaceInv.of_scans (hi : RaceInv txid s)
    (hscans : ∀ scan ∈ t.scans, scan ∈ s.scans ∨ scan.late = s.deleted ∧ scan.found = [])
    (hdeleted : s.deleted = true → t.deleted = true)
    (hdeleting : ∀ r ∈ t.retries, r.Deleting txid → t.dir.file (.bin txid) = none)
    (hgone : t.deleted = true → t.dir.file (.bin txid) = none) : RaceInv txid t where
  deleting := hdeleting
  gone := hgone
  late scan hscan hlate := by
    rcases hscans scan hscan with hscan | ⟨hnew, -⟩
    · exact hdeleted (hi.late scan hscan hlate)
    · exact hdeleted (hnew ▸ hlate)
  unlisted scan hscan hlate := by
    rcases hscans scan hscan with hscan | ⟨-, hnew⟩
    · exact hi.unlisted scan hscan hlate
    · rw [hnew]
      rfl

theorem raceInv_scan (hi : RaceInv txid s) {i : ℕ} (hscan : s.scans[i]? = some scan)
    (h : scanStep s.queue scan names = some (d, scan')) :
    RaceInv txid { s with dir := d, scans := s.scans.set i scan' } := by
  have hlate : scan'.late = scan.late := (scanStep_effect h).late
  have hmem := List.mem_of_getElem? hscan
  refine ⟨fun r hr hdel => bin_scanStep h (hi.deleting r hr hdel),
    fun hdel => bin_scanStep h (hi.gone hdel), fun scan₁ h₁ hl => ?_, fun scan₁ h₁ hl => ?_⟩
  · rcases List.mem_or_eq_of_mem_set h₁ with h₁ | rfl
    · exact hi.late scan₁ h₁ hl
    · exact hi.late scan hmem (hlate ▸ hl)
  · rcases List.mem_or_eq_of_mem_set h₁ with h₁ | rfl
    · exact hi.unlisted scan₁ h₁ hl
    · have hl' : scan.late = true := hlate ▸ hl
      exact lookup_found_scanStep h (hi.gone (hi.late scan hmem hl')) (hi.unlisted scan hmem hl')

theorem raceInv_retry (hi : RaceInv txid s) {i : ℕ} (hr : r ∈ s.retries)
    (he : AttemptEffect txid s r t pc) :
    RaceInv txid { t with retries := s.retries.set i { r with pc := pc } } := by
  refine hi.of_scans (fun scan hscan => ?_) (fun hdel => ?_) (fun r' hr' hdel => ?_) fun hdel => ?_
  · rcases he.scans with hsame | hstart
    · exact .inl (hsame ▸ hscan)
    · exact mem_startScan (hstart ▸ hscan)
  · rcases he.deleted with hsame | ⟨hnow, -⟩
    · exact hsame.trans hdel
    · exact hnow
  · rcases List.mem_or_eq_of_mem_set hr' with hr' | rfl
    · exact he.bin (hi.deleting r' hr' hdel)
    · exact he.deleting hdel
  · rcases he.deleted with hsame | ⟨-, hdeleting⟩
    · exact he.bin (hi.gone (hsame ▸ hdel))
    · exact he.bin (hi.deleting r hr hdeleting)

theorem raceInv_step (hi : RaceInv txid s) {action : RaceAction}
    (h : raceStep w txid s action = some t) : RaceInv txid t := by
  cases action with
  | tick n =>
    cases h
    exact ⟨hi.deleting, hi.gone, hi.late, hi.unlisted⟩
  | startScan =>
    cases h
    exact hi.of_scans (fun _ => mem_startScan) id hi.deleting hi.gone
  | scan i names =>
    obtain ⟨scan, hscan, h⟩ := Option.bind_eq_some_iff.mp h
    obtain ⟨⟨d, scan'⟩, hstep, rfl⟩ := Option.map_eq_some_iff.mp h
    exact raceInv_scan hi hscan hstep
  | startRetry env txid' =>
    cases h
    refine hi.of_scans (fun scan hscan => .inl hscan) id (fun r hr hdel => ?_) hi.gone
    rcases List.mem_append.mp hr with hr | hr
    · exact hi.deleting r hr hdel
    · rw [List.mem_singleton.mp hr] at hdel
      obtain ⟨-, a, ha⟩ := hdel
      cases ha
  | retry i fuel uuid =>
    obtain ⟨r, hr, h⟩ := Option.bind_eq_some_iff.mp h
    obtain ⟨⟨t', pc⟩, hstep, rfl⟩ := Option.map_eq_some_iff.mp h
    exact raceInv_retry hi (List.mem_of_getElem? hr) (attemptStep_effect hstep)

/-- **A broadcast that was deleted is not listed** by a scan that starts afterwards. -/
theorem deleted_broadcast_unlisted (w : WalletId) (txid : TxId) {s : Race}
    (h : Reach (raceSystem w txid) Free s) :
    ∀ scan ∈ s.scans, scan.late = true → scan.found.lookup txid = none := by
  have hi : RaceInv txid s :=
    h.invariant (fun _ => raceInv_init) fun _ _ _ hi _ hstep => raceInv_step hi hstep
  exact hi.unlisted

def queuedRace : Race where
  clock := 0
  queueDir := true
  dir := queuedAfterTransport.state.dir
  servers := queuedAfterTransport.state.servers
  scans := []
  retries := []
  deleted := false

def succeedingEnv : RetryEnv :=
  { (failingCall "" "").env with rounds := fun _ => ⟨.ok, fun _ => true⟩ }

/-- The first retry removes the files, the second one writes its metadata behind it. -/
def failsBehindSuccess : List RaceAction :=
  [RaceAction.startRetry succeedingEnv 7, .startRetry (failingCall "weird" "").env 7,
      .retry 0 1 0] ++
    List.replicate 6 (RaceAction.scan 0 [7]) ++ [RaceAction.retry 1 1 0] ++
    List.replicate 6 (RaceAction.scan 1 [7]) ++ [RaceAction.retry 0 1 0, .retry 1 1 0] ++
    List.replicate 3 (RaceAction.retry 0 1 0) ++ List.replicate 5 (RaceAction.retry 1 1 0)

theorem deleted_broadcast_unlisted_fails : ∃ s, Reach (raceSystem 1 7) Free s ∧
    s.deleted = true ∧ (s.dir.file (.json 7)).isSome = true ∧
    ∃ scan ∈ s.scans, scan.late = true ∧ scan.pc.removing?.map Prod.fst = some 7 ∧
      scan.found.lookup 7 = none := by
  obtain ⟨s, hs, hdeleted, hjson, scan, hscan, hlate, hremoving⟩ :=
    exec_reach (S := raceSystem 1 7) (G := Free) (s := queuedRace)
      (p := fun s => s.deleted = true ∧ (s.dir.file (.json 7)).isSome = true ∧
        ∃ scan ∈ s.scans, scan.late = true ∧ scan.pc.removing?.map Prod.fst = some 7)
      (failsBehindSuccess ++ .startScan :: List.replicate 5 (.scan 2 [7]))
      ⟨rfl, rfl, rfl⟩ (along_free _ _) (by decide +kernel)
  exact ⟨s, hs, hdeleted, hjson, scan, hscan, hlate, hremoving,
    deleted_broadcast_unlisted 1 7 hs scan hscan hlate⟩

end ZbagRetry
