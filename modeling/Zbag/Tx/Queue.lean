import Zbag.Lib.Directory
import Zbag.Lib.Transition
import Zbag.Tx.RetryPolicy

/-!
# Transactions — the queue on disk

A transaction that could not be broadcast is kept in two files of the queue directory, its sealed
bytes and its metadata. A queueing call writes them one after the other; scans by other instances
of the service run beside it and clear away what looks broken: metadata that cannot be parsed,
metadata without bytes, and entries past the retention.
-/

namespace ZbagQueue

open ZbagTx Transition

inductive QueueFile
  | bin (txid : TxId)
  | json (txid : TxId)
  | temp (uuid : ℕ)
  deriving DecidableEq, Repr

structure SealedTx where
  walletId : ℕ
  txid : TxId
  bytes : List ℕ
  deriving DecidableEq, Repr

inductive FileData
  | empty
  | tx (sealed : SealedTx)
  | json (entry : QueuedBroadcastMeta)
  | other
  deriving DecidableEq, Repr

abbrev QueueDir := Directory QueueFile FileData

/-! ## Writing a file -/

inductive WritePc
  | create
  | fill (handle : ℕ)
  | createTemp
  | fillTemp (uuid handle : ℕ)
  | renameTemp (uuid : ℕ)
  deriving DecidableEq, Repr

/-- `none` is its return. -/
def writeFileSecure (d : QueueDir) (path : QueueFile) (data : FileData) (uuid : ℕ) :
    WritePc → Option (QueueDir × Option WritePc)
  | .create =>
    if (d.file path).isSome then some (d, some .createTemp)
    else some (d.create path .empty, some (.fill d.next))
  | .fill handle => some (d.write handle data, none)
  | .createTemp =>
    if (d.file (.temp uuid)).isSome then none
    else some (d.create (.temp uuid) .empty, some (.fillTemp uuid d.next))
  | .fillTemp uuid handle => some (d.write handle data, some (.renameTemp uuid))
  | .renameTemp uuid => some (d.rename (.temp uuid) path, none)

/-! ## The queueing call -/

/-- With the metadata for a given creation time. -/
structure QueueCall where
  txid : TxId
  tx : SealedTx
  entry : ℤ → QueuedBroadcastMeta
  createdAtMs_entry : ∀ createdAtMs, (entry createdAtMs).createdAtMs = createdAtMs

def queueBroadcast (walletId : ℕ) (txid : TxId) (bytes : List ℕ) (lastError : Option String)
    (lastErrorClass : Option BroadcastErrorClass) (retryable : Bool) (delayMs : ℤ) : QueueCall where
  txid := txid
  tx := ⟨walletId, txid, bytes⟩
  entry := queueBroadcastMeta lastError lastErrorClass retryable delayMs
  createdAtMs_entry _ := rfl

def queueBroadcastForRetry (walletId : ℕ) (txid : TxId) (bytes : List ℕ)
    (lastError : Option String) (lastErrorClass : Option BroadcastErrorClass) (retryable : Bool)
    (delayMs : ℤ) : QueueCall where
  txid := txid
  tx := ⟨walletId, txid, bytes⟩
  entry := queueBroadcastForRetryMeta lastError lastErrorClass retryable delayMs
  createdAtMs_entry _ := rfl

/-- `clock` is between its two files. -/
inductive CallPc
  | mkdir
  | bin (pc : WritePc)
  | clock
  | json (createdAtMs : ℤ) (pc : WritePc)
  | returned (createdAtMs : ℤ)
  deriving DecidableEq, Repr

def CallPc.isReturned : CallPc → Bool
  | .returned _ => true
  | .mkdir | .bin _ | .clock | .json .. => false

/-! ## Scans -/

/-- With the metadata file read for the entry at hand, and the entries left. -/
inductive ScanPc
  | start
  | clock
  | readDir
  | loop (todo : List TxId)
  | checkBin (txid : TxId) (id : ℕ) (entry : QueuedBroadcastMeta) (todo : List TxId)
  | removeBin (txid : TxId) (file : File FileData) (todo : List TxId)
  | removeJson (txid : TxId) (file : File FileData) (todo : List TxId)
  | done
  deriving DecidableEq, Repr

/-- `late`: it started after the call returned. -/
structure Scan where
  late : Bool
  now : Time
  pc : ScanPc
  found : List (TxId × QueuedBroadcastMeta)
  deriving DecidableEq, Repr

/-! ## The system -/

structure Queue where
  clock : Time
  /-- the queue directory exists -/
  queueDir : Bool
  dir : QueueDir
  call : CallPc
  scans : List Scan
  deleted : Bool

def callStep (c : QueueCall) (s : Queue) (uuid : ℕ) : Option Queue :=
  match s.call with
  | .mkdir => some { s with queueDir := true, call := .bin .create }
  | .bin pc =>
    (writeFileSecure s.dir (.bin c.txid) (.tx c.tx) uuid pc).map fun (d, next) =>
      { s with dir := d, call := next.elim .clock .bin }
  | .clock => some { s with call := .json (toUnixMs s.clock) .create }
  | .json createdAtMs pc =>
    (writeFileSecure s.dir (.json c.txid) (.json (c.entry createdAtMs)) uuid pc).map
      fun (d, next) =>
        { s with dir := d, call := next.elim (.returned createdAtMs) (.json createdAtMs) }
  | .returned _ => none

/-- A file that comes later may be named too. -/
def Covers (d : QueueDir) (names : List TxId) : Prop :=
  ∀ path ∈ d.list, ∀ txid, path = .json txid → txid ∈ names

instance (d : QueueDir) (names : List TxId) : Decidable (Covers d names) :=
  have : ∀ path : QueueFile, Decidable (∀ txid, path = .json txid → txid ∈ names)
    | .json txid => decidable_of_iff (txid ∈ names)
        ⟨fun h _ he => by cases he; exact h, fun h => h txid rfl⟩
    | .bin _ => isTrue nofun
    | .temp _ => isTrue nofun
  inferInstanceAs (Decidable (∀ path ∈ d.list, _))

def scanStep (s : Queue) (scan : Scan) (names : List TxId) : Option (QueueDir × Scan) :=
  match scan.pc with
  | .start => some (s.dir, { scan with pc := if s.queueDir then .clock else .done })
  | .clock => some (s.dir, { scan with now := s.clock, pc := .readDir })
  | .readDir => if Covers s.dir names then some (s.dir, { scan with pc := .loop names }) else none
  | .loop [] => some (s.dir, { scan with pc := .done })
  | .loop (txid :: todo) =>
    match s.dir.file (.json txid) with
    | none => some (s.dir, { scan with pc := .loop todo })
    | some ⟨id, .json entry⟩ => some (s.dir, { scan with pc := .checkBin txid id entry todo })
    -- metadata that cannot be parsed
    | some file => some (s.dir, { scan with pc := .removeJson txid file todo })
  | .checkBin txid id entry todo =>
    if (s.dir.file (.bin txid)).isSome then
      if retentionExpired scan.now entry then
        some (s.dir, { scan with pc := .removeBin txid ⟨id, .json entry⟩ todo })
      else
        some (s.dir,
          { scan with
            pc := .loop todo
            found := (txid, normalizeQueuedBroadcastMeta entry (toUnixMs scan.now)) :: scan.found })
    -- metadata without bytes
    else some (s.dir, { scan with pc := .removeJson txid ⟨id, .json entry⟩ todo })
  | .removeBin txid file todo =>
    some (s.dir.remove (.bin txid), { scan with pc := .removeJson txid file todo })
  | .removeJson txid _ todo =>
    some (s.dir.remove (.json txid), { scan with pc := .loop todo })
  | .done => none

inductive Action
  | tick (by_ : ℕ)
  | call (uuid : ℕ)
  | startScan
  | scan (i : ℕ) (names : List TxId)
  /-- `delete_queued_broadcast` -/
  | delete
  deriving DecidableEq, Repr

def step (c : QueueCall) (s : Queue) : Action → Option Queue
  | .tick n => some { s with clock := s.clock + n }
  | .call uuid => callStep c s uuid
  | .startScan => some { s with scans := s.scans ++ [⟨s.call.isReturned, 0, .start, []⟩] }
  | .scan i names =>
    s.scans[i]?.bind fun scan =>
      (scanStep s scan names).map fun (d, scan') =>
        { s with dir := d, scans := s.scans.set i scan' }
  | .delete =>
    if s.call.isReturned then
      some { s with dir := (s.dir.remove (.bin c.txid)).remove (.json c.txid), deleted := true }
    else none

/-- **A queueing call beside scans**, in any directory and at any time. -/
def queueSystem (c : QueueCall) : System Queue Action where
  init s := s.call = .mkdir ∧ s.scans = [] ∧ s.deleted = false
  step := step c

/-! ## A scan alone -/

def storedEntry (d : QueueDir) (txid : TxId) : Option QueuedBroadcastMeta :=
  match d.file (.json txid) with
  | some ⟨_, .json entry⟩ => if (d.file (.bin txid)).isSome then some entry else none
  | _ => none

def deleteQueuedBroadcast (d : QueueDir) (txid : TxId) : QueueDir :=
  (d.remove (.bin txid)).remove (.json txid)

abbrev QueuedBroadcasts := List (TxId × QueuedBroadcastMeta)

def scanEntry (now : Time) (acc : QueueDir × QueuedBroadcasts) (txid : TxId) :
    QueueDir × QueuedBroadcasts :=
  match acc.1.file (.json txid) with
  | none => acc
  | some ⟨_, .json entry⟩ =>
    if (acc.1.file (.bin txid)).isSome then
      if retentionExpired now entry then (deleteQueuedBroadcast acc.1 txid, acc.2)
      else (acc.1, (txid, normalizeQueuedBroadcastMeta entry (toUnixMs now)) :: acc.2)
    else (acc.1.remove (.json txid), acc.2)
  | some _ => (acc.1.remove (.json txid), acc.2)

def QueueFile.jsonTxid? : QueueFile → Option TxId
  | .json txid => some txid
  | .bin _ | .temp _ => none

def jsonTxids (d : QueueDir) : List TxId := d.list.filterMap QueueFile.jsonTxid?

/-- No other call uses the directory. -/
def scanQueuedBroadcasts (now : Time) (d : QueueDir) : QueueDir × QueuedBroadcasts :=
  (jsonTxids d).foldl (scanEntry now) (d, [])

theorem mem_jsonTxids {d : QueueDir} {txid : TxId} :
    txid ∈ jsonTxids d ↔ (d.file (.json txid)).isSome = true := by
  rw [jsonTxids, List.mem_filterMap, ← Directory.mem_list]
  constructor
  · rintro ⟨path, hmem, hpath⟩
    cases path with
    | json txid' =>
      cases hpath
      exact hmem
    | bin _ | temp _ => cases hpath
  · exact fun hmem => ⟨_, hmem, rfl⟩

theorem covers_jsonTxids (d : QueueDir) : Covers d (jsonTxids d) := by
  rintro path hmem txid rfl
  rw [mem_jsonTxids, ← Directory.mem_list]
  exact hmem

section Alone

variable (c : QueueCall) {s : Queue} {i : ℕ} {scan : Scan}

def Queue.withScan (s : Queue) (i : ℕ) (r : QueueDir × Scan) : Queue :=
  { s with dir := r.1, scans := s.scans.set i r.2 }

theorem path_scanStep (names : List TxId) (hscan : s.scans[i]? = some scan) {d : QueueDir}
    {scan' : Scan} (h : scanStep s scan names = some (d, scan')) :
    Path (queueSystem c) Free s (s.withScan i (d, scan')) := by
  refine Path.single (a := .scan i names) trivial ?_
  show s.scans[i]?.bind _ = _
  rw [hscan, Option.bind_some, h]
  rfl

theorem withScan_getElem? (hscan : s.scans[i]? = some scan) (r : QueueDir × Scan) :
    (s.withScan i r).scans[i]? = some r.2 := by
  obtain ⟨hi, _⟩ := List.getElem?_eq_some_iff.mp hscan
  exact List.getElem?_set_self hi

theorem withScan_withScan (s : Queue) (i : ℕ) (r r' : QueueDir × Scan) :
    (s.withScan i r).withScan i r' = s.withScan i r' := by
  simp only [Queue.withScan, List.set_set]

theorem path_withScan (names : List TxId) (hscan : s.scans[i]? = some scan) {d d' : QueueDir}
    {scan₁ scan' : Scan}
    (h : scanStep (s.withScan i (d, scan₁)) scan₁ names = some (d', scan')) :
    Path (queueSystem c) Free (s.withScan i (d, scan₁)) (s.withScan i (d', scan')) := by
  have hstep := path_scanStep c names (withScan_getElem? hscan (d, scan₁)) h
  rwa [withScan_withScan] at hstep

theorem path_scanEntry {txid : TxId} {todo : List TxId} {late : Bool} {now : Time}
    {found : QueuedBroadcasts}
    (hscan : s.scans[i]? = some ⟨late, now, .loop (txid :: todo), found⟩) :
    Path (queueSystem c) Free s (s.withScan i ((scanEntry now (s.dir, found) txid).1,
      ⟨late, now, .loop todo, (scanEntry now (s.dir, found) txid).2⟩)) := by
  unfold scanEntry
  dsimp only
  split
  next hfile =>
    refine path_scanStep c [] hscan ?_
    simp only [scanStep, hfile]
  next id entry hfile =>
    have hread : Path (queueSystem c) Free s
        (s.withScan i (s.dir, ⟨late, now, .checkBin txid id entry todo, found⟩)) := by
      refine path_scanStep c [] hscan ?_
      simp only [scanStep, hfile]
    refine hread.trans ?_
    -- the entry that cannot be kept is removed by further steps
    split_ifs with hbin hold
    · refine .trans
        (t := s.withScan i (s.dir, ⟨late, now, .removeBin txid ⟨id, .json entry⟩ todo, found⟩))
        (path_withScan c [] hscan ?_)
        ((path_withScan c [] hscan rfl).trans (path_withScan c [] hscan rfl))
      simp only [scanStep, Queue.withScan, hbin, hold, if_true]
    · refine path_withScan c [] hscan ?_
      simp only [scanStep, Queue.withScan, hbin, hold, if_true, Bool.false_eq_true, if_false]
    · refine .trans
        (t := s.withScan i (s.dir, ⟨late, now, .removeJson txid ⟨id, .json entry⟩ todo, found⟩))
        (path_withScan c [] hscan ?_) (path_withScan c [] hscan rfl)
      simp only [scanStep, Queue.withScan, hbin, Bool.false_eq_true, if_false]
  next file hjson hfile =>
    have hread : Path (queueSystem c) Free s
        (s.withScan i (s.dir, ⟨late, now, .removeJson txid file todo, found⟩)) := by
      refine path_scanStep c [] hscan ?_
      simp only [scanStep, hfile]
    exact hread.trans (path_withScan c [] hscan rfl)

theorem path_scanLoop {todo : List TxId} {late : Bool} {now : Time} {found : QueuedBroadcasts}
    (hscan : s.scans[i]? = some ⟨late, now, .loop todo, found⟩) :
    Path (queueSystem c) Free s (s.withScan i ((todo.foldl (scanEntry now) (s.dir, found)).1,
      ⟨late, now, .done, (todo.foldl (scanEntry now) (s.dir, found)).2⟩)) := by
  induction todo generalizing s found with
  | nil => exact path_scanStep c [] hscan rfl
  | cons txid todo ih =>
    have hrest := ih (withScan_getElem? hscan ((scanEntry now (s.dir, found) txid).1,
      ⟨late, now, .loop todo, (scanEntry now (s.dir, found) txid).2⟩))
    rw [withScan_withScan] at hrest
    exact (path_scanEntry c hscan).trans hrest

end Alone

section Find

variable {now : Time} {d : QueueDir} {txid : TxId}

def liveEntry (now : Time) (d : QueueDir) (txid : TxId) : Option QueuedBroadcastMeta :=
  (storedEntry d txid).filter fun entry => !retentionExpired now entry

variable {d' : QueueDir} {entry : QueuedBroadcastMeta}

theorem storedEntry_congr {d : QueueDir} (hj : d'.file (.json txid) = d.file (.json txid))
    (hb : d'.file (.bin txid) = d.file (.bin txid)) : storedEntry d' txid = storedEntry d txid := by
  unfold storedEntry
  rw [hj, hb]

theorem storedEntry_of_json_none (h : d.file (.json txid) = none) : storedEntry d txid = none := by
  unfold storedEntry
  rw [h]

theorem storedEntry_eq_some :
    storedEntry d txid = some entry ↔
      (∃ id, d.file (.json txid) = some ⟨id, .json entry⟩) ∧
        (d.file (.bin txid)).isSome = true := by
  unfold storedEntry
  constructor
  · intro h
    split at h
    next id entry' hfile =>
      split_ifs at h with hbin
      cases h
      exact ⟨⟨id, hfile⟩, hbin⟩
    next => cases h
  · rintro ⟨⟨id, hfile⟩, hbin⟩
    rw [hfile]
    exact if_pos hbin

theorem file_delete_of_ne {txid' : TxId} (h : txid ≠ txid') :
    (deleteQueuedBroadcast d txid').file (.json txid) = d.file (.json txid) ∧
      (deleteQueuedBroadcast d txid').file (.bin txid) = d.file (.bin txid) := by
  unfold deleteQueuedBroadcast
  constructor
  · rw [Directory.file_remove_of_ne _ (fun he => h (QueueFile.json.inj he)),
      Directory.file_remove_of_ne _ QueueFile.noConfusion]
  · rw [Directory.file_remove_of_ne _ QueueFile.noConfusion,
      Directory.file_remove_of_ne _ (fun he => h (QueueFile.bin.inj he))]

theorem storedEntry_of_thins {d : QueueDir} (h : Directory.Thins d d')
    (hm : storedEntry d' txid = some entry) :
    storedEntry d txid = some entry := by
  obtain ⟨⟨id, hfile⟩, hbin⟩ := storedEntry_eq_some.mp hm
  obtain ⟨bin, hbin⟩ := Option.isSome_iff_exists.mp hbin
  refine storedEntry_eq_some.mpr ⟨⟨id, h _ _ hfile⟩, ?_⟩
  rw [h _ _ hbin]
  rfl

theorem thins_delete (d : QueueDir) (txid : TxId) :
    Directory.Thins d (deleteQueuedBroadcast d txid) :=
  (Directory.thins_remove d _).trans (Directory.thins_remove _ _)

theorem thins_scanEntry (now : Time) (acc : QueueDir × QueuedBroadcasts) (txid : TxId) :
    Directory.Thins acc.1 (scanEntry now acc txid).1 := by
  unfold scanEntry
  split
  · exact .refl _
  · split_ifs
    · exact thins_delete _ _
    · exact .refl _
    · exact Directory.thins_remove _ _
  · exact Directory.thins_remove _ _

theorem thins_foldl (now : Time) (todo : List TxId) (acc : QueueDir × QueuedBroadcasts) :
    Directory.Thins acc.1 (todo.foldl (scanEntry now) acc).1 := by
  induction todo generalizing acc with
  | nil => exact .refl _
  | cons txid todo ih => exact (thins_scanEntry now acc txid).trans (ih _)

/-- **A scan only takes files away.** -/
theorem thins_scan (now : Time) (d : QueueDir) :
    Directory.Thins d (scanQueuedBroadcasts now d).1 :=
  thins_foldl now _ (d, [])

theorem storedEntry_delete (d : QueueDir) (txid : TxId) :
    storedEntry (deleteQueuedBroadcast d txid) txid = none :=
  storedEntry_of_json_none (Directory.file_remove ..)

theorem scanEntry_of_ne (now : Time) (acc : QueueDir × QueuedBroadcasts) {txid' : TxId}
    (h : txid ≠ txid') :
    (scanEntry now acc txid').1.file (.json txid) = acc.1.file (.json txid) ∧
      (scanEntry now acc txid').1.file (.bin txid) = acc.1.file (.bin txid) ∧
      (scanEntry now acc txid').2.lookup txid = acc.2.lookup txid := by
  have hremove : (acc.1.remove (.json txid')).file (.json txid) = acc.1.file (.json txid) ∧
      (acc.1.remove (.json txid')).file (.bin txid) = acc.1.file (.bin txid) :=
    ⟨Directory.file_remove_of_ne _ (fun he => h (QueueFile.json.inj he)),
      Directory.file_remove_of_ne _ QueueFile.noConfusion⟩
  unfold scanEntry
  split
  · exact ⟨rfl, rfl, rfl⟩
  · split_ifs
    · exact ⟨(file_delete_of_ne h).1, (file_delete_of_ne h).2, rfl⟩
    · refine ⟨rfl, rfl, ?_⟩
      rw [List.lookup_cons, beq_false_of_ne h]
    · exact ⟨hremove.1, hremove.2, rfl⟩
  · exact ⟨hremove.1, hremove.2, rfl⟩

theorem scanEntry_live (found : QueuedBroadcasts) (h : liveEntry now d txid = some entry) :
    scanEntry now (d, found) txid =
      (d, (txid, normalizeQueuedBroadcastMeta entry (toUnixMs now)) :: found) := by
  obtain ⟨hstored, hyoung⟩ := Option.filter_eq_some_iff.mp h
  obtain ⟨⟨id, hfile⟩, hbin⟩ := storedEntry_eq_some.mp hstored
  rw [Bool.not_eq_true'] at hyoung
  unfold scanEntry
  dsimp only
  rw [hfile]
  simp only [hbin, hyoung, if_true, Bool.false_eq_true, if_false]

theorem scanEntry_dead (found : QueuedBroadcasts) (h : liveEntry now d txid = none) :
    (scanEntry now (d, found) txid).1.file (.json txid) = none ∧
      (scanEntry now (d, found) txid).2 = found := by
  unfold scanEntry
  dsimp only
  split
  next hfile => exact ⟨hfile, rfl⟩
  next id entry hfile =>
    split_ifs with hbin hold
    · exact ⟨Directory.file_remove .., rfl⟩
    · have hstored := storedEntry_eq_some.mpr ⟨⟨id, hfile⟩, hbin⟩
      have hlive : liveEntry now d txid = some entry :=
        Option.filter_eq_some_iff.mpr ⟨hstored, by rw [Bool.not_eq_true']; simpa using hold⟩
      rw [hlive] at h
      cases h
    · exact ⟨Directory.file_remove .., rfl⟩
  next => exact ⟨Directory.file_remove .., rfl⟩

theorem liveEntry_congr {d : QueueDir} (hj : d'.file (.json txid) = d.file (.json txid))
    (hb : d'.file (.bin txid) = d.file (.bin txid)) :
    liveEntry now d' txid = liveEntry now d txid := by
  unfold liveEntry
  rw [storedEntry_congr hj hb]

theorem foldl_live {todo : List TxId} (acc : QueueDir × QueuedBroadcasts)
    (h : liveEntry now acc.1 txid = some entry)
    (hfound : txid ∈ todo ∨
      acc.2.lookup txid = some (normalizeQueuedBroadcastMeta entry (toUnixMs now))) :
    (todo.foldl (scanEntry now) acc).1.file (.json txid) = acc.1.file (.json txid) ∧
      (todo.foldl (scanEntry now) acc).1.file (.bin txid) = acc.1.file (.bin txid) ∧
      (todo.foldl (scanEntry now) acc).2.lookup txid =
        some (normalizeQueuedBroadcastMeta entry (toUnixMs now)) := by
  induction todo generalizing acc with
  | nil => exact ⟨rfl, rfl, hfound.resolve_left List.not_mem_nil⟩
  | cons other todo ih =>
    rw [List.foldl_cons]
    by_cases he : txid = other
    · subst he
      have hstep := scanEntry_live acc.2 h
      rw [hstep]
      exact ih _ h (.inr (by rw [List.lookup_cons, beq_self_eq_true]))
    · obtain ⟨hj, hb, hl⟩ := scanEntry_of_ne now acc he
      obtain ⟨hj', hb', hl'⟩ := ih (scanEntry now acc other)
        (by rw [liveEntry_congr hj hb]; exact h)
        (hfound.imp (fun hm => (List.mem_cons.mp hm).resolve_left he) (by rw [hl]; exact id))
      exact ⟨hj'.trans hj, hb'.trans hb, hl'⟩

theorem foldl_dead {todo : List TxId} (acc : QueueDir × QueuedBroadcasts)
    (h : liveEntry now acc.1 txid = none) (hfound : acc.2.lookup txid = none)
    (hj : txid ∈ todo ∨ acc.1.file (.json txid) = none) :
    (todo.foldl (scanEntry now) acc).1.file (.json txid) = none ∧
      (todo.foldl (scanEntry now) acc).2.lookup txid = none := by
  induction todo generalizing acc with
  | nil => exact ⟨hj.resolve_left List.not_mem_nil, hfound⟩
  | cons other todo ih =>
    rw [List.foldl_cons]
    by_cases he : txid = other
    · subst he
      obtain ⟨hnone, hsame⟩ := scanEntry_dead acc.2 h
      refine ih (scanEntry now acc txid) ?_ (by rw [hsame]; exact hfound) (.inr hnone)
      rw [liveEntry, storedEntry_of_json_none hnone]
      rfl
    · obtain ⟨hj', hb, hl⟩ := scanEntry_of_ne now acc he
      refine ih (scanEntry now acc other) (by rw [liveEntry_congr hj' hb]; exact h)
        (by rw [hl]; exact hfound) ?_
      rw [hj']
      exact hj.imp_left fun hm => (List.mem_cons.mp hm).resolve_left he

theorem scan_live (h : liveEntry now d txid = some entry) :
    (scanQueuedBroadcasts now d).1.file (.json txid) = d.file (.json txid) ∧
      (scanQueuedBroadcasts now d).1.file (.bin txid) = d.file (.bin txid) ∧
      (scanQueuedBroadcasts now d).2.lookup txid =
        some (normalizeQueuedBroadcastMeta entry (toUnixMs now)) := by
  obtain ⟨⟨id, hfile⟩, _⟩ := storedEntry_eq_some.mp (Option.filter_eq_some_iff.mp h).1
  exact foldl_live _ h (.inl (mem_jsonTxids.mpr (by rw [hfile]; rfl)))

theorem scan_dead (h : liveEntry now d txid = none) :
    (scanQueuedBroadcasts now d).1.file (.json txid) = none ∧
      (scanQueuedBroadcasts now d).2.lookup txid = none := by
  refine foldl_dead _ h rfl ?_
  rw [mem_jsonTxids]
  cases d.file (.json txid) with
  | none => exact .inr rfl
  | some file => exact .inl rfl

/-- **What a scan finds of a transaction**: its entry, normalised, unless it is past the
retention. -/
theorem lookup_scan (now : Time) (d : QueueDir) (txid : TxId) :
    (scanQueuedBroadcasts now d).2.lookup txid =
      (liveEntry now d txid).map fun entry =>
        normalizeQueuedBroadcastMeta entry (toUnixMs now) := by
  cases h : liveEntry now d txid with
  | none => exact (scan_dead h).2
  | some entry => exact (scan_live h).2.2

/-- **What a scan leaves of a transaction.** -/
theorem storedEntry_scan (now : Time) (d : QueueDir) (txid : TxId) :
    storedEntry (scanQueuedBroadcasts now d).1 txid = liveEntry now d txid := by
  cases h : liveEntry now d txid with
  | none => exact storedEntry_of_json_none (scan_dead h).1
  | some entry =>
    obtain ⟨hj, hb, _⟩ := scan_live h
    rw [storedEntry_congr hj hb]
    exact (Option.filter_eq_some_iff.mp h).1

end Find

end ZbagQueue
