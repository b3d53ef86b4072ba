import Zbag.Lib.Channel
import Zbag.Lib.Transition
import Zbag.Sync.Batch

/-!
# Sync — the pipelined download and scan of one range

One range of a sync round runs two tasks over a bounded channel: the download task fetches
batches and sends them, the scan loop receives, caches and scans them, and waits for the download
task once it has left its loop. Each step of the model is the code between two points at which the
other task can see a difference; what the network, the disk and the scanner answer is part of the
action.
-/

namespace ZbagSync

open Channel Transition

structure ScanRange where
  start : ℕ
  stop : ℕ
  stop_le : stop ≤ u32Max
  deriving DecidableEq, Repr

structure DownloadedBatch where
  rangeStart : ℕ
  rangeEnd : ℕ
  deriving DecidableEq, Repr

inductive DownloadResult
  | batch (b : DownloadedBatch)
  | rangeComplete
  | error
  | cancelled
  deriving DecidableEq, Repr

inductive DownloadPc
  | check
  | sizing
  | downloading (batchEnd : ℕ)
  | sending (r : DownloadResult)
  | finished
  deriving DecidableEq, Repr

inductive RangeExit
  | autoSync
  | syncLoop
  | rangeDone
  | aborted
  deriving DecidableEq, Repr

inductive ScanPc
  | progress
  | rangeTree
  | recv
  | received (r : DownloadResult)
  | caching (b : DownloadedBatch)
  | batchTree (b : DownloadedBatch)
  | scanning (b : DownloadedBatch)
  | emitting
  | joining
  | left (e : RangeExit)
  deriving DecidableEq, Repr

structure State where
  cancelled : Bool
  controller : AdaptiveBatchController
  current : ℕ
  download : DownloadPc
  chan : Chan DownloadResult lookaheadBatches
  scan : ScanPc
  isFirstBatchInRange : Bool
  rangeError : Bool
  rangeCancelled : Bool
  deriving DecidableEq, Repr

inductive Answer
  | done
  | failed
  | success (nanos : ℕ) (activity : ScanBatchActivity)
  | reorgDetected
  | error
  deriving DecidableEq, Repr

/-- `cancel` and `abort` are the two halves of `stop_sync`. -/
inductive Action
  | cancel
  | abort
  | download (ok : Bool)
  | scan (answer : Answer)
  deriving DecidableEq, Repr

def batchEnd (c : AdaptiveBatchController) (R : ScanRange) (current : ℕ) : ℕ :=
  min (saturatingAdd current (c.nextDownloadSize current)) R.stop

theorem lt_batchEnd (c : AdaptiveBatchController) {R : ScanRange} {current : ℕ}
    (h : current < R.stop) : current < batchEnd c R current := by
  have hpos := c.nextDownloadSize_pos current
  have hstop := R.stop_le
  unfold batchEnd saturatingAdd
  omega

/-! ## The download task -/

/-- A batch that was accepted moves the task on. -/
def sendResult (s : State) (r : DownloadResult) : Option State :=
  match s.chan.send r with
  | none => none
  | some (chan, ok) =>
    match r, ok with
    | .batch b, true => some { s with chan, current := b.rangeEnd, download := .check }
    | _, _ => some { s with chan, download := .finished }

def downloadStep (R : ScanRange) (s : State) (ok : Bool) : Option State :=
  match s.download with
  | .check =>
    if s.current < R.stop then
      if s.cancelled then some { s with download := .sending .cancelled }
      else some { s with download := .sizing }
    else some { s with download := .sending .rangeComplete }
  | .sizing => some { s with download := .downloading (batchEnd s.controller R s.current) }
  | .downloading e =>
    if ok then some { s with download := .sending (.batch ⟨s.current, e⟩) }
    else some { s with download := .sending .error }
  | .sending r => sendResult s r
  | .finished => none

def DownloadResult.isBatch : DownloadResult → Bool
  | .batch _ => true
  | _ => false

/-- What a step of the download task does. -/
inductive DownloadMove (R : ScanRange) (s : State) (ok : Bool) : State → Prop
  | stop : s.download = .check → s.current < R.stop → s.cancelled = true →
      DownloadMove R s ok { s with download := .sending .cancelled }
  | size : s.download = .check → s.current < R.stop → s.cancelled = false →
      DownloadMove R s ok { s with download := .sizing }
  | complete : s.download = .check → R.stop ≤ s.current →
      DownloadMove R s ok { s with download := .sending .rangeComplete }
  | request : s.download = .sizing →
      DownloadMove R s ok { s with download := .downloading (batchEnd s.controller R s.current) }
  | fetch {e : ℕ} : s.download = .downloading e →
      DownloadMove R s ok { s with download := .sending (.batch ⟨s.current, e⟩) }
  | fail {e : ℕ} : ok = false → s.download = .downloading e →
      DownloadMove R s ok { s with download := .sending .error }
  | next {b : DownloadedBatch} {chan : Chan DownloadResult lookaheadBatches} :
      s.download = .sending (.batch b) → chan.alive = s.chan.alive →
      chan.queue = s.chan.queue ++ [.batch b] →
      DownloadMove R s ok { s with chan, current := b.rangeEnd, download := .check }
  | last {r : DownloadResult} {chan : Chan DownloadResult lookaheadBatches} :
      s.download = .sending r → r.isBatch = false → chan.alive = s.chan.alive →
      chan.queue = s.chan.queue ++ [r] → DownloadMove R s ok { s with chan, download := .finished }
  | gone {r : DownloadResult} : s.download = .sending r → s.chan.alive = false →
      DownloadMove R s ok { s with download := .finished }

theorem sendResult_move {R : ScanRange} {s t : State} {r : DownloadResult} {ok : Bool}
    (hd : s.download = .sending r) (h : sendResult s r = some t) : DownloadMove R s ok t := by
  unfold sendResult at h
  split at h
  · cases h
  · rename_i chan accepted hsend
    rcases Chan.send_eq_some hsend with ⟨rfl, hs, hc, hq⟩ | ⟨rfl, hs, rfl⟩
    · cases r <;> cases h
      · exact .next hd (hc.trans hs.symm) hq
      all_goals exact .last hd rfl (hc.trans hs.symm) hq
    · cases r <;> cases h <;> exact .gone hd hs

theorem downloadStep_move {R : ScanRange} {s t : State} {ok : Bool}
    (h : downloadStep R s ok = some t) : DownloadMove R s ok t := by
  unfold downloadStep at h
  split at h
  · split_ifs at h with hlt hc <;> cases h
    · exact .stop ‹_› hlt hc
    · exact .size ‹_› hlt (Bool.eq_false_of_not_eq_true hc)
    · exact .complete ‹_› (not_lt.mp hlt)
  · cases h
    exact .request ‹_›
  · split_ifs at h with hok <;> cases h
    · exact .fetch ‹_›
    · exact .fail (Bool.eq_false_of_not_eq_true hok) ‹_›
  · exact sendResult_move ‹_› h
  · cases h

/-! ## The scan task -/

/-- The receiver goes out of scope. -/
def leave (s : State) (e : RangeExit) : State :=
  { s with scan := .left e, chan := s.chan.dropReceiver }

def exitAfterJoin (s : State) : RangeExit :=
  if s.rangeCancelled then .autoSync else if s.rangeError then .syncLoop else .rangeDone

/-- `None` once the sender is gone and the channel is empty. -/
def recvStep (s : State) : Option State :=
  match s.chan.recv with
  | some (r, chan) => some { s with chan, scan := .received r }
  | none => if s.download = .finished then some { s with scan := .joining } else none

def scanStep (s : State) (answer : Answer) : Option State :=
  match s.scan, answer with
  | .progress, .done => some { s with scan := .rangeTree }
  | .progress, .failed => some (leave s .autoSync)
  | .rangeTree, .done => some { s with scan := .recv }
  | .rangeTree, .failed => some (leave s .syncLoop)
  | .recv, .done => recvStep s
  | .received (.batch b), .done =>
    if s.cancelled then some { s with rangeCancelled := true, scan := .joining }
    else some { s with scan := .caching b }
  | .received .rangeComplete, .done => some { s with scan := .joining }
  | .received .error, .done => some { s with rangeError := true, scan := .joining }
  | .received .cancelled, .done => some { s with rangeCancelled := true, scan := .joining }
  | .caching b, .done =>
    if s.isFirstBatchInRange then some { s with isFirstBatchInRange := false, scan := .scanning b }
    else some { s with scan := .batchTree b }
  | .caching _, .failed => some (leave s .autoSync)
  | .batchTree b, .done => some { s with scan := .scanning b }
  | .batchTree _, .failed => some { s with rangeError := true, scan := .joining }
  | .scanning b, .success nanos activity =>
    some { s with
      controller := (s.controller.recordScanResult b.rangeStart nanos activity).1
      scan := .emitting }
  | .scanning _, .reorgDetected => some { s with scan := .joining }
  | .scanning _, .error => some { s with rangeError := true, scan := .joining }
  | .scanning _, .failed => some (leave s .autoSync)
  | .emitting, .done => some { s with scan := .recv }
  | .joining, .done => if s.download = .finished then some (leave s (exitAfterJoin s)) else none
  | _, _ => none

def ScanPc.atAwait : ScanPc → Bool
  | .received _ => false
  | .left _ => false
  | _ => true

def step (R : ScanRange) (s : State) : Action → Option State
  | .cancel => some { s with cancelled := true }
  | .abort => if s.scan.atAwait then some (leave s .aborted) else none
  | .download ok => downloadStep R s ok
  | .scan answer => scanStep s answer

def start (R : ScanRange) (cancelled : Bool) : State where
  cancelled := cancelled
  controller := .new R.start
  current := R.start
  download := .check
  chan := .new
  scan := .progress
  isFirstBatchInRange := true
  rangeError := false
  rangeCancelled := false

/-- **The pipelined section of one range.** -/
def pipeline (R : ScanRange) : System State Action where
  init s := ∃ cancelled, s = start R cancelled
  step := step R

/-- The step leaves the scan loop on a batch. -/
def leavesEarly (s : State) : Action → Bool
  | .scan answer =>
    match s.scan, answer with
    | .received (.batch _), .done => s.cancelled
    | .batchTree _, .failed => true
    | .scanning _, .reorgDetected => true
    | .scanning _, .error => true
    | _, _ => false
  | _ => false

end ZbagSync
