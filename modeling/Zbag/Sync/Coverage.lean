import Mathlib.Data.List.Basic
import Zbag.Sync.Pipeline

/-!
# Sync — the batches of a range

What the download task of a range asks for and sends, in runs in which `record_scan_result` is
called at any time and with any values, also with such as the scan loop does not give it.
-/

namespace ZbagSync

open Channel Transition

/-! ## What is requested and sent -/

/-- With the arguments of `download_blocks_with_retry` and the messages sent. -/
structure Requests where
  state : State
  requested : List DownloadedBatch
  sent : List DownloadResult

inductive RequestAction
  | task (a : Action)
  | recordScanResult (batchStart nanos : ℕ) (activity : ScanBatchActivity)

def newRequests (R : ScanRange) (s : State) : Action → List DownloadedBatch
  | .download _ =>
    if s.download = .sizing then [⟨s.current, batchEnd s.controller R s.current⟩] else []
  | _ => []

def newMessages (s : State) : Action → List DownloadResult
  | .download _ =>
    match s.download with
    | .sending r => [r]
    | _ => []
  | _ => []

def requestStep (R : ScanRange) (s : Requests) : RequestAction → Option Requests
  | .task a => (step R s.state a).map fun t =>
      ⟨t, s.requested ++ newRequests R s.state a, s.sent ++ newMessages s.state a⟩
  | .recordScanResult batchStart nanos activity =>
    let controller := (s.state.controller.recordScanResult batchStart nanos activity).1
    some { s with state := { s.state with controller } }

def requestLog (R : ScanRange) : System Requests RequestAction where
  init s := ∃ cancelled, s = ⟨start R cancelled, [], []⟩
  step := requestStep R

def DownloadedBatch.heights (b : DownloadedBatch) : List ℕ :=
  List.range' b.rangeStart (b.rangeEnd - b.rangeStart)

def ScanRange.heights (R : ScanRange) : List ℕ := List.range' R.start (R.stop - R.start)

/-! ## Batches side by side -/

/-- The end of the last batch. -/
def frontier (a : ℕ) (bs : List DownloadedBatch) : ℕ := bs.foldl (fun _ b => b.rangeEnd) a

@[simp] theorem frontier_append (a : ℕ) (bs : List DownloadedBatch) (b : DownloadedBatch) :
    frontier a (bs ++ [b]) = b.rangeEnd := by
  simp [frontier]

/-- Of an admissible size, each from the end of the one before. -/
def Adjacent : ℕ → List DownloadedBatch → Prop
  | _, [] => True
  | a, b :: bs => b.rangeStart = a ∧ a < b.rangeEnd ∧ b.rangeEnd ≤ a + adaptiveBatchMaxSize ∧
      Adjacent b.rangeEnd bs

variable {R : ScanRange} {a : ℕ} {bs : List DownloadedBatch} {b : DownloadedBatch}

theorem adjacent_append (h : Adjacent a bs) (hstart : b.rangeStart = frontier a bs)
    (hlt : b.rangeStart < b.rangeEnd) (hle : b.rangeEnd ≤ b.rangeStart + adaptiveBatchMaxSize) :
    Adjacent a (bs ++ [b]) := by
  induction bs generalizing a with
  | nil =>
    obtain rfl : b.rangeStart = a := hstart
    exact ⟨rfl, hlt, hle, trivial⟩
  | cons c bs ih =>
    obtain ⟨h₁, h₂, h₃, hbs⟩ := h
    exact ⟨h₁, h₂, h₃, ih hbs hstart⟩

theorem Adjacent.mem (h : Adjacent a bs) (hb : b ∈ bs) :
    b.rangeStart < b.rangeEnd ∧ b.rangeEnd ≤ b.rangeStart + adaptiveBatchMaxSize := by
  induction bs generalizing a with
  | nil => cases hb
  | cons c bs ih =>
    obtain ⟨rfl, hlt, hle, hbs⟩ := h
    rcases List.mem_cons.mp hb with rfl | hb
    · exact ⟨hlt, hle⟩
    · exact ih hbs hb

theorem Adjacent.isChain (h : Adjacent a bs) :
    bs.IsChain fun b c => b.rangeEnd = c.rangeStart := by
  induction bs generalizing a with
  | nil => exact .nil
  | cons b bs ih =>
    obtain ⟨-, -, -, hbs⟩ := h
    cases bs with
    | nil => exact .singleton b
    | cons c bs => exact .cons_cons hbs.1.symm (ih hbs)

/-- **The heights of the batches** are those between the two ends, in order and each once. -/
theorem Adjacent.heights (h : Adjacent a bs) : a ≤ frontier a bs ∧
    bs.flatMap DownloadedBatch.heights = List.range' a (frontier a bs - a) := by
  induction bs generalizing a with
  | nil => simp [frontier]
  | cons b bs ih =>
    obtain ⟨rfl, hlt, -, hbs⟩ := h
    obtain ⟨hle, hheights⟩ := ih hbs
    have hfrontier : frontier b.rangeStart (b :: bs) = frontier b.rangeEnd bs := rfl
    refine ⟨by omega, ?_⟩
    rw [List.flatMap_cons, hheights, hfrontier, DownloadedBatch.heights]
    have hmid : b.rangeEnd = b.rangeStart + (b.rangeEnd - b.rangeStart) := by omega
    have hsum : frontier b.rangeEnd bs - b.rangeStart =
        b.rangeEnd - b.rangeStart + (frontier b.rangeEnd bs - b.rangeEnd) := by omega
    rw [hsum, ← List.range'_append_1, ← hmid]

/-! ## The invariant -/

def Place (R : ScanRange) (s : Requests) : DownloadPc → Prop
  | .check => s.state.current = frontier R.start s.requested ∧ s.sent = s.requested.map .batch
  | .sizing => s.state.current < R.stop ∧ s.state.current = frontier R.start s.requested ∧
      s.sent = s.requested.map .batch
  | .downloading e => ∃ front, s.requested = front ++ [⟨s.state.current, e⟩] ∧
      s.sent = front.map .batch
  | .sending (.batch b) => ∃ front, s.requested = front ++ [b] ∧ s.sent = front.map .batch
  | .sending .rangeComplete => s.sent = s.requested.map .batch ∧
      R.stop ≤ frontier R.start s.requested
  | .sending _ => .rangeComplete ∉ s.sent
  | .finished => .rangeComplete ∈ s.sent → s.sent = s.requested.map .batch ++ [.rangeComplete] ∧
      R.stop ≤ frontier R.start s.requested

structure Coverage (R : ScanRange) (s : Requests) : Prop where
  adjacent : Adjacent R.start s.requested
  le : frontier R.start s.requested ≤ max R.start R.stop
  maxSize : s.state.controller.maxSize ≤ adaptiveBatchMaxSize
  place : Place R s s.state.download

theorem not_mem_of_batches {sent : List DownloadResult} (h : sent = bs.map .batch) :
    .rangeComplete ∉ sent := by
  simp [h]

theorem recordScanResult_maxSize (c : AdaptiveBatchController) (batchStart nanos : ℕ)
    (activity : ScanBatchActivity) :
    (c.recordScanResult batchStart nanos activity).1.maxSize = c.maxSize := by
  unfold AdaptiveBatchController.recordScanResult
  dsimp only
  split_ifs <;> rfl

variable {s : Requests} {t : State}

theorem Place.of_mem {d : DownloadPc} (h : Place R s d) (hmem : .rangeComplete ∈ s.sent) :
    s.sent = s.requested.map .batch ++ [.rangeComplete] ∧
      R.stop ≤ frontier R.start s.requested := by
  match d, h with
  | .finished, h => exact h hmem
  | .check, ⟨_, hsent⟩ | .sizing, ⟨_, _, hsent⟩ | .downloading _, ⟨_, _, hsent⟩
  | .sending (.batch _), ⟨_, _, hsent⟩ | .sending .rangeComplete, ⟨hsent, _⟩ =>
    exact absurd hmem (not_mem_of_batches hsent)
  | .sending .error, h | .sending .cancelled, h => exact absurd hmem h

structure SameDownload (s t : State) : Prop where
  download : t.download = s.download
  current : t.current = s.current
  maxSize : t.controller.maxSize = s.controller.maxSize

theorem scanStep_sameDownload {s : State} {answer : Answer} (h : scanStep s answer = some t) :
    SameDownload s t := by
  unfold scanStep recvStep at h
  split at h
  all_goals
    repeat' split at h
    all_goals cases h
    all_goals exact ⟨rfl, rfl, by first | rfl | exact recordScanResult_maxSize ..⟩

theorem Coverage.of_sameDownload (hs : Coverage R s) (h : SameDownload s.state t) :
    Coverage R ⟨t, s.requested ++ [], s.sent ++ []⟩ := by
  obtain ⟨hdownload, hcurrent, hmax⟩ := h
  rw [List.append_nil, List.append_nil]
  refine ⟨hs.adjacent, hs.le, hmax.trans_le hs.maxSize, ?_⟩
  have hplace := hs.place
  rw [← hdownload] at hplace
  change Place R _ t.download
  cases hd : t.download <;> simp only [hd, Place] at hplace ⊢ <;> simpa only [hcurrent] using hplace

theorem batchEnd_le {c : AdaptiveBatchController} (hmax : c.maxSize ≤ adaptiveBatchMaxSize)
    (current : ℕ) : batchEnd c R current ≤ current + adaptiveBatchMaxSize := by
  have hsize := c.nextDownloadSize_le current
  have hsand : batchSizeSandblasting ≤ adaptiveBatchMaxSize := by decide
  unfold batchEnd saturatingAdd
  omega

theorem coverage_download {ok : Bool} (hs : Coverage R s) (h : downloadStep R s.state ok = some t) :
    Coverage R ⟨t, s.requested ++ newRequests R s.state (.download ok),
      s.sent ++ newMessages s.state (.download ok)⟩ := by
  obtain ⟨hadj, hle, hmax, hplace⟩ := hs
  cases downloadStep_move h with
  | stop hd hlt _ | size hd hlt _ | complete hd hlt =>
    simp only [hd, Place] at hplace
    simp only [newRequests, newMessages, hd, reduceCtorEq, if_false, List.append_nil]
    first
    | exact ⟨hadj, hle, hmax, not_mem_of_batches hplace.2⟩
    | exact ⟨hadj, hle, hmax, hlt, hplace⟩
    | exact ⟨hadj, hle, hmax, hplace.2, hplace.1 ▸ hlt⟩
  | request hd =>
    simp only [hd, Place] at hplace
    simp only [newRequests, newMessages, hd, if_true, List.append_nil]
    obtain ⟨hlt, hcurrent, hsent⟩ := hplace
    have hadj' := adjacent_append (b := ⟨_, _⟩) hadj hcurrent
      (lt_batchEnd s.state.controller hlt) (batchEnd_le hmax _)
    refine ⟨hadj', ?_, hmax, s.requested, rfl, hsent⟩
    rw [frontier_append]
    exact (Nat.min_le_right _ _).trans (le_max_right _ _)
  | fetch hd | fail _ hd =>
    simp only [hd, Place] at hplace
    simp only [newRequests, newMessages, hd, reduceCtorEq, if_false, List.append_nil]
    obtain ⟨front, hrequested, hsent⟩ := hplace
    first
    | exact ⟨hadj, hle, hmax, front, hrequested, hsent⟩
    | exact ⟨hadj, hle, hmax, not_mem_of_batches hsent⟩
  | next hd =>
    simp only [hd] at hplace
    simp only [newRequests, newMessages, hd, reduceCtorEq, if_false, List.append_nil]
    obtain ⟨front, hrequested, hsent⟩ := hplace
    refine ⟨hadj, hle, hmax, ?_⟩
    simp only [Place, hrequested, hsent, frontier_append, true_and]
    rw [List.map_append, List.map_singleton]
  | @last r _ hd | @gone r hd =>
    simp only [hd] at hplace
    simp only [newRequests, newMessages, hd, reduceCtorEq, if_false, List.append_nil]
    refine ⟨hadj, hle, hmax, ?_⟩
    simp only [Place]
    intro hmem
    cases r with
    | rangeComplete => exact ⟨by rw [hplace.1], hplace.2⟩
    | batch b =>
      obtain ⟨front, -, hsent⟩ := hplace
      exact absurd hmem (by simp [hsent])
    | error | cancelled =>
      have hnot : .rangeComplete ∉ s.sent := hplace
      exact absurd hmem (by simp [hnot])

theorem coverage_step {t : Requests} {a : RequestAction} (hs : Coverage R s)
    (h : requestStep R s a = some t) : Coverage R t := by
  cases a with
  | recordScanResult batchStart nanos activity =>
    rw [requestStep, Option.some.injEq] at h
    have hsame := hs.of_sameDownload (t := { s.state with
      controller := (s.state.controller.recordScanResult batchStart nanos activity).1 })
      ⟨rfl, rfl, recordScanResult_maxSize ..⟩
    rwa [List.append_nil, List.append_nil, h] at hsame
  | task a =>
    obtain ⟨u, hu, rfl⟩ := Option.map_eq_some_iff.mp h
    cases a with
    | download ok => exact coverage_download hs hu
    | scan answer => exact hs.of_sameDownload (scanStep_sameDownload hu)
    | cancel =>
      rw [step, Option.some.injEq] at hu
      exact hs.of_sameDownload (hu ▸ ⟨rfl, rfl, rfl⟩)
    | abort =>
      rw [step] at hu
      split_ifs at hu
      rw [Option.some.injEq] at hu
      exact hs.of_sameDownload (hu ▸ ⟨rfl, rfl, rfl⟩)

theorem coverage_of_reach (h : Reach (requestLog R) Free s) : Coverage R s := by
  refine h.invariant ?_ fun s a t hs _ hstep => coverage_step hs hstep
  rintro s ⟨cancelled, rfl⟩
  refine ⟨trivial, le_max_left _ _, ?_, rfl, rfl⟩
  change (AdaptiveBatchController.new R.start).maxSize ≤ _
  unfold AdaptiveBatchController.new
  split_ifs <;> decide

/-- **The download task covers the range**, batch by batch, and sends `RangeComplete` once and last.
-/
theorem batches_partition_range (R : ScanRange) {s : Requests} (h : Reach (requestLog R) Free s) :
    (∀ b ∈ s.requested, b.rangeStart < b.rangeEnd ∧
        b.rangeEnd ≤ b.rangeStart + adaptiveBatchMaxSize) ∧
      s.requested.IsChain (fun b c => b.rangeEnd = c.rangeStart) ∧
      s.requested.flatMap DownloadedBatch.heights <+: R.heights ∧
      (s.state.download = .sending .rangeComplete ∨ .rangeComplete ∈ s.sent →
        s.requested.flatMap DownloadedBatch.heights = R.heights) ∧
      s.sent.count .rangeComplete ≤ 1 ∧
      (.rangeComplete ∈ s.sent → s.sent = s.requested.map .batch ++ [.rangeComplete]) := by
  obtain ⟨hadj, hle, -, hplace⟩ := coverage_of_reach h
  obtain ⟨hstart, hheights⟩ := hadj.heights
  have hcovers : R.stop ≤ frontier R.start s.requested →
      s.requested.flatMap DownloadedBatch.heights = R.heights := by
    intro hstop
    rw [hheights, ScanRange.heights]
    congr 1
    omega
  refine ⟨fun b => hadj.mem, hadj.isChain, ?_, ?_, ?_, fun hmem => (hplace.of_mem hmem).1⟩
  · obtain ⟨n, hn⟩ : ∃ n, R.stop - R.start = frontier R.start s.requested - R.start + n :=
      Nat.exists_eq_add_of_le (by omega)
    rw [hheights, ScanRange.heights, hn, ← List.range'_append_1]
    exact List.prefix_append _ _
  · rintro (hd | hmem)
    · rw [hd] at hplace
      exact hcovers hplace.2
    · exact hcovers (hplace.of_mem hmem).2
  · by_cases hmem : .rangeComplete ∈ s.sent
    · rw [(hplace.of_mem hmem).1, List.count_append,
        List.count_eq_zero.mpr (not_mem_of_batches rfl)]
      rfl
    · rw [List.count_eq_zero.mpr hmem]
      exact Nat.zero_le 1

def sixHundred : ScanRange := ⟨3000000, 3000600, by decide⟩

def twoRequests : List RequestAction :=
  List.replicate 4 (.task (.download true)) ++
    .recordScanResult 3000000 1 ⟨250, 0, 0, 0, 0⟩ :: List.replicate 6 (.task (.download true))

theorem batches_partition_range_run : ∃ s, Reach (requestLog sixHundred) Free s ∧
    s.requested = [⟨3000000, 3000250⟩, ⟨3000250, 3000600⟩] ∧
      s.requested.flatMap DownloadedBatch.heights = sixHundred.heights := by
  obtain ⟨s, hs, hrequested, hmem⟩ := exec_reach (S := requestLog sixHundred) (G := Free)
    (p := fun s => s.requested = [⟨3000000, 3000250⟩, ⟨3000250, 3000600⟩] ∧
      .rangeComplete ∈ s.sent) twoRequests ⟨false, rfl⟩ (along_free _ _) (by decide +kernel)
  exact ⟨s, hs, hrequested, (batches_partition_range sixHundred hs).2.2.2.1 (.inr hmem)⟩

/-! ## What is scanned -/

/-- With the batches whose scan succeeded. -/
structure ScanLog extends Requests where
  scanned : List DownloadedBatch

def newScanned (s : State) : RequestAction → List DownloadedBatch
  | .task (.scan (.success ..)) =>
    match s.scan with
    | .scanning b => [b]
    | _ => []
  | _ => []

def scanLog (R : ScanRange) : System ScanLog RequestAction where
  init s := ∃ cancelled, s = ⟨⟨start R cancelled, [], []⟩, []⟩
  step s a := (requestStep R s.toRequests a).map fun t => ⟨t, s.scanned ++ newScanned s.state a⟩

/-- The message in hand; `none` once the loop is left. -/
def ScanPc.held : ScanPc → Option (List DownloadResult)
  | .received r => some [r]
  | .caching b | .batchTree b | .scanning b => some [.batch b]
  | .joining | .left _ => none
  | _ => some []

/-- In the loop, what was sent has been scanned, is in hand or in flight. -/
def Conserved (s : State) (sent : List DownloadResult) (scanned : List DownloadedBatch) : Prop :=
  match s.scan.held with
  | some held => s.chan.alive = true ∧ sent = scanned.map .batch ++ held ++ s.chan.queue
  | none => scanned.map .batch <+: sent

variable {sent : List DownloadResult} {scanned : List DownloadedBatch}

theorem Conserved.initial {s : State} (h : Conserved s sent scanned) :
    scanned.map .batch <+: sent := by
  unfold Conserved at h
  split at h
  · rw [h.2, List.append_assoc]
    exact List.prefix_append _ _
  · exact h

theorem conserved_scan {s : State} {answer : Answer} (hs : Conserved s sent scanned)
    (h : scanStep s answer = some t) :
    Conserved t sent (scanned ++ newScanned s (.task (.scan answer))) := by
  have hscanned := hs.initial
  unfold scanStep recvStep at h
  split at h
  all_goals
    rename_i hscan
    repeat' split at h
    all_goals cases h
    all_goals simp_all [Conserved, ScanPc.held, newScanned, leave]
  -- only the receive is left
  obtain ⟨hqueue, halive⟩ := Chan.recv_eq_some ‹_›
  simp [hqueue, halive, hs.1]

theorem conserved_download {s : State} {ok : Bool} (hs : Conserved s sent scanned)
    (h : downloadStep R s ok = some t) :
    Conserved t (sent ++ newMessages s (.download ok)) scanned := by
  have hscanned := hs.initial.trans (List.prefix_append sent (newMessages s (.download ok)))
  unfold Conserved at hs
  -- a message goes to the end of the queue, which in the loop has a receiver
  cases downloadStep_move h <;> unfold Conserved <;> split at hs <;> simp_all [newMessages]

theorem conserved_step {s t : ScanLog} {a : RequestAction} (hs : Conserved s.state s.sent s.scanned)
    (h : (scanLog R).step s a = some t) : Conserved t.state t.sent t.scanned := by
  obtain ⟨u, hu, rfl⟩ := Option.map_eq_some_iff.mp h
  cases a with
  | recordScanResult batchStart nanos activity =>
    cases hu
    simp only [newScanned, List.append_nil]
    exact hs
  | task a =>
    obtain ⟨v, hv, rfl⟩ := Option.map_eq_some_iff.mp hu
    cases a with
    | download ok => simpa only [newScanned, List.append_nil] using conserved_download hs hv
    | scan answer => simpa only [newMessages, List.append_nil] using conserved_scan hs hv
    | cancel =>
      cases hv
      simp only [newScanned, newMessages, List.append_nil]
      exact hs
    | abort =>
      rw [step] at hv
      split_ifs at hv
      cases hv
      simp only [newScanned, newMessages, List.append_nil]
      exact hs.initial

def twoScans : List RequestAction :=
  let done := RequestAction.task (.scan .done)
  let success := RequestAction.task (.scan (.success 1 ⟨250, 0, 0, 0, 0⟩))
  twoRequests ++ List.replicate 5 done ++ success :: List.replicate 5 done ++
    success :: List.replicate 2 done

end ZbagSync
