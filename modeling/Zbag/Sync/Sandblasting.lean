import Zbag.Sync.Deadlock

/-!
# Sync — batches of the sandblasting range

Blocks of the sandblasting range are to be downloaded in batches of at most a hundred. The size of
a batch is chosen by its first height alone, so a batch that starts below the range and reaches into
it has the adapted size of the heights before.
-/

namespace ZbagSync

open Transition

def DownloadedBatch.Sandblasted (b : DownloadedBatch) : Prop :=
  ∃ height, b.rangeStart ≤ height ∧ height < b.rangeEnd ∧
    sandblastingStart ≤ height ∧ height ≤ sandblastingEnd

theorem DownloadedBatch.sandblasted_iff {b : DownloadedBatch} :
    b.Sandblasted ↔ b.rangeStart < b.rangeEnd ∧ b.rangeStart ≤ sandblastingEnd ∧
      sandblastingStart < b.rangeEnd := by
  have hrange : sandblastingStart ≤ sandblastingEnd := by decide
  constructor
  · rintro ⟨height, hlo, hhi, hstart, hend⟩
    omega
  · rintro ⟨hlt, hend, hstart⟩
    refine ⟨max b.rangeStart sandblastingStart, ?_, ?_, ?_, ?_⟩ <;> omega

def DownloadedBatch.Bounded (b : DownloadedBatch) : Prop :=
  b.Sandblasted → b.rangeEnd - b.rangeStart ≤ batchSizeSandblasting

instance (b : DownloadedBatch) : Decidable b.Bounded :=
  have : Decidable b.Sandblasted := decidable_of_iff _ DownloadedBatch.sandblasted_iff.symm
  inferInstanceAs (Decidable (_ → _))

/-! ## The size of the next batch -/

/-- It starts inside the sandblasting range or above it, ends before it, or is small. -/
def Clear (c : AdaptiveBatchController) (R : ScanRange) (current : ℕ) : Prop :=
  sandblastingStart ≤ current ∨
    min (current + c.currentSize) R.stop ≤ sandblastingStart ∨
    min c.currentSize (R.stop - current) ≤ batchSizeSandblasting

instance (c : AdaptiveBatchController) (R : ScanRange) (current : ℕ) :
    Decidable (Clear c R current) :=
  inferInstanceAs (Decidable (_ ∨ _))

namespace AdaptiveBatchController

variable (c : AdaptiveBatchController)

theorem clamp_currentSize : clamp c.currentSize c.minSize c.maxSize = c.currentSize := by
  have hmin := c.min_le
  have hmax := c.le_max
  unfold clamp
  split_ifs <;> omega

theorem nextDownloadSize_of_mem {height : ℕ}
    (h : sandblastingStart ≤ height ∧ height ≤ sandblastingEnd) :
    c.nextDownloadSize height = batchSizeSandblasting := by
  rw [nextDownloadSize, effectiveBatchSize, if_pos h, if_pos rfl]

theorem nextDownloadSize_of_not_mem {height : ℕ}
    (h : ¬ (sandblastingStart ≤ height ∧ height ≤ sandblastingEnd)) :
    c.nextDownloadSize height = c.currentSize := by
  rw [nextDownloadSize, effectiveBatchSize, if_neg h, if_neg (by decide), clamp_currentSize]

end AdaptiveBatchController

/-- **The next batch is bounded exactly if it stays clear of the range.** -/
theorem bounded_iff_clear (c : AdaptiveBatchController) (R : ScanRange) (current : ℕ) :
    (⟨current, batchEnd c R current⟩ : DownloadedBatch).Bounded ↔ Clear c R current := by
  have hstop := R.stop_le
  have hrange : sandblastingStart ≤ sandblastingEnd := by decide
  rw [DownloadedBatch.Bounded, DownloadedBatch.sandblasted_iff]
  dsimp only
  unfold Clear batchEnd saturatingAdd
  by_cases hmem : sandblastingStart ≤ current ∧ current ≤ sandblastingEnd
  · rw [c.nextDownloadSize_of_mem hmem]
    exact iff_of_true (fun _ => by omega) (.inl hmem.1)
  · rw [c.nextDownloadSize_of_not_mem hmem]
    omega

/-! ## Runs of a range -/

def SizesClear (R : ScanRange) (s : State) : Action → Prop
  | .download _ => s.download = .sizing → Clear s.controller R s.current
  | .cancel | .abort | .scan _ => True

instance (R : ScanRange) (s : State) : ∀ a, Decidable (SizesClear R s a)
  | .download _ => inferInstanceAs (Decidable (_ → _))
  | .cancel | .abort | .scan _ => isTrue trivial

def DownloadBounded (s : State) : Prop :=
  match s.download with
  | .downloading e => (⟨s.current, e⟩ : DownloadedBatch).Bounded
  | .sending (.batch b) => b.Bounded
  | _ => True

theorem downloadBounded_of_eq {s t : State} (hs : DownloadBounded s)
    (hdownload : t.download = s.download) (hcurrent : t.current = s.current) :
    DownloadBounded t := by
  unfold DownloadBounded at *
  rwa [hdownload, hcurrent]

theorem downloadBounded_download {R : ScanRange} {s t : State} {ok : Bool}
    (hs : DownloadBounded s) (hclear : s.download = .sizing → Clear s.controller R s.current)
    (h : downloadStep R s ok = some t) : DownloadBounded t := by
  cases downloadStep_move h with
  | request hd => exact (bounded_iff_clear _ R _).mpr (hclear hd)
  | fetch hd => simpa only [DownloadBounded, hd] using hs
  | _ => trivial

theorem recvStep_current {s t : State} (h : recvStep s = some t) : t.current = s.current := by
  unfold recvStep at h
  split at h
  · cases h
    rfl
  · split_ifs at h
    cases h
    rfl

theorem scanStep_current {s t : State} {answer : Answer} (h : scanStep s answer = some t) :
    t.current = s.current := by
  revert h
  fun_cases scanStep s answer
  all_goals
    intro h
    first | exact recvStep_current h | (cases h; rfl) | cases h

theorem downloadBounded_step {R : ScanRange} {s t : State} {a : Action} (hs : DownloadBounded s)
    (hclear : SizesClear R s a) (h : step R s a = some t) : DownloadBounded t := by
  cases a with
  | cancel =>
    cases h
    exact downloadBounded_of_eq hs rfl rfl
  | abort =>
    obtain ⟨-, h⟩ := Option.ite_none_right_eq_some.mp h
    cases h
    exact downloadBounded_of_eq hs rfl rfl
  | download ok => exact downloadBounded_download hs hclear h
  | scan answer => exact downloadBounded_of_eq hs (scanStep_spec h).download (scanStep_current h)

/-- **Sandblasted batches are small** in runs that only size batches clear of the range; another
batch is too large. -/
theorem sandblasted_batches_bounded (R : ScanRange) :
    (∀ s b, Reach (pipeline R) (SizesClear R) s → s.download = .sending (.batch b) → b.Bounded) ∧
      ∀ s ok, s.download = .sizing → ¬ Clear s.controller R s.current →
        ∃ t u b, step R s (.download ok) = some t ∧ step R t (.download true) = some u ∧
          u.download = .sending (.batch b) ∧ ¬ b.Bounded := by
  constructor
  · intro s b hreach hsending
    have hbounded : DownloadBounded s := by
      refine hreach.invariant (I := DownloadBounded) ?_ ?_
      · rintro s ⟨cancelled, rfl⟩
        trivial
      · intro s a t hs hclear hstep
        exact downloadBounded_step hs hclear hstep
    rwa [DownloadBounded, hsending] at hbounded
  · intro s ok hsizing hclear
    let e := batchEnd s.controller R s.current
    refine ⟨{ s with download := .downloading e },
      { s with download := .sending (.batch ⟨s.current, e⟩) }, ⟨s.current, e⟩, ?_, rfl, rfl, ?_⟩
    · simp [step, downloadStep, hsizing, e]
    · rwa [bounded_iff_clear]

theorem sandblasted_first_batch : (⟨1710000, 1710100⟩ : DownloadedBatch).Bounded := by
  have hrun : exec (pipeline ⟨1710000, 1710300, by decide⟩)
      (start ⟨1710000, 1710300, by decide⟩ false)
      [.download true, .download true, .download true] = some
        { start ⟨1710000, 1710300, by decide⟩ false with
          download := .sending (.batch ⟨1710000, 1710100⟩) } := by
    decide +kernel
  exact (sandblasted_batches_bounded ⟨1710000, 1710300, by decide⟩).1 _ _
    ⟨_, ⟨false, rfl⟩, exec_path hrun (by decide +kernel)⟩ rfl

/-- It reaches 150 blocks into the range. -/
theorem sandblasted_batch_of_250 :
    ∃ s, Reach (pipeline ⟨1709900, 1710200, by decide⟩) Free s ∧
      s.download = .sending (.batch ⟨1709900, 1710150⟩) ∧
      ¬ (⟨1709900, 1710150⟩ : DownloadedBatch).Bounded :=
  exec_reach [.download true, .download true, .download true] ⟨false, rfl⟩ (along_free _ _)
    (by decide +kernel)

end ZbagSync
