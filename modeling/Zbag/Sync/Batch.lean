import Mathlib.Algebra.Group.Nat.Defs
import Mathlib.Tactic.Common
import Mathlib.Order.Lattice

/-!
# Sync — adaptive download batches

The sizes of the block batches that the download task of a sync round requests. Heights and sizes
are `u32` in the source; here they are naturals, with the saturating operations written out.

* `nextDownloadSize`, `recordScanResult`, and their bounds `nextDownloadSize_pos`,
  `nextDownloadSize_le`.
-/

namespace ZbagSync

def u32Max : ℕ := 2 ^ 32 - 1

/-- `u32::saturating_add`. -/
def saturatingAdd (a b : ℕ) : ℕ := min (a + b) u32Max

/-- `u32::saturating_mul`. -/
def saturatingMul (a b : ℕ) : ℕ := min (a * b) u32Max

/-- `Ord::clamp`. -/
def clamp (x lo hi : ℕ) : ℕ := if x < lo then lo else if hi < x then hi else x

theorem le_clamp {x lo hi : ℕ} (h : lo ≤ hi) : lo ≤ clamp x lo hi := by
  unfold clamp; split_ifs <;> omega

theorem clamp_le {x lo hi : ℕ} (h : lo ≤ hi) : clamp x lo hi ≤ hi := by
  unfold clamp; split_ifs <;> omega

/-! ## Constants -/

def batchSize : ℕ := 250
def batchSizeSandblasting : ℕ := 100
def sandblastingStart : ℕ := 1710000
def sandblastingEnd : ℕ := 2050000
def lookaheadBatches : ℕ := 4
def adaptiveBatchMinSize : ℕ := 125
def adaptiveBatchMaxSize : ℕ := 2000
def adaptiveBatchGrowthNumerator : ℕ := 3
def adaptiveBatchGrowthDenominator : ℕ := 2
def adaptiveBatchShrinkNumerator : ℕ := 3
def adaptiveBatchShrinkDenominator : ℕ := 4

/-- `0.80` seconds -/
def adaptiveBatchFastScanNanos : ℕ := 800000000

/-- `2.00` seconds. -/
def adaptiveBatchSlowScanNanos : ℕ := 2000000000

def effectiveBatchSize (height : ℕ) : ℕ :=
  if sandblastingStart ≤ height ∧ height ≤ sandblastingEnd then batchSizeSandblasting
  else batchSize

/-! ## The controller -/

/-- What one scanned batch touched. -/
structure ScanBatchActivity where
  scannedBlocks : ℕ
  spentSapling : ℕ
  spentOrchard : ℕ
  receivedSapling : ℕ
  receivedOrchard : ℕ
  deriving DecidableEq, Repr

def ScanBatchActivity.touchedNotes (a : ScanBatchActivity) : ℕ :=
  saturatingAdd (saturatingAdd (saturatingAdd a.spentSapling a.spentOrchard) a.receivedSapling)
    a.receivedOrchard

inductive AdaptiveBatchDecision
  | grew
  | shrunk
  deriving DecidableEq, Repr

structure AdaptiveBatchAdjustment where
  previous : ℕ
  current : ℕ
  decision : AdaptiveBatchDecision
  deriving DecidableEq, Repr

/-- **The adaptive batch controller**, with the bounds its operations keep. -/
structure AdaptiveBatchController where
  minSize : ℕ
  maxSize : ℕ
  currentSize : ℕ
  min_pos : 0 < minSize
  min_le : minSize ≤ currentSize
  le_max : currentSize ≤ maxSize
  deriving DecidableEq, Repr

namespace AdaptiveBatchController

theorem min_le_max (c : AdaptiveBatchController) : c.minSize ≤ c.maxSize := c.min_le.trans c.le_max

/-- `AdaptiveBatchController::new`. -/
def new (rangeStart : ℕ) : AdaptiveBatchController :=
  if effectiveBatchSize rangeStart = batchSizeSandblasting then
    { minSize := batchSizeSandblasting
      maxSize := batchSizeSandblasting
      currentSize := batchSizeSandblasting
      min_pos := by decide
      min_le := le_rfl
      le_max := le_rfl }
  else
    -- outside the sandblasting range the base size is `batchSize`
    { minSize := min adaptiveBatchMinSize batchSize
      maxSize := max adaptiveBatchMaxSize batchSize
      currentSize := batchSize
      min_pos := by decide
      min_le := by decide
      le_max := by decide }

def nextDownloadSize (c : AdaptiveBatchController) (height : ℕ) : ℕ :=
  if effectiveBatchSize height = batchSizeSandblasting then batchSizeSandblasting
  else clamp c.currentSize c.minSize c.maxSize

theorem nextDownloadSize_pos (c : AdaptiveBatchController) (height : ℕ) :
    0 < c.nextDownloadSize height := by
  unfold nextDownloadSize
  split_ifs
  · decide
  · exact c.min_pos.trans_le (le_clamp c.min_le_max)

theorem nextDownloadSize_le (c : AdaptiveBatchController) (height : ℕ) :
    c.nextDownloadSize height ≤ max batchSizeSandblasting c.maxSize := by
  unfold nextDownloadSize
  split_ifs
  · exact le_max_left _ _
  · exact (clamp_le c.min_le_max).trans (le_max_right _ _)

/-- Before clamping. -/
def scaledSize (c : AdaptiveBatchController) (nanos touched : ℕ) : ℕ :=
  if adaptiveBatchSlowScanNanos ≤ nanos then
    saturatingMul c.currentSize adaptiveBatchShrinkNumerator / adaptiveBatchShrinkDenominator
  else if nanos ≤ adaptiveBatchFastScanNanos ∧ touched = 0 then
    saturatingMul c.currentSize adaptiveBatchGrowthNumerator / adaptiveBatchGrowthDenominator
  else c.currentSize

def withSize (c : AdaptiveBatchController) (size : ℕ) : AdaptiveBatchController :=
  { c with
    currentSize := clamp size c.minSize c.maxSize
    min_le := le_clamp c.min_le_max
    le_max := clamp_le c.min_le_max }

def recordScanResult (c : AdaptiveBatchController) (batchStart nanos : ℕ)
    (activity : ScanBatchActivity) : AdaptiveBatchController × Option AdaptiveBatchAdjustment :=
  if activity.scannedBlocks = 0 then (c, none)
  else if effectiveBatchSize batchStart = batchSizeSandblasting then (c, none)
  else if nanos = 0 then (c, none)
  else
    let c' := c.withSize (c.scaledSize nanos activity.touchedNotes)
    if c'.currentSize = c.currentSize then (c', none)
    else
      (c', some
        { previous := c.currentSize
          current := c'.currentSize
          decision := if c.currentSize < c'.currentSize then .grew else .shrunk })

end AdaptiveBatchController

end ZbagSync
