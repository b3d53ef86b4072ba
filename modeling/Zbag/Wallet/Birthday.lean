import Mathlib.Order.Lattice
import Mathlib.Tactic.Linarith
import Zbag.Crypto.Sealing

/-!
# Wallet — the birthday height

A restored wallet is scanned from the height that is estimated for its date: one block each 75
seconds, counted from the last checkpoint before the date, less a margin. Counting from a checkpoint
starts again from a height that is *below* the count from the one before, so that the estimate falls
at two of the three checkpoints.
-/

namespace ZbagBirthday

open ZbagCrypto (Network)

/-! ## The estimate -/

def saturate (x : ℤ) : ℤ := max (-2 ^ 63) (min x (2 ^ 63 - 1))

def averageBlockTimeMs : ℤ := 75000

def safetyMarginBlocks : ℤ := 300

def mainnetGenesisMs : ℤ := 1477612800000

def testnetGenesisMs : ℤ := 1477612800000

/-- Times with heights that the chain had reached by then. -/
def mainnetCheckpoints : List (ℤ × ℕ) :=
  [(mainnetGenesisMs, 0), (1546300800000, 419200), (1609459200000, 1046400),
    (1654041600000, 1687104)]

/-- `clamp(0, u32::MAX) as u32`. -/
def clampU32 (x : ℤ) : ℕ := (max 0 (min x (2 ^ 32 - 1))).toNat

/-- On a slice in which `p` holds of a first part only. -/
def partitionPoint {α : Type} (p : α → Bool) (l : List α) : ℕ := (l.takeWhile p).length

def estimateFromCheckpoints (checkpoints : List (ℤ × ℕ)) (birthdayDateMs : ℤ) : ℕ :=
  match checkpoints with
  | [] => 0
  | first :: _ =>
    if birthdayDateMs ≤ first.1 then 0
    else
      let idx := partitionPoint (fun checkpoint => checkpoint.1 ≤ birthdayDateMs) checkpoints
      let base := checkpoints.getD (idx - 1) first
      let deltaMs := saturate (birthdayDateMs - base.1)
      let estimated := saturate (base.2 + deltaMs.tdiv averageBlockTimeMs)
      clampU32 (saturate (estimated - safetyMarginBlocks))

def estimateLinear (genesisMs birthdayDateMs : ℤ) : ℕ :=
  if birthdayDateMs ≤ genesisMs then 0
  else
    let deltaMs := saturate (birthdayDateMs - genesisMs)
    let estimated := deltaMs.tdiv averageBlockTimeMs
    clampU32 (saturate (estimated - safetyMarginBlocks))

def estimateBirthdayHeight (network : Network) (birthdayDateMs : Int64) : ℕ :=
  match network with
  | .mainnet => estimateFromCheckpoints mainnetCheckpoints birthdayDateMs.toInt
  | .testnet => estimateLinear testnetGenesisMs birthdayDateMs.toInt

/-! ## The estimate without its checkpoints -/

def blocks (d : Int64) : ℤ := (d.toInt - mainnetGenesisMs) / averageBlockTimeMs

/-- By how much the blocks up to the last checkpoint outnumber its height. -/
def lead (d : Int64) : ℤ :=
  if d.toInt < 1546300800000 then 0
  else if d.toInt < 1609459200000 then 496640
  else if d.toInt < 1654041600000 then 711552
  else 665280

theorem saturate_of_range {x : ℤ} (hlow : -2 ^ 63 ≤ x) (hhigh : x < 2 ^ 63) : saturate x = x := by
  unfold saturate
  omega

/-- No sum saturates: dates are of the size of `i64`. -/
theorem estimate_from_base {d : ℤ} (hd : d < 2 ^ 63) {base : ℤ × ℕ} (hbase : 0 ≤ base.1)
    (hle : base.1 ≤ d) (hheight : base.2 < 2 ^ 32) :
    saturate (saturate (base.2 + (saturate (d - base.1)).tdiv averageBlockTimeMs) -
      safetyMarginBlocks) = base.2 + (d - base.1) / 75000 - 300 := by
  have hdelta : saturate (d - base.1) = d - base.1 := saturate_of_range (by omega) (by omega)
  have hdiv : (d - base.1).tdiv averageBlockTimeMs = (d - base.1) / 75000 :=
    Int.tdiv_eq_ediv_of_nonneg (by omega)
  have hsum : saturate (base.2 + (d - base.1) / 75000) = base.2 + (d - base.1) / 75000 :=
    saturate_of_range (by omega) (by omega)
  rw [hdelta, hdiv, hsum, safetyMarginBlocks]
  exact saturate_of_range (by omega) (by omega)

theorem clampU32_of_nonpos {x : ℤ} (h : x ≤ 0) : clampU32 x = 0 := by
  unfold clampU32
  omega

theorem blocks_eq (d : Int64) : blocks d = (d.toInt - 1477612800000) / 75000 := rfl

theorem estimate_testnet (d : Int64) :
    estimateBirthdayHeight .testnet d = clampU32 (blocks d - 300) := by
  have hd := d.toInt_lt
  rw [blocks_eq]
  unfold estimateBirthdayHeight estimateLinear testnetGenesisMs
  dsimp only
  split_ifs with h
  · exact (clampU32_of_nonpos (by omega)).symm
  · have hdelta : saturate (d.toInt - 1477612800000) = d.toInt - 1477612800000 :=
      saturate_of_range (by omega) (by omega)
    have hdiv : (d.toInt - 1477612800000).tdiv averageBlockTimeMs =
        (d.toInt - 1477612800000) / 75000 := Int.tdiv_eq_ediv_of_nonneg (by omega)
    rw [hdelta, hdiv, safetyMarginBlocks, saturate_of_range (by omega) (by omega)]

theorem estimate_of_base {d : Int64} (base : ℤ × ℕ) (hgenesis : mainnetGenesisMs < d.toInt)
    (hbase : mainnetCheckpoints.getD
      (partitionPoint (fun checkpoint => checkpoint.1 ≤ d.toInt) mainnetCheckpoints - 1)
      (mainnetGenesisMs, 0) = base)
    (hpos : 0 ≤ base.1) (hle : base.1 ≤ d.toInt) (hheight : base.2 < 2 ^ 32) :
    estimateBirthdayHeight .mainnet d = clampU32 (base.2 + (d.toInt - base.1) / 75000 - 300) := by
  show estimateFromCheckpoints mainnetCheckpoints d.toInt = _
  have hfirst : ¬ d.toInt ≤ mainnetGenesisMs := by omega
  rw [← estimate_from_base d.toInt_lt hpos hle hheight, ← hbase]
  exact if_neg hfirst

/-- **The estimate on the main network**: the blocks up to the date, less lead and margin. -/
theorem estimate_mainnet (d : Int64) :
    estimateBirthdayHeight .mainnet d = clampU32 (blocks d - lead d - 300) := by
  rw [blocks_eq, lead]
  by_cases hgenesis : mainnetGenesisMs < d.toInt
  · have h₀ : 1477612800000 ≤ d.toInt := le_of_lt hgenesis
    -- the checkpoints lie a whole number of blocks apart
    split_ifs with h₁ h₂ h₃
    · have h₁' : ¬ 1546300800000 ≤ d.toInt := by omega
      rw [estimate_of_base (1477612800000, 0) hgenesis (by
        simp [partitionPoint, mainnetCheckpoints, mainnetGenesisMs, List.takeWhile, h₀, h₁'])
        (by decide) h₀ (by decide)]
      congr 1
      omega
    · have h₁' : 1546300800000 ≤ d.toInt := by omega
      have h₂' : ¬ 1609459200000 ≤ d.toInt := by omega
      rw [estimate_of_base (1546300800000, 419200) hgenesis (by
        simp [partitionPoint, mainnetCheckpoints, mainnetGenesisMs, List.takeWhile, h₀, h₁', h₂'])
        (by decide) h₁' (by decide)]
      congr 1
      omega
    · have h₁' : 1546300800000 ≤ d.toInt := by omega
      have h₂' : 1609459200000 ≤ d.toInt := by omega
      have h₃' : ¬ 1654041600000 ≤ d.toInt := by omega
      rw [estimate_of_base (1609459200000, 1046400) hgenesis (by
        simp [partitionPoint, mainnetCheckpoints, mainnetGenesisMs, List.takeWhile, h₀, h₁', h₂',
          h₃'])
        (by decide) h₂' (by decide)]
      congr 1
      omega
    · have h₁' : 1546300800000 ≤ d.toInt := by omega
      have h₂' : 1609459200000 ≤ d.toInt := by omega
      have h₃' : 1654041600000 ≤ d.toInt := by omega
      rw [estimate_of_base (1654041600000, 1687104) hgenesis (by
        simp [partitionPoint, mainnetCheckpoints, mainnetGenesisMs, List.takeWhile, h₀, h₁', h₂',
          h₃'])
        (by decide) h₃' (by decide)]
      congr 1
      omega
  · have hzero : estimateBirthdayHeight .mainnet d = 0 := if_pos (not_lt.mp hgenesis)
    rw [mainnetGenesisMs] at hgenesis
    rw [hzero, if_pos (by omega), clampU32_of_nonpos (by omega)]

/-! ## Order -/

theorem clampU32_mono {x y : ℤ} (h : x ≤ y) : clampU32 x ≤ clampU32 y := by
  unfold clampU32
  omega

theorem clampU32_le_iff {x y : ℤ} (hx : x < 2 ^ 32) :
    clampU32 x ≤ clampU32 y ↔ x ≤ 0 ∨ x ≤ y := by
  unfold clampU32
  omega

theorem blocks_mono {d₁ d₂ : Int64} (h : d₁.toInt ≤ d₂.toInt) : blocks d₁ ≤ blocks d₂ := by
  rw [blocks_eq, blocks_eq]
  omega

theorem lead_cases (d : Int64) :
    blocks d < 2352384 ∨ lead d = 665280 ∧ 1654041600000 ≤ d.toInt := by
  rw [blocks_eq, lead]
  split_ifs <;> omega

theorem lead_nonneg (d : Int64) : 0 ≤ lead d := by
  unfold lead
  split_ifs <;> omega

/-- **An earlier date has no higher estimate** on the test network; on the main network exactly if
its estimate is zero or the lead gained is no more than the blocks between the two. -/
theorem estimate_mono_iff (network : Network) (d₁ d₂ : Int64) (h : d₁.toInt ≤ d₂.toInt) :
    estimateBirthdayHeight network d₁ ≤ estimateBirthdayHeight network d₂ ↔
      network = .testnet ∨ blocks d₁ ≤ lead d₁ + 300 ∨
        lead d₂ - lead d₁ ≤ blocks d₂ - blocks d₁ := by
  have hblocks := blocks_mono h
  cases network with
  | testnet =>
    rw [estimate_testnet, estimate_testnet]
    exact iff_of_true (clampU32_mono (by omega)) (.inl rfl)
  | mainnet =>
    rw [estimate_mainnet, estimate_mainnet]
    obtain hsmall | ⟨hlead₁, hlast⟩ := lead_cases d₁
    · have hnonneg := lead_nonneg d₁
      rw [clampU32_le_iff (by omega)]
      simp only [reduceCtorEq, false_or]
      omega
    · -- both dates are behind the last checkpoint
      have hlead₂ : lead d₂ = 665280 := by
        unfold lead
        split_ifs <;> omega
      rw [hlead₁, hlead₂]
      exact iff_of_true (clampU32_mono (by omega)) (.inr (.inr (by omega)))

theorem estimate_mono_june_2018 :
    (Int64.ofInt 1527811200000).toInt ≤ (Int64.ofInt 1527897600000).toInt ∧
      estimateBirthdayHeight .mainnet (.ofInt 1527811200000) ≤
        estimateBirthdayHeight .mainnet (.ofInt 1527897600000) :=
  ⟨by decide, (estimate_mono_iff .mainnet _ _ (by decide)).mpr (.inr (.inr (by decide)))⟩

/-- The last day of 2018 is half a million blocks ahead of the first of 2019. -/
theorem estimate_falls :
    (Int64.ofInt 1546214400000).toInt ≤ (Int64.ofInt 1546300800000).toInt ∧
      estimateBirthdayHeight .mainnet (.ofInt 1546214400000) = 914388 ∧
      estimateBirthdayHeight .mainnet (.ofInt 1546300800000) = 418900 := by
  decide

end ZbagBirthday
