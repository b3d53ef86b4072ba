import Mathlib.Order.MinMax
import Zbag.Sync.Service

/-!
# Sync — the reported percentage

Every progress update and every poll goes through `with_eta`, which keeps an estimate for each
wallet and replaces the percentage by one measured in block heights. A measured percentage never
falls below the last measured one; where it cannot be measured, because the frontier is below the
height at which the measurement started, the percentage that came with the update is reported as it
is. The rate and the remaining time that `with_eta` also estimates play no part in the percentage.
Heights are `u32`, so that nothing saturates.
-/

namespace ZbagSync

open Transition

structure SyncProgress where
  phase : SyncPhase
  scanFrontierHeight : ℕ
  walletTipHeight : ℕ
  progressPercent : ℕ
  deriving DecidableEq, Repr

structure SyncProgressEstimate where
  startHeight : Option ℕ
  targetHeight : Option ℕ
  lastFrontierHeight : Option ℕ
  lastPercent : Option ℕ
  deriving DecidableEq, Repr

/-! ## `with_eta` -/

namespace SyncProgressEstimate

def default : SyncProgressEstimate := ⟨none, none, none, none⟩

def observe (e : SyncProgressEstimate) (p : SyncProgress) : SyncProgressEstimate :=
  { e with
    startHeight :=
      if e.startHeight = none ∧ 0 < p.scanFrontierHeight then some p.scanFrontierHeight
      else e.startHeight
    targetHeight :=
      if 0 < p.walletTipHeight then some (max (e.targetHeight.getD 0) p.walletTipHeight)
      else e.targetHeight }

def span (e : SyncProgressEstimate) (p : SyncProgress) : Option (ℕ × ℕ) :=
  match e.startHeight, e.targetHeight with
  | some start, some target =>
    if start < target ∧ start ≤ p.scanFrontierHeight then
      some (p.scanFrontierHeight - start, target - start)
    else none
  | _, _ => none

/-- The last one is kept for the end. -/
def rawPercent (phase : SyncPhase) (done total : ℕ) : ℕ :=
  let percent := min (done * 100 / total) 100
  if 100 ≤ percent then if phase = .idle then 100 else 99 else percent

def measure (e : SyncProgressEstimate) (p : SyncProgress) : SyncProgressEstimate × SyncProgress :=
  match e.span p with
  | some (done, total) =>
    let percent := max (rawPercent p.phase done total) (e.lastPercent.getD 0)
    ({ e with lastPercent := some percent }, { p with progressPercent := percent })
  | none => (e, p)

/-- A frontier that went back starts the measurement anew. -/
def trackFrontier (e : SyncProgressEstimate) (frontier : ℕ) : SyncProgressEstimate :=
  match e.targetHeight with
  | none => e
  | some target =>
    if target = 0 ∨ frontier = 0 ∨ target ≤ frontier then e
    else if e.lastFrontierHeight.any fun last => frontier < last then
      { e with startHeight := some frontier, lastFrontierHeight := some frontier }
    else { e with lastFrontierHeight := some frontier }

end SyncProgressEstimate

def withEta (estimate : Option SyncProgressEstimate) (p : SyncProgress) :
    Option SyncProgressEstimate × SyncProgress :=
  match p.phase with
  | .idle | .offline | .error => (none, p)
  | .preparing | .enhancing => (estimate, p)
  | .catchingUp =>
    if 0 < p.walletTipHeight ∧ p.walletTipHeight ≤ p.scanFrontierHeight then
      (none, { p with progressPercent := 100 })
    else estimated
  | .downloading | .scanning => estimated
where
  estimated :=
    let (e, p') := ((estimate.getD .default).observe p).measure p
    (some (e.trackFrontier p.scanFrontierHeight), p')

/-! ## Updates and polls -/

/-- The percentages reported while blocks were downloaded and scanned, latest first. -/
structure Reporting where
  estimate : Option SyncProgressEstimate
  progress : SyncProgress
  reports : List ℕ
  deriving DecidableEq, Repr

def SyncPhase.isScan : SyncPhase → Bool
  | .downloading | .scanning => true
  | .idle | .preparing | .enhancing | .catchingUp | .offline | .error => false

inductive ReportAction
  /-- `update` of the sync task -/
  | update (p : SyncProgress)
  /-- `get_progress` -/
  | poll
  deriving DecidableEq, Repr

def Reporting.given (s : Reporting) : ReportAction → SyncProgress
  | .update p => p
  | .poll => s.progress

def Reporting.report (s : Reporting) (p : SyncProgress) : Reporting :=
  let (e, p') := withEta s.estimate p
  ⟨e, p', if p'.phase.isScan then p'.progressPercent :: s.reports else s.reports⟩

/-- **Updates and polls** of one wallet, from any estimate and progress. -/
def reporting : System Reporting ReportAction where
  init s := s.reports = []
  step s a := some (s.report (s.given a))

def NeverDecreases (s : Reporting) : Prop :=
  s.reports.Pairwise fun later earlier => earlier ≤ later

instance (s : Reporting) : Decidable (NeverDecreases s) :=
  inferInstanceAs (Decidable (s.reports.Pairwise fun later earlier => earlier ≤ later))

/-- The percentage reported next is not lower than `last`. -/
def SteadyOver (measured given last : ℕ) : Option (ℕ × ℕ) → Prop
  | some (done, total) => last ≤ measured ∨ last ≤ 99 ∧ last * total ≤ done * 100
  | none => last ≤ given

def ReportSteady (estimate : Option SyncProgressEstimate) (p : SyncProgress) (last : ℕ) : Prop :=
  let e := (estimate.getD .default).observe p
  SteadyOver (e.lastPercent.getD 0) p.progressPercent last (e.span p)

def Steady (s : Reporting) (a : ReportAction) : Prop :=
  (s.given a).phase.isScan = true →
    ∀ last ∈ s.reports.head?, ReportSteady s.estimate (s.given a) last

instance (measured given last : ℕ) : ∀ span, Decidable (SteadyOver measured given last span)
  | some _ => inferInstanceAs (Decidable (_ ∨ _))
  | none => inferInstanceAs (Decidable (_ ≤ _))

instance (estimate : Option SyncProgressEstimate) (p : SyncProgress) (last : ℕ) :
    Decidable (ReportSteady estimate p last) :=
  inferInstanceAs (Decidable (SteadyOver ..))

instance (s : Reporting) (a : ReportAction) : Decidable (Steady s a) :=
  inferInstanceAs (Decidable (_ → ∀ last ∈ s.reports.head?, _))

/-! ## One report -/

theorem rawPercent_eq {phase : SyncPhase} (h : phase ≠ .idle) (done total : ℕ) :
    SyncProgressEstimate.rawPercent phase done total = min (done * 100 / total) 99 := by
  unfold SyncProgressEstimate.rawPercent
  rw [if_neg h]
  dsimp only
  split_ifs <;> omega

theorem SyncProgressEstimate.span_pos {e : SyncProgressEstimate} {p : SyncProgress}
    {done total : ℕ} (h : e.span p = some (done, total)) : 0 < total := by
  unfold span at h
  split at h
  · obtain ⟨⟨hlt, -⟩, h⟩ := Option.ite_none_right_eq_some.mp h
    cases h
    omega
  · cases h

theorem withEta_phase (estimate : Option SyncProgressEstimate) (p : SyncProgress) :
    (withEta estimate p).2.phase = p.phase := by
  have hestimated : (withEta.estimated estimate p).2.phase = p.phase := by
    unfold withEta.estimated SyncProgressEstimate.measure
    dsimp only
    split <;> rfl
  unfold withEta
  split
  case h_6 => split_ifs <;> first | rfl | exact hestimated
  all_goals first | rfl | exact hestimated

theorem withEta_of_isScan {estimate : Option SyncProgressEstimate} {p : SyncProgress}
    (h : p.phase.isScan = true) : withEta estimate p = withEta.estimated estimate p := by
  unfold withEta
  cases hphase : p.phase <;> simp_all [SyncPhase.isScan]

/-- **A report is steady exactly if it is not lower than the one before.** -/
theorem le_percent_iff {estimate : Option SyncProgressEstimate} {p : SyncProgress} {last : ℕ}
    (h : p.phase.isScan = true) :
    last ≤ (withEta estimate p).2.progressPercent ↔ ReportSteady estimate p last := by
  have hidle : p.phase ≠ .idle := by
    rintro hidle
    rw [hidle] at h
    cases h
  rw [withEta_of_isScan h]
  unfold withEta.estimated SyncProgressEstimate.measure ReportSteady
  dsimp only
  cases hspan : ((estimate.getD .default).observe p).span p with
  | none => rfl
  | some pair =>
    obtain ⟨done, total⟩ := pair
    dsimp only [SteadyOver]
    rw [rawPercent_eq hidle, le_max_iff, le_min_iff,
      Nat.le_div_iff_mul_le (SyncProgressEstimate.span_pos hspan)]
    tauto

theorem pairwise_cons_iff_head {r : ℕ} {reports : List ℕ} :
    (r :: reports).Pairwise (fun later earlier => earlier ≤ later) ↔
      reports.Pairwise (fun later earlier => earlier ≤ later) ∧
        ∀ last ∈ reports.head?, last ≤ r := by
  cases reports with
  | nil => simp
  | cons last reports =>
    simp only [List.pairwise_cons, List.mem_cons, List.head?_cons, Option.mem_def,
      Option.some.injEq]
    constructor
    · rintro ⟨hr, hrest⟩
      exact ⟨hrest, fun _ h => h ▸ hr last (.inl rfl)⟩
    · rintro ⟨hrest, hlast⟩
      have hle := hlast last rfl
      refine ⟨?_, hrest⟩
      rintro earlier (rfl | hearlier)
      · exact hle
      · exact (hrest.1 earlier hearlier).trans hle

/-- **One step keeps reports from decreasing exactly if it is steady.** -/
theorem neverDecreases_step {s t : Reporting} {a : ReportAction}
    (h : reporting.step s a = some t) : NeverDecreases t ↔ NeverDecreases s ∧ Steady s a := by
  cases h
  unfold NeverDecreases Steady Reporting.report
  dsimp only
  rw [withEta_phase]
  by_cases hscan : (s.given a).phase.isScan = true
  · rw [if_pos hscan, pairwise_cons_iff_head]
    simp only [hscan, le_percent_iff hscan, forall_const]
  · rw [if_neg hscan]
    exact (and_iff_left fun h => absurd h hscan).symm

/-! ## Sequences of updates and polls -/

end ZbagSync
