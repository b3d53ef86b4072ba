import Zbag.Lib.Transition

/-!
# Databases — migrations with a rollback

`migrate_with_rollback` copies the app database to a snapshot, migrates, and copies the snapshot
back if that fails. `open_wallet_db_with_dek` does the same to a wallet database. The copies are
plain file copies: they take no lock of the database, and other connections commit meanwhile.
-/

namespace ZbagDb

open Transition

/-! ## The calls -/

inductive RollbackCall
  | migrateWithRollback
  | openWalletDbWithDek (createIfMissing dirExists : Bool)

def RollbackCall.ensuresDirectory : RollbackCall → Bool
  | .migrateWithRollback => false
  | .openWalletDbWithDek createIfMissing dirExists => createIfMissing || dirExists

inductive Txn
  /-- a part of the migration -/
  | own
  /-- of the other connections -/
  | other (n : ℕ)
  deriving DecidableEq, Repr

inductive RollbackError
  | ensureDirectory
  | createSnapshot
  | snapshotPermissions
  /-- of the connection, a statement or the validation -/
  | migration
  | migrationAndRestore
  deriving DecidableEq, Repr

inductive RollbackPc
  | ensureDirectory
  | checkExists
  | copySnapshot
  | snapshotPermissions
  | migrate (existed : Bool)
  | restore
  | removeSnapshot (result : Except RollbackError Unit)
  | returned (result : Except RollbackError Unit)
  deriving DecidableEq

/-- The target is emptied before the first byte is written. -/
inductive RestoreAnswer
  | copied
  /-- before the target was touched -/
  | unchanged
  /-- an error behind that -/
  | torn
  deriving DecidableEq, Repr

inductive RollbackAction
  | commit
  | ensureDirectory (ok : Bool)
  | checkExists
  | copySnapshot (ok : Bool)
  | snapshotPermissions (ok : Bool)
  | statement
  | migrated
  | fails
  | restore (answer : RestoreAnswer)
  | removeSnapshot (ok : Bool)
  deriving DecidableEq, Repr

/-- Files are the transactions that are in them. -/
structure RollbackState where
  file : Option (List Txn)
  snapshot : Option (List Txn)
  pc : RollbackPc
  /-- of the other connections -/
  commits : ℕ
  /-- when the snapshot was taken -/
  saved : ℕ
  deriving DecidableEq

def RollbackState.step (s : RollbackState) (a : RollbackAction) : Option RollbackState :=
  match s.pc, a with
  | _, .commit =>
    s.file.map fun txns =>
      { s with file := some (txns ++ [.other s.commits]), commits := s.commits + 1 }
  | .ensureDirectory, .ensureDirectory ok =>
    some { s with pc := if ok then .checkExists else .returned (.error .ensureDirectory) }
  | .checkExists, .checkExists =>
    some { s with pc := if s.file.isSome then .copySnapshot else .migrate false }
  | .copySnapshot, .copySnapshot true =>
    some { s with snapshot := s.file, saved := s.commits, pc := .snapshotPermissions }
  | .copySnapshot, .copySnapshot false =>
    some { s with pc := .returned (.error .createSnapshot) }
  | .snapshotPermissions, .snapshotPermissions ok =>
    some { s with pc := if ok then .migrate true else .returned (.error .snapshotPermissions) }
  | .migrate _, .statement => some { s with file := some (s.file.getD [] ++ [.own]) }
  | .migrate existed, .migrated =>
    some { s with pc := if existed then .removeSnapshot (.ok ()) else .returned (.ok ()) }
  | .migrate existed, .fails =>
    some { s with pc := if existed then .restore else .returned (.error .migration) }
  | .restore, .restore .copied =>
    some { s with file := s.snapshot, pc := .removeSnapshot (.error .migration) }
  | .restore, .restore .unchanged =>
    some { s with pc := .removeSnapshot (.error .migrationAndRestore) }
  | .restore, .restore .torn =>
    some { s with file := some [], pc := .removeSnapshot (.error .migrationAndRestore) }
  | .removeSnapshot result, .removeSnapshot ok =>
    some { s with snapshot := if ok then none else s.snapshot, pc := .returned result }
  | _, _ => none

/-- A snapshot of an earlier call may have stayed behind. -/
def RollbackState.start (call : RollbackCall) (earlier : Option ℕ) (stale : Option (List Txn)) :
    RollbackState where
  file := earlier.map fun n => (List.range n).map .other
  snapshot := stale
  pc := if call.ensuresDirectory then .ensureDirectory else .checkExists
  commits := earlier.getD 0
  saved := 0

def rollbackSystem (call : RollbackCall) : System RollbackState RollbackAction where
  init s := ∃ earlier stale, s = .start call earlier stale
  step := RollbackState.step

/-! ## What is in the file -/

def Holds (file : Option (List Txn)) (n : ℕ) : Prop := .other n ∈ file.getD []

instance (file : Option (List Txn)) (n : ℕ) : Decidable (Holds file n) :=
  inferInstanceAs (Decidable (_ ∈ _))

def RollbackState.ContainsCommits (s : RollbackState) : Prop := ∀ n < s.commits, Holds s.file n

instance (s : RollbackState) : Decidable s.ContainsCommits :=
  inferInstanceAs (Decidable (∀ n < s.commits, Holds s.file n))

theorem holds_commit {file : Option (List Txn)} {txns : List Txn} (h : file = some txns)
    (m n : ℕ) : Holds (some (txns ++ [.other m])) n ↔ Holds file n ∨ n = m := by
  simp [Holds, h]

theorem holds_statement (file : Option (List Txn)) (n : ℕ) :
    Holds (some (file.getD [] ++ [.own])) n ↔ Holds file n := by
  simp [Holds]

theorem holds_start (call : RollbackCall) (earlier : Option ℕ) (stale : Option (List Txn))
    (n : ℕ) : Holds (RollbackState.start call earlier stale).file n ↔
      n < (RollbackState.start call earlier stale).commits := by
  cases earlier with
  | none | some k => simp [Holds, RollbackState.start]

/-! ## Schedules -/

/-- Nobody has committed since the snapshot when it is copied back, nor at all when that breaks off.
-/
def Undisturbed (s : RollbackState) : RollbackAction → Prop
  | .restore .copied => s.commits = s.saved
  | .restore .torn => s.commits = 0
  | _ => True

instance (s : RollbackState) (a : RollbackAction) : Decidable (Undisturbed s a) := by
  unfold Undisturbed
  split <;> infer_instance

def RollbackPc.copied : RollbackPc → Bool
  | .snapshotPermissions | .migrate true | .restore => true
  | _ => false

structure RollbackState.Intact (s : RollbackState) : Prop where
  file : ∀ n, Holds s.file n ↔ n < s.commits
  snapshot : s.pc.copied = true → ∀ n, Holds s.snapshot n ↔ n < s.saved
  saved : s.pc.copied = true → s.saved ≤ s.commits

/-- The call does not touch the file any more. -/
structure RollbackState.Lost (s : RollbackState) : Prop where
  ended : ∃ result, s.pc = .removeSnapshot result ∨ s.pc = .returned result
  missing : ∃ n < s.commits, ¬ Holds s.file n

variable {s t : RollbackState} {a : RollbackAction}

theorem RollbackState.Intact.move (h : s.Intact) {snapshot : Option (List Txn)} {pc : RollbackPc}
    (hpc : pc.copied = true → s.pc.copied = true ∧ snapshot = s.snapshot) :
    Intact { s with snapshot := snapshot, pc := pc } where
  file := h.file
  snapshot hc := by
    obtain ⟨hcopied, rfl⟩ := hpc hc
    exact h.snapshot hcopied
  saved hc := h.saved (hpc hc).1

theorem RollbackState.Intact.replace {file : Option (List Txn)} {result : Except RollbackError Unit}
    (hfile : ∀ n, Holds file n ↔ n < s.commits) :
    Intact { s with file := file, pc := .removeSnapshot result } where
  file := hfile
  snapshot hc := by cases hc
  saved hc := by cases hc

theorem RollbackState.Intact.step (h : s.Intact) (hguard : Undisturbed s a)
    (hstep : s.step a = some t) : t.Intact := by
  revert hstep hguard
  fun_cases RollbackState.step s a <;> intro hguard hstep
  case case1 =>
    obtain ⟨txns, htxns, rfl⟩ := Option.map_eq_some_iff.mp hstep
    refine ⟨fun n => ?_, h.snapshot, fun hc => Nat.le_succ_of_le (h.saved hc)⟩
    dsimp only
    rw [holds_commit htxns, h.file]
    omega
  all_goals cases hstep
  case case4 => exact ⟨h.file, fun _ => h.file, fun _ => Nat.le_refl _⟩
  case case7 =>
    exact ⟨fun n => (holds_statement _ n).trans (h.file n), h.snapshot, h.saved⟩
  case case10 hpc =>
    refine .replace fun n => ?_
    rw [h.snapshot (by rw [hpc]; rfl), ← show s.commits = s.saved from hguard]
  case case12 =>
    refine .replace fun n => ?_
    rw [show s.commits = 0 from hguard]
    simp [Holds]
  -- every other step only moves on
  all_goals
    refine h.move ?_
    grind [RollbackPc.copied]

theorem RollbackState.Intact.lost (h : s.Intact) (hguard : ¬ Undisturbed s a)
    (hstep : s.step a = some t) : t.Lost := by
  revert hstep hguard
  fun_cases RollbackState.step s a <;> intro hguard hstep
  case case10 hpc =>
    cases hstep
    have hcopied : s.pc.copied = true := by
      rw [hpc]
      rfl
    have hne : s.commits ≠ s.saved := hguard
    have hle := h.saved hcopied
    refine ⟨⟨_, .inl rfl⟩, s.saved, show s.saved < s.commits by omega, fun hholds => ?_⟩
    exact Nat.lt_irrefl _ ((h.snapshot hcopied _).mp hholds)
  case case12 =>
    cases hstep
    have hne : s.commits ≠ 0 := hguard
    exact ⟨⟨_, .inl rfl⟩, 0, Nat.pos_of_ne_zero hne, nofun⟩
  case case14 => cases hstep
  all_goals exact absurd trivial hguard

theorem RollbackState.Lost.step (h : s.Lost) (hstep : s.step a = some t) : t.Lost := by
  obtain ⟨⟨result, hpc⟩, n, hn, hmissing⟩ := h
  revert hstep
  fun_cases RollbackState.step s a <;> intro hstep
  case case1 =>
    obtain ⟨txns, htxns, rfl⟩ := Option.map_eq_some_iff.mp hstep
    refine ⟨⟨result, hpc⟩, n, Nat.lt_succ_of_lt hn, fun hholds => ?_⟩
    rcases (holds_commit htxns _ _).mp hholds with hholds | rfl
    · exact hmissing hholds
    · exact Nat.lt_irrefl _ hn
  case case13 result' _ _ =>
    cases hstep
    exact ⟨⟨result', .inr rfl⟩, n, hn, hmissing⟩
  all_goals
    simp_all

theorem RollbackState.start_intact (call : RollbackCall) (earlier : Option ℕ)
    (stale : Option (List Txn)) : (RollbackState.start call earlier stale).Intact := by
  have hpc : (RollbackState.start call earlier stale).pc.copied = false := by
    unfold RollbackState.start
    cases call.ensuresDirectory <;> rfl
  refine ⟨holds_start call earlier stale, fun hc => ?_, fun _ => Nat.zero_le _⟩
  rw [hpc] at hc
  cases hc

/-- **The commits of other connections survive exactly along undisturbed schedules.** -/
theorem rollback_keeps_commits_iff (call : RollbackCall) (earlier : Option ℕ)
    (stale : Option (List Txn)) (schedule : List RollbackAction) {s : RollbackState}
    (h : exec (rollbackSystem call) (.start call earlier stale) schedule = some s) :
    s.ContainsCommits ↔
      Along (rollbackSystem call) Undisturbed (.start call earlier stale) schedule := by
  have hend := exec_along_or (S := rollbackSystem call) (G := Undisturbed)
    (I := RollbackState.Intact) (L := RollbackState.Lost)
    (fun _ _ _ hs hg hstep => hs.step hg hstep)
    (fun _ _ _ hs hg hstep => hs.lost hg hstep) (fun _ _ _ hs hstep => hs.step hstep)
    (RollbackState.start_intact call earlier stale) h
  rcases hend with ⟨halong, hintact⟩ | ⟨halong, hlost⟩
  · exact iff_of_true (fun n hn => (hintact.file n).mpr hn) halong
  · refine iff_of_false (fun hall => ?_) halong
    obtain ⟨n, hn, hmissing⟩ := hlost.missing
    exact hmissing (hall n hn)

/-- Another connection commits while the call migrates, and the migration fails. -/
theorem rollback_loses_commit :
    (∃ s, exec (rollbackSystem .migrateWithRollback) (.start .migrateWithRollback (some 2) none)
        [.checkExists, .copySnapshot true, .snapshotPermissions true, .commit, .fails,
          .restore .copied, .removeSnapshot true] = some s ∧
      s.pc = .returned (.error .migration) ∧ ¬ s.ContainsCommits) ∧
    ∃ s, exec (rollbackSystem (.openWalletDbWithDek false true))
        (.start (.openWalletDbWithDek false true) (some 2) none)
        [.ensureDirectory true, .checkExists, .copySnapshot true, .snapshotPermissions true,
          .commit, .fails, .restore .copied, .removeSnapshot true] = some s ∧
      s.pc = .returned (.error .migration) ∧ ¬ s.ContainsCommits := by
  refine ⟨⟨_, rfl, rfl, ?_⟩, _, rfl, rfl, ?_⟩
  · decide
  · decide

theorem rollback_keeps_commits_before :
    ∃ s, exec (rollbackSystem .migrateWithRollback) (.start .migrateWithRollback (some 2) none)
        [.checkExists, .commit, .copySnapshot true, .snapshotPermissions true, .statement, .fails,
          .restore .copied, .commit, .removeSnapshot true] = some s ∧
      s.pc = .returned (.error .migration) ∧ s.commits = 4 ∧ s.ContainsCommits := by
  refine ⟨_, rfl, rfl, rfl, ?_⟩
  exact (rollback_keeps_commits_iff .migrateWithRollback (some 2) none
    [.checkExists, .commit, .copySnapshot true, .snapshotPermissions true, .statement, .fails,
      .restore .copied, .commit, .removeSnapshot true] rfl).mpr (by decide)

end ZbagDb
