import Zbag.Lib.Decimal
import Zbag.Lib.Transition

/-!
# App — the clean-up of old logs

When it starts, the application removes old log files and opens an appender, which writes to a file
of its own for each day. The clean-up looks for files named `zbag.<date>.log`, but the appender
names them `zbag.<date>`.
-/

namespace ZbagLogs

open Decimal Transition

/-! ## Dates -/

structure NaiveDate where
  year : ℕ
  month : ℕ
  day : ℕ
  deriving DecidableEq, Repr

/-- The Gregorian day number, with years that begin in March. -/
def NaiveDate.number (d : NaiveDate) : ℤ :=
  let year : ℤ := if d.month ≤ 2 then d.year - 1 else d.year
  let month : ℤ := if d.month ≤ 2 then d.month + 9 else d.month - 3
  365 * year + year / 4 - year / 100 + year / 400 + (153 * month + 2) / 5 + d.day - 1

def padded (width n : ℕ) : List Char :=
  List.replicate (width - (Nat.toDigits 10 n).length) '0' ++ Nat.toDigits 10 n

/-- `YYYY-MM-DD` -/
def NaiveDate.text (d : NaiveDate) : List Char :=
  padded 4 d.year ++ '-' :: (padded 2 d.month ++ '-' :: padded 2 d.day)

def logName (d : NaiveDate) : List Char := "zbag.".toList ++ d.text

/-! ## The clean-up -/

def trimStartMatches (pat cs : List Char) : List Char :=
  (fun cs => if pat.isPrefixOf cs then cs.drop pat.length else cs)^[cs.length] cs

def trimEndMatches (pat cs : List Char) : List Char :=
  (trimStartMatches pat.reverse cs.reverse).reverse

section Parser

-- `NaiveDate::parse_from_str` with the format `%Y-%m-%d`
variable (parse : List Char → Option NaiveDate)

def isOld (cutoff : ℤ) (name : List Char) : Bool :=
  "zbag.".toList.isPrefixOf name && ".log".toList.isSuffixOf name &&
    (parse (trimEndMatches ".log".toList (trimStartMatches "zbag.".toList name))).any
      fun date => date.number < cutoff

/-- `logged`: the days for which an appender has opened a file. -/
structure LogDir where
  files : List (List Char)
  logged : List NaiveDate

def LogDir.openLog (s : LogDir) (d : NaiveDate) : LogDir :=
  ⟨if logName d ∈ s.files then s.files else logName d :: s.files, d :: s.logged⟩

def daysToKeep : ℤ := 7

def LogDir.cleanupOldLogs (s : LogDir) (today : NaiveDate) : LogDir :=
  { s with files := s.files.filter fun name => !isOld parse (today.number - daysToKeep) name }

def LogDir.initLogging (s : LogDir) (today : NaiveDate) : LogDir :=
  (s.cleanupOldLogs parse today).openLog today

inductive Action
  | start (today : NaiveDate)
  | roll (today : NaiveDate)
  deriving DecidableEq, Repr

def logDir : System LogDir Action where
  init s := s.logged = []
  step s
    | .start today => some (s.initLogging parse today)
    | .roll today => some (s.openLog today)

/-! ## What is removed -/

def LogDir.OldLog (s : LogDir) (today : NaiveDate) (name : List Char) : Prop :=
  ∃ d ∈ s.logged, name = logName d ∧ d.number < today.number - daysToKeep

def RemovesOldLogs (s : LogDir) : Action → Prop
  | .start today =>
    (∀ name, s.OldLog today name → name ∉ (s.initLogging parse today).files) ∧
      ∀ name ∈ s.files, name ∉ (s.initLogging parse today).files → s.OldLog today name
  | .roll _ => True

/-- **The condition**: at a start there are no old logs, and no files that look like one. -/
def NothingOld (s : LogDir) : Action → Prop
  | .start today => ∀ name ∈ s.files, ¬ s.OldLog today name ∧
      isOld parse (today.number - daysToKeep) name = false
  | .roll _ => True

variable {s : LogDir} {d e today : NaiveDate} {name : List Char}

theorem value_padded (width n : ℕ) : value (padded width n) = n := by
  rw [padded, value_append, value_replicate_zero, Nat.zero_mul, Nat.zero_add, value_toDigits]

theorem mem_padded {width n : ℕ} {c : Char} (h : c ∈ padded width n) : c.isDigit = true := by
  rcases List.mem_append.mp h with h | h
  · rw [List.eq_of_mem_replicate h]
    rfl
  · exact Nat.isDigit_of_mem_toDigits (by decide) le_rfl h

theorem minus_not_mem {width n : ℕ} : '-' ∉ padded width n := fun h =>
  absurd (mem_padded h) (by decide)

theorem logName_inj (h : logName d = logName e) : d = e := by
  have htext : d.text = e.text := List.append_cancel_left h
  have hsplit := congrArg (splitOnce '-') htext
  rw [NaiveDate.text, NaiveDate.text, splitOnce_append minus_not_mem,
    splitOnce_append minus_not_mem] at hsplit
  obtain ⟨hyear, hrest⟩ := Prod.mk.inj (Option.some.inj hsplit)
  have hsplit := congrArg (splitOnce '-') hrest
  rw [splitOnce_append minus_not_mem, splitOnce_append minus_not_mem] at hsplit
  obtain ⟨hmonth, hday⟩ := Prod.mk.inj (Option.some.inj hsplit)
  have hvalue : ∀ {width m n : ℕ}, padded width m = padded width n → m = n := fun h => by
    have hvalue := congrArg value h
    rwa [value_padded, value_padded] at hvalue
  obtain ⟨y, m, n⟩ := d
  obtain ⟨y', m', n'⟩ := e
  rw [NaiveDate.mk.injEq]
  exact ⟨hvalue hyear, hvalue hmonth, hvalue hday⟩

theorem not_isOld_logName (cutoff : ℤ) (d : NaiveDate) :
    isOld parse cutoff (logName d) = false := by
  have hsuffix : ¬ ".log".toList <:+ logName d := by
    intro h
    have hlast : (logName d).getLast? = some 'g' := by
      obtain ⟨front, hfront⟩ := h
      rw [← hfront, List.getLast?_append]
      rfl
    have hne : padded 2 d.day ≠ [] := by simp [padded, Nat.toDigits_ne_nil]
    have hname : logName d = "zbag.".toList ++ padded 4 d.year ++ '-' :: padded 2 d.month ++
        ['-'] ++ padded 2 d.day := by
      simp [logName, NaiveDate.text]
    rw [hname, List.getLast?_append_of_ne_nil _ hne] at hlast
    exact absurd (mem_padded (List.mem_of_getLast? hlast)) (by decide)
  have hfalse : ".log".toList.isSuffixOf (logName d) = false := by
    rwa [← Bool.not_eq_true, List.isSuffixOf_iff_suffix]
  rw [isOld, hfalse, Bool.and_false, Bool.false_and]

theorem mem_initLogging : name ∈ (s.initLogging parse today).files ↔ name = logName today ∨
    name ∈ s.files ∧ isOld parse (today.number - daysToKeep) name = false := by
  have hclean : name ∈ (s.cleanupOldLogs parse today).files ↔
      name ∈ s.files ∧ isOld parse (today.number - daysToKeep) name = false := by
    simp [LogDir.cleanupOldLogs]
  rw [← hclean, LogDir.initLogging, LogDir.openLog]
  dsimp only
  split_ifs with h
  · refine ⟨.inr, ?_⟩
    rintro (rfl | hmem)
    · exact h
    · exact hmem
  · exact List.mem_cons

theorem removesOldLogs_iff (a : Action) : RemovesOldLogs parse s a ↔ NothingOld parse s a := by
  cases a with
  | roll => exact Iff.rfl
  | start today =>
    constructor
    · rintro ⟨hgone, hothers⟩ name hname
      have hlog : ¬ s.OldLog today name := by
        -- the clean-up does not look at it
        rintro ⟨d, hd, rfl, hold⟩
        exact hgone _ ⟨d, hd, rfl, hold⟩
          ((mem_initLogging parse).mpr (.inr ⟨hname, not_isOld_logName parse _ d⟩))
      refine ⟨hlog, ?_⟩
      by_contra hold
      refine hlog (hothers name hname fun hmem => ?_)
      rcases (mem_initLogging parse).mp hmem with rfl | ⟨-, hnot⟩
      · exact hold (not_isOld_logName parse _ today)
      · exact hold hnot
    · intro h
      constructor
      · intro name hold hmem
        rcases (mem_initLogging parse).mp hmem with rfl | ⟨hname, -⟩
        · obtain ⟨d, -, hname, hlt⟩ := hold
          obtain rfl := logName_inj hname
          simp only [daysToKeep] at hlt
          omega
        · exact (h name hname).1 hold
      · exact fun name hname hnot =>
          absurd ((mem_initLogging parse).mpr (.inr ⟨hname, (h name hname).2⟩)) hnot

/-- **The old logs are removed, and nothing else**, exactly where there is nothing to remove. -/
theorem removes_old_logs_iff (s : LogDir) (as : List Action) :
    Along (logDir parse) (RemovesOldLogs parse) s as ↔
      Along (logDir parse) (NothingOld parse) s as := by
  have hguard : RemovesOldLogs parse = NothingOld parse := by
    funext s a
    exact propext (removesOldLogs_iff parse a)
  rw [hguard]

end Parser

def newYear : NaiveDate := ⟨2024, 1, 1⟩

def later : NaiveDate := ⟨2024, 1, 20⟩

/-- The date whose text this is. -/
def parseDate (cs : List Char) : Option NaiveDate := do
  let (year, rest) ← splitOnce '-' cs
  let (month, day) ← splitOnce '-' rest
  let d : NaiveDate := ⟨value year, value month, value day⟩
  if d.text = cs then some d else none

/-- **A log is still there when the application starts 19 days later.** -/
theorem old_log_kept :
    ∃ s, Reach (logDir parseDate) Free s ∧ s.OldLog later "zbag.2024-01-01".toList ∧
      "zbag.2024-01-01".toList ∈ (s.initLogging parseDate later).files := by
  have hname : "zbag.2024-01-01".toList = logName newYear := by decide +kernel
  have hempty : Reach (logDir parseDate) Free ⟨[], []⟩ := .of_init rfl
  refine ⟨_, hempty.step (a := .start newYear) trivial rfl,
    ⟨newYear, List.mem_cons_self, hname, by decide⟩, ?_⟩
  rw [hname]
  exact (mem_initLogging parseDate).mpr
    (.inr ⟨List.mem_cons_self, not_isOld_logName parseDate _ newYear⟩)

end ZbagLogs
