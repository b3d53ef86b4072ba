import Mathlib.Data.List.Count
import Mathlib.Logic.Function.Basic
import Mathlib.Tactic.Common

/-!
# Guards by key

Tasks in a list, each with a key, and a table of flags by which they keep each other out: a task may
enter only while the flag of its key is down, raises it, and lowers it when it leaves.

* `Exclusive.enter`, `Exclusive.set_enter`, `Exclusive.set_keep`, `Exclusive.set_leave`: what tasks
  do.
-/

namespace Guard

variable {α κ : Type} [DecidableEq κ]

def holdsKey (key : α → κ) (holds : α → Bool) (k : κ) (a : α) : Bool :=
  decide (key a = k) && holds a

/-- **Every key has as many holders as its flag says.** -/
def Exclusive (key : α → κ) (holds : α → Bool) (flag : κ → Bool) (tasks : List α) : Prop :=
  ∀ k, tasks.countP (holdsKey key holds k) = (flag k).toNat

theorem countP_set (p : α → Bool) {tasks : List α} {i : ℕ} {a : α} (h : tasks[i]? = some a)
    (b : α) : (tasks.set i b).countP p + (p a).toNat = tasks.countP p + (p b).toNat := by
  induction tasks generalizing i with
  | nil => cases h
  | cons c tasks ih =>
    cases i with
    | zero =>
      obtain rfl : c = a := Option.some.inj h
      rw [List.set_cons_zero, List.countP_cons, List.countP_cons]
      cases p b <;> cases p c <;> simp
    | succ i =>
      have hrest := ih (show tasks[i]? = some a from h)
      rw [List.set_cons_succ, List.countP_cons, List.countP_cons]
      omega

theorem two_le_countP {p : α → Bool} {tasks : List α} {i j : ℕ} {a b : α}
    (hi : tasks[i]? = some a) (hj : tasks[j]? = some b) (hne : i ≠ j) (ha : p a = true)
    (hb : p b = true) : 2 ≤ tasks.countP p := by
  induction tasks generalizing i j with
  | nil => cases hi
  | cons c tasks ih =>
    have hmem {k : ℕ} {x : α} (hk : tasks[k]? = some x) (hx : p x = true) : 1 ≤ tasks.countP p :=
      List.countP_pos_iff.mpr ⟨x, List.mem_of_getElem? hk, hx⟩
    rw [List.countP_cons]
    cases i with
    | zero =>
      cases j with
      | zero => exact absurd rfl hne
      | succ j =>
        obtain rfl : c = a := Option.some.inj hi
        have hrest := hmem (show tasks[j]? = some b from hj) hb
        rw [if_pos ha]
        omega
    | succ i =>
      cases j with
      | zero =>
        obtain rfl : c = b := Option.some.inj hj
        have hrest := hmem (show tasks[i]? = some a from hi) ha
        rw [if_pos hb]
        omega
      | succ j =>
        have hrest := ih (show tasks[i]? = some a from hi) (show tasks[j]? = some b from hj)
          (fun hij => hne (congrArg (· + 1) hij))
        omega

section

variable {key : α → κ} {holds : α → Bool} {flag : κ → Bool} {tasks : List α} {i : ℕ} {a b : α}

theorem holdsKey_of_not_holds (h : holds a = false) (k : κ) : holdsKey key holds k a = false := by
  rw [holdsKey, h, Bool.and_false]

theorem holdsKey_of_ne {k : κ} (h : k ≠ key a) : holdsKey key holds k a = false := by
  rw [holdsKey, decide_eq_false (Ne.symm h), Bool.false_and]

theorem holdsKey_self (h : holds a = true) : holdsKey key holds (key a) a = true := by
  rw [holdsKey, h, decide_eq_true rfl, Bool.and_true]

theorem exclusive_nil (key : α → κ) (holds : α → Bool) : Exclusive key holds (fun _ => false) [] :=
  fun _ => rfl

theorem Exclusive.append (h : Exclusive key holds flag tasks) (ha : holds a = false) :
    Exclusive key holds flag (tasks ++ [a]) := by
  intro k
  rw [List.countP_append, h k, List.countP_singleton, holdsKey_of_not_holds ha]
  simp

theorem Exclusive.enter (h : Exclusive key holds flag tasks) (hdown : flag (key a) = false)
    (ha : holds a = true) :
    Exclusive key holds (Function.update flag (key a) true) (tasks ++ [a]) := by
  intro k
  rw [List.countP_append, h k, List.countP_singleton]
  by_cases hk : k = key a
  · subst hk
    rw [hdown, holdsKey_self ha, Function.update_self]
    rfl
  · rw [holdsKey_of_ne hk, Function.update_of_ne hk]
    simp

theorem Exclusive.set_keep (h : Exclusive key holds flag tasks) (hi : tasks[i]? = some a)
    (hkey : key b = key a) (hholds : holds b = holds a) :
    Exclusive key holds flag (tasks.set i b) := by
  intro k
  have hcount := countP_set (holdsKey key holds k) hi b
  have hsame : holdsKey key holds k b = holdsKey key holds k a := by
    rw [holdsKey, holdsKey, hkey, hholds]
  rw [hsame] at hcount
  rw [← h k]
  omega

theorem Exclusive.set_enter (h : Exclusive key holds flag tasks) (hi : tasks[i]? = some a)
    (hkey : key b = key a) (ha : holds a = false) (hb : holds b = true)
    (hdown : flag (key a) = false) :
    Exclusive key holds (Function.update flag (key a) true) (tasks.set i b) := by
  intro k
  have hcount := countP_set (holdsKey key holds k) hi b
  rw [holdsKey_of_not_holds ha, h k] at hcount
  by_cases hk : k = key a
  · subst hk
    rw [← hkey, holdsKey_self hb, hkey, hdown] at hcount
    rw [Function.update_self]
    simpa using hcount
  · rw [holdsKey_of_ne (hkey ▸ hk)] at hcount
    rw [Function.update_of_ne hk]
    simpa using hcount

theorem Exclusive.set_leave (h : Exclusive key holds flag tasks) (hi : tasks[i]? = some a)
    (ha : holds a = true) (hb : holds b = false) :
    Exclusive key holds (Function.update flag (key a) false) (tasks.set i b) := by
  intro k
  have hcount := countP_set (holdsKey key holds k) hi b
  rw [holdsKey_of_not_holds hb, h k] at hcount
  by_cases hk : k = key a
  · subst hk
    rw [holdsKey_self ha] at hcount
    rw [Function.update_self]
    have hle := Bool.toNat_le (flag (key a))
    simp only [Bool.toNat_true, Bool.toNat_false] at hcount ⊢
    omega
  · rw [holdsKey_of_ne hk] at hcount
    rw [Function.update_of_ne hk]
    simpa using hcount

/-- **A flag is up exactly while its key has a holder.** -/
theorem Exclusive.flag_iff (h : Exclusive key holds flag tasks) (k : κ) :
    flag k = true ↔ ∃ a ∈ tasks, key a = k ∧ holds a = true := by
  have hpos : 0 < tasks.countP (holdsKey key holds k) ↔ flag k = true := by
    rw [h k]
    cases flag k <;> simp
  rw [← hpos, List.countP_pos_iff]
  simp [holdsKey]

/-- **No key has two holders.** -/
theorem Exclusive.holder_unique (h : Exclusive key holds flag tasks) {j : ℕ}
    (hi : tasks[i]? = some a) (hj : tasks[j]? = some b) (hkey : key a = key b)
    (ha : holds a = true) (hb : holds b = true) : i = j := by
  by_contra hne
  have htwo := two_le_countP hi hj hne (p := holdsKey key holds (key a)) (holdsKey_self ha)
    (hkey ▸ holdsKey_self hb)
  have hle := Bool.toNat_le (flag (key a))
  rw [h (key a)] at htwo
  omega

end

end Guard
