import Mathlib.Tactic.Common

/-!
# Scripts — calls that stop at their first error

A call that does one thing after another and stops at the first error keeps what it has already
done. What it comes to is read off a script: one mark for each thing that it does, in order.
-/

namespace Script

/-! ## Scripts -/

inductive Mark
  | pass
  | effect
  | fail
  | wait
  deriving DecidableEq, Repr

def Mark.stops : Mark → Bool
  | .fail | .wait => true
  | .pass | .effect => false

inductive End
  | done
  | failed
  | waiting
  deriving DecidableEq, Repr

def ending : List Mark → End
  | [] => .done
  | .fail :: _ => .failed
  | .wait :: _ => .waiting
  | .pass :: marks | .effect :: marks => ending marks

def leaves : List Mark → Bool
  | [] | .fail :: _ | .wait :: _ => false
  | .effect :: _ => true
  | .pass :: marks => leaves marks

def FailsClean (marks : List Mark) : Prop :=
  ∀ before after : List Mark, marks = before ++ .fail :: after → (∀ m ∈ before, m.stops = false) →
    .effect ∉ before

variable {marks : List Mark}

theorem ending_append (h : ending marks = .done) (rest : List Mark) :
    ending (marks ++ rest) = ending rest := by
  induction marks with
  | nil => rfl
  | cons m marks ih => cases m <;> first | exact ih h | cases h

theorem ending_append_of_ne (h : ending marks ≠ .done) (rest : List Mark) :
    ending (marks ++ rest) = ending marks := by
  induction marks with
  | nil => exact absurd rfl h
  | cons m marks ih => cases m <;> first | rfl | exact ih h

theorem leaves_append (h : ending marks = .done) (rest : List Mark) :
    leaves (marks ++ rest) = (leaves marks || leaves rest) := by
  induction marks with
  | nil => rfl
  | cons m marks ih => cases m <;> first | exact ih h | rfl | cases h

theorem leaves_append_of_ne (h : ending marks ≠ .done) (rest : List Mark) :
    leaves (marks ++ rest) = leaves marks := by
  induction marks with
  | nil => exact absurd rfl h
  | cons m marks ih => cases m <;> first | rfl | exact ih h

theorem ending_of_running {before : List Mark} (after : List Mark)
    (h : ∀ m ∈ before, m.stops = false) :
    ending (before ++ .fail :: after) = .failed ∧
      (leaves (before ++ .fail :: after) = true ↔ .effect ∈ before) := by
  induction before with
  | nil => simp [ending, leaves]
  | cons m before ih =>
    obtain ⟨hend, hleaves⟩ := ih fun m hm => h m (List.mem_cons_of_mem _ hm)
    have hm := h m List.mem_cons_self
    cases m with
    | pass => simp [ending, leaves, hend, hleaves]
    | effect => simp [ending, leaves, hend]
    | fail | wait => cases hm

theorem exists_first_fail (h : ending marks = .failed) :
    ∃ before after, marks = before ++ .fail :: after ∧ ∀ m ∈ before, m.stops = false := by
  induction marks with
  | nil => cases h
  | cons m marks ih =>
    cases m with
    | fail => exact ⟨[], marks, rfl, by simp⟩
    | wait => cases h
    | pass | effect =>
      obtain ⟨before, after, rfl, hrun⟩ := ih h
      exact ⟨_ :: before, after, rfl, List.forall_mem_cons.mpr ⟨rfl, hrun⟩⟩

theorem failsClean_iff : FailsClean marks ↔ (ending marks = .failed → leaves marks = false) := by
  constructor
  · intro h hend
    obtain ⟨before, after, rfl, hrun⟩ := exists_first_fail hend
    have hno := h before after rfl hrun
    rwa [← (ending_of_running after hrun).2, Bool.not_eq_true] at hno
  · rintro h before after rfl hrun
    obtain ⟨hend, hleaves⟩ := ending_of_running after hrun
    rw [← hleaves, h hend]
    exact Bool.false_ne_true

instance (marks : List Mark) : Decidable (FailsClean marks) :=
  decidable_of_iff _ failsClean_iff.symm

/-! ## Calls -/

inductive Stop (ε : Type)
  | error (e : ε)
  | waiting
  deriving DecidableEq, Repr

abbrev Call (ε σ : Type) := ExceptT (Stop ε) (StateM σ)

variable {ε σ α β : Type}

def endOf : Except (Stop ε) α → End
  | .ok _ => .done
  | .error (.error _) => .failed
  | .error .waiting => .waiting

def check (error : Option ε) : Call ε σ Unit :=
  match error with
  | none => pure ()
  | some e => throw (.error e)

def Mark.check (error : Option ε) : Mark := if error.isSome then .fail else .pass

def Mark.touch (b : Bool) : Mark := if b then .effect else .pass

theorem run_bind (c : Call ε σ α) (f : α → Call ε σ β) (s : σ) :
    (c >>= f).run s = match c.run s with
      | (.ok a, s') => (f a).run s'
      | (.error e, s') => (.error e, s') := by
  rw [ExceptT.run_bind]
  show (c.run >>= _) s = _
  simp only [Bind.bind, StateT.bind]
  cases c.run s with
  | mk result s' => cases result <;> rfl

def Returns (c : Call ε σ α) (P : α → Prop) : Prop := ∀ s a, (c.run s).1 = .ok a → P a

namespace Returns

variable {P : α → Prop} {Q : β → Prop}

theorem pure {a : α} (h : P a) : Returns (pure a : Call ε σ α) P := by
  rintro _ _ ⟨⟩
  exact h

theorem throw (stop : Stop ε) : Returns (throw stop : Call ε σ α) P := by
  rintro _ _ ⟨⟩

theorem bind {c : Call ε σ α} {f : α → Call ε σ β} (hc : Returns c P)
    (hf : ∀ a, P a → Returns (f a) Q) : Returns (c >>= f) Q := by
  intro s b hb
  have hval := hc s
  rw [run_bind] at hb
  cases hr : c.run s with
  | mk result s' =>
    rw [hr] at hb hval
    cases result with
    | ok a => exact hf a (hval a rfl) s' b hb
    | error e => cases hb

theorem seq {c : Call ε σ α} {f : α → Call ε σ β} (hf : ∀ a, Returns (f a) Q) :
    Returns (c >>= f) Q :=
  bind (P := fun _ => True) (fun _ _ _ => trivial) fun a _ => hf a

end Returns

/-- **From every state the call ends as the script says**, and so does what is visible. -/
def Follows (visible : σ → Prop) (c : Call ε σ α) (marks : List Mark) : Prop :=
  ∀ s, endOf (c.run s).1 = ending marks ∧ (visible (c.run s).2 ↔ visible s ∨ leaves marks = true)

namespace Follows

variable {visible : σ → Prop} {c : Call ε σ α} {marks : List Mark}

theorem pure (a : α) : Follows visible (pure a : Call ε σ α) [] := fun _ =>
  ⟨rfl, (or_iff_left Bool.false_ne_true).symm⟩

theorem throw_error (e : ε) (rest : List Mark) :
    Follows visible (throw (.error e) : Call ε σ α) (.fail :: rest) := fun _ =>
  ⟨rfl, (or_iff_left Bool.false_ne_true).symm⟩

theorem throw_waiting (rest : List Mark) :
    Follows visible (throw .waiting : Call ε σ α) (.wait :: rest) := fun _ =>
  ⟨rfl, (or_iff_left Bool.false_ne_true).symm⟩

theorem check (error : Option ε) :
    Follows visible (Script.check error : Call ε σ Unit) [Mark.check error] := by
  cases error with
  | none => exact fun _ => ⟨rfl, (or_iff_left Bool.false_ne_true).symm⟩
  | some e => exact throw_error e []

theorem modify {f : σ → σ} {b : Bool} (h : ∀ s, visible (f s) ↔ visible s ∨ b = true) :
    Follows visible (modify f : Call ε σ PUnit) [Mark.touch b] := fun s => by
  refine ⟨?_, (h s).trans ?_⟩
  · cases b <;> rfl
  · cases b <;> simp [Mark.touch, leaves]

theorem bind_of {P : α → Prop} {f : α → Call ε σ β} {rest : List Mark}
    (hc : Follows visible c marks) (hP : Returns c P) (hf : ∀ a, P a → Follows visible (f a) rest) :
    Follows visible (c >>= f) (marks ++ rest) := by
  intro s
  obtain ⟨hend, hvis⟩ := hc s
  have hval := hP s
  rw [run_bind]
  cases hr : c.run s with
  | mk result s' =>
    rw [hr] at hend hvis hval
    cases result with
    | ok a =>
      have hdone : ending marks = .done := hend.symm
      obtain ⟨hend', hvis'⟩ := hf a (hval a rfl) s'
      refine ⟨hend'.trans (ending_append hdone rest).symm, ?_⟩
      rw [leaves_append hdone, Bool.or_eq_true, ← or_assoc, ← hvis]
      exact hvis'
    | error e =>
      have hne : ending marks ≠ .done := by
        rw [← hend]
        cases e <;> exact End.noConfusion
      refine ⟨?_, ?_⟩
      · rw [ending_append_of_ne hne, ← hend]
        cases e <;> rfl
      · rw [leaves_append_of_ne hne]
        exact hvis

theorem bind {f : α → Call ε σ β} {rest : List Mark} (hc : Follows visible c marks)
    (hf : ∀ a, Follows visible (f a) rest) : Follows visible (c >>= f) (marks ++ rest) :=
  hc.bind_of (fun _ _ _ => trivial) fun a _ => hf a

/-- **Nothing visible is left behind an error** exactly if the script fails clean. -/
theorem error_clean_iff (h : Follows visible c marks) {s : σ} (hs : ¬ visible s) :
    (∀ e, (c.run s).1 = .error (.error e) → ¬ visible (c.run s).2) ↔ FailsClean marks := by
  obtain ⟨hend, hvis⟩ := h s
  rw [failsClean_iff, ← hend]
  have hleft : ¬ visible (c.run s).2 ↔ leaves marks = false := by
    rw [hvis, Bool.eq_false_iff]
    simp [hs]
  constructor
  · intro hclean hfail
    cases hr : (c.run s).1 with
    | ok a => rw [hr] at hfail; cases hfail
    | error e =>
      cases e with
      | waiting => rw [hr] at hfail; cases hfail
      | error e => exact hleft.mp (hclean e hr)
  · intro hclean e he
    exact hleft.mpr (hclean (by rw [he]; rfl))

end Follows

end Script
