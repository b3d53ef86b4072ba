import Mathlib.Tactic.Common

/-!
# Operations that may fail

`ExceptT ε (StateM σ)`: an operation on a state that may fail, where a failed one keeps what it has
already written.

* `outcome`, **`outcome_bind`**: a sequence stops at its first error;
* `Fails`: the operation fails and leaves a state with some property;
* `Succeeds`, `Guarded`: steps that write only if they succeed, and sequences of them.
-/

namespace Operation

variable {ε σ τ α β : Type}

def outcome (op : ExceptT ε (StateM σ) α) (s : σ) : Except ε α × σ := op.run s

/-- **A sequence stops at its first error**, in the state that the failed operation leaves. -/
theorem outcome_bind (op : ExceptT ε (StateM σ) α) (f : α → ExceptT ε (StateM σ) β) (s : σ) :
    outcome (op >>= f) s = match outcome op s with
      | (.ok a, t) => outcome (f a) t
      | (.error e, t) => (.error e, t) := by
  have hcont : outcome (op >>= f) s =
      ExceptT.bindCont f (outcome op s).1 (outcome op s).2 := rfl
  rw [hcont]
  rcases outcome op s with ⟨r, t⟩
  cases r with
  | ok a | error e => rfl

variable {op : ExceptT ε (StateM σ) α} {s t : σ} {f : α → ExceptT ε (StateM σ) β} {b : β}
  {x : Except ε α}

theorem outcome_bind_ok {a : α} (h : outcome op s = (.ok a, t)) (f : α → ExceptT ε (StateM σ) β) :
    outcome (op >>= f) s = outcome (f a) t := by
  rw [outcome_bind, h]

theorem outcome_bind_error {e : ε} (h : outcome op s = (.error e, t))
    (f : α → ExceptT ε (StateM σ) β) :
    outcome (op >>= f) s = (.error e, t) := by
  rw [outcome_bind, h]

theorem outcome_get_bind (f : σ → ExceptT ε (StateM σ) β) (s : σ) :
    outcome (get >>= f) s = outcome (f s) s := rfl

theorem outcome_modify_bind (g : σ → σ) (f : PUnit → ExceptT ε (StateM σ) β) (s : σ) :
    outcome (modify g >>= f) s = outcome (f ⟨⟩) (g s) := rfl

theorem ok_of_bind_ok (h : outcome (op >>= f) s = (.ok b, t)) :
    ∃ a u, outcome op s = (.ok a, u) ∧ outcome (f a) u = (.ok b, t) := by
  rw [outcome_bind] at h
  rcases hop : outcome op s with ⟨r, u⟩
  rw [hop] at h
  cases r with
  | ok a => exact ⟨a, u, rfl, h⟩
  | error e => cases congrArg Prod.fst h

theorem outcome_bind_pure_snd (op : ExceptT ε (StateM σ) α) (f : α → β) (s : σ) :
    (outcome (op >>= fun a => pure (f a)) s).2 = (outcome op s).2 := by
  rw [outcome_bind]
  rcases outcome op s with ⟨r, t⟩
  cases r with
  | ok a | error e => rfl

theorem outcome_liftExcept (r : Except ε α) (s : σ) :
    outcome (liftExcept r : ExceptT ε (StateM σ) α) s = (r, s) := by
  cases r with
  | ok a | error e => rfl

theorem bind_eq_ok {f : α → Except ε β} (h : (x >>= f) = .ok b) : ∃ a, x = .ok a ∧ f a = .ok b := by
  cases x with
  | error e => cases h
  | ok a => exact ⟨a, rfl, h⟩

theorem map_eq_ok {f : α → β} (h : x.map f = .ok b) : ∃ a, x = .ok a ∧ f a = b := by
  cases x with
  | error e => cases h
  | ok a => exact ⟨a, rfl, Except.ok.inj h⟩

theorem mapError_eq_ok {ε' : Type} {f : ε → ε'} {a : α} (h : x.mapError f = .ok a) : x = .ok a := by
  cases x with
  | error e => cases h
  | ok b =>
    obtain rfl := Except.ok.inj h
    rfl

/-! ## What an operation does to the state -/

/-- Also if the operation fails. -/
def Within (R : σ → σ → Prop) (op : ExceptT ε (StateM σ) α) : Prop := ∀ s, R s (outcome op s).2

theorem Within.bind {R : σ → σ → Prop} (htrans : ∀ s t u, R s t → R t u → R s u) (h : Within R op)
    (hf : ∀ a, Within R (f a)) : Within R (op >>= f) := by
  intro s
  have hop := h s
  rw [outcome_bind]
  rcases hout : outcome op s with ⟨r, t⟩
  rw [hout] at hop
  cases r with
  | ok a => exact htrans _ _ _ hop (hf a t)
  | error e => exact hop

/-- It leaves a part of the state as it is. -/
def Keeps (π : σ → τ) (op : ExceptT ε (StateM σ) α) : Prop := Within (fun s t => π t = π s) op

theorem Keeps.bind {π : σ → τ} (h : Keeps π op) (hf : ∀ a, Keeps π (f a)) : Keeps π (op >>= f) :=
  Within.bind (fun _ _ _ hst htu => htu.trans hst) h hf

theorem Keeps.of_ok {π : σ → τ} {a : α} (h : Keeps π op) (hout : outcome op s = (.ok a, t)) :
    π t = π s := by
  have hs := h s
  rwa [hout] at hs

theorem keeps_liftExcept {π : σ → τ} {r : Except ε α} :
    Keeps π (liftExcept r : ExceptT ε (StateM σ) α) := by
  intro s
  rw [outcome_liftExcept]

def Fails (Q : σ → Prop) (op : ExceptT ε (StateM σ) α) (s : σ) : Prop :=
  ∃ e t, outcome op s = (.error e, t) ∧ Q t

theorem Fails.of_read {Q : σ → Prop} {r : Except ε α} (h : outcome op s = (r, s)) (hs : Q s)
    (hf : ∀ a, r = .ok a → Fails Q (f a) s) : Fails Q (op >>= f) s := by
  cases r with
  | ok a =>
    obtain ⟨e, t, ht, hQ⟩ := hf a rfl
    exact ⟨e, t, (outcome_bind_ok h f).trans ht, hQ⟩
  | error e => exact ⟨e, s, outcome_bind_error h f, hs⟩

/-! ## Steps that write only if they succeed -/

def Succeeds (op : ExceptT ε (StateM σ) α) (s : σ) : Prop := ∃ a t, outcome op s = (.ok a, t)

theorem not_succeeds_iff : ¬ Succeeds op s ↔ ∃ e t, outcome op s = (.error e, t) := by
  unfold Succeeds
  rcases outcome op s with ⟨r, t⟩
  cases r with
  | ok a | error e => simp

/-- It succeeds with `effect` if `ok` holds, and fails without one otherwise. -/
structure Guarded (op : ExceptT ε (StateM σ) Unit) (ok : σ → Prop) (effect : σ → σ) : Prop where
  success : ∀ s, ok s → outcome op s = (.ok (), effect s)
  failure : ∀ s, ¬ ok s → ∃ e, outcome op s = (.error e, s)

namespace Guarded

variable {op : ExceptT ε (StateM σ) Unit} {ok : σ → Prop} {effect : σ → σ}

theorem of_outcome [DecidablePred ok] (e : ε)
    (h : ∀ s, outcome op s = if ok s then (.ok (), effect s) else (.error e, s)) :
    Guarded op ok effect :=
  ⟨fun s hok => (h s).trans (if_pos hok), fun s hok => ⟨e, (h s).trans (if_neg hok)⟩⟩

theorem within {R : σ → σ → Prop} (h : Guarded op ok effect) (hrefl : ∀ s, R s s)
    (heffect : ∀ s, R s (effect s)) : Within R op := by
  intro s
  by_cases hok : ok s
  · rw [h.success s hok]
    exact heffect s
  · obtain ⟨e, he⟩ := h.failure s hok
    rw [he]
    exact hrefl s

theorem keeps {π : σ → τ} (h : Guarded op ok effect) (heffect : ∀ s, π (effect s) = π s) :
    Keeps π op :=
  h.within (fun _ => rfl) heffect

theorem succeeds_bind (h : Guarded op ok effect) (rest : ExceptT ε (StateM σ) β) (s : σ) :
    Succeeds (op >>= fun _ => rest) s ↔ ok s ∧ Succeeds rest (effect s) := by
  by_cases hok : ok s
  · unfold Succeeds
    rw [outcome_bind_ok (h.success s hok), and_iff_right hok]
  · obtain ⟨e, he⟩ := h.failure s hok
    refine iff_of_false ?_ fun hboth => hok hboth.1
    exact not_succeeds_iff.mpr ⟨e, s, outcome_bind_error he _⟩

theorem state_eq (h : Guarded op ok effect) {s t : σ} {a : Unit}
    (hout : outcome op s = (.ok a, t)) : t = effect s := by
  have hok : ok s := by
    by_contra hok
    obtain ⟨e, he⟩ := h.failure s hok
    rw [he] at hout
    cases congrArg Prod.fst hout
  rw [h.success s hok] at hout
  exact (congrArg Prod.snd hout).symm

theorem succeeds_iff (h : Guarded op ok effect) (s : σ) : Succeeds op s ↔ ok s := by
  by_cases hok : ok s
  · exact iff_of_true ⟨(), effect s, h.success s hok⟩ hok
  · obtain ⟨e, he⟩ := h.failure s hok
    exact iff_of_false (not_succeeds_iff.mpr ⟨e, s, he⟩) hok

end Guarded

theorem succeeds_liftExcept_bind (r : Except ε α) (f : α → ExceptT ε (StateM σ) β) (s : σ) :
    Succeeds (liftExcept r >>= f) s ↔ ∃ a, r = .ok a ∧ Succeeds (f a) s := by
  unfold Succeeds
  rw [outcome_bind, outcome_liftExcept]
  cases r with
  | ok a | error e => simp

/-! ## Refinement -/

/-- To the part `π` of the state `op` does what `spec` does; their errors may differ. -/
def Refines (π : σ → τ) (op : ExceptT ε (StateM σ) α) (spec : ExceptT ε (StateM τ) α) (s : σ) :
    Prop :=
  match outcome op s, outcome spec (π s) with
  | (.ok a, t), (.ok b, u) => a = b ∧ π t = u
  | (.error _, t), (.error _, u) => π t = u
  | _, _ => False

namespace Refines

variable {π : σ → τ} {op : ExceptT ε (StateM σ) α} {spec : ExceptT ε (StateM τ) α} {s : σ}

theorem of_ok {a : α} (h : outcome op s = (.ok a, t)) (hspec : outcome spec (π s) = (.ok a, π t)) :
    Refines π op spec s := by
  unfold Refines
  rw [h, hspec]
  exact ⟨rfl, rfl⟩

theorem of_error {e e' : ε} (h : outcome op s = (.error e, t))
    (hspec : outcome spec (π s) = (.error e', π t)) : Refines π op spec s := by
  unfold Refines
  rw [h, hspec]

theorem of_outcome_eq {op' : ExceptT ε (StateM σ) α} (h : outcome op s = outcome op' t)
    (hst : π s = π t) (hop' : Refines π op' spec t) : Refines π op spec s := by
  unfold Refines at hop' ⊢
  rwa [h, hst]

theorem eq_cases (h : Refines π op spec s) :
    (∃ a t, outcome op s = (.ok a, t) ∧ outcome spec (π s) = (.ok a, π t)) ∨
      ∃ e e' t, outcome op s = (.error e, t) ∧ outcome spec (π s) = (.error e', π t) := by
  unfold Refines at h
  split at h
  · rename_i hop hspec
    exact .inl ⟨_, _, hop, by rw [hspec, h.1, h.2]⟩
  · rename_i hop hspec
    exact .inr ⟨_, _, _, hop, by rw [hspec, h]⟩
  · exact h.elim

theorem state_eq (h : Refines π op spec s) : (outcome spec (π s)).2 = π (outcome op s).2 := by
  obtain ⟨a, t, hop, hspec⟩ | ⟨e, e', t, hop, hspec⟩ := h.eq_cases <;> rw [hop, hspec]

/-- **Refinement goes through sequences.** -/
theorem bind {g : α → ExceptT ε (StateM τ) β} (h : Refines π op spec s)
    (hf : ∀ a t, outcome op s = (.ok a, t) → Refines π (f a) (g a) t) :
    Refines π (op >>= f) (spec >>= g) s := by
  obtain ⟨a, t, hop, hspec⟩ | ⟨e, e', t, hop, hspec⟩ := h.eq_cases
  · have hrest := hf a t hop
    unfold Refines at hrest ⊢
    rwa [outcome_bind_ok hop, outcome_bind_ok hspec]
  · exact of_error (outcome_bind_error hop f) (outcome_bind_error hspec g)

end Refines

end Operation
