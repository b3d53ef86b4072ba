import Mathlib.Tactic.Common

/-!
# Guarded runs of a transition system

A `System` has initial states and a partial step on actions; whatever the environment decides is
part of the action. A **guard** `G : σ → α → Prop` restricts the steps of a run by a condition on
the state before the step, so a conditional safety statement reads `Reach S G s → P s`; plain
reachability is `Reach S Free`.
-/

namespace Transition

universe u v

structure System (σ : Type u) (α : Type v) where
  init : σ → Prop
  step : σ → α → Option σ

def Free {σ : Type u} {α : Type v} : σ → α → Prop := fun _ _ => True

variable {σ : Type u} {α : Type v} {S : System σ α} {G G' : σ → α → Prop}

variable (S G) in
/-- All its steps meet the guard. -/
inductive Path (s : σ) : σ → Prop
  | refl : Path s s
  | tail {t u : σ} {a : α} : Path s t → G t a → S.step t a = some u → Path s u

variable (S G) in
def Reach (t : σ) : Prop := ∃ s, S.init s ∧ Path S G s t

variable {s t : σ} {a : α} {I : σ → Prop} {as : List α}

theorem Path.trans {u : σ} (h₁ : Path S G s t) (h₂ : Path S G t u) : Path S G s u := by
  induction h₂ with
  | refl => exact h₁
  | tail _ hg hst ih => exact ih.tail hg hst

theorem Path.single (hg : G s a) (h : S.step s a = some t) : Path S G s t :=
  Path.refl.tail hg h

theorem Path.mono (hG : ∀ s a, G s a → G' s a) (h : Path S G s t) : Path S G' s t := by
  induction h with
  | refl => exact .refl
  | tail _ hg hst ih => exact ih.tail (hG _ _ hg) hst

/-- **A property that every guarded step keeps holds along a run.** -/
theorem Path.invariant (h : Path S G s t) (h₀ : I s)
    (hstep : ∀ s a t, I s → G s a → S.step s a = some t → I t) : I t := by
  induction h with
  | refl => exact h₀
  | tail _ hg hst ih => exact hstep _ _ _ ih hg hst

theorem Reach.of_init (h : S.init s) : Reach S G s := ⟨s, h, .refl⟩

theorem Reach.extend (h : Reach S G s) (hp : Path S G s t) : Reach S G t := by
  obtain ⟨s₀, h₀, hs⟩ := h
  exact ⟨s₀, h₀, hs.trans hp⟩

theorem Reach.step (h : Reach S G s) (hg : G s a) (hst : S.step s a = some t) : Reach S G t :=
  h.extend (.single hg hst)

theorem Reach.mono (hG : ∀ s a, G s a → G' s a) (h : Reach S G s) : Reach S G' s := by
  obtain ⟨s₀, h₀, hs⟩ := h
  exact ⟨s₀, h₀, hs.mono hG⟩

theorem Reach.free (h : Reach S G s) : Reach S Free s := h.mono fun _ _ _ => trivial

/-- **Induction over guarded runs.** -/
theorem Reach.invariant (h : Reach S G s) (h₀ : ∀ s, S.init s → I s)
    (hstep : ∀ s a t, I s → G s a → S.step s a = some t → I t) : I s := by
  obtain ⟨s₀, hi, hp⟩ := h
  exact hp.invariant (h₀ s₀ hi) hstep

/-! ## Independent copies -/

section Family

variable {ι : Type*} [DecidableEq ι]

variable (ι S) in
/-- A step is a step of one copy. -/
def System.family : System (ι → σ) (ι × α) where
  init f := ∀ i, S.init (f i)
  step f a := (S.step (f a.1) a.2).map (Function.update f a.1)

def onComponent (G : σ → α → Prop) (f : ι → σ) (a : ι × α) : Prop := G (f a.1) a.2

instance [∀ s a, Decidable (G s a)] (f : ι → σ) (a : ι × α) : Decidable (onComponent G f a) :=
  inferInstanceAs (Decidable (G (f a.1) a.2))

/-- **Every copy runs like the one system**, whatever the others do in between. -/
theorem Reach.component {f : ι → σ} (h : Reach (S.family ι) (onComponent G) f) (i : ι) :
    Reach S G (f i) := by
  refine h.invariant (I := fun f => Reach S G (f i)) (fun f hf => .of_init (hf i)) ?_
  intro f a g hf hg hstep
  obtain ⟨t, ht, rfl⟩ := Option.map_eq_some_iff.mp hstep
  by_cases hi : i = a.1
  · subst hi
    rw [Function.update_self]
    exact hf.step hg ht
  · rwa [Function.update_of_ne hi]

theorem Path.family {s t : σ} (h : Path S G s t) (f : ι → σ) (i : ι) (hf : f i = s) :
    Path (S.family ι) (onComponent G) f (Function.update f i t) := by
  induction h with
  | refl =>
    rw [← hf, Function.update_eq_self]
    exact .refl
  | @tail t u a _ hg hst ih =>
    have hi : Function.update f i t i = t := Function.update_self ..
    refine ih.tail (a := (i, a)) ?_ ?_
    · rwa [onComponent, hi]
    · simp only [System.family, hi, hst, Option.map_some, Function.update_idem]

theorem Reach.family {s : σ} (h : Reach S G s) (i : ι) :
    ∃ f : ι → σ, Reach (S.family ι) (onComponent G) f ∧ f i = s := by
  obtain ⟨s₀, h₀, hp⟩ := h
  exact ⟨_, ⟨fun _ => s₀, fun _ => h₀, hp.family (fun _ => s₀) i rfl⟩, Function.update_self ..⟩

end Family

/-! ## Executable runs -/

variable (S) in
/-- Perform a list of actions. -/
def exec : σ → List α → Option σ
  | s, [] => some s
  | s, a :: as => (S.step s a).bind fun t => exec t as

variable (S G) in
/-- The guard holds at every step of the list of actions. -/
def Along : σ → List α → Prop
  | _, [] => True
  | s, a :: as => G s a ∧ ∀ t ∈ S.step s a, Along t as

theorem along_of_forall (h : ∀ a ∈ as, ∀ s, G s a) (s : σ) : Along S G s as := by
  induction as generalizing s with
  | nil => trivial
  | cons a as ih =>
    exact ⟨h a List.mem_cons_self s, fun t _ => ih (fun b hb => h b (List.mem_cons_of_mem a hb)) t⟩

theorem along_free (s : σ) (as : List α) : Along S Free s as :=
  along_of_forall (fun _ _ _ => trivial) s

theorem exec_path (h : exec S s as = some t) (hG : Along S G s as) : Path S G s t := by
  induction as generalizing s with
  | nil =>
    rw [exec, Option.some.injEq] at h
    subst h
    exact .refl
  | cons a as ih =>
    obtain ⟨u, hu, hrest⟩ := Option.bind_eq_some_iff.mp h
    exact (Path.single hG.1 hu).trans (ih hrest (hG.2 u hu))

theorem along_cons (h : S.step s a = some t) : Along S G s (a :: as) ↔ G s a ∧ Along S G t as := by
  simp [Along, h]

/-- **A guard that is exact.** A run ends in `I` or in `L`, depending on whether all of it meets
`G`. -/
theorem exec_along_or {L : σ → Prop} (hkeep : ∀ s a t, I s → G s a → S.step s a = some t → I t)
    (hbreak : ∀ s a t, I s → ¬ G s a → S.step s a = some t → L t)
    (hlost : ∀ s a t, L s → S.step s a = some t → L t) (hs : I s) (h : exec S s as = some t) :
    Along S G s as ∧ I t ∨ ¬ Along S G s as ∧ L t := by
  induction as generalizing s with
  | nil =>
    rw [exec, Option.some.injEq] at h
    exact .inl ⟨trivial, h ▸ hs⟩
  | cons a as ih =>
    obtain ⟨u, hu, hrest⟩ := Option.bind_eq_some_iff.mp h
    rw [along_cons hu]
    by_cases hG : G s a
    · rw [and_iff_right hG]
      exact ih (hkeep s a u hs hG hu) hrest
    · refine .inr ⟨fun halong => hG halong.1, ?_⟩
      have hpath : Path S Free u t := exec_path hrest (along_free u as)
      exact hpath.invariant (hbreak s a u hs hG hu) fun s a t hs _ hstep => hlost s a t hs hstep

variable (S) in
def AfterEach (P : σ → Prop) (s : σ) (as : List α) : Prop :=
  Along S (fun s a => ∀ t ∈ S.step s a, P t) s as

/-- **An exact guard for every state of a run.** -/
theorem afterEach_iff_along {P : σ → Prop}
    (hkeep : ∀ s a t, I s → G s a → S.step s a = some t → I t) (hI : ∀ s, I s → P s)
    (hexact : ∀ s a t, I s → S.step s a = some t → P t → G s a) (hs : I s)
    (h : exec S s as = some t) : AfterEach S P s as ↔ Along S G s as := by
  unfold AfterEach
  induction as generalizing s with
  | nil => exact Iff.rfl
  | cons a as ih =>
    obtain ⟨u, hu, hrest⟩ := Option.bind_eq_some_iff.mp h
    rw [along_cons hu, along_cons hu]
    have hafter : (∀ t ∈ S.step s a, P t) ↔ P u := by simp [hu]
    rw [hafter]
    constructor
    · rintro ⟨hP, halong⟩
      have hG := hexact s a u hs hu hP
      exact ⟨hG, (ih (hkeep s a u hs hG hu) hrest).mp halong⟩
    · rintro ⟨hG, halong⟩
      have hI' := hkeep s a u hs hG hu
      exact ⟨hI u hI', (ih hI' hrest).mpr halong⟩

instance [∀ s a, Decidable (G s a)] : ∀ (s : σ) (as : List α), Decidable (Along S G s as)
  | _, [] => isTrue trivial
  | s, a :: as =>
    have : ∀ t, Decidable (Along S G t as) := fun t => instDecidableAlong t as
    inferInstanceAs (Decidable (G s a ∧ ∀ t ∈ S.step s a, Along S G t as))

/-- **A concrete schedule**: what holds at its end holds in a reachable state. -/
theorem exec_reach {p : σ → Prop} (as : List α) (hs : S.init s) (hG : Along S G s as)
    (h : ∃ t ∈ exec S s as, p t) : ∃ t, Reach S G t ∧ p t := by
  obtain ⟨t, ht, hp⟩ := h
  exact ⟨t, ⟨s, hs, exec_path ht hG⟩, hp⟩

end Transition
