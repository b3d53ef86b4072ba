import Mathlib.Tactic.Common

/-!
# Scripts that are interrupted and run again

A script is a list of steps that may fail; what a step does may also depend on a reading of the
clock. An interrupted run leaves what its first steps have done. A *staged* script belongs to a
version of the state: a stage is a list of steps and a mark that raises the version, and a run does
the stages that are missing.

* `Settled`, `Repeatable`, **`Repeatable.rerun`**: a step that has nothing left to do, and scripts
  that are safe to repeat after any part of them.
-/

namespace Rerun

variable {σ τ β κ ε : Type} {exec : κ → β → σ → Except ε σ}

/-! ## Runs -/

variable (exec) in
def run (clock : β → κ) : List β → σ → Except ε σ
  | [], s => .ok s
  | b :: bs, s =>
    match exec (clock b) b s with
    | .ok t => run clock bs t
    | .error e => .error e

variable (exec) in
/-- Also if one of the steps fails. -/
def after (clock : β → κ) : List β → σ → σ
  | [], s => s
  | b :: bs, s =>
    match exec (clock b) b s with
    | .ok t => after clock bs t
    | .error _ => s

variable {clock : β → κ} {bs bs' : List β} {s t : σ}

theorem after_of_run (h : run exec clock bs s = .ok t) : after exec clock bs s = t := by
  induction bs generalizing s with
  | nil => exact Except.ok.inj h
  | cons b bs ih =>
    unfold run at h
    unfold after
    cases hb : exec (clock b) b s with
    | error e => simp [hb] at h
    | ok u =>
      rw [hb] at h
      exact ih h

theorem run_append (h : run exec clock bs s = .ok t) :
    run exec clock (bs ++ bs') s = run exec clock bs' t := by
  induction bs generalizing s with
  | nil => rw [List.nil_append, Except.ok.inj h]
  | cons b bs ih =>
    rw [run] at h
    rw [List.cons_append, run]
    cases hb : exec (clock b) b s with
    | error e => simp [hb] at h
    | ok u =>
      rw [hb] at h
      exact ih h

theorem after_append (h : run exec clock bs s = .ok t) :
    after exec clock (bs ++ bs') s = after exec clock bs' t := by
  induction bs generalizing s with
  | nil => rw [List.nil_append, Except.ok.inj h]
  | cons b bs ih =>
    rw [run] at h
    rw [List.cons_append, after]
    cases hb : exec (clock b) b s with
    | error e => simp [hb] at h
    | ok u =>
      rw [hb] at h
      exact ih h

theorem run_of_append (h : run exec clock (bs ++ bs') s = .ok t) :
    ∃ u, run exec clock bs s = .ok u ∧ run exec clock bs' u = .ok t := by
  induction bs generalizing s with
  | nil => exact ⟨s, rfl, h⟩
  | cons b bs ih =>
    rw [List.cons_append, run] at h
    rw [run]
    cases hb : exec (clock b) b s with
    | error e => simp [hb] at h
    | ok u =>
      rw [hb] at h
      exact ih h

/-- **A property that every step keeps** is kept by what a script leaves. -/
theorem after_invariant {I : σ → Prop} (hstep : ∀ b ∈ bs, ∀ c s t, I s → exec c b s = .ok t → I t)
    (h : I s) : I (after exec clock bs s) := by
  induction bs generalizing s with
  | nil => exact h
  | cons b bs ih =>
    unfold after
    cases hb : exec (clock b) b s with
    | error e => exact h
    | ok u =>
      exact ih (fun b' hb' => hstep b' (List.mem_cons_of_mem _ hb'))
        (hstep b List.mem_cons_self _ _ _ h hb)

/-! ## Steps that may be repeated -/

variable (exec) in
def Settled (b : β) (s : σ) : Prop := ∀ c, exec c b s = .ok s

variable (exec) in
/-- A step that succeeds has nothing left to do, and stays so. -/
structure Repeatable (bs : List β) : Prop where
  self : ∀ b ∈ bs, ∀ c s t, exec c b s = .ok t → Settled exec b t
  keep : ∀ b ∈ bs, ∀ b' ∈ bs, ∀ c s t, Settled exec b s → exec c b' s = .ok t → Settled exec b t

theorem run_of_settled (h : ∀ b ∈ bs, Settled exec b s) : run exec clock bs s = .ok s := by
  induction bs with
  | nil => rfl
  | cons b bs ih =>
    rw [run, h b List.mem_cons_self]
    exact ih fun b' hb' => h b' (List.mem_cons_of_mem _ hb')

namespace Repeatable

theorem of_done {done : β → σ → Prop} (hsettled : ∀ b s, done b s → Settled exec b s)
    (hself : ∀ b ∈ bs, ∀ c s t, exec c b s = .ok t → done b t)
    (hkeep : ∀ b ∈ bs, ∀ b' ∈ bs, ∀ c s t, done b s → exec c b' s = .ok t → done b t)
    [Nonempty κ] : Repeatable exec bs where
  self b hb c s t h := hsettled b t (hself b hb c s t h)
  keep b hb b' hb' c s t hs h := by
    have hdone : done b s := hself b hb (Classical.arbitrary κ) s s (hs _)
    exact hsettled b t (hkeep b hb b' hb' c s t hdone h)

theorem append_left (h : Repeatable exec (bs ++ bs')) : Repeatable exec bs where
  self b hb := h.self b (List.mem_append_left _ hb)
  keep b hb b' hb' := h.keep b (List.mem_append_left _ hb) b' (List.mem_append_left _ hb')

theorem keep_run (h : Repeatable exec bs) {b : β} (hb : b ∈ bs) (hsub : bs' ⊆ bs)
    (hs : Settled exec b s) (hrun : run exec clock bs' s = .ok t) : Settled exec b t := by
  have hafter : Settled exec b (after exec clock bs' s) :=
    after_invariant (fun b' hb' => h.keep b hb b' (hsub hb')) hs
  rwa [after_of_run hrun] at hafter

theorem settled (h : Repeatable exec bs) (hsub : bs' ⊆ bs) (hrun : run exec clock bs' s = .ok t) :
    ∀ b ∈ bs', Settled exec b t := by
  induction bs' generalizing s with
  | nil => simp
  | cons b bs' ih =>
    unfold run at hrun
    cases hb : exec (clock b) b s with
    | error e => simp [hb] at hrun
    | ok u =>
      rw [hb] at hrun
      have hsub' : bs' ⊆ bs := fun x hx => hsub (List.mem_cons_of_mem _ hx)
      have hmem := hsub List.mem_cons_self
      intro x hx
      rcases List.mem_cons.mp hx with rfl | hx
      · exact h.keep_run hmem hsub' (h.self x hmem _ _ _ hb) hrun
      · exact ih hsub' hrun x hx

/-- **A repeatable script goes on where it was interrupted.** -/
theorem rerun (h : Repeatable exec bs) (hrun : run exec clock bs s = .ok t) (clock' : β → κ)
    (rest : List β) : run exec clock' (bs ++ rest) t = run exec clock' rest t :=
  run_append (run_of_settled (h.settled (List.Subset.refl _) hrun))

end Repeatable

/-! ## Readings of the clock -/

variable (exec) in
def Alike (e : σ → τ) : Prop :=
  ∀ c c' b s s', e s = e s' → (exec c b s).map e = (exec c' b s').map e

theorem Alike.run {e : σ → τ} (h : Alike exec e) (clock clock' : β → κ) {s s' : σ}
    (hs : e s = e s') : (run exec clock bs s).map e = (run exec clock' bs s').map e := by
  induction bs generalizing s s' with
  | nil => exact congrArg Except.ok hs
  | cons b bs ih =>
    have hb := h (clock b) (clock' b) b s s' hs
    rw [Rerun.run, Rerun.run]
    cases hx : exec (clock b) b s with
    | error x =>
      cases hy : exec (clock' b) b s' with
      | error y =>
        rw [hx, hy] at hb
        exact hb
      | ok v =>
        rw [hx, hy] at hb
        cases hb
    | ok u =>
      cases hy : exec (clock' b) b s' with
      | error y =>
        rw [hx, hy] at hb
        cases hb
      | ok v =>
        rw [hx, hy] at hb
        exact ih (Except.ok.inj hb)

theorem ok_of_map_ok {x : Except ε σ} {e : σ → τ} {y : τ} (h : x.map e = .ok y) :
    ∃ s, x = .ok s ∧ e s = y := by
  cases x with
  | error _ => cases h
  | ok s => exact ⟨s, rfl, Except.ok.inj h⟩

/-! ## Stages -/

/-- The stages from version `v` on, of which `n` are missing. -/
def script (stage : ℕ → List β) (mark : ℕ → β) (v : ℕ) : ℕ → List β
  | 0 => []
  | n + 1 => stage v ++ mark v :: script stage mark (v + 1) n

variable (exec) in
/-- The steps of a stage leave the version alone, and marks raise it. -/
structure Staged (stage : ℕ → List β) (mark : ℕ → β) (version : σ → ℕ) : Prop where
  repeatable : ∀ v, Repeatable exec (stage v)
  keep : ∀ v, ∀ b ∈ stage v, ∀ c s t, exec c b s = .ok t → version t = version s
  mark : ∀ v c s t, version s = v → exec c (mark v) s = .ok t → version t = v + 1

namespace Staged

variable {stage : ℕ → List β} {mark : ℕ → β} {version : σ → ℕ} {e : σ → τ}

theorem version_run (h : Staged exec stage mark version) {v : ℕ} (hsub : bs ⊆ stage v)
    (hrun : run exec clock bs s = .ok t) : version t = version s := by
  have hafter : version (after exec clock bs s) = version s :=
    after_invariant (I := fun u => version u = version s)
      (fun b hb c u u' hu hstep => (h.keep v b (hsub hb) c u u' hstep).trans hu) rfl
  rwa [after_of_run hrun] at hafter

theorem version_mark (h : Staged exec stage mark version) {v : ℕ} (hv : version s = v)
    (hrun : run exec clock (stage v ++ [mark v]) s = .ok t) : version t = v + 1 := by
  obtain ⟨u, hstage, hmark⟩ := run_of_append hrun
  have hu : version u = v := (h.version_run (List.Subset.refl _) hstage).trans hv
  rw [run] at hmark
  cases hx : exec (clock (mark v)) (mark v) u with
  | error x => simp [hx] at hmark
  | ok w =>
    rw [hx] at hmark
    obtain rfl := Except.ok.inj hmark
    exact h.mark v _ _ _ hu hx

theorem rerun_stage (h : Staged exec stage mark version) (he : Alike exec e) {v : ℕ}
    {rest : List β} (hrun : run exec clock (stage v ++ rest) s = .ok t) (k : ℕ)
    (clock' : β → κ) :
    version (after exec clock ((stage v).take k) s) = version s ∧
      ∃ t', run exec clock' (stage v ++ rest) (after exec clock ((stage v).take k) s) = .ok t' ∧
        e t' = e t := by
  rw [← List.take_append_drop k (stage v), List.append_assoc] at hrun
  obtain ⟨u, hfirst, hrest⟩ := run_of_append hrun
  rw [after_of_run hfirst]
  refine ⟨h.version_run (List.take_subset k _) hfirst, ?_⟩
  have hrepeat : Repeatable exec ((stage v).take k) := by
    have hstage := h.repeatable v
    rw [← List.take_append_drop k (stage v)] at hstage
    exact hstage.append_left
  have hagain := hrepeat.rerun hfirst clock' ((stage v).drop k ++ rest)
  rw [← List.append_assoc, List.take_append_drop] at hagain
  rw [hagain]
  exact ok_of_map_ok ((he.run clock' clock rfl).trans (congrArg (Except.map e) hrest))

/-- **A staged script, interrupted anywhere, is run again**, and ends as if it had not been. -/
theorem rerun (h : Staged exec stage mark version) (he : Alike exec e) (n : ℕ)
    (hrun : run exec clock (script stage mark (version s) n) s = .ok t) (k : ℕ)
    (clock' : β → κ) :
    ∃ n' t', version (after exec clock ((script stage mark (version s) n).take k) s) + n' =
        version s + n ∧
      run exec clock' (script stage mark
          (version (after exec clock ((script stage mark (version s) n).take k) s)) n')
        (after exec clock ((script stage mark (version s) n).take k) s) = .ok t' ∧ e t' = e t := by
  induction n generalizing s k with
  | zero =>
    obtain rfl := Except.ok.inj hrun
    rw [script, List.take_nil]
    exact ⟨0, s, rfl, rfl, rfl⟩
  | succ n ih =>
    rw [script] at hrun ⊢
    by_cases hk : k ≤ (stage (version s)).length
    · rw [List.take_append_of_le_length hk]
      obtain ⟨hversion, t', hagain, ht⟩ := h.rerun_stage he hrun k clock'
      refine ⟨n + 1, t', by rw [hversion], ?_, ht⟩
      rw [hversion, script]
      exact hagain
    · -- the first mark is set: the rest of the script belongs to the next version
      rw [List.append_cons] at hrun ⊢
      obtain ⟨u, hmarked, hrest⟩ := run_of_append hrun
      have hu : version u = version s + 1 := h.version_mark rfl hmarked
      rw [← hu] at hrest ⊢
      rw [List.take_append, List.take_of_length_le (by simp; omega), after_append hmarked]
      obtain ⟨n', t', hn, hagain, ht⟩ :=
        ih hrest (k - (stage (version s) ++ [mark (version s)]).length)
      exact ⟨n', t', by omega, hagain, ht⟩

end Staged

end Rerun
