import Zbag.Job.Service
import Zbag.Tx.Service
import Mathlib.Data.List.Nodup

/-!
# Jobs — the inputs of shielding transactions

`shield_funds` and `shield_funds_blocking` each price the batches of transparent outputs and build
a transaction from the inputs that are left of a batch. Both go through the batches in the same way:
-/

namespace ZbagJob

open Script Transition ZbagTx

/-! ## Pricing a batch -/

/-- Dust is reported only if there is some among the inputs. -/
def HonestFor : List OutPoint → List StrategyAnswer → Prop
  | selection, .dustInputs transparent :: answers =>
    transparent ≠ [] ∧ transparent ⊆ selection ∧
      HonestFor (selection.filter (· ∉ transparent)) answers
  | _, _ => True

def reportedDust : List OutPoint → List StrategyAnswer → List OutPoint
  | selection, .dustInputs transparent :: answers =>
    transparent ++ reportedDust (selection.filter (· ∉ transparent)) answers
  | _, _ => []

variable {inputs selection batch : List OutPoint} {transparent : List OutPoint}
  {as : List StrategyAnswer} {fee : ℕ}

/-- **The pricing loop ends**: each turn but the last takes an input away. -/
theorem priceBatch_isSome (h : HonestFor selection as) (hne : selection ≠ [])
    (hlength : selection.length ≤ as.length) : (priceBatch selection as).isSome = true := by
  induction as generalizing selection with
  | nil => exact absurd (List.length_eq_zero_iff.mp (Nat.le_zero.mp hlength)) hne
  | cons answer as ih =>
    cases answer with
    | dustInputs transparent =>
      obtain ⟨hdust, hsubset, hrest⟩ := h
      rw [priceBatch]
      split_ifs with hempty
      · rfl
      · obtain ⟨o, ho⟩ := List.exists_mem_of_ne_nil _ hdust
        have hlt : (selection.filter (· ∉ transparent)).length < selection.length :=
          List.length_filter_lt_length_iff_exists.mpr ⟨o, hsubset ho, by simpa using ho⟩
        refine ih hrest (fun h => hempty (by rw [h]; rfl)) ?_
        rw [List.length_cons] at hlength
        omega
    | balance | insufficientFunds | other => rfl

theorem priceBatch_inputs (h : priceBatch batch as = some (.inputs selection fee)) :
    selection ≠ [] ∧ selection.Sublist batch ∧
      ∀ o ∈ batch, o ∈ selection ∨ o ∈ reportedDust batch as := by
  induction as generalizing batch with
  | nil => cases h
  | cons answer as ih =>
    cases answer with
    | balance fee' =>
      rw [priceBatch] at h
      split_ifs at h with hne <;> cases h
      exact ⟨fun h => hne (by rw [h]; rfl), .refl _, fun o => .inl⟩
    | dustInputs transparent =>
      rw [priceBatch] at h
      split_ifs at h
      · cases h
      obtain ⟨hne, hsublist, hdust⟩ := ih h
      refine ⟨hne, hsublist.trans List.filter_sublist, fun o ho => ?_⟩
      rw [reportedDust, List.mem_append]
      by_cases hmem : o ∈ transparent
      · exact .inr (.inl hmem)
      · exact (hdust o (List.mem_filter.mpr ⟨ho, by simpa using hmem⟩)).imp_right .inr
    | insufficientFunds | other => cases h

theorem priceBatch_skip (h : priceBatch batch as = some .skip) :
    ∀ o ∈ batch, o ∈ reportedDust batch as := by
  induction as generalizing batch with
  | nil => cases h
  | cons answer as ih =>
    cases answer with
    | balance fee' =>
      rw [priceBatch] at h
      split_ifs at h with hempty <;> cases h
      rw [List.isEmpty_iff.mp hempty]
      exact List.forall_mem_nil _
    | dustInputs transparent =>
      intro o ho
      rw [reportedDust, List.mem_append]
      by_cases hmem : o ∈ transparent
      · exact .inl hmem
      · have hleft : o ∈ batch.filter (· ∉ transparent) :=
          List.mem_filter.mpr ⟨ho, by simpa using hmem⟩
        rw [priceBatch] at h
        split_ifs at h with hempty
        · rw [List.isEmpty_iff.mp hempty] at hleft
          cases hleft
        · exact .inr (ih h o hleft)
    | insufficientFunds | other => cases h

/-! ## The batches -/

theorem flatten_chunksFrom {n : ℕ} (hn : 0 < n) (fuel : ℕ) (l : List OutPoint)
    (h : l.length ≤ fuel) : (chunksFrom n fuel l).flatten = l := by
  induction fuel generalizing l with
  | zero => rw [List.length_eq_zero_iff.mp (Nat.le_zero.mp h), chunksFrom, List.flatten_nil]
  | succ fuel ih =>
    rw [chunksFrom]
    split_ifs with hempty
    · rw [List.isEmpty_iff.mp hempty, List.flatten_nil]
    · have hlength : (l.drop n).length ≤ fuel := by
        rw [List.length_drop]
        omega
      rw [List.flatten_cons, ih _ hlength, List.take_append_drop]

theorem mem_chunksFrom {n : ℕ} (hn : 0 < n) (fuel : ℕ) (l : List OutPoint)
    (h : batch ∈ chunksFrom n fuel l) : batch ≠ [] ∧ batch.length ≤ n := by
  induction fuel generalizing l with
  | zero => cases h
  | succ fuel ih =>
    rw [chunksFrom] at h
    split_ifs at h with hempty
    · cases h
    · rcases List.mem_cons.mp h with rfl | h
      · refine ⟨fun hnil => hempty ?_, List.length_take_le n l⟩
        rw [(List.take_eq_nil_iff.mp hnil).resolve_left (by omega)]
        rfl
      · exact ih _ h

theorem flatten_shieldingBatches (inputs : List OutPoint) :
    (shieldingBatches inputs).flatten = inputs :=
  flatten_chunksFrom (by decide) _ _ (Nat.le_refl _)

theorem mem_shieldingBatches (h : batch ∈ shieldingBatches inputs) :
    batch ≠ [] ∧ batch.length ≤ maxShieldingInputsPerTx :=
  mem_chunksFrom (by decide) _ _ h

/-! ## What is spent -/

section Answers

-- what the strategy answers for a batch
variable (answers : List OutPoint → List StrategyAnswer)

/-- What pricing leaves of a batch. -/
def selected (batch : List OutPoint) : Option (List OutPoint) :=
  match priceBatch batch (answers batch) with
  | some (.inputs selection _) => some selection
  | _ => none

def Accounted (batch : List OutPoint) : Prop :=
  ∀ o ∈ batch, (∃ selection, selected answers batch = some selection ∧ o ∈ selection) ∨
    o ∈ reportedDust batch (answers batch)

/-- The batches before those that are left are done. -/
def Progress (inputs : List OutPoint) (spent left : List (List OutPoint)) : Prop :=
  ∃ done, shieldingBatches inputs = done ++ left ∧ spent = done.filterMap (selected answers) ∧
    ∀ batch ∈ done, Accounted answers batch

def Separate (spent : List (List OutPoint)) : Prop :=
  spent.Pairwise List.Disjoint ∧
    ∀ selection ∈ spent, 1 ≤ selection.length ∧ selection.length ≤ maxShieldingInputsPerTx

def AllAccounted (inputs : List OutPoint) (spent : List (List OutPoint)) : Prop :=
  ∀ o ∈ inputs, (∃ selection ∈ spent, o ∈ selection) ∨
    ∃ batch ∈ shieldingBatches inputs, o ∈ batch ∧ o ∈ reportedDust batch (answers batch)

variable {answers} {spent left : List (List OutPoint)}

theorem selected_of_inputs (h : priceBatch batch (answers batch) = some (.inputs selection fee)) :
    selected answers batch = some selection := by
  rw [selected, h]

theorem exists_of_selected (h : selected answers batch = some selection) :
    ∃ fee, priceBatch batch (answers batch) = some (.inputs selection fee) := by
  unfold selected at h
  split at h <;> cases h
  exact ⟨_, by assumption⟩

theorem Progress.start (answers : List OutPoint → List StrategyAnswer) (inputs : List OutPoint) :
    Progress answers inputs [] (shieldingBatches inputs) :=
  ⟨[], rfl, rfl, List.forall_mem_nil _⟩

theorem Progress.next (h : Progress answers inputs spent (batch :: left))
    (hbatch : Accounted answers batch) :
    Progress answers inputs (spent ++ (selected answers batch).toList) left := by
  obtain ⟨done, hbatches, rfl, hdone⟩ := h
  refine ⟨done ++ [batch], by rw [hbatches, List.append_assoc, List.singleton_append], ?_, ?_⟩
  · rw [List.filterMap_append]
    cases hsel : selected answers batch <;> simp [hsel]
  · intro b hb
    rcases List.mem_append.mp hb with hb | hb
    · exact hdone b hb
    · rwa [List.mem_singleton.mp hb]

/-- A batch of dust is left out. -/
theorem Progress.skip (h : Progress answers inputs spent (batch :: left))
    (hprice : priceBatch batch (answers batch) = some .skip) :
    Progress answers inputs spent left := by
  have hsel : selected answers batch = none := by rw [selected, hprice]
  have hnext := h.next fun o ho => .inr (priceBatch_skip hprice o ho)
  rwa [hsel, Option.toList_none, List.append_nil] at hnext

theorem Progress.spend (h : Progress answers inputs spent (batch :: left))
    (hsel : selected answers batch = some selection) :
    Progress answers inputs (spent ++ [selection]) left := by
  obtain ⟨fee, hprice⟩ := exists_of_selected hsel
  have hnext := h.next fun o ho =>
    ((priceBatch_inputs hprice).2.2 o ho).imp_left fun ho => ⟨selection, hsel, ho⟩
  rwa [hsel] at hnext

theorem Progress.isPrefix (h : Progress answers inputs spent left) :
    spent <+: (shieldingBatches inputs).filterMap (selected answers) := by
  obtain ⟨done, hbatches, rfl, -⟩ := h
  rw [hbatches, List.filterMap_append]
  exact List.prefix_append _ _

theorem Progress.eq_of_nil (h : Progress answers inputs spent []) :
    spent = (shieldingBatches inputs).filterMap (selected answers) := by
  obtain ⟨done, hbatches, rfl, -⟩ := h
  rw [hbatches, List.append_nil]

theorem Progress.allAccounted (h : Progress answers inputs spent []) :
    AllAccounted answers inputs spent := by
  obtain ⟨done, hbatches, rfl, hdone⟩ := h
  rw [List.append_nil] at hbatches
  intro o ho
  rw [← flatten_shieldingBatches inputs, List.mem_flatten, hbatches] at ho
  obtain ⟨batch, hbatch, ho⟩ := ho
  rcases hdone batch hbatch o ho with ⟨selection, hsel, ho⟩ | hdust
  · exact .inl ⟨selection, List.mem_filterMap.mpr ⟨batch, hbatch, hsel⟩, ho⟩
  · exact .inr ⟨batch, hbatches ▸ hbatch, ho, hdust⟩

theorem separate_of_prefix (hinputs : inputs.Nodup)
    (h : spent <+: (shieldingBatches inputs).filterMap (selected answers)) : Separate spent := by
  have hsub : ∀ {batch selection}, selected answers batch = some selection →
      selection ≠ [] ∧ selection.Sublist batch := by
    intro batch selection hsel
    obtain ⟨fee, hprice⟩ := exists_of_selected hsel
    exact ⟨(priceBatch_inputs hprice).1, (priceBatch_inputs hprice).2.1⟩
  constructor
  · rw [← flatten_shieldingBatches inputs, List.nodup_flatten] at hinputs
    refine List.Pairwise.sublist h.sublist ?_
    rw [List.pairwise_filterMap]
    refine hinputs.2.imp fun {a b} hdisjoint x hx y hy o hox hoy => ?_
    exact hdisjoint ((hsub hx).2.subset hox) ((hsub hy).2.subset hoy)
  · intro selection hmem
    obtain ⟨batch, hbatch, hsel⟩ := List.mem_filterMap.mp (h.subset hmem)
    obtain ⟨hne, hsublist⟩ := hsub hsel
    exact ⟨List.length_pos_iff.mpr hne,
      Nat.le_trans hsublist.length_le (mem_shieldingBatches hbatch).2⟩

theorem Progress.ne_nil (h : Progress answers inputs spent (batch :: left)) : batch ≠ [] := by
  obtain ⟨done, hbatches, -, -⟩ := h
  have hmem : batch ∈ shieldingBatches inputs := by
    rw [hbatches]
    exact List.mem_append_right _ List.mem_cons_self
  exact (mem_shieldingBatches hmem).1

end Answers

/-! ## `shield_funds` -/

def createdInputs (env : BatchEnv) (batch : List OutPoint) : List (List OutPoint) :=
  if batch.isEmpty || env.walletMeta.isSome || env.proposal.isSome then []
  else
    match priceBatch batch env.answers, env.build with
    | some (.inputs selection _), .ok _ => [selection]
    | _, _ => []

/-- Up to the batch that fails. -/
def spentInputs : List (List OutPoint) → List BatchEnv → Option ShieldFundsResponse → Outbox →
    List (List OutPoint)
  | batch :: batches, env :: envs, primary, o =>
    createdInputs env batch ++
      match (shieldBatch env batch primary).run o with
      | (.ok primary, o) => spentInputs batches envs primary o
      | (.error _, _) => []
  | _, _, _, _ => []

def shieldFundsSpends (inputs : List OutPoint) (envs : List BatchEnv) (o : Outbox) :
    List (List OutPoint) :=
  spentInputs (shieldingBatches inputs) envs none o

/-- The batch loop runs to its end. -/
def ShieldFundsLeaves (inputs : List OutPoint) (envs : List BatchEnv) (o : Outbox) : Prop :=
  ∃ r, ((shieldBatchLoop (shieldingBatches inputs) envs none).run o).1 = .ok r

variable {answers : List OutPoint → List StrategyAnswer} {spent left : List (List OutPoint)}
  {env : BatchEnv} {primary : Option ShieldFundsResponse} {o : Outbox}

theorem createdInputs_cases (env : BatchEnv) (batch : List OutPoint) :
    createdInputs env batch = [] ∨ ∃ selection fee,
      priceBatch batch env.answers = some (.inputs selection fee) ∧
        createdInputs env batch = [selection] := by
  unfold createdInputs
  split_ifs
  · exact .inl rfl
  · split
    · exact .inr ⟨_, _, by assumption, rfl⟩
    · exact .inl rfl

theorem shieldBatch_ok {r : Option ShieldFundsResponse} {o' : Outbox} (hne : batch ≠ [])
    (h : (shieldBatch env batch primary).run o = (.ok r, o')) :
    (priceBatch batch env.answers = some .skip ∧ createdInputs env batch = []) ∨
      ∃ selection fee, priceBatch batch env.answers = some (.inputs selection fee) ∧
        createdInputs env batch = [selection] := by
  rw [shieldBatch, if_neg (by simpa using hne)] at h
  cases hmeta : env.walletMeta with
  | some e =>
    rw [hmeta] at h
    cases h
  | none =>
    rw [hmeta] at h
    unfold createdInputs
    cases hprice : priceBatch batch env.answers with
    | none =>
      rw [hprice] at h
      cases h
    | some priced =>
      rw [hprice] at h
      cases priced with
      | skip => exact .inl ⟨rfl, by simp⟩
      | insufficientFunds | failed => cases h
      | inputs selection fee =>
        refine .inr ⟨selection, fee, rfl, ?_⟩
        cases hproposal : env.proposal with
        | some e =>
          simp only [shieldBuild, hproposal] at h
          cases h
        | none =>
          cases hbuild : env.build with
          | error e =>
            simp only [shieldBuild, hproposal, hbuild] at h
            cases h
          | ok txs => simp [hne, hmeta]

theorem spentInputs_progress (envs : List BatchEnv) (primary : Option ShieldFundsResponse)
    (o : Outbox) (h : Progress answers inputs spent left)
    (henvs : ∀ p ∈ left.zip envs, p.2.answers = answers p.1) :
    (spent ++ spentInputs left envs primary o <+:
        (shieldingBatches inputs).filterMap (selected answers)) ∧
      ∀ r, ((shieldBatchLoop left envs primary).run o).1 = .ok r →
        Progress answers inputs (spent ++ spentInputs left envs primary o) [] := by
  induction left generalizing envs spent primary o with
  | nil =>
    rw [spentInputs, List.append_nil]
    · exact ⟨h.isPrefix, fun r _ => h⟩
    · exact nofun
  | cons batch left ih =>
    cases envs with
    | nil =>
      rw [spentInputs, List.append_nil]
      · exact ⟨h.isPrefix, nofun⟩
      · exact nofun
    | cons env envs =>
      obtain ⟨henv, hrest⟩ := List.forall_mem_cons.mp henvs
      dsimp only at henv
      rw [spentInputs, shieldBatchLoop, run_bind]
      cases hrun : (shieldBatch env batch primary).run o with
      | mk result o' =>
        cases result with
        | error e =>
          dsimp only
          rw [List.append_nil]
          refine ⟨?_, nofun⟩
          rcases createdInputs_cases env batch with hnone | ⟨selection, fee, hprice, hone⟩
          · rw [hnone, List.append_nil]
            exact h.isPrefix
          · rw [hone]
            rw [henv] at hprice
            exact (h.spend (selected_of_inputs hprice)).isPrefix
        | ok r =>
          dsimp only
          rw [← List.append_assoc]
          refine ih envs r o' ?_ hrest
          rcases shieldBatch_ok h.ne_nil hrun with ⟨hprice, hnone⟩ | ⟨selection, fee, hprice, hone⟩
          · rw [hnone, List.append_nil]
            exact h.skip (henv ▸ hprice)
          · rw [hone]
            exact h.spend (selected_of_inputs (henv ▸ hprice))

/-! ## `shield_funds_blocking` -/

structure Shielding where
  pc : ClosurePc
  selection : List OutPoint
  spent : List (List OutPoint)

def nextSelection (s : Shielding) (answer : ClosureAnswer) : List OutPoint :=
  match s.pc, answer with
  | .shieldPrice batch _, .price none as _ =>
    match priceBatch batch as with
    | some (.inputs selection _) => selection
    | _ => s.selection
  | _, _ => s.selection

def nextSpent (s : Shielding) (answer : ClosureAnswer) : List (List OutPoint) :=
  match s.pc, answer with
  | .shieldCreate _, .create (.ok _) => s.spent ++ [s.selection]
  | _, _ => s.spent

def shieldFundsBlocking : System Shielding (Bool × ClosureAnswer) where
  init s := s = ⟨.shieldCheck, [], []⟩
  step s a := (closureNext a.1 s.pc a.2).map fun next =>
    ⟨next.1, nextSelection s a.2, nextSpent s a.2⟩

def Given (inputs : List OutPoint) (answers : List OutPoint → List StrategyAnswer) (s : Shielding)
    (a : Bool × ClosureAnswer) : Prop :=
  match s.pc, a.2 with
  | .shieldSetup, .setup (.ok inputs') => inputs' = inputs
  | .shieldPrice batch _, .price _ as _ => as = answers batch
  | _, _ => True

instance (inputs : List OutPoint) (answers : List OutPoint → List StrategyAnswer) (s : Shielding)
    (a : Bool × ClosureAnswer) : Decidable (Given inputs answers s a) := by
  unfold Given
  split <;> infer_instance

def Shielding.Leaving (s : Shielding) : Prop := ∃ run, s.pc = .shieldBatch run ∧ run.batches = []

def ShieldInv (answers : List OutPoint → List StrategyAnswer) (inputs : List OutPoint)
    (s : Shielding) : Prop :=
  match s.pc with
  | .shieldStart run | .shieldBatch run | .shieldLoad _ run | .shieldEmit _ _ run
  | .shieldSend _ _ run => Progress answers inputs s.spent run.batches
  | .shieldPrice batch run => Progress answers inputs s.spent (batch :: run.batches)
  | .shieldProve run | .shieldCreate run => ∃ batch,
      Progress answers inputs s.spent (batch :: run.batches) ∧
        selected answers batch = some s.selection
  | .returned _ => s.spent <+: (shieldingBatches inputs).filterMap (selected answers)
  | _ => s.spent = []

theorem isPrefix_of_nil (h : spent = []) :
    spent <+: (shieldingBatches inputs).filterMap (selected answers) :=
  h ▸ List.nil_prefix

theorem shieldInv_batch {run : ShieldLoop} {selection : List OutPoint} (cancelled : Bool)
    (h : Progress answers inputs spent run.batches) :
    ShieldInv answers inputs ⟨batchNext cancelled run, selection, spent⟩ := by
  unfold batchNext
  split
  · exact h.isPrefix
  · rename_i batch batches hbatches
    rw [hbatches] at h
    split_ifs with hc hempty
    · exact h.isPrefix
    · exact absurd (List.isEmpty_iff.mp hempty) h.ne_nil
    · exact h

theorem shieldInv_price {run : ShieldLoop} {selection : List OutPoint} {priced : Priced}
    {proposalError : Option String}
    (h : Progress answers inputs spent (batch :: run.batches))
    (hpriced : priceBatch batch (answers batch) = some priced) :
    ShieldInv answers inputs ⟨pricedNext run proposalError priced,
      nextSelection ⟨.shieldPrice batch run, selection, spent⟩
        (.price none (answers batch) proposalError), spent⟩ := by
  cases priced with
  | skip => exact h.skip hpriced
  | insufficientFunds | failed => exact h.isPrefix
  | inputs selection' fee =>
    cases proposalError with
    | some e => exact h.isPrefix
    | none =>
      refine ⟨batch, h, ?_⟩
      rw [selected_of_inputs hpriced]
      simp only [nextSelection, hpriced]

/-- **The closure keeps the account of the batches.** -/
theorem shieldInv_step {s t : Shielding} {a : Bool × ClosureAnswer}
    (hs : ShieldInv answers inputs s) (hg : Given inputs answers s a)
    (h : shieldFundsBlocking.step s a = some t) : ShieldInv answers inputs t := by
  obtain ⟨⟨pc', e⟩, hnext, rfl⟩ := Option.map_eq_some_iff.mp h
  obtain ⟨cancelled, answer⟩ := a
  obtain ⟨pc, selection, spent⟩ := s
  dsimp only at hnext
  unfold closureNext at hnext
  split at hnext
  -- up to the setup nothing is spent
  · cases cancelled <;> cases hnext
    · exact hs
    · exact isPrefix_of_nil hs
  · cases hnext; exact hs
  · cases hnext; exact isPrefix_of_nil hs
  · cases hnext; exact hs
  · cases cancelled <;> cases hnext <;> exact isPrefix_of_nil hs
  · cases cancelled <;> cases hnext
    · exact hs
    · exact isPrefix_of_nil hs
  · cases hnext; exact isPrefix_of_nil hs
  · obtain rfl := hg
    obtain rfl : spent = [] := hs
    split_ifs at hnext <;> cases hnext
    · exact List.nil_prefix
    · exact .start answers _
  · cases hnext; exact hs
  · cases hnext; exact shieldInv_batch cancelled hs
  · cases hnext; exact Progress.isPrefix hs
  · obtain ⟨priced, hpriced, heq⟩ := Option.map_eq_some_iff.mp hnext
    cases heq
    obtain rfl := hg
    exact shieldInv_price hs hpriced
  · cases hnext; exact hs
  · obtain ⟨batch, hprogress, -⟩ := hs
    cases hnext; exact hprogress.isPrefix
  · obtain ⟨batch, hprogress, hsel⟩ := hs
    cases hnext; exact hprogress.spend hsel
  · cases hnext; exact hs
  · cases hnext; exact hs
  · cases hnext; exact Progress.isPrefix hs
  · cases hnext; exact hs
  · rename_i run answer queueOk
    have hbatches : (run.withAnswer answer).batches = run.batches := by
      unfold ShieldLoop.withAnswer
      split <;> rfl
    cases hnext
    change Progress answers inputs spent (run.withAnswer answer).batches
    rwa [hbatches]
  · cases hnext

variable {s : Shielding}

theorem shieldInv_of_reach (h : Reach shieldFundsBlocking (Given inputs answers) s) :
    ShieldInv answers inputs s := by
  refine h.invariant ?_ fun s a t hs hg hstep => shieldInv_step hs hg hstep
  rintro s rfl
  rfl

theorem ShieldInv.isPrefix (h : ShieldInv answers inputs s) :
    s.spent <+: (shieldingBatches inputs).filterMap (selected answers) := by
  unfold ShieldInv at h
  split at h
  case h_7 | h_8 => exact h.choose_spec.1.isPrefix
  case h_9 => exact h
  case h_10 => exact isPrefix_of_nil h
  all_goals exact Progress.isPrefix h

theorem ShieldInv.progress (h : ShieldInv answers inputs s) (hs : s.Leaving) :
    Progress answers inputs s.spent [] := by
  obtain ⟨run, hpc, hbatches⟩ := hs
  rw [ShieldInv, hpc] at h
  exact hbatches ▸ h

/-- **The inputs of shielding transactions.** Pricing ends; the transactions have between 1 and 200
inputs and none in common; the other outputs are dust at the end of the loop; and both functions
select the same inputs. -/
theorem shield_inputs {inputs : List OutPoint} (hinputs : inputs.Nodup)
    {answers : List OutPoint → List StrategyAnswer}
    (hhonest : ∀ batch ∈ shieldingBatches inputs, HonestFor batch (answers batch))
    (envs : List BatchEnv)
    (henvs : ∀ p ∈ (shieldingBatches inputs).zip envs, p.2.answers = answers p.1) (o : Outbox)
    {s : Shielding} (hs : Reach shieldFundsBlocking (Given inputs answers) s) :
    (∀ batch ∈ shieldingBatches inputs, batch.length ≤ (answers batch).length →
        (priceBatch batch (answers batch)).isSome = true) ∧
      (Separate (shieldFundsSpends inputs envs o) ∧ Separate s.spent) ∧
      (ShieldFundsLeaves inputs envs o →
        AllAccounted answers inputs (shieldFundsSpends inputs envs o)) ∧
      (s.Leaving → AllAccounted answers inputs s.spent) ∧
      (shieldFundsSpends inputs envs o <+: s.spent ∨ s.spent <+: shieldFundsSpends inputs envs o) ∧
      (ShieldFundsLeaves inputs envs o → s.Leaving →
        shieldFundsSpends inputs envs o = s.spent) := by
  obtain ⟨hinitial, hdone⟩ := spentInputs_progress envs none o (.start answers inputs) henvs
  have hinv := shieldInv_of_reach hs
  refine ⟨fun batch hbatch => ?_, ⟨?_, ?_⟩, ?_, ?_, ?_, ?_⟩
  · exact priceBatch_isSome (hhonest batch hbatch) (mem_shieldingBatches hbatch).1
  · exact separate_of_prefix hinputs hinitial
  · exact separate_of_prefix hinputs hinv.isPrefix
  · exact fun ⟨r, hr⟩ => (hdone r hr).allAccounted
  · exact fun hleaving => (hinv.progress hleaving).allAccounted
  · exact List.prefix_or_prefix_of_prefix hinitial hinv.isPrefix
  · rintro ⟨r, hr⟩ hleaving
    rw [(hinv.progress hleaving).eq_of_nil]
    exact (hdone r hr).eq_of_nil

def oneDust : List StrategyAnswer := [.dustInputs [2], .balance 10000, .balance 10000]

def oneDustEnv : BatchEnv := ⟨none, oneDust, none, .ok (⟨⟨7, none, .ok, none⟩, none⟩, [])⟩

def shieldAll : List (Bool × ClosureAnswer) :=
  [.go, .setup (.ok [1, 2, 3]), .go, .go, .price none oneDust none, .go, .create (.ok (7, [])),
    .load none, .go, .broadcast .ok true, .go].map (Prod.mk false)

theorem shield_inputs_oneDust :
    ∃ s, Reach shieldFundsBlocking (Given [1, 2, 3] fun _ => oneDust) s ∧ s.spent = [[1, 3]] ∧
      shieldFundsSpends [1, 2, 3] [oneDustEnv] .empty = s.spent := by
  obtain ⟨s, hs, hpc, hspent⟩ := exec_reach (S := shieldFundsBlocking)
    (G := Given [1, 2, 3] fun _ => oneDust)
    (p := fun s => s.pc = .shieldBatch ⟨[], some 7, none⟩ ∧ s.spent = [[1, 3]])
    shieldAll rfl (by decide +kernel) (by decide +kernel)
  have hhonest : ∀ batch ∈ shieldingBatches [1, 2, 3], HonestFor batch oneDust := by
    intro batch hbatch
    obtain rfl := List.mem_singleton.mp hbatch
    exact ⟨by decide, by decide, trivial⟩
  obtain ⟨-, -, -, -, -, hsame⟩ :=
    shield_inputs (by decide) hhonest [oneDustEnv] (by decide) .empty hs
  exact ⟨s, hs, hspent, hsame ⟨_, rfl⟩ ⟨_, hpc, rfl⟩⟩

end ZbagJob
