import Mathlib.Data.Finset.Card
import Zbag.Lib.Transition

/-!
# Sync — the enhancement of memos

When a sync is complete, the transactions that have a note without a memo are fetched one by one.
Their ids are read in pages with `LIMIT` and `OFFSET`, the offset being the number of ids read so
far, while up to four tasks write memos and so take transactions out of the set that the query
reads. A transaction that moves up before the offset is not seen again.
-/

namespace ZbagSync

open Transition

variable {τ : Type} [DecidableEq τ]

/-! ## The loop -/

def enhancementBatchSize : ℕ := 100
def enhancementConcurrency : ℕ := 4

inductive EnhanceState
  | running
  | written
  | joined
  deriving DecidableEq, Repr

structure EnhanceTask (τ : Type) where
  txid : τ
  state : EnhanceState
  deriving DecidableEq, Repr

inductive EnhancePc (τ : Type)
  | fetching
  | spawning (batch : List τ)
  | draining
  | ended
  deriving DecidableEq, Repr

/-- `needing` are the transactions with a `NULL` memo; tasks not joined make up the join set. -/
structure Enhancement (τ : Type) where
  needing : Finset τ
  offset : ℕ
  pc : EnhancePc τ
  tasks : List (EnhanceTask τ)
  deriving DecidableEq

def EnhanceTask.inJoinSet (task : EnhanceTask τ) : Bool := task.state != .joined

def Enhancement.joinSetLen (s : Enhancement τ) : ℕ := s.tasks.countP EnhanceTask.inJoinSet

def Enhancement.joins (s : Enhancement τ) : Bool :=
  match s.pc with
  | .spawning (_ :: _) => enhancementConcurrency ≤ s.joinSetLen
  | .draining => true
  | .fetching | .spawning [] | .ended => false

def page (rows : List τ) (offset : ℕ) : List τ := (rows.drop offset).take enhancementBatchSize

def Enhancement.withBatch (s : Enhancement τ) (batch : List τ) : Enhancement τ :=
  if batch = [] then { s with pc := .draining }
  else { s with offset := s.offset + batch.length, pc := .spawning batch }

/-- The rows of the query come in any order; `write` and `join` are about a task. -/
inductive EnhanceAction (τ : Type)
  | fetch (rows : Option (List τ))
  | next
  | write (i : ℕ)
  | join (i : ℕ)
  deriving DecidableEq, Repr

def enhanceNext (s : Enhancement τ) : Option (Enhancement τ) :=
  match s.pc with
  | .spawning [] => some { s with pc := .fetching }
  | .spawning (txid :: batch) =>
    if s.joinSetLen < enhancementConcurrency then
      some { s with tasks := s.tasks ++ [⟨txid, .running⟩], pc := .spawning batch }
    else none
  | .draining => if s.joinSetLen = 0 then some { s with pc := .ended } else none
  | .fetching | .ended => none

def enhanceStep (s : Enhancement τ) : EnhanceAction τ → Option (Enhancement τ)
  | .fetch none => if s.pc = .fetching then some { s with pc := .draining } else none
  | .fetch (some rows) =>
    if s.pc = .fetching ∧ rows.Nodup ∧ rows.toFinset = s.needing then
      some (s.withBatch (page rows s.offset))
    else none
  | .next => enhanceNext s
  | .write i =>
    match s.tasks[i]? with
    | some ⟨txid, .running⟩ =>
      some { s with needing := s.needing.erase txid, tasks := s.tasks.set i ⟨txid, .written⟩ }
    | _ => none
  | .join i =>
    match s.tasks[i]? with
    | some ⟨txid, .written⟩ =>
      if s.joins then some { s with tasks := s.tasks.set i ⟨txid, .joined⟩ } else none
    | _ => none

def enhanceStart (initial : Finset τ) : Enhancement τ :=
  ⟨initial, 0, if initial = ∅ then .ended else .fetching, []⟩

/-- **The enhancement phase** on the transactions `initial`. -/
def enhancement (initial : Finset τ) : System (Enhancement τ) (EnhanceAction τ) where
  init s := s = enhanceStart initial
  step := enhanceStep

def AttemptedOnce (initial : Finset τ) (s : Enhancement τ) : Prop :=
  ∀ txid ∈ initial, (s.tasks.map EnhanceTask.txid).count txid = 1

instance (initial : Finset τ) (s : Enhancement τ) : Decidable (AttemptedOnce initial s) :=
  inferInstanceAs (Decidable (∀ txid ∈ initial, _))

def FirstPageRead (s : Enhancement τ) (a : EnhanceAction τ) : Prop :=
  a = .fetch none → s.offset ≠ 0

instance (s : Enhancement τ) (a : EnhanceAction τ) : Decidable (FirstPageRead s a) :=
  inferInstanceAs (Decidable (_ → _))

/-! ## Every run -/

def EnhancePc.batch : EnhancePc τ → List τ
  | .spawning batch => batch
  | .fetching | .draining | .ended => []

def Enhancement.claimed (s : Enhancement τ) : List τ := s.tasks.map EnhanceTask.txid ++ s.pc.batch

/-- The offset counts what was read, and a task that has ended has written its memos. -/
structure Paged (initial : Finset τ) (s : Enhancement τ) : Prop where
  entered : s.pc ≠ .ended → initial ≠ ∅
  needing : s.needing ⊆ initial
  claimed : ∀ txid ∈ s.claimed, txid ∈ initial
  offset : s.claimed.length = s.offset
  joinSet : s.joinSetLen ≤ enhancementConcurrency
  written : ∀ task ∈ s.tasks, task.state ≠ .running → task.txid ∉ s.needing

inductive EnhanceMoves (s : Enhancement τ) : EnhanceAction τ → Enhancement τ → Prop
  | failed : s.pc = .fetching → EnhanceMoves s (.fetch none) { s with pc := .draining }
  | fetched {rows : List τ} : s.pc = .fetching → rows.Nodup → rows.toFinset = s.needing →
      EnhanceMoves s (.fetch (some rows)) (s.withBatch (page rows s.offset))
  | again : s.pc = .spawning [] → EnhanceMoves s .next { s with pc := .fetching }
  | spawned {txid : τ} {batch : List τ} : s.pc = .spawning (txid :: batch) →
      s.joinSetLen < enhancementConcurrency → EnhanceMoves s .next
        { s with tasks := s.tasks ++ [⟨txid, .running⟩], pc := .spawning batch }
  | drained : s.pc = .draining → s.joinSetLen = 0 → EnhanceMoves s .next { s with pc := .ended }
  | written {i : ℕ} {txid : τ} : s.tasks[i]? = some ⟨txid, .running⟩ → EnhanceMoves s (.write i)
      { s with needing := s.needing.erase txid, tasks := s.tasks.set i ⟨txid, .written⟩ }
  | joined {i : ℕ} {txid : τ} : s.tasks[i]? = some ⟨txid, .written⟩ → s.joins = true →
      EnhanceMoves s (.join i) { s with tasks := s.tasks.set i ⟨txid, .joined⟩ }

variable {s t : Enhancement τ} {a : EnhanceAction τ} {initial : Finset τ} {rows : List τ}

theorem enhanceStep_moves (h : enhanceStep s a = some t) : EnhanceMoves s a t := by
  cases a with
  | fetch rows =>
    cases rows with
    | none =>
      obtain ⟨hpc, h⟩ := Option.ite_none_right_eq_some.mp h
      cases h
      exact .failed hpc
    | some rows =>
      obtain ⟨⟨hpc, hnodup, hrows⟩, h⟩ := Option.ite_none_right_eq_some.mp h
      cases h
      exact .fetched hpc hnodup hrows
  | next =>
    change enhanceNext s = some t at h
    unfold enhanceNext at h
    split at h
    case h_1 hpc => cases h; exact .again hpc
    case h_2 hpc =>
      obtain ⟨hlen, h⟩ := Option.ite_none_right_eq_some.mp h
      cases h
      exact .spawned hpc hlen
    case h_3 hpc =>
      obtain ⟨hlen, h⟩ := Option.ite_none_right_eq_some.mp h
      cases h
      exact .drained hpc hlen
    all_goals cases h
  | write i =>
    simp only [enhanceStep] at h
    split at h
    case h_1 htask => cases h; exact .written htask
    case h_2 => cases h
  | join i =>
    simp only [enhanceStep] at h
    split at h
    case h_1 htask =>
      obtain ⟨hjoins, h⟩ := Option.ite_none_right_eq_some.mp h
      cases h
      exact .joined htask hjoins
    case h_2 => cases h

def Enhancement.reads (s : Enhancement τ) : EnhanceAction τ → List τ
  | .fetch (some rows) => page rows s.offset
  | .fetch none | .next | .write _ | .join _ => []

omit [DecidableEq τ] in
theorem map_txid_set {tasks : List (EnhanceTask τ)} {i : ℕ} {txid : τ} {state : EnhanceState}
    (h : tasks[i]? = some ⟨txid, state⟩) (state' : EnhanceState) :
    (tasks.set i ⟨txid, state'⟩).map EnhanceTask.txid = tasks.map EnhanceTask.txid := by
  obtain ⟨hi, htask⟩ := List.getElem?_eq_some_iff.mp h
  have hself := (tasks.map EnhanceTask.txid).set_getElem_self (by rwa [List.length_map])
  rw [List.getElem_map, htask] at hself
  rwa [List.map_set]

omit [DecidableEq τ] in
theorem countP_set_le {tasks : List (EnhanceTask τ)} {i : ℕ} {task task' : EnhanceTask τ}
    (h : tasks[i]? = some task) (hset : task'.inJoinSet = true → task.inJoinSet = true) :
    (tasks.set i task').countP EnhanceTask.inJoinSet ≤ tasks.countP EnhanceTask.inJoinSet := by
  obtain ⟨hi, rfl⟩ := List.getElem?_eq_some_iff.mp h
  rw [List.countP_set hi]
  have hpos : tasks[i].inJoinSet = true → 0 < tasks.countP EnhanceTask.inJoinSet := fun hp =>
    List.countP_pos_iff.mpr ⟨tasks[i], List.getElem_mem hi, hp⟩
  split_ifs <;> simp_all

section moves

variable {s t : Enhancement τ} {a : EnhanceAction τ} (h : EnhanceMoves s a t)

include h

theorem EnhanceMoves.claimed_eq : t.claimed = s.claimed ++ s.reads a := by
  cases h with
  | fetched hpc =>
    unfold Enhancement.claimed Enhancement.withBatch
    split_ifs with hempty
    · simp [hpc, EnhancePc.batch, Enhancement.reads, hempty]
    · simp [hpc, EnhancePc.batch, Enhancement.reads]
  | written htask | joined htask =>
    simp [Enhancement.claimed, Enhancement.reads, map_txid_set htask]
  | failed hpc | again hpc | spawned hpc | drained hpc =>
    simp [Enhancement.claimed, Enhancement.reads, EnhancePc.batch, hpc]

theorem EnhanceMoves.offset_eq : t.offset = s.offset + (s.reads a).length := by
  cases h with
  | fetched =>
    unfold Enhancement.withBatch
    split_ifs with hempty
    · simp [Enhancement.reads, hempty]
    · simp [Enhancement.reads]
  | _ => rfl

theorem EnhanceMoves.reads_subset : ∀ txid ∈ s.reads a, txid ∈ s.needing := by
  cases h with
  | @fetched rows _ _ hrows =>
    intro txid htxid
    rw [← hrows, List.mem_toFinset]
    exact List.mem_of_mem_drop (List.mem_of_mem_take htxid)
  | _ => exact List.forall_mem_nil _

theorem EnhanceMoves.needing_subset : t.needing ⊆ s.needing := by
  cases h with
  | fetched =>
    unfold Enhancement.withBatch
    split_ifs <;> exact Finset.Subset.refl _
  | written => exact Finset.erase_subset _ _
  | _ => exact Finset.Subset.refl _

theorem EnhanceMoves.joinSetLen_le (hs : s.joinSetLen ≤ enhancementConcurrency) :
    t.joinSetLen ≤ enhancementConcurrency := by
  cases h with
  | fetched =>
    unfold Enhancement.withBatch
    split_ifs <;> exact hs
  | spawned _ hlen =>
    rw [Enhancement.joinSetLen, List.countP_append]
    exact Nat.succ_le_of_lt hlen
  | written htask | joined htask => exact (countP_set_le htask fun _ => rfl).trans hs
  | _ => exact hs

end moves

theorem paged_step (hs : Paged initial s) (h : EnhanceMoves s a t) : Paged initial t where
  entered := by
    cases h with
    | failed hpc | fetched hpc | again hpc | spawned hpc | drained hpc =>
      exact fun _ => hs.entered (by rw [hpc]; exact nofun)
    | written | joined => exact hs.entered
  needing := h.needing_subset.trans hs.needing
  claimed := by
    intro txid htxid
    rw [h.claimed_eq] at htxid
    obtain hold | hread := List.mem_append.mp htxid
    · exact hs.claimed txid hold
    · exact hs.needing (h.reads_subset txid hread)
  offset := by rw [h.claimed_eq, h.offset_eq, List.length_append, hs.offset]
  joinSet := h.joinSetLen_le hs.joinSet
  written := by
    intro task htask hstate
    cases h with
    | fetched =>
      unfold Enhancement.withBatch at *
      split_ifs at * <;> exact hs.written task htask hstate
    | spawned =>
      obtain hold | hnew := List.mem_append.mp htask
      · exact hs.written task hold hstate
      · exact absurd (by rw [List.mem_singleton.mp hnew]) hstate
    | written =>
      obtain hold | rfl := List.mem_or_eq_of_mem_set htask
      · exact fun hmem => hs.written task hold hstate (Finset.mem_of_mem_erase hmem)
      · exact Finset.notMem_erase _ _
    | joined hget =>
      obtain hold | rfl := List.mem_or_eq_of_mem_set htask
      · exact hs.written task hold hstate
      · exact hs.written ⟨_, .written⟩ (List.mem_of_getElem? hget) nofun
    | _ => exact hs.written task htask hstate

theorem paged_start (initial : Finset τ) : Paged initial (enhanceStart initial) where
  entered h hempty := h (if_pos hempty)
  needing := Finset.Subset.refl _
  claimed := by
    unfold enhanceStart Enhancement.claimed
    split_ifs <;> exact List.forall_mem_nil _
  offset := by
    unfold enhanceStart Enhancement.claimed
    split_ifs <;> rfl
  joinSet := Nat.zero_le _
  written := List.forall_mem_nil _

/-- **The set that the query reads is smaller by all but four of the tasks.** -/
theorem Paged.card_needing (hs : Paged initial s) (hnodup : (s.tasks.map EnhanceTask.txid).Nodup) :
    s.needing.card + s.tasks.length ≤ initial.card + enhancementConcurrency := by
  let joined := s.tasks.filter fun task => ¬ task.inJoinSet
  have hjoined : (joined.map EnhanceTask.txid).Nodup :=
    hnodup.sublist (List.filter_sublist.map EnhanceTask.txid)
  have hdisjoint : Disjoint s.needing (joined.map EnhanceTask.txid).toFinset := by
    rw [Finset.disjoint_right]
    intro txid htxid
    obtain ⟨task, htask, rfl⟩ := List.mem_map.mp (List.mem_toFinset.mp htxid)
    obtain ⟨hmem, hout⟩ := List.mem_filter.mp htask
    refine hs.written task hmem fun hrunning => ?_
    simp [EnhanceTask.inJoinSet, hrunning] at hout
  have hsubset : s.needing ∪ (joined.map EnhanceTask.txid).toFinset ⊆ initial := by
    refine Finset.union_subset hs.needing fun txid htxid => ?_
    obtain ⟨task, htask, rfl⟩ := List.mem_map.mp (List.mem_toFinset.mp htxid)
    exact hs.claimed _
      (List.mem_append_left _ (List.mem_map_of_mem (List.mem_of_mem_filter htask)))
  have hcard := Finset.card_le_card hsubset
  rw [Finset.card_union_of_disjoint hdisjoint, List.toFinset_card_of_nodup hjoined,
    List.length_map] at hcard
  have hlength := s.tasks.length_eq_countP_add_countP EnhanceTask.inJoinSet
  have hout : joined.length = s.tasks.countP fun task => ¬ task.inJoinSet :=
    List.countP_eq_length_filter.symm
  have hset := hs.joinSet
  unfold Enhancement.joinSetLen at hset
  omega

/-! ## How much is read -/

/-- Nothing is read; or the only page; or more pages, of which something is missed. -/
inductive Covered (initial : Finset τ) (s : Enhancement τ) : Prop
  | fresh : s.pc = .fetching → s.claimed = [] → s.needing = initial → Covered initial s
  | whole : initial.card ≤ enhancementBatchSize → s.claimed.Nodup → s.claimed.toFinset = initial →
      Covered initial s
  | part : enhancementBatchSize < initial.card → enhancementBatchSize ≤ s.offset →
      (s.claimed.Nodup → s.offset < initial.card) → Covered initial s

omit [DecidableEq τ] in
theorem length_page (rows : List τ) (offset : ℕ) :
    (page rows offset).length = min enhancementBatchSize (rows.length - offset) := by
  rw [page, List.length_take, List.length_drop]

omit [DecidableEq τ] in
theorem page_eq_nil {offset : ℕ} (h : rows.length ≤ offset) : page rows offset = [] := by
  rw [page, List.drop_eq_nil_of_le h, List.take_nil]

theorem length_of_rows {needing : Finset τ} (hnodup : rows.Nodup)
    (hrows : rows.toFinset = needing) : rows.length = needing.card := by
  rw [← hrows, List.toFinset_card_of_nodup hnodup]

theorem covered_first (hs : Paged initial s) (hclaimed : s.claimed = [])
    (hneeding : s.needing = initial) (h : EnhanceMoves s (.fetch (some rows)) t)
    (hnodup : rows.Nodup) (hrows : rows.toFinset = s.needing) : Covered initial t := by
  have hlength := length_of_rows hnodup hrows
  have hoffset : s.offset = 0 := by rw [← hs.offset, hclaimed, List.length_nil]
  have hread : t.claimed = rows.take enhancementBatchSize := by
    rw [h.claimed_eq, hclaimed, List.nil_append, Enhancement.reads, page, hoffset, List.drop_zero]
  rw [hneeding] at hlength hrows
  by_cases hcard : initial.card ≤ enhancementBatchSize
  · rw [List.take_of_length_le (by omega)] at hread
    exact .whole hcard (hread ▸ hnodup) (hread ▸ hrows)
  · have ht : t.offset = enhancementBatchSize := by
      rw [h.offset_eq, hoffset, Enhancement.reads, length_page]
      omega
    exact .part (by omega) ht.ge fun _ => by omega

theorem covered_later (hs : Paged initial s) (hpc : s.pc = .fetching)
    (hcard : enhancementBatchSize < initial.card) (hoffset : enhancementBatchSize ≤ s.offset)
    (hpart : s.claimed.Nodup → s.offset < initial.card) (h : EnhanceMoves s (.fetch (some rows)) t)
    (hnodup : rows.Nodup) (hrows : rows.toFinset = s.needing) : Covered initial t := by
  have hlength := length_of_rows hnodup hrows
  have ht := h.offset_eq
  rw [Enhancement.reads, length_page] at ht
  refine .part hcard (by omega) fun hclaimed => ?_
  rw [h.claimed_eq] at hclaimed
  have hold : s.claimed.Nodup := hclaimed.sublist (List.sublist_append_left _ _)
  have htasks : s.tasks.map EnhanceTask.txid = s.claimed := by
    rw [Enhancement.claimed, hpc, EnhancePc.batch, List.append_nil]
  have hcount : s.tasks.length = s.offset := by rw [← hs.offset, ← htasks, List.length_map]
  -- the tasks have taken more out of the set than the four that may still be running
  have hneeding := hs.card_needing (htasks ▸ hold)
  have hlt := hpart hold
  have hsize : enhancementConcurrency < enhancementBatchSize := by decide
  omega

theorem covered_step (hs : Paged initial s) (hcovered : Covered initial s)
    (hguard : FirstPageRead s a) (h : EnhanceMoves s a t) : Covered initial t := by
  have hclaimed := h.claimed_eq
  have hoffset := h.offset_eq
  cases hcovered with
  | fresh hpc hnil hneeding =>
    have htasks : s.tasks = [] := by
      rw [Enhancement.claimed, List.append_eq_nil_iff] at hnil
      exact List.map_eq_nil_iff.mp hnil.1
    cases h with
    | fetched _ hnodup hrows =>
      exact covered_first hs hnil hneeding (.fetched hpc hnodup hrows) hnodup hrows
    | failed =>
      refine absurd ?_ (hguard rfl)
      rw [← hs.offset, hnil, List.length_nil]
    | again h | spawned h | drained h => rw [hpc] at h; cases h
    | written h | joined h => rw [htasks] at h; cases h
  | whole hcard hnodup hall =>
    have hread : s.reads a = [] := by
      cases h with
      | @fetched rows _ hrowsNodup hrows =>
        refine page_eq_nil ?_
        rw [length_of_rows hrowsNodup hrows, ← hs.offset, ← List.toFinset_card_of_nodup hnodup,
          hall]
        exact Finset.card_le_card hs.needing
      | _ => rfl
    rw [hread, List.append_nil] at hclaimed
    exact .whole hcard (hclaimed ▸ hnodup) (hclaimed ▸ hall)
  | part hcard hsize hpart =>
    match a, h with
    | .fetch (some rows), .fetched hpc hnodup hrows =>
      exact covered_later hs hpc hcard hsize hpart (.fetched hpc hnodup hrows) hnodup hrows
    | .fetch none, _ | .next, _ | .write _, _ | .join _, _ =>
      rw [Enhancement.reads, List.append_nil] at hclaimed
      rw [Enhancement.reads, List.length_nil, Nat.add_zero] at hoffset
      exact .part hcard (hoffset ▸ hsize) (by rwa [hclaimed, hoffset])

theorem covered_start (initial : Finset τ) : Covered initial (enhanceStart initial) := by
  by_cases hempty : initial = ∅
  · subst hempty
    exact .whole (Nat.zero_le _) List.nodup_nil rfl
  · exact .fresh (if_neg hempty) (by simp [enhanceStart, Enhancement.claimed, hempty,
      EnhancePc.batch]) rfl

/-! ## The end of the phase -/

/-- Nothing is attempted any more. -/
structure Unread (initial : Finset τ) (s : Enhancement τ) : Prop where
  nonempty : initial ≠ ∅
  pc : s.pc = .draining ∨ s.pc = .ended
  tasks : s.tasks = []

theorem unread_step (hs : Unread initial s) (h : EnhanceMoves s a t) : Unread initial t := by
  have hpc := hs.pc
  cases h with
  | drained => exact ⟨hs.nonempty, .inr rfl, hs.tasks⟩
  | failed h | fetched h | again h | spawned h => simp [h] at hpc
  | written h | joined h => simp [hs.tasks] at h

theorem unread_of_failed (hs : Paged initial s) (hguard : ¬ FirstPageRead s a)
    (h : EnhanceMoves s a t) :
    Unread initial t := by
  obtain ⟨rfl, hoffset⟩ : a = .fetch none ∧ s.offset = 0 := by
    simpa [FirstPageRead] using hguard
  cases h with
  | failed hpc =>
    have hnil : s.claimed = [] := List.eq_nil_of_length_eq_zero (hs.offset.trans hoffset)
    rw [Enhancement.claimed, List.append_eq_nil_iff] at hnil
    exact ⟨hs.entered (by rw [hpc]; exact nofun), .inl rfl, List.map_eq_nil_iff.mp hnil.1⟩

theorem attemptedOnce_iff_card (hs : Paged initial s) (hcovered : Covered initial s)
    (hend : s.pc = .ended) :
    AttemptedOnce initial s ↔ initial.card ≤ enhancementBatchSize := by
  have htasks : s.claimed = s.tasks.map EnhanceTask.txid := by
    rw [Enhancement.claimed, hend, EnhancePc.batch, List.append_nil]
  unfold AttemptedOnce
  rw [← htasks]
  cases hcovered with
  | fresh hpc => rw [hend] at hpc; cases hpc
  | whole hcard hnodup hall =>
    refine iff_of_true (fun txid htxid => ?_) hcard
    rw [← hall, List.mem_toFinset] at htxid
    exact List.count_eq_one_of_mem hnodup htxid
  | part hcard _ hpart =>
    have hoffset := hs.offset
    refine iff_of_false (fun hone => ?_) (Nat.not_le.mpr hcard)
    have hnodup : s.claimed.Nodup := by
      rw [List.nodup_iff_count_le_one]
      intro txid
      by_cases htxid : txid ∈ s.claimed
      · exact (hone txid (hs.claimed txid htxid)).le
      · rw [List.count_eq_zero_of_not_mem htxid]
        exact Nat.zero_le 1
    have hsubset : initial ⊆ s.claimed.toFinset := by
      intro txid htxid
      rw [List.mem_toFinset, ← List.count_pos_iff, hone txid htxid]
      exact Nat.one_pos
    have hall := Finset.card_le_card hsubset
    rw [List.toFinset_card_of_nodup hnodup] at hall
    have hlt := hpart hnodup
    omega

def hundredAndOne : List (EnhanceAction ℕ) :=
  [EnhanceAction.fetch (some (List.range 101)), .next, .next, .next, .next] ++
    (List.range 96).flatMap (fun i => [EnhanceAction.write i, .join i, .next]) ++
    [EnhanceAction.next, .fetch (some [96, 97, 98, 99, 100])] ++
    [96, 97, 98, 99].flatMap (fun i => [EnhanceAction.write i, .join i]) ++ [EnhanceAction.next]

end ZbagSync
