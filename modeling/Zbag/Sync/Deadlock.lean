import Zbag.Sync.Pipeline
import Mathlib.Tactic.Linarith

/-!
# Sync — waiting for a download task that waits for the channel

The scan loop waits for the download task with the receiver still in scope. If the task has more
messages to send than fit into the channel, both wait for each other.
-/

namespace ZbagSync

open Channel Transition

/-- The scan task waits for the download task, which waits for room in a channel nobody reads. -/
def BlockedJoin (s : State) : Prop :=
  s.scan = .joining ∧ s.chan.Blocked ∧ ∃ r, s.download = .sending r

/-! ## The messages that the download task may still send -/

def batchesFrom (c : AdaptiveBatchController) (R : ScanRange) : ℕ → ℕ → ℕ
  | 0, _ => 0
  | fuel + 1, current =>
    if current < R.stop then batchesFrom c R fuel (batchEnd c R current) + 1 else 0

def batchesLeft (c : AdaptiveBatchController) (R : ScanRange) (current : ℕ) : ℕ :=
  batchesFrom c R (R.stop - current) current

theorem batchesFrom_eq (c : AdaptiveBatchController) (R : ScanRange) :
    ∀ fuel fuel' current : ℕ, R.stop - current ≤ fuel → R.stop - current ≤ fuel' →
      batchesFrom c R fuel current = batchesFrom c R fuel' current := by
  intro fuel
  induction fuel with
  | zero =>
    intro fuel' current h _
    cases fuel' with
    | zero => rfl
    | succ n => rw [batchesFrom, batchesFrom, if_neg (by omega)]
  | succ n ih =>
    intro fuel' current h h'
    by_cases hlt : current < R.stop
    · have hnext := lt_batchEnd c hlt
      cases fuel' with
      | zero => omega
      | succ n' =>
        rw [batchesFrom, batchesFrom, if_pos hlt, if_pos hlt, ih n' _ (by omega) (by omega)]
    · cases fuel' with
      | zero => rw [batchesFrom, batchesFrom, if_neg hlt]
      | succ n' => rw [batchesFrom, batchesFrom, if_neg hlt, if_neg hlt]

variable {R : ScanRange} {s t : State} {r : DownloadResult} {ok : Bool} {answer : Answer}
  {a : Action}

theorem batchesLeft_of_lt (c : AdaptiveBatchController) {current : ℕ} (h : current < R.stop) :
    batchesLeft c R current = batchesLeft c R (batchEnd c R current) + 1 := by
  have hnext := lt_batchEnd c h
  obtain ⟨n, hn⟩ : ∃ n, R.stop - current = n + 1 := ⟨R.stop - current - 1, by omega⟩
  rw [batchesLeft, hn, batchesFrom, if_pos h, batchesLeft,
    batchesFrom_eq c R n _ _ (by omega) le_rfl]

theorem batchesLeft_of_le (c : AdaptiveBatchController) {current : ℕ} (h : R.stop ≤ current) :
    batchesLeft c R current = 0 := by
  rw [batchesLeft, show R.stop - current = 0 by omega, batchesFrom]

/-- A cancelled task only says so. -/
def messagesFrom (R : ScanRange) (s : State) (current : ℕ) : ℕ :=
  if s.cancelled then 1 else batchesLeft s.controller R current + 1

def messagesLeft (R : ScanRange) (s : State) : ℕ :=
  match s.download with
  | .check => messagesFrom R s s.current
  | .sizing => messagesFrom R s (batchEnd s.controller R s.current) + 1
  | .downloading e => messagesFrom R s e + 1
  | .sending (.batch b) => messagesFrom R s b.rangeEnd + 1
  | .sending _ => 1
  | .finished => 0

def load (R : ScanRange) (s : State) : ℕ := s.chan.queue.length + messagesLeft R s

def Fits (R : ScanRange) (s : State) : Prop := load R s ≤ lookaheadBatches

instance (R : ScanRange) (s : State) : Decidable (Fits R s) := inferInstanceAs (Decidable (_ ≤ _))

theorem messagesFrom_pos (R : ScanRange) (s : State) (current : ℕ) :
    0 < messagesFrom R s current := by
  unfold messagesFrom; split_ifs <;> omega

theorem messagesLeft_pos (h : s.download ≠ .finished) : 0 < messagesLeft R s := by
  unfold messagesLeft
  split
  · exact messagesFrom_pos R s _
  all_goals first | omega | exact absurd (by assumption) h

/-! ## The steps of the download task -/

structure SameScan (s t : State) : Prop where
  scan : t.scan = s.scan
  cancelled : t.cancelled = s.cancelled
  controller : t.controller = s.controller
  alive : t.chan.alive = s.chan.alive

theorem downloadStep_sameScan (h : downloadStep R s ok = some t) : SameScan s t := by
  cases downloadStep_move h with
  | next _ ha _ | last _ _ ha _ => exact ⟨rfl, rfl, rfl, ha⟩
  | _ => exact ⟨rfl, rfl, rfl, rfl⟩

/-- **The load never grows in a step of the download task**; only a failed download and a receiver
that is gone leave fewer messages. -/
theorem downloadStep_load (halive : s.chan.alive = true) (h : downloadStep R s ok = some t) :
    load R t ≤ load R s ∧ (ok = true → load R t = load R s) := by
  have both {n : ℕ} (heq : n = load R s) : n ≤ load R s ∧ (ok = true → n = load R s) :=
    ⟨heq.le, fun _ => heq⟩
  cases downloadStep_move h with
  | stop hd _ hc => simp [load, messagesLeft, hd, messagesFrom, hc]
  | size hd hlt hc =>
    simp [load, messagesLeft, hd, messagesFrom, hc, batchesLeft_of_lt s.controller hlt]
  | complete hd hle =>
    simp [load, messagesLeft, hd, messagesFrom, batchesLeft_of_le s.controller hle]
  | request hd | fetch hd => simp [load, messagesLeft, hd, messagesFrom]
  | fail hok hd => simp [load, messagesLeft, hd, hok]
  | next hd _ hq =>
    refine both ?_
    simp [load, messagesLeft, messagesFrom, hd, hq]
    omega
  | @last r _ hd hr _ hq =>
    refine both ?_
    cases r with
    | batch b => cases hr
    | _ => simp [load, messagesLeft, hd, hq]
  | gone _ hdead =>
    rw [halive] at hdead
    cases hdead

/-! ## The steps of the scan task -/

def Pending (s : State) (r : DownloadResult) : Prop := r ∈ s.chan.queue ∨ s.scan = .received r

/-- What it does to what it shares with the download task. -/
structure ScanStep (s t : State) (answer : Answer) : Prop where
  download : t.download = s.download
  alive : (∀ e, t.scan ≠ .left e) → t.chan.alive = s.chan.alive
  pending : ∀ r, Pending t r → Pending s r
  joining : t.scan = .joining → (∀ R, load R t = load R s) ∧
    (leavesEarly s (.scan answer) = true ∨ s.download = .finished ∨
      ∃ r, s.scan = .received r ∧ r.isBatch = false)

theorem leave_scanStep (s : State) (e : RangeExit) (answer : Answer) :
    ScanStep s (leave s e) answer := by
  refine ⟨rfl, fun h => absurd rfl (h e), fun r h => ?_, nofun⟩
  rcases h with h | h
  · cases h
  · cases h

theorem recvStep_scanStep (h : recvStep s = some t) : ScanStep s t answer := by
  unfold recvStep at h
  split at h
  · rename_i r chan hr
    obtain ⟨hq, ha⟩ := Chan.recv_eq_some hr
    cases h
    refine ⟨rfl, fun _ => ha, fun r' h => ?_, nofun⟩
    rcases h with h | h
    · exact .inl (by rw [hq]; exact List.mem_cons_of_mem _ h)
    · rw [ScanPc.received.injEq] at h
      exact .inl (by rw [hq, h]; exact List.mem_cons_self)
  · split_ifs at h with hf
    cases h
    refine ⟨rfl, fun _ => rfl, fun r h => ?_, fun _ => ⟨fun _ => rfl, .inr (.inl hf)⟩⟩
    rcases h with h | h
    · exact .inl h
    · cases h

theorem moveTo_scanStep (hd : t.download = s.download) (hc : t.chan = s.chan)
    (hr : ∀ r, t.scan ≠ .received r) (hj : t.scan ≠ .joining) :
    ScanStep s t answer := by
  refine ⟨hd, fun _ => by rw [hc], fun r h => ?_, fun h => absurd h hj⟩
  rcases h with h | h
  · exact .inl (hc ▸ h)
  · exact absurd h (hr r)

theorem toJoining_scanStep
    (ht : ∃ re rc, t = { s with rangeError := re, rangeCancelled := rc, scan := .joining })
    (hleave : leavesEarly s (.scan answer) = true ∨ s.download = .finished ∨
      ∃ r, s.scan = .received r ∧ r.isBatch = false) : ScanStep s t answer := by
  obtain ⟨re, rc, rfl⟩ := ht
  refine ⟨rfl, fun _ => rfl, fun r h => ?_, fun _ => ⟨fun _ => rfl, hleave⟩⟩
  rcases h with h | h
  · exact .inl h
  · cases h

theorem scanStep_spec (h : scanStep s answer = some t) : ScanStep s t answer := by
  unfold scanStep at h
  split at h
  case h_5 => exact recvStep_scanStep h
  case h_6 hs =>
    split_ifs at h with hc <;> cases h
    · exact toJoining_scanStep ⟨_, _, rfl⟩ (.inl (by simp [leavesEarly, hs, hc]))
    · exact moveTo_scanStep rfl rfl (by simp) (by simp)
  case h_7 hs | h_8 hs | h_9 hs =>
    rw [Option.some.injEq] at h
    exact toJoining_scanStep ⟨_, _, h.symm⟩ (.inr (.inr ⟨_, hs, rfl⟩))
  case h_10 =>
    split_ifs at h <;> cases h <;>
      exact moveTo_scanStep rfl rfl (by simp) (by simp)
  case h_13 hs | h_15 hs | h_16 hs =>
    rw [Option.some.injEq] at h
    exact toJoining_scanStep ⟨_, _, h.symm⟩ (.inl (by simp [leavesEarly, hs]))
  case h_19 =>
    split_ifs at h
    cases h
    exact leave_scanStep s _ _
  case h_20 => cases h
  -- the remaining branches fail the whole section or move on inside the loop
  all_goals
    cases h
    first
    | exact leave_scanStep s _ _
    | exact moveTo_scanStep rfl rfl (by simp) (by simp)

/-! ## Invariants of the section -/

def EarlyExitFits (R : ScanRange) (s : State) (a : Action) : Prop :=
  leavesEarly s a = true → Fits R s

instance (R : ScanRange) (s : State) (a : Action) : Decidable (EarlyExitFits R s a) :=
  inferInstanceAs (Decidable (_ → _))

/-- A message that is not a batch is the last one. -/
structure Inv (s : State) : Prop where
  alive : (∀ e, s.scan ≠ .left e) → s.chan.alive = true
  last : ∀ r, Pending s r → r.isBatch = false → s.download = .finished

theorem inv_start (R : ScanRange) (cancelled : Bool) : Inv (start R cancelled) := by
  refine ⟨fun _ => rfl, fun r h => ?_⟩
  rcases h with h | h <;> cases h

theorem downloadStep_queue (h : downloadStep R s ok = some t) :
    ∀ r ∈ t.chan.queue, r ∈ s.chan.queue ∨ (r.isBatch = false → t.download = .finished) := by
  intro r hr
  cases downloadStep_move h with
  | next _ _ hq =>
    rw [hq, List.mem_append, List.mem_singleton] at hr
    exact hr.imp_right fun heq hb => by cases heq; cases hb
  | last _ _ _ hq =>
    rw [hq, List.mem_append, List.mem_singleton] at hr
    exact hr.imp_right fun _ _ => rfl
  | _ => exact .inl hr

theorem downloadStep_of_finished (h : s.download = .finished) : downloadStep R s ok = none := by
  simp [downloadStep, h]

theorem inv_downloadStep (hs : Inv s) (h : downloadStep R s ok = some t) : Inv t := by
  have hsame := downloadStep_sameScan h
  refine ⟨fun hl => ?_, fun r hp hr => ?_⟩
  · rw [hsame.alive]
    exact hs.alive (hsame.scan ▸ hl)
  · -- a message of `s` that is not a batch would mean that the task cannot step
    have hold : ¬ Pending s r := fun hp' => by
      rw [downloadStep_of_finished (hs.last r hp' hr)] at h
      cases h
    rcases hp with hq | hscan
    · rcases downloadStep_queue h r hq with hq' | hfin
      · exact absurd (.inl hq') hold
      · exact hfin hr
    · exact absurd (.inr (hsame.scan ▸ hscan)) hold

theorem ScanStep.inv (h : ScanStep s t answer) (hl : ∀ e, s.scan ≠ .left e) (hs : Inv s) : Inv t :=
  ⟨fun hl' => (h.alive hl').trans (hs.alive hl),
    fun r hp hr => h.download ▸ hs.last r (h.pending r hp) hr⟩

theorem scanStep_of_left {e : RangeExit} (h : s.scan = .left e) : scanStep s answer = none := by
  simp [scanStep, h]

theorem inv_step (hs : Inv s) (h : step R s a = some t) : Inv t := by
  cases a with
  | cancel =>
    cases h
    exact ⟨hs.alive, hs.last⟩
  | abort =>
    rw [step] at h
    split_ifs at h with ha
    cases h
    exact (leave_scanStep s .aborted .done).inv (fun e he => by simp [he, ScanPc.atAwait] at ha) hs
  | download ok => exact inv_downloadStep hs h
  | scan answer =>
    have hl : ∀ e, s.scan ≠ .left e := fun e he => by
      rw [step, scanStep_of_left he] at h
      cases h
    exact (scanStep_spec h).inv hl hs

def JoinFits (R : ScanRange) (s : State) : Prop := s.scan = .joining → Fits R s

theorem load_cancel_le (R : ScanRange) (s : State) :
    load R { s with cancelled := true } ≤ load R s := by
  have hle : ∀ current, messagesFrom R { s with cancelled := true } current ≤
      messagesFrom R s current := fun current => by
    simp only [messagesFrom, if_true]
    split_ifs <;> omega
  unfold load messagesLeft
  dsimp only
  split <;> first
    | exact Nat.add_le_add_left (hle _) _
    | exact Nat.add_le_add_left (Nat.add_le_add_right (hle _) 1) _
    | exact le_rfl

theorem fits_of_finished (h : s.download = .finished) : Fits R s := by
  have := s.chan.bounded
  simpa [Fits, load, messagesLeft, h] using this

/-- **One step keeps `JoinFits`**, provided an early exit happens with a load that fits. -/
theorem joinFits_step (hi : Inv s) (hs : JoinFits R s) (hg : EarlyExitFits R s a)
    (h : step R s a = some t) : JoinFits R t := by
  intro ht
  cases a with
  | cancel =>
    cases h
    exact (load_cancel_le R s).trans (hs ht)
  | abort =>
    rw [step] at h
    split_ifs at h
    cases h
    cases ht
  | download ok =>
    have hsame := downloadStep_sameScan h
    have hsj : s.scan = .joining := hsame.scan ▸ ht
    exact (downloadStep_load (hi.alive (by simp [hsj])) h).1.trans (hs hsj)
  | scan answer =>
    obtain ⟨hload, hwhy⟩ := (scanStep_spec h).joining ht
    have hfits : Fits R s := by
      rcases hwhy with hearly | hfin | ⟨r, hr, hb⟩
      · exact hg hearly
      · exact fits_of_finished hfin
      · exact fits_of_finished (hi.last r (.inr hr) hb)
    rw [Fits, hload R]
    exact hfits

theorem not_blockedJoin (h : JoinFits R s) : ¬ BlockedJoin s := by
  rintro ⟨hj, ⟨_, hfull⟩, r, hr⟩
  have hfits := h hj
  have hpos := messagesLeft_pos (R := R) (s := s) (by rw [hr]; simp)
  unfold Fits load at hfits
  omega

theorem inv_of_reach {G : State → Action → Prop} (h : Reach (pipeline R) G s) : Inv s :=
  h.invariant (by rintro s ⟨cancelled, rfl⟩; exact inv_start R cancelled)
    fun _ _ _ hs _ hst => inv_step hs hst

theorem joinFits_of_reach (h : Reach (pipeline R) (EarlyExitFits R) s) : JoinFits R s := by
  have hboth : Inv s ∧ JoinFits R s :=
    h.invariant (I := fun s => Inv s ∧ JoinFits R s)
      (by rintro s ⟨cancelled, rfl⟩; exact ⟨inv_start R cancelled, nofun⟩)
      fun _ _ _ hs hg hst => ⟨inv_step hs.1 hst, joinFits_step hs.1 hs.2 hg hst⟩
  exact hboth.2

/-! ## A load that does not fit blocks -/

def DownloadPc.rank : DownloadPc → ℕ
  | .check => 3
  | .sizing => 2
  | .downloading _ => 1
  | .sending _ => 0
  | .finished => 0

def work (R : ScanRange) (s : State) : ℕ := 4 * messagesLeft R s + s.download.rank

theorem downloadStep_work (h : downloadStep R s true = some t) : work R t < work R s := by
  cases downloadStep_move h with
  | stop hd _ hc => simp [work, messagesLeft, hd, messagesFrom, hc, DownloadPc.rank]
  | size hd hlt hc =>
    simp [work, messagesLeft, hd, messagesFrom, hc, batchesLeft_of_lt s.controller hlt,
      DownloadPc.rank]
  | complete hd hle =>
    simp [work, messagesLeft, hd, messagesFrom, batchesLeft_of_le s.controller hle,
      DownloadPc.rank]
  | request hd | fetch hd => simp [work, messagesLeft, hd, messagesFrom, DownloadPc.rank]
  | fail hok => cases hok
  | @next b _ hd =>
    simp only [work, messagesLeft, messagesFrom, hd, DownloadPc.rank]
    omega
  | last hd | gone hd =>
    have hpos := messagesLeft_pos (R := R) (s := s) (by simp [hd])
    change 4 * 0 + 0 < 4 * messagesLeft R s + s.download.rank
    omega

/-- It has finished or waits for the channel. -/
theorem downloadStep_eq_none (h : downloadStep R s true = none) :
    s.download = .finished ∨ ∃ r, s.download = .sending r ∧ s.chan.Blocked := by
  unfold downloadStep at h
  split at h
  · split_ifs at h
  · cases h
  · cases h
  · rename_i r hd
    unfold sendResult at h
    split at h
    · rename_i hsend
      exact .inr ⟨r, hd, Chan.send_eq_none_iff.mp hsend⟩
    · split at h <;> cases h
  · rename_i hd
    exact .inl hd

theorem exists_blockedJoin (n : ℕ) : ∀ s : State, work R s = n →
    s.scan = .joining → s.chan.alive = true → ¬ Fits R s →
      ∃ u, Path (pipeline R) Free s u ∧ BlockedJoin u := by
  induction n using Nat.strong_induction_on with
  | _ n ih =>
    intro s hn hj ha hf
    cases hstep : downloadStep R s true with
    | none =>
      rcases downloadStep_eq_none hstep with hfin | ⟨r, hr, hb⟩
      · exact absurd (fits_of_finished hfin) hf
      · exact ⟨s, .refl, hj, hb, r, hr⟩
    | some t =>
      have hsame := downloadStep_sameScan hstep
      have hload := (downloadStep_load ha hstep).2 rfl
      obtain ⟨u, hu, hb⟩ := ih (work R t) (hn ▸ downloadStep_work hstep) t rfl
        (hsame.scan.trans hj) (hsame.alive.trans ha) (by rw [Fits, hload]; exact hf)
      exact ⟨u, (Path.single (a := .download true) trivial hstep).trans hu, hb⟩

theorem leavesEarly_joining (hl : leavesEarly s a = true) (h : step R s a = some t) :
    t.scan = .joining ∧ ∃ answer, a = .scan answer := by
  cases a with
  | scan answer =>
    refine ⟨?_, answer, rfl⟩
    simp only [leavesEarly] at hl
    simp only [step] at h
    split at hl
    case h_5 => cases hl
    all_goals
      rename_i hs
      simp only [scanStep, hs, hl, if_true, Option.some.injEq] at h
      subst h
      rfl
  | _ => cases hl

/-- **Joining the download task** does not block if early exits happen while the messages to come
fit into the channel. Another early exit can be followed by a blocked join. -/
theorem no_blocked_join (R : ScanRange) :
    (∀ s, Reach (pipeline R) (EarlyExitFits R) s → ¬ BlockedJoin s) ∧
      ∀ s a t, Reach (pipeline R) Free s → leavesEarly s a = true → step R s a = some t →
        ¬ Fits R s → ∃ u, Path (pipeline R) Free t u ∧ BlockedJoin u := by
  refine ⟨fun s h => not_blockedJoin (joinFits_of_reach h), fun s a t h hl hst hf => ?_⟩
  obtain ⟨hj, answer, rfl⟩ := leavesEarly_joining hl hst
  have ht := inv_of_reach (h.step (a := .scan answer) trivial hst)
  have hload := ((scanStep_spec hst).joining hj).1 R
  exact exists_blockedJoin _ t rfl hj (ht.alive (by simp [hj])) (by rw [Fits, hload]; exact hf)

def eightBatches : ScanRange := ⟨3000000, 3002000, by decide⟩

def threeBatches : ScanRange := ⟨3000000, 3000750, by decide⟩

def downloadBatch : List Action := List.replicate 4 (.download true)

/-- After `ahead` has happened. -/
def reorgOnFirstBatch (ahead : List Action) : List Action :=
  [Action.scan .done, .scan .done] ++ downloadBatch ++
    [Action.scan .done, .scan .done, .scan .done] ++ ahead ++ [Action.scan .reorgDetected]

/-- The next four fill the channel, the sixth is never taken. -/
theorem reorg_blocks_join : ∃ s, Reach (pipeline eightBatches) Free s ∧ s.scan = .joining ∧
    s.chan.Blocked ∧ s.download = .sending (.batch ⟨3001250, 3001500⟩) :=
  exec_reach (reorgOnFirstBatch (downloadBatch ++ downloadBatch ++ downloadBatch ++
    downloadBatch ++ List.replicate 3 (Action.download true))) ⟨false, rfl⟩ (along_free _ _)
    (by decide +kernel)

theorem no_blocked_join_threeBatches :
    (∃ s, (Reach (pipeline threeBatches) (EarlyExitFits threeBatches) s ∧ s.scan = .joining) ∧
      ¬ BlockedJoin s) ∧
    ∃ s, (Reach (pipeline eightBatches) Free s ∧ leavesEarly s (.scan .reorgDetected) = true) ∧
      ∀ t, step eightBatches s (.scan .reorgDetected) = some t →
        ∃ u, Path (pipeline eightBatches) Free t u ∧ BlockedJoin u := by
  constructor
  · obtain ⟨s, hs, hj⟩ := exec_reach (S := pipeline threeBatches) (G := EarlyExitFits threeBatches)
      (p := fun s => s.scan = .joining)
      (reorgOnFirstBatch downloadBatch) ⟨false, rfl⟩ (by decide +kernel) (by decide +kernel)
    exact ⟨s, ⟨hs, hj⟩, (no_blocked_join threeBatches).1 s hs⟩
  · obtain ⟨s, hs, hl, hf⟩ := exec_reach (S := pipeline eightBatches) (G := Free)
      (p := fun s => leavesEarly s (.scan .reorgDetected) = true ∧ ¬ Fits eightBatches s)
      (reorgOnFirstBatch []).dropLast ⟨false, rfl⟩ (along_free _ _) (by decide +kernel)
    exact ⟨s, ⟨hs, hl⟩, fun t ht => (no_blocked_join eightBatches).2 s _ t hs hl ht hf⟩

end ZbagSync
