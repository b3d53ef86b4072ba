import Zbag.Sync.Sandblasting

/-!
# Sync — the ranges of a pass, and reorgs

A pass of the sync task asks the wallet for scan ranges, works on them one after the other and asks
again, until there are none. A scan that finds a reorg rewinds the wallet and leaves the loop over
the batches of its range, but not the loop over the ranges: the ranges that were suggested before
the rewind are still worked on.
-/

namespace ZbagSync

open Channel Transition

/-! ## The loops -/

inductive ScanPriority
  | ignored
  | scanned
  | historic
  | openAdjacent
  | foundNote
  | chainTip
  | verify
  deriving DecidableEq, Repr

structure SuggestedRange where
  range : ScanRange
  priority : ScanPriority
  deriving DecidableEq, Repr

/-- `between` is everything outside `'sync_loop`, `inRange` the pipelined section. -/
inductive RoundPc
  | between
  | loopHead
  | suggest
  | nextRange (rest : List SuggestedRange)
  | walletTip (r : SuggestedRange) (rest : List SuggestedRange)
  | inRange (r : SuggestedRange) (rest : List SuggestedRange) (s : State)
  | rangeProgress (rest : List SuggestedRange)
  | stopped
  deriving DecidableEq, Repr

inductive RoundEvent
  /-- `suggest_scan_ranges` is called -/
  | suggested
  /-- `scan_batch_blocking` is called -/
  | scanned (b : DownloadedBatch)
  /-- a scan returns `ReorgDetected` -/
  | reorg
  deriving DecidableEq, Repr

/-- latest first -/
structure Round where
  cancelled : Bool
  pc : RoundPc
  log : List RoundEvent
  deriving DecidableEq, Repr

inductive RoundAnswer
  | done
  | ranges (rs : List SuggestedRange)
  | failed
  | workerFailed
  deriving DecidableEq, Repr

inductive RoundAction
  | cancel
  | abort
  | next (answer : RoundAnswer)
  | inRange (a : Action)
  deriving DecidableEq, Repr

def afterRange (rest : List SuggestedRange) : RangeExit → RoundPc
  | .autoSync | .aborted => .stopped
  | .syncLoop => .between
  | .rangeDone => .rangeProgress rest

def Round.goTo (s : Round) (pc : RoundPc) : Round := { s with pc }

def roundNext (s : Round) : RoundAnswer → Option Round
  | .done =>
    match s.pc with
    | .between => some (s.goTo (if s.cancelled then .stopped else .loopHead))
    | .loopHead => some (s.goTo (if s.cancelled then .stopped else .suggest))
    | .nextRange [] => some (s.goTo .loopHead)
    | .nextRange (r :: rest) =>
      if s.cancelled then some (s.goTo .stopped)
      else if r.priority = .ignored then some (s.goTo (.nextRange rest))
      else some (s.goTo (.walletTip r rest))
    | .walletTip r rest => some (s.goTo (.inRange r rest (start r.range s.cancelled)))
    | .inRange _ rest p =>
      match p.scan with
      | .left e => some { s with cancelled := p.cancelled, pc := afterRange rest e }
      | _ => none
    | .rangeProgress rest => some (s.goTo (.nextRange rest))
    | .suggest | .stopped => none
  | .ranges rs =>
    match s.pc with
    | .suggest =>
      some { s with
        pc := if rs = [] then .between else .nextRange rs
        log := .suggested :: s.log }
    | _ => none
  | .failed =>
    match s.pc with
    | .between => some s
    | .suggest => some { s with pc := .between, log := .suggested :: s.log }
    | _ => none
  | .workerFailed =>
    match s.pc with
    | .between | .walletTip .. | .rangeProgress _ => some (s.goTo .stopped)
    | .suggest => some { s with pc := .stopped, log := .suggested :: s.log }
    | _ => none

def scanEvents (p : State) (a : Action) : List RoundEvent :=
  match p.scan, a with
  | .caching b, .scan .done => if p.isFirstBatchInRange then [.scanned b] else []
  | .batchTree b, .scan .done => [.scanned b]
  | .scanning _, .scan .reorgDetected => [.reorg]
  | _, _ => []

def roundStep (s : Round) : RoundAction → Option Round
  | .cancel =>
    match s.pc with
    | .inRange .. => none
    | _ => some { s with cancelled := true }
  | .abort =>
    match s.pc with
    | .inRange .. => none
    | _ => some (s.goTo .stopped)
  | .next answer => roundNext s answer
  | .inRange a =>
    match s.pc with
    | .inRange r rest p =>
      (step r.range p a).map fun p' =>
        { s with pc := .inRange r rest p', log := scanEvents p a ++ s.log }
    | _ => none

/-- **The sync task** over its ranges. -/
def rounds : System Round RoundAction where
  init s := ∃ cancelled, s = ⟨cancelled, .between, []⟩
  step := roundStep

/-- With no new ranges in between. -/
def Overtaken (s : Round) : Prop :=
  ∃ (newer between older : List RoundEvent) (b : DownloadedBatch),
    s.log = newer ++ .scanned b :: between ++ .reorg :: older ∧ .suggested ∉ between

def SuggestedRange.Skipped (r : SuggestedRange) : Prop :=
  r.priority = .ignored ∨ r.range.stop ≤ r.range.start

instance (r : SuggestedRange) : Decidable r.Skipped := inferInstanceAs (Decidable (_ ∨ _))

def RoundPc.later : RoundPc → List SuggestedRange
  | .inRange _ rest _ => rest
  | _ => []

/-- In the last range that is not skipped. -/
def LastRange (s : Round) (a : RoundAction) : Prop :=
  a = .inRange (.scan .reorgDetected) → ∀ r ∈ s.pc.later, r.Skipped

instance (s : Round) (a : RoundAction) : Decidable (LastRange s a) :=
  inferInstanceAs (Decidable (_ → ∀ r ∈ s.pc.later, _))

/-! ## A range without batches -/

def ScanPc.hasBatch : ScanPc → Bool
  | .received r => r.isBatch
  | .caching _ | .batchTree _ | .scanning _ => true
  | .progress | .rangeTree | .recv | .emitting | .joining | .left _ => false

def DownloadPc.isEmpty : DownloadPc → Bool
  | .check | .finished => true
  | .sending r => !r.isBatch
  | .sizing | .downloading _ => false

structure NoBatch (R : ScanRange) (p : State) : Prop where
  current : R.stop ≤ p.current
  download : p.download.isEmpty = true
  queue : ∀ r ∈ p.chan.queue, r.isBatch = false
  scan : p.scan.hasBatch = false

variable {R : ScanRange} {p p' : State} {a : Action} {s : Round} {rest : List SuggestedRange}
  {t : Round}

theorem noBatch_start (h : R.stop ≤ R.start) (cancelled : Bool) : NoBatch R (start R cancelled) :=
  ⟨h, rfl, List.forall_mem_nil _, rfl⟩

theorem noBatch_download {ok : Bool} (hp : NoBatch R p) (h : downloadStep R p ok = some p') :
    NoBatch R p' := by
  have hempty := hp.download
  cases downloadStep_move h with
  | stop _ hlt | size _ hlt => exact absurd hp.current (Nat.not_le.mpr hlt)
  | request hd | fetch hd | fail _ hd | next hd =>
    simp [hd, DownloadPc.isEmpty, DownloadResult.isBatch] at hempty
  | last _ hr _ hq =>
    refine ⟨hp.current, rfl, ?_, hp.scan⟩
    rw [hq]
    exact List.forall_mem_append.mpr ⟨hp.queue, List.forall_mem_singleton.mpr hr⟩
  | complete | gone => exact ⟨hp.current, rfl, hp.queue, hp.scan⟩

theorem noBatch_leave (hp : NoBatch R p) (e : RangeExit) : NoBatch R (leave p e) :=
  ⟨hp.current, hp.download, List.forall_mem_nil _, rfl⟩

theorem NoBatch.moved (hp : NoBatch R p) (hcurrent : p'.current = p.current)
    (hdownload : p'.download = p.download) (hchan : p'.chan = p.chan)
    (hscan : p'.scan.hasBatch = false) : NoBatch R p' :=
  ⟨hcurrent ▸ hp.current, hdownload ▸ hp.download, hchan ▸ hp.queue, hscan⟩

theorem noBatch_recv (hp : NoBatch R p) (h : recvStep p = some p') : NoBatch R p' := by
  unfold recvStep at h
  split at h
  · rename_i r chan hrecv
    obtain ⟨hqueue, -⟩ := Chan.recv_eq_some hrecv
    have hall := hp.queue
    rw [hqueue, List.forall_mem_cons] at hall
    cases h
    exact ⟨hp.current, hp.download, hall.2, hall.1⟩
  · split_ifs at h
    cases h
    exact hp.moved rfl rfl rfl rfl

theorem noBatch_scan {answer : Answer} (hp : NoBatch R p) (h : scanStep p answer = some p') :
    NoBatch R p' := by
  have hscan := hp.scan
  revert h
  fun_cases scanStep p answer
  all_goals
    intro h
    first
    | exact noBatch_recv hp h
    | cases h
  all_goals first
    | exact noBatch_leave hp _
    | exact hp.moved rfl rfl rfl rfl
    | simp_all [ScanPc.hasBatch, DownloadResult.isBatch]

theorem noBatch_step (hp : NoBatch R p) (h : step R p a = some p') : NoBatch R p' := by
  cases a with
  | cancel =>
    cases h
    exact hp.moved rfl rfl rfl hp.scan
  | abort =>
    obtain ⟨-, h⟩ := Option.ite_none_right_eq_some.mp h
    cases h
    exact noBatch_leave hp _
  | download ok => exact noBatch_download hp h
  | scan answer => exact noBatch_scan hp h

theorem NoBatch.scanEvents_eq (hp : NoBatch R p) (a : Action) : scanEvents p a = [] := by
  have hscan := hp.scan
  unfold scanEvents
  split <;> first | rfl | simp_all [ScanPc.hasBatch]

/-! ## A range that is left -/

def Over (p : State) : Prop := p.scan = .joining ∨ ∃ e, p.scan = .left e

theorem Over.scanEvents_eq (hp : Over p) (a : Action) : scanEvents p a = [] := by
  unfold scanEvents
  obtain hp | ⟨e, hp⟩ := hp <;> rw [hp]

theorem over_step (hp : Over p) (h : step R p a = some p') : Over p' := by
  cases a with
  | cancel =>
    cases h
    exact hp
  | abort =>
    obtain ⟨-, h⟩ := Option.ite_none_right_eq_some.mp h
    cases h
    exact .inr ⟨_, rfl⟩
  | download ok =>
    unfold Over
    rwa [(downloadStep_sameScan h).scan]
  | scan answer =>
    obtain hjoining | ⟨e, hleft⟩ := hp
    · cases answer with
      | done =>
        simp only [step, scanStep, hjoining] at h
        obtain ⟨-, h⟩ := Option.ite_none_right_eq_some.mp h
        cases h
        exact .inr ⟨_, rfl⟩
      | _ => simp [step, scanStep, hjoining] at h
    · rw [step, scanStep_of_left hleft] at h
      cases h

/-! ## After a reorg -/

def reorgPending : List RoundEvent → Bool
  | [] | .suggested :: _ => false
  | .reorg :: _ => true
  | .scanned _ :: log => reorgPending log

def InOrder : List RoundEvent → Prop
  | [] => True
  | .scanned _ :: log => reorgPending log = false ∧ InOrder log
  | .suggested :: log | .reorg :: log => InOrder log

theorem reorgPending_append {between : List RoundEvent} (h : .suggested ∉ between)
    (older : List RoundEvent) : reorgPending (between ++ .reorg :: older) = true := by
  induction between with
  | nil => rfl
  | cons event between ih =>
    rw [List.mem_cons, not_or] at h
    cases event with
    | suggested => exact absurd rfl h.1
    | scanned b => exact ih h.2
    | reorg => rfl

theorem InOrder.of_append {newer older : List RoundEvent} (h : InOrder (newer ++ older)) :
    InOrder older := by
  induction newer with
  | nil => exact h
  | cons event newer ih =>
    cases event with
    | scanned b => exact ih h.2
    | suggested | reorg => exact ih h

theorem InOrder.not_overtaken (h : InOrder s.log) : ¬ Overtaken s := by
  rintro ⟨newer, between, older, b, hlog, hbetween⟩
  rw [hlog, List.append_assoc, List.cons_append] at h
  have hpending := h.of_append.1
  rw [reorgPending_append hbetween] at hpending
  cases hpending

def Calm : RoundPc → Prop
  | .nextRange rest | .rangeProgress rest => ∀ r ∈ rest, r.Skipped
  | .walletTip r rest => r.range.stop ≤ r.range.start ∧ ∀ r ∈ rest, r.Skipped
  | .inRange r rest p => (Over p ∨ NoBatch r.range p) ∧ ∀ r ∈ rest, r.Skipped
  | .between | .loopHead | .suggest | .stopped => True

structure Rewound (s : Round) : Prop where
  calm : reorgPending s.log = true → Calm s.pc
  inOrder : InOrder s.log

theorem Rewound.goTo (hs : Rewound s) {cancelled : Bool} {pc : RoundPc}
    (hcalm : Calm s.pc → Calm pc) : Rewound ⟨cancelled, pc, s.log⟩ :=
  ⟨fun hpending => hcalm (hs.calm hpending), hs.inOrder⟩

theorem Rewound.suggested (hs : Rewound s) {cancelled : Bool} (pc : RoundPc) :
    Rewound ⟨cancelled, pc, .suggested :: s.log⟩ :=
  ⟨nofun, hs.inOrder⟩

theorem calm_afterRange (h : ∀ r ∈ rest, r.Skipped) (e : RangeExit) : Calm (afterRange rest e) := by
  cases e with
  | rangeDone => exact h
  | autoSync | syncLoop | aborted => trivial

theorem rewound_next {answer : RoundAnswer} (hs : Rewound s) (h : roundNext s answer = some t) :
    Rewound t := by
  revert h
  fun_cases roundNext s answer
  all_goals
    intro h
    cases h
  case case1 hpc | case2 hpc => exact hs.goTo fun _ => by split_ifs <;> trivial
  case case5 r rest hpc hcancelled hignored =>
    refine hs.goTo fun hcalm => ?_
    rw [hpc] at hcalm
    exact (List.forall_mem_cons.mp hcalm).2
  case case6 r rest hpc hcancelled hignored =>
    refine hs.goTo fun hcalm => ?_
    rw [hpc] at hcalm
    obtain ⟨hr, hrest⟩ := List.forall_mem_cons.mp hcalm
    exact ⟨hr.resolve_left hignored, hrest⟩
  case case7 r rest hpc =>
    refine hs.goTo fun hcalm => ?_
    rw [hpc] at hcalm
    exact ⟨.inr (noBatch_start hcalm.1 _), hcalm.2⟩
  case case8 r rest p hpc e hleft =>
    refine hs.goTo fun hcalm => ?_
    rw [hpc] at hcalm
    exact calm_afterRange hcalm.2 e
  case case10 rest hpc =>
    refine hs.goTo fun hcalm => ?_
    rwa [hpc] at hcalm
  case case13 | case16 | case21 => exact hs.suggested _
  case case15 => exact hs
  -- the task stops, or goes to the head of the loop
  all_goals exact hs.goTo fun _ => trivial

/-! ## Steps inside a range -/

theorem scanEvents_cases (h : step R p a = some p') :
    scanEvents p a = [] ∨ (∃ b, scanEvents p a = [.scanned b]) ∨
      scanEvents p a = [.reorg] ∧ a = .scan .reorgDetected ∧ Over p' := by
  unfold scanEvents
  split
  case h_1 =>
    split_ifs
    · exact .inr (.inl ⟨_, rfl⟩)
    · exact .inl rfl
  case h_2 => exact .inr (.inl ⟨_, rfl⟩)
  case h_3 hscan =>
    simp only [step, scanStep, hscan, Option.some.injEq] at h
    exact .inr (.inr ⟨rfl, rfl, .inl (by rw [← h])⟩)
  case h_4 => exact .inl rfl

theorem Calm.scanEvents_eq {r : SuggestedRange} (h : Calm (.inRange r rest p)) (a : Action) :
    scanEvents p a = [] :=
  h.1.elim (fun hover => hover.scanEvents_eq a) fun hempty => hempty.scanEvents_eq a

theorem calm_step {r : SuggestedRange} (h : Calm (.inRange r rest p))
    (hstep : step r.range p a = some p') :
    Calm (.inRange r rest p') := by
  refine ⟨?_, h.2⟩
  obtain hover | hempty := h.1
  · exact .inl (over_step hover hstep)
  · exact .inr (noBatch_step hempty hstep)

theorem rewound_inRange (hs : Rewound s) (hguard : LastRange s (.inRange a))
    (h : roundStep s (.inRange a) = some t) : Rewound t := by
  simp only [roundStep] at h
  split at h
  case h_2 => cases h
  case h_1 r rest p hpc =>
    obtain ⟨p', hstep, rfl⟩ := Option.map_eq_some_iff.mp h
    by_cases hpending : reorgPending s.log = true
    · have hcalm : Calm (.inRange r rest p) := hpc ▸ hs.calm hpending
      rw [hcalm.scanEvents_eq a]
      exact ⟨fun _ => calm_step hcalm hstep, hs.inOrder⟩
    · rw [Bool.not_eq_true] at hpending
      obtain hnone | ⟨b, hscan⟩ | ⟨hreorg, rfl, hover⟩ := scanEvents_cases hstep
      · rw [hnone]
        exact ⟨fun h => absurd (hpending.symm.trans h) nofun, hs.inOrder⟩
      · rw [hscan]
        exact ⟨fun h => absurd (hpending.symm.trans h) nofun, hpending, hs.inOrder⟩
      · have hrest := hguard rfl
        rw [hpc] at hrest
        rw [hreorg]
        exact ⟨fun _ => ⟨.inl hover, hrest⟩, hs.inOrder⟩

theorem rewound_step {a : RoundAction} (hs : Rewound s) (hguard : LastRange s a)
    (h : roundStep s a = some t) : Rewound t := by
  cases a with
  | cancel =>
    simp only [roundStep] at h
    split at h
    · cases h
    · cases h
      exact hs.goTo id
  | abort =>
    simp only [roundStep] at h
    split at h
    · cases h
    · cases h
      exact hs.goTo fun _ => trivial
  | next answer => exact rewound_next hs h
  | inRange a => exact rewound_inRange hs hguard h

/-- **After a reorg no batch is scanned before new ranges are asked for**, if reorgs are found in
the last range. -/
theorem no_scan_after_reorg {s : Round} (h : Reach rounds LastRange s) : ¬ Overtaken s := by
  have hs : Rewound s := by
    refine h.invariant (I := Rewound) ?_ ?_
    · rintro s ⟨cancelled, rfl⟩
      exact ⟨nofun, trivial⟩
    · intro s a t hs hguard hstep
      exact rewound_step hs hguard hstep
  exact hs.inOrder.not_overtaken

def scanFirst : List RoundAction :=
  [RoundAction.next .done, .next .done, .inRange (.scan .done), .inRange (.scan .done)] ++
    List.replicate 6 (RoundAction.inRange (.download true)) ++
    List.replicate 3 (RoundAction.inRange (.scan .done))

def reorgInLast : List RoundAction :=
  [RoundAction.next .done, .next .done,
      .next (.ranges [⟨⟨100, 200, by decide⟩, .historic⟩])] ++ scanFirst ++
    [RoundAction.inRange (.scan .reorgDetected), .inRange (.scan .done)] ++
    List.replicate 4 (RoundAction.next .done) ++
    [RoundAction.next (.ranges [⟨⟨90, 200, by decide⟩, .historic⟩])] ++ scanFirst

theorem no_scan_after_reorg_last : ∃ s, Reach rounds LastRange s ∧
    s.log = [.scanned ⟨90, 200⟩, .suggested, .reorg, .scanned ⟨100, 200⟩, .suggested] ∧
      ¬ Overtaken s := by
  obtain ⟨s, hreach, hlog⟩ := exec_reach (S := rounds) (G := LastRange)
    (p := fun s => s.log =
      [.scanned ⟨90, 200⟩, .suggested, .reorg, .scanned ⟨100, 200⟩, .suggested])
    reorgInLast ⟨false, rfl⟩ (by decide +kernel) (by decide +kernel)
  exact ⟨s, hreach, hlog, no_scan_after_reorg hreach⟩

def reorgInFirst : List RoundAction :=
  [RoundAction.next .done, .next .done, .next (.ranges
    [⟨⟨100, 200, by decide⟩, .chainTip⟩, ⟨⟨50, 90, by decide⟩, .historic⟩])] ++ scanFirst ++
    [RoundAction.inRange (.scan .reorgDetected), .inRange (.scan .done), .next .done,
      .next .done] ++ scanFirst

/-- The second range is scanned as it was suggested before. -/
theorem scan_after_reorg : ∃ s, Reach rounds Free s ∧
    s.log = [.scanned ⟨50, 90⟩, .reorg, .scanned ⟨100, 200⟩, .suggested] ∧ Overtaken s := by
  obtain ⟨s, hreach, hlog⟩ := exec_reach (S := rounds) (G := Free)
    (p := fun s => s.log = [.scanned ⟨50, 90⟩, .reorg, .scanned ⟨100, 200⟩, .suggested])
    reorgInFirst ⟨false, rfl⟩ (along_free _ _) (by decide +kernel)
  exact ⟨s, hreach, hlog, [], [], _, ⟨50, 90⟩, hlog, List.not_mem_nil⟩

end ZbagSync
