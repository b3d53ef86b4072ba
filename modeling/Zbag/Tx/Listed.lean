import Mathlib.Order.Nat
import Zbag.Tx.Queue

/-!
# Transactions — a queued transaction stays listed

A scan decides from the metadata it has read and removes later. If the call writes in between, the
scan removes what it has never looked at: a scan that reads the metadata between its creation and
its first write takes it for broken.

* `Inv`: the files of the call, and what the scans hold of them.
-/

namespace ZbagQueue

open ZbagTx Transition

variable {c : QueueCall} {s t : Queue}

def CallPc.writing : CallPc → Bool
  | .bin (.fill _) | .clock | .json .. => true
  | .mkdir | .bin _ | .returned _ => false

def ScanPc.held? : ScanPc → Option (TxId × File FileData)
  | .checkBin txid id entry _ => some (txid, ⟨id, .json entry⟩)
  | .removeBin txid file _ | .removeJson txid file _ => some (txid, file)
  | .start | .clock | .readDir | .loop _ | .done => none

def ScanPc.removing? : ScanPc → Option (TxId × File FileData)
  | .removeBin txid file _ | .removeJson txid file _ => some (txid, file)
  | .start | .clock | .readDir | .loop _ | .checkBin .. | .done => none

theorem ScanPc.held_of_removing {pc : ScanPc} {p : TxId × File FileData}
    (h : pc.removing? = some p) : pc.held? = some p := by
  cases pc <;> first | exact h | cases h

/-- **A scan removes only what it has read**: not while the call is writing or the metadata have
changed. -/
def RemovesRead (c : QueueCall) (s : Queue) : Action → Prop
  | .scan i _ =>
    ∀ scan ∈ s.scans[i]?, ∀ p ∈ scan.pc.removing?, p.1 = c.txid →
      s.call.writing = false ∧ ∀ f ∈ s.dir.file (.json c.txid), f = p.2
  | .tick _ | .call _ | .startScan | .delete => True

instance : DecidablePred (RemovesRead c s)
  | .scan i _ =>
    inferInstanceAs (Decidable (∀ scan ∈ s.scans[i]?, ∀ p ∈ scan.pc.removing?, p.1 = c.txid →
      s.call.writing = false ∧ ∀ f ∈ s.dir.file (.json c.txid), f = p.2))
  | .tick _ => isTrue trivial
  | .call _ => isTrue trivial
  | .startScan => isTrue trivial
  | .delete => isTrue trivial

/-! ## One step of a scan -/

/-- **What a step of a scan can do**: it removes at most one file, of an entry to be removed. -/
structure ScanEffect (s : Queue) (scan : Scan) (d : QueueDir) (scan' : Scan) : Prop where
  late : scan'.late = scan.late
  now : scan'.now = scan.now ∨ scan'.now = s.clock
  dir : d = s.dir ∨ ∃ txid file, scan.pc.removing? = some (txid, file) ∧
    (d = s.dir.remove (.bin txid) ∨ d = s.dir.remove (.json txid))
  held : ∀ txid file, scan'.pc.held? = some (txid, file) →
    scan.pc.held? = some (txid, file) ∨ s.dir.file (.json txid) = some file
  removing : ∀ txid file, scan'.pc.removing? = some (txid, file) →
    scan.pc.removing? = some (txid, file) ∨ ∀ entry, file.data = .json entry →
      (s.dir.file (.bin txid)).isSome = false ∨ retentionExpired scan.now entry = true

variable {scan scan' : Scan} {d : QueueDir} {names : List TxId} {uuid i : ℕ}

theorem ScanEffect.of_held_none (hl : scan'.late = scan.late)
    (hn : scan'.now = scan.now ∨ scan'.now = s.clock)
    (hd : d = s.dir ∨ ∃ txid file, scan.pc.removing? = some (txid, file) ∧
      (d = s.dir.remove (.bin txid) ∨ d = s.dir.remove (.json txid)))
    (hp : scan'.pc.held? = none) : ScanEffect s scan d scan' where
  late := hl
  now := hn
  dir := hd
  held txid file h := by
    rw [hp] at h
    cases h
  removing txid file h := by
    have hheld := ScanPc.held_of_removing h
    rw [hp] at hheld
    cases hheld

theorem scanStep_effect (h : scanStep s scan names = some (d, scan')) :
    ScanEffect s scan d scan' := by
  obtain ⟨late, now, pc, found⟩ := scan
  cases pc with
  | start =>
    cases h
    refine .of_held_none rfl (.inl rfl) (.inl rfl) ?_
    dsimp only
    split_ifs <;> rfl
  | clock =>
    cases h
    exact .of_held_none rfl (.inr rfl) (.inl rfl) rfl
  | readDir =>
    simp only [scanStep] at h
    split_ifs at h
    cases h
    exact .of_held_none rfl (.inl rfl) (.inl rfl) rfl
  | loop todo =>
    cases todo with
    | nil =>
      cases h
      exact .of_held_none rfl (.inl rfl) (.inl rfl) rfl
    | cons txid todo =>
      simp only [scanStep] at h
      split at h
      · cases h
        exact .of_held_none rfl (.inl rfl) (.inl rfl) rfl
      next id entry hfile =>
        cases h
        refine ⟨rfl, .inl rfl, .inl rfl, ?_, ?_⟩
        · intro _ _ hp
          cases hp
          exact .inr hfile
        · intro _ _ hp
          cases hp
      next file hjson hfile =>
        cases h
        refine ⟨rfl, .inl rfl, .inl rfl, ?_, ?_⟩
        · intro _ _ hp
          cases hp
          exact .inr hfile
        · intro _ _ hp
          cases hp
          refine .inr fun entry hdata => ?_
          -- metadata that parses was taken by the branch before
          obtain ⟨id, data⟩ := file
          cases hdata
          exact absurd rfl (hjson id entry)
  | checkBin txid id entry todo =>
    simp only [scanStep] at h
    split_ifs at h with hbin hold
    · cases h
      refine ⟨rfl, .inl rfl, .inl rfl, fun _ _ hp => .inl hp, ?_⟩
      intro _ _ hp
      cases hp
      refine .inr fun entry' hdata => ?_
      cases hdata
      exact .inr hold
    · cases h
      exact .of_held_none rfl (.inl rfl) (.inl rfl) rfl
    · cases h
      refine ⟨rfl, .inl rfl, .inl rfl, fun _ _ hp => .inl hp, ?_⟩
      intro _ _ hp
      cases hp
      exact .inr fun _ _ => .inl (Bool.not_eq_true _ ▸ hbin)
  | removeBin txid file todo =>
    cases h
    exact ⟨rfl, .inl rfl, .inr ⟨txid, file, rfl, .inl rfl⟩, fun _ _ hp => .inl hp,
      fun _ _ hp => .inl hp⟩
  | removeJson txid file todo =>
    cases h
    exact .of_held_none rfl (.inl rfl) (.inr ⟨txid, file, rfl, .inr rfl⟩) rfl
  | done => cases h

def Tracks (txid : TxId) (entry : QueuedBroadcastMeta) (scan : Scan) : Prop :=
  match scan.pc with
  | .start | .clock | .readDir => True
  | .loop todo | .removeBin _ _ todo | .removeJson _ _ todo =>
    txid ∈ todo ∨ txid ∈ scan.found.map Prod.fst
  | .checkBin txid' _ entry' todo =>
    (txid' = txid ∧ entry' = entry) ∨ txid ∈ todo ∨ txid ∈ scan.found.map Prod.fst
  | .done => txid ∈ scan.found.map Prod.fst

/-- **A scan of a queue that holds the entry whole never loses sight of it.** -/
theorem tracks_scanStep {txid : TxId} {id : ℕ} {entry : QueuedBroadcastMeta}
    (hq : s.queueDir = true) (hjson : s.dir.file (.json txid) = some ⟨id, .json entry⟩)
    (hbin : (s.dir.file (.bin txid)).isSome = true)
    (hyoung : retentionExpired scan.now entry = false) (h : scanStep s scan names = some (d, scan'))
    (ht : Tracks txid entry scan) :
    Tracks txid entry scan' := by
  obtain ⟨late, now, pc, found⟩ := scan
  cases pc with
  | start =>
    cases h
    simp only [Tracks, hq, if_true]
  | clock => cases h; trivial
  | readDir =>
    simp only [scanStep] at h
    split_ifs at h with hnames
    cases h
    refine .inl (hnames (.json txid) ?_ txid rfl)
    rw [Directory.mem_list, hjson]
    rfl
  | loop todo =>
    cases todo with
    | nil =>
      cases h
      exact ht.resolve_left List.not_mem_nil
    | cons other todo =>
      simp only [scanStep] at h
      by_cases he : other = txid
      · subst he
        rw [hjson] at h
        cases h
        exact .inl ⟨rfl, rfl⟩
      · have hrest : txid ∈ todo ∨ txid ∈ found.map Prod.fst :=
          ht.imp_left fun hm => (List.mem_cons.mp hm).resolve_left (Ne.symm he)
        split at h
        · cases h; exact hrest
        · cases h; exact .inr hrest
        · cases h; exact hrest
  | checkBin other id' entry' todo =>
    simp only [scanStep] at h
    obtain ⟨rfl, rfl⟩ | hrest := ht
    · rw [if_pos hbin, if_neg (by rw [hyoung]; decide)] at h
      cases h
      exact .inr (List.mem_map.mpr ⟨_, List.mem_cons_self, rfl⟩)
    · split_ifs at h
      · cases h; exact hrest
      · cases h
        exact hrest.imp_right fun hm => by
          rw [List.map_cons]
          exact List.mem_cons_of_mem _ hm
      · cases h; exact hrest
  | removeBin _ _ todo | removeJson _ _ todo => cases h; exact ht
  | done => cases h

/-! ## The invariant -/

def Held (c : QueueCall) (s : Queue) (f : File FileData) : Prop :=
  ∃ scan ∈ s.scans, scan.pc.held? = some (c.txid, f)

def Seen (c : QueueCall) (s : Queue) (f : File FileData) : Prop :=
  s.dir.file (.json c.txid) = some f ∨ Held c s f

/-- The call has returned, and the entry is neither deleted nor past the retention. -/
structure Due (c : QueueCall) (s : Queue) (createdAtMs : ℤ) : Prop where
  returned : s.call = .returned createdAtMs
  kept : s.deleted = false
  young : retentionExpired s.clock (c.entry createdAtMs) = false

/-- No scan is about to remove this metadata file. -/
structure Whole (c : QueueCall) (s : Queue) (createdAtMs : ℤ) (id : ℕ) : Prop where
  json : s.dir.file (.json c.txid) = some ⟨id, .json (c.entry createdAtMs)⟩
  bin : (s.dir.file (.bin c.txid)).isSome = true
  unremoved : ∀ scan ∈ s.scans,
    scan.pc.removing? ≠ some (c.txid, ⟨id, .json (c.entry createdAtMs)⟩)

/-- What a scan holds is never the file that the call is about to fill, or was read before. -/
def Written (c : QueueCall) (s : Queue) : CallPc → Prop
  | .bin (.fillTemp uuid _) | .bin (.renameTemp uuid) =>
    (s.dir.file (.temp uuid)).isSome = true
  | .json _ (.fill h) =>
    s.dir.file (.json c.txid) = some ⟨h, .empty⟩ ∧ ∀ f, Held c s f → f.id = h → f.data = .empty
  | .json _ (.fillTemp uuid h) =>
    s.dir.file (.temp uuid) = some ⟨h, .empty⟩ ∧ ∀ f, Seen c s f → f.id ≠ h
  | .json createdAtMs (.renameTemp uuid) =>
    ∃ h, s.dir.file (.temp uuid) = some ⟨h, .json (c.entry createdAtMs)⟩ ∧
      ∀ f, Seen c s f → f.id ≠ h
  | .returned createdAtMs => Due c s createdAtMs → ∃ id, Whole c s createdAtMs id
  | .mkdir | .bin _ | .clock | .json .. => True

structure Inv (c : QueueCall) (s : Queue) : Prop where
  queueDir : s.call ≠ .mkdir → s.queueDir = true
  now_le : ∀ scan ∈ s.scans, scan.now ≤ s.clock
  held_lt : ∀ f, Held c s f → f.id < s.dir.next
  placed : s.call.writing = true → (s.dir.file (.bin c.txid)).isSome = true
  written : Written c s s.call
  late : ∀ scan ∈ s.scans, scan.late = true → s.call.isReturned = true
  tracks : ∀ createdAtMs, Due c s createdAtMs → ∀ scan ∈ s.scans, scan.late = true →
    Tracks c.txid (c.entry createdAtMs) scan

theorem inv_init (h : (queueSystem c).init s) : Inv c s := by
  obtain ⟨hcall, hscans, -⟩ := h
  have hnone : ∀ scan, scan ∉ s.scans := by
    intro scan hm
    rw [hscans] at hm
    cases hm
  exact
    { queueDir := fun hne => absurd hcall hne
      now_le := fun scan hm => absurd hm (hnone scan)
      held_lt := fun f ⟨scan, hm, _⟩ => absurd hm (hnone scan)
      placed := fun hw => by rw [hcall] at hw; cases hw
      written := by rw [hcall]; trivial
      late := fun scan hm => absurd hm (hnone scan)
      tracks := fun _ _ scan hm => absurd hm (hnone scan) }

theorem Inv.seen_lt (hi : Inv c s) {f : File FileData} (h : Seen c s f) : f.id < s.dir.next := by
  obtain hfile | hheld := h
  · exact Directory.id_lt hfile
  · exact hi.held_lt f hheld

theorem retentionExpired_of_le {now now' : Time} {entry : QueuedBroadcastMeta} (hle : now ≤ now')
    (h : retentionExpired now' entry = false) : retentionExpired now entry = false := by
  simp only [retentionExpired, decide_eq_false_iff_not, not_lt] at h ⊢
  exact (Nat.sub_le_sub_right hle _).trans h

/-! ## Steps of the call -/

theorem Inv.of_call (hi : Inv c s) (hret : s.call.isReturned = false) {q : Bool} {pc : CallPc}
    (hq : q = true) (hnext : s.dir.next ≤ d.next)
    (hplaced : pc.writing = true → (d.file (.bin c.txid)).isSome = true)
    (hw : Written c { s with queueDir := q, dir := d, call := pc } pc) :
    Inv c { s with queueDir := q, dir := d, call := pc } where
  queueDir _ := hq
  now_le := hi.now_le
  held_lt f hf := (hi.held_lt f hf).trans_le hnext
  placed := hplaced
  written := hw
  late scan hm hl := by
    have hr := hi.late scan hm hl
    rw [hret] at hr
    cases hr
  tracks _ _ scan hm hl := by
    have hr := hi.late scan hm hl
    rw [hret] at hr
    cases hr

theorem inv_writeBin (hi : Inv c s) {pc : WritePc} (hpc : s.call = .bin pc) {next : Option WritePc}
    (h : writeFileSecure s.dir (.bin c.txid) (.tx c.tx) uuid pc = some (d, next)) :
    Inv c { s with dir := d, call := next.elim .clock .bin } := by
  have hret : s.call.isReturned = false := by rw [hpc]; rfl
  have hq : s.queueDir = true := hi.queueDir (by rw [hpc]; exact CallPc.noConfusion)
  have hw := hi.written
  have hplaced := hi.placed
  rw [hpc] at hw hplaced
  cases pc with
  | create =>
    simp only [writeFileSecure] at h
    split_ifs at h <;> cases h
    · exact hi.of_call hret hq le_rfl nofun trivial
    · refine hi.of_call hret hq (Nat.le_succ _) (fun _ => ?_) trivial
      rw [Directory.file_create]
      rfl
  | fill handle =>
    cases h
    refine hi.of_call hret hq le_rfl (fun _ => ?_) trivial
    rw [Directory.isSome_file_write]
    exact hplaced rfl
  | createTemp =>
    simp only [writeFileSecure] at h
    split_ifs at h
    cases h
    refine hi.of_call hret hq (Nat.le_succ _) nofun ?_
    show ((s.dir.create _ _).file _).isSome = true
    rw [Directory.file_create]
    rfl
  | fillTemp uuid handle =>
    cases h
    refine hi.of_call hret hq le_rfl nofun ?_
    show ((s.dir.write _ _).file _).isSome = true
    rw [Directory.isSome_file_write]
    exact hw
  | renameTemp uuid =>
    cases h
    refine hi.of_call hret hq le_rfl (fun _ => ?_) trivial
    rw [Directory.file_rename]
    exact hw

theorem inv_writeJson (hi : Inv c s) {createdAtMs : ℤ} {pc : WritePc}
    (hpc : s.call = .json createdAtMs pc) {next : Option WritePc}
    (h : writeFileSecure s.dir (.json c.txid) (.json (c.entry createdAtMs)) uuid pc
      = some (d, next)) :
    Inv c { s with dir := d, call := next.elim (.returned createdAtMs) (.json createdAtMs) } := by
  have hret : s.call.isReturned = false := by rw [hpc]; rfl
  have hq : s.queueDir = true := hi.queueDir (by rw [hpc]; exact CallPc.noConfusion)
  have hw := hi.written
  have hplaced := hi.placed
  rw [hpc] at hw hplaced
  have hbin := hplaced rfl
  cases pc with
  | create =>
    simp only [writeFileSecure] at h
    split_ifs at h <;> cases h
    · exact hi.of_call hret hq le_rfl (fun _ => hbin) trivial
    · refine hi.of_call hret hq (Nat.le_succ _) (fun _ => ?_) ⟨Directory.file_create .., ?_⟩
      · rw [Directory.file_create_of_ne _ QueueFile.noConfusion]
        exact hbin
      · -- a file that a scan holds is older than the new one
        intro f hf hid
        exact absurd hid (hi.held_lt f hf).ne
  | fill handle =>
    cases h
    obtain ⟨hjson, hheld⟩ := hw
    refine hi.of_call hret hq le_rfl nofun fun _ => ⟨handle, ?_, ?_, ?_⟩
    · exact Directory.file_write_self hjson _
    · show ((s.dir.write _ _).file _).isSome = true
      rw [Directory.isSome_file_write]
      exact hbin
    · intro scan hm hrm
      have hempty := hheld _ ⟨scan, hm, ScanPc.held_of_removing hrm⟩ rfl
      cases hempty
  | createTemp =>
    simp only [writeFileSecure] at h
    split_ifs at h
    cases h
    refine hi.of_call hret hq (Nat.le_succ _) (fun _ => ?_) ⟨Directory.file_create .., ?_⟩
    · rw [Directory.file_create_of_ne _ QueueFile.noConfusion]
      exact hbin
    · intro f hf
      refine (hi.seen_lt (f := f) (hf.imp_left fun hfile => ?_)).ne
      exact (Directory.file_create_of_ne s.dir QueueFile.noConfusion _).symm.trans hfile
  | fillTemp uuid handle =>
    cases h
    obtain ⟨htemp, hseen⟩ := hw
    refine hi.of_call hret hq le_rfl (fun _ => ?_)
      ⟨handle, Directory.file_write_self htemp _, ?_⟩
    · rw [Directory.isSome_file_write]
      exact hbin
    · intro f hf
      refine hseen f (hf.imp_left fun hfile => ?_)
      exact (Directory.file_write_of_ne (fun g hg => hseen g (.inl hg)) _).symm.trans hfile
  | renameTemp uuid =>
    cases h
    obtain ⟨handle, htemp, hseen⟩ := hw
    refine hi.of_call hret hq le_rfl nofun fun _ => ⟨handle, ?_, ?_, ?_⟩
    · exact (Directory.file_rename ..).trans htemp
    · show ((s.dir.rename _ _).file _).isSome = true
      rw [Directory.file_rename_of_ne _ QueueFile.noConfusion QueueFile.noConfusion]
      exact hbin
    · intro scan hm hrm
      exact hseen _ (.inr ⟨scan, hm, ScanPc.held_of_removing hrm⟩) rfl

theorem inv_call (hi : Inv c s) (h : callStep c s uuid = some t) : Inv c t := by
  unfold callStep at h
  split at h
  next hpc =>
    cases h
    exact hi.of_call (by rw [hpc]; rfl) rfl le_rfl nofun trivial
  next pc hpc =>
    obtain ⟨⟨d, next⟩, hwrite, rfl⟩ := Option.map_eq_some_iff.mp h
    exact inv_writeBin hi hpc hwrite
  next hpc =>
    cases h
    have hplaced := hi.placed
    rw [hpc] at hplaced
    exact hi.of_call (by rw [hpc]; rfl) (hi.queueDir (by rw [hpc]; exact CallPc.noConfusion))
      le_rfl (fun _ => hplaced rfl) trivial
  next createdAtMs pc hpc =>
    obtain ⟨⟨d, next⟩, hwrite, rfl⟩ := Option.map_eq_some_iff.mp h
    exact inv_writeJson hi hpc hwrite
  next => cases h

/-! ## Other steps -/

/-- The files of the entry stay, and what the scans hold is old or explained. -/
structure Beside (c : QueueCall) (s t : Queue) : Prop where
  call : t.call = s.call
  queueDir : t.queueDir = s.queueDir
  next : t.dir.next = s.dir.next
  temp : ∀ uuid, t.dir.file (.temp uuid) = s.dir.file (.temp uuid)
  files : s.call.writing = true ∨ (∃ createdAtMs, Due c t createdAtMs) →
    t.dir.file (.bin c.txid) = s.dir.file (.bin c.txid) ∧
      t.dir.file (.json c.txid) = s.dir.file (.json c.txid)
  held : ∀ f, Held c t f → Seen c s f
  removing : ∀ createdAtMs id, Due c t createdAtMs → Whole c s createdAtMs id →
    ∀ scan ∈ t.scans, scan.pc.removing? ≠ some (c.txid, ⟨id, .json (c.entry createdAtMs)⟩)
  due : ∀ createdAtMs, Due c t createdAtMs → Due c s createdAtMs

theorem Beside.seen (hb : Beside c s t) (hw : s.call.writing = true) {f : File FileData}
    (h : Seen c t f) : Seen c s f := by
  obtain hfile | hheld := h
  · exact .inl ((hb.files (.inl hw)).2.symm.trans hfile)
  · exact hb.held f hheld

theorem Beside.whole (hb : Beside c s t) {createdAtMs : ℤ} (hd : Due c t createdAtMs) {id : ℕ}
    (hwh : Whole c s createdAtMs id) : Whole c t createdAtMs id := by
  obtain ⟨hbin, hjson⟩ := hb.files (.inr ⟨createdAtMs, hd⟩)
  exact ⟨hjson.trans hwh.json, by rw [hbin]; exact hwh.bin, hb.removing createdAtMs id hd hwh⟩

theorem Beside.written (hb : Beside c s t) (hi : Inv c s) : Written c t t.call := by
  have hw := hi.written
  have hfiles := hb.files
  have hseen := fun hwr f => hb.seen hwr (f := f)
  rw [hb.call]
  generalize s.call = pc at hw hfiles hseen
  cases pc with
  | mkdir | clock => trivial
  | bin pc =>
    cases pc with
    | create | fill | createTemp => trivial
    | fillTemp uuid _ | renameTemp uuid =>
      show (t.dir.file (.temp uuid)).isSome = true
      rw [hb.temp]
      exact hw
  | json createdAtMs pc =>
    cases pc with
    | create | createTemp => trivial
    | fill handle =>
      obtain ⟨hjson, hheld⟩ := hw
      refine ⟨(hfiles (.inl rfl)).2.trans hjson, fun f hf hid => ?_⟩
      obtain hfile | hold := hb.held f hf
      · rw [hjson] at hfile
        cases hfile
        rfl
      · exact hheld f hold hid
    | fillTemp uuid handle =>
      obtain ⟨htemp, hne⟩ := hw
      exact ⟨(hb.temp uuid).trans htemp, fun f hf => hne f (hseen rfl f hf)⟩
    | renameTemp uuid =>
      obtain ⟨handle, htemp, hne⟩ := hw
      exact ⟨handle, (hb.temp uuid).trans htemp, fun f hf => hne f (hseen rfl f hf)⟩
  | returned createdAtMs =>
    intro hd
    obtain ⟨id, hwh⟩ := hw (hb.due createdAtMs hd)
    exact ⟨id, hb.whole hd hwh⟩

theorem Inv.of_beside (hi : Inv c s) (hb : Beside c s t)
    (hnow : ∀ scan ∈ t.scans, scan.now ≤ t.clock)
    (hlate : ∀ scan ∈ t.scans, scan.late = true → s.call.isReturned = true)
    (htracks : ∀ createdAtMs, Due c t createdAtMs → ∀ scan ∈ t.scans, scan.late = true →
      Tracks c.txid (c.entry createdAtMs) scan) : Inv c t where
  queueDir hne := by
    rw [hb.queueDir]
    exact hi.queueDir (hb.call ▸ hne)
  now_le := hnow
  held_lt f hf := by
    rw [hb.next]
    exact hi.seen_lt (hb.held f hf)
  placed hw := by
    rw [hb.call] at hw
    rw [(hb.files (.inl hw)).1]
    exact hi.placed hw
  written := hb.written hi
  late := by rw [hb.call]; exact hlate
  tracks := htracks

theorem inv_tick (hi : Inv c s) (n : ℕ) : Inv c { s with clock := s.clock + n } := by
  have hdue : ∀ createdAtMs, Due c { s with clock := s.clock + n } createdAtMs →
      Due c s createdAtMs :=
    fun _ hd => ⟨hd.returned, hd.kept, retentionExpired_of_le (Nat.le_add_right ..) hd.young⟩
  refine hi.of_beside ?_ (fun scan hm => (hi.now_le scan hm).trans (Nat.le_add_right ..)) hi.late
    (fun createdAtMs hd => hi.tracks createdAtMs (hdue createdAtMs hd))
  exact
    { call := rfl, queueDir := rfl, next := rfl, temp := fun _ => rfl, files := fun _ => ⟨rfl, rfl⟩
      held := fun _ => .inr
      removing := fun _ _ _ hwh => hwh.unremoved
      due := hdue }

theorem inv_startScan (hi : Inv c s) :
    Inv c { s with scans := s.scans ++ [⟨s.call.isReturned, 0, .start, []⟩] } := by
  -- a scan that starts holds nothing
  have hsplit : ∀ scan ∈ s.scans ++ [⟨s.call.isReturned, 0, .start, []⟩],
      scan ∈ s.scans ∨ scan = ⟨s.call.isReturned, 0, .start, []⟩ := fun scan hm =>
    (List.mem_append.mp hm).imp_right List.mem_singleton.mp
  refine hi.of_beside ?_ ?_ ?_ ?_
  · refine { call := rfl, queueDir := rfl, next := rfl, temp := fun _ => rfl,
             files := fun _ => ⟨rfl, rfl⟩, held := ?_, removing := ?_,
             due := fun _ hd => ⟨hd.returned, hd.kept, hd.young⟩ }
    · rintro f ⟨scan, hm, hp⟩
      obtain hold | rfl := hsplit scan hm
      · exact .inr ⟨scan, hold, hp⟩
      · cases hp
    · intro createdAtMs id _ hwh scan hm
      obtain hold | rfl := hsplit scan hm
      · exact hwh.unremoved scan hold
      · intro h; cases h
  · intro scan hm
    obtain hold | rfl := hsplit scan hm
    · exact hi.now_le scan hold
    · exact Nat.zero_le _
  · intro scan hm hl
    obtain hold | rfl := hsplit scan hm
    · exact hi.late scan hold hl
    · exact hl
  · intro createdAtMs hd scan hm hl
    obtain hold | rfl := hsplit scan hm
    · exact hi.tracks createdAtMs ⟨hd.returned, hd.kept, hd.young⟩ scan hold hl
    · trivial

theorem inv_delete (hi : Inv c s) (hret : s.call.isReturned = true) :
    Inv c { s with
      dir := (s.dir.remove (.bin c.txid)).remove (.json c.txid), deleted := true } := by
  have hnot : s.call.writing = false := by
    revert hret
    cases s.call <;> first | exact fun _ => rfl | exact nofun
  exact
    { queueDir := hi.queueDir
      now_le := hi.now_le
      held_lt := hi.held_lt
      placed := fun hw => by
        rw [show s.call.writing = true from hw] at hnot
        cases hnot
      written := by
        show Written c _ s.call
        revert hret
        cases s.call with
        | returned => exact fun _ hd => by cases hd.kept
        | mkdir | bin | clock | json => exact nofun
      late := hi.late
      tracks := fun _ hd => by cases hd.kept }

/-! ## Steps of scans beside the call -/

/-- **A scan that removes only what it has read leaves the entry alone.** -/
theorem scan_keeps_files (hi : Inv c s) (hscan : s.scans[i]? = some scan)
    (hg : RemovesRead c s (.scan i names)) (he : ScanEffect s scan d scan')
    (h : s.call.writing = true ∨ ∃ createdAtMs, Due c s createdAtMs) :
    d.file (.bin c.txid) = s.dir.file (.bin c.txid) ∧
      d.file (.json c.txid) = s.dir.file (.json c.txid) := by
  obtain rfl | ⟨txid, file, hrm, hd⟩ := he.dir
  · exact ⟨rfl, rfl⟩
  · have hne : txid ≠ c.txid := by
      rintro rfl
      obtain ⟨hnot, hread⟩ := hg scan hscan _ hrm rfl
      obtain hw | ⟨createdAtMs, hdue⟩ := h
      · rw [hw] at hnot
        cases hnot
      · have hwritten := hi.written
        rw [hdue.returned] at hwritten
        obtain ⟨id, hwh⟩ := hwritten hdue
        have hfile := hread _ hwh.json
        dsimp only at hfile
        subst hfile
        exact hwh.unremoved scan (List.mem_of_getElem? hscan) hrm
    obtain rfl | rfl := hd
    · exact ⟨Directory.file_remove_of_ne _ (fun h => hne (QueueFile.bin.inj h).symm),
        Directory.file_remove_of_ne _ QueueFile.noConfusion⟩
    · exact ⟨Directory.file_remove_of_ne _ QueueFile.noConfusion,
        Directory.file_remove_of_ne _ (fun h => hne (QueueFile.json.inj h).symm)⟩

theorem ScanEffect.temp (he : ScanEffect s scan d scan') (uuid : ℕ) :
    d.file (.temp uuid) = s.dir.file (.temp uuid) := by
  obtain rfl | ⟨_, _, _, rfl | rfl⟩ := he.dir
  · rfl
  · exact Directory.file_remove_of_ne _ QueueFile.noConfusion
  · exact Directory.file_remove_of_ne _ QueueFile.noConfusion

theorem ScanEffect.next (he : ScanEffect s scan d scan') : d.next = s.dir.next := by
  obtain rfl | ⟨_, _, _, rfl | rfl⟩ := he.dir <;> rfl

theorem beside_scan (hi : Inv c s) (hscan : s.scans[i]? = some scan)
    (hg : RemovesRead c s (.scan i names)) (he : ScanEffect s scan d scan') :
    Beside c s { s with dir := d, scans := s.scans.set i scan' } where
  call := rfl
  queueDir := rfl
  next := he.next
  temp := he.temp
  files h := scan_keeps_files hi hscan hg he
    (h.imp_right fun ⟨createdAtMs, hd⟩ => ⟨createdAtMs, hd.returned, hd.kept, hd.young⟩)
  held := by
    rintro f ⟨sc, hm, hp⟩
    obtain hold | rfl := List.mem_or_eq_of_mem_set hm
    · exact .inr ⟨sc, hold, hp⟩
    · exact (he.held _ _ hp).symm.imp_right fun hp =>
        ⟨scan, List.mem_of_getElem? hscan, hp⟩
  removing := by
    intro createdAtMs id hd hwh sc hm hrm
    obtain hold | rfl := List.mem_or_eq_of_mem_set hm
    · exact hwh.unremoved sc hold hrm
    · -- the new decision would need missing bytes or an old entry
      have hmem := List.mem_of_getElem? hscan
      have hyoung : retentionExpired scan.now (c.entry createdAtMs) = false :=
        retentionExpired_of_le (hi.now_le scan hmem) hd.young
      obtain hold | hreason := he.removing _ _ hrm
      · exact hwh.unremoved scan hmem hold
      · obtain hbin | hexpired := hreason _ rfl
        · rw [hwh.bin] at hbin
          cases hbin
        · rw [hyoung] at hexpired
          cases hexpired
  due _ hd := ⟨hd.returned, hd.kept, hd.young⟩

theorem inv_scan (hi : Inv c s) (hscan : s.scans[i]? = some scan)
    (hg : RemovesRead c s (.scan i names)) (h : scanStep s scan names = some (d, scan')) :
    Inv c { s with dir := d, scans := s.scans.set i scan' } := by
  have he := scanStep_effect h
  have hmem := List.mem_of_getElem? hscan
  refine hi.of_beside (beside_scan hi hscan hg he) ?_ ?_ ?_
  · intro sc hm
    obtain hold | rfl := List.mem_or_eq_of_mem_set hm
    · exact hi.now_le sc hold
    · obtain hnow | hnow := he.now
      · rw [hnow]
        exact hi.now_le scan hmem
      · exact hnow.le
  · intro sc hm hl
    obtain hold | rfl := List.mem_or_eq_of_mem_set hm
    · exact hi.late sc hold hl
    · exact hi.late scan hmem (he.late ▸ hl)
  · intro createdAtMs hd sc hm hl
    have hdue : Due c s createdAtMs := ⟨hd.returned, hd.kept, hd.young⟩
    obtain hold | rfl := List.mem_or_eq_of_mem_set hm
    · exact hi.tracks createdAtMs hdue sc hold hl
    · have hwritten := hi.written
      rw [hdue.returned] at hwritten
      obtain ⟨id, hwh⟩ := hwritten hdue
      have hq : s.queueDir = true := hi.queueDir (by rw [hdue.returned]; exact CallPc.noConfusion)
      exact tracks_scanStep hq hwh.json hwh.bin
        (retentionExpired_of_le (hi.now_le scan hmem) hdue.young) h
        (hi.tracks createdAtMs hdue scan hmem (he.late ▸ hl))

theorem inv_step (hi : Inv c s) {a : Action} (hg : RemovesRead c s a)
    (h : (queueSystem c).step s a = some t) : Inv c t := by
  cases a with
  | tick n => cases h; exact inv_tick hi n
  | call uuid => exact inv_call hi h
  | startScan => cases h; exact inv_startScan hi
  | scan i names =>
    obtain ⟨scan, hscan, h⟩ := Option.bind_eq_some_iff.mp h
    obtain ⟨⟨d, scan'⟩, hstep, rfl⟩ := Option.map_eq_some_iff.mp h
    exact inv_scan hi hscan hg hstep
  | delete =>
    simp only [queueSystem, step] at h
    split_ifs at h with hret
    cases h
    exact inv_delete hi hret

theorem inv_reach (h : Reach (queueSystem c) (RemovesRead c) s) : Inv c s :=
  h.invariant (fun _ => inv_init) fun _ _ _ hi hg hst => inv_step hi hg hst

/-- **A queued transaction stays listed** until it is deleted or its retention is over, if scans
remove only what they have read. -/
theorem queued_broadcast_listed (c : QueueCall) (s : Queue)
    (hs : Reach (queueSystem c) (RemovesRead c) s) (createdAtMs : ℤ)
    (hret : s.call = .returned createdAtMs) (hkept : s.deleted = false)
    (hyoung : retentionExpired s.clock (c.entry createdAtMs) = false) :
    ∀ scan ∈ s.scans, scan.late = true → scan.pc = .done →
      c.txid ∈ scan.found.map Prod.fst := by
  intro scan hm hl hdone
  have htracks := (inv_reach hs).tracks createdAtMs ⟨hret, hkept, hyoung⟩ scan hm hl
  rw [Tracks, hdone] at htracks
  exact htracks

def firstCall : QueueCall := queueBroadcast 1 7 [3] (some "connection reset") none true 30000

def noQueue : Queue := ⟨0, false, .empty, .mkdir, [], false⟩

def callCreatesJson : List Action := [.call 0, .call 0, .call 0, .call 0, .call 0]

def scansAll (i : ℕ) (names : List TxId) (steps : ℕ) : List Action :=
  .startScan :: List.replicate steps (.scan i names)

/-- A scan reads the metadata between its creation and its first write. -/
theorem queued_broadcast_lost : ∃ s, Reach (queueSystem firstCall) Free s ∧
    s.call = .returned 0 ∧ s.deleted = false ∧
    retentionExpired s.clock (firstCall.entry 0) = false ∧
    ∃ scan ∈ s.scans, scan.late = true ∧ scan.pc = .done ∧
      firstCall.txid ∉ scan.found.map Prod.fst :=
  exec_reach (s := noQueue) (callCreatesJson ++ scansAll 0 [7] 4 ++
    [Action.call 0, .scan 0 []] ++ scansAll 1 [] 4) ⟨rfl, rfl, rfl⟩ (along_free _ _)
    (by decide +kernel)

theorem queued_broadcast_listed_run : ∃ s,
    (Reach (queueSystem firstCall) (RemovesRead firstCall) s ∧
    s.call = .returned 0 ∧ s.deleted = false ∧
    retentionExpired s.clock (firstCall.entry 0) = false ∧
    ∃ scan ∈ s.scans, scan.late = true ∧ scan.pc = .done) ∧
    ∀ scan ∈ s.scans, scan.late = true → scan.pc = .done →
      firstCall.txid ∈ scan.found.map Prod.fst := by
  obtain ⟨s, hs, hret, hkept, hyoung, hscan⟩ :=
    exec_reach (S := queueSystem firstCall) (G := RemovesRead firstCall) (s := noQueue)
      (p := fun s => s.call = .returned 0 ∧ s.deleted = false ∧
        retentionExpired s.clock (firstCall.entry 0) = false ∧
        ∃ scan ∈ s.scans, scan.late = true ∧ scan.pc = .done)
      (callCreatesJson ++ scansAll 0 [7] 3 ++ [Action.call 0] ++
        List.replicate 3 (Action.scan 0 []) ++ scansAll 1 [7] 6) ⟨rfl, rfl, rfl⟩
      (by decide +kernel) (by decide +kernel)
  exact ⟨s, ⟨hs, hret, hkept, hyoung, hscan⟩,
    queued_broadcast_listed firstCall s hs 0 hret hkept hyoung⟩

end ZbagQueue
