import Zbag.Wallet.Backup

/-!
# The app — commands over the wallet manager and the sync service

The commands of the desktop app that change the active wallet or the sync jobs. `zbag_load_wallet`
stops the sync of the wallet that was active before; `zbag_create_wallet`, `zbag_unlock_wallet` and
`zbag_start_sync` make a wallet active as well and stop nothing.
-/

set_option mvcgen.warning false

namespace ZbagApp

open Std.Do Transition ZbagWallet

/-! ## Commands -/

inductive CommandError
  | ipc (e : IpcError)
  | torConnectionFailed
  | io
  deriving DecidableEq, Repr

/-- `jobs`: the wallets with an entry in the sync service. -/
structure AppState where
  world : World
  jobs : List WalletId

def AppState.manager {α : Type} (s : AppState) (op : Op α) : Except IpcError α × AppState :=
  ((op.run s.world).1, { s with world := (op.run s.world).2 })

def AppState.stopSync (s : AppState) (w : WalletId) : AppState :=
  { s with jobs := s.jobs.filter (· ≠ w) }

def AppState.isUnlocked (s : AppState) : Bool :=
  s.world.activeWallet.any (·.lockStatus == .unlocked)

structure StartEnv where
  accounts : Bool
  blockingScan : Bool
  resolveGrpcUrl : Bool
  /-- the new task has already ended -/
  finished : Bool

def startSyncWithHandlers (env : StartEnv) (w : WalletId) (s : AppState) :
    Except CommandError Bool × AppState :=
  match s.world.appDb.wallets w, s.manager (unlockedWalletDek w),
      s.manager (requireUnlockedWalletDb w) with
  | none, _, _ => (.error (.ipc ⟨.walletNotFound, "wallet not found"⟩), s)
  | some _, (.error e, _), _ => (.error (.ipc e), s)
  | some _, (.ok _, _), (.error e, _) => (.error (.ipc e), s)
  | some _, (.ok _, _), (.ok _, _) =>
    if !env.accounts then (.error .io, s)
    -- `SYNC_IN_PROGRESS` is not an error here
    else if s.jobs.contains w || env.blockingScan then (.ok false, s)
    else if !env.resolveGrpcUrl then (.error .io, s)
    else (.ok true, if env.finished then s else { s with jobs := w :: s.jobs })

structure CommandEnv where
  manager : Env
  start : StartEnv

/-- `request`: the checks on name and password. -/
def zbagCreateWallet (request : Except IpcError Unit) (env backupEnv accountEnv : Env)
    (w : WalletId) (words : List String) (secrets : Bool) (challengeId : ℕ) (indices : List ℕ)
    (s : AppState) : Except IpcError Unit × AppState :=
  match request with
  | .error e => (.error e, s)
  | .ok () =>
    s.manager (createWallet env backupEnv accountEnv w words secrets challengeId indices)

def stopPreviousWalletSync (w : WalletId) (s : AppState) : AppState :=
  match s.world.activeWallet with
  | some active => if active.wallet ≠ w then s.stopSync active.wallet else s
  | none => s

/-- An error of the sync that it starts is only logged. -/
def zbagLoadWallet (env : CommandEnv) (w : WalletId) (s : AppState) :
    Except CommandError Bool × AppState :=
  match (stopPreviousWalletSync w s).manager (loadWallet env.manager w) with
  | (.error e, s) => (.error (.ipc e), s)
  | (.ok _, s) =>
    if !s.isUnlocked then (.ok false, s)
    else if !env.start.accounts then (.error .io, s)
    else (.ok true, (startSyncWithHandlers env.start w s).2)

def zbagUnlockWallet (env : Env) (w : WalletId) (password : Bool) (s : AppState) :
    Except IpcError Unit × AppState :=
  s.manager (unlockWallet env w password)

def zbagLockWallet (w : WalletId) (s : AppState) : Except IpcError Unit × AppState :=
  (s.stopSync w).manager (lockWallet w)

def zbagLogoutWallet (w : WalletId) (s : AppState) : Except IpcError Unit × AppState :=
  (s.stopSync w).manager (logoutWallet w)

def zbagStartSync (env : CommandEnv) (w : WalletId) (s : AppState) :
    Except CommandError Bool × AppState :=
  match s.manager (loadWallet env.manager w) with
  | (.error e, s) => (.error (.ipc e), s)
  | (.ok _, s) =>
    if s.isUnlocked then startSyncWithHandlers env.start w s
    else (.error (.ipc ⟨.walletLocked, "wallet locked"⟩), s)

def restartSync (env : CommandEnv) (s : AppState) (w : WalletId) : AppState :=
  match s.manager (loadWallet env.manager w) with
  | (.error _, s) => s
  | (.ok _, s) => if s.isUnlocked then (startSyncWithHandlers env.start w s).2 else s

/-- `running` are the keys of the jobs in the order of their map. -/
def zbagSetTorEnabled (env : WalletId → CommandEnv) (enabled torOk stored : Bool)
    (running : List WalletId) (s : AppState) : Except CommandError Unit × AppState :=
  let running := if enabled then running else []
  let s := running.foldl AppState.stopSync s
  if !torOk then (.error .torConnectionFailed, s)
  else if !stored then (.error .io, s)
  else (.ok (), running.foldl (fun s w => restartSync (env w) s w) s)

inductive Command
  | createWallet (request : Except IpcError Unit) (env backupEnv accountEnv : Env) (w : WalletId)
      (words : List String) (secrets : Bool) (challengeId : ℕ) (indices : List ℕ)
  | loadWallet (env : CommandEnv) (w : WalletId)
  | unlockWallet (env : Env) (w : WalletId) (password : Bool)
  | lockWallet (w : WalletId)
  | logoutWallet (w : WalletId)
  | startSync (env : CommandEnv) (w : WalletId)
  | stopSync (w : WalletId)
  | setTorEnabled (env : WalletId → CommandEnv) (enabled torOk stored : Bool)
      (running : List WalletId)
  | jobEnds (w : WalletId)

def AppState.step (s : AppState) : Command → Option AppState
  | .createWallet request env backupEnv accountEnv w words secrets challengeId indices =>
    some (zbagCreateWallet request env backupEnv accountEnv w words secrets challengeId indices s).2
  | .loadWallet env w => some (zbagLoadWallet env w s).2
  | .unlockWallet env w password => some (zbagUnlockWallet env w password s).2
  | .lockWallet w => some (zbagLockWallet w s).2
  | .logoutWallet w => some (zbagLogoutWallet w s).2
  | .startSync env w => some (zbagStartSync env w s).2
  | .stopSync w => some (s.stopSync w)
  | .setTorEnabled env enabled torOk stored running =>
    if running.isPerm s.jobs then some (zbagSetTorEnabled env enabled torOk stored running s).2
    else none
  | .jobEnds w => some (s.stopSync w)

def AppState.start (world : World) : AppState := ⟨{ world with activeWallet := none }, []⟩

def appSystem : System AppState Command where
  init s := ∃ world, s = .start world
  step := AppState.step

/-! ## The active wallet -/

def loads (env : Env) (w : WalletId) (s : World) : Bool :=
  (s.appDb.wallets w).isSome && env.walletDir && env.appDb

def unlocks (env : Env) (w : WalletId) (password : Bool) (s : World) : Bool :=
  (s.appDb.wallets w).isSome && env.walletDir && password && env.preflight && env.appDb

def Open (active : Option ActiveWallet) (w : WalletId) : Prop :=
  ∃ a ∈ active, a.wallet = w ∧ a.lockStatus = .unlocked ∧ a.dek.isSome ∧ a.walletDb.isSome

variable {w : WalletId} {s : AppState} {running : List WalletId}

theorem Open.unique {active : Option ActiveWallet} {w' : WalletId} (h : Open active w)
    (h' : Open active w') : w = w' := by
  obtain ⟨a, ha, rfl, -⟩ := h
  obtain ⟨a', ha', rfl, -⟩ := h'
  rw [Option.mem_unique ha ha']

theorem any_eq_true_iff_open (active : Option ActiveWallet) (w : WalletId) :
    (active.any fun a => a.wallet == w && a.lockStatus == .unlocked && a.dek.isSome &&
      a.walletDb.isSome) = true ↔ Open active w := by
  simp [Open, Option.any_eq_true, and_assoc]

abbrev Leaves {α : Type} (s₀ : World) (op : Op α) (R : Option ActiveWallet → Prop) : Prop :=
  ⦃fun s => ⌜s = s₀⌝⦄ op ⦃post⟨fun _ s => ⌜R s.activeWallet⌝, fun _ s => ⌜R s.activeWallet⌝⟩⦄

theorem Leaves.manager {α : Type} {op : Op α} {R : Option ActiveWallet → Prop}
    (h : Leaves s.world op R) : R (s.manager op).2.world.activeWallet :=
  exec_of_triple h rfl

theorem createWallet_leaves (env backupEnv accountEnv : Env) (w : WalletId) (words : List String)
    (secrets : Bool) (challengeId : ℕ) (indices : List ℕ) (s₀ : World) :
    Leaves s₀ (createWallet env backupEnv accountEnv w words secrets challengeId indices)
      fun active => active = if creates env backupEnv accountEnv w secrets s₀ then
        some ⟨w, .software, .unlocked, some ⟨w⟩, some ⟨w⟩⟩ else s₀.activeWallet := by
  mvcgen [createWallet, insertWallet, setBackupRequired, storeSecrets, upsertAccount,
    issueBackupChallenge, activate, scanQueuedBroadcasts, ipcErr, -scanQueuedBroadcasts_reads]
  all_goals grind [creates, Option.isNone_iff_eq_none]

theorem unlockWallet_leaves (env : Env) (w : WalletId) (password : Bool) (s₀ : World) :
    Leaves s₀ (unlockWallet env w password) fun active =>
      if unlocks env w password s₀ then
        ∃ walletType, active = some ⟨w, walletType, .unlocked, some ⟨w⟩, some ⟨w⟩⟩
      else active = s₀.activeWallet := by
  mvcgen [unlockWallet, activate, scanQueuedBroadcasts, ipcErr,
    -scanQueuedBroadcasts_reads]
  all_goals grind [unlocks, Option.isSome_iff_exists]

theorem loadWallet_leaves (env : Env) (w : WalletId) (s₀ : World) :
    Leaves s₀ (loadWallet env w) fun active =>
      active = s₀.activeWallet ∧ (loads env w s₀ = true → Open s₀.activeWallet w) ∨
        loads env w s₀ = true ∧ ¬ Open s₀.activeWallet w ∧
          ∃ walletType, active = some ⟨w, walletType, .locked, none, none⟩ := by
  mvcgen [loadWallet, scanQueuedBroadcasts, ipcErr, -scanQueuedBroadcasts_reads]
  all_goals grind [loads, Option.isSome_iff_exists, any_eq_true_iff_open]

theorem lockWallet_leaves (w : WalletId) (s₀ : World) :
    Leaves s₀ (lockWallet w) fun active =>
      ∀ w', w' ≠ w → Open s₀.activeWallet w' → Open active w' := by
  mvcgen [lockWallet]
  rename_i s hs _
  rintro w' hne ⟨a, ha, rfl, hopen⟩
  subst hs
  refine ⟨a, ?_, rfl, hopen⟩
  change Option.map _ s.activeWallet = some a
  rw [Option.mem_def.mp ha, Option.map_some, if_neg hne]

theorem logoutWallet_leaves (w : WalletId) (s₀ : World) :
    Leaves s₀ (logoutWallet w) fun active =>
      ∀ w', w' ≠ w → Open s₀.activeWallet w' → Open active w' := by
  mvcgen [logoutWallet, removeBackupChallenge, clearProposalsForWallet, ipcErr]
  all_goals grind [Open]

/-! ## Jobs -/

/-- Every wallet that syncs is active and unlocked. -/
def AppState.SyncsActive (s : AppState) : Prop :=
  ∀ w ∈ s.jobs, ∃ active ∈ s.world.activeWallet, active.wallet = w ∧ active.lockStatus = .unlocked

def AppState.SyncsOpen (s : AppState) : Prop := ∀ w ∈ s.jobs, Open s.world.activeWallet w

def AppState.SyncsOnly (s : AppState) (w : WalletId) : Prop := ∀ w' ∈ s.jobs, w' = w

theorem AppState.SyncsOpen.syncsActive (h : s.SyncsOpen) : s.SyncsActive := by
  intro w hw
  obtain ⟨active, hactive, hwallet, hstatus, -⟩ := h w hw
  exact ⟨active, hactive, hwallet, hstatus⟩

theorem mem_stopSync {w' : WalletId} : w' ∈ (s.stopSync w).jobs ↔ w' ∈ s.jobs ∧ w' ≠ w := by
  simp [AppState.stopSync]

theorem AppState.SyncsOpen.stopSync (h : s.SyncsOpen) (w : WalletId) :
    (s.stopSync w).SyncsOpen := fun w' hw' => h w' (mem_stopSync.mp hw').1

theorem AppState.SyncsOpen.manager (h : s.SyncsOpen) {α : Type} {op : Op α}
    (hop : ∀ w ∈ s.jobs, Open s.world.activeWallet w →
      Open (s.manager op).2.world.activeWallet w) : (s.manager op).2.SyncsOpen :=
  fun w hw => hop w hw (h w hw)

theorem open_of_ok {dek : Dek} {conn : Connection}
    (hdek : (s.manager (unlockedWalletDek w)).1 = .ok dek)
    (hconn : (s.manager (requireUnlockedWalletDb w)).1 = .ok conn) :
    Open s.world.activeWallet w := by
  obtain ⟨-, a, ha, hwallet, hstatus, hkey⟩ :=
    (run_of_triple (unlockedWalletDek_reads w s.world) rfl).1 dek hdek
  obtain ⟨-, a', ha', -, -, hdb⟩ :=
    (run_of_triple (requireUnlockedWalletDb_reads w s.world) rfl).1 conn hconn
  obtain rfl := Option.mem_unique ha ha'
  exact ⟨a, ha, hwallet, hstatus, by rw [hkey]; rfl, by rw [hdb]; rfl⟩

theorem startSyncWithHandlers_cases (env : StartEnv) (w : WalletId) (s : AppState) :
    (startSyncWithHandlers env w s).2 = s ∨
      (startSyncWithHandlers env w s).2 = { s with jobs := w :: s.jobs } ∧
        Open s.world.activeWallet w := by
  fun_cases startSyncWithHandlers env w s
  case case7 hconn hdek _ _ _ _ =>
    cases env.finished with
    | true => exact .inl rfl
    | false => exact .inr ⟨rfl, open_of_ok (congrArg Prod.fst hdek) (congrArg Prod.fst hconn)⟩
  all_goals exact .inl rfl

theorem syncsOpen_startSyncWithHandlers (env : StartEnv) (w : WalletId) (h : s.SyncsOpen) :
    (startSyncWithHandlers env w s).2.SyncsOpen := by
  rcases startSyncWithHandlers_cases env w s with heq | ⟨heq, hopen⟩
  · rwa [heq]
  · rw [heq]
    intro w' hw'
    rcases List.mem_cons.mp hw' with rfl | hw'
    · exact hopen
    · exact h w' hw'

theorem syncsOnly_startSyncWithHandlers (env : StartEnv) (w : WalletId) (h : s.SyncsOnly w) :
    (startSyncWithHandlers env w s).2.SyncsOnly w := by
  rcases startSyncWithHandlers_cases env w s with heq | ⟨heq, -⟩
  · rwa [heq]
  · rw [heq]
    intro w' hw'
    rcases List.mem_cons.mp hw' with rfl | hw'
    · rfl
    · exact h w' hw'

theorem syncsOpen_loadWallet (env : Env) (w : WalletId) (h : s.SyncsOpen)
    (honly : loads env w s.world = true → s.SyncsOnly w) :
    (s.manager (loadWallet env w)).2.SyncsOpen := by
  refine h.manager fun w' hw' hopen => ?_
  rcases (loadWallet_leaves env w s.world).manager with ⟨hsame, -⟩ | ⟨hloads, hnot, -⟩
  · rwa [hsame]
  · exact absurd (honly hloads w' hw' ▸ hopen) hnot

theorem syncsOpen_restartSync (env : CommandEnv) (w : WalletId) (h : s.SyncsOpen)
    (honly : loads env.manager w s.world = true → s.SyncsOnly w) :
    (restartSync env s w).SyncsOpen := by
  have hload := syncsOpen_loadWallet env.manager w h honly
  unfold restartSync
  split
  · rename_i heq
    rwa [heq] at hload
  · rename_i heq
    rw [heq] at hload
    split_ifs
    · exact syncsOpen_startSyncWithHandlers env.start w hload
    · exact hload

theorem syncsOnly_restartSync (env : CommandEnv) (w : WalletId) (honly : s.SyncsOnly w) :
    (restartSync env s w).SyncsOnly w := by
  have hload : (s.manager (loadWallet env.manager w)).2.SyncsOnly w := honly
  unfold restartSync
  split
  · rename_i heq
    rwa [heq] at hload
  · rename_i heq
    rw [heq] at hload
    split_ifs
    · exact syncsOnly_startSyncWithHandlers env.start w hload
    · exact hload

theorem restartSync_of_locked {env : CommandEnv}
    (h : (s.manager (loadWallet env.manager w)).2.isUnlocked = false) :
    restartSync env s w = (s.manager (loadWallet env.manager w)).2 := by
  unfold restartSync
  split
  · rename_i heq
    rw [heq]
  · rename_i heq
    rw [heq] at h ⊢
    exact if_neg (by simpa using h)

/-! ## What the commands leave -/

theorem zbagStartSync_eq (env : CommandEnv) (w : WalletId) (s : AppState) :
    (zbagStartSync env w s).2 = restartSync env s w := by
  unfold zbagStartSync restartSync
  split
  · rfl
  · split_ifs <;> rfl

theorem syncsOnly_stopPreviousWalletSync (w : WalletId) (h : s.SyncsOpen) :
    (stopPreviousWalletSync w s).SyncsOnly w := by
  intro w' hw'
  unfold stopPreviousWalletSync at hw'
  split at hw'
  · rename_i active hactive
    split_ifs at hw' with hne
    -- the wallet that was active has been stopped, and no other one synced
    · obtain ⟨hw', hother⟩ := mem_stopSync.mp hw'
      obtain ⟨a, ha, hwallet, -⟩ := h w' hw'
      rw [hactive, Option.mem_some_iff] at ha
      exact absurd (ha ▸ hwallet.symm) hother
    · obtain ⟨a, ha, hwallet, -⟩ := h w' hw'
      rw [hactive, Option.mem_some_iff] at ha
      rw [← hwallet, ← ha]
      exact not_not.mp hne
  · rename_i hnone
    obtain ⟨a, ha, -⟩ := h w' hw'
    rw [hnone] at ha
    cases ha

theorem syncsOpen_stopPreviousWalletSync (w : WalletId) (h : s.SyncsOpen) :
    (stopPreviousWalletSync w s).SyncsOpen := by
  unfold stopPreviousWalletSync
  split
  · split_ifs
    · exact h.stopSync _
    · exact h
  · exact h

theorem syncsOpen_zbagLoadWallet (env : CommandEnv) (w : WalletId) (h : s.SyncsOpen) :
    (zbagLoadWallet env w s).2.SyncsOpen := by
  have hload := syncsOpen_loadWallet env.manager w (syncsOpen_stopPreviousWalletSync w h)
    fun _ => syncsOnly_stopPreviousWalletSync w h
  unfold zbagLoadWallet
  split
  · rename_i heq
    rwa [heq] at hload
  · rename_i heq
    rw [heq] at hload
    split_ifs
    · exact hload
    · exact hload
    · exact syncsOpen_startSyncWithHandlers env.start w hload

theorem syncsOpen_of_stopped (h : s.SyncsOpen) (w : WalletId) {op : Op Unit}
    (hop : ∀ w', w' ≠ w → Open s.world.activeWallet w' →
      Open ((s.stopSync w).manager op).2.world.activeWallet w') :
    ((s.stopSync w).manager op).2.SyncsOpen :=
  (h.stopSync w).manager fun w' hw' hopen => hop w' (mem_stopSync.mp hw').2 hopen

theorem mem_foldl_stopSync :
    w ∈ (running.foldl AppState.stopSync s).jobs ↔ w ∈ s.jobs ∧ w ∉ running := by
  induction running generalizing s with
  | nil => simp
  | cons w' running ih =>
    rw [List.foldl_cons, ih, mem_stopSync, List.mem_cons, not_or, and_assoc]

theorem syncsOpen_foldl_restartSync (env : WalletId → CommandEnv) (w : WalletId)
    (hrunning : ∀ w' ∈ running, w' = w) (h : s.SyncsOpen) (honly : s.SyncsOnly w) :
    (running.foldl (fun s w => restartSync (env w) s w) s).SyncsOpen := by
  induction running generalizing s with
  | nil => exact h
  | cons w' running ih =>
    obtain rfl := hrunning w' List.mem_cons_self
    exact ih (fun w hw => hrunning w (List.mem_cons_of_mem _ hw))
      (syncsOpen_restartSync (env w') w' h fun _ => honly) (syncsOnly_restartSync (env w') w' honly)

theorem syncsOpen_zbagSetTorEnabled (env : WalletId → CommandEnv) (enabled torOk stored : Bool)
    (h : s.SyncsOpen) (hperm : running.Perm s.jobs) :
    (zbagSetTorEnabled env enabled torOk stored running s).2.SyncsOpen := by
  cases enabled with
  | false =>
    unfold zbagSetTorEnabled
    dsimp only
    rw [if_neg Bool.false_ne_true]
    split_ifs <;> exact h
  | true =>
    have hnone (w : WalletId) : w ∉ (running.foldl AppState.stopSync s).jobs := by
      rw [mem_foldl_stopSync, hperm.mem_iff]
      exact fun h => h.2 h.1
    have hstopped : (running.foldl AppState.stopSync s).SyncsOpen :=
      fun w hw => absurd hw (hnone w)
    unfold zbagSetTorEnabled
    dsimp only
    rw [if_pos rfl]
    split_ifs
    · exact hstopped
    · exact hstopped
    · cases running with
      | nil => exact hstopped
      | cons w running =>
        refine syncsOpen_foldl_restartSync env w (fun w' hw' => ?_) hstopped
          fun w' hw' => absurd hw' (hnone w')
        exact (h w' (hperm.subset hw')).unique (h w (hperm.subset List.mem_cons_self))

/-! ## Switching the wallet -/

def Command.activates (s : World) : Command → Option WalletId
  | .createWallet request env backupEnv accountEnv w _ secrets _ _ =>
    if request.isOk && creates env backupEnv accountEnv w secrets s then some w else none
  | .unlockWallet env w password => if unlocks env w password s then some w else none
  | .startSync env w => if loads env.manager w s then some w else none
  | _ => none

def Unswitched (s : AppState) (c : Command) : Prop := ∀ w ∈ c.activates s.world, s.SyncsOnly w

instance (s : AppState) (c : Command) : Decidable (Unswitched s c) :=
  inferInstanceAs (Decidable (∀ w ∈ c.activates s.world, ∀ w' ∈ s.jobs, w' = w))

theorem open_activated (w : WalletId) (walletType : WalletType) :
    Open (some ⟨w, walletType, .unlocked, some ⟨w⟩, some ⟨w⟩⟩) w :=
  ⟨_, rfl, rfl, rfl, rfl, rfl⟩

theorem AppState.SyncsOpen.step {t : AppState} {c : Command} (h : s.SyncsOpen)
    (hguard : Unswitched s c) (hstep : s.step c = some t) : t.SyncsOpen := by
  cases c with
  | createWallet request env backupEnv accountEnv w words secrets challengeId indices =>
    cases hstep
    cases request with
    | error e => exact h
    | ok =>
      have hleaves := (createWallet_leaves env backupEnv accountEnv w words secrets challengeId
        indices s.world).manager
      refine h.manager fun w' hw' hopen => ?_
      rw [hleaves]
      split_ifs with hcreates
      · obtain rfl := hguard w (by simp [Command.activates, Except.isOk, Except.toBool, hcreates])
          w' hw'
        exact open_activated w' _
      · exact hopen
  | loadWallet env w =>
    cases hstep
    exact syncsOpen_zbagLoadWallet env w h
  | unlockWallet env w password =>
    cases hstep
    have hleaves := (unlockWallet_leaves env w password s.world).manager
    refine h.manager fun w' hw' hopen => ?_
    split_ifs at hleaves with hunlocks
    · obtain ⟨walletType, hactive⟩ := hleaves
      obtain rfl := hguard w (by simp [Command.activates, hunlocks]) w' hw'
      rw [hactive]
      exact open_activated w' _
    · rwa [hleaves]
  | lockWallet w =>
    cases hstep
    exact syncsOpen_of_stopped h w (lockWallet_leaves w s.world).manager
  | logoutWallet w =>
    cases hstep
    exact syncsOpen_of_stopped h w (logoutWallet_leaves w s.world).manager
  | startSync env w =>
    cases hstep
    rw [zbagStartSync_eq]
    refine syncsOpen_restartSync env w h fun hloads => hguard w ?_
    simp [Command.activates, hloads]
  | stopSync w =>
    cases hstep
    exact h.stopSync w
  | setTorEnabled env enabled torOk stored running =>
    obtain ⟨hperm, hstep⟩ := Option.ite_none_right_eq_some.mp hstep
    cases hstep
    exact syncsOpen_zbagSetTorEnabled env enabled torOk stored h (List.isPerm_iff.mp hperm)
  | jobEnds w =>
    cases hstep
    exact h.stopSync w

theorem unswitched_of_syncsActive {t : AppState} {c : Command} (h : s.SyncsOpen)
    (hstep : s.step c = some t) (hactive : t.SyncsActive) : Unswitched s c := by
  intro w hw w' hw'
  cases c with
  | createWallet request env backupEnv accountEnv _ words secrets challengeId indices =>
    cases hstep
    obtain ⟨hok, hw⟩ := Option.ite_none_right_eq_some.mp hw
    obtain ⟨hrequest, hcreates⟩ := Bool.and_eq_true_iff.mp hok
    cases hw
    cases request with
    | error e => cases hrequest
    | ok =>
      have hleaves := (createWallet_leaves env backupEnv accountEnv w words secrets challengeId
        indices s.world).manager
      obtain ⟨active, hmem, hwallet, -⟩ := hactive w' hw'
      rw [zbagCreateWallet, hleaves, if_pos hcreates, Option.mem_some_iff] at hmem
      rw [← hwallet, ← hmem]
  | unlockWallet env _ password =>
    cases hstep
    obtain ⟨hunlocks, hw⟩ := Option.ite_none_right_eq_some.mp hw
    cases hw
    have hleaves := (unlockWallet_leaves env w password s.world).manager
    rw [if_pos hunlocks] at hleaves
    obtain ⟨walletType, hleaves⟩ := hleaves
    obtain ⟨active, hmem, hwallet, -⟩ := hactive w' hw'
    rw [zbagUnlockWallet, hleaves, Option.mem_some_iff] at hmem
    rw [← hwallet, ← hmem]
  | startSync env _ =>
    cases hstep
    obtain ⟨hloads, hw⟩ := Option.ite_none_right_eq_some.mp hw
    cases hw
    rcases (loadWallet_leaves env.manager w s.world).manager with
      ⟨-, hopen⟩ | ⟨-, -, walletType, hlocked⟩
    · exact (h w' hw').unique (hopen hloads)
    -- the wallet is locked now, so nothing is started, and `w'` still syncs
    · have hstart := zbagStartSync_eq env w s
      rw [restartSync_of_locked (by simp [AppState.isUnlocked, hlocked])] at hstart
      rw [hstart] at hactive
      obtain ⟨active, hmem, -, hunlocked⟩ := hactive w' hw'
      rw [hlocked, Option.mem_some_iff] at hmem
      rw [← hmem] at hunlocked
      cases hunlocked
  | loadWallet | lockWallet | logoutWallet | stopSync | setTorEnabled | jobEnds => cases hw

/-- **Only the active, unlocked wallet syncs**, after each command, exactly if no command switches
wallets while one syncs. -/
theorem syncsActive_iff (world : World) (commands : List Command) {s : AppState}
    (h : exec appSystem (.start world) commands = some s) :
    AfterEach appSystem AppState.SyncsActive (.start world) commands ↔
      Along appSystem Unswitched (.start world) commands := by
  refine afterEach_iff_along (I := AppState.SyncsOpen) (fun _ _ _ hs hg hstep => hs.step hg hstep)
    (fun _ hs => hs.syncsActive) (fun _ _ _ hs hstep hP => unswitched_of_syncsActive hs hstep hP)
    ?_ h
  intro w hw
  cases hw

def Command.create (w : WalletId) : Command :=
  .createWallet (.ok ()) .works .works .works w [] true 0 []

def Command.sync (w : WalletId) : Command := .startSync ⟨.works, ⟨true, false, true, false⟩⟩ w

theorem syncsActive_loadWallet :
    AfterEach appSystem AppState.SyncsActive (.start World.fresh)
      [.create 1, .sync 1, .stopSync 1, .create 2, .sync 2,
        .loadWallet ⟨.works, ⟨true, false, true, false⟩⟩ 1, .unlockWallet .works 1 true,
        .sync 1] :=
  (syncsActive_iff World.fresh
    [.create 1, .sync 1, .stopSync 1, .create 2, .sync 2,
      .loadWallet ⟨.works, ⟨true, false, true, false⟩⟩ 1, .unlockWallet .works 1 true,
      .sync 1] rfl).mpr (by decide)

theorem not_syncsActive {active : ActiveWallet} (hw : w ∈ s.jobs)
    (hactive : s.world.activeWallet = some active) (hne : active.wallet ≠ w) : ¬ s.SyncsActive := by
  intro h
  obtain ⟨a, ha, hwallet, -⟩ := h w hw
  rw [hactive, Option.mem_some_iff] at ha
  exact hne (ha ▸ hwallet)

/-- Wallet 1 still syncs after wallet 2 is created, unlocked, and refused a sync. -/
theorem switch_leaves_job :
    (∃ s, exec appSystem (.start World.fresh) [.create 1, .sync 1, .create 2] = some s ∧
      1 ∈ s.jobs ∧ ¬ s.SyncsActive) ∧
    (∃ s, exec appSystem (.start World.fresh)
        [.create 2, .create 1, .sync 1, .unlockWallet .works 2 true] = some s ∧
      1 ∈ s.jobs ∧ ¬ s.SyncsActive) ∧
    ∃ s, exec appSystem (.start World.fresh) [.create 2, .create 1, .sync 1, .sync 2] = some s ∧
      1 ∈ s.jobs ∧ ¬ s.SyncsActive := by
  have hjob : (1 : WalletId) ∈ [1] := List.mem_singleton_self 1
  refine ⟨⟨_, rfl, hjob, ?_⟩, ⟨_, rfl, hjob, ?_⟩, _, rfl, hjob, ?_⟩
  · exact not_syncsActive hjob rfl (by decide)
  · exact not_syncsActive hjob rfl (by decide)
  · exact not_syncsActive hjob rfl (by decide)

end ZbagApp
