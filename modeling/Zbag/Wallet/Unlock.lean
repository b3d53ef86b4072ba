import Mathlib.Data.FinEnum
import Mathlib.Logic.Equiv.List
import Zbag.Crypto.Unwrap
import Zbag.Tx.Queue
import Zbag.Wallet.Manager

/-!
# Wallet — unlocking

`unlock_wallet` step by step, with every step that can fail: the two reads of the app database, the
key, the wallet database, the write of the remember flag, and the scan of the queue. The scan comes
after the wallet has been made the active one.
-/

namespace ZbagUnlock

open Operation
open ZbagCrypto (Uuid Key Network WalletKdfParams WalletAeadParams Primitives Entry unwrapDek)
open ZbagTx (Time)
open ZbagQueue (QueueDir QueuedBroadcasts)
open ZbagWallet (IpcError ErrorCode WalletType WalletLockStatus)

/-! ## Data -/

structure WalletInfo where
  id : Uuid
  name : String
  walletType : WalletType
  network : Network
  deriving DecidableEq

/-- A row of `wallets`. -/
structure WalletRow where
  name : String
  walletType : WalletType
  network : Network
  directoryPath : String
  rememberUnlockEnabled : Bool
  deriving DecidableEq

/-- One without a nonce counts as missing. -/
structure WalletEncryptionMeta where
  kdf : WalletKdfParams
  aead : WalletAeadParams
  wrappedDekB64 : String

/-- By the database file that it is on. -/
structure Connection where
  path : String
  deriving DecidableEq

structure ActiveWallet where
  wallet : WalletInfo
  walletDir : String
  lockStatus : WalletLockStatus
  dek : Option Key
  walletDb : Option Connection
  deriving DecidableEq

/-- What the call reads and writes. -/
structure Manager where
  walletsRoot : String
  wallets : Uuid → Option WalletRow
  encryption : Uuid → Option WalletEncryptionMeta
  unlockMaterial : Uuid → Network → Bool
  queueDirs : String → Option QueueDir
  activeWallet : Option ActiveWallet
  queuedBroadcasts : Uuid → Option QueuedBroadcasts

/-- The errors that the steps of a call meet. -/
structure UnlockEnv where
  getWallet : Option String
  getWalletEncryption : Option String
  openWalletDb : Option String
  setRememberUnlockEnabled : Option String
  deleteUnlockMaterial : Option String
  /-- before the epoch is an error -/
  now : Except String Time
  readDir : Option String

abbrev Op := ExceptT IpcError (StateM Manager)

/-! ## The call -/

def networkDirName : Network → String
  | .mainnet => "mainnet"
  | .testnet => "testnet"

def walletDir (root : String) (w : Uuid) (network : Network) : String :=
  root ++ "/" ++ networkDirName network ++ "/" ++ ZbagCrypto.uuidText w

def walletDbPath (dir : String) : String := dir ++ "/wallet.sqlite"

def ipcErr {α : Type} (code : ErrorCode) (message : String) : Op α := throw ⟨code, message⟩

/-- An error not meant for the user. -/
def check : Option String → Op Unit
  | none => pure ()
  | some error => ipcErr .internalError error

def getWallet (env : UnlockEnv) (w : Uuid) : Op (Option WalletRow) := do
  check env.getWallet
  return (← get).wallets w

def getWalletEncryption (env : UnlockEnv) (w : Uuid) : Op (Option WalletEncryptionMeta) := do
  check env.getWalletEncryption
  return (← get).encryption w

/-- Every error of it becomes the same one. -/
def unwrapWalletDek (p : Primitives) (log : List Entry) (w : Uuid) (row : WalletRow)
    (password : String) (enc : WalletEncryptionMeta) : Op Key :=
  match unwrapDek p log w row.network password enc.kdf enc.aead enc.wrappedDekB64 with
  | .ok dek => pure dek
  | .error _ => ipcErr .invalidWalletPassword "invalid wallet password"

/-- The manager keeps the connection. -/
def openWalletDbWithDek (env : UnlockEnv) (dir : String) : Op Connection := do
  check env.openWalletDb
  return ⟨walletDbPath dir⟩

def setRememberUnlockEnabled (env : UnlockEnv) (w : Uuid) (enabled : Bool) : Op Unit := do
  check env.setRememberUnlockEnabled
  modify fun s =>
    { s with
      wallets := Function.update s.wallets w
        ((s.wallets w).map fun row => { row with rememberUnlockEnabled := enabled }) }

/-- An error is only logged. -/
def deleteKeychainUnlockMaterial (env : UnlockEnv) (w : Uuid) (network : Network) : Op Unit :=
  modify fun s =>
    if env.deleteUnlockMaterial.isSome then s
    else
      { s with
        unlockMaterial :=
          Function.update s.unlockMaterial w (Function.update (s.unlockMaterial w) network false) }

def scanQueuedBroadcasts (env : UnlockEnv) (w : Uuid) (dir : String) : Op Unit := do
  match (← get).queueDirs dir with
  | none => modify fun s => { s with queuedBroadcasts := Function.update s.queuedBroadcasts w none }
  | some d =>
    match env.now, env.readDir with
    | .ok now, none =>
      let found := ZbagQueue.scanQueuedBroadcasts now d
      modify fun s =>
        { s with
          queueDirs := Function.update s.queueDirs dir (some found.1)
          queuedBroadcasts := Function.update s.queuedBroadcasts w (some found.2) }
    | _, _ => ipcErr .internalError "failed to scan queued broadcasts"

def unlocked (w : Uuid) (row : WalletRow) (dek : Key) : ActiveWallet where
  wallet := ⟨w, row.name, row.walletType, row.network⟩
  walletDir := row.directoryPath
  lockStatus := .unlocked
  dek := some dek
  walletDb := some ⟨walletDbPath row.directoryPath⟩

variable (p : Primitives) (log : List Entry) (env : UnlockEnv) (w : Uuid) (password : String)

/-- What was sealed with the cipher is in `log`. -/
def unlockWallet : Op WalletLockStatus := do
  let some row ← getWallet env w | ipcErr .walletNotFound "wallet not found"
  if row.directoryPath ≠ walletDir (← get).walletsRoot w row.network then
    ipcErr .invalidRequest "wallet directory does not match network"
  let some enc ← getWalletEncryption env w
    | ipcErr .internalError "wallet encryption metadata not found"
  let dek ← unwrapWalletDek p log w row password enc
  let _ ← openWalletDbWithDek env row.directoryPath
  setRememberUnlockEnabled env w false
  deleteKeychainUnlockMaterial env w row.network
  modify fun s => { s with activeWallet := some (unlocked w row dek) }
  scanQueuedBroadcasts env w row.directoryPath
  return .unlocked

/-! ## What it returns and leaves -/

structure Passes (s : Manager) (row : WalletRow) (enc : WalletEncryptionMeta) (dek : Key) :
    Prop where
  getWallet : env.getWallet = none
  stored : s.wallets w = some row
  directory : row.directoryPath = walletDir s.walletsRoot w row.network
  getWalletEncryption : env.getWalletEncryption = none
  encryption : s.encryption w = some enc
  unwrapped : unwrapDek p log w row.network password enc.kdf enc.aead enc.wrappedDekB64 = .ok dek
  opened : env.openWalletDb = none
  remembered : env.setRememberUnlockEnabled = none

def scanFails (s : Manager) (dir : String) : Bool :=
  (s.queueDirs dir).isSome && (!env.now.isOk || env.readDir.isSome)

def activated (s : Manager) (row : WalletRow) (dek : Key) : Manager :=
  let wallets := Function.update s.wallets w (some { row with rememberUnlockEnabled := false })
  let material := Function.update s.unlockMaterial w
    (Function.update (s.unlockMaterial w) row.network false)
  { s with
    wallets := wallets
    unlockMaterial := if env.deleteUnlockMaterial.isSome then s.unlockMaterial else material
    activeWallet := some (unlocked w row dek) }

variable {p log env w password} {s : Manager}

def checked {α : Type} (error : Option String) (a : α) : Except IpcError α :=
  error.elim (.ok a) fun e => .error ⟨.internalError, e⟩

theorem checked_eq_ok {α : Type} {error : Option String} {a b : α} :
    checked error a = .ok b ↔ error = none ∧ a = b := by
  cases error <;> simp [checked]

theorem outcome_getWallet :
    outcome (getWallet env w) s = (checked env.getWallet (s.wallets w), s) := by
  rw [getWallet]
  cases env.getWallet <;> rfl

theorem outcome_getWalletEncryption :
    outcome (getWalletEncryption env w) s =
      (checked env.getWalletEncryption (s.encryption w), s) := by
  rw [getWalletEncryption]
  cases env.getWalletEncryption <;> rfl

theorem outcome_unwrapWalletDek (row : WalletRow) (enc : WalletEncryptionMeta) :
    outcome (unwrapWalletDek p log w row password enc) s =
      ((unwrapDek p log w row.network password enc.kdf enc.aead enc.wrappedDekB64).mapError
        fun _ => ⟨.invalidWalletPassword, "invalid wallet password"⟩, s) := by
  rw [unwrapWalletDek]
  cases unwrapDek p log w row.network password enc.kdf enc.aead enc.wrappedDekB64 <;> rfl

theorem outcome_openWalletDbWithDek (dir : String) :
    outcome (openWalletDbWithDek env dir) s =
      (checked env.openWalletDb ⟨walletDbPath dir⟩, s) := by
  rw [openWalletDbWithDek]
  cases env.openWalletDb <;> rfl

theorem outcome_of_passes {row : WalletRow} {enc : WalletEncryptionMeta} {dek : Key}
    (h : Passes p log env w password s row enc dek) :
    outcome (unlockWallet p log env w password) s =
      outcome (do scanQueuedBroadcasts env w row.directoryPath; return .unlocked)
        (activated env w s row dek) := by
  have hread : outcome (getWallet env w) s = (.ok (some row), s) := by
    rw [outcome_getWallet, checked_eq_ok.mpr ⟨h.getWallet, h.stored⟩]
  have henc : outcome (getWalletEncryption env w) s = (.ok (some enc), s) := by
    rw [outcome_getWalletEncryption, checked_eq_ok.mpr ⟨h.getWalletEncryption, h.encryption⟩]
  have hdek : outcome (unwrapWalletDek p log w row password enc) s = (.ok dek, s) := by
    rw [outcome_unwrapWalletDek, h.unwrapped]
    rfl
  have hopen : outcome (openWalletDbWithDek env row.directoryPath) s =
      (.ok ⟨walletDbPath row.directoryPath⟩, s) := by
    rw [outcome_openWalletDbWithDek, checked_eq_ok.mpr ⟨h.opened, rfl⟩]
  let wallets := Function.update s.wallets w (some { row with rememberUnlockEnabled := false })
  have hflag : outcome (setRememberUnlockEnabled env w false) s =
      (.ok (), { s with wallets := wallets }) := by
    rw [setRememberUnlockEnabled, h.remembered]
    show (Except.ok (), { s with wallets := Function.update s.wallets w ((s.wallets w).map _) }) = _
    rw [h.stored]
    rfl
  unfold unlockWallet
  rw [outcome_bind_ok hread]
  dsimp only
  rw [outcome_get_bind, if_neg (not_not.mpr h.directory), outcome_bind_ok henc]
  dsimp only
  rw [outcome_bind_ok hdek, outcome_bind_ok hopen, outcome_bind_ok hflag,
    deleteKeychainUnlockMaterial, outcome_modify_bind, outcome_modify_bind]
  congr 1
  unfold activated
  split_ifs <;> rfl

theorem fails_of_not_passes (h : ∀ row enc dek, ¬ Passes p log env w password s row enc dek) :
    Fails (· = s) (unlockWallet p log env w password) s := by
  unfold unlockWallet
  refine .of_read outcome_getWallet rfl fun row? hread => ?_
  obtain ⟨hget, hstored⟩ := checked_eq_ok.mp hread
  cases row? with
  | none => exact ⟨_, s, rfl, rfl⟩
  | some row =>
    refine .of_read (r := .ok s) rfl rfl fun s' hs' => ?_
    obtain rfl := Except.ok.inj hs'
    by_cases hdir : row.directoryPath = walletDir s.walletsRoot w row.network
    · dsimp only
      rw [if_neg (not_not.mpr hdir)]
      refine .of_read outcome_getWalletEncryption rfl fun enc? henc => ?_
      obtain ⟨hgetEnc, henc⟩ := checked_eq_ok.mp henc
      cases enc? with
      | none => exact ⟨_, s, rfl, rfl⟩
      | some enc =>
        refine .of_read (outcome_unwrapWalletDek row enc) rfl fun dek hdek => ?_
        refine .of_read (outcome_openWalletDbWithDek _) rfl fun conn hopen => ?_
        obtain ⟨hopen, -⟩ := checked_eq_ok.mp hopen
        -- only the write of the flag is left to fail
        cases hflag : env.setRememberUnlockEnabled with
        | none =>
          exact absurd ⟨hget, hstored, hdir, hgetEnc, henc, mapError_eq_ok hdek, hopen, hflag⟩
            (h row enc dek)
        | some e =>
          refine ⟨⟨.internalError, e⟩, s, outcome_bind_error ?_ _, rfl⟩
          rw [setRememberUnlockEnabled, hflag]
          rfl
    · dsimp only
      rw [if_pos hdir]
      exact ⟨_, s, rfl, rfl⟩

theorem outcome_scan (dir : String) : ∃ r t,
    outcome (do scanQueuedBroadcasts env w dir; return WalletLockStatus.unlocked) s = (r, t) ∧
      t.activeWallet = s.activeWallet ∧ t.wallets = s.wallets ∧
      (r = .ok .unlocked ∧ scanFails env s dir = false ∨
        (∃ e, r = .error e) ∧ scanFails env s dir = true) := by
  unfold scanQueuedBroadcasts scanFails
  rw [bind_assoc, outcome_get_bind]
  cases s.queueDirs dir with
  | none => exact ⟨_, _, rfl, rfl, rfl, .inl ⟨rfl, rfl⟩⟩
  | some d =>
    cases env.now with
    | error e => exact ⟨_, _, rfl, rfl, rfl, .inr ⟨⟨_, rfl⟩, rfl⟩⟩
    | ok now =>
      cases env.readDir with
      | none => exact ⟨_, _, rfl, rfl, rfl, .inl ⟨rfl, rfl⟩⟩
      | some e => exact ⟨_, _, rfl, rfl, rfl, .inr ⟨⟨_, rfl⟩, rfl⟩⟩

/-- **What the call returns and leaves** once the wallet has become the active one. -/
theorem outcome_unlock {row : WalletRow} {enc : WalletEncryptionMeta} {dek : Key}
    (h : Passes p log env w password s row enc dek) : ∃ r t,
    outcome (unlockWallet p log env w password) s = (r, t) ∧
      t.activeWallet = some (unlocked w row dek) ∧
      t.wallets = Function.update s.wallets w (some { row with rememberUnlockEnabled := false }) ∧
      (r = .ok .unlocked ∧ scanFails env s row.directoryPath = false ∨
        (∃ e, r = .error e) ∧ scanFails env s row.directoryPath = true) := by
  rw [outcome_of_passes h]
  exact outcome_scan (s := activated env w s row dek) row.directoryPath

/-! ## The call without its key and its files -/

section Refinement

variable (code : Uuid → ZbagWallet.WalletId) (base : ZbagWallet.World)

def ActiveWallet.abstract (a : ActiveWallet) : ZbagWallet.ActiveWallet where
  wallet := code a.wallet.id
  walletType := a.wallet.walletType
  lockStatus := a.lockStatus
  dek := a.dek.map fun _ => ⟨code a.wallet.id⟩
  walletDb := a.walletDb.map fun _ => ⟨code a.wallet.id⟩

/-- Of the wallets it has the types. -/
noncomputable def Manager.world (s : Manager) : ZbagWallet.World :=
  let types := Function.extend code (fun w => (s.wallets w).map (·.walletType)) fun _ => none
  { base with
    appDb := { base.appDb with wallets := types }
    activeWallet := s.activeWallet.map (ActiveWallet.abstract code) }

variable (p log env w password s) in
def unwraps : Bool :=
  match s.wallets w, s.encryption w with
  | some row, some enc =>
    (unwrapDek p log w row.network password enc.kdf enc.aead enc.wrappedDekB64).isOk
  | _, _ => false

variable (env w s) in
def UnlockEnv.abstract : ZbagWallet.Env :=
  { ZbagWallet.Env.works with
    walletDir := (s.wallets w).any fun row =>
      row.directoryPath = walletDir s.walletsRoot w row.network
    preflight := env.getWallet.isNone && env.getWalletEncryption.isNone && env.openWalletDb.isNone
    appDb := env.setRememberUnlockEnabled.isNone
    scan := !(s.wallets w).any fun row => scanFails env s row.directoryPath }

theorem outcome_spec {env' : ZbagWallet.Env} {v : ZbagWallet.WalletId} {u : ZbagWallet.World}
    {walletType : WalletType} (hwallet : u.appDb.wallets v = some walletType)
    (hdir : env'.walletDir = true) (hopen : env'.preflight = true) (hdb : env'.appDb = true) :
    outcome (ZbagWallet.unlockWallet env' v true) u =
      (if env'.scan then .ok () else .error ⟨.internalError, "failed to scan queued broadcasts"⟩,
        { u with activeWallet := some ⟨v, walletType, .unlocked, some ⟨v⟩, some ⟨v⟩⟩ }) := by
  unfold ZbagWallet.unlockWallet
  rw [outcome_get_bind, hwallet]
  dsimp only
  rw [hdir, hopen, hdb]
  show outcome (do ZbagWallet.activate v walletType; ZbagWallet.scanQueuedBroadcasts env') u = _
  rw [ZbagWallet.activate, outcome_modify_bind, ZbagWallet.scanQueuedBroadcasts]
  cases env'.scan <;> rfl

theorem fails_spec {env' : ZbagWallet.Env} {v : ZbagWallet.WalletId} {ok : Bool}
    {u : ZbagWallet.World}
    (h : ¬ ((u.appDb.wallets v).isSome ∧ env'.walletDir ∧ ok ∧ env'.preflight ∧ env'.appDb)) :
    Fails (· = u) (ZbagWallet.unlockWallet env' v ok) u := by
  unfold ZbagWallet.unlockWallet
  refine .of_read (r := .ok u) rfl rfl fun u' hu' => ?_
  obtain rfl := Except.ok.inj hu'
  cases hwallet : u.appDb.wallets v with
  | none => exact ⟨_, u, rfl, rfl⟩
  | some walletType =>
    cases hdir : env'.walletDir with
    | false => exact ⟨_, u, rfl, rfl⟩
    | true =>
      cases ok with
      | false => exact ⟨_, u, rfl, rfl⟩
      | true =>
        cases hopen : env'.preflight with
        | false => exact ⟨_, u, rfl, rfl⟩
        | true =>
          cases hdb : env'.appDb with
          | false => exact ⟨_, u, rfl, rfl⟩
          | true => simp [hwallet, hdir, hopen, hdb] at h

variable {code} in
theorem wallets_world (hcode : Function.Injective code) (w : Uuid) :
    (s.world code base).appDb.wallets (code w) = (s.wallets w).map (·.walletType) :=
  hcode.extend_apply (fun w => (s.wallets w).map WalletRow.walletType) (fun _ => none) w

theorem world_congr {t : Manager} {row : WalletRow} {active : ActiveWallet} {flag : Bool}
    (hstored : s.wallets w = some row)
    (hwallets : t.wallets = Function.update s.wallets w
      (some { row with rememberUnlockEnabled := flag }))
    (hactive : t.activeWallet = some active) :
    t.world code base =
      { s.world code base with activeWallet := some (active.abstract code) } := by
  have htypes : (fun w' => (t.wallets w').map (·.walletType)) =
      fun w' => (s.wallets w').map (·.walletType) := by
    funext w'
    rw [hwallets]
    by_cases hw : w' = w
    · subst hw
      rw [Function.update_self, hstored]
      rfl
    · rw [Function.update_of_ne hw]
  simp only [Manager.world, htypes, hactive, Option.map_some]

theorem passes_iff (hcode : Function.Injective code) :
    (((s.world code base).appDb.wallets (code w)).isSome ∧
      (env.abstract w s).walletDir ∧ unwraps p log w password s ∧ (env.abstract w s).preflight ∧
      (env.abstract w s).appDb) ↔ ∃ row enc dek, Passes p log env w password s row enc dek := by
  rw [wallets_world base hcode]
  simp only [UnlockEnv.abstract, unwraps, Bool.and_eq_true, Option.isNone_iff_eq_none]
  constructor
  · rintro ⟨hrow, hdir, hdek, ⟨⟨hget, hgetEnc⟩, hopen⟩, hflag⟩
    cases hstored : s.wallets w with
    | none => simp [hstored] at hrow
    | some row =>
      cases henc : s.encryption w with
      | none => simp [hstored, henc] at hdek
      | some enc =>
        simp only [hstored, henc] at hdek hdir
        cases hunwrap : unwrapDek p log w row.network password enc.kdf enc.aead
            enc.wrappedDekB64 with
        | error e =>
          rw [hunwrap] at hdek
          cases hdek
        | ok dek =>
          refine ⟨row, enc, dek, hget, hstored, by simpa using hdir, hgetEnc, henc, hunwrap, hopen,
            hflag⟩
  · rintro ⟨row, enc, dek, h⟩
    simp only [h.stored, h.encryption, h.unwrapped]
    refine ⟨rfl, ?_, rfl, ⟨⟨h.getWallet, h.getWalletEncryption⟩, h.opened⟩, h.remembered⟩
    simp [← h.directory]

/-- **The call refines the operation of the wallet manager.** -/
theorem unlockWallet_refines (hcode : Function.Injective code) :
    Refines (Manager.world code base)
      (do let _ ← unlockWallet p log env w password; return ())
      (ZbagWallet.unlockWallet (env.abstract w s) (code w) (unwraps p log w password s)) s := by
  by_cases h : ∃ row enc dek, Passes p log env w password s row enc dek
  · obtain ⟨hwallet, hdir, hdek, hopen, hdb⟩ := (passes_iff code base hcode).mpr h
    obtain ⟨row, enc, dek, h⟩ := h
    obtain ⟨r, t, hout, hactive, hwallets, hr⟩ := outcome_unlock h
    have htype : (s.world code base).appDb.wallets (code w) = some row.walletType := by
      rw [wallets_world base hcode, h.stored]
      rfl
    have hspec := outcome_spec htype hdir hopen hdb
    have hstate := world_congr code base h.stored hwallets hactive
    have hscan : (env.abstract w s).scan = !scanFails env s row.directoryPath := by
      simp [UnlockEnv.abstract, h.stored]
    rw [hscan] at hspec
    rw [hdek]
    obtain ⟨rfl, hok⟩ | ⟨⟨e, rfl⟩, hfails⟩ := hr
    · rw [hok] at hspec
      refine .of_ok (outcome_bind_ok hout _) ?_
      rw [hspec, hstate]
      rfl
    · rw [hfails] at hspec
      refine .of_error (outcome_bind_error hout _) (hspec.trans (Prod.ext rfl ?_))
      rw [hstate]
      rfl
  · obtain ⟨e, t, hout, rfl⟩ := fails_of_not_passes fun row enc dek hp => h ⟨row, enc, dek, hp⟩
    obtain ⟨e', u, hspec, rfl⟩ := fails_spec (mt (passes_iff code base hcode).mp h)
    exact .of_error (outcome_bind_error hout _) hspec

end Refinement

/-! ## The active wallet after a failed call -/

/-- Its id, the lock, the key and the open database. -/
def ActiveWallet.view (a : ActiveWallet) :
    Uuid × WalletLockStatus × Option Key × Option Connection :=
  (a.wallet.id, a.lockStatus, a.dek, a.walletDb)

/-- **A failed call leaves the active wallet as it was** exactly if its queue can be scanned, or the
wallet was already unlocked with this key and database. -/
theorem unlock_keeps_active_iff (p : Primitives) (log : List Entry) (env : UnlockEnv) (w : Uuid)
    (password : String) (s : Manager) :
    (∀ e t, outcome (unlockWallet p log env w password) s = (.error e, t) →
      t.activeWallet.map ActiveWallet.view = s.activeWallet.map ActiveWallet.view) ↔
    ∀ row enc dek, Passes p log env w password s row enc dek →
      scanFails env s row.directoryPath = true →
      s.activeWallet.map ActiveWallet.view =
        some (w, .unlocked, some dek, some ⟨walletDbPath row.directoryPath⟩) := by
  constructor
  · intro h row enc dek hp hscan
    obtain ⟨r, t, hout, hactive, -, ⟨-, hok⟩ | ⟨⟨e, rfl⟩, -⟩⟩ := outcome_unlock hp
    · rw [hscan] at hok
      cases hok
    · rw [← h e t hout, hactive]
      rfl
  · intro h e t hout
    by_cases hp : ∃ row enc dek, Passes p log env w password s row enc dek
    · obtain ⟨row, enc, dek, hp⟩ := hp
      obtain ⟨r, t', hout', hactive, -, ⟨rfl, -⟩ | ⟨⟨e', rfl⟩, hscan⟩⟩ := outcome_unlock hp
      · cases hout.symm.trans hout'
      · cases hout.symm.trans hout'
        rw [h row enc dek hp hscan, hactive]
        rfl
    · obtain ⟨e', t', hout', rfl⟩ :=
        fails_of_not_passes fun row enc dek hr => hp ⟨row, enc, dek, hr⟩
      cases hout.symm.trans hout'
      rfl

def unreadableQueue : UnlockEnv := ⟨none, none, none, none, none, .ok 0, some "permission denied"⟩

def storedWallet : WalletRow :=
  ⟨"wallet", .software, .mainnet, walletDir "/wallets" (Vector.replicate 16 2) .mainnet, false⟩

/-- Its key is wrapped with the password `password`. -/
def lockedWallet : Manager where
  walletsRoot := "/wallets"
  wallets w := if w = Vector.replicate 16 2 then some storedWallet else none
  encryption w :=
    if w = Vector.replicate 16 2 then
      some ⟨ZbagCrypto.testKdf, ZbagCrypto.testAead,
        .ofList (Encoding.encode (List.replicate 48 4))⟩
    else none
  unlockMaterial _ _ := false
  queueDirs dir := if dir = storedWallet.directoryPath then some .empty else none
  activeWallet := none
  queuedBroadcasts _ := none

def wrappedKey : Entry :=
  ⟨Vector.replicate 32 8, Vector.replicate 24 1,
    ZbagCrypto.aeadAad (Vector.replicate 16 2) .mainnet ZbagCrypto.testAead, List.replicate 32 3,
    List.replicate 48 4⟩

theorem unlockWallet_refines_locked : ∃ code, Function.Injective code ∧
    Refines (Manager.world code .fresh)
      (do
        let _ ← unlockWallet ZbagCrypto.testPrimitives [wrappedKey] unreadableQueue
          (Vector.replicate 16 2) "password"
        return ())
      (ZbagWallet.unlockWallet (unreadableQueue.abstract (Vector.replicate 16 2) lockedWallet)
        (code (Vector.replicate 16 2)) (unwraps ZbagCrypto.testPrimitives [wrappedKey]
          (Vector.replicate 16 2) "password" lockedWallet)) lockedWallet := by
  have hcount : Countable Uuid := Function.Injective.countable
    (fun _ _ => Vector.toList_inj.mp : Function.Injective Vector.toList)
  obtain ⟨code, hcode⟩ := Countable.exists_injective_nat Uuid
  exact ⟨code, hcode, unlockWallet_refines code .fresh hcode⟩

theorem failed_unlock_activates : ∃ e t,
    outcome (unlockWallet ZbagCrypto.testPrimitives [wrappedKey] unreadableQueue
      (Vector.replicate 16 2) "password") lockedWallet = (.error e, t) ∧
    lockedWallet.activeWallet = none ∧
    t.activeWallet =
      some (unlocked (Vector.replicate 16 2) storedWallet (Vector.replicate 32 3)) := by
  have hpasses : Passes ZbagCrypto.testPrimitives [wrappedKey] unreadableQueue
      (Vector.replicate 16 2) "password" lockedWallet storedWallet
      ⟨ZbagCrypto.testKdf, ZbagCrypto.testAead, .ofList (Encoding.encode (List.replicate 48 4))⟩
      (Vector.replicate 32 3) :=
    ⟨rfl, by simp [lockedWallet], rfl, rfl, by simp [lockedWallet], by decide +kernel, rfl, rfl⟩
  have hscan : scanFails unreadableQueue lockedWallet storedWallet.directoryPath = true := by
    decide +kernel
  obtain ⟨r, t, hout, hactive, -, ⟨-, hok⟩ | ⟨⟨e, rfl⟩, -⟩⟩ := outcome_unlock hpasses
  · rw [hscan] at hok
    cases hok
  · exact ⟨e, t, hout, rfl, hactive⟩

end ZbagUnlock
