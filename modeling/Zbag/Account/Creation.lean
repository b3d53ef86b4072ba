import Zbag.Account.Import

/-!
# Accounts — creating a wallet

`create_wallet`, `restore_wallet` and `create_keystone_wallet` check the request, make a directory
for the new wallet and then write to the app database, the wallet database and the key store, one
step after the other. Each step may fail, and no failure takes back what was written before. So a
failed call leaves nothing behind if and only if it fails before or at the directory.
-/

namespace ZbagAccount

open ZbagWallet Operation Transition

/-! ## What is stored -/

structure WalletEncryptionMeta where
  wallet : WalletId
  password : String
  deriving DecidableEq, Repr

/-- `walletDb`: the accounts of its database. -/
structure WalletDir where
  walletDb : Option AccountDb

/-- The manager, the table of the wrapped keys and the wallets directory. -/
structure Installation where
  manager : World
  encryption : WalletId → Option WalletEncryptionMeta
  directories : WalletId → Option WalletDir

structure Traces where
  wallet : Option WalletType
  backup : Option Bool
  accounts : AccountId → Option AccountType
  encryption : Option WalletEncryptionMeta
  mnemonic : Option (List String)
  directory : Option WalletDir

def Installation.traces (s : Installation) (v : WalletId) : Traces where
  wallet := s.manager.appDb.wallets v
  backup := s.manager.appDb.backupRequired v
  accounts := s.manager.appDb.accounts v
  encryption := s.encryption v
  mnemonic := s.manager.mnemonics v
  directory := s.directories v

def Installation.Absent (s : Installation) (v : WalletId) : Prop :=
  s.traces v = ⟨none, none, fun _ => none, none, none, none⟩

/-- A failed operation keeps what it has written. -/
abbrev CreateOp := ExceptT IpcError (StateM Installation)

def onManager {α : Type} (op : Op α) : CreateOp α :=
  ExceptT.mk fun s => ((op.run s.manager).1, { s with manager := (op.run s.manager).2 })

/-! ## The steps -/

/-- One answer for each step that can fail. -/
structure CreateEnv where
  now : ℕ
  /-- `create_dir_all` -/
  createDir : Bool
  /-- the writes to the app database -/
  walletRow : Bool
  backupRow : Bool
  encryptionRow : Bool
  accountRow : Bool
  walletRead : Bool
  wrapDek : Bool
  /-- the wallet database is created -/
  openWalletDb : Bool
  /-- the UUID of the new account -/
  account : Except String AccountUuid
  chainTip : Bool
  encryptMnemonic : Bool
  keyStore : Bool
  scan : Bool

def CreateEnv.works (uuid : AccountUuid) : CreateEnv :=
  ⟨0, true, true, true, true, true, true, true, true, .ok uuid, true, true, true, true⟩

def appEnv (ok : Bool) : Env := { Env.works with appDb := ok }

def checkNewWallet (name password : String) : Except IpcError Unit :=
  if (trim name).isEmpty then .error ⟨.invalidRequest, "wallet name must not be empty"⟩
  else if 50 < name.length then
    .error ⟨.invalidRequest, "wallet name must be at most 50 characters"⟩
  else if password.isEmpty then .error ⟨.invalidRequest, "password required"⟩
  else .ok ()

def orFail (ok : Bool) (message : String) : CreateOp Unit := do
  if !ok then throw ⟨.internalError, message⟩

def Installation.withDir (s : Installation) (w : WalletId) : Installation :=
  { s with directories := Function.update s.directories w (s.directories w <|> some ⟨none⟩) }

def createDirAll (env : CreateEnv) (w : WalletId) : CreateOp Unit := do
  orFail env.createDir "failed to create wallet directory"
  modify fun s => s.withDir w

/-- The wallet is the primary key. -/
def insertWalletEncryption (env : CreateEnv) (w : WalletId) (password : String) :
    CreateOp Unit := do
  orFail (env.encryptionRow && ((← get).encryption w).isNone) "app db write failed"
  modify fun s => { s with encryption := Function.update s.encryption w (some ⟨w, password⟩) }

def Installation.withDb (s : Installation) (w : WalletId) : Installation :=
  { s with
    directories := Function.update s.directories w
      (some ⟨((s.directories w).bind WalletDir.walletDb) <|> some Table.empty⟩) }

/-- `open_wallet_db_with_dek` with `create_if_missing`. -/
def openWalletDb (env : CreateEnv) (w : WalletId) : CreateOp Unit := do
  orFail env.openWalletDb "failed to initialize encrypted wallet db"
  modify fun s => s.withDb w

/-- The first account, if there is a database and it takes the account. -/
def withAccount (env : CreateEnv) (w : WalletId) (keySource : Option String)
    (derivation : Option ZipAccountId) (s : Installation) : Option Installation :=
  match env.account, (s.directories w).bind WalletDir.walletDb with
  | .ok uuid, some db =>
    (db.insert ⟨uuid, keySource, derivation⟩).map fun db =>
      { s with directories := Function.update s.directories w (some ⟨some db⟩) }
  | _, _ => none

def addAccount (env : CreateEnv) (w : WalletId) (keySource : Option String)
    (derivation : Option ZipAccountId) (message : String) : CreateOp Unit := do
  let some s := withAccount env w keySource derivation (← get) | throw ⟨.internalError, message⟩
  set s

def storeEncryptedMnemonic (env : CreateEnv) (w : WalletId) (words : List String) :
    CreateOp Unit := do
  orFail env.keyStore "failed to store encrypted mnemonic"
  modify fun s =>
    { s with
      manager := { s.manager with mnemonics := Function.update s.manager.mnemonics w words } }

def insertRows (env : CreateEnv) (w : WalletId) (walletType : WalletType)
    (backupRequired : Bool) (password : String) : CreateOp Unit := do
  onManager (insertWallet (appEnv env.walletRow) w walletType)
  onManager (setBackupRequired (appEnv env.backupRow) w backupRequired)
  orFail env.wrapDek "failed to wrap DEK"
  insertWalletEncryption env w password

def activateNew (env : CreateEnv) (w : WalletId) (walletType : WalletType) : CreateOp Unit := do
  onManager (activate w walletType)
  onManager (scanQueuedBroadcasts { Env.works with scan := env.scan })

/-! ## The calls -/

def newMnemonic (mnemonic : Except String (List String)) : Except IpcError (List String) :=
  match mnemonic with
  | .error e => .error ⟨.internalError, "failed to generate mnemonic: " ++ e⟩
  | .ok words =>
    if words.length ≠ 24 then .error ⟨.internalError, "mnemonic must be 24 words"⟩ else .ok words

def parseSeedPhrase (phrase : Option (List String)) : Except IpcError (List String) :=
  match phrase with
  | none => .error ⟨.invalidSeedPhrase, "invalid seed phrase"⟩
  | some words =>
    if words.length ≠ 24 then .error ⟨.invalidSeedPhrase, "seed phrase must be 24 words"⟩
    else .ok words

def checkUfvk (network : NetworkType) (ufvk : Except String NetworkType) : Except IpcError Unit :=
  match ufvk with
  | .error e => .error ⟨.invalidUfvk, e⟩
  | .ok n => if n ≠ network then .error ⟨.invalidUfvk, "UFVK network mismatch"⟩ else .ok ()

/-- `create_wallet` in the new directory. -/
def createWalletIn (env : CreateEnv) (w : WalletId) (password : String) (challengeId : ℕ)
    (indices : List ℕ) (words : List String) : CreateOp Unit := do
  insertRows env w .software true password
  openWalletDb env w
  addAccount env w none (some 0) "failed to create wallet account"
  orFail env.chainTip "failed to set initial chain tip"
  orFail env.encryptMnemonic "failed to encrypt mnemonic"
  storeEncryptedMnemonic env w words
  onManager (upsertAccount (appEnv env.accountRow) w 0 .software)
  orFail env.walletRead "app db read failed"
  onManager (issueBackupChallenge { Env.works with now := env.now } w challengeId indices)
  activateNew env w .software

/-- The mnemonic is encrypted before the database is opened. -/
def restoreWalletIn (env : CreateEnv) (w : WalletId) (password : String) (words : List String) :
    CreateOp Unit := do
  insertRows env w .software false password
  orFail env.encryptMnemonic "failed to encrypt mnemonic"
  openWalletDb env w
  addAccount env w none (some 0) "failed to create wallet account"
  orFail env.chainTip "failed to set initial chain tip"
  storeEncryptedMnemonic env w words
  onManager (upsertAccount (appEnv env.accountRow) w 0 .software)
  activateNew env w .software

structure KeystoneRequest where
  network : NetworkType
  ufvk : Except String NetworkType
  seedFingerprint : Option String
  zip32AccountIndex : Option ℕ

/-- The fingerprint and the index are checked with the rows written and the database open. -/
def createKeystoneWalletIn (env : CreateEnv) (hexDecode : String → Except String (List UInt8))
    (w : WalletId) (password : String) (req : KeystoneRequest) : CreateOp Unit := do
  insertRows env w .watchOnly false password
  openWalletDb env w
  let derivation ← liftExcept (accountPurpose hexDecode req.seedFingerprint req.zip32AccountIndex)
  addAccount env w (some (keySourceForAccountId 0)) derivation
    "failed to import UFVK into wallet db"
  orFail env.chainTip "failed to set initial chain tip"
  onManager (upsertAccount (appEnv env.accountRow) w 0 .hardwareSigner)
  activateNew env w .watchOnly

/-- `prepare` are its other checks, `body` is what it does in the new directory. -/
def newWallet {α : Type} (env : CreateEnv) (w : WalletId) (name password : String)
    (prepare : Except IpcError α) (body : α → CreateOp Unit) : CreateOp α := do
  liftExcept (checkNewWallet name password)
  let a ← liftExcept prepare
  createDirAll env w
  body a
  return a

/-- `w` is the new UUID. -/
def createWallet (env : CreateEnv) (w : WalletId) (name password : String)
    (mnemonic : Except String (List String)) (challengeId : ℕ) (indices : List ℕ) :
    CreateOp (List String) :=
  newWallet env w name password (newMnemonic mnemonic)
    (createWalletIn env w password challengeId indices)

def restoreWallet (env : CreateEnv) (w : WalletId) (name password : String)
    (phrase : Option (List String)) : CreateOp (List String) :=
  newWallet env w name password (parseSeedPhrase phrase) (restoreWalletIn env w password)

def createKeystoneWallet (env : CreateEnv) (hexDecode : String → Except String (List UInt8))
    (w : WalletId) (name password : String) (req : KeystoneRequest) : CreateOp Unit :=
  newWallet env w name password (checkUfvk req.network req.ufvk) fun _ =>
    createKeystoneWalletIn env hexDecode w password req

/-! ## One step at a time -/

section Steps

variable (env : CreateEnv) (w : WalletId)

theorem onManager_guarded {op : Op Unit} {ok : World → Prop} {effect : World → World}
    (h : Guarded op ok effect) :
    Guarded (onManager op) (fun s => ok s.manager)
      (fun s => { s with manager := effect s.manager }) := by
  have hout : ∀ s, outcome (onManager op) s =
      ((outcome op s.manager).1, { s with manager := (outcome op s.manager).2 }) := fun _ => rfl
  constructor
  · intro s hok
    rw [hout, h.success _ hok]
  · intro s hok
    obtain ⟨e, he⟩ := h.failure _ hok
    exact ⟨e, by rw [hout, he]⟩

theorem orFail_guarded (ok : Bool) (message : String) :
    Guarded (orFail ok message) (fun _ => ok = true) id :=
  .of_outcome ⟨.internalError, message⟩ fun _ => by cases ok <;> rfl

theorem guarded_write (ok : Installation → Bool) (message : String)
    (effect : Installation → Installation) :
    Guarded (do orFail (ok (← get)) message; modify effect) (fun s => ok s = true) effect := by
  refine .of_outcome ⟨.internalError, message⟩ fun s => ?_
  change outcome (orFail (ok s) message >>= fun _ => modify effect) s = _
  cases ok s <;> rfl

theorem createDirAll_guarded : Guarded (createDirAll env w) (fun _ => env.createDir = true)
    (fun s => s.withDir w) :=
  guarded_write (fun _ => env.createDir) _ _

theorem insertWalletEncryption_guarded (password : String) :
    Guarded (insertWalletEncryption env w password)
      (fun s => (env.encryptionRow && (s.encryption w).isNone) = true)
      (fun s => { s with encryption := Function.update s.encryption w (some ⟨w, password⟩) }) :=
  guarded_write (fun s => env.encryptionRow && (s.encryption w).isNone) _ _

theorem openWalletDb_guarded : Guarded (openWalletDb env w) (fun _ => env.openWalletDb = true)
    (fun s => s.withDb w) :=
  guarded_write (fun _ => env.openWalletDb) _ _

theorem storeEncryptedMnemonic_guarded (words : List String) :
    Guarded (storeEncryptedMnemonic env w words) (fun _ => env.keyStore = true)
      (fun s => { s with
        manager := { s.manager with
          mnemonics := Function.update s.manager.mnemonics w words } }) :=
  guarded_write (fun _ => env.keyStore) _ _

theorem insertWallet_guarded (ok : Bool) (walletType : WalletType) :
    Guarded (insertWallet (appEnv ok) w walletType)
      (fun s => s.appDb.wallets w = none ∧ ok = true)
      (fun s => { s with
        appDb := { s.appDb with wallets := Function.update s.appDb.wallets w walletType } }) := by
  refine .of_outcome ⟨.internalError, "UNIQUE constraint failed: wallets.id"⟩ fun s => ?_
  change (if s.appDb.wallets w ≠ none ∨ !ok then _ else _ : Op Unit) s = _
  by_cases hok : s.appDb.wallets w = none ∧ ok = true
  · rw [if_neg (by simp [hok]), if_pos hok]
    rfl
  · rw [if_pos (by simpa [or_iff_not_imp_left] using hok), if_neg hok]
    rfl

theorem guarded_ite (ok : Bool) (code : ErrorCode) (message : String) (effect : World → World) :
    Guarded (do
      if !ok then ipcErr code message
      modify effect) (fun _ => ok = true) effect :=
  .of_outcome ⟨code, message⟩ fun _ => by cases ok <;> rfl

theorem setBackupRequired_guarded (ok required : Bool) :
    Guarded (setBackupRequired (appEnv ok) w required) (fun _ => ok = true)
      (fun s => { s with
        appDb := { s.appDb with
          backupRequired := Function.update s.appDb.backupRequired w required } }) :=
  guarded_ite ok _ _ _

theorem upsertAccount_guarded (ok : Bool) (a : AccountId) (accountType : AccountType) :
    Guarded (upsertAccount (appEnv ok) w a accountType) (fun _ => ok = true)
      (fun s => { s with
        appDb := { s.appDb with
          accounts := Function.update s.appDb.accounts w
            (Function.update (s.appDb.accounts w) a accountType) } }) :=
  guarded_ite ok _ _ _

theorem issueBackupChallenge_guarded (env : Env) (challengeId : ℕ) (indices : List ℕ) :
    Guarded (issueBackupChallenge env w challengeId indices)
      (fun s => s.appDb.wallets w ≠ none)
      (fun s => { s with
        backupChallenges := Function.update s.backupChallenges w
          (some ⟨challengeId, indices, env.now + 600000, 0⟩) }) := by
  refine .of_outcome ⟨.walletNotFound, "wallet not found"⟩ fun s => ?_
  unfold issueBackupChallenge
  rw [outcome_get_bind]
  cases s.appDb.wallets w <;> rfl

theorem activate_guarded (walletType : WalletType) :
    Guarded (activate w walletType) (fun _ => True)
      (fun s => { s with activeWallet := some ⟨w, walletType, .unlocked, some ⟨w⟩, some ⟨w⟩⟩ }) :=
  ⟨fun _ _ => rfl, fun _ h => absurd trivial h⟩

theorem scanQueuedBroadcasts_guarded (env : Env) :
    Guarded (scanQueuedBroadcasts env) (fun _ => env.scan = true) id := by
  refine .of_outcome ⟨.internalError, "failed to scan queued broadcasts"⟩ fun _ => ?_
  unfold scanQueuedBroadcasts
  cases env.scan <;> rfl

theorem addAccount_guarded (keySource : Option String) (derivation : Option ZipAccountId)
    (message : String) :
    Guarded (addAccount env w keySource derivation message)
      (fun s => (withAccount env w keySource derivation s).isSome = true)
      (fun s => (withAccount env w keySource derivation s).getD s) := by
  refine .of_outcome ⟨.internalError, message⟩ fun s => ?_
  unfold addAccount
  rw [outcome_get_bind]
  cases withAccount env w keySource derivation s <;> rfl

end Steps

/-! ## What a call keeps -/

/-- The directory of `w` stays, and nothing of another wallet changes. -/
def ConfinedTo (w : WalletId) (s t : Installation) : Prop :=
  ((s.directories w).isSome = true → (t.directories w).isSome = true) ∧
    ∀ v, v ≠ w → t.traces v = s.traces v

theorem ConfinedTo.refl (w : WalletId) (s : Installation) : ConfinedTo w s s :=
  ⟨id, fun _ _ => rfl⟩

variable {w : WalletId} {s : Installation}

theorem ConfinedTo.trans (s t u : Installation) (h : ConfinedTo w s t) (h' : ConfinedTo w t u) :
    ConfinedTo w s u :=
  ⟨fun hs => h'.1 (h.1 hs), fun v hv => (h'.2 v hv).trans (h.2 v hv)⟩

theorem ConfinedTo.of_manager {m : World}
    (h : ∀ v, v ≠ w → ({ s with manager := m } : Installation).traces v = s.traces v) :
    ConfinedTo w s { s with manager := m } := ⟨id, h⟩

theorem ConfinedTo.of_directory (s : Installation) (d : WalletDir) :
    ConfinedTo w s { s with directories := Function.update s.directories w (some d) } := by
  constructor
  · intro _
    simp
  · intro v hv
    simp [Installation.traces, Function.update_of_ne hv]

section Within

variable {env : CreateEnv} {w : WalletId} {α : Type}

theorem within_guarded {op : CreateOp Unit} {ok : Installation → Prop}
    {effect : Installation → Installation} (h : Guarded op ok effect)
    (heffect : ∀ s, ConfinedTo w s (effect s)) : Within (ConfinedTo w) op :=
  h.within (ConfinedTo.refl w) heffect

theorem within_bind {op : CreateOp Unit} {rest : CreateOp α} (h : Within (ConfinedTo w) op)
    (hrest : Within (ConfinedTo w) rest) : Within (ConfinedTo w) (do op; rest) :=
  h.bind ConfinedTo.trans fun _ => hrest

theorem within_pure (a : α) : Within (ConfinedTo w) (pure a : CreateOp α) :=
  fun s => .refl w s

theorem within_orFail {ok : Bool} {message : String} :
    Within (ConfinedTo w) (orFail ok message) :=
  within_guarded (orFail_guarded ok message) (ConfinedTo.refl w)

theorem within_insertRows {walletType : WalletType} {required : Bool} {password : String} :
    Within (ConfinedTo w) (insertRows env w walletType required password) := by
  apply within_bind
  · exact within_guarded (onManager_guarded (insertWallet_guarded ..)) fun s =>
      .of_manager fun v hv => by simp [Installation.traces, Function.update_of_ne hv]
  apply within_bind
  · exact within_guarded (onManager_guarded (setBackupRequired_guarded ..)) fun s =>
      .of_manager fun v hv => by simp [Installation.traces, Function.update_of_ne hv]
  apply within_bind within_orFail
  exact within_guarded (insertWalletEncryption_guarded ..) fun s =>
    ⟨id, fun v hv => by simp [Installation.traces, Function.update_of_ne hv]⟩

theorem within_openWalletDb : Within (ConfinedTo w) (openWalletDb env w) :=
  within_guarded (openWalletDb_guarded env w) fun s => .of_directory s _

theorem within_addAccount {keySource : Option String} {derivation : Option ZipAccountId}
    {message : String} :
    Within (ConfinedTo w) (addAccount env w keySource derivation message) := by
  refine within_guarded (addAccount_guarded ..) fun s => ?_
  cases h : withAccount env w keySource derivation s with
  | none => exact .refl w s
  | some t =>
    unfold withAccount at h
    split at h
    · obtain ⟨db, -, rfl⟩ := Option.map_eq_some_iff.mp h
      exact .of_directory s _
    · cases h

theorem within_storeEncryptedMnemonic {words : List String} :
    Within (ConfinedTo w) (storeEncryptedMnemonic env w words) :=
  within_guarded (storeEncryptedMnemonic_guarded ..) fun s =>
    .of_manager fun v hv => by simp [Installation.traces, Function.update_of_ne hv]

theorem within_upsertAccount {ok : Bool} {a : AccountId} {accountType : AccountType} :
    Within (ConfinedTo w) (onManager (upsertAccount (appEnv ok) w a accountType)) :=
  within_guarded (onManager_guarded (upsertAccount_guarded ..)) fun s =>
    .of_manager fun v hv => by simp [Installation.traces, Function.update_of_ne hv]

theorem within_activateNew {walletType : WalletType} :
    Within (ConfinedTo w) (activateNew env w walletType) := by
  apply within_bind
  · exact within_guarded (onManager_guarded (activate_guarded ..)) fun _ =>
      .of_manager fun _ _ => rfl
  exact within_guarded (onManager_guarded (scanQueuedBroadcasts_guarded _)) fun _ =>
    .of_manager fun _ _ => rfl

theorem within_createWalletIn (password : String) (challengeId : ℕ) (indices : List ℕ)
    (words : List String) :
    Within (ConfinedTo w) (createWalletIn env w password challengeId indices words) := by
  apply within_bind within_insertRows
  apply within_bind within_openWalletDb
  apply within_bind within_addAccount
  apply within_bind within_orFail
  apply within_bind within_orFail
  apply within_bind within_storeEncryptedMnemonic
  apply within_bind within_upsertAccount
  apply within_bind within_orFail
  apply within_bind
  · exact within_guarded (onManager_guarded (issueBackupChallenge_guarded ..)) fun _ =>
      .of_manager fun _ _ => rfl
  exact within_activateNew

theorem within_restoreWalletIn (password : String) (words : List String) :
    Within (ConfinedTo w) (restoreWalletIn env w password words) := by
  apply within_bind within_insertRows
  apply within_bind within_orFail
  apply within_bind within_openWalletDb
  apply within_bind within_addAccount
  apply within_bind within_orFail
  apply within_bind within_storeEncryptedMnemonic
  apply within_bind within_upsertAccount
  exact within_activateNew

theorem within_createKeystoneWalletIn (hexDecode : String → Except String (List UInt8))
    (password : String) (req : KeystoneRequest) :
    Within (ConfinedTo w) (createKeystoneWalletIn env hexDecode w password req) := by
  apply within_bind within_insertRows
  apply within_bind within_openWalletDb
  refine Within.bind ConfinedTo.trans (fun s => ?_) fun derivation => ?_
  · rw [outcome_liftExcept]
    exact .refl w s
  apply within_bind within_addAccount
  apply within_bind within_orFail
  apply within_bind within_upsertAccount
  exact within_activateNew

end Within

/-! ## When a call succeeds -/

def CreateEnv.storesRows (env : CreateEnv) : Prop :=
  env.walletRow = true ∧ env.backupRow = true ∧ env.wrapDek = true ∧ env.encryptionRow = true

def CreateEnv.storesAccount (env : CreateEnv) : Prop :=
  env.openWalletDb = true ∧ (∃ uuid, env.account = .ok uuid) ∧ env.chainTip = true ∧
    env.accountRow = true

section Succeeds

variable {env : CreateEnv} {w : WalletId} {s : Installation}

@[simp] theorem withAccount_manager (keySource : Option String) (derivation : Option ZipAccountId)
    (s : Installation) :
    ((withAccount env w keySource derivation s).getD s).manager = s.manager := by
  unfold withAccount
  split
  · rename_i db _ _
    cases db.insert _ with
    | none | some db' => rfl
  · rfl

theorem withAccount_isSome (hs : s.directories w = some ⟨some Table.empty⟩)
    (keySource : Option String) (derivation : Option ZipAccountId) :
    (withAccount env w keySource derivation s).isSome = true ↔ ∃ uuid, env.account = .ok uuid := by
  unfold withAccount
  rw [hs]
  cases env.account with
  | error e => simp
  | ok uuid => simp [Table.insert, Table.empty]

def Installation.Prepared (s : Installation) (w : WalletId) : Prop :=
  s.manager.appDb.wallets w = none ∧ s.encryption w = none ∧ s.directories w = some ⟨none⟩

def Installation.withRows (s : Installation) (w : WalletId) (walletType : WalletType)
    (required : Bool) (password : String) : Installation :=
  { s with
    manager := { s.manager with
      appDb := { s.manager.appDb with
        wallets := Function.update s.manager.appDb.wallets w walletType
        backupRequired := Function.update s.manager.appDb.backupRequired w required } }
    encryption := Function.update s.encryption w (some ⟨w, password⟩) }

theorem succeeds_insertRows_bind (hs : s.Prepared w) (walletType : WalletType) (required : Bool)
    (password : String) (rest : CreateOp Unit) :
    Succeeds (insertRows env w walletType required password >>= fun _ => rest) s ↔
      env.storesRows ∧ Succeeds rest (s.withRows w walletType required password) := by
  obtain ⟨hwallet, henc, -⟩ := hs
  simp only [insertRows, bind_assoc]
  rw [(onManager_guarded (insertWallet_guarded ..)).succeeds_bind,
    (onManager_guarded (setBackupRequired_guarded ..)).succeeds_bind,
    (orFail_guarded ..).succeeds_bind, (insertWalletEncryption_guarded ..).succeeds_bind]
  simp only [id, hwallet, henc, Option.isNone_none, Bool.and_true, true_and]
  unfold CreateEnv.storesRows Installation.withRows
  tauto

theorem succeeds_activateNew (walletType : WalletType) (s : Installation) :
    Succeeds (activateNew env w walletType) s ↔ env.scan = true := by
  unfold activateNew
  rw [(onManager_guarded (activate_guarded ..)).succeeds_bind,
    (onManager_guarded (scanQueuedBroadcasts_guarded ..)).succeeds_iff, true_and]

theorem withRows_withDb (hs : s.Prepared w) (walletType : WalletType) (required : Bool)
    (password : String) :
    ((s.withRows w walletType required password).withDb w).directories w =
      some ⟨some Table.empty⟩ := by
  simp [Installation.withDb, Installation.withRows, hs.2.2]

theorem succeeds_createWalletIn (hs : s.Prepared w) (password : String) (challengeId : ℕ)
    (indices : List ℕ) (words : List String) :
    Succeeds (createWalletIn env w password challengeId indices words) s ↔
      env.storesRows ∧ env.storesAccount ∧ env.encryptMnemonic = true ∧ env.keyStore = true ∧
        env.walletRead = true ∧ env.scan = true := by
  unfold createWalletIn
  rw [succeeds_insertRows_bind hs, (openWalletDb_guarded ..).succeeds_bind,
    (addAccount_guarded ..).succeeds_bind, (orFail_guarded ..).succeeds_bind,
    (orFail_guarded ..).succeeds_bind, (storeEncryptedMnemonic_guarded ..).succeeds_bind,
    (onManager_guarded (upsertAccount_guarded ..)).succeeds_bind,
    (orFail_guarded ..).succeeds_bind,
    (onManager_guarded (issueBackupChallenge_guarded ..)).succeeds_bind, succeeds_activateNew,
    withAccount_isSome (withRows_withDb hs ..)]
  simp only [id, withAccount_manager, Installation.withDb, Installation.withRows,
    Function.update_self, ne_eq, reduceCtorEq, not_false_eq_true, true_and]
  unfold CreateEnv.storesAccount
  tauto

theorem succeeds_restoreWalletIn (hs : s.Prepared w) (password : String) (words : List String) :
    Succeeds (restoreWalletIn env w password words) s ↔
      env.storesRows ∧ env.storesAccount ∧ env.encryptMnemonic = true ∧ env.keyStore = true ∧
        env.scan = true := by
  unfold restoreWalletIn
  rw [succeeds_insertRows_bind hs, (orFail_guarded ..).succeeds_bind,
    (openWalletDb_guarded ..).succeeds_bind, (addAccount_guarded ..).succeeds_bind,
    (orFail_guarded ..).succeeds_bind, (storeEncryptedMnemonic_guarded ..).succeeds_bind,
    (onManager_guarded (upsertAccount_guarded ..)).succeeds_bind, succeeds_activateNew, id,
    withAccount_isSome (withRows_withDb hs ..)]
  unfold CreateEnv.storesAccount
  tauto

theorem succeeds_createKeystoneWalletIn (hs : s.Prepared w)
    (hexDecode : String → Except String (List UInt8)) (password : String)
    (req : KeystoneRequest) :
    Succeeds (createKeystoneWalletIn env hexDecode w password req) s ↔
      env.storesRows ∧ env.storesAccount ∧ env.scan = true ∧
        ∃ derivation,
          accountPurpose hexDecode req.seedFingerprint req.zip32AccountIndex = .ok derivation := by
  unfold createKeystoneWalletIn
  rw [succeeds_insertRows_bind hs, (openWalletDb_guarded ..).succeeds_bind,
    succeeds_liftExcept_bind]
  cases accountPurpose hexDecode req.seedFingerprint req.zip32AccountIndex with
  | error e => simp
  | ok derivation =>
    simp only [Except.ok.injEq, exists_eq_left', exists_eq', and_true]
    rw [(addAccount_guarded ..).succeeds_bind, (orFail_guarded ..).succeeds_bind,
      (onManager_guarded (upsertAccount_guarded ..)).succeeds_bind, succeeds_activateNew,
      withAccount_isSome (withRows_withDb hs ..)]
    unfold CreateEnv.storesAccount
    tauto

end Succeeds

/-! ## What a failed call leaves behind -/

/-- A failure leaves nothing for a wallet that had nothing. -/
def Atomic {α : Type} (op : CreateOp α) (s : Installation) : Prop :=
  ∀ e t, outcome op s = (.error e, t) → ∀ v, s.Absent v → t.Absent v

section Atomic

variable {α : Type} {env : CreateEnv} {w : WalletId} {s : Installation}

theorem atomic_of_unchanged {op : CreateOp α} (h : (outcome op s).2 = s) : Atomic op s := by
  intro e t hout v hv
  rw [hout] at h
  obtain rfl : t = s := h
  exact hv

theorem Installation.Absent.prepared (h : s.Absent w) : (s.withDir w).Prepared w := by
  have hdir : s.directories w = none := congrArg Traces.directory h
  refine ⟨congrArg Traces.wallet h, congrArg Traces.encryption h, ?_⟩
  simp [Installation.withDir, hdir]

theorem within_createDirAll : Within (ConfinedTo w) (createDirAll env w) := by
  refine within_guarded (createDirAll_guarded env w) fun s => ?_
  unfold Installation.withDir
  cases s.directories w with
  | none => exact .of_directory s _
  | some d => exact .of_directory s d

variable (env s) in
/-- After the directory, only a body that succeeds is atomic. -/
theorem inDirectory_atomic_iff {body : CreateOp Unit} {completes : Prop} (a : α)
    (hbody : Within (ConfinedTo w) body)
    (hok : ∀ t, t.Prepared w → (Succeeds body t ↔ completes)) :
    Atomic (do createDirAll env w; body; return a) s ↔
      ¬ s.Absent w ∨ env.createDir = false ∨ completes := by
  cases hdir : env.createDir with
  | false =>
    refine iff_of_true (atomic_of_unchanged ?_) (.inr (.inl rfl))
    have hfails : ¬ env.createDir = true := by
      rw [hdir]
      exact Bool.false_ne_true
    obtain ⟨e, he⟩ := (createDirAll_guarded env w).failure s hfails
    rw [outcome_bind_error he]
  | true =>
    have hmade := (createDirAll_guarded env w).success s hdir
    by_cases hw : s.Absent w
    · -- a fresh id: the body runs with nothing but the directory
      have hsucceeds := hok _ hw.prepared
      by_cases hc : completes
      · refine iff_of_true (fun e t hout => ?_) (.inr (.inr hc))
        obtain ⟨u, t', hbody'⟩ := hsucceeds.mpr hc
        rw [outcome_bind_ok hmade, outcome_bind_ok hbody'] at hout
        cases congrArg Prod.fst hout
      · refine iff_of_false (fun hatomic => ?_) (by simp [hw, hc])
        obtain ⟨e, t, hfail⟩ := not_succeeds_iff.mp fun h => hc (hsucceeds.mp h)
        have hout : outcome (do createDirAll env w; body; return a) s = (.error e, t) := by
          rw [outcome_bind_ok hmade, outcome_bind_error hfail]
        have hleft := (hbody _).1 (by rw [hw.prepared.2.2]; rfl)
        rw [hfail, show t.directories w = none from
          congrArg Traces.directory (hatomic e t hout w hw)] at hleft
        cases hleft
    · -- an id in use: every other wallet stays as it is
      refine iff_of_true (fun e t hout v hv => ?_) (.inl hw)
      have hconf : Within (ConfinedTo w) (do createDirAll env w; body; return a) :=
        within_bind within_createDirAll (within_bind hbody (within_pure a))
      have hst := hconf s
      have hvw : v ≠ w := fun h => hw (h ▸ hv)
      rw [hout] at hst
      exact (hst.2 v hvw).trans hv

theorem newWallet_atomic_iff {name password : String} {prepare : Except IpcError α}
    {body : α → CreateOp Unit} {completes : Prop} (hbody : ∀ a, Within (ConfinedTo w) (body a))
    (hok : ∀ a t, t.Prepared w → (Succeeds (body a) t ↔ completes)) :
    Atomic (newWallet env w name password prepare body) s ↔
      ¬ s.Absent w ∨ ((∃ e, checkNewWallet name password = .error e) ∨ ∃ e, prepare = .error e) ∨
        env.createDir = false ∨ completes := by
  unfold newWallet
  cases checkNewWallet name password with
  | error e =>
    refine iff_of_true (atomic_of_unchanged ?_) (.inr (.inl (.inl ⟨e, rfl⟩)))
    rw [outcome_bind_error (outcome_liftExcept ..)]
  | ok u =>
    cases prepare with
    | error e =>
      refine iff_of_true (atomic_of_unchanged ?_) (.inr (.inl (.inr ⟨e, rfl⟩)))
      rw [outcome_bind_ok (outcome_liftExcept ..), outcome_bind_error (outcome_liftExcept ..)]
    | ok a =>
      have hiff := inDirectory_atomic_iff env s a (hbody a) (hok a)
      unfold Atomic at hiff ⊢
      rw [outcome_bind_ok (outcome_liftExcept ..), outcome_bind_ok (outcome_liftExcept ..)]
      simpa using hiff

end Atomic

inductive NewWallet
  | create (mnemonic : Except String (List String)) (challengeId : ℕ) (indices : List ℕ)
  | restore (phrase : Option (List String))
  | keystone (hexDecode : String → Except String (List UInt8)) (req : KeystoneRequest)

namespace NewWallet

def run (env : CreateEnv) (w : WalletId) (name password : String) : NewWallet → CreateOp Unit
  | create mnemonic challengeId indices => do
    let _ ← createWallet env w name password mnemonic challengeId indices
  | restore phrase => do
    let _ ← restoreWallet env w name password phrase
  | keystone hexDecode req => createKeystoneWallet env hexDecode w name password req

def Refused (name password : String) (call : NewWallet) : Prop :=
  (∃ e, checkNewWallet name password = .error e) ∨
    match call with
    | create mnemonic _ _ => ∃ e, newMnemonic mnemonic = .error e
    | restore phrase => ∃ e, parseSeedPhrase phrase = .error e
    | keystone _ req => ∃ e, checkUfvk req.network req.ufvk = .error e

def Stores (env : CreateEnv) (call : NewWallet) : Prop :=
  env.storesRows ∧ env.storesAccount ∧
    match call with
    | create .. => env.encryptMnemonic = true ∧ env.keyStore = true ∧ env.walletRead = true ∧
        env.scan = true
    | restore _ => env.encryptMnemonic = true ∧ env.keyStore = true ∧ env.scan = true
    | keystone hexDecode req => env.scan = true ∧ ∃ derivation,
        accountPurpose hexDecode req.seedFingerprint req.zip32AccountIndex = .ok derivation

end NewWallet

theorem atomic_bind_pure {α : Type} {op : CreateOp α} : Atomic (do let _ ← op) s ↔ Atomic op s := by
  have hout : ∀ e t, outcome (do let _ ← op) s = (.error e, t) ↔ outcome op s = (.error e, t) := by
    intro e t
    rw [outcome_bind]
    rcases outcome op s with ⟨r, t'⟩
    cases r with
    | error e' => exact Iff.of_eq (by simp)
    | ok a => exact iff_of_false (fun h => by cases congrArg Prod.fst h) (by simp)
  unfold Atomic
  simp only [hout]

/-- **A failed call leaves nothing behind** if and only if it fails before or at the directory. -/
theorem newWallet_leaves_nothing_iff (call : NewWallet) (env : CreateEnv) (w : WalletId)
    (name password : String) (s : Installation) :
    Atomic (call.run env w name password) s ↔
      ¬ s.Absent w ∨ call.Refused name password ∨ env.createDir = false ∨ call.Stores env := by
  cases call with
  | create mnemonic challengeId indices =>
    exact atomic_bind_pure.trans (newWallet_atomic_iff
      (within_createWalletIn password challengeId indices)
      fun words t ht => succeeds_createWalletIn ht password challengeId indices words)
  | restore phrase =>
    exact atomic_bind_pure.trans (newWallet_atomic_iff (within_restoreWalletIn password)
      fun words t ht => succeeds_restoreWalletIn ht password words)
  | keystone hexDecode req =>
    exact newWallet_atomic_iff (fun _ => within_createKeystoneWalletIn hexDecode password req)
      fun _ t ht => succeeds_createKeystoneWalletIn ht hexDecode password req

def Installation.fresh : Installation := ⟨.fresh, fun _ => none, fun _ => none⟩

def decodePairs (text : String) : Except String (List UInt8) :=
  if text.length % 2 = 1 then .error "Odd number of digits"
  else .ok (List.replicate (text.length / 2) 0)

def shortFingerprint : KeystoneRequest := ⟨.main, .ok .main, some "abc", some 0⟩

/-- **A malformed fingerprint is refused after the wallet is stored.** -/
theorem malformed_fingerprint_leaves_wallet :
    ∃ t, outcome (createKeystoneWallet (.works 1) decodePairs 0 "Keystone" "secret"
          shortFingerprint) .fresh =
        (.error ⟨.invalidRequest, "invalid seed_fingerprint hex: Odd number of digits"⟩, t) ∧
      Installation.fresh.Absent 0 ∧ t.manager.appDb.wallets 0 = some .watchOnly ∧
      t.manager.appDb.backupRequired 0 = some false ∧ t.encryption 0 = some ⟨0, "secret"⟩ ∧
      t.directories 0 = some ⟨some Table.empty⟩ ∧ ¬ t.Absent 0 := by
  refine ⟨_, rfl, rfl, rfl, rfl, rfl, rfl, fun h => ?_⟩
  cases congrArg Traces.wallet h

/-! ## The manager's part -/

def CreateEnv.app (env : CreateEnv) : Env :=
  { Env.works with appDb := env.accountRow, now := env.now, scan := env.scan }

section Manager

variable {α : Type} {env : CreateEnv} {w : WalletId}

theorem onManager_refines (op : Op α) (s : Installation) :
    Refines Installation.manager (onManager op) op s := by
  have hout : outcome (onManager op) s =
      ((outcome op s.manager).1, { s with manager := (outcome op s.manager).2 }) := rfl
  rcases hop : outcome op s.manager with ⟨r, m⟩
  rw [hop] at hout
  cases r with
  | ok a => exact .of_ok hout hop
  | error e => exact .of_error hout hop

theorem keeps_orFail {τ : Type} {π : Installation → τ} {ok : Bool} {message : String} :
    Keeps π (orFail ok message) :=
  (orFail_guarded ok message).keeps fun _ => rfl

theorem manager_insertWalletEncryption {password : String} :
    Keeps Installation.manager (insertWalletEncryption env w password) :=
  (insertWalletEncryption_guarded env w password).keeps fun _ => rfl

theorem manager_openWalletDb : Keeps Installation.manager (openWalletDb env w) :=
  (openWalletDb_guarded env w).keeps fun _ => rfl

theorem manager_addAccount {keySource : Option String} {derivation : Option ZipAccountId}
    {message : String} :
    Keeps Installation.manager (addAccount env w keySource derivation message) :=
  (addAccount_guarded env w keySource derivation message).keeps
    (withAccount_manager keySource derivation)

section Secrets

variable {words : Option (List String)} {rest : CreateOp Unit} {rest' : Op Unit}

/-- A step beside the manager belongs to what stores the secrets. -/
theorem secrets_step {op : CreateOp α} {f : α → CreateOp Unit} (h : Keeps Installation.manager op)
    (s : Installation)
    (hf : ∀ a t, t.manager = s.manager →
      ∃ secrets, Refines Installation.manager (f a) (do storeSecrets w words secrets; rest') t) :
    ∃ secrets,
      Refines Installation.manager (op >>= f) (do storeSecrets w words secrets; rest') s := by
  have hkeeps := h s
  rcases hout : outcome op s with ⟨r, t⟩
  rw [hout] at hkeeps
  cases r with
  | ok a =>
    obtain ⟨secrets, hrest⟩ := hf a t hkeeps
    exact ⟨secrets, .of_outcome_eq (outcome_bind_ok hout f) hkeeps.symm hrest⟩
  | error e =>
    have hspec : outcome (do storeSecrets w words false; rest') s.manager =
        (.error ⟨.internalError, "failed to initialize encrypted wallet db"⟩, s.manager) := rfl
    exact ⟨false, .of_error (outcome_bind_error hout f) (hspec.trans (by rw [hkeeps]))⟩

theorem secrets_stored (words : List String)
    (hrest : ∀ t, Refines Installation.manager rest rest' t) (s : Installation) :
    ∃ secrets, Refines Installation.manager (do storeEncryptedMnemonic env w words; rest)
      (do storeSecrets w (some words) secrets; rest') s := by
  have hstore := storeEncryptedMnemonic_guarded env w words
  by_cases hkey : env.keyStore = true
  · exact ⟨true, (Refines.of_ok (hstore.success s hkey) rfl).bind fun _ t _ => hrest t⟩
  · obtain ⟨e, he⟩ := hstore.failure s hkey
    exact ⟨false, .of_error (outcome_bind_error he _) rfl⟩

theorem no_secrets (hs : s.manager.mnemonics w = none)
    (hrest : Refines Installation.manager rest rest' s) :
    ∃ secrets, Refines Installation.manager rest (do storeSecrets w none secrets; rest') s := by
  have hspec : outcome (storeSecrets w none true) s.manager =
      (.ok (), { s.manager with mnemonics := Function.update s.manager.mnemonics w none }) := rfl
  rw [← hs, Function.update_eq_self] at hspec
  refine ⟨true, ?_⟩
  unfold Refines at hrest ⊢
  rwa [← hs, outcome_bind_ok hspec]

end Secrets

variable (env w) in
theorem rows_refine {rest : CreateOp Unit} {spec : Bool → Op Unit} (walletType : WalletType)
    (required : Bool) (s : Installation)
    (h : ∀ t : Installation, t.manager.mnemonics = s.manager.mnemonics →
      ∃ secrets, Refines Installation.manager rest (spec secrets) t) :
    ∃ secrets, Refines Installation.manager
      (do
        onManager (insertWallet (appEnv env.walletRow) w walletType)
        onManager (setBackupRequired (appEnv env.backupRow) w required)
        rest)
      (do
        insertWallet (appEnv env.walletRow) w walletType
        setBackupRequired (appEnv env.backupRow) w required
        spec secrets) s := by
  obtain ⟨secrets, hsecrets⟩ := h
    { s with
      manager := { s.manager with
        appDb := { s.manager.appDb with
          wallets := Function.update s.manager.appDb.wallets w walletType
          backupRequired := Function.update s.manager.appDb.backupRequired w required } } } rfl
  refine ⟨secrets, (onManager_refines _ s).bind fun _ t ht => ?_⟩
  obtain rfl := (onManager_guarded (insertWallet_guarded ..)).state_eq ht
  refine (onManager_refines _ _).bind fun _ t ht => ?_
  obtain rfl := (onManager_guarded (setBackupRequired_guarded ..)).state_eq ht
  exact hsecrets

theorem activateNew_refines (walletType : WalletType) (s : Installation) :
    Refines Installation.manager (activateNew env w walletType)
      (do activate w walletType; scanQueuedBroadcasts env.app) s :=
  (onManager_refines _ s).bind fun _ t _ => onManager_refines (scanQueuedBroadcasts env.app) t

theorem createWalletIn_refines (hread : env.walletRead = true) (password : String)
    (challengeId : ℕ) (indices : List ℕ) (words : List String) (s : Installation) :
    ∃ secrets, Refines Installation.manager
      (createWalletIn env w password challengeId indices words)
      (ZbagWallet.createWallet (appEnv env.walletRow) (appEnv env.backupRow) env.app w words secrets
        challengeId indices) s := by
  simp only [createWalletIn, insertRows, ZbagWallet.createWallet, bind_assoc]
  refine rows_refine env w .software true s fun t _ => ?_
  refine secrets_step keeps_orFail t fun _ t _ => secrets_step manager_insertWalletEncryption t
    fun _ t _ => secrets_step manager_openWalletDb t fun _ t _ => secrets_step manager_addAccount t
    fun _ t _ => secrets_step keeps_orFail t fun _ t _ => secrets_step keeps_orFail t
    fun _ t _ => secrets_stored words (fun t => ?_) t
  refine (onManager_refines (upsertAccount env.app w 0 .software) t).bind fun _ t _ => ?_
  have hread' := (orFail_guarded env.walletRead "app db read failed").success t hread
  refine .of_outcome_eq (outcome_bind_ok hread' _) rfl ?_
  exact (onManager_refines (issueBackupChallenge env.app w challengeId indices) t).bind
    fun _ t _ => activateNew_refines .software t

theorem restoreWalletIn_refines (password : String) (words : List String) (s : Installation) :
    ∃ secrets, Refines Installation.manager (restoreWalletIn env w password words)
      (ZbagWallet.restoreWallet (appEnv env.walletRow) (appEnv env.backupRow) env.app w words
        secrets) s := by
  simp only [restoreWalletIn, insertRows, ZbagWallet.restoreWallet, markBackupComplete, bind_assoc]
  refine rows_refine env w .software false s fun t _ => ?_
  refine secrets_step keeps_orFail t fun _ t _ => secrets_step manager_insertWalletEncryption t
    fun _ t _ => secrets_step keeps_orFail t fun _ t _ => secrets_step manager_openWalletDb t
    fun _ t _ => secrets_step manager_addAccount t fun _ t _ => secrets_step keeps_orFail t
    fun _ t _ => secrets_stored words (fun t => ?_) t
  exact (onManager_refines (upsertAccount env.app w 0 .software) t).bind
    fun _ t _ => activateNew_refines .software t

theorem createKeystoneWalletIn_refines (hexDecode : String → Except String (List UInt8))
    (password : String) (req : KeystoneRequest) (hs : s.manager.mnemonics w = none) :
    ∃ secrets, Refines Installation.manager (createKeystoneWalletIn env hexDecode w password req)
      (ZbagWallet.createKeystoneWallet (appEnv env.walletRow) (appEnv env.backupRow) env.app w
        secrets) s := by
  simp only [createKeystoneWalletIn, insertRows, ZbagWallet.createKeystoneWallet,
    markBackupComplete, bind_assoc]
  refine rows_refine env w .watchOnly false s fun t ht => ?_
  refine secrets_step keeps_orFail t fun _ t₁ h₁ => secrets_step manager_insertWalletEncryption t₁
    fun _ t₂ h₂ => secrets_step manager_openWalletDb t₂
    fun _ t₃ h₃ => secrets_step keeps_liftExcept t₃ fun _ t₄ h₄ => secrets_step manager_addAccount t₄
    fun _ t₅ h₅ => secrets_step keeps_orFail t₅ fun _ t₆ h₆ =>
      no_secrets (by rw [h₆, h₅, h₄, h₃, h₂, h₁, ht, hs]) ?_
  exact (onManager_refines (upsertAccount env.app w 0 .hardwareSigner) t₆).bind
    fun _ t _ => activateNew_refines .watchOnly t

theorem path_of_refines {body : CreateOp Unit} (c : Call)
    (h : Refines Installation.manager body c.op s) :
    Path walletSystem Free s.manager (outcome body s).2.manager := by
  rw [← h.state_eq]
  exact .single (a := .call c) trivial rfl

theorem newWallet_path {name password : String} {prepare : Except IpcError α}
    {body : α → CreateOp Unit}
    (hbody : ∀ a t, t.manager = s.manager →
      Path walletSystem Free t.manager (outcome (body a) t).2.manager) :
    Path walletSystem Free s.manager
      (outcome (newWallet env w name password prepare body) s).2.manager := by
  unfold newWallet
  cases checkNewWallet name password with
  | error e =>
    rw [outcome_bind_error (outcome_liftExcept ..)]
    exact .refl
  | ok u =>
    rw [outcome_bind_ok (outcome_liftExcept ..)]
    cases prepare with
    | error e =>
      rw [outcome_bind_error (outcome_liftExcept ..)]
      exact .refl
    | ok a =>
      rw [outcome_bind_ok (outcome_liftExcept ..)]
      by_cases hdir : env.createDir = true
      · rw [outcome_bind_ok ((createDirAll_guarded env w).success s hdir), outcome_bind_pure_snd]
        exact hbody a (s.withDir w) rfl
      · obtain ⟨e, he⟩ := (createDirAll_guarded env w).failure s hdir
        rw [outcome_bind_error he]
        exact .refl

end Manager

/-- **A call for a new wallet is a run of the wallet manager**, whatever else fails. -/
theorem newWallet_manager (call : NewWallet) {env : CreateEnv} (name password : String)
    (hw : s.Absent w) (hread : env.walletRead = true) :
    Path walletSystem Free s.manager (outcome (call.run env w name password) s).2.manager := by
  cases call with
  | create mnemonic challengeId indices =>
    unfold NewWallet.run
    rw [outcome_bind_pure_snd]
    refine newWallet_path fun words t _ => ?_
    obtain ⟨secrets, h⟩ := createWalletIn_refines hread password challengeId indices words t
    exact path_of_refines (.createWallet _ _ _ w words secrets challengeId indices) h
  | restore phrase =>
    unfold NewWallet.run
    rw [outcome_bind_pure_snd]
    refine newWallet_path fun words t _ => ?_
    obtain ⟨secrets, h⟩ := restoreWalletIn_refines password words t
    exact path_of_refines (.restoreWallet _ _ _ w words secrets) h
  | keystone hexDecode req =>
    refine newWallet_path fun _ t ht => ?_
    have hmnemonic : s.manager.mnemonics w = none := congrArg Traces.mnemonic hw
    obtain ⟨secrets, h⟩ := createKeystoneWalletIn_refines hexDecode password req
      (show t.manager.mnemonics w = none by rw [ht, hmnemonic])
    exact path_of_refines (.createKeystoneWallet _ _ _ w secrets) h

/-! ## The accounts of a new wallet -/

section Accounts

variable {env : CreateEnv} {w : WalletId} {s t : Installation}

theorem directories_onManager {op : Op Unit} : Keeps Installation.directories (onManager op) :=
  fun _ => rfl

variable {words : List String} {password : String} {u : Unit}

theorem directories_storeEncryptedMnemonic :
    Keeps Installation.directories (storeEncryptedMnemonic env w words) :=
  (storeEncryptedMnemonic_guarded env w words).keeps fun _ => rfl

theorem directories_insertRows {walletType : WalletType} {required : Bool} :
    Keeps Installation.directories (insertRows env w walletType required password) :=
  directories_onManager.bind fun _ => directories_onManager.bind fun _ => keeps_orFail.bind fun _ =>
    (insertWalletEncryption_guarded env w password).keeps fun _ => rfl

theorem directories_activateNew {walletType : WalletType} :
    Keeps Installation.directories (activateNew env w walletType) :=
  directories_onManager.bind fun _ => directories_onManager

/-- The database is created empty. -/
theorem openWalletDb_ok (hs : s.directories w = some ⟨none⟩)
    (hout : outcome (openWalletDb env w) s = (.ok u, t)) :
    t.directories w = some ⟨some Table.empty⟩ := by
  obtain rfl := (openWalletDb_guarded env w).state_eq hout
  simp [Installation.withDb, hs]

theorem addAccount_ok {keySource : Option String} {derivation : Option ZipAccountId}
    {message : String} {rest : CreateOp Unit} (hrest : Keeps Installation.directories rest)
    (hs : s.directories w = some ⟨some Table.empty⟩)
    (hout : outcome (do addAccount env w keySource derivation message; rest) s = (.ok u, t)) :
    ∃ uuid, t.directories w =
      some ⟨some ⟨[⟨uuid, keySource, derivation⟩], List.nodup_singleton _⟩⟩ := by
  obtain ⟨_, t₁, hadd, hrest'⟩ := ok_of_bind_ok hout
  rw [hrest.of_ok hrest', (addAccount_guarded ..).state_eq hadd]
  have hok : (withAccount env w keySource derivation s).isSome = true :=
    ((addAccount_guarded ..).succeeds_iff s).mp ⟨_, _, hadd⟩
  obtain ⟨uuid, huuid⟩ := (withAccount_isSome hs keySource derivation).mp hok
  refine ⟨uuid, ?_⟩
  simp [withAccount, hs, huuid, Table.insert, Table.empty]

def Installation.HasNewAccounts (s : Installation) (w : WalletId) : Prop :=
  ∃ db, s.directories w = some ⟨some db⟩ ∧ NewAccounts db

theorem createWalletIn_accounts {challengeId : ℕ} {indices : List ℕ}
    (hs : s.directories w = some ⟨none⟩)
    (hout : outcome (createWalletIn env w password challengeId indices words) s = (.ok u, t)) :
    t.HasNewAccounts w := by
  obtain ⟨_, s₁, hrows, hout⟩ := ok_of_bind_ok hout
  obtain ⟨_, s₂, hopen, hout⟩ := ok_of_bind_ok hout
  rw [← directories_insertRows.of_ok hrows] at hs
  obtain ⟨uuid, hdir⟩ := addAccount_ok
    (keeps_orFail.bind fun _ => keeps_orFail.bind fun _ =>
      directories_storeEncryptedMnemonic.bind fun _ => directories_onManager.bind fun _ =>
        keeps_orFail.bind fun _ => directories_onManager.bind fun _ => directories_activateNew)
    (openWalletDb_ok hs hopen) hout
  exact ⟨_, hdir, .software uuid⟩

theorem restoreWalletIn_accounts (hs : s.directories w = some ⟨none⟩)
    (hout : outcome (restoreWalletIn env w password words) s = (.ok u, t)) :
    t.HasNewAccounts w := by
  obtain ⟨_, s₁, hrows, hout⟩ := ok_of_bind_ok hout
  obtain ⟨_, s₂, hencrypt, hout⟩ := ok_of_bind_ok hout
  obtain ⟨_, s₃, hopen, hout⟩ := ok_of_bind_ok hout
  rw [← directories_insertRows.of_ok hrows,
    ← (keeps_orFail (π := Installation.directories)).of_ok hencrypt] at hs
  obtain ⟨uuid, hdir⟩ := addAccount_ok
    (keeps_orFail.bind fun _ => directories_storeEncryptedMnemonic.bind fun _ =>
      directories_onManager.bind fun _ => directories_activateNew) (openWalletDb_ok hs hopen) hout
  exact ⟨_, hdir, .software uuid⟩

theorem createKeystoneWalletIn_accounts {hexDecode : String → Except String (List UInt8)}
    {req : KeystoneRequest} (hs : s.directories w = some ⟨none⟩)
    (hout : outcome (createKeystoneWalletIn env hexDecode w password req) s = (.ok u, t)) :
    t.HasNewAccounts w := by
  obtain ⟨_, s₁, hrows, hout⟩ := ok_of_bind_ok hout
  obtain ⟨_, s₂, hopen, hout⟩ := ok_of_bind_ok hout
  obtain ⟨derivation, s₃, hpurpose, hout⟩ := ok_of_bind_ok hout
  rw [outcome_liftExcept, Prod.mk.injEq] at hpurpose
  obtain ⟨hpurpose, rfl⟩ := hpurpose
  rw [← directories_insertRows.of_ok hrows] at hs
  obtain ⟨uuid, hdir⟩ := addAccount_ok
    (keeps_orFail.bind fun _ => directories_onManager.bind fun _ => directories_activateNew)
    (openWalletDb_ok hs hopen) hout
  exact ⟨_, hdir, .keystone uuid hexDecode _ _ derivation hpurpose⟩

theorem newWallet_ok {α : Type} {name : String} {prepare : Except IpcError α}
    {body : α → CreateOp Unit} {a : α}
    (hout : outcome (newWallet env w name password prepare body) s = (.ok a, t)) :
    ∃ u, outcome (body a) (s.withDir w) = (.ok u, t) := by
  obtain ⟨_, s₁, hcheck, h₁⟩ := ok_of_bind_ok hout
  obtain ⟨b, s₂, hprepare, h₂⟩ := ok_of_bind_ok h₁
  obtain ⟨_, s₃, hdir, h₃⟩ := ok_of_bind_ok h₂
  obtain ⟨u, s₄, hbody, hret⟩ := ok_of_bind_ok h₃
  rw [outcome_liftExcept] at hcheck hprepare
  obtain rfl : s = s₁ := congrArg Prod.snd hcheck
  obtain rfl : s = s₂ := congrArg Prod.snd hprepare
  obtain rfl := (createDirAll_guarded env w).state_eq hdir
  obtain rfl : s₄ = t := congrArg Prod.snd hret
  obtain rfl : b = a := Except.ok.inj (congrArg Prod.fst hret)
  exact ⟨u, hbody⟩

end Accounts

/-- **A wallet that was created starts a run of its accounts.** -/
theorem newWallet_starts_accounts (call : NewWallet) {env : CreateEnv} {t : Installation}
    {name password : String} (hs : Reach walletSystem Free s.manager) (hw : s.Absent w)
    (hread : env.walletRead = true)
    (hout : outcome (call.run env w name password) s = (.ok (), t)) :
    ∃ db, t.directories w = some ⟨some db⟩ ∧ (accountSystem w).init ⟨t.manager, db⟩ := by
  have hreach : Reach walletSystem Free t.manager := by
    have hpath := newWallet_manager call name password hw hread
    rw [hout] at hpath
    exact hs.extend hpath
  have hdir := hw.prepared.2.2
  suffices t.HasNewAccounts w by
    obtain ⟨db, hdb, hnew⟩ := this
    exact ⟨db, hdb, hreach, hnew⟩
  cases call with
  | create mnemonic challengeId indices =>
    obtain ⟨words, t', hcall, hret⟩ := ok_of_bind_ok hout
    obtain rfl : t' = t := congrArg Prod.snd hret
    obtain ⟨u, hbody⟩ := newWallet_ok hcall
    exact createWalletIn_accounts hdir hbody
  | restore phrase =>
    obtain ⟨words, t', hcall, hret⟩ := ok_of_bind_ok hout
    obtain rfl : t' = t := congrArg Prod.snd hret
    obtain ⟨u, hbody⟩ := newWallet_ok hcall
    exact restoreWalletIn_accounts hdir hbody
  | keystone hexDecode req =>
    obtain ⟨u, hbody⟩ := newWallet_ok hout
    exact createKeystoneWalletIn_accounts hdir hbody

def plainKeystone : NewWallet := .keystone decodePairs ⟨.main, .ok .main, none, none⟩

theorem newWallet_starts_accounts_keystone : ∃ t db,
    outcome (plainKeystone.run (.works 1) 0 "Keystone" "secret") .fresh = (.ok (), t) ∧
      t.directories 0 = some ⟨some db⟩ ∧ (accountSystem 0).init ⟨t.manager, db⟩ := by
  obtain ⟨_, t, hout⟩ : Succeeds (plainKeystone.run (.works 1) 0 "Keystone" "secret") .fresh :=
    ⟨_, _, rfl⟩
  obtain ⟨db, h⟩ := newWallet_starts_accounts (s := .fresh) _ (.of_init rfl) rfl rfl hout
  exact ⟨t, db, hout, h⟩

end ZbagAccount
