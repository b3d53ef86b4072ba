import Zbag.Lib.Rerun
import Zbag.Lib.Table
import Zbag.Tor.Cli

/-!
# The app database — migrations

`apply_migrations` brings the database to version 3 by single statements, each committed on its own,
and records the version after each group. A crash leaves the statements before it done; the next run
starts with the group that is not recorded.

* `migrations_staged`, `exec_alike`: the groups may be repeated, and timestamps do not matter.
-/

namespace ZbagDb

open Rerun
open ZbagTor (TorRow seededTor)

/-! ## Tables -/

inductive Network
  | mainnet
  | testnet
  deriving DecidableEq, Repr

structure ServerRow where
  id : ℕ
  name : String
  grpcUrl : String
  network : Network
  isDefault : Bool
  lastSuccessAt : Option Int
  createdAt : Int
  deriving DecidableEq, Repr

structure FiatRow where
  enabled : Int
  currency : String
  privacyAcknowledged : Int
  deriving DecidableEq, Repr

/-- A row with its `updated_at`. -/
structure Timed (α : Type) where
  row : α
  updatedAt : Int
  deriving DecidableEq, Repr

structure MigrationRow where
  version : ℕ
  appliedAt : Int
  deriving DecidableEq, Repr

inductive UserTable
  | wallets
  | accounts
  | walletEncryption
  | backupStatus
  | swaps
  | receiveRotation
  deriving DecidableEq, Repr

/-- `none` is a table that does not exist. -/
structure Database (ρ : Type) where
  user : UserTable → Option (List ρ)
  servers : Option (Table ServerRow.id)
  oneDefaultIndex : Bool
  torSettings : Option (Option (Timed TorRow))
  fiatSettings : Option (Option (Timed FiatRow))
  appMigrations : Option (Table MigrationRow.version)

inductive TableName
  | user (t : UserTable)
  | servers
  | torSettings
  | fiatSettings
  | appMigrations
  deriving DecidableEq, Repr

inductive DbError
  | noSuchTable (t : TableName)
  | constraintFailed
  | newerVersion (version : ℕ)
  deriving DecidableEq, Repr

/-! ## Statements -/

inductive Stmt
  /-- `CREATE TABLE IF NOT EXISTS` -/
  | createTable (t : TableName)
  | createOneDefaultIndex
  /-- `INSERT OR IGNORE INTO servers` -/
  | seedServer (id : ℕ) (name grpcUrl : String) (network : Network) (isDefault : Bool)
  | seedTorSettings
  | seedFiatSettings
  | renameServer (id : ℕ) (name grpcUrl newName newUrl : String)
  /-- if it is not the default -/
  | deleteServer (id : ℕ) (name grpcUrl : String)
  /-- `INSERT INTO _app_migrations` -/
  | recordVersion (version : ℕ)
  deriving DecidableEq, Repr

/-- What the index demands. -/
def OneDefault (rows : Table ServerRow.id) : Prop :=
  ∀ a ∈ rows.rows, ∀ b ∈ rows.rows,
    a.isDefault = true → b.isDefault = true → a.network = b.network → a = b

instance (rows : Table ServerRow.id) : Decidable (OneDefault rows) :=
  inferInstanceAs (Decidable (∀ a ∈ rows.rows, ∀ b ∈ rows.rows,
    a.isDefault = true → b.isDefault = true → a.network = b.network → a = b))

def secondDefault (rows : Table ServerRow.id) (row : ServerRow) : Bool :=
  row.isDefault && rows.rows.any fun r => r.isDefault && r.network == row.network

def insertOrIgnore (index : Bool) (rows : Table ServerRow.id) (row : ServerRow) :
    Table ServerRow.id :=
  if index && secondDefault rows row then rows else (rows.insert row).getD rows

def ServerRow.is (r : ServerRow) (id : ℕ) (name grpcUrl : String) : Bool :=
  r.id == id && r.name == name && r.grpcUrl == grpcUrl

def ServerRow.rename (id : ℕ) (name grpcUrl newName newUrl : String) (r : ServerRow) : ServerRow :=
  if r.is id name grpcUrl then { r with name := newName, grpcUrl := newUrl } else r

theorem ServerRow.rename_id (id : ℕ) (name grpcUrl newName newUrl : String) (r : ServerRow) :
    (r.rename id name grpcUrl newName newUrl).id = r.id := by
  unfold rename
  split_ifs <;> rfl

namespace Database

variable {ρ : Type}

def empty : Database ρ := ⟨fun _ => none, none, false, none, none, none⟩

def createTable (d : Database ρ) : TableName → Database ρ
  | .user t => { d with user := Function.update d.user t (some ((d.user t).getD [])) }
  | .servers => { d with servers := some (d.servers.getD .empty) }
  | .torSettings => { d with torSettings := some (d.torSettings.getD none) }
  | .fiatSettings => { d with fiatSettings := some (d.fiatSettings.getD none) }
  | .appMigrations => { d with appMigrations := some (d.appMigrations.getD .empty) }

def onServers (d : Database ρ) (f : Table ServerRow.id → Table ServerRow.id) :
    Except DbError (Database ρ) :=
  match d.servers with
  | none => .error (.noSuchTable .servers)
  | some rows => .ok { d with servers := some (f rows) }

def version (d : Database ρ) : ℕ :=
  d.appMigrations.elim 0 fun t => t.rows.foldr (fun r v => max r.version v) 0

end Database

/-- A statement at the time `now`. -/
def Stmt.exec {ρ : Type} (now : Int) (b : Stmt) (d : Database ρ) : Except DbError (Database ρ) :=
  match b with
  | .createTable t => .ok (d.createTable t)
  | .createOneDefaultIndex =>
    match d.servers with
    | none => .error (.noSuchTable .servers)
    | some rows =>
      if d.oneDefaultIndex = true ∨ OneDefault rows then .ok { d with oneDefaultIndex := true }
      else .error .constraintFailed
  | .seedServer id name grpcUrl network isDefault =>
    d.onServers fun rows =>
      insertOrIgnore d.oneDefaultIndex rows ⟨id, name, grpcUrl, network, isDefault, none, now⟩
  | .seedTorSettings =>
    match d.torSettings with
    | none => .error (.noSuchTable .torSettings)
    | some row => .ok { d with torSettings := some (some (row.getD ⟨seededTor, now⟩)) }
  | .seedFiatSettings =>
    match d.fiatSettings with
    | none => .error (.noSuchTable .fiatSettings)
    | some row => .ok { d with fiatSettings := some (some (row.getD ⟨⟨0, "USD", 0⟩, now⟩)) }
  | .renameServer id name grpcUrl newName newUrl =>
    d.onServers fun rows =>
      rows.update (ServerRow.rename id name grpcUrl newName newUrl) (ServerRow.rename_id _ _ _ _ _)
  | .deleteServer id name grpcUrl =>
    d.onServers fun rows => rows.delete fun r => r.is id name grpcUrl && !r.isDefault
  | .recordVersion version =>
    match d.appMigrations with
    | none => .error (.noSuchTable .appMigrations)
    | some rows =>
      match rows.insert ⟨version, now⟩ with
      | none => .error .constraintFailed
      | some rows => .ok { d with appMigrations := some rows }

/-! ## The migrations -/

def latestVersion : ℕ := 3

def initialSchemaV1 : List Stmt :=
  [.createTable (.user .wallets), .createTable (.user .accounts),
    .createTable (.user .walletEncryption), .createTable (.user .backupStatus),
    .createTable .servers, .createOneDefaultIndex, .createTable .torSettings,
    .createTable (.user .swaps), .createTable (.user .receiveRotation),
    .createTable .appMigrations]

def seedServersV1 : List Stmt :=
  [.seedServer 1 "zec.rocks" "https://zec.rocks" .mainnet true,
    .seedServer 3 "na.zec.rocks" "https://na.zec.rocks" .mainnet false,
    .seedServer 4 "eu.zec.rocks" "https://eu.zec.rocks" .mainnet false,
    .seedServer 5 "sa.zec.rocks" "https://sa.zec.rocks" .mainnet false,
    .seedServer 6 "testnet.zec.rocks" "https://testnet.zec.rocks" .testnet true]

def applyV1 : List Stmt := initialSchemaV1 ++ seedServersV1 ++ [.seedTorSettings]

def applyV2 : List Stmt := [.createTable .fiatSettings, .seedFiatSettings]

def applyV3 : List Stmt :=
  [.renameServer 1 "lwd.zec.pro" "https://lwd.zec.pro" "zec.rocks" "https://zec.rocks",
    .deleteServer 2 "zec.rocks" "https://zec.rocks",
    .renameServer 6 "lwd.testnet.zec.pro" "https://lwd.testnet.zec.pro" "testnet.zec.rocks"
      "https://testnet.zec.rocks"]

/-- The groups that are missing, each followed by `record_version`. -/
def migrationScript (currentVersion : ℕ) : List Stmt :=
  (if currentVersion < 1 then applyV1 ++ [Stmt.recordVersion 1] else []) ++
  (if currentVersion < 2 then applyV2 ++ [Stmt.recordVersion 2] else []) ++
  (if currentVersion < 3 then applyV3 ++ [Stmt.recordVersion 3] else [])

section Migrate

variable {ρ : Type}

/-- `clock` gives every statement its time. -/
def applyMigrations (clock : Stmt → Int) (d : Database ρ) : Except DbError (Database ρ) :=
  let d := d.createTable .appMigrations
  if d.version > latestVersion then .error (.newerVersion d.version)
  else run Stmt.exec clock (migrationScript d.version) d

/-- The process dies after `k` statements. -/
def crash (clock : Stmt → Int) (k : ℕ) (d : Database ρ) : Database ρ :=
  after Stmt.exec clock ((.createTable .appMigrations :: migrationScript d.version).take k) d

end Migrate

/-! ## Timestamps aside -/

variable {ρ : Type}

def ServerRow.erase (r : ServerRow) : ServerRow := { r with createdAt := 0 }

theorem ServerRow.erase_id (r : ServerRow) : r.erase.id = r.id := rfl

def Timed.erase {α : Type} (r : Timed α) : Timed α := { r with updatedAt := 0 }

def MigrationRow.erase (r : MigrationRow) : MigrationRow := { r with appliedAt := 0 }

theorem MigrationRow.erase_version (r : MigrationRow) : r.erase.version = r.version := rfl

def eraseServers (t : Table ServerRow.id) : Table ServerRow.id :=
  t.update ServerRow.erase ServerRow.erase_id

def eraseMigrations (t : Table MigrationRow.version) : Table MigrationRow.version :=
  t.update MigrationRow.erase MigrationRow.erase_version

/-- Without the timestamps that the migrations write. -/
def Database.erase (d : Database ρ) : Database ρ :=
  { d with
    servers := d.servers.map eraseServers
    torSettings := d.torSettings.map (·.map Timed.erase)
    fiatSettings := d.fiatSettings.map (·.map Timed.erase)
    appMigrations := d.appMigrations.map eraseMigrations }

theorem secondDefault_erase (rows : Table ServerRow.id) (row : ServerRow) :
    secondDefault (eraseServers rows) row.erase = secondDefault rows row := by
  unfold secondDefault
  rw [eraseServers, Table.rows_update, List.any_map]
  rfl

theorem insertOrIgnore_erase (index : Bool) (rows : Table ServerRow.id) (row : ServerRow) :
    insertOrIgnore index (eraseServers rows) row.erase =
      eraseServers (insertOrIgnore index rows row) := by
  unfold insertOrIgnore
  rw [secondDefault_erase]
  split_ifs
  · rfl
  · rw [eraseServers, Table.insert_update]
    cases rows.insert row with
    | none | some t => rfl

theorem oneDefault_erase (rows : Table ServerRow.id) :
    OneDefault (eraseServers rows) ↔ OneDefault rows := by
  constructor
  · intro h a ha b hb hda hdb hnet
    have heq : a.erase = b.erase :=
      h a.erase (List.mem_map_of_mem ha) b.erase (List.mem_map_of_mem hb) hda hdb hnet
    exact rows.eq_of_key ha hb (by rw [← a.erase_id, heq, b.erase_id])
  · intro h a ha b hb hda hdb hnet
    obtain ⟨a₀, ha₀, rfl⟩ := List.mem_map.mp ha
    obtain ⟨b₀, hb₀, rfl⟩ := List.mem_map.mp hb
    rw [h a₀ ha₀ b₀ hb₀ hda hdb hnet]

theorem rename_erase (rows : Table ServerRow.id) (id : ℕ) (name grpcUrl newName newUrl : String) :
    eraseServers (rows.update (ServerRow.rename id name grpcUrl newName newUrl)
        (ServerRow.rename_id _ _ _ _ _)) =
      (eraseServers rows).update (ServerRow.rename id name grpcUrl newName newUrl)
        (ServerRow.rename_id _ _ _ _ _) := by
  have hrow (r : ServerRow) : (r.rename id name grpcUrl newName newUrl).erase =
      r.erase.rename id name grpcUrl newName newUrl := by
    have his : r.erase.is id name grpcUrl = r.is id name grpcUrl := rfl
    unfold ServerRow.rename
    rw [his]
    split_ifs <;> rfl
  ext1
  simp only [eraseServers, Table.rows_update, List.map_map]
  exact List.map_congr_left fun r _ => hrow r

theorem delete_erase (rows : Table ServerRow.id) (id : ℕ) (name grpcUrl : String) :
    eraseServers (rows.delete fun r => r.is id name grpcUrl && !r.isDefault) =
      (eraseServers rows).delete fun r => r.is id name grpcUrl && !r.isDefault := by
  ext1
  simp only [eraseServers, Table.rows_update, Table.rows_delete, List.filter_map]
  rfl

theorem createTable_erase (d : Database ρ) (t : TableName) :
    (d.createTable t).erase = d.erase.createTable t := by
  obtain ⟨user, servers, index, tor, fiat, migrations⟩ := d
  cases t with
  | user t => rfl
  | servers => cases servers <;> rfl
  | torSettings => cases tor <;> rfl
  | fiatSettings => cases fiat <;> rfl
  | appMigrations => cases migrations <;> rfl

theorem exec_erase (c : Int) (b : Stmt) (d : Database ρ) :
    (b.exec c d).map Database.erase = b.exec 0 d.erase := by
  obtain ⟨user, servers, index, tor, fiat, migrations⟩ := d
  cases b with
  | createTable t => exact congrArg Except.ok (createTable_erase _ t)
  | createOneDefaultIndex =>
    cases servers with
    | none => rfl
    | some rows =>
      simp only [Stmt.exec, Database.erase, Option.map_some, oneDefault_erase]
      split_ifs <;> rfl
  | seedServer id name grpcUrl network isDefault =>
    cases servers with
    | none => rfl
    | some rows =>
      simp only [Stmt.exec, Database.onServers, Database.erase, Except.map, Option.map_some,
        ← insertOrIgnore_erase]
      rfl
  | seedTorSettings =>
    cases tor with
    | none => rfl
    | some row => cases row <;> rfl
  | seedFiatSettings =>
    cases fiat with
    | none => rfl
    | some row => cases row <;> rfl
  | renameServer id name grpcUrl newName newUrl =>
    cases servers with
    | none => rfl
    | some rows =>
      simp only [Stmt.exec, Database.onServers, Database.erase, Except.map, Option.map_some,
        rename_erase]
  | deleteServer id name grpcUrl =>
    cases servers with
    | none => rfl
    | some rows =>
      simp only [Stmt.exec, Database.onServers, Database.erase, Except.map, Option.map_some,
        delete_erase]
  | recordVersion version =>
    cases migrations with
    | none => rfl
    | some rows =>
      have hinsert : (eraseMigrations rows).insert ⟨version, 0⟩ =
          (rows.insert ⟨version, c⟩).map eraseMigrations :=
        rows.insert_update MigrationRow.erase MigrationRow.erase_version ⟨version, c⟩
      simp only [Stmt.exec, Database.erase, Option.map_some, hinsert]
      cases rows.insert ⟨version, c⟩ with
      | none | some rows' => rfl

theorem exec_alike : Alike (Stmt.exec (ρ := ρ)) Database.erase := by
  intro c c' b d d' h
  rw [exec_erase, exec_erase, h]

/-! ## Statements that may be repeated -/

def Database.has (d : Database ρ) : TableName → Bool
  | .user t => (d.user t).isSome
  | .servers => d.servers.isSome
  | .torSettings => d.torSettings.isSome
  | .fiatSettings => d.fiatSettings.isSome
  | .appMigrations => d.appMigrations.isSome

def Ignored (index : Bool) (rows : Table ServerRow.id) (id : ℕ) (network : Network)
    (isDefault : Bool) : Prop :=
  (∃ r ∈ rows, r.id = id) ∨
    index = true ∧ isDefault = true ∧ ∃ r ∈ rows, r.isDefault = true ∧ r.network = network

def Stmt.touches : Stmt → ServerRow → Bool
  | .renameServer id name grpcUrl _ _, r => r.is id name grpcUrl
  | .deleteServer id name grpcUrl, r => r.is id name grpcUrl && !r.isDefault
  | _, _ => false

def Stmt.Done (b : Stmt) (d : Database ρ) : Prop :=
  match b with
  | .createTable t => d.has t = true
  | .createOneDefaultIndex => d.servers.isSome = true ∧ d.oneDefaultIndex = true
  | .seedServer id _ _ network isDefault =>
    ∃ rows ∈ d.servers, Ignored d.oneDefaultIndex rows id network isDefault
  | .seedTorSettings => ∃ row, d.torSettings = some (some row)
  | .seedFiatSettings => ∃ row, d.fiatSettings = some (some row)
  | .renameServer .. | .deleteServer .. => ∃ rows ∈ d.servers, ∀ r ∈ rows, b.touches r = false
  | .recordVersion _ => False

theorem insertOrIgnore_eq_self {index : Bool} {rows : Table ServerRow.id} {row : ServerRow}
    (h : Ignored index rows row.id row.network row.isDefault) :
    insertOrIgnore index rows row = rows := by
  unfold insertOrIgnore
  split_ifs with hsecond
  · rfl
  · rcases h with ⟨r, hr, hid⟩ | ⟨rfl, hdefault, r, hr, hr', hnet⟩
    · have hmem : row.id ∈ rows.rows.map ServerRow.id := hid ▸ List.mem_map_of_mem hr
      rw [Table.insert, dif_pos hmem]
      rfl
    · refine absurd ?_ hsecond
      simp only [secondDefault, Bool.true_and, hdefault, List.any_eq_true]
      exact ⟨r, hr, by simp [hr', hnet]⟩

theorem ignored_insertOrIgnore (index : Bool) (rows : Table ServerRow.id) (row : ServerRow) :
    Ignored index (insertOrIgnore index rows row) row.id row.network row.isDefault := by
  unfold insertOrIgnore
  split_ifs with hsecond
  · simp only [secondDefault, Bool.and_eq_true, List.any_eq_true, beq_iff_eq] at hsecond
    obtain ⟨hindex, hdefault, r, hr, hr', hnet⟩ := hsecond
    exact .inr ⟨hindex, hdefault, r, hr, hr', hnet⟩
  · refine .inl ?_
    unfold Table.insert
    split_ifs with hmem
    · obtain ⟨r, hr, hid⟩ := List.mem_map.mp hmem
      exact ⟨r, hr, hid⟩
    · exact ⟨row, List.mem_cons_self, rfl⟩

variable {r : ServerRow} {d : Database ρ} {b : Stmt} {d' : Database ρ} {c : Int} {v : ℕ}

theorem mem_insertOrIgnore {index : Bool} {rows : Table ServerRow.id} {row : ServerRow}
    (h : r ∈ rows) : r ∈ insertOrIgnore index rows row := by
  unfold insertOrIgnore Table.insert
  split_ifs
  · exact h
  · exact h
  · exact List.mem_cons_of_mem _ h

theorem createTable_eq_self {t : TableName} (h : d.has t = true) : d.createTable t = d := by
  obtain ⟨user, servers, index, tor, fiat, migrations⟩ := d
  cases t with
  | user t =>
    obtain ⟨rows, hrows⟩ : ∃ rows, user t = some rows := Option.isSome_iff_exists.mp h
    simp only [Database.createTable, hrows, Option.getD_some]
    rw [← hrows, Function.update_eq_self]
  | servers | torSettings | fiatSettings | appMigrations =>
    obtain ⟨rows, rfl⟩ := Option.isSome_iff_exists.mp h
    rfl

theorem settled_of_done (b : Stmt) (d : Database ρ) (h : b.Done d) : Settled Stmt.exec b d := by
  intro c
  cases b with
  | createTable t => exact congrArg Except.ok (createTable_eq_self h)
  | createOneDefaultIndex =>
    obtain ⟨user, servers, index, tor, fiat, migrations⟩ := d
    obtain ⟨hservers, rfl⟩ := h
    obtain ⟨rows, rfl⟩ := Option.isSome_iff_exists.mp hservers
    rfl
  | seedServer id name grpcUrl network isDefault =>
    obtain ⟨user, servers, index, tor, fiat, migrations⟩ := d
    obtain ⟨rows, rfl, hrows⟩ := h
    have hself : insertOrIgnore index rows ⟨id, name, grpcUrl, network, isDefault, none, c⟩ =
        rows := insertOrIgnore_eq_self hrows
    simp only [Stmt.exec, Database.onServers, hself]
  | seedTorSettings | seedFiatSettings =>
    obtain ⟨user, servers, index, tor, fiat, migrations⟩ := d
    obtain ⟨row, rfl⟩ := h
    rfl
  | renameServer id name grpcUrl newName newUrl =>
    obtain ⟨user, servers, index, tor, fiat, migrations⟩ := d
    obtain ⟨rows, rfl, hrows⟩ := h
    have hself : rows.update (ServerRow.rename id name grpcUrl newName newUrl)
        (ServerRow.rename_id _ _ _ _ _) = rows := by
      ext1
      have hrow : ∀ r ∈ rows.rows, r.rename id name grpcUrl newName newUrl = r := by
        intro r hr
        exact if_neg (ne_true_of_eq_false (hrows r hr))
      exact (List.map_congr_left hrow).trans (List.map_id' _)
    simp only [Stmt.exec, Database.onServers, hself]
  | deleteServer id name grpcUrl =>
    obtain ⟨user, servers, index, tor, fiat, migrations⟩ := d
    obtain ⟨rows, rfl, hrows⟩ := h
    have hself : rows.delete (fun r => r.is id name grpcUrl && !r.isDefault) = rows := by
      ext1
      rw [Table.rows_delete, List.filter_eq_self]
      intro r hr
      exact congrArg not (hrows r hr)
    simp only [Stmt.exec, Database.onServers, hself]
  | recordVersion version => exact h.elim

/-! ### Statements that add something -/

def Stmt.adds : Stmt → Bool
  | .createTable _ | .createOneDefaultIndex | .seedServer .. | .seedTorSettings
  | .seedFiatSettings => true
  | _ => false

/-- All is in the second but for servers that do not satisfy `p`. -/
structure Database.Keeps (p : ServerRow → Prop) (d d' : Database ρ) : Prop where
  has : ∀ t, d.has t = true → d'.has t = true
  index : d.oneDefaultIndex = true → d'.oneDefaultIndex = true
  user : ∀ t rows, d.user t = some rows → d'.user t = some rows
  servers : ∀ rows ∈ d.servers, ∃ rows' ∈ d'.servers, ∀ r ∈ rows, p r → r ∈ rows'
  tor : ∀ row, d.torSettings = some (some row) → d'.torSettings = some (some row)
  fiat : ∀ row, d.fiatSettings = some (some row) → d'.fiatSettings = some (some row)
  migrations : ∀ rows ∈ d.appMigrations, ∃ rows' ∈ d'.appMigrations, ∀ r ∈ rows, r ∈ rows'

abbrev Database.Grows (d d' : Database ρ) : Prop := d.Keeps (fun _ => True) d'

namespace Database.Keeps

variable {p : ServerRow → Prop} {d d' d'' : Database ρ}

theorem refl (p : ServerRow → Prop) (d : Database ρ) : d.Keeps p d :=
  ⟨fun _ h => h, fun h => h, fun _ _ h => h, fun rows h => ⟨rows, h, fun _ hr _ => hr⟩,
    fun _ h => h, fun _ h => h, fun rows h => ⟨rows, h, fun _ hr => hr⟩⟩

theorem trans (h : d.Keeps p d') (h' : d'.Keeps p d'') : d.Keeps p d'' where
  has t ht := h'.has t (h.has t ht)
  index hi := h'.index (h.index hi)
  user t rows hrows := h'.user t rows (h.user t rows hrows)
  servers rows hrows := by
    obtain ⟨rows', hrows', hsub⟩ := h.servers rows hrows
    obtain ⟨rows'', hrows'', hsub'⟩ := h'.servers rows' hrows'
    exact ⟨rows'', hrows'', fun r hr hp => hsub' r (hsub r hr hp) hp⟩
  tor row hrow := h'.tor row (h.tor row hrow)
  fiat row hrow := h'.fiat row (h.fiat row hrow)
  migrations rows hrows := by
    obtain ⟨rows', hrows', hsub⟩ := h.migrations rows hrows
    obtain ⟨rows'', hrows'', hsub'⟩ := h'.migrations rows' hrows'
    exact ⟨rows'', hrows'', fun r hr => hsub' r (hsub r hr)⟩

theorem of_servers {rows rows' : Table ServerRow.id} (hrows : d.servers = some rows)
    (hsub : ∀ r ∈ rows, p r → r ∈ rows') : d.Keeps p { d with servers := some rows' } where
  has t ht := by cases t <;> first | rfl | exact ht
  index h := h
  user _ _ h := h
  servers rows₀ hrows₀ := by
    obtain rfl := Option.some.inj (hrows.symm.trans hrows₀)
    exact ⟨rows', rfl, hsub⟩
  tor _ h := h
  fiat _ h := h
  migrations rows₀ h := ⟨rows₀, h, fun _ hr => hr⟩

theorem of_grows (h : d.Grows d') : d.Keeps p d' :=
  { h with
    servers := fun rows hrows => by
      obtain ⟨rows', hrows', hsub⟩ := h.servers rows hrows
      exact ⟨rows', hrows', fun r hr _ => hsub r hr trivial⟩ }

end Database.Keeps

theorem done_grows (hb : b.adds = true) (h : d.Grows d') (hdone : b.Done d) : b.Done d' := by
  cases b with
  | createTable t => exact h.has t hdone
  | createOneDefaultIndex => exact ⟨h.has .servers hdone.1, h.index hdone.2⟩
  | seedServer id name grpcUrl network isDefault =>
    obtain ⟨rows, hrows, hignored⟩ := hdone
    obtain ⟨rows', hrows', hsub⟩ := h.servers rows hrows
    refine ⟨rows', hrows', ?_⟩
    rcases hignored with ⟨r, hr, hid⟩ | ⟨hindex, hdefault, r, hr, hrest⟩
    · exact .inl ⟨r, hsub r hr trivial, hid⟩
    · exact .inr ⟨h.index hindex, hdefault, r, hsub r hr trivial, hrest⟩
  | seedTorSettings =>
    obtain ⟨row, hrow⟩ := hdone
    exact ⟨row, h.tor row hrow⟩
  | seedFiatSettings =>
    obtain ⟨row, hrow⟩ := hdone
    exact ⟨row, h.fiat row hrow⟩
  | renameServer | deleteServer | recordVersion => cases hb

theorem has_createTable (d : Database ρ) (t t' : TableName) :
    (d.createTable t).has t' = true ↔ d.has t' = true ∨ t' = t := by
  cases t with
  | user t =>
    cases t' with
    | user t' =>
      by_cases h : t' = t
      · subst h
        simp [Database.createTable, Database.has]
      · simp [Database.createTable, Database.has, h]
    | servers | torSettings | fiatSettings | appMigrations =>
      simp [Database.createTable, Database.has]
  | servers | torSettings | fiatSettings | appMigrations =>
    cases t' <;> simp [Database.createTable, Database.has]

theorem createTable_grows (d : Database ρ) (t : TableName) : d.Grows (d.createTable t) := by
  refine ⟨fun t' h => (has_createTable d t t').mpr (.inl h), ?_, ?_, ?_, ?_, ?_, ?_⟩
  · cases t <;> exact id
  · intro t' rows hrows
    cases t with
    | user t =>
      by_cases h : t' = t
      · subst h
        simp [Database.createTable, hrows]
      · simp [Database.createTable, h, hrows]
    | servers | torSettings | fiatSettings | appMigrations => exact hrows
  · intro rows hrows
    refine ⟨rows, ?_, fun _ hr _ => hr⟩
    cases t <;> simp_all [Database.createTable]
  · intro row hrow
    cases t <;> simp_all [Database.createTable]
  · intro row hrow
    cases t <;> simp_all [Database.createTable]
  · intro rows hrows
    refine ⟨rows, ?_, fun _ hr => hr⟩
    cases t <;> simp_all [Database.createTable]

theorem onServers_ok {f : Table ServerRow.id → Table ServerRow.id} (h : d.onServers f = .ok d') :
    ∃ rows, d.servers = some rows ∧ d' = { d with servers := some (f rows) } := by
  unfold Database.onServers at h
  split at h
  · cases h
  · rename_i rows hrows
    cases h
    exact ⟨rows, hrows, rfl⟩

theorem createOneDefaultIndex_ok (h : Stmt.createOneDefaultIndex.exec c d = .ok d') :
    d.servers.isSome = true ∧ d' = { d with oneDefaultIndex := true } := by
  simp only [Stmt.exec] at h
  split at h
  · cases h
  · rename_i rows hrows
    split_ifs at h
    cases h
    exact ⟨by rw [hrows]; rfl, rfl⟩

theorem exec_grows (hb : b.adds = true) (h : b.exec c d = .ok d') : d.Grows d' := by
  have hrefl := Database.Keeps.refl (fun _ => True) d
  cases b with
  | createTable t =>
    cases h
    exact createTable_grows d t
  | createOneDefaultIndex =>
    obtain ⟨-, rfl⟩ := createOneDefaultIndex_ok h
    exact { hrefl with has := fun t ht => by cases t <;> exact ht, index := fun _ => rfl }
  | seedServer id name grpcUrl network isDefault =>
    obtain ⟨rows, hrows, rfl⟩ := onServers_ok h
    exact .of_servers hrows fun r hr _ => mem_insertOrIgnore hr
  | seedTorSettings =>
    simp only [Stmt.exec] at h
    split at h
    · cases h
    · rename_i row hrow
      cases h
      refine { hrefl with has := fun t ht => ?_, tor := fun r hr => ?_ }
      · cases t <;> first | rfl | exact ht
      · obtain rfl := Option.some.inj (hrow.symm.trans hr)
        rfl
  | seedFiatSettings =>
    simp only [Stmt.exec] at h
    split at h
    · cases h
    · rename_i row hrow
      cases h
      refine { hrefl with has := fun t ht => ?_, fiat := fun r hr => ?_ }
      · cases t <;> first | rfl | exact ht
      · obtain rfl := Option.some.inj (hrow.symm.trans hr)
        rfl
  | renameServer | deleteServer | recordVersion => cases hb

theorem done_of_adds (hb : b.adds = true) (h : b.exec c d = .ok d') : b.Done d' := by
  cases b with
  | createTable t =>
    cases h
    exact (has_createTable d t t).mpr (.inr rfl)
  | createOneDefaultIndex =>
    obtain ⟨hservers, rfl⟩ := createOneDefaultIndex_ok h
    exact ⟨hservers, rfl⟩
  | seedServer id name grpcUrl network isDefault =>
    obtain ⟨rows, -, rfl⟩ := onServers_ok h
    exact ⟨_, rfl, ignored_insertOrIgnore ..⟩
  | seedTorSettings | seedFiatSettings =>
    simp only [Stmt.exec] at h
    split at h
    · cases h
    · cases h
      exact ⟨_, rfl⟩
  | renameServer | deleteServer | recordVersion => cases hb

theorem repeatable_of_adds {l : List Stmt} (h : ∀ b ∈ l, b.adds = true) :
    Repeatable (Stmt.exec (ρ := ρ)) l :=
  .of_done settled_of_done (fun b hb _ _ _ hexec => done_of_adds (h b hb) hexec)
    fun b hb b' hb' _ _ _ hdone hexec => done_grows (h b hb) (exec_grows (h b' hb') hexec) hdone

/-! ### The statements of version 3 -/

theorem mem_update_rename {rows : Table ServerRow.id} {id : ℕ}
    {name grpcUrl newName newUrl : String}
    (h : r ∈ rows.update (ServerRow.rename id name grpcUrl newName newUrl)
      (ServerRow.rename_id _ _ _ _ _)) :
    r ∈ rows ∧ r.is id name grpcUrl = false ∨ r.id = id ∧ r.name = newName := by
  obtain ⟨r₀, hr₀, rfl⟩ := Table.mem_update.mp h
  unfold ServerRow.rename
  split_ifs with his
  · simp only [ServerRow.is, Bool.and_eq_true, beq_iff_eq] at his
    exact .inr ⟨his.1.1, rfl⟩
  · exact .inl ⟨hr₀, by simpa using his⟩

theorem mem_update_of_not_is {rows : Table ServerRow.id} {id : ℕ}
    {name grpcUrl newName newUrl : String} (hr : r ∈ rows) (his : r.is id name grpcUrl = false) :
    r ∈ rows.update (ServerRow.rename id name grpcUrl newName newUrl)
      (ServerRow.rename_id _ _ _ _ _) :=
  Table.mem_update.mpr ⟨r, hr, if_neg (ne_true_of_eq_false his)⟩

theorem rows_of_applyV3 (hb : b ∈ applyV3) (h : b.exec c d = .ok d') :
    ∃ rows rows', d.servers = some rows ∧ d' = { d with servers := some rows' } ∧
      (∀ r ∈ rows, b.touches r = false → r ∈ rows') ∧
      ∀ r ∈ rows', r ∈ rows ∧ b.touches r = false ∨ ∀ b' ∈ applyV3, b'.touches r = false := by
  simp only [applyV3, List.mem_cons, List.not_mem_nil, or_false] at hb
  rcases hb with rfl | rfl | rfl
  · obtain ⟨rows, hrows, rfl⟩ := onServers_ok h
    refine ⟨rows, _, hrows, rfl, fun r hr => mem_update_of_not_is hr, fun r hr => ?_⟩
    refine (mem_update_rename hr).imp_right ?_
    rintro ⟨hid, hname⟩
    simp [applyV3, Stmt.touches, ServerRow.is, hid, hname]
  · obtain ⟨rows, hrows, rfl⟩ := onServers_ok h
    exact ⟨rows, _, hrows, rfl, fun r hr ht => Table.mem_delete.mpr ⟨hr, ht⟩,
      fun r hr => .inl (Table.mem_delete.mp hr)⟩
  · obtain ⟨rows, hrows, rfl⟩ := onServers_ok h
    refine ⟨rows, _, hrows, rfl, fun r hr => mem_update_of_not_is hr, fun r hr => ?_⟩
    refine (mem_update_rename hr).imp_right ?_
    rintro ⟨hid, hname⟩
    simp [applyV3, Stmt.touches, ServerRow.is, hid, hname]

theorem repeatable_applyV3 : Repeatable (Stmt.exec (ρ := ρ)) applyV3 := by
  have hshape : ∀ b ∈ applyV3, ∀ d : Database ρ,
      b.Done d ↔ ∃ rows ∈ d.servers, ∀ r ∈ rows, b.touches r = false := by
    intro b hb d
    simp only [applyV3, List.mem_cons, List.not_mem_nil, or_false] at hb
    rcases hb with rfl | rfl | rfl <;> exact Iff.rfl
  refine .of_done settled_of_done (fun b hb c d d' hexec => ?_) ?_
  · obtain ⟨rows, rows', -, rfl, -, hsub⟩ := rows_of_applyV3 hb hexec
    rw [hshape b hb]
    exact ⟨rows', rfl, fun r hr => (hsub r hr).elim And.right fun hall => hall b hb⟩
  · intro b hb b' hb' c d d' hdone hexec
    obtain ⟨rows, rows', hrows, rfl, -, hsub⟩ := rows_of_applyV3 hb' hexec
    rw [hshape b hb] at hdone ⊢
    obtain ⟨rows₀, hrows₀, hdone⟩ := hdone
    obtain rfl := Option.some.inj (hrows.symm.trans hrows₀)
    exact ⟨rows', rfl, fun r hr =>
      (hsub r hr).elim (fun hold => hdone r hold.1) fun hall => hall b hb⟩

/-! ## The groups as stages -/

def migration : ℕ → List Stmt
  | 0 => applyV1
  | 1 => applyV2
  | 2 => applyV3
  | _ => []

theorem migrationScript_eq (h : v ≤ latestVersion) :
    migrationScript v =
      script migration (fun v => .recordVersion (v + 1)) v (latestVersion - v) := by
  match v, h with
  | 0, _ | 1, _ | 2, _ | 3, _ => rfl

theorem version_createTable (d : Database ρ) (t : TableName) :
    (d.createTable t).version = d.version := by
  obtain ⟨user, servers, index, tor, fiat, migrations⟩ := d
  cases t with
  | appMigrations => cases migrations <;> rfl
  | user | servers | torSettings | fiatSettings => rfl

theorem version_of_adds (hb : b.adds = true) (h : b.exec c d = .ok d') :
    d'.version = d.version := by
  cases b with
  | createTable t =>
    cases h
    exact version_createTable d t
  | createOneDefaultIndex =>
    obtain ⟨-, rfl⟩ := createOneDefaultIndex_ok h
    rfl
  | seedServer id name grpcUrl network isDefault =>
    obtain ⟨rows, -, rfl⟩ := onServers_ok h
    rfl
  | seedTorSettings | seedFiatSettings =>
    simp only [Stmt.exec] at h
    split at h
    · cases h
    · cases h
      rfl
  | renameServer | deleteServer | recordVersion => cases hb

theorem recordVersion_ok (h : (Stmt.recordVersion v).exec c d = .ok d') :
    ∃ rows rows', d.appMigrations = some rows ∧ rows.insert ⟨v, c⟩ = some rows' ∧
      d' = { d with appMigrations := some rows' } := by
  simp only [Stmt.exec] at h
  split at h
  · cases h
  · rename_i rows hrows
    split at h
    · cases h
    · rename_i rows' hinsert
      cases h
      exact ⟨rows, rows', hrows, hinsert, rfl⟩

theorem adds_applyV1 : ∀ b ∈ applyV1, b.adds = true := by decide

theorem adds_applyV2 : ∀ b ∈ applyV2, b.adds = true := by decide

/-- **The migrations are stages.** -/
theorem migrations_staged : Staged (Stmt.exec (ρ := ρ)) migration
    (fun v => .recordVersion (v + 1)) Database.version where
  repeatable v := by
    match v with
    | 0 => exact repeatable_of_adds adds_applyV1
    | 1 => exact repeatable_of_adds adds_applyV2
    | 2 => exact repeatable_applyV3
    | v + 3 => exact repeatable_of_adds (by simp [migration])
  keep v b hb c d d' h := by
    match v with
    | 0 => exact version_of_adds (adds_applyV1 b hb) h
    | 1 => exact version_of_adds (adds_applyV2 b hb) h
    | 2 =>
      obtain ⟨rows, rows', -, rfl, -, -⟩ := rows_of_applyV3 hb h
      rfl
    | v + 3 => cases hb
  mark v c d d' hv h := by
    obtain ⟨rows, rows', hrows, hinsert, rfl⟩ := recordVersion_ok h
    rw [Database.version, hrows] at hv
    rw [Database.version, Option.elim_some, Table.rows_insert hinsert, List.foldr_cons]
    have hmax : rows.rows.foldr (fun r v => max r.version v) 0 = v := hv
    rw [hmax]
    exact Nat.max_eq_left (Nat.le_succ v)

/-! ## Runs that succeed -/

/-- What a release leaves behind, with any rows of the user. -/
structure Database.Earlier (d : Database ρ) : Prop where
  version : d.version ≤ latestVersion
  servers : 1 ≤ d.version → d.servers.isSome = true
  oneDefault : ∀ rows ∈ d.servers, OneDefault rows

/-- The tables of the group are there, or it creates them. -/
structure Database.Ready (d : Database ρ) : Prop where
  migrations : d.appMigrations.isSome = true
  servers : 1 ≤ d.version → d.servers.isSome = true
  oneDefault : d.version = 0 → ∀ rows ∈ d.servers, OneDefault rows

theorem applyV1_ok (clock : Stmt → Int) (h : ∀ rows ∈ d.servers, OneDefault rows) :
    ∃ d', run Stmt.exec clock applyV1 d = .ok d' ∧ d'.appMigrations.isSome = true ∧
      d'.servers.isSome = true := by
  have hone : OneDefault (d.servers.getD .empty) := by
    cases hd : d.servers with
    | none =>
      intro a ha
      cases ha
    | some rows => exact h rows hd
  simp [applyV1, initialSchemaV1, seedServersV1, run, Stmt.exec, Database.createTable,
    Database.onServers, hone]

theorem applyV2_ok (clock : Stmt → Int) (d : Database ρ) :
    ∃ d', run Stmt.exec clock applyV2 d = .ok d' ∧ d'.appMigrations = d.appMigrations ∧
      d'.servers = d.servers := by
  simp [applyV2, run, Stmt.exec, Database.createTable]

theorem applyV3_ok (clock : Stmt → Int) (h : d.servers.isSome = true) :
    ∃ d', run Stmt.exec clock applyV3 d = .ok d' ∧ d'.appMigrations = d.appMigrations ∧
      d'.servers.isSome = true := by
  obtain ⟨rows, hrows⟩ := Option.isSome_iff_exists.mp h
  simp [applyV3, run, Stmt.exec, Database.onServers, hrows]

theorem migration_ok (clock : Stmt → Int) (h : d.Ready) (hv : d.version < latestVersion) :
    ∃ d', run Stmt.exec clock (migration d.version) d = .ok d' ∧
      d'.appMigrations.isSome = true ∧ d'.servers.isSome = true := by
  obtain hv | hv | hv : d.version = 0 ∨ d.version = 1 ∨ d.version = 2 := by
    unfold latestVersion at hv
    omega
  · rw [hv]
    exact applyV1_ok clock (h.oneDefault hv)
  · rw [hv]
    obtain ⟨d', hrun, hmig, hservers⟩ := applyV2_ok clock d
    exact ⟨d', hrun, hmig ▸ h.migrations, hservers ▸ h.servers (by omega)⟩
  · rw [hv]
    obtain ⟨d', hrun, hmig, hservers⟩ := applyV3_ok clock (h.servers (by omega))
    exact ⟨d', hrun, hmig ▸ h.migrations, hservers⟩

theorem le_foldr_version {l : List MigrationRow} {r : MigrationRow} (h : r ∈ l) :
    r.version ≤ l.foldr (fun r v => max r.version v) 0 := by
  induction l with
  | nil => cases h
  | cons a l ih =>
    rw [List.foldr_cons]
    rcases List.mem_cons.mp h with rfl | h
    · exact Nat.le_max_left _ _
    · exact Nat.le_trans (ih h) (Nat.le_max_right _ _)

theorem recordVersion_succeeds (c : Int) (h : d.appMigrations.isSome = true) :
    ∃ d', (Stmt.recordVersion (d.version + 1)).exec c d = .ok d' ∧
      d'.appMigrations.isSome = true ∧ d'.servers = d.servers := by
  obtain ⟨rows, hrows⟩ := Option.isSome_iff_exists.mp h
  have hfresh : ∀ r ∈ rows, r.version ≠ d.version + 1 := by
    intro r hr
    have hle : r.version ≤ d.version := by
      rw [Database.version, hrows]
      exact le_foldr_version hr
    omega
  obtain ⟨rows', hinsert⟩ := Table.insert_of_fresh (a := MigrationRow.mk (d.version + 1) c) hfresh
  refine ⟨{ d with appMigrations := some rows' }, ?_, rfl, rfl⟩
  simp only [Stmt.exec, hrows, hinsert]

theorem stage_ok (clock : Stmt → Int) (h : d.Ready) (hv : d.version < latestVersion) :
    ∃ d', run Stmt.exec clock (migration d.version ++ [.recordVersion (d.version + 1)]) d = .ok d' ∧
      d'.Ready ∧ d'.version = d.version + 1 := by
  obtain ⟨d₁, hrun, hmig, hservers⟩ := migration_ok clock h hv
  have hv₁ : d₁.version = d.version := migrations_staged.version_run (List.Subset.refl _) hrun
  obtain ⟨d', hrecord, hmig', hservers'⟩ :=
    recordVersion_succeeds (clock (.recordVersion (d.version + 1))) hmig
  rw [hv₁] at hrecord
  have hall : run Stmt.exec clock (migration d.version ++ [.recordVersion (d.version + 1)]) d =
      .ok d' := by
    rw [run_append hrun, run, hrecord]
    rfl
  have hv' : d'.version = d.version + 1 := migrations_staged.version_mark rfl hall
  exact ⟨d', hall, ⟨hmig', fun _ => hservers' ▸ hservers, fun h0 => by omega⟩, hv'⟩

theorem script_ok (clock : Stmt → Int) (n : ℕ) (h : d.Ready) (hn : d.version + n = latestVersion) :
    ∃ d', run Stmt.exec clock (script migration (fun v => .recordVersion (v + 1)) d.version n) d =
      .ok d' ∧ d'.version = latestVersion := by
  induction n generalizing d with
  | zero => exact ⟨d, rfl, hn⟩
  | succ n ih =>
    obtain ⟨d₁, hstage, hready, hv⟩ := stage_ok clock h (by omega)
    obtain ⟨d', hrest, hlatest⟩ := ih hready (by omega)
    refine ⟨d', ?_, hlatest⟩
    rw [script, List.append_cons, run_append hstage, ← hv]
    exact hrest

theorem applyMigrations_eq (clock : Stmt → Int) (h : d.version ≤ latestVersion) :
    applyMigrations clock d =
      run Stmt.exec clock (script migration (fun v => .recordVersion (v + 1)) d.version
        (latestVersion - d.version)) (d.createTable .appMigrations) := by
  unfold applyMigrations
  dsimp only
  rw [version_createTable, if_neg (Nat.not_lt.mpr h), migrationScript_eq h]

/-- **An uninterrupted run succeeds.** -/
theorem applyMigrations_ok (clock : Stmt → Int) (h : d.Earlier) :
    ∃ d', applyMigrations clock d = .ok d' ∧ d'.version = latestVersion := by
  have hversion := version_createTable d .appMigrations
  have hservers : (d.createTable .appMigrations).servers = d.servers := rfl
  have hready : (d.createTable .appMigrations).Ready := by
    refine ⟨rfl, fun hv => ?_, fun _ rows hrows => ?_⟩
    · exact h.servers (hversion ▸ hv)
    · exact h.oneDefault rows hrows
  have hle := h.version
  rw [applyMigrations_eq clock h.version, ← hversion]
  exact script_ok clock _ hready (by omega)

/-! ## Crashes -/

def Unnamed (r : ServerRow) : Prop := ∀ b ∈ applyV3, b.touches r = false

theorem mem_group {c : Prop} [Decidable c] {l : List Stmt} {n : ℕ}
    (h : b ∈ if c then l ++ [.recordVersion n] else []) : b ∈ l ∨ ∃ v, b = .recordVersion v := by
  split_ifs at h
  · exact (List.mem_append.mp h).imp_right fun hn => ⟨n, List.mem_singleton.mp hn⟩
  · cases h

theorem mem_migrationScript (h : b ∈ .createTable .appMigrations :: migrationScript v) :
    b.adds = true ∨ b ∈ applyV3 ∨ ∃ v, b = .recordVersion v := by
  rcases List.mem_cons.mp h with rfl | h
  · exact .inl rfl
  · unfold migrationScript at h
    simp only [List.mem_append, or_assoc] at h
    rcases h with h | h | h
    · exact (mem_group h).imp (adds_applyV1 b) .inr
    · exact (mem_group h).imp (adds_applyV2 b) .inr
    · exact .inr (mem_group h)

/-- **Only the rows that `apply_v3` names are changed.** -/
theorem exec_keeps (hb : b ∈ .createTable .appMigrations :: migrationScript v)
    (h : b.exec c d = .ok d') : d.Keeps Unnamed d' := by
  rcases mem_migrationScript hb with hadds | hv3 | ⟨v, rfl⟩
  · exact .of_grows (exec_grows hadds h)
  · obtain ⟨rows, rows', hrows, rfl, hsub, -⟩ := rows_of_applyV3 hv3 h
    exact .of_servers hrows fun r hr hr' => hsub r hr (hr' b hv3)
  · obtain ⟨rows, rows', hrows, hinsert, rfl⟩ := recordVersion_ok h
    refine { Database.Keeps.refl Unnamed d with has := fun t ht => ?_, migrations := ?_ }
    · cases t <;> first | rfl | exact ht
    · intro rows₀ hrows₀
      obtain rfl := Option.some.inj (hrows.symm.trans hrows₀)
      exact ⟨rows', rfl, fun r hr => (Table.mem_insert hinsert).mpr (.inr hr)⟩

/-- A run from here ends with this content, whatever its times. -/
def Database.EndsWith (d content : Database ρ) : Prop :=
  d.version ≤ latestVersion ∧ ∀ clock, ∃ r, applyMigrations clock d = .ok r ∧ r.erase = content

theorem crash_succ (clock : Stmt → Int) (k : ℕ) (d : Database ρ) :
    crash clock (k + 1) d = after Stmt.exec clock ((migrationScript d.version).take k)
      (d.createTable .appMigrations) := rfl

theorem createTable_crash_succ (clock : Stmt → Int) (k : ℕ) (d : Database ρ) :
    (crash clock (k + 1) d).createTable .appMigrations = crash clock (k + 1) d := by
  refine createTable_eq_self ?_
  rw [crash_succ]
  refine after_invariant (I := fun d : Database ρ => d.has .appMigrations = true)
    (fun b hb c s t hs hexec => ?_) ((has_createTable d _ _).mpr (.inr rfl))
  exact (exec_keeps (List.mem_cons_of_mem _ (List.mem_of_mem_take hb)) hexec).has _ hs

/-- **A crash does not change how a run ends.** -/
theorem endsWith_crash {content : Database ρ} (h : d.EndsWith content) (clock : Stmt → Int)
    (k : ℕ) : (crash clock k d).EndsWith content := by
  obtain ⟨hle, hends⟩ := h
  cases k with
  | zero => exact ⟨hle, hends⟩
  | succ k =>
    obtain ⟨r, hr, hcontent⟩ := hends clock
    rw [applyMigrations_eq clock hle, ← version_createTable d .appMigrations] at hr
    have hagain := fun clock' => migrations_staged.rerun exec_alike _ hr k clock'
    rw [version_createTable, ← migrationScript_eq hle, ← crash_succ] at hagain
    have hle' : (crash clock (k + 1) d).version ≤ latestVersion := by
      obtain ⟨n', -, hn, -⟩ := hagain clock
      omega
    refine ⟨hle', fun clock' => ?_⟩
    obtain ⟨n', r', hn, hrun, hsame⟩ := hagain clock'
    refine ⟨r', ?_, hsame.trans hcontent⟩
    rw [applyMigrations_eq clock' hle', createTable_crash_succ, ← hrun]
    congr 2
    omega

theorem crash_keeps (clock : Stmt → Int) (k : ℕ) (d : Database ρ) :
    d.Keeps Unnamed (crash clock k d) := by
  unfold crash
  refine after_invariant (fun b hb c s t hs hexec => hs.trans ?_) (.refl _ d)
  exact exec_keeps (List.mem_of_mem_take hb) hexec

theorem crash_of_ok {clock : Stmt → Int} {r : Database ρ} (h : applyMigrations clock d = .ok r) :
    crash clock ((migrationScript d.version).length + 1) d = r := by
  unfold applyMigrations at h
  dsimp only at h
  rw [version_createTable] at h
  split_ifs at h
  rw [crash_succ, List.take_length]
  exact after_of_run h

theorem applyMigrations_keeps {clock : Stmt → Int} {r : Database ρ}
    (h : applyMigrations clock d = .ok r) : d.Keeps Unnamed r :=
  crash_of_ok h ▸ crash_keeps clock _ d

theorem version_erase (d : Database ρ) : d.erase.version = d.version := by
  unfold Database.version Database.erase
  cases d.appMigrations with
  | none => rfl
  | some rows =>
    simp only [Option.map_some, Option.elim_some, eraseMigrations, Table.rows_update,
      List.foldr_map]
    rfl

theorem endsWith_of_earlier {r₀ : Database ρ} (h : d.Earlier) {clock₀ : Stmt → Int}
    (h₀ : applyMigrations clock₀ d = .ok r₀) : d.EndsWith r₀.erase := by
  refine ⟨h.version, fun clock => ?_⟩
  obtain ⟨r, hr, -⟩ := applyMigrations_ok clock h
  refine ⟨r, hr, ?_⟩
  have hsame : (applyMigrations clock d).map Database.erase =
      (applyMigrations clock₀ d).map Database.erase := by
    rw [applyMigrations_eq _ h.version, applyMigrations_eq _ h.version]
    exact exec_alike.run clock clock₀ rfl
  rw [hr, h₀] at hsame
  exact Except.ok.inj hsame

/-- **Migrations survive crashes.** The last run succeeds and, timestamps aside, ends like a run
without crashes; rows that `apply_v3` does not name are unchanged. -/
theorem migrations_crash_safe {d : Database ρ} (h : d.Earlier)
    (crashes : List ((Stmt → Int) × ℕ)) (clock clock₀ : Stmt → Int) :
    ∃ r r₀, applyMigrations clock (crashes.foldl (fun d c => crash c.1 c.2 d) d) = .ok r ∧
      applyMigrations clock₀ d = .ok r₀ ∧ r.erase = r₀.erase ∧ r.version = latestVersion ∧
      d.Keeps Unnamed r := by
  obtain ⟨r₀, h₀, hlatest⟩ := applyMigrations_ok clock₀ h
  -- along the crashes: how a run would end, and what is still there
  have hfold : ∀ d' : Database ρ, d'.EndsWith r₀.erase → d.Keeps Unnamed d' →
      (crashes.foldl (fun d c => crash c.1 c.2 d) d').EndsWith r₀.erase ∧
        d.Keeps Unnamed (crashes.foldl (fun d c => crash c.1 c.2 d) d') := by
    clear h₀
    induction crashes with
    | nil => exact fun d' hends hkeeps => ⟨hends, hkeeps⟩
    | cons c crashes ih =>
      intro d' hends hkeeps
      exact ih _ (endsWith_crash hends c.1 c.2) (hkeeps.trans (crash_keeps c.1 c.2 d'))
  obtain ⟨⟨-, hends⟩, hkeeps⟩ := hfold d (endsWith_of_earlier h h₀) (.refl _ d)
  obtain ⟨r, hr, hsame⟩ := hends clock
  refine ⟨r, r₀, hr, h₀, hsame, ?_, hkeeps.trans (applyMigrations_keeps hr)⟩
  rw [← version_erase r, hsame, version_erase, hlatest]

/-- With the servers of an earlier release and one of the user. -/
def releaseV1 : Database ℕ where
  user _ := some [7]
  servers := some
    ⟨[⟨1, "lwd.zec.pro", "https://lwd.zec.pro", .mainnet, true, none, 0⟩,
      ⟨2, "zec.rocks", "https://zec.rocks", .mainnet, false, none, 0⟩,
      ⟨6, "lwd.testnet.zec.pro", "https://lwd.testnet.zec.pro", .testnet, true, none, 0⟩,
      ⟨77, "mine", "https://mine", .mainnet, false, some 5, 3⟩], by decide⟩
  oneDefaultIndex := true
  torSettings := some (some ⟨⟨1, "Off", none⟩, 4⟩)
  fiatSettings := none
  appMigrations := some ⟨[⟨1, 0⟩], by decide⟩

theorem releaseV1_earlier : releaseV1.Earlier where
  version := by decide
  servers _ := rfl
  oneDefault := by
    rintro rows ⟨⟩
    decide

/-- The first run dies after the rename of a server, the second one after the deletion. -/
theorem migrations_crash_safe_releaseV1 : ∃ r r₀,
    applyMigrations (fun _ => 30) (crash (fun _ => 20) 3 (crash (fun _ => 10) 5 releaseV1)) =
        .ok r ∧
      applyMigrations (fun _ => 40) releaseV1 = .ok r₀ ∧ r.erase = r₀.erase ∧ r.version = 3 ∧
      releaseV1.Keeps Unnamed r :=
  migrations_crash_safe releaseV1_earlier [(fun _ => 10, 5), (fun _ => 20, 3)] (fun _ => 30)
    fun _ => 40

end ZbagDb
