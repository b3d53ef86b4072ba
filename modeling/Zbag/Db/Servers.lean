import Mathlib.Data.List.Sort
import Zbag.Db.Migrations
import Zbag.Wallet.Manager

/-!
# The app database — servers

The migrations seed one default server for each network. `set_default_server` moves the mark inside
one transaction, the failover of a broadcast does the same, and a server that a user adds is never a
default. Version 3 renames two seeded servers and deletes one, unless it is a default by then.
-/

namespace ZbagDb

open Rerun Transition
open ZbagWallet (trim)

variable {ρ : Type}

/-! ## Commands -/

inductive ServerError
  | invalidRequest (message : String)
  | serverUnavailable (message : String)
  | database (e : DbError)
  /-- an error of the database itself -/
  | io
  | notFound (message : String)
  deriving DecidableEq, Repr

def insertServer (d : Database ρ) (row : ServerRow) : Except DbError (Database ρ) :=
  match d.servers with
  | none => .error (.noSuchTable .servers)
  | some rows =>
    if d.oneDefaultIndex && secondDefault rows row then .error .constraintFailed
    else
      match rows.insert row with
      | none => .error .constraintFailed
      | some rows => .ok { d with servers := some rows }

def parseNetwork (chainName : String) : Except ServerError Network :=
  let name := String.ofList ((trim chainName).map Char.toLower)
  if name = "main" ∨ name = "mainnet" then .ok .mainnet
  else if name = "test" ∨ name = "testnet" then .ok .testnet
  else .error (.invalidRequest ("unsupported chain_name: " ++ name))

structure AddServerEnv where
  validateGrpcUrl : String → Option String
  /-- the chain name -/
  probe : String → Except String String
  newId : ℕ
  now : Int
  insertFails : Bool

def addServer (env : AddServerEnv) (name grpcUrl : String) (d : Database ρ) :
    Except ServerError ServerRow × Database ρ :=
  let name := String.ofList (trim name)
  let grpcUrl := String.ofList (trim grpcUrl)
  if name.isEmpty then (.error (.invalidRequest "server name required"), d)
  else if grpcUrl.isEmpty then (.error (.invalidRequest "grpc_url required"), d)
  else
    match env.validateGrpcUrl grpcUrl, env.probe grpcUrl with
    | some message, _ => (.error (.invalidRequest message), d)
    | none, .error e => (.error (.serverUnavailable ("server probe failed: " ++ e)), d)
    | none, .ok chainName =>
      match parseNetwork chainName with
      | .error e => (.error e, d)
      | .ok network =>
        let server : ServerRow :=
          ⟨env.newId, name, grpcUrl, network, false, some env.now, env.now⟩
        if env.insertFails then (.error .io, d)
        else
          match insertServer d server with
          | .error e => (.error (.database e), d)
          | .ok d => (.ok server, d)

def setMark (rows : Table ServerRow.id) (p : ServerRow → Bool) (mark : Bool) :
    Table ServerRow.id :=
  rows.update (fun r => { r with isDefault := if p r then mark else r.isDefault }) fun _ => rfl

def moveDefault (rows : Table ServerRow.id) (network : Network) (id : ℕ) : Table ServerRow.id :=
  setMark (setMark rows (·.network = network) false) (·.id = id) true

/-- One transaction, which may fail to commit. -/
def setDefaultServer (commits : Bool) (id : ℕ) (d : Database ρ) :
    Except ServerError Unit × Database ρ :=
  match d.servers with
  | none => (.error (.database (.noSuchTable .servers)), d)
  | some rows =>
    match rows.find? id with
    | none => (.error (.notFound "Query returned no rows"), d)
    | some server =>
      if commits then (.ok (), { d with servers := some (moveDefault rows server.network id) })
      else (.error .io, d)

/-- `active`: the network of the active wallet. -/
def setDefaultServerCommand (validateGrpcUrl : String → Option String) (active : Option Network)
    (commits : Bool) (id : ℕ) (d : Database ρ) : Except ServerError Unit × Database ρ :=
  match d.servers.bind (·.find? id) with
  | none => (.error (.invalidRequest "server not found"), d)
  | some server =>
    match validateGrpcUrl server.grpcUrl with
    | some message => (.error (.invalidRequest message), d)
    | none =>
      if active.all (· = server.network) then setDefaultServer commits id d
      else (.error (.invalidRequest "server network mismatch"), d)

def serverLe (a b : ServerRow) : Bool :=
  match a.network, b.network with
  | .mainnet, .testnet => true
  | .testnet, .mainnet => false
  | _, _ =>
    if a.isDefault = b.isDefault then a.createdAt ≤ b.createdAt else a.isDefault

def listServers (d : Database ρ) : Except DbError (List ServerRow) :=
  match d.servers with
  | none => .error (.noSuchTable .servers)
  | some rows => .ok (rows.rows.mergeSort serverLe)

structure FailoverEnv where
  network : Network
  currentGrpcUrl : String
  validUrl : String → Bool
  probe : String → Bool
  commits : Bool
  now : Int
  /-- its error is only logged -/
  successStored : Bool

def updateLastSuccessAt (id : ℕ) (now : Int) (rows : Table ServerRow.id) : Table ServerRow.id :=
  rows.update (fun r => if r.id = id then { r with lastSuccessAt := some now } else r)
    fun r => by split_ifs <;> rfl

/-- The default moves to the first other server of the network that answers. -/
def tryFailoverServer (env : FailoverEnv) (d : Database ρ) :
    Except ServerError (Option String) × Database ρ :=
  match listServers d with
  | .error e => (.error (.database e), d)
  | .ok servers =>
    let networkServers := servers.filter fun s => s.network = env.network && env.validUrl s.grpcUrl
    if networkServers.length < 2 then (.ok none, d)
    else
      match networkServers.find? (·.grpcUrl = env.currentGrpcUrl) <|>
          networkServers.find? (·.isDefault) with
      | none => (.ok none, d)
      | some fromServer =>
        match networkServers.find? fun s => s.id ≠ fromServer.id && env.probe s.grpcUrl with
        | none => (.ok none, d)
        | some candidate =>
          match setDefaultServer env.commits candidate.id d with
          | (.error e, d) => (.error e, d)
          | (.ok _, d) =>
            (.ok (some candidate.grpcUrl),
              if env.successStored then
                { d with servers := d.servers.map (updateLastSuccessAt candidate.id env.now) }
              else d)

/-- The override counts in debug builds only. -/
def resolveGrpcUrl (debugAssertions : Bool) (devOverride : Option String)
    (validateGrpcUrl : String → Option String) (network : Network) (d : Database ρ) :
    Except ServerError String :=
  let overrideUrl := String.ofList (trim (devOverride.getD ""))
  if debugAssertions ∧ ¬ overrideUrl.isEmpty then
    match validateGrpcUrl overrideUrl with
    | some _ => .error (.invalidRequest "invalid ZBAG_GRPC_URL")
    | none => .ok overrideUrl
  else
    match listServers d with
    | .error e => .error (.database e)
    | .ok servers =>
      match servers.find? fun s => s.network = network && s.isDefault with
      | none => .error (.notFound "no default server configured for network")
      | some server =>
        match validateGrpcUrl server.grpcUrl with
        | some message => .error (.invalidRequest message)
        | none => .ok server.grpcUrl

/-! ## One default server for each network -/

def IsDefault (rows : Table ServerRow.id) (network : Network) (r : ServerRow) : Prop :=
  r ∈ rows ∧ r.isDefault = true ∧ r.network = network

def UniqueDefault (rows : Table ServerRow.id) : Prop := ∀ network, ∃! r, IsDefault rows network r

theorem UniqueDefault.oneDefault {rows : Table ServerRow.id} (h : UniqueDefault rows) :
    OneDefault rows := by
  intro a ha b hb hda hdb hnet
  exact (h a.network).unique ⟨ha, hda, rfl⟩ ⟨hb, hdb, hnet.symm⟩

variable {network : Network} {r server : ServerRow} {d : Database ρ} {b : Stmt} {c : Int}
  {d' : Database ρ} {v : ℕ} {clock : Stmt → Int}

theorem isDefault_update {rows : Table ServerRow.id} {f : ServerRow → ServerRow}
    {hf : ∀ r, (f r).id = r.id} (hmark : ∀ r, (f r).isDefault = r.isDefault)
    (hnet : ∀ r, (f r).network = r.network) :
    IsDefault (rows.update f hf) network r ↔ ∃ r₀, IsDefault rows network r₀ ∧ f r₀ = r := by
  constructor
  · rintro ⟨hmem, hd, hn⟩
    obtain ⟨r₀, hr₀, rfl⟩ := Table.mem_update.mp hmem
    exact ⟨r₀, ⟨hr₀, hmark r₀ ▸ hd, hnet r₀ ▸ hn⟩, rfl⟩
  · rintro ⟨r₀, ⟨hr₀, hd, hn⟩, rfl⟩
    exact ⟨Table.mem_update.mpr ⟨r₀, hr₀, rfl⟩, (hmark r₀).trans hd, (hnet r₀).trans hn⟩

theorem uniqueDefault_update {rows : Table ServerRow.id} {f : ServerRow → ServerRow}
    {hf : ∀ r, (f r).id = r.id} (hmark : ∀ r, (f r).isDefault = r.isDefault)
    (hnet : ∀ r, (f r).network = r.network) :
    UniqueDefault (rows.update f hf) ↔ UniqueDefault rows := by
  refine forall_congr' fun network => ?_
  simp only [isDefault_update hmark hnet]
  constructor
  · rintro ⟨_, ⟨r, hr, rfl⟩, huniq⟩
    refine ⟨r, hr, fun r' hr' => ?_⟩
    have heq : f r' = f r := huniq (f r') ⟨r', hr', rfl⟩
    exact rows.eq_of_key hr'.1 hr.1 (by rw [← hf r', heq, hf])
  · rintro ⟨r, hr, huniq⟩
    refine ⟨f r, ⟨r, hr, rfl⟩, ?_⟩
    rintro _ ⟨r', hr', rfl⟩
    rw [huniq r' hr']

theorem UniqueDefault.congr {rows rows' : Table ServerRow.id} (h : UniqueDefault rows)
    (hsame : ∀ r, r.isDefault = true → (r ∈ rows' ↔ r ∈ rows)) : UniqueDefault rows' := by
  intro network
  refine (existsUnique_congr fun r => ?_).mp (h network)
  unfold IsDefault
  constructor
  · rintro ⟨hr, hd, hn⟩
    exact ⟨(hsame r hd).mpr hr, hd, hn⟩
  · rintro ⟨hr, hd, hn⟩
    exact ⟨(hsame r hd).mp hr, hd, hn⟩

theorem UniqueDefault.delete {rows : Table ServerRow.id} (h : UniqueDefault rows)
    {p : ServerRow → Bool} (hp : ∀ r, r.isDefault = true → p r = false) :
    UniqueDefault (rows.delete p) :=
  h.congr fun r hd => Table.mem_delete.trans (and_iff_left (hp r hd))

theorem UniqueDefault.insert {rows rows' : Table ServerRow.id} (h : UniqueDefault rows)
    {row : ServerRow} (hrow : row.isDefault = false) (hinsert : rows.insert row = some rows') :
    UniqueDefault rows' := by
  refine h.congr fun r hd => (Table.mem_insert hinsert).trans (or_iff_right ?_)
  rintro rfl
  rw [hrow] at hd
  cases hd

def moved (network : Network) (id : ℕ) (r : ServerRow) : ServerRow :=
  { r with isDefault := r.id == id || r.isDefault && r.network != network }

theorem mem_moveDefault {rows : Table ServerRow.id} {id : ℕ} :
    r ∈ moveDefault rows network id ↔ ∃ r₀ ∈ rows, moved network id r₀ = r := by
  have hrow (r₀ : ServerRow) : moved network id r₀ =
      { r₀ with isDefault := if r₀.id = id then true else
          if r₀.network = network then false else r₀.isDefault } := by
    unfold moved
    congr 1
    grind
  unfold moveDefault setMark
  rw [Table.mem_update]
  constructor
  · rintro ⟨r₁, hr₁, rfl⟩
    obtain ⟨r₀, hr₀, rfl⟩ := Table.mem_update.mp hr₁
    exact ⟨r₀, hr₀, by simp [hrow]⟩
  · rintro ⟨r₀, hr₀, rfl⟩
    exact ⟨_, Table.mem_update.mpr ⟨r₀, hr₀, rfl⟩, by simp [hrow]⟩

theorem isDefault_moveDefault {rows : Table ServerRow.id} (hserver : server ∈ rows) :
    IsDefault (moveDefault rows server.network server.id) server.network r ↔
      r = moved server.network server.id server := by
  constructor
  · rintro ⟨hmem, hd, hn⟩
    obtain ⟨r, hr, rfl⟩ := mem_moveDefault.mp hmem
    -- another server of the network has lost its mark
    have hid : r.id = server.id := by
      have hn' : r.network = server.network := hn
      simpa [moved, hn'] using hd
    rw [rows.eq_of_key hr hserver hid]
  · rintro rfl
    exact ⟨mem_moveDefault.mpr ⟨server, hserver, rfl⟩, by simp [moved], rfl⟩

/-- **The mark moves**, in the network of the server only. -/
theorem UniqueDefault.moveDefault {rows : Table ServerRow.id} (h : UniqueDefault rows)
    (hserver : server ∈ rows) :
    UniqueDefault (moveDefault rows server.network server.id) := by
  intro network
  by_cases hnet : network = server.network
  · subst hnet
    exact ⟨_, (isDefault_moveDefault hserver).mpr rfl, fun r => (isDefault_moveDefault hserver).mp⟩
  · obtain ⟨r, ⟨hr, hd, hn⟩, huniq⟩ := h network
    have hne : ∀ r' ∈ rows, r'.network = network → r'.id ≠ server.id := by
      intro r' hr' hn' hid
      rw [rows.eq_of_key hr' hserver hid] at hn'
      exact hnet hn'.symm
    refine ⟨moved server.network server.id r, ⟨mem_moveDefault.mpr ⟨r, hr, rfl⟩, ?_, hn⟩, ?_⟩
    · have hn' : r.network ≠ server.network := hn ▸ hnet
      simp [moved, hd, hn']
    · rintro _ ⟨hmem, hd', hn'⟩
      obtain ⟨r', hr', rfl⟩ := mem_moveDefault.mp hmem
      have hid := hne r' hr' hn'
      have hmark : r'.isDefault = true := by
        have := hd'
        simp only [moved, beq_eq_false_iff_ne.mpr hid, Bool.false_or, Bool.and_eq_true] at this
        exact this.1
      rw [huniq r' ⟨hr', hmark, hn'⟩]

/-! ## What the commands do -/

/-- Each network has exactly one default server. -/
structure Database.Seeded (d : Database ρ) : Prop where
  recorded : 1 ≤ d.version
  known : d.version ≤ latestVersion
  unique : ∃ rows, d.servers = some rows ∧ UniqueDefault rows

theorem Database.Seeded.of_servers (h : d.Seeded) {rows : Table ServerRow.id}
    (hrows : UniqueDefault rows) : Database.Seeded { d with servers := some rows } :=
  ⟨h.recorded, h.known, rows, rfl, hrows⟩

theorem addServer_cases (env : AddServerEnv) (name grpcUrl : String) (d : Database ρ) :
    (addServer env name grpcUrl d).2 = d ∨
      ∃ server : ServerRow, server.isDefault = false ∧
        insertServer d server = .ok (addServer env name grpcUrl d).2 := by
  fun_cases addServer env name grpcUrl d
  case case8 server _ _ hinsert => exact .inr ⟨server, rfl, hinsert⟩
  all_goals exact .inl rfl

theorem seeded_addServer (env : AddServerEnv) (name grpcUrl : String) (h : d.Seeded) :
    (addServer env name grpcUrl d).2.Seeded := by
  rcases addServer_cases env name grpcUrl d with hsame | ⟨server, hmark, hinsert⟩
  · rwa [hsame]
  · obtain ⟨rows, hrows, hunique⟩ := h.unique
    unfold insertServer at hinsert
    simp only [hrows] at hinsert
    split_ifs at hinsert
    split at hinsert
    · cases hinsert
    · rename_i rows' hrows'
      rw [← Except.ok.inj hinsert]
      exact h.of_servers (hunique.insert hmark hrows')

theorem seeded_setDefaultServer (commits : Bool) (id : ℕ) (h : d.Seeded) :
    (setDefaultServer commits id d).2.Seeded := by
  obtain ⟨rows, hrows, hunique⟩ := h.unique
  unfold setDefaultServer
  simp only [hrows]
  cases hfind : rows.find? id with
  | none => exact h
  | some server =>
    obtain ⟨hserver, rfl⟩ := Table.mem_find?.mp hfind
    cases commits with
    | false => exact h
    | true => exact h.of_servers (hunique.moveDefault hserver)

theorem seeded_setDefaultServerCommand (validateGrpcUrl : String → Option String)
    (active : Option Network) (commits : Bool) (id : ℕ) (h : d.Seeded) :
    (setDefaultServerCommand validateGrpcUrl active commits id d).2.Seeded := by
  unfold setDefaultServerCommand
  split
  · exact h
  · split
    · exact h
    · split_ifs
      · exact seeded_setDefaultServer commits id h
      · exact h

theorem uniqueDefault_updateLastSuccessAt {rows : Table ServerRow.id} (id : ℕ) (now : Int) :
    UniqueDefault (updateLastSuccessAt id now rows) ↔ UniqueDefault rows :=
  uniqueDefault_update (fun r => by split_ifs <;> rfl) fun r => by split_ifs <;> rfl

theorem seeded_tryFailoverServer (env : FailoverEnv) (h : d.Seeded) :
    (tryFailoverServer env d).2.Seeded := by
  fun_cases tryFailoverServer env d
  case case5 candidate _ _ _ hset =>
    have hseeded := seeded_setDefaultServer env.commits candidate.id h
    rwa [hset] at hseeded
  case case6 candidate _ _ _ hset =>
    have hseeded := seeded_setDefaultServer env.commits candidate.id h
    rw [hset] at hseeded
    split_ifs
    · obtain ⟨rows, hrows, hunique⟩ := hseeded.unique
      dsimp only
      rw [hrows]
      exact hseeded.of_servers
        ((uniqueDefault_updateLastSuccessAt candidate.id env.now).mpr hunique)
    · exact hseeded
  all_goals exact h

/-! ## Migrations -/

def Database.HasDefaults (d : Database ρ) : Prop :=
  ∃ rows, d.servers = some rows ∧ UniqueDefault rows

theorem hasDefaults_applyV3 (hb : b ∈ applyV3) (h : d.HasDefaults) (hexec : b.exec c d = .ok d') :
    d'.HasDefaults := by
  obtain ⟨rows, hrows, hunique⟩ := h
  have hrename (id : ℕ) (name grpcUrl newName newUrl : String) :
      UniqueDefault (rows.update (ServerRow.rename id name grpcUrl newName newUrl)
        (ServerRow.rename_id _ _ _ _ _)) := by
    refine (uniqueDefault_update (fun r => ?_) fun r => ?_).mpr hunique
    · unfold ServerRow.rename
      split_ifs <;> rfl
    · unfold ServerRow.rename
      split_ifs <;> rfl
  simp only [applyV3, List.mem_cons, List.not_mem_nil, or_false] at hb
  rcases hb with rfl | rfl | rfl
  · obtain ⟨rows', hrows', rfl⟩ := onServers_ok hexec
    obtain rfl := Option.some.inj (hrows.symm.trans hrows')
    exact ⟨_, rfl, hrename _ _ _ _ _⟩
  · obtain ⟨rows', hrows', rfl⟩ := onServers_ok hexec
    obtain rfl := Option.some.inj (hrows.symm.trans hrows')
    exact ⟨_, rfl, hunique.delete fun r hd => by simp [hd]⟩
  · obtain ⟨rows', hrows', rfl⟩ := onServers_ok hexec
    obtain rfl := Option.some.inj (hrows.symm.trans hrows')
    exact ⟨_, rfl, hrename _ _ _ _ _⟩

theorem mem_script_of_recorded (hv : 1 ≤ v)
    (h : b ∈ .createTable .appMigrations :: migrationScript v) :
    b ∈ .createTable .appMigrations :: applyV2 ∨ b ∈ applyV3 ∨ ∃ v, b = .recordVersion v := by
  rw [migrationScript, if_neg (by omega), List.nil_append] at h
  rcases List.mem_cons.mp h with rfl | h
  · exact .inl List.mem_cons_self
  · rcases List.mem_append.mp h with h | h
    · exact (mem_group h).imp (List.mem_cons_of_mem _) .inr
    · exact .inr (mem_group h)

theorem hasDefaults_exec (hv : 1 ≤ v) (hb : b ∈ .createTable .appMigrations :: migrationScript v)
    (h : d.HasDefaults) (hexec : b.exec c d = .ok d') : d'.HasDefaults := by
  rcases mem_script_of_recorded hv hb with hb | hb | ⟨v, rfl⟩
  · simp only [applyV2, List.mem_cons, List.not_mem_nil, or_false] at hb
    rcases hb with rfl | rfl | rfl
    · cases hexec
      exact h
    · cases hexec
      exact h
    · simp only [Stmt.exec] at hexec
      split at hexec
      · cases hexec
      · cases hexec
        exact h
  · exact hasDefaults_applyV3 hb h hexec
  · obtain ⟨rows, rows', -, -, rfl⟩ := recordVersion_ok hexec
    exact h

theorem version_le_exec (hb : b ∈ .createTable .appMigrations :: migrationScript v)
    (hexec : b.exec c d = .ok d') : d.version ≤ d'.version := by
  rcases mem_migrationScript hb with hadds | hv3 | ⟨v, rfl⟩
  · exact (version_of_adds hadds hexec).ge
  · obtain ⟨rows, rows', -, rfl, -, -⟩ := rows_of_applyV3 hv3 hexec
    exact Nat.le_refl _
  · obtain ⟨rows, rows', hrows, hinsert, rfl⟩ := recordVersion_ok hexec
    rw [Database.version, Database.version, hrows, Option.elim_some, Option.elim_some,
      Table.rows_insert hinsert, List.foldr_cons]
    exact Nat.le_max_right _ _

theorem Database.Seeded.earlier (h : d.Seeded) : d.Earlier := by
  obtain ⟨rows, hrows, hunique⟩ := h.unique
  refine ⟨h.known, fun _ => by rw [hrows]; rfl, fun rows' hrows' => ?_⟩
  obtain rfl := Option.some.inj (hrows.symm.trans hrows')
  exact hunique.oneDefault

/-- **A seeded database stays so through migrations**, also if they are interrupted. -/
theorem seeded_crash (h : d.Seeded) (clock : Stmt → Int) (k : ℕ) : (crash clock k d).Seeded := by
  obtain ⟨r₀, h₀, -⟩ := applyMigrations_ok clock h.earlier
  have hknown := (endsWith_crash (endsWith_of_earlier h.earlier h₀) clock k).1
  have hinv : 1 ≤ (crash clock k d).version ∧ (crash clock k d).HasDefaults := by
    unfold crash
    refine after_invariant (I := fun d : Database ρ => 1 ≤ d.version ∧ d.HasDefaults)
      (fun b hb c s t hs hexec => ?_) ⟨h.recorded, h.unique⟩
    have hmem := List.mem_of_mem_take hb
    exact ⟨hs.1.trans (version_le_exec hmem hexec), hasDefaults_exec h.recorded hmem hs.2 hexec⟩
  exact ⟨hinv.1, hknown, hinv.2⟩

theorem seeded_applyMigrations {r : Database ρ} (h : d.Seeded)
    (hr : applyMigrations clock d = .ok r) : r.Seeded :=
  crash_of_ok hr ▸ seeded_crash h clock _

/-! ### The first migration -/

theorem earlier_empty : (Database.empty : Database ρ).Earlier :=
  ⟨Nat.zero_le _, fun h => absurd h (Nat.not_succ_le_zero 0), nofun⟩

theorem applyV1_empty (clock : Stmt → Int) : ∃ (d : Database ρ) (rows : Table ServerRow.id),
    run Stmt.exec clock applyV1 (Database.empty.createTable .appMigrations) = .ok d ∧
      d.servers = some rows ∧ rows.rows.map (fun r => (r.network, r.isDefault)) =
        [(.testnet, true), (.mainnet, false), (.mainnet, false), (.mainnet, false),
          (.mainnet, true)] := by
  have hone : OneDefault (Table.empty : Table ServerRow.id) := nofun
  simp [applyV1, initialSchemaV1, seedServersV1, run, Stmt.exec, Database.createTable,
    Database.onServers, Database.empty, hone]
  rfl

theorem uniqueDefault_of_count {rows : Table ServerRow.id}
    (h : ∀ network,
      (rows.rows.map fun r => (r.network, r.isDefault)).count (network, true) = 1) :
    UniqueDefault rows := by
  intro network
  have hcount := h network
  rw [List.count, List.countP_map, List.countP_eq_length_filter, List.length_eq_one_iff] at hcount
  obtain ⟨server, hserver⟩ := hcount
  have hmem (r : ServerRow) : IsDefault rows network r ↔ r ∈ [server] := by
    rw [← hserver, List.mem_filter, IsDefault]
    refine and_congr_right fun _ => ?_
    simp [and_comm]
  refine ⟨server, (hmem server).mpr List.mem_cons_self, fun r hr => ?_⟩
  exact List.mem_singleton.mp ((hmem r).mp hr)

/-- **A first migration leaves one default server for each network.** -/
theorem hasDefaults_of_empty {r : Database ρ} (h : applyMigrations clock Database.empty = .ok r) :
    r.HasDefaults := by
  obtain ⟨d, rows, hrun, hrows, hmarks⟩ := applyV1_empty (ρ := ρ) clock
  have hd : d.HasDefaults := ⟨rows, hrows, uniqueDefault_of_count fun network => by
    rw [hmarks]
    cases network <;> rfl⟩
  have hscript : migrationScript 0 = applyV1 ++ (.recordVersion 1 :: migrationScript 1) := by
    simp [migrationScript]
  rw [← crash_of_ok h, crash_succ, List.take_length]
  change (after Stmt.exec clock (migrationScript 0) _).HasDefaults
  rw [hscript, after_append hrun]
  refine after_invariant (I := Database.HasDefaults) (fun b hb c s t hs hexec => ?_) hd
  rcases List.mem_cons.mp hb with rfl | hb
  · obtain ⟨rows, rows', -, -, rfl⟩ := recordVersion_ok hexec
    exact hs
  · exact hasDefaults_exec (Nat.le_refl 1) (List.mem_cons_of_mem _ hb) hs hexec

theorem hasDefaults_erase : d.erase.HasDefaults ↔ d.HasDefaults := by
  obtain ⟨user, servers, index, tor, fiat, versions⟩ := d
  cases servers with
  | none =>
    constructor <;>
    · rintro ⟨rows, h, -⟩
      cases h
  | some rows =>
    have herase : UniqueDefault (eraseServers rows) ↔ UniqueDefault rows :=
      uniqueDefault_update (fun _ => rfl) fun _ => rfl
    constructor
    · rintro ⟨_, ⟨⟩, h⟩
      exact ⟨rows, rfl, herase.mp h⟩
    · rintro ⟨_, ⟨⟩, h⟩
      exact ⟨_, rfl, herase.mpr h⟩

/-! ## The app database over time -/

/-- `opened`: `apply_migrations` has returned on it once. -/
structure AppDbState (ρ : Type) where
  db : Database ρ
  opened : Bool

inductive AppDbAction
  | applyMigrations (clock : Stmt → Int)
  /-- by a crash or an error -/
  | crash (clock : Stmt → Int) (k : ℕ)
  | addServer (env : AddServerEnv) (name grpcUrl : String)
  | setDefaultServer (validateGrpcUrl : String → Option String) (active : Option Network)
      (commits : Bool) (id : ℕ)
  | failover (env : FailoverEnv)

def AppDbState.step (s : AppDbState ρ) : AppDbAction → Option (AppDbState ρ)
  | .applyMigrations clock =>
    match ZbagDb.applyMigrations clock s.db with
    | .ok d => some ⟨d, true⟩
    | .error _ =>
      some { s with db := ZbagDb.crash clock ((migrationScript s.db.version).length + 1) s.db }
  | .crash clock k => some { s with db := ZbagDb.crash clock k s.db }
  | .addServer env name grpcUrl =>
    if s.opened then some { s with db := (ZbagDb.addServer env name grpcUrl s.db).2 } else none
  | .setDefaultServer validateGrpcUrl active commits id =>
    if s.opened then
      some { s with db := (setDefaultServerCommand validateGrpcUrl active commits id s.db).2 }
    else none
  | .failover env =>
    if s.opened then some { s with db := (tryFailoverServer env s.db).2 } else none

/-- From an empty database, or from one that an earlier release has seeded. -/
def appDbSystem (ρ : Type) : System (AppDbState ρ) AppDbAction where
  init s := s.db = Database.empty ∧ s.opened = false ∨ s.db.Seeded ∧ s.opened = true
  step := AppDbState.step

/-- An open database is seeded; before, a run ends like one on an empty database. -/
structure AppDbState.Ok (content : Database ρ) (s : AppDbState ρ) : Prop where
  seeded : s.opened = true → s.db.Seeded
  fresh : s.opened = false → s.db.EndsWith content

theorem Database.EndsWith.seeded {content r : Database ρ} (h : d.EndsWith content)
    (hcontent : content.HasDefaults) (hversion : content.version = latestVersion)
    (hr : applyMigrations clock d = .ok r) : r.Seeded := by
  obtain ⟨r', hr', rfl⟩ := h.2 clock
  obtain rfl := Except.ok.inj (hr.symm.trans hr')
  rw [version_erase] at hversion
  exact ⟨by rw [hversion]; decide, hversion.le, hasDefaults_erase.mp hcontent⟩

theorem AppDbState.Ok.step {content : Database ρ} (hcontent : content.HasDefaults)
    (hversion : content.version = latestVersion) {s t : AppDbState ρ} {a : AppDbAction}
    (h : s.Ok content) (hstep : s.step a = some t) : t.Ok content := by
  have hopened {d : Database ρ} (hd : d.Seeded) : AppDbState.Ok content ⟨d, true⟩ :=
    ⟨fun _ => hd, nofun⟩
  have hcrash (clock : Stmt → Int) (k : ℕ) :
      AppDbState.Ok content { s with db := ZbagDb.crash clock k s.db } :=
    ⟨fun ho => seeded_crash (h.seeded ho) clock k, fun ho => endsWith_crash (h.fresh ho) clock k⟩
  obtain ⟨db, opened⟩ := s
  cases a with
  | applyMigrations clock =>
    simp only [AppDbState.step] at hstep
    split at hstep <;> cases hstep
    · rename_i d hd
      cases opened with
      | true => exact hopened (seeded_applyMigrations (h.seeded rfl) hd)
      | false => exact hopened ((h.fresh rfl).seeded hcontent hversion hd)
    · exact hcrash clock _
  | crash clock k =>
    cases hstep
    exact hcrash clock k
  | addServer env name grpcUrl =>
    obtain ⟨rfl, hstep⟩ := Option.ite_none_right_eq_some.mp hstep
    cases hstep
    exact hopened (seeded_addServer env name grpcUrl (h.seeded rfl))
  | setDefaultServer validateGrpcUrl active commits id =>
    obtain ⟨rfl, hstep⟩ := Option.ite_none_right_eq_some.mp hstep
    cases hstep
    exact hopened (seeded_setDefaultServerCommand validateGrpcUrl active commits id (h.seeded rfl))
  | failover env =>
    obtain ⟨rfl, hstep⟩ := Option.ite_none_right_eq_some.mp hstep
    cases hstep
    exact hopened (seeded_tryFailoverServer env (h.seeded rfl))

theorem seeded_of_reach {s : AppDbState ρ} (h : Reach (appDbSystem ρ) Free s)
    (hopen : s.opened = true) : s.db.Seeded := by
  -- how a run on an empty database ends
  obtain ⟨r₀, h₀, hlatest⟩ := applyMigrations_ok (fun _ => 0) (earlier_empty (ρ := ρ))
  have hcontent : r₀.erase.HasDefaults := hasDefaults_erase.mpr (hasDefaults_of_empty h₀)
  have hversion : r₀.erase.version = latestVersion := (version_erase r₀).trans hlatest
  have hok : s.Ok r₀.erase := by
    refine h.invariant (I := AppDbState.Ok r₀.erase) ?_
      fun s a t hs _ hstep => hs.step hcontent hversion hstep
    rintro ⟨db, opened⟩ (⟨rfl, rfl⟩ | ⟨hseeded, rfl⟩)
    · exact ⟨nofun, fun _ => endsWith_of_earlier earlier_empty h₀⟩
    · exact ⟨fun _ => hseeded, nofun⟩
  exact hok.seeded hopen

theorem find_default {rows : Table ServerRow.id} (h : IsDefault rows network server)
    (huniq : ∀ r, IsDefault rows network r → r = server) :
    (rows.rows.mergeSort serverLe).find? (fun s => s.network = network && s.isDefault) =
      some server := by
  have hmem (r : ServerRow) : r ∈ rows.rows.mergeSort serverLe ↔ r ∈ rows := List.mem_mergeSort
  cases hfind : (rows.rows.mergeSort serverLe).find?
      (fun s => s.network = network && s.isDefault) with
  | none =>
    have := List.find?_eq_none.mp hfind server ((hmem server).mpr h.1)
    simp [h.2.1, h.2.2] at this
  | some r =>
    have hprop := List.find?_some hfind
    simp only [Bool.and_eq_true, decide_eq_true_eq] at hprop
    have hr : r ∈ rows := (hmem r).mp (List.mem_of_find?_eq_some hfind)
    rw [huniq r ⟨hr, hprop.2, hprop.1⟩]

/-- **Each network has its default server**, exactly one, and `resolve_grpc_url` returns its URL. -/
theorem one_default_server {s : AppDbState ρ} (h : Reach (appDbSystem ρ) Free s)
    (hopen : s.opened = true) (network : Network) : ∃ rows server, s.db.servers = some rows ∧
      IsDefault rows network server ∧ (∀ r, IsDefault rows network r → r = server) ∧
      ∀ (debugAssertions : Bool) (devOverride : Option String)
        (validateGrpcUrl : String → Option String), debugAssertions = false ∨ devOverride = none →
        resolveGrpcUrl debugAssertions devOverride validateGrpcUrl network s.db =
          match validateGrpcUrl server.grpcUrl with
          | some message => .error (.invalidRequest message)
          | none => .ok server.grpcUrl := by
  obtain ⟨rows, hrows, hunique⟩ := (seeded_of_reach h hopen).unique
  obtain ⟨server, hserver, huniq⟩ := hunique network
  refine ⟨rows, server, hrows, hserver, huniq, fun debug dev validate hdev => ?_⟩
  have hdefault := find_default hserver huniq
  have hskip : ¬ (debug = true ∧ ¬ (String.ofList (trim (dev.getD ""))).isEmpty = true) := by
    rintro ⟨hdebug, hnonempty⟩
    rcases hdev with hdev | rfl
    · rw [hdev] at hdebug
      cases hdebug
    · exact hnonempty rfl
  unfold resolveGrpcUrl listServers
  dsimp only
  rw [if_neg hskip, hrows]
  dsimp only
  rw [hdefault]

theorem releaseV1_seeded : releaseV1.Seeded where
  recorded := by decide
  known := by decide
  unique := ⟨_, rfl, uniqueDefault_of_count fun network => by cases network <;> rfl⟩

def releaseV1Moved : AppDbState ℕ where
  db := (setDefaultServerCommand (fun _ => none) none true 77
    (crash (fun _ => 10) 5 releaseV1)).2
  opened := true

theorem one_default_server_releaseV1 : ∃ rows server, releaseV1Moved.db.servers = some rows ∧
    IsDefault rows .mainnet server ∧ (∀ r, IsDefault rows .mainnet r → r = server) ∧
    resolveGrpcUrl false none (fun _ => none) .mainnet releaseV1Moved.db =
      .ok server.grpcUrl := by
  have hreach : Reach (appDbSystem ℕ) Free releaseV1Moved := by
    refine ⟨⟨releaseV1, true⟩, .inr ⟨releaseV1_seeded, rfl⟩, ?_⟩
    refine .tail (.tail .refl trivial (a := .crash (fun _ => 10) 5) rfl) trivial
      (a := .setDefaultServer (fun _ => none) none true 77) rfl
  obtain ⟨rows, server, hrows, hserver, huniq, hresolve⟩ :=
    one_default_server hreach rfl .mainnet
  exact ⟨rows, server, hrows, hserver, huniq, hresolve false none (fun _ => none) (.inl rfl)⟩

end ZbagDb
