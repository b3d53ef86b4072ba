import Zbag.Account.Ids
import Zbag.Lib.Operation
import Zbag.Wallet.Spec

/-!
# Accounts — importing viewing keys

`import_ufvk` gives the new account the number after all numbers in use, tags and ZIP 32 indices
alike, so that its own number is free. It also attaches the ZIP 32 index of the request, which
nobody compares with the numbers given out before.
-/

namespace ZbagAccount

open ZbagWallet Transition Operation

inductive NetworkType
  | main
  | test
  | regtest
  deriving DecidableEq, Repr

structure ImportRequest where
  name : String
  seedFingerprint : Option String
  zip32AccountIndex : Option ℕ
  deriving DecidableEq, Repr

structure ImportEnv where
  /-- the network of the wallet -/
  network : NetworkType
  ufvk : Except String NetworkType
  hexDecode : String → Except String (List UInt8)
  reads : DbReads
  /-- the UUID of the new account -/
  imported : Except String AccountUuid
  app : Env

/-! ## `import_ufvk` -/

/-- Only a request with a fingerprint and an index has a derivation. -/
def accountPurpose (hexDecode : String → Except String (List UInt8))
    (seedFingerprint : Option String) (zip32AccountIndex : Option ℕ) :
    Except IpcError (Option ZipAccountId) :=
  match seedFingerprint, zip32AccountIndex with
  | some fingerprint, some index =>
    match hexDecode fingerprint with
    | .error e => .error ⟨.invalidRequest, "invalid seed_fingerprint hex: " ++ e⟩
    | .ok bytes =>
      if bytes.length ≠ 32 then .error ⟨.invalidRequest, "seed_fingerprint must be 32 bytes"⟩
      else if h : index < 2 ^ 31 then .ok (some ⟨index, h⟩)
      else .error ⟨.invalidRequest, "invalid zip32_account_index"⟩
  | _, _ => .ok none

def Account.numbers (account : Account) : List AccountId :=
  account.taggedId.toList ++ account.derivedId.toList

def usedIds (db : AccountDb) (reads : DbReads) : List AccountUuid → Except IpcError (List AccountId)
  | [] => .ok []
  | uuid :: rest =>
    match getAccount db reads uuid with
    | .error _ => .error ⟨.internalError, "failed to load wallet account"⟩
    | .ok none => usedIds db reads rest
    | .ok (some account) => (account.numbers ++ ·) <$> usedIds db reads rest

/-- The number after the largest one, saturating. -/
def nextAccountId (used : List AccountId) : AccountId :=
  min (used.foldr max 0 + 1) (2 ^ 32 - 1)

/-- `import_ufvk` up to the import. -/
def planImport (w : WalletId) (s : World) (db : AccountDb) (env : ImportEnv)
    (req : ImportRequest) : Except IpcError (AccountId × Option ZipAccountId) := do
  if (trim req.name).isEmpty then throw ⟨.invalidRequest, "account name required"⟩
  let _ ← ((requireUnlockedWalletDb w).run s).1
  let network ← env.ufvk.mapError fun e => ⟨.invalidUfvk, e⟩
  if network ≠ env.network then throw ⟨.invalidUfvk, "UFVK network mismatch"⟩
  let order ← env.reads.order.mapError fun _ =>
    ⟨.internalError, "failed to list wallet accounts"⟩
  let used ← usedIds db env.reads order
  let derivation ← accountPurpose env.hexDecode req.seedFingerprint req.zip32AccountIndex
  return (nextAccountId used, derivation)

structure Wallet where
  manager : World
  accounts : AccountDb

/-- A failure to store the metadata comes after the import. -/
def importUfvk (w : WalletId) (s : Wallet) (env : ImportEnv) (req : ImportRequest) :
    Except IpcError AccountId × Wallet :=
  match planImport w s.manager s.accounts env req, env.imported with
  | .error e, _ => (.error e, s)
  | .ok _, .error _ => (.error ⟨.internalError, "failed to import UFVK into wallet db"⟩, s)
  | .ok (id, derivation), .ok uuid =>
    match s.accounts.insert ⟨uuid, some (keySourceForAccountId id), derivation⟩ with
    | none => (.error ⟨.internalError, "failed to import UFVK into wallet db"⟩, s)
    | some accounts =>
      match (upsertAccount env.app w id .hardwareSigner).run s.manager with
      | (.error e, manager) => (.error e, ⟨manager, accounts⟩)
      | (.ok _, manager) => (.ok id, ⟨manager, accounts⟩)

/-! ## The system -/

/-- Account 0 of the seed. -/
def softwareAccounts (uuid : AccountUuid) : AccountDb where
  rows := [⟨uuid, none, some 0⟩]
  nodup := List.nodup_singleton _

def keystoneAccounts (uuid : AccountUuid) (derivation : Option ZipAccountId) : AccountDb where
  rows := [⟨uuid, some (keySourceForAccountId 0), derivation⟩]
  nodup := List.nodup_singleton _

/-- The accounts of a new wallet. -/
inductive NewAccounts : AccountDb → Prop
  | software (uuid : AccountUuid) : NewAccounts (softwareAccounts uuid)
  | keystone (uuid : AccountUuid) (hexDecode : String → Except String (List UInt8))
      (seedFingerprint : Option String) (zip32AccountIndex : Option ℕ)
      (derivation : Option ZipAccountId) :
      accountPurpose hexDecode seedFingerprint zip32AccountIndex = .ok derivation →
        NewAccounts (keystoneAccounts uuid derivation)

inductive Action
  /-- whatever else the manager does -/
  | manager (a : ZbagWallet.Action)
  | importUfvk (env : ImportEnv) (req : ImportRequest)

def DbReads.Complete (reads : DbReads) (db : AccountDb) : Prop :=
  match reads.order with
  | .ok order => Lists db order
  | .error _ => True

instance (reads : DbReads) (db : AccountDb) : Decidable (reads.Complete db) := by
  unfold DbReads.Complete
  split <;> infer_instance

def step (w : WalletId) (s : Wallet) : Action → Option Wallet
  | .manager (.call (.importUfvk ..)) => none
  | .manager a => (ZbagWallet.step s.manager a).map fun manager => { s with manager := manager }
  | .importUfvk env req =>
    if env.reads.Complete s.accounts then some (importUfvk w s env req).2 else none

/-- **A wallet's accounts** from its creation on. -/
def accountSystem (w : WalletId) : System Wallet Action where
  init s := Reach walletSystem Free s.manager ∧ NewAccounts s.accounts
  step := step w

/-! ## The number of a new account -/

variable {id : AccountId} {db : AccountDb} {used : List AccountId}
  {derivation : Option ZipAccountId} {w : WalletId} {s : World} {req : ImportRequest}
  {db' : AccountDb} {t : Wallet} {a : Action} {new : Account}

theorem Account.mem_numbers {account : Account} :
    id ∈ account.numbers ↔ account.answers id = true := by
  simp [numbers, answers_iff, Option.mem_toList]

theorem mem_usedIds {reads : DbReads} {order : List AccountUuid}
    (h : usedIds db reads order = .ok used) :
    id ∈ used ↔ ∃ uuid ∈ order, ∃ a, db.find? uuid = some a ∧ a.answers id = true := by
  induction order generalizing used with
  | nil =>
    rw [usedIds, Except.ok.injEq] at h
    subst h
    simp
  | cons uuid rest ih =>
    rw [usedIds, getAccount] at h
    cases hfail : reads.failing uuid with
    | some e =>
      rw [hfail] at h
      cases h
    | none =>
      rw [hfail] at h
      cases hfind : db.find? uuid with
      | none =>
        rw [hfind] at h
        simpa [hfind] using ih h
      | some a =>
        rw [hfind] at h
        dsimp only at h
        cases hrest : usedIds db reads rest with
        | error e =>
          rw [hrest] at h
          cases h
        | ok more =>
          rw [hrest] at h
          obtain rfl := Except.ok.inj h
          simpa [hfind, Account.mem_numbers] using or_congr_right (ih hrest)

theorem nextAccountId_lt (used : List AccountId) : nextAccountId used < 2 ^ 32 :=
  (min_le_right _ _).trans_lt (by decide)

theorem le_foldr_max (h : id ∈ used) : id ≤ used.foldr max 0 := by
  induction used with
  | nil => cases h
  | cons a rest ih =>
    rw [List.foldr_cons]
    rcases List.mem_cons.mp h with rfl | h
    · exact le_max_left _ _
    · exact (ih h).trans (le_max_right _ _)

theorem lt_nextAccountId (h : id ∈ used) (hid : id < 2 ^ 32 - 1) : id < nextAccountId used :=
  lt_min (Nat.lt_succ_of_le (le_foldr_max h)) hid

theorem nextAccountId_max (h : 2 ^ 32 - 1 ∈ used) : nextAccountId used = 2 ^ 32 - 1 :=
  min_eq_right ((le_foldr_max h).trans (Nat.le_succ _))

theorem accountPurpose_eq {hexDecode : String → Except String (List UInt8)}
    {seedFingerprint : Option String} {zip32AccountIndex : Option ℕ}
    (h : accountPurpose hexDecode seedFingerprint zip32AccountIndex = .ok derivation) :
    derivation.map Fin.val = if seedFingerprint.isSome then zip32AccountIndex else none := by
  unfold accountPurpose at h
  split at h
  · split at h
    · cases h
    · split_ifs at h
      obtain rfl := Except.ok.inj h
      rfl
  · rename_i hnot
    obtain rfl := Except.ok.inj h
    cases seedFingerprint with
    | none => rfl
    | some fingerprint =>
      cases zip32AccountIndex with
      | none => rfl
      | some index => exact absurd rfl (hnot fingerprint index rfl)

/-! ## One import -/

/-- What a call that comes to the import has read. -/
structure Planned (w : WalletId) (s : World) (db : AccountDb) (env : ImportEnv)
    (req : ImportRequest) (id : AccountId) (derivation : Option ZipAccountId) : Prop where
  unlocked : ∃ conn, ((requireUnlockedWalletDb w).run s).1 = .ok conn
  used : ∃ order used, env.reads.order = .ok order ∧ usedIds db env.reads order = .ok used ∧
    id = nextAccountId used
  purpose : accountPurpose env.hexDecode req.seedFingerprint req.zip32AccountIndex = .ok derivation

theorem planned_of_planImport {env : ImportEnv}
    (h : planImport w s db env req = .ok (id, derivation)) :
    Planned w s db env req id derivation := by
  unfold planImport at h
  dsimp only at h
  split_ifs at h
  · cases h
  obtain ⟨conn, hunlocked, h⟩ := bind_eq_ok h
  obtain ⟨network, _, h⟩ := bind_eq_ok h
  split_ifs at h
  · cases h
  obtain ⟨order, horder, h⟩ := bind_eq_ok h
  obtain ⟨used, hused, h⟩ := bind_eq_ok h
  obtain ⟨purpose, hpurpose, h⟩ := bind_eq_ok h
  obtain ⟨rfl, rfl⟩ := Prod.mk.inj (Except.ok.inj h)
  exact ⟨⟨conn, hunlocked⟩, ⟨order, used, mapError_eq_ok horder, hused, rfl⟩, hpurpose⟩

theorem importUfvk_accounts (w : WalletId) (s : Wallet) (env : ImportEnv) (req : ImportRequest) :
    (importUfvk w s env req).2 = s ∨ ∃ id derivation uuid accounts,
      Planned w s.manager s.accounts env req id derivation ∧
        s.accounts.insert ⟨uuid, some (keySourceForAccountId id), derivation⟩ = some accounts ∧
        (importUfvk w s env req).2 =
          ⟨(upsertAccount env.app w id .hardwareSigner).exec s.manager, accounts⟩ := by
  unfold importUfvk
  split
  · exact .inl rfl
  · exact .inl rfl
  · rename_i id derivation uuid hplan _
    split
    · exact .inl rfl
    · rename_i accounts hins
      refine .inr ⟨id, derivation, uuid, accounts, planned_of_planImport hplan, hins, ?_⟩
      rw [Op.exec]
      split <;> rename_i hrun <;> rw [hrun]

structure Adds (db : AccountDb) (req : ImportRequest) (new : Account) (db' : AccountDb) : Prop where
  insert : db.insert new = some db'
  id : ∃ used, (∀ n, n ∈ used ↔ ∃ a ∈ db, a.answers n = true) ∧
    new.taggedId = some (nextAccountId used)
  index : new.derivedId = if req.seedFingerprint.isSome then req.zip32AccountIndex else none

theorem Planned.adds {env : ImportEnv} {uuid : AccountUuid}
    (h : Planned w s db env req id derivation) (hcomplete : env.reads.Complete db)
    (hins : db.insert ⟨uuid, some (keySourceForAccountId id), derivation⟩ = some db') :
    Adds db req ⟨uuid, some (keySourceForAccountId id), derivation⟩ db' := by
  obtain ⟨order, used, horder, hused, rfl⟩ := h.used
  rw [DbReads.Complete, horder] at hcomplete
  refine ⟨hins, ⟨used, fun n => ?_, Account.taggedId_of_keySource rfl (nextAccountId_lt used)⟩,
    accountPurpose_eq h.purpose⟩
  rw [mem_usedIds hused]
  constructor
  · rintro ⟨uuid, _, a, hfind, hanswers⟩
    exact ⟨a, (Table.mem_find?.mp hfind).1, hanswers⟩
  · rintro ⟨a, ha, hanswers⟩
    exact ⟨a.uuid, hcomplete.mem ha, a, Table.mem_find?.mpr ⟨ha, rfl⟩, hanswers⟩

/-- **What a step does to the accounts.** -/
theorem step_accounts {s : Wallet} (h : step w s a = some t) :
    t.accounts = s.accounts ∨ ∃ env req new, a = .importUfvk env req ∧
      Adds s.accounts req new t.accounts := by
  unfold step at h
  split at h
  · cases h
  · obtain ⟨manager, _, rfl⟩ := Option.map_eq_some_iff.mp h
    exact .inl rfl
  · rename_i env req
    split_ifs at h with hcomplete
    rw [Option.some.injEq] at h
    subst h
    rcases importUfvk_accounts w s env req with hsame | ⟨id, derivation, uuid, db, hplan, hins, heq⟩
    · exact .inl (congrArg Wallet.accounts hsame)
    · rw [heq]
      exact .inr ⟨env, req, _, rfl, hplan.adds hcomplete hins⟩

/-! ## The manager's part -/

theorem importUfvk_exec {env : Env} (h : ∃ conn, ((requireUnlockedWalletDb w).run s).1 = .ok conn) :
    (ZbagWallet.importUfvk env w id).exec s = (upsertAccount env w id .hardwareSigner).exec s := by
  obtain ⟨conn, hconn⟩ := h
  have hreads := (run_of_triple (requireUnlockedWalletDb_reads w s) rfl).1 conn hconn
  exact congrArg Prod.snd (outcome_bind_ok (Prod.ext hconn hreads.1) _)

theorem step_manager {s : Wallet} (h : step w s a = some t) :
    Path walletSystem Free s.manager t.manager := by
  unfold step at h
  split at h
  · cases h
  · rename_i a _
    obtain ⟨manager, hstep, rfl⟩ := Option.map_eq_some_iff.mp h
    exact .single (a := a) trivial hstep
  · rename_i env req
    split_ifs at h
    rw [Option.some.injEq] at h
    subst h
    rcases importUfvk_accounts w s env req with hsame | ⟨id, _, _, _, hplan, _, heq⟩
    · rw [hsame]
      exact .refl
    · rw [heq, ← importUfvk_exec hplan.unlocked]
      exact .single (a := .call (.importUfvk env.app w id)) trivial rfl

/-- The index is no account's number, and the largest number is not given out. -/
def IndexFree (s : Wallet) : Action → Prop
  | .manager _ => True
  | .importUfvk _ req => ∀ a ∈ s.accounts.rows, a.taggedId ≠ some (2 ^ 32 - 1) ∧
      (req.seedFingerprint.isSome = true → ∀ index ∈ req.zip32AccountIndex,
        a.listedId ≠ some index)

instance (s : Wallet) : ∀ a, Decidable (IndexFree s a)
  | .manager _ => isTrue trivial
  | .importUfvk _ _ => inferInstanceAs (Decidable (∀ a ∈ s.accounts.rows, _))

theorem Adds.listedId (h : Adds db req new db') :
    ∃ used, (∀ n, n ∈ used ↔ ∃ a ∈ db, a.answers n = true) ∧
      new.taggedId = some (nextAccountId used) ∧ new.listedId = some (nextAccountId used) := by
  obtain ⟨used, hused, hid⟩ := h.id
  refine ⟨used, hused, hid, ?_⟩
  rw [Account.listedId, hid]
  rfl

theorem Adds.index_of_answers (h : Adds db req new db') (hid : new.derivedId = some id) :
    req.seedFingerprint.isSome = true ∧ id ∈ req.zip32AccountIndex := by
  rw [h.index] at hid
  split_ifs at hid with hfp
  exact ⟨hfp, hid⟩

theorem Adds.apart (hadd : Adds db req new db') (h : Apart db)
    (hmax : ∀ a ∈ db, a.taggedId ≠ some (2 ^ 32 - 1))
    (hfree : ∀ a ∈ db, ∀ id, a.listedId = some id → new.derivedId ≠ some id) : Apart db' := by
  obtain ⟨used, hused, htag, hlisted⟩ := hadd.listedId
  have hlt : ∀ a ∈ db, ∀ n, a.answers n = true → n < nextAccountId used := by
    intro a ha n hanswers
    refine lt_nextAccountId ((hused n).mpr ⟨a, ha, hanswers⟩) ?_
    rcases Account.answers_iff.mp hanswers with htagged | hderived
    · have hne : n ≠ 2 ^ 32 - 1 := by
        rintro rfl
        exact hmax a ha htagged
      exact lt_of_le_of_ne (Nat.le_pred_of_lt (Account.taggedId_lt htagged)) hne
    · exact (Account.derivedId_lt hderived).trans (by decide)
  constructor
  · intro a ha
    rcases (Table.mem_insert hadd.insert).mp ha with rfl | ha
    · rw [hlisted]
      rfl
    · exact h.listed a ha
  · intro a ha b hb id hid hanswers
    rcases (Table.mem_insert hadd.insert).mp ha with rfl | ha <;>
      rcases (Table.mem_insert hadd.insert).mp hb with rfl | hb
    · rfl
    · -- the new number is larger than those of the others
      rw [hlisted, Option.some.injEq] at hid
      exact absurd (hid ▸ hlt b hb id hanswers) (lt_irrefl _)
    · have hself := hlt a ha id (Account.answers_listedId hid)
      rcases Account.answers_iff.mp hanswers with htagged | hderived
      · rw [htag, Option.some.injEq] at htagged
        exact absurd (htagged ▸ hself) (lt_irrefl _)
      · exact absurd hderived (hfree a ha id hid)
    · exact h.alone a ha b hb id hid hanswers

theorem Adds.clash (hadd : Adds db req new db') {a : Account} (ha : a ∈ db)
    (h : a.taggedId = some (2 ^ 32 - 1) ∨ ∃ id, a.listedId = some id ∧ new.derivedId = some id) :
    ∃ b ∈ db', ∃ c ∈ db', b ≠ c ∧ ∃ id, b.listedId = some id ∧ c.answers id = true := by
  obtain ⟨used, hused, _, hlisted⟩ := hadd.listedId
  have hnew : new ∈ db' := (Table.mem_insert hadd.insert).mpr (.inl rfl)
  have hold : a ∈ db' := (Table.mem_insert hadd.insert).mpr (.inr ha)
  have hne : a ≠ new := by
    rintro rfl
    exact Table.not_mem_of_insert hadd.insert ha
  rcases h with hmax | ⟨id, hid, hderived⟩
  · have hanswers : a.answers (2 ^ 32 - 1) = true := Account.answers_iff.mpr (.inl hmax)
    have hnext := nextAccountId_max ((hused _).mpr ⟨a, ha, hanswers⟩)
    exact ⟨new, hnew, a, hold, hne.symm, _, hlisted, hnext ▸ hanswers⟩
  · exact ⟨a, hold, new, hnew, hne, id, hid, Account.answers_iff.mpr (.inr hderived)⟩

/-! ## Runs -/

theorem NewAccounts.apart (h : NewAccounts db) : Apart db := by
  have hsingle : ∀ (a : Account) (hn : ([a].map Account.uuid).Nodup), a.listedId.isSome = true →
      Apart ⟨[a], hn⟩ := by
    intro a hn hlisted
    refine ⟨fun b hb => ?_, fun b hb c hc _ _ _ => ?_⟩
    · rwa [List.mem_singleton.mp hb]
    · rw [List.mem_singleton.mp hb, List.mem_singleton.mp hc]
  cases h with
  | software uuid => exact hsingle _ _ rfl
  | keystone uuid _ _ _ derivation _ =>
    refine hsingle _ _ ?_
    have htag : (⟨uuid, some (keySourceForAccountId 0), derivation⟩ : Account).taggedId = some 0 :=
      Account.taggedId_of_keySource rfl (by decide)
    rw [Account.listedId, htag]
    rfl

theorem step_apart {s : Wallet} (hs : Apart s.accounts) (hfree : IndexFree s a)
    (h : step w s a = some t) : Apart t.accounts := by
  rcases step_accounts h with hsame | ⟨env, req, new, rfl, hadd⟩
  · rw [hsame]
    exact hs
  · refine hadd.apart hs (fun a ha => (hfree a ha).1) fun a ha id hid hderived => ?_
    obtain ⟨hfp, hindex⟩ := hadd.index_of_answers hderived
    exact (hfree a ha).2 hfp id hindex hid

theorem mem_accounts_of_path {u : Wallet} (h : Path (accountSystem w) Free t u) {a : Account}
    (ha : a ∈ t.accounts) : a ∈ u.accounts :=
  h.invariant (I := fun v => a ∈ v.accounts) ha fun v b v' hv _ hstep => by
    rcases step_accounts hstep with hsame | ⟨_, _, new, _, hadd⟩
    · rw [hsame]
      exact hv
    · exact (Table.mem_insert hadd.insert).mpr (.inr hv)

/-- **Account numbers.** Each account has a number of its own that every resolver maps to it, if
imported indices are nobody's number. Any other import breaks this for good. -/
theorem accounts_resolve (w : WalletId) :
    (∀ s, Reach (accountSystem w) IndexFree s → Resolves s.accounts) ∧
      ∀ s a t u, step w s a = some t → t.accounts ≠ s.accounts → ¬ IndexFree s a →
        Path (accountSystem w) Free t u → ¬ Resolves u.accounts := by
  constructor
  · intro s hs
    have hapart : Apart s.accounts :=
      hs.invariant (I := fun s => Apart s.accounts) (fun s hs => hs.2.apart)
        fun s a t hs hfree hstep => step_apart hs hfree hstep
    exact hapart.resolves
  · intro s a t u hstep hne hfree hpath hres
    rcases step_accounts hstep with hsame | ⟨env, req, new, rfl, hadd⟩
    · exact hne hsame
    · simp only [IndexFree, not_forall] at hfree
      obtain ⟨a, ha, hbad⟩ := hfree
      have hclash : a.taggedId = some (2 ^ 32 - 1) ∨
          ∃ id, a.listedId = some id ∧ new.derivedId = some id := by
        by_contra hno
        simp only [not_or, not_exists, not_and] at hno
        refine hbad ⟨hno.1, fun hfp index hindex hid => hno.2 index hid ?_⟩
        rw [hadd.index, if_pos hfp]
        exact hindex
      obtain ⟨b, hb, c, hc, hbc, id, hid, hanswers⟩ := hadd.clash ha hclash
      have hb' := mem_accounts_of_path hpath hb
      have hc' := mem_accounts_of_path hpath hc
      exact hbc (hres.alone hb' hc' hid hanswers).symm

/-! ## A Keystone account beside a software account -/

def restored : Wallet where
  manager := (restoreWallet .works .works .works 0 (List.replicate 24 "abandon") true).exec .fresh
  accounts := softwareAccounts 1

theorem restored_init : (accountSystem 0).init restored :=
  ⟨Reach.step (.of_init rfl) (a := .call (.restoreWallet .works .works .works 0
    (List.replicate 24 "abandon") true)) trivial rfl, .software 1⟩

def importIndex (index : ℕ) : Action :=
  .importUfvk ⟨.main, .ok .main, fun _ => .ok (List.replicate 32 0), .all [1], .ok 2, .works⟩
    ⟨"Keystone", some (String.ofList (List.replicate 64 '0')), some index⟩

/-- The signer's account 0, imported as account 1 of a software wallet, is found as account 0. -/
theorem imported_account_found_first :
    ∃ s, Reach (accountSystem 0) Free s ∧ Lists s.accounts [2, 1] ∧
      (∃ a ∈ s.accounts.rows, a.uuid = 1 ∧ a.listedId = some 0) ∧
      (∃ a ∈ s.accounts.rows, a.uuid = 2 ∧ a.listedId = some 1) ∧
      (resolveWalletAccountUuid s.accounts (.all [2, 1]) 0).toOption = some 2 ∧
      (shieldLookup s.accounts (.all [2, 1]) 0).toOption = some 2 :=
  exec_reach [importIndex 0] restored_init (along_free _ _) (by decide +kernel)

theorem accounts_resolve_restored :
    (∃ s, Reach (accountSystem 0) IndexFree s ∧ s.accounts.rows.length = 2 ∧
      Resolves s.accounts) ∧
    ∃ t, step 0 restored (importIndex 0) = some t ∧ t.accounts ≠ restored.accounts ∧
      ¬ Resolves t.accounts := by
  constructor
  · have hrun : ∃ s, Reach (accountSystem 0) IndexFree s ∧ s.accounts.rows.length = 2 :=
      exec_reach [importIndex 5] restored_init (by decide +kernel) (by decide +kernel)
    obtain ⟨s, hs, hlength⟩ := hrun
    exact ⟨s, hs, hlength, (accounts_resolve 0).1 s hs⟩
  · have hstep : ∃ t ∈ step 0 restored (importIndex 0), t.accounts.rows.length = 2 := by
      decide +kernel
    obtain ⟨t, hstep, hlength⟩ := hstep
    have hne : t.accounts ≠ restored.accounts := by
      intro h
      rw [h] at hlength
      cases hlength
    exact ⟨t, hstep, hne,
      (accounts_resolve 0).2 restored _ t t hstep hne (by decide +kernel) .refl⟩

end ZbagAccount
