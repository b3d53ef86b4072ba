import Mathlib.Data.List.MinMax
import Zbag.Account.Ids
import Zbag.Lib.Operation
import Zbag.Lib.Transition

/-!
# Accounts — receive addresses

`get_receive_address` hands out shielded addresses by their diversifier index. It starts at the
counter of `receive_rotation`, but behind every index that the wallet database lists, tries up to
1000 indices, and stores the next one before it returns. The two databases are written one after
the other, so a call may fail in between.
-/

namespace ZbagAccount

open ZbagWallet Transition Operation

/-! ## The two databases -/

def u64Max : ℕ := 2 ^ 64 - 1

def i64Max : ℕ := 2 ^ 63 - 1

structure RotationKey where
  wallet : WalletId
  account : AccountId
  deriving DecidableEq, Repr

/-- The table `receive_rotation`, and the indices of the addresses that a wallet lists. -/
structure AddressDb where
  rotation : RotationKey → Option Int
  listed : WalletId → AccountUuid → List ℕ

def AddressDb.addAddress (s : AddressDb) (w : WalletId) (account : AccountUuid) (index : ℕ) :
    AddressDb :=
  { s with
    listed := Function.update s.listed w
      (Function.update (s.listed w) account (index :: s.listed w account)) }

def AddressDb.setRotation (s : AddressDb) (key : RotationKey) (next : ℕ) : AddressDb :=
  { s with rotation := Function.update s.rotation key (some next) }

/-- A failed write may have been made all the same. -/
inductive RowWrite
  | done
  | failed (written : Bool)
  deriving DecidableEq, Repr

/-- `failing`: the query fails. -/
def getNextDiversifierIndex (s : AddressDb) (failing : Bool) (key : RotationKey) :
    Except IpcError (Option ℕ) :=
  if failing then .error ⟨.internalError, "failed to load receive rotation state"⟩
  else
    match s.rotation key with
    | none => .ok none
    | some stored =>
      -- the conversion of an `i64` to a `u64`
      if stored < 0 then .error ⟨.internalError, "failed to load receive rotation state"⟩
      else .ok (some stored.toNat)

/-- It says whether it has succeeded. -/
def setNextDiversifierIndex (s : AddressDb) (key : RotationKey) (next : ℕ) (write : RowWrite) :
    Bool × AddressDb :=
  if next > i64Max then (false, s)
  else
    match write with
    | .done => (true, s.setRotation key next)
    | .failed written => (false, if written then s.setRotation key next else s)

/-! ## Addresses -/

inductive AddressType
  | shieldedOnly
  | transparent
  deriving DecidableEq, Repr

structure AddressInfo where
  encoded : String
  addressType : AddressType
  diversifierIndex : ℕ
  deriving DecidableEq, Repr

/-- The unified addresses, with an Orchard receiver only or with a Sapling one too. -/
structure UaEncoding where
  encode : WalletId → AccountUuid → Bool → ℕ → String
  inj : ∀ w a b i a' b' i', encode w a b i = encode w a' b' i' → i = i'

/-- What `get_address_for_index` answers. -/
inductive Derived
  | failed
  /-- no address at this index -/
  | invalid
  /-- the wallet database may record it -/
  | address (recorded : Bool)
  deriving DecidableEq, Repr

structure TransparentReceiver where
  encoded : String
  addressIndex : Option ℕ
  deriving DecidableEq, Repr

structure AddressEnv where
  accounts : AccountDb
  reads : DbReads
  isHardwareSigner : Except String Bool
  listFails : Bool
  rotationFails : Bool
  derive : ℕ → Derived
  write : RowWrite
  /-- before and after an address is derived -/
  receivers : Except String (List TransparentReceiver)
  nextAvailable : Except String ℕ
  receiversAfter : Except String (List TransparentReceiver)

/-! ## The search -/

def maxExisting (best : Option ℕ) : List ℕ → Except IpcError (Option ℕ)
  | [] => .ok best
  | index :: rest =>
    if index ≤ u64Max then maxExisting (some (best.elim index (max · index))) rest
    else .error ⟨.internalError, "diversifier index out of range"⟩

def nextDiversifierIndex (s : AddressDb) (env : AddressEnv) (key : RotationKey)
    (account : AccountUuid) : Except IpcError ℕ := do
  if env.listFails then throw ⟨.internalError, "failed to list wallet addresses"⟩
  let existing ← maxExisting none (s.listed key.wallet account)
  let storedNext ← getNextDiversifierIndex s env.rotationFails key
  let minNext := existing.elim 0 fun index => min (index + 1) u64Max
  return max (storedNext.getD minNext) minNext

/-- `fuel` candidates are left. -/
def deriveFrom (u : UaEncoding) (env : AddressEnv) (key : RotationKey) (account : AccountUuid)
    (hardware : Bool) : ℕ → ℕ → AddressDb → Except IpcError AddressInfo × AddressDb
  | 0, _, s => (.error ⟨.internalError, "unable to derive receive address"⟩, s)
  | fuel + 1, candidate, s =>
    match env.derive candidate with
    | .failed => (.error ⟨.internalError, "failed to derive receive address"⟩, s)
    | .address recorded =>
      let s := if recorded then s.addAddress key.wallet account candidate else s
      match setNextDiversifierIndex s key (min (candidate + 1) u64Max) env.write with
      | (false, s) => (.error ⟨.internalError, "failed to update receive rotation state"⟩, s)
      | (true, s) =>
        (.ok ⟨u.encode key.wallet account hardware candidate, .shieldedOnly, candidate⟩, s)
    | .invalid =>
      if candidate < u64Max then deriveFrom u env key account hardware fuel (candidate + 1) s
      else (.error ⟨.internalError, "diversifier index overflow"⟩, s)

/-- A call for a shielded address. -/
def shieldedAddress (u : UaEncoding) (env : AddressEnv) (key : RotationKey)
    (account : AccountUuid) (hardware : Bool) (s : AddressDb) :
    Except IpcError AddressInfo × AddressDb :=
  match nextDiversifierIndex s env key account with
  | .error e => (.error e, s)
  | .ok next => deriveFrom u env key account hardware 1000 next s

def leastReceiver (receivers : List TransparentReceiver) : Except IpcError AddressInfo :=
  match receivers.argmin fun r => r.addressIndex.getD (2 ^ 32 - 1) with
  | none => .error ⟨.internalError, "no transparent receiver available"⟩
  | some r => .ok ⟨r.encoded, .transparent, r.addressIndex.getD 0⟩

/-- It derives an address if there is no receiver yet. -/
def transparentAddress (env : AddressEnv) (key : RotationKey) (account : AccountUuid)
    (s : AddressDb) : Except IpcError AddressInfo × AddressDb :=
  match env.receivers with
  | .error _ => (.error ⟨.internalError, "failed to list transparent receivers"⟩, s)
  | .ok [] =>
    match env.nextAvailable with
    | .error _ =>
      (.error ⟨.internalError, "failed to derive an address with transparent receiver"⟩, s)
    | .ok index =>
      let s := s.addAddress key.wallet account index
      match env.receiversAfter with
      | .error _ => (.error ⟨.internalError, "failed to list transparent receivers"⟩, s)
      | .ok receivers => (leastReceiver receivers, s)
  | .ok receivers => (leastReceiver receivers, s)

def getReceiveAddress (u : UaEncoding) (env : AddressEnv) (key : RotationKey)
    (addressType : AddressType) (s : AddressDb) : Except IpcError AddressInfo × AddressDb :=
  match addressFindAccountUuid env.accounts env.reads key.account, env.isHardwareSigner with
  | .error e, _ => (.error e, s)
  | .ok _, .error e => (.error ⟨.internalError, e⟩, s)
  | .ok account, .ok hardware =>
    match addressType with
    | .shieldedOnly => shieldedAddress u env key account hardware s
    | .transparent => transparentAddress env key account s

/-! ## What a call does -/

theorem maxExisting_spec {best m : Option ℕ} {indices : List ℕ}
    (h : maxExisting best indices = .ok m) :
    (∀ b ∈ best, ∃ c ∈ m, b ≤ c) ∧ ∀ i ∈ indices, ∃ c ∈ m, i ≤ c := by
  induction indices generalizing best with
  | nil =>
    cases h
    exact ⟨fun b hb => ⟨b, hb, le_rfl⟩, by simp⟩
  | cons index rest ih =>
    unfold maxExisting at h
    split_ifs at h
    obtain ⟨hbest, hrest⟩ := ih h
    -- what the accumulator has reached is below the maximum
    obtain ⟨c, hc, hle⟩ := hbest _ rfl
    have hindex : index ≤ c := by
      cases best with
      | none => exact hle
      | some b => exact (le_max_right b index).trans hle
    refine ⟨fun b hb => ⟨c, hc, ?_⟩, fun i hi => ?_⟩
    · obtain rfl := hb
      exact (le_max_left b index).trans hle
    · rcases List.mem_cons.mp hi with rfl | hi
      · exact ⟨c, hc, hindex⟩
      · exact hrest i hi

variable {s : AddressDb} {key : RotationKey} {u : UaEncoding}

theorem getNextDiversifierIndex_spec {failing : Bool} {next : Option ℕ}
    (h : getNextDiversifierIndex s failing key = .ok next) :
    s.rotation key = next.map Int.ofNat := by
  unfold getNextDiversifierIndex at h
  split_ifs at h
  split at h
  · rename_i hrow
    cases h
    exact hrow
  · rename_i stored hrow
    split_ifs at h with hneg
    cases h
    rw [hrow]
    simp [Int.toNat_of_nonneg (not_lt.mp hneg)]

theorem nextDiversifierIndex_spec {env : AddressEnv} {account : AccountUuid} {next : ℕ}
    (h : nextDiversifierIndex s env key account = .ok next) :
    (∀ v ∈ s.rotation key, v ≤ next) ∧
      ∀ i ∈ s.listed key.wallet account, min (i + 1) u64Max ≤ next := by
  unfold nextDiversifierIndex at h
  dsimp only at h
  split_ifs at h
  · cases h
  obtain ⟨existing, hexisting, h⟩ := bind_eq_ok h
  obtain ⟨storedNext, hstored, h⟩ := bind_eq_ok h
  cases h
  refine ⟨fun v hv => ?_, fun i hi => ?_⟩
  · rw [getNextDiversifierIndex_spec hstored] at hv
    obtain ⟨n, rfl, rfl⟩ := Option.map_eq_some_iff.mp hv
    exact Int.ofNat_le.mpr (le_max_left _ _)
  · obtain ⟨c, rfl, hle⟩ := (maxExisting_spec hexisting).2 i hi
    exact (min_le_min (by omega) le_rfl).trans (le_max_right _ _)

theorem setNextDiversifierIndex_cases (s : AddressDb) (key : RotationKey) (next : ℕ)
    (write : RowWrite) :
    setNextDiversifierIndex s key next write = (false, s) ∨
      next ≤ i64Max ∧ ∃ ok, setNextDiversifierIndex s key next write =
        (ok, s.setRotation key next) := by
  unfold setNextDiversifierIndex
  split_ifs with hmax
  · exact .inl rfl
  · cases write with
    | done => exact .inr ⟨not_lt.mp hmax, true, rfl⟩
    | failed written =>
      cases written with
      | true => exact .inr ⟨not_lt.mp hmax, false, rfl⟩
      | false => exact .inl rfl

/-- What a search from `start` on leaves. -/
structure Searched (u : UaEncoding) (key : RotationKey) (account : AccountUuid) (start : ℕ)
    (s : AddressDb) (result : Except IpcError AddressInfo) (s' : AddressDb) : Prop where
  frame : ∀ k, k ≠ key → s'.rotation k = s.rotation k
  counter : s'.rotation key = s.rotation key ∨
    ∃ index, start ≤ index ∧ index + 1 ≤ i64Max ∧ s'.rotation key = some (index + 1)
  returned : ∀ info, result = .ok info → start ≤ info.diversifierIndex ∧
    info.diversifierIndex + 1 ≤ i64Max ∧ s'.rotation key = some (info.diversifierIndex + 1 : ℤ) ∧
    ∃ hardware, info.encoded = u.encode key.wallet account hardware info.diversifierIndex

/-- **What the search does.** -/
theorem deriveFrom_spec (u : UaEncoding) (env : AddressEnv) (key : RotationKey)
    (account : AccountUuid) (hardware : Bool) (fuel start : ℕ) (s : AddressDb) :
    Searched u key account start s (deriveFrom u env key account hardware fuel start s).1
      (deriveFrom u env key account hardware fuel start s).2 := by
  induction fuel generalizing start with
  | zero => exact ⟨fun _ _ => rfl, .inl rfl, nofun⟩
  | succ fuel ih =>
    unfold deriveFrom
    cases env.derive start with
    | failed => exact ⟨fun _ _ => rfl, .inl rfl, nofun⟩
    | invalid =>
      split_ifs with hlt
      · obtain ⟨hframe, hcounter, hreturned⟩ := ih (start + 1)
        refine ⟨hframe, hcounter.imp_right fun ⟨index, hle, h⟩ => ⟨index, by omega, h⟩, ?_⟩
        intro info hinfo
        obtain ⟨hle, h⟩ := hreturned info hinfo
        exact ⟨by omega, h⟩
      · exact ⟨fun _ _ => rfl, .inl rfl, nofun⟩
    | address recorded =>
      dsimp only
      set t := if recorded then s.addAddress key.wallet account start else s with ht
      have htrot : t.rotation = s.rotation := by
        rw [ht]
        split_ifs <;> rfl
      rcases setNextDiversifierIndex_cases t key (min (start + 1) u64Max) env.write with
        hset | ⟨hmax, ok, hset⟩
      · rw [hset]
        exact ⟨fun k _ => congrFun htrot k, .inl (congrFun htrot key), nofun⟩
      · -- the stored value fits an `i64`, so the addition has not saturated
        have hnext : min (start + 1) u64Max = start + 1 := by
          unfold i64Max at hmax
          unfold u64Max at hmax ⊢
          omega
        rw [hnext] at hmax hset
        rw [hnext, hset]
        have hkey : (t.setRotation key (start + 1)).rotation key = some (start + 1 : ℤ) :=
          Function.update_self ..
        have hframe : ∀ k, k ≠ key →
            (t.setRotation key (start + 1)).rotation k = s.rotation k := fun k hk =>
          (Function.update_of_ne hk ..).trans (congrFun htrot k)
        cases ok with
        | false => exact ⟨hframe, .inr ⟨start, le_rfl, hmax, hkey⟩, nofun⟩
        | true =>
          refine ⟨hframe, .inr ⟨start, le_rfl, hmax, hkey⟩, fun info h => ?_⟩
          cases h
          exact ⟨le_rfl, hmax, hkey, hardware, rfl⟩

/-! ## Runs -/

def AddressDb.listedFor (s : AddressDb) (env : AddressEnv) (key : RotationKey) : List ℕ :=
  match addressFindAccountUuid env.accounts env.reads key.account with
  | .ok account => s.listed key.wallet account
  | .error _ => []

/-- A shielded address with the indices listed when its call began. -/
structure Handed where
  key : RotationKey
  listedBefore : List ℕ
  info : AddressInfo
  deriving DecidableEq, Repr

/-- The addresses handed out, latest first. -/
structure AddressRun where
  db : AddressDb
  handed : List Handed

inductive AddressAction
  | getReceiveAddress (env : AddressEnv) (key : RotationKey) (addressType : AddressType)
  | addAddress (wallet : WalletId) (account : AccountUuid) (index : ℕ)

def AddressRun.step (u : UaEncoding) (s : AddressRun) : AddressAction → Option AddressRun
  | .getReceiveAddress env key addressType =>
    match addressType, getReceiveAddress u env key addressType s.db with
    | .shieldedOnly, (.ok info, db) => some ⟨db, ⟨key, s.db.listedFor env key, info⟩ :: s.handed⟩
    | _, (_, db) => some ⟨db, s.handed⟩
  | .addAddress w account index => some { s with db := s.db.addAddress w account index }

/-- **All runs of calls**, from any databases. -/
def addressSystem (u : UaEncoding) : System AddressRun AddressAction where
  init s := s.handed = []
  step := AddressRun.step u

/-- The counter of `key` is behind the index. -/
def AddressDb.Past (s : AddressDb) (key : RotationKey) (index : ℕ) : Prop :=
  ∃ v ∈ s.rotation key, (index : ℤ) < v

theorem shieldedAddress_spec (u : UaEncoding) (env : AddressEnv) (key : RotationKey)
    (account : AccountUuid) (hardware : Bool) (s : AddressDb) :
    (∀ k i, s.Past k i → (shieldedAddress u env key account hardware s).2.Past k i) ∧
      ∀ info, (shieldedAddress u env key account hardware s).1 = .ok info →
        (shieldedAddress u env key account hardware s).2.Past key info.diversifierIndex ∧
        (∀ i, s.Past key i → i < info.diversifierIndex) ∧
        (∀ i ∈ s.listed key.wallet account, i < info.diversifierIndex) ∧
        ∃ hardware, info.encoded = u.encode key.wallet account hardware info.diversifierIndex := by
  unfold shieldedAddress
  cases hnext : nextDiversifierIndex s env key account with
  | error e => exact ⟨fun _ _ h => h, nofun⟩
  | ok next =>
    obtain ⟨hstored, hlisted⟩ := nextDiversifierIndex_spec hnext
    obtain ⟨hframe, hcounter, hreturned⟩ := deriveFrom_spec u env key account hardware 1000 next s
    refine ⟨fun k i hi => ?_, fun info hinfo => ?_⟩
    · obtain ⟨v, hv, hlt⟩ := hi
      by_cases hk : k = key
      · subst hk
        rcases hcounter with hsame | ⟨index, hle, -, hnew⟩
        · exact ⟨v, hsame ▸ hv, hlt⟩
        · have := hstored v hv
          exact ⟨_, hnew, by omega⟩
      · exact ⟨v, (hframe k hk) ▸ hv, hlt⟩
    · obtain ⟨hle, hmax, hnew, hencoded⟩ := hreturned info hinfo
      refine ⟨⟨_, hnew, by omega⟩, fun i ⟨v, hv, hlt⟩ => ?_, fun i hi => ?_, hencoded⟩
      · have := hstored v hv
        omega
      · have := hlisted i hi
        unfold i64Max at hmax
        unfold u64Max at this
        omega

theorem transparentAddress_rotation (env : AddressEnv) (key : RotationKey)
    (account : AccountUuid) (s : AddressDb) :
    (transparentAddress env key account s).2.rotation = s.rotation := by
  unfold transparentAddress
  split
  · rfl
  · split
    · rfl
    · dsimp only
      split <;> rfl
  · rfl

/-- **No call takes a counter back.** -/
theorem getReceiveAddress_past (u : UaEncoding) (env : AddressEnv) (key : RotationKey)
    (addressType : AddressType) {k : RotationKey} {i : ℕ} (h : s.Past k i) :
    (getReceiveAddress u env key addressType s).2.Past k i := by
  unfold getReceiveAddress
  split
  · exact h
  · exact h
  · cases addressType with
    | shieldedOnly => exact (shieldedAddress_spec ..).1 k i h
    | transparent =>
      obtain ⟨v, hv, hlt⟩ := h
      exact ⟨v, by rwa [transparentAddress_rotation], hlt⟩

theorem getReceiveAddress_returned {env : AddressEnv} {s' : AddressDb} {info : AddressInfo}
    (h : getReceiveAddress u env key .shieldedOnly s = (.ok info, s')) :
    s'.Past key info.diversifierIndex ∧ (∀ i, s.Past key i → i < info.diversifierIndex) ∧
      (∀ i ∈ s.listedFor env key, i < info.diversifierIndex) ∧
      ∃ account hardware,
        info.encoded = u.encode key.wallet account hardware info.diversifierIndex := by
  unfold getReceiveAddress at h
  unfold AddressDb.listedFor
  cases haccount : addressFindAccountUuid env.accounts env.reads key.account with
  | error e => simp [haccount] at h
  | ok account =>
    cases hhw : env.isHardwareSigner with
    | error e => simp [haccount, hhw] at h
    | ok hardware =>
      simp only [haccount, hhw] at h
      have hspec := (shieldedAddress_spec u env key account hardware s).2 info
      rw [h] at hspec
      obtain ⟨hpast, hafter, hlisted, hencoded⟩ := hspec rfl
      exact ⟨hpast, hafter, hlisted, account, hencoded⟩

structure AddressRun.Inv (u : UaEncoding) (s : AddressRun) : Prop where
  past : ∀ x ∈ s.handed, s.db.Past x.key x.info.diversifierIndex
  encoded : ∀ x ∈ s.handed, ∃ account hardware,
    x.info.encoded = u.encode x.key.wallet account hardware x.info.diversifierIndex
  listed : ∀ x ∈ s.handed, ∀ i ∈ x.listedBefore, i < x.info.diversifierIndex
  increasing : s.handed.Pairwise fun later earlier => later.key = earlier.key →
    earlier.info.diversifierIndex < later.info.diversifierIndex

theorem AddressRun.Inv.of_past {s : AddressRun} (h : s.Inv u) {db : AddressDb}
    (hdb : ∀ k i, s.db.Past k i → db.Past k i) : AddressRun.Inv u ⟨db, s.handed⟩ :=
  ⟨fun x hx => hdb _ _ (h.past x hx), h.encoded, h.listed, h.increasing⟩

theorem AddressRun.Inv.step {s s' : AddressRun} {a : AddressAction} (h : s.Inv u)
    (hstep : s.step u a = some s') : s'.Inv u := by
  cases a with
  | addAddress w account index =>
    cases hstep
    exact h.of_past fun _ _ hp => hp
  | getReceiveAddress env key addressType =>
    have hpast : ∀ k i, s.db.Past k i → (getReceiveAddress u env key addressType s.db).2.Past k i :=
      fun _ _ => getReceiveAddress_past u env key addressType
    unfold AddressRun.step at hstep
    dsimp only at hstep
    split at hstep
    · rename_i info db hcall
      cases hstep
      rw [hcall] at hpast
      obtain ⟨hnew, hafter, hlisted, hencoded⟩ := getReceiveAddress_returned hcall
      refine ⟨?_, ?_, ?_, List.pairwise_cons.mpr ⟨?_, h.increasing⟩⟩
      · rintro x (_ | ⟨_, hx⟩)
        · exact hnew
        · exact hpast _ _ (h.past x hx)
      · rintro x (_ | ⟨_, hx⟩)
        · exact hencoded
        · exact h.encoded x hx
      · rintro x (_ | ⟨_, hx⟩)
        · exact hlisted
        · exact h.listed x hx
      · rintro earlier hearlier (rfl : key = earlier.key)
        exact hafter _ (h.past earlier hearlier)
    · rename_i hcall
      cases hstep
      rw [hcall] at hpast
      exact h.of_past hpast

/-- **The shielded addresses of an account have increasing indices**, so none is handed out twice.
-/
theorem shielded_indices_increase {u : UaEncoding} {s : AddressRun}
    (h : Reach (addressSystem u) Free s) :
    (s.handed.Pairwise fun later earlier => later.key = earlier.key →
      earlier.info.diversifierIndex < later.info.diversifierIndex ∧
        earlier.info.encoded ≠ later.info.encoded) ∧
      ∀ x ∈ s.handed, ∀ i ∈ x.listedBefore, i < x.info.diversifierIndex := by
  have hinv : s.Inv u := by
    refine h.invariant (fun s hs => ?_) fun _ _ _ hs _ hstep => hs.step hstep
    have hnil : s.handed = [] := hs
    exact ⟨by simp [hnil], by simp [hnil], by simp [hnil], by simp [hnil]⟩
  refine ⟨hinv.increasing.imp_of_mem ?_, hinv.listed⟩
  intro later earlier hlater hearlier hlt hkey
  refine ⟨hlt hkey, fun hsame => ?_⟩
  obtain ⟨a, b, henc⟩ := hinv.encoded earlier hearlier
  obtain ⟨a', b', henc'⟩ := hinv.encoded later hlater
  rw [henc, henc', hkey] at hsame
  exact absurd (u.inj _ _ _ _ _ _ _ hsame) (hlt hkey).ne

/-- An encoding by length. -/
def unaryEncoding : UaEncoding where
  encode _ _ _ i := String.ofList (List.replicate i 'u')
  inj _ _ _ i _ _ i' h := by simpa using congrArg (fun s => s.toList.length) h

/-- The account has no address at index 4. -/
def oneAccountCall (write : RowWrite) (addressType : AddressType) : AddressAction :=
  .getReceiveAddress
    { accounts := ⟨[⟨0, none, some 0⟩], List.nodup_singleton _⟩
      reads := .all [0]
      isHardwareSigner := .ok false
      listFails := false
      rotationFails := false
      derive := fun i => if i = 4 then .invalid else .address true
      write
      receivers := .ok []
      nextAvailable := .ok 6
      receiversAfter := .ok [⟨"t1", some 6⟩] }
    ⟨0, 0⟩ addressType

theorem shielded_indices_increase_mixed : ∃ s, Reach (addressSystem unaryEncoding) Free s ∧
    s.handed.map (fun x => (x.info.diversifierIndex, x.listedBefore)) =
      [(7, [6, 5, 3, 2]), (3, [2])] ∧
    s.handed.Pairwise fun later earlier => later.key = earlier.key →
      earlier.info.diversifierIndex < later.info.diversifierIndex ∧
        earlier.info.encoded ≠ later.info.encoded := by
  obtain ⟨s, hs, hhanded⟩ := exec_reach (S := addressSystem unaryEncoding) (G := Free)
    (s := ⟨⟨fun _ => none, fun _ _ => [2]⟩, []⟩)
    (p := fun s => s.handed.map (fun x => (x.info.diversifierIndex, x.listedBefore)) =
      [(7, [6, 5, 3, 2]), (3, [2])])
    [oneAccountCall .done .shieldedOnly, oneAccountCall (.failed false) .shieldedOnly,
      oneAccountCall .done .transparent, oneAccountCall .done .shieldedOnly]
    rfl (along_free _ _) (by decide)
  exact ⟨s, hs, hhanded, (shielded_indices_increase hs).1⟩

end ZbagAccount
