import Mathlib.Algebra.Ring.Nat
import Mathlib.Data.List.Destutter
import Mathlib.Data.List.Sort
import Zbag.Lib.Table
import Zbag.Wallet.State

/-!
# Accounts — account numbers

An account of the wallet database is known to the application by a number. It is written into the
account's key source as `zbag-account-id:N`; an account without such a tag goes by its ZIP 32
account index. An account may have both, and they may differ.

* `listWalletDbAccountIds`, the resolvers, and what they return for any order of the accounts.
-/

namespace ZbagAccount

open ZbagWallet

/-! ## Key sources -/

def accountIdKeySourcePrefix : String := "zbag-account-id:"

def keySourceForAccountId (id : AccountId) : String :=
  accountIdKeySourcePrefix ++ toString id

/-- `str::parse::<u32>` -/
def parseU32 (text : List Char) : Option ℕ :=
  let digits := if text.head? = some '+' then text.tail else text
  if digits ≠ [] ∧ digits.all Char.isDigit ∧ Nat.ofDigitChars 10 digits 0 < 2 ^ 32 then
    some (Nat.ofDigitChars 10 digits 0)
  else none

def parseAccountIdFromKeySource (keySource : String) : Option AccountId :=
  if accountIdKeySourcePrefix.toList <+: keySource.toList then
    parseU32 (keySource.toList.drop accountIdKeySourcePrefix.toList.length)
  else none

theorem parseU32_toDigits {n : ℕ} (h : n < 2 ^ 32) : parseU32 (Nat.toDigits 10 n) = some n := by
  have hdigits : ∀ c ∈ Nat.toDigits 10 n, c.isDigit = true := fun c hc =>
    Nat.isDigit_of_mem_toDigits (by decide) (by decide) hc
  have hplus : (Nat.toDigits 10 n).head? ≠ some '+' := fun hhead =>
    absurd (hdigits '+' (List.mem_of_head? hhead)) (by decide)
  have hvalue : Nat.ofDigitChars 10 (Nat.toDigits 10 n) 0 = n :=
    Nat.ofDigitChars_toDigits (by decide) (by decide)
  rw [parseU32, if_neg hplus, hvalue, if_pos]
  exact ⟨Nat.toDigits_ne_nil, List.all_eq_true.mpr hdigits, h⟩

theorem parseU32_lt {text : List Char} {n : ℕ} (h : parseU32 text = some n) : n < 2 ^ 32 := by
  unfold parseU32 at h
  dsimp only at h
  generalize (if text.head? = some '+' then text.tail else text) = digits at h
  split_ifs at h with hdigits
  rw [Option.some.injEq] at h
  exact h ▸ hdigits.2.2

variable {id : AccountId}

/-- **The number of a key source is read back.** -/
theorem parse_keySource (h : id < 2 ^ 32) :
    parseAccountIdFromKeySource (keySourceForAccountId id) = some id := by
  have htext : (keySourceForAccountId id).toList =
      accountIdKeySourcePrefix.toList ++ Nat.toDigits 10 id := by
    rw [keySourceForAccountId, String.toList_append, Nat.toString_eq_ofList_toDigits,
      String.toList_ofList]
  rw [parseAccountIdFromKeySource, htext, if_pos (List.prefix_append _ _), List.drop_left,
    parseU32_toDigits h]

theorem parse_lt {keySource : String} (h : parseAccountIdFromKeySource keySource = some id) :
    id < 2 ^ 32 := by
  unfold parseAccountIdFromKeySource at h
  split_ifs at h
  exact parseU32_lt h

/-! ## Accounts -/

abbrev AccountUuid := ℕ

abbrev ZipAccountId := Fin (2 ^ 31)

instance neZeroAccountIds : NeZero (2 ^ 31) := ⟨by decide⟩

/-- Where the keys of an account come from. -/
structure Account where
  uuid : AccountUuid
  keySource : Option String
  /-- of the ZIP 32 derivation -/
  keyDerivation : Option ZipAccountId
  deriving DecidableEq, Repr

def Account.taggedId (account : Account) : Option AccountId :=
  account.keySource.bind parseAccountIdFromKeySource

def Account.derivedId (account : Account) : Option AccountId :=
  account.keyDerivation.map Fin.val

/-- The number that the application knows the account by. -/
def Account.listedId (account : Account) : Option AccountId :=
  account.taggedId <|> account.derivedId

/-- A resolver takes either number. -/
def Account.answers (account : Account) (id : AccountId) : Bool :=
  account.taggedId = some id || account.derivedId = some id

variable {account : Account} {order : List AccountUuid}

theorem Account.answers_iff :
    account.answers id = true ↔ account.taggedId = some id ∨ account.derivedId = some id := by
  simp [answers]

theorem Account.answers_listedId (h : account.listedId = some id) : account.answers id = true := by
  rw [answers_iff]
  unfold listedId at h
  cases htag : account.taggedId with
  | none =>
    rw [htag] at h
    exact .inr h
  | some tag =>
    rw [htag] at h
    exact .inl h

theorem Account.taggedId_of_keySource (h : account.keySource = some (keySourceForAccountId id))
    (hid : id < 2 ^ 32) :
    account.taggedId = some id := by
  rw [taggedId, h]
  exact parse_keySource hid

theorem Account.taggedId_lt (h : account.taggedId = some id) : id < 2 ^ 32 := by
  obtain ⟨keySource, _, hparse⟩ := Option.bind_eq_some_iff.mp h
  exact parse_lt hparse

theorem Account.derivedId_lt (h : account.derivedId = some id) : id < 2 ^ 31 := by
  obtain ⟨index, _, rfl⟩ := Option.map_eq_some_iff.mp h
  exact index.isLt

/-! ## The wallet database -/

abbrev AccountDb := Table Account.uuid

/-- The accounts in the order listed, and the errors of single reads. -/
structure DbReads where
  order : Except String (List AccountUuid)
  failing : AccountUuid → Option String

def DbReads.all (order : List AccountUuid) : DbReads := ⟨.ok order, fun _ => none⟩

def Lists (db : AccountDb) (order : List AccountUuid) : Prop :=
  order.Perm (db.rows.map Account.uuid)

instance (db : AccountDb) (order : List AccountUuid) : Decidable (Lists db order) :=
  inferInstanceAs (Decidable (List.Perm _ _))

def getAccount (db : AccountDb) (reads : DbReads) (uuid : AccountUuid) :
    Except String (Option Account) :=
  match reads.failing uuid with
  | some e => .error e
  | none => .ok (db.find? uuid)

theorem getAccount_all (db : AccountDb) (listed : List AccountUuid) (uuid : AccountUuid) :
    getAccount db (.all listed) uuid = .ok (db.find? uuid) := rfl

/-! ## Listing the numbers -/

def collectAccountIds (db : AccountDb) (reads : DbReads) :
    List AccountUuid → Except IpcError (List AccountId)
  | [] => .ok []
  | uuid :: rest =>
    match getAccount db reads uuid with
    | .error _ => .error ⟨.internalError, "failed to load wallet account"⟩
    | .ok none => collectAccountIds db reads rest
    | .ok (some account) => (account.listedId.toList ++ ·) <$> collectAccountIds db reads rest

def listWalletDbAccountIds (unlocked : Except IpcError Unit) (db : AccountDb) (reads : DbReads) :
    Except IpcError (List AccountId) :=
  match unlocked, reads.order with
  | .error e, _ => .error e
  | .ok _, .error _ => .error ⟨.internalError, "failed to list wallet accounts"⟩
  | .ok _, .ok order =>
    (fun ids => (ids.insertionSort (· ≤ ·)).destutter (· ≠ ·)) <$> collectAccountIds db reads order

/-! ## Resolvers -/

/-- The first account that answers to the number. -/
def resolveLoop (loadError : String) (db : AccountDb) (reads : DbReads) (id : AccountId) :
    List AccountUuid → Except IpcError AccountUuid
  | [] => .error ⟨.accountNotFound, "account not found"⟩
  | uuid :: rest =>
    match getAccount db reads uuid with
    | .error _ => .error ⟨.internalError, loadError⟩
    | .ok none => resolveLoop loadError db reads id rest
    | .ok (some account) =>
      if account.answers id then .ok uuid else resolveLoop loadError db reads id rest

def resolveAccount (loadError : String) (db : AccountDb) (reads : DbReads) (id : AccountId) :
    Except IpcError AccountUuid :=
  match reads.order with
  | .error _ => .error ⟨.internalError, "failed to list wallet accounts"⟩
  | .ok order => resolveLoop loadError db reads id order

def resolveWalletAccountUuid : AccountDb → DbReads → AccountId → Except IpcError AccountUuid :=
  resolveAccount "failed to load account"

def balanceFindAccountUuid : AccountDb → DbReads → AccountId → Except IpcError AccountUuid :=
  resolveAccount "failed to load wallet account"

def addressFindAccountUuid : AccountDb → DbReads → AccountId → Except IpcError AccountUuid :=
  resolveAccount "failed to load wallet account"

/-- It passes over accounts that cannot be read. -/
def shieldLoop (db : AccountDb) (reads : DbReads) (id : AccountId) :
    List AccountUuid → Option AccountUuid
  | [] => none
  | uuid :: rest =>
    match getAccount db reads uuid with
    | .ok (some account) =>
      if account.answers id then some uuid else shieldLoop db reads id rest
    | _ => shieldLoop db reads id rest

def shieldLookup (db : AccountDb) (reads : DbReads) (id : AccountId) : Except String AccountUuid :=
  match reads.order with
  | .error e => .error ("failed to list accounts: " ++ e)
  | .ok order =>
    match shieldLoop db reads id order with
    | none => .error "account not found"
    | some uuid => .ok uuid

/-! ## What they return -/

def firstAnswering (db : AccountDb) (id : AccountId) (order : List AccountUuid) :
    Option AccountUuid :=
  order.find? fun uuid => (db.find? uuid).any fun account => account.answers id

theorem firstAnswering_cons (db : AccountDb) (id : AccountId) (uuid : AccountUuid)
    (rest : List AccountUuid) :
    firstAnswering db id (uuid :: rest) =
      if (db.find? uuid).any fun account => account.answers id then some uuid
      else firstAnswering db id rest := by
  unfold firstAnswering
  rw [List.find?_cons]
  split <;> simp_all

theorem resolveLoop_all (loadError : String) (db : AccountDb) (id : AccountId)
    (order listed : List AccountUuid) :
    resolveLoop loadError db (.all listed) id order =
      match firstAnswering db id order with
      | none => .error ⟨.accountNotFound, "account not found"⟩
      | some uuid => .ok uuid := by
  induction order with
  | nil => rfl
  | cons uuid rest ih =>
    rw [firstAnswering_cons]
    simp only [resolveLoop, getAccount_all]
    cases db.find? uuid with
    | none => simpa using ih
    | some account =>
      cases hanswers : account.answers id
      · simpa [hanswers] using ih
      · simp [hanswers]

theorem shieldLoop_all (db : AccountDb) (id : AccountId) (order listed : List AccountUuid) :
    shieldLoop db (.all listed) id order = firstAnswering db id order := by
  induction order with
  | nil => rfl
  | cons uuid rest ih =>
    rw [firstAnswering_cons]
    simp only [shieldLoop, getAccount_all]
    cases db.find? uuid with
    | none => simpa using ih
    | some account =>
      cases hanswers : account.answers id
      · simpa [hanswers] using ih
      · simp [hanswers]

def listedAt (db : AccountDb) (uuid : AccountUuid) : Option AccountId :=
  (db.find? uuid).bind Account.listedId

theorem collectAccountIds_all (db : AccountDb) (order listed : List AccountUuid) :
    collectAccountIds db (.all listed) order = .ok (order.filterMap (listedAt db)) := by
  induction order with
  | nil => rfl
  | cons uuid rest ih =>
    simp only [collectAccountIds, getAccount_all, List.filterMap_cons, listedAt]
    cases db.find? uuid with
    | none => exact ih
    | some account =>
      rw [ih]
      cases hid : account.listedId <;> simp [hid, Functor.map, Except.map]

/-! ## Accounts that stay apart -/

/-- No other account answers to an account's number. -/
structure Apart (db : AccountDb) : Prop where
  listed : ∀ a ∈ db, a.listedId.isSome = true
  alone : ∀ a ∈ db, ∀ b ∈ db, ∀ id, a.listedId = some id → b.answers id = true → b = a

/-- Each account has a number that every resolver maps to it, in any order of the accounts. -/
def Resolves (db : AccountDb) : Prop :=
  ∀ order, Lists db order →
    (∃ ids, listWalletDbAccountIds (.ok ()) db (.all order) = .ok ids ∧
      ids.length = db.rows.length) ∧
    ∀ account ∈ db, ∀ id, account.listedId = some id →
      resolveWalletAccountUuid db (.all order) id = .ok account.uuid ∧
      balanceFindAccountUuid db (.all order) id = .ok account.uuid ∧
      addressFindAccountUuid db (.all order) id = .ok account.uuid ∧
      shieldLookup db (.all order) id = .ok account.uuid

variable {db : AccountDb}

theorem resolveAccount_all {loadError : String} {uuid : AccountUuid}
    (h : firstAnswering db id order = some uuid) :
    resolveAccount loadError db (.all order) id = .ok uuid := by
  have hloop := resolveLoop_all loadError db id order order
  rw [h] at hloop
  exact hloop

theorem shieldLookup_all {uuid : AccountUuid} (h : firstAnswering db id order = some uuid) :
    shieldLookup db (.all order) id = .ok uuid := by
  have hloop := shieldLoop_all db id order order
  rw [h] at hloop
  simp only [shieldLookup, DbReads.all] at hloop ⊢
  rw [hloop]

theorem Lists.mem (h : Lists db order) (ha : account ∈ db) : account.uuid ∈ order :=
  h.mem_iff.mpr (List.mem_map_of_mem ha)

theorem Apart.firstAnswering (h : Apart db) (horder : Lists db order) (ha : account ∈ db)
    (hid : account.listedId = some id) :
    firstAnswering db id order = some account.uuid := by
  have hself : db.find? account.uuid = some account := Table.mem_find?.mpr ⟨ha, rfl⟩
  cases hfirst : ZbagAccount.firstAnswering db id order with
  | none =>
    have hnone := List.find?_eq_none.mp hfirst account.uuid (horder.mem ha)
    rw [hself] at hnone
    exact absurd (Account.answers_listedId hid) hnone
  | some uuid =>
    have hanswers := List.find?_some hfirst
    obtain ⟨b, hb, hbid⟩ := (Option.any_eq_true ..).mp hanswers
    obtain ⟨hmem, huuid⟩ := Table.mem_find?.mp hb
    rw [← huuid, h.alone account ha b hmem id hid hbid]

theorem Apart.ids (h : Apart db) (horder : Lists db order) :
    (order.filterMap (listedAt db)).Nodup ∧
      (order.filterMap (listedAt db)).length = db.rows.length := by
  have hnodup : order.Nodup := horder.nodup_iff.mpr db.nodup
  have hlength : order.length = db.rows.length := by rw [horder.length_eq, List.length_map]
  constructor
  · refine hnodup.filterMap fun u v id hu hv => ?_
    obtain ⟨a, ha, haid⟩ := Option.bind_eq_some_iff.mp hu
    obtain ⟨b, hb, hbid⟩ := Option.bind_eq_some_iff.mp hv
    obtain ⟨hamem, rfl⟩ := Table.mem_find?.mp ha
    obtain ⟨hbmem, rfl⟩ := Table.mem_find?.mp hb
    rw [h.alone a hamem b hbmem id haid (Account.answers_listedId hbid)]
  · rw [← hlength, List.filterMap_length_eq_length]
    intro uuid huuid
    obtain ⟨a, ha, rfl⟩ := List.mem_map.mp (horder.mem_iff.mp huuid)
    have hfind : db.find? a.uuid = some a := Table.mem_find?.mpr ⟨ha, rfl⟩
    rw [listedAt, hfind]
    exact h.listed a ha

theorem length_sorted_distinct {ids : List AccountId} (h : ids.Nodup) :
    ((ids.insertionSort (· ≤ ·)).destutter (· ≠ ·)).length = ids.length := by
  have hnodup : (ids.insertionSort (· ≤ ·)).Nodup :=
    (List.perm_insertionSort _ ids).nodup_iff.mpr h
  rw [List.destutter_of_isChain _ _ (List.Pairwise.isChain hnodup), List.length_insertionSort]

/-- **Accounts that stay apart are found by their numbers.** -/
theorem Apart.resolves (h : Apart db) : Resolves db := by
  intro order horder
  obtain ⟨hnodup, hlength⟩ := h.ids horder
  refine ⟨⟨_, congrArg (Functor.map _) (collectAccountIds_all db order order), ?_⟩,
    fun account ha id hid => ?_⟩
  · exact (length_sorted_distinct hnodup).trans hlength
  · have hfirst := h.firstAnswering horder ha hid
    exact ⟨resolveAccount_all hfirst, resolveAccount_all hfirst, resolveAccount_all hfirst,
      shieldLookup_all hfirst⟩

theorem Resolves.alone (h : Resolves db) {a b : Account} (ha : a ∈ db) (hb : b ∈ db)
    (hid : a.listedId = some id) (hanswers : b.answers id = true) :
    b = a := by
  have horder : Lists db (b.uuid :: (db.rows.map Account.uuid).erase b.uuid) :=
    (List.perm_cons_erase (List.mem_map_of_mem hb)).symm
  have hfirst : ZbagAccount.firstAnswering db id
      (b.uuid :: (db.rows.map Account.uuid).erase b.uuid) = some b.uuid := by
    have hfind : db.find? b.uuid = some b := Table.mem_find?.mpr ⟨hb, rfl⟩
    rw [firstAnswering_cons, hfind]
    exact if_pos hanswers
  have hfound := ((h _ horder).2 a ha id hid).1
  rw [resolveWalletAccountUuid, resolveAccount_all hfirst, Except.ok.injEq] at hfound
  exact Table.eq_of_key hb ha hfound

end ZbagAccount
