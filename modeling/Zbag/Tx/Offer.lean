import Zbag.Account.Import
import Zbag.Tx.Budget

/-!
# Transactions — the offer to retry

The list offers a retry for every queued transaction that may still be sent, whoever sent it. The
retry takes the ZIP 32 index of the sending account for its number in the app database and asks the
spend gate about the account with that number. For an account of a hardware signer that is a row
which may not spend, another account's row, or none.
-/

namespace ZbagRetry

open ZbagTx ZbagQueue ZbagWallet ZbagAccount Transition

/-! ## The system -/

inductive QueuePath
  | confirmSend (a : AccountId)
  | shieldFunds (a : AccountId)
  | finalizeSigning (a : AccountId)
  | sendJob (a : AccountId)
  | shieldJob (a : AccountId)
  deriving DecidableEq, Repr

/-- Jobs were let through when they started. -/
def QueuePath.gate (db : AppDb) (w : WalletId) : QueuePath → Except IpcError Unit
  | .confirmSend a | .shieldFunds a => ensureSpendAllowed db w a
  | .finalizeSigning _ => ensureBackupComplete db w
  | .sendJob _ | .shieldJob _ => .ok ()

def QueuePath.sender (accounts : AccountDb) (order : List AccountUuid) :
    QueuePath → Option AccountUuid
  | .confirmSend a | .shieldFunds a | .finalizeSigning a | .sendJob a =>
    (resolveWalletAccountUuid accounts (.all order) a).toOption
  | .shieldJob a => (shieldLookup accounts (.all order) a).toOption

structure Built where
  txid : TxId
  sender : AccountUuid
  bytes : List ℕ
  deriving DecidableEq, Repr

structure FailedSend where
  lastError : Option String
  lastErrorClass : Option BroadcastErrorClass
  retryable : Bool
  delayMs : ℤ
  deriving DecidableEq, Repr

def QueuePath.call (w : WalletId) (b : Built) (f : FailedSend) : QueuePath → QueueCall
  | .confirmSend _ | .shieldFunds _ | .finalizeSigning _ =>
    queueBroadcast w b.txid b.bytes f.lastError f.lastErrorClass f.retryable f.delayMs
  | .sendJob _ | .shieldJob _ =>
    queueBroadcastForRetry w b.txid b.bytes f.lastError f.lastErrorClass f.retryable f.delayMs

def Attributes (rows : WalletRows) (built : List Built) : Prop :=
  ∀ b ∈ built,
    (∃ output ∈ rows.outputs, output.txid = b.txid ∧ output.fromAccount = some b.sender) ∧
    ∀ output ∈ rows.outputs, output.txid = b.txid →
      output.fromAccount = none ∨ output.fromAccount = some b.sender

instance (rows : WalletRows) (built : List Built) : Decidable (Attributes rows built) :=
  inferInstanceAs (Decidable (∀ b ∈ built, _ ∧ _))

/-- With a record of what was built. -/
structure Desk where
  clock : Time
  wallet : Wallet
  rows : WalletRows
  dir : QueueDir
  servers : List Server
  built : List Built

def Desk.appDb (s : Desk) : AppDb := s.wallet.manager.appDb

def Desk.db (s : Desk) (reads : DbReads) : RetryDb := ⟨s.appDb, s.wallet.accounts, reads, s.rows⟩

inductive DeskAction
  | tick (n : ℕ)
  /-- the manager, and new accounts -/
  | account (a : ZbagAccount.Action)
  /-- one whose send fails is queued -/
  | build (path : QueuePath) (order : List AccountUuid) (b : Built) (failed : Option FailedSend)
      (rows : WalletRows)
  | sync (rows : WalletRows)
  | list (reads : DbReads) (a : AccountId) (limit offset : ℕ)
  | retry (env : RetryEnv) (txid : TxId) (fuel : ℕ)

def sendFirst (w : WalletId) (s : Desk) (path : QueuePath) (b : Built) :
    Option FailedSend → QueueDir
  | none => deleteQueuedBroadcast s.dir b.txid
  | some failed => QueueCall.files (path.call w b failed) (toUnixMs s.clock) s.dir

def deskStep (w : WalletId) (s : Desk) : DeskAction → Option Desk
  | .tick n => some { s with clock := s.clock + n }
  | .account a => (ZbagAccount.step w s.wallet a).map fun wallet => { s with wallet := wallet }
  | .build path order b failed rows =>
    if (path.gate s.appDb w).isOk ∧ path.sender s.wallet.accounts order = some b.sender ∧
        (∀ b' ∈ s.built, b'.txid = b.txid → b' = b) ∧ Attributes rows (b :: s.built) then
      some { s with
        rows := rows
        dir := sendFirst w s path b failed
        built := b :: s.built }
    else none
  | .sync rows => if Attributes rows s.built then some { s with rows := rows } else none
  | .list reads a limit offset =>
    some { s with
      dir := (listTransactions s.clock s.dir s.wallet.accounts reads s.rows a limit offset).2 }
  | .retry env txid fuel =>
    (retryBroadcast w { env with db := s.db env.db.reads } txid fuel ⟨s.dir, s.servers⟩).map
      fun r => { s with dir := r.state.dir, servers := r.state.servers }

/-- **One wallet's transactions** from its creation on. -/
def deskSystem (w : WalletId) : System Desk DeskAction where
  init s := (accountSystem w).init s.wallet ∧ s.dir = .empty ∧ s.built = []
  step := deskStep w

/-! ## The invariant -/

structure DeskInv (w : WalletId) (s : Desk) : Prop where
  sealed : ∀ txid file, s.dir.file (.bin txid) = some file →
    ∃ b ∈ s.built, b.txid = txid ∧ file.data = .tx ⟨w, txid, b.bytes⟩
  attributed : Attributes s.rows s.built
  senders : ∀ b ∈ s.built, ∃ account ∈ s.wallet.accounts, account.uuid = b.sender

variable {w : WalletId} {s t : Desk}

theorem deskInv_init (h : (deskSystem w).init s) : DeskInv w s := by
  obtain ⟨-, hdir, hbuilt⟩ := h
  constructor
  · intro txid file hfile
    rw [hdir] at hfile
    cases hfile
  · intro b hb
    rw [hbuilt] at hb
    cases hb
  · intro b hb
    rw [hbuilt] at hb
    cases hb

variable {db : AccountDb} {id : AccountId} {order : List AccountUuid} {uuid : AccountUuid}
  {d : QueueDir} {txid : TxId} {file : File FileData} {env : RetryEnv} {fuel : ℕ}
  {rows : WalletRows} {a : AccountId}

theorem find?_of_firstAnswering (h : firstAnswering db id order = some uuid) :
    ∃ account ∈ db, account.uuid = uuid := by
  have hany := List.find?_some h
  obtain ⟨account, hfind, -⟩ := (Option.any_eq_true _ _).mp hany
  exact ⟨account, Table.mem_find?.mp hfind⟩

theorem firstAnswering_of_resolve
    (h : (resolveWalletAccountUuid db (.all order) id).toOption = some uuid) :
    firstAnswering db id order = some uuid := by
  rw [show resolveWalletAccountUuid db (.all order) id =
    resolveLoop "failed to load account" db (.all order) id order from rfl, resolveLoop_all] at h
  cases hfirst : firstAnswering db id order with
  | none =>
    rw [hfirst] at h
    cases h
  | some found =>
    rw [hfirst] at h
    exact h

theorem firstAnswering_of_shieldLookup
    (h : (shieldLookup db (.all order) id).toOption = some uuid) :
    firstAnswering db id order = some uuid := by
  simp only [shieldLookup, DbReads.all] at h
  rw [show shieldLoop db ⟨.ok order, fun _ => none⟩ id order =
    shieldLoop db (.all order) id order from rfl, shieldLoop_all] at h
  cases hfirst : firstAnswering db id order with
  | none =>
    rw [hfirst] at h
    cases h
  | some found =>
    rw [hfirst] at h
    exact h

theorem QueuePath.sender_mem {path : QueuePath} {accounts : AccountDb}
    (h : path.sender accounts order = some uuid) :
    ∃ account ∈ accounts, account.uuid = uuid := by
  cases path with
  | confirmSend a | shieldFunds a | finalizeSigning a | sendJob a =>
    exact find?_of_firstAnswering (firstAnswering_of_resolve h)
  | shieldJob a => exact find?_of_firstAnswering (firstAnswering_of_shieldLookup h)

theorem QueuePath.call_txid (path : QueuePath) (w : WalletId) (b : Built) (f : FailedSend) :
    (path.call w b f).txid = b.txid := by
  cases path <;> rfl

theorem QueuePath.call_tx (path : QueuePath) (w : WalletId) (b : Built) (f : FailedSend) :
    (path.call w b f).tx = ⟨w, b.txid, b.bytes⟩ := by
  cases path <;> rfl

theorem bin_files {c : QueueCall} {createdAtMs : ℤ}
    (h : (QueueCall.files c createdAtMs d).file (.bin txid) = some file) :
    (txid = c.txid ∧ file.data = .tx c.tx) ∨ d.file (.bin txid) = some file := by
  unfold QueueCall.files at h
  rw [Directory.file_create_of_ne _ QueueFile.noConfusion] at h
  by_cases he : txid = c.txid
  · subst he
    rw [Directory.file_create] at h
    cases h
    exact .inl ⟨rfl, rfl⟩
  · rw [Directory.file_create_of_ne _ (fun hbin => he (QueueFile.bin.inj hbin))] at h
    exact .inr h

theorem bin_settle {l : Loop} {outcome : LoopEnd} {txid' : TxId}
    (h : (settle env txid d l outcome).file (.bin txid') = some file) :
    d.file (.bin txid') = some file := by
  cases outcome with
  | succeeded => exact thins_delete d txid _ _ h
  | failed message retryable =>
    rw [settle, Directory.file_create_of_ne _ QueueFile.noConfusion] at h
    exact h

theorem bin_retry {txid' : TxId} {st : RetryState} {r : RetryReport}
    (hr : retryBroadcast w env txid fuel st = some r)
    (h : r.state.dir.file (.bin txid') = some file) : st.dir.file (.bin txid') = some file := by
  unfold retryBroadcast at hr
  dsimp only at hr
  split at hr
  next =>
    cases hr
    exact thins_scan _ _ _ _ h
  next =>
    obtain ⟨⟨l, outcome⟩, -, rfl⟩ := Option.map_eq_some_iff.mp hr
    apply thins_scan (env.clock 0)
    apply bin_settle
    apply thins_scan (env.clock 3)
    dsimp only at h
    split_ifs at h
    · exact thins_list _ _ env.db _ _ _ _ _ h
    · exact h

theorem deskInv_build (hi : DeskInv w s) {path : QueuePath} {b : Built} {failed : Option FailedSend}
    (hsender : path.sender s.wallet.accounts order = some b.sender)
    (hrows : Attributes rows (b :: s.built)) :
    DeskInv w { s with
      rows := rows, dir := sendFirst w s path b failed, built := b :: s.built } where
  sealed txid file hfile := by
    have hold : s.dir.file (.bin txid) = some file →
        ∃ b' ∈ b :: s.built, b'.txid = txid ∧ file.data = .tx ⟨w, txid, b'.bytes⟩ := by
      intro h
      obtain ⟨b', hb', hdata⟩ := hi.sealed txid file h
      exact ⟨b', List.mem_cons_of_mem _ hb', hdata⟩
    cases failed with
    | none => exact hold (thins_delete _ _ _ _ hfile)
    | some f =>
      obtain ⟨htxid, hdata⟩ | h := bin_files hfile
      · rw [path.call_txid] at htxid
        rw [path.call_tx] at hdata
        subst htxid
        exact ⟨b, List.mem_cons_self, rfl, hdata⟩
      · exact hold h
  attributed := hrows
  senders b' hb' := by
    obtain rfl | hold := List.mem_cons.mp hb'
    · exact path.sender_mem hsender
    · exact hi.senders b' hold

theorem deskInv_step (hi : DeskInv w s) {a : DeskAction} (h : deskStep w s a = some t) :
    DeskInv w t := by
  cases a with
  | tick n =>
    cases h
    exact ⟨hi.sealed, hi.attributed, hi.senders⟩
  | account a =>
    obtain ⟨wallet, hstep, rfl⟩ := Option.map_eq_some_iff.mp h
    refine ⟨hi.sealed, hi.attributed, fun b hb => ?_⟩
    obtain ⟨account, hm, huuid⟩ := hi.senders b hb
    have hpath : Path (accountSystem w) Free s.wallet wallet := .single trivial hstep
    exact ⟨account, mem_accounts_of_path hpath hm, huuid⟩
  | build path order b failed rows =>
    simp only [deskStep] at h
    split_ifs at h with hguard
    cases h
    exact deskInv_build hi hguard.2.1 hguard.2.2.2
  | sync rows =>
    simp only [deskStep] at h
    split_ifs at h with hrows
    cases h
    exact ⟨hi.sealed, hrows, hi.senders⟩
  | list reads a limit offset =>
    cases h
    refine ⟨fun txid file hfile => ?_, hi.attributed, hi.senders⟩
    exact hi.sealed txid file (thins_list s.clock s.dir (s.db reads) a limit offset _ _ hfile)
  | retry env txid fuel =>
    obtain ⟨r, hr, rfl⟩ := Option.map_eq_some_iff.mp h
    exact ⟨fun txid' file hfile => hi.sealed txid' file (bin_retry hr hfile), hi.attributed,
      hi.senders⟩

theorem deskInv_reach (h : Reach (deskSystem w) Free s) : DeskInv w s :=
  h.invariant (fun _ => deskInv_init) fun _ _ _ hi _ hst => deskInv_step hi hst

/-! ## What is offered -/

theorem offer_entry {queued : QueuedBroadcasts} {height : Option ℕ} {nowMs : ℤ} {row : TxRow}
    (h : (transactionInfo queued height nowMs a row).canRetryBroadcast = true) :
    row.expired height = false ∧
      ∃ entry, queued.lookup row.txid = some entry ∧ entry.retryable = true := by
  unfold transactionInfo at h
  dsimp only at h
  unfold TxRow.status at h
  split_ifs at h with hexp hmined
  · cases h
  · cases h
  · refine ⟨Bool.eq_false_iff.mpr hexp, ?_⟩
    cases hentry : queued.lookup row.txid with
    | none =>
      rw [hentry] at h
      cases h
    | some entry =>
      rw [hentry] at h
      exact ⟨entry, rfl, h⟩

theorem mem_pageRows {account : AccountUuid} {limit offset : ℕ} {row : TxRow}
    (h : row ∈ pageRows rows account limit offset) :
    row ∈ rows.transactions ∧ row.account = account := by
  have hsorted := List.mem_of_mem_drop (List.mem_of_mem_take h)
  rw [List.mem_insertionSort, List.mem_filter] at hsorted
  exact ⟨hsorted.1, by simpa using hsorted.2⟩

theorem liveEntry_deleteExpired (now : Time) {height : Option ℕ} (d : QueueDir) {page : List TxRow}
    (h : ∀ row ∈ page, row.expired height = true → row.txid ≠ txid) :
    (deleteExpired height d page).file (.json txid) = d.file (.json txid) ∧
      (deleteExpired height d page).file (.bin txid) = d.file (.bin txid) ∧
      liveEntry now (deleteExpired height d page) txid = liveEntry now d txid := by
  induction page generalizing d with
  | nil => exact ⟨rfl, rfl, rfl⟩
  | cons row page ih =>
    have hrest := fun row' hm => h row' (List.mem_cons_of_mem row hm)
    unfold deleteExpired
    rw [List.foldl_cons]
    by_cases hexp : row.expired height = true
    · rw [if_pos hexp]
      have hne : txid ≠ row.txid := (h row List.mem_cons_self hexp).symm
      obtain ⟨hj, hb⟩ := file_delete_of_ne (d := d) hne
      obtain ⟨hj', hb', hl⟩ := ih (deleteQueuedBroadcast d row.txid) hrest
      exact ⟨hj'.trans hj, hb'.trans hb, hl.trans (liveEntry_congr hj hb)⟩
    · rw [if_neg hexp]
      exact ih d hrest

/-- **An offered transaction** is still queued after the list, and a scan at that time finds its
entry. -/
theorem offered_queued {now : Time} {accounts : AccountDb} {reads : DbReads}
    {limit offset total : ℕ} {infos : List TransactionInfo}
    (hlist : (listTransactions now d accounts reads rows a limit offset).1 = .ok (infos, total))
    {info : TransactionInfo} (hinfo : info ∈ infos) (hcan : info.canRetryBroadcast = true) :
    ∃ m, liveEntry now (listTransactions now d accounts reads rows a limit offset).2 info.txid =
      some m ∧ sendable m = true := by
  unfold listTransactions at hlist ⊢
  dsimp only at hlist ⊢
  split at hlist
  next => cases hlist
  next uuid huuid =>
    cases hlist
    obtain ⟨row, hrow, rfl⟩ := List.mem_map.mp hinfo
    obtain ⟨hexp, entry, hentry, hretryable⟩ := offer_entry hcan
    rw [lookup_scan] at hentry
    obtain ⟨m, hlive, rfl⟩ := Option.map_eq_some_iff.mp hentry
    refine ⟨m, ?_, hretryable⟩
    -- one row for an account and a transaction, so no other row of the page has expired
    have hothers : ∀ row' ∈ pageRows rows uuid limit offset,
        row'.expired rows.chainHeight = true → row'.txid ≠ row.txid := by
      intro row' hrow' hexp' htxid
      obtain ⟨hm, hacc⟩ := mem_pageRows hrow
      obtain ⟨hm', hacc'⟩ := mem_pageRows hrow'
      have hsame := Table.eq_of_key hm' hm (Prod.ext (hacc'.trans hacc.symm) htxid)
      rw [hsame, hexp] at hexp'
      cases hexp'
    show liveEntry now (deleteExpired _ _ _) row.txid = some m
    rw [(liveEntry_deleteExpired now _ hothers).2.2]
    obtain ⟨hj, hb, -⟩ := scan_live hlive
    rw [liveEntry_congr hj hb]
    exact hlive

/-! ## What the retry checks -/

/-- The ZIP 32 index of the sender is the number of an account that may spend. -/
def SenderMaySpend (w : WalletId) (s : Desk) (b : Built) : Prop :=
  ∃ account ∈ s.wallet.accounts, account.uuid = b.sender ∧
    ∃ index, account.derivedId = some index ∧ s.appDb.accounts w index = some .software

theorem sendingAccount_eq (hi : DeskInv w s) {b : Built} (hb : b ∈ s.built) {account : Account}
    (hm : account ∈ s.wallet.accounts) (huuid : account.uuid = b.sender) (reads : DbReads) :
    sendingAccount (s.db reads) b.txid = some account.derivedId := by
  obtain ⟨⟨output, hout, htxid, hfrom⟩, hall⟩ := hi.attributed b hb
  have hfind : s.wallet.accounts.find? b.sender = some account :=
    Table.mem_find?.mpr ⟨hm, huuid⟩
  have hrow : ∀ o ∈ s.rows.outputs, (if o.txid = b.txid then
      (o.fromAccount.bind s.wallet.accounts.find?).map Account.derivedId else none) = none ∨
      (if o.txid = b.txid then
        (o.fromAccount.bind s.wallet.accounts.find?).map Account.derivedId else none) =
          some account.derivedId := by
    intro o ho
    by_cases he : o.txid = b.txid
    · rw [if_pos he]
      obtain hnone | hsome := hall o ho he
      · rw [hnone]
        exact .inl rfl
      · rw [hsome, Option.bind_some, hfind]
        exact .inr rfl
    · rw [if_neg he]
      exact .inl rfl
  unfold sendingAccount
  show s.rows.outputs.findSome? (fun o => if o.txid = b.txid then
    (o.fromAccount.bind s.wallet.accounts.find?).map Account.derivedId else none) = _
  cases hres : s.rows.outputs.findSome? (fun o => if o.txid = b.txid then
      (o.fromAccount.bind s.wallet.accounts.find?).map Account.derivedId else none) with
  | none =>
    have hnone := List.findSome?_eq_none_iff.mp hres output hout
    rw [if_pos htxid, hfrom, Option.bind_some, hfind] at hnone
    cases hnone
  | some index =>
    obtain ⟨o, ho, hval⟩ := List.exists_of_findSome?_eq_some hres
    obtain hnone | hsome := hrow o ho
    · rw [hnone] at hval
      cases hval
    · exact hval.symm.trans hsome

theorem lookupSender_eq_ok {db : RetryDb} {index : AccountId} :
    lookupSender db txid = .ok index ↔ sendingAccount db txid = some (some index) := by
  unfold lookupSender
  split <;> simp_all

theorem ensureSpendAllowed_eq_ok {db : AppDb} (hb : db.backupFlag w = false) :
    ensureSpendAllowed db w a = .ok () ↔ db.accounts w a = some .software := by
  unfold ensureSpendAllowed
  rw [hb]
  cases hacc : db.accounts w a with
  | none => simp
  | some accountType => cases accountType <;> simp

theorem decrypt_sealed (txid : TxId) (id : ℕ) (bytes : List ℕ) :
    decryptQueuedTxBytes w txid (some ⟨id, .tx ⟨w, txid, bytes⟩⟩) = .ok bytes :=
  if_pos ⟨rfl, rfl⟩

theorem retryLoop_bytes {site : RetrySite} {bytes : List ℕ} {rounds : ℕ → Round} {i : ℕ}
    {l l' : Loop} {outcome : LoopEnd}
    (h : retryLoop site bytes rounds fuel i l = some (l', outcome)) :
    ∃ send more, l'.sends = l.sends ++ send :: more ∧ ∀ sd ∈ send :: more, sd.bytes = bytes := by
  induction fuel generalizing i l with
  | zero => cases h
  | succ fuel ih =>
    have hfirst : ∀ sd ∈ [Send.mk l.grpcTarget bytes (rounds i).answer], sd.bytes = bytes := by
      intro sd hsd
      rw [List.mem_singleton.mp hsd]
    rw [retryLoop] at h
    dsimp only at h
    split at h
    · cases h
      exact ⟨_, [], rfl, hfirst⟩
    · split at h
      · split_ifs at h
        · obtain ⟨send, more, hsends, hbytes⟩ := ih h
          refine ⟨⟨l.grpcTarget, bytes, (rounds i).answer⟩, send :: more, ?_, ?_⟩
          · rw [hsends, List.append_assoc]
            rfl
          · intro sd hsd
            obtain rfl | hrest := List.mem_cons.mp hsd
            · rfl
            · exact hbytes sd hrest
        · cases h
          exact ⟨_, [], rfl, hfirst⟩
      · cases h
        exact ⟨_, [], rfl, hfirst⟩

def ReachesSend (w : WalletId) (env : RetryEnv) (txid : TxId) (fuel : ℕ) (st : RetryState)
    (bytes : List ℕ) : Prop :=
  ∃ r, retryBroadcast w env txid fuel st = some r ∧ r.sends ≠ [] ∧
    ∀ send ∈ r.sends, send.bytes = bytes

theorem reachesSend_iff (hfuel : 2 ≤ fuel) {st : RetryState} {bytes : List ℕ}
    (hbytes : ∀ accountId entry data, retryChecks env.db w
      (scanQueuedBroadcasts (env.clock 0) st.dir).2 (scanQueuedBroadcasts (env.clock 0) st.dir).1
        txid = .ok (accountId, entry, data) → data = bytes) :
    ReachesSend w env txid fuel st bytes ↔ ∃ accountId entry, retryChecks env.db w
      (scanQueuedBroadcasts (env.clock 0) st.dir).2 (scanQueuedBroadcasts (env.clock 0) st.dir).1
        txid = .ok (accountId, entry, bytes) := by
  unfold ReachesSend retryBroadcast
  dsimp only
  cases hchecks : retryChecks env.db w (scanQueuedBroadcasts (env.clock 0) st.dir).2
      (scanQueuedBroadcasts (env.clock 0) st.dir).1 txid with
  | error e => simp
  | ok passed =>
    obtain ⟨accountId, entry, data⟩ := passed
    obtain rfl := hbytes accountId entry data hchecks
    refine ⟨fun _ => ⟨accountId, entry, rfl⟩, fun _ => ?_⟩
    dsimp only
    obtain ⟨⟨l, outcome⟩, hloop⟩ := Option.isSome_iff_exists.mp
      (retryLoop_isSome env.site data env.rounds 0
        ⟨env.grpcUrl, entry.attemptCount, entry.transportFailureStreak, st.servers, [], []⟩ hfuel)
    obtain ⟨send, more, hsends, hall⟩ := retryLoop_bytes hloop
    rw [hloop]
    refine ⟨_, rfl, ?_, ?_⟩
    · show l.sends ≠ []
      rw [hsends]
      exact List.cons_ne_nil _ _
    · show ∀ sd ∈ l.sends, sd.bytes = data
      rw [hsends]
      exact hall

/-- **An offered retry reaches its send exactly when its sender may spend**: the ZIP 32 index of the
sender is the number of a software account. -/
theorem offered_retry_sends (w : WalletId) (s : Desk) (hs : Reach (deskSystem w) Free s)
    (hbackup : s.appDb.backupFlag w = false) (reads : DbReads) (a : AccountId)
    (limit offset total : ℕ) (infos : List TransactionInfo)
    (hlist : (listTransactions s.clock s.dir s.wallet.accounts reads s.rows a limit offset).1 =
      .ok (infos, total))
    (info : TransactionInfo) (hinfo : info ∈ infos) (hcan : info.canRetryBroadcast = true)
    (env : RetryEnv) (hdb : env.db = s.db reads) (hclock : env.clock 0 = s.clock) (fuel : ℕ)
    (hfuel : 2 ≤ fuel) :
    ∃ b ∈ s.built, b.txid = info.txid ∧
      (ReachesSend w env info.txid fuel
        ⟨(listTransactions s.clock s.dir s.wallet.accounts reads s.rows a limit offset).2,
          s.servers⟩ b.bytes ↔ SenderMaySpend w s b) := by
  have hi := deskInv_reach hs
  obtain ⟨m, hlive, hsendable⟩ := offered_queued hlist hinfo hcan
  generalize hd : (listTransactions s.clock s.dir s.wallet.accounts reads s.rows a limit
    offset).2 = d at hlive ⊢
  obtain ⟨-, hbin, hlookup⟩ := scan_live hlive
  -- the bytes that the list has left are those of a transaction that was built
  obtain ⟨-, hsome⟩ := storedEntry_eq_some.mp (Option.filter_eq_some_iff.mp hlive).1
  obtain ⟨⟨id, data⟩, hfile⟩ := Option.isSome_iff_exists.mp hsome
  have hold : s.dir.file (.bin info.txid) = some ⟨id, data⟩ := by
    apply thins_list s.clock s.dir (s.db reads) a limit offset
    rw [← hd] at hfile
    exact hfile
  obtain ⟨b, hb, htxid, hdata⟩ := hi.sealed _ _ hold
  obtain ⟨account, hm, huuid⟩ := hi.senders b hb
  have hsender := sendingAccount_eq hi hb hm huuid reads
  rw [htxid] at hsender
  have hdecrypt : decryptQueuedTxBytes w info.txid
      ((scanQueuedBroadcasts (env.clock 0) d).1.file (.bin info.txid)) = .ok b.bytes := by
    dsimp only at hdata
    rw [hclock, hbin, hfile, hdata]
    exact decrypt_sealed info.txid id b.bytes
  have hentry : lookupEntry (scanQueuedBroadcasts (env.clock 0) d).2 info.txid =
      .ok (normalizeQueuedBroadcastMeta m (toUnixMs s.clock)) := by
    rw [hclock]
    exact lookupEntry_eq_ok.mpr ⟨hlookup, hsendable⟩
  refine ⟨b, hb, htxid, ?_⟩
  rw [reachesSend_iff hfuel]
  · constructor
    · rintro ⟨index, entry, hok⟩
      obtain ⟨hindex, hspend, -, -⟩ := retryChecks_eq_ok.mp hok
      rw [hdb] at hindex hspend
      rw [lookupSender_eq_ok, hsender] at hindex
      exact ⟨account, hm, huuid, index, Option.some.inj hindex,
        (ensureSpendAllowed_eq_ok hbackup).mp hspend⟩
    · rintro ⟨account', hm', huuid', index, hindex, hsoftware⟩
      obtain rfl := Table.eq_of_key hm hm' (huuid.trans huuid'.symm)
      refine ⟨index, normalizeQueuedBroadcastMeta m (toUnixMs s.clock),
        retryChecks_eq_ok.mpr ⟨?_, ?_, hentry, hdecrypt⟩⟩
      · rw [hdb, lookupSender_eq_ok, hsender, hindex]
      · rw [hdb]
        exact (ensureSpendAllowed_eq_ok hbackup).mpr hsoftware
  · intro index entry bytes hok
    obtain ⟨-, -, -, hbytes⟩ := retryChecks_eq_ok.mp hok
    dsimp only at hbytes
    rw [hdecrypt] at hbytes
    exact (Except.ok.inj hbytes).symm

/-! ## Runs -/

def Desk.listed (s : Desk) (reads : DbReads) (a : AccountId) (limit offset : ℕ) :
    List TransactionInfo :=
  match (listTransactions s.clock s.dir s.wallet.accounts reads s.rows a limit offset).1 with
  | .ok (infos, _) => infos
  | .error _ => []

def newDesk (accounts : AccountDb) : Desk where
  clock := 0
  wallet := ⟨World.fresh, accounts⟩
  rows := ⟨.empty, [], none⟩
  dir := .empty
  servers := [⟨0, .mainnet, "a", true⟩]
  built := []

def rowsOfSeven : WalletRows where
  transactions := ⟨[⟨5, 7, none, some 140, some 10000, 60000, 0, none, false, 1, 0⟩],
    List.nodup_singleton _⟩
  outputs := [⟨7, some 5⟩]
  chainHeight := some 100

/-- The server cannot be reached. -/
def buildsSeven (path : QueuePath) : DeskAction :=
  .build path [5] ⟨7, 5, [3]⟩
    (some ⟨some "connection refused", some .transientTransport, true, 5000⟩) rowsOfSeven

/-- A retry in this state. -/
def Desk.retryEnv (s : Desk) : RetryEnv :=
  { (failingCall "connection refused" "connection refused").env with db := s.db (.all [5]) }

/-- The transaction of a hardware signer. -/
theorem offered_retry_refused : ∃ s, Reach (deskSystem 1) Free s ∧
    s.appDb.backupFlag 1 = false ∧
    (∃ info ∈ s.listed (.all [5]) 0 200 0, info.txid = 7 ∧ info.canRetryBroadcast = true) ∧
    (retryBroadcast 1 s.retryEnv 7 2
      ⟨(listTransactions s.clock s.dir s.wallet.accounts (.all [5]) s.rows 0 200 0).2,
        s.servers⟩).map (fun r => (r.sends, r.result)) =
      some ([], .error (.ipc ⟨.watchOnlyCannotSpend, "watch-only accounts cannot spend"⟩)) :=
  exec_reach (s := newDesk (keystoneAccounts 5 (some 0)))
    [.account (.manager (.call (.createKeystoneWallet .works .works .works 1 true))),
      buildsSeven (.finalizeSigning 0)]
    ⟨⟨.of_init rfl, .keystone 5 (fun _ => .ok (List.replicate 32 0)) (some "00") (some 0) (some 0)
      rfl⟩, rfl, rfl⟩
    (along_free _ _) (by decide +kernel)

theorem offered_retry_sends_restored : ∃ s, (Reach (deskSystem 1) Free s ∧
    s.appDb.backupFlag 1 = false ∧
    ∃ info ∈ s.listed (.all [5]) 0 200 0, info.txid = 7 ∧ info.canRetryBroadcast = true) ∧
    ReachesSend 1 s.retryEnv 7 2
      ⟨(listTransactions s.clock s.dir s.wallet.accounts (.all [5]) s.rows 0 200 0).2,
        s.servers⟩ [3] := by
  obtain ⟨s, hs, hbackup, ⟨info, hinfo, htxid, hcan⟩, hclock, hbuilt, haccounts, hsoftware⟩ :=
    exec_reach (S := deskSystem 1) (G := Free) (s := newDesk (softwareAccounts 5))
      (p := fun s => s.appDb.backupFlag 1 = false ∧
        (∃ info ∈ s.listed (.all [5]) 0 200 0, info.txid = 7 ∧ info.canRetryBroadcast = true) ∧
        s.clock = 0 ∧ s.built = [⟨7, 5, [3]⟩] ∧ s.wallet.accounts.rows = [⟨5, none, some 0⟩] ∧
        s.appDb.accounts 1 0 = some .software)
      [.account (.manager (.call (.restoreWallet .works .works .works 1 [] true))),
        buildsSeven (.confirmSend 0)]
      ⟨⟨.of_init rfl, .software 5⟩, rfl, rfl⟩ (along_free _ _) (by decide +kernel)
  refine ⟨s, ⟨hs, hbackup, info, hinfo, htxid, hcan⟩, ?_⟩
  unfold Desk.listed at hinfo
  split at hinfo
  next infos total hlist =>
    obtain ⟨b, hb, -, hiff⟩ := offered_retry_sends 1 s hs hbackup (.all [5]) 0 200 0 total infos
      hlist info hinfo hcan s.retryEnv rfl hclock.symm 2 le_rfl
    rw [hbuilt, List.mem_singleton] at hb
    subst hb
    rw [htxid] at hiff
    refine hiff.mpr ⟨⟨5, none, some 0⟩, ?_, rfl, 0, rfl, hsoftware⟩
    show _ ∈ s.wallet.accounts.rows
    rw [haccounts]
    exact List.mem_singleton_self _
  next => cases hinfo

end ZbagRetry
