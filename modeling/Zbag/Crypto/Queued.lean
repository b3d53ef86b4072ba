import Zbag.Crypto.Sealing

/-!
# Encryption — the blobs of the broadcast queue

Two calls write the sealed bytes of a transaction to a file that is named after it, and a retry
reads the file again. The associated data binds the wallet and the transaction id, which the reader
takes from the name of the file, so it does not matter who moves, copies or replaces the files
meanwhile.
-/

namespace ZbagCrypto

open Aead Encoding Operation Transition

/-! ## File names -/

/-- It need not be UTF-8. -/
inductive FileName
  | utf8 (name : String)
  | other (bytes : Bytes)
  deriving DecidableEq, Repr

/-- Up to the last dot, unless that is the first character. -/
def fileStem (name : List Char) : List Char :=
  let before := ((name.reverse.dropWhile (· ≠ '.')).drop 1).reverse
  if before = [] ∨ name = ['.', '.'] then name else before

def FileName.stem : FileName → String
  | .utf8 name => .ofList (fileStem name.toList)
  | .other _ => ""

def binName (txid : String) : FileName := .utf8 (txid ++ ".bin")

theorem fileStem_bin {name : List Char} (h : name ≠ []) :
    fileStem (name ++ ['.', 'b', 'i', 'n']) = name := by
  have hne : name ++ ['.', 'b', 'i', 'n'] ≠ ['.', '.'] := by
    intro e
    have hlength := congrArg List.length e
    simp at hlength
  simp [fileStem, h, hne]

theorem stem_binName {txid : String} (h : txid ≠ "") : (binName txid).stem = txid := by
  have hlist : txid.toList ≠ [] := fun e => h (String.toList_inj.mp e)
  rw [binName, FileName.stem, String.toList_append]
  exact (congrArg String.ofList (fileStem_bin hlist)).trans String.ofList_toList

theorem length_txidText (txid : TxId) : (txidText txid).toList.length = 64 := by
  simp [txidText]

theorem txidText_ne_empty (txid : TxId) : txidText txid ≠ "" := by
  intro h
  have hlength := length_txidText txid
  rw [h] at hlength
  cases hlength

theorem eq_of_stem_binName {txid : String} {id : TxId} (h : (binName txid).stem = txidText id) :
    txid = txidText id := by
  by_cases hempty : txid = ""
  · subst hempty
    have hlength := length_txidText id
    rw [← h] at hlength
    exact absurd hlength (by decide)
  · rwa [stem_binName hempty] at h

/-! ## The calls -/

structure Sent where
  w : Uuid
  dek : Key
  txid : String
  txBytes : Bytes
  deriving DecidableEq, Repr

structure Desk where
  vault : Vault
  files : String → FileName → Option Bytes
  sent : List Sent

def Desk.store (s : Desk) (dir : String) (name : FileName) (content : Option Bytes) : Desk :=
  { s with files := fun dir' name' =>
      if dir' = dir ∧ name' = name then content else s.files dir' name' }

def Desk.record (s : Desk) (use : Entry × Event) : Desk :=
  { s with vault := ⟨use :: s.vault.uses⟩ }

/-- With what it draws at random and the answers to it. -/
structure Queueing where
  dir : String
  w : Uuid
  dek : Key
  txid : TxId
  txBytes : Bytes
  nonce : Nonce
  create : Except String Unit
  answer : Option Bytes
  write : Except String Unit
  writeMeta : Except String Unit

def Queueing.use (q : Queueing) : Use := .sealQueuedTx q.w q.dek q.txid q.txBytes q.nonce

def Queueing.name (q : Queueing) : FileName := binName (txidText q.txid)

/-- The metadata comes last. -/
def queueTx (createFailed writeFailed : String → String) (q : Queueing) :
    ExceptT String (StateM Desk) Unit := do
  liftExcept (q.create.mapError createFailed)
  let use ← liftExcept (sealQueuedTx q.w q.dek (txidText q.txid) q.txBytes q.nonce q.answer)
  modify (·.record (use.1, .queued q.w q.dek q.txid q.txBytes use.2))
  liftExcept (q.write.mapError writeFailed)
  modify (·.store q.dir q.name (some use.2))
  liftExcept q.writeMeta

def queueBroadcast : Queueing → ExceptT String (StateM Desk) Unit :=
  queueTx (fun _ => "failed to create queued broadcasts dir")
    (fun _ => "failed to write queued tx bytes")

def queueBroadcastForRetry : Queueing → ExceptT String (StateM Desk) Unit := queueTx id id

def decryptQueuedTxBytes (s : Desk) (w : Uuid) (dek : Key) (dir : String) (name : FileName) :
    Except String Bytes :=
  match s.files dir name with
  | none => .error "failed to read queued tx bytes"
  | some bytes => openQueuedTx s.vault.log w dek name.stem bytes

/-- What `hex::decode` accepts. -/
def isHex (text : String) : Bool :=
  text.toList.length % 2 = 0 ∧ text.toList.all fun c =>
    ('0' ≤ c ∧ c ≤ '9') ∨ ('a' ≤ c ∧ c ≤ 'f') ∨ ('A' ≤ c ∧ c ≤ 'F')

/-- What it finds, and how often it goes on to another server. -/
structure Retry where
  dir : String
  w : Uuid
  dek : Key
  txid : String
  entry : Except String Unit
  failovers : ℕ
  delivered : Except String Unit

def retryBroadcast (r : Retry) : ExceptT String (StateM Desk) Unit := do
  liftExcept (ensure (isHex r.txid) "invalid txid hex")
  liftExcept r.entry
  let txBytes ← liftExcept (decryptQueuedTxBytes (← get) r.w r.dek r.dir (binName r.txid))
  modify fun s => { s with
    sent := List.replicate (r.failovers + 1) ⟨r.w, r.dek, r.txid, txBytes⟩ ++ s.sent }
  liftExcept r.delivered
  modify (·.store r.dir (binName r.txid) none)

/-! ## Runs -/

inductive DeskAction
  /-- another use of the cipher -/
  | use (u : Use) (answer : Option Bytes)
  | queueBroadcast (q : Queueing)
  | queueBroadcastForRetry (q : Queueing)
  /-- by anyone -/
  | place (dir : String) (name : FileName) (content : Option Bytes)
  | retryBroadcast (r : Retry)

def Desk.step (p : Primitives) (s : Desk) : DeskAction → Option Desk
  | .use u answer => (s.vault.step p (u, answer)).map fun vault => { s with vault := vault }
  | .queueBroadcast q => some (outcome (ZbagCrypto.queueBroadcast q) s).2
  | .queueBroadcastForRetry q => some (outcome (ZbagCrypto.queueBroadcastForRetry q) s).2
  | .place dir name content => some (s.store dir name content)
  | .retryBroadcast r => some (outcome (ZbagCrypto.retryBroadcast r) s).2

/-- **Runs of the queue**, beside the other uses of the cipher. -/
def desk (p : Primitives) : System Desk DeskAction where
  init s := s.vault = ⟨[]⟩ ∧ s.sent = []
  step := Desk.step p

def IdealDesk (p : Primitives) (s : Desk) : DeskAction → Prop
  | .use u answer => Ideal p s.vault (u, answer)
  | .queueBroadcast q | .queueBroadcastForRetry q => Ideal p s.vault (q.use, q.answer)
  | .place .. | .retryBroadcast _ => True

instance (p : Primitives) (s : Desk) (a : DeskAction) : Decidable (IdealDesk p s a) :=
  match a with
  | .use u answer => inferInstanceAs (Decidable (Ideal p s.vault (u, answer)))
  | .queueBroadcast q => inferInstanceAs (Decidable (Ideal p s.vault (q.use, q.answer)))
  | .queueBroadcastForRetry q => inferInstanceAs (Decidable (Ideal p s.vault (q.use, q.answer)))
  | .place .. => inferInstanceAs (Decidable True)
  | .retryBroadcast _ => inferInstanceAs (Decidable True)

/-! ## What opens -/

section Opens

variable {p : Primitives} {v : Vault} {w w' : Uuid} {dek dek' : Key}

/-- **A blob opens exactly as it was written.** -/
theorem openQueuedTx_eq_ok_iff (hv : v.Ok p) {txid : String} {blob txBytes : Bytes} :
    openQueuedTx v.log w dek txid blob = .ok txBytes ↔
      ∃ id, txid = txidText id ∧ .queued w dek id txBytes blob ∈ v.events := by
  constructor
  · intro h
    unfold openQueuedTx at h
    split_ifs at h with hlength
    rw [decryptWith_eq_ok, decrypt_eq_some_iff hv.distinct] at h
    obtain ⟨event, hevent, hmade, -⟩ := hv.exists_event h
    cases event with
    | wrapped => exact absurd hmade.choose_spec.2.2.2.1 aeadAad_ne_queuedAad.symm
    | mnemonic => exact absurd hmade.2.1 mnemonicAad_ne_queuedAad.symm
    | queued w' dek' id txBytes' blob' =>
      obtain ⟨rfl, haad, rfl, hblob⟩ := hmade
      obtain ⟨rfl, rfl⟩ := queuedAad_eq haad
      rw [hblob.trans (nonceOf_append_drop (Nat.not_lt.mp hlength))] at hevent
      exact ⟨id, rfl, hevent⟩
  · rintro ⟨id, rfl, h⟩
    obtain ⟨entry, hentry, ⟨rfl, haad, rfl, rfl⟩, -⟩ := hv.exists_entry h
    unfold openQueuedTx
    rw [if_neg (by simp), decryptWith_eq_ok, decrypt_eq_some_iff hv.distinct, nonceOf_append,
      List.drop_left' Vector.length_toList, ← haad]
    exact hentry

theorem queued_unique (hv : v.Ok p) {id id' : TxId} {txBytes txBytes' blob : Bytes}
    (h : .queued w dek id txBytes blob ∈ v.events)
    (h' : .queued w' dek' id' txBytes' blob ∈ v.events) :
    w = w' ∧ dek = dek' ∧ id = id' ∧ txBytes = txBytes' := by
  obtain ⟨entry, hentry, ⟨rfl, haad, rfl, hblob⟩, -⟩ := hv.exists_entry h
  obtain ⟨entry', hentry', ⟨rfl, haad', rfl, hblob'⟩, -⟩ := hv.exists_entry h'
  have hciphertext := (List.append_inj (hblob.symm.trans hblob') (by simp)).2
  obtain rfl := hv.distinct entry' hentry' entry hentry hciphertext
  obtain ⟨rfl, hid⟩ := queuedAad_eq (haad.symm.trans haad')
  exact ⟨rfl, rfl, txidText_injective hid, rfl⟩

theorem decryptQueuedTxBytes_eq_ok_iff {s : Desk} (hs : s.vault.Ok p) {dir : String}
    {name : FileName} {txBytes : Bytes} :
    decryptQueuedTxBytes s w dek dir name = .ok txBytes ↔
      ∃ blob id, s.files dir name = some blob ∧ name.stem = txidText id ∧
        .queued w dek id txBytes blob ∈ s.vault.events := by
  unfold decryptQueuedTxBytes
  cases s.files dir name with
  | none => simp
  | some blob => simp [openQueuedTx_eq_ok_iff hs]

end Opens

/-! ## Invariants -/

section Runs

variable {p : Primitives} {s t : Desk}

/-- It was queued for the wallet with its key, under its transaction id. -/
def Sent.FromQueue (v : Vault) (x : Sent) : Prop :=
  ∃ id blob, x.txid = txidText id ∧ .queued x.w x.dek id x.txBytes blob ∈ v.events

structure Desk.Ok (p : Primitives) (s : Desk) : Prop where
  vault : s.vault.Ok p
  sent : ∀ x ∈ s.sent, x.FromQueue s.vault

theorem Desk.Ok.use (hs : s.Ok p) {a : Use × Option Bytes} (hideal : Ideal p s.vault a)
    (hvault : s.vault.step p a = some t.vault) (hsent : t.sent = s.sent) : t.Ok p := by
  refine ⟨hs.vault.step hideal hvault, ?_⟩
  rw [hsent]
  intro x hx
  obtain ⟨id, blob, hid, hevent⟩ := hs.sent x hx
  exact ⟨id, blob, hid, Vault.events_subset hvault hevent⟩

/-- The blob reaches its file. -/
structure Queueing.Writes (q : Queueing) : Prop where
  create : q.create = .ok ()
  answer : q.answer.isSome
  write : q.write = .ok ()

theorem queueTx_vault (createFailed writeFailed : String → String) (q : Queueing) (s : Desk) :
    let t := (outcome (queueTx createFailed writeFailed q) s).2
    t.sent = s.sent ∧ (t.vault = s.vault ∨ s.vault.step p (q.use, q.answer) = some t.vault) := by
  obtain ⟨dir, w, dek, txid, txBytes, nonce, create, answer, write, writeMeta⟩ := q
  cases create with
  | error e => exact ⟨rfl, .inl rfl⟩
  | ok _ =>
    cases answer with
    | none => exact ⟨rfl, .inl rfl⟩
    | some ciphertext =>
      cases write with
      | error e => exact ⟨rfl, .inr rfl⟩
      | ok _ =>
        cases writeMeta with
        | error e | ok _ => exact ⟨rfl, .inr rfl⟩

theorem queueTx_files (createFailed writeFailed : String → String) {q : Queueing} (h : q.Writes)
    (s : Desk) :
    let t := (outcome (queueTx createFailed writeFailed q) s).2
    ∃ blob, t.files q.dir q.name = some blob ∧
      .queued q.w q.dek q.txid q.txBytes blob ∈ t.vault.events := by
  obtain ⟨dir, w, dek, txid, txBytes, nonce, create, answer, write, writeMeta⟩ := q
  obtain ⟨rfl, hanswer, rfl⟩ := h
  obtain ⟨ciphertext, rfl⟩ := Option.isSome_iff_exists.mp hanswer
  refine ⟨nonce.toList ++ ciphertext, ?_, ?_⟩
  · cases writeMeta <;> exact if_pos ⟨rfl, rfl⟩
  · cases writeMeta <;> exact List.mem_cons_self

theorem writes_of_queueTx {createFailed writeFailed : String → String} {q : Queueing} {s : Desk}
    (h : (outcome (queueTx createFailed writeFailed q) s).1 = .ok ()) : q.Writes := by
  obtain ⟨dir, w, dek, txid, txBytes, nonce, create, answer, write, writeMeta⟩ := q
  cases create with
  | error e => cases h
  | ok _ =>
    cases answer with
    | none => cases h
    | some ciphertext =>
      cases write with
      | error e => cases h
      | ok _ => exact ⟨rfl, rfl, rfl⟩

theorem Desk.Ok.queueTx (hs : s.Ok p) {q : Queueing} (hideal : Ideal p s.vault (q.use, q.answer))
    (createFailed writeFailed : String → String) :
    (outcome (ZbagCrypto.queueTx createFailed writeFailed q) s).2.Ok p := by
  obtain ⟨hsent, hvault | hvault⟩ := queueTx_vault (p := p) createFailed writeFailed q s
  · exact ⟨hvault ▸ hs.vault, hsent ▸ hvault ▸ hs.sent⟩
  · exact hs.use hideal hvault hsent

theorem retryBroadcast_sent (r : Retry) (s : Desk) :
    let t := (outcome (retryBroadcast r) s).2
    t.vault = s.vault ∧ ∀ x ∈ t.sent, x ∈ s.sent ∨
      decryptQueuedTxBytes s x.w x.dek r.dir (binName x.txid) = .ok x.txBytes := by
  have hsame : s.vault = s.vault ∧ ∀ x ∈ s.sent, x ∈ s.sent ∨
      decryptQueuedTxBytes s x.w x.dek r.dir (binName x.txid) = .ok x.txBytes :=
    ⟨rfl, fun x hx => .inl hx⟩
  unfold retryBroadcast
  rw [outcome_bind, outcome_liftExcept]
  cases ensure (isHex r.txid) "invalid txid hex" with
  | error e => exact hsame
  | ok _ =>
    dsimp only
    rw [outcome_bind, outcome_liftExcept]
    cases r.entry with
    | error e => exact hsame
    | ok _ =>
      dsimp only
      rw [outcome_get_bind, outcome_bind,
        outcome_liftExcept]
      cases hread : decryptQueuedTxBytes s r.w r.dek r.dir (binName r.txid) with
      | error e => exact hsame
      | ok txBytes =>
        have hsent : ∀ x ∈ List.replicate (r.failovers + 1) ⟨r.w, r.dek, r.txid, txBytes⟩ ++ s.sent,
            x ∈ s.sent ∨
              decryptQueuedTxBytes s x.w x.dek r.dir (binName x.txid) = .ok x.txBytes := by
          intro x hx
          rcases List.mem_append.mp hx with hnew | hold
          · obtain rfl := List.eq_of_mem_replicate hnew
            exact .inr hread
          · exact .inl hold
        cases hdelivered : r.delivered with
        | error e | ok _ => exact ⟨rfl, hsent⟩

theorem Desk.Ok.retryBroadcast (hs : s.Ok p) (r : Retry) :
    (outcome (ZbagCrypto.retryBroadcast r) s).2.Ok p := by
  obtain ⟨hvault, hsent⟩ := retryBroadcast_sent r s
  refine ⟨hvault ▸ hs.vault, ?_⟩
  rw [hvault]
  intro x hx
  rcases hsent x hx with hold | hread
  · exact hs.sent x hold
  · obtain ⟨blob, id, -, hstem, hevent⟩ := (decryptQueuedTxBytes_eq_ok_iff hs.vault).mp hread
    exact ⟨id, blob, eq_of_stem_binName hstem, hevent⟩

theorem Desk.Ok.step (hs : s.Ok p) {a : DeskAction} (hideal : IdealDesk p s a)
    (h : s.step p a = some t) : t.Ok p := by
  cases a with
  | use u answer =>
    obtain ⟨vault, hvault, rfl⟩ := Option.map_eq_some_iff.mp h
    exact hs.use hideal hvault rfl
  | queueBroadcast q | queueBroadcastForRetry q =>
    cases h
    exact hs.queueTx hideal _ _
  | place dir name content =>
    cases h
    exact ⟨hs.vault, hs.sent⟩
  | retryBroadcast r =>
    cases h
    exact hs.retryBroadcast r

theorem Desk.Ok.of_reach (h : Reach (desk p) (IdealDesk p) s) : s.Ok p := by
  refine h.invariant (I := Desk.Ok p) ?_ fun _ _ _ hs hideal hstep => hs.step hideal hstep
  rintro s ⟨hvault, hsent⟩
  exact ⟨hvault ▸ .nil, hsent ▸ nofun⟩

theorem decryptQueuedTxBytes_queueTx (hs : s.Ok p) {q : Queueing}
    (hideal : Ideal p s.vault (q.use, q.answer)) (hwrites : q.Writes)
    (createFailed writeFailed : String → String) :
    decryptQueuedTxBytes (outcome (queueTx createFailed writeFailed q) s).2 q.w q.dek q.dir q.name =
      .ok q.txBytes := by
  obtain ⟨blob, hfile, hevent⟩ := queueTx_files createFailed writeFailed hwrites s
  have hok := hs.queueTx hideal createFailed writeFailed
  exact (decryptQueuedTxBytes_eq_ok_iff hok.vault).mpr
    ⟨blob, q.txid, hfile, stem_binName (txidText_ne_empty q.txid), hevent⟩

end Runs

/-! ## The result -/

/-- **The queue never mixes up its entries.** Whatever is done to the files: what was written opens
to its bytes, a file opens exactly for its own wallet, key and name, and only queued bytes are sent.
-/
theorem queued_blobs_bound (p : Primitives) (s : Desk) (h : Reach (desk p) (IdealDesk p) s) :
    (∀ q, Ideal p s.vault (q.use, q.answer) →
      ∀ call ∈ [queueBroadcast q, queueBroadcastForRetry q],
        ((outcome call s).1 = .ok () → q.Writes) ∧
        (q.Writes → decryptQueuedTxBytes (outcome call s).2 q.w q.dek q.dir
          (binName (txidText q.txid)) = .ok q.txBytes)) ∧
    (∀ w dek dir name txBytes, decryptQueuedTxBytes s w dek dir name = .ok txBytes ↔
      ∃ blob txid, s.files dir name = some blob ∧ name.stem = txidText txid ∧
        .queued w dek txid txBytes blob ∈ s.vault.events) ∧
    (∀ w dek txid txBytes blob, .queued w dek txid txBytes blob ∈ s.vault.events →
      ∀ dir name, s.files dir name = some blob → ∀ w' dek' txBytes',
        decryptQueuedTxBytes s w' dek' dir name = .ok txBytes' ↔
          w' = w ∧ dek' = dek ∧ name.stem = txidText txid ∧ txBytes' = txBytes) ∧
    ∀ x ∈ s.sent, ∃ txid blob, x.txid = txidText txid ∧
      .queued x.w x.dek txid x.txBytes blob ∈ s.vault.events := by
  have hs := Desk.Ok.of_reach h
  refine ⟨?_, ?_, ?_, hs.sent⟩
  · intro q hideal call hcall
    rcases List.mem_pair.mp hcall with rfl | rfl
    · exact ⟨writes_of_queueTx, fun hq => decryptQueuedTxBytes_queueTx hs hideal hq _ _⟩
    · exact ⟨writes_of_queueTx, fun hq => decryptQueuedTxBytes_queueTx hs hideal hq _ _⟩
  · intro w dek dir name txBytes
    exact decryptQueuedTxBytes_eq_ok_iff hs.vault
  · intro w dek txid txBytes blob hevent dir name hfile w' dek' txBytes'
    rw [decryptQueuedTxBytes_eq_ok_iff hs.vault]
    constructor
    · rintro ⟨blob', id, hfile', hstem, hevent'⟩
      obtain rfl := Option.some.inj (hfile'.symm.trans hfile)
      obtain ⟨rfl, rfl, rfl, rfl⟩ := queued_unique hs.vault hevent' hevent
      exact ⟨rfl, rfl, hstem, rfl⟩
    · rintro ⟨rfl, rfl, hstem, rfl⟩
      exact ⟨blob, txid, hfile, hstem, hevent⟩

def noKdf : Primitives where
  decodeSalt _ := .error "invalid"
  base64Error _ := "invalid"
  params _ _ _ := .ok ()
  argon2 _ := .error "invalid"

def queueing (dir : String) (b : UInt8) : Queueing where
  dir := dir
  w := Vector.replicate 16 b
  dek := Vector.replicate 32 b
  txid := Vector.replicate 32 b
  txBytes := [b]
  nonce := Vector.replicate 24 b
  create := .ok ()
  answer := some (List.replicate 17 b)
  write := .ok ()
  writeMeta := .ok ()

/-- The first wallet's file is copied to the second one, and the first one sends. -/
def copyAndRetry : List DeskAction :=
  [.queueBroadcast (queueing "first" 1), .queueBroadcastForRetry (queueing "second" 2),
    .place "second" (queueing "first" 1).name (some (List.replicate 24 1 ++ List.replicate 17 1)),
    .retryBroadcast ⟨"first", Vector.replicate 16 1, Vector.replicate 32 1,
      txidText (Vector.replicate 32 1), .ok (), 0, .error "offline"⟩]

theorem queued_blobs_bound_copyAndRetry : ∃ s, Reach (desk noKdf) (IdealDesk noKdf) s ∧
    decryptQueuedTxBytes s (Vector.replicate 16 1) (Vector.replicate 32 1) "first"
      (queueing "first" 1).name = .ok [1] ∧
    (∀ txBytes, decryptQueuedTxBytes s (Vector.replicate 16 2) (Vector.replicate 32 2) "second"
      (queueing "first" 1).name ≠ .ok txBytes) ∧
    (∃ x ∈ s.sent, ∃ txid blob, x.txid = txidText txid ∧
      .queued x.w x.dek txid x.txBytes blob ∈ s.vault.events) ∧
    (Ideal noKdf s.vault ((queueing "third" 3).use, (queueing "third" 3).answer) ∧
      (queueing "third" 3).Writes) ∧
    decryptQueuedTxBytes (outcome (queueBroadcast (queueing "third" 3)) s).2
      (Vector.replicate 16 3) (Vector.replicate 32 3) "third"
      (binName (txidText (Vector.replicate 32 3))) = .ok [3] := by
  obtain ⟨s, hs, hevent, hfirst, hsecond, hsent, hideal⟩ := exec_reach (S := desk noKdf)
    (G := IdealDesk noKdf)
    (p := fun s =>
      .queued (Vector.replicate 16 1) (Vector.replicate 32 1) (Vector.replicate 32 1) [1]
        (List.replicate 24 1 ++ List.replicate 17 1) ∈ s.vault.events ∧
      s.files "first" (queueing "first" 1).name =
        some (List.replicate 24 1 ++ List.replicate 17 1) ∧
      s.files "second" (queueing "first" 1).name =
        some (List.replicate 24 1 ++ List.replicate 17 1) ∧
      s.sent ≠ [] ∧ Ideal noKdf s.vault ((queueing "third" 3).use, (queueing "third" 3).answer))
    (s := ⟨⟨[]⟩, fun _ _ => none, []⟩) copyAndRetry ⟨rfl, rfl⟩ (by decide +kernel)
    (by decide +kernel)
  obtain ⟨hwrites, -, hblob, hqueue⟩ := queued_blobs_bound noKdf s hs
  obtain ⟨x, hx⟩ := List.exists_mem_of_ne_nil _ hsent
  have hthird : (queueing "third" 3).Writes := ⟨rfl, rfl, rfl⟩
  refine ⟨s, hs, ?_, ?_, ⟨x, hx, hqueue x hx⟩, ⟨hideal, hthird⟩,
    (hwrites _ hideal _ List.mem_cons_self).2 hthird⟩
  · refine (hblob _ _ _ _ _ hevent _ _ hfirst _ _ _).mpr ⟨rfl, rfl, ?_, rfl⟩
    exact stem_binName (txidText_ne_empty _)
  · intro txBytes hread
    have hw := ((hblob _ _ _ _ _ hevent _ _ hsecond _ _ _).mp hread).1
    exact absurd hw (by decide)

end ZbagCrypto
