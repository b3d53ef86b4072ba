import Zbag.Keystone.Skip
import Zbag.Lib.Encoding

/-!
# Keystone — the `zcash-accounts` decoder

The device sends its accounts as a map: a fingerprint of the seed under 1 and an array of tagged
account maps under 2. The decoder goes over each map and skips the keys that it does not know, so
that a later firmware may add some.
-/

namespace ZbagKeystone

open Cbor

/-! ## The code -/

structure ZcashAccount where
  ufvk : String
  index : Option ℕ
  label : Option String
  deriving DecidableEq, Repr

structure ZcashAccountsResult where
  seedFingerprint : Option String
  accounts : List ZcashAccount
  deriving DecidableEq, Repr

def zcashUfvkTag : ℕ := 49203

def forTimes {σ : Type} (body : σ → Except String σ) : ℕ → σ → Except String σ
  | 0, s => .ok s
  | n + 1, s => body s >>= forTimes body n

def bytesToHex (bytes : List UInt8) : String := String.ofList (Encoding.hex bytes)

def readCborUint (bytes : List UInt8) (offset : ℕ) : Except String (ℕ × ℕ) := do
  let head ← readCborHead bytes offset
  if head.major ≠ 0 then
    .error ("Expected unsigned int (major 0), got major " ++ toString head.major)
  else .ok (head.value, head.offset)

def readCborString (major : ℕ) (kind : String) (bytes : List UInt8) (offset : ℕ) :
    Except String (List UInt8 × ℕ) := do
  let head ← readCborHead bytes offset
  if head.major ≠ major then
    .error ("Expected " ++ kind ++ " (major " ++ toString major ++ "), got major " ++
      toString head.major)
  else if head.indefinite then .error ("Indefinite " ++ kind ++ "s not supported")
  else
    Ur.takeBytes bytes ("Unexpected end of CBOR (" ++ kind ++ ")") head.offset head.value

def readCborByteString : List UInt8 → ℕ → Except String (List UInt8 × ℕ) :=
  readCborString 2 "byte string"

section Decoder

-- `new TextDecoder().decode`, which has a result for all bytes
variable (decodeText : List UInt8 → String)

def readCborTextString (bytes : List UInt8) (offset : ℕ) : Except String (String × ℕ) := do
  let (textBytes, next) ← readCborString 3 "text string" bytes offset
  return (decodeText textBytes, next)

structure AccountVars where
  ufvk : Option String
  index : Option ℕ
  label : Option String
  deriving DecidableEq, Repr

def parseAccountValue (bytes : List UInt8) (vars : AccountVars) (key offset : ℕ) :
    Except String (AccountVars × ℕ) :=
  match key with
  | 1 => do
    let (ufvk, next) ← readCborTextString decodeText bytes offset
    return ({ vars with ufvk := some ufvk }, next)
  | 2 => do
    let (index, next) ← readCborUint bytes offset
    return ({ vars with index := some index }, next)
  | 3 => do
    let (label, next) ← readCborTextString decodeText bytes offset
    return ({ vars with label := some label }, next)
  | _ => do
    let next ← skipCborItem bytes offset
    return (vars, next)

def parseAccountEntry (bytes : List UInt8) (state : AccountVars × ℕ) :
    Except String (AccountVars × ℕ) := do
  let (key, next) ← readCborUint bytes state.2
  parseAccountValue decodeText bytes state.1 key next

/-- `!ufvk` refuses an empty text, too. -/
def accountOf (vars : AccountVars) : Except String ZcashAccount :=
  if vars.ufvk.getD "" = "" then .error "Account entry missing required UFVK (key 1)"
  else .ok ⟨vars.ufvk.getD "", vars.index, vars.label⟩

def parseAccountMap (bytes : List UInt8) (offset : ℕ) : Except String (ZcashAccount × ℕ) := do
  let mapHead ← readCborHead bytes offset
  if mapHead.major ≠ 5 then
    .error ("Expected map (major 5) for account, got major " ++ toString mapHead.major)
  else if mapHead.indefinite then .error "Indefinite maps not supported for account"
  else do
    let (vars, next) ← forTimes (parseAccountEntry decodeText bytes) mapHead.value
      (⟨none, none, none⟩, mapHead.offset)
    let account ← accountOf vars
    return (account, next)

structure ScanVars where
  seedFingerprint : Option String
  accountsArray : Option (ℕ × ℕ)
  deriving DecidableEq, Repr

def scanValue (cbor : List UInt8) (vars : ScanVars) (key offset : ℕ) :
    Except String (ScanVars × ℕ) :=
  match key with
  | 1 => do
    let (value, next) ← readCborByteString cbor offset
    if value.length ≠ 32 then
      .error ("Invalid zcash-accounts CBOR: seed_fingerprint must be 32 bytes, got " ++
        toString value.length)
    else .ok ({ vars with seedFingerprint := some (bytesToHex value) }, next)
  | 2 => do
    let arrayHead ← readCborHead cbor offset
    if arrayHead.major ≠ 4 then
      .error ("Invalid zcash-accounts CBOR: expected array (major 4) for key 2, got major " ++
        toString arrayHead.major)
    else if arrayHead.indefinite then
      .error "Invalid zcash-accounts CBOR: indefinite arrays not supported"
    else do
      -- the accounts are parsed once the outer map is at its end
      let next ← skipItems cbor arrayHead.value arrayHead.offset
      return ({ vars with accountsArray := some (arrayHead.offset, arrayHead.value) }, next)
  | _ => do
    let next ← skipCborItem cbor offset
    return (vars, next)

def scanEntry (cbor : List UInt8) (state : ScanVars × ℕ) : Except String (ScanVars × ℕ) := do
  let (key, next) ← readCborUint cbor state.2
  scanValue cbor state.1 key next

def parseAccount (bytes : List UInt8) (state : List ZcashAccount × ℕ) :
    Except String (List ZcashAccount × ℕ) := do
  let tagHead ← readCborHead bytes state.2
  if tagHead.major ≠ 6 then
    .error ("Invalid zcash-accounts CBOR: expected tag (major 6) for account entry, got major " ++
      toString tagHead.major)
  else if tagHead.value ≠ zcashUfvkTag then
    .error ("Invalid zcash-accounts CBOR: expected tag 49203 (0xC033), got tag " ++
      toString tagHead.value)
  else do
    let (account, next) ← parseAccountMap decodeText bytes tagHead.offset
    return (state.1 ++ [account], next)

def parseAccounts (cbor : List UInt8) (vars : ScanVars) : Except String ZcashAccountsResult :=
  match vars.accountsArray with
  | none => .error "Invalid zcash-accounts CBOR: missing accounts array (key 2)"
  | some (offset, length) => do
    let (accounts, _) ← forTimes (parseAccount decodeText cbor) length ([], offset)
    return ⟨vars.seedFingerprint, accounts⟩

def decodeZcashAccountsUrCbor (cbor : Uint8Array) : Except String ZcashAccountsResult := do
  let outerMapHead ← readCborHead cbor.bytes 0
  if outerMapHead.major ≠ 5 then
    .error ("Invalid zcash-accounts CBOR: expected map (major 5), got major " ++
      toString outerMapHead.major)
  else if outerMapHead.indefinite then
    .error "Invalid zcash-accounts CBOR: indefinite maps not supported"
  else do
    let (vars, _) ← forTimes (scanEntry cbor.bytes) outerMapHead.value
      (⟨none, none⟩, outerMapHead.offset)
    parseAccounts decodeText cbor.bytes vars

end Decoder

/-! ## Messages -/

structure Sized (n : ℕ) where
  width : Width
  fits : n < width.bound
  deriving DecidableEq, Repr

def Sized.head {n : ℕ} (s : Sized n) (major : Fin 8) : Head := ⟨major, s.width, n, s.fits⟩

def Sized.raw {n : ℕ} (s : Sized n) : Raw := ⟨[n], (s.head 0).encode⟩

def stringRaw (major : Fin 8) (c : Chunk) : Raw := ⟨[c.data.length], c.encode major⟩

def arrayRaw (items : List Raw) (s : Sized items.length) : Raw :=
  ⟨items.length :: allHeads items, (s.head 4).encode ++ allBytes items⟩

def mapRaw (entries : List (Raw × Raw)) (s : Sized entries.length) : Raw :=
  ⟨entries.length :: allHeads (alternate entries),
    (s.head 5).encode ++ allBytes (alternate entries)⟩

/-- With any well-formed item as its value. -/
structure Unknown (known : List ℕ) where
  number : ℕ
  key : Sized number
  bound : number < 2 ^ 32
  other : number ∉ known
  value : Raw
  item : Item value

inductive AccountField
  | ufvk (key : Sized 1) (text : Chunk)
  | index (key : Sized 2) (number : ℕ) (value : Sized number) (hsafe : number ≤ maxSafeInteger)
  | label (key : Sized 3) (text : Chunk)
  | unknown (u : Unknown [1, 2, 3])

namespace AccountField

def entry : AccountField → Raw × Raw
  | ufvk key text => (key.raw, stringRaw 3 text)
  | index key _ value _ => (key.raw, value.raw)
  | label key text => (key.raw, stringRaw 3 text)
  | unknown u => (u.key.raw, u.value)

def bytes (f : AccountField) : List UInt8 := entryBytes f.entry

def isKnown : AccountField → Bool
  | unknown _ => false
  | _ => true

def ufvk? : AccountField → Option Chunk
  | ufvk _ text => some text
  | _ => none

/-- The front end can hold what is in an unknown value. -/
def ValueSafe : AccountField → Prop
  | unknown u => Safe u.value.heads
  | _ => True

instance : (f : AccountField) → Decidable f.ValueSafe
  | unknown u => inferInstanceAs (Decidable (Safe u.value.heads))
  | ufvk _ _ => isTrue trivial
  | index _ _ _ _ => isTrue trivial
  | label _ _ => isTrue trivial

def apply (decodeText : List UInt8 → String) (vars : AccountVars) : AccountField → AccountVars
  | ufvk _ text => { vars with ufvk := some (decodeText text.data) }
  | index _ number _ _ => { vars with index := some number }
  | label _ text => { vars with label := some (decodeText text.data) }
  | unknown _ => vars

end AccountField

structure Account where
  tag : Sized zcashUfvkTag
  fields : List AccountField
  size : Sized fields.length

namespace Account

def mapOf (a : Account) : Raw :=
  mapRaw (a.fields.map AccountField.entry) ⟨a.size.width, by simpa using a.size.fits⟩

def raw (a : Account) : Raw :=
  ⟨zcashUfvkTag :: a.mapOf.heads, (a.tag.head 6).encode ++ a.mapOf.bytes⟩

/-- There is a viewing key, and none is empty. -/
def Valid (decodeText : List UInt8 → String) (a : Account) : Prop :=
  (∃ f ∈ a.fields, f.ufvk?.isSome) ∧
    ∀ f ∈ a.fields, ∀ text ∈ f.ufvk?, decodeText text.data ≠ ""

def ValuesSafe (a : Account) : Prop := ∀ f ∈ a.fields, f.ValueSafe

instance (a : Account) : Decidable a.ValuesSafe := by unfold ValuesSafe; infer_instance

def vars (decodeText : List UInt8 → String) (a : Account) : AccountVars :=
  a.fields.foldl (AccountField.apply decodeText) ⟨none, none, none⟩

def result (decodeText : List UInt8 → String) (a : Account) : ZcashAccount :=
  let vars := a.vars decodeText
  ⟨vars.ufvk.getD "", vars.index, vars.label⟩

def known (a : Account) : Account where
  tag := a.tag
  fields := a.fields.filter AccountField.isKnown
  size := ⟨a.size.width, Nat.lt_of_le_of_lt (List.length_filter_le _ _) a.size.fits⟩

end Account

inductive Entry
  | fingerprint (key : Sized 1) (data : Chunk) (hlen : data.data.length = 32)
  | accounts (key : Sized 2) (accounts : List Account) (size : Sized accounts.length)
  | unknown (u : Unknown [1, 2])

namespace Entry

def entry : Entry → Raw × Raw
  | fingerprint key data _ => (key.raw, stringRaw 2 data)
  | accounts key as size =>
    (key.raw, arrayRaw (as.map Account.raw) ⟨size.width, by simpa using size.fits⟩)
  | unknown u => (u.key.raw, u.value)

def bytes (e : Entry) : List UInt8 := entryBytes e.entry

def accounts? : Entry → Option (List Account)
  | accounts _ as _ => some as
  | _ => none

def ValuesSafe : Entry → Prop
  | accounts _ as _ => ∀ a ∈ as, a.ValuesSafe
  | unknown u => Safe u.value.heads
  | fingerprint _ _ _ => True

instance : (e : Entry) → Decidable e.ValuesSafe
  | fingerprint _ _ _ => isTrue trivial
  | accounts _ as _ => inferInstanceAs (Decidable (∀ a ∈ as, a.ValuesSafe))
  | unknown u => inferInstanceAs (Decidable (Safe u.value.heads))

def known : Entry → Option Entry
  | fingerprint key data hlen => some (fingerprint key data hlen)
  | accounts key as size =>
    some (accounts key (as.map Account.known) ⟨size.width, by simpa using size.fits⟩)
  | unknown _ => none

end Entry

structure Contents where
  seedFingerprint : Option String
  accounts : Option (List Account)

def Contents.apply (c : Contents) : Entry → Contents
  | .fingerprint _ data _ => { c with seedFingerprint := some (bytesToHex data.data) }
  | .accounts _ as _ => { c with accounts := some as }
  | .unknown _ => c

structure Message where
  entries : List Entry
  size : Sized entries.length

namespace Message

def encode (m : Message) : List UInt8 :=
  (mapRaw (m.entries.map Entry.entry) ⟨m.size.width, by simpa using m.size.fits⟩).bytes

def Valid (decodeText : List UInt8 → String) (m : Message) : Prop :=
  (∃ e ∈ m.entries, e.accounts?.isSome) ∧
    ∀ e ∈ m.entries, ∀ as ∈ e.accounts?, ∀ a ∈ as, a.Valid decodeText

def ValuesSafe (m : Message) : Prop := ∀ e ∈ m.entries, e.ValuesSafe

instance (m : Message) : Decidable m.ValuesSafe := by unfold ValuesSafe; infer_instance

def contents (m : Message) : Contents := m.entries.foldl Contents.apply ⟨none, none⟩

def result (decodeText : List UInt8 → String) (m : Message) : ZcashAccountsResult :=
  ⟨m.contents.seedFingerprint, (m.contents.accounts.getD []).map (Account.result decodeText)⟩

def known (m : Message) : Message where
  entries := m.entries.filterMap Entry.known
  size := ⟨m.size.width, Nat.lt_of_le_of_lt (List.length_filterMap_le _ _) m.size.fits⟩

end Message

/-! ## Reading -/

section Reading

variable {bytes rest : List UInt8} {offset : ℕ}

theorem readCborUint_of {n : ℕ} (s : Sized n) (hn : n ≤ maxSafeInteger)
    (hdrop : bytes.drop offset = s.raw.bytes ++ rest) :
    readCborUint bytes offset = .ok (n, offset + s.raw.bytes.length) := by
  have hhead : bytes.drop offset = (s.head 0).encode ++ rest := hdrop
  have hsafe : (s.head 0).arg ≤ maxSafeInteger := hn
  rw [readCborUint, readCborHead_of_head hhead, within_of hsafe]
  rfl

theorem arg_le_of_head {h : Head} (hbound : bytes.length ≤ maxSafeInteger) {body : List UInt8}
    (harg : h.arg ≤ body.length) (hdrop : bytes.drop offset = h.encode ++ (body ++ rest)) :
    h.arg ≤ maxSafeInteger := by
  have hlead : bytes.drop offset = (Lead.definite h).encode ++ (body ++ rest) := hdrop
  have hlength := length_of_lead hlead
  rw [List.length_append] at hlength
  omega

theorem readCborString_of (hbound : bytes.length ≤ maxSafeInteger) {major : Fin 8} (kind : String)
    {c : Chunk} (hdrop : bytes.drop offset = (stringRaw major c).bytes ++ rest) :
    readCborString major kind bytes offset =
      .ok (c.data, offset + (stringRaw major c).bytes.length) := by
  have hhead : bytes.drop offset = (c.head major).encode ++ (c.data ++ rest) := by
    rw [hdrop, stringRaw, Chunk.encode, List.append_assoc]
  have hlead : bytes.drop offset = (Lead.definite (c.head major)).encode ++ (c.data ++ rest) :=
    hhead
  have hoffset : offset + (c.head major).encode.length ≤ bytes.length :=
    Nat.le_of_add_right_le (length_of_lead hlead).le
  have hsafe := arg_le_of_head hbound (Nat.le_refl c.data.length) hhead
  have hshort : ¬ (c.data ++ rest).length < c.data.length := by
    rw [List.length_append]
    exact Nat.not_lt.mpr (Nat.le_add_right _ _)
  rw [readCborString, readCborHead_of_head hhead, within_of hsafe]
  show (if (major : ℕ) ≠ major then _ else if false = true then _ else
    Ur.takeBytes bytes _ (offset + (c.head major).encode.length) c.data.length) = _
  rw [if_neg (not_not.mpr rfl), if_neg Bool.false_ne_true,
    Ur.takeBytes_eq hoffset (drop_add_of_append hhead), if_neg hshort, List.take_left, stringRaw,
    Chunk.encode, List.length_append, ← Nat.add_assoc]

theorem readCborByteString_of (hbound : bytes.length ≤ maxSafeInteger) {c : Chunk}
    (hdrop : bytes.drop offset = (stringRaw 2 c).bytes ++ rest) :
    readCborByteString bytes offset = .ok (c.data, offset + (stringRaw 2 c).bytes.length) :=
  readCborString_of hbound "byte string" hdrop

theorem readCborTextString_of (decodeText : List UInt8 → String)
    (hbound : bytes.length ≤ maxSafeInteger) {c : Chunk}
    (hdrop : bytes.drop offset = (stringRaw 3 c).bytes ++ rest) :
    readCborTextString decodeText bytes offset =
      .ok (decodeText c.data, offset + (stringRaw 3 c).bytes.length) := by
  have hread : readCborString 3 "text string" bytes offset = _ :=
    readCborString_of hbound "text string" hdrop
  rw [readCborTextString, hread]
  rfl

/-- **A loop over encoded things**, one a round. -/
theorem forTimes_of {α σ τ : Type} {body : σ × ℕ → Except String (σ × ℕ)}
    {enc : α → List UInt8} {P : α → Prop} [DecidablePred P] {Rel : σ → τ → Prop}
    {apply : τ → α → τ} {xs : List α}
    (hbody : ∀ x ∈ xs, ∀ ⦃s : σ⦄ ⦃t : τ⦄ ⦃offset : ℕ⦄ ⦃rest : List UInt8⦄, Rel s t →
      bytes.drop offset = enc x ++ rest →
      ∃ s', Rel s' (apply t x) ∧ body (s, offset) = within (P x) (s', offset + (enc x).length))
    {s : σ} {t : τ} (hrel : Rel s t) (hdrop : bytes.drop offset = xs.flatMap enc ++ rest) :
    ∃ s', Rel s' (xs.foldl apply t) ∧ forTimes body xs.length (s, offset) =
      within (∀ x ∈ xs, P x) (s', offset + (xs.flatMap enc).length) := by
  induction xs generalizing s t offset with
  | nil => exact ⟨s, hrel, (within_of (by simp) _).symm⟩
  | cons x xs ih =>
    rw [List.flatMap_cons, List.append_assoc] at hdrop
    obtain ⟨s', hrel', hround⟩ := hbody x List.mem_cons_self hrel hdrop
    obtain ⟨u, hu, hloop⟩ := ih (fun x' hx' => hbody x' (List.mem_cons_of_mem x hx')) hrel'
      (drop_add_of_append hdrop)
    refine ⟨u, hu, ?_⟩
    rw [List.length_cons, forTimes, hround, within_bind hloop, List.flatMap_cons,
      List.length_append, ← Nat.add_assoc]
    exact within_congr List.forall_mem_cons.symm _

theorem forTimes_fold {α σ : Type} {body : σ × ℕ → Except String (σ × ℕ)}
    {enc : α → List UInt8} {P : α → Prop} [DecidablePred P] {apply : σ → α → σ} {xs : List α}
    (hbody : ∀ x ∈ xs, ∀ ⦃s : σ⦄ ⦃offset : ℕ⦄ ⦃rest : List UInt8⦄,
      bytes.drop offset = enc x ++ rest →
      body (s, offset) = within (P x) (apply s x, offset + (enc x).length))
    (s : σ) (hdrop : bytes.drop offset = xs.flatMap enc ++ rest) :
    forTimes body xs.length (s, offset) =
      within (∀ x ∈ xs, P x) (xs.foldl apply s, offset + (xs.flatMap enc).length) := by
  obtain ⟨s', rfl, hloop⟩ := forTimes_of
    (fun x hx s t offset rest (hst : s = t) hdrop =>
      ⟨apply s x, congrArg (apply · x) hst, hbody x hx hdrop⟩) (rfl : s = s) hdrop
  exact hloop

end Reading

/-! ## The items of a message -/

theorem Sized.item {n : ℕ} (s : Sized n) : Item s.raw := .number (s.head 0) (.inl rfl)

theorem item_mapRaw {entries : List (Raw × Raw)} (h : ∀ r ∈ alternate entries, Item r)
    (s : Sized entries.length) : Item (mapRaw entries s) :=
  .map (s.head 5) rfl entries rfl h

theorem Unknown.number_le {known : List ℕ} (u : Unknown known) : u.number ≤ maxSafeInteger :=
  u.bound.le.trans (by decide)

namespace AccountField

theorem item (f : AccountField) : Item f.entry.1 ∧ Item f.entry.2 := by
  cases f with
  | ufvk key text => exact ⟨key.item, .string 3 (.inr rfl) text⟩
  | index key number value hsafe => exact ⟨key.item, value.item⟩
  | label key text => exact ⟨key.item, .string 3 (.inr rfl) text⟩
  | unknown u => exact ⟨u.key.item, u.item⟩

theorem safe_iff (f : AccountField) (hlen : f.entry.2.bytes.length ≤ maxSafeInteger) :
    Safe f.entry.1.heads ∧ Safe f.entry.2.heads ↔ f.ValueSafe := by
  have hkey : ∀ {n : ℕ} (s : Sized n), n ≤ maxSafeInteger → Safe s.raw.heads := fun s hn => by
    simpa [Sized.raw] using hn
  have htext : ∀ (c : Chunk), (stringRaw 3 c).bytes.length ≤ maxSafeInteger →
      Safe (stringRaw 3 c).heads := fun c hc => by
    rw [stringRaw, Chunk.encode, List.length_append] at hc
    simpa [stringRaw] using Nat.le_of_add_left_le hc
  cases f with
  | ufvk key text => exact iff_of_true ⟨hkey key (by decide), htext text hlen⟩ trivial
  | index key number value hsafe =>
    exact iff_of_true ⟨hkey key (by decide), hkey value hsafe⟩ trivial
  | label key text => exact iff_of_true ⟨hkey key (by decide), htext text hlen⟩ trivial
  | unknown u => exact and_iff_right (hkey u.key u.number_le)

end AccountField

namespace Account

variable (a : Account)

theorem item : Item a.raw :=
  .tag (a.tag.head 6) rfl a.mapOf
    (item_mapRaw (forall_alternate.mpr (List.forall_mem_map.mpr fun f _ => f.item)) _)

theorem count_le : a.fields.length ≤ (a.fields.flatMap AccountField.bytes).length := by
  have hcount := length_le_entries (List.forall_mem_map.mpr fun f (_ : f ∈ a.fields) => f.item)
  rwa [List.length_map, List.flatMap_map] at hcount

def mapHead : Head := ⟨5, a.size.width, a.fields.length, a.size.fits⟩

theorem mapOf_bytes : a.mapOf.bytes = a.mapHead.encode ++ a.fields.flatMap AccountField.bytes := by
  simp only [mapOf, mapRaw, Sized.head, mapHead, allBytes_alternate, List.flatMap_map,
    List.length_map]
  rfl

theorem safe_iff (hlen : a.raw.bytes.length ≤ maxSafeInteger) :
    Safe a.raw.heads ↔ a.ValuesSafe := by
  have hmap : (allBytes (alternate (a.fields.map AccountField.entry))).length ≤
      maxSafeInteger := by
    simp only [raw, mapOf, mapRaw, List.length_append] at hlen
    omega
  have hcount : a.fields.length ≤ maxSafeInteger := by
    rw [allBytes_alternate, List.flatMap_map] at hmap
    exact a.count_le.trans hmap
  have hfields : Safe (allHeads (alternate (a.fields.map AccountField.entry))) ↔
      a.ValuesSafe := by
    rw [safe_allHeads, forall_alternate, List.forall_mem_map]
    refine forall₂_congr fun f hf => f.safe_iff ?_
    exact (length_le_of_entry (List.mem_map_of_mem hf)).2.trans hmap
  have htag : zcashUfvkTag ≤ maxSafeInteger := by decide
  simp [raw, mapOf, mapRaw, hfields, htag, hcount]

end Account

theorem Entry.item (e : Entry) : Item e.entry.1 ∧ Item e.entry.2 := by
  cases e with
  | fingerprint key data hlen => exact ⟨key.item, .string 2 (.inl rfl) data⟩
  | accounts key as size =>
    let s : Sized (as.map Account.raw).length := ⟨size.width, by simpa using size.fits⟩
    exact ⟨key.item, .array (s.head 4) rfl _ rfl (List.forall_mem_map.mpr fun a _ => a.item)⟩
  | unknown u => exact ⟨u.key.item, u.item⟩

/-! ## Reading a message -/

section Parsing

variable {decodeText : List UInt8 → String} {bytes rest : List UInt8} {offset : ℕ}

theorem parseAccountValue_other {key : ℕ} (h : key ∉ [1, 2, 3]) (vars : AccountVars) :
    parseAccountValue decodeText bytes vars key offset =
      skipCborItem bytes offset >>= fun next => .ok (vars, next) := by
  simp only [List.mem_cons, List.not_mem_nil, or_false, not_or] at h
  unfold parseAccountValue
  split
  · exact absurd rfl h.1
  · exact absurd rfl h.2.1
  · exact absurd rfl h.2.2
  · rfl

theorem parseAccountEntry_of_key {n : ℕ} (key : Sized n) (hn : n ≤ maxSafeInteger)
    (vars : AccountVars) (hdrop : bytes.drop offset = key.raw.bytes ++ rest) :
    parseAccountEntry decodeText bytes (vars, offset) =
      parseAccountValue decodeText bytes vars n (offset + key.raw.bytes.length) := by
  rw [parseAccountEntry, readCborUint_of key hn hdrop]
  rfl

theorem parseAccountEntry_of (decodeText : List UInt8 → String)
    (hbound : bytes.length ≤ maxSafeInteger) (f : AccountField) (vars : AccountVars)
    (hdrop : bytes.drop offset = f.bytes ++ rest) :
    parseAccountEntry decodeText bytes (vars, offset) =
      within f.ValueSafe (f.apply decodeText vars, offset + f.bytes.length) := by
  rw [AccountField.bytes, entryBytes, List.append_assoc] at hdrop
  rw [AccountField.bytes, entryBytes, List.length_append, ← Nat.add_assoc]
  cases f with
  | ufvk key text =>
    change bytes.drop offset = key.raw.bytes ++ ((stringRaw 3 text).bytes ++ rest) at hdrop
    rw [parseAccountEntry_of_key key (by decide) vars hdrop, parseAccountValue,
      readCborTextString_of decodeText hbound (drop_add_of_append hdrop)]
    rfl
  | index key number value hsafe =>
    change bytes.drop offset = key.raw.bytes ++ (value.raw.bytes ++ rest) at hdrop
    rw [parseAccountEntry_of_key key (by decide) vars hdrop, parseAccountValue,
      readCborUint_of value hsafe (drop_add_of_append hdrop)]
    rfl
  | label key text =>
    change bytes.drop offset = key.raw.bytes ++ ((stringRaw 3 text).bytes ++ rest) at hdrop
    rw [parseAccountEntry_of_key key (by decide) vars hdrop, parseAccountValue,
      readCborTextString_of decodeText hbound (drop_add_of_append hdrop)]
    rfl
  | unknown u =>
    change bytes.drop offset = u.key.raw.bytes ++ (u.value.bytes ++ rest) at hdrop
    rw [parseAccountEntry_of_key u.key u.number_le vars hdrop, parseAccountValue_other u.other,
      item_skips u.item (drop_add_of_append hdrop)]
    exact within_bind_ok rfl

theorem ufvk_foldl {fields : List AccountField}
    (htexts : ∀ f ∈ fields, ∀ text ∈ f.ufvk?, decodeText text.data ≠ "") {vars : AccountVars}
    (h : (∃ f ∈ fields, f.ufvk?.isSome) ∨ vars.ufvk.getD "" ≠ "") :
    (fields.foldl (AccountField.apply decodeText) vars).ufvk.getD "" ≠ "" := by
  induction fields generalizing vars with
  | nil => simpa using h
  | cons f fields ih =>
    rw [List.forall_mem_cons] at htexts
    refine ih htexts.2 ?_
    cases f with
    | ufvk key text => exact .inr (htexts.1 text rfl)
    | index | label | unknown =>
      refine h.imp_left ?_
      rintro ⟨f', hf', hsome⟩
      rcases List.mem_cons.mp hf' with rfl | hf'
      · cases hsome
      · exact ⟨f', hf', hsome⟩

theorem accountOf_vars {a : Account} (h : a.Valid decodeText) :
    accountOf (a.vars decodeText) = .ok (a.result decodeText) :=
  if_neg (ufvk_foldl h.2 (.inl h.1))

theorem parseAccountMap_of (hbound : bytes.length ≤ maxSafeInteger) {a : Account}
    (hvalid : a.Valid decodeText) (hdrop : bytes.drop offset = a.mapOf.bytes ++ rest) :
    parseAccountMap decodeText bytes offset =
      within a.ValuesSafe (a.result decodeText, offset + a.mapOf.bytes.length) := by
  rw [a.mapOf_bytes, List.append_assoc] at hdrop
  have hcount : a.mapHead.arg ≤ (a.fields.flatMap AccountField.bytes).length := a.count_le
  have hloop := forTimes_fold
    (fun f _ vars _ _ hdrop => parseAccountEntry_of decodeText hbound f vars hdrop)
    ⟨none, none, none⟩ (drop_add_of_append hdrop)
  rw [parseAccountMap, readCborHead_of_head hdrop, within_of (arg_le_of_head hbound hcount hdrop)]
  show (forTimes (parseAccountEntry decodeText bytes) a.fields.length _ >>= _) = _
  rw [hloop, a.mapOf_bytes, List.length_append, ← Nat.add_assoc]
  refine within_bind_ok ?_
  show (accountOf (a.vars decodeText) >>= _) = _
  rw [accountOf_vars hvalid]
  rfl

theorem parseAccount_of (hbound : bytes.length ≤ maxSafeInteger) {a : Account}
    (hvalid : a.Valid decodeText) (accounts : List ZcashAccount)
    (hdrop : bytes.drop offset = a.raw.bytes ++ rest) :
    parseAccount decodeText bytes (accounts, offset) =
      within a.ValuesSafe (accounts ++ [a.result decodeText], offset + a.raw.bytes.length) := by
  rw [Account.raw, List.append_assoc] at hdrop
  have htag : (a.tag.head 6).arg ≤ maxSafeInteger := by
    show zcashUfvkTag ≤ maxSafeInteger
    decide
  rw [parseAccount, readCborHead_of_head hdrop, within_of htag, Account.raw, List.length_append,
    ← Nat.add_assoc]
  show (parseAccountMap decodeText bytes (offset + (a.tag.head 6).encode.length) >>= _) = _
  rw [parseAccountMap_of hbound hvalid (drop_add_of_append hdrop)]
  exact within_bind_ok rfl

structure Scanned (bytes : List UInt8) (vars : ScanVars) (c : Contents) : Prop where
  fingerprint : vars.seedFingerprint = c.seedFingerprint
  accounts : Option.Rel (fun (array : ℕ × ℕ) as => array.2 = as.length ∧
    ∃ rest, bytes.drop array.1 = as.flatMap (fun a => a.raw.bytes) ++ rest)
    vars.accountsArray c.accounts

theorem allBytes_accounts (as : List Account) :
    allBytes (as.map Account.raw) = as.flatMap fun a => a.raw.bytes := by
  rw [allBytes, List.flatMap_map]

theorem length_le_accounts (as : List Account) :
    as.length ≤ (as.flatMap fun a => a.raw.bytes).length := by
  have hitems : ∀ r ∈ as.map Account.raw, Item r := List.forall_mem_map.mpr fun a _ => a.item
  have hcount := length_le_allBytes hitems
  rwa [List.length_map, allBytes_accounts] at hcount

theorem skipItems_accounts (hbound : bytes.length ≤ maxSafeInteger) {as : List Account}
    (hdrop : bytes.drop offset = as.flatMap (fun a => a.raw.bytes) ++ rest) :
    skipItems bytes as.length offset = within (∀ a ∈ as, a.ValuesSafe)
      (offset + (as.flatMap fun a => a.raw.bytes).length) := by
  have hlength : (as.flatMap fun a => a.raw.bytes).length ≤ maxSafeInteger := by
    have hdropped := congrArg List.length hdrop
    rw [List.length_drop, List.length_append] at hdropped
    omega
  have hskips : ∀ r ∈ as.map Account.raw, Skips bytes r :=
    List.forall_mem_map.mpr fun a _ => item_skips a.item
  rw [← allBytes_accounts] at hdrop hlength ⊢
  have hskip := skipItems_of hskips hdrop
  rw [List.length_map] at hskip
  rw [hskip]
  refine within_congr ?_ _
  rw [safe_allHeads, List.forall_mem_map]
  exact forall₂_congr fun a ha =>
    a.safe_iff ((length_le_of_mem (List.mem_map_of_mem ha)).trans hlength)

def Entry.arrayHead (as : List Account) (size : Sized as.length) : Head :=
  ⟨4, size.width, as.length, size.fits⟩

theorem Entry.accounts_bytes (key : Sized 2) (as : List Account) (size : Sized as.length) :
    (Entry.accounts key as size).entry.2.bytes =
      (Entry.arrayHead as size).encode ++ as.flatMap fun a => a.raw.bytes := by
  simp only [Entry.entry, arrayRaw, Sized.head, List.length_map, allBytes_accounts]
  rfl

theorem scanValue_other {key : ℕ} (h : key ∉ [1, 2]) (vars : ScanVars) :
    scanValue bytes vars key offset =
      skipCborItem bytes offset >>= fun next => .ok (vars, next) := by
  simp only [List.mem_cons, List.not_mem_nil, or_false, not_or] at h
  unfold scanValue
  split
  · exact absurd rfl h.1
  · exact absurd rfl h.2
  · rfl

theorem scanEntry_of_key {n : ℕ} (key : Sized n) (hn : n ≤ maxSafeInteger) (vars : ScanVars)
    (hdrop : bytes.drop offset = key.raw.bytes ++ rest) :
    scanEntry bytes (vars, offset) =
      scanValue bytes vars n (offset + key.raw.bytes.length) := by
  rw [scanEntry, readCborUint_of key hn hdrop]
  rfl

theorem scanEntry_of (hbound : bytes.length ≤ maxSafeInteger) (e : Entry) {vars : ScanVars}
    {c : Contents} (hvars : Scanned bytes vars c) (hdrop : bytes.drop offset = e.bytes ++ rest) :
    ∃ vars', Scanned bytes vars' (c.apply e) ∧ scanEntry bytes (vars, offset) =
      within e.ValuesSafe (vars', offset + e.bytes.length) := by
  rw [Entry.bytes, entryBytes, List.append_assoc] at hdrop
  rw [Entry.bytes, entryBytes, List.length_append, ← Nat.add_assoc]
  cases e with
  | fingerprint key data hlen =>
    change bytes.drop offset = key.raw.bytes ++ ((stringRaw 2 data).bytes ++ rest) at hdrop
    refine ⟨{ vars with seedFingerprint := some (bytesToHex data.data) },
      ⟨rfl, hvars.accounts⟩, ?_⟩
    rw [scanEntry_of_key key (by decide) vars hdrop, scanValue,
      readCborByteString_of hbound (drop_add_of_append hdrop)]
    exact if_neg (not_not.mpr hlen)
  | accounts key as size =>
    change bytes.drop offset = key.raw.bytes ++
      ((Entry.accounts key as size).entry.2.bytes ++ rest) at hdrop
    rw [Entry.accounts_bytes, List.append_assoc] at hdrop
    have harray := drop_add_of_append hdrop
    have hitems := drop_add_of_append harray
    refine ⟨{ vars with accountsArray := some (_, as.length) },
      ⟨hvars.fingerprint, .some ⟨rfl, rest, hitems⟩⟩, ?_⟩
    have hcount : (Entry.arrayHead as size).arg ≤ (as.flatMap fun a => a.raw.bytes).length :=
      length_le_accounts as
    rw [scanEntry_of_key key (by decide) vars hdrop, scanValue, readCborHead_of_head harray,
      within_of (arg_le_of_head hbound hcount harray), Entry.accounts_bytes, List.length_append,
      ← Nat.add_assoc]
    show (skipItems bytes as.length _ >>= _) = _
    rw [skipItems_accounts hbound hitems]
    exact within_bind_ok rfl
  | unknown u =>
    change bytes.drop offset = u.key.raw.bytes ++ (u.value.bytes ++ rest) at hdrop
    refine ⟨vars, hvars, ?_⟩
    rw [scanEntry_of_key u.key u.number_le vars hdrop, scanValue_other u.other,
      item_skips u.item (drop_add_of_append hdrop)]
    exact within_bind_ok rfl

theorem accounts_foldl (entries : List Entry) (c : Contents) :
    (∃ as, (entries.foldl Contents.apply c).accounts = some as ∧
      ∃ e ∈ entries, e.accounts? = some as) ∨
    (entries.foldl Contents.apply c).accounts = c.accounts ∧ ∀ e ∈ entries, e.accounts? = none := by
  induction entries generalizing c with
  | nil => exact .inr ⟨rfl, by simp⟩
  | cons e entries ih =>
    rcases ih (c.apply e) with ⟨as, has, e', he', hmem⟩ | ⟨hsame, hnone⟩
    · exact .inl ⟨as, has, e', List.mem_cons_of_mem e he', hmem⟩
    · cases e with
      | accounts key as size => exact .inl ⟨as, hsame, _, List.mem_cons_self, rfl⟩
      | fingerprint | unknown => exact .inr ⟨hsame, List.forall_mem_cons.mpr ⟨rfl, hnone⟩⟩

theorem Message.Valid.accounts {m : Message} (h : m.Valid decodeText) :
    ∃ as, m.contents.accounts = some as ∧ ∃ e ∈ m.entries, e.accounts? = some as := by
  rcases accounts_foldl m.entries ⟨none, none⟩ with has | ⟨-, hnone⟩
  · exact has
  · obtain ⟨e, he, hsome⟩ := h.1
    rw [hnone e he] at hsome
    cases hsome

theorem parseAccounts_of (hbound : bytes.length ≤ maxSafeInteger) {vars : ScanVars} {c : Contents}
    (hvars : Scanned bytes vars c) {as : List Account} (has : c.accounts = some as)
    (hvalid : ∀ a ∈ as, a.Valid decodeText) :
    parseAccounts decodeText bytes vars = within (∀ a ∈ as, a.ValuesSafe)
      ⟨c.seedFingerprint, as.map (Account.result decodeText)⟩ := by
  have haccounts := hvars.accounts
  rw [has] at haccounts
  obtain ⟨array, harray⟩ : ∃ array, vars.accountsArray = some array := by
    cases harray : vars.accountsArray with
    | none =>
      rw [harray] at haccounts
      cases haccounts
    | some array => exact ⟨array, rfl⟩
  rw [harray] at haccounts
  cases haccounts with
  | some harr =>
    obtain ⟨hlength, rest, hdrop⟩ := harr
    obtain ⟨offset, length⟩ := array
    obtain rfl : length = as.length := hlength
    have hloop := forTimes_fold
      (fun a ha accounts _ _ hdrop => parseAccount_of hbound (hvalid a ha) accounts hdrop) [] hdrop
    rw [← List.flatMap_eq_foldl, ← List.map_eq_flatMap] at hloop
    rw [parseAccounts, harray]
    show (forTimes (parseAccount decodeText bytes) as.length _ >>= _) = _
    rw [hloop, ← hvars.fingerprint]
    exact within_bind_ok rfl

def Message.mapHead (m : Message) : Head := ⟨5, m.size.width, m.entries.length, m.size.fits⟩

theorem Message.encode_eq (m : Message) :
    m.encode = m.mapHead.encode ++ m.entries.flatMap Entry.bytes := by
  simp only [encode, mapRaw, Sized.head, mapHead, allBytes_alternate, List.flatMap_map,
    List.length_map]
  rfl

/-- **A message is decoded, unless a number in an unknown value is too great.** -/
theorem decode_message {m : Message} (hvalid : m.Valid decodeText) {x : Uint8Array}
    (hx : x.bytes = m.encode) :
    decodeZcashAccountsUrCbor decodeText x = within m.ValuesSafe (m.result decodeText) := by
  obtain ⟨as, has, e, he, hmem⟩ := hvalid.accounts
  have hdrop : x.bytes.drop 0 = m.mapHead.encode ++ (m.entries.flatMap Entry.bytes ++ []) := by
    rw [List.drop_zero, hx, m.encode_eq, List.append_nil]
  have hcount : m.mapHead.arg ≤ (m.entries.flatMap Entry.bytes).length := by
    have hcount := length_le_entries (List.forall_mem_map.mpr fun e (_ : e ∈ m.entries) => e.item)
    rwa [List.length_map, List.flatMap_map] at hcount
  obtain ⟨vars, hvars, hloop⟩ := forTimes_of
    (fun e _ vars c _ _ hvars hdrop => scanEntry_of x.bound e hvars hdrop)
    (⟨rfl, .none⟩ : Scanned x.bytes ⟨none, none⟩ ⟨none, none⟩) (drop_add_of_append hdrop)
  have hparse := parseAccounts_of x.bound hvars has fun a ha => hvalid.2 e he as hmem a ha
  have hresult : m.result decodeText =
      ⟨m.contents.seedFingerprint, as.map (Account.result decodeText)⟩ := by
    rw [Message.result, has]
    rfl
  rw [decodeZcashAccountsUrCbor, readCborHead_of_head hdrop,
    within_of (arg_le_of_head x.bound hcount hdrop), hresult]
  show (forTimes (scanEntry x.bytes) m.entries.length _ >>= _) = _
  rw [hloop]
  refine (within_bind (by exact hparse)).trans
    (within_congr (and_iff_left_of_imp fun hsafe => ?_) _)
  -- the array that is parsed belongs to an entry that has been skipped over
  have hentry := hsafe e he
  cases e with
  | accounts key as' size =>
    obtain rfl : as' = as := Option.some.inj hmem
    exact hentry
  | fingerprint | unknown => cases hmem

end Parsing

/-! ## Without the unknown entries -/

section Known

variable (decodeText : List UInt8 → String)

theorem Account.known_vars (a : Account) : a.known.vars decodeText = a.vars decodeText := by
  have hfold : ∀ (fields : List AccountField) (vars : AccountVars),
      (fields.filter AccountField.isKnown).foldl (AccountField.apply decodeText) vars =
        fields.foldl (AccountField.apply decodeText) vars := by
    intro fields
    induction fields with
    | nil => exact fun vars => rfl
    | cons f fields ih => cases f <;> exact fun vars => ih _
  exact hfold a.fields _

theorem Account.known_result (a : Account) : a.known.result decodeText = a.result decodeText := by
  rw [Account.result, Account.result, a.known_vars]

theorem Account.known_valid {a : Account} (h : a.Valid decodeText) : a.known.Valid decodeText := by
  obtain ⟨⟨f, hf, hsome⟩, htexts⟩ := h
  refine ⟨⟨f, List.mem_filter.mpr ⟨hf, ?_⟩, hsome⟩, fun f hf => htexts f (List.mem_filter.mp hf).1⟩
  cases f with
  | unknown u => cases hsome
  | ufvk | index | label => rfl

theorem Account.known_valuesSafe (a : Account) : a.known.ValuesSafe := by
  intro f hf
  have hknown := (List.mem_filter.mp hf).2
  cases f with
  | unknown u => cases hknown
  | ufvk | index | label => trivial

def Contents.known (c : Contents) : Contents :=
  { c with accounts := c.accounts.map (List.map Account.known) }

theorem Message.known_contents (m : Message) : m.known.contents = m.contents.known := by
  have hfold : ∀ (entries : List Entry) (c : Contents),
      (entries.filterMap Entry.known).foldl Contents.apply c.known =
        (entries.foldl Contents.apply c).known := by
    intro entries
    induction entries with
    | nil => exact fun c => rfl
    | cons e entries ih =>
      intro c
      cases e with
      | fingerprint key data hlen => exact ih (c.apply (.fingerprint key data hlen))
      | accounts key as size => exact ih (c.apply (.accounts key as size))
      | unknown u => exact ih c
  exact hfold m.entries ⟨none, none⟩

theorem Message.known_result (m : Message) : m.known.result decodeText = m.result decodeText := by
  have hresult : Account.result decodeText ∘ Account.known = Account.result decodeText :=
    funext fun a => a.known_result decodeText
  rw [Message.result, Message.result, m.known_contents, Contents.known]
  cases m.contents.accounts with
  | none => rfl
  | some as =>
    show ZcashAccountsResult.mk _ ((as.map Account.known).map _) = _
    rw [List.map_map, hresult]
    rfl

theorem Message.known_valid {m : Message} (h : m.Valid decodeText) : m.known.Valid decodeText := by
  obtain ⟨⟨e, he, hsome⟩, haccounts⟩ := h
  constructor
  · cases e with
    | accounts key as size => exact ⟨_, List.mem_filterMap.mpr ⟨_, he, rfl⟩, rfl⟩
    | fingerprint | unknown => cases hsome
  · intro e he as has a ha
    obtain ⟨e₀, he₀, hknown⟩ := List.mem_filterMap.mp he
    cases e₀ with
    | accounts key as₀ size =>
      cases hknown
      cases has
      obtain ⟨a₀, ha₀, rfl⟩ := List.mem_map.mp ha
      exact a₀.known_valid decodeText (haccounts _ he₀ as₀ rfl a₀ ha₀)
    | fingerprint key data hlen =>
      cases hknown
      cases has
    | unknown u => cases hknown

theorem Message.known_valuesSafe (m : Message) : m.known.ValuesSafe := by
  intro e he
  obtain ⟨e₀, he₀, hknown⟩ := List.mem_filterMap.mp he
  cases e₀ with
  | accounts key as size =>
    cases hknown
    exact List.forall_mem_map.mpr fun a _ => a.known_valuesSafe
  | fingerprint key data hlen =>
    cases hknown
    trivial
  | unknown u => cases hknown

/-- **Unknown entries are ignored exactly when all numbers in them can be held.** -/
theorem unknown_entries_ignored_iff {m : Message} (hvalid : m.Valid decodeText) {x y : Uint8Array}
    (hx : x.bytes = m.encode) (hy : y.bytes = m.known.encode) :
    (∃ result, decodeZcashAccountsUrCbor decodeText x = .ok result ∧
      decodeZcashAccountsUrCbor decodeText y = .ok result) ↔ m.ValuesSafe := by
  have hknown := decode_message (m.known_valid decodeText hvalid) hy
  rw [decode_message hvalid hx, hknown, within_of m.known_valuesSafe, m.known_result]
  constructor
  · rintro ⟨result, hresult, -⟩
    exact (within_eq_ok_iff.mp hresult).1
  · intro hsafe
    exact ⟨m.result decodeText, within_of hsafe _, rfl⟩

end Known

def latin1 (bytes : List UInt8) : String := String.ofList (bytes.map fun b => Char.ofNat b.toNat)

def oneAccount (value : Raw) (item : Item value) : Message where
  entries :=
    [.accounts ⟨.inline, by decide⟩
      [⟨⟨.two, by decide⟩, [.ufvk ⟨.inline, by decide⟩ ⟨.inline, [0x75], by decide⟩],
        ⟨.inline, by decide⟩⟩] ⟨.inline, by decide⟩,
    .unknown ⟨3, ⟨.inline, by decide⟩, by decide, by decide, value, item⟩]
  size := ⟨.inline, show 2 < 24 by decide⟩

theorem oneAccount_valid (value : Raw) (item : Item value) :
    (oneAccount value item).Valid latin1 := by
  refine ⟨⟨_, List.mem_cons_self, rfl⟩, List.forall_mem_cons.mpr ⟨?_, List.forall_mem_cons.mpr
    ⟨nofun, nofun⟩⟩⟩
  intro as has a ha
  cases has
  obtain rfl := List.mem_singleton.mp ha
  refine ⟨⟨_, List.mem_cons_self, rfl⟩, List.forall_mem_cons.mpr ⟨?_, nofun⟩⟩
  intro text htext
  cases htext
  decide

def float64One : Head := ⟨7, .eight, 0x3ff0000000000000, by decide⟩

/-- **A floating-point number of 64 bits in an unknown entry is not skipped.** -/
theorem unknown_float_refused :
    ∃ (m : Message) (x y : Uint8Array), m.Valid latin1 ∧ x.bytes = m.encode ∧
      y.bytes = m.known.encode ∧
      decodeZcashAccountsUrCbor latin1 x = .error "CBOR length too large" ∧
      decodeZcashAccountsUrCbor latin1 y = .ok ⟨none, [⟨"u", none, none⟩]⟩ := by
  let item : Item ⟨[float64One.arg], float64One.encode⟩ := .simple float64One rfl nofun
  have hvalid := oneAccount_valid _ item
  refine ⟨oneAccount _ item, ⟨_, by decide⟩, ⟨_, by decide⟩, hvalid, rfl, rfl, ?_, ?_⟩
  · rw [decode_message hvalid rfl]
    exact if_neg (by decide)
  · rw [decode_message (Message.known_valid latin1 hvalid) rfl,
      within_of (Message.known_valuesSafe _), Message.known_result]
    rfl

def accountsEntry : Entry :=
  .accounts ⟨.inline, by decide⟩
    [⟨⟨.two, by decide⟩, [.ufvk ⟨.inline, by decide⟩ ⟨.inline, [0x75], by decide⟩],
      ⟨.inline, by decide⟩⟩] ⟨.inline, by decide⟩

def safeArray : Raw :=
  ⟨2 :: allHeads [⟨[maxSafeInteger], Head.encode ⟨0, .eight, maxSafeInteger, by decide⟩⟩,
      ⟨[0x3c00], Head.encode ⟨7, .two, 0x3c00, by decide⟩⟩],
    Head.encode ⟨4, .inline, 2, by decide⟩ ++
      allBytes [⟨[maxSafeInteger], Head.encode ⟨0, .eight, maxSafeInteger, by decide⟩⟩,
        ⟨[0x3c00], Head.encode ⟨7, .two, 0x3c00, by decide⟩⟩]⟩

theorem safeArray_item : Item safeArray :=
  .array ⟨4, .inline, 2, by decide⟩ rfl _ rfl (List.forall_mem_cons.mpr
    ⟨.number ⟨0, .eight, maxSafeInteger, by decide⟩ (.inl rfl),
      List.forall_mem_singleton.mpr (.simple ⟨7, .two, 0x3c00, by decide⟩ rfl nofun)⟩)

theorem unknown_entries_ignored_array :
    ∃ (x y : Uint8Array) (result : ZcashAccountsResult),
      x.bytes = (oneAccount safeArray safeArray_item).encode ∧
      y.bytes = (oneAccount safeArray safeArray_item).known.encode ∧
      decodeZcashAccountsUrCbor latin1 x = .ok result ∧
      decodeZcashAccountsUrCbor latin1 y = .ok result := by
  let x : Uint8Array := ⟨(oneAccount safeArray safeArray_item).encode, by decide⟩
  let y : Uint8Array := ⟨(oneAccount safeArray safeArray_item).known.encode, by decide⟩
  have hx : x.bytes = (oneAccount safeArray safeArray_item).encode := rfl
  have hy : y.bytes = (oneAccount safeArray safeArray_item).known.encode := rfl
  obtain ⟨result, hok, hknown⟩ :=
    (unknown_entries_ignored_iff latin1 (oneAccount_valid _ _) hx hy).mpr (by decide)
  exact ⟨x, y, result, hx, hy, hok, hknown⟩

end ZbagKeystone
