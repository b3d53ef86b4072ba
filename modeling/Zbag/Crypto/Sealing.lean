import Zbag.Lib.Aead
import Zbag.Lib.Encoding
import Zbag.Lib.Operation
import Zbag.Lib.Transition

/-!
# Encryption — the uses of the cipher

Three kinds of data are sealed with XChaCha20-Poly1305: the key of a wallet under its password, its
mnemonic under that key, and the transactions in its broadcast queue, also under that key. The
associated data says which kind it is and for which wallet. The cipher is an ideal one, whose log
the uses share.
-/

namespace ZbagCrypto

open Aead Encoding Operation Transition

abbrev Bytes := List UInt8

abbrev Key := Vector UInt8 32

abbrev Nonce := Vector UInt8 24

abbrev Uuid := Vector UInt8 16

abbrev TxId := Vector UInt8 32

inductive Network
  | mainnet
  | testnet
  deriving DecidableEq, Repr

/-! ## Associated data -/

def hyphenate (digits : List Char) : List Char :=
  digits.take 8 ++ '-' :: ((digits.drop 8).take 4 ++ '-' :: ((digits.drop 12).take 4 ++
    '-' :: ((digits.drop 16).take 4 ++ '-' :: digits.drop 20)))

def uuidText (w : Uuid) : String := .ofList (hyphenate (hex w.toList))

/-- Last byte first. -/
def txidText (txid : TxId) : String := .ofList (hex txid.toList.reverse)

def Network.debug : Network → String
  | .mainnet => "Mainnet"
  | .testnet => "Testnet"

structure WalletKdfParams where
  algorithm : String
  version : ℕ
  memoryMib : ℕ
  iterations : ℕ
  parallelism : ℕ
  saltB64 : String
  deriving DecidableEq, Repr

structure WalletAeadParams where
  scheme : String
  version : ℕ
  nonceB64 : String
  deriving DecidableEq, Repr

def forWallet (w : Uuid) (rest : String) : String := "wallet_id=" ++ (uuidText w ++ rest)

def aeadAad (w : Uuid) (network : Network) (aead : WalletAeadParams) : String :=
  forWallet w (";network=" ++ (network.debug ++
    (";aead_scheme=" ++ (aead.scheme ++ (";aead_version=" ++ toString aead.version)))))

def mnemonicAad (w : Uuid) (network : Network) : String :=
  forWallet w (";network=" ++ (network.debug ++
    ";purpose=mnemonic;scheme=xchacha20poly1305;version=1"))

def queuedAad (w : Uuid) (txid : String) : String :=
  forWallet w (";txid=" ++ (txid ++ ";aead_scheme=xchacha20poly1305;v=1"))

theorem filter_hyphenate {digits : List Char} (h : '-' ∉ digits) :
    (hyphenate digits).filter (· ≠ '-') = digits := by
  have hkeep {l : List Char} (hl : ∀ c ∈ l, c ∈ digits) : l.filter (· ≠ '-') = l := by
    refine List.filter_eq_self.mpr fun c hc => ?_
    have hne : c ≠ '-' := fun e => h (e ▸ hl c hc)
    simpa using hne
  have hdrop (n k : ℕ) : (digits.drop n).take k ++ digits.drop (n + k) = digits.drop n := by
    rw [← List.drop_drop, List.take_append_drop]
  unfold hyphenate
  simp only [List.filter_append, List.filter_cons, ne_eq, not_true, decide_false,
    Bool.false_eq_true, if_false]
  rw [hkeep fun c hc => List.mem_of_mem_take hc,
    hkeep fun c hc => List.mem_of_mem_drop (List.mem_of_mem_take hc),
    hkeep fun c hc => List.mem_of_mem_drop (List.mem_of_mem_take hc),
    hkeep fun c hc => List.mem_of_mem_drop (List.mem_of_mem_take hc),
    hkeep fun c hc => List.mem_of_mem_drop hc, hdrop 16 4, hdrop 12 4, hdrop 8 4,
    List.take_append_drop]

theorem length_uuidText (w : Uuid) : (uuidText w).toList.length = 36 := by
  simp [uuidText, hyphenate]

theorem uuidText_injective : Function.Injective uuidText := by
  intro w w' h
  have hyphen (w : Uuid) : '-' ∉ hex w.toList := fun h => absurd (mem_hex h) (by decide)
  have hdigits := congrArg (fun s => s.toList.filter (· ≠ '-')) h
  simp only [uuidText, String.toList_ofList, filter_hyphenate (hyphen _)] at hdigits
  exact Vector.toList_inj.mp (hex_injective hdigits)

theorem txidText_injective : Function.Injective txidText := by
  intro txid txid' h
  have hdigits := congrArg String.toList h
  simp only [txidText, String.toList_ofList] at hdigits
  exact Vector.toList_inj.mp (List.reverse_injective (hex_injective hdigits))

variable {rest rest' : String} {bytes : Bytes} {nonce : Nonce}

theorem forWallet_inj {w w' : Uuid} :
    forWallet w rest = forWallet w' rest' ↔ w = w' ∧ rest = rest' := by
  constructor
  · intro h
    have htext : uuidText w ++ rest = uuidText w' ++ rest' := by
      simpa [forWallet, ← String.toList_inj] using h
    have hlists := congrArg String.toList htext
    rw [String.toList_append, String.toList_append] at hlists
    obtain ⟨hw, hrest⟩ := List.append_inj hlists (by rw [length_uuidText, length_uuidText])
    exact ⟨uuidText_injective (String.toList_inj.mp hw), String.toList_inj.mp hrest⟩
  · rintro ⟨rfl, rfl⟩
    rfl

theorem Network.length_debug (network : Network) : network.debug.toList.length = 7 := by
  cases network <;> rfl

theorem Network.debug_injective : Function.Injective Network.debug := by
  intro network network' h
  cases network <;> cases network' <;> first | rfl | exact absurd h (by decide)

theorem network_inj {network network' : Network}
    (h : network.debug ++ rest = network'.debug ++ rest') : network = network' ∧ rest = rest' := by
  have hlists := congrArg String.toList h
  rw [String.toList_append, String.toList_append] at hlists
  obtain ⟨hnetwork, hrest⟩ := List.append_inj hlists (by rw [Network.length_debug,
    Network.length_debug])
  exact ⟨Network.debug_injective (String.toList_inj.mp hnetwork), String.toList_inj.mp hrest⟩

theorem append_left_inj {literal : String} (h : literal ++ rest = literal ++ rest') :
    rest = rest' := by
  simpa [← String.toList_inj] using h

/-! ## Bytes of a fixed length -/

def fixed (n : ℕ) (bytes : Bytes) : Option (Vector UInt8 n) :=
  if h : bytes.length = n then some ⟨bytes.toArray, h⟩ else none

theorem fixed_eq_some_iff {n : ℕ} {v : Vector UInt8 n} :
    fixed n bytes = some v ↔ v.toList = bytes := by
  unfold fixed
  split_ifs with h
  · rw [Option.some.injEq, ← Vector.toList_inj, eq_comm]
    rfl
  · constructor
    · nofun
    · rintro rfl
      exact absurd Vector.length_toList h

def nonceOf (bytes : Bytes) : Nonce := Vector.ofFn fun i => bytes.getD i 0

theorem nonceOf_append (nonce : Nonce) (rest : Bytes) : nonceOf (nonce.toList ++ rest) = nonce := by
  refine Vector.ext fun i hi => ?_
  have hlt : i < nonce.toList.length := by rwa [Vector.length_toList]
  rw [nonceOf, Vector.getElem_ofFn, List.getD_eq_getElem?_getD, List.getElem?_append_left hlt,
    List.getElem?_eq_getElem hlt, Option.getD_some, Vector.getElem_toList]

theorem nonceOf_append_drop (h : 24 ≤ bytes.length) :
    (nonceOf bytes).toList ++ bytes.drop 24 = bytes := by
  have htake : (nonceOf bytes).toList = bytes.take 24 := by
    refine List.ext_getElem ?_ fun i h₁ h₂ => ?_
    · rw [Vector.length_toList, List.length_take]
      omega
    have hi : i < bytes.length := by
      simp only [Vector.length_toList] at h₁
      omega
    simp [nonceOf, List.getD_eq_getElem?_getD, hi]
  rw [htake, List.take_append_drop]

/-! ## The key of a wallet -/

structure KdfInput where
  password : String
  salt : Bytes
  memoryKib : ℕ
  iterations : ℕ
  parallelism : ℕ
  deriving DecidableEq, Repr

/-- The functions of the libraries, with the texts of their errors. -/
structure Primitives where
  /-- unpadded, at most 64 characters -/
  decodeSalt : String → Except String Bytes
  base64Error : String → String
  /-- KiB, iterations, lanes -/
  params : ℕ → ℕ → ℕ → Except String Unit
  argon2 : KdfInput → Except String Key

def supportedKdfAlgorithms : List String := ["argon2id"]

def supportedKdfVersions : List ℕ := [1]

def supportedAeadSchemes : List String := ["xchacha20poly1305"]

def supportedAeadVersions : List ℕ := [1]

def outOfBounds (name : String) (n least most : ℕ) : String :=
  "KDF " ++ name ++ " out of bounds: " ++ toString n ++ " (valid: " ++ toString least ++ "-" ++
    toString most ++ ")"

variable (p : Primitives)

def ensure (condition : Prop) [Decidable condition] (message : String) : Except String Unit :=
  if condition then .ok () else .error message

def validateAndDecodeKdfSalt (kdf : WalletKdfParams) : Except String Bytes := do
  ensure (kdf.algorithm ∈ supportedKdfAlgorithms)
    ("unsupported KDF algorithm: " ++ kdf.algorithm)
  ensure (kdf.version ∈ supportedKdfVersions) ("unsupported KDF version: " ++ toString kdf.version)
  ensure (1 ≤ kdf.memoryMib ∧ kdf.memoryMib ≤ 256) (outOfBounds "memory_mib" kdf.memoryMib 1 256)
  ensure (1 ≤ kdf.iterations ∧ kdf.iterations ≤ 100)
    (outOfBounds "iterations" kdf.iterations 1 100)
  ensure (1 ≤ kdf.parallelism ∧ kdf.parallelism ≤ 16)
    (outOfBounds "parallelism" kdf.parallelism 1 16)
  let salt ← (p.decodeSalt kdf.saltB64).mapError ("invalid KDF salt: " ++ ·)
  ensure (8 ≤ salt.length)
    ("invalid KDF salt length: " ++ toString salt.length ++ " (min: 8)")
  return salt

/-- It has to fill the buffer. -/
def decodeExactly (what : String) (size : ℕ) (text : String) : Except String Bytes :=
  match decode text.toList with
  | none => .error ("invalid " ++ what ++ " base64: " ++ p.base64Error text)
  | some bytes =>
    if size < bytes.length then .error ("invalid " ++ what ++ " length: > " ++ toString size)
    else if bytes.length ≠ size then
      .error ("invalid " ++ what ++ " length: " ++ toString bytes.length)
    else .ok bytes

def validateAndDecodeAeadNonce (aead : WalletAeadParams) : Except String Nonce := do
  ensure (aead.scheme ∈ supportedAeadSchemes) ("unsupported AEAD scheme: " ++ aead.scheme)
  ensure (aead.version ∈ supportedAeadVersions)
    ("unsupported AEAD version: " ++ toString aead.version)
  let bytes ← decodeExactly p "AEAD nonce" 24 aead.nonceB64
  return nonceOf bytes

def validateKdfParams (kdf : WalletKdfParams) : Except String Unit :=
  (validateAndDecodeKdfSalt p kdf).map fun _ => ()

def validateAeadParams (aead : WalletAeadParams) : Except String Unit :=
  (validateAndDecodeAeadNonce p aead).map fun _ => ()

def deriveKek (password : String) (kdf : WalletKdfParams) (salt : Bytes) : Except String Key := do
  let memoryKib := kdf.memoryMib * 1024
  ensure (memoryKib < 4294967296) "KDF memory overflow"
  (p.params memoryKib kdf.iterations kdf.parallelism).mapError ("invalid KDF params: " ++ ·)
  (p.argon2 ⟨password, salt, memoryKib, kdf.iterations, kdf.parallelism⟩).mapError
    ("failed to derive KEK: " ++ ·)

abbrev Entry := Sealing Key Nonce String Bytes Bytes

/-- `answer`: the ciphertext, none if it fails. -/
def encrypt (failed : String) (key : Key) (nonce : Nonce) (aad : String) (message : Bytes)
    (answer : Option Bytes) : Except String Entry :=
  match answer with
  | none => .error (failed ++ ": aead::Error")
  | some ciphertext => .ok ⟨key, nonce, aad, message, ciphertext⟩

def decryptWith (failed : String) (log : List Entry) (key : Key) (nonce : Nonce) (aad : String)
    (ciphertext : Bytes) : Except String Bytes :=
  match decrypt log key nonce aad ciphertext with
  | none => .error (failed ++ ": aead::Error")
  | some message => .ok message

def wrapDek (w : Uuid) (network : Network) (password : String) (kdf : WalletKdfParams)
    (aead : WalletAeadParams) (dek : Key) (answer : Option Bytes) :
    Except String (Entry × String) := do
  let salt ← validateAndDecodeKdfSalt p kdf
  let nonce ← validateAndDecodeAeadNonce p aead
  let kek ← deriveKek p password kdf salt
  let entry ← encrypt "failed to wrap DEK" kek nonce (aeadAad w network aead) dek.toList answer
  return (entry, .ofList (encode entry.ciphertext))

def unwrapDek (log : List Entry) (w : Uuid) (network : Network) (password : String)
    (kdf : WalletKdfParams) (aead : WalletAeadParams) (wrappedDekB64 : String) :
    Except String Key := do
  let salt ← validateAndDecodeKdfSalt p kdf
  let nonce ← validateAndDecodeAeadNonce p aead
  let kek ← deriveKek p password kdf salt
  let ciphertext ← decodeExactly p "wrapped DEK" 48 wrappedDekB64
  let plaintext ← decryptWith "failed to unwrap DEK" log kek nonce (aeadAad w network aead)
    ciphertext
  match fixed 32 plaintext with
  | none => throw ("invalid DEK length: " ++ toString plaintext.length)
  | some dek => return dek

/-! ## The mnemonic -/

/-- version, nonce, ciphertext -/
def encryptMnemonic (w : Uuid) (network : Network) (dek : Key) (plaintext : Bytes) (nonce : Nonce)
    (answer : Option Bytes) : Except String (Entry × Bytes) := do
  let entry ← encrypt "failed to encrypt mnemonic" dek nonce (mnemonicAad w network) plaintext
    answer
  return (entry, 1 :: (nonce.toList ++ entry.ciphertext))

def decryptMnemonicBytes (log : List Entry) (w : Uuid) (network : Network) (dek : Key)
    (bytes : Bytes) : Except String Bytes :=
  if bytes.length < 1 + 24 + 16 then .error "encrypted mnemonic is too short"
  else
    let version := bytes.headD 0
    if version ≠ 1 then
      .error ("unsupported encrypted mnemonic version: " ++ toString version.toNat)
    else
      decryptWith "failed to decrypt mnemonic" log dek (nonceOf (bytes.drop 1))
        (mnemonicAad w network) (bytes.drop 25)

/-! ## Queued transactions -/

/-- nonce, ciphertext -/
def sealQueuedTx (w : Uuid) (dek : Key) (txid : String) (txBytes : Bytes) (nonce : Nonce)
    (answer : Option Bytes) : Except String (Entry × Bytes) := do
  let entry ← encrypt "failed to encrypt queued tx" dek nonce (queuedAad w txid) txBytes answer
  return (entry, nonce.toList ++ entry.ciphertext)

/-- The transaction id comes from the name of the file. -/
def openQueuedTx (log : List Entry) (w : Uuid) (dek : Key) (txid : String) (bytes : Bytes) :
    Except String Bytes :=
  if bytes.length < 24 then .error "queued tx blob too short"
  else
    decryptWith "failed to decrypt queued tx" log dek (nonceOf bytes) (queuedAad w txid)
      (bytes.drop 24)

/-! ## What associated data was made for -/

section Aad

variable {w w' : Uuid} {network network' : Network} {aead aead' : WalletAeadParams}
  {txid txid' : String}

theorem aeadAad_eq (h : aeadAad w network aead = aeadAad w' network' aead') :
    w = w' ∧ network = network' := by
  obtain ⟨hw, hrest⟩ := forWallet_inj.mp h
  exact ⟨hw, (network_inj (append_left_inj hrest)).1⟩

theorem mnemonicAad_eq (h : mnemonicAad w network = mnemonicAad w' network') :
    w = w' ∧ network = network' := by
  obtain ⟨hw, hrest⟩ := forWallet_inj.mp h
  exact ⟨hw, (network_inj (append_left_inj hrest)).1⟩

theorem queuedAad_eq (h : queuedAad w txid = queuedAad w' txid') : w = w' ∧ txid = txid' := by
  obtain ⟨hw, hrest⟩ := forWallet_inj.mp h
  have hlists := congrArg String.toList (append_left_inj hrest)
  rw [String.toList_append, String.toList_append] at hlists
  exact ⟨hw, String.toList_inj.mp (List.append_cancel_right hlists)⟩

theorem aeadAad_ne_mnemonicAad : aeadAad w network aead ≠ mnemonicAad w' network' := by
  intro h
  have hrest := (network_inj (append_left_inj (forWallet_inj.mp h).2)).2
  simp [← String.toList_inj] at hrest

theorem aeadAad_ne_queuedAad : aeadAad w network aead ≠ queuedAad w' txid := by
  intro h
  have hrest := (forWallet_inj.mp h).2
  simp [← String.toList_inj] at hrest

theorem mnemonicAad_ne_queuedAad : mnemonicAad w network ≠ queuedAad w' txid := by
  intro h
  have hrest := (forWallet_inj.mp h).2
  simp [← String.toList_inj] at hrest

end Aad

/-! ## What the functions have checked -/

variable {p}

theorem of_ensure {condition : Prop} [Decidable condition] {message : String} {u : Unit}
    (h : ensure condition message = .ok u) : condition := by
  unfold ensure at h
  split_ifs at h with hcondition
  exact hcondition

theorem decodeSalt_of_validate {kdf : WalletKdfParams} {salt : Bytes}
    (h : validateAndDecodeKdfSalt p kdf = .ok salt) : p.decodeSalt kdf.saltB64 = .ok salt := by
  obtain ⟨_, -, h⟩ := bind_eq_ok h
  obtain ⟨_, -, h⟩ := bind_eq_ok h
  obtain ⟨_, -, h⟩ := bind_eq_ok h
  obtain ⟨_, -, h⟩ := bind_eq_ok h
  obtain ⟨_, -, h⟩ := bind_eq_ok h
  obtain ⟨salt', hsalt, h⟩ := bind_eq_ok h
  obtain ⟨_, -, h⟩ := bind_eq_ok h
  obtain rfl : salt' = salt := Except.ok.inj h
  exact mapError_eq_ok hsalt

theorem decodeExactly_eq_ok {what : String} {size : ℕ} {text : String} :
    decodeExactly p what size text = .ok bytes ↔
      decode text.toList = some bytes ∧ bytes.length = size := by
  unfold decodeExactly
  cases decode text.toList with
  | none => simp
  | some bytes' =>
    dsimp only
    split_ifs with hlong hlength
    · simp only [Option.some.injEq, false_iff, not_and]
      rintro rfl
      omega
    · simp only [Option.some.injEq, false_iff, not_and]
      rintro rfl
      exact hlength
    · simp only [Except.ok.injEq, Option.some.injEq]
      refine ⟨?_, And.left⟩
      rintro rfl
      exact ⟨rfl, not_not.mp hlength⟩

theorem nonce_of_validate {aead : WalletAeadParams}
    (h : validateAndDecodeAeadNonce p aead = .ok nonce) :
    aead.scheme = "xchacha20poly1305" ∧ aead.version = 1 ∧
      decode aead.nonceB64.toList = some nonce.toList := by
  obtain ⟨_, hscheme, h⟩ := bind_eq_ok h
  obtain ⟨_, hversion, h⟩ := bind_eq_ok h
  obtain ⟨bytes, hbytes, hnonce⟩ := bind_eq_ok h
  obtain ⟨hdecode, hlength⟩ := decodeExactly_eq_ok.mp hbytes
  obtain rfl : nonceOf bytes = nonce := Except.ok.inj hnonce
  refine ⟨by simpa [supportedAeadSchemes] using of_ensure hscheme,
    by simpa [supportedAeadVersions] using of_ensure hversion, ?_⟩
  have hall := nonceOf_append_drop (show 24 ≤ bytes.length by omega)
  rw [List.drop_of_length_le (by omega), List.append_nil] at hall
  rw [hdecode, hall]

theorem argon2_of_deriveKek {password : String} {kdf : WalletKdfParams} {salt : Bytes} {kek : Key}
    (h : deriveKek p password kdf salt = .ok kek) :
    p.argon2 ⟨password, salt, kdf.memoryMib * 1024, kdf.iterations, kdf.parallelism⟩ = .ok kek := by
  obtain ⟨_, -, h⟩ := bind_eq_ok h
  obtain ⟨_, -, h⟩ := bind_eq_ok h
  exact mapError_eq_ok h

theorem encrypt_eq_ok {failed : String} {key : Key} {aad : String} {message : Bytes}
    {answer : Option Bytes} {entry : Entry}
    (h : encrypt failed key nonce aad message answer = .ok entry) :
    entry = ⟨key, nonce, aad, message, entry.ciphertext⟩ := by
  cases answer with
  | none => cases h
  | some ciphertext =>
    cases h
    rfl

theorem decryptWith_eq_ok {failed : String} {log : List Entry} {key : Key} {aad : String}
    {ciphertext message : Bytes} :
    decryptWith failed log key nonce aad ciphertext = .ok message ↔
      decrypt log key nonce aad ciphertext = some message := by
  unfold decryptWith
  cases decrypt log key nonce aad ciphertext with
  | none | some message' => simp

/-! ## Runs -/

inductive Use
  | wrapDek (w : Uuid) (network : Network) (password : String) (kdf : WalletKdfParams)
      (aead : WalletAeadParams) (dek : Key)
  | encryptMnemonic (w : Uuid) (network : Network) (dek : Key) (plaintext : Bytes) (nonce : Nonce)
  | sealQueuedTx (w : Uuid) (dek : Key) (txid : TxId) (txBytes : Bytes) (nonce : Nonce)
  deriving DecidableEq, Repr

inductive Event
  | wrapped (w : Uuid) (network : Network) (password : String) (kdf : WalletKdfParams)
      (aead : WalletAeadParams) (dek : Key) (text : String)
  | mnemonic (w : Uuid) (network : Network) (dek : Key) (plaintext bytes : Bytes)
  | queued (w : Uuid) (dek : Key) (txid : TxId) (txBytes blob : Bytes)
  deriving DecidableEq, Repr

variable (p) in
def Use.run (answer : Option Bytes) : Use → Except String (Entry × Event)
  | .wrapDek w network password kdf aead dek =>
    (ZbagCrypto.wrapDek p w network password kdf aead dek answer).map
      (Prod.map id (.wrapped w network password kdf aead dek))
  | .encryptMnemonic w network dek plaintext nonce =>
    (ZbagCrypto.encryptMnemonic w network dek plaintext nonce answer).map
      (Prod.map id (.mnemonic w network dek plaintext))
  | .sealQueuedTx w dek txid txBytes nonce =>
    (ZbagCrypto.sealQueuedTx w dek (txidText txid) txBytes nonce answer).map
      (Prod.map id (.queued w dek txid txBytes))

/-- newest first -/
structure Vault where
  uses : List (Entry × Event)

def Vault.log (s : Vault) : List Entry := s.uses.map Prod.fst

def Vault.events (s : Vault) : List Event := s.uses.map Prod.snd

variable (p) in
def Vault.step (s : Vault) (a : Use × Option Bytes) : Option Vault :=
  match a.1.run p a.2 with
  | .ok use => some ⟨use :: s.uses⟩
  | .error _ => some s

/-- A failed call leaves no trace. -/
theorem Vault.step_cases {s t : Vault} {a : Use × Option Bytes} (h : s.step p a = some t) :
    t = s ∨ ∃ use, a.1.run p a.2 = .ok use ∧ t = ⟨use :: s.uses⟩ := by
  unfold Vault.step at h
  split at h
  · exact .inr ⟨_, ‹_›, (Option.some.inj h).symm⟩
  · exact .inl (Option.some.inj h).symm

theorem Vault.events_subset {s t : Vault} {a : Use × Option Bytes} (h : s.step p a = some t) :
    s.events ⊆ t.events := by
  rcases Vault.step_cases h with rfl | ⟨use, -, rfl⟩
  · exact List.Subset.refl _
  · exact List.subset_cons_self ..

variable (p) in
/-- **Runs of calls that use the cipher.** -/
def vault : System Vault (Use × Option Bytes) where
  init s := s = ⟨[]⟩
  step := Vault.step p

variable (p) in
/-- Ciphertexts are new, and longer than the message by a tag. -/
def Ideal (s : Vault) (a : Use × Option Bytes) : Prop :=
  ∀ use ∈ (a.1.run p a.2).toOption,
    Fresh s.log use.1 ∧ use.1.ciphertext.length = use.1.message.length + 16

instance (s : Vault) (a : Use × Option Bytes) : Decidable (Ideal p s a) :=
  inferInstanceAs (Decidable (∀ use ∈ _, _))

variable (p) in
def Event.Made (entry : Entry) : Event → Prop
  | .wrapped w network password kdf aead dek text => ∃ salt,
      validateAndDecodeKdfSalt p kdf = .ok salt ∧
      validateAndDecodeAeadNonce p aead = .ok entry.nonce ∧
      deriveKek p password kdf salt = .ok entry.key ∧ entry.aad = aeadAad w network aead ∧
      entry.message = dek.toList ∧ text = .ofList (encode entry.ciphertext)
  | .mnemonic w network dek plaintext bytes =>
      entry.key = dek ∧ entry.aad = mnemonicAad w network ∧ entry.message = plaintext ∧
      bytes = 1 :: (entry.nonce.toList ++ entry.ciphertext)
  | .queued w dek txid txBytes blob =>
      entry.key = dek ∧ entry.aad = queuedAad w (txidText txid) ∧ entry.message = txBytes ∧
      blob = entry.nonce.toList ++ entry.ciphertext

theorem made_of_run {u : Use} {answer : Option Bytes} {use : Entry × Event}
    (h : u.run p answer = .ok use) : use.2.Made p use.1 := by
  cases u with
  | wrapDek w network password kdf aead dek =>
    obtain ⟨output, hrun, rfl⟩ := map_eq_ok h
    obtain ⟨salt, hsalt, hrun⟩ := bind_eq_ok hrun
    obtain ⟨nonce, hnonce, hrun⟩ := bind_eq_ok hrun
    obtain ⟨kek, hkek, hrun⟩ := bind_eq_ok hrun
    obtain ⟨entry, hentry, houtput⟩ := bind_eq_ok hrun
    obtain rfl : (entry, _) = output := Except.ok.inj houtput
    rw [encrypt_eq_ok hentry]
    exact ⟨salt, hsalt, hnonce, hkek, rfl, rfl, rfl⟩
  | encryptMnemonic w network dek plaintext nonce | sealQueuedTx w dek txid txBytes nonce =>
    obtain ⟨output, hrun, rfl⟩ := map_eq_ok h
    obtain ⟨entry, hentry, houtput⟩ := bind_eq_ok hrun
    obtain rfl : (entry, _) = output := Except.ok.inj houtput
    rw [encrypt_eq_ok hentry]
    exact ⟨rfl, rfl, rfl, rfl⟩

/-- Every ciphertext was returned once. -/
structure Vault.Ok (p : Primitives) (s : Vault) : Prop where
  made : ∀ use ∈ s.uses, use.2.Made p use.1
  tagged : ∀ use ∈ s.uses, use.1.ciphertext.length = use.1.message.length + 16
  distinct : Distinct s.log

namespace Vault.Ok

variable {s t : Vault}

theorem nil : Vault.Ok p ⟨[]⟩ := ⟨nofun, nofun, distinct_nil⟩

theorem step (hs : s.Ok p) {a : Use × Option Bytes} (hideal : Ideal p s a)
    (h : s.step p a = some t) : t.Ok p := by
  rcases Vault.step_cases h with rfl | ⟨use, hrun, rfl⟩
  · exact hs
  · obtain ⟨hfresh, htag⟩ := hideal use (congrArg Except.toOption hrun)
    exact ⟨List.forall_mem_cons.mpr ⟨made_of_run hrun, hs.made⟩,
      List.forall_mem_cons.mpr ⟨htag, hs.tagged⟩, hs.distinct.cons hfresh⟩

theorem of_reach (h : Reach (vault p) (Ideal p) s) : s.Ok p :=
  h.invariant (I := Vault.Ok p) (by rintro s rfl; exact nil)
    fun _ _ _ hs hideal hstep => hs.step hideal hstep

theorem exists_event (hs : s.Ok p) {entry : Entry} (h : entry ∈ s.log) :
    ∃ event ∈ s.events, event.Made p entry ∧
      entry.ciphertext.length = entry.message.length + 16 := by
  obtain ⟨use, huse, rfl⟩ := List.mem_map.mp h
  exact ⟨use.2, List.mem_map_of_mem huse, hs.made use huse, hs.tagged use huse⟩

theorem exists_entry (hs : s.Ok p) {event : Event} (h : event ∈ s.events) :
    ∃ entry ∈ s.log, event.Made p entry ∧
      entry.ciphertext.length = entry.message.length + 16 := by
  obtain ⟨use, huse, rfl⟩ := List.mem_map.mp h
  exact ⟨use.1, List.mem_map_of_mem huse, hs.made use huse, hs.tagged use huse⟩

end Vault.Ok

end ZbagCrypto
