import Zbag.Crypto.Sealing

/-!
# Encryption — what opens

The key of a wallet opens with the settings that it was wrapped with, and its mnemonic with the
wallet, the network and the key that it was encrypted for; nothing else opens. The two formats are
kept apart by their associated data, also if they use the same key.
-/

namespace ZbagCrypto

open Aead Encoding Operation Transition

variable {p : Primitives} {s : Vault} {w : Uuid} {network : Network} {dek : Key}

/-! ## The mnemonic -/

/-- **A mnemonic opens exactly as it was encrypted.** -/
theorem decryptMnemonicBytes_eq_ok_iff (hs : s.Ok p) {bytes plaintext : Bytes} :
    decryptMnemonicBytes s.log w network dek bytes = .ok plaintext ↔
      .mnemonic w network dek plaintext bytes ∈ s.events := by
  constructor
  · intro h
    unfold decryptMnemonicBytes at h
    dsimp only at h
    split_ifs at h with hlength hversion
    obtain ⟨version, rest, rfl⟩ := List.exists_cons_of_length_pos (show 0 < bytes.length by omega)
    obtain rfl : version = 1 := not_not.mp hversion
    rw [decryptWith_eq_ok, decrypt_eq_some_iff hs.distinct] at h
    obtain ⟨event, hevent, hmade, -⟩ := hs.exists_event h
    cases event with
    | wrapped => exact absurd hmade.choose_spec.2.2.2.1 aeadAad_ne_mnemonicAad.symm
    | mnemonic w' network' dek' plaintext' bytes' =>
      obtain ⟨rfl, haad, rfl, hbytes⟩ := hmade
      obtain ⟨rfl, rfl⟩ := mnemonicAad_eq haad
      have hrest := nonceOf_append_drop (show 24 ≤ rest.length by simp at hlength; omega)
      rw [show bytes' = 1 :: rest from hbytes.trans (congrArg _ hrest)] at hevent
      exact hevent
    | queued => exact absurd hmade.2.1 mnemonicAad_ne_queuedAad
  · intro h
    obtain ⟨entry, hentry, ⟨rfl, haad, rfl, rfl⟩, htag⟩ := hs.exists_entry h
    unfold decryptMnemonicBytes
    rw [if_neg (by simp [htag]; omega), if_neg (by simp)]
    rw [decryptWith_eq_ok, decrypt_eq_some_iff hs.distinct]
    simp only [List.drop_succ_cons, List.drop_zero, nonceOf_append]
    rw [List.drop_left' Vector.length_toList, ← haad]
    exact hentry

/-! ## The key of a wallet -/

variable (p) in
def kdfInput (password : String) (kdf : WalletKdfParams) : Option KdfInput :=
  (p.decodeSalt kdf.saltB64).toOption.map fun salt =>
    ⟨password, salt, kdf.memoryMib * 1024, kdf.iterations, kdf.parallelism⟩

variable (p) in
def Event.kdfInput : Event → Option KdfInput
  | .wrapped _ _ password kdf _ _ _ => ZbagCrypto.kdfInput p password kdf
  | _ => none

variable (p) in
/-- The key derivations of the run and the one at hand do not collide. -/
def CollisionFree (s : Vault) (password : String) (kdf : WalletKdfParams) : Prop :=
  ∀ x ∈ kdfInput p password kdf, ∀ event ∈ s.events, ∀ y ∈ event.kdfInput p, ∀ key,
    p.argon2 x = .ok key → p.argon2 y = .ok key → x = y

variable (p) in
/-- However they are written. -/
structure SameParams (kdf kdf' : WalletKdfParams) (aead aead' : WalletAeadParams) : Prop where
  salt : p.decodeSalt kdf.saltB64 = p.decodeSalt kdf'.saltB64
  memoryMib : kdf.memoryMib = kdf'.memoryMib
  iterations : kdf.iterations = kdf'.iterations
  parallelism : kdf.parallelism = kdf'.parallelism
  scheme : aead.scheme = aead'.scheme
  version : aead.version = aead'.version
  nonce : decode aead.nonceB64.toList = decode aead'.nonceB64.toList

theorem kdfInput_eq {password : String} {kdf : WalletKdfParams} {salt : Bytes}
    (h : validateAndDecodeKdfSalt p kdf = .ok salt) :
    kdfInput p password kdf =
      some ⟨password, salt, kdf.memoryMib * 1024, kdf.iterations, kdf.parallelism⟩ := by
  rw [kdfInput, decodeSalt_of_validate h]
  rfl

theorem deriveKek_congr {kdf kdf' : WalletKdfParams} {aead aead' : WalletAeadParams}
    (h : SameParams p kdf kdf' aead aead') (password : String) (salt : Bytes) :
    deriveKek p password kdf salt = deriveKek p password kdf' salt := by
  simp only [deriveKek, h.memoryMib, h.iterations, h.parallelism]

theorem aeadAad_congr {kdf kdf' : WalletKdfParams} {aead aead' : WalletAeadParams}
    (h : SameParams p kdf kdf' aead aead') :
    aeadAad w network aead = aeadAad w network aead' := by
  simp only [aeadAad, h.scheme, h.version]

section Unwrap

variable {password : String} {kdf : WalletKdfParams} {aead : WalletAeadParams} {text : String}

theorem of_unwrapDek (hs : s.Ok p)
    (h : unwrapDek p s.log w network password kdf aead text = .ok dek) :
    ∃ salt nonce kek ciphertext, validateAndDecodeKdfSalt p kdf = .ok salt ∧
      validateAndDecodeAeadNonce p aead = .ok nonce ∧ deriveKek p password kdf salt = .ok kek ∧
      decode text.toList = some ciphertext ∧
      ⟨kek, nonce, aeadAad w network aead, dek.toList, ciphertext⟩ ∈ s.log := by
  obtain ⟨salt, hsalt, h⟩ := bind_eq_ok h
  obtain ⟨nonce, hnonce, h⟩ := bind_eq_ok h
  obtain ⟨kek, hkek, h⟩ := bind_eq_ok h
  obtain ⟨ciphertext, hciphertext, h⟩ := bind_eq_ok h
  obtain ⟨plaintext, hplaintext, h⟩ := bind_eq_ok h
  rw [decryptWith_eq_ok, decrypt_eq_some_iff hs.distinct] at hplaintext
  cases hfixed : fixed 32 plaintext with
  | none =>
    rw [hfixed] at h
    cases h
  | some dek' =>
    rw [hfixed] at h
    obtain rfl : dek' = dek := Except.ok.inj h
    rw [← fixed_eq_some_iff.mp hfixed] at hplaintext
    have hdecode := (decodeExactly_eq_ok.mp hciphertext).1
    exact ⟨salt, nonce, kek, ciphertext, hsalt, hnonce, hkek, hdecode, hplaintext⟩

theorem unwrapDek_of_wrapped (hs : s.Ok p) (hkdf : validateKdfParams p kdf = .ok ())
    (haead : validateAeadParams p aead = .ok ()) {kdf' : WalletKdfParams}
    {aead' : WalletAeadParams} (hsame : SameParams p kdf kdf' aead aead')
    (hevent : .wrapped w network password kdf' aead' dek text ∈ s.events) :
    unwrapDek p s.log w network password kdf aead text = .ok dek := by
  obtain ⟨salt, hsalt, -⟩ := map_eq_ok hkdf
  obtain ⟨nonce, hnonce, -⟩ := map_eq_ok haead
  obtain ⟨entry, hentry, ⟨salt', hsalt', hnonce', hkek', haad, hdek, rfl⟩, htag⟩ :=
    hs.exists_entry hevent
  obtain rfl : salt = salt' := Except.ok.inj <| (decodeSalt_of_validate hsalt).symm.trans
    (hsame.salt.trans (decodeSalt_of_validate hsalt'))
  obtain rfl : nonce = entry.nonce := by
    have hbytes := (nonce_of_validate hnonce).2.2
    rw [hsame.nonce, (nonce_of_validate hnonce').2.2, Option.some.injEq] at hbytes
    exact (Vector.toList_inj.mp hbytes).symm
  have hciphertext : decodeExactly p "wrapped DEK" 48
      (String.ofList (encode entry.ciphertext)) = .ok entry.ciphertext := by
    refine decodeExactly_eq_ok.mpr ⟨?_, ?_⟩
    · rw [String.toList_ofList, decode_encode]
    · rw [htag, hdek, Vector.length_toList]
  have hplaintext : decryptWith "failed to unwrap DEK" s.log entry.key entry.nonce
      (aeadAad w network aead) entry.ciphertext = .ok dek.toList := by
    rw [decryptWith_eq_ok, decrypt_eq_some_iff hs.distinct, aeadAad_congr hsame, ← haad, ← hdek]
    exact hentry
  have hkek : deriveKek p password kdf salt = .ok entry.key :=
    (deriveKek_congr hsame password salt).trans hkek'
  have hfixed : fixed 32 dek.toList = some dek := fixed_eq_some_iff.mpr rfl
  simp only [unwrapDek, bind, Except.bind, hsalt, hnonce, hkek, hciphertext, hplaintext, hfixed]
  rfl

/-- **The key opens exactly as it was wrapped.** -/
theorem unwrapDek_eq_ok_iff (hs : s.Ok p) (hfree : CollisionFree p s password kdf) :
    unwrapDek p s.log w network password kdf aead text = .ok dek ↔
      validateKdfParams p kdf = .ok () ∧ validateAeadParams p aead = .ok () ∧
        ∃ kdf' aead', SameParams p kdf kdf' aead aead' ∧
          .wrapped w network password kdf' aead' dek text ∈ s.events := by
  constructor
  · intro h
    obtain ⟨salt, nonce, kek, ciphertext, hsalt, hnonce, hkek, hdecode, hentry⟩ := of_unwrapDek hs h
    refine ⟨by rw [validateKdfParams, hsalt]; rfl, by rw [validateAeadParams, hnonce]; rfl, ?_⟩
    obtain ⟨event, hevent, hmade, -⟩ := hs.exists_event hentry
    cases event with
    | wrapped w' network' password' kdf' aead' dek' text' =>
      obtain ⟨salt', hsalt', hnonce', hkek', haad, hdek, rfl⟩ := hmade
      obtain ⟨rfl, rfl⟩ := aeadAad_eq haad
      obtain rfl := Vector.toList_inj.mp hdek
      have hinput := hfree _ (kdfInput_eq hsalt) _ hevent _ (kdfInput_eq hsalt') kek
        (argon2_of_deriveKek hkek) (argon2_of_deriveKek hkek')
      obtain ⟨rfl, rfl, hmemory, hiterations, hparallelism⟩ := KdfInput.mk.injEq .. ▸ hinput
      obtain ⟨hscheme, hversion, hbytes⟩ := nonce_of_validate hnonce
      obtain ⟨hscheme', hversion', hbytes'⟩ := nonce_of_validate hnonce'
      rw [encode_of_decode hdecode, String.ofList_toList] at hevent
      refine ⟨kdf', aead', ⟨?_, by omega, hiterations, hparallelism, ?_, ?_, ?_⟩, hevent⟩
      · rw [decodeSalt_of_validate hsalt, decodeSalt_of_validate hsalt']
      · rw [hscheme, hscheme']
      · rw [hversion, hversion']
      · rw [hbytes, hbytes']
    | mnemonic => exact absurd hmade.2.1 aeadAad_ne_mnemonicAad
    | queued => exact absurd hmade.2.1 aeadAad_ne_queuedAad
  · rintro ⟨hkdf, haead, kdf', aead', hsame, hevent⟩
    exact unwrapDek_of_wrapped hs hkdf haead hsame hevent

end Unwrap

/-! ## The two formats -/

def asBytes (text : String) : Bytes := text.toList.flatMap String.utf8EncodeChar

theorem utf8_ne_one : ∀ n < 64, ∃ b ∈ (String.utf8EncodeChar (digit n)).head?, b ≠ 1 := by
  decide +kernel

theorem asBytes_encode_ne (bytes rest : Bytes) :
    asBytes (.ofList (encode bytes)) ≠ 1 :: rest := by
  intro h
  rw [asBytes, String.toList_ofList] at h
  cases bytes with
  | nil => cases h
  | cons a bytes =>
    have ha := a.toNat_lt
    obtain ⟨cs, hcs⟩ := encode_cons a bytes
    obtain ⟨b, hb, hne⟩ := utf8_ne_one (a.toNat / 4) (by omega)
    obtain ⟨more, hmore⟩ := List.head?_eq_some_iff.mp hb
    rw [hcs, List.flatMap_cons, hmore] at h
    exact hne (List.cons.inj h).1

/-- **A wrapped key is no mnemonic**, neither its text nor its ciphertext. -/
theorem decryptMnemonicBytes_wrapped (hs : s.Ok p) {w' : Uuid} {network' : Network}
    {password : String} {kdf : WalletKdfParams} {aead : WalletAeadParams} {dek' : Key}
    {text : String} (h : .wrapped w' network' password kdf aead dek' text ∈ s.events)
    {bytes : Bytes} (hbytes : bytes = asBytes text ∨
      ∃ (nonce : Nonce) (ciphertext : Bytes), decode text.toList = some ciphertext ∧
        bytes = 1 :: (nonce.toList ++ ciphertext)) (plaintext : Bytes) :
    decryptMnemonicBytes s.log w network dek bytes ≠ .ok plaintext := by
  rw [ne_eq, decryptMnemonicBytes_eq_ok_iff hs]
  intro hmnemonic
  obtain ⟨entry, hentry, ⟨_, _, _, _, haad, _, rfl⟩, -⟩ := hs.exists_entry h
  obtain ⟨entry', hentry', ⟨_, haad', _, rfl⟩, -⟩ := hs.exists_entry hmnemonic
  rcases hbytes with htext | ⟨nonce, ciphertext, hdecode, hframe⟩
  · exact asBytes_encode_ne _ _ htext.symm
  · rw [String.toList_ofList, decode_encode, Option.some.injEq] at hdecode
    have hciphertext : entry'.ciphertext = ciphertext :=
      (List.append_inj (List.cons.inj hframe).2 (by simp)).2
    -- the two entries have one ciphertext, so they are one entry
    obtain rfl : entry = entry' :=
      (hs.distinct entry hentry entry' hentry' (hciphertext.trans hdecode.symm)).symm
    exact aeadAad_ne_mnemonicAad (haad.symm.trans haad')

/-- **An encrypted mnemonic is no wrapped key**, neither its bytes nor its ciphertext. -/
theorem unwrapDek_mnemonic (hs : s.Ok p) {w' : Uuid} {network' : Network} {dek' : Key}
    {plaintext bytes : Bytes} (h : .mnemonic w' network' dek' plaintext bytes ∈ s.events)
    {text : String} (htext : asBytes text = bytes ∨ decode text.toList = some (bytes.drop 25))
    (password : String) (kdf : WalletKdfParams) (aead : WalletAeadParams) :
    unwrapDek p s.log w network password kdf aead text ≠ .ok dek := by
  intro hunwrap
  obtain ⟨_, nonce, kek, ciphertext, _, _, _, hdecode, hentry⟩ := of_unwrapDek hs hunwrap
  obtain ⟨entry', hentry', ⟨_, haad', _, rfl⟩, -⟩ := hs.exists_entry h
  rcases htext with htext | htext
  · rw [← String.ofList_toList (s := text), ← encode_of_decode hdecode] at htext
    exact asBytes_encode_ne _ _ htext
  · have hciphertext : ciphertext = entry'.ciphertext := by
      rw [hdecode, Option.some.injEq] at htext
      rw [htext, List.drop_succ_cons, List.drop_left' Vector.length_toList]
    have hsame := hs.distinct entry' hentry' _ hentry hciphertext
    exact aeadAad_ne_mnemonicAad ((congrArg Sealing.aad hsame).trans haad')

/-! ## The result -/

/-- **What opens was sealed**, with the same wallet, network and password or key; for `unwrap_dek`
unless the key derivation collides. Neither call accepts what the other's counterpart has returned.
-/
theorem opens_exactly (p : Primitives) (s : Vault) (h : Reach (vault p) (Ideal p) s) :
    (∀ w network password kdf aead text dek, CollisionFree p s password kdf →
      (unwrapDek p s.log w network password kdf aead text = .ok dek ↔
        validateKdfParams p kdf = .ok () ∧ validateAeadParams p aead = .ok () ∧
          ∃ kdf' aead', SameParams p kdf kdf' aead aead' ∧
            .wrapped w network password kdf' aead' dek text ∈ s.events)) ∧
    (∀ w network dek bytes plaintext,
      decryptMnemonicBytes s.log w network dek bytes = .ok plaintext ↔
        .mnemonic w network dek plaintext bytes ∈ s.events) ∧
    (∀ w network password kdf aead dek text,
      .wrapped w network password kdf aead dek text ∈ s.events →
        ∀ bytes, (bytes = asBytes text ∨ ∃ (nonce : Nonce) (ciphertext : Bytes),
          decode text.toList = some ciphertext ∧ bytes = 1 :: (nonce.toList ++ ciphertext)) →
        ∀ w' network' dek' plaintext,
          decryptMnemonicBytes s.log w' network' dek' bytes ≠ .ok plaintext) ∧
    ∀ w network dek plaintext bytes, .mnemonic w network dek plaintext bytes ∈ s.events →
      ∀ text, asBytes text = bytes ∨ decode text.toList = some (bytes.drop 25) →
        ∀ w' network' password kdf aead dek',
          unwrapDek p s.log w' network' password kdf aead text ≠ .ok dek' := by
  have hs := Vault.Ok.of_reach h
  refine ⟨?_, ?_, ?_, ?_⟩
  · intro w network password kdf aead text dek hfree
    exact unwrapDek_eq_ok_iff hs hfree
  · intro w network dek bytes plaintext
    exact decryptMnemonicBytes_eq_ok_iff hs
  · intro w network password kdf aead dek text hevent bytes hbytes w' network' dek' plaintext
    exact decryptMnemonicBytes_wrapped hs hevent hbytes plaintext
  · intro w network dek plaintext bytes hevent text htext w' network' password kdf aead dek'
    exact unwrapDek_mnemonic hs hevent htext password kdf aead

def testPrimitives : Primitives where
  decodeSalt text := if text = "AAAAAAAAAAA" then .ok (List.replicate 8 0) else .error "invalid"
  base64Error _ := "invalid"
  params _ _ _ := .ok ()
  argon2 input := .ok (Vector.replicate 32 (UInt8.ofNat input.password.length))

def testKdf : WalletKdfParams := ⟨"argon2id", 1, 64, 3, 1, "AAAAAAAAAAA"⟩

def testAead : WalletAeadParams :=
  ⟨"xchacha20poly1305", 1, .ofList (encode (List.replicate 24 1))⟩

def storeWallet : List (Use × Option Bytes) :=
  [(.wrapDek (Vector.replicate 16 2) .mainnet "password" testKdf testAead (Vector.replicate 32 3),
      some (List.replicate 48 4)),
    (.encryptMnemonic (Vector.replicate 16 2) .mainnet (Vector.replicate 32 3) [5, 6]
      (Vector.replicate 24 7), some (List.replicate 18 8))]

theorem opens_exactly_storeWallet : ∃ s, (Reach (vault testPrimitives) (Ideal testPrimitives) s ∧
    CollisionFree testPrimitives s "password" testKdf) ∧
    unwrapDek testPrimitives s.log (Vector.replicate 16 2) .mainnet "password" testKdf testAead
      (.ofList (encode (List.replicate 48 4))) = .ok (Vector.replicate 32 3) ∧
    decryptMnemonicBytes s.log (Vector.replicate 16 2) .mainnet (Vector.replicate 32 3)
      (1 :: (List.replicate 24 7 ++ List.replicate 18 8)) = .ok [5, 6] := by
  obtain ⟨s, hs, hwrapped, hmnemonic, hinputs⟩ := exec_reach (S := vault testPrimitives)
    (G := Ideal testPrimitives)
    (p := fun s =>
      .wrapped (Vector.replicate 16 2) .mainnet "password" testKdf testAead (Vector.replicate 32 3)
        (.ofList (encode (List.replicate 48 4))) ∈ s.events ∧
      .mnemonic (Vector.replicate 16 2) .mainnet (Vector.replicate 32 3) [5, 6]
        (1 :: (List.replicate 24 7 ++ List.replicate 18 8)) ∈ s.events ∧
      ∀ event ∈ s.events, ∀ y ∈ event.kdfInput testPrimitives,
        kdfInput testPrimitives "password" testKdf = some y)
    storeWallet rfl (by decide +kernel) (by decide +kernel)
  have hfree : CollisionFree testPrimitives s "password" testKdf := by
    intro x hx event hevent y hy _ _ _
    exact Option.some.inj (hx.symm.trans (hinputs event hevent y hy))
  obtain ⟨hunwrap, hdecrypt, -, -⟩ := opens_exactly testPrimitives s hs
  refine ⟨s, ⟨hs, hfree⟩, (hunwrap _ _ _ _ _ _ _ hfree).mpr ?_, (hdecrypt _ _ _ _ _).mpr hmnemonic⟩
  refine ⟨rfl, by decide +kernel, testKdf, testAead, ?_, hwrapped⟩
  exact ⟨rfl, rfl, rfl, rfl, rfl, rfl, rfl⟩

end ZbagCrypto
