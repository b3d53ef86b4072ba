import Zbag.Keystone.Payload

/-!
# Keystone — the `zcash-pczt` codec of the front end

The front end has a codec for `zcash-pczt` of its own, in TypeScript. It reads heads like the one of
the back end, but a number there is exact only up to `Number.MAX_SAFE_INTEGER`, so a head with a
greater argument is refused.
-/

namespace ZbagKeystone

open Cbor

/-! ## Numbers and arrays of the front end -/

/-- `Number.MAX_SAFE_INTEGER`. -/
def maxSafeInteger : ℕ := 2 ^ 53 - 1

/-- The length is a safe integer. -/
structure Uint8Array where
  bytes : List UInt8
  bound : bytes.length ≤ maxSafeInteger
  deriving DecidableEq, Repr

/-- The same bytes in the back end. -/
def Uint8Array.toSlice (x : Uint8Array) : Slice :=
  ⟨x.bytes, Nat.lt_of_le_of_lt x.bound (by decide)⟩

theorem Uint8Array.length_lt (x : Uint8Array) : x.bytes.length < 2 ^ 63 := x.toSlice.bound

/-- For an index inside the array. -/
def byteAt (bytes : List UInt8) (i : ℕ) : ℕ := (bytes.getD i 0).toNat

def subarray (bytes : List UInt8) (start stop : ℕ) : List UInt8 :=
  (bytes.drop start).take (stop - start)

/-! ## The code -/

def encodeCborMajorLength (major length : ℕ) : Except String (List UInt8) :=
  if maxSafeInteger < length then .error "Invalid CBOR length"
  else if length < 24 then .ok [.ofNat (major <<< 5 ||| length)]
  else if length < 0x100 then .ok [.ofNat (major <<< 5 ||| 24), .ofNat length]
  else if length < 0x10000 then
    .ok [.ofNat (major <<< 5 ||| 25), .ofNat (length >>> 8), .ofNat (length &&& 0xff)]
  else if length < 0x100000000 then
    .ok [.ofNat (major <<< 5 ||| 26), .ofNat (length >>> 24 &&& 0xff),
      .ofNat (length >>> 16 &&& 0xff), .ofNat (length >>> 8 &&& 0xff), .ofNat (length &&& 0xff)]
  else
    let hi := length >>> 32 &&& 0xffffffff
    let lo := length &&& 0xffffffff
    .ok [.ofNat (major <<< 5 ||| 27), .ofNat (hi >>> 24 &&& 0xff), .ofNat (hi >>> 16 &&& 0xff),
      .ofNat (hi >>> 8 &&& 0xff), .ofNat (hi &&& 0xff), .ofNat (lo >>> 24 &&& 0xff),
      .ofNat (lo >>> 16 &&& 0xff), .ofNat (lo >>> 8 &&& 0xff), .ofNat (lo &&& 0xff)]

/-- The decoder of `zcash-accounts` has a copy of it. -/
def readCborHead (bytes : List UInt8) (offset : ℕ) : Except String CborHead :=
  if bytes.length ≤ offset then .error "Unexpected end of CBOR"
  else
    let initial := byteAt bytes offset
    let major := initial >>> 5
    let ai := initial &&& 0x1f
    let nextOffset := offset + 1
    if ai < 24 then .ok ⟨major, ai, nextOffset, false⟩
    else
      match ai with
      | 24 =>
        if bytes.length < nextOffset + 1 then .error "Unexpected end of CBOR"
        else .ok ⟨major, byteAt bytes nextOffset, nextOffset + 1, false⟩
      | 25 =>
        if bytes.length < nextOffset + 2 then .error "Unexpected end of CBOR"
        else
          .ok ⟨major, byteAt bytes nextOffset <<< 8 ||| byteAt bytes (nextOffset + 1),
            nextOffset + 2, false⟩
      | 26 =>
        if bytes.length < nextOffset + 4 then .error "Unexpected end of CBOR"
        else
          .ok ⟨major, byteAt bytes nextOffset * 0x1000000 + byteAt bytes (nextOffset + 1) <<< 16 +
            byteAt bytes (nextOffset + 2) <<< 8 + byteAt bytes (nextOffset + 3), nextOffset + 4,
            false⟩
      | 27 =>
        if bytes.length < nextOffset + 8 then .error "Unexpected end of CBOR"
        else
          let n := (List.range 8).foldl (fun n i => n <<< 8 ||| byteAt bytes (nextOffset + i)) 0
          if maxSafeInteger < n then .error "CBOR length too large"
          else .ok ⟨major, n, nextOffset + 8, false⟩
      | 31 => .ok ⟨major, 0, nextOffset, true⟩
      | _ => .error "Unsupported CBOR additional info"

namespace Ur

def expectHead (cbor : List UInt8) (offset major : ℕ) (message : String) : Except String ℕ := do
  let head ← readCborHead cbor offset
  if head.major ≠ major ∨ head.indefinite = true ∨ head.value ≠ 1 then .error message
  else .ok head.offset

def takeBytes (cbor : List UInt8) (truncated : String) (offset value : ℕ) :
    Except String (List UInt8 × ℕ) :=
  if cbor.length < offset + value then .error truncated
  else .ok (subarray cbor offset (offset + value), offset + value)

def readChunk (cbor : List UInt8) (offset : ℕ) : Except String (List UInt8 × ℕ) := do
  let chunkHead ← readCborHead cbor offset
  if chunkHead.major ≠ 2 ∨ chunkHead.indefinite = true then
    .error "Invalid zcash-pczt CBOR: invalid chunk"
  else
    takeBytes cbor "Invalid zcash-pczt CBOR: truncated chunk" chunkHead.offset chunkHead.value

def encodeZcashPcztUrCbor (pcztBytes : List UInt8) : Except String (List UInt8) := do
  let mapHeader ← encodeCborMajorLength 5 1
  let keyHeader ← encodeCborMajorLength 0 1
  let valueHeader ← encodeCborMajorLength 2 pcztBytes.length
  return mapHeader ++ keyHeader ++ valueHeader ++ pcztBytes

end Ur

/-! ## Heads -/

def urHeadResult (offset : ℕ) : Except LeadError (Lead × List UInt8) → Except String CborHead
  | .ok (lead, _) =>
    if maxSafeInteger < lead.arg then .error "CBOR length too large" else .ok (headOf offset lead)
  | .error .ended => .error "Unexpected end of CBOR"
  | .error .reserved => .error "Unsupported CBOR additional info"

theorem byteAt_add {bytes rest : List UInt8} {offset : ℕ} (h : bytes.drop offset = rest) (i : ℕ) :
    byteAt bytes (offset + i) = byteAt rest i := by
  rw [byteAt, byteAt, ← h, List.getD_eq_getElem?_getD, List.getD_eq_getElem?_getD,
    List.getElem?_drop]

theorem shiftLeft_add_bytes (b₀ b₁ b₂ b₃ : ℕ) :
    b₀ * 0x1000000 + b₁ <<< 16 + b₂ <<< 8 + b₃ = ((b₀ * 256 + b₁) * 256 + b₂) * 256 + b₃ := by
  simp only [Nat.shiftLeft_eq]
  ring

theorem foldl_byteAt {rest : List UInt8} {k : ℕ} (hk : k ≤ rest.length) :
    (List.range k).foldl (fun n i => n <<< 8 ||| byteAt rest i) 0 = beValue (rest.take k) := by
  induction k with
  | zero => rfl
  | succ k ih =>
    have hlt : k < rest.length := hk
    have hbyte : byteAt rest k = rest[k].toNat := by
      rw [byteAt, List.getD_eq_getElem?_getD, List.getElem?_eq_getElem hlt, Option.getD_some]
    rw [List.range_succ, List.foldl_append, ih (Nat.le_of_succ_le hk),
      ← List.take_append_getElem hlt, beValue_concat]
    simp only [List.foldl_cons, List.foldl_nil, hbyte, shiftLeft_or_byte]

theorem urHeadResult_readArg {major : Fin 8} {w : Width} (hw : w ≠ .inline) (offset : ℕ)
    (rest : List UInt8) : urHeadResult offset (readArg major w hw rest) =
      if w.size ≤ rest.length then
        if maxSafeInteger < beValue (rest.take w.size) then .error "CBOR length too large"
        else .ok ⟨major, beValue (rest.take w.size), offset + 1 + w.size, false⟩
      else .error "Unexpected end of CBOR" := by
  unfold readArg
  split_ifs with hlen hlarge
  · exact if_pos hlarge
  · refine (if_neg hlarge).trans ?_
    simp [headOf, Lead.major, Lead.arg, Lead.isIndefinite, Lead.encode, Nat.add_assoc,
      Nat.add_comm]
  · rfl

section readCborHead

variable {bytes rest : List UInt8} {offset : ℕ}

theorem beValue_take_le {k : ℕ} (hk : k ≤ 4) : ¬ maxSafeInteger < beValue (rest.take k) := by
  have hlt := beValue_lt (rest.take k)
  have hpow : 256 ^ (rest.take k).length ≤ 256 ^ 4 :=
    Nat.pow_le_pow_right (by decide) (Nat.le_trans (List.length_take_le k rest) hk)
  have hsafe : 256 ^ 4 ≤ maxSafeInteger := by decide
  omega

/-- **`readCborHead` reads the head at the offset**, if its argument is a safe integer. -/
theorem readCborHead_eq (bytes : List UInt8) (offset : ℕ) :
    readCborHead bytes offset = urHeadResult offset (readLead (bytes.drop offset)) := by
  unfold readCborHead
  cases hdrop : bytes.drop offset with
  | nil =>
    rw [if_pos (by simpa using hdrop)]
    rfl
  | cons initial rest =>
    have hoffset : offset < bytes.length := by
      by_contra hge
      simp [List.drop_eq_nil_of_le (Nat.le_of_not_lt hge)] at hdrop
    have hlength := length_of_drop (Nat.le_of_lt hoffset) hdrop
    rw [List.length_cons] at hlength
    have hrest : bytes.drop (offset + 1) = rest := drop_add_of_append (a := [initial]) hdrop
    have hfirst : byteAt bytes offset = initial.toNat := byteAt_add hdrop 0
    have hat (i : ℕ) : byteAt bytes (offset + 1 + i) = byteAt rest i := byteAt_add hrest i
    have hat0 : byteAt bytes (offset + 1) = byteAt rest 0 := hat 0
    have hshort (k : ℕ) : bytes.length < offset + 1 + k ↔ ¬ k ≤ rest.length := by omega
    rw [if_neg (Nat.not_le.mpr hoffset)]
    simp only [hfirst, shiftRight_major, and_info, readLead]
    generalize infoOf initial = ai
    generalize majorOf initial = major
    by_cases hai : ai < 24
    · have hsafe : ¬ maxSafeInteger < ai := Nat.not_lt.mpr (Nat.le_trans hai.le (by decide))
      rw [if_pos hai, readInfo, dif_pos hai]
      refine Eq.symm ((if_neg hsafe).trans ?_)
      simp [headOf, Lead.major, Lead.arg, Lead.isIndefinite, Lead.encode, Width.size]
    · rw [if_neg hai]
      simp only [hshort, hat, hat0]
      split
      · rw [readInfo_one, urHeadResult_readArg, if_neg (beValue_take_le (by decide))]
        cases rest with
        | nil => rfl
        | cons b₀ rest => simp [byteAt, beValue, Width.size]
      · rw [readInfo_two, urHeadResult_readArg, if_neg (beValue_take_le (by decide))]
        rcases rest with _ | ⟨b₀, _ | ⟨b₁, rest⟩⟩
        · rfl
        · rfl
        · simp [byteAt, shiftLeft_or_byte, beValue, Width.size]
      · rw [readInfo_four, urHeadResult_readArg, if_neg (beValue_take_le (by decide))]
        rcases rest with _ | ⟨b₀, _ | ⟨b₁, _ | ⟨b₂, _ | ⟨b₃, rest⟩⟩⟩⟩
        · rfl
        · rfl
        · rfl
        · rfl
        · simp [byteAt, shiftLeft_add_bytes, beValue, Width.size]
      · rw [readInfo_eight, urHeadResult_readArg]
        by_cases hlen : 8 ≤ rest.length
        · rw [if_neg (not_not.mpr hlen), if_pos (show Width.eight.size ≤ rest.length from hlen),
            foldl_byteAt hlen]
          rfl
        · rw [if_pos hlen, if_neg (show ¬ Width.eight.size ≤ rest.length from hlen)]
      · rfl
      next h₁ h₂ h₄ h₈ h₃₁ =>
        rw [readInfo_reserved major rest hai h₁ h₂ h₄ h₈ h₃₁]
        rfl

end readCborHead

namespace Ur

section chunks

variable {cbor rest : List UInt8} {offset : ℕ}

theorem readCborHead_of_lead {lead : Lead} (hdrop : cbor.drop offset = lead.encode ++ rest) :
    readCborHead cbor offset =
      if maxSafeInteger < lead.arg then .error "CBOR length too large"
      else .ok (headOf offset lead) := by
  rw [readCborHead_eq, hdrop, readLead_append]
  rfl

theorem takeBytes_eq (hoffset : offset ≤ cbor.length) (hdrop : cbor.drop offset = rest) (value : ℕ)
    (truncated : String) : takeBytes cbor truncated offset value =
      if rest.length < value then .error truncated else .ok (rest.take value, offset + value) := by
  have hlength := length_of_drop hoffset hdrop
  have hshort : cbor.length < offset + value ↔ rest.length < value := by omega
  simp only [takeBytes, hshort, subarray, hdrop, Nat.add_sub_cancel_left]

theorem readChunk_of_head {h : Head} (hdrop : cbor.drop offset = h.encode ++ rest)
    (hmajor : h.major = 2) : readChunk cbor offset =
      if maxSafeInteger < h.arg then .error "CBOR length too large"
      else if rest.length < h.arg then .error "Invalid zcash-pczt CBOR: truncated chunk"
      else .ok (rest.take h.arg, offset + h.encode.length + h.arg) := by
  have hlead : cbor.drop offset = (Lead.definite h).encode ++ rest := hdrop
  have hlength : offset + h.encode.length + rest.length = cbor.length := length_of_lead hlead
  have hstring : ¬ ((headOf offset (.definite h)).major ≠ 2 ∨
      (headOf offset (.definite h)).indefinite = true) := by
    simp [headOf, Lead.major, Lead.isIndefinite, hmajor]
  unfold readChunk
  rw [readCborHead_of_lead hlead]
  by_cases hlarge : maxSafeInteger < h.arg
  · rw [if_pos (show maxSafeInteger < (Lead.definite h).arg from hlarge), if_pos hlarge]
    rfl
  · rw [if_neg (show ¬ maxSafeInteger < (Lead.definite h).arg from hlarge), if_neg hlarge]
    simp only [bind, Except.bind, if_neg hstring]
    exact takeBytes_eq (Nat.le_of_add_right_le hlength.le) (drop_add_of_append hdrop) _ _

theorem readChunk_of_other
    (hother : ∀ (h : Head) rest, cbor.drop offset = h.encode ++ rest → h.major ≠ 2) :
    ∃ message, readChunk cbor offset = .error message := by
  unfold readChunk
  cases hlead : readLead (cbor.drop offset) with
  | error e =>
    rw [readCborHead_eq, hlead]
    cases e with
    | ended | reserved => exact ⟨_, rfl⟩
  | ok r =>
    have hdrop := readLead_eq_ok_iff.mp hlead
    have hinvalid : (headOf offset r.1).major ≠ 2 ∨ (headOf offset r.1).indefinite = true := by
      cases hr : r.1 with
      | definite h =>
        rw [hr] at hdrop
        exact .inl fun hmajor => hother h _ hdrop (Fin.ext hmajor)
      | indefinite major => exact .inr rfl
    rw [readCborHead_of_lead hdrop]
    split_ifs
    · exact ⟨_, rfl⟩
    · simp only [bind, Except.bind, if_pos hinvalid]
      exact ⟨_, rfl⟩

/-- **A chunk is read as it is written.** -/
theorem readsChunk (hbound : cbor.length ≤ maxSafeInteger) :
    ReadsChunk cbor (readChunk cbor) 2 := by
  refine readsChunk_of (fun offset h rest data next hdrop hmajor => ?_)
    fun offset r hother hok => ?_
  · have hlead : cbor.drop offset = (Lead.definite h).encode ++ rest := hdrop
    have hlength : offset + h.encode.length + rest.length = cbor.length := length_of_lead hlead
    rw [readChunk_of_head hdrop hmajor]
    constructor
    · intro hok
      split_ifs at hok with hlarge hshort
      obtain ⟨rfl, rfl⟩ := Prod.mk.inj (Except.ok.inj hok)
      exact ⟨Nat.le_of_not_lt hshort, rfl, rfl⟩
    · rintro ⟨hlen, rfl, rfl⟩
      rw [if_neg (by omega), if_neg (by omega)]
  · obtain ⟨message, he⟩ := readChunk_of_other hother
    rw [he] at hok
    cases hok

theorem readChunk_lt (hbound : cbor.length ≤ maxSafeInteger) (offset : ℕ) (data : List UInt8)
    (next : ℕ) (hok : readChunk cbor offset = .ok (data, next)) : offset < next := by
  obtain ⟨c, rest, -, -, rfl⟩ := (readsChunk hbound offset data next).mp hok
  exact Nat.lt_add_of_pos_right (c.length_encode_pos 2)

end chunks

def decodeByteString (cbor : Uint8Array) (offset : ℕ) : Except String (List UInt8) := do
  let value ← readCborHead cbor.bytes offset
  if value.major ≠ 2 then .error "Invalid zcash-pczt CBOR: expected byte string"
  else if value.indefinite = false then do
    let (data, offset) ← takeBytes cbor.bytes "Invalid zcash-pczt CBOR: truncated data"
      value.offset value.value
    if offset ≠ cbor.bytes.length then .error "Invalid zcash-pczt CBOR: trailing bytes"
    else .ok data
  else do
    let (chunks, offset) ← readChunks cbor.bytes (readChunk cbor.bytes) (readChunk_lt cbor.bound)
      value.offset []
    if offset ≠ cbor.bytes.length then .error "Invalid zcash-pczt CBOR: trailing bytes"
    else .ok chunks.flatten

def decodeZcashPcztUrCbor (cbor : Uint8Array) : Except String (List UInt8) := do
  let offset ← expectHead cbor.bytes 0 5 "Invalid zcash-pczt CBOR: expected map(1)"
  let offset ← expectHead cbor.bytes offset 0 "Invalid zcash-pczt CBOR: expected key 1"
  decodeByteString cbor offset

end Ur

/-! ## Agreement -/

variable {α β : Type}

/-- The same value, or two errors; a panic is neither. -/
def Agree (r : Except Failure α) (t : Except String α) : Prop :=
  (∃ a, r = .ok a ∧ t = .ok a) ∨ ∃ e message, r = .error (.err e) ∧ t = .error message

theorem Agree.of_ok (a : α) : Agree (.ok a) (.ok a) := .inl ⟨a, rfl, rfl⟩

theorem Agree.of_error (e : ZcashPcztUrCborError) (message : String) :
    Agree (.error (.err e) : Except Failure α) (.error message) :=
  .inr ⟨e, message, rfl, rfl⟩

variable {r : Except Failure α} {t : Except String α} {b : List UInt8}

/-- **Agreement passes through a sequence.** -/
theorem Agree.bind {f : α → Except Failure β} {g : α → Except String β} (h : Agree r t)
    (hfg : ∀ a, r = .ok a → Agree (f a) (g a)) :
    Agree (r >>= f) (t >>= g) := by
  rcases h with ⟨a, rfl, rfl⟩ | ⟨e, message, rfl, rfl⟩
  · exact hfg a rfl
  · exact .of_error e message

theorem Agree.ite {c : Prop} [Decidable c] (message urMessage : String) (h : ¬ c → Agree r t) :
    Agree (if c then invalid message else r) (if c then .error urMessage else t) := by
  by_cases hc : c
  · rw [if_pos hc, if_pos hc]
    exact .of_error _ _
  · rw [if_neg hc, if_neg hc]
    exact h hc

theorem Agree.branch {c : Prop} [Decidable c] {r' : Except Failure α} {t' : Except String α}
    (h : c → Agree r t) (h' : ¬ c → Agree r' t') :
    Agree (if c then r else r') (if c then t else t') := by
  by_cases hc : c
  · rw [if_pos hc, if_pos hc]
    exact h hc
  · rw [if_neg hc, if_neg hc]
    exact h' hc

theorem Agree.eq_ok {a : α} (h : Agree r t) (hr : r = .ok a) : t = .ok a := by
  rcases h with ⟨b, hb, ht⟩ | ⟨e, message, he, -⟩
  · obtain rfl := Except.ok.inj (hb.symm.trans hr)
    exact ht
  · rw [he] at hr
    cases hr

/-! ## The two decoders -/

section decoders

variable {checks : Bool} {x : Uint8Array} {rest : List UInt8} {offset : ℕ}

theorem agree_readHead
    (hsafe : ∀ (lead : Lead) rest, x.bytes.drop offset = lead.encode ++ rest →
      lead.arg ≤ maxSafeInteger) :
    Agree (readHead checks x.bytes offset) (readCborHead x.bytes offset) := by
  rw [readHead_eq x.length_lt, readCborHead_eq]
  cases hlead : readLead (x.bytes.drop offset) with
  | ok r =>
    have harg := hsafe r.1 r.2 (readLead_eq_ok_iff.mp hlead)
    exact .inl ⟨headOf offset r.1, rfl, if_neg (Nat.not_lt.mpr harg)⟩
  | error e =>
    cases e with
    | ended | reserved => exact .of_error _ _

theorem agree_takeBytes {value : ℕ} (hoffset : offset ≤ x.bytes.length)
    (hdrop : x.bytes.drop offset = rest) (hvalue : value < 2 ^ 32)
    (tooLarge truncated urTruncated : String) :
    Agree (takeBytes checks x.bytes tooLarge truncated offset value)
      (Ur.takeBytes x.bytes urTruncated offset value) := by
  have hbound := x.length_lt
  have hover : ¬ 2 ^ 64 ≤ offset + value := by omega
  rw [takeBytes_eq hbound hoffset hdrop (Nat.lt_trans hvalue (by decide)),
    Ur.takeBytes_eq hoffset hdrop, if_neg hover]
  exact Agree.ite truncated urTruncated fun _ => .of_ok _

/-- Heads that are expected are small. -/
theorem agree_expectHead (checks : Bool) (x : Uint8Array) (offset : ℕ) (major : Fin 8)
    (message urMessage : String) :
    Agree (expectHead checks x.bytes offset major message)
      (Ur.expectHead x.bytes offset major urMessage) := by
  by_cases hlarge : ∃ (lead : Lead) (rest : List UInt8),
    x.bytes.drop offset = lead.encode ++ rest ∧ maxSafeInteger < lead.arg
  · obtain ⟨lead, rest, hdrop, hlarge⟩ := hlarge
    have hother : ∀ (h : Head) rest, x.bytes.drop offset = h.encode ++ rest → h.major = major →
        h.arg ≠ 1 := by
      intro h rest' hdrop' _ harg
      have hlead : (Lead.definite h).encode ++ rest' = lead.encode ++ rest :=
        hdrop'.symm.trans hdrop
      rw [← (encode_append_inj hlead).1] at hlarge
      exact absurd (harg ▸ hlarge : maxSafeInteger < 1) (by decide)
    obtain ⟨e, he⟩ := expectHead_of_other checks message x.length_lt hother
    refine .inr ⟨e, "CBOR length too large", he, ?_⟩
    rw [Ur.expectHead, Ur.readCborHead_of_lead hdrop, if_pos hlarge]
    rfl
  · refine Agree.bind (agree_readHead fun lead rest hdrop => ?_) fun head _ => ?_
    · exact Nat.le_of_not_lt fun hlt => hlarge ⟨lead, rest, hdrop, hlt⟩
    · exact Agree.ite message urMessage fun _ => .of_ok _

theorem agree_readChunk (x : Uint8Array) (offset : ℕ) (checks : Bool)
    (hlength : ∀ (h : Head) rest, x.bytes.drop offset = h.encode ++ rest → h.major = 2 →
      h.arg < 2 ^ 32) :
    Agree (readChunk checks x.bytes offset) (Ur.readChunk x.bytes offset) := by
  by_cases hother : ∀ (h : Head) rest, x.bytes.drop offset = h.encode ++ rest → h.major ≠ 2
  · obtain ⟨e, he⟩ := readChunk_of_other checks x.length_lt hother
    obtain ⟨message, hmessage⟩ := Ur.readChunk_of_other hother
    exact .inr ⟨e, message, he, hmessage⟩
  · simp only [not_forall, not_not] at hother
    obtain ⟨h, rest, hdrop, hmajor⟩ := hother
    have hsmall := hlength h rest hdrop hmajor
    have hlead : x.bytes.drop offset = (Lead.definite h).encode ++ rest := hdrop
    have hlen : offset + h.encode.length + rest.length = x.bytes.length := length_of_lead hlead
    have hbound := x.length_lt
    have hsafe : ¬ maxSafeInteger < h.arg := Nat.not_lt.mpr (Nat.le_trans hsmall.le (by decide))
    rw [readChunk_of_head hbound hdrop hmajor, Ur.readChunk_of_head hdrop hmajor,
      if_neg (by omega), if_neg hsafe]
    exact Agree.ite _ _ fun _ => .of_ok _

/-- **The loops over the chunks agree.** -/
theorem agree_readChunks (checks : Bool)
    (hlength : ∀ (cs : List Chunk) (h : Head) tail,
      x.bytes.drop offset = chunkBytes cs ++ (h.encode ++ tail) → h.major = 2 → h.arg < 2 ^ 32) :
    Agree (readChunks x.bytes (readChunk checks x.bytes) (readChunk_lt checks x.length_lt)
        offset [])
      (readChunks x.bytes (Ur.readChunk x.bytes) (Ur.readChunk_lt x.bound) offset []) := by
  have hread := readsChunk checks x.length_lt
  obtain ⟨cs, tail, hdrop, hstop⟩ := exists_chunks hread offset
  have htail := drop_add_of_append hdrop
  rw [readChunks_flatMap hread [] hdrop, readChunks_flatMap (Ur.readsChunk x.bound) [] hdrop]
  rcases hstop with rfl | ⟨rest, rfl⟩ | ⟨hne, hbreak, e, he⟩
  · rw [readChunks_nil _ htail, readChunks_nil _ htail]
    exact .of_ok _
  · rw [readChunks_break _ htail, readChunks_break _ htail]
    exact .of_ok _
  · have hagree := agree_readChunk x (offset + (chunkBytes cs).length) checks
      fun h rest hrest hmajor => hlength cs h rest (by
        rw [hdrop, ← htail]
        exact congrArg _ hrest) hmajor
    rw [← htail] at hne hbreak
    rcases hagree with ⟨a, ha, -⟩ | ⟨e', message, he', hmessage⟩
    · cases he.symm.trans ha
    · rw [readChunks_error _ hne hbreak he', readChunks_error _ hne hbreak hmessage]
      exact .of_error _ _

/-- **The byte strings agree**, if the lengths that are read are small. -/
theorem agree_decodeByteString (checks : Bool)
    (hlength : ∀ (h : Head) tail, h.major = 2 → (x.bytes.drop offset = h.encode ++ tail ∨
      ∃ cs, x.bytes.drop offset = openString :: (chunkBytes cs ++ (h.encode ++ tail))) →
        h.arg < 2 ^ 32) :
    Agree (decodeByteString checks x.toSlice offset) (Ur.decodeByteString x offset) := by
  by_cases hlarge : ∃ (lead : Lead) (rest : List UInt8),
    x.bytes.drop offset = lead.encode ++ rest ∧ maxSafeInteger < lead.arg
  · obtain ⟨lead, rest, hdrop, hlarge⟩ := hlarge
    -- the front end refuses the head, and the back end because it is not that of a string
    have hhead : ∀ (h : Head) tail, x.toSlice.bytes.drop offset = h.encode ++ tail →
        h.major ≠ 2 := by
      intro h tail hdrop' hmajor
      have hlead : (Lead.definite h).encode ++ tail = lead.encode ++ rest :=
        hdrop'.symm.trans hdrop
      rw [← (encode_append_inj hlead).1] at hlarge
      have hsmall := hlength h tail hmajor (.inl hdrop')
      exact absurd (Nat.lt_trans hlarge hsmall) (by decide)
    have hopen : ∀ tail, x.toSlice.bytes.drop offset ≠ openString :: tail := by
      intro tail hdrop'
      have hlead : (Lead.indefinite 2).encode ++ tail = lead.encode ++ rest :=
        hdrop'.symm.trans hdrop
      rw [← (encode_append_inj hlead).1] at hlarge
      exact absurd hlarge (Nat.not_lt_zero _)
    obtain ⟨e, he⟩ := decodeByteString_of_other checks hhead hopen
    refine .inr ⟨e, "CBOR length too large", he, ?_⟩
    rw [Ur.decodeByteString, Ur.readCborHead_of_lead hdrop, if_pos hlarge]
    rfl
  · refine Agree.bind (agree_readHead fun lead rest hdrop => ?_) fun head hhead => ?_
    · exact Nat.le_of_not_lt fun hlt => hlarge ⟨lead, rest, hdrop, hlt⟩
    refine Agree.ite _ _ fun hmajor => ?_
    rcases readHead_cases checks offset x.length_lt with ⟨lead, tail, hdrop⟩ | ⟨-, e, he⟩
    · obtain rfl : headOf offset lead = head :=
        Except.ok.inj ((readHead_of_lead x.length_lt hdrop).symm.trans hhead)
      have hlen := length_of_lead hdrop
      refine Agree.branch (fun hdefinite => ?_) fun hindefinite => ?_
      · cases lead with
        | definite h =>
          have hsmall := hlength h tail (Fin.ext (not_ne_iff.mp hmajor)) (.inl hdrop)
          refine Agree.bind (agree_takeBytes (Nat.le_of_add_right_le hlen.le)
            (drop_add_of_append hdrop) hsmall _ _ _) fun r _ => ?_
          exact Agree.ite _ _ fun _ => .of_ok _
        | indefinite major => cases hdefinite
      · cases lead with
        | definite h => exact absurd rfl hindefinite
        | indefinite major =>
          obtain rfl : major = 2 := Fin.ext (not_ne_iff.mp hmajor)
          refine Agree.bind (agree_readChunks checks fun cs h tail' hchunks hstring => ?_)
            fun r _ => Agree.ite _ _ fun _ => .of_ok _
          refine hlength h tail' hstring (.inr ⟨cs, ?_⟩)
          rw [hdrop, ← hchunks]
          exact congrArg _ (drop_add_of_append hdrop).symm
    · cases he.symm.trans hhead

end decoders

/-! ## Lengths that are read -/

/-- A decoder comes to the length `n` of a byte string or of a chunk. -/
def ReadsLength (x : List UInt8) (n : ℕ) : Prop :=
  ∃ (h : Head) (tail : List UInt8), h.major = 2 ∧ h.arg = n ∧
    (Opens x (h.encode ++ tail) ∨
      ∃ cs, Opens x (openString :: (chunkBytes cs ++ (h.encode ++ tail))))

theorem of_expectHead {checks : Bool} {cbor : List UInt8} {offset next : ℕ} (major : Fin 8)
    {message : String} (hbound : cbor.length < 2 ^ 63)
    (hok : expectHead checks cbor offset major message = .ok next) :
    ∃ h : Head, h.major = major ∧ h.arg = 1 ∧
      cbor.drop offset = h.encode ++ cbor.drop next := by
  by_cases hother : ∀ (h : Head) rest, cbor.drop offset = h.encode ++ rest → h.major = major →
    h.arg ≠ 1
  · obtain ⟨e, he⟩ := expectHead_of_other checks message hbound hother
    rw [he] at hok
    cases hok
  · simp only [not_forall, not_not] at hother
    obtain ⟨h, rest, hdrop, hmajor, harg⟩ := hother
    rw [expectHead_of_head checks message hbound hdrop hmajor harg] at hok
    obtain rfl := Except.ok.inj hok
    rw [drop_add_of_append hdrop]
    exact ⟨h, hmajor, harg, hdrop⟩

/-- **The decoders agree** on inputs in which the lengths that are read are small. -/
theorem agree_decode (checks : Bool) (x : Uint8Array)
    (hlength : ∀ n, ReadsLength x.bytes n → n < 2 ^ 32) :
    Agree (decodeZcashPcztUrCbor checks x.toSlice) (Ur.decodeZcashPcztUrCbor x) := by
  refine Agree.bind (agree_expectHead checks x 0 5 _ _) fun offset hmap => ?_
  refine Agree.bind (agree_expectHead checks x offset 0 _ _) fun offset' hkey => ?_
  obtain ⟨map, hmajor, harg, hx⟩ := of_expectHead 5 x.length_lt hmap
  obtain ⟨key, hkeyMajor, hkeyArg, hoffset⟩ := of_expectHead 0 x.length_lt hkey
  rw [List.drop_zero, hoffset] at hx
  have hopens : Opens x.bytes (x.bytes.drop offset') :=
    ⟨map, key, hmajor, harg, hkeyMajor, hkeyArg, hx⟩
  refine agree_decodeByteString checks fun h tail hstring hread =>
    hlength _ ⟨h, tail, hstring, rfl, ?_⟩
  rcases hread with hdrop | ⟨cs, hdrop⟩
  · rw [hdrop] at hopens
    exact .inl hopens
  · rw [hdrop] at hopens
    exact .inr ⟨cs, hopens⟩

/-! ## The two encoders -/

theorem ofNat_and_ff (n : ℕ) : UInt8.ofNat (n &&& 0xff) = UInt8.ofNat n := by
  rw [← UInt8.toNat_inj, UInt8.toNat_ofNat', UInt8.toNat_ofNat',
    Nat.and_two_pow_sub_one_eq_mod n 8, Nat.mod_mod]

theorem encodeCborMajorLength_eq (major : ℕ) {length : ℕ} (hlength : length < 2 ^ 32) :
    encodeCborMajorLength major length = .ok (encodeCborMajorLen major length) := by
  have hsafe : ¬ maxSafeInteger < length :=
    Nat.not_lt.mpr (Nat.le_trans hlength.le (by decide))
  unfold encodeCborMajorLength encodeCborMajorLen
  rw [if_neg hsafe]
  split_ifs
  · rfl
  · rfl
  · rfl
  · simp only [ofNat_and_ff]
  · omega

theorem shiftLeft_or_info (major : Fin 8) {info : ℕ} (h : info < 32) :
    UInt8.ofNat ((major : ℕ) <<< 5 ||| info) = initialByte major info := by
  rw [← Nat.shiftLeft_add_eq_or_of_lt h, Nat.shiftLeft_eq]
  rfl

/-- **`encode_cbor_major_len` writes a head.** -/
theorem encodeCborMajorLen_eq (major : Fin 8) {len : ℕ} (hlen : len < 2 ^ 64) :
    ∃ h : Head, h.major = major ∧ h.arg = len ∧ encodeCborMajorLen major len = h.encode := by
  unfold encodeCborMajorLen
  split_ifs with h₀ h₁ h₂ h₄
  · refine ⟨⟨major, .inline, len, h₀⟩, rfl, rfl, ?_⟩
    rw [shiftLeft_or_info major (Nat.lt_trans h₀ (by decide))]
    rfl
  · refine ⟨⟨major, .one, len, h₁⟩, rfl, rfl, ?_⟩
    rw [shiftLeft_or_info major (by decide)]
    rfl
  · refine ⟨⟨major, .two, len, h₂⟩, rfl, rfl, ?_⟩
    rw [shiftLeft_or_info major (by decide), ofNat_and_ff]
    simp [Nat.shiftRight_eq_div_pow, Head.encode, Width.info, Width.size, beBytes]
  · refine ⟨⟨major, .four, len, h₄⟩, rfl, rfl, ?_⟩
    rw [shiftLeft_or_info major (by decide), ofNat_and_ff]
    simp [Nat.shiftRight_eq_div_pow, Nat.div_div_eq_div_mul, Head.encode, Width.info, Width.size,
      beBytes]
  · refine ⟨⟨major, .eight, len, hlen⟩, rfl, rfl, ?_⟩
    rw [shiftLeft_or_info major (by decide), ofNat_and_ff]
    simp [Nat.shiftRight_eq_div_pow, Nat.div_div_eq_div_mul, Head.encode, Width.info, Width.size,
      beBytes]

theorem encode_eq (hb : b.length < 2 ^ 32) :
    Ur.encodeZcashPcztUrCbor b = .ok (encodeZcashPcztUrCbor b) := by
  rw [Ur.encodeZcashPcztUrCbor, encodeCborMajorLength_eq 5 (by decide),
    encodeCborMajorLength_eq 0 (by decide), encodeCborMajorLength_eq 2 hb]
  rfl

theorem opens_encode (hb : b.length < 2 ^ 64) :
    ∃ h : Head, h.major = 2 ∧ h.arg = b.length ∧
      Opens (encodeZcashPcztUrCbor b) (h.encode ++ b) := by
  obtain ⟨h, hmajor, harg, hencode⟩ := encodeCborMajorLen_eq 2 hb
  refine ⟨h, hmajor, harg, ⟨5, .inline, 1, by decide⟩, ⟨0, .inline, 1, by decide⟩, rfl, rfl, rfl,
    rfl, ?_⟩
  rw [encodeZcashPcztUrCbor, show encodeCborMajorLen 2 b.length = h.encode from hencode]
  rfl

theorem readsLength_encode (hb : b.length < 2 ^ 64) {n : ℕ}
    (h : ReadsLength (encodeZcashPcztUrCbor b) n) : n = b.length := by
  obtain ⟨head, -, harg, hopens⟩ := opens_encode hb
  obtain ⟨h, tail, -, rfl, hread | ⟨cs, hread⟩⟩ := h
  · have hlead : (Lead.definite h).encode ++ tail = (Lead.definite head).encode ++ b :=
      hread.unique hopens
    rw [Lead.definite.inj (encode_append_inj hlead).1, harg]
  · have hlead : (Lead.indefinite 2).encode ++ (chunkBytes cs ++ (h.encode ++ tail)) =
        (Lead.definite head).encode ++ b := hread.unique hopens
    cases (encode_append_inj hlead).1

theorem length_encode_le (hb : b.length < 2 ^ 32) :
    (encodeZcashPcztUrCbor b).length ≤ maxSafeInteger := by
  obtain ⟨h, -, -, hencode⟩ := encodeCborMajorLen_eq 2 (Nat.lt_trans hb (by decide))
  have hlength : (encodeZcashPcztUrCbor b).length = 2 + (h.width.size + 1) + b.length := by
    rw [encodeZcashPcztUrCbor, show encodeCborMajorLen 2 b.length = h.encode from hencode]
    simp only [List.length_append, Head.length_encode]
    rfl
  have hsize : h.width.size ≤ 8 := by cases h.width <;> decide
  have hsafe : 2 + 9 + 2 ^ 32 ≤ maxSafeInteger := by decide
  omega

/-- **The codecs are interchangeable**: payloads below `2 ^ 32` bytes have one encoding, which both
decode, and on inputs with such lengths the decoders agree. -/
theorem codecs_interchangeable (checks : Bool) :
    (∀ b : List UInt8, b.length < 2 ^ 32 → ∃ x : Uint8Array,
      encodeZcashPcztUrCbor b = x.bytes ∧ Ur.encodeZcashPcztUrCbor b = .ok x.bytes ∧
        decodeZcashPcztUrCbor checks x.toSlice = .ok b ∧ Ur.decodeZcashPcztUrCbor x = .ok b) ∧
    ∀ x : Uint8Array, (∀ n, ReadsLength x.bytes n → n < 2 ^ 32) →
      Agree (decodeZcashPcztUrCbor checks x.toSlice) (Ur.decodeZcashPcztUrCbor x) := by
  refine ⟨fun b hb => ?_, agree_decode checks⟩
  have hb' : b.length < 2 ^ 64 := Nat.lt_trans hb (by decide)
  let x : Uint8Array := ⟨encodeZcashPcztUrCbor b, length_encode_le hb⟩
  have hencodes : Encodes b x.toSlice.bytes := .inl (opens_encode hb')
  have hdecode : decodeZcashPcztUrCbor checks x.toSlice = .ok b := decode_of_encodes hencodes
  have hagree := agree_decode checks x fun n hn => by
    rw [readsLength_encode hb' hn]
    exact hb
  exact ⟨x, rfl, encode_eq hb, hdecode, hagree.eq_ok hdecode⟩

theorem codecs_interchangeable_bytes :
    (∃ x : Uint8Array, encodeZcashPcztUrCbor [1, 2, 3] = x.bytes ∧
      Ur.encodeZcashPcztUrCbor [1, 2, 3] = .ok x.bytes ∧
      decodeZcashPcztUrCbor true x.toSlice = .ok [1, 2, 3] ∧
      Ur.decodeZcashPcztUrCbor x = .ok [1, 2, 3]) ∧
    Agree (decodeZcashPcztUrCbor true (Uint8Array.toSlice ⟨[0xa1, 1, 0x43, 1, 2, 3], by decide⟩))
      (Ur.decodeZcashPcztUrCbor ⟨[0xa1, 1, 0x43, 1, 2, 3], by decide⟩) := by
  refine ⟨(codecs_interchangeable true).1 [1, 2, 3] (by decide),
    (codecs_interchangeable true).2 ⟨[0xa1, 1, 0x43, 1, 2, 3], by decide⟩ fun n hn => ?_⟩
  have hlength : n = 3 := readsLength_encode (b := [1, 2, 3]) (by decide) hn
  rw [hlength]
  decide

end ZbagKeystone
