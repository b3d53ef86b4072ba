import Zbag.Lib.Cbor

/-!
# Keystone — the `zcash-pczt` payload

A PCZT travels in a QR code as a CBOR map of the key 1 to its bytes. The decoder reads the heads by
hand, from offsets into the input that are `usize`. It takes a byte string of indefinite length
chunk by chunk, up to a break or to the end of the input, and it adds the length of a string to the
offset before it looks whether so many bytes are there.
-/

namespace ZbagKeystone

open Cbor

/-! ## Results and machine integers -/

inductive ZcashPcztUrCborError
  | unexpectedEnd
  | unsupportedAdditionalInfo
  | invalid (message : String)
  deriving DecidableEq, Repr

inductive Failure
  | err (error : ZcashPcztUrCborError)
  | panic
  deriving DecidableEq, Repr

def invalid {α : Type} (message : String) : Except Failure α := .error (.err (.invalid message))

/-- None is longer than `isize::MAX`. -/
structure Slice where
  bytes : List UInt8
  bound : bytes.length < 2 ^ 63
  deriving DecidableEq, Repr

/-- For `usize`: an overflow panics if the build checks for it, and wraps otherwise. -/
def add (checks : Bool) (a b : ℕ) : Except Failure ℕ :=
  if a + b < 2 ^ 64 then .ok (a + b)
  else if checks then .error .panic
  else .ok (a + b - 2 ^ 64)

def get (bytes : List UInt8) (i : ℕ) : Except Failure ℕ :=
  match bytes[i]? with
  | some b => .ok b.toNat
  | none => .error (.err .unexpectedEnd)

/-- `bytes[start..stop].to_vec()`. -/
def slice (bytes : List UInt8) (start stop : ℕ) : Except Failure (List UInt8) :=
  if start ≤ stop ∧ stop ≤ bytes.length then .ok ((bytes.drop start).take (stop - start))
  else .error .panic

def toUsize (message : String) (value : ℕ) : Except Failure ℕ :=
  if value < 2 ^ 64 then .ok value else invalid message

/-! ## The code -/

structure CborHead where
  major : ℕ
  value : ℕ
  offset : ℕ
  indefinite : Bool
  deriving DecidableEq, Repr

def encodeCborMajorLen (major len : ℕ) : List UInt8 :=
  if len < 24 then [.ofNat (major <<< 5 ||| len)]
  else if len < 0x100 then [.ofNat (major <<< 5 ||| 24), .ofNat len]
  else if len < 0x10000 then
    [.ofNat (major <<< 5 ||| 25), .ofNat (len >>> 8), .ofNat (len &&& 0xff)]
  else if len < 0x100000000 then
    [.ofNat (major <<< 5 ||| 26), .ofNat (len >>> 24), .ofNat (len >>> 16), .ofNat (len >>> 8),
      .ofNat (len &&& 0xff)]
  else
    [.ofNat (major <<< 5 ||| 27), .ofNat (len >>> 56), .ofNat (len >>> 48), .ofNat (len >>> 40),
      .ofNat (len >>> 32), .ofNat (len >>> 24), .ofNat (len >>> 16), .ofNat (len >>> 8),
      .ofNat (len &&& 0xff)]

/-- From byte `i` on. -/
def readLong (checks : Bool) (bytes : List UInt8) (next i : ℕ) : ℕ → ℕ → Except Failure ℕ
  | 0, n => .ok n
  | k + 1, n => do
    let b ← get bytes (← add checks next i)
    readLong checks bytes next (i + 1) k (n <<< 8 ||| b)

def readHead (checks : Bool) (bytes : List UInt8) (offset : ℕ) : Except Failure CborHead := do
  let initial ← get bytes offset
  let major := initial >>> 5
  let ai := initial &&& 0x1f
  let next ← add checks offset 1
  if ai < 24 then return ⟨major, ai, next, false⟩
  match ai with
  | 24 =>
    let value ← get bytes next
    return ⟨major, value, ← add checks next 1, false⟩
  | 25 =>
    let b0 ← get bytes next
    let b1 ← get bytes (← add checks next 1)
    return ⟨major, b0 <<< 8 ||| b1, ← add checks next 2, false⟩
  | 26 =>
    let b0 ← get bytes next
    let b1 ← get bytes (← add checks next 1)
    let b2 ← get bytes (← add checks next 2)
    let b3 ← get bytes (← add checks next 3)
    return ⟨major, b0 <<< 24 ||| b1 <<< 16 ||| b2 <<< 8 ||| b3, ← add checks next 4, false⟩
  | 27 =>
    let n ← readLong checks bytes next 0 8 0
    return ⟨major, n, ← add checks next 8, false⟩
  | 31 => return ⟨major, 0, next, true⟩
  | _ => .error (.err .unsupportedAdditionalInfo)

def encodeZcashPcztUrCbor (pcztBytes : List UInt8) : List UInt8 :=
  encodeCborMajorLen 5 1 ++ encodeCborMajorLen 0 1 ++ encodeCborMajorLen 2 pcztBytes.length ++
    pcztBytes

/-- The head must have the argument 1. -/
def expectHead (checks : Bool) (cbor : List UInt8) (offset major : ℕ) (message : String) :
    Except Failure ℕ := do
  let head ← readHead checks cbor offset
  if head.major ≠ major ∨ head.indefinite = true ∨ head.value ≠ 1 then invalid message
  return head.offset

def takeBytes (checks : Bool) (cbor : List UInt8) (tooLarge truncated : String)
    (offset value : ℕ) : Except Failure (List UInt8 × ℕ) := do
  let len ← toUsize tooLarge value
  let stop ← add checks offset len
  if cbor.length < stop then invalid truncated
  let bytes ← slice cbor offset stop
  return (bytes, stop)

def readChunk (checks : Bool) (cbor : List UInt8) (offset : ℕ) :
    Except Failure (List UInt8 × ℕ) := do
  let chunk ← readHead checks cbor offset
  if chunk.major ≠ 2 ∨ chunk.indefinite = true then invalid "invalid chunk"
  takeBytes checks cbor "chunk too large" "truncated chunk" chunk.offset chunk.value

/-! ## Heads -/

theorem add_of_lt {checks : Bool} {a b : ℕ} (h : a + b < 2 ^ 64) : add checks a b = .ok (a + b) :=
  if_pos h

theorem get_add {bytes rest : List UInt8} {offset : ℕ} (h : bytes.drop offset = rest) (i : ℕ) :
    get bytes (offset + i) = get rest i := by
  rw [get, get, ← h, List.getElem?_drop]

theorem shiftLeft_or_byte (n : ℕ) (b : UInt8) : n <<< 8 ||| b.toNat = n * 256 + b.toNat := by
  rw [← Nat.shiftLeft_add_eq_or_of_lt b.toNat_lt, Nat.shiftLeft_eq]

theorem shiftLeft_or_bytes (b₀ b₁ b₂ b₃ : UInt8) :
    b₀.toNat <<< 24 ||| b₁.toNat <<< 16 ||| b₂.toNat <<< 8 ||| b₃.toNat =
      ((b₀.toNat * 256 + b₁.toNat) * 256 + b₂.toNat) * 256 + b₃.toNat := by
  simp only [← shiftLeft_or_byte, Nat.shiftLeft_or_distrib, ← Nat.shiftLeft_add]

theorem shiftRight_major (b : UInt8) : b.toNat >>> 5 = majorOf b := by
  rw [Nat.shiftRight_eq_div_pow]
  rfl

theorem and_info (b : UInt8) : b.toNat &&& 0x1f = infoOf b :=
  Nat.and_two_pow_sub_one_eq_mod b.toNat 5

def headOf (offset : ℕ) (lead : Lead) : CborHead :=
  ⟨lead.major, lead.arg, offset + lead.encode.length, lead.isIndefinite⟩

def headResult (offset : ℕ) : Except LeadError (Lead × List UInt8) → Except Failure CborHead
  | .ok (lead, _) => .ok (headOf offset lead)
  | .error .ended => .error (.err .unexpectedEnd)
  | .error .reserved => .error (.err .unsupportedAdditionalInfo)

theorem headResult_readArg {major : Fin 8} {w : Width} (hw : w ≠ .inline) (offset : ℕ)
    (rest : List UInt8) : headResult offset (readArg major w hw rest) =
      if w.size ≤ rest.length then
        .ok ⟨major, beValue (rest.take w.size), offset + 1 + w.size, false⟩
      else .error (.err .unexpectedEnd) := by
  unfold readArg
  split_ifs
  · simp [headResult, headOf, Lead.major, Lead.arg, Lead.isIndefinite, Lead.encode, Nat.add_assoc,
      Nat.add_comm]
  · rfl

theorem readLong_eq {checks : Bool} {bytes tail : List UInt8} {next i : ℕ} (k n : ℕ)
    (hdrop : bytes.drop (next + i) = tail) (hbound : next + i + k < 2 ^ 64) :
    readLong checks bytes next i k n =
      if k ≤ tail.length then .ok ((tail.take k).foldl (fun n b => n * 256 + b.toNat) n)
      else .error (.err .unexpectedEnd) := by
  induction k generalizing i n tail with
  | zero => simp [readLong]
  | succ k ih =>
    have hget : get bytes (next + i) = get tail 0 := get_add hdrop 0
    rw [readLong, add_of_lt (by omega)]
    cases tail with
    | nil =>
      simp only [bind, Except.bind, hget]
      rfl
    | cons b tail =>
      have hdrop' : bytes.drop (next + (i + 1)) = tail :=
        drop_add_of_append (a := [b]) hdrop
      simp only [bind, Except.bind, hget]
      rw [show get (b :: tail) 0 = .ok b.toNat from rfl]
      simp only [shiftLeft_or_byte]
      rw [ih _ hdrop' (by omega)]
      simp

section readHead

variable {checks : Bool} {bytes rest : List UInt8} {offset : ℕ}

/-- **`read_head` reads the head at the offset.** -/
theorem readHead_eq (hbound : bytes.length < 2 ^ 63) :
    readHead checks bytes offset = headResult offset (readLead (bytes.drop offset)) := by
  have hget0 : get bytes offset = get (bytes.drop offset) 0 := get_add rfl 0
  unfold readHead
  rw [hget0]
  cases hdrop : bytes.drop offset with
  | nil => rfl
  | cons initial rest =>
    have hoffset : offset < bytes.length := by
      by_contra hge
      simp [List.drop_eq_nil_of_le (Nat.le_of_not_lt hge)] at hdrop
    have hrest : bytes.drop (offset + 1) = rest := drop_add_of_append (a := [initial]) hdrop
    have hget (i : ℕ) : get bytes (offset + 1 + i) = get rest i := get_add hrest i
    have hadd (i : ℕ) (hi : i ≤ 9) : add checks offset i = .ok (offset + i) :=
      add_of_lt (by omega)
    have hadd1 (i : ℕ) (hi : i ≤ 8) : add checks (offset + 1) i = .ok (offset + 1 + i) :=
      add_of_lt (by omega)
    rw [show get (initial :: rest) 0 = .ok initial.toNat from rfl]
    simp only [bind, Except.bind, hadd 1 (by decide), shiftRight_major, and_info, readLead]
    generalize infoOf initial = ai
    generalize majorOf initial = major
    by_cases hai : ai < 24
    · rw [if_pos hai, readInfo, dif_pos hai]
      simp [headResult, headOf, Lead.major, Lead.arg, Lead.isIndefinite, Lead.encode, Width.size,
        pure, Except.pure]
    · rw [if_neg hai]
      have hnext : get bytes (offset + 1) = get rest 0 := hget 0
      split
      · rw [readInfo_one, headResult_readArg, hnext]
        cases rest with
        | nil => rfl
        | cons b₀ rest => simp [get, hadd1, beValue, Width.size, pure, Except.pure]
      · rw [readInfo_two, headResult_readArg, hnext, hadd1 1 (by decide), hadd1 2 (by decide)]
        simp only [hget]
        rcases rest with _ | ⟨b₀, _ | ⟨b₁, rest⟩⟩
        · rfl
        · rfl
        · simp [get, shiftLeft_or_byte, beValue, Width.size, pure, Except.pure]
      · rw [readInfo_four, headResult_readArg, hnext, hadd1 1 (by decide), hadd1 2 (by decide),
          hadd1 3 (by decide), hadd1 4 (by decide)]
        simp only [hget]
        rcases rest with _ | ⟨b₀, _ | ⟨b₁, _ | ⟨b₂, _ | ⟨b₃, rest⟩⟩⟩⟩
        · rfl
        · rfl
        · rfl
        · rfl
        · simp [get, shiftLeft_or_bytes, beValue, Width.size, pure, Except.pure]
      · have hrest' : bytes.drop (offset + 1 + 0) = rest := hrest
        rw [readInfo_eight, headResult_readArg, readLong_eq 8 0 hrest' (by omega),
          hadd1 8 (by decide)]
        by_cases hlen : 8 ≤ rest.length
        · rw [if_pos hlen, if_pos (show Width.eight.size ≤ rest.length from hlen)]
          rfl
        · rw [if_neg hlen, if_neg (show ¬ Width.eight.size ≤ rest.length from hlen)]
      · rfl
      next h₁ h₂ h₄ h₈ h₃₁ =>
        rw [readInfo_reserved major rest hai h₁ h₂ h₄ h₈ h₃₁]
        rfl

theorem readHead_of_lead {lead : Lead} (hbound : bytes.length < 2 ^ 63)
    (hdrop : bytes.drop offset = lead.encode ++ rest) :
    readHead checks bytes offset = .ok (headOf offset lead) := by
  rw [readHead_eq hbound, hdrop, readLead_append]
  rfl

/-- **Either there is a head at the offset, or it is an error.** -/
theorem readHead_cases (checks : Bool) (offset : ℕ) (hbound : bytes.length < 2 ^ 63) :
    (∃ (lead : Lead) (rest : List UInt8), bytes.drop offset = lead.encode ++ rest) ∨
      (∀ (lead : Lead) (rest : List UInt8), bytes.drop offset ≠ lead.encode ++ rest) ∧
        ∃ e, readHead checks bytes offset = .error (.err e) := by
  rw [readHead_eq hbound]
  cases hlead : readLead (bytes.drop offset) with
  | ok r => exact .inl ⟨r.1, r.2, readLead_eq_ok_iff.mp hlead⟩
  | error e =>
    refine .inr ⟨fun lead rest hdrop => ?_, ?_⟩
    · rw [hdrop, readLead_append] at hlead
      cases hlead
    · cases e with
      | ended | reserved => exact ⟨_, rfl⟩

end readHead

/-! ## Strings and chunks -/

section strings

variable {checks : Bool} {cbor rest : List UInt8} {offset : ℕ}

/-- **The bytes of a string**, if all are there; without overflow checks the slice panics. -/
theorem takeBytes_eq (hbound : cbor.length < 2 ^ 63) (hoffset : offset ≤ cbor.length)
    (hdrop : cbor.drop offset = rest) {value : ℕ} (hvalue : value < 2 ^ 64)
    (tooLarge truncated : String) :
    takeBytes checks cbor tooLarge truncated offset value =
      if 2 ^ 64 ≤ offset + value then .error .panic
      else if rest.length < value then invalid truncated
      else .ok (rest.take value, offset + value) := by
  have hlen := length_of_drop hoffset hdrop
  unfold takeBytes
  simp only [toUsize, if_pos hvalue, bind, Except.bind]
  by_cases hover : 2 ^ 64 ≤ offset + value
  · rw [if_pos hover, add, if_neg (Nat.not_lt.mpr hover)]
    cases checks with
    | true => rfl
    | false =>
      have hstop : ¬ cbor.length < offset + value - 2 ^ 64 := by omega
      have hslice : ¬ (offset ≤ offset + value - 2 ^ 64 ∧ offset + value - 2 ^ 64 ≤ cbor.length) :=
        by omega
      simp only [Bool.false_eq_true, if_false, if_neg hstop, slice, if_neg hslice]
  · rw [if_neg hover, add_of_lt (Nat.lt_of_not_le hover)]
    by_cases hshort : rest.length < value
    · have hend : cbor.length < offset + value := by omega
      simp only [if_pos hshort, if_pos hend]
      rfl
    · have hend : ¬ cbor.length < offset + value := by omega
      have hslice : offset ≤ offset + value ∧ offset + value ≤ cbor.length := by omega
      simp only [if_neg hshort, if_neg hend, slice, if_pos hslice, hdrop, Nat.add_sub_cancel_left]
      rfl

theorem readChunk_of_head {h : Head} (hbound : cbor.length < 2 ^ 63)
    (hdrop : cbor.drop offset = h.encode ++ rest) (hmajor : h.major = 2) :
    readChunk checks cbor offset =
      if 2 ^ 64 ≤ offset + h.encode.length + h.arg then .error .panic
      else if rest.length < h.arg then invalid "truncated chunk"
      else .ok (rest.take h.arg, offset + h.encode.length + h.arg) := by
  have hlead : cbor.drop offset = (Lead.definite h).encode ++ rest := hdrop
  have hlength := length_of_lead hlead
  have harg := (Lead.definite h).arg_lt
  have hnext : offset + h.encode.length ≤ cbor.length := by
    rw [← hlength]
    exact Nat.le_add_right _ _
  unfold readChunk
  rw [readHead_of_lead hbound hlead]
  have hstring : ¬ ((headOf offset (.definite h)).major ≠ 2 ∨
      (headOf offset (.definite h)).indefinite = true) := by
    simp [headOf, Lead.major, Lead.isIndefinite, hmajor]
  simp only [bind, Except.bind, if_neg hstring]
  exact takeBytes_eq hbound hnext (drop_add_of_append hdrop) harg _ _

theorem readChunk_of_other (checks : Bool) (hbound : cbor.length < 2 ^ 63)
    (hother : ∀ (h : Head) rest, cbor.drop offset = h.encode ++ rest → h.major ≠ 2) :
    ∃ e, readChunk checks cbor offset = .error (.err e) := by
  unfold readChunk
  rcases readHead_cases checks offset hbound with ⟨lead, rest, hdrop⟩ | ⟨-, e, he⟩
  · rw [readHead_of_lead hbound hdrop]
    have hinvalid : (headOf offset lead).major ≠ 2 ∨ (headOf offset lead).indefinite = true := by
      cases lead with
      | definite h =>
        refine .inl fun hmajor => hother h rest hdrop (Fin.ext hmajor)
      | indefinite major => exact .inr rfl
    simp only [bind, Except.bind, if_pos hinvalid]
    exact ⟨_, rfl⟩
  · rw [he]
    exact ⟨e, rfl⟩

/-- **A chunk is read as it is written.** -/
theorem readsChunk (checks : Bool) (hbound : cbor.length < 2 ^ 63) :
    ReadsChunk cbor (readChunk checks cbor) 2 := by
  refine readsChunk_of (fun offset h rest data next hdrop hmajor => ?_)
    fun offset r hother hok => ?_
  · have hlead : cbor.drop offset = (Lead.definite h).encode ++ rest := hdrop
    have hlength : offset + h.encode.length + rest.length = cbor.length := length_of_lead hlead
    rw [readChunk_of_head hbound hdrop hmajor]
    constructor
    · intro hok
      split_ifs at hok with hover hshort
      · cases hok
      · obtain ⟨rfl, rfl⟩ := Prod.mk.inj (Except.ok.inj hok)
        exact ⟨Nat.le_of_not_lt hshort, rfl, rfl⟩
    · rintro ⟨hlen, rfl, rfl⟩
      rw [if_neg (by omega), if_neg (by omega)]
  · obtain ⟨e, he⟩ := readChunk_of_other checks hbound hother
    rw [he] at hok
    cases hok

theorem readChunk_lt (checks : Bool) (hbound : cbor.length < 2 ^ 63) (offset : ℕ)
    (data : List UInt8) (next : ℕ) (hok : readChunk checks cbor offset = .ok (data, next)) :
    offset < next := by
  obtain ⟨c, rest, -, -, rfl⟩ := (readsChunk checks hbound offset data next).mp hok
  exact Nat.lt_add_of_pos_right (c.length_encode_pos 2)

end strings

/-! ## The decoder -/

def decodeByteString (checks : Bool) (cbor : Slice) (offset : ℕ) : Except Failure (List UInt8) := do
  let value ← readHead checks cbor.bytes offset
  if value.major ≠ 2 then invalid "expected byte string"
  if value.indefinite = false then
    let (bytes, offset) ← takeBytes checks cbor.bytes "byte string too large" "truncated data"
      value.offset value.value
    if offset ≠ cbor.bytes.length then invalid "trailing bytes"
    return bytes
  let (chunks, offset) ← readChunks cbor.bytes (readChunk checks cbor.bytes)
    (readChunk_lt checks cbor.bound) value.offset []
  if offset ≠ cbor.bytes.length then invalid "trailing bytes"
  return chunks.flatten

def decodeZcashPcztUrCbor (checks : Bool) (cbor : Slice) : Except Failure (List UInt8) := do
  let offset ← expectHead checks cbor.bytes 0 5 "expected map(1)"
  let offset ← expectHead checks cbor.bytes offset 0 "expected key 1"
  decodeByteString checks cbor offset

/-! ## Payloads -/

def openString : UInt8 := initialByte 2 31

/-- The map has the single key 1, and `rest` after it. -/
def Opens (x rest : List UInt8) : Prop :=
  ∃ map key : Head, map.major = 5 ∧ map.arg = 1 ∧ key.major = 0 ∧ key.arg = 1 ∧
    x = map.encode ++ (key.encode ++ rest)

def chunkBytes (cs : List Chunk) : List UInt8 := cs.flatMap (Chunk.encode 2)

def payloadOf (cs : List Chunk) : List UInt8 := (cs.map Chunk.data).flatten

/-- **The well-formed encodings of `p`**: the map of 1 to a string of definite length, or to chunks.
-/
def Encodes (p x : List UInt8) : Prop :=
  (∃ h : Head, h.major = 2 ∧ h.arg = p.length ∧ Opens x (h.encode ++ p)) ∨
    ∃ cs, payloadOf cs = p ∧ Opens x (openString :: (chunkBytes cs ++ [breakByte]))

def Unterminated (x : List UInt8) : Prop := ∃ cs, Opens x (openString :: chunkBytes cs)

/-- A length that the decoder comes to does not fit behind its offset into 64 bits. -/
def Overflows (x : List UInt8) : Prop :=
  ∃ (h : Head) (tail : List UInt8), h.major = 2 ∧
    (Opens x (h.encode ++ tail) ∨
      ∃ cs, Opens x (openString :: (chunkBytes cs ++ (h.encode ++ tail)))) ∧
    2 ^ 64 ≤ x.length - tail.length + h.arg

theorem chunkBytes_break_ne (cs cs' : List Chunk) :
    chunkBytes cs ++ [breakByte] ≠ chunkBytes cs' := by
  induction cs generalizing cs' with
  | nil =>
    cases cs' with
    | nil => exact nofun
    | cons c cs' => exact fun heq => Chunk.encode_ne_break heq.symm
  | cons c cs ih =>
    cases cs' with
    | nil => simp [chunkBytes]
    | cons c' cs' =>
      intro heq
      have hcons : c.encode 2 ++ (chunkBytes cs ++ [breakByte]) =
          c'.encode 2 ++ chunkBytes cs' := by
        rw [← List.append_assoc]
        exact heq
      exact ih cs' (Chunk.encode_append_inj hcons).2

/-! ## The map and its key -/

section opening

variable {checks : Bool} {cbor rest : List UInt8} {offset : ℕ}

theorem expectHead_of_head (checks : Bool) (message : String) {h : Head} {major : Fin 8}
    (hbound : cbor.length < 2 ^ 63) (hdrop : cbor.drop offset = h.encode ++ rest)
    (hmajor : h.major = major) (harg : h.arg = 1) :
    expectHead checks cbor offset major message = .ok (offset + h.encode.length) := by
  have hlead : cbor.drop offset = (Lead.definite h).encode ++ rest := hdrop
  have hvalid : ¬ ((headOf offset (.definite h)).major ≠ major ∨
      (headOf offset (.definite h)).indefinite = true ∨
      (headOf offset (.definite h)).value ≠ 1) := by
    simp [headOf, Lead.major, Lead.isIndefinite, Lead.arg, hmajor, harg]
  unfold expectHead
  rw [readHead_of_lead hbound hlead]
  simp only [bind, Except.bind, if_neg hvalid]
  rfl

theorem expectHead_of_other (checks : Bool) (message : String) {major : Fin 8}
    (hbound : cbor.length < 2 ^ 63)
    (hother : ∀ (h : Head) rest, cbor.drop offset = h.encode ++ rest → h.major = major →
      h.arg ≠ 1) :
    ∃ e, expectHead checks cbor offset major message = .error (.err e) := by
  unfold expectHead
  rcases readHead_cases checks offset hbound with ⟨lead, rest, hdrop⟩ | ⟨-, e, he⟩
  · rw [readHead_of_lead hbound hdrop]
    have hinvalid : (headOf offset lead).major ≠ major ∨
        (headOf offset lead).indefinite = true ∨ (headOf offset lead).value ≠ 1 := by
      cases lead with
      | definite h =>
        by_cases hmajor : h.major = major
        · exact .inr (.inr (hother h rest hdrop hmajor))
        · exact .inl fun heq => hmajor (Fin.ext heq)
      | indefinite major => exact .inr (.inl rfl)
    simp only [bind, Except.bind, if_pos hinvalid]
    exact ⟨_, rfl⟩
  · rw [he]
    exact ⟨e, rfl⟩

theorem Opens.unique {x rest rest' : List UInt8} (h : Opens x rest) (h' : Opens x rest') :
    rest = rest' := by
  obtain ⟨map, key, -, -, -, -, rfl⟩ := h
  obtain ⟨map', key', -, -, -, -, heq⟩ := h'
  have hmap : (Lead.definite map).encode ++ (key.encode ++ rest) =
    (Lead.definite map').encode ++ (key'.encode ++ rest') := heq
  have hkey : (Lead.definite key).encode ++ rest = (Lead.definite key').encode ++ rest' :=
    (encode_append_inj hmap).2
  exact (encode_append_inj hkey).2

/-- **After the key, the decoder is at the value.** -/
theorem decode_of_opens (checks : Bool) {x : Slice} (h : Opens x.bytes rest) :
    x.bytes.drop (x.bytes.length - rest.length) = rest ∧
      decodeZcashPcztUrCbor checks x =
        decodeByteString checks x (x.bytes.length - rest.length) := by
  obtain ⟨map, key, hmap, hmapArg, hkey, hkeyArg, hx⟩ := h
  have hdrop : x.bytes.drop 0 = map.encode ++ (key.encode ++ rest) := hx
  have hdrop' := drop_add_of_append hdrop
  have hoffset : x.bytes.length - rest.length = 0 + map.encode.length + key.encode.length := by
    rw [hx]
    simp only [List.length_append]
    omega
  rw [hoffset]
  refine ⟨drop_add_of_append hdrop', ?_⟩
  have hmap' : expectHead checks x.bytes 0 5 "expected map(1)" = .ok (0 + map.encode.length) :=
    expectHead_of_head checks _ x.bound hdrop hmap hmapArg
  have hkey' : expectHead checks x.bytes (0 + map.encode.length) 0 "expected key 1" =
      .ok (0 + map.encode.length + key.encode.length) :=
    expectHead_of_head checks _ x.bound hdrop' hkey hkeyArg
  simp only [decodeZcashPcztUrCbor, bind, Except.bind, hmap', hkey']

/-- **Without the map or its key the input is refused.** -/
theorem decode_of_not_opens (checks : Bool) {x : Slice} (h : ∀ rest, ¬ Opens x.bytes rest) :
    ∃ e, decodeZcashPcztUrCbor checks x = .error (.err e) := by
  by_cases hmap : ∃ (map : Head) (rest : List UInt8),
    x.bytes.drop 0 = map.encode ++ rest ∧ map.major = 5 ∧ map.arg = 1
  · obtain ⟨map, rest, hdrop, hmajor, harg⟩ := hmap
    have hmap' : expectHead checks x.bytes 0 5 "expected map(1)" = .ok (0 + map.encode.length) :=
      expectHead_of_head checks _ x.bound hdrop hmajor harg
    have hkey : ∀ (key : Head) rest', x.bytes.drop (0 + map.encode.length) = key.encode ++ rest' →
        key.major = 0 → key.arg ≠ 1 := by
      intro key rest' hdrop' hkey hkeyArg
      rw [drop_add_of_append hdrop] at hdrop'
      subst hdrop'
      exact h rest' ⟨map, key, hmajor, harg, hkey, hkeyArg, hdrop⟩
    obtain ⟨e, he⟩ : ∃ e, expectHead checks x.bytes (0 + map.encode.length) 0 "expected key 1" =
        .error (.err e) := expectHead_of_other checks _ x.bound hkey
    simp only [decodeZcashPcztUrCbor, bind, Except.bind, hmap', he]
    exact ⟨e, rfl⟩
  · have hother : ∀ (map : Head) rest, x.bytes.drop 0 = map.encode ++ rest → map.major = 5 →
        map.arg ≠ 1 :=
      fun map rest hdrop hmajor harg => hmap ⟨map, rest, hdrop, hmajor, harg⟩
    obtain ⟨e, he⟩ : ∃ e, expectHead checks x.bytes 0 5 "expected map(1)" = .error (.err e) :=
      expectHead_of_other checks _ x.bound hother
    simp only [decodeZcashPcztUrCbor, bind, Except.bind, he]
    exact ⟨e, rfl⟩

end opening

/-! ## The byte string -/

section byteString

variable {checks : Bool} {x : Slice} {rest tail : List UInt8} {offset : ℕ}

theorem decodeByteString_of_head {h : Head} (hdrop : x.bytes.drop offset = h.encode ++ tail)
    (hmajor : h.major = 2) : decodeByteString checks x offset =
      if 2 ^ 64 ≤ offset + h.encode.length + h.arg then .error .panic
      else if tail.length < h.arg then invalid "truncated data"
      else if h.arg ≠ tail.length then invalid "trailing bytes"
      else .ok tail := by
  have hlead : x.bytes.drop offset = (Lead.definite h).encode ++ tail := hdrop
  have hlength : offset + h.encode.length + tail.length = x.bytes.length := length_of_lead hlead
  have hstring : ¬ (headOf offset (.definite h)).major ≠ 2 := by
    simp [headOf, Lead.major, hmajor]
  have htake : takeBytes checks x.bytes "byte string too large" "truncated data"
      (headOf offset (.definite h)).offset (headOf offset (.definite h)).value =
        if 2 ^ 64 ≤ offset + h.encode.length + h.arg then .error .panic
        else if tail.length < h.arg then invalid "truncated data"
        else .ok (tail.take h.arg, offset + h.encode.length + h.arg) :=
    takeBytes_eq x.bound (Nat.le_of_add_right_le hlength.le) (drop_add_of_append hdrop)
      (Lead.definite h).arg_lt _ _
  unfold decodeByteString
  rw [readHead_of_lead x.bound hlead]
  simp only [bind, Except.bind, if_neg hstring]
  rw [if_pos (show (headOf offset (.definite h)).indefinite = false from rfl), htake]
  by_cases hover : 2 ^ 64 ≤ offset + h.encode.length + h.arg
  · simp only [if_pos hover]
  · by_cases hshort : tail.length < h.arg
    · simp only [if_neg hover, if_pos hshort]
      rfl
    · simp only [if_neg hover, if_neg hshort]
      by_cases htrailing : h.arg ≠ tail.length
      · rw [if_pos htrailing, if_pos (by omega)]
        rfl
      · rw [if_neg htrailing, if_neg (by omega), List.take_of_length_le (by omega)]
        rfl

def joinChunks (cbor : Slice) (r : List (List UInt8) × ℕ) : Except Failure (List UInt8) :=
  if r.2 ≠ cbor.bytes.length then invalid "trailing bytes" else .ok r.1.flatten

theorem decodeByteString_of_open (hdrop : x.bytes.drop offset = openString :: tail) :
    decodeByteString checks x offset =
      (readChunks x.bytes (readChunk checks x.bytes) (readChunk_lt checks x.bound) (offset + 1) []
        >>= joinChunks x) := by
  have hlead : x.bytes.drop offset = (Lead.indefinite 2).encode ++ tail := hdrop
  have hstring : ¬ (headOf offset (.indefinite 2)).major ≠ 2 := by simp [headOf, Lead.major]
  unfold decodeByteString
  rw [readHead_of_lead x.bound hlead]
  simp only [bind, Except.bind, if_neg hstring]
  rw [if_neg (show ¬ (headOf offset (.indefinite 2)).indefinite = false by
    simp [headOf, Lead.isIndefinite]), show (headOf offset (.indefinite 2)).offset = offset + 1
    from rfl]
  cases readChunks x.bytes (readChunk checks x.bytes) (readChunk_lt checks x.bound) (offset + 1) []
    with
  | error e => rfl
  | ok r =>
    dsimp only [joinChunks]
    split_ifs
    · rfl
    · rfl

variable {cs : List Chunk}

theorem decodeByteString_over_chunks
    (hdrop : x.bytes.drop offset = openString :: (chunkBytes cs ++ tail)) :
    decodeByteString checks x offset =
      (readChunks x.bytes (readChunk checks x.bytes) (readChunk_lt checks x.bound)
        (offset + 1 + (chunkBytes cs).length) (cs.map Chunk.data) >>= joinChunks x) := by
  have hdrop' : x.bytes.drop (offset + 1) = chunkBytes cs ++ tail :=
    drop_add_of_append (a := [openString]) hdrop
  rw [decodeByteString_of_open hdrop, readChunks_flatMap (readsChunk checks x.bound) [] hdrop']
  rfl

theorem drop_after_chunks (hdrop : x.bytes.drop offset = openString :: (chunkBytes cs ++ tail)) :
    x.bytes.drop (offset + 1 + (chunkBytes cs).length) = tail ∧
      offset + 1 + (chunkBytes cs).length + tail.length = x.bytes.length := by
  have hlead : x.bytes.drop offset = (Lead.indefinite 2).encode ++ (chunkBytes cs ++ tail) := hdrop
  have hlength : offset + 1 + (chunkBytes cs ++ tail).length = x.bytes.length :=
    length_of_lead hlead
  rw [List.length_append] at hlength
  exact ⟨drop_add_of_append (drop_add_of_append (a := [openString]) hdrop), by omega⟩

theorem decodeByteString_of_cut (hdrop : x.bytes.drop offset = openString :: chunkBytes cs) :
    decodeByteString checks x offset = .ok (payloadOf cs) := by
  have hdrop' : x.bytes.drop offset = openString :: (chunkBytes cs ++ []) := by
    rw [List.append_nil, hdrop]
  obtain ⟨htail, hlength⟩ := drop_after_chunks hdrop'
  rw [decodeByteString_over_chunks hdrop', readChunks_nil _ htail]
  exact if_neg (by simpa using hlength)

theorem decodeByteString_of_break
    (hdrop : x.bytes.drop offset = openString :: (chunkBytes cs ++ breakByte :: tail)) :
    decodeByteString checks x offset =
      if tail = [] then .ok (payloadOf cs) else invalid "trailing bytes" := by
  obtain ⟨htail, hlength⟩ := drop_after_chunks hdrop
  rw [List.length_cons] at hlength
  rw [decodeByteString_over_chunks hdrop, readChunks_break _ htail]
  by_cases hnil : tail = []
  · rw [if_pos hnil]
    exact if_neg (by simpa [hnil] using hlength)
  · have hpos := List.length_pos_iff.mpr hnil
    rw [if_neg hnil]
    exact if_pos (by dsimp only; omega)

theorem decodeByteString_of_error {e : Failure} (hne : tail ≠ [])
    (hbreak : ∀ rest, tail ≠ breakByte :: rest)
    (hdrop : x.bytes.drop offset = openString :: (chunkBytes cs ++ tail))
    (he : readChunk checks x.bytes (offset + 1 + (chunkBytes cs).length) = .error e) :
    decodeByteString checks x offset = .error e := by
  obtain ⟨htail, -⟩ := drop_after_chunks hdrop
  rw [← htail] at hne hbreak
  rw [decodeByteString_over_chunks hdrop, readChunks_error _ hne hbreak he]
  rfl

theorem decodeByteString_of_other (checks : Bool)
    (hhead : ∀ (h : Head) tail, x.bytes.drop offset = h.encode ++ tail → h.major ≠ 2)
    (hopen : ∀ tail, x.bytes.drop offset ≠ openString :: tail) :
    ∃ e, decodeByteString checks x offset = .error (.err e) := by
  unfold decodeByteString
  rcases readHead_cases checks offset x.bound with ⟨lead, rest, hdrop⟩ | ⟨-, e, he⟩
  · rw [readHead_of_lead x.bound hdrop]
    have hinvalid : (headOf offset lead).major ≠ 2 := by
      cases lead with
      | definite h => exact fun hmajor => hhead h rest hdrop (Fin.ext hmajor)
      | indefinite major =>
        intro hmajor
        obtain rfl : major = 2 := Fin.ext hmajor
        exact hopen rest hdrop
    simp only [bind, Except.bind, if_pos hinvalid]
    exact ⟨_, rfl⟩
  · rw [he]
    exact ⟨e, rfl⟩

end byteString

/-! ## What is accepted -/

section decode

variable {checks : Bool} {x : Slice} {p : List UInt8}

/-- **What can stand at the value of the map.** -/
theorem value_cases (checks : Bool) (x : Slice) (offset : ℕ) :
    (∃ (h : Head) (tail : List UInt8), h.major = 2 ∧ x.bytes.drop offset = h.encode ++ tail) ∨
      (∃ cs, x.bytes.drop offset = openString :: chunkBytes cs) ∨
      (∃ cs tail, x.bytes.drop offset = openString :: (chunkBytes cs ++ breakByte :: tail)) ∨
      (∃ cs tail e, tail ≠ [] ∧ (∀ rest, tail ≠ breakByte :: rest) ∧
        x.bytes.drop offset = openString :: (chunkBytes cs ++ tail) ∧
        readChunk checks x.bytes (offset + 1 + (chunkBytes cs).length) = .error e) ∨
      ∃ e, decodeByteString checks x offset = .error (.err e) := by
  by_cases hhead : ∃ (h : Head) (tail : List UInt8),
    h.major = 2 ∧ x.bytes.drop offset = h.encode ++ tail
  · exact .inl hhead
  refine .inr ?_
  by_cases hopen : ∃ tail, x.bytes.drop offset = openString :: tail
  · obtain ⟨tail, hdrop⟩ := hopen
    have hdrop' : x.bytes.drop (offset + 1) = tail := drop_add_of_append (a := [openString]) hdrop
    obtain ⟨cs, stop, htail, hstop⟩ := exists_chunks (readsChunk checks x.bound) (offset + 1)
    rw [hdrop'] at htail
    rw [htail] at hdrop
    rcases hstop with rfl | ⟨rest, rfl⟩ | ⟨hne, hbreak, e, he⟩
    · rw [List.append_nil] at hdrop
      exact .inl ⟨cs, hdrop⟩
    · exact .inr (.inl ⟨cs, rest, hdrop⟩)
    · exact .inr (.inr (.inl ⟨cs, stop, e, hne, hbreak, hdrop, he⟩))
  · refine .inr (.inr (.inr (decodeByteString_of_other checks ?_ ?_)))
    · exact fun h tail hdrop hmajor => hhead ⟨h, tail, hmajor, hdrop⟩
    · exact fun tail hdrop => hopen ⟨tail, hdrop⟩

theorem decode_of_encodes (h : Encodes p x.bytes) : decodeZcashPcztUrCbor checks x = .ok p := by
  rcases h with ⟨h, hmajor, harg, hopens⟩ | ⟨cs, rfl, hopens⟩
  · obtain ⟨hdrop, hdecode⟩ := decode_of_opens checks hopens
    have hlead : x.bytes.drop (x.bytes.length - (h.encode ++ p).length) =
        (Lead.definite h).encode ++ p := hdrop
    have hlength := length_of_lead hlead
    have hbound := x.bound
    rw [hdecode, decodeByteString_of_head hdrop hmajor, if_neg, if_neg, if_neg]
    · exact fun hne => hne harg
    · omega
    · change x.bytes.length - (h.encode ++ p).length + h.encode.length + p.length = _ at hlength
      omega
  · obtain ⟨hdrop, hdecode⟩ := decode_of_opens checks hopens
    rw [hdecode, decodeByteString_of_break hdrop, if_pos rfl]

theorem decode_of_unterminated {cs : List Chunk}
    (h : Opens x.bytes (openString :: chunkBytes cs)) :
    decodeZcashPcztUrCbor checks x = .ok (payloadOf cs) := by
  obtain ⟨hdrop, hdecode⟩ := decode_of_opens checks h
  rw [hdecode, decodeByteString_of_cut hdrop]

/-- **What the decoder accepts**: the encodings, and those that end without their break. -/
theorem decode_eq_ok_iff : decodeZcashPcztUrCbor checks x = .ok p ↔
    Encodes p x.bytes ∨ ∃ cs, payloadOf cs = p ∧ Opens x.bytes (openString :: chunkBytes cs) := by
  constructor
  · intro hok
    by_cases hopens : ∃ rest, Opens x.bytes rest
    · obtain ⟨rest, hopens⟩ := hopens
      obtain ⟨hdrop, hdecode⟩ := decode_of_opens checks hopens
      rw [hdecode] at hok
      rcases value_cases checks x (x.bytes.length - rest.length) with ⟨h, tail, hmajor, hhead⟩ |
        ⟨cs, hcut⟩ | ⟨cs, tail, hbreak⟩ | ⟨cs, tail, e, hne, hbreak, htail, he⟩ | ⟨e, he⟩
      · obtain rfl : rest = h.encode ++ tail := hdrop.symm.trans hhead
        rw [decodeByteString_of_head hdrop hmajor] at hok
        split_ifs at hok with hover hshort htrailing
        · cases hok
        · cases hok
        · obtain rfl := Except.ok.inj hok
          exact .inl (.inl ⟨h, hmajor, not_ne_iff.mp htrailing, hopens⟩)
      · obtain rfl : rest = _ := hdrop.symm.trans hcut
        rw [decodeByteString_of_cut hdrop] at hok
        exact .inr ⟨cs, Except.ok.inj hok, hopens⟩
      · obtain rfl : rest = _ := hdrop.symm.trans hbreak
        rw [decodeByteString_of_break hdrop] at hok
        split_ifs at hok with hnil
        · subst hnil
          exact .inl (.inr ⟨cs, Except.ok.inj hok, hopens⟩)
        · cases hok
      · rw [decodeByteString_of_error hne hbreak htail he] at hok
        cases hok
      · rw [he] at hok
        cases hok
    · obtain ⟨e, he⟩ := decode_of_not_opens checks fun rest h => hopens ⟨rest, h⟩
      rw [he] at hok
      cases hok
  · rintro (h | ⟨cs, rfl, h⟩)
    · exact decode_of_encodes h
    · exact decode_of_unterminated h

theorem panic_of_overflows (h : Overflows x.bytes) :
    decodeZcashPcztUrCbor checks x = .error .panic := by
  obtain ⟨h, tail, hmajor, hopens | ⟨cs, hopens⟩, hover⟩ := h
  · obtain ⟨hdrop, hdecode⟩ := decode_of_opens checks hopens
    have hlead : x.bytes.drop (x.bytes.length - (h.encode ++ tail).length) =
        (Lead.definite h).encode ++ tail := hdrop
    have hlength : x.bytes.length - (h.encode ++ tail).length + h.encode.length + tail.length =
        x.bytes.length := length_of_lead hlead
    rw [hdecode, decodeByteString_of_head hdrop hmajor, if_pos (by omega)]
  · obtain ⟨hdrop, hdecode⟩ := decode_of_opens checks hopens
    obtain ⟨htail, hlength⟩ := drop_after_chunks hdrop
    rw [List.length_append] at hlength
    rw [hdecode]
    refine decodeByteString_of_error (by simp [Head.encode]) (fun rest => head_ne_break) hdrop ?_
    rw [readChunk_of_head x.bound htail hmajor, if_pos (by omega)]

theorem overflow_of_readChunk {offset : ℕ}
    (h : readChunk checks x.bytes offset = .error .panic) :
    ∃ (h : Head) (tail : List UInt8), h.major = 2 ∧ x.bytes.drop offset = h.encode ++ tail ∧
      2 ^ 64 ≤ offset + h.encode.length + h.arg := by
  by_cases hother : ∀ (h : Head) rest, x.bytes.drop offset = h.encode ++ rest → h.major ≠ 2
  · obtain ⟨e, he⟩ := readChunk_of_other checks x.bound hother
    rw [he] at h
    cases h
  · simp only [not_forall, not_not] at hother
    obtain ⟨head, tail, hdrop, hmajor⟩ := hother
    rw [readChunk_of_head x.bound hdrop hmajor] at h
    split_ifs at h with hover hshort
    · exact ⟨head, tail, hmajor, hdrop, hover⟩
    · cases h

/-- **The decoder panics just on the lengths that overflow.** -/
theorem decode_eq_panic_iff :
    decodeZcashPcztUrCbor checks x = .error .panic ↔ Overflows x.bytes := by
  refine ⟨fun hpanic => ?_, panic_of_overflows⟩
  by_cases hopens : ∃ rest, Opens x.bytes rest
  · obtain ⟨rest, hopens⟩ := hopens
    obtain ⟨hdrop, hdecode⟩ := decode_of_opens checks hopens
    rw [hdecode] at hpanic
    rcases value_cases checks x (x.bytes.length - rest.length) with ⟨h, tail, hmajor, hhead⟩ |
      ⟨cs, hcut⟩ | ⟨cs, tail, hbreak⟩ | ⟨cs, tail, e, hne, hbreak, htail, he⟩ | ⟨e, he⟩
    · obtain rfl : rest = h.encode ++ tail := hdrop.symm.trans hhead
      have hlead : x.bytes.drop (x.bytes.length - (h.encode ++ tail).length) =
          (Lead.definite h).encode ++ tail := hdrop
      have hlength : x.bytes.length - (h.encode ++ tail).length + h.encode.length + tail.length =
          x.bytes.length := length_of_lead hlead
      rw [decodeByteString_of_head hdrop hmajor] at hpanic
      split_ifs at hpanic with hover hshort htrailing
      · exact ⟨h, tail, hmajor, .inl hopens, by omega⟩
      · cases hpanic
      · cases hpanic
    · rw [decodeByteString_of_cut hcut] at hpanic
      cases hpanic
    · rw [decodeByteString_of_break hbreak] at hpanic
      split_ifs at hpanic
      cases hpanic
    · rw [decodeByteString_of_error hne hbreak htail he] at hpanic
      obtain rfl := Except.error.inj hpanic
      obtain ⟨h, tail', hmajor, hdrop', hover⟩ := overflow_of_readChunk he
      obtain ⟨hstop, hlength⟩ := drop_after_chunks htail
      obtain rfl : tail = h.encode ++ tail' := hstop.symm.trans hdrop'
      obtain rfl : rest = _ := hdrop.symm.trans htail
      rw [List.length_append] at hlength
      exact ⟨h, tail', hmajor, .inr ⟨cs, hopens⟩, by omega⟩
    · rw [he] at hpanic
      cases hpanic
  · obtain ⟨e, he⟩ := decode_of_not_opens checks fun rest h => hopens ⟨rest, h⟩
    rw [he] at hpanic
    cases hpanic

end decode

theorem not_encodes_of_unterminated {p x : List UInt8} (h : Unterminated x) : ¬ Encodes p x := by
  obtain ⟨cs, hcut⟩ := h
  rintro (⟨h, -, -, hopens⟩ | ⟨cs', -, hopens⟩)
  · have hlead : (Lead.definite h).encode ++ p = (Lead.indefinite 2).encode ++ chunkBytes cs :=
      hopens.unique hcut
    cases (encode_append_inj hlead).1
  · exact chunkBytes_break_ne cs' cs (List.cons.inj (hopens.unique hcut)).2

/-- It returns the payload of the well-formed encodings, and an error for everything else. -/
def Correct (checks : Bool) (x : Slice) : Prop :=
  (∀ p, decodeZcashPcztUrCbor checks x = .ok p ↔ Encodes p x.bytes) ∧
    decodeZcashPcztUrCbor checks x ≠ .error .panic

/-- **The decoder is correct on an input if and only if** this does not end behind complete chunks,
and no length that is read overflows. -/
theorem decode_correct_iff (checks : Bool) (x : Slice) :
    Correct checks x ↔ ¬ Unterminated x.bytes ∧ ¬ Overflows x.bytes := by
  constructor
  · rintro ⟨hok, hpanic⟩
    refine ⟨fun hcut => ?_, fun hover => hpanic (decode_eq_panic_iff.mpr hover)⟩
    obtain ⟨cs, hopens⟩ := hcut
    exact not_encodes_of_unterminated ⟨cs, hopens⟩ ((hok _).mp (decode_of_unterminated hopens))
  · rintro ⟨hcut, hover⟩
    refine ⟨fun p => ?_, fun hpanic => hover (decode_eq_panic_iff.mp hpanic)⟩
    rw [decode_eq_ok_iff]
    exact or_iff_left fun ⟨cs, _, hopens⟩ => hcut ⟨cs, hopens⟩

def openInput : Slice := ⟨[0xa1, 0x01, 0x5f], by decide⟩

/-- The greatest length that a head can give. -/
def longInput : Slice := ⟨[0xa1, 0x01, 0x5b] ++ List.replicate 8 0xff, by decide⟩

theorem decode_incorrect : (∀ checks, decodeZcashPcztUrCbor checks openInput = .ok []) ∧
    (∀ p, ¬ Encodes p openInput.bytes) ∧
    ∀ checks, decodeZcashPcztUrCbor checks longInput = .error .panic := by
  have hopen : Opens openInput.bytes (openString :: chunkBytes []) :=
    ⟨⟨5, .inline, 1, by decide⟩, ⟨0, .inline, 1, by decide⟩, rfl, rfl, rfl, rfl, by decide⟩
  have hlong : Opens longInput.bytes
      ((⟨2, .eight, 2 ^ 64 - 1, by decide⟩ : Head).encode ++ []) :=
    ⟨⟨5, .inline, 1, by decide⟩, ⟨0, .inline, 1, by decide⟩, rfl, rfl, rfl, rfl, by decide⟩
  refine ⟨fun checks => decode_of_unterminated hopen,
    fun p => not_encodes_of_unterminated ⟨[], hopen⟩, fun checks => ?_⟩
  exact decode_eq_panic_iff.mpr ⟨_, [], rfl, .inl hlong, by decide⟩

end ZbagKeystone
