import Mathlib.Algebra.Order.Ring.Nat
import Mathlib.Data.List.Basic
import Mathlib.Data.List.Induction
import Mathlib.Tactic.Ring

/-!
# CBOR — heads and items

An item of CBOR begins with a head: a major type and an argument, which is written into the first
byte or into one, two, four or eight bytes after it. The same argument can have heads of several
widths, and all of them are well formed. An item of indefinite length begins with a byte of its own
and ends with a break.

* `readLead`: reads one of them; **`readLead_eq_ok_iff`**: it undoes `Lead.encode`, so that heads
  are not ambiguous.
-/

namespace Cbor

-- for the numerals of the major types
scoped instance neZero_eight : NeZero 8 := ⟨by decide⟩

/-! ## Big-endian numbers -/

/-- Big-endian. -/
def beBytes : ℕ → ℕ → List UInt8
  | 0, _ => []
  | k + 1, n => beBytes k (n / 256) ++ [UInt8.ofNat n]

def beValue (bs : List UInt8) : ℕ := bs.foldl (fun n b => n * 256 + b.toNat) 0

@[simp] theorem length_beBytes (k n : ℕ) : (beBytes k n).length = k := by
  induction k generalizing n with
  | zero => rfl
  | succ k ih => simp [beBytes, ih]

@[simp] theorem beValue_nil : beValue [] = 0 := rfl

theorem beValue_concat (bs : List UInt8) (b : UInt8) :
    beValue (bs ++ [b]) = beValue bs * 256 + b.toNat := by
  simp [beValue]

theorem beValue_lt (bs : List UInt8) : beValue bs < 256 ^ bs.length := by
  induction bs using List.reverseRecOn with
  | nil => simp
  | append_singleton bs b ih =>
    have hb := b.toNat_lt
    rw [beValue_concat, List.length_append, List.length_singleton, pow_succ]
    omega

theorem beValue_beBytes {k n : ℕ} (h : n < 256 ^ k) : beValue (beBytes k n) = n := by
  induction k generalizing n with
  | zero =>
    have hzero : n = 0 := by simpa using h
    simp [beBytes, hzero]
  | succ k ih =>
    have hdiv : n / 256 < 256 ^ k := by
      rw [pow_succ] at h
      exact Nat.div_lt_of_lt_mul (by rwa [mul_comm])
    rw [beBytes, beValue_concat, ih hdiv, UInt8.toNat_ofNat']
    omega

theorem beBytes_beValue (bs : List UInt8) : beBytes bs.length (beValue bs) = bs := by
  induction bs using List.reverseRecOn with
  | nil => rfl
  | append_singleton bs b ih =>
    have hb := b.toNat_lt
    have hdiv : (beValue bs * 256 + b.toNat) / 256 = beValue bs := by omega
    have hlast : UInt8.ofNat (beValue bs * 256 + b.toNat) = b := by
      rw [← UInt8.toNat_inj, UInt8.toNat_ofNat']
      omega
    rw [List.length_append, List.length_singleton, beBytes, beValue_concat, hdiv, ih, hlast]

/-! ## Heads -/

inductive Width
  | inline
  | one
  | two
  | four
  | eight
  deriving DecidableEq, Repr

namespace Width

def size : Width → ℕ
  | inline => 0
  | one => 1
  | two => 2
  | four => 4
  | eight => 8

def bound : Width → ℕ
  | inline => 24
  | one => 2 ^ 8
  | two => 2 ^ 16
  | four => 2 ^ 32
  | eight => 2 ^ 64

def info (w : Width) (arg : ℕ) : ℕ :=
  match w with
  | inline => arg
  | one => 24
  | two => 25
  | four => 26
  | eight => 27

theorem bound_eq_pow {w : Width} (h : w ≠ inline) : w.bound = 256 ^ w.size := by
  cases w with
  | inline => exact absurd rfl h
  | one | two | four | eight => rfl

theorem bound_le (w : Width) : w.bound ≤ 2 ^ 64 := by
  cases w <;> decide

theorem info_lt {w : Width} {arg : ℕ} (h : arg < w.bound) : w.info arg < 28 := by
  cases w with
  | inline =>
    have harg : arg < 24 := h
    exact Nat.lt_of_lt_of_le harg (by decide)
  | one | two | four | eight => simp [info]

end Width

structure Head where
  major : Fin 8
  width : Width
  arg : ℕ
  fits : arg < width.bound
  deriving DecidableEq, Repr

def initialByte (major : Fin 8) (info : ℕ) : UInt8 := UInt8.ofNat (major * 32 + info)

def majorOf (initial : UInt8) : Fin 8 := ⟨initial.toNat / 32, by have := initial.toNat_lt; omega⟩

def infoOf (initial : UInt8) : ℕ := initial.toNat % 32

section initialByte

variable {major : Fin 8} {info : ℕ}

theorem toNat_initialByte (h : info < 32) :
    (initialByte major info).toNat = major * 32 + info := by
  rw [initialByte, UInt8.toNat_ofNat']
  omega

theorem majorOf_initialByte (h : info < 32) : majorOf (initialByte major info) = major := by
  apply Fin.ext
  change (initialByte major info).toNat / 32 = major
  rw [toNat_initialByte h]
  omega

theorem infoOf_initialByte (h : info < 32) : infoOf (initialByte major info) = info := by
  rw [infoOf, toNat_initialByte h]
  omega

theorem initialByte_of (b : UInt8) : initialByte (majorOf b) (infoOf b) = b := by
  have hb := b.toNat_lt
  have hinfo : infoOf b < 32 := Nat.mod_lt _ (by decide)
  rw [← UInt8.toNat_inj, toNat_initialByte hinfo]
  change b.toNat / 32 * 32 + b.toNat % 32 = b.toNat
  omega

end initialByte

namespace Head

def encode (h : Head) : List UInt8 :=
  initialByte h.major (h.width.info h.arg) :: beBytes h.width.size h.arg

@[simp] theorem length_encode (h : Head) : h.encode.length = h.width.size + 1 := by
  simp [encode]

end Head

/-- With a head, or with a byte that promises a break. -/
inductive Lead
  | definite (h : Head)
  | indefinite (major : Fin 8)
  deriving DecidableEq, Repr

namespace Lead

def major : Lead → Fin 8
  | definite h => h.major
  | indefinite major => major

def arg : Lead → ℕ
  | definite h => h.arg
  | indefinite _ => 0

def isIndefinite : Lead → Bool
  | definite _ => false
  | indefinite _ => true

def encode : Lead → List UInt8
  | definite h => h.encode
  | indefinite major => [initialByte major 31]

theorem arg_lt (lead : Lead) : lead.arg < 2 ^ 64 := by
  cases lead with
  | definite h => exact Nat.lt_of_lt_of_le h.fits h.width.bound_le
  | indefinite major => exact Nat.two_pow_pos 64

theorem encode_ne_nil (lead : Lead) : lead.encode ≠ [] := by
  cases lead <;> simp [encode, Head.encode]

theorem length_encode_pos (lead : Lead) : 0 < lead.encode.length :=
  List.length_pos_iff.mpr lead.encode_ne_nil

end Lead

/-! ## Reading a head -/

inductive LeadError
  /-- the input ends inside the head -/
  | ended
  /-- 28, 29 or 30 -/
  | reserved
  deriving DecidableEq, Repr

def readArg (major : Fin 8) (w : Width) (hw : w ≠ .inline) (rest : List UInt8) :
    Except LeadError (Lead × List UInt8) :=
  if hlen : w.size ≤ rest.length then
    .ok (.definite ⟨major, w, beValue (rest.take w.size), by
      have hlt := beValue_lt (rest.take w.size)
      rwa [List.length_take_of_le hlen, ← Width.bound_eq_pow hw] at hlt⟩, rest.drop w.size)
  else .error .ended

def readInfo (major : Fin 8) (info : ℕ) (rest : List UInt8) :
    Except LeadError (Lead × List UInt8) :=
  if h : info < 24 then .ok (.definite ⟨major, .inline, info, h⟩, rest)
  else
    match info with
    | 24 => readArg major .one (by decide) rest
    | 25 => readArg major .two (by decide) rest
    | 26 => readArg major .four (by decide) rest
    | 27 => readArg major .eight (by decide) rest
    | 31 => .ok (.indefinite major, rest)
    | _ => .error .reserved

def readLead : List UInt8 → Except LeadError (Lead × List UInt8)
  | [] => .error .ended
  | initial :: rest => readInfo (majorOf initial) (infoOf initial) rest

section readInfo

variable (major : Fin 8) (rest : List UInt8)

theorem readInfo_one : readInfo major 24 rest = readArg major .one (by decide) rest := rfl

theorem readInfo_two : readInfo major 25 rest = readArg major .two (by decide) rest := rfl

theorem readInfo_four : readInfo major 26 rest = readArg major .four (by decide) rest := rfl

theorem readInfo_eight : readInfo major 27 rest = readArg major .eight (by decide) rest := rfl

theorem readInfo_reserved {info : ℕ} (h : ¬ info < 24) (h₁ : info ≠ 24) (h₂ : info ≠ 25)
    (h₄ : info ≠ 26) (h₈ : info ≠ 27) (h₃₁ : info ≠ 31) :
    readInfo major info rest = .error .reserved := by
  rw [readInfo, dif_neg h]
  split
  · exact absurd rfl h₁
  · exact absurd rfl h₂
  · exact absurd rfl h₄
  · exact absurd rfl h₈
  · exact absurd rfl h₃₁
  · rfl

end readInfo

variable {major : Fin 8} {rest rest' : List UInt8} {lead : Lead} {bytes : List UInt8} {offset : ℕ}

theorem readArg_append {w : Width} (hw : w ≠ .inline) {arg : ℕ} (fits : arg < w.bound)
    (rest : List UInt8) :
    readArg major w hw (beBytes w.size arg ++ rest) =
      .ok (.definite ⟨major, w, arg, fits⟩, rest) := by
  have hvalue : beValue (beBytes w.size arg) = arg :=
    beValue_beBytes (by rwa [← Width.bound_eq_pow hw])
  simp [readArg, hvalue]

theorem of_readArg {w : Width} (hw : w ≠ .inline)
    (h : readArg major w hw rest = .ok (lead, rest')) :
    ∃ arg fits, lead = .definite ⟨major, w, arg, fits⟩ ∧ rest = beBytes w.size arg ++ rest' := by
  unfold readArg at h
  split_ifs at h with hlen
  obtain ⟨rfl, rfl⟩ := Prod.mk.inj (Except.ok.inj h)
  refine ⟨_, _, rfl, ?_⟩
  have hbytes := beBytes_beValue (rest.take w.size)
  rw [List.length_take_of_le hlen] at hbytes
  rw [hbytes, List.take_append_drop]

/-- **What was written is read.** -/
theorem readLead_append (lead : Lead) (rest : List UInt8) :
    readLead (lead.encode ++ rest) = .ok (lead, rest) := by
  cases lead with
  | definite h =>
    obtain ⟨major, w, arg, fits⟩ := h
    have hinfo : w.info arg < 32 := Nat.lt_of_lt_of_le (Width.info_lt fits) (by decide)
    rw [Lead.encode, Head.encode, List.cons_append, readLead, majorOf_initialByte hinfo,
      infoOf_initialByte hinfo]
    cases w with
    | inline =>
      have harg : arg < 24 := fits
      simp [readInfo, Width.info, Width.size, beBytes, harg]
    | one | two | four | eight => exact readArg_append (by decide) fits rest
  | indefinite major =>
    rw [Lead.encode, List.singleton_append, readLead, majorOf_initialByte (by decide),
      infoOf_initialByte (by decide)]
    rfl

theorem of_readInfo {info : ℕ} (h : readInfo major info rest = .ok (lead, rest')) :
    initialByte major info :: rest = lead.encode ++ rest' := by
  unfold readInfo at h
  split_ifs at h with hinline
  · cases h
    rfl
  · split at h
    · obtain ⟨arg, fits, rfl, rfl⟩ := of_readArg _ h
      rfl
    · obtain ⟨arg, fits, rfl, rfl⟩ := of_readArg _ h
      rfl
    · obtain ⟨arg, fits, rfl, rfl⟩ := of_readArg _ h
      rfl
    · obtain ⟨arg, fits, rfl, rfl⟩ := of_readArg _ h
      rfl
    · cases h
      rfl
    · cases h

/-- **Heads are read as they are written**, and in one way only. -/
theorem readLead_eq_ok_iff {bs : List UInt8} :
    readLead bs = .ok (lead, rest) ↔ bs = lead.encode ++ rest := by
  constructor
  · intro h
    cases bs with
    | nil => cases h
    | cons b bs =>
      have hencode := of_readInfo h
      rwa [initialByte_of] at hencode
  · rintro rfl
    exact readLead_append lead rest

theorem encode_append_inj {lead' : Lead} (h : lead.encode ++ rest = lead'.encode ++ rest') :
    lead = lead' ∧ rest = rest' := by
  have hread := readLead_append lead rest
  rw [h, readLead_append] at hread
  obtain ⟨rfl, rfl⟩ := Prod.mk.inj (Except.ok.inj hread)
  exact ⟨rfl, rfl⟩

theorem head_append_inj {h h' : Head} (heq : h.encode ++ rest = h'.encode ++ rest') :
    h = h' ∧ rest = rest' := by
  have hlead : (Lead.definite h).encode ++ rest = (Lead.definite h').encode ++ rest' := heq
  obtain ⟨hh, hrest⟩ := encode_append_inj hlead
  exact ⟨Lead.definite.inj hh, hrest⟩

theorem head_ne_open {h : Head} : h.encode ++ rest ≠ initialByte major 31 :: rest' := by
  intro heq
  have hlead : (Lead.definite h).encode ++ rest = (Lead.indefinite major).encode ++ rest' := heq
  cases (encode_append_inj hlead).1

theorem open_inj {major' : Fin 8}
    (heq : initialByte major 31 :: rest = initialByte major' 31 :: rest') : major = major' := by
  have hlead : (Lead.indefinite major).encode ++ rest = (Lead.indefinite major').encode ++ rest' :=
    heq
  exact Lead.indefinite.inj (encode_append_inj hlead).1

def breakByte : UInt8 := initialByte 7 31

theorem head_ne_break {h : Head} : h.encode ++ rest ≠ breakByte :: rest' := head_ne_open

theorem drop_add_of_append {a b : List UInt8} (h : bytes.drop offset = a ++ b) :
    bytes.drop (offset + a.length) = b := by
  rw [← List.drop_drop, h, List.drop_left]

theorem length_of_drop (hoffset : offset ≤ bytes.length) (h : bytes.drop offset = rest) :
    bytes.length = offset + rest.length := by
  rw [← h, List.length_drop]
  omega

theorem length_of_lead (h : bytes.drop offset = lead.encode ++ rest) :
    offset + lead.encode.length + rest.length = bytes.length := by
  have hoffset : offset ≤ bytes.length := by
    by_contra hgt
    rw [List.drop_eq_nil_of_le (Nat.le_of_not_le hgt), eq_comm, List.append_eq_nil_iff] at h
    exact lead.encode_ne_nil h.1
  have hlength := length_of_drop hoffset h
  rw [List.length_append] at hlength
  omega

/-! ## Chunks -/

/-- A part of a string of indefinite length. -/
structure Chunk where
  width : Width
  data : List UInt8
  fits : data.length < width.bound
  deriving DecidableEq, Repr

namespace Chunk

def head (major : Fin 8) (c : Chunk) : Head := ⟨major, c.width, c.data.length, c.fits⟩

def encode (major : Fin 8) (c : Chunk) : List UInt8 := (c.head major).encode ++ c.data

variable {c : Chunk}

theorem encode_ne_break : c.encode major ++ rest ≠ breakByte :: rest' := by
  rw [encode, List.append_assoc]
  exact head_ne_break

theorem eq_of_encode {h : Head} (heq : h.encode ++ rest = c.encode major ++ rest') :
    h = c.head major ∧ rest = c.data ++ rest' := by
  rw [encode, List.append_assoc] at heq
  exact head_append_inj heq

theorem encode_append_inj {c' : Chunk} (heq : c.encode major ++ rest = c'.encode major ++ rest') :
    c = c' ∧ rest = rest' := by
  have hencode : (c.head major).encode ++ (c.data ++ rest) = c'.encode major ++ rest' := by
    rw [← heq, encode, List.append_assoc]
  obtain ⟨hhead, hdata⟩ := eq_of_encode hencode
  obtain ⟨-, hwidth, hlength⟩ := Head.mk.inj hhead
  obtain ⟨hdata, hrest⟩ := List.append_inj hdata hlength
  obtain ⟨w, data, fits⟩ := c
  obtain ⟨w', data', fits'⟩ := c'
  obtain rfl : w = w' := hwidth
  obtain rfl : data = data' := hdata
  exact ⟨rfl, hrest⟩

def ofHead (h : Head) (rest : List UInt8) (hlen : h.arg ≤ rest.length) : Chunk :=
  ⟨h.width, rest.take h.arg, by rw [List.length_take_of_le hlen]; exact h.fits⟩

theorem encode_ofHead {h : Head} (hlen : h.arg ≤ rest.length) :
    (ofHead h rest hlen).encode h.major = h.encode ++ rest.take h.arg := by
  have hhead : (ofHead h rest hlen).head h.major = h := by
    obtain ⟨major, w, arg, fits⟩ := h
    simp [head, ofHead, List.length_take_of_le hlen]
  rw [encode, hhead]
  rfl

theorem length_encode_pos (major : Fin 8) (c : Chunk) : 0 < (c.encode major).length := by
  simp [encode]

end Chunk

/-- Up to a break, or to the end of the input. -/
def readChunks {ε : Type} (bytes : List UInt8) (readChunk : ℕ → Except ε (List UInt8 × ℕ))
    (hlt : ∀ offset data next, readChunk offset = .ok (data, next) → offset < next)
    (offset : ℕ) (chunks : List (List UInt8)) : Except ε (List (List UInt8) × ℕ) :=
  if hoffset : offset < bytes.length then
    if bytes[offset] = breakByte then .ok (chunks, offset + 1)
    else
      match h : readChunk offset with
      | .error e => .error e
      | .ok (data, next) =>
        have : offset < next := hlt offset data next h
        readChunks bytes readChunk hlt next (chunks ++ [data])
  else .ok (chunks, offset)
termination_by bytes.length - offset

section readChunks

variable {ε : Type} {bytes : List UInt8} {readChunk : ℕ → Except ε (List UInt8 × ℕ)}
  {hlt : ∀ offset data next, readChunk offset = .ok (data, next) → offset < next}
  {major : Fin 8}

variable (bytes readChunk major) in
/-- The reader of one chunk reads just what `Chunk.encode` writes. -/
def ReadsChunk : Prop :=
  ∀ offset data next, readChunk offset = .ok (data, next) ↔
    ∃ (c : Chunk) (rest : List UInt8), bytes.drop offset = c.encode major ++ rest ∧
      data = c.data ∧ next = offset + (c.encode major).length

theorem readsChunk_of
    (hhead : ∀ (offset : ℕ) (h : Head) (rest data : List UInt8) (next : ℕ),
      bytes.drop offset = h.encode ++ rest → h.major = major →
        (readChunk offset = .ok (data, next) ↔ h.arg ≤ rest.length ∧
          data = rest.take h.arg ∧ next = offset + h.encode.length + h.arg))
    (hother : ∀ offset r, (∀ (h : Head) (rest : List UInt8),
      bytes.drop offset = h.encode ++ rest → h.major ≠ major) → readChunk offset ≠ .ok r) :
    ReadsChunk bytes readChunk major := by
  intro offset data next
  constructor
  · intro hok
    by_cases hnone : ∀ (h : Head) (rest : List UInt8),
      bytes.drop offset = h.encode ++ rest → h.major ≠ major
    · exact absurd hok (hother offset _ hnone)
    · simp only [not_forall, not_not] at hnone
      obtain ⟨h, rest, hdrop, rfl⟩ := hnone
      obtain ⟨hlen, rfl, rfl⟩ := (hhead offset h rest data next hdrop rfl).mp hok
      refine ⟨.ofHead h rest hlen, rest.drop h.arg, ?_, rfl, ?_⟩
      · rw [Chunk.encode_ofHead, hdrop, List.append_assoc, List.take_append_drop]
      · rw [Chunk.encode_ofHead, List.length_append, List.length_take_of_le hlen, Nat.add_assoc]
  · rintro ⟨c, rest, hdrop, rfl, rfl⟩
    rw [Chunk.encode, List.append_assoc] at hdrop
    refine (hhead offset (c.head major) _ _ _ hdrop rfl).mpr ⟨?_, ?_, ?_⟩
    · simp [Chunk.head]
    · simp [Chunk.head]
    · simp [Chunk.encode, Chunk.head, Nat.add_assoc]

/-- **The loop reads over chunks.** -/
theorem readChunks_flatMap (hread : ReadsChunk bytes readChunk major) {cs : List Chunk}
    {tail : List UInt8} (chunks : List (List UInt8))
    (hdrop : bytes.drop offset = cs.flatMap (Chunk.encode major) ++ tail) :
    readChunks bytes readChunk hlt offset chunks =
      readChunks bytes readChunk hlt (offset + (cs.flatMap (Chunk.encode major)).length)
        (chunks ++ cs.map Chunk.data) := by
  induction cs generalizing offset chunks with
  | nil => simp
  | cons c cs ih =>
    rw [List.flatMap_cons, List.append_assoc] at hdrop
    have hoffset : offset < bytes.length := by
      by_contra hge
      have hnil : bytes.drop offset = [] := List.drop_eq_nil_of_le (Nat.le_of_not_lt hge)
      have hpos := c.length_encode_pos major
      rw [hnil, eq_comm, List.append_eq_nil_iff] at hdrop
      simp [hdrop.1] at hpos
    have hbreak : ¬ bytes[offset] = breakByte := by
      intro heq
      rw [List.drop_eq_getElem_cons hoffset, heq] at hdrop
      exact Chunk.encode_ne_break hdrop.symm
    have hchunk : readChunk offset = .ok (c.data, offset + (c.encode major).length) :=
      (hread _ _ _).mpr ⟨c, _, hdrop, rfl, rfl⟩
    rw [readChunks, dif_pos hoffset, if_neg hbreak]
    split
    next e he => simp [hchunk] at he
    next data next he =>
      obtain ⟨rfl, rfl⟩ : c.data = data ∧ offset + (c.encode major).length = next := by
        simpa [hchunk] using he
      rw [ih _ (drop_add_of_append hdrop)]
      simp [Nat.add_assoc]

/-- **What the loop meets** behind its chunks. -/
theorem exists_chunks (hread : ReadsChunk bytes readChunk major) (offset : ℕ) :
    ∃ (cs : List Chunk) (tail : List UInt8),
      bytes.drop offset = cs.flatMap (Chunk.encode major) ++ tail ∧
        (tail = [] ∨ (∃ rest, tail = breakByte :: rest) ∨
          tail ≠ [] ∧ (∀ rest, tail ≠ breakByte :: rest) ∧
            ∃ e, readChunk (offset + (cs.flatMap (Chunk.encode major)).length) = .error e) := by
  induction hn : bytes.length - offset using Nat.strong_induction_on generalizing offset with
  | _ n ih =>
    by_cases hnil : bytes.drop offset = []
    · exact ⟨[], [], by simpa using hnil, .inl rfl⟩
    by_cases hbreak : ∃ rest, bytes.drop offset = breakByte :: rest
    · exact ⟨[], _, rfl, .inr (.inl hbreak)⟩
    cases hchunk : readChunk offset with
    | error e =>
      exact ⟨[], _, rfl, .inr (.inr ⟨hnil, by simpa using hbreak, e, hchunk⟩)⟩
    | ok r =>
      obtain ⟨c, rest, hdrop, -, hnext⟩ := (hread offset r.1 r.2).mp hchunk
      have hpos := c.length_encode_pos major
      have hlt : offset < bytes.length := by
        by_contra hge
        exact hnil (List.drop_eq_nil_of_le (Nat.le_of_not_lt hge))
      obtain ⟨cs, tail, htail, hcases⟩ :=
        ih (bytes.length - (offset + (c.encode major).length)) (by omega) _ rfl
      rw [drop_add_of_append hdrop] at htail
      refine ⟨c :: cs, tail, by simp [hdrop, htail], ?_⟩
      simpa [Nat.add_assoc] using hcases

theorem readChunks_nil (chunks : List (List UInt8)) (hdrop : bytes.drop offset = []) :
    readChunks bytes readChunk hlt offset chunks = .ok (chunks, offset) := by
  have hoffset : ¬ offset < bytes.length := by simpa using hdrop
  rw [readChunks, dif_neg hoffset]

theorem readChunks_break (chunks : List (List UInt8))
    (hdrop : bytes.drop offset = breakByte :: rest) :
    readChunks bytes readChunk hlt offset chunks = .ok (chunks, offset + 1) := by
  have hoffset : offset < bytes.length := by
    by_contra hge
    simp [List.drop_eq_nil_of_le (Nat.le_of_not_lt hge)] at hdrop
  rw [List.drop_eq_getElem_cons hoffset] at hdrop
  rw [readChunks, dif_pos hoffset, if_pos (List.cons.inj hdrop).1]

theorem readChunks_error {e : ε} (chunks : List (List UInt8)) (hnil : bytes.drop offset ≠ [])
    (hbreak : ∀ rest, bytes.drop offset ≠ breakByte :: rest) (he : readChunk offset = .error e) :
    readChunks bytes readChunk hlt offset chunks = .error e := by
  have hoffset : offset < bytes.length := by simpa using hnil
  have hne : ¬ bytes[offset] = breakByte := by
    intro heq
    rw [List.drop_eq_getElem_cons hoffset, heq] at hbreak
    exact hbreak _ rfl
  rw [readChunks, dif_pos hoffset, if_neg hne]
  split
  next e' he' =>
    rw [he] at he'
    exact congrArg Except.error (Except.error.inj he').symm
  next data next he' => simp [he] at he'

end readChunks

/-! ## Items -/

structure Raw where
  heads : List ℕ
  bytes : List UInt8
  deriving DecidableEq, Repr

def allHeads (items : List Raw) : List ℕ := items.flatMap Raw.heads

def allBytes (items : List Raw) : List UInt8 := items.flatMap Raw.bytes

@[simp] theorem allHeads_nil : allHeads [] = [] := rfl

@[simp] theorem allBytes_nil : allBytes [] = [] := rfl

@[simp] theorem allHeads_cons (r : Raw) (items : List Raw) :
    allHeads (r :: items) = r.heads ++ allHeads items := rfl

@[simp] theorem allBytes_cons (r : Raw) (items : List Raw) :
    allBytes (r :: items) = r.bytes ++ allBytes items := rfl

def alternate (entries : List (Raw × Raw)) : List Raw := entries.flatMap fun e => [e.1, e.2]

@[simp] theorem alternate_nil : alternate [] = [] := rfl

@[simp] theorem alternate_cons (e : Raw × Raw) (entries : List (Raw × Raw)) :
    alternate (e :: entries) = e.1 :: e.2 :: alternate entries := rfl

variable {entries : List (Raw × Raw)} {r : Raw}

theorem forall_alternate {p : Raw → Prop} :
    (∀ r ∈ alternate entries, p r) ↔ ∀ e ∈ entries, p e.1 ∧ p e.2 := by
  induction entries with
  | nil => simp
  | cons e entries ih =>
    rw [alternate_cons, List.forall_mem_cons, List.forall_mem_cons, List.forall_mem_cons, ih,
      and_assoc]

def entryBytes (e : Raw × Raw) : List UInt8 := e.1.bytes ++ e.2.bytes

theorem allBytes_alternate (entries : List (Raw × Raw)) :
    allBytes (alternate entries) = entries.flatMap entryBytes := by
  induction entries with
  | nil => rfl
  | cons e entries ih => simp [ih, entryBytes]

@[simp] theorem length_alternate (entries : List (Raw × Raw)) :
    (alternate entries).length = 2 * entries.length := by
  induction entries with
  | nil => rfl
  | cons e entries ih =>
    rw [alternate_cons, List.length_cons, List.length_cons, List.length_cons, ih]
    omega

/-- **The well-formed items.** A simple value in a byte of its own is at least 32. -/
inductive Item : Raw → Prop
  | number (h : Head) (hmajor : h.major = 0 ∨ h.major = 1) : Item ⟨[h.arg], h.encode⟩
  | simple (h : Head) (hmajor : h.major = 7) (hvalue : h.width = .one → 32 ≤ h.arg) :
    Item ⟨[h.arg], h.encode⟩
  | string (major : Fin 8) (hmajor : major = 2 ∨ major = 3) (c : Chunk) :
    Item ⟨[c.data.length], c.encode major⟩
  | chunks (major : Fin 8) (hmajor : major = 2 ∨ major = 3) (cs : List Chunk) :
    Item ⟨cs.map fun c => c.data.length,
      initialByte major 31 :: (cs.flatMap (Chunk.encode major) ++ [breakByte])⟩
  | array (h : Head) (hmajor : h.major = 4) (items : List Raw) (hlen : items.length = h.arg)
      (hitems : ∀ r ∈ items, Item r) :
    Item ⟨h.arg :: allHeads items, h.encode ++ allBytes items⟩
  | openArray (items : List Raw) (hitems : ∀ r ∈ items, Item r) :
    Item ⟨allHeads items, initialByte 4 31 :: (allBytes items ++ [breakByte])⟩
  | map (h : Head) (hmajor : h.major = 5) (entries : List (Raw × Raw))
      (hlen : entries.length = h.arg) (hitems : ∀ r ∈ alternate entries, Item r) :
    Item ⟨h.arg :: allHeads (alternate entries), h.encode ++ allBytes (alternate entries)⟩
  | openMap (entries : List (Raw × Raw)) (hitems : ∀ r ∈ alternate entries, Item r) :
    Item ⟨allHeads (alternate entries),
      initialByte 5 31 :: (allBytes (alternate entries) ++ [breakByte])⟩
  | tag (h : Head) (hmajor : h.major = 6) (r : Raw) (hitem : Item r) :
    Item ⟨h.arg :: r.heads, h.encode ++ r.bytes⟩

theorem Item.exists_lead (h : Item r) :
    ∃ (lead : Lead) (rest : List UInt8), lead ≠ .indefinite 7 ∧ r.bytes = lead.encode ++ rest := by
  cases h with
  | number h hmajor | simple h hmajor hvalue =>
    exact ⟨.definite h, [], nofun, (List.append_nil _).symm⟩
  | string major hmajor c => exact ⟨.definite (c.head major), c.data, nofun, rfl⟩
  | chunks major hmajor cs =>
    refine ⟨.indefinite major, _, ?_, rfl⟩
    rintro h
    obtain rfl := Lead.indefinite.inj h
    exact absurd hmajor (by decide)
  | array h hmajor items hlen hitems => exact ⟨.definite h, _, nofun, rfl⟩
  | openArray items hitems => exact ⟨.indefinite 4, _, by decide, rfl⟩
  | map h hmajor entries hlen hitems => exact ⟨.definite h, _, nofun, rfl⟩
  | openMap entries hitems => exact ⟨.indefinite 5, _, by decide, rfl⟩
  | tag h hmajor r hitem => exact ⟨.definite h, _, nofun, rfl⟩

theorem Item.ne_break (h : Item r) : r.bytes ++ rest ≠ breakByte :: rest' := by
  obtain ⟨lead, tail, hlead, hbytes⟩ := h.exists_lead
  intro heq
  rw [hbytes, List.append_assoc] at heq
  have heq' : lead.encode ++ (tail ++ rest) = (Lead.indefinite 7).encode ++ rest' := heq
  exact hlead (encode_append_inj heq').1

theorem Item.length_pos (h : Item r) : 0 < r.bytes.length := by
  obtain ⟨lead, tail, -, hbytes⟩ := h.exists_lead
  rw [hbytes, List.length_append]
  exact Nat.lt_of_lt_of_le lead.length_encode_pos (Nat.le_add_right _ _)

variable {items items' : List Raw}

theorem length_le_of_mem (h : r ∈ items) : r.bytes.length ≤ (allBytes items).length := by
  obtain ⟨before, after, rfl⟩ := List.append_of_mem h
  simp only [allBytes, List.flatMap_append, List.flatMap_cons, List.length_append]
  omega

theorem length_le_of_entry {e : Raw × Raw} (h : e ∈ entries) :
    e.1.bytes.length ≤ (allBytes (alternate entries)).length ∧
      e.2.bytes.length ≤ (allBytes (alternate entries)).length :=
  forall_alternate.mp (fun _ hr => length_le_of_mem hr) e h

theorem length_le_allBytes (h : ∀ r ∈ items, Item r) : items.length ≤ (allBytes items).length := by
  induction items with
  | nil => exact Nat.le_refl 0
  | cons r items ih =>
    have hr := (h r List.mem_cons_self).length_pos
    have hitems := ih fun r' hr' => h r' (List.mem_cons_of_mem r hr')
    rw [allBytes_cons, List.length_append, List.length_cons]
    omega

theorem length_le_entries (h : ∀ e ∈ entries, Item e.1 ∧ Item e.2) :
    entries.length ≤ (entries.flatMap entryBytes).length := by
  have hcount := length_le_allBytes (forall_alternate.mpr h)
  rw [length_alternate, allBytes_alternate] at hcount
  omega

variable {h : Head}

/-! ## Items can be told apart -/

/-- What an item is behind a head. -/
def HeadBody (h : Head) (r : Raw) : Prop :=
  match h.major with
  | 0 | 1 => r = ⟨[h.arg], h.encode⟩
  | 2 | 3 => ∃ c : Chunk, c.head h.major = h ∧ r = ⟨[c.data.length], c.encode h.major⟩
  | 4 => ∃ items : List Raw, items.length = h.arg ∧ (∀ r ∈ items, Item r) ∧
    r = ⟨h.arg :: allHeads items, h.encode ++ allBytes items⟩
  | 5 => ∃ entries : List (Raw × Raw), entries.length = h.arg ∧ (∀ r ∈ alternate entries, Item r) ∧
    r = ⟨h.arg :: allHeads (alternate entries), h.encode ++ allBytes (alternate entries)⟩
  | 6 => ∃ r', Item r' ∧ r = ⟨h.arg :: r'.heads, h.encode ++ r'.bytes⟩
  | 7 => r = ⟨[h.arg], h.encode⟩ ∧ (h.width = .one → 32 ≤ h.arg)

def chunkRaws (major : Fin 8) (cs : List Chunk) : List Raw :=
  cs.map fun c => ⟨[c.data.length], c.encode major⟩

theorem allBytes_chunkRaws (major : Fin 8) (cs : List Chunk) :
    allBytes (chunkRaws major cs) = cs.flatMap (Chunk.encode major) := by
  simp [allBytes, chunkRaws, List.flatMap_map]

theorem allHeads_chunkRaws (major : Fin 8) (cs : List Chunk) :
    allHeads (chunkRaws major cs) = cs.map fun c => c.data.length := by
  simp [allHeads, chunkRaws, List.flatMap_map, ← List.map_eq_flatMap]

theorem item_of_chunkRaws {cs : List Chunk} (hmajor : major = 2 ∨ major = 3) :
    ∀ r ∈ chunkRaws major cs, Item r := by
  simpa [chunkRaws] using fun c _ => Item.string major hmajor c

def OpenBody (major : Fin 8) (r : Raw) : Prop :=
  ∃ items : List Raw, (∀ r ∈ items, Item r) ∧
    r = ⟨allHeads items, initialByte major 31 :: (allBytes items ++ [breakByte])⟩ ∧
      match major with
      | 2 | 3 => ∃ cs : List Chunk, items = chunkRaws major cs
      | 4 => True
      | 5 => 2 ∣ items.length
      | _ => False

theorem Item.of_head (hitem : Item r) (heq : r.bytes ++ rest = h.encode ++ rest') :
    HeadBody h r := by
  cases hitem with
  | number h' hmajor =>
    obtain ⟨rfl, -⟩ := head_append_inj heq
    rcases hmajor with hmajor | hmajor
    · simp [HeadBody, hmajor]
    · simp [HeadBody, hmajor]
  | simple h' hmajor hvalue =>
    obtain ⟨rfl, -⟩ := head_append_inj heq
    simpa [HeadBody, hmajor] using hvalue
  | string major hmajor c =>
    obtain ⟨rfl, -⟩ := Chunk.eq_of_encode heq.symm
    rcases hmajor with rfl | rfl
    · exact ⟨c, rfl, rfl⟩
    · exact ⟨c, rfl, rfl⟩
  | array h' hmajor items hlen hitems =>
    rw [List.append_assoc] at heq
    obtain ⟨rfl, -⟩ := head_append_inj heq
    simp only [HeadBody, hmajor]
    exact ⟨items, hlen, hitems, rfl⟩
  | map h' hmajor entries hlen hitems =>
    rw [List.append_assoc] at heq
    obtain ⟨rfl, -⟩ := head_append_inj heq
    simp only [HeadBody, hmajor]
    exact ⟨entries, hlen, hitems, rfl⟩
  | tag h' hmajor r' hitem =>
    rw [List.append_assoc] at heq
    obtain ⟨rfl, -⟩ := head_append_inj heq
    simp only [HeadBody, hmajor]
    exact ⟨r', hitem, rfl⟩
  | chunks | openArray | openMap => exact absurd heq.symm head_ne_open

theorem HeadBody.string (hbody : HeadBody h r) (hmajor : h.major = 2 ∨ h.major = 3) :
    ∃ c : Chunk, r = ⟨[c.data.length], c.encode h.major⟩ := by
  have hchunk : ∃ c : Chunk, c.head h.major = h ∧ r = ⟨[c.data.length], c.encode h.major⟩ := by
    rcases hmajor with hmajor | hmajor
    · simpa [HeadBody, hmajor] using hbody
    · simpa [HeadBody, hmajor] using hbody
  obtain ⟨c, -, hr⟩ := hchunk
  exact ⟨c, hr⟩

theorem Item.of_open (hitem : Item r) (heq : r.bytes ++ rest = initialByte major 31 :: rest') :
    OpenBody major r := by
  cases hitem with
  | chunks m hm cs =>
    obtain rfl : m = major := open_inj heq
    refine ⟨chunkRaws m cs, item_of_chunkRaws hm, ?_, ?_⟩
    · rw [allBytes_chunkRaws, allHeads_chunkRaws]
    · rcases hm with rfl | rfl
      · exact ⟨cs, rfl⟩
      · exact ⟨cs, rfl⟩
  | openArray items hitems =>
    obtain rfl : 4 = major := open_inj heq
    exact ⟨items, hitems, rfl, trivial⟩
  | openMap entries hitems =>
    obtain rfl : 5 = major := open_inj heq
    exact ⟨alternate entries, hitems, rfl, by simp⟩
  | number | simple => exact absurd heq head_ne_open
  | string | array | map | tag =>
    exact absurd (by simpa [Chunk.encode] using heq) head_ne_open

def Alone (r : Raw) : Prop :=
  ∀ ⦃r' : Raw⦄ ⦃rest rest' : List UInt8⦄, Item r' → r.bytes ++ rest = r'.bytes ++ rest' → r = r'

/-- **Of two rows of items that begin alike, one continues the other.** -/
theorem items_continue (halone : ∀ r ∈ items, Alone r) (hitems' : ∀ r ∈ items', Item r)
    (heq : allBytes items ++ rest = allBytes items' ++ rest') :
    (∃ more, items' = items ++ more ∧ rest = allBytes more ++ rest') ∨
      ∃ more, items = items' ++ more ∧ rest' = allBytes more ++ rest := by
  induction items generalizing items' with
  | nil => exact .inl ⟨items', rfl, heq⟩
  | cons r items ih =>
    cases items' with
    | nil => exact .inr ⟨r :: items, rfl, heq.symm⟩
    | cons r' items' =>
      rw [allBytes_cons, allBytes_cons, List.append_assoc, List.append_assoc] at heq
      obtain rfl : r = r' := halone r List.mem_cons_self (hitems' r' List.mem_cons_self) heq
      rcases ih (fun x hx => halone x (List.mem_cons_of_mem r hx))
        (fun x hx => hitems' x (List.mem_cons_of_mem r hx)) (List.append_cancel_left heq) with
        ⟨more, rfl, hrest⟩ | ⟨more, rfl, hrest⟩
      · exact .inl ⟨more, rfl, hrest⟩
      · exact .inr ⟨more, rfl, hrest⟩

theorem items_eq_of_length (halone : ∀ r ∈ items, Alone r) (hitems' : ∀ r ∈ items', Item r)
    (hlen : items.length = items'.length)
    (heq : allBytes items ++ rest = allBytes items' ++ rest') : items = items' := by
  rcases items_continue halone hitems' heq with ⟨more, rfl, -⟩ | ⟨more, rfl, -⟩
  · simpa using hlen
  · simpa using hlen

theorem more_eq_nil {more : List Raw} (hitems : ∀ r ∈ more, Item r)
    (heq : breakByte :: rest = allBytes more ++ rest') : more = [] := by
  cases more with
  | nil => rfl
  | cons r more =>
    rw [allBytes_cons, List.append_assoc] at heq
    exact absurd heq.symm (hitems r List.mem_cons_self).ne_break

theorem items_eq_of_break (halone : ∀ r ∈ items, Alone r) (hitems : ∀ r ∈ items, Item r)
    (hitems' : ∀ r ∈ items', Item r)
    (heq : allBytes items ++ breakByte :: rest = allBytes items' ++ breakByte :: rest') :
    items = items' := by
  rcases items_continue halone hitems' heq with ⟨more, rfl, hrest⟩ | ⟨more, rfl, hrest⟩
  · simp [more_eq_nil (fun r hr => hitems' r (List.mem_append_right _ hr)) hrest]
  · simp [more_eq_nil (fun r hr => hitems r (List.mem_append_right _ hr)) hrest]

theorem alone_of_open (halone : ∀ r ∈ items, Alone r) (hitems : ∀ r ∈ items, Item r) :
    Alone ⟨allHeads items, initialByte major 31 :: (allBytes items ++ [breakByte])⟩ := by
  intro r' rest rest' hitem heq
  obtain ⟨items', hitems', rfl, -⟩ := hitem.of_open heq.symm
  have hbody : allBytes items ++ breakByte :: rest = allBytes items' ++ breakByte :: rest' := by
    simpa using heq
  rw [items_eq_of_break halone hitems hitems' hbody]

theorem string_alone (hmajor : major = 2 ∨ major = 3) (c : Chunk) :
    Alone ⟨[c.data.length], c.encode major⟩ := by
  intro r' rest rest' hitem heq
  have hhead : r'.bytes ++ rest' = (c.head major).encode ++ (c.data ++ rest) := by
    rw [← heq, Chunk.encode, List.append_assoc]
  obtain ⟨c', rfl⟩ := (hitem.of_head hhead).string hmajor
  rw [(Chunk.encode_append_inj heq).1]
  rfl

/-- **Items are not ambiguous.** -/
theorem item_alone (hitem : Item r) : Alone r := by
  induction hitem with
  | number h hmajor =>
    intro r' rest rest' hitem heq
    have hbody := hitem.of_head heq.symm
    rcases hmajor with hmajor | hmajor
    · simpa [HeadBody, hmajor, eq_comm] using hbody
    · simpa [HeadBody, hmajor, eq_comm] using hbody
  | simple h hmajor hvalue =>
    intro r' rest rest' hitem heq
    have hbody := hitem.of_head heq.symm
    simp only [HeadBody, hmajor] at hbody
    exact hbody.1.symm
  | string major hmajor c => exact string_alone hmajor c
  | chunks major hmajor cs =>
    rw [← allBytes_chunkRaws major, ← allHeads_chunkRaws major]
    refine alone_of_open ?_ (item_of_chunkRaws hmajor)
    simpa [chunkRaws] using fun c _ => string_alone hmajor c
  | array h hmajor items hlen hitems ih =>
    intro r' rest rest' hitem heq
    rw [List.append_assoc] at heq
    have hbody := hitem.of_head heq.symm
    simp only [HeadBody, hmajor] at hbody
    obtain ⟨items', hlen', hitems', rfl⟩ := hbody
    rw [List.append_assoc] at heq
    rw [items_eq_of_length ih hitems' (hlen.trans hlen'.symm) (List.append_cancel_left heq)]
  | openArray items hitems ih => exact alone_of_open ih hitems
  | map h hmajor entries hlen hitems ih =>
    intro r' rest rest' hitem heq
    rw [List.append_assoc] at heq
    have hbody := hitem.of_head heq.symm
    simp only [HeadBody, hmajor] at hbody
    obtain ⟨entries', hlen', hitems', rfl⟩ := hbody
    rw [List.append_assoc] at heq
    rw [items_eq_of_length ih hitems' (by simp [hlen, hlen']) (List.append_cancel_left heq)]
  | openMap entries hitems ih => exact alone_of_open ih hitems
  | tag h hmajor r hitem ih =>
    intro r' rest rest' hitem' heq
    rw [List.append_assoc] at heq
    have hbody := hitem'.of_head heq.symm
    simp only [HeadBody, hmajor] at hbody
    obtain ⟨r'', hitem'', rfl⟩ := hbody
    rw [List.append_assoc] at heq
    rw [ih hitem'' (List.append_cancel_left heq)]

end Cbor
