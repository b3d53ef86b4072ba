import Mathlib.Data.List.Basic
import Mathlib.Tactic.SplitIfs

/-!
# Bytes as text

Two ways to write bytes as ASCII text: lower-case hexadecimal digits, two a byte, and base64 with
its standard alphabet and canonical padding, four characters for three bytes.

* `hex`: hexadecimal text; `hex_injective`, `mem_hex`: it determines the bytes and has only digits;
* `encode`, `decode`: base64; `decode_encode`, `encode_of_decode`: a text that decodes is the one
  that its bytes are encoded as, so no two texts decode to the same bytes.
-/

namespace Encoding

/-! ## Hexadecimal digits -/

def hexAlphabet : List Char := "0123456789abcdef".toList

def hexDigit (n : ℕ) : Char := hexAlphabet.getD n '0'

def hex : List UInt8 → List Char
  | [] => []
  | b :: bs => hexDigit (b.toNat / 16) :: hexDigit (b.toNat % 16) :: hex bs

theorem hexDigit_injOn : ∀ m < 16, ∀ n < 16, hexDigit m = hexDigit n → m = n := by decide

theorem hexDigit_mem : ∀ n < 16, hexDigit n ∈ hexAlphabet := by decide

@[simp] theorem length_hex (bs : List UInt8) : (hex bs).length = 2 * bs.length := by
  induction bs with
  | nil => rfl
  | cons b bs ih =>
    simp only [hex, List.length_cons, ih]
    omega

theorem hex_injective : Function.Injective hex := by
  intro bs
  induction bs with
  | nil =>
    intro bs' h
    cases bs' with
    | nil => rfl
    | cons b' bs' => cases h
  | cons b bs ih =>
    intro bs' h
    cases bs' with
    | nil => cases h
    | cons b' bs' =>
      have hb := b.toNat_lt
      have hb' := b'.toNat_lt
      simp only [hex, List.cons.injEq] at h
      obtain ⟨hhigh, hlow, hrest⟩ := h
      have hhigh := hexDigit_injOn _ (by omega) _ (by omega) hhigh
      have hlow := hexDigit_injOn _ (by omega) _ (by omega) hlow
      have hbyte : b = b' := UInt8.toNat_inj.mp (by omega)
      rw [hbyte, ih hrest]

variable {bs : List UInt8} {c₀ c₁ c₂ c₃ : Char}

theorem mem_hex {c : Char} (h : c ∈ hex bs) : c ∈ hexAlphabet := by
  induction bs with
  | nil => cases h
  | cons b bs ih =>
    have hb := b.toNat_lt
    simp only [hex, List.mem_cons] at h
    rcases h with rfl | rfl | h
    · exact hexDigit_mem _ (by omega)
    · exact hexDigit_mem _ (by omega)
    · exact ih h

/-! ## Base64 -/

def alphabet : List Char :=
  "ABCDEFGHIJKLMNOPQRSTUVWXYZabcdefghijklmnopqrstuvwxyz0123456789+/".toList

def digit (n : ℕ) : Char := alphabet.getD n 'A'

def value (c : Char) : Option ℕ := alphabet.idxOf? c

def pad : Char := '='

def encode : List UInt8 → List Char
  | [] => []
  | [a] => [digit (a.toNat / 4), digit (a.toNat % 4 * 16), pad, pad]
  | [a, b] =>
    [digit (a.toNat / 4), digit (a.toNat % 4 * 16 + b.toNat / 16), digit (b.toNat % 16 * 4), pad]
  | a :: b :: c :: rest =>
    digit (a.toNat / 4) :: digit (a.toNat % 4 * 16 + b.toNat / 16) ::
      digit (b.toNat % 16 * 4 + c.toNat / 64) :: digit (c.toNat % 64) :: encode rest

def group (c₀ c₁ c₂ c₃ : Char) : Option (List UInt8) := do
  let v₀ ← value c₀
  let v₁ ← value c₁
  let v₂ ← value c₂
  let v₃ ← value c₃
  return [.ofNat (v₀ * 4 + v₁ / 16), .ofNat (v₁ % 16 * 16 + v₂ / 4), .ofNat (v₂ % 4 * 64 + v₃)]

/-- The bits that the padding stands for are zero. -/
def lastGroup (c₀ c₁ c₂ c₃ : Char) : Option (List UInt8) :=
  if c₃ = pad then
    if c₂ = pad then do
      let v₀ ← value c₀
      let v₁ ← value c₁
      if v₁ % 16 = 0 then some [.ofNat (v₀ * 4 + v₁ / 16)] else none
    else do
      let v₀ ← value c₀
      let v₁ ← value c₁
      let v₂ ← value c₂
      if v₂ % 4 = 0 then some [.ofNat (v₀ * 4 + v₁ / 16), .ofNat (v₁ % 16 * 16 + v₂ / 4)] else none
  else group c₀ c₁ c₂ c₃

def decode : List Char → Option (List UInt8)
  | [] => some []
  | [c₀, c₁, c₂, c₃] => lastGroup c₀ c₁ c₂ c₃
  | c₀ :: c₁ :: c₂ :: c₃ :: rest => do
    let bytes ← group c₀ c₁ c₂ c₃
    let more ← decode rest
    return bytes ++ more
  | _ => none

theorem alphabet_eq : alphabet =
    ['A', 'B', 'C', 'D', 'E', 'F', 'G', 'H', 'I', 'J', 'K', 'L', 'M', 'N', 'O', 'P', 'Q', 'R', 'S',
      'T', 'U', 'V', 'W', 'X', 'Y', 'Z', 'a', 'b', 'c', 'd', 'e', 'f', 'g', 'h', 'i', 'j', 'k', 'l',
      'm', 'n', 'o', 'p', 'q', 'r', 's', 't', 'u', 'v', 'w', 'x', 'y', 'z', '0', '1', '2', '3', '4',
      '5', '6', '7', '8', '9', '+', '/'] := by
  decide +kernel

theorem value_digit : ∀ n < 64, value (digit n) = some n := by
  unfold value digit
  rw [alphabet_eq]
  decide +kernel

theorem digit_ne_pad : ∀ n < 64, digit n ≠ pad := by
  unfold digit
  rw [alphabet_eq]
  decide +kernel

theorem encode_cons (a : UInt8) (bs : List UInt8) :
    ∃ cs, encode (a :: bs) = digit (a.toNat / 4) :: cs := by
  match bs with
  | [] | [_] | _ :: _ :: _ => exact ⟨_, rfl⟩

theorem digit_of_value {c : Char} {v : ℕ} (h : value c = some v) : v < 64 ∧ digit v = c := by
  obtain ⟨hlt, hget, -⟩ := List.idxOf?_eq_some_iff.mp h
  refine ⟨hlt, ?_⟩
  rw [digit, List.getD_eq_getElem?_getD, List.getElem?_eq_getElem hlt, Option.getD_some, hget]

theorem decode_cons (h : c₃ ≠ pad) (rest : List Char) :
    decode (c₀ :: c₁ :: c₂ :: c₃ :: rest) =
      (group c₀ c₁ c₂ c₃).bind fun bytes => (decode rest).map (bytes ++ ·) := by
  cases rest with
  | nil =>
    simp only [decode, lastGroup, if_neg h]
    cases group c₀ c₁ c₂ c₃ <;> simp
  | cons c rest =>
    simp only [decode]
    cases group c₀ c₁ c₂ c₃ with
    | none => rfl
    | some bytes => cases decode (c :: rest) <;> rfl

theorem group_digits {v₀ v₁ v₂ v₃ : ℕ} (h₀ : v₀ < 64) (h₁ : v₁ < 64) (h₂ : v₂ < 64)
    (h₃ : v₃ < 64) :
    group (digit v₀) (digit v₁) (digit v₂) (digit v₃) =
      some [.ofNat (v₀ * 4 + v₁ / 16), .ofNat (v₁ % 16 * 16 + v₂ / 4),
        .ofNat (v₂ % 4 * 64 + v₃)] := by
  simp [group, value_digit, *]

/-- **Decoding undoes encoding.** -/
theorem decode_encode (bs : List UInt8) : decode (encode bs) = some bs := by
  have byte (b : UInt8) (n : ℕ) (h : n = b.toNat) : UInt8.ofNat n = b := by simp [h]
  fun_induction encode bs with
  | case1 => rfl
  | case2 a =>
    have ha := a.toNat_lt
    simp only [decode, lastGroup, if_true, value_digit _ (show a.toNat / 4 < 64 by omega),
      value_digit _ (show a.toNat % 4 * 16 < 64 by omega)]
    simp only [Option.bind_eq_bind, Option.bind_some]
    rw [if_pos (by omega), byte a _ (by omega)]
  | case3 a b =>
    have ha := a.toNat_lt
    have hb := b.toNat_lt
    have h₂ : b.toNat % 16 * 4 < 64 := by omega
    simp only [decode, lastGroup, if_true, if_neg (digit_ne_pad _ h₂), value_digit _ h₂,
      value_digit _ (show a.toNat / 4 < 64 by omega),
      value_digit _ (show a.toNat % 4 * 16 + b.toNat / 16 < 64 by omega)]
    simp only [Option.bind_eq_bind, Option.bind_some]
    rw [if_pos (by omega), byte a _ (by omega), byte b _ (by omega)]
  | case4 a b c rest ih =>
    have ha := a.toNat_lt
    have hb := b.toNat_lt
    have hc := c.toNat_lt
    rw [decode_cons (digit_ne_pad _ (by omega)), group_digits (by omega) (by omega) (by omega)
      (by omega), Option.bind_some, ih, Option.map_some, byte a _ (by omega), byte b _ (by omega),
      byte c _ (by omega)]
    rfl

theorem encode_of_group (h : group c₀ c₁ c₂ c₃ = some bs) (rest : List UInt8) :
    encode (bs ++ rest) = c₀ :: c₁ :: c₂ :: c₃ :: encode rest := by
  simp only [group, Option.bind_eq_bind, Option.bind_eq_some_iff] at h
  obtain ⟨v₀, h₀, v₁, h₁, v₂, h₂, v₃, h₃, hbs⟩ := h
  obtain ⟨hlt₀, rfl⟩ := digit_of_value h₀
  obtain ⟨hlt₁, rfl⟩ := digit_of_value h₁
  obtain ⟨hlt₂, rfl⟩ := digit_of_value h₂
  obtain ⟨hlt₃, rfl⟩ := digit_of_value h₃
  cases hbs
  simp only [List.cons_append, List.nil_append, encode, UInt8.toNat_ofNat', List.cons.injEq]
  refine ⟨?_, ?_, ?_, ?_, trivial⟩ <;> congr 1 <;> omega

theorem encode_of_lastGroup (h : lastGroup c₀ c₁ c₂ c₃ = some bs) :
    encode bs = [c₀, c₁, c₂, c₃] := by
  unfold lastGroup at h
  split_ifs at h with h₃ h₂
  · simp only [Option.bind_eq_bind, Option.bind_eq_some_iff, Option.ite_none_right_eq_some] at h
    obtain ⟨v₀, h₀, v₁, h₁, hzero, hbs⟩ := h
    obtain ⟨hlt₀, rfl⟩ := digit_of_value h₀
    obtain ⟨hlt₁, rfl⟩ := digit_of_value h₁
    cases hbs
    simp only [encode, UInt8.toNat_ofNat', List.cons.injEq, h₂, h₃]
    refine ⟨?_, ?_, trivial⟩ <;> congr 1 <;> omega
  · simp only [Option.bind_eq_bind, Option.bind_eq_some_iff, Option.ite_none_right_eq_some] at h
    obtain ⟨v₀, h₀, v₁, h₁, v₂, h₂', hzero, hbs⟩ := h
    obtain ⟨hlt₀, rfl⟩ := digit_of_value h₀
    obtain ⟨hlt₁, rfl⟩ := digit_of_value h₁
    obtain ⟨hlt₂, rfl⟩ := digit_of_value h₂'
    cases hbs
    simp only [encode, UInt8.toNat_ofNat', List.cons.injEq, h₃]
    refine ⟨?_, ?_, ?_, trivial⟩ <;> congr 1 <;> omega
  · simpa [encode] using encode_of_group h []

/-- **A text that decodes is the encoding of its bytes.** -/
theorem encode_of_decode {cs : List Char} (h : decode cs = some bs) : encode bs = cs := by
  fun_induction decode cs generalizing bs with
  | case1 =>
    cases h
    rfl
  | case2 c₀ c₁ c₂ c₃ => exact encode_of_lastGroup h
  | case3 c₀ c₁ c₂ c₃ rest _ ih =>
    simp only [Option.bind_eq_bind, Option.bind_eq_some_iff] at h
    obtain ⟨bytes, hbytes, more, hmore, hbs⟩ := h
    cases hbs
    rw [encode_of_group hbytes, ih hmore]
  | case4 => cases h

end Encoding
