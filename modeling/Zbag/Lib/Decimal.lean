import Mathlib.Algebra.Order.Floor.Semifield
import Mathlib.Algebra.Order.Ring.Rat
import Mathlib.Data.Rat.Floor
import Mathlib.Tactic.Positivity
import Mathlib.Tactic.Ring

/-!
# Numbers as text

Decimal numerals and the readers that programs are built from: blanks are trimmed, a text is split
at its points, an unsigned integer of a fixed width is read from digits.
-/

namespace Decimal

/-! ## Blanks -/

/-- The Unicode property `White_Space`. -/
def isWhiteSpace (c : Char) : Bool :=
  let n := c.toNat
  (9 ≤ n && n ≤ 13) || n == 0x20 || n == 0x85 || n == 0xA0 || n == 0x1680 ||
    (0x2000 ≤ n && n ≤ 0x200A) || n == 0x2028 || n == 0x2029 || n == 0x202F || n == 0x205F ||
    n == 0x3000

def trimStart (cs : List Char) : List Char := cs.dropWhile isWhiteSpace

def trim (cs : List Char) : List Char := (trimStart (trimStart cs).reverse).reverse

variable {cs : List Char} {bound : ℕ} {sep : Char}

theorem trimStart_eq_self (h : cs.any isWhiteSpace = false) : trimStart cs = cs := by
  cases cs with
  | nil => rfl
  | cons c cs =>
    rw [List.any_cons, Bool.or_eq_false_iff] at h
    simp [trimStart, h.1]

theorem trim_eq_self (h : cs.any isWhiteSpace = false) : trim cs = cs := by
  have hreverse : cs.reverse.any isWhiteSpace = false := by rwa [List.any_reverse]
  rw [trim, trimStart_eq_self h, trimStart_eq_self hreverse, List.reverse_reverse]

theorem not_whiteSpace_of_isDigit {c : Char} (h : c.isDigit = true) : isWhiteSpace c = false := by
  obtain ⟨hlow, hhigh⟩ := Char.isDigit_iff_toNat.mp h
  have hlow : 48 ≤ c.toNat := hlow
  have hhigh : c.toNat ≤ 57 := hhigh
  simp only [isWhiteSpace, Bool.or_eq_false_iff, Bool.and_eq_false_iff, decide_eq_false_iff_not,
    beq_eq_false_iff_ne]
  omega

/-! ## Digits -/

def value (cs : List Char) : ℕ := Nat.ofDigitChars 10 cs 0

@[simp] theorem value_nil : value [] = 0 := rfl

theorem value_append (as bs : List Char) :
    value (as ++ bs) = value as * 10 ^ bs.length + value bs := by
  rw [value, Nat.ofDigitChars_append, Nat.ofDigitChars_eq_ofDigitChars_zero, Nat.mul_comm]
  rfl

theorem value_replicate_zero (n : ℕ) : value (List.replicate n '0') = 0 := by
  rw [value, Nat.ofDigitChars_replicate_zero, Nat.mul_zero]

@[simp] theorem value_toDigits (n : ℕ) : value (Nat.toDigits 10 n) = n :=
  Nat.ofDigitChars_ten_toDigits

theorem value_lt (h : cs.all Char.isDigit = true) : value cs < 10 ^ cs.length := by
  induction cs with
  | nil => exact Nat.one_pos
  | cons c cs ih =>
    rw [List.all_cons, Bool.and_eq_true] at h
    obtain ⟨hc, hcs⟩ := h
    have hrest := ih hcs
    have hhigh : c.toNat ≤ 57 := (Char.isDigit_iff_toNat.mp hc).2
    have hhead : value [c] ≤ 9 := by
      rw [value, Nat.ofDigitChars_cons, Nat.ofDigitChars_nil]
      change 10 * 0 + (c.toNat - 48) ≤ 9
      omega
    calc value (c :: cs) = value [c] * 10 ^ cs.length + value cs := value_append [c] cs
      _ < value [c] * 10 ^ cs.length + 10 ^ cs.length := by omega
      _ = (value [c] + 1) * 10 ^ cs.length := by ring
      _ ≤ 10 * 10 ^ cs.length := Nat.mul_le_mul_right _ (by omega)
      _ = 10 ^ (c :: cs).length := by rw [List.length_cons, Nat.pow_succ, Nat.mul_comm]

theorem value_take (h : cs.all Char.isDigit = true) (k : ℕ) :
    value (cs.take k) = value cs / 10 ^ (cs.length - k) := by
  have hdrop : (cs.drop k).all Char.isDigit = true :=
    List.all_eq_true.mpr fun c hc => List.all_eq_true.mp h c (List.mem_of_mem_drop hc)
  have hlt := value_lt hdrop
  have hsplit := value_append (cs.take k) (cs.drop k)
  rw [List.take_append_drop] at hsplit
  rw [List.length_drop] at hlt hsplit
  rw [hsplit, Nat.mul_comm, Nat.mul_add_div (by positivity), Nat.div_eq_of_lt hlt, Nat.add_zero]

def utf8Length : List Char → ℕ
  | [] => 0
  | c :: cs => c.utf8Size + utf8Length cs

theorem utf8Length_of_digits (h : cs.all Char.isDigit = true) : utf8Length cs = cs.length := by
  induction cs with
  | nil => rfl
  | cons c cs ih =>
    rw [List.all_cons, Bool.and_eq_true] at h
    have hhigh : c.toNat ≤ 57 := (Char.isDigit_iff_toNat.mp h.1).2
    have hsize : c.utf8Size = 1 := Char.utf8Size_eq_one_iff.mpr
      (UInt32.le_iff_toNat_le.mpr (hhigh.trans (by decide)))
    rw [utf8Length, ih h.2, hsize, List.length_cons, Nat.add_comm]

/-! ## Unsigned integers -/

def dropPlus : List Char → List Char
  | '+' :: cs => cs
  | cs => cs

/-- At least one digit, after an optional plus sign. -/
def parse (bound : ℕ) (cs : List Char) : Option ℕ :=
  let digits := dropPlus cs
  if digits.isEmpty = false ∧ digits.all Char.isDigit = true ∧ value digits < bound then
    some (value digits)
  else none

theorem dropPlus_of_head (h : cs.head? ≠ some '+') : dropPlus cs = cs := by
  unfold dropPlus
  split
  · exact absurd rfl h
  · rfl

theorem dropPlus_of_digits (h : cs.all Char.isDigit = true) : dropPlus cs = cs := by
  refine dropPlus_of_head fun hhead => ?_
  have hplus : ('+').isDigit = true := List.all_eq_true.mp h _ (List.mem_of_head? hhead)
  exact absurd hplus (by decide)

theorem parse_of_digits (h : cs.all Char.isDigit = true) (hne : cs ≠ []) :
    parse bound cs = if value cs < bound then some (value cs) else none := by
  rw [parse, dropPlus_of_digits h]
  simp [h, hne]

theorem parse_toDigits {n : ℕ} (h : n < bound) : parse bound (Nat.toDigits 10 n) = some n := by
  have hdigits : (Nat.toDigits 10 n).all Char.isDigit = true :=
    List.all_eq_true.mpr fun c hc => Nat.isDigit_of_mem_toDigits (by decide) le_rfl hc
  rw [parse_of_digits hdigits Nat.toDigits_ne_nil, value_toDigits, if_pos h]

theorem digits_of_parse {n : ℕ} (h : parse bound cs = some n) (hplus : cs.head? ≠ some '+') :
    cs ≠ [] ∧ cs.all Char.isDigit = true ∧ value cs < bound ∧ n = value cs := by
  rw [parse, dropPlus_of_head hplus] at h
  by_cases hcs : cs.isEmpty = false ∧ cs.all Char.isDigit = true ∧ value cs < bound
  · rw [if_pos hcs] at h
    exact ⟨List.isEmpty_eq_false_iff.mp hcs.1, hcs.2.1, hcs.2.2, (Option.some.inj h).symm⟩
  · rw [if_neg hcs] at h
    cases h

/-! ## Numerals -/

/-- **A decimal numeral**: one or more digits, and possibly a point with any number of digits. -/
structure Numeral where
  whole : List Char
  frac : Option (List Char)
  whole_ne_nil : whole ≠ []
  whole_digits : whole.all Char.isDigit = true
  frac_digits : (frac.getD []).all Char.isDigit = true

namespace Numeral

def fracDigits (n : Numeral) : List Char := n.frac.getD []

theorem all_fracDigits (n : Numeral) : n.fracDigits.all Char.isDigit = true := n.frac_digits

def text (n : Numeral) : List Char :=
  match n.frac with
  | none => n.whole
  | some frac => n.whole ++ '.' :: frac

def value (n : Numeral) : ℚ :=
  Decimal.value n.whole + Decimal.value n.fracDigits / 10 ^ n.fracDigits.length

/-- In units of `10⁻ᵈ`, rounded down. -/
def scaled (n : Numeral) (d : ℕ) : ℕ :=
  Decimal.value n.whole * 10 ^ d + Decimal.value n.fracDigits * 10 ^ d / 10 ^ n.fracDigits.length

/-- **Rounding down is what `scaled` does.** -/
theorem scaled_eq_floor (n : Numeral) (d : ℕ) : n.scaled d = ⌊n.value * 10 ^ d⌋₊ := by
  have hvalue : n.value * 10 ^ d = (Decimal.value n.whole * 10 ^ d : ℕ) +
      ((Decimal.value n.fracDigits * 10 ^ d : ℕ) : ℚ) / (10 ^ n.fracDigits.length : ℕ) := by
    rw [value]
    push_cast
    ring
  have hpos : 0 ≤ ((Decimal.value n.fracDigits * 10 ^ d : ℕ) : ℚ) /
      (10 ^ n.fracDigits.length : ℕ) := by positivity
  rw [hvalue, add_comm, Nat.floor_add_natCast hpos, Nat.floor_div_eq_div, add_comm, scaled]

/-- **Only the first `d` digits after the point count.** -/
theorem scaled_eq_take (n : Numeral) (d : ℕ) :
    n.scaled d = Decimal.value n.whole * 10 ^ d +
      Decimal.value (n.fracDigits.take d) * 10 ^ (d - n.fracDigits.length) := by
  rw [scaled, value_take n.all_fracDigits]
  congr 1
  rcases Nat.le_total n.fracDigits.length d with h | h
  · rw [Nat.sub_eq_zero_of_le h, pow_zero, Nat.div_one]
    obtain ⟨k, rfl⟩ := Nat.exists_eq_add_of_le h
    rw [Nat.add_sub_cancel_left, pow_add, Nat.mul_left_comm,
      Nat.mul_div_cancel_left _ (by positivity)]
  · rw [Nat.sub_eq_zero_of_le h, pow_zero, Nat.mul_one]
    obtain ⟨k, hk⟩ := Nat.exists_eq_add_of_le h
    rw [hk, Nat.add_sub_cancel_left, pow_add, Nat.mul_comm _ (10 ^ d),
      Nat.mul_div_mul_left _ _ (by positivity)]

theorem scaled_of_no_digits {n : Numeral} (h : n.fracDigits = []) (d : ℕ) :
    n.scaled d = Decimal.value n.whole * 10 ^ d := by
  simp [scaled, h]

theorem mem_text {n : Numeral} {c : Char} (h : c ∈ n.text) : c.isDigit = true ∨ c = '.' := by
  have hwhole := List.all_eq_true.mp n.whole_digits
  have hfrac := List.all_eq_true.mp n.frac_digits
  unfold text at h
  split at h
  · exact .inl (hwhole c h)
  · rename_i frac hsome
    rw [hsome] at hfrac
    rcases List.mem_append.mp h with h | h
    · exact .inl (hwhole c h)
    · rcases List.mem_cons.mp h with rfl | h
      · exact .inr rfl
      · exact .inl (hfrac c h)

theorem trim_text (n : Numeral) : trim n.text = n.text := by
  refine trim_eq_self (List.any_eq_false.mpr fun c hc => ?_)
  rcases mem_text hc with h | rfl
  · simp [not_whiteSpace_of_isDigit h]
  · decide

theorem text_ne_nil (n : Numeral) : n.text ≠ [] := by
  unfold text
  split
  · exact n.whole_ne_nil
  · simp

end Numeral

/-! ## Splitting at the point -/

theorem point_not_mem (h : cs.all Char.isDigit = true) : '.' ∉ cs := fun hmem =>
  absurd (List.all_eq_true.mp h _ hmem) (by decide)

theorem Numeral.splitOn_text (n : Numeral) :
    n.text.splitOn '.' = n.whole :: n.frac.toList := by
  have hwhole := point_not_mem n.whole_digits
  have hfrac := point_not_mem n.frac_digits
  unfold text
  cases hn : n.frac with
  | none => exact List.splitOn_eq_singleton hwhole
  | some frac =>
    have hfrac : '.' ∉ frac := by rwa [hn] at hfrac
    simp only [List.splitOn_append_cons_self_of_not_mem hwhole, List.splitOn_eq_singleton hfrac,
      Option.toList_some]

def splitOnce (sep : Char) : List Char → Option (List Char × List Char)
  | [] => none
  | c :: cs => if c = sep then some ([], cs) else (splitOnce sep cs).map fun p => (c :: p.1, p.2)

theorem splitOnce_eq_none (h : sep ∉ cs) : splitOnce sep cs = none := by
  induction cs with
  | nil => rfl
  | cons c cs ih =>
    rw [List.mem_cons, not_or] at h
    obtain ⟨hne, hmem⟩ := h
    rw [splitOnce, if_neg (Ne.symm hne), ih hmem, Option.map_none]

theorem splitOnce_append {as : List Char} (h : sep ∉ as) (bs : List Char) :
    splitOnce sep (as ++ sep :: bs) = some (as, bs) := by
  induction as with
  | nil => rw [List.nil_append, splitOnce, if_pos rfl]
  | cons c as ih =>
    rw [List.mem_cons, not_or] at h
    obtain ⟨hne, hmem⟩ := h
    rw [List.cons_append, splitOnce, if_neg (Ne.symm hne), ih hmem, Option.map_some]

theorem eq_of_splitOnce {as bs : List Char} (h : splitOnce sep cs = some (as, bs)) :
    cs = as ++ sep :: bs := by
  induction cs generalizing as with
  | nil => cases h
  | cons c cs ih =>
    rw [splitOnce] at h
    split_ifs at h with hc
    · obtain ⟨rfl, rfl⟩ := Prod.mk.inj (Option.some.inj h)
      rw [hc, List.nil_append]
    · obtain ⟨⟨as', bs'⟩, hsplit, hpair⟩ := Option.map_eq_some_iff.mp h
      obtain ⟨rfl, rfl⟩ := Prod.mk.inj hpair
      rw [ih hsplit, List.cons_append]

theorem eq_of_splitOn_singleton {whole : List Char} (h : cs.splitOn '.' = [whole]) :
    cs = whole := by
  have hcs : ['.'].intercalate (cs.splitOn '.') = cs := List.intercalate_splitOn '.'
  rw [h] at hcs
  simpa [List.intercalate] using hcs.symm

theorem eq_of_splitOn_pair {whole frac : List Char} (h : cs.splitOn '.' = [whole, frac]) :
    cs = whole ++ '.' :: frac := by
  have hcs : ['.'].intercalate (cs.splitOn '.') = cs := List.intercalate_splitOn '.'
  rw [h] at hcs
  simpa [List.intercalate] using hcs.symm

end Decimal
