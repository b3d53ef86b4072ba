import Zbag.Lib.Decimal

/-!
# Swaps — amounts as text

Amounts are entered as decimal text. `convert_to_smallest_units` turns them into the smallest units
of a token, `parse_zatoshis` reads the ZEC amount of a stored swap back. The conversion uses checked
arithmetic except for the digits after the point, where an overflow panics in a debug build and
wraps around in a release build.

* `parseZatoshis`, **`zatoshis_read_iff`**: a rendering is read back exactly if it has a point.
-/

namespace ZbagSwap

open Decimal

/-! ## Arithmetic -/

inductive Build
  | debug
  | release
  deriving DecidableEq, Repr

inductive Fault
  | error (message : String)
  | panic
  deriving DecidableEq, Repr

def u128Size : ℕ := 2 ^ 128

def bail {α : Type} (message : String) : Except Fault α := .error (.error message)

def Build.unchecked (build : Build) (n : ℕ) : Except Fault ℕ :=
  if n < u128Size then .ok n
  else
    match build with
    | .debug => .error .panic
    | .release => .ok (n % u128Size)

def checked (message : String) (n : ℕ) : Except Fault ℕ :=
  if n < u128Size then .ok n else bail message

def parseU128 (message : String) (digits : List Char) : Except Fault ℕ :=
  match parse u128Size digits with
  | some n => .ok n
  | none => bail message

/-! ## Smallest units -/

/-- Times ten, once a decimal. -/
def scaleUp : ℕ → ℕ → Except Fault ℕ
  | 0, result => .ok result
  | decimals + 1, result => do
    let result ← checked "amount overflow" (result * 10)
    scaleUp decimals result

/-- Digits beyond `decimals` are left out. -/
def addFraction (build : Build) (frac : List Char) (decimals result : ℕ) : Except Fault ℕ :=
  if frac.isEmpty then .ok result
  else do
    let fracLen := min frac.length decimals
    let fracVal ← parseU128 "invalid fractional part" (frac.take fracLen)
    let fracMultiplier ← build.unchecked (10 ^ (decimals - fracLen))
    let scaled ← build.unchecked (fracVal * fracMultiplier)
    checked "amount overflow" (result + scaled)

def convertParts (build : Build) (whole frac : List Char) (decimals : ℕ) : Except Fault String := do
  if whole.all Char.isDigit = false then bail "invalid whole part"
  let whole ← parseU128 "invalid whole part" whole
  if frac.isEmpty = false ∧ frac.all Char.isDigit = false then bail "invalid fractional part"
  let result ← scaleUp decimals whole
  let result ← addFraction build frac decimals result
  if result = 0 then bail "amount must be greater than zero"
  return toString result

def convertToSmallestUnits (build : Build) (amount : String) (decimals : UInt8) :
    Except Fault String :=
  if (trim amount.toList).isEmpty then bail "empty amount"
  else
    match (trim amount.toList).splitOn '.' with
    | [whole] => convertParts build whole [] decimals.toNat
    | [whole, frac] => convertParts build whole frac decimals.toNat
    | _ => bail "invalid amount format"

/-! ## What the steps compute -/

theorem scaleUp_eq (decimals : ℕ) {result : ℕ} (h : result < u128Size) :
    scaleUp decimals result = checked "amount overflow" (result * 10 ^ decimals) := by
  induction decimals generalizing result with
  | zero => rw [scaleUp, pow_zero, Nat.mul_one, checked, if_pos h]
  | succ decimals ih =>
    have hpow : result * 10 * 10 ^ decimals = result * 10 ^ (decimals + 1) := by ring
    rw [scaleUp, checked]
    by_cases hlt : result * 10 < u128Size
    · rw [if_pos hlt]
      exact (ih hlt).trans (by rw [hpow])
    · have hle : result * 10 ≤ result * 10 ^ (decimals + 1) :=
        hpow ▸ Nat.le_mul_of_pos_right _ (by positivity)
      rw [if_neg hlt, checked, if_neg (by omega)]
      rfl

theorem ten_pow_lt {e : ℕ} (h : e ≤ 38) : 10 ^ e < u128Size :=
  lt_of_le_of_lt (Nat.pow_le_pow_right (by decide) h) (by decide)

theorem u128Size_le_ten_pow {e : ℕ} (h : 39 ≤ e) : u128Size ≤ 10 ^ e :=
  le_trans (by decide) (Nat.pow_le_pow_right (by decide) h)

theorem unchecked_of_lt (build : Build) {n : ℕ} (h : n < u128Size) : build.unchecked n = .ok n := by
  unfold Build.unchecked
  rw [if_pos h]

theorem parseU128_of_digits (message : String) {digits : List Char}
    (h : digits.all Char.isDigit = true) (hne : digits ≠ []) :
    parseU128 message digits = checked message (value digits) := by
  rw [parseU128, parse_of_digits h hne, checked]
  by_cases hlt : value digits < u128Size
  · rw [if_pos hlt, if_pos hlt]
  · rw [if_neg hlt, if_neg hlt]

theorem all_take {digits : List Char} (h : digits.all Char.isDigit = true) (k : ℕ) :
    (digits.take k).all Char.isDigit = true :=
  List.all_eq_true.mpr fun c hc => List.all_eq_true.mp h c (List.mem_of_mem_take hc)

variable {frac : List Char} {decimals : ℕ} {n : Numeral} {a : ℕ}

theorem addFraction_of_ne_nil (build : Build) (hne : frac ≠ []) (decimals result : ℕ) :
    addFraction build frac decimals result = (do
      let fracVal ← parseU128 "invalid fractional part" (frac.take decimals)
      let fracMultiplier ← build.unchecked (10 ^ (decimals - frac.length))
      let scaled ← build.unchecked (fracVal * fracMultiplier)
      checked "amount overflow" (result + scaled)) := by
  have hempty : frac.isEmpty = false := List.isEmpty_eq_false_iff.mpr hne
  have htake : frac.take (min frac.length decimals) = frac.take decimals := by
    rw [Nat.min_comm, List.take_eq_take_min.symm]
  have hsub : decimals - min frac.length decimals = decimals - frac.length := by omega
  simp only [addFraction, hempty, Bool.false_eq_true, if_false, htake, hsub]

theorem addFraction_eq (build : Build) (h : frac.all Char.isDigit = true) (hne : frac ≠ [])
    (hpos : 1 ≤ decimals) (hle : decimals ≤ 38) (result : ℕ) :
    addFraction build frac decimals result =
      checked "amount overflow"
        (result + value (frac.take decimals) * 10 ^ (decimals - frac.length)) := by
  have hdigits := all_take h decimals
  have htake_ne : frac.take decimals ≠ [] := by simp [hne]; omega
  have hvalue : value (frac.take decimals) < 10 ^ min decimals frac.length := by
    simpa using value_lt hdigits
  have hprod : value (frac.take decimals) * 10 ^ (decimals - frac.length) < u128Size := by
    calc value (frac.take decimals) * 10 ^ (decimals - frac.length)
        < 10 ^ min decimals frac.length * 10 ^ (decimals - frac.length) :=
          Nat.mul_lt_mul_of_pos_right hvalue (by positivity)
      _ = 10 ^ decimals := by rw [← pow_add]; congr 1; omega
      _ < u128Size := ten_pow_lt hle
  have hval_lt : value (frac.take decimals) < u128Size :=
    hvalue.trans (ten_pow_lt (by omega))
  rw [addFraction_of_ne_nil build hne, parseU128_of_digits _ hdigits htake_ne, checked,
    if_pos hval_lt, unchecked_of_lt build (ten_pow_lt (by omega : decimals - frac.length ≤ 38))]
  simp only [bind, Except.bind, unchecked_of_lt build hprod]

/-! ## Conversions of numerals -/

section numerals

variable (build : Build) (n : Numeral) (decimals : ℕ)

theorem convertParts_numeral :
    convertParts build n.whole n.fracDigits decimals = (do
      let whole ← checked "invalid whole part" (value n.whole)
      let result ← checked "amount overflow" (whole * 10 ^ decimals)
      let result ← addFraction build n.fracDigits decimals result
      if result = 0 then bail "amount must be greater than zero"
      return toString result) := by
  have hfrac : ¬ (n.fracDigits.isEmpty = false ∧ n.fracDigits.all Char.isDigit = false) := by
    rw [n.all_fracDigits]
    simp
  rw [convertParts, parseU128_of_digits _ n.whole_digits n.whole_ne_nil]
  simp only [n.whole_digits, Bool.true_eq_false, if_false, if_neg hfrac, checked]
  by_cases hlt : value n.whole < u128Size
  · rw [if_pos hlt]
    simp only [bind, Except.bind, scaleUp_eq decimals hlt, checked]
  · rw [if_neg hlt]
    rfl

theorem convertToSmallestUnits_numeral {amount : String} (h : n.text = trim amount.toList)
    (decimals : UInt8) :
    convertToSmallestUnits build amount decimals =
      convertParts build n.whole n.fracDigits decimals.toNat := by
  have hempty : n.text.isEmpty = false := List.isEmpty_eq_false_iff.mpr n.text_ne_nil
  rw [convertToSmallestUnits, ← h, hempty, n.splitOn_text, Numeral.fracDigits]
  cases n.frac with
  | none | some frac => rfl

end numerals

theorem digits_of_convertParts {build : Build} {whole : List Char}
    (h : ∀ message, convertParts build whole frac decimals ≠ bail message) :
    whole ≠ [] ∧ whole.all Char.isDigit = true ∧ frac.all Char.isDigit = true := by
  have hwhole : whole.all Char.isDigit = true := by
    by_contra hnot
    refine h "invalid whole part" ?_
    rw [convertParts, if_pos (Bool.eq_false_of_not_eq_true hnot)]
    rfl
  have hne : whole ≠ [] := by
    rintro rfl
    exact h "invalid whole part" rfl
  refine ⟨hne, hwhole, ?_⟩
  by_contra hnot
  have hfrac : frac.isEmpty = false ∧ frac.all Char.isDigit = false := by
    refine ⟨List.isEmpty_eq_false_iff.mpr ?_, Bool.eq_false_of_not_eq_true hnot⟩
    rintro rfl
    exact hnot rfl
  rw [convertParts, parseU128_of_digits _ hwhole hne] at h
  simp only [hwhole, Bool.true_eq_false, if_false, if_pos hfrac, checked] at h
  by_cases hlt : value whole < u128Size
  · refine h "invalid fractional part" ?_
    rw [if_pos hlt]
    rfl
  · refine h "invalid whole part" ?_
    rw [if_neg hlt]
    rfl

theorem numeral_of_not_bail (build : Build) (amount : String) (decimals : UInt8)
    (h : ∀ message, convertToSmallestUnits build amount decimals ≠ bail message) :
    ∃ n : Numeral, n.text = trim amount.toList := by
  unfold convertToSmallestUnits at h
  split_ifs at h
  · exact absurd rfl (h "empty amount")
  split at h
  · rename_i whole hsplit
    obtain ⟨hne, hwhole, -⟩ := digits_of_convertParts h
    exact ⟨⟨whole, none, hne, hwhole, rfl⟩, (eq_of_splitOn_singleton hsplit).symm⟩
  · rename_i whole frac hsplit
    obtain ⟨hne, hwhole, hfrac⟩ := digits_of_convertParts h
    exact ⟨⟨whole, some frac, hne, hwhole, hfrac⟩, (eq_of_splitOn_pair hsplit).symm⟩
  · exact absurd rfl (h "invalid amount format")

/-- There is no fraction, or the token has 1 to 38 decimals, or the numeral is too large anyway. -/
def Scalable (n : Numeral) (decimals : ℕ) : Prop :=
  n.fracDigits = [] ∨ 1 ≤ decimals ∧ (decimals ≤ 38 ∨ 0 < value n.whole)

theorem convertParts_of_scalable (build : Build) (h : Scalable n decimals) :
    (0 < n.scaled decimals ∧ n.scaled decimals < u128Size ∧
      convertParts build n.whole n.fracDigits decimals = .ok (toString (n.scaled decimals))) ∨
    (¬ (0 < n.scaled decimals ∧ n.scaled decimals < u128Size) ∧
      ∃ message, convertParts build n.whole n.fracDigits decimals = bail message) := by
  have hscaled := n.scaled_eq_take decimals
  have hwhole_le : value n.whole ≤ value n.whole * 10 ^ decimals :=
    Nat.le_mul_of_pos_right _ (by positivity)
  rw [convertParts_numeral]
  by_cases hwhole : value n.whole < u128Size
  swap
  · refine .inr ⟨by omega, "invalid whole part", ?_⟩
    rw [checked, if_neg hwhole]
    rfl
  by_cases hresult : value n.whole * 10 ^ decimals < u128Size
  swap
  · refine .inr ⟨by omega, "amount overflow", ?_⟩
    rw [checked, if_pos hwhole]
    simp only [bind, Except.bind, checked, if_neg hresult]
    rfl
  -- the digits after the point are added without an unchecked overflow
  have hadd : addFraction build n.fracDigits decimals (value n.whole * 10 ^ decimals) =
      checked "amount overflow" (n.scaled decimals) := by
    by_cases hnil : n.fracDigits = []
    · rw [hnil, n.scaled_of_no_digits hnil, checked, if_pos hresult]
      rfl
    · obtain ⟨hpos, hle⟩ := h.resolve_left hnil
      have hle : decimals ≤ 38 := by
        by_contra hgt
        have hten := u128Size_le_ten_pow (by omega : 39 ≤ decimals)
        have hmul : 10 ^ decimals ≤ value n.whole * 10 ^ decimals :=
          Nat.le_mul_of_pos_left _ (hle.resolve_left hgt)
        omega
      rw [addFraction_eq build n.all_fracDigits hnil hpos hle, hscaled]
  simp only [checked, if_pos hwhole, if_pos hresult, bind, Except.bind, hadd]
  by_cases hlt : n.scaled decimals < u128Size
  · rw [if_pos hlt]
    rcases Nat.eq_zero_or_pos (n.scaled decimals) with hzero | hpos
    · refine .inr ⟨by omega, "amount must be greater than zero", ?_⟩
      simp only [hzero]
      rfl
    · refine .inl ⟨hpos, hlt, ?_⟩
      simp only [hpos.ne', if_false]
      rfl
  · refine .inr ⟨by omega, "amount overflow", ?_⟩
    rw [if_neg hlt]
    rfl

/-- It writes out the units, rounded down, if they are positive and fit into 128 bits; otherwise it
fails, but does not panic. -/
structure Converts (amount : String) (decimals : UInt8) : Prop where
  ok_iff : ∀ build out, convertToSmallestUnits build amount decimals = .ok out ↔
    ∃ n : Numeral, n.text = trim amount.toList ∧ 0 < ⌊n.value * 10 ^ decimals.toNat⌋₊ ∧
      ⌊n.value * 10 ^ decimals.toNat⌋₊ < u128Size ∧
      out = toString ⌊n.value * 10 ^ decimals.toNat⌋₊
  no_panic : ∀ build, convertToSmallestUnits build amount decimals ≠ .error .panic

theorem converts_of_numeral {amount : String} {decimals : UInt8}
    (h : ∀ n : Numeral, n.text = trim amount.toList → Scalable n decimals.toNat) :
    Converts amount decimals := by
  refine ⟨fun build out => ⟨fun hok => ?_, ?_⟩, fun build hpanic => ?_⟩
  · obtain ⟨n, hn⟩ := numeral_of_not_bail build amount decimals (by simp [hok, bail])
    refine ⟨n, hn, ?_⟩
    rw [convertToSmallestUnits_numeral build n hn] at hok
    rw [← n.scaled_eq_floor]
    rcases convertParts_of_scalable build (h n hn) with ⟨hpos, hlt, hout⟩ | ⟨-, message, hbail⟩
    · rw [hout] at hok
      exact ⟨hpos, hlt, (Except.ok.inj hok).symm⟩
    · rw [hbail] at hok
      cases hok
  · rintro ⟨n, hn, hpos, hlt, rfl⟩
    rw [← n.scaled_eq_floor] at hpos hlt ⊢
    rw [convertToSmallestUnits_numeral build n hn]
    rcases convertParts_of_scalable build (h n hn) with ⟨-, -, hout⟩ | ⟨hnot, -⟩
    · exact hout
    · exact absurd ⟨hpos, hlt⟩ hnot
  · obtain ⟨n, hn⟩ := numeral_of_not_bail build amount decimals (by simp [hpanic, bail])
    rw [convertToSmallestUnits_numeral build n hn] at hpanic
    rcases convertParts_of_scalable build (h n hn) with ⟨-, -, hout⟩ | ⟨-, message, hbail⟩
    · rw [hout] at hpanic
      cases hpanic
    · rw [hbail] at hpanic
      cases hpanic

/-! ## The decimals that work for all amounts -/

def oneAndHalf : Numeral := ⟨['1'], some ['5'], by decide, by decide, by decide⟩

def half : Numeral := ⟨['0'], some ['5'], by decide, by decide, by decide⟩

theorem not_converts_zero : ¬ Converts "1.5" 0 := by
  intro h
  have hscaled : ⌊oneAndHalf.value * 10 ^ (0 : UInt8).toNat⌋₊ = 1 := by
    rw [← oneAndHalf.scaled_eq_floor]
    decide
  have hok : convertToSmallestUnits .debug "1.5" 0 = .ok "1" := by
    refine (h.ok_iff .debug "1").mpr ⟨oneAndHalf, by decide, ?_⟩
    rw [hscaled]
    exact ⟨by decide, by decide, by decide⟩
  have hbail : convertToSmallestUnits .debug "1.5" 0 = bail "invalid fractional part" := by
    decide +kernel
  rw [hbail] at hok
  cases hok

theorem panic_of_le {n : ℕ} (h : u128Size ≤ n) : Build.debug.unchecked n = .error .panic := by
  unfold Build.unchecked
  rw [if_neg (by omega)]

theorem convert_half_panics {decimals : UInt8} (h : 39 ≤ decimals.toNat) :
    convertToSmallestUnits .debug "0.5" decimals = .error .panic := by
  have hwhole : value half.whole = 0 := by decide
  have htake : half.fracDigits.take decimals.toNat = ['5'] :=
    List.take_of_length_le (show half.fracDigits.length ≤ decimals.toNat by
      simp [half, Numeral.fracDigits]; omega)
  have hparse : parseU128 "invalid fractional part" ['5'] = .ok 5 := by decide +kernel
  have hadd : addFraction .debug half.fracDigits decimals.toNat 0 = .error .panic := by
    rw [addFraction_of_ne_nil _ (by decide), htake, hparse]
    have hlen : decimals.toNat - half.fracDigits.length = decimals.toNat - 1 := rfl
    rw [hlen]
    by_cases hpow : 10 ^ (decimals.toNat - 1) < u128Size
    · -- exactly 39 decimals: the weight fits, the product does not
      have hprod : u128Size ≤ 5 * 10 ^ (decimals.toNat - 1) :=
        le_trans (by decide : u128Size ≤ 5 * 10 ^ 38)
          (Nat.mul_le_mul_left 5 (Nat.pow_le_pow_right (by decide) (by omega)))
      simp only [bind, Except.bind, unchecked_of_lt .debug hpow, panic_of_le hprod]
    · simp only [bind, Except.bind, panic_of_le (Nat.le_of_not_lt hpow)]
  rw [convertToSmallestUnits_numeral .debug half (by decide), convertParts_numeral, hwhole]
  simp only [checked, bind, Except.bind, Nat.zero_mul, hadd, if_pos (by decide : 0 < u128Size)]

def u64Size : ℕ := 2 ^ 64

def checkedU64 (n : ℕ) : Option ℕ := if n < u64Size then some n else none

theorem checkedU64_of_lt {n : ℕ} (h : n < u64Size) : checkedU64 n = some n := if_pos h

def parseFraction (frac : List Char) : Option ℕ :=
  if 8 < utf8Length frac then none
  else parse u64Size (frac ++ List.replicate (8 - utf8Length frac) '0')

def zatoshisPerZec : ℕ := 100000000

def parseParts (whole frac : List Char) : Option ℕ := do
  let whole ← parse u64Size whole
  let fracVal ← parseFraction frac
  let zatoshis ← checkedU64 (whole * zatoshisPerZec)
  checkedU64 (zatoshis + fracVal)

def parseZatoshis (text : String) : Option ℕ :=
  if (trim text.toList).isEmpty then none
  else
    match splitOnce '.' (trim text.toList) with
    | some (whole, frac) => parseParts whole frac
    | none => parse u64Size (trim text.toList)

theorem parseFraction_of_digits (h : frac.all Char.isDigit = true) (hlen : frac.length ≤ 8) :
    parseFraction frac = some (value frac * 10 ^ (8 - frac.length)) := by
  have hall : (frac ++ List.replicate (8 - frac.length) '0').all Char.isDigit = true := by
    rw [List.all_append, h, Bool.true_and, List.all_replicate]
    split_ifs <;> rfl
  have hvalue : value (frac ++ List.replicate (8 - frac.length) '0') =
      value frac * 10 ^ (8 - frac.length) := by
    rw [value_append, value_replicate_zero, List.length_replicate, Nat.add_zero]
  have hne : frac ++ List.replicate (8 - frac.length) '0' ≠ [] := by
    intro hnil
    have hlength := congrArg List.length hnil
    simp only [List.length_append, List.length_replicate, List.length_nil] at hlength
    omega
  have hlt : value frac * 10 ^ (8 - frac.length) < u64Size := by
    have hlength : (frac ++ List.replicate (8 - frac.length) '0').length = 8 := by
      simp only [List.length_append, List.length_replicate]
      omega
    calc value frac * 10 ^ (8 - frac.length)
        = value (frac ++ List.replicate (8 - frac.length) '0') := hvalue.symm
      _ < 10 ^ (frac ++ List.replicate (8 - frac.length) '0').length := value_lt hall
      _ = 10 ^ 8 := by rw [hlength]
      _ < u64Size := by decide
  rw [parseFraction, utf8Length_of_digits h, if_neg (by omega), parse_of_digits hall hne, hvalue,
    if_pos hlt]

theorem parseParts_of_digits {whole : List Char} (hwhole : whole.all Char.isDigit = true)
    (hne : whole ≠ []) (hfrac : frac.all Char.isDigit = true) (hlen : frac.length ≤ 8)
    (hlt : value whole * zatoshisPerZec + value frac * 10 ^ (8 - frac.length) < u64Size) :
    parseParts whole frac =
      some (value whole * zatoshisPerZec + value frac * 10 ^ (8 - frac.length)) := by
  have hmul : value whole * zatoshisPerZec < u64Size := lt_of_le_of_lt (Nat.le_add_right _ _) hlt
  have hvalue : value whole < u64Size :=
    lt_of_le_of_lt (Nat.le_mul_of_pos_right _ (by decide)) hmul
  rw [parseParts, parse_of_digits hwhole hne, if_pos hvalue, Option.bind_eq_bind,
    Option.bind_some, parseFraction_of_digits hfrac hlen, Option.bind_some, checkedU64_of_lt hmul,
    Option.bind_some, checkedU64_of_lt hlt]

structure Renders (n : Numeral) (a : ℕ) : Prop where
  value_eq : n.value * 10 ^ 8 = a
  digits : ∀ frac ∈ n.frac, 1 ≤ frac.length ∧ frac.length ≤ 8

theorem Renders.scaled_eq (h : Renders n a) : n.scaled 8 = a := by
  rw [n.scaled_eq_floor, h.value_eq, Nat.floor_natCast]

theorem parseZatoshis_of_point (hfrac : n.frac = some frac) (hlen : frac.length ≤ 8)
    (hlt : n.scaled 8 < u64Size) :
    parseZatoshis (String.ofList n.text) = some (n.scaled 8) := by
  have hdigits : n.fracDigits = frac := by rw [Numeral.fracDigits, hfrac, Option.getD_some]
  have hall := n.all_fracDigits
  have hscaled := n.scaled_eq_take 8
  rw [hdigits] at hall hscaled
  rw [List.take_of_length_le hlen] at hscaled
  have hzec : zatoshisPerZec = 10 ^ 8 := by decide
  rw [← hzec] at hscaled
  have htext : n.text = n.whole ++ '.' :: frac := by rw [Numeral.text, hfrac]
  have hempty : n.text.isEmpty = false := List.isEmpty_eq_false_iff.mpr n.text_ne_nil
  have hsplit : splitOnce '.' n.text = some (n.whole, frac) := by
    rw [htext, splitOnce_append (point_not_mem n.whole_digits)]
  rw [parseZatoshis, String.toList_ofList, n.trim_text, hempty, hsplit]
  rw [hscaled] at hlt ⊢
  exact parseParts_of_digits n.whole_digits n.whole_ne_nil hall hlen hlt

/-- Without a point, the number is taken for zatoshis. -/
theorem parseZatoshis_of_no_point (hfrac : n.frac = none) :
    parseZatoshis (String.ofList n.text) =
      if value n.whole < u64Size then some (value n.whole) else none := by
  have htext : n.text = n.whole := by rw [Numeral.text, hfrac]
  have hempty : n.whole.isEmpty = false := List.isEmpty_eq_false_iff.mpr n.whole_ne_nil
  have hsplit := splitOnce_eq_none (point_not_mem n.whole_digits)
  rw [parseZatoshis, String.toList_ofList, n.trim_text, htext, hempty, hsplit]
  simp only [Bool.false_eq_true, if_false, parse_of_digits n.whole_digits n.whole_ne_nil]

theorem Renders.parseZatoshis_iff (h : Renders n a) (hpos : 0 < a) (hlt : a < u64Size) :
    parseZatoshis (String.ofList n.text) = some a ↔ n.frac.isSome = true := by
  have hscaled := h.scaled_eq
  cases hfrac : n.frac with
  | none =>
    -- the number read is too small by a factor of 10⁸
    refine iff_of_false (fun hparse => ?_) (by simp)
    have hnil : n.fracDigits = [] := by rw [Numeral.fracDigits, hfrac, Option.getD_none]
    rw [n.scaled_of_no_digits hnil] at hscaled
    rw [parseZatoshis_of_no_point hfrac] at hparse
    split_ifs at hparse
    have hvalue := Option.some.inj hparse
    omega
  | some frac =>
    have hlen := (h.digits frac hfrac).2
    refine iff_of_true ?_ rfl
    rw [parseZatoshis_of_point hfrac hlen (hscaled ▸ hlt), hscaled]

theorem Renders.convert_eq (h : Renders n a) (hpos : 0 < a) (hlt : a < u64Size) (build : Build) :
    convertToSmallestUnits build (String.ofList n.text) 8 = .ok (toString a) := by
  have htext : n.text = trim (String.ofList n.text).toList := by
    rw [String.toList_ofList, n.trim_text]
  have hlt' : a < u128Size := hlt.trans (by decide)
  have hscalable : Scalable n 8 := .inr ⟨by decide, .inl (by decide)⟩
  rw [convertToSmallestUnits_numeral build n htext]
  rcases convertParts_of_scalable build hscalable with ⟨-, -, hout⟩ | ⟨hnot, -⟩
  · rw [h.scaled_eq] at hout
    exact hout
  · rw [h.scaled_eq] at hnot
    exact absurd ⟨hpos, hlt'⟩ hnot

/-! ## What is read -/

theorem digits_of_parseFraction {m : ℕ} (h : parseFraction frac = some m) (hplus : '+' ∉ frac) :
    frac.all Char.isDigit = true ∧ frac.length ≤ 8 := by
  rw [parseFraction] at h
  split_ifs at h with hlen
  have hhead : (frac ++ List.replicate (8 - utf8Length frac) '0').head? ≠ some '+' := by
    intro hhead
    rcases List.mem_append.mp (List.mem_of_head? hhead) with hmem | hmem
    · exact hplus hmem
    · exact absurd (List.eq_of_mem_replicate hmem) (by decide)
  obtain ⟨-, hall, -⟩ := digits_of_parse h hhead
  rw [List.all_append, Bool.and_eq_true] at hall
  have hlength := utf8Length_of_digits hall.1
  exact ⟨hall.1, by omega⟩

theorem numeral_of_parseZatoshis {text : String} {m : ℕ} (h : parseZatoshis text = some m)
    (hplus : '+' ∉ text.toList) (htrim : trim text.toList = text.toList) :
    ∃ n : Numeral, n.text = text.toList ∧ n.fracDigits.length ≤ 8 := by
  rw [parseZatoshis, htrim] at h
  split_ifs at h
  split at h
  · rename_i whole frac hsplit
    have htext := eq_of_splitOnce hsplit
    rw [htext, List.mem_append, List.mem_cons, not_or, not_or] at hplus
    obtain ⟨w, hw, h⟩ := Option.bind_eq_some_iff.mp h
    obtain ⟨f, hf, -⟩ := Option.bind_eq_some_iff.mp h
    obtain ⟨hne, hwhole, -⟩ := digits_of_parse hw fun hhead => hplus.1 (List.mem_of_head? hhead)
    obtain ⟨hfrac, hlen⟩ := digits_of_parseFraction hf hplus.2.2
    exact ⟨⟨whole, some frac, hne, hwhole, hfrac⟩, htext.symm, hlen⟩
  · obtain ⟨hne, hall, -⟩ := digits_of_parse h fun hhead => hplus (List.mem_of_head? hhead)
    exact ⟨⟨text.toList, none, hne, hall, rfl⟩, rfl, Nat.zero_le 8⟩

def oneZec : Numeral := ⟨['1'], none, by decide, by decide, by decide⟩

end ZbagSwap
