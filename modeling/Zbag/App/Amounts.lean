import Mathlib.Data.List.DropRight
import Zbag.Swap.Amounts

/-!
# App — amounts in the front end

The front end reads an amount of ZEC from text, writes zatoshis out as ZEC, and checks the amounts
of a swap before it sends them to the engine. Texts are lists of characters; `\d` is an ASCII digit.
-/

namespace ZbagAmounts

open Decimal

/-! ## The code -/

/-- The white space of JavaScript. -/
def isBlank (c : Char) : Bool :=
  let n := c.toNat
  (9 ≤ n && n ≤ 13) || n == 0x20 || n == 0xA0 || n == 0x1680 || (0x2000 ≤ n && n ≤ 0x200A) ||
    n == 0x2028 || n == 0x2029 || n == 0x202F || n == 0x205F || n == 0x3000 || n == 0xFEFF

def jsTrim (cs : List Char) : List Char := (cs.dropWhile isBlank).rdropWhile isBlank

/-- `^p*(?:\.p*)?$` -/
def isDecimal (p : Char → Bool) (cs : List Char) : Bool :=
  match cs.splitOn '.' with
  | [whole] => whole.all p
  | [whole, frac] => whole.all p && frac.all p
  | _ => false

/-- `const [whole, frac = ''] = cs.split('.')` -/
def parts (cs : List Char) : List Char × List Char :=
  match cs.splitOn '.' with
  | whole :: frac :: _ => (whole, frac)
  | [whole] => (whole, [])
  | [] => ([], [])

def isZero (c : Char) : Bool := c == '0'

def padEnd (n : ℕ) (cs : List Char) : List Char := cs ++ List.replicate (n - cs.length) '0'

def padStart (n : ℕ) (cs : List Char) : List Char := List.replicate (n - cs.length) '0' ++ cs

def orZero (cs : List Char) : List Char := if cs.isEmpty then ['0'] else cs

def zatoshiPerZec : ℕ := 100000000

def parseZecToZatoshis (input : String) : Except String String :=
  let value := jsTrim input.toList
  if value.isEmpty then .error "Enter an amount."
  else if value.head? = some '-' then .error "Amount must be positive."
  else if ¬ isDecimal Char.isDigit value then .error "Use only digits and a single decimal point."
  else
    let (wholeRaw, fractionalRaw) := parts value
    let whole := orZero wholeRaw
    if 8 < fractionalRaw.length ∧ ¬ (fractionalRaw.drop 8).all isZero then
      .error "ZEC supports up to 8 decimal places."
    else
      let fractional := padEnd 8 (fractionalRaw.take 8)
      let zatoshis := Decimal.value whole * zatoshiPerZec + Decimal.value fractional
      if zatoshis ≤ 0 then .error "Amount must be greater than 0." else .ok (toString zatoshis)

def formatAtomicAmount (value : String) (decimals : ℕ) : String :=
  let trimmed := jsTrim value.toList
  if trimmed.isEmpty ∨ ¬ trimmed.all Char.isDigit then String.ofList trimmed
  else if 78 < trimmed.length then String.ofList trimmed
  else if decimals ≤ 0 then String.ofList trimmed
  else
    let padded := padStart (decimals + 1) trimmed
    let wholeEnd := padded.length - decimals
    let whole := orZero ((padded.take wholeEnd).dropWhile isZero)
    let fractional := (padded.drop wholeEnd).rdropWhile isZero
    String.ofList (if fractional.isEmpty then whole else whole ++ '.' :: fractional)

def formatZatoshisToZec (input : String) : String := formatAtomicAmount input 8

def validateDecimalAmount (value : String) (maxDecimals : ℕ) (exampleText : Option String) :
    Option String :=
  let trimmed := jsTrim value.toList
  if trimmed.isEmpty then none
  else if ¬ isDecimal Char.isDigit trimmed ∨ (parts trimmed).1.isEmpty then
    some ("Enter a valid amount (e.g., " ++ exampleText.getD "1.23" ++ ")")
  else if maxDecimals < (parts trimmed).2.length then
    some ("Too many decimal places (max " ++ toString maxDecimals ++ ")")
  else if isDecimal isZero trimmed ∧ ¬ (parts trimmed).1.isEmpty then
    some "Amount must be greater than zero"
  else none

/-! ## Spellings -/

structure Spells (cs whole frac : List Char) : Prop where
  whole_digits : whole.all Char.isDigit = true
  frac_digits : frac.all Char.isDigit = true
  text : cs = whole ∧ frac = [] ∨ cs = whole ++ '.' :: frac

/-- **The amount that a text denotes.** -/
def Denotes (cs : List Char) (q : ℚ) : Prop :=
  ∃ whole frac, Spells cs whole frac ∧ q = value whole + value frac / 10 ^ frac.length

variable {cs whole frac : List Char} {p : Char → Bool} {n : ℕ}

theorem spells_of_isDecimal (h : isDecimal Char.isDigit cs = true) :
    Spells cs (parts cs).1 (parts cs).2 := by
  unfold isDecimal at h
  split at h
  next whole hsplit =>
    rw [parts, hsplit]
    exact ⟨h, rfl, .inl ⟨eq_of_splitOn_singleton hsplit, rfl⟩⟩
  next whole frac hsplit =>
    rw [Bool.and_eq_true] at h
    rw [parts, hsplit]
    exact ⟨h.1, h.2, .inr (eq_of_splitOn_pair hsplit)⟩
  next => cases h

theorem splitOn_of_spells (h : Spells cs whole frac) :
    cs.splitOn '.' = [whole] ∧ frac = [] ∨ cs.splitOn '.' = [whole, frac] := by
  have hwhole := point_not_mem h.whole_digits
  rcases h.text with ⟨rfl, rfl⟩ | rfl
  · exact .inl ⟨List.splitOn_eq_singleton hwhole, rfl⟩
  · refine .inr ?_
    rw [List.splitOn_append_cons_self_of_not_mem hwhole,
      List.splitOn_eq_singleton (point_not_mem h.frac_digits)]

theorem parts_of_spells (h : Spells cs whole frac) : parts cs = (whole, frac) := by
  rcases splitOn_of_spells h with ⟨hsplit, rfl⟩ | hsplit
  · rw [parts, hsplit]
  · rw [parts, hsplit]

theorem isDecimal_of_spells (h : Spells cs whole frac) :
    isDecimal p cs = (whole.all p && frac.all p) := by
  rcases splitOn_of_spells h with ⟨hsplit, rfl⟩ | hsplit
  · rw [isDecimal, hsplit]
    simp
  · rw [isDecimal, hsplit]

theorem mem_of_spells (h : Spells cs whole frac) {c : Char} (hc : c ∈ cs) :
    c.isDigit = true ∨ c = '.' := by
  have hwhole := List.all_eq_true.mp h.whole_digits
  have hfrac := List.all_eq_true.mp h.frac_digits
  rcases h.text with ⟨rfl, -⟩ | rfl
  · exact .inl (hwhole c hc)
  · rcases List.mem_append.mp hc with hc | hc
    · exact .inl (hwhole c hc)
    · rcases List.mem_cons.mp hc with rfl | hc
      · exact .inr rfl
      · exact .inl (hfrac c hc)

theorem isWhiteSpace_eq_isBlank {c : Char} (h : c.toNat < 128) : isWhiteSpace c = isBlank c := by
  rw [Bool.eq_iff_iff]
  simp only [isWhiteSpace, isBlank, Bool.or_eq_true, Bool.and_eq_true, decide_eq_true_eq,
    beq_iff_eq]
  omega

theorem isBlank_of_isDigit {c : Char} (h : c.isDigit = true) : isBlank c = false := by
  have hhigh : c.toNat ≤ 57 := (Char.isDigit_iff_toNat.mp h).2
  rw [← isWhiteSpace_eq_isBlank (by omega), not_whiteSpace_of_isDigit h]

theorem jsTrim_of_spells (h : Spells cs whole frac) : jsTrim cs = cs := by
  have hblank : ∀ c ∈ cs, isBlank c = false := by
    intro c hc
    rcases mem_of_spells h hc with hdigit | rfl
    · exact isBlank_of_isDigit hdigit
    · decide
  have hstart : cs.dropWhile isBlank = cs := by
    cases cs with
    | nil => rfl
    | cons c cs => simp [hblank c List.mem_cons_self]
  rw [jsTrim, hstart, List.rdropWhile_eq_self_iff]
  intro hne
  simp [hblank _ (List.getLast_mem hne)]

/-! ## Zatoshis -/

theorem value_of_zeros (h : cs.all isZero = true) : value cs = 0 := by
  have hzeros : cs = List.replicate cs.length '0' :=
    List.eq_replicate_of_mem fun c hc => by simpa [isZero] using List.all_eq_true.mp h c hc
  rw [hzeros, value_replicate_zero]

theorem value_orZero (cs : List Char) : value (orZero cs) = value cs := by
  unfold orZero
  split_ifs with h
  · rw [List.isEmpty_iff.mp h]
    rfl
  · rfl

def zatoshis (whole frac : List Char) : ℕ :=
  value whole * zatoshiPerZec + value (padEnd 8 (frac.take 8))

theorem zatoshis_eq (whole : List Char) (hzeros : (frac.drop 8).all isZero = true) :
    (zatoshis whole frac : ℚ) = (value whole + value frac / 10 ^ frac.length) * 10 ^ 8 := by
  have hpad : value (padEnd 8 (frac.take 8)) * 10 ^ frac.length = value frac * 10 ^ 8 := by
    have hsplit := value_append (frac.take 8) (frac.drop 8)
    rw [List.take_append_drop, value_of_zeros hzeros, List.length_drop, Nat.add_zero] at hsplit
    rw [padEnd, value_append, value_replicate_zero, List.length_replicate, List.length_take, hsplit,
      Nat.add_zero, mul_assoc, mul_assoc, ← pow_add, ← pow_add]
    congr 2
    omega
  have hcast : (value (padEnd 8 (frac.take 8)) : ℚ) * 10 ^ frac.length = value frac * 10 ^ 8 := by
    exact_mod_cast hpad
  rw [zatoshis, zatoshiPerZec]
  push_cast
  field_simp
  rw [add_mul, hcast]
  ring

theorem zatoshis_pos_ne_nil (h : Spells cs whole frac) (hpos : 0 < zatoshis whole frac) :
    cs ≠ [] := by
  rintro rfl
  rcases h.text with ⟨rfl, rfl⟩ | h
  · exact absurd hpos (by decide)
  · simp at h

/-- **What is read**: the digits of a text that spells a positive amount. -/
theorem parseZecToZatoshis_eq_ok_iff {s z : String} :
    parseZecToZatoshis s = .ok z ↔ ∃ whole frac, Spells (jsTrim s.toList) whole frac ∧
      (frac.drop 8).all isZero = true ∧ 0 < zatoshis whole frac ∧
        z = toString (zatoshis whole frac) := by
  unfold parseZecToZatoshis
  generalize jsTrim s.toList = cs
  dsimp only
  constructor
  · intro h
    split_ifs at h with hempty hminus hdecimal hextra hzero
    refine ⟨_, _, spells_of_isDecimal hdecimal, ?_, ?_, ?_⟩
    · by_contra hnot
      refine hextra ⟨?_, hnot⟩
      by_contra hle
      rw [List.drop_eq_nil_of_le (Nat.le_of_not_lt hle)] at hnot
      exact hnot rfl
    · rw [value_orZero] at hzero
      exact Nat.lt_of_not_le hzero
    · rw [value_orZero] at h
      exact (Except.ok.inj h).symm
  · rintro ⟨whole, frac, hspells, hzeros, hpos, rfl⟩
    have hne := zatoshis_pos_ne_nil hspells hpos
    have hminus : cs.head? ≠ some '-' := fun hhead => by
      rcases mem_of_spells hspells (List.mem_of_head? hhead) with h | h
      · exact absurd h (by decide)
      · exact absurd h (by decide)
    have hdecimal : isDecimal Char.isDigit cs = true := by
      rw [isDecimal_of_spells hspells, hspells.whole_digits, hspells.frac_digits, Bool.and_self]
    rw [if_neg (by simpa using hne), if_neg hminus, if_neg (not_not.mpr hdecimal),
      parts_of_spells hspells]
    dsimp only
    rw [if_neg fun h => h.2 hzeros, value_orZero]
    exact if_neg (Nat.not_le.mpr hpos)

/-! ## Canonical texts -/

/-- No zeros in front or at the end of a fraction. -/
structure Canonical (n : Numeral) : Prop where
  whole : n.whole = ['0'] ∨ n.whole.head? ≠ some '0'
  frac : ∀ frac ∈ n.frac, frac ≠ [] ∧ frac.getLast? ≠ some '0'

theorem spells_numeral (n : Numeral) : Spells n.text n.whole n.fracDigits := by
  refine ⟨n.whole_digits, n.all_fracDigits, ?_⟩
  unfold Numeral.text Numeral.fracDigits
  cases n.frac with
  | none => exact .inl ⟨rfl, rfl⟩
  | some frac => exact .inr rfl

theorem all_orZero (h : cs.all Char.isDigit = true) : (orZero cs).all Char.isDigit = true := by
  unfold orZero
  split_ifs
  · rfl
  · exact h

theorem orZero_ne_nil (cs : List Char) : orZero cs ≠ [] := by
  unfold orZero
  split_ifs with h
  · exact List.cons_ne_nil _ _
  · simpa using h

def shorten (whole frac : List Char) (hwhole : whole.all Char.isDigit = true)
    (hfrac : frac.all Char.isDigit = true) : Numeral where
  whole := orZero (whole.dropWhile isZero)
  frac := if (frac.rdropWhile isZero).isEmpty then none else some (frac.rdropWhile isZero)
  whole_ne_nil := orZero_ne_nil _
  whole_digits := all_orZero (List.all_eq_true.mpr fun c hc =>
    List.all_eq_true.mp hwhole c ((List.dropWhile_suffix _).subset hc))
  frac_digits := by
    split_ifs
    · rfl
    · exact List.all_eq_true.mpr fun c hc =>
        List.all_eq_true.mp hfrac c ((List.rdropWhile_prefix _ _).subset hc)

section shorten

variable (hwhole : whole.all Char.isDigit = true) (hfrac : frac.all Char.isDigit = true)

theorem fracDigits_shorten :
    (shorten whole frac hwhole hfrac).fracDigits = frac.rdropWhile isZero := by
  unfold Numeral.fracDigits shorten
  dsimp only
  split_ifs with h
  · exact (List.isEmpty_iff.mp h).symm
  · rfl

theorem text_shorten :
    (shorten whole frac hwhole hfrac).text =
      if (frac.rdropWhile isZero).isEmpty then orZero (whole.dropWhile isZero)
      else orZero (whole.dropWhile isZero) ++ '.' :: frac.rdropWhile isZero := by
  unfold Numeral.text shorten
  dsimp only
  split_ifs with h
  · rfl
  · rfl

theorem canonical_shorten : Canonical (shorten whole frac hwhole hfrac) := by
  constructor
  · show orZero (whole.dropWhile isZero) = ['0'] ∨ (orZero (whole.dropWhile isZero)).head? ≠ _
    unfold orZero
    split_ifs with h
    · exact .inl rfl
    · refine .inr fun hhead => ?_
      have hnot := List.head?_dropWhile_not isZero whole
      rw [hhead] at hnot
      exact absurd hnot (by decide)
  · intro f hf
    have hsome : f = frac.rdropWhile isZero ∧ f ≠ [] := by
      have hf : (if (frac.rdropWhile isZero).isEmpty then none else some (frac.rdropWhile isZero)) =
        some f := hf
      split_ifs at hf with hempty
      obtain rfl := Option.some.inj hf
      exact ⟨rfl, by simpa using hempty⟩
    obtain ⟨rfl, hne⟩ := hsome
    refine ⟨hne, fun hlast => ?_⟩
    rw [List.getLast?_eq_getLast_of_ne_nil hne] at hlast
    have hnot := List.rdropWhile_last_not isZero frac hne
    rw [Option.some.inj hlast] at hnot
    exact hnot rfl

theorem value_shorten :
    (shorten whole frac hwhole hfrac).value = value whole + value frac / 10 ^ frac.length := by
  have hw : value (orZero (whole.dropWhile isZero)) = value whole := by
    have hsplit := value_append (whole.takeWhile isZero) (whole.dropWhile isZero)
    rw [List.takeWhile_append_dropWhile, value_of_zeros (List.all_takeWhile), Nat.zero_mul,
      Nat.zero_add] at hsplit
    rw [value_orZero, hsplit]
  have hlen : frac.length =
      (frac.rdropWhile isZero).length + (frac.rtakeWhile isZero).length := by
    rw [← List.length_append, List.rdropWhile_append_rtakeWhile]
  have hf : value frac =
      value (frac.rdropWhile isZero) * 10 ^ (frac.rtakeWhile isZero).length := by
    have hsplit := value_append (frac.rdropWhile isZero) (frac.rtakeWhile isZero)
    rw [List.rdropWhile_append_rtakeWhile] at hsplit
    rw [hsplit, value_of_zeros (List.all_eq_true.mpr fun c hc => List.mem_rtakeWhile_imp hc),
      Nat.add_zero]
  rw [Numeral.value, fracDigits_shorten, hf, hlen]
  show (value (orZero (whole.dropWhile isZero)) : ℚ) + _ = _
  rw [hw, pow_add]
  push_cast
  field_simp

end shorten

theorem isDigit_toDigits (n : ℕ) : (Nat.toDigits 10 n).all Char.isDigit = true :=
  List.all_eq_true.mpr fun c hc => Nat.isDigit_of_mem_toDigits (by decide) le_rfl hc

theorem toList_toString (n : ℕ) : (toString n).toList = Nat.toDigits 10 n := by simp

/-- **What is written** is canonical. -/
theorem formatZatoshisToZec_spec (h : (toString n).length ≤ 78) :
    ∃ c : Numeral, (formatZatoshisToZec (toString n)).toList = c.text ∧ Canonical c ∧
      c.value = n / 10 ^ 8 ∧ c.fracDigits.length ≤ 8 := by
  have hdigits := isDigit_toDigits n
  have htrim : jsTrim (Nat.toDigits 10 n) = Nat.toDigits 10 n :=
    jsTrim_of_spells ⟨hdigits, rfl, .inl ⟨rfl, rfl⟩⟩
  let padded := padStart 9 (Nat.toDigits 10 n)
  have hpadded : padded.all Char.isDigit = true := by
    simp only [padded, padStart, List.all_append, hdigits, List.all_replicate]
    split_ifs <;> rfl
  have hvalue : value padded = n := by
    simp [padded, padStart, value_append, value_replicate_zero]
  have hlength : 9 ≤ padded.length := by
    simp only [padded, padStart, List.length_append, List.length_replicate]
    omega
  let wholeEnd := padded.length - 8
  have hw : (padded.take wholeEnd).all Char.isDigit = true := ZbagSwap.all_take hpadded _
  have hf : (padded.drop wholeEnd).all Char.isDigit = true :=
    List.all_eq_true.mpr fun c hc => List.all_eq_true.mp hpadded c (List.mem_of_mem_drop hc)
  have hfLength : (padded.drop wholeEnd).length = 8 := by
    rw [List.length_drop]
    omega
  refine ⟨shorten _ _ hw hf, ?_, canonical_shorten hw hf, ?_, ?_⟩
  · have hne : ¬ ((Nat.toDigits 10 n).isEmpty ∨ ¬ (Nat.toDigits 10 n).all Char.isDigit) := by
      simp [hdigits, Nat.toDigits_ne_nil]
    rw [← String.length_toList, toList_toString] at h
    rw [formatZatoshisToZec, formatAtomicAmount, toList_toString, htrim, text_shorten]
    dsimp only
    rw [if_neg hne, if_neg (Nat.not_lt.mpr h), if_neg (by decide), String.toList_ofList]
  · have hsplit := value_append (padded.take wholeEnd) (padded.drop wholeEnd)
    rw [List.take_append_drop, hvalue, hfLength] at hsplit
    rw [value_shorten, hfLength, hsplit]
    push_cast
    field_simp
    norm_num
  · rw [fracDigits_shorten, ← hfLength]
    exact (List.rdropWhile_prefix _ _).length_le

theorem toString_inj {m n : ℕ} : toString m = toString n ↔ m = n := by
  refine ⟨fun h => ?_, fun h => h ▸ rfl⟩
  have hvalue := congrArg (fun s : String => value s.toList) h
  simpa using hvalue

theorem denotes_of_parse {s z : String} (h : parseZecToZatoshis s = .ok z) :
    ∃ n : ℕ, 0 < n ∧ z = toString n ∧ Denotes (jsTrim s.toList) (n / 10 ^ 8) ∧
      ∀ q, Denotes (jsTrim s.toList) q → q = n / 10 ^ 8 := by
  obtain ⟨whole, frac, hspells, hzeros, hpos, rfl⟩ := parseZecToZatoshis_eq_ok_iff.mp h
  have hvalue : (value whole + value frac / 10 ^ frac.length : ℚ) =
      zatoshis whole frac / 10 ^ 8 := by
    rw [zatoshis_eq whole hzeros, mul_div_cancel_right₀ _ (by norm_num)]
  refine ⟨zatoshis whole frac, hpos, rfl, ⟨whole, frac, hspells, hvalue.symm⟩, ?_⟩
  rintro q ⟨whole', frac', hspells', rfl⟩
  obtain ⟨rfl, rfl⟩ := Prod.mk.inj ((parts_of_spells hspells).symm.trans (parts_of_spells hspells'))
  exact hvalue

/-- **Zatoshis that are written are read back**, and texts are read alike exactly if they denote the
same amount. -/
theorem zec_round_trip :
    (∀ n : ℕ, 0 < n → (toString n).length ≤ 78 →
      parseZecToZatoshis (formatZatoshisToZec (toString n)) = .ok (toString n)) ∧
    (∀ s z : String, parseZecToZatoshis s = .ok z → z.length ≤ 78 →
      ∃ (q : ℚ) (c : Numeral), Denotes (jsTrim s.toList) q ∧ c.value = q ∧ Canonical c ∧
        (formatZatoshisToZec z).toList = c.text) ∧
    ∀ s t y z : String, parseZecToZatoshis s = .ok y → parseZecToZatoshis t = .ok z →
      (y = z ↔ ∃ q, Denotes (jsTrim s.toList) q ∧ Denotes (jsTrim t.toList) q) := by
  refine ⟨fun n hpos hlen => ?_, fun s z h hlen => ?_, fun s t y z hs ht => ?_⟩
  · obtain ⟨c, htext, -, hvalue, hfrac⟩ := formatZatoshisToZec_spec hlen
    have hspells := spells_numeral c
    have hdrop : c.fracDigits.drop 8 = [] := List.drop_eq_nil_of_le hfrac
    have hzeros : (c.fracDigits.drop 8).all isZero = true := by rw [hdrop]; rfl
    have hzatoshis : zatoshis c.whole c.fracDigits = n := by
      have hcast := zatoshis_eq c.whole hzeros
      rw [← Numeral.value, hvalue] at hcast
      field_simp at hcast
      exact_mod_cast hcast
    refine parseZecToZatoshis_eq_ok_iff.mpr ⟨c.whole, c.fracDigits, ?_, hzeros, ?_, ?_⟩
    · rw [htext, jsTrim_of_spells hspells]
      exact hspells
    · rwa [hzatoshis]
    · rw [hzatoshis]
  · obtain ⟨n, -, rfl, hdenotes, -⟩ := denotes_of_parse h
    obtain ⟨c, htext, hcanonical, hvalue, -⟩ :=
      formatZatoshisToZec_spec hlen
    exact ⟨_, c, hdenotes, hvalue, hcanonical, htext⟩
  · obtain ⟨m, -, rfl, hm, hunique⟩ := denotes_of_parse hs
    obtain ⟨n, -, rfl, hn, hunique'⟩ := denotes_of_parse ht
    rw [toString_inj]
    constructor
    · rintro rfl
      exact ⟨_, hm, hn⟩
    · rintro ⟨q, hq, hq'⟩
      have heq : (m / 10 ^ 8 : ℚ) = n / 10 ^ 8 := (hunique q hq).symm.trans (hunique' q hq')
      field_simp at heq
      exact_mod_cast heq

theorem zec_round_trip_half :
    parseZecToZatoshis (formatZatoshisToZec (toString 150000000)) = .ok (toString 150000000) ∧
      ∃ q, Denotes (jsTrim " .50".toList) q ∧ Denotes (jsTrim "0.5".toList) q :=
  ⟨zec_round_trip.1 150000000 (by decide) (by decide +kernel),
    (zec_round_trip.2.2 " .50" "0.5" "50000000" "50000000" (by decide +kernel)
      (by decide +kernel)).mp rfl⟩

/-! ## Checked amounts -/

theorem dropWhile_congr {q : Char → Bool} (h : ∀ c ∈ cs, p c = q c) :
    cs.dropWhile p = cs.dropWhile q := by
  induction cs with
  | nil => rfl
  | cons c cs ih =>
    rw [List.forall_mem_cons] at h
    rw [List.dropWhile_cons, List.dropWhile_cons, h.1, ih h.2]

/-- They agree on ASCII. -/
theorem trim_eq_jsTrim (h : ∀ c ∈ cs, c.toNat < 128) : trim cs = jsTrim cs := by
  have hblank : ∀ c ∈ cs, isWhiteSpace c = isBlank c := fun c hc => isWhiteSpace_eq_isBlank (h c hc)
  have hstart : trimStart cs = cs.dropWhile isBlank := dropWhile_congr hblank
  have hend : ((cs.dropWhile isBlank).reverse.dropWhile isWhiteSpace) =
      (cs.dropWhile isBlank).reverse.dropWhile isBlank :=
    dropWhile_congr fun c hc =>
      hblank c ((List.dropWhile_suffix _).subset (List.mem_reverse.mp hc))
  rw [trim, hstart, trimStart, hend]
  rfl

theorem zeros_of_value (h : cs.all Char.isDigit = true) (hzero : value cs = 0) :
    cs.all isZero = true := by
  induction cs with
  | nil => rfl
  | cons c cs ih =>
    rw [List.all_cons, Bool.and_eq_true] at h
    have hsplit : value (c :: cs) = value [c] * 10 ^ cs.length + value cs := value_append [c] cs
    rw [hzero, eq_comm, Nat.add_eq_zero_iff, Nat.mul_eq_zero] at hsplit
    have hc : value [c] = 0 := hsplit.1.resolve_right (by positivity)
    have hlow : 48 ≤ c.toNat := (Char.isDigit_iff_toNat.mp h.1).1
    rw [value, Nat.ofDigitChars_cons, Nat.ofDigitChars_nil] at hc
    change 10 * 0 + (c.toNat - 48) = 0 at hc
    have hchar : c = '0' := Char.ext (UInt32.toNat_inj.mp (by change c.toNat = 48; omega))
    rw [List.all_cons, ih h.2 hsplit.2, hchar]
    rfl

theorem spells_of_validate {v : String} {maxDecimals : ℕ} {exampleText : Option String}
    (hblank : jsTrim v.toList ≠ []) (h : validateDecimalAmount v maxDecimals exampleText = none) :
    ∃ whole frac, Spells (jsTrim v.toList) whole frac ∧ whole ≠ [] ∧ frac.length ≤ maxDecimals ∧
      0 < value whole + value frac := by
  unfold validateDecimalAmount at h
  dsimp only at h
  rw [if_neg (by simpa using hblank)] at h
  split_ifs at h with hmatch hlen hzero
  rw [not_or, not_not] at hmatch
  have hspells := spells_of_isDecimal hmatch.1
  refine ⟨_, _, hspells, by simpa using hmatch.2, Nat.le_of_not_lt hlen, ?_⟩
  by_contra hnot
  have hsum := Nat.add_eq_zero_iff.mp (Nat.eq_zero_of_not_pos hnot)
  refine hzero ⟨?_, hmatch.2⟩
  rw [isDecimal_of_spells hspells, zeros_of_value hspells.whole_digits hsum.1,
    zeros_of_value hspells.frac_digits hsum.2, Bool.and_self]

theorem numeral_of_spells (h : Spells cs whole frac) (hne : whole ≠ []) :
    ∃ n : Numeral, n.text = cs ∧ n.whole = whole ∧ n.fracDigits = frac := by
  rcases h.text with ⟨rfl, rfl⟩ | rfl
  · exact ⟨⟨cs, none, hne, h.whole_digits, rfl⟩, rfl, rfl, rfl⟩
  · exact ⟨⟨whole, some frac, hne, h.whole_digits, h.frac_digits⟩, rfl, rfl, rfl⟩

theorem scaled_exact {n : Numeral} {d : ℕ} (h : n.fracDigits.length ≤ d) :
    (n.scaled d : ℚ) = n.value * 10 ^ d := by
  obtain ⟨k, rfl⟩ := Nat.exists_eq_add_of_le h
  rw [n.scaled_eq_take, List.take_of_length_le h, Nat.add_sub_cancel_left, Numeral.value]
  push_cast
  rw [pow_add]
  field_simp

open ZbagSwap in
/-- **An amount that the front end accepts is converted without a loss.** -/
theorem validated_amount_converts {v : String} (hascii : ∀ c ∈ v.toList, c.toNat < 128)
    (hblank : jsTrim v.toList ≠ []) {d : UInt8} (hd : d.toNat ≤ 38) {exampleText : Option String}
    (haccept : validateDecimalAmount v d.toNat exampleText = none) :
    ∃ q, Denotes (jsTrim v.toList) q ∧ (q * 10 ^ d.toNat < 2 ^ 128 →
      ∃ k : ℕ, (k : ℚ) = q * 10 ^ d.toNat ∧
        ∀ build, convertToSmallestUnits build v d = .ok (toString k)) := by
  obtain ⟨whole, frac, hspells, hne, hlen, hpos⟩ := spells_of_validate hblank haccept
  obtain ⟨n, htext, rfl, rfl⟩ := numeral_of_spells hspells hne
  refine ⟨n.value, ⟨_, _, hspells, rfl⟩, fun hlt => ?_⟩
  have hexact := scaled_exact hlen
  refine ⟨n.scaled d.toNat, hexact, fun build => ?_⟩
  rw [← hexact] at hlt
  have hsize : n.scaled d.toNat < u128Size := by exact_mod_cast hlt
  have hscaled : 0 < n.scaled d.toNat := by
    rw [n.scaled_eq_take, List.take_of_length_le hlen]
    rcases Nat.add_pos_iff_pos_or_pos.mp hpos with hwhole | hfrac
    · exact Nat.add_pos_left (Nat.mul_pos hwhole (by positivity)) _
    · exact Nat.add_pos_right _ (Nat.mul_pos hfrac (by positivity))
  have hscalable : Scalable n d.toNat := by
    by_cases hnil : n.fracDigits = []
    · exact .inl hnil
    · exact .inr ⟨(List.length_pos_iff.mpr hnil).trans_le hlen, .inl hd⟩
  rw [convertToSmallestUnits_numeral build n (htext.trans (trim_eq_jsTrim hascii).symm)]
  rcases convertParts_of_scalable build hscalable with ⟨-, -, hok⟩ | ⟨hnot, -⟩
  · exact hok
  · exact absurd ⟨hscaled, hsize⟩ hnot

theorem validated_amount_converts_half :
    validateDecimalAmount " 1.50" 8 none = none ∧ ∃ q, Denotes (jsTrim " 1.50".toList) q ∧
      (q * 10 ^ (8 : UInt8).toNat < 2 ^ 128 → ∃ k : ℕ, (k : ℚ) = q * 10 ^ (8 : UInt8).toNat ∧
        ∀ build, ZbagSwap.convertToSmallestUnits build " 1.50" 8 = .ok (toString k)) :=
  have haccept : validateDecimalAmount " 1.50" 8 none = none := by decide +kernel
  ⟨haccept, validated_amount_converts (by simp) (by decide) (by decide) haccept⟩

end ZbagAmounts
