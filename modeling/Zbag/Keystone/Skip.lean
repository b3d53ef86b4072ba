import Zbag.Keystone.PcztUr

/-!
# Keystone — skipping items

`skipCborItem` of the front end walks over an item of any kind without keeping what is in it. It
recurses into arrays, maps, tags and chunks, and fails where a head has an argument that is not a
safe integer; the depth of the JavaScript stack is left out.
-/

namespace ZbagKeystone

open Cbor

theorem readCborHead_lt {bytes : List UInt8} {offset : ℕ} {head : CborHead}
    (h : readCborHead bytes offset = .ok head) : offset < bytes.length ∧ offset < head.offset := by
  rw [readCborHead_eq] at h
  cases hlead : readLead (bytes.drop offset) with
  | error e =>
    rw [hlead] at h
    cases e <;> cases h
  | ok r =>
    obtain ⟨lead, rest⟩ := r
    have hlength := length_of_lead (readLead_eq_ok_iff.mp hlead)
    have hpos := lead.length_encode_pos
    rw [hlead, urHeadResult] at h
    split_ifs at h
    obtain rfl := Except.ok.inj h
    exact ⟨by omega, Nat.lt_add_of_pos_right hpos⟩

/-! ## Skipping an item -/

namespace Skip

mutual

/-- The offset after the item. -/
def item (bytes : List UInt8) (offset : ℕ) :
    Except String {next : ℕ // offset < bytes.length ∧ offset < next} :=
  match hhead : readCborHead bytes offset with
  | .error message => .error message
  | .ok head =>
    have hlt := readCborHead_lt hhead
    match head.major with
    | 0 | 1 | 7 => .ok ⟨head.offset, hlt⟩
    | 2 | 3 =>
      if head.indefinite then
        (untilBreak bytes 1 Nat.one_pos head.offset).map fun next =>
          ⟨next.1, hlt.1, Nat.lt_trans hlt.2 next.2⟩
      else .ok ⟨head.offset + head.value, hlt.1, Nat.lt_add_right _ hlt.2⟩
    | 4 =>
      if head.indefinite then
        (untilBreak bytes 1 Nat.one_pos head.offset).map fun next =>
          ⟨next.1, hlt.1, Nat.lt_trans hlt.2 next.2⟩
      else
        (times bytes head.value head.offset).map fun next =>
          ⟨next.1, hlt.1, Nat.lt_of_lt_of_le hlt.2 next.2.1⟩
    | 5 =>
      -- a key and a value each time
      if head.indefinite then
        (untilBreak bytes 2 Nat.two_pos head.offset).map fun next =>
          ⟨next.1, hlt.1, Nat.lt_trans hlt.2 next.2⟩
      else
        (times bytes (2 * head.value) head.offset).map fun next =>
          ⟨next.1, hlt.1, Nat.lt_of_lt_of_le hlt.2 next.2.1⟩
    | 6 =>
      (item bytes head.offset).map fun next => ⟨next.1, hlt.1, Nat.lt_trans hlt.2 next.2.2⟩
    | major => .error ("Unknown CBOR major type " ++ toString major)
termination_by (bytes.length - offset, 0, 0)

def times (bytes : List UInt8) (n offset : ℕ) :
    Except String {next : ℕ // offset ≤ next ∧ (0 < n → offset < bytes.length ∧ offset < next)} :=
  match n with
  | 0 => .ok ⟨offset, Nat.le_refl offset, nofun⟩
  | n + 1 =>
    match item bytes offset with
    | .error message => .error message
    | .ok ⟨next, hnext⟩ =>
      (times bytes n next).map fun last =>
        ⟨last.1, Nat.le_trans hnext.2.le last.2.1, fun _ =>
          ⟨hnext.1, Nat.lt_of_lt_of_le hnext.2 last.2.1⟩⟩
termination_by (bytes.length - offset, 1, n)

/-- So many items each time. -/
def untilBreak (bytes : List UInt8) (per : ℕ) (hper : 0 < per) (offset : ℕ) :
    Except String {next : ℕ // offset < next} :=
  if bytes[offset]? = some breakByte then .ok ⟨offset + 1, Nat.lt_succ_self offset⟩
  else
    match times bytes per offset with
    | .error message => .error message
    | .ok ⟨next, hnext⟩ =>
      have hlt := hnext.2 hper
      (untilBreak bytes per hper next).map fun last => ⟨last.1, Nat.lt_trans hlt.2 last.2⟩
termination_by (bytes.length - offset, 2, 0)

end

end Skip

def skipCborItem (bytes : List UInt8) (offset : ℕ) : Except String ℕ :=
  (Skip.item bytes offset).map Subtype.val

def skipItems (bytes : List UInt8) (n offset : ℕ) : Except String ℕ :=
  (Skip.times bytes n offset).map Subtype.val

def skipUntilBreak (bytes : List UInt8) (per : ℕ) (hper : 0 < per) (offset : ℕ) :
    Except String ℕ :=
  (Skip.untilBreak bytes per hper offset).map Subtype.val

def skipBehind (bytes : List UInt8) (head : CborHead) : Except String ℕ :=
  match head.major with
  | 0 | 1 | 7 => .ok head.offset
  | 2 | 3 =>
    if head.indefinite then skipUntilBreak bytes 1 Nat.one_pos head.offset
    else .ok (head.offset + head.value)
  | 4 =>
    if head.indefinite then skipUntilBreak bytes 1 Nat.one_pos head.offset
    else skipItems bytes head.value head.offset
  | 5 =>
    if head.indefinite then skipUntilBreak bytes 2 Nat.two_pos head.offset
    else skipItems bytes (2 * head.value) head.offset
  | 6 => skipCborItem bytes head.offset
  | major => .error ("Unknown CBOR major type " ++ toString major)

theorem map_val_map {p q : ℕ → Prop} (x : Except String {n // p n}) (f : {n // p n} → {n // q n})
    (hf : ∀ n, (f n).1 = n.1) : (x.map f).map Subtype.val = x.map Subtype.val := by
  cases x with
  | error message => rfl
  | ok n => exact congrArg Except.ok (hf n)

section Equations

variable (bytes : List UInt8) (offset : ℕ)

theorem skipCborItem_eq :
    skipCborItem bytes offset = readCborHead bytes offset >>= skipBehind bytes := by
  rw [skipCborItem, Skip.item]
  split
  next message hhead =>
    rw [hhead]
    rfl
  next head hhead =>
    have hbind : readCborHead bytes offset >>= skipBehind bytes = skipBehind bytes head := by
      rw [hhead]
      rfl
    rw [hbind]
    obtain ⟨major, value, next, indefinite⟩ := head
    dsimp only [skipBehind]
    split
    · rfl
    · rfl
    · rfl
    · split_ifs
      · exact map_val_map _ _ fun _ => rfl
      · rfl
    · split_ifs
      · exact map_val_map _ _ fun _ => rfl
      · rfl
    · split_ifs
      · exact map_val_map _ _ fun _ => rfl
      · exact map_val_map _ _ fun _ => rfl
    · split_ifs
      · exact map_val_map _ _ fun _ => rfl
      · exact map_val_map _ _ fun _ => rfl
    · exact map_val_map _ _ fun _ => rfl
    · rfl

theorem skipItems_zero : skipItems bytes 0 offset = .ok offset := by
  rw [skipItems, Skip.times]
  rfl

theorem skipItems_succ (n : ℕ) :
    skipItems bytes (n + 1) offset = skipCborItem bytes offset >>= skipItems bytes n := by
  rw [skipItems, Skip.times, skipCborItem]
  cases Skip.item bytes offset with
  | error message => rfl
  | ok next =>
    obtain ⟨next, hnext⟩ := next
    exact map_val_map (Skip.times bytes n next) _ fun _ => rfl

theorem skipUntilBreak_eq (per : ℕ) (hper : 0 < per) :
    skipUntilBreak bytes per hper offset =
      if bytes[offset]? = some breakByte then .ok (offset + 1)
      else skipItems bytes per offset >>= skipUntilBreak bytes per hper := by
  rw [skipUntilBreak, Skip.untilBreak, skipItems]
  split_ifs
  · rfl
  · cases Skip.times bytes per offset with
    | error message => rfl
    | ok next =>
      obtain ⟨next, hnext⟩ := next
      exact map_val_map (Skip.untilBreak bytes per hper next) _ fun _ => rfl

end Equations

/-! ## Skipping a well-formed item -/

def Safe (heads : List ℕ) : Prop := ∀ a ∈ heads, a ≤ maxSafeInteger

instance (heads : List ℕ) : Decidable (Safe heads) := by unfold Safe; infer_instance

@[simp] theorem safe_nil : Safe [] := by simp [Safe]

@[simp] theorem safe_cons (a : ℕ) (heads : List ℕ) :
    Safe (a :: heads) ↔ a ≤ maxSafeInteger ∧ Safe heads := by simp [Safe]

@[simp] theorem safe_append (heads heads' : List ℕ) :
    Safe (heads ++ heads') ↔ Safe heads ∧ Safe heads' := by simp [Safe, or_imp, forall_and]

variable {items : List Raw} {h : Head} {major : Fin 8}

theorem safe_allHeads : Safe (allHeads items) ↔ ∀ r ∈ items, Safe r.heads := by
  induction items with
  | nil => simp
  | cons r items ih => simp [ih]

section Within

variable {α β : Type}

def within (p : Prop) [Decidable p] (a : α) : Except String α :=
  if p then .ok a else .error "CBOR length too large"

theorem within_of {p : Prop} [Decidable p] (h : p) (a : α) : within p a = .ok a := if_pos h

theorem within_congr {p q : Prop} [Decidable p] [Decidable q] (h : p ↔ q) (a : α) :
    within p a = within q a := by
  simp only [within, h]

theorem within_eq_ok_iff {p : Prop} [Decidable p] {a b : α} :
    within p a = .ok b ↔ p ∧ a = b := by
  unfold within
  split_ifs with h
  · simp [h]
  · simp [h]

/-- **Two readers in a row.** -/
theorem within_bind {p q : Prop} [Decidable p] [Decidable q] {a : α} {b : β}
    {f : α → Except String β} (hf : f a = within q b) :
    within p a >>= f = within (p ∧ q) b := by
  by_cases hp : p
  · rw [within_of hp]
    show f a = _
    rw [hf]
    exact within_congr (by simp [hp]) b
  · rw [within, within, if_neg hp, if_neg fun h => hp h.1]
    rfl

theorem within_bind_ok {p : Prop} [Decidable p] {a : α} {b : β} {f : α → Except String β}
    (hf : f a = .ok b) : within p a >>= f = within p b := by
  unfold within
  split_ifs
  · exact hf
  · rfl

end Within

variable {bytes rest : List UInt8} {offset : ℕ}

theorem readCborHead_of_head (hdrop : bytes.drop offset = h.encode ++ rest) :
    readCborHead bytes offset =
      within (h.arg ≤ maxSafeInteger) ⟨h.major, h.arg, offset + h.encode.length, false⟩ := by
  have hlead : bytes.drop offset = (Lead.definite h).encode ++ rest := hdrop
  rw [Ur.readCborHead_of_lead hlead]
  by_cases hsafe : h.arg ≤ maxSafeInteger
  · rw [within_of hsafe]
    exact if_neg (Nat.not_lt.mpr hsafe)
  · rw [within, if_neg hsafe]
    exact if_pos (Nat.not_le.mp hsafe)

theorem readCborHead_of_open (hdrop : bytes.drop offset = initialByte major 31 :: rest) :
    readCborHead bytes offset = .ok ⟨major, 0, offset + 1, true⟩ := by
  have hlead : bytes.drop offset = (Lead.indefinite major).encode ++ rest := hdrop
  rw [Ur.readCborHead_of_lead hlead]
  exact if_neg (Nat.not_lt_zero _)

/-- It is skipped as a whole, or a head in it is refused. -/
def Skips (bytes : List UInt8) (r : Raw) : Prop :=
  ∀ ⦃offset : ℕ⦄ ⦃rest : List UInt8⦄, bytes.drop offset = r.bytes ++ rest →
    skipCborItem bytes offset = within (Safe r.heads) (offset + r.bytes.length)

theorem skipCborItem_of_head (hdrop : bytes.drop offset = h.encode ++ rest) {p : Prop} [Decidable p]
    {next : ℕ}
    (hbehind : skipBehind bytes ⟨h.major, h.arg, offset + h.encode.length, false⟩ =
      within p next) :
    skipCborItem bytes offset = within (h.arg ≤ maxSafeInteger ∧ p) next := by
  rw [skipCborItem_eq, readCborHead_of_head hdrop]
  exact within_bind hbehind

theorem skipCborItem_of_open (hdrop : bytes.drop offset = initialByte major 31 :: rest) :
    skipCborItem bytes offset = skipBehind bytes ⟨major, 0, offset + 1, true⟩ := by
  rw [skipCborItem_eq, readCborHead_of_open hdrop]
  rfl

theorem skipItems_of (hskips : ∀ r ∈ items, Skips bytes r)
    (hdrop : bytes.drop offset = allBytes items ++ rest) :
    skipItems bytes items.length offset =
      within (Safe (allHeads items)) (offset + (allBytes items).length) := by
  induction items generalizing offset with
  | nil => exact skipItems_zero bytes offset
  | cons r items ih =>
    rw [allBytes_cons, List.append_assoc] at hdrop
    have hnext := drop_add_of_append hdrop
    rw [List.length_cons, skipItems_succ, hskips r List.mem_cons_self hdrop,
      within_bind (ih (fun r' hr' => hskips r' (List.mem_cons_of_mem r hr')) hnext),
      allBytes_cons, List.length_append, ← Nat.add_assoc]
    exact within_congr (by simp) _

theorem skipUntilBreak_of {per : ℕ} (hper : 0 < per) {groups : List (List Raw)}
    (hlen : ∀ g ∈ groups, g.length = per) (hitems : ∀ r ∈ groups.flatten, Item r)
    (hskips : ∀ r ∈ groups.flatten, Skips bytes r)
    (hdrop : bytes.drop offset = allBytes groups.flatten ++ breakByte :: rest) :
    skipUntilBreak bytes per hper offset =
      within (Safe (allHeads groups.flatten)) (offset + (allBytes groups.flatten).length + 1) := by
  induction groups generalizing offset with
  | nil =>
    rw [skipUntilBreak_eq, ← List.head?_drop, hdrop]
    rfl
  | cons g groups ih =>
    have hg := hlen g List.mem_cons_self
    have happend : allBytes (g :: groups).flatten = allBytes g ++ allBytes groups.flatten := by
      simp [allBytes]
    have hheads : allHeads (g :: groups).flatten = allHeads g ++ allHeads groups.flatten := by
      simp [allHeads]
    have hmem : ∀ r ∈ g, r ∈ (g :: groups).flatten := fun r hr => by simp [hr]
    have hbreak : bytes[offset]? ≠ some breakByte := by
      rw [← List.head?_drop, hdrop]
      intro hhead
      obtain ⟨tail, htail⟩ := List.head?_eq_some_iff.mp hhead
      cases g with
      | nil => exact absurd hg hper.ne
      | cons r g =>
        rw [happend, allBytes_cons, List.append_assoc, List.append_assoc] at htail
        exact (hitems r (hmem r List.mem_cons_self)).ne_break htail
    rw [happend, List.append_assoc] at hdrop
    have hfirst := skipItems_of (fun r hr => hskips r (hmem r hr)) hdrop
    have hlater := ih (fun g' hg' => hlen g' (List.mem_cons_of_mem g hg'))
      (fun r hr => hitems r (List.mem_append_right g hr))
      (fun r hr => hskips r (List.mem_append_right g hr)) (drop_add_of_append hdrop)
    rw [hg] at hfirst
    rw [skipUntilBreak_eq, if_neg hbreak, hfirst, within_bind hlater, happend, hheads,
      List.length_append, ← Nat.add_assoc]
    exact within_congr (safe_append _ _).symm _

theorem flatten_singletons (items : List Raw) : (items.map fun r => [r]).flatten = items := by
  induction items with
  | nil => rfl
  | cons r items ih => simp [ih]

theorem skipUntilBreak_items (hitems : ∀ r ∈ items, Item r) (hskips : ∀ r ∈ items, Skips bytes r)
    (hdrop : bytes.drop offset = allBytes items ++ breakByte :: rest) :
    skipUntilBreak bytes 1 Nat.one_pos offset =
      within (Safe (allHeads items)) (offset + (allBytes items).length + 1) := by
  have hlen : ∀ g ∈ items.map fun r => [r], g.length = 1 := by simp
  have hgroups := skipUntilBreak_of Nat.one_pos hlen (by rwa [flatten_singletons])
    (by rwa [flatten_singletons]) (by rwa [flatten_singletons])
  rwa [flatten_singletons] at hgroups

theorem flatten_pairs (entries : List (Raw × Raw)) :
    (entries.map fun e => [e.1, e.2]).flatten = alternate entries :=
  List.flatMap_def.symm

theorem skipUntilBreak_entries {entries : List (Raw × Raw)}
    (hitems : ∀ r ∈ alternate entries, Item r) (hskips : ∀ r ∈ alternate entries, Skips bytes r)
    (hdrop : bytes.drop offset = allBytes (alternate entries) ++ breakByte :: rest) :
    skipUntilBreak bytes 2 Nat.two_pos offset =
      within (Safe (allHeads (alternate entries)))
        (offset + (allBytes (alternate entries)).length + 1) := by
  have hlen : ∀ g ∈ entries.map fun e => [e.1, e.2], g.length = 2 := by
    intro g hg
    obtain ⟨e, -, rfl⟩ := List.mem_map.mp hg
    rfl
  have hgroups := skipUntilBreak_of Nat.two_pos hlen (by rwa [flatten_pairs])
    (by rwa [flatten_pairs]) (by rwa [flatten_pairs])
  rwa [flatten_pairs] at hgroups

theorem skips_open {heads : List ℕ} {body : List UInt8}
    (hbehind : ∀ ⦃offset : ℕ⦄ ⦃rest : List UInt8⦄, bytes.drop offset = body ++ breakByte :: rest →
      skipBehind bytes ⟨major, 0, offset, true⟩ =
        within (Safe heads) (offset + body.length + 1)) :
    Skips bytes ⟨heads, initialByte major 31 :: (body ++ [breakByte])⟩ := by
  intro offset rest hdrop
  have hopen : bytes.drop offset = [initialByte major 31] ++ (body ++ breakByte :: rest) := by
    rw [hdrop]
    simp
  have hnext : bytes.drop (offset + 1) = body ++ breakByte :: rest := drop_add_of_append hopen
  rw [skipCborItem_of_open hopen, hbehind hnext]
  congr 1
  simp only [List.length_cons, List.length_append, List.length_nil]
  omega

theorem skips_head {heads : List ℕ} {body : List UInt8}
    (hbehind : ∀ ⦃offset : ℕ⦄ ⦃rest : List UInt8⦄, bytes.drop offset = body ++ rest →
      skipBehind bytes ⟨h.major, h.arg, offset, false⟩ =
        within (Safe heads) (offset + body.length)) :
    Skips bytes ⟨h.arg :: heads, h.encode ++ body⟩ := by
  intro offset rest hdrop
  have hhead : bytes.drop offset = h.encode ++ (body ++ rest) := by
    rw [hdrop, List.append_assoc]
  rw [skipCborItem_of_head hhead (hbehind (drop_add_of_append hhead)), List.length_append,
    ← Nat.add_assoc]
  exact within_congr (safe_cons _ _).symm _

theorem skips_plain (hmajor : h.major = 0 ∨ h.major = 1 ∨ h.major = 7) :
    Skips bytes ⟨[h.arg], h.encode⟩ := by
  have hskips : Skips bytes ⟨[h.arg], h.encode ++ []⟩ := by
    refine skips_head fun offset rest _ => ?_
    rcases hmajor with hmajor | hmajor | hmajor
    · rw [hmajor]
      rfl
    · rw [hmajor]
      rfl
    · rw [hmajor]
      rfl
  rwa [List.append_nil] at hskips

theorem skips_string (hmajor : major = 2 ∨ major = 3) (c : Chunk) :
    Skips bytes ⟨[c.data.length], c.encode major⟩ := by
  have hskips : Skips bytes ⟨(c.head major).arg :: [], (c.head major).encode ++ c.data⟩ := by
    refine skips_head fun offset rest _ => ?_
    rcases hmajor with rfl | rfl
    · rfl
    · rfl
  exact hskips

/-- **A well-formed item is skipped, unless a number in it is too great.** -/
theorem item_skips {r : Raw} (h : Item r) : Skips bytes r := by
  induction h with
  | number h hmajor => exact skips_plain (hmajor.imp_right .inl)
  | simple h hmajor hvalue => exact skips_plain (.inr (.inr hmajor))
  | string major hmajor c => exact skips_string hmajor c
  | chunks major hmajor cs =>
    -- the chunks are strings of their own
    rw [← allBytes_chunkRaws, ← allHeads_chunkRaws major]
    refine skips_open fun offset rest hdrop => ?_
    have hskip := skipUntilBreak_items (item_of_chunkRaws hmajor)
      (by simpa [chunkRaws] using fun c _ => skips_string hmajor c) hdrop
    rcases hmajor with rfl | rfl
    · exact hskip
    · exact hskip
  | array h hmajor items hlen hitems ih =>
    refine skips_head fun offset rest hdrop => ?_
    rw [hmajor, ← hlen]
    exact skipItems_of ih hdrop
  | openArray items hitems ih =>
    exact skips_open fun offset rest hdrop => skipUntilBreak_items hitems ih hdrop
  | map h hmajor entries hlen hitems ih =>
    refine skips_head fun offset rest hdrop => ?_
    rw [hmajor, ← hlen]
    show skipItems bytes (2 * entries.length) offset = _
    rw [← length_alternate]
    exact skipItems_of ih hdrop
  | openMap entries hitems ih =>
    exact skips_open fun offset rest hdrop => skipUntilBreak_entries hitems ih hdrop
  | tag h hmajor r hitem ih =>
    refine skips_head fun offset rest hdrop => ?_
    rw [hmajor]
    exact ih hdrop

end ZbagKeystone
