import Mathlib.Data.List.Forall2
import Zbag.Keystone.AccountsUr
import Zbag.Keystone.Flaws

/-!
# Keystone — what an accepted message says

What `decodeZcashAccountsUrCbor` returns stands in the input: under the key 1 of a map, and in the
tagged maps of the array under the key 2. It does not matter what follows the map.

* `EncodesAccounts`: the map that says so; of several entries under one key, the last counts.
-/

namespace ZbagKeystone

open Cbor

/-! ## What a map says -/

def number? (r : Raw) : Option ℕ :=
  match readLead r.bytes with
  | .ok (.definite h, []) => if h.major = 0 then some h.arg else none
  | _ => none

/-- Of several, the last. -/
def valueUnder (n : ℕ) (entries : List (Raw × Raw)) : Option Raw :=
  (entries.reverse.find? fun e => number? e.1 = some n).map Prod.snd

def IsNumber (n : ℕ) (r : Raw) : Prop := ∃ s : Sized n, r = s.raw

def IsFingerprint (fingerprint : String) (r : Raw) : Prop :=
  ∃ c : Chunk, r = stringRaw 2 c ∧ c.data.length = 32 ∧ bytesToHex c.data = fingerprint

section Text

variable (decodeText : List UInt8 → String)

def IsText (text : String) (r : Raw) : Prop :=
  ∃ c : Chunk, r = stringRaw 3 c ∧ decodeText c.data = text

structure Fits (entries : List (Raw × Raw)) (vars : AccountVars) : Prop where
  ufvk : Option.Rel (IsText decodeText) vars.ufvk (valueUnder 1 entries)
  index : Option.Rel IsNumber vars.index (valueUnder 2 entries)
  label : Option.Rel (IsText decodeText) vars.label (valueUnder 3 entries)

def EncodesAccount (r : Raw) (account : ZcashAccount) : Prop :=
  ∃ (tag : Sized zcashUfvkTag) (entries : List (Raw × Raw)) (s : Sized entries.length),
    r = ⟨zcashUfvkTag :: (mapRaw entries s).heads,
      (tag.head 6).encode ++ (mapRaw entries s).bytes⟩ ∧
      Fits decodeText entries ⟨some account.ufvk, account.index, account.label⟩

def EncodesAccounts (r : Raw) (result : ZcashAccountsResult) : Prop :=
  ∃ (entries : List (Raw × Raw)) (s : Sized entries.length), r = mapRaw entries s ∧
    Option.Rel IsFingerprint result.seedFingerprint (valueUnder 1 entries) ∧
      ∃ (items : List Raw) (s : Sized items.length),
        valueUnder 2 entries = some (arrayRaw items s) ∧
          List.Forall₂ (EncodesAccount decodeText) items result.accounts

end Text

variable {bytes rest : List UInt8} {offset next n m : ℕ} {r : Raw} {entries : List (Raw × Raw)}
  {decodeText : List UInt8 → String}

theorem number?_raw (s : Sized n) : number? s.raw = some n := by
  have hread := readLead_append (.definite (s.head 0)) []
  rw [List.append_nil] at hread
  have hbytes : readLead s.raw.bytes = .ok (.definite (s.head 0), []) := hread
  rw [number?, hbytes]
  rfl

theorem valueUnder_concat (s : Sized n) (v : Raw) :
    valueUnder m (entries ++ [(s.raw, v)]) = if n = m then some v else valueUnder m entries := by
  rw [valueUnder, List.reverse_append, List.reverse_singleton, List.singleton_append,
    List.find?_cons, number?_raw]
  split_ifs with h
  · simp [h]
  · simp [h, valueUnder]

section Rel

variable {α : Type} {R : α → Raw → Prop} {v : Raw}

theorem rel_same (s : Sized n) {a : α} (hv : R a v) :
    Option.Rel R (some a) (valueUnder n (entries ++ [(s.raw, v)])) := by
  rw [valueUnder_concat, if_pos rfl]
  exact .some hv

theorem rel_other (s : Sized n) (hne : n ≠ m) {o : Option α}
    (h : Option.Rel R o (valueUnder m entries)) :
    Option.Rel R o (valueUnder m (entries ++ [(s.raw, v)])) := by
  rwa [valueUnder_concat, if_neg hne]

end Rel

/-! ## Reading an item -/

section Item

variable (hitem : Item r) (hdrop : bytes.drop offset = r.bytes ++ rest)

include hitem hdrop

theorem of_head_item {head : CborHead} (h : readCborHead bytes offset = .ok head) :
    (∃ h : Head, head = ⟨h.major, h.arg, offset + h.encode.length, false⟩ ∧ HeadBody h r) ∨
      ∃ major : Fin 8, head = ⟨major, 0, offset + 1, true⟩ ∧ OpenBody major r := by
  obtain ⟨lead, rest', hlead, rfl⟩ := of_readCborHead h
  cases lead with
  | definite head => exact .inl ⟨head, rfl, hitem.of_head (hdrop.symm.trans hlead)⟩
  | indefinite major => exact .inr ⟨major, rfl, hitem.of_open (hdrop.symm.trans hlead)⟩

theorem of_readCborUint (h : readCborUint bytes offset = .ok (n, next)) :
    IsNumber n r ∧ next = offset + r.bytes.length := by
  obtain ⟨head, hhead, hread⟩ := of_bind_ok h
  split_ifs at hread with hmajor
  rw [not_not] at hmajor
  obtain ⟨rfl, rfl⟩ := Prod.mk.inj (Except.ok.inj hread)
  rcases of_head_item hitem hdrop hhead with
    ⟨⟨major, w, arg, fits⟩, rfl, hbody⟩ | ⟨major, rfl, hbody⟩
  · obtain rfl : major = 0 := Fin.ext hmajor
    obtain rfl : r = _ := hbody
    exact ⟨⟨⟨w, fits⟩, rfl⟩, rfl⟩
  · obtain rfl : major = 0 := Fin.ext hmajor
    exact hbody.choose_spec.2.2.elim

theorem of_readCborString (hbound : bytes.length ≤ maxSafeInteger) (major : Fin 8) {kind : String}
    (hmajor : major = 2 ∨ major = 3) {data : List UInt8}
    (h : readCborString major kind bytes offset = .ok (data, next)) :
    ∃ c : Chunk, r = stringRaw major c ∧ data = c.data ∧ next = offset + r.bytes.length := by
  obtain ⟨head, hhead, hread⟩ := of_bind_ok h
  split_ifs at hread with hne hindefinite
  rcases of_head_item hitem hdrop hhead with ⟨head, rfl, hbody⟩ | ⟨major, rfl, -⟩
  · obtain rfl : head.major = major := Fin.ext (not_not.mp hne)
    obtain ⟨c, rfl⟩ := hbody.string hmajor
    have hstring : bytes.drop offset = (stringRaw head.major c).bytes ++ rest := hdrop
    rw [readCborString_of hbound kind hstring] at h
    obtain ⟨rfl, rfl⟩ := Prod.mk.inj (Except.ok.inj h)
    exact ⟨c, rfl, rfl, rfl⟩
  · exact absurd rfl hindefinite

theorem of_readCborTextString (hbound : bytes.length ≤ maxSafeInteger) {text : String}
    (h : readCborTextString decodeText bytes offset = .ok (text, next)) :
    IsText decodeText text r ∧ next = offset + r.bytes.length := by
  obtain ⟨⟨data, mid⟩, hread, h⟩ := of_bind_ok h
  obtain ⟨rfl, rfl⟩ := Prod.mk.inj (Except.ok.inj h)
  obtain ⟨c, hr, rfl, hnext⟩ := of_readCborString hitem hdrop hbound 3 (.inr rfl) hread
  exact ⟨⟨c, hr, rfl⟩, hnext⟩

theorem of_map_head {head : CborHead} (h : readCborHead bytes offset = .ok head)
    (hmajor : head.major = 5) (hdefinite : ¬ head.indefinite = true) :
    ∃ (entries : List (Raw × Raw)) (s : Sized entries.length), r = mapRaw entries s ∧
      (∀ e ∈ entries, Item e.1 ∧ Item e.2) ∧ head.value = entries.length ∧
        bytes.drop head.offset = entries.flatMap entryBytes ++ rest ∧
          head.offset + (entries.flatMap entryBytes).length = offset + r.bytes.length := by
  rcases of_head_item hitem hdrop h with ⟨⟨major, w, arg, fits⟩, rfl, hbody⟩ | ⟨major, rfl, -⟩
  · obtain rfl : major = 5 := Fin.ext hmajor
    obtain ⟨entries, rfl, hitems, rfl⟩ := hbody
    refine ⟨entries, ⟨w, fits⟩, rfl, forall_alternate.mp hitems, rfl, ?_, ?_⟩
    · rw [← allBytes_alternate]
      exact drop_add_of_append (by rw [hdrop, List.append_assoc])
    · rw [← allBytes_alternate, List.length_append, Nat.add_assoc]
  · exact absurd rfl hdefinite

theorem of_array_head {head : CborHead} (h : readCborHead bytes offset = .ok head)
    (hmajor : head.major = 4) (hdefinite : ¬ head.indefinite = true) :
    ∃ (items : List Raw) (s : Sized items.length), r = arrayRaw items s ∧ (∀ r ∈ items, Item r) ∧
      head.value = items.length ∧ bytes.drop head.offset = allBytes items ++ rest ∧
        head.offset + (allBytes items).length = offset + r.bytes.length := by
  rcases of_head_item hitem hdrop h with ⟨⟨major, w, arg, fits⟩, rfl, hbody⟩ | ⟨major, rfl, -⟩
  · obtain rfl : major = 4 := Fin.ext hmajor
    obtain ⟨items, rfl, hitems, rfl⟩ := hbody
    refine ⟨items, ⟨w, fits⟩, rfl, hitems, rfl, ?_, ?_⟩
    · exact drop_add_of_append (by rw [hdrop, List.append_assoc])
    · rw [List.length_append, Nat.add_assoc]
  · exact absurd rfl hdefinite

theorem of_tag_head {head : CborHead} (h : readCborHead bytes offset = .ok head)
    (hmajor : head.major = 6) :
    ∃ (s : Sized head.value) (r' : Raw), Item r' ∧
      r = ⟨head.value :: r'.heads, (s.head 6).encode ++ r'.bytes⟩ ∧
        bytes.drop head.offset = r'.bytes ++ rest ∧
          head.offset + r'.bytes.length = offset + r.bytes.length := by
  rcases of_head_item hitem hdrop h with ⟨⟨major, w, arg, fits⟩, rfl, hbody⟩ | ⟨major, rfl, hbody⟩
  · obtain rfl : major = 6 := Fin.ext hmajor
    obtain ⟨r', hr', rfl⟩ := hbody
    refine ⟨⟨w, fits⟩, r', hr', rfl, ?_, ?_⟩
    · exact drop_add_of_append (by rw [hdrop, List.append_assoc])
    · rw [List.length_append, Nat.add_assoc]
  · obtain rfl : major = 6 := Fin.ext hmajor
    exact hbody.choose_spec.2.2.elim

end Item

/-! ## The loops -/

/-- **A loop over items.** One round reads one of them and keeps the invariant. -/
theorem of_forTimes {α σ : Type} {body : σ × ℕ → Except String (σ × ℕ)} {enc : α → List UInt8}
    {I : List α → σ → Prop} {done xs : List α} {s s' : σ}
    (hbody : ∀ done, ∀ x ∈ xs, ∀ ⦃s s' : σ⦄ ⦃offset next : ℕ⦄ ⦃rest : List UInt8⦄, I done s →
      bytes.drop offset = enc x ++ rest → body (s, offset) = .ok (s', next) →
        I (done ++ [x]) s' ∧ next = offset + (enc x).length)
    (hdone : I done s) (hdrop : bytes.drop offset = xs.flatMap enc ++ rest)
    (h : forTimes body xs.length (s, offset) = .ok (s', next)) :
    I (done ++ xs) s' ∧ next = offset + (xs.flatMap enc).length := by
  induction xs generalizing done s offset with
  | nil =>
    obtain ⟨rfl, rfl⟩ := Prod.mk.inj (Except.ok.inj h)
    rw [List.append_nil]
    exact ⟨hdone, rfl⟩
  | cons x xs ih =>
    rw [List.flatMap_cons, List.append_assoc] at hdrop
    obtain ⟨⟨s₁, mid⟩, hround, hloop⟩ := of_bind_ok h
    obtain ⟨hinv, rfl⟩ := hbody done x List.mem_cons_self hdone hdrop hround
    obtain ⟨hall, rfl⟩ := ih (fun done x' hx' => hbody done x' (List.mem_cons_of_mem x hx')) hinv
      (drop_add_of_append hdrop) hloop
    rw [List.append_assoc] at hall
    exact ⟨hall, by rw [List.flatMap_cons, List.length_append, Nat.add_assoc]⟩

section Bound

variable (hbound : bytes.length ≤ maxSafeInteger)

include hbound

theorem of_parseAccountEntry {e : Raw × Raw} (hitems : Item e.1 ∧ Item e.2)
    {vars vars' : AccountVars} (hfits : Fits decodeText entries vars)
    (hdrop : bytes.drop offset = entryBytes e ++ rest)
    (h : parseAccountEntry decodeText bytes (vars, offset) = .ok (vars', next)) :
    Fits decodeText (entries ++ [e]) vars' ∧ next = offset + (entryBytes e).length := by
  obtain ⟨k, v⟩ := e
  rw [entryBytes, List.append_assoc] at hdrop
  obtain ⟨⟨key, mid⟩, hkey, hvalue⟩ := of_bind_ok h
  obtain ⟨⟨s, rfl⟩, rfl⟩ := of_readCborUint hitems.1 hdrop hkey
  have hrest := drop_add_of_append hdrop
  rw [entryBytes, List.length_append, ← Nat.add_assoc]
  change parseAccountValue decodeText bytes vars key (offset + s.raw.bytes.length) = _ at hvalue
  unfold parseAccountValue at hvalue
  split at hvalue
  · obtain ⟨⟨text, mid⟩, hread, hret⟩ := of_bind_ok hvalue
    obtain ⟨rfl, rfl⟩ := Prod.mk.inj (Except.ok.inj hret)
    obtain ⟨htext, rfl⟩ := of_readCborTextString hitems.2 hrest hbound hread
    exact ⟨⟨rel_same s htext, rel_other s (by decide) hfits.index,
      rel_other s (by decide) hfits.label⟩, rfl⟩
  · obtain ⟨⟨index, mid⟩, hread, hret⟩ := of_bind_ok hvalue
    obtain ⟨rfl, rfl⟩ := Prod.mk.inj (Except.ok.inj hret)
    obtain ⟨hindex, rfl⟩ := of_readCborUint hitems.2 hrest hread
    exact ⟨⟨rel_other s (by decide) hfits.ufvk, rel_same s hindex,
      rel_other s (by decide) hfits.label⟩, rfl⟩
  · obtain ⟨⟨text, mid⟩, hread, hret⟩ := of_bind_ok hvalue
    obtain ⟨rfl, rfl⟩ := Prod.mk.inj (Except.ok.inj hret)
    obtain ⟨htext, rfl⟩ := of_readCborTextString hitems.2 hrest hbound hread
    exact ⟨⟨rel_other s (by decide) hfits.ufvk, rel_other s (by decide) hfits.index,
      rel_same s htext⟩, rfl⟩
  next h₁ h₂ h₃ =>
    obtain ⟨mid, hskip, hret⟩ := of_bind_ok hvalue
    obtain ⟨rfl, rfl⟩ := Prod.mk.inj (Except.ok.inj hret)
    obtain rfl := next_of_item hitems.2 hrest hskip
    exact ⟨⟨rel_other s h₁ hfits.ufvk, rel_other s h₂ hfits.index, rel_other s h₃ hfits.label⟩, rfl⟩

omit hbound in
theorem of_accountOf {vars : AccountVars} {account : ZcashAccount}
    (h : accountOf vars = .ok account) :
    vars = ⟨some account.ufvk, account.index, account.label⟩ := by
  unfold accountOf at h
  split_ifs at h with hempty
  obtain rfl := Except.ok.inj h
  obtain ⟨ufvk, index, label⟩ := vars
  cases ufvk with
  | none => exact absurd rfl hempty
  | some ufvk => rfl

theorem of_parseAccountMap (hitem : Item r) (hdrop : bytes.drop offset = r.bytes ++ rest)
    {account : ZcashAccount} (h : parseAccountMap decodeText bytes offset = .ok (account, next)) :
    (∃ (entries : List (Raw × Raw)) (s : Sized entries.length), r = mapRaw entries s ∧
      Fits decodeText entries ⟨some account.ufvk, account.index, account.label⟩) ∧
        next = offset + r.bytes.length := by
  obtain ⟨mapHead, hmapHead, h⟩ := of_bind_ok h
  split_ifs at h with hmajor hindefinite
  obtain ⟨fields, s, rfl, hfields, hvalue, hdrop', htotal⟩ :=
    of_map_head hitem hdrop hmapHead (not_not.mp hmajor) hindefinite
  rw [hvalue] at h
  obtain ⟨⟨vars, last⟩, hloop, h⟩ := of_bind_ok h
  obtain ⟨account', haccount, hret⟩ := of_bind_ok h
  obtain ⟨rfl, rfl⟩ := Prod.mk.inj (Except.ok.inj hret)
  have hnone : Fits decodeText [] ⟨none, none, none⟩ := ⟨.none, .none, .none⟩
  obtain ⟨hfits, rfl⟩ := of_forTimes (fun done e he s s' offset next rest hdone hdrop h =>
    of_parseAccountEntry hbound (hfields e he) hdone hdrop h) hnone hdrop' hloop
  rw [of_accountOf haccount] at hfits
  exact ⟨⟨fields, s, rfl, hfits⟩, htotal⟩

theorem of_parseAccount (hitem : Item r) {accounts accounts' : List ZcashAccount}
    {done : List Raw} (hdone : List.Forall₂ (EncodesAccount decodeText) done accounts)
    (hdrop : bytes.drop offset = r.bytes ++ rest)
    (h : parseAccount decodeText bytes (accounts, offset) = .ok (accounts', next)) :
    List.Forall₂ (EncodesAccount decodeText) (done ++ [r]) accounts' ∧
      next = offset + r.bytes.length := by
  obtain ⟨⟨major, value, place, indefinite⟩, htagHead, h⟩ := of_bind_ok h
  split_ifs at h with hmajor htag
  obtain rfl : value = zcashUfvkTag := not_not.mp htag
  obtain ⟨tag, r', hitem', rfl, hdrop', htotal⟩ :=
    of_tag_head hitem hdrop htagHead (not_not.mp hmajor)
  obtain ⟨⟨account, mid⟩, hmap, hret⟩ := of_bind_ok h
  obtain ⟨rfl, rfl⟩ := Prod.mk.inj (Except.ok.inj hret)
  obtain ⟨⟨fields, s, rfl, hfits⟩, rfl⟩ := of_parseAccountMap hbound hitem' hdrop' hmap
  have haccount : List.Forall₂ (EncodesAccount decodeText) [_] [account] :=
    .cons ⟨tag, fields, s, rfl, hfits⟩ .nil
  exact ⟨List.rel_append hdone haccount, htotal⟩

end Bound

def ArrayAt (bytes : List UInt8) (place : ℕ × ℕ) (r : Raw) : Prop :=
  ∃ (items : List Raw) (s : Sized items.length), r = arrayRaw items s ∧ (∀ r ∈ items, Item r) ∧
    place.2 = items.length ∧ ∃ rest, bytes.drop place.1 = allBytes items ++ rest

structure ScanFits (bytes : List UInt8) (entries : List (Raw × Raw)) (vars : ScanVars) : Prop where
  fingerprint : Option.Rel IsFingerprint vars.seedFingerprint (valueUnder 1 entries)
  accounts : Option.Rel (ArrayAt bytes) vars.accountsArray (valueUnder 2 entries)

variable {vars vars' : ScanVars} {result : ZcashAccountsResult}

theorem of_scanEntry (hbound : bytes.length ≤ maxSafeInteger) {e : Raw × Raw}
    (hitems : Item e.1 ∧ Item e.2) (hfits : ScanFits bytes entries vars)
    (hdrop : bytes.drop offset = entryBytes e ++ rest)
    (h : scanEntry bytes (vars, offset) = .ok (vars', next)) :
    ScanFits bytes (entries ++ [e]) vars' ∧ next = offset + (entryBytes e).length := by
  obtain ⟨k, v⟩ := e
  rw [entryBytes, List.append_assoc] at hdrop
  obtain ⟨⟨key, mid⟩, hkey, hvalue⟩ := of_bind_ok h
  obtain ⟨⟨s, rfl⟩, rfl⟩ := of_readCborUint hitems.1 hdrop hkey
  have hrest := drop_add_of_append hdrop
  rw [entryBytes, List.length_append, ← Nat.add_assoc]
  change scanValue bytes vars key (offset + s.raw.bytes.length) = _ at hvalue
  unfold scanValue at hvalue
  split at hvalue
  · obtain ⟨⟨data, mid⟩, hread, hret⟩ := of_bind_ok hvalue
    dsimp only at hret
    split_ifs at hret with hlen
    obtain ⟨rfl, rfl⟩ := Prod.mk.inj (Except.ok.inj hret)
    obtain ⟨c, hv, rfl, rfl⟩ := of_readCborString hitems.2 hrest hbound 2 (.inl rfl) hread
    exact ⟨⟨rel_same s ⟨c, hv, not_not.mp hlen, rfl⟩, rel_other s (by decide) hfits.accounts⟩, rfl⟩
  · obtain ⟨arrayHead, harrayHead, hvalue⟩ := of_bind_ok hvalue
    split_ifs at hvalue with hmajor hindefinite
    obtain ⟨mid, hskip, hret⟩ := of_bind_ok hvalue
    obtain ⟨rfl, rfl⟩ := Prod.mk.inj (Except.ok.inj hret)
    obtain ⟨items, size, rfl, hall, hlen, hdrop', htotal⟩ :=
      of_array_head hitems.2 hrest harrayHead (not_not.mp hmajor) hindefinite
    rw [hlen, skipItems_of (fun r hr => item_skips (hall r hr)) hdrop'] at hskip
    obtain rfl := (within_eq_ok_iff.mp hskip).2
    exact ⟨⟨rel_other s (by decide) hfits.fingerprint,
      rel_same s ⟨items, size, rfl, hall, hlen, rest, hdrop'⟩⟩, htotal⟩
  next h₁ h₂ =>
    obtain ⟨mid, hskip, hret⟩ := of_bind_ok hvalue
    obtain ⟨rfl, rfl⟩ := Prod.mk.inj (Except.ok.inj hret)
    obtain rfl := next_of_item hitems.2 hrest hskip
    exact ⟨⟨rel_other s h₁ hfits.fingerprint, rel_other s h₂ hfits.accounts⟩, rfl⟩

theorem of_parseAccounts (hbound : bytes.length ≤ maxSafeInteger)
    (hfits : ScanFits bytes entries vars) (s : Sized entries.length)
    (h : parseAccounts decodeText bytes vars = .ok result) :
    EncodesAccounts decodeText (mapRaw entries s) result := by
  obtain ⟨seedFingerprint, accountsArray⟩ := vars
  cases accountsArray with
  | none => cases h
  | some place =>
    obtain ⟨place, length⟩ := place
    obtain ⟨⟨accounts, last⟩, hloop, hret⟩ := of_bind_ok h
    obtain rfl := Except.ok.inj hret
    obtain ⟨r, hr, items, size, rfl, hall, rfl, rest, hdrop⟩ :
        ∃ r, valueUnder 2 entries = some r ∧ ArrayAt bytes (place, length) r := by
      have harray := hfits.accounts
      generalize valueUnder 2 entries = value at harray
      cases harray with
      | some harray => exact ⟨_, rfl, harray⟩
    obtain ⟨haccounts, -⟩ := of_forTimes (fun done r hr s s' offset next rest hdone hdrop h =>
      of_parseAccount hbound (hall r hr) hdone hdrop h) .nil hdrop hloop
    exact ⟨entries, s, rfl, hfits.fingerprint, items, size, hr, haccounts⟩

theorem of_decode {x : Uint8Array} (h : decodeZcashAccountsUrCbor decodeText x = .ok result)
    (hitem : Item r) (hbytes : x.bytes = r.bytes ++ rest) :
    EncodesAccounts decodeText r result := by
  obtain ⟨head, hhead, h⟩ := of_bind_ok h
  split_ifs at h with hmajor hindefinite
  have hdrop : x.bytes.drop 0 = r.bytes ++ rest := hbytes
  obtain ⟨entries, s, rfl, hentries, hvalue, hdrop', -⟩ :=
    of_map_head hitem hdrop hhead (not_not.mp hmajor) hindefinite
  rw [hvalue] at h
  obtain ⟨⟨vars, last⟩, hloop, hparse⟩ := of_bind_ok h
  have hnone : ScanFits x.bytes [] ⟨none, none⟩ := ⟨.none, .none⟩
  obtain ⟨hfits, -⟩ := of_forTimes (fun done e he s s' offset next rest hdone hdrop h =>
    of_scanEntry x.bound (hentries e he) hdone hdrop h) hnone hdrop' hloop
  exact of_parseAccounts x.bound hfits s hparse

/-! ## An accepted input can be skipped -/

theorem skip_of_head {head : CborHead} (h : readCborHead bytes offset = .ok head) :
    skipCborItem bytes offset = skipBehind bytes head := by
  rw [skipCborItem_eq, h]
  rfl

theorem skip_of_readCborUint (h : readCborUint bytes offset = .ok (n, next)) :
    skipCborItem bytes offset = .ok next := by
  obtain ⟨head, hhead, h⟩ := of_bind_ok h
  split_ifs at h with hmajor
  obtain ⟨-, rfl⟩ := Prod.mk.inj (Except.ok.inj h)
  rw [skip_of_head hhead, skipBehind, not_not.mp hmajor]
  rfl

theorem skip_of_scanValue {key : ℕ} (h : scanValue bytes vars key offset = .ok (vars', next)) :
    skipCborItem bytes offset = .ok next := by
  unfold scanValue at h
  split at h
  · obtain ⟨⟨data, mid⟩, hread, hret⟩ := of_bind_ok h
    dsimp only at hret
    split_ifs at hret
    obtain ⟨-, rfl⟩ := Prod.mk.inj (Except.ok.inj hret)
    obtain ⟨head, hhead, htake⟩ := of_bind_ok hread
    split_ifs at htake with hmajor hindefinite
    unfold Ur.takeBytes at htake
    split_ifs at htake
    obtain ⟨-, rfl⟩ := Prod.mk.inj (Except.ok.inj htake)
    rw [skip_of_head hhead, skipBehind, not_not.mp hmajor]
    exact if_neg hindefinite
  · obtain ⟨head, hhead, h⟩ := of_bind_ok h
    split_ifs at h with hmajor hindefinite
    obtain ⟨mid, hskip, hret⟩ := of_bind_ok h
    obtain ⟨-, rfl⟩ := Prod.mk.inj (Except.ok.inj hret)
    rw [skip_of_head hhead, skipBehind, not_not.mp hmajor]
    exact (if_neg hindefinite).trans hskip
  · obtain ⟨mid, hskip, hret⟩ := of_bind_ok h
    obtain ⟨-, rfl⟩ := Prod.mk.inj (Except.ok.inj hret)
    exact hskip

theorem skip_of_scan (h : forTimes (scanEntry bytes) n (vars, offset) = .ok (vars', next)) :
    skipItems bytes (2 * n) offset = .ok next := by
  induction n generalizing vars offset with
  | zero =>
    obtain ⟨-, rfl⟩ := Prod.mk.inj (Except.ok.inj h)
    exact skipItems_zero bytes offset
  | succ n ih =>
    obtain ⟨⟨vars₁, mid⟩, hentry, hloop⟩ := of_bind_ok h
    obtain ⟨⟨key, mid'⟩, hkey, hvalue⟩ := of_bind_ok hentry
    rw [Nat.mul_succ, skipItems_succ, skip_of_readCborUint hkey]
    show skipItems bytes (2 * n + 1) mid' = _
    rw [skipItems_succ, skip_of_scanValue hvalue]
    exact ih hloop

theorem skip_of_decode {x : Uint8Array} (h : decodeZcashAccountsUrCbor decodeText x = .ok result) :
    ∃ next, skipCborItem x.bytes 0 = .ok next := by
  obtain ⟨head, hhead, h⟩ := of_bind_ok h
  split_ifs at h with hmajor hindefinite
  obtain ⟨⟨vars, last⟩, hloop, -⟩ := of_bind_ok h
  refine ⟨last, ?_⟩
  rw [skip_of_head hhead, skipBehind, not_not.mp hmajor]
  exact (if_neg hindefinite).trans (skip_of_scan hloop)

/-- **An accepted input begins with a well-formed map that says what is returned**, unless it has a
flaw that is not noticed. -/
theorem encodesAccounts_iff {x : Uint8Array} {result : ZcashAccountsResult}
    (h : decodeZcashAccountsUrCbor decodeText x = .ok result) :
    (∃ r, Item r ∧ r.bytes <+: x.bytes ∧ EncodesAccounts decodeText r result) ↔
      ¬ Flaw x.bytes := by
  constructor
  · rintro ⟨r, hitem, ⟨rest, hbytes⟩, -⟩ hflaw
    exact hflaw.not_item hitem hbytes
  · intro hflaw
    obtain ⟨next, hskip⟩ := skip_of_decode h
    obtain ⟨r, rest, hitem, hbytes⟩ := item_of_skip hskip hflaw
    exact ⟨r, hitem, ⟨rest, hbytes.symm⟩, of_decode h hitem hbytes⟩

/-- Under the key 3 there is the head of a string of two bytes. -/
def cutAccounts : List UInt8 :=
  [0xa2, 0x02, 0x81, 0xd9, 0xc0, 0x33, 0xa1, 0x01, 0x61, 0x75, 0x03, 0x42]

theorem cutAccounts_flaw : Flaw cutAccounts := by
  have hitems : ∀ r ∈ [accountsEntry.entry.1, accountsEntry.entry.2,
      (⟨.inline, by decide⟩ : Sized 3).raw], Item r := by
    have hentry := accountsEntry.item
    simpa using ⟨hentry.1, hentry.2, Sized.item _⟩
  exact .counted ⟨5, .inline, 2, by decide⟩ _ hitems (by decide) [0x42]
    (.cut ⟨2, .inline, 2, by decide⟩ (.inl rfl) [] (by decide))

theorem cutAccounts_skip : skipItems cutAccounts 1 3 = .ok 10 := by
  have hkey : skipCborItem cutAccounts 7 = .ok 8 :=
    skip_of_head (rfl : readCborHead cutAccounts 7 = .ok ⟨0, 1, 8, false⟩)
  have hvalue : skipCborItem cutAccounts 8 = .ok 10 :=
    skip_of_head (rfl : readCborHead cutAccounts 8 = .ok ⟨3, 1, 9, false⟩)
  have hmap : skipCborItem cutAccounts 6 = skipItems cutAccounts 2 7 :=
    skip_of_head (rfl : readCborHead cutAccounts 6 = .ok ⟨5, 1, 7, false⟩)
  have htag : skipCborItem cutAccounts 3 = skipCborItem cutAccounts 6 :=
    skip_of_head (rfl : readCborHead cutAccounts 3 = .ok ⟨6, 49203, 6, false⟩)
  rw [skipItems_succ, htag, hmap, skipItems_succ, hkey]
  show (skipItems cutAccounts 1 8 >>= skipItems cutAccounts 0) = _
  rw [skipItems_succ, hvalue]
  show (skipItems cutAccounts 0 10 >>= skipItems cutAccounts 0) = _
  rw [skipItems_zero]
  exact skipItems_zero _ _

/-- **A message is accepted though it ends inside a string.** -/
theorem cut_string_accepted :
    ∃ (x : Uint8Array) (result : ZcashAccountsResult),
      decodeZcashAccountsUrCbor latin1 x = .ok result ∧
        ¬ ∃ r, Item r ∧ r.bytes <+: x.bytes ∧ EncodesAccounts latin1 r result := by
  refine ⟨⟨cutAccounts, by decide⟩, ⟨none, [⟨"u", none, none⟩]⟩, ?_, ?_⟩
  · have hfirst : scanEntry cutAccounts (⟨none, none⟩, 1) = .ok (⟨none, some (3, 1)⟩, 10) := by
      show (skipItems cutAccounts 1 3 >>= _) = _
      rw [cutAccounts_skip]
      rfl
    have hskip : skipCborItem cutAccounts 11 = .ok 14 :=
      skip_of_head (rfl : readCborHead cutAccounts 11 = .ok ⟨2, 2, 12, false⟩)
    have hsecond : scanEntry cutAccounts (⟨none, some (3, 1)⟩, 10) =
        .ok (⟨none, some (3, 1)⟩, 14) := by
      show (skipCborItem cutAccounts 11 >>= _) = _
      rw [hskip]
      rfl
    show (forTimes (scanEntry cutAccounts) 2 (⟨none, none⟩, 1) >>= _) = _
    rw [forTimes, hfirst]
    show ((scanEntry cutAccounts _ >>= forTimes _ 0) >>= _) = _
    rw [hsecond]
    rfl
  · rintro ⟨r, hitem, ⟨rest, hbytes⟩, -⟩
    exact cutAccounts_flaw.not_item hitem hbytes

theorem encodesAccounts_array :
    ∃ (x : Uint8Array) (result : ZcashAccountsResult),
      x.bytes = (oneAccount safeArray safeArray_item).encode ∧
        decodeZcashAccountsUrCbor latin1 x = .ok result ∧
          ∃ r, Item r ∧ r.bytes <+: x.bytes ∧ EncodesAccounts latin1 r result := by
  let m := oneAccount safeArray safeArray_item
  let x : Uint8Array := ⟨m.encode, by decide⟩
  have hok : decodeZcashAccountsUrCbor latin1 x = .ok (m.result latin1) := by
    rw [decode_message (oneAccount_valid _ _) rfl]
    exact within_of (by decide) _
  have hitems : ∀ r ∈ alternate (m.entries.map Entry.entry), Item r :=
    forall_alternate.mpr (List.forall_mem_map.mpr fun e _ => e.item)
  have hflaw : ¬ Flaw x.bytes := fun hflaw =>
    hflaw.not_item (item_mapRaw hitems ⟨.inline, by decide⟩) (List.append_nil _)
  exact ⟨x, m.result latin1, rfl, hok, (encodesAccounts_iff hok).mpr hflaw⟩

end ZbagKeystone
