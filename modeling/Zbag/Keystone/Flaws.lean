import Zbag.Keystone.Skip

/-!
# Keystone — what is skipped without being well formed

`skipCborItem` does not look at all that it passes over. A string may be longer than the input, a
break may stand in the place of an item, integers and tags may be of indefinite length, chunks may
be items of another type, and a simple value may be written in two bytes though it is small.
-/

namespace ZbagKeystone

open Cbor

def partCount (h : Head) : ℕ :=
  match h.major with
  | 4 => h.arg
  | 5 => 2 * h.arg
  | 6 => 1
  | _ => 0

/-- In front of a break, those of a map come in pairs. -/
def groupSize (major : Fin 8) : ℕ := if major = 5 then 2 else 1

/-- **What is not noticed.** All that stands before it is well formed. -/
inductive Flaw : List UInt8 → Prop
  /-- a break in the place of an item, or an indefinite integer or tag -/
  | lead (major : Fin 8) (hmajor : major ∈ [0, 1, 6, 7]) (rest : List UInt8) :
    Flaw (initialByte major 31 :: rest)
  | simple (h : Head) (hmajor : h.major = 7) (hwidth : h.width = .one) (hvalue : h.arg < 32)
      (rest : List UInt8) : Flaw (h.encode ++ rest)
  /-- a string that the input ends in -/
  | cut (h : Head) (hmajor : h.major = 2 ∨ h.major = 3) (rest : List UInt8)
      (hlen : rest.length < h.arg) : Flaw (h.encode ++ rest)
  /-- in an indefinite string, something that is no chunk of its kind -/
  | chunk (major : Fin 8) (hmajor : major = 2 ∨ major = 3) (cs : List Chunk) (lead : Lead)
      (hbreak : lead ≠ .indefinite 7) (hother : ∀ h, lead = .definite h → h.major ≠ major)
      (rest : List UInt8) :
    Flaw (initialByte major 31 :: (allBytes (chunkRaws major cs) ++ (lead.encode ++ rest)))
  | counted (h : Head) (items : List Raw) (hitems : ∀ r ∈ items, Item r)
      (hlen : items.length < partCount h) (rest : List UInt8) (hflaw : Flaw rest) :
    Flaw (h.encode ++ (allBytes items ++ rest))
  | grouped (major : Fin 8) (items : List Raw)
      (hitems : ∀ r ∈ items, Item r) (rest : List UInt8)
      (hbreak : groupSize major ∣ items.length → rest.head? ≠ some breakByte)
      (hflaw : Flaw rest) :
    Flaw (initialByte major 31 :: (allBytes items ++ rest))

variable {bytes rest rest' : List UInt8} {offset next : ℕ} {r : Raw} {P : Raw → Prop}

/-! ## With a flaw -/

variable {items : List Raw} {major : Fin 8} {n : ℕ}

theorem items_continue_of {items' : List Raw} (hitems : ∀ r ∈ items, Item r)
    (hitems' : ∀ r ∈ items', Item r) (heq : allBytes items ++ rest = allBytes items' ++ rest') :
    (∃ more, items' = items ++ more ∧ rest = allBytes more ++ rest') ∨
      ∃ more, items = items' ++ more ∧ rest' = allBytes more ++ rest :=
  items_continue (fun r hr => item_alone (hitems r hr)) hitems' heq

theorem next_item {items' : List Raw} (hitems : ∀ r ∈ items, Item r)
    (hitems' : ∀ r ∈ items', Item r) (hlen : items.length < items'.length)
    (heq : allBytes items ++ rest = allBytes items' ++ rest') :
    ∃ r ∈ items', ∃ rest', rest = r.bytes ++ rest' := by
  rcases items_continue_of hitems hitems' heq with ⟨more, rfl, hrest⟩ | ⟨more, rfl, -⟩
  · cases more with
    | nil => simp at hlen
    | cons r more =>
      rw [allBytes_cons, List.append_assoc] at hrest
      exact ⟨r, by simp, _, hrest⟩
  · simp at hlen

theorem parts_of_head {h : Head} (hitem : Item r) (heq : r.bytes ++ rest' = h.encode ++ rest) :
    ∃ items : List Raw, partCount h ≤ items.length ∧ (∀ r ∈ items, Item r) ∧
      ∃ tail, rest = allBytes items ++ tail := by
  have hbody := hitem.of_head heq
  unfold HeadBody at hbody
  unfold partCount
  split at hbody
  · exact ⟨[], by simp [*]⟩
  · exact ⟨[], by simp [*]⟩
  · exact ⟨[], by simp [*]⟩
  · exact ⟨[], by simp [*]⟩
  · obtain ⟨items, hlen, hitems, rfl⟩ := hbody
    rw [List.append_assoc] at heq
    exact ⟨items, by simp [*], hitems, rest', (List.append_cancel_left heq).symm⟩
  · obtain ⟨entries, hlen, hitems, rfl⟩ := hbody
    rw [List.append_assoc] at heq
    exact ⟨alternate entries, by simp [*], hitems, rest', (List.append_cancel_left heq).symm⟩
  · obtain ⟨r', hitem', rfl⟩ := hbody
    rw [List.append_assoc] at heq
    exact ⟨[r'], by simp [*], by simpa using hitem', rest', by
      simpa using (List.append_cancel_left heq).symm⟩
  · exact ⟨[], by simp [*]⟩

theorem next_part (hitems : ∀ r ∈ items, Item r) (hitem : Item r)
    (heq : r.bytes ++ rest' = initialByte major 31 :: (allBytes items ++ rest))
    (hbreak : groupSize major ∣ items.length → rest.head? ≠ some breakByte) :
    ∃ r, Item r ∧ (∃ rest', rest = r.bytes ++ rest') ∧
      (major = 2 ∨ major = 3 → ∃ c : Chunk, r.bytes = c.encode major) := by
  obtain ⟨items', hitems', rfl, hkind⟩ := hitem.of_open heq
  have hbody : allBytes items ++ rest = allBytes items' ++ breakByte :: rest' := by
    simpa using heq.symm
  have hdvd : groupSize major ∣ items'.length := by
    unfold groupSize
    split_ifs with h
    · subst h
      exact hkind
    · exact one_dvd _
  have hlen : items.length < items'.length := by
    by_contra hge
    have hsame : items = items' ∧ rest = breakByte :: rest' := by
      rcases items_continue_of hitems hitems' hbody with ⟨more, rfl, hrest⟩ | ⟨more, rfl, hrest⟩
      · obtain rfl : more = [] := by simpa using hge
        simpa using hrest
      · obtain rfl := more_eq_nil (fun r hr => hitems r (List.mem_append_right _ hr)) hrest
        simpa using hrest.symm
    obtain ⟨rfl, rfl⟩ := hsame
    exact hbreak hdvd rfl
  obtain ⟨r, hr, htail⟩ := next_item hitems hitems' hlen hbody
  refine ⟨r, hitems' r hr, htail, fun hmajor => ?_⟩
  obtain ⟨cs, rfl⟩ : ∃ cs, items' = chunkRaws major cs := by
    rcases hmajor with rfl | rfl
    · exact hkind
    · exact hkind
  obtain ⟨c, -, rfl⟩ := List.mem_map.mp hr
  exact ⟨c, rfl⟩

theorem Flaw.not_item {bs : List UInt8} (hflaw : Flaw bs) :
    ∀ {r : Raw} {rest' : List UInt8}, Item r → r.bytes ++ rest' ≠ bs := by
  induction hflaw with
  | lead major hmajor rest =>
    intro r rest' hitem heq
    obtain ⟨items, -, -, hkind⟩ := hitem.of_open heq
    simp only [List.mem_cons, List.not_mem_nil, or_false] at hmajor
    rcases hmajor with rfl | rfl | rfl | rfl
    · exact hkind
    · exact hkind
    · exact hkind
    · exact hkind
  | simple h hmajor hwidth hvalue rest =>
    intro r rest' hitem heq
    have hbody := hitem.of_head heq
    simp only [HeadBody, hmajor] at hbody
    exact absurd (hbody.2 hwidth) (Nat.not_le.mpr hvalue)
  | cut h hmajor rest hlen =>
    intro r rest' hitem heq
    obtain ⟨c, rfl⟩ := (hitem.of_head heq).string hmajor
    obtain ⟨hhead, rfl⟩ := Chunk.eq_of_encode heq.symm
    rw [hhead, List.length_append] at hlen
    exact absurd hlen (Nat.not_lt.mpr (Nat.le_add_right _ _))
  | chunk major hmajor cs lead hbreak hother rest =>
    intro r rest' hitem heq
    have hrest : (lead.encode ++ rest).head? ≠ some breakByte := by
      intro hhead
      obtain ⟨tail, htail⟩ := List.head?_eq_some_iff.mp hhead
      have hlead : lead.encode ++ rest = (Lead.indefinite 7).encode ++ tail := htail
      exact hbreak (encode_append_inj hlead).1
    obtain ⟨r', -, ⟨tail, htail⟩, hchunk⟩ :=
      next_part (item_of_chunkRaws hmajor) hitem heq fun _ => hrest
    obtain ⟨c, hc⟩ := hchunk hmajor
    rw [hc, Chunk.encode, List.append_assoc] at htail
    have hlead : lead.encode ++ rest = (Lead.definite (c.head major)).encode ++ (c.data ++ tail) :=
      htail
    exact hother _ (encode_append_inj hlead).1 rfl
  | counted h items hitems hlen rest hflaw ih =>
    intro r rest' hitem heq
    obtain ⟨items', hcount, hitems', tail, htail⟩ := parts_of_head hitem heq
    obtain ⟨r', hr', tail', hrest⟩ :=
      next_item hitems hitems' (Nat.lt_of_lt_of_le hlen hcount) htail
    exact ih (hitems' r' hr') hrest.symm
  | grouped major items hitems rest hbreak hflaw ih =>
    intro r rest' hitem heq
    obtain ⟨r', hitem', ⟨tail, hrest⟩, -⟩ := next_part hitems hitem heq hbreak
    exact ih hitem' hrest.symm

/-! ## Without a flaw -/

theorem of_bind_ok {α β : Type} {x : Except String α} {f : α → Except String β} {b : β}
    (h : x >>= f = .ok b) : ∃ a, x = .ok a ∧ f a = .ok b := by
  cases x with
  | error message => cases h
  | ok a => exact ⟨a, rfl, h⟩

theorem of_readCborHead {head : CborHead} (h : readCborHead bytes offset = .ok head) :
    ∃ (lead : Lead) (rest : List UInt8), bytes.drop offset = lead.encode ++ rest ∧
      head = headOf offset lead := by
  rw [readCborHead_eq] at h
  cases hlead : readLead (bytes.drop offset) with
  | error e =>
    rw [hlead] at h
    cases e <;> cases h
  | ok r =>
    rw [hlead, urHeadResult] at h
    split_ifs at h
    exact ⟨r.1, r.2, readLead_eq_ok_iff.mp hlead, (Except.ok.inj h).symm⟩

theorem of_skipCborItem (h : skipCborItem bytes offset = .ok next) :
    ∃ (lead : Lead) (rest : List UInt8), bytes.drop offset = lead.encode ++ rest ∧
      skipBehind bytes (headOf offset lead) = .ok next := by
  rw [skipCborItem_eq] at h
  obtain ⟨head, hhead, hbehind⟩ := of_bind_ok h
  obtain ⟨lead, rest, hdrop, rfl⟩ := of_readCborHead hhead
  exact ⟨lead, rest, hdrop, hbehind⟩

theorem next_of_item (hitem : Item r) (hdrop : bytes.drop offset = r.bytes ++ rest)
    (h : skipCborItem bytes offset = .ok next) : next = offset + r.bytes.length := by
  rw [item_skips hitem hdrop] at h
  exact (within_eq_ok_iff.mp h).2.symm

theorem of_map_val {p : ℕ → Prop} {x : Except String {n // p n}}
    (h : x.map Subtype.val = .ok next) : p next := by
  cases x with
  | error message => cases h
  | ok n =>
    obtain rfl : n.1 = next := Except.ok.inj h
    exact n.2

theorem le_of_skipItems (h : skipItems bytes n offset = .ok next) :
    offset ≤ next ∧ (0 < n → offset < bytes.length ∧ offset < next) := of_map_val h

/-- Behind each row of items that may stand here, an item is skipped next. -/
def Feeds (P : Raw → Prop) (bytes : List UInt8) (offset : ℕ) (go : List Raw → List UInt8 → Prop) :
    Prop :=
  ∀ items rest q, (∀ r ∈ items, P r) → go items rest → bytes.drop offset = allBytes items ++ rest →
    skipCborItem bytes (offset + (allBytes items).length) = .ok q →
      ∃ r tail, P r ∧ rest = r.bytes ++ tail

theorem Feeds.behind {go go' : List Raw → List UInt8 → Prop} {done : List Raw}
    (hfeeds : Feeds P bytes offset go) (hdone : ∀ r ∈ done, P r)
    (hdrop : bytes.drop offset = allBytes done ++ rest)
    (hgo : ∀ items rest, go' items rest → go (done ++ items) rest) :
    Feeds P bytes (offset + (allBytes done).length) go' := by
  intro items rest' q hitems hgo' hrest hskip
  have happend : allBytes (done ++ items) = allBytes done ++ allBytes items := by simp [allBytes]
  refine hfeeds (done ++ items) rest' q ?_ (hgo items rest' hgo') ?_ ?_
  · simpa [or_imp, forall_and] using ⟨hdone, hitems⟩
  · rw [drop_add_of_append hdrop] at hrest
    rw [hdrop, hrest, happend, List.append_assoc]
  · rwa [happend, List.length_append, ← Nat.add_assoc]

theorem items_of_skipItems (hP : ∀ r, P r → Item r) (h : skipItems bytes n offset = .ok next)
    (hfeeds : Feeds P bytes offset fun items _ => items.length < n) :
    ∃ items tail, items.length = n ∧ (∀ r ∈ items, P r) ∧
      bytes.drop offset = allBytes items ++ tail ∧ next = offset + (allBytes items).length := by
  induction n generalizing offset with
  | zero =>
    rw [skipItems_zero] at h
    exact ⟨[], _, rfl, by simp, rfl, (Except.ok.inj h).symm⟩
  | succ n ih =>
    rw [skipItems_succ] at h
    obtain ⟨mid, hmid, hlater⟩ := of_bind_ok h
    obtain ⟨r, rest, hr, hdrop⟩ := hfeeds [] _ mid (by simp) n.succ_pos rfl hmid
    obtain rfl := next_of_item (hP r hr) hdrop hmid
    have hdone : bytes.drop offset = allBytes [r] ++ rest := by simpa using hdrop
    have hlength : (allBytes [r]).length = r.bytes.length := by simp
    rw [← hlength] at hlater
    obtain ⟨items, tail, rfl, hitems, htail, rfl⟩ := ih hlater
      (hfeeds.behind (by simpa using hr) hdone fun items _ hlen => Nat.succ_lt_succ hlen)
    rw [drop_add_of_append hdone] at htail
    refine ⟨r :: items, tail, rfl, List.forall_mem_cons.mpr ⟨hr, hitems⟩, ?_, ?_⟩
    · rw [hdrop, htail, allBytes_cons, List.append_assoc]
    · rw [hlength, allBytes_cons, List.length_append, Nat.add_assoc]

theorem items_of_skipUntilBreak (hP : ∀ r, P r → Item r) {per : ℕ} {hper : 0 < per}
    (h : skipUntilBreak bytes per hper offset = .ok next)
    (hfeeds : Feeds P bytes offset fun items rest =>
      per ∣ items.length → rest.head? ≠ some breakByte) :
    ∃ items tail, per ∣ items.length ∧ (∀ r ∈ items, P r) ∧
      bytes.drop offset = allBytes items ++ breakByte :: tail := by
  induction hn : bytes.length - offset using Nat.strong_induction_on generalizing offset with
  | _ n ih =>
    rw [skipUntilBreak_eq] at h
    split_ifs at h with hbreak
    · rw [← List.head?_drop] at hbreak
      obtain ⟨tail, htail⟩ := List.head?_eq_some_iff.mp hbreak
      exact ⟨[], tail, dvd_zero per, by simp, htail⟩
    · obtain ⟨mid, hmid, hlater⟩ := of_bind_ok h
      have hgroup : Feeds P bytes offset fun items _ => items.length < per := by
        intro items rest q hitems hlen hdrop hskip
        refine hfeeds items rest q hitems (fun hdvd => ?_) hdrop hskip
        -- a group has begun, or this is the first byte of it
        obtain rfl : items = [] := List.length_eq_zero_iff.mp (Nat.eq_zero_of_dvd_of_lt hdvd hlen)
        obtain rfl : bytes.drop offset = rest := hdrop
        rwa [List.head?_drop]
      obtain ⟨done, rest, hlen, hdone, hdrop, rfl⟩ := items_of_skipItems hP hmid hgroup
      have hlt := (le_of_skipItems hmid).2 hper
      obtain ⟨items, tail, hdvd, hitems, htail⟩ := ih _ (by omega) hlater
        (hfeeds.behind hdone hdrop fun items rest hgo hdvd =>
          hgo ((Nat.dvd_add_right (dvd_of_eq hlen.symm)).mp (by rwa [List.length_append] at hdvd)))
        rfl
      rw [drop_add_of_append hdrop] at htail
      refine ⟨done ++ items, tail, ?_, ?_, ?_⟩
      · rw [List.length_append, hlen]
        exact (Nat.dvd_add_right (dvd_refl per)).mpr hdvd
      · simpa [or_imp, forall_and] using ⟨hdone, hitems⟩
      · rw [hdrop, htail]
        simp [allBytes]

theorem exists_alternate (h : items.length = 2 * n) :
    ∃ entries, entries.length = n ∧ alternate entries = items := by
  induction n generalizing items with
  | zero => exact ⟨[], rfl, (List.length_eq_zero_iff.mp h).symm⟩
  | succ n ih =>
    match items, h with
    | k :: v :: items, h =>
      have hlen : items.length = 2 * n := by
        simp only [List.length_cons] at h
        omega
      obtain ⟨entries, rfl, rfl⟩ := ih hlen
      exact ⟨(k, v) :: entries, rfl, rfl⟩

theorem exists_chunkRaws (h : ∀ r ∈ items, ∃ c : Chunk, r = ⟨[c.data.length], c.encode major⟩) :
    ∃ cs, items = chunkRaws major cs := by
  induction items with
  | nil => exact ⟨[], rfl⟩
  | cons r items ih =>
    obtain ⟨c, rfl⟩ := h r List.mem_cons_self
    obtain ⟨cs, rfl⟩ := ih fun r hr => h r (List.mem_cons_of_mem _ hr)
    exact ⟨c :: cs, rfl⟩

/-- An item begins here. -/
def Begins (bs : List UInt8) : Prop := ∃ r rest, Item r ∧ bs = r.bytes ++ rest

theorem begins_of_head {h : Head} (hdrop : bytes.drop offset = h.encode ++ rest)
    (hbehind : skipBehind bytes ⟨h.major, h.arg, offset + h.encode.length, false⟩ = .ok next)
    (hflaw : ¬ Flaw (bytes.drop offset))
    (hlater : ∀ p q, offset < p → skipCborItem bytes p = .ok q → ¬ Flaw (bytes.drop p) →
      Begins (bytes.drop p)) : Begins (bytes.drop offset) := by
  have hrest := drop_add_of_append hdrop
  have hfeeds : Feeds Item bytes (offset + h.encode.length) fun items _ =>
      items.length < partCount h := by
    intro items tail q hitems hlen htail hskip
    have hdrop' := drop_add_of_append htail
    rw [hrest] at htail
    have hbegins := hlater _ q (by simp; omega) hskip fun hflaw' => hflaw <| by
      rw [hdrop, htail]
      rw [hdrop'] at hflaw'
      exact .counted h items hitems hlen tail hflaw'
    rw [hdrop'] at hbegins
    exact hbegins
  have hstring : h.major = 2 ∨ h.major = 3 → Begins (bytes.drop offset) := by
    intro hmajor
    have hlen : h.arg ≤ rest.length := by
      by_contra hlt
      exact hflaw (hdrop ▸ .cut h hmajor rest (Nat.not_le.mp hlt))
    refine ⟨_, rest.drop h.arg, .string h.major hmajor (.ofHead h rest hlen), ?_⟩
    rw [Chunk.encode_ofHead, hdrop, List.append_assoc, List.take_append_drop]
  unfold skipBehind at hbehind
  dsimp only at hbehind
  split at hbehind
  next hm => exact ⟨_, rest, .number h (.inl (Fin.ext hm)), hdrop⟩
  next hm => exact ⟨_, rest, .number h (.inr (Fin.ext hm)), hdrop⟩
  next hm =>
    refine ⟨_, rest, .simple h (Fin.ext hm) fun hwidth => ?_, hdrop⟩
    by_contra hlt
    exact hflaw (hdrop ▸ .simple h (Fin.ext hm) hwidth (Nat.not_le.mp hlt) rest)
  next hm => exact hstring (.inl (Fin.ext hm))
  next hm => exact hstring (.inr (Fin.ext hm))
  next hm =>
    have hcount : partCount h = h.arg := by simp [partCount, show h.major = 4 from Fin.ext hm]
    rw [hcount] at hfeeds
    obtain ⟨items, tail, hlen, hitems, htail, -⟩ :=
      items_of_skipItems (fun _ hr => hr) hbehind hfeeds
    refine ⟨_, tail, .array h (Fin.ext hm) items hlen hitems, ?_⟩
    rw [hdrop, ← hrest, htail, List.append_assoc]
  next hm =>
    have hcount : partCount h = 2 * h.arg := by simp [partCount, show h.major = 5 from Fin.ext hm]
    rw [hcount] at hfeeds
    obtain ⟨items, tail, hlen, hitems, htail, -⟩ :=
      items_of_skipItems (fun _ hr => hr) hbehind hfeeds
    obtain ⟨entries, hentries, rfl⟩ := exists_alternate hlen
    refine ⟨_, tail, .map h (Fin.ext hm) entries hentries hitems, ?_⟩
    rw [hdrop, ← hrest, htail, List.append_assoc]
  next hm =>
    have hcount : partCount h = 1 := by simp [partCount, show h.major = 6 from Fin.ext hm]
    rw [hcount] at hfeeds
    obtain ⟨r, tail, hr, htail⟩ := hfeeds [] _ next (by simp) Nat.one_pos rfl hbehind
    refine ⟨_, tail, .tag h (Fin.ext hm) r hr, ?_⟩
    rw [hdrop, ← hrest, htail, List.append_assoc]
  next => cases hbehind

theorem begins_of_open (hdrop : bytes.drop offset = initialByte major 31 :: rest)
    (hbehind : skipBehind bytes ⟨major, 0, offset + 1, true⟩ = .ok next)
    (hflaw : ¬ Flaw (bytes.drop offset))
    (hlater : ∀ p q, offset < p → skipCborItem bytes p = .ok q → ¬ Flaw (bytes.drop p) →
      Begins (bytes.drop p)) : Begins (bytes.drop offset) := by
  have hopen : bytes.drop offset = [initialByte major 31] ++ rest := hdrop
  have hrest : bytes.drop (offset + 1) = rest := drop_add_of_append hopen
  have hfeeds : Feeds Item bytes (offset + 1) fun items tail =>
      groupSize major ∣ items.length → tail.head? ≠ some breakByte := by
    intro items tail q hitems hbreak htail hskip
    have hdrop' := drop_add_of_append htail
    rw [hrest] at htail
    have hbegins := hlater _ q (by omega) hskip fun hflaw' => hflaw <| by
      rw [hdrop, htail]
      rw [hdrop'] at hflaw'
      exact .grouped major items hitems tail hbreak hflaw'
    rw [hdrop'] at hbegins
    exact hbegins
  have hlead : major ∈ [0, 1, 6, 7] → Begins (bytes.drop offset) := fun hmajor =>
    absurd (hdrop ▸ .lead major hmajor rest) hflaw
  have hstring : major = 2 ∨ major = 3 →
      skipUntilBreak bytes 1 Nat.one_pos (offset + 1) = .ok next → Begins (bytes.drop offset) := by
    intro hmajor hskip
    have hitem : ∀ r, (∃ c : Chunk, r = ⟨[c.data.length], c.encode major⟩) → Item r := by
      rintro r ⟨c, rfl⟩
      exact .string major hmajor c
    have hchunks : Feeds (fun r => ∃ c : Chunk, r = ⟨[c.data.length], c.encode major⟩) bytes
        (offset + 1) fun items tail => 1 ∣ items.length → tail.head? ≠ some breakByte := by
      intro items tail q hitems hbreak htail hskip
      obtain ⟨r, tail', hr, rfl⟩ := hfeeds items tail q (fun r hr => hitem r (hitems r hr))
        (fun _ => hbreak (one_dvd _)) htail hskip
      refine ⟨r, tail', ?_, rfl⟩
      obtain ⟨lead, body, hne, hbytes⟩ := hr.exists_lead
      by_contra hother
      obtain ⟨cs, rfl⟩ := exists_chunkRaws hitems
      refine hflaw ?_
      rw [hdrop, ← hrest, htail, hbytes, List.append_assoc]
      refine .chunk major hmajor cs lead hne ?_ (body ++ tail')
      rintro h rfl rfl
      have hhead : r.bytes ++ [] = h.encode ++ body := by rw [hbytes, List.append_nil]; rfl
      exact hother ((hr.of_head hhead).string hmajor)
    obtain ⟨items, tail, -, hitems, htail⟩ := items_of_skipUntilBreak hitem hskip hchunks
    obtain ⟨cs, rfl⟩ := exists_chunkRaws hitems
    refine ⟨_, tail, .chunks major hmajor cs, ?_⟩
    rw [hdrop, ← hrest, htail, ← allBytes_chunkRaws]
    simp
  unfold skipBehind at hbehind
  dsimp only at hbehind
  split at hbehind
  next hm => exact hlead (by rw [show major = 0 from Fin.ext hm]; decide)
  next hm => exact hlead (by rw [show major = 1 from Fin.ext hm]; decide)
  next hm => exact hlead (by rw [show major = 7 from Fin.ext hm]; decide)
  next hm => exact hstring (.inl (Fin.ext hm)) hbehind
  next hm => exact hstring (.inr (Fin.ext hm)) hbehind
  next hm =>
    obtain rfl : major = 4 := Fin.ext hm
    obtain ⟨items, tail, -, hitems, htail⟩ :=
      items_of_skipUntilBreak (fun _ hr => hr) hbehind hfeeds
    refine ⟨_, tail, .openArray items hitems, ?_⟩
    rw [hdrop, ← hrest, htail]
    simp
  next hm =>
    obtain rfl : major = 5 := Fin.ext hm
    obtain ⟨items, tail, ⟨n, hlen⟩, hitems, htail⟩ :=
      items_of_skipUntilBreak (fun _ hr => hr) hbehind hfeeds
    obtain ⟨entries, -, rfl⟩ := exists_alternate hlen
    refine ⟨_, tail, .openMap entries hitems, ?_⟩
    rw [hdrop, ← hrest, htail]
    simp
  next hm => exact hlead (by rw [show major = 6 from Fin.ext hm]; decide)
  next => cases hbehind

/-- **What is skipped without a flaw is well formed.** -/
theorem item_of_skip (h : skipCborItem bytes offset = .ok next)
    (hflaw : ¬ Flaw (bytes.drop offset)) : Begins (bytes.drop offset) := by
  induction hn : bytes.length - offset using Nat.strong_induction_on generalizing offset next with
  | _ n ih =>
    obtain ⟨lead, rest, hdrop, hbehind⟩ := of_skipCborItem h
    have hlength := length_of_lead hdrop
    have hpos := lead.length_encode_pos
    have hlater : ∀ p q, offset < p → skipCborItem bytes p = .ok q → ¬ Flaw (bytes.drop p) →
        Begins (bytes.drop p) :=
      fun p q hp hskip hflaw' => ih _ (by omega) hskip hflaw' rfl
    cases lead with
    | definite h => exact begins_of_head hdrop hbehind hflaw hlater
    | indefinite major => exact begins_of_open hdrop hbehind hflaw hlater

end ZbagKeystone
