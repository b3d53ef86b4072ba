import Zbag.Swap.Copies
import Mathlib.Data.Fintype.EquivFin

/-!
# Swaps — how often a quote is started

`start_swap` copies the quote's record and leaves it in the map, so nothing but the expiry stops a
second call for the same quote.
-/

namespace ZbagSwap

open ZbagWallet Transition

inductive CallStage
  | inserting
  | sending
  | done
  deriving DecidableEq, Repr

def CallPc.stage : CallPc → CallStage
  | .insert => .inserting
  | .prepare .. | .execute _ => .sending
  | .pend _ | .fail .. | .poll _ | .returned _ => .done

/-- The rows inserted for a quote. -/
def rowsOf (s : World) (quoteId : String) : ℕ :=
  s.swaps.count fun row => row.info.remoteId = some quoteId

def sendsOf (s : World) (quoteId : String) : ℕ := s.sends.countP fun d => d.quoteId = quoteId

def callsAt (s : World) (quoteId : String) (stage : CallStage) : ℕ :=
  s.calls.countP fun c => c.record.quote.correlationId = quoteId ∧ c.pc.stage = stage

/-- Nothing has been and nothing is about to be inserted for the quote. -/
def QuoteUnused (s : World) (quoteId : String) : Prop :=
  rowsOf s quoteId = 0 ∧ callsAt s quoteId .inserting = 0

instance (s : World) (quoteId : String) : Decidable (QuoteUnused s quoteId) :=
  inferInstanceAs (Decidable (_ ∧ _))

def accepts (s : World) (req : StartSwapRequest) (now : ℤ) : Bool :=
  (startSwap s.quotes req now).1.isOk

def StartsUnused (s : World) : Action → Prop
  | .startSwap req now => accepts s req now = true → QuoteUnused s req.quoteId
  | _ => True

instance (s : World) : ∀ a, Decidable (StartsUnused s a)
  | .startSwap _ _ => inferInstanceAs (Decidable (_ → _))
  | .requestSwapQuote .. | .call .. | .refreshSwapStatus .. | .refresh .. | .poll ..
  | .resumePendingSwaps .. | .resume _ | .crash => isTrue trivial

/-! ## Quotes and their ids -/

def Keyed (s : World) : Prop :=
  ∀ quoteId record, s.quotes quoteId = some record → record.quote.correlationId = quoteId

variable {now : ℤ} {s t : World} {i : ℕ} {c : Call} {a : Action} {w : WalletId} {swap : SwapInfo}

theorem storeQuote_keyed {quotes : Quotes} {record : QuoteRecord}
    (h : ∀ quoteId r, quotes quoteId = some r → r.quote.correlationId = quoteId) :
    ∀ quoteId r, storeQuote quotes record now quoteId = some r →
      r.quote.correlationId = quoteId := by
  intro quoteId r hr
  by_cases hq : quoteId = record.quote.correlationId
  · subst hq
    rw [storeQuote, Function.update_self, Option.some.injEq] at hr
    rw [hr]
  · rw [storeQuote, Function.update_of_ne hq] at hr
    exact h quoteId r (Option.filter_eq_some_iff.mp hr).1

theorem takeRecord_spec (quotes : Quotes) (req : StartSwapRequest) (now : ℤ) :
    (∀ record, (takeRecord quotes req now).1 = .ok record → quotes req.quoteId = some record) ∧
      ∀ quoteId r, (takeRecord quotes req now).2 quoteId = some r → quotes quoteId = some r := by
  unfold takeRecord
  split
  · exact ⟨nofun, fun _ _ h => h⟩
  · rename_i record hrecord
    split_ifs
    · exact ⟨nofun, fun _ _ h => h⟩
    · refine ⟨nofun, fun quoteId r h => ?_⟩
      dsimp only at h
      by_cases hq : quoteId = req.quoteId
      · rw [hq, Function.update_self] at h
        cases h
      · rwa [Function.update_of_ne hq] at h
    · refine ⟨fun r h => ?_, fun _ _ h => h⟩
      rw [hrecord, Except.ok.inj h]

theorem startSwap_spec (quotes : Quotes) (req : StartSwapRequest) (now : ℤ) :
    (∀ record, (startSwap quotes req now).1 = .ok record → quotes req.quoteId = some record) ∧
      ∀ quoteId r, (startSwap quotes req now).2 quoteId = some r → quotes quoteId = some r := by
  obtain ⟨hrec, hmap⟩ := takeRecord_spec quotes req now
  unfold startSwap
  split_ifs
  · exact ⟨nofun, fun _ _ h => h⟩
  · split
    · rename_i e quotes' htake
      rw [htake] at hmap
      exact ⟨nofun, hmap⟩
    · rename_i record quotes' htake
      rw [htake] at hrec hmap
      split
      · exact ⟨nofun, hmap⟩
      · exact ⟨hrec, hmap⟩

theorem callStep_quotes {answer : CallAnswer} (h : callStep s i c answer = some t) :
    t.quotes = s.quotes := by
  cases callStep_callMove h <;> simp [setCall]

theorem keyed_step (hs : Keyed s) (h : step s a = some t) : Keyed t := by
  have hsame : t.quotes = s.quotes → Keyed t := fun heq => by
    unfold Keyed
    rw [heq]
    exact hs
  cases a with
  | requestSwapQuote record now =>
    rw [step, Option.some.injEq] at h
    subst h
    exact storeQuote_keyed hs
  | startSwap req now =>
    have hspec := (startSwap_spec s.quotes req now).2
    simp only [step] at h
    split at h <;> rename_i heq <;> rw [heq] at hspec <;> rw [Option.some.injEq] at h <;> subst h
    · exact fun quoteId r hr => hs quoteId r (hspec quoteId r hr)
    · exact fun quoteId r hr => hs quoteId r (hspec quoteId r hr)
  | crash =>
    rw [step, Option.some.injEq] at h
    subst h
    exact fun _ _ hr => by cases hr
  | call i answer =>
    obtain ⟨c, _, h⟩ := Option.bind_eq_some_iff.mp h
    exact hsame (callStep_quotes h)
  | _ => exact hsame (step_watches rfl h).1

/-! ## Counting calls -/

theorem callsAt_set {pc : CallPc} (hc : s.calls[i]? = some c)
    (ht : t.calls = s.calls.set i { c with pc := pc }) (q : String) (stage : CallStage) :
    callsAt t q stage + (if c.record.quote.correlationId = q ∧ c.pc.stage = stage then 1 else 0) =
      callsAt s q stage +
        if c.record.quote.correlationId = q ∧ pc.stage = stage then 1 else 0 := by
  have h := Table.countP_set_add (b := { c with pc := pc })
    (fun c : Call => c.record.quote.correlationId = q ∧ c.pc.stage = stage) hc
  simpa [callsAt, ht] using h

inductive Move (s t : World) (c : Call) (pc : CallPc) : Prop
  | insert (id : SwapId) (now : ℤ) : c.pc = .insert → pc.stage ≠ .inserting → t.sends = s.sends →
      insertSwap s.swaps c.walletId (newSwap c.record id now) = some t.swaps → Move s t c pc
  | send (d : DepositSend) : c.pc.stage = .sending → pc.stage = .done → t.swaps = s.swaps →
      d.quoteId = c.record.quote.correlationId → t.sends = d :: s.sends → Move s t c pc
  | quiet : pc.stage = c.pc.stage ∨ pc.stage = .done → t.sends = s.sends →
      (∀ q, rowsOf t q = rowsOf s q) → Move s t c pc

theorem rowsOf_insert {q : String} (h : insertSwap s.swaps w swap = some t.swaps) :
    rowsOf t q = rowsOf s q + if swap.remoteId = some q then 1 else 0 := by
  simpa [rowsOf] using Table.count_insert (p := fun row => row.info.remoteId = some q) h

theorem rowsOf_update (htr : Tracks s.swaps w swap) (h : t.swaps = updateSwap s.swaps w swap)
    (q : String) :
    rowsOf t q = rowsOf s q := by
  unfold rowsOf
  rw [h]
  refine Table.count_modify fun row hrow hid => ?_
  rw [remoteId_of_terms (htr.rewritten hrow hid).2]

theorem rowsOf_write {wr : Write} (hs : Tracked s) (hw : writeOf s a = some wr)
    (h : t.swaps = updateSwap s.swaps wr.walletId wr.new) (q : String) :
    rowsOf t q = rowsOf s q := by
  obtain ⟨hheld, hterms⟩ := writeOf_holds hw
  exact rowsOf_update ((hs _ _ hheld).1.congr hterms) h q

theorem rowsOf_persist {ok : Bool} (htr : Tracks s.swaps w swap) (q : String) :
    rowsOf (persist s w swap ok) q = rowsOf s q := by
  cases ok with
  | false => rfl
  | true => exact rowsOf_update htr rfl q

theorem callStep_move {answer : CallAnswer} (hs : Tracked s) (hc : s.calls[i]? = some c)
    (h : callStep s i c answer = some t) :
    ∃ pc, t.calls = s.calls.set i { c with pc := pc } ∧ Move s t c pc := by
  have hmem := List.mem_of_getElem? hc
  cases callStep_callMove h with
  | @insert _ id now _ next hpc hins hnext =>
    refine ⟨next, rfl, .insert id now hpc ?_ rfl hins⟩
    rcases hnext with rfl | ⟨_, _, rfl⟩ <;> simp [CallPc.stage]
  | stop => exact ⟨_, rfl, .quiet (.inr rfl) rfl fun _ => rfl⟩
  | @prepare _ _ error hpc =>
    refine ⟨_, rfl, .quiet ?_ rfl fun _ => rfl⟩
    rw [hpc]
    cases error with
    | none => exact .inl rfl
    | some e => exact .inr rfl
  | @execute swap sent error hpc =>
    refine ⟨_, rfl, .send ⟨c.record.quote.correlationId, swap.id, sent⟩ (by rw [hpc]; rfl) ?_
      rfl rfl rfl⟩
    cases error <;> rfl
  | fail hpc =>
    have htr := (hs _ _ (.call hmem (by rw [hpc]; rfl))).1
    exact ⟨_, by rw [setCall, persist_calls], .quiet (.inr rfl) (by simp [setCall])
      (rowsOf_persist htr)⟩
  | @pend _ ok _ hpc =>
    have htr := (hs _ _ (.call hmem (by rw [hpc]; rfl))).1
    refine ⟨_, by rw [setCall, persist_calls], .quiet (.inr ?_) (by simp [setCall])
      (rowsOf_persist htr)⟩
    cases ok <;> rfl
  | poll =>
    exact ⟨_, by simp [setCall]; rfl, .quiet (.inr rfl) (by simp [setCall])
      fun _ => by simp [rowsOf, setCall]⟩

/-! ## At most one row and one send -/

/-- Rows and calls that may still insert are at most one, and every send has its row. -/
def Once (s : World) : Prop :=
  ∀ q, rowsOf s q + callsAt s q .inserting ≤ 1 ∧ sendsOf s q + callsAt s q .sending ≤ rowsOf s q

theorem once_fresh : Once World.fresh := fun _ => ⟨Nat.zero_le _, Nat.zero_le _⟩

theorem Once.of_same (hs : Once s) (hcalls : t.calls = s.calls) (hsends : t.sends = s.sends)
    (hrows : ∀ q, rowsOf t q = rowsOf s q) : Once t := by
  intro q
  have h := hs q
  unfold sendsOf callsAt at h ⊢
  rw [hcalls, hsends, hrows q]
  exact h

/-- **One step of a call keeps `Once`.** -/
theorem once_move {pc : CallPc} (hs : Once s) (hc : s.calls[i]? = some c)
    (ht : t.calls = s.calls.set i { c with pc := pc }) (h : Move s t c pc) : Once t := by
  intro q
  obtain ⟨hrows, hsends⟩ := hs q
  have hins := callsAt_set hc ht q .inserting
  have hsend := callsAt_set hc ht q .sending
  cases h with
  | insert id now hpc hnext hsame hrow =>
    have hcount := rowsOf_insert (q := q) hrow
    have hs' : sendsOf t q = sendsOf s q := by rw [sendsOf, hsame, sendsOf]
    have hstage : c.pc.stage = .inserting := by rw [hpc]; rfl
    by_cases hq : c.record.quote.correlationId = q
    · simp [hq, hstage, hnext, newSwap] at hins hsend hcount
      by_cases hst : pc.stage = .sending
      · simp [hst] at hsend
        omega
      · simp [hst] at hsend
        omega
    · simp [hq, newSwap] at hins hsend hcount
      omega
  | send d hfrom hto hrow hd hlog =>
    have hrow' : rowsOf t q = rowsOf s q := by rw [rowsOf, hrow, rowsOf]
    have hlog' : sendsOf t q = sendsOf s q +
        if c.record.quote.correlationId = q then 1 else 0 := by
      rw [sendsOf, hlog, List.countP_cons, hd, sendsOf]
      simp
    by_cases hq : c.record.quote.correlationId = q
    · simp [hq, hfrom, hto] at hins hsend hlog'
      omega
    · simp [hq] at hins hsend hlog'
      omega
  | quiet hstage hsame hrow =>
    have hs' : sendsOf t q = sendsOf s q := by rw [sendsOf, hsame, sendsOf]
    rw [hrow q, hs']
    by_cases hq : c.record.quote.correlationId = q
    · rcases hstage with heq | hdone
      · simp only [heq] at hins hsend
        omega
      · simp [hq, hdone] at hins hsend
        omega
    · simp [hq] at hins hsend
      omega

theorem callsAt_append (s : World) (c : Call) (q : String) (stage : CallStage)
    (ht : t.calls = s.calls ++ [c]) :
    callsAt t q stage = callsAt s q stage +
      if c.record.quote.correlationId = q ∧ c.pc.stage = stage then 1 else 0 := by
  unfold callsAt
  rw [ht, List.countP_append, List.countP_singleton]
  simp

theorem once_startSwap {req : StartSwapRequest} (hk : Keyed s) (hs : Once s)
    (hg : StartsUnused s (.startSwap req now)) (h : step s (.startSwap req now) = some t) :
    Once t := by
  have hspec := (startSwap_spec s.quotes req now).1
  simp only [StartsUnused, accepts] at hg
  simp only [step] at h
  split at h <;> rename_i heq <;> cases h
  · exact hs.of_same rfl rfl fun _ => rfl
  · rename_i record quotes
    rw [heq] at hg hspec
    have hid := hk _ _ (hspec record rfl)
    obtain ⟨hrows, hcalls⟩ := hg rfl
    intro q
    have hq := hs q
    have hins := callsAt_append s ⟨req.walletId, record, .insert⟩ q .inserting
      (t := { s with quotes := quotes, calls := s.calls ++ [⟨req.walletId, record, .insert⟩] }) rfl
    have hsend := callsAt_append s ⟨req.walletId, record, .insert⟩ q .sending
      (t := { s with quotes := quotes, calls := s.calls ++ [⟨req.walletId, record, .insert⟩] }) rfl
    rw [hins, hsend]
    change rowsOf s q + _ ≤ 1 ∧ sendsOf s q + _ ≤ rowsOf s q
    by_cases hqe : req.quoteId = q
    · rw [hqe] at hrows hcalls hid
      simp [hid, CallPc.stage]
      omega
    · simp [hid, hqe]
      omega

theorem once_step (hk : Keyed s) (htr : Tracked s) (hs : Once s) (hg : StartsUnused s a)
    (h : step s a = some t) : Once t := by
  -- a step that watches swaps only writes back copies it holds
  have hwatch : a.watches = true → Once t := fun ha => by
    obtain ⟨_, hcalls, hsends⟩ := step_watches ha h
    refine hs.of_same hcalls hsends fun q => ?_
    cases (step_effect h).stores with
    | same heq => rw [rowsOf, heq, rowsOf]
    | insert hnot _ => rw [ha] at hnot; cases hnot
    | write wr hw heq => exact rowsOf_write htr hw heq q
  cases a with
  | requestSwapQuote record now =>
    cases h
    exact hs.of_same rfl rfl fun _ => rfl
  | startSwap req now => exact once_startSwap hk hs hg h
  | call i answer =>
    obtain ⟨c, hc, h⟩ := Option.bind_eq_some_iff.mp h
    obtain ⟨pc, ht, hmove⟩ := callStep_move htr hc h
    exact once_move hs hc ht hmove
  | crash =>
    cases h
    intro q
    have hq := hs q
    change rowsOf s q + 0 ≤ 1 ∧ sendsOf s q + 0 ≤ rowsOf s q
    omega
  | _ => exact hwatch rfl

theorem keyed_of_reach {G : World → Action → Prop} (h : Reach swapSystem G s) : Keyed s :=
  h.invariant (by rintro s rfl; exact nofun)
    fun _ _ _ hs _ hst => keyed_step hs hst

theorem once_of_reach (h : Reach swapSystem StartsUnused s) : Once s := by
  have hall : (Keyed s ∧ Tracked s) ∧ Once s :=
    h.invariant (I := fun s => (Keyed s ∧ Tracked s) ∧ Once s)
      (by rintro s rfl; exact ⟨⟨nofun, tracked_fresh⟩, once_fresh⟩)
      fun _ _ _ hs hg hst => ⟨⟨keyed_step hs.1.1 hst, tracked_step hs.1.2 hst⟩,
        once_step hs.1.1 hs.1.2 hs.2 hg hst⟩
  exact hall.2

/-! ## A second row -/

theorem exists_insert (hc : s.calls[i]? = some c) (hpc : c.pc = .insert) :
    ∃ t, Path swapSystem Free s t ∧ rowsOf t c.record.quote.correlationId =
        rowsOf s c.record.quote.correlationId + 1 ∧
      ∀ j, j ≠ i → t.calls[j]? = s.calls[j]? := by
  obtain ⟨id, hid⟩ := Infinite.exists_notMem_finset (s.swaps.rows.map SwapRow.id).toFinset
  have hfresh : ∀ row ∈ s.swaps, row.id ≠ id := fun row hrow heq =>
    hid (List.mem_toFinset.mpr (List.mem_map.mpr ⟨row, hrow, heq⟩))
  obtain ⟨rows, hins⟩ : ∃ rows, insertSwap s.swaps c.walletId (newSwap c.record id 0) = some rows :=
    Table.insert_of_fresh hfresh
  have hstep : ∃ next, step s (.call i (.insert (.ok [(0, .software)]) id none 0)) =
      some (setCall { s with swaps := rows } i c next) := by
    cases htype : c.record.intent.swapType with
    | toZec => exact ⟨_, by simp [step, hc, callStep, hpc, htype, insertRow, hins]; rfl⟩
    | fromZec =>
      exact ⟨_, by simp [step, hc, callStep, hpc, htype, softwareAccount, insertRow, hins]; rfl⟩
  obtain ⟨next, hstep⟩ := hstep
  have hpath : Path swapSystem Free s (setCall { s with swaps := rows } i c next) :=
    .single (a := .call i (.insert (.ok [(0, .software)]) id none 0)) trivial hstep
  refine ⟨_, hpath, ?_, fun j hj => List.getElem?_set_ne hj.symm⟩
  have hcount := rowsOf_insert (t := setCall { s with swaps := rows } i c next)
    (q := c.record.quote.correlationId) hins
  simpa [newSwap] using hcount

theorem exists_two_rows {req : StartSwapRequest} (hk : Keyed s) (ha : accepts s req now = true)
    (hused : ¬ QuoteUnused s req.quoteId) (h : step s (.startSwap req now) = some t) :
    ∃ u, Path swapSystem Free t u ∧ 2 ≤ rowsOf u req.quoteId := by
  have hspec := (startSwap_spec s.quotes req now).1
  simp only [accepts] at ha
  simp only [step] at h
  split at h <;> rename_i heq <;> rw [heq] at ha hspec
  · cases ha
  · rename_i record quotes
    have hid : record.quote.correlationId = req.quoteId := hk _ _ (hspec record rfl)
    rw [Option.some.injEq] at h
    have hcalls : t.calls = s.calls ++ [⟨req.walletId, record, .insert⟩] := by rw [← h]
    have hrows : rowsOf t req.quoteId = rowsOf s req.quoteId := by rw [← h]; rfl
    have hnew : t.calls[s.calls.length]? = some ⟨req.walletId, record, .insert⟩ := by
      rw [hcalls, List.getElem?_concat_length]
    by_cases hzero : rowsOf s req.quoteId = 0
    · -- another call is about to insert: it goes first
      have hpos : 0 < callsAt s req.quoteId .inserting := by
        rw [QuoteUnused, not_and] at hused
        have := hused hzero
        omega
      obtain ⟨c, hc, hp⟩ := List.countP_pos_iff.mp hpos
      simp only [decide_eq_true_eq] at hp
      have hpc : c.pc = .insert := by
        cases hcp : c.pc <;> simp [hcp, CallPc.stage] at hp ⊢
      obtain ⟨i, hi⟩ := List.getElem?_of_mem hc
      have hlt : i < s.calls.length := (List.getElem?_eq_some_iff.mp hi).1
      have hti : t.calls[i]? = some c := by rw [hcalls, List.getElem?_append_left hlt, hi]
      obtain ⟨u, hu, hru, hcu⟩ := exists_insert hti hpc
      have hun : u.calls[s.calls.length]? = some ⟨req.walletId, record, .insert⟩ := by
        rw [hcu _ (by omega), hnew]
      obtain ⟨v, hv, hrv, _⟩ := exists_insert hun rfl
      rw [hp.1] at hru
      rw [hid] at hrv
      exact ⟨v, hu.trans hv, by omega⟩
    · obtain ⟨u, hu, hru, _⟩ := exists_insert hnew rfl
      rw [hid] at hru
      exact ⟨u, hu, by omega⟩

/-- **A quote is started at most once** if calls are accepted only while it has no row and no other
call about to insert one. One that is accepted otherwise can be followed by a second row. -/
theorem quote_starts_once (s : World) :
    (Reach swapSystem StartsUnused s → ∀ q, rowsOf s q ≤ 1 ∧ sendsOf s q ≤ 1) ∧
      ∀ req now t, Reach swapSystem Free s → accepts s req now = true →
        ¬ QuoteUnused s req.quoteId → step s (.startSwap req now) = some t →
          ∃ u, Path swapSystem Free t u ∧ 2 ≤ rowsOf u req.quoteId := by
  refine ⟨fun h q => ?_, fun req now t h ha hused hst =>
    exists_two_rows (keyed_of_reach h) ha hused hst⟩
  obtain ⟨hrows, hsends⟩ := once_of_reach h q
  omega

def zecQuote : QuoteRecord where
  walletId := 1
  intent := ⟨.fromZec, "nep141:zec.omft.near", "nep141:wrap.near", some "zbag.near", none⟩
  quote := ⟨"100000000", "1", "12.5", 2000, some "t1deposit", none, "quote-1"⟩

def zecRequest : StartSwapRequest := ⟨1, .mainnet, "quote-1", true, some "token"⟩

def depositCall (i : ℕ) (id : SwapId) : List Action :=
  [.call i (.insert (.ok [(0, .software)]) id none 1000), .call i (.prepare none),
    .call i (.execute true none)]

/-- Two rows and two deposits to the same address. -/
theorem quote_starts_twice :
    ∃ s, Reach swapSystem Free s ∧ rowsOf s "quote-1" = 2 ∧ sendsOf s "quote-1" = 2 :=
  exec_reach ([Action.requestSwapQuote zecQuote 1000, .startSwap zecRequest 1000] ++
    depositCall 0 7 ++ [Action.startSwap zecRequest 1000] ++ depositCall 1 8) rfl
    (along_free _ _) (by decide +kernel)

theorem quote_starts_once_zecQuote :
    (∃ s, (Reach swapSystem StartsUnused s ∧ sendsOf s "quote-1" = 1) ∧
      rowsOf s "quote-1" ≤ 1 ∧ sendsOf s "quote-1" ≤ 1) ∧
    ∃ s, Reach swapSystem Free s ∧ ∀ t, step s (.startSwap zecRequest 1000) = some t →
      ∃ u, Path swapSystem Free t u ∧ 2 ≤ rowsOf u "quote-1" := by
  have hrun : ∃ s, Reach swapSystem StartsUnused s ∧ sendsOf s "quote-1" = 1 ∧
      accepts s zecRequest 1000 = true ∧ ¬ QuoteUnused s "quote-1" :=
    exec_reach
      ([Action.requestSwapQuote zecQuote 1000, .startSwap zecRequest 1000] ++ depositCall 0 7)
      rfl (by decide +kernel) (by decide +kernel)
  obtain ⟨s, hs, hsend, hacc, hused⟩ := hrun
  exact ⟨⟨s, ⟨hs, hsend⟩, (quote_starts_once s).1 hs "quote-1"⟩,
    ⟨s, hs.free, fun t ht => (quote_starts_once s).2 zecRequest 1000 t hs.free hacc hused ht⟩⟩

end ZbagSwap
