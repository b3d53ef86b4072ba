import Zbag.Tx.Offer

/-!
# Transactions — the status of a transaction

A transaction that an account has sent expires when the chain is past its expiry height, and an
incoming one never expires or fails; an expiry height of 0 is none. `list_transactions` looks at
neither: it compares the heights of every row, and takes a queued transaction for a failed one in
the rows of the accounts that receive it as well.
-/

namespace ZbagRetry

open ZbagTx ZbagQueue ZbagWallet ZbagAccount

/-! ## What the status has to say -/

/-- Sent by the account of the row. -/
def TxRow.Outgoing (row : TxRow) : Prop := row.txType ≠ .receive

def TxRow.expiry (row : TxRow) : Option ℕ := row.expiryHeight.bind toU32

/-- Not mined, and the chain is past its expiry height. -/
def TxRow.PastExpiry (chainHeight : Option ℕ) (row : TxRow) : Prop :=
  row.mined = none ∧ ∃ expiry height, row.expiry = some expiry ∧ expiry ≠ 0 ∧
    chainHeight = some height ∧ expiry < height

structure StatusFits (chainHeight : Option ℕ) (row : TxRow) (info : TransactionInfo) : Prop where
  expired : info.status = .expired ↔ row.Outgoing ∧ row.PastExpiry chainHeight
  incoming : row.txType = .receive → info.status ≠ .failed ∧ info.status ≠ .expired

/-! ## What it says -/

variable {chainHeight : Option ℕ} {row : TxRow}

theorem expired_iff : row.expired chainHeight = true ↔ row.mined = none ∧
    ∃ expiry height, row.expiry = some expiry ∧ chainHeight = some height ∧ expiry < height := by
  unfold TxRow.expired TxRow.expiry
  rw [Bool.and_eq_true, Option.isNone_iff_eq_none]
  refine and_congr_right fun _ => ?_
  cases row.expiryHeight.bind toU32 with
  | none => simp
  | some expiry =>
    cases chainHeight with
    | none | some height => simp

theorem expired_iff_pastExpiry : row.expired chainHeight = true ↔
    row.PastExpiry chainHeight ∨ (row.mined = none ∧ row.expiry = some 0 ∧
      ∃ height, chainHeight = some height ∧ 0 < height) := by
  rw [expired_iff]
  constructor
  · rintro ⟨hmined, expiry, height, hexpiry, hheight, hlt⟩
    rcases Nat.eq_zero_or_pos expiry with rfl | hpos
    · exact .inr ⟨hmined, hexpiry, height, hheight, hlt⟩
    · exact .inl ⟨hmined, expiry, height, hexpiry, hpos.ne', hheight, hlt⟩
  · rintro (⟨hmined, expiry, height, hexpiry, -, hheight, hlt⟩ |
      ⟨hmined, hexpiry, height, hheight, hlt⟩)
    · exact ⟨hmined, expiry, height, hexpiry, hheight, hlt⟩
    · exact ⟨hmined, 0, height, hexpiry, hheight, hlt⟩

section queue

variable {queued : QueuedBroadcasts} {nowMs : ℤ} {a : AccountId}

theorem status_eq : (transactionInfo queued chainHeight nowMs a row).status =
    (queueStatus (row.status chainHeight) (queued.lookup row.txid)).1 := rfl

theorem status_expired_iff : (transactionInfo queued chainHeight nowMs a row).status = .expired ↔
    row.expired chainHeight = true := by
  rw [status_eq, TxRow.status]
  by_cases hexp : row.expired chainHeight = true
  · simp [hexp, queueStatus]
  · rw [if_neg hexp]
    split_ifs with hmined
    · simp [hexp, queueStatus]
    · cases queued.lookup row.txid with
      | none | some entry => simp [hexp, queueStatus]

theorem status_failed_iff : (transactionInfo queued chainHeight nowMs a row).status = .failed ↔
    row.expired chainHeight = false ∧ row.mined = none ∧ queued.lookup row.txid ≠ none := by
  rw [status_eq, TxRow.status]
  by_cases hexp : row.expired chainHeight = true
  · simp [hexp, queueStatus]
  · rw [if_neg hexp]
    split_ifs with hmined
    · have hne : row.mined ≠ none := Option.isSome_iff_ne_none.mp hmined
      simp [hne, queueStatus]
    · have hnone : row.mined = none := Option.not_isSome_iff_eq_none.mp hmined
      cases queued.lookup row.txid with
      | none => simp [queueStatus]
      | some entry => simp [hexp, hnone, queueStatus]

end queue

/-! ## Where the two agree -/

/-- Not mined: no expiry height of 0 on a chain that has begun; coming in: neither past it nor
queued. -/
def TxRow.Regular (now : Time) (d : QueueDir) (chainHeight : Option ℕ) (row : TxRow) : Prop :=
  row.mined = none →
    (row.expiry = some 0 → ∀ height, chainHeight = some height → height = 0) ∧
    (row.txType = .receive → ¬ row.PastExpiry chainHeight ∧ liveEntry now d row.txid = none)

theorem TxRow.Regular.of_expired {now : Time} {d : QueueDir} (h : row.Regular now d chainHeight)
    (hexp : row.expired chainHeight = true) : row.Outgoing ∧ row.PastExpiry chainHeight := by
  rcases expired_iff_pastExpiry.mp hexp with hpast | ⟨hmined, hzero, height, hheight, hpos⟩
  · exact ⟨fun hin => ((h hpast.1).2 hin).1 hpast, hpast⟩
  · exact absurd ((h hmined).1 hzero height hheight) hpos.ne'

/-- **The status of a row** fits exactly if the row is regular. -/
theorem statusFits_iff (now : Time) (d : QueueDir) (nowMs : ℤ) (a : AccountId) :
    StatusFits chainHeight row
        (transactionInfo (scanQueuedBroadcasts now d).2 chainHeight nowMs a row) ↔
      row.Regular now d chainHeight := by
  constructor
  · intro hfits hmined
    refine ⟨fun hzero height hheight => ?_, fun hin => ⟨fun hpast => ?_, ?_⟩⟩
    · by_contra hne
      have hexp := expired_iff_pastExpiry.mpr
        (.inr ⟨hmined, hzero, height, hheight, Nat.pos_of_ne_zero hne⟩)
      obtain ⟨-, -, expiry, -, hexpiry, hpos, -⟩ := hfits.expired.mp (status_expired_iff.mpr hexp)
      rw [hzero] at hexpiry
      cases hexpiry
      exact hpos rfl
    · have hexp := expired_iff_pastExpiry.mpr (.inl hpast)
      exact (hfits.incoming hin).2 (status_expired_iff.mpr hexp)
    · by_contra hlive
      refine (hfits.incoming hin).1 (status_failed_iff.mpr ⟨?_, hmined, ?_⟩)
      · exact Bool.eq_false_iff.mpr fun h => (hfits.incoming hin).2 (status_expired_iff.mpr h)
      · rw [lookup_scan]
        exact fun h => hlive (Option.map_eq_none_iff.mp h)
  · intro hregular
    constructor
    · rw [status_expired_iff]
      exact ⟨hregular.of_expired, fun h => expired_iff_pastExpiry.mpr (.inl h.2)⟩
    · intro hin
      refine ⟨fun hfailed => ?_, fun hexpired => ?_⟩
      · obtain ⟨-, hmined, hlookup⟩ := status_failed_iff.mp hfailed
        rw [lookup_scan, ((hregular hmined).2 hin).2] at hlookup
        exact hlookup rfl
      · exact (hregular.of_expired (status_expired_iff.mp hexpired)).1 hin

/-- **The status of every listed transaction** fits exactly if its row is regular. -/
theorem listed_status_fits_iff (now : Time) (d : QueueDir) (accounts : AccountDb) (reads : DbReads)
    (rows : WalletRows) (a : AccountId) (limit offset : ℕ) {uuid : AccountUuid}
    (haccount : resolveWalletAccountUuid accounts reads a = .ok uuid) :
    ∃ infos total,
      (listTransactions now d accounts reads rows a limit offset).1 = .ok (infos, total) ∧
      List.Forall₂ (fun row info => (info.txid, info.txType) = (row.txid, row.txType) ∧
        (StatusFits rows.chainHeight row info ↔ row.Regular now d rows.chainHeight))
        (pageRows rows uuid limit offset) infos := by
  unfold listTransactions
  dsimp only
  rw [haccount]
  refine ⟨_, _, rfl, ?_⟩
  rw [List.forall₂_map_right_iff, List.forall₂_same]
  intro row _
  exact ⟨rfl, statusFits_iff now d _ a⟩

/-- The transaction 7 was sent and never mined, 8 comes in. -/
def sentAndIncoming : WalletRows where
  transactions := ⟨[⟨5, 7, none, some 90, some 10000, 60000, 0, none, false, 1, 0⟩,
    ⟨5, 8, none, some 110, none, 0, 500, none, false, 0, 1⟩], by decide⟩
  outputs := []
  chainHeight := some 100

theorem listed_status_fits_sentAndIncoming : ∃ infos total,
    (listTransactions 0 .empty (softwareAccounts 5) (.all [5]) sentAndIncoming 0 200 0).1 =
      .ok (infos, total) ∧
    List.Forall₂ (StatusFits (some 100)) (pageRows sentAndIncoming 5 200 0) infos := by
  have haccount : resolveWalletAccountUuid (softwareAccounts 5) (.all [5]) 0 = .ok 5 := rfl
  obtain ⟨infos, total, hlist, hfits⟩ := listed_status_fits_iff 0 .empty (softwareAccounts 5)
    (.all [5]) sentAndIncoming 0 200 0 haccount
  refine ⟨infos, total, hlist, ?_⟩
  have hpage : pageRows sentAndIncoming 5 200 0 =
      [⟨5, 8, none, some 110, none, 0, 500, none, false, 0, 1⟩,
        ⟨5, 7, none, some 90, some 10000, 60000, 0, none, false, 1, 0⟩] := by decide +kernel
  rw [hpage] at hfits ⊢
  obtain _ | ⟨⟨-, hincoming⟩, hrest⟩ := hfits
  obtain _ | ⟨⟨-, hsent⟩, hrest⟩ := hrest
  cases hrest
  refine .cons (hincoming.mpr fun _ => ⟨nofun, fun _ => ⟨?_, rfl⟩⟩)
    (.cons (hsent.mpr fun _ => ⟨nofun, nofun⟩) .nil)
  rintro ⟨-, expiry, height, hexpiry, -, hheight, hlt⟩
  cases hexpiry
  cases hheight
  exact absurd hlt (by decide)

/-- None of three is mined: 1 and 2 come in, past expiry and without one; 3 never expires. -/
def oddRows : WalletRows where
  transactions := ⟨[⟨5, 7, none, some 90, none, 0, 500, none, false, 0, 1⟩,
    ⟨5, 8, none, none, none, 0, 500, none, false, 0, 1⟩,
    ⟨5, 9, none, some 0, some 10000, 60000, 0, none, false, 1, 0⟩], by decide⟩
  outputs := []
  chainHeight := some 100

/-- The wallet sent 8 from another account, and failed. -/
def transferQueued : QueueDir :=
  QueueCall.files (queueBroadcast 1 8 [3] (some "connection refused") (some .transientTransport)
    true 5000) 0 .empty

theorem odd_rows_misreported :
    oddRows.transactions.rows.map (fun row => (row.txid, row.mined, row.expiry)) =
      [(7, none, some 90), (8, none, none), (9, none, some 0)] ∧
    (listTransactions 0 transferQueued (softwareAccounts 5) (.all [5]) oddRows 0 200
        0).1.toOption.map
      (fun r => r.1.map fun info => (info.txid, info.txType, info.status)) =
      some [(9, .send, .expired), (8, .receive, .failed), (7, .receive, .expired)] := by
  decide +kernel

end ZbagRetry
