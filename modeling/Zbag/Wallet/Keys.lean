import Zbag.Wallet.Reauth

/-!
# Wallet — keys of the unlocked wallet only

The manager holds at most one wallet's keys. Whatever the operations do and however they end, the
active wallet has its data key and its database connection exactly while it is unlocked; nothing
that hands out keys or connections has one of any other wallet.

* `sound_of_reach`: the active wallet is sound in every state of a run.
-/

namespace ZbagWallet

open Transition

/-! ## The invariant -/

def KeysSound (k : Access) : Prop := ∀ active ∈ k.activeWallet, active.Sound

theorem keysSound_move {k k' : Access} {times : List ℕ} {events : List Event} (hk : KeysSound k)
    (h : AccessMove k k' times events) : KeysSound k' := by
  cases h with
  | activate _ hactive _ =>
    intro active hmem
    rcases hactive active hmem with hold | hsound
    · exact hk active hold
    · exact hsound
  | issue w purpose token now _ heq _ => exact heq ▸ hk
  | spend now token purpose w _ hspent _ =>
    obtain ⟨_, _, _, _, _, _, heq⟩ := hspent
    exact heq ▸ hk

variable {s : World} {w : WalletId}

theorem keysSound_step {t : World} {a : Action} (hs : KeysSound s.access) (h : step s a = some t) :
    KeysSound t.access := by
  cases a with
  | call c =>
    obtain rfl := Option.some.inj h
    exact keysSound_move hs (op_access s c)
  | task i answer => exact taskStep_access h ▸ hs
  | restart =>
    obtain rfl := Option.some.inj h
    exact nofun

theorem sound_of_reach (h : Reach walletSystem Free s) : KeysSound s.access :=
  h.invariant (I := fun s => KeysSound s.access)
    (by rintro s rfl; exact nofun)
    fun _ _ _ hs _ hstep => keysSound_step hs hstep

/-! ## Ways to a key -/

theorem ActiveWallet.Sound.holds {active : ActiveWallet} (h : active.Sound) :
    (active.dek.isSome = true ↔ active.lockStatus = .unlocked) ∧
      (active.walletDb.isSome = true ↔ active.lockStatus = .unlocked) := by
  unfold ActiveWallet.Sound at h
  cases hstatus : active.lockStatus with
  | locked | unlocked =>
    rw [hstatus] at h
    simp [h.1, h.2]

def Closed (s : World) (w : WalletId) : Prop :=
  ∀ active ∈ s.activeWallet, active.lockStatus = .locked ∨ active.wallet ≠ w

theorem Closed.not_unlocked {active : ActiveWallet} (h : Closed s w)
    (hmem : active ∈ s.activeWallet) (hw : active.wallet = w) : active.lockStatus ≠ .unlocked := by
  intro hstatus
  rcases h active hmem with hlocked | hother
  · rw [hlocked] at hstatus
    cases hstatus
  · exact hother hw

theorem not_holdsDek (h : Closed s w) (dek : Dek) : ¬ HoldsDek s w dek :=
  fun ⟨_, hmem, hw, hstatus, _⟩ => h.not_unlocked hmem hw hstatus

theorem not_holdsDb (h : Closed s w) (conn : Connection) : ¬ HoldsDb s w conn :=
  fun ⟨_, hmem, hw, hstatus, _⟩ => h.not_unlocked hmem hw hstatus

theorem dek_of_holdsDek {dek : Dek} (hs : KeysSound s.access) (h : HoldsDek s w dek) :
    dek = ⟨w⟩ := by
  obtain ⟨active, hmem, hw, hstatus, hdek⟩ := h
  have hsound := hs active hmem
  unfold ActiveWallet.Sound at hsound
  rw [hstatus, hdek] at hsound
  rw [Option.some.inj hsound.1, hw]

/-- **Keys of the unlocked wallet only**: it holds its key and connection exactly when it is
unlocked, and nothing of any other wallet can be had. -/
theorem keys_of_unlocked_wallet (s : World) (h : Reach walletSystem Free s) :
    (∀ active ∈ s.activeWallet,
      (active.dek.isSome = true ↔ active.lockStatus = .unlocked) ∧
        (active.walletDb.isSome = true ↔ active.lockStatus = .unlocked)) ∧
    ∀ w, (∀ active ∈ s.activeWallet, active.lockStatus = .locked ∨ active.wallet ≠ w) →
      (∀ dek, ((unlockedWalletDek w).run s).1 ≠ .ok dek) ∧
      (∀ env a key, ((deriveUnifiedSpendingKey env w a).run s).1 ≠ .ok key) ∧
      (∀ conn, ((requireUnlockedWalletDb w).run s).1 ≠ .ok conn) ∧
      ∀ env ctx, ((getTxOperationContext env).run s).1 = .ok ctx →
        ctx.walletId ≠ w ∧ ctx.dek.wallet ≠ w := by
  have hs := sound_of_reach h
  refine ⟨fun active hmem => (hs active hmem).holds, fun w hw => ⟨?_, ?_, ?_, ?_⟩⟩
  · intro dek hok
    exact not_holdsDek hw dek ((run_of_triple (unlockedWalletDek_reads w s) rfl).1 dek hok).2
  · intro env a key hok
    obtain ⟨_, _, dek, hdek⟩ :=
      (run_of_triple (deriveUnifiedSpendingKey_reads env w a s) rfl).1 key hok
    exact not_holdsDek hw dek hdek
  · intro conn hok
    exact not_holdsDb hw conn
      ((run_of_triple (requireUnlockedWalletDb_reads w s) rfl).1 conn hok).2
  · intro env ctx hok
    have hdek := ((run_of_triple (getTxOperationContext_reads env s) rfl).1 ctx hok).2
    have hne : ctx.walletId ≠ w := by
      rintro rfl
      exact not_holdsDek hw ctx.dek hdek
    exact ⟨hne, by rw [dek_of_holdsDek hs hdek]; exact hne⟩

def twoWallets : List Action :=
  [.call (.restoreWallet .works .works .works 0 (List.replicate 24 "abandon") true),
    .call (.createKeystoneWallet .works .works .works 1 true),
    .call (.lockWallet 1), .call (.loadWallet .works 0), .call (.unlockWallet .works 1 true)]

theorem keys_of_unlocked_wallet_second : ∃ s, (Reach walletSystem Free s ∧
    (((getTxOperationContext .works).run s).1.toOption = some ⟨1, ⟨1⟩⟩ ∧
      ∀ active ∈ s.activeWallet, active.lockStatus = .locked ∨ active.wallet ≠ 0)) ∧
    ∀ dek, ((unlockedWalletDek 0).run s).1 ≠ .ok dek := by
  obtain ⟨s, hs, hctx, hclosed⟩ := exec_reach (S := walletSystem) (G := Free)
    (p := fun s => ((getTxOperationContext .works).run s).1.toOption = some ⟨1, ⟨1⟩⟩ ∧
      ∀ active ∈ s.activeWallet, active.lockStatus = .locked ∨ active.wallet ≠ 0)
    twoWallets rfl (along_free _ _) (by decide +kernel)
  exact ⟨s, ⟨hs, hctx, hclosed⟩, ((keys_of_unlocked_wallet s hs).2 0 hclosed).1⟩

end ZbagWallet
