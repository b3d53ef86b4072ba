import Zbag.Lib.Transition
import Zbag.Wallet.State

/-!
# App — cached balances

While a wallet syncs, the sync service records each new balance of an account and then calls a
handler, which passes it on to the wallet manager. The handler does not wait for the manager's
mutex: if a command holds it, the balance is dropped, and since it is recorded it is not passed on
again.
-/

namespace ZbagBalances

open Transition ZbagWallet

/-- The amounts are decimal texts. -/
structure Balance where
  shieldedSpendable : String
  shieldedPending : String
  transparentTotal : String
  total : String
  deriving DecidableEq, Repr

abbrev Balances := WalletId × AccountId → Option Balance

/-! ## The tables and their writers -/

/-- Also whether the balance was new. -/
def recordBalance (recorded : Balances) (w : WalletId) (a : AccountId) (balance : Balance) :
    Balances × Bool :=
  if recorded (w, a) = some balance then (recorded, false)
  else (Function.update recorded (w, a) (some balance), true)

def observeBalanceChanged (cached : Balances) (w : WalletId) (a : AccountId) (balance : Balance) :
    Balances :=
  Function.update cached (w, a) (some balance)

def logoutWallet (cached : Balances) (w : WalletId) : Balances :=
  fun key => if key.1 = w then none else cached key

/-! ## The sync and its handlers -/

/-- Who holds the mutex of the wallet manager. -/
inductive Holder
  | command
  | handler
  deriving DecidableEq, Repr

/-- Where the sync task is in `emit_balance_events`, and in its two handlers. -/
inductive EmitPc
  | idle
  | loop (todo : List (AccountId × Balance))
  | balance (a : AccountId) (balance : Balance) (todo : List (AccountId × Balance))
  | observeBalance (a : AccountId) (balance : Balance) (todo : List (AccountId × Balance))
  | progress
  | observeProgress
  deriving DecidableEq, Repr

/-- `since`: the balances recorded since the start of the sync. -/
structure Board where
  recorded : Balances
  cached : Balances
  holder : Option Holder
  pc : EmitPc
  since : AccountId → Option Balance
  loggedOut : Bool

inductive Effect
  | logout (w : WalletId)
  | observe (w : WalletId) (a : AccountId) (balance : Balance)
  deriving DecidableEq, Repr

inductive Action
  | emit (balances : List (AccountId × Balance))
  | emitProgress
  | next
  /-- a handler tries the mutex -/
  | tryLock
  | observe
  | lock
  | effect (e : Effect)
  | unlock
  deriving DecidableEq, Repr

def step (w : WalletId) (s : Board) : Action → Option Board
  | .emit balances => if s.pc = .idle then some { s with pc := .loop balances } else none
  | .emitProgress => if s.pc = .idle then some { s with pc := .progress } else none
  | .next =>
    match s.pc with
    | .loop [] => some { s with pc := .idle }
    | .loop ((a, balance) :: todo) =>
      match recordBalance s.recorded w a balance with
      | (_, false) => some { s with pc := .loop todo }
      | (recorded, true) =>
        some { s with
          recorded := recorded
          since := Function.update s.since a (some balance)
          pc := .balance a balance todo }
    | _ => none
  | .tryLock =>
    match s.pc with
    | .balance a balance todo =>
      if s.holder = none then
        some { s with holder := some .handler, pc := .observeBalance a balance todo }
      else some { s with pc := .loop todo }
    | .progress =>
      if s.holder = none then some { s with holder := some .handler, pc := .observeProgress }
      else some { s with pc := .idle }
    | _ => none
  | .observe =>
    match s.pc with
    | .observeBalance a balance todo =>
      some { s with
        cached := observeBalanceChanged s.cached w a balance
        holder := none
        pc := .loop todo }
    | .observeProgress => some { s with holder := none, pc := .idle }
    | _ => none
  | .lock => if s.holder = none then some { s with holder := some .command } else none
  | .effect e =>
    if s.holder = some .command then
      match e with
      | .logout w' =>
        some { s with cached := logoutWallet s.cached w', loggedOut := s.loggedOut || w' = w }
      | .observe w' a balance =>
        if w' = w then none
        else some { s with cached := observeBalanceChanged s.cached w' a balance }
    else none
  | .unlock => if s.holder = some .command then some { s with holder := none } else none

/-- **The sync of a wallet beside commands**, from its start on: a command may hold the mutex. -/
def balances (w : WalletId) : System Board Action where
  init s :=
    s.pc = .idle ∧ s.holder ≠ some .handler ∧ s.since = (fun _ => none) ∧ s.loggedOut = false
  step := step w

/-! ## The manager follows the service -/

def Board.Quiet (s : Board) : Prop := s.holder = none ∧ (s.pc = .idle ∨ ∃ todo, s.pc = .loop todo)

/-- The manager has what was recorded last. -/
def Board.Follows (w : WalletId) (s : Board) : Prop :=
  ∀ a balance, s.since a = some balance → s.cached (w, a) = some balance

/-- A handler finds the mutex free, or the manager has the balance already. -/
def Delivered (w : WalletId) (s : Board) : Action → Prop
  | .tryLock => ∀ a balance todo, s.pc = .balance a balance todo →
    s.holder = none ∨ s.cached (w, a) = some balance
  | _ => True

def EmitPc.pending : EmitPc → Option (AccountId × Balance)
  | .balance a b _ | .observeBalance a b _ => some (a, b)
  | .idle | .loop _ | .progress | .observeProgress => none

def EmitPc.observing : EmitPc → Bool
  | .observeBalance .. | .observeProgress => true
  | .idle | .loop _ | .balance .. | .progress => false

/-- Only the balance that a handler is about to pass on may be missing. -/
structure Inv (w : WalletId) (s : Board) : Prop where
  holder : s.holder = some .handler ↔ s.pc.observing = true
  recorded : ∀ a balance, s.since a = some balance → s.recorded (w, a) = some balance
  pending : ∀ a balance, s.pc.pending = some (a, balance) → s.since a = some balance
  follows : s.loggedOut = false → ∀ a balance, s.since a = some balance →
    s.cached (w, a) = some balance ∨ s.pc.pending = some (a, balance)

variable {w : WalletId} {s t : Board}

theorem inv_init (h : (balances w).init s) : Inv w s := by
  obtain ⟨hpc, hholder, hsince, -⟩ := h
  refine ⟨?_, ?_, ?_, ?_⟩
  · rw [hpc]
    exact iff_of_false hholder Bool.false_ne_true
  · rw [hsince]
    exact nofun
  · rw [hpc]
    exact nofun
  · rw [hsince]
    exact nofun

theorem Inv.of_same (hs : Inv w s) {holder : Option Holder} {pc : EmitPc}
    (hholder : holder = some .handler ↔ pc.observing = true)
    (hpc : pc.pending = s.pc.pending) : Inv w { s with holder, pc } :=
  ⟨hholder, hs.recorded, by rw [hpc]; exact hs.pending, by rw [hpc]; exact hs.follows⟩

theorem Inv.holder_iff (hs : Inv w s) {pc pc' : EmitPc} (hpc : s.pc = pc)
    (hobserving : pc'.observing = pc.observing) :
    s.holder = some .handler ↔ pc'.observing = true := by
  rw [hobserving, ← hpc]
  exact hs.holder

theorem inv_record (hs : Inv w s) {a : AccountId} {b : Balance} {todo : List (AccountId × Balance)}
    (hpc : s.pc = .loop ((a, b) :: todo)) :
    Inv w { s with
      recorded := Function.update s.recorded (w, a) (some b)
      since := Function.update s.since a (some b)
      pc := .balance a b todo } := by
  refine ⟨hs.holder_iff hpc rfl, fun a' b' h => ?_, fun a' b' h => ?_, fun hin a' b' h => ?_⟩
  · by_cases ha : a' = a
    · subst ha
      dsimp only at h ⊢
      rw [Function.update_self] at h ⊢
      exact h
    · dsimp only at h ⊢
      rw [Function.update_of_ne ha] at h
      rw [Function.update_of_ne (fun hkey => ha (Prod.ext_iff.mp hkey).2)]
      exact hs.recorded a' b' h
  · cases h
    exact Function.update_self ..
  · by_cases ha : a' = a
    · subst ha
      dsimp only at h
      rw [Function.update_self] at h
      exact .inr (by rw [← Option.some.inj h]; rfl)
    · dsimp only at h
      rw [Function.update_of_ne ha] at h
      obtain hcached | hpending := hs.follows hin a' b' h
      · exact .inl hcached
      · rw [hpc] at hpending
        cases hpending

theorem inv_next (hs : Inv w s) (h : step w s .next = some t) : Inv w t := by
  simp only [step] at h
  split at h
  next hpc =>
    cases h
    exact hs.of_same (hs.holder_iff hpc rfl) (by rw [hpc]; rfl)
  next a b todo hpc =>
    unfold recordBalance at h
    split_ifs at h
    · cases h
      exact hs.of_same (hs.holder_iff hpc rfl) (by rw [hpc]; rfl)
    · cases h
      exact inv_record hs hpc
  next => cases h

theorem inv_tryLock (hs : Inv w s) (hdelivered : Delivered w s .tryLock)
    (h : step w s .tryLock = some t) : Inv w t := by
  simp only [step] at h
  split at h
  next a b todo hpc =>
    split_ifs at h with hfree
    · cases h
      exact hs.of_same (iff_of_true rfl rfl) (by rw [hpc]; rfl)
    · cases h
      -- the balance is dropped, but the manager has it
      refine ⟨hs.holder_iff hpc rfl, hs.recorded, nofun, fun hin a' b' hsince => .inl ?_⟩
      obtain hcached | hpending := hs.follows hin a' b' hsince
      · exact hcached
      · rw [hpc] at hpending
        cases hpending
        exact (hdelivered a b todo hpc).resolve_left hfree
  next hpc =>
    split_ifs at h
    · cases h
      exact hs.of_same (iff_of_true rfl rfl) (by rw [hpc]; rfl)
    · cases h
      exact hs.of_same (hs.holder_iff hpc rfl) (by rw [hpc]; rfl)
  next => cases h

theorem inv_observe (hs : Inv w s) (h : step w s .observe = some t) : Inv w t := by
  simp only [step] at h
  split at h
  next a b todo hpc =>
    cases h
    have hpending := hs.pending a b (by rw [hpc]; rfl)
    refine ⟨iff_of_false nofun nofun, hs.recorded, nofun, fun hin a' b' hsince => .inl ?_⟩
    show Function.update s.cached (w, a) (some b) (w, a') = some b'
    by_cases ha : a' = a
    · subst ha
      rw [Function.update_self, ← hpending]
      exact hsince
    · rw [Function.update_of_ne (fun hkey => ha (Prod.ext_iff.mp hkey).2)]
      refine (hs.follows hin a' b' hsince).resolve_right fun hother => ?_
      rw [hpc] at hother
      cases hother
      exact ha rfl
  next hpc =>
    cases h
    exact hs.of_same (iff_of_false nofun nofun) (by rw [hpc]; rfl)
  next => cases h

theorem Inv.of_cached (hs : Inv w s) {cached : Balances} {loggedOut : Bool}
    (hin : loggedOut = false → s.loggedOut = false ∧ ∀ a, cached (w, a) = s.cached (w, a)) :
    Inv w { s with cached, loggedOut } := by
  refine ⟨hs.holder, hs.recorded, hs.pending, fun hout a b hsince => ?_⟩
  obtain ⟨hold, hcached⟩ := hin hout
  show cached (w, a) = some b ∨ _
  rw [hcached]
  exact hs.follows hold a b hsince

theorem inv_effect (hs : Inv w s) {e : Effect} (h : step w s (.effect e) = some t) : Inv w t := by
  simp only [step] at h
  split_ifs at h
  cases e with
  | logout w' =>
    cases h
    refine hs.of_cached fun hin => ?_
    simp only [Bool.or_eq_false_iff, decide_eq_false_iff_not] at hin
    exact ⟨hin.1, fun a => if_neg (Ne.symm hin.2)⟩
  | observe w' a' b' =>
    dsimp only at h
    split_ifs at h with hw
    cases h
    refine hs.of_cached fun hin => ⟨hin, fun a => ?_⟩
    exact Function.update_of_ne (fun hkey => hw (Prod.ext_iff.mp hkey).1.symm) ..

theorem inv_step {action : Action} (hs : Inv w s) (hdelivered : Delivered w s action)
    (h : step w s action = some t) : Inv w t := by
  cases action with
  | next => exact inv_next hs h
  | tryLock => exact inv_tryLock hs hdelivered h
  | observe => exact inv_observe hs h
  | effect e => exact inv_effect hs h
  | emit todo | emitProgress =>
    simp only [step] at h
    split_ifs at h with hpc
    cases h
    exact hs.of_same (hs.holder_iff hpc rfl) (by rw [hpc]; rfl)
  | lock =>
    simp only [step] at h
    split_ifs at h with hfree
    cases h
    refine hs.of_same ?_ rfl
    rw [← hs.holder, hfree]
    exact iff_of_false nofun nofun
  | unlock =>
    simp only [step] at h
    split_ifs at h with hcommand
    cases h
    refine hs.of_same ?_ rfl
    rw [← hs.holder, hcommand]
    exact iff_of_false nofun nofun

theorem inv_reach (h : Reach (balances w) (Delivered w) s) : Inv w s :=
  h.invariant (fun _ => inv_init) fun _ _ _ hs hdelivered hstep => inv_step hs hdelivered hstep

/-- **The cached balances follow the recorded ones** if a handler always finds the mutex free or the
balance there; otherwise the balance is missing once the command is done. -/
theorem cached_balances_follow (w : WalletId) (s : Board)
    (h : Reach (balances w) (Delivered w) s) :
    (s.Quiet → s.loggedOut = false → s.Follows w) ∧
      ∀ action t, step w s action = some t → ¬ Delivered w s action → s.loggedOut = false →
        ∃ u, step w t .unlock = some u ∧ u.Quiet ∧ u.loggedOut = false ∧ ¬ u.Follows w := by
  have hs := inv_reach h
  refine ⟨fun hquiet hin a b hsince => ?_, fun action t hstep hnot hin => ?_⟩
  · refine (hs.follows hin a b hsince).resolve_right fun hpending => ?_
    obtain hpc | ⟨todo, hpc⟩ := hquiet.2
    · rw [hpc] at hpending
      cases hpending
    · rw [hpc] at hpending
      cases hpending
  · cases action with
    | tryLock =>
      simp only [Delivered, not_forall, not_or] at hnot
      obtain ⟨a, b, todo, hpc, hheld, hmissing⟩ := hnot
      -- whoever holds the mutex is not a handler of this sync
      have hcommand : s.holder = some .command := by
        cases hholder : s.holder with
        | none => exact absurd hholder hheld
        | some holder =>
          cases holder with
          | command => rfl
          | handler =>
            have hobserving := hs.holder.mp hholder
            rw [hpc] at hobserving
            cases hobserving
      simp only [step, hpc, if_neg hheld] at hstep
      cases hstep
      refine ⟨{ s with pc := .loop todo, holder := none }, ?_, ⟨rfl, .inr ⟨todo, rfl⟩⟩, hin,
        fun hfollows => hmissing ?_⟩
      · simp only [step, hcommand, if_true]
      · exact hfollows a b (hs.pending a b (by rw [hpc]; rfl))
    | emit | emitProgress | next | observe | lock | effect | unlock => exact absurd trivial hnot

/-- The command that has started the sync still holds the mutex. -/
def startOfSync : Board :=
  ⟨fun _ => none, fun _ => none, some .command, .idle, fun _ => none, false⟩

def oneZec : Balance := ⟨"100000000", "0", "0", "100000000"⟩

/-- The first balance comes while the command that started the sync holds the mutex. -/
theorem balance_dropped : ∃ s, Reach (balances 1) Free s ∧
    (s.holder = none ∧ s.pc = .idle ∧ s.loggedOut = false) ∧
    s.since 0 = some oneZec ∧ s.cached (1, 0) = none :=
  exec_reach (S := balances 1) (G := Free) (s := startOfSync)
    (p := fun s => (s.holder = none ∧ s.pc = .idle ∧ s.loggedOut = false) ∧
      s.since 0 = some oneZec ∧ s.cached (1, 0) = none)
    ([Action.emit [(0, oneZec)], .next, .tryLock, .next, .unlock] ++
      [Action.emit [(0, oneZec)], .next, .next])
    ⟨rfl, nofun, rfl, rfl⟩ (along_free _ _) (by decide +kernel)

theorem cached_balances_follow_run : ∃ s, Reach (balances 1) (Delivered 1) s ∧ s.Quiet ∧
    s.since 0 = some oneZec ∧ s.cached (1, 0) = some oneZec := by
  obtain ⟨s, hs, ⟨hholder, hpc, hin⟩, hsince⟩ := exec_reach (S := balances 1) (G := Delivered 1)
    (s := startOfSync)
    (p := fun s => (s.holder = none ∧ s.pc = .idle ∧ s.loggedOut = false) ∧
      s.since 0 = some oneZec)
    [Action.unlock, .emit [(0, oneZec)], .next, .tryLock, .observe, .next] ⟨rfl, nofun, rfl, rfl⟩
    ((along_cons rfl).mpr ⟨trivial, (along_cons rfl).mpr ⟨trivial, (along_cons rfl).mpr ⟨trivial,
      (along_cons rfl).mpr ⟨fun _ _ _ _ => .inl rfl, (along_cons rfl).mpr ⟨trivial,
        (along_cons rfl).mpr ⟨trivial, trivial⟩⟩⟩⟩⟩⟩)
    (by decide +kernel)
  have hquiet : s.Quiet := ⟨hholder, .inl hpc⟩
  exact ⟨s, hs, hquiet, hsince, (cached_balances_follow 1 s hs).1 hquiet hin 0 _ hsince⟩

end ZbagBalances
