import Zbag.Lib.Operation
import Zbag.Wallet.Access

/-!
# Wallet — every authorisation has its reauthentication

Spending and viewing the seed phrase need a reauth token. Beside the wallet operations, a `Session`
keeps the clock and the tokens issued and authorisations given so far, in their order. Each
operation that authorises uses up one token, which nothing makes valid again.
-/

namespace ZbagWallet

open Transition Operation

/-! ## Events -/

inductive EventKind
  /-- `reauth_wallet` returned a token -/
  | issued
  /-- a call was accepted on its strength -/
  | authorised
  deriving DecidableEq, Repr

structure Event where
  kind : EventKind
  walletId : WalletId
  purpose : ReauthPurpose
  token : ℕ
  time : ℕ
  deriving DecidableEq, Repr

def grantedTo {α : Type} (op : Op α) (walletOf : α → WalletId) (s : World) : Option WalletId :=
  (op.run s).1.toOption.map walletOf

def addedTask (op : Op Unit) (s : World) : Option WalletId :=
  (op.run s).1.toOption.bind fun _ => (op.exec s).tasks.getLast?.map Task.walletId

def authorised (env : Env) (purpose : ReauthPurpose) (token : ℕ) (w : Option WalletId) :
    List Event :=
  w.toList.map fun w => ⟨.authorised, w, purpose, token, env.tokenAt⟩

/-- Spends accepted by a call or inside another one, and views of the seed phrase. -/
def callEvents (s : World) : Call → List Event
  | .reauthWallet env w purpose token =>
    (((reauthWallet env w purpose token).run s).1.toOption.map fun _ =>
      ⟨.issued, w, purpose, token, env.now⟩).toList
  | .viewSeedPhrase env w token =>
    authorised env .viewSeedPhrase token (grantedTo (viewSeedPhrase env w token) (fun _ => w) s)
  | .prepareConfirmSend env proposalId token =>
    authorised env .spend token
      (grantedTo (prepareConfirmSend env proposalId token) (·.1.walletId) s)
  | .confirmSend env proposalId token =>
    authorised env .spend token
      (grantedTo (prepareConfirmSend env proposalId token) (·.1.walletId) s)
  | .startSwap env a proposalId token =>
    authorised env .spend token
      (grantedTo (prepareSend env a proposalId >>= fun _ =>
        prepareConfirmSend env proposalId token) (·.1.walletId) s)
  | .prepareShieldFunds env a token =>
    authorised env .spend token (grantedTo (prepareShieldFunds env a token) (·.1.walletId) s)
  | .shieldFunds env a token =>
    authorised env .spend token (grantedTo (prepareShieldFunds env a token) (·.1.walletId) s)
  | .finalizeSigning env requestId token =>
    authorised env .spend token (addedTask (prepareFinalizeSigningTask env requestId token) s)
  | .retryBroadcast env token =>
    authorised env .spend token (addedTask (prepareRetryBroadcastTask env token) s)
  | .startSendJob env proposalId token =>
    authorised env .spend token (addedTask (startSendJob env proposalId token) s)
  | .startShieldJob env a token =>
    authorised env .spend token (addedTask (startShieldJob env a token) s)
  | _ => []

/-- In their order. -/
def callTimes : Call → List ℕ
  | .createWallet _ _ env .. => [env.now]
  | .reauthWallet env .. => [env.now]
  | .getBackupChallenge env .. => [env.now]
  | .verifyBackup env .. => [env.now]
  | .prepareSend env .. => [env.now]
  | .buildSigningRequest env .. => [env.now]
  | .validateProposalForWallet now .. => [now]
  | .takeProposalForExecution now .. => [now]
  | .consumeReauthToken env .. => [env.tokenAt]
  | .viewSeedPhrase env .. => [env.tokenAt]
  | .prepareShieldFunds env .. => [env.tokenAt]
  | .shieldFunds env .. => [env.tokenAt]
  | .retryBroadcast env .. => [env.tokenAt]
  | .startShieldJob env .. => [env.tokenAt]
  | .finalizeSigning env .. => [env.tokenAt, env.takenAt]
  | .prepareConfirmSend env .. => [env.now, env.tokenAt]
  | .startSendJob env .. => [env.now, env.tokenAt]
  | .confirmSend env .. => [env.now, env.tokenAt, env.takenAt]
  | .startSwap env .. => [env.now, env.tokenAt, env.takenAt]
  | _ => []

/-! ## What a call does -/

inductive AccessMove (k k' : Access) (times : List ℕ) (events : List Event) : Prop
  | activate : k'.tokens = k.tokens →
      (∀ active ∈ k'.activeWallet, active ∈ k.activeWallet ∨ active.Sound) → events = [] →
      AccessMove k k' times events
  | issue (w : WalletId) (purpose : ReauthPurpose) (token now : ℕ) : now ∈ times →
      k' = { k with
        tokens := Function.update k.tokens token (some ⟨w, purpose, now + 120000, false⟩) } →
      events = [⟨.issued, w, purpose, token, now⟩] → AccessMove k k' times events
  | spend (now token : ℕ) (purpose : ReauthPurpose) (w : WalletId) : now ∈ times →
      Spent now token purpose w k k' →
      events = [] ∨ events = [⟨.authorised, w, purpose, token, now⟩] →
      AccessMove k k' times events

section Moves

variable {α β : Type} {s : World} {times : List ℕ} {env : Env} {token : ℕ}
  {purpose : ReauthPurpose}

theorem AccessMove.of_eq {k k' : Access} (h : k' = k) : AccessMove k k' times [] :=
  .activate (h ▸ rfl) (fun _ hactive => .inl (h ▸ hactive)) rfl

theorem accessMove_discard {op : Op α} {events : List Event}
    (h : AccessMove s.access (op.exec s).access times events) :
    AccessMove s.access (Op.exec (discard op) s).access times events :=
  exec_discard op s ▸ h

theorem accessMove_of_moves (s : World) {c : Call} (hc : c.allows .tokens = false) :
    AccessMove s.access (c.op.exec s).access times [] := by
  have hop := (call_moves (I := (· = s)) c rfl).access (k := s.access) hc
    (by rintro _ rfl; exact ⟨rfl, fun _ hactive => .inl hactive⟩)
  exact .activate hop.1 hop.2 rfl

theorem access_bind (op : Op α) {f : α → Op β} (h : ∀ a k, KeepsAccess k (f a)) (s : World) :
    (Op.exec (op >>= f) s).access = (op.exec s).access := by
  change (outcome (op >>= f) s).2.access = (outcome op s).2.access
  rw [outcome_bind]
  rcases outcome op s with ⟨r, t⟩
  cases r with
  | ok a => exact exec_of_triple (h a t.access) rfl
  | error e => rfl

theorem accessMove_of_spendsOne {op : Op α} {walletOf : α → World → WalletId → Prop}
    (h : ∀ k, SpendsOne k env.tokenAt token purpose walletOf op) {granted : Option WalletId}
    (hok : ∀ a, (op.run s).1 = .ok a → ∀ w, walletOf a (op.exec s) w → granted = some w)
    (herr : ∀ e, (op.run s).1 = .error e → granted = none) (ht : env.tokenAt ∈ times) :
    AccessMove s.access (op.exec s).access times (authorised env purpose token granted) := by
  obtain ⟨hspent, hfailed⟩ := run_of_triple (h s.access) (s := s) rfl
  cases hr : (op.run s).1 with
  | ok a =>
    obtain ⟨w, hw, hspent⟩ := hspent a hr
    rw [hok a hr w hw]
    exact .spend _ token purpose w ht hspent (.inr rfl)
  | error e =>
    rw [herr e hr]
    rcases hfailed e hr with hsame | ⟨w, hspent⟩
    · exact .of_eq hsame
    · exact .spend _ token purpose w ht hspent (.inl rfl)

theorem accessMove_of_granted {op : Op α} {walletOf : α → WalletId}
    (h : ∀ k, SpendsOne k env.tokenAt token purpose (fun a _ w => w = walletOf a) op)
    (ht : env.tokenAt ∈ times) :
    AccessMove s.access (op.exec s).access times
      (authorised env purpose token (grantedTo op walletOf s)) := by
  refine accessMove_of_spendsOne h (fun a ha w hw => ?_) (fun e he => ?_) ht
  · rw [grantedTo, ha, hw]
    rfl
  · rw [grantedTo, he]
    rfl

theorem accessMove_of_added {op : Op Unit}
    (h : ∀ k, SpendsOne k env.tokenAt token purpose (fun _ => LastTaskOf) op)
    (ht : env.tokenAt ∈ times) :
    AccessMove s.access (op.exec s).access times
      (authorised env purpose token (addedTask op s)) := by
  refine accessMove_of_spendsOne h (fun a ha w hw => ?_) (fun e he => ?_) ht
  · obtain ⟨task, htask, rfl⟩ := hw
    rw [addedTask, ha, show (op.exec s).tasks.getLast? = some task from htask]
    rfl
  · rw [addedTask, he]
    rfl

end Moves

/-- **What a call does to tokens and active wallet**, with the events of its result. -/
theorem op_access (s : World) (call : Call) :
    AccessMove s.access (call.op.exec s).access (callTimes call) (callEvents s call) := by
  cases call with
  | reauthWallet env w purpose token =>
    obtain ⟨hok, herr⟩ := run_of_triple (reauthWallet_access s.access) rfl
    cases hr : ((reauthWallet env w purpose token).run s).1 with
    | ok a =>
      exact .issue w purpose token env.now (List.mem_singleton_self _) (hok a hr)
        (by rw [callEvents, hr]; rfl)
    | error e =>
      rw [callEvents, hr]
      exact .of_eq (herr e hr)
  | consumeReauthToken env w token purpose =>
    obtain ⟨hok, herr⟩ := run_of_triple (consumeReauthToken_access s.access env w token purpose) rfl
    cases hr : ((consumeReauthToken env w token purpose).run s).1 with
    | ok a =>
      exact .spend _ token purpose w (List.mem_singleton_self _) (hok a hr) (.inl rfl)
    | error e => exact .of_eq (herr e hr)
  | viewSeedPhrase =>
    exact accessMove_discard (accessMove_of_granted (fun k => viewSeedPhrase_access k)
      (List.mem_singleton_self _))
  | prepareConfirmSend =>
    exact accessMove_discard (accessMove_of_granted (fun k => prepareConfirmSend_access k)
      (by simp [callTimes]))
  | prepareShieldFunds =>
    exact accessMove_discard (accessMove_of_granted (fun k => prepareShieldFunds_access k)
      (List.mem_singleton_self _))
  | confirmSend env proposalId token =>
    have hrest := access_bind (prepareConfirmSend env proposalId token)
      (fun granted k => takeConfirmSendTask_access k env proposalId granted.1) s
    change AccessMove _ (Op.exec (prepareConfirmSend env proposalId token >>= _) s).access _ _
    rw [hrest]
    exact accessMove_of_granted (fun k => prepareConfirmSend_access k) (by simp [callTimes])
  | shieldFunds env a token =>
    have hrest := access_bind (prepareShieldFunds env a token)
      (fun granted k => spawn_keepsAccess k
        ⟨.shieldFunds, granted.1.walletId, a, [], none, .gate⟩) s
    change AccessMove _ (Op.exec (prepareShieldFunds env a token >>= _) s).access _ _
    rw [hrest]
    exact accessMove_of_granted (fun k => prepareShieldFunds_access k) (List.mem_singleton_self _)
  | finalizeSigning =>
    exact accessMove_of_added (fun k => prepareFinalizeSigningTask_access k) (by simp [callTimes])
  | retryBroadcast =>
    exact accessMove_of_added (fun k => prepareRetryBroadcastTask_access k)
      (List.mem_singleton_self _)
  | startSendJob =>
    exact accessMove_of_added (fun k => startSendJob_access k) (by simp [callTimes])
  | startShieldJob =>
    exact accessMove_of_added (fun k => startShieldJob_access k) (List.mem_singleton_self _)
  | startSwap env a proposalId token =>
    have hrest := access_bind (prepareSend env a proposalId >>= fun _ =>
        prepareConfirmSend env proposalId token)
      (fun granted k => takeConfirmSendTask_access k env proposalId granted.1) s
    rw [bind_assoc] at hrest
    change AccessMove _ (Op.exec (prepareSend env a proposalId >>= fun _ =>
      prepareConfirmSend env proposalId token >>= _) s).access _ _
    rw [hrest]
    exact accessMove_of_granted (fun k => proposeAndConfirm_access k) (by simp [callTimes])
  | _ => exact accessMove_of_moves s rfl

/-! ## Sessions -/

/-- With everything issued and authorised so far, oldest first. -/
structure Session where
  world : World
  clock : ℕ
  events : List Event

def sessionStep (s : Session) : Action → Option Session
  | .call c => some ⟨c.op.exec s.world, (callTimes c).foldr max s.clock,
      s.events ++ callEvents s.world c⟩
  | .task i answer => (taskStep s.world i answer).map fun t => { s with world := t }
  | .restart => some { s with world := s.world.restart }

/-- **Runs with a record of tokens and authorisations.** -/
def sessionSystem : System Session Action where
  init s := s = ⟨World.fresh, 0, []⟩
  step := sessionStep

def FreshToken (old new : List Event) : Prop :=
  ∀ e ∈ old, ∀ e' ∈ new, e.kind = .issued → e'.kind = .issued → e.token ≠ e'.token

instance (old new : List Event) : Decidable (FreshToken old new) :=
  inferInstanceAs (Decidable (∀ e ∈ old, ∀ e' ∈ new, _))

/-- The clock does not go back, and new tokens do not collide with old ones. -/
def Timely (s : Session) : Action → Prop
  | .call c => (s.clock :: callTimes c).Pairwise (· ≤ ·) ∧
      FreshToken s.events (callEvents s.world c)
  | _ => True

instance (s : Session) : ∀ a : Action, Decidable (Timely s a)
  | .call _ => inferInstanceAs (Decidable (_ ∧ _))
  | .task _ _ => isTrue trivial
  | .restart => isTrue trivial

theorem sessionStep_world {s t : Session} {a : Action} (h : sessionStep s a = some t) :
    step s.world a = some t.world := by
  cases a with
  | call c =>
    cases h
    rfl
  | task i answer =>
    obtain ⟨u, hu, rfl⟩ := Option.map_eq_some_iff.mp h
    exact hu
  | restart =>
    cases h
    rfl

/-- The record does not disturb the runs of the manager. -/
theorem sessionSystem_world {G : Session → Action → Prop} {s : Session}
    (h : Reach sessionSystem G s) : Reach walletSystem Free s.world :=
  h.invariant (I := fun s => Reach walletSystem Free s.world) (by rintro s rfl; exact .of_init rfl)
    fun s a t hs _ hstep =>
      Reach.step (s := s.world) (t := t.world) (a := a) hs trivial (sessionStep_world hstep)

/-! ## The correspondence -/

/-- The issue `e` accounts for the authorisation `a`. -/
structure Event.Covers (e a : Event) : Prop where
  issued : e.kind = .issued
  token : e.token = a.token
  walletId : e.walletId = a.walletId
  purpose : e.purpose = a.purpose
  before : e.time ≤ a.time
  recent : a.time ≤ e.time + 120000

/-- Each token was issued, an unused one authorised nothing, and no two authorisations share an
issue. -/
structure Corresponds (s : Session) : Prop where
  tokens : ∀ token record, s.world.tokens token = some record → ∃ e ∈ s.events,
    e = ⟨.issued, record.walletId, record.purpose, token, e.time⟩ ∧ e.time ≤ s.clock ∧
      record.expiresAt = e.time + 120000
  unused : ∀ token record, s.world.tokens token = some record → record.used = false →
    ∀ a ∈ s.events, a.kind = .authorised → a.token ≠ token
  once : ∀ (i j : ℕ) (a b : Event), s.events[i]? = some a → s.events[j]? = some b →
    a.kind = .authorised → b.kind = .authorised → a.token = b.token → i = j
  covered : ∀ (i : ℕ) (a : Event), s.events[i]? = some a → a.kind = .authorised →
    ∃ (k : ℕ) (e : Event), k < i ∧ s.events[k]? = some e ∧ e.Covers a

namespace Corresponds

variable {s : Session} {w : World} {clock : ℕ}

theorem of_tokens (hs : Corresponds s) (hclock : s.clock ≤ clock)
    (hw : ∀ token record, w.tokens token = some record → ∃ record',
      s.world.tokens token = some record' ∧ record.walletId = record'.walletId ∧
        record.purpose = record'.purpose ∧ record.expiresAt = record'.expiresAt ∧
          (record.used = false → record'.used = false)) :
    Corresponds ⟨w, clock, s.events⟩ where
  tokens token record h := by
    obtain ⟨record', h', hwallet, hpurpose, hexpires, _⟩ := hw token record h
    obtain ⟨e, he, heq, htime, hexp⟩ := hs.tokens token record' h'
    exact ⟨e, he, by rw [hwallet, hpurpose]; exact heq, htime.trans hclock, hexpires.trans hexp⟩
  unused token record h hused := by
    obtain ⟨record', h', _, _, _, hu⟩ := hw token record h
    exact hs.unused token record' h' (hu hused)
  once := hs.once
  covered := hs.covered

theorem getElem?_snoc {events : List Event} {e f : Event} {i : ℕ}
    (h : (events ++ [e])[i]? = some f) : events[i]? = some f ∨ i = events.length ∧ f = e := by
  rw [List.getElem?_append] at h
  split_ifs at h with hi
  · exact .inl h
  · obtain ⟨hzero, rfl⟩ : i - events.length = 0 ∧ e = f := by
      simpa [List.getElem?_singleton] using h
    exact .inr ⟨by omega, rfl⟩

theorem getElem?_of_snoc {events : List Event} {e f : Event} {i : ℕ} (h : events[i]? = some f) :
    (events ++ [e])[i]? = some f := by
  rw [List.getElem?_append_left (List.getElem?_eq_some_iff.mp h).1, h]

variable {v : WalletId} {purpose : ReauthPurpose} {token now : ℕ}

theorem issue (hs : Corresponds s) (hfresh : ∀ e ∈ s.events, e.kind = .issued → e.token ≠ token)
    (hclock : s.clock ≤ clock) (hnow : now ≤ clock)
    (hw : w.tokens = Function.update s.world.tokens token
      (some ⟨v, purpose, now + 120000, false⟩)) :
    Corresponds ⟨w, clock, s.events ++ [⟨.issued, v, purpose, token, now⟩]⟩ where
  tokens token' record h := by
    by_cases htoken : token' = token
    · subst htoken
      rw [hw, Function.update_self, Option.some.injEq] at h
      subst h
      exact ⟨_, List.mem_append_right _ (List.mem_singleton_self _), rfl, hnow, rfl⟩
    · rw [hw, Function.update_of_ne htoken] at h
      obtain ⟨e, he, heq, htime, hexp⟩ := hs.tokens token' record h
      exact ⟨e, List.mem_append_left _ he, heq, htime.trans hclock, hexp⟩
  unused token' record h hused a ha hkind := by
    have ha : a ∈ s.events := by
      rcases List.mem_append.mp ha with ha | ha
      · exact ha
      · rw [List.mem_singleton.mp ha] at hkind
        cases hkind
    by_cases htoken : token' = token
    · -- an authorisation with this token would have an issue of it
      rintro rfl
      obtain ⟨i, hi⟩ := List.mem_iff_getElem?.mp ha
      obtain ⟨k, e, _, hk, hcovers⟩ := hs.covered i a hi hkind
      exact hfresh e (List.mem_of_getElem? hk) hcovers.issued (hcovers.token.trans htoken)
    · rw [hw, Function.update_of_ne htoken] at h
      exact hs.unused token' record h hused a ha hkind
  once i j a b hi hj ha hb := by
    rcases getElem?_snoc hi with hi | ⟨_, rfl⟩
    · rcases getElem?_snoc hj with hj | ⟨_, rfl⟩
      · exact hs.once i j a b hi hj ha hb
      · cases hb
    · cases ha
  covered i a hi ha := by
    rcases getElem?_snoc hi with hi | ⟨_, rfl⟩
    · obtain ⟨k, e, hk, he, hcovers⟩ := hs.covered i a hi ha
      exact ⟨k, e, hk, getElem?_of_snoc he, hcovers⟩
    · cases ha

theorem spend (hs : Corresponds s) (hclock : s.clock ≤ clock)
    (h : Spent now token purpose v s.world.access w.access) :
    Corresponds ⟨w, clock, s.events⟩ := by
  obtain ⟨record, hrecord, _, _, _, _, hk⟩ := h
  have hw : w.tokens = Function.update s.world.tokens token (some { record with used := true }) :=
    congrArg Access.tokens hk
  refine hs.of_tokens hclock fun token' record' h => ?_
  by_cases htoken : token' = token
  · subst htoken
    rw [hw, Function.update_self, Option.some.injEq] at h
    subst h
    exact ⟨record, hrecord, rfl, rfl, rfl, nofun⟩
  · rw [hw, Function.update_of_ne htoken] at h
    exact ⟨record', h, rfl, rfl, rfl, id⟩

/-- **A used-up token with its authorisation**, the only one of this token. -/
theorem authorise (hs : Corresponds s) (hclock : s.clock ≤ clock) (hnow : s.clock ≤ now)
    (h : Spent now token purpose v s.world.access w.access) :
    Corresponds ⟨w, clock, s.events ++ [⟨.authorised, v, purpose, token, now⟩]⟩ := by
  have hspend := hs.spend hclock h
  obtain ⟨record, hrecord, hunused, hv, hp, hexpires, hk⟩ := h
  have hw : w.tokens = Function.update s.world.tokens token (some { record with used := true }) :=
    congrArg Access.tokens hk
  have hnew : ∀ a ∈ s.events, a.kind = .authorised → a.token ≠ token :=
    hs.unused token record hrecord hunused
  refine ⟨fun token' record' h => ?_, fun token' record' h hused a ha hkind => ?_,
    fun i j a b hi hj ha hb hab => ?_, fun i a hi ha => ?_⟩
  · obtain ⟨e, he, hrest⟩ := hspend.tokens token' record' h
    exact ⟨e, List.mem_append_left _ he, hrest⟩
  · rcases List.mem_append.mp ha with ha | ha
    · exact hspend.unused token' record' h hused a ha hkind
    · rintro rfl
      rw [List.mem_singleton.mp ha] at h
      rw [hw, Function.update_self, Option.some.injEq] at h
      subst h
      cases hused
  · rcases getElem?_snoc hi with hi | ⟨hlast, rfl⟩
    · rcases getElem?_snoc hj with hj | ⟨_, rfl⟩
      · exact hs.once i j a b hi hj ha hb hab
      · exact absurd hab (hnew a (List.mem_of_getElem? hi) ha)
    · rcases getElem?_snoc hj with hj | ⟨hlast', _⟩
      · exact absurd hab.symm (hnew b (List.mem_of_getElem? hj) hb)
      · exact hlast.trans hlast'.symm
  · rcases getElem?_snoc hi with hi | ⟨rfl, rfl⟩
    · obtain ⟨k, e, hk, he, hcovers⟩ := hs.covered i a hi ha
      exact ⟨k, e, hk, getElem?_of_snoc he, hcovers⟩
    · obtain ⟨e, he, heq, htime, hexp⟩ := hs.tokens token record hrecord
      obtain ⟨k, hk⟩ := List.mem_iff_getElem?.mp he
      refine ⟨k, e, (List.getElem?_eq_some_iff.mp hk).1, getElem?_of_snoc hk, ?_⟩
      exact ⟨by rw [heq], by rw [heq], by rw [heq, ← hv], by rw [heq, ← hp],
        htime.trans hnow, hexp ▸ hexpires⟩

end Corresponds

/-! ## Runs -/

theorem le_foldr_max (l : List ℕ) (b : ℕ) : b ≤ l.foldr max b ∧ ∀ n ∈ l, n ≤ l.foldr max b := by
  induction l with
  | nil => exact ⟨le_rfl, nofun⟩
  | cons a l ih =>
    refine ⟨ih.1.trans (le_max_right ..), fun n hn => ?_⟩
    rcases List.mem_cons.mp hn with rfl | hn
    · exact le_max_left ..
    · exact (ih.2 n hn).trans (le_max_right ..)

theorem corresponds_call {s : Session} {c : Call} (hs : Corresponds s)
    (hg : Timely s (.call c)) :
    Corresponds ⟨c.op.exec s.world, (callTimes c).foldr max s.clock,
      s.events ++ callEvents s.world c⟩ := by
  obtain ⟨hclock, hlast⟩ := le_foldr_max (callTimes c) s.clock
  have hfirst : ∀ now ∈ callTimes c, s.clock ≤ now := (List.pairwise_cons.mp hg.1).1
  cases op_access s.world c with
  | activate htokens _ hevents =>
    rw [hevents, List.append_nil]
    refine hs.of_tokens hclock fun token record h => ⟨record, ?_, rfl, rfl, rfl, id⟩
    rwa [show (c.op.exec s.world).tokens = s.world.tokens from htokens] at h
  | issue w purpose token now hnow hk hevents =>
    rw [hevents]
    refine hs.issue (fun e he hissued => ?_) hclock (hlast now hnow) (congrArg Access.tokens hk)
    exact hg.2 e he _ (hevents ▸ List.mem_singleton_self _) hissued rfl
  | spend now token purpose w hnow hspent hevents =>
    rcases hevents with hevents | hevents
    · rw [hevents, List.append_nil]
      exact hs.spend hclock hspent
    · rw [hevents]
      exact hs.authorise hclock (hfirst now hnow) hspent

theorem taskStep_access {s t : World} {i : ℕ} {answer : TaskAnswer}
    (h : taskStep s i answer = some t) : t.access = s.access := by
  obtain ⟨task, htask, hmove⟩ := taskStep_cases h
  cases hmove <;> rfl

theorem corresponds_step {s t : Session} {a : Action} (hs : Corresponds s) (hg : Timely s a)
    (h : sessionStep s a = some t) : Corresponds t := by
  cases a with
  | call c =>
    cases h
    exact corresponds_call hs hg
  | task i answer =>
    obtain ⟨u, hu, rfl⟩ := Option.map_eq_some_iff.mp h
    refine hs.of_tokens le_rfl fun token record h => ⟨record, ?_, rfl, rfl, rfl, id⟩
    rwa [show u.tokens = s.world.tokens from congrArg Access.tokens (taskStep_access hu)] at h
  | restart =>
    cases h
    exact hs.of_tokens le_rfl nofun

theorem corresponds_of_reach {s : Session} (h : Reach sessionSystem Timely s) : Corresponds s :=
  h.invariant (I := Corresponds)
    (by
      rintro s rfl
      exact ⟨nofun, nofun, fun i _ _ _ hi => (by simp at hi), fun i _ hi => (by simp at hi)⟩)
    fun _ _ _ hs hg hstep => corresponds_step hs hg hstep

/-- **Every authorisation has its own reauthentication**, one-to-one, of the same wallet and purpose
and at most 120 seconds older. -/
theorem authorisations_correspond (s : Session) (h : Reach sessionSystem Timely s) :
    ∃ issue : ℕ → ℕ,
      (∀ (i j : ℕ) (a b : Event), s.events[i]? = some a → s.events[j]? = some b →
        a.kind = .authorised → b.kind = .authorised → issue i = issue j → i = j) ∧
      ∀ (i : ℕ) (a : Event), s.events[i]? = some a → a.kind = .authorised →
        ∃ e : Event, issue i < i ∧ s.events[issue i]? = some e ∧ e.kind = .issued ∧
          e.walletId = a.walletId ∧ e.purpose = a.purpose ∧ e.time ≤ a.time ∧
            a.time ≤ e.time + 120000 := by
  have hs := corresponds_of_reach h
  classical
  have hexists : ∀ i : ℕ, ∃ k, ∀ a : Event, s.events[i]? = some a → a.kind = .authorised →
      ∃ e : Event, k < i ∧ s.events[k]? = some e ∧ e.Covers a := by
    intro i
    by_cases hi : ∃ a : Event, s.events[i]? = some a ∧ a.kind = .authorised
    · obtain ⟨a, ha, hkind⟩ := hi
      obtain ⟨k, e, hk, he, hcovers⟩ := hs.covered i a ha hkind
      refine ⟨k, fun a' ha' _ => ?_⟩
      obtain rfl : a = a' := Option.some.inj (ha.symm.trans ha')
      exact ⟨e, hk, he, hcovers⟩
    · exact ⟨0, fun a ha hkind => absurd ⟨a, ha, hkind⟩ hi⟩
  choose issue hissue using hexists
  refine ⟨issue, fun i j a b hi hj ha hb hij => ?_, fun i a hi ha => ?_⟩
  · -- one issue covers both, so they have the same token
    obtain ⟨e, _, he, hea⟩ := hissue i a hi ha
    obtain ⟨e', _, he', heb⟩ := hissue j b hj hb
    obtain rfl : e = e' := Option.some.inj (he.symm.trans (hij ▸ he'))
    exact hs.once i j a b hi hj ha hb (hea.token.symm.trans heb.token)
  · obtain ⟨e, hlt, he, hcovers⟩ := hissue i a hi ha
    exact ⟨e, hlt, he, hcovers.issued, hcovers.walletId, hcovers.purpose, hcovers.before,
      hcovers.recent⟩

def Env.clockAt (t : ℕ) : Env := { Env.works with now := t, tokenAt := t, takenAt := t }

/-- Two tokens: a shield job two minutes later, and the seed phrase. -/
def twoTokens : List Action :=
  [.call (.restoreWallet .works .works .works 0 (List.replicate 24 "abandon") true),
    .call (.reauthWallet (.clockAt 1000) 0 .spend 0),
    .call (.reauthWallet (.clockAt 2000) 0 .viewSeedPhrase 1),
    .call (.startShieldJob (.clockAt 121000) 0 0), .call (.startShieldJob (.clockAt 121000) 0 0),
    .call (.viewSeedPhrase (.clockAt 122000) 0 1)]

theorem authorisations_correspond_twoTokens : ∃ s, (Reach sessionSystem Timely s ∧
    s.events.map Event.kind = [.issued, .issued, .authorised, .authorised]) ∧
    ∃ issue : ℕ → ℕ, issue 2 ≠ issue 3 ∧ issue 2 < 2 ∧ issue 3 < 3 := by
  obtain ⟨s, hs, hkinds⟩ := exec_reach (S := sessionSystem) (G := Timely)
    (p := fun s => s.events.map Event.kind = [.issued, .issued, .authorised, .authorised])
    twoTokens rfl (by decide +kernel) (by decide +kernel)
  obtain ⟨issue, hinj, hissue⟩ := authorisations_correspond s hs
  have hkind : ∀ (i : ℕ) (k : EventKind),
      [EventKind.issued, .issued, .authorised, .authorised][i]? = some k →
        ∃ a : Event, s.events[i]? = some a ∧ a.kind = k := by
    intro i k hi
    rw [← hkinds, List.getElem?_map] at hi
    exact Option.map_eq_some_iff.mp hi
  obtain ⟨a, ha, hak⟩ := hkind 2 .authorised rfl
  obtain ⟨b, hb, hbk⟩ := hkind 3 .authorised rfl
  refine ⟨s, ⟨hs, hkinds⟩, issue, fun heq => ?_, ?_, ?_⟩
  · exact absurd (hinj 2 3 a b ha hb hak hbk heq) (by decide)
  · obtain ⟨_, hlt, _⟩ := hissue 2 a ha hak
    exact hlt
  · obtain ⟨_, hlt, _⟩ := hissue 3 b hb hbk
    exact hlt

end ZbagWallet
