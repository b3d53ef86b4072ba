import Zbag.Wallet.Backup

/-!
# Wallet — what a logout leaves behind

Four tables hold what a wallet was given: reauth tokens, send proposals, pending signing requests
and a backup challenge. `logout_wallet` clears the proposals and the challenge of its wallet; tokens
and signing requests stay until they expire, and a task that has already taken its proposal or
request goes on. Beside the world, a `Visit` keeps what was created for one wallet since it was
last logged out.
-/

set_option mvcgen.warning false

namespace ZbagWallet

open Std.Do Transition Operation

/-! ## Credentials -/

/-- Handed out by one operation, taken by another. -/
inductive Credential
  | token (token : ℕ)
  | proposal (proposalId : ℕ)
  | request (requestId : ℕ)
  | challenge (challengeId : ℕ)
  deriving DecidableEq, Repr

/-- Tokens unused, tokens and signing requests not expired. -/
def World.Holds (s : World) (w : WalletId) (now : ℕ) : Credential → Prop
  | .token t => ∃ r ∈ s.tokens t, r.walletId = w ∧ r.used = false ∧ now ≤ r.expiresAt
  | .request q => ∃ r ∈ s.pendingSigningRequests q, r.walletId = w ∧ now ≤ r.expiresAt
  | .proposal p => ∃ r ∈ s.proposals p, r.walletId = w
  | .challenge id => ∃ state ∈ s.backupChallenges w, state.challengeId = id

instance (s : World) (w : WalletId) (now : ℕ) : ∀ c, Decidable (s.Holds w now c)
  | .token _ => inferInstanceAs (Decidable (∃ r ∈ _, _))
  | .request _ => inferInstanceAs (Decidable (∃ r ∈ _, _))
  | .proposal _ => inferInstanceAs (Decidable (∃ r ∈ _, _))
  | .challenge _ => inferInstanceAs (Decidable (∃ state ∈ _, _))

variable {c : Credential} {α : Type} {op : Op α} {i : ℕ} {answer : TaskAnswer}

theorem World.Holds.mono {s : World} {w : WalletId} {now now' : ℕ} (hnow : now ≤ now')
    (h : s.Holds w now' c) : s.Holds w now c := by
  cases c with
  | token t =>
    obtain ⟨r, hr, hw, hused, hexpires⟩ := h
    exact ⟨r, hr, hw, hused, hnow.trans hexpires⟩
  | request q =>
    obtain ⟨r, hr, hw, hexpires⟩ := h
    exact ⟨r, hr, hw, hnow.trans hexpires⟩
  | proposal p | challenge id => exact h

/-- The tables hold for `w` only credentials in `L`, and no task was removed. -/
structure Bounded (w : WalletId) (now : ℕ) (L : Credential → Prop) (tasks : List Task)
    (s : World) : Prop where
  token : ∀ t r, s.tokens t = some r → r.walletId = w → r.used = false → now ≤ r.expiresAt →
    L (.token t)
  request : ∀ q r, s.pendingSigningRequests q = some r → r.walletId = w → now ≤ r.expiresAt →
    L (.request q)
  proposal : ∀ p r, s.proposals p = some r → r.walletId = w → L (.proposal p)
  challenge : ∀ state, s.backupChallenges w = some state → L (.challenge state.challengeId)
  tasks : tasks <+: s.tasks

variable {w : WalletId} {now : ℕ} {L L' : Credential → Prop} {tasks : List Task} {s t : World}

theorem bounded_of_holds (h : ∀ c, s.Holds w now c → L c) (ht : tasks <+: s.tasks) :
    Bounded w now L tasks s where
  token t r hr hw hused hexpires := h (.token t) ⟨r, hr, hw, hused, hexpires⟩
  request q r hr hw hexpires := h (.request q) ⟨r, hr, hw, hexpires⟩
  proposal p r hr hw := h (.proposal p) ⟨r, hr, hw⟩
  challenge state hstate := h (.challenge state.challengeId) ⟨state, hstate, rfl⟩
  tasks := ht

namespace Bounded

theorem of_holds (h : Bounded w now L tasks s) {c : Credential} (hc : s.Holds w now c) : L c := by
  cases c with
  | token t =>
    obtain ⟨r, hr, hw, hused, hexpires⟩ := hc
    exact h.token t r hr hw hused hexpires
  | request q =>
    obtain ⟨r, hr, hw, hexpires⟩ := hc
    exact h.request q r hr hw hexpires
  | proposal p =>
    obtain ⟨r, hr, hw⟩ := hc
    exact h.proposal p r hr hw
  | challenge id =>
    obtain ⟨state, hstate, rfl⟩ := hc
    exact h.challenge state hstate

theorem mono (hL : ∀ c, L c → L' c) (h : Bounded w now L tasks s) :
    Bounded w now L' tasks s :=
  bounded_of_holds (fun _ hc => hL _ (h.of_holds hc)) h.tasks

theorem drop (h : Bounded w now L tasks s) (htokens : ∀ k r, t.tokens k = some r → s.tokens k = r)
    (hrequests : ∀ q r, t.pendingSigningRequests q = some r → s.pendingSigningRequests q = r)
    (hproposals : ∀ p r, t.proposals p = some r → s.proposals p = r)
    (hchallenges : ∀ v c, t.backupChallenges v = some c → s.backupChallenges v = c)
    (htasks : s.tasks <+: t.tasks) : Bounded w now L tasks t where
  token k r hr := h.token k r (htokens k r hr)
  request q r hr := h.request q r (hrequests q r hr)
  proposal p r hr := h.proposal p r (hproposals p r hr)
  challenge state hstate := h.challenge state (hchallenges w state hstate)
  tasks := h.tasks.trans htasks

theorem congr (h : Bounded w now L tasks s) (htokens : t.tokens = s.tokens)
    (hrequests : t.pendingSigningRequests = s.pendingSigningRequests)
    (hproposals : t.proposals = s.proposals) (hchallenges : t.backupChallenges = s.backupChallenges)
    (htasks : t.tasks = s.tasks) : Bounded w now L tasks t :=
  h.drop (fun _ _ hr => htokens ▸ hr) (fun _ _ hr => hrequests ▸ hr)
    (fun _ _ hr => hproposals ▸ hr) (fun _ _ hr => hchallenges ▸ hr) (htasks ▸ List.prefix_rfl)

theorem setToken (h : Bounded w now L tasks s) (k : ℕ) (r : TokenRecord)
    (hr : r.walletId = w → r.used = false → now ≤ r.expiresAt → L (.token k)) :
    Bounded w now L tasks { s with tokens := Function.update s.tokens k (some r) } where
  token k' r' hr' hw hused hexpires := by
    by_cases hk : k' = k
    · subst hk
      obtain rfl : r = r' := by simpa using hr'
      exact hr hw hused hexpires
    · exact h.token k' r' (by simpa [hk] using hr') hw hused hexpires
  request := h.request
  proposal := h.proposal
  challenge := h.challenge
  tasks := h.tasks

theorem setRequest (h : Bounded w now L tasks s) (q : ℕ) (request : Option PendingSigningRequest)
    (hr : ∀ r ∈ request, r.walletId = w → L (.request q)) :
    Bounded w now L tasks { s with
      pendingSigningRequests := Function.update s.pendingSigningRequests q request } where
  token := h.token
  request q' r hr' hw hexpires := by
    by_cases hq : q' = q
    · subst hq
      exact hr r (by simpa using hr') hw
    · exact h.request q' r (by simpa [hq] using hr') hw hexpires
  proposal := h.proposal
  challenge := h.challenge
  tasks := h.tasks

theorem setProposal (h : Bounded w now L tasks s) (p : ℕ) (record : Option ProposalRecord)
    (hr : ∀ r ∈ record, r.walletId = w → L (.proposal p)) (prepared : ℕ) :
    Bounded w now L tasks { s with
      proposals := Function.update s.proposals p record, prepared := prepared } where
  token := h.token
  request := h.request
  proposal p' r hr' hw := by
    by_cases hp : p' = p
    · subst hp
      exact hr r (by simpa using hr') hw
    · exact h.proposal p' r (by simpa [hp] using hr') hw
  challenge := h.challenge
  tasks := h.tasks

theorem setChallenge (h : Bounded w now L tasks s) (v : WalletId)
    (state : Option BackupChallengeState)
    (hr : ∀ c ∈ state, v = w → L (.challenge c.challengeId)) :
    Bounded w now L tasks { s with
      backupChallenges := Function.update s.backupChallenges v state } where
  token := h.token
  request := h.request
  proposal := h.proposal
  challenge c hc := by
    by_cases hv : w = v
    · subst hv
      exact hr c (by simpa using hc) rfl
    · exact h.challenge c (by simpa [hv] using hc)
  tasks := h.tasks

theorem spawn (h : Bounded w now L tasks s) (task : Task) :
    Bounded w now L tasks { s with tasks := s.tasks ++ [task] } :=
  h.drop (fun _ _ => id) (fun _ _ => id) (fun _ _ => id) (fun _ _ => id) (List.prefix_append _ _)

theorem record (h : Bounded w now L tasks s) (v : WalletId) (kind : TxEventKind)
    (proposal : Option TakenProposal) : Bounded w now L tasks (s.record v kind proposal) :=
  h.congr rfl rfl rfl rfl rfl

end Bounded

/-! ## Operations -/

/-- **Moves hand out nothing**, those left out that do. -/
theorem WorldMoves.bounded {K : MoveKind → Bool} {I : World → Prop} (h : WorldMoves K I t)
    (hK : K .adds = false) (hI : ∀ s, I s → Bounded w now L tasks s) :
    Bounded w now L tasks t := by
  induction h with
  | start h => exact hI _ h
  | row _ _ _ _ _ ih | rows _ _ _ _ _ _ ih | complete _ _ _ _ ih | secrets _ _ _ ih
  | accounts _ _ ih | active _ _ _ ih => exact ih.congr rfl rfl rfl rfl rfl
  | created _ v _ ih => exact ih.record v .created none
  | issue _ _ _ hadds _ _ =>
    rw [hK] at hadds
    cases hadds.2
  | prepare _ _ _ hadds _ _ _ _ =>
    rw [hK] at hadds
    cases hadds
  | count _ v state _ _ hstate ih =>
    refine ih.setChallenge v _ ?_
    rintro _ ⟨⟩ rfl
    exact ih.challenge state hstate
  | dropChallenge _ v _ ih => exact ih.setChallenge v none nofun
  | token _ k record _ hadds ih =>
    rw [hK] at hadds
    exact ih.setToken k record fun _ hused _ => absurd (hadds.resolve_right nofun) (by simp [hused])
  | @remove s _ p ih => exact ih.setProposal p none nofun s.prepared
  | clear _ v ih =>
    exact ih.drop (fun _ _ => id) (fun _ _ => id)
      (fun p r hr => (Option.filter_eq_some_iff.mp hr).1) (fun _ _ => id) List.prefix_rfl
  | @take s _ p task _ _ _ _ _ _ ih => exact (ih.setProposal p none nofun s.prepared).spawn task
  | spawn _ task _ _ _ ih => exact ih.spawn task
  | request _ q request hadds ih =>
    rw [hK] at hadds
    obtain rfl := hadds.resolve_right nofun
    exact ih.setRequest q none nofun

variable (w now L tasks)

/-- If it succeeds, it may add this credential, under `p`. -/
abbrev AddsOne {α : Type} (p : Prop) (c : Credential) (op : Op α) : Prop :=
  ⦃fun s => ⌜Bounded w now L tasks s⌝⦄ op
    ⦃post⟨fun _ s => ⌜Bounded w now (fun x => L x ∨ p ∧ x = c) tasks s⌝,
      fun _ s => ⌜Bounded w now L tasks s⌝⟩⦄

section Operations

variable {env backupEnv accountEnv : Env} {v : WalletId} {a : AccountId} {words : List String}
  {secrets : Bool} {challengeId : ℕ} {indices : List ℕ} {answers : ℕ → Option String}
  {purpose : ReauthPurpose} {time proposalId requestId token : ℕ} {walletType : WalletType}
  {accountType : AccountType} {required password : Bool}

theorem reauthWallet_addsOne :
    AddsOne w now L tasks (v = w) (.token token) (reauthWallet env v purpose token) := by
  mvcgen [reauthWallet, ipcErr]
  rename_i s hs _ _ _
  exact (hs.mono fun _ => .inl).setToken token _ fun hw _ _ => .inr ⟨hw, rfl⟩

theorem issueBackupChallenge_addsOne :
    AddsOne w now L tasks (v = w) (.challenge challengeId)
      (issueBackupChallenge env v challengeId indices) := by
  mvcgen [issueBackupChallenge, ipcErr]
  rename_i s hs _ _ _
  refine (hs.mono fun _ => .inl).setChallenge v _ ?_
  rintro _ ⟨⟩ hv
  exact .inr ⟨hv, rfl⟩

theorem getBackupChallenge_addsOne :
    AddsOne w now L tasks (v = w) (.challenge challengeId)
      (getBackupChallenge env v challengeId indices) := by
  mvcgen [getBackupChallenge, issueBackupChallenge_addsOne, ipcErr]

def World.isActive (s : World) (w : WalletId) : Bool :=
  s.activeWallet.any fun active => active.wallet == w

theorem prepareSend_addsOne (s₀ : World) :
    ⦃fun s => ⌜s = s₀ ∧ Bounded w now L tasks s⌝⦄ prepareSend env a proposalId
    ⦃post⟨fun _ s => ⌜Bounded w now
        (fun x => L x ∨ s₀.isActive w = true ∧ x = .proposal proposalId) tasks s⌝,
      fun _ s => ⌜Bounded w now L tasks s⌝⟩⦄ := by
  mvcgen [prepareSend, insertProposal, ipcErr]
  all_goals grind [World.isActive, Bounded.setProposal, Bounded.mono]

theorem buildSigningRequest_addsOne (s₀ : World) :
    ⦃fun s => ⌜s = s₀ ∧ Bounded w now L tasks s⌝⦄ buildSigningRequest env requestId
    ⦃post⟨fun _ s => ⌜Bounded w now
        (fun x => L x ∨ s₀.isActive w = true ∧ x = .request requestId) tasks s⌝,
      fun _ s => ⌜Bounded w now L tasks s⌝⟩⦄ := by
  mvcgen [buildSigningRequest, recordCreated, setSigningRequest, ipcErr]
  all_goals grind [World.isActive, Bounded.record, Bounded.setRequest, Bounded.mono]

end Operations

theorem issueBackupChallenge_adds (env : Env) (v : WalletId) (challengeId : ℕ) (indices : List ℕ) :
    ⦃fun s => ⌜WorldMoves (· == .backup) (Bounded w now L tasks) s⌝⦄
    issueBackupChallenge env v challengeId indices
    ⦃post⟨fun _ s => ⌜WorldMoves (· == .backup)
        (Bounded w now (fun x => L x ∨ v = w ∧ x = .challenge challengeId) tasks) s⌝,
      fun _ s => ⌜WorldMoves (· == .backup) (Bounded w now L tasks) s⌝⟩⦄ := by
  have hone : AddsOne w now L tasks (v = w) (.challenge challengeId)
      (issueBackupChallenge env v challengeId indices) := issueBackupChallenge_addsOne w now L tasks
  mvcgen [hone]
  case vc1 s hs => exact hs.bounded rfl fun _ h => h
  all_goals exact .start

/-- A challenge may be issued before the last step fails. -/
theorem createWallet_adds (env backupEnv accountEnv : Env) (v : WalletId) (words : List String)
    (secrets : Bool) (challengeId : ℕ) (indices : List ℕ) :
    ⦃fun s => ⌜WorldMoves (· == .backup) (Bounded w now L tasks) s⌝⦄
    createWallet env backupEnv accountEnv v words secrets challengeId indices
    ⦃post⟨fun _ s => ⌜Bounded w now (fun x => L x ∨ v = w ∧ x = .challenge challengeId) tasks s⌝,
      fun _ s => ⌜Bounded w now (fun x => L x ∨ v = w ∧ x = .challenge challengeId) tasks s⌝⟩⦄ := by
  have hissue := issueBackupChallenge_adds w now L tasks accountEnv v challengeId indices
  mvcgen [createWallet, insertWallet_moving, setBackupRequired_moving, storeSecrets_moving,
    upsertAccount_moving, hissue, activate_moving]
  all_goals grind [WorldMoves.bounded, Bounded.mono]

variable {w now L tasks}

theorem WalletBackup.create_challenge (v : WalletBackup) (env backupEnv : Env)
    (walletType : WalletType) (required : Bool) :
    (v.create env backupEnv walletType required).challenge = v.challenge := by
  unfold WalletBackup.create
  split_ifs <;> rfl

/-- **A challenge was added only if the creation came that far.** -/
theorem createWallet_bounded (h : Bounded w now L tasks s) (env backupEnv accountEnv : Env)
    (v : WalletId) (words : List String) (secrets : Bool) (challengeId : ℕ) (indices : List ℕ) :
    Bounded w now (fun x => L x ∨ (v = w ∧ creates env backupEnv accountEnv v secrets s = true) ∧
        x = .challenge challengeId) tasks
      ((createWallet env backupEnv accountEnv v words secrets challengeId indices).exec s) := by
  have hadds := exec_of_triple (createWallet_adds w now L tasks env backupEnv accountEnv v words
    secrets challengeId indices) (.start h)
  have hleads := exec_of_triple (createWallet_leads s.backup.view v env backupEnv accountEnv words
    secrets challengeId indices) rfl
  by_cases hc : creates env backupEnv accountEnv v secrets s = true
  · simpa [hc] using hadds
  · refine ⟨fun k r hr hw hu he => ?_, fun q r hr hw he => ?_, fun p r hr hw => ?_,
      fun state hstate => ?_, hadds.tasks⟩
    · simpa using hadds.token k r hr hw hu he
    · simpa using hadds.request q r hr hw he
    · simpa using hadds.proposal p r hr hw
    · -- the challenges are the ones from before
      rw [if_neg (mt creates_iff.mpr hc)] at hleads
      have hsame := congrArg WalletBackup.challenge (congrFun hleads w)
      refine .inl (h.challenge state ?_)
      by_cases hv : w = v
      · subst hv
        rw [Function.update_self, WalletBackup.create_challenge] at hsame
        exact hsame.symm.trans hstate
      · rw [Function.update_of_ne hv] at hsame
        exact hsame.symm.trans hstate

/-! ## What a call creates -/

def created (w : WalletId) (s : World) : Call → List Credential
  | .createWallet env backupEnv accountEnv v _ secrets challengeId _ =>
    if v = w ∧ creates env backupEnv accountEnv v secrets s = true then [.challenge challengeId]
    else []
  | .getBackupChallenge env v challengeId indices =>
    if v = w ∧ ((getBackupChallenge env v challengeId indices).run s).1.isOk = true then
      [.challenge challengeId]
    else []
  | .reauthWallet env v purpose token =>
    if v = w ∧ ((reauthWallet env v purpose token).run s).1.isOk = true then [.token token] else []
  | .prepareSend env a proposalId | .startSwap env a proposalId _ =>
    if s.isActive w = true ∧ ((prepareSend env a proposalId).run s).1.isOk = true then
      [.proposal proposalId]
    else []
  | .buildSigningRequest env requestId =>
    if s.isActive w = true ∧ ((buildSigningRequest env requestId).run s).1.isOk = true then
      [.request requestId]
    else []
  | _ => []

theorem exec_addsOne {op : Op Unit} {p : Prop} [Decidable p]
    (hok : ∀ a, (op.run s).1 = .ok a →
      Bounded w now (fun x => L x ∨ p ∧ x = c) tasks (op.run s).2)
    (herr : ∀ e, (op.run s).1 = .error e → Bounded w now L tasks (op.run s).2) :
    Bounded w now (fun x => L x ∨ x ∈ if p ∧ (op.run s).1.isOk = true then [c] else []) tasks
      (op.exec s) := by
  cases hr : (op.run s).1 with
  | ok a =>
    refine (hok a hr).mono fun x hx => hx.imp_right fun ⟨hp, hx⟩ => ?_
    rw [if_pos ⟨hp, rfl⟩, hx]
    exact List.mem_singleton_self c
  | error e => exact (herr e hr).mono fun _ => .inl

/-- **A call adds to the tables only what it creates.** -/
theorem op_bounded (h : Bounded w now L tasks s) (call : Call) :
    Bounded w now (fun x => L x ∨ x ∈ created w s call) tasks (call.op.exec s) := by
  cases call with
  | createWallet env backupEnv accountEnv v words secrets challengeId indices =>
    refine (createWallet_bounded h env backupEnv accountEnv v words secrets challengeId
      indices).mono fun x hx => hx.imp_right fun ⟨hc, hx⟩ => ?_
    rw [created, if_pos hc, hx]
    exact List.mem_singleton_self _
  | reauthWallet env v purpose token =>
    obtain ⟨hok, herr⟩ := run_of_triple (reauthWallet_addsOne w now L tasks) h
    exact exec_addsOne hok herr
  | getBackupChallenge env v challengeId indices =>
    obtain ⟨hok, herr⟩ := run_of_triple (getBackupChallenge_addsOne w now L tasks) h
    exact exec_addsOne hok herr
  | prepareSend env a proposalId =>
    obtain ⟨hok, herr⟩ := run_of_triple (prepareSend_addsOne w now L tasks s)
      ⟨rfl, h⟩
    exact exec_addsOne hok herr
  | buildSigningRequest env requestId =>
    obtain ⟨hok, herr⟩ := run_of_triple (buildSigningRequest_addsOne w now L tasks s)
      ⟨rfl, h⟩
    exact exec_addsOne hok herr
  | startSwap env a proposalId token =>
    -- the proposal stays in the table if the send is not confirmed
    obtain ⟨hok, herr⟩ := run_of_triple (prepareSend_addsOne w now L tasks s)
      ⟨rfl, h⟩
    have hprepare := exec_addsOne hok herr
    change Bounded w now _ tasks (outcome (prepareSend env a proposalId >>= fun _ =>
      prepareConfirmSendTask env proposalId token) s).2
    rw [outcome_bind]
    change Bounded w now _ tasks (outcome (prepareSend env a proposalId) s).2 at hprepare
    rcases hout : outcome (prepareSend env a proposalId) s with ⟨r, t⟩
    rw [hout] at hprepare
    cases r with
    | ok u =>
      exact (call_moves (.confirmSend env proposalId token) hprepare).bounded rfl fun _ h => h
    | error e => exact hprepare
  | _ => exact ((call_moves _ h).bounded rfl fun _ h => h).mono fun _ => .inl

/-- What a logout does not clear. -/
def Credential.outlasts : Credential → Bool
  | .token _ | .request _ => true
  | .proposal _ | .challenge _ => false

/-- **A logout clears the proposals and the challenge of its wallet.** -/
theorem logoutWallet_outlasts (w : WalletId) (now : ℕ) (L : Credential → Prop)
    (tasks : List Task) :
    ⦃fun s => ⌜Bounded w now L tasks s⌝⦄ logoutWallet w
    ⦃post⟨fun _ s => ⌜Bounded w now (fun x => L x ∧ x.outlasts = true) tasks s⌝,
      fun _ s => ⌜Bounded w now L tasks s⌝⟩⦄ := by
  mvcgen [logoutWallet, removeBackupChallenge, clearProposalsForWallet, ipcErr]
  rename_i s hs _ _ _ _ _ _ _
  refine ⟨fun k r hr hw hu he => ⟨hs.token k r hr hw hu he, rfl⟩,
    fun q r hr hw he => ⟨hs.request q r hr hw he, rfl⟩, fun p r hr hw => ?_, fun c hc => ?_,
    hs.tasks⟩
  · exact absurd hw (by simpa using (Option.filter_eq_some_iff.mp hr).2)
  · change Function.update s.backupChallenges w none w = some c at hc
    simp at hc

/-! ## What a call accepts -/

/-- With the wallet for which it is looked up. -/
def Call.presents (s : World) : Call → Option (WalletId × Credential)
  | .validateProposalForWallet _ proposalId w | .takeProposalForExecution _ proposalId w =>
    some (w, .proposal proposalId)
  | .prepareConfirmSend _ proposalId _ | .confirmSend _ proposalId _
  | .startSendJob _ proposalId _ =>
    s.activeWallet.map fun active => (active.wallet, .proposal proposalId)
  | .finalizeSigning _ requestId _ =>
    s.activeWallet.map fun active => (active.wallet, .request requestId)
  | .verifyBackup _ w challengeId _ => some (w, .challenge challengeId)
  | _ => none

def AddsTask (s₀ : World) (v : WalletId) (s : World) : Prop :=
  ∃ task : Task, s.tasks = s₀.tasks ++ [task] ∧ task.walletId = v

/-- `R` relates that wallet, the result and the world after it. -/
abbrev Takes {α : Type} (s₀ : World) (time : ℕ) (c : Credential) (op : Op α)
    (R : WalletId → α → World → Prop) : Prop :=
  ⦃fun s => ⌜s = s₀⌝⦄ op
    ⦃post⟨fun a s => ⌜∃ active ∈ s₀.activeWallet, s₀.Holds active.wallet time c ∧
      R active.wallet a s⌝, fun _ _ => ⌜True⌝⟩⦄

theorem validateProposalForWallet_stored (time proposalId : ℕ) (v : WalletId) (s₀ : World) :
    ⦃fun s => ⌜s = s₀⌝⦄ validateProposalForWallet time proposalId v
    ⦃post⟨fun r _ => ⌜s₀.proposals proposalId = some r ∧ r.walletId = v⌝, fun _ _ => ⌜True⌝⟩⦄ := by
  mvcgen [validateProposalForWallet, removeProposal, ipcErr]
  all_goals grind

theorem takeProposalForExecution_stored (time proposalId : ℕ) (v : WalletId) (s₀ : World) :
    ⦃fun s => ⌜s = s₀⌝⦄ takeProposalForExecution time proposalId v
    ⦃post⟨fun taken _ => ⌜s₀.proposals proposalId = some taken.record ∧
      taken.record.walletId = v⌝, fun _ _ => ⌜True⌝⟩⦄ := by
  mvcgen [takeProposalForExecution, validateProposalForWallet_stored, removeProposal]
  all_goals grind

theorem prepareConfirmSend_takes (env : Env) (proposalId token : ℕ) (s₀ : World) :
    Takes s₀ env.now (.proposal proposalId) (prepareConfirmSend env proposalId token)
      fun v r s => r.1.walletId = v ∧ s.tasks = s₀.tasks := by
  mvcgen [prepareConfirmSend, validateProposalForWallet, removeProposal, consumeReauthToken, ipcErr]
  all_goals grind [World.Holds, HoldsDek]

theorem takeConfirmSendTask_adds (env : Env) (proposalId : ℕ) (ctx : TxOperationContext)
    (s₀ : World) :
    ⦃fun s => ⌜s.tasks = s₀.tasks⌝⦄ takeConfirmSendTask env proposalId ctx
    ⦃post⟨fun _ s => ⌜AddsTask s₀ ctx.walletId s⌝, fun _ _ => ⌜True⌝⟩⦄ := by
  mvcgen [takeConfirmSendTask, takeProposalForExecution, validateProposalForWallet, removeProposal,
    spawn, ipcErr]
  all_goals grind [AddsTask]

theorem prepareConfirmSendTask_takes (env : Env) (proposalId token : ℕ) (s₀ : World) :
    Takes s₀ env.now (.proposal proposalId) (prepareConfirmSendTask env proposalId token)
      fun v _ => AddsTask s₀ v := by
  mvcgen [prepareConfirmSendTask, prepareConfirmSend_takes, takeConfirmSendTask_adds]
  all_goals grind [AddsTask]

theorem startSendJob_takes (env : Env) (proposalId token : ℕ) (s₀ : World) :
    Takes s₀ env.now (.proposal proposalId) (startSendJob env proposalId token)
      fun _ _ _ => True := by
  mvcgen [startSendJob, validateProposalForWallet, removeProposal, consumeReauthToken, spawn,
    ipcErr]
  all_goals grind [World.Holds]

theorem consumeReauthToken_frame (env : Env) (v : WalletId) (token : ℕ) (purpose : ReauthPurpose)
    (s₀ : World) :
    ⦃fun s => ⌜s = s₀⌝⦄ consumeReauthToken env v token purpose
    ⦃post⟨fun _ s => ⌜s.activeWallet = s₀.activeWallet ∧ s.tasks = s₀.tasks ∧
      s.pendingSigningRequests = s₀.pendingSigningRequests⌝, fun _ _ => ⌜True⌝⟩⦄ := by
  mvcgen [consumeReauthToken, ipcErr]
  all_goals grind

theorem prepareFinalizeSigningTask_takes (env : Env) (requestId token : ℕ) (s₀ : World) :
    Takes s₀ env.takenAt (.request requestId) (prepareFinalizeSigningTask env requestId token)
      fun v _ => AddsTask s₀ v := by
  mvcgen [prepareFinalizeSigningTask, consumeReauthToken_frame, setSigningRequest, spawn, ipcErr]
  all_goals grind [World.Holds, AddsTask, HoldsDek]

theorem prepareSend_active (env : Env) (a : AccountId) (proposalId : ℕ) (s₀ : World) :
    ⦃fun s => ⌜s = s₀⌝⦄ prepareSend env a proposalId
    ⦃post⟨fun _ s => ⌜s.tasks = s₀.tasks ∧ s.activeWallet = s₀.activeWallet⌝,
      fun _ _ => ⌜True⌝⟩⦄ := by
  mvcgen [prepareSend, insertProposal, ipcErr]
  all_goals grind

theorem startSwap_adds (env : Env) (a : AccountId) (proposalId token : ℕ) (s₀ : World) :
    ⦃fun s => ⌜s = s₀⌝⦄ startSwap env a proposalId token
    ⦃post⟨fun _ s => ⌜∃ active ∈ s₀.activeWallet, AddsTask s₀ active.wallet s⌝,
      fun _ _ => ⌜True⌝⟩⦄ := by
  mvcgen [startSwap, prepareSend_active, prepareConfirmSendTask_takes]
  all_goals grind [AddsTask]

theorem isOk_discard (op : Op α) (s : World) :
    ((discard op : Op Unit).run s).1.isOk = (op.run s).1.isOk := by
  unfold discard
  simp only [ExceptT.run, Functor.mapConst, Function.comp, ExceptT.map, ExceptT.mk, bind,
    StateT.bind]
  rcases op s with ⟨r, t⟩
  cases r <;> rfl

theorem exists_of_isOk {r : Except IpcError α} (h : r.isOk = true) : ∃ a, r = .ok a := by
  cases r with
  | ok a => exact ⟨a, rfl⟩
  | error e => cases h

theorem Takes.holds {time : ℕ} {R : WalletId → α → World → Prop} (h : Takes s time c op R)
    (hok : (op.run s).1.isOk = true) {active : ActiveWallet}
    (hactive : s.activeWallet = some active) :
    s.Holds active.wallet time c := by
  obtain ⟨a, ha⟩ := exists_of_isOk hok
  obtain ⟨active', hactive', hholds, -⟩ := (run_of_triple h rfl).1 a ha
  obtain rfl : active = active' := Option.some.inj (hactive.symm.trans hactive')
  exact hholds

/-- **A call accepts only what the tables hold.** -/
theorem holds_of_presents {call : Call} (hpresents : call.presents s = some (w, c))
    (hok : (call.op.run s).1.isOk = true) (htimes : ∀ time ∈ callTimes call, now ≤ time) :
    s.Holds w now c := by
  cases call with
  | validateProposalForWallet time proposalId v =>
    obtain ⟨rfl, rfl⟩ : v = w ∧ .proposal proposalId = c := by simpa [Call.presents] using hpresents
    obtain ⟨r, hr⟩ := exists_of_isOk (isOk_discard _ s ▸ hok)
    obtain ⟨hstored, hw⟩ :=
      (run_of_triple (validateProposalForWallet_stored time proposalId v s) rfl).1 r hr
    exact ⟨r, hstored, hw⟩
  | takeProposalForExecution time proposalId v =>
    obtain ⟨rfl, rfl⟩ : v = w ∧ .proposal proposalId = c := by simpa [Call.presents] using hpresents
    obtain ⟨taken, htaken⟩ := exists_of_isOk (isOk_discard _ s ▸ hok)
    obtain ⟨hstored, hw⟩ :=
      (run_of_triple (takeProposalForExecution_stored time proposalId v s) rfl).1 taken htaken
    exact ⟨taken.record, hstored, hw⟩
  | prepareConfirmSend env proposalId token =>
    obtain ⟨active, hactive, hc⟩ := Option.map_eq_some_iff.mp hpresents
    obtain ⟨rfl, rfl⟩ := Prod.mk.inj hc
    exact (prepareConfirmSend_takes env proposalId token s).holds (isOk_discard _ s ▸ hok) hactive
  | confirmSend env proposalId token =>
    obtain ⟨active, hactive, hc⟩ := Option.map_eq_some_iff.mp hpresents
    obtain ⟨rfl, rfl⟩ := Prod.mk.inj hc
    exact (prepareConfirmSendTask_takes env proposalId token s).holds hok hactive
  | startSendJob env proposalId token =>
    obtain ⟨active, hactive, hc⟩ := Option.map_eq_some_iff.mp hpresents
    obtain ⟨rfl, rfl⟩ := Prod.mk.inj hc
    exact (startSendJob_takes env proposalId token s).holds hok hactive
  | finalizeSigning env requestId token =>
    obtain ⟨active, hactive, hc⟩ := Option.map_eq_some_iff.mp hpresents
    obtain ⟨rfl, rfl⟩ := Prod.mk.inj hc
    have hholds := (prepareFinalizeSigningTask_takes env requestId token s).holds hok hactive
    exact hholds.mono (htimes env.takenAt (by simp [callTimes]))
  | verifyBackup env v challengeId answers =>
    obtain ⟨rfl, rfl⟩ : v = w ∧ .challenge challengeId = c := by
      simpa [Call.presents] using hpresents
    obtain ⟨a, ha⟩ := exists_of_isOk hok
    obtain ⟨state, -, hstate, hid, -⟩ :=
      (run_of_triple (verifyBackup_view v env challengeId answers s) rfl).1 a ha
    exact ⟨state, hstate, hid⟩
  | _ => cases hpresents

def UsesUp (s : World) (call : Call) (w : WalletId) : Credential → Prop
  | .token t => (∃ r ∈ s.tokens t, r.walletId = w ∧ r.used = false) ∧
      ∃ r ∈ (call.op.exec s).tokens t, r.used = true
  | _ => False

instance (s : World) (call : Call) (w : WalletId) : ∀ c, Decidable (UsesUp s call w c)
  | .token _ => inferInstanceAs (Decidable (_ ∧ _))
  | .request _ => isFalse id
  | .proposal _ => isFalse id
  | .challenge _ => isFalse id

/-- **A token is used up only if it has not expired.** -/
theorem holds_of_usesUp {call : Call} (h : UsesUp s call w c)
    (htimes : ∀ time ∈ callTimes call, now ≤ time) : s.Holds w now c := by
  cases c with
  | token t =>
    obtain ⟨⟨r, hr, hw, hunused⟩, r', hr', hused⟩ := h
    refine ⟨r, hr, hw, hunused, ?_⟩
    have hdiffer : (call.op.exec s).tokens t ≠ s.tokens t := by
      intro hsame
      rw [hsame, hr] at hr'
      simp_all
    cases op_access s call with
    | activate hsame => exact absurd (congrFun hsame t) hdiffer
    | issue v purpose token time _ hk =>
      have htokens : (call.op.exec s).tokens = Function.update s.tokens token
        (some ⟨v, purpose, time + 120000, false⟩) := congrArg Access.tokens hk
      by_cases htoken : t = token
      · rw [htokens, htoken, Function.update_self, Option.mem_def, Option.some.injEq] at hr'
        rw [← hr'] at hused
        cases hused
      · rw [htokens, Function.update_of_ne htoken] at hdiffer
        exact absurd rfl hdiffer
    | spend time token purpose v htime hspent =>
      obtain ⟨record, hrecord, _, _, _, hexpires, hk⟩ := hspent
      have htokens : (call.op.exec s).tokens = Function.update s.tokens token
        (some { record with used := true }) := congrArg Access.tokens hk
      by_cases htoken : t = token
      · subst htoken
        obtain rfl : r = record := Option.some.inj (hr.symm.trans hrecord)
        exact (htimes time htime).trans hexpires
      · rw [htokens, Function.update_of_ne htoken] at hdiffer
        exact absurd rfl hdiffer
  | proposal p | request q | challenge id => exact h.elim

/-! ## Runs -/

/-- For its new task to take to the gate. -/
def handedOver (s : World) : Call → List (ℕ × Credential)
  | .confirmSend env proposalId token =>
    if ((prepareConfirmSendTask env proposalId token).run s).1.isOk = true then
      [(s.tasks.length, .proposal proposalId)]
    else []
  | .startSwap env a proposalId token =>
    if ((startSwap env a proposalId token).run s).1.isOk = true then
      [(s.tasks.length, .proposal proposalId)]
    else []
  | .finalizeSigning env requestId token =>
    if ((prepareFinalizeSigningTask env requestId token).run s).1.isOk = true then
      [(s.tasks.length, .request requestId)]
    else []
  | _ => []

def AtGate (s : World) (i : ℕ) (w : WalletId) : Prop :=
  ∃ task ∈ s.tasks[i]?, task.walletId = w ∧ task.pc = .gate

instance (s : World) (i : ℕ) (w : WalletId) : Decidable (AtGate s i w) :=
  inferInstanceAs (Decidable (∃ task ∈ s.tasks[i]?, _))

/-- In their order. -/
def actionTimes : Action → List ℕ
  | .call call => callTimes call
  | .task _ (.clock now) => [now]
  | _ => []

def logsOut (w : WalletId) (s : World) : Call → Bool
  | .logoutWallet v => v == w && ((logoutWallet v).run s).1.isOk
  | _ => false

/-- `since`: what was created for one wallet since it was last logged out. -/
structure Visit where
  world : World
  clock : ℕ
  hands : List (ℕ × Credential)
  since : List Credential

def visitStep (w : WalletId) (s : Visit) (a : Action) : Option Visit :=
  match a with
  | .call call => some {
      world := call.op.exec s.world
      clock := (actionTimes a).foldr max s.clock
      hands := s.hands ++ handedOver s.world call
      since := if logsOut w s.world call then [] else s.since ++ created w s.world call }
  | .task i answer => (taskStep s.world i answer).map fun t =>
      { s with world := t, clock := (actionTimes a).foldr max s.clock }
  | .restart => some { s with world := s.world.restart, hands := [] }

/-- **Runs with a record of what was created for `w`.** -/
def visits (w : WalletId) : System Visit Action where
  init s := s = ⟨World.fresh, 0, [], []⟩
  step := visitStep w

/-- The clock does not go back. -/
def OnTime (s : Visit) (a : Action) : Prop := (s.clock :: actionTimes a).Pairwise (· ≤ ·)

instance (s : Visit) (a : Action) : Decidable (OnTime s a) :=
  inferInstanceAs (Decidable (List.Pairwise _ _))

/-- A call given it succeeds or uses it up, or the task that carries it passes its gate. -/
def Accepts (s : Visit) (w : WalletId) : Action → Credential → Prop
  | .call call, c =>
    (call.presents s.world = some (w, c) ∧ (call.op.run s.world).1.isOk = true) ∨
      UsesUp s.world call w c
  | .task i answer, c => (i, c) ∈ s.hands ∧ ∃ task ∈ s.world.tasks[i]?,
      task.walletId = w ∧ task.pc = .gate ∧ passesGate s.world.appDb task answer = true
  | .restart, _ => False

instance (s : Visit) (w : WalletId) : ∀ a c, Decidable (Accepts s w a c)
  | .call _, _ => inferInstanceAs (Decidable (_ ∨ _))
  | .task _ _, _ => inferInstanceAs (Decidable (_ ∧ _))
  | .restart, _ => isFalse id

/-- A token or signing request that is still good, or one that a task carries. -/
def LeftBehind (s : Visit) (w : WalletId) (c : Credential) : Prop :=
  (c.outlasts = true ∧ s.world.Holds w s.clock c) ∨ ∃ hand ∈ s.hands, hand.2 = c ∧
    AtGate s.world hand.1 w

instance (s : Visit) (w : WalletId) (c : Credential) : Decidable (LeftBehind s w c) :=
  inferInstanceAs (Decidable (_ ∨ _))

def LeavesNothing (w : WalletId) (s : Visit) : Action → Prop
  | .call call => logsOut w s.world call = true → ∀ c ∈ s.since, ¬ LeftBehind s w c
  | _ => True

instance (w : WalletId) (s : Visit) : ∀ a, Decidable (LeavesNothing w s a)
  | .call _ => inferInstanceAs (Decidable (_ → ∀ c ∈ s.since, _))
  | .task _ _ => isTrue trivial
  | .restart => isTrue trivial

/-! ## The tables of a run -/

/-- What may still be accepted was created since the last logout. -/
structure Visit.Ok (w : WalletId) (s : Visit) : Prop where
  tables : ∀ c, s.world.Holds w s.clock c → c ∈ s.since
  hands : ∀ i c, (i, c) ∈ s.hands →
    i < s.world.tasks.length ∧ (AtGate s.world i w → c ∈ s.since)

theorem OnTime.le {v : Visit} {a : Action} (h : OnTime v a) : ∀ time ∈ actionTimes a,
    v.clock ≤ time :=
  (List.pairwise_cons.mp h).1

theorem AtGate.of_tasks (h : AtGate t i w) (hi : i < s.tasks.length)
    (htasks : s.tasks <+: t.tasks) : AtGate s i w := by
  obtain ⟨task, htask, hgate⟩ := h
  obtain ⟨rest, hrest⟩ := htasks
  rw [← hrest, List.getElem?_append_left hi] at htask
  exact ⟨task, htask, hgate⟩

theorem wallet_of_addsTask {v : WalletId} (h : AddsTask s v t) (hgate : AtGate t s.tasks.length w) :
    v = w := by
  obtain ⟨task, htasks, rfl⟩ := h
  obtain ⟨task', htask', hw, -⟩ := hgate
  rw [htasks, List.getElem?_concat_length, Option.mem_def, Option.some.injEq] at htask'
  exact htask' ▸ hw

theorem lt_of_addsTask {v : WalletId} (h : AddsTask s v t) : s.tasks.length < t.tasks.length := by
  obtain ⟨task, htasks, -⟩ := h
  simp [htasks]

/-- **What a task is given was in the tables**, or was created by the same call. -/
theorem handedOver_holds {call : Call} (h : (i, c) ∈ handedOver s call)
    (htimes : ∀ time ∈ callTimes call, now ≤ time) :
    i < (call.op.exec s).tasks.length ∧
      (AtGate (call.op.exec s) i w → s.Holds w now c ∨ c ∈ created w s call) := by
  cases call with
  | confirmSend env proposalId token =>
    simp only [handedOver] at h
    split_ifs at h with hok
    · obtain ⟨rfl, rfl⟩ : i = s.tasks.length ∧ c = .proposal proposalId := by simpa using h
      obtain ⟨a, ha⟩ := exists_of_isOk hok
      obtain ⟨active, -, hholds, hadds⟩ :=
        (run_of_triple (prepareConfirmSendTask_takes env proposalId token s) rfl).1 a ha
      refine ⟨lt_of_addsTask hadds, fun hgate => .inl ?_⟩
      obtain rfl := wallet_of_addsTask hadds hgate
      exact hholds
    · cases h
  | startSwap env a proposalId token =>
    simp only [handedOver] at h
    split_ifs at h with hok
    · obtain ⟨rfl, rfl⟩ : i = s.tasks.length ∧ c = .proposal proposalId := by simpa using h
      obtain ⟨u, hu⟩ := exists_of_isOk hok
      obtain ⟨active, hactive, hadds⟩ :=
        (run_of_triple (startSwap_adds env a proposalId token s) rfl).1 u hu
      refine ⟨lt_of_addsTask hadds, fun hgate => .inr ?_⟩
      obtain rfl := wallet_of_addsTask hadds hgate
      -- the swap has prepared the send it confirms
      have hswap : outcome (prepareSend env a proposalId >>= fun _ =>
          prepareConfirmSendTask env proposalId token) s =
        (.ok u, (startSwap env a proposalId token).exec s) := Prod.ext hu rfl
      obtain ⟨_, _, hprepare, -⟩ := ok_of_bind_ok hswap
      have hisOk : ((prepareSend env a proposalId).run s).1.isOk = true := by
        rw [show ((prepareSend env a proposalId).run s).1 = _ from congrArg Prod.fst hprepare]
        rfl
      have hisActive : s.isActive active.wallet = true := by
        rw [World.isActive, show s.activeWallet = some active from hactive]
        simp
      rw [created, if_pos ⟨hisActive, hisOk⟩]
      exact List.mem_singleton_self _
    · cases h
  | finalizeSigning env requestId token =>
    simp only [handedOver] at h
    split_ifs at h with hok
    · obtain ⟨rfl, rfl⟩ : i = s.tasks.length ∧ c = .request requestId := by simpa using h
      obtain ⟨a, ha⟩ := exists_of_isOk hok
      obtain ⟨active, -, hholds, hadds⟩ :=
        (run_of_triple (prepareFinalizeSigningTask_takes env requestId token s) rfl).1 a ha
      refine ⟨lt_of_addsTask hadds, fun hgate => .inl ?_⟩
      obtain rfl := wallet_of_addsTask hadds hgate
      exact hholds.mono (htimes env.takenAt (by simp [callTimes]))
    · cases h
  | _ => cases h

theorem Task.afterGate_ne_gate (task : Task) : task.afterGate ≠ .gate := by
  unfold Task.afterGate
  split_ifs <;> simp

theorem Task.afterSends_ne_gate (task : Task) : task.afterSends ≠ .gate := by
  unfold Task.afterSends
  split_ifs <;> simp

theorem atGate_of_taskStep {j : ℕ} (h : taskStep s i answer = some t) (hgate : AtGate t j w) :
    AtGate s j w := by
  obtain ⟨task, htask, hmove⟩ := taskStep_cases h
  have hset (pc : TaskPc) (hpc : pc ≠ .gate) (hgate : AtGate (setTask s i task pc) j w) :
      AtGate s j w := by
    obtain ⟨task', htask', hw, hat⟩ := hgate
    by_cases hij : i = j
    · subst hij
      rw [setTask, List.getElem?_set_self (List.getElem?_eq_some_iff.mp htask).1, Option.mem_def,
        Option.some.injEq] at htask'
      rw [← htask'] at hat
      exact absurd hat hpc
    · rw [setTask, List.getElem?_set_ne hij] at htask'
      exact ⟨task', htask', hw, hat⟩
  cases hmove with
  | finish => exact hset .finished (by simp) hgate
  | pass answer hpc hpass => exact hset _ (Task.afterGate_ne_gate task) hgate
  | build built hpc => exact hset (.send built) (by simp) hgate
  | send left rest hpc => exact hset (.send rest) (by simp) hgate
  | goOn hpc => exact hset _ (Task.afterSends_ne_gate task) hgate

theorem length_of_taskStep (h : taskStep s i answer = some t) :
    t.tasks.length = s.tasks.length := by
  obtain ⟨task, htask, hmove⟩ := taskStep_cases h
  cases hmove <;> exact List.length_set

theorem holds_of_taskStep (h : taskStep s i answer = some t) (hc : t.Holds w now c) :
    s.Holds w now c := by
  obtain ⟨task, htask, hmove⟩ := taskStep_cases h
  cases hmove <;> cases c <;> exact hc

namespace Visit.Ok

variable {u v : Visit}

theorem init : Visit.Ok w ⟨World.fresh, 0, [], []⟩ where
  tables c hc := by
    cases c <;> obtain ⟨_, hnone, _⟩ := hc <;> cases hnone
  hands := nofun

theorem bounded (hv : v.Ok w) :
    Bounded w v.clock (fun c => c ∈ v.since ∧ v.world.Holds w v.clock c) v.world.tasks v.world :=
  bounded_of_holds (fun c hc => ⟨hv.tables c hc, hc⟩) List.prefix_rfl

theorem call (hv : v.Ok w) {call : Call} (htimes : OnTime v (.call call)) (clock : ℕ)
    (hclock : v.clock ≤ clock) :
    Visit.Ok w ⟨call.op.exec v.world, clock, v.hands ++ handedOver v.world call,
      v.since ++ created w v.world call⟩ := by
  have hbounded := op_bounded hv.bounded call
  refine ⟨fun c hc => ?_, fun i c hmem => ?_⟩
  · exact List.mem_append.mpr ((hbounded.of_holds (hc.mono hclock)).imp_left And.left)
  · rcases List.mem_append.mp hmem with hmem | hmem
    · obtain ⟨hi, hgate⟩ := hv.hands i c hmem
      exact ⟨hi.trans_le hbounded.tasks.length_le, fun hat =>
        List.mem_append_left _ (hgate (hat.of_tasks hi hbounded.tasks))⟩
    · obtain ⟨hi, hgate⟩ := handedOver_holds hmem htimes.le
      exact ⟨hi, fun hat => List.mem_append.mpr ((hgate hat).imp_left (hv.tables c))⟩

/-- **A logout of `w` that leaves nothing behind.** -/
theorem logout (hv : v.Ok w) (hok : ((logoutWallet w).run v.world).1.isOk = true)
    (hleft : ∀ c ∈ v.since, ¬ LeftBehind v w c) (clock : ℕ) (hclock : v.clock ≤ clock) :
    Visit.Ok w ⟨(logoutWallet w).exec v.world, clock, v.hands, []⟩ := by
  obtain ⟨a, ha⟩ := exists_of_isOk hok
  have hbounded : Bounded w v.clock _ v.world.tasks ((logoutWallet w).exec v.world) :=
    (run_of_triple (logoutWallet_outlasts w v.clock _ _) hv.bounded).1 a ha
  refine ⟨fun c hc => ?_, fun i c hmem => ?_⟩
  · obtain ⟨⟨hsince, hholds⟩, houtlasts⟩ := hbounded.of_holds (hc.mono hclock)
    exact absurd (.inl ⟨houtlasts, hholds⟩) (hleft c hsince)
  · obtain ⟨hi, hgate⟩ := hv.hands i c hmem
    refine ⟨hi.trans_le hbounded.tasks.length_le, fun hat => ?_⟩
    have hat := hat.of_tasks hi hbounded.tasks
    exact absurd (.inr ⟨(i, c), hmem, rfl, hat⟩) (hleft c (hgate hat))

theorem step {a : Action} (hv : v.Ok w) (htimes : OnTime v a) (hleft : LeavesNothing w v a)
    (h : visitStep w v a = some u) : u.Ok w := by
  cases a with
  | call call =>
    obtain rfl := Option.some.inj h
    by_cases hout : logsOut w v.world call = true
    · cases call with
      | logoutWallet v' =>
        obtain ⟨rfl, hok⟩ : v' = w ∧ ((logoutWallet v').run v.world).1.isOk = true := by
          simpa [logsOut] using hout
        simp only [hout, if_true, handedOver, List.append_nil]
        exact hv.logout hok (hleft hout) _ (le_foldr_max _ _).1
      | _ => cases hout
    · simp only [hout]
      exact hv.call htimes _ (le_foldr_max _ _).1
  | task i answer =>
    obtain ⟨t, ht, rfl⟩ := Option.map_eq_some_iff.mp h
    refine ⟨fun c hc => ?_, fun j c hmem => ?_⟩
    · exact hv.tables c (holds_of_taskStep ht (hc.mono (le_foldr_max _ _).1))
    · obtain ⟨hj, hgate⟩ := hv.hands j c hmem
      exact ⟨(length_of_taskStep ht).symm ▸ hj, fun hat => hgate (atGate_of_taskStep ht hat)⟩
  | restart =>
    obtain rfl := Option.some.inj h
    refine ⟨fun c hc => ?_, nofun⟩
    cases c <;> obtain ⟨_, hnone, _⟩ := hc <;> cases hnone

end Visit.Ok

/-- **Nothing created before a logout is accepted after it**, if a logout finds every token and
signing request of `w` used or expired and no task on its way to the gate. -/
theorem logout_revokes (w : WalletId) (s : Visit)
    (h : Reach (visits w) (fun s a => OnTime s a ∧ LeavesNothing w s a) s) :
    ∀ a c, OnTime s a → Accepts s w a c → c ∈ s.since := by
  have hs : s.Ok w := h.invariant (I := Visit.Ok w) (by rintro s rfl; exact .init)
    fun _ _ _ hs hguard hstep => hs.step hguard.1 hguard.2 hstep
  intro a c htimes haccepts
  cases a with
  | call call =>
    rcases haccepts with ⟨hpresents, hok⟩ | huses
    · exact hs.tables c (holds_of_presents hpresents hok htimes.le)
    · exact hs.tables c (holds_of_usesUp huses htimes.le)
  | task i answer =>
    obtain ⟨hmem, task, htask, hw, hgate, -⟩ := haccepts
    exact (hs.hands i c hmem).2 ⟨task, htask, hw, hgate⟩
  | restart => exact haccepts.elim

/-- A send passes its gate before a logout; a new token follows. -/
def sendThenLogout : List Action :=
  [.call (.restoreWallet .works .works .works 0 (List.replicate 24 "abandon") true),
    .call (.prepareSend (.clockAt 1000) 0 5), .call (.reauthWallet (.clockAt 2000) 0 .spend 7),
    .call (.confirmSend (.clockAt 3000) 5 7), .task 0 (.clock 3000), .call (.logoutWallet 0),
    .call (.unlockWallet .works 0 true), .call (.reauthWallet (.clockAt 4000) 0 .spend 8)]

theorem logout_revokes_sent : ∃ s,
    (Reach (visits 0) (fun s a => OnTime s a ∧ LeavesNothing 0 s a) s ∧ s.since = [.token 8] ∧
    Accepts s 0 (.call (.consumeReauthToken (.clockAt 5000) 0 8 .spend)) (.token 8)) ∧
    ∀ a c, OnTime s a → Accepts s 0 a c → c = .token 8 := by
  obtain ⟨s, hs, hsince, haccepts⟩ := exec_reach (S := visits 0)
    (G := fun s a => OnTime s a ∧ LeavesNothing 0 s a)
    (p := fun s => s.since = [.token 8] ∧
      Accepts s 0 (.call (.consumeReauthToken (.clockAt 5000) 0 8 .spend)) (.token 8))
    sendThenLogout rfl (by decide +kernel) (by decide +kernel)
  refine ⟨s, ⟨hs, hsince, haccepts⟩, fun a c htimes hc => ?_⟩
  have hmem := logout_revokes 0 s hs a c htimes hc
  rwa [hsince, List.mem_singleton] at hmem

/-- A token and a signing request before a logout, a new token after it. -/
def logoutThenSign : List Action :=
  [.call (.restoreWallet .works .works .works 0 (List.replicate 24 "abandon") true),
    .call (.reauthWallet (.clockAt 1000) 0 .viewSeedPhrase 7),
    .call (.buildSigningRequest (.clockAt 2000) 5), .call (.logoutWallet 0),
    .call (.unlockWallet .works 0 true), .call (.reauthWallet (.clockAt 3000) 0 .spend 8)]

/-- The old token and the old signing request are taken. -/
theorem logout_keeps_tokens_and_requests : ∃ s, Reach (visits 0) OnTime s ∧
    s.since = [.token 8] ∧ (∃ a, OnTime s a ∧ Accepts s 0 a (.token 7)) ∧
    ∃ a, OnTime s a ∧ Accepts s 0 a (.request 5) := by
  obtain ⟨s, hs, hsince, htoken, hrequest⟩ := exec_reach (S := visits 0) (G := OnTime)
    (p := fun s => s.since = [.token 8] ∧
      (OnTime s (.call (.viewSeedPhrase (.clockAt 4000) 0 7)) ∧
        Accepts s 0 (.call (.viewSeedPhrase (.clockAt 4000) 0 7)) (.token 7)) ∧
      OnTime s (.call (.finalizeSigning (.clockAt 4000) 5 8)) ∧
        Accepts s 0 (.call (.finalizeSigning (.clockAt 4000) 5 8)) (.request 5))
    logoutThenSign rfl (by decide +kernel) (by decide +kernel)
  exact ⟨s, hs, hsince, ⟨_, htoken⟩, _, hrequest⟩

end ZbagWallet
