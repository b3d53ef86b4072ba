import Zbag.Wallet.Ordinary

/-!
# Wallet — a backup is complete only after a right answer

`create_wallet` asks for a backup. A challenge names four of the 24 words of the seed phrase;
`verify_backup` clears the flag if the answers match, the challenge is the one in force, it has not
expired and was not answered wrong five times.
-/

set_option mvcgen.warning false

namespace ZbagWallet

open Std.Do Transition

/-! ## Positions -/

/-- The first four of a shuffled pool, sorted. -/
def challengeIndices (pool : List ℕ) : List ℕ := (pool.take 4).insertionSort (· ≤ ·)

/-- Four different positions in a phrase of 24 words. -/
structure Positions (indices : List ℕ) : Prop where
  length : indices.length = 4
  nodup : indices.Nodup
  bounds : ∀ i ∈ indices, 1 ≤ i ∧ i ≤ 24

theorem positions_challengeIndices {pool : List ℕ} (h : pool.Perm (List.range' 1 24)) :
    Positions (challengeIndices pool) := by
  have hsort : (challengeIndices pool).Perm (pool.take 4) := List.perm_insertionSort _ _
  have hlength : pool.length = 24 := h.length_eq
  have hnodup : pool.Nodup := h.nodup_iff.mpr List.nodup_range'
  refine ⟨?_, hsort.nodup_iff.mpr (hnodup.sublist (List.take_sublist 4 pool)), fun i hi => ?_⟩
  · rw [hsort.length_eq, List.length_take, hlength]
    rfl
  · have hmem := h.mem_iff.mp (List.mem_of_mem_take (hsort.mem_iff.mp hi))
    rw [List.mem_range'_1] at hmem
    omega

/-! ## Histories -/

structure BackupChallenge where
  challengeId : ℕ
  indices : List ℕ
  expiresAt : ℕ
  deriving DecidableEq, Repr

/-- One call of `verify_backup`, with the mnemonic stored at that time. -/
structure Attempt where
  challengeId : ℕ
  answers : ℕ → Option String
  now : ℕ
  stored : Option (List String)
  refused : Bool

inductive BackupEvent
  | created (w : WalletId)
  | issued (w : WalletId) (challenge : BackupChallenge)
  | answered (w : WalletId) (attempt : Attempt)

/-- The wallet row can be inserted. -/
def inserts (env : Env) (w : WalletId) (s : World) : Bool :=
  (s.appDb.wallets w).isNone && env.appDb

def creates (env backupEnv accountEnv : Env) (w : WalletId) (secrets : Bool) (s : World) : Bool :=
  (s.appDb.wallets w).isNone && env.appDb && backupEnv.appDb && secrets && accountEnv.appDb

/-- With any other error the answer was not looked at. -/
def refusesAnswer : Except IpcError Unit → Bool
  | .error e => e.code == .backupChallengeInvalid || e.code == .backupChallengeTooManyAttempts
  | .ok _ => false

/-- newest first -/
def backupEvents (s : World) : Action → List BackupEvent
  | .call (.createWallet env backupEnv accountEnv w _ secrets challengeId indices) =>
    -- a wallet whose creation fails half-way stays in the database
    (if creates env backupEnv accountEnv w secrets s then
      [.issued w ⟨challengeId, indices, accountEnv.now + 600000⟩] else []) ++
    if inserts env w s then [.created w] else []
  | .call (.getBackupChallenge env w challengeId indices) =>
    if ((getBackupChallenge env w challengeId indices).run s).1.isOk then
      [.issued w ⟨challengeId, indices, env.now + 600000⟩] else []
  | .call (.verifyBackup env w challengeId answers) =>
    [.answered w ⟨challengeId, answers, env.now, s.mnemonics w,
      refusesAnswer ((verifyBackup env w challengeId answers).run s).1⟩]
  | _ => []

structure BackupRun where
  world : World
  history : List BackupEvent

def BackupRun.step (s : BackupRun) (a : Action) : Option BackupRun :=
  (ZbagWallet.step s.world a).map fun t => ⟨t, backupEvents s.world a ++ s.history⟩

/-- Runs from an empty database. -/
def backupSystem : System BackupRun Action where
  init s := s = ⟨World.fresh, []⟩
  step := BackupRun.step

def Shuffled (_ : BackupRun) : Action → Prop
  | .call (.createWallet _ _ _ _ _ _ _ indices)
  | .call (.getBackupChallenge _ _ _ indices) =>
    ∃ pool : List ℕ, pool.Perm (List.range' 1 24) ∧ indices = challengeIndices pool
  | _ => True

/-! ## Reading a history -/

def BackupEvent.wallet : BackupEvent → WalletId
  | .created w | .issued w _ | .answered w _ => w

def BackupEvent.issuedFor (w : WalletId) : BackupEvent → Option BackupChallenge
  | .issued w' challenge => if w' = w then some challenge else none
  | _ => none

def BackupEvent.wrongAnswer (w : WalletId) (challengeId : ℕ) : BackupEvent → Bool
  | .answered w' attempt => w' == w && attempt.challengeId == challengeId && attempt.refused
  | _ => false

def latestChallenge (w : WalletId) (history : List BackupEvent) : Option BackupChallenge :=
  history.findSome? (BackupEvent.issuedFor w)

/-- Since `w` was last issued a challenge. -/
def wrongAnswers (w : WalletId) (challengeId : ℕ) (history : List BackupEvent) : ℕ :=
  (history.takeWhile fun e => (e.issuedFor w).isNone).countP (BackupEvent.wrongAnswer w challengeId)

/-- After the creation, a right answer to the latest challenge: in time, before the fifth wrong one.
-/
def Verified (w : WalletId) (history : List BackupEvent) : Prop :=
  ∃ later attempt earlier challenge words,
    history = later ++ .answered w attempt :: earlier ∧ .created w ∈ earlier ∧
    latestChallenge w earlier = some challenge ∧ attempt.challengeId = challenge.challengeId ∧
    attempt.now ≤ challenge.expiresAt ∧ wrongAnswers w challenge.challengeId earlier < 5 ∧
    Positions challenge.indices ∧ attempt.stored = some words ∧
    ∀ i ∈ challenge.indices, wordMatches words attempt.answers i = true

variable {w : WalletId} {history : List BackupEvent}

theorem Verified.append (h : Verified w history) (events : List BackupEvent) :
    Verified w (events ++ history) := by
  obtain ⟨later, attempt, earlier, challenge, words, rfl, h⟩ := h
  exact ⟨events ++ later, attempt, earlier, challenge, words, by rw [List.append_assoc], h⟩

section Cons

variable {w : WalletId} {e : BackupEvent} {history : List BackupEvent}

theorem issuedFor_of_ne (h : e.wallet ≠ w) : e.issuedFor w = none := by
  cases e with
  | issued w' challenge => exact if_neg h
  | _ => rfl

theorem wrongAnswer_of_ne (h : e.wallet ≠ w) (challengeId : ℕ) :
    e.wrongAnswer w challengeId = false := by
  cases e with
  | answered w' attempt =>
    have hne : (w' == w) = false := beq_false_of_ne h
    simp [BackupEvent.wrongAnswer, hne]
  | _ => rfl

theorem latestChallenge_cons (h : e.issuedFor w = none) :
    latestChallenge w (e :: history) = latestChallenge w history := by
  rw [latestChallenge, List.findSome?_cons, h]
  rfl

theorem wrongAnswers_cons (h : e.issuedFor w = none) (challengeId : ℕ) :
    wrongAnswers w challengeId (e :: history) =
      wrongAnswers w challengeId history + if e.wrongAnswer w challengeId then 1 else 0 := by
  rw [wrongAnswers, List.takeWhile_cons_of_pos (by simp [h]), List.countP_cons]
  rfl

@[simp] theorem latestChallenge_issued (challenge : BackupChallenge) :
    latestChallenge w (.issued w challenge :: history) = some challenge := by
  simp [latestChallenge, BackupEvent.issuedFor]

@[simp] theorem wrongAnswers_issued (challenge : BackupChallenge) (challengeId : ℕ) :
    wrongAnswers w challengeId (.issued w challenge :: history) = 0 := by
  simp [wrongAnswers, BackupEvent.issuedFor]

end Cons

/-! ## What is stored -/

structure WalletBackup where
  row : Option WalletType
  required : Option Bool
  challenge : Option BackupChallengeState

def Backup.view (b : Backup) (w : WalletId) : WalletBackup :=
  ⟨b.wallets w, b.required w, b.challenges w⟩

section Views

variable (b : Backup) (w : WalletId)

theorem view_setRow (row : Option WalletType) :
    ({ b with wallets := Function.update b.wallets w row } : Backup).view =
      Function.update b.view w { b.view w with row } := by
  funext w'
  by_cases h : w' = w
  · subst h
    simp [Backup.view]
  · simp [Backup.view, h]

theorem view_setRequired (required : Option Bool) :
    ({ b with required := Function.update b.required w required } : Backup).view =
      Function.update b.view w { b.view w with required } := by
  funext w'
  by_cases h : w' = w
  · subst h
    simp [Backup.view]
  · simp [Backup.view, h]

theorem view_setChallenge (challenge : Option BackupChallengeState) :
    ({ b with challenges := Function.update b.challenges w challenge } : Backup).view =
      Function.update b.view w { b.view w with challenge } := by
  funext w'
  by_cases h : w' = w
  · subst h
    simp [Backup.view]
  · simp [Backup.view, h]

end Views

section Steps

variable (f : WalletId → WalletBackup) (w : WalletId)

/-- If not `ok`, it fails, changes nothing and refuses no answer. -/
abbrev Stores (op : Op Unit) (ok : Prop) (v : WalletBackup) : Prop :=
  ⦃fun s => ⌜s.backup.view = f⌝⦄ op ⦃post⟨
    fun _ s => ⌜ok ∧ s.backup.view = Function.update f w v⌝,
    fun e s => ⌜¬ ok ∧ refusesAnswer (.error e) = false ∧ s.backup.view = f⌝⟩⦄

theorem insertWallet_stores (env : Env) (walletType : WalletType) :
    Stores f w (insertWallet env w walletType) ((f w).row = none ∧ env.appDb = true)
      { f w with row := some walletType } := by
  mvcgen [insertWallet, ipcErr]
  case vc1 s hs _ hfail =>
    subst hs
    exact ⟨fun hok => hfail.elim (absurd hok.1) (by simp [hok.2]), rfl, rfl⟩
  case vc2 s hs _ hok _ =>
    subst hs
    simp only [ne_eq, not_or, not_not, Bool.not_eq_true', Bool.not_eq_false] at hok
    exact ⟨hok, view_setRow s.backup w _⟩

theorem setBackupRequired_stores (env : Env) (required : Bool) :
    Stores f w (setBackupRequired env w required) (env.appDb = true)
      { f w with required := some required } := by
  mvcgen [setBackupRequired, ipcErr]
  case vc1 hfail s hs => exact ⟨by simpa using hfail, rfl, hs⟩
  case vc2 hok s hs _ =>
    subst hs
    exact ⟨by simpa using hok, view_setRequired s.backup w _⟩

theorem storeSecrets_view (words : Option (List String)) (ok : Bool) :
    ⦃fun s => ⌜s.backup.view = f⌝⦄ storeSecrets w words ok ⦃post⟨
      fun _ s => ⌜ok = true ∧ s.backup.view = f⌝,
      fun _ s => ⌜ok = false ∧ s.backup.view = f⌝⟩⦄ := by
  mvcgen [storeSecrets, ipcErr]
  case vc1 hfail s hs => exact ⟨by simpa using hfail, hs⟩
  case vc2 hok s hs _ => exact ⟨by simpa using hok, hs⟩

theorem upsertAccount_view (env : Env) (a : AccountId) (accountType : AccountType) :
    ⦃fun s => ⌜s.backup.view = f⌝⦄ upsertAccount env w a accountType ⦃post⟨
      fun _ s => ⌜env.appDb = true ∧ s.backup.view = f⌝,
      fun _ s => ⌜env.appDb = false ∧ s.backup.view = f⌝⟩⦄ := by
  mvcgen [upsertAccount, ipcErr]
  case vc1 hfail s hs => exact ⟨by simpa using hfail, hs⟩
  case vc2 hok s hs _ => exact ⟨by simpa using hok, hs⟩

theorem activate_view (walletType : WalletType) :
    ⦃fun s => ⌜s.backup.view = f⌝⦄ activate w walletType ⦃⇓ _ s => ⌜s.backup.view = f⌝⦄ := by
  mvcgen [activate]

theorem clearProposalsForWallet_view :
    ⦃fun s => ⌜s.backup.view = f⌝⦄ clearProposalsForWallet w ⦃⇓ _ s => ⌜s.backup.view = f⌝⦄ := by
  mvcgen [clearProposalsForWallet]

theorem issueBackupChallenge_stores (env : Env) (challengeId : ℕ) (indices : List ℕ) :
    Stores f w (issueBackupChallenge env w challengeId indices) ((f w).row ≠ none)
      { f w with challenge := some ⟨challengeId, indices, env.now + 600000, 0⟩ } := by
  mvcgen [issueBackupChallenge, ipcErr]
  case vc1 s hs walletType hrow _ =>
    subst hs
    refine ⟨?_, view_setChallenge s.backup w _⟩
    simp [Backup.view, World.backup, hrow]
  case vc2 s hs row hnone hrow =>
    subst hs
    refine ⟨fun h => ?_, rfl, rfl⟩
    obtain ⟨walletType, hsome⟩ := Option.ne_none_iff_exists'.mp h
    exact hnone walletType (hrow.symm.trans hsome)

theorem removeBackupChallenge_view :
    ⦃fun s => ⌜s.backup.view = f⌝⦄ removeBackupChallenge w
    ⦃⇓ _ s => ⌜s.backup.view = Function.update f w { f w with challenge := none }⌝⦄ := by
  mvcgen [removeBackupChallenge]
  rename_i s hs _
  subst hs
  exact view_setChallenge s.backup w none

end Steps

/-! ## The stored challenges agree with the history -/

/-- It is the latest one issued and counts all wrong answers to it. -/
structure InForce (w : WalletId) (state : BackupChallengeState) (history : List BackupEvent) :
    Prop where
  latest : latestChallenge w history = some ⟨state.challengeId, state.indices, state.expiresAt⟩
  wrong : wrongAnswers w state.challengeId history ≤ state.failedAttempts
  positions : Positions state.indices

/-- What is stored about `w` agrees with the history. -/
structure Recorded (w : WalletId) (v : WalletBackup) (history : List BackupEvent) : Prop where
  required : v.required ≠ none → v.row ≠ none
  challenge : ∀ state ∈ v.challenge, v.row ≠ none ∧ InForce w state history
  created : .created w ∈ history → v.row ≠ none ∧ (v.required = some false → Verified w history)

namespace Recorded

variable {w : WalletId} {v v' : WalletBackup} {history : List BackupEvent}

theorem nil (h : v = ⟨none, none, none⟩) : Recorded w v [] := by
  subst h
  exact ⟨fun h => absurd rfl h, nofun, nofun⟩

theorem cons_of_ne {e : BackupEvent} (h : Recorded w v history) (hne : e.wallet ≠ w) :
    Recorded w v (e :: history) where
  required := h.required
  challenge state hstate := by
    obtain ⟨hrow, hforce⟩ := h.challenge state hstate
    have hnot := issuedFor_of_ne hne
    refine ⟨hrow, (latestChallenge_cons hnot).trans hforce.latest, ?_, hforce.positions⟩
    simpa [wrongAnswers_cons hnot, wrongAnswer_of_ne hne] using hforce.wrong
  created hmem := by
    have hold : .created w ∈ history := by
      rcases List.mem_cons.mp hmem with rfl | hold
      · exact absurd rfl hne
      · exact hold
    exact ⟨(h.created hold).1, fun hflag => ((h.created hold).2 hflag).append [e]⟩

theorem append_of_ne {events : List BackupEvent} (h : Recorded w v history)
    (hne : ∀ e ∈ events, e.wallet ≠ w) : Recorded w v (events ++ history) := by
  induction events with
  | nil => exact h
  | cons e events ih =>
    exact (ih fun e' he' => hne e' (List.mem_cons_of_mem e he')).cons_of_ne
      (hne e List.mem_cons_self)

theorem dropChallenge (h : Recorded w v history) :
    Recorded w { v with challenge := none } history :=
  ⟨h.required, nofun, h.created⟩

theorem insert (h : Recorded w v history) (hnew : v.row = none) (hrow : v'.row ≠ none)
    (hchallenge : v'.challenge = v.challenge) : Recorded w v' history where
  required _ := hrow
  challenge state hstate := absurd hnew (h.challenge state (hchallenge ▸ hstate)).1
  created hmem := absurd hnew (h.created hmem).1

theorem create (h : Recorded w v history) (hrow : v.row ≠ none) (hflag : v.required ≠ some false)
    (hnone : v.challenge = none) : Recorded w v (.created w :: history) where
  required := h.required
  challenge state hstate := by
    rw [hnone] at hstate
    cases hstate
  created _ := ⟨hrow, fun hfalse => absurd hfalse hflag⟩

theorem issue (h : Recorded w v history) (hrow : v.row ≠ none) (challenge : BackupChallenge)
    (hpositions : Positions challenge.indices) :
    Recorded w { v with
      challenge := some ⟨challenge.challengeId, challenge.indices, challenge.expiresAt, 0⟩ }
      (.issued w challenge :: history) where
  required := h.required
  challenge := by
    rintro _ ⟨⟩
    exact ⟨hrow, by simp, by simp, hpositions⟩
  created hmem := by
    have hold : .created w ∈ history := by simpa using hmem
    exact ⟨hrow, fun hflag => ((h.created hold).2 hflag).append [_]⟩

/-- A refused answer was to no stored challenge. -/
theorem answer (h : Recorded w v history) (attempt : Attempt)
    (hother : attempt.refused = true → ∀ state ∈ v.challenge,
      state.challengeId ≠ attempt.challengeId) : Recorded w v (.answered w attempt :: history) where
  required := h.required
  challenge state hstate := by
    obtain ⟨hrow, hforce⟩ := h.challenge state hstate
    refine ⟨hrow, (latestChallenge_cons rfl).trans hforce.latest, ?_, hforce.positions⟩
    have hright : (BackupEvent.answered w attempt).wrongAnswer w state.challengeId = false := by
      cases hrefused : attempt.refused with
      | false => simp [BackupEvent.wrongAnswer, hrefused]
      | true =>
        have hne : (attempt.challengeId == state.challengeId) = false :=
          beq_false_of_ne (hother hrefused state hstate).symm
        simp [BackupEvent.wrongAnswer, hne]
    simpa [wrongAnswers_cons (e := .answered w attempt) rfl, hright] using hforce.wrong
  created hmem := by
    have hold : .created w ∈ history := by simpa using hmem
    exact ⟨(h.created hold).1, fun hflag => ((h.created hold).2 hflag).append [_]⟩

theorem count (h : Recorded w v history) (attempt : Attempt) {state : BackupChallengeState}
    (hstate : v.challenge = some state) :
    Recorded w { v with
      challenge := some { state with failedAttempts := state.failedAttempts + 1 } }
      (.answered w attempt :: history) where
  required := h.required
  challenge := by
    rintro _ ⟨⟩
    obtain ⟨hrow, hforce⟩ := h.challenge state hstate
    refine ⟨hrow, (latestChallenge_cons rfl).trans hforce.latest, ?_, hforce.positions⟩
    have hwrong := hforce.wrong
    simp only [wrongAnswers_cons (e := .answered w attempt) rfl]
    split_ifs <;> omega
  created hmem := by
    have hold : .created w ∈ history := by simpa using hmem
    exact ⟨(h.created hold).1, fun hflag => ((h.created hold).2 hflag).append [_]⟩

theorem verify (h : Recorded w v history) {attempt : Attempt} {state : BackupChallengeState}
    {words : List String} (hstate : v.challenge = some state)
    (hid : state.challengeId = attempt.challengeId) (hnow : attempt.now ≤ state.expiresAt)
    (hfailed : state.failedAttempts < 5) (hstored : attempt.stored = some words)
    (hwords : ∀ i ∈ state.indices, wordMatches words attempt.answers i = true) :
    Recorded w { v with required := some false, challenge := none }
      (.answered w attempt :: history) where
  required _ := (h.challenge state hstate).1
  challenge := nofun
  created hmem := by
    have hold : .created w ∈ history := by simpa using hmem
    obtain ⟨hrow, hforce⟩ := h.challenge state hstate
    exact ⟨hrow, fun _ => ⟨[], attempt, history, _, words, rfl, hold, hforce.latest, hid.symm, hnow,
      hforce.wrong.trans_lt hfailed, hforce.positions, hstored, hwords⟩⟩

end Recorded

/-! ## What the calls do -/

section Calls

variable (f : WalletId → WalletBackup) (w : WalletId)

/-- Whether it fails or not. -/
abbrev Leads (op : Op Unit) (v : WalletBackup) : Prop :=
  ⦃fun s => ⌜s.backup.view = f⌝⦄ op ⦃post⟨fun _ s => ⌜s.backup.view = Function.update f w v⌝,
    fun _ s => ⌜s.backup.view = Function.update f w v⌝⟩⦄

/-- Wherever the creation stops. -/
def WalletBackup.create (v : WalletBackup) (env backupEnv : Env) (walletType : WalletType)
    (required : Bool) : WalletBackup :=
  if v.row = none ∧ env.appDb = true then
    { v with
      row := some walletType
      required := if backupEnv.appDb then some required else v.required }
  else v

theorem createWallet_leads (env backupEnv accountEnv : Env) (words : List String)
    (secrets : Bool) (challengeId : ℕ) (indices : List ℕ) :
    Leads f w (createWallet env backupEnv accountEnv w words secrets challengeId indices)
      (if (f w).row = none ∧ env.appDb = true ∧ backupEnv.appDb = true ∧ secrets = true ∧
          accountEnv.appDb = true then
        { (f w).create env backupEnv .software true with
          challenge := some ⟨challengeId, indices, accountEnv.now + 600000, 0⟩ }
      else (f w).create env backupEnv .software true) := by
  mvcgen [createWallet, insertWallet_stores, setBackupRequired_stores, storeSecrets_view,
    upsertAccount_view, issueBackupChallenge_stores, activate_view]
  case vc7 s hs e t =>
    -- the row could not be inserted, so nothing has changed
    intro hfail _ ht
    rw [hs] at hfail ht
    rw [ht, if_neg fun h => hfail ⟨h.1, h.2.1⟩, WalletBackup.create, if_neg hfail,
      Function.update_eq_self]
  all_goals intros
  all_goals simp_all [WalletBackup.create]

theorem restoreWallet_leads (env backupEnv accountEnv : Env) (words : List String)
    (secrets : Bool) :
    Leads f w (restoreWallet env backupEnv accountEnv w words secrets)
      ((f w).create env backupEnv .software false) := by
  mvcgen [restoreWallet, markBackupComplete, insertWallet_stores, setBackupRequired_stores,
    storeSecrets_view, upsertAccount_view, activate_view]
  all_goals intros
  all_goals simp_all [WalletBackup.create]

theorem createKeystoneWallet_leads (env backupEnv accountEnv : Env) (secrets : Bool) :
    Leads f w (createKeystoneWallet env backupEnv accountEnv w secrets)
      ((f w).create env backupEnv .watchOnly false) := by
  mvcgen [createKeystoneWallet, markBackupComplete, insertWallet_stores, setBackupRequired_stores,
    storeSecrets_view, upsertAccount_view, activate_view]
  all_goals intros
  all_goals simp_all [WalletBackup.create]

theorem getBackupChallenge_stores (env : Env) (challengeId : ℕ) (indices : List ℕ) :
    ⦃fun s => ⌜s.backup.view = f⌝⦄ getBackupChallenge env w challengeId indices ⦃post⟨
      fun _ s => ⌜(f w).row ≠ none ∧ s.backup.view = Function.update f w
        { f w with challenge := some ⟨challengeId, indices, env.now + 600000, 0⟩ }⌝,
      fun _ s => ⌜s.backup.view = f⌝⟩⦄ := by
  mvcgen [getBackupChallenge, issueBackupChallenge_stores, ipcErr]
  all_goals simp_all

theorem logoutWallet_view :
    ⦃fun s => ⌜s.backup.view = f⌝⦄ logoutWallet w ⦃post⟨
      fun _ s => ⌜s.backup.view = Function.update f w { f w with challenge := none }⌝,
      fun _ s => ⌜s.backup.view = f⌝⟩⦄ := by
  mvcgen [logoutWallet, removeBackupChallenge_view, clearProposalsForWallet_view, ipcErr]
  rename_i hs _ _ _ _ _ _ hremove _ _ hclear _
  subst hs
  exact hclear.trans hremove

theorem countFailedAttempt_view (state : BackupChallengeState) :
    ⦃fun s => ⌜s.backup.view = f ∧ state.failedAttempts < 5⌝⦄ countFailedAttempt w state ⦃post⟨
      fun _ _ => ⌜False⌝,
      fun _ s => ⌜s.backup.view = Function.update f w { f w with challenge := none } ∨
        s.backup.view = Function.update f w { f w with
          challenge := some { state with failedAttempts := state.failedAttempts + 1 } }⌝⟩⦄ := by
  mvcgen [countFailedAttempt, removeBackupChallenge_view, ipcErr]
  case vc1 hs _ _ ht =>
    obtain ⟨rfl, -⟩ := hs
    exact .inl ht
  case vc2 s hs _ =>
    obtain ⟨rfl, hfailed⟩ := hs
    have hmin : min (state.failedAttempts + 1) 255 = state.failedAttempts + 1 := by omega
    exact .inr (hmin ▸ view_setChallenge s.backup w _)

theorem unlockedWalletDek_unrefused (s₀ : World) :
    ⦃fun s => ⌜s = s₀⌝⦄ unlockedWalletDek w ⦃post⟨fun _ s => ⌜s = s₀⌝,
      fun e s => ⌜s = s₀ ∧ refusesAnswer (.error e) = false⌝⟩⦄ := by
  mvcgen [unlockedWalletDek, activeWallet, ipcErr, -unlockedWalletDek_reads, -activeWallet_reads]

theorem decryptMnemonic_unrefused (dek : Dek) (s₀ : World) :
    ⦃fun s => ⌜s = s₀⌝⦄ decryptMnemonic w dek ⦃post⟨
      fun words s => ⌜s = s₀ ∧ s₀.mnemonics w = some words⌝,
      fun e s => ⌜s = s₀ ∧ refusesAnswer (.error e) = false⌝⟩⦄ := by
  mvcgen [decryptMnemonic, ipcErr, -decryptMnemonic_reads]
  rename_i hs _ hwords _ _
  exact ⟨hs, hs ▸ hwords⟩

/-- What a failed `verify_backup` leaves of `v`. -/
inductive WalletBackup.Failed (v : WalletBackup) (challengeId : ℕ) (e : IpcError) :
    WalletBackup → Prop
  | same (h : refusesAnswer (.error e) = true →
      ∀ state ∈ v.challenge, state.challengeId ≠ challengeId) : Failed v challengeId e v
  | dropped : Failed v challengeId e { v with challenge := none }
  | counted {state : BackupChallengeState} (h : v.challenge = some state) :
    Failed v challengeId e { v with
      challenge := some { state with failedAttempts := state.failedAttempts + 1 } }

variable {f w} in
theorem failed_of_unrefused {challengeId : ℕ} {e : IpcError}
    (h : refusesAnswer (.error e) = false) :
    ∃ v, (f w).Failed challengeId e v ∧ f = Function.update f w v :=
  ⟨f w, .same fun hrefused => absurd (h.symm.trans hrefused) Bool.false_ne_true,
    (Function.update_eq_self w f).symm⟩

variable {f w} in
theorem failed_of_unknown {challengeId : ℕ} {e : IpcError}
    (h : ∀ state ∈ (f w).challenge, state.challengeId ≠ challengeId) :
    ∃ v, (f w).Failed challengeId e v ∧ f = Function.update f w v :=
  ⟨f w, .same fun _ => h, (Function.update_eq_self w f).symm⟩

theorem verifyBackup_view (env : Env) (challengeId : ℕ) (answers : ℕ → Option String)
    (s₀ : World) :
    ⦃fun s => ⌜s = s₀⌝⦄ verifyBackup env w challengeId answers ⦃post⟨
      fun _ s => ⌜∃ state words, s₀.backupChallenges w = some state ∧
        state.challengeId = challengeId ∧ env.now ≤ state.expiresAt ∧ state.failedAttempts < 5 ∧
        s₀.mnemonics w = some words ∧ (∀ i ∈ state.indices, wordMatches words answers i = true) ∧
        s.backup.view = Function.update s₀.backup.view w
          { s₀.backup.view w with required := some false, challenge := none }⌝,
      fun e s => ⌜∃ v, (s₀.backup.view w).Failed challengeId e v ∧
        s.backup.view = Function.update s₀.backup.view w v⌝⟩⦄ := by
  mvcgen [verifyBackup, markBackupComplete, setBackupRequired_stores, removeBackupChallenge_view,
    countFailedAttempt_view, unlockedWalletDek_unrefused, decryptMnemonic_unrefused, ipcErr,
    -unlockedWalletDek_reads, -decryptMnemonic_reads]
  all_goals subst_vars
  case vc1 => exact failed_of_unrefused rfl
  case vc2 state hstate _ hid =>
    -- the answer names another challenge
    exact failed_of_unknown fun state' hstate' => Option.mem_unique hstate hstate' ▸ hid
  case vc3 ht => exact ⟨_, .dropped, ht⟩
  case vc4 ht => exact ⟨_, .dropped, ht⟩
  case vc5 hread _ _ =>
    obtain ⟨rfl, -⟩ := hread
    exact failed_of_unrefused rfl
  case vc6 state _ hid _ hexpires _ hfailed _ _ words _ _ hall _ hread _ _ hflag _ _ _ hstate =>
    intro ht
    obtain ⟨rfl, hwords⟩ := hread
    refine ⟨state, words, hstate, not_not.mp hid, not_lt.mp hexpires, not_le.mp hfailed, hwords,
      List.all_eq_true.mp hall, ?_⟩
    rw [ht, hflag.2, Function.update_idem, Function.update_self]
  case vc7 hread _ _ _ _ =>
    intro _ hcode ht
    obtain ⟨rfl, -⟩ := hread
    rw [ht]
    exact failed_of_unrefused hcode
  case vc8 => exact ⟨trivial, by omega⟩
  case vc9 => exact False.elim
  case vc10 hread _ _ _ hstate =>
    obtain ⟨rfl, -⟩ := hread
    rintro (ht | ht)
    · exact ⟨_, .dropped, ht⟩
    · exact ⟨_, .counted hstate, ht⟩
  case vc11 =>
    rintro rfl hcode
    exact failed_of_unrefused hcode
  case vc12 =>
    rintro rfl hcode
    exact failed_of_unrefused hcode
  case vc13 hnone => exact failed_of_unknown fun state hstate => (hnone state hstate).elim

end Calls

/-! ## Runs -/

abbrev RecordedAll (f : WalletId → WalletBackup) (history : List BackupEvent) : Prop :=
  ∀ w, Recorded w (f w) history

variable {v : WalletBackup}

theorem RecordedAll.update {f g : WalletId → WalletBackup} (h : RecordedAll f history)
    (events : List BackupEvent) (hg : g = Function.update f w v)
    (hevents : ∀ e ∈ events, e.wallet = w) (hv : Recorded w v (events ++ history)) :
    RecordedAll g (events ++ history) := by
  intro w'
  rw [hg]
  by_cases heq : w' = w
  · subst heq
    rwa [Function.update_self]
  · rw [Function.update_of_ne heq]
    exact (h w').append_of_ne fun e he => by rw [hevents e he]; exact Ne.symm heq

theorem Recorded.walletCreate (h : Recorded w v history) (env backupEnv : Env)
    (walletType : WalletType) (required : Bool) :
    Recorded w (v.create env backupEnv walletType required) history := by
  rw [WalletBackup.create]
  by_cases hnew : v.row = none ∧ env.appDb = true
  · rw [if_pos hnew]
    exact h.insert hnew.1 (by simp) rfl
  · rwa [if_neg hnew]

/-- A backup is asked for from the moment the wallet has a row. -/
theorem Recorded.walletCreated (h : Recorded w v history) (env backupEnv : Env) :
    Recorded w (v.create env backupEnv .software true)
      ((if v.row = none ∧ env.appDb = true then [.created w] else []) ++ history) := by
  have hafter := h.walletCreate env backupEnv .software true
  split_ifs with hnew
  · have hrequired : v.required = none := by
      by_contra hsome
      exact h.required hsome hnew.1
    have hchallenge : v.challenge = none := by
      by_contra hsome
      obtain ⟨state, hstate⟩ := Option.ne_none_iff_exists'.mp hsome
      exact (h.challenge state hstate).1 hnew.1
    refine hafter.create ?_ ?_ ?_
    · simp [WalletBackup.create, hnew]
    · simp [WalletBackup.create, hnew, hrequired]
    · simp [WalletBackup.create, hnew, hchallenge]
  · exact hafter

section Call

variable {s : World} {history : List BackupEvent}

theorem inserts_iff {env : Env} {w : WalletId} :
    inserts env w s = true ↔ (s.backup.view w).row = none ∧ env.appDb = true := by
  simp [inserts, Backup.view, World.backup]

theorem creates_iff {env backupEnv accountEnv : Env} {w : WalletId} {secrets : Bool} :
    creates env backupEnv accountEnv w secrets s = true ↔ (s.backup.view w).row = none ∧
      env.appDb = true ∧ backupEnv.appDb = true ∧ secrets = true ∧ accountEnv.appDb = true := by
  simp [creates, Backup.view, World.backup, and_assoc]

theorem recorded_createWallet (h : RecordedAll s.backup.view history)
    (env backupEnv accountEnv : Env) (w : WalletId) (words : List String) (secrets : Bool)
    (challengeId : ℕ) {indices : List ℕ} (hindices : Positions indices) :
    RecordedAll ((createWallet env backupEnv accountEnv w words secrets challengeId indices).exec
      s).backup.view
      (backupEvents s (.call (.createWallet env backupEnv accountEnv w words secrets challengeId
        indices)) ++ history) := by
  have hleads := exec_of_triple (createWallet_leads s.backup.view w env backupEnv accountEnv words
    secrets challengeId indices) rfl
  simp only [backupEvents, creates_iff, inserts_iff]
  refine h.update _ hleads ?_ ?_
  · split_ifs <;> simp [BackupEvent.wallet]
  · have hcreated := (h w).walletCreated env backupEnv
    by_cases hall : (s.backup.view w).row = none ∧ env.appDb = true ∧ backupEnv.appDb = true ∧
      secrets = true ∧ accountEnv.appDb = true
    · have hrow : ((s.backup.view w).create env backupEnv .software true).row ≠ none := by
        simp [WalletBackup.create, hall]
      rw [if_pos hall, if_pos hall]
      exact hcreated.issue hrow ⟨challengeId, indices, accountEnv.now + 600000⟩ hindices
    · rw [if_neg hall, if_neg hall]
      exact hcreated

theorem recorded_getBackupChallenge (h : RecordedAll s.backup.view history) (env : Env)
    (w : WalletId) (challengeId : ℕ) {indices : List ℕ} (hindices : Positions indices) :
    RecordedAll ((getBackupChallenge env w challengeId indices).exec s).backup.view
      (backupEvents s (.call (.getBackupChallenge env w challengeId indices)) ++ history) := by
  obtain ⟨hok, herr⟩ := run_of_triple
    (getBackupChallenge_stores s.backup.view w env challengeId indices) rfl
  simp only [backupEvents]
  cases hrun : ((getBackupChallenge env w challengeId indices).run s).1 with
  | ok u =>
    obtain ⟨hrow, hview⟩ := hok u hrun
    exact h.update _ hview (by simp [Except.isOk, Except.toBool, BackupEvent.wallet])
      ((h w).issue hrow ⟨challengeId, indices, env.now + 600000⟩ hindices)
  | error e =>
    have hview : ((getBackupChallenge env w challengeId indices).exec s).backup.view =
      s.backup.view := herr e hrun
    rw [hview]
    exact h

theorem recorded_verifyBackup (h : RecordedAll s.backup.view history) (env : Env) (w : WalletId)
    (challengeId : ℕ) (answers : ℕ → Option String) :
    RecordedAll ((verifyBackup env w challengeId answers).exec s).backup.view
      (backupEvents s (.call (.verifyBackup env w challengeId answers)) ++ history) := by
  obtain ⟨hok, herr⟩ := run_of_triple (verifyBackup_view w env challengeId answers s) rfl
  simp only [backupEvents]
  cases hrun : ((verifyBackup env w challengeId answers).run s).1 with
  | ok u =>
    obtain ⟨state, words, hstate, hid, hnow, hfailed, hwords, hall, hview⟩ := hok u hrun
    exact h.update _ hview (by simp [BackupEvent.wallet])
      ((h w).verify hstate hid hnow hfailed hwords hall)
  | error e =>
    obtain ⟨v, hfailed, hview⟩ := herr e hrun
    refine h.update _ hview (by simp [BackupEvent.wallet]) ?_
    cases hfailed with
    | same hother => exact (h w).answer _ hother
    | dropped => exact (h w).dropChallenge.answer _ nofun
    | counted hstate => exact (h w).count _ hstate

theorem recorded_logoutWallet (h : RecordedAll s.backup.view history) (w : WalletId) :
    RecordedAll ((logoutWallet w).exec s).backup.view history := by
  obtain ⟨hok, herr⟩ := run_of_triple (logoutWallet_view s.backup.view w) rfl
  cases hrun : ((logoutWallet w).run s).1 with
  | ok u => exact h.update [] (hok u hrun) (by simp) (h w).dropChallenge
  | error e =>
    have hview : ((logoutWallet w).exec s).backup.view = s.backup.view := herr e hrun
    rw [hview]
    exact h

theorem backupEvents_ordinary {c : Call} (h : c.touchesBackup = false) :
    backupEvents s (.call c) = [] := by
  cases c with
  | createWallet | getBackupChallenge | verifyBackup => cases h
  | _ => rfl

theorem recorded_call {c : Call} (h : RecordedAll s.backup.view history)
    (hg : Shuffled ⟨s, history⟩ (.call c)) :
    RecordedAll (c.op.exec s).backup.view (backupEvents s (.call c) ++ history) := by
  cases hc : c.touchesBackup with
  | false =>
    rw [op_backup hc, backupEvents_ordinary hc]
    exact h
  | true =>
    cases c with
    | createWallet env backupEnv accountEnv w words secrets challengeId indices =>
      obtain ⟨pool, hpool, rfl⟩ := hg
      exact recorded_createWallet h env backupEnv accountEnv w words secrets challengeId
        (positions_challengeIndices hpool)
    | restoreWallet env backupEnv accountEnv w words secrets =>
      have hleads := exec_of_triple (restoreWallet_leads s.backup.view w env backupEnv accountEnv
        words secrets) rfl
      exact h.update [] hleads (by simp)
        ((h w).walletCreate env backupEnv .software false)
    | createKeystoneWallet env backupEnv accountEnv w secrets =>
      have hleads := exec_of_triple (createKeystoneWallet_leads s.backup.view w env backupEnv
        accountEnv secrets) rfl
      exact h.update [] hleads (by simp)
        ((h w).walletCreate env backupEnv .watchOnly false)
    | getBackupChallenge env w challengeId indices =>
      obtain ⟨pool, hpool, rfl⟩ := hg
      exact recorded_getBackupChallenge h env w challengeId (positions_challengeIndices hpool)
    | verifyBackup env w challengeId answers =>
      exact recorded_verifyBackup h env w challengeId answers
    | logoutWallet w => exact recorded_logoutWallet h w
    | _ => cases hc

end Call

theorem recorded_step {s t : BackupRun} {a : Action}
    (hs : RecordedAll s.world.backup.view s.history) (hg : Shuffled s a) (h : s.step a = some t) :
    RecordedAll t.world.backup.view t.history := by
  obtain ⟨world, hworld, rfl⟩ := Option.map_eq_some_iff.mp h
  cases a with
  | call c =>
    obtain rfl := Option.some.inj hworld
    exact recorded_call hs hg
  | task i answer =>
    have hsame : world.backup = s.world.backup := taskStep_backup hworld
    show RecordedAll world.backup.view s.history
    rw [hsame]
    exact hs
  | restart =>
    obtain rfl := Option.some.inj hworld
    exact fun w => (hs w).dropChallenge

theorem recorded_of_reach {s : BackupRun} (h : Reach backupSystem Shuffled s) :
    RecordedAll s.world.backup.view s.history :=
  h.invariant (I := fun s => RecordedAll s.world.backup.view s.history)
    (by rintro s rfl; exact fun _ => .nil rfl) fun _ _ _ hs hg hstep => recorded_step hs hg hstep

/-- **A backup is complete only after a right answer**: `verify_backup` was called for the wallet's
latest challenge, in time and before a fifth wrong answer, with the words at its four positions. -/
theorem backup_after_right_answer {s : BackupRun} (h : Reach backupSystem Shuffled s)
    {w : WalletId} (hcreated : .created w ∈ s.history)
    (hflag : s.world.appDb.backupFlag w = false) :
    ∃ later attempt earlier challenge words,
      s.history = later ++ .answered w attempt :: earlier ∧ .created w ∈ earlier ∧
      latestChallenge w earlier = some challenge ∧ attempt.challengeId = challenge.challengeId ∧
      attempt.now ≤ challenge.expiresAt ∧ wrongAnswers w challenge.challengeId earlier < 5 ∧
      attempt.stored = some words ∧
      (∀ i ∈ challenge.indices, wordMatches words attempt.answers i = true) ∧
      challenge.indices.length = 4 ∧ challenge.indices.Nodup ∧
      ∀ i ∈ challenge.indices, 1 ≤ i ∧ i ≤ 24 := by
  have hcleared : (s.world.backup.view w).required = some false := by
    change (s.world.appDb.backupRequired w).getD true = false at hflag
    change s.world.appDb.backupRequired w = some false
    cases hrequired : s.world.appDb.backupRequired w with
    | none => simp [hrequired] at hflag
    | some required => simpa [hrequired] using hflag
  obtain ⟨later, attempt, earlier, challenge, words, hhistory, hmade, hlatest, hid, hnow, hwrong,
    hpositions, hstored, hwords⟩ :=
      ((recorded_of_reach h w).created hcreated).2 hcleared
  exact ⟨later, attempt, earlier, challenge, words, hhistory, hmade, hlatest, hid, hnow, hwrong,
    hstored, hwords, hpositions.length, hpositions.nodup, hpositions.bounds⟩

def BackupEvent.isCreated (w : WalletId) : BackupEvent → Bool
  | .created w' => w' == w
  | _ => false

theorem any_isCreated_iff :
    history.any (BackupEvent.isCreated w) = true ↔ .created w ∈ history := by
  rw [List.any_eq_true]
  constructor
  · rintro ⟨e, he, hw⟩
    cases e with
    | created w' => exact (beq_iff_eq.mp hw) ▸ he
    | issued | answered => cases hw
  · exact fun h => ⟨_, h, beq_self_eq_true w⟩

instance (w : WalletId) (history : List BackupEvent) :
    Decidable (BackupEvent.created w ∈ history) := decidable_of_iff _ any_isCreated_iff

/-- A wrong answer, a new challenge, an answer to the old one, and a right answer. -/
def secondChallenge : List Action :=
  [.call (.createWallet .works .works .works 0 (List.replicate 24 "abandon") true 7
      (challengeIndices (List.range' 1 24))),
    .call (.verifyBackup .works 0 7 fun _ => some "zoo"),
    .call (.getBackupChallenge .works 0 8 (challengeIndices (List.range' 1 24))),
    .call (.verifyBackup .works 0 7 fun _ => some "abandon"),
    .call (.verifyBackup .works 0 8 fun _ => some " Abandon ")]

theorem secondChallenge_shuffled : ∀ a ∈ secondChallenge, ∀ s, Shuffled s a := by
  have hpool : ∃ pool : List ℕ, pool.Perm (List.range' 1 24) ∧
      challengeIndices (List.range' 1 24) = challengeIndices pool := ⟨_, List.Perm.refl _, rfl⟩
  simp only [secondChallenge, List.forall_mem_cons, Shuffled]
  exact ⟨fun _ => hpool, fun _ => trivial, fun _ => hpool, fun _ => trivial, fun _ => trivial,
    List.forall_mem_nil _⟩

theorem backup_after_right_answer_second : ∃ s, (Reach backupSystem Shuffled s ∧
    .created 0 ∈ s.history ∧ s.world.appDb.backupFlag 0 = false) ∧
    ∃ later attempt earlier challenge, s.history = later ++ .answered 0 attempt :: earlier ∧
      latestChallenge 0 earlier = some challenge ∧
      attempt.challengeId = challenge.challengeId := by
  obtain ⟨s, hs, hcreated, hflag⟩ := exec_reach (S := backupSystem) (G := Shuffled)
    (p := fun s => .created 0 ∈ s.history ∧ s.world.appDb.backupFlag 0 = false) secondChallenge rfl
    (along_of_forall secondChallenge_shuffled _) (by decide +kernel)
  obtain ⟨later, attempt, earlier, challenge, _, hhistory, -, hlatest, hid, -⟩ :=
    backup_after_right_answer hs hcreated hflag
  exact ⟨s, ⟨hs, hcreated, hflag⟩, later, attempt, earlier, challenge, hhistory, hlatest, hid⟩

end ZbagWallet
