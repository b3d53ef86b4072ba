import Zbag.Tor.Transport

/-!
# Tor — the command line and its `--tor` flag

A command of `zbag-cli` runs in a process of its own. With `--tor` it builds a Tor manager from the
row of `tor_settings`, but no command calls `set_enabled` or `start_if_enabled`. Some commands drop
the flag, and the probes of the server commands use clients without a manager.
-/

namespace ZbagTor

open Transition

/-- A row of `tor_settings`. -/
structure TorRow where
  enabled : Int
  status : String
  lastError : Option String
  deriving DecidableEq, Repr

def getTorState : Option TorRow → TorState
  | none => ⟨false, .off, none⟩
  | some row =>
    { enabled := row.enabled != 0
      status :=
        if row.status = "Off" then .off
        else if row.status = "Connecting" then .connecting
        else if row.status = "On" then .on
        else if row.status = "Error" then .error
        else .off
      lastError := row.lastError }

def cliTorManager (row : Option TorRow) (enableTor : Bool) : Option TorManager :=
  if enableTor then some (.new (getTorState row)) else none

inductive Command
  | walletCreate
  | walletRestore
  | walletList
  | walletShow
  | walletUnlock
  | walletLock
  | sync
  | txSend
  | txShield
  | txList
  | txRetry
  | balance
  | address
  | serverList
  | serverAdd
  | serverSetDefault
  | serverTest
  | serverBenchFetch
  | seed
  | backup
  deriving DecidableEq, Repr

def Command.enableTor (c : Command) (flag : Bool) : Bool :=
  match c with
  | .walletCreate | .walletRestore | .sync | .txSend | .txShield | .txRetry => flag
  | _ => false

inductive ClientSource
  /-- it makes no request -/
  | noRequest
  /-- `GrpcClient::new` -/
  | plain
  | fromState
  deriving DecidableEq, Repr

def Command.clients : Command → ClientSource
  -- the birthday of a new wallet, the sync task, and the broadcasts of `TxService`
  | .walletCreate | .sync | .txSend | .txShield | .txRetry => .fromState
  | .serverAdd | .serverTest | .serverBenchFetch => .plain
  | _ => .noRequest

def Command.builds (c : Command) (manager : Option TorManager) (tor : Bool) : Bool :=
  match c.clients with
  | .noRequest => false
  | .plain => !tor
  | .fromState => tor == manager.isSome

def cliStart (row : Option TorRow) (flag : Bool) (c : Command) : Network :=
  ⟨(cliTorManager row (c.enableTor flag)).getD (.new (getTorState none)), [], []⟩

def cliStep (row : Option TorRow) (flag : Bool) (c : Command) (n : Network) :
    Network.Action → Option Network
  | .tor _ => none
  | .newClient kind tor =>
    if kind = .grpc ∧ c.builds (cliTorManager row (c.enableTor flag)) tor then
      n.step (.newClient kind tor)
    else none
  | a => n.step a

/-- **All runs of a command.** -/
def cliRun (row : Option TorRow) (flag : Bool) (c : Command) : System Network Network.Action where
  init n := n = cliStart row flag c
  step := cliStep row flag c

/-- It succeeds only through a Tor client. -/
def Request.OverTor (r : Request) : Prop :=
  r.direct = [] ∧ (r.pc = .finished true → r.viaTor.isSome = true)

/-! ## Runs of a command -/

section Runs

variable {row : Option TorRow} {flag : Bool} {c : Command} {n n' : Network} {a : Network.Action}

theorem cliStep_network (h : cliStep row flag c n a = some n') : n.step a = some n' := by
  cases a with
  | tor a => cases h
  | newClient kind tor =>
    rw [cliStep] at h
    split_ifs at h
    exact h
  | request client retry | step i answer => exact h

theorem cliRun_network (h : Reach (cliRun row flag c) Free n) : Reach network Free n := by
  refine h.invariant (fun n hn => .of_init ?_) fun _ _ _ hn _ hstep =>
    hn.step trivial (cliStep_network hstep)
  obtain rfl := hn
  unfold cliStart cliTorManager
  cases c.enableTor flag
  · exact ⟨_, rfl⟩
  · exact ⟨_, rfl⟩

structure Network.Covered (n : Network) : Prop where
  enabled : n.tor.inner.state.enabled = true
  clients : ∀ c ∈ n.clients, c.tor = true
  requests : ∀ r ∈ n.requests, r.tor = true ∧ r.sawDisabled = false

theorem Network.Covered.observe (h : n.Covered) : n.observe.Covered := by
  refine ⟨h.enabled, h.clients, fun r hr => ?_⟩
  obtain ⟨r₀, hr₀, rfl⟩ := List.mem_map.mp hr
  obtain ⟨htor, hsaw⟩ := h.requests r₀ hr₀
  refine ⟨(r₀.observe_client _).2.trans htor, ?_⟩
  unfold Request.observe
  split_ifs
  · simp [hsaw, h.enabled]
  · exact hsaw

theorem Network.Covered.step (h : n.Covered) (hc : c.clients = .fromState)
    (hmanager : (cliTorManager row (c.enableTor flag)).isSome = true)
    (hstep : cliStep row flag c n a = some n') : n'.Covered := by
  obtain ⟨n₁, hmove, rfl⟩ := Option.map_eq_some_iff.mp (cliStep_network hstep)
  refine Network.Covered.observe ?_
  cases a with
  | tor a => cases hstep
  | newClient kind tor =>
    cases hmove
    refine ⟨h.enabled, fun client hclient => ?_, h.requests⟩
    rcases List.mem_append.mp hclient with hclient | hclient
    · exact h.clients client hclient
    · obtain rfl := List.mem_singleton.mp hclient
      rw [cliStep] at hstep
      split_ifs at hstep with hbuilds
      simpa [Command.builds, hc, hmanager] using hbuilds.2
  | request client retry =>
    obtain ⟨cl, hcl, rfl⟩ := Option.map_eq_some_iff.mp hmove
    refine ⟨h.enabled, h.clients, fun r hr => ?_⟩
    rcases List.mem_append.mp hr with hr | hr
    · exact h.requests r hr
    · obtain rfl := List.mem_singleton.mp hr
      exact ⟨h.clients cl (List.mem_of_getElem? hcl), rfl⟩
  | step i answer =>
    obtain ⟨r₀, hr₀, hmove⟩ := Option.bind_eq_some_iff.mp hmove
    obtain ⟨cl, hcl, hmove⟩ := Option.bind_eq_some_iff.mp hmove
    obtain ⟨⟨r', effect⟩, hr', rfl⟩ := Option.map_eq_some_iff.mp hmove
    refine ⟨h.enabled, fun client hclient => ?_, fun r hr => ?_⟩
    · rcases List.mem_or_eq_of_mem_set hclient with hclient | rfl
      · exact h.clients client hclient
      · rw [applyEffect_tor]
        exact h.clients cl (List.mem_of_getElem? hcl)
    · rcases List.mem_or_eq_of_mem_set hr with hr | rfl
      · exact h.requests r hr
      · obtain ⟨-, htor, hsaw⟩ := Request.step_client hr'
        rw [htor, hsaw]
        exact h.requests r₀ (List.mem_of_getElem? hr₀)

theorem new_enabled (initial : TorState) :
    (TorManager.new initial).inner.state.enabled = initial.enabled := by
  unfold TorManager.new
  grind

theorem enableTor_of_fromState (hc : c.clients = .fromState) : c.enableTor true = true := by
  cases c <;> first | rfl | cases hc

theorem overTor_of_enabled (hc : c.clients = .fromState)
    (henabled : (getTorState row).enabled = true) (h : Reach (cliRun row true c) Free n)
    {r : Request} (hr : r ∈ n.requests) : r.OverTor := by
  have htor := enableTor_of_fromState hc
  have hcovered : n.Covered := by
    refine h.invariant (fun n hn => ?_) fun n a n' hn _ hstep => ?_
    · obtain rfl := hn
      refine ⟨?_, by simp [cliStart], by simp [cliStart]⟩
      simpa [cliStart, cliTorManager, htor, new_enabled] using henabled
    · exact hn.step hc (by simp [cliTorManager, htor]) hstep
  obtain ⟨hrtor, hsaw⟩ := hcovered.requests r hr
  obtain ⟨hnil, hvia⟩ := (network_inv (cliRun_network h) r hr).1.overTor hrtor hsaw
  refine ⟨hnil, fun hpc => ?_⟩
  obtain ⟨client, hclient⟩ := hvia (by rw [hpc]; rfl)
  rw [hclient]
  rfl

theorem nil_of_noRequest (hc : c.clients = .noRequest) (h : Reach (cliRun row flag c) Free n) :
    n.clients = [] ∧ n.requests = [] := by
  refine h.invariant (I := fun n => n.clients = [] ∧ n.requests = []) (fun n hn => ?_)
    fun n a n' hn _ hstep => ?_
  · obtain rfl := hn
    exact ⟨rfl, rfl⟩
  · obtain ⟨hclients, hrequests⟩ := hn
    cases a with
    | tor a => cases hstep
    | newClient kind tor => simp [cliRun, cliStep, Command.builds, hc] at hstep
    | request client retry =>
      simp [cliRun, cliStep, Network.step, Network.move, hclients] at hstep
    | step i answer => simp [cliRun, cliStep, Network.step, Network.move, hrequests] at hstep

end Runs

/-! ## Direct connections -/

def firstRequest (tor : Bool) : List Network.Action :=
  [.newClient .grpc tor, .request 0 false, .step 0 .ok, .step 0 .ok, .step 0 .ok]

theorem direct_of_disabled {row : Option TorRow} {flag : Bool} {c : Command} (tor : Bool)
    (hbuilds : c.builds (cliTorManager row (c.enableTor flag)) tor = true)
    (hdirect : tor = false ∨ (cliStart row flag c).tor.inner.state.enabled = false) :
    ∃ n, Reach (cliRun row flag c) Free n ∧ ∃ r ∈ n.requests, r.direct = [.opened] := by
  refine exec_reach (firstRequest tor) rfl (along_free _ _) ?_
  obtain ⟨m, hm⟩ : ∃ m, cliStart row flag c = ⟨m, [], []⟩ := ⟨_, rfl⟩
  rw [hm] at hdirect ⊢
  -- the selection, the read lock and the write lock of the one request
  simp [exec, firstRequest, cliRun, cliStep, hbuilds, Network.step, Network.move,
    Network.observe, Request.observe, Request.inFlight, Request.step, Request.goDirect,
    Network.applyEffect, hdirect]

theorem getTorState_enabled (row : Option TorRow) :
    (getTorState row).enabled = true ↔ ∃ r ∈ row, r.enabled ≠ 0 := by
  cases row with
  | none | some r => simp [getTorState]

/-- **When `--tor` keeps a command off direct connections**: exactly if it makes no request, or its
clients know the manager and the database says that Tor is enabled. -/
theorem cli_overTor_iff (row : Option TorRow) (c : Command) :
    (∀ n, Reach (cliRun row true c) Free n → ∀ r ∈ n.requests, r.OverTor) ↔
      c.clients = .noRequest ∨ c.clients = .fromState ∧ ∃ r ∈ row, r.enabled ≠ 0 := by
  rw [← getTorState_enabled]
  constructor
  · intro h
    have hnot : ¬ ∃ n, Reach (cliRun row true c) Free n ∧
        ∃ r ∈ n.requests, r.direct = [.opened] := by
      rintro ⟨n, hn, r, hr, hdirect⟩
      exact absurd (h n hn r hr).1 (by simp [hdirect])
    cases hc : c.clients with
    | noRequest => exact .inl rfl
    | plain =>
      have hbuilds : c.builds (cliTorManager row (c.enableTor true)) false = true := by
        simp [Command.builds, hc]
      exact absurd (direct_of_disabled false hbuilds (.inl rfl)) hnot
    | fromState =>
      refine .inr ⟨rfl, ?_⟩
      by_contra hoff
      have htor := enableTor_of_fromState hc
      refine hnot (direct_of_disabled true ?_ (.inr ?_))
      · simp [Command.builds, hc, cliTorManager, htor]
      · simpa [cliStart, cliTorManager, htor, new_enabled] using hoff
  · rintro (hc | ⟨hc, henabled⟩) n hn r hr
    · exact absurd hr (by simp [(nil_of_noRequest hc hn).2])
    · exact overTor_of_enabled hc henabled hn hr

def seededTor : TorRow := ⟨0, "Off", none⟩

/-- The chain tip for a new wallet and the probe of a new server go over direct channels. -/
theorem cli_goes_direct :
    (∃ n, Reach (cliRun (some seededTor) true .walletCreate) Free n ∧
      ∃ r ∈ n.requests, r.direct = [.opened]) ∧
    ∃ n, Reach (cliRun (some ⟨1, "Off", none⟩) true .serverAdd) Free n ∧
      ∃ r ∈ n.requests, r.direct = [.opened] :=
  ⟨direct_of_disabled true (by decide) (.inr (by decide)),
    direct_of_disabled false (by decide) (.inl rfl)⟩

end ZbagTor
