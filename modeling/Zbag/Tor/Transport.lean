import Zbag.Tor.Manager

/-!
# Tor — requests over Tor or directly

A gRPC or HTTP client asks its `TransportSelector` at every request which transport to take. The
selector reads the state of the Tor manager and then, under a second lock, the Tor client. A gRPC
client keeps its direct channel for later requests, and `get_client_with_retry` drops that channel
and selects once more. All this is interleaved with the steps of the Tor manager.
-/

namespace ZbagTor

open Transition

/-! ## Clients and requests -/

inductive ClientKind
  | grpc
  | http
  deriving DecidableEq, Repr

/-- `tor`: its selector has a Tor manager; `writer`: the request that holds the write lock. -/
structure Client where
  kind : ClientKind
  tor : Bool
  directChannel : Bool
  writer : Option ℕ
  deriving DecidableEq, Repr

inductive DirectUse
  | cached
  | opened
  | http
  deriving DecidableEq, Repr

inductive RequestPc
  | select
  | selectClient
  | readChannel
  | writeChannel
  /-- connecting, with the write lock -/
  | connecting
  /-- before a direct HTTP request -/
  | sendDirect
  | connectTor (client : TorClient)
  | reset
  /-- the request is on its way -/
  | sending
  | finished (ok : Bool)
  deriving DecidableEq, Repr

/-- `direct` are the direct connections it has taken; `sawDisabled`: Tor was disabled since it
began. -/
structure Request where
  client : ℕ
  tor : Bool
  retry : Bool
  pc : RequestPc
  retried : Bool
  direct : List DirectUse
  viaTor : Option TorClient
  sawDisabled : Bool
  deriving DecidableEq, Repr

inductive Answer
  | ok
  | failed (connectionError : Bool)
  | dropped
  deriving DecidableEq, Repr

inductive ClientEffect
  | none
  | lock
  | unlock (channel : Bool)
  /-- `reset_connection` -/
  | reset
  deriving DecidableEq, Repr

namespace Request

/-- A call with retry selects again, once. -/
def fail (r : Request) (connectionError : Bool) : Request :=
  if r.retry && !r.retried && connectionError then { r with pc := .reset, retried := true }
  else { r with pc := .finished false }

def goDirect (r : Request) (kind : ClientKind) : Request :=
  { r with pc := if kind = .grpc then .readChannel else .sendDirect }

def take (r : Request) (use : DirectUse) : Request :=
  { r with pc := .sending, direct := use :: r.direct }

def step (m : TorManager) (client : Client) (r : Request) (answer : Answer) :
    Option (Request × ClientEffect) :=
  match r.pc, answer with
  | .finished _, _ => none
  | .connecting, .dropped => some ({ r with pc := .finished false }, .unlock false)
  | _, .dropped => some ({ r with pc := .finished false }, .none)
  | .select, .failed connectionError =>
    -- the error of the selector itself
    if client.tor && m.inner.state.enabled && m.inner.state.status != .on then
      some (r.fail connectionError, .none)
    else none
  | .select, .ok =>
    if !client.tor || !m.inner.state.enabled then some (r.goDirect client.kind, .none)
    else if m.inner.state.status = .on then some ({ r with pc := .selectClient }, .none)
    else none
  | .selectClient, answer =>
    match m.torClient, answer with
    | some c, .ok => some ({ r with pc := .connectTor c }, .none)
    | none, .failed connectionError => some (r.fail connectionError, .none)
    | _, _ => none
  | .readChannel, .ok =>
    if client.writer.isSome then none
    else if client.directChannel then some (r.take .cached, .none)
    else some ({ r with pc := .writeChannel }, .none)
  | .writeChannel, .ok =>
    if client.writer.isSome then none
    else if client.directChannel then some (r.take .cached, .none)
    else some ({ r with pc := .connecting, direct := .opened :: r.direct }, .lock)
  | .writeChannel, .failed connectionError =>
    -- the endpoint is not a URL
    if client.writer.isSome || client.directChannel then none
    else some (r.fail connectionError, .none)
  | .connecting, .ok => some ({ r with pc := .sending }, .unlock true)
  | .connecting, .failed connectionError => some (r.fail connectionError, .unlock false)
  | .sendDirect, .ok => some (r.take .http, .none)
  | .connectTor c, .ok => some ({ r with pc := .sending, viaTor := some c }, .none)
  | .connectTor _, .failed connectionError => some (r.fail connectionError, .none)
  | .reset, .ok =>
    if client.writer.isSome then none else some ({ r with pc := .select }, .reset)
  | .sending, .ok => some ({ r with pc := .finished true }, .none)
  | .sending, .failed _ => some ({ r with pc := .finished false }, .none)
  | _, _ => none

def inFlight (r : Request) : Bool :=
  match r.pc with
  | .finished _ => false
  | _ => true

def observe (enabled : Bool) (r : Request) : Request :=
  if r.inFlight then { r with sawDisabled := r.sawDisabled || !enabled } else r

end Request

/-! ## The network -/

structure Network where
  tor : TorManager
  clients : List Client
  requests : List Request

namespace Network

inductive Action
  | tor (a : TorManager.Action)
  | newClient (kind : ClientKind) (tor : Bool)
  | request (client : ℕ) (retry : Bool)
  | step (i : ℕ) (answer : Answer)
  deriving DecidableEq, Repr

def applyEffect (client : Client) (i : ℕ) : ClientEffect → Client
  | .none => client
  | .lock => { client with writer := some i }
  | .unlock channel => { client with writer := none, directChannel := channel }
  | .reset => { client with directChannel := false }

def move (n : Network) : Action → Option Network
  | .tor a => (n.tor.step a).map fun tor => { n with tor }
  | .newClient kind tor => some { n with clients := n.clients ++ [⟨kind, tor, false, none⟩] }
  | .request client retry =>
    n.clients[client]?.map fun c =>
      { n with
        requests := n.requests ++
          [⟨client, c.tor, retry && c.kind == .grpc, .select, false, [], none, false⟩] }
  | .step i answer =>
    n.requests[i]?.bind fun r => n.clients[r.client]?.bind fun client =>
      (r.step n.tor client answer).map fun (r', effect) =>
        { n with
          requests := n.requests.set i r'
          clients := n.clients.set r.client (applyEffect client i effect) }

def observe (n : Network) : Network :=
  { n with requests := n.requests.map (Request.observe n.tor.inner.state.enabled) }

def step (n : Network) (a : Action) : Option Network := (n.move a).map observe

end Network

/-- **All interleavings** of requests with the Tor manager. -/
def network : System Network Network.Action where
  init n := ∃ initial, n = ⟨.new initial, [], []⟩
  step := Network.step

/-! ## The invariant -/

def RequestPc.onDirect : RequestPc → Bool
  | .readChannel | .writeChannel | .connecting | .sendDirect => true
  | _ => false

def RequestPc.connected : RequestPc → Bool
  | .connecting | .sending | .finished true => true
  | _ => false

/-- Whatever the manager does at the same time. -/
structure Request.Safe (r : Request) : Prop where
  direct : r.tor = true → r.pc.onDirect = true ∨ r.direct ≠ [] → r.sawDisabled = true
  connected : r.pc.connected = true → r.direct ≠ [] ∨ r.viaTor ≠ none

structure Request.Ok (enabled : Bool) (r : Request) : Prop extends r.Safe where
  current : r.inFlight = true → enabled = false → r.sawDisabled = true

/-- **What a step can make of a request**; `disabled`: it may take the direct transport. -/
inductive Request.Moves (disabled : Prop) (r : Request) : Request → Prop
  | stop : Moves disabled r { r with pc := .finished false }
  | retry : Moves disabled r { r with pc := .reset, retried := true }
  | goDirect (kind : ClientKind) (hpc : r.pc = .select) (h : disabled) :
    Moves disabled r (r.goDirect kind)
  | select (pc : RequestPc) (hdirect : pc.onDirect = false) (hconnected : pc.connected = false) :
    Moves disabled r { r with pc }
  | writeChannel (hpc : r.pc = .readChannel) : Moves disabled r { r with pc := .writeChannel }
  | take (use : DirectUse) (hpc : r.pc.onDirect = true) : Moves disabled r (r.take use)
  | connect (hpc : r.pc = .writeChannel) :
    Moves disabled r { r with pc := .connecting, direct := .opened :: r.direct }
  | send (hpc : r.pc = .connecting) : Moves disabled r { r with pc := .sending }
  | sendTor (c : TorClient) : Moves disabled r { r with pc := .sending, viaTor := some c }
  | finish (hpc : r.pc = .sending) : Moves disabled r { r with pc := .finished true }

theorem Request.moves_fail (disabled : Prop) (r : Request) (connectionError : Bool) :
    r.Moves disabled (r.fail connectionError) := by
  unfold Request.fail
  split_ifs
  · exact .retry
  · exact .stop

variable {m : TorManager} {client : Client} {r r' : Request} {answer : Answer}
  {effect : ClientEffect} {n : Network}

theorem Request.moves_of_step (hstep : r.step m client answer = some (r', effect)) :
    r.Moves (client.tor = false ∨ m.inner.state.enabled = false) r' := by
  unfold Request.step at hstep
  split at hstep
  -- finished
  · cases hstep
  -- dropped by the caller
  · cases hstep
    exact .stop
  · cases hstep
    exact .stop
  -- the selection
  · split_ifs at hstep
    cases hstep
    exact moves_fail _ _ _
  next hpc =>
    split_ifs at hstep with hdisabled hon
    · cases hstep
      exact .goDirect _ hpc (by simpa using hdisabled)
    · cases hstep
      exact .select _ rfl rfl
  · split at hstep
    · cases hstep
      exact .select _ rfl rfl
    · cases hstep
      exact moves_fail _ _ _
    · cases hstep
  -- the direct channel
  next hpc =>
    split_ifs at hstep
    · cases hstep
      exact .take _ (by rw [hpc]; rfl)
    · cases hstep
      exact .writeChannel hpc
  next hpc =>
    split_ifs at hstep
    · cases hstep
      exact .take _ (by rw [hpc]; rfl)
    · cases hstep
      exact .connect hpc
  · split_ifs at hstep
    cases hstep
    exact moves_fail _ _ _
  next hpc =>
    cases hstep
    exact .send hpc
  · cases hstep
    exact moves_fail _ _ _
  next hpc =>
    cases hstep
    exact .take _ (by rw [hpc]; rfl)
  -- the Tor client
  · cases hstep
    exact .sendTor _
  · cases hstep
    exact moves_fail _ _ _
  · split_ifs at hstep
    cases hstep
    exact .select _ rfl rfl
  -- the request itself
  next hpc =>
    cases hstep
    exact .finish hpc
  · cases hstep
    exact .stop
  · cases hstep

/-- It goes direct only after a selection that found Tor disabled. -/
theorem Request.Ok.step (h : r.Ok m.inner.state.enabled) (htor : client.tor = r.tor)
    (hstep : r.step m client answer = some (r', effect)) : r'.Safe := by
  obtain ⟨⟨hdirect, hconnected⟩, hcurrent⟩ := h
  cases moves_of_step hstep with
  | stop | retry => exact ⟨fun ht hd => hdirect ht (.inr (hd.resolve_left (by nofun))), nofun⟩
  | goDirect kind hpc hdisabled =>
    -- the selection found Tor disabled, while the request was in flight
    refine ⟨fun ht _ => ?_, ?_⟩
    · have hoff := hdisabled.resolve_left (by simp [htor, show r.tor = true from ht])
      exact hcurrent (by simp [inFlight, hpc]) hoff
    · cases kind <;> nofun
  | select pc hpc hpc' =>
    exact ⟨fun ht hd => hdirect ht (.inr (hd.resolve_left (by simp [hpc]))), by simp [hpc']⟩
  | writeChannel hpc => exact ⟨fun ht _ => hdirect ht (.inl (by rw [hpc]; rfl)), nofun⟩
  | take use hpc =>
    exact ⟨fun ht _ => hdirect ht (.inl hpc), fun _ => .inl (by simp [Request.take])⟩
  | connect hpc =>
    exact ⟨fun ht _ => hdirect ht (.inl (by rw [hpc]; rfl)), fun _ => .inl (by simp)⟩
  | send hpc =>
    exact ⟨fun ht _ => hdirect ht (.inl (by rw [hpc]; rfl)),
      fun _ => hconnected (by rw [hpc]; rfl)⟩
  | sendTor c =>
    exact ⟨fun ht hd => hdirect ht (.inr (hd.resolve_left (by nofun))), fun _ => .inr (by simp)⟩
  | finish hpc =>
    exact ⟨fun ht hd => hdirect ht (.inr (hd.resolve_left (by nofun))),
      fun _ => hconnected (by rw [hpc]; rfl)⟩

theorem Request.step_client (hstep : r.step m client answer = some (r', effect)) :
    r'.client = r.client ∧ r'.tor = r.tor ∧ r'.sawDisabled = r.sawDisabled := by
  cases moves_of_step hstep <;> exact ⟨rfl, rfl, rfl⟩

theorem Request.Safe.observe (h : r.Safe) (enabled : Bool) : (r.observe enabled).Ok enabled := by
  obtain ⟨hdirect, hconnected⟩ := h
  unfold Request.observe
  split_ifs with hflight
  · refine ⟨⟨fun htor hd => ?_, hconnected⟩, fun _ hoff => ?_⟩
    · simp [hdirect htor hd]
    · simp [hoff]
  · exact ⟨⟨hdirect, hconnected⟩, fun hr => absurd hr hflight⟩

@[simp] theorem Request.observe_client (r : Request) (enabled : Bool) :
    (r.observe enabled).client = r.client ∧ (r.observe enabled).tor = r.tor := by
  unfold Request.observe
  split_ifs <;> exact ⟨rfl, rfl⟩

@[simp] theorem Network.applyEffect_tor (client : Client) (i : ℕ) (effect : ClientEffect) :
    (Network.applyEffect client i effect).tor = client.tor := by
  cases effect <;> rfl

def Network.Knows (n : Network) (r : Request) : Prop :=
  ∃ c, n.clients[r.client]? = some c ∧ c.tor = r.tor

theorem Network.Knows.set (h : n.Knows r) {j : ℕ} {c c' : Client} (hc : n.clients[j]? = some c)
    (htor : c'.tor = c.tor) :
    Network.Knows { n with clients := n.clients.set j c' } r := by
  obtain ⟨c₀, hc₀, htor₀⟩ := h
  by_cases hj : j = r.client
  · subst hj
    refine ⟨c', List.getElem?_set_self (List.getElem?_eq_some_iff.mp hc).1, ?_⟩
    rw [htor, ← htor₀, Option.some.inj (hc.symm.trans hc₀)]
  · exact ⟨c₀, by rwa [List.getElem?_set_ne hj], htor₀⟩

def Network.Inv (n : Network) : Prop :=
  ∀ r ∈ n.requests, r.Ok n.tor.inner.state.enabled ∧ n.Knows r

theorem Network.Inv.move {n' : Network} {a : Network.Action} (h : n.Inv)
    (hmove : n.move a = some n') : ∀ r ∈ n'.requests, r.Safe ∧ n'.Knows r := by
  cases a with
  | tor a =>
    obtain ⟨m, -, rfl⟩ := Option.map_eq_some_iff.mp hmove
    exact fun r hr => ⟨(h r hr).1.toSafe, (h r hr).2⟩
  | newClient kind tor =>
    cases hmove
    intro r hr
    obtain ⟨hok, c, hc, htor⟩ := h r hr
    have hlt := (List.getElem?_eq_some_iff.mp hc).1
    exact ⟨hok.toSafe, c, by rwa [List.getElem?_append_left hlt], htor⟩
  | request client retry =>
    obtain ⟨c, hc, rfl⟩ := Option.map_eq_some_iff.mp hmove
    intro r hr
    rcases List.mem_append.mp hr with hr | hr
    · exact ⟨(h r hr).1.toSafe, (h r hr).2⟩
    · obtain rfl := List.mem_singleton.mp hr
      exact ⟨⟨by simp [RequestPc.onDirect], by simp [RequestPc.connected]⟩, c, hc, rfl⟩
  | step i answer =>
    obtain ⟨r₀, hr₀, hmove⟩ := Option.bind_eq_some_iff.mp hmove
    obtain ⟨c, hc, hmove⟩ := Option.bind_eq_some_iff.mp hmove
    obtain ⟨⟨r', effect⟩, hstep, rfl⟩ := Option.map_eq_some_iff.mp hmove
    obtain ⟨hok, c', hc', htor⟩ := h r₀ (List.mem_of_getElem? hr₀)
    obtain rfl := Option.some.inj (hc.symm.trans hc')
    have hknows {r : Request} (hr : n.Knows r) := hr.set hc (applyEffect_tor c i effect)
    intro r hr
    rcases List.mem_or_eq_of_mem_set hr with hr | rfl
    · exact ⟨(h r hr).1.toSafe, hknows (h r hr).2⟩
    · obtain ⟨hclient, htor', -⟩ := Request.step_client hstep
      exact ⟨hok.step htor hstep, hknows ⟨c, hclient ▸ hc, htor.trans htor'.symm⟩⟩

theorem Network.Inv.step {n' : Network} {a : Network.Action} (h : n.Inv)
    (hstep : n.step a = some n') : n'.Inv := by
  obtain ⟨n₁, hmove, rfl⟩ := Option.map_eq_some_iff.mp hstep
  intro r hr
  obtain ⟨r₀, hr₀, rfl⟩ := List.mem_map.mp hr
  obtain ⟨hsafe, c, hc, htor⟩ := h.move hmove r₀ hr₀
  obtain ⟨hclient, htor'⟩ := r₀.observe_client n₁.tor.inner.state.enabled
  exact ⟨hsafe.observe _, c, hclient ▸ hc, htor.trans htor'.symm⟩

theorem network_inv (h : Reach network Free n) : n.Inv :=
  h.invariant (by rintro _ ⟨initial, rfl⟩ r hr; cases hr) fun _ _ _ hn _ hstep => hn.step hstep

theorem Request.Safe.overTor (h : r.Safe) (htor : r.tor = true) (hsaw : r.sawDisabled = false) :
    r.direct = [] ∧ (r.pc.connected = true → ∃ c, r.viaTor = some c) := by
  have hnil : r.direct = [] := by
    by_contra hd
    exact absurd (h.direct htor (.inr hd)) (by simp [hsaw])
  exact ⟨hnil, fun hc => Option.ne_none_iff_exists'.mp ((h.connected hc).resolve_left (· hnil))⟩

/-- **A request of a client with a manager goes direct only if Tor was disabled meanwhile.** -/
theorem direct_only_if_disabled {n : Network} (h : Reach network Free n) {r : Request}
    (hr : r ∈ n.requests) (htor : r.tor = true) :
    (r.direct ≠ [] → r.sawDisabled = true) ∧
      (r.sawDisabled = false →
        r.direct = [] ∧ (r.pc = .sending ∨ r.pc = .finished true → ∃ c, r.viaTor = some c)) := by
  have hsafe : r.Safe := (network_inv h r hr).1.toSafe
  refine ⟨fun hd => hsafe.direct htor (.inr hd), fun hsaw => ?_⟩
  obtain ⟨hnil, hvia⟩ := hsafe.overTor htor hsaw
  refine ⟨hnil, fun hpc => hvia ?_⟩
  rcases hpc with hpc | hpc <;> rw [hpc] <;> rfl

/-- The third request does not take the direct channel of the second: it fails. -/
def toggledTor : List Network.Action :=
  [.newClient .grpc true, .tor (.setEnabled true), .tor (.spawn 0), .tor (.task 0 .proceed),
    .tor (.task 0 .proceed), .tor (.task 0 .proceed), .tor (.task 0 .proceed),
    .tor (.task 0 .proceed), .request 0 true, .step 0 .ok, .step 0 .ok, .step 0 .ok, .step 0 .ok,
    .tor (.setEnabled false), .request 0 true, .step 1 .ok, .step 1 .ok, .step 1 .ok, .step 1 .ok,
    .tor (.setEnabled true), .request 0 false, .step 2 (.failed false)]

theorem direct_only_if_disabled_toggled : ∃ n r₀ r₁ r₂, Reach network Free n ∧
    n.requests = [r₀, r₁, r₂] ∧ r₀.viaTor = some ⟨0⟩ ∧ r₁.direct = [.opened] ∧
    r₁.sawDisabled = true ∧ r₂.direct = [] ∧ r₂.pc = .finished false := by
  obtain ⟨n, hn, hrequests⟩ := exec_reach (S := network) (G := Free)
    (p := fun n => n.requests =
      [⟨0, true, true, .finished true, false, [], some ⟨0⟩, false⟩,
        ⟨0, true, true, .sending, false, [.opened], none, true⟩,
        ⟨0, true, false, .finished false, false, [], none, false⟩])
    toggledTor ⟨⟨false, .off, none⟩, rfl⟩ (along_free _ _) (by decide)
  have hr₁ := direct_only_if_disabled hn (r := ⟨0, true, true, .sending, false, [.opened], none,
    true⟩) (by simp [hrequests]) rfl
  have hr₂ := direct_only_if_disabled hn (r := ⟨0, true, false, .finished false, false, [], none,
    false⟩) (by simp [hrequests]) rfl
  exact ⟨n, _, _, _, hn, hrequests, rfl, rfl, hr₁.1 (by simp), (hr₂.2 rfl).1, rfl⟩

end ZbagTor
