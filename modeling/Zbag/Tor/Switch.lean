import Zbag.Tor.Transport

/-!
# Tor — enabling Tor under running syncs

`zbag_set_tor_enabled` stops the running syncs, enables Tor and starts the syncs again, so that the
direct channels which their clients have cached go out of use. A stop sets the cancel flag of the
sync and aborts its task. The blocks are downloaded by a task of their own, which is not aborted and
reads the flag only between two batches: a stream that is open when the command returns is read on.
-/

namespace ZbagSwitch

open Transition ZbagTor

/-! ## Syncs and downloads -/

/-- `inserted`: its job is in the table; `channel`: the direct channel opened last. -/
structure Sync where
  wallet : ℕ
  inserted : Bool
  cancelled : Bool
  aborted : Bool
  running : Bool
  client : Client
  channel : ℕ
  deriving DecidableEq, Repr

inductive DownloadResult
  | batch
  | rangeComplete
  | cancelled
  | error
  deriving DecidableEq, Repr

inductive DownloadPc
  | check
  /-- in `get_block_range` -/
  | request (attempt : ℕ) (r : Request)
  /-- with so many blocks read -/
  | stream (attempt blocks : ℕ)
  | sleep (attempt : ℕ)
  | send (result : DownloadResult)
  | finished
  deriving DecidableEq, Repr

/-- `via`: the direct channel that its attempt has taken. -/
structure Download where
  sync : ℕ
  pc : DownloadPc
  via : Option ℕ
  deriving DecidableEq, Repr

inductive DownloadAnswer
  | goesOn
  /-- `range_end` is reached -/
  | rangeDone
  | request (answer : Answer)
  | block
  | ended
  | failed
  | accepted
  | closed
  deriving DecidableEq, Repr

def maxRetries : ℕ := 5

def newRequest (i : ℕ) (retry : Bool) : Request := ⟨i, true, retry, .select, false, [], none, false⟩

/-- `channels` have been opened. -/
def takenChannel (y : Sync) (channels : ℕ) (r : Request) : Option ℕ :=
  match r.pc with
  | .readChannel | .writeChannel => some y.channel
  | .connecting => some channels
  | _ => none

namespace Download

def tries (d : Download) (attempt : ℕ) : Download :=
  { d with pc := .request attempt (newRequest d.sync false), via := none }

def streamRead (d : Download) (attempt blocks : ℕ) : Download :=
  if blocks ≠ 0 ∨ maxRetries ≤ attempt then { d with pc := .send .batch } else d.tries (attempt + 1)

def requested (d : Download) (y : Sync) (channels attempt : ℕ) (r r' : Request) : Download :=
  match r'.pc with
  | .finished true => { d with pc := .stream attempt 0 }
  | .finished false =>
    if attempt < maxRetries then { d with pc := .sleep (attempt + 1) }
    else { d with pc := .send .error }
  | .sending => { d with pc := .request attempt r', via := takenChannel y channels r }
  | _ => { d with pc := .request attempt r' }

end Download

def downloadStep (m : TorManager) (y : Sync) (channels : ℕ) (d : Download) :
    DownloadAnswer → Option (Download × ClientEffect)
  | .goesOn =>
    match d.pc with
    | .check => some (if y.cancelled then { d with pc := .send .cancelled } else d.tries 0, .none)
    | .sleep attempt => some (d.tries (attempt + 1), .none)
    | _ => none
  | .rangeDone =>
    match d.pc with
    | .check => some ({ d with pc := .send .rangeComplete }, .none)
    | _ => none
  | .request answer =>
    match d.pc with
    | .request attempt r =>
      -- no timeout of the task's own drops the request
      if answer = .dropped then none
      else (r.step m y.client answer).map fun (r', effect) =>
        (d.requested y channels attempt r r', effect)
    | _ => none
  | .block =>
    match d.pc with
    | .stream attempt blocks => some ({ d with pc := .stream attempt (blocks + 1) }, .none)
    | _ => none
  | .ended =>
    match d.pc with
    | .stream attempt blocks => some (d.streamRead attempt blocks, .none)
    | _ => none
  | .failed =>
    match d.pc with
    | .stream attempt blocks =>
      some (if attempt < maxRetries then d.streamRead attempt blocks
        else { d with pc := .send .error }, .none)
    | _ => none
  | .accepted =>
    match d.pc with
    | .send result =>
      -- the receiver lives in the task of the sync
      if y.running then
        some ({ d with pc := if result = .batch then .check else .finished }, .none)
      else none
    | _ => none
  | .closed =>
    match d.pc with
    | .send _ => some ({ d with pc := .finished }, .none)
    | _ => none

/-! ## The command -/

inductive CommandPc
  | idle
  | stopping (wallets : List ℕ)
  | enabling
  | persisting
  | restarting (wallets : List ℕ)
  /-- before the job of sync `i` is in the table -/
  | inserting (i : ℕ) (wallets : List ℕ)
  | returned (ok : Bool)
  deriving DecidableEq, Repr

/-- With `enabled = true`; `opened` channels had been opened when it began. -/
structure Command where
  pc : CommandPc
  running : List ℕ
  opened : ℕ
  deriving DecidableEq, Repr

structure App where
  tor : TorManager
  /-- the jobs of the sync service -/
  jobs : List (ℕ × ℕ)
  syncs : List Sync
  downloads : List Download
  /-- the other requests of the syncs -/
  calls : List Request
  channels : ℕ
  command : Command
  deriving DecidableEq, Repr

inductive Action
  | tor (a : TorManager.Action)
  | spawnSync (wallet : ℕ)
  /-- and stores its job -/
  | insertJob (i : ℕ)
  | stopSync (wallet : ℕ)
  | finishSync (i : ℕ)
  | dropSync (i : ℕ)
  | spawnDownload (i : ℕ)
  | download (k : ℕ) (answer : DownloadAnswer)
  | newCall (i : ℕ) (retry : Bool)
  | call (k : ℕ) (answer : Answer)
  | command (ok : Bool)
  deriving DecidableEq, Repr

def Sync.after (y : Sync) (channels i : ℕ) (effect : ClientEffect) : Sync :=
  { y with
    client := Network.applyEffect y.client i effect
    channel := if effect = .unlock true then channels else y.channel }

def channelsAfter (channels : ℕ) (effect : ClientEffect) : ℕ :=
  if effect = .unlock true then channels + 1 else channels

namespace App

/-- A new client without a channel. -/
def spawnSync (s : App) (wallet : ℕ) : Option App :=
  if s.jobs.any (·.1 == wallet) then none
  else some { s with
    syncs := s.syncs ++ [⟨wallet, false, false, false, true, ⟨.grpc, true, false, none⟩, 0⟩] }

def removeJob (s : App) (wallet : ℕ) : App :=
  { s with jobs := s.jobs.filter (·.1 != wallet) }

def modifySync (s : App) (i : ℕ) (f : Sync → Sync) : App :=
  { s with syncs := s.syncs.modify i f }

def stopSync (s : App) (wallet : ℕ) : App :=
  match s.jobs.lookup wallet with
  | none => s
  | some i =>
    (s.removeJob wallet).modifySync i fun y => { y with cancelled := true, aborted := true }

/-- A job whose task has ended is taken out again. -/
def insertJob (s : App) (i : ℕ) (y : Sync) : App :=
  let s := (s.removeJob y.wallet).modifySync i fun y => { y with inserted := true }
  if y.running then { s with jobs := (y.wallet, i) :: s.jobs } else s

def setPc (s : App) (pc : CommandPc) : App := { s with command := { s.command with pc } }

def commandStep (s : App) (ok : Bool) : Option App :=
  match s.command.pc with
  | .idle =>
    let wallets := s.jobs.map Prod.fst
    some { s with command := ⟨.stopping wallets, wallets, s.channels⟩ }
  | .stopping [] => some (s.setPc .enabling)
  | .stopping (w :: wallets) => some ((s.stopSync w).setPc (.stopping wallets))
  | .enabling =>
    if ok then some ({ s with tor := s.tor.setEnabled true }.setPc .persisting)
    else some (s.setPc (.returned false))
  | .persisting =>
    some (s.setPc (if ok then .restarting s.command.running else .returned false))
  | .restarting [] => some (s.setPc (.returned true))
  | .restarting (w :: wallets) =>
    if ok then (s.spawnSync w).map (setPc · (.inserting s.syncs.length wallets))
    else some (s.setPc (.restarting wallets))
  | .inserting i wallets =>
    if s.syncs[i]?.any Sync.inserted then some (s.setPc (.restarting wallets)) else none
  | .returned _ => none

def step (s : App) : Action → Option App
  | .tor a =>
    -- nobody disables Tor once the command has begun
    if a = .setEnabled false ∧ s.command.pc ≠ .idle then none
    else (s.tor.step a).map fun tor => { s with tor }
  | .spawnSync wallet => s.spawnSync wallet
  | .insertJob i =>
    s.syncs[i]?.bind fun y => if y.inserted then none else some (s.insertJob i y)
  | .stopSync wallet => some (s.stopSync wallet)
  | .finishSync i =>
    s.syncs[i]?.bind fun y =>
      if y.running then
        some ((s.removeJob y.wallet).modifySync i fun y => { y with running := false })
      else none
  | .dropSync i =>
    s.syncs[i]?.bind fun y =>
      if y.aborted then some (s.modifySync i fun y => { y with running := false }) else none
  | .spawnDownload i =>
    s.syncs[i]?.bind fun y =>
      if y.running then some { s with downloads := s.downloads ++ [⟨i, .check, none⟩] } else none
  | .download k answer =>
    s.downloads[k]?.bind fun d => s.syncs[d.sync]?.bind fun y =>
      (downloadStep s.tor y s.channels d answer).map fun (d', effect) =>
        { s with
          downloads := s.downloads.set k d'
          syncs := s.syncs.set d.sync (y.after s.channels k effect)
          channels := channelsAfter s.channels effect }
  | .newCall i retry =>
    s.syncs[i]?.map fun _ => { s with calls := s.calls ++ [newRequest i retry] }
  | .call k answer =>
    s.calls[k]?.bind fun r => s.syncs[r.client]?.bind fun y =>
      (r.step s.tor y.client answer).map fun (r', effect) =>
        { s with
          calls := s.calls.set k r'
          syncs := s.syncs.set r.client (y.after s.channels k effect)
          channels := channelsAfter s.channels effect }
  | .command ok => s.commandStep ok

end App

/-- **One command that enables Tor**, in any interleaving with syncs and bootstraps. -/
def torSwitch : System App Action where
  init s := ∃ initial, s = ⟨.new initial, [], [], [], [], 0, ⟨.idle, [], 0⟩⟩
  step := App.step

/-! ## Old channels -/

def Sync.cachesOld (opened : ℕ) (y : Sync) : Bool := y.client.directChannel && y.channel < opened

namespace Download

/-- For a request for blocks or for their stream. -/
def directUse (d : Download) : Option ℕ :=
  match d.pc with
  | .request _ r => if r.pc = .sending then d.via else none
  | .stream _ _ => d.via
  | _ => none

def atChannel (d : Download) : Bool :=
  match d.pc with
  | .request _ r => r.pc == .readChannel || r.pc == .writeChannel
  | _ => false

/-- It is inside a request or a stream over an old channel, or about to take one. -/
def holdsOld (opened : ℕ) (cached : Bool) (d : Download) : Bool :=
  d.directUse.any (· < opened) || d.atChannel && cached

end Download

namespace App

def cachesOld (s : App) (i : ℕ) : Bool := s.syncs[i]?.any (Sync.cachesOld s.command.opened)

def holdsOld (s : App) (d : Download) : Bool :=
  d.holdsOld s.command.opened (s.cachesOld d.sync)

def directUse (s : App) : Action → Option ℕ
  | .download k _ => s.downloads[k]?.bind Download.directUse
  | _ => none

/-- The command has returned, and the step uses a direct channel opened before it. -/
def Leaks (s : App) (a : Action) : Prop :=
  s.command.pc = .returned true ∧ ∃ c ∈ s.directUse a, c < s.command.opened

instance (s : App) (a : Action) : Decidable (s.Leaks a) :=
  inferInstanceAs (Decidable (_ ∧ ∃ c ∈ s.directUse a, c < s.command.opened))

def returns (s : App) : Action → Bool
  | .command _ => s.command.pc == .restarting []
  | _ => false

end App

/-- When the command returns, no download is inside a request or a stream over an old channel. -/
def Drained (s : App) (a : Action) : Prop :=
  s.returns a = true → ∀ d ∈ s.downloads, s.holdsOld d = false

instance (s : App) (a : Action) : Decidable (Drained s a) :=
  inferInstanceAs (Decidable (s.returns a = true → ∀ d ∈ s.downloads, s.holdsOld d = false))

/-! ## What a step of a request does to the channels -/

inductive ChannelStep (m : TorManager) (client : Client) (r : Request) :
    Request → ClientEffect → Prop
  | select (r' : Request) (hdisabled : client.tor = false ∨ m.inner.state.enabled = false) :
    ChannelStep m client r r' .none
  | other (r' : Request) (effect : ClientEffect) (hdirect : r'.pc.onDirect = false)
      (hconnected : r'.pc.connected = false) (hlock : effect ≠ .lock) :
    ChannelStep m client r r' effect
  | write (hpc : r.pc = .readChannel) (hnone : client.directChannel = false) :
    ChannelStep m client r { r with pc := .writeChannel } .none
  | cached (hpc : r.pc = .readChannel ∨ r.pc = .writeChannel)
      (hsome : client.directChannel = true) :
    ChannelStep m client r (r.take .cached) .none
  | lock (r' : Request) (hpc : r'.pc = .connecting) (hnone : client.directChannel = false) :
    ChannelStep m client r r' .lock
  | opened (hpc : r.pc = .connecting) :
    ChannelStep m client r { r with pc := .sending } (.unlock true)
  | elsewhere (r' : Request) (htaken : ∀ y channels, takenChannel y channels r = none)
      (hpc : r'.pc = .sending) : ChannelStep m client r r' .none
  | answered (hpc : r.pc = .sending) : ChannelStep m client r { r with pc := .finished true } .none

theorem fail_pc (r : Request) (connectionError : Bool) :
    (r.fail connectionError).pc.onDirect = false ∧
      (r.fail connectionError).pc.connected = false := by
  unfold Request.fail
  split_ifs
  · exact ⟨rfl, rfl⟩
  · exact ⟨rfl, rfl⟩

variable {r r' : Request} {attempt : ℕ}

theorem channelStep_of_step {m : TorManager} {client : Client} {answer : Answer}
    {effect : ClientEffect} (hstep : r.step m client answer = some (r', effect)) :
    ChannelStep m client r r' effect := by
  unfold Request.step at hstep
  split at hstep
  · cases hstep
  -- dropped by the caller
  · cases hstep
    exact .other _ _ rfl rfl (by nofun)
  · cases hstep
    exact .other _ _ rfl rfl (by nofun)
  -- the selection
  · split_ifs at hstep
    cases hstep
    exact .other _ _ (fail_pc _ _).1 (fail_pc _ _).2 (by nofun)
  · split_ifs at hstep with hdisabled hon
    · cases hstep
      exact .select _ (by simpa using hdisabled)
    · cases hstep
      exact .other _ _ rfl rfl (by nofun)
  · split at hstep
    · cases hstep
      exact .other _ _ rfl rfl (by nofun)
    · cases hstep
      exact .other _ _ (fail_pc _ _).1 (fail_pc _ _).2 (by nofun)
    · cases hstep
  -- the direct channel
  next hpc =>
    split_ifs at hstep with hwriter hsome
    · cases hstep
      exact .cached (.inl hpc) hsome
    · cases hstep
      exact .write hpc (by simpa using hsome)
  next hpc =>
    split_ifs at hstep with hwriter hsome
    · cases hstep
      exact .cached (.inr hpc) hsome
    · cases hstep
      exact .lock _ rfl (by simpa using hsome)
  · split_ifs at hstep
    cases hstep
    exact .other _ _ (fail_pc _ _).1 (fail_pc _ _).2 (by nofun)
  next hpc =>
    cases hstep
    exact .opened hpc
  · cases hstep
    exact .other _ _ (fail_pc _ _).1 (fail_pc _ _).2 (by nofun)
  -- other connections
  next hpc =>
    cases hstep
    exact .elsewhere _ (fun _ _ => by simp [takenChannel, hpc]) rfl
  next c hpc =>
    cases hstep
    exact .elsewhere _ (fun _ _ => by simp [takenChannel, hpc]) rfl
  · cases hstep
    exact .other _ _ (fail_pc _ _).1 (fail_pc _ _).2 (by nofun)
  · split_ifs at hstep
    cases hstep
    exact .other _ _ rfl rfl (by nofun)
  next hpc =>
    cases hstep
    exact .answered hpc
  · cases hstep
    exact .other _ _ rfl rfl (by nofun)
  · cases hstep

/-! ## Downloads keep away from old channels -/

variable {m : TorManager} {y : Sync} {d d' : Download} {channels opened i : ℕ}
  {effect : ClientEffect}

theorem cachesOld_after (hopened : opened ≤ channels) :
    (y.after channels i effect).cachesOld opened = true → y.cachesOld opened = true := by
  cases effect with
  | none | lock => exact id
  | unlock channel =>
    cases channel with
    | true =>
      have hnew : ¬ channels < opened := Nat.not_lt.mpr hopened
      simp [Sync.cachesOld, Sync.after, Network.applyEffect, hnew]
    | false => simp [Sync.cachesOld, Sync.after, Network.applyEffect]
  | reset => simp [Sync.cachesOld, Sync.after, Network.applyEffect]

theorem holdsOld_tries (cached : Bool) (attempt : ℕ) :
    (d.tries attempt).holdsOld opened cached = false := by
  simp [Download.holdsOld, Download.tries, Download.directUse, Download.atChannel, newRequest]

theorem holdsOld_streamRead (cached : Bool) (attempt blocks : ℕ) :
    (d.streamRead attempt blocks).holdsOld opened cached = false := by
  unfold Download.streamRead
  split_ifs
  · rfl
  · exact holdsOld_tries cached _

theorem holdsOld_idle (cached : Bool) (hdirect : r'.pc.onDirect = false)
    (hconnected : r'.pc.connected = false) :
    (d.requested y channels attempt r r').holdsOld opened cached = false := by
  unfold Download.requested
  split
  next hpc => simp [hpc, RequestPc.connected] at hconnected
  next hpc =>
    split_ifs
    · rfl
    · rfl
  next hpc => simp [hpc, RequestPc.connected] at hconnected
  next hsending =>
    have hread : r'.pc ≠ .readChannel := by
      intro h
      simp [h, RequestPc.onDirect] at hdirect
    have hwrite : r'.pc ≠ .writeChannel := by
      intro h
      simp [h, RequestPc.onDirect] at hdirect
    have hnot : r'.pc ≠ .sending := hsending
    simp [Download.holdsOld, Download.directUse, Download.atChannel, hread, hwrite, hnot]

/-- **With Tor enabled, a request gets hold of an old channel only from one.** -/
theorem holdsOld_requested (htor : y.client.tor = true) (henabled : m.inner.state.enabled = true)
    (hopened : opened ≤ channels) (hpc : d.pc = .request attempt r)
    (hstep : ChannelStep m y.client r r' effect)
    (h : (d.requested y channels attempt r r').holdsOld opened (y.cachesOld opened) = true) :
    d.holdsOld opened (y.cachesOld opened) = true := by
  cases hstep with
  | select r' hdisabled => simp [htor, henabled] at hdisabled
  | other r' effect hdirect hconnected hlock =>
    rw [holdsOld_idle _ hdirect hconnected] at h
    cases h
  | write hread hnone =>
    simp [Download.requested, Download.holdsOld, Download.directUse, Sync.cachesOld, hnone] at h
  | cached hat hsome =>
    have hlt : y.channel < opened := by
      rcases hat with hat | hat <;>
        simpa [Download.requested, Download.holdsOld, Download.directUse, Download.atChannel,
          Request.take, takenChannel, hat] using h
    have hold : y.cachesOld opened = true := by simp [Sync.cachesOld, hsome, hlt]
    rcases hat with hat | hat <;>
      simp [Download.holdsOld, Download.atChannel, hpc, hat, hold]
  | lock r' hconnecting hnone =>
    simp [Download.requested, Download.holdsOld, Download.directUse, Download.atChannel,
      hconnecting] at h
  | opened hconnecting =>
    have hnew : ¬ channels < opened := Nat.not_lt.mpr hopened
    simp [Download.requested, Download.holdsOld, Download.directUse, Download.atChannel,
      takenChannel, hconnecting, hnew] at h
  | elsewhere r' htaken hsending =>
    simp [Download.requested, Download.holdsOld, Download.directUse, Download.atChannel, htaken,
      hsending] at h
  | answered hsending =>
    simpa [Download.requested, Download.holdsOld, Download.directUse, Download.atChannel, hpc,
      hsending] using h

def Download.Quiet (d d' : Download) : Prop :=
  d'.sync = d.sync ∧
    ∀ opened cached, d'.holdsOld opened cached = true → d.holdsOld opened cached = true

theorem quiet_of_not_holds (hsync : d'.sync = d.sync)
    (h : ∀ opened cached, d'.holdsOld opened cached = false) : d.Quiet d' := by
  refine ⟨hsync, fun opened cached hold => ?_⟩
  rw [h] at hold
  cases hold

theorem quiet_tries (attempt : ℕ) : d.Quiet (d.tries attempt) :=
  quiet_of_not_holds rfl fun _ cached => holdsOld_tries cached attempt

theorem streamRead_sync (attempt blocks : ℕ) : (d.streamRead attempt blocks).sync = d.sync := by
  unfold Download.streamRead
  split_ifs
  · rfl
  · rfl

theorem quiet_streamRead (attempt blocks : ℕ) : d.Quiet (d.streamRead attempt blocks) :=
  quiet_of_not_holds (streamRead_sync ..) fun _ cached => holdsOld_streamRead cached attempt blocks

/-- **Everything a step of a download can do.** -/
theorem downloadStep_cases {answer : DownloadAnswer}
    (hstep : downloadStep m y channels d answer = some (d', effect)) :
    (∃ attempt r r', d.pc = .request attempt r ∧ d' = d.requested y channels attempt r r' ∧
      ChannelStep m y.client r r' effect) ∨
    effect = .none ∧ d.Quiet d' := by
  cases answer with
  | goesOn =>
    simp only [downloadStep] at hstep
    split at hstep
    · split_ifs at hstep
      · cases hstep
        exact .inr ⟨rfl, quiet_of_not_holds rfl fun _ _ => rfl⟩
      · cases hstep
        exact .inr ⟨rfl, quiet_tries 0⟩
    · cases hstep
      exact .inr ⟨rfl, quiet_tries _⟩
    · cases hstep
  | rangeDone =>
    simp only [downloadStep] at hstep
    split at hstep
    · cases hstep
      exact .inr ⟨rfl, quiet_of_not_holds rfl fun _ _ => rfl⟩
    · cases hstep
  | request answer =>
    simp only [downloadStep] at hstep
    split at hstep
    next attempt r hpc =>
      split_ifs at hstep
      obtain ⟨⟨r', effect'⟩, hr, heq⟩ := Option.map_eq_some_iff.mp hstep
      cases heq
      exact .inl ⟨attempt, r, r', hpc, rfl, channelStep_of_step hr⟩
    next => cases hstep
  | block =>
    simp only [downloadStep] at hstep
    split at hstep
    next attempt blocks hpc =>
      cases hstep
      refine .inr ⟨rfl, rfl, fun opened cached h => ?_⟩
      simpa [Download.holdsOld, Download.directUse, Download.atChannel, hpc] using h
    next => cases hstep
  | ended =>
    simp only [downloadStep] at hstep
    split at hstep
    · cases hstep
      exact .inr ⟨rfl, quiet_streamRead _ _⟩
    · cases hstep
  | failed =>
    simp only [downloadStep] at hstep
    split at hstep
    · split_ifs at hstep
      · cases hstep
        exact .inr ⟨rfl, quiet_streamRead _ _⟩
      · cases hstep
        exact .inr ⟨rfl, quiet_of_not_holds rfl fun _ _ => rfl⟩
    · cases hstep
  | accepted =>
    simp only [downloadStep] at hstep
    split at hstep
    · split_ifs at hstep
      · cases hstep
        exact .inr ⟨rfl, quiet_of_not_holds rfl fun _ _ => rfl⟩
      · cases hstep
        exact .inr ⟨rfl, quiet_of_not_holds rfl fun _ _ => rfl⟩
    · cases hstep
  | closed =>
    simp only [downloadStep] at hstep
    split at hstep
    · cases hstep
      exact .inr ⟨rfl, quiet_of_not_holds rfl fun _ _ => rfl⟩
    · cases hstep

theorem requested_sync : (d.requested y channels attempt r r').sync = d.sync := by
  unfold Download.requested
  split
  · rfl
  · split_ifs
    · rfl
    · rfl
  · rfl
  · rfl

theorem sync_of_downloadStep {answer : DownloadAnswer}
    (hstep : downloadStep m y channels d answer = some (d', effect)) : d'.sync = d.sync := by
  rcases downloadStep_cases hstep with ⟨attempt, r, r', -, rfl, -⟩ | ⟨-, hsync, -⟩
  · exact requested_sync
  · exact hsync

/-! ## The invariant -/

/-- The client has a Tor manager, and nobody opens a channel where there is one. -/
def Sync.Ok (y : Sync) : Prop :=
  y.client.tor = true ∧ (y.client.writer.isSome = true → y.client.directChannel = false)

theorem Sync.Ok.after (hy : y.Ok) (hstep : ChannelStep m y.client r r' effect) :
    (y.after channels i effect).Ok := by
  refine ⟨by simpa [Sync.after] using hy.1, ?_⟩
  cases effect with
  | none => exact hy.2
  | lock =>
    intro _
    cases hstep with
    | other r' effect hdirect hconnected hlock => exact absurd rfl hlock
    | lock r' hpc hnone => exact hnone
  | unlock channel | reset => simp [Sync.after, Network.applyEffect]

def CommandPc.enabled : CommandPc → Bool
  | .persisting | .restarting _ | .inserting _ _ | .returned true => true
  | _ => false

namespace App

def Settled (s : App) : Prop := ∀ d ∈ s.downloads, s.holdsOld d = false

structure Inv (s : App) : Prop where
  clients : ∀ y ∈ s.syncs, y.Ok
  known : ∀ d ∈ s.downloads, d.sync < s.syncs.length
  opened : s.command.opened ≤ s.channels
  enabled : s.command.pc.enabled = true → s.tor.inner.state.enabled = true
  settled : s.command.pc = .returned true → s.Settled

/-! ### Steps that keep clients and requests as they are -/

structure Frame (s t : App) : Prop where
  tor : t.tor = s.tor
  command : t.command = s.command
  channels : t.channels = s.channels
  clients : (∀ y ∈ s.syncs, y.Ok) → ∀ y ∈ t.syncs, y.Ok
  known : (∀ d ∈ s.downloads, d.sync < s.syncs.length) → ∀ d ∈ t.downloads, d.sync < t.syncs.length
  cached : ∀ i, t.cachesOld i = true → s.cachesOld i = true
  downloads : ∀ d ∈ t.downloads, d ∈ s.downloads ∨ d.pc = .check

variable {s t u : App}

theorem Frame.refl : Frame s s := ⟨rfl, rfl, rfl, id, id, fun _ => id, fun _ => .inl⟩

theorem Frame.removeJob (s : App) (wallet : ℕ) : Frame s (s.removeJob wallet) :=
  ⟨rfl, rfl, rfl, id, id, fun _ => id, fun _ => .inl⟩

theorem Frame.trans (h₁ : Frame s t) (h₂ : Frame t u) : Frame s u where
  tor := h₂.tor.trans h₁.tor
  command := h₂.command.trans h₁.command
  channels := h₂.channels.trans h₁.channels
  clients := h₂.clients ∘ h₁.clients
  known := h₂.known ∘ h₁.known
  cached i := h₁.cached i ∘ h₂.cached i
  downloads d hd := (h₂.downloads d hd).elim (h₁.downloads d) .inr

theorem Frame.modifySync (s : App) (i : ℕ) {f : Sync → Sync}
    (hclient : ∀ y, (f y).client = y.client) (hchannel : ∀ y, (f y).channel = y.channel) :
    Frame s (s.modifySync i f) where
  tor := rfl
  command := rfl
  channels := rfl
  clients hs y hy := by
    obtain ⟨j, hj⟩ := List.mem_iff_getElem?.mp hy
    rw [App.modifySync, List.getElem?_modify] at hj
    obtain ⟨y₀, hy₀, rfl⟩ := Option.map_eq_some_iff.mp hj
    have hok := hs y₀ (List.mem_of_getElem? hy₀)
    split_ifs
    · rw [Sync.Ok, hclient]
      exact hok
    · exact hok
  known hs d hd := by
    rw [App.modifySync, List.length_modify]
    exact hs d hd
  cached j hj := by
    simp only [cachesOld, App.modifySync, List.getElem?_modify, Option.any_eq_true] at hj ⊢
    obtain ⟨y', hy', hold⟩ := hj
    obtain ⟨y₀, hy₀, rfl⟩ := Option.map_eq_some_iff.mp hy'
    refine ⟨y₀, hy₀, ?_⟩
    split_ifs at hold
    · rwa [Sync.cachesOld, hclient, hchannel] at hold
    · exact hold
  downloads _ := .inl

theorem Frame.spawnSync {wallet : ℕ} (h : s.spawnSync wallet = some t) : Frame s t := by
  unfold App.spawnSync at h
  split_ifs at h
  cases h
  refine ⟨rfl, rfl, rfl, fun hs y hy => ?_, fun hs d hd => ?_, fun i hi => ?_, fun _ => .inl⟩
  · rcases List.mem_append.mp hy with hy | hy
    · exact hs y hy
    · rw [List.mem_singleton.mp hy]
      exact ⟨rfl, by nofun⟩
  · rw [List.length_append]
    exact Nat.lt_add_right _ (hs d hd)
  · simp only [cachesOld, Option.any_eq_true] at hi ⊢
    obtain ⟨y, hy, hold⟩ := hi
    rw [List.getElem?_append] at hy
    split_ifs at hy with hlt
    · exact ⟨y, hy, hold⟩
    · -- the new client has no channel
      rw [List.mem_singleton.mp (List.mem_of_getElem? hy)] at hold
      simp [Sync.cachesOld] at hold

theorem Frame.stopSync (s : App) (wallet : ℕ) : Frame s (s.stopSync wallet) := by
  unfold App.stopSync
  split
  · exact .refl
  · exact (Frame.removeJob s wallet).trans (.modifySync _ _ (fun _ => rfl) fun _ => rfl)

theorem Frame.insertJob (s : App) (i : ℕ) (y : Sync) : Frame s (s.insertJob i y) := by
  have hf : Frame s ((s.removeJob y.wallet).modifySync i fun y => { y with inserted := true }) :=
    (Frame.removeJob s y.wallet).trans (.modifySync _ _ (fun _ => rfl) fun _ => rfl)
  unfold App.insertJob
  split_ifs
  · exact hf.trans ⟨rfl, rfl, rfl, id, id, fun _ => id, fun _ => .inl⟩
  · exact hf

theorem holdsOld_mono {opened : ℕ} {cached cached' : Bool} {d : Download}
    (hcached : cached = true → cached' = true) (h : d.holdsOld opened cached = true) :
    d.holdsOld opened cached' = true := by
  simp only [Download.holdsOld, Bool.or_eq_true, Bool.and_eq_true] at h ⊢
  exact h.imp_right fun hold => ⟨hold.1, hcached hold.2⟩

theorem Settled.frame (hs : s.Settled) (hf : Frame s t) : t.Settled := by
  intro d hd
  rcases hf.downloads d hd with hd | hpc
  · rw [← Bool.not_eq_true]
    intro hold
    rw [App.holdsOld, hf.command] at hold
    have hs' : s.holdsOld d = true := holdsOld_mono (hf.cached d.sync) hold
    simp [hs d hd] at hs'
  · simp [App.holdsOld, Download.holdsOld, Download.directUse, Download.atChannel, hpc]

theorem Inv.frame (h : s.Inv) (hf : Frame s t) : t.Inv where
  clients := hf.clients h.clients
  known := hf.known h.known
  opened := by
    rw [hf.command, hf.channels]
    exact h.opened
  enabled hpc := by
    rw [hf.command] at hpc
    rw [hf.tor]
    exact h.enabled hpc
  settled hpc := by
    rw [hf.command] at hpc
    exact (h.settled hpc).frame hf

theorem Inv.setPc (h : s.Inv) {pc : CommandPc}
    (henabled : pc.enabled = true → s.tor.inner.state.enabled = true)
    (hsettled : pc = .returned true → s.Settled) : (s.setPc pc).Inv :=
  ⟨h.clients, h.known, h.opened, henabled, hsettled⟩

/-! ### Steps of requests -/

def afterRequest (s : App) (j k : ℕ) (y : Sync) (effect : ClientEffect) : App :=
  { s with
    syncs := s.syncs.set j (y.after s.channels k effect)
    channels := channelsAfter s.channels effect }

theorem le_channelsAfter (channels : ℕ) (effect : ClientEffect) :
    channels ≤ channelsAfter channels effect := by
  unfold channelsAfter
  split_ifs
  · exact Nat.le_succ channels
  · exact Nat.le_refl channels

section request

variable {j k : ℕ} {y : Sync} {effect : ClientEffect}

theorem clients_afterRequest (h : s.Inv) (hok : (y.after s.channels k effect).Ok) :
    ∀ y' ∈ (s.afterRequest j k y effect).syncs, y'.Ok := by
  intro y' hy'
  rcases List.mem_or_eq_of_mem_set hy' with hmem | rfl
  · exact h.clients y' hmem
  · exact hok

/-- **No client gets an old channel**: the one that a request opens is new. -/
theorem cachesOld_afterRequest (h : s.Inv) (hy : s.syncs[j]? = some y) (i : ℕ)
    (hold : (s.afterRequest j k y effect).cachesOld i = true) : s.cachesOld i = true := by
  simp only [cachesOld, afterRequest, List.getElem?_set, Option.any_eq_true] at hold ⊢
  obtain ⟨y', hy', hold⟩ := hold
  split_ifs at hy' with hij hlt
  · obtain rfl := Option.some.inj hy'
    subst hij
    exact ⟨y, hy, cachesOld_after h.opened hold⟩
  · exact ⟨y', hy', hold⟩

theorem settled_afterRequest (h : s.Inv) (hs : s.Settled) (hy : s.syncs[j]? = some y) :
    (s.afterRequest j k y effect).Settled := by
  intro d hd
  rw [← Bool.not_eq_true]
  intro hold
  have hs' : s.holdsOld d = true := holdsOld_mono (cachesOld_afterRequest h hy d.sync) hold
  simp [hs d hd] at hs'

theorem inv_afterRequest (h : s.Inv) (hy : s.syncs[j]? = some y)
    (hok : (y.after s.channels k effect).Ok) : (s.afterRequest j k y effect).Inv where
  clients := clients_afterRequest h hok
  known d hd := by
    rw [afterRequest, List.length_set]
    exact h.known d hd
  opened := Nat.le_trans h.opened (le_channelsAfter ..)
  enabled := h.enabled
  settled hpc := settled_afterRequest h (h.settled hpc) hy

end request

theorem Inv.call {k : ℕ} {answer : Answer} (h : s.Inv)
    (hstep : s.step (.call k answer) = some t) : t.Inv := by
  obtain ⟨r, hr, hstep⟩ := Option.bind_eq_some_iff.mp hstep
  obtain ⟨y, hy, hstep⟩ := Option.bind_eq_some_iff.mp hstep
  obtain ⟨⟨r', effect⟩, hr', rfl⟩ := Option.map_eq_some_iff.mp hstep
  have hok : (y.after s.channels k effect).Ok :=
    (h.clients y (List.mem_of_getElem? hy)).after (channelStep_of_step hr')
  obtain ⟨hclients, hknown, hopened, henabled, hsettled⟩ := inv_afterRequest h hy hok
  exact ⟨hclients, hknown, hopened, henabled, hsettled⟩

theorem not_holdsOld_of_step {d d' : Download} {y : Sync} {answer : DownloadAnswer}
    {effect : ClientEffect} (h : s.Inv) (henabled : s.tor.inner.state.enabled = true)
    (hy : s.syncs[d.sync]? = some y) (hs : s.holdsOld d = false)
    (hstep : downloadStep s.tor y s.channels d answer = some (d', effect)) :
    s.holdsOld d' = false := by
  have hcached : s.cachesOld d.sync = y.cachesOld s.command.opened := by simp [cachesOld, hy]
  rw [App.holdsOld, hcached] at hs
  rw [← Bool.not_eq_true]
  intro hold
  rw [App.holdsOld, sync_of_downloadStep hstep, hcached] at hold
  rcases downloadStep_cases hstep with ⟨attempt, r, r', hpc, rfl, hchannel⟩ | ⟨-, -, hquiet⟩
  · have htor := (h.clients y (List.mem_of_getElem? hy)).1
    simp [holdsOld_requested htor henabled h.opened hpc hchannel hold] at hs
  · simp [hquiet _ _ hold] at hs

theorem Inv.download {k : ℕ} {answer : DownloadAnswer} (h : s.Inv)
    (hstep : s.step (.download k answer) = some t) : t.Inv := by
  obtain ⟨d, hd, hstep⟩ := Option.bind_eq_some_iff.mp hstep
  obtain ⟨y, hy, hstep⟩ := Option.bind_eq_some_iff.mp hstep
  obtain ⟨⟨d', effect⟩, hd', rfl⟩ := Option.map_eq_some_iff.mp hstep
  have hy_ok := h.clients y (List.mem_of_getElem? hy)
  have hok : (y.after s.channels k effect).Ok := by
    rcases downloadStep_cases hd' with ⟨attempt, r, r', -, -, hchannel⟩ | ⟨rfl, -⟩
    · exact hy_ok.after hchannel
    · exact hy_ok
  obtain ⟨hclients, hknown, hopened, henabled, -⟩ := inv_afterRequest h hy hok
  have hsync := sync_of_downloadStep hd'
  refine ⟨hclients, fun e he => ?_, hopened, henabled, fun hpc e he => ?_⟩
  · rcases List.mem_or_eq_of_mem_set he with hmem | rfl
    · exact hknown e hmem
    · rw [hsync]
      exact hknown d (List.mem_of_getElem? hd)
  have hs := h.settled hpc
  rcases List.mem_or_eq_of_mem_set he with hmem | rfl
  · exact settled_afterRequest h hs hy e hmem
  · have henabled' := h.enabled (by rw [show s.command.pc = .returned true from hpc]; rfl)
    have hnot := not_holdsOld_of_step h henabled' hy (hs d (List.mem_of_getElem? hd)) hd'
    rw [← Bool.not_eq_true] at hnot ⊢
    exact fun hold => hnot (holdsOld_mono (cachesOld_afterRequest h hy e.sync) hold)

/-! ### Tor -/

theorem setEnabled_enabled (m : TorManager) (enabled : Bool) :
    (m.setEnabled enabled).inner.state.enabled = enabled := by
  have hstate := (begin_keeps m enabled).1
  unfold TorManager.setEnabled
  dsimp only
  split
  · simp [hstate]
  · split
    · simp [hstate]
    · simp [hstate]

theorem enabled_of_tor_step {m m' : TorManager} {a : TorManager.Action}
    (hstep : m.step a = some m') (ha : a ≠ .setEnabled false)
    (h : m.inner.state.enabled = true) : m'.inner.state.enabled = true := by
  cases step_cases hstep with
  | setEnabled enabled =>
    rw [setEnabled_enabled]
    cases enabled with
    | true => rfl
    | false => exact absurd rfl ha
  | @publish k b result answer hb =>
    cases result with
    | ok u | error err =>
      simp only [TorManager.publish, TorManager.setStatusIfActive, TorManager.setBootstrap]
      split_ifs
      · exact h
      · exact h
  | silent => exact h

theorem Inv.command {ok : Bool} (h : s.Inv) (hdrained : Drained s (.command ok))
    (hstep : s.commandStep ok = some t) : t.Inv := by
  unfold commandStep at hstep
  split at hstep
  · cases hstep
    exact ⟨h.clients, h.known, Nat.le_refl _, by nofun, by nofun⟩
  · cases hstep
    exact h.setPc (by nofun) (by nofun)
  · cases hstep
    exact (h.frame (.stopSync s _)).setPc (by nofun) (by nofun)
  · split_ifs at hstep
    · cases hstep
      exact ⟨h.clients, h.known, h.opened, fun _ => setEnabled_enabled s.tor true, by nofun⟩
    · cases hstep
      exact h.setPc (by nofun) (by nofun)
  next hpc =>
    have henabled : s.tor.inner.state.enabled = true := h.enabled (by rw [hpc]; rfl)
    cases hstep
    split_ifs
    · exact h.setPc (fun _ => henabled) (by nofun)
    · exact h.setPc (by nofun) (by nofun)
  next hpc =>
    cases hstep
    exact h.setPc (fun _ => h.enabled (by rw [hpc]; rfl)) fun _ => hdrained (by simp [returns, hpc])
  next w wallets hpc =>
    have henabled : s.tor.inner.state.enabled = true := h.enabled (by rw [hpc]; rfl)
    split_ifs at hstep
    · obtain ⟨u, hu, rfl⟩ := Option.map_eq_some_iff.mp hstep
      have hf := Frame.spawnSync hu
      exact (h.frame hf).setPc (fun _ => hf.tor ▸ henabled) (by nofun)
    · cases hstep
      exact h.setPc (fun _ => henabled) (by nofun)
  next i wallets hpc =>
    split_ifs at hstep
    cases hstep
    exact h.setPc (fun _ => h.enabled (by rw [hpc]; rfl)) (by nofun)
  · cases hstep

theorem Inv.step {a : Action} (h : s.Inv) (hdrained : Drained s a) (hstep : s.step a = some t) :
    t.Inv := by
  cases a with
  | tor a =>
    simp only [App.step] at hstep
    split_ifs at hstep with hdisable
    obtain ⟨m, hm, rfl⟩ := Option.map_eq_some_iff.mp hstep
    refine ⟨h.clients, h.known, h.opened, fun hpc => ?_, h.settled⟩
    refine enabled_of_tor_step hm (fun ha => hdisable ⟨ha, ?_⟩) (h.enabled hpc)
    intro hidle
    rw [hidle] at hpc
    cases hpc
  | spawnSync wallet => exact h.frame (.spawnSync hstep)
  | insertJob i =>
    obtain ⟨y, -, hstep⟩ := Option.bind_eq_some_iff.mp hstep
    split_ifs at hstep
    cases hstep
    exact h.frame (.insertJob s i y)
  | stopSync wallet =>
    cases hstep
    exact h.frame (.stopSync s wallet)
  | finishSync i =>
    obtain ⟨y, -, hstep⟩ := Option.bind_eq_some_iff.mp hstep
    split_ifs at hstep
    cases hstep
    exact h.frame ((Frame.removeJob s y.wallet).trans
      (.modifySync _ _ (fun _ => rfl) fun _ => rfl))
  | dropSync i =>
    obtain ⟨y, -, hstep⟩ := Option.bind_eq_some_iff.mp hstep
    split_ifs at hstep
    cases hstep
    exact h.frame (.modifySync _ _ (fun _ => rfl) fun _ => rfl)
  | spawnDownload i =>
    obtain ⟨y, hy, hstep⟩ := Option.bind_eq_some_iff.mp hstep
    split_ifs at hstep
    cases hstep
    refine h.frame ⟨rfl, rfl, rfl, id, fun hs d hd => ?_, fun _ => id, fun d hd => ?_⟩
    · rcases List.mem_append.mp hd with hd | hd
      · exact hs d hd
      · rw [List.mem_singleton.mp hd]
        exact (List.getElem?_eq_some_iff.mp hy).1
    · rcases List.mem_append.mp hd with hd | hd
      · exact .inl hd
      · rw [List.mem_singleton.mp hd]
        exact .inr rfl
  | download k answer => exact h.download hstep
  | newCall i retry =>
    obtain ⟨y, -, rfl⟩ := Option.map_eq_some_iff.mp hstep
    exact h.frame ⟨rfl, rfl, rfl, id, id, fun _ => id, fun _ => .inl⟩
  | call k answer => exact h.call hstep
  | command ok => exact h.command hdrained hstep

end App

open App

theorem inv_reach {s : App} (h : Reach torSwitch Drained s) : s.Inv := by
  refine h.invariant (I := App.Inv) ?_ fun _ _ _ hs hdrained hstep => hs.step hdrained hstep
  rintro _ ⟨initial, rfl⟩
  exact ⟨by nofun, by nofun, Nat.le_refl 0, by nofun, by nofun⟩

/-! ## Use of old channels -/

theorem not_leaks {s : App} (h : s.Inv) (a : Action) : ¬ s.Leaks a := by
  rintro ⟨hpc, c, hc, hlt⟩
  cases a with
  | download k answer =>
    obtain ⟨d, hd, huse⟩ := Option.bind_eq_some_iff.mp hc
    have hs := h.settled hpc d (List.mem_of_getElem? hd)
    simp [App.holdsOld, Download.holdsOld, huse, hlt] at hs
  | _ => cases hc

section leak

variable {s : App} {k : ℕ} {d : Download} {y : Sync}

theorem leaks_of_directUse {c : ℕ} (hpc : s.command.pc = .returned true)
    (hd : s.downloads[k]? = some d) (hy : s.syncs[d.sync]? = some y)
    (huse : d.directUse = some c) (hlt : c < s.command.opened) :
    ∃ a t, s.step a = some t ∧ s.Leaks a := by
  have hleaks (answer : DownloadAnswer) : s.Leaks (.download k answer) :=
    ⟨hpc, c, by simp [App.directUse, hd, huse], hlt⟩
  unfold Download.directUse at huse
  split at huse
  next attempt r hrequest =>
    split_ifs at huse with hsending
    refine ⟨.download k (.request .ok), ?_⟩
    simp [App.step, hd, hy, downloadStep, hrequest, Request.step, hsending, hleaks]
  next attempt blocks hstream =>
    refine ⟨.download k .block, ?_⟩
    simp [App.step, hd, hy, downloadStep, hstream, hleaks]
  next => cases huse

theorem step_of_channel {m : TorManager} {r : Request} (hok : y.Ok)
    (hat : r.pc = .readChannel ∨ r.pc = .writeChannel) (hsome : y.client.directChannel = true) :
    r.step m y.client .ok = some (r.take .cached, .none) := by
  have hfree : y.client.writer.isSome = false := by
    rw [← Bool.not_eq_true]
    intro hheld
    simp [hok.2 hheld] at hsome
  rcases hat with hat | hat
  · simp [Request.step, hat, hfree, hsome]
  · simp [Request.step, hat, hfree, hsome]

theorem takes_channel (hok : y.Ok) (hd : s.downloads[k]? = some d)
    (hy : s.syncs[d.sync]? = some y) (hat : d.atChannel = true)
    (hsome : y.client.directChannel = true) :
    ∃ t d' y', s.step (.download k (.request .ok)) = some t ∧ t.command = s.command ∧
      t.downloads[k]? = some d' ∧ t.syncs[d'.sync]? = some y' ∧
      d'.directUse = some y.channel := by
  unfold Download.atChannel at hat
  split at hat
  next attempt r hpc =>
    rw [Bool.or_eq_true, beq_iff_eq, beq_iff_eq] at hat
    have hstep := step_of_channel (m := s.tor) hok hat hsome
    have htaken : takenChannel y s.channels r = some y.channel := by
      rcases hat with hat | hat
      · simp [takenChannel, hat]
      · simp [takenChannel, hat]
    have hk := (List.getElem?_eq_some_iff.mp hd).1
    have hj := (List.getElem?_eq_some_iff.mp hy).1
    refine ⟨{ s.afterRequest d.sync k y .none with
      downloads := s.downloads.set k
        { d with pc := .request attempt (r.take .cached), via := some y.channel } },
      { d with pc := .request attempt (r.take .cached), via := some y.channel },
      y.after s.channels k .none, ?_, rfl, ?_, ?_, rfl⟩
    · simp [App.step, hd, hy, downloadStep, hpc, hstep, Download.requested, Request.take, htaken,
        afterRequest]
    · simp [hk]
    · simp [afterRequest, hj]
  next => cases hat

/-- **A download that holds an old channel when the command has returned can use it.** -/
theorem leak_of_holdsOld (hclients : ∀ y ∈ s.syncs, y.Ok)
    (hknown : ∀ d ∈ s.downloads, d.sync < s.syncs.length) (hpc : s.command.pc = .returned true)
    (hd : d ∈ s.downloads) (hold : s.holdsOld d = true) :
    ∃ t, Path torSwitch Free s t ∧ ∃ a u, t.step a = some u ∧ t.Leaks a := by
  obtain ⟨k, hk⟩ := List.mem_iff_getElem?.mp hd
  have hy : s.syncs[d.sync]? = some (s.syncs.get ⟨d.sync, hknown d hd⟩) := by simp [hknown d hd]
  simp only [App.holdsOld, Download.holdsOld, Bool.or_eq_true, Bool.and_eq_true,
    Option.any_eq_true, decide_eq_true_eq] at hold
  rcases hold with ⟨c, huse, hlt⟩ | ⟨hat, hcached⟩
  · exact ⟨s, .refl, leaks_of_directUse hpc hk hy huse hlt⟩
  · rw [App.cachesOld, hy, Option.any_some, Sync.cachesOld, Bool.and_eq_true,
      decide_eq_true_eq] at hcached
    obtain ⟨t, d', y', hstep, hcommand, hd', hy', huse⟩ :=
      takes_channel (hclients _ (List.mem_of_getElem? hy)) hk hy hat hcached.1
    rw [← hcommand] at hpc hcached
    exact ⟨t, .single (a := .download k (.request .ok)) trivial hstep,
      leaks_of_directUse hpc hd' hy' huse hcached.2⟩

end leak

/-- **Old channels after the command.** None is used if no download is inside a request or stream
over one when the command returns. If one is, then some run goes on to use it. -/
theorem no_old_channel_after (s : App) (h : Reach torSwitch Drained s) :
    (∀ a, ¬ s.Leaks a) ∧ ∀ a t, s.step a = some t → ¬ Drained s a →
      ∃ u, Path torSwitch Free t u ∧ ∃ b v, u.step b = some v ∧ u.Leaks b := by
  have hs := inv_reach h
  refine ⟨not_leaks hs, fun a t hstep hdrained => ?_⟩
  simp only [Drained, Classical.not_imp, not_forall] at hdrained
  obtain ⟨hreturns, d, hd, hold⟩ := hdrained
  rw [Bool.not_eq_false] at hold
  cases a with
  | command ok =>
    have hpc : s.command.pc = .restarting [] := by simpa [returns] using hreturns
    simp only [App.step, commandStep, hpc] at hstep
    obtain rfl := Option.some.inj hstep
    exact leak_of_holdsOld hs.clients hs.known rfl hd hold
  | _ => cases hreturns

def streaming : List Action :=
  [Action.spawnSync 0, .insertJob 0, .spawnDownload 0, .download 0 .goesOn,
    .download 0 (.request .ok), .download 0 (.request .ok), .download 0 (.request .ok),
    .download 0 (.request .ok), .download 0 (.request .ok), .download 0 .block]

def switching : List Action :=
  [Action.command true, .command true, .dropSync 0, .command true, .command true, .command true,
    .command true, .insertJob 1, .command true, .command true]

/-- The command comes while the download reads a stream. -/
theorem old_stream_read_on : ∃ s, Reach torSwitch Free s ∧ s.tor.inner.state.enabled = true ∧
    (s.step (.download 0 .block)).isSome = true ∧ s.Leaks (.download 0 .block) :=
  exec_reach (S := torSwitch) (G := Free)
    (p := fun s => s.tor.inner.state.enabled = true ∧
      (s.step (.download 0 .block)).isSome = true ∧ s.Leaks (.download 0 .block))
    (streaming ++ switching) ⟨⟨false, .off, none⟩, rfl⟩ (along_free _ _) (by decide +kernel)

theorem no_old_channel_after_run : ∃ s, Reach torSwitch Drained s ∧
    s.command = ⟨.returned true, [0], 1⟩ ∧ s.downloads = [⟨0, .finished, some 0⟩] ∧
      ∀ a, ¬ s.Leaks a := by
  obtain ⟨s, hs, hcommand, hdownloads⟩ := exec_reach (S := torSwitch) (G := Drained)
    (p := fun s => s.command = ⟨.returned true, [0], 1⟩ ∧
      s.downloads = [⟨0, .finished, some 0⟩])
    (streaming ++ [Action.download 0 .ended, .download 0 .accepted] ++ switching ++
      [Action.download 0 .goesOn, .download 0 .closed])
    ⟨⟨false, .off, none⟩, rfl⟩ (by decide +kernel) (by decide +kernel)
  exact ⟨s, hs, hcommand, hdownloads, (no_old_channel_after s hs).1⟩

end ZbagSwitch
