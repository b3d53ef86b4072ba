import Zbag.Lib.Encoding
import Zbag.Wallet.Access
import Zbag.Wallet.Funds

/-!
# Wallet — finalizing a hardware signature

`prepare_finalize_signing_task` takes the pending signing request out of the shared transaction
service; `execute_prepared_finalize_signing_task` imports it into a service of its own, which it
throws away, and only then looks at the signed payload.
-/

set_option mvcgen.warning false

namespace ZbagWallet

open Std.Do Operation

/-! ## Payloads -/

inductive PcztPayloadError
  | invalidBase64
  | invalidPczt (message : String)
  deriving DecidableEq, Repr

def PcztPayloadError.text : PcztPayloadError → String
  | .invalidBase64 => "invalid base64 payload"
  | .invalidPczt message => "invalid PCZT payload: " ++ message

/-- Reading, and combining proofs with signatures. -/
structure PcztFormat where
  Pczt : Type
  parse : List UInt8 → Except String Pczt
  combine : Pczt → Pczt → Except String Pczt

section finalize

variable (format : PcztFormat)

/-- Also `decode_pczt_full`. -/
def decodePczt (payload : String) : Except PcztPayloadError format.Pczt :=
  match Encoding.decode payload.toList with
  | none => .error .invalidBase64
  | some bytes => (format.parse bytes).mapError .invalidPczt

def combinePczts (withProofs withSigs : format.Pczt) : Except PcztPayloadError format.Pczt :=
  (format.combine withProofs withSigs).mapError fun e =>
    .invalidPczt ("failed to combine PCZTs: " ++ e)

/-- A signed PCZT for the stored one. -/
def ValidPayload (stored payload : String) : Prop :=
  ∃ withProofs withSigs pczt, decodePczt format stored = .ok withProofs ∧
    decodePczt format payload = .ok withSigs ∧ combinePczts format withProofs withSigs = .ok pczt

/-! ## Finalizing -/

/-- With the PCZT that is kept for it. -/
structure SigningRequest extends PendingSigningRequest where
  pcztWithProofs : String
  deriving DecidableEq, Repr

abbrev SigningRequests := ℕ → Option SigningRequest

structure FinalizeEnv where
  now : ℕ
  openAppDb : Option String
  openWalletDb : Option IpcError
  appDb : AppDb
  /-- `extract_and_store_transaction_from_pczt` -/
  extract : Except String Unit
  /-- from loading the transaction to its broadcast -/
  finish : Except IpcError Unit

/-- The request has left the service. -/
def finalizePczt (env : FinalizeEnv) (stored payload : String) : Except IpcError Unit := do
  let withProofs ← (decodePczt format stored).mapError fun e =>
    ⟨.internalError, "invalid stored PCZT: " ++ e.text⟩
  let withSigs ← (decodePczt format payload).mapError fun e =>
    ⟨.invalidPczt, "invalid signed payload: " ++ e.text⟩
  let _ ← (combinePczts format withProofs withSigs).mapError fun e =>
    ⟨.signingFailed, "failed to combine PCZTs: " ++ e.text⟩
  env.extract.mapError fun e => ⟨.signingFailed, "failed to finalize signing: " ++ e⟩
  env.finish

/-- With the requests that are left. -/
def finalizeSigning (env : FinalizeEnv) (requests : SigningRequests) (w : WalletId)
    (requestId : ℕ) (payload : String) : Except IpcError Unit × SigningRequests :=
  match ensureBackupComplete env.appDb w with
  | .error e => (.error e, requests)
  | .ok _ =>
    match requests requestId with
    | none => (.error ⟨.proposalNotFound, "signing request not found or expired"⟩, requests)
    | some request =>
      if request.expiresAt < env.now then
        (.error ⟨.proposalExpired, "signing request expired"⟩,
          Function.update requests requestId none)
      else if request.walletId ≠ w then
        (.error ⟨.proposalNotFound, "signing request not found"⟩, requests)
      else
        (finalizePczt format env request.pcztWithProofs payload,
          Function.update requests requestId none)

structure FinalizeSigningTask where
  walletId : WalletId
  signingRequestId : ℕ
  signedPayload : String
  pendingPcztWithProofs : String
  pendingRequestExpiresAt : ℕ
  deriving DecidableEq, Repr

/-- A service of its own, into which the request is imported. -/
def executePreparedFinalizeSigningTask (env : FinalizeEnv) (task : FinalizeSigningTask) :
    Except IpcError Unit :=
  match env.openAppDb, env.openWalletDb with
  | some _, _ => .error ⟨.internalError, "failed to open app db for finalize signing"⟩
  | none, some e => .error e
  | none, none =>
    let imported : SigningRequest :=
      ⟨⟨task.walletId, task.pendingRequestExpiresAt⟩, task.pendingPcztWithProofs⟩
    (finalizeSigning format env (Function.update (fun _ => none) task.signingRequestId
      (some imported)) task.walletId task.signingRequestId task.signedPayload).1

/-- The preparation under the manager's lock, the execution outside of it. -/
def attemptFinalizeSigning (call : Env) (env : FinalizeEnv) (pczts : ℕ → String)
    (requestId token : ℕ) (payload : String) (s : World) : Except IpcError Unit × World :=
  match outcome (prepareFinalizeSigningTask call requestId token) s,
    s.pendingSigningRequests requestId with
  | (.ok _, t), some request =>
    (executePreparedFinalizeSigningTask format env
      ⟨request.walletId, requestId, payload, pczts requestId, request.expiresAt⟩, t)
  | (.ok _, t), none => (.error ⟨.proposalNotFound, "signing request not found or expired"⟩, t)
  | (.error e, t), _ => (.error e, t)

end finalize

/-! ## Taking the request -/

def Unlocked (w : WalletId) (s : World) : Prop :=
  match s.activeWallet with
  | some active => active.wallet = w ∧ active.lockStatus = .unlocked ∧ active.dek ≠ none
  | none => False

instance (w : WalletId) (s : World) : Decidable (Unlocked w s) :=
  decidable_of_iff (s.activeWallet.any fun active =>
    active.wallet = w ∧ active.lockStatus = .unlocked ∧ active.dek ≠ none) <| by
    unfold Unlocked
    cases s.activeWallet with
    | none => simp
    | some active => simp

def GoodToken (call : Env) (token : ℕ) (w : WalletId) (s : World) : Prop :=
  match s.tokens token with
  | some record => record.used = false ∧ record.walletId = w ∧ record.purpose = .spend ∧
      call.tokenAt ≤ record.expiresAt
  | none => False

instance (call : Env) (token : ℕ) (w : WalletId) (s : World) :
    Decidable (GoodToken call token w s) :=
  decidable_of_iff ((s.tokens token).any fun record => record.used = false ∧
    record.walletId = w ∧ record.purpose = .spend ∧ call.tokenAt ≤ record.expiresAt) <| by
    unfold GoodToken
    cases s.tokens token with
    | none => simp
    | some record => simp

/-- The call gets as far as the signing requests of `w`. -/
structure Admitted (call : Env) (token : ℕ) (w : WalletId) (s : World) : Prop where
  unlocked : Unlocked w s
  token : GoodToken call token w s
  server : call.resolveGrpcUrl = true
  preflight : call.preflight = true

@[local spec]
theorem consumeReauthToken_good (call : Env) (token : ℕ) (w : WalletId) (s₀ : World) :
    ⦃fun s => ⌜s = s₀⌝⦄ consumeReauthToken call w token .spend
    ⦃post⟨fun _ s => ⌜GoodToken call token w s₀ ∧ s.activeWallet = s₀.activeWallet ∧
        s.pendingSigningRequests = s₀.pendingSigningRequests⌝,
      fun _ s => ⌜¬ GoodToken call token w s₀ ∧ s = s₀⌝⟩⦄ := by
  mvcgen [consumeReauthToken, ipcErr]
  all_goals grind [GoodToken]

@[local spec]
theorem getTxOperationContext_unlocked (call : Env) {s₀ : World} {active : ActiveWallet}
    (hactive : s₀.activeWallet = some active) :
    ⦃fun s => ⌜s = s₀⌝⦄ getTxOperationContext call
    ⦃post⟨fun _ s => ⌜Unlocked active.wallet s₀ ∧ call.resolveGrpcUrl = true ∧ s = s₀⌝,
      fun _ s => ⌜¬ (Unlocked active.wallet s₀ ∧ call.resolveGrpcUrl = true) ∧ s = s₀⌝⟩⦄ := by
  mvcgen [getTxOperationContext, activeWallet, ipcErr, -getTxOperationContext_reads,
    -activeWallet_reads]
  all_goals grind [Unlocked, cases Option]

/-- Taken out exactly if the call gets there. -/
theorem prepareFinalizeSigningTask_live (call : Env) {requestId : ℕ} (token : ℕ) {s₀ : World}
    {request : PendingSigningRequest}
    (hpending : s₀.pendingSigningRequests requestId = some request)
    (hlive : call.takenAt ≤ request.expiresAt) :
    ⦃fun s => ⌜s = s₀⌝⦄ prepareFinalizeSigningTask call requestId token
    ⦃post⟨fun _ s => ⌜Admitted call token request.walletId s₀ ∧
        s.pendingSigningRequests requestId = none⌝,
      fun _ s => ⌜¬ Admitted call token request.walletId s₀ ∧
        s.pendingSigningRequests requestId = some request⌝⟩⦄ := by
  mvcgen [prepareFinalizeSigningTask, activeWallet, setSigningRequest, spawn, ipcErr,
    -activeWallet_reads, -getTxOperationContext_reads]
  all_goals grind [Admitted, Unlocked]

theorem prepareFinalizeSigningTask_missing (call : Env) {requestId token : ℕ} {s₀ : World}
    (hnone : s₀.pendingSigningRequests requestId = none) :
    ⦃fun s => ⌜s = s₀⌝⦄ prepareFinalizeSigningTask call requestId token
    ⦃post⟨fun _ _ => ⌜False⌝, fun _ _ => ⌜True⌝⟩⦄ := by
  mvcgen [prepareFinalizeSigningTask, activeWallet, setSigningRequest, spawn, ipcErr,
    -activeWallet_reads, -getTxOperationContext_reads]
  all_goals grind

/-! ## Bad payloads -/

section

variable {format : PcztFormat}

theorem finalizePczt_of_invalid (env : FinalizeEnv) {stored payload : String}
    (h : ¬ ValidPayload format stored payload) :
    ∃ e, finalizePczt format env stored payload = .error e := by
  cases hresult : finalizePczt format env stored payload with
  | error e => exact ⟨e, rfl⟩
  | ok u =>
    obtain ⟨withProofs, hproofs, hresult⟩ := bind_eq_ok hresult
    obtain ⟨withSigs, hsigs, hresult⟩ := bind_eq_ok hresult
    obtain ⟨pczt, hpczt, -⟩ := bind_eq_ok hresult
    exact absurd ⟨withProofs, withSigs, pczt, mapError_eq_ok hproofs, mapError_eq_ok hsigs,
      mapError_eq_ok hpczt⟩ h

theorem executePreparedFinalizeSigningTask_of_invalid (env : FinalizeEnv)
    (task : FinalizeSigningTask)
    (h : ¬ ValidPayload format task.pendingPcztWithProofs task.signedPayload) :
    ∃ e, executePreparedFinalizeSigningTask format env task = .error e := by
  unfold executePreparedFinalizeSigningTask
  split
  · exact ⟨_, rfl⟩
  · exact ⟨_, rfl⟩
  · unfold finalizeSigning
    split
    · exact ⟨_, rfl⟩
    · simp only [Function.update_self]
      split_ifs
      · exact ⟨_, rfl⟩
      · exact ⟨_, rfl⟩
      · exact finalizePczt_of_invalid env h

end

theorem attemptFinalizeSigning_of_invalid (format : PcztFormat) {call : Env} (env : FinalizeEnv)
    (pczts : ℕ → String) {requestId : ℕ} (token : ℕ) {payload : String} {s : World}
    {request : PendingSigningRequest}
    (hpending : s.pendingSigningRequests requestId = some request)
    (hlive : call.takenAt ≤ request.expiresAt)
    (hinvalid : ¬ ValidPayload format (pczts requestId) payload) :
    ∃ e u, attemptFinalizeSigning format call env pczts requestId token payload s = (.error e, u) ∧
      ((Admitted call token request.walletId s ∧ u.pendingSigningRequests requestId = none) ∨
        (¬ Admitted call token request.walletId s ∧
          u.pendingSigningRequests requestId = some request)) := by
  obtain ⟨htaken, hfailed⟩ := run_of_triple
    (prepareFinalizeSigningTask_live call token hpending hlive) rfl
  unfold attemptFinalizeSigning
  rw [hpending]
  cases hfirst : outcome (prepareFinalizeSigningTask call requestId token) s with
  | mk r u =>
    have hstate : (outcome (prepareFinalizeSigningTask call requestId token) s).2 = u :=
      congrArg Prod.snd hfirst
    cases r with
    | ok x =>
      obtain ⟨hauth, hnone⟩ := htaken x (congrArg Prod.fst hfirst)
      obtain ⟨e, he⟩ := executePreparedFinalizeSigningTask_of_invalid env
        ⟨request.walletId, requestId, payload, pczts requestId, request.expiresAt⟩ hinvalid
      exact ⟨e, u, congrArg (·, u) he, .inl ⟨hauth, hstate ▸ hnone⟩⟩
    | error e =>
      obtain ⟨hauth, hsome⟩ := hfailed e (congrArg Prod.fst hfirst)
      exact ⟨e, u, rfl, .inr ⟨hauth, hstate ▸ hsome⟩⟩

/-- **A request survives a bad payload exactly if it was not taken**: the later attempt finds it
exactly if the first one failed before it got to it. -/
theorem signing_request_found_again_iff (format : PcztFormat) (call later : Env)
    (env : FinalizeEnv) (pczts : ℕ → String) (requestId token token' : ℕ) {payload : String}
    {s t : World} {request : PendingSigningRequest}
    (hpending : s.pendingSigningRequests requestId = some request)
    (hlive : call.takenAt ≤ request.expiresAt)
    (hinvalid : ¬ ValidPayload format (pczts requestId) payload)
    (hkept : t.pendingSigningRequests requestId = (attemptFinalizeSigning format call env pczts
      requestId token payload s).2.pendingSigningRequests requestId)
    (hauth : Admitted later token' request.walletId t)
    (hlater : later.takenAt ≤ request.expiresAt) :
    (∃ e, (attemptFinalizeSigning format call env pczts requestId token payload s).1 = .error e) ∧
    ((outcome (prepareFinalizeSigningTask later requestId token') t).1 = .ok () ↔
      ¬ Admitted call token request.walletId s) := by
  obtain ⟨e, u, hattempt, hrequest⟩ :=
    attemptFinalizeSigning_of_invalid format env pczts token hpending hlive hinvalid
  rw [hattempt] at hkept ⊢
  refine ⟨⟨e, rfl⟩, ?_⟩
  rcases hrequest with ⟨hfirst, hnone⟩ | ⟨hfirst, hsome⟩
  · rw [hnone] at hkept
    obtain ⟨hok, -⟩ := run_of_triple (prepareFinalizeSigningTask_missing later hkept) rfl
    exact iff_of_false (fun h => hok () h) (fun h => h hfirst)
  · rw [hsome] at hkept
    obtain ⟨-, herr⟩ :=
      run_of_triple (prepareFinalizeSigningTask_live later token' hkept hlater) rfl
    refine iff_of_true ?_ hfirst
    cases hresult : (outcome (prepareFinalizeSigningTask later requestId token') t).1 with
    | ok x => rfl
    | error e' => exact absurd hauth (herr e' hresult).1

/-- Their own bytes, and any two can be combined. -/
def rawFormat : PcztFormat := ⟨List UInt8, .ok, fun withProofs _ => .ok withProofs⟩

theorem rawFormat_invalid : ¬ ValidPayload rawFormat "" "%" := by
  rintro ⟨-, withSigs, -, -, hsigs, -⟩
  cases hsigs

/-- One pending signing request and two tokens. -/
def signingWorld : World :=
  { spendingWorld with
    tokens := fun n => if n < 2 then some ⟨0, .spend, 60, false⟩ else none
    pendingSigningRequests := fun n => if n = 7 then some ⟨0, 60⟩ else none }

theorem signingWorld_pending : signingWorld.pendingSigningRequests 7 = some ⟨0, 60⟩ := rfl

def FinalizeEnv.works : FinalizeEnv := ⟨0, none, none, spendingWorld.appDb, .ok (), .ok ()⟩

theorem signing_request_found_again_bad_token :
    let first := attemptFinalizeSigning rawFormat .works .works (fun _ => "") 7 2 "%" signingWorld
    (∃ e, first.1 = .error e) ∧
      (outcome (prepareFinalizeSigningTask .works 7 0) first.2).1 = .ok () := by
  obtain ⟨hfails, hfound⟩ := signing_request_found_again_iff rawFormat .works .works .works
    (fun _ => "") 7 2 0 signingWorld_pending (by decide) rawFormat_invalid rfl
    ⟨by decide +kernel, by decide +kernel, rfl, rfl⟩ (by decide)
  exact ⟨hfails, hfound.mpr fun h => h.token⟩

/-- The payload of the first is not base64; the second has a good one. -/
theorem signing_request_lost :
    let first := attemptFinalizeSigning rawFormat .works .works (fun _ => "") 7 0 "%" signingWorld
    let second := attemptFinalizeSigning rawFormat .works .works (fun _ => "") 7 1 "" first.2
    first.1 = .error ⟨.invalidPczt, "invalid signed payload: invalid base64 payload"⟩ ∧
      ValidPayload rawFormat "" "" ∧ Admitted .works 1 0 first.2 ∧
      second.1 = .error ⟨.proposalNotFound, "signing request not found or expired"⟩ := by
  refine ⟨by decide +kernel, ⟨[], [], [], rfl, rfl, rfl⟩,
    ⟨by decide +kernel, by decide +kernel, rfl, rfl⟩, by decide +kernel⟩

end ZbagWallet
