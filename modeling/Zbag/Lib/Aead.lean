import Mathlib.Data.List.Basic

/-!
# Authenticated encryption — an ideal cipher

An ideal cipher keeps a log of what was encrypted with it. A ciphertext decrypts under a key, a
nonce and associated data exactly if the log has an encryption with these three that returned it.
It returns each ciphertext for one encryption only.

* `Sealing`: one encryption; `decrypt`: decryption looks it up;
* `Fresh`: a new ciphertext, `Distinct`: a log of new ciphertexts.
-/

namespace Aead

structure Sealing (κ ν α μ γ : Type) where
  key : κ
  nonce : ν
  aad : α
  message : μ
  ciphertext : γ
  deriving DecidableEq, Repr

variable {κ ν α μ γ : Type} {log : List (Sealing κ ν α μ γ)} {e : Sealing κ ν α μ γ}

def decrypt [DecidableEq κ] [DecidableEq ν] [DecidableEq α] [DecidableEq γ]
    (log : List (Sealing κ ν α μ γ)) (key : κ) (nonce : ν) (aad : α) (ciphertext : γ) :
    Option μ :=
  (log.find? fun e => e.key = key ∧ e.nonce = nonce ∧ e.aad = aad ∧ e.ciphertext = ciphertext).map
    Sealing.message

def Fresh (log : List (Sealing κ ν α μ γ)) (e : Sealing κ ν α μ γ) : Prop :=
  ∀ e' ∈ log, e'.ciphertext = e.ciphertext → e' = e

instance [DecidableEq κ] [DecidableEq ν] [DecidableEq α] [DecidableEq μ] [DecidableEq γ]
    (log : List (Sealing κ ν α μ γ)) (e : Sealing κ ν α μ γ) : Decidable (Fresh log e) :=
  inferInstanceAs (Decidable (∀ e' ∈ log, _))

def Distinct (log : List (Sealing κ ν α μ γ)) : Prop := ∀ e ∈ log, Fresh log e

theorem distinct_nil : Distinct ([] : List (Sealing κ ν α μ γ)) := nofun

theorem Distinct.cons (h : Distinct log) (he : Fresh log e) : Distinct (e :: log) := by
  intro e₁ h₁ e₂ h₂ hc
  rcases List.mem_cons.mp h₁ with rfl | hlog₁
  · rcases List.mem_cons.mp h₂ with rfl | hlog₂
    · rfl
    · exact he e₂ hlog₂ hc
  · rcases List.mem_cons.mp h₂ with rfl | hlog₂
    · exact (he e₁ hlog₁ hc.symm).symm
    · exact h e₁ hlog₁ e₂ hlog₂ hc

/-- **What decrypts was encrypted**, with the same key, nonce and associated data. -/
theorem decrypt_eq_some_iff [DecidableEq κ] [DecidableEq ν] [DecidableEq α] [DecidableEq γ]
    (h : Distinct log) {key : κ} {nonce : ν} {aad : α} {ciphertext : γ} {message : μ} :
    decrypt log key nonce aad ciphertext = some message ↔
      ⟨key, nonce, aad, message, ciphertext⟩ ∈ log := by
  constructor
  · intro hdecrypt
    obtain ⟨e, hfind, hmessage⟩ := Option.map_eq_some_iff.mp hdecrypt
    have hmem := List.mem_of_find?_eq_some hfind
    obtain ⟨hkey, hnonce, haad, hciphertext⟩ := by simpa using List.find?_some hfind
    rw [← hkey, ← hnonce, ← haad, ← hciphertext, ← hmessage]
    exact hmem
  · intro hmem
    unfold decrypt
    cases hfind : log.find? fun e =>
        e.key = key ∧ e.nonce = nonce ∧ e.aad = aad ∧ e.ciphertext = ciphertext with
    | none =>
      have hnone := List.find?_eq_none.mp hfind _ hmem
      simp at hnone
    | some e =>
      obtain ⟨-, -, -, hciphertext⟩ := by simpa using List.find?_some hfind
      have he := h _ hmem e (List.mem_of_find?_eq_some hfind) hciphertext
      rw [he]
      rfl

end Aead
