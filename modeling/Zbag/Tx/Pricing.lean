import Mathlib.Data.Nat.Notation
import Mathlib.Tactic.Common

/-!
# Transactions — batches of shielding inputs

Shielding splits the spendable transparent outputs into batches of at most 200 and prices each
batch by itself: the fee strategy is asked until it accepts the inputs, leaving out those it calls
dust.

* `chunks`, `shieldingBatches`: the batches.
-/

namespace ZbagTx

abbrev OutPoint := ℕ

def maxShieldingInputsPerTx : ℕ := 200

/-- `fuel`: at least the length. -/
def chunksFrom {α : Type} (n : ℕ) : ℕ → List α → List (List α)
  | 0, _ => []
  | fuel + 1, l => if l.isEmpty then [] else l.take n :: chunksFrom n fuel (l.drop n)

def chunks {α : Type} (n : ℕ) (l : List α) : List (List α) := chunksFrom n l.length l

def shieldingBatches (inputs : List OutPoint) : List (List OutPoint) :=
  chunks maxShieldingInputsPerTx inputs

inductive SetupError
  | listAccounts (error : String)
  | accountNotFound
  | transparentReceivers (error : String)
  | chainHeight (error : String)
  | mustScan
  | transparentOutputs (error : String)
  deriving DecidableEq, Repr

/-- An answer of `compute_balance`. -/
inductive StrategyAnswer
  | balance (feeRequired : ℕ)
  | dustInputs (transparent : List OutPoint)
  | insufficientFunds (available required : ℕ)
  | other (error : String)
  deriving DecidableEq, Repr

/-- How pricing a batch ends. -/
inductive Priced
  | skip
  | inputs (selection : List OutPoint) (feeRequired : ℕ)
  | insufficientFunds (available required : ℕ)
  | failed (error : String)
  deriving DecidableEq, Repr

/-- `none`: it is still running after the last answer. -/
def priceBatch : List OutPoint → List StrategyAnswer → Option Priced
  | _, [] => none
  | selection, .balance fee :: _ =>
    some (if selection.isEmpty then .skip else .inputs selection fee)
  | selection, .dustInputs transparent :: answers =>
    if (selection.filter (· ∉ transparent)).isEmpty then some .skip
    else priceBatch (selection.filter (· ∉ transparent)) answers
  | _, .insufficientFunds available required :: _ => some (.insufficientFunds available required)
  | _, .other e :: _ => some (.failed e)

def priceFails (batch : List OutPoint) (metaError : Option String) (answers : List StrategyAnswer)
    (proposalError : Option String) : Bool :=
  metaError.isSome ||
    match priceBatch batch answers with
    | some (.insufficientFunds ..) | some (.failed _) => true
    | some (.inputs ..) => proposalError.isSome
    | some .skip | none => false

end ZbagTx
