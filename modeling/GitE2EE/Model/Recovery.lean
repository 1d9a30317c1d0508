import GitE2EE.Model.Chain

/-!
# Recovery

What recovery spends on the manifests it opens while it looks for a base.
-/

namespace GitE2EE

open Wire Effect

def MAX_RECOVERY_BYTES : Nat := 64 * 1024 * 1024

def MAX_RECOVERY_CRYPTO_OPERATIONS : Nat := 1000000

structure RecoveryBudget where
  cryptoOperations : Nat
  bytesRead : Nat

/-- `checked_mul` on `u64`. -/
def checkedMul (a b : Nat) : Option Nat := if a * b < 2 ^ 64 then some (a * b) else none

namespace RecoveryBudget

/-- Two operations for each envelope, and one for the link. -/
def operations (header : ManifestHeader) : Option Nat :=
  (checkedMul header.generationKeyEnvelopes.length 2).bind (checkedAdd · 1)

/-- `RecoveryBudget::charge_manifest`: what is over the limit stays charged. -/
def chargeManifest (header : ManifestHeader) (byteCount : Nat) :
    Action Error RecoveryBudget Unit := do
  let budget ← Action.get
  let bytesRead ← Action.lift (orBail (checkedAdd budget.bytesRead byteCount)
    "recovery byte budget overflow")
  Action.modify ({ · with bytesRead })
  if MAX_RECOVERY_BYTES < bytesRead then
    Action.fail (.of (.budgetExhausted "recovery manifest byte budget exhausted"))
  else do
    let operations ← Action.lift (orBail (operations header) "recovery crypto budget overflow")
    let cryptoOperations ← Action.lift (orBail (checkedAdd budget.cryptoOperations operations)
      "recovery crypto budget overflow")
    Action.modify ({ · with cryptoOperations })
    if MAX_RECOVERY_CRYPTO_OPERATIONS < cryptoOperations then
      Action.fail (.of (.budgetExhausted "recovery cryptographic-operation budget exhausted"))
    else pure ()

end RecoveryBudget

end GitE2EE
