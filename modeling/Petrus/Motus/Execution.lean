import Mathlib

/-!
# Territory leases

The identity a territory provider gives a lease, and how much of one may be archived.
-/

namespace Petrus.Motus

structure LeaseIdentity where
  operationId : String
  provider : String
  leaseId : String
  deriving DecidableEq

abbrev Bytes := List UInt8

def maxWorkspaceArchiveBytes : Nat := 512 * 1024 * 1024

end Petrus.Motus
