import SovereignShadow.Ports.Constants

/-!
# The L1 data fee

Port of `L1DataFeeCalculator::estimate_l1_fee`.
-/

namespace SovereignShadow.Ports.L1DataFee

open SovereignShadow.Ports.Models

structure EcotoneScalars where
  baseFeeScalar : Nat
  blobFeeScalar : Nat
  l1BaseFee : U256
  l1BlobFee : U256
  decimals : U256
  lastUpdated : Nat

/-- 4 gas for a zero byte and 16 for any other, over a fixed overhead of 133. -/
def calldataGas (txData : List UInt8) : Nat :=
  txData.foldl (fun gas b => gas + if b = 0 then 4 else 16) (133 * 16)

/-- `estimate_l1_fee`; the outer `none` is the panic of `decimals.to::<u64>()`. -/
def estimateL1Fee (sc : EcotoneScalars) (chain : Chain) (txData : List UInt8) :
    Option (Except MEVError U256) :=
  match chain with
  | .base =>
      if sc.lastUpdated = 0 then some (.error (.other "L1 Scalars not yet initialized"))
      else
        let scaledBase := 16 * BitVec.ofNat 256 sc.baseFeeScalar * sc.l1BaseFee
        let scaledBlob := BitVec.ofNat 256 sc.blobFeeScalar * sc.l1BlobFee
        let totalL1GasPrice := scaledBase + scaledBlob
        match toU64 sc.decimals with
        | none => none
        | some decimals =>
            let decVal := min decimals 18
            let divisor := 16 * BitVec.ofNat 256 (10 ^ decVal)
            if divisor = 0 then some (.ok 0)
            else
              let fee := totalL1GasPrice * BitVec.ofNat 256 (calldataGas txData) / divisor
              some (.ok (fee * 110 / 100))

end SovereignShadow.Ports.L1DataFee
