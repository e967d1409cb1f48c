import Rtl8188eu.Runs

/-!
# Rate adaptation

The driver chooses the rate of a station from the transmit reports of the device. Six reports make a
cycle : five times the counters of the report move the rate up or down, then a power-training state
is tried, and then the power-training stage is decided.

The functions look up tables by the rate, by counters and by other tables, and add up 32-bit
counters. A read outside a table, or a sum that wraps, stops the model. `raInfo_run` : no run stops,
and the counters stay in their ranges.
-/

namespace Rtl8188eu

open Runs

/-! ## Tables -/

/-- `RETRY_PENALTY`. -/
def retryPenalty : List (List ℕ) :=
  [[5, 4, 3, 2, 0, 3], [6, 5, 4, 3, 0, 4], [6, 5, 4, 2, 0, 4], [8, 7, 6, 4, 0, 6], [10, 9, 8, 6, 0, 8],
    [10, 9, 8, 4, 0, 8], [10, 9, 8, 2, 0, 8], [10, 9, 8, 0, 0, 8], [18, 17, 16, 8, 0, 16],
    [26, 25, 24, 16, 0, 24], [34, 33, 32, 24, 0, 32], [34, 31, 28, 20, 0, 32], [34, 31, 27, 18, 0, 32],
    [34, 31, 26, 16, 0, 32], [34, 30, 22, 16, 0, 32], [34, 30, 24, 16, 0, 32], [49, 46, 40, 16, 0, 48],
    [49, 45, 32, 0, 0, 48], [49, 45, 22, 18, 0, 48], [49, 40, 24, 16, 0, 48], [49, 32, 18, 12, 0, 48],
    [49, 22, 18, 14, 0, 48], [49, 16, 16, 0, 0, 48]]

/-- `PT_PENALTY`. -/
def ptPenalty : List ℕ := [34, 31, 30, 24, 0, 32]

/-- `RETRY_PENALTY_IDX`. -/
def retryPenaltyIdx : List (List ℕ) :=
  [[4, 4, 4, 5, 4, 4, 5, 7, 7, 7, 8, 0x0a, 4, 4, 4, 4, 6, 0x0a, 0x0b, 0x0d, 5, 5, 7, 7, 8, 0x0b, 0x0d, 0x0f],
    [0x0a, 0x0a, 0x0b, 0x0c, 0x0a, 0x0a, 0x0b, 0x0c, 0x0d, 0x10, 0x13, 0x14, 0x0b, 0x0c, 0x0d, 0x0e, 0x0f,
      0x11, 0x13, 0x15, 9, 9, 9, 9, 0x0c, 0x0e, 0x11, 0x13]]

/-- `RETRY_PENALTY_UP_IDX`. -/
def retryPenaltyUpIdx : List ℕ :=
  [0x0c, 0x0d, 0x0d, 0x0f, 0x0d, 0x0e, 0x0f, 0x0f, 0x10, 0x12, 0x13, 0x14, 0x0f, 0x10, 0x10, 0x12, 0x12,
    0x13, 0x14, 0x15, 0x11, 0x11, 0x12, 0x13, 0x13, 0x13, 0x14, 0x15]

/-- `RSSI_THRESHOLD`. -/
def rssiThreshold : List ℕ :=
  [0, 0, 0, 0, 0, 0, 0, 0, 0, 0x24, 0x26, 0x2a, 0x18, 0x1a, 0x1d, 0x1f, 0x21, 0x27, 0x29, 0x2a, 0, 0, 0,
    0x1f, 0x23, 0x28, 0x2a, 0x2c]

/-- `N_THRESHOLD_HIGH`. -/
def nThresholdHigh : List ℕ :=
  [4, 4, 8, 16, 24, 36, 48, 72, 96, 144, 192, 216, 60, 80, 100, 160, 240, 400, 560, 640, 300, 320, 480, 720,
    1000, 1200, 1600, 2000]

/-- `N_THRESHOLD_LOW`. -/
def nThresholdLow : List ℕ :=
  [2, 2, 4, 8, 12, 18, 24, 36, 48, 72, 96, 108, 30, 40, 50, 80, 120, 200, 280, 320, 150, 160, 240, 360,
    500, 600, 800, 1000]

/-- `DROPING_NECESSARY`. -/
def dropingNecessary : List ℕ :=
  [1, 1, 1, 1, 1, 2, 3, 4, 5, 6, 7, 8, 1, 2, 3, 4, 5, 6, 7, 8, 5, 6, 7, 8, 9, 10, 11, 12]

/-- `PendingForRateUpFail`. -/
def pendingForRateUpFail : List ℕ := [2, 10, 24, 40, 60]

/-- `DynamicTxRPTTiming`, 200 ms to 1200 ms. -/
def dynamicTxRPTTiming : List ℕ := [0x186a, 0x30d4, 0x493e, 0x61a8, 0x7a12, 0x927c]

/-- `RATESIZE`. -/
def rateSize : ℕ := 28

/-! ## The state of a station -/

/-- `struct odm_ra_info`, with the static `DynamicTxRPTTimingCounter` of
`odm_RateDecision_8188E`. -/
structure RaInfo where
  rateID : ℕ
  rateMask : ℕ
  raUseRate : ℕ
  rateSGI : ℕ
  rssiStaRA : ℕ
  preRssiStaRA : ℕ
  sgiEnable : ℕ
  decisionRate : ℕ
  preRate : ℕ
  highestRate : ℕ
  lowestRate : ℕ
  nscUp : ℕ
  nscDown : ℕ
  rty : List ℕ
  total : ℕ
  drop : ℕ
  active : Bool
  rptTime : ℕ
  raWaitingCounter : ℕ
  raPendingCounter : ℕ
  ptActive : Bool
  ptTryState : ℕ
  ptStage : ℕ
  ptStopCount : ℕ
  ptPreRate : ℕ
  ptPreRssi : ℕ
  ptModeSS : ℕ
  raStage : ℕ
  ptSmoothFactor : ℕ
  timingCounter : ℕ
  deriving DecidableEq, Repr

/-- A 32-bit sum that does not wrap. -/
def add32 (a b : ℕ) : Option ℕ := if a + b < 2 ^ 32 then some (a + b) else none

namespace RaInfo

/-- `odm_SetTxRPTTiming_8188E`. -/
def odmSetTxRPTTiming (r : RaInfo) (extend : ℕ) : Option RaInfo := do
  let idx := (dynamicTxRPTTiming.take 5).findIdx (· = r.rptTime)
  let idx :=
    if extend = 0 then 0
    else if extend = 1 then if idx + 1 > 5 then 5 else idx + 1
    else if extend = 2 then if idx ≠ 0 then idx - 1 else idx
    else idx
  let t ← dynamicTxRPTTiming[idx]?
  return { r with rptTime := t }

/-- The loop of `odm_RateDown_8188E` : the first used rate at `i` or below, above the lowest one. -/
def downLoop (r : RaInfo) : ℕ → Option ℕ
  | 0 => none
  | i + 1 =>
    if i + 1 ≤ r.lowestRate then none
    else if r.raUseRate.testBit (i + 1) then some (i + 1)
    else r.downLoop i

/-- The rate that `odm_RateDown_8188E` goes to. A short guard interval is given up first. -/
def rateDownChoice (r : RaInfo) : ℕ × RaInfo :=
  if r.preRate > r.highestRate then (r.highestRate, r)
  else if r.rateSGI ≠ 0 then (r.preRate, { r with rateSGI := 0 })
  else if r.preRate > r.lowestRate then
    if r.preRate > 0 then ((r.downLoop (r.preRate - 1)).getD r.preRate, r) else (r.preRate, r)
  else (r.lowestRate, r)

/-- The counters at the label `RateDownFinish`. -/
def rateDownCount (r : RaInfo) : RaInfo :=
  let r :=
    if r.raWaitingCounter = 1 then
      { r with
        raWaitingCounter := (r.raWaitingCounter + 1) % 256
        raPendingCounter := (r.raPendingCounter + 1) % 256 }
    else if r.raWaitingCounter = 0 then r
    else { r with raWaitingCounter := 0, raPendingCounter := 0 }
  if r.raPendingCounter ≥ 4 then { r with raPendingCounter := 4 } else r

/-- `odm_RateDown_8188E`. -/
def odmRateDown (r : RaInfo) : Option RaInfo :=
  let c := r.rateDownChoice
  { c.2.rateDownCount with decisionRate := c.1 }.odmSetTxRPTTiming 2

/-- The loop of `odm_RateUp_8188E` : the first used rate from `i` on, up to the highest one. -/
def upLoop (r : RaInfo) : ℕ → ℕ → Option ℕ
  | 0, _ => none
  | fuel + 1, i => if r.raUseRate.testBit i then some i else r.upLoop fuel (i + 1)

/-- The label `RateUpfinish`. -/
def rateUpFinish (r : RaInfo) (rateID : ℕ) : Option RaInfo := do
  let pending ← pendingForRateUpFail[r.raPendingCounter]?
  let r :=
    if r.raWaitingCounter = 4 + pending then { r with raWaitingCounter := 0 }
    else { r with raWaitingCounter := (r.raWaitingCounter + 1) % 256 }
  return { r with decisionRate := rateID }

/-- The short guard interval at the highest rate. -/
def sgiUp (r : RaInfo) : RaInfo :=
  if r.sgiEnable ≠ 0 ∧ r.rateSGI ≠ 1 then { r with rateSGI := 1 }
  else if r.sgiEnable ≠ 1 then { r with rateSGI := 0 }
  else r

/-- The first decision after a wait of one report. -/
def rateUpReset (r : RaInfo) : RaInfo :=
  if r.raWaitingCounter = 1 then { r with raWaitingCounter := 0, raPendingCounter := 0 } else r

/-- `odm_RateUp_8188E`. -/
def odmRateUp (r : RaInfo) : Option RaInfo := do
  let rateID := r.preRate
  if r.raWaitingCounter > 1 then ({ r with preRssiStaRA := r.rssiStaRA } : RaInfo).rateUpFinish rateID
  else
    let r ← r.rateUpReset.odmSetTxRPTTiming 0
    if rateID < r.highestRate then
      r.rateUpFinish ((r.upLoop (r.highestRate - rateID) (rateID + 1)).getD rateID)
    else if rateID = r.highestRate then r.sgiUp.rateUpFinish rateID
    else r.rateUpFinish r.highestRate

/-- `odm_ResetRaCounter_8188E`. -/
def odmResetRaCounter (r : RaInfo) : Option RaInfo := do
  let high ← nThresholdHigh[r.decisionRate]?
  let low ← nThresholdLow[r.decisionRate]?
  return { r with nscUp := (high + low) >>> 1, nscDown := (high + low) >>> 1 }

/-- A counter after a report : the retries with their penalties are added, and the penalty of all
packets is taken off. -/
def nscAfter (r : RaInfo) (nsc penaltyID : ℕ) : Option ℕ := do
  let penalty ← retryPenalty[penaltyID]?
  let nsc ← (List.range 5).foldlM
    (fun n j => do add32 n ((← r.rty[j]?) * (← penalty[j]?))) nsc
  let all := r.total * (← penalty[5]?)
  return if nsc > all then nsc - all else 0

/-- The move of the rate in `odm_RateDecision_8188E`. -/
def moveRate (r : RaInfo) (rateID : ℕ) : Option RaInfo := do
  if r.nscDown < (← nThresholdLow[rateID]?) ∨ r.drop > (← dropingNecessary[rateID]?) then r.odmRateDown
  else if r.nscUp > (← nThresholdHigh[rateID]?) then r.odmRateUp
  else return r

/-- A signal that changed by more than 3 starts the waiting anew. -/
def rssiReset (r : RaInfo) : RaInfo :=
  if (r.rssiStaRA : ℤ) < (r.preRssiStaRA : ℤ) - 3 ∨ r.rssiStaRA > r.preRssiStaRA + 3 then
    { r with raWaitingCounter := 0, raPendingCounter := 0 }
  else r

/-- The counters of `odm_RateDecision_8188E` after a report. -/
def countRetries (r : RaInfo) (rateID : ℕ) : Option RaInfo := do
  let rtyPtID := if r.rssiStaRA > (← rssiThreshold[rateID]?) then 0 else 1
  let penaltyID1 ← (← retryPenaltyIdx[rtyPtID]?)[rateID]?
  let nscDown ← r.nscAfter r.nscDown penaltyID1
  let penaltyID2 ← retryPenaltyUpIdx[rateID]?
  let nscUp ← r.nscAfter r.nscUp penaltyID2
  return { r with nscDown := nscDown, nscUp := nscUp }

/-- The decision is at most the highest rate. -/
def clampDecision (r : RaInfo) : RaInfo :=
  if r.decisionRate > r.highestRate then { r with decisionRate := r.highestRate } else r

/-- The reports come less often while the rate does not change. -/
def extendTiming (r : RaInfo) : Option RaInfo :=
  let r :=
    if r.decisionRate = r.preRate then { r with timingCounter := (r.timingCounter + 1) % 256 }
    else { r with timingCounter := 0 }
  if r.timingCounter ≥ 4 then (r.odmSetTxRPTTiming 1).map fun r => { r with timingCounter := 0 }
  else some r

/-- `odm_RateDecision_8188E`. -/
def odmRateDecision (r : RaInfo) : Option RaInfo := do
  if r.active ∧ r.total > 0 then
    let r := r.rssiReset
    let rateID := if r.preRate > r.highestRate then r.highestRate else r.preRate
    let r ← r.countRetries rateID
    let r ← r.moveRate rateID
    let r ← r.clampDecision.extendTiming
    ({ r with preRate := r.decisionRate } : RaInfo).odmResetRaCounter
  else return r

/-- The rates that a rate id allows, a mask. The ids 12 to 15 name a register, whose value is
`arfr`. -/
def allowedRates (rateID arfr : ℕ) : ℕ :=
  match rateID with
  | 0 => 0x0f8ff015
  | 1 => 0x0f8ff010
  | 2 => 0x0f8ff005
  | 3 => 0x0f8ff000
  | 4 => 0x00000ff5
  | 5 => 0x00000ff0
  | 6 => 0x0000000d
  | 12 | 13 | 14 | 15 => arfr
  | _ => 0xffffffff

/-- The first used rate at `i` or below. -/
def highestLoop (raUseRate : ℕ) : ℕ → Option ℕ
  | 0 => if raUseRate.testBit 0 then some 0 else none
  | i + 1 => if raUseRate.testBit (i + 1) then some (i + 1) else highestLoop raUseRate i

/-- The first used rate from `i` on. -/
def lowestLoop (raUseRate : ℕ) : ℕ → ℕ → Option ℕ
  | 0, _ => none
  | fuel + 1, i => if raUseRate.testBit i then some i else lowestLoop raUseRate fuel (i + 1)

/-- The highest of the used rates. The loop starts at `RATESIZE`. -/
def highestRateOf (raUseRate highestRate : ℕ) : ℕ :=
  if raUseRate ≠ 0 then (highestLoop raUseRate rateSize).getD highestRate else 0

/-- The lowest of the used rates. -/
def lowestRateOf (raUseRate lowestRate : ℕ) : ℕ :=
  if raUseRate ≠ 0 then (lowestLoop raUseRate rateSize 0).getD lowestRate else 0

/-- The power-training mode of a highest rate. -/
def ptModeOf (highestRate : ℕ) : ℕ :=
  if highestRate > 0x13 then 3 else if highestRate > 0x0b then 2 else if highestRate > 0x03 then 1 else 0

/-- `odm_ARFBRefresh_8188E`. -/
def odmARFBRefresh (r : RaInfo) (arfr : ℕ) : RaInfo :=
  let use := r.rateMask &&& allowedRates r.rateID arfr
  let highest := highestRateOf use r.highestRate
  { r with
    raUseRate := use
    highestRate := highest
    lowestRate := lowestRateOf use r.lowestRate
    ptModeSS := ptModeOf highest }.clampDecision

/-- `odm_PTTryState_8188E`. -/
def odmPTTryState (r : RaInfo) : RaInfo :=
  let tryIt :=
    match r.ptModeSS with
    | 3 => decide (r.decisionRate ≥ 0x19)
    | 2 => decide (r.decisionRate ≥ 0x11)
    | 1 => decide (r.decisionRate ≥ 0x0a)
    | 0 => decide (r.decisionRate ≥ 0x03)
    | _ => false
  let r := { r with ptTryState := if tryIt then 1 else 0 }
  let r :=
    if r.rssiStaRA < 48 then { r with ptStage := 0 }
    else if r.ptTryState = 1 then
      if r.ptStopCount ≥ 10 ∨ r.ptPreRssi > r.rssiStaRA + 5 ∨ (r.ptPreRssi : ℤ) < (r.rssiStaRA : ℤ) - 5 ∨
          r.decisionRate ≠ r.ptPreRate then
        { r with
          ptStage := if r.ptStage = 0 then 1 else if r.ptStage = 1 then 3 else 5
          ptPreRssi := r.rssiStaRA
          ptStopCount := 0 }
      else { r with raStage := 0, ptStopCount := (r.ptStopCount + 1) % 256 }
    else { r with ptStage := 0, raStage := 0 }
  { r with ptPreRate := r.decisionRate }

/-- The loop of `odm_PTDecision_8188E` : the index at which it ends. -/
def ptLoop (r : RaInfo) (numTotal : ℕ) : ℕ → ℕ → ℕ → Option ℕ
  | 0, j, _ => some j
  | fuel + 1, j, numsc => do
    let numsc ← add32 numsc ((← r.rty[j]?) * (← ptPenalty[j]?))
    if numsc > numTotal then some j else r.ptLoop numTotal fuel (j + 1) numsc

/-- `PTSmoothFactor` after the loop ended at `j`. -/
def smoothAfter (r : RaInfo) (j : ℕ) : ℕ :=
  let j := j >>> 1
  let tempStage := (r.ptStage + 1) >>> 1
  let stageId := if tempStage > j then tempStage - j else 0
  let smooth := ((r.ptSmoothFactor >>> 1) + (r.ptSmoothFactor >>> 2) + stageId * 16 + 2) % 256
  if smooth > 192 then 192 else smooth

/-- `PTStage` for a smooth factor. -/
def stageOf (smooth : ℕ) : ℕ :=
  let tempStage := (smooth >>> 6) * 2
  if tempStage ≠ 0 then tempStage - 1 else tempStage

/-- `odm_PTDecision_8188E`. -/
def odmPTDecision (r : RaInfo) : Option RaInfo := do
  let numTotal := r.total * (← ptPenalty[5]?)
  let j ← r.ptLoop numTotal 5 0 0
  let smooth := r.smoothAfter j
  return { r with ptSmoothFactor := smooth, ptStage := if r.drop > 3 then 0 else stageOf smooth }

/-! ## The entry points -/

/-- The highest rate of a wireless mode, as `ODM_RAInfo_Init` takes it. -/
def maxRateIdx (wirelessMode : Option UInt8) : ℕ :=
  match wirelessMode with
  | none => 0x13
  | some m =>
    if m = 0xff then 0x13
    else if m &&& 8 ≠ 0 then 0x13
    else if m &&& 2 ≠ 0 then 0x0b
    else if m &&& 1 ≠ 0 then 0x03
    else 0x13

/-- `ODM_RAInfo_Init`. The static counter is not touched. -/
def odmRAInfoInit (wirelessMode : Option UInt8) (timingCounter : ℕ) : RaInfo where
  decisionRate := maxRateIdx wirelessMode
  preRate := maxRateIdx wirelessMode
  highestRate := maxRateIdx wirelessMode
  lowestRate := 0
  rateID := 0
  rateMask := 0xffffffff
  rssiStaRA := 0
  preRssiStaRA := 0
  sgiEnable := 0
  raUseRate := 0xffffffff
  nscDown := (640 + 320) / 2
  nscUp := (640 + 320) / 2
  rateSGI := 0
  active := true
  rptTime := 0x927c
  drop := 0
  rty := [0, 0, 0, 0, 0]
  total := 0
  raWaitingCounter := 0
  raPendingCounter := 0
  ptActive := true
  ptTryState := 0
  ptStage := 5
  ptSmoothFactor := 192
  ptStopCount := 0
  ptPreRate := 0
  ptPreRssi := 0
  ptModeSS := 0
  raStage := 0
  timingCounter := timingCounter

/-- `ODM_RA_UpdateRateInfo_8188E`. -/
def odmRAUpdateRateInfo (r : RaInfo) (rateID rateMask sgiEnable arfr : ℕ) : RaInfo :=
  { r with rateID := rateID, rateMask := rateMask, sgiEnable := sgiEnable }.odmARFBRefresh arfr

/-- `ODM_RA_SetRSSI_8188E`. -/
def odmRASetRSSI (r : RaInfo) (rssi : ℕ) : RaInfo := { r with rssiStaRA := rssi }

/-- The counters of a transmit report for one station. -/
structure TxReport where
  rty : Vector UInt16 5
  drop : UInt16
  deriving DecidableEq, Repr

/-- The part of `ODM_RA_TxRPT2Handle_8188E` for one station. -/
def odmRATxRPT2Handle (r : RaInfo) (rpt : TxReport) : Option RaInfo := do
  let rty := rpt.rty.toList.map UInt16.toNat
  let r := { r with rty := rty, drop := rpt.drop.toNat, total := rty.sum + rpt.drop.toNat }
  if r.total ≠ 0 then
    if r.ptActive then
      let r ←
        if r.raStage < 5 then r.odmRateDecision
        else if r.raStage = 5 then some r.odmPTTryState
        else r.odmPTDecision
      return { r with raStage := if r.raStage ≤ 5 then (r.raStage + 1) % 256 else 0 }
    else r.odmRateDecision
  else return r

/-- What may happen to a station. The static counter also counts the decisions for other
stations. -/
inductive RaEvent
  | init (wirelessMode : Option UInt8)
  | updateRateInfo (rateID : Fin 12) (rateMask : BitVec 28) (sgiEnable : UInt8)
  | setRSSI (rssi : UInt8)
  | report (rpt : TxReport)
  | otherStation (timingCounter : UInt8)
  deriving DecidableEq, Repr

/-- One event. -/
def raStep (r : RaInfo) : RaEvent → Option RaInfo
  | .init m => some (odmRAInfoInit m r.timingCounter)
  | .updateRateInfo rateID rateMask sgiEnable =>
    some (r.odmRAUpdateRateInfo rateID rateMask.toNat sgiEnable.toNat 0)
  | .setRSSI rssi => some (r.odmRASetRSSI rssi.toNat)
  | .report rpt => r.odmRATxRPT2Handle rpt
  | .otherStation c => some { r with timingCounter := c.toNat }

/-! ## Ranges -/

/-- The ranges of the counters. -/
structure RaRanges (r : RaInfo) : Prop where
  lowest_le : r.lowestRate ≤ r.highestRate
  highest_lt : r.highestRate < 28
  decision_le : r.decisionRate ≤ r.highestRate
  pending_le : r.raPendingCounter ≤ 4
  waiting_le : r.raWaitingCounter ≤ 64
  rptTime_mem : r.rptTime ∈ dynamicTxRPTTiming
  ptStage_mem : r.ptStage ∈ [0, 1, 3, 5]
  ptSmoothFactor_le : r.ptSmoothFactor ≤ 192
  raStage_le : r.raStage ≤ 6

/-- The value of `RAWaitingCounter` at which `odm_RateUp_8188E` clears it. -/
def waitLimit (pending : ℕ) : ℕ := 4 + pendingForRateUpFail.getD pending 0

/-- The two counters of the rate moves. -/
structure WaitOk (r : RaInfo) : Prop where
  pending_le : r.raPendingCounter ≤ 4
  waiting_le : r.raWaitingCounter ≤ waitLimit r.raPendingCounter

/-- What every event keeps. -/
structure RaInv (r : RaInfo) : Prop where
  lowest_le : r.lowestRate ≤ r.highestRate
  highest_lt : r.highestRate < 28
  decision_le : r.decisionRate ≤ r.highestRate
  wait : WaitOk r
  rptTime_mem : r.rptTime ∈ dynamicTxRPTTiming
  ptStage_mem : r.ptStage ∈ [0, 1, 3, 5]
  ptSmoothFactor_le : r.ptSmoothFactor ≤ 192
  raStage_le : r.raStage ≤ 6
  nscUp_le : r.nscUp ≤ 1500
  nscDown_le : r.nscDown ≤ 1500

theorem waitLimit_le {pending : ℕ} (h : pending ≤ 4) : waitLimit pending ≤ 64 := by
  unfold waitLimit pendingForRateUpFail
  interval_cases pending <;> simp

theorem waitLimit_pos (pending : ℕ) : 4 ≤ waitLimit pending := Nat.le_add_right ..

theorem RaInv.ranges {r : RaInfo} (h : RaInv r) : RaRanges r :=
  ⟨h.lowest_le, h.highest_lt, h.decision_le, h.wait.pending_le,
    h.wait.waiting_le.trans (waitLimit_le h.wait.pending_le), h.rptTime_mem, h.ptStage_mem,
    h.ptSmoothFactor_le, h.raStage_le⟩

/-! ## The parts of a decision -/

/-- The timing is one of the table. -/
theorem odmSetTxRPTTiming_eq (r : RaInfo) (extend : ℕ) : ∃ t ∈ dynamicTxRPTTiming,
    r.odmSetTxRPTTiming extend = some { r with rptTime := t } := by
  have hle : (dynamicTxRPTTiming.take 5).findIdx (· = r.rptTime) ≤ 5 :=
    List.findIdx_le_length.trans (by decide)
  unfold odmSetTxRPTTiming
  extract_lets idx idx'
  have hidx : idx' < dynamicTxRPTTiming.length := by
    have h6 : dynamicTxRPTTiming.length = 6 := rfl
    have h5 : idx ≤ 5 := hle
    rw [h6]
    unfold idx'
    split_ifs <;> omega
  refine ⟨dynamicTxRPTTiming[idx'], List.getElem_mem hidx, ?_⟩
  rw [List.getElem?_eq_getElem hidx]
  rfl

/-- What a move of the rate leaves alone, and the counters it moves. -/
structure Moved (r r' : RaInfo) : Prop where
  highestRate : r'.highestRate = r.highestRate
  lowestRate : r'.lowestRate = r.lowestRate
  ptStage : r'.ptStage = r.ptStage
  ptSmoothFactor : r'.ptSmoothFactor = r.ptSmoothFactor
  raStage : r'.raStage = r.raStage
  wait : WaitOk r'
  rptTime_mem : r'.rptTime ∈ dynamicTxRPTTiming

theorem Moved.trans {r r' r'' : RaInfo} (h : Moved r r') (h' : Moved r' r'') : Moved r r'' :=
  ⟨h'.highestRate.trans h.highestRate, h'.lowestRate.trans h.lowestRate, h'.ptStage.trans h.ptStage,
    h'.ptSmoothFactor.trans h.ptSmoothFactor, h'.raStage.trans h.raStage, h'.wait, h'.rptTime_mem⟩

theorem rateDownChoice_eq (r : RaInfo) :
    r.rateDownChoice.2 = r ∨ r.rateDownChoice.2 = { r with rateSGI := 0 } := by
  unfold rateDownChoice
  split_ifs
  · exact Or.inl rfl
  · exact Or.inr rfl
  · exact Or.inl rfl
  · exact Or.inl rfl
  · exact Or.inl rfl

theorem rateDownCount_eq {r : RaInfo} (hw : WaitOk r) : ∃ waiting pending,
    r.rateDownCount = { r with raWaitingCounter := waiting, raPendingCounter := pending } ∧
      pending ≤ 4 ∧
      waiting ≤ waitLimit pending := by
  have hp := hw.pending_le
  have h2 : ∀ pending, 2 ≤ waitLimit pending :=
    fun pending => le_trans (by decide) (waitLimit_pos pending)
  unfold rateDownCount
  by_cases h1 : r.raWaitingCounter = 1
  · rw [if_pos h1, h1]
    dsimp only
    split_ifs with h4
    · exact ⟨2, 4, rfl, le_rfl, h2 4⟩
    · exact ⟨2, _, rfl, by omega, h2 _⟩
  rw [if_neg h1]
  by_cases h0 : r.raWaitingCounter = 0
  · rw [if_pos h0]
    dsimp only
    split_ifs with h4
    · exact ⟨r.raWaitingCounter, 4, rfl, le_rfl, by omega⟩
    · exact ⟨r.raWaitingCounter, r.raPendingCounter, rfl, hp, hw.waiting_le⟩
  · rw [if_neg h0]
    exact ⟨0, 0, rfl, Nat.zero_le _, Nat.zero_le _⟩

theorem moved_odmRateDown {r : RaInfo} (hw : WaitOk r) :
    ∃ r', r.odmRateDown = some r' ∧ Moved r r' := by
  unfold odmRateDown
  extract_lets c
  have hc : WaitOk c.2 := by
    rcases r.rateDownChoice_eq with h | h
    · exact h ▸ hw
    · exact h ▸ ⟨hw.pending_le, hw.waiting_le⟩
  obtain ⟨waiting, pending, hcount, hp, hwait⟩ := rateDownCount_eq hc
  obtain ⟨t, ht, htime⟩ := odmSetTxRPTTiming_eq { c.2.rateDownCount with decisionRate := c.1 } 2
  refine ⟨_, htime, ?_⟩
  rw [hcount]
  rcases r.rateDownChoice_eq with h | h
  · have h : c.2 = r := h
    rw [h]
    exact ⟨rfl, rfl, rfl, rfl, rfl, ⟨hp, hwait⟩, ht⟩
  · have h : c.2 = { r with rateSGI := 0 } := h
    rw [h]
    exact ⟨rfl, rfl, rfl, rfl, rfl, ⟨hp, hwait⟩, ht⟩

theorem moved_rateUpFinish {r : RaInfo} (hw : WaitOk r) (ht : r.rptTime ∈ dynamicTxRPTTiming)
    (rateID : ℕ) :
    ∃ r', r.rateUpFinish rateID = some r' ∧ Moved r r' := by
  have hlt : r.raPendingCounter < pendingForRateUpFail.length := Nat.lt_succ_of_le hw.pending_le
  have hlimit : waitLimit r.raPendingCounter = 4 + pendingForRateUpFail[r.raPendingCounter] := by
    rw [waitLimit, List.getD_eq_getElem?_getD, List.getElem?_eq_getElem hlt, Option.getD_some]
  have h64 := waitLimit_le hw.pending_le
  have hwait := hw.waiting_le
  unfold rateUpFinish
  rw [List.getElem?_eq_getElem hlt]
  simp only [Option.bind_eq_bind, Option.bind_some, Option.pure_def]
  refine ⟨_, rfl, ?_⟩
  split_ifs with heq
  · exact ⟨rfl, rfl, rfl, rfl, rfl, ⟨hw.pending_le, Nat.zero_le _⟩, ht⟩
  · refine ⟨rfl, rfl, rfl, rfl, rfl, ⟨hw.pending_le, ?_⟩, ht⟩
    dsimp only
    omega

theorem moved_odmRateUp {r : RaInfo} (hw : WaitOk r) (ht : r.rptTime ∈ dynamicTxRPTTiming) :
    ∃ r', r.odmRateUp = some r' ∧ Moved r r' := by
  unfold odmRateUp
  dsimp only
  split_ifs with h1
  · obtain ⟨r', hr', hm⟩ := moved_rateUpFinish
      (r := { r with preRssiStaRA := r.rssiStaRA }) ⟨hw.pending_le, hw.waiting_le⟩ ht r.preRate
    exact ⟨r', hr', hm.highestRate, hm.lowestRate, hm.ptStage, hm.ptSmoothFactor,
      hm.raStage, hm.wait,
      hm.rptTime_mem⟩
  obtain ⟨t, htime, hset⟩ := odmSetTxRPTTiming_eq r.rateUpReset 0
  rw [hset]
  simp only [Option.bind_eq_bind, Option.bind_some]
  set r₁ : RaInfo := { r.rateUpReset with rptTime := t } with hr₁
  have hmoved : Moved r r₁ := by
    rw [hr₁]
    unfold rateUpReset
    split_ifs
    · exact ⟨rfl, rfl, rfl, rfl, rfl, ⟨Nat.zero_le _, Nat.zero_le _⟩, htime⟩
    · exact ⟨rfl, rfl, rfl, rfl, rfl, ⟨hw.pending_le, hw.waiting_le⟩, htime⟩
  have hfinish : ∀ {r₂ : RaInfo} (rateID : ℕ), Moved r r₂ → ∃ r', r₂.rateUpFinish rateID = some r' ∧
    Moved r r' := by
    intro r₂ rateID hm
    obtain ⟨r', hr', hm'⟩ := moved_rateUpFinish hm.wait hm.rptTime_mem rateID
    exact ⟨r', hr', hm.trans hm'⟩
  split_ifs
  · exact hfinish _ hmoved
  · refine hfinish _ (hmoved.trans ?_)
    unfold sgiUp
    split_ifs
    all_goals exact ⟨rfl, rfl, rfl, rfl, rfl, ⟨hmoved.wait.pending_le, hmoved.wait.waiting_le⟩,
      hmoved.rptTime_mem⟩
  · exact hfinish _ hmoved

/-- The counters of a report. -/
structure ReportOk (r : RaInfo) : Prop where
  length : r.rty.length = 5
  rty_lt : ∀ x ∈ r.rty, x < 2 ^ 16

theorem exists_getElem? {α : Type*} {l : List α} {i n : ℕ} (hl : l.length = n) (hi : i < n) :
    ∃ a ∈ l, l[i]? = some a :=
  ⟨l[i], List.getElem_mem (hl ▸ hi), List.getElem?_eq_getElem (hl ▸ hi)⟩

/-- Adding up the retries does not wrap. -/
theorem foldlM_add32 {rty penalty : List ℕ} (hl : rty.length = 5) (hr : ∀ x ∈ rty, x < 2 ^ 16)
    (hp : penalty.length = 6) (h49 : ∀ x ∈ penalty, x ≤ 49) :
    ∀ (js : List ℕ) (n : ℕ), (∀ j ∈ js, j < 5) → n + js.length * (2 ^ 16 * 49) < 2 ^ 32 →
      ∃ m, js.foldlM (fun n j => do add32 n ((← rty[j]?) * (← penalty[j]?))) n = some m
  | [], n, _, _ => ⟨n, rfl⟩
  | j :: js, n, hj, hn => by
    obtain ⟨a, ha, hra⟩ := exists_getElem? hl (hj j (List.mem_cons_self ..))
    obtain ⟨b, hb, hpb⟩ := exists_getElem? hp ((hj j (List.mem_cons_self ..)).trans (by decide))
    have hmul : a * b ≤ 2 ^ 16 * 49 := Nat.mul_le_mul (hr a ha).le (h49 b hb)
    rw [List.length_cons] at hn
    have hadd : add32 n (a * b) = some (n + a * b) := by
      rw [add32, if_pos (by omega)]
    have ih := foldlM_add32 hl hr hp h49 js (n + a * b)
      (fun j hj' => hj j (List.mem_cons_of_mem _ hj')) (by omega)
    rw [List.foldlM_cons, hra, hpb]
    simpa only [Option.bind_eq_bind, Option.bind_some, hadd] using ih

theorem retryPenalty_row : ∀ row ∈ retryPenalty, row.length = 6 ∧ ∀ x ∈ row, x ≤ 49 := by decide

theorem exists_nscAfter {r : RaInfo} (hr : ReportOk r) {nsc penaltyID : ℕ} (hn : nsc ≤ 1500)
    (hp : penaltyID < 23) : ∃ n, r.nscAfter nsc penaltyID = some n := by
  obtain ⟨row, hrow, hget⟩ := exists_getElem? (rfl : retryPenalty.length = 23) hp
  obtain ⟨hlen, h49⟩ := retryPenalty_row row hrow
  obtain ⟨m, hm⟩ := foldlM_add32 hr.length hr.rty_lt hlen h49 (List.range 5) nsc
    (fun j hj => List.mem_range.mp hj) (by rw [List.length_range]; omega)
  obtain ⟨x, -, hx⟩ := exists_getElem? hlen (by decide : 5 < 6)
  unfold nscAfter
  rw [hget]
  simp only [Option.bind_eq_bind, Option.bind_some] at hm ⊢
  rw [hm, Option.bind_some, hx]
  exact ⟨_, rfl⟩

theorem retryPenaltyIdx_row :
    ∀ row ∈ retryPenaltyIdx, row.length = 28 ∧ ∀ x ∈ row, x < 23 := by decide

theorem retryPenaltyUpIdx_lt : ∀ x ∈ retryPenaltyUpIdx, x < 23 := by decide

theorem exists_countRetries {r : RaInfo} (hr : ReportOk r) (hd : r.nscDown ≤ 1500)
    (hu : r.nscUp ≤ 1500)
    {rateID : ℕ} (hrate : rateID < 28) :
    ∃ down up, r.countRetries rateID = some { r with nscDown := down, nscUp := up } := by
  obtain ⟨th, -, hth⟩ := exists_getElem? (rfl : rssiThreshold.length = 28) hrate
  unfold countRetries
  rw [hth]
  simp only [Option.bind_eq_bind, Option.bind_some, Option.pure_def]
  obtain ⟨row, hrow, hget⟩ := exists_getElem? (rfl : retryPenaltyIdx.length = 2)
    (by split_ifs <;> decide : (if r.rssiStaRA > th then 0 else 1) < 2)
  obtain ⟨hlen, h23⟩ := retryPenaltyIdx_row row hrow
  obtain ⟨id1, hid1, hget1⟩ := exists_getElem? hlen hrate
  obtain ⟨id2, hid2, hget2⟩ := exists_getElem? (rfl : retryPenaltyUpIdx.length = 28) hrate
  obtain ⟨down, hdown⟩ := exists_nscAfter hr hd (h23 id1 hid1)
  obtain ⟨up, hup⟩ := exists_nscAfter hr hu (retryPenaltyUpIdx_lt id2 hid2)
  rw [hget, Option.bind_some, hget1, Option.bind_some, hdown, Option.bind_some, hget2,
    Option.bind_some, hup]
  exact ⟨down, up, rfl⟩

theorem moved_moveRate {r : RaInfo} (hw : WaitOk r) (ht : r.rptTime ∈ dynamicTxRPTTiming)
    {rateID : ℕ}
    (hrate : rateID < 28) : ∃ r', r.moveRate rateID = some r' ∧ Moved r r' := by
  obtain ⟨low, -, hlow⟩ := exists_getElem? (rfl : nThresholdLow.length = 28) hrate
  obtain ⟨drop, -, hdrop⟩ := exists_getElem? (rfl : dropingNecessary.length = 28) hrate
  obtain ⟨high, -, hhigh⟩ := exists_getElem? (rfl : nThresholdHigh.length = 28) hrate
  unfold moveRate
  rw [hlow, hdrop, hhigh]
  simp only [Option.bind_eq_bind, Option.bind_some, Option.pure_def]
  split_ifs
  · exact moved_odmRateDown hw
  · exact moved_odmRateUp hw ht
  · exact ⟨r, rfl, rfl, rfl, rfl, rfl, rfl, hw, ht⟩

theorem nThreshold_le : ∀ x ∈ nThresholdHigh, ∀ y ∈ nThresholdLow, (x + y) >>> 1 ≤ 1500 := by decide

theorem exists_odmResetRaCounter (r : RaInfo) (h : r.decisionRate < 28) :
    ∃ n ≤ 1500, r.odmResetRaCounter = some { r with nscUp := n, nscDown := n } := by
  obtain ⟨low, hlow, hgetl⟩ := exists_getElem? (rfl : nThresholdLow.length = 28) h
  obtain ⟨high, hhigh, hgeth⟩ := exists_getElem? (rfl : nThresholdHigh.length = 28) h
  refine ⟨_, nThreshold_le high hhigh low hlow, ?_⟩
  unfold odmResetRaCounter
  rw [hgeth, hgetl]
  rfl

theorem clampDecision_eq (r : RaInfo) :
    ∃ d ≤ r.highestRate, r.clampDecision = { r with decisionRate := d } := by
  unfold clampDecision
  split_ifs with h
  · exact ⟨r.highestRate, le_rfl, rfl⟩
  · exact ⟨r.decisionRate, by omega, rfl⟩

theorem extendTiming_eq {r : RaInfo} (ht : r.rptTime ∈ dynamicTxRPTTiming) :
    ∃ c, ∃ t ∈ dynamicTxRPTTiming, r.extendTiming =
      some { r with timingCounter := c, rptTime := t } := by
  unfold extendTiming
  extract_lets r₁
  have hr₁ : ∃ c, r₁ = { r with timingCounter := c } := by
    unfold r₁
    split_ifs
    · exact ⟨_, rfl⟩
    · exact ⟨_, rfl⟩
  obtain ⟨c, hc⟩ := hr₁
  split_ifs
  · obtain ⟨t, hmem, hset⟩ := odmSetTxRPTTiming_eq r₁ 1
    refine ⟨0, t, hmem, ?_⟩
    rw [hset, hc]
    rfl
  · exact ⟨c, r.rptTime, ht, congrArg some hc⟩

/-! ## The events -/

/-- A rate decision does not stop, and keeps the invariant. -/
theorem raInv_odmRateDecision {r : RaInfo} (h : RaInv r) (hr : ReportOk r) :
    ∃ r', r.odmRateDecision = some r' ∧ RaInv r' ∧ r'.raStage = r.raStage := by
  unfold odmRateDecision
  split_ifs with hactive
  · have hreset : ∃ w p, r.rssiReset = { r with raWaitingCounter := w, raPendingCounter := p } ∧
        p ≤ 4 ∧ w ≤ waitLimit p := by
      unfold rssiReset
      split_ifs
      · exact ⟨0, 0, rfl, Nat.zero_le _, Nat.zero_le _⟩
      · exact ⟨_, _, rfl, h.wait.pending_le, h.wait.waiting_le⟩
    obtain ⟨w, p, hreset, hp, hw⟩ := hreset
    rw [hreset]
    dsimp only
    set rateID := if r.preRate > r.highestRate then r.highestRate else r.preRate with hrate
    have hlt : rateID < 28 := by
      have := h.highest_lt
      rw [hrate]
      split_ifs <;> omega
    obtain ⟨down, up, hcount⟩ := exists_countRetries
      (r := { r with raWaitingCounter := w, raPendingCounter := p }) ⟨hr.length, hr.rty_lt⟩
        h.nscDown_le
      h.nscUp_le hlt
    rw [hcount]
    simp only [Option.bind_eq_bind, Option.bind_some]
    obtain ⟨r₁, hmove, hm⟩ := moved_moveRate
      (r := { r with raWaitingCounter := w, raPendingCounter := p, nscDown := down, nscUp := up })
      ⟨hp, hw⟩ h.rptTime_mem hlt
    rw [hmove, Option.bind_some]
    obtain ⟨d, hd, hclamp⟩ := r₁.clampDecision_eq
    obtain ⟨c, t, ht, htime⟩ := extendTiming_eq (r := { r₁ with decisionRate := d }) hm.rptTime_mem
    rw [hclamp, htime, Option.bind_some]
    have hhigh : r₁.highestRate = r.highestRate := hm.highestRate
    have hdlt : d < 28 := by
      have := h.highest_lt
      omega
    obtain ⟨n, hn, hres⟩ := exists_odmResetRaCounter
      { r₁ with decisionRate := d, timingCounter := c, rptTime := t, preRate := d } hdlt
    refine ⟨_, hres, ⟨?_, ?_, hd, ⟨hm.wait.pending_le, hm.wait.waiting_le⟩, ht, ?_, ?_, ?_, hn, hn⟩,
      hm.raStage⟩
    · rw [hhigh, hm.lowestRate]
      exact h.lowest_le
    · rw [hhigh]
      exact h.highest_lt
    · rw [hm.ptStage]
      exact h.ptStage_mem
    · rw [hm.ptSmoothFactor]
      exact h.ptSmoothFactor_le
    · rw [hm.raStage]
      exact h.raStage_le
  · exact ⟨r, rfl, h, rfl⟩

theorem highestLoop_some {n : ℕ} : ∀ {i : ℕ}, (∃ j ≤ i, n.testBit j = true) →
    ∃ k, highestLoop n i = some k ∧ n.testBit k = true ∧ ∀ j ≤ i, n.testBit j = true → j ≤ k
  | 0, h => by
    obtain ⟨j, hj, hbit⟩ := h
    obtain rfl := Nat.le_zero.mp hj
    exact ⟨0, by rw [highestLoop, if_pos hbit], hbit, fun j hj _ => hj⟩
  | i + 1, h => by
    by_cases hbit : n.testBit (i + 1) = true
    · exact ⟨i + 1, by rw [highestLoop, if_pos hbit], hbit, fun j hj _ => hj⟩
    · have hnext : ∀ j ≤ i + 1, n.testBit j = true → j ≤ i := fun j hj hb => by
        rcases Nat.lt_or_eq_of_le hj with hlt | rfl
        · omega
        · exact absurd hb hbit
      obtain ⟨j, hj, hb⟩ := h
      obtain ⟨k, hloop, hk, hmax⟩ := @highestLoop_some n i ⟨j, hnext j hj hb, hb⟩
      exact ⟨k, by rw [highestLoop, if_neg hbit,
        hloop], hk, fun j hj hb => hmax j (hnext j hj hb) hb⟩

theorem lowestLoop_some {n : ℕ} : ∀ {fuel i j : ℕ}, i ≤ j → j < i + fuel → n.testBit j = true →
    ∃ k, lowestLoop n fuel i = some k ∧ k ≤ j
  | 0, i, j, hij, hj, _ => absurd hj (by omega)
  | fuel + 1, i, j, hij, hj, hbit => by
    rw [lowestLoop]
    split_ifs with hi
    · exact ⟨i, rfl, hij⟩
    · have hne : i ≠ j := fun h => hi (h ▸ hbit)
      exact lowestLoop_some (by omega) (by omega) hbit

/-- The places of the bits of a number. -/
theorem lt_of_testBit {n k i : ℕ} (hn : n < 2 ^ k) (hi : n.testBit i = true) : i < k := by
  by_contra hge
  have hlt : n < 2 ^ i := hn.trans_le (Nat.pow_le_pow_right (by decide) (not_lt.mp hge))
  rw [Nat.testBit_lt_two_pow hlt] at hi
  exact absurd hi (by decide)

/-- The rates of a mask of 28 bits. -/
theorem rates_of_lt {use : ℕ} (h : use < 2 ^ 28) (highest lowest : ℕ) :
    lowestRateOf use lowest ≤ highestRateOf use highest ∧ highestRateOf use highest < 28 := by
  unfold lowestRateOf highestRateOf
  split_ifs with h0
  · have hbits : ∀ i, use.testBit i = true → i < 28 := fun i hi => lt_of_testBit h hi
    obtain ⟨j, hj⟩ := Nat.exists_testBit_of_ne_zero h0
    have hsize : j ≤ rateSize := (hbits j hj).le
    obtain ⟨k, hhigh, hk, hmax⟩ := @highestLoop_some use rateSize ⟨j, hsize, hj⟩
    obtain ⟨l, hlow, hle⟩ := @lowestLoop_some use rateSize 0 j (Nat.zero_le _)
      (by rw [Nat.zero_add]; exact hbits j hj) hj
    rw [hhigh, hlow, Option.getD_some, Option.getD_some]
    exact ⟨hle.trans (hmax j hsize hj), hbits k hk⟩
  · exact ⟨le_rfl, by decide⟩

/-- A new mask keeps the invariant. -/
theorem raInv_odmRAUpdateRateInfo {r : RaInfo} (h : RaInv r) {rateID rateMask arfr : ℕ}
    (hmask : rateMask &&& allowedRates rateID arfr < 2 ^ 28) (sgiEnable : ℕ) :
    RaInv (r.odmRAUpdateRateInfo rateID rateMask sgiEnable arfr) := by
  unfold odmRAUpdateRateInfo odmARFBRefresh
  extract_lets use highest
  have hlt : use < 2 ^ 28 := hmask
  obtain ⟨hle, h28⟩ := rates_of_lt hlt r.highestRate r.lowestRate
  obtain ⟨d, hd, hclamp⟩ := clampDecision_eq
    { r with
      rateID := rateID, rateMask := rateMask, sgiEnable := sgiEnable, raUseRate := use
      highestRate := highest, lowestRate := lowestRateOf use r.lowestRate, ptModeSS :=
      ptModeOf highest }
  rw [hclamp]
  exact ⟨hle, h28, hd, ⟨h.wait.pending_le, h.wait.waiting_le⟩, h.rptTime_mem, h.ptStage_mem,
    h.ptSmoothFactor_le, h.raStage_le, h.nscUp_le, h.nscDown_le⟩

theorem raInv_odmPTTryState {r : RaInfo} (h : RaInv r) (hstage : r.raStage ≤ 5) :
    RaInv r.odmPTTryState ∧ r.odmPTTryState.raStage ≤ 5 := by
  unfold odmPTTryState
  extract_lets tryIt r₁ r₂
  -- only the stages are of interest
  have hr₂ : ∃ stop pre stage, ∃ st ∈ [0, 1, 3, 5], stage ≤ 5 ∧
      r₂ = { r₁ with ptStage := st, ptPreRssi := pre, ptStopCount := stop, raStage := stage } := by
    unfold r₂
    split_ifs
    · exact ⟨_, _, _, 0, by decide, hstage, rfl⟩
    · exact ⟨_, _, _, 1, by decide, hstage, rfl⟩
    · exact ⟨_, _, _, 3, by decide, hstage, rfl⟩
    · exact ⟨_, _, _, 5, by decide, hstage, rfl⟩
    · exact ⟨_, _, _, r.ptStage, h.ptStage_mem, Nat.zero_le _, rfl⟩
    · exact ⟨_, _, _, 0, by decide, Nat.zero_le _, rfl⟩
  obtain ⟨stop, pre, stage, st, hst, hle, heq⟩ := hr₂
  rw [heq]
  exact ⟨⟨h.lowest_le, h.highest_lt, h.decision_le, ⟨h.wait.pending_le, h.wait.waiting_le⟩,
    h.rptTime_mem, hst,
    h.ptSmoothFactor_le, hle.trans (by decide), h.nscUp_le, h.nscDown_le⟩, hle⟩

theorem ptPenalty_le : ∀ x ∈ ptPenalty, x ≤ 49 := by decide

theorem exists_ptLoop {r : RaInfo} (hr : ReportOk r) (numTotal : ℕ) :
    ∀ (fuel j numsc : ℕ), j + fuel ≤ 5 → numsc + fuel * (2 ^ 16 * 49) < 2 ^ 32 →
      ∃ k, r.ptLoop numTotal fuel j numsc = some k
  | 0, j, _, _, _ => ⟨j, rfl⟩
  | fuel + 1, j, numsc, hj, hn => by
    obtain ⟨a, ha, hra⟩ := exists_getElem? hr.length (by omega : j < 5)
    obtain ⟨b, hb, hpb⟩ := exists_getElem? (rfl : ptPenalty.length = 6) (by omega : j < 6)
    have hmul : a * b ≤ 2 ^ 16 * 49 := Nat.mul_le_mul (hr.rty_lt a ha).le (ptPenalty_le b hb)
    have hadd : add32 numsc (a * b) = some (numsc + a * b) := by
      rw [add32, if_pos (by omega)]
    obtain ⟨k, hk⟩ := exists_ptLoop hr numTotal fuel (j + 1) (numsc + a * b) (by omega) (by omega)
    rw [ptLoop, hra, hpb]
    simp only [Option.bind_eq_bind, Option.bind_some, hadd]
    split_ifs
    · exact ⟨j, rfl⟩
    · exact ⟨k, hk⟩

theorem smoothAfter_le (r : RaInfo) (j : ℕ) : r.smoothAfter j ≤ 192 := by
  unfold smoothAfter
  extract_lets
  split_ifs <;> omega

theorem stageOf_mem {smooth : ℕ} (h : smooth ≤ 192) : stageOf smooth ∈ [0, 1, 3, 5] := by
  have hk : smooth >>> 6 ≤ 3 := by
    rw [Nat.shiftRight_eq_div_pow]
    omega
  unfold stageOf
  generalize smooth >>> 6 = k at hk
  interval_cases k <;> decide

theorem raInv_odmPTDecision {r : RaInfo} (h : RaInv r) (hr : ReportOk r) :
    ∃ r', r.odmPTDecision = some r' ∧ RaInv r' ∧ r'.raStage = r.raStage := by
  obtain ⟨j, hj⟩ := exists_ptLoop hr (r.total * 32) 5 0 0 (by decide) (by decide)
  unfold odmPTDecision
  rw [show ptPenalty[5]? = some 32 from rfl]
  simp only [Option.bind_eq_bind, Option.bind_some, Option.pure_def, hj]
  have hle := r.smoothAfter_le j
  refine ⟨_, rfl, ⟨h.lowest_le, h.highest_lt, h.decision_le, ⟨h.wait.pending_le, h.wait.waiting_le⟩,
    h.rptTime_mem,
    ?_, hle, h.raStage_le, h.nscUp_le, h.nscDown_le⟩, rfl⟩
  dsimp only
  split_ifs
  · decide
  · exact stageOf_mem hle

/-- A report does not stop, and keeps the invariant. -/
theorem raInv_odmRATxRPT2Handle {r : RaInfo} (h : RaInv r) (rpt : TxReport) :
    ∃ r', r.odmRATxRPT2Handle rpt = some r' ∧ RaInv r' := by
  unfold odmRATxRPT2Handle
  extract_lets rty r₁
  have hinv : RaInv r₁ :=
    ⟨h.lowest_le, h.highest_lt, h.decision_le, ⟨h.wait.pending_le, h.wait.waiting_le⟩,
    h.rptTime_mem, h.ptStage_mem, h.ptSmoothFactor_le, h.raStage_le, h.nscUp_le, h.nscDown_le⟩
  have hrpt : ReportOk r₁ := by
    refine ⟨by simp [r₁, rty], fun x hx => ?_⟩
    obtain ⟨y, -, rfl⟩ := List.mem_map.mp hx
    exact y.toNat_lt
  -- the stage counter after one of the three parts
  have hnext : ∀ {r' : RaInfo}, RaInv r' →
      RaInv { r' with raStage := if r'.raStage ≤ 5 then (r'.raStage + 1) % 256 else 0 } := by
    intro r' h'
    refine ⟨h'.lowest_le, h'.highest_lt, h'.decision_le, ⟨h'.wait.pending_le, h'.wait.waiting_le⟩,
      h'.rptTime_mem,
      h'.ptStage_mem, h'.ptSmoothFactor_le, ?_, h'.nscUp_le, h'.nscDown_le⟩
    dsimp only
    split_ifs <;> omega
  obtain ⟨r₂, hdec, hinv₂, -⟩ := raInv_odmRateDecision hinv hrpt
  by_cases htotal : r₁.total ≠ 0
  · rw [if_pos htotal]
    by_cases hactive : r₁.ptActive = true
    · rw [if_pos hactive]
      split_ifs with h5 heq
      · rw [hdec]
        exact ⟨_, rfl, hnext hinv₂⟩
      · obtain ⟨hinv₃, -⟩ := raInv_odmPTTryState hinv heq.le
        exact ⟨_, rfl, hnext hinv₃⟩
      · obtain ⟨r₃, hpt, hinv₃, -⟩ := raInv_odmPTDecision hinv hrpt
        rw [hpt]
        exact ⟨_, rfl, hnext hinv₃⟩
    · rw [if_neg hactive]
      exact ⟨r₂, hdec, hinv₂⟩
  · rw [if_neg htotal]
    exact ⟨r₁, rfl, hinv⟩

theorem raInv_odmRAInfoInit (m : Option UInt8) (c : ℕ) : RaInv (odmRAInfoInit m c) := by
  have hmax : maxRateIdx m < 28 := by
    unfold maxRateIdx
    split
    · decide
    · split_ifs <;> decide
  have hnsc : (640 + 320) / 2 ≤ 1500 := by decide
  exact ⟨Nat.zero_le _, hmax, le_rfl, ⟨Nat.zero_le _, Nat.zero_le _⟩,
    (by decide : 0x927c ∈ dynamicTxRPTTiming),
    (by decide : 5 ∈ [0, 1, 3, 5]), le_rfl, Nat.zero_le _, hnsc, hnsc⟩

/-- One event. -/
theorem raInv_raStep {r : RaInfo} (h : RaInv r) (e : RaEvent) :
    ∃ r', raStep r e = some r' ∧ RaInv r' := by
  cases e with
  | init m => exact ⟨_, rfl, raInv_odmRAInfoInit m r.timingCounter⟩
  | updateRateInfo rateID rateMask sgiEnable =>
    exact ⟨_, rfl, raInv_odmRAUpdateRateInfo h (lt_of_le_of_lt Nat.and_le_left rateMask.isLt) _⟩
  | setRSSI rssi =>
    exact ⟨_, rfl, h.lowest_le, h.highest_lt, h.decision_le, ⟨h.wait.pending_le, h.wait.waiting_le⟩,
      h.rptTime_mem, h.ptStage_mem, h.ptSmoothFactor_le, h.raStage_le, h.nscUp_le, h.nscDown_le⟩
  | report rpt => exact raInv_odmRATxRPT2Handle h rpt
  | otherStation c =>
    exact ⟨_, rfl, h.lowest_le, h.highest_lt, h.decision_le, ⟨h.wait.pending_le, h.wait.waiting_le⟩,
      h.rptTime_mem, h.ptStage_mem, h.ptSmoothFactor_le, h.raStage_le, h.nscUp_le, h.nscDown_le⟩

/-- No run of a station that was initialised reads outside a table or wraps a counter, and the
ranges hold after every event. -/
theorem raInfo_run (m : Option UInt8) (c : UInt8) (es : List RaEvent) :
    ∃ r, runM raStep (odmRAInfoInit m c.toNat) es = some r ∧ RaRanges r := by
  obtain ⟨r, hrun, hinv⟩ :=
    exists_runM (fun _ e hu => raInv_raStep hu e) es (raInv_odmRAInfoInit m c.toNat)
  exact ⟨r, hrun, hinv.ranges⟩

/-- A report with nine dropped packets at the rate MCS 7 lowers the rate. -/
example : ((runM raStep (odmRAInfoInit none 0)
    [.updateRateInfo 0 0x00ff015 0, .setRSSI 60, .report ⟨#v[0, 0, 0, 0, 1], 9⟩]).map
    (·.decisionRate)) =
      some 0x12 := by
  decide

end RaInfo

end Rtl8188eu
