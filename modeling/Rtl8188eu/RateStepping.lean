import Rtl8188eu.RateAdaptive

/-!
# Steps between the enabled rates

`RAUseRate` is the mask of the enabled rates, `LowestRate` and `HighestRate` are its ends.
`odm_RateDown_8188E` looks for the next lower rate above `LowestRate` only, so the second lowest
rate has no lower one. `odm_RateUp_8188E` looks for the next higher rate up to `HighestRate`.

`odm_ARFBRefresh_8188E` brings `DecisionRate` down to `HighestRate`, and not to an enabled rate
below, and it leaves `PreRate` alone (`ratesRight`).
-/

namespace Rtl8188eu

open Runs

namespace RaInfo

/-! ## What is claimed -/

/-- The rate is enabled. -/
def Enabled (r : RaInfo) (i : ℕ) : Prop := r.raUseRate.testBit i = true

instance (r : RaInfo) (i : ℕ) : Decidable (r.Enabled i) :=
    inferInstanceAs (Decidable (r.raUseRate.testBit i = true))

/-- The mask has 28 bits, and the lowest and the highest rate are its ends. -/
structure Extremes (r : RaInfo) : Prop where
  use_lt : r.raUseRate < 2 ^ 28
  lowest : r.Enabled r.lowestRate
  highest : r.Enabled r.highestRate
  le : ∀ i, r.Enabled i → r.lowestRate ≤ i ∧ i ≤ r.highestRate

/-- `d` is the next lower enabled rate, or `i` if there is none. -/
def NextLower (r : RaInfo) (i d : ℕ) : Prop :=
  (r.Enabled d ∧ d < i ∧ ∀ j, d < j → j < i → ¬r.Enabled j) ∨ (d = i ∧ ∀ j < i, ¬r.Enabled j)

/-- `d` is the next higher enabled rate, or `i` if there is none. -/
def NextHigher (r : RaInfo) (i d : ℕ) : Prop :=
  (r.Enabled d ∧ i < d ∧ ∀ j, i < j → j < d → ¬r.Enabled j) ∨ (d = i ∧ ∀ j, i < j → ¬r.Enabled j)

/-- A state at an enabled rate. -/
structure AtRate (r : RaInfo) : Prop where
  extremes : r.Extremes
  current : r.Enabled r.preRate
  pending_le : r.raPendingCounter ≤ 4

/-- A step down without a short guard interval goes to the next lower rate, and a step up outside a
waiting period to the next higher one. -/
def StepsRight (r : RaInfo) : Prop :=
  (r.rateSGI = 0 → ∃ r', r.odmRateDown = some r' ∧ r.NextLower r.preRate r'.decisionRate) ∧
  (r.raWaitingCounter ≤ 1 → ∃ r', r.odmRateUp = some r' ∧ r.NextHigher r.preRate r'.decisionRate)

/-- The rate is the lowest one, or there is an enabled rate between the two. -/
def NotSecond (r : RaInfo) : Prop :=
  r.preRate = r.lowestRate ∨ ∃ i, r.lowestRate < i ∧ i < r.preRate ∧ r.Enabled i

/-- Everything but a new start and a new mask. -/
def IsReport : RaEvent → Prop
  | .init _ => False
  | .updateRateInfo .. => False
  | _ => True

/-- After the reports `es` the rate is an enabled one. -/
def StaysEnabled (r : RaInfo) (es : List RaEvent) : Prop :=
  ∃ r', runM raStep r es = some r' ∧ r'.Enabled r'.decisionRate

/-- What a station may come to. The mask of a refresh has 28 bits. -/
inductive Reached : RaInfo → Prop
  | init (wirelessMode : Option UInt8) (timingCounter : UInt8) : Reached
    (odmRAInfoInit wirelessMode timingCounter.toNat)
  | event {r r' : RaInfo} (e : RaEvent) : Reached r → raStep r e = some r' → Reached r'
  | refresh {r : RaInfo} {rateID rateMask arfr : ℕ} (sgiEnable : ℕ) : Reached r →
      rateMask &&& allowedRates rateID arfr < 2 ^ 28 →
        Reached (r.odmRAUpdateRateInfo rateID rateMask sgiEnable arfr)

/-- A rate is enabled, or above the highest one. -/
def EnabledOrAbove (r : RaInfo) (i : ℕ) : Prop := r.Enabled i ∨ r.highestRate < i

/-! ## The searches -/

section Search

variable {r : RaInfo}

/-- The search downwards finds the highest enabled rate up to `i` above the lowest rate. -/
theorem downLoop_cases (r : RaInfo) : ∀ i,
    (∃ d, r.downLoop i = some d ∧ r.Enabled d ∧ r.lowestRate < d ∧ d ≤ i ∧ ∀ j, d < j → j ≤ i →
    ¬r.Enabled j) ∨
      (r.downLoop i = none ∧ ∀ j, r.lowestRate < j → j ≤ i → ¬r.Enabled j)
  | 0 => Or.inr ⟨rfl, fun j hlow hj => absurd hj (by omega)⟩
  | i + 1 => by
    rw [downLoop]
    split_ifs with hlow hbit
    · exact Or.inr ⟨rfl, fun j hj hle => absurd hle (by omega)⟩
    · exact Or.inl ⟨i + 1, rfl, hbit, by omega, le_rfl, fun j hlt hle => absurd hle (by omega)⟩
    · have hnext : ∀ j ≤ i + 1, r.Enabled j → j ≤ i := by
        intro j hj hb
        rcases Nat.lt_or_eq_of_le hj with hlt | rfl
        · omega
        · exact absurd hb hbit
      rcases downLoop_cases r i with ⟨d, hd, hb, hl, hle, hmax⟩ | ⟨hnone, hno⟩
      · exact Or.inl ⟨d, hd, hb, hl, by omega, fun j hlt hj hbj => hmax j hlt (hnext j hj hbj) hbj⟩
      · exact Or.inr ⟨hnone, fun j hl hj hbj => hno j hl (hnext j hj hbj) hbj⟩

/-- The search upwards finds the lowest enabled rate from `i` on. -/
theorem upLoop_some {j : ℕ} (hj : r.Enabled j) : ∀ {fuel i : ℕ}, i ≤ j → j < i + fuel →
    ∃ d, r.upLoop fuel i = some d ∧ r.Enabled d ∧ i ≤ d ∧ d ≤ j ∧ ∀ k, i ≤ k → k < d → ¬r.Enabled k
  | 0, i, hij, hlt => absurd hlt (by omega)
  | fuel + 1, i, hij, hlt => by
    rw [upLoop]
    split_ifs with hbit
    · exact ⟨i, rfl, hbit, le_rfl, hij, fun k hik hki => absurd hki (by omega)⟩
    · have hne : i ≠ j := fun h => hbit (h ▸ hj)
      obtain ⟨d, hd, hb, hle, hdj, hmin⟩ := @upLoop_some j hj fuel (i + 1) (by omega) (by omega)
      refine ⟨d, hd, hb, by omega, hdj, fun k hik hkd hk => ?_⟩
      rcases Nat.lt_or_eq_of_le hik with hlt | rfl
      · exact hmin k hlt hkd hk
      · exact hbit hk

end Search

/-! ## The parts of a decision -/

/-- The mask, its ends and the rate of the last decision. -/
structure SameRates (r r' : RaInfo) : Prop where
  use : r'.raUseRate = r.raUseRate
  lowest : r'.lowestRate = r.lowestRate
  highest : r'.highestRate = r.highestRate
  pre : r'.preRate = r.preRate

theorem SameRates.trans {r r' r'' : RaInfo} (h : SameRates r r') (h' : SameRates r' r'') :
    SameRates r r'' :=
  ⟨h'.use.trans h.use, h'.lowest.trans h.lowest, h'.highest.trans h.highest, h'.pre.trans h.pre⟩

/-- The rate that `odm_RateUp_8188E` goes to. -/
def rateUpChoice (r : RaInfo) : ℕ :=
  if r.raWaitingCounter > 1 then r.preRate
  else if r.preRate < r.highestRate then (r.upLoop (r.highestRate - r.preRate) (r.preRate + 1)).getD
    r.preRate
  else r.highestRate

section Parts

variable {r r' : RaInfo}

theorem sameRates_odmSetTxRPTTiming {extend : ℕ} (h : r.odmSetTxRPTTiming extend = some r') :
    SameRates r r' ∧ r'.decisionRate = r.decisionRate := by
  obtain ⟨t, -, ht⟩ := odmSetTxRPTTiming_eq r extend
  rw [ht] at h
  cases h
  exact ⟨⟨rfl, rfl, rfl, rfl⟩, rfl⟩

theorem sameRates_rateDownCount (r : RaInfo) : SameRates r r.rateDownCount := by
  have hcap : ∀ u : RaInfo, SameRates r u →
      SameRates r (if u.raPendingCounter ≥ 4 then { u with raPendingCounter := 4 } else u) := by
    intro u hu
    split_ifs
    · exact ⟨hu.use, hu.lowest, hu.highest, hu.pre⟩
    · exact hu
  unfold rateDownCount
  refine hcap _ ?_
  split_ifs
  · exact ⟨rfl, rfl, rfl, rfl⟩
  · exact ⟨rfl, rfl, rfl, rfl⟩
  · exact ⟨rfl, rfl, rfl, rfl⟩

theorem odmRateDown_rates (h : r.odmRateDown = some r') :
    SameRates r r' ∧ r'.decisionRate = r.rateDownChoice.1 := by
  unfold odmRateDown at h
  extract_lets c at h
  obtain ⟨hsame, hdecision⟩ := sameRates_odmSetTxRPTTiming h
  have hchoice : SameRates r c.2 := by
    rcases r.rateDownChoice_eq with hc | hc
    · have hc : c.2 = r := hc
      exact hc ▸ ⟨rfl, rfl, rfl, rfl⟩
    · have hc : c.2 = { r with rateSGI := 0 } := hc
      exact hc ▸ ⟨rfl, rfl, rfl, rfl⟩
  have hcount := hchoice.trans (sameRates_rateDownCount c.2)
  exact ⟨hcount.trans ⟨hsame.use, hsame.lowest, hsame.highest, hsame.pre⟩, hdecision⟩

theorem rateUpFinish_rates {rateID : ℕ} (h : r.rateUpFinish rateID = some r') :
    SameRates r r' ∧ r'.decisionRate = rateID := by
  unfold rateUpFinish at h
  obtain ⟨pending, -, h⟩ := Option.bind_eq_some_iff.mp h
  cases h
  dsimp only
  split_ifs <;> exact ⟨⟨rfl, rfl, rfl, rfl⟩, rfl⟩

theorem sameRates_sgiUp (r : RaInfo) : SameRates r r.sgiUp := by
  unfold sgiUp
  split_ifs
  · exact ⟨rfl, rfl, rfl, rfl⟩
  · exact ⟨rfl, rfl, rfl, rfl⟩
  · exact ⟨rfl, rfl, rfl, rfl⟩

theorem sameRates_rateUpReset (r : RaInfo) : SameRates r r.rateUpReset := by
  unfold rateUpReset
  split_ifs
  · exact ⟨rfl, rfl, rfl, rfl⟩
  · exact ⟨rfl, rfl, rfl, rfl⟩

theorem upLoop_congr (h : SameRates r r') : ∀ fuel i, r'.upLoop fuel i = r.upLoop fuel i
  | 0, _ => rfl
  | fuel + 1, i => by rw [upLoop, upLoop, h.use, upLoop_congr h fuel]

theorem odmRateUp_rates (h : r.odmRateUp = some r') :
    SameRates r r' ∧ r'.decisionRate = r.rateUpChoice := by
  unfold odmRateUp at h
  unfold rateUpChoice
  dsimp only at h
  by_cases hwait : r.raWaitingCounter > 1
  · rw [if_pos hwait] at h ⊢
    obtain ⟨hsame, hdecision⟩ := rateUpFinish_rates h
    exact ⟨⟨hsame.use, hsame.lowest, hsame.highest, hsame.pre⟩, hdecision⟩
  rw [if_neg hwait] at h ⊢
  obtain ⟨u, hu, h⟩ := Option.bind_eq_some_iff.mp h
  have hru : SameRates r u := (sameRates_rateUpReset r).trans (sameRates_odmSetTxRPTTiming hu).1
  rw [hru.highest] at h
  by_cases hlt : r.preRate < r.highestRate
  · rw [if_pos hlt] at h ⊢
    obtain ⟨hsame, hdecision⟩ := rateUpFinish_rates h
    rw [upLoop_congr hru] at hdecision
    exact ⟨hru.trans hsame, hdecision⟩
  rw [if_neg hlt] at h ⊢
  by_cases heq : r.preRate = r.highestRate
  · rw [if_pos heq] at h
    obtain ⟨hsame, hdecision⟩ := rateUpFinish_rates h
    exact ⟨(hru.trans (sameRates_sgiUp u)).trans hsame, hdecision.trans heq⟩
  · rw [if_neg heq] at h
    obtain ⟨hsame, hdecision⟩ := rateUpFinish_rates h
    exact ⟨hru.trans hsame, hdecision⟩

theorem moveRate_rates {rateID : ℕ} (h : r.moveRate rateID = some r') : SameRates r r' ∧
    (r'.decisionRate = r.decisionRate ∨ r'.decisionRate = r.rateDownChoice.1 ∨
    r'.decisionRate = r.rateUpChoice) := by
  unfold moveRate at h
  obtain ⟨low, -, h⟩ := Option.bind_eq_some_iff.mp h
  obtain ⟨drop, -, h⟩ := Option.bind_eq_some_iff.mp h
  split_ifs at h
  · obtain ⟨hsame, hdecision⟩ := odmRateDown_rates h
    exact ⟨hsame, Or.inr (Or.inl hdecision)⟩
  · obtain ⟨high, -, h⟩ := Option.bind_eq_some_iff.mp h
    split_ifs at h
    · obtain ⟨hsame, hdecision⟩ := odmRateUp_rates h
      exact ⟨hsame, Or.inr (Or.inr hdecision)⟩
    · cases h
      exact ⟨⟨rfl, rfl, rfl, rfl⟩, Or.inl rfl⟩

theorem extendTiming_rates (h : r.extendTiming = some r') :
    SameRates r r' ∧ r'.decisionRate = r.decisionRate := by
  unfold extendTiming at h
  extract_lets u at h
  have hu : SameRates r u ∧ u.decisionRate = r.decisionRate := by
    unfold u
    split_ifs
    · exact ⟨⟨rfl, rfl, rfl, rfl⟩, rfl⟩
    · exact ⟨⟨rfl, rfl, rfl, rfl⟩, rfl⟩
  split_ifs at h
  · obtain ⟨v, hv, rfl⟩ := Option.map_eq_some_iff.mp h
    obtain ⟨hsame, hdecision⟩ := sameRates_odmSetTxRPTTiming hv
    have huv := hu.1.trans hsame
    exact ⟨⟨huv.use, huv.lowest, huv.highest, huv.pre⟩, hdecision.trans hu.2⟩
  · obtain rfl := Option.some.inj h
    exact hu

theorem countRetries_rates {rateID : ℕ} (h : r.countRetries rateID = some r') :
    SameRates r r' ∧ r'.decisionRate = r.decisionRate := by
  unfold countRetries at h
  obtain ⟨th, -, h⟩ := Option.bind_eq_some_iff.mp h
  obtain ⟨row, -, h⟩ := Option.bind_eq_some_iff.mp h
  obtain ⟨id₁, -, h⟩ := Option.bind_eq_some_iff.mp h
  obtain ⟨down, -, h⟩ := Option.bind_eq_some_iff.mp h
  obtain ⟨id₂, -, h⟩ := Option.bind_eq_some_iff.mp h
  obtain ⟨up, -, h⟩ := Option.bind_eq_some_iff.mp h
  cases h
  exact ⟨⟨rfl, rfl, rfl, rfl⟩, rfl⟩

theorem rssiReset_rates (r : RaInfo) :
    SameRates r r.rssiReset ∧ r.rssiReset.decisionRate = r.decisionRate := by
  unfold rssiReset
  split_ifs
  · exact ⟨⟨rfl, rfl, rfl, rfl⟩, rfl⟩
  · exact ⟨⟨rfl, rfl, rfl, rfl⟩, rfl⟩

end Parts

/-! ## One step -/

section Steps

variable {r r' : RaInfo}

theorem enabled_congr (h : SameRates r r') (i : ℕ) : r'.Enabled i ↔ r.Enabled i := by
  rw [Enabled, Enabled, h.use]

theorem enabledOrAbove_congr (h : SameRates r r') (i : ℕ) : r'.EnabledOrAbove i ↔
    r.EnabledOrAbove i := by
  rw [EnabledOrAbove, EnabledOrAbove, enabled_congr h, h.highest]

theorem Extremes.congr (hr : r.Extremes) (h : SameRates r r') : r'.Extremes where
  use_lt := h.use ▸ hr.use_lt
  lowest := (enabled_congr h _).mpr (h.lowest ▸ hr.lowest)
  highest := (enabled_congr h _).mpr (h.highest ▸ hr.highest)
  le i hi := by
    rw [h.lowest, h.highest]
    exact hr.le i ((enabled_congr h i).mp hi)

/-- No step goes to a rate that is off, but a step up may stay above the highest rate. -/
theorem enabled_rateDownChoice (hr : r.Extremes) (hp : r.EnabledOrAbove r.preRate) :
    r.Enabled r.rateDownChoice.1 := by
  unfold rateDownChoice
  by_cases habove : r.preRate > r.highestRate
  · rw [if_pos habove]
    exact hr.highest
  have hpre : r.Enabled r.preRate := hp.resolve_right habove
  rw [if_neg habove]
  split_ifs
  · exact hpre
  · rcases r.downLoop_cases (r.preRate - 1) with ⟨d, hd, hbit, -⟩ | ⟨hnone, -⟩
    · rw [hd]
      exact hbit
    · rw [hnone]
      exact hpre
  · exact hpre
  · exact hr.lowest

theorem enabledOrAbove_rateUpChoice (hr : r.Extremes) (hp : r.EnabledOrAbove r.preRate) :
    r.EnabledOrAbove r.rateUpChoice := by
  unfold rateUpChoice
  split_ifs with hwait hlt
  · exact hp
  · obtain ⟨d, hd, hbit, -⟩ :=
      @upLoop_some r r.highestRate hr.highest (r.highestRate - r.preRate) (r.preRate + 1)
      (by omega) (by omega)
    rw [hd]
    exact Or.inl hbit
  · exact Or.inl hr.highest

/-- Without a short guard interval `odm_RateDown_8188E` finds the next lower rate unless that is the
lowest one. -/
theorem nextLower_rateDownChoice (hr : r.Extremes) (hpre : r.Enabled r.preRate)
    (hsgi : r.rateSGI = 0) :
    r.NextLower r.preRate r.rateDownChoice.1 ↔ r.NotSecond := by
  obtain ⟨hlow, hhigh⟩ := hr.le r.preRate hpre
  have hsgi' : ¬r.rateSGI ≠ 0 := fun h => h hsgi
  unfold rateDownChoice NotSecond
  rw [if_neg (by omega), if_neg hsgi']
  rcases Nat.lt_or_eq_of_le hlow with hlt | heq
  · rw [if_pos hlt, if_pos (by omega)]
    dsimp only
    rcases r.downLoop_cases (r.preRate - 1) with ⟨d, hd, hbit, hld, hle, hmax⟩ | ⟨hnone, hno⟩
    · rw [hd, Option.getD_some]
      refine iff_of_true (Or.inl ⟨hbit, by omega, fun j hdj hj => hmax j hdj (by omega)⟩)
        (Or.inr ⟨d, hld, ?_, hbit⟩)
      omega
    · -- the search ends above the lowest rate, and the rate stays
      rw [hnone, Option.getD_none]
      refine iff_of_false ?_ ?_
      · rintro (⟨-, hself, -⟩ | ⟨-, hall⟩)
        · omega
        · exact hall r.lowestRate hlt hr.lowest
      · rintro (h | ⟨i, hli, hi, hbit⟩)
        · omega
        · exact hno i hli (by omega) hbit
  · rw [if_neg (by omega)]
    refine iff_of_true (Or.inr ⟨heq, fun j hj hbit => ?_⟩) (Or.inl heq.symm)
    have := (hr.le j hbit).1
    omega

/-- Outside a waiting period `odm_RateUp_8188E` finds the next higher rate. -/
theorem nextHigher_rateUpChoice (hr : r.Extremes) (hpre : r.Enabled r.preRate)
    (hwait : r.raWaitingCounter ≤ 1) :
    r.NextHigher r.preRate r.rateUpChoice := by
  obtain ⟨-, hhigh⟩ := hr.le r.preRate hpre
  unfold rateUpChoice
  rw [if_neg (by omega)]
  split_ifs with hlt
  · obtain ⟨d, hd, hbit, hle, -, hmin⟩ :=
      @upLoop_some r r.highestRate hr.highest (r.highestRate - r.preRate)
      (r.preRate + 1) (by omega) (by omega)
    rw [hd, Option.getD_some]
    exact Or.inl ⟨hbit, by omega, fun j hj hjd => hmin j (by omega) hjd⟩
  · refine Or.inr ⟨by omega, fun j hj hbit => ?_⟩
    have := (hr.le j hbit).2
    omega

theorem exists_odmRateDown (r : RaInfo) : ∃ r', r.odmRateDown = some r' := by
  unfold odmRateDown
  extract_lets c
  obtain ⟨t, -, ht⟩ := odmSetTxRPTTiming_eq { c.2.rateDownCount with decisionRate := c.1 } 2
  exact ⟨_, ht⟩

theorem exists_rateUpFinish (h : r.raPendingCounter ≤ 4) (rateID : ℕ) :
    ∃ r', r.rateUpFinish rateID = some r' := by
  obtain ⟨pending, -, hp⟩ :=
    exists_getElem? (rfl : pendingForRateUpFail.length = 5) (by omega : r.raPendingCounter < 5)
  unfold rateUpFinish
  rw [hp]
  exact ⟨_, rfl⟩

theorem exists_odmRateUp (h : r.raPendingCounter ≤ 4) : ∃ r', r.odmRateUp = some r' := by
  unfold odmRateUp
  dsimp only
  split_ifs
  · apply exists_rateUpFinish
    exact h
  obtain ⟨t, -, ht⟩ := odmSetTxRPTTiming_eq r.rateUpReset 0
  rw [ht]
  simp only [Option.bind_eq_bind, Option.bind_some]
  have hreset : r.rateUpReset.raPendingCounter ≤ 4 := by
    unfold rateUpReset
    split_ifs
    · exact Nat.zero_le _
    · exact h
  split_ifs
  · apply exists_rateUpFinish
    exact hreset
  · apply exists_rateUpFinish
    unfold sgiUp
    split_ifs
    · exact hreset
    · exact hreset
    · exact hreset
  · apply exists_rateUpFinish
    exact hreset

/-- The two steps from an enabled rate. -/
theorem stepsRight_iff (h : AtRate r) : r.StepsRight ↔ (r.rateSGI = 0 → r.NotSecond) := by
  obtain ⟨d, hd⟩ := exists_odmRateDown r
  obtain ⟨-, hdown⟩ := odmRateDown_rates hd
  unfold StepsRight
  constructor
  · rintro ⟨hright, -⟩ hsgi
    obtain ⟨r', hr', hnext⟩ := hright hsgi
    rw [hd] at hr'
    cases hr'
    rw [hdown] at hnext
    exact (nextLower_rateDownChoice h.extremes h.current hsgi).mp hnext
  · intro hsecond
    refine ⟨fun hsgi => ⟨d, hd, ?_⟩, fun hwait => ?_⟩
    · rw [hdown]
      exact (nextLower_rateDownChoice h.extremes h.current hsgi).mpr (hsecond hsgi)
    · obtain ⟨u, hu⟩ := exists_odmRateUp h.pending_le
      refine ⟨u, hu, ?_⟩
      rw [(odmRateUp_rates hu).2]
      exact nextHigher_rateUpChoice h.extremes h.current hwait

/-! ## Reports -/

/-- What a refresh with a non-empty mask sets up, and what the reports keep. -/
structure OnRates (r : RaInfo) : Prop where
  extremes : r.Extremes
  decision : r.Enabled r.decisionRate
  pre : r.EnabledOrAbove r.preRate

/-- Nothing about the rates changes. -/
theorem onRates_of_same (h : OnRates r) (hsame : SameRates r r')
    (hdecision : r'.decisionRate = r.decisionRate) :
    OnRates r' where
  extremes := h.extremes.congr hsame
  decision := (enabled_congr hsame _).mpr (hdecision ▸ h.decision)
  pre := (enabledOrAbove_congr hsame _).mpr (hsame.pre ▸ h.pre)

theorem enabledOrAbove_moveRate (h : r.Extremes) (hd : r.Enabled r.decisionRate)
    (hp : r.EnabledOrAbove r.preRate)
    {rateID : ℕ} (hmove : r.moveRate rateID = some r') :
    SameRates r r' ∧ r.EnabledOrAbove r'.decisionRate := by
  obtain ⟨hsame, hstay | hdown | hup⟩ := moveRate_rates hmove
  · exact ⟨hsame, Or.inl (hstay ▸ hd)⟩
  · exact ⟨hsame, Or.inl (hdown ▸ enabled_rateDownChoice h hp)⟩
  · exact ⟨hsame, hup ▸ enabledOrAbove_rateUpChoice h hp⟩

/-- A decision above the highest rate comes down to it. -/
theorem enabled_clampDecision (h : r.Extremes) (hd : r.EnabledOrAbove r.decisionRate) :
    SameRates r r.clampDecision ∧ r.Enabled r.clampDecision.decisionRate := by
  unfold clampDecision
  split_ifs with habove
  · exact ⟨⟨rfl, rfl, rfl, rfl⟩, h.highest⟩
  · exact ⟨⟨rfl, rfl, rfl, rfl⟩, hd.resolve_right habove⟩

theorem onRates_odmRateDecision (h : OnRates r) (hdec : r.odmRateDecision = some r') :
    OnRates r' := by
  unfold odmRateDecision at hdec
  by_cases hactive : r.active ∧ r.total > 0
  swap
  · rw [if_neg hactive] at hdec
    cases hdec
    exact h
  rw [if_pos hactive] at hdec
  dsimp only at hdec
  obtain ⟨counted, hcount, hdec⟩ := Option.bind_eq_some_iff.mp hdec
  obtain ⟨moved, hmove, hdec⟩ := Option.bind_eq_some_iff.mp hdec
  obtain ⟨timed, htime, hdec⟩ := Option.bind_eq_some_iff.mp hdec
  -- the counters first
  obtain ⟨hreset, hkeep⟩ := rssiReset_rates r
  obtain ⟨hsame, hkeep'⟩ := countRetries_rates hcount
  have hcounted : SameRates r counted := hreset.trans hsame
  have hext := h.extremes.congr hcounted
  -- then the move, and the clamp
  obtain ⟨hmoved, hmd⟩ := enabledOrAbove_moveRate hext
    ((enabled_congr hcounted _).mpr ((hkeep'.trans hkeep) ▸ h.decision))
    ((enabledOrAbove_congr hcounted _).mpr (hcounted.pre ▸ h.pre)) hmove
  obtain ⟨hclamp, hcd⟩ :=
    enabled_clampDecision (hext.congr hmoved) ((enabledOrAbove_congr hmoved _).mpr hmd)
  obtain ⟨htimed, htd⟩ := extendTiming_rates htime
  have hext' := ((hext.congr hmoved).congr hclamp).congr htimed
  have hdecision : timed.Enabled timed.decisionRate := by
    rw [enabled_congr htimed, htd, enabled_congr hclamp]
    exact hcd
  -- the new rate is the one to start from
  obtain ⟨n, -, hcounter⟩ := exists_odmResetRaCounter { timed with preRate := timed.decisionRate }
    (lt_of_testBit hext'.use_lt hdecision)
  rw [hcounter] at hdec
  cases hdec
  exact ⟨⟨hext'.use_lt, hext'.lowest, hext'.highest, hext'.le⟩, hdecision, Or.inl hdecision⟩

theorem odmPTTryState_rates (r : RaInfo) :
    SameRates r r.odmPTTryState ∧ r.odmPTTryState.decisionRate = r.decisionRate := by
  unfold odmPTTryState
  extract_lets tryIt r₁ r₂
  have hr₂ : SameRates r r₂ ∧ r₂.decisionRate = r.decisionRate := by
    unfold r₂
    split_ifs
    all_goals exact ⟨⟨rfl, rfl, rfl, rfl⟩, rfl⟩
  exact ⟨⟨hr₂.1.use, hr₂.1.lowest, hr₂.1.highest, hr₂.1.pre⟩, hr₂.2⟩

theorem odmPTDecision_rates (h : r.odmPTDecision = some r') :
    SameRates r r' ∧ r'.decisionRate = r.decisionRate := by
  unfold odmPTDecision at h
  obtain ⟨penalty, -, h⟩ := Option.bind_eq_some_iff.mp h
  obtain ⟨j, -, h⟩ := Option.bind_eq_some_iff.mp h
  cases h
  exact ⟨⟨rfl, rfl, rfl, rfl⟩, rfl⟩

theorem onRates_odmRATxRPT2Handle (h : OnRates r) (rpt : TxReport)
    (hrpt : r.odmRATxRPT2Handle rpt = some r') :
    OnRates r' := by
  unfold odmRATxRPT2Handle at hrpt
  extract_lets rty r₁ at hrpt
  have h₁ : OnRates r₁ := onRates_of_same h ⟨rfl, rfl, rfl, rfl⟩ rfl
  by_cases htotal : r₁.total ≠ 0
  swap
  · rw [if_neg htotal] at hrpt
    obtain rfl := Option.some.inj hrpt
    exact h₁
  rw [if_pos htotal] at hrpt
  by_cases hactive : r₁.ptActive = true
  swap
  · rw [if_neg hactive] at hrpt
    exact onRates_odmRateDecision h₁ hrpt
  rw [if_pos hactive] at hrpt
  -- only the stage counter changes behind each of the three parts
  have hnext : ∀ {u : RaInfo} {stage : ℕ}, OnRates u → OnRates { u with raStage := stage } :=
    fun hu => onRates_of_same hu ⟨rfl, rfl, rfl, rfl⟩ rfl
  split_ifs at hrpt
  · obtain ⟨r₂, hdec, hrpt⟩ := Option.bind_eq_some_iff.mp hrpt
    obtain rfl := Option.some.inj hrpt
    exact hnext (onRates_odmRateDecision h₁ hdec)
  · obtain rfl := Option.some.inj hrpt
    obtain ⟨hsame, hdecision⟩ := odmPTTryState_rates r₁
    exact hnext (onRates_of_same h₁ hsame hdecision)
  · obtain ⟨r₂, hdec, hrpt⟩ := Option.bind_eq_some_iff.mp hrpt
    obtain rfl := Option.some.inj hrpt
    obtain ⟨hsame, hdecision⟩ := odmPTDecision_rates hdec
    exact hnext (onRates_of_same h₁ hsame hdecision)

theorem onRates_raStep (h : OnRates r) {e : RaEvent} (he : IsReport e)
    (hstep : raStep r e = some r') : OnRates r' := by
  cases e with
  | init m => exact he.elim
  | updateRateInfo rateID rateMask sgiEnable => exact he.elim
  | setRSSI rssi =>
    cases hstep
    exact onRates_of_same h ⟨rfl, rfl, rfl, rfl⟩ rfl
  | report rpt => exact onRates_odmRATxRPT2Handle h rpt hstep
  | otherStation c =>
    cases hstep
    exact onRates_of_same h ⟨rfl, rfl, rfl, rfl⟩ rfl

/-- Reports keep the rate at an enabled one. -/
theorem staysEnabled (h : OnRates r) (hinv : RaInv r) {es : List RaEvent}
    (hes : ∀ e ∈ es, IsReport e) :
    r.StaysEnabled es := by
  obtain ⟨r', hrun, -⟩ := exists_runM (fun _ e hu => raInv_raStep hu e) es hinv
  have hrates : OnRates r' := by
    refine invariant_alongM (P := fun _ e => IsReport e) ?_ h ?_ hrun
    · exact fun u e t hu he hstep => onRates_raStep hu he hstep
    · exact alongM_of_forall hes
  exact ⟨r', hrun, hrates.decision⟩

theorem Reached.inv (h : Reached r) : RaInv r := by
  induction h with
  | init m c => exact raInv_odmRAInfoInit m c.toNat
  | event e _ hstep ih =>
    obtain ⟨u, hu, hinv⟩ := raInv_raStep ih e
    rw [hstep] at hu
    exact Option.some.inj hu ▸ hinv
  | refresh sgiEnable _ hmask ih => exact raInv_odmRAUpdateRateInfo ih hmask sgiEnable

end Steps

/-! ## A refresh -/

section Refresh

variable (r : RaInfo) {rateID rateMask arfr : ℕ} (sgiEnable : ℕ)

theorem lowestLoop_eq (r : RaInfo) : ∀ fuel i, lowestLoop r.raUseRate fuel i = r.upLoop fuel i
  | 0, _ => rfl
  | fuel + 1, i => by rw [lowestLoop, upLoop, lowestLoop_eq r fuel]

/-- The mask of a refresh, and its ends. -/
theorem odmRAUpdateRateInfo_rates (rateID rateMask arfr : ℕ) :
    (r.odmRAUpdateRateInfo rateID rateMask sgiEnable arfr).raUseRate =
    rateMask &&& allowedRates rateID arfr ∧
    (r.odmRAUpdateRateInfo rateID rateMask sgiEnable arfr).highestRate =
      highestRateOf (rateMask &&& allowedRates rateID arfr) r.highestRate ∧
    (r.odmRAUpdateRateInfo rateID rateMask sgiEnable arfr).lowestRate =
      lowestRateOf (rateMask &&& allowedRates rateID arfr) r.lowestRate ∧
    (r.odmRAUpdateRateInfo rateID rateMask sgiEnable arfr).preRate = r.preRate ∧
    (r.odmRAUpdateRateInfo rateID rateMask sgiEnable arfr).decisionRate =
      min r.decisionRate (r.odmRAUpdateRateInfo rateID rateMask sgiEnable arfr).highestRate := by
  unfold odmRAUpdateRateInfo odmARFBRefresh clampDecision
  dsimp only
  split_ifs with habove
  · exact ⟨rfl, rfl, rfl, rfl, (min_eq_right (le_of_lt habove)).symm⟩
  · exact ⟨rfl, rfl, rfl, rfl, (min_eq_left (not_lt.mp habove)).symm⟩

theorem extremes_odmRAUpdateRateInfo (h0 : rateMask &&& allowedRates rateID arfr ≠ 0)
    (hmask : rateMask &&& allowedRates rateID arfr < 2 ^ 28) :
    (r.odmRAUpdateRateInfo rateID rateMask sgiEnable arfr).Extremes := by
  obtain ⟨huse, hhigh, hlow, -, -⟩ := r.odmRAUpdateRateInfo_rates sgiEnable rateID rateMask arfr
  set u := r.odmRAUpdateRateInfo rateID rateMask sgiEnable arfr with hu
  rw [← huse] at h0 hmask hhigh hlow
  have h28 : ∀ i, u.Enabled i → i < 28 := fun i hi => lt_of_testBit hmask hi
  obtain ⟨j, hj⟩ := Nat.exists_testBit_of_ne_zero h0
  have hsize : ∀ i, u.Enabled i → i ≤ rateSize := fun i hi => (h28 i hi).le
  obtain ⟨k, hloop, hk, hmax⟩ := @highestLoop_some u.raUseRate rateSize ⟨j, hsize j hj, hj⟩
  obtain ⟨l, hloop', hl, -, -, hmin⟩ := @upLoop_some u j hj rateSize 0 (Nat.zero_le j)
    (by rw [Nat.zero_add]; exact h28 j hj)
  rw [highestRateOf, if_pos h0, hloop, Option.getD_some] at hhigh
  rw [lowestRateOf, if_pos h0, lowestLoop_eq, hloop', Option.getD_some] at hlow
  refine ⟨hmask, hlow ▸ hl, hhigh ▸ hk, fun i hi => ⟨?_, ?_⟩⟩
  · rw [hlow]
    by_contra hlt
    exact hmin i (Nat.zero_le i) (not_le.mp hlt) hi
  · rw [hhigh]
    exact hmax i (hsize i hi) hi

/-- The decision is brought down to the highest rate, so it is an enabled one or was above. -/
theorem enabled_decision_iff (h : (r.odmRAUpdateRateInfo rateID rateMask sgiEnable arfr).Extremes) :
    (r.odmRAUpdateRateInfo rateID rateMask sgiEnable arfr).Enabled
        (r.odmRAUpdateRateInfo rateID rateMask sgiEnable arfr).decisionRate ↔
      (r.odmRAUpdateRateInfo rateID rateMask sgiEnable arfr).EnabledOrAbove r.decisionRate := by
  obtain ⟨-, -, -, -, hdecision⟩ := r.odmRAUpdateRateInfo_rates sgiEnable rateID rateMask arfr
  rw [hdecision, EnabledOrAbove]
  rcases le_or_gt r.decisionRate
    (r.odmRAUpdateRateInfo rateID rateMask sgiEnable arfr).highestRate with hle | hgt
  · rw [min_eq_left hle]
    exact ⟨Or.inl, fun h => h.resolve_right (not_lt.mpr hle)⟩
  · rw [min_eq_right hgt.le]
    exact iff_of_true h.highest (Or.inr hgt)

end Refresh

/-- From an enabled rate both steps go to the neighbours exactly when the rate is not the second
lowest one, or has a short guard interval to give up. After a refresh every report leaves an enabled
rate if the decision and the rate before are each enabled in the new mask or above it ; for the
decision that is needed. -/
theorem ratesRight (r : RaInfo) :
    (r.AtRate → (r.StepsRight ↔ (r.rateSGI = 0 → r.NotSecond))) ∧
    (r.Reached → ∀ rateID rateMask sgiEnable arfr : ℕ,
      rateMask &&& allowedRates rateID arfr ≠ 0 → rateMask &&& allowedRates rateID arfr < 2 ^ 28 →
      ((r.odmRAUpdateRateInfo rateID rateMask sgiEnable arfr).EnabledOrAbove r.decisionRate ∧
          (r.odmRAUpdateRateInfo rateID rateMask sgiEnable arfr).EnabledOrAbove r.preRate →
        ∀ es : List RaEvent, (∀ e ∈ es, IsReport e) →
          (r.odmRAUpdateRateInfo rateID rateMask sgiEnable arfr).StaysEnabled es) ∧
      ((∀ es : List RaEvent, (∀ e ∈ es, IsReport e) →
          (r.odmRAUpdateRateInfo rateID rateMask sgiEnable arfr).StaysEnabled es) →
        (r.odmRAUpdateRateInfo rateID rateMask sgiEnable arfr).EnabledOrAbove r.decisionRate)) := by
  refine ⟨fun h => stepsRight_iff h, fun hr rateID rateMask sgiEnable arfr h0 hmask => ?_⟩
  have hext := r.extremes_odmRAUpdateRateInfo sgiEnable h0 hmask
  have hdecision := r.enabled_decision_iff sgiEnable hext
  obtain ⟨-, -, -, hpre, -⟩ := r.odmRAUpdateRateInfo_rates sgiEnable rateID rateMask arfr
  constructor
  · rintro ⟨hd, hp⟩ es hes
    refine staysEnabled ⟨hext, hdecision.mpr hd, ?_⟩
      (raInv_odmRAUpdateRateInfo hr.inv hmask sgiEnable) hes
    rw [hpre]
    exact hp
  · intro hstays
    obtain ⟨r', hrun, henabled⟩ := hstays [] fun e he => absurd he (List.not_mem_nil)
    cases hrun
    exact hdecision.mp henabled

/-- A station with the rates of `mask`, at the rate `rate`. -/
def sampleRates (mask rate : ℕ) : RaInfo :=
  { (odmRAInfoInit none 0).odmRAUpdateRateInfo 11 mask 0 0 with preRate := rate, decisionRate := rate }

theorem ratesRight_sample :
    ((sampleRates 0b1011 3).StepsRight ↔
    ((sampleRates 0b1011 3).rateSGI = 0 → (sampleRates 0b1011 3).NotSecond)) ∧
    ∀ es : List RaEvent, (∀ e ∈ es, IsReport e) →
      ((odmRAInfoInit none 0).odmRAUpdateRateInfo 11 0b1011 0 0).StaysEnabled es := by
  have hbits : ∀ i < 28, Nat.testBit 0b1011 i = true → 0 ≤ i ∧ i ≤ 3 := by decide
  refine ⟨(ratesRight (sampleRates 0b1011 3)).1 ⟨⟨by decide, by decide, by decide, fun i hi => ?_⟩,
    by decide, by decide⟩,
    ((ratesRight (odmRAInfoInit none 0)).2 (.init none 0) 11 0b1011 0 0 (by decide) (by decide)).1
    ⟨?_, ?_⟩⟩
  · exact hbits i (@lt_of_testBit 0b1011 28 i (by decide) hi) hi
  · exact Or.inr (by decide)
  · exact Or.inr (by decide)

/-- The second lowest rate has no step down, and a refresh leaves the rate MCS 7 on in a mask that
has only MCS 15 and 1 Mbit/s. -/
theorem not_ratesRight_sample :
    ((sampleRates 0b11 1).AtRate ∧ ¬(sampleRates 0b11 1).StepsRight) ∧
    (odmRAInfoInit none 0).Reached ∧
    ¬((odmRAInfoInit none 0).odmRAUpdateRateInfo 0 0x08000001 0 0).StaysEnabled [] := by
  have hbits : ∀ i < 28, Nat.testBit 0b11 i = true → 0 ≤ i ∧ i ≤ 1 := by decide
  refine ⟨⟨⟨⟨by decide, by decide, by decide, fun i hi => ?_⟩, by decide, by decide⟩, ?_⟩,
    .init none 0, ?_⟩
  · exact hbits i (@lt_of_testBit 0b11 28 i (by decide) hi) hi
  · rintro ⟨hdown, -⟩
    obtain ⟨r', hr', hnext⟩ := hdown rfl
    have hstays : (sampleRates 0b11 1).odmRateDown.map (·.decisionRate) = some 1 := by decide
    rw [hr', Option.map_some] at hstays
    have hone : r'.decisionRate = 1 := Option.some.inj hstays
    rw [hone] at hnext
    rcases hnext with ⟨-, hself, -⟩ | ⟨-, hall⟩
    · exact absurd hself (by decide)
    · exact hall 0 (by decide) (by decide)
  · rintro ⟨r', hrun, henabled⟩
    cases hrun
    exact absurd henabled (by decide)

end RaInfo

end Rtl8188eu
