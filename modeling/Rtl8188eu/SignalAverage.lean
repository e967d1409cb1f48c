import Rtl8188eu.MovingAverage
import Rtl8188eu.ScanTable

/-!
# The signal of a scanned network

A comment in `update_network` tells how the signal of a network is kept : one fifth is the new
sample, four fifths the history. The averages stand behind the assignments as comments ; what is
assigned is the history alone. Reports that carry another signal do not move the kept one at all
(`SteadyReports.averages_iff`).
-/

namespace Rtl8188eu

open Runs MovingAverage ScanTable

/-- A report of a network, with what the driver is like at the time. -/
abbrev Report := ScanEnv × { b : WlanBssidEx // b.Collected }

/-- The call of `rtw_update_scanned_network` for a report. -/
def Report.event (r : Report) : ScanEvent := .scanned r.1 r.2

/-- Reports for the network of an entry of a table, which is not the connected one. All of them were
received on the right channel and carry the same signal. -/
structure SteadyReports where
  before : List ScanEvent
  table : ScanTable
  reached : runM scanStep init before = some table
  entry : NetId
  queued : entry ∈ table.scannedQueue
  signalStrength : UInt8
  rssi : ℤ
  reports : List Report
  same : ∀ r ∈ reports, r.2.val.key = table.keyOf entry
  other : ∀ r ∈ reports, (checkFwstate r.1.fwState fwLinked && r.1.curNetwork.isSameNetwork r.2) = false
  steady : ∀ r ∈ reports, r.2.val.signalStrength = signalStrength ∧ r.2.val.rssi = rssi ∧ r.2.val.signalQuality ≠ 101

namespace SteadyReports

variable (c : SteadyReports)

/-- The weight of the history against one sample. -/
def historyWeight : ℕ := 4

/-- What is claimed of the reports : the strength and the power that the entry keeps follow them. -/
def Averages : Prop :=
  ∃ strengths powers : ℕ → ℤ,
    (∀ i ≤ c.reports.length, ∃ t, runM scanStep c.table ((c.reports.take i).map Report.event) = some t ∧
      ((t.network c.entry).network.signalStrength.toNat : ℤ) = strengths i ∧
      (t.network c.entry).network.rssi = powers i) ∧
    Follows historyWeight c.signalStrength.toNat c.reports.length strengths ∧
    Follows historyWeight c.rssi c.reports.length powers

/-- The signal that the entry keeps. -/
def kept : WlanBssidEx := (c.table.network c.entry).network

/-- The kept signal is at rest under the reported one. -/
def AtRest : Prop :=
  next historyWeight c.signalStrength.toNat c.kept.signalStrength.toNat = c.kept.signalStrength.toNat ∧
    next historyWeight c.rssi c.kept.rssi = c.kept.rssi

/-- What holds of the table after each report. -/
structure Holds (t : ScanTable) : Prop where
  inv : ScanInv t
  queued : c.entry ∈ t.scannedQueue
  key : t.keyOf c.entry = c.table.keyOf c.entry
  strength : (t.network c.entry).network.signalStrength = c.kept.signalStrength
  power : (t.network c.entry).network.rssi = c.kept.rssi

variable {c}

theorem holds_table : c.Holds c.table := by
  refine ⟨?_, c.queued, rfl, rfl, rfl⟩
  obtain ⟨t, ht, hinv⟩ :=
    exists_runM (I := ScanInv) (fun _ e h => scanInv_step h e) c.before scanInv_init
  rw [c.reached] at ht
  rw [Option.some.inj ht]
  exact hinv

/-- The entry of a network is the one that a report of the network finds. -/
theorem findSame_of_key {s : ScanTable} {k : NetId} {b : WlanBssidEx} (h : ScanInv s)
    (hk : k ∈ s.scannedQueue)
    (hkey : b.key = s.keyOf k) : s.findSame b = some k := by
  cases hfind : s.findSame b with
  | none => exact absurd hkey.symm (findSame_none hfind hk)
  | some j =>
    obtain ⟨hj, hkeyj⟩ := findSame_some hfind
    rw [h.distinct j hj k hk (hkeyj.trans hkey)]

/-- A report of another network than the connected one leaves the signal as it is. -/
theorem signal_refresh {b : WlanBssidEx} {env : ScanEnv} {e : WlanNetwork}
    (h : (checkFwstate env.fwState fwLinked && env.curNetwork.isSameNetwork b) = false) :
    (refresh b env e).network.signalStrength = e.network.signalStrength ∧
      (refresh b env e).network.rssi = e.network.rssi := by
  refine ⟨?_, rfl⟩
  simp only [refresh, WlanBssidEx.updateNetwork, h]
  rfl

theorem Holds.step {t : ScanTable} (h : c.Holds t) {r : Report} (hr : r ∈ c.reports) :
    ∃ u, t.scanStep r.event = some u ∧ c.Holds u := by
  have hkey : r.2.val.key = t.keyOf c.entry := (c.same r hr).trans h.key.symm
  have hstep : t.scanStep r.event = some (t.updateEntry c.entry (refresh r.2 r.1)) := by
    change t.rtwUpdateScannedNetwork r.1 r.2.val = _
    rw [rtwUpdateScannedNetwork, findSame_of_key h.inv h.queued hkey]
  have hnew : (refresh r.2 r.1 (t.network c.entry)).network.key = t.keyOf c.entry :=
    (WlanBssidEx.key_updateNetwork r.2.property hkey.symm).trans hkey
  have hentry : (t.updateEntry c.entry (refresh r.2 r.1)).network c.entry = refresh r.2 r.1
    (t.network c.entry) :=
    Function.update_self ..
  obtain ⟨hstrength, hpower⟩ := @signal_refresh r.2.val r.1 (t.network c.entry) (c.other r hr)
  refine ⟨_, hstep, scanInv_same h.inv hnew, h.queued, ?_, ?_, ?_⟩
  · rw [keyOf_updateEntry, if_pos rfl, hnew, h.key]
  · rw [hentry, hstrength, h.strength]
  · rw [hentry, hpower, h.power]

/-- The signal stays what it was in every run of the reports. -/
theorem exists_holds : ∀ (rs : List Report) {t : ScanTable}, (∀ r ∈ rs, r ∈ c.reports) → c.Holds t →
    ∃ u, runM scanStep t (rs.map Report.event) = some u ∧ c.Holds u
  | [], t, _, h => ⟨t, rfl, h⟩
  | r :: rs, t, hrs, h => by
    obtain ⟨u, hu, hstep⟩ := h.step (hrs r List.mem_cons_self)
    obtain ⟨v, hv, hrun⟩ := exists_holds rs (fun x hx => hrs x (List.mem_cons_of_mem r hx)) hstep
    refine ⟨v, ?_, hrun⟩
    rw [List.map_cons, runM, List.foldlM_cons, hu]
    exact hv

/-- The kept signal follows the reports exactly if there are none, or if it is at rest under them
from the start. -/
theorem averages_iff (c : SteadyReports) : c.Averages ↔ c.reports = [] ∨ c.AtRest := by
  have hrun : ∀ i, ∃ t, runM scanStep c.table ((c.reports.take i).map Report.event) = some t ∧
    c.Holds t := fun i =>
    exists_holds (c.reports.take i) (fun r hr => List.mem_of_mem_take hr) holds_table
  constructor
  · rintro ⟨strengths, powers, hkept, hs, hp⟩
    have hconst : ∀ i ≤ c.reports.length, strengths i = c.kept.signalStrength.toNat ∧
      powers i = c.kept.rssi := by
      intro i hi
      obtain ⟨t, ht, hstrength, hpower⟩ := hkept i hi
      obtain ⟨u, hu, h⟩ := hrun i
      obtain rfl : t = u := Option.some.inj (ht.symm.trans hu)
      rw [← hstrength, ← hpower, h.strength, h.power]
      exact ⟨rfl, rfl⟩
    have h0 := hconst 0 (Nat.zero_le _)
    rw [follows_const_iff fun i hi => (hconst i hi).1.trans h0.1.symm, h0.1] at hs
    rw [follows_const_iff fun i hi => (hconst i hi).2.trans h0.2.symm, h0.2] at hp
    rcases hs with hnil | hs
    · exact Or.inl (List.eq_nil_of_length_eq_zero hnil)
    · rcases hp with hnil | hp
      · exact Or.inl (List.eq_nil_of_length_eq_zero hnil)
      · exact Or.inr ⟨hs, hp⟩
  · intro h
    refine ⟨fun _ => c.kept.signalStrength.toNat, fun _ => c.kept.rssi, fun i _ => ?_, ?_, ?_⟩
    · obtain ⟨t, ht, hold⟩ := hrun i
      exact ⟨t, ht, by rw [hold.strength], hold.power⟩
    · rw [follows_const_iff fun _ _ => rfl]
      exact h.imp (fun hnil => by rw [hnil]; rfl) fun hrest => hrest.1
    · rw [follows_const_iff fun _ _ => rfl]
      exact h.imp (fun hnil => by rw [hnil]; rfl) fun hrest => hrest.2

/-- A network that was heard of with the strength 50 is heard of again with the strength 100. -/
def sample : SteadyReports where
  before := [sampleScan 0]
  table := sampleTable false 1
  reached := run_sampleScan
  entry := 0
  queued := by decide
  signalStrength := 100
  rssi := -30
  reports := [(ScanTable.sampleEnv 1 wifiStationState, ⟨{ sampleBss 0 with signalStrength := 100, rssi := -30 }, collected_sampleBss 0⟩)]
  same := by simp [sampleTable, keyOf, WlanBssidEx.key, WlanBssidEx.capability]
  other := by
    intro r hr
    rw [List.mem_singleton.mp hr]
    rfl
  steady := by
    intro r hr
    rw [List.mem_singleton.mp hr]
    exact ⟨rfl, rfl, by decide⟩

/-- The strength is 50 also afterwards, where the average is 60. -/
theorem not_averages_sample : ¬sample.Averages := by
  rintro ⟨strengths, powers, hkept, hs, -⟩
  have hstrength : ∀ i ≤ 1, strengths i = 50 := by
    intro i hi
    obtain ⟨t, ht, hstrength, -⟩ := hkept i hi
    obtain ⟨u, hu, hold⟩ :=
      exists_holds (sample.reports.take i) (fun r hr => List.mem_of_mem_take hr) holds_table
    obtain rfl : t = u := Option.some.inj (ht.symm.trans hu)
    rw [← hstrength, hold.strength]
    rfl
  have haverage := hs.average 0 (by decide)
  rw [hstrength 0 (by omega), hstrength 1 le_rfl] at haverage
  exact absurd haverage (by decide)

end SteadyReports

end Rtl8188eu
