import Rtl8188eu.Adapter

/-!
# Multicast to unicast

An access point sends an IP multicast packet to each associated station on its own :
`rtw_mlcst2unicst` copies the packet and writes the address of the station into the copy. Where it
gets no copy, `rtw_xmit_entry` sends the packet as it is, which all stations receive.

`givesOnceOrBoth` : a station gets the packet once, unless it has its own copy when a copy fails,
and the packet then goes out as well.
-/

namespace Rtl8188eu

open LiteralIndex

/-- A packet buffer : the one that came from the network stack, or the copy made in a round. -/
inductive TxSkb
  | original
  | copy (k : ℕ)
  deriving DecidableEq

/-- What happens to a packet in `rtw_xmit` : whether there is an `xmit_frame`, whether
`update_attrib` takes it, and whether it has to wait in a queue. -/
structure XmitAnswer where
  frame : Bool
  attrib : Bool
  queued : Bool

/-- `rtw_xmit`, at an access point. A packet with a result that is not negative belongs to the
transmit path. -/
def rtwXmitResult (x : XmitAnswer) : ℤ :=
  if !x.frame then -1 else if !x.attrib then -1 else if x.queued then 1 else 0

/-- The answers for a station : `skb_copy`, and `rtw_xmit` on the copy. Where there is no copy,
`rtw_xmit` gets the packet itself. -/
structure McAnswer where
  skbCopy : Bool
  xmit : XmitAnswer

/-- The stations of `asoc_list`. -/
structure AsocList where
  hwaddrs : List MacAddr
  nodup : hwaddrs.Nodup
  individual : ∀ a ∈ hwaddrs, isMcast a = false

/-- What the transmit path has got, with the destinations, what has been freed, and the counters. -/
structure XmitLog where
  handed : List (TxSkb × MacAddr) := []
  freed : List TxSkb := []
  txPkts : ℕ := 0
  txDrop : ℕ := 0

namespace XmitLog

def append (l l' : XmitLog) : XmitLog :=
  ⟨l.handed ++ l'.handed, l.freed ++ l'.freed, l.txPkts + l'.txPkts, l.txDrop + l'.txDrop⟩

/-- The copies of the packet that a station gets. -/
def copiesFor (l : XmitLog) (sta : MacAddr) : ℕ := l.handed.countP fun h => h.2 = sta ∨ isMcast h.2

/-- How often the packet from the network stack is freed, here or by the transmit path that owns
it. -/
def released (l : XmitLog) : ℕ := l.freed.count .original + (l.handed.map Prod.fst).count .original

end XmitLog

/-- A packet is given to `rtw_xmit`, and freed if that fails. -/
def sendSkb (skb : TxSkb) (dst : MacAddr) (x : XmitAnswer) : XmitLog :=
  if rtwXmitResult x < 0 then { freed := [skb], txDrop := 1 } else { handed := [(skb, dst)], txPkts := 1 }

/-- `rtw_mlcst2unicst`, with the answers from the `k`-th on. The second component is `none` for
`true`, and for `false` the number of the answer that the caller gets. -/
def rtwMlcst2unicst (src : MacAddr) (answer : ℕ → McAnswer) : ℕ → List MacAddr → XmitLog × Option ℕ
  | _, [] => ({ freed := [.original] }, none)
  | k, psta :: rest =>
    if psta = src then rtwMlcst2unicst src answer k rest
    else if (answer k).skbCopy then
      let r := rtwMlcst2unicst src answer (k + 1) rest
      ((sendSkb (.copy k) psta (answer k).xmit).append r.1, r.2)
    else ({ txDrop := 1 }, some k)

/-- `IP_MCAST_MAC`. -/
def ipMcastMac (mac : MacAddr) : Bool :=
  getElem mac 0 octet0_lt_six = 0x01 ∧ getElem mac 1 octet1_lt_six = 0x00 ∧ getElem mac 2 octet2_lt_six = 0x5e

/-- `ICMPV6_MCAST_MAC`. -/
def icmpv6McastMac (mac : MacAddr) : Bool :=
  getElem mac 0 octet0_lt_six = 0x33 ∧ getElem mac 1 octet1_lt_six = 0x33 ∧ getElem mac 2 octet2_lt_six ≠ 0xff

/-- What `rtw_xmit_entry` looks at, at an access point. -/
structure XmitEnv where
  ifUp : Bool
  mc2uDisable : Bool
  wifiSpec : Bool
  freeXmitframeCnt : ℕ

/-- The packet is sent to each station on its own. -/
def XmitEnv.mc2u (env : XmitEnv) (dst : MacAddr) : Bool :=
  !env.mc2uDisable && (ipMcastMac dst || icmpv6McastMac dst) && !env.wifiSpec &&
    env.freeXmitframeCnt > nrXmitframe / 4

/-- `rtw_xmit_entry`, at an access point, for a packet from `src` to `dst`. -/
def rtwXmitEntry (env : XmitEnv) (dst src : MacAddr) (stas : List MacAddr) (answer : ℕ → McAnswer) : XmitLog :=
  if !env.ifUp then { freed := [.original], txDrop := 1 }
  else if env.mc2u dst then
    match rtwMlcst2unicst src answer 0 stas with
    | (log, none) => log
    | (log, some k) => log.append (sendSkb .original dst (answer k).xmit)
  else sendSkb .original dst (answer 0).xmit

/-! ## The copies -/

/-- `rtw_xmit` takes the packet. -/
def XmitAnswer.Ok (x : XmitAnswer) : Prop := x.frame = true ∧ x.attrib = true

instance (x : XmitAnswer) : Decidable x.Ok := inferInstanceAs (Decidable (_ ∧ _))

theorem rtwXmitResult_neg (x : XmitAnswer) : rtwXmitResult x < 0 ↔ ¬x.Ok := by
  obtain ⟨frame, attrib, queued⟩ := x
  unfold rtwXmitResult XmitAnswer.Ok
  cases frame <;> cases attrib <;> cases queued <;> simp

theorem sendSkb_eq (skb : TxSkb) (dst : MacAddr) (x : XmitAnswer) :
    sendSkb skb dst x
      = if x.Ok then { handed := [(skb, dst)], txPkts := 1 } else { freed := [skb], txDrop := 1 } := by
  unfold sendSkb
  by_cases h : x.Ok
  · rw [if_pos h, if_neg fun hneg => (rtwXmitResult_neg x).mp hneg h]
  · rw [if_neg h, if_pos ((rtwXmitResult_neg x).mpr h)]

/-- The stations other than the source get their copies in order, up to the first copy that
fails. -/
def sendCopies (answer : ℕ → McAnswer) : ℕ → List MacAddr → XmitLog × Option ℕ
  | _, [] => ({ freed := [.original] }, none)
  | k, psta :: rest =>
    if (answer k).skbCopy then
      ((sendSkb (.copy k) psta (answer k).xmit).append (sendCopies answer (k + 1) rest).1,
        (sendCopies answer (k + 1) rest).2)
    else ({ txDrop := 1 }, some k)

theorem rtwMlcst2unicst_eq (src : MacAddr) (answer : ℕ → McAnswer) :
    ∀ (stas : List MacAddr) (k : ℕ),
    rtwMlcst2unicst src answer k stas = sendCopies answer k (stas.filter (· ≠ src))
  | [], _ => rfl
  | psta :: rest, k => by
    rw [rtwMlcst2unicst]
    by_cases hsrc : psta = src
    · rw [if_pos hsrc, rtwMlcst2unicst_eq src answer rest k,
        List.filter_cons_of_neg (by simpa using hsrc)]
    · rw [if_neg hsrc, List.filter_cons_of_pos (by simpa using hsrc), sendCopies,
        rtwMlcst2unicst_eq src answer rest (k + 1)]

variable {answer : ℕ → McAnswer}

theorem copiesFor_append (l l' : XmitLog) (sta : MacAddr) :
    (l.append l').copiesFor sta = l.copiesFor sta + l'.copiesFor sta := List.countP_append

theorem released_append (l l' : XmitLog) : (l.append l').released = l.released + l'.released := by
  simp only [XmitLog.released, XmitLog.append, List.map_append, List.count_append]
  omega

/-- A packet reaches the stations of its destination, if it is sent. -/
theorem copiesFor_sendSkb (skb : TxSkb) (dst : MacAddr) (x : XmitAnswer) (sta : MacAddr) :
    (sendSkb skb dst x).copiesFor sta = if x.Ok ∧
    (dst = sta ∨ isMcast dst = true) then 1 else 0 := by
  rw [sendSkb_eq]
  by_cases hok : x.Ok
  · rw [if_pos hok, XmitLog.copiesFor, List.countP_singleton]
    exact if_congr (by simp [hok]) rfl rfl
  · rw [if_neg hok, if_neg fun h => hok h.1]
    rfl

/-- A packet that is given away is freed once in the end. -/
theorem released_sendSkb (skb : TxSkb) (dst : MacAddr) (x : XmitAnswer) :
    (sendSkb skb dst x).released = if skb = .original then 1 else 0 := by
  rw [sendSkb_eq]
  split_ifs with hok hskb hskb
  · rw [hskb]
    rfl
  · simp [XmitLog.released, hskb]
  · rw [hskb]
    rfl
  · simp [XmitLog.released, hskb]

/-- Where a copy fails, the packet itself is left to the caller. -/
theorem released_sendCopies : ∀ (stas : List MacAddr) (k : ℕ),
    (sendCopies answer k stas).1.released = if (sendCopies answer k stas).2 = none then 1 else 0
  | [], _ => rfl
  | psta :: rest, k => by
    rw [sendCopies]
    split_ifs with hcopy hnone hnone
    · rw [released_append, released_sendSkb, if_neg (by simp), released_sendCopies rest (k + 1),
        if_pos hnone]
    · rw [released_append, released_sendSkb, if_neg (by simp), released_sendCopies rest (k + 1),
        if_neg hnone]
    · simp at hnone
    · rfl

/-- The number of the first copy that fails. -/
theorem sendCopies_eq_some : ∀ {stas : List MacAddr} {k m : ℕ},
    (sendCopies answer k stas).2 = some m ↔
      ∃ i < stas.length, m = k + i ∧ (answer (k + i)).skbCopy = false ∧
        ∀ j < i, (answer (k + j)).skbCopy = true
  | [], k, m => by simp [sendCopies]
  | psta :: rest, k, m => by
    rw [sendCopies, List.length_cons]
    cases hcopy : (answer k).skbCopy with
    | false =>
      rw [if_neg (by simp)]
      constructor
      · intro h
        cases h
        exact ⟨0, by omega, rfl, hcopy, fun j hj => absurd hj (by omega)⟩
      · rintro ⟨i, -, rfl, -, hall⟩
        cases i with
        | zero => rfl
        | succ i =>
          have h0 := hall 0 (by omega)
          rw [Nat.add_zero, hcopy] at h0
          simp at h0
    | true =>
      rw [if_pos rfl, sendCopies_eq_some]
      constructor
      · rintro ⟨i, hi, rfl, hfail, hall⟩
        refine ⟨i + 1, by omega, by omega, by rwa [Nat.add_right_comm] at hfail, fun j hj => ?_⟩
        cases j with
        | zero => exact hcopy
        | succ j =>
          have hj' := hall j (by omega)
          rwa [Nat.add_right_comm] at hj'
      · rintro ⟨i, hi, rfl, hfail, hall⟩
        cases i with
        | zero =>
          rw [Nat.add_zero, hcopy] at hfail
          simp at hfail
        | succ i =>
          refine ⟨i, by omega, by omega, by rwa [Nat.add_right_comm], fun j hj => ?_⟩
          have hj' := hall (j + 1) (by omega)
          rwa [Nat.add_right_comm]

/-- A station that is not on the list gets no copy. -/
theorem copiesFor_sendCopies_of_not_mem {sta : MacAddr} :
    ∀ {stas : List MacAddr} (k : ℕ), sta ∉ stas →
    (∀ a ∈ stas, isMcast a = false) → (sendCopies answer k stas).1.copiesFor sta = 0
  | [], _, _, _ => rfl
  | psta :: rest, k, hnot, hind => by
    rw [List.mem_cons, not_or] at hnot
    rw [sendCopies]
    split_ifs with hcopy
    · have hself : ¬((answer k).xmit.Ok ∧ (psta = sta ∨ isMcast psta = true)) := by
        rintro ⟨-, rfl | hmc⟩
        · exact hnot.1 rfl
        · rw [hind psta (List.mem_cons_self ..)] at hmc
          simp at hmc
      rw [copiesFor_append, copiesFor_sendSkb, if_neg hself,
        copiesFor_sendCopies_of_not_mem (k + 1) hnot.2
        fun a ha => hind a (List.mem_cons_of_mem _ ha)]
    · rfl

/-- A station gets a copy if all copies up to its own are made, and its own is sent. -/
theorem copiesFor_sendCopies : ∀ {stas : List MacAddr} {k i : ℕ} {sta : MacAddr}, stas.Nodup →
    (∀ a ∈ stas, isMcast a = false) → stas[i]? = some sta →
    (sendCopies answer k stas).1.copiesFor sta
      = if (∀ j ≤ i, (answer (k + j)).skbCopy = true) ∧ (answer (k + i)).xmit.Ok then 1 else 0
  | [], _, _, _, _, _, h => by simp at h
  | psta :: rest, k, i, sta, hnodup, hind, h => by
    obtain ⟨hnot, hrest⟩ := List.nodup_cons.mp hnodup
    have hind' : ∀ a ∈ rest, isMcast a = false := fun a ha => hind a (List.mem_cons_of_mem _ ha)
    rw [sendCopies]
    by_cases hcopy : (answer k).skbCopy = true
    · rw [if_pos hcopy, copiesFor_append, copiesFor_sendSkb]
      cases i with
      | zero =>
        cases h
        rw [copiesFor_sendCopies_of_not_mem (k + 1) hnot hind', Nat.add_zero]
        refine if_congr ⟨fun hok => ⟨fun j hj => ?_, hok.1⟩, fun hok => ⟨hok.2, Or.inl rfl⟩⟩ rfl rfl
        obtain rfl : j = 0 := by omega
        exact hcopy
      | succ i =>
        have hmem : sta ∈ rest := List.mem_of_getElem? h
        have hself : ¬((answer k).xmit.Ok ∧ (psta = sta ∨ isMcast psta = true)) := by
          rintro ⟨-, rfl | hmc⟩
          · exact hnot hmem
          · rw [hind psta (List.mem_cons_self ..)] at hmc
            simp at hmc
        rw [if_neg hself, Nat.zero_add, copiesFor_sendCopies hrest hind' h, Nat.add_right_comm,
          Nat.add_assoc]
        refine if_congr (and_congr_left fun _ => ⟨fun hall j hj => ?_, fun hall j hj => ?_⟩) rfl rfl
        · cases j with
          | zero => exact hcopy
          | succ j =>
            have hj' := hall j (by omega)
            rwa [Nat.add_right_comm] at hj'
        · have hj' := hall (j + 1) (by omega)
          rwa [Nat.add_right_comm]
    · rw [if_neg hcopy, if_neg fun hall => hcopy (hall.1 0 (Nat.zero_le i))]
      rfl

/-! ## A multicast packet -/

/-- Each station other than the source gets the packet at most once, and once if nothing fails. The
packet is freed once. -/
structure GivesOnce (env : XmitEnv) (dst src : MacAddr) (asoc : AsocList) (answer : ℕ → McAnswer) : Prop where
  atMostOnce : ∀ sta ∈ asoc.hwaddrs, sta ≠ src →
    (rtwXmitEntry env dst src asoc.hwaddrs answer).copiesFor sta ≤ 1
  once : env.ifUp = true → (∀ i, (answer i).skbCopy = true ∧ (answer i).xmit.Ok) →
    ∀ sta ∈ asoc.hwaddrs, sta ≠ src → (rtwXmitEntry env dst src asoc.hwaddrs answer).copiesFor sta = 1
  released : (rtwXmitEntry env dst src asoc.hwaddrs answer).released = 1

/-- The copy of the station is sent, then a copy fails, and the packet itself is sent too. -/
def GetsBoth (env : XmitEnv) (dst src : MacAddr) (asoc : AsocList) (answer : ℕ → McAnswer) (sta : MacAddr) : Prop :=
  env.ifUp = true ∧ env.mc2u dst = true ∧
    ∃ i m, (asoc.hwaddrs.filter (· ≠ src))[i]? = some sta ∧ i < m ∧ m < (asoc.hwaddrs.filter (· ≠ src)).length ∧
      (∀ j < m, (answer j).skbCopy = true) ∧ (answer m).skbCopy = false ∧
      (answer i).xmit.Ok ∧ (answer m).xmit.Ok

/-- As `GivesOnce`, but for the stations that get the packet in both ways. -/
structure GivesOnceOrBoth (env : XmitEnv) (dst src : MacAddr) (asoc : AsocList) (answer : ℕ → McAnswer) : Prop where
  atMostOnce : ∀ sta ∈ asoc.hwaddrs, sta ≠ src → ¬GetsBoth env dst src asoc answer sta →
    (rtwXmitEntry env dst src asoc.hwaddrs answer).copiesFor sta ≤ 1
  both : ∀ sta ∈ asoc.hwaddrs, sta ≠ src → GetsBoth env dst src asoc answer sta →
    (rtwXmitEntry env dst src asoc.hwaddrs answer).copiesFor sta = 2
  once : env.ifUp = true → (∀ i, (answer i).skbCopy = true ∧ (answer i).xmit.Ok) →
    ∀ sta ∈ asoc.hwaddrs, sta ≠ src → (rtwXmitEntry env dst src asoc.hwaddrs answer).copiesFor sta = 1
  released : (rtwXmitEntry env dst src asoc.hwaddrs answer).released = 1

variable {env : XmitEnv} {dst src : MacAddr} {asoc : AsocList}

/-- The packet itself reaches every station once. -/
theorem copiesFor_original (hdst : isMcast dst = true) (x : XmitAnswer) (sta : MacAddr) :
    (sendSkb .original dst x).copiesFor sta = if x.Ok then 1 else 0 := by
  rw [copiesFor_sendSkb]
  exact if_congr (and_iff_left (Or.inr hdst)) rfl rfl

theorem rtwXmitEntry_down (hup : env.ifUp = false) (stas : List MacAddr) :
    rtwXmitEntry env dst src stas answer = { freed := [.original], txDrop := 1 } := by
  rw [rtwXmitEntry, hup]
  rfl

theorem rtwXmitEntry_multicast (hup : env.ifUp = true) (hmc : env.mc2u dst = false)
    (stas : List MacAddr) :
    rtwXmitEntry env dst src stas answer = sendSkb .original dst (answer 0).xmit := by
  rw [rtwXmitEntry, hup, hmc]
  rfl

theorem rtwXmitEntry_copies (hup : env.ifUp = true) (hmc : env.mc2u dst = true)
    {stas : List MacAddr}
    (h : (sendCopies answer 0 (stas.filter (· ≠ src))).2 = none) :
    rtwXmitEntry env dst src stas answer = (sendCopies answer 0 (stas.filter (· ≠ src))).1 := by
  rw [rtwXmitEntry, hup, hmc, rtwMlcst2unicst_eq]
  simp only [Bool.not_true, Bool.false_eq_true, if_false, if_true]
  split
  · rename_i heq
    rw [heq]
  · rename_i heq
    rw [heq] at h
    simp at h

theorem rtwXmitEntry_both (hup : env.ifUp = true) (hmc : env.mc2u dst = true)
    {stas : List MacAddr} {m : ℕ}
    (h : (sendCopies answer 0 (stas.filter (· ≠ src))).2 = some m) :
    rtwXmitEntry env dst src stas answer
      = (sendCopies answer 0 (stas.filter (· ≠ src))).1.append
        (sendSkb .original dst (answer m).xmit) := by
  rw [rtwXmitEntry, hup, hmc, rtwMlcst2unicst_eq]
  simp only [Bool.not_true, Bool.false_eq_true, if_false, if_true]
  split
  · rename_i heq
    rw [heq] at h
    simp at h
  · rename_i heq
    rw [heq] at h
    cases h
    rw [heq]

/-- The copies of a station on the list. -/
theorem copiesFor_others {sta : MacAddr} (hsta : sta ∈ asoc.hwaddrs) (hsrc : sta ≠ src) :
    ∃ i < (asoc.hwaddrs.filter (· ≠ src)).length, (asoc.hwaddrs.filter (· ≠ src))[i]? = some sta ∧
      (sendCopies answer 0 (asoc.hwaddrs.filter (· ≠ src))).1.copiesFor sta
        = if (∀ j ≤ i, (answer j).skbCopy = true) ∧ (answer i).xmit.Ok then 1 else 0 := by
  have hmem : sta ∈ asoc.hwaddrs.filter (· ≠ src) := List.mem_filter.mpr ⟨hsta, by simpa using hsrc⟩
  obtain ⟨i, hi⟩ := List.mem_iff_getElem?.mp hmem
  have hcopies := @copiesFor_sendCopies answer _ 0 _ _ (asoc.nodup.filter _)
    (fun a ha => asoc.individual a (List.mem_of_mem_filter ha)) hi
  simp only [Nat.zero_add] at hcopies
  exact ⟨i, (List.getElem?_eq_some_iff.mp hi).1, hi, hcopies⟩

/-- The first copy that fails. -/
theorem firstFailure_unique {m n : ℕ} (hm : (answer m).skbCopy = false)
    (hallm : ∀ j < m, (answer j).skbCopy = true)
    (hn : (answer n).skbCopy = false) (halln : ∀ j < n, (answer j).skbCopy = true) : m = n := by
  rcases Nat.lt_trichotomy m n with hlt | heq | hlt
  · rw [halln m hlt] at hm
    simp at hm
  · exact heq
  · rw [hallm n hlt] at hn
    simp at hn

/-- Where a copy fails, a station has its own copy, if that was sent, and the packet itself, if that
is. -/
theorem copiesFor_rtwXmitEntry_both (hdst : isMcast dst = true) (hup : env.ifUp = true)
    (hmc : env.mc2u dst = true) {m : ℕ} (hm : m < (asoc.hwaddrs.filter (· ≠ src)).length)
    (hfail : (answer m).skbCopy = false) (hall : ∀ j < m, (answer j).skbCopy = true) {sta : MacAddr}
    (hsta : sta ∈ asoc.hwaddrs) (hsrc : sta ≠ src) :
    ∃ i, (asoc.hwaddrs.filter (· ≠ src))[i]? = some sta ∧
      (rtwXmitEntry env dst src asoc.hwaddrs answer).copiesFor sta
        = (if i < m ∧ (answer i).xmit.Ok then 1 else 0) + if (answer m).xmit.Ok then 1 else 0 := by
  have hlast : (sendCopies answer 0 (asoc.hwaddrs.filter (· ≠ src))).2 = some m :=
    sendCopies_eq_some.mpr ⟨m, hm, (Nat.zero_add m).symm,
      by rwa [Nat.zero_add], by simpa using hall⟩
  obtain ⟨i, -, hi, hcopies⟩ := @copiesFor_others answer src asoc sta hsta hsrc
  refine ⟨i, hi, ?_⟩
  have hmade : (∀ j ≤ i, (answer j).skbCopy = true) ↔ i < m := by
    constructor
    · intro h
      by_contra hge
      rw [h m (by omega)] at hfail
      simp at hfail
    · exact fun h j hj => hall j (by omega)
  rw [rtwXmitEntry_both hup hmc hlast, copiesFor_append, copiesFor_original hdst, hcopies]
  rw [if_congr (and_congr_left fun _ => hmade) rfl rfl]

/-- A multicast packet reaches each station at most once, but for those that get their own copy
before a copy fails : with the packet itself these have it twice. -/
theorem givesOnceOrBoth (hdst : isMcast dst = true) : GivesOnceOrBoth env dst src asoc answer := by
  cases hup : env.ifUp with
  | false =>
    have hentry := @rtwXmitEntry_down answer env dst src hup asoc.hwaddrs
    refine ⟨fun sta _ _ _ => ?_, fun sta _ _ h => ?_, fun h => ?_, ?_⟩
    · rw [hentry]
      exact Nat.zero_le 1
    · rw [h.1] at hup
      simp at hup
    · rw [hup] at h
      simp at h
    · rw [hentry]
      rfl
  | true =>
    cases hmc : env.mc2u dst with
    | false =>
      have hentry := @rtwXmitEntry_multicast answer env dst src hup hmc asoc.hwaddrs
      refine ⟨fun sta _ _ _ => ?_, fun sta _ _ h => ?_, fun _ hall sta _ _ => ?_, ?_⟩
      · rw [hentry, copiesFor_original hdst]
        split_ifs <;> omega
      · rw [h.2.1] at hmc
        simp at hmc
      · rw [hentry, copiesFor_original hdst, if_pos (hall 0).2]
      · rw [hentry, released_sendSkb, if_pos rfl]
    | true =>
      cases hlast : (sendCopies answer 0 (asoc.hwaddrs.filter (· ≠ src))).2 with
      | none =>
        have hentry := rtwXmitEntry_copies hup hmc hlast
        refine ⟨fun sta hsta hsrc _ => ?_, fun sta _ _ h => ?_, fun _ hall sta hsta hsrc => ?_, ?_⟩
        · obtain ⟨i, -, -, hcopies⟩ := @copiesFor_others answer src asoc sta hsta hsrc
          rw [hentry, hcopies]
          split_ifs <;> omega
        · obtain ⟨-, -, i, m, -, -, hm, hall, hfail, -⟩ := h
          have hsome : (sendCopies answer 0 (asoc.hwaddrs.filter (· ≠ src))).2 = some m :=
            sendCopies_eq_some.mpr ⟨m, hm, (Nat.zero_add m).symm,
              by rwa [Nat.zero_add], by simpa using hall⟩
          rw [hlast] at hsome
          simp at hsome
        · obtain ⟨i, -, -, hcopies⟩ := @copiesFor_others answer src asoc sta hsta hsrc
          rw [hentry, hcopies, if_pos ⟨fun j _ => (hall j).1, (hall i).2⟩]
        · rw [hentry, released_sendCopies, if_pos hlast]
      | some m =>
        have hentry := rtwXmitEntry_both hup hmc hlast
        obtain ⟨m, hm, rfl, hfail, hall⟩ := sendCopies_eq_some.mp hlast
        simp only [Nat.zero_add] at hlast hentry hfail hall
        refine ⟨fun sta hsta hsrc hnot => ?_, fun sta hsta hsrc hboth => ?_, fun _ hok => ?_, ?_⟩
        · obtain ⟨i, hi, hcopies⟩ :=
            copiesFor_rtwXmitEntry_both hdst hup hmc hm hfail hall hsta hsrc
          rw [hcopies]
          split_ifs with hgot hsent
          · exact absurd ⟨hup, hmc, i, m, hi, hgot.1, hm, hall, hfail, hgot.2, hsent⟩ hnot
          · omega
          · omega
          · omega
        · obtain ⟨-, -, i, n, hi, hin, hn, hall', hfail', hgot, hsent⟩ := hboth
          obtain rfl := firstFailure_unique hfail' hall' hfail hall
          obtain ⟨i', hi', hcopies⟩ :=
            copiesFor_rtwXmitEntry_both hdst hup hmc hm hfail hall hsta hsrc
          have hsame : i' = i :=
            (List.getElem?_inj (List.getElem?_eq_some_iff.mp hi').1 (asoc.nodup.filter _)).mp
            (hi'.trans hi.symm)
          rw [hcopies, hsame, if_pos ⟨hin, hgot⟩, if_pos hsent]
        · rw [(hok m).1] at hfail
          simp at hfail
        · rw [hentry, released_append, released_sendCopies, hlast, released_sendSkb, if_pos rfl,
            if_neg (by simp)]

/-! ## A group of two -/

/-- Two stations. -/
def sampleGroup : AsocList :=
  ⟨[localAddr 1, localAddr 2], by decide,
    List.forall_mem_cons.mpr ⟨by decide, List.forall_mem_singleton.mpr (by decide)⟩⟩

/-- An IPv4 multicast address. -/
def sampleMcast : MacAddr := #v[0x01, 0x00, 0x5e, 0, 0, 1]

/-- An access point with all its frames. -/
def sampleXmitEnv : XmitEnv := ⟨true, false, false, 256⟩

/-- There is memory for one copy. -/
def oneCopy (k : ℕ) : McAnswer := ⟨k = 0, ⟨true, true, false⟩⟩

theorem givesOnceOrBoth_sample : GivesOnceOrBoth sampleXmitEnv sampleMcast zeroAddr sampleGroup oneCopy :=
  givesOnceOrBoth (by decide)

/-- The first station gets the packet twice. -/
theorem not_givesOnce_sample : ¬GivesOnce sampleXmitEnv sampleMcast zeroAddr sampleGroup oneCopy := by
  intro h
  have hone := h.atMostOnce #v[2, 0, 0, 0, 0, 1] (by decide) (by decide)
  revert hone
  decide

end Rtl8188eu
