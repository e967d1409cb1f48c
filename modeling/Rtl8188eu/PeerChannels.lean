import Rtl8188eu.InfoElements
import Rtl8188eu.P2p

/-!
# The channel list of a peer

The channel list attribute of a P2P device has a country string and then classes of channels, each
with its number of channels. `rtw_p2p_get_peer_ch_list` collects the channels, and counts what
remains of the attribute with 8 bits : it goes on until the count is zero, past the end of the
attribute if the lengths do not add up. `rtw_p2p_ch_inclusion` looks for each channel in the own set
from where it found the last one.

`agreesRight_iff` : when the two functions find the common channels and keep to their arrays.
-/

namespace Rtl8188eu

/-! ## The function of the source -/

/-- The size of `peer_ch_list` and of `ch_list_inclusioned`. -/
def peerChListSz : ℕ := 50

/-- What `rtw_p2p_get_peer_ch_list` leaves in `peer_ch_list`, in the order of the writes, and what
it returns. -/
structure PeerChs where
  peerChList : List UInt8
  chNo : UInt8

/-- The loop, at the class at `p`. The result is `none` if it does not end, or writes behind
`peer_ch_list`. -/
def getPeerChListLoop (m : Mem) : ℕ → ℤ → UInt8 → PeerChs → Option PeerChs
  | 0, _, _, _ => none
  | fuel + 1, p, chCnt, r =>
    if chCnt = 0 then some r
    else
      let temp := m (p + 1)
      if peerChListSz < r.peerChList.length + temp.toNat then none
      else
        getPeerChListLoop m fuel (p + 1 + (temp.toNat + 1)) (chCnt - 1 - (temp + 1))
          ⟨r.peerChList ++ m.read (p + 2) temp.toNat, r.chNo + temp⟩

/-- `rtw_p2p_get_peer_ch_list`. Its parameter `ch_cnt` has 8 bits. -/
def rtwP2pGetPeerChListAt (m : Mem) (chContent : ℤ) (chCnt fuel : ℕ) : Option PeerChs :=
  getPeerChListLoop m fuel (chContent + 3) (UInt8.ofNat chCnt - 3) ⟨[], 0⟩

/-- `rtw_p2p_ch_inclusion` with what was collected. -/
def PeerChs.inclusion (r : PeerChs) (channelSet : List UInt8) : List UInt8 :=
  rtwP2pChInclusion channelSet 0 (r.peerChList.take r.chNo.toNat)

/-! ## What is claimed -/

/-- The bytes of a class. -/
def RegClass.bytes (c : RegClass) : List UInt8 :=
    c.regClass :: UInt8.ofNat c.channel.length :: c.channel

/-- The channels of the classes. -/
def channelsOf (cs : List RegClass) : List UInt8 := cs.flatMap RegClass.channel

/-- The number of bytes of the classes. -/
def classesSize : List RegClass → ℕ
  | [] => 0
  | c :: cs => c.channel.length + 2 + classesSize cs

/-- A channel list attribute : a country string and classes, with at most 50 channels. -/
structure ChannelAttr where
  country : Vector UInt8 3
  classes : List RegClass
  few : (channelsOf classes).length ≤ peerChListSz

/-- The content of the attribute. -/
def ChannelAttr.bytes (a : ChannelAttr) : List UInt8 :=
    a.country.toList ++ a.classes.flatMap RegClass.bytes

/-- The content of an attribute in memory, and the channels of the own set. -/
structure PeerAttr where
  mem : Mem
  chContent : ℤ
  chCnt : ℕ
  channelSet : List UInt8
  nodup : channelSet.Nodup

namespace PeerAttr

variable (c : PeerAttr)

/-- The attribute is in memory. -/
def Is (a : ChannelAttr) : Prop := c.chCnt = a.bytes.length ∧ c.mem.Holds c.chContent a.bytes

/-- What is claimed of the two functions. Both end, and write at most 50 entries. For an attribute,
what is collected are its channels and their number, and what is found are those of the own set. -/
def AgreesRight : Prop :=
  ∃ fuel r, rtwP2pGetPeerChListAt c.mem c.chContent c.chCnt fuel = some r ∧
    r.peerChList.length ≤ peerChListSz ∧ (r.inclusion c.channelSet).length ≤ peerChListSz ∧
    ∀ a, c.Is a → r.peerChList = channelsOf a.classes ∧
      r.chNo.toNat = (channelsOf a.classes).length ∧
      r.inclusion c.channelSet = (channelsOf a.classes).filter fun ch => decide (ch ∈ c.channelSet)

/-! ## When it is right -/

/-- The first `n` classes that are in memory from `p` on. -/
def classesAt (m : Mem) : ℕ → ℤ → List RegClass
  | 0, _ => []
  | n + 1, p => ⟨m p, m.read (p + 2) (m (p + 1)).toNat⟩ :: classesAt m n (p + 2 + (m (p + 1)).toNat)

/-- With the first `n` classes the length of the attribute is used up, as far as 8 bits tell. -/
def UsedUp (n : ℕ) : Prop :=
  (UInt8.ofNat c.chCnt - 3).toNat = classesSize (classesAt c.mem n (c.chContent + 3)) % 256

/-- The length of the attribute is used up before there are more than 50 channels. -/
def Ends : Prop :=
  ∃ n, c.UsedUp n ∧ (channelsOf (classesAt c.mem n (c.chContent + 3))).length ≤ peerChListSz

/-- No classes that name a channel are a multiple of 256 bytes long at the end of the attribute. -/
def NoLongTail (cs : List RegClass) : Prop :=
  ∀ as bs, cs = as ++ bs → 256 ∣ classesSize bs → channelsOf bs = []

/-- The channels of the own set come in the order of the own set. -/
def InOrder (channelSet chs : List UInt8) : Prop :=
  ((chs.filter fun ch => decide (ch ∈ channelSet)).map channelSet.idxOf).Pairwise (· ≤ ·)

/-- The condition on the memory and on the own set. -/
def Agreeable : Prop :=
  c.Ends ∧ ∀ a, c.Is a → NoLongTail a.classes ∧ InOrder c.channelSet (channelsOf a.classes)

end PeerAttr

/-! ## The search in the own set -/

section

variable {own : List UInt8} {ch : UInt8} {temp : ℕ}

theorem find_drop_of_le (hnodup : own.Nodup) (hch : ch ∈ own) (h : temp ≤ own.idxOf ch) :
    (own.drop temp).idxOf? ch = some (own.idxOf ch - temp) := by
  have hlt := List.idxOf_lt_length_of_mem hch
  refine List.idxOf?_eq_some_iff.mpr ⟨by rw [List.length_drop]; omega, ?_, fun j hj => ?_⟩
  · rw [List.getElem_drop]
    simp only [Nat.add_sub_cancel' h, List.getElem_idxOf]
  · rw [List.getElem_drop]
    intro heq
    have hidx := hnodup.idxOf_getElem (temp + j) (by omega)
    rw [heq] at hidx
    omega

theorem find_drop_of_lt (hnodup : own.Nodup) (h : own.idxOf ch < temp) :
    (own.drop temp).idxOf? ch = none := by
  rw [List.idxOf?_eq_none_iff]
  intro hmem
  obtain ⟨j, hj, heq⟩ := List.getElem_of_mem hmem
  rw [List.length_drop] at hj
  rw [List.getElem_drop] at heq
  have hidx := hnodup.idxOf_getElem (temp + j) (by omega)
  rw [heq] at hidx
  omega

theorem find_drop_of_not_mem (hch : ch ∉ own) : (own.drop temp).idxOf? ch = none :=
  List.idxOf?_eq_none_iff.mpr fun hmem => hch (List.mem_of_mem_drop hmem)

/-- Whatever the order, nothing but channels of the own set is found. -/
theorem inclusion_sublist (hnodup : own.Nodup) : ∀ (temp : ℕ) (chs : List UInt8),
    (rtwP2pChInclusion own temp chs).Sublist (chs.filter fun ch => decide (ch ∈ own))
  | _, [] => List.Sublist.slnil
  | temp, ch :: chs => by
    by_cases hch : ch ∈ own
    · rw [List.filter_cons_of_pos (by simpa using hch), rtwP2pChInclusion]
      rcases Nat.lt_or_ge (own.idxOf ch) temp with hlt | hge
      · rw [find_drop_of_lt hnodup hlt]
        exact (inclusion_sublist hnodup temp chs).cons ch
      · rw [find_drop_of_le hnodup hch hge]
        exact (inclusion_sublist hnodup _ chs).cons_cons ch
    · rw [List.filter_cons_of_neg (by simpa using hch), rtwP2pChInclusion, find_drop_of_not_mem hch]
      exact inclusion_sublist hnodup temp chs

/-- From an index on, all common channels are found exactly if they come in the order of the own set
from there. -/
theorem inclusion_eq_filter_iff (hnodup : own.Nodup) : ∀ (temp : ℕ) (chs : List UInt8),
    rtwP2pChInclusion own temp chs = chs.filter (fun ch => decide (ch ∈ own)) ↔
      (temp :: (chs.filter fun ch => decide (ch ∈ own)).map own.idxOf).Pairwise (· ≤ ·)
  | temp, [] => by simp [rtwP2pChInclusion]
  | temp, ch :: chs => by
    by_cases hch : ch ∈ own
    · rw [List.filter_cons_of_pos (by simpa using hch), rtwP2pChInclusion, List.map_cons,
        List.pairwise_cons]
      rcases Nat.lt_or_ge (own.idxOf ch) temp with hlt | hge
      · -- the search begins behind the channel
        rw [find_drop_of_lt hnodup hlt]
        refine iff_of_false (fun heq => ?_) fun h => ?_
        · dsimp only at heq
          have hle := (inclusion_sublist hnodup temp chs).length_le
          rw [heq, List.length_cons] at hle
          omega
        · have hle := h.1 _ List.mem_cons_self
          omega
      · rw [find_drop_of_le hnodup hch hge]
        dsimp only
        rw [Nat.add_sub_cancel' hge, List.cons.injEq, inclusion_eq_filter_iff hnodup]
        refine ⟨fun h => ⟨fun i hi => ?_, h.2⟩, fun h => ⟨rfl, h.2⟩⟩
        rcases List.mem_cons.mp hi with rfl | hi
        · exact hge
        · exact hge.trans ((List.pairwise_cons.mp h.2).1 i hi)
    · rw [List.filter_cons_of_neg (by simpa using hch), rtwP2pChInclusion, find_drop_of_not_mem hch]
      exact inclusion_eq_filter_iff hnodup temp chs

theorem inclusion_eq_filter (hnodup : own.Nodup) (chs : List UInt8) :
    rtwP2pChInclusion own 0 chs = chs.filter (fun ch => decide (ch ∈ own)) ↔
      PeerAttr.InOrder own chs := by
  rw [inclusion_eq_filter_iff hnodup, List.pairwise_cons]
  exact and_iff_right fun _ _ => Nat.zero_le _

end

/-! ## The loop over the classes -/

namespace PeerAttr

theorem channelsOf_cons (c : RegClass) (cs : List RegClass) :
    channelsOf (c :: cs) = c.channel ++ channelsOf cs := rfl

theorem channelsOf_append (as bs : List RegClass) :
    channelsOf (as ++ bs) = channelsOf as ++ channelsOf bs :=
  List.flatMap_append

theorem classesSize_append (as bs : List RegClass) :
    classesSize (as ++ bs) = classesSize as + classesSize bs := by
  induction as with
  | nil => rw [List.nil_append, classesSize, Nat.zero_add]
  | cons c as ih =>
    rw [List.cons_append, classesSize, classesSize, ih]
    omega

/-- More classes of the memory begin with the same ones. -/
theorem classesAt_append (m : Mem) :
    ∀ {n k : ℕ}, n ≤ k → ∀ p, ∃ bs, classesAt m k p = classesAt m n p ++ bs
  | 0, k, _, p => ⟨_, rfl⟩
  | n + 1, k + 1, h, p => by
    obtain ⟨bs, hbs⟩ := classesAt_append m (Nat.le_of_succ_le_succ h) (p + 2 + (m (p + 1)).toNat)
    exact ⟨bs, by rw [classesAt, classesAt, hbs, List.cons_append]⟩

theorem length_classesAt (m : Mem) : ∀ (n : ℕ) (p : ℤ), (classesAt m n p).length = n
  | 0, _ => rfl
  | n + 1, p => by rw [classesAt, List.length_cons, length_classesAt m n]

/-- The count after one more class. -/
theorem toNat_chCnt (chCnt temp : UInt8) (size : ℕ) :
    chCnt.toNat = (temp.toNat + 2 + size) % 256 ↔ (chCnt - 1 - (temp + 1)).toNat = size % 256 := by
  have h1 := chCnt.toNat_lt
  have h2 := temp.toNat_lt
  rw [UInt8.toNat_sub, UInt8.toNat_sub, UInt8.toNat_add, UInt8.toNat_one]
  omega

theorem length_channel_classesAt (m : Mem) (p : ℤ) :
    (RegClass.mk (m p) (m.read (p + 2) (m (p + 1)).toNat)).channel.length = (m (p + 1)).toNat :=
    Mem.length_read ..

/-- The count is used up after `n` classes, and not before. -/
def StopsAt (m : Mem) (p : ℤ) (chCnt : UInt8) (n : ℕ) : Prop :=
  chCnt.toNat = classesSize (classesAt m n p) % 256 ∧
    ∀ k < n, chCnt.toNat ≠ classesSize (classesAt m k p) % 256

/-- What the loop returns. -/
def collected (m : Mem) (p : ℤ) (r : PeerChs) (n : ℕ) : PeerChs :=
  ⟨r.peerChList ++ channelsOf (classesAt m n p),
    r.chNo + UInt8.ofNat (channelsOf (classesAt m n p)).length⟩

theorem stopsAt_zero_iff (m : Mem) (p : ℤ) (chCnt : UInt8) : StopsAt m p chCnt 0 ↔ chCnt = 0 := by
  have hzero : chCnt.toNat = classesSize (classesAt m 0 p) % 256 ↔ chCnt = 0 := by
    rw [← UInt8.toNat_inj]
    rfl
  exact ⟨fun h => hzero.mp h.1, fun h => ⟨hzero.mpr h, fun k hk => absurd hk (Nat.not_lt_zero k)⟩⟩

theorem stopsAt_succ_iff (m : Mem) (p : ℤ) (chCnt : UInt8) (n : ℕ) :
    StopsAt m p chCnt (n + 1) ↔ chCnt ≠ 0 ∧
      StopsAt m (p + 2 + (m (p + 1)).toNat) (chCnt - 1 - (m (p + 1) + 1)) n := by
  have hstep : ∀ k, chCnt.toNat = classesSize (classesAt m (k + 1) p) % 256 ↔
      (chCnt - 1 - (m (p + 1) + 1)).toNat =
        classesSize (classesAt m k (p + 2 + (m (p + 1)).toNat)) % 256 := by
    intro k
    rw [← toNat_chCnt, classesAt, classesSize, length_channel_classesAt]
  have hzero : chCnt.toNat ≠ classesSize (classesAt m 0 p) % 256 ↔ chCnt ≠ 0 := by
    rw [Ne, Ne, ← UInt8.toNat_inj]
    rfl
  rw [StopsAt, StopsAt, hstep]
  constructor
  · rintro ⟨hn, hk⟩
    exact ⟨hzero.mp (hk 0 (Nat.succ_pos n)), hn,
      fun k hkn => fun h => hk (k + 1) (by omega) ((hstep k).mpr h)⟩
  · rintro ⟨h0, hn, hk⟩
    refine ⟨hn, fun k hkn => ?_⟩
    cases k with
    | zero => exact hzero.mpr h0
    | succ k => exact fun h => hk k (by omega) ((hstep k).mp h)

/-- One more class in front of what is collected. -/
theorem collected_succ (m : Mem) (p : ℤ) (r : PeerChs) (n : ℕ) :
    collected m p r (n + 1) = collected m (p + 2 + (m (p + 1)).toNat)
      ⟨r.peerChList ++ m.read (p + 2) (m (p + 1)).toNat, r.chNo + m (p + 1)⟩ n := by
  rw [collected, collected, classesAt, channelsOf_cons, List.length_append, Mem.length_read,
    UInt8.ofNat_add,
    UInt8.ofNat_toNat, List.append_assoc, UInt8.add_assoc]

/-- The loop ends at the first class where the count is used up, if there are at most 50 channels
till then. -/
theorem getPeerChListLoop_eq_some_iff (m : Mem) (r' : PeerChs) :
    ∀ (p : ℤ) (chCnt : UInt8) (r : PeerChs), r.peerChList.length ≤ peerChListSz →
      ((∃ fuel, getPeerChListLoop m fuel p chCnt r = some r') ↔
        ∃ n, StopsAt m p chCnt n ∧ r' = collected m p r n ∧
          r'.peerChList.length ≤ peerChListSz) := by
  have hadvance : ∀ (p : ℤ) (temp : UInt8), p + 1 + ((temp.toNat : ℤ) + 1) =
    p + 2 + temp.toNat := by
    intro p temp
    ring
  have hto : ∀ (fuel : ℕ) (p : ℤ) (chCnt : UInt8) (r : PeerChs), r.peerChList.length ≤
    peerChListSz →
      getPeerChListLoop m fuel p chCnt r = some r' →
      ∃ n, StopsAt m p chCnt n ∧ r' = collected m p r n ∧ r'.peerChList.length ≤ peerChListSz := by
    intro fuel
    induction fuel with
    | zero => intro p chCnt r _ h; exact absurd h (by simp [getPeerChListLoop])
    | succ fuel ih =>
      intro p chCnt r hr h
      rw [getPeerChListLoop] at h
      dsimp only at h
      split_ifs at h with h0 hfull
      · refine ⟨0, (stopsAt_zero_iff m p chCnt).mpr h0, ?_, ?_⟩
        · rw [← Option.some.inj h]
          simp [collected, classesAt, channelsOf]
        · rw [← Option.some.inj h]
          exact hr
      · rw [hadvance] at h
        obtain ⟨n, hstop, heq, hlen⟩ :=
          ih _ _ _ (by rw [List.length_append, Mem.length_read]; omega) h
        exact ⟨n + 1, (stopsAt_succ_iff m p chCnt n).mpr ⟨h0, hstop⟩,
          heq.trans (collected_succ m p r n).symm, hlen⟩
  have hfrom : ∀ (n : ℕ) (p : ℤ) (chCnt : UInt8) (r : PeerChs), StopsAt m p chCnt n →
      (collected m p r n).peerChList.length ≤ peerChListSz →
      getPeerChListLoop m (n + 1) p chCnt r = some (collected m p r n) := by
    intro n
    induction n with
    | zero =>
      intro p chCnt r hstop _
      rw [getPeerChListLoop, if_pos ((stopsAt_zero_iff m p chCnt).mp hstop)]
      simp [collected, classesAt, channelsOf]
    | succ n ih =>
      intro p chCnt r hstop hlen
      obtain ⟨h0, hstop⟩ := (stopsAt_succ_iff m p chCnt n).mp hstop
      rw [collected_succ] at hlen ⊢
      have hroom : ¬peerChListSz < r.peerChList.length + (m (p + 1)).toNat := by
        rw [collected, List.length_append, List.length_append, Mem.length_read] at hlen
        omega
      rw [getPeerChListLoop, if_neg h0, if_neg hroom, hadvance]
      exact ih _ _ _ hstop hlen
  intro p chCnt r hr
  constructor
  · rintro ⟨fuel, h⟩
    exact hto fuel p chCnt r hr h
  · rintro ⟨n, hstop, rfl, hlen⟩
    exact ⟨n + 1, hfrom n p chCnt r hstop hlen⟩

/-! ## The two functions -/

variable {c : PeerAttr} {a : ChannelAttr}

/-- Where the collecting stops. -/
def Stops (c : PeerAttr) (n : ℕ) : Prop :=
    StopsAt c.mem (c.chContent + 3) (UInt8.ofNat c.chCnt - 3) n

theorem length_bytes (cs : List RegClass) :
    (cs.flatMap RegClass.bytes).length = classesSize cs := by
  induction cs with
  | nil => rfl
  | cons d cs ih =>
    rw [List.flatMap_cons, List.length_append, ih, classesSize, RegClass.bytes, List.length_cons,
      List.length_cons]

/-- The classes of an attribute are those in memory. -/
theorem classesAt_of_holds {m : Mem} :
    ∀ {cs : List RegClass} {p : ℤ}, (channelsOf cs).length ≤ peerChListSz →
    m.Holds p (cs.flatMap RegClass.bytes) → classesAt m cs.length p = cs
  | [], p, _, _ => rfl
  | d :: cs, p, hfew, h => by
    rw [channelsOf_cons, List.length_append] at hfew
    rw [List.flatMap_cons, Mem.holds_append] at h
    obtain ⟨hd, hcs⟩ := h
    rw [RegClass.bytes, Mem.holds_cons, Mem.holds_cons] at hd
    obtain ⟨hclass, hnum, hch⟩ := hd
    have hlen : (m (p + 1)).toNat = d.channel.length := by
      rw [hnum, UInt8.toNat_ofNat']
      exact Nat.mod_eq_of_lt (by unfold peerChListSz at hfew; omega)
    have hread : m.read (p + 2) d.channel.length = d.channel := by
      rw [add_assoc] at hch
      exact hch
    have hrest : p + 2 + (d.channel.length : ℤ) = p + d.bytes.length := by
      simp only [RegClass.bytes, List.length_cons]
      push_cast
      ring
    rw [List.length_cons, classesAt, hlen, hread, hclass, hrest, classesAt_of_holds (by omega) hcs]

/-- The classes of the attribute are those behind the country string, and they use up its length. -/
theorem Is.classesAt (h : c.Is a) :
    PeerAttr.classesAt c.mem a.classes.length (c.chContent + 3) = a.classes := by
  obtain ⟨-, hbytes⟩ := h
  rw [ChannelAttr.bytes, Mem.holds_append, Vector.length_toList] at hbytes
  exact classesAt_of_holds a.few hbytes.2

theorem toNat_sub_three (n : ℕ) : (UInt8.ofNat (n + 3) - 3).toNat = n % 256 := by
  rw [UInt8.toNat_sub, UInt8.toNat_ofNat']
  have h3 : (3 : UInt8).toNat = 3 := rfl
  rw [h3]
  omega

theorem Is.toNat_chCnt (h : c.Is a) :
    (UInt8.ofNat c.chCnt - 3).toNat = classesSize a.classes % 256 := by
  have hlen : c.chCnt = classesSize a.classes + 3 := by
    rw [h.1, ChannelAttr.bytes, List.length_append, length_bytes, Vector.length_toList,
      Nat.add_comm]
  rw [hlen, toNat_sub_three]

/-- The first classes of the attribute are the first ones in memory. -/
theorem Is.classesAt_of_append (h : c.Is a) {as bs : List RegClass} (hab : a.classes = as ++ bs) :
    PeerAttr.classesAt c.mem as.length (c.chContent + 3) = as := by
  have hle : as.length ≤ a.classes.length := by
    rw [hab, List.length_append]
    omega
  obtain ⟨rest, hrest⟩ := classesAt_append c.mem hle (c.chContent + 3)
  rw [h.classesAt, hab] at hrest
  exact (List.append_inj hrest (length_classesAt ..).symm).1.symm

/-- A tail that is a multiple of 256 bytes long begins where the collecting stops, or later. -/
theorem Is.le_of_tail (h : c.Is a) {n : ℕ} (hstop : c.Stops n) {as bs : List RegClass}
    (hab : a.classes = as ++ bs) (hdvd : 256 ∣ classesSize bs) : n ≤ as.length := by
  by_contra hlt
  refine hstop.2 as.length (by omega) ?_
  rw [h.toNat_chCnt, h.classesAt_of_append hab, hab, classesSize_append]
  omega

/-- Where the collecting stops, the rest of the attribute is a multiple of 256 bytes long. -/
theorem Is.split (h : c.Is a) {n : ℕ} (hstop : c.Stops n) :
    ∃ bs, a.classes = PeerAttr.classesAt c.mem n (c.chContent + 3) ++ bs ∧
      256 ∣ classesSize bs := by
  have hle : n ≤ a.classes.length := by
    by_contra hlt
    exact hstop.2 a.classes.length (by omega) (by rw [h.classesAt, h.toNat_chCnt])
  obtain ⟨bs, hbs⟩ := classesAt_append c.mem hle (c.chContent + 3)
  rw [h.classesAt] at hbs
  refine ⟨bs, hbs, ?_⟩
  have hcnt := hstop.1
  rw [h.toNat_chCnt, hbs, classesSize_append] at hcnt
  omega

/-- The first place where the length is used up. -/
theorem exists_stops (h : c.Ends) :
    ∃ n, c.Stops n ∧ (channelsOf (classesAt c.mem n (c.chContent + 3))).length ≤ peerChListSz := by
  classical
  obtain ⟨k, hk, hfew⟩ := h
  have hex : ∃ n, c.UsedUp n := ⟨k, hk⟩
  refine ⟨Nat.find hex, ⟨Nat.find_spec hex, fun j hj => Nat.find_min hex hj⟩, ?_⟩
  obtain ⟨bs, hbs⟩ := classesAt_append c.mem (Nat.find_min' hex hk) (c.chContent + 3)
  rw [hbs, channelsOf_append, List.length_append] at hfew
  omega

/-- What is returned. -/
theorem exists_fuel_iff (c : PeerAttr) (r : PeerChs) :
    (∃ fuel, rtwP2pGetPeerChListAt c.mem c.chContent c.chCnt fuel = some r) ↔
      ∃ n, c.Stops n ∧ r = collected c.mem (c.chContent + 3) ⟨[], 0⟩ n ∧
        r.peerChList.length ≤ peerChListSz :=
  getPeerChListLoop_eq_some_iff c.mem r (c.chContent + 3) _ ⟨[], 0⟩ (Nat.zero_le _)

/-- The number of channels is returned, and the own set is searched for all of them. -/
theorem collected_nil (m : Mem) (p : ℤ) (n : ℕ) (own : List UInt8)
    (hlen : (channelsOf (classesAt m n p)).length ≤ peerChListSz) :
    (collected m p ⟨[], 0⟩ n).peerChList = channelsOf (classesAt m n p) ∧
      (collected m p ⟨[], 0⟩ n).chNo.toNat = (channelsOf (classesAt m n p)).length ∧
      (collected m p ⟨[], 0⟩ n).inclusion own = rtwP2pChInclusion own 0
      (channelsOf (classesAt m n p)) := by
  have hlist : (collected m p ⟨[], 0⟩ n).peerChList = channelsOf (classesAt m n p) := rfl
  have hno : (collected m p ⟨[], 0⟩ n).chNo.toNat = (channelsOf (classesAt m n p)).length := by
    unfold peerChListSz at hlen
    rw [collected, UInt8.zero_add, UInt8.toNat_ofNat']
    exact Nat.mod_eq_of_lt (by omega)
  refine ⟨hlist, hno, ?_⟩
  rw [PeerChs.inclusion, hno, hlist, List.take_length]

/-- The functions work as claimed exactly under the condition. -/
theorem agreesRight_iff (c : PeerAttr) : c.AgreesRight ↔ c.Agreeable := by
  constructor
  · rintro ⟨fuel, r, hrun, hlen, -, hattr⟩
    obtain ⟨n, hstop, rfl, -⟩ := (exists_fuel_iff c r).mp ⟨fuel, hrun⟩
    have hfew : (channelsOf (classesAt c.mem n (c.chContent + 3))).length ≤ peerChListSz := hlen
    obtain ⟨hlist, -, hincl⟩ := collected_nil c.mem (c.chContent + 3) n c.channelSet hfew
    refine ⟨⟨n, hstop.1, hfew⟩, fun a ha => ?_⟩
    obtain ⟨hchs, -, hfound⟩ := hattr a ha
    rw [hlist] at hchs
    refine ⟨fun as bs hab hdvd => ?_, ?_⟩
    · -- the channels in front of the tail are all there are
      obtain ⟨mid, hmid⟩ := classesAt_append c.mem (ha.le_of_tail hstop hab hdvd) (c.chContent + 3)
      rw [ha.classesAt_of_append hab] at hmid
      rw [hab, channelsOf_append, hmid, channelsOf_append, List.append_assoc] at hchs
      exact (List.append_eq_nil_iff.mp (List.self_eq_append_right.mp hchs)).2
    · rw [hincl, hchs] at hfound
      exact (inclusion_eq_filter c.nodup _).mp hfound
  · rintro ⟨hends, hattr⟩
    obtain ⟨n, hstop, hfew⟩ := exists_stops hends
    obtain ⟨hlist, hno, hincl⟩ := collected_nil c.mem (c.chContent + 3) n c.channelSet hfew
    obtain ⟨fuel, hrun⟩ :=
      (exists_fuel_iff c (collected c.mem (c.chContent + 3) ⟨[], 0⟩ n)).mpr ⟨n, hstop, rfl, hfew⟩
    refine ⟨fuel, _, hrun, hfew, ?_, fun a ha => ?_⟩
    · rw [hincl]
      exact ((inclusion_sublist c.nodup 0 _).trans List.filter_sublist).length_le.trans hfew
    · obtain ⟨htail, horder⟩ := hattr a ha
      obtain ⟨bs, hsplit, hdvd⟩ := ha.split hstop
      have hchs : channelsOf a.classes = channelsOf (classesAt c.mem n (c.chContent + 3)) := by
        conv_lhs => rw [hsplit, channelsOf_append, htail _ bs hsplit hdvd, List.append_nil]
      rw [hchs] at horder ⊢
      exact ⟨hlist, hno, hincl.trans ((inclusion_eq_filter c.nodup _).mpr horder)⟩

/-! ## A peer that names its channels in another order -/

/-- One class with the channels 6 and 1. -/
def samplePeerChannels : ChannelAttr := ⟨#v[0x58, 0x58, 0x04], [⟨81, [6, 1]⟩], by decide⟩

/-- The attribute at address 0, for a device with the channels 1, 6 and 11. -/
def samplePeer : PeerAttr :=
  ⟨fun p => samplePeerChannels.bytes.getD p.toNat 0, 0, 7, [1, 6, 11], by decide⟩

theorem samplePeer_is : samplePeer.Is samplePeerChannels := by
  refine ⟨rfl, ?_⟩
  rw [Mem.Holds]
  decide

/-- Channel 1 is common, and is not found behind channel 6. -/
theorem not_agreesRight_sample : ¬samplePeer.AgreesRight := by
  rintro ⟨fuel, r, -, -, -, hattr⟩
  obtain ⟨hlist, hno, hfound⟩ := hattr _ samplePeer_is
  rw [PeerChs.inclusion, hlist, hno] at hfound
  exact absurd hfound (by decide)

end PeerAttr

end Rtl8188eu
