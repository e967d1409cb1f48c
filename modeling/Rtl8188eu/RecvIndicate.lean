import Rtl8188eu.StaMgt

/-!
# Handing frames to the network stack

`wlanhdr_to_ethhdr` turns the 802.11 header of a frame into an Ethernet header in place,
`rtw_recv_indicatepkt` hands the packet to the network stack (or, at an access point, to
the transmit path), and `amsdu_to_msdu` cuts an A-MSDU into packets of their own.

A function returns `none` where the source follows a null pointer : a header longer than
the frame it is in, or a packet whose copy could not be allocated.
`rtwRecvIndicatepkt_eq` and `amsduToMsdu_eq` give the state after a frame was handed up.
-/

set_option linter.unusedSectionVars false

namespace Rtl8188eu

open LinkedLists

/-! ## SNAP headers -/

/-- `rtw_rfc1042_header`. -/
def rfc1042Header : List UInt8 := [0xaa, 0xaa, 0x03, 0x00, 0x00, 0x00]

/-- `rtw_bridge_tunnel_header`. -/
def bridgeTunnelHeader : List UInt8 := [0xaa, 0xaa, 0x03, 0x00, 0x00, 0xf8]

/-- `SNAP_ETH_TYPE_IPX` (`ETH_P_IPX`). -/
def snapEthTypeIpx : List UInt8 := [0x81, 0x37]

/-- `SNAP_ETH_TYPE_APPLETALK_AARP` (`ETH_P_AARP`). -/
def snapEthTypeAarp : List UInt8 := [0x80, 0xf3]

/-- The six bytes `snap` with the type field `type` are a SNAP header to be removed. -/
def isSnapHdr (snap type : List UInt8) : Bool :=
  (snap = rfc1042Header ∧ type ≠ snapEthTypeIpx ∧ type ≠ snapEthTypeAarp)
    ∨ snap = bridgeTunnelHeader

namespace RecvFrame

/-- The bytes of the frame, from `rx_data` on. -/
def bytes (f : RecvFrame) : List UInt8 := f.mem.read f.rxData f.len

/-- The SNAP test of `wlanhdr_to_ethhdr`. -/
def bsnaphdr (f : RecvFrame) : Bool :=
  let psnap := f.rxData + f.attrib.hdrlen + f.attrib.ivLen
  isSnapHdr (f.mem.read psnap 6) (f.mem.read (psnap + 6) 2)

/-- The ICV of an encrypted frame is taken off its tail. -/
def pullIcv (f : RecvFrame) : RecvFrame :=
  if f.attrib.encrypt ≠ .noPrivacy then (f.recvframePullTail f.attrib.icvLen).getD f else f

/-- The move of `rx_data` in `wlanhdr_to_ethhdr`, and where the Ethernet header goes. In
manufacturing-test mode the type is overwritten and 24 bytes of receive status come
first. -/
def pullWlanhdr (f : RecvFrame) (mp bsnaphdr : Bool) (rmvLen : ℕ) : Option (ℤ × RecvFrame) :=
  if mp then
    let f := { f with mem := f.mem.write (f.rxData + rmvLen) [0x87, 0x12] }
    (f.recvframePull ((rmvLen : ℤ) - 14 + 2 - 24)).map fun f =>
      (f.rxData + 24, { f with mem := f.mem.write f.rxData (f.mem.read f.rxHead 24) })
  else
    (f.recvframePull ((rmvLen : ℤ) - 14 + if bsnaphdr then 2 else 0)).map fun f => (f.rxData, f)

/-- The addresses, and without a SNAP header the length, are written at `ptr`. -/
def putEthhdr (f : RecvFrame) (ptr : ℤ) (bsnaphdr : Bool) (len : ℕ) : RecvFrame :=
  let mem := f.mem.write ptr f.attrib.dst.toList
  let mem := mem.write (ptr + 6) f.attrib.src.toList
  { f with mem := if bsnaphdr then mem else mem.write (ptr + 12) (be16Bytes len) }

/-- `wlanhdr_to_ethhdr` on a frame, in manufacturing-test mode or not. -/
def wlanhdrToEthhdr (mp : Bool) (f : RecvFrame) : Option RecvFrame :=
  let f := f.pullIcv
  let bsnaphdr := f.bsnaphdr
  let rmvLen := f.attrib.hdrlen + f.attrib.ivLen + if bsnaphdr then 6 else 0
  let len := u32 ((f.len : ℤ) - rmvLen) % 65536
  (f.pullWlanhdr mp bsnaphdr rmvLen).map fun r => r.2.putEthhdr r.1 bsnaphdr len

/-- Frames that differ in the bytes and the bounds only. -/
def SameBut (f f' : RecvFrame) : Prop :=
  f'.pkt = f.pkt ∧ f'.attrib = f.attrib ∧ f'.preorderCtrl = f.preorderCtrl

theorem recvframePull_sameBut {f f' : RecvFrame} {sz : ℤ} (h : f.recvframePull sz = some f') :
    f.SameBut f' := by
  unfold recvframePull at h
  split at h
  · exact absurd h (by simp)
  · cases h
    exact ⟨rfl, rfl, rfl⟩

theorem recvframePullTail_sameBut {f f' : RecvFrame} {sz : ℤ}
    (h : f.recvframePullTail sz = some f') : f.SameBut f' := by
  unfold recvframePullTail at h
  split at h
  · exact absurd h (by simp)
  · cases h
    exact ⟨rfl, rfl, rfl⟩

theorem recvframePut_sameBut {f f' : RecvFrame} {sz : ℤ} (h : f.recvframePut sz = some f') :
    f.SameBut f' := by
  unfold recvframePut at h
  split at h
  · exact absurd h (by simp)
  · cases h
    exact ⟨rfl, rfl, rfl⟩

/-- A pointer helper that may fail and then leaves the frame as it is. -/
theorem getD_sameBut {f : RecvFrame} {o : Option RecvFrame} (h : ∀ f', o = some f' → f.SameBut f') :
    f.SameBut (o.getD f) := by
  cases o with
  | none => exact ⟨rfl, rfl, rfl⟩
  | some f' => exact h f' rfl

theorem pullIcv_sameBut (f : RecvFrame) : f.SameBut f.pullIcv := by
  unfold pullIcv
  split
  · exact getD_sameBut fun _ h => recvframePullTail_sameBut h
  · exact ⟨rfl, rfl, rfl⟩

/-- `wlanhdr_to_ethhdr` changes the bytes and the bounds of a frame only. -/
theorem wlanhdrToEthhdr_sameBut {mp : Bool} {f f' : RecvFrame}
    (h : f.wlanhdrToEthhdr mp = some f') : f.SameBut f' := by
  obtain ⟨h1, h2, h3⟩ := f.pullIcv_sameBut
  obtain ⟨⟨ptr, g⟩, hg, rfl⟩ := Option.map_eq_some_iff.mp h
  unfold pullWlanhdr at hg
  split at hg
  all_goals
    obtain ⟨g', hg', he⟩ := Option.map_eq_some_iff.mp hg
    cases he
    obtain ⟨h4, h5, h6⟩ := recvframePull_sameBut hg'
    exact ⟨h4.trans h1, h5.trans h2, h6.trans h3⟩

end RecvFrame

/-! ## A-MSDU subframes -/

/-- `MAX_SUBFRAME_COUNT`. -/
def maxSubframeCount : ℕ := 64

/-- The loop of `amsdu_to_msdu` over the `aLen` bytes at `pdata`, after `nr` subframes. The
bodies of the subframes, or `none` where the loop leaves through `exit`, and the answers
of the allocator that are left. Each round takes at least 14 bytes, so `fuel` rounds are
enough for `fuel` bytes. -/
def amsduSubframes (mem : Mem) :
    ℕ → ℤ → ℕ → ℕ → (ℕ → Bool) → Option (List (List UInt8)) × (ℕ → Bool)
  | 0, _, _, _, avail => (some [], avail)
  | fuel + 1, pdata, aLen, nr, avail =>
    if aLen > 14 then
      let nSubframeLength := mem.be16 (pdata + 12)
      if aLen < 14 + nSubframeLength then (none, avail)
      else
        let pdata := pdata + 14
        let aLen := aLen - 14
        let rest := fun n => avail (n + 1)
        if avail 0 then
          let sub := mem.read pdata nSubframeLength
          if nr + 1 ≥ maxSubframeCount then (some [sub], rest)
          else
            let pdata := pdata + nSubframeLength
            let aLen := aLen - nSubframeLength
            let padding := 4 - ((nSubframeLength + 14) &&& 3)
            let padding := if padding = 4 then 0 else padding
            if aLen ≠ 0 ∧ aLen < padding then (none, rest)
            else
              let padding := if aLen ≠ 0 then padding else 0
              let (subs, rest) :=
                amsduSubframes mem fuel (pdata + padding) (aLen - padding) (nr + 1) rest
              (subs.map (sub :: ·), rest)
        else (some [], rest)
    else (some [], avail)

/-- The Ethernet frame made of a subframe body. -/
def msduToEth (dst src : MacAddr) (sub : List UInt8) : List UInt8 :=
  if sub.length ≥ 8 ∧ isSnapHdr (sub.take 6) ((sub.drop 6).take 2) then
    dst.toList ++ src.toList ++ sub.drop 6
  else dst.toList ++ src.toList ++ be16Bytes sub.length ++ sub

namespace Adapter

variable {ι : Type} [DecidableEq ι]

/-- `wlanhdr_to_ethhdr` on a frame of the pool. -/
def wlanhdrToEthhdr (s : Adapter ι) (f : ι) : Option (Adapter ι) :=
  ((s.recvframe f).wlanhdrToEthhdr (checkFwstate s.mlmepriv.fwState wifiMpState)).map fun fr =>
    s.updateFrame f fun _ => fr

/-- A packet of the frame `f`, with the transmitter of the frame and the state of its
port. -/
def packetOf (s : Adapter ι) (f : ι) (sink : Sink) (bytes : List UInt8) : Indication ι :=
  let ta := (s.recvframe f).attrib.ta
  ⟨f, sink, ta, s.portBlocked ta, bytes⟩

/-- A packet of the frame `f` leaves the driver. -/
def indicate (s : Adapter ι) (f : ι) (sink : Sink) (bytes : List UInt8) : Adapter ι :=
  { s with indications := s.indications ++ [s.packetOf f sink bytes] }

/-- The relay of an access point in `rtw_recv_indicatepkt` : the packet goes to the
transmit path if its destination is another station or a group. The first component says
whether the packet is left for the network stack. -/
def relay (s : Adapter ι) (f : ι) : Option (Bool × Adapter ι) :=
  let fr := s.recvframe f
  let bmcast := isMcast fr.attrib.dst
  if checkFwstate s.mlmepriv.fwState wifiApState && fr.attrib.dst ≠ s.macAddr then
    if bmcast then
      let (clone, s) := s.takeMem
      match s.rtwGetBcmcStainfo with
      | none => some (true, s)
      | some _ =>
        let s := s.indicate f .relay fr.bytes
        if clone then some (true, s) else none
    else
      match s.rtwGetStainfo fr.attrib.dst with
      | none => some (true, s)
      | some _ => some (false, s.indicate f .relay fr.bytes)
  else some (true, s)

/-- `rtw_recv_indicatepkt`. -/
def rtwRecvIndicatepkt (s : Adapter ι) (f : ι) : Option (Adapter ι) :=
  let fr := s.recvframe f
  if fr.pkt then
    let s := { s with handedUp := s.handedUp ++ [f] }
    (s.relay f).map fun r =>
      let s := if r.1 then r.2.indicate f .stack fr.bytes else r.2
      let s := s.updateFrame f fun fr => { fr with pkt := false }
      s.rtwFreeRecvframe f
  else some (s.rtwFreeRecvframe f)

/-- Take the 802.11 header and the IV off an A-MSDU. -/
def amsduPull (fr : RecvFrame) : RecvFrame :=
  let fr := (fr.recvframePull fr.attrib.hdrlen).getD fr
  if fr.attrib.ivLen > 0 then (fr.recvframePull fr.attrib.ivLen).getD fr else fr

/-- The bodies of the subframes of an A-MSDU, and the answers of the allocator that are
left. -/
def amsduSplit (s : Adapter ι) (f : ι) : Option (List (List UInt8)) × (ℕ → Bool) :=
  let fr := amsduPull (s.recvframe f)
  amsduSubframes fr.mem fr.len fr.rxData fr.len 0 s.memAvail

/-- `amsdu_to_msdu`. It returns `_SUCCESS` on every path. -/
def amsduToMsdu (s : Adapter ι) (f : ι) : Adapter ι :=
  let fr := amsduPull (s.recvframe f)
  let r := s.amsduSplit f
  let s := { s with memAvail := r.2, handedUp := s.handedUp ++ [f] }
  let s := (r.1.getD []).foldl
    (fun s sub => s.indicate f .stack (msduToEth fr.attrib.dst fr.attrib.src sub)) s
  let s := s.updateFrame f fun _ => { fr with len := 0 }
  s.rtwFreeRecvframe f

/-! ## What handing up a frame changes -/

/-- The state after `f` was handed up : the frame is back on the free queue, with contents
`fr`, and the packets `inds` have left the driver. -/
def consumed (s : Adapter ι) (f : ι) (fr : RecvFrame) (avail : ℕ → Bool) (hu : List ι)
    (inds : List (Indication ι)) : Adapter ι :=
  { s with
    recvframe := Function.update s.recvframe f fr
    queue := addTail (unlink s.queue f) .freeRecv f
    freeRecvframeCnt := u32 (s.freeRecvframeCnt + 1)
    memAvail := avail
    handedUp := s.handedUp ++ hu
    indications := s.indications ++ inds
    poolLog := s.poolLog ++ [.free f] }

section consumed

variable (s : Adapter ι) (f : ι) (fr : RecvFrame) (avail : ℕ → Bool) (hu : List ι)
  (inds : List (Indication ι))

@[simp] theorem consumed_recvframe :
    (s.consumed f fr avail hu inds).recvframe = Function.update s.recvframe f fr := rfl

@[simp] theorem consumed_queue :
    (s.consumed f fr avail hu inds).queue = addTail (unlink s.queue f) .freeRecv f := rfl

@[simp] theorem consumed_handedUp :
    (s.consumed f fr avail hu inds).handedUp = s.handedUp ++ hu := rfl

@[simp] theorem consumed_sta : (s.consumed f fr avail hu inds).sta = s.sta := rfl

@[simp] theorem consumed_staHash : (s.consumed f fr avail hu inds).staHash = s.staHash := rfl

@[simp] theorem consumed_bDriverStopped :
    (s.consumed f fr avail hu inds).bDriverStopped = s.bDriverStopped := rfl

@[simp] theorem consumed_bSurpriseRemoved :
    (s.consumed f fr avail hu inds).bSurpriseRemoved = s.bSurpriseRemoved := rfl

end consumed

/-- Returning the frame to the pool, once its packets have left. -/
theorem rtwFreeRecvframe_logged (s : Adapter ι) (f : ι) (g : RecvFrame → RecvFrame)
    (avail : ℕ → Bool) (hu : List ι) (inds : List (Indication ι)) :
    ({ s with
        memAvail := avail
        handedUp := s.handedUp ++ hu
        indications := s.indications ++ inds }.updateFrame f g).rtwFreeRecvframe f
      = s.consumed f { g (s.recvframe f) with pkt := false, len := 0 } avail hu inds := by
  simp [rtwFreeRecvframe, consumed, updateFrame, listDelInit, listAddTail]

theorem rtwFreeRecvframe_eq (s : Adapter ι) (f : ι) :
    s.rtwFreeRecvframe f
      = s.consumed f { s.recvframe f with pkt := false, len := 0 } s.memAvail [] [] := by
  simp [rtwFreeRecvframe, consumed, updateFrame, listDelInit, listAddTail]

/-- The relay hands on the bytes of the frame and changes nothing else. -/
theorem relay_eq {s s' : Adapter ι} {f : ι} {b : Bool} (h : s.relay f = some (b, s')) :
    ∃ avail inds, s' = { s with memAvail := avail, indications := s.indications ++ inds } ∧
      ∀ i ∈ inds, ∃ sink, i = s.packetOf f sink (s.recvframe f).bytes := by
  unfold relay at h
  dsimp only at h
  split at h
  · split at h
    · cases hb : (s.takeMem.2).rtwGetBcmcStainfo with
      | none =>
        rw [hb] at h
        cases h
        exact ⟨fun n => s.memAvail (n + 1), [], by simp [takeMem], by simp⟩
      | some k =>
        rw [hb] at h
        dsimp only at h
        split at h
        · cases h
          exact ⟨_, [_], rfl, fun i hi => ⟨.relay, List.mem_singleton.mp hi⟩⟩
        · exact absurd h (by simp)
    · split at h
      · cases h
        exact ⟨s.memAvail, [], by simp, by simp⟩
      · cases h
        exact ⟨s.memAvail, [_], rfl, fun i hi => ⟨.relay, List.mem_singleton.mp hi⟩⟩
  · cases h
    exact ⟨s.memAvail, [], by simp, by simp⟩

/-- `rtw_recv_indicatepkt` returns the frame to the pool. The packets that leave the driver
have the bytes of the frame. -/
theorem rtwRecvIndicatepkt_eq {s s' : Adapter ι} {f : ι}
    (h : s.rtwRecvIndicatepkt f = some s') :
    ∃ fr avail inds, s' = s.consumed f fr avail (if (s.recvframe f).pkt then [f] else []) inds ∧
      fr.attrib = (s.recvframe f).attrib ∧
      ∀ i ∈ inds, ∃ sink, i = s.packetOf f sink (s.recvframe f).bytes := by
  unfold rtwRecvIndicatepkt at h
  dsimp only at h
  split at h
  · rename_i hp
    obtain ⟨⟨b, t⟩, hr, rfl⟩ := Option.map_eq_some_iff.mp h
    obtain ⟨avail, inds, rfl, hinds⟩ := relay_eq hr
    rw [if_pos hp]
    cases b
    · simp only [Bool.false_eq_true, if_false]
      exact ⟨_, avail, inds,
        s.rtwFreeRecvframe_logged f (fun fr => { fr with pkt := false }) avail [f] inds,
        rfl, hinds⟩
    · simp only [if_true]
      refine ⟨_, avail, inds ++ [s.packetOf f .stack (s.recvframe f).bytes],
        Eq.trans ?_
          (s.rtwFreeRecvframe_logged f (fun fr => { fr with pkt := false }) avail [f] _),
        rfl, ?_⟩
      · rw [← List.append_assoc]
        rfl
      · intro i hi
        rcases List.mem_append.mp hi with hi | hi
        · exact hinds i hi
        · exact ⟨.stack, List.mem_singleton.mp hi⟩
  · rename_i hp
    cases h
    rw [rtwFreeRecvframe_eq, if_neg hp]
    exact ⟨_, _, [], rfl, rfl, by simp⟩

/-- Handing up a list of packets. -/
theorem foldl_indicate (f : ι) (g : List UInt8 → List UInt8) :
    ∀ (subs : List (List UInt8)) (s : Adapter ι),
      subs.foldl (fun s sub => s.indicate f .stack (g sub)) s
        = { s with
            indications := s.indications ++ subs.map fun sub => s.packetOf f .stack (g sub) }
  | [], s => by simp
  | sub :: subs, s => by
    rw [List.foldl_cons, foldl_indicate f g subs, List.map_cons]
    simp only [indicate, List.append_assoc, List.singleton_append]
    rfl

theorem attrib_amsduPull (fr : RecvFrame) : (amsduPull fr).attrib = fr.attrib := by
  have hpull : ∀ (fr : RecvFrame) (sz : ℤ), ((fr.recvframePull sz).getD fr).attrib = fr.attrib :=
    fun fr sz => (RecvFrame.getD_sameBut fun _ h => RecvFrame.recvframePull_sameBut h).2.1
  unfold amsduPull
  dsimp only
  split
  · rw [hpull, hpull]
  · rw [hpull]

/-- `amsdu_to_msdu` returns the frame to the pool. The packets that leave the driver are
made of the subframes. -/
theorem amsduToMsdu_eq (s : Adapter ι) (f : ι) :
    ∃ fr avail, s.amsduToMsdu f = s.consumed f fr avail [f]
        (((s.amsduSplit f).1.getD []).map fun sub => s.packetOf f .stack
          (msduToEth (s.recvframe f).attrib.dst (s.recvframe f).attrib.src sub)) ∧
      fr.attrib = (s.recvframe f).attrib := by
  unfold amsduToMsdu
  generalize s.amsduSplit f = r
  have hp : ∀ sink bytes,
      { s with memAvail := r.2, handedUp := s.handedUp ++ [f] }.packetOf f sink bytes
        = s.packetOf f sink bytes := fun _ _ => rfl
  have hdst : (amsduPull (s.recvframe f)).attrib.dst = (s.recvframe f).attrib.dst := by
    rw [attrib_amsduPull]
  have hsrc : (amsduPull (s.recvframe f)).attrib.src = (s.recvframe f).attrib.src := by
    rw [attrib_amsduPull]
  simp only [hdst, hsrc, foldl_indicate, hp]
  refine ⟨{ amsduPull (s.recvframe f) with pkt := false, len := 0 }, r.2, ?_, ?_⟩
  · exact s.rtwFreeRecvframe_logged f (fun _ => { amsduPull (s.recvframe f) with len := 0 })
      r.2 [f] _
  · exact attrib_amsduPull _

/-- `wlanhdr_to_ethhdr` rewrites one frame. -/
theorem wlanhdrToEthhdr_eq {s s' : Adapter ι} {f : ι} (h : s.wlanhdrToEthhdr f = some s') :
    ∃ fr, (s.recvframe f).wlanhdrToEthhdr (checkFwstate s.mlmepriv.fwState wifiMpState)
        = some fr ∧ s' = s.updateFrame f fun _ => fr := by
  obtain ⟨fr, hfr, rfl⟩ := Option.map_eq_some_iff.mp h
  exact ⟨fr, hfr, rfl⟩

end Adapter

end Rtl8188eu
