import Rtl8188eu.RecvSecurity

/-!
# Reassembly of fragments

`recvframe_defrag` and `recvframe_chk_defrag` of `core/rtw_recv.c`. Fragments are linked on
the defragmentation queue of their transmitter, and the last one starts `recvframe_defrag`.

`recvframe_defrag` takes the first fragment off the queue, and then takes the first frame
off the queue once more. The loop over the other fragments therefore starts at a frame that
was just unlinked, and the link of such a frame points at itself. The second round finds
the fragment number of the first round and gives up : `recvframe_defrag` never returns a
frame (`recvframeDefrag_null`). `defragCorrect_iff` is what follows for the reassembly of
whole sequences.
-/

set_option linter.unusedSectionVars false

namespace Rtl8188eu

open LinkedLists

namespace Adapter

variable {ι : Type} [DecidableEq ι]

/-! ## recvframe_defrag -/

/-- The `next` pointer of the link of `f`, where `l` is the list with the head in question.
The result is `none` for the list head. The link of a frame that is not on the list was
left by `list_del_init` and points at itself. -/
def nextLink (l : List ι) (f : ι) : Option ι :=
  if f ∈ l then (l.dropWhile (· ≠ f)).tail.head? else some f

/-- The part of the loop of `recvframe_defrag` that appends the payload of `pnextrframe` to
`prframe`. -/
def appendFragment (s : Adapter ι) (prframe pnextrframe : ι) : Adapter ι :=
  let pnattrib := (s.recvframe pnextrframe).attrib
  let wlanhdrOffset := (pnattrib.hdrlen + pnattrib.ivLen) % 256
  let s := s.updateFrame pnextrframe fun fr => (fr.recvframePull wlanhdrOffset).getD fr
  let s := s.updateFrame prframe fun fr => (fr.recvframePullTail fr.attrib.icvLen).getD fr
  let pnfhdr := s.recvframe pnextrframe
  let s := s.updateFrame prframe fun fr =>
    { fr with mem := fr.mem.write fr.rxTail (pnfhdr.mem.read pnfhdr.rxData pnfhdr.len) }
  let s := s.updateFrame prframe fun fr => (fr.recvframePut pnfhdr.len).getD fr
  s.updateFrame prframe fun fr =>
    { fr with attrib := { fr.attrib with icvLen := pnfhdr.attrib.icvLen } }

/-- The loop of `recvframe_defrag`. The fragment number grows with every round and is
compared with that of a fragment, so `fuel` rounds are enough for fragment numbers below
`fuel`. -/
def defragLoop (q : Queue) (prframe : ι) :
    ℕ → Option ι → ℕ → Adapter ι → Option (Option ι × Adapter ι)
  | 0, _, _, _ => none
  | _ + 1, none, _, s => some (some prframe, s.rtwFreeRecvframeQueue q)
  | fuel + 1, some pnextrframe, curfragnum, s =>
    if curfragnum ≠ (s.recvframe pnextrframe).attrib.fragNum then
      some (none, (s.rtwFreeRecvframe prframe).rtwFreeRecvframeQueue q)
    else
      let s := s.appendFragment prframe pnextrframe
      defragLoop q prframe fuel (nextLink (s.queue q) pnextrframe) ((curfragnum + 1) % 256) s

/-- `recvframe_defrag` on the queue `q`. The outer result is `none` where the source takes
the head of an empty list for a frame. -/
def recvframeDefrag (s : Adapter ι) (q : Queue) : Option (Option ι × Adapter ι) :=
  match s.queue q with
  | [] => none
  | prframe :: _ =>
    let s := s.listDelInit prframe
    if (s.recvframe prframe).attrib.fragNum ≠ 0 then
      some (none, (s.rtwFreeRecvframe prframe).rtwFreeRecvframeQueue q)
    else
      match s.queue q with
      | [] => none
      | prframe :: _ =>
        let s := s.listDelInit prframe
        defragLoop q prframe 256 (nextLink (s.queue q) prframe) 1 s

/-! ## recvframe_chk_defrag -/

/-- `pdefrag_q` : the queue of a station, null, or a pointer into a station that is not
there. -/
inductive DefragQueue
  | sta (psta : StaId)
  | null
  | wild

/-- The choice of `pdefrag_q` in `recvframe_chk_defrag`. -/
def defragQueue (s : Adapter ι) (fr : RecvFrame) : DefragQueue :=
  match s.rtwGetStainfo fr.attrib.ta with
  | some psta => .sta psta
  | none =>
    if getFrameType fr.mem fr.rxData ≠ wifiDataType then
      match s.rtwGetBcmcStainfo with
      | some psta => .sta psta
      | none => .wild
    else .null

/-- A fragment that is not the last one. -/
def enqueueFragment (s : Adapter ι) (f : ι) : Option (Option ι × Adapter ι) :=
  match s.defragQueue (s.recvframe f) with
  | .sta psta =>
    let s :=
      if (s.recvframe f).attrib.fragNum = 0 ∧ s.queue (.defrag psta) ≠ [] then
        s.rtwFreeRecvframeQueue (.defrag psta)
      else s
    some (none, s.listAddTail f (.defrag psta))
  | .null => some (none, s.rtwFreeRecvframe f)
  | .wild => none

/-- The last fragment. -/
def lastFragment (s : Adapter ι) (f : ι) : Option (Option ι × Adapter ι) :=
  match s.defragQueue (s.recvframe f) with
  | .sta psta => (s.listAddTail f (.defrag psta)).recvframeDefrag (.defrag psta)
  | .null => some (none, s.rtwFreeRecvframe f)
  | .wild => none

/-- The check of the TKIP MIC at the end of `recvframe_chk_defrag`. -/
def checkReassembled (s : Adapter ι) (prtnframe : Option ι) : Option ι × Adapter ι :=
  match prtnframe with
  | none => (none, s)
  | some g =>
    if (s.recvframe g).attrib.privacy then
      let (ok, s) := s.recvframeChkmic g
      if ok then (some g, s) else (none, s.rtwFreeRecvframe g)
    else (some g, s)

/-- `recvframe_chk_defrag`. The outer result is `none` where the source follows a wild
pointer. -/
def recvframeChkDefrag (s : Adapter ι) (f : ι) : Option (Option ι × Adapter ι) :=
  let ismfrag := (s.recvframe f).attrib.mfrag
  let fragnum := (s.recvframe f).attrib.fragNum
  let r :=
    if ismfrag then s.enqueueFragment f
    else if fragnum ≠ 0 then s.lastFragment f
    else some (some f, s)
  r.map fun r => r.2.checkReassembled r.1

/-! ## What recvframe_defrag does -/

/-- Appending a frame to itself changes the bytes and the bounds of that frame only. -/
theorem appendFragment_self (s : Adapter ι) (f : ι) :
    ∃ fr, (s.recvframe f).SameBut fr ∧ s.appendFragment f f = s.updateFrame f fun _ => fr := by
  have hupd : ∀ (fr : RecvFrame) (g : RecvFrame → RecvFrame),
      (s.updateFrame f fun _ => fr).updateFrame f g = s.updateFrame f fun _ => g fr := by
    simp [updateFrame]
  have hfirst : ∀ g : RecvFrame → RecvFrame,
      s.updateFrame f g = s.updateFrame f fun _ => g (s.recvframe f) := fun _ => rfl
  unfold appendFragment
  dsimp only
  rw [hfirst, hupd]
  simp only [recvframe_updateFrame, Function.update_self, hupd]
  set fr1 := ((s.recvframe f).recvframePull _).getD (s.recvframe f) with hfr1
  set fr2 := (fr1.recvframePullTail fr1.attrib.icvLen).getD fr1 with hfr2
  have h1 : (s.recvframe f).SameBut fr1 := RecvFrame.getD_sameBut fun _ h =>
    RecvFrame.recvframePull_sameBut h
  have h2 : fr1.SameBut fr2 := RecvFrame.getD_sameBut fun _ h =>
    RecvFrame.recvframePullTail_sameBut h
  set fr3 : RecvFrame :=
    { fr2 with mem := fr2.mem.write fr2.rxTail (fr2.mem.read fr2.rxData fr2.len) }
  have h3 : fr3.SameBut ((fr3.recvframePut fr2.len).getD fr3) :=
    RecvFrame.getD_sameBut fun _ h => RecvFrame.recvframePut_sameBut h
  refine ⟨_, ⟨?_, ?_, ?_⟩, rfl⟩
  · exact h3.1.trans (h2.1.trans h1.1)
  · dsimp only
    rw [h3.2.1]
    exact h2.2.1.trans h1.2.1
  · exact h3.2.2.trans (h2.2.2.trans h1.2.2)

/-- The loop of `recvframe_defrag` on a frame that was just unlinked : the frame and the rest
of the queue go back to the pool. -/
theorem defragLoop_self {s : Adapter ι} {q : Queue} {f : ι} (hf : f ∉ s.queue q) (n : ℕ) :
    ∃ fr, (s.recvframe f).SameBut fr ∧
      defragLoop q f (n + 2) (nextLink (s.queue q) f) 1 s
        = some (none, ((s.updateFrame f fun _ => fr).rtwFreeRecvframe f).rtwFreeRecvframeQueue
          q) := by
  have hself : s.updateFrame f (fun _ => s.recvframe f) = s := by simp [updateFrame]
  rw [nextLink, if_neg hf, defragLoop]
  split
  · exact ⟨s.recvframe f, ⟨rfl, rfl, rfl⟩, by rw [hself]⟩
  · rename_i h1
    obtain ⟨fr, hsame, he⟩ := s.appendFragment_self f
    have hq : (s.updateFrame f fun _ => fr).queue = s.queue := rfl
    refine ⟨fr, hsame, ?_⟩
    dsimp only
    rw [he, hq, nextLink, if_neg hf, defragLoop, if_pos]
    rw [recvframe_updateFrame, Function.update_self, hsame.2.1]
    omega

/-- `recvframe_defrag` returns no frame. If the first fragment has number 0 it is left on no
list, and all others are returned to the pool. -/
theorem recvframeDefrag_eq {s : Adapter ι} {q : Queue} {a : ι} {rest : List ι}
    (h : s.queue q = a :: rest) :
    (s.recvframe a).attrib.fragNum ≠ 0 ∧ s.recvframeDefrag q
        = some (none, ((s.listDelInit a).rtwFreeRecvframe a).rtwFreeRecvframeQueue q) ∨
      (s.recvframe a).attrib.fragNum = 0 ∧ (unlink s.queue a q = [] ∨
        ∃ b, b ∈ unlink s.queue a q ∧ ∃ fr, (s.recvframe b).SameBut fr ∧
          s.recvframeDefrag q = some (none,
            ((((s.listDelInit a).listDelInit b).updateFrame b fun _ => fr).rtwFreeRecvframe
              b).rtwFreeRecvframeQueue q)) := by
  rw [recvframeDefrag, h]
  dsimp only
  split
  · rename_i h0
    exact Or.inl ⟨h0, rfl⟩
  · rename_i h0
    refine Or.inr ⟨not_not.mp h0, ?_⟩
    have hq : (s.listDelInit a).queue q = unlink s.queue a q := rfl
    rw [hq]
    cases hu : unlink s.queue a q with
    | nil => exact Or.inl rfl
    | cons b rest' =>
      have hb : b ∉ ((s.listDelInit a).listDelInit b).queue q := by
        simp [listDelInit, mem_unlink]
      obtain ⟨fr, hsame, he⟩ := defragLoop_self hb 254
      exact Or.inr ⟨b, List.mem_cons_self .., fr, hsame, he⟩

/-! ## Sequences of fragments -/

/-- What returning frames to the pool leaves alone. -/
structure KeepsAttribs (s s' : Adapter ι) : Prop where
  sta : s'.sta = s.sta
  staHash : s'.staHash = s.staHash
  attrib : ∀ g, (s'.recvframe g).attrib = (s.recvframe g).attrib

theorem KeepsAttribs.trans {s t u : Adapter ι} (h1 : KeepsAttribs s t) (h2 : KeepsAttribs t u) :
    KeepsAttribs s u :=
  ⟨h2.sta.trans h1.sta, h2.staHash.trans h1.staHash, fun g => (h2.attrib g).trans (h1.attrib g)⟩

theorem KeepsAttribs.rtwGetStainfo {s s' : Adapter ι} (h : KeepsAttribs s s') (ta : MacAddr) :
    s'.rtwGetStainfo ta = s.rtwGetStainfo ta := by
  unfold Adapter.rtwGetStainfo
  rw [h.sta, h.staHash]

theorem keepsAttribs_listDelInit (s : Adapter ι) (f : ι) : KeepsAttribs s (s.listDelInit f) :=
  ⟨rfl, rfl, fun _ => rfl⟩

theorem keepsAttribs_listAddTail (s : Adapter ι) (f : ι) (q : Queue) :
    KeepsAttribs s (s.listAddTail f q) :=
  ⟨rfl, rfl, fun _ => rfl⟩

theorem keepsAttribs_rtwFreeRecvframe (s : Adapter ι) (f : ι) :
    KeepsAttribs s (s.rtwFreeRecvframe f) := by
  rw [rtwFreeRecvframe_eq]
  refine ⟨consumed_sta .., consumed_staHash .., fun g => ?_⟩
  rw [consumed_recvframe]
  rcases eq_or_ne g f with rfl | hg
  · rw [Function.update_self]
  · rw [Function.update_of_ne hg]

theorem keepsAttribs_freeFrames :
    ∀ (fs : List ι) (s : Adapter ι), KeepsAttribs s (s.freeFrames fs)
  | [], _ => ⟨rfl, rfl, fun _ => rfl⟩
  | f :: fs, s => by
    rw [freeFrames_cons]
    exact (keepsAttribs_rtwFreeRecvframe s f).trans (keepsAttribs_freeFrames fs _)

theorem keepsAttribs_rtwFreeRecvframeQueue (s : Adapter ι) (q : Queue) :
    KeepsAttribs s (s.rtwFreeRecvframeQueue q) :=
  keepsAttribs_freeFrames (s.queue q) s

theorem keepsAttribs_updateFrame {s : Adapter ι} {f : ι} {fr : RecvFrame}
    (h : (s.recvframe f).SameBut fr) : KeepsAttribs s (s.updateFrame f fun _ => fr) := by
  refine ⟨rfl, rfl, fun g => ?_⟩
  rw [recvframe_updateFrame]
  rcases eq_or_ne g f with rfl | hg
  · rw [Function.update_self]
    exact h.2.1
  · rw [Function.update_of_ne hg]

/-- `recvframe_defrag` with a fragment whose number is not 0 on the queue returns null. -/
theorem recvframeDefrag_null {s : Adapter ι} {q : Queue} {f : ι} (hf : f ∈ s.queue q)
    (h0 : (s.recvframe f).attrib.fragNum ≠ 0) :
    ∃ s', s.recvframeDefrag q = some (none, s') ∧ KeepsAttribs s s' := by
  cases hq : s.queue q with
  | nil => simp [hq] at hf
  | cons a rest =>
    rcases recvframeDefrag_eq hq with ⟨-, he⟩ | ⟨ha, hu | ⟨b, -, fr, hsame, he⟩⟩
    · refine ⟨_, he, ?_⟩
      exact ((keepsAttribs_listDelInit s a).trans (keepsAttribs_rtwFreeRecvframe _ a)).trans
        (keepsAttribs_rtwFreeRecvframeQueue _ q)
    · have hfa : f ≠ a := fun h => h0 (h ▸ ha)
      exact absurd hu (List.ne_nil_of_mem (mem_unlink.mpr ⟨hf, hfa⟩))
    · refine ⟨_, he, ?_⟩
      have h1 : KeepsAttribs s (((s.listDelInit a).listDelInit b).updateFrame b fun _ => fr) :=
        ((keepsAttribs_listDelInit s a).trans (keepsAttribs_listDelInit _ b)).trans
          (keepsAttribs_updateFrame hsame)
      exact (h1.trans (keepsAttribs_rtwFreeRecvframe _ b)).trans
        (keepsAttribs_rtwFreeRecvframeQueue _ q)

/-- A fragment of a known station : `recvframe_chk_defrag` returns null. -/
theorem recvframeChkDefrag_null {s : Adapter ι} {f : ι} {k : StaId}
    (hk : s.rtwGetStainfo (s.recvframe f).attrib.ta = some k)
    (hf : (s.recvframe f).attrib.mfrag = true ∨ (s.recvframe f).attrib.fragNum ≠ 0) :
    ∃ s', s.recvframeChkDefrag f = some (none, s') ∧ KeepsAttribs s s' := by
  have hq : s.defragQueue (s.recvframe f) = .sta k := by
    rw [defragQueue, hk]
  unfold recvframeChkDefrag
  dsimp only
  split
  · rw [enqueueFragment, hq]
    refine ⟨_, rfl, ?_⟩
    dsimp only
    split
    · exact (keepsAttribs_rtwFreeRecvframeQueue s (.defrag k)).trans
        (keepsAttribs_listAddTail _ f _)
    · exact keepsAttribs_listAddTail s f _
  · rename_i hm
    have h0 := hf.resolve_left hm
    rw [if_pos h0, lastFragment, hq]
    obtain ⟨s', he, hkeep⟩ := recvframeDefrag_null (s := s.listAddTail f (.defrag k))
      (q := .defrag k) (f := f) (by simp [listAddTail, mem_addTail]) h0
    dsimp only
    rw [he]
    exact ⟨s', rfl, (keepsAttribs_listAddTail s f _).trans hkeep⟩

/-- The results of `recvframe_chk_defrag` on one frame after the other. -/
def chkDefragRun : List ι → Adapter ι → Option (List (Option ι) × Adapter ι)
  | [], s => some ([], s)
  | f :: fs, s =>
    (s.recvframeChkDefrag f).bind fun r => (chkDefragRun fs r.2).map fun rs => (r.1 :: rs.1, rs.2)

/-- The frames `fs` are fragments of the station `k`, and only the last one says that no
more follow. -/
structure FragSeq (s : Adapter ι) (k : StaId) (fs : List ι) : Prop where
  sta : ∀ f ∈ fs, s.rtwGetStainfo (s.recvframe f).attrib.ta = some k
  more : ∀ f ∈ fs.dropLast, (s.recvframe f).attrib.mfrag = true
  last : ∃ f ∈ fs.getLast?, (s.recvframe f).attrib.mfrag = false ∧
    (s.recvframe f).attrib.fragNum ≠ 0

/-- The fragments are numbered 0, 1, 2 and so on. -/
def InOrder (s : Adapter ι) (fs : List ι) : Prop :=
  fs.map (fun f => (s.recvframe f).attrib.fragNum) = List.range fs.length

/-- The payload of a fragment, without header, IV and ICV. -/
def fragPayload (fr : RecvFrame) : List UInt8 :=
  let n := fr.attrib.hdrlen + fr.attrib.ivLen
  (fr.bytes.drop n).take (fr.len - n - fr.attrib.icvLen)

/-- The header and the IV of the first fragment, followed by the payloads. -/
def reassembled (s : Adapter ι) (fs : List ι) : List UInt8 :=
  ((fs.head?.map fun f =>
      let fr := s.recvframe f
      fr.bytes.take (fr.attrib.hdrlen + fr.attrib.ivLen)).getD [])
    ++ (fs.map fun f => fragPayload (s.recvframe f)).flatten

/-- Reassembly is right on the fragments `fs` : if they are in order, the last call returns
a frame with the reassembled bytes, inside the buffer of the first fragment, and the calls
before it return null. If they are not in order, no call returns a frame. -/
def DefragCorrect (s : Adapter ι) (fs : List ι) : Prop :=
  ∃ rs s', chkDefragRun fs s = some (rs, s') ∧
    (s.InOrder fs → ∃ r, rs = List.replicate (fs.length - 1) none ++ [some r] ∧
      (s'.recvframe r).bytes = s.reassembled fs ∧
      ∀ f ∈ fs.head?, (s'.recvframe r).rxTail ≤ (s.recvframe f).rxEnd) ∧
    (¬ s.InOrder fs → ∀ r ∈ rs, r = none)

/-- On fragments of a known station every call returns null. -/
theorem chkDefragRun_null {k : StaId} : ∀ {fs : List ι} {s : Adapter ι},
    (∀ f ∈ fs, s.rtwGetStainfo (s.recvframe f).attrib.ta = some k ∧
      ((s.recvframe f).attrib.mfrag = true ∨ (s.recvframe f).attrib.fragNum ≠ 0)) →
    ∃ s', chkDefragRun fs s = some (List.replicate fs.length none, s')
  | [], s, _ => ⟨s, rfl⟩
  | f :: fs, s, h => by
    obtain ⟨hk, hf⟩ := h f (List.mem_cons_self ..)
    obtain ⟨t, he, hkeep⟩ := recvframeChkDefrag_null hk hf
    have ht : ∀ g ∈ fs, t.rtwGetStainfo (t.recvframe g).attrib.ta = some k ∧
        ((t.recvframe g).attrib.mfrag = true ∨ (t.recvframe g).attrib.fragNum ≠ 0) := by
      intro g hg
      rw [hkeep.rtwGetStainfo, hkeep.attrib]
      exact h g (List.mem_cons_of_mem f hg)
    obtain ⟨s', hrun⟩ := chkDefragRun_null ht
    refine ⟨s', ?_⟩
    rw [chkDefragRun, he]
    simp [hrun, List.replicate_succ]

theorem FragSeq.fragment {s : Adapter ι} {k : StaId} {fs : List ι} (h : s.FragSeq k fs) :
    ∀ f ∈ fs, s.rtwGetStainfo (s.recvframe f).attrib.ta = some k ∧
      ((s.recvframe f).attrib.mfrag = true ∨ (s.recvframe f).attrib.fragNum ≠ 0) := by
  intro f hf
  refine ⟨h.sta f hf, ?_⟩
  obtain ⟨g, hg, -, h0⟩ := h.last
  rcases List.eq_nil_or_concat fs with rfl | ⟨pre, x, rfl⟩
  · simp at hf
  · rw [List.concat_eq_append] at *
    obtain rfl : x = g := by simpa using hg
    rcases List.mem_append.mp hf with hf | hf
    · exact Or.inl (h.more f (by simpa using hf))
    · obtain rfl := List.mem_singleton.mp hf
      exact Or.inr h0

/-- A run that returns nothing is right exactly if the fragments are not in order. -/
theorem defragCorrect_of_null {s s' : Adapter ι} {fs : List ι}
    (h : chkDefragRun fs s = some (List.replicate fs.length none, s')) :
    s.DefragCorrect fs ↔ ¬ s.InOrder fs := by
  constructor
  · rintro ⟨rs, t, hrun, hord, -⟩ hin
    obtain ⟨r, hrs, -⟩ := hord hin
    obtain ⟨rfl, -⟩ := Prod.mk.inj (Option.some.inj (h.symm.trans hrun))
    have hmem : some r ∈ List.replicate fs.length none := by
      rw [hrs]
      simp
    simp at hmem
  · intro hin
    exact ⟨_, s', h, fun hord => absurd hord hin, fun _ r hr => List.eq_of_mem_replicate hr⟩

/-- Reassembly is right exactly on the sequences that are not in order. -/
theorem defragCorrect_iff {s : Adapter ι} {k : StaId} {fs : List ι} (h : s.FragSeq k fs) :
    s.DefragCorrect fs ↔ ¬ s.InOrder fs := by
  obtain ⟨s', hrun⟩ := chkDefragRun_null h.fragment
  exact defragCorrect_of_null hrun

/-- The address of a station. -/
def sampleTa : MacAddr := localAddr 1

/-- A driver that knows the station. -/
def sampleSta : Adapter ℕ := ((Adapter.init [] zeroAddr).rtwAllocStainfo sampleTa).2

/-- A fragment of the station. -/
def sampleFragment (fragNum : ℕ) (mfrag : Bool) : RecvFrame :=
  { initRecvframe with
    pkt := true
    attrib :=
      { initRecvframe.attrib with
        hdrlen := 24, fragNum := fragNum, mfrag := mfrag, ta := sampleTa }
    len := 40
    rxTail := 40
    rxEnd := 2000 }

/-- A first fragment 0, and a last fragment 1 with the number `fragNum`, of the station. -/
def sampleFragments (fragNum : ℕ) : Adapter ℕ :=
  { sampleSta with
    recvframe := fun f => if f = 0 then sampleFragment 0 true else sampleFragment fragNum false }

theorem recvframe_sampleFragments (fragNum f : ℕ) : (sampleFragments fragNum).recvframe f
    = if f = 0 then sampleFragment 0 true else sampleFragment fragNum false := rfl

theorem fragSeq_sampleFragments (fragNum : ℕ) (h : fragNum ≠ 0) :
    (sampleFragments fragNum).FragSeq 1 [0, 1] := by
  have hsta : sampleSta.rtwGetStainfo sampleTa = some 1 := by decide +kernel
  have hget : ∀ ta, (sampleFragments fragNum).rtwGetStainfo ta = sampleSta.rtwGetStainfo ta :=
    fun _ => rfl
  refine ⟨?_, ?_, 1, by simp, ?_⟩
  · intro f _
    rw [hget, recvframe_sampleFragments]
    split
    · exact hsta
    · exact hsta
  · intro f hf
    obtain rfl : f = 0 := by simpa using hf
    rw [recvframe_sampleFragments, if_pos rfl]
    rfl
  · rw [recvframe_sampleFragments, if_neg (by omega)]
    exact ⟨rfl, h⟩

theorem defragCorrect_iff_sample : (sampleFragments 2).FragSeq 1 [0, 1] ∧
    ((sampleFragments 2).DefragCorrect [0, 1] ↔ ¬ (sampleFragments 2).InOrder [0, 1]) :=
  ⟨fragSeq_sampleFragments 2 (by omega), defragCorrect_iff (fragSeq_sampleFragments 2 (by omega))⟩

/-- Two fragments in order are not reassembled. -/
theorem not_defragCorrect : (sampleFragments 1).FragSeq 1 [0, 1] ∧
    (sampleFragments 1).InOrder [0, 1] ∧ ¬ (sampleFragments 1).DefragCorrect [0, 1] := by
  have hseq := fragSeq_sampleFragments 1 (by omega)
  obtain ⟨s', hrun⟩ := chkDefragRun_null hseq.fragment
  have hin : (sampleFragments 1).InOrder [0, 1] := by
    simp only [InOrder, List.map_cons, List.map_nil, recvframe_sampleFragments]
    rfl
  exact ⟨hseq, hin, fun h => (defragCorrect_of_null hrun).mp h hin⟩

end Adapter

end Rtl8188eu
