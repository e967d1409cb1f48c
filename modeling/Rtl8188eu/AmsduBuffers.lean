import Rtl8188eu.AmsduDecode

/-!
# The packet buffers of amsdu_to_msdu

The walk of `amsdu_to_msdu` once more, with the packet buffers it gets and the bytes it reads. A
packet is a copy of the body (`dev_alloc_skb`), or a clone of the frame that points into it
(`skb_clone`). Where the walk leaves through `exit`, the packets it has made are handed to nobody.

`subframesIn` is what the bytes of the frame hold : complete subframes, and possibly a malformed
rest. `cleanRun_iff` : nothing is left behind, and nothing else is read, just in case no packet
precedes a malformed rest and each packet has the eight bytes that the second loop looks at.
-/

namespace Rtl8188eu

/-- What the kernel answers to a request for a packet : a buffer of `dev_alloc_skb`, else a clone of
the frame, or neither. -/
inductive SkbAnswer
  | alloc
  | clone
  | fail
  deriving DecidableEq

/-- `sub_skb`, with the address and the length of the body. -/
structure SubSkb where
  cloned : Bool
  data : ℤ
  len : ℕ
  deriving DecidableEq

/-- Bytes that are read : of the frame, or of a packet with a copy of `size` bytes. -/
inductive ByteRead
  | frame (start : ℤ) (len : ℕ)
  | copy (size start len : ℕ)
  deriving DecidableEq

/-- The bytes are those of the `total` bytes at `base`, or of a copy of some of them. -/
def ByteRead.Inside (base : ℤ) (total : ℕ) : ByteRead → Prop
  | frame start len => base ≤ start ∧ start + len ≤ base + total
  | copy size start len => start + len ≤ size

/-- How the first loop ended : through `exit` or not, the packets in `subframes`, and the reads. -/
structure Parsed where
  exit : Bool
  subframes : List SubSkb
  reads : List ByteRead

/-- `padding_len`. -/
def paddingLen (nSubframeLength : ℕ) : ℕ :=
  let padding := 4 - ((nSubframeLength + 14) &&& 3)
  if padding = 4 then 0 else padding

/-- The first loop of `amsdu_to_msdu`, or `none` if it is still going after `fuel` rounds. -/
def parseLoop (mem : Mem) : ℕ → ℤ → ℕ → ℕ → (ℕ → SkbAnswer) → Option Parsed
  | 0, _, _, _, _ => none
  | fuel + 1, pdata, aLen, nr, answer =>
    if aLen > 14 then
      let nSubframeLength := mem.be16 (pdata + 12)
      let header := ByteRead.frame (pdata + 12) 2
      if aLen < 14 + nSubframeLength then some ⟨true, [], [header]⟩
      else
        let pdata := pdata + 14
        let aLen := aLen - 14
        if answer 0 = .fail then some ⟨false, [], [header]⟩
        else
          let sub : SubSkb := ⟨answer 0 = .clone, pdata, nSubframeLength⟩
          -- a clone points to the bytes, for a packet of its own they are copied
          let reads := if sub.cloned then [header] else [header, .frame pdata nSubframeLength]
          if nr + 1 ≥ maxSubframeCount then some ⟨false, [sub], reads⟩
          else
            let pdata := pdata + nSubframeLength
            let aLen := aLen - nSubframeLength
            if aLen ≠ 0 ∧ aLen < paddingLen nSubframeLength then some ⟨true, [sub], reads⟩
            else
              let padding := if aLen ≠ 0 then paddingLen nSubframeLength else 0
              (parseLoop mem fuel (pdata + padding) (aLen - padding) (nr + 1) fun n => answer (n + 1)).map
                fun r => ⟨r.exit, sub :: r.subframes, reads ++ r.reads⟩
    else some ⟨false, [], []⟩

namespace SubSkb

/-- A read of the body of a packet. -/
def read (x : SubSkb) (start len : ℕ) : ByteRead :=
  if x.cloned then .frame (x.data + start) len else .copy x.len start len

/-- What the second loop reads of a packet : the type, and for a body of eight bytes the SNAP
header. -/
def deliveryReads (x : SubSkb) : List ByteRead :=
  x.read 6 2 :: if x.len ≥ 8 then [x.read 0 6] else []

end SubSkb

/-- What `amsdu_to_msdu` has done when it returns. -/
structure AmsduRun where
  built : List SubSkb
  handedUp : List SubSkb
  reads : List ByteRead

/-- `amsdu_to_msdu`, on the frame behind its header and IV. -/
def amsduRun (fr : RecvFrame) (answer : ℕ → SkbAnswer) : Option AmsduRun :=
  let fr := Adapter.amsduPull fr
  (parseLoop fr.mem (fr.len + 1) fr.rxData fr.len 0 answer).map fun r =>
    if r.exit then ⟨r.subframes, [], r.reads⟩
    else ⟨r.subframes, r.subframes, r.reads ++ r.subframes.flatMap SubSkb.deliveryReads⟩

/-- It returns, it reads bytes of the body only, and each packet it made is handed to the network
stack. -/
def CleanRun (fr : RecvFrame) (answer : ℕ → SkbAnswer) : Prop :=
  ∃ r, amsduRun fr answer = some r ∧
    (∀ rd ∈ r.reads, rd.Inside (Adapter.amsduPull fr).rxData (Adapter.amsduPull fr).len) ∧ r.handedUp = r.built

/-- The packets are those of the walk in the receive path. -/
theorem amsduSubframes_eq_parseLoop (mem : Mem) :
    ∀ (fuel : ℕ) (pdata : ℤ) (aLen nr : ℕ) (answer : ℕ → SkbAnswer) {r : Parsed},
      parseLoop mem fuel pdata aLen nr answer = some r →
      (amsduSubframes mem fuel pdata aLen nr fun i => answer i ≠ .fail).1
        = if r.exit then none else some (r.subframes.map fun x => mem.read x.data x.len)
  | 0, _, _, _, _, _, h => by simp [parseLoop] at h
  | fuel + 1, pdata, aLen, nr, answer, r, h => by
    unfold parseLoop at h
    unfold amsduSubframes
    dsimp only at h ⊢
    have hpad : ∀ n : ℕ, (if 4 - ((n + 14) &&& 3) = 4 then 0 else 4 - ((n + 14) &&& 3)) =
      paddingLen n :=
      fun _ => rfl
    simp only [hpad]
    by_cases hlen : aLen > 14
    · rw [if_pos hlen] at h ⊢
      by_cases hfits : aLen < 14 + mem.be16 (pdata + 12)
      · rw [if_pos hfits] at h ⊢
        cases h
        rfl
      · rw [if_neg hfits] at h ⊢
        by_cases hfail : answer 0 = .fail
        · rw [if_pos hfail] at h
          cases h
          simp [hfail]
        · rw [if_neg hfail] at h
          rw [if_pos (by simpa using hfail)]
          by_cases hmax : nr + 1 ≥ maxSubframeCount
          · rw [if_pos hmax] at h ⊢
            cases h
            rfl
          · rw [if_neg hmax] at h ⊢
            by_cases hcut : aLen - 14 - mem.be16 (pdata + 12) ≠ 0 ∧
                aLen - 14 - mem.be16 (pdata + 12) < paddingLen (mem.be16 (pdata + 12))
            · rw [if_pos hcut] at h ⊢
              cases h
              rfl
            · rw [if_neg hcut] at h ⊢
              obtain ⟨q, hq, rfl⟩ := Option.map_eq_some_iff.mp h
              rw [amsduSubframes_eq_parseLoop mem fuel _ _ _ _ hq]
              cases q.exit <;> rfl
    · rw [if_neg hlen] at h ⊢
      cases h
      rfl

/-! ## The bytes of the frame -/

/-- The complete subframes in the `aLen` bytes at `pdata`, each with the address and the length of
its body, and whether there is a malformed rest : a subframe that is cut off, or bytes that are no
padding. -/
def subframesIn (mem : Mem) (pdata : ℤ) (aLen : ℕ) : List (ℤ × ℕ) × Bool :=
  if aLen ≤ 14 then ([], false)
  else
    let n := mem.be16 (pdata + 12)
    if aLen < 14 + n then ([], true)
    else if aLen = 14 + n then ([(pdata + 14, n)], false)
    else if aLen < 14 + n + paddingLen n then ([(pdata + 14, n)], true)
    else
      let r := subframesIn mem (pdata + 14 + n + paddingLen n) (aLen - (14 + n + paddingLen n))
      ((pdata + 14, n) :: r.1, r.2)
termination_by aLen

theorem subframesIn_short (mem : Mem) (pdata : ℤ) {aLen : ℕ} (h : aLen ≤ 14) :
    subframesIn mem pdata aLen = ([], false) := by
  rw [subframesIn, if_pos h]

theorem subframesIn_cut {mem : Mem} {pdata : ℤ} {aLen : ℕ} (h : 14 < aLen)
    (hcut : aLen < 14 + mem.be16 (pdata + 12)) : subframesIn mem pdata aLen = ([], true) := by
  rw [subframesIn, if_neg (Nat.not_le.mpr h)]
  exact if_pos hcut

/-- What follows the first subframe, with a body of `n` bytes. -/
def subframesBehind (mem : Mem) (pdata : ℤ) (aLen n : ℕ) : List (ℤ × ℕ) × Bool :=
  if aLen = 14 + n then ([], false)
  else if aLen < 14 + n + paddingLen n then ([], true)
  else subframesIn mem (pdata + 14 + n + paddingLen n) (aLen - (14 + n + paddingLen n))

theorem subframesIn_cons {mem : Mem} {pdata : ℤ} {aLen n : ℕ} (h : 14 < aLen)
    (hn : mem.be16 (pdata + 12) = n) (hfits : 14 + n ≤ aLen) :
    subframesIn mem pdata aLen
      = ((pdata + 14, n) :: (subframesBehind mem pdata aLen n).1,
        (subframesBehind mem pdata aLen n).2) := by
  rw [subframesIn, if_neg (Nat.not_le.mpr h)]
  dsimp only
  rw [hn, if_neg (Nat.not_lt.mpr hfits), subframesBehind]
  split_ifs <;> rfl

theorem subframesBehind_cut {mem : Mem} {pdata : ℤ} {aLen n : ℕ} (hfits : 14 + n ≤ aLen)
    (h : aLen - 14 - n ≠ 0 ∧ aLen - 14 - n < paddingLen n) : subframesBehind mem pdata aLen n =
    ([], true) := by
  rw [subframesBehind, if_neg (by omega), if_pos (by omega)]

/-- The next round starts behind the padding, if there is any. -/
theorem subframesBehind_next {mem : Mem} {pdata : ℤ} {aLen n : ℕ} (hfits : 14 + n ≤ aLen)
    (h : ¬(aLen - 14 - n ≠ 0 ∧ aLen - 14 - n < paddingLen n)) :
    subframesBehind mem pdata aLen n
      = subframesIn mem (pdata + 14 + n + (if aLen - 14 - n ≠ 0 then paddingLen n else 0 : ℕ))
        (aLen - 14 - n - if aLen - 14 - n ≠ 0 then paddingLen n else 0) := by
  rw [subframesBehind]
  by_cases hend : aLen = 14 + n
  · rw [if_pos hend, subframesIn_short]
    omega
  · have hlen : aLen - (14 + n + paddingLen n) = aLen - 14 - n - paddingLen n := by omega
    rw [if_neg hend, if_neg (by omega), if_pos (by omega), hlen]

/-- The packets for these subframes, up to the first request that fails. -/
def packetsFor : (ℕ → SkbAnswer) → List (ℤ × ℕ) → List SubSkb
  | _, [] => []
  | answer, x :: xs =>
    if answer 0 = .fail then []
    else ⟨answer 0 = .clone, x.1, x.2⟩ :: packetsFor (fun i => answer (i + 1)) xs

theorem length_packetsFor : ∀ (answer : ℕ → SkbAnswer) (xs : List (ℤ × ℕ)),
    (packetsFor answer xs).length = xs.length ↔ ∀ i < xs.length, answer i ≠ .fail
  | _, [] => by simp [packetsFor]
  | answer, x :: xs => by
    rw [packetsFor]
    split_ifs with hfail
    · exact ⟨fun h => absurd h (by simp), fun h => absurd hfail (h 0 (by simp))⟩
    · rw [List.length_cons, List.length_cons, Nat.succ_inj, length_packetsFor]
      constructor
      · intro h i hi
        cases i with
        | zero => exact hfail
        | succ i => exact h i (by omega)
      · exact fun h i hi => h (i + 1) (by omega)

theorem mem_packetsFor : ∀ {answer : ℕ → SkbAnswer} {xs : List (ℤ × ℕ)} {y : SubSkb},
    y ∈ packetsFor answer xs ↔ ∃ k x, xs[k]? = some x ∧ (∀ i ≤ k, answer i ≠ .fail) ∧
      y = ⟨answer k = .clone, x.1, x.2⟩
  | answer, [], y => by simp [packetsFor]
  | answer, x :: xs, y => by
    rw [packetsFor]
    split_ifs with hfail
    · simp only [List.not_mem_nil, false_iff]
      rintro ⟨k, x', -, hall, -⟩
      exact hall 0 (by omega) hfail
    · rw [List.mem_cons, mem_packetsFor]
      constructor
      · rintro (rfl | ⟨k, x', hk, hall, rfl⟩)
        · refine ⟨0, x, rfl, fun i hi => ?_, rfl⟩
          obtain rfl : i = 0 := by omega
          exact hfail
        · refine ⟨k + 1, x', hk, fun i hi => ?_, rfl⟩
          cases i with
          | zero => exact hfail
          | succ i => exact hall i (by omega)
      · rintro ⟨k, x', hk, hall, rfl⟩
        cases k with
        | zero =>
          cases hk
          exact Or.inl rfl
        | succ k => exact Or.inr ⟨k, x', hk, fun i hi => hall (i + 1) (by omega), rfl⟩

theorem ByteRead.Inside.mono {base base' : ℤ} {total total' : ℕ} {rd : ByteRead}
    (h : rd.Inside base' total')
    (hbase : base ≤ base') (htotal : base' + total' ≤ base + total) : rd.Inside base total := by
  cases rd with
  | frame start len =>
    obtain ⟨h1, h2⟩ := h
    exact ⟨by omega, by omega⟩
  | copy size start len => exact h

/-- The reads of a round are inside, if the subframe is. -/
theorem inside_round {pdata : ℤ} {aLen n : ℕ} (hfits : 14 + n ≤ aLen) (cloned : Bool)
    {rd : ByteRead}
    (h : rd ∈ if cloned then [ByteRead.frame (pdata + 12) 2]
      else [.frame (pdata + 12) 2, .frame (pdata + 14) n]) : rd.Inside pdata aLen := by
  cases cloned with
  | true =>
    obtain rfl := List.mem_singleton.mp h
    exact ⟨by omega, by omega⟩
  | false =>
    rcases List.mem_cons.mp h with rfl | h
    · exact ⟨by omega, by omega⟩
    · obtain rfl := List.mem_singleton.mp h
      exact ⟨by omega, by omega⟩

/-- The first loop returns, it reads the bytes of the frame only, and makes the packets of the
complete subframes. It leaves through `exit` if it gets to a malformed rest with a packet for each
of them. -/
theorem parseLoop_spec (mem : Mem) :
    ∀ (fuel : ℕ) (pdata : ℤ) (aLen nr : ℕ) (answer : ℕ → SkbAnswer), aLen < fuel →
      nr < maxSubframeCount →
      ∃ r, parseLoop mem fuel pdata aLen nr answer = some r ∧
        (∀ rd ∈ r.reads, rd.Inside pdata aLen) ∧
        r.subframes = packetsFor answer
          ((subframesIn mem pdata aLen).1.take (maxSubframeCount - nr)) ∧
        (r.exit = true ↔ (subframesIn mem pdata aLen).2 = true ∧
          (subframesIn mem pdata aLen).1.length < maxSubframeCount - nr ∧
          ∀ i < (subframesIn mem pdata aLen).1.length, answer i ≠ .fail)
  | 0, _, _, _, _, h, _ => by omega
  | fuel + 1, pdata, aLen, nr, answer, hfuel, hnr => by
    obtain ⟨left, hleft⟩ : ∃ left, maxSubframeCount - nr = left + 1 :=
      ⟨maxSubframeCount - nr - 1, by omega⟩
    rw [parseLoop, hleft]
    dsimp only
    rcases Nat.lt_or_ge 14 aLen with hlong | hshort
    · rw [if_pos hlong]
      obtain ⟨n, hn⟩ : ∃ n, mem.be16 (pdata + 12) = n := ⟨_, rfl⟩
      rw [hn]
      rcases Nat.lt_or_ge aLen (14 + n) with hcut | hfits
      · rw [if_pos hcut, subframesIn_cut hlong (hn ▸ hcut)]
        refine ⟨_, rfl, fun rd hrd => ?_, rfl, by simp⟩
        obtain rfl := List.mem_singleton.mp hrd
        exact ⟨by omega, by omega⟩
      · rw [if_neg (Nat.not_lt.mpr hfits), subframesIn_cons hlong hn hfits, List.take_succ_cons,
          packetsFor,
          List.length_cons]
        by_cases hfail : answer 0 = .fail
        · rw [if_pos hfail, if_pos hfail]
          refine ⟨_, rfl, fun rd hrd => ?_, rfl, ?_⟩
          · obtain rfl := List.mem_singleton.mp hrd
            exact ⟨by omega, by omega⟩
          · exact ⟨fun h => absurd h (by simp), fun h => absurd hfail (h.2.2 0 (by omega))⟩
        · rw [if_neg hfail, if_neg hfail]
          have hround := fun rd => @inside_round pdata aLen n hfits (answer 0 = .clone) rd
          by_cases hmax : nr + 1 ≥ maxSubframeCount
          · -- the limit is reached with this subframe
            obtain rfl : left = 0 := by omega
            rw [if_pos hmax]
            exact ⟨_, rfl, hround, rfl, fun h => absurd h (by simp), fun h => by omega⟩
          · rw [if_neg hmax]
            by_cases hcut : aLen - 14 - n ≠ 0 ∧ aLen - 14 - n < paddingLen n
            · rw [if_pos hcut, subframesBehind_cut hfits hcut]
              refine ⟨_, rfl, hround,
                by rw [List.take_nil]; rfl, fun _ => ⟨rfl, ?_, fun i hi => ?_⟩, fun _ => rfl⟩
              · rw [List.length_nil]
                omega
              · obtain rfl : i = 0 := by
                  rw [List.length_nil] at hi
                  omega
                exact hfail
            · rw [if_neg hcut, subframesBehind_next hfits hcut]
              set padding := if aLen - 14 - n ≠ 0 then paddingLen n else 0 with hpadding
              have hle : padding ≤ aLen - 14 - n := by
                rw [hpadding]
                split_ifs <;> omega
              obtain ⟨r, hr, hreads, hsubs, hexit⟩ :=
                parseLoop_spec mem fuel (pdata + 14 + n + padding)
                (aLen - 14 - n - padding) (nr + 1) (fun i => answer (i + 1)) (by omega) (by omega)
              obtain rfl : left = maxSubframeCount - (nr + 1) := by omega
              rw [hr]
              refine ⟨_, rfl, fun rd hrd => ?_, by rw [← hsubs], ?_⟩
              · rcases List.mem_append.mp hrd with hrd | hrd
                · exact hround rd hrd
                · exact (hreads rd hrd).mono (by omega) (by omega)
              · rw [hexit]
                refine and_congr_right fun _ => and_congr (by omega) ?_
                constructor
                · intro h i hi
                  cases i with
                  | zero => exact hfail
                  | succ i => exact h i (by omega)
                · exact fun h i hi => h (i + 1) (by omega)
    · rw [if_neg (Nat.not_lt.mpr hshort), subframesIn_short mem pdata hshort]
      exact ⟨_, rfl, by simp, rfl, by simp⟩

/-! ## What is left behind -/

/-- The second loop reads inside of a packet if it has eight bytes, or is a clone with eight bytes
of the frame. -/
def SubSkb.Fits (base : ℤ) (total : ℕ) (x : SubSkb) : Prop :=
  if x.cloned then x.data + 8 ≤ base + total else 8 ≤ x.len

/-- The packets of complete subframes lie inside. -/
theorem data_of_mem_subframesIn (mem : Mem) (pdata : ℤ) (aLen : ℕ) {x : ℤ × ℕ}
    (h : x ∈ (subframesIn mem pdata aLen).1) : pdata + 14 ≤ x.1 ∧ x.1 + x.2 ≤ pdata + aLen := by
  induction aLen using Nat.strong_induction_on generalizing pdata with
  | _ aLen ih =>
    rcases Nat.lt_or_ge 14 aLen with hlong | hshort
    · rcases Nat.lt_or_ge aLen (14 + mem.be16 (pdata + 12)) with hcut | hfits
      · rw [subframesIn_cut hlong hcut] at h
        simp at h
      · rw [subframesIn_cons hlong rfl hfits] at h
        rcases List.mem_cons.mp h with rfl | h
        · exact ⟨by omega, by omega⟩
        · rw [subframesBehind] at h
          split_ifs at h with h1 h2
          · simp at h
          · simp at h
          · obtain ⟨h3, h4⟩ := ih _ (by omega) _ h
            exact ⟨by omega, by omega⟩
    · rw [subframesIn_short mem pdata hshort] at h
      simp at h

theorem inside_deliveryReads {base : ℤ} {total : ℕ} {x : SubSkb} (hdata : base ≤ x.data)
    (hlen : x.data + x.len ≤ base + total) :
    (∀ rd ∈ x.deliveryReads, rd.Inside base total) ↔ x.Fits base total := by
  obtain ⟨cloned, data, len⟩ := x
  unfold SubSkb.deliveryReads SubSkb.Fits SubSkb.read
  dsimp only at hdata hlen ⊢
  cases cloned with
  | false =>
    constructor
    · intro h
      have htype : 6 + 2 ≤ len := h _ (List.mem_cons_self ..)
      simpa using htype
    · intro h rd hrd
      have h8 : 8 ≤ len := by simpa using h
      rw [if_pos h8] at hrd
      rcases List.mem_cons.mp hrd with rfl | hrd
      · exact h8
      · obtain rfl := List.mem_singleton.mp hrd
        exact Nat.le_trans (by omega) h8
  | true =>
    constructor
    · intro h
      have htype := h _ (List.mem_cons_self ..)
      rw [if_pos rfl] at htype ⊢
      have hend := htype.2
      omega
    · intro h rd hrd
      rw [if_pos rfl] at h
      rcases List.mem_cons.mp hrd with rfl | hrd
      · exact ⟨by omega, by omega⟩
      · by_cases h8 : len ≥ 8
        · rw [if_pos h8] at hrd
          obtain rfl := List.mem_singleton.mp hrd
          exact ⟨by omega, by omega⟩
        · rw [if_neg h8] at hrd
          simp at hrd

/-- Packets are left behind : there is a malformed rest behind at least one subframe, and each
subframe before it gets a packet. -/
def Strands (fr : RecvFrame) (answer : ℕ → SkbAnswer) : Prop :=
  let fr := Adapter.amsduPull fr
  let found := subframesIn fr.mem fr.rxData fr.len
  found.2 = true ∧ 0 < found.1.length ∧ found.1.length < maxSubframeCount ∧
    ∀ i < found.1.length, answer i ≠ .fail

/-- Each of the first subframes that get a packet fits. -/
def PacketsFit (fr : RecvFrame) (answer : ℕ → SkbAnswer) : Prop :=
  let fr := Adapter.amsduPull fr
  ∀ (k : ℕ) (x : ℤ × ℕ), (subframesIn fr.mem fr.rxData fr.len).1[k]? = some x → k < maxSubframeCount →
    (∀ i ≤ k, answer i ≠ .fail) → SubSkb.Fits fr.rxData fr.len ⟨answer k = .clone, x.1, x.2⟩

/-- The packets are those of the first subframes. -/
theorem forall_mem_packetsFor {answer : ℕ → SkbAnswer} {xs : List (ℤ × ℕ)} {P : SubSkb → Prop} :
    (∀ y ∈ packetsFor answer (xs.take maxSubframeCount), P y) ↔
      ∀ (k : ℕ) (x : ℤ × ℕ), xs[k]? = some x → k < maxSubframeCount → (∀ i ≤ k, answer i ≠ .fail) →
        P ⟨answer k = .clone, x.1, x.2⟩ := by
  constructor
  · intro h k x hx hk hall
    exact h _ (mem_packetsFor.mpr ⟨k, x, by rw [List.getElem?_take_of_lt hk, hx], hall, rfl⟩)
  · intro h y hy
    obtain ⟨k, x, hx, hall, rfl⟩ := mem_packetsFor.mp hy
    rw [List.getElem?_take] at hx
    split_ifs at hx with hk
    exact h k x hx hk hall

/-- The run is clean just in case no packet is left behind at a malformed rest, and the packets
fit. -/
theorem cleanRun_iff (fr : RecvFrame) (answer : ℕ → SkbAnswer) :
    CleanRun fr answer ↔ ¬Strands fr answer ∧ PacketsFit fr answer := by
  unfold CleanRun Strands PacketsFit amsduRun
  generalize Adapter.amsduPull fr = fr
  dsimp only
  obtain ⟨r, hr, hreads, hsubs, hexit⟩ :=
    parseLoop_spec fr.mem (fr.len + 1) fr.rxData fr.len 0 answer (by omega)
    (by decide)
  rw [Nat.sub_zero] at hsubs hexit
  obtain ⟨xs, malformed, hfound⟩ : ∃ xs malformed, subframesIn fr.mem fr.rxData fr.len =
    (xs, malformed) :=
    ⟨_, _, rfl⟩
  have hdata := fun x => data_of_mem_subframesIn fr.mem fr.rxData fr.len (x := x)
  rw [hfound] at hsubs hexit hdata ⊢
  rw [hr, Option.map_some]
  dsimp only at hsubs hexit hdata ⊢
  by_cases hout : r.exit = true
  · -- through `exit` : nothing may have been built
    obtain ⟨hmal, hlt, hall⟩ := hexit.mp hout
    rw [List.take_of_length_le (by omega)] at hsubs
    have hlen : r.subframes.length = xs.length := by
      rw [hsubs]
      exact (length_packetsFor answer xs).mpr hall
    constructor
    · rintro ⟨q, hq, -, hup⟩
      rw [if_pos hout] at hq
      cases hq
      have hnone : r.subframes.length = 0 := (congrArg List.length hup).symm
      have hnil : xs = [] := List.length_eq_zero_iff.mp (hlen.symm.trans hnone)
      subst hnil
      exact ⟨fun h => absurd h.2.1 (by simp), fun k x hx => absurd hx (by simp)⟩
    · rintro ⟨hstrand, -⟩
      have hzero : ¬0 < xs.length := fun hpos => hstrand ⟨hmal, hpos, hlt, hall⟩
      have hnil : r.subframes = [] := List.length_eq_zero_iff.mp (by omega)
      refine ⟨_, rfl, ?_, ?_⟩
      · rw [if_pos hout]
        exact hreads
      · rw [if_pos hout]
        exact hnil.symm
  · have hstrand : ¬(malformed = true ∧ 0 < xs.length ∧ xs.length < maxSubframeCount ∧
        ∀ i < xs.length, answer i ≠ .fail) := fun h => hout (hexit.mpr ⟨h.1, h.2.2.1, h.2.2.2⟩)
    have hfits : (∀ x ∈ r.subframes, ∀ rd ∈ x.deliveryReads, rd.Inside fr.rxData fr.len) ↔
        ∀ x ∈ r.subframes, x.Fits fr.rxData fr.len := by
      refine forall₂_congr fun y hy => ?_
      rw [hsubs] at hy
      obtain ⟨k, x, hx, -, rfl⟩ := mem_packetsFor.mp hy
      obtain ⟨h1, h2⟩ := hdata _ (List.mem_of_mem_take (List.mem_of_getElem? hx))
      exact inside_deliveryReads (by dsimp only; omega) h2
    rw [← forall_mem_packetsFor (P := SubSkb.Fits fr.rxData fr.len), ← hsubs, ← hfits]
    constructor
    · rintro ⟨q, hq, hin, -⟩
      rw [if_neg hout] at hq
      cases hq
      exact ⟨hstrand, fun x hx rd hrd => hin rd (List.mem_append.mpr
        (Or.inr (List.mem_flatMap.mpr ⟨x, hx, hrd⟩)))⟩
    · rintro ⟨-, hin⟩
      rw [if_neg hout]
      refine ⟨_, rfl, fun rd hrd => ?_, rfl⟩
      rcases List.mem_append.mp hrd with hrd | hrd
      · exact hreads rd hrd
      · obtain ⟨x, hx, hrd⟩ := List.mem_flatMap.mp hrd
        exact hin x hx rd hrd

/-- A subframe with a body of eight bytes, and one byte of its padding. -/
def sampleCutOff : RecvFrame :=
  { initRecvframe with
    pkt := true
    len := 23
    rxTail := 23
    rxEnd := 2000
    mem := Mem.write (fun _ => 0) 12 [0, 8] }

/-- The packet of the subframe is left behind. -/
theorem not_cleanRun_sampleCutOff : ¬CleanRun sampleCutOff fun _ => .alloc := by
  rintro ⟨r, hr, -, hup⟩
  have hbuilt : (amsduRun sampleCutOff fun _ => .alloc).map
    (fun r => (r.built.length, r.handedUp)) = some (1, []) := by
    decide +kernel
  rw [hr] at hbuilt
  obtain ⟨hone, hnone⟩ := Prod.mk.inj (Option.some.inj hbuilt)
  rw [← hup] at hone
  have hempty : r.handedUp.length = 0 := congrArg List.length hnone
  omega

end Rtl8188eu
