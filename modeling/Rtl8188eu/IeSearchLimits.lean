import Rtl8188eu.InfoElementLists

/-!
# Searches for an element and their limits

What the searches for an information element read, in a buffer with anything in it. They look at the
offset of an element before they go on, but not at the length byte or at the end of the element. So
they read behind the limit if the last element is cut in its header or in the bytes that are
compared, and they may return an element that is cut (`IeFun.staysInside_iff`).
-/

namespace Rtl8188eu

open Tlv

/-! ## The functions of the source -/

/-- What a search returns, as the address and the length of the whole element, and the addresses
that it reads. -/
structure Searched where
  result : Option (ℤ × ℕ)
  reads : List ℤ
deriving DecidableEq

/-- The addresses of `n` bytes. -/
def addrs (p : ℤ) (n : ℕ) : List ℤ := (List.range n).map fun i => p + (i : ℕ)

/-- What one of the searches looks for, and which of the output pointers it is given. -/
structure IeSearch where
  eid : UInt8
  oui : Option (List UInt8)
  giveUp : ℕ → ℕ → Bool
  /-- The id is read before the search may give up. -/
  idFirst : Bool
  ie : Bool
  ielen : Bool

namespace IeSearch

/-- The bytes of the OUI. -/
def ouiBytes (s : IeSearch) : List UInt8 := s.oui.getD []

/-- The bytes that are compared with the OUI. -/
def compared (s : IeSearch) (m : Mem) (a : ℤ) : List ℤ :=
  if s.eid = m a then addrs (a + 2) s.ouiBytes.length else []

/-- What is read of an element that is found, for the output pointers. -/
def outReads (s : IeSearch) (a : ℤ) (len : ℕ) : List ℤ :=
  (if s.ie || s.ielen then [a + 1] else []) ++ if s.ie then addrs a len else []

/-- The loop of the searches, with the addresses that are read. There is no result without fuel. -/
def trace (s : IeSearch) (m : Mem) (inIe : ℤ) (inLen : ℕ) : ℕ → ℕ → ℕ → Option Searched
  | 0, _, _ => none
  | fuel + 1, cnt, loop =>
    let a := inIe + cnt
    if cnt < inLen then
      if s.giveUp cnt loop then some ⟨none, if s.idFirst then [a] else []⟩
      else
        if s.eid = m a ∧ ∀ o ∈ s.oui, m.read (a + 2) o.length = o then
          let len := (m (a + 1)).toNat + 2
          some ⟨some (a, len), a :: s.compared m a ++ s.outReads a len⟩
        else
          (s.trace m inIe inLen fuel (cnt + ((m (a + 1)).toNat + 2)) (loop + 1)).map fun r =>
            ⟨r.result, a :: s.compared m a ++ [a + 1] ++ r.reads⟩
    else some ⟨none, []⟩

end IeSearch

/-- The loop of `rtw_get_ie`, with the addresses that are read. -/
def rtwGetIeTrace (m : Mem) (index : UInt8) (limit : ℤ) : ℕ → ℤ → ℤ → Option Searched
  | 0, _, _ => none
  | fuel + 1, p, i =>
    if m p = index then some ⟨some (p, (m (p + 1)).toNat + 2), [p, p + 1]⟩
    else
      let tmp : ℤ := (m (p + 1)).toNat
      if i + (tmp + 2) ≥ limit then some ⟨none, [p, p + 1]⟩
      else (rtwGetIeTrace m index limit fuel (p + (tmp + 2)) (i + (tmp + 2))).map fun r =>
        ⟨r.result, p :: (p + 1) :: r.reads⟩

/-- The four searches. -/
inductive IeFun where
  | getIe (index : UInt8)
  | getIeEx (eid : UInt8) (oui : Option (List UInt8)) (ie ielen : Bool)
  | getWpsIe (ie ielen : Bool)
  | getP2pIe (ie ielen : Bool)

namespace IeFun

/-- What they look for. -/
def search : IeFun → IeSearch
  | .getIe index => ⟨index, none, fun _ _ => false, true, false, true⟩
  | .getIeEx eid oui ie ielen => ⟨eid, oui, fun _ _ => false, true, ie, ielen⟩
  | .getWpsIe ie ielen => ⟨vendorSpecificIe, some wpsOui, fun _ loop => decide (1000 < loop), false, ie, ielen⟩
  | .getP2pIe ie ielen => ⟨vendorSpecificIe, some p2pOui, fun cnt _ => decide (maxIeSz < cnt), true, ie, ielen⟩

/-- A call with a limit. The limit of `rtw_get_ie_ex` and `rtw_get_wps_ie` is unsigned ;
`rtw_get_p2p_ie` reads the first byte before it looks for a negative one. -/
def run (f : IeFun) (m : Mem) (p limit : ℤ) (fuel : ℕ) : Option Searched :=
  match f with
  | .getIe index => if limit < 1 then some ⟨none, []⟩ else rtwGetIeTrace m index limit fuel p 0
  | .getIeEx .. | .getWpsIe .. => f.search.trace m p limit.toNat fuel 0 0
  | .getP2pIe .. => if limit < 0 then some ⟨none, [p]⟩ else f.search.trace m p limit.toNat fuel 0 0

/-- What a call returns. -/
def result (f : IeFun) (m : Mem) (p limit : ℤ) : Option (ℤ × ℕ) :=
  match f with
  | .getIe index => (rtwGetIe m p index limit).map fun r => (r.1, r.2 + 2)
  | .getIeEx eid oui _ _ => rtwGetIeEx m p limit.toNat eid oui
  | .getWpsIe .. => rtwGetWpsIe m p limit.toNat
  | .getP2pIe .. => rtwGetP2pIe m p limit

end IeFun

/-! ## The trace and the result -/

section Trace

variable {m : Mem} {p limit : ℤ} {s : IeSearch} {r : Searched}

theorem ieSearch_of_trace {n : ℕ} : ∀ {fuel fuel' cnt loop : ℕ} {r : Searched},
    s.trace m p n fuel cnt loop = some r → n ≤ cnt + fuel' →
      ieSearch m p n s.eid s.oui s.giveUp fuel' cnt loop = r.result
  | fuel + 1, fuel', cnt, loop, r, h, hf => by
    unfold IeSearch.trace at h
    dsimp only at h
    split at h
    · rename_i hcnt
      obtain ⟨k, rfl⟩ : ∃ k, fuel' = k + 1 := ⟨fuel' - 1, by omega⟩
      rw [ieSearch, if_pos hcnt]
      split at h
      · rename_i hup
        cases h
        rw [if_pos hup]
      rename_i hup
      rw [if_neg hup]
      split at h
      · rename_i hhit
        cases h
        rw [if_pos hhit]
      · rename_i hhit
        rw [if_neg hhit]
        obtain ⟨r', hr, rfl⟩ := Option.map_eq_some_iff.mp h
        have ih := @ieSearch_of_trace n fuel k _ _ r' hr (by omega)
        exact ih
    · rename_i hcnt
      cases h
      cases fuel' with
      | zero => rfl
      | succ k => rw [ieSearch, if_neg hcnt]

theorem rtwGetIeLoop_of_trace {index : UInt8} : ∀ {fuel fuel' : ℕ} {q i : ℤ} {r : Searched},
    rtwGetIeTrace m index limit fuel q i = some r → i < limit → limit ≤ i + fuel' →
      (rtwGetIeLoop m index limit fuel' q i).map (fun x => (x.1, x.2 + 2)) = r.result
  | fuel + 1, fuel', q, i, r, h, hi, hf => by
    obtain ⟨k, rfl⟩ : ∃ k, fuel' = k + 1 := ⟨fuel' - 1, by omega⟩
    unfold rtwGetIeTrace at h
    dsimp only at h
    rw [rtwGetIeLoop]
    split at h
    · rename_i hid
      cases h
      rw [if_pos hid]
      rfl
    rename_i hid
    rw [if_neg hid]
    dsimp only
    split at h
    · rename_i hend
      cases h
      rw [if_pos hend]
      rfl
    · rename_i hend
      rw [if_neg hend]
      obtain ⟨r', hr, rfl⟩ := Option.map_eq_some_iff.mp h
      have ih := @rtwGetIeLoop_of_trace index fuel k _ _ r' hr (by omega) (by omega)
      exact ih

/-- A trace has the result of the function. -/
theorem IeFun.result_of_run {f : IeFun} {fuel : ℕ} (h : f.run m p limit fuel = some r) :
    f.result m p limit = r.result := by
  cases f with
  | getIe index =>
    unfold run at h
    unfold result rtwGetIe
    dsimp only at h ⊢
    split at h
    · rename_i hl
      cases h
      rw [if_pos hl]
      rfl
    · rename_i hl
      rw [if_neg hl]
      exact rtwGetIeLoop_of_trace h (by omega) (by omega)
  | getIeEx eid oui ie ielen => exact ieSearch_of_trace h (by omega)
  | getWpsIe ie ielen => exact ieSearch_of_trace h (by omega)
  | getP2pIe ie ielen =>
    unfold run at h
    unfold result rtwGetP2pIe
    dsimp only at h ⊢
    split at h
    · rename_i hl
      cases h
      rw [if_pos hl]
    · rename_i hl
      rw [if_neg hl]
      exact ieSearch_of_trace h (by omega)

end Trace

/-! ## What a search reads -/

/-- What is read is inside a buffer of `n` bytes, and so is what is returned. -/
def Searched.Inside (r : Searched) (p : ℤ) (n : ℕ) : Prop :=
  (∀ a ∈ r.reads, p ≤ a ∧ a < p + n) ∧ ∀ a len, r.result = some (a, len) → p ≤ a ∧ a + len ≤ p + n

section Inside

variable {m : Mem} {p q : ℤ} {s : IeSearch} {r : Searched} {n k : ℕ} {c : List ℤ}

theorem mem_addrs {a : ℤ} : a ∈ addrs q k ↔ q ≤ a ∧ a < q + k := by
  unfold addrs
  rw [List.mem_map]
  constructor
  · rintro ⟨i, hi, rfl⟩
    have hlt := List.mem_range.mp hi
    omega
  · rintro ⟨hge, hlt⟩
    exact ⟨(a - q).toNat, List.mem_range.mpr (by omega), by omega⟩

/-- Bytes from `q` on are inside if their end is. -/
theorem addrs_inside (hq : p ≤ q) : (∀ a ∈ addrs q k, p ≤ a ∧ a < p + n) ↔
    k = 0 ∨ q + k ≤ p + n := by
  constructor
  · intro h
    rcases Nat.eq_zero_or_pos k with hk | hk
    · exact Or.inl hk
    · have hlast := h (q + k - 1) (mem_addrs.mpr (by omega))
      omega
  · intro h a ha
    have hin := mem_addrs.mp ha
    omega

/-- A round that goes on. -/
theorem inside_pass : Searched.Inside ⟨r.result, q :: c ++ [q + 1] ++ r.reads⟩ p n ↔
    (p ≤ q ∧ q + 1 < p + n) ∧ (∀ a ∈ c, p ≤ a ∧ a < p + n) ∧ r.Inside p n := by
  unfold Searched.Inside
  dsimp only
  constructor
  · rintro ⟨hreads, hres⟩
    have hq := hreads q (by simp)
    have hq' := hreads (q + 1) (by simp)
    exact ⟨⟨hq.1, hq'.2⟩,
      fun a ha => hreads a (by simp [ha]), fun a ha => hreads a (by simp [ha]), hres⟩
  · rintro ⟨hq, hc, hreads, hres⟩
    refine ⟨fun a ha => ?_, hres⟩
    simp only [List.cons_append, List.mem_cons, List.mem_append, List.not_mem_nil, or_false] at ha
    rcases ha with rfl | (ha | rfl) | ha
    · omega
    · exact hc a ha
    · omega
    · exact hreads a ha

/-- A round that finds an element. -/
theorem inside_hit {len : ℕ} (hlen : 2 ≤ len) :
    Searched.Inside ⟨some (q, len), q :: c ++ s.outReads q len⟩ p n ↔
    (p ≤ q ∧ q + len ≤ p + n) ∧ ∀ a ∈ c, p ≤ a ∧ a < p + n := by
  unfold Searched.Inside
  dsimp only
  constructor
  · rintro ⟨hreads, hres⟩
    exact ⟨hres q len rfl, fun a ha => hreads a (by simp [ha])⟩
  · rintro ⟨hq, hc⟩
    refine ⟨fun a ha => ?_, fun a l hal => ?_⟩
    · unfold IeSearch.outReads at ha
      simp only [List.cons_append, List.mem_cons, List.mem_append] at ha
      rcases ha with rfl | ha | ha | ha
      · omega
      · exact hc a ha
      · split_ifs at ha
        · obtain rfl := List.mem_singleton.mp ha
          omega
        · exact absurd ha List.not_mem_nil
      · split_ifs at ha
        · have hin := mem_addrs.mp ha
          omega
        · exact absurd ha List.not_mem_nil
    · cases hal
      exact hq

/-- The bytes that are compared. -/
theorem oui_iff (s : IeSearch) (m : Mem) (q : ℤ) :
    (∀ o ∈ s.oui, m.read q o.length = o) ↔ m.read q s.ouiBytes.length = s.ouiBytes := by
  unfold IeSearch.ouiBytes
  cases s.oui with
  | none => exact iff_of_true (fun o ho => nomatch ho) rfl
  | some o => simp

/-- The comparison with bytes that are all there. -/
theorem read_eq_iff_begins {bs o : List UInt8} {t : Stream' UInt8} (h : bytesAt m q = bs ++ₛ t)
    (hlen : o.length ≤ bs.length) : m.read q o.length = o ↔ o <+: bs := by
  rw [read_eq_take, h, Stream'.take_append_of_le_length _ _ _ hlen,
    List.prefix_iff_eq_take, eq_comm]

end Inside

/-! ## Where a search stays inside -/

namespace IeSearch

/-- A search in whole elements, with the beginning of another one behind them. The bytes that are
compared are there for each element with the id, up to the first that is found ; if none is found,
there is a length byte, and what is there of the last element differs from what is looked for. -/
def Clean (s : IeSearch) : List Elem → List UInt8 → ℕ → ℕ → Prop
  | [], rest, cnt, loop => rest = [] ∨ s.giveUp cnt loop = true ∨ ∃ a len short, rest = a :: len :: short ∧
      (s.eid = a → s.ouiBytes.length ≤ short.length ∧ ¬s.ouiBytes <+: short)
  | e :: es, rest, cnt, loop => s.giveUp cnt loop = true ∨
      (s.eid = e.id → s.ouiBytes.length ≤ (e.body ++ (encode es ++ rest)).length) ∧
        (s.eid = e.id ∧ s.ouiBytes <+: e.body ++ (encode es ++ rest) ∨
          s.Clean es rest (cnt + (e.body.length + 2)) (loop + 1))

variable {m : Mem} {p : ℤ} {s : IeSearch} {n cnt loop : ℕ} {bs after : List UInt8} {a len : UInt8}
  {t : Stream' UInt8}

/-- Behind the buffer the loop ends. -/
theorem trace_done (s : IeSearch) (m : Mem) (p : ℤ) (loop : ℕ) (h : n ≤ cnt) :
    ∃ r : Searched, (∀ fuel, 0 < fuel → s.trace m p n fuel cnt loop = some r) ∧ r.reads = [] ∧
      r.Inside p n := by
  refine ⟨⟨none, []⟩, fun fuel hf => ?_, rfl, fun x hx => absurd hx List.not_mem_nil,
    fun x l hx => nomatch hx⟩
  obtain ⟨k, rfl⟩ : ∃ k, fuel = k + 1 := ⟨fuel - 1, by omega⟩
  rw [trace]
  dsimp only
  rw [if_neg (by omega)]

/-- The search gives up. -/
theorem trace_giveUp (hcnt : cnt < n) (hup : s.giveUp cnt loop = true) :
    ∃ r : Searched, (∀ fuel, n < cnt + fuel → s.trace m p n fuel cnt loop = some r) ∧
      r.Inside p n := by
  refine ⟨⟨none, if s.idFirst then [p + cnt] else []⟩,
    fun fuel hf => ?_, fun x hx => ?_, fun x l hx => nomatch hx⟩
  · obtain ⟨k, rfl⟩ : ∃ k, fuel = k + 1 := ⟨fuel - 1, by omega⟩
    rw [trace]
    dsimp only
    rw [if_pos hcnt, if_pos hup]
  · dsimp only at hx
    split_ifs at hx
    · obtain rfl := List.mem_singleton.mp hx
      omega
    · exact absurd hx List.not_mem_nil

/-- The bytes of a header and behind it. -/
theorem header_of_bytesAt {q : ℤ} (hb : bytesAt m q = (a :: len :: after) ++ₛ t) :
    m q = a ∧ m (q + 1) = len ∧ bytesAt m (q + 2) = after ++ₛ t := by
  have hread := read_of_bytesAt hb
  have hcons : bytesAt m q = [a, len] ++ₛ (after ++ₛ t) := by
    rw [hb, ← Stream'.append_append_stream]
    rfl
  have hdrop := bytesAt_drop hcons
  rw [List.length_cons, List.length_cons, Mem.read, Mem.read] at hread
  obtain ⟨h0, hread⟩ := List.cons.inj hread
  obtain ⟨h1, -⟩ := List.cons.inj hread
  exact ⟨h0, h1, hdrop⟩

/-- The compared bytes are inside. -/
theorem compared_inside (hb : bytesAt m (p + cnt) = (a :: len :: after) ++ₛ t)
    (hn : n = cnt + (a :: len :: after).length) :
    (∀ x ∈ s.compared m (p + cnt), p ≤ x ∧ x < p + n) ↔
    (s.eid = a → s.ouiBytes.length ≤ after.length) := by
  obtain ⟨ha, -, -⟩ := header_of_bytesAt hb
  unfold compared
  rw [ha]
  rw [List.length_cons, List.length_cons] at hn
  split_ifs with heid
  · rw [addrs_inside (by omega), imp_iff_right heid]
    omega
  · exact iff_of_true (fun x hx => absurd hx List.not_mem_nil) fun h => absurd h heid

/-- One round of the loop, at a header that is whole. -/
theorem trace_header (hb : bytesAt m (p + cnt) = (a :: len :: after) ++ₛ t)
    (hn : n = cnt + (a :: len :: after).length) (hup : s.giveUp cnt loop = false) {C : Prop}
    (hnext : ∃ r : Searched, (∀ fuel, 0 < fuel → n < cnt + (len.toNat + 2) + fuel →
      s.trace m p n fuel (cnt + (len.toNat + 2)) (loop + 1) = some r) ∧ (r.Inside p n ↔ C)) :
    ∃ r : Searched, (∀ fuel, n < cnt + fuel → s.trace m p n fuel cnt loop = some r) ∧
      (r.Inside p n ↔ (s.eid = a → s.ouiBytes.length ≤ after.length) ∧
        ((s.eid = a ∧ s.ouiBytes <+: after) ∧ len.toNat ≤ after.length ∨
          ¬(s.eid = a ∧ s.ouiBytes <+: after) ∧ C)) := by
  obtain ⟨ha, hl, hafter⟩ := header_of_bytesAt hb
  have hcomp := compared_inside (s := s) hb hn
  rw [List.length_cons, List.length_cons] at hn
  have hround : ∀ fuel, n < cnt + fuel → ∃ k, fuel = k + 1 ∧ 0 < k ∧
    n < cnt + (len.toNat + 2) + k :=
    fun fuel hf => ⟨fuel - 1, by omega, by omega, by omega⟩
  by_cases hhit : s.eid = m (p + cnt) ∧ ∀ o ∈ s.oui, m.read (p + cnt + 2) o.length = o
  · refine ⟨⟨some (p + cnt, (m (p + cnt + 1)).toNat + 2), (p + cnt) :: s.compared m (p + cnt) ++
      s.outReads (p + cnt) ((m (p + cnt + 1)).toNat + 2)⟩, fun fuel hf => ?_, ?_⟩
    · obtain ⟨k, rfl, -⟩ := hround fuel hf
      rw [trace]
      dsimp only
      rw [if_pos (by omega), if_neg (by rw [hup]; exact Bool.false_ne_true), if_pos hhit]
    · rw [inside_hit (by omega), hcomp, hl]
      obtain ⟨hid, houi⟩ := hhit
      rw [ha] at hid
      rw [oui_iff] at houi
      constructor
      · rintro ⟨hin, hle⟩
        have hpre := (read_eq_iff_begins hafter (hle hid)).mp houi
        exact ⟨hle, Or.inl ⟨⟨hid, hpre⟩, by omega⟩⟩
      · rintro ⟨hle, ⟨-, hlen⟩ | ⟨hno, -⟩⟩
        · exact ⟨by omega, hle⟩
        · exact absurd ⟨hid, (read_eq_iff_begins hafter (hle hid)).mp houi⟩ hno
  · obtain ⟨r, hr, hiff⟩ := hnext
    refine ⟨⟨r.result, (p + cnt) :: s.compared m (p + cnt) ++ [p + cnt + 1] ++ r.reads⟩,
      fun fuel hf => ?_, ?_⟩
    · obtain ⟨k, rfl, hpos, hk⟩ := hround fuel hf
      rw [trace]
      dsimp only
      rw [if_pos (by omega), if_neg (by rw [hup]; exact Bool.false_ne_true), if_neg hhit, hl,
        hr k hpos hk]
      rfl
    · rw [inside_pass, hcomp, hiff]
      rw [oui_iff, ha] at hhit
      constructor
      · rintro ⟨-, hle, hC⟩
        refine ⟨hle, Or.inr ⟨fun hpre => hhit ⟨hpre.1, ?_⟩, hC⟩⟩
        exact (read_eq_iff_begins hafter (hle hpre.1)).mpr hpre.2
      · rintro ⟨hle, ⟨⟨hid, hpre⟩, -⟩ | ⟨-, hC⟩⟩
        · exact absurd ⟨hid, (read_eq_iff_begins hafter (hle hid)).mpr hpre⟩ hhit
        · exact ⟨by omega, hle, hC⟩

/-- At a single byte the search reads the one behind it, or returns it as an element. -/
theorem trace_single (hn : n = cnt + 1) (hup : s.giveUp cnt loop = false) :
    ∃ r : Searched, (∀ fuel, n < cnt + fuel → s.trace m p n fuel cnt loop = some r) ∧
      ¬r.Inside p n := by
  by_cases hhit : s.eid = m (p + cnt) ∧ ∀ o ∈ s.oui, m.read (p + cnt + 2) o.length = o
  · refine ⟨⟨some (p + cnt, (m (p + cnt + 1)).toNat + 2), (p + cnt) :: s.compared m (p + cnt) ++
      s.outReads (p + cnt) ((m (p + cnt + 1)).toNat + 2)⟩, fun fuel hf => ?_, fun hin => ?_⟩
    · obtain ⟨k, rfl⟩ : ∃ k, fuel = k + 1 := ⟨fuel - 1, by omega⟩
      rw [trace]
      dsimp only
      rw [if_pos (by omega), if_neg (by rw [hup]; exact Bool.false_ne_true), if_pos hhit]
    · have hlast := (hin.2 _ _ rfl).2
      push_cast at hlast
      omega
  · obtain ⟨r, hr, hreads, -⟩ :=
      @trace_done n (cnt + ((m (p + cnt + 1)).toNat + 2)) s m p (loop + 1) (by omega)
    refine ⟨⟨r.result, (p + cnt) :: s.compared m (p + cnt) ++ [p + cnt + 1] ++ r.reads⟩,
      fun fuel hf => ?_,
      fun hin => ?_⟩
    · obtain ⟨k, rfl, hk⟩ : ∃ k, fuel = k + 1 ∧ 0 < k := ⟨fuel - 1, by omega, by omega⟩
      rw [trace]
      dsimp only
      rw [if_pos (by omega), if_neg (by rw [hup]; exact Bool.false_ne_true), if_neg hhit, hr k hk]
      rfl
    · have hlast := (hin.1 (p + cnt + 1) (by simp)).2
      omega

/-- The search comes to an end, and stays inside exactly if the list is clean. -/
theorem trace_inside : ∀ {es : List Elem} {rest : List UInt8} {t : Stream' UInt8} {cnt loop : ℕ},
    bytesAt m (p + cnt) = (encode es ++ rest) ++ₛ t → n = cnt + (encode es ++ rest).length →
      Cut rest →
      ∃ r : Searched, (∀ fuel, n < cnt + fuel → s.trace m p n fuel cnt loop = some r) ∧
        (r.Inside p n ↔ s.Clean es rest cnt loop)
  | [], rest, t, cnt, loop, hb, hn, hcut => by
    rw [encode_nil, List.nil_append] at hb hn
    by_cases hrest : rest = []
    · subst hrest
      rw [List.length_nil] at hn
      obtain ⟨r, hr, -, hin⟩ := @trace_done n cnt s m p loop hn.le
      exact ⟨r, fun fuel hf => hr fuel (by omega), iff_of_true hin (Or.inl rfl)⟩
    cases hup : s.giveUp cnt loop with
    | true =>
      have hpos := List.length_pos_iff.mpr hrest
      obtain ⟨r, hr, hin⟩ := @trace_giveUp m p s n cnt loop (by omega) hup
      exact ⟨r, hr, iff_of_true hin (Or.inr (Or.inl hup))⟩
    | false =>
      match rest, hb, hn, hcut with
      | [a], hb, hn, _ =>
        obtain ⟨r, hr, hin⟩ := @trace_single m p s n cnt loop hn hup
        refine ⟨r, hr, iff_of_false hin ?_⟩
        rintro (h | h | ⟨a', len, short, h, -⟩)
        · cases h
        · rw [hup] at h
          cases h
        · cases h
      | a :: len :: short, hb, hn, hcut =>
        have hshort := cut_cons_cons.mp hcut
        -- behind the cut element the loop ends
        have hnext : ∃ r : Searched, (∀ fuel, 0 < fuel → n < cnt + (len.toNat + 2) + fuel →
            s.trace m p n fuel (cnt + (len.toNat + 2)) (loop + 1) = some r) ∧
            (r.Inside p n ↔ True) := by
          rw [List.length_cons, List.length_cons] at hn
          obtain ⟨r, hr, -, hin⟩ :=
            @trace_done n (cnt + (len.toNat + 2)) s m p (loop + 1) (by omega)
          exact ⟨r, fun fuel hf _ => hr fuel hf, iff_of_true hin trivial⟩
        obtain ⟨r, hr, hiff⟩ := trace_header hb hn hup hnext
        refine ⟨r, hr, hiff.trans ?_⟩
        constructor
        · rintro ⟨hle, ⟨-, hlen⟩ | ⟨hno, -⟩⟩
          · omega
          · exact Or.inr (Or.inr ⟨a, len, short, rfl,
              fun hid => ⟨hle hid, fun hpre => hno ⟨hid, hpre⟩⟩⟩)
        · rintro (h | h | ⟨a', len', short', h, hall⟩)
          · cases h
          · rw [hup] at h
            cases h
          · cases h
            refine ⟨fun hid => (hall hid).1, Or.inr ⟨fun hpre => (hall hpre.1).2 hpre.2, trivial⟩⟩
  | e :: es, rest, t, cnt, loop, hb, hn, hcut => by
    have hbytes : encode (e :: es) ++ rest = e.id :: e.len :: (e.body ++ (encode es ++ rest)) := by
      rw [encode_cons, Elem.bytes, List.append_assoc]
      rfl
    rw [hbytes] at hb hn
    cases hup : s.giveUp cnt loop with
    | true =>
      obtain ⟨r, hr, hin⟩ :=
        @trace_giveUp m p s n cnt loop (by rw [List.length_cons] at hn; omega) hup
      exact ⟨r, hr, iff_of_true hin (Or.inl hup)⟩
    | false =>
      obtain ⟨-, -, hafter⟩ := header_of_bytesAt hb
      have hb' : bytesAt m (p + (cnt + (e.len.toNat + 2) : ℕ)) = (encode es ++ rest) ++ₛ t := by
        rw [Stream'.append_append_stream] at hafter
        have hdrop := bytesAt_drop hafter
        rw [e.toNat_len]
        convert hdrop using 2
        push_cast
        ring
      have hn' : n = cnt + (e.len.toNat + 2) + (encode es ++ rest).length := by
        rw [List.length_cons, List.length_cons, List.length_append] at hn
        rw [e.toNat_len]
        omega
      obtain ⟨r', hr', hiff'⟩ := trace_inside hb' hn' hcut
      obtain ⟨r, hr, hiff⟩ := trace_header hb hn hup ⟨r', fun fuel _ hf => hr' fuel hf, hiff'⟩
      refine ⟨r, hr, hiff.trans ?_⟩
      rw [e.toNat_len, Clean, hup]
      have hlen : e.body.length ≤ (e.body ++ (encode es ++ rest)).length := by
        rw [List.length_append]
        omega
      by_cases hpre : s.eid = e.id ∧ s.ouiBytes <+: e.body ++ (encode es ++ rest)
      · rw [List.length_append] at hlen
        simp [hpre]
      · simp [hpre]

end IeSearch

namespace IeFun

variable {m : Mem} {p limit : ℤ} {r : Searched}

/-- A call comes to an end in as many rounds as the buffer has bytes, and one. It reads only bytes
of the buffer, and what it returns is inside the buffer. -/
def StaysInside (f : IeFun) (m : Mem) (p limit : ℤ) : Prop :=
  ∃ r, (∀ fuel, limit.toNat < fuel → f.run m p limit fuel = some r) ∧ f.result m p limit = r.result ∧
    (∀ a ∈ r.reads, p ≤ a ∧ a < p + limit) ∧ ∀ a len, r.result = some (a, len) → p ≤ a ∧ a + len ≤ p + limit

/-- `rtw_get_ie` reads what a search without an OUI reads. -/
theorem rtwGetIeTrace_eq {index : UInt8} : ∀ {fuel cnt loop : ℕ} {r : Searched}, (cnt : ℤ) < limit →
    (IeFun.getIe index).search.trace m p limit.toNat fuel cnt loop = some r →
      rtwGetIeTrace m index limit fuel (p + cnt) cnt = some r
  | fuel + 1, cnt, loop, r, hcnt, h => by
    rw [IeSearch.trace] at h
    rw [rtwGetIeTrace]
    dsimp only at h ⊢
    rw [if_pos (by omega),
      if_neg (show ¬(getIe index).search.giveUp cnt loop = true from Bool.false_ne_true)] at h
    have hcomp : (getIe index).search.compared m (p + cnt) = [] := by
      unfold IeSearch.compared
      exact ite_eq_right_iff.mpr fun _ => rfl
    by_cases hid : m (p + cnt) = index
    · have hhit : (getIe index).search.eid = m (p + cnt) ∧ ∀ o ∈ (getIe index).search.oui,
          m.read (p + cnt + 2) o.length = o := ⟨hid.symm, fun o ho => nomatch ho⟩
      rw [if_pos hhit, hcomp] at h
      cases h
      rw [if_pos hid]
      rfl
    · rw [if_neg fun hhit => hid hhit.1.symm] at h
      rw [if_neg hid]
      obtain ⟨r', hr, rfl⟩ := Option.map_eq_some_iff.mp h
      rw [hcomp]
      split_ifs with hend
      · -- the loop of the search has one round more
        obtain ⟨k, rfl⟩ : ∃ k, fuel = k + 1 := by
          cases fuel with
          | zero => cases hr
          | succ k => exact ⟨k, rfl⟩
        have hnone : (getIe index).search.trace m p limit.toNat (k + 1)
          (cnt + ((m (p + cnt + 1)).toNat + 2))
            (loop + 1) = some ⟨none, []⟩ := by
          rw [IeSearch.trace]
          dsimp only
          rw [if_neg (by omega)]
        cases hr.symm.trans hnone
        rfl
      · have ih := @rtwGetIeTrace_eq index fuel (cnt + ((m (p + cnt + 1)).toNat + 2)) (loop + 1) r'
          (by omega) hr
        push_cast at ih
        rw [← add_assoc p] at ih
        rw [ih]
        rfl

/-- The limit of `rtw_get_p2p_ie` is not negative. The others do not read anything then. -/
def LimitOk (f : IeFun) (limit : ℤ) : Prop :=
  match f with
  | .getP2pIe .. => 0 ≤ limit
  | _ => True

/-- The bytes up to the limit are a list of elements, with the beginning of another one behind them,
that is clean for the search. -/
def CleanBuffer (f : IeFun) (m : Mem) (p limit : ℤ) : Prop :=
  ∃ es rest, m.read p limit.toNat = encode es ++ rest ∧ Cut rest ∧ f.search.Clean es rest 0 0

/-- The trace of a search from the start of the buffer. -/
theorem exists_trace (f : IeFun) (m : Mem) (p limit : ℤ) :
    ∃ r : Searched, (∀ fuel, limit.toNat < fuel →
      f.search.trace m p limit.toNat fuel 0 0 = some r) ∧
      (r.Inside p limit.toNat ↔ f.CleanBuffer m p limit) := by
  have hbuf : bytesAt m (p + (0 : ℕ)) = m.read p limit.toNat ++ₛ bytesAt m (p + limit.toNat) := by
    rw [Nat.cast_zero, add_zero, read_eq_take]
    rw [← drop_bytesAt, Stream'.append_take_drop]
  have hlen : (m.read p limit.toNat).length = limit.toNat := by simp
  have htrace : ∀ es rest, m.read p limit.toNat = encode es ++ rest → Cut rest →
      ∃ r : Searched, (∀ fuel, limit.toNat < 0 + fuel →
        f.search.trace m p limit.toNat fuel 0 0 = some r) ∧
        (r.Inside p limit.toNat ↔ f.search.Clean es rest 0 0) := by
    intro es rest hread hcut
    rw [hread] at hbuf hlen
    exact IeSearch.trace_inside hbuf (by omega) hcut
  obtain ⟨es, rest, hread, hcut⟩ := exists_encode_append_cut (m.read p limit.toNat)
  obtain ⟨r, hr, hiff⟩ := htrace es rest hread hcut
  refine ⟨r, fun fuel hf => hr fuel (by omega), fun hin => ⟨es, rest, hread, hcut, hiff.mp hin⟩, ?_⟩
  rintro ⟨es', rest', hread', hcut', hclean⟩
  obtain ⟨r', hr', hiff'⟩ := htrace es' rest' hread' hcut'
  have hsame := (hr (limit.toNat + 1) (by omega)).symm.trans (hr' (limit.toNat + 1) (by omega))
  cases hsame
  exact hiff'.mpr hclean

/-- A call comes to an end, and it is known what it reads. -/
theorem exists_run (f : IeFun) (m : Mem) (p limit : ℤ) :
    ∃ r : Searched, (∀ fuel, limit.toNat < fuel → f.run m p limit fuel = some r) ∧
      ((∀ a ∈ r.reads, p ≤ a ∧ a < p + limit) ∧
      (∀ a len, r.result = some (a, len) → p ≤ a ∧ a + len ≤ p + limit) ↔
        f.LimitOk limit ∧ f.CleanBuffer m p limit) := by
  obtain ⟨r, hr, hiff⟩ := f.exists_trace m p limit
  by_cases hneg : limit < 0
  · -- nothing is read, but for the first byte
    have hclean : f.CleanBuffer m p limit :=
      ⟨[], [], by rw [Int.toNat_of_nonpos
        (by omega)]; rfl, cut_of_length_le_one (by simp), Or.inl rfl⟩
    have hnil : r.reads = [] ∧ r.result = none := by
      have hrun := hr (limit.toNat + 1) (by omega)
      rw [IeSearch.trace] at hrun
      dsimp only at hrun
      rw [if_neg (by omega)] at hrun
      cases hrun
      exact ⟨rfl, rfl⟩
    cases f with
    | getIe index =>
      refine ⟨⟨none, []⟩, fun fuel _ => if_pos (by omega), iff_of_true
        ⟨(fun a ha => nomatch ha), fun a l ha => nomatch ha⟩ ⟨trivial, hclean⟩⟩
    | getIeEx eid oui ie ielen =>
      refine ⟨r, hr, iff_of_true ⟨fun a ha => ?_, fun a l ha => ?_⟩ ⟨trivial, hclean⟩⟩
      · rw [hnil.1] at ha
        cases ha
      · rw [hnil.2] at ha
        cases ha
    | getWpsIe ie ielen =>
      refine ⟨r, hr, iff_of_true ⟨fun a ha => ?_, fun a l ha => ?_⟩ ⟨trivial, hclean⟩⟩
      · rw [hnil.1] at ha
        cases ha
      · rw [hnil.2] at ha
        cases ha
    | getP2pIe ie ielen =>
      refine ⟨⟨none, [p]⟩, fun fuel _ => if_pos hneg, iff_of_false (fun hin => ?_) fun hok => ?_⟩
      · have hp := hin.1 p (List.mem_singleton.mpr rfl)
        omega
      · exact absurd hok.1 (Int.not_le.mpr hneg)
  · have hcast : (limit.toNat : ℤ) = limit := Int.toNat_of_nonneg (by omega)
    have hok : f.LimitOk limit := by
      unfold LimitOk
      split
      · omega
      · trivial
    refine ⟨r, fun fuel hf => ?_, ?_⟩
    · cases f with
      | getIe index =>
        unfold run
        dsimp only
        split_ifs with hl
        · have hrun := hr (limit.toNat + 1) (by omega)
          rw [IeSearch.trace] at hrun
          dsimp only at hrun
          rw [if_neg (by omega)] at hrun
          exact hrun
        · have h := rtwGetIeTrace_eq (p := p) (by push_cast; omega) (hr fuel hf)
          rwa [Nat.cast_zero, add_zero] at h
      | getIeEx eid oui ie ielen => exact hr fuel hf
      | getWpsIe ie ielen => exact hr fuel hf
      | getP2pIe ie ielen => exact (if_neg hneg).trans (hr fuel hf)
    · unfold Searched.Inside at hiff
      rw [hcast] at hiff
      exact hiff.trans (and_iff_right hok).symm

/-- A search stays inside its limit exactly if the list of elements in the buffer is clean for
it. -/
theorem staysInside_iff (f : IeFun) (m : Mem) (p limit : ℤ) :
    f.StaysInside m p limit ↔ f.LimitOk limit ∧ f.CleanBuffer m p limit := by
  obtain ⟨r, hr, hiff⟩ := f.exists_run m p limit
  have hrun := hr (limit.toNat + 1) (by omega)
  rw [← hiff]
  constructor
  · rintro ⟨r', hr', -, hin⟩
    obtain rfl := Option.some.inj (hrun.symm.trans (hr' (limit.toNat + 1) (by omega)))
    exact hin
  · exact fun hin => ⟨r, hr, result_of_run hrun, hin⟩

/-- `rtw_get_ie` reads the length byte of an element that has only its id in the buffer. -/
theorem not_staysInside_single : ¬∀ (f : IeFun) (m : Mem) (p limit : ℤ), f.StaysInside m p limit := by
  intro hall
  obtain ⟨r, hr, -, hreads, -⟩ := hall (.getIe 5) (fun _ => 0) 0 1
  have hrun : (IeFun.getIe 5).run (fun _ => 0) 0 1 2 = some ⟨none, [0, 1]⟩ := by rfl
  cases hrun.symm.trans (hr 2 (by decide))
  have hlast := (hreads 1 (by simp)).2
  omega

/-- A challenge text of 128 bytes of which four are there is returned as a whole. -/
example : rtwGetIe (Mem.write (fun _ => 0) 0 [16, 128, 1, 2, 3, 4]) 0 16 6 =
    some (0, 128) := by decide

end IeFun

end Rtl8188eu
