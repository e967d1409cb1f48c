import Rtl8188eu.IeSearchLimits

/-!
# The loops over vendor elements

`OnAssocReq`, `rtw_check_beacon_data` and `issue_asocrsp` look for the WMM or the WPA element among
the vendor elements of an area. They call `rtw_get_ie` again behind a vendor element that is another
one, with a limit that is counted from there : the size of the whole area, or the size of the area
less the one of the last element. So every element before the last one lets a later call look
farther behind the area. The loops over a beacon also stop at an element without a body.

What such a loop reads, and what it finds, is right exactly if the search ends at an element that
is the right one, or before the limit has moved (`VendorLoop.right_iff_safe`).
-/

namespace Rtl8188eu

open Tlv

/-! ## The functions of the source -/

/-- The loops. -/
inductive VendorLoop where
  /-- `OnAssocReq`, for `WMM_IE`. -/
  | onAssocReqWmm
  /-- `rtw_check_beacon_data`, for `OUI1`. -/
  | checkBeaconWpa
  /-- `rtw_check_beacon_data`, for `WMM_PARA_IE`. -/
  | checkBeaconWmm
  /-- `issue_asocrsp`, for `WMM_PARA_IE`. -/
  | asocrspWmm

namespace VendorLoop

/-- The bytes that the body of the element begins with. -/
def oui : VendorLoop → List UInt8
  | .onAssocReqWmm => [0x00, 0x50, 0xf2, 0x02, 0x00, 0x01]
  | .checkBeaconWpa => [0x00, 0x50, 0xf2, 0x01]
  | .checkBeaconWmm | .asocrspWmm => [0x00, 0x50, 0xf2, 0x02, 0x01, 0x01]

/-- The loop goes over a beacon : the limit is less the last element, and an element without a body
ends it. -/
def beacon : VendorLoop → Bool
  | .onAssocReqWmm => false
  | .checkBeaconWpa | .checkBeaconWmm | .asocrspWmm => true

/-- What is read of the element that is found, from its id on : the QoS info field, all for
`rtw_parse_wpa_ie`, the fields that are changed, or all for the copy. -/
def touched : VendorLoop → ℕ → List ℕ
  | .onAssocReqWmm, _ => [8]
  | .checkBeaconWmm, _ => [8, 10, 14, 18, 22]
  | .checkBeaconWpa, len | .asocrspWmm, len => List.range len

/-- The limit of a call, behind an element with `ieLen` bytes. -/
def limit (k : VendorLoop) (area : ℤ) (ieLen : ℕ) : ℤ := if k.beacon then area - (ieLen + 2) else area

/-- What is done with the result of `rtw_get_ie`. -/
def afterGetIe (k : VendorLoop) (m : Mem) (next : ℤ → ℕ → Option Searched) (r : Searched) : Option Searched :=
  match r.result with
  | none => some r
  | some (q, len) =>
    let reads := r.reads ++ addrs (q + 2) k.oui.length
    if m.read (q + 2) k.oui.length = k.oui then some ⟨some (q, len), reads ++ (k.touched len).map fun d => q + (d : ℕ)⟩
    else if k.beacon ∧ len = 2 then some ⟨none, reads⟩
    else (next (q + len) (len - 2)).map fun r' => ⟨r'.result, reads ++ r'.reads⟩

/-- The loop at `p`, behind an element with `ieLen` bytes. There is no result without fuel. -/
def run (k : VendorLoop) (m : Mem) (area : ℤ) : ℕ → ℤ → ℕ → Option Searched
  | 0, _, _ => none
  | fuel + 1, p, ieLen =>
    let limit := k.limit area ieLen
    ((IeFun.getIe vendorSpecificIe).run m p limit (limit.toNat + 1)).bind (k.afterGetIe m (k.run m area fuel))

/-! ## One search -/

/-- The size of the element at an address. -/
def sizeAt (m : Mem) (a : ℤ) : ℕ := (m (a + 1)).toNat + 2

/-- The bytes behind the header are the right ones. -/
def HitAt (k : VendorLoop) (m : Mem) (a : ℤ) : Prop := m.read (a + 2) k.oui.length = k.oui

instance (k : VendorLoop) (m : Mem) (a : ℤ) : Decidable (k.HitAt m a) := inferInstanceAs (Decidable (_ = _))

/-- What the calls of a loop come to : the elements are passed one after another, from the one `off`
bytes behind `p`, up to the limit `lim`, which moves behind each vendor element. -/
inductive Scans (k : VendorLoop) (m : Mem) (p area : ℤ) : ℕ → ℤ → Searched → Prop
  | stop {off : ℕ} {lim : ℤ} (hlim : lim ≤ off) : Scans k m p area off lim ⟨none, []⟩
  | other {off : ℕ} {lim : ℤ} {r} (hlim : off < lim) (hid : m (p + off) ≠ vendorSpecificIe)
      (next : Scans k m p area (off + sizeAt m (p + off)) lim r) :
      Scans k m p area off lim ⟨r.result, [p + off, p + off + 1] ++ r.reads⟩
  | hit {off : ℕ} {lim : ℤ} (hlim : off < lim) (hid : m (p + off) = vendorSpecificIe) (hhit : k.HitAt m (p + off)) :
      Scans k m p area off lim ⟨some (p + off, sizeAt m (p + off)), [p + off, p + off + 1] ++
        addrs (p + off + 2) k.oui.length ++ (k.touched (sizeAt m (p + off))).map fun d => p + off + (d : ℕ)⟩
  | empty {off : ℕ} {lim : ℤ} (hlim : off < lim) (hid : m (p + off) = vendorSpecificIe) (hno : ¬k.HitAt m (p + off))
      (hsize : k.beacon ∧ sizeAt m (p + off) = 2) :
      Scans k m p area off lim ⟨none, [p + off, p + off + 1] ++ addrs (p + off + 2) k.oui.length⟩
  | vendor {off : ℕ} {lim : ℤ} {r} (hlim : off < lim) (hid : m (p + off) = vendorSpecificIe) (hno : ¬k.HitAt m (p + off))
      (hsize : ¬(k.beacon ∧ sizeAt m (p + off) = 2))
      (next : Scans k m p area (off + sizeAt m (p + off))
        ((off + sizeAt m (p + off) : ℕ) + k.limit area (sizeAt m (p + off) - 2)) r) :
      Scans k m p area off lim ⟨r.result, [p + off, p + off + 1] ++ addrs (p + off + 2) k.oui.length ++ r.reads⟩

section Run

variable {k : VendorLoop} {m : Mem} {p area lim limit : ℤ} {off ieLen : ℕ} {r r₁ : Searched}
  {next : ℤ → ℕ → Option Searched}

/-- What was read before does not change what is done. -/
theorem afterGetIe_append (before : List ℤ) (r : Searched) :
    k.afterGetIe m next ⟨r.result, before ++ r.reads⟩ =
    (k.afterGetIe m next r).map fun r' => ⟨r'.result, before ++ r'.reads⟩ := by
  unfold afterGetIe
  dsimp only
  cases hres : r.result with
  | none => simp [hres]
  | some q =>
    obtain ⟨q, len⟩ := q
    dsimp only
    split_ifs
    · simp [List.append_assoc]
    · simp [List.append_assoc]
    · rw [Option.map_map]
      congr 1
      funext r'
      simp [List.append_assoc]

/-- `rtw_get_ie` moves `p` on by the size of the element. -/
theorem place_add_size (m : Mem) (p : ℤ) (off : ℕ) :
    p + (off : ℤ) + (((m (p + off + 1)).toNat : ℤ) + 2) = p + (off + sizeAt m (p + off) : ℕ) := by
  unfold sizeAt
  push_cast
  ring

/-- It counts the size of the element. -/
theorem count_add_size (m : Mem) (p : ℤ) (off i : ℕ) :
    (i : ℤ) + (((m (p + off + 1)).toNat : ℤ) + 2) = (i + sizeAt m (p + off) : ℕ) := by
  unfold sizeAt
  push_cast
  ring

/-- A call of `rtw_get_ie` that ends, and what is done then, is a part of a search. -/
theorem scans_of_trace (hnext : ∀ (off ieLen : ℕ) (r : Searched), next (p + off) ieLen = some r →
      Scans k m p area off (off + k.limit area ieLen) r) :
    ∀ {fuel off i : ℕ} {r₁ r : Searched}, rtwGetIeTrace m vendorSpecificIe limit fuel
      (p + off) i = some r₁ →
      k.afterGetIe m next r₁ = some r → (i : ℤ) < limit → Scans k m p area off (off - i + limit) r
  | fuel + 1, off, i, r₁, r, htrace, hafter, hi => by
    have hlim : (off : ℤ) < off - i + limit := by omega
    unfold rtwGetIeTrace at htrace
    dsimp only at htrace
    split at htrace
    · rename_i hid
      cases htrace
      change (if k.HitAt m (p + off) then _ else _) = some r at hafter
      split at hafter
      · rename_i hhit
        cases hafter
        exact .hit hlim hid hhit
      rename_i hno
      split at hafter
      · rename_i hsize
        cases hafter
        exact .empty hlim hid hno hsize
      · rename_i hsize
        obtain ⟨r', hr, rfl⟩ := Option.map_eq_some_iff.mp hafter
        refine .vendor hlim hid hno hsize (hnext _ _ _ ?_)
        rw [← hr, Nat.cast_add, ← add_assoc]
        rfl
    · rename_i hid
      split at htrace
      · rename_i hend
        cases htrace
        cases hafter
        have hstop : (off : ℤ) - i + limit ≤ (off + sizeAt m (p + off) : ℕ) := by
          unfold sizeAt
          push_cast
          omega
        exact .other hlim hid (.stop hstop)
      · rename_i hend
        obtain ⟨r', hr, rfl⟩ := Option.map_eq_some_iff.mp htrace
        have happend := @afterGetIe_append k m next [p + off, p + off + 1] r'
        obtain ⟨r'', hr'', rfl⟩ := Option.map_eq_some_iff.mp (happend.symm.trans hafter)
        rw [place_add_size, count_add_size] at hr
        rw [count_add_size] at hend
        have ih := scans_of_trace hnext hr hr'' (by omega)
        refine .other hlim hid ?_
        convert ih using 1
        push_cast
        ring

theorem scans_of_run :
    ∀ {fuel off ieLen : ℕ} {r : Searched}, k.run m area fuel (p + off) ieLen = some r →
    Scans k m p area off (off + k.limit area ieLen) r
  | fuel + 1, off, ieLen, r, h => by
    rw [run] at h
    obtain ⟨r₁, hr₁, hafter⟩ := Option.bind_eq_some_iff.mp h
    unfold IeFun.run at hr₁
    dsimp only at hr₁
    split at hr₁
    · cases hr₁
      cases hafter
      have hstop : (off : ℤ) + k.limit area ieLen ≤ off := by omega
      exact .stop hstop
    · have hscan := @scans_of_trace k m p area _ (k.run m area fuel)
        (fun off ieLen r hr => scans_of_run hr) _ off 0 r₁ r hr₁
        hafter (by push_cast; omega)
      rwa [Nat.cast_zero, sub_zero] at hscan

theorem scans_stop (h : Scans k m p area off lim r) (hlim : lim ≤ off) : r = ⟨none, []⟩ := by
  cases h with
  | stop => rfl
  | other h | hit h | empty h | vendor h => omega

/-- A search from inside a call of `rtw_get_ie`, `i` bytes behind its start. -/
def Resumes (k : VendorLoop) (m : Mem) (p area : ℤ) (fuel off : ℕ) (lim : ℤ) (r : Searched) : Prop :=
  ∀ (i f : ℕ) (limit : ℤ), lim = off - i + limit → (i : ℤ) < limit → limit ≤ i + f →
    ∃ r₁, rtwGetIeTrace m vendorSpecificIe limit f (p + off) i = some r₁ ∧
      k.afterGetIe m (k.run m area fuel) r₁ = some r

theorem run_of_resumes {fuel : ℕ} (h : Scans k m p area off (off + k.limit area ieLen) r)
    (hresumes : Resumes k m p area fuel off (off + k.limit area ieLen) r) :
    k.run m area (fuel + 1) (p + off) ieLen = some r := by
  rw [run]
  unfold IeFun.run
  dsimp only
  split_ifs with hlimit
  · rw [scans_stop h (by omega)]
    rfl
  · obtain ⟨r₁, htrace, hafter⟩ :=
      hresumes 0 ((k.limit area ieLen).toNat + 1) (k.limit area ieLen) (by push_cast; ring)
      (by push_cast; omega) (by omega)
    rw [Nat.cast_zero] at htrace
    rw [htrace, Option.bind_some, hafter]

/-- A search that ends is made by the calls. -/
theorem resumes_of_scans (h : Scans k m p area off lim r) :
    ∃ fuel, Resumes k m p area fuel off lim r := by
  induction h with
  | @stop off lim hlim => exact ⟨0, fun i f limit _ _ _ => by omega⟩
  | @other off lim r hlim hid next ih =>
    obtain ⟨fuel, hresumes⟩ := ih
    refine ⟨fuel, fun i f limit hl hi hf => ?_⟩
    obtain ⟨f, rfl⟩ : ∃ f', f = f' + 1 := ⟨f - 1, by omega⟩
    rw [rtwGetIeTrace, if_neg hid]
    dsimp only
    rw [count_add_size, place_add_size]
    split_ifs with hend
    · rw [scans_stop next (by push_cast; omega)]
      exact ⟨_, rfl, rfl⟩
    · have hpos : 2 ≤ sizeAt m (p + off) := Nat.le_add_left 2 _
      obtain ⟨r₁, htrace, hafter⟩ :=
        hresumes (i + sizeAt m (p + off)) f limit (by push_cast; omega) (by omega)
        (by push_cast; omega)
      refine ⟨_, by rw [htrace]; rfl, ?_⟩
      have happend := @afterGetIe_append k m (k.run m area fuel) [p + off, p + off + 1] r₁
      rw [hafter] at happend
      exact happend
  | @hit off lim hlim hid hhit =>
    refine ⟨0, fun i f limit hl hi hf => ?_⟩
    obtain ⟨f, rfl⟩ : ∃ f', f = f' + 1 := ⟨f - 1, by omega⟩
    refine ⟨_, by rw [rtwGetIeTrace, if_pos hid], ?_⟩
    exact if_pos hhit
  | @empty off lim hlim hid hno hsize =>
    refine ⟨0, fun i f limit hl hi hf => ?_⟩
    obtain ⟨f, rfl⟩ : ∃ f', f = f' + 1 := ⟨f - 1, by omega⟩
    refine ⟨_, by rw [rtwGetIeTrace, if_pos hid], ?_⟩
    exact (if_neg hno).trans (if_pos hsize)
  | @vendor off lim r hlim hid hno hsize next ih =>
    obtain ⟨fuel, hresumes⟩ := ih
    refine ⟨fuel + 1, fun i f limit hl hi hf => ?_⟩
    obtain ⟨f, rfl⟩ : ∃ f', f = f' + 1 := ⟨f - 1, by omega⟩
    have hrun := run_of_resumes next hresumes
    refine ⟨_, by rw [rtwGetIeTrace, if_pos hid], ?_⟩
    refine (if_neg hno).trans ((if_neg hsize).trans ?_)
    rw [Nat.cast_add, ← add_assoc] at hrun
    change (k.run m area (fuel + 1) (p + off + sizeAt m (p + off)) (sizeAt m (p + off) - 2)).map _ =
      _
    rw [hrun]
    rfl

/-- The loop and the search. -/
theorem run_iff : (∃ fuel, k.run m area fuel p 0 = some r) ↔
    Scans k m p area 0 (k.limit area 0) r := by
  have hp : p + ((0 : ℕ) : ℤ) = p := by rw [Nat.cast_zero, add_zero]
  have hlim : ((0 : ℕ) : ℤ) + k.limit area 0 = k.limit area 0 := by rw [Nat.cast_zero, zero_add]
  constructor
  · rintro ⟨fuel, h⟩
    rw [← hp] at h
    have hscan := scans_of_run h
    rwa [hlim] at hscan
  · intro h
    rw [← hlim] at h
    obtain ⟨fuel, hresumes⟩ := resumes_of_scans h
    have hrun := run_of_resumes h hresumes
    rw [hp] at hrun
    exact ⟨fuel + 1, hrun⟩

end Run

/-! ## What a search reads and finds -/

/-- A search ends, reads only bytes of the area, and finds what it should inside of it. -/
def Good (k : VendorLoop) (m : Mem) (p area : ℤ) (off : ℕ) (lim : ℤ) (P : Option (ℤ × ℕ) → Prop) : Prop :=
  ∃ r, Scans k m p area off lim r ∧ r.Inside p area.toNat ∧ P r.result

section Good

variable {k : VendorLoop} {m : Mem} {p area lim : ℤ} {off n : ℕ} {P : Option (ℤ × ℕ) →
  Prop} {r : Searched}
  {reads : List ℤ}

theorem inside_append : Searched.Inside ⟨r.result, reads ++ r.reads⟩ p n ↔
    (∀ a ∈ reads, p ≤ a ∧ a < p + n) ∧ r.Inside p n := by
  unfold Searched.Inside
  rw [List.forall_mem_append, and_assoc]

theorem header_inside : (∀ a ∈ [p + (off : ℤ), p + off + 1], p ≤ a ∧ a < p + n) ↔ off + 2 ≤ n := by
  rw [List.forall_mem_cons, List.forall_mem_singleton]
  omega

/-- The header, and the bytes that are compared. -/
theorem window_inside (k : VendorLoop) :
    (∀ a ∈ [p + (off : ℤ), p + off + 1] ++ addrs (p + off + 2) k.oui.length,
    p ≤ a ∧ a < p + n) ↔ off + 2 + k.oui.length ≤ n := by
  have hpos : 0 < k.oui.length := by cases k <;> decide
  rw [List.forall_mem_append, header_inside, addrs_inside (by omega)]
  omega

theorem touched_inside {ds : List ℕ} :
    (∀ a ∈ ds.map (fun d => p + (off : ℤ) + (d : ℕ)), p ≤ a ∧ a < p + n) ↔
    ∀ d ∈ ds, off + d < n := by
  rw [List.forall_mem_map]
  refine forall₂_congr fun d _ => ?_
  omega

theorem good_stop (h : lim ≤ off) : Good k m p area off lim P ↔ P none := by
  constructor
  · rintro ⟨r, hscan, -, hP⟩
    rwa [scans_stop hscan h] at hP
  · exact fun hP => ⟨_, .stop h, ⟨(fun a ha => nomatch ha), fun a len ha => nomatch ha⟩, hP⟩

theorem good_other (hlim : off < lim) (hid : m (p + off) ≠ vendorSpecificIe) :
    Good k m p area off lim P ↔
    off + 2 ≤ area.toNat ∧ Good k m p area (off + sizeAt m (p + off)) lim P := by
  constructor
  · rintro ⟨r, hscan, hin, hP⟩
    cases hscan with
    | stop h => omega
    | hit _ h | empty _ h | vendor _ h => exact absurd h hid
    | other _ _ next =>
      rw [inside_append, header_inside] at hin
      exact ⟨hin.1, _, next, hin.2, hP⟩
  · rintro ⟨hheader, r, hscan, hin, hP⟩
    exact ⟨_, .other hlim hid hscan, inside_append.mpr ⟨header_inside.mpr hheader, hin⟩, hP⟩

theorem good_vendor (hlim : off < lim) (hid : m (p + off) = vendorSpecificIe) :
    Good k m p area off lim P ↔
    off + 2 + k.oui.length ≤ area.toNat ∧
      if k.HitAt m (p + off) then (∀ d ∈ k.touched (sizeAt m (p + off)), off + d < area.toNat) ∧
        off + sizeAt m (p + off) ≤ area.toNat ∧ P (some (p + off, sizeAt m (p + off)))
      else if k.beacon ∧ sizeAt m (p + off) = 2 then P none
      else Good k m p area (off + sizeAt m (p + off))
        ((off + sizeAt m (p + off) : ℕ) + k.limit area (sizeAt m (p + off) - 2)) P := by
  constructor
  · rintro ⟨r, hscan, hin, hP⟩
    cases hscan with
    | stop h => omega
    | other _ h => exact absurd hid h
    | hit _ _ hhit =>
      obtain ⟨hreads, hres⟩ := hin
      rw [List.forall_mem_append, window_inside, touched_inside] at hreads
      rw [if_pos hhit]
      have hend := (hres _ _ rfl).2
      exact ⟨hreads.1, hreads.2, by omega, hP⟩
    | empty _ _ hno hsize =>
      obtain ⟨hreads, -⟩ := hin
      rw [window_inside] at hreads
      rw [if_neg hno, if_pos hsize]
      exact ⟨hreads, hP⟩
    | vendor _ _ hno hsize next =>
      rw [inside_append, window_inside] at hin
      rw [if_neg hno, if_neg hsize]
      exact ⟨hin.1, _, next, hin.2, hP⟩
  · rintro ⟨hwindow, h⟩
    split_ifs at h with hhit hsize
    · obtain ⟨htouched, hend, hP⟩ := h
      refine ⟨_, .hit hlim hid hhit, ⟨?_, fun a len ha => ?_⟩, hP⟩
      · rw [List.forall_mem_append, window_inside, touched_inside]
        exact ⟨hwindow, htouched⟩
      · cases ha
        omega
    · refine ⟨_, .empty hlim hid hhit hsize, ⟨?_, fun a len ha => nomatch ha⟩, h⟩
      rw [window_inside]
      exact hwindow
    · obtain ⟨r, hscan, hin, hP⟩ := h
      refine ⟨_, .vendor hlim hid hhit hsize hscan, ?_, hP⟩
      rw [inside_append, window_inside]
      exact ⟨hwindow, hin⟩

end Good

/-! ## The elements of an area -/

/-- Where the search behind the elements ends, with `off` bytes before them. It is counted from the
end of the last vendor element. -/
def limitBehind (k : VendorLoop) (area : ℤ) : List Elem → ℕ → ℤ → ℤ
  | [], _, lim => lim
  | e :: es, off, lim =>
    k.limitBehind area es (off + (e.body.length + 2))
      (if e.id = vendorSpecificIe then (off + (e.body.length + 2) : ℕ) + k.limit area e.body.length else lim)

/-- Where the search behind the first elements of an area ends. -/
def scanEnd (k : VendorLoop) (area : ℤ) (es : List Elem) : ℤ := k.limitBehind area es 0 (k.limit area 0)

/-- The element behind the elements `pre` ends the loop : it is found, or it is empty. -/
def StopsAt (k : VendorLoop) (m : Mem) (p : ℤ) (pre : List Elem) (e : Elem) : Prop :=
  e.id = vendorSpecificIe ∧ (k.HitAt m (p + (encode pre).length) ∨ k.beacon = true ∧ e.body = [])

/-- The loop does not end at one of the elements. -/
def Passed (k : VendorLoop) (m : Mem) (p : ℤ) (es : List Elem) : Prop :=
  ∀ pre e, pre ++ [e] <+: es → ¬k.StopsAt m p pre e

/-- The bytes that are compared are in the area. -/
def Windows (k : VendorLoop) (area : ℤ) (es : List Elem) : Prop :=
  ∀ pre e, pre ++ [e] <+: es → e.id = vendorSpecificIe → (encode pre).length + 2 + k.oui.length ≤ area.toNat

section Elements

variable {k : VendorLoop} {m : Mem} {p area lim : ℤ} {off : ℕ} {e : Elem} {es pre post : List Elem}
  {P : Option (ℤ × ℕ) → Prop} {t : Stream' UInt8}

theorem length_encode_concat (es : List Elem) (e : Elem) :
    (encode (es ++ [e])).length = (encode es).length + (e.body.length + 2) := by
  rw [encode_append, encode_cons, encode_nil, List.append_nil, List.length_append,
    Elem.length_bytes]

theorem limitBehind_concat :
    ∀ (es : List Elem) (off : ℕ) (lim : ℤ), k.limitBehind area (es ++ [e]) off lim =
    if e.id = vendorSpecificIe then (off + (encode (es ++ [e])).length : ℕ) + k.limit area
      e.body.length
    else k.limitBehind area es off lim
  | [], off, lim => by
    rw [List.nil_append, limitBehind, limitBehind, limitBehind, encode_cons, encode_nil,
      List.append_nil, Elem.length_bytes]
  | x :: es, off, lim => by
    rw [List.cons_append, limitBehind, limitBehind_concat es, limitBehind, encode_cons,
      List.length_append,
      Elem.length_bytes, Nat.add_assoc]

theorem scanEnd_concat : k.scanEnd area (es ++ [e]) =
    if e.id = vendorSpecificIe then ((encode (es ++ [e])).length : ℤ) + k.limit area e.body.length
    else k.scanEnd area es := by
  rw [scanEnd, limitBehind_concat, Nat.zero_add]
  rfl

theorem windows_concat : k.Windows area (es ++ [e]) ↔ k.Windows area es ∧
    (e.id = vendorSpecificIe → (encode es).length + 2 + k.oui.length ≤ area.toNat) := by
  unfold Windows
  constructor
  · exact fun h => ⟨fun pre x hpre => h pre x (hpre.trans (List.prefix_append es [e])),
      h es e (List.prefix_refl _)⟩
  · rintro ⟨hes, he⟩ pre x hpre
    rcases List.prefix_concat_iff.mp hpre with heq | hpre
    · obtain ⟨rfl, hx⟩ := List.append_inj' heq rfl
      obtain rfl := List.singleton_inj.mp hx
      exact he
    · exact hes pre x hpre

/-- Behind a vendor element the search goes to the end of the area or farther. -/
theorem scanEnd_cases : (∀ x ∈ es, x.id ≠ vendorSpecificIe) ∧ k.scanEnd area es = k.limit area 0 ∨
    area ≤ k.scanEnd area es := by
  induction es using List.reverseRecOn with
  | nil => exact Or.inl ⟨fun x hx => absurd hx List.not_mem_nil, rfl⟩
  | append_singleton es e ih =>
    rw [scanEnd_concat]
    split_ifs with hid
    · right
      rw [length_encode_concat, limit]
      split_ifs
      · push_cast
        omega
      · push_cast
        omega
    · refine ih.imp (fun h => ⟨fun x hx => ?_, h.2⟩) id
      rcases List.mem_append.mp hx with hx | hx
      · exact h.1 x hx
      · rw [List.mem_singleton.mp hx]
        exact hid

/-- A search that has ended before an element has not met a vendor element, and only an element of a
beacon without a body may follow. -/
theorem of_scanEnd_le (hend : k.scanEnd area es ≤ (encode es).length)
    (harea : ((encode es).length + (e.body.length + 2) : ℕ) ≤ area) :
    (∀ x ∈ es, x.id ≠ vendorSpecificIe) ∧ k.beacon = true ∧ e.body = [] ∧
      area = ((encode es).length + 2 : ℕ) := by
  push_cast at harea
  rcases @scanEnd_cases k area es with ⟨hno, hlim⟩ | hle
  · rw [hlim, limit] at hend
    split_ifs at hend with hb
    · push_cast at hend
      have hbody : e.body.length = 0 := by omega
      exact ⟨hno, hb, List.eq_nil_of_length_eq_zero hbody, by push_cast; omega⟩
    · omega
  · omega

theorem elem_of_bytesAt (h : bytesAt m p = encode (pre ++ e :: post) ++ₛ t) :
    m (p + (encode pre).length) = e.id ∧
      sizeAt m (p + (encode pre).length) = e.body.length + 2 := by
  rw [encode_append, Stream'.append_append_stream] at h
  have hrest := bytesAt_drop h
  exact ⟨id_of_bytesAt hrest, congrArg (· + 2) (len_of_bytesAt hrest)⟩

/-- An element that does not end the loop is passed. -/
theorem good_step (h : bytesAt m p = encode (pre ++ e :: post) ++ₛ t)
    (harea : (encode (pre ++ e :: post)).length ≤ area.toNat) (hpass : ¬k.StopsAt m p pre e) :
    Good k m p area (encode pre).length (k.scanEnd area pre) P ↔
      (e.id = vendorSpecificIe → (encode pre).length + 2 + k.oui.length ≤ area.toNat) ∧
        Good k m p area (encode (pre ++ [e])).length (k.scanEnd area (pre ++ [e])) P := by
  obtain ⟨hid, hsize⟩ := elem_of_bytesAt h
  have hfits : ((encode pre).length + (e.body.length + 2) : ℕ) ≤ area := by
    rw [encode_append, encode_cons, List.length_append, List.length_append,
      Elem.length_bytes] at harea
    push_cast
    omega
  rcases lt_or_ge ((encode pre).length : ℤ) (k.scanEnd area pre) with hlim | hlim
  · by_cases hv : e.id = vendorSpecificIe
    · obtain ⟨hno, hbody⟩ := not_or.mp fun hor => hpass ⟨hv, hor⟩
      have hgo : ¬(k.beacon = true ∧ e.body.length + 2 = 2) := by
        rintro ⟨hb, hlen⟩
        exact hbody ⟨hb, List.eq_nil_of_length_eq_zero (by omega)⟩
      rw [good_vendor hlim (hid.trans hv), if_neg hno, hsize, if_neg hgo, scanEnd_concat, if_pos hv,
        length_encode_concat, Nat.add_sub_cancel]
      exact and_congr_left fun _ => ⟨fun hw _ => hw, fun hw => hw hv⟩
    · rw [good_other hlim (hid ▸ hv), hsize, scanEnd_concat, if_neg hv, length_encode_concat]
      have hheader : (encode pre).length + 2 ≤ area.toNat := by omega
      exact and_congr_left fun _ => ⟨fun _ h => absurd h hv, fun _ => hheader⟩
  · -- the search has ended before the element
    obtain ⟨-, hb, hbody, -⟩ := of_scanEnd_le hlim hfits
    have hv : e.id ≠ vendorSpecificIe := fun hv => hpass ⟨hv, Or.inr ⟨hb, hbody⟩⟩
    have hlim' : k.scanEnd area pre ≤ (encode (pre ++ [e])).length := by
      rw [length_encode_concat]
      push_cast
      omega
    rw [good_stop hlim, scanEnd_concat, if_neg hv, good_stop hlim']
    exact (and_iff_right fun h => absurd h hv).symm

/-- The elements at the beginning of an area that do not end the loop are passed. -/
theorem good_pass (h : bytesAt m p = encode (pre ++ post) ++ₛ t)
    (harea : (encode (pre ++ post)).length ≤ area.toNat)
    (hpass : k.Passed m p pre) : Good k m p area 0 (k.limit area 0) P ↔
      k.Windows area pre ∧ Good k m p area (encode pre).length (k.scanEnd area pre) P := by
  induction pre using List.reverseRecOn generalizing post with
  | nil =>
    have hnil : k.Windows area [] := fun pre x hpre => by simp at hpre
    exact (and_iff_right hnil).symm
  | append_singleton pre e ih =>
    rw [List.append_assoc, List.singleton_append] at h harea
    have hpre : k.Passed m p pre := fun q x hq => hpass q x (hq.trans (List.prefix_append pre [e]))
    rw [ih h harea hpre, good_step h harea (hpass pre e (List.prefix_refl _)), windows_concat,
      and_assoc]

end Elements

/-! ## When a loop is right -/

/-- The element that is looked for. -/
def IsWanted (k : VendorLoop) (e : Elem) : Bool := Own vendorSpecificIe k.oui e

/-- In a well-formed area the first element that is looked for is found. -/
def Finds (k : VendorLoop) (m : Mem) (p area : ℤ) (res : Option (ℤ × ℕ)) : Prop :=
  ∀ es, m.read p area.toNat = encode es → ∀ x ∈ firstAt k.IsWanted es, res = some (found p x)

/-- The loop comes to an end, reads only bytes of the area, and returns only an element inside of
it. If the area is well-formed and has the element, it finds it. -/
def Right (k : VendorLoop) (m : Mem) (p area : ℤ) : Prop :=
  ∃ fuel r, k.run m area fuel p 0 = some r ∧ r.Inside p area.toNat ∧ k.Finds m p area r.result

/-- The loop ends at an element : the search has ended before it, or what is read of it is in the
area, and it is the first one that is looked for unless there is none. -/
def EndsAt (k : VendorLoop) (m : Mem) (p area : ℤ) (es : List Elem) (rest : List UInt8) : Prop :=
  ∃ pre e, pre ++ [e] <+: es ∧ k.Passed m p pre ∧ k.StopsAt m p pre e ∧
    (k.scanEnd area pre ≤ (encode pre).length ∨
      (encode pre).length + 2 + k.oui.length ≤ area.toNat ∧
        (k.HitAt m (p + (encode pre).length) →
          ∀ d ∈ k.touched (e.body.length + 2), (encode pre).length + d < area.toNat) ∧
        (rest = [] → k.IsWanted e = true ∨ ∀ x ∈ es, k.IsWanted x = false))

/-- The beginning of an element behind the others : another element, whose length leads behind the
end of the search, or a vendor element that is not the right one and whose size is the one of the
whole area or more. -/
def CutSafe (k : VendorLoop) (m : Mem) (p area : ℤ) (es : List Elem) (rest : List UInt8) : Prop :=
  ∃ id len more, rest = id :: len :: more ∧
    if id = vendorSpecificIe then (encode es).length + 2 + k.oui.length ≤ area.toNat ∧
      ¬k.HitAt m (p + (encode es).length) ∧ k.limit area len.toNat ≤ 0
    else k.scanEnd area es ≤ ((encode es).length + (len.toNat + 2) : ℕ)

/-- The loop passes all elements, and the search ends with the area, or before what is behind the
elements does harm. -/
def PassesAll (k : VendorLoop) (m : Mem) (p area : ℤ) (es : List Elem) (rest : List UInt8) : Prop :=
  k.Passed m p es ∧ k.Windows area es ∧ (k.scanEnd area es ≤ (encode es).length ∨ k.CutSafe m p area es rest)

/-- The elements of the area, with the beginning of another one behind them, are safe for the
loop. -/
def Safe (k : VendorLoop) (m : Mem) (p area : ℤ) : Prop :=
  ∃ es rest, m.read p area.toNat = encode es ++ rest ∧ Cut rest ∧
    (k.EndsAt m p area es rest ∨ k.PassesAll m p area es rest)

section Right

variable {k : VendorLoop} {m : Mem} {p area lim : ℤ} {off : ℕ} {e : Elem} {es pre post : List Elem}
  {rest : List UInt8}
  {P : Option (ℤ × ℕ) → Prop} {t : Stream' UInt8}

theorem right_iff_good : k.Right m p area ↔
    Good k m p area 0 (k.limit area 0) (k.Finds m p area) := by
  constructor
  · rintro ⟨fuel, r, hrun, hin, hfinds⟩
    exact ⟨r, run_iff.mp ⟨fuel, hrun⟩, hin, hfinds⟩
  · rintro ⟨r, hscan, hin, hfinds⟩
    obtain ⟨fuel, hrun⟩ := run_iff.mpr hscan
    exact ⟨fuel, r, hrun, hin, hfinds⟩

/-- Behind the area, or in its last byte, nothing may be read. -/
theorem good_behind (h : area.toNat < off + 2) : Good k m p area off lim P ↔
    lim ≤ off ∧ P none := by
  rcases lt_or_ge (off : ℤ) lim with hlim | hlim
  · refine iff_of_false (fun hgood => ?_) fun hle => by omega
    by_cases hid : m (p + off) = vendorSpecificIe
    · rw [good_vendor hlim hid] at hgood
      omega
    · rw [good_other hlim hid] at hgood
      omega
  · rw [good_stop hlim, and_iff_right hlim]

/-- The beginning of an element behind the others. -/
theorem good_cut (h : bytesAt m p = (encode es ++ rest) ++ₛ t)
    (harea : (encode es ++ rest).length = area.toNat)
    (hcut : Cut rest) : Good k m p area (encode es).length (k.scanEnd area es) P ↔
      (k.scanEnd area es ≤ (encode es).length ∨ k.CutSafe m p area es rest) ∧ P none := by
  rw [List.length_append] at harea
  rcases lt_or_ge ((encode es).length : ℤ) (k.scanEnd area es) with hlim | hlim
  · rw [or_iff_right (not_le.mpr hlim)]
    match rest with
    | [] =>
      have hno : ¬k.CutSafe m p area es [] := by
        rintro ⟨id, len, more, hrest, -⟩
        cases hrest
      rw [good_behind (by simp at harea; omega)]
      exact iff_of_false (fun hle => by omega) fun hcutsafe => hno hcutsafe.1
    | [b] =>
      have hno : ¬k.CutSafe m p area es [b] := by
        rintro ⟨id, len, more, hrest, -⟩
        cases hrest
      rw [good_behind (by simp at harea; omega)]
      exact iff_of_false (fun hle => by omega) fun hcutsafe => hno hcutsafe.1
    | id :: len :: more =>
      have hmore := cut_cons_cons.mp hcut
      rw [List.length_cons, List.length_cons] at harea
      have hhead := h
      rw [Stream'.append_append_stream] at hhead
      have hread := bytesAt_drop hhead
      obtain ⟨hid, hlen, -⟩ := IeSearch.header_of_bytesAt hread
      have hsize : sizeAt m (p + (encode es).length) = len.toNat + 2 :=
        congrArg (fun b => b.toNat + 2) hlen
      have hsafe : k.CutSafe m p area es (id :: len :: more) ↔
          if id = vendorSpecificIe then (encode es).length + 2 + k.oui.length ≤ area.toNat ∧
            ¬k.HitAt m (p + (encode es).length) ∧ k.limit area len.toNat ≤ 0
          else k.scanEnd area es ≤ ((encode es).length + (len.toNat + 2) : ℕ) := by
        constructor
        · rintro ⟨id', len', more', hrest, hok⟩
          cases hrest
          exact hok
        · exact fun hok => ⟨id, len, more, rfl, hok⟩
      rw [hsafe]
      split_ifs with hv
      · rw [good_vendor hlim (hid.trans hv), hsize]
        have hend : ¬(encode es).length + (len.toNat + 2) ≤ area.toNat := by omega
        have hgo : ¬(k.beacon = true ∧ len.toNat + 2 = 2) := fun hb => by omega
        split_ifs with hhit
        · exact iff_of_false (fun hbad => hend hbad.2.2.1) fun hbad => hbad.1.2.1 hhit
        · rw [good_behind (by omega), Nat.add_sub_cancel, and_assoc, and_assoc, and_iff_right hhit]
          refine and_congr_right fun _ => and_congr_left fun _ => ?_
          omega
      · rw [good_other hlim (hid ▸ hv), hsize, good_behind (by omega)]
        exact and_iff_right (by omega)
  · rw [good_stop hlim, and_iff_right (Or.inl hlim)]

/-- A list with a cut element behind it is no list of elements. -/
theorem eq_nil_of_cut (hcut : Cut rest) : ∀ {es fs : List Elem}, encode es ++ rest = encode fs →
    rest = [] ∧ es = fs
  | [], [], h => ⟨h, rfl⟩
  | [], f :: fs, h => absurd h (hcut f (encode fs))
  | e :: es, [], h => by
    rw [encode_cons, encode_nil] at h
    simp [Elem.bytes] at h
  | e :: es, f :: fs, h => by
    rw [encode_cons, encode_cons, List.append_assoc] at h
    obtain ⟨he, htail⟩ := Elem.bytes_append_inj h
    obtain ⟨hrest, hes⟩ := eq_nil_of_cut hcut htail
    exact ⟨hrest, by rw [he, hes]⟩

theorem finds_iff (hread : m.read p area.toNat = encode es ++ rest) (hcut : Cut rest)
    {res : Option (ℤ × ℕ)} :
    k.Finds m p area res ↔ (rest = [] → ∀ x ∈ firstAt k.IsWanted es, res = some (found p x)) := by
  constructor
  · rintro h rfl
    exact h es (by rw [hread, List.append_nil])
  · intro h fs hfs
    obtain ⟨hrest, rfl⟩ := eq_nil_of_cut hcut (hread.symm.trans hfs)
    exact h hrest

/-- An element that is looked for ends the loop. -/
theorem stopsAt_of_isWanted (h : bytesAt m p = encode (pre ++ e :: post) ++ₛ t)
    (hwanted : k.IsWanted e = true) :
    k.StopsAt m p pre e ∧ k.HitAt m (p + (encode pre).length) := by
  have hhits := hits_iff.mpr (Or.inl hwanted : _ ∨ Completed vendorSpecificIe k.oui e post t)
  rw [encode_append, Stream'.append_append_stream] at h
  obtain ⟨hid, hbody⟩ := of_decide_eq_true hhits
  have hhit : k.HitAt m (p + (encode pre).length) :=
    (body_of_bytesAt (bytesAt_drop h) _).trans hbody
  exact ⟨⟨hid, Or.inl hhit⟩, hhit⟩

theorem not_isWanted_of_passed (h : bytesAt m p = encode es ++ₛ t) (hpass : k.Passed m p es) :
    ∀ x ∈ es, k.IsWanted x = false := by
  intro x hx
  obtain ⟨pre, post, rfl⟩ := List.append_of_mem hx
  refine Bool.eq_false_iff.mpr fun hwanted => ?_
  refine hpass pre x ⟨post, ?_⟩ (stopsAt_of_isWanted h hwanted).1
  rw [List.append_assoc, List.singleton_append]

/-- The first element that ends the loop. -/
theorem exists_stop (h : ¬k.Passed m p es) :
    ∃ pre e, pre ++ [e] <+: es ∧ k.Passed m p pre ∧ k.StopsAt m p pre e := by
  induction es using List.reverseRecOn with
  | nil => exact absurd (fun pre e hpre => by simp at hpre) h
  | append_singleton es x ih =>
    by_cases hes : k.Passed m p es
    · refine ⟨es, x, List.prefix_refl _, hes, by_contra fun hno => h fun pre e hpre => ?_⟩
      rcases List.prefix_concat_iff.mp hpre with heq | hpre
      · obtain ⟨rfl, hx⟩ := List.append_inj' heq rfl
        obtain rfl := List.singleton_inj.mp hx
        exact hno
      · exact hes pre e hpre
    · obtain ⟨pre, e, hpre, hpass, hstop⟩ := ih hes
      exact ⟨pre, e, hpre.trans (List.prefix_append es [x]), hpass, hstop⟩

theorem stop_unique {q : List Elem} {e' : Elem} (hpre : pre ++ [e] <+: es) (hq : q ++ [e'] <+: es)
    (hpass : k.Passed m p pre) (hpass' : k.Passed m p q) (hstop : k.StopsAt m p pre e)
    (hstop' : k.StopsAt m p q e') :
    pre = q ∧ e = e' := by
  rcases List.prefix_or_prefix_of_prefix hpre hq with hle | hle
  · rcases List.prefix_concat_iff.mp hle with heq | hlt
    · obtain ⟨rfl, he⟩ := List.append_inj' heq rfl
      exact ⟨rfl, List.singleton_inj.mp he⟩
    · exact absurd hstop (hpass' pre e hlt)
  · rcases List.prefix_concat_iff.mp hle with heq | hlt
    · obtain ⟨rfl, he⟩ := List.append_inj' heq rfl
      exact ⟨rfl, (List.singleton_inj.mp he).symm⟩
    · exact absurd hstop' (hpass q e' hlt)

/-- The loop passes all elements of the area. -/
theorem right_of_passed (hread : m.read p area.toNat = encode es ++ rest) (hcut : Cut rest)
    (h : bytesAt m p = (encode es ++ rest) ++ₛ t) (hpass : k.Passed m p es) :
    k.Right m p area ↔ k.PassesAll m p area es rest := by
  have hlen : (encode es ++ rest).length = area.toNat := by rw [← hread, Mem.length_read]
  have hes := h
  rw [Stream'.append_append_stream] at hes
  have hsize : (encode (es ++ [])).length ≤ area.toNat := by
    rw [List.length_append] at hlen
    rw [List.append_nil]
    omega
  have hnone : firstAt k.IsWanted es = none :=
    firstAt_eq_none.mpr (not_isWanted_of_passed hes hpass)
  have hfinds : k.Finds m p area none :=
    (finds_iff hread hcut).mpr fun _ x hx => by simp [hnone] at hx
  have hgood := @good_pass k m p area es []
    (k.Finds m p area) _ (by rw [List.append_nil]; exact hes) hsize hpass
  rw [right_iff_good, hgood, good_cut h hlen hcut, and_iff_left hfinds, PassesAll,
    and_iff_right hpass]

/-- At the element of the hit the search returns what is looked for exactly if it is that element, or
none is looked for. -/
theorem finds_hit_iff (hread : m.read p area.toNat = encode (pre ++ e :: post) ++ rest) (hcut : Cut rest)
    (hpre : ∀ x ∈ pre, k.IsWanted x = false) :
    k.Finds m p area (some (p + (encode pre).length, e.body.length + 2)) ↔
      (rest = [] → k.IsWanted e = true ∨ ∀ x ∈ pre ++ e :: post, k.IsWanted x = false) := by
  have hfirst : firstAt k.IsWanted (pre ++ e :: post) =
      (firstAt k.IsWanted (e :: post)).map fun r => ((encode pre).length + r.1, r.2) :=
        firstAt_append hpre
  rw [finds_iff hread hcut]
  refine imp_congr_right fun _ => ?_
  rw [hfirst, firstAt]
  cases hwanted : k.IsWanted e with
  | true => simp [found]
  | false =>
    rw [if_neg Bool.false_ne_true, or_iff_right Bool.false_ne_true, ← firstAt_eq_none, hfirst,
      firstAt, hwanted,
      if_neg Bool.false_ne_true]
    cases firstAt k.IsWanted post with
    | none => simp
    | some r =>
      -- another element is returned than the one that is looked for
      refine iff_of_false (fun hall => ?_) fun hnone => by simp at hnone
      have hsame := hall _ rfl
      rw [Option.some.injEq, found, Prod.mk.injEq] at hsame
      have haddr := hsame.1
      push_cast at haddr
      omega

/-- A search that returns nothing is right exactly if nothing is looked for. -/
theorem finds_none_iff (hread : m.read p area.toNat = encode (pre ++ e :: post) ++ rest) (hcut : Cut rest)
    (hwanted : k.IsWanted e = false) : k.Finds m p area none ↔
      (rest = [] → k.IsWanted e = true ∨ ∀ x ∈ pre ++ e :: post, k.IsWanted x = false) := by
  rw [finds_iff hread hcut, hwanted]
  refine imp_congr_right fun _ => ?_
  rw [or_iff_right Bool.false_ne_true, ← firstAt_eq_none, Option.eq_none_iff_forall_not_mem]
  exact forall₂_congr fun x _ => iff_of_false (by simp) fun hf => hf

/-- The loop ends at an element. -/
theorem right_of_stop (hread : m.read p area.toNat = encode (pre ++ e :: post) ++ rest)
    (hcut : Cut rest)
    (h : bytesAt m p = encode (pre ++ e :: post) ++ₛ t) (hpass : k.Passed m p pre)
    (hstop : k.StopsAt m p pre e) :
    k.Right m p area ↔ k.scanEnd area pre ≤ (encode pre).length ∨
      (encode pre).length + 2 + k.oui.length ≤ area.toNat ∧
        (k.HitAt m (p + (encode pre).length) →
          ∀ d ∈ k.touched (e.body.length + 2), (encode pre).length + d < area.toNat) ∧
        (rest = [] → k.IsWanted e = true ∨ ∀ x ∈ pre ++ e :: post, k.IsWanted x = false) := by
  have hlen : (encode (pre ++ e :: post) ++ rest).length = area.toNat := by
    rw [← hread, Mem.length_read]
  obtain ⟨hid, hsize⟩ := elem_of_bytesAt h
  obtain ⟨hv, hor⟩ := hstop
  have hpre := not_isWanted_of_passed (t := encode (e :: post) ++ₛ t)
    (by rw [h, encode_append, Stream'.append_append_stream]) hpass
  have hparts : (encode (pre ++ e :: post)).length =
    (encode pre).length + ((e.body.length + 2) + (encode post).length) := by
    rw [encode_append, encode_cons, List.length_append, List.length_append, Elem.length_bytes]
  rw [List.length_append] at hlen
  have harea : (encode (pre ++ e :: post)).length ≤ area.toNat := by omega
  rw [right_iff_good, good_pass h harea hpass]
  rcases lt_or_ge ((encode pre).length : ℤ) (k.scanEnd area pre) with hlim | hlim
  · rw [or_iff_right (not_le.mpr hlim), good_vendor hlim (hid.trans hv), hsize]
    have hwindows : (encode pre).length + 2 + k.oui.length ≤ area.toNat → k.Windows area pre := by
      intro hw q x hq _
      have hsub := length_encode_le (hq.sublist)
      rw [length_encode_concat] at hsub
      omega
    have hfits : (encode pre).length + (e.body.length + 2) ≤ area.toNat := by omega
    by_cases hhit : k.HitAt m (p + (encode pre).length)
    · rw [if_pos hhit, finds_hit_iff hread hcut hpre]
      constructor
      · rintro ⟨-, hw, htouched, -, hf⟩
        exact ⟨hw, fun _ => htouched, hf⟩
      · rintro ⟨hw, htouched, hf⟩
        exact ⟨hwindows hw, hw, htouched hhit, hfits, hf⟩
    · obtain ⟨hb, hbody⟩ := hor.resolve_left hhit
      have hempty : k.beacon = true ∧ e.body.length + 2 = 2 := ⟨hb, by rw [hbody]; rfl⟩
      have hwanted : k.IsWanted e = false :=
        Bool.eq_false_iff.mpr fun hw => hhit (stopsAt_of_isWanted h hw).2
      rw [if_neg hhit, if_pos hempty, finds_none_iff hread hcut hwanted]
      constructor
      · rintro ⟨-, hw, hf⟩
        exact ⟨hw, fun hh => absurd hh hhit, hf⟩
      · rintro ⟨hw, -, hf⟩
        exact ⟨hwindows hw, hw, hf⟩
  · -- the search has ended before the element, which is the last one and has no body
    obtain ⟨hno, -, hbody, hend⟩ := of_scanEnd_le hlim (e := e) (by push_cast; omega)
    have hpost : (encode post).length = 0 := by omega
    have hwanted : ∀ x ∈ pre ++ e :: post, k.IsWanted x = false := by
      have hnil : post = [] := by
        cases post with
        | nil => rfl
        | cons x post => simp [Elem.bytes] at hpost
      intro x hx
      rw [hnil] at hx
      rcases List.mem_append.mp hx with hx | hx
      · exact hpre x hx
      · rw [List.mem_singleton.mp hx, IsWanted, Own, hbody]
        cases k <;> simp [oui]
    have hfinds : k.Finds m p area none :=
      (finds_iff hread hcut).mpr fun _ x hx => by simp [firstAt_eq_none.mpr hwanted] at hx
    have hwindows : k.Windows area pre := by
      intro q x hq hx
      exact absurd hx (hno x (hq.subset (List.mem_append_right q (List.mem_singleton_self x))))
    rw [good_stop hlim]
    exact iff_of_true ⟨hwindows, hfinds⟩ (Or.inl hlim)

end Right

/-- A loop is right exactly if the elements of the area are safe for it. -/
theorem right_iff_safe (k : VendorLoop) (m : Mem) (p area : ℤ) : k.Right m p area ↔ k.Safe m p area := by
  have hbuf : bytesAt m p = m.read p area.toNat ++ₛ bytesAt m (p + area.toNat) := by
    rw [read_eq_take, ← drop_bytesAt, Stream'.append_take_drop]
  have hsplit (es : List Elem) (rest : List UInt8) (hread : m.read p area.toNat = encode es ++ rest)
    (hcut : Cut rest) :
      k.Right m p area ↔ k.EndsAt m p area es rest ∨ k.PassesAll m p area es rest := by
    rw [hread] at hbuf
    by_cases hpass : k.Passed m p es
    · have hno : ¬k.EndsAt m p area es rest :=
        fun ⟨pre, e, hpre, _, hstop, _⟩ => hpass pre e hpre hstop
      rw [right_of_passed hread hcut hbuf hpass, or_iff_right hno]
    · have hno : ¬k.PassesAll m p area es rest := fun h => hpass h.1
      obtain ⟨pre, e, hpre, hpass', hstop⟩ := exists_stop hpass
      rw [or_iff_left hno]
      obtain ⟨post, rfl⟩ := id hpre
      rw [List.append_assoc, List.singleton_append] at hread hbuf hpre ⊢
      rw [Stream'.append_append_stream] at hbuf
      rw [right_of_stop hread hcut hbuf hpass' hstop]
      constructor
      · exact fun h => ⟨pre, e, hpre, hpass', hstop, h⟩
      · rintro ⟨q, x, hq, hpassq, hstopq, h⟩
        obtain ⟨rfl, rfl⟩ := stop_unique hpre hq hpass' hpassq hstop hstopq
        exact h
  obtain ⟨es, rest, hread, hcut⟩ := exists_encode_append_cut (m.read p area.toNat)
  constructor
  · exact fun h => ⟨es, rest, hread, hcut, (hsplit es rest hread hcut).mp h⟩
  · rintro ⟨es, rest, hread, hcut, h⟩
    exact (hsplit es rest hread hcut).mpr h

/-- The area of an association request of a station without WMM : the SSID, the supported rates, and a
vendor element. -/
def sampleVendorArea : List UInt8 :=
  [0, 2, 0x61, 0x70] ++ [1, 4, 0x82, 0x84, 0x8b, 0x96] ++ [vendorSpecificIe, 6, 1, 2, 3, 4, 5, 6]

/-- Behind the vendor element the search goes on for the size of the area. -/
theorem not_right_sampleVendorArea : ¬∀ (k : VendorLoop) (m : Mem) (p area : ℤ), k.Right m p area := by
  intro h
  have hright := h .onAssocReqWmm (Mem.write (fun _ => 0) 0 sampleVendorArea) 0 18
  rw [right_iff_good, good_other (by decide) (by decide), good_other (by decide) (by decide),
    good_vendor (by decide) (by decide), if_neg (by decide), if_neg (by decide),
    good_behind (by decide)] at hright
  exact absurd hright.2.2.2.1 (by decide)

end VendorLoop

end Rtl8188eu
