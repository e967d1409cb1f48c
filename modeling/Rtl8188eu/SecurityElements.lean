import Rtl8188eu.InfoElementLists

/-!
# The WPA and RSN elements of a BSS

`rtw_get_sec_ie` copies the RSN and the WPA element of a scanned BSS. The loop that prints a copied
element counts its bytes with 8 bits in steps of 8, and does not end for an element of more than 248
bytes. The lengths are not written if there is no such element, and what the comparison with the WPA
OUI finds may be a short vendor element (`SecIes.extracts_iff`).
-/

namespace Rtl8188eu

open Tlv

/-! ## The function of the source -/

/-- `_WPA2_IE_ID_`. -/
def wpa2IeId : UInt8 := 0x30
/-- `wpa_oui`, with the type. -/
def wpaOuiType : List UInt8 := [0x00, 0x50, 0xf2, 0x01]

/-- The loop that prints an element of `n` bytes. The counter `i` has 8 bits. -/
def printLoop (n : ℕ) : ℕ → UInt8 → Option Unit
  | 0, _ => none
  | fuel + 1, i => if i.toNat < n then printLoop n fuel (i + 8) else some ()

/-- The element at `a` is copied to a buffer that is given, and printed. -/
def copySecIe (m : Mem) (a : ℤ) (len fuel : ℕ) : Option Mem → Option (Option Mem)
  | none => some none
  | some b => (printLoop len fuel 0).map fun _ => some (b.write 0 (m.read a len))

/-- What the pointers `rsn_ie`, `rsn_len`, `wpa_ie` and `wpa_len` point to. -/
structure SecIes where
  rsnIe : Option Mem
  rsnLen : ℕ
  wpaIe : Option Mem
  wpaLen : ℕ

/-- The loop of `rtw_get_sec_ie`. There is no result without fuel. -/
def getSecIeLoop (m : Mem) (inIe : ℤ) (inLen : ℕ) : ℕ → ℕ → SecIes → Option SecIes
  | 0, _, _ => none
  | fuel + 1, cnt, s =>
    if cnt < inLen then
      let a := inIe + cnt
      let len := (m (a + 1)).toNat + 2
      if m a = vendorSpecificIe ∧ m.read (a + 2) 4 = wpaOuiType then
        (copySecIe m a len fuel s.wpaIe).bind fun b =>
          getSecIeLoop m inIe inLen fuel (cnt + len) { s with wpaIe := b, wpaLen := len }
      else if m a = wpa2IeId then
        (copySecIe m a len fuel s.rsnIe).bind fun b =>
          getSecIeLoop m inIe inLen fuel (cnt + len) { s with rsnIe := b, rsnLen := len }
      else getSecIeLoop m inIe inLen fuel (cnt + len) s
    else some s

/-- `rtw_get_sec_ie`. The elements are behind the time stamp, the interval and the capability. -/
def rtwGetSecIe (m : Mem) (inIe : ℤ) (inLen : ℕ) (s : SecIes) (fuel : ℕ) : Option (ℕ × SecIes) :=
  (getSecIeLoop m inIe inLen fuel 12 s).map fun r => (r.rsnLen + r.wpaLen, r)

/-! ## The loop that prints -/

theorem printLoop_of_le {n : ℕ} (h : n ≤ 248) : printLoop n 32 0 = some () := by
  have hstop : ∀ (k : ℕ) (i : UInt8), i.toNat = 8 * (31 - k) → k ≤ 31 →
      printLoop n (k + 1) i = some () := by
    intro k
    induction k with
    | zero =>
      intro i hi _
      rw [printLoop, if_neg (by omega)]
    | succ k ih =>
      intro i hi hk
      rw [printLoop]
      split
      · refine ih (i + 8) ?_ (by omega)
        rw [UInt8.toNat_add]
        simp only [UInt8.reduceToNat]
        omega
      · rfl
  exact hstop 31 0 rfl le_rfl

/-- Behind 248 the counter starts again at 0. -/
theorem printLoop_of_lt {n : ℕ} (h : 248 < n) : ∀ (fuel : ℕ) (i : UInt8), 8 ∣ i.toNat →
    printLoop n fuel i = none
  | 0, _, _ => rfl
  | fuel + 1, i, hi => by
    have hlt := i.toNat_lt
    rw [printLoop, if_pos (by omega)]
    refine printLoop_of_lt h fuel (i + 8) ?_
    rw [UInt8.toNat_add]
    simp only [UInt8.reduceToNat]
    omega

theorem printLoop_mono {n : ℕ} : ∀ {fuel fuel' : ℕ} {i : UInt8}, printLoop n fuel i = some () →
    fuel ≤ fuel' →
    printLoop n fuel' i = some ()
  | fuel + 1, fuel', i, h, hle => by
    obtain ⟨k, rfl⟩ : ∃ k, fuel' = k + 1 := ⟨fuel' - 1, by omega⟩
    rw [printLoop] at h ⊢
    split at h
    · rename_i hi
      rw [if_pos hi]
      exact printLoop_mono h (by omega)
    · rename_i hi
      rw [if_neg hi]

variable {m : Mem} {p : ℤ} {n : ℕ} {s r : SecIes} {e : Elem} {es : List Elem} {tail : Stream' UInt8}

/-- A buffer behind the copy of an element. -/
def putIe (bs : List UInt8) (b : Option Mem) : Option Mem := b.map fun b => b.write 0 bs

theorem copySecIe_iff {a : ℤ} {len : ℕ} {b b' : Option Mem} :
    (∃ fuel, copySecIe m a len fuel b = some b') ↔
    (b.isSome = true → len ≤ 248) ∧ b' = putIe (m.read a len) b := by
  cases b with
  | none => simp [copySecIe, putIe, eq_comm]
  | some b =>
    simp only [copySecIe, Option.isSome_some, true_implies, putIe, Option.map_some]
    constructor
    · rintro ⟨fuel, h⟩
      obtain ⟨_, hprint, rfl⟩ := Option.map_eq_some_iff.mp h
      refine ⟨?_, rfl⟩
      by_contra hlen
      rw [printLoop_of_lt (by omega) fuel 0 (dvd_zero 8)] at hprint
      cases hprint
    · rintro ⟨hlen, rfl⟩
      refine ⟨32, ?_⟩
      rw [printLoop_of_le hlen]
      rfl

theorem copySecIe_mono {a : ℤ} {len fuel fuel' : ℕ} {b b' : Option Mem}
    (h : copySecIe m a len fuel b = some b')
    (hle : fuel ≤ fuel') : copySecIe m a len fuel' b = some b' := by
  cases b with
  | none => exact h
  | some b =>
    obtain ⟨_, hprint, rfl⟩ := Option.map_eq_some_iff.mp h
    rw [copySecIe, printLoop_mono hprint hle]
    rfl

/-! ## The loop over the elements -/

theorem getSecIeLoop_mono : ∀ {fuel fuel' cnt : ℕ} {s : SecIes},
    getSecIeLoop m p n fuel cnt s = some r → fuel ≤ fuel' → getSecIeLoop m p n fuel' cnt s = some r
  | fuel + 1, fuel', cnt, s, h, hle => by
    obtain ⟨k, rfl⟩ : ∃ k, fuel' = k + 1 := ⟨fuel' - 1, by omega⟩
    have hk : fuel ≤ k := by omega
    unfold getSecIeLoop at h ⊢
    dsimp only at h ⊢
    split at h
    · rename_i hcnt
      rw [if_pos hcnt]
      split at h
      · rename_i hwpa
        obtain ⟨b, hb, hr⟩ := Option.bind_eq_some_iff.mp h
        rw [if_pos hwpa, copySecIe_mono hb hk]
        exact getSecIeLoop_mono hr hk
      rename_i hwpa
      rw [if_neg hwpa]
      split at h
      · rename_i hrsn
        obtain ⟨b, hb, hr⟩ := Option.bind_eq_some_iff.mp h
        rw [if_pos hrsn, copySecIe_mono hb hk]
        exact getSecIeLoop_mono hr hk
      · rename_i hrsn
        rw [if_neg hrsn]
        exact getSecIeLoop_mono h hk
    · rename_i hcnt
      rw [if_neg hcnt]
      exact h

/-- The loop ends with `r`. -/
def Ends (m : Mem) (p : ℤ) (n cnt : ℕ) (s r : SecIes) : Prop := ∃ fuel, getSecIeLoop m p n fuel cnt s = some r

/-- The comparison with the WPA OUI. -/
def wpaHit (tail : Stream' UInt8) (e : Elem) (es : List Elem) : Bool := hits vendorSpecificIe wpaOuiType e es tail

/-- An RSN element. -/
def IsRsn (e : Elem) : Bool := decide (e.id = wpa2IeId)

/-- What the loop does with an element. -/
def secStep (tail : Stream' UInt8) (e : Elem) (es : List Elem) (s : SecIes) : SecIes :=
  if wpaHit tail e es then { s with wpaIe := putIe e.bytes s.wpaIe, wpaLen := e.bytes.length }
  else if IsRsn e then { s with rsnIe := putIe e.bytes s.rsnIe, rsnLen := e.bytes.length }
  else s

/-- The element is not copied, or printing it ends. -/
def Printable (tail : Stream' UInt8) (rsn wpa : Bool) (e : Elem) (es : List Elem) : Prop :=
  (wpa = true → wpaHit tail e es = true → e.bytes.length ≤ 248) ∧
    (rsn = true → IsRsn e = true → e.bytes.length ≤ 248)

theorem not_isRsn_of_wpaHit (h : wpaHit tail e es = true) : IsRsn e = false := by
  have hid : e.id = vendorSpecificIe := (of_decide_eq_true h).1
  rw [IsRsn, hid]
  decide

theorem ends_done {cnt : ℕ} (h : n ≤ cnt) : Ends m p n cnt s r ↔ r = s := by
  constructor
  · rintro ⟨fuel, hr⟩
    cases fuel with
    | zero => cases hr
    | succ k =>
      rw [getSecIeLoop, if_neg (by omega)] at hr
      exact (Option.some.inj hr).symm
  · rintro rfl
    exact ⟨1, by rw [getSecIeLoop, if_neg (by omega)]⟩

/-- A copy and the rest of the loop end together. -/
theorem exists_bind_iff {cnt len : ℕ} {a : ℤ} {b : Option Mem} {f : Option Mem → SecIes} :
    (∃ fuel, ((copySecIe m a len fuel b).bind fun b => getSecIeLoop m p n fuel cnt (f b)) =
    some r) ↔
      (b.isSome = true → len ≤ 248) ∧ Ends m p n cnt (f (putIe (m.read a len) b)) r := by
  constructor
  · rintro ⟨fuel, h⟩
    obtain ⟨b', hb, hr⟩ := Option.bind_eq_some_iff.mp h
    obtain ⟨hlen, rfl⟩ := copySecIe_iff.mp ⟨fuel, hb⟩
    exact ⟨hlen, fuel, hr⟩
  · rintro ⟨hlen, k, hr⟩
    obtain ⟨j, hj⟩ := copySecIe_iff.mpr ⟨hlen, rfl⟩
    refine ⟨max j k, ?_⟩
    rw [copySecIe_mono hj (le_max_left j k)]
    exact getSecIeLoop_mono hr (le_max_right j k)

theorem ends_cons {cnt : ℕ} (h : bytesAt m (p + cnt) = encode (e :: es) ++ₛ tail) (hn : cnt < n) :
    Ends m p n cnt s r ↔ Printable tail s.rsnIe.isSome s.wpaIe.isSome e es ∧
      Ends m p n (cnt + e.bytes.length) (secStep tail e es s) r := by
  have hfuel : Ends m p n cnt s r ↔ ∃ fuel, getSecIeLoop m p n (fuel + 1) cnt s = some r := by
    constructor
    · rintro ⟨fuel, hr⟩
      exact ⟨fuel, getSecIeLoop_mono hr (Nat.le_succ fuel)⟩
    · rintro ⟨fuel, hr⟩
      exact ⟨fuel + 1, hr⟩
  have hlen : (m (p + cnt + 1)).toNat + 2 = e.bytes.length := by
    rw [len_of_bytesAt h, Elem.length_bytes]
  have hread : m.read (p + cnt) e.bytes.length = e.bytes := by
    rw [encode_cons, Stream'.append_append_stream] at h
    exact read_of_bytesAt h
  have hwpa : (m (p + cnt) = vendorSpecificIe ∧ m.read (p + cnt + 2) 4 = wpaOuiType) ↔
    wpaHit tail e es = true := by
    have hhits := @hits_of_bytesAt m (p + cnt) tail e es vendorSpecificIe (some wpaOuiType) h
    rw [Option.getD_some] at hhits
    rw [wpaHit, ← hhits, eq_comm]
    simp [wpaOuiType]
  have hid := id_of_bytesAt h
  rw [hfuel, Printable, secStep]
  simp only [getSecIeLoop, if_pos hn, hlen]
  by_cases hhit : wpaHit tail e es = true
  · simp only [if_pos (hwpa.mpr hhit), if_pos hhit, not_isRsn_of_wpaHit hhit]
    rw [exists_bind_iff (f := fun b => { s with wpaIe := b, wpaLen := e.bytes.length }), hread]
    simp [hhit]
  by_cases hrsn : IsRsn e = true
  · have hrsn' : m (p + cnt) = wpa2IeId := by
      rw [hid]
      exact of_decide_eq_true hrsn
    simp only [if_neg (mt hwpa.mp hhit), if_neg hhit, if_pos hrsn, if_pos hrsn']
    rw [exists_bind_iff (f := fun b => { s with rsnIe := b, rsnLen := e.bytes.length }), hread]
    simp [hhit, hrsn]
  · have hrsn' : ¬m (p + cnt) = wpa2IeId := by
      rw [hid]
      exact of_decide_eq_false (Bool.eq_false_iff.mpr hrsn)
    simp only [if_neg (mt hwpa.mp hhit), if_neg hhit, if_neg hrsn, if_neg hrsn']
    simp [hhit, hrsn, Ends]

/-- The cells after a list. -/
def secFold (tail : Stream' UInt8) : List Elem → SecIes → SecIes
  | [], s => s
  | e :: es, s => secFold tail es (secStep tail e es s)

/-- What holds of each element and those behind it holds of the first and of the others. -/
theorem forall_behind_cons {P : Elem → List Elem → Prop} :
    (∀ pre x post, e :: es = pre ++ x :: post → P x post) ↔
      P e es ∧ ∀ pre x post, es = pre ++ x :: post → P x post := by
  constructor
  · intro h
    exact ⟨h [] e es rfl, fun pre x post hes => h (e :: pre) x post (by rw [hes, List.cons_append])⟩
  · rintro ⟨he, h⟩ pre x post hes
    cases pre with
    | nil =>
      obtain ⟨rfl, rfl⟩ := List.cons.inj hes
      exact he
    | cons y pre => exact h pre x post (List.cons.inj hes).2

/-- All elements of a list that are copied can be printed. -/
def AllPrintable (tail : Stream' UInt8) (rsn wpa : Bool) (es : List Elem) : Prop :=
  ∀ pre e post, es = pre ++ e :: post → Printable tail rsn wpa e post

theorem allPrintable_cons {rsn wpa : Bool} : AllPrintable tail rsn wpa (e :: es) ↔
    Printable tail rsn wpa e es ∧ AllPrintable tail rsn wpa es :=
  forall_behind_cons

theorem isSome_putIe (bs : List UInt8) (b : Option Mem) : (putIe bs b).isSome = b.isSome :=
    Option.isSome_map

theorem isSome_secStep : (secStep tail e es s).rsnIe.isSome = s.rsnIe.isSome ∧
    (secStep tail e es s).wpaIe.isSome = s.wpaIe.isSome := by
  unfold secStep
  split
  · exact ⟨rfl, isSome_putIe _ _⟩
  · split
    · exact ⟨isSome_putIe _ _, rfl⟩
    · exact ⟨rfl, rfl⟩

theorem ends_iff : ∀ {es : List Elem} {cnt : ℕ} {s : SecIes}, bytesAt m
    (p + cnt) = encode es ++ₛ tail →
    n = cnt + (encode es).length →
    (Ends m p n cnt s r ↔ AllPrintable tail s.rsnIe.isSome s.wpaIe.isSome es ∧
    r = secFold tail es s)
  | [], cnt, s, _, hn => by
    rw [ends_done (by simp [hn]), secFold]
    exact (and_iff_right fun pre e post h => by simp at h).symm
  | e :: es, cnt, s, h, hn => by
    have hnext := next_of_bytesAt h
    rw [encode_cons, List.length_append, Elem.length_bytes] at hn
    rw [add_assoc, ← Nat.cast_add] at hnext
    rw [ends_cons h (by omega), Elem.length_bytes, ends_iff hnext (by omega), isSome_secStep.1,
      isSome_secStep.2,
      allPrintable_cons, secFold, and_assoc]

/-! ## What is reported -/

theorem secFold_isSome : ∀ {es : List Elem} {s : SecIes},
    (secFold tail es s).rsnIe.isSome = s.rsnIe.isSome ∧
    (secFold tail es s).wpaIe.isSome = s.wpaIe.isSome
  | [], _ => ⟨rfl, rfl⟩
  | e :: es, s => by
    obtain ⟨h₁, h₂⟩ := @secFold_isSome es (secStep tail e es s)
    exact ⟨h₁.trans isSome_secStep.1, h₂.trans isSome_secStep.2⟩

/-- A buffer and a length hold the element `last`, or what they held before if there is none. -/
def Holds (ie₀ : Option Mem) (len₀ : ℕ) (ie : Option Mem) (len : ℕ) : Option Elem → Prop
  | none => ie = ie₀ ∧ len = len₀
  | some e => (∃ b, ie = putIe e.bytes b) ∧ len = e.bytes.length

theorem holds_cons {f : Elem → List Elem → Bool} {ie₀ ie : Option Mem} {len₀ len : ℕ}
    (h : Holds (if f e es then putIe e.bytes ie₀ else ie₀)
    (if f e es then e.bytes.length else len₀) ie len
      (lastWith f es)) :
    Holds ie₀ len₀ ie len (lastWith f (e :: es)) := by
  rw [lastWith]
  cases hlast : lastWith f es with
  | some x =>
    rw [hlast] at h
    exact h
  | none =>
    rw [hlast] at h
    obtain ⟨hie, hlen⟩ := h
    cases hf : f e es with
    | false =>
      rw [hf] at hie hlen
      exact ⟨hie, hlen⟩
    | true =>
      rw [hf] at hie hlen
      exact ⟨⟨ie₀, hie⟩, hlen⟩

theorem holds_secFold : ∀ {es : List Elem} {s : SecIes},
    Holds s.rsnIe s.rsnLen (secFold tail es s).rsnIe (secFold tail es s).rsnLen
      (lastWith (fun e _ => IsRsn e) es) ∧
      Holds s.wpaIe s.wpaLen (secFold tail es s).wpaIe (secFold tail es s).wpaLen
        (lastWith (wpaHit tail) es)
  | [], _ => ⟨⟨rfl, rfl⟩, rfl, rfl⟩
  | e :: es, s => by
    obtain ⟨hrsn, hwpa⟩ := @holds_secFold es (secStep tail e es s)
    rw [secFold]
    refine ⟨holds_cons ?_, holds_cons ?_⟩
    · convert hrsn using 1
      · unfold secStep
        cases hhit : wpaHit tail e es with
        | true => simp [not_isRsn_of_wpaHit hhit]
        | false => cases IsRsn e <;> rfl
      · unfold secStep
        cases hhit : wpaHit tail e es with
        | true => simp [not_isRsn_of_wpaHit hhit]
        | false => cases IsRsn e <;> rfl
    · convert hwpa using 1
      · unfold secStep
        cases wpaHit tail e es <;> cases IsRsn e <;> rfl
      · unfold secStep
        cases wpaHit tail e es <;> cases IsRsn e <;> rfl

/-- The element is reported : its length, which is 0 without one, and its bytes in the buffer that
is given. -/
def Reported (last : Option Elem) (given ie : Option Mem) (len : ℕ) : Prop :=
  len = last.elim 0 (fun e => e.bytes.length) ∧ ie.isSome = given.isSome ∧
    ∀ b ∈ ie, ∀ e ∈ last, Mem.Holds b 0 e.bytes

/-- What is held is what is to be reported, and a length of 0 was held if there is nothing to
report. -/
theorem secIe_reported_iff {hit last : Option Elem} {given ie : Option Mem} {len₀ len : ℕ}
    (hh : Holds given len₀ ie len hit) (hie : ie.isSome = given.isSome)
    (hnone : hit = none → last = none)
    (hlen : ∀ x ∈ hit, ∀ e ∈ last, x.bytes.length = e.bytes.length → x = e) :
    Reported last given ie len ↔ hit = last ∧ (last = none → len₀ = 0) := by
  cases hit with
  | none =>
    obtain ⟨rfl, rfl⟩ := hh
    obtain rfl := hnone rfl
    simp [Reported]
  | some x =>
    obtain ⟨⟨b, rfl⟩, rfl⟩ := hh
    constructor
    · rintro ⟨hl, -, -⟩
      cases last with
      | none => simp at hl
      | some e =>
        obtain rfl := hlen x rfl e rfl hl
        exact ⟨rfl, fun h => by cases h⟩
    · rintro ⟨rfl, -⟩
      refine ⟨rfl, hie, ?_⟩
      rintro b' hb' e he
      obtain rfl : x = e := Option.some.inj he
      obtain ⟨b, rfl, rfl⟩ := Option.map_eq_some_iff.mp hb'
      exact Mem.read_write_self b 0 x.bytes

/-- A WPA element. -/
def IsWpa (e : Elem) : Bool := Own vendorSpecificIe wpaOuiType e

theorem four_le_of_isWpa (h : IsWpa e = true) : 4 ≤ e.body.length := by
  rw [IsWpa, Own, Bool.and_eq_true, List.isPrefixOf_iff_prefix] at h
  exact h.2.length_le

theorem wpaHit_of_isWpa (h : IsWpa e = true) : wpaHit tail e es = true := hits_iff.mpr (Or.inl h)

/-- A short element that is completed to a WPA element. -/
def Mistaken (tail : Stream' UInt8) (e : Elem) (es : List Elem) : Prop :=
  Completed vendorSpecificIe wpaOuiType e es tail

theorem wpaHit_iff : wpaHit tail e es = true ↔ IsWpa e = true ∨ Mistaken tail e es := hits_iff

/-- Where nothing is taken for a WPA element there is none. -/
theorem lastWith_isWpa_eq_none (h : lastWith (wpaHit tail) es = none) :
    lastWith (fun e _ => IsWpa e) es = none := by
  rw [lastWith_own_eq_none]
  intro e he
  obtain ⟨pre, post, rfl⟩ := List.append_of_mem he
  rw [Bool.eq_false_iff]
  intro hw
  have hno := lastWith_eq_none.mp h pre e post rfl
  rw [wpaHit_of_isWpa hw] at hno
  cases hno

/-- What is taken for the last WPA element is it, or a short element. -/
theorem lastWith_wpaHit_cases : ∀ {es : List Elem} {x : Elem}, lastWith (wpaHit tail) es = some x →
    lastWith (fun e _ => IsWpa e) es = some x ∨ x.body.length < 4
  | e :: es, x, h => by
    rw [lastWith, Option.or_eq_some_iff] at h
    rw [lastWith]
    rcases h with h | ⟨hnone, h⟩
    · rcases lastWith_wpaHit_cases h with h | h
      · exact Or.inl (by rw [h, Option.some_or])
      · exact Or.inr h
    · rw [Option.ite_none_right_eq_some] at h
      obtain ⟨hhit, hx⟩ := h
      obtain rfl : e = x := Option.some.inj hx
      rcases wpaHit_iff.mp hhit with hown | hmis
      · exact Or.inl (by rw [lastWith_isWpa_eq_none hnone, Option.none_or, if_pos hown])
      · exact Or.inr hmis.2.1

/-- Behind every short element that is mistaken for a WPA element there is one. -/
def Corrected (tail : Stream' UInt8) (es : List Elem) : Prop :=
  ∀ pre e post, es = pre ++ e :: post → Mistaken tail e post → ∃ x ∈ post, IsWpa x = true

theorem corrected_cons : Corrected tail (e :: es) ↔
    (Mistaken tail e es → ∃ x ∈ es, IsWpa x = true) ∧ Corrected tail es :=
  forall_behind_cons (P := fun e post => Mistaken tail e post → ∃ x ∈ post, IsWpa x = true)

theorem lastWith_wpaHit_iff : ∀ {es : List Elem},
    lastWith (wpaHit tail) es = lastWith (fun e _ => IsWpa e) es ↔ Corrected tail es
  | [] => ⟨fun _ pre e post h => by simp at h, fun _ => rfl⟩
  | e :: es => by
    have ih := @lastWith_wpaHit_iff es
    have hcases := @lastWith_wpaHit_cases tail es
    have hown := @lastWith_own_eq_none IsWpa es
    rw [corrected_cons, ← ih, lastWith, lastWith]
    cases hlast : lastWith (fun e _ => IsWpa e) es with
    | some x =>
      have hx : ∃ x ∈ es, IsWpa x = true := by
        by_contra hno
        push Not at hno
        rw [hown.mpr fun y hy => Bool.eq_false_iff.mpr (hno y hy)] at hlast
        cases hlast
      cases hhit : lastWith (wpaHit tail) es with
      | none =>
        rw [lastWith_isWpa_eq_none hhit] at hlast
        cases hlast
      | some y => simp [hx]
    | none =>
      have hno : ¬∃ x ∈ es, IsWpa x = true := by
        rintro ⟨x, hx, hxw⟩
        rw [hown.mp hlast x hx] at hxw
        cases hxw
      cases hhit : lastWith (wpaHit tail) es with
      | none =>
        rw [Option.none_or, Option.none_or, and_iff_left rfl, imp_iff_not hno]
        cases hw : IsWpa e with
        | true => simp [wpaHit_of_isWpa hw, show ¬Mistaken tail e es from not_completed_of_own hw]
        | false =>
          have hor := @wpaHit_iff e es tail
          rw [hw] at hor
          cases hhit' : wpaHit tail e es <;> simp_all
      | some y =>
        -- What is found behind `e` is short, and `e` is not if it is a WPA element.
        have hshort : y.body.length < 4 := by
          rcases hcases hhit with h | h
          · rw [hlast] at h
            cases h
          · exact h
        have hne : ¬(if IsWpa e then some e else none) = some y := by
          rw [Option.ite_none_right_eq_some]
          rintro ⟨hw, hey⟩
          obtain rfl : e = y := Option.some.inj hey
          have hlong := four_le_of_isWpa hw
          omega
        rw [Option.some_or, Option.none_or]
        exact ⟨fun h => absurd h.symm hne, fun h => by cases h.2⟩

/-! ## When both elements are reported -/

namespace SecIes

/-- `rtw_get_sec_ie` ends, returns the sum of the lengths, and reports the last RSN and the last WPA
element. -/
def Extracts (m : Mem) (inIe : ℤ) (es : List Elem) (s : SecIes) : Prop :=
  ∃ fuel r, rtwGetSecIe m inIe (12 + (encode es).length) s fuel = some (r.rsnLen + r.wpaLen, r) ∧
    Reported (lastWith (fun e _ => IsRsn e) es) s.rsnIe r.rsnIe r.rsnLen ∧
    Reported (lastWith (fun e _ => IsWpa e) es) s.wpaIe r.wpaIe r.wpaLen

/-- Every element that is copied can be printed, every short element that is taken for a WPA element
has a WPA element behind it, and the caller has cleared the length of an element that is not
there. -/
def Extractable (tail : Stream' UInt8) (es : List Elem) (s : SecIes) : Prop :=
  AllPrintable tail s.rsnIe.isSome s.wpaIe.isSome es ∧ Corrected tail es ∧
    ((∀ e ∈ es, IsRsn e = false) → s.rsnLen = 0) ∧ ((∀ e ∈ es, IsWpa e = false) → s.wpaLen = 0)

theorem extracts_of_bytesAt (h : bytesAt m (p + 12) = encode es ++ₛ tail) (s : SecIes) :
    Extracts m p es s ↔ Extractable tail es s := by
  have hends : Extracts m p es s ↔ ∃ r, Ends m p (12 + (encode es).length) 12 s r ∧
      Reported (lastWith (fun e _ => IsRsn e) es) s.rsnIe r.rsnIe r.rsnLen ∧
      Reported (lastWith (fun e _ => IsWpa e) es) s.wpaIe r.wpaIe r.wpaLen := by
    constructor
    · rintro ⟨fuel, r, hr, hrsn, hwpa⟩
      obtain ⟨r', hr', heq⟩ := Option.map_eq_some_iff.mp hr
      obtain rfl : r' = r := (Prod.mk.inj heq).2
      exact ⟨r', ⟨fuel, hr'⟩, hrsn, hwpa⟩
    · rintro ⟨r, ⟨fuel, hr⟩, hrsn, hwpa⟩
      exact ⟨fuel, r, by rw [rtwGetSecIe, hr, Option.map_some], hrsn, hwpa⟩
  obtain ⟨hrsn, hwpa⟩ := @holds_secFold tail es s
  obtain ⟨hrsnIe, hwpaIe⟩ := @secFold_isSome tail es s
  have hiff (r : SecIes) := @ends_iff m p _ r tail es 12 s h rfl
  have hrsn' := secIe_reported_iff hrsn hrsnIe (fun h => h) fun x hx e he _ => by
    rw [hx] at he
    exact Option.some.inj he
  have hwpa' := @secIe_reported_iff _ (lastWith (fun e _ => IsWpa e) es) _ _ _ _ hwpa hwpaIe
    lastWith_isWpa_eq_none
    (fun x hx e he hlen => by
      rcases lastWith_wpaHit_cases hx with hown | hshort
      · rw [hown] at he
        exact Option.some.inj he
      · have hlong := four_le_of_isWpa (lastWith_own_eq_some he)
        rw [Elem.length_bytes, Elem.length_bytes] at hlen
        omega)
  rw [hends, Extractable, ← lastWith_wpaHit_iff, ← @lastWith_own_eq_none IsRsn,
    ← @lastWith_own_eq_none IsWpa]
  constructor
  · rintro ⟨r, hr, h₁, h₂⟩
    obtain ⟨hall, rfl⟩ := (hiff r).mp hr
    obtain ⟨heq, hz⟩ := hwpa'.mp h₂
    exact ⟨hall, heq, (hrsn'.mp h₁).2, hz⟩
  · rintro ⟨hall, heq, h₁, h₂⟩
    exact ⟨_, (hiff _).mpr ⟨hall, rfl⟩, hrsn'.mpr ⟨rfl, h₁⟩, hwpa'.mpr ⟨heq, h₂⟩⟩

/-- For a list of elements behind the 12 fixed bytes both elements are reported exactly if it is
extractable. -/
theorem extracts_iff (m₀ : Mem) (inIe : ℤ) (es : List Elem) (s : SecIes) :
    Extracts (m₀.write (inIe + 12) (encode es)) inIe es s ↔
      Extractable (bytesAt m₀ (inIe + 12 + (encode es).length)) es s :=
  extracts_of_bytesAt (bytesAt_write m₀ (inIe + 12) (encode es)) s

/-- An RSN element of 249 bytes is copied, and printing it does not end. -/
theorem not_extracts_longRsn : ¬∀ (m₀ : Mem) (inIe : ℤ) (es : List Elem) (s : SecIes),
    Extracts (m₀.write (inIe + 12) (encode es)) inIe es s := by
  intro h
  let e : Elem := ⟨wpa2IeId, List.replicate 247 0, List.length_replicate.le.trans (by decide)⟩
  have hiff := extracts_of_bytesAt (bytesAt_write (fun _ => 0) (0 + 12) (encode [e]))
    ⟨some fun _ => 0, 0, none, 0⟩
  have hall := (hiff.mp (h (fun _ => 0) 0 [e] _)).1
  have hle := (hall [] e [] rfl).2 rfl rfl
  rw [Elem.length_bytes, List.length_replicate] at hle
  omega

end SecIes

end Rtl8188eu
