import Mathlib.Data.UInt
import Rtl8188eu.Mixing
import Rtl8188eu.Tkip

/-!
# The packet keys of TKIP

`phase1` and `phase2` of `core/rtw_security.c` mix the transmitter address and the packet
number with the temporal key. Each line of both adds to one 16-bit word a function of
another word, so the mixing is a permutation of 96 bits under every temporal key
(`tkip_bijective`), and no two packets of a transmitter, or of two, get the same key.
-/

namespace Rtl8188eu

open Mixing

/-- What the key of a packet depends on. -/
structure TkipPacket where
  ta : Vector UInt8 6
  iv32 : UInt32
  iv16 : UInt16
  deriving DecidableEq

namespace TkipPacket

/-- The RC4 key of the packet. -/
def rc4key (tk : Vector UInt8 16) (x : TkipPacket) : List UInt8 :=
  phase2 tk.toList (phase1 tk.toList x.ta.toList x.iv32) x.iv16

/-- The bytes 4 to 15 of the key. -/
def mixed (tk : Vector UInt8 16) (x : TkipPacket) : Vector UInt8 12 :=
  Vector.ofFn fun i => (x.rc4key tk).getD (4 + i) 0

/-! ## Phase 1 -/

/-- The words of `p1k`. -/
def words (p : P1k) : Fin 5 → UInt16 := ![p.k0, p.k1, p.k2, p.k3, p.k4]

theorem bijective_words : Function.Bijective words := by
  refine Function.bijective_iff_has_inverse.mpr
    ⟨fun x => ⟨x 0, x 1, x 2, x 3, x 4⟩, fun p => rfl, fun x => ?_⟩
  ext i
  fin_cases i <;> rfl

/-- The S-box on a word with a word of the temporal key. -/
def sub (tk : List UInt8) (n : ℕ) (v : UInt16) : UInt16 := tkipS (v ^^^ tk16 tk n)

/-- The lines of the loop of `phase1`. -/
def roundSteps (tk : List UInt8) (i : ℕ) : List (Step (Fin 5) UInt16) :=
  [.ofWord 0 4 (by decide) (sub tk (i % 2 + 0)), .ofWord 1 0 (by decide) (sub tk (i % 2 + 2)),
    .ofWord 2 1 (by decide) (sub tk (i % 2 + 4)), .ofWord 3 2 (by decide) (sub tk (i % 2 + 6)),
    .ofWord 4 3 (by decide) (sub tk (i % 2 + 0)), .const 4 (UInt16.ofNat i)]

theorem words_phase1Round (tk : List UInt8) (p : P1k) (i : ℕ) :
    words (phase1Round tk p i) = run (roundSteps tk i) (words p) := by
  funext j
  fin_cases j <;> rfl

/-- The turns of the loop of `phase1` are a run of steps. -/
theorem words_foldl_phase1Round (tk : List UInt8) : ∀ (is : List ℕ) (p : P1k),
    words (is.foldl (phase1Round tk) p) = run (is.flatMap (roundSteps tk)) (words p)
  | [], _ => rfl
  | i :: is, p => by
    rw [List.foldl_cons, words_foldl_phase1Round tk is, words_phase1Round, List.flatMap_cons, run,
      run, run, List.foldl_append]

/-- The words that `phase1` begins with. -/
def firstWords (x : Vector UInt8 6 × UInt32) : P1k where
  k0 := x.2.toUInt16
  k1 := (x.2 >>> 16).toUInt16
  k2 := mk16 (x.1.toList.getD 1 0) (x.1.toList.getD 0 0)
  k3 := mk16 (x.1.toList.getD 3 0) (x.1.toList.getD 2 0)
  k4 := mk16 (x.1.toList.getD 5 0) (x.1.toList.getD 4 0)

theorem lo8_mk16 (h l : UInt8) : lo8 (mk16 h l) = l := by
  have hl := l.toNat_lt
  refine UInt8.toNat_inj.mp ?_
  rw [lo8, UInt16.toNat_toUInt8, toNat_mk16]
  omega

theorem hi8_mk16 (h l : UInt8) : hi8 (mk16 h l) = h := by
  have hl := l.toNat_lt
  have hh := h.toNat_lt
  refine UInt8.toNat_inj.mp ?_
  rw [hi8, UInt16.toNat_toUInt8, UInt16.toNat_shiftRight, toNat_mk16]
  change ((l.toNat + 256 * h.toNat) >>> 8) % 256 = _
  rw [Nat.shiftRight_eq_div_pow]
  omega

theorem mk16_hi8_lo8 (v : UInt16) : mk16 (hi8 v) (lo8 v) = v := by
  have hv := v.toNat_lt
  refine UInt16.toNat_inj.mp ?_
  rw [toNat_mk16, hi8, lo8, UInt16.toNat_toUInt8, UInt16.toNat_toUInt8, UInt16.toNat_shiftRight]
  change v.toNat % 256 + 256 * ((v.toNat >>> 8) % 256) = _
  rw [Nat.shiftRight_eq_div_pow]
  omega

/-- A 32-bit value by its halves. -/
theorem toNat_halves (v : UInt32) :
    v.toUInt16.toNat + 65536 * (v >>> 16).toUInt16.toNat = v.toNat := by
  have hv := v.toNat_lt
  rw [UInt32.toNat_toUInt16, UInt32.toNat_toUInt16, UInt32.toNat_shiftRight]
  change v.toNat % 65536 + 65536 * ((v.toNat >>> 16) % 65536) = _
  rw [Nat.shiftRight_eq_div_pow]
  omega

theorem bijective_firstWords : Function.Bijective firstWords := by
  refine Function.bijective_iff_has_inverse.mpr
    ⟨fun p => (#v[lo8 p.k2, hi8 p.k2, lo8 p.k3, hi8 p.k3, lo8 p.k4, hi8 p.k4],
      UInt32.ofNat (p.k0.toNat + 65536 * p.k1.toNat)), fun x => Prod.ext ?_ ?_, fun p => ?_⟩
  · obtain ⟨ta, iv32⟩ := x
    refine Vector.ext fun i hi => ?_
    interval_cases i
    all_goals
      simp only [firstWords, lo8_mk16, hi8_mk16]
      simp
  · change UInt32.ofNat (x.2.toUInt16.toNat + 65536 * (x.2 >>> 16).toUInt16.toNat) = x.2
    rw [toNat_halves, UInt32.ofNat_toNat]
  · have h0 := p.k0.toNat_lt
    have h1 := p.k1.toNat_lt
    set v := UInt32.ofNat (p.k0.toNat + 65536 * p.k1.toNat) with hv
    have hhalves := toNat_halves v
    have hnat : v.toNat = p.k0.toNat + 65536 * p.k1.toNat := by
      rw [hv, UInt32.toNat_ofNat']
      omega
    have hlow := v.toUInt16.toNat_lt
    have hk0 : v.toUInt16 = p.k0 := UInt16.toNat_inj.mp (by omega)
    have hk1 : (v >>> 16).toUInt16 = p.k1 := UInt16.toNat_inj.mp (by omega)
    obtain ⟨k0, k1, k2, k3, k4⟩ := p
    rw [firstWords, P1k.mk.injEq]
    exact ⟨hk0, hk1, mk16_hi8_lo8 k2, mk16_hi8_lo8 k3, mk16_hi8_lo8 k4⟩

/-! ## Phase 2 -/

/-- The words `PPK`, when `IV16` is added. -/
def ppk (x : P1k × UInt16) : Fin 6 → UInt16 :=
  ![x.1.k0, x.1.k1, x.1.k2, x.1.k3, x.1.k4, x.1.k4 + x.2]

theorem bijective_ppk : Function.Bijective ppk := by
  refine Function.bijective_iff_has_inverse.mpr
    ⟨fun x => (⟨x 0, x 1, x 2, x 3, x 4⟩, x 5 - x 4), fun x => Prod.ext rfl ?_, fun x => ?_⟩
  · change x.1.k4 + x.2 - x.1.k4 = x.2
    exact add_sub_cancel_left _ _
  · funext i
    fin_cases i
    · rfl
    · rfl
    · rfl
    · rfl
    · rfl
    · change x 4 + (x 5 - x 4) = x 5
      exact add_sub_cancel _ _

/-- The lines of `phase2` that mix the words. -/
def mixSteps (tk : List UInt8) : List (Step (Fin 6) UInt16) :=
  [.ofWord 0 5 (by decide) (sub tk 0), .ofWord 1 0 (by decide) (sub tk 1),
    .ofWord 2 1 (by decide) (sub tk 2), .ofWord 3 2 (by decide) (sub tk 3),
    .ofWord 4 3 (by decide) (sub tk 4), .ofWord 5 4 (by decide) (sub tk 5),
    .ofWord 0 5 (by decide) fun v => rotR1 (v ^^^ tk16 tk 6),
    .ofWord 1 0 (by decide) fun v => rotR1 (v ^^^ tk16 tk 7),
    .ofWord 2 1 (by decide) rotR1, .ofWord 3 2 (by decide) rotR1,
    .ofWord 4 3 (by decide) rotR1, .ofWord 5 4 (by decide) rotR1]

/-- The bytes of the words, the low byte of each first. -/
def bytes (x : Fin 6 → UInt16) : Vector UInt8 12 :=
  #v[lo8 (x 0), hi8 (x 0), lo8 (x 1), hi8 (x 1), lo8 (x 2), hi8 (x 2), lo8 (x 3), hi8 (x 3),
    lo8 (x 4), hi8 (x 4), lo8 (x 5), hi8 (x 5)]

theorem bijective_bytes : Function.Bijective bytes := by
  refine Function.bijective_iff_has_inverse.mpr
    ⟨fun v => ![mk16 v[1] v[0], mk16 v[3] v[2], mk16 v[5] v[4], mk16 v[7] v[6], mk16 v[9] v[8],
      mk16 v[11] v[10]], fun x => ?_, fun v => ?_⟩
  · funext i
    fin_cases i <;> exact mk16_hi8_lo8 _
  · refine Vector.ext fun i hi => ?_
    interval_cases i
    all_goals first
      | exact lo8_mk16 _ _
      | exact hi8_mk16 _ _

theorem phase2_bytes (tk : List UInt8) (p : P1k) (iv16 : UInt16) :
    (Vector.ofFn fun i : Fin 12 => (phase2 tk p iv16).getD (4 + i) 0) =
      bytes (run (mixSteps tk) (ppk (p, iv16))) := by
  refine Vector.ext fun i hi => ?_
  rw [Vector.getElem_ofFn]
  interval_cases i <;> rfl

/-! ## Both phases -/

theorem phase1_eq (tk : List UInt8) (x : Vector UInt8 6 × UInt32) :
    phase1 tk x.1.toList x.2 = (List.range 8).foldl (phase1Round tk) (firstWords x) := by
  unfold phase1 firstWords
  rfl

/-- The address and `IV32` determine the key of phase 1, and it them. -/
theorem bijective_phase1 (tk : List UInt8) :
    Function.Bijective fun x : Vector UInt8 6 × UInt32 => phase1 tk x.1.toList x.2 := by
  have hwords : (words ∘ fun x : Vector UInt8 6 × UInt32 => phase1 tk x.1.toList x.2) =
      run ((List.range 8).flatMap (roundSteps tk)) ∘ words ∘ firstWords := by
    funext x
    simp only [Function.comp_apply]
    rw [phase1_eq, words_foldl_phase1Round]
  rw [← Function.Bijective.of_comp_iff' bijective_words, hwords]
  exact (bijective_run _).comp (bijective_words.comp bijective_firstWords)

/-- What phase 1 takes, and what phase 2 takes besides. -/
def parts (x : TkipPacket) : (Vector UInt8 6 × UInt32) × UInt16 := ((x.ta, x.iv32), x.iv16)

theorem bijective_parts : Function.Bijective parts :=
  Function.bijective_iff_has_inverse.mpr
    ⟨fun x => ⟨x.1.1, x.1.2, x.2⟩, fun _ => rfl, fun _ => rfl⟩

/-- The two phases are a permutation of 96 bits under every temporal key, and packets that differ in
the transmitter or in the packet number have different keys. -/
theorem tkip_bijective (tk : Vector UInt8 16) :
    Function.Bijective (mixed tk) ∧ ∀ x y : TkipPacket, x ≠ y → x.rc4key tk ≠ y.rc4key tk := by
  have hphases : mixed tk = bytes ∘ run (mixSteps tk.toList) ∘ ppk ∘
      Prod.map (fun x : Vector UInt8 6 × UInt32 => phase1 tk.toList x.1.toList x.2) id ∘ parts := by
    funext x
    exact phase2_bytes tk.toList (phase1 tk.toList x.ta.toList x.iv32) x.iv16
  have hmixed : Function.Bijective (mixed tk) := by
    rw [hphases]
    exact bijective_bytes.comp ((bijective_run _).comp (bijective_ppk.comp
      (((bijective_phase1 tk.toList).prodMap Function.bijective_id).comp bijective_parts)))
  refine ⟨hmixed, fun x y hne hkey => hne (hmixed.injective ?_)⟩
  rw [mixed, mixed, hkey]

end TkipPacket

end Rtl8188eu
