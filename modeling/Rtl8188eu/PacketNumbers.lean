import Rtl8188eu.Adapter
import Rtl8188eu.Ccmp
import Rtl8188eu.Tkip

/-!
# Packet numbers

`rtw_xmitframe_coalesce` writes an IV into every MPDU, from the packet number of the station that it
is sent to (`dot11txpn`), and counts the packet number up (`WEP_IV`, `TKIP_IV`, `AES_IV`). The
receiver reads the packet number back with `GET_TKIP_PN`, or into `pn_vector`.

The two sides agree on where the six bytes are (`recvPn_fragIv`), and a number comes back after 2^48
MPDUs only (`packetNumber_run`).
-/

namespace Rtl8188eu

open LiteralIndex

/-- The byte `TSC`i of `union pn48`. -/
def tsc (pn : BitVec 64) (i : ℕ) : UInt8 := UInt8.ofNat (pn.toNat / 256 ^ i)

/-- `WEP_IV` : the IV, and the packet number after it. -/
def wepIv (pn : BitVec 64) (keyidx : ℕ) : List UInt8 × BitVec 64 :=
  ([tsc pn 0, tsc pn 1, tsc pn 2, UInt8.ofNat ((keyidx &&& 0x3) <<< 6)],
    if pn = 0xffffff then 0 else pn + 1)

/-- `TKIP_IV`. -/
def tkipIv (pn : BitVec 64) (keyidx : ℕ) : List UInt8 × BitVec 64 :=
  ([tsc pn 1, (tsc pn 1 ||| 0x20) &&& 0x7f, tsc pn 0, UInt8.ofNat (0x20 ||| ((keyidx &&& 0x3) <<< 6)),
      tsc pn 2, tsc pn 3, tsc pn 4, tsc pn 5],
    if pn = 0xffffffffffff then 0 else pn + 1)

/-- `AES_IV`. -/
def aesIv (pn : BitVec 64) (keyidx : ℕ) : List UInt8 × BitVec 64 :=
  ([tsc pn 0, tsc pn 1, 0, UInt8.ofNat (0x20 ||| ((keyidx &&& 0x3) <<< 6)),
      tsc pn 2, tsc pn 3, tsc pn 4, tsc pn 5],
    if pn = 0xffffffffffff then 0 else pn + 1)

/-- The switch of `rtw_xmitframe_coalesce`. -/
def fragIv (encrypt : PrivacyAlgrthm) (bmcst : Bool) (keyIdx : ℕ) (pn : BitVec 64) :
    List UInt8 × BitVec 64 :=
  match encrypt with
  | .wep40 | .wep104 => wepIv pn keyIdx
  | .tkip => tkipIv pn (if bmcst then keyIdx else 0)
  | .aes => aesIv pn (if bmcst then keyIdx else 0)
  | _ => ([], pn)

/-- The packet number that the receiver takes from the IV at `p`. -/
def recvPn (encrypt : PrivacyAlgrthm) (m : Mem) (p : ℤ) : ℕ :=
  match encrypt with
  | .tkip =>
    let (pnl, pnh) := getTkipPn (m.read p 8)
    pnl.toNat + 65536 * pnh.toNat
  | .aes =>
    let pn := pnVector m p
    (getElem pn 0 octet0_lt_six).toNat + 256 * ((getElem pn 1 octet1_lt_six).toNat + 256 *
      ((getElem pn 2 octet2_lt_six).toNat + 256 * ((getElem pn 3 octet3_lt_six).toNat + 256 *
        ((getElem pn 4 octet4_lt_six).toNat + 256 * (getElem pn 5 octet5_lt_six).toNat))))
  | _ => 0

/-! ## One MPDU -/

/-- The six bytes of a packet number. -/
theorem tsc_digits {pn : BitVec 64} (h : pn.toNat < 2 ^ 48) :
    (tsc pn 0).toNat + 256 *
    ((tsc pn 1).toNat + 256 * ((tsc pn 2).toNat + 256 * ((tsc pn 3).toNat + 256 *
      ((tsc pn 4).toNat + 256 * (tsc pn 5).toNat)))) = pn.toNat := by
  simp only [tsc, UInt8.toNat_ofNat']
  omega

/-- What is written at `p` is read from there. -/
theorem getD_write (m : Mem) (p : ℤ) (bs : List UInt8) (i : ℕ) (hi : i < bs.length) :
    m.write p bs (p + i) = bs.getD i 0 := by
  have hin : p ≤ p + (i : ℤ) ∧ p + (i : ℤ) < p + (bs.length : ℤ) := by omega
  have hidx : (p + (i : ℤ) - p).toNat = i := by omega
  rw [Mem.write, if_pos hin, hidx]

/-- The receiver reads the packet number of the transmitter. -/
theorem recvPn_fragIv {encrypt : PrivacyAlgrthm} (hc : encrypt = .tkip ∨ encrypt = .aes)
    (bmcst : Bool)
    (keyIdx : ℕ) {pn : BitVec 64} (hpn : pn.toNat < 2 ^ 48) (m : Mem) (p : ℤ) :
    recvPn encrypt (m.write p (fragIv encrypt bmcst keyIdx pn).1) p = pn.toNat := by
  rcases hc with rfl | rfl
  · have hread : (m.write p (tkipIv pn (if bmcst then keyIdx else 0)).1).read p 8 =
        (tkipIv pn (if bmcst then keyIdx else 0)).1 := Mem.read_write_self m p _
    simp only [recvPn, fragIv]
    rw [hread, getTkipPn, toNat_mk16, toNat_le32]
    simp only [tkipIv, List.getD_cons_zero, List.getD_cons_succ]
    rw [← tsc_digits hpn]
    ring
  · have hbyte := getD_write m p (aesIv pn (if bmcst then keyIdx else 0)).1
    have h0 := hbyte 0 (by simp [aesIv])
    have h1 := hbyte 1 (by simp [aesIv])
    have h4 := hbyte 4 (by simp [aesIv])
    have h5 := hbyte 5 (by simp [aesIv])
    have h6 := hbyte 6 (by simp [aesIv])
    have h7 := hbyte 7 (by simp [aesIv])
    push_cast at h0 h1 h4 h5 h6 h7
    rw [add_zero] at h0
    simp only [recvPn, fragIv, pnVector, h0, h1, h4, h5, h6, h7]
    exact tsc_digits hpn

/-- The packet number is counted modulo 2^48. -/
theorem toNat_fragIv {encrypt : PrivacyAlgrthm} (hc : encrypt = .tkip ∨ encrypt = .aes)
    (bmcst : Bool)
    (keyIdx : ℕ) {pn : BitVec 64} (hpn : pn.toNat < 2 ^ 48) :
    (fragIv encrypt bmcst keyIdx pn).2.toNat = (pn.toNat + 1) % 2 ^ 48 := by
  have hnext : (if pn = 0xffffffffffff then (0 : BitVec 64) else pn + 1).toNat =
    (pn.toNat + 1) % 2 ^ 48 := by
    split_ifs with hmax
    · rw [hmax]
      decide
    · have hne : pn.toNat ≠ 0xffffffffffff := fun h => hmax (BitVec.eq_of_toNat_eq h)
      rw [BitVec.toNat_add]
      simp
      omega
  rcases hc with rfl | rfl
  · exact hnext
  · exact hnext

/-! ## Runs -/

/-- An MPDU that `rtw_xmitframe_coalesce` makes. -/
structure Mpdu where
  ra : MacAddr
  encrypt : PrivacyAlgrthm
  keyIdx : ℕ

/-- The station that an MPDU is for, as `rtw_get_stainfo` looks for it. Its key is the one that the
MPDU is encrypted with : the group key for the group addresses. -/
def Mpdu.sta (e : Mpdu) : MacAddr := if isMcast e.ra then bcAddr else e.ra

/-- An MPDU with its IV, and with the packet number of the transmitter at that time. -/
structure SentMpdu extends Mpdu where
  iv : List UInt8
  pn : BitVec 64

/-- MPDUs are sent. `dot11txpn` gives the packet number of each station. -/
def sendMpdus (dot11txpn : MacAddr → BitVec 64) : List Mpdu → List SentMpdu
  | [] => []
  | e :: es =>
    let pn := dot11txpn e.sta
    let (iv, next) := fragIv e.encrypt (isMcast e.ra) e.keyIdx pn
    ⟨e, iv, pn⟩ :: sendMpdus (Function.update dot11txpn e.sta next) es

/-- A packet number stays one of 48 bits. -/
theorem next_lt {dot11txpn : MacAddr → BitVec 64} (hpn : ∀ a, (dot11txpn a).toNat < 2 ^ 48)
    {e : Mpdu}
    (he : e.encrypt = .tkip ∨ e.encrypt = .aes) (a : MacAddr) :
    (Function.update dot11txpn e.sta
      (fragIv e.encrypt (isMcast e.ra) e.keyIdx (dot11txpn e.sta)).2 a).toNat < 2 ^ 48 := by
  rcases eq_or_ne a e.sta with rfl | ha
  · rw [Function.update_self, toNat_fragIv he _ _ (hpn e.sta)]
    exact Nat.mod_lt _ (by norm_num)
  · rw [Function.update_of_ne ha]
    exact hpn a

/-- The packet numbers of the MPDUs to one station are the next ones, modulo 2^48. -/
theorem pn_sendMpdus : ∀ {es : List Mpdu} {dot11txpn : MacAddr → BitVec 64},
    (∀ a, (dot11txpn a).toNat < 2 ^ 48) → (∀ e ∈ es, e.encrypt = .tkip ∨ e.encrypt = .aes) →
    ∀ x ∈ sendMpdus dot11txpn es, (x.pn.toNat < 2 ^ 48 ∧ (x.encrypt = .tkip ∨ x.encrypt = .aes) ∧
      x.iv = (fragIv x.encrypt (isMcast x.ra) x.keyIdx x.pn).1) ∧
      ∃ j < es.length, x.pn.toNat = ((dot11txpn x.sta).toNat + j) % 2 ^ 48
  | [], _, _, _, x, hx => absurd hx (by simp [sendMpdus])
  | e :: es, dot11txpn, hpn, hes, x, hx => by
    have he := hes e List.mem_cons_self
    have hnext := toNat_fragIv he (isMcast e.ra) e.keyIdx (hpn e.sta)
    rcases List.mem_cons.mp hx with rfl | hx
    · refine ⟨⟨hpn e.sta, he, rfl⟩, 0, by simp, ?_⟩
      exact (Nat.mod_eq_of_lt (hpn e.sta)).symm
    · obtain ⟨hsent, j, hj, hxpn⟩ :=
        pn_sendMpdus (next_lt hpn he) (fun e he => hes e (List.mem_cons_of_mem _ he)) x hx
      refine ⟨hsent, ?_⟩
      rcases eq_or_ne x.sta e.sta with ha | ha
      · refine ⟨j + 1, by simpa using hj, ?_⟩
        rw [hxpn, ha, Function.update_self, hnext, Nat.mod_add_mod]
        congr 1
        ring
      · refine ⟨j, by simp; omega, ?_⟩
        rw [hxpn, Function.update_of_ne ha]

/-- A packet number comes back after 2^48 MPDUs only. -/
theorem pairwise_sendMpdus : ∀ {es : List Mpdu} {dot11txpn : MacAddr → BitVec 64},
    (∀ a, (dot11txpn a).toNat < 2 ^ 48) → (∀ e ∈ es, e.encrypt = .tkip ∨ e.encrypt = .aes) →
    es.length < 2 ^ 48 →
      (sendMpdus dot11txpn es).Pairwise fun x y => x.sta = y.sta → x.pn.toNat ≠ y.pn.toNat
  | [], _, _, _, _ => List.Pairwise.nil
  | e :: es, dot11txpn, hpn, hes, hlen => by
    have he := hes e List.mem_cons_self
    have hes' : ∀ e ∈ es, e.encrypt = .tkip ∨ e.encrypt = .aes :=
      fun e he => hes e (List.mem_cons_of_mem _ he)
    rw [List.length_cons] at hlen
    refine List.Pairwise.cons (fun y hy hsta => ?_)
      (pairwise_sendMpdus (next_lt hpn he) hes' (by omega))
    obtain ⟨-, j, hj, hypn⟩ := pn_sendMpdus (next_lt hpn he) hes' y hy
    have hye : y.sta = e.sta := hsta.symm
    rw [hypn, hye, Function.update_self, toNat_fragIv he _ _ (hpn e.sta), Nat.mod_add_mod]
    have hlt := hpn e.sta
    change (dot11txpn e.sta).toNat ≠ _
    omega

/-- Over fewer than 2^48 MPDUs the receiver reads the packet number of the transmitter from every
IV, and no two MPDUs with one key have the same packet number. -/
theorem packetNumber_run {dot11txpn : MacAddr → BitVec 64} (hpn : ∀ a, (dot11txpn a).toNat < 2 ^ 48)
    {es : List Mpdu} (hes : ∀ e ∈ es, e.encrypt = .tkip ∨ e.encrypt = .aes) (hlen : es.length < 2 ^ 48) :
    (∀ x ∈ sendMpdus dot11txpn es, ∀ m p, recvPn x.encrypt (Mem.write m p x.iv) p = x.pn.toNat) ∧
    (sendMpdus dot11txpn es).Pairwise fun x y => x.sta = y.sta → ∀ m p m' p',
      recvPn x.encrypt (Mem.write m p x.iv) p ≠ recvPn y.encrypt (Mem.write m' p' y.iv) p' := by
  have hread : ∀ x ∈ sendMpdus dot11txpn es, ∀ m p, recvPn x.encrypt
    (Mem.write m p x.iv) p = x.pn.toNat := by
    intro x hx m p
    obtain ⟨⟨hlt, hc, hiv⟩, -⟩ := pn_sendMpdus hpn hes x hx
    rw [hiv]
    exact recvPn_fragIv hc _ _ hlt m p
  refine ⟨hread, (pairwise_sendMpdus hpn hes hlen).imp_of_mem
    fun {x y} hx hy hne hsta m p m' p' => ?_⟩
  rw [hread x hx, hread y hy]
  exact hne hsta

/-- Two MPDUs to one station across the end of the packet numbers, and one to another. -/
theorem packetNumber_sample :
    (∀ x ∈ sendMpdus (fun _ => 0xffffffffffff) [⟨zeroAddr, .aes, 0⟩, ⟨bcAddr, .tkip, 1⟩, ⟨zeroAddr, .aes, 0⟩],
      ∀ m p, recvPn x.encrypt (Mem.write m p x.iv) p = x.pn.toNat) ∧
    (sendMpdus (fun _ => 0xffffffffffff)
      [⟨zeroAddr, .aes, 0⟩, ⟨bcAddr, .tkip, 1⟩, ⟨zeroAddr, .aes, 0⟩]).Pairwise fun x y =>
        x.sta = y.sta → ∀ m p m' p',
          recvPn x.encrypt (Mem.write m p x.iv) p ≠ recvPn y.encrypt (Mem.write m' p' y.iv) p' :=
  packetNumber_run (fun _ => by decide) (by simp) (by decide)

end Rtl8188eu
