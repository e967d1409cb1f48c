import Rtl8188eu.Wifi

/-!
# Information elements

The two ways the driver walks the information elements of a management frame.
`rtw_get_ie` of `core/rtw_ieee80211.c` looks for the first element with a given id. The
handlers of `core/rtw_mlme_ext.c` visit all elements of a frame in a loop (`ieOffsets`).

An element is an id byte, a length byte and its data. Neither walk checks that an element
ends inside the frame, so both read what follows in the buffer.
-/

namespace Rtl8188eu

/-- `_CHLGETXT_IE_`, the challenge text. -/
def chlgetxtIe : UInt8 := 16
/-- `_HT_CAPABILITY_IE_`. -/
def htCapabilityIe : UInt8 := 45
/-- `MAX_IE_SZ`. -/
def maxIeSz : ℕ := 768

/-- The loop of `rtw_get_ie`, at the element at `p`, which is `i` bytes behind the start. -/
def rtwGetIeLoop (m : Mem) (index : UInt8) (limit : ℤ) : ℕ → ℤ → ℤ → Option (ℤ × ℕ)
  | 0, _, _ => none
  | fuel + 1, p, i =>
    if m p = index then some (p, (m (p + 1)).toNat)
    else
      let tmp : ℤ := (m (p + 1)).toNat
      if i + (tmp + 2) ≥ limit then none
      else rtwGetIeLoop m index limit fuel (p + (tmp + 2)) (i + (tmp + 2))

/-- `rtw_get_ie` : the address of the first element with id `index` and its length byte. -/
def rtwGetIe (m : Mem) (pbuf : ℤ) (index : UInt8) (limit : ℤ) : Option (ℤ × ℕ) :=
  if limit < 1 then none else rtwGetIeLoop m index limit limit.toNat pbuf 0

/-- An element with the id at the start of the buffer is the one that is found. -/
theorem rtwGetIe_of_head {m : Mem} {pbuf : ℤ} {index : UInt8} {limit : ℤ} (hl : 1 ≤ limit)
    (h : m pbuf = index) : rtwGetIe m pbuf index limit = some (pbuf, (m (pbuf + 1)).toNat) := by
  obtain ⟨fuel, hfuel⟩ : ∃ fuel, limit.toNat = fuel + 1 := ⟨limit.toNat - 1, by omega⟩
  have hl' : ¬ limit < 1 := by omega
  rw [rtwGetIe, if_neg hl', hfuel, rtwGetIeLoop, if_pos h]

/-- The elements the loop `for (i = ..; i < pkt_len;)` visits from offset `i` on, each as
its offset in the frame at `p`. -/
def ieOffsets (m : Mem) (p : ℤ) (pktLen : ℕ) : ℕ → ℕ → List ℕ
  | 0, _ => []
  | fuel + 1, i =>
    if i < pktLen then i :: ieOffsets m p pktLen fuel (i + ((m (p + i + 1)).toNat + 2)) else []

end Rtl8188eu
