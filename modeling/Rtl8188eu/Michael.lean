import Rtl8188eu.Arc4
import Rtl8188eu.ByteMem

/-!
# The Michael MIC

`rtw_secmicsetkey`, `rtw_secmicappendbyte`, `rtw_secmicappend`, `rtw_secgetmic` and
`rtw_seccalctkipmic` of `core/rtw_security.c`. The transmit path feeds a message in pieces
and the receive path in one call. What the pieces are does not matter
(`secmicappend_append`).
-/

namespace Rtl8188eu

/-- `struct mic_data`. -/
structure MicData where
  k0 : UInt32
  k1 : UInt32
  l : UInt32
  r : UInt32
  /-- The bytes of a word that is not full yet. -/
  m : UInt32
  nBytesInM : ℕ
  deriving DecidableEq

/-- `ROL32`. -/
def rol32 (a : UInt32) (n : UInt32) : UInt32 :=
  (a <<< n) ||| ((a >>> (32 - n)) &&& ((1 <<< n) - 1))

/-- `ROR32`. -/
def ror32 (a : UInt32) (n : UInt32) : UInt32 := rol32 a (32 - n)

/-- `secmicgetuint32` on four bytes. -/
def secmicgetuint32 (p : List UInt8) : UInt32 :=
  le32 (p.getD 0 0) (p.getD 1 0) (p.getD 2 0) (p.getD 3 0)

/-- `secmicclear`. -/
def secmicclear (d : MicData) : MicData := { d with l := d.k0, r := d.k1, nBytesInM := 0, m := 0 }

/-- `rtw_secmicsetkey`. -/
def rtwSecmicsetkey (key : List UInt8) : MicData :=
  secmicclear ⟨secmicgetuint32 key, secmicgetuint32 (key.drop 4), 0, 0, 0, 0⟩

/-- The block function of Michael, on a full word. -/
def secmicword (d : MicData) : MicData :=
  let l := d.l ^^^ d.m
  let r := d.r ^^^ rol32 l 17
  let l := l + r
  let r := r ^^^ (((l &&& 0xff00ff00) >>> 8) ||| ((l &&& 0x00ff00ff) <<< 8))
  let l := l + r
  let r := r ^^^ rol32 l 3
  let l := l + r
  let r := r ^^^ ror32 l 2
  let l := l + r
  { d with l := l, r := r, m := 0, nBytesInM := 0 }

/-- `rtw_secmicappendbyte`. -/
def rtwSecmicappendbyte (d : MicData) (b : UInt8) : MicData :=
  let d := { d with
    m := d.m ||| (b.toUInt32 <<< UInt32.ofNat (8 * d.nBytesInM))
    nBytesInM := d.nBytesInM + 1 }
  if d.nBytesInM ≥ 4 then secmicword d else d

/-- `rtw_secmicappend`. -/
def rtwSecmicappend (d : MicData) (src : List UInt8) : MicData := src.foldl rtwSecmicappendbyte d

theorem secmicappend_append (d : MicData) (a b : List UInt8) :
    rtwSecmicappend d (a ++ b) = rtwSecmicappend (rtwSecmicappend d a) b := List.foldl_append

/-- `rtw_secgetmic` : the eight bytes of the MIC. The last loop runs until the word is full,
so it adds as many bytes as the word has left. -/
def rtwSecgetmic (d : MicData) : List UInt8 :=
  let d := rtwSecmicappend d [0x5a, 0, 0, 0, 0]
  let d := rtwSecmicappend d (List.replicate ((4 - d.nBytesInM) % 4) 0)
  le32Bytes d.l ++ le32Bytes d.r

/-- `rtw_seccalctkipmic` on the header at `header` and the bytes `data`. -/
def rtwSeccalctkipmic (key : List UInt8) (m : Mem) (header : ℤ) (data : List UInt8)
    (pri : UInt8) : List UInt8 :=
  let d := rtwSecmicsetkey key
  let toDs := m (header + 1) &&& 1 ≠ 0
  let frDs := m (header + 1) &&& 2 ≠ 0
  let d :=
    if toDs then
      let d := rtwSecmicappend d (m.read (header + 16) 6)
      if frDs then rtwSecmicappend d (m.read (header + 24) 6)
      else rtwSecmicappend d (m.read (header + 10) 6)
    else
      let d := rtwSecmicappend d (m.read (header + 4) 6)
      if frDs then rtwSecmicappend d (m.read (header + 16) 6)
      else rtwSecmicappend d (m.read (header + 10) 6)
  let d := rtwSecmicappend d [pri, 0, 0, 0]
  let d := rtwSecmicappend d data
  rtwSecgetmic d

/-- The MIC of a message with the pseudo header of `da`, `sa` and the priority. -/
def michael (key da sa : List UInt8) (pri : UInt8) (data : List UInt8) : List UInt8 :=
  rtwSecgetmic (rtwSecmicappend (rtwSecmicsetkey key) (da ++ sa ++ [pri, 0, 0, 0] ++ data))

/-- `rtw_seccalctkipmic` takes the addresses by the direction bits. -/
theorem rtwSeccalctkipmic_eq (key : List UInt8) (m : Mem) (header : ℤ) (data : List UInt8)
    (pri : UInt8) :
    rtwSeccalctkipmic key m header data pri =
      michael key (m.read (header + if m (header + 1) &&& 1 ≠ 0 then 16 else 4) 6)
        (m.read (header + if m (header + 1) &&& 2 ≠ 0 then
          (if m (header + 1) &&& 1 ≠ 0 then 24 else 16) else 10) 6) pri data := by
  unfold rtwSeccalctkipmic michael
  simp only [secmicappend_append]
  split
  · split <;> rfl
  · split <;> rfl

end Rtl8188eu
