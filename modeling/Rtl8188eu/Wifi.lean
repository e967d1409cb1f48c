import Rtl8188eu.ByteMem

/-!
# The 802.11 header

The macros of `include/wifi.h` that read the frame-control field, the sequence-control
field, the QoS-control field and the address fields of a frame at a memory address, and
the three address selectors `getDa`, `getSa` and `getHdrBssid`, which pick the
destination, the source and the BSSID by the to-DS and from-DS bits.
-/

namespace Rtl8188eu

/-- The value of a 32-bit unsigned variable after the assignment of `z`. -/
def u32 (z : ℤ) : ℕ := (z % 4294967296).toNat

/-- An Ethernet address (`ETH_ALEN` bytes). -/
abbrev MacAddr := Vector UInt8 6

instance (priority := 2000) lawfulBEq_macAddr : LawfulBEq MacAddr := inferInstance

/-- The address stored at `p`. -/
def macAt (m : Mem) (p : ℤ) : MacAddr := Vector.ofFn fun i => m (p + i)

theorem toList_macAt (m : Mem) (p : ℤ) : (macAt m p).toList = m.read p 6 := by
  refine List.ext_getElem (by simp) fun i hi hi' => ?_
  rw [Mem.getElem_read]
  simp [macAt]

/-- Where the bytes of an address are stored, the address is read. -/
theorem macAt_of_holds {m : Mem} {p : ℤ} {a : MacAddr} (h : m.Holds p a.toList) :
    macAt m p = a := by
  refine Vector.toList_inj.mp ?_
  rw [toList_macAt]
  simpa [Mem.Holds] using h

/-- `IS_MCAST` : the group bit of the first byte. -/
def isMcast (da : MacAddr) : Bool := getElem da 0 LiteralIndex.octet0_lt_six &&& 0x01 ≠ 0

/-- The address made of six zero bytes. -/
def zeroAddr : MacAddr := Vector.replicate 6 0

/-- A locally administered address. -/
abbrev localAddr (n : UInt8) : MacAddr := #v[2, 0, 0, 0, 0, n]

/-- The broadcast address. -/
def bcAddr : MacAddr := Vector.replicate 6 0xff

/-! ## Frame types and subtypes -/

/-- `WIFI_MGT_TYPE`. -/
def wifiMgtType : ℕ := 0x00
/-- `WIFI_CTRL_TYPE`. -/
def wifiCtrlType : ℕ := 0x04
/-- `WIFI_DATA_TYPE`. -/
def wifiDataType : ℕ := 0x08
/-- `WIFI_QOS_DATA_TYPE`. -/
def wifiQosDataType : ℕ := 0x88
/-- `WIFI_ACTION`. -/
def wifiAction : ℕ := 0xd0

/-! ## The frame-control field -/

/-- `GetFrameType` : bits 2 and 3 of frame control. -/
def getFrameType (m : Mem) (p : ℤ) : ℕ := m.le16 p &&& 0x0c

/-- `GetFrameSubType` : bits 2 to 7 of frame control. -/
def getFrameSubType (m : Mem) (p : ℤ) : ℕ := m.le16 p &&& 0xfc

/-- `GetToDs`. -/
def getToDs (m : Mem) (p : ℤ) : Bool := (m.le16 p).testBit 8
/-- `GetFrDs`. -/
def getFrDs (m : Mem) (p : ℤ) : Bool := (m.le16 p).testBit 9
/-- `GetMFrag`. -/
def getMFrag (m : Mem) (p : ℤ) : Bool := (m.le16 p).testBit 10
/-- `GetPrivacy`. -/
def getPrivacy (m : Mem) (p : ℤ) : Bool := (m.le16 p).testBit 14
/-- `GetOrder`. -/
def getOrder (m : Mem) (p : ℤ) : Bool := (m.le16 p).testBit 15

/-- `get_tofr_ds` : the to-DS bit above the from-DS bit. -/
def getTofrDs (m : Mem) (p : ℤ) : Fin 4 :=
  match getToDs m p, getFrDs m p with
  | false, false => 0
  | false, true => 1
  | true, false => 2
  | true, true => 3

/-! ## The sequence-control and QoS-control fields -/

/-- `GetSequence` : the 12-bit sequence number. -/
def getSequence (m : Mem) (p : ℤ) : ℕ := m.le16 (p + 22) >>> 4

/-- `GetFragNum` : the 4-bit fragment number. -/
def getFragNum (m : Mem) (p : ℤ) : ℕ := m.le16 (p + 22) &&& 0x0f

/-- `GetPriority` on the QoS-control field at `p`. -/
def getPriority (m : Mem) (p : ℤ) : Fin 16 := Fin.ofNat 16 (m.le16 p &&& 0xf)

/-- `GetAMsdu` on the QoS-control field at `p`. -/
def getAMsdu (m : Mem) (p : ℤ) : Bool := (m.le16 p >>> 7) &&& 0x1 ≠ 0

/-! ## The addresses -/

/-- `GetAddr1Ptr`. -/
def getAddr1Ptr (p : ℤ) : ℤ := p + 4
/-- `GetAddr2Ptr`. -/
def getAddr2Ptr (p : ℤ) : ℤ := p + 10
/-- `GetAddr3Ptr`. -/
def getAddr3Ptr (p : ℤ) : ℤ := p + 16
/-- `GetAddr4Ptr`. -/
def getAddr4Ptr (p : ℤ) : ℤ := p + 24

/-- `get_da`. -/
def getDa (m : Mem) (p : ℤ) : MacAddr :=
  match getTofrDs m p with
  | 0 => macAt m (getAddr1Ptr p)
  | 1 => macAt m (getAddr1Ptr p)
  | 2 => macAt m (getAddr3Ptr p)
  | 3 => macAt m (getAddr3Ptr p)

/-- `get_sa`. -/
def getSa (m : Mem) (p : ℤ) : MacAddr :=
  match getTofrDs m p with
  | 0 => macAt m (getAddr2Ptr p)
  | 1 => macAt m (getAddr3Ptr p)
  | 2 => macAt m (getAddr2Ptr p)
  | 3 => macAt m (getAddr4Ptr p)

/-- `get_hdr_bssid`. The two bits have four values, so its null result does not occur. -/
def getHdrBssid (m : Mem) (p : ℤ) : MacAddr :=
  match getTofrDs m p with
  | 0 => macAt m (getAddr3Ptr p)
  | 1 => macAt m (getAddr2Ptr p)
  | 2 => macAt m (getAddr1Ptr p)
  | 3 => macAt m (getAddr1Ptr p)

end Rtl8188eu
