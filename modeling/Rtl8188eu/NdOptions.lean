import Rtl8188eu.BridgeChecksums

/-!
# The options of a neighbour-discovery message

`update_nd_link_layer_addr` looks with `scan_tlv` for the option with a link-layer address. The scan
reads the type and the length of an option while there is a byte left, and goes on by eight times
the length. It does not end at an option of length 0, and reads behind the message if one byte is
left.

`scanRight_iff` : the scan is right exactly if it comes to neither before it finds its option.
-/

namespace Rtl8188eu

/-! ## What is read, and what is claimed -/

/-- The addresses that `scan_tlv` reads. -/
def scanReads (mem : Mem) (tag len8b : UInt8) : ℕ → ℤ → ℤ → List ℤ
  | 0, _, _ => []
  | fuel + 1, data, len =>
    if len > 0 then
      if mem data = tag ∧ mem (data + 1) = len8b ∧ len ≥ (len8b.toNat * 8 : ℕ) then [data, data + 1]
      else
        let step := (mem (data + 1)).toNat * 8
        data :: (data + 1) :: scanReads mem tag len8b fuel (data + step) (len - step)
    else []

/-- Where the options of a message start : at the first byte, and behind an option whose length is
not zero. -/
inductive OptionAt (bs : List UInt8) : ℕ → Prop
  | first : OptionAt bs 0
  | next {o : ℕ} {len : UInt8} (h : OptionAt bs o) (hlen : bs[o + 1]? = some len) (hpos : len ≠ 0) :
      OptionAt bs (o + 8 * len.toNat)

/-- An option of 8 bytes with the type `tag` that is whole. -/
structure WantedAt (tag : UInt8) (bs : List UInt8) (o : ℕ) : Prop where
  option : OptionAt bs o
  type : bs[o]? = some tag
  length : bs[o + 1]? = some 1
  whole : o + 8 ≤ bs.length

/-- The first wanted option, or `none`. -/
def IsFirstWanted (tag : UInt8) (bs : List UInt8) : Option ℕ → Prop
  | some o => WantedAt tag bs o ∧ ∀ o' < o, ¬WantedAt tag bs o'
  | none => ∀ o, ¬WantedAt tag bs o

/-- What is claimed of the scan of a message of `len` bytes at `data` : it ends, reads the message
only, and returns the address field of the first wanted option. -/
def ScanRight (mem : Mem) (data : ℤ) (len : ℕ) : Prop :=
  ∀ off tag, ndOptions (mem data) = some (off, tag) → off ≤ len →
    ∃ fuel r, scanTlv mem tag 1 fuel (data + off) (len - off) = some r ∧
      (∀ a ∈ scanReads mem tag 1 fuel (data + off) (len - off), data ≤ a ∧ a < data + len) ∧
      ∃ o, IsFirstWanted tag (mem.read (data + off) (len - off)) o ∧
        r = o.map fun o : ℕ => data + off + (o : ℤ) + 2

/-- The options lead to the wanted one or to the end of the message, and none before has the length
0 or is a single byte. -/
inductive Scannable (tag : UInt8) : List UInt8 → Prop
  | nil : Scannable tag []
  | found {bs : List UInt8} (h : 6 ≤ bs.length) : Scannable tag (tag :: 1 :: bs)
  | next {type len : UInt8} {bs : List UInt8} (hpos : len ≠ 0)
      (h : Scannable tag ((type :: len :: bs).drop (8 * len.toNat))) : Scannable tag
        (type :: len :: bs)

/-- The condition on the message. -/
def NdScannable (mem : Mem) (data : ℤ) (len : ℕ) : Prop :=
  ∀ off tag, ndOptions (mem data) = some (off, tag) → off ≤ len →
    Scannable tag (mem.read (data + off) (len - off))

/-! ## The options of a list of bytes -/

section Options

variable {tag type len : UInt8} {bs : List UInt8} {o : ℕ}

/-- Behind the first option the options are those of the rest. -/
theorem optionAt_cons_iff (hpos : len ≠ 0) : OptionAt (type :: len :: bs) o ↔
    o = 0 ∨ ∃ o', o = 8 * len.toNat + o' ∧
      OptionAt ((type :: len :: bs).drop (8 * len.toNat)) o' := by
  constructor
  · intro h
    induction h with
    | first => exact Or.inl rfl
    | @next o len' _ hlen hpos' ih =>
      refine Or.inr ?_
      rcases ih with rfl | ⟨o', rfl, ho'⟩
      · obtain rfl : len = len' := Option.some.inj hlen
        exact ⟨0, by rw [Nat.zero_add, Nat.add_zero], OptionAt.first⟩
      · refine ⟨o' + 8 * len'.toNat, by rw [Nat.add_assoc], ho'.next ?_ hpos'⟩
        rw [List.getElem?_drop, ← Nat.add_assoc]
        exact hlen
  · rintro (rfl | ⟨o', rfl, ho'⟩)
    · exact OptionAt.first
    · induction ho' with
      | first =>
        have hnext := (@OptionAt.first (type :: len :: bs)).next rfl hpos
        rwa [Nat.zero_add] at hnext
      | @next o' len' _ hlen hpos' ih =>
        rw [← Nat.add_assoc]
        refine ih.next ?_ hpos'
        rw [List.getElem?_drop, ← Nat.add_assoc] at hlen
        exact hlen

theorem wantedAt_cons_zero_iff : WantedAt tag (type :: len :: bs) 0 ↔
    type = tag ∧ len = 1 ∧ 6 ≤ bs.length := by
  constructor
  · rintro ⟨-, htype, hlen, hwhole⟩
    rw [List.length_cons, List.length_cons] at hwhole
    exact ⟨Option.some.inj htype, Option.some.inj hlen, by omega⟩
  · rintro ⟨rfl, rfl, h6⟩
    exact ⟨OptionAt.first, rfl, rfl, by rw [List.length_cons, List.length_cons]; omega⟩

/-- Behind the first option. -/
theorem wantedAt_add_iff (hpos : len ≠ 0) :
    WantedAt tag (type :: len :: bs) (8 * len.toNat + o) ↔
      WantedAt tag ((type :: len :: bs).drop (8 * len.toNat)) o := by
  have hlen : 0 < len.toNat := Nat.pos_of_ne_zero fun h => hpos (UInt8.toNat_inj.mp h)
  have hoption : OptionAt (type :: len :: bs) (8 * len.toNat + o) ↔
      OptionAt ((type :: len :: bs).drop (8 * len.toNat)) o := by
    rw [optionAt_cons_iff hpos]
    constructor
    · rintro (h | ⟨o', heq, ho'⟩)
      · omega
      · rwa [Nat.add_left_cancel heq]
    · exact fun h => Or.inr ⟨o, rfl, h⟩
  constructor
  · rintro ⟨h, htype, hlen', hwhole⟩
    refine ⟨hoption.mp h, ?_, ?_, ?_⟩
    · rwa [List.getElem?_drop]
    · rwa [List.getElem?_drop]
    · rw [List.length_drop]
      omega
  · rintro ⟨h, htype, hlen', hwhole⟩
    rw [List.getElem?_drop] at htype hlen'
    rw [List.length_drop] at hwhole
    exact ⟨hoption.mpr h, htype, hlen', by omega⟩

theorem not_wantedAt_nil : ¬WantedAt tag [] o := fun h => by
  have htype := h.type
  rw [List.getElem?_nil] at htype
  cases htype

/-- The first wanted option of the rest is that of the list, if the first option is not wanted. -/
theorem isFirstWanted_next (hpos : len ≠ 0) (hno : ¬WantedAt tag (type :: len :: bs) 0)
    {r : Option ℕ}
    (h : IsFirstWanted tag ((type :: len :: bs).drop (8 * len.toNat)) r) :
    IsFirstWanted tag (type :: len :: bs) (r.map fun o => 8 * len.toNat + o) := by
  have hbehind : ∀ o, WantedAt tag (type :: len :: bs) o →
      ∃ o', o = 8 * len.toNat + o' ∧
        WantedAt tag ((type :: len :: bs).drop (8 * len.toNat)) o' := by
    intro o ho
    rcases (optionAt_cons_iff hpos).mp ho.option with rfl | ⟨o', rfl, -⟩
    · exact absurd ho hno
    · exact ⟨o', rfl, (wantedAt_add_iff hpos).mp ho⟩
  cases r with
  | none =>
    intro o ho
    obtain ⟨o', -, ho'⟩ := hbehind o ho
    exact h o' ho'
  | some o =>
    refine ⟨(wantedAt_add_iff hpos).mpr h.1, fun o' hlt ho' => ?_⟩
    obtain ⟨o'', rfl, hwanted⟩ := hbehind o' ho'
    exact h.2 o'' (Nat.lt_of_add_lt_add_left hlt) hwanted

end Options

/-! ## The scan -/

section Scan

variable {mem : Mem} {tag type l : UInt8} {bs : List UInt8} {p : ℤ} {fuel : ℕ}

/-- The next option is behind the message, or where the rest of it starts. -/
theorem scan_behind (n : ℕ) {q len : ℤ} (hlen : len ≤ 0) :
    scanTlv mem tag 1 (n + 1) q len = some none ∧ scanReads mem tag 1 (n + 1) q len = [] := by
  have hnot : ¬len > 0 := by omega
  rw [scanTlv, scanReads, if_neg hnot, if_neg hnot]
  exact ⟨rfl, rfl⟩

/-- One round, at an option that is not the wanted one. -/
theorem scan_next (h : mem.Holds p (type :: l :: bs)) (hno : ¬WantedAt tag (type :: l :: bs) 0)
    (fuel : ℕ) :
    scanTlv mem tag 1 (fuel + 1) p (type :: l :: bs).length =
        scanTlv mem tag 1 fuel (p + (l.toNat * 8 : ℕ))
          ((type :: l :: bs).length - (l.toNat * 8 : ℕ)) ∧
      scanReads mem tag 1 (fuel + 1) p (type :: l :: bs).length =
        p :: (p + 1) :: scanReads mem tag 1 fuel (p + (l.toNat * 8 : ℕ))
          ((type :: l :: bs).length - (l.toNat * 8 : ℕ)) := by
  rw [Mem.holds_cons, Mem.holds_cons] at h
  obtain ⟨htype, hl, -⟩ := h
  have hpos : ((type :: l :: bs).length : ℤ) > 0 := by
    rw [List.length_cons]
    omega
  have hmatch : ¬(mem p = tag ∧ mem (p + 1) = 1 ∧
    ((type :: l :: bs).length : ℤ) ≥ ((1 : UInt8).toNat * 8 : ℕ)) := by
    rintro ⟨ht, hl1, h8⟩
    have h8' : ((type :: l :: bs).length : ℤ) ≥ 8 := h8
    rw [List.length_cons, List.length_cons] at h8'
    exact hno (wantedAt_cons_zero_iff.mpr ⟨htype.symm.trans ht, hl.symm.trans hl1, by omega⟩)
  rw [scanTlv, scanReads, if_pos hpos, if_pos hpos, if_neg hmatch, if_neg hmatch, hl]
  exact ⟨rfl, rfl⟩

/-- The rest of the message is where the scan goes on, or the scan ends there. -/
theorem scan_drop (h : mem.Holds p (type :: l :: bs)) :
    (mem.Holds (p + (l.toNat * 8 : ℕ)) ((type :: l :: bs).drop (8 * l.toNat)) ∧
      ((type :: l :: bs).length - (l.toNat * 8 : ℕ) : ℤ) =
      ((type :: l :: bs).drop (8 * l.toNat)).length) ∨
    ((type :: l :: bs).drop (8 * l.toNat) = [] ∧
    ((type :: l :: bs).length - (l.toNat * 8 : ℕ) : ℤ) ≤ 0) := by
  rw [Nat.mul_comm]
  rcases Nat.lt_or_ge (type :: l :: bs).length (8 * l.toNat) with hlt | hge
  · exact Or.inr ⟨List.drop_eq_nil_of_le hlt.le, by omega⟩
  · refine Or.inl ⟨?_, by rw [List.length_drop]; omega⟩
    have hsplit := h
    rw [← List.take_append_drop (8 * l.toNat) (type :: l :: bs), Mem.holds_append, List.length_take,
      Nat.min_eq_left hge] at hsplit
    exact hsplit.2

/-- What is claimed of a scan of the bytes `bs` at `p`. -/
def ScanOk (mem : Mem) (tag : UInt8) (p : ℤ) (bs : List UInt8) : Prop :=
  ∃ fuel r, scanTlv mem tag 1 fuel p bs.length = some r ∧
    (∀ a ∈ scanReads mem tag 1 fuel p bs.length, p ≤ a ∧ a < p + bs.length) ∧
    ∃ o, IsFirstWanted tag bs o ∧ r = o.map fun o : ℕ => p + (o : ℤ) + 2

/-- The first option is the wanted one. -/
theorem scanOk_found (h : mem.Holds p (tag :: 1 :: bs)) (h6 : 6 ≤ bs.length) :
    ScanOk mem tag p (tag :: 1 :: bs) := by
  rw [Mem.holds_cons, Mem.holds_cons] at h
  obtain ⟨htype, hl, -⟩ := h
  have hlen : ((tag :: 1 :: bs).length : ℤ) ≥ 8 := by
    rw [List.length_cons, List.length_cons]
    omega
  have hpos : ((tag :: 1 :: bs).length : ℤ) > 0 := by omega
  have hmatch : mem p = tag ∧ mem (p + 1) = 1 ∧
    ((tag :: 1 :: bs).length : ℤ) ≥ ((1 : UInt8).toNat * 8 : ℕ) :=
    ⟨htype, hl, hlen⟩
  refine ⟨1, some (p + 2), ?_, ?_, some 0,
    ⟨wantedAt_cons_zero_iff.mpr ⟨rfl, rfl, h6⟩, fun o ho => ?_⟩, ?_⟩
  · rw [scanTlv, if_pos hpos, if_pos hmatch]
  · rw [scanReads, if_pos hpos, if_pos hmatch]
    intro a ha
    rcases List.mem_pair.mp ha with rfl | rfl <;> omega
  · exact absurd ho (Nat.not_lt_zero o)
  · rw [Option.map_some, Nat.cast_zero, add_zero]

theorem scanOk_nil (mem : Mem) (tag : UInt8) (p : ℤ) : ScanOk mem tag p [] := by
  obtain ⟨hend, hreads⟩ := @scan_behind mem tag 0 p 0 le_rfl
  refine ⟨1, none, hend, fun a ha => ?_, none, fun o => not_wantedAt_nil, rfl⟩
  rw [List.length_nil, Nat.cast_zero, hreads] at ha
  exact absurd ha List.not_mem_nil

/-- A scan along options ends, reads the message only and finds the first wanted option. -/
theorem scanOk_of_scannable {bs : List UInt8} (hscan : Scannable tag bs) :
    ∀ {p : ℤ}, mem.Holds p bs → ScanOk mem tag p bs := by
  induction hscan with
  | nil => exact fun _ => scanOk_nil mem tag _
  | found h6 => exact fun h => scanOk_found h h6
  | @next type l bs hne hrest ih =>
    intro p h
    by_cases hwanted : WantedAt tag (type :: l :: bs) 0
    · obtain ⟨rfl, rfl, h6⟩ := wantedAt_cons_zero_iff.mp hwanted
      exact scanOk_found h h6
    have hl : 0 < l.toNat := Nat.pos_of_ne_zero fun h0 => hne (UInt8.toNat_inj.mp h0)
    -- the scan of the rest, which may be behind the message
    obtain ⟨fuel, r, hrun, hreads, o, hfirst, rfl⟩ : ∃ fuel r,
        scanTlv mem tag 1 fuel (p + (l.toNat * 8 : ℕ))
          ((type :: l :: bs).length - (l.toNat * 8 : ℕ)) = some r ∧
        (∀ a ∈ scanReads mem tag 1 fuel (p + (l.toNat * 8 : ℕ)) ((type :: l :: bs).length - (l.toNat * 8 : ℕ)),
          p ≤ a ∧ a < p + (type :: l :: bs).length) ∧
        ∃ o, IsFirstWanted tag ((type :: l :: bs).drop (8 * l.toNat)) o ∧
          r = o.map fun o : ℕ => p + (l.toNat * 8 : ℕ) + (o : ℤ) + 2 := by
      rcases scan_drop h with ⟨hheld, hlen⟩ | ⟨hnil, hlen⟩
      · rw [hlen]
        obtain ⟨fuel, r, hrun, hreads, hfirst⟩ := ih hheld
        refine ⟨fuel, r, hrun, fun a ha => ?_, hfirst⟩
        have hin := hreads a ha
        omega
      · obtain ⟨hend, hread⟩ := @scan_behind mem tag 0 (p + (l.toNat * 8 : ℕ)) _ hlen
        refine ⟨1, none, hend, fun a ha => ?_, none, ?_, rfl⟩
        · rw [hread] at ha
          exact absurd ha List.not_mem_nil
        · rw [hnil]
          exact fun o => not_wantedAt_nil
    obtain ⟨hnext, hnextReads⟩ := scan_next h hwanted fuel
    refine ⟨fuel + 1, _, hnext.trans hrun,
      fun a ha => ?_, _, isFirstWanted_next hne hwanted hfirst, ?_⟩
    · rw [hnextReads] at ha
      have hlen : 2 ≤ (type :: l :: bs).length := by
        rw [List.length_cons, List.length_cons]
        omega
      rcases List.mem_cons.mp ha with rfl | ha
      · omega
      rcases List.mem_cons.mp ha with rfl | ha
      · omega
      · exact hreads a ha
    · rw [Option.map_map]
      refine congrArg (o.map ·) (funext fun o' => ?_)
      rw [Function.comp_apply]
      push_cast
      ring

/-- A scan does not end at an option of length 0. -/
theorem scanTlv_zero (htype : mem (p + 1) = 0) {len : ℤ} (hlen : len > 0) :
    ∀ fuel, scanTlv mem tag 1 fuel p len = none
  | 0 => rfl
  | fuel + 1 => by
    have hmatch : ¬(mem p = tag ∧ mem (p + 1) = 1 ∧ len ≥ ((1 : UInt8).toNat * 8 : ℕ)) := by
      rintro ⟨-, hl, -⟩
      rw [htype] at hl
      cases hl
    rw [scanTlv, if_pos hlen, if_neg hmatch, htype]
    have hsame := scanTlv_zero htype hlen fuel
    simpa using hsame

/-- A scan that ends and reads nothing behind the message goes along options. -/
theorem scannable_of_scan (e : ℤ) :
    ∀ (fuel : ℕ) (bs : List UInt8) {p : ℤ} {r : Option ℤ}, mem.Holds p bs →
    p + bs.length = e → scanTlv mem tag 1 fuel p bs.length = some r →
    (∀ a ∈ scanReads mem tag 1 fuel p bs.length, a < e) → Scannable tag bs
  | 0, _, _, _, _, _, hrun, _ => by cases hrun
  | fuel + 1, [], _, _, _, _, _, _ => Scannable.nil
  | fuel + 1, [b], p, _, h, he, _, hreads => by
    have hin : p + 1 < e := by
      refine hreads (p + 1) ?_
      have hmatch : ¬(mem p = tag ∧ mem (p + 1) = 1 ∧
        (([b].length : ℕ) : ℤ) ≥ ((1 : UInt8).toNat * 8 : ℕ)) := by
        rintro ⟨-, -, h8⟩
        rw [List.length_singleton, UInt8.toNat_one] at h8
        omega
      have hpos : (([b].length : ℕ) : ℤ) > 0 := by
        rw [List.length_singleton]
        omega
      rw [scanReads, if_pos hpos, if_neg hmatch]
      exact List.mem_cons_of_mem _ List.mem_cons_self
    rw [List.length_singleton] at he
    omega
  | fuel + 1, type :: l :: bs, p, r, h, he, hrun, hreads => by
    by_cases hwanted : WantedAt tag (type :: l :: bs) 0
    · obtain ⟨rfl, rfl, h6⟩ := wantedAt_cons_zero_iff.mp hwanted
      exact Scannable.found h6
    have hne : l ≠ 0 := by
      rintro rfl
      have hl := (Mem.holds_cons.mp (Mem.holds_cons.mp h).2).1
      have hpos : ((type :: (0 : UInt8) :: bs).length : ℤ) > 0 := by
        rw [List.length_cons]
        omega
      rw [scanTlv_zero hl hpos] at hrun
      cases hrun
    obtain ⟨hnext, hnextReads⟩ := scan_next h hwanted fuel
    refine Scannable.next hne ?_
    rcases scan_drop h with ⟨hheld, hlen⟩ | ⟨hnil, -⟩
    · rw [hnext, hlen] at hrun
      rw [hnextReads, hlen] at hreads
      refine scannable_of_scan e fuel _ hheld ?_ hrun fun a ha => ?_
      · rw [← hlen, ← he]
        ring
      · exact hreads a (List.mem_cons_of_mem _ (List.mem_cons_of_mem _ ha))
    · rw [hnil]
      exact Scannable.nil

end Scan

/-- The scan is right exactly under the condition. -/
theorem scanRight_iff (mem : Mem) (data : ℤ) (len : ℕ) : ScanRight mem data len ↔
    NdScannable mem data len := by
  refine forall_congr' fun off => forall_congr' fun tag => imp_congr_right fun hoff =>
    imp_congr_right fun hle => ?_
  have hheld : mem.Holds (data + off) (mem.read (data + off) (len - off)) := by
    rw [Mem.Holds, Mem.length_read]
  have hlen : ((mem.read (data + off) (len - off)).length : ℤ) = len - off := by
    rw [Mem.length_read]
    omega
  constructor
  · rintro ⟨fuel, r, hrun, hreads, -⟩
    rw [← hlen] at hrun hreads
    refine scannable_of_scan (data + len) fuel _ hheld ?_ hrun fun a ha => (hreads a ha).2
    rw [hlen]
    ring
  · intro hscan
    obtain ⟨fuel, r, hrun, hreads, hfirst⟩ := scanOk_of_scannable hscan hheld
    rw [hlen] at hrun hreads
    refine ⟨fuel, r, hrun, fun a ha => ?_, hfirst⟩
    have hin := hreads a ha
    omega

/-- A router solicitation with an option of length 0. -/
def sampleSolicitation : Mem := fun a => if a = 0 then 133 else 0

/-- The scan does not end. -/
theorem not_scanRight_sample : ¬ScanRight sampleSolicitation 0 16 := by
  intro h
  obtain ⟨fuel, r, hrun, -⟩ := h 8 1 rfl (by decide)
  rw [scanTlv_zero rfl (by decide)] at hrun
  cases hrun

end Rtl8188eu
