import Mathlib.Data.List.TakeWhile
import Rtl8188eu.MgntXmit
import Rtl8188eu.SiteSurvey

/-!
# The channels of the access point

An access point with 802.11d sends a Country element, which lists its channels as triplets of a
first channel, a number of channels and a power. `process_80211d` spells them out in `chplan_ap` and
merges its 2.4 GHz channels with those of the own channel set : what the access point has becomes
active, the rest passive.

Neither of the two lists is checked against its room. `chplan_ap` has 15 bytes, and a single triplet
names up to 255 channels. The merge is one of sorted lists that fit the set together
(`adoptsRight_iff`).
-/

namespace Rtl8188eu

/-- `_COUNTRY_IE_`. -/
def countryIe : UInt8 := 7
/-- `MAX_CHANNEL_NUM`. -/
def maxChannelNum : ℕ := 14
/-- `WIRELESS_11G`. -/
def wireless11G : ℕ := 2

/-- An entry of `channel_set` that is cleared. -/
def noChannel : ChannelInfo := ⟨0, .passive⟩

/-- The array `channel_set` with the entries `new`, the rest cleared. -/
def cleared (new : List ChannelInfo) : List ChannelInfo :=
  new ++ List.replicate (maxChannelNum - new.length) noChannel

/-! ## The loops -/

/-- A write to the next entry of an array of `n` entries, `none` behind its end. -/
def put {α : Type} (n : ℕ) (xs : List α) (x : α) : Option (List α) :=
  if xs.length < n then some (xs ++ [x]) else none

/-- The channel number that a triplet gives for `j`. -/
def channelOf (fcn : UInt8) (j : ℕ) : ℕ :=
  if fcn ≤ 14 then (fcn.toNat + j) % 256 else (fcn.toNat + j * 4) % 256

/-- The loops over the triplets. The entry behind the 14 of `Channel` is `Len`, the last byte of
`chplan_ap`. -/
def expandTriplets : List UInt8 → List ℕ → Option (List ℕ)
  | fcn :: noc :: _ :: rest, chans =>
    ((List.range noc.toNat).foldlM (fun chans j => put (maxChannelNum + 1) chans (channelOf fcn j)) chans).bind
      (expandTriplets rest)
  | _, chans => some chans

/-- `chplan_ap.Channel` up to `chplan_ap.Len`, which is written last. -/
def chplanAp (triplets : List UInt8) : Option (List ℕ) :=
  (expandTriplets triplets []).map fun chans => chans.set maxChannelNum chans.length

/-- The loop that merges the channels `sta` of the station and `ap` of the access point. It stops
where one of them has no more 2.4 GHz channel. -/
def mergeLoop : List ChannelInfo → List ℕ → List ChannelInfo →
    Option (List ChannelInfo × List ℕ × List ChannelInfo)
  | s :: sta, c :: ap, new =>
    if s.channelNum = 0 ∨ 14 < s.channelNum then some (s :: sta, c :: ap, new)
    else if 14 < c then some (s :: sta, c :: ap, new)
    else if s.channelNum = c then (put maxChannelNum new ⟨c, .active⟩).bind (mergeLoop sta ap)
    else if s.channelNum < c then
      (put maxChannelNum new ⟨s.channelNum, .passive⟩).bind (mergeLoop sta (c :: ap))
    else (put maxChannelNum new ⟨c, .active⟩).bind (mergeLoop (s :: sta) ap)
  | sta, ap, new => some (sta, ap, new)
termination_by sta ap => sta.length + ap.length

/-- The loops that copy the entries of one list while `p` holds of them. -/
def copyWhile {α : Type} (p : α → Bool) (f : α → ChannelInfo) : List α → List ChannelInfo →
    Option (List α × List ChannelInfo)
  | [], new => some ([], new)
  | x :: xs, new =>
    if p x then (put maxChannelNum new (f x)).bind (copyWhile p f xs) else some (x :: xs, new)

/-- A 2.4 GHz channel of the own set. -/
def isGhz24 (s : ChannelInfo) : Bool := decide (s.channelNum ≠ 0 ∧ s.channelNum ≤ 14)

/-- The loop that changes what the access point does not support to passive scan. -/
def toPassive : List ChannelInfo → List ChannelInfo → Option (List ChannelInfo × List ChannelInfo) :=
  copyWhile isGhz24 fun s => ⟨s.channelNum, .passive⟩

/-- The loop that adds what only the access point supports. -/
def addSupported : List ℕ → List ChannelInfo → Option (List ℕ × List ChannelInfo) :=
  copyWhile (fun c => decide (c ≤ 14)) fun c => ⟨c, .active⟩

/-- The loop that keeps the 2.4 GHz plan of the station. -/
def keep24 : List ChannelInfo → List ChannelInfo → Option (List ChannelInfo × List ChannelInfo) :=
  copyWhile isGhz24 id

/-- The loop that keeps the 5 GHz plan of the station. -/
def keep5 : List ChannelInfo → List ChannelInfo → Option (List ChannelInfo × List ChannelInfo) :=
  copyWhile (fun s => decide (s.channelNum ≠ 0)) id

/-- The merge with its two tails. -/
def mergePlans (sta : List ChannelInfo) (ap : List ℕ) (new : List ChannelInfo) :
    Option (List ChannelInfo × List ChannelInfo) :=
  (mergeLoop sta ap new).bind fun (sta, ap, new) =>
    (toPassive sta new).bind fun (sta, new) => (addSupported ap new).map fun (_, new) => (sta, new)

/-- What `process_80211d` does with the triplets of a Country element : the new `channel_set`. -/
def adoptPlan (wirelessMode : ℕ) (channelSet : List ChannelInfo) (triplets : List UInt8) :
    Option (List ChannelInfo) :=
  (chplanAp triplets).bind fun ap =>
    (if wirelessMode &&& wireless11G ≠ 0 then mergePlans channelSet ap [] else keep24 channelSet []).bind
      fun (sta, new) => (keep5 sta new).map fun (_, new) => cleared new

/-- The last loop, which makes the channel that the access point uses an active one. -/
def activateUsed (channel : ℕ) : List ChannelInfo → List ChannelInfo
  | [] => []
  | c :: cs =>
    if c.channelNum = 0 then c :: cs
    else if c.channelNum = channel then
      (if c.scanType = .passive then { c with scanType := .active } else c) :: cs
    else c :: activateUsed channel cs

/-- The fields of the adapter that `process_80211d` works with. -/
structure Dot11d where
  enable80211d : Bool
  wirelessMode : ℕ
  updateChannelPlanByApDone : Bool
  channelSet : List ChannelInfo
  deriving DecidableEq, Repr

/-- The fields of `struct wlan_bssid_ex` that it reads. The elements are in memory from the address
0 on. -/
structure CountryBss where
  ies : Mem
  ieLength : ℕ
  dsConfig : ℕ

/-- `process_80211d`. `none` is a write outside `chplan_ap` or `channel_set`. -/
def process80211d (s : Dot11d) (bssid : CountryBss) : Option Dot11d :=
  let channel := bssid.dsConfig % 256
  if s.enable80211d && !s.updateChannelPlanByApDone then
    match rtwGetIe bssid.ies 12 countryIe (toInt (bssid.ieLength - 12)) with
    | none => some s
    | some (ie, len) =>
      if len < 6 then some s
      else
        (adoptPlan s.wirelessMode s.channelSet (bssid.ies.read (ie + 2 + 3) (len - 3))).map fun set =>
          { s with channelSet := activateUsed channel set, updateChannelPlanByApDone := true }
  else some { s with channelSet := activateUsed channel s.channelSet }

/-! ## What the element names -/

/-- The channels of a triplet, which are next to each other at 2.4 GHz and four apart at 5 GHz. -/
def tripletChannels (fcn noc : UInt8) : List ℕ :=
  (List.range noc.toNat).map fun j => if fcn ≤ 14 then fcn.toNat + j else fcn.toNat + j * 4

/-- The channels that the triplets of an element name. -/
def namedChannels : List UInt8 → List ℕ
  | fcn :: noc :: _ :: rest => tripletChannels fcn noc ++ namedChannels rest
  | _ => []

/-- The 2.4 GHz channels among them. -/
def named24 (triplets : List UInt8) : List ℕ :=
  (namedChannels triplets).filter fun c => decide (1 ≤ c ∧ c ≤ 14)

/-- A sorted list without repeats of the channels of the station and of the access point, where
exactly those of the access point are active. -/
structure IsUnion (sta : List ChannelInfo) (ap : List ℕ) (new : List ChannelInfo) : Prop where
  sorted : (new.map ChannelInfo.channelNum).Pairwise (· < ·)
  mem : ∀ c, c ∈ new ↔ (c.channelNum ∈ ap ∧ c.scanType = .active) ∨
    (c.channelNum ∈ sta.map ChannelInfo.channelNum ∧ c.channelNum ∉ ap ∧ c.scanType = .passive)

/-- A channel set sorted by channel in its array : a zero channel ends the entries if there are
fewer than 14. -/
structure SortedSet where
  entries : List ChannelInfo
  rest : List ChannelInfo
  length_eq : entries.length + rest.length = maxChannelNum
  byte : ∀ c ∈ entries, 0 < c.channelNum ∧ c.channelNum < 256
  sorted : (entries.map ChannelInfo.channelNum).Pairwise (· < ·)
  ends : ∀ c ∈ rest.head?, c.channelNum = 0

namespace SortedSet

variable (own : SortedSet)

/-- The array. -/
def cells : List ChannelInfo := own.entries ++ own.rest

/-- The channel numbers. -/
def channels : List ℕ := own.entries.map ChannelInfo.channelNum

/-- The 2.4 GHz part. -/
def ghz24 : List ChannelInfo := own.entries.filter fun c => decide (c.channelNum ≤ 14)

/-- The 5 GHz part. -/
def ghz5 : List ChannelInfo := own.entries.filter fun c => decide (14 < c.channelNum)

end SortedSet

/-- The adapter before the call, with a sorted channel set. -/
def Dot11d.withSet (s : Dot11d) (own : SortedSet) : Dot11d := { s with channelSet := own.cells }

/-- The triplets of the Country element that `process_80211d` takes the channels from. -/
def adopted (s : Dot11d) (bssid : CountryBss) : Option (List UInt8) :=
  if s.enable80211d && !s.updateChannelPlanByApDone then
    match rtwGetIe bssid.ies 12 countryIe (toInt (bssid.ieLength - 12)) with
    | none => none
    | some (ie, len) => if len < 6 then none else some (bssid.ies.read (ie + 2 + 3) (len - 3))
  else none

/-- What is claimed of `process_80211d`. Nothing is written outside the two arrays. With the
channels of an element whose 2.4 GHz channels increase, the set becomes the union of the 2.4 GHz
channels, then the own 5 GHz channels. The channel that the access point itself uses is made active
afterwards. -/
def AdoptsRight (s : Dot11d) (own : SortedSet) (bssid : CountryBss) : Prop :=
  process80211d (s.withSet own) bssid ≠ none ∧
    ∀ triplets ∈ adopted s bssid, s.wirelessMode &&& wireless11G ≠ 0 →
      (named24 triplets).Pairwise (· < ·) →
      ∃ new : List ChannelInfo, IsUnion own.ghz24 (named24 triplets) new ∧
        adoptPlan s.wirelessMode own.cells triplets = some (cleared (new ++ own.ghz5)) ∧
        process80211d (s.withSet own) bssid = some
          { s with
            channelSet := activateUsed (bssid.dsConfig % 256) (cleared (new ++ own.ghz5))
            updateChannelPlanByApDone := true }

/-! ## When it is right -/

/-- The numbers that are larger than all before them and than `b`. -/
def records : ℕ → List ℕ → List ℕ
  | _, [] => []
  | b, c :: cs => if b < c then c :: records c cs else records b cs

/-- The bytes that are written for the channels of an element. -/
def channelBytes (triplets : List UInt8) : List ℕ := (namedChannels triplets).map fun c => c % 256

/-- The channels that take part in the merge. The entry behind the 14 of the array is the number of
channels, 15. -/
def mergedBytes (triplets : List UInt8) : List ℕ :=
  ((channelBytes triplets).set maxChannelNum maxChannelNum.succ).takeWhile fun c => decide (c ≤ 14)

/-- The condition on the triplets and on the own set. The named channels fit `chplan_ap`. In the
merge they fit the set with the own ones, where only a record is found in the own set, and if the
2.4 GHz channels increase, they are what the merge sees. -/
def Mergeable (wirelessMode : ℕ) (own : SortedSet) (triplets : List UInt8) : Prop :=
  (namedChannels triplets).length ≤ maxChannelNum + 1 ∧
    (wirelessMode &&& wireless11G ≠ 0 →
      own.entries.length + (mergedBytes triplets).length ≤ maxChannelNum +
        ((records 0 (mergedBytes triplets)).filter fun c => decide (c ∈ own.channels)).length ∧
      ((named24 triplets).Pairwise (· < ·) → mergedBytes triplets = named24 triplets))

/-! ## The loops as list operations -/

theorem put_bind {α β : Type} (n : ℕ) (xs : List α) (x : α) (f : List α → Option β) :
    (put n xs x).bind f = if xs.length < n then f (xs ++ [x]) else none := by
  unfold put
  split_ifs <;> rfl

theorem foldlM_put {α β : Type} (n : ℕ) (f : β → α) :
    ∀ (js : List β) (xs : List α), xs.length ≤ n →
      js.foldlM (fun xs j => put n xs (f j)) xs =
        if xs.length + js.length ≤ n then some (xs ++ js.map f) else none
  | [], xs, hxs => by
    rw [List.foldlM_nil, if_pos (by simpa using hxs), List.map_nil, List.append_nil]
    rfl
  | j :: js, xs, hxs => by
    have hbind : (j :: js).foldlM (fun xs j => put n xs (f j)) xs =
        (put n xs (f j)).bind fun xs => js.foldlM (fun xs j => put n xs (f j)) xs :=
          List.foldlM_cons
    rw [hbind, put_bind, List.length_cons]
    split_ifs with hlt hle hle
    · rw [foldlM_put n f js _ (by simp; omega), if_pos (by simp; omega)]
      simp
    · rw [foldlM_put n f js _ (by simp; omega), if_neg (by simp; omega)]
    · omega
    · rfl

theorem map_channelOf (fcn noc : UInt8) :
    (List.range noc.toNat).map
    (channelOf fcn) = (tripletChannels fcn noc).map fun c => c % 256 := by
  rw [tripletChannels, List.map_map]
  refine List.map_congr_left fun j _ => ?_
  simp only [channelOf, Function.comp_apply]
  split_ifs <;> rfl

theorem expandTriplets_eq (triplets : List UInt8) (chans : List ℕ)
    (hlen : chans.length ≤ maxChannelNum + 1) :
    expandTriplets triplets chans =
      if chans.length + (namedChannels triplets).length ≤ maxChannelNum + 1 then
        some (chans ++ channelBytes triplets)
      else none := by
  fun_induction namedChannels triplets generalizing chans with
  | case1 fcn noc pwr rest ih =>
    have hcount : (tripletChannels fcn noc).length = noc.toNat := by simp [tripletChannels]
    rw [expandTriplets, foldlM_put _ _ _ _ hlen, map_channelOf, List.length_range,
      List.length_append, hcount]
    have hbytes : channelBytes (fcn :: noc :: pwr :: rest) =
        ((tripletChannels fcn noc).map fun c => c % 256) ++ channelBytes rest := by
      simp [channelBytes, namedChannels]
    by_cases hroom : chans.length + noc.toNat ≤ maxChannelNum + 1
    · have hnew : (chans ++ (tripletChannels fcn noc).map fun c => c % 256).length ≤
        maxChannelNum + 1 := by
        simpa [hcount] using hroom
      rw [if_pos hroom, Option.bind_some, ih _ hnew, hbytes]
      simp [hcount, Nat.add_assoc]
    · rw [if_neg hroom, if_neg (by omega)]
      rfl
  | case2 triplets hshort =>
    have hnone : expandTriplets triplets chans = some chans := by
      rw [expandTriplets]
      exact hshort
    have hbytes : channelBytes triplets = [] := by
      rw [channelBytes, namedChannels]
      · rfl
      · exact hshort
    rw [hnone, hbytes, if_pos (by simpa using hlen), List.append_nil]

theorem chplanAp_eq (triplets : List UInt8) :
    chplanAp triplets =
      if (namedChannels triplets).length ≤ maxChannelNum + 1 then
        some ((channelBytes triplets).set maxChannelNum maxChannelNum.succ)
      else none := by
  rw [chplanAp, expandTriplets_eq triplets [] (by simp), List.length_nil, Nat.zero_add,
    List.nil_append]
  split_ifs with hle
  · have hlen : (channelBytes triplets).length = (namedChannels triplets).length := by
      simp [channelBytes]
    rw [Option.map_some]
    rcases Nat.lt_or_ge maxChannelNum (namedChannels triplets).length with hlt | hge
    · rw [hlen, show (namedChannels triplets).length = maxChannelNum.succ by omega]
    · rw [List.set_eq_of_length_le (by omega), List.set_eq_of_length_le (by omega)]
  · rfl

theorem copyWhile_eq {α : Type} (p : α → Bool) (f : α → ChannelInfo) :
    ∀ (xs : List α) (new : List ChannelInfo), new.length ≤ maxChannelNum →
      copyWhile p f xs new =
        if new.length + (xs.takeWhile p).length ≤ maxChannelNum then
          some (xs.dropWhile p, new ++ (xs.takeWhile p).map f)
        else none
  | [], new, hnew => by
    rw [copyWhile, if_pos (by simpa using hnew)]
    simp
  | x :: xs, new, hnew => by
    rw [copyWhile]
    by_cases hp : p x
    · rw [if_pos hp, put_bind, List.takeWhile_cons_of_pos hp, List.dropWhile_cons_of_pos hp,
        List.length_cons]
      split_ifs with hlt hle hle
      · rw [copyWhile_eq p f xs _ (by simp; omega), if_pos (by simp; omega)]
        simp
      · rw [copyWhile_eq p f xs _ (by simp; omega), if_neg (by simp; omega)]
      · omega
      · rfl
    · rw [if_neg hp, List.takeWhile_cons_of_neg hp, List.dropWhile_cons_of_neg hp,
        if_pos (by simpa using hnew)]
      simp

/-! ## The merge -/

/-- What the merge writes for the 2.4 GHz channels of both. -/
def merged : List ChannelInfo → List ℕ → List ChannelInfo
  | s :: sta, c :: ap =>
    if s.channelNum = c then ⟨c, .active⟩ :: merged sta ap
    else if s.channelNum < c then ⟨s.channelNum, .passive⟩ :: merged sta (c :: ap)
    else ⟨c, .active⟩ :: merged (s :: sta) ap
  | sta, [] => sta.map fun s => ⟨s.channelNum, .passive⟩
  | [], ap => ap.map fun c => ⟨c, .active⟩
termination_by sta ap => sta.length + ap.length

/-- The loop stops where one of the lists has no 2.4 GHz channel. -/
theorem mergeLoop_stop {sta : List ChannelInfo} {ap : List ℕ} (new : List ChannelInfo)
    (h : (∀ s ∈ sta.head?, isGhz24 s = false) ∨ ∀ c ∈ ap.head?, 14 < c) :
    mergeLoop sta ap new = some (sta, ap, new) := by
  cases sta with
  | nil =>
    rw [mergeLoop]
    simp
  | cons s sta =>
    cases ap with
    | nil =>
      rw [mergeLoop]
      simp
    | cons c ap =>
      rw [mergeLoop]
      split_ifs with hs hc
      · rfl
      · rfl
      all_goals
        exfalso
        rcases h with h | h
        · have hs' := h s rfl
          simp only [isGhz24, decide_eq_false_iff_not] at hs'
          omega
        · exact hc (h c rfl)

theorem takeWhile_eq_nil_of_head {α : Type} {p : α → Bool} {xs : List α}
    (h : ∀ x ∈ xs.head?, p x = false) :
    xs.takeWhile p = [] := by
  cases xs with
  | nil => rfl
  | cons x xs => exact List.takeWhile_cons_of_neg (by simp [h x rfl])

theorem dropWhile_eq_self_of_head {α : Type} {p : α → Bool} {xs : List α}
    (h : ∀ x ∈ xs.head?, p x = false) :
    xs.dropWhile p = xs := by
  cases xs with
  | nil => rfl
  | cons x xs => exact List.dropWhile_cons_of_neg (by simp [h x rfl])

theorem copyWhile_stop {α : Type} {p : α → Bool} (f : α → ChannelInfo) {xs : List α}
    (h : ∀ x ∈ xs.head?, p x = false) (new : List ChannelInfo) :
    copyWhile p f xs new = some (xs, new) := by
  cases xs with
  | nil => rfl
  | cons x xs =>
    rw [copyWhile, if_neg]
    simp [h x rfl]

/-- A copying loop over a block of entries that it takes and what follows them, where it stops. -/
theorem copyWhile_append {α : Type} {p : α → Bool} (f : α → ChannelInfo) {xs rest : List α}
    (hxs : ∀ x ∈ xs, p x) (hrest : ∀ x ∈ rest.head?, p x = false) {new : List ChannelInfo}
    (hnew : new.length ≤ maxChannelNum) :
    copyWhile p f (xs ++ rest) new =
      if new.length + xs.length ≤ maxChannelNum then some (rest, new ++ xs.map f) else none := by
  rw [copyWhile_eq p f _ _ hnew, List.takeWhile_append_of_pos hxs, List.dropWhile_append_of_pos hxs,
    takeWhile_eq_nil_of_head hrest, dropWhile_eq_self_of_head hrest, List.append_nil]

/-- The tails, where the loop has stopped. -/
theorem mergePlans_stop {sta : List ChannelInfo} {ap : List ℕ} (new : List ChannelInfo)
    (h : (∀ s ∈ sta.head?, isGhz24 s = false) ∨ ∀ c ∈ ap.head?, 14 < c) :
    mergePlans sta ap new =
      (toPassive sta new).bind fun r => (addSupported ap r.2).map fun q => (r.1, q.2) := by
  rw [mergePlans, mergeLoop_stop new h]
  rfl

/-- A round of the loop that writes `x`, before rounds that write `rest`. -/
theorem mergePlans_of_round {sta sta' after : List ChannelInfo} {ap ap' : List ℕ}
    {new rest : List ChannelInfo}
    {x : ChannelInfo} (h : mergeLoop sta ap new = (put maxChannelNum new x).bind
    (mergeLoop sta' ap'))
    (ih : ∀ new : List ChannelInfo, new.length ≤ maxChannelNum → mergePlans sta' ap' new =
      if new.length + rest.length ≤ maxChannelNum then some (after, new ++ rest) else none) :
    mergePlans sta ap new =
      if new.length + (x :: rest).length ≤
        maxChannelNum then some (after, new ++ x :: rest) else none := by
  have hput : mergePlans sta ap new = if new.length < maxChannelNum then mergePlans sta' ap'
    (new ++ [x]) else none := by
    rw [mergePlans, h, Option.bind_assoc, put_bind]
    rfl
  have hlen : (new ++ [x]).length + rest.length = new.length + (x :: rest).length := by
    rw [List.length_append, List.length_cons, List.length_cons, List.length_nil]
    omega
  rw [hput]
  by_cases hlt : new.length < maxChannelNum
  · rw [if_pos hlt, ih _ (by rw [List.length_append]; exact hlt), hlen, List.append_assoc,
      List.singleton_append]
  · rw [if_neg hlt, if_neg (by rw [List.length_cons]; omega)]

/-- The merge of 2.4 GHz channels, which something else follows in both lists. -/
theorem mergePlans_eq {sta after : List ChannelInfo} {ap behind : List ℕ}
    (hsta : ∀ s ∈ sta, isGhz24 s)
    (hafter : ∀ s ∈ after.head?, isGhz24 s = false) (hap : ∀ c ∈ ap, c ≤ 14)
    (hbehind : ∀ c ∈ behind.head?, 14 < c) (new : List ChannelInfo)
    (hnew : new.length ≤ maxChannelNum) :
    mergePlans (sta ++ after) (ap ++ behind) new =
      if new.length + (merged sta ap).length ≤
        maxChannelNum then some (after, new ++ merged sta ap) else none := by
  have hdone : ∀ c ∈ behind.head?, decide (c ≤ 14) = false := by
    intro c hc
    have hlt := hbehind c hc
    simpa using hlt
  fun_induction merged sta ap generalizing new with
  | case1 s sta ap ih =>
    have hs := of_decide_eq_true (hsta s List.mem_cons_self)
    have hloop : mergeLoop (s :: sta ++ after) (s.channelNum :: ap ++ behind) new =
        (put maxChannelNum new ⟨s.channelNum, .active⟩).bind
          (mergeLoop (sta ++ after) (ap ++ behind)) := by
      rw [List.cons_append, List.cons_append, mergeLoop, if_neg (by omega), if_neg (by omega),
        if_pos rfl]
    exact mergePlans_of_round hloop
      fun new hnew => ih (fun x hx => hsta x (List.mem_cons_of_mem _ hx))
      (fun x hx => hap x (List.mem_cons_of_mem _ hx)) new hnew
  | case2 s sta c ap hne hlt ih =>
    have hs := of_decide_eq_true (hsta s List.mem_cons_self)
    have hc := hap c List.mem_cons_self
    have hloop : mergeLoop (s :: sta ++ after) (c :: ap ++ behind) new =
        (put maxChannelNum new ⟨s.channelNum, .passive⟩).bind
          (mergeLoop (sta ++ after) (c :: ap ++ behind)) := by
      rw [List.cons_append, List.cons_append, mergeLoop, if_neg (by omega), if_neg (by omega),
        if_neg hne, if_pos hlt]
    exact mergePlans_of_round hloop
      fun new hnew => ih (fun x hx => hsta x (List.mem_cons_of_mem _ hx)) hap new hnew
  | case3 s sta c ap hne hlt ih =>
    have hs := of_decide_eq_true (hsta s List.mem_cons_self)
    have hc := hap c List.mem_cons_self
    have hloop : mergeLoop (s :: sta ++ after) (c :: ap ++ behind) new =
        (put maxChannelNum new ⟨c, .active⟩).bind
          (mergeLoop (s :: sta ++ after) (ap ++ behind)) := by
      rw [List.cons_append, List.cons_append, mergeLoop, if_neg (by omega), if_neg (by omega),
        if_neg hne, if_neg hlt]
    exact mergePlans_of_round hloop
      fun new hnew => ih hsta (fun x hx => hap x (List.mem_cons_of_mem _ hx)) new hnew
  | case4 sta =>
    rw [List.nil_append, mergePlans_stop _ (Or.inr hbehind), toPassive,
      copyWhile_append _ hsta hafter hnew,
      List.length_map]
    split_ifs
    · rw [Option.bind_some, addSupported, copyWhile_stop _ hdone, Option.map_some]
    · rfl
  | case5 ap hne =>
    rw [List.nil_append, mergePlans_stop _ (Or.inl hafter), toPassive, copyWhile_stop _ hafter,
      Option.bind_some,
      addSupported, copyWhile_append _ (by simpa using hap) hdone hnew, List.length_map]
    split_ifs <;> rfl

theorem filter_active_merged (sta : List ChannelInfo) (ap : List ℕ) :
    (merged sta ap).filter (fun c => decide (c.scanType = .active)) =
    ap.map fun c => ⟨c, .active⟩ := by
  fun_induction merged sta ap with
  | case1 s sta ap ih => rw [List.filter_cons_of_pos (by simp), ih, List.map_cons]
  | case2 s sta c ap hne hlt ih => rw [List.filter_cons_of_neg (by simp), ih]
  | case3 s sta c ap hne hlt ih => rw [List.filter_cons_of_pos (by simp), ih, List.map_cons]
  | case4 sta => simp [List.filter_map, Function.comp_def]
  | case5 ap hne => simp [List.filter_map, Function.comp_def]

theorem mem_merged {sta : List ChannelInfo} {ap : List ℕ}
    (hsta : (sta.map ChannelInfo.channelNum).Pairwise (· < ·)) (hap : ap.Pairwise (· < ·))
    (c : ChannelInfo) :
    c ∈ merged sta ap ↔ (c.channelNum ∈ ap ∧ c.scanType = .active) ∨
      (c.channelNum ∈ sta.map ChannelInfo.channelNum ∧ c.channelNum ∉ ap ∧
      c.scanType = .passive) := by
  obtain ⟨n, t⟩ := c
  fun_induction merged sta ap with
  | case1 s sta ap ih =>
    rw [List.map_cons, List.pairwise_cons] at hsta
    rw [List.pairwise_cons] at hap
    rw [List.mem_cons, ih hsta.2 hap.2]
    grind
  | case2 s sta c ap hne hlt ih =>
    rw [List.map_cons, List.pairwise_cons] at hsta
    rw [List.mem_cons, ih hsta.2 hap]
    rw [List.pairwise_cons] at hap
    grind
  | case3 s sta c ap hne hlt ih =>
    rw [List.pairwise_cons] at hap
    rw [List.mem_cons, ih hsta hap.2]
    rw [List.map_cons, List.pairwise_cons] at hsta
    grind
  | case4 sta => grind
  | case5 ap hne => simp [eq_comm]

theorem sorted_merged {sta : List ChannelInfo} {ap : List ℕ}
    (hsta : (sta.map ChannelInfo.channelNum).Pairwise (· < ·)) (hap : ap.Pairwise (· < ·)) :
    ((merged sta ap).map ChannelInfo.channelNum).Pairwise (· < ·) := by
  fun_induction merged sta ap with
  | case1 s sta ap ih =>
    rw [List.map_cons, List.pairwise_cons] at hsta
    rw [List.pairwise_cons] at hap
    refine List.pairwise_cons.mpr ⟨?_, ih hsta.2 hap.2⟩
    intro n hn
    obtain ⟨c, hc, rfl⟩ := List.mem_map.mp hn
    rcases (mem_merged hsta.2 hap.2 c).mp hc with ⟨hmem, -⟩ | ⟨hmem, -⟩
    · exact hap.1 _ hmem
    · exact hsta.1 _ hmem
  | case2 s sta c ap hne hlt ih =>
    rw [List.map_cons, List.pairwise_cons] at hsta
    refine List.pairwise_cons.mpr ⟨?_, ih hsta.2 hap⟩
    intro n hn
    obtain ⟨x, hx, rfl⟩ := List.mem_map.mp hn
    rcases (mem_merged hsta.2 hap x).mp hx with ⟨hmem, -⟩ | ⟨hmem, -⟩
    · rcases List.mem_cons.mp hmem with heq | hmem
      · exact heq ▸ hlt
      · exact hlt.trans ((List.pairwise_cons.mp hap).1 _ hmem)
    · exact hsta.1 _ hmem
  | case3 s sta c ap hne hlt ih =>
    rw [List.pairwise_cons] at hap
    refine List.pairwise_cons.mpr ⟨?_, ih hsta hap.2⟩
    have hcs : c < s.channelNum := by omega
    intro n hn
    obtain ⟨x, hx, rfl⟩ := List.mem_map.mp hn
    rcases (mem_merged hsta hap.2 x).mp hx with ⟨hmem, -⟩ | ⟨hmem, -⟩
    · exact hap.1 _ hmem
    · rcases List.mem_cons.mp hmem with heq | hmem
      · exact heq ▸ hcs
      · exact hcs.trans ((List.pairwise_cons.mp hsta).1 _ hmem)
  | case4 sta => simpa [List.map_map, Function.comp_def] using hsta
  | case5 ap hne => simpa [List.map_map, Function.comp_def] using hap

theorem isUnion_merged {sta : List ChannelInfo} {ap : List ℕ}
    (hsta : (sta.map ChannelInfo.channelNum).Pairwise (· < ·)) (hap : ap.Pairwise (· < ·)) :
    IsUnion sta ap (merged sta ap) := ⟨sorted_merged hsta hap, mem_merged hsta hap⟩

/-- The active entries of a union are the channels of the access point. -/
theorem IsUnion.filter_active {sta new : List ChannelInfo} {ap : List ℕ} (h : IsUnion sta ap new)
    (hap : ap.Pairwise (· < ·)) :
    new.filter (fun c => decide (c.scanType = .active)) = ap.map fun c => ⟨c, .active⟩ := by
  have hnew : new.Pairwise fun c d => c.channelNum < d.channelNum := List.pairwise_map.mp h.sorted
  have hirrefl : Std.Irrefl fun c d : ChannelInfo => c.channelNum < d.channelNum :=
    ⟨fun c => lt_irrefl c.channelNum⟩
  have hasymm : Std.Antisymm fun c d : ChannelInfo => c.channelNum < d.channelNum :=
    ⟨fun c d hcd hdc => absurd (hcd.trans hdc) (lt_irrefl _)⟩
  refine List.Pairwise.eq_of_mem_iff (hnew.filter _) (List.pairwise_map.mpr hap) fun c => ?_
  obtain ⟨n, t⟩ := c
  rw [List.mem_filter, h.mem]
  constructor
  · rintro ⟨⟨hmem, ht⟩ | ⟨-, -, ht⟩, hact⟩
    · exact List.mem_map.mpr ⟨n, hmem, congrArg (ChannelInfo.mk n) ht.symm⟩
    · exact absurd (ht.symm.trans (of_decide_eq_true hact)) (by decide)
  · intro hmem
    obtain ⟨d, hd, heq⟩ := List.mem_map.mp hmem
    cases heq
    exact ⟨Or.inl ⟨hd, rfl⟩, rfl⟩

/-! ## The room that the merge takes -/

theorem le_of_mem_records {b c : ℕ} : ∀ {cs : List ℕ}, c ∈ records b cs → b < c
  | [], h => absurd h List.not_mem_nil
  | d :: cs, h => by
    rw [records] at h
    split_ifs at h with hlt
    · rcases List.mem_cons.mp h with rfl | h
      · exact hlt
      · exact hlt.trans (le_of_mem_records h)
    · exact le_of_mem_records h

/-- The channels that the merge finds in both lists. -/
def common (sta : List ChannelInfo) (b : ℕ) (ap : List ℕ) : List ℕ :=
  (records b ap).filter fun c => decide (c ∈ sta.map ChannelInfo.channelNum)

theorem common_of_lt (sta : List ChannelInfo) {b c : ℕ} (ap : List ℕ) (hlt : b < c) :
    common sta b (c :: ap) =
      if c ∈ sta.map ChannelInfo.channelNum then c :: common sta c ap else common sta c ap := by
  rw [common, records, if_pos hlt, List.filter_cons]
  simp [common]

/-- A channel of the station below all records does not count. -/
theorem common_cons {s : ChannelInfo} {sta : List ChannelInfo} {b : ℕ} {ap : List ℕ}
    (h : ∀ c ∈ records b ap, s.channelNum < c) : common (s :: sta) b ap = common sta b ap := by
  refine List.filter_congr fun c hc => ?_
  have hne := (h c hc).ne'
  simp [List.mem_cons, hne]

theorem length_merged {sta : List ChannelInfo} {ap : List ℕ}
    (hsta : (sta.map ChannelInfo.channelNum).Pairwise (· < ·)) {b : ℕ}
    (hb : ∀ s ∈ sta, b < s.channelNum) :
    (merged sta ap).length + (common sta b ap).length = sta.length + ap.length := by
  fun_induction merged sta ap generalizing b with
  | case1 s sta ap ih =>
    rw [List.map_cons, List.pairwise_cons] at hsta
    have hlt := hb s List.mem_cons_self
    have hrest : ∀ x ∈ sta, s.channelNum < x.channelNum :=
      fun x hx => hsta.1 _ (List.mem_map_of_mem hx)
    have ih' := ih hsta.2 hrest
    rw [common_of_lt _ _ hlt, if_pos (by simp), common_cons fun c hc => le_of_mem_records hc]
    simp only [List.length_cons]
    omega
  | case2 s sta c ap hne hlt ih =>
    rw [List.map_cons, List.pairwise_cons] at hsta
    have hbs := hb s List.mem_cons_self
    have hrest : ∀ x ∈ sta, b < x.channelNum := fun x hx => hb x (List.mem_cons_of_mem _ hx)
    have ih' := ih hsta.2 hrest
    have habove : ∀ d ∈ records b (c :: ap), s.channelNum < d := by
      intro d hd
      rw [records, if_pos (hbs.trans hlt)] at hd
      rcases List.mem_cons.mp hd with rfl | hd
      · exact hlt
      · exact hlt.trans (le_of_mem_records hd)
    rw [common_cons habove]
    simp only [List.length_cons] at ih' ⊢
    omega
  | case3 s sta c ap hne hlt ih =>
    have hcs : c < s.channelNum := by omega
    have hall : ∀ x ∈ s :: sta, c < x.channelNum := by
      rw [List.map_cons, List.pairwise_cons] at hsta
      intro x hx
      rcases List.mem_cons.mp hx with rfl | hx
      · exact hcs
      · exact hcs.trans (hsta.1 _ (List.mem_map_of_mem hx))
    by_cases hbc : b < c
    · have hnot : c ∉ (s :: sta).map ChannelInfo.channelNum := by
        intro hmem
        obtain ⟨x, hx, rfl⟩ := List.mem_map.mp hmem
        exact lt_irrefl _ (hall x hx)
      have ih' := ih hsta hall
      rw [common_of_lt _ _ hbc, if_neg hnot]
      simp only [List.length_cons] at ih' ⊢
      omega
    · have ih' := ih hsta hb
      rw [common, records, if_neg hbc, ← common]
      simp only [List.length_cons] at ih' ⊢
      omega
  | case4 sta => simp [common, records]
  | case5 ap hne => simp [common]

theorem mem_of_mem_records {b c : ℕ} : ∀ {cs : List ℕ}, c ∈ records b cs → c ∈ cs
  | [], h => absurd h List.not_mem_nil
  | d :: cs, h => by
    rw [records] at h
    split_ifs at h
    · rcases List.mem_cons.mp h with rfl | h
      · exact List.mem_cons_self
      · exact List.mem_cons_of_mem _ (mem_of_mem_records h)
    · exact List.mem_cons_of_mem _ (mem_of_mem_records h)

namespace SortedSet

variable (own : SortedSet)

/-- A sorted set is its 2.4 GHz part and then its 5 GHz part. -/
theorem entries_eq : own.entries = own.ghz24 ++ own.ghz5 := by
  have hsplit : ∀ cs : List ChannelInfo, (cs.map ChannelInfo.channelNum).Pairwise (· < ·) →
      cs = cs.filter (fun c => decide (c.channelNum ≤ 14)) ++ cs.filter
        fun c => decide (14 < c.channelNum) := by
    intro cs hcs
    induction cs with
    | nil => rfl
    | cons c cs ih =>
      rw [List.map_cons, List.pairwise_cons] at hcs
      by_cases hc : c.channelNum ≤ 14
      · rw [List.filter_cons_of_pos (by simpa using hc),
          List.filter_cons_of_neg (by simpa using hc),
          List.cons_append, ← ih hcs.2]
      · have habove : ∀ d ∈ cs, 14 < d.channelNum := fun d hd =>
          lt_trans (by omega) (hcs.1 _ (List.mem_map_of_mem hd))
        have hlow : cs.filter (fun c => decide (c.channelNum ≤ 14)) = [] :=
          List.filter_eq_nil_iff.mpr fun d hd => by
            have hd' := habove d hd
            simp only [decide_eq_true_eq]
            omega
        have hhigh : cs.filter (fun c => decide (14 < c.channelNum)) = cs :=
          List.filter_eq_self.mpr fun d hd => decide_eq_true (habove d hd)
        rw [List.filter_cons_of_neg (by simpa using hc), List.filter_cons_of_pos (by simp; omega),
          hlow, hhigh,
          List.nil_append]
  exact hsplit own.entries own.sorted

theorem length_entries : own.ghz24.length + own.ghz5.length = own.entries.length := by
  conv_rhs => rw [own.entries_eq, List.length_append]

theorem length_le : own.entries.length ≤ maxChannelNum := by
  have := own.length_eq
  omega

theorem isGhz24_of_mem {s : ChannelInfo} (hs : s ∈ own.ghz24) : isGhz24 s := by
  obtain ⟨hmem, hle⟩ := List.mem_filter.mp hs
  have hpos := (own.byte s hmem).1
  exact decide_eq_true ⟨by omega, of_decide_eq_true hle⟩

theorem sorted_ghz24 : (own.ghz24.map ChannelInfo.channelNum).Pairwise (· < ·) :=
  own.sorted.sublist (List.filter_sublist.map _)

/-- What follows the 2.4 GHz part does not begin with a 2.4 GHz channel. -/
theorem after_ghz24 : ∀ s ∈ (own.ghz5 ++ own.rest).head?, isGhz24 s = false := by
  intro s hs
  rcases h5 : own.ghz5 with _ | ⟨c, cs⟩
  · rw [h5, List.nil_append] at hs
    simp [isGhz24, own.ends s hs]
  · rw [h5, List.cons_append, List.head?_cons, Option.mem_some_iff] at hs
    subst hs
    have hmem : c ∈ own.ghz5 := h5 ▸ List.mem_cons_self
    have hlt := of_decide_eq_true (List.mem_filter.mp hmem).2
    simp only [isGhz24, decide_eq_false_iff_not]
    omega

/-- The loop that keeps the 5 GHz plan takes the whole 5 GHz part. -/
theorem keep5_eq {new : List ChannelInfo} (hnew : new.length ≤ maxChannelNum) :
    keep5 (own.ghz5 ++ own.rest) new =
      if new.length + own.ghz5.length ≤
        maxChannelNum then some (own.rest, new ++ own.ghz5) else none := by
  have hpos : ∀ s ∈ own.ghz5, decide (s.channelNum ≠ 0) = true := by
    intro s hs
    have hlt := (own.byte s (List.mem_filter.mp hs).1).1
    exact decide_eq_true (by omega)
  have hends : ∀ s ∈ own.rest.head?, decide (s.channelNum ≠ 0) = false := by
    intro s hs
    simp [own.ends s hs]
  rw [keep5, copyWhile_append id hpos hends hnew, List.map_id]

/-- The records of the merge that are in the own set are in its 2.4 GHz part. -/
theorem common_eq {ap : List ℕ} (hap : ∀ c ∈ ap, c ≤ 14) :
    (records 0 ap).filter (fun c => decide (c ∈ own.channels)) = common own.ghz24 0 ap := by
  refine List.filter_congr fun c hc => ?_
  have hle := hap c (mem_of_mem_records hc)
  have hiff : c ∈ own.channels ↔ c ∈ own.ghz24.map ChannelInfo.channelNum := by
    simp only [channels, ghz24, List.mem_map, List.mem_filter, decide_eq_true_eq]
    constructor
    · rintro ⟨s, hs, rfl⟩
      exact ⟨s, ⟨hs, hle⟩, rfl⟩
    · rintro ⟨s, ⟨hs, -⟩, rfl⟩
      exact ⟨s, hs, rfl⟩
  simp only [hiff]

end SortedSet

theorem le_of_mem_mergedBytes (triplets : List UInt8) {c : ℕ} (hc : c ∈ mergedBytes triplets) :
    c ≤ 14 := by
  have hp := List.mem_takeWhile_imp hc
  exact of_decide_eq_true hp

/-- The merge of the triplets into the own set. -/
theorem adoptPlan_merge {wirelessMode : ℕ} (h11G : wirelessMode &&& wireless11G ≠ 0)
    (own : SortedSet)
    (triplets : List UInt8) :
    adoptPlan wirelessMode own.cells triplets =
      if (namedChannels triplets).length ≤ maxChannelNum + 1 ∧
          (merged own.ghz24 (mergedBytes triplets)).length + own.ghz5.length ≤ maxChannelNum then
        some (cleared (merged own.ghz24 (mergedBytes triplets) ++ own.ghz5))
      else none := by
  rw [adoptPlan, chplanAp_eq]
  by_cases hroom : (namedChannels triplets).length ≤ maxChannelNum + 1
  · set bytes := (channelBytes triplets).set maxChannelNum maxChannelNum.succ with hbytes
    have hsplit : bytes = mergedBytes triplets ++ bytes.dropWhile fun c => decide (c ≤ 14) :=
      List.takeWhile_append_dropWhile.symm
    have hbehind : ∀ c ∈ (bytes.dropWhile fun c => decide (c ≤ 14)).head?, 14 < c := by
      intro c hc
      rw [← List.find?_not_eq_head?_dropWhile] at hc
      have hnot := List.find?_some hc
      simpa using hnot
    have hmerge : mergePlans own.cells bytes [] =
        if (merged own.ghz24 (mergedBytes triplets)).length ≤ maxChannelNum then
          some (own.ghz5 ++ own.rest, merged own.ghz24 (mergedBytes triplets)) else none := by
      have heq := mergePlans_eq (fun s => own.isGhz24_of_mem) own.after_ghz24
        (fun c => le_of_mem_mergedBytes triplets) hbehind [] (Nat.zero_le _)
      rw [SortedSet.cells, own.entries_eq, List.append_assoc, hsplit, heq]
      simp
    rw [if_pos hroom, Option.bind_some, if_pos h11G, hmerge]
    by_cases hmlen : (merged own.ghz24 (mergedBytes triplets)).length ≤ maxChannelNum
    · rw [if_pos hmlen, Option.bind_some]
      dsimp only
      rw [own.keep5_eq hmlen]
      by_cases hlen : (merged own.ghz24 (mergedBytes triplets)).length + own.ghz5.length ≤
        maxChannelNum
      · rw [if_pos hlen, if_pos ⟨hroom, hlen⟩]
        rfl
      · rw [if_neg hlen, if_neg fun h => hlen h.2]
        rfl
    · rw [if_neg hmlen, if_neg fun h => hmlen (by omega)]
      rfl
  · rw [if_neg hroom, if_neg fun h => hroom h.1]
    rfl

/-- Without 802.11g the set stays what it is. -/
theorem adoptPlan_keep {wirelessMode : ℕ} (h11G : ¬wirelessMode &&& wireless11G ≠ 0)
    (own : SortedSet)
    (triplets : List UInt8) :
    adoptPlan wirelessMode own.cells triplets =
      if (namedChannels triplets).length ≤
        maxChannelNum + 1 then some (cleared own.entries) else none := by
  have hlen : ([] : List ChannelInfo).length + own.ghz24.length ≤ maxChannelNum := by
    have h5 := own.length_entries
    have hle := own.length_le
    rw [List.length_nil]
    omega
  have hkeep : keep24 own.cells [] = some (own.ghz5 ++ own.rest, own.ghz24) := by
    rw [SortedSet.cells, own.entries_eq, List.append_assoc, keep24,
      copyWhile_append id (fun s => own.isGhz24_of_mem) own.after_ghz24 (Nat.zero_le _), if_pos
      hlen, List.map_id]
    rfl
  rw [adoptPlan, chplanAp_eq]
  split_ifs
  · have hall : own.ghz24.length + own.ghz5.length ≤ maxChannelNum :=
      own.length_entries.trans_le own.length_le
    have h24 : own.ghz24.length ≤ maxChannelNum := by omega
    rw [Option.bind_some, hkeep, Option.bind_some]
    dsimp only
    rw [own.keep5_eq h24, if_pos hall, own.entries_eq]
    rfl
  · rfl

/-! ## The whole function -/

theorem process80211d_of_adopted {s : Dot11d} {bssid : CountryBss} {triplets : List UInt8}
    (own : SortedSet)
    (h : adopted s bssid = some triplets) :
    process80211d (s.withSet own) bssid =
      (adoptPlan s.wirelessMode own.cells triplets).map fun set =>
      { s with
        channelSet := activateUsed (bssid.dsConfig % 256) set
        updateChannelPlanByApDone := true } := by
  unfold adopted at h
  unfold process80211d Dot11d.withSet
  dsimp only
  split_ifs at h ⊢ with hon
  cases hie : rtwGetIe bssid.ies 12 countryIe (toInt (bssid.ieLength - 12)) with
  | none =>
    rw [hie] at h
    exact absurd h (by simp)
  | some r =>
    obtain ⟨ie, len⟩ := r
    rw [hie] at h
    dsimp only at h ⊢
    split_ifs at h ⊢ with hlen
    rw [Option.some.inj h]

theorem process80211d_of_not_adopted {s : Dot11d} {bssid : CountryBss} (own : SortedSet)
    (h : adopted s bssid = none) : process80211d (s.withSet own) bssid ≠ none := by
  unfold adopted at h
  unfold process80211d Dot11d.withSet
  dsimp only
  split_ifs at h ⊢ with hon
  · cases hie : rtwGetIe bssid.ies 12 countryIe (toInt (bssid.ieLength - 12)) with
    | none => simp
    | some r =>
      obtain ⟨ie, len⟩ := r
      rw [hie] at h
      dsimp only at h ⊢
      split_ifs at h ⊢ with hlen
      simp
  · simp

/-- The active 2.4 GHz entries of the array tell what the access point is taken to support. -/
theorem active_of_array (own : SortedSet) {new : List ChannelInfo} {ap : List ℕ}
    (hnew : new.filter (fun c => decide (c.scanType = .active)) = ap.map fun c => ⟨c, .active⟩)
    (hap : ∀ c ∈ ap, c ≤ 14) :
    (cleared (new ++ own.ghz5)).filter
    (fun c => decide (c.scanType = .active ∧ c.channelNum ≤ 14)) =
      ap.map fun c => ⟨c, .active⟩ := by
  have hand : (fun c : ChannelInfo => decide (c.scanType = .active ∧ c.channelNum ≤ 14)) =
      fun c => decide (c.channelNum ≤ 14) && decide (c.scanType = .active) := by
    funext c
    simp [Bool.and_comm]
  have h5 : own.ghz5.filter (fun c => decide (c.scanType = .active ∧ c.channelNum ≤ 14)) = [] := by
    refine List.filter_eq_nil_iff.mpr fun c hc => ?_
    have hlt := of_decide_eq_true (List.mem_filter.mp hc).2
    simp only [decide_eq_true_eq]
    omega
  have hfree : ∀ n, (List.replicate n noChannel).filter
      (fun c => decide (c.scanType = .active ∧ c.channelNum ≤ 14)) = [] := by
    intro n
    refine List.filter_eq_nil_iff.mpr fun c hc => ?_
    rw [List.eq_of_mem_replicate hc]
    decide
  rw [cleared, List.filter_append, List.filter_append, h5, hfree, List.append_nil,
    List.append_nil, hand,
    ← List.filter_filter, hnew]
  refine List.filter_eq_self.mpr fun c hc => ?_
  obtain ⟨n, hn, rfl⟩ := List.mem_map.mp hc
  exact decide_eq_true (hap n hn)

theorem le_of_mem_named24 {triplets : List UInt8} {c : ℕ} (hc : c ∈ named24 triplets) : c ≤ 14 :=
  (of_decide_eq_true (List.mem_filter.mp hc).2).2

/-- The room that the merge takes, in terms of what goes into it. -/
theorem room_iff (own : SortedSet) (triplets : List UInt8) :
    (merged own.ghz24 (mergedBytes triplets)).length + own.ghz5.length ≤ maxChannelNum ↔
      own.entries.length + (mergedBytes triplets).length ≤ maxChannelNum +
        ((records 0 (mergedBytes triplets)).filter fun c => decide (c ∈ own.channels)).length := by
  have hpos : ∀ s ∈ own.ghz24, 0 < s.channelNum :=
    fun s hs => (own.byte s (List.mem_filter.mp hs).1).1
  have hlen := @length_merged own.ghz24 (mergedBytes triplets) own.sorted_ghz24 0 hpos
  have hsum := own.length_entries
  rw [own.common_eq fun c => le_of_mem_mergedBytes triplets]
  omega

/-- `process_80211d` stays inside its arrays and adopts the channels of the access point exactly
when the named channels can be merged. -/
theorem adoptsRight_iff (s : Dot11d) (own : SortedSet) (bssid : CountryBss) :
    AdoptsRight s own bssid ↔ ∀ triplets ∈ adopted s bssid, Mergeable s.wirelessMode own triplets := by
  cases hadopt : adopted s bssid with
  | none =>
    refine ⟨fun _ triplets h => absurd h (by simp),
      fun _ => ⟨process80211d_of_not_adopted own hadopt, ?_⟩⟩
    intro triplets h
    rw [hadopt] at h
    exact absurd h (by simp)
  | some triplets =>
    have hproc := process80211d_of_adopted own hadopt
    by_cases h11G : s.wirelessMode &&& wireless11G ≠ 0
    · have hplan := adoptPlan_merge h11G own triplets
      simp only [room_iff] at hplan
      constructor
      · rintro ⟨hinside, hunion⟩ t ht
        rw [Option.mem_some_iff] at ht
        subst ht
        have hfits : (namedChannels triplets).length ≤ maxChannelNum + 1 ∧
            own.entries.length + (mergedBytes triplets).length ≤ maxChannelNum +
              ((records 0 (mergedBytes triplets)).filter
                fun c => decide (c ∈ own.channels)).length := by
          by_contra hnot
          rw [hproc, hplan, if_neg hnot] at hinside
          exact hinside rfl
        refine ⟨hfits.1, fun _ => ⟨hfits.2, fun hsorted => ?_⟩⟩
        obtain ⟨new, hnew, harray, -⟩ := hunion triplets hadopt h11G hsorted
        rw [hplan, if_pos hfits] at harray
        have hseen := active_of_array own (filter_active_merged own.ghz24 (mergedBytes triplets))
          fun c => le_of_mem_mergedBytes triplets
        rw [Option.some.inj harray,
          active_of_array own (hnew.filter_active hsorted) fun c => le_of_mem_named24] at hseen
        exact (List.map_injective_iff.mpr (fun c d h => (ChannelInfo.mk.inj h).1) hseen).symm
      · intro h
        obtain ⟨hroom, hmerge⟩ := h triplets rfl
        obtain ⟨hset, hsame⟩ := hmerge h11G
        rw [if_pos ⟨hroom, hset⟩] at hplan
        refine ⟨by rw [hproc, hplan]; simp, fun t ht _ hsorted => ?_⟩
        rw [hadopt, Option.mem_some_iff] at ht
        subst ht
        rw [hsame hsorted] at hplan
        refine ⟨_, isUnion_merged own.sorted_ghz24 hsorted, hplan, ?_⟩
        rw [hproc, hplan, Option.map_some]
    · have hplan := adoptPlan_keep h11G own triplets
      constructor
      · rintro ⟨hinside, -⟩ t ht
        rw [Option.mem_some_iff] at ht
        subst ht
        refine ⟨?_, fun h => absurd h h11G⟩
        by_contra hnot
        rw [hproc, hplan, if_neg hnot] at hinside
        exact hinside rfl
      · intro h
        rw [if_pos (h triplets rfl).1] at hplan
        exact ⟨by rw [hproc, hplan]; simp, fun _ _ hmode => absurd hmode h11G⟩

/-- The channels 1 to 11 of a station. -/
def sampleSet : SortedSet where
  entries := (List.range 11).map fun n => ⟨n + 1, .active⟩
  rest := List.replicate 3 noChannel
  length_eq := by decide
  byte := by decide
  sorted := by decide
  ends := by decide

/-- A Country element with one triplet, of 255 channels from 1 on. -/
def sampleCountryBss : CountryBss where
  ies := Mem.write (fun _ => 0) 12 [7, 6, 85, 83, 32, 1, 255, 20]
  ieLength := 20
  dsConfig := 1

/-- An adapter that has not yet adopted a plan. -/
def sampleDot11d : Dot11d where
  enable80211d := true
  wirelessMode := 3
  updateChannelPlanByApDone := false
  channelSet := []

/-- A single triplet runs past the end of `chplan_ap`. -/
theorem not_adoptsRight_sample : ¬AdoptsRight sampleDot11d sampleSet sampleCountryBss := by
  have hadopt : adopted sampleDot11d sampleCountryBss = some [1, 255, 20] := by decide
  have hover : chplanAp [1, 255, 20] = none := by
    rw [chplanAp_eq, if_neg]
    simp [namedChannels, tripletChannels, maxChannelNum]
  rintro ⟨hinside, -⟩
  rw [process80211d_of_adopted sampleSet hadopt, adoptPlan, hover] at hinside
  exact hinside rfl

end Rtl8188eu
