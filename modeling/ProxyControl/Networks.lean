import ProxyControl.Access

/-!
# Networks as sets of addresses

The compiler asks two things of a network, whether it overlaps another and whether it has
an address, and answers both with masks. Here a network stands for the addresses that begin
as it does, and the answers are those about sets of addresses (`networks_are_sets`). For
that an address must have no more bits than its version, which is so because networks are
read from texts. Where a text has a netmask or a hostmask in place of a length, it is
accepted if the bits of the mask are contiguous.
-/

namespace Routing

open List

/-! ## How networks are read -/

/-- One ASCII digit or more. -/
def isDigits (text : List Char) : Bool := ! text.isEmpty && text.all Char.isDigit

def decimal (text : List Char) : Nat := text.foldl (fun value c => 10 * value + (c.toNat - 48)) 0

def parseOctet (octet : List Char) : Option (BitVec 32) :=
  if ! isDigits octet ∨ 3 < octet.length then none
  else if octet ≠ ['0'] ∧ octet.head? = some '0' then none
  else if 255 < decimal octet then none
  else some (.ofNat 32 (decimal octet))

/-- `ipv4_address`, without its messages. -/
def ipv4Address (text : List Char) : Option (BitVec 32) :=
  if text.isEmpty ∨ '/' ∈ text then none
  else if (text.splitOn '.').length ≠ 4 then none
  else (text.splitOn '.').foldlM (fun value octet =>
    (parseOctet octet).map (value <<< 8 ||| ·)) 0

/-- What the code takes from the text library: how an IPv6 address is read, with its scope,
and how an address is written. -/
structure AddressTexts where
  parseV6 : List Char → Option (BitVec 128 × Option String)
  display : IpAddress → Option String → String

/-- The address and its scope. -/
def AddressTexts.ipAddress (n : AddressTexts) (text : List Char) :
    Option (IpAddress × Option String) :=
  match ipv4Address text with
  | some value => some (⟨false, value.toNat⟩, none)
  | none => (n.parseV6 text).map fun (value, scope) => (⟨true, value.toNat⟩, scope)

def IpAddress.bits (ip : IpAddress) : Nat := if ip.v6 then 128 else 32

def Network.parse (n : AddressTexts) (text : String) : Option Network :=
  (n.ipAddress (text.toList.takeWhile (· ≠ '/'))).bind fun (ip, _) =>
    let length := match text.toList.dropWhile (· ≠ '/') with
      | [] => some ip.bits
      | _ :: digits =>
        if isDigits digits ∧ decimal digits < 2 ^ 32 then some (decimal digits) else none
    (length.filter (· ≤ ip.bits)).map (⟨ip.v6, ip.value, ·⟩)

/-- A number of 128 bits, or zeros alone. -/
def prefixLength (text : List Char) (max : Nat) : Option Nat :=
  if ! isDigits text then none
  else
    let value := if decimal text < 2 ^ 128 then some (decimal text)
      else if text.all (· = '0') then some 0 else none
    value.filter (· ≤ max)

def leadingOnes (mask : BitVec 32) : Nat := (List.range 32).findIdx fun i => ! mask.getMsbD i

/-- The length of a mask that is ones followed by zeros. -/
def contiguousPrefix (mask : BitVec 32) : Option Nat :=
  if mask <<< leadingOnes mask = 0#32 then some (leadingOnes mask) else none

/-- An IPv4 prefix: a length, or a netmask or hostmask. -/
def v4Prefix (text : List Char) : Option Nat :=
  match prefixLength text 32 with
  | some length => some length
  | none =>
    if isDigits text then none
    else (ipv4Address text).bind fun mask =>
      (contiguousPrefix mask).or (contiguousPrefix (~~~mask))

/-- The text of the network, its host bits cleared. -/
def AddressTexts.ipNetwork (n : AddressTexts) (text : List Char) : Option String :=
  let parts := text.splitOn '/'
  if 2 < parts.length then none
  else (n.ipAddress (parts.headD [])).bind fun (ip, scope) =>
    let length := match parts[1]? with
      | none => some ip.bits
      | some mask => if ip.v6 then prefixLength mask 128 else v4Prefix mask
    length.map fun length =>
      let value := ip.value &&& Network.mask ⟨ip.v6, ip.value, length⟩ length
      n.display ⟨ip.v6, value⟩ (if value = ip.value then scope else none) ++ "/" ++ toString length

/-! ## Sets of addresses -/

/-- The address has the bits of its version. -/
def IpAddress.Fits (ip : IpAddress) : Prop := ip.value < 2 ^ ip.bits

/-- The address begins as the network does. -/
def Network.HasPrefix (network : Network) (ip : IpAddress) : Prop :=
  ip.v6 = network.v6 ∧ ∀ i, network.bits - network.length ≤ i → i < network.bits →
    ip.value.testBit i = network.address.testBit i

/-- From the highest on, the bits change once at most. -/
def Contiguous (mask : BitVec 32) : Prop :=
  ∃ (first : Bool) (length : Nat), ∀ i < 32, mask.getMsbD i = if i < length then first else ! first

variable {n : AddressTexts} {net o : Network} {ip : IpAddress} {mask : BitVec 32} {text : List Char}

theorem contains_iff : net.contains ip = true ↔ net.HasPrefix ip := by
  unfold Network.contains Network.HasPrefix
  rw [Bool.and_eq_true, beq_iff_eq, beq_iff_eq]
  refine and_congr_right fun _ => ⟨fun h i hlen hi => ?_, fun h => Nat.eq_of_testBit_eq fun i => ?_⟩
  · have hbit := congrArg (Nat.testBit · i) h
    simpa [testBit_mask, hlen, hi] using hbit
  · rw [Nat.testBit_and, Nat.testBit_and, testBit_mask]
    by_cases hi : i < net.bits ∧ net.bits - net.length ≤ i
    · rw [h i hi.2 hi.1]
    · rw [decide_eq_false hi, Bool.and_false, Bool.and_false]

theorem overlaps_iff (hnet : net.address < 2 ^ net.bits) (ho : o.address < 2 ^ o.bits) :
    net.overlaps o = true
      ↔ ∃ ip : IpAddress, ip.Fits ∧ net.contains ip = true ∧ o.contains ip = true := by
  refine ⟨fun h => ?_, fun ⟨ip, _, h, h'⟩ => overlaps_of_contains h h'⟩
  unfold Network.overlaps at h
  rw [Bool.and_eq_true, beq_iff_eq, beq_iff_eq] at h
  obtain ⟨hv6, heq⟩ := h
  unfold Network.contains
  simp only [Bool.and_eq_true, beq_iff_eq]
  rcases Nat.le_total net.length o.length with hle | hle
  · -- The longer network's own address is in both.
    rw [Nat.min_eq_left hle] at heq
    exact ⟨⟨o.v6, o.address⟩, ho, ⟨hv6.symm, heq.symm⟩, rfl, rfl⟩
  · rw [Nat.min_eq_right hle] at heq
    have hmask : o.mask = net.mask := by
      unfold Network.mask Network.bits
      rw [hv6]
    exact ⟨⟨net.v6, net.address⟩, hnet, ⟨rfl, rfl⟩, hv6, hmask ▸ heq⟩

theorem ipAddress_fits {scope : Option String} (h : n.ipAddress text = some (ip, scope)) :
    ip.Fits := by
  unfold AddressTexts.ipAddress at h
  split at h
  next value _ =>
    cases h
    exact value.isLt
  · obtain ⟨⟨value, _⟩, -, h⟩ := Option.map_eq_some_iff.mp h
    cases h
    exact value.isLt

theorem parse_fits {text : String} (h : Network.parse n text = some net) :
    net.address < 2 ^ net.bits := by
  obtain ⟨⟨ip, scope⟩, hip, h⟩ := Option.bind_eq_some_iff.mp h
  obtain ⟨length, -, rfl⟩ := Option.map_eq_some_iff.mp h
  exact ipAddress_fits hip

/-- The leading ones, and the zero after them. -/
theorem getMsbD_leadingOnes (mask : BitVec 32) :
    (∀ i < leadingOnes mask, mask.getMsbD i = true) ∧ mask.getMsbD (leadingOnes mask) = false := by
  unfold leadingOnes
  refine ⟨fun i hi => ?_, ?_⟩
  · simpa using not_of_lt_findIdx hi
  · by_cases h : (range 32).findIdx (fun i => ! mask.getMsbD i) < (range 32).length
    · simpa using findIdx_getElem (w := h)
    · exact BitVec.getMsbD_of_ge _ _ (by simpa using h)

theorem contiguousPrefix_isSome : (contiguousPrefix mask).isSome = true
      ↔ ∃ length, ∀ i < 32, mask.getMsbD i = decide (i < length) := by
  obtain ⟨hones, hzero⟩ := getMsbD_leadingOnes mask
  have hshift : mask <<< leadingOnes mask = 0#32
      ↔ ∀ i, mask.getMsbD (i + leadingOnes mask) = false := by
    refine ⟨fun h i => ?_, fun h => BitVec.eq_of_getMsbD_eq fun i hi => ?_⟩
    · rw [← BitVec.getMsbD_shiftLeft, h, BitVec.getMsbD_zero]
    · rw [BitVec.getMsbD_shiftLeft, h, BitVec.getMsbD_zero]
  unfold contiguousPrefix
  rw [Option.isSome_ite, hshift]
  refine ⟨fun h => ⟨leadingOnes mask, fun i _ => ?_⟩, fun ⟨length, h⟩ i => ?_⟩
  · by_cases hi : i < leadingOnes mask
    · rw [hones i hi, decide_eq_true hi]
    · rw [decide_eq_false hi, ← h (i - leadingOnes mask), Nat.sub_add_cancel (Nat.not_lt.mp hi)]
  · by_cases hi : i + leadingOnes mask < 32
    · have hlen : ¬ leadingOnes mask < length := by
        intro hlt
        rw [h _ (by omega), decide_eq_true hlt] at hzero
        cases hzero
      rw [h _ hi, decide_eq_false (by omega)]
    · exact BitVec.getMsbD_of_ge _ _ (Nat.not_lt.mp hi)

/-- A mask is taken if its bits are contiguous. -/
theorem contiguous_iff : ((contiguousPrefix mask).or (contiguousPrefix (~~~mask))).isSome = true
      ↔ Contiguous mask := by
  have hnot : (∃ length, ∀ i < 32, (~~~mask).getMsbD i = decide (i < length))
      ↔ ∃ length, ∀ i < 32, mask.getMsbD i = ! decide (i < length) := by
    refine exists_congr fun length => forall₂_congr fun i hi => ?_
    rw [BitVec.getMsbD_not, decide_eq_true hi, Bool.true_and, Bool.not_eq_eq_eq_not]
  rw [Option.isSome_or, Bool.or_eq_true, contiguousPrefix_isSome,
    contiguousPrefix_isSome, hnot]
  unfold Contiguous
  rw [Bool.exists_bool, or_comm]
  refine or_congr ?_ ?_
  all_goals
    refine exists_congr fun length => forall₂_congr fun i hi => ?_
    by_cases h : i < length <;> simp [h]

/-- A dotted address has no slash, and is no number. -/
theorem ipv4Address_form (h : ipv4Address text = some mask) :
    '/' ∉ text ∧ isDigits text = false := by
  unfold ipv4Address at h
  obtain ⟨hform, h⟩ := Option.ite_none_left_eq_some.mp h
  obtain ⟨hfour, -⟩ := Option.ite_none_left_eq_some.mp h
  refine ⟨fun hmem => hform (.inr hmem), Bool.eq_false_iff.mpr fun hdigits => hfour ?_⟩
  have hdot : '.' ∉ text := fun hmem =>
    Bool.false_ne_true (all_eq_true.mp (Bool.and_eq_true_iff.mp hdigits).2 '.' hmem)
  rw [splitOn_eq_singleton hdot]
  simp

/-- **A netmask is accepted if its bits are contiguous.** -/
theorem ipNetwork_isSome {address form : List Char} {value : BitVec 32}
    (haddr : ipv4Address address = some value) (hform : ipv4Address form = some mask) :
    (n.ipNetwork (address ++ '/' :: form)).isSome = true ↔ Contiguous mask := by
  obtain ⟨hslash, hdigits⟩ := ipv4Address_form hform
  have hparts : (address ++ '/' :: form).splitOn '/' = [address, form] := by
    rw [splitOn_append_cons_self_of_not_mem (ipv4Address_form haddr).1,
      splitOn_eq_singleton hslash]
  have hlength : prefixLength form 32 = none := by
    unfold prefixLength
    rw [hdigits]
    rfl
  unfold AddressTexts.ipNetwork AddressTexts.ipAddress
  simp only [hparts, headD_cons, haddr]
  rw [← contiguous_iff]
  simp [v4Prefix, hlength, hdigits, hform]

/-- **Network arithmetic is arithmetic of sets**: of two networks that were read, `overlaps`
says whether they have an address in common, `contains` is having the network's prefix, a
network is private if it has an address of the listed ones, and a mask in place of a length
is accepted if its bits are contiguous. -/
theorem networks_are_sets (n : AddressTexts) (texts : Texts) :
    (∀ text text' network other, Network.parse n text = some network →
        Network.parse n text' = some other →
        (network.overlaps other = true ↔ ∃ ip : IpAddress, ip.Fits
          ∧ network.contains ip = true ∧ other.contains ip = true))
      ∧ (∀ (network : Network) ip, network.contains ip = true ↔ network.HasPrefix ip)
      ∧ (∀ cidr, isPrivateNetwork { texts with network := Network.parse n } cidr = true
        ↔ ∃ network, Network.parse n cidr = some network ∧ ∃ listed ∈ privateNetworks,
          ∃ ip : IpAddress, ip.Fits ∧ network.contains ip = true ∧ listed.contains ip = true)
      ∧ ∀ address form value mask, ipv4Address address = some value →
        ipv4Address form = some mask →
        ((n.ipNetwork (address ++ '/' :: form)).isSome = true ↔ Contiguous mask) := by
  refine ⟨fun _ _ _ _ h h' => overlaps_iff (parse_fits h) (parse_fits h'), fun _ _ => contains_iff,
    fun cidr => ?_, fun _ _ _ _ => ipNetwork_isSome⟩
  have hlisted : ∀ listed ∈ privateNetworks, listed.address < 2 ^ listed.bits := by decide
  unfold isPrivateNetwork
  rw [Option.any_eq_true]
  refine exists_congr fun network => and_congr_right fun h => ?_
  rw [any_eq_true]
  refine exists_congr fun listed => and_congr_right fun hmem => ?_
  exact overlaps_iff (parse_fits h) (hlisted listed hmem)

namespace Sample

/-- Addresses of IPv4 alone. -/
def onlyV4 : AddressTexts := ⟨fun _ => none, fun _ _ => ""⟩

/-- A network in another, and a netmask. -/
theorem networks_are_sets_ten :
    (∃ ip : IpAddress, ip.Fits ∧ (⟨false, 0x0a000000, 8⟩ : Network).contains ip = true
      ∧ (⟨false, 0x0a010000, 16⟩ : Network).contains ip = true)
    ∧ ((onlyV4.ipNetwork "10.0.0.0/255.0.0.0".toList).isSome = true
      ↔ Contiguous 0xff000000#32) := by
  obtain ⟨hoverlaps, -, -, hmask⟩ := networks_are_sets onlyV4 ⟨id, fun _ => none, fun _ => none⟩
  exact ⟨(hoverlaps "10.0.0.0/8" "10.1.0.0/16" _ _ (by decide +kernel) (by decide +kernel)).mp
      (by decide +kernel),
    hmask "10.0.0.0".toList "255.0.0.0".toList 0x0a000000#32 _ (by decide +kernel)
      (by decide +kernel)⟩

end Sample

end Routing
