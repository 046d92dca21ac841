import Admc.Lib.NetworkBits
import Admc.Text

/-!
# The dialog for a new subnet

The name of a subnet is an address with the length of its prefix.

* `validatePrefix_iff`: an address passes just with a length from zero up to that of the address,
  and no bit past the prefix, whichever way the host orders the bytes;
* `checkPrefixValidity_eq`: the texts that the dialog takes.
-/

namespace Admc

open NetworkBits

/-! ## Addresses -/

/-- The bytes of a word in the other order. -/
def swapBytes (x : BitVec 32) : BitVec 32 :=
  x.extractLsb' 0 8 ++ x.extractLsb' 8 8 ++ x.extractLsb' 16 8 ++ x.extractLsb' 24 8

/-- `ntohl`, and `htonl`, of a host that orders bytes one way or the other. -/
def ntohl (bigEndian : Bool) (x : BitVec 32) : BitVec 32 :=
  if bigEndian then x else swapBytes x

/-- The bytes of an address, as `inet_pton` stores them. -/
def networkBytes {w : ℕ} (address : BitVec w) : List (BitVec 8) :=
  (List.range (w / 8)).map (byte address)

/-- A bit keeps its place in its byte. -/
theorem getLsbD_swapBytes (x : BitVec 32) {i : ℕ} (hi : i < 32) :
    (swapBytes x).getLsbD i = x.getLsbD (8 * (3 - i / 8) + i % 8) := by
  simp only [swapBytes, BitVec.getLsbD_append, BitVec.getLsbD_extractLsb']
  rcases Nat.lt_or_ge i 8 with h | h
  · rw [if_pos h, decide_eq_true h, Bool.true_and, show 24 + i = 8 * (3 - i / 8) + i % 8 by omega]
  rcases Nat.lt_or_ge (i - 8) 8 with h' | h'
  · rw [if_neg (by omega), if_pos h', decide_eq_true h', Bool.true_and,
      show 16 + (i - 8) = 8 * (3 - i / 8) + i % 8 by omega]
  rcases Nat.lt_or_ge (i - 8 - 8) 8 with h'' | h''
  · rw [if_neg (by omega), if_neg (by omega), if_pos h'', decide_eq_true h'', Bool.true_and,
      show 8 + (i - 8 - 8) = 8 * (3 - i / 8) + i % 8 by omega]
  · rw [if_neg (by omega), if_neg (by omega), if_neg (by omega), decide_eq_true (by omega),
      Bool.true_and, show 0 + (i - 8 - 8 - 8) = 8 * (3 - i / 8) + i % 8 by omega]

theorem swapBytes_swapBytes (x : BitVec 32) : swapBytes (swapBytes x) = x := by
  refine BitVec.eq_of_getLsbD_eq fun i hi => ?_
  rw [getLsbD_swapBytes _ hi, getLsbD_swapBytes _ (by omega)]
  congr 1
  omega

@[simp] theorem ntohl_ntohl (bigEndian : Bool) (x : BitVec 32) :
    ntohl bigEndian (ntohl bigEndian x) = x := by
  cases bigEndian
  · exact swapBytes_swapBytes x
  · rfl

@[simp] theorem ntohl_eq_zero {bigEndian : Bool} {x : BitVec 32} :
    ntohl bigEndian x = 0 ↔ x = 0 := by
  have hzero : ntohl bigEndian 0 = 0 := by cases bigEndian <;> decide
  constructor
  · intro h
    rw [← ntohl_ntohl bigEndian x, h, hzero]
  · rintro rfl
    exact hzero

theorem getD_networkBytes {w i : ℕ} (address : BitVec w) (hi : i < w / 8) :
    (networkBytes address).getD i 0 = byte address i := by
  simp [networkBytes, List.getD_eq_getElem?_getD, hi]

/-! ## The checks -/

/-- `CreateSubnetDialog::validate_ipv4_prefix`. -/
def validateIpv4Prefix (bigEndian : Bool) (ip : BitVec 32) (ipPrefix : ℤ) : Bool :=
  if ipPrefix < 0 ∨ 32 < ipPrefix then false
  else if ipPrefix = 0 then decide (ip = 0)
  else if ipPrefix = 32 then true
  else
    let ipHost := ntohl bigEndian ip
    let mask := 0xFFFFFFFF#32 <<< (32 - ipPrefix).toNat
    let network := ipHost &&& mask
    decide (ipHost = network)

/-- `CreateSubnetDialog::validate_ipv6_prefix`. -/
def validateIpv6Prefix (ipv6 : List (BitVec 8)) (ipPrefix : ℤ) : Bool :=
  if ipPrefix < 0 ∨ 128 < ipPrefix then false
  else if ipPrefix = 0 then (List.range 16).all fun i => decide (ipv6.getD i 0 = 0)
  else if ipPrefix = 128 then true
  else
    let fullBytes := (ipPrefix / 8).toNat
    let remainingBits := (ipPrefix % 8).toNat
    let startCheck := if 0 < remainingBits then fullBytes + 1 else fullBytes
    if (List.range' startCheck (16 - startCheck)).any fun i => decide (ipv6.getD i 0 ≠ 0) then false
    else if 0 < remainingBits then
      let hostMask := BitVec.ofNat 8 (1 <<< (8 - remainingBits) - 1)
      decide (ipv6.getD fullBytes 0 &&& hostMask = 0)
    else true

/-- An address is that of a subnet: all bits past the prefix are zero. -/
def IsSubnet {w : ℕ} (address : BitVec w) (ipPrefix : ℤ) : Prop :=
  0 ≤ ipPrefix ∧ ipPrefix ≤ w ∧ ∀ i < w, ipPrefix ≤ i → address.getMsbD i = false

theorem isSubnet_iff {w : ℕ} {address : BitVec w} {ipPrefix : ℤ} : IsSubnet address ipPrefix ↔
    0 ≤ ipPrefix ∧ ipPrefix ≤ w ∧ ZeroFrom address ipPrefix.toNat := by
  refine and_congr_right fun h => and_congr_right fun _ => ?_
  constructor
  · intro hzero i hi
    by_cases hw : i < w
    · exact hzero i hw (by omega)
    · exact BitVec.getMsbD_of_ge _ _ (by omega)
  · exact fun hzero i _ hi => hzero i (by omega)

/-- A length that is out of range is refused, and the two at its ends are checked alone. -/
theorem isSubnet_cases {w : ℕ} (address : BitVec w) (ipPrefix : ℤ) :
    (ipPrefix < 0 ∨ w < ipPrefix) ∧ ¬IsSubnet address ipPrefix ∨
    ipPrefix = 0 ∧ (IsSubnet address ipPrefix ↔ address = 0) ∨
    ipPrefix = w ∧ IsSubnet address ipPrefix ∨
    ∃ n : ℕ, ipPrefix = n ∧ 0 < n ∧ n < w ∧ (IsSubnet address ipPrefix ↔ ZeroFrom address n) := by
  rw [isSubnet_iff]
  by_cases h : ipPrefix < 0
  · exact .inl ⟨.inl h, fun hsubnet => by omega⟩
  obtain ⟨n, rfl⟩ := Int.eq_ofNat_of_zero_le (Int.not_lt.1 h)
  rcases Nat.eq_zero_or_pos n with rfl | hpos
  · exact .inr (.inl ⟨rfl, by simp [zeroFrom_zero]⟩)
  rcases Nat.lt_trichotomy n w with hlt | rfl | hgt
  · exact .inr (.inr (.inr ⟨n, rfl, hpos, hlt, by simp; omega⟩))
  · exact .inr (.inr (.inl ⟨rfl, by simp [zeroFrom_width]⟩))
  · exact .inl ⟨.inr (by omega), fun hsubnet => by omega⟩

theorem validateIpv4Prefix_eq_true_iff (bigEndian : Bool) (address : BitVec 32) (ipPrefix : ℤ) :
    validateIpv4Prefix bigEndian (ntohl bigEndian address) ipPrefix = true ↔
      IsSubnet address ipPrefix := by
  rw [validateIpv4Prefix]
  rcases isSubnet_cases address ipPrefix with
    ⟨hrange, h⟩ | ⟨rfl, h⟩ | ⟨rfl, h⟩ | ⟨n, rfl, hpos, hlt, h⟩
  · rw [if_pos (by simpa using hrange)]
    exact iff_of_false Bool.false_ne_true h
  · rw [if_neg (by decide), if_pos rfl, decide_eq_true_iff, ntohl_eq_zero, h]
  · exact iff_of_true rfl h
  · have hshift : (32 - (n : ℤ)).toNat = 32 - n := by omega
    rw [if_neg (by omega), if_neg (by omega), if_neg (by omega), h, hshift]
    simp only [decide_eq_true_iff, ntohl_ntohl]
    exact (zeroFrom_iff_and_allOnes hlt.le).symm

/-- The loop over the bytes from one on. -/
theorem any_networkBytes_eq_false_iff (address : BitVec 128) (start : ℕ) :
    ((List.range' start (16 - start)).any fun i =>
      decide ((networkBytes address).getD i 0 ≠ 0)) = false ↔
      ∀ i, start ≤ i → i < 16 → byte address i = 0 := by
  simp only [List.any_eq_false, List.mem_range'_1, decide_eq_true_iff, not_not]
  constructor
  · intro h i hi hib
    rw [← getD_networkBytes address hib]
    exact h i ⟨hi, by omega⟩
  · rintro h i ⟨hi, hib⟩
    rw [getD_networkBytes address (show i < 128 / 8 by omega)]
    exact h i hi (by omega)

theorem validateIpv6Prefix_eq_true_iff (address : BitVec 128) (ipPrefix : ℤ) :
    validateIpv6Prefix (networkBytes address) ipPrefix = true ↔ IsSubnet address ipPrefix := by
  rw [validateIpv6Prefix]
  rcases isSubnet_cases address ipPrefix with
    ⟨hrange, h⟩ | ⟨rfl, h⟩ | ⟨rfl, h⟩ | ⟨n, rfl, hpos, hlt, h⟩
  · -- a length out of range
    rw [if_pos (by simpa using hrange)]
    exact iff_of_false Bool.false_ne_true h
  · -- a prefix of no bits: all the bytes are zero
    have hbytes := zeroFrom_iff_bytes (x := address) (q := 0) (b := 16) rfl (by decide)
    rw [if_neg (by decide), if_pos rfl, h, ← zeroFrom_zero, hbytes, List.all_eq_true]
    simp only [List.mem_range, decide_eq_true_iff, Nat.zero_le, true_imp_iff]
    exact forall₂_congr fun i hi => by rw [getD_networkBytes address hi]
  · exact iff_of_true rfl h
  · -- the bytes that the prefix fills, and its last bits
    have hq : ((n : ℤ) / 8).toNat = n / 8 := by omega
    have hr : ((n : ℤ) % 8).toNat = n % 8 := by omega
    rw [if_neg (by omega), if_neg (by omega), if_neg (by omega), h]
    simp only [hq, hr]
    have hn := Nat.div_add_mod n 8
    have hlast : n / 8 < 16 := by omega
    rcases Nat.eq_zero_or_pos (n % 8) with hzero | hbits
    · -- the prefix ends with a byte
      rw [if_neg (Nat.not_lt.2 hzero.le), if_neg (Nat.not_lt.2 hzero.le)]
      rw [hzero, Nat.add_zero] at hn
      have hbytes := zeroFrom_iff_bytes (x := address) (q := n / 8) (b := 16) rfl hlast
      rw [hn, ← any_networkBytes_eq_false_iff] at hbytes
      rw [hbytes, ite_eq_iff]
      simp
    · have hle : n % 8 ≤ 8 := (Nat.mod_lt n (by decide)).le
      have hbyte := zeroFrom_iff_byte (x := address) (q := n / 8) (b := 16) rfl hlast hle
      have hrest := any_networkBytes_eq_false_iff address (n / 8 + 1)
      rw [hn, zeroFrom_iff_and_low hle] at hbyte
      rw [if_pos hbits, if_pos hbits, getD_networkBytes address hlast, hbyte]
      -- the bytes that follow, and then the rest of this one
      cases hany : (List.range' (n / 8 + 1) (16 - (n / 8 + 1))).any fun i =>
        decide ((networkBytes address).getD i 0 ≠ 0)
      · rw [if_neg Bool.false_ne_true, decide_eq_true_iff]
        exact (and_iff_left (hrest.1 hany)).symm
      · rw [if_pos rfl]
        exact iff_of_false Bool.false_ne_true fun h =>
          Bool.false_ne_true ((hrest.2 h.2).symm.trans hany)

/-- The checks of both kinds of addresses, for any length of the prefix. -/
theorem validatePrefix_iff (bigEndian : Bool) (ipv4 : BitVec 32) (ipv6 : BitVec 128)
    (ipPrefix : ℤ) :
    (validateIpv4Prefix bigEndian (ntohl bigEndian ipv4) ipPrefix = true ↔
      IsSubnet ipv4 ipPrefix) ∧
    (validateIpv6Prefix (networkBytes ipv6) ipPrefix = true ↔ IsSubnet ipv6 ipPrefix) :=
  ⟨validateIpv4Prefix_eq_true_iff bigEndian ipv4 ipPrefix,
    validateIpv6Prefix_eq_true_iff ipv6 ipPrefix⟩

/-! ## The texts of the dialog -/

/-- What the dialog shows: whether its button is disabled, and the name. -/
structure SubnetFields where
  okDisabled : Bool
  adName : QString
deriving DecidableEq

/-- What a text that is not the name of a subnet leaves. -/
def SubnetFields.invalid : SubnetFields := ⟨true, []⟩

section

variable (bigEndian : Bool) (inetPton4 : QString → Option (BitVec 32))
  (inetPton6 : QString → Option (BitVec 128)) (prefixEdit address : QString)

/-- `CreateSubnetDialog::check_prefix_validity`, with `inet_pton` of either family. -/
def checkPrefixValidity : SubnetFields :=
  match address.splitOn '/' with
  | [ip, ipPrefix] =>
    if address.contains '.' then
      match inetPton4 ip with
      | none => .invalid
      | some ipv4 =>
        if !validateIpv4Prefix bigEndian ipv4 (toInt ipPrefix) then .invalid
        else ⟨false, prefixEdit⟩
    else
      match inetPton6 ip with
      | none => .invalid
      | some ipv6 =>
        if !validateIpv6Prefix (networkBytes ipv6) (toInt ipPrefix) then .invalid
        else ⟨false, prefixEdit⟩
  | _ => .invalid

/-- A text is the name of a subnet: an address and the length of its prefix. -/
def IsSubnetName : Prop :=
  ∃ ip ipPrefix, address.splitOn '/' = [ip, ipPrefix] ∧
    if '.' ∈ address then
      ∃ ipv4, inetPton4 ip = some (ntohl bigEndian ipv4) ∧ IsSubnet ipv4 (toInt ipPrefix)
    else ∃ ipv6, inetPton6 ip = some ipv6 ∧ IsSubnet ipv6 (toInt ipPrefix)

variable {bigEndian inetPton4 inetPton6 prefixEdit address}

variable {ip ipPrefix : QString}

theorem isSubnetName_iff (h : address.splitOn '/' = [ip, ipPrefix]) :
    IsSubnetName bigEndian inetPton4 inetPton6 address ↔
      if '.' ∈ address then
        ∃ ipv4, inetPton4 ip = some (ntohl bigEndian ipv4) ∧ IsSubnet ipv4 (toInt ipPrefix)
      else ∃ ipv6, inetPton6 ip = some ipv6 ∧ IsSubnet ipv6 (toInt ipPrefix) := by
  constructor
  · rintro ⟨_, _, heq, hname⟩
    rw [h] at heq
    cases heq
    exact hname
  · exact fun hname => ⟨ip, ipPrefix, h, hname⟩

/-- Each word that is stored is that of one address. -/
theorem exists_some_ntohl_iff {stored : BitVec 32} {p : BitVec 32 → Prop} :
    (∃ ipv4, some stored = some (ntohl bigEndian ipv4) ∧ p ipv4) ↔
      p (ntohl bigEndian stored) := by
  constructor
  · rintro ⟨ipv4, heq, hp⟩
    rwa [Option.some.inj heq, ntohl_ntohl]
  · exact fun hp => ⟨_, by rw [ntohl_ntohl], hp⟩

/-- The dialog takes the names of subnets, and clears the name for all other texts. -/
theorem checkPrefixValidity_eq :
    checkPrefixValidity bigEndian inetPton4 inetPton6 prefixEdit address = ⟨false, prefixEdit⟩ ∧
      IsSubnetName bigEndian inetPton4 inetPton6 address ∨
    checkPrefixValidity bigEndian inetPton4 inetPton6 prefixEdit address = .invalid ∧
      ¬IsSubnetName bigEndian inetPton4 inetPton6 address := by
  by_cases hparts : ∃ ip ipPrefix, address.splitOn '/' = [ip, ipPrefix]
  · obtain ⟨ip, ipPrefix, hsplit⟩ := hparts
    rw [checkPrefixValidity, isSubnetName_iff hsplit, hsplit]
    simp only [List.contains_iff_mem]
    by_cases hdot : '.' ∈ address
    · simp only [if_pos hdot]
      rcases inetPton4 ip with _ | stored
      · exact .inr ⟨rfl, by simp⟩
      · have hvalid := validateIpv4Prefix_eq_true_iff bigEndian (ntohl bigEndian stored)
          (toInt ipPrefix)
        rw [ntohl_ntohl] at hvalid
        rw [exists_some_ntohl_iff, ← hvalid]
        cases h : validateIpv4Prefix bigEndian stored (toInt ipPrefix) <;> simp [h]
    · simp only [if_neg hdot]
      rcases inetPton6 ip with _ | ipv6
      · exact .inr ⟨rfl, by simp⟩
      · simp only [Option.some.injEq, exists_eq_left']
        rw [← validateIpv6Prefix_eq_true_iff]
        cases validateIpv6Prefix (networkBytes ipv6) (toInt ipPrefix) <;> simp
  · refine .inr ⟨?_, fun ⟨ip, ipPrefix, h, _⟩ => hparts ⟨ip, ipPrefix, h⟩⟩
    rw [checkPrefixValidity]
    split
    · next h => exact absurd ⟨_, _, h⟩ hparts
    · rfl

end

end Admc
