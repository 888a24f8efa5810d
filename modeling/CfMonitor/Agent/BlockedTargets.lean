/-
  The addresses that the agent does not probe (`blockedPingTargetCIDRs` and `isBlockedTargetIP`).

  1. **Program** — a `net.IP` is its bytes, four or sixteen; an IPv4-mapped address counts as its IPv4
     address.  The list of networks comes first, then the properties of `net.IP`.

  2. **Networks** — which octets (`isBlocked_ipv4`) and which groups (`isBlocked_ipv6`) that is.
-/
import CfMonitor.Lib.IpText

namespace CfMonitor.Agent

open CfMonitor.Lib

/-! ## Program -/

/-- `IP.To4`. -/
def to4 (ip : List Nat) : Option (List Nat) :=
  if ip.length = 4 then some ip
  else if ip.length = 16 ∧ ip.take 12 = [0, 0, 0, 0, 0, 0, 0, 0, 0, 0, 0xff, 0xff] then some (ip.drop 12)
  else none

/-- `net.IPNet`. -/
structure IpNet where
  ip : List Nat
  mask : List Nat
  deriving DecidableEq

/-- The network that `net.ParseCIDR` returns. -/
def cidr (ip : List Nat) (ones : Nat) : IpNet :=
  ⟨ip, (List.range ip.length).map fun i => 256 - 2 ^ (8 - min 8 (ones - 8 * i))⟩

/-- `IPNet.Contains`. -/
def IpNet.contains (network : IpNet) (ip : List Nat) : Bool :=
  let ip := (to4 ip).getD ip
  ip.length == network.ip.length &&
    (List.zipWith (· &&& ·) ip network.mask == List.zipWith (· &&& ·) network.ip network.mask)

def blockedPingTargetCIDRs : List IpNet :=
  [cidr [0, 0, 0, 0] 8, cidr [10, 0, 0, 0] 8, cidr [100, 64, 0, 0] 10, cidr [127, 0, 0, 0] 8, cidr [169, 254, 0, 0] 16,
    cidr [172, 16, 0, 0] 12, cidr [192, 0, 0, 0] 24, cidr [192, 0, 2, 0] 24, cidr [192, 168, 0, 0] 16,
    cidr [198, 18, 0, 0] 15, cidr [198, 51, 100, 0] 24, cidr [203, 0, 113, 0] 24, cidr [224, 0, 0, 0] 4,
    cidr [240, 0, 0, 0] 4,
    cidr [0, 0, 0, 0, 0, 0, 0, 0, 0, 0, 0, 0, 0, 0, 0, 0] 128, cidr [0, 0, 0, 0, 0, 0, 0, 0, 0, 0, 0, 0, 0, 0, 0, 1] 128,
    cidr [1, 0, 0, 0, 0, 0, 0, 0, 0, 0, 0, 0, 0, 0, 0, 0] 64,
    cidr [0x20, 0x01, 0x0d, 0xb8, 0, 0, 0, 0, 0, 0, 0, 0, 0, 0, 0, 0] 32,
    cidr [0xfc, 0, 0, 0, 0, 0, 0, 0, 0, 0, 0, 0, 0, 0, 0, 0] 7, cidr [0xfe, 0x80, 0, 0, 0, 0, 0, 0, 0, 0, 0, 0, 0, 0, 0, 0] 10,
    cidr [0xff, 0, 0, 0, 0, 0, 0, 0, 0, 0, 0, 0, 0, 0, 0, 0] 8]

/-- `IP.IsUnspecified`. -/
def isUnspecified (ip : List Nat) : Bool :=
  (to4 ip).getD ip == [0, 0, 0, 0] || ip == [0, 0, 0, 0, 0, 0, 0, 0, 0, 0, 0, 0, 0, 0, 0, 0]

/-- `IP.IsLoopback`. -/
def isLoopback (ip : List Nat) : Bool :=
  match to4 ip with
  | some ip4 => ip4.getD 0 0 == 127
  | none => ip == [0, 0, 0, 0, 0, 0, 0, 0, 0, 0, 0, 0, 0, 0, 0, 1]

/-- `IP.IsPrivate`. -/
def isPrivate (ip : List Nat) : Bool :=
  match to4 ip with
  | some ip4 => ip4.getD 0 0 == 10 || (ip4.getD 0 0 == 172 && ip4.getD 1 0 &&& 0xf0 == 16) ||
      (ip4.getD 0 0 == 192 && ip4.getD 1 0 == 168)
  | none => ip.length == 16 && ip.getD 0 0 &&& 0xfe == 0xfc

/-- `IP.IsLinkLocalUnicast`. -/
def isLinkLocalUnicast (ip : List Nat) : Bool :=
  match to4 ip with
  | some ip4 => ip4.getD 0 0 == 169 && ip4.getD 1 0 == 254
  | none => ip.length == 16 && ip.getD 0 0 == 0xfe && ip.getD 1 0 &&& 0xc0 == 0x80

/-- `IP.IsLinkLocalMulticast`. -/
def isLinkLocalMulticast (ip : List Nat) : Bool :=
  match to4 ip with
  | some ip4 => ip4.getD 0 0 == 224 && ip4.getD 1 0 == 0 && ip4.getD 2 0 == 0
  | none => ip.length == 16 && ip.getD 0 0 == 0xff && ip.getD 1 0 &&& 0x0f == 2

/-- `IP.IsMulticast`. -/
def isMulticast (ip : List Nat) : Bool :=
  match to4 ip with
  | some ip4 => ip4.getD 0 0 &&& 0xf0 == 0xe0
  | none => ip.length == 16 && ip.getD 0 0 == 0xff

/-- `isBlockedTargetIP`; `nil` is no address. -/
def isBlockedTargetIP (ip : Option (List Nat)) : Bool :=
  match ip with
  | none => true
  | some ip =>
    let ip := (to4 ip).getD ip
    blockedPingTargetCIDRs.any (·.contains ip) || isUnspecified ip || isLoopback ip || isPrivate ip ||
      isLinkLocalUnicast ip || isLinkLocalMulticast ip || isMulticast ip

/-! ## Networks -/

/-- The bytes of an IPv4 address. -/
def ipv4Bytes (x : Ipv4) : List Nat := [x.a, x.b, x.c, x.d]

/-- The bytes of some groups. -/
def groupBytes (groups : List Nat) : List Nat := groups.flatMap fun g => [g / 256, g % 256]

/-- The IPv4 networks of the list. -/
def BlockedOctets (a b c : Nat) : Prop :=
  a = 0 ∨ a = 10 ∨ (a = 100 ∧ 64 ≤ b ∧ b ≤ 127) ∨ a = 127 ∨ (a = 169 ∧ b = 254) ∨ (a = 172 ∧ 16 ≤ b ∧ b ≤ 31) ∨
    (a = 192 ∧ b = 0 ∧ c = 0) ∨ (a = 192 ∧ b = 0 ∧ c = 2) ∨ (a = 192 ∧ b = 168) ∨ (a = 198 ∧ (b = 18 ∨ b = 19)) ∨
    (a = 198 ∧ b = 51 ∧ c = 100) ∨ (a = 203 ∧ b = 0 ∧ c = 113) ∨ (224 ≤ a ∧ a ≤ 239) ∨ 240 ≤ a

theorem byte_masks {b : Nat} (h : b < 256) :
    (b &&& 255 = b) ∧ (b &&& 0 = 0) ∧ (b &&& 192 = 64 ↔ 64 ≤ b ∧ b ≤ 127) ∧ (b &&& 240 = 16 ↔ 16 ≤ b ∧ b ≤ 31) ∧
      (b &&& 254 = 18 ↔ b = 18 ∨ b = 19) ∧ (b &&& 240 = 224 ↔ 224 ≤ b ∧ b ≤ 239) ∧ (b &&& 240 = 240 ↔ 240 ≤ b) ∧
      (b &&& 254 = 252 ↔ b = 252 ∨ b = 253) ∧ (b &&& 192 = 128 ↔ 128 ≤ b ∧ b ≤ 191) := by
  have hall : ∀ b : Fin 256, (b.val &&& 255 = b.val) ∧ (b.val &&& 0 = 0) ∧ (b.val &&& 192 = 64 ↔ 64 ≤ b.val ∧ b.val ≤ 127) ∧
      (b.val &&& 240 = 16 ↔ 16 ≤ b.val ∧ b.val ≤ 31) ∧ (b.val &&& 254 = 18 ↔ b.val = 18 ∨ b.val = 19) ∧
      (b.val &&& 240 = 224 ↔ 224 ≤ b.val ∧ b.val ≤ 239) ∧ (b.val &&& 240 = 240 ↔ 240 ≤ b.val) ∧
      (b.val &&& 254 = 252 ↔ b.val = 252 ∨ b.val = 253) ∧ (b.val &&& 192 = 128 ↔ 128 ≤ b.val ∧ b.val ≤ 191) := by
    decide +kernel
  exact hall ⟨b, h⟩

theorem contains_four (n0 n1 n2 n3 m0 m1 m2 m3 : Nat) (x : Ipv4) :
    (IpNet.mk [n0, n1, n2, n3] [m0, m1, m2, m3]).contains (ipv4Bytes x) = true ↔
      x.a &&& m0 = n0 &&& m0 ∧ x.b &&& m1 = n1 &&& m1 ∧ x.c &&& m2 = n2 &&& m2 ∧ x.d &&& m3 = n3 &&& m3 := by
  have hto4 : to4 (ipv4Bytes x) = some (ipv4Bytes x) := if_pos rfl
  simp only [IpNet.contains, hto4, Option.getD_some]
  simp [ipv4Bytes]

theorem contains_sixteen {network : IpNet} (h : network.ip.length = 16) (x : Ipv4) :
    network.contains (ipv4Bytes x) = false := by
  have hto4 : to4 (ipv4Bytes x) = some (ipv4Bytes x) := if_pos rfl
  simp only [IpNet.contains, hto4, Option.getD_some, h]
  rfl

theorem ipv4Networks : blockedPingTargetCIDRs.take 14 =
    [⟨[0, 0, 0, 0], [255, 0, 0, 0]⟩, ⟨[10, 0, 0, 0], [255, 0, 0, 0]⟩, ⟨[100, 64, 0, 0], [255, 192, 0, 0]⟩,
      ⟨[127, 0, 0, 0], [255, 0, 0, 0]⟩, ⟨[169, 254, 0, 0], [255, 255, 0, 0]⟩, ⟨[172, 16, 0, 0], [255, 240, 0, 0]⟩,
      ⟨[192, 0, 0, 0], [255, 255, 255, 0]⟩, ⟨[192, 0, 2, 0], [255, 255, 255, 0]⟩, ⟨[192, 168, 0, 0], [255, 255, 0, 0]⟩,
      ⟨[198, 18, 0, 0], [255, 254, 0, 0]⟩, ⟨[198, 51, 100, 0], [255, 255, 255, 0]⟩, ⟨[203, 0, 113, 0], [255, 255, 255, 0]⟩,
      ⟨[224, 0, 0, 0], [240, 0, 0, 0]⟩, ⟨[240, 0, 0, 0], [240, 0, 0, 0]⟩] := by decide

/-- **The IPv4 addresses** in the networks. -/
theorem networks_ipv4 (x : Ipv4) :
    blockedPingTargetCIDRs.any (·.contains (ipv4Bytes x)) = true ↔ BlockedOctets x.a x.b x.c := by
  obtain ⟨ha, hb, hc, hd⟩ := x.bounds
  obtain ⟨ha255, -, -, -, -, ha224, ha240, -, -⟩ := byte_masks ha
  obtain ⟨hb255, hb0, hb192, hb240, hb254, -⟩ := byte_masks hb
  obtain ⟨hc255, hc0, -⟩ := byte_masks hc
  have hd0 := (byte_masks hd).2.1
  have hsplit : blockedPingTargetCIDRs = blockedPingTargetCIDRs.take 14 ++ blockedPingTargetCIDRs.drop 14 :=
    (List.take_append_drop 14 _).symm
  have hipv6 : (blockedPingTargetCIDRs.drop 14).any (·.contains (ipv4Bytes x)) = false := by
    have hlengths : ∀ network ∈ blockedPingTargetCIDRs.drop 14, network.ip.length = 16 := by decide
    rw [List.any_eq_false]
    intro network hnetwork
    rw [contains_sixteen (hlengths network hnetwork)]
    exact Bool.false_ne_true
  rw [hsplit, List.any_append, hipv6, Bool.or_false, ipv4Networks]
  simp only [List.any_cons, List.any_nil, Bool.or_false, Bool.or_eq_true, contains_four, ha255, hb255, hb0, hc255, hc0, hd0,
    Nat.zero_and, Nat.reduceAnd, ha224, ha240, hb192, hb240, hb254, and_true]
  rfl

/-- **The IPv4 addresses** that are not probed. -/
theorem isBlocked_ipv4 (x : Ipv4) : isBlockedTargetIP (some (ipv4Bytes x)) = true ↔ BlockedOctets x.a x.b x.c := by
  have hto4 : to4 (ipv4Bytes x) = some (ipv4Bytes x) := if_pos rfl
  have hb := byte_masks x.bounds.2.1
  have ha := byte_masks x.bounds.1
  simp only [isBlockedTargetIP, hto4, Option.getD_some, Bool.or_eq_true, networks_ipv4, isUnspecified, isLoopback, isPrivate,
    isLinkLocalUnicast, isLinkLocalMulticast, isMulticast]
  -- The properties of `net.IP` add nothing to the list.
  refine ⟨fun h => ?_, fun h => by simp only [h, true_or]⟩
  simp only [ipv4Bytes, List.getD_cons_zero, List.getD_cons_succ, beq_iff_eq, Bool.and_eq_true,
    ha.2.2.2.2.2.1, hb.2.2.2.1, List.cons.injEq] at h
  rcases h with ((((((h | h | h) | h) | (h | h) | h) | h) | h) | h)
  · exact h
  · exact .inl h.1
  · exact .inl h.1
  · exact .inr (.inr (.inr (.inl h)))
  · exact .inr (.inl h)
  · exact .inr (.inr (.inr (.inr (.inr (.inl h)))))
  · exact .inr (.inr (.inr (.inr (.inr (.inr (.inr (.inr (.inl h))))))))
  · exact .inr (.inr (.inr (.inr (.inl h))))
  · simp [BlockedOctets, h.1.1]
  · simp [BlockedOctets, h]

/-- The IPv6 networks of the list. -/
def BlockedGroups : List Nat → Prop
  | [g0, g1, g2, g3, g4, g5, g6, g7] =>
    (g0 = 0 ∧ g1 = 0 ∧ g2 = 0 ∧ g3 = 0 ∧ g4 = 0 ∧ g5 = 0 ∧ g6 = 0 ∧ g7 = 0) ∨
      (g0 = 0 ∧ g1 = 0 ∧ g2 = 0 ∧ g3 = 0 ∧ g4 = 0 ∧ g5 = 0 ∧ g6 = 0 ∧ g7 = 1) ∨
      (g0 = 0x100 ∧ g1 = 0 ∧ g2 = 0 ∧ g3 = 0) ∨ (g0 = 0x2001 ∧ g1 = 0xdb8) ∨ (0xfc00 ≤ g0 ∧ g0 ≤ 0xfdff) ∨
      (0xfe80 ≤ g0 ∧ g0 ≤ 0xfebf) ∨ 0xff00 ≤ g0
  | _ => False

variable {g : Nat}

theorem high_byte (h : g < 65536) : g / 256 &&& 255 = g / 256 := (byte_masks (by omega)).1

theorem low_byte (g : Nat) : g % 256 &&& 255 = g % 256 := (byte_masks (Nat.mod_lt g (by decide))).1

theorem group_eq {high low : Nat} (h : low < 256) : (g / 256 = high ∧ g % 256 = low) ↔ g = high * 256 + low := by omega

theorem group_eq_and {high low : Nat} (h : low < 256) (p : Prop) :
    (g / 256 = high ∧ g % 256 = low ∧ p) ↔ g = high * 256 + low ∧ p := by
  rw [← and_assoc, group_eq h]

theorem first_group (h : g < 65536) : (g / 256 &&& 254 = 252 ↔ 0xfc00 ≤ g ∧ g ≤ 0xfdff) ∧
    ((g / 256 = 254 ∧ g % 256 &&& 192 = 128) ↔ 0xfe80 ≤ g ∧ g ≤ 0xfebf) ∧ (g / 256 = 255 ↔ 0xff00 ≤ g) := by
  have hhigh := byte_masks (by omega : g / 256 < 256)
  have hlow := byte_masks (Nat.mod_lt g (by decide : 0 < 256))
  refine ⟨?_, ?_, by omega⟩
  · rw [hhigh.2.2.2.2.2.2.2.1]
    omega
  · rw [hlow.2.2.2.2.2.2.2.2]
    omega

theorem ipv6Networks : blockedPingTargetCIDRs.drop 14 = [⟨[0, 0, 0, 0, 0, 0, 0, 0, 0, 0, 0, 0, 0, 0, 0, 0],
        [255, 255, 255, 255, 255, 255, 255, 255, 255, 255, 255, 255, 255, 255, 255, 255]⟩,
      ⟨[0, 0, 0, 0, 0, 0, 0, 0, 0, 0, 0, 0, 0, 0, 0, 1],
        [255, 255, 255, 255, 255, 255, 255, 255, 255, 255, 255, 255, 255, 255, 255, 255]⟩,
      ⟨[1, 0, 0, 0, 0, 0, 0, 0, 0, 0, 0, 0, 0, 0, 0, 0], [255, 255, 255, 255, 255, 255, 255, 255, 0, 0, 0, 0, 0, 0, 0, 0]⟩,
      ⟨[0x20, 0x01, 0x0d, 0xb8, 0, 0, 0, 0, 0, 0, 0, 0, 0, 0, 0, 0], [255, 255, 255, 255, 0, 0, 0, 0, 0, 0, 0, 0, 0, 0, 0, 0]⟩,
      ⟨[0xfc, 0, 0, 0, 0, 0, 0, 0, 0, 0, 0, 0, 0, 0, 0, 0], [254, 0, 0, 0, 0, 0, 0, 0, 0, 0, 0, 0, 0, 0, 0, 0]⟩,
      ⟨[0xfe, 0x80, 0, 0, 0, 0, 0, 0, 0, 0, 0, 0, 0, 0, 0, 0], [255, 192, 0, 0, 0, 0, 0, 0, 0, 0, 0, 0, 0, 0, 0, 0]⟩,
      ⟨[0xff, 0, 0, 0, 0, 0, 0, 0, 0, 0, 0, 0, 0, 0, 0, 0], [255, 0, 0, 0, 0, 0, 0, 0, 0, 0, 0, 0, 0, 0, 0, 0]⟩] := by
  decide

theorem groups_eight (x : Ipv6) : ∃ g0 g1 g2 g3 g4 g5 g6 g7, x.groups = [g0, g1, g2, g3, g4, g5, g6, g7] ∧
    g0 < 65536 ∧ g1 < 65536 ∧ g2 < 65536 ∧ g3 < 65536 ∧ g4 < 65536 ∧ g5 < 65536 ∧ g6 < 65536 ∧ g7 < 65536 := by
  have hbounds := x.bounds
  match hgroups : x.groups, x.length with
  | [g0, g1, g2, g3, g4, g5, g6, g7], _ =>
    rw [hgroups] at hbounds
    simp only [List.mem_cons, List.not_mem_nil, or_false, forall_eq_or_imp, forall_eq] at hbounds
    exact ⟨g0, g1, g2, g3, g4, g5, g6, g7, rfl, hbounds⟩

/-- **Mapped addresses** count as their IPv4 address. -/
theorem to4_groups (g0 g1 g2 g3 g4 g5 g6 g7 : Nat) : to4 (groupBytes [g0, g1, g2, g3, g4, g5, g6, g7]) =
    if [g0, g1, g2, g3, g4, g5] = [0, 0, 0, 0, 0, 0xffff] then some [g6 / 256, g6 % 256, g7 / 256, g7 % 256] else none := by
  have hiff : (groupBytes [g0, g1, g2, g3, g4, g5, g6, g7]).take 12 = [0, 0, 0, 0, 0, 0, 0, 0, 0, 0, 0xff, 0xff] ↔
      [g0, g1, g2, g3, g4, g5] = [0, 0, 0, 0, 0, 0xffff] := by
    simp [groupBytes, group_eq_and, group_eq, -Nat.div_eq_zero_iff]
  have hlength : (groupBytes [g0, g1, g2, g3, g4, g5, g6, g7]).length = 16 := rfl
  rw [to4, if_neg (by rw [hlength]; decide)]
  simp only [hlength, true_and, hiff]
  rfl

/-- **The IPv6 addresses** that are in the networks and not mapped. -/
theorem networks_ipv6 {g0 g1 g2 g3 g4 g5 g6 g7 : Nat} (h0 : g0 < 65536) (h1 : g1 < 65536) (h2 : g2 < 65536)
    (h3 : g3 < 65536) (h4 : g4 < 65536) (h5 : g5 < 65536) (h6 : g6 < 65536) (h7 : g7 < 65536)
    (hto4 : to4 (groupBytes [g0, g1, g2, g3, g4, g5, g6, g7]) = none) :
    blockedPingTargetCIDRs.any (·.contains (groupBytes [g0, g1, g2, g3, g4, g5, g6, g7])) = true ↔
      BlockedGroups [g0, g1, g2, g3, g4, g5, g6, g7] := by
  have hsplit : blockedPingTargetCIDRs = blockedPingTargetCIDRs.take 14 ++ blockedPingTargetCIDRs.drop 14 :=
    (List.take_append_drop 14 _).symm
  have hipv4 : (blockedPingTargetCIDRs.take 14).any (·.contains (groupBytes [g0, g1, g2, g3, g4, g5, g6, g7])) = false := by
    have hlengths : ∀ network ∈ blockedPingTargetCIDRs.take 14, network.ip.length = 4 := by decide
    rw [List.any_eq_false]
    intro network hnetwork
    simp only [IpNet.contains, hto4, Option.getD_none, hlengths network hnetwork]
    exact Bool.false_ne_true
  rw [hsplit, List.any_append, hipv4, Bool.false_or, ipv6Networks]
  simp only [List.any_cons, List.any_nil, Bool.or_false, Bool.or_eq_true, IpNet.contains, hto4, Option.getD_none]
  obtain ⟨hunique, hlink, hmulticast⟩ := first_group h0
  simp [groupBytes, high_byte, low_byte, h0, h1, h2, h3, h4, h5, h6, h7, group_eq_and, group_eq, BlockedGroups, hunique,
    hlink, hmulticast, -Nat.div_eq_zero_iff]

/-- An IPv4-mapped address is blocked as its IPv4 address, any other IPv6 address as the networks say. -/
def BlockedIpv6 (groups : List Nat) : Prop :=
  if groups.take 6 = [0, 0, 0, 0, 0, 0xffff] then
    BlockedOctets (groups.getD 6 0 / 256) (groups.getD 6 0 % 256) (groups.getD 7 0 / 256)
  else BlockedGroups groups

/-- **The IPv6 addresses** that are not probed. -/
theorem isBlocked_ipv6 (x : Ipv6) : isBlockedTargetIP (some (groupBytes x.groups)) = true ↔ BlockedIpv6 x.groups := by
  obtain ⟨g0, g1, g2, g3, g4, g5, g6, g7, hgroups, h0, h1, h2, h3, h4, h5, h6, h7⟩ := groups_eight x
  rw [hgroups, BlockedIpv6]
  have hto4 := to4_groups g0 g1 g2 g3 g4 g5 g6 g7
  have htake : [g0, g1, g2, g3, g4, g5, g6, g7].take 6 = [g0, g1, g2, g3, g4, g5] := rfl
  rw [htake]
  by_cases hmapped : [g0, g1, g2, g3, g4, g5] = [0, 0, 0, 0, 0, 0xffff]
  · rw [if_pos hmapped] at hto4 ⊢
    have hbytes := isBlocked_ipv4 ⟨g6 / 256, g6 % 256, g7 / 256, g7 % 256, by omega⟩
    refine Iff.trans (Eq.to_iff ?_) hbytes
    simp only [isBlockedTargetIP, hto4, Option.getD_some]
    rfl
  · rw [if_neg hmapped] at hto4 ⊢
    have hnetworks := networks_ipv6 h0 h1 h2 h3 h4 h5 h6 h7 hto4
    obtain ⟨hunique, hlink, hmulticast⟩ := first_group h0
    simp only [isBlockedTargetIP, hto4, Option.getD_none, Bool.or_eq_true, hnetworks, isUnspecified, isLoopback, isPrivate,
      isLinkLocalUnicast, isLinkLocalMulticast, isMulticast]
    -- Again the properties of `net.IP` add nothing to the list.
    refine ⟨fun h => ?_, fun h => by simp only [h, true_or]⟩
    rcases h with (((((h | h) | h) | h) | h) | h) | h
    · exact h
    · simp [groupBytes, group_eq_and, group_eq, -Nat.div_eq_zero_iff] at h
      exact .inl h
    · simp [groupBytes, group_eq_and, group_eq, -Nat.div_eq_zero_iff] at h
      exact .inr (.inl h)
    · simp [groupBytes, hunique] at h
      exact .inr (.inr (.inr (.inr (.inl h))))
    · simp [groupBytes, hlink] at h
      exact .inr (.inr (.inr (.inr (.inr (.inl h)))))
    · simp [groupBytes, hmulticast] at h
      exact .inr (.inr (.inr (.inr (.inr (.inr h.1)))))
    · simp [groupBytes, hmulticast] at h
      exact .inr (.inr (.inr (.inr (.inr (.inr h)))))

end CfMonitor.Agent
