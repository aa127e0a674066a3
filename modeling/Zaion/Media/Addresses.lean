import Mathlib.Tactic.Ring.RingNF

/-! Which IP addresses count as public: the classifiers of the standard library and the two of
the media cache, with the IPv4 addresses that IPv6 addresses embed. -/
namespace Zaion.Media

structure Ipv4Addr where
  a : UInt8
  b : UInt8
  c : UInt8
  d : UInt8
  deriving DecidableEq

namespace Ipv4Addr

def isUnspecified (ip : Ipv4Addr) : Bool := ip == ⟨0, 0, 0, 0⟩
def isLoopback (ip : Ipv4Addr) : Bool := ip.a == 127

def isPrivate (ip : Ipv4Addr) : Bool :=
  ip.a == 10 || (ip.a == 172 && 16 ≤ ip.b && ip.b ≤ 31) || (ip.a == 192 && ip.b == 168)

def isLinkLocal (ip : Ipv4Addr) : Bool := ip.a == 169 && ip.b == 254
def isMulticast (ip : Ipv4Addr) : Bool := 224 ≤ ip.a && ip.a ≤ 239
def isBroadcast (ip : Ipv4Addr) : Bool := ip == ⟨255, 255, 255, 255⟩

def isDocumentation (ip : Ipv4Addr) : Bool :=
  (ip.a == 192 && ip.b == 0 && ip.c == 2) || (ip.a == 198 && ip.b == 51 && ip.c == 100) ||
    (ip.a == 203 && ip.b == 0 && ip.c == 113)

/-- The address in two segments of an IPv6 one. -/
def ofSegments (high low : UInt16) : Ipv4Addr :=
  ⟨(high >>> 8).toUInt8, (high &&& 0xff).toUInt8, (low >>> 8).toUInt8, (low &&& 0xff).toUInt8⟩

end Ipv4Addr

def isPublicIpv4 (ip : Ipv4Addr) : Bool :=
  if ip.isLoopback || ip.isPrivate || ip.isLinkLocal || ip.isBroadcast || ip.isDocumentation || ip.isMulticast ||
    ip.isUnspecified then false
  -- CGNAT
  else if ip.a == 100 && (ip.b &&& 0b11000000) == 0b01000000 then false
  -- benchmarking
  else if ip.a == 198 && (ip.b == 18 || ip.b == 19) then false
  -- IETF protocol assignments
  else if ip.a == 192 && ip.b == 0 && ip.c == 0 then false
  else if 240 ≤ ip.a then false
  else if ip.a == 0 then false
  else true

structure Ipv6Addr where
  s0 : UInt16
  s1 : UInt16
  s2 : UInt16
  s3 : UInt16
  s4 : UInt16
  s5 : UInt16
  s6 : UInt16
  s7 : UInt16
  deriving DecidableEq

namespace Ipv6Addr

def isUnspecified (ip : Ipv6Addr) : Bool := ip == ⟨0, 0, 0, 0, 0, 0, 0, 0⟩
def isLoopback (ip : Ipv6Addr) : Bool := ip == ⟨0, 0, 0, 0, 0, 0, 0, 1⟩
def isMulticast (ip : Ipv6Addr) : Bool := (ip.s0 &&& 0xff00) == 0xff00

end Ipv6Addr

def isPublicIpv6 (ip : Ipv6Addr) : Bool :=
  if ip.isUnspecified || ip.isLoopback || ip.isMulticast then false
  -- unique-local, link-local, site-local
  else if (ip.s0 &&& 0xfe00) == 0xfc00 then false
  else if (ip.s0 &&& 0xffc0) == 0xfe80 then false
  else if (ip.s0 &&& 0xffc0) == 0xfec0 then false
  -- documentation
  else if ip.s0 == 0x2001 && ip.s1 == 0x0db8 then false
  -- NAT64
  else if ip.s0 == 0x0064 && ip.s1 == 0xff9b && ip.s2 == 0 && ip.s3 == 0 && ip.s4 == 0 && ip.s5 == 0 then
    isPublicIpv4 (.ofSegments ip.s6 ip.s7)
  -- 6to4
  else if ip.s0 == 0x2002 then isPublicIpv4 (.ofSegments ip.s1 ip.s2)
  -- IPv4-mapped
  else if ip.s0 == 0 && ip.s1 == 0 && ip.s2 == 0 && ip.s3 == 0 && ip.s4 == 0 && ip.s5 == 0xffff then
    isPublicIpv4 (.ofSegments ip.s6 ip.s7)
  -- IPv4-compatible
  else if ip.s0 == 0 && ip.s1 == 0 && ip.s2 == 0 && ip.s3 == 0 && ip.s4 == 0 && ip.s5 == 0 &&
      !(ip.s6 == 0 && ip.s7 == 0) then
    isPublicIpv4 (.ofSegments ip.s6 ip.s7)
  else true

inductive IpAddr where
  | v4 (ip : Ipv4Addr)
  | v6 (ip : Ipv6Addr)
  deriving DecidableEq

def IpAddr.isPublic : IpAddr → Bool
  | .v4 ip => isPublicIpv4 ip
  | .v6 ip => isPublicIpv6 ip

/-- The four bytes stand in the two segments. -/
def Carries (high low : UInt16) (v4 : Ipv4Addr) : Prop :=
  high.toNat = 256 * v4.a.toNat + v4.b.toNat ∧ low.toNat = 256 * v4.c.toNat + v4.d.toNat

/-- `ip` is the mapped, compatible, 6to4 or NAT64 form of `v4`. -/
inductive Embeds (v4 : Ipv4Addr) : Ipv6Addr → Prop where
  | mapped {s6 s7 : UInt16} : Carries s6 s7 v4 → Embeds v4 ⟨0, 0, 0, 0, 0, 0xffff, s6, s7⟩
  | compatible {s6 s7 : UInt16} : Carries s6 s7 v4 → Embeds v4 ⟨0, 0, 0, 0, 0, 0, s6, s7⟩
  | sixToFour {s1 s2 s3 s4 s5 s6 s7 : UInt16} : Carries s1 s2 v4 → Embeds v4 ⟨0x2002, s1, s2, s3, s4, s5, s6, s7⟩
  | nat64 {s6 s7 : UInt16} : Carries s6 s7 v4 → Embeds v4 ⟨0x64, 0xff9b, 0, 0, 0, 0, s6, s7⟩

theorem ofSegments_high {x : UInt16} {p q : UInt8} (carries : x.toNat = 256 * p.toNat + q.toNat) :
    (x >>> 8).toUInt8 = p := by
  have small := q.toNat_lt
  have small' := p.toNat_lt
  apply UInt8.toNat.inj
  simp [carries,Nat.shiftRight_eq_div_pow]
  omega

theorem ofSegments_low {x : UInt16} {p q : UInt8} (carries : x.toNat = 256 * p.toNat + q.toNat) :
    (x &&& 0xff).toUInt8 = q := by
  have small := q.toNat_lt
  have mask : x.toNat &&& 255 = x.toNat % 256 := Nat.and_two_pow_sub_one_eq_mod x.toNat 8
  apply UInt8.toNat.inj
  simp only [UInt16.toNat_toUInt8,UInt16.toNat_and,UInt16.reduceToNat]
  omega

theorem Carries.ofSegments {high low : UInt16} {v4 : Ipv4Addr} (carries : Carries high low v4) :
    Ipv4Addr.ofSegments high low = v4 := by
  rw [Ipv4Addr.ofSegments,ofSegments_high carries.1,ofSegments_low carries.1,ofSegments_high carries.2,
    ofSegments_low carries.2]

/-- The classifier looks through every embedding. -/
theorem Embeds.isPublic {v4 : Ipv4Addr} {ip : Ipv6Addr} (embeds : Embeds v4 ip) (accepted : isPublicIpv6 ip = true) :
    isPublicIpv4 v4 = true := by
  cases embeds with
  | mapped carries =>
    simp [isPublicIpv6,carries.ofSegments] at accepted
    exact accepted.2
  -- `::` is unspecified, so the test for a zero address never lets one through
  | compatible carries =>
    simp [isPublicIpv6,carries.ofSegments] at accepted
    obtain ⟨⟨⟨specified, _⟩, _⟩, ⟨rfl, rfl⟩ | inner⟩ := accepted
    · cases specified
    · exact inner
  | sixToFour carries =>
    simp [isPublicIpv6,carries.ofSegments] at accepted
    exact accepted.2.2.2.2
  | nat64 carries =>
    simp [isPublicIpv6,carries.ofSegments] at accepted
    exact accepted.2.2.2.2

end Zaion.Media
