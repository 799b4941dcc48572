import Mathlib
import StackableOperator.ForMathlib.Checked
import StackableOperator.Validation

/-!
# Host names

A `HostName` is a domain name or an IP address. Addresses are displayed in their usual texts; an
IPv6 address has its longest run of zeros compressed, and brackets only in `HostName.asUrlHost`.
-/

namespace StackableOperator

/-- A validated domain name. -/
abbrev DomainName : Type := { value : String // Validation.isDomain value = .ok () }

def DomainName.fromStr (value : String) : Except Validation.Errors DomainName :=
  checked Validation.isDomain value

/-! ### IP addresses -/

structure Ipv4Addr where
  octets : List UInt8
  length_eq : octets.length = 4
  deriving DecidableEq

structure Ipv6Addr where
  segments : List UInt16
  length_eq : segments.length = 8
  deriving DecidableEq

inductive IpAddr : Type
  | v4 (ip : Ipv4Addr)
  | v6 (ip : Ipv6Addr)
  deriving DecidableEq

/-- The octets in decimal, separated by dots. -/
def displayOctets (octets : List UInt8) : List Char :=
  ['.'].intercalate (octets.map fun octet => (toString octet.toNat).toList)

def Ipv4Addr.display (ip : Ipv4Addr) : String := String.ofList (displayOctets ip.octets)

namespace Ipv6Addr

/-- A run of segments. -/
structure Span where
  start : ℕ := 0
  len : ℕ := 0
  deriving DecidableEq

/-- Read one segment: the longest run of zeros so far, and the one that ends here. -/
def zeroesStep (spans : Span × Span) (e : UInt16 × ℕ) : Span × Span :=
  let (longest, current) := spans
  if e.1 = 0 then
    let current : Span := { start := if current.len = 0 then e.2 else current.start
                            len := current.len + 1 }
    (if current.len > longest.len then current else longest, current)
  else (longest, {})

/-- The first one of the longest runs of zeros. -/
def zeroes (segments : List UInt16) : Span := (segments.zipIdx.foldl zeroesStep ({}, {})).1

/-- Segments in hexadecimal, separated by colons. -/
def fmtSubslice (chunk : List UInt16) : List Char :=
  [':'].intercalate (chunk.map fun segment => Nat.toDigits 16 segment.toNat)

/-- The address `::ffff:a.b.c.d` for the octets of an IPv4 address. -/
def toIpv4Mapped (ip : Ipv6Addr) : Option (List UInt8) :=
  match ip.segments with
  | [0, 0, 0, 0, 0, 0xffff, ab, cd] =>
    some [(ab.toNat / 256).toUInt8, ab.toUInt8, (cd.toNat / 256).toUInt8, cd.toUInt8]
  | _ => none

def displayChars (ip : Ipv6Addr) : List Char :=
  match ip.toIpv4Mapped with
  | some octets => "::ffff:".toList ++ displayOctets octets
  | none =>
    let zeroes := zeroes ip.segments
    if zeroes.len > 1 then
      fmtSubslice (ip.segments.take zeroes.start) ++ "::".toList ++
        fmtSubslice (ip.segments.drop (zeroes.start + zeroes.len))
    else fmtSubslice ip.segments

def display (ip : Ipv6Addr) : String := String.ofList ip.displayChars

example : display ⟨[0x2001, 0xdb8, 0, 0, 1, 0, 0, 1], rfl⟩ = "2001:db8::1:0:0:1" := by decide

example : display ⟨[0, 0, 0, 0, 0, 0xffff, 0xc000, 0x0280], rfl⟩ = "::ffff:192.0.2.128" := by decide

end Ipv6Addr

def IpAddr.display : IpAddr → String
  | .v4 ip => ip.display
  | .v6 ip => ip.display

/-! ### Host names -/

inductive HostName : Type
  | ipAddress (ip : IpAddr)
  | domainName (domainName : DomainName)
  deriving DecidableEq

def HostName.display : HostName → String
  | .ipAddress ip => ip.display
  | .domainName name => name.1

/-- The host as it is written in URLs. -/
def HostName.asUrlHost : HostName → String
  | .ipAddress (.v4 ip) => ip.display
  | .ipAddress (.v6 ip) => "[" ++ ip.display ++ "]"
  | .domainName name => name.1

end StackableOperator
