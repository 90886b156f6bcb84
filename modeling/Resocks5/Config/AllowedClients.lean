import Resocks5.Foundation.Text
import Resocks5.Net.IpAddr

namespace Resocks5.Config

open Resocks5.Foundation
open Resocks5.Net

/-! Who may connect: a list of addresses and masks. -/

inductive IpAddr where
  | v4 (addr : Ipv4)
  | v6 (addr : Ipv6)
  deriving DecidableEq

def toIpv6Mapped (addr : Ipv4) : Ipv6 where
  segments := [0, 0, 0, 0, 0, 0xFFFF, joinBytes addr.a addr.b, joinBytes addr.c addr.d]
  eight := rfl

/-- `str::parse::<IpAddr>`: what starts like an IPv4 address is read as one. -/
def parseIpAddr (text : Bytes) : Option IpAddr :=
  match readIpv4 text with
  | some (addr, rest) => if rest.isEmpty then some (.v4 addr) else none
  | none => (parseIpv6 text).map .v6

/-- A free place, or the value that has to stand there. -/
inductive Mask where
  | v4 (segs : Vector (Option UInt8) 4)
  | v6 (segs : Vector (Option UInt16) 8)

inductive Rule where
  | exact (addr : IpAddr)
  | loopback
  | mask (mask : Mask)

structure AllowedClients where
  allowAll : Bool
  rules : List Rule

def normalizeMapped : IpAddr → IpAddr
  | .v6 addr =>
    match addr.toIpv4Mapped with
    | some v4 => .v4 v4
    | none => .v6 addr
  | ip => ip

def isLoopback : IpAddr → Bool
  | .v4 addr => addr.a == 127
  | .v6 addr => addr.segments == [0, 0, 0, 0, 0, 0, 0, 1]

def segsMatch {α : Type} [BEq α] {n : Nat} (segs : Vector (Option α) n) (values : List α) : Bool :=
  (segs.toList.zip values).all fun (seg, value) => seg.all (· == value)

def octets (addr : Ipv4) : List UInt8 := [addr.a, addr.b, addr.c, addr.d]

/-- An IPv4 address meets an IPv6 mask in its mapped form. -/
def ruleMatches (rule : Rule) (ip : IpAddr) : Bool :=
  match rule with
  | .exact exact => exact == ip
  | .loopback => isLoopback ip
  | .mask (.v4 segs) =>
    match ip with
    | .v4 addr => segsMatch segs (octets addr)
    | .v6 _ => false
  | .mask (.v6 segs) =>
    match ip with
    | .v6 addr => segsMatch segs addr.segments
    | .v4 addr => segsMatch segs (toIpv6Mapped addr).segments

namespace AllowedClients

def matchesIp (compiled : AllowedClients) (ip : IpAddr) : Bool :=
  let ip := normalizeMapped ip
  compiled.allowAll || compiled.rules.any (ruleMatches · ip)

end AllowedClients

inductive ElementError where
  | notAddress
  | badIpv4
  | fourOctets
  | badOctet (octet : Bytes)
  | leadingZero (octet : Bytes)
  | zone
  | brackets
  | badIpv6
  | manyElisions
  | extraColons
  | tooManyGroups
  | elisionAtEight
  | eightGroups
  | badGroup (group : Bytes)
  | strayCharacters (group : Bytes)
  | longGroup (group : Bytes)
  deriving DecidableEq, Repr

inductive SpecError where
  | emptyElement (spec : Bytes)
  | badElement (elem spec : Bytes) (why : ElementError)
  | emptyRule
  deriving DecidableEq, Repr

/-- An error that is returned, or an abort of the program. -/
inductive Fault (ε : Type) where
  | bail (error : ε)
  | panicked
  deriving DecidableEq, Repr

def bail {ε α : Type} (error : ε) : Except (Fault ε) α := .error (.bail error)

def subUsize {ε : Type} (a b : Nat) : Except (Fault ε) Nat :=
  if b ≤ a then .ok (a - b) else .error .panicked

/-- One leading `+` is allowed. -/
def stripPlus : Bytes → Bytes
  | 0x2B :: rest => rest
  | text => text

def parseUnsigned (radix limit : Nat) (text : Bytes) : Option Nat :=
  let digits := stripPlus text
  if digits.isEmpty || !digits.all (isDigit radix) then none
  else if numeralValue radix digits ≤ limit then some (numeralValue radix digits)
  else none

def isStar (part : Bytes) : Bool := part == [0x2A]

/-- A star leaves its place free; the others are read and stored by their index. -/
def fillSlots {α : Type} {n : Nat} (read : Bytes → Except ElementError α) :
    Nat → List Bytes → Vector (Option α) n → Except (Fault ElementError) (Vector (Option α) n)
  | _, [], out => .ok out
  | i, part :: rest, out =>
    if isStar part then fillSlots read (i + 1) rest out
    else
      match read part with
      | .error why => bail why
      | .ok value =>
        if h : i < n then fillSlots read (i + 1) rest (out.set i (some value) h)
        else .error .panicked

def maskOctet (p : Bytes) : Except ElementError UInt8 :=
  if p.contains 0x2A || p.isEmpty || !p.all isAsciiDigit then .error (.badOctet p)
  else if 1 < p.length && p.head? == some 0x30 then .error (.leadingZero p)
  else
    match parseUnsigned 10 255 p with
    | some value => .ok value.toUInt8
    | none => .error (.badOctet p)

def parseV4 (elem : Bytes) : Except (Fault ElementError) Rule :=
  if !elem.contains 0x2A then
    match parseIpAddr elem with
    | some ip => .ok (.exact ip)
    | none => bail .badIpv4
  else
    let parts := elem.splitOn 0x2E
    if parts.length ≠ 4 then bail .fourOctets
    else (fillSlots maskOctet 0 parts (Vector.replicate 4 none)).map fun out => .mask (.v4 out)

def maskGroup (g : Bytes) : Except ElementError UInt16 :=
  if g.contains 0x2A || g.isEmpty then .error (.badGroup g)
  else if !g.all isAsciiHexDigit then .error (.strayCharacters g)
  else if 4 < g.length then .error (.longGroup g)
  else
    match parseUnsigned 16 65535 g with
    | some value => .ok value.toUInt16
    | none => .error (.badGroup g)

def finishV6Groups (groups : List Bytes) :
    Except (Fault ElementError) (Vector (Option UInt16) 8) :=
  fillSlots maskGroup 0 groups (Vector.replicate 8 none)

/-- `match_indices("::")`: the matches do not overlap. -/
def elisions : Bytes → Nat
  | 0x3A :: 0x3A :: rest => elisions rest + 1
  | _ :: rest => elisions rest
  | [] => 0

def splitElision (elem : Bytes) : Option (Bytes × Bytes) :=
  (position [0x3A, 0x3A] elem).map fun i => (elem.take i, elem.drop (i + 2))

def colonParts (text : Bytes) : List Bytes :=
  if text.isEmpty then [] else text.splitOn 0x3A

def parseV6 (elem : Bytes) : Except (Fault ElementError) Rule :=
  if elem.contains 0x25 then bail .zone
  else if elem.head? == some 0x5B || elem.getLast? == some 0x5D then bail .brackets
  else if !elem.contains 0x2A then
    match parseIpv6 elem with
    | some addr => .ok (.exact (normalizeMapped (.v6 addr)))
    | none => bail .badIpv6
  else if 1 < elisions elem then bail .manyElisions
  else if (position [0x3A, 0x3A, 0x3A] elem).isSome then bail .extraColons
  else
    let (headStr, tailStr) := (splitElision elem).getD (elem, [])
    let head := colonParts headStr
    let tail := colonParts tailStr
    if head.any List.isEmpty || tail.any List.isEmpty then bail .extraColons
    else
      let explicit := head.length + tail.length
      -- turned down before the subtraction
      if 8 < explicit then bail .tooManyGroups
      else
        match splitElision elem with
        | some _ =>
          if explicit = 8 then bail .elisionAtEight
          else do
            let zeros ← subUsize 8 explicit
            let out ← finishV6Groups (head ++ List.replicate zeros [0x30] ++ tail)
            return .mask (.v6 out)
        | none =>
          if explicit ≠ 8 then bail .eightGroups
          else (finishV6Groups head).map fun out => .mask (.v6 out)

def parseElement (elem : Bytes) : Except (Fault ElementError) Rule :=
  if eqIgnoreAsciiCase elem (lit "loopback") then .ok .loopback
  else if elem.contains 0x3A then parseV6 elem
  else if elem.contains 0x2E then parseV4 elem
  else bail .notAddress

def compileParts (spec : Bytes) :
    List Bytes → AllowedClients → Except (Fault SpecError) AllowedClients
  | [], compiled => .ok compiled
  | raw :: rest, compiled =>
    let elem := trim raw
    if elem.isEmpty then bail (.emptyElement spec)
    else if isStar elem then compileParts spec rest { compiled with allowAll := true }
    else
      match parseElement elem with
      | .ok rule => compileParts spec rest { compiled with rules := compiled.rules ++ [rule] }
      | .error (.bail why) => bail (.badElement elem spec why)
      | .error .panicked => .error .panicked

def compileAllowedClients (spec : Bytes) : Except (Fault SpecError) AllowedClients := do
  let compiled ← compileParts spec (spec.splitOn 0x2C) ⟨false, []⟩
  if compiled.rules.isEmpty && !compiled.allowAll then bail .emptyRule
  else return compiled

end Resocks5.Config
