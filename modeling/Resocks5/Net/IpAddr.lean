import Resocks5.Foundation.Numeral

namespace Resocks5.Net

open Resocks5.Foundation

structure Ipv4 where
  a : UInt8
  b : UInt8
  c : UInt8
  d : UInt8
  deriving DecidableEq, Repr

structure Ipv6 where
  segments : List UInt16
  eight : segments.length = 8
  deriving DecidableEq

/-! The parser of the standard library: every reader leaves the rest of its input. -/

/-- A run of at most `maxDigits` digits; a longer run fails. -/
def readNumber (radix maxDigits : Nat) (allowZeroPrefix : Bool) (text : Bytes) :
    Option (Nat × Bytes) :=
  let digits := text.takeWhile (isDigit radix)
  if digits.length = 0 ∨ maxDigits < digits.length then none
  else if !allowZeroPrefix && digits.head? == some 0x30 && 1 < digits.length then none
  else some (numeralValue radix digits, text.dropWhile (isDigit radix))

def readGivenChar (char : UInt8) : Bytes → Option Bytes
  | b :: rest => if b = char then some rest else none
  | [] => none

def readSeparator {α : Type} (sep : UInt8) (index : Nat) (inner : Bytes → Option (α × Bytes))
    (text : Bytes) : Option (α × Bytes) :=
  if 0 < index then (readGivenChar sep text).bind inner else inner text

def readOctet (text : Bytes) : Option (UInt8 × Bytes) :=
  (readNumber 10 3 false text).bind fun (value, rest) =>
    if value ≤ 255 then some (value.toUInt8, rest) else none

def readIpv4 (text : Bytes) : Option (Ipv4 × Bytes) :=
  (readSeparator 0x2E 0 readOctet text).bind fun (a, text) =>
  (readSeparator 0x2E 1 readOctet text).bind fun (b, text) =>
  (readSeparator 0x2E 2 readOctet text).bind fun (c, text) =>
  (readSeparator 0x2E 3 readOctet text).bind fun (d, text) =>
  some (⟨a, b, c, d⟩, text)

def readGroup (text : Bytes) : Option (UInt16 × Bytes) :=
  (readNumber 16 4 true text).map fun (value, rest) => (value.toUInt16, rest)

/-- What `read_groups` filled, whether an IPv4 address ended it, and the rest. -/
structure Groups where
  groups : List UInt16
  ipv4 : Bool
  rest : Bytes

def Groups.cons (group : UInt16) (read : Groups) : Groups :=
  { read with groups := group :: read.groups }

def joinBytes (high low : UInt8) : UInt16 :=
  (high.toNat * 256 + low.toNat).toUInt16

/-- `slots` are left from `index` on; an embedded IPv4 address takes two. -/
def readGroups : Nat → Nat → Bytes → Groups
  | 0, _, text => ⟨[], false, text⟩
  | slots + 1, index, text =>
    let ipv4 := if 0 < slots then readSeparator 0x3A index readIpv4 text else none
    match ipv4 with
    | some (v4, rest) => ⟨[joinBytes v4.a v4.b, joinBytes v4.c v4.d], true, rest⟩
    | none =>
      match readSeparator 0x3A index readGroup text with
      | some (group, rest) => (readGroups slots (index + 1) rest).cons group
      | none => ⟨[], false, text⟩

/-- Eight groups, or up to seven around a `::`. -/
def readIpv6Groups (text : Bytes) : Option (List UInt16 × Bytes) :=
  let head := readGroups 8 0 text
  if head.groups.length = 8 then some (head.groups, head.rest)
  else if head.ipv4 then none
  else
    (readGivenChar 0x3A head.rest).bind fun text =>
    (readGivenChar 0x3A text).map fun text =>
      let tail := readGroups (7 - head.groups.length) 0 text
      (head.groups ++
        List.replicate (8 - head.groups.length - tail.groups.length) 0 ++ tail.groups,
        tail.rest)

theorem readGroups_length (slots index : Nat) (text : Bytes) :
    (readGroups slots index text).groups.length ≤ slots := by
  induction slots generalizing index text with
  | zero => exact le_refl 0
  | succ slots ih =>
      rw [readGroups]
      split
      · rename_i hread
        split at hread
        · simp only [List.length_cons, List.length_nil]
          omega
        · cases hread
      · split
        · exact Nat.succ_le_succ (ih _ _)
        · exact Nat.zero_le _

theorem readIpv6Groups_length {text rest : Bytes} {segments : List UInt16}
    (hread : readIpv6Groups text = some (segments, rest)) : segments.length = 8 := by
  have hhead := readGroups_length 8 0 text
  unfold readIpv6Groups at hread
  dsimp only at hread
  split at hread
  · rename_i height
    cases hread
    exact height
  · split at hread
    · cases hread
    · obtain ⟨_, _, hread⟩ := Option.bind_eq_some_iff.mp hread
      obtain ⟨text', _, heq⟩ := Option.map_eq_some_iff.mp hread
      have htail := readGroups_length (7 - (readGroups 8 0 text).groups.length) 0 text'
      cases heq
      simp only [List.length_append, List.length_replicate]
      omega

/-- `str::parse::<Ipv4Addr>`; nothing longer than `255.255.255.255` is tried. -/
def parseIpv4 (text : Bytes) : Option Ipv4 :=
  if 15 < text.length then none
  else
    match readIpv4 text with
    | some (addr, []) => some addr
    | _ => none

def parseIpv6 (text : Bytes) : Option Ipv6 :=
  match h : readIpv6Groups text with
  | some (segments, []) => some ⟨segments, readIpv6Groups_length h⟩
  | _ => none

/-! `Display`. -/

def Ipv4.display (addr : Ipv4) : Bytes :=
  render 10 addr.a.toNat ++ 0x2E :: render 10 addr.b.toNat ++
    0x2E :: render 10 addr.c.toNat ++ 0x2E :: render 10 addr.d.toNat

def fmtSubslice : List UInt16 → Bytes
  | [] => []
  | [segment] => render 16 segment.toNat
  | segment :: rest => render 16 segment.toNat ++ 0x3A :: fmtSubslice rest

structure Span where
  start : Nat
  len : Nat
  deriving DecidableEq, Repr

/-- The longest run of zero segments, the first of equals. -/
def longestZeroes : Nat → Span → Span → List UInt16 → Span
  | _, _, longest, [] => longest
  | i, current, longest, segment :: rest =>
    if segment = 0 then
      let start := if current.len = 0 then i else current.start
      let current := Span.mk start (current.len + 1)
      longestZeroes (i + 1) current (if longest.len < current.len then current else longest) rest
    else
      longestZeroes (i + 1) ⟨0, 0⟩ longest rest

def Ipv6.toIpv4Mapped (addr : Ipv6) : Option Ipv4 :=
  match addr.segments with
  | [0, 0, 0, 0, 0, 0xFFFF, ab, cd] =>
    some ⟨(ab >>> 8).toUInt8, ab.toUInt8, (cd >>> 8).toUInt8, cd.toUInt8⟩
  | _ => none

def Ipv6.display (addr : Ipv6) : Bytes :=
  match addr.toIpv4Mapped with
  | some v4 => lit "::ffff:" ++ v4.display
  | none =>
    let zeroes := longestZeroes 0 ⟨0, 0⟩ ⟨0, 0⟩ addr.segments
    if 1 < zeroes.len then
      fmtSubslice (addr.segments.take zeroes.start) ++ 0x3A :: 0x3A ::
        fmtSubslice (addr.segments.drop (zeroes.start + zeroes.len))
    else
      fmtSubslice addr.segments

end Resocks5.Net
