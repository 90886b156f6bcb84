import Resocks5.Net.IpRoundTrip
import Mathlib.Data.List.TakeWhile

namespace Resocks5.Net

open Resocks5.Foundation

/-- A parsed `host:port` pair; the host has no brackets. -/
structure HostPort where
  host : Bytes
  port : UInt16
  deriving DecidableEq, Repr

/-- `str::parse::<u16>`: one leading `+` is allowed, and any number of zeros. -/
def parseU16 (text : Bytes) : Option UInt16 :=
  let digits := match text with
    | 0x2B :: rest => rest
    | _ => text
  if digits.isEmpty || !digits.all (isDigit 10) then none
  else
    let value := numeralValue 10 digits
    if value ≤ 65535 then some value.toUInt16 else none

namespace HostPort

/-- `[ipv6]:port`, or everything before the last colon with its port. -/
def parse : Bytes → Option HostPort
  | 0x5B :: rest =>
    (splitOnce 0x5D rest).bind fun (host, after) =>
      if (parseIpv6 host).isNone then none
      else
        (readGivenChar 0x3A after).bind fun port =>
          (parseU16 port).map fun port => ⟨host, port⟩
  | text =>
    (rsplitOnce 0x3A text).bind fun (host, port) =>
      if host.contains 0x3A then
        if (parseIpv6 host).isNone then none
        else (parseU16 port).map fun port => ⟨host, port⟩
      else if host.isEmpty then none
      else (parseU16 port).map fun port => ⟨host, port⟩

def format (host : Bytes) (port : UInt16) : Bytes :=
  if (parseIpv6 host).isSome then
    0x5B :: host ++ 0x5D :: 0x3A :: render 10 port.toNat
  else
    host ++ 0x3A :: render 10 port.toNat

end HostPort

theorem parseU16_render (port : UInt16) : parseU16 (render 10 port.toNat) = some port := by
  have hlt := port.toNat_lt
  have hdigits := render_digits (show 2 ≤ 10 by omega) (by omega) port.toNat
  have hplus : (match render 10 port.toNat with
      | 0x2B :: rest => rest
      | _ => render 10 port.toNat) = render 10 port.toNat := by
    split
    · rename_i rest heq
      have hb := hdigits 0x2B (by rw [heq]; exact List.mem_cons_self)
      exact absurd hb (by decide)
    · rfl
  unfold parseU16
  dsimp only
  rw [hplus, if_neg, numeralValue_render (by omega) (by omega), if_pos (by omega)]
  · simp
  · simp only [Bool.or_eq_true, List.isEmpty_iff, Bool.not_eq_true', List.all_eq_false]
    rintro (hnil | ⟨b, hb, hnot⟩)
    · exact render_ne_nil 10 _ hnil
    · exact hnot (hdigits b hb)

theorem render_no_byte {sep : UInt8} (hsep : isDigit 10 sep = false) (n : Nat) :
    sep ∉ render 10 n := by
  intro hmem
  rw [render_digits (by omega) (by omega) n sep hmem] at hsep
  cases hsep

/-! What the address parsers consume. -/

def isIpByte (b : UInt8) : Bool := isDigit 16 b || b == 0x3A || b == 0x2E

/-- A reader took address bytes off the front. -/
def Took (text rest : Bytes) : Prop :=
  ∃ used, text = used ++ rest ∧ ∀ b ∈ used, isIpByte b = true

theorem Took.refl (text : Bytes) : Took text text := ⟨[], rfl, by simp⟩

theorem Took.trans {a b c : Bytes} (hab : Took a b) (hbc : Took b c) : Took a c := by
  obtain ⟨front, rfl, hfront⟩ := hab
  obtain ⟨back, rfl, hback⟩ := hbc
  refine ⟨front ++ back, by simp, fun byte hbyte => ?_⟩
  obtain hbyte | hbyte := List.mem_append.mp hbyte
  · exact hfront byte hbyte
  · exact hback byte hbyte

theorem Took.char {char : UInt8} {text rest : Bytes} (hchar : isIpByte char = true)
    (hread : readGivenChar char text = some rest) : Took text rest := by
  cases text with
  | nil => cases hread
  | cons b tail =>
      rw [readGivenChar] at hread
      split at hread
      · rename_i hb
        cases hread
        exact ⟨[b], rfl, by simpa [hb] using hchar⟩
      · cases hread

theorem Took.number {radix maxDigits value : Nat} {allowZeroPrefix : Bool} {text rest : Bytes}
    (hclass : ∀ b, isDigit radix b = true → isIpByte b = true)
    (hread : readNumber radix maxDigits allowZeroPrefix text = some (value, rest)) :
    Took text rest := by
  unfold readNumber at hread
  dsimp only at hread
  split at hread
  · cases hread
  · split at hread
    · cases hread
    · cases hread
      exact ⟨text.takeWhile (isDigit radix), (List.takeWhile_append_dropWhile).symm,
        fun b hb => hclass b (List.mem_takeWhile_imp hb)⟩

theorem Took.separator {α : Type} {sep : UInt8} {index : Nat}
    {inner : Bytes → Option (α × Bytes)} {text rest : Bytes} {value : α}
    (hsep : isIpByte sep = true)
    (hinner : ∀ {text rest value}, inner text = some (value, rest) → Took text rest)
    (hread : readSeparator sep index inner text = some (value, rest)) : Took text rest := by
  rw [readSeparator] at hread
  split at hread
  · obtain ⟨tail, hchar, hread⟩ := Option.bind_eq_some_iff.mp hread
    exact (Took.char hsep hchar).trans (hinner hread)
  · exact hinner hread

theorem isIpByte_of_decimal {b : UInt8} (hb : isDigit 10 b = true) : isIpByte b = true := by
  simp [isIpByte, isDigit_mono hb]

theorem Took.octet {text rest : Bytes} {octet : UInt8}
    (hread : readOctet text = some (octet, rest)) : Took text rest := by
  obtain ⟨⟨value, rest'⟩, hnumber, hvalue⟩ := Option.bind_eq_some_iff.mp hread
  dsimp only at hvalue
  split at hvalue
  · cases hvalue
    exact Took.number (fun b hb => isIpByte_of_decimal hb) hnumber
  · cases hvalue

theorem Took.ipv4 {text rest : Bytes} {addr : Ipv4}
    (hread : readIpv4 text = some (addr, rest)) : Took text rest := by
  obtain ⟨⟨_, _⟩, ha, hread⟩ := Option.bind_eq_some_iff.mp hread
  obtain ⟨⟨_, _⟩, hb, hread⟩ := Option.bind_eq_some_iff.mp hread
  obtain ⟨⟨_, _⟩, hc, hread⟩ := Option.bind_eq_some_iff.mp hread
  obtain ⟨⟨_, _⟩, hd, hread⟩ := Option.bind_eq_some_iff.mp hread
  have hdot : isIpByte 0x2E = true := by decide
  cases hread
  exact (((Took.separator hdot Took.octet ha).trans (Took.separator hdot Took.octet hb)).trans
    (Took.separator hdot Took.octet hc)).trans (Took.separator hdot Took.octet hd)

theorem Took.group {text rest : Bytes} {group : UInt16}
    (hread : readGroup text = some (group, rest)) : Took text rest := by
  obtain ⟨⟨value, rest'⟩, hnumber, heq⟩ := Option.map_eq_some_iff.mp hread
  cases heq
  exact Took.number (fun b hb => by simp [isIpByte, hb]) hnumber

theorem Took.groups (slots index : Nat) (text : Bytes) :
    Took text (readGroups slots index text).rest := by
  have hcolon : isIpByte 0x3A = true := by decide
  induction slots generalizing index text with
  | zero => exact Took.refl text
  | succ slots ih =>
      rw [readGroups]
      split
      · rename_i v4 rest hread
        split at hread
        · exact Took.separator hcolon Took.ipv4 hread
        · cases hread
      · split
        · rename_i group rest hread
          exact (Took.separator hcolon Took.group hread).trans (ih _ _)
        · exact Took.refl text

theorem Took.ipv6 {text rest : Bytes} {segments : List UInt16}
    (hread : readIpv6Groups text = some (segments, rest)) : Took text rest := by
  have hcolon : isIpByte 0x3A = true := by decide
  have hhead := Took.groups 8 0 text
  unfold readIpv6Groups at hread
  dsimp only at hread
  split at hread
  · cases hread
    exact hhead
  · split at hread
    · cases hread
    · obtain ⟨first, hfirst, hread⟩ := Option.bind_eq_some_iff.mp hread
      obtain ⟨second, hsecond, heq⟩ := Option.map_eq_some_iff.mp hread
      cases heq
      exact ((hhead.trans (Took.char hcolon hfirst)).trans (Took.char hcolon hsecond)).trans
        (Took.groups _ _ _)

theorem parseIpv6_bytes {text : Bytes} {addr : Ipv6} (hparse : parseIpv6 text = some addr) :
    ∀ b ∈ text, isIpByte b = true := by
  unfold parseIpv6 at hparse
  split at hparse
  · rename_i hread
    obtain ⟨used, htext, hused⟩ := Took.ipv6 hread
    rw [htext, List.append_nil]
    exact hused
  · cases hparse

theorem parseIpv4_bytes {text : Bytes} {addr : Ipv4} (hparse : parseIpv4 text = some addr) :
    ∀ b ∈ text, isIpByte b = true := by
  unfold parseIpv4 at hparse
  split at hparse
  · cases hparse
  · split at hparse
    · rename_i hread
      obtain ⟨used, htext, hused⟩ := Took.ipv4 hread
      rw [htext, List.append_nil]
      exact hused
    · cases hparse

theorem ipv6_ne_nil {host : Bytes} (hv6 : (parseIpv6 host).isSome = true) : host ≠ [] := by
  rintro rfl
  exact absurd hv6 (by decide)

theorem ipv6_byte {host : Bytes} (hv6 : (parseIpv6 host).isSome = true) {b : UInt8}
    (hb : b ∈ host) : isIpByte b = true := by
  obtain ⟨addr, hparse⟩ := Option.isSome_iff_exists.mp hv6
  exact parseIpv6_bytes hparse b hb

theorem ipv6_no_bracket {host : Bytes} (hv6 : (parseIpv6 host).isSome = true) :
    host.head? ≠ some 0x5B := fun hhead =>
  absurd (ipv6_byte hv6 (List.mem_of_mem_head? hhead)) (by decide)

namespace HostPort

theorem parse_format_ipv6 {host : Bytes} (hhost : (parseIpv6 host).isSome = true)
    (port : UInt16) : parse (format host port) = some ⟨host, port⟩ := by
  have hbracket : (0x5D : UInt8) ∉ host := fun hmem =>
    absurd (ipv6_byte hhost hmem) (by decide)
  have hparse := Option.isSome_iff_ne_none.mp hhost
  rw [format, if_pos hhost, List.cons_append, parse, splitOnce_append hbracket]
  simp [hparse, readGivenChar, parseU16_render]

theorem parse_format_plain {host : Bytes} (hcolon : (0x3A : UInt8) ∉ host) (hne : host ≠ [])
    (hbracket : host.head? ≠ some 0x5B) (port : UInt16) :
    parse (host ++ 0x3A :: render 10 port.toNat) = some ⟨host, port⟩ := by
  have hport : (0x3A : UInt8) ∉ render 10 port.toNat := render_no_byte (by decide) _
  unfold parse
  split
  · rename_i rest heq
    cases host with
    | nil => exact absurd rfl hne
    | cons b host =>
        obtain ⟨rfl, _⟩ := List.cons.inj heq
        exact absurd rfl hbracket
  · rw [rsplitOnce_append hport]
    simp [hcolon, hne, parseU16_render]

theorem parse_ipv4 (addr : Ipv4) (port : UInt16) :
    parse (addr.display ++ 0x3A :: render 10 port.toNat) = some ⟨addr.display, port⟩ := by
  have hcolon : (0x3A : UInt8) ∉ addr.display := fun hmem =>
    absurd (addr.display_bytes _ hmem) (by decide)
  have hne : addr.display ≠ [] := by
    rw [Ipv4.display]
    simp
  refine parse_format_plain hcolon hne (fun hhead => ?_) port
  exact absurd (addr.display_bytes _ (List.mem_of_mem_head? hhead)) (by decide)

theorem parse_ipv6 (addr : Ipv6) (port : UInt16) :
    parse (0x5B :: addr.display ++ 0x5D :: 0x3A :: render 10 port.toNat) =
      some ⟨addr.display, port⟩ := by
  have hsome : (parseIpv6 addr.display).isSome = true := by
    rw [parseIpv6_display]
    rfl
  have hback := parse_format_ipv6 hsome port
  rwa [format, if_pos hsome] at hback

theorem parse_cases {text : Bytes} {pair : HostPort} (hparse : parse text = some pair) :
    (∃ port, text = 0x5B :: pair.host ++ 0x5D :: 0x3A :: port ∧
      (parseIpv6 pair.host).isSome = true ∧ parseU16 port = some pair.port) ∨
    (∃ port, text = pair.host ++ 0x3A :: port ∧ (0x3A : UInt8) ∉ port ∧ pair.host ≠ [] ∧
      pair.host.head? ≠ some 0x5B ∧
      ((0x3A : UInt8) ∈ pair.host → (parseIpv6 pair.host).isSome = true) ∧
      parseU16 port = some pair.port) := by
  unfold parse at hparse
  split at hparse
  · obtain ⟨⟨host, after⟩, hsplit, hrest⟩ := Option.bind_eq_some_iff.mp hparse
    obtain ⟨rfl, _⟩ := splitOnce_eq_some.mp hsplit
    dsimp only at hrest
    split at hrest
    · cases hrest
    · rename_i hsome
      obtain ⟨text, hcolon, htext⟩ := Option.bind_eq_some_iff.mp hrest
      obtain ⟨port, hport, rfl⟩ := Option.map_eq_some_iff.mp htext
      refine .inl ⟨text, ?_, by simpa [Option.isSome_iff_ne_none] using hsome, hport⟩
      unfold readGivenChar at hcolon
      split at hcolon
      · rename_i b rest
        split at hcolon
        · rename_i hb
          obtain rfl := Option.some.inj hcolon
          rw [hb]
          rfl
        · cases hcolon
      · cases hcolon
  · rename_i hopen
    obtain ⟨⟨host, tail⟩, hsplit, hrest⟩ := Option.bind_eq_some_iff.mp hparse
    obtain ⟨rfl, hclean⟩ := rsplitOnce_eq_some.mp hsplit
    have hbracket : host.head? ≠ some 0x5B := by
      intro hhead
      obtain ⟨rest, rfl⟩ := List.head?_eq_some_iff.mp hhead
      exact hopen _ rfl
    dsimp only at hrest
    split at hrest
    · rename_i hcolon
      split at hrest
      · cases hrest
      · rename_i hsome
        obtain ⟨port, hport, rfl⟩ := Option.map_eq_some_iff.mp hrest
        refine .inr ⟨tail, rfl, hclean, ?_, hbracket, fun _ => ?_, hport⟩
        · rintro (rfl : host = [])
          cases hcolon
        · simpa [Option.isSome_iff_ne_none] using hsome
    · rename_i hcolon
      split at hrest
      · cases hrest
      · rename_i hempty
        obtain ⟨port, hport, rfl⟩ := Option.map_eq_some_iff.mp hrest
        refine .inr ⟨tail, rfl, hclean, ?_, hbracket, fun hmem => ?_, hport⟩
        · simpa using hempty
        · exact absurd (List.contains_iff_mem.mpr hmem) hcolon

theorem parse_infix {text : Bytes} {pair : HostPort} (hparse : parse text = some pair) :
    pair.host <:+: text := by
  obtain ⟨port, hbracket, _⟩ | ⟨port, hplain, _⟩ := parse_cases hparse
  · rw [hbracket]
    exact ⟨[0x5B], 0x5D :: 0x3A :: port, rfl⟩
  · rw [hplain]
    exact (List.prefix_append pair.host _).isInfix

theorem parse_ne_nil {text : Bytes} {pair : HostPort} (hparse : parse text = some pair) :
    pair.host ≠ [] := by
  obtain ⟨_, _, hsome, _⟩ | ⟨_, _, _, hne, _⟩ := parse_cases hparse
  · intro hnil
    rw [hnil] at hsome
    exact absurd hsome (by decide)
  · exact hne

/-- An address, or a name that a length byte can count. -/
def Spellable (host : Bytes) : Prop :=
  host.length ≤ 255 ∨ (parseIpv4 host).isSome = true ∨ (parseIpv6 host).isSome = true

theorem parse_spellable {name : Bytes} (hlength : name.length ≤ 255) {n : Nat} {pair : HostPort}
    (hparse : parse (name ++ 0x3A :: render 10 n) = some pair) : Spellable pair.host := by
  obtain ⟨_, _, hsome, _⟩ | ⟨port, hplain, hport, _⟩ := parse_cases hparse
  · exact .inr (.inr hsome)
  · have hdigits : (0x3A : UInt8) ∉ render 10 n := render_no_byte (by decide) n
    have hsplit := congrArg (rsplitOnce 0x3A) hplain
    rw [rsplitOnce_append hdigits, rsplitOnce_append hport] at hsplit
    have hname : name = pair.host := congrArg Prod.fst (Option.some.inj hsplit)
    exact .inl (hname ▸ hlength)

end HostPort

end Resocks5.Net
