import Resocks5.Net.HostPort

namespace Resocks5.Net

open Resocks5.Foundation

/-! The texts that are a host and a port. -/

def IsPort (text : Bytes) (port : UInt16) : Prop :=
  text ≠ [] ∧ (∀ b ∈ text, isAsciiDigit b = true) ∧ numeralValue 10 text = port.toNat

/-- What stands in front of the colon of the port: an IPv6 literal in brackets, one without them,
or a name. -/
inductive HostForm : Bytes → Bytes → Prop
  | bracketed {host : Bytes} (hv6 : (parseIpv6 host).isSome = true) :
      HostForm (0x5B :: host ++ [0x5D]) host
  | bare {host : Bytes} (hv6 : (parseIpv6 host).isSome = true) : HostForm host host
  | name {host : Bytes} (hne : host ≠ []) (hcolon : (0x3A : UInt8) ∉ host)
      (hbracket : host.head? ≠ some 0x5B) : HostForm host host

namespace HostPort

/-- A host, a colon and a port. -/
inductive Spelled (port : Bytes → UInt16 → Prop) : Bytes → HostPort → Prop
  | mk {front text host : Bytes} {p : UInt16} (hhost : HostForm front host)
      (hport : port text p) : Spelled port (front ++ 0x3A :: text) ⟨host, p⟩

abbrev Grammar : Bytes → HostPort → Prop := Spelled IsPort

/-- A `+` is all that is wrong with the port. -/
def SignedPort (text : Bytes) : Prop :=
  ∃ front digits, text = front ++ 0x3A :: 0x2B :: digits ∧ (∀ b ∈ digits, isAsciiDigit b = true) ∧
    ∃ pair, Grammar (front ++ 0x3A :: digits) pair

end HostPort

theorem IsPort.no_colon {text : Bytes} {port : UInt16} (hport : IsPort text port) :
    (0x3A : UInt8) ∉ text := fun hmem =>
  absurd (hport.2.1 _ hmem) (by decide)

theorem IsPort.no_plus {text : Bytes} {port : UInt16} (hport : IsPort text port) :
    (0x2B : UInt8) ∉ text := fun hmem =>
  absurd (hport.2.1 _ hmem) (by decide)

theorem parseU16_digits {digits : Bytes} {port : UInt16} :
    (if digits.isEmpty || !digits.all (isDigit 10) then none
      else if numeralValue 10 digits ≤ 65535 then some (numeralValue 10 digits).toUInt16
        else none) = some port ↔ IsPort digits port := by
  have hlt := port.toNat_lt
  simp only [IsPort, ← isDigit_decimal]
  constructor
  · intro hparse
    split at hparse
    · cases hparse
    · rename_i hshape
      split at hparse
      · rename_i hvalue
        obtain rfl := Option.some.inj hparse
        refine ⟨?_, ?_, ?_⟩
        · rintro rfl
          exact hshape rfl
        · have hall : ¬ digits = [] ∧ ∀ b ∈ digits, isDigit 10 b = true := by simpa using hshape
          exact hall.2
        · simp [Nat.mod_eq_of_lt (show numeralValue 10 digits < 65536 by omega)]
      · cases hparse
  · rintro ⟨hne, hdigits, hvalue⟩
    rw [if_neg, if_pos (by omega), hvalue]
    · simp
    · simpa [hne] using hdigits

theorem parseU16_eq_some {text : Bytes} {port : UInt16} :
    parseU16 text = some port ↔
      IsPort text port ∨ ∃ digits, text = 0x2B :: digits ∧ IsPort digits port := by
  unfold parseU16
  dsimp only
  split
  · rename_i digits
    rw [parseU16_digits]
    constructor
    · intro hport
      exact .inr ⟨digits, rfl, hport⟩
    · rintro (hport | ⟨_, heq, hport⟩)
      · exact absurd List.mem_cons_self hport.no_plus
      · obtain ⟨_, rfl⟩ := List.cons.inj heq
        exact hport
  · rename_i hplain
    rw [parseU16_digits]
    constructor
    · exact .inl
    · rintro (hport | ⟨digits, rfl, _⟩)
      · exact hport
      · exact absurd rfl (hplain digits)

theorem parseU16_no_colon {text : Bytes} {port : UInt16} (hport : parseU16 text = some port) :
    (0x3A : UInt8) ∉ text := by
  obtain hdigits | ⟨digits, rfl, hdigits⟩ := parseU16_eq_some.mp hport
  · exact hdigits.no_colon
  · simpa using hdigits.no_colon

namespace HostPort

theorem parse_iff {text : Bytes} {pair : HostPort} :
    parse text = some pair ↔ Spelled (fun port p => parseU16 port = some p) text pair := by
  constructor
  · intro hparse
    obtain ⟨port, rfl, hv6, hport⟩ | ⟨port, rfl, _, hne, hbracket, hv6, hport⟩ :=
      parse_cases hparse
    · have hspelled : Spelled (fun port p => parseU16 port = some p)
          ((0x5B :: pair.host ++ [0x5D]) ++ 0x3A :: port) ⟨pair.host, pair.port⟩ :=
        .mk (.bracketed hv6) hport
      simpa using hspelled
    · by_cases hcolon : (0x3A : UInt8) ∈ pair.host
      · exact .mk (.bare (hv6 hcolon)) hport
      · exact .mk (.name hne hcolon hbracket) hport
  · intro hspelled
    cases hspelled with
    | @mk front port host p hhost hport =>
        cases hhost with
        | bracketed hv6 =>
            have hbracket : (0x5D : UInt8) ∉ host := fun hmem =>
              absurd (ipv6_byte hv6 hmem) (by decide)
            have hhost := Option.isSome_iff_ne_none.mp hv6
            simp [parse, splitOnce_append hbracket, readGivenChar, hhost, hport]
        | bare hv6 =>
            rw [parse, rsplitOnce_append (parseU16_no_colon hport)]
            · have hhost := Option.isSome_iff_ne_none.mp hv6
              simp [hhost, hport, ipv6_ne_nil hv6]
            · intro rest heq
              refine ipv6_no_bracket hv6 ?_
              rw [← List.head?_append_of_ne_nil _ (ipv6_ne_nil hv6), heq]
              rfl
        | name hne hcolon hbracket =>
            rw [parse, rsplitOnce_append (parseU16_no_colon hport)]
            · simp [hcolon, hne, hport]
            · intro rest heq
              refine hbracket ?_
              rw [← List.head?_append_of_ne_nil _ hne, heq]
              rfl

/-- Formatting a parsed pair and parsing it again gives the pair. -/
theorem parse_format {text : Bytes} {pair : HostPort} (hparse : parse text = some pair) :
    parse (format pair.host pair.port) = some pair := by
  by_cases hv6 : (parseIpv6 pair.host).isSome = true
  · exact parse_format_ipv6 hv6 pair.port
  · obtain ⟨_, _, hhost, _⟩ | ⟨_, _, _, hne, hbracket, hhost, _⟩ := parse_cases hparse
    · exact absurd hhost hv6
    · have hcolon : (0x3A : UInt8) ∉ pair.host := fun hmem => hv6 (hhost hmem)
      rw [format, if_neg hv6]
      exact parse_format_plain hcolon hne hbracket pair.port

theorem parse_format_bare : parse (format (lit "::1") 443) = some ⟨lit "::1", 443⟩ := by
  have hparse : parse (lit "::1:443") = some ⟨lit "::1", 443⟩ := by decide +kernel
  exact parse_format hparse

theorem Spelled.split {port : Bytes → UInt16 → Prop}
    (hport : ∀ {text p}, port text p → (0x3A : UInt8) ∉ text) {front text : Bytes}
    (htext : (0x3A : UInt8) ∉ text) {pair : HostPort}
    (hspelled : Spelled port (front ++ 0x3A :: text) pair) :
    HostForm front pair.host ∧ port text pair.port := by
  generalize hwhole : front ++ 0x3A :: text = whole at hspelled
  cases hspelled with
  | mk hhost hport' =>
      have hsame := congrArg (rsplitOnce 0x3A) hwhole
      rw [rsplitOnce_append htext, rsplitOnce_append (hport hport')] at hsame
      obtain ⟨rfl, rfl⟩ := Prod.mk.inj (Option.some.inj hsame)
      exact ⟨hhost, hport'⟩

theorem parse_grammar {text : Bytes} {pair : HostPort} (hgrammar : Grammar text pair) :
    parse text = some pair := by
  cases hgrammar with
  | mk hhost hport => exact parse_iff.mpr (.mk hhost (parseU16_eq_some.mpr (.inl hport)))

theorem grammar_or_signed {text : Bytes} {pair : HostPort} (hparse : parse text = some pair) :
    Grammar text pair ∨ SignedPort text := by
  cases parse_iff.mp hparse with
  | @mk front port _ _ hhost hport =>
      obtain hdigits | ⟨digits, rfl, hdigits⟩ := parseU16_eq_some.mp hport
      · exact .inl (.mk hhost hdigits)
      · exact .inr ⟨front, digits, rfl, hdigits.2.1, _, .mk hhost hdigits⟩

theorem signed_not_grammar {text : Bytes} (hsigned : SignedPort text) :
    ∃ pair, parse text = some pair ∧ ¬ Grammar text pair := by
  obtain ⟨front, digits, rfl, hdigits, pair, hgrammar⟩ := hsigned
  have hcolon : (0x3A : UInt8) ∉ digits := fun hmem => absurd (hdigits _ hmem) (by decide)
  obtain ⟨hhost, hport⟩ := hgrammar.split IsPort.no_colon hcolon
  refine ⟨pair, ?_, fun hwhole => ?_⟩
  · exact parse_iff.mpr (.mk hhost (parseU16_eq_some.mpr (.inr ⟨digits, rfl, hport⟩)))
  · obtain ⟨_, hplus⟩ := hwhole.split IsPort.no_colon (by simpa using hcolon)
    exact hplus.no_plus List.mem_cons_self

/-- The parser accepts the grammar and, beyond it, ports with a `+`. -/
theorem parse_iff_grammar (text : Bytes) :
    (∀ pair, parse text = some pair ↔ Grammar text pair) ↔ ¬ SignedPort text := by
  constructor
  · intro hexact hsigned
    obtain ⟨pair, hparse, hnot⟩ := signed_not_grammar hsigned
    exact hnot ((hexact pair).mp hparse)
  · intro hunsigned pair
    constructor
    · intro hparse
      exact (grammar_or_signed hparse).resolve_right hunsigned
    · exact parse_grammar

theorem parse_plus_port :
    parse (lit "h:+80") = some ⟨lit "h", 80⟩ ∧ ¬ Grammar (lit "h:+80") ⟨lit "h", 80⟩ := by
  constructor
  · decide +kernel
  · intro hgrammar
    have hsplit : lit "h:+80" = lit "h" ++ 0x3A :: lit "+80" := by decide
    rw [hsplit] at hgrammar
    obtain ⟨_, hport⟩ := hgrammar.split IsPort.no_colon (by decide)
    exact hport.no_plus (by decide)

end HostPort

end Resocks5.Net
