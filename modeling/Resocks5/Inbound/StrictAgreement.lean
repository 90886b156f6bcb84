import Resocks5.Inbound.HttpWritten

namespace Resocks5.Inbound

open Resocks5.Foundation
open Resocks5.Net

/-! The strict validation takes the request that the HTTP client writes. -/

namespace StrictHttp

theorem words_last {word : Bytes} (hword : (0x20 : UInt8) ∉ word) : words word = [word] := by
  induction word with
  | nil => rfl
  | cons b word ih =>
      obtain ⟨hne, hrest⟩ := not_or.mp (List.mem_cons.not.mp hword)
      rw [words, if_neg (Ne.symm hne), ih hrest]

theorem words_append {word : Bytes} (hword : (0x20 : UInt8) ∉ word) (rest : Bytes) :
    words (word ++ 0x20 :: rest) = word :: words rest := by
  induction word with
  | nil => rw [List.nil_append, words, if_pos rfl]
  | cons b word ih =>
      obtain ⟨hne, hrest⟩ := not_or.mp (List.mem_cons.not.mp hword)
      rw [List.cons_append, words, if_neg (Ne.symm hne), ih hrest]

theorem words_requestLine {target : Bytes} (hspace : (0x20 : UInt8) ∉ target) :
    words (requestLine target) = [lit "CONNECT", target, lit "HTTP/1.1"] := by
  have hline : requestLine target =
      lit "CONNECT" ++ 0x20 :: (target ++ 0x20 :: lit "HTTP/1.1") := by
    rw [requestLine, List.append_assoc]
    rfl
  rw [hline, words_append (by decide), words_append hspace, words_last (by decide)]

/-- Hosts of the strict grammar, without escapes. -/
def IsStrictHost (host : Bytes) : Prop :=
  (parseIpv4 host).isSome = true ∨ (parseIpv6 host).isSome = true ∨
    ∀ b ∈ host, isAuthorityHostByte b = true

theorem validAuthorityHost_of_bytes {host : Bytes}
    (hhost : ∀ b ∈ host, isAuthorityHostByte b = true) : validAuthorityHost host = true := by
  induction host with
  | nil => rfl
  | cons b host ih =>
      have hb := hhost b List.mem_cons_self
      have hrest := ih fun c hc => hhost c (List.mem_cons_of_mem b hc)
      have hpercent : b ≠ 0x25 := by
        rintro rfl
        revert hb
        decide
      unfold validAuthorityHost
      split
      · rename_i heq
        cases heq
      · rename_i heq
        obtain ⟨rfl, _⟩ := List.cons.inj heq
        exact absurd rfl hpercent
      · rename_i heq
        obtain ⟨rfl, rfl⟩ := List.cons.inj heq
        rw [hb, hrest]
        rfl

theorem render_port (port : UInt16) :
    (render 10 port.toNat).isEmpty = false ∧ (render 10 port.toNat).length ≤ 5 ∧
      (render 10 port.toNat).all isAsciiDigit = true := by
  refine ⟨by simpa using render_ne_nil 10 port.toNat, ?_, ?_⟩
  · have hlt := port.toNat_lt
    exact render_length (by omega) (by omega) (by omega)
  · exact List.all_eq_true.mpr fun b hb =>
      isDigit_decimal b ▸ render_digits (by omega) (by omega) _ b hb

theorem validPortDigits_render (port : UInt16) :
    validPortDigits (render 10 port.toNat) = true := by
  obtain ⟨hne, hlength, hdigits⟩ := render_port port
  simp [validPortDigits, hne, hlength, hdigits]

theorem checkPort_render {port : UInt16} (hport : port ≠ 0) :
    checkPort (render 10 port.toNat) = .ok () := by
  obtain ⟨hne, hlength, hdigits⟩ := render_port port
  have hpos : 1 ≤ port.toNat := by
    refine Nat.one_le_iff_ne_zero.mpr fun hzero => hport ?_
    exact UInt16.toNat_inj.mp hzero
  have hlt := port.toNat_lt
  rw [checkPort, if_neg (by simp [hne, hdigits, hlength]), numeralValue_render (by omega) (by omega)]
  exact if_pos ⟨hpos, by omega⟩

theorem not_bracketed {host : Bytes} (hbracket : host.head? ≠ some 0x5B) (tail rest : Bytes) :
    host ++ 0x3A :: tail ≠ 0x5B :: rest := by
  intro heq
  cases host with
  | nil => exact absurd (List.cons.inj heq).1 (by decide)
  | cons b host => exact hbracket (congrArg some (List.cons.inj heq).1)

theorem plain_host {host : Bytes} {port : UInt16} (hbracket : host.head? ≠ some 0x5B)
    (hv6 : parseIpv6 host = none)
    (hparse : (HostPort.parse (host ++ 0x3A :: render 10 port.toNat)).isSome = true) :
    host ≠ [] ∧ (0x3A : UInt8) ∉ host := by
  have hport : (0x3A : UInt8) ∉ render 10 port.toNat := render_no_byte (by decide) _
  unfold HostPort.parse at hparse
  split at hparse
  · rename_i rest heq
    exact absurd heq (not_bracketed hbracket _ rest)
  · rw [rsplitOnce_append hport, Option.bind_some] at hparse
    by_cases hcolon : (0x3A : UInt8) ∈ host
    · simp [hcolon, hv6] at hparse
    · refine ⟨fun hnil => ?_, hcolon⟩
      simp [hnil] at hparse

theorem IsStrictHost.cases {host : Bytes} {port : UInt16} (hhost : IsStrictHost host)
    (hparse : (HostPort.parse (HostPort.format host port)).isSome = true) :
    (∃ addr, parseIpv6 host = some addr ∧ (0x5D : UInt8) ∉ host ∧
      HostPort.format host port = 0x5B :: (host ++ 0x5D :: 0x3A :: render 10 port.toNat)) ∨
    (host ≠ [] ∧ (0x3A : UInt8) ∉ host ∧ host.head? ≠ some 0x5B ∧
      validAuthorityHost host = true ∧
      HostPort.format host port = host ++ 0x3A :: render 10 port.toNat) := by
  cases hv6 : parseIpv6 host with
  | some addr =>
      refine .inl ⟨addr, rfl, fun hmem => ?_, ?_⟩
      · exact absurd (parseIpv6_bytes hv6 _ hmem) (by decide)
      · rw [HostPort.format, if_pos (by simp [hv6])]
        rfl
  | none =>
      have hformat : HostPort.format host port = host ++ 0x3A :: render 10 port.toNat :=
        if_neg (by simp [hv6])
      rw [hformat] at hparse
      have hbytes : (∀ b ∈ host, isIpByte b = true) ∨
          ∀ b ∈ host, isAuthorityHostByte b = true := by
        obtain hv4 | hsome | hbytes := hhost
        · obtain ⟨addr, hv4⟩ := Option.isSome_iff_exists.mp hv4
          exact .inl (parseIpv4_bytes hv4)
        · rw [hv6] at hsome
          cases hsome
        · exact .inr hbytes
      have hbracket : host.head? ≠ some 0x5B := by
        intro hhead
        have hmem := List.mem_of_mem_head? hhead
        obtain hbytes | hbytes := hbytes
        · exact absurd (hbytes _ hmem) (by decide)
        · exact absurd (hbytes _ hmem) (by decide)
      obtain ⟨hne, hcolon⟩ := plain_host hbracket hv6 hparse
      refine .inr ⟨hne, hcolon, hbracket, validAuthorityHost_of_bytes fun b hb => ?_, hformat⟩
      obtain hbytes | hbytes := hbytes
      · have hall : ∀ b : UInt8, isIpByte b = true → b ≠ 0x3A → isAuthorityHostByte b = true :=
          allBytes (by decide +kernel)
        exact hall b (hbytes b hb) fun heq => hcolon (heq ▸ hb)
      · exact hbytes b hb

theorem authorityPort_format {host : Bytes} {port : UInt16} (hhost : IsStrictHost host)
    (hparse : (HostPort.parse (HostPort.format host port)).isSome = true) :
    authorityPort (HostPort.format host port) = .ok (render 10 port.toNat) := by
  obtain ⟨addr, hv6, hbracket, hformat⟩ | ⟨hne, hcolon, hbracket, hvalid, hformat⟩ :=
    hhost.cases hparse
  · rw [hformat, authorityPort, splitOnce_append hbracket]
    simp [hv6]
  · have hport : (0x3A : UInt8) ∉ render 10 port.toNat := render_no_byte (by decide) _
    rw [hformat]
    unfold authorityPort
    split
    · rename_i rest heq
      exact absurd heq (not_bracketed hbracket _ rest)
    · rw [rsplitOnce_append hport]
      simp [hne, hcolon, hvalid]

theorem validHostValue_format {host : Bytes} {port : UInt16} (hhost : IsStrictHost host)
    (hparse : (HostPort.parse (HostPort.format host port)).isSome = true) :
    validHostValue (HostPort.format host port) = true := by
  obtain ⟨addr, hv6, hbracket, hformat⟩ | ⟨hne, hcolon, hbracket, hvalid, hformat⟩ :=
    hhost.cases hparse
  · rw [hformat, validHostValue, splitOnce_append hbracket]
    simp [hv6, validPortDigits_render]
  · rw [hformat]
    unfold validHostValue
    split
    · rename_i rest heq
      exact absurd heq (not_bracketed hbracket _ rest)
    · rw [splitOnce_append hcolon]
      simp [hne, hvalid, validPortDigits_render]

/-! The headers. -/

theorem checkHeader_field {name value : Bytes} {seen : Seen} (hne : name ≠ [])
    (hname : ∀ b ∈ name, isTchar b = true) (hcolon : (0x3A : UInt8) ∉ name)
    (hvalue : ∀ b ∈ value, isAsciiControl b = false) :
    checkHeader (name ++ 0x3A :: value) seen =
      if name.map toAsciiLower = lit "host" then
        .ok { seen with hostCount := seen.hostCount + 1, hostValue := some (trimAscii value) }
      else if name.map toAsciiLower = lit "proxy-authorization" then
        .ok { seen with proxyAuthCount := seen.proxyAuthCount + 1 }
      else .ok seen := by
  have hblank : ∀ b : UInt8, b = 0x20 ∨ b = 0x09 → b ∉ name := by
    rintro b (rfl | rfl) hmem
    · exact absurd (hname _ hmem) (by decide)
    · exact absurd (hname _ hmem) (by decide)
  have hfold : ¬ ((name ++ 0x3A :: value).head? = some 0x20 ∨
      (name ++ 0x3A :: value).head? = some 0x09) := by
    rw [List.head?_append_of_ne_nil _ hne]
    rintro (hhead | hhead)
    · exact hblank _ (.inl rfl) (List.mem_of_mem_head? hhead)
    · exact hblank _ (.inr rfl) (List.mem_of_mem_head? hhead)
  have hlast : ¬ (name.getLast? = some 0x20 ∨ name.getLast? = some 0x09) := by
    rintro (hlast | hlast)
    · exact hblank _ (.inl rfl) (List.mem_of_mem_getLast? hlast)
    · exact hblank _ (.inr rfl) (List.mem_of_mem_getLast? hlast)
  have hcontrol : (value.any fun b => (b < 0x20 && b != 0x09) || b == 0x7F) = false := by
    refine List.any_eq_false.mpr fun b hb => ?_
    have hclean := hvalue b hb
    rw [isAsciiControl, Bool.or_eq_false_iff] at hclean
    simp [hclean.1, hclean.2]
  have htchar : name.all isTchar = true := List.all_eq_true.mpr hname
  have hempty : name.isEmpty = false := by simpa using hne
  rw [checkHeader, if_neg hfold, splitOnce_append hcolon]
  simp only [hempty, hlast, htchar, hcontrol, Bool.false_eq_true, if_false, Bool.not_true]

theorem clean_not_control {text : Bytes} (hclean : ∀ b ∈ text, isUnprintable b = false) :
    ∀ b ∈ text, isAsciiControl b = false := fun b hb =>
  (Bool.or_eq_false_iff.mp (hclean b hb)).1

theorem checkHeader_host {target : Bytes} (hclean : ∀ b ∈ target, isUnprintable b = false)
    (seen : Seen) :
    checkHeader (hostLine target) seen =
      .ok { seen with hostCount := seen.hostCount + 1, hostValue := some target } := by
  have hvalue : ∀ b ∈ (0x20 :: target : Bytes), isAsciiControl b = false := by
    intro b hb
    obtain rfl | hb := List.mem_cons.mp hb
    · decide
    · exact clean_not_control hclean b hb
  have hfield : checkHeader (lit "Host" ++ 0x3A :: 0x20 :: target) seen = _ :=
    checkHeader_field (by decide) (by decide +kernel) (by decide) hvalue
  have hline : hostLine target = lit "Host" ++ 0x3A :: 0x20 :: target := rfl
  rw [hline, hfield, if_pos (by decide), trimAscii_space, trimAscii_clean hclean]

theorem checkHeader_basic (base64 : Base64) (user password : Bytes) (seen : Seen) :
    checkHeader (basicLine base64 user password) seen =
      .ok { seen with proxyAuthCount := seen.proxyAuthCount + 1 } := by
  have hvalue : ∀ b ∈ lit " Basic " ++ base64.encode (user ++ 0x3A :: password),
      isAsciiControl b = false := by
    intro b hb
    obtain hb | hb := List.mem_append.mp hb
    · have hlit : ∀ b ∈ lit " Basic ", isAsciiControl b = false := by decide +kernel
      exact hlit b hb
    · exact clean_not_control (encode_clean base64 _) b hb
  have hfield : checkHeader (lit "Proxy-Authorization" ++
      0x3A :: (lit " Basic " ++ base64.encode (user ++ 0x3A :: password))) seen = _ :=
    checkHeader_field (by decide) (by decide +kernel) (by decide) hvalue
  have hline : basicLine base64 user password = lit "Proxy-Authorization" ++
      0x3A :: (lit " Basic " ++ base64.encode (user ++ 0x3A :: password)) := rfl
  rw [hline, hfield, if_neg (by decide), if_pos (by decide)]

theorem checkHeaders_request {target : Bytes} (hclean : ∀ b ∈ target, isUnprintable b = false)
    (base64 : Base64) (credentials : Option (Bytes × Bytes)) :
    checkHeaders (headerLines base64 target credentials) ⟨0, none, 0⟩ =
      .ok ⟨1, some target, if credentials.isSome then 1 else 0⟩ := by
  rw [headerLines, checkHeaders, checkHeader_host hclean]
  cases credentials with
  | none => rfl
  | some pair =>
      show checkHeaders [basicLine base64 pair.1 pair.2] ⟨1, some target, 0⟩ = _
      rw [checkHeaders, checkHeader_basic]
      rfl

theorem validate_request {host : Bytes} {port : UInt16} (hport : port ≠ 0)
    (hhost : IsStrictHost host)
    (hutf8 : isUtf8 (HostPort.format host port) = true)
    (hclean : ∀ b ∈ HostPort.format host port, isUnprintable b = false)
    (hparse : (HostPort.parse (HostPort.format host port)).isSome = true) (base64 : Base64)
    (credentials : Option (Bytes × Bytes)) :
    validate (requestLine (HostPort.format host port))
      (headerLines base64 (HostPort.format host port) credentials) = .ok () := by
  have hauthority := authorityPort_format hhost hparse
  have hvalue := validHostValue_format hhost hparse
  generalize HostPort.format host port = target at *
  have hne : target ≠ [] := by
    rintro rfl
    cases hparse
  have hparts : ([lit "CONNECT", target, lit "HTTP/1.1"].any fun part =>
      part.isEmpty || part.any fun b => b == 0x09 || isAsciiControl b) = false := by
    have htarget : (target.any fun b => b == 0x09 || isAsciiControl b) = false := by
      refine List.any_eq_false.mpr fun b hb => ?_
      rw [clean_not_control hclean b hb, Bool.or_false, beq_iff_eq]
      exact clean_ne (hclean b hb) (by decide)
    have hmethod : ((lit "CONNECT").isEmpty ||
        (lit "CONNECT").any fun b => b == 0x09 || isAsciiControl b) = false := by decide
    have hversion : ((lit "HTTP/1.1").isEmpty ||
        (lit "HTTP/1.1").any fun b => b == 0x09 || isAsciiControl b) = false := by decide
    have hempty : target.isEmpty = false := by simpa using hne
    simp only [List.any_cons, List.any_nil, hmethod, hversion, htarget, hempty, Bool.or_self]
  have hversion : isMalformedVersion (lit "HTTP/1.1") = false := by decide
  have hsupported : ¬ (lit "HTTP/1.1" ≠ lit "HTTP/1.0" ∧ lit "HTTP/1.1" ≠ lit "HTTP/1.1") := by
    simp
  rw [validate, words_requestLine (not_mem_clean hclean (by decide))]
  dsimp only
  rw [hparts, if_neg Bool.false_ne_true, hversion, if_neg Bool.false_ne_true, if_neg hsupported,
    hauthority]
  show (checkPort (render 10 port.toNat)).bind _ = _
  rw [checkPort_render hport]
  show (checkHeaders _ _).bind _ = _
  rw [checkHeaders_request hclean]
  show checkSeen _ _ = _
  have hcount : ¬ 1 < if credentials.isSome then 1 else 0 := by
    split <;> omega
  simp [checkSeen, hne, hutf8, hvalue, hcount]

end StrictHttp

end Resocks5.Inbound
