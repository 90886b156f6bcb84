import Resocks5.Foundation.Text
import Resocks5.Net.HostPort
import Resocks5.Types.ProxyConfig

namespace Resocks5.Net

open Resocks5.Foundation
open Resocks5.Types

/-! The lines of a list of upstreams: gate markers, credentials, host and port. -/

inductive ParseProxyError where
  | empty
  | comment
  | badHostPort
  | badGate
  deriving DecidableEq, Repr

/-- An entry with its own gate flag, written apart from its level. -/
structure Listed where
  config : ProxyConfig
  isGate : Bool
  deriving DecidableEq, Repr

/-- Brackets around the whole host are not stored. -/
def stripBrackets (host : Bytes) : Bytes :=
  if 2 ≤ host.length && host.head? == some 0x5B && host.getLast? == some 0x5D then
    host.dropLast.tail
  else host

/-- `ProxyConfig::new`: neither credentials nor gate. -/
def Listed.new (protocol : ProxyProtocol) (host : Bytes) (port : UInt16) : Listed where
  config := ⟨⟨protocol, stripBrackets host, port, none, none, 0⟩, []⟩
  isGate := false

/-- What stands before the only `@`, and the rest. -/
def splitCreds (text : Bytes) : Except ParseProxyError (Option Bytes × Bytes) :=
  match splitOnce 0x40 text with
  | some (creds, rest) =>
    if rest.contains 0x40 then .error .badHostPort else .ok (some creds, rest)
  | none => .ok (none, text)

/-- The password may hold a colon, the user may not. -/
def splitUser : Option Bytes → Except ParseProxyError (Option Bytes × Option Bytes)
  | some creds =>
    match splitOnce 0x3A creds with
    | some (user, password) => .ok (some user, some password)
    | none => .error .badHostPort
  | none => .ok (none, none)

def parseMarked (gateLevel : UInt8) (text : Bytes) (protocol : ProxyProtocol) :
    Except ParseProxyError Listed := do
  let (creds, hostPort) ← splitCreds text
  let (user, password) ← splitUser creds
  match HostPort.parse hostPort with
  | none => .error .badHostPort
  | some ⟨host, port⟩ =>
    let fresh := Listed.new protocol host port
    .ok { config := ⟨{ fresh.config.node with user, password, gateLevel }, fresh.config.gate⟩
          isGate := decide (0 < gateLevel) }

def parseProxyStr (connStr : Bytes) (protocol : ProxyProtocol) : Except ParseProxyError Listed :=
  if (trim connStr).isEmpty then .error .empty
  else if connStr.head? = some 0x23 then .error .comment
  else
    let markerCount := (connStr.takeWhile (· == 0x2A)).length
    if 255 < markerCount then .error .badGate
    else
      let rest := connStr.drop markerCount
      if 0 < markerCount && rest.isEmpty then .error .badGate
      else parseMarked markerCount.toUInt8 rest protocol

/-! How such a line is written. -/

def credsPart : Option (Bytes × Bytes) → Bytes
  | some (user, password) => user ++ 0x3A :: password ++ [0x40]
  | none => []

def proxyLine (level : UInt8) (creds : Option (Bytes × Bytes)) (host : Bytes) (port : UInt16) :
    Bytes :=
  List.replicate level.toNat 0x2A ++ (credsPart creds ++ HostPort.format host port)

/-- What would be taken for markers or for a comment. -/
def Misread (level : UInt8) (text : Bytes) : Prop :=
  text.head? = some 0x2A ∨ (level = 0 ∧ text.head? = some 0x23)

/-- Fields that keep clear of each other's separators. -/
structure Writable (level : UInt8) (creds : Option (Bytes × Bytes)) (host : Bytes)
    (port : UInt16) : Prop where
  user : ∀ user password, creds = some (user, password) →
    (0x3A : UInt8) ∉ user ∧ (0x40 : UInt8) ∉ user ∧ ¬ Misread level user
  password : ∀ user password, creds = some (user, password) → (0x40 : UInt8) ∉ password
  target : (0x40 : UInt8) ∉ host
  bare : creds = none → ¬ Misread level host
  pair : HostPort.parse (HostPort.format host port) = some ⟨host, port⟩

theorem stripBrackets_id {host : Bytes} (hhost : host.head? ≠ some 0x5B) :
    stripBrackets host = host := by
  rw [stripBrackets, if_neg]
  simp [hhost]

theorem parse_unbracketed {text : Bytes} {pair : HostPort}
    (hparse : HostPort.parse text = some pair) : pair.host.head? ≠ some 0x5B := by
  obtain ⟨_, _, hv6, _⟩ | ⟨_, _, _, _, hbracket, _⟩ := HostPort.parse_cases hparse
  · exact ipv6_no_bracket hv6
  · exact hbracket

theorem format_no_at {host : Bytes} (hhost : (0x40 : UInt8) ∉ host) (port : UInt16) :
    (0x40 : UInt8) ∉ HostPort.format host port := by
  have hport : (0x40 : UInt8) ∉ render 10 port.toNat := render_no_byte (by decide) _
  unfold HostPort.format
  split <;> simp [hhost, hport]

theorem colon_mem_format (host : Bytes) (port : UInt16) :
    (0x3A : UInt8) ∈ HostPort.format host port := by
  unfold HostPort.format
  split <;> simp

theorem format_head {host : Bytes} {port : UInt16} (hne : host ≠ []) {b : UInt8}
    (hhead : (HostPort.format host port).head? = some b) : b = 0x5B ∨ host.head? = some b := by
  unfold HostPort.format at hhead
  split at hhead
  · exact .inl (Option.some.inj hhead).symm
  · rw [List.head?_append_of_ne_nil _ hne] at hhead
    exact .inr hhead

namespace Writable

variable {level : UInt8} {creds : Option (Bytes × Bytes)} {host : Bytes} {port : UInt16}

theorem splitCreds_line (hline : Writable level creds host port) :
    splitCreds (credsPart creds ++ HostPort.format host port) =
      .ok (creds.map fun (user, password) => user ++ 0x3A :: password,
        HostPort.format host port) := by
  have hhost := format_no_at hline.target port
  cases creds with
  | none =>
      rw [credsPart, List.nil_append, splitCreds, splitOnce_eq_none.mpr hhost]
      rfl
  | some creds =>
      obtain ⟨user, password⟩ := creds
      obtain ⟨_, huser, _⟩ := hline.user user password rfl
      have hcreds : (0x40 : UInt8) ∉ user ++ 0x3A :: password := by
        simp [huser, hline.password user password rfl]
      have hsplit := splitOnce_append hcreds (HostPort.format host port)
      rw [credsPart, List.append_assoc, List.singleton_append, splitCreds, hsplit]
      simp [hhost]

theorem splitUser_line (hline : Writable level creds host port) :
    splitUser (creds.map fun (user, password) => user ++ 0x3A :: password) =
      .ok (creds.map (·.1), creds.map (·.2)) := by
  cases creds with
  | none => rfl
  | some creds =>
      obtain ⟨user, password⟩ := creds
      obtain ⟨hcolon, _⟩ := hline.user user password rfl
      simp [splitUser, splitOnce_append hcolon]

theorem parseMarked_line (hline : Writable level creds host port) (protocol : ProxyProtocol) :
    parseMarked level (credsPart creds ++ HostPort.format host port) protocol =
      .ok ⟨⟨⟨protocol, host, port, creds.map (·.1), creds.map (·.2), level⟩, []⟩,
        decide (0 < level)⟩ := by
  have hhost : stripBrackets host = host := stripBrackets_id (parse_unbracketed hline.pair)
  rw [parseMarked, hline.splitCreds_line]
  simp [bind, Except.bind, hline.splitUser_line, hline.pair, Listed.new, hhost]

theorem target_head (hline : Writable level creds host port) :
    ¬ Misread level (credsPart creds ++ HostPort.format host port) := by
  cases creds with
  | none =>
      have hclear := hline.bare rfl
      have hhead {b : UInt8} (hb : (HostPort.format host port).head? = some b) :
          b = 0x5B ∨ host.head? = some b := format_head (HostPort.parse_ne_nil hline.pair) hb
      rintro (hstar | ⟨hlevel, hhash⟩)
      · obtain hopen | hhost := hhead hstar
        · exact absurd hopen (by decide)
        · exact hclear (.inl hhost)
      · obtain hopen | hhost := hhead hhash
        · exact absurd hopen (by decide)
        · exact hclear (.inr ⟨hlevel, hhost⟩)
  | some creds =>
      obtain ⟨user, password⟩ := creds
      obtain ⟨_, _, hclear⟩ := hline.user user password rfl
      cases user with
      | nil => simp [Misread, credsPart]
      | cons b user => exact hclear

theorem parseProxyStr_line (hline : Writable level creds host port) (protocol : ProxyProtocol) :
    parseProxyStr (proxyLine level creds host port) protocol =
      .ok ⟨⟨⟨protocol, host, port, creds.map (·.1), creds.map (·.2), level⟩, []⟩,
        decide (0 < level)⟩ := by
  have hcolon := colon_mem_format host port
  have hmarked := hline.parseMarked_line protocol
  have hclear := hline.target_head
  have hrest : (0x3A : UInt8) ∈ credsPart creds ++ HostPort.format host port :=
    List.mem_append_right _ hcolon
  rw [proxyLine]
  generalize credsPart creds ++ HostPort.format host port = target at *
  have htrim : (0x3A : UInt8) ∈ trim (List.replicate level.toNat 0x2A ++ target) :=
    mem_trim (by decide) (List.mem_append_right _ hrest)
  have hmarkers : (List.replicate level.toNat 0x2A ++ target).takeWhile (· == 0x2A) =
      List.replicate level.toNat 0x2A := by
    rw [List.takeWhile_append_of_pos (by simp)]
    cases target with
    | nil => simp
    | cons b target =>
        have hb : b ≠ 0x2A := fun hb => hclear (.inl (congrArg some hb))
        rw [List.takeWhile_cons_of_neg (by simpa using hb), List.append_nil]
  have hcomment : (List.replicate level.toNat 0x2A ++ target).head? ≠ some 0x23 := by
    intro hhash
    cases hcount : level.toNat with
    | zero =>
        rw [hcount] at hhash
        exact hclear (.inr ⟨UInt8.toNat_inj.mp hcount, hhash⟩)
    | succ n =>
        rw [hcount] at hhash
        exact absurd (Option.some.inj hhash) (by decide)
  have hlt := level.toNat_lt
  have hdrop : (List.replicate level.toNat 0x2A ++ target).drop level.toNat = target :=
    List.drop_left' List.length_replicate
  rw [parseProxyStr, if_neg, if_neg hcomment]
  · simp only [hmarkers, List.length_replicate, hdrop]
    rw [if_neg (by omega), if_neg]
    · rwa [show level.toNat.toUInt8 = level from UInt8.ofNat_toNat]
    · intro hempty
      obtain ⟨_, hempty⟩ := Bool.and_eq_true_iff.mp hempty
      rw [List.isEmpty_iff.mp hempty] at hrest
      cases hrest
  · intro hempty
    rw [List.isEmpty_iff.mp hempty] at htrim
    cases htrim

end Writable

theorem parseProxyStr_markers {line : Bytes} (hmany : 255 < (line.takeWhile (· == 0x2A)).length)
    (protocol : ProxyProtocol) : parseProxyStr line protocol = .error .badGate := by
  cases line with
  | nil => cases hmany
  | cons b rest =>
      have hb : b = 0x2A := by
        by_contra hb
        rw [List.takeWhile_cons_of_neg (by simpa using hb)] at hmany
        cases hmany
      have htrim : (0x2A : UInt8) ∈ trim (b :: rest) :=
        mem_trim (by decide) (hb ▸ List.mem_cons_self)
      rw [parseProxyStr, if_neg, if_neg, if_pos hmany]
      · rw [List.head?_cons, hb]
        decide
      · intro hempty
        rw [List.isEmpty_iff.mp hempty] at htrim
        cases htrim

theorem proxy_line_inverse :
    (∀ {level creds host port}, Writable level creds host port → ∀ protocol,
      parseProxyStr (proxyLine level creds host port) protocol =
        .ok ⟨⟨⟨protocol, host, port, creds.map (·.1), creds.map (·.2), level⟩, []⟩,
          decide (0 < level)⟩) ∧
    ∀ {line}, 255 < (line.takeWhile (· == 0x2A)).length → ∀ protocol,
      parseProxyStr line protocol = .error .badGate :=
  ⟨Writable.parseProxyStr_line, parseProxyStr_markers⟩

theorem proxy_line_inverse_gated :
    parseProxyStr (proxyLine 2 (some (lit "u", lit "p:q")) (lit "::1") 1080) .http =
      .ok ⟨⟨⟨.http, lit "::1", 1080, some (lit "u"), some (lit "p:q"), 2⟩, []⟩, true⟩ := by
  have hline : Writable 2 (some (lit "u", lit "p:q")) (lit "::1") 1080 := by
    refine ⟨?_, ?_, by decide, nofun, by decide +kernel⟩
    · rintro user password hcreds
      obtain ⟨rfl, rfl⟩ := Prod.mk.inj (Option.some.inj hcreds)
      exact ⟨by decide, by decide, by simp [Misread, lit]⟩
    · rintro user password hcreds
      obtain ⟨rfl, rfl⟩ := Prod.mk.inj (Option.some.inj hcreds)
      decide
  exact proxy_line_inverse.1 hline .http

end Resocks5.Net
