import Resocks5.Foundation.Bytes

namespace Resocks5.Foundation

/-! Base64 with the standard alphabet and padding. -/

def isBase64Char (b : UInt8) : Bool :=
  isAsciiAlphanumeric b || b == 0x2B || b == 0x2F || b == 0x3D

/-- An encoding that its decoder takes back. -/
structure Base64 where
  encode : Bytes → Bytes
  decode : Bytes → Option Bytes
  decode_nil : decode [] = some []
  decode_encode : ∀ bytes, decode (encode bytes) = some bytes
  encode_chars : ∀ bytes, ∀ b ∈ encode bytes, isBase64Char b = true

namespace Base64

theorem encode_ne_nil (base64 : Base64) {bytes : Bytes} (hbytes : bytes ≠ []) :
    base64.encode bytes ≠ [] := by
  intro hnil
  have hback := base64.decode_encode bytes
  rw [hnil, base64.decode_nil] at hback
  exact hbytes (Option.some.inj hback).symm

def symbol (sextet : Nat) : UInt8 :=
  if sextet < 26 then (0x41 + sextet).toUInt8
  else if sextet < 52 then (0x47 + sextet).toUInt8
  else if sextet < 62 then (sextet - 4).toUInt8
  else if sextet = 62 then 0x2B
  else 0x2F

def sextet (b : UInt8) : Option Nat :=
  if 0x41 ≤ b ∧ b ≤ 0x5A then some (b.toNat - 0x41)
  else if 0x61 ≤ b ∧ b ≤ 0x7A then some (b.toNat - 0x47)
  else if 0x30 ≤ b ∧ b ≤ 0x39 then some (b.toNat + 4)
  else if b = 0x2B then some 62
  else if b = 0x2F then some 63
  else none

def encodeStandard : Bytes → Bytes
  | [] => []
  | [a] =>
    let n := a.toNat * 16
    [symbol (n / 64), symbol (n % 64), 0x3D, 0x3D]
  | [a, b] =>
    let n := a.toNat * 1024 + b.toNat * 4
    [symbol (n / 4096), symbol (n / 64 % 64), symbol (n % 64), 0x3D]
  | a :: b :: c :: rest =>
    let n := a.toNat * 65536 + b.toNat * 256 + c.toNat
    symbol (n / 262144) :: symbol (n / 4096 % 64) :: symbol (n / 64 % 64) :: symbol (n % 64) ::
      encodeStandard rest

/-- Bits that fill up the last symbol must be zero. -/
def decodeStandard : Bytes → Option Bytes
  | [] => some []
  | p :: q :: r :: s :: rest =>
    match sextet p, sextet q, sextet r, sextet s with
    | some p, some q, some r, some s =>
      let n := p * 262144 + q * 4096 + r * 64 + s
      (decodeStandard rest).map fun bytes =>
        (n / 65536).toUInt8 :: (n / 256 % 256).toUInt8 :: (n % 256).toUInt8 :: bytes
    | some p, some q, some r, none =>
      let n := p * 4096 + q * 64 + r
      if s = 0x3D ∧ rest = [] ∧ n % 4 = 0 then
        some [(n / 1024).toUInt8, (n / 4 % 256).toUInt8]
      else none
    | some p, some q, none, none =>
      let n := p * 64 + q
      if r = 0x3D ∧ s = 0x3D ∧ rest = [] ∧ n % 16 = 0 then some [(n / 16).toUInt8]
      else none
    | _, _, _, _ => none
  | _ => none

theorem sextet_symbol {n : Nat} (hn : n < 64) : sextet (symbol n) = some n := by
  have hall : ∀ n < 64, sextet (symbol n) = some n := by decide
  exact hall n hn

theorem symbol_char {n : Nat} (hn : n < 64) : isBase64Char (symbol n) = true := by
  have hall : ∀ n < 64, isBase64Char (symbol n) = true := by decide
  exact hall n hn

theorem sextet_padding : sextet 0x3D = none := by decide

theorem toUInt8_of_eq {b : UInt8} {n : Nat} (hn : n = b.toNat) : n.toUInt8 = b := by
  rw [hn]
  exact UInt8.ofNat_toNat

theorem decodeStandard_encodeStandard (bytes : Bytes) :
    decodeStandard (encodeStandard bytes) = some bytes := by
  fun_induction encodeStandard bytes with
  | case1 => rfl
  | case2 a n =>
      have ha := a.toNat_lt
      simp only [decodeStandard, sextet_symbol (show n / 64 < 64 by omega),
        sextet_symbol (show n % 64 < 64 by omega), sextet_padding]
      rw [if_pos ⟨trivial, trivial, trivial, by omega⟩, toUInt8_of_eq (show _ = a.toNat by omega)]
  | case3 a b n =>
      have ha := a.toNat_lt
      have hb := b.toNat_lt
      simp only [decodeStandard, sextet_symbol (show n / 4096 < 64 by omega),
        sextet_symbol (show n / 64 % 64 < 64 by omega),
        sextet_symbol (show n % 64 < 64 by omega), sextet_padding]
      rw [if_pos ⟨trivial, trivial, by omega⟩, toUInt8_of_eq (show _ = a.toNat by omega),
        toUInt8_of_eq (show _ = b.toNat by omega)]
  | case4 a b c rest n ih =>
      have ha := a.toNat_lt
      have hb := b.toNat_lt
      have hc := c.toNat_lt
      simp only [decodeStandard, sextet_symbol (show n / 262144 < 64 by omega),
        sextet_symbol (show n / 4096 % 64 < 64 by omega),
        sextet_symbol (show n / 64 % 64 < 64 by omega),
        sextet_symbol (show n % 64 < 64 by omega), ih, Option.map_some]
      rw [toUInt8_of_eq (show _ = a.toNat by omega), toUInt8_of_eq (show _ = b.toNat by omega),
        toUInt8_of_eq (show _ = c.toNat by omega)]

theorem encodeStandard_chars (bytes : Bytes) :
    ∀ b ∈ encodeStandard bytes, isBase64Char b = true := by
  have hpadding : isBase64Char 0x3D = true := by decide
  fun_induction encodeStandard bytes with
  | case1 => simp
  | case2 a n =>
      have ha := a.toNat_lt
      simp [symbol_char (show n / 64 < 64 by omega), symbol_char (show n % 64 < 64 by omega),
        hpadding]
  | case3 a b n =>
      have ha := a.toNat_lt
      have hb := b.toNat_lt
      simp [symbol_char (show n / 4096 < 64 by omega),
        symbol_char (show n / 64 % 64 < 64 by omega), symbol_char (show n % 64 < 64 by omega),
        hpadding]
  | case4 a b c rest n ih =>
      have ha := a.toNat_lt
      have hb := b.toNat_lt
      have hc := c.toNat_lt
      simpa [symbol_char (show n / 262144 < 64 by omega),
        symbol_char (show n / 4096 % 64 < 64 by omega),
        symbol_char (show n / 64 % 64 < 64 by omega),
        symbol_char (show n % 64 < 64 by omega)] using ih

def standard : Base64 where
  encode := encodeStandard
  decode := decodeStandard
  decode_nil := rfl
  decode_encode := decodeStandard_encodeStandard
  encode_chars := encodeStandard_chars

end Base64

end Resocks5.Foundation
