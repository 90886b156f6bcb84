import Resocks5.Foundation.Bytes
import Mathlib.Data.Nat.Digits.Lemmas

namespace Resocks5.Foundation

/-! Numbers as text, most significant digit first. -/

def digitChar (digit : Nat) : UInt8 :=
  if digit < 10 then (0x30 + digit).toUInt8 else (0x57 + digit).toUInt8

/-- `to_digit`: either case of a letter, below the radix. -/
def toDigit (radix : Nat) (b : UInt8) : Option Nat :=
  let digit :=
    if 0x30 ≤ b ∧ b ≤ 0x39 then some (b.toNat - 0x30)
    else if 0x61 ≤ b ∧ b ≤ 0x66 then some (b.toNat - 0x57)
    else if 0x41 ≤ b ∧ b ≤ 0x46 then some (b.toNat - 0x37)
    else none
  digit.filter (· < radix)

def isDigit (radix : Nat) (b : UInt8) : Bool := (toDigit radix b).isSome

def render (radix n : Nat) : Bytes :=
  if n = 0 then [0x30] else (Nat.digits radix n).reverse.map digitChar

def numeralValue (radix : Nat) (text : Bytes) : Nat :=
  text.foldl (fun value b => value * radix + (toDigit radix b).getD 0) 0

theorem toDigit_digitChar {radix digit : Nat} (hradix : radix ≤ 16) (hdigit : digit < radix) :
    toDigit radix (digitChar digit) = some digit := by
  have hall : ∀ digit < 16, toDigit 16 (digitChar digit) = some digit := by decide
  have hsome := hall digit (by omega)
  rw [toDigit, Option.filter_eq_some_iff] at hsome ⊢
  exact ⟨hsome.1, by simpa using hdigit⟩

theorem isDigit_digitChar {radix digit : Nat} (hradix : radix ≤ 16) (hdigit : digit < radix) :
    isDigit radix (digitChar digit) = true := by
  rw [isDigit, toDigit_digitChar hradix hdigit]
  rfl

theorem toDigit_lt {radix digit : Nat} {b : UInt8} (hdigit : toDigit radix b = some digit) :
    digit < radix := by
  rw [toDigit, Option.filter_eq_some_iff] at hdigit
  simpa using hdigit.2

theorem isDigit_ascii (b : UInt8) :
    isDigit 10 b = isAsciiDigit b ∧ isDigit 16 b = isAsciiHexDigit b := by
  have hall : ∀ b : UInt8, isDigit 10 b = isAsciiDigit b ∧ isDigit 16 b = isAsciiHexDigit b :=
    allBytes (by decide +kernel)
  exact hall b

theorem isDigit_decimal (b : UInt8) : isDigit 10 b = isAsciiDigit b := (isDigit_ascii b).1

theorem render_ne_nil (radix n : Nat) : render radix n ≠ [] := by
  unfold render
  split
  · exact List.cons_ne_nil _ _
  · rename_i hn
    simpa [Nat.digits_eq_nil_iff_eq_zero] using hn

theorem render_digits {radix : Nat} (hlow : 2 ≤ radix) (hhigh : radix ≤ 16) (n : Nat) :
    ∀ b ∈ render radix n, isDigit radix b = true := by
  intro b hb
  unfold render at hb
  split at hb
  · obtain rfl := List.mem_singleton.mp hb
    exact isDigit_digitChar hhigh (show 0 < radix by omega)
  · obtain ⟨digit, hdigit, rfl⟩ := List.mem_map.mp hb
    exact isDigit_digitChar hhigh
      (Nat.digits_lt_base (by omega) (List.mem_reverse.mp hdigit))

theorem numeralValue_digits {radix : Nat} (hhigh : radix ≤ 16) (digits : List Nat)
    (hdigits : ∀ digit ∈ digits, digit < radix) :
    numeralValue radix (digits.reverse.map digitChar) = Nat.ofDigits radix digits := by
  induction digits with
  | nil => rfl
  | cons digit rest ih =>
      have hrest := ih fun other hother => hdigits other (List.mem_cons_of_mem _ hother)
      rw [numeralValue] at hrest
      rw [numeralValue, List.reverse_cons, List.map_append, List.foldl_append, hrest]
      rw [List.map_singleton, List.foldl_cons, List.foldl_nil, Nat.ofDigits_cons]
      rw [toDigit_digitChar hhigh (hdigits digit List.mem_cons_self)]
      simp only [Option.getD_some]
      ring

theorem numeralValue_render {radix : Nat} (hlow : 2 ≤ radix) (hhigh : radix ≤ 16) (n : Nat) :
    numeralValue radix (render radix n) = n := by
  unfold render
  split
  · rename_i hn
    have hzero := toDigit_digitChar hhigh (show 0 < radix by omega)
    simp [numeralValue, hn, show toDigit radix 0x30 = some 0 from hzero]
  · rw [numeralValue_digits hhigh _ fun digit hdigit =>
      Nat.digits_lt_base (by omega) hdigit]
    exact Nat.ofDigits_digits radix n

theorem render_length {radix n width : Nat} (hlow : 2 ≤ radix) (hwidth : 0 < width)
    (hn : n < radix ^ width) : (render radix n).length ≤ width := by
  unfold render
  split
  · exact hwidth
  · rw [List.length_map, List.length_reverse]
    exact (Nat.digits_length_le_iff (by omega) n).mpr hn

theorem render_no_leading_zero {radix n : Nat} (hlow : 2 ≤ radix) (hhigh : radix ≤ 16)
    (hn : n ≠ 0) : (render radix n).head? ≠ some 0x30 := by
  unfold render
  rw [if_neg hn]
  intro hhead
  rw [List.head?_map, Option.map_eq_some_iff] at hhead
  obtain ⟨digit, hdigit, hchar⟩ := hhead
  have hne : Nat.digits radix n ≠ [] := Nat.digits_ne_nil_iff_ne_zero.mpr hn
  rw [List.head?_reverse, List.getLast?_eq_some_getLast hne] at hdigit
  obtain rfl := Option.some.inj hdigit
  have hzero := Nat.getLast_digit_ne_zero radix hn
  have hlt : (Nat.digits radix n).getLast hne < radix :=
    Nat.digits_lt_base (by omega) (List.getLast_mem hne)
  have hval := toDigit_digitChar hhigh hlt
  rw [hchar] at hval
  have hz := toDigit_digitChar hhigh (show 0 < radix by omega)
  rw [show digitChar 0 = 0x30 from rfl, hval] at hz
  exact hzero (Option.some.inj hz)

end Resocks5.Foundation
