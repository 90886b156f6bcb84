import Mathlib.Data.List.Basic

namespace Resocks5.Foundation

abbrev Bytes := List UInt8

/-- The bytes of an ASCII literal. -/
def lit (text : String) : Bytes :=
  text.toList.map fun c => c.toNat.toUInt8

theorem allBytes {p : UInt8 → Prop} (hall : ∀ n < 256, p (UInt8.ofNat n)) (b : UInt8) : p b := by
  have hb := hall b.toNat b.toNat_lt
  rwa [UInt8.ofNat_toNat] at hb

/-! Splitting at a separator. -/

def splitOnce (sep : UInt8) : Bytes → Option (Bytes × Bytes)
  | [] => none
  | b :: rest =>
    if b = sep then some ([], rest)
    else (splitOnce sep rest).map fun (front, back) => (b :: front, back)

def rsplitOnce (sep : UInt8) (text : Bytes) : Option (Bytes × Bytes) :=
  (splitOnce sep text.reverse).map fun (back, front) => (front.reverse, back.reverse)

theorem splitOnce_append {sep : UInt8} {front : Bytes} (hfront : sep ∉ front)
    (back : Bytes) : splitOnce sep (front ++ sep :: back) = some (front, back) := by
  induction front with
  | nil => simp [splitOnce]
  | cons b rest ih =>
      obtain ⟨hne, hrest⟩ := not_or.mp (List.mem_cons.not.mp hfront)
      rw [List.cons_append, splitOnce, if_neg (Ne.symm hne), ih hrest]
      rfl

theorem splitOnce_eq_some {sep : UInt8} {text front back : Bytes} :
    splitOnce sep text = some (front, back) ↔
      text = front ++ sep :: back ∧ sep ∉ front := by
  constructor
  · intro hsplit
    induction text generalizing front with
    | nil => cases hsplit
    | cons b rest ih =>
        rw [splitOnce] at hsplit
        split at hsplit
        · rename_i hsep
          obtain ⟨rfl, rfl⟩ : [] = front ∧ rest = back := by simpa using hsplit
          exact ⟨by rw [hsep]; rfl, by simp⟩
        · rename_i hne
          obtain ⟨⟨tail, _⟩, hrest, heq⟩ := Option.map_eq_some_iff.mp hsplit
          obtain ⟨rfl, rfl⟩ : b :: tail = front ∧ _ = back := by simpa using heq
          obtain ⟨rfl, htail⟩ := ih hrest
          exact ⟨rfl, by simpa [htail] using Ne.symm hne⟩
  · rintro ⟨rfl, hfront⟩
    exact splitOnce_append hfront back

theorem splitOnce_eq_none {sep : UInt8} {text : Bytes} :
    splitOnce sep text = none ↔ sep ∉ text := by
  induction text with
  | nil => simp [splitOnce]
  | cons b rest ih =>
      rw [splitOnce]
      split
      · rename_i hsep
        simp [hsep]
      · rename_i hne
        rw [Option.map_eq_none_iff, ih, List.mem_cons, not_or]
        exact ⟨fun h => ⟨Ne.symm hne, h⟩, fun h => h.2⟩

theorem rsplitOnce_eq_some {sep : UInt8} {text front back : Bytes} :
    rsplitOnce sep text = some (front, back) ↔
      text = front ++ sep :: back ∧ sep ∉ back := by
  rw [rsplitOnce, Option.map_eq_some_iff]
  constructor
  · rintro ⟨⟨x, y⟩, hsplit, heq⟩
    obtain ⟨htext, hx⟩ := splitOnce_eq_some.mp hsplit
    obtain ⟨rfl, rfl⟩ : y.reverse = front ∧ x.reverse = back := by simpa using heq
    refine ⟨?_, by simpa using hx⟩
    have hrev := congrArg List.reverse htext
    simpa using hrev
  · rintro ⟨rfl, hback⟩
    refine ⟨(back.reverse, front.reverse), splitOnce_eq_some.mpr ⟨?_, ?_⟩, ?_⟩
    · simp
    · simpa using hback
    · simp

theorem rsplitOnce_append {sep : UInt8} {back : Bytes} (hback : sep ∉ back)
    (front : Bytes) : rsplitOnce sep (front ++ sep :: back) = some (front, back) :=
  rsplitOnce_eq_some.mpr ⟨rfl, hback⟩

theorem rsplitOnce_eq_none {sep : UInt8} {text : Bytes} :
    rsplitOnce sep text = none ↔ sep ∉ text := by
  rw [rsplitOnce, Option.map_eq_none_iff, splitOnce_eq_none, List.mem_reverse]

/-! Classes of ASCII bytes. -/

def isAsciiControl (b : UInt8) : Bool := b < 0x20 || b == 0x7F

/-- Space, tab, line feed, form feed and carriage return. -/
def isAsciiWhitespace (b : UInt8) : Bool :=
  b == 0x20 || b == 0x09 || b == 0x0A || b == 0x0C || b == 0x0D

/-- What no target may hold. -/
def isUnprintable (b : UInt8) : Bool := isAsciiControl b || isAsciiWhitespace b

def isAsciiDigit (b : UInt8) : Bool := 0x30 ≤ b && b ≤ 0x39

def isAsciiHexDigit (b : UInt8) : Bool :=
  isAsciiDigit b || (0x41 ≤ b && b ≤ 0x46) || (0x61 ≤ b && b ≤ 0x66)

def isAsciiAlphanumeric (b : UInt8) : Bool :=
  isAsciiDigit b || (0x41 ≤ b && b ≤ 0x5A) || (0x61 ≤ b && b ≤ 0x7A)

def isAsciiAlphabetic (b : UInt8) : Bool := isAsciiAlphanumeric b && !isAsciiDigit b

def toAsciiLower (b : UInt8) : UInt8 :=
  if 0x41 ≤ b && b ≤ 0x5A then b + 0x20 else b

def eqIgnoreAsciiCase (a b : Bytes) : Bool :=
  a.map toAsciiLower == b.map toAsciiLower

theorem exists_cons_four {bytes : List α} (hlength : 4 ≤ bytes.length) :
    ∃ a b c d rest, bytes = a :: b :: c :: d :: rest := by
  match bytes, hlength with
  | a :: b :: c :: d :: rest, _ => exact ⟨a, b, c, d, rest, rfl⟩

theorem exists_cons_five {bytes : List α} (hlength : 5 ≤ bytes.length) :
    ∃ a b c d e rest, bytes = a :: b :: c :: d :: e :: rest := by
  match bytes, hlength with
  | a :: b :: c :: d :: e :: rest, _ => exact ⟨a, b, c, d, e, rest, rfl⟩

theorem short_cases {bytes : List α} (hlength : bytes.length < 5) :
    bytes = [] ∨ (∃ a, bytes = [a]) ∨ (∃ a b, bytes = [a, b]) ∨ (∃ a b c, bytes = [a, b, c]) ∨
      ∃ a b c d, bytes = [a, b, c, d] := by
  match bytes, hlength with
  | [], _ => exact .inl rfl
  | [a], _ => exact .inr (.inl ⟨a, rfl⟩)
  | [a, b], _ => exact .inr (.inr (.inl ⟨a, b, rfl⟩))
  | [a, b, c], _ => exact .inr (.inr (.inr (.inl ⟨a, b, c, rfl⟩)))
  | [a, b, c, d], _ => exact .inr (.inr (.inr (.inr ⟨a, b, c, d, rfl⟩)))

end Resocks5.Foundation
