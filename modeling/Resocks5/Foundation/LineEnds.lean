import Resocks5.Foundation.Text

namespace Resocks5.Foundation

/-! Conventions for the ends of lines. -/

/-- What a reader takes for the end of a line: CR LF as a whole, and nothing that has neither. The
result is what is behind an end at the front of a text. -/
structure LineEnds where
  behind : Bytes → Option Bytes
  whole : ∀ rest, behind (crlf ++ rest) = some rest
  inside : ∀ {b : UInt8} (rest : Bytes), b ≠ 0x0D → b ≠ 0x0A → behind (b :: rest) = none

namespace LineEnds

def strict : LineEnds where
  behind
    | 0x0D :: 0x0A :: rest => some rest
    | _ => none
  whole _ := rfl
  inside rest hcr _ := by
    split
    · rename_i heq
      exact absurd (List.cons.inj heq).1 hcr
    · rfl

def bareLf : LineEnds where
  behind
    | 0x0D :: 0x0A :: rest => some rest
    | 0x0A :: rest => some rest
    | _ => none
  whole _ := rfl
  inside rest hcr hlf := by
    split
    · rename_i heq
      exact absurd (List.cons.inj heq).1 hcr
    · rename_i heq
      exact absurd (List.cons.inj heq).1 hlf
    · rfl

def bareCr : LineEnds where
  behind
    | 0x0D :: 0x0A :: rest => some rest
    | 0x0D :: rest => some rest
    | _ => none
  whole _ := rfl
  inside rest hcr _ := by
    split
    · rename_i heq
      exact absurd (List.cons.inj heq).1 hcr
    · rename_i heq
      exact absurd (List.cons.inj heq).1 hcr
    · rfl

/-- The lines of a text, the last one without an end; `fuel` is its length. -/
def split (ends : LineEnds) : Nat → Bytes → List Bytes
  | 0, _ => [[]]
  | _, [] => [[]]
  | fuel + 1, b :: text =>
    match ends.behind (b :: text) with
    | some rest => [] :: ends.split fuel rest
    | none =>
      match ends.split fuel text with
      | [] => [[b]]
      | line :: lines => (b :: line) :: lines

def lines (ends : LineEnds) (text : Bytes) : List Bytes := ends.split text.length text

def Plain (line : Bytes) : Prop := (0x0D : UInt8) ∉ line ∧ (0x0A : UInt8) ∉ line

theorem split_line (ends : LineEnds) {line : Bytes} (hplain : Plain line) (rest : Bytes)
    (fuel : Nat) :
    ends.split (line.length + 1 + fuel) (line ++ crlf ++ rest) = line :: ends.split fuel rest := by
  induction line with
  | nil =>
      have hbehind := ends.whole rest
      rw [List.length_nil, Nat.zero_add, Nat.add_comm, List.nil_append]
      change ends.behind (0x0D :: 0x0A :: rest) = some rest at hbehind
      change ends.split (fuel + 1) (0x0D :: 0x0A :: rest) = _
      rw [split, hbehind]
  | cons b line ih =>
      obtain ⟨hcr, hlf⟩ := hplain
      obtain ⟨hcr, hcrs⟩ := not_or.mp (List.mem_cons.not.mp hcr)
      obtain ⟨hlf, hlfs⟩ := not_or.mp (List.mem_cons.not.mp hlf)
      have hfuel : (b :: line).length + 1 + fuel = (line.length + 1 + fuel) + 1 := by
        rw [List.length_cons]
        omega
      rw [hfuel, List.cons_append, List.cons_append, split,
        ends.inside _ (Ne.symm hcr) (Ne.symm hlf), ih ⟨hcrs, hlfs⟩]

theorem lines_plain (ends : LineEnds) {texts : List Bytes} (hplain : ∀ line ∈ texts, Plain line) :
    ends.lines (texts.flatMap (· ++ crlf)) = texts ++ [[]] := by
  have hsplit : ∀ fuel, (texts.flatMap (· ++ crlf)).length ≤ fuel →
      ends.split fuel (texts.flatMap (· ++ crlf)) = texts ++ [[]] := by
    induction texts with
    | nil =>
        intro fuel _
        cases fuel with
        | zero => rfl
        | succ fuel => rfl
    | cons line texts ih =>
        intro fuel hfuel
        rw [List.flatMap_cons] at hfuel ⊢
        have hcrlf : crlf.length = 2 := rfl
        rw [List.length_append, List.length_append, hcrlf] at hfuel
        obtain ⟨rest, rfl⟩ := Nat.exists_eq_add_of_le (show line.length + 1 ≤ fuel by omega)
        rw [ends.split_line (hplain line List.mem_cons_self)]
        rw [ih (fun other hother => hplain other (List.mem_cons_of_mem line hother)) rest (by omega)]
        rfl
  exact hsplit _ (Nat.le_refl _)

end LineEnds

end Resocks5.Foundation
