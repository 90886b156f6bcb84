import Resocks5.Config.Masks

namespace Resocks5.Config

open Resocks5.Foundation
open Resocks5.Net

/-! Addresses up to the mapped form. -/

abbrev joined (sep : UInt8) (texts : List Bytes) : Bytes := [sep].intercalate texts

theorem mem_joined {sep b : UInt8} {texts : List Bytes} (hb : b ∈ joined sep texts) :
    b = sep ∨ ∃ text ∈ texts, b ∈ text := by
  induction texts with
  | nil => cases hb
  | cons text texts ih =>
      by_cases hnil : texts = []
      · subst hnil
        exact .inr ⟨text, List.mem_cons_self, by simpa using hb⟩
      · rw [joined, List.intercalate_cons_of_ne_nil hnil, List.append_assoc, List.mem_append,
          List.mem_append, List.mem_singleton] at hb
        obtain hb | hb | hb := hb
        · exact .inr ⟨text, List.mem_cons_self, hb⟩
        · exact .inl hb
        · refine (ih hb).imp_right fun ⟨other, hother, hmem⟩ => ?_
          exact ⟨other, List.mem_cons_of_mem _ hother, hmem⟩

theorem spellTexts_succ (index : Nat) (texts : List Bytes) :
    spellTexts (index + 1) texts = if texts = [] then [] else 0x3A :: joined 0x3A texts := by
  induction texts generalizing index with
  | nil => rfl
  | cons text texts ih =>
      rw [spellTexts, ih, if_neg (List.cons_ne_nil _ _), spellSep, if_pos (Nat.succ_pos _)]
      by_cases hnil : texts = []
      · simp [hnil]
      · simp [hnil, List.intercalate_cons_of_ne_nil]

/-- What the address parser reads as groups. -/
theorem spellTexts_joined (texts : List Bytes) : spellTexts 0 texts = joined 0x3A texts := by
  cases texts with
  | nil => rfl
  | cons text texts =>
      rw [spellTexts, spellTexts_succ, spellSep, if_neg (Nat.lt_irrefl 0)]
      by_cases hnil : texts = []
      · simp [hnil]
      · simp [hnil, List.intercalate_cons_of_ne_nil]

end Resocks5.Config
