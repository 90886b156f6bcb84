import Mathlib.Data.List.Basic
import Mathlib.Data.List.Forall2

namespace Resocks5.Foundation

variable {α : Type} {hole sep : α} {patch : List α → Prop}

/-- Every hole of the first text is filled by a patch of its own. -/
inductive Fills (hole : α) (patch : List α → Prop) : List α → List α → Prop
  | nil : Fills hole patch [] []
  | fill {piece mask text : List α} (hpiece : patch piece) (hrest : Fills hole patch mask text) :
      Fills hole patch (hole :: mask) (piece ++ text)
  | keep {x : α} {mask text : List α} (hx : x ≠ hole) (hrest : Fills hole patch mask text) :
      Fills hole patch (x :: mask) (x :: text)

namespace Fills

theorem refl {mask : List α} (hmask : hole ∉ mask) : Fills hole patch mask mask := by
  induction mask with
  | nil => exact .nil
  | cons x mask ih =>
      obtain ⟨hx, hrest⟩ := not_or.mp (List.mem_cons.not.mp hmask)
      exact .keep (Ne.symm hx) (ih hrest)

theorem eq_of_not_mem {mask text : List α} (hfills : Fills hole patch mask text)
    (hmask : hole ∉ mask) : text = mask := by
  induction hfills with
  | nil => rfl
  | fill _ _ _ => exact absurd List.mem_cons_self hmask
  | keep _ _ ih => rw [ih fun hmem => hmask (List.mem_cons_of_mem _ hmem)]

theorem eq_iff {mask text : List α} (hmask : hole ∉ mask) :
    Fills hole patch mask text ↔ text = mask := by
  constructor
  · exact fun hfills => hfills.eq_of_not_mem hmask
  · rintro rfl
    exact refl hmask

theorem append {front back text more : List α} (hfront : Fills hole patch front text)
    (hback : Fills hole patch back more) : Fills hole patch (front ++ back) (text ++ more) := by
  induction hfront with
  | nil => exact hback
  | fill hpiece _ ih =>
      rw [List.append_assoc]
      exact .fill hpiece ih
  | keep hx _ ih => exact .keep hx ih

theorem split {front back text : List α} (hfills : Fills hole patch (front ++ back) text) :
    ∃ before after, text = before ++ after ∧ Fills hole patch front before ∧
      Fills hole patch back after := by
  induction front generalizing text with
  | nil => exact ⟨[], text, rfl, .nil, hfills⟩
  | cons x front ih =>
      cases hfills with
      | fill hpiece hrest =>
          obtain ⟨before, after, rfl, hbefore, hafter⟩ := ih hrest
          exact ⟨_, after, (List.append_assoc _ _ _).symm, .fill hpiece hbefore, hafter⟩
      | keep hx hrest =>
          obtain ⟨before, after, rfl, hbefore, hafter⟩ := ih hrest
          exact ⟨_, after, rfl, .keep hx hbefore, hafter⟩

theorem mem {mask text : List α} (hfills : Fills hole patch mask text) {x : α} (hx : x ≠ hole)
    (hmem : x ∈ mask) : x ∈ text := by
  induction hfills with
  | nil => exact hmem
  | fill _ _ ih =>
      exact List.mem_append_right _ (ih ((List.mem_cons.mp hmem).resolve_left hx))
  | keep _ _ ih =>
      obtain rfl | hmem := List.mem_cons.mp hmem
      · exact List.mem_cons_self
      · exact List.mem_cons_of_mem _ (ih hmem)

theorem keep_iff {x : α} (hx : x ≠ hole) {mask text : List α} :
    Fills hole patch (x :: mask) text ↔ ∃ rest, text = x :: rest ∧ Fills hole patch mask rest := by
  constructor
  · intro hfills
    cases hfills with
    | fill _ _ => exact absurd rfl hx
    | keep _ hrest => exact ⟨_, rfl, hrest⟩
  · rintro ⟨rest, rfl, hrest⟩
    exact .keep hx hrest

theorem intercalate_iff (hsep : sep ≠ hole) {masks : List (List α)} {text : List α} :
    Fills hole patch ([sep].intercalate masks) text ↔
      ∃ texts, text = [sep].intercalate texts ∧ List.Forall₂ (Fills hole patch) masks texts := by
  induction masks generalizing text with
  | nil =>
      constructor
      · intro hfills
        cases hfills
        exact ⟨[], rfl, .nil⟩
      · rintro ⟨texts, rfl, hall⟩
        cases hall
        exact .nil
  | cons mask masks ih =>
      cases masks with
      | nil =>
          constructor
          · intro hfills
            exact ⟨[text], by simp, .cons (by simpa using hfills) .nil⟩
          · rintro ⟨texts, rfl, hall⟩
            cases hall with
            | cons hmask hrest =>
                cases hrest
                simpa using hmask
      | cons next masks =>
          have hne : ∀ {texts}, List.Forall₂ (Fills hole patch) (next :: masks) texts →
              texts ≠ [] := by
            rintro _ hall rfl
            cases hall
          rw [List.intercalate_cons_of_ne_nil (List.cons_ne_nil _ _), List.append_assoc]
          constructor
          · intro hfills
            obtain ⟨before, after, rfl, hbefore, hafter⟩ := hfills.split
            obtain ⟨rest, rfl, hrest⟩ := (keep_iff hsep).mp hafter
            obtain ⟨texts, rfl, hall⟩ := ih.mp hrest
            refine ⟨before :: texts, ?_, .cons hbefore hall⟩
            rw [List.intercalate_cons_of_ne_nil (hne hall), List.append_assoc]
            rfl
          · rintro ⟨texts, rfl, hall⟩
            cases hall with
            | @cons _ before _ texts hbefore hall =>
                rw [List.intercalate_cons_of_ne_nil (hne hall), List.append_assoc]
                exact hbefore.append ((keep_iff hsep).mpr ⟨_, rfl, ih.mpr ⟨texts, rfl, hall⟩⟩)

end Fills

end Resocks5.Foundation
