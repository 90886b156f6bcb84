import Resocks5.Config.MaskTexts

namespace Resocks5.Config

open Resocks5.Foundation
open Resocks5.Net

/-! Eight groups, written out or around an elision. -/

inductive GroupText : Bytes → List Bytes → Prop
  | full {groups : List Bytes} (hlength : groups.length = 8) :
      GroupText (joined 0x3A groups) groups
  | elided {head tail : List Bytes} (hlength : head.length + tail.length < 8) :
      GroupText (joined 0x3A head ++ 0x3A :: 0x3A :: joined 0x3A tail)
        (head ++ List.replicate (8 - (head.length + tail.length)) [0x30] ++ tail)

theorem GroupText.length {text : Bytes} {groups : List Bytes} (htext : GroupText text groups) :
    groups.length = 8 := by
  cases htext with
  | full hlength => exact hlength
  | elided hlength =>
      simp only [List.length_append, List.length_replicate]
      omega

theorem GroupText.parse {text : Bytes} {groups : List Bytes} (htext : GroupText text groups)
    (hgroups : ∀ g ∈ groups, IsGroup g) :
    ∃ addr, parseIpv6 text = some addr ∧ addr.segments = groups.map groupValue := by
  have height : (groups.map groupValue).length = 8 := by
    rw [List.length_map, htext.length]
  refine ⟨⟨_, height⟩, parseIpv6_eq ?_, rfl⟩
  cases htext with
  | full hlength =>
      have hread := readGroups_texts hgroups 0 (Nat.le_of_eq hlength) Ending.nil
      rw [spellTexts_joined, List.append_nil] at hread
      simp [readIpv6Groups, hread, hlength]
  | @elided head tail hlength =>
      have hhead := readGroups_texts
        (fun g hg => hgroups g (List.mem_append_left _ (List.mem_append_left _ hg))) 0
        (show head.length ≤ 8 by omega) (Ending.elided (joined 0x3A tail))
      have htail := readGroups_texts (fun g hg => hgroups g (List.mem_append_right _ hg)) 0
        (show tail.length ≤ 7 - head.length by omega) Ending.nil
      rw [spellTexts_joined] at hhead htail
      rw [List.append_nil] at htail
      have hzero : groupValue [0x30] = 0 := by decide
      unfold readIpv6Groups
      dsimp only
      rw [hhead]
      simp only [List.length_map, Bool.false_eq_true, if_false, readGivenChar, if_true,
        Option.bind_some, Option.map_some, htail]
      rw [if_neg (by omega)]
      simp [hzero, Nat.sub_sub]

theorem GroupText.fill {patch : Bytes → Prop} {elem text : Bytes} {groups : List Bytes}
    (helem : GroupText elem groups) (hfills : Fills 0x2A patch elem text) :
    ∃ texts, GroupText text texts ∧ List.Forall₂ (Fills 0x2A patch) groups texts := by
  have hcolon : (0x3A : UInt8) ≠ 0x2A := by decide
  cases helem with
  | full hlength =>
      obtain ⟨texts, rfl, hall⟩ := (Fills.intercalate_iff hcolon).mp hfills
      exact ⟨texts, .full (hall.length_eq ▸ hlength), hall⟩
  | @elided head tail hlength =>
      obtain ⟨front, rest, rfl, hfront, hrest⟩ := hfills.split
      obtain ⟨rest', rfl, hrest'⟩ := (Fills.keep_iff hcolon).mp hrest
      obtain ⟨back, rfl, hback⟩ := (Fills.keep_iff hcolon).mp hrest'
      obtain ⟨heads, rfl, hheads⟩ := (Fills.intercalate_iff hcolon).mp hfront
      obtain ⟨tails, rfl, htails⟩ := (Fills.intercalate_iff hcolon).mp hback
      have hcount : heads.length + tails.length = head.length + tail.length := by
        rw [hheads.length_eq, htails.length_eq]
      refine ⟨_, .elided (by omega), ?_⟩
      rw [hcount]
      refine List.rel_append (List.rel_append hheads ?_) htails
      rw [List.forall₂_same]
      intro zero hzero
      rw [List.eq_of_mem_replicate hzero]
      exact Fills.refl (by decide)

theorem splitOn_no_sep {sep : UInt8} {text part : Bytes} (hpart : part ∈ text.splitOn sep) :
    sep ∉ part := by
  induction text generalizing part with
  | nil =>
      rw [List.splitOn_nil, List.mem_singleton] at hpart
      simp [hpart]
  | cons b text ih =>
      rw [List.splitOn_cons_eq_if_modifyHead] at hpart
      split at hpart
      · obtain rfl | hpart := List.mem_cons.mp hpart
        · exact List.not_mem_nil
        · exact ih hpart
      · rename_i hb
        generalize text.splitOn sep = parts at hpart ih
        cases parts with
        | nil => cases hpart
        | cons first parts =>
            obtain rfl | hpart := List.mem_cons.mp hpart
            · rw [List.mem_cons, not_or]
              exact ⟨fun heq => hb (by simp [heq]), ih List.mem_cons_self⟩
            · exact ih (List.mem_cons_of_mem _ hpart)

@[simp] theorem joined_colonParts (text : Bytes) : joined 0x3A (colonParts text) = text := by
  unfold colonParts
  split
  · rename_i hempty
    rw [List.isEmpty_iff.mp hempty]
    rfl
  · exact List.intercalate_splitOn 0x3A

theorem colonParts_no_colon {text part : Bytes} (hpart : part ∈ colonParts text) :
    (0x3A : UInt8) ∉ part := by
  unfold colonParts at hpart
  split at hpart
  · cases hpart
  · exact splitOn_no_sep hpart

theorem splitElision_eq {elem front back : Bytes} (hsplit : splitElision elem = some (front, back)) :
    elem = front ++ 0x3A :: 0x3A :: back := by
  obtain ⟨i, hposition, heq⟩ := Option.map_eq_some_iff.mp hsplit
  obtain ⟨rfl, rfl⟩ := Prod.mk.inj heq
  obtain ⟨⟨rest, hat⟩, _⟩ := (position_eq_some (List.cons_ne_nil _ _)).mp hposition
  have hrest : elem.drop (i + 2) = rest := by
    rw [← List.drop_drop, ← hat]
    rfl
  calc elem = elem.take i ++ elem.drop i := (List.take_append_drop i elem).symm
    _ = elem.take i ++ 0x3A :: 0x3A :: elem.drop (i + 2) := by rw [hrest, ← hat]; rfl

/-- The groups with the elided ones written out as zeros. -/
def explicitGroups (front back : Bytes) : List Bytes :=
  colonParts front ++
    List.replicate (8 - ((colonParts front).length + (colonParts back).length)) [0x30] ++
    colonParts back

inductive MaskGroups : Bytes → List Bytes → Prop
  | full {elem : Bytes} (hsplit : splitElision elem = none)
      (hlength : (colonParts elem).length = 8) : MaskGroups elem (colonParts elem)
  | elided {elem front back : Bytes} (hsplit : splitElision elem = some (front, back))
      (hlength : (colonParts front).length + (colonParts back).length < 8) :
      MaskGroups elem (explicitGroups front back)

theorem MaskGroups.text {elem : Bytes} {groups : List Bytes} (hmask : MaskGroups elem groups) :
    GroupText elem groups := by
  cases hmask with
  | full _ hlength =>
      have htext := GroupText.full hlength
      rwa [joined_colonParts] at htext
  | elided hsplit hlength =>
      have htext := GroupText.elided hlength
      rwa [joined_colonParts, joined_colonParts, ← splitElision_eq hsplit] at htext

theorem MaskGroups.no_colon {elem : Bytes} {groups : List Bytes} (hmask : MaskGroups elem groups)
    {g : Bytes} (hg : g ∈ groups) : (0x3A : UInt8) ∉ g := by
  cases hmask with
  | full _ _ => exact colonParts_no_colon hg
  | elided _ _ =>
      rw [explicitGroups, List.mem_append, List.mem_append] at hg
      obtain (hg | hg) | hg := hg
      · exact colonParts_no_colon hg
      · rw [List.eq_of_mem_replicate hg]
        decide
      · exact colonParts_no_colon hg

theorem GroupText.bytes {text : Bytes} {groups : List Bytes} (htext : GroupText text groups)
    {b : UInt8} (hb : b ∈ text) : b = 0x3A ∨ ∃ g ∈ groups, b ∈ g := by
  cases htext with
  | full _ => exact mem_joined hb
  | elided _ =>
      simp only [List.mem_append, List.mem_cons] at hb
      obtain hb | hb | hb | hb := hb
      · refine (mem_joined hb).imp_right fun ⟨g, hg, hmem⟩ => ⟨g, ?_, hmem⟩
        exact List.mem_append_left _ (List.mem_append_left _ hg)
      · exact .inl hb
      · exact .inl hb
      · refine (mem_joined hb).imp_right fun ⟨g, hg, hmem⟩ => ⟨g, ?_, hmem⟩
        exact List.mem_append_right _ hg

end Resocks5.Config
