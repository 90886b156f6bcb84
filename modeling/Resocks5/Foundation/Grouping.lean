import Mathlib.Data.List.Induction
import Mathlib.Order.Lattice

namespace Resocks5.Foundation

/-! Items collected under ordered keys, as an ordered map of vectors holds them. -/

section

variable {κ : Type u} {α : Type v} [LinearOrder κ]

/-- Behind the other items of its key; the first item of a key opens its group. -/
def pushAt (key : κ) (item : α) : List (κ × List α) → List (κ × List α)
  | [] => [(key, [item])]
  | (first, group) :: rest =>
    if key < first then (key, [item]) :: (first, group) :: rest
    else if key = first then (first, group ++ [item]) :: rest
    else (first, group) :: pushAt key item rest

def groupUnder (keyOf : α → κ) (items : List α) : List (κ × List α) :=
  items.foldl (fun groups item => pushAt (keyOf item) item groups) []

/-- The groups of some items: ascending keys, each with all of its items in their order. -/
structure Groups (keyOf : α → κ) (items : List α) (groups : List (κ × List α)) : Prop where
  ascending : groups.Pairwise fun before after => before.1 < after.1
  group : ∀ entry ∈ groups, entry.2 = items.filter (keyOf · = entry.1) ∧ entry.2 ≠ []
  covers : ∀ item ∈ items, ∃ entry ∈ groups, entry.1 = keyOf item

theorem mem_pushAt_key {key : κ} {item : α} {groups : List (κ × List α)} {entry : κ × List α}
    (hmem : entry ∈ pushAt key item groups) :
    entry.1 = key ∨ ∃ old ∈ groups, old.1 = entry.1 := by
  induction groups with
  | nil =>
    rw [pushAt, List.mem_singleton] at hmem
    exact .inl (congrArg Prod.fst hmem)
  | cons head rest ih =>
    rw [pushAt] at hmem
    split at hmem
    · obtain heq | hrest := List.mem_cons.mp hmem
      · exact .inl (congrArg Prod.fst heq)
      · exact .inr ⟨entry, hrest, rfl⟩
    · split at hmem
      · rename_i heq
        obtain hhead | hrest := List.mem_cons.mp hmem
        · exact .inl ((congrArg Prod.fst hhead).trans heq.symm)
        · exact .inr ⟨entry, List.mem_cons_of_mem head hrest, rfl⟩
      · obtain hhead | hrest := List.mem_cons.mp hmem
        · exact .inr ⟨head, List.mem_cons_self, (congrArg Prod.fst hhead).symm⟩
        · obtain hkey | ⟨old, hold, hsame⟩ := ih hrest
          · exact .inl hkey
          · exact .inr ⟨old, List.mem_cons_of_mem head hold, hsame⟩

theorem pushAt_ascending {key : κ} {item : α} {groups : List (κ × List α)}
    (hascending : groups.Pairwise fun before after => before.1 < after.1) :
    (pushAt key item groups).Pairwise fun before after => before.1 < after.1 := by
  induction groups with
  | nil => exact List.pairwise_singleton _ _
  | cons head rest ih =>
    obtain ⟨hhead, hrest⟩ := List.pairwise_cons.mp hascending
    rw [pushAt]
    split
    · rename_i hless
      refine List.pairwise_cons.mpr ⟨fun entry hentry => ?_, hascending⟩
      obtain rfl | hlater := List.mem_cons.mp hentry
      · exact hless
      · exact hless.trans (hhead entry hlater)
    · rename_i hnotless
      split
      · exact List.pairwise_cons.mpr ⟨hhead, hrest⟩
      · rename_i hne
        refine List.pairwise_cons.mpr ⟨fun entry hentry => ?_, ih hrest⟩
        obtain hkey | ⟨old, hold, hsame⟩ := mem_pushAt_key hentry
        · rw [hkey]
          exact lt_of_le_of_ne (not_lt.mp hnotless) (Ne.symm hne)
        · rw [← hsame]
          exact hhead old hold

theorem pushAt_group {key : κ} {item : α} {groups : List (κ × List α)}
    (hascending : groups.Pairwise fun before after => before.1 < after.1) {entry : κ × List α}
    (hmem : entry ∈ pushAt key item groups) :
    (entry.1 ≠ key ∧ entry ∈ groups) ∨
      (entry.1 = key ∧ ((∃ group, (key, group) ∈ groups ∧ entry.2 = group ++ [item]) ∨
        (∀ old ∈ groups, old.1 ≠ key) ∧ entry.2 = [item])) := by
  induction groups with
  | nil =>
    rw [pushAt, List.mem_singleton] at hmem
    subst hmem
    exact .inr ⟨rfl, .inr ⟨fun _ hold => (List.not_mem_nil hold).elim, rfl⟩⟩
  | cons head rest ih =>
    obtain ⟨hhead, hrest⟩ := List.pairwise_cons.mp hascending
    rw [pushAt] at hmem
    split at hmem
    · rename_i hless
      have hfresh : ∀ old ∈ head :: rest, key < old.1 := by
        intro old hold
        obtain rfl | hlater := List.mem_cons.mp hold
        · exact hless
        · exact hless.trans (hhead old hlater)
      obtain rfl | hold := List.mem_cons.mp hmem
      · exact .inr ⟨rfl, .inr ⟨fun old hold => (hfresh old hold).ne', rfl⟩⟩
      · exact .inl ⟨(hfresh entry hold).ne', hold⟩
    · split at hmem
      · rename_i heq
        obtain rfl | hlater := List.mem_cons.mp hmem
        · exact .inr ⟨heq.symm, .inl ⟨head.2, heq ▸ List.mem_cons_self, rfl⟩⟩
        · exact .inl ⟨heq ▸ (hhead entry hlater).ne', List.mem_cons_of_mem head hlater⟩
      · rename_i hne
        obtain rfl | hlater := List.mem_cons.mp hmem
        · exact .inl ⟨Ne.symm hne, List.mem_cons_self⟩
        · obtain ⟨hother, hold⟩ | ⟨hkey, hgroup⟩ := ih hrest hlater
          · exact .inl ⟨hother, List.mem_cons_of_mem head hold⟩
          · refine .inr ⟨hkey, hgroup.imp ?_ ?_⟩
            · rintro ⟨group, hmem, hgroup⟩
              exact ⟨group, List.mem_cons_of_mem head hmem, hgroup⟩
            · rintro ⟨hnone, hgroup⟩
              refine ⟨fun old hold => ?_, hgroup⟩
              obtain rfl | hold := List.mem_cons.mp hold
              · exact Ne.symm hne
              · exact hnone old hold

theorem pushAt_keeps_key {key : κ} {item : α} {groups : List (κ × List α)} {wanted : κ}
    (hold : ∃ entry ∈ groups, entry.1 = wanted) :
    ∃ entry ∈ pushAt key item groups, entry.1 = wanted := by
  induction groups with
  | nil =>
    obtain ⟨_, hnil, -⟩ := hold
    cases hnil
  | cons head rest ih =>
    obtain ⟨entry, hentry, hwanted⟩ := hold
    rw [pushAt]
    split
    · exact ⟨entry, List.mem_cons_of_mem _ hentry, hwanted⟩
    · obtain rfl | hlater := List.mem_cons.mp hentry
      · split
        · exact ⟨_, List.mem_cons_self, hwanted⟩
        · exact ⟨_, List.mem_cons_self, hwanted⟩
      · split
        · exact ⟨entry, List.mem_cons_of_mem _ hlater, hwanted⟩
        · obtain ⟨kept, hkept, hsame⟩ := ih ⟨entry, hlater, hwanted⟩
          exact ⟨kept, List.mem_cons_of_mem _ hkept, hsame⟩

theorem pushAt_opens (key : κ) (item : α) (groups : List (κ × List α)) :
    ∃ entry ∈ pushAt key item groups, entry.1 = key := by
  induction groups with
  | nil => exact ⟨_, List.mem_cons_self, rfl⟩
  | cons head rest ih =>
    rw [pushAt]
    split
    · exact ⟨_, List.mem_cons_self, rfl⟩
    · split
      · rename_i heq
        exact ⟨_, List.mem_cons_self, heq.symm⟩
      · obtain ⟨entry, hentry, hkey⟩ := ih
        exact ⟨entry, List.mem_cons_of_mem _ hentry, hkey⟩

theorem Groups.nil (keyOf : α → κ) : Groups keyOf [] [] where
  ascending := List.Pairwise.nil
  group _ hmem := by cases hmem
  covers _ hmem := by cases hmem

theorem Groups.push {keyOf : α → κ} {items : List α} {groups : List (κ × List α)}
    (hgroups : Groups keyOf items groups) (item : α) :
    Groups keyOf (items ++ [item]) (pushAt (keyOf item) item groups) where
  ascending := pushAt_ascending hgroups.ascending
  group entry hentry := by
    rw [List.filter_append]
    obtain ⟨hother, hold⟩ | ⟨hkey, hgroup⟩ := pushAt_group hgroups.ascending hentry
    · obtain ⟨hitems, hne⟩ := hgroups.group entry hold
      rw [List.filter_cons_of_neg (by simpa using Ne.symm hother), List.filter_nil, List.append_nil]
      exact ⟨hitems, hne⟩
    · rw [List.filter_cons_of_pos (by simpa using hkey.symm), List.filter_nil, hkey]
      obtain ⟨group, hmem, hpushed⟩ | ⟨hnone, hpushed⟩ := hgroup
      · have hitems : group = items.filter (keyOf · = keyOf item) := (hgroups.group _ hmem).1
        rw [hpushed, hitems]
        exact ⟨rfl, by simp⟩
      · have hempty : items.filter (keyOf · = keyOf item) = [] := by
          refine List.filter_eq_nil_iff.mpr fun other hother heq => ?_
          obtain ⟨old, hold, hsame⟩ := hgroups.covers other hother
          exact hnone old hold (hsame.trans (of_decide_eq_true heq))
        rw [hpushed, hempty]
        exact ⟨rfl, by simp⟩
  covers other hother := by
    obtain hold | hnew := List.mem_append.mp hother
    · exact pushAt_keeps_key (hgroups.covers other hold)
    · rw [List.mem_singleton.mp hnew]
      exact pushAt_opens _ _ _

theorem groupUnder_groups (keyOf : α → κ) (items : List α) :
    Groups keyOf items (groupUnder keyOf items) := by
  induction items using List.reverseRecOn with
  | nil => exact .nil keyOf
  | append_singleton items item ih =>
    rw [groupUnder, List.foldl_append]
    exact ih.push item

namespace Groups

variable {keyOf : α → κ} {items : List α} {groups : List (κ × List α)}

theorem mem_group (hgroups : Groups keyOf items groups) {entry : κ × List α}
    (hentry : entry ∈ groups) {item : α} :
    item ∈ entry.2 ↔ item ∈ items ∧ keyOf item = entry.1 := by
  rw [(hgroups.group entry hentry).1, List.mem_filter, decide_eq_true_iff]

theorem keys_nodup (hgroups : Groups keyOf items groups) : (groups.map Prod.fst).Nodup :=
  List.pairwise_map.mpr (hgroups.ascending.imp fun hless => hless.ne)

end Groups

end

end Resocks5.Foundation
