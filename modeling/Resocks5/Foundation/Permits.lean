import Mathlib.Data.Set.Card

namespace Resocks5.Foundation

/-! Semaphores and mutexes of tasks, and who waits for whom. -/

section

variable {τ : Type u}

/-- The permits that are out, one for each task that has one, and those left are all there are. -/
def Balanced (held : τ → Bool) (free total : Nat) : Prop :=
  {t | held t = true}.encard + free = total

def Owned (held : τ → Bool) (owner : Option τ) : Prop := ∀ t, owner = some t ↔ held t = true

/-- What a task that has a permit, or none, and then one or none, does to those left. -/
inductive Trade : Bool → Bool → Nat → Nat → Prop
  | keep (b : Bool) (free : Nat) : Trade b b free free
  | take {free : Nat} (hfree : free ≠ 0) : Trade false true free (free - 1)
  | give (free : Nat) : Trade true false free (free + 1)

inductive Handover (t : τ) : Bool → Bool → Option τ → Option τ → Prop
  | keep (b : Bool) (owner : Option τ) : Handover t b b owner owner
  | lock : Handover t false true none (some t)
  | unlock (owner : Option τ) : Handover t true false owner none

section

variable {held held' : τ → Bool} {t : τ}

theorem held_insert (htake : held' t = true) (hothers : ∀ u, u ≠ t → held' u = held u) :
    {u | held' u = true} = insert t {u | held u = true} := by
  ext u
  by_cases hu : u = t
  · subst hu
    exact iff_of_true htake (Set.mem_insert u _)
  · rw [Set.mem_ofPred_eq, hothers u hu, Set.mem_insert_iff, Set.mem_ofPred_eq, or_iff_right hu]

theorem held_remove (hgive : held' t = false) (hothers : ∀ u, u ≠ t → held' u = held u) :
    {u | held' u = true} = {u | held u = true} \ {t} := by
  ext u
  by_cases hu : u = t
  · subst hu
    refine iff_of_false (fun hmem => ?_) fun hmem => hmem.2 rfl
    rw [Set.mem_ofPred_eq, hgive] at hmem
    cases hmem
  · rw [Set.mem_ofPred_eq, hothers u hu, Set.mem_sdiff, Set.mem_ofPred_eq, Set.mem_singleton_iff,
      and_iff_left hu]

theorem held_same (hsame : held' t = held t) (hothers : ∀ u, u ≠ t → held' u = held u) :
    held' = held := by
  funext u
  by_cases hu : u = t
  · rw [hu, hsame]
  · exact hothers u hu

end

namespace Balanced

variable {held held' : τ → Bool} {free free' total : Nat} {t : τ}

theorem none_held (hnone : ∀ t, held t = false) : Balanced held total total := by
  have hempty : {t | held t = true} = ∅ := Set.eq_empty_of_forall_notMem fun t hmem => by
    rw [Set.mem_ofPred_eq, hnone] at hmem
    cases hmem
  rw [Balanced, hempty, Set.encard_empty, zero_add]

theorem le (hbalanced : Balanced held free total) : {t | held t = true}.encard ≤ total := by
  rw [Balanced] at hbalanced
  rw [← hbalanced]
  exact le_self_add

theorem trade (hbalanced : Balanced held free total) (htrade : Trade (held t) (held' t) free free')
    (hothers : ∀ u, u ≠ t → held' u = held u) : Balanced held' free' total := by
  generalize hbefore : held t = before at htrade
  generalize hafter : held' t = after at htrade
  cases htrade with
  | keep =>
      rw [held_same (hafter.trans hbefore.symm) hothers]
      exact hbalanced
  | take hfree =>
      obtain ⟨less, rfl⟩ := Nat.exists_eq_succ_of_ne_zero hfree
      have hnew : t ∉ {u | held u = true} := by simp [hbefore]
      rw [Balanced] at hbalanced ⊢
      rw [held_insert hafter hothers, Set.encard_insert_of_notMem hnew, ← hbalanced,
        Nat.succ_sub_one, Nat.succ_eq_add_one, Nat.cast_add, Nat.cast_one, add_assoc, add_comm 1]
  | give =>
      have hmem : t ∈ {u | held u = true} := hbefore
      rw [Balanced] at hbalanced ⊢
      rw [held_remove hafter hothers, ← hbalanced, ← Set.encard_sdiff_singleton_add_one hmem,
        Nat.cast_add, Nat.cast_one, add_assoc, add_comm 1]

theorem all_free (hbalanced : Balanced held free total) (hnone : ∀ t, held t = false) :
    free = total := by
  have hall : Balanced held total total := none_held hnone
  rw [Balanced] at hbalanced hall
  have hempty : {t | held t = true} = ∅ := Set.eq_empty_of_forall_notMem fun t hmem => by
    rw [Set.mem_ofPred_eq, hnone] at hmem
    cases hmem
  rw [hempty, Set.encard_empty, zero_add] at hbalanced
  exact_mod_cast hbalanced

theorem exists_holder (hbalanced : Balanced held 0 total) (htotal : 0 < total) :
    ∃ t, held t = true := by
  by_contra hnone
  refine absurd (hbalanced.all_free fun t => ?_) (Nat.ne_of_lt htotal)
  cases hheld : held t with
  | false => rfl
  | true => exact absurd ⟨t, hheld⟩ hnone

end Balanced

namespace Owned

variable {held held' : τ → Bool} {owner owner' : Option τ} {t u : τ}

theorem unique (howned : Owned held owner) (ht : held t = true) (hu : held u = true) : t = u :=
  Option.some.inj (((howned t).mpr ht).symm.trans ((howned u).mpr hu))

theorem handover (howned : Owned held owner)
    (hover : Handover t (held t) (held' t) owner owner')
    (hothers : ∀ u, u ≠ t → held' u = held u) : Owned held' owner' := by
  generalize hbefore : held t = before at hover
  generalize hafter : held' t = after at hover
  cases hover with
  | keep =>
      rw [held_same (hafter.trans hbefore.symm) hothers]
      exact howned
  | lock =>
      intro u
      by_cases hu : u = t
      · rw [hu, hafter]
        exact iff_of_true rfl rfl
      · rw [hothers u hu, ← howned u]
        exact iff_of_false (fun heq => hu (Option.some.inj heq).symm) fun heq => by cases heq
  | unlock =>
      intro u
      by_cases hu : u = t
      · rw [hu, hafter]
        exact iff_of_false (fun heq => by cases heq) fun heq => by cases heq
      · rw [hothers u hu]
        refine iff_of_false (fun heq => by cases heq) fun hheld => hu ?_
        exact howned.unique hheld hbefore

theorem release [DecidableEq τ] (howned : Owned held owner) (hgone : held' t = false)
    (hothers : ∀ u, u ≠ t → held' u = held u) : Owned held' (owner.filter (· ≠ t)) := by
  refine howned.handover ?_ hothers
  rw [hgone]
  cases hheld : held t with
  | true =>
      rw [(howned t).mpr hheld, Option.filter_some, if_neg (by simp)]
      exact .unlock _
  | false =>
      have hother : owner.filter (· ≠ t) = owner := by
        cases howner : owner with
        | none => rfl
        | some u =>
            refine Option.filter_some_pos (decide_eq_true fun heq => ?_)
            rw [← heq, (howned u).mp howner] at hheld
            cases hheld
      rw [hother]
      exact .keep _ _

theorem none_held (hnone : ∀ t, held t = false) : Owned held none := fun t =>
  iff_of_false (fun heq => by cases heq) fun hheld => by
    rw [hnone] at hheld
    cases hheld

theorem free (howned : Owned held owner) (hnone : ∀ t, held t = false) : owner = none := by
  cases howner : owner with
  | none => rfl
  | some t =>
      have hheld := (howned t).mp howner
      rw [hnone] at hheld
      cases hheld

end Owned

theorem exists_ready {live ready : τ → Prop} {rank : τ → Nat} {bound : Nat}
    (hbound : ∀ t, rank t ≤ bound)
    (hwait : ∀ t, live t → ready t ∨ ∃ u, live u ∧ rank t < rank u) {t : τ} (hlive : live t) :
    ∃ u, live u ∧ ready u := by
  induction hleft : bound - rank t using Nat.strongRecOn generalizing t with
  | ind left ih =>
      obtain hready | ⟨u, hu, hrank⟩ := hwait t hlive
      · exact ⟨t, hlive, hready⟩
      · have hle := hbound u
        exact ih (bound - rank u) (by omega) hu rfl

end

end Resocks5.Foundation
