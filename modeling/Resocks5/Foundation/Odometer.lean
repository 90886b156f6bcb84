import Mathlib.Data.List.Nodup

namespace Resocks5.Foundation

/-! A wheel of an odometer: a non-empty list of items, one of which shows. -/

structure Wheel (α : Type u) where
  items : List α
  index : Nat
  valid : index < items.length

namespace Wheel

variable {α : Type u}

def current (wheel : Wheel α) : α :=
  wheel.items.get ⟨wheel.index, wheel.valid⟩

def ahead (wheel : Wheel α) : List α :=
  wheel.items.drop (wheel.index + 1)

def first (wheel : Wheel α) : Wheel α :=
  ⟨wheel.items, 0, Nat.zero_lt_of_lt wheel.valid⟩

/-- One notch forward; past the last item the wheel shows its first and carries. -/
def turn (wheel : Wheel α) : Wheel α × Bool :=
  if h : wheel.index + 1 < wheel.items.length then
    (⟨wheel.items, wheel.index + 1, h⟩, false)
  else
    (wheel.first, true)

@[simp] theorem first_items (wheel : Wheel α) : wheel.first.items = wheel.items := rfl

@[simp] theorem turn_items (wheel : Wheel α) : wheel.turn.1.items = wheel.items := by
  unfold turn
  split <;> rfl

theorem drop_index (wheel : Wheel α) :
    wheel.items.drop wheel.index = wheel.current :: wheel.ahead := by
  exact List.drop_eq_getElem_cons wheel.valid

theorem first_shows (wheel : Wheel α) :
    wheel.first.current :: wheel.first.ahead = wheel.items := by
  rw [← drop_index]
  rfl

theorem turn_carry {wheel : Wheel α} (hcarry : wheel.turn.2 = true) :
    wheel.ahead = [] ∧ wheel.turn.1 = wheel.first := by
  unfold turn at hcarry ⊢
  split at hcarry
  · cases hcarry
  · rename_i hlast
    rw [dif_neg hlast]
    exact ⟨List.drop_eq_nil_of_le (Nat.le_of_not_lt hlast), rfl⟩

theorem turn_next {wheel : Wheel α} (hnext : wheel.turn.2 = false) :
    wheel.ahead = wheel.turn.1.current :: wheel.turn.1.ahead := by
  rw [← drop_index]
  unfold turn at hnext ⊢
  split at hnext
  · rename_i hlt
    rw [dif_pos hlt]
    rfl
  · cases hnext

end Wheel

/-! Wheels side by side, the last one fastest. -/

namespace Odometer

variable {α : Type u}

def showing (wheels : List (Wheel α)) : List α :=
  wheels.map Wheel.current

/-- Every combination of one item per wheel, in lexicographic order. -/
def product : List (List α) → List (List α)
  | [] => [[]]
  | items :: rest =>
    items.flatMap fun item => (product rest).map (item :: ·)

def remaining : List (Wheel α) → List (List α)
  | [] => [[]]
  | wheel :: rest =>
    (remaining rest).map (wheel.current :: ·) ++
      wheel.ahead.flatMap fun item =>
        (product (rest.map Wheel.items)).map (item :: ·)

def advance : List (Wheel α) → List (Wheel α) × Bool
  | [] => ([], true)
  | wheel :: rest =>
    let (rest, carry) := advance rest
    if carry then
      let (wheel, carry) := wheel.turn
      (wheel :: rest, carry)
    else
      (wheel :: rest, false)

/-- Leave every combination that shares the first `position + 1` items. -/
def jump : Nat → List (Wheel α) → List (Wheel α) × Bool
  | _, [] => ([], true)
  | 0, wheel :: rest =>
    let (wheel, carry) := wheel.turn
    (wheel :: rest.map Wheel.first, carry)
  | position + 1, wheel :: rest =>
    let (rest, carry) := jump position rest
    if carry then
      let (wheel, carry) := wheel.turn
      (wheel :: rest, carry)
    else
      (wheel :: rest, false)

def left (moved : List (Wheel α) × Bool) : List (List α) :=
  if moved.2 then [] else remaining moved.1

theorem product_nodup {lists : List (List α)} (hnodup : ∀ items ∈ lists, items.Nodup) :
    (product lists).Nodup := by
  induction lists with
  | nil => simp [product]
  | cons items rest ih =>
      have hrest := ih fun items hitems => hnodup items (List.mem_cons_of_mem _ hitems)
      refine List.nodup_flatMap.mpr ⟨?_, ?_⟩
      · intro item _
        exact hrest.map (List.cons_injective)
      · refine (hnodup items List.mem_cons_self).imp ?_
        intro a b hne combination ha hb
        obtain ⟨_, _, rfl⟩ := List.mem_map.mp ha
        obtain ⟨_, _, heq⟩ := List.mem_map.mp hb
        exact hne (List.cons.inj heq).1.symm

theorem product_map {β : Type v} (f : α → β) (lists : List (List α)) :
    product (lists.map (List.map f)) = (product lists).map (List.map f) := by
  induction lists with
  | nil => rfl
  | cons items rest ih =>
      simp only [List.map_cons, product, ih, List.flatMap_map, List.map_flatMap,
        List.map_map]
      rfl

theorem mem_product {lists : List (List α)} {combination : List α} :
    combination ∈ product lists ↔
      List.Forall₂ (fun item items => item ∈ items) combination lists := by
  induction lists generalizing combination with
  | nil => simp [product]
  | cons items rest ih =>
      constructor
      · intro hmem
        obtain ⟨item, hitem, hmem⟩ := List.mem_flatMap.mp hmem
        obtain ⟨tail, htail, rfl⟩ := List.mem_map.mp hmem
        exact .cons hitem (ih.mp htail)
      · intro hmem
        cases hmem with
        | cons hitem htail =>
            exact List.mem_flatMap.mpr
              ⟨_, hitem, List.mem_map.mpr ⟨_, ih.mpr htail, rfl⟩⟩

theorem product_eq_nil {lists : List (List α)} (hempty : [] ∈ lists) :
    product lists = [] := by
  induction lists with
  | nil => cases hempty
  | cons items rest ih =>
      cases hempty with
      | head => rfl
      | tail _ hrest => simp [product, ih hrest]

theorem remaining_first (wheels : List (Wheel α)) :
    remaining (wheels.map Wheel.first) = product (wheels.map Wheel.items) := by
  induction wheels with
  | nil => rfl
  | cons wheel rest ih =>
      have hitems : (rest.map Wheel.first).map Wheel.items = rest.map Wheel.items := by
        simp
      simp only [List.map_cons, remaining, product, hitems, ih]
      rw [← wheel.first_shows, List.flatMap_cons]

/-- The cursor splits the product: nothing before it comes back. -/
theorem remaining_suffix (wheels : List (Wheel α)) :
    remaining wheels <:+ product (wheels.map Wheel.items) := by
  induction wheels with
  | nil => exact List.suffix_refl _
  | cons wheel rest ih =>
      obtain ⟨passed, hpassed⟩ := ih
      have hsplit : wheel.items =
          wheel.items.take wheel.index ++ wheel.current :: wheel.ahead := by
        rw [← wheel.drop_index, List.take_append_drop]
      refine ⟨((wheel.items.take wheel.index).flatMap fun item =>
        (product (rest.map Wheel.items)).map (item :: ·)) ++
          passed.map (wheel.current :: ·), ?_⟩
      simp only [List.map_cons, remaining, product]
      conv_rhs => rw [hsplit]
      rw [List.flatMap_append, List.flatMap_cons]
      rw [← hpassed, List.map_append]
      simp only [List.append_assoc]

private theorem turn_left (wheel : Wheel α) (rest : List (Wheel α)) :
    (wheel.ahead.flatMap fun item =>
        (product (rest.map Wheel.items)).map (item :: ·)) =
      left (wheel.turn.1 :: rest.map Wheel.first, wheel.turn.2) := by
  cases hcarry : wheel.turn.2 with
  | true => simp [left, (Wheel.turn_carry hcarry).1]
  | false =>
      have hitems : (rest.map Wheel.first).map Wheel.items = rest.map Wheel.items := by
        simp
      simp only [left, Bool.false_eq_true, if_false, remaining, hitems]
      rw [remaining_first, Wheel.turn_next hcarry, List.flatMap_cons]

theorem advance_carry {wheels : List (Wheel α)} (hcarry : (advance wheels).2 = true) :
    (advance wheels).1 = wheels.map Wheel.first := by
  induction wheels with
  | nil => rfl
  | cons wheel rest ih =>
      cases hrest : (advance rest).2 with
      | false => simp [advance, hrest] at hcarry
      | true =>
          simp only [advance, hrest, if_true] at hcarry ⊢
          rw [ih hrest, (Wheel.turn_carry hcarry).2, List.map_cons]

theorem jump_carry {position : Nat} {wheels : List (Wheel α)}
    (hcarry : (jump position wheels).2 = true) :
    (jump position wheels).1 = wheels.map Wheel.first := by
  induction wheels generalizing position with
  | nil => simp [jump]
  | cons wheel rest ih =>
      cases position with
      | zero =>
          simp only [jump] at hcarry ⊢
          rw [(Wheel.turn_carry hcarry).2, List.map_cons]
      | succ position =>
          cases hrest : (jump position rest).2 with
          | false => simp [jump, hrest] at hcarry
          | true =>
              simp only [jump, hrest, if_true] at hcarry ⊢
              rw [ih hrest, (Wheel.turn_carry hcarry).2, List.map_cons]

theorem left_cons_of_carry (wheel : Wheel α) {rest : List (Wheel α)}
    {moved : List (Wheel α) × Bool} (hfirst : moved.2 = true → moved.1 = rest.map Wheel.first)
    (hitems : moved.1.map Wheel.items = rest.map Wheel.items) :
    (left moved).map (wheel.current :: ·) ++
        (wheel.ahead.flatMap fun item =>
          (product (rest.map Wheel.items)).map (item :: ·)) =
      left (if moved.2 then (wheel.turn.1 :: moved.1, wheel.turn.2)
        else (wheel :: moved.1, false)) := by
  cases hcarry : moved.2 with
  | true =>
      rw [turn_left, hfirst hcarry]
      simp [left, hcarry]
  | false =>
      simp [left, hcarry, remaining, hitems]

@[simp] theorem advance_items (wheels : List (Wheel α)) :
    (advance wheels).1.map Wheel.items = wheels.map Wheel.items := by
  induction wheels with
  | nil => rfl
  | cons wheel rest ih =>
      simp only [advance]
      split <;> simp [ih]

@[simp] theorem jump_items (position : Nat) (wheels : List (Wheel α)) :
    (jump position wheels).1.map Wheel.items = wheels.map Wheel.items := by
  induction wheels generalizing position with
  | nil => simp [jump]
  | cons wheel rest ih =>
      cases position with
      | zero => simp [jump]
      | succ position =>
          simp only [jump]
          split <;> simp [ih]

theorem remaining_advance (wheels : List (Wheel α)) :
    remaining wheels = showing wheels :: left (advance wheels) := by
  induction wheels with
  | nil => rfl
  | cons wheel rest ih =>
      have hmove := left_cons_of_carry wheel advance_carry
        (advance_items rest)
      rw [remaining, ih, List.map_cons, List.cons_append, hmove]
      rfl

theorem remaining_jump {position : Nat} {wheels : List (Wheel α)}
    (hposition : position < wheels.length) :
    ∃ passed, remaining wheels = passed ++ left (jump position wheels) ∧ passed ≠ [] ∧
      ∀ combination ∈ passed, combination[position]? = (showing wheels)[position]? := by
  induction wheels generalizing position with
  | nil => cases hposition
  | cons wheel rest ih =>
      cases position with
      | zero =>
          refine ⟨(remaining rest).map (wheel.current :: ·), ?_, ?_, ?_⟩
          · rw [remaining, turn_left]
            rfl
          · rw [remaining_advance]
            exact List.cons_ne_nil _ _
          · intro combination hmem
            obtain ⟨tail, _, rfl⟩ := List.mem_map.mp hmem
            rfl
      | succ position =>
          obtain ⟨passed, hsplit, hne, hshare⟩ := ih (Nat.lt_of_succ_lt_succ hposition)
          have hmove := left_cons_of_carry wheel jump_carry
            (jump_items position rest)
          refine ⟨passed.map (wheel.current :: ·), ?_, ?_, ?_⟩
          · rw [remaining, hsplit, List.map_append, List.append_assoc, hmove]
            rfl
          · simpa using hne
          · intro combination hmem
            obtain ⟨tail, htail, rfl⟩ := List.mem_map.mp hmem
            simpa [showing] using hshare tail htail

end Odometer

end Resocks5.Foundation
