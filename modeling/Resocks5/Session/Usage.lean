import Resocks5.Rating.Selection
import Resocks5.Session.Rotator

namespace Resocks5.Session

open Resocks5.Foundation
open Resocks5.Rating
open Resocks5.Types

/-! Whatever is done to a rotator is a run of rating operations. -/

theorem mapM_getElem {α : Type u} {items : List α} {order : List Nat}
    (hbound : ∀ i ∈ order, i < items.length) :
    ∃ picked, (order.mapM fun i => items[i]?) = some picked ∧ picked.length = order.length := by
  induction order with
  | nil => exact ⟨[], rfl, rfl⟩
  | cons i rest ih =>
      obtain ⟨picked, hpicked, hlength⟩ := ih fun j hj => hbound j (List.mem_cons_of_mem _ hj)
      have hlt := hbound i List.mem_cons_self
      have hi := List.getElem?_eq_getElem hlt
      refine ⟨items[i] :: picked, ?_, ?_⟩
      · rw [List.mapM_cons, hi, hpicked]
        rfl
      · rw [List.length_cons, List.length_cons, hlength]

theorem mapM_getElem_mem {α : Type u} {items picked : List α} {order : List Nat}
    (hpicked : (order.mapM fun i => items[i]?) = some picked) : ∀ item ∈ picked, item ∈ items := by
  induction order generalizing picked with
  | nil =>
      cases hpicked
      exact fun _ hitem => by cases hitem
  | cons i order ih =>
      rw [List.mapM_cons] at hpicked
      obtain ⟨first, hfirst, hrest⟩ := Option.bind_eq_some_iff.mp hpicked
      obtain ⟨rest, hmap, heq⟩ := Option.bind_eq_some_iff.mp hrest
      cases heq
      intro item hitem
      obtain rfl | hlater := List.mem_cons.mp hitem
      · exact List.mem_of_getElem? hfirst
      · exact ih hmap item hlater

namespace Rotator

variable {ρ : Type u} {arith : FloatArith} {rng : Rng ρ}

def Whole (rotator : Rotator ρ) : Prop :=
  rotator.ratings.inner.cells.length = rotator.proxies.length

def use (arith : FloatArith) (rng : Rng ρ) (rotator : Rotator ρ) (ops : List Op) : Rotator ρ :=
  { rotator with ratings := rotator.ratings.applyAll arith rng ops }

def Uses (arith : FloatArith) (rng : Rng ρ) (before after : Rotator ρ) : Prop :=
  ∃ ops, after = before.use arith rng ops

theorem Uses.refl (rotator : Rotator ρ) : Uses arith rng rotator rotator := ⟨[], rfl⟩

theorem Uses.trans {a b c : Rotator ρ} (hab : Uses arith rng a b) (hbc : Uses arith rng b c) :
    Uses arith rng a c := by
  obtain ⟨first, rfl⟩ := hab
  obtain ⟨second, rfl⟩ := hbc
  exact ⟨first ++ second, by simp [use, Ratings.applyAll]⟩

theorem Uses.proxies {before after : Rotator ρ} (huses : Uses arith rng before after) :
    after.proxies = before.proxies := by
  obtain ⟨ops, rfl⟩ := huses
  rfl

theorem Uses.whole {before after : Rotator ρ} (huses : Uses arith rng before after)
    (hwhole : before.Whole) : after.Whole := by
  obtain ⟨ops, rfl⟩ := huses
  have hlength := (Ratings.applyAll_cell arith rng (fun _ _ _ => True) ops before.ratings
    (fun _ _ _ _ _ => trivial) (fun _ _ _ => trivial)).2.1
  exact hlength.trans hwhole

theorem recordFailure_uses (arith : FloatArith) (rng : Rng ρ) (rotator : Rotator ρ)
    (proxy : ProxyConfig) (now : Instant) :
    Uses arith rng rotator (rotator.recordFailure arith proxy now) := by
  unfold recordFailure
  split
  · exact Uses.refl rotator
  · rename_i i _
    exact ⟨[.failure i now], rfl⟩

theorem recordHardFailure_uses (arith : FloatArith) (rng : Rng ρ) (rotator : Rotator ρ)
    (proxy : ProxyConfig) (now : Instant) :
    Uses arith rng rotator (rotator.recordHardFailure arith proxy now).2 := by
  unfold recordHardFailure
  split
  · exact Uses.refl rotator
  · rename_i i _
    exact ⟨[.hardFailure i now], rfl⟩

theorem recordError_uses (arith : FloatArith) (rng : Rng ρ) (rotator : Rotator ρ)
    (proxy : ProxyConfig) (err : ConnectError) (now : Instant) :
    Uses arith rng rotator (rotator.recordError arith proxy err now).2 := by
  unfold recordError
  split
  · exact Uses.refl rotator
  · split
    · exact recordHardFailure_uses arith rng rotator proxy now
    · exact recordFailure_uses arith rng rotator proxy now

theorem recordSuccess_uses (arith : FloatArith) (rng : Rng ρ) (rotator : Rotator ρ)
    (proxy : ProxyConfig) (now : Instant) :
    Uses arith rng rotator (rotator.recordSuccess arith proxy now) := by
  unfold recordSuccess
  split
  · exact Uses.refl rotator
  · rename_i i _
    exact ⟨[.success i now], rfl⟩

theorem pickOrder_uses (arith : FloatArith) (rng : Rng ρ) (rotator : Rotator ρ)
    (now : Instant) : Uses arith rng rotator (rotator.pickOrder arith rng now).2 :=
  ⟨[.pickOrder now], rfl⟩

/-- A pick order exists, of the rotator's own upstreams, and is empty only if it has none. -/
theorem pickOrder_spec {rotator : Rotator ρ} (hwhole : rotator.Whole) (now : Instant) :
    ∃ order, (rotator.pickOrder arith rng now).1 = some order ∧
      (∀ proxy ∈ order, proxy ∈ rotator.proxies) ∧ (rotator.proxies ≠ [] → order ≠ []) := by
  obtain ⟨order, horder, hperm⟩ : ∃ order,
      (rotator.ratings.pickOrder arith rng now).1 = some order ∧
        order.Perm (rotator.ratings.eligible now) := Ratings.pickOrder_perm rotator.ratings now
  have hbound : ∀ i ∈ order, i < rotator.proxies.length := by
    intro i hi
    rw [← hwhole]
    exact (Ratings.mem_eligible.mp (hperm.mem_iff.mp hi)).1
  obtain ⟨picked, hpicked, hlength⟩ := mapM_getElem hbound
  refine ⟨picked, ?_, mapM_getElem_mem hpicked, fun hne hnil => ?_⟩
  · simp only [pickOrder, horder, Option.bind_some]
    exact hpicked
  · rw [hnil] at hlength
    have hempty : order = [] := List.length_eq_zero_iff.mp hlength.symm
    rw [hempty] at hperm
    have hpos : 0 < rotator.ratings.inner.cells.length := by
      rw [hwhole]
      exact List.length_pos_iff.mpr hne
    exact Ratings.eligible_ne_nil hpos hperm.nil_eq.symm

end Rotator

end Resocks5.Session
