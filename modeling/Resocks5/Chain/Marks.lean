import Resocks5.Chain.Enumeration

namespace Resocks5.Chain

open Resocks5.Foundation
open Resocks5.Types

/-! Marks: the live counts follow the dead set, and never underflow. -/

namespace Layer

def Counted (dead : List ChainKey) (stock : List Candidate × Nat) : Prop :=
  stock.2 = stock.1.countP (fun candidate => !dead.contains candidate.key) ∧
    (stock.1.map (·.key)).Nodup

def discount (key : ChainKey) (layer : Layer) : Layer :=
  if layer.holds key then { layer with live := layer.live - 1 } else layer

@[simp] theorem discount_candidates (key : ChainKey) (layer : Layer) :
    (layer.discount key).candidates = layer.candidates := by
  unfold discount
  split <;> rfl

@[simp] theorem discount_index (key : ChainKey) (layer : Layer) :
    (layer.discount key).index = layer.index := by
  unfold discount
  split <;> rfl

@[simp] theorem discount_holds (key other : ChainKey) (layer : Layer) :
    (layer.discount key).holds other = layer.holds other := by
  simp [holds]

theorem new_counted (hops : List Hop) : Counted [] (new hops).stock := by
  refine ⟨?_, (deduplicate_nodup [] hops).1⟩
  simp [new, stock]

theorem countP_mark {key : ChainKey} {dead : List ChainKey} (hfresh : key ∉ dead)
    {candidates : List Candidate} (hnodup : (candidates.map (·.key)).Nodup) :
    candidates.countP (fun candidate => !dead.contains candidate.key) =
      candidates.countP (fun candidate => !(key :: dead).contains candidate.key) +
        if candidates.any (fun candidate => candidate.key == key) then 1 else 0 := by
  induction candidates with
  | nil => rfl
  | cons candidate rest ih =>
      obtain ⟨hapart, hrest⟩ := List.nodup_cons.mp hnodup
      rw [List.countP_cons, List.countP_cons, List.any_cons, ih hrest]
      by_cases hsame : candidate.key = key
      · have hnone : rest.any (fun candidate => candidate.key == key) = false := by
          rw [List.any_eq_false]
          intro other hother heq
          exact hapart (List.mem_map.mpr
            ⟨other, hother, (ChainKey.eq_iff.mp heq).trans hsame.symm⟩)
        simp [hsame, hnone, hfresh]
      · have hother : (candidate.key == key) = false := by simpa using hsame
        simp only [List.contains_cons, hother, Bool.false_or]
        omega

theorem live_mark {key : ChainKey} {dead : List ChainKey} {layer : Layer}
    (hfresh : key ∉ dead) (hcounted : Counted dead layer.stock) :
    layer.live =
      layer.candidates.countP (fun candidate => !(key :: dead).contains candidate.key) +
        if layer.holds key then 1 else 0 :=
  hcounted.1.trans (countP_mark hfresh hcounted.2)

theorem counted_live_pos {key : ChainKey} {dead : List ChainKey} {layer : Layer}
    (hfresh : key ∉ dead) (hcounted : Counted dead layer.stock)
    (hholds : layer.holds key = true) : layer.live ≠ 0 := by
  have hcount := live_mark hfresh hcounted
  rw [if_pos hholds] at hcount
  omega

theorem discount_counted {key : ChainKey} {dead : List ChainKey} {layer : Layer}
    (hfresh : key ∉ dead) (hcounted : Counted dead layer.stock) :
    Counted (key :: dead) (layer.discount key).stock := by
  have hcount := live_mark hfresh hcounted
  constructor
  · simp only [stock, discount_candidates]
    unfold discount
    cases hholds : layer.holds key with
    | true =>
        rw [if_pos hholds] at hcount
        simp only [if_true]
        omega
    | false =>
        rw [hholds] at hcount
        simpa using hcount
  · simpa [stock] using hcounted.2

theorem mapM_markDead {key : ChainKey} {layers : List Layer}
    (hlive : ∀ layer ∈ layers, layer.holds key = true → layer.live ≠ 0) :
    layers.mapM (markDead key) = some (layers.map (discount key)) := by
  induction layers with
  | nil => rfl
  | cons layer rest ih =>
      have hmark : layer.markDead key = some (layer.discount key) := by
        unfold markDead discount
        cases hholds : layer.holds key with
        | true => simp [hlive layer List.mem_cons_self hholds]
        | false => simp
      rw [List.mapM_cons, hmark, ih fun other hother =>
        hlive other (List.mem_cons_of_mem _ hother)]
      rfl

end Layer

def ChainPlan.Counted (plan : ChainPlan) : Prop :=
  ∀ layer ∈ plan.layers, Layer.Counted plan.dead layer.stock

namespace ChainPlan

theorem new_counted (gates exits : List PickOrder) : (new gates exits).Counted := by
  intro layer hlayer
  obtain hgate | hexit := List.mem_append.mp hlayer
  · obtain ⟨gate, _, rfl⟩ := List.mem_map.mp hgate
    exact Layer.new_counted gate.hops
  · obtain rfl := List.mem_singleton.mp hexit
    exact Layer.new_counted _

theorem Counted.of_frame {plan plan' : ChainPlan} (hcounted : plan.Counted)
    (hstock : plan'.layers.map Layer.stock = plan.layers.map Layer.stock)
    (hdead : plan'.dead = plan.dead) : plan'.Counted := by
  intro layer hlayer
  have hmem : layer.stock ∈ plan'.layers.map Layer.stock := List.mem_map_of_mem hlayer
  rw [hstock] at hmem
  obtain ⟨old, hold, heq⟩ := List.mem_map.mp hmem
  rw [hdead, ← heq]
  exact hcounted old hold

theorem markDead_eq {plan : ChainPlan} (hcounted : plan.Counted) {proxy : ProxyConfig}
    (hfresh : singletonKey proxy ∉ plan.dead) :
    plan.markDead proxy = some { plan with
      layers := plan.layers.map (Layer.discount (singletonKey proxy))
      dead := singletonKey proxy :: plan.dead
      done := plan.done || (plan.layers.map (Layer.discount (singletonKey proxy))).any
        fun layer => layer.holds (singletonKey proxy) && layer.live == 0 } := by
  have hmarks := Layer.mapM_markDead fun layer hlayer =>
    Layer.counted_live_pos hfresh (hcounted layer hlayer)
  rw [markDead, if_neg (by simpa using hfresh), hmarks]
  rfl

theorem markDead_counted {plan : ChainPlan} (hcounted : plan.Counted) (proxy : ProxyConfig) :
    ∃ plan', plan.markDead proxy = some plan' ∧ plan'.Counted ∧
      plan'.layers.map (·.candidates) = plan.layers.map (·.candidates) ∧
      plan'.dead = plan.dead.insert (singletonKey proxy) ∧ plan'.seen = plan.seen := by
  by_cases hknown : singletonKey proxy ∈ plan.dead
  · refine ⟨plan, ?_, hcounted, rfl, (List.insert_of_mem hknown).symm, rfl⟩
    rw [markDead, if_pos (List.contains_iff_mem.mpr hknown)]
  · rw [markDead_eq hcounted hknown]
    refine ⟨_, rfl, ?_, by simp, (List.insert_of_not_mem hknown).symm, rfl⟩
    intro layer hlayer
    obtain ⟨old, hold, rfl⟩ := List.mem_map.mp hlayer
    exact Layer.discount_counted hknown (hcounted old hold)

end ChainPlan

end Resocks5.Chain
