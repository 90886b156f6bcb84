import Resocks5.Foundation.Odometer
import Resocks5.Chain.Plan
import Mathlib.Algebra.BigOperators.Group.List.Basic
import Mathlib.Data.List.TakeWhile

namespace Resocks5.Chain

open Resocks5.Foundation
open Resocks5.Types

/-! The purpose of a plan: a filtered walk over the product of its layers. -/

/-- The combinations not reached yet, and the exclusions in force. -/
structure Enumeration where
  pending : List ChainPick
  dead : List ChainKey
  seen : List ChainKey

namespace Enumeration

def doomed (dead : List ChainKey) (pick : ChainPick) : Bool :=
  pick.hops.any fun hop => dead.contains (singletonKey hop.proxy)

def skips (enumeration : Enumeration) (pick : ChainPick) : Bool :=
  doomed enumeration.dead pick || enumeration.seen.contains pick.key

def next (enumeration : Enumeration) : Option ChainPick × Enumeration :=
  match enumeration.pending.dropWhile enumeration.skips with
  | [] => (none, { enumeration with pending := [] })
  | pick :: pending => (some pick, { enumeration with pending })

def call (enumeration : Enumeration) : PlanCall → PlanEvent × Enumeration
  | .nextPick =>
    match enumeration.next with
    | (some pick, enumeration) => (.yielded pick, enumeration)
    | (none, enumeration) => (.exhausted, enumeration)
  | .markDead proxy =>
    (.marked proxy,
      { enumeration with dead := enumeration.dead.insert (singletonKey proxy) })
  | .exclude key =>
    (.excluded key, { enumeration with seen := enumeration.seen.insert key })

end Enumeration

/-! The plan's cursor is an odometer over its layers. -/

def Layer.Shows (layer : Layer) (wheel : Wheel Candidate) : Prop :=
  layer.candidates = wheel.items ∧ layer.index = wheel.index

abbrev Showing (layers : List Layer) (wheels : List (Wheel Candidate)) : Prop :=
  List.Forall₂ Layer.Shows layers wheels

def ChainPlan.combinations (plan : ChainPlan) : List ChainPick :=
  (Odometer.product (plan.layers.map (·.candidates))).filterMap pickOf

/-- The first hop of each node, in the order of the hops. -/
structure Snapshot (hops : List Hop) (candidates : List Candidate) : Prop where
  ordered : (candidates.map (·.hop)).Sublist hops
  distinct : (candidates.map (·.hop.proxy.node)).Nodup
  firsts : ∀ candidate ∈ candidates,
    hops.find? (·.proxy.node == candidate.hop.proxy.node) = some candidate.hop
  whole : ∀ hop ∈ hops, ∃ candidate ∈ candidates, candidate.hop.proxy.node = hop.proxy.node

theorem deduplicate_ordered (seen : List ChainKey) (hops : List Hop) :
    ((deduplicate seen hops).map (·.hop)).Sublist hops := by
  induction hops generalizing seen with
  | nil => exact List.nil_sublist _
  | cons hop rest ih =>
      rw [deduplicate]
      split
      · exact (ih seen).cons hop
      · exact (ih _).cons_cons hop

theorem deduplicate_firsts (seen : List ChainKey) (hops : List Hop) :
    ∀ candidate ∈ deduplicate seen hops,
      hops.find? (·.proxy.node == candidate.hop.proxy.node) = some candidate.hop := by
  induction hops generalizing seen with
  | nil => exact fun candidate hmem => nomatch hmem
  | cons hop rest ih =>
      intro candidate hmem
      -- The hop in front has another node: its key is barred from what is behind it.
      have hbehind : ∀ barred, singletonKey hop.proxy ∈ barred →
          candidate ∈ deduplicate barred rest →
          (hop :: rest).find? (·.proxy.node == candidate.hop.proxy.node) = some candidate.hop := by
        intro barred hbarred hlater
        have hapart := (deduplicate_nodup barred rest).2 _ hbarred
        have hother : hop.proxy.node ≠ candidate.hop.proxy.node := by
          intro hsame
          refine hapart (List.mem_map.mpr ⟨candidate, hlater, ?_⟩)
          rw [candidate.key_eq, singletonKey_inj, hsame]
        rw [List.find?_cons_of_neg (by simpa using hother)]
        exact ih barred candidate hlater
      rw [deduplicate] at hmem
      split at hmem
      · rename_i hseen
        exact hbehind seen (List.contains_iff_mem.mp hseen) hmem
      · cases hmem with
        | head => exact List.find?_cons_of_pos (by simp)
        | tail _ hlater => exact hbehind _ List.mem_cons_self hlater

theorem deduplicate_whole (seen : List ChainKey) (hops : List Hop) :
    ∀ hop ∈ hops, singletonKey hop.proxy ∈ seen ∨
      ∃ candidate ∈ deduplicate seen hops, candidate.hop.proxy.node = hop.proxy.node := by
  induction hops generalizing seen with
  | nil => exact fun hop hmem => nomatch hmem
  | cons first rest ih =>
      intro hop hmem
      rw [deduplicate]
      split
      · rename_i hseen
        obtain rfl | hmem := List.mem_cons.mp hmem
        · exact .inl (List.contains_iff_mem.mp hseen)
        · exact ih seen hop hmem
      · obtain rfl | hmem := List.mem_cons.mp hmem
        · exact .inr ⟨_, List.mem_cons_self, rfl⟩
        · obtain hbarred | ⟨candidate, hcandidate, hnode⟩ :=
            ih (singletonKey first.proxy :: seen) hop hmem
          · obtain hsame | hseen := List.mem_cons.mp hbarred
            · exact .inr ⟨_, List.mem_cons_self, (singletonKey_inj.mp hsame).symm⟩
            · exact .inl hseen
          · exact .inr ⟨candidate, List.mem_cons_of_mem _ hcandidate, hnode⟩

theorem Layer.new_snapshot (hops : List Hop) : Snapshot hops (Layer.new hops).candidates := by
  refine ⟨deduplicate_ordered [] hops, ?_, deduplicate_firsts [] hops, fun hop hmem =>
    (deduplicate_whole [] hops hop hmem).resolve_left List.not_mem_nil⟩
  have hkeys := List.pairwise_map.mp (deduplicate_nodup [] hops).1
  refine List.pairwise_map.mpr (hkeys.imp fun {left right} hapart hsame => hapart ?_)
  rw [left.key_eq, right.key_eq, singletonKey_inj]
  exact hsame

theorem ChainPlan.new_snapshot (gates exits : List PickOrder) :
    List.Forall₂ Snapshot (gates.map PickOrder.hops ++ [exits.flatMap PickOrder.hops])
      ((ChainPlan.new gates exits).layers.map (·.candidates)) := by
  have hlayers : (ChainPlan.new gates exits).layers.map (·.candidates) =
      (gates.map PickOrder.hops ++ [exits.flatMap PickOrder.hops]).map
        fun hops => (Layer.new hops).candidates := by
    simp [ChainPlan.new]
  rw [hlayers, List.forall₂_map_right_iff, List.forall₂_same]
  exact fun hops _ => Layer.new_snapshot hops

namespace Layer

theorem Shows.current {layer : Layer} {wheel : Wheel Candidate}
    (hshows : layer.Shows wheel) : layer.current? = some wheel.current := by
  obtain ⟨hitems, hindex⟩ := hshows
  rw [current?, hitems, hindex, Wheel.current, List.get_eq_getElem]
  exact List.getElem?_eq_getElem wheel.valid

theorem Shows.rewind {layer : Layer} {wheel : Wheel Candidate}
    (hshows : layer.Shows wheel) : layer.rewind.Shows wheel.first :=
  ⟨hshows.1, rfl⟩

theorem Shows.bump {layer : Layer} {wheel : Wheel Candidate} (hshows : layer.Shows wheel) :
    layer.bump.1.Shows wheel.turn.1 ∧ layer.bump.2 = wheel.turn.2 := by
  obtain ⟨hitems, hindex⟩ := hshows
  unfold Layer.bump Wheel.turn
  rw [hitems, hindex]
  split
  · exact ⟨⟨rfl, rfl⟩, rfl⟩
  · exact ⟨⟨rfl, rfl⟩, rfl⟩

theorem showing_advance {layers : List Layer} {wheels : List (Wheel Candidate)}
    (hshowing : Showing layers wheels) :
    Showing (advance layers).1 (Odometer.advance wheels).1 ∧
      (advance layers).2 = (Odometer.advance wheels).2 := by
  induction hshowing with
  | nil => exact ⟨.nil, rfl⟩
  | cons hshows _ ih =>
      obtain ⟨hrest, hcarry⟩ := ih
      simp only [advance, Odometer.advance, hcarry]
      split
      · exact ⟨.cons hshows.bump.1 hrest, hshows.bump.2⟩
      · exact ⟨.cons hshows hrest, rfl⟩

theorem showing_jump {layers : List Layer} {wheels : List (Wheel Candidate)} (index : Nat)
    (hshowing : Showing layers wheels) :
    Showing (jumpSubtree index layers).1 (Odometer.jump index wheels).1 ∧
      (jumpSubtree index layers).2 = (Odometer.jump index wheels).2 := by
  induction hshowing generalizing index with
  | nil =>
      rw [jumpSubtree.eq_def, Odometer.jump.eq_def]
      exact ⟨.nil, rfl⟩
  | cons hshows hshowing ih =>
      cases index with
      | zero =>
          refine ⟨.cons hshows.bump.1 ?_, hshows.bump.2⟩
          rw [List.forall₂_map_left_iff, List.forall₂_map_right_iff]
          exact hshowing.imp fun _ _ hshows => hshows.rewind
      | succ index =>
          obtain ⟨hrest, hcarry⟩ := ih index
          simp only [jumpSubtree, Odometer.jump, hcarry]
          split
          · exact ⟨.cons hshows.bump.1 hrest, hshows.bump.2⟩
          · exact ⟨.cons hshows hrest, rfl⟩

theorem showing_current {layers : List Layer} {wheels : List (Wheel Candidate)}
    (hshowing : Showing layers wheels) :
    layers.mapM current? = some (Odometer.showing wheels) := by
  induction hshowing with
  | nil => rfl
  | cons hshows _ ih =>
      rw [List.mapM_cons, hshows.current, ih]
      rfl

theorem showing_items {layers : List Layer} {wheels : List (Wheel Candidate)}
    (hshowing : Showing layers wheels) :
    wheels.map Wheel.items = layers.map (·.candidates) := by
  induction hshowing with
  | nil => rfl
  | cons hshows _ ih => rw [List.map_cons, List.map_cons, ih, hshows.1]

theorem showing_dead {layers : List Layer} {wheels : List (Wheel Candidate)}
    (dead : List ChainKey) (hshowing : Showing layers wheels) :
    (deadPosition dead layers = some none ∧
        ∀ candidate ∈ Odometer.showing wheels, candidate.key ∉ dead) ∨
      ∃ position candidate, deadPosition dead layers = some (some position) ∧
        position < wheels.length ∧
        (Odometer.showing wheels)[position]? = some candidate ∧ candidate.key ∈ dead := by
  induction hshowing with
  | nil => exact .inl ⟨rfl, by simp [Odometer.showing]⟩
  | @cons layer wheel _ _ hshows _ ih =>
      rw [deadPosition, hshows.current]
      by_cases hdead : wheel.current.key ∈ dead
      · refine .inr ⟨0, wheel.current, ?_, Nat.succ_pos _, rfl, hdead⟩
        simp [hdead]
      · have hlive : dead.contains wheel.current.key = false := by simpa using hdead
        simp only [hlive, Bool.false_eq_true, if_false]
        obtain ⟨hnone, hall⟩ | ⟨position, candidate, hsome, hlt, hat, hmem⟩ := ih
        · refine .inl ⟨by rw [hnone]; rfl, ?_⟩
          intro candidate hcandidate
          cases hcandidate with
          | head => exact hdead
          | tail _ hrest => exact hall candidate hrest
        · refine .inr ⟨position + 1, candidate, by rw [hsome]; rfl, ?_, hat, hmem⟩
          exact Nat.succ_lt_succ hlt

end Layer

theorem doomed_of_candidate {dead : List ChainKey} {combination : List Candidate}
    {pick : ChainPick} {candidate : Candidate} (hpick : pickOf combination = some pick)
    (hmem : candidate ∈ combination) (hdead : candidate.key ∈ dead) :
    Enumeration.doomed dead pick = true := by
  rw [Enumeration.doomed, pickOf_hops hpick, List.any_eq_true]
  refine ⟨candidate.hop, List.mem_map_of_mem hmem, ?_⟩
  rw [← candidate.key_eq]
  exact List.contains_iff_mem.mpr hdead

theorem not_doomed_of_candidates {dead : List ChainKey} {combination : List Candidate}
    {pick : ChainPick} (hpick : pickOf combination = some pick)
    (hlive : ∀ candidate ∈ combination, candidate.key ∉ dead) :
    Enumeration.doomed dead pick = false := by
  rw [Enumeration.doomed, pickOf_hops hpick, List.any_eq_false]
  intro hop hhop
  obtain ⟨candidate, hmem, rfl⟩ := List.mem_map.mp hhop
  rw [← candidate.key_eq, List.contains_iff_mem]
  exact hlive candidate hmem

/-! The plan refines the enumeration of what its odometer has left. -/

/-- How a plan stands for an enumeration: while open through its cursor, once done because
nothing pending can be yielded. -/
structure Refines (plan : ChainPlan) (enumeration : Enumeration) : Prop where
  dead : plan.dead = enumeration.dead
  seen : plan.seen = enumeration.seen
  layered : plan.layers ≠ []
  running : plan.done = false → ∃ wheels, Showing plan.layers wheels ∧
    enumeration.pending = (Odometer.remaining wheels).filterMap pickOf
  finished : plan.done = true →
    ∀ pick ∈ enumeration.pending, Enumeration.doomed enumeration.dead pick = true

def ChainPlan.workBound (plan : ChainPlan) : Nat :=
  (plan.layers.map fun layer => layer.candidates.length).prod

theorem length_product {α : Type u} (lists : List (List α)) :
    (Odometer.product lists).length = (lists.map List.length).prod := by
  induction lists with
  | nil => rfl
  | cons items rest ih => simp [Odometer.product, List.length_flatMap, ih]

def Layer.stock (layer : Layer) : List Candidate × Nat :=
  (layer.candidates, layer.live)

@[simp] theorem Layer.advance_stock (layers : List Layer) :
    (advance layers).1.map stock = layers.map stock := by
  induction layers with
  | nil => rfl
  | cons layer rest ih =>
      simp only [advance]
      split <;> simp [stock, ih]

@[simp] theorem Layer.jumpSubtree_stock (index : Nat) (layers : List Layer) :
    (jumpSubtree index layers).1.map stock = layers.map stock := by
  induction layers generalizing index with
  | nil => simp [jumpSubtree]
  | cons layer rest ih =>
      cases index with
      | zero => simp [jumpSubtree, stock, Function.comp_def]
      | succ index =>
          simp only [jumpSubtree]
          split <;> simp [stock, ih]

namespace ChainPlan

theorem nextPick_frame {fuel : Nat} {plan plan' : ChainPlan} {pick : Option ChainPick}
    (hnext : plan.nextPick fuel = some (pick, plan')) :
    plan'.layers.map Layer.stock = plan.layers.map Layer.stock ∧
      plan'.dead = plan.dead ∧ plan'.seen = plan.seen := by
  induction fuel generalizing plan with
  | zero => cases hnext
  | succ fuel ih =>
      have hadvance : plan.advance.layers.map Layer.stock = plan.layers.map Layer.stock :=
        Layer.advance_stock plan.layers
      rw [nextPick] at hnext
      split at hnext
      · cases hnext
        exact ⟨rfl, rfl, rfl⟩
      · split at hnext
        · cases hnext
        · rename_i index _
          obtain ⟨hstock, hdead, hseen⟩ := ih hnext
          exact ⟨hstock.trans (Layer.jumpSubtree_stock index plan.layers), hdead, hseen⟩
        · split at hnext
          · cases hnext
          · split at hnext
            · obtain ⟨hstock, hdead, hseen⟩ := ih hnext
              exact ⟨hstock.trans hadvance, hdead, hseen⟩
            · cases hnext
              exact ⟨hadvance, rfl, rfl⟩

end ChainPlan

namespace Enumeration

theorem next_skip {enumeration : Enumeration} {passed rest : List ChainPick}
    (hsplit : enumeration.pending = passed ++ rest)
    (hskip : ∀ pick ∈ passed, enumeration.skips pick = true) :
    enumeration.next = next { enumeration with pending := rest } := by
  have hdrop : enumeration.pending.dropWhile enumeration.skips =
      rest.dropWhile (skips { enumeration with pending := rest }) := by
    rw [hsplit, List.dropWhile_append_of_pos hskip]
    rfl
  rw [next, next, hdrop]

theorem next_yield {enumeration : Enumeration} {pick : ChainPick} {rest : List ChainPick}
    (hsplit : enumeration.pending = pick :: rest)
    (hfresh : enumeration.skips pick = false) :
    enumeration.next = (some pick, { enumeration with pending := rest }) := by
  rw [next, hsplit, List.dropWhile_cons_of_neg (by simp [hfresh])]

theorem next_exhausted {enumeration : Enumeration}
    (hskip : ∀ pick ∈ enumeration.pending, enumeration.skips pick = true) :
    enumeration.next = (none, { enumeration with pending := [] }) := by
  have hdrop : enumeration.pending.dropWhile enumeration.skips = [] :=
    List.dropWhile_eq_nil_iff.mpr hskip
  rw [next, hdrop]

end Enumeration

namespace Refines

variable {plan : ChainPlan} {enumeration : Enumeration}

theorem moved (hrefines : Refines plan enumeration) (hopen : plan.done = false)
    {layers : List Layer × Bool} {wheels : List (Wheel Candidate) × Bool}
    (hshowing : Showing layers.1 wheels.1) (hcarry : layers.2 = wheels.2)
    (hlayered : layers.1 ≠ []) :
    Refines { plan with layers := layers.1, done := plan.done || layers.2 }
      { enumeration with pending := (Odometer.left wheels).filterMap pickOf } where
  dead := hrefines.dead
  seen := hrefines.seen
  layered := hlayered
  running := by
    intro hdone
    refine ⟨wheels.1, hshowing, ?_⟩
    simp only [hopen, Bool.false_or, hcarry] at hdone
    simp [Odometer.left, hdone]
  finished := by
    intro hdone pick hpick
    simp only [hopen, Bool.false_or, hcarry] at hdone
    simp [Odometer.left, hdone] at hpick

theorem advance (hrefines : Refines plan enumeration) (hopen : plan.done = false)
    {wheels : List (Wheel Candidate)} (hshowing : Showing plan.layers wheels) :
    Refines plan.advance { enumeration with
      pending := (Odometer.left (Odometer.advance wheels)).filterMap pickOf } := by
  obtain ⟨hmoved, hcarry⟩ := Layer.showing_advance hshowing
  refine hrefines.moved hopen hmoved hcarry fun hnil => hrefines.layered ?_
  have hstock := Layer.advance_stock plan.layers
  rw [hnil] at hstock
  exact List.map_eq_nil_iff.mp hstock.symm

theorem jumpSubtree (hrefines : Refines plan enumeration) (hopen : plan.done = false)
    {wheels : List (Wheel Candidate)} (hshowing : Showing plan.layers wheels) (index : Nat) :
    Refines (plan.jumpSubtree index) { enumeration with
      pending := (Odometer.left (Odometer.jump index wheels)).filterMap pickOf } := by
  obtain ⟨hmoved, hcarry⟩ := Layer.showing_jump index hshowing
  refine hrefines.moved hopen hmoved hcarry fun hnil => hrefines.layered ?_
  have hstock := Layer.jumpSubtree_stock index plan.layers
  rw [hnil] at hstock
  exact List.map_eq_nil_iff.mp hstock.symm

theorem shown (hrefines : Refines plan enumeration) {wheels : List (Wheel Candidate)}
    (hshowing : Showing plan.layers wheels)
    (hpending : enumeration.pending = (Odometer.remaining wheels).filterMap pickOf) :
    ∃ pick, pickOf (Odometer.showing wheels) = some pick ∧ plan.currentPick = some pick ∧
      enumeration.pending =
        pick :: (Odometer.left (Odometer.advance wheels)).filterMap pickOf := by
  have hne : Odometer.showing wheels ≠ [] := by
    intro hnil
    obtain rfl : wheels = [] := List.map_eq_nil_iff.mp hnil
    exact hrefines.layered (List.forall₂_nil_right_iff.mp hshowing)
  obtain ⟨pick, hpick⟩ := Option.isSome_iff_exists.mp (pickOf_isSome hne)
  refine ⟨pick, hpick, ?_, ?_⟩
  · rw [ChainPlan.currentPick, Layer.showing_current hshowing]
    exact hpick
  · rw [hpending, Odometer.remaining_advance, List.filterMap_cons, hpick]

private theorem nextPick_continue {fuel : Nat} {moved : ChainPlan}
    {passed rest : List ChainPick}
    (ih : ∀ {plan : ChainPlan} {enumeration : Enumeration}, Refines plan enumeration →
      enumeration.pending.length < fuel →
      ∃ plan', plan.nextPick fuel = some (enumeration.next.1, plan') ∧
        Refines plan' enumeration.next.2)
    (hmoved : Refines moved { enumeration with pending := rest })
    (hsplit : enumeration.pending = passed ++ rest) (hne : passed ≠ [])
    (hskip : ∀ pick ∈ passed, enumeration.skips pick = true)
    (hfuel : enumeration.pending.length < fuel + 1) :
    ∃ plan', moved.nextPick fuel = some (enumeration.next.1, plan') ∧
      Refines plan' enumeration.next.2 := by
  rw [Enumeration.next_skip hsplit hskip]
  refine ih hmoved ?_
  have hpos := List.length_pos_iff.mpr hne
  rw [hsplit, List.length_append] at hfuel
  show rest.length < fuel
  omega

theorem nextPick {fuel : Nat} (hrefines : Refines plan enumeration)
    (hfuel : enumeration.pending.length < fuel) :
    ∃ plan', plan.nextPick fuel = some (enumeration.next.1, plan') ∧
      Refines plan' enumeration.next.2 := by
  induction fuel generalizing plan enumeration with
  | zero => cases hfuel
  | succ fuel ih =>
      cases hdone : plan.done with
      | true =>
          have hskip : ∀ pick ∈ enumeration.pending, enumeration.skips pick = true := by
            intro pick hpick
            rw [Enumeration.skips, hrefines.finished hdone pick hpick, Bool.true_or]
          rw [Enumeration.next_exhausted hskip, ChainPlan.nextPick, if_pos hdone]
          refine ⟨plan, rfl, hrefines.dead, hrefines.seen, hrefines.layered, ?_, ?_⟩
          · intro hopen
            rw [hdone] at hopen
            cases hopen
          · intro _ pick hpick
            cases hpick
      | false =>
          obtain ⟨wheels, hshowing, hpending⟩ := hrefines.running hdone
          rw [ChainPlan.nextPick, if_neg (by simp [hdone]), hrefines.dead]
          obtain ⟨hnone, hlive⟩ | ⟨index, candidate, hsome, hindex, hat, hdead⟩ :=
            Layer.showing_dead enumeration.dead hshowing
          · obtain ⟨pick, hpick, hcurrent, hsplit⟩ := hrefines.shown hshowing hpending
            have hadvance := hrefines.advance hdone hshowing
            have hdoomed := not_doomed_of_candidates hpick hlive
            simp only [hnone, hcurrent, hrefines.seen]
            cases hseen : enumeration.seen.contains pick.key with
            | true =>
                have hskip : enumeration.skips pick = true := by
                  rw [Enumeration.skips, hseen, Bool.or_true]
                exact nextPick_continue ih hadvance hsplit (List.cons_ne_nil _ [])
                  (by simpa using hskip) hfuel
            | false =>
                have hfresh : enumeration.skips pick = false := by
                  rw [Enumeration.skips, hdoomed, hseen, Bool.or_false]
                rw [Enumeration.next_yield hsplit hfresh]
                exact ⟨plan.advance, rfl, hadvance⟩
          · obtain ⟨passed, hsplit, hne, hshare⟩ := Odometer.remaining_jump hindex
            simp only [hsome]
            -- every combination passed shows the dead candidate at `index`
            have hmem : ∀ combination ∈ passed, candidate ∈ combination := by
              intro combination hcombination
              exact List.mem_of_getElem? ((hshare combination hcombination).trans hat)
            refine nextPick_continue ih (hrefines.jumpSubtree hdone hshowing index)
              (by rw [hpending, hsplit, List.filterMap_append]) ?_ ?_ hfuel
            · obtain ⟨combination, hcombination⟩ := List.exists_mem_of_ne_nil passed hne
              have hsomePick := pickOf_isSome
                (List.ne_nil_of_mem (hmem combination hcombination))
              obtain ⟨pick, hpick⟩ := Option.isSome_iff_exists.mp hsomePick
              exact List.ne_nil_of_mem
                (List.mem_filterMap.mpr ⟨combination, hcombination, hpick⟩)
            · intro pick hpick
              obtain ⟨combination, hcombination, hpick⟩ := List.mem_filterMap.mp hpick
              rw [Enumeration.skips,
                doomed_of_candidate hpick (hmem combination hcombination) hdead, Bool.true_or]

end Refines

end Resocks5.Chain
