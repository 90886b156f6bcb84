import Resocks5.Chain.Marks

namespace Resocks5.Chain

open Resocks5.Foundation
open Resocks5.Types

theorem Enumeration.doomed_mono {dead : List ChainKey} {key : ChainKey} {pick : ChainPick}
    (hdoomed : doomed dead pick = true) : doomed (key :: dead) pick = true := by
  rw [doomed, List.any_eq_true] at hdoomed ⊢
  obtain ⟨hop, hhop, hdead⟩ := hdoomed
  refine ⟨hop, hhop, ?_⟩
  rw [List.contains_cons, hdead, Bool.or_true]

theorem exists_mem_of_product {α : Type u} {lists : List (List α)} {combination items : List α}
    (hmem : combination ∈ Odometer.product lists) (hitems : items ∈ lists) :
    ∃ item ∈ combination, item ∈ items := by
  have hforall := Odometer.mem_product.mp hmem
  induction hforall with
  | nil => cases hitems
  | cons hitem htail ih =>
      cases hitems with
      | head => exact ⟨_, List.mem_cons_self, hitem⟩
      | tail _ hrest =>
          obtain ⟨item, hmem, hin⟩ := ih (Odometer.mem_product.mpr htail) hrest
          exact ⟨item, List.mem_cons_of_mem _ hmem, hin⟩

namespace Refines

variable {plan : ChainPlan} {enumeration : Enumeration}

theorem doomed_of_empty_layer {dead : List ChainKey} {layers : List Layer} {layer : Layer}
    (hlayer : layer ∈ layers) (hcounted : Layer.Counted dead layer.stock)
    (hempty : layer.live = 0) {wheels : List (Wheel Candidate)}
    (hshowing : Showing layers wheels) {pick : ChainPick}
    (hpick : pick ∈ (Odometer.remaining wheels).filterMap pickOf) :
    Enumeration.doomed dead pick = true := by
  obtain ⟨combination, hcombination, hpick⟩ := List.mem_filterMap.mp hpick
  have hproduct := (Odometer.remaining_suffix wheels).mem hcombination
  rw [Layer.showing_items hshowing] at hproduct
  obtain ⟨candidate, hmem, hin⟩ := exists_mem_of_product hproduct
    (List.mem_map_of_mem hlayer)
  refine doomed_of_candidate hpick hmem ?_
  have hzero : layer.candidates.countP (fun candidate => !dead.contains candidate.key) = 0 := by
    rw [← hempty]
    exact hcounted.1.symm
  simpa using List.countP_eq_zero.mp hzero candidate hin

theorem markDead (hrefines : Refines plan enumeration) (hcounted : plan.Counted)
    (proxy : ProxyConfig) :
    ∃ plan', plan.markDead proxy = some plan' ∧ plan'.Counted ∧
      plan'.layers.map (·.candidates) = plan.layers.map (·.candidates) ∧
      Refines plan' { enumeration with
        dead := enumeration.dead.insert (singletonKey proxy) } := by
  by_cases hknown : singletonKey proxy ∈ plan.dead
  · have hsame : enumeration.dead.insert (singletonKey proxy) = enumeration.dead := by
      rw [← hrefines.dead]
      exact List.insert_of_mem hknown
    rw [hsame]
    refine ⟨plan, ?_, hcounted, rfl, hrefines⟩
    rw [ChainPlan.markDead, if_pos (List.contains_iff_mem.mpr hknown)]
  · rw [ChainPlan.markDead_eq hcounted hknown, ← hrefines.dead,
      List.insert_of_not_mem hknown]
    refine ⟨_, rfl, ?_, by simp, ?_⟩
    · intro layer hlayer
      obtain ⟨old, hold, rfl⟩ := List.mem_map.mp hlayer
      exact Layer.discount_counted hknown (hcounted old hold)
    · have hshowing : ∀ {wheels}, Showing plan.layers wheels →
          Showing (plan.layers.map (Layer.discount (singletonKey proxy))) wheels := by
        intro wheels hshowing
        refine List.forall₂_map_left_iff.mpr (hshowing.imp fun layer wheel hshows => ?_)
        exact ⟨by simpa using hshows.1, by simpa using hshows.2⟩
      refine ⟨rfl, hrefines.seen, by simpa using hrefines.layered, ?_, ?_⟩
      · intro hopen
        obtain ⟨hopen, _⟩ := Bool.or_eq_false_iff.mp hopen
        obtain ⟨wheels, hwheels, hpending⟩ := hrefines.running hopen
        exact ⟨wheels, hshowing hwheels, hpending⟩
      · intro hdone pick hpick
        cases hopen : plan.done with
        | true =>
            have hdoomed := hrefines.finished hopen pick hpick
            rw [← hrefines.dead] at hdoomed
            exact Enumeration.doomed_mono hdoomed
        | false =>
            simp only [hopen, Bool.false_or, List.any_eq_true] at hdone
            obtain ⟨layer, hlayer, hempty⟩ := hdone
            obtain ⟨wheels, hwheels, hpending⟩ := hrefines.running hopen
            have hcount : Layer.Counted (singletonKey proxy :: plan.dead) layer.stock := by
              obtain ⟨old, hold, rfl⟩ := List.mem_map.mp hlayer
              exact Layer.discount_counted hknown (hcounted old hold)
            have hzero : layer.live = 0 := by simpa using (Bool.and_eq_true_iff.mp hempty).2
            exact doomed_of_empty_layer hlayer hcount hzero (hshowing hwheels)
              (hpending ▸ hpick)

theorem exclude (hrefines : Refines plan enumeration) (key : ChainKey) :
    Refines (plan.exclude key) { enumeration with
      seen := enumeration.seen.insert key } where
  dead := hrefines.dead
  seen := by rw [← hrefines.seen]; rfl
  layered := hrefines.layered
  running := hrefines.running
  finished := hrefines.finished

theorem call {fuel : Nat} (hrefines : Refines plan enumeration) (hcounted : plan.Counted)
    (hfuel : enumeration.pending.length < fuel) (request : PlanCall) :
    ∃ plan', plan.call fuel request = some ((enumeration.call request).1, plan') ∧
      plan'.Counted ∧
      plan'.layers.map (·.candidates) = plan.layers.map (·.candidates) ∧
      Refines plan' (enumeration.call request).2 := by
  cases request with
  | nextPick =>
      obtain ⟨plan', hnext, hrefines'⟩ := hrefines.nextPick hfuel
      obtain ⟨hstock, hdead, _⟩ := ChainPlan.nextPick_frame hnext
      have hcandidates : plan'.layers.map (·.candidates) = plan.layers.map (·.candidates) := by
        have hfst := congrArg (List.map Prod.fst) hstock
        simpa [Layer.stock, Function.comp_def] using hfst
      refine ⟨plan', ?_, hcounted.of_frame hstock hdead, hcandidates, ?_⟩
      · rw [ChainPlan.call, hnext, Enumeration.call]
        cases hpick : enumeration.next with
        | mk pick rest => cases pick <;> rfl
      · rw [Enumeration.call]
        cases hpick : enumeration.next with
        | mk pick rest =>
            rw [hpick] at hrefines'
            cases pick <;> exact hrefines'
  | markDead proxy =>
      obtain ⟨plan', hmark, hcounted', hcandidates, hrefines'⟩ :=
        hrefines.markDead hcounted proxy
      refine ⟨plan', ?_, hcounted', hcandidates, hrefines'⟩
      rw [ChainPlan.call, hmark]
      rfl
  | exclude key =>
      exact ⟨plan.exclude key, rfl, hcounted, rfl, hrefines.exclude key⟩

end Refines

theorem refines_new (gates exits : List PickOrder) :
    Refines (ChainPlan.new gates exits)
      ⟨(ChainPlan.new gates exits).combinations, [], []⟩ := by
  refine ⟨rfl, rfl, by simp [ChainPlan.new], ?_, ?_⟩
  · intro hopen
    have hfull : ∀ layer ∈ (ChainPlan.new gates exits).layers, layer.candidates ≠ [] := by
      intro layer hlayer hnil
      have hnot := List.any_eq_false.mp hopen layer hlayer
      rw [hnil] at hnot
      exact hnot rfl
    have hzero : ∀ layer ∈ (ChainPlan.new gates exits).layers, layer.index = 0 := by
      intro layer hlayer
      obtain hgate | hexit := List.mem_append.mp hlayer
      · obtain ⟨gate, _, rfl⟩ := List.mem_map.mp hgate
        rfl
      · obtain rfl := List.mem_singleton.mp hexit
        rfl
    have hwheels : ∀ layers : List Layer, (∀ layer ∈ layers, layer.candidates ≠ []) →
        (∀ layer ∈ layers, layer.index = 0) →
        ∃ wheels, Showing layers wheels ∧ wheels.map Wheel.first = wheels := by
      intro layers hfull hzero
      induction layers with
      | nil => exact ⟨[], .nil, rfl⟩
      | cons layer rest ih =>
          obtain ⟨wheels, hshowing, hfirst⟩ :=
            ih (fun other hother => hfull other (List.mem_cons_of_mem _ hother))
              (fun other hother => hzero other (List.mem_cons_of_mem _ hother))
          have hpos := List.length_pos_iff.mpr (hfull layer List.mem_cons_self)
          refine ⟨⟨layer.candidates, 0, hpos⟩ :: wheels,
            .cons ⟨rfl, hzero layer List.mem_cons_self⟩ hshowing, ?_⟩
          rw [List.map_cons, hfirst]
          rfl
    obtain ⟨wheels, hshowing, hfirst⟩ := hwheels _ hfull hzero
    refine ⟨wheels, hshowing, ?_⟩
    rw [← hfirst, Odometer.remaining_first, Layer.showing_items hshowing]
    rfl
  · intro hdone pick hpick
    obtain ⟨layer, hlayer, hempty⟩ := List.any_eq_true.mp hdone
    have hnil : [] ∈ (ChainPlan.new gates exits).layers.map (·.candidates) := by
      rw [← List.isEmpty_iff.mp hempty]
      exact List.mem_map_of_mem hlayer
    simp [ChainPlan.combinations, Odometer.product_eq_nil hnil] at hpick

/-! What a history of calls has decided. -/

def yields (events : List PlanEvent) : List ChainPick :=
  events.filterMap PlanEvent.pick?

/-- The pick has a node marked dead, or was excluded as a whole. -/
def Barred (events : List PlanEvent) (pick : ChainPick) : Prop :=
  (∃ hop ∈ pick.hops, ∃ proxy ∈ events.filterMap PlanEvent.marked?,
    hop.proxy.node = proxy.node) ∨
  pick.key ∈ events.filterMap PlanEvent.excluded?

def PlanEvent.call : PlanEvent → PlanCall
  | .yielded _ => .nextPick
  | .exhausted => .nextPick
  | .marked proxy => .markDead proxy
  | .excluded key => .exclude key

/-- An enumeration after a history: what is passed was yielded or is barred. -/
structure Accounts (all : List ChainPick) (history : List PlanEvent)
    (enumeration : Enumeration) : Prop where
  passed : ∃ passed, all = passed ++ enumeration.pending ∧
    (yields history).Sublist passed ∧
    ∀ pick ∈ passed, pick ∈ yields history ∨ Barred history pick
  dead : ∀ key, key ∈ enumeration.dead ↔
    ∃ proxy ∈ history.filterMap PlanEvent.marked?, singletonKey proxy = key
  seen : ∀ key, key ∈ enumeration.seen ↔
    key ∈ history.filterMap PlanEvent.excluded?

theorem yields_quiet {event : PlanEvent} (hquiet : event.pick? = none)
    (history : List PlanEvent) : yields (history ++ [event]) = yields history := by
  simp [yields, hquiet]

theorem Barred.append {history : List PlanEvent} {pick : ChainPick}
    (hbarred : Barred history pick) (later : List PlanEvent) :
    Barred (history ++ later) pick := by
  obtain ⟨hop, hhop, proxy, hproxy, hsame⟩ | hexcluded := hbarred
  · refine .inl ⟨hop, hhop, proxy, ?_, hsame⟩
    rw [List.filterMap_append]
    exact List.mem_append_left _ hproxy
  · refine .inr ?_
    rw [List.filterMap_append]
    exact List.mem_append_left _ hexcluded

namespace Accounts

variable {all : List ChainPick} {history : List PlanEvent} {enumeration : Enumeration}

theorem skips_iff (haccounts : Accounts all history enumeration) (pick : ChainPick) :
    enumeration.skips pick = true ↔ Barred history pick := by
  rw [Enumeration.skips, Bool.or_eq_true, Enumeration.doomed, List.any_eq_true,
    List.contains_iff_mem, haccounts.seen]
  refine or_congr (exists_congr fun hop => and_congr_right fun _ => ?_) Iff.rfl
  rw [List.contains_iff_mem, haccounts.dead]
  refine exists_congr fun proxy => and_congr_right fun _ => ?_
  rw [singletonKey_inj, eq_comm]

theorem passes (haccounts : Accounts all history enumeration)
    {skipped rest : List ChainPick} (hsplit : enumeration.pending = skipped ++ rest)
    (hskipped : ∀ pick ∈ skipped, enumeration.skips pick = true) :
    Accounts all history { enumeration with pending := rest } := by
  obtain ⟨passed, hall, hyields, hpassed⟩ := haccounts.passed
  refine ⟨⟨passed ++ skipped, ?_, ?_, ?_⟩, haccounts.dead, haccounts.seen⟩
  · rw [hall, hsplit, List.append_assoc]
  · exact hyields.trans (List.sublist_append_left _ _)
  · intro pick hpick
    obtain hold | hnew := List.mem_append.mp hpick
    · exact hpassed pick hold
    · exact .inr ((haccounts.skips_iff pick).mp (hskipped pick hnew))

def Answered (all : List ChainPick) (history : List PlanEvent) : PlanEvent → Prop
  | .yielded pick => ¬ Barred history pick
  | .exhausted => ∀ pick ∈ all, pick ∈ yields history ∨ Barred history pick
  | _ => True

theorem next (haccounts : Accounts all history enumeration) :
    Answered all history (enumeration.call .nextPick).1 ∧
      Accounts all (history ++ [(enumeration.call .nextPick).1])
        (enumeration.call .nextPick).2 := by
  have hsplit := (List.takeWhile_append_dropWhile
    (p := enumeration.skips) (l := enumeration.pending)).symm
  have hskipped : ∀ pick ∈ enumeration.pending.takeWhile enumeration.skips,
      enumeration.skips pick = true := fun pick => List.mem_takeWhile_imp
  have hpasses := haccounts.passes hsplit hskipped
  obtain ⟨passed, hall, hyields, hpassed⟩ := hpasses.passed
  rw [Enumeration.call, Enumeration.next]
  cases hdrop : enumeration.pending.dropWhile enumeration.skips with
  | nil =>
      simp only [hdrop, List.append_nil] at hall
      subst hall
      have hsame := yields_quiet (show PlanEvent.exhausted.pick? = none from rfl) history
      refine ⟨hpassed, ⟨all, by simp, hsame ▸ hyields, ?_⟩, ?_, ?_⟩
      · intro pick hpick
        rw [hsame]
        exact (hpassed pick hpick).imp_right fun hbarred => hbarred.append _
      · simpa [PlanEvent.marked?] using haccounts.dead
      · simpa [PlanEvent.excluded?] using haccounts.seen
  | cons pick pending =>
      have hfresh : enumeration.skips pick = false := by
        have hhead := List.head_dropWhile_not enumeration.skips
          (show enumeration.pending.dropWhile enumeration.skips ≠ [] by simp [hdrop])
        simpa [hdrop] using hhead
      have hyielded : yields (history ++ [.yielded pick]) = yields history ++ [pick] := by
        simp [yields, PlanEvent.pick?]
      refine ⟨?_, ⟨passed ++ [pick], ?_, ?_, ?_⟩, ?_, ?_⟩
      · intro hbarred
        rw [(haccounts.skips_iff pick).mpr hbarred] at hfresh
        cases hfresh
      · simpa [hdrop] using hall
      · rw [hyielded]
        exact hyields.append (List.Sublist.refl _)
      · intro other hother
        rw [hyielded]
        obtain hold | hnew := List.mem_append.mp hother
        · obtain hyielded | hbarred := hpassed other hold
          · exact .inl (List.mem_append_left _ hyielded)
          · exact .inr (hbarred.append _)
        · exact .inl (List.mem_append_right _ hnew)
      · simpa [PlanEvent.marked?] using haccounts.dead
      · simpa [PlanEvent.excluded?] using haccounts.seen

theorem step (haccounts : Accounts all history enumeration) (request : PlanCall) :
    Answered all history (enumeration.call request).1 ∧
      Accounts all (history ++ [(enumeration.call request).1])
        (enumeration.call request).2 := by
  have hkeep : ∀ event : PlanEvent, event.pick? = none →
      ∃ passed, all = passed ++ enumeration.pending ∧
        (yields (history ++ [event])).Sublist passed ∧
        ∀ pick ∈ passed, pick ∈ yields (history ++ [event]) ∨
          Barred (history ++ [event]) pick := by
    intro event hnone
    obtain ⟨passed, hall, hyields, hpassed⟩ := haccounts.passed
    have hsame := yields_quiet hnone history
    refine ⟨passed, hall, hsame ▸ hyields, fun pick hpick => ?_⟩
    rw [hsame]
    exact (hpassed pick hpick).imp_right fun hbarred => hbarred.append _
  cases request with
  | nextPick => exact haccounts.next
  | markDead proxy =>
      refine ⟨trivial, hkeep _ rfl, fun key => ?_, fun key => ?_⟩
      · have hdead := haccounts.dead key
        simp only [Enumeration.call, List.mem_insert_iff, hdead]
        simp [PlanEvent.marked?, or_and_right, exists_or, eq_comm, or_comm]
      · simpa [Enumeration.call, PlanEvent.excluded?] using haccounts.seen key
  | exclude key =>
      refine ⟨trivial, hkeep _ rfl, fun other => ?_, fun other => ?_⟩
      · simpa [Enumeration.call, PlanEvent.marked?] using haccounts.dead other
      · have hseen := haccounts.seen other
        simp only [Enumeration.call, List.mem_insert_iff, hseen]
        simp [PlanEvent.excluded?, or_comm]

end Accounts

private theorem session_account {all : List ChainPick} {fuel : Nat}
    (hfuel : all.length < fuel) (calls : List PlanCall) {history : List PlanEvent}
    {plan : ChainPlan} {enumeration : Enumeration} (hrefines : Refines plan enumeration)
    (hcounted : plan.Counted) (haccounts : Accounts all history enumeration) :
    ∃ events plan' enumeration', plan.session fuel calls = some (events, plan') ∧
      events.map PlanEvent.call = calls ∧ plan'.Counted ∧
      plan'.layers.map (·.candidates) = plan.layers.map (·.candidates) ∧
      Refines plan' enumeration' ∧ Accounts all (history ++ events) enumeration' ∧
      ∀ before event after, events = before ++ event :: after →
        Accounts.Answered all (history ++ before) event := by
  induction calls generalizing history plan enumeration with
  | nil =>
      refine ⟨[], plan, enumeration, rfl, rfl, hcounted, rfl, hrefines, by simpa, ?_⟩
      intro before event after hsplit
      simp at hsplit
  | cons request calls ih =>
      have hpending : enumeration.pending.length < fuel := by
        obtain ⟨passed, hall, _⟩ := haccounts.passed
        have hlength := congrArg List.length hall
        rw [List.length_append] at hlength
        omega
      obtain ⟨moved, hcall, hmoved, hcandidates, hrefines'⟩ :=
        hrefines.call hcounted hpending request
      obtain ⟨hanswered, haccounts'⟩ := haccounts.step request
      obtain ⟨events, plan', enumeration', hsession, hcalls, hcounted', hcandidates',
        hrefines'', haccounts'', hevents⟩ := ih hrefines' hmoved haccounts'
      refine ⟨(enumeration.call request).1 :: events, plan', enumeration', ?_, ?_, hcounted',
        hcandidates'.trans hcandidates, hrefines'', by simpa using haccounts'', ?_⟩
      · rw [ChainPlan.session, hcall]
        simp only [hsession, Option.map_some]
      · rw [List.map_cons, hcalls]
        congr 1
        cases request with
        | nextPick =>
            rw [Enumeration.call]
            split <;> rfl
        | markDead proxy => rfl
        | exclude key => rfl
      · intro before event after hsplit
        cases before with
        | nil =>
            obtain ⟨rfl, _⟩ := List.cons.inj hsplit
            simpa using hanswered
        | cons first before =>
            obtain ⟨rfl, htail⟩ := List.cons.inj hsplit
            simpa using hevents before event after htail

theorem combinations_distinct (gates exits : List PickOrder) :
    (ChainPlan.new gates exits).combinations.Pairwise fun a b => a.key ≠ b.key := by
  have hkeys : ((Odometer.product ((ChainPlan.new gates exits).layers.map
      (·.candidates))).map (List.map (·.key))).Nodup := by
    rw [← Odometer.product_map]
    refine Odometer.product_nodup fun keys hmem => ?_
    obtain ⟨candidates, hcandidates, rfl⟩ := List.mem_map.mp hmem
    obtain ⟨layer, hlayer, rfl⟩ := List.mem_map.mp hcandidates
    exact (ChainPlan.new_counted gates exits layer hlayer).2
  refine List.Pairwise.filterMap pickOf ?_ (List.pairwise_map.mp hkeys)
  intro left right hne a ha b hb heq
  exact hne (pickOf_key_inj ha hb heq)

theorem combinations_hops (gates exits : List PickOrder) :
    (ChainPlan.new gates exits).combinations.map (·.hops) =
      (Odometer.product ((ChainPlan.new gates exits).layers.map (·.candidates))).map
        (List.map (·.hop)) := by
  rw [ChainPlan.combinations, List.map_filterMap]
  refine (List.filterMap_congr fun combination hmem => ?_).trans
    (congrFun List.filterMap_eq_map _)
  have hlength := (Odometer.mem_product.mp hmem).length_eq
  have hne : combination ≠ [] := by
    rintro rfl
    simp [ChainPlan.new] at hlength
  obtain ⟨pick, hpick⟩ := Option.isSome_iff_exists.mp (pickOf_isSome hne)
  rw [hpick, Option.map_some, pickOf_hops hpick]
  rfl

/-- Chain enumeration is exact: each layer has every node of its orders once; any calls in any
order return; the picks come in the lexicographic order of the snapshot, each at most once and
none that is barred by then; an exhausted plan has yielded all but what is barred; and `live` is
the count of candidates not marked dead. -/
theorem chain_enumeration_exact (gates exits : List PickOrder) (calls : List PlanCall)
    (fuel : Nat) (hfuel : (ChainPlan.new gates exits).workBound < fuel) :
    List.Forall₂ Snapshot (gates.map PickOrder.hops ++ [exits.flatMap PickOrder.hops])
      ((ChainPlan.new gates exits).layers.map (·.candidates)) ∧
    (ChainPlan.new gates exits).combinations.map (·.hops) =
      (Odometer.product ((ChainPlan.new gates exits).layers.map (·.candidates))).map
        (List.map (·.hop)) ∧
    ∃ events plan,
      (ChainPlan.new gates exits).session fuel calls = some (events, plan) ∧
      events.map PlanEvent.call = calls ∧
      (yields events).Sublist (ChainPlan.new gates exits).combinations ∧
      ((ChainPlan.new gates exits).combinations.Pairwise fun a b => a.key ≠ b.key) ∧
      (∀ before pick after, events = before ++ .yielded pick :: after →
        ¬ Barred before pick) ∧
      (∀ before after, events = before ++ .exhausted :: after →
        ∀ pick ∈ (ChainPlan.new gates exits).combinations,
          pick ∈ yields before ∨ Barred before pick) ∧
      plan.layers.map (·.candidates) =
        (ChainPlan.new gates exits).layers.map (·.candidates) ∧
      ∀ layer ∈ plan.layers, layer.live = layer.candidates.countP fun candidate =>
        ∀ proxy ∈ events.filterMap PlanEvent.marked?, proxy.node ≠ candidate.hop.proxy.node := by
  have hlength : (ChainPlan.new gates exits).combinations.length < fuel := by
    refine Nat.lt_of_le_of_lt (List.length_filterMap_le _ _) ?_
    rw [length_product, List.map_map]
    exact hfuel
  have haccounts : Accounts (ChainPlan.new gates exits).combinations []
      ⟨(ChainPlan.new gates exits).combinations, [], []⟩ :=
    ⟨⟨[], rfl, List.nil_sublist _, by simp⟩, by simp, by simp⟩
  obtain ⟨events, plan, enumeration, hsession, hcalls, hcounted, hcandidates, hrefines,
    haccounts', hevents⟩ := session_account hlength calls (refines_new gates exits)
      (ChainPlan.new_counted gates exits) haccounts
  rw [List.nil_append] at haccounts'
  refine ⟨ChainPlan.new_snapshot gates exits, combinations_hops gates exits, events, plan, hsession,
    hcalls, ?_, combinations_distinct gates exits, ?_, ?_, hcandidates, ?_⟩
  · obtain ⟨passed, hall, hyields, _⟩ := haccounts'.passed
    rw [hall]
    exact hyields.trans (List.sublist_append_left _ _)
  · intro before pick after hsplit
    have hanswered := hevents before _ after hsplit
    rw [List.nil_append] at hanswered
    exact hanswered
  · intro before after hsplit
    have hanswered := hevents before _ after hsplit
    rw [List.nil_append] at hanswered
    exact hanswered
  · intro layer hlayer
    refine (hcounted layer hlayer).1.trans (List.countP_congr fun candidate _ => ?_)
    simp only [Bool.not_eq_true', List.contains_eq_mem, decide_eq_false_iff_not, decide_eq_true_eq]
    rw [hrefines.dead, haccounts'.dead, candidate.key_eq]
    simp only [singletonKey_inj, not_exists, not_and, ne_eq]

def sampleProxy (host : UInt8) (gateLevel : UInt8) : ProxyConfig :=
  ⟨⟨.socks5, [host], 1080, none, none, gateLevel⟩, []⟩

def sampleGateOrders : List PickOrder :=
  [(0, [sampleProxy 1 1, sampleProxy 2 1]), (1, [sampleProxy 3 2])]

def sampleExitOrders : List PickOrder :=
  [(2, [sampleProxy 4 0]), (3, [sampleProxy 4 0, sampleProxy 5 0])]

def sampleCalls : List PlanCall :=
  [.nextPick, .markDead (sampleProxy 1 1), .nextPick,
    .exclude ⟨⟨(sampleProxy 5 0).node, [(sampleProxy 3 2).node, (sampleProxy 2 1).node]⟩⟩,
    .nextPick]

theorem chain_enumeration_exact_sample :
    ∃ events plan,
      (ChainPlan.new sampleGateOrders sampleExitOrders).session 5 sampleCalls =
        some (events, plan) ∧
      (yields events).map (fun pick => pick.hops.map fun hop =>
        (hop.rotator, hop.proxy.node.host)) =
        [[(0, [1]), (1, [3]), (2, [4])], [(0, [2]), (1, [3]), (2, [4])]] ∧
      ((ChainPlan.new sampleGateOrders sampleExitOrders).layers.map (·.candidates.length) =
        [2, 1, 2]) ∧
      ∀ before after, events = before ++ .exhausted :: after →
        ∀ pick ∈ (ChainPlan.new sampleGateOrders sampleExitOrders).combinations,
          pick ∈ yields before ∨ Barred before pick := by
  obtain ⟨_, _, events, plan, hsession, _, _, _, _, hexhausted, _⟩ :=
    chain_enumeration_exact sampleGateOrders sampleExitOrders sampleCalls 5 (by decide)
  refine ⟨events, plan, hsession, ?_, by decide, hexhausted⟩
  have hyields : ((ChainPlan.new sampleGateOrders sampleExitOrders).session 5 sampleCalls).map
      (fun out => (yields out.1).map fun pick => pick.hops.map fun hop =>
        (hop.rotator, hop.proxy.node.host)) =
      some [[(0, [1]), (1, [3]), (2, [4])], [(0, [2]), (1, [3]), (2, [4])]] := by decide
  rw [hsession] at hyields
  exact Option.some.inj hyields

end Resocks5.Chain
