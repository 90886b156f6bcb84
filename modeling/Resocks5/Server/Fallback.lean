import Resocks5.Server.Budget

namespace Resocks5.Server

open Resocks5.Chain
open Resocks5.Connect
open Resocks5.Foundation
open Resocks5.Rating
open Resocks5.Session
open Resocks5.Types

/-! What the chain phases leave of the budget for the ordinary exits. -/

namespace Dial

section

variable {ρ : Type u} {arith : FloatArith} {rng : Rng ρ} {world : World} {request : Request}
  {first : Rotators ρ} {dial : Dial ρ}

theorem Budgeted.whole (hbudgeted : Budgeted arith rng request first dial)
    (hwhole : ∀ r, (first r).Whole) (r : RotatorId) : (dial.rotators r).Whole :=
  (hbudgeted.rotators r).whole (hwhole r)

theorem planOrNew_isSome (hwhole : ∀ r, (dial.rotators r).Whole) :
    (dial.planOrNew arith rng world request).isSome = true := by
  unfold planOrNew
  split
  · rfl
  · split
    · exact planFor_isSome hwhole _ _ _
    · rfl

theorem tryChain_verdict (hbudgeted : Budgeted arith rng request first dial)
    (hwhole : ∀ r, (first r).Whole) (hgates : request.gates.levels ≠ []) {pick : ChainPick}
    (hgated : pick.Gated) (hnew : pick.key ∉ dial.triedRoutes)
    (hroom : dial.attempts < request.maxUpstreamAttempts) :
    (dial.tryChain arith rng world request pick).2 =
      match dial.chainResult world request pick with
      | .ok () => some .chained
      | .error _ => none := by
  have hlaunched := (hbudgeted.launchChain hgated hnew hroom).await world
  unfold tryChain
  dsimp only
  cases dial.chainResult world request pick with
  | ok _ => rfl
  | error error =>
      dsimp only
      obtain ⟨⟨plan, rotators⟩, hplan⟩ : ∃ planned,
          ((dial.launchChain pick).await arith rng world).planOrNew arith rng world request =
            some planned :=
        Option.isSome_iff_exists.mp (planOrNew_isSome (hlaunched.whole hwhole))
      obtain ⟨⟨left, hplanned⟩, _⟩ := planOrNew_planned hlaunched hgates hplan
      obtain ⟨quarantined, plan', rotators', hrecord, _⟩ :=
        hplanned.recordFailure arith rng (world.clock (dial.turn + 2))
          (await arith rng world { (dial.launchChain pick).await arith rng world with
            plan := some plan, rotators }).rotators pick error.stage error.error
      have hsome : ∃ after, ((dial.launchChain pick).await arith rng world).recordChainFailure
          arith rng world request pick error = some after := by
        rw [recordChainFailure, hplan]
        exact ⟨_, Option.map_eq_some_iff.mpr ⟨_, hrecord, rfl⟩⟩
      obtain ⟨after, hafter⟩ := hsome
      rw [hafter]

def cachedChain (request : Request) (group : ExitGroup) (dial : Dial ρ) : Option ChainPick :=
  ((dial.rotators group.rotator).getLinked group.linked).bind fun cached =>
    if cached.gate = [] then none else dial.usableChain request group cached

theorem cachedChain_gated {group : ExitGroup} {pick : ChainPick}
    (hcached : dial.cachedChain request group = some pick) :
    pick.Gated ∧ request.gates.levels ≠ [] := by
  obtain ⟨cached, _, hsome⟩ := Option.bind_eq_some_iff.mp hcached
  split at hsome
  · cases hsome
  · rename_i hgate
    exact GateLevels.resolve_gated (Option.filter_eq_some_iff.mp hsome).1 hgate

theorem stickyRoute_none {group : ExitGroup}
    (hcached : (dial.await arith rng world).cachedChain request group = none) :
    (dial.stickyRoute arith rng world request group).2 = none ∧
      (dial.stickyRoute arith rng world request group).1.attempts = dial.attempts := by
  unfold cachedChain at hcached
  unfold stickyRoute
  dsimp only
  cases hlinked : ((dial.await arith rng world).rotators group.rotator).getLinked
      group.linked with
  | none => exact ⟨rfl, rfl⟩
  | some cached =>
      rw [hlinked, Option.bind_some] at hcached
      dsimp only
      by_cases hgate : cached.gate = []
      · rw [if_pos hgate]
        refine ⟨rfl, ?_⟩
        unfold queueCached
        dsimp only
        split <;> rfl
      · rw [if_neg hgate] at hcached ⊢
        rw [hcached]
        exact ⟨rfl, rfl⟩

theorem stickyRoute_some {group : ExitGroup} {pick : ChainPick}
    (hcached : (dial.await arith rng world).cachedChain request group = some pick)
    (hroom : dial.attempts < request.maxUpstreamAttempts) :
    dial.stickyRoute arith rng world request group =
      if dial.triedRoutes.contains pick.key then (dial.await arith rng world, none)
      else (dial.await arith rng world).tryChain arith rng world request pick := by
  obtain ⟨cached, hlinked, hsome⟩ := Option.bind_eq_some_iff.mp hcached
  have hgate : cached.gate ≠ [] := by
    intro hgate
    rw [if_pos hgate] at hsome
    cases hsome
  have hroom' : ¬ request.maxUpstreamAttempts ≤ (dial.await arith rng world).attempts :=
    not_le.mpr hroom
  rw [if_neg hgate] at hsome
  unfold stickyRoute
  dsimp only
  rw [hlinked]
  dsimp only
  rw [if_neg hgate, hsome]
  dsimp only
  rw [if_neg hroom']
  rfl

/-! The ordinary exits. -/

theorem fillFrom_candidates (request : Request) (r : RotatorId) (order : List ProxyConfig)
    (dial : Dial ρ) : dial.candidates <+: (dial.fillFrom request r order).candidates := by
  induction order generalizing dial with
  | nil => exact List.prefix_refl _
  | cons proxy rest ih =>
      rw [fillFrom]
      split
      · exact ih dial
      · split
        · exact List.prefix_refl _
        · have hrest := ih { dial with
            triedRoutes := singletonKey proxy :: dial.triedRoutes
            candidates := dial.candidates ++ [⟨r, proxy, false⟩] }
          exact (List.prefix_append _ _).trans hrest

def drawn (arith : FloatArith) (rng : Rng ρ) (world : World) (dial : Dial ρ) (r : RotatorId)
    (rotator : Rotator ρ) : Dial ρ :=
  { dial.await arith rng world with
    rotators := Function.update (dial.await arith rng world).rotators r rotator }

theorem fillExits_candidates (arith : FloatArith) (rng : Rng ρ) (world : World)
    (request : Request) (rs : List RotatorId) (dial : Dial ρ) :
    dial.candidates <+: (dial.fillExits arith rng world request rs).1.candidates := by
  induction rs generalizing dial with
  | nil => exact List.prefix_refl _
  | cons r rest ih =>
      rw [fillExits]
      split
      · exact List.prefix_refl _
      · dsimp only
        split
        · exact List.prefix_refl _
        · rename_i order rotator _
          have hfill := fillFrom_candidates request r order
            (dial.drawn arith rng world r rotator)
          exact hfill.trans (ih _)

theorem fillFrom_nonempty (hbudgeted : Budgeted arith rng request first dial)
    (hroom : dial.attempts < request.maxUpstreamAttempts) (r : RotatorId)
    {order : List ProxyConfig} (horder : order ≠ []) :
    (dial.fillFrom request r order).candidates ≠ [] := by
  by_cases hqueued : dial.candidates = []
  · cases order with
    | nil => exact absurd rfl horder
    | cons proxy rest =>
        have hnew : singletonKey proxy ∉ dial.triedRoutes := by
          intro htried
          have hmem := hbudgeted.queued _ htried rfl
          rw [hqueued] at hmem
          cases hmem
        have hopen : dial.full request = false := by
          simp [full, hqueued, hroom]
        rw [fillFrom, if_neg (by simpa using hnew), if_neg (by simp [hopen])]
        have hfront := fillFrom_candidates request r rest { dial with
          triedRoutes := singletonKey proxy :: dial.triedRoutes
          candidates := dial.candidates ++ [⟨r, proxy, false⟩] }
        intro hnil
        rw [hnil] at hfront
        simpa using List.prefix_nil.mp hfront
  · intro hnil
    have hfront := fillFrom_candidates request r order dial
    rw [hnil] at hfront
    exact hqueued (List.prefix_nil.mp hfront)

theorem exists_drawn (hbudgeted : Budgeted arith rng request first dial)
    (hwhole : ∀ r, (first r).Whole) (world : World) (r : RotatorId) :
    ∃ order rotator, ((dial.await arith rng world).rotators r).pickOrder arith rng
        (world.clock (dial.await arith rng world).turn 0) = (some order, rotator) ∧
      ((first r).proxies ≠ [] → order ≠ []) ∧
      Budgeted arith rng request first (dial.drawn arith rng world r rotator) := by
  have hawaited := hbudgeted.await world
  let rotator := (dial.await arith rng world).rotators r
  let now := world.clock (dial.await arith rng world).turn 0
  obtain ⟨order, horder, _, hne⟩ : ∃ order, (rotator.pickOrder arith rng now).1 = some order ∧
      _ ∧ (rotator.proxies ≠ [] → order ≠ []) :=
    Rotator.pickOrder_spec (hawaited.whole hwhole r) now
  refine ⟨order, (rotator.pickOrder arith rng now).2, Prod.ext horder rfl, fun hexit => ?_, ?_⟩
  · refine hne ?_
    rw [(hawaited.rotators r).proxies]
    exact hexit
  · exact hawaited.use (RotatorsUse.update (Rotator.pickOrder_uses arith rng rotator now))

theorem fillExits_none (hbudgeted : Budgeted arith rng request first dial)
    (hwhole : ∀ r, (first r).Whole) (rs : List RotatorId) :
    (dial.fillExits arith rng world request rs).2 = none := by
  induction rs generalizing dial with
  | nil => rfl
  | cons r rest ih =>
      obtain ⟨order, rotator, hdrawn, _, hbudgeted'⟩ := exists_drawn hbudgeted hwhole world r
      rw [fillExits]
      split
      · rfl
      · dsimp only
        rw [hdrawn]
        exact ih (fillFrom_budgeted hbudgeted' r order).1

theorem fillExits_nonempty (hbudgeted : Budgeted arith rng request first dial)
    (hwhole : ∀ r, (first r).Whole) (hroom : dial.attempts < request.maxUpstreamAttempts)
    {rs : List RotatorId} (hexit : ∃ r ∈ rs, (first r).proxies ≠ []) :
    (dial.fillExits arith rng world request rs).1.candidates ≠ [] := by
  induction rs generalizing dial with
  | nil => simp at hexit
  | cons r rest ih =>
      obtain ⟨order, rotator, hdrawn, hne, hbudgeted'⟩ := exists_drawn hbudgeted hwhole world r
      obtain ⟨hfilled, hattempts, _⟩ := fillFrom_budgeted hbudgeted' r order
      rw [fillExits]
      split
      · rename_i hfull
        intro hnil
        have hle := full_iff.mp hfull
        rw [hnil, List.length_nil] at hle
        omega
      · dsimp only
        rw [hdrawn]
        by_cases hhere : (first r).proxies = []
        · obtain ⟨other, hother, hsome⟩ := hexit
          refine ih hfilled (hattempts.le.trans_lt hroom) ⟨other, ?_, hsome⟩
          cases hother with
          | head => exact absurd hhere hsome
          | tail _ hrest => exact hrest
        · have hqueued := fillFrom_nonempty hbudgeted' hroom r (hne hhere)
          intro hnil
          have hfront := fillExits_candidates arith rng world request rest
            ((dial.drawn arith rng world r rotator).fillFrom request r order)
          exact hqueued (List.prefix_nil.mp (hnil ▸ hfront))

/-- A sticky route connects, or spends at most one attempt, on a cached chain that fails. -/
theorem stickyRoute_spends (hbudgeted : Budgeted arith rng request first dial)
    (hwhole : ∀ r, (first r).Whole) (group : ExitGroup)
    (hroom : dial.attempts < request.maxUpstreamAttempts) :
    (dial.stickyRoute arith rng world request group).2 = some .chained ∨
      (dial.stickyRoute arith rng world request group).2 = none ∧
        ((dial.stickyRoute arith rng world request group).1.attempts = dial.attempts ∨
          (dial.stickyRoute arith rng world request group).1.attempts = dial.attempts + 1 ∧
            ∃ pick error, (dial.await arith rng world).cachedChain request group = some pick ∧
              pick.key ∉ dial.triedRoutes ∧
              (dial.await arith rng world).chainResult world request pick = .error error ∧
              dial.stickyRoute arith rng world request group =
                (dial.await arith rng world).tryChain arith rng world request pick) := by
  have hawaited := hbudgeted.await world
  cases hcached : (dial.await arith rng world).cachedChain request group with
  | none =>
      obtain ⟨hverdict, hattempts⟩ := stickyRoute_none hcached
      exact .inr ⟨hverdict, .inl hattempts⟩
  | some pick =>
      rw [stickyRoute_some hcached hroom]
      split
      · exact .inr ⟨rfl, .inl rfl⟩
      · rename_i hnew
        have hnew : pick.key ∉ dial.triedRoutes := by simpa using hnew
        obtain ⟨hgated, hgates⟩ := cachedChain_gated hcached
        have hverdict : ((dial.await arith rng world).tryChain arith rng world request pick).2 = _ :=
          tryChain_verdict hawaited hwhole hgates hgated hnew hroom
        obtain ⟨_, hspent, _⟩ : _ ∧ Dial.Spent _
            ((dial.await arith rng world).tryChain arith rng world request pick).1 1 ∧ _ :=
          tryChain_budgeted hawaited hgates hgated hnew hroom
        rw [hverdict]
        cases hresult : (dial.await arith rng world).chainResult world request pick with
        | ok _ => exact .inl rfl
        | error error =>
            exact .inr ⟨rfl, .inr ⟨hspent.attempts, pick, error, rfl, hnew, hresult, rfl⟩⟩

end

end Dial

section

variable {ρ : Type u} {arith : FloatArith} {rng : Rng ρ} {world : World} {request : Request}
  {first : Rotators ρ}

/-- Unless a chain connected, the chains have left an attempt, and an ordinary exit has been
tried. -/
def FallbackKept (request : Request) (run : Dial ρ × Option Verdict) : Prop :=
  run.2 = some .chained ∨
    (run.1.launches.filter Launch.isChain).length < request.maxUpstreamAttempts ∧
      ∃ launch ∈ run.1.launches, launch.isChain = false

theorem chainCount {launches : List Launch} {queue : List ExitCandidate}
    (hchains : ∀ launch ∈ launches, launch.isChain = true) :
    ((launches ++ queue.map fun candidate => Launch.exit candidate.proxy).filter
      Launch.isChain) = launches := by
  rw [List.filter_append, List.filter_eq_self.mpr hchains, List.filter_map,
    List.filter_eq_nil_iff.mpr (by simp [Launch.isChain]), List.map_nil, List.append_nil]

theorem exitPhases_kept {dial : Dial ρ} (hbudgeted : Dial.Budgeted arith rng request first dial)
    (hwhole : ∀ r, (first r).Whole)
    (hexit : ∃ r ∈ request.exitRotators, (first r).proxies ≠ [])
    (hroom : dial.attempts < request.maxUpstreamAttempts) :
    FallbackKept request (dial.exitPhases arith rng world request) := by
  let filled := dial.fillExits arith rng world request request.exitRotators
  have hverdict : filled.2 = none := Dial.fillExits_none hbudgeted hwhole _
  obtain ⟨hfilled, hattempts, hlaunches⟩ : Dial.Budgeted arith rng request first filled.1 ∧
      filled.1.attempts = dial.attempts ∧ _ := Dial.fillExits_budgeted hbudgeted _
  have hqueued : filled.1.candidates ≠ [] :=
    Dial.fillExits_nonempty hbudgeted hwhole hroom hexit
  have hrun : dial.exitPhases arith rng world request =
      filled.1.raceExits arith rng world request := by
    rw [Dial.exitPhases]
    show Dial.andThen filled _ = _
    rw [← Prod.mk.eta (p := filled), hverdict]
    rfl
  obtain ⟨queue, _, hfirst, hraced⟩ : ∃ queue, queue <+: _ ∧ _ ∧
      (filled.1.raceExits arith rng world request).1.launches = _ :=
    Dial.raceExits_launches world filled.1
  have hchains : ∀ launch ∈ filled.1.launches, launch.isChain = true :=
    fun launch hlaunch => (hfilled.gated launch hlaunch).1
  refine .inr ?_
  rw [hrun, hraced, chainCount hchains]
  refine ⟨by rw [hfilled.counted, hattempts]; exact hroom, ?_⟩
  have hne : queue ≠ [] := by
    refine hfirst fun hnil => ?_
    obtain hzero | hnil := List.take_eq_nil_iff.mp hnil
    · omega
    · exact hqueued hnil
  obtain ⟨candidate, hcandidate⟩ := List.exists_mem_of_ne_nil queue hne
  exact ⟨.exit candidate.proxy, List.mem_append_right _ (List.mem_map_of_mem hcandidate), rfl⟩

theorem andThen_none {step : Dial ρ × Option Verdict}
    {next : Dial ρ → Dial ρ × Option Verdict} (hgoes : step.2 = none) :
    Dial.andThen step next = next step.1 := by
  obtain ⟨dial, verdict⟩ := step
  cases hgoes
  rfl

theorem andThen_some {step : Dial ρ × Option Verdict}
    {next : Dial ρ → Dial ρ × Option Verdict} {verdict : Verdict}
    (hends : step.2 = some verdict) : Dial.andThen step next = step := by
  obtain ⟨dial, other⟩ := step
  cases hends
  rfl

theorem plannedChains_kept {dial : Dial ρ}
    (hbudgeted : Dial.Budgeted arith rng request first dial) (hwhole : ∀ r, (first r).Whole)
    (hexit : ∃ r ∈ request.exitRotators, (first r).proxies ≠ [])
    (hroom : dial.attempts < request.maxUpstreamAttempts) :
    FallbackKept request (Dial.andThen (dial.plannedChains arith rng world request)
      (Dial.exitPhases arith rng world request)) := by
  obtain ⟨hplanned, hspared⟩ : Dial.Budgeted arith rng request first
      (dial.plannedChains arith rng world request).1 ∧ _ :=
    Dial.plannedChains_budgeted world hbudgeted
  obtain hchained | hnone | ⟨hpanic, _⟩ :
      (dial.plannedChains arith rng world request).2 = some .chained ∨ _ ∨ _ :=
    Dial.plannedChains_verdict hbudgeted
  · rw [andThen_some hchained]
    exact .inl hchained
  · rw [andThen_none hnone]
    exact exitPhases_kept hplanned hwhole hexit (hspared.spare (hbudgeted.reserve hexit) hroom)
  · have hsome : ((dial.await arith rng world).planOrNew arith rng world request).isSome = true :=
      Dial.planOrNew_isSome ((hbudgeted.await world).whole hwhole)
    rw [hpanic] at hsome
    cases hsome

/-- Both exit groups offer a chain of their own from their caches, and both chains fail, with
a budget of two. -/
def BothCachedChainsFail (arith : FloatArith) (rng : Rng ρ) (world : World) (request : Request)
    (rotators : Rotators ρ) : Prop :=
  request.maxUpstreamAttempts = 2 ∧ ∃ v6 v4, request.v6 = some v6 ∧ request.v4 = some v4 ∧
    let asked := (Dial.start request rotators).await arith rng world
    ∃ left error, asked.cachedChain request v6 = some left ∧
      asked.chainResult world request left = .error error ∧
      let askedNext := (asked.tryChain arith rng world request left).1.await arith rng world
      ∃ right error', askedNext.cachedChain request v4 = some right ∧ right.key ≠ left.key ∧
        askedNext.chainResult world request right = .error error'

theorem establishConnection_eq (hallowed : request.banned = false) :
    establishConnection arith rng world request first =
      Dial.andThen (Dial.stickyRoutes arith rng world request request.exits
          (Dial.start request first)) fun dial =>
        Dial.andThen (dial.plannedChains arith rng world request)
          (Dial.exitPhases arith rng world request) := by
  rw [establishConnection, if_neg (by simp [hallowed]), Dial.chainPhases]
  cases Dial.stickyRoutes arith rng world request request.exits (Dial.start request first) with
  | mk dial verdict => cases verdict <;> rfl

theorem stickyRoutes_singleton (group : ExitGroup) (dial : Dial ρ) :
    Dial.stickyRoutes arith rng world request [group] dial =
      dial.stickyRoute arith rng world request group := by
  rw [Dial.stickyRoutes]
  cases dial.stickyRoute arith rng world request group with
  | mk dial verdict => cases verdict <;> rfl

theorem tryChain_start (hwhole : ∀ r, (first r).Whole)
    (hmax : 2 ≤ request.maxUpstreamAttempts) {group : ExitGroup} {pick : ChainPick}
    (hcached : ((Dial.start request first).await arith rng world).cachedChain request group =
      some pick) :
    let asked := (Dial.start request first).await arith rng world
    let after := asked.tryChain arith rng world request pick
    Dial.Budgeted arith rng request first after.1 ∧ after.1.attempts = 1 ∧
      after.1.candidates = [] ∧ after.1.triedRoutes = [pick.key] ∧
      after.2 = match asked.chainResult world request pick with
        | .ok () => some .chained
        | .error _ => none := by
  have hasked : Dial.Budgeted arith rng request first
      ((Dial.start request first).await arith rng world) :=
    (Dial.start_budgeted first).await world
  obtain ⟨hgated, hgates⟩ := Dial.cachedChain_gated hcached
  have hroom : ((Dial.start request first).await arith rng world).attempts <
      request.maxUpstreamAttempts := Nat.lt_of_lt_of_le Nat.zero_lt_two hmax
  have hnew : pick.key ∉ ((Dial.start request first).await arith rng world).triedRoutes :=
    List.not_mem_nil
  obtain ⟨hafter, hspent, _, htried⟩ : Dial.Budgeted arith rng request first
      (((Dial.start request first).await arith rng world).tryChain arith rng world request
        pick).1 ∧ _ ∧ _ ∧ _ := Dial.tryChain_budgeted hasked hgates hgated hnew hroom
  exact ⟨hafter, hspent.attempts, hspent.candidates, htried,
    Dial.tryChain_verdict hasked hwhole hgates hgated hnew hroom⟩

/-- Connected, or going on with an attempt of the budget left. -/
def LeavesAttempt (request : Request) (run : Dial ρ × Option Verdict) : Prop :=
  run.2 = some .chained ∨ run.2 = none ∧ run.1.attempts < request.maxUpstreamAttempts

theorem stickyRoute_leaves (hwhole : ∀ r, (first r).Whole)
    (hmax : 2 ≤ request.maxUpstreamAttempts) (group : ExitGroup) :
    LeavesAttempt request (Dial.stickyRoutes arith rng world request [group]
      (Dial.start request first)) := by
  have hroom : (Dial.start request first).attempts < request.maxUpstreamAttempts :=
    Nat.lt_of_lt_of_le Nat.zero_lt_two hmax
  have hzero : (Dial.start request first).attempts = 0 := rfl
  rw [stickyRoutes_singleton]
  obtain hchained | ⟨hnone, hattempts⟩ :
      ((Dial.start request first).stickyRoute arith rng world request group).2 = some .chained ∨
        _ := Dial.stickyRoute_spends (Dial.start_budgeted first) hwhole group hroom
  · exact .inl hchained
  · exact .inr ⟨hnone, by omega⟩

theorem stickyPair_leaves (hwhole : ∀ r, (first r).Whole)
    (hmax : 2 ≤ request.maxUpstreamAttempts) {v6 v4 : ExitGroup} (hv6 : request.v6 = some v6)
    (hv4 : request.v4 = some v4)
    (hfine : ¬ BothCachedChainsFail arith rng world request first) :
    LeavesAttempt request (Dial.stickyRoutes arith rng world request [v6, v4]
      (Dial.start request first)) := by
  have hroom : (Dial.start request first).attempts < request.maxUpstreamAttempts :=
    Nat.lt_of_lt_of_le Nat.zero_lt_two hmax
  have hzero : (Dial.start request first).attempts = 0 := rfl
  have hbudgeted : Dial.Budgeted arith rng request first
      ((Dial.start request first).stickyRoute arith rng world request v6).1 :=
    Dial.stickyRoute_budgeted world (Dial.start_budgeted first) v6
  rw [Dial.stickyRoutes]
  obtain hchained | ⟨hnone, hspent⟩ :
      ((Dial.start request first).stickyRoute arith rng world request v6).2 = some .chained ∨
        _ := Dial.stickyRoute_spends (Dial.start_budgeted first) hwhole v6 hroom
  · rw [andThen_some hchained]
    exact .inl hchained
  · rw [andThen_none hnone, stickyRoutes_singleton]
    obtain hchained | ⟨hnone', hspent'⟩ :
        (Dial.stickyRoute arith rng world request v4
          ((Dial.start request first).stickyRoute arith rng world request v6).1).2 =
            some .chained ∨ _ :=
      Dial.stickyRoute_spends hbudgeted hwhole v4 (by omega)
    · exact .inl hchained
    · refine .inr ⟨hnone', ?_⟩
      by_contra hfull
      obtain hsame | ⟨hone, left, error, hleft, _, hfailed, hroute⟩ := hspent
      · omega
      obtain hsame' | ⟨htwo, right, error', hright, hnew, hfailed', _⟩ := hspent'
      · omega
      obtain ⟨_, _, _, htried, _⟩ := tryChain_start hwhole hmax hleft
      rw [hroute] at hright hnew hfailed'
      rw [htried, List.mem_singleton] at hnew
      exact hfine ⟨by omega, v6, v4, hv6, hv4, left, error, hleft, hfailed, right, error',
        hright, hnew, hfailed'⟩

theorem stickyRoutes_leave (hwhole : ∀ r, (first r).Whole)
    (hmax : 2 ≤ request.maxUpstreamAttempts)
    (hfine : ¬ BothCachedChainsFail arith rng world request first) :
    LeavesAttempt request (Dial.stickyRoutes arith rng world request request.exits
      (Dial.start request first)) := by
  cases hv6 : request.v6 with
  | none =>
      cases hv4 : request.v4 with
      | none =>
          rw [Request.exits, hv6, hv4]
          exact .inr ⟨rfl, Nat.lt_of_lt_of_le Nat.zero_lt_two hmax⟩
      | some v4 =>
          rw [Request.exits, hv6, hv4]
          exact stickyRoute_leaves hwhole hmax v4
  | some v6 =>
      cases hv4 : request.v4 with
      | none =>
          rw [Request.exits, hv6, hv4]
          exact stickyRoute_leaves hwhole hmax v6
      | some v4 =>
          rw [Request.exits, hv6, hv4]
          exact stickyPair_leaves hwhole hmax hv6 hv4 hfine

theorem spent_not_kept {dial : Dial ρ} (hbudgeted : Dial.Budgeted arith rng request first dial)
    (hspent : dial.attempts = request.maxUpstreamAttempts) (hqueue : dial.candidates = []) :
    ¬ FallbackKept request (Dial.andThen (dial.plannedChains arith rng world request)
      (Dial.exitPhases arith rng world request)) := by
  have hroom : (dial.await arith rng world).roomForChains request = false := by
    rw [Dial.roomForChains, decide_eq_false_iff_not]
    show ¬ dial.attempts + dial.directReserve < request.maxUpstreamAttempts
    omega
  have hplanned : dial.plannedChains arith rng world request =
      (dial.await arith rng world, none) := by
    rw [Dial.plannedChains, if_neg (by simp [hroom])]
  have hfull : (dial.await arith rng world).full request = true :=
    Dial.full_iff.mpr (hspent.ge.trans (Nat.le_add_right _ _))
  have hfill : (dial.await arith rng world).fillExits arith rng world request
      request.exitRotators = (dial.await arith rng world, none) := by
    cases request.exitRotators with
    | nil => rfl
    | cons r rest => rw [Dial.fillExits, if_pos hfull]
  have hrun : Dial.andThen (dial.plannedChains arith rng world request)
      (Dial.exitPhases arith rng world request) =
        (dial.await arith rng world).raceExits arith rng world request := by
    rw [hplanned]
    show (dial.await arith rng world).exitPhases arith rng world request = _
    rw [Dial.exitPhases, hfill]
    rfl
  obtain ⟨queue, hfront, _, hlaunches⟩ : ∃ queue, queue <+: _ ∧ _ ∧
      ((dial.await arith rng world).raceExits arith rng world request).1.launches = _ :=
    Dial.raceExits_launches world (dial.await arith rng world)
  have hempty : queue = [] := by
    have hnil : (dial.await arith rng world).candidates = [] := hqueue
    rw [hnil, List.take_nil] at hfront
    exact List.prefix_nil.mp hfront
  rw [hempty, List.map_nil, List.append_nil] at hlaunches
  rw [hrun]
  rintro (hchained | ⟨_, launch, hlaunch, hexit⟩)
  · rw [Dial.raceExits] at hchained
    dsimp only at hchained
    split at hchained <;> cases hchained
  · rw [hlaunches] at hlaunch
    rw [(hbudgeted.gated launch hlaunch).1] at hexit
    cases hexit

theorem bothFail_spent (hwhole : ∀ r, (first r).Whole)
    (hboth : BothCachedChainsFail arith rng world request first) :
    ∃ dial, Dial.Budgeted arith rng request first dial ∧
      Dial.stickyRoutes arith rng world request request.exits (Dial.start request first) =
        (dial, none) ∧
      dial.attempts = request.maxUpstreamAttempts ∧ dial.candidates = [] := by
  obtain ⟨htwo, v6, v4, hv6, hv4, left, error, hleft, hfailed, right, error', hright, hne,
    hfailed'⟩ := hboth
  obtain ⟨hafter, hone, hempty, htried, hverdict⟩ := tryChain_start hwhole htwo.ge hleft
  rw [hfailed] at hverdict
  have hfirst : (Dial.start request first).stickyRoute arith rng world request v6 =
      ((Dial.start request first).await arith rng world).tryChain arith rng world request
        left := by
    rw [Dial.stickyRoute_some hleft (Nat.lt_of_lt_of_le Nat.zero_lt_two htwo.ge)]
    rfl
  let after := (((Dial.start request first).await arith rng world).tryChain arith rng world
    request left).1
  have hone' : after.attempts < request.maxUpstreamAttempts := by
    rw [hone, htwo]
    exact Nat.one_lt_two
  have hnew : right.key ∉ after.triedRoutes := by
    rw [htried, List.mem_singleton]
    exact hne
  have hsecond : after.stickyRoute arith rng world request v4 =
      (after.await arith rng world).tryChain arith rng world request right := by
    rw [Dial.stickyRoute_some hright hone', if_neg (by simpa using hnew)]
  obtain ⟨hgated, hgates⟩ := Dial.cachedChain_gated hright
  have hawaited := hafter.await world
  obtain ⟨hlast, hspent, _, _⟩ : Dial.Budgeted arith rng request first
      ((after.await arith rng world).tryChain arith rng world request right).1 ∧ _ ∧ _ ∧ _ :=
    Dial.tryChain_budgeted hawaited hgates hgated hnew hone'
  have hverdict' : ((after.await arith rng world).tryChain arith rng world request right).2 =
      none := by
    rw [Dial.tryChain_verdict hawaited hwhole hgates hgated hnew hone', hfailed']
  refine ⟨_, hlast, ?_, ?_, hspent.candidates.trans hempty⟩
  · rw [Request.exits, hv6, hv4]
    show Dial.stickyRoutes arith rng world request [v6, v4] _ = _
    rw [Dial.stickyRoutes, hfirst, andThen_none hverdict, stickyRoutes_singleton]
    exact hsecond.trans (Prod.ext rfl hverdict')
  · rw [hspent.attempts, htwo]
    exact congrArg (· + 1) hone

/-- The reserve for the ordinary exits is kept by every request but those with a budget of two
whose two exit groups both have a cached chain that fails. -/
theorem fallback_reserve (arith : FloatArith) (rng : Rng ρ) (world : World) (request : Request)
    (rotators : Rotators ρ) (hwhole : ∀ r, (rotators r).Whole)
    (hallowed : request.banned = false)
    (hexit : ∃ r ∈ request.exitRotators, (rotators r).proxies ≠ [])
    (hmax : 2 ≤ request.maxUpstreamAttempts) :
    FallbackKept request (establishConnection arith rng world request rotators) ↔
      ¬ BothCachedChainsFail arith rng world request rotators := by
  rw [establishConnection_eq hallowed]
  constructor
  · intro hkept hboth
    obtain ⟨dial, hbudgeted, hsticky, hspent, hqueue⟩ := bothFail_spent hwhole hboth
    rw [hsticky] at hkept
    exact spent_not_kept hbudgeted hspent hqueue hkept
  · intro hfine
    have hbudgeted : Dial.Budgeted arith rng request rotators (Dial.stickyRoutes arith rng
        world request request.exits (Dial.start request rotators)).1 :=
      Dial.stickyRoutes_budgeted (Dial.start_budgeted rotators) request.exits
    obtain hchained | ⟨hnone, hroom⟩ : LeavesAttempt request (Dial.stickyRoutes arith rng
        world request request.exits (Dial.start request rotators)) :=
      stickyRoutes_leave hwhole hmax hfine
    · rw [andThen_some hchained]
      exact .inl hchained
    · rw [andThen_none hnone]
      exact plannedChains_kept hbudgeted hwhole hexit hroom

end

def sampleGroups : Rotators UInt64 := fun r =>
  let proxies :=
    if r = 0 then [sampleNode 1 1]
    else if r = 1 then [sampleNode 2 0]
    else [sampleNode 3 0, sampleNode 4 0]
  ⟨proxies, Ratings.fresh proxies.length
    ⟨.finite 30, .finite 1, .finite 8, .finite 1, .finite 1⟩ ⟨3, 30, 600, 25, three_le_u32Max⟩ 0 7⟩

theorem sampleGroups_whole (r : RotatorId) : (sampleGroups r).Whole := by
  simp [sampleGroups, Rotator.Whole, Ratings.fresh]

def sampleWorld : World where
  clock turn i := turn + i
  others _ _ := []
  network _ := ⟨.error (.io .connect none), fun _ => true, fun _ => .ok ()⟩
  race := []

def sampleRequest (budget : Nat) : Request where
  targetAddr := lit "example.org:443"
  banned := false
  gates := GateLevels.new [⟨1, 0⟩]
  v6 := some ⟨1, some ⟨(sampleNode 2 0).node, [(sampleNode 1 1).node]⟩⟩
  v4 := some ⟨2, some ⟨(sampleNode 3 0).node, [(sampleNode 1 1).node]⟩⟩
  maxUpstreamAttempts := budget
  hedgeDelay := 0
  tlsConnector := false

/-- With a budget of three, an exit is tried after both chains. -/
theorem fallback_reserve_three :
    FallbackKept (sampleRequest 3)
      (establishConnection Ratings.exactArith smallRng sampleWorld (sampleRequest 3)
        sampleGroups) :=
  (fallback_reserve Ratings.exactArith smallRng sampleWorld (sampleRequest 3) sampleGroups
    sampleGroups_whole rfl ⟨1, by decide, by decide⟩ (by decide)).mpr
      fun hboth => absurd hboth.1 (by decide)

/-- With a budget of two, the cached chains of the two groups leave none of it. -/
theorem fallback_reserve_spent :
    (sampleRequest 2).maxUpstreamAttempts = 2 ∧ (sampleRequest 2).gates.isEmpty = false ∧
      (∃ r ∈ (sampleRequest 2).exitRotators, (sampleGroups r).proxies ≠ []) ∧
      ¬ FallbackKept (sampleRequest 2)
        (establishConnection Ratings.exactArith smallRng sampleWorld (sampleRequest 2)
          sampleGroups) := by
  have hlaunches : (establishConnection Ratings.exactArith smallRng sampleWorld
      (sampleRequest 2) sampleGroups).1.launches.all Launch.isChain = true := by
    decide +kernel
  have hverdict : (establishConnection Ratings.exactArith smallRng sampleWorld
      (sampleRequest 2) sampleGroups).2 = some (.failed 2) := by
    decide +kernel
  refine ⟨rfl, rfl, ⟨1, by decide, by decide⟩, ?_⟩
  rintro (hchained | ⟨_, launch, hlaunch, hexit⟩)
  · rw [hverdict] at hchained
    cases hchained
  · rw [List.all_eq_true.mp hlaunches launch hlaunch] at hexit
    cases hexit

end Resocks5.Server
