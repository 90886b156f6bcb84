import Resocks5.Server.Establish

namespace Resocks5.Server

open Resocks5.Chain
open Resocks5.Connect
open Resocks5.Foundation
open Resocks5.Rating
open Resocks5.Session
open Resocks5.Types

/-! One budget and one set of routes for all phases of a request. -/

theorem ChainPick.route_config (pick : ChainPick) :
    (Launch.chain pick.config).route = pick.key := by
  rw [Launch.route, pick.config_eq]

namespace Dial

section

variable {ρ : Type u} {arith : FloatArith} {rng : Rng ρ} {world : World} {request : Request}

def routes (dial : Dial ρ) : List ChainKey :=
  dial.launches.map Launch.route ++ dial.candidates.map ExitCandidate.route

structure Budgeted (arith : FloatArith) (rng : Rng ρ) (request : Request) (first : Rotators ρ)
    (dial : Dial ρ) : Prop where
  rotators : RotatorsUse arith rng first dial.rotators
  counted : dial.launches.length = dial.attempts
  budget : dial.attempts ≤ request.maxUpstreamAttempts
  distinct : dial.routes.Nodup
  tried : ∀ key ∈ dial.routes, key ∈ dial.triedRoutes
  gated : ∀ launch ∈ dial.launches, launch.isChain = true ∧ launch.route.exit.gate ≠ []
  queued : ∀ key ∈ dial.triedRoutes, key.exit.gate = [] →
    key ∈ dial.candidates.map ExitCandidate.route
  planned : ∀ plan, dial.plan = some plan → ∃ left, plan.Planned left
  reserve : (∃ r ∈ request.exitRotators, (first r).proxies ≠ []) → 1 ≤ dial.directReserve

variable {first : Rotators ρ} {dial : Dial ρ}

theorem start_budgeted (first : Rotators ρ) :
    Budgeted arith rng request first (Dial.start request first) where
  rotators := RotatorsUse.refl first
  counted := rfl
  budget := Nat.zero_le _
  distinct := List.nodup_nil
  tried _ hkey := by cases hkey
  gated _ hlaunch := by cases hlaunch
  queued _ hkey := by cases hkey
  planned _ hplan := by cases hplan
  reserve hexit := by
    obtain ⟨r, hr, hne⟩ := hexit
    have hany : request.exitRotators.any (fun r => !(first r).proxies.isEmpty) = true :=
      List.any_eq_true.mpr ⟨r, hr, by simpa using hne⟩
    simp [start, hany]

theorem Budgeted.use (hbudgeted : Budgeted arith rng request first dial)
    {turn : Nat} {rotators : Rotators ρ} (huse : RotatorsUse arith rng dial.rotators rotators) :
    Budgeted arith rng request first { dial with turn, rotators } :=
  { hbudgeted with rotators := hbudgeted.rotators.trans huse }

theorem Budgeted.replan (hbudgeted : Budgeted arith rng request first dial) {plan : ChainPlan}
    {left : Nat} (hplanned : plan.Planned left) :
    Budgeted arith rng request first { dial with plan := some plan } :=
  { hbudgeted with
    planned := by
      intro other hother
      cases hother
      exact ⟨left, hplanned⟩ }

theorem Budgeted.await (hbudgeted : Budgeted arith rng request first dial) (world : World) :
    Budgeted arith rng request first (dial.await arith rng world) :=
  hbudgeted.use fun r => ⟨world.others dial.turn r, rfl⟩

theorem Budgeted.launchChain (hbudgeted : Budgeted arith rng request first dial)
    {pick : ChainPick} (hgated : pick.Gated) (hnew : pick.key ∉ dial.triedRoutes)
    (hroom : dial.attempts < request.maxUpstreamAttempts) :
    Budgeted arith rng request first (dial.launchChain pick) := by
  have hroutes : (dial.launchChain pick).routes.Perm (pick.key :: dial.routes) := by
    simp only [routes, Dial.launchChain, List.map_append, List.map_cons, List.map_nil,
      ChainPick.route_config, List.append_assoc, List.singleton_append]
    exact List.perm_middle
  refine { hbudgeted with
    counted := by simp [Dial.launchChain, hbudgeted.counted]
    budget := hroom
    distinct := ?_
    tried := ?_
    gated := ?_
    queued := ?_ }
  · rw [hroutes.nodup_iff, List.nodup_cons]
    exact ⟨fun hmem => hnew (hbudgeted.tried _ hmem), hbudgeted.distinct⟩
  · intro key hkey
    cases hroutes.mem_iff.mp hkey with
    | head => exact List.mem_cons_self
    | tail _ hold => exact List.mem_cons_of_mem _ (hbudgeted.tried key hold)
  · intro launch hlaunch
    obtain hold | hlast := List.mem_append.mp hlaunch
    · exact hbudgeted.gated launch hold
    · obtain rfl := List.mem_singleton.mp hlast
      rw [ChainPick.route_config]
      exact ⟨rfl, hgated⟩
  · intro key hkey hloose
    cases hkey with
    | head => exact absurd hloose hgated
    | tail _ hold => exact hbudgeted.queued key hold hloose

theorem Budgeted.queue (hbudgeted : Budgeted arith rng request first dial)
    {candidate : ExitCandidate} (hnew : candidate.route ∉ dial.triedRoutes)
    {reserve : Nat} (hreserve : dial.directReserve ≤ reserve) :
    Budgeted arith rng request first
      { dial with
        triedRoutes := candidate.route :: dial.triedRoutes
        candidates := dial.candidates ++ [candidate]
        directReserve := reserve } := by
  have hroutes : (dial.launches.map Launch.route ++
      (dial.candidates ++ [candidate]).map ExitCandidate.route).Perm
        (candidate.route :: dial.routes) := by
    rw [List.map_append, ← List.append_assoc]
    exact List.perm_append_comm
  refine { hbudgeted with
    distinct := ?_
    tried := ?_
    queued := ?_
    reserve := fun hexit => (hbudgeted.reserve hexit).trans hreserve }
  · rw [routes, hroutes.nodup_iff, List.nodup_cons]
    exact ⟨fun hmem => hnew (hbudgeted.tried _ hmem), hbudgeted.distinct⟩
  · intro key hkey
    cases hroutes.mem_iff.mp hkey with
    | head => exact List.mem_cons_self
    | tail _ hold => exact List.mem_cons_of_mem _ (hbudgeted.tried key hold)
  · intro key hkey hloose
    rw [List.map_append, List.mem_append]
    cases hkey with
    | head => exact .inr List.mem_cons_self
    | tail _ hold => exact .inl (hbudgeted.queued key hold hloose)

/-- What the chains of one phase may change besides plan, rotators and time. -/
structure Spent (before after : Dial ρ) (count : Nat) : Prop where
  attempts : after.attempts = before.attempts + count
  reserve : after.directReserve = before.directReserve
  candidates : after.candidates = before.candidates

theorem Spent.refl (dial : Dial ρ) : Spent dial dial 0 := ⟨rfl, rfl, rfl⟩

theorem Spent.trans {a b c : Dial ρ} {m n : Nat} (hab : Spent a b m) (hbc : Spent b c n) :
    Spent a c (m + n) :=
  ⟨by rw [hbc.attempts, hab.attempts, Nat.add_assoc], hbc.reserve.trans hab.reserve,
    hbc.candidates.trans hab.candidates⟩

theorem planOrNew_planned (hbudgeted : Budgeted arith rng request first dial)
    (hgates : request.gates.levels ≠ []) {plan : ChainPlan} {rotators : Rotators ρ}
    (hplan : dial.planOrNew arith rng world request = some (plan, rotators)) :
    (∃ left, plan.Planned left) ∧ RotatorsUse arith rng dial.rotators rotators := by
  unfold planOrNew at hplan
  split at hplan
  · rename_i hold
    cases hplan
    exact ⟨hbudgeted.planned _ hold, RotatorsUse.refl _⟩
  · split at hplan
    · obtain ⟨hplanned, huse⟩ := planFor_planned hplan hgates
      exact ⟨⟨_, hplanned⟩, huse⟩
    · cases hplan
      exact ⟨⟨0, ChainPlan.planned_empty⟩, RotatorsUse.refl _⟩

theorem recordChainFailure_budgeted (hbudgeted : Budgeted arith rng request first dial)
    (hgates : request.gates.levels ≠ []) {pick : ChainPick} {error : ChainError}
    {after : Dial ρ}
    (hrecord : dial.recordChainFailure arith rng world request pick error = some after) :
    Budgeted arith rng request first after ∧ Spent dial after 0 ∧
      after.launches = dial.launches ∧ after.triedRoutes = dial.triedRoutes := by
  obtain ⟨⟨plan, rotators⟩, hplan, hmap⟩ := Option.bind_eq_some_iff.mp hrecord
  obtain ⟨⟨left, hplanned⟩, huse⟩ := planOrNew_planned hbudgeted hgates hplan
  obtain ⟨⟨quarantined, marked, rotators'⟩, hfailure, rfl⟩ := Option.map_eq_some_iff.mp hmap
  have hplan' : Budgeted arith rng request first { dial with plan := some plan, rotators } :=
    (hbudgeted.replan hplanned).use huse
  have hawaited := hplan'.await world
  obtain ⟨quarantined', marked', rotators'', hfailure', hplanned', huse'⟩ :=
    hplanned.recordFailure arith rng (world.clock (dial.turn + 1)) _ pick error.stage error.error
  cases hfailure.symm.trans hfailure'
  exact ⟨(hawaited.replan hplanned').use huse', ⟨rfl, rfl, rfl⟩, rfl, rfl⟩

theorem tryChain_budgeted (hbudgeted : Budgeted arith rng request first dial)
    (hgates : request.gates.levels ≠ []) {pick : ChainPick} (hgated : pick.Gated)
    (hnew : pick.key ∉ dial.triedRoutes) (hroom : dial.attempts < request.maxUpstreamAttempts) :
    Budgeted arith rng request first (dial.tryChain arith rng world request pick).1 ∧
      Spent dial (dial.tryChain arith rng world request pick).1 1 ∧
      (dial.tryChain arith rng world request pick).1.launches =
        dial.launches ++ [.chain pick.config] ∧
      (dial.tryChain arith rng world request pick).1.triedRoutes =
        pick.key :: dial.triedRoutes := by
  have hlaunched := (hbudgeted.launchChain hgated hnew hroom).await world
  unfold tryChain
  dsimp only
  split
  · exact ⟨hlaunched.use (recordSuccess_use pick _ _), ⟨rfl, rfl, rfl⟩, rfl, rfl⟩
  · split
    · exact ⟨hlaunched, ⟨rfl, rfl, rfl⟩, rfl, rfl⟩
    · rename_i after hrecord
      obtain ⟨hafter, hspent, hlaunches, htried⟩ :=
        recordChainFailure_budgeted hlaunched hgates hrecord
      exact ⟨hafter, ⟨hspent.attempts, hspent.reserve, hspent.candidates⟩, hlaunches, htried⟩

theorem stickyRoute_budgeted (world : World)
    (hbudgeted : Budgeted arith rng request first dial) (group : ExitGroup) :
    Budgeted arith rng request first (dial.stickyRoute arith rng world request group).1 := by
  have hawaited := hbudgeted.await world
  unfold stickyRoute
  dsimp only
  split
  · exact hawaited
  · rename_i cached _
    split
    · unfold queueCached
      dsimp only
      split
      · exact hawaited
      · rename_i hnew
        have hroute : (⟨group.rotator, cached, true⟩ : ExitCandidate).route ∉
            (dial.await arith rng world).triedRoutes := by
          rw [ExitCandidate.route]
          simpa using hnew
        exact hawaited.queue hroute (le_max_left _ _)
    · rename_i hgate
      split
      · exact hawaited
      · rename_i pick husable
        split
        · exact hawaited
        · rename_i hnew
          split
          · exact hawaited
          · rename_i hroom
            obtain ⟨hgated, hgates⟩ :=
              GateLevels.resolve_gated (Option.filter_eq_some_iff.mp husable).1 hgate
            exact (tryChain_budgeted hawaited hgates hgated (by simpa using hnew)
              (not_le.mp hroom)).1

theorem andThen_property {property : Dial ρ → Prop} {step : Dial ρ × Option Verdict}
    {next : Dial ρ → Dial ρ × Option Verdict} (hstep : property step.1)
    (hnext : step.2 = none → property (next step.1).1) : property (andThen step next).1 := by
  obtain ⟨dial, verdict⟩ := step
  cases verdict with
  | none => exact hnext rfl
  | some verdict => exact hstep

theorem stickyRoutes_budgeted (hbudgeted : Budgeted arith rng request first dial)
    (groups : List ExitGroup) :
    Budgeted arith rng request first (dial.stickyRoutes arith rng world request groups).1 := by
  induction groups generalizing dial with
  | nil => exact hbudgeted
  | cons group rest ih =>
      have hroute := stickyRoute_budgeted world hbudgeted group
      exact andThen_property hroute fun _ => ih hroute

theorem roomForChains_iff : dial.roomForChains request = true ↔
    dial.attempts + dial.directReserve < request.maxUpstreamAttempts := by
  simp [roomForChains]

theorem full_iff : dial.full request = true ↔
    request.maxUpstreamAttempts ≤ dial.attempts + dial.candidates.length := by
  simp [full]

/-- What a phase that keeps to the reserve leaves: the candidates, and one attempt for them. -/
structure Spared (request : Request) (before after : Dial ρ) : Prop where
  candidates : after.candidates = before.candidates
  spare : 1 ≤ before.directReserve → before.attempts < request.maxUpstreamAttempts →
    after.attempts < request.maxUpstreamAttempts

theorem Spared.refl (dial : Dial ρ) : Spared request dial dial := ⟨rfl, fun _ hspare => hspare⟩

theorem Spent.spared {after last : Dial ρ} (hspent : Spent dial after 1)
    (hroom : dial.attempts + dial.directReserve < request.maxUpstreamAttempts)
    (hspared : Spared request after last) : Spared request dial last := by
  refine ⟨hspared.candidates.trans hspent.candidates, fun hreserve _ => ?_⟩
  refine hspared.spare (by rw [hspent.reserve]; exact hreserve) ?_
  rw [hspent.attempts]
  omega

theorem planLoop_budgeted (fuel : Nat) (hbudgeted : Budgeted arith rng request first dial) :
    Budgeted arith rng request first (dial.planLoop arith rng world request fuel).1 ∧
      Spared request dial (dial.planLoop arith rng world request fuel).1 := by
  induction fuel generalizing dial with
  | zero => exact ⟨hbudgeted, Spared.refl dial⟩
  | succ fuel ih =>
      rw [planLoop]
      split
      · rename_i hguard
        obtain ⟨hopen, hroom⟩ := Bool.and_eq_true_iff.mp hguard
        have hroom := roomForChains_iff.mp hroom
        have hgates : request.gates.levels ≠ [] := by
          simpa [GateLevels.isEmpty] using hopen
        split
        · exact ⟨hbudgeted, Spared.refl dial⟩
        · rename_i plan hnext
          obtain ⟨old, hold, hnext⟩ := Option.bind_eq_some_iff.mp hnext
          obtain ⟨left, hplanned⟩ := hbudgeted.planned old hold
          obtain ⟨pick, plan', hnext', hplanned', _⟩ := hplanned.next
          cases hnext.symm.trans hnext'
          exact ⟨hbudgeted.replan hplanned', rfl, fun _ hspare => hspare⟩
        · rename_i pick plan hnext
          obtain ⟨old, hold, hnext⟩ := Option.bind_eq_some_iff.mp hnext
          obtain ⟨left, hplanned⟩ := hbudgeted.planned old hold
          obtain ⟨pick', plan', hnext', hplanned', hpick⟩ := hplanned.next
          cases hnext.symm.trans hnext'
          obtain ⟨hgated, _, _⟩ := hpick pick rfl
          have hreplanned := hbudgeted.replan hplanned'
          dsimp only
          split
          · obtain ⟨hlast, hspared⟩ := ih hreplanned
            exact ⟨hlast, hspared.candidates, hspared.spare⟩
          · rename_i hnew
            obtain ⟨hafter, hspent, _, _⟩ := tryChain_budgeted hreplanned hgates hgated
              (by simpa using hnew) (Nat.lt_of_le_of_lt (Nat.le_add_right _ _) hroom)
            have hspent' : Spent dial _ 1 :=
              ⟨hspent.attempts, hspent.reserve, hspent.candidates⟩
            apply @andThen_property ρ fun after =>
              Budgeted arith rng request first after ∧ Spared request dial after
            · exact ⟨hafter, hspent'.spared hroom (Spared.refl _)⟩
            intro _
            obtain ⟨hlast, hspared⟩ := ih hafter
            exact ⟨hlast, hspent'.spared hroom hspared⟩
      · exact ⟨hbudgeted, Spared.refl dial⟩

theorem plannedChains_budgeted (world : World)
    (hbudgeted : Budgeted arith rng request first dial) :
    Budgeted arith rng request first (dial.plannedChains arith rng world request).1 ∧
      Spared request dial (dial.plannedChains arith rng world request).1 := by
  have hawaited := hbudgeted.await world
  unfold plannedChains
  dsimp only
  split
  · rename_i hguard
    have hgates : request.gates.levels ≠ [] := by
      simpa [GateLevels.isEmpty] using (Bool.and_eq_true_iff.mp hguard).1
    split
    · exact ⟨hawaited, rfl, fun _ hspare => hspare⟩
    · rename_i plan rotators hplan
      obtain ⟨⟨left, hplanned⟩, huse⟩ := planOrNew_planned hawaited hgates hplan
      have hready : Budgeted arith rng request first
          { dial.await arith rng world with plan := some plan, rotators } :=
        (hawaited.replan hplanned).use huse
      obtain ⟨hlast, hspared⟩ := planLoop_budgeted (plan.workBound + 1) hready
      exact ⟨hlast, hspared.candidates, hspared.spare⟩
  · exact ⟨hawaited, rfl, fun _ hspare => hspare⟩

theorem fillFrom_budgeted (hbudgeted : Budgeted arith rng request first dial) (r : RotatorId)
    (order : List ProxyConfig) :
    Budgeted arith rng request first (dial.fillFrom request r order) ∧
      (dial.fillFrom request r order).attempts = dial.attempts ∧
      (dial.fillFrom request r order).launches = dial.launches := by
  induction order generalizing dial with
  | nil => exact ⟨hbudgeted, rfl, rfl⟩
  | cons proxy rest ih =>
      rw [fillFrom]
      split
      · exact ih hbudgeted
      · rename_i hnew
        split
        · exact ⟨hbudgeted, rfl, rfl⟩
        · have hroute : (⟨r, proxy, false⟩ : ExitCandidate).route ∉ dial.triedRoutes := by
            rw [ExitCandidate.route]
            simpa using hnew
          exact ih (hbudgeted.queue hroute (le_refl _))

theorem fillExits_budgeted (hbudgeted : Budgeted arith rng request first dial)
    (rs : List RotatorId) :
    Budgeted arith rng request first (dial.fillExits arith rng world request rs).1 ∧
      (dial.fillExits arith rng world request rs).1.attempts = dial.attempts ∧
      (dial.fillExits arith rng world request rs).1.launches = dial.launches := by
  induction rs generalizing dial with
  | nil => exact ⟨hbudgeted, rfl, rfl⟩
  | cons r rest ih =>
      have hawaited := hbudgeted.await world
      rw [fillExits]
      split
      · exact ⟨hbudgeted, rfl, rfl⟩
      · dsimp only
        split
        · exact ⟨hawaited, rfl, rfl⟩
        · rename_i order rotator horder
          have huse : Rotator.Uses arith rng ((dial.await arith rng world).rotators r)
              rotator := by
            have hused := Rotator.pickOrder_uses arith rng
              ((dial.await arith rng world).rotators r)
              (world.clock (dial.await arith rng world).turn 0)
            rw [horder] at hused
            exact hused
          have hupdated : Budgeted arith rng request first
              { dial.await arith rng world with
                rotators := Function.update (dial.await arith rng world).rotators r rotator } :=
            hawaited.use (RotatorsUse.update huse)
          obtain ⟨hfilled, hattempts, hlaunches⟩ := fillFrom_budgeted hupdated r order
          obtain ⟨hlast, hattempts', hlaunches'⟩ := ih hfilled
          exact ⟨hlast, hattempts'.trans hattempts, hlaunches'.trans hlaunches⟩

theorem raceExits_launches (world : World) (dial : Dial ρ) :
    ∃ queue, queue <+: dial.candidates.take (request.maxUpstreamAttempts - dial.attempts) ∧
      (dial.candidates.take (request.maxUpstreamAttempts - dial.attempts) ≠ [] → queue ≠ []) ∧
      (dial.raceExits arith rng world request).1.launches =
        dial.launches ++ queue.map fun candidate => .exit candidate.proxy := by
  let queue := dial.candidates.take (request.maxUpstreamAttempts - dial.attempts)
  let race := connectHedged request.hedgeDelay (world.clock (dial.turn + 1) 0)
    (queue.map (·.proxy)) world.race
  have hrace : Launching (queue.map (·.proxy)) race :=
    connectHedged_launching _ _ _ world.race
  have hlaunched : race.launched.map (·.proxy) =
      (queue.take race.launched.length).map (·.proxy) := by
    rw [List.map_take, ← hrace.order, List.take_left' (by simp)]
  refine ⟨queue.take race.launched.length, List.take_prefix _ _, fun hne hnil => ?_, ?_⟩
  · rw [hnil, List.map_nil, List.map_eq_nil_iff] at hlaunched
    exact hrace.first (fun hempty => hne (List.map_eq_nil_iff.mp hempty)) hlaunched
  · have hexits := congrArg (List.map Launch.exit) hlaunched
    rw [List.map_map, List.map_map] at hexits
    exact congrArg (dial.launches ++ ·) hexits

theorem raceExits_budgeted (hbudgeted : Budgeted arith rng request first dial) :
    (dial.raceExits arith rng world request).1.launches.length ≤ request.maxUpstreamAttempts ∧
      ((dial.raceExits arith rng world request).1.launches.map Launch.route).Nodup := by
  obtain ⟨queue, hfront, _, hlaunches⟩ : ∃ queue, queue <+: _ ∧ _ ∧
      (dial.raceExits arith rng world request).1.launches = _ := raceExits_launches world dial
  have hlength := hfront.length_le
  have hbudget := hbudgeted.budget
  rw [hlaunches]
  constructor
  · rw [List.length_take] at hlength
    rw [List.length_append, List.length_map, hbudgeted.counted]
    omega
  · have hsublist : (dial.launches.map Launch.route ++
        queue.map ExitCandidate.route).Sublist dial.routes :=
      (List.Sublist.refl _).append ((hfront.sublist.trans (List.take_sublist _ _)).map _)
    rw [List.map_append, List.map_map]
    exact hsublist.nodup hbudgeted.distinct

/-! Which verdicts a phase can reach. -/

theorem andThen_verdict {step : Dial ρ × Option Verdict}
    {next : Dial ρ → Dial ρ × Option Verdict} :
    (andThen step next).2 = step.2.or (next step.1).2 := by
  obtain ⟨dial, verdict⟩ := step
  cases verdict <;> rfl

theorem recordChainFailure_planned {plan : ChainPlan} {left : Nat}
    (hplan : dial.plan = some plan) (hplanned : plan.Planned left) (pick : ChainPick)
    (error : ChainError) :
    ∃ after plan', dial.recordChainFailure arith rng world request pick error = some after ∧
      after.plan = some plan' ∧ plan'.Planned left := by
  have hold : dial.planOrNew arith rng world request = some (plan, dial.rotators) := by
    rw [planOrNew, hplan]
  rw [recordChainFailure, hold, Option.bind_some]
  obtain ⟨quarantined, plan', rotators', hrecord, hplanned', _⟩ :=
    hplanned.recordFailure arith rng (world.clock (dial.turn + 1))
      (await arith rng world { dial with plan := some plan }).rotators pick error.stage
      error.error
  exact ⟨_, plan', Option.map_eq_some_iff.mpr ⟨_, hrecord, rfl⟩, rfl, hplanned'⟩

theorem tryChain_planned {plan : ChainPlan} {left : Nat} (hplan : dial.plan = some plan)
    (hplanned : plan.Planned left) (pick : ChainPick) :
    (dial.tryChain arith rng world request pick).2 = some .chained ∨
      (dial.tryChain arith rng world request pick).2 = none ∧
        ∃ plan', (dial.tryChain arith rng world request pick).1.plan = some plan' ∧
          plan'.Planned left := by
  unfold tryChain
  dsimp only
  split
  · exact .inl rfl
  · rename_i error _
    have hplan' : ((dial.launchChain pick).await arith rng world).plan = some plan := hplan
    obtain ⟨after, plan', hrecord, hafter, hplanned'⟩ : ∃ after plan',
        ((dial.launchChain pick).await arith rng world).recordChainFailure arith rng world request
          pick error = some after ∧ after.plan = some plan' ∧ plan'.Planned left :=
      recordChainFailure_planned hplan' hplanned pick error
    rw [hrecord]
    exact .inr ⟨rfl, plan', hafter, hplanned'⟩

theorem planLoop_verdict {fuel left : Nat} {plan : ChainPlan} (hplan : dial.plan = some plan)
    (hplanned : plan.Planned left) (hfuel : left < fuel) :
    (dial.planLoop arith rng world request fuel).2 = some .chained ∨
      (dial.planLoop arith rng world request fuel).2 = none := by
  induction fuel generalizing dial plan left with
  | zero => omega
  | succ fuel ih =>
      obtain ⟨pick, plan', hnext, hplanned', hpick⟩ := hplanned.next
      rw [planLoop, hplan, Option.bind_some, hnext]
      split
      · cases pick with
        | none => exact .inr rfl
        | some pick =>
            obtain ⟨_, hpos, hplanned''⟩ := hpick pick rfl
            dsimp only
            split
            · exact ih rfl hplanned'' (by omega)
            · rw [andThen_verdict]
              have hready : ({ dial with plan := some plan' } : Dial ρ).plan = some plan' := rfl
              obtain hchained | ⟨hfailed, last, hlast, hplannedLast⟩ :=
                tryChain_planned hready hplanned'' pick
              · exact .inl (by rw [hchained]; rfl)
              · rw [hfailed, Option.none_or]
                exact ih hlast hplannedLast (by omega)
      · exact .inr rfl

theorem stickyRoute_verdict (group : ExitGroup) :
    (dial.stickyRoute arith rng world request group).2 ≠ some .stuck := by
  unfold stickyRoute tryChain
  dsimp only
  split
  · simp
  · split
    · simp
    · split
      · simp
      · split
        · simp
        · split
          · simp
          · split
            · simp
            · split <;> simp

theorem stickyRoutes_verdict (groups : List ExitGroup) :
    (dial.stickyRoutes arith rng world request groups).2 ≠ some .stuck := by
  induction groups generalizing dial with
  | nil => simp [stickyRoutes]
  | cons group rest ih =>
      rw [stickyRoutes, andThen_verdict]
      have hroute : (dial.stickyRoute arith rng world request group).2 ≠ some .stuck :=
        stickyRoute_verdict group
      cases hverdict : (dial.stickyRoute arith rng world request group).2 with
      | none => exact ih
      | some verdict =>
          rw [hverdict] at hroute
          exact hroute

theorem plannedChains_verdict (hbudgeted : Budgeted arith rng request first dial) :
    (dial.plannedChains arith rng world request).2 = some .chained ∨
      (dial.plannedChains arith rng world request).2 = none ∨
      (dial.await arith rng world).planOrNew arith rng world request = none ∧
        (dial.plannedChains arith rng world request).2 = some .panicked := by
  have hawaited := hbudgeted.await world
  unfold plannedChains
  dsimp only
  split
  · rename_i hguard
    have hgates : request.gates.levels ≠ [] := by
      simpa [GateLevels.isEmpty] using (Bool.and_eq_true_iff.mp hguard).1
    split
    · rename_i hnone
      exact .inr (.inr ⟨hnone, rfl⟩)
    · rename_i plan rotators hplan
      obtain ⟨⟨left, hplanned⟩, _⟩ := planOrNew_planned hawaited hgates hplan
      have hleft : left < plan.workBound + 1 := by
        obtain ⟨_, _, _, _, hbound, _⟩ := hplanned
        omega
      have hready : ({ dial.await arith rng world with plan := some plan, rotators } :
          Dial ρ).plan = some plan := rfl
      obtain hchained | hnone := planLoop_verdict hready hplanned hleft
      · exact .inl hchained
      · exact .inr (.inl hnone)
  · exact .inr (.inl rfl)

theorem fillExits_verdict (rs : List RotatorId) :
    (dial.fillExits arith rng world request rs).2 ≠ some .stuck := by
  induction rs generalizing dial with
  | nil => simp [fillExits]
  | cons r rest ih =>
      rw [fillExits]
      split
      · simp
      · dsimp only
        split
        · simp
        · exact ih

end

end Dial

section

variable {ρ : Type u} {arith : FloatArith} {rng : Rng ρ} {world : World} {request : Request}

theorem chainPhases_budgeted (rotators : Rotators ρ) :
    Dial.Budgeted arith rng request rotators
      (Dial.chainPhases arith rng world request rotators).1 := by
  have hsticky : Dial.Budgeted arith rng request rotators (Dial.stickyRoutes arith rng world
      request request.exits (Dial.start request rotators)).1 :=
    Dial.stickyRoutes_budgeted (Dial.start_budgeted rotators) request.exits
  exact Dial.andThen_property hsticky fun _ => (Dial.plannedChains_budgeted world hsticky).1

/-- Within the budget, on routes that are all different. -/
def WithinBudget (request : Request) (dial : Dial ρ) : Prop :=
  dial.launches.length ≤ request.maxUpstreamAttempts ∧
    (dial.launches.map Launch.route).Nodup

theorem Dial.Budgeted.within {first : Rotators ρ} {dial : Dial ρ}
    (hbudgeted : Dial.Budgeted arith rng request first dial) : WithinBudget request dial :=
  ⟨hbudgeted.counted.le.trans hbudgeted.budget,
    (List.sublist_append_left _ _).nodup hbudgeted.distinct⟩

theorem exitPhases_within {first : Rotators ρ} {dial : Dial ρ}
    (hbudgeted : Dial.Budgeted arith rng request first dial) :
    WithinBudget request (dial.exitPhases arith rng world request).1 := by
  have hfilled : Dial.Budgeted arith rng request first
      (dial.fillExits arith rng world request request.exitRotators).1 :=
    (Dial.fillExits_budgeted hbudgeted request.exitRotators).1
  exact Dial.andThen_property hfilled.within fun _ => Dial.raceExits_budgeted hfilled

theorem exitPhases_verdict (dial : Dial ρ) :
    (dial.exitPhases arith rng world request).2 ≠ some .stuck := by
  have hfill : (dial.fillExits arith rng world request request.exitRotators).2 ≠ some .stuck :=
    Dial.fillExits_verdict request.exitRotators
  rw [Dial.exitPhases, Dial.andThen_verdict]
  cases hverdict : (dial.fillExits arith rng world request request.exitRotators).2 with
  | none =>
      rw [Option.none_or, Dial.raceExits]
      dsimp only
      split <;> simp
  | some verdict =>
      rw [hverdict] at hfill
      exact hfill

theorem chainPhases_verdict (rotators : Rotators ρ) :
    (Dial.chainPhases arith rng world request rotators).2 ≠ some .stuck := by
  let sticky := Dial.stickyRoutes arith rng world request request.exits
    (Dial.start request rotators)
  have hsticky : sticky.2 ≠ some .stuck := Dial.stickyRoutes_verdict request.exits
  have hbudgeted : Dial.Budgeted arith rng request rotators sticky.1 :=
    Dial.stickyRoutes_budgeted (Dial.start_budgeted rotators) request.exits
  have hverdict : (Dial.chainPhases arith rng world request rotators).2 =
      sticky.2.or (sticky.1.plannedChains arith rng world request).2 := Dial.andThen_verdict
  rw [hverdict]
  cases hfirst : sticky.2 with
  | none =>
      obtain hsecond | hsecond | ⟨_, hsecond⟩ :
          (sticky.1.plannedChains arith rng world request).2 = some .chained ∨ _ ∨ _ :=
        Dial.plannedChains_verdict hbudgeted
      all_goals simp [hsecond]
  | some verdict =>
      rw [hfirst] at hsticky
      exact hsticky

end

/-- One launch budget for all phases, and no route launched twice; the loop over the planned
chains ends by itself. -/
theorem attempt_budget {ρ : Type u} (arith : FloatArith) (rng : Rng ρ) (world : World)
    (request : Request) (rotators : Rotators ρ) :
    let run := establishConnection arith rng world request rotators
    run.1.launches.length ≤ request.maxUpstreamAttempts ∧
      (run.1.launches.map Launch.route).Nodup ∧ run.2 ≠ some .stuck := by
  intro run
  have hchains : Dial.Budgeted arith rng request rotators
      (Dial.chainPhases arith rng world request rotators).1 := chainPhases_budgeted rotators
  have hverdict : (Dial.chainPhases arith rng world request rotators).2 ≠ some .stuck :=
    chainPhases_verdict rotators
  rw [← and_assoc]
  constructor
  · show WithinBudget request run.1
    by_cases hbanned : request.banned = true
    · have hrun : run = (Dial.start request rotators, some .banned) := if_pos hbanned
      rw [hrun]
      exact ⟨Nat.zero_le _, List.nodup_nil⟩
    · have hrun : run = Dial.andThen (Dial.chainPhases arith rng world request rotators)
          (Dial.exitPhases arith rng world request) := if_neg hbanned
      rw [hrun]
      exact Dial.andThen_property hchains.within fun _ => exitPhases_within hchains
  · by_cases hbanned : request.banned = true
    · have hrun : run = (Dial.start request rotators, some .banned) := if_pos hbanned
      rw [hrun]
      simp
    · have hrun : run = Dial.andThen (Dial.chainPhases arith rng world request rotators)
          (Dial.exitPhases arith rng world request) := if_neg hbanned
      rw [hrun, Dial.andThen_verdict]
      cases hfirst : (Dial.chainPhases arith rng world request rotators).2 with
      | none =>
          rw [Option.none_or]
          exact exitPhases_verdict _
      | some verdict =>
          rw [hfirst] at hverdict
          exact hverdict

end Resocks5.Server
