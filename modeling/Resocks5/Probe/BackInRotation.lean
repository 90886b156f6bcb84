import Resocks5.Probe.DirectRounds
import Resocks5.Rating.Backoff

namespace Resocks5.Probe.Direct

open Resocks5.Foundation
open Resocks5.Rating
open Resocks5.Session
open Resocks5.Types

/-! An upstream that answers again is back in rotation within a bounded time. -/

structure Bounded (policy : QuarantinePolicy) (now : Instant) (cell : Cell) : Prop where
  ending : ∀ ending, cell.untilAt = some ending →
    policy.enabled = true ∧ ending ≤ now + policy.max
  lease : ∀ lease, cell.leaseUntil = some lease → lease ≤ now + policy.probeLease

section

variable {policy : QuarantinePolicy} {now : Instant} {cell : Cell}

theorem deadline_le (now : Instant) (length : Duration) : deadline now length ≤ now + length := by
  unfold deadline Instant.checkedAdd
  split
  · exact Nat.le_refl _
  · rename_i hlarge
    split
    · rename_i hfar
      exact hfar.trans (Nat.le_of_lt (Nat.not_le.mp hlarge))
    · exact Nat.le_add_right _ _

theorem durationFor_le (policy : QuarantinePolicy) (trips : Nat) :
    policy.durationFor trips ≤ policy.max := Nat.min_le_right _ _

theorem tripped_le (policy : QuarantinePolicy) (now : Instant) (trips : Nat) :
    deadline now (policy.durationFor trips) ≤ now + policy.max :=
  (deadline_le now _).trans (Nat.add_le_add_left (durationFor_le policy trips) now)

theorem Bounded.later {after : Instant} (hbounded : Bounded policy now cell) (hnow : now ≤ after) :
    Bounded policy after cell where
  ending ending hending :=
    ⟨(hbounded.ending ending hending).1,
      (hbounded.ending ending hending).2.trans (Nat.add_le_add_right hnow _)⟩
  lease lease hlease := (hbounded.lease lease hlease).trans (Nat.add_le_add_right hnow _)

theorem Bounded.fresh : Bounded policy now Cell.fresh :=
  ⟨(fun _ hending => by cases hending), fun _ hlease => by cases hlease⟩

theorem Bounded.hardFailure (henabled : policy.enabled = true)
    (hbounded : Bounded policy now cell) : Bounded policy now (cell.hardFailure now policy).2 := by
  obtain ⟨_, hsame⟩ | ⟨_, _, hcounted⟩ | ⟨_, _, htripped⟩ := hardFailure_cases policy cell now
  · rwa [hsame]
  · rw [hcounted]
    exact ⟨hbounded.ending, fun _ hlease => by cases hlease⟩
  · rw [htripped]
    refine ⟨fun ending hending => ⟨henabled, ?_⟩, fun _ hlease => by cases hlease⟩
    cases hending
    exact tripped_le policy now _

theorem Bounded.tripNow (henabled : policy.enabled = true) :
    Bounded policy now (cell.tripNow now policy).2 := by
  refine ⟨fun ending hending => ⟨henabled, ?_⟩, fun _ hlease => by cases hlease⟩
  cases hending
  exact tripped_le policy now _

theorem Bounded.restore (henabled : policy.enabled = true) (quarantined : Bool) (left : Duration)
    (trips consecutive : Nat) :
    Bounded policy now (Cell.restore quarantined left trips consecutive now policy) := by
  refine ⟨fun ending hending => ⟨henabled, ?_⟩, fun _ hlease => by cases hlease⟩
  cases hending
  refine (deadline_le now _).trans (Nat.add_le_add_left ?_ now)
  split
  · exact Nat.min_le_right _ _
  · exact Nat.zero_le _

theorem tryLease_untilAt (cell : Cell) (now : Instant) (policy : QuarantinePolicy) :
    (cell.tryLease now policy).2.untilAt = cell.untilAt := by
  unfold Cell.tryLease
  split
  · rfl
  · split <;> rfl

theorem Bounded.tryLease (hbounded : Bounded policy now cell) :
    Bounded policy now (cell.tryLease now policy).2 := by
  refine ⟨fun ending hending => hbounded.ending ending ?_, fun lease hlease => ?_⟩
  · rwa [tryLease_untilAt] at hending
  · cases hgranted : (cell.tryLease now policy).1 with
    | false =>
      rw [Cell.tryLease_refused hgranted] at hlease
      exact hbounded.lease lease hlease
    | true =>
      rw [Cell.tryLease_lease hgranted] at hlease
      cases hlease
      unfold Instant.checkedAdd
      split
      · exact Nat.le_refl _
      · exact Nat.le_add_right _ _

theorem Bounded.onCell (hbounded : Bounded policy now cell) {op : Op} (htime : reportTime op = now)
    (i : Nat) : Bounded policy now (op.onCell policy i cell) := by
  cases op with
  | failure j _ => exact hbounded
  | hardFailure j _ =>
    cases htime
    simp only [Op.onCell]
    split
    · rename_i hhere
      exact hbounded.hardFailure hhere.2
    · exact hbounded
  | quarantineNow j _ =>
    cases htime
    simp only [Op.onCell]
    split
    · rename_i hhere
      exact .tripNow hhere.2
    · exact hbounded
  | success j _ =>
    simp only [Op.onCell]
    split
    · exact .fresh
    · exact hbounded
  | restore j health _ =>
    cases htime
    simp only [Op.onCell]
    split
    · rename_i hhere
      exact .restore hhere.2.1 _ _ _ _
    · exact hbounded
  | takeProbes _ =>
    cases htime
    simp only [Op.onCell]
    split
    · exact hbounded.tryLease
    · exact hbounded
  | pick _ => exact hbounded
  | pickOrder _ => exact hbounded

end

/-! What a step does. -/

section

variable {ρ : Type u} (arith : FloatArith) (rng : Rng ρ) (setup : Setup) (world : World ρ)

/-- What a round that takes an answer makes of the ratings. -/
inductive Verdict (check : Check) : Rotator ρ → Prop
  | unknown (hindex : world.rotator.indexOf check.proxy = none) : Verdict check world.rotator
  | success {j : Nat} (hindex : world.rotator.indexOf check.proxy = some j) :
      Verdict check (world.rotator.use arith rng [.success j world.now])
  | failure {j : Nat} {reason : String} (hindex : world.rotator.indexOf check.proxy = some j)
      (hphase : check.phase = .answered (.error reason)) :
      Verdict check (world.rotator.use arith rng [.hardFailure j world.now])
  | trip {j : Nat} {reason : String} (hindex : world.rotator.indexOf check.proxy = some j)
      (hphase : check.phase = .tripping reason) :
      Verdict check (world.rotator.use arith rng [.quarantineNow j world.now])

/-- How a check goes on. -/
inductive Onward (k : Nat) (check : Check) : Event → Phase → Prop
  | reserve : Onward k check (.reserve k true) .connecting
  | answer {result : Except String Unit} : Onward k check (.answer k result) (.answered result)
  | trip {reason : String} (hphase : check.phase = .answered (.error reason)) :
      Onward k check (.report k) (.tripping reason)

/-- How a check ends that nothing is recorded of. -/
inductive Unrecorded (k : Nat) (check : Check) : Event → Prop
  | denied : Unrecorded k check (.reserve k false)
  | panicked : Unrecorded k check (.panic k)
  | ignored {event : Event} (hround : check.round = .all) : Unrecorded k check event

inductive Moves : Event → World ρ → Prop
  | later {now : Instant} (hnow : world.now ≤ now)
      (hprompt : ∀ check ∈ world.checks, now ≤ check.since + check.timeout + setup.delay) :
      Moves (.later now) { world with now }
  | use {op : Op} (htime : reportTime op = world.now) (htakes : takes op = false) :
      Moves (.use op) { world with rotator := world.rotator.use arith rng [op] }
  | spawn {round : Round} {timeout : Duration} (htimeout : timeout ≤ setup.connectTimeout) :
      Moves (.spawn round timeout) (world.spawn timeout round)
  | goto {k : Nat} {check : Check} {event : Event} {phase : Phase}
      (hcheck : world.checks[k]? = some check) (honward : Onward k check event phase) :
      Moves event (world.goto k check phase)
  | drop {k : Nat} {check : Check} {event : Event} (hcheck : world.checks[k]? = some check)
      (hends : Unrecorded k check event) : Moves event (world.drop k)
  | settle {k : Nat} {check : Check} {event : Event} {rotator : Rotator ρ}
      {events : List ProbeEvent} (hcheck : world.checks[k]? = some check)
      (hverdict : Verdict arith rng world check rotator) :
      Moves event { world with rotator, events, checks := world.checks.eraseIdx k }

variable {arith rng setup world} {next : World ρ}

theorem reportDue_moves {k : Nat} {check : Check} {result : Except String Unit} {event : Event}
    (hcheck : world.checks[k]? = some check) (hphase : check.phase = .answered result) :
    Moves arith rng setup world event ((world.reportDue arith check.proxy result).drop k) := by
  cases result with
  | ok _ =>
    refine .settle hcheck ?_
    change Verdict arith rng world check
      (world.rotator.recordSuccess arith check.proxy world.now)
    unfold Rotator.recordSuccess
    split
    · rename_i hindex
      exact .unknown hindex
    · rename_i j hindex
      exact .success hindex
  | error reason =>
    refine .settle hcheck ?_
    change Verdict arith rng world check
      (world.rotator.recordHardFailure arith check.proxy world.now).2
    unfold Rotator.recordHardFailure
    split
    · rename_i hindex
      exact .unknown hindex
    · rename_i j hindex
      exact .failure hindex hphase

theorem reportAll_moves {k : Nat} {check : Check} {result : Except String Unit}
    (hcheck : world.checks[k]? = some check) (hphase : check.phase = .answered result)
    (hround : check.round = .all) :
    Moves arith rng setup world (.report k) (world.reportAll k check result) := by
  cases result with
  | ok _ => exact .drop hcheck (.ignored hround)
  | error reason =>
    rw [World.reportAll]
    split
    · exact .drop hcheck (.ignored hround)
    · exact .goto hcheck (.trip hphase)

theorem quarantine_moves {k : Nat} {check : Check} {reason : String} {event : Event}
    (hcheck : world.checks[k]? = some check) (hphase : check.phase = .tripping reason) :
    Moves arith rng setup world event ((world.quarantine check.proxy reason).drop k) := by
  refine .settle hcheck ?_
  change Verdict arith rng world check (world.rotator.quarantineNow check.proxy world.now).2
  unfold Rotator.quarantineNow
  split
  · rename_i hindex
    exact .unknown hindex
  · rename_i j hindex
    exact .trip hindex hphase

theorem step_moves {event : Event} (hstep : world.step arith rng setup event = some next) :
    Moves arith rng setup world event next := by
  cases event with
  | later now =>
    rw [World.step] at hstep
    split at hstep
    · rename_i hprompt
      cases hstep
      exact .later hprompt.1 hprompt.2
    · cases hstep
  | use op =>
    rw [World.step] at hstep
    split at hstep
    · rename_i hop
      cases hstep
      exact .use hop.1 hop.2
    · cases hstep
  | spawn round timeout =>
    rw [World.step] at hstep
    split at hstep
    · rename_i htimeout
      cases hstep
      exact .spawn htimeout
    · cases hstep
  | reserve k granted =>
    obtain ⟨check, hcheck, hstep⟩ := Option.bind_eq_some_iff.mp hstep
    split at hstep
    · cases hstep
      cases granted with
      | false => exact .drop hcheck .denied
      | true => exact .goto hcheck .reserve
    · cases hstep
  | answer k result =>
    obtain ⟨check, hcheck, hstep⟩ := Option.bind_eq_some_iff.mp hstep
    split at hstep
    · cases hstep
      exact .goto hcheck .answer
    · cases hstep
  | panic k =>
    obtain ⟨check, hcheck, hstep⟩ := Option.bind_eq_some_iff.mp hstep
    split at hstep
    · cases hstep
      exact .drop hcheck .panicked
    · cases hstep
  | report k =>
    obtain ⟨check, hcheck, hstep⟩ := Option.bind_eq_some_iff.mp hstep
    split at hstep
    · rename_i result hphase _
      cases hstep
      exact reportDue_moves hcheck hphase
    · rename_i result hphase hround
      cases hstep
      exact reportAll_moves hcheck hphase hround
    · cases hstep
  | trip k =>
    obtain ⟨check, hcheck, hstep⟩ := Option.bind_eq_some_iff.mp hstep
    split at hstep
    · rename_i reason hphase
      cases hstep
      exact quarantine_moves hcheck hphase
    · cases hstep

end

/-! What every run keeps. -/

def World.cell {ρ : Type u} (world : World ρ) (i : Nat) : Option Cell :=
  world.rotator.ratings.inner.quarantine[i]?

theorem World.cell_of_use {ρ : Type u} {arith : FloatArith} {rng : Rng ρ} {world next : World ρ}
    {op : Op} (huse : next.rotator = world.rotator.use arith rng [op]) {i : Nat} {cell : Cell}
    (hcell : next.cell i = some cell) :
    ∃ old, world.cell i = some old ∧ op.onCell world.rotator.ratings.quarantine i old = cell := by
  rw [World.cell, huse, use_cell] at hcell
  exact Option.map_eq_some_iff.mp hcell

structure Check.Timely (setup : Setup) (now : Instant) (check : Check) : Prop where
  timeout : check.timeout ≤ setup.connectTimeout
  begun : check.since ≤ now
  alive : now ≤ check.since + setup.patience

structure Steady {ρ : Type u} (setup : Setup) (policy : QuarantinePolicy) (world : World ρ) :
    Prop where
  ruled : world.rotator.ratings.quarantine = policy
  distinct : (world.rotator.proxies.map (·.node)).Nodup
  cells : ∀ i cell, world.cell i = some cell → Bounded policy world.now cell
  checks : ∀ check ∈ world.checks, check.Timely setup world.now
  asked : world.asked ≤ world.now

section

variable {ρ : Type u} {arith : FloatArith} {rng : Rng ρ} {setup : Setup}
  {policy : QuarantinePolicy} {world next : World ρ}

theorem Verdict.uses {check : Check} {rotator : Rotator ρ}
    (hverdict : Verdict arith rng world check rotator) :
    rotator = world.rotator ∨
      ∃ op, reportTime op = world.now ∧ rotator = world.rotator.use arith rng [op] := by
  cases hverdict with
  | unknown hindex => exact .inl rfl
  | success hindex => exact .inr ⟨_, rfl, rfl⟩
  | failure hindex hphase => exact .inr ⟨_, rfl, rfl⟩
  | trip hindex hphase => exact .inr ⟨_, rfl, rfl⟩

/-- The ratings stay, or one operation is done to them now. -/
theorem Moves.uses {event : Event} (hmoves : Moves arith rng setup world event next) :
    next.rotator = world.rotator ∨
      ∃ op, reportTime op = world.now ∧ next.now = world.now ∧
        next.rotator = world.rotator.use arith rng [op] := by
  cases hmoves with
  | later hnow hprompt => exact .inl rfl
  | use htime htakes => exact .inr ⟨_, htime, rfl, rfl⟩
  | @spawn round timeout htimeout =>
    cases round with
    | due => exact .inr ⟨.takeProbes world.now, rfl, rfl, rfl⟩
    | all => exact .inl rfl
  | goto hcheck honward => exact .inl rfl
  | drop hcheck hends => exact .inl rfl
  | settle hcheck hverdict =>
    exact hverdict.uses.imp id fun ⟨op, htime, hrotator⟩ => ⟨op, htime, rfl, hrotator⟩

theorem Moves.uses_rotator {event : Event} (hmoves : Moves arith rng setup world event next) :
    Rotator.Uses arith rng world.rotator next.rotator := by
  obtain hsame | ⟨op, _, _, huse⟩ := hmoves.uses
  · exact hsame ▸ Rotator.Uses.refl _
  · exact ⟨[op], huse⟩

theorem Moves.now_le {event : Event} (hmoves : Moves arith rng setup world event next) :
    world.now ≤ next.now := by
  cases hmoves with
  | later hnow hprompt => exact hnow
  | @spawn round timeout htimeout => cases round <;> exact Nat.le_refl _
  | _ => exact Nat.le_refl _

theorem Moves.mem_checks {event : Event} (hmoves : Moves arith rng setup world event next)
    {check : Check} (hcheck : check ∈ next.checks) :
    (∃ k old phase, world.checks[k]? = some old ∧ check = { old with phase } ∧
        (phase = old.phase ∨ Onward k old event phase)) ∨
      next.now = world.now ∧ check.since = world.now ∧ check.timeout ≤ setup.connectTimeout ∧
        check.phase = .reserving := by
  have hold (hmem : check ∈ world.checks) : ∃ k old phase, world.checks[k]? = some old ∧
      check = { old with phase } ∧ (phase = old.phase ∨ Onward k old event phase) := by
    obtain ⟨k, hk⟩ := List.mem_iff_getElem?.mp hmem
    exact ⟨k, check, check.phase, hk, rfl, .inl rfl⟩
  cases hmoves with
  | later hnow hprompt => exact .inl (hold hcheck)
  | use htime htakes => exact .inl (hold hcheck)
  | @spawn round timeout htimeout =>
    have hnew {proxies : List ProxyConfig} {round : Round}
        (hmem : check ∈ world.checks ++ proxies.map (world.checkOf round timeout)) :
        check ∈ world.checks ∨ check.since = world.now ∧ check.timeout ≤ setup.connectTimeout ∧
          check.phase = .reserving := by
      obtain hmem | hmem := List.mem_append.mp hmem
      · exact .inl hmem
      · obtain ⟨proxy, _, rfl⟩ := List.mem_map.mp hmem
        exact .inr ⟨rfl, htimeout, rfl⟩
    cases round with
    | due => exact (hnew hcheck).imp hold fun h => ⟨rfl, h⟩
    | all => exact (hnew hcheck).imp hold fun h => ⟨rfl, h⟩
  | @goto k old _ phase hat honward =>
    obtain hmem | rfl := List.mem_or_eq_of_mem_set hcheck
    · exact .inl (hold hmem)
    · exact .inl ⟨k, old, phase, hat, rfl, .inr honward⟩
  | drop hat hends => exact .inl (hold (List.mem_of_mem_eraseIdx hcheck))
  | settle hat hverdict => exact .inl (hold (List.mem_of_mem_eraseIdx hcheck))

theorem Steady.moves {event : Event} (hsteady : Steady setup policy world)
    (hmoves : Moves arith rng setup world event next) : Steady setup policy next := by
  have huses := hmoves.uses_rotator
  refine ⟨(uses_policy huses).trans hsteady.ruled, ?_, fun i cell hcell => ?_, ?_, ?_⟩
  · rw [huses.proxies]
    exact hsteady.distinct
  · obtain hsame | ⟨op, htime, hnow, huse⟩ := hmoves.uses
    · rw [World.cell, hsame] at hcell
      exact (hsteady.cells i cell hcell).later hmoves.now_le
    · obtain ⟨old, hold, rfl⟩ := World.cell_of_use huse hcell
      rw [hnow, hsteady.ruled]
      exact (hsteady.cells i old hold).onCell htime i
  · intro check hcheck
    obtain ⟨k, old, phase, hat, rfl, _⟩ | ⟨hnow, hsince, htimeout, _⟩ := hmoves.mem_checks hcheck
    · have htimely := hsteady.checks old (List.mem_of_getElem? hat)
      refine ⟨htimely.timeout, htimely.begun.trans hmoves.now_le, ?_⟩
      cases hmoves with
      | later hnow hprompt =>
        refine (hprompt old (List.mem_of_getElem? hat)).trans ?_
        rw [Nat.add_assoc]
        exact Nat.add_le_add_left (Nat.add_le_add_right htimely.timeout _) _
      | @spawn round timeout htimeout => cases round <;> exact htimely.alive
      | _ => exact htimely.alive
    · exact ⟨htimeout, (hsince.trans hnow.symm).le,
        (hnow.trans hsince.symm).le.trans (Nat.le_add_right _ _)⟩
  · cases hmoves with
    | later hnow hprompt => exact hsteady.asked.trans hnow
    | @spawn round timeout htimeout =>
      cases round with
      | due => exact Nat.le_refl _
      | all => exact hsteady.asked
    | _ => exact hsteady.asked

theorem fresh_steady {arith : FloatArith} {proxies : List ProxyConfig} {rating : RatingPolicy}
    {seed : ρ} {rotator : Rotator ρ} {start : Instant}
    (hbuilt : Rotator.tryWithQuarantine arith proxies rating policy start seed = .ok rotator) :
    Steady setup policy (World.fresh rotator start) := by
  obtain ⟨-, -, rfl⟩ := Rotator.tryWithQuarantine_ok hbuilt
  refine ⟨rfl, Rotator.unique_nodup [] proxies List.nodup_nil, fun i cell hcell => ?_,
    (fun _ hcheck => by cases hcheck), Nat.le_refl _⟩
  obtain ⟨_, rfl⟩ := List.mem_replicate.mp (List.mem_of_getElem? hcell)
  exact .fresh

end

/-! From the time on when it answers. -/

def condemns (i : Nat) : Op → Bool
  | .hardFailure j _ | .quarantineNow j _ | .restore j _ _ => j == i
  | _ => false

namespace World

variable {ρ : Type u}

/-- The check is of the upstream in slot `i`, and was begun after `since`. -/
def concerns (world : World ρ) (i : Nat) (since : Instant) (k : Nat) : Bool :=
  world.checks[k]?.any fun check =>
    world.rotator.indexOf check.proxy == some i && decide (since < check.since)

/-- No request fails for it, its checks are granted a permit and come through, and due rounds
begin at least every `gap`. -/
def mends (i : Nat) (gap : Duration) (since : Instant) (world : World ρ) : Event → Bool
  | .later now => now ≤ max world.asked since + gap
  | .use op => !condemns i op
  | .reserve k granted => granted || !world.concerns i since k
  | .answer k result => result.isOk || !world.concerns i since k
  | .panic k => !world.concerns i since k
  | .spawn _ _ | .report _ | .trip _ => true

def Probed (world : World ρ) (i : Nat) (since bound : Instant) : Prop :=
  ∃ check ∈ world.checks, check.round = .due ∧ world.rotator.indexOf check.proxy = some i ∧
    since < check.since ∧ check.since ≤ bound

end World

def Phase.hopeful : Phase → Bool
  | .reserving | .connecting | .answered (.ok _) => true
  | _ => false

/-- When nothing from before `since` counts any more. -/
def Setup.overAt (setup : Setup) (policy : QuarantinePolicy) (since : Instant) : Instant :=
  since + setup.patience + max policy.max policy.probeLease

structure Mending {ρ : Type u} (setup : Setup) (policy : QuarantinePolicy) (i : Nat)
    (gap : Duration) (since : Instant) (world : World ρ) : Prop where
  steady : Steady setup policy world
  slot : ∃ slot, world.rotator.proxies[i]? = some slot
  started : since ≤ world.now
  hopeful : ∀ check ∈ world.checks, world.rotator.indexOf check.proxy = some i →
    since < check.since → check.phase.hopeful = true
  ending : ∀ cell, world.cell i = some cell → ∀ ending, cell.untilAt = some ending →
    ending ≤ since + setup.patience + policy.max
  lease : ∀ cell, world.cell i = some cell → cell.untilAt = none ∨
    (∀ lease, cell.leaseUntil = some lease →
      lease ≤ since + setup.patience + policy.probeLease) ∨
    world.Probed i since world.now
  paced : world.now ≤ max world.asked since + gap
  probed : setup.overAt policy since < world.asked →
    ∀ cell, world.cell i = some cell → cell.untilAt = none ∨
      world.Probed i since (setup.overAt policy since + gap)

section

variable {ρ : Type u} {arith : FloatArith} {rng : Rng ρ} {setup : Setup}
  {policy : QuarantinePolicy} {world next : World ρ} {i : Nat} {gap : Duration} {since : Instant}

theorem concerns_of {k : Nat} {check : Check} (hcheck : world.checks[k]? = some check)
    (hindex : world.rotator.indexOf check.proxy = some i) (hsince : since < check.since) :
    world.concerns i since k = true := by
  rw [World.concerns, hcheck, Option.any_some, hindex]
  simpa using hsince

theorem World.Probed.mono {bound later : Instant} (hprobed : world.Probed i since bound)
    (hle : bound ≤ later) : world.Probed i since later := by
  obtain ⟨check, hcheck, hround, hindex, hsince, hbound⟩ := hprobed
  exact ⟨check, hcheck, hround, hindex, hsince, hbound.trans hle⟩

theorem Steady.checked (hsteady : Steady setup policy world) {check : Check}
    (hcheck : check ∈ world.checks) (hold : ¬ since < check.since) :
    world.now ≤ since + setup.patience :=
  (hsteady.checks check hcheck).alive.trans (Nat.add_le_add_right (Nat.not_lt.mp hold) _)

theorem onCell_kept {op : Op} (htakes : takes op = false) (hspared : condemns i op = false)
    (policy : QuarantinePolicy) (cell : Cell) :
    op.onCell policy i cell = cell ∨ (op.onCell policy i cell).untilAt = none := by
  cases op with
  | hardFailure j now => exact .inl (if_neg fun hhere => ne_of_beq_false hspared hhere.1)
  | quarantineNow j now => exact .inl (if_neg fun hhere => ne_of_beq_false hspared hhere.1)
  | restore j health now => exact .inl (if_neg fun hhere => ne_of_beq_false hspared hhere.1)
  | success j now =>
    simp only [Op.onCell]
    split
    · exact .inr rfl
    · exact .inl rfl
  | takeProbes now => cases htakes
  | _ => exact .inl rfl

theorem World.Probed.moves {event : Event} {bound : Instant}
    (hprobed : world.Probed i since bound) (hmending : Mending setup policy i gap since world)
    (hgood : world.mends i gap since event = true)
    (hmoves : Moves arith rng setup world event next) :
    next.Probed i since bound ∨ ∀ cell, next.cell i = some cell → cell.untilAt = none := by
  obtain ⟨check, hcheck, hround, hindex, hsince, hbound⟩ := hprobed
  obtain ⟨m, hm⟩ := List.mem_iff_getElem?.mp hcheck
  have hindex' : next.rotator.indexOf check.proxy = some i :=
    (uses_indexOf hmoves.uses_rotator _).trans hindex
  have hstays (hmem : check ∈ next.checks) : next.Probed i since bound :=
    ⟨check, hmem, hround, hindex', hsince, hbound⟩
  have hconcerns := concerns_of hm hindex hsince
  cases hmoves with
  | later hnow hprompt => exact .inl (hstays hcheck)
  | use htime htakes => exact .inl (hstays hcheck)
  | @spawn round timeout htimeout =>
    cases round <;> exact .inl (hstays (List.mem_append_left _ hcheck))
  | @goto k old _ phase hat honward =>
    obtain rfl | hother := eq_or_ne k m
    · obtain rfl := Option.some.inj (hat.symm.trans hm)
      refine .inl ⟨{ old with phase }, ?_, hround, hindex', hsince, hbound⟩
      exact List.mem_of_getElem? (i := k) (by
        rw [World.goto, List.getElem?_set_self (List.getElem?_eq_some_iff.mp hat).1])
    · exact .inl (hstays (List.mem_of_getElem? (i := m) (by
        rw [World.goto, List.getElem?_set_ne hother, hm])))
  | @drop k old _ hat hends =>
    obtain rfl | hother := eq_or_ne k m
    · obtain rfl := Option.some.inj (hat.symm.trans hm)
      cases hends with
      | denied =>
        rw [World.mends, hconcerns] at hgood
        cases hgood
      | panicked =>
        rw [World.mends, hconcerns] at hgood
        cases hgood
      | ignored hall =>
        rw [hround] at hall
        cases hall
    · exact .inl (hstays (List.mem_eraseIdx_iff_getElem?.mpr ⟨m, hother.symm, hm⟩))
  | @settle k old _ rotator events hat hverdict =>
    obtain rfl | hother := eq_or_ne k m
    · obtain rfl := Option.some.inj (hat.symm.trans hm)
      have hhopeful := hmending.hopeful old hcheck hindex hsince
      cases hverdict with
      | unknown hnone =>
        rw [hindex] at hnone
        cases hnone
      | success hj =>
        obtain rfl := Option.some.inj (hj.symm.trans hindex)
        refine .inr fun cell hcell => ?_
        obtain ⟨before, _, rfl⟩ := World.cell_of_use rfl hcell
        rw [Op.onCell, if_pos rfl]
        rfl
      | failure hj hphase =>
        rw [hphase] at hhopeful
        cases hhopeful
      | trip hj hphase =>
        rw [hphase] at hhopeful
        cases hhopeful
    · exact .inl (hstays (List.mem_eraseIdx_iff_getElem?.mpr ⟨m, hother.symm, hm⟩))

/-- What a step may make of the cell. -/
inductive Turned (setup : Setup) (policy : QuarantinePolicy) (i : Nat) (since : Instant)
    (world next : World ρ) (old : Cell) : Cell → Prop
  | same : Turned setup policy i since world next old old
  | lifted {cell : Cell} (hlifted : cell.untilAt = none) :
      Turned setup policy i since world next old cell
  | struck {cell : Cell} (hnow : next.now ≤ since + setup.patience)
      (hfree : cell.leaseUntil = none) : Turned setup policy i since world next old cell
  | leased {cell : Cell} (hsame : cell.untilAt = old.untilAt)
      (hprobed : since < next.now → next.Probed i since next.now) :
      Turned setup policy i since world next old cell

theorem spawned_check (hmending : Mending setup policy i gap since world) (timeout : Duration)
    (hleased : i ∈ (world.rotator.ratings.takeProbes world.now).1) (hnow : since < world.now) :
    (world.spawn timeout .due).Probed i since world.now := by
  obtain ⟨slot, hslot⟩ := hmending.slot
  refine ⟨world.checkOf .due timeout slot, List.mem_append_right _ ?_, rfl, ?_, hnow,
    Nat.le_refl _⟩
  · exact List.mem_map_of_mem (List.mem_filterMap.mpr ⟨i, hleased, hslot⟩)
  · exact (Rotator.indexOf_eq hmending.steady.distinct hslot).mpr rfl

theorem Mending.turned {event : Event} (hmending : Mending setup policy i gap since world)
    (hgood : world.mends i gap since event = true)
    (hmoves : Moves arith rng setup world event next) {cell : Cell}
    (hcell : next.cell i = some cell) :
    ∃ old, world.cell i = some old ∧ Turned setup policy i since world next old cell := by
  cases hmoves with
  | later hnow hprompt => exact ⟨cell, hcell, .same⟩
  | @use op htime htakes =>
    obtain ⟨old, hold, rfl⟩ := World.cell_of_use rfl hcell
    refine ⟨old, hold, ?_⟩
    rw [World.mends, Bool.not_eq_true'] at hgood
    obtain hsame | hlifted := onCell_kept htakes hgood world.rotator.ratings.quarantine old
    · rw [hsame]
      exact .same
    · exact .lifted hlifted
  | @spawn round timeout htimeout =>
    cases round with
    | all => exact ⟨cell, hcell, .same⟩
    | due =>
      have huse : (world.spawn timeout .due).rotator =
          world.rotator.use arith rng [.takeProbes world.now] := rfl
      obtain ⟨old, hold, rfl⟩ := World.cell_of_use huse hcell
      refine ⟨old, hold, ?_⟩
      simp only [Op.onCell]
      split
      · rename_i henabled
        cases hgranted : (old.tryLease world.now world.rotator.ratings.quarantine).1 with
        | false =>
          rw [Cell.tryLease_refused hgranted]
          exact .same
        | true =>
          refine .leased (tryLease_untilAt _ _ _) fun hnow => ?_
          exact spawned_check hmending timeout
            (Ratings.mem_takeProbes.mpr ⟨henabled, old, hold, hgranted⟩) hnow
      · exact .same
  | goto hat honward => exact ⟨cell, hcell, .same⟩
  | drop hat hends => exact ⟨cell, hcell, .same⟩
  | @settle k check _ rotator events hat hverdict =>
    have hmem := List.mem_of_getElem? hat
    have hlate (hindex : world.rotator.indexOf check.proxy = some i)
        (hlost : check.phase.hopeful = false) : world.now ≤ since + setup.patience := by
      refine hmending.steady.checked hmem fun hsince => ?_
      rw [hmending.hopeful check hmem hindex hsince] at hlost
      cases hlost
    cases hverdict with
    | unknown hnone => exact ⟨cell, hcell, .same⟩
    | @success j hj =>
      obtain ⟨old, hold, rfl⟩ := World.cell_of_use rfl hcell
      refine ⟨old, hold, ?_⟩
      simp only [Op.onCell]
      split
      · exact .lifted rfl
      · exact .same
    | @failure j reason hj hphase =>
      obtain ⟨old, hold, rfl⟩ := World.cell_of_use rfl hcell
      refine ⟨old, hold, ?_⟩
      simp only [Op.onCell]
      split
      · rename_i hhere
        have hnow := hlate (hhere.1 ▸ hj) (by rw [hphase]; rfl)
        obtain ⟨_, hsame⟩ | ⟨_, _, hcounted⟩ | ⟨_, _, htripped⟩ :=
          hardFailure_cases world.rotator.ratings.quarantine old world.now
        · rw [hsame]
          exact .same
        · rw [hcounted]
          exact .struck hnow rfl
        · rw [htripped]
          exact .struck hnow rfl
      · exact .same
    | @trip j reason hj hphase =>
      obtain ⟨old, hold, rfl⟩ := World.cell_of_use rfl hcell
      refine ⟨old, hold, ?_⟩
      simp only [Op.onCell]
      split
      · rename_i hhere
        exact .struck (hlate (hhere.1 ▸ hj) (by rw [hphase]; rfl)) rfl
      · exact .same

theorem since_le_overAt (setup : Setup) (policy : QuarantinePolicy) (since : Instant) :
    since + setup.patience ≤ setup.overAt policy since := Nat.le_add_right _ _

theorem ending_le_overAt (setup : Setup) (policy : QuarantinePolicy) (since : Instant) :
    since + setup.patience + policy.max ≤ setup.overAt policy since :=
  Nat.add_le_add_left (Nat.le_max_left _ _) _

theorem lease_le_overAt (setup : Setup) (policy : QuarantinePolicy) (since : Instant) :
    since + setup.patience + policy.probeLease ≤ setup.overAt policy since :=
  Nat.add_le_add_left (Nat.le_max_right _ _) _

theorem Turned.healed {old cell : Cell} (hturned : Turned setup policy i since world next old cell)
    (hlate : since + setup.patience < next.now) (hnone : old.untilAt = none) :
    cell.untilAt = none := by
  cases hturned with
  | same => exact hnone
  | lifted hlifted => exact hlifted
  | struck hnow hfree => exact absurd hlate (Nat.not_lt.mpr hnow)
  | leased hsame hprobed => exact hsame.trans hnone

theorem Mending.spawned (hmending : Mending setup policy i gap since world) (timeout : Duration)
    (hover : setup.overAt policy since < world.now) {old : Cell} (hold : world.cell i = some old) :
    old.untilAt = none ∨ (world.spawn timeout .due).Probed i since world.now := by
  obtain hnone | hfree | hprobed := hmending.lease old hold
  · exact .inl hnone
  · cases hending : old.untilAt with
    | none => exact .inl rfl
    | some ending =>
      have hnow : since < world.now :=
        ((Nat.le_add_right _ _).trans (since_le_overAt setup policy since)).trans_lt hover
      have henabled := ((hmending.steady.cells i old hold).ending ending hending).1
      have hstate : old.state world.now = .probation := by
        refine Cell.state_probation.mpr ⟨ending, hending, ?_⟩
        exact (((hmending.ending old hold ending hending).trans
          (ending_le_overAt setup policy since)).trans_lt hover).le
      have hunleased : ¬ old.leaseUntil.any (world.now < ·) = true := by
        intro hany
        obtain ⟨lease, hlease, hheld⟩ := (Option.any_eq_true _ _).mp hany
        have hle := (hfree lease hlease).trans (lease_le_overAt setup policy since)
        exact absurd (hover.trans (of_decide_eq_true hheld)) (Nat.not_lt.mpr hle)
      have hgranted : (old.tryLease world.now policy).1 = true := by
        rw [Cell.tryLease, if_neg (fun hnot => hnot hstate), if_neg hunleased]
      refine .inr (spawned_check hmending timeout ?_ hnow)
      exact Ratings.mem_takeProbes.mpr ⟨hmending.steady.ruled ▸ henabled, old, hold,
        hmending.steady.ruled ▸ hgranted⟩
  · obtain ⟨check, hcheck, hprobed⟩ := hprobed
    exact .inr ⟨check, List.mem_append_left _ hcheck, hprobed⟩

theorem Mending.paced_moves {event : Event} (hmending : Mending setup policy i gap since world)
    (hgood : world.mends i gap since event = true)
    (hmoves : Moves arith rng setup world event next) :
    next.now ≤ max next.asked since + gap := by
  cases hmoves with
  | later hnow hprompt => exact of_decide_eq_true hgood
  | @spawn round timeout htimeout =>
    cases round with
    | due => exact (Nat.le_max_left _ _).trans (Nat.le_add_right _ _)
    | all => exact hmending.paced
  | _ => exact hmending.paced

theorem Mending.hopeful_moves {event : Event} (hmending : Mending setup policy i gap since world)
    (hgood : world.mends i gap since event = true)
    (hmoves : Moves arith rng setup world event next) {check : Check} (hcheck : check ∈ next.checks)
    (hindex : next.rotator.indexOf check.proxy = some i) (hsince : since < check.since) :
    check.phase.hopeful = true := by
  rw [uses_indexOf hmoves.uses_rotator] at hindex
  obtain ⟨k, old, phase, hat, rfl, hphase⟩ | ⟨_, _, _, hphase⟩ := hmoves.mem_checks hcheck
  · have hhopeful := hmending.hopeful old (List.mem_of_getElem? hat) hindex hsince
    obtain rfl | honward := hphase
    · exact hhopeful
    · cases honward with
      | reserve => rfl
      | @answer result =>
        rw [World.mends, concerns_of hat hindex hsince] at hgood
        cases result with
        | ok _ => rfl
        | error reason => cases hgood
      | trip hfailed =>
        rw [hfailed] at hhopeful
        cases hhopeful
  · rw [hphase]
    rfl

theorem Mending.lease_moves {event : Event} (hmending : Mending setup policy i gap since world)
    (hgood : world.mends i gap since event = true)
    (hmoves : Moves arith rng setup world event next) {cell : Cell}
    (hcell : next.cell i = some cell) :
    cell.untilAt = none ∨
      (∀ lease, cell.leaseUntil = some lease →
        lease ≤ since + setup.patience + policy.probeLease) ∨
      next.Probed i since next.now := by
  obtain ⟨old, hold, hturned⟩ := hmending.turned hgood hmoves hcell
  cases hturned with
  | same =>
    obtain hnone | hfree | hprobed := hmending.lease _ hold
    · exact .inl hnone
    · exact .inr (.inl hfree)
    · obtain hstill | hback := hprobed.moves hmending hgood hmoves
      · exact .inr (.inr (hstill.mono hmoves.now_le))
      · exact .inl (hback _ hcell)
  | lifted hlifted => exact .inl hlifted
  | struck hnow hfree =>
    refine .inr (.inl fun lease hlease => ?_)
    rw [hfree] at hlease
    cases hlease
  | leased hsame hprobed =>
    obtain hlate | hearly := Nat.lt_or_ge (since + setup.patience) next.now
    · exact .inr (.inr (hprobed ((Nat.le_add_right _ _).trans_lt hlate)))
    · refine .inr (.inl fun lease hlease => ?_)
      exact (((hmending.steady.moves hmoves).cells i cell hcell).lease lease hlease).trans
        (Nat.add_le_add_right hearly _)

theorem Mending.probed_moves {event : Event} (hmending : Mending setup policy i gap since world)
    (hgood : world.mends i gap since event = true)
    (hmoves : Moves arith rng setup world event next)
    (hover : setup.overAt policy since < next.asked) {cell : Cell}
    (hcell : next.cell i = some cell) :
    cell.untilAt = none ∨ next.Probed i since (setup.overAt policy since + gap) := by
  obtain ⟨old, hold, hturned⟩ := hmending.turned hgood hmoves hcell
  have hlate : since + setup.patience < next.now :=
    (since_le_overAt setup policy since).trans_lt
      (hover.trans_le (hmending.steady.moves hmoves).asked)
  by_cases hbefore : setup.overAt policy since < world.asked
  · obtain hnone | hprobed := hmending.probed hbefore old hold
    · exact .inl (hturned.healed hlate hnone)
    · exact (hprobed.moves hmending hgood hmoves).symm.imp (· cell hcell) id
  · cases hmoves with
    | @spawn round timeout htimeout =>
      cases round with
      | all => exact absurd hover hbefore
      | due =>
        obtain hnone | hprobed := hmending.spawned timeout hover hold
        · exact .inl (hturned.healed hlate hnone)
        · refine .inr (hprobed.mono (hmending.paced.trans (Nat.add_le_add_right ?_ gap)))
          exact Nat.max_le.mpr ⟨Nat.not_lt.mp hbefore,
            (Nat.le_add_right _ _).trans (since_le_overAt setup policy since)⟩
    | _ => exact absurd hover hbefore

theorem Mending.moves {event : Event} (hmending : Mending setup policy i gap since world)
    (hgood : world.mends i gap since event = true)
    (hmoves : Moves arith rng setup world event next) : Mending setup policy i gap since next where
  steady := hmending.steady.moves hmoves
  slot := by
    rw [hmoves.uses_rotator.proxies]
    exact hmending.slot
  started := hmending.started.trans hmoves.now_le
  hopeful _ hcheck hindex hsince := hmending.hopeful_moves hgood hmoves hcheck hindex hsince
  ending cell hcell ending hending := by
    obtain ⟨old, hold, hturned⟩ := hmending.turned hgood hmoves hcell
    cases hturned with
    | same => exact hmending.ending _ hold ending hending
    | lifted hlifted =>
      rw [hlifted] at hending
      cases hending
    | struck hnow hfree =>
      exact (((hmending.steady.moves hmoves).cells i cell hcell).ending ending hending).2.trans
        (Nat.add_le_add_right hnow _)
    | leased hsame hprobed => exact hmending.ending old hold ending (hsame ▸ hending)
  lease _ hcell := hmending.lease_moves hgood hmoves hcell
  paced := hmending.paced_moves hgood hmoves
  probed hover _ hcell := hmending.probed_moves hgood hmoves hover hcell

theorem Steady.mending (hsteady : Steady setup policy world) {slot : ProxyConfig}
    (hslot : world.rotator.proxies[i]? = some slot) (gap : Duration) :
    Mending setup policy i gap world.now world where
  steady := hsteady
  slot := ⟨slot, hslot⟩
  started := Nat.le_refl _
  hopeful check hcheck _ hsince :=
    absurd hsince (Nat.not_lt.mpr (hsteady.checks check hcheck).begun)
  ending cell hcell ending hending :=
    ((hsteady.cells i cell hcell).ending ending hending).2.trans
      (Nat.add_le_add_right (Nat.le_add_right _ _) _)
  lease cell hcell := .inr (.inl fun lease hlease =>
    ((hsteady.cells i cell hcell).lease lease hlease).trans
      (Nat.add_le_add_right (Nat.le_add_right _ _) _))
  paced := (Nat.le_max_right _ _).trans (Nat.le_add_right _ _)
  probed hover := absurd (hover.trans_le hsteady.asked) (Nat.not_lt.mpr
    ((Nat.le_add_right _ _).trans (since_le_overAt setup policy world.now)))

theorem Mending.back (hmending : Mending setup policy i gap since world)
    (hlong : setup.overAt policy since + gap + setup.patience < world.now) {cell : Cell}
    (hcell : world.cell i = some cell) : cell.untilAt = none := by
  have hover : setup.overAt policy since < world.asked := by
    refine Nat.not_le.mp fun hasked => ?_
    have hsince : since ≤ setup.overAt policy since :=
      (Nat.le_add_right _ _).trans (since_le_overAt setup policy since)
    have hnow := hmending.paced.trans (Nat.add_le_add_right (Nat.max_le.mpr ⟨hasked, hsince⟩) gap)
    exact absurd hlong (Nat.not_lt.mpr (hnow.trans (Nat.le_add_right _ _)))
  obtain hnone | ⟨check, hcheck, _, _, _, hbound⟩ := hmending.probed hover cell hcell
  · exact hnone
  · have halive := (hmending.steady.checks check hcheck).alive
    exact absurd hlong (Nat.not_lt.mpr (halive.trans (Nat.add_le_add_right hbound _)))

end

/-- Whatever happened before, an upstream that no request fails for and that answers every check
from now on is out of its quarantine after the checks from before, the longest quarantine or
lease, the wait for a due round and one more check. -/
theorem back_in_rotation {ρ : Type u} (arith : FloatArith) (rng : Rng ρ) (setup : Setup)
    {proxies : List ProxyConfig} {rating : RatingPolicy} {policy : QuarantinePolicy} {seed : ρ}
    {rotator : Rotator ρ} {start : Instant}
    (hbuilt : Rotator.tryWithQuarantine arith proxies rating policy start seed = .ok rotator)
    {world finish : World ρ}
    (hreach : Reaches (World.step arith rng setup) (World.fresh rotator start) world)
    {proxy : ProxyConfig} {i : Nat} (hproxy : rotator.indexOf proxy = some i) {gap : Duration}
    {events : List Event}
    (hrun : run (guarded (World.step arith rng setup) (World.mends i gap world.now)) world events =
      some finish)
    (hlong : world.now + setup.patience + max policy.max policy.probeLease + gap + setup.patience <
      finish.now) :
    finish.rotator.isQuarantined proxy = false := by
  let Inv (base : World ρ) : Prop :=
    Steady setup policy base ∧ Rotator.Uses arith rng rotator base.rotator
  have hkeeps (base : World ρ) (event : Event) (next : World ρ)
      (hstep : base.step arith rng setup event = some next) (hinv : Inv base) : Inv next :=
    ⟨hinv.1.moves (step_moves hstep), hinv.2.trans (step_moves hstep).uses_rotator⟩
  obtain ⟨hsteady, huses⟩ : Inv world :=
    hreach.preserves hkeeps ⟨fresh_steady hbuilt, Rotator.Uses.refl rotator⟩
  obtain ⟨hlt, -⟩ := List.findIdx?_eq_some_iff_getElem.mp hproxy
  have hslot : world.rotator.proxies[i]? = some rotator.proxies[i] := by
    rw [huses.proxies]
    exact List.getElem?_eq_getElem hlt
  let Mends (base : World ρ) : Prop :=
    Mending setup policy i gap world.now base ∧ Rotator.Uses arith rng rotator base.rotator
  have hmends (base : World ρ) (event : Event) (next : World ρ)
      (hstep : guarded (World.step arith rng setup) (World.mends i gap world.now) base event =
        some next) (hinv : Mends base) : Mends next := by
    obtain ⟨hgood, hstep⟩ := guarded_eq_some.mp hstep
    exact ⟨hinv.1.moves hgood (step_moves hstep), hinv.2.trans (step_moves hstep).uses_rotator⟩
  obtain ⟨hmending, huses'⟩ : Mends finish :=
    run_preserves hmends hrun ⟨hsteady.mending hslot gap, huses⟩
  rw [Rotator.isQuarantined, uses_indexOf huses', hproxy, Option.any_some,
    Ratings.isQuarantined]
  cases hcell : finish.rotator.ratings.inner.quarantine[i]? with
  | none => rfl
  | some cell => rw [Option.any_some, Cell.isTripped, hmending.back hlong hcell, Option.isSome_none]

def briefSetup : Setup := ⟨2, 1⟩

def briefPolicy : QuarantinePolicy := ⟨1, 10, 20, 5, one_le_u32Max⟩

def briefRating : RatingPolicy := ⟨.finite 30, .finite 1, .finite 8, .finite 1, .finite 1⟩

/-- It is found dead at once, and a due round checks it when that is over. -/
def revivedEvents : List Event :=
  [.later 10, .spawn .due 2, .reserve 0 true, .later 12, .answer 0 (.ok ()), .report 0, .later 20,
    .spawn .due 2, .later 30, .spawn .due 2, .later 40]

theorem back_in_rotation_revived :
    ∃ rotator world finish,
      Rotator.tryWithQuarantine Ratings.exactArith [outerGate] briefRating briefPolicy 0
        (7 : UInt64) = .ok rotator ∧
      run (World.step Ratings.exactArith smallRng briefSetup) (World.fresh rotator 0)
        [.use (.hardFailure 0 0)] = some world ∧
      world.rotator.isQuarantined outerGate = true ∧
      run (guarded (World.step Ratings.exactArith smallRng briefSetup) (World.mends 0 10 world.now))
        world revivedEvents = some finish ∧
      finish.rotator.isQuarantined outerGate = false := by
  have haccepted : Accepted Ratings.exactArith briefRating briefPolicy :=
    ⟨by decide +kernel, by decide⟩
  obtain ⟨rotator, hrotator⟩ : ∃ rotator : Rotator UInt64, rotator =
      ⟨[outerGate], Ratings.fresh 1 briefRating briefPolicy 0 7⟩ := ⟨_, rfl⟩
  have hbuilt : Rotator.tryWithQuarantine Ratings.exactArith [outerGate] briefRating briefPolicy 0
      (7 : UInt64) = .ok rotator := by
    rw [Rotator.tryWithQuarantine_accepted haccepted (List.cons_ne_nil _ _), hrotator]
    rfl
  obtain ⟨world, hworld⟩ : ∃ world, run (World.step Ratings.exactArith smallRng briefSetup)
      (World.fresh rotator 0) [.use (.hardFailure 0 0)] = some world := by
    subst hrotator
    exact ⟨_, rfl⟩
  obtain ⟨finish, hfinish⟩ : ∃ finish, run (guarded
      (World.step Ratings.exactArith smallRng briefSetup) (World.mends 0 10 world.now)) world
        revivedEvents = some finish := by
    subst hrotator
    obtain rfl := Option.some.inj hworld
    exact Option.isSome_iff_exists.mp (by decide +kernel)
  have hdead : world.rotator.isQuarantined outerGate = true := by
    subst hrotator
    obtain rfl := Option.some.inj hworld
    decide +kernel
  have hproxy : rotator.indexOf outerGate = some 0 := by
    subst hrotator
    decide +kernel
  have hlong : world.now + briefSetup.patience + max briefPolicy.max briefPolicy.probeLease + 10 +
      briefSetup.patience < finish.now := by
    subst hrotator
    obtain rfl := Option.some.inj hworld
    obtain rfl := Option.some.inj hfinish
    decide +kernel
  exact ⟨rotator, world, finish, hbuilt, hworld, hdead, hfinish,
    back_in_rotation _ _ _ hbuilt ⟨_, hworld⟩ hproxy hfinish hlong⟩

end Resocks5.Probe.Direct
