import Resocks5.Server.StickySharing

namespace Resocks5.Connect.Race

open Resocks5.Foundation
open Resocks5.Types

/-! What a race reports, step by step. -/

theorem refill_reports (hedgeDelay : Duration) (now : Instant) (race : Race) :
    (race.refill hedgeDelay now).reports = race.reports := by
  unfold Race.refill
  split
  · split <;> rfl
  · rfl

def outcomeOf : Except AttemptFailure Unit → AttemptOutcome
  | .ok () => .won
  | .error (.failed error) => .failed error
  | .error .lost => .lost

theorem joined_reports {race : Race} {hedgeDelay : Duration} {now : Instant} {k : Nat}
    {result : Except AttemptFailure Unit} (hphase : race.phase? k = some (.settled result)) :
    ∃ proxy afterWin, (Race.joined hedgeDelay now race k result).reports =
        race.reports ++ [⟨k, proxy, outcomeOf result, afterWin⟩] ∧
      (result ≠ .error .lost → afterWin = false) := by
  obtain ⟨runner, hrunner, _⟩ := Option.map_eq_some_iff.mp hphase
  have hlaunched : (race.setPhase k .joined).launched[k]? =
      some { runner with phase := .joined } := by
    rw [Race.setPhase, List.getElem?_modify_eq, hrunner]
    rfl
  refine ⟨runner.proxy, if result = .error .lost then race.won else false, ?_,
    fun hheard => if_neg hheard⟩
  unfold Race.joined
  dsimp only
  split
  · simp only [Race.report, hlaunched]
    rfl
  · simp only [refill_reports, Race.report, hlaunched]
    rfl
  · simp only [refill_reports, Race.report, hlaunched]
    rfl

theorem drained_reports {race : Race} {k : Nat} {result : Except AttemptFailure Unit} :
    ∀ report ∈ (race.drained k result).reports.drop race.reports.length,
      report.afterWin = true := by
  have hreport (after : Race) (hsame : after.reports = race.reports) (outcome : AttemptOutcome) :
      ∀ report ∈ (after.report k outcome true).reports.drop race.reports.length,
        report.afterWin = true := by
    rw [Race.report, hsame, List.drop_left]
    intro report hmem
    obtain ⟨_, _, rfl⟩ := Option.map_eq_some_iff.mp (Option.mem_toList.mp hmem)
    rfl
  unfold Race.drained
  dsimp only
  split <;> exact hreport (race.setPhase k .joined) rfl _

theorem step_quiet {race after : Race} {hedgeDelay : Duration} {now : Instant} {event : RaceEvent}
    (hstep : Race.step hedgeDelay race now event = some after)
    (hquiet : ∀ k, event ≠ .joined k) : after.reports = race.reports := by
  cases event with
  | acquired k result =>
    simp only [Race.step] at hstep
    split at hstep
    · cases hstep
      unfold Race.acquired
      split
      · rfl
      · split
        · rfl
        · split <;> rfl
    · cases hstep
  | admitted k =>
    simp only [Race.step] at hstep
    split at hstep
    · split at hstep
      · cases hstep
        unfold Race.admitted
        split <;> rfl
      · cases hstep
    · cases hstep
  | shaken k result =>
    simp only [Race.step] at hstep
    split at hstep
    · cases hstep
      unfold Race.shaken
      split <;> rfl
    · cases hstep
  | joined k => exact absurd rfl (hquiet k)
  | tick =>
    simp only [Race.step] at hstep
    split at hstep
    · cases hstep
      unfold Race.tick
      dsimp only
      split <;> rfl
    · cases hstep

theorem step_ended {race after : Race} {hedgeDelay : Duration} {now : Instant} {event : RaceEvent}
    (hstep : Race.step hedgeDelay race now event = some after) (hended : race.ended.isSome) :
    after.ended.isSome := by
  cases event with
  | acquired k result =>
    simp only [Race.step] at hstep
    split at hstep
    · cases hstep
      unfold Race.acquired
      split
      · exact hended
      · split
        · exact hended
        · split <;> exact hended
    · cases hstep
  | admitted k =>
    simp only [Race.step] at hstep
    split at hstep
    · split at hstep
      · cases hstep
        unfold Race.admitted
        split <;> exact hended
      · cases hstep
    · cases hstep
  | shaken k result =>
    simp only [Race.step] at hstep
    split at hstep
    · cases hstep
      unfold Race.shaken
      split <;> exact hended
    · cases hstep
  | joined k =>
    simp only [Race.step] at hstep
    split at hstep
    · rename_i hnone
      rw [hnone] at hended
      cases hended
    · cases hstep
      unfold Race.drained
      dsimp only
      split <;> exact hended
    · cases hstep
  | tick =>
    simp only [Race.step] at hstep
    split at hstep
    · rename_i hguard
      rw [Option.isSome_iff_ne_none] at hended
      simp only [Bool.and_eq_true, Option.isNone_iff_eq_none] at hguard
      exact absurd hguard.1.1.1 hended
    · cases hstep

end Resocks5.Connect.Race

namespace Resocks5.Server

open Resocks5.Chain
open Resocks5.Connect
open Resocks5.Foundation
open Resocks5.Rating
open Resocks5.Session
open Resocks5.Types

/-! What a race lets its request hear. -/

/-- A finished attempt that the race, while it is still on, has not heard of. -/
abbrev Attempted := ExitCandidate × Except AttemptFailure Unit

namespace Attempted

def failedRoute : Attempted → Option (RotatorId × ProxyConfig)
  | (candidate, .error (.failed _)) =>
    if candidate.cached then some (candidate.rotator, candidate.proxy) else none
  | _ => none

def write (attempted : Attempted) : Option StickyWrite :=
  match attempted with
  | (candidate, .ok ()) =>
    if candidate.cached then none else some (.link candidate.rotator candidate.proxy)
  | _ => attempted.failedRoute.map fun (r, cached) => .unlink r cached

end Attempted

namespace Job

variable {ρ : Type u} {arith : FloatArith} {rng : Rng ρ}

def attempted (job : Job ρ) (k : Nat) : Option Attempted :=
  match job.progress with
  | .racing candidates race =>
    match race.phase? k, race.ended, candidates[k]? with
    | some (.settled result), none, some candidate => some (candidate, result)
    | _, _, _ => none
  | _ => none

theorem stickyReport_afterWin {candidate : ExitCandidate} {report : AttemptReport}
    (hlate : report.afterWin = true) : stickyReport candidate report = none := by
  rw [stickyReport, hlate]
  split <;> simp

theorem stickyReport_write {candidate : ExitCandidate} {result : Except AttemptFailure Unit}
    {report : AttemptReport} (houtcome : report.outcome = Race.outcomeOf result)
    (hbefore : result ≠ .error .lost → report.afterWin = false) :
    stickyReport candidate report = Attempted.write (candidate, result) := by
  rw [stickyReport, houtcome]
  cases result with
  | ok _ =>
    rw [hbefore nofun]
    cases hcached : candidate.cached <;> simp [Race.outcomeOf, Attempted.write, hcached]
  | error failure =>
    cases failure with
    | lost => rfl
    | failed error =>
      rw [hbefore nofun]
      cases hcached : candidate.cached <;>
        simp [Race.outcomeOf, Attempted.write, Attempted.failedRoute, hcached]

/-- A request hears of the attempt that its race takes while it is on; whatever else it hears of
does not touch the caches. -/
theorem raceOn_heard (job : Job ρ) (now : Instant) (event : RaceEvent) :
    (∃ k attempted heard, event = .joined k ∧ job.attempted k = some attempted ∧
        (job.raceOn now event).2 = [heard] ∧ stickyReport heard.1 heard.2 = attempted.write) ∨
      (∀ k, event = .joined k → job.attempted k = none) ∧
        ∀ heard ∈ (job.raceOn now event).2, stickyReport heard.1 heard.2 = none := by
  cases hprogress : job.progress with
  | racing candidates race =>
    simp only [raceOn, attempted, hprogress]
    cases hstep : Race.step job.request.hedgeDelay race now event with
    | none =>
      refine .inr ⟨fun k hevent => ?_, fun _ hmem => by cases hmem⟩
      subst hevent
      split
      · rename_i hphase hended _
        rw [Race.step, hphase, hended] at hstep
        cases hstep
      · rfl
    | some after =>
      by_cases hquiet : ∀ k, event ≠ .joined k
      · refine .inr ⟨fun k hevent => absurd hevent (hquiet k), fun heard hmem => ?_⟩
        dsimp only at hmem
        rw [Race.step_quiet hstep hquiet, List.drop_length] at hmem
        cases hmem
      · obtain ⟨k, rfl⟩ : ∃ k, event = .joined k := by simpa using hquiet
        simp only [Race.step] at hstep
        split at hstep
        · rename_i result hphase hended
          obtain rfl := Option.some.inj hstep
          obtain ⟨proxy, afterWin, hreports, hbefore⟩ := Race.joined_reports hphase
          dsimp only
          rw [hreports, List.drop_left]
          cases hcandidate : candidates[k]? with
          | none =>
            refine .inr ⟨fun k' hk => ?_, fun heard hmem => ?_⟩
            · cases hk
              rw [hphase, hended, hcandidate]
            · simp [hcandidate] at hmem
          | some candidate =>
            let report : AttemptReport := ⟨k, proxy, Race.outcomeOf result, afterWin⟩
            refine .inl ⟨k, (candidate, result), (candidate, report), rfl, ?_, ?_,
              stickyReport_write rfl hbefore⟩
            · rw [hphase, hended, hcandidate]
            · simp [hcandidate, report]
        · rename_i result ended hphase hended
          obtain rfl := Option.some.inj hstep
          refine .inr ⟨fun k' hk => ?_, fun heard hmem => ?_⟩
          · cases hk
            rw [hphase, hended]
          · obtain ⟨report, hreport, hheard⟩ := List.mem_filterMap.mp hmem
            obtain ⟨candidate, _, rfl⟩ := Option.map_eq_some_iff.mp hheard
            exact stickyReport_afterWin (Race.drained_reports report hreport)
        · cases hstep
  | _ =>
    refine .inr ⟨fun k _ => by rw [attempted, hprogress], ?_⟩
    rw [raceOn, hprogress]
    exact fun _ hmem => by cases hmem

/-- The request links nothing more and gives up nothing more. -/
def Spent (job : Job ρ) : Prop :=
  job.progress = .finished ∨
    ∃ candidates race, job.progress = .racing candidates race ∧ race.ended.isSome

theorem Spent.advance {job : Job ρ} (hspent : job.Spent) (dial : Dial ρ) :
    (job.advance arith rng dial).1.Spent := by
  obtain hprogress | ⟨candidates, race, hprogress, hended⟩ := hspent
  · rw [Job.advance, hprogress]
    exact .inl rfl
  · rw [Job.advance, hprogress]
    exact .inr ⟨candidates, race, rfl, hended⟩

theorem Spent.raceOn {job : Job ρ} (hspent : job.Spent) (now : Instant) (event : RaceEvent) :
    (job.raceOn now event).1.Spent := by
  obtain hprogress | ⟨candidates, race, hprogress, hended⟩ := hspent
  · rw [Job.raceOn, hprogress]
    exact .inl hprogress
  · rw [Job.raceOn, hprogress]
    dsimp only
    split
    · exact .inr ⟨candidates, race, hprogress, hended⟩
    · rename_i after hstep
      exact .inr ⟨candidates, after, rfl, Race.step_ended hstep hended⟩

theorem Spent.attempted {job : Job ρ} (hspent : job.Spent) (k : Nat) : job.attempted k = none := by
  obtain hprogress | ⟨candidates, race, hprogress, hended⟩ := hspent
  · rw [Job.attempted, hprogress]
  · obtain ⟨ended, hended⟩ := Option.isSome_iff_exists.mp hended
    simp only [Job.attempted, hprogress, hended]
    split
    · rename_i hnone _
      cases hnone
    · rfl

theorem raceOn_linked {job : Job ρ} {now : Instant} {k : Nat} {attempted : Attempted}
    {r : RotatorId} {proxy : ProxyConfig} (hattempted : job.attempted k = some attempted)
    (hwrite : attempted.write = some (.link r proxy)) :
    (job.raceOn now (.joined k)).1.Spent := by
  unfold Job.attempted at hattempted
  split at hattempted
  · rename_i candidates race hprogress
    split at hattempted
    · rename_i result candidate hphase hended hcandidate
      obtain rfl := Option.some.inj hattempted
      cases result with
      | ok _ =>
        rw [raceOn, hprogress]
        dsimp only
        rw [Race.step, hphase, hended]
        exact .inr ⟨candidates, _, rfl, rfl⟩
      | error failure =>
        obtain ⟨_, _, hlink⟩ := Option.map_eq_some_iff.mp hwrite
        cases hlink
    · cases hattempted
  · cases hattempted

end Job

end Resocks5.Server
