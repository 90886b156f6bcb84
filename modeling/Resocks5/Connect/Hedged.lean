import Resocks5.Foundation.Timed
import Resocks5.Types.ConnectError
import Mathlib.Data.List.Basic

namespace Resocks5.Connect

open Resocks5.Foundation
open Resocks5.Types

/-! A race of candidates, launched in order. -/

inductive AttemptFailure where
  | lost
  | failed (error : ConnectError)
  deriving DecidableEq

inductive AttemptOutcome where
  | won
  | lateSuccess
  | lost
  | failed (error : ConnectError)
  deriving DecidableEq

structure AttemptReport where
  index : Nat
  proxy : ProxyConfig
  outcome : AttemptOutcome
  afterWin : Bool
  deriving DecidableEq

inductive Phase where
  | acquiring
  | waiting
  | handshaking
  | settled (result : Except AttemptFailure Unit)
  | joined

def Phase.isJoined : Phase → Bool
  | .joined => true
  | _ => false

structure Runner where
  proxy : ProxyConfig
  phase : Phase

inductive HedgeEnd where
  | connected (winner : Nat)
  | failed (attempts : Nat) (last : Option ConnectError)
  deriving DecidableEq

/-- `slot` is the holder of the handshake slot, `queue` who waits for it in turn. -/
structure Race where
  pending : List ProxyConfig
  launched : List Runner
  won : Bool
  slot : Option Nat
  queue : List Nat
  hedgeAt : Option Instant
  last : Option ConnectError
  reports : List AttemptReport
  ended : Option HedgeEnd

inductive RaceEvent where
  | acquired (i : Nat) (result : Except ConnectError Unit)
  | admitted (i : Nat)
  | shaken (i : Nat) (result : Except ConnectError Unit)
  | joined (i : Nat)
  | tick

/-- `None` arms no timer. -/
def hedgeDeadline (hedgeDelay : Duration) (pending : List ProxyConfig) (now : Instant) :
    Option Instant :=
  if hedgeDelay = 0 ∨ pending = [] then none else Instant.checkedAdd now hedgeDelay

namespace Race

def launch (race : Race) (proxy : ProxyConfig) (rest : List ProxyConfig) : Race :=
  { race with pending := rest, launched := race.launched ++ [⟨proxy, .acquiring⟩] }

/-- The head of the loop: with nothing running, launch the next one or give up. -/
def refill (hedgeDelay : Duration) (now : Instant) (race : Race) : Race :=
  if race.launched.all (·.phase.isJoined) then
    match race.pending with
    | [] => { race with ended := some (.failed race.launched.length race.last) }
    | proxy :: rest =>
      { race.launch proxy rest with hedgeAt := hedgeDeadline hedgeDelay rest now }
  else race

def start (hedgeDelay : Duration) (now : Instant) (candidates : List ProxyConfig) : Race :=
  refill hedgeDelay now
    { pending := candidates
      launched := []
      won := false
      slot := none
      queue := []
      hedgeAt := none
      last := none
      reports := []
      ended := none }

def phase? (race : Race) (i : Nat) : Option Phase :=
  race.launched[i]?.map (·.phase)

def setPhase (race : Race) (i : Nat) (phase : Phase) : Race :=
  { race with launched := race.launched.modify i fun runner => { runner with phase } }

def release (race : Race) : Race :=
  { race with slot := race.queue.head?, queue := race.queue.tail }

def report (race : Race) (i : Nat) (outcome : AttemptOutcome) (afterWin : Bool) : Race :=
  { race with
    reports := race.reports ++ (race.launched[i]?.map fun runner =>
      ⟨i, runner.proxy, outcome, afterWin⟩).toList }

def acquired (race : Race) (i : Nat) (result : Except ConnectError Unit) : Race :=
  match result with
  | .error error => race.setPhase i (.settled (.error (.failed error)))
  | .ok () =>
    if race.won then race.setPhase i (.settled (.error .lost))
    else
      match race.slot with
      | none => { race.setPhase i .waiting with slot := some i }
      | some _ => { race.setPhase i .waiting with queue := race.queue ++ [i] }

def admitted (race : Race) (i : Nat) : Race :=
  if race.won then (race.setPhase i (.settled (.error .lost))).release
  else race.setPhase i .handshaking

/-- The win is published before the slot is free again. -/
def shaken (race : Race) (i : Nat) (result : Except ConnectError Unit) : Race :=
  match result with
  | .ok () => ({ race.setPhase i (.settled (.ok ())) with won := true }).release
  | .error error => (race.setPhase i (.settled (.error (.failed error)))).release

def joined (hedgeDelay : Duration) (now : Instant) (race : Race) (i : Nat)
    (result : Except AttemptFailure Unit) : Race :=
  let race := race.setPhase i .joined
  match result with
  | .ok () => { race.report i .won false with won := true, ended := some (.connected i) }
  | .error (.failed error) =>
    refill hedgeDelay now { race.report i (.failed error) false with last := some error }
  | .error .lost => refill hedgeDelay now (race.report i .lost race.won)

def drained (race : Race) (i : Nat) (result : Except AttemptFailure Unit) : Race :=
  let race := race.setPhase i .joined
  match result with
  | .ok () => race.report i .lateSuccess true
  | .error (.failed error) => race.report i (.failed error) true
  | .error .lost => race.report i .lost true

/-- A tick does not launch beside a handshaking attempt. -/
def tick (hedgeDelay : Duration) (now : Instant) (race : Race) : Race :=
  let race := { race with hedgeAt := hedgeDeadline hedgeDelay race.pending now }
  match race.slot, race.pending with
  | none, proxy :: rest => race.launch proxy rest
  | _, _ => race

/-- `None` for an event that cannot happen now. -/
def step (hedgeDelay : Duration) (race : Race) (now : Instant) : RaceEvent → Option Race
  | .acquired i result =>
    match race.phase? i with
    | some .acquiring => some (race.acquired i result)
    | _ => none
  | .admitted i =>
    match race.phase? i with
    | some .waiting => if race.slot = some i then some (race.admitted i) else none
    | _ => none
  | .shaken i result =>
    match race.phase? i with
    | some .handshaking => some (race.shaken i result)
    | _ => none
  | .joined i =>
    match race.phase? i, race.ended with
    | some (.settled result), none => some (joined hedgeDelay now race i result)
    | some (.settled result), some _ => some (race.drained i result)
    | _, _ => none
  | .tick =>
    if race.ended.isNone && hedgeDelay != 0 && !race.pending.isEmpty &&
        race.hedgeAt.any (· ≤ now) then
      some (tick hedgeDelay now race)
    else none

/-- Events in the order they happen, each at its time; an impossible one is passed over. -/
def play (hedgeDelay : Duration) (race : Race) (events : List (Instant × RaceEvent)) : Race :=
  events.foldl (fun race event => (step hedgeDelay race event.1 event.2).getD race) race

end Race

def connectHedged (hedgeDelay : Duration) (now : Instant) (candidates : List ProxyConfig)
    (events : List (Instant × RaceEvent)) : Race :=
  (Race.start hedgeDelay now candidates).play hedgeDelay events

/-! Launches follow the order of the candidates, and only a race that has launched them all
gives up. -/

structure Launching (candidates : List ProxyConfig) (race : Race) : Prop where
  order : race.launched.map (·.proxy) ++ race.pending = candidates
  first : candidates ≠ [] → race.launched ≠ []
  failed : ∀ attempts last, race.ended = some (.failed attempts last) →
    race.pending = [] ∧ attempts = race.launched.length

namespace Launching

variable {candidates : List ProxyConfig} {race : Race}

theorem of_same {after : Race} (hlaunching : Launching candidates race)
    (hproxies : after.launched.map (·.proxy) = race.launched.map (·.proxy))
    (hpending : after.pending = race.pending) (hended : after.ended = race.ended) :
    Launching candidates after := by
  have hlength : after.launched.length = race.launched.length := by
    simpa using congrArg List.length hproxies
  refine ⟨by rw [hproxies, hpending, hlaunching.order], fun hne hnil => ?_, ?_⟩
  · refine hlaunching.first hne (List.length_eq_zero_iff.mp ?_)
    rw [← hlength, hnil]
    rfl
  · rw [hended, hpending, hlength]
    exact hlaunching.failed

theorem launch (hlaunching : Launching candidates race) {proxy : ProxyConfig}
    {rest : List ProxyConfig} (hpending : race.pending = proxy :: rest)
    (hended : race.ended = none) (hedgeAt : Option Instant) :
    Launching candidates { race.launch proxy rest with hedgeAt } := by
  refine ⟨?_, fun _ => by simp [Race.launch], ?_⟩
  · rw [← hlaunching.order, hpending]
    simp [Race.launch]
  · intro attempts last hfailed
    cases hended.symm.trans hfailed

theorem refill (hlaunching : Launching candidates race) (hended : race.ended = none)
    (hedgeDelay : Duration) (now : Instant) :
    Launching candidates (race.refill hedgeDelay now) := by
  unfold Race.refill
  split
  · split
    · rename_i hpending
      refine ⟨hlaunching.order, hlaunching.first, fun attempts last hfailed => ?_⟩
      cases hfailed
      exact ⟨hpending, rfl⟩
    · rename_i hpending
      exact hlaunching.launch hpending hended _
  · exact hlaunching

theorem start (hedgeDelay : Duration) (now : Instant) (candidates : List ProxyConfig) :
    Launching candidates (Race.start hedgeDelay now candidates) := by
  cases candidates with
  | nil =>
      refine ⟨rfl, fun hne => absurd rfl hne, fun _ _ hfailed => ?_⟩
      cases hfailed
      exact ⟨rfl, rfl⟩
  | cons proxy rest =>
      exact ⟨rfl, fun _ => List.cons_ne_nil _ _, fun _ _ hfailed => by cases hfailed⟩

end Launching

namespace Race

@[simp] theorem setPhase_proxies (race : Race) (i : Nat) (phase : Phase) :
    (race.setPhase i phase).launched.map (·.proxy) = race.launched.map (·.proxy) := by
  refine List.ext_getElem? fun j => ?_
  simp only [setPhase, List.getElem?_map, List.getElem?_modify, Option.map_eq_map,
    Option.map_map]
  refine Option.map_congr fun runner _ => ?_
  by_cases hij : i = j <;> simp [hij]

@[simp] theorem setPhase_pending (race : Race) (i : Nat) (phase : Phase) :
    (race.setPhase i phase).pending = race.pending := rfl

@[simp] theorem setPhase_ended (race : Race) (i : Nat) (phase : Phase) :
    (race.setPhase i phase).ended = race.ended := rfl

end Race

namespace Launching

variable {candidates : List ProxyConfig} {race : Race}

theorem setPhase (hlaunching : Launching candidates race) (i : Nat) (phase : Phase) :
    Launching candidates (race.setPhase i phase) :=
  hlaunching.of_same (race.setPhase_proxies i phase) rfl rfl

theorem acquired (hlaunching : Launching candidates race) (i : Nat)
    (result : Except ConnectError Unit) : Launching candidates (race.acquired i result) := by
  unfold Race.acquired
  split
  · exact hlaunching.setPhase i _
  · split
    · exact hlaunching.setPhase i _
    · split <;> exact hlaunching.of_same (race.setPhase_proxies i .waiting) rfl rfl

theorem admitted (hlaunching : Launching candidates race) (i : Nat) :
    Launching candidates (race.admitted i) := by
  unfold Race.admitted
  split
  · exact hlaunching.of_same (race.setPhase_proxies i (.settled (.error .lost))) rfl rfl
  · exact hlaunching.setPhase i _

theorem shaken (hlaunching : Launching candidates race) (i : Nat)
    (result : Except ConnectError Unit) : Launching candidates (race.shaken i result) := by
  unfold Race.shaken
  split
  · exact hlaunching.of_same (race.setPhase_proxies i (.settled (.ok ()))) rfl rfl
  · rename_i error
    exact hlaunching.of_same (race.setPhase_proxies i (.settled (.error (.failed error)))) rfl rfl

theorem joined (hlaunching : Launching candidates race) (hended : race.ended = none)
    (hedgeDelay : Duration) (now : Instant) (i : Nat) (result : Except AttemptFailure Unit) :
    Launching candidates (Race.joined hedgeDelay now race i result) := by
  have hjoined := hlaunching.setPhase i .joined
  unfold Race.joined
  dsimp only
  split
  · refine ⟨hjoined.order, hjoined.first, fun attempts last hfailed => ?_⟩
    cases hfailed
  · apply refill
    · exact hjoined.of_same rfl rfl rfl
    · exact hended
  · apply refill
    · exact hjoined.of_same rfl rfl rfl
    · exact hended

theorem drained (hlaunching : Launching candidates race) (i : Nat)
    (result : Except AttemptFailure Unit) : Launching candidates (race.drained i result) := by
  have hjoined := hlaunching.setPhase i .joined
  unfold Race.drained
  dsimp only
  split <;> exact hjoined.of_same rfl rfl rfl

theorem tick (hlaunching : Launching candidates race) (hended : race.ended = none)
    (hedgeDelay : Duration) (now : Instant) :
    Launching candidates (Race.tick hedgeDelay now race) := by
  unfold Race.tick
  dsimp only
  split
  · rename_i hpending
    exact hlaunching.launch hpending hended _
  · exact hlaunching.of_same rfl rfl rfl

theorem step (hlaunching : Launching candidates race) {hedgeDelay : Duration} {now : Instant}
    {event : RaceEvent} {after : Race}
    (hstep : Race.step hedgeDelay race now event = some after) :
    Launching candidates after := by
  cases event with
  | acquired i result =>
      simp only [Race.step] at hstep
      split at hstep
      · cases hstep
        exact hlaunching.acquired i result
      · cases hstep
  | admitted i =>
      simp only [Race.step] at hstep
      split at hstep
      · split at hstep
        · cases hstep
          exact hlaunching.admitted i
        · cases hstep
      · cases hstep
  | shaken i result =>
      simp only [Race.step] at hstep
      split at hstep
      · cases hstep
        exact hlaunching.shaken i result
      · cases hstep
  | joined i =>
      simp only [Race.step] at hstep
      split at hstep
      · rename_i hended
        cases hstep
        exact hlaunching.joined hended hedgeDelay now i _
      · cases hstep
        exact hlaunching.drained i _
      · cases hstep
  | tick =>
      simp only [Race.step] at hstep
      split at hstep
      · rename_i hguard
        cases hstep
        simp only [Bool.and_eq_true, Option.isNone_iff_eq_none] at hguard
        exact hlaunching.tick hguard.1.1.1 hedgeDelay now
      · cases hstep

theorem play (hlaunching : Launching candidates race) (hedgeDelay : Duration)
    (events : List (Instant × RaceEvent)) :
    Launching candidates (race.play hedgeDelay events) := by
  induction events generalizing race with
  | nil => exact hlaunching
  | cons event rest ih =>
      refine ih ?_
      dsimp only
      cases hstep : Race.step hedgeDelay race event.1 event.2 with
      | none => exact hlaunching
      | some after => exact hlaunching.step hstep

end Launching

theorem connectHedged_launching (hedgeDelay : Duration) (now : Instant)
    (candidates : List ProxyConfig) (events : List (Instant × RaceEvent)) :
    Launching candidates (connectHedged hedgeDelay now candidates events) :=
  (Launching.start hedgeDelay now candidates).play hedgeDelay events

end Resocks5.Connect
