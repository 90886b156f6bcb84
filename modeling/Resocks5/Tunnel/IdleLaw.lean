import Resocks5.Tunnel.TunnelPolls

namespace Resocks5.Tunnel

open Resocks5.Foundation

/-! The idle limit, against everything that the streams did. -/

structure Watched (idle : Duration) (epoch : Instant) (schedule : Schedule)
    (tunnel : TimedTunnel) : Prop where
  started : tunnel.tracked.activity.epoch = epoch
  began : epoch ≤ tunnel.now
  heard : tunnel.watchdog.heard ≤ tunnel.now
  last : lastActivity epoch schedule ≤ tunnel.now
  guards : tunnel.watchdog.Guards (· + idle) (Sign epoch schedule) (lastActivity epoch schedule)
  confirmed : tunnel.tracked.confirmed = (confirmedBytes schedule).toUInt64
  forwarded : ∀ stream,
    tunnel.tracked.forwarded stream = (acceptedBytes stream schedule).toUInt64
  outcome : ∀ outcome, tunnel.status = .done outcome →
    outcome.aToB = tunnel.tracked.aToB ∧ outcome.bToA = tunnel.tracked.bToA ∧
      (outcome.ending = .idleTimeout → tunnel.watchdog.wake (· + idle) tunnel.now = none)

namespace Watched

variable {idle maxLifetime : Duration} {epoch now : Instant} {schedule : Schedule}
  {tunnel next : TimedTunnel} {event : TunnelEvent}

theorem monotone_due (idle : Duration) : Monotone fun time : Instant => time + idle :=
  fun _ _ hle => Nat.add_le_add_right hle idle

theorem start {sleep : Instant → Duration → Instant}
    (hsleep : sleep now idle ≤ now + idle) :
    Watched idle now [] (TimedTunnel.start sleep idle maxLifetime now) where
  started := rfl
  began := le_rfl
  heard := le_rfl
  last := le_rfl
  guards := {
    signs := by
      rintro sign ⟨-, before, event, after, heq, -⟩
      simp at heq
    heard := le_rfl
    armed := hsleep }
  confirmed := rfl
  forwarded stream := by cases stream <;> rfl
  outcome outcome hdone := nomatch hdone

theorem tick (hwatched : Watched idle epoch schedule tunnel) (hwaiting : tunnel.status = .waiting)
    (hlater : tunnel.now ≤ now) : Watched idle epoch schedule { tunnel with now } where
  started := hwatched.started
  began := hwatched.began.trans hlater
  heard := hwatched.heard.trans hlater
  last := hwatched.last.trans hlater
  guards := hwatched.guards
  confirmed := hwatched.confirmed
  forwarded := hwatched.forwarded
  outcome outcome hdone := by
    have hnever : tunnel.status = .done outcome := hdone
    rw [hwaiting] at hnever
    cases hnever

theorem heard_recorded (hwatched : Watched idle epoch schedule tunnel) {tracked : Tracked}
    (hrecorded : tracked.activity = tunnel.tracked.activity.record tunnel.now) :
    { tunnel with tracked }.watchdog = tunnel.watchdog.hear (min tunnel.now (epoch + u64Max)) := by
  have hbegan := hwatched.began
  have hepoch := hwatched.started
  have hheard : epoch + min (tunnel.now - epoch) u64Max = min tunnel.now (epoch + u64Max) := by
    rw [← Nat.add_min_add_left, Nat.add_sub_cancel' hbegan]
  rw [Watchdog.hear, TimedTunnel.watchdog, hrecorded, Activity.record_nanos]
  change Watchdog.mk (tunnel.tracked.activity.epoch + _) _ = _
  rw [hepoch, hheard]
  rfl

theorem heard_le_range (hwatched : Watched idle epoch schedule tunnel) :
    tunnel.watchdog.heard ≤ epoch + u64Max := by
  have hepoch := hwatched.started
  have hnanos := tunnel.tracked.activity.nanos.toNat_lt
  rw [TimedTunnel.watchdog, hepoch]
  exact Nat.add_le_add_left (Nat.le_of_lt_succ hnanos) epoch

theorem guards_polled (hwatched : Watched idle epoch schedule tunnel) {tracked : Tracked}
    (hfollows : tunnel.tracked.Follows tunnel.now event tracked) :
    { tunnel with tracked }.watchdog.Guards (· + idle)
      (Sign epoch (schedule ++ [(tunnel.now, event)]))
      (lastActivity epoch (schedule ++ [(tunnel.now, event)])) := by
  rw [lastActivity_concat]
  by_cases hrecorded : event.isActive = true ∧
      tracked.activity = tunnel.tracked.activity.record tunnel.now
  · obtain ⟨hactive, hrecorded⟩ := hrecorded
    rw [if_pos hactive, hwatched.heard_recorded hrecorded]
    refine hwatched.guards.hear (monotone_due idle) (le_min hwatched.heard hwatched.heard_le_range)
      (min_le_left _ _) fun sign hsign => ?_
    obtain hold | ⟨rfl, hrange, -⟩ := hsign.concat
    · exact .inl hold
    · exact .inr (le_min le_rfl hrange)
  · have hsame : tracked.activity = tunnel.tracked.activity := by
      obtain hsame | hboth := hfollows.activity
      · exact hsame
      · exact absurd hboth hrecorded
    have hdog : { tunnel with tracked }.watchdog = tunnel.watchdog := by
      rw [TimedTunnel.watchdog, hsame]
      rfl
    rw [hdog]
    refine hwatched.guards.ignore ?_ fun sign hsign => ?_
    · split
      · exact hwatched.last
      · exact le_rfl
    · obtain hold | ⟨-, -, hnoticed⟩ := hsign.concat
      · exact hold
      · exact absurd (hfollows.of_noticed hwatched.confirmed hnoticed) hrecorded

theorem heard_polled (hwatched : Watched idle epoch schedule tunnel) {tracked : Tracked}
    (hfollows : tunnel.tracked.Follows tunnel.now event tracked) :
    { tunnel with tracked }.watchdog.heard ≤ tunnel.now := by
  obtain hsame | ⟨-, hrecorded⟩ := hfollows.activity
  · rw [TimedTunnel.watchdog, hsame]
    exact hwatched.heard
  · rw [hwatched.heard_recorded hrecorded]
    exact min_le_left _ _

theorem started_polled (hwatched : Watched idle epoch schedule tunnel) {tracked : Tracked}
    (hfollows : tunnel.tracked.Follows tunnel.now event tracked) :
    tracked.activity.epoch = epoch := by
  obtain hsame | ⟨-, hrecorded⟩ := hfollows.activity
  · rw [hsame]
    exact hwatched.started
  · rw [hrecorded]
    exact hwatched.started

theorem reacted (hwatched : Watched idle epoch schedule tunnel)
    (hreacts : tunnel.Reacts idle event next) :
    Watched idle epoch (schedule ++ [(tunnel.now, event)]) next := by
  have hfollows := tunnel.tracked.polled_follows tunnel.now event
  rw [← hreacts.tracked] at hfollows
  have hguards := hwatched.guards_polled hfollows
  have hheard : next.watchdog.heard ≤ next.now := by
    rw [hreacts.now]
    exact hwatched.heard_polled hfollows
  refine ⟨hwatched.started_polled hfollows, ?_, hheard, ?_, ?_, ?_, fun stream => ?_,
    hreacts.outcome⟩
  · rw [hreacts.now]
    exact hwatched.began
  · rw [lastActivity_concat, hreacts.now]
    split
    · exact le_rfl
    · exact hwatched.last
  · obtain hsame | ⟨rfl, hwake⟩ := hreacts.timer
    · have hdog : { tunnel with tracked := next.tracked }.watchdog = next.watchdog := by
        rw [TimedTunnel.watchdog, TimedTunnel.watchdog, hsame]
      exact hdog ▸ hguards
    · -- the streams are left alone when the timer is looked at
      rw [hreacts.tracked] at hguards
      exact Watchdog.Guards.woken hguards hwake
  · rw [confirmedBytes_concat, hfollows.confirmed, hwatched.confirmed]
    exact (UInt64.ofNat_add _ _).symm
  · rw [acceptedBytes_concat, hfollows.forwarded, hwatched.forwarded]
    exact (UInt64.ofNat_add _ _).symm

theorem step (hwatched : Watched idle epoch schedule tunnel)
    (hstep : tunnel.step idle maxLifetime (now, event) = some next) :
    Watched idle epoch (schedule ++ [(now, event)]) next := by
  rw [TimedTunnel.step] at hstep
  split at hstep
  · rename_i hguard
    obtain ⟨hwaiting, hlater, -⟩ := hguard
    have hticked : { tunnel with now }.status = .waiting := hwaiting
    exact (hwatched.tick hwaiting hlater).reacted (TimedTunnel.react_reacts hticked hstep)
  · cases hstep

theorem run {sleep : Instant → Duration → Instant} (hsleep : sleep now idle ≤ now + idle)
    (hrun : Foundation.run (TimedTunnel.step idle maxLifetime)
      (TimedTunnel.start sleep idle maxLifetime now) schedule = some tunnel) :
    Watched idle now schedule tunnel :=
  run_history (fun _ _ (_, _) _ hwatched hstep => hwatched.step hstep) hrun (start hsleep)

end Watched

/-- The idle limit ends no tunnel on which something was noticed in time, its timer is never set
for later than the limit allows, and what is reported was accepted. -/
theorem idle_law {sleep : Instant → Duration → Instant}
    (hsleep : ∀ now length, sleep now length ≤ now + length) (idle maxLifetime : Duration)
    (epoch : Instant) (schedule : Schedule) (last : TimedTunnel)
    (hrun : run (TimedTunnel.step idle maxLifetime)
      (TimedTunnel.start sleep idle maxLifetime epoch) schedule = some last) :
    (∀ outcome, last.status = .done outcome → outcome.ending = .idleTimeout →
      ∀ before time event after, schedule = before ++ (time, event) :: after →
        Noticed before event → time ≤ epoch + u64Max → time + idle ≤ last.now) ∧
    (last.status = .waiting → last.idleTimer ≤ lastActivity epoch schedule + idle) ∧
    ∀ outcome, last.status = .done outcome →
      outcome.aToB.toNat = acceptedBytes .b schedule % 2 ^ 64 ∧
      outcome.bToA.toNat = acceptedBytes .a schedule % 2 ^ 64 := by
  have hwatched := Watched.run (hsleep epoch idle) hrun
  have hdue := Watched.monotone_due idle
  refine ⟨?_, fun _ => hwatched.guards.armed_le hdue, ?_⟩
  · intro outcome hdone hending before time event after heq hnoticed hrange
    obtain ⟨-, -, hwake⟩ := hwatched.outcome outcome hdone
    exact hwatched.guards.silent hdue (hwake hending)
      ⟨hrange, before, event, after, heq, hnoticed⟩
  · intro outcome hdone
    obtain ⟨haToB, hbToA, -⟩ := hwatched.outcome outcome hdone
    have hforwarded := hwatched.forwarded
    constructor
    · rw [haToB]
      exact congrArg UInt64.toNat (hforwarded .b)
    · rw [hbToA]
      exact congrArg UInt64.toNat (hforwarded .a)

/-- Three bytes come in at five; the timer is set again at ten, and at fifteen it is over. -/
theorem idle_law_rearmed :
    ∃ last, run (TimedTunnel.step 10 0) (TimedTunnel.start (· + ·) 10 0 0)
        [(5, .read .a (.ready 3) 0), (10, .idle), (15, .idle)] = some last ∧
      last.status = .done ⟨.idleTimeout, 0, 0⟩ ∧ 5 + 10 ≤ last.now := by
  refine ⟨_, rfl, rfl, ?_⟩
  obtain ⟨hsilent, -, -⟩ := idle_law (fun now length => le_refl (now + length)) 10 0 0
    [(5, .read .a (.ready 3) 0), (10, .idle), (15, .idle)] _ rfl
  exact hsilent _ rfl rfl [] 5 (.read .a (.ready 3) 0) [(10, .idle), (15, .idle)] rfl
    (.inl (by decide)) (by decide)

/-- What is read from `a` is written to `b`, a number of times at one instant. -/
def copies (now : Instant) (size : Nat) : Nat → Schedule
  | 0 => []
  | count + 1 =>
      (now, .read .a (.ready size) 0) :: (now, .write .b (.ready size) 0) :: copies now size count

theorem acceptedBytes_copies (now : Instant) (size count : Nat) :
    acceptedBytes .b (copies now size count) = count * size := by
  induction count with
  | zero => rw [Nat.zero_mul]; rfl
  | succ count ih =>
    have hboth : acceptedBytes .b (copies now size (count + 1)) =
        0 + (size + acceptedBytes .b (copies now size count)) := rfl
    rw [hboth, ih, Nat.zero_add, Nat.succ_mul, Nat.add_comm]

theorem copies_run {idle maxLifetime : Duration} {tunnel : TimedTunnel} (size : Nat)
    (hwaiting : tunnel.status = .waiting) (hnow : tunnel.now ≤ Instant.max) (count : Nat) :
    ∃ last, run (TimedTunnel.step idle maxLifetime) tunnel (copies tunnel.now size count) =
        some last ∧ last.status = .waiting ∧ last.now = tunnel.now := by
  induction count generalizing tunnel with
  | zero => exact ⟨tunnel, rfl, hwaiting, rfl⟩
  | succ count ih =>
    let taken := { tunnel with tracked := tunnel.tracked.pollRead tunnel.now (.ready size) 0 }
    let passed := { taken with tracked := taken.tracked.pollWrite tunnel.now .b (.ready size) 0 }
    have hread : tunnel.step idle maxLifetime (tunnel.now, .read .a (.ready size) 0) =
        some taken := if_pos ⟨hwaiting, le_rfl, hnow⟩
    have hwrite : taken.step idle maxLifetime (tunnel.now, .write .b (.ready size) 0) =
        some passed := if_pos ⟨hwaiting, le_rfl, hnow⟩
    have hpassed : passed.status = .waiting := hwaiting
    rw [copies, run_cons, hread, Option.bind_some, run_cons, hwrite, Option.bind_some]
    exact ih hpassed hnow

/-- What is confirmed while something is read goes unnoticed; so does what moves when the clock of
the activity has come to its end; and the counters wrap. -/
theorem idle_law_limits :
    (run (TimedTunnel.step 10 0) (TimedTunnel.start (· + ·) 10 0 0)
        [(5, .read .a .pending 3), (10, .idle)]).map (fun last => (last.status, last.now)) =
      some (.done ⟨.idleTimeout, 0, 0⟩, 10) ∧
    (run (TimedTunnel.step (2 ^ 64) 0) (TimedTunnel.start (· + ·) (2 ^ 64) 0 0)
        [(10, .read .a (.ready 1) 0), (2 ^ 64, .idle), (2 ^ 64 + 5, .read .a (.ready 1) 0),
          (2 ^ 64 + 10, .idle), (2 ^ 65 - 1, .idle)]).map (fun last => (last.status, last.now)) =
      some (.done ⟨.idleTimeout, 0, 0⟩, 2 ^ 65 - 1) ∧
    ∃ last outcome, ∃ schedule : Schedule,
      run (TimedTunnel.step 10 0) (TimedTunnel.start (· + ·) 10 0 0) schedule = some last ∧
      last.status = .done outcome ∧ outcome.aToB = 0 ∧ acceptedBytes .b schedule = 2 ^ 64 := by
  refine ⟨rfl, rfl, ?_⟩
  obtain ⟨full, hfull, hwaiting, hnow⟩ : ∃ full, run (TimedTunnel.step 10 0)
      (.start (· + ·) 10 0 0) (copies 0 16384 (2 ^ 50)) = some full ∧
        full.status = .waiting ∧ full.now = 0 :=
    copies_run 16384 rfl (Nat.zero_le _) (2 ^ 50)
  have haccepted : acceptedBytes .b (copies 0 16384 (2 ^ 50) ++ [(0, .copied)]) = 2 ^ 64 := by
    rw [acceptedBytes_concat, acceptedBytes_copies]
    rfl
  have hrun : run (TimedTunnel.step 10 0) (.start (· + ·) 10 0 0)
      (copies 0 16384 (2 ^ 50) ++ [(0, .copied)]) = some (full.finish .eof) := by
    have hcopied : full.step 10 0 (0, .copied) = some (full.finish .eof) := by
      rw [TimedTunnel.step, if_pos ⟨hwaiting, hnow.le, Nat.zero_le _⟩, ← hnow]
      rfl
    rw [run_append, hfull, Option.bind_some, run_cons, hcopied]
    rfl
  refine ⟨full.finish .eof, _, _, hrun, rfl, ?_, haccepted⟩
  have hforwarded := (Watched.run le_rfl hrun).forwarded .b
  rw [haccepted] at hforwarded
  exact hforwarded

end Resocks5.Tunnel
