import Resocks5.Foundation.Watchdog
import Resocks5.Tunnel.TunnelWithTimeouts
import Mathlib.Algebra.GroupWithZero.Nat

namespace Resocks5.Tunnel

open Resocks5.Foundation

/-! What each event of a tunnel does to its streams and its timers. -/

abbrev Schedule := List (Instant × TunnelEvent)

namespace TunnelEvent

def moved : TunnelEvent → Nat
  | read _ result _ | write _ result _ => result.moved
  | _ => 0

def confirms : TunnelEvent → Nat
  | read _ _ confirms | write _ _ confirms | flush _ confirms | shutdown _ confirms => confirms
  | _ => 0

def isOutgoing : TunnelEvent → Bool
  | write _ _ _ | flush _ _ | shutdown _ _ => true
  | _ => false

def isActive (event : TunnelEvent) : Bool := 0 < event.moved || 0 < event.confirms

def accepted (stream : Stream) : TunnelEvent → Nat
  | write other result _ => if other = stream then result.moved else 0
  | _ => 0

def polled (tracked : Tracked) (now : Instant) : TunnelEvent → Tracked
  | read _ result confirms => tracked.pollRead now result confirms
  | write stream result confirms => tracked.pollWrite now stream result confirms
  | flush _ confirms | shutdown _ confirms => tracked.pollFlush now confirms
  | _ => tracked

end TunnelEvent

def confirmedBytes (schedule : Schedule) : Nat := (schedule.map (·.2.confirms)).sum

def acceptedBytes (stream : Stream) (schedule : Schedule) : Nat :=
  (schedule.map (·.2.accepted stream)).sum

/-- When a byte was last read or written, or confirmed; else the set-up. -/
def lastActivity (epoch : Instant) (schedule : Schedule) : Instant :=
  ((schedule.filter (·.2.isActive)).getLast?.map Prod.fst).getD epoch

/-- Bytes are read or written, or they are confirmed in a write, a flush or a shutdown, within the
range of the total. -/
def Noticed (before : Schedule) (event : TunnelEvent) : Prop :=
  0 < event.moved ∨
    event.isOutgoing = true ∧ 0 < event.confirms ∧ confirmedBytes before + event.confirms ≤ u64Max

/-- Something is noticed at that time, within the range of the activity clock. -/
def Sign (epoch : Instant) (schedule : Schedule) (time : Instant) : Prop :=
  time ≤ epoch + u64Max ∧ ∃ before event after, schedule = before ++ (time, event) :: after ∧
    Noticed before event

theorem confirmedBytes_concat (front : Schedule) (now : Instant) (event : TunnelEvent) :
    confirmedBytes (front ++ [(now, event)]) = confirmedBytes front + event.confirms := by
  simp [confirmedBytes]

theorem acceptedBytes_concat (stream : Stream) (front : Schedule) (now : Instant)
    (event : TunnelEvent) :
    acceptedBytes stream (front ++ [(now, event)]) =
      acceptedBytes stream front + event.accepted stream := by
  simp [acceptedBytes]

theorem lastActivity_concat (epoch : Instant) (front : Schedule) (now : Instant)
    (event : TunnelEvent) :
    lastActivity epoch (front ++ [(now, event)]) =
      if event.isActive then now else lastActivity epoch front := by
  cases hactive : event.isActive with
  | true => simp [lastActivity, hactive]
  | false => simp [lastActivity, hactive]

theorem Sign.concat {epoch time : Instant} {front : Schedule} {now : Instant}
    {event : TunnelEvent} (hsign : Sign epoch (front ++ [(now, event)]) time) :
    Sign epoch front time ∨ time = now ∧ time ≤ epoch + u64Max ∧ Noticed front event := by
  obtain ⟨hrange, before, other, after, heq, hnoticed⟩ := hsign
  obtain rfl | ⟨behind, last, rfl⟩ := List.eq_nil_or_concat after
  · obtain ⟨rfl, hlast⟩ := List.append_inj' heq rfl
    obtain ⟨rfl, rfl⟩ := Prod.mk.inj (List.singleton_inj.mp hlast)
    exact .inr ⟨rfl, hrange, hnoticed⟩
  · rw [List.concat_eq_append, ← List.cons_append, ← List.append_assoc] at heq
    exact .inl ⟨hrange, before, other, behind, (List.append_inj' heq rfl).1, hnoticed⟩

/-! The wrapped streams. -/

namespace Tracked

def forwarded (tracked : Tracked) : Stream → UInt64
  | .a => tracked.bToA
  | .b => tracked.aToB

structure Follows (tracked : Tracked) (now : Instant) (event : TunnelEvent) (next : Tracked) :
    Prop where
  confirmed : next.confirmed = tracked.confirmed + event.confirms.toUInt64
  forwarded : ∀ stream,
    next.forwarded stream = tracked.forwarded stream + (event.accepted stream).toUInt64
  activity : next.activity = tracked.activity ∨
    event.isActive = true ∧ next.activity = tracked.activity.record now
  noticed : 0 < event.moved ∨ event.isOutgoing = true ∧ tracked.confirmed < next.confirmed →
    next.activity = tracked.activity.record now

theorem confirms_pos {tracked : Tracked} {confirms : Nat}
    (hrises : tracked.confirmed < (tracked.report confirms).confirmed) : 0 < confirms := by
  refine Nat.pos_of_ne_zero ?_
  rintro rfl
  simp [report] at hrises

@[simp] theorem report_activity (tracked : Tracked) (confirms : Nat) :
    (tracked.report confirms).activity = tracked.activity := rfl

@[simp] theorem report_forwarded (tracked : Tracked) (confirms : Nat) (stream : Stream) :
    (tracked.report confirms).forwarded stream = tracked.forwarded stream := by
  cases stream <;> rfl

@[simp] theorem forward_activity (tracked : Tracked) (n : Nat) (stream : Stream) :
    (tracked.forward n stream).activity = tracked.activity := by
  cases stream <;> rfl

@[simp] theorem forward_confirmed (tracked : Tracked) (n : Nat) (stream : Stream) :
    (tracked.forward n stream).confirmed = tracked.confirmed := by
  cases stream <;> rfl

@[simp] theorem forward_forwarded (tracked : Tracked) (n : Nat) (stream other : Stream) :
    (tracked.forward n stream).forwarded other =
      tracked.forwarded other + (if stream = other then n else 0).toUInt64 := by
  cases stream <;> cases other <;> simp [forward, forwarded]

@[simp] theorem record_forwarded (tracked : Tracked) (now : Instant) (stream : Stream) :
    (tracked.record now).forwarded stream = tracked.forwarded stream := by
  cases stream <;> rfl

theorem Follows.recorded {tracked counted : Tracked} {now : Instant} {event : TunnelEvent}
    {seen : Prop} [Decidable seen]
    (hconfirmed : counted.confirmed = tracked.confirmed + event.confirms.toUInt64)
    (hforwarded : ∀ stream,
      counted.forwarded stream = tracked.forwarded stream + (event.accepted stream).toUInt64)
    (hsame : counted.activity = tracked.activity) (hseen : seen → event.isActive = true)
    (hnoticed : 0 < event.moved ∨ event.isOutgoing = true ∧ tracked.confirmed < counted.confirmed →
      seen) :
    tracked.Follows now event (if seen then counted.record now else counted) := by
  by_cases hcase : seen
  · rw [if_pos hcase]
    refine ⟨hconfirmed, fun stream => ?_, .inr ⟨hseen hcase, ?_⟩, fun _ => ?_⟩
    · rw [record_forwarded, hforwarded]
    · rw [record, hsame]
    · rw [record, hsame]
  · rw [if_neg hcase]
    exact ⟨hconfirmed, hforwarded, .inl hsame, fun hevent => absurd (hnoticed hevent) hcase⟩

theorem Follows.quiet (tracked : Tracked) (now : Instant) {event : TunnelEvent}
    (hconfirms : event.confirms = 0) (hmoved : event.moved = 0)
    (haccepted : ∀ stream, event.accepted stream = 0) : tracked.Follows now event tracked where
  confirmed := by simp [hconfirms]
  forwarded stream := by simp [haccepted stream]
  activity := .inl rfl
  noticed hevent := by simp [hmoved] at hevent

theorem pollRead_follows (tracked : Tracked) (now : Instant) (stream : Stream) (result : IoPoll)
    (confirms : Nat) :
    tracked.Follows now (.read stream result confirms) (tracked.pollRead now result confirms) := by
  refine .recorded rfl (fun stream => ?_) rfl (fun hmoved => ?_) fun hevent => ?_
  · simp [TunnelEvent.accepted]
  · simp [TunnelEvent.isActive, TunnelEvent.moved, hmoved]
  · simpa [TunnelEvent.isOutgoing, TunnelEvent.moved] using hevent

theorem counted_eq (polled : Tracked) (n : Nat) (stream : Stream) :
    (if 0 < n then polled.forward n stream else polled) = polled.forward n stream := by
  split
  · rfl
  · rename_i hnone
    obtain rfl := Nat.eq_zero_of_not_pos hnone
    cases stream <;> simp [forward]

theorem pollWrite_follows (tracked : Tracked) (now : Instant) (stream : Stream) (result : IoPoll)
    (confirms : Nat) :
    tracked.Follows now (.write stream result confirms)
      (tracked.pollWrite now stream result confirms) := by
  simp only [pollWrite, counted_eq, forward_confirmed]
  refine .recorded ?_ (fun other => ?_) (by simp) ?_ ?_
  · rw [forward_confirmed]
    rfl
  · rw [forward_forwarded, report_forwarded]
    rfl
  · rintro (hmoved | hrises)
    · simp [TunnelEvent.isActive, TunnelEvent.moved, hmoved]
    · simp [TunnelEvent.isActive, TunnelEvent.confirms, confirms_pos hrises]
  · rintro (hmoved | ⟨-, hrises⟩)
    · exact .inl hmoved
    · exact .inr (by rwa [forward_confirmed] at hrises)

theorem pollFlush_follows (tracked : Tracked) (now : Instant) {event : TunnelEvent}
    (hmoved : event.moved = 0) (haccepted : ∀ stream, event.accepted stream = 0) :
    tracked.Follows now event (tracked.pollFlush now event.confirms) := by
  refine .recorded rfl (fun stream => ?_) rfl (fun hrises => ?_) fun hevent => ?_
  · simp [haccepted stream]
  · simp [TunnelEvent.isActive, confirms_pos hrises]
  · simpa [hmoved] using hevent.imp_right And.right

theorem polled_follows (tracked : Tracked) (now : Instant) (event : TunnelEvent) :
    tracked.Follows now event (event.polled tracked now) := by
  cases event with
  | read stream result confirms => exact pollRead_follows tracked now stream result confirms
  | write stream result confirms => exact pollWrite_follows tracked now stream result confirms
  | flush stream confirms => exact pollFlush_follows tracked now rfl fun _ => rfl
  | shutdown stream confirms => exact pollFlush_follows tracked now rfl fun _ => rfl
  | lifetime => exact .quiet tracked now rfl rfl fun _ => rfl
  | idle => exact .quiet tracked now rfl rfl fun _ => rfl
  | copied => exact .quiet tracked now rfl rfl fun _ => rfl
  | failed => exact .quiet tracked now rfl rfl fun _ => rfl

theorem Follows.of_noticed {tracked next : Tracked} {now : Instant} {event : TunnelEvent}
    (hfollows : tracked.Follows now event next) {before : Schedule}
    (hconfirmed : tracked.confirmed = (confirmedBytes before).toUInt64)
    (hnoticed : Noticed before event) :
    event.isActive = true ∧ next.activity = tracked.activity.record now := by
  obtain hmoved | ⟨houtgoing, hconfirms, hrange⟩ := hnoticed
  · exact ⟨by simp [TunnelEvent.isActive, hmoved], hfollows.noticed (.inl hmoved)⟩
  · refine ⟨by simp [TunnelEvent.isActive, hconfirms], hfollows.noticed (.inr ⟨houtgoing, ?_⟩)⟩
    rw [u64Max] at hrange
    rw [hfollows.confirmed, hconfirmed, UInt64.lt_iff_toNat_lt, UInt64.toNat_add]
    simp only [Nat.toUInt64, UInt64.toNat_ofNat']
    omega

end Tracked

theorem Activity.record_nanos (activity : Activity) (now : Instant) :
    (activity.record now).nanos.toNat = min (now - activity.epoch) u64Max := by
  by_cases hrange : now - activity.epoch ≤ u64Max
  · rw [Nat.min_eq_left hrange]
    simp only [record, if_pos hrange, Nat.toUInt64, UInt64.toNat_ofNat']
    exact Nat.mod_eq_of_lt (Nat.lt_succ_of_le hrange)
  · rw [Nat.min_eq_right (Nat.le_of_not_le hrange)]
    simp only [record, if_neg hrange]
    rfl

/-! The idle timer as a watchdog over the two streams. -/

namespace TimedTunnel

def watchdog (tunnel : TimedTunnel) : Watchdog Instant where
  heard := tunnel.tracked.activity.epoch + tunnel.tracked.activity.nanos.toNat
  armed := tunnel.idleTimer

theorem wakeIdle_cases (tunnel : TimedTunnel) (idle : Duration) :
    tunnel.wakeIdle idle = { tunnel with status := .panicked } ∨
    tunnel.watchdog.wake (· + idle) tunnel.now = none ∧
      tunnel.wakeIdle idle = tunnel.finish .idleTimeout ∨
    ∃ dog, tunnel.watchdog.wake (· + idle) tunnel.now = some dog ∧
      tunnel.wakeIdle idle = { tunnel with idleTimer := dog.armed } := by
  unfold wakeIdle
  cases hdeadline : tunnel.tracked.activity.last.bind fun last => Instant.checkedAdd last idle with
  | none => exact .inl rfl
  | some deadline =>
    obtain ⟨last, hlast, hadd⟩ := Option.bind_eq_some_iff.mp hdeadline
    have hdue : tunnel.watchdog.heard + idle = deadline := by
      rw [Activity.last, Instant.checkedAdd] at hlast
      rw [Instant.checkedAdd] at hadd
      split at hlast
      · obtain rfl := Option.some.inj hlast
        split at hadd
        · exact Option.some.inj hadd
        · cases hadd
      · cases hlast
    dsimp only
    rw [Watchdog.wake, hdue]
    split
    · exact .inr (.inl ⟨rfl, rfl⟩)
    · exact .inr (.inr ⟨_, rfl, rfl⟩)

structure Reacts (idle : Duration) (tunnel : TimedTunnel) (event : TunnelEvent)
    (next : TimedTunnel) : Prop where
  now : next.now = tunnel.now
  tracked : next.tracked = event.polled tunnel.tracked tunnel.now
  timer : next.idleTimer = tunnel.idleTimer ∨
    event = .idle ∧ tunnel.watchdog.wake (· + idle) tunnel.now = some next.watchdog
  outcome : ∀ outcome, next.status = .done outcome →
    outcome.aToB = next.tracked.aToB ∧ outcome.bToA = next.tracked.bToA ∧
      (outcome.ending = .idleTimeout → next.watchdog.wake (· + idle) next.now = none)

theorem react_polled {idle : Duration} {tunnel : TimedTunnel} {event : TunnelEvent}
    (hwaiting : tunnel.status = .waiting) :
    Reacts idle tunnel event { tunnel with tracked := event.polled tunnel.tracked tunnel.now } where
  now := rfl
  tracked := rfl
  timer := .inl rfl
  outcome outcome hdone := by
    rw [hwaiting] at hdone
    cases hdone

theorem react_finish {idle : Duration} {tunnel : TimedTunnel} {event : TunnelEvent}
    (hquiet : event.polled tunnel.tracked tunnel.now = tunnel.tracked) {ending : TunnelEnd}
    (hending : ending = .idleTimeout → tunnel.watchdog.wake (· + idle) tunnel.now = none) :
    Reacts idle tunnel event (tunnel.finish ending) where
  now := rfl
  tracked := hquiet.symm
  timer := .inl rfl
  outcome outcome hdone := by
    obtain rfl := TunnelStatus.done.inj hdone
    exact ⟨rfl, rfl, hending⟩

theorem wakeIdle_reacts {idle : Duration} {tunnel : TimedTunnel}
    (hwaiting : tunnel.status = .waiting) : Reacts idle tunnel .idle (tunnel.wakeIdle idle) := by
  obtain heq | ⟨hwake, heq⟩ | ⟨dog, hwake, heq⟩ := tunnel.wakeIdle_cases idle
  · rw [heq]
    exact ⟨rfl, rfl, .inl rfl, fun outcome hdone => nomatch hdone⟩
  · rw [heq]
    exact react_finish rfl fun _ => hwake
  · rw [heq]
    refine ⟨rfl, rfl, .inr ⟨rfl, ?_⟩, fun outcome hdone => ?_⟩
    · rw [Watchdog.wake] at hwake ⊢
      split at hwake
      · cases hwake
      · obtain rfl := Option.some.inj hwake
        rename_i hlater
        rw [if_neg hlater]
        rfl
    · rw [hwaiting] at hdone
      cases hdone

theorem react_reacts {idle maxLifetime : Duration} {tunnel next : TimedTunnel}
    {event : TunnelEvent} (hwaiting : tunnel.status = .waiting)
    (hreact : react idle maxLifetime tunnel event = some next) : Reacts idle tunnel event next := by
  cases event with
  | read stream result confirms => exact Option.some.inj hreact ▸ react_polled hwaiting
  | write stream result confirms => exact Option.some.inj hreact ▸ react_polled hwaiting
  | flush stream confirms => exact Option.some.inj hreact ▸ react_polled hwaiting
  | shutdown stream confirms => exact Option.some.inj hreact ▸ react_polled hwaiting
  | lifetime =>
    rw [react] at hreact
    split at hreact
    · exact Option.some.inj hreact ▸ react_finish rfl nofun
    · cases hreact
  | idle =>
    rw [react] at hreact
    split at hreact
    · exact Option.some.inj hreact ▸ wakeIdle_reacts hwaiting
    · cases hreact
  | copied => exact Option.some.inj hreact ▸ react_finish rfl nofun
  | failed =>
    obtain rfl := Option.some.inj hreact
    exact ⟨rfl, rfl, .inl rfl, fun outcome hdone => nomatch hdone⟩

end TimedTunnel

end Resocks5.Tunnel
