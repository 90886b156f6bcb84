import Resocks5.Pool.ProxyPool

namespace Resocks5.Pool

open Resocks5.Foundation

/-! Every permit is somewhere. -/

namespace Shared

/-- Permits that no task holds. -/
def stock (shared : Shared) (key : ProxyKey) : Nat :=
  shared.available key + (shared.queue key).length

variable {shared next : Shared} {key : ProxyKey}

@[simp] theorem queue_setQueue (queue : List PreWarmed) (other : ProxyKey) :
    (shared.setQueue key queue).queue other = if other = key then queue else shared.queue other := by
  simp only [Shared.queue, setQueue, Function.update_apply]
  split
  · rfl
  · rfl

theorem tryAcquire_stock (hacquire : shared.tryAcquire key = some next) (other : ProxyKey) :
    next.stock other + one key other = shared.stock other := by
  unfold tryAcquire at hacquire
  split at hacquire
  · cases hacquire
  · rename_i hsome
    obtain rfl := Option.some.inj hacquire
    by_cases hother : other = key
    · subst hother
      simp only [stock, queue, Function.update_self, one, if_true]
      omega
    · simp only [stock, queue, Function.update_of_ne hother, one, if_neg (Ne.symm hother)]
      rfl

theorem release_stock (shared : Shared) (key other : ProxyKey) :
    (shared.release key).stock other = shared.stock other + one key other := by
  by_cases hother : other = key
  · subst hother
    simp only [release, stock, queue, Function.update_self, one, if_true]
    omega
  · simp only [release, stock, queue, Function.update_of_ne hother, one, if_neg (Ne.symm hother)]
    rfl

theorem pop_stock {spare : PreWarmed} (hpop : shared.pop key = some (spare, next))
    (other : ProxyKey) : next.stock other + one key other = shared.stock other := by
  unfold pop at hpop
  split at hpop
  · cases hpop
  · rename_i first rest hqueue
    obtain ⟨rfl, rfl⟩ := Prod.mk.inj (Option.some.inj hpop)
    rw [stock, stock, queue_setQueue]
    by_cases hother : other = key
    · subst hother
      rw [if_pos rfl, hqueue, one, if_pos rfl, List.length_cons]
      exact Nat.add_assoc _ _ _
    · rw [if_neg hother, one, if_neg (Ne.symm hother)]
      rfl

theorem push_stock {config : Config} {spare : PreWarmed}
    (hpush : shared.push config key spare = some next) (other : ProxyKey) :
    next.stock other = shared.stock other + one key other := by
  unfold push at hpush
  split at hpush
  · obtain rfl := Option.some.inj hpush
    rw [stock, stock, queue_setQueue]
    by_cases hother : other = key
    · subst hother
      rw [if_pos rfl, one, if_pos rfl, List.length_append]
      exact (Nat.add_assoc _ _ _).symm
    · rw [if_neg hother, one, if_neg (Ne.symm hother)]
      rfl
  · cases hpush

end Shared

theorem held_attachPermit (stream : UpstreamStream) (key other : ProxyKey) :
    (stream.attachPermit key).held other = stream.held other + one key other := by
  have hone : [key].count other = one key other := by
    simp only [List.count_singleton, one, beq_iff_eq]
  rw [UpstreamStream.held, UpstreamStream.attachPermit, List.count_append, hone]
  exact (Nat.add_assoc _ _ _).symm

namespace Task

section

variable (key : ProxyKey)

theorem permits_dropPermits (keys : List ProxyKey) :
    (dropPermits keys).permits key = keys.count key := by
  induction keys with
  | nil => rfl
  | cons first keys ih =>
      simp only [permits, dropPermits, inHand, connects, held] at ih ⊢
      rw [List.count_cons, ← ih, one]
      simp only [beq_iff_eq]
      omega

theorem permits_dropStream (stream : UpstreamStream) :
    (dropStream stream).permits key = stream.held key := by
  have hextra := permits_dropPermits key stream.extraPermits
  simp only [permits, dropStream, inHand, connects, held, UpstreamStream.held] at hextra ⊢
  omega

theorem permits_chainNext (stream : UpstreamStream) (rest : List ProxyKey) :
    (chainNext stream rest).permits key = stream.held key := by
  cases rest with
  | nil => simp [chainNext, permits, inHand, connects, held]
  | cons next rest => simp [chainNext, permits, inHand, connects, held, Asker.held]

theorem permits_connected (k : ProxyKey) (caller : Caller) :
    (connected k caller).permits key = one k key := by
  cases caller with
  | checkout => simp [connected, permits, inHand, connects, held, UpstreamStream.held]
  | acquire => simp [connected, permits, inHand, connects, held, UpstreamStream.held]
  | chain rest => simp [connected, permits_chainNext, UpstreamStream.held]

theorem permits_missed (k : ProxyKey) (caller : Caller) : (missed k caller).permits key = 0 := by
  cases caller with
  | checkout => rfl
  | acquire => rfl
  | chain rest => rfl

theorem permits_reserved (k : ProxyKey) (asker : Asker) :
    (reserved k asker).permits key = asker.held key + one k key := by
  cases asker with
  | socket caller => simp [reserved, permits, inHand, connects, held, Asker.held]
  | reserve => simp [reserved, permits, inHand, connects, held, Asker.held]
  | extend stream rest =>
      rw [reserved, permits_chainNext, held_attachPermit]
      rfl

theorem permits_refused (asker : Asker) : (refused asker).permits key = asker.held key := by
  cases asker with
  | socket caller => rfl
  | reserve => rfl
  | extend stream rest => exact permits_dropStream key stream

theorem permits_dropping (k : ProxyKey) (socket : Bool) (next : Task) :
    (dropping k socket next).permits key = one k key + next.permits key := by
  simp only [permits, inHand, connects, held]
  omega

end

section

variable (key : ProxyKey) {config : Config} {shared shared' : Shared} {next : Task}
  {outcome : Outcome} {caller : Caller} {asker : Asker} {stream : UpstreamStream} {k : ProxyKey}
  {now : Instant} {spare : PreWarmed} {keepers : List PreWarmed} {socket : Bool} {after : Task}

/-! Each operation keeps what the task and the stock have together. -/

-- The equations of `step`, made once for all operations.
attribute [local simp] step

theorem checkingOut_conserves
    (hstep : (checkingOut caller k now).step config shared outcome = some (shared', next)) :
    shared'.stock key + next.permits key =
      shared.stock key + (checkingOut caller k now).permits key := by
  cases outcome with
  | failed _ => cases hstep
  | cancelled => cases hstep
  | done _ =>
      rw [step] at hstep
      split at hstep
      · obtain ⟨rfl, rfl⟩ := Prod.mk.inj (Option.some.inj hstep)
        rw [permits_missed]
        rfl
      · split at hstep
        · obtain ⟨rfl, rfl⟩ := Prod.mk.inj (Option.some.inj hstep)
          rw [permits_missed]
          rfl
        · rename_i spare after hpop
          obtain ⟨rfl, rfl⟩ := Prod.mk.inj (Option.some.inj hstep)
          exact Shared.pop_stock hpop key

theorem judging_conserves
    (hstep : (judging caller k now spare).step config shared outcome = some (shared', next)) :
    shared'.stock key + next.permits key =
      shared.stock key + (judging caller k now spare).permits key := by
  cases outcome with
  | cancelled => cases hstep
  | failed _ =>
      obtain ⟨rfl, rfl⟩ := Prod.mk.inj (Option.some.inj hstep)
      rw [permits_dropping]
      rfl
  | done _ =>
      rw [step] at hstep
      split at hstep
      · obtain ⟨rfl, rfl⟩ := Prod.mk.inj (Option.some.inj hstep)
        rw [permits_connected]
        rfl
      · obtain ⟨rfl, rfl⟩ := Prod.mk.inj (Option.some.inj hstep)
        rw [permits_dropping]
        rfl

theorem reserving_conserves
    (hstep : (reserving asker k).step config shared outcome = some (shared', next)) :
    shared'.stock key + next.permits key = shared.stock key + (reserving asker k).permits key := by
  cases outcome with
  | failed _ => cases hstep
  | cancelled => cases hstep
  | done _ =>
      have hasker : (reserving asker k).permits key = asker.held key := Nat.zero_add _
      rw [step] at hstep
      split at hstep
      · rename_i after hacquire
        obtain ⟨rfl, rfl⟩ := Prod.mk.inj (Option.some.inj hstep)
        have hstock := Shared.tryAcquire_stock hacquire key
        rw [permits_reserved, hasker]
        omega
      · obtain ⟨rfl, rfl⟩ := Prod.mk.inj (Option.some.inj hstep)
        rfl

theorem reclaiming_conserves
    (hstep : (reclaiming asker k).step config shared outcome = some (shared', next)) :
    shared'.stock key + next.permits key = shared.stock key + (reclaiming asker k).permits key := by
  cases outcome with
  | failed _ => cases hstep
  | cancelled => cases hstep
  | done _ =>
      have hasker : (reclaiming asker k).permits key = asker.held key := Nat.zero_add _
      rw [step] at hstep
      split at hstep
      · rename_i spare after hpop
        obtain ⟨rfl, rfl⟩ := Prod.mk.inj (Option.some.inj hstep)
        have hstock := Shared.pop_stock hpop key
        have hspare : (reclaimed asker k spare).permits key = one k key + asker.held key := rfl
        rw [hspare, hasker]
        omega
      · obtain ⟨rfl, rfl⟩ := Prod.mk.inj (Option.some.inj hstep)
        rfl

theorem reclaimed_conserves
    (hstep : (reclaimed asker k spare).step config shared outcome = some (shared', next)) :
    shared'.stock key + next.permits key =
      shared.stock key + (reclaimed asker k spare).permits key := by
  cases outcome with
  | failed _ => cases hstep
  | cancelled => cases hstep
  | done _ =>
      obtain ⟨rfl, rfl⟩ := Prod.mk.inj (Option.some.inj hstep)
      have hspare : (reclaimed asker k spare).permits key = one k key + asker.held key := rfl
      rw [permits_reserved, hspare, Nat.add_comm (asker.held key)]

theorem retrying_conserves
    (hstep : (retrying asker k).step config shared outcome = some (shared', next)) :
    shared'.stock key + next.permits key = shared.stock key + (retrying asker k).permits key := by
  cases outcome with
  | failed _ => cases hstep
  | cancelled => cases hstep
  | done _ =>
      have hasker : (retrying asker k).permits key = asker.held key := Nat.zero_add _
      rw [step] at hstep
      split at hstep
      · rename_i after hacquire
        obtain ⟨rfl, rfl⟩ := Prod.mk.inj (Option.some.inj hstep)
        have hstock := Shared.tryAcquire_stock hacquire key
        rw [permits_reserved, hasker]
        omega
      · obtain ⟨rfl, rfl⟩ := Prod.mk.inj (Option.some.inj hstep)
        rw [permits_refused, hasker]

theorem connecting_conserves
    (hstep : (connecting caller k).step config shared outcome = some (shared', next)) :
    shared'.stock key + next.permits key =
      shared.stock key + (connecting caller k).permits key := by
  have hconnect : (connecting caller k).permits key = one k key := Nat.zero_add _
  cases outcome with
  | done _ =>
      obtain ⟨rfl, rfl⟩ := Prod.mk.inj (Option.some.inj hstep)
      rw [permits_connected, hconnect]
  | failed _ =>
      obtain ⟨rfl, rfl⟩ := Prod.mk.inj (Option.some.inj hstep)
      rw [permits_dropping, hconnect]
      rfl
  | cancelled =>
      obtain ⟨rfl, rfl⟩ := Prod.mk.inj (Option.some.inj hstep)
      rw [permits_dropping, hconnect]
      rfl

theorem handshaking_conserves
    (hstep : (handshaking stream).step config shared outcome = some (shared', next)) :
    shared'.stock key + next.permits key = shared.stock key + (handshaking stream).permits key := by
  have hstream : (handshaking stream).permits key = stream.held key := Nat.zero_add _
  cases outcome with
  | done _ =>
      obtain ⟨rfl, rfl⟩ := Prod.mk.inj (Option.some.inj hstep)
      rfl
  | failed _ =>
      obtain ⟨rfl, rfl⟩ := Prod.mk.inj (Option.some.inj hstep)
      rw [permits_dropStream, hstream]
  | cancelled =>
      obtain ⟨rfl, rfl⟩ := Prod.mk.inj (Option.some.inj hstep)
      rw [permits_dropStream, hstream]

theorem live_conserves
    (hstep : (live stream).step config shared outcome = some (shared', next)) :
    shared'.stock key + next.permits key = shared.stock key + (live stream).permits key := by
  cases outcome with
  | done _ => cases hstep
  | failed _ => cases hstep
  | cancelled =>
      have hstream : (live stream).permits key = stream.held key := Nat.zero_add _
      obtain ⟨rfl, rfl⟩ := Prod.mk.inj (Option.some.inj hstep)
      rw [permits_dropStream, hstream]

theorem permit_conserves
    (hstep : (permit k).step config shared outcome = some (shared', next)) :
    shared'.stock key + next.permits key = shared.stock key + (permit k).permits key := by
  cases outcome with
  | done _ => cases hstep
  | failed _ => cases hstep
  | cancelled =>
      have hpermit : (permit k).permits key = one k key := Nat.zero_add _
      obtain ⟨rfl, rfl⟩ := Prod.mk.inj (Option.some.inj hstep)
      rw [permits_dropping, hpermit]
      rfl

theorem refilling_conserves
    (hstep : (refilling k).step config shared outcome = some (shared', next)) :
    shared'.stock key + next.permits key = shared.stock key + (refilling k).permits key := by
  cases outcome with
  | failed _ => cases hstep
  | cancelled =>
      obtain ⟨rfl, rfl⟩ := Prod.mk.inj (Option.some.inj hstep)
      rfl
  | done _ =>
      rw [step] at hstep
      split at hstep
      · split at hstep
        · rename_i after hacquire
          obtain ⟨rfl, rfl⟩ := Prod.mk.inj (Option.some.inj hstep)
          have hconnect : (refillConnecting k).permits key = one k key := Nat.zero_add _
          rw [hconnect]
          exact Shared.tryAcquire_stock hacquire key
        · obtain ⟨rfl, rfl⟩ := Prod.mk.inj (Option.some.inj hstep)
          rfl
      · obtain ⟨rfl, rfl⟩ := Prod.mk.inj (Option.some.inj hstep)
        rfl

theorem refillConnecting_conserves
    (hstep : (refillConnecting k).step config shared outcome = some (shared', next)) :
    shared'.stock key + next.permits key = shared.stock key + (refillConnecting k).permits key := by
  have hconnect : (refillConnecting k).permits key = one k key := Nat.zero_add _
  cases outcome with
  | done now =>
      obtain ⟨rfl, rfl⟩ := Prod.mk.inj (Option.some.inj hstep)
      rw [hconnect]
      rfl
  | failed _ =>
      obtain ⟨rfl, rfl⟩ := Prod.mk.inj (Option.some.inj hstep)
      rw [permits_dropping, hconnect]
      rfl
  | cancelled =>
      obtain ⟨rfl, rfl⟩ := Prod.mk.inj (Option.some.inj hstep)
      rw [permits_dropping, hconnect]
      rfl

theorem refillPushing_conserves
    (hstep : (refillPushing k spare).step config shared outcome = some (shared', next)) :
    shared'.stock key + next.permits key =
      shared.stock key + (refillPushing k spare).permits key := by
  cases outcome with
  | failed _ => cases hstep
  | cancelled => cases hstep
  | done _ =>
      have hspare : (refillPushing k spare).permits key = one k key := rfl
      rw [step] at hstep
      split at hstep
      · rename_i after hpush
        obtain ⟨rfl, rfl⟩ := Prod.mk.inj (Option.some.inj hstep)
        rw [hspare]
        exact Shared.push_stock hpush key
      · obtain ⟨rfl, rfl⟩ := Prod.mk.inj (Option.some.inj hstep)
        rw [permits_dropping, hspare]
        rfl

theorem refillWaiting_conserves
    (hstep : (refillWaiting k).step config shared outcome = some (shared', next)) :
    shared'.stock key + next.permits key = shared.stock key + (refillWaiting k).permits key := by
  cases outcome with
  | done _ =>
      obtain ⟨rfl, rfl⟩ := Prod.mk.inj (Option.some.inj hstep)
      rfl
  | failed now =>
      obtain ⟨rfl, rfl⟩ := Prod.mk.inj (Option.some.inj hstep)
      exact congrArg _ (Nat.zero_mul (one k key))
  | cancelled =>
      obtain ⟨rfl, rfl⟩ := Prod.mk.inj (Option.some.inj hstep)
      rfl

theorem draining_conserves
    (hstep : (draining k now keepers).step config shared outcome = some (shared', next)) :
    shared'.stock key + next.permits key =
      shared.stock key + (draining k now keepers).permits key := by
  cases outcome with
  | failed _ => cases hstep
  | cancelled => cases hstep
  | done _ =>
      have hkeepers : ∀ keepers, (draining k now keepers).permits key =
          keepers.length * one k key := fun keepers => rfl
      rw [step] at hstep
      split at hstep
      · obtain ⟨rfl, rfl⟩ := Prod.mk.inj (Option.some.inj hstep)
        rfl
      · rename_i spare after hpop
        have hstock := Shared.pop_stock hpop key
        split at hstep
        · obtain ⟨rfl, rfl⟩ := Prod.mk.inj (Option.some.inj hstep)
          rw [hkeepers, hkeepers, List.length_append, List.length_singleton, Nat.succ_mul]
          omega
        · obtain ⟨rfl, rfl⟩ := Prod.mk.inj (Option.some.inj hstep)
          rw [permits_dropping]
          omega

theorem returning_conserves
    (hstep : (returning k keepers).step config shared outcome = some (shared', next)) :
    shared'.stock key + next.permits key =
      shared.stock key + (returning k keepers).permits key := by
  cases outcome with
  | failed _ => cases keepers <;> cases hstep
  | cancelled => cases keepers <;> cases hstep
  | done _ =>
      cases keepers with
      | nil =>
          obtain ⟨rfl, rfl⟩ := Prod.mk.inj (Option.some.inj hstep)
          exact congrArg _ (Nat.zero_mul (one k key)).symm
      | cons spare keepers =>
          have hkeepers : (returning k (spare :: keepers)).permits key =
              (returning k keepers).permits key + one k key := Nat.succ_mul _ _
          rw [step] at hstep
          split at hstep
          · rename_i after hpush
            have hstock := Shared.push_stock hpush key
            obtain ⟨rfl, rfl⟩ := Prod.mk.inj (Option.some.inj hstep)
            rw [hkeepers]
            omega
          · obtain ⟨rfl, rfl⟩ := Prod.mk.inj (Option.some.inj hstep)
            rw [permits_dropping, hkeepers]
            omega

theorem dropping_conserves
    (hstep : (dropping k socket after).step config shared outcome = some (shared', next)) :
    shared'.stock key + next.permits key =
      shared.stock key + (dropping k socket after).permits key := by
  cases outcome with
  | failed _ => cases socket <;> cases hstep
  | cancelled => cases socket <;> cases hstep
  | done _ =>
      cases socket with
      | true =>
          obtain ⟨rfl, rfl⟩ := Prod.mk.inj (Option.some.inj hstep)
          rw [permits_dropping, permits_dropping]
      | false =>
          obtain ⟨rfl, rfl⟩ := Prod.mk.inj (Option.some.inj hstep)
          rw [permits_dropping, Shared.release_stock]
          omega

end

/-- An operation moves permits, and makes none and loses none. -/
theorem step_conserves {config : Config} {shared shared' : Shared} {task next : Task}
    {outcome : Outcome} (hstep : task.step config shared outcome = some (shared', next))
    (key : ProxyKey) :
    shared'.stock key + next.permits key = shared.stock key + task.permits key := by
  cases task with
  | checkingOut caller k now => exact checkingOut_conserves key hstep
  | judging caller k now spare => exact judging_conserves key hstep
  | reserving asker k => exact reserving_conserves key hstep
  | reclaiming asker k => exact reclaiming_conserves key hstep
  | reclaimed asker k spare => exact reclaimed_conserves key hstep
  | retrying asker k => exact retrying_conserves key hstep
  | connecting caller k => exact connecting_conserves key hstep
  | handshaking stream => exact handshaking_conserves key hstep
  | live stream => exact live_conserves key hstep
  | permit k => exact permit_conserves key hstep
  | refilling k => exact refilling_conserves key hstep
  | refillConnecting k => exact refillConnecting_conserves key hstep
  | refillPushing k spare => exact refillPushing_conserves key hstep
  | refillWaiting k => exact refillWaiting_conserves key hstep
  | draining k now keepers => exact draining_conserves key hstep
  | returning k keepers => exact returning_conserves key hstep
  | dropping k socket after => exact dropping_conserves key hstep
  | ended => cases outcome <;> cases hstep

theorem sockets_le_permits (key : ProxyKey) (task : Task) :
    task.sockets key ≤ task.permits key := by
  have hasker : ∀ asker : Asker, asker.sockets key ≤ asker.held key := by
    intro asker
    cases asker with
    | socket caller => exact Nat.le_refl 0
    | reserve => exact Nat.le_refl 0
    | extend stream rest => exact Nat.le_add_right _ _
  induction task with
  | checkingOut caller k now => exact Nat.le_refl 0
  | judging caller k now spare => exact Nat.le_refl _
  | reserving asker k => exact (hasker asker).trans (Nat.zero_add _).ge
  | reclaiming asker k => exact (hasker asker).trans (Nat.zero_add _).ge
  | reclaimed asker k spare => exact Nat.add_le_add_left (hasker asker) _
  | retrying asker k => exact (hasker asker).trans (Nat.zero_add _).ge
  | connecting caller k => exact (Nat.zero_add _).ge
  | handshaking stream => exact (Nat.le_add_right _ _).trans (Nat.zero_add _).ge
  | live stream => exact (Nat.le_add_right _ _).trans (Nat.zero_add _).ge
  | permit k => exact Nat.zero_le _
  | refilling k => exact Nat.le_refl 0
  | refillConnecting k => exact (Nat.zero_add _).ge
  | refillPushing k spare => exact Nat.le_refl _
  | refillWaiting k => exact Nat.le_refl 0
  | draining k now keepers => exact Nat.le_refl _
  | returning k keepers => exact Nat.le_refl _
  | dropping k socket next ih =>
      rw [permits_dropping, sockets]
      split
      · exact Nat.add_le_add_left ih _
      · exact Nat.add_le_add (Nat.zero_le _) ih
  | ended => exact Nat.le_refl 0

end Task

/-! Sums over tasks. -/

theorem sum_map_set {α : Type u} (f : α → Nat) {items : List α} {i : Nat} {old : α}
    (hold : items[i]? = some old) (new : α) :
    ((items.set i new).map f).sum + f old = (items.map f).sum + f new := by
  induction items generalizing i with
  | nil => cases hold
  | cons item items ih =>
      cases i with
      | zero =>
          obtain rfl := Option.some.inj hold
          simp only [List.set_cons_zero, List.map_cons, List.sum_cons]
          omega
      | succ i =>
          have hrest := ih hold
          simp only [List.set_cons_succ, List.map_cons, List.sum_cons]
          omega

namespace State

def permits (state : State) (key : ProxyKey) : Nat :=
  state.shared.stock key + (state.tasks.map fun task => task.permits key).sum

theorem permits_eq (state : State) (key : ProxyKey) :
    state.permits key = state.available key + state.queued key + state.inHand key +
      state.connects key + state.held key := by
  have hsum : (state.tasks.map fun task => task.permits key).sum =
      state.inHand key + state.connects key + state.held key := by
    simp only [Task.permits, inHand, connects, held, List.sum_map_add]
  rw [permits, hsum, Shared.stock]
  simp only [available, queued]
  omega

theorem permits_spawn (state : State) {task : Task} {key : ProxyKey}
    (htask : task.permits key = 0) : (state.spawn task).permits key = state.permits key := by
  simp [permits, spawn, htask]

theorem step_conserves {config : Config} {state next : State} {action : Action}
    (hstep : state.step config action = some next) (key : ProxyKey) :
    next.permits key = state.permits key := by
  cases action with
  | checkout k now =>
      obtain rfl := Option.some.inj hstep
      exact permits_spawn state rfl
  | acquire k now =>
      obtain rfl := Option.some.inj hstep
      exact permits_spawn state rfl
  | reservePermit k =>
      obtain rfl := Option.some.inj hstep
      exact permits_spawn state rfl
  | connectChain first rest now =>
      obtain rfl := Option.some.inj hstep
      exact permits_spawn state rfl
  | spawnRefillFor k =>
      rw [step] at hstep
      split at hstep
      · rename_i hnew
        obtain rfl := Option.some.inj hstep
        rw [Bool.and_eq_true, Option.isNone_iff_eq_none] at hnew
        have hqueue : (state.shared.setQueue k []).queue key = state.shared.queue key := by
          rw [Shared.queue_setQueue]
          split
          · rename_i hkey
            rw [hkey, Shared.queue, hnew.2]
            rfl
          · rfl
        have hstock : (state.shared.setQueue k []).stock key = state.shared.stock key := by
          rw [Shared.stock, hqueue]
          rfl
        simp only [permits, hstock, List.map_append, List.sum_append]
        rfl
      · obtain rfl := Option.some.inj hstep
        rfl
  | attachPermit i j =>
      rw [step] at hstep
      split at hstep
      · rename_i stream k hstream hpermit
        obtain rfl := Option.some.inj hstep
        have hne : i ≠ j := by
          rintro rfl
          rw [hstream] at hpermit
          cases hpermit
        have hpermit' : (state.tasks.set i (.live (stream.attachPermit k)))[j]? =
            some (.permit k) := by
          rw [List.getElem?_set_ne hne, hpermit]
        have hfirst := sum_map_set (fun task => Task.permits task key) hstream
          (.live (stream.attachPermit k))
        have hsecond := sum_map_set (fun task => Task.permits task key) hpermit' .ended
        have hlive : ∀ stream, (Task.live stream).permits key = stream.held key :=
          fun stream => Nat.zero_add _
        have hone : (Task.permit k).permits key = one k key := Nat.zero_add _
        have hended : Task.ended.permits key = 0 := rfl
        rw [hlive, hlive, held_attachPermit] at hfirst
        rw [hone, hended] at hsecond
        simp only [permits, set]
        omega
      · cases hstep
  | advance i outcome =>
      obtain ⟨task, htask, hmap⟩ := Option.bind_eq_some_iff.mp hstep
      obtain ⟨⟨shared, after⟩, hmove, rfl⟩ := Option.map_eq_some_iff.mp hmap
      have hsum := sum_map_set (fun task => Task.permits task key) htask after
      have htransfer := Task.step_conserves hmove key
      simp only [permits] at hsum ⊢
      omega

theorem permits_reachable {config : Config} {state : State}
    (hreach : Reaches (step config) (new config) state) (key : ProxyKey) :
    state.permits key = config.permits := by
  have hstep : ∀ state action next, step config state action = some next →
      state.permits key = config.permits → next.permits key = config.permits := by
    intro state action next hstep hkept
    rw [step_conserves hstep key, hkept]
  exact hreach.preserves hstep rfl

theorem sockets_le (state : State) (key : ProxyKey) : state.sockets key ≤ state.permits key := by
  have htasks : (state.tasks.map (Task.sockets key)).sum ≤
      (state.tasks.map fun task => task.permits key).sum :=
    List.sum_le_sum fun task _ => Task.sockets_le_permits key task
  have hqueued : state.queued key ≤ state.shared.stock key := Nat.le_add_left _ _
  exact Nat.add_le_add hqueued htasks

end State

/-! The ends of `connect_chain`. -/

def Caller.isChain : Caller → Bool
  | .chain _ => true
  | _ => false

def Asker.isChain : Asker → Bool
  | .socket caller => caller.isChain
  | .reserve => false
  | .extend _ _ => true

namespace Task

def isChain : Task → Bool
  | checkingOut caller _ _ => caller.isChain
  | judging caller _ _ _ => caller.isChain
  | reserving asker _ => asker.isChain
  | reclaiming asker _ => asker.isChain
  | reclaimed asker _ _ => asker.isChain
  | retrying asker _ => asker.isChain
  | connecting caller _ => caller.isChain
  | handshaking _ => true
  | dropping _ _ next => next.isChain
  | _ => false

/-- Nothing is left but to give back. -/
def unwinds : Task → Bool
  | dropping _ _ next => next.unwinds
  | ended => true
  | _ => false

theorem unwinds_dropPermits (keys : List ProxyKey) : (dropPermits keys).unwinds = true := by
  induction keys with
  | nil => rfl
  | cons key keys ih => exact ih

theorem isChain_chainNext (stream : UpstreamStream) (rest : List ProxyKey) :
    (chainNext stream rest).isChain = true := by
  cases rest with
  | nil => rfl
  | cons key rest => rfl

theorem isChain_connected (key : ProxyKey) {caller : Caller} (hchain : caller.isChain = true) :
    (connected key caller).isChain = true := by
  cases caller with
  | checkout => cases hchain
  | acquire => cases hchain
  | chain rest => exact isChain_chainNext _ rest

theorem isChain_missed (key : ProxyKey) {caller : Caller} (hchain : caller.isChain = true) :
    (missed key caller).isChain = true := by
  cases caller with
  | checkout => cases hchain
  | acquire => cases hchain
  | chain rest => rfl

theorem isChain_reserved (key : ProxyKey) {asker : Asker} (hchain : asker.isChain = true) :
    (reserved key asker).isChain = true := by
  cases asker with
  | socket caller => exact hchain
  | reserve => cases hchain
  | extend stream rest => exact isChain_chainNext _ rest

theorem unwinds_refused (asker : Asker) : (refused asker).unwinds = true := by
  cases asker with
  | socket caller => rfl
  | reserve => rfl
  | extend stream rest => exact unwinds_dropPermits stream.extraPermits

theorem chain_step {config : Config} {shared shared' : Shared} {task next : Task}
    {outcome : Outcome} (hchain : task.isChain = true)
    (hstep : task.step config shared outcome = some (shared', next)) :
    next.isChain = true ∨ (∃ stream, next = .live stream) ∨
      (next.unwinds = true ∧ shared' = shared) := by
  cases task with
  | checkingOut caller k now =>
      left
      cases outcome with
      | failed _ => cases hstep
      | cancelled => cases hstep
      | done _ =>
          rw [step] at hstep
          split at hstep
          · obtain ⟨rfl, rfl⟩ := Prod.mk.inj (Option.some.inj hstep)
            exact isChain_missed k hchain
          · split at hstep
            · obtain ⟨rfl, rfl⟩ := Prod.mk.inj (Option.some.inj hstep)
              exact isChain_missed k hchain
            · obtain ⟨rfl, rfl⟩ := Prod.mk.inj (Option.some.inj hstep)
              exact hchain
  | judging caller k now spare =>
      left
      cases outcome with
      | cancelled => cases hstep
      | failed _ =>
          obtain ⟨rfl, rfl⟩ := Prod.mk.inj (Option.some.inj hstep)
          exact hchain
      | done _ =>
          rw [step] at hstep
          split at hstep
          · obtain ⟨rfl, rfl⟩ := Prod.mk.inj (Option.some.inj hstep)
            exact isChain_connected k hchain
          · obtain ⟨rfl, rfl⟩ := Prod.mk.inj (Option.some.inj hstep)
            exact hchain
  | reserving asker k =>
      left
      cases outcome with
      | failed _ => cases hstep
      | cancelled => cases hstep
      | done _ =>
          rw [step] at hstep
          split at hstep
          · obtain ⟨rfl, rfl⟩ := Prod.mk.inj (Option.some.inj hstep)
            exact isChain_reserved k hchain
          · obtain ⟨rfl, rfl⟩ := Prod.mk.inj (Option.some.inj hstep)
            exact hchain
  | reclaiming asker k =>
      left
      cases outcome with
      | failed _ => cases hstep
      | cancelled => cases hstep
      | done _ =>
          rw [step] at hstep
          split at hstep
          · obtain ⟨rfl, rfl⟩ := Prod.mk.inj (Option.some.inj hstep)
            exact hchain
          · obtain ⟨rfl, rfl⟩ := Prod.mk.inj (Option.some.inj hstep)
            exact hchain
  | reclaimed asker k spare =>
      left
      cases outcome with
      | failed _ => cases hstep
      | cancelled => cases hstep
      | done _ =>
          obtain ⟨rfl, rfl⟩ := Prod.mk.inj (Option.some.inj hstep)
          exact isChain_reserved k hchain
  | retrying asker k =>
      cases outcome with
      | failed _ => cases hstep
      | cancelled => cases hstep
      | done _ =>
          rw [step] at hstep
          split at hstep
          · obtain ⟨rfl, rfl⟩ := Prod.mk.inj (Option.some.inj hstep)
            exact .inl (isChain_reserved k hchain)
          · obtain ⟨rfl, rfl⟩ := Prod.mk.inj (Option.some.inj hstep)
            exact .inr (.inr ⟨unwinds_refused asker, rfl⟩)
  | connecting caller k =>
      cases outcome with
      | done _ =>
          obtain ⟨rfl, rfl⟩ := Prod.mk.inj (Option.some.inj hstep)
          exact .inl (isChain_connected k hchain)
      | failed _ =>
          obtain ⟨rfl, rfl⟩ := Prod.mk.inj (Option.some.inj hstep)
          exact .inr (.inr ⟨rfl, rfl⟩)
      | cancelled =>
          obtain ⟨rfl, rfl⟩ := Prod.mk.inj (Option.some.inj hstep)
          exact .inr (.inr ⟨rfl, rfl⟩)
  | handshaking stream =>
      right
      cases outcome with
      | done _ =>
          obtain ⟨rfl, rfl⟩ := Prod.mk.inj (Option.some.inj hstep)
          exact .inl ⟨stream, rfl⟩
      | failed _ =>
          obtain ⟨rfl, rfl⟩ := Prod.mk.inj (Option.some.inj hstep)
          exact .inr ⟨unwinds_dropPermits stream.extraPermits, rfl⟩
      | cancelled =>
          obtain ⟨rfl, rfl⟩ := Prod.mk.inj (Option.some.inj hstep)
          exact .inr ⟨unwinds_dropPermits stream.extraPermits, rfl⟩
  | dropping k socket after =>
      left
      cases outcome with
      | failed _ => cases socket <;> cases hstep
      | cancelled => cases socket <;> cases hstep
      | done _ =>
          cases socket with
          | true =>
              obtain ⟨rfl, rfl⟩ := Prod.mk.inj (Option.some.inj hstep)
              exact hchain
          | false =>
              obtain ⟨rfl, rfl⟩ := Prod.mk.inj (Option.some.inj hstep)
              exact hchain
  | live _ => cases hchain
  | permit _ => cases hchain
  | refilling _ => cases hchain
  | refillConnecting _ => cases hchain
  | refillPushing _ _ => cases hchain
  | refillWaiting _ => cases hchain
  | draining _ _ _ => cases hchain
  | returning _ _ => cases hchain
  | ended => cases hchain

end Task

namespace State

/-- By its own steps alone a task that unwinds comes to its end, and every permit that it held is
available again. -/
def GivesBack (config : Config) (state : State) (i : Nat) (task : Task) : Prop :=
  ∃ n final, run (step config) state (List.replicate n (.advance i (.done 0))) = some final ∧
    final.tasks = state.tasks.set i .ended ∧ final.shared.pools = state.shared.pools ∧
    ∀ key, final.available key = state.available key + task.permits key

theorem step_advance {config : Config} {state : State} {i : Nat} {task next : Task}
    {outcome : Outcome} {shared : Shared} (htask : state.tasks[i]? = some task)
    (hstep : task.step config state.shared outcome = some (shared, next)) :
    state.step config (.advance i outcome) = some ⟨shared, state.tasks.set i next⟩ := by
  rw [step, htask, Option.bind_some, hstep]
  rfl

theorem GivesBack.advance {config : Config} {state : State} {i : Nat} {task next : Task}
    {shared : Shared} (htask : state.tasks[i]? = some task)
    (hstep : task.step config state.shared (.done 0) = some (shared, next))
    (hpools : shared.pools = state.shared.pools)
    (hgives : GivesBack config ⟨shared, state.tasks.set i next⟩ i next) :
    GivesBack config state i task := by
  obtain ⟨n, final, hrun, htasks, hsame, havailable⟩ := hgives
  refine ⟨n + 1, final, ?_, ?_, hsame.trans hpools, fun key => ?_⟩
  · rw [List.replicate_succ, run_cons, step_advance htask hstep]
    exact hrun
  · rw [htasks, List.set_set]
  · have hconserves := Task.step_conserves hstep key
    have hqueue : shared.queue key = state.shared.queue key := by
      rw [Shared.queue, hpools, Shared.queue]
    rw [Shared.stock, Shared.stock, hqueue] at hconserves
    have hfinal := havailable key
    simp only [available] at hfinal ⊢
    omega

theorem unwinds_givesBack (config : Config) {state : State} {i : Nat} {task : Task}
    (htask : state.tasks[i]? = some task) (hunwinds : task.unwinds = true) :
    GivesBack config state i task := by
  have hset : ∀ {tasks : List Task} {old : Task} (new : Task), tasks[i]? = some old →
      (tasks.set i new)[i]? = some new := by
    intro tasks old new hold
    obtain ⟨hlt, _⟩ := List.getElem?_eq_some_iff.mp hold
    rw [List.getElem?_set_self hlt]
  induction task generalizing state with
  | dropping k socket after ih =>
      have hrelease : ∀ {state : State}, state.tasks[i]? = some (.dropping k false after) →
          GivesBack config state i (.dropping k false after) := fun htask =>
        GivesBack.advance htask rfl rfl (ih (hset after htask) hunwinds)
      cases socket with
      | false => exact hrelease htask
      | true => exact GivesBack.advance htask rfl rfl (hrelease (hset _ htask))
  | ended =>
      refine ⟨0, state, rfl, ?_, rfl, fun key => rfl⟩
      obtain ⟨hlt, hended⟩ := List.getElem?_eq_some_iff.mp htask
      rw [← hended, List.set_getElem_self]
  | _ => cases hunwinds

/-- Permits are conserved over every interleaving, sockets stay within them, and a chain that
fails gives back all that it took. -/
theorem permits_conserved (config : Config) {state : State}
    (hreach : Reaches (step config) (new config) state) :
    (∀ key, state.available key + state.queued key + state.inHand key + state.connects key +
      state.held key = max config.maxPerUpstream 1) ∧
    (∀ key, state.sockets key ≤ max config.maxPerUpstream 1) ∧
    ∀ i task outcome next, state.tasks[i]? = some task → task.isChain = true →
      state.step config (.advance i outcome) = some next →
      ∃ after, next.tasks = state.tasks.set i after ∧
        (after.isChain = true ∨ (∃ stream, after = .live stream) ∨
          ∃ n final, run (step config) next (List.replicate n (.advance i (.done 0))) = some final ∧
            final.tasks = state.tasks.set i .ended ∧
            final.shared.pools = state.shared.pools ∧
            ∀ key, final.available key = state.available key + task.permits key) := by
  refine ⟨fun key => ?_, fun key => ?_, fun i task outcome next htask hchain hstep => ?_⟩
  · rw [← permits_eq]
    exact permits_reachable hreach key
  · have hsockets := state.sockets_le key
    rw [permits_reachable hreach key] at hsockets
    exact hsockets
  · rw [step, htask, Option.bind_some] at hstep
    obtain ⟨⟨shared, after⟩, hmove, rfl⟩ := Option.map_eq_some_iff.mp hstep
    refine ⟨after, rfl, ?_⟩
    obtain hgoes | hlive | ⟨hunwinds, rfl⟩ := Task.chain_step hchain hmove
    · exact .inl hgoes
    · exact .inr (.inl hlive)
    · obtain ⟨hlt, _⟩ := List.getElem?_eq_some_iff.mp htask
      have hafter : (state.tasks.set i after)[i]? = some after := List.getElem?_set_self hlt
      obtain ⟨n, final, hrun, htasks, hpools, havailable⟩ :=
        @unwinds_givesBack config ⟨state.shared, state.tasks.set i after⟩ i after hafter hunwinds
      refine .inr (.inr ⟨n, final, hrun, ?_, hpools, fun key => ?_⟩)
      · rw [htasks, List.set_set]
      · have hconserves := Task.step_conserves hmove key
        rw [havailable key]
        simp only [available]
        omega

def tunnelConfig : Config := ⟨true, 1, 60, 3⟩

def tunnelActions : List Action :=
  .connectChain (lit "p", 1080) [(lit "p", 1080)] 0 :: List.replicate 4 (.advance 0 (.done 0))

theorem permits_conserved_tunnel :
    ∃ state, run (step tunnelConfig) (new tunnelConfig) tunnelActions = some state ∧
      state.held (lit "p", 1080) = 2 ∧ state.available (lit "p", 1080) + state.queued (lit "p", 1080) +
        state.inHand (lit "p", 1080) + state.connects (lit "p", 1080) +
        state.held (lit "p", 1080) = 3 := by
  have hrun : (run (step tunnelConfig) (new tunnelConfig) tunnelActions).isSome = true := by
    decide +kernel
  obtain ⟨state, hstate⟩ := Option.isSome_iff_exists.mp hrun
  have hheld : (run (step tunnelConfig) (new tunnelConfig) tunnelActions).map
      (fun state => state.held (lit "p", 1080)) = some 2 := by decide +kernel
  rw [hstate] at hheld
  exact ⟨state, hstate, Option.some.inj hheld,
    (permits_conserved tunnelConfig ⟨tunnelActions, hstate⟩).1 (lit "p", 1080)⟩

end State

end Resocks5.Pool
