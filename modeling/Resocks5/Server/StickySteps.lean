import Resocks5.Server.StickyRaces
import Resocks5.Session.StickyTtl

namespace Resocks5.Server

open Resocks5.Chain
open Resocks5.Connect
open Resocks5.Foundation
open Resocks5.Rating
open Resocks5.Session
open Resocks5.Types

def Act.actor {ρ : Type u} {Key : Type} : Act ρ Key → Option Nat
  | .go i | .race i _ _ => some i
  | .rate _ _ | .elsewhere _ _ => none

namespace Job

variable {ρ : Type u}

/-- The cached chain that the request is about to find stale or failing. -/
def finding (job : Job ρ) (dial : Dial ρ) : Option (RotatorId × ProxyConfig) :=
  match job.progress with
  | .checking group cached _ =>
    if (dial.usableChain job.request group cached).isNone then some (group.rotator, cached)
    else none
  | .dialing group cached pick _ =>
    match dial.chainResult job.world job.request pick with
    | .error _ => some (group.rotator, cached)
    | .ok () => none
  | _ => none

def writing (job : Job ρ) : Option StickyWrite :=
  match job.progress with
  | .unlinking group cached _ => some (.unlink group.rotator cached)
  | .linking pick => pick.exit?.map fun hop => .link hop.rotator pick.config
  | _ => none

theorem Spent.writing {job : Job ρ} (hspent : job.Spent) : job.writing = none := by
  obtain hprogress | ⟨candidates, race, hprogress, _⟩ := hspent <;> rw [Job.writing, hprogress]

end Job

namespace Sharing

variable {ρ : Type u} {Key : Type} [LinearOrder Key] (arith : FloatArith) (rng : Rng ρ)

/-- The request that reads a route of its target from the cache of a rotator. -/
def reading (sharing : Sharing ρ Key) : Act ρ Key → Option (Nat × RotatorId × ProxyConfig)
  | .go i =>
    sharing.jobs[i]?.bind fun job =>
      match job.progress with
      | .sticky (r :: _) =>
        let dial := sharing.awaited arith rng job
        let now := job.world.clock dial.turn 0
        ((dial.rotators r).getLinked ((sharing.caches r).get sharing.target now).1).map
          fun cached => (i, r, cached)
      | _ => none
  | _ => none

/-- The request that finds the route it has read from the cache of a rotator stale or failing. -/
def finding (sharing : Sharing ρ Key) : Act ρ Key → Option (Nat × RotatorId × ProxyConfig)
  | .go i =>
    sharing.jobs[i]?.bind fun job => (job.finding (sharing.awaited arith rng job)).map (i, ·)
  | .race i _ (.joined k) =>
    sharing.jobs[i]?.bind fun job => ((job.attempted k).bind Attempted.failedRoute).map (i, ·)
  | _ => none

/-- The request that is about to link its route, or to give up the one it has read. -/
def writing (sharing : Sharing ρ Key) : Act ρ Key → Option (Nat × StickyWrite)
  | .go i => sharing.jobs[i]?.bind fun job => job.writing.map (i, ·)
  | .race i _ (.joined k) =>
    sharing.jobs[i]?.bind fun job => ((job.attempted k).bind Attempted.write).map (i, ·)
  | _ => none

/-- The cache itself drops the entry: it has expired, or the cache is used for another target. -/
inductive Dropped (sharing : Sharing ρ Key) (r : RotatorId) : Act ρ Key → Prop
  | expired {i : Nat} {job : Job ρ} {groups : List RotatorId} {entry : StickyEntry ProxyConfig}
      (hjob : sharing.jobs[i]? = some job) (hprogress : job.progress = .sticky (r :: groups))
      (hentry : (sharing.caches r).map.lookup sharing.target = some entry)
      (hexpired : entry.expiresAt ≤ job.world.clock (sharing.awaited arith rng job).turn 0) :
      Dropped sharing r (.go i)
  | elsewhere {op : StickyOp Key ProxyConfig} (hother : op.addr ≠ sharing.target) :
      Dropped sharing r (.elsewhere r op)

end Sharing

/-! What one step does to the entries. -/

namespace Sharing

variable {ρ : Type u} {Key : Type} [LinearOrder Key] {arith : FloatArith} {rng : Rng ρ}

theorem entry_setCache (sharing : Sharing ρ Key) (r : RotatorId)
    (cache : StickyCache Key ProxyConfig) :
    (sharing.setCache r cache).entry r = (cache.map.lookup sharing.target).map (·.proxy) := by
  simp only [entry, setCache, Function.update_self]

theorem entry_setCache_ne (sharing : Sharing ρ Key) {r r' : RotatorId}
    (cache : StickyCache Key ProxyConfig) (hne : r' ≠ r) :
    (sharing.setCache r cache).entry r' = sharing.entry r' := by
  simp only [entry, setCache, Function.update_of_ne hne]

/-- What the entry of a rotator may be after a step. -/
inductive Becomes (arith : FloatArith) (rng : Rng ρ) (sharing : Sharing ρ Key) (act : Act ρ Key)
    (r : RotatorId) : Option ProxyConfig → Prop
  | same : Becomes arith rng sharing act r (sharing.entry r)
  | dropped (hdropped : sharing.Dropped arith rng r act) : Becomes arith rng sharing act r none
  | linked {i : Nat} {proxy : ProxyConfig}
      (hwriting : sharing.writing act = some (i, .link r proxy)) :
      Becomes arith rng sharing act r (some proxy)
  | unlinked {i : Nat} {cached : ProxyConfig}
      (hwriting : sharing.writing act = some (i, .unlink r cached)) :
      Becomes arith rng sharing act r none

section

variable {sharing : Sharing ρ Key} {act : Act ρ Key} {r : RotatorId} {after : Option ProxyConfig}

theorem Becomes.appears (hbecomes : Becomes arith rng sharing act r after) {proxy : ProxyConfig}
    (hafter : after = some proxy) :
    sharing.entry r = some proxy ∨ ∃ i, sharing.writing act = some (i, .link r proxy) := by
  cases hbecomes with
  | same => exact .inl hafter
  | dropped hdropped => cases hafter
  | linked hwriting =>
    cases hafter
    exact .inr ⟨_, hwriting⟩
  | unlinked hwriting => cases hafter

theorem Becomes.vanishes (hbecomes : Becomes arith rng sharing act r after)
    (hafter : after = none) : sharing.entry r = none ∨ sharing.Dropped arith rng r act ∨
      ∃ i cached, sharing.writing act = some (i, .unlink r cached) := by
  cases hbecomes with
  | same => exact .inl hafter
  | dropped hdropped => exact .inr (.inl hdropped)
  | linked hwriting => cases hafter
  | unlinked hwriting => exact .inr (.inr ⟨_, _, hwriting⟩)

end

theorem entry_unlink (sharing : Sharing ρ Key) (now : Instant) (r : RotatorId)
    (cached : ProxyConfig) : (sharing.write now (.unlink r cached)).entry r = none := by
  have hgone : ((sharing.caches r).remove sharing.target).2.map.lookup sharing.target = none :=
    AList.lookup_eq_none.mpr fun hin => (StickyCache.mem_remove.mp hin).1 rfl
  rw [write, entry_setCache, hgone]
  rfl

theorem write_becomes {sharing : Sharing ρ Key} {act : Act ρ Key} {i : Nat} {write : StickyWrite}
    (hwriting : sharing.writing act = some (i, write)) (changed : Sharing ρ Key)
    (hcaches : changed.caches = sharing.caches) (htarget : changed.target = sharing.target)
    (now : Instant) (r : RotatorId) :
    Becomes arith rng sharing act r ((changed.write now write).entry r) := by
  have hentry : changed.entry r = sharing.entry r := by rw [entry, entry, hcaches, htarget]
  cases write with
  | link r' proxy =>
    rw [Sharing.write]
    obtain rfl | hother := eq_or_ne r r'
    · rw [entry_setCache]
      by_cases hfull : (changed.caches r).maxEntries = 0
      · rw [StickyCache.insert, if_pos hfull]
        change Becomes arith rng sharing act r (changed.entry r)
        rw [hentry]
        exact .same
      · obtain ⟨entry, hlookup, rfl, _⟩ :=
          StickyCache.lookup_insert_self hfull changed.target proxy now
        rw [hlookup]
        exact .linked hwriting
    · rw [entry_setCache_ne _ _ hother, hentry]
      exact .same
  | unlink r' cached =>
    obtain rfl | hother := eq_or_ne r r'
    · rw [entry_unlink]
      exact .unlinked hwriting
    · rw [Sharing.write, entry_setCache_ne _ _ hother, hentry]
      exact .same

/-- `get` drops the entry that has expired, and keeps any other. -/
theorem get_lookup (cache : StickyCache Key ProxyConfig) (key : Key) (now : Instant) :
    ((cache.get key now).2.map.lookup key).map (·.proxy) = (cache.map.lookup key).map (·.proxy) ∧
        (∀ proxy, (cache.get key now).1 = some proxy →
          (cache.map.lookup key).map (·.proxy) = some proxy) ∨
      ∃ entry, cache.map.lookup key = some entry ∧ entry.expiresAt ≤ now ∧
        (cache.get key now).1 = none ∧ (cache.get key now).2.map.lookup key = none := by
  unfold StickyCache.get
  cases hlookup : cache.map.lookup key with
  | none => exact .inl ⟨by dsimp only; rw [hlookup], fun _ hnone => by cases hnone⟩
  | some entry =>
    dsimp only
    split
    · rename_i hexpired
      refine .inr ⟨entry, rfl, hexpired, rfl, ?_⟩
      exact AList.lookup_eq_none.mpr fun hin => (StickyCache.mem_remove.mp hin).1 rfl
    · refine .inl ⟨?_, fun proxy hproxy => hproxy⟩
      dsimp only
      rw [AList.lookup_insert]
      rfl

theorem read_entry (i : Nat) (job : Job ρ) (dial : Dial ρ) (r : RotatorId)
    (groups : List RotatorId) (sharing : Sharing ρ Key) (r' : RotatorId) :
    (sharing.read i job dial r groups).entry r' = (sharing.setCache r
      ((sharing.caches r).get sharing.target (job.world.clock dial.turn 0)).2).entry r' := by
  unfold read
  dsimp only
  split <;> rfl

theorem advance_write (job : Job ρ) (dial : Dial ρ) :
    (job.advance arith rng dial).2 = job.writing := by
  unfold Job.advance Job.writing
  cases job.progress with
  | sticky groups => cases groups <;> rfl
  | checking group cached groups =>
    dsimp only
    split
    · rfl
    · split
      · rfl
      · split <;> rfl
  | dialing group cached pick groups =>
    dsimp only
    split
    · rfl
    · split <;> rfl
  | planning =>
    dsimp only
    split
    · split <;> rfl
    · rfl
  | choosing =>
    dsimp only
    split
    · split
      · rfl
      · rfl
      · split <;> rfl
    · rfl
  | chaining pick =>
    dsimp only
    split
    · rfl
    · split <;> rfl
  | filling =>
    dsimp only
    split <;> rfl
  | _ => rfl

theorem report_quiet (arith : FloatArith) (sharing : Sharing ρ Key) (now : Instant)
    {heard : List (ExitCandidate × AttemptReport)}
    (hquiet : ∀ one ∈ heard, stickyReport one.1 one.2 = none) :
    (heard.foldl (report arith now) sharing).caches = sharing.caches ∧
      (heard.foldl (report arith now) sharing).target = sharing.target := by
  induction heard generalizing sharing with
  | nil => exact ⟨rfl, rfl⟩
  | cons one heard ih =>
    obtain ⟨hone, hrest⟩ := List.forall_mem_cons.mp hquiet
    obtain ⟨hcaches, htarget⟩ := ih (report arith now sharing one) hrest
    rw [List.foldl_cons, hcaches, htarget]
    unfold report
    dsimp only
    rw [hone]
    exact ⟨rfl, rfl⟩

theorem step_elsewhere (cache : StickyCache Key ProxyConfig) {target : Key}
    {op : StickyOp Key ProxyConfig} (hother : op.addr ≠ target) :
    (cache.step op).2.map.lookup target = cache.map.lookup target ∨
      (cache.step op).2.map.lookup target = none := by
  cases op with
  | get addr now => exact .inl (StickyCache.lookup_get_ne (Ne.symm hother) now)
  | insert addr proxy now => exact StickyCache.lookup_insert_ne (Ne.symm hother) proxy now
  | remove addr => exact .inl (StickyCache.lookup_remove_ne (Ne.symm hother))

/-- The entry of a rotator stays, or the cache drops it, or the request at work writes it. -/
theorem step_becomes (sharing : Sharing ρ Key) (act : Act ρ Key) (r : RotatorId) :
    Becomes arith rng sharing act r ((sharing.step arith rng act).entry r) := by
  cases act with
  | go i =>
    unfold step
    dsimp only
    split
    · exact .same
    · rename_i job hjob
      unfold go
      dsimp only
      split
      · rename_i r' groups hprogress
        rw [read_entry]
        obtain rfl | hother := eq_or_ne r r'
        · rw [entry_setCache]
          obtain ⟨hkept, _⟩ | ⟨entry, hentry, hexpired, _, hgone⟩ := get_lookup (sharing.caches r)
            sharing.target (job.world.clock (sharing.awaited arith rng job).turn 0)
          · rw [hkept]
            exact .same
          · rw [hgone]
            exact .dropped (.expired hjob hprogress hentry hexpired)
        · rw [entry_setCache_ne _ _ hother]
          exact .same
      · have hwrite : (job.advance arith rng (sharing.awaited arith rng job)).2 = job.writing :=
          advance_write job _
        split
        · exact .same
        · rename_i write hsome
          have hwriting : sharing.writing (.go i) = some (i, write) := by
            rw [writing, hjob, Option.bind_some, ← hwrite, hsome]
            rfl
          exact write_becomes hwriting (sharing.setJob i _) rfl rfl _ r
  | race i now event =>
    unfold step
    dsimp only
    split
    · exact .same
    · rename_i job hjob
      obtain ⟨k, attempted, heard, rfl, hattempted, hheard, hreport⟩ | ⟨_, hquiet⟩ :=
        job.raceOn_heard now event
      · rw [hheard, List.foldl_cons, List.foldl_nil]
        unfold report
        dsimp only
        rw [hreport]
        split
        · exact .same
        · rename_i write hwrite
          have hwriting : sharing.writing (.race i now (.joined k)) = some (i, write) := by
            rw [writing, hjob, Option.bind_some, hattempted, Option.bind_some, hwrite]
            rfl
          exact write_becomes hwriting
            { sharing with jobs := sharing.jobs.set i (job.raceOn now (.joined k)).1 } rfl rfl now r
      · let raced := { sharing with jobs := sharing.jobs.set i (job.raceOn now event).1 }
        obtain ⟨hcaches, htarget⟩ := report_quiet arith raced now hquiet
        rw [entry, hcaches, htarget]
        exact .same
  | rate r' ratings => exact .same
  | elsewhere r' op =>
    unfold step
    dsimp only
    split
    · exact .same
    · rename_i hother
      obtain rfl | hne := eq_or_ne r r'
      · rw [entry_setCache]
        obtain hkept | hgone := step_elsewhere (sharing.caches r) hother
        · rw [hkept]
          exact .same
        · rw [hgone]
          exact .dropped (.elsewhere hother)
      · rw [entry_setCache_ne _ _ hne]
        exact .same

end Sharing

/-! What one step does to a request. -/

namespace Sharing

variable {ρ : Type u} {Key : Type} [LinearOrder Key] {arith : FloatArith} {rng : Rng ρ}

inductive Goes (arith : FloatArith) (rng : Rng ρ) (sharing : Sharing ρ Key) (act : Act ρ Key)
    (i : Nat) (job : Job ρ) : Job ρ → Prop
  | idle (hactor : act.actor ≠ some i) : Goes arith rng sharing act i job job
  | missed {r : RotatorId} {groups : List RotatorId} (hact : act = .go i)
      (hprogress : job.progress = .sticky (r :: groups)) :
      Goes arith rng sharing act i job
        (job.goTo (sharing.awaited arith rng job) (.sticky groups))
  | answered {r : RotatorId} {groups : List RotatorId} {linked : Option ProxyConfig}
      {cached : ProxyConfig} (hact : act = .go i) (hprogress : job.progress = .sticky (r :: groups))
      (hreading : sharing.reading arith rng act = some (i, r, cached)) :
      Goes arith rng sharing act i job
        (job.answered ⟨r, linked⟩ groups cached (sharing.awaited arith rng job))
  | advanced (hact : act = .go i) (hjob : sharing.jobs[i]? = some job) :
      Goes arith rng sharing act i job (job.advance arith rng (sharing.awaited arith rng job)).1
  | raced {now : Instant} {event : RaceEvent} (hact : act = .race i now event)
      (hjob : sharing.jobs[i]? = some job) :
      Goes arith rng sharing act i job (job.raceOn now event).1

@[simp] theorem write_jobs (now : Instant) (sharing : Sharing ρ Key) (write : StickyWrite) :
    (sharing.write now write).jobs = sharing.jobs := by
  cases write <;> rfl

theorem reports_jobs (sharing : Sharing ρ Key) (now : Instant)
    (heard : List (ExitCandidate × AttemptReport)) :
    (heard.foldl (report arith now) sharing).jobs = sharing.jobs := by
  induction heard generalizing sharing with
  | nil => rfl
  | cons one heard ih =>
    rw [List.foldl_cons, ih]
    unfold report
    dsimp only
    split
    · rfl
    · exact write_jobs _ _ _

theorem set_goes {sharing : Sharing ρ Key} {act : Act ρ Key} {i j : Nat} {job changed after : Job ρ}
    (hactor : act.actor = some j) (hjob : sharing.jobs[j]? = some job)
    (hgoes : Goes arith rng sharing act j job changed)
    (hafter : (sharing.jobs.set j changed)[i]? = some after) :
    ∃ before, sharing.jobs[i]? = some before ∧ Goes arith rng sharing act i before after := by
  obtain rfl | hother := eq_or_ne j i
  · rw [List.getElem?_set_self (List.getElem?_eq_some_iff.mp hjob).1] at hafter
    obtain rfl := Option.some.inj hafter
    exact ⟨job, hjob, hgoes⟩
  · rw [List.getElem?_set_ne hother] at hafter
    exact ⟨after, hafter, .idle fun hsame => hother (Option.some.inj (hactor.symm.trans hsame))⟩

theorem step_goes {sharing : Sharing ρ Key} {act : Act ρ Key} {i : Nat} {after : Job ρ}
    (hafter : (sharing.step arith rng act).jobs[i]? = some after) :
    ∃ job, sharing.jobs[i]? = some job ∧ Goes arith rng sharing act i job after := by
  cases act with
  | go j =>
    unfold step at hafter
    dsimp only at hafter
    split at hafter
    · rename_i hnone
      refine ⟨after, hafter, .idle fun hsame => ?_⟩
      obtain rfl := Option.some.inj hsame
      rw [hnone] at hafter
      cases hafter
    · rename_i job hjob
      unfold go at hafter
      dsimp only at hafter
      split at hafter
      · rename_i r groups hprogress
        unfold read at hafter
        dsimp only at hafter
        split at hafter
        · exact set_goes rfl hjob (.missed rfl hprogress) hafter
        · rename_i cached hlinked
          refine set_goes rfl hjob (.answered rfl hprogress ?_) hafter
          rw [reading, hjob, Option.bind_some, hprogress]
          dsimp only
          rw [hlinked]
          rfl
      · split at hafter
        · exact set_goes rfl hjob (.advanced rfl hjob) hafter
        · rw [write_jobs] at hafter
          exact set_goes rfl hjob (.advanced rfl hjob) hafter
  | race j now event =>
    unfold step at hafter
    dsimp only at hafter
    split at hafter
    · rename_i hnone
      refine ⟨after, hafter, .idle fun hsame => ?_⟩
      obtain rfl := Option.some.inj hsame
      rw [hnone] at hafter
      cases hafter
    · rename_i job hjob
      rw [reports_jobs] at hafter
      exact set_goes rfl hjob (.raced rfl hjob) hafter
  | rate r ratings => exact ⟨after, hafter, .idle nofun⟩
  | elsewhere r op =>
    refine ⟨after, ?_, .idle nofun⟩
    unfold step at hafter
    dsimp only at hafter
    split at hafter
    · exact hafter
    · exact hafter

end Sharing

/-! What a request holds of what it has read. -/

def cachedRoutes (candidates : List ExitCandidate) : List (RotatorId × ProxyConfig) :=
  (candidates.filter (·.cached)).map fun candidate => (candidate.rotator, candidate.proxy)

def Progress.holds : Progress → List (RotatorId × ProxyConfig)
  | .checking group cached _ | .dialing group cached _ _ | .unlinking group cached _ =>
    [(group.rotator, cached)]
  | .racing candidates _ => cachedRoutes candidates
  | _ => []

def Job.holds {ρ : Type u} (job : Job ρ) : List (RotatorId × ProxyConfig) :=
  job.progress.holds ++ cachedRoutes job.dial.candidates

theorem mem_cachedRoutes {candidates : List ExitCandidate} {candidate : ExitCandidate}
    (hmem : candidate ∈ candidates) (hcached : candidate.cached = true) :
    (candidate.rotator, candidate.proxy) ∈ cachedRoutes candidates :=
  List.mem_map.mpr ⟨candidate, List.mem_filter.mpr ⟨hmem, hcached⟩, rfl⟩

theorem cachedRoutes_append_new (candidates : List ExitCandidate) (r : RotatorId)
    (proxy : ProxyConfig) :
    cachedRoutes (candidates ++ [⟨r, proxy, false⟩]) = cachedRoutes candidates := by
  simp [cachedRoutes]

theorem cachedRoutes_take (candidates : List ExitCandidate) (n : Nat) :
    cachedRoutes (candidates.take n) ⊆ cachedRoutes candidates :=
  (((List.take_sublist n candidates).filter _).map _).subset

namespace Dial

variable {ρ : Type u} {arith : FloatArith} {rng : Rng ρ} {world : World} {request : Request}

theorem recordChainFailure_candidates {dial after : Dial ρ} {pick : ChainPick} {error : ChainError}
    (hrecord : dial.recordChainFailure arith rng world request pick error = some after) :
    after.candidates = dial.candidates := by
  obtain ⟨planned, _, hmap⟩ := Option.bind_eq_some_iff.mp hrecord
  obtain ⟨recorded, _, rfl⟩ := Option.map_eq_some_iff.mp hmap
  rfl

theorem fillFrom_cachedRoutes (request : Request) (r : RotatorId) (order : List ProxyConfig)
    (dial : Dial ρ) :
    cachedRoutes (dial.fillFrom request r order).candidates = cachedRoutes dial.candidates := by
  induction order generalizing dial with
  | nil => rfl
  | cons proxy rest ih =>
      rw [fillFrom]
      split
      · exact ih dial
      · split
        · rfl
        · exact (ih _).trans (cachedRoutes_append_new dial.candidates r proxy)

theorem fillExits_cachedRoutes (rs : List RotatorId) (dial : Dial ρ) :
    cachedRoutes (dial.fillExits arith rng world request rs).1.candidates =
      cachedRoutes dial.candidates := by
  induction rs generalizing dial with
  | nil => rfl
  | cons r rest ih =>
      rw [fillExits]
      split
      · rfl
      · dsimp only
        split
        · rfl
        · exact (ih _).trans (fillFrom_cachedRoutes request r _ _)

end Dial

namespace Job

variable {ρ : Type u} {arith : FloatArith} {rng : Rng ρ}

theorem goTo_holds (job : Job ρ) {dial : Dial ρ} {progress : Progress}
    (hsame : cachedRoutes dial.candidates = cachedRoutes job.dial.candidates)
    (hheld : progress.holds ⊆ job.holds) : (job.goTo dial progress).holds ⊆ job.holds := by
  simp only [holds, goTo, hsame]
  exact List.append_subset.mpr ⟨hheld, List.subset_append_right _ _⟩

theorem advance_holds (job : Job ρ) {dial : Dial ρ}
    (hsame : dial.candidates = job.dial.candidates) :
    (job.advance arith rng dial).1.holds ⊆ job.holds := by
  have hidle {dial' : Dial ρ} {progress : Progress} (hsame' : dial'.candidates = dial.candidates)
      (hnone : progress.holds = []) : (job.goTo dial' progress).holds ⊆ job.holds :=
    job.goTo_holds (congrArg cachedRoutes (hsame'.trans hsame)) (hnone ▸ List.nil_subset _)
  have hheld {dial' : Dial ρ} {progress : Progress} (hsame' : dial'.candidates = dial.candidates)
      (hholds : progress.holds = job.progress.holds) :
      (job.goTo dial' progress).holds ⊆ job.holds :=
    job.goTo_holds (congrArg cachedRoutes (hsame'.trans hsame))
      (hholds ▸ List.subset_append_left _ _)
  unfold advance
  cases hprogress : job.progress with
  | sticky groups => cases groups <;> exact hidle rfl rfl
  | checking group cached groups =>
    dsimp only
    split
    · exact hheld rfl (by rw [hprogress]; rfl)
    · split
      · exact hidle rfl rfl
      · split
        · exact hidle rfl rfl
        · exact hheld rfl (by rw [hprogress]; rfl)
  | dialing group cached pick groups =>
    dsimp only
    split
    · exact hidle rfl rfl
    · split
      · exact hidle rfl rfl
      · rename_i after hrecord
        exact hheld (Dial.recordChainFailure_candidates hrecord) (by rw [hprogress]; rfl)
  | planning =>
    dsimp only
    split
    · split <;> exact hidle rfl rfl
    · exact hidle rfl rfl
  | choosing =>
    dsimp only
    split
    · split
      · exact hidle rfl rfl
      · exact hidle rfl rfl
      · split <;> exact hidle rfl rfl
    · exact hidle rfl rfl
  | chaining pick =>
    dsimp only
    split
    · exact hidle rfl rfl
    · split
      · exact hidle rfl rfl
      · rename_i after hrecord
        exact hidle (Dial.recordChainFailure_candidates hrecord) rfl
  | filling =>
    have hfilled : cachedRoutes (dial.fillExits arith rng job.world job.request
        job.request.exitRotators).1.candidates = cachedRoutes job.dial.candidates := by
      rw [Dial.fillExits_cachedRoutes, hsame]
    dsimp only
    split
    · rename_i after _ hfill
      rw [hfill] at hfilled
      exact job.goTo_holds hfilled (List.nil_subset _)
    · rename_i after hfill
      rw [hfill] at hfilled
      refine job.goTo_holds hfilled fun held hmem => ?_
      rw [holds, ← hfilled]
      exact List.mem_append_right _ (cachedRoutes_take _ _ hmem)
  | racing candidates race => exact hheld rfl (by rw [hprogress])
  | unlinking group cached groups => exact hidle rfl rfl
  | linking pick => exact hidle rfl rfl
  | finished => exact hidle rfl rfl

theorem answered_holds (job : Job ρ) (group : ExitGroup) (groups : List RotatorId)
    (cached : ProxyConfig) {dial : Dial ρ} (hsame : dial.candidates = job.dial.candidates) :
    ∀ held ∈ (job.answered group groups cached dial).holds,
      held = (group.rotator, cached) ∨ held ∈ job.holds := by
  intro held hheld
  unfold answered at hheld
  split at hheld
  · simp only [holds, goTo, Progress.holds, List.nil_append, Dial.queueCached] at hheld
    split at hheld
    · exact .inr (List.mem_append_right _ (hsame ▸ hheld))
    · simp only [cachedRoutes, List.filter_append, List.map_append, List.mem_append] at hheld
      obtain hold | hnew := hheld
      · exact .inr (List.mem_append_right _ (hsame ▸ hold))
      · exact .inl (by simpa using hnew)
  · simp only [holds, goTo, Progress.holds, List.mem_append, List.mem_singleton] at hheld
    obtain hnew | hold := hheld
    · exact .inl hnew
    · exact .inr (List.mem_append_right _ (hsame ▸ hold))

theorem raceOn_holds (job : Job ρ) (now : Instant) (event : RaceEvent) :
    (job.raceOn now event).1.holds = job.holds := by
  unfold raceOn
  split
  · rename_i candidates race hprogress
    split
    · rfl
    · rw [holds, holds, hprogress]
      rfl
  · rfl

theorem start_holds (rotators : Rotators ρ) (request : Request) (world : World) :
    (Job.start rotators request world).holds = [] := by
  unfold holds Job.start
  dsimp only
  split <;> rfl

end Job

namespace Sharing

variable {ρ : Type u} {Key : Type} [LinearOrder Key] {arith : FloatArith} {rng : Rng ρ}
  {sharing : Sharing ρ Key} {act : Act ρ Key} {i : Nat} {job after : Job ρ}

theorem Goes.holds (hgoes : Goes arith rng sharing act i job after) :
    ∀ held ∈ after.holds,
      held ∈ job.holds ∨ sharing.reading arith rng act = some (i, held.1, held.2) := by
  intro held hheld
  have hsame : (sharing.awaited arith rng job).candidates = job.dial.candidates := rfl
  cases hgoes with
  | idle hactor => exact .inl hheld
  | missed hact hprogress => exact .inl (job.goTo_holds rfl (List.nil_subset _) hheld)
  | answered hact hprogress hreading =>
    obtain rfl | hold := job.answered_holds _ _ _ hsame held hheld
    · exact .inr hreading
    · exact .inl hold
  | advanced hact hjob => exact .inl (job.advance_holds hsame hheld)
  | raced hact hjob => exact .inl (job.raceOn_holds _ _ ▸ hheld)

theorem failedRoute_held {k : Nat} {attempted : Attempted} {held : RotatorId × ProxyConfig}
    (hattempted : job.attempted k = some attempted) (hfailed : attempted.failedRoute = some held) :
    held ∈ job.holds := by
  unfold Job.attempted at hattempted
  split at hattempted
  · rename_i candidates race hprogress
    split at hattempted
    · rename_i result candidate _ _ hcandidate
      obtain rfl := Option.some.inj hattempted
      unfold Attempted.failedRoute at hfailed
      split at hfailed
      · rename_i candidate' _ hsame
        obtain ⟨rfl, _⟩ := Prod.mk.inj hsame
        split at hfailed
        · rename_i hcached
          obtain rfl := Option.some.inj hfailed
          refine List.mem_append_left _ ?_
          rw [hprogress]
          exact mem_cachedRoutes (List.mem_of_getElem? hcandidate) hcached
        · cases hfailed
      · cases hfailed
    · cases hattempted
  · cases hattempted

end Sharing

end Resocks5.Server
