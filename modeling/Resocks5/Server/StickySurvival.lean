import Resocks5.Server.Fallback
import Resocks5.Server.StickySteps

namespace Resocks5.Server

open Resocks5.Chain
open Resocks5.Connect
open Resocks5.Foundation
open Resocks5.Rating
open Resocks5.Session
open Resocks5.Types

/-! Whose route it is that an unlinking removes. -/

namespace Sharing

variable {ρ : Type u} {Key : Type} [LinearOrder Key] (arith : FloatArith) (rng : Rng ρ)

def findings : Sharing ρ Key → List (Act ρ Key) → List (Nat × RotatorId × ProxyConfig)
  | _, [] => []
  | sharing, act :: acts =>
    (sharing.finding arith rng act).toList ++ findings (sharing.step arith rng act) acts

/-- The route of a rotator that a request has found stale or failing last. -/
def lastFound (sharing : Sharing ρ Key) (acts : List (Act ρ Key)) (i : Nat) (r : RotatorId) :
    Option ProxyConfig :=
  ((sharing.findings arith rng acts).filter fun found => found.1 = i ∧ found.2.1 = r).getLast?.map
    fun found => found.2.2

/-- If an entry goes, then by the cache's own rules, or the request whose step it is has found this
very route stale or failing. -/
def Loyal (sharing : Sharing ρ Key) (before : List (Act ρ Key)) (act : Act ρ Key) : Prop :=
  ∀ r present, (sharing.run arith rng before).entry r = some present →
    ((sharing.run arith rng before).step arith rng act).entry r = none →
      (sharing.run arith rng before).Dropped arith rng r act ∨
      ∃ i, act.actor = some i ∧ sharing.lastFound arith rng (before ++ [act]) i r = some present

/-- A request comes to give up the route that it has read, and since then another request has
linked another route, which still stands. -/
def Overtaken (sharing : Sharing ρ Key) (before : List (Act ρ Key)) (act : Act ρ Key) : Prop :=
  ∃ i r cached j other early read middle link late,
    (sharing.run arith rng before).writing act = some (i, .unlink r cached) ∧
    before = early ++ read :: (middle ++ link :: late) ∧
    (sharing.run arith rng early).reading arith rng read = some (i, r, cached) ∧
    (sharing.run arith rng (early ++ read :: middle)).writing link = some (j, .link r other) ∧
    j ≠ i ∧ other ≠ cached ∧
    ∀ front back, late = front ++ back →
      (sharing.run arith rng (early ++ read :: (middle ++ link :: front))).entry r = some other

section

variable {arith rng} {sharing : Sharing ρ Key}

theorem run_append (first second : List (Act ρ Key)) :
    sharing.run arith rng (first ++ second) =
      (sharing.run arith rng first).run arith rng second := List.foldl_append

theorem run_concat (acts : List (Act ρ Key)) (act : Act ρ Key) :
    sharing.run arith rng (acts ++ [act]) =
      (sharing.run arith rng acts).step arith rng act := by
  rw [run_append]
  rfl

theorem findings_concat (acts : List (Act ρ Key)) (act : Act ρ Key) :
    sharing.findings arith rng (acts ++ [act]) = sharing.findings arith rng acts ++
      ((sharing.run arith rng acts).finding arith rng act).toList := by
  induction acts generalizing sharing with
  | nil => exact List.append_nil _
  | cons first acts ih =>
    rw [List.cons_append, findings, findings, ih, List.append_assoc]
    rfl

theorem lastFound_concat {acts : List (Act ρ Key)} {act : Act ρ Key} {i : Nat} {r : RotatorId}
    {cached : ProxyConfig}
    (hfinding : (sharing.run arith rng acts).finding arith rng act = some (i, r, cached)) :
    sharing.lastFound arith rng (acts ++ [act]) i r = some cached := by
  rw [lastFound, findings_concat, hfinding, Option.toList_some, List.filter_append,
    List.filter_cons_of_pos (by simp), List.filter_nil, List.getLast?_concat]
  rfl

theorem lastFound_other {acts : List (Act ρ Key)} {act : Act ρ Key} {i : Nat} {r : RotatorId}
    (hother : ∀ cached,
      (sharing.run arith rng acts).finding arith rng act ≠ some (i, r, cached)) :
    sharing.lastFound arith rng (acts ++ [act]) i r = sharing.lastFound arith rng acts i r := by
  rw [lastFound, lastFound, findings_concat, List.filter_append]
  cases hfinding : (sharing.run arith rng acts).finding arith rng act with
  | none => rw [Option.toList_none, List.filter_nil, List.append_nil]
  | some found =>
    obtain ⟨j, r', cached⟩ := found
    rw [Option.toList_some, List.filter_cons_of_neg, List.filter_nil, List.append_nil]
    rw [decide_eq_true_eq]
    rintro ⟨rfl, rfl⟩
    exact hother cached hfinding

end

end Sharing

/-! What a whole run has done. -/

namespace Job

variable {ρ : Type u} {arith : FloatArith} {rng : Rng ρ}

theorem advance_unlinking {job : Job ρ} {dial : Dial ρ} {group : ExitGroup}
    {cached : ProxyConfig} {groups : List RotatorId}
    (hafter : (job.advance arith rng dial).1.progress = .unlinking group cached groups) :
    job.finding dial = some (group.rotator, cached) := by
  unfold advance at hafter
  unfold finding
  cases hprogress : job.progress with
  | checking group' cached' groups' =>
    rw [hprogress] at hafter
    dsimp only at hafter ⊢
    split at hafter
    · rename_i hstale
      cases hafter
      rw [hstale]
      rfl
    · split at hafter
      · cases hafter
      · split at hafter <;> cases hafter
  | dialing group' cached' pick groups' =>
    rw [hprogress] at hafter
    dsimp only at hafter ⊢
    split at hafter
    · cases hafter
    · rename_i hfailed
      split at hafter
      · cases hafter
      · cases hafter
        rw [hfailed]
  | sticky groups' =>
    rw [hprogress] at hafter
    cases groups' <;> cases hafter
  | planning =>
    rw [hprogress] at hafter
    dsimp only at hafter
    split at hafter
    · split at hafter <;> cases hafter
    · cases hafter
  | choosing =>
    rw [hprogress] at hafter
    dsimp only at hafter
    split at hafter
    · split at hafter
      · cases hafter
      · cases hafter
      · split at hafter <;> cases hafter
    · cases hafter
  | chaining pick =>
    rw [hprogress] at hafter
    dsimp only at hafter
    split at hafter
    · cases hafter
    · split at hafter <;> cases hafter
  | filling =>
    rw [hprogress] at hafter
    dsimp only at hafter
    split at hafter <;> cases hafter
  | unlinking group' cached' groups' =>
    rw [hprogress] at hafter
    cases hafter
  | linking pick =>
    rw [hprogress] at hafter
    cases hafter
  | racing candidates race =>
    rw [hprogress] at hafter
    cases hafter
  | finished =>
    rw [hprogress] at hafter
    cases hafter

theorem raceOn_unlinking {job : Job ρ} {now : Instant} {event : RaceEvent} {group : ExitGroup}
    {cached : ProxyConfig} {groups : List RotatorId}
    (hafter : (job.raceOn now event).1.progress = .unlinking group cached groups) :
    job.progress = .unlinking group cached groups := by
  unfold raceOn at hafter
  split at hafter
  · rename_i hprogress
    split at hafter
    · exact hafter
    · cases hafter
  · exact hafter

end Job

namespace Sharing

variable {ρ : Type u} {Key : Type} [LinearOrder Key] {arith : FloatArith} {rng : Rng ρ}

section

variable {sharing : Sharing ρ Key} {act : Act ρ Key} {i : Nat} {r : RotatorId}
  {cached : ProxyConfig}

theorem finding_actor {found : RotatorId × ProxyConfig}
    (hfinding : sharing.finding arith rng act = some (i, found)) : act.actor = some i := by
  unfold finding at hfinding
  split at hfinding
  · obtain ⟨_, _, hmap⟩ := Option.bind_eq_some_iff.mp hfinding
    obtain ⟨_, _, hsame⟩ := Option.map_eq_some_iff.mp hmap
    exact congrArg some (Prod.mk.inj hsame).1
  · obtain ⟨_, _, hmap⟩ := Option.bind_eq_some_iff.mp hfinding
    obtain ⟨_, _, hsame⟩ := Option.map_eq_some_iff.mp hmap
    exact congrArg some (Prod.mk.inj hsame).1
  · cases hfinding

theorem writing_cases {write : StickyWrite} (hwriting : sharing.writing act = some (i, write)) :
    ∃ job, sharing.jobs[i]? = some job ∧ ((act = .go i ∧ job.writing = some write) ∨
      ∃ now k attempted, act = .race i now (.joined k) ∧ job.attempted k = some attempted ∧
        attempted.write = some write) := by
  unfold writing at hwriting
  split at hwriting
  · obtain ⟨job, hjob, hmap⟩ := Option.bind_eq_some_iff.mp hwriting
    obtain ⟨_, hwrite, hsame⟩ := Option.map_eq_some_iff.mp hmap
    obtain ⟨rfl, rfl⟩ := Prod.mk.inj hsame
    exact ⟨job, hjob, .inl ⟨rfl, hwrite⟩⟩
  · obtain ⟨job, hjob, hmap⟩ := Option.bind_eq_some_iff.mp hwriting
    obtain ⟨_, hbind, hsame⟩ := Option.map_eq_some_iff.mp hmap
    obtain ⟨rfl, rfl⟩ := Prod.mk.inj hsame
    obtain ⟨attempted, hattempted, hwrite⟩ := Option.bind_eq_some_iff.mp hbind
    exact ⟨job, hjob, .inr ⟨_, _, attempted, rfl, hattempted, hwrite⟩⟩
  · cases hwriting

theorem writing_actor {write : StickyWrite} (hwriting : sharing.writing act = some (i, write)) :
    act.actor = some i := by
  obtain ⟨_, _, ⟨rfl, _⟩ | ⟨_, _, _, rfl, _⟩⟩ := writing_cases hwriting
  · rfl
  · rfl

theorem unlink_failedRoute {attempted : Attempted}
    (hwrite : attempted.write = some (.unlink r cached)) :
    attempted.failedRoute = some (r, cached) := by
  obtain ⟨candidate, result⟩ := attempted
  cases result with
  | ok _ =>
    unfold Attempted.write at hwrite
    dsimp only at hwrite
    split at hwrite <;> cases hwrite
  | error failure =>
    obtain ⟨held, hheld, hunlink⟩ := Option.map_eq_some_iff.mp hwrite
    obtain ⟨rfl, rfl⟩ := StickyWrite.unlink.inj hunlink
    exact hheld

theorem unlink_progress {job : Job ρ} (hwrite : job.writing = some (.unlink r cached)) :
    ∃ group groups, job.progress = .unlinking group cached groups ∧ group.rotator = r := by
  unfold Job.writing at hwrite
  split at hwrite
  · rename_i group _ groups hprogress
    obtain ⟨rfl, rfl⟩ := StickyWrite.unlink.inj (Option.some.inj hwrite)
    exact ⟨group, groups, hprogress, rfl⟩
  · obtain ⟨_, _, hlink⟩ := Option.map_eq_some_iff.mp hwrite
    cases hlink
  · cases hwrite

theorem unlink_held (hwriting : sharing.writing act = some (i, .unlink r cached)) :
    ∃ job, sharing.jobs[i]? = some job ∧ (r, cached) ∈ job.holds := by
  obtain ⟨job, hjob, ⟨_, hwrite⟩ | ⟨_, _, _, _, hattempted, hwrite⟩⟩ := writing_cases hwriting
  · obtain ⟨group, groups, hprogress, rfl⟩ := unlink_progress hwrite
    refine ⟨job, hjob, List.mem_append_left _ ?_⟩
    rw [hprogress]
    exact List.mem_cons_self
  · exact ⟨job, hjob, failedRoute_held hattempted (unlink_failedRoute hwrite)⟩

theorem writing_unspent {write : StickyWrite} (hwriting : sharing.writing act = some (i, write)) :
    ∃ job, sharing.jobs[i]? = some job ∧ ¬ job.Spent := by
  obtain ⟨job, hjob, ⟨_, hwrite⟩ | ⟨_, k, _, _, hattempted, _⟩⟩ := writing_cases hwriting
  · refine ⟨job, hjob, fun hspent => ?_⟩
    rw [hspent.writing] at hwrite
    cases hwrite
  · refine ⟨job, hjob, fun hspent => ?_⟩
    rw [hspent.attempted k] at hattempted
    cases hattempted

theorem Goes.spent {job after : Job ρ} (hgoes : Goes arith rng sharing act i job after)
    (hspent : job.Spent) : after.Spent := by
  cases hgoes with
  | idle hactor => exact hspent
  | missed hact hprogress =>
    obtain hended | ⟨_, _, hended, _⟩ := hspent <;> cases hprogress.symm.trans hended
  | answered hact hprogress hreading =>
    obtain hended | ⟨_, _, hended, _⟩ := hspent <;> cases hprogress.symm.trans hended
  | advanced hact hjob => exact hspent.advance _
  | raced hact hjob => exact hspent.raceOn _ _

/-- The requests under `i` are done for good. -/
def SpentAt (sharing : Sharing ρ Key) (i : Nat) : Prop :=
  ∀ job, sharing.jobs[i]? = some job → job.Spent

theorem SpentAt.run (hspent : sharing.SpentAt i) (acts : List (Act ρ Key)) :
    (sharing.run arith rng acts).SpentAt i := by
  induction acts generalizing sharing with
  | nil => exact hspent
  | cons act acts ih =>
    refine ih fun after hafter => ?_
    obtain ⟨job, hjob, hgoes⟩ := step_goes hafter
    exact hgoes.spent (hspent job hjob)

theorem linked_spent {proxy : ProxyConfig}
    (hwriting : sharing.writing act = some (i, .link r proxy)) :
    (sharing.step arith rng act).SpentAt i := by
  intro after hafter
  obtain ⟨job, hjob, hgoes⟩ := step_goes hafter
  obtain ⟨job', hjob', hcase⟩ := writing_cases hwriting
  obtain rfl := Option.some.inj (hjob.symm.trans hjob')
  obtain ⟨rfl, hwrite⟩ | ⟨now, k, attempted, rfl, hattempted, hwrite⟩ := hcase
  · have hprogress : ∃ pick, job.progress = .linking pick := by
      unfold Job.writing at hwrite
      split at hwrite
      · cases hwrite
      · exact ⟨_, ‹_›⟩
      · cases hwrite
    obtain ⟨pick, hlinking⟩ := hprogress
    cases hgoes with
    | idle hactor => exact absurd rfl hactor
    | missed _ hsticky => cases hlinking.symm.trans hsticky
    | answered _ hsticky _ => cases hlinking.symm.trans hsticky
    | advanced _ _ =>
      rw [Job.advance, hlinking]
      exact .inl rfl
    | raced hact _ => cases hact
  · cases hgoes with
    | idle hactor => exact absurd rfl hactor
    | missed hact _ => cases hact
    | answered hact _ _ => cases hact
    | advanced hact _ => cases hact
    | raced hact _ =>
      cases hact
      exact Job.raceOn_linked hattempted hwrite

theorem step_unlink (hwriting : sharing.writing act = some (i, .unlink r cached)) :
    (sharing.step arith rng act).entry r = none := by
  obtain ⟨job, hjob, ⟨rfl, hwrite⟩ | ⟨now, k, attempted, rfl, hattempted, hwrite⟩⟩ :=
    writing_cases hwriting
  · obtain ⟨group, groups, hprogress, rfl⟩ := unlink_progress hwrite
    have hunlink : (job.advance arith rng (sharing.awaited arith rng job)).2 =
        some (.unlink group.rotator cached) := (advance_write job _).trans hwrite
    rw [step, hjob]
    dsimp only
    rw [go, hprogress]
    dsimp only
    rw [hunlink]
    exact entry_unlink _ _ _ _
  · obtain ⟨k', attempted', heard, hevent, hattempted', hheard, hreport⟩ | ⟨hquiet, _⟩ :=
      job.raceOn_heard now (.joined k)
    · cases hevent
      obtain rfl := Option.some.inj (hattempted.symm.trans hattempted')
      rw [step, hjob]
      dsimp only
      rw [hheard, List.foldl_cons, List.foldl_nil, report, hreport, hwrite]
      exact entry_unlink
        { sharing with jobs := sharing.jobs.set i (job.raceOn now (.joined k)).1 } now r cached
    · cases hattempted.symm.trans (hquiet k rfl)

theorem Dropped.unlinks_not (hdropped : sharing.Dropped arith rng r act) {write : StickyWrite} :
    sharing.writing act ≠ some (i, write) := by
  intro hwriting
  cases hdropped with
  | expired hjob hprogress hentry hexpired =>
    rw [writing, hjob, Option.bind_some, Job.writing, hprogress] at hwriting
    cases hwriting
  | elsewhere hother => cases hwriting

theorem reading_entry (hreading : sharing.reading arith rng act = some (i, r, cached)) :
    (sharing.step arith rng act).entry r = some cached := by
  unfold reading at hreading
  split at hreading
  · rename_i j
    obtain ⟨job, hjob, hread⟩ := Option.bind_eq_some_iff.mp hreading
    split at hread
    · rename_i r' groups hprogress
      obtain ⟨proxy, hlinked, hsame⟩ := Option.map_eq_some_iff.mp hread
      cases hsame
      have hgot := (Option.filter_eq_some_iff.mp hlinked).1
      have hstep : (sharing.step arith rng (.go i)).entry r =
          (sharing.read i job (sharing.awaited arith rng job) r groups).entry r := by
        rw [step, hjob]
        dsimp only
        rw [go, hprogress]
      rw [hstep, read_entry, entry_setCache]
      obtain ⟨hkept, hfound⟩ | ⟨_, _, _, hnone, _⟩ := get_lookup (sharing.caches r)
        sharing.target (job.world.clock (sharing.awaited arith rng job).turn 0)
      · rw [hkept]
        exact hfound cached hgot
      · cases hnone.symm.trans hgot
    · cases hread
  · cases hreading

/-- A route that is there now and was not there before has been linked, and stands since. -/
theorem last_link {present : ProxyConfig} (acts : List (Act ρ Key))
    (hbefore : sharing.entry r ≠ some present)
    (hafter : (sharing.run arith rng acts).entry r = some present) :
    ∃ middle link late j, acts = middle ++ link :: late ∧
      (sharing.run arith rng middle).writing link = some (j, .link r present) ∧
      ∀ front back, late = front ++ back →
        (sharing.run arith rng (middle ++ link :: front)).entry r = some present := by
  induction acts using List.reverseRecOn with
  | nil => exact absurd hafter hbefore
  | append_singleton acts act ih =>
    by_cases hstands : (sharing.run arith rng acts).entry r = some present
    · obtain ⟨middle, link, late, j, rfl, hlink, hsince⟩ := ih hstands
      refine ⟨middle, link, late ++ [act], j, by simp, hlink, fun front back hsplit => ?_⟩
      obtain hnil | ⟨back, rfl⟩ : back = [] ∨ ∃ more, back = more ++ [act] := by
        cases back using List.reverseRecOn with
        | nil => exact .inl rfl
        | append_singleton back last _ =>
          rw [← List.append_assoc] at hsplit
          exact .inr ⟨back, by rw [(List.append_inj_right' hsplit rfl)]⟩
      · rw [hnil, List.append_nil] at hsplit
        subst hsplit
        rw [← List.cons_append, ← List.append_assoc]
        exact hafter
      · rw [← List.append_assoc] at hsplit
        exact hsince front back (List.append_inj_left' hsplit rfl)
    · rw [run_concat] at hafter
      obtain hold | ⟨j, hlink⟩ := (step_becomes _ act r).appears hafter
      · exact absurd hold hstands
      · refine ⟨acts, act, [], j, rfl, hlink, fun front back hsplit => ?_⟩
        obtain ⟨rfl, _⟩ := List.append_eq_nil_iff.mp hsplit.symm
        rw [run_concat]
        exact hafter

end

section

variable (target : Key) (rotators : Rotators ρ) (caches : RotatorId → StickyCache Key ProxyConfig)
  (requests : List (Request × World))

theorem run_held {acts : List (Act ρ Key)} {i : Nat} {job : Job ρ}
    (hjob : ((start target rotators caches requests).run arith rng acts).jobs[i]? = some job)
    {held : RotatorId × ProxyConfig} (hheld : held ∈ job.holds) :
    ∃ early read rest, acts = early ++ read :: rest ∧
      ((start target rotators caches requests).run arith rng early).reading arith rng read =
        some (i, held.1, held.2) := by
  induction acts using List.reverseRecOn generalizing job with
  | nil =>
    obtain ⟨_, _, rfl⟩ := Option.map_eq_some_iff.mp ((List.getElem?_map ..).symm.trans hjob)
    rw [Job.start_holds] at hheld
    cases hheld
  | append_singleton acts act ih =>
    rw [run_concat] at hjob
    obtain ⟨before, hbefore, hgoes⟩ := step_goes hjob
    obtain hold | hread := hgoes.holds held hheld
    · obtain ⟨early, read, rest, rfl, hreading⟩ := ih hbefore hold
      exact ⟨early, read, rest ++ [act], by simp, hreading⟩
    · exact ⟨acts, act, [], rfl, hread⟩

theorem run_unlinking {acts : List (Act ρ Key)} {i : Nat} {job : Job ρ} {group : ExitGroup}
    {cached : ProxyConfig} {groups : List RotatorId}
    (hjob : ((start target rotators caches requests).run arith rng acts).jobs[i]? = some job)
    (hprogress : job.progress = .unlinking group cached groups) :
    (start target rotators caches requests).lastFound arith rng acts i group.rotator =
      some cached := by
  induction acts using List.reverseRecOn generalizing job with
  | nil =>
    obtain ⟨_, _, rfl⟩ := Option.map_eq_some_iff.mp ((List.getElem?_map ..).symm.trans hjob)
    unfold Job.start at hprogress
    dsimp only at hprogress
    split at hprogress <;> cases hprogress
  | append_singleton acts act ih =>
    rw [run_concat] at hjob
    obtain ⟨before, hbefore, hgoes⟩ := step_goes hjob
    cases hgoes with
    | idle hactor =>
      rw [lastFound_other fun _ hfinding => hactor (finding_actor hfinding)]
      exact ih hbefore hprogress
    | missed _ _ => cases hprogress
    | answered _ _ _ =>
      unfold Job.answered at hprogress
      split at hprogress <;> cases hprogress
    | advanced hact _ =>
      subst hact
      refine lastFound_concat ?_
      rw [finding, hbefore, Option.bind_some, Job.advance_unlinking hprogress]
      rfl
    | raced hact _ =>
      subst hact
      have hunlinking := Job.raceOn_unlinking hprogress
      rw [lastFound_other fun cached' hfinding => ?_]
      · exact ih hbefore hunlinking
      · unfold finding at hfinding
        split at hfinding
        · rename_i hact
          cases hact
        · rename_i hact
          cases hact
          rw [hbefore, Option.bind_some, Job.attempted, hunlinking] at hfinding
          cases hfinding
        · cases hfinding

theorem unlink_found {acts : List (Act ρ Key)} {act : Act ρ Key} {i : Nat} {r : RotatorId}
    {cached : ProxyConfig}
    (hwriting : ((start target rotators caches requests).run arith rng acts).writing act =
      some (i, .unlink r cached)) :
    (start target rotators caches requests).lastFound arith rng (acts ++ [act]) i r =
      some cached := by
  obtain ⟨job, hjob, ⟨rfl, hwrite⟩ | ⟨now, k, attempted, rfl, hattempted, hwrite⟩⟩ :=
    writing_cases hwriting
  · obtain ⟨group, groups, hprogress, rfl⟩ := unlink_progress hwrite
    rw [lastFound_other fun cached' hfinding => ?_]
    · exact run_unlinking target rotators caches requests hjob hprogress
    · rw [finding, hjob, Option.bind_some, Job.finding, hprogress] at hfinding
      cases hfinding
  · refine lastFound_concat ?_
    rw [finding, hjob, Option.bind_some, hattempted, Option.bind_some, unlink_failedRoute hwrite]
    rfl

theorem loyal_iff (before : List (Act ρ Key)) (act : Act ρ Key) :
    (start target rotators caches requests).Loyal arith rng before act ↔
      ¬ (start target rotators caches requests).Overtaken arith rng before act := by
  constructor
  · rintro hloyal ⟨i, r, cached, j, other, early, read, middle, link, late, hwriting, hsplit, _, _,
      _, hne, hsince⟩
    have hstands := hsince late [] (List.append_nil late).symm
    rw [← hsplit] at hstands
    obtain hdropped | ⟨i', hactor, hfound⟩ := hloyal r other hstands (step_unlink hwriting)
    · exact hdropped.unlinks_not hwriting
    · obtain rfl := Option.some.inj (hactor.symm.trans (writing_actor hwriting))
      rw [unlink_found target rotators caches requests hwriting] at hfound
      exact hne (Option.some.inj hfound).symm
  · intro hnever r present hpresent hgone
    obtain hnone | hdropped | ⟨i, cached, hwriting⟩ := (step_becomes _ act r).vanishes hgone
    · rw [hpresent] at hnone
      cases hnone
    · exact .inl hdropped
    · refine .inr ⟨i, writing_actor hwriting, ?_⟩
      rw [unlink_found target rotators caches requests hwriting]
      by_contra hne
      obtain ⟨job, hjob, hheld⟩ := unlink_held hwriting
      obtain ⟨early, read, rest, rfl, hreading⟩ :=
        run_held target rotators caches requests hjob hheld
      rw [run_append] at hpresent
      obtain ⟨middle, link, late, j, rfl, hlink, hsince⟩ := last_link rest
        (fun hsame => hne ((reading_entry hreading).symm.trans hsame)) hpresent
      refine hnever ⟨i, r, cached, j, present, early, read, middle, link, late, hwriting, rfl,
        hreading, ?_, ?_, fun hsame => hne (congrArg some hsame.symm), fun front back hsplit => ?_⟩
      · rw [run_append]
        exact hlink
      · rintro rfl
        obtain ⟨job, hjob, hunspent⟩ := writing_unspent hwriting
        have hspent : ((start target rotators caches requests).run arith rng
            (early ++ read :: (middle ++ link :: late))).SpentAt j := by
          rw [run_append, ← List.cons_append, run_append]
          exact (linked_spent hlink).run late
        exact hunspent (hspent job hjob)
      · rw [run_append]
        exact hsince front back hsplit

end

/-- However requests for a target are interleaved, an entry goes only by the cache's own rules or
by a request that has found that very route stale or failing, exactly if no request gives up its
route after it was overtaken. -/
theorem sticky_survival (arith : FloatArith) (rng : Rng ρ) (target : Key) (rotators : Rotators ρ)
    (caches : RotatorId → StickyCache Key ProxyConfig) (requests : List (Request × World))
    (acts : List (Act ρ Key)) :
    (∀ before act after, acts = before ++ act :: after →
      (start target rotators caches requests).Loyal arith rng before act) ↔
    ∀ before act after, acts = before ++ act :: after →
      ¬ (start target rotators caches requests).Overtaken arith rng before act := by
  refine forall_congr' fun before => forall_congr' fun act => forall_congr' fun after => ?_
  exact imp_congr_right fun _ => loyal_iff target rotators caches requests before act

def sampleDirect : Request where
  targetAddr := lit "example.org:443"
  banned := false
  gates := GateLevels.new []
  v6 := none
  v4 := some ⟨2, none⟩
  maxUpstreamAttempts := 2
  hedgeDelay := 0
  tlsConnector := false

def sampleDown : ConnectError := .io .connect none

def sampleActs : List (Act UInt64 Nat) :=
  [.go 0, .go 0, .go 0, .go 0, .go 1, .go 1, .go 1, .go 1,
    .race 1 5 (.acquired 0 (.error sampleDown)), .race 1 5 (.joined 0),
    .race 1 6 (.acquired 1 (.ok ())), .race 1 6 (.admitted 1), .race 1 6 (.shaken 1 (.ok ())),
    .race 1 6 (.joined 1),
    .race 0 7 (.acquired 0 (.error sampleDown)), .race 0 7 (.joined 0)]

theorem sticky_survival_wiped : ¬ ∀ (caches : RotatorId → StickyCache Nat ProxyConfig)
    (requests : List (Request × World)) (acts : List (Act UInt64 Nat)) before act after,
    acts = before ++ act :: after →
      (start 0 sampleGroups caches requests).Loyal Ratings.exactArith smallRng before act := by
  intro hloyal
  obtain hdropped | ⟨i, hactor, hfound⟩ := hloyal
    (fun _ => (StickyCache.new 8 100).insert 0 (sampleNode 3 0) 0)
    [(sampleDirect, sampleWorld), (sampleDirect, sampleWorld)] sampleActs sampleActs.dropLast
    (.race 0 7 (.joined 0)) [] rfl 2 (sampleNode 4 0) (by decide +kernel) (by decide +kernel)
  · cases hdropped
  · obtain rfl := Option.some.inj hactor
    revert hfound
    decide +kernel

end Sharing

end Resocks5.Server
