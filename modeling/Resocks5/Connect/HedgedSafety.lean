import Resocks5.Connect.HedgedAdmission

namespace Resocks5.Connect

open Resocks5.Foundation
open Resocks5.Types

/-! Whoever completes is reported, once and as what it is. -/

structure Reported (taken : List Nat) (race : Race) : Prop where
  indices : race.reports.map (·.index) = taken
  joined : ∀ i, race.phase? i = some .joined ↔ i ∈ taken
  once : taken.Nodup
  proxy : ∀ report ∈ race.reports,
    (race.launched.map (·.proxy))[report.index]? = some report.proxy
  late : ∀ report ∈ race.reports, report.outcome ≠ .lateSuccess
  failed : race.won = false → ∀ report ∈ race.reports, ∃ error, report.outcome = .failed error
  wins : race.wins = race.winner.toList

namespace Reported

variable {taken : List Nat} {race after : Race} {i : Nat}

theorem blank (hlaunched : race.launched = []) (hreports : race.reports = [])
    (hended : race.ended = none) : Reported [] race := by
  have hphase (i : Nat) : race.phase? i = none := by rw [Race.phase?, hlaunched]; rfl
  have hnone {report : AttemptReport} : report ∉ race.reports := by
    rw [hreports]
    exact List.not_mem_nil
  refine ⟨by rw [hreports]; rfl, fun i => ?_, List.nodup_nil, ?_, ?_, fun _ => ?_, ?_⟩
  · rw [hphase]
    refine ⟨?_, by rintro ⟨⟩⟩
    rintro ⟨⟩
  · exact fun report hmem => absurd hmem hnone
  · exact fun report hmem => absurd hmem hnone
  · exact fun report hmem => absurd hmem hnone
  · rw [Race.wins, Race.winner, hreports, hended]
    rfl

theorem aside (hreported : Reported taken race) (phase : Phase)
    (hold : race.phase? i ≠ some .joined) (hnew : phase ≠ .joined)
    (hphase : ∀ j, after.phase? j = if j = i then some phase else race.phase? j)
    (hproxies : ∀ (j : Nat) proxy, (race.launched.map (·.proxy))[j]? = some proxy →
      (after.launched.map (·.proxy))[j]? = some proxy)
    (hreports : after.reports = race.reports) (hwon : after.won = false → race.won = false)
    (hended : after.ended = race.ended) : Reported taken after := by
  refine ⟨by rw [hreports]; exact hreported.indices, fun j => ?_, hreported.once, ?_, ?_,
    fun hunwon => ?_, ?_⟩
  · rw [hphase, ← hreported.joined]
    by_cases hji : j = i
    · subst hji
      rw [if_pos rfl]
      exact ⟨fun h => absurd (Option.some.inj h) hnew, fun h => absurd h hold⟩
    · rw [if_neg hji]
  · rw [hreports]
    exact fun report hmem => hproxies _ _ (hreported.proxy report hmem)
  · rw [hreports]
    exact hreported.late
  · rw [hreports]
    exact hreported.failed (hwon hunwon)
  · have hwins := hreported.wins
    rw [Race.wins, Race.winner] at hwins ⊢
    rw [hreports, hended]
    exact hwins

theorem take (hreported : Reported taken race) {report : AttemptReport}
    (hold : race.phase? i ≠ some .joined)
    (hphase : ∀ j, after.phase? j = if j = i then some .joined else race.phase? j)
    (hproxies : after.launched.map (·.proxy) = race.launched.map (·.proxy))
    (hindex : report.index = i)
    (hproxy : (race.launched.map (·.proxy))[i]? = some report.proxy)
    (hreports : after.reports = race.reports ++ [report]) (hlate : report.outcome ≠ .lateSuccess)
    (hwon : after.won = false → race.won = false ∧ ∃ error, report.outcome = .failed error)
    (hwins : report.outcome = .won ∧ race.winner = none ∧ after.winner = some i ∨
      report.outcome ≠ .won ∧ after.winner = race.winner) :
    Reported (taken ++ [i]) after := by
  refine ⟨?_, fun j => ?_, ?_, ?_, ?_, fun hunwon => ?_, ?_⟩
  · rw [hreports, List.map_append, hreported.indices, List.map_singleton, hindex]
  · rw [hphase, List.mem_append, List.mem_singleton, ← hreported.joined]
    by_cases hji : j = i
    · rw [if_pos hji]
      exact ⟨fun _ => .inr hji, fun _ => rfl⟩
    · rw [if_neg hji]
      exact ⟨.inl, fun h => h.resolve_right hji⟩
  · refine List.nodup_append.mpr ⟨hreported.once, List.pairwise_singleton _ i,
      fun j hj k hk hjk => hold ?_⟩
    rw [hreported.joined, ← List.mem_singleton.mp hk, ← hjk]
    exact hj
  · rw [hreports, hproxies]
    intro other hmem
    obtain hmem | hmem := List.mem_append.mp hmem
    · exact hreported.proxy other hmem
    · rw [List.mem_singleton.mp hmem, hindex]
      exact hproxy
  · rw [hreports]
    intro other hmem
    obtain hmem | hmem := List.mem_append.mp hmem
    · exact hreported.late other hmem
    · rw [List.mem_singleton.mp hmem]
      exact hlate
  · obtain ⟨hwas, hfailed⟩ := hwon hunwon
    rw [hreports]
    intro other hmem
    obtain hmem | hmem := List.mem_append.mp hmem
    · exact hreported.failed hwas other hmem
    · rw [List.mem_singleton.mp hmem]
      exact hfailed
  · have hbefore := hreported.wins
    rw [Race.wins] at hbefore ⊢
    rw [hreports, List.filter_append, List.map_append, hbefore]
    obtain ⟨houtcome, hnone, hsome⟩ | ⟨houtcome, hsame⟩ := hwins
    · rw [hnone, hsome]
      simp [houtcome, hindex]
    · rw [hsame]
      simp [houtcome]

theorem launch (hreported : Reported taken race) (proxy : ProxyConfig)
    (rest : List ProxyConfig) : Reported taken (race.launch proxy rest) := by
  refine hreported.aside (i := race.launched.length) .acquiring
    (by rw [race.phase?_length]; nofun) nofun (race.phase?_launch proxy rest)
    (fun j other hother => ?_) rfl id rfl
  simp only [Race.launch, List.map_append]
  rw [List.getElem?_append_left (List.getElem?_eq_some_iff.mp hother).1]
  exact hother

theorem refill (hreported : Reported taken race) (hended : race.ended = none)
    (hedgeDelay : Duration) (now : Instant) : Reported taken (race.refill hedgeDelay now) := by
  unfold Race.refill
  split
  · split
    · refine ⟨hreported.indices, hreported.joined, hreported.once, hreported.proxy,
        hreported.late, hreported.failed, ?_⟩
      have hwins := hreported.wins
      rw [Race.wins, Race.winner, hended] at hwins
      exact hwins
    · rename_i proxy rest hpending
      obtain ⟨hindices, hjoined, honce, hproxy, hlate, hfailed, hwins⟩ :=
        hreported.launch proxy rest
      exact ⟨hindices, hjoined, honce, hproxy, hlate, hfailed, hwins⟩
  · exact hreported

end Reported

/-! The invariant of a race, over every event. -/

def Phase.isShort : Phase → Bool
  | .settled (.ok ()) | .joined => false
  | _ => true

theorem Phase.ne_ok {phase : Phase} (hshort : phase.isShort = true) :
    phase ≠ .settled (.ok ()) := by
  rintro rfl
  cases hshort

theorem Phase.ne_joined {phase : Phase} (hshort : phase.isShort = true) :
    phase ≠ .joined := by
  rintro rfl
  cases hshort

structure Sound (past : List RaceEvent) (race : Race) : Prop where
  line : Line race
  tunnelled : Tunnelled (tunnels past) race
  reported : Reported (joins past) race
  busy : race.ended = none → ∃ i phase, race.phase? i = some phase ∧ phase ≠ .joined

theorem tunnels_concat (past : List RaceEvent) (event : RaceEvent) :
    tunnels (past ++ [event]) = tunnels past ++ event.tunnel?.toList := by
  rw [tunnels, List.filterMap_append, tunnels]
  cases htunnel : event.tunnel? <;> simp [htunnel]

theorem joins_concat (past : List RaceEvent) (event : RaceEvent) :
    joins (past ++ [event]) = joins past ++ event.join?.toList := by
  rw [joins, List.filterMap_append, joins]
  cases hjoin : event.join? <;> simp [hjoin]

namespace Sound

variable {past : List RaceEvent} {race : Race} {i : Nat}

theorem refill (hline : Line race) (htunnelled : Tunnelled (tunnels past) race)
    (hreported : Reported (joins past) race) (hended : race.ended = none)
    (hedgeDelay : Duration) (now : Instant) : Sound past (race.refill hedgeDelay now) := by
  refine ⟨hline.refill hedgeDelay now, htunnelled.refill hended hedgeDelay now,
    hreported.refill hended hedgeDelay now, ?_⟩
  unfold Race.refill
  split
  · split
    · nofun
    · rename_i proxy rest hpending
      refine fun _ => ⟨race.launched.length, .acquiring, ?_, nofun⟩
      exact (race.phase?_launch proxy rest _).trans (if_pos rfl)
  · rename_i hall
    exact fun _ => Race.some_busy hall

theorem start (hedgeDelay : Duration) (now : Instant) (candidates : List ProxyConfig) :
    Sound [] (Race.start hedgeDelay now candidates) := by
  refine refill ?_ ?_ ?_ ?_ hedgeDelay now
  · exact Line.blank rfl rfl rfl
  · exact Tunnelled.blank rfl rfl rfl
  · exact Reported.blank rfl rfl rfl
  · rfl

theorem quiet (hsound : Sound past race) {event : RaceEvent} (htunnel : event.tunnel? = none)
    (hjoin : event.join? = none) : Sound (past ++ [event]) race := by
  refine ⟨hsound.line, ?_, ?_, hsound.busy⟩
  · rw [tunnels_concat, htunnel, Option.toList_none, List.append_nil]
    exact hsound.tunnelled
  · rw [joins_concat, hjoin, Option.toList_none, List.append_nil]
    exact hsound.reported

theorem move (hsound : Sound past race) {old : Phase} (phase : Phase) {after : Race}
    (hold : race.phase? i = some old) (hshort : old.isShort = true)
    (hnew : phase.isShort = true) (hhandshaking : phase = .handshaking → race.won = false)
    (hlost : phase = .settled (.error .lost) → race.won = true) (hline : Line after)
    (hlaunched : after.launched = (race.setPhase i phase).launched)
    (hwon : after.won = race.won) (hended : after.ended = race.ended)
    (hreports : after.reports = race.reports) : Sound past after := by
  have hphase (j : Nat) : after.phase? j = if j = i then some phase else race.phase? j := by
    rw [← Race.phase?_setPhase hold, Race.phase?, hlaunched, Race.phase?]
  have hneutral : race.phase? i ≠ some (.settled (.ok ())) := fun h =>
    Phase.ne_ok hshort (Option.some.inj (hold.symm.trans h))
  have hrunning : race.phase? i ≠ some .joined := fun h =>
    Phase.ne_joined hshort (Option.some.inj (hold.symm.trans h))
  refine ⟨hline, ?_, ?_, fun _ => ⟨i, phase, (hphase i).trans (if_pos rfl), Phase.ne_joined hnew⟩⟩
  · exact hsound.tunnelled.aside phase hneutral hrunning (Phase.ne_ok hnew) hhandshaking hlost
      (hsound.tunnelled.running hold (Phase.ne_joined hshort)) hphase hwon hended
  · refine hsound.reported.aside phase hrunning (Phase.ne_joined hnew) hphase (fun j proxy hproxy => ?_)
      hreports (fun h => hwon ▸ h) hended
    rw [hlaunched, Race.setPhase_proxies]
    exact hproxy

theorem acquired (hsound : Sound past race) (hphase : race.phase? i = some .acquiring)
    (result : Except ConnectError Unit) : Sound past (race.acquired i result) := by
  have hout : ∀ old, race.phase? i = some old → old.inLine = false := fun old hold => by
    cases hphase.symm.trans hold
    rfl
  unfold Race.acquired
  split
  · rename_i error
    exact hsound.move (.settled (.error (.failed error))) hphase rfl rfl nofun nofun
      (hsound.line.aside hout rfl (Race.phase?_setPhase hphase _) rfl rfl)
      rfl rfl rfl rfl
  · split
    · rename_i hwon
      exact hsound.move (.settled (.error .lost)) hphase rfl rfl nofun
        (fun _ => hwon) (hsound.line.aside hout rfl (Race.phase?_setPhase hphase _) rfl rfl)
        rfl rfl rfl rfl
    · split
      · rename_i hslot
        refine hsound.move .waiting hphase rfl rfl nofun nofun ?_ rfl rfl rfl rfl
        refine hsound.line.enter hphase rfl (Race.phase?_setPhase hphase _) ?_ nofun ?_
        · have hqueue := hsound.line.idle hslot
          rw [Race.line, Race.line, hslot, hqueue]
          exact congrArg ([i] ++ ·) hqueue
        · rw [hslot]
          rintro holder ⟨⟩
      · rename_i holder hslot
        refine hsound.move .waiting hphase rfl rfl nofun nofun ?_ rfl rfl rfl rfl
        refine hsound.line.enter hphase rfl (Race.phase?_setPhase hphase _) ?_ ?_ fun _ => id
        · exact (List.append_assoc _ _ _).symm
        · intro hnone
          cases hslot.symm.trans hnone

theorem admitted (hsound : Sound past race) (hphase : race.phase? i = some .waiting)
    (hslot : race.slot = some i) : Sound past (race.admitted i) := by
  unfold Race.admitted
  split
  · rename_i hwon
    exact hsound.move (.settled (.error .lost)) hphase rfl rfl nofun
      (fun _ => hwon) (hsound.line.leave hslot rfl (Race.phase?_setPhase hphase _) rfl rfl)
      rfl rfl rfl rfl
  · rename_i hwon
    exact hsound.move .handshaking hphase rfl rfl
      (fun _ => Bool.eq_false_iff.mpr hwon) nofun (hsound.line.shake hphase rfl hslot)
      rfl rfl rfl rfl

theorem shaken (hsound : Sound past race) (hphase : race.phase? i = some .handshaking)
    (result : Except ConnectError Unit) :
    Sound (past ++ [.shaken i result]) (race.shaken i result) := by
  have hslot := hsound.line.holder i hphase
  cases result with
  | error error =>
      refine quiet ?_ rfl rfl
      exact hsound.move (.settled (.error (.failed error))) hphase rfl rfl nofun
        nofun (hsound.line.leave hslot rfl (Race.phase?_setPhase hphase _) rfl rfl)
        rfl rfl rfl rfl
  | ok done =>
      have hafter := Race.phase?_setPhase hphase (.settled (.ok ()))
      have hunwon := hsound.tunnelled.handshaking i hphase
      refine ⟨hsound.line.leave hslot rfl hafter rfl rfl, ?_, ?_, fun _ =>
        ⟨i, .settled (.ok ()), (hafter i).trans (if_pos rfl), nofun⟩⟩
      · rw [tunnels_concat]
        refine hsound.tunnelled.succeed hphase (fun j hj => ?_) hafter rfl rfl
        cases hslot.symm.trans (hsound.line.holder j hj)
        rfl
      · rw [joins_concat]
        refine (List.append_nil (joins past)).symm ▸ hsound.reported.aside (i := i)
          (.settled (.ok ())) (by rw [hphase]; nofun) nofun hafter
          (fun j proxy hproxy => ?_) rfl nofun rfl
        rw [← Race.setPhase_proxies race i (.settled (.ok ()))] at hproxy
        exact hproxy

theorem taken (hsound : Sound past race) {failure : AttemptFailure} (after : Race)
    {outcome : AttemptOutcome} {afterWin : Bool}
    (hold : race.phase? i = some (.settled (.error failure)))
    (hlaunched : after.launched = (race.setPhase i .joined).launched)
    (hslot : after.slot = race.slot) (hqueue : after.queue = race.queue)
    (hwon : after.won = race.won) (hended : after.ended = race.ended)
    (hreports : after.reports = ((race.setPhase i .joined).report i outcome afterWin).reports)
    (houtcome : failure = .lost ∧ outcome = .lost ∨
      ∃ error, failure = .failed error ∧ outcome = .failed error) :
    Line after ∧ Tunnelled (tunnels (past ++ [.joined i])) after ∧
      Reported (joins (past ++ [.joined i])) after := by
  have hphase (j : Nat) : after.phase? j = if j = i then some .joined else race.phase? j := by
    rw [← Race.phase?_setPhase hold, Race.phase?, hlaunched, Race.phase?]
  obtain ⟨proxy, hproxy, hreport⟩ := Race.report_joined hold outcome afterWin
  refine ⟨?_, ?_, ?_⟩
  · refine hsound.line.aside (fun old hphase' => ?_) rfl hphase hslot hqueue
    cases hold.symm.trans hphase'
    rfl
  · rw [tunnels_concat]
    refine (List.append_nil (tunnels past)).symm ▸ hsound.tunnelled.aside (i := i)
      .joined (by rw [hold]; rintro ⟨⟩) (by rw [hold]; rintro ⟨⟩) (fun hsame => by cases hsame) (fun hsame => by cases hsame)
      (fun hsame => by cases hsame) (hsound.tunnelled.running hold (fun hsame => by cases hsame)) hphase hwon hended
  · rw [joins_concat]
    refine hsound.reported.take (by rw [hold]; rintro ⟨⟩) hphase ?_ rfl hproxy
      (hreports.trans hreport) ?_ (fun hunwon => ?_) ?_
    · rw [hlaunched, Race.setPhase_proxies]
    · obtain ⟨_, rfl⟩ | ⟨error, _, rfl⟩ := houtcome
      · rintro ⟨⟩
      · rintro ⟨⟩
    · rw [hwon] at hunwon
      refine ⟨hunwon, ?_⟩
      obtain ⟨rfl, _⟩ | ⟨error, _, houtcome⟩ := houtcome
      · cases hunwon.symm.trans (hsound.tunnelled.lost i hold)
      · exact ⟨error, houtcome⟩
    · refine .inr ⟨?_, by rw [Race.winner, hended, Race.winner]⟩
      obtain ⟨_, rfl⟩ | ⟨error, _, rfl⟩ := houtcome
      · rintro ⟨⟩
      · rintro ⟨⟩

theorem joined (hsound : Sound past race) {result : Except AttemptFailure Unit}
    (hphase : race.phase? i = some (.settled result)) (hended : race.ended = none)
    (hedgeDelay : Duration) (now : Instant) :
    Sound (past ++ [.joined i]) (Race.joined hedgeDelay now race i result) := by
  cases result with
  | ok done =>
      have hafter := Race.phase?_setPhase hphase .joined
      obtain ⟨proxy, hproxy, hreport⟩ := Race.report_joined hphase .won false
      refine ⟨?_, ?_, ?_, nofun⟩
      · refine hsound.line.aside (fun old hold => ?_) rfl hafter rfl rfl
        cases hphase.symm.trans hold
        rfl
      · rw [tunnels_concat]
        exact (List.append_nil (tunnels past)).symm ▸
          hsound.tunnelled.take hphase hafter rfl rfl
      · rw [joins_concat]
        refine hsound.reported.take (by rw [hphase]; nofun) hafter
          (race.setPhase_proxies i .joined) rfl hproxy hreport nofun nofun (.inl ⟨rfl, ?_, rfl⟩)
        rw [Race.winner, hended]
  | error failure =>
      cases failure with
      | lost =>
          obtain ⟨hline, htunnelled, hreported⟩ := hsound.taken
            ((race.setPhase i .joined).report i .lost race.won)
            hphase rfl rfl rfl rfl rfl rfl (.inl ⟨rfl, rfl⟩)
          unfold Race.joined
          exact refill hline htunnelled hreported hended hedgeDelay now
      | failed error =>
          obtain ⟨hline, htunnelled, hreported⟩ := hsound.taken
            ({ (race.setPhase i .joined).report i (.failed error) false with
              last := some error })
            hphase rfl rfl rfl rfl rfl rfl (.inr ⟨error, rfl, rfl⟩)
          unfold Race.joined
          exact refill hline htunnelled hreported hended hedgeDelay now

theorem drained (hsound : Sound past race) {result : Except AttemptFailure Unit}
    (hphase : race.phase? i = some (.settled result)) (hended : race.ended ≠ none) :
    Sound (past ++ [.joined i]) (race.drained i result) := by
  cases result with
  | ok done => exact absurd ((hsound.tunnelled.held i).mp hphase).2 hended
  | error failure =>
      cases failure with
      | lost =>
          obtain ⟨hline, htunnelled, hreported⟩ := hsound.taken
            ((race.setPhase i .joined).report i .lost true)
            hphase rfl rfl rfl rfl rfl rfl (.inl ⟨rfl, rfl⟩)
          exact ⟨hline, htunnelled, hreported, fun hnone => absurd hnone hended⟩
      | failed error =>
          obtain ⟨hline, htunnelled, hreported⟩ := hsound.taken
            ((race.setPhase i .joined).report i (.failed error) true)
            hphase rfl rfl rfl rfl rfl rfl (.inr ⟨error, rfl, rfl⟩)
          exact ⟨hline, htunnelled, hreported, fun hnone => absurd hnone hended⟩

theorem of_same (hsound : Sound past race) {after : Race}
    (hlaunched : after.launched = race.launched) (hslot : after.slot = race.slot)
    (hqueue : after.queue = race.queue) (hwon : after.won = race.won)
    (hended : after.ended = race.ended) (hreports : after.reports = race.reports) :
    Sound past after := by
  have hphase (i : Nat) : after.phase? i = race.phase? i := by
    rw [Race.phase?, hlaunched, Race.phase?]
  refine ⟨hsound.line.of_same hlaunched hslot hqueue,
    hsound.tunnelled.of_same hlaunched hwon hended, ?_, ?_⟩
  · obtain ⟨hindices, hjoined, honce, hproxy, hlate, hfailed, hwins⟩ := hsound.reported
    refine ⟨hreports ▸ hindices, fun i => (hphase i).symm ▸ hjoined i, honce, ?_,
      hreports ▸ hlate, ?_, ?_⟩
    · rw [hreports, hlaunched]
      exact hproxy
    · rw [hreports, hwon]
      exact hfailed
    · rw [Race.wins, Race.winner] at hwins ⊢
      rw [hreports, hended]
      exact hwins
  · rw [hended]
    exact fun hnone => (hsound.busy hnone).imp fun i h => h.imp fun phase h =>
      ⟨(hphase i).trans h.1, h.2⟩

theorem launch (hsound : Sound past race) (hended : race.ended = none) (proxy : ProxyConfig)
    (rest : List ProxyConfig) : Sound past (race.launch proxy rest) := by
  refine ⟨hsound.line.launch proxy rest, hsound.tunnelled.launch hended proxy rest,
    hsound.reported.launch proxy rest, fun _ => ⟨race.launched.length, .acquiring, ?_, nofun⟩⟩
  exact (race.phase?_launch proxy rest _).trans (if_pos rfl)

theorem tick (hsound : Sound past race) (hended : race.ended = none) (hedgeDelay : Duration)
    (now : Instant) : Sound past (Race.tick hedgeDelay now race) := by
  unfold Race.tick
  dsimp only
  split
  · rename_i proxy rest _ _
    exact (hsound.launch hended proxy rest).of_same rfl rfl rfl rfl rfl rfl
  · exact hsound.of_same rfl rfl rfl rfl rfl rfl

theorem step (hsound : Sound past race) {hedgeDelay : Duration} {now : Instant}
    {event : RaceEvent} {after : Race}
    (hstep : Race.step hedgeDelay race now event = some after) :
    Sound (past ++ [event]) after := by
  cases event with
  | acquired i result =>
      simp only [Race.step] at hstep
      split at hstep
      · rename_i hphase
        cases hstep
        exact (hsound.acquired hphase result).quiet rfl rfl
      · cases hstep
  | admitted i =>
      simp only [Race.step] at hstep
      split at hstep
      · rename_i hphase
        split at hstep
        · rename_i hslot
          cases hstep
          exact (hsound.admitted hphase hslot).quiet rfl rfl
        · cases hstep
      · cases hstep
  | shaken i result =>
      simp only [Race.step] at hstep
      split at hstep
      · rename_i hphase
        cases hstep
        exact hsound.shaken hphase result
      · cases hstep
  | joined i =>
      simp only [Race.step] at hstep
      split at hstep
      · rename_i result hphase hended
        cases hstep
        exact hsound.joined hphase hended hedgeDelay now
      · rename_i result ended hphase hended
        cases hstep
        exact hsound.drained hphase (by rw [hended]; rintro ⟨⟩)
      · cases hstep
  | tick =>
      simp only [Race.step] at hstep
      split at hstep
      · rename_i hguard
        cases hstep
        simp only [Bool.and_eq_true, Option.isNone_iff_eq_none] at hguard
        exact (hsound.tick hguard.1.1.1 hedgeDelay now).quiet rfl rfl
      · cases hstep

end Sound

theorem connectHedged_sound (hedgeDelay : Duration) (now : Instant)
    (candidates : List ProxyConfig) (events : List (Instant × RaceEvent)) :
    Sound ((Race.start hedgeDelay now candidates).history hedgeDelay events)
      (connectHedged hedgeDelay now candidates events) :=
  Race.play_preserves Sound (fun _ _ _ _ _ hstep hsound => hsound.step hstep) events
    (Sound.start hedgeDelay now candidates)

/-! What that says of a race. -/

/-- No attempt can go on, and none can be taken in. -/
def Race.Quiet (hedgeDelay : Duration) (race : Race) : Prop :=
  ∀ now event, event ≠ .tick → Race.step hedgeDelay race now event = none

theorem Sound.all_joined {past : List RaceEvent} {race : Race} (hsound : Sound past race)
    {hedgeDelay : Duration} (hquiet : race.Quiet hedgeDelay) {i : Nat} {phase : Phase}
    (hphase : race.phase? i = some phase) : phase = .joined := by
  have hshaking {j : Nat} : race.phase? j ≠ some .handshaking := fun hj => by
    have hnone := hquiet 0 (.shaken j (.ok ())) (fun hsame => by cases hsame)
    simp only [Race.step, hj] at hnone
    cases hnone
  cases phase with
  | joined => rfl
  | acquiring =>
      have hnone := hquiet 0 (.acquired i (.ok ())) (fun hsame => by cases hsame)
      simp only [Race.step, hphase] at hnone
      cases hnone
  | waiting =>
      -- the line is not empty, so its head holds the slot
      have hmem := (hsound.line.member i).mpr ⟨.waiting, hphase, rfl⟩
      cases hslot : race.slot with
      | none =>
          rw [Race.line, hslot, hsound.line.idle hslot] at hmem
          cases hmem
      | some holder =>
          have hholder : holder ∈ race.line := by
            rw [Race.line, hslot]
            exact List.mem_cons_self
          obtain ⟨held, hheld, hin⟩ := (hsound.line.member holder).mp hholder
          cases held with
          | waiting =>
              have hnone := hquiet 0 (.admitted holder) (fun hsame => by cases hsame)
              simp only [Race.step, hheld, hslot, if_true] at hnone
              cases hnone
          | handshaking => exact absurd hheld hshaking
          | acquiring => cases hin
          | settled result => cases hin
          | joined => cases hin
  | handshaking => exact absurd hphase hshaking
  | settled result =>
      have hnone := hquiet 0 (.joined i) (fun hsame => by cases hsame)
      cases hended : race.ended with
      | none =>
          simp only [Race.step, hphase, hended] at hnone
          cases hnone
      | some ended =>
          simp only [Race.step, hphase, hended] at hnone
          cases hnone

/-- The candidates are launched in their order, one at a time handshakes, at most one tunnel is
opened, and each attempt is reported once. -/
structure RaceSafe (hedgeDelay : Duration) (candidates : List ProxyConfig)
    (history : List RaceEvent) (race : Race) : Prop where
  exclusive : ∀ i j, race.phase? i = some .handshaking → race.phase? j = some .handshaking → i = j
  sealed : tunnels history ≠ [] → ∀ i, race.phase? i ≠ some .handshaking
  single : (tunnels history).length ≤ 1
  late : ∀ report ∈ race.reports, report.outcome ≠ .lateSuccess
  order : race.launched.map (·.proxy) ++ race.pending = candidates
  reports : race.reports.map (·.index) = joins history
  once : (race.reports.map (·.index)).Nodup
  joined : ∀ i, i ∈ race.reports.map (·.index) ↔ race.phase? i = some .joined
  proxies : ∀ report ∈ race.reports, candidates[report.index]? = some report.proxy
  wins : race.wins = race.winner.toList
  complete : race.Quiet hedgeDelay →
    race.ended ≠ none ∧ (race.reports.map (·.index)).Perm (List.range race.launched.length)
  failed : ∀ attempts last, race.ended = some (.failed attempts last) →
    attempts = candidates.length ∧ race.pending = [] ∧
      (race.reports.map (·.index)).Perm (List.range candidates.length) ∧
      ∀ report ∈ race.reports, ∃ error, report.outcome = .failed error

theorem Sound.reports_perm {past : List RaceEvent} {race : Race} (hsound : Sound past race)
    (hall : ∀ i phase, race.phase? i = some phase → phase = .joined) :
    (race.reports.map (·.index)).Perm (List.range race.launched.length) := by
  rw [hsound.reported.indices]
  refine (List.perm_ext_iff_of_nodup hsound.reported.once List.nodup_range).mpr fun i => ?_
  rw [← hsound.reported.joined, List.mem_range]
  constructor
  · intro hphase
    obtain ⟨runner, hrunner, _⟩ := Option.map_eq_some_iff.mp hphase
    exact (List.getElem?_eq_some_iff.mp hrunner).1
  · intro hlt
    have hphase : race.phase? i = some (race.launched[i]).phase := by
      rw [Race.phase?, List.getElem?_eq_getElem hlt]
      rfl
    exact hphase.trans (congrArg some (hall i _ hphase))

theorem connectHedged_safe (hedgeDelay : Duration) (now : Instant)
    (candidates : List ProxyConfig) (events : List (Instant × RaceEvent)) :
    RaceSafe hedgeDelay candidates
      ((Race.start hedgeDelay now candidates).history hedgeDelay events)
      (connectHedged hedgeDelay now candidates events) := by
  have hsound := connectHedged_sound hedgeDelay now candidates events
  have hlaunching := connectHedged_launching hedgeDelay now candidates events
  refine {
    exclusive := fun i j hi hj => ?_
    sealed := fun htunnels i hi => ?_
    single := ?_
    late := hsound.reported.late
    order := hlaunching.order
    reports := hsound.reported.indices
    once := hsound.reported.indices.symm ▸ hsound.reported.once
    joined := fun i => ?_
    proxies := fun report hmem => ?_
    wins := hsound.reported.wins
    complete := fun hquiet => ⟨fun hnone => ?_, hsound.reports_perm fun i phase hphase =>
      hsound.all_joined hquiet hphase⟩
    failed := fun attempts last hended => ?_ }
  · exact Option.some.inj ((hsound.line.holder i hi).symm.trans (hsound.line.holder j hj))
  · exact htunnels (hsound.tunnelled.fresh (hsound.tunnelled.handshaking i hi))
  · cases hwon : (connectHedged hedgeDelay now candidates events).won with
    | false =>
        rw [hsound.tunnelled.fresh hwon]
        exact Nat.zero_le 1
    | true =>
        obtain ⟨i, hi⟩ := hsound.tunnelled.winner hwon
        rw [hi]
        exact Nat.le_refl 1
  · rw [hsound.reported.indices]
    exact (hsound.reported.joined i).symm
  · have hproxy := hsound.reported.proxy report hmem
    rw [← hlaunching.order, List.getElem?_append_left (List.getElem?_eq_some_iff.mp hproxy).1]
    exact hproxy
  · obtain ⟨i, phase, hphase, hrunning⟩ := hsound.busy hnone
    exact hrunning (hsound.all_joined hquiet hphase)
  · obtain ⟨hpending, hattempts⟩ := hlaunching.failed attempts last hended
    obtain ⟨hunwon, hall⟩ := hsound.tunnelled.expired attempts last hended
    have hlength := congrArg List.length hlaunching.order
    rw [hpending, List.append_nil, List.length_map] at hlength
    refine ⟨hattempts.trans hlength, hpending, ?_, hsound.reported.failed hunwon⟩
    rw [← hlength]
    exact hsound.reports_perm hall

end Resocks5.Connect
