import Resocks5.Connect.Hedged

namespace Resocks5.Connect

open Resocks5.Foundation
open Resocks5.Types

/-! What has happened in a race. -/

def RaceEvent.tunnel? : RaceEvent → Option Nat
  | .shaken i (.ok ()) => some i
  | _ => none

def RaceEvent.join? : RaceEvent → Option Nat
  | .joined i => some i
  | _ => none

def tunnels (history : List RaceEvent) : List Nat := history.filterMap RaceEvent.tunnel?

def joins (history : List RaceEvent) : List Nat := history.filterMap RaceEvent.join?

namespace Race

def history (hedgeDelay : Duration) : Race → List (Instant × RaceEvent) → List RaceEvent
  | _, [] => []
  | race, event :: rest =>
    match step hedgeDelay race event.1 event.2 with
    | none => history hedgeDelay race rest
    | some after => event.2 :: history hedgeDelay after rest

theorem play_preserves {hedgeDelay : Duration} (Inv : List RaceEvent → Race → Prop)
    (hstep : ∀ past race now event after, step hedgeDelay race now event = some after →
      Inv past race → Inv (past ++ [event]) after)
    (events : List (Instant × RaceEvent)) {past : List RaceEvent} {race : Race}
    (hinv : Inv past race) :
    Inv (past ++ race.history hedgeDelay events) (race.play hedgeDelay events) := by
  induction events generalizing past race with
  | nil =>
      rw [history, List.append_nil]
      exact hinv
  | cons event rest ih =>
      cases htaken : step hedgeDelay race event.1 event.2 with
      | none =>
          simp only [history, play, List.foldl_cons, htaken, Option.getD_none]
          exact ih hinv
      | some after =>
          have hrest := ih (hstep past race event.1 event.2 after htaken hinv)
          rw [List.append_assoc] at hrest
          simp only [history, play, List.foldl_cons, htaken, Option.getD_some]
          exact hrest

def line (race : Race) : List Nat := race.slot.toList ++ race.queue

def winner (race : Race) : Option Nat :=
  match race.ended with
  | some (.connected winner) => some winner
  | _ => none

def wins (race : Race) : List Nat :=
  (race.reports.filter fun report => report.outcome = .won).map (·.index)

variable {race : Race} {i : Nat}

theorem phase?_setPhase {old : Phase} (hold : race.phase? i = some old) (phase : Phase)
    (j : Nat) : (race.setPhase i phase).phase? j = if j = i then some phase else race.phase? j := by
  unfold phase? at hold
  by_cases hji : j = i
  · subst hji
    obtain ⟨runner, hrunner, _⟩ := Option.map_eq_some_iff.mp hold
    simp [phase?, setPhase, hrunner]
  · have hij : i ≠ j := fun heq => hji heq.symm
    simp [phase?, setPhase, hji, hij]

theorem phase?_launch (race : Race) (proxy : ProxyConfig) (rest : List ProxyConfig) (j : Nat) :
    (race.launch proxy rest).phase? j =
      if j = race.launched.length then some .acquiring else race.phase? j := by
  unfold phase? launch
  obtain hlt | heq | hgt := Nat.lt_trichotomy j race.launched.length
  · rw [List.getElem?_append_left hlt, if_neg (Nat.ne_of_lt hlt)]
  · subst heq
    simp
  · rw [List.getElem?_eq_none (by simpa using Nat.succ_le_of_lt hgt), if_neg (Nat.ne_of_gt hgt),
      List.getElem?_eq_none (Nat.le_of_lt hgt)]

theorem phase?_length (race : Race) : race.phase? race.launched.length = none := by
  unfold phase?
  rw [List.getElem?_eq_none (Nat.le_refl _)]
  rfl

theorem report_joined {old : Phase} (hold : race.phase? i = some old) (outcome : AttemptOutcome)
    (afterWin : Bool) :
    ∃ proxy, (race.launched.map (·.proxy))[i]? = some proxy ∧
      ((race.setPhase i .joined).report i outcome afterWin).reports =
        race.reports ++ [⟨i, proxy, outcome, afterWin⟩] := by
  obtain ⟨runner, hrunner, _⟩ := Option.map_eq_some_iff.mp hold
  refine ⟨runner.proxy, by rw [List.getElem?_map, hrunner]; rfl, ?_⟩
  simp [report, setPhase, hrunner]

theorem all_joined (hall : race.launched.all (·.phase.isJoined) = true) {phase : Phase}
    (hphase : race.phase? i = some phase) : phase = .joined := by
  obtain ⟨runner, hrunner, rfl⟩ := Option.map_eq_some_iff.mp hphase
  have hjoined := List.all_eq_true.mp hall runner (List.mem_of_getElem? hrunner)
  cases hcase : runner.phase with
  | joined => rfl
  | acquiring => rw [hcase] at hjoined; cases hjoined
  | waiting => rw [hcase] at hjoined; cases hjoined
  | handshaking => rw [hcase] at hjoined; cases hjoined
  | settled result => rw [hcase] at hjoined; cases hjoined

theorem some_busy (hall : ¬ race.launched.all (·.phase.isJoined) = true) :
    ∃ i phase, race.phase? i = some phase ∧ phase ≠ .joined := by
  rw [List.all_eq_true] at hall
  push Not at hall
  obtain ⟨runner, hmem, hrunner⟩ := hall
  obtain ⟨i, hi⟩ := List.mem_iff_getElem?.mp hmem
  refine ⟨i, runner.phase, by rw [phase?, hi]; rfl, fun hjoined => ?_⟩
  rw [hjoined] at hrunner
  exact hrunner rfl

end Race

/-! The line for the slot: who waits is in it once, and only its head handshakes. -/

def Phase.inLine : Phase → Bool
  | .waiting | .handshaking => true
  | _ => false

structure Line (race : Race) : Prop where
  member : ∀ i, i ∈ race.line ↔ ∃ phase, race.phase? i = some phase ∧ phase.inLine = true
  once : race.line.Nodup
  idle : race.slot = none → race.queue = []
  holder : ∀ i, race.phase? i = some .handshaking → race.slot = some i

namespace Line

variable {race after : Race} {i : Nat}

theorem blank (hlaunched : race.launched = []) (hslot : race.slot = none)
    (hqueue : race.queue = []) : Line race := by
  have hphase (i : Nat) : race.phase? i = none := by rw [Race.phase?, hlaunched]; rfl
  have hline : race.line = [] := by rw [Race.line, hslot, hqueue]; rfl
  refine ⟨fun i => ?_, by rw [hline]; exact List.nodup_nil, fun _ => hqueue, fun i => ?_⟩
  · rw [hline, hphase]
    exact ⟨nofun, nofun⟩
  · rw [hphase]
    nofun

theorem of_same (hline : Line race) (hlaunched : after.launched = race.launched)
    (hslot : after.slot = race.slot) (hqueue : after.queue = race.queue) : Line after := by
  have hphase (i : Nat) : after.phase? i = race.phase? i := by
    rw [Race.phase?, hlaunched, Race.phase?]
  have hsame : after.line = race.line := by rw [Race.line, hslot, hqueue, Race.line]
  refine ⟨fun i => ?_, by rw [hsame]; exact hline.once, ?_, fun i => ?_⟩
  · rw [hsame, hphase]
    exact hline.member i
  · rw [hslot, hqueue]
    exact hline.idle
  · rw [hphase, hslot]
    exact hline.holder i

theorem aside (hline : Line race) {phase : Phase}
    (hold : ∀ old, race.phase? i = some old → old.inLine = false) (hnew : phase.inLine = false)
    (hphase : ∀ j, after.phase? j = if j = i then some phase else race.phase? j)
    (hslot : after.slot = race.slot) (hqueue : after.queue = race.queue) : Line after := by
  have hsame : after.line = race.line := by rw [Race.line, hslot, hqueue, Race.line]
  refine ⟨fun j => ?_, by rw [hsame]; exact hline.once, ?_, fun j => ?_⟩
  · rw [hsame, hphase, hline.member]
    by_cases hji : j = i
    · subst hji
      rw [if_pos rfl]
      constructor
      · rintro ⟨old, hphase', hin⟩
        rw [hold old hphase'] at hin
        cases hin
      · rintro ⟨_, ⟨⟩, hin⟩
        rw [hnew] at hin
        cases hin
    · rw [if_neg hji]
  · rw [hslot, hqueue]
    exact hline.idle
  · rw [hphase, hslot]
    by_cases hji : j = i
    · rw [if_pos hji]
      rintro ⟨⟩
      cases hnew
    · rw [if_neg hji]
      exact hline.holder j

theorem enter (hline : Line race) {old : Phase} (hold : race.phase? i = some old)
    (hout : old.inLine = false)
    (hphase : ∀ j, after.phase? j = if j = i then some .waiting else race.phase? j)
    (hlast : after.line = race.line ++ [i]) (hidle : after.slot = none → after.queue = [])
    (hslot : ∀ j, race.slot = some j → after.slot = some j) : Line after := by
  have habsent : i ∉ race.line := fun hmem => by
    obtain ⟨phase, hphase', hin⟩ := (hline.member i).mp hmem
    cases hold.symm.trans hphase'
    rw [hout] at hin
    cases hin
  refine ⟨fun j => ?_, ?_, hidle, fun j => ?_⟩
  · rw [hlast, hphase, List.mem_append, List.mem_singleton, hline.member]
    by_cases hji : j = i
    · rw [if_pos hji]
      exact ⟨fun _ => ⟨.waiting, rfl, rfl⟩, fun _ => .inr hji⟩
    · rw [if_neg hji]
      exact ⟨fun h => h.resolve_right hji, .inl⟩
  · rw [hlast]
    exact List.nodup_append.mpr ⟨hline.once, List.pairwise_singleton _ i, fun j hj k hk hjk =>
      habsent (List.mem_singleton.mp hk ▸ hjk ▸ hj)⟩
  · rw [hphase]
    by_cases hji : j = i
    · rw [if_pos hji]
      nofun
    · rw [if_neg hji]
      exact fun hhandshaking => hslot j (hline.holder j hhandshaking)

theorem shake (hline : Line race) {old : Phase} (hold : race.phase? i = some old)
    (hin : old.inLine = true) (hslot : race.slot = some i) :
    Line (race.setPhase i .handshaking) := by
  have hphase := Race.phase?_setPhase hold .handshaking
  refine ⟨fun j => ?_, hline.once, hline.idle, fun j => ?_⟩
  · rw [hphase]
    by_cases hji : j = i
    · subst hji
      rw [if_pos rfl]
      exact ⟨fun _ => ⟨.handshaking, rfl, rfl⟩, fun _ => (hline.member j).mpr ⟨old, hold, hin⟩⟩
    · rw [if_neg hji]
      exact hline.member j
  · rw [hphase]
    by_cases hji : j = i
    · rw [hji]
      exact fun _ => hslot
    · rw [if_neg hji]
      exact hline.holder j

theorem leave (hline : Line race) {phase : Phase} (hslot : race.slot = some i)
    (hnew : phase.inLine = false)
    (hphase : ∀ j, after.phase? j = if j = i then some phase else race.phase? j)
    (hrelease : after.slot = race.queue.head?) (hqueue : after.queue = race.queue.tail) :
    Line after := by
  have hhead : race.line = i :: race.queue := by rw [Race.line, hslot]; rfl
  have hrest : after.line = race.queue := by
    rw [Race.line, hrelease, hqueue]
    cases race.queue with
    | nil => rfl
    | cons next others => rfl
  have honce := hline.once
  rw [hhead, List.nodup_cons] at honce
  refine ⟨fun j => ?_, by rw [hrest]; exact honce.2, fun hnone => ?_, fun j => ?_⟩
  · rw [hrest, hphase]
    by_cases hji : j = i
    · subst hji
      rw [if_pos rfl]
      refine ⟨fun hmem => absurd hmem honce.1, ?_⟩
      rintro ⟨_, ⟨⟩, hin⟩
      rw [hnew] at hin
      cases hin
    · rw [if_neg hji, ← hline.member, hhead, List.mem_cons]
      exact ⟨.inr, fun h => h.resolve_left hji⟩
  · rw [hrelease, List.head?_eq_none_iff] at hnone
    rw [hqueue, hnone]
    rfl
  · rw [hphase]
    by_cases hji : j = i
    · rw [if_pos hji]
      rintro ⟨⟩
      cases hnew
    · rw [if_neg hji]
      intro hhandshaking
      cases hslot.symm.trans (hline.holder j hhandshaking)
      exact absurd rfl hji

end Line

/-! No handshake after a success: the tunnels opened so far are none, or the one of the win. -/

structure Tunnelled (opened : List Nat) (race : Race) : Prop where
  handshaking : ∀ i, race.phase? i = some .handshaking → race.won = false
  lost : ∀ i, race.phase? i = some (.settled (.error .lost)) → race.won = true
  fresh : race.won = false → opened = []
  winner : race.won = true → ∃ i, opened = [i]
  held : ∀ i, race.phase? i = some (.settled (.ok ())) ↔ i ∈ opened ∧ race.ended = none
  connected : ∀ i, race.ended = some (.connected i) → i ∈ opened ∧ race.phase? i = some .joined
  expired : ∀ attempts last, race.ended = some (.failed attempts last) →
    race.won = false ∧ ∀ i phase, race.phase? i = some phase → phase = .joined

namespace Tunnelled

variable {opened : List Nat} {race after : Race} {i : Nat}

theorem running (htunnelled : Tunnelled opened race) {phase : Phase}
    (hphase : race.phase? i = some phase) (hrunning : phase ≠ .joined)
    (attempts : Nat) (last : Option ConnectError) :
    race.ended ≠ some (.failed attempts last) := fun hended =>
  hrunning ((htunnelled.expired attempts last hended).2 i phase hphase)

theorem unended (htunnelled : Tunnelled opened race) (hwon : race.won = false) {phase : Phase}
    (hphase : race.phase? i = some phase) (hrunning : phase ≠ .joined) : race.ended = none := by
  cases hended : race.ended with
  | none => rfl
  | some ended =>
      cases ended with
      | failed attempts last =>
          exact absurd hended (htunnelled.running hphase hrunning attempts last)
      | connected w =>
          have hmem := (htunnelled.connected w hended).1
          rw [htunnelled.fresh hwon] at hmem
          cases hmem

theorem blank (hlaunched : race.launched = []) (hwon : race.won = false)
    (hended : race.ended = none) : Tunnelled [] race := by
  have hphase (i : Nat) : race.phase? i = none := by rw [Race.phase?, hlaunched]; rfl
  refine ⟨fun i => ?_, fun i => ?_, fun _ => rfl, ?_, fun i => ?_, ?_, ?_⟩
  · rw [hphase]
    nofun
  · rw [hphase]
    nofun
  · rw [hwon]
    nofun
  · rw [hphase]
    exact ⟨nofun, nofun⟩
  · rw [hended]
    nofun
  · rw [hended]
    nofun

theorem of_same (htunnelled : Tunnelled opened race) (hlaunched : after.launched = race.launched)
    (hwon : after.won = race.won) (hended : after.ended = race.ended) :
    Tunnelled opened after := by
  cases race
  cases after
  cases hlaunched
  cases hwon
  cases hended
  obtain ⟨hhandshaking, hlost, hfresh, hwinner, hheld, hconnected, hover⟩ := htunnelled
  exact ⟨hhandshaking, hlost, hfresh, hwinner, hheld, hconnected, hover⟩

theorem aside (htunnelled : Tunnelled opened race) (phase : Phase)
    (hold : race.phase? i ≠ some (.settled (.ok ()))) (hjoined : race.phase? i ≠ some .joined)
    (hnew : phase ≠ .settled (.ok ())) (hhandshaking : phase = .handshaking → race.won = false)
    (hlost : phase = .settled (.error .lost) → race.won = true)
    (hlive : ∀ attempts last, race.ended ≠ some (.failed attempts last))
    (hphase : ∀ j, after.phase? j = if j = i then some phase else race.phase? j)
    (hwon : after.won = race.won) (hended : after.ended = race.ended) :
    Tunnelled opened after := by
  refine ⟨fun j => ?_, fun j => ?_, ?_, ?_, fun j => ?_, fun j hconnected => ?_,
    fun attempts last hfailed => absurd (hended ▸ hfailed) (hlive attempts last)⟩
  · rw [hphase, hwon]
    by_cases hji : j = i
    · rw [if_pos hji]
      exact fun h => hhandshaking (Option.some.inj h)
    · rw [if_neg hji]
      exact htunnelled.handshaking j
  · rw [hphase, hwon]
    by_cases hji : j = i
    · rw [if_pos hji]
      exact fun h => hlost (Option.some.inj h)
    · rw [if_neg hji]
      exact htunnelled.lost j
  · rw [hwon]
    exact htunnelled.fresh
  · rw [hwon]
    exact htunnelled.winner
  · rw [hphase, hended, ← htunnelled.held]
    by_cases hji : j = i
    · subst hji
      rw [if_pos rfl]
      exact ⟨fun h => absurd (Option.some.inj h) hnew, fun h => absurd h hold⟩
    · rw [if_neg hji]
  · rw [hended] at hconnected
    obtain ⟨hmem, hphase'⟩ := htunnelled.connected j hconnected
    refine ⟨hmem, ?_⟩
    rw [hphase, if_neg (fun hji : j = i => hjoined (hji ▸ hphase'))]
    exact hphase'

theorem succeed (htunnelled : Tunnelled opened race)
    (hold : race.phase? i = some .handshaking)
    (halone : ∀ j, race.phase? j = some .handshaking → j = i)
    (hphase : ∀ j, after.phase? j = if j = i then some (.settled (.ok ())) else race.phase? j)
    (hwon : after.won = true) (hended : after.ended = race.ended) :
    Tunnelled (opened ++ [i]) after := by
  have hunwon := htunnelled.handshaking i hold
  have hnone := htunnelled.unended hunwon hold nofun
  obtain rfl := htunnelled.fresh hunwon
  refine ⟨fun j => ?_, fun _ _ => hwon, ?_, fun _ => ⟨i, rfl⟩, fun j => ?_, ?_, ?_⟩
  · rw [hphase]
    by_cases hji : j = i
    · rw [if_pos hji]
      nofun
    · rw [if_neg hji]
      exact fun hhandshaking => absurd (halone j hhandshaking) hji
  · rw [hwon]
    nofun
  · rw [hphase, hended, hnone, List.nil_append, List.mem_singleton]
    by_cases hji : j = i
    · rw [if_pos hji]
      exact ⟨fun _ => ⟨hji, rfl⟩, fun _ => rfl⟩
    · rw [if_neg hji, htunnelled.held]
      exact ⟨fun h => absurd h.1 List.not_mem_nil, fun h => absurd h.1 hji⟩
  · rw [hended, hnone]
    nofun
  · rw [hended, hnone]
    nofun

theorem take (htunnelled : Tunnelled opened race)
    (hold : race.phase? i = some (.settled (.ok ())))
    (hphase : ∀ j, after.phase? j = if j = i then some .joined else race.phase? j)
    (hwon : after.won = true) (hended : after.ended = some (.connected i)) :
    Tunnelled opened after := by
  obtain ⟨hmem, hnone⟩ := (htunnelled.held i).mp hold
  have hwas : race.won = true := by
    cases hwon' : race.won with
    | true => rfl
    | false =>
        rw [htunnelled.fresh hwon'] at hmem
        cases hmem
  refine ⟨fun j => ?_, fun _ _ => hwon, ?_, fun _ => htunnelled.winner hwas, fun j => ?_,
    fun j hconnected => ?_, ?_⟩
  · rw [hphase]
    by_cases hji : j = i
    · rw [if_pos hji]
      nofun
    · rw [if_neg hji]
      intro hhandshaking
      cases hwas.symm.trans (htunnelled.handshaking j hhandshaking)
  · rw [hwon]
    nofun
  · rw [hended, hphase]
    by_cases hji : j = i
    · rw [if_pos hji]
      exact ⟨nofun, nofun⟩
    · rw [if_neg hji, htunnelled.held]
      -- the only tunnel is the winner's
      obtain ⟨w, rfl⟩ := htunnelled.winner hwas
      rw [List.mem_singleton] at hmem ⊢
      exact ⟨fun h => absurd (h.1.trans hmem.symm) hji, nofun⟩
  · rw [hended] at hconnected
    cases hconnected
    exact ⟨hmem, by rw [hphase, if_pos rfl]⟩
  · rw [hended]
    nofun

end Tunnelled

theorem Line.launch {race : Race} (hline : Line race) (proxy : ProxyConfig)
    (rest : List ProxyConfig) : Line (race.launch proxy rest) :=
  hline.aside (i := race.launched.length) (by rw [race.phase?_length]; nofun) rfl
    (race.phase?_launch proxy rest) rfl rfl

theorem Line.refill {race : Race} (hline : Line race) (hedgeDelay : Duration) (now : Instant) :
    Line (race.refill hedgeDelay now) := by
  unfold Race.refill
  split
  · split
    · exact hline.of_same rfl rfl rfl
    · rename_i proxy rest hpending
      exact (hline.launch proxy rest).of_same rfl rfl rfl
  · exact hline

theorem Tunnelled.launch {opened : List Nat} {race : Race} (htunnelled : Tunnelled opened race)
    (hended : race.ended = none) (proxy : ProxyConfig) (rest : List ProxyConfig) :
    Tunnelled opened (race.launch proxy rest) := by
  refine htunnelled.aside (i := race.launched.length) .acquiring ?_ ?_ nofun nofun
    nofun ?_ (race.phase?_launch proxy rest) rfl rfl
  · rw [race.phase?_length]
    nofun
  · rw [race.phase?_length]
    nofun
  · rw [hended]
    nofun

theorem Tunnelled.refill {opened : List Nat} {race : Race} (htunnelled : Tunnelled opened race)
    (hended : race.ended = none) (hedgeDelay : Duration) (now : Instant) :
    Tunnelled opened (race.refill hedgeDelay now) := by
  unfold Race.refill
  split
  · rename_i hall
    split
    · refine ⟨htunnelled.handshaking, htunnelled.lost, htunnelled.fresh, htunnelled.winner,
        fun i => ⟨fun hphase => ?_, fun hmem => nomatch hmem.2⟩, nofun,
        fun attempts last _ => ⟨?_, fun i phase => Race.all_joined hall⟩⟩
      · cases Race.all_joined hall hphase
      · -- a win would be a success that still waits to be taken in
        cases hwon : race.won with
        | false => rfl
        | true =>
            obtain ⟨i, rfl⟩ := htunnelled.winner hwon
            have hheld := (htunnelled.held i).mpr ⟨List.mem_singleton_self i, hended⟩
            cases Race.all_joined hall hheld
    · rename_i proxy rest hpending
      exact (htunnelled.launch hended proxy rest).of_same rfl rfl rfl
  · exact htunnelled

end Resocks5.Connect
