import Resocks5.Users.FileAccess

namespace Resocks5.Users

open Resocks5.Auth
open Resocks5.Foundation

variable {Pid Server : Type} [DecidableEq Pid] [DecidableEq Server]

/-! Where a process stands in the order of the locks. -/

def pids (txns : List (Txn Pid)) : List Pid := txns.map (·.pid)

/-- What a process does under the lock is what it was started for. -/
def Serves : Work Server → Job → Prop
  | .initialise, job => job = .initialise
  | .command action, job => ∃ users op, buildOp users action = .ok op ∧ job = .commit op
  | .claim _ name newHash, job => ∃ fallbackUsers, job = .claim name newHash fallbackUsers

/-- The last one that took the lock, and nothing of it has landed. -/
def Latest (ledger : Ledger Pid Server) (txn : Txn Pid) : Prop :=
  ∃ earlier, ledger.locked = earlier ++ [txn] ∧ ledger.landed.Sublist earlier

def Stands (ktav : Ktav) (ledger : Ledger Pid Server) (pid : Pid) : Phase → Prop
  | .start | .waiting _ => ledger.world.holder ≠ some pid ∧ pid ∉ pids ledger.locked
  | .locked job => ledger.world.holder = some pid ∧ Latest ledger ⟨pid, job⟩
  | .creating job text | .writing job text =>
    ledger.world.holder = some pid ∧ Latest ledger ⟨pid, job⟩ ∧
      job.decide ktav ledger.world.target = .ok text
  | .flushed job text =>
    ledger.world.holder = some pid ∧ Latest ledger ⟨pid, job⟩ ∧
      job.decide ktav ledger.world.target = .ok text ∧ ledger.world.tmp = some text
  | .discarding reason =>
    ledger.world.holder = some pid ∧ reason ≠ .sync ∧ pid ∉ pids ledger.landed
  | .renamed => ledger.world.holder = some pid ∧ pid ∈ pids ledger.landed
  | .leaving report =>
    ledger.world.holder = some pid ∧ (pid ∈ pids ledger.landed ↔ report.landed = true)
  | .publishing report | .done report =>
    ledger.world.holder ≠ some pid ∧ (pid ∈ pids ledger.landed ↔ report.landed = true)
  | .dead => ledger.world.holder ≠ some pid

/-- The file is what the jobs that landed make of it one after the other. -/
structure Serial (ktav : Ktav) (roster : Pid → Work Server) (target : Option Bytes)
    (ledger : Ledger Pid Server) : Prop where
  serial : ledger.world.target =
    ledger.landed.foldl (fun target txn => txn.job.perform ktav target) target
  ordered : ledger.landed.Sublist ledger.locked
  once : (pids ledger.locked).Nodup
  jobs : ∀ txn ∈ ledger.locked, Serves (roster txn.pid) txn.job
  waiting : ∀ pid job, ledger.world.phase pid = .waiting job → Serves (roster pid) job
  stands : ∀ pid, Stands ktav ledger pid (ledger.world.phase pid)

section

variable {ktav : Ktav} {roster : Pid → Work Server} {target : Option Bytes}
  {ledger after : Ledger Pid Server} {pid : Pid}

omit [DecidableEq Pid] [DecidableEq Server] in
theorem Latest.not_landed {txn : Txn Pid} (hlatest : Latest ledger txn)
    (honce : (pids ledger.locked).Nodup) : txn.pid ∉ pids ledger.landed := by
  obtain ⟨earlier, hlocked, hlanded⟩ := hlatest
  rw [hlocked, pids, List.map_append, List.map_singleton] at honce
  intro hmem
  exact (List.nodup_append.mp honce).2.2 _ ((hlanded.map _).subset hmem) _
    (List.mem_singleton.mpr rfl) rfl

omit [DecidableEq Pid] [DecidableEq Server] in
theorem Stands.frame {phase : Phase} (hstands : Stands ktav ledger pid phase)
    (hheld : ledger.world.holder = some pid → after.world.holder = some pid ∧
      after.world.target = ledger.world.target ∧ after.world.tmp = ledger.world.tmp ∧
      after.locked = ledger.locked ∧ after.landed = ledger.landed)
    (hfree : ledger.world.holder ≠ some pid → after.world.holder ≠ some pid)
    (hlocked : pid ∈ pids after.locked ↔ pid ∈ pids ledger.locked)
    (hlanded : pid ∈ pids after.landed ↔ pid ∈ pids ledger.landed) :
    Stands ktav after pid phase := by
  have hlatest {job : Job} (hholder : ledger.world.holder = some pid)
      (h : Latest ledger ⟨pid, job⟩) : Latest after ⟨pid, job⟩ := by
    obtain ⟨_, _, _, hsame, hkept⟩ := hheld hholder
    rw [Latest, hsame, hkept]
    exact h
  cases phase with
  | start => exact ⟨hfree hstands.1, hlocked.not.mpr hstands.2⟩
  | waiting job => exact ⟨hfree hstands.1, hlocked.not.mpr hstands.2⟩
  | locked job => exact ⟨(hheld hstands.1).1, hlatest hstands.1 hstands.2⟩
  | creating job text =>
      obtain ⟨hholder, hlast, hdecide⟩ := hstands
      obtain ⟨hsame, htarget, _⟩ := hheld hholder
      exact ⟨hsame, hlatest hholder hlast, htarget ▸ hdecide⟩
  | writing job text =>
      obtain ⟨hholder, hlast, hdecide⟩ := hstands
      obtain ⟨hsame, htarget, _⟩ := hheld hholder
      exact ⟨hsame, hlatest hholder hlast, htarget ▸ hdecide⟩
  | flushed job text =>
      obtain ⟨hholder, hlast, hdecide, htmp⟩ := hstands
      obtain ⟨hsame, htarget, hkept, _⟩ := hheld hholder
      exact ⟨hsame, hlatest hholder hlast, htarget ▸ hdecide, hkept.trans htmp⟩
  | discarding reason =>
      exact ⟨(hheld hstands.1).1, hstands.2.1, hlanded.not.mpr hstands.2.2⟩
  | renamed => exact ⟨(hheld hstands.1).1, hlanded.mpr hstands.2⟩
  | leaving report => exact ⟨(hheld hstands.1).1, hlanded.trans hstands.2⟩
  | publishing report => exact ⟨hfree hstands.1, hlanded.trans hstands.2⟩
  | done report => exact ⟨hfree hstands.1, hlanded.trans hstands.2⟩
  | dead => exact hfree hstands

omit [DecidableEq Server] in
theorem Serial.waiting_update (hserial : Serial ktav roster target ledger) {phase : Phase}
    (hwaiting : ∀ job, phase = .waiting job → Serves (roster pid) job) {other : Pid} {job : Job}
    (hother : Function.update ledger.world.phase pid phase other = .waiting job) :
    Serves (roster other) job := by
  rw [Function.update_apply] at hother
  split at hother
  · rename_i hsame
    exact hsame ▸ hwaiting job hother
  · exact hserial.waiting other job hother

omit [DecidableEq Server] in
theorem Serial.quiet (hserial : Serial ktav roster target ledger) {world : World Pid Server}
    {phase : Phase} (hphase : world.phase = Function.update ledger.world.phase pid phase)
    (htarget : world.target = ledger.world.target)
    (hholder : world.holder = ledger.world.holder ∧ world.tmp = ledger.world.tmp ∨
      ledger.world.holder = some pid ∧ (world.holder = some pid ∨ world.holder = none))
    (hwaiting : ∀ job, phase = .waiting job → Serves (roster pid) job)
    (hstands : Stands ktav ⟨world, ledger.locked, ledger.landed⟩ pid phase) :
    Serial ktav roster target ⟨world, ledger.locked, ledger.landed⟩ := by
  refine ⟨htarget.trans hserial.serial, hserial.ordered, hserial.once, hserial.jobs, ?_, ?_⟩
  · intro other job hother
    dsimp only at hother
    rw [hphase] at hother
    exact hserial.waiting_update hwaiting hother
  · intro other
    dsimp only
    rw [hphase, Function.update_apply]
    split
    · rename_i hsame
      exact hsame ▸ hstands
    · rename_i hother
      have hothers : ∀ q, q ≠ pid → some pid ≠ some q := fun q hq h =>
        hq (Option.some.inj h).symm
      refine (hserial.stands other).frame (fun hheld => ?_) (fun hfree => ?_) Iff.rfl Iff.rfl
      · obtain ⟨hsame, htmp⟩ | ⟨hmine, _⟩ := hholder
        · exact ⟨hsame.trans hheld, htarget, htmp, rfl, rfl⟩
        · exact absurd (hmine.symm.trans hheld) (hothers other hother)
      · obtain ⟨hsame, _⟩ | ⟨_, hmine | hnone⟩ := hholder
        · dsimp only
          rw [hsame]
          exact hfree
        · dsimp only
          rw [hmine]
          exact hothers other hother
        · dsimp only
          rw [hnone]
          nofun

omit [DecidableEq Pid] in
theorem mem_pids_concat {txns : List (Txn Pid)} {other : Pid} {job : Job} (hother : other ≠ pid) :
    other ∈ pids (txns ++ [⟨pid, job⟩]) ↔ other ∈ pids txns := by
  simp [pids, hother]

omit [DecidableEq Server] in
theorem Serial.acquire (hserial : Serial ktav roster target ledger) {job : Job}
    (hphase : ledger.world.phase pid = .waiting job) (hfree : ledger.world.holder = none) :
    Serial ktav roster target ⟨{ ledger.world with holder := some pid }.goto pid (.locked job),
      ledger.locked ++ [⟨pid, job⟩], ledger.landed⟩ := by
  have hbefore := hserial.stands pid
  rw [hphase] at hbefore
  refine ⟨hserial.serial, hserial.ordered.trans (List.sublist_append_left _ _), ?_, ?_, ?_, ?_⟩
  · rw [pids, List.map_append, List.map_singleton]
    refine List.nodup_append.mpr ⟨hserial.once, List.pairwise_singleton _ _, ?_⟩
    intro q hq other hother hsame
    obtain rfl := List.mem_singleton.mp hother
    rw [hsame] at hq
    exact hbefore.2 hq
  · intro txn htxn
    obtain htxn | htxn := List.mem_append.mp htxn
    · exact hserial.jobs txn htxn
    · rw [List.mem_singleton.mp htxn]
      exact hserial.waiting pid job hphase
  · intro other job' hother
    refine hserial.waiting_update ?_ hother
    rintro _ ⟨⟩
  · intro other
    dsimp only [World.goto]
    rw [Function.update_apply]
    split
    · rename_i hsame
      exact ⟨hsame ▸ rfl, ledger.locked, hsame ▸ rfl, hserial.ordered⟩
    · rename_i hother
      refine (hserial.stands other).frame (fun hheld => ?_) (fun _ hheld => ?_)
        (mem_pids_concat hother) Iff.rfl
      · rw [hfree] at hheld
        cases hheld
      · exact hother (Option.some.inj hheld).symm

omit [DecidableEq Server] in
theorem Serial.land (hserial : Serial ktav roster target ledger) {job : Job} {text : Bytes}
    (hphase : ledger.world.phase pid = .flushed job text) :
    Serial ktav roster target
      ⟨{ ledger.world with target := ledger.world.tmp, tmp := none }.goto pid .renamed,
        ledger.locked, ledger.landed ++ [⟨pid, job⟩]⟩ := by
  have hbefore := hserial.stands pid
  rw [hphase] at hbefore
  obtain ⟨hholder, ⟨earlier, hlocked, hlanded⟩, hdecide, htmp⟩ := hbefore
  refine ⟨?_, ?_, hserial.once, hserial.jobs, ?_, ?_⟩
  · rw [List.foldl_append, ← hserial.serial, List.foldl_cons, List.foldl_nil, Job.perform,
      hdecide]
    exact htmp
  · rw [hlocked]
    exact hlanded.append (List.Sublist.refl _)
  · intro other job' hother
    refine hserial.waiting_update ?_ hother
    rintro _ ⟨⟩
  · intro other
    dsimp only [World.goto]
    rw [Function.update_apply]
    split
    · rename_i hsame
      refine ⟨hsame ▸ hholder, ?_⟩
      rw [hsame, pids, List.map_append]
      exact List.mem_append_right _ (List.mem_singleton.mpr rfl)
    · rename_i hother
      refine (hserial.stands other).frame (fun hheld => ?_) id Iff.rfl (mem_pids_concat hother)
      exact absurd (Option.some.inj (hheld.symm.trans hholder)) hother

omit [DecidableEq Pid] [DecidableEq Server] in
theorem prepare_serves {world : World Pid Server} {work : Work Server} {job : Job}
    (hprepare : world.prepare ktav work = some (.waiting job)) : Serves work job := by
  cases work with
  | initialise =>
      rw [World.prepare] at hprepare
      split at hprepare
      · cases hprepare
      · cases hprepare
        rfl
  | command action =>
      obtain ⟨text, _, hphase⟩ := Option.map_eq_some_iff.mp hprepare
      split at hphase
      · cases hphase
      · split at hphase
        · cases hphase
        · rename_i users _ _ op hop
          cases hphase
          exact ⟨users, op, hop, rfl⟩
  | claim server name newHash =>
      obtain ⟨users, _, hphase⟩ := Option.map_eq_some_iff.mp hprepare
      split at hphase
      · cases hphase
      · split at hphase
        · cases hphase
        · cases hphase
          exact ⟨_, rfl⟩

omit [DecidableEq Pid] [DecidableEq Server] in
theorem prepare_waits {world : World Pid Server} {work : Work Server} {phase : Phase}
    (hprepare : world.prepare ktav work = some phase) :
    (∃ job, phase = .waiting job) ∨ ∃ report, phase = .done report ∧ report.landed = false := by
  cases work with
  | initialise =>
      rw [World.prepare] at hprepare
      split at hprepare
      · cases hprepare
        refine .inr ⟨_, rfl, ?_⟩
        split
        · rfl
        · rfl
      · cases hprepare
        exact .inl ⟨_, rfl⟩
  | command action =>
      obtain ⟨text, _, hphase⟩ := Option.map_eq_some_iff.mp hprepare
      split at hphase
      · exact .inr ⟨_, hphase.symm, rfl⟩
      · split at hphase
        · exact .inr ⟨_, hphase.symm, rfl⟩
        · exact .inl ⟨_, hphase.symm⟩
  | claim server name newHash =>
      obtain ⟨users, _, hphase⟩ := Option.map_eq_some_iff.mp hprepare
      split at hphase
      · exact .inr ⟨_, hphase.symm, rfl⟩
      · split at hphase
        · exact .inr ⟨_, hphase.symm, rfl⟩
        · exact .inl ⟨_, hphase.symm⟩

omit [DecidableEq Pid] [DecidableEq Server] in
theorem writable_error {users : List User} {report : Report}
    (hwritable : writable ktav users = .error report) : report = .failed .serialize := by
  rw [writable] at hwritable
  split at hwritable
  · cases hwritable
    rfl
  · cases hwritable

theorem decide_report {job : Job} {file : Option Bytes} {report : Report}
    (hdecide : job.decide ktav file = .error report) : report.landed = false := by
  unfold Job.decide at hdecide
  split at hdecide
  · cases hdecide
    split
    · rfl
    · rfl
  · rw [writable_error hdecide]
    rfl
  · cases hdecide
    rfl
  · split at hdecide
    · cases hdecide
      rfl
    · split at hdecide
      · cases hdecide
        rfl
      · rw [writable_error hdecide]
        rfl
  · cases hdecide
    rfl
  · rw [writable_error hdecide]
    rfl
  · split at hdecide
    · cases hdecide
      rfl
    · split at hdecide
      · cases hdecide
        rfl
      · split at hdecide
        · cases hdecide
          rfl
        · rw [writable_error hdecide]
          rfl

omit [DecidableEq Pid] [DecidableEq Server] in
theorem locks_none {ok : Bool} (hphase : ∀ job, ledger.world.phase pid ≠ .waiting job) :
    ledger.world.locks (.advance pid ok) = none := by
  cases ok with
  | false => rfl
  | true =>
      rw [World.locks]
      split
      · rename_i job hwaiting
        exact absurd hwaiting (hphase job)
      · rfl

omit [DecidableEq Pid] [DecidableEq Server] in
theorem lands_none {ok : Bool} (hphase : ∀ job text, ledger.world.phase pid ≠ .flushed job text) :
    ledger.world.lands (.advance pid ok) = none := by
  cases ok with
  | false => rfl
  | true =>
      rw [World.lands]
      split
      · rename_i job text hflushed
        exact absurd hflushed (hphase job text)
      · rfl

omit [DecidableEq Pid] [DecidableEq Server] in
theorem Serial.silent {world : World Pid Server} {event : Event Pid Server}
    (hserial : Serial ktav roster target ⟨world, ledger.locked, ledger.landed⟩)
    (hlocks : ledger.world.locks event = none) (hlands : ledger.world.lands event = none) :
    Serial ktav roster target ⟨world, ledger.locked ++ (ledger.world.locks event).toList,
      ledger.landed ++ (ledger.world.lands event).toList⟩ := by
  rw [hlocks, hlands, Option.toList_none, List.append_nil, List.append_nil]
  exact hserial

omit [DecidableEq Pid] [DecidableEq Server] in
theorem Serial.unlanded (hserial : Serial ktav roster target ledger)
    (hnot : pid ∉ pids ledger.locked) : pid ∉ pids ledger.landed :=
  fun hmem => hnot ((hserial.ordered.map _).subset hmem)

theorem start_serial (hserial : Serial ktav roster target ledger) {ok : Bool}
    {world : World Pid Server} (hphase : ledger.world.phase pid = .start)
    (hstep : ledger.world.advance ktav roster pid ok = some world) :
    Serial ktav roster target
      ⟨world, ledger.locked ++ (ledger.world.locks (.advance pid ok)).toList,
        ledger.landed ++ (ledger.world.lands (.advance pid ok)).toList⟩ := by
  have hstands := hserial.stands pid
  unfold World.advance at hstep
  simp only [hphase] at hstep hstands
  obtain ⟨hholder, hnew⟩ := hstands
  refine Serial.silent ?_ (locks_none (by simp [hphase])) (lands_none (by simp [hphase]))
  split at hstep
  · obtain ⟨phase, hprepare, rfl⟩ := Option.map_eq_some_iff.mp hstep
    refine hserial.quiet rfl rfl (.inl ⟨rfl, rfl⟩) ?_ ?_
    · rintro job rfl
      exact prepare_serves hprepare
    · obtain ⟨job, rfl⟩ | ⟨report, rfl, hreport⟩ := prepare_waits hprepare
      · exact ⟨hholder, hnew⟩
      · exact ⟨hholder, by simp [hserial.unlanded hnew, hreport]⟩
  · obtain rfl := Option.some.inj hstep
    refine hserial.quiet rfl rfl (.inl ⟨rfl, rfl⟩) nofun ⟨hholder, ?_⟩
    exact iff_of_false (hserial.unlanded hnew) nofun

theorem waiting_serial (hserial : Serial ktav roster target ledger) {ok : Bool} {job : Job}
    {world : World Pid Server} (hphase : ledger.world.phase pid = .waiting job)
    (hstep : ledger.world.advance ktav roster pid ok = some world) :
    Serial ktav roster target
      ⟨world, ledger.locked ++ (ledger.world.locks (.advance pid ok)).toList,
        ledger.landed ++ (ledger.world.lands (.advance pid ok)).toList⟩ := by
  have hstands := hserial.stands pid
  unfold World.advance at hstep
  simp only [hphase] at hstep hstands
  obtain ⟨hholder, hnew⟩ := hstands
  cases ok with
  | false =>
      obtain rfl := Option.some.inj hstep
      refine Serial.silent ?_ rfl rfl
      refine hserial.quiet rfl rfl (.inl ⟨rfl, rfl⟩) nofun ⟨hholder, ?_⟩
      exact iff_of_false (hserial.unlanded hnew) nofun
  | true =>
      simp only [Bool.not_true, Bool.false_eq_true, if_false] at hstep
      split at hstep
      · cases hstep
      · rename_i hfree
        obtain rfl := Option.some.inj hstep
        have hlocks : ledger.world.locks (.advance pid true) = some ⟨pid, job⟩ := by
          rw [World.locks, hphase]
        rw [hlocks, lands_none (by simp [hphase])]
        exact (List.append_nil ledger.landed).symm ▸
          hserial.acquire hphase (Option.not_isSome_iff_eq_none.mp hfree)

theorem locked_serial (hserial : Serial ktav roster target ledger) {ok : Bool} {job : Job}
    {world : World Pid Server} (hphase : ledger.world.phase pid = .locked job)
    (hstep : ledger.world.advance ktav roster pid ok = some world) :
    Serial ktav roster target
      ⟨world, ledger.locked ++ (ledger.world.locks (.advance pid ok)).toList,
        ledger.landed ++ (ledger.world.lands (.advance pid ok)).toList⟩ := by
  have hstands := hserial.stands pid
  unfold World.advance at hstep
  simp only [hphase] at hstep hstands
  obtain ⟨hholder, hlatest⟩ := hstands
  have hnot := hlatest.not_landed hserial.once
  refine Serial.silent ?_ (locks_none (by simp [hphase])) (lands_none (by simp [hphase]))
  split at hstep
  · obtain rfl := Option.some.inj hstep
    exact hserial.quiet rfl rfl (.inl ⟨rfl, rfl⟩) nofun ⟨hholder, iff_of_false hnot nofun⟩
  · split at hstep
    · rename_i report hdecide
      obtain rfl := Option.some.inj hstep
      refine hserial.quiet rfl rfl (.inl ⟨rfl, rfl⟩) nofun ⟨hholder, ?_⟩
      exact iff_of_false hnot (Bool.eq_false_iff.mp (decide_report hdecide))
    · rename_i text hdecide
      obtain rfl := Option.some.inj hstep
      exact hserial.quiet rfl rfl (.inl ⟨rfl, rfl⟩) nofun ⟨hholder, hlatest, hdecide⟩

theorem creating_serial (hserial : Serial ktav roster target ledger) {ok : Bool} {job : Job}
    {text : Bytes} {world : World Pid Server} (hphase : ledger.world.phase pid = .creating job text)
    (hstep : ledger.world.advance ktav roster pid ok = some world) :
    Serial ktav roster target
      ⟨world, ledger.locked ++ (ledger.world.locks (.advance pid ok)).toList,
        ledger.landed ++ (ledger.world.lands (.advance pid ok)).toList⟩ := by
  have hstands := hserial.stands pid
  unfold World.advance at hstep
  simp only [hphase] at hstep hstands
  obtain ⟨hholder, hlatest, hdecide⟩ := hstands
  refine Serial.silent ?_ (locks_none (by simp [hphase])) (lands_none (by simp [hphase]))
  split at hstep
  · obtain rfl := Option.some.inj hstep
    refine hserial.quiet rfl rfl (.inl ⟨rfl, rfl⟩) nofun ⟨hholder, ?_⟩
    exact iff_of_false (hlatest.not_landed hserial.once) nofun
  · obtain rfl := Option.some.inj hstep
    exact hserial.quiet rfl rfl (.inr ⟨hholder, .inl hholder⟩) nofun
      ⟨hholder, hlatest, hdecide⟩

theorem writing_serial (hserial : Serial ktav roster target ledger) {ok : Bool} {job : Job}
    {text : Bytes} {world : World Pid Server} (hphase : ledger.world.phase pid = .writing job text)
    (hstep : ledger.world.advance ktav roster pid ok = some world) :
    Serial ktav roster target
      ⟨world, ledger.locked ++ (ledger.world.locks (.advance pid ok)).toList,
        ledger.landed ++ (ledger.world.lands (.advance pid ok)).toList⟩ := by
  have hstands := hserial.stands pid
  unfold World.advance at hstep
  simp only [hphase] at hstep hstands
  obtain ⟨hholder, hlatest, hdecide⟩ := hstands
  refine Serial.silent ?_ (locks_none (by simp [hphase])) (lands_none (by simp [hphase]))
  split at hstep
  · obtain rfl := Option.some.inj hstep
    exact hserial.quiet rfl rfl (.inl ⟨rfl, rfl⟩) nofun
      ⟨hholder, nofun, hlatest.not_landed hserial.once⟩
  · obtain rfl := Option.some.inj hstep
    exact hserial.quiet rfl rfl (.inr ⟨hholder, .inl hholder⟩) nofun
      ⟨hholder, hlatest, hdecide, rfl⟩

theorem flushed_serial (hserial : Serial ktav roster target ledger) {ok : Bool} {job : Job}
    {text : Bytes} {world : World Pid Server} (hphase : ledger.world.phase pid = .flushed job text)
    (hstep : ledger.world.advance ktav roster pid ok = some world) :
    Serial ktav roster target
      ⟨world, ledger.locked ++ (ledger.world.locks (.advance pid ok)).toList,
        ledger.landed ++ (ledger.world.lands (.advance pid ok)).toList⟩ := by
  have hstands := hserial.stands pid
  unfold World.advance at hstep
  simp only [hphase] at hstep hstands
  obtain ⟨hholder, hlatest, hdecide, htmp⟩ := hstands
  cases ok with
  | false =>
      obtain rfl := Option.some.inj hstep
      refine Serial.silent ?_ rfl rfl
      exact hserial.quiet rfl rfl (.inl ⟨rfl, rfl⟩) nofun
        ⟨hholder, nofun, hlatest.not_landed hserial.once⟩
  | true =>
      obtain rfl := Option.some.inj hstep
      have hlands : ledger.world.lands (.advance pid true) = some ⟨pid, job⟩ := by
        rw [World.lands, hphase]
      rw [hlands, locks_none (by simp [hphase])]
      exact (List.append_nil ledger.locked).symm ▸ hserial.land hphase

theorem discarding_serial (hserial : Serial ktav roster target ledger) {ok : Bool}
    {reason : Failure} {world : World Pid Server}
    (hphase : ledger.world.phase pid = .discarding reason)
    (hstep : ledger.world.advance ktav roster pid ok = some world) :
    Serial ktav roster target
      ⟨world, ledger.locked ++ (ledger.world.locks (.advance pid ok)).toList,
        ledger.landed ++ (ledger.world.lands (.advance pid ok)).toList⟩ := by
  have hstands := hserial.stands pid
  unfold World.advance at hstep
  simp only [hphase] at hstep hstands
  obtain ⟨hholder, hreason, hnot⟩ := hstands
  refine Serial.silent ?_ (locks_none (by simp [hphase])) (lands_none (by simp [hphase]))
  obtain rfl := Option.some.inj hstep
  refine hserial.quiet rfl rfl (.inr ⟨hholder, .inl hholder⟩) nofun ⟨hholder, ?_⟩
  refine iff_of_false hnot fun hlanded => ?_
  cases reason with
  | sync => exact hreason rfl
  | _ => cases hlanded

theorem renamed_serial (hserial : Serial ktav roster target ledger) {ok : Bool}
    {world : World Pid Server} (hphase : ledger.world.phase pid = .renamed)
    (hstep : ledger.world.advance ktav roster pid ok = some world) :
    Serial ktav roster target
      ⟨world, ledger.locked ++ (ledger.world.locks (.advance pid ok)).toList,
        ledger.landed ++ (ledger.world.lands (.advance pid ok)).toList⟩ := by
  have hstands := hserial.stands pid
  unfold World.advance at hstep
  simp only [hphase] at hstep hstands
  obtain ⟨hholder, hlanded⟩ := hstands
  refine Serial.silent ?_ (locks_none (by simp [hphase])) (lands_none (by simp [hphase]))
  obtain rfl := Option.some.inj hstep
  refine hserial.quiet rfl rfl (.inl ⟨rfl, rfl⟩) nofun ⟨hholder, iff_of_true hlanded ?_⟩
  cases ok with
  | true => rfl
  | false => rfl

theorem leaving_serial (hserial : Serial ktav roster target ledger) {ok : Bool} {report : Report}
    {world : World Pid Server} (hphase : ledger.world.phase pid = .leaving report)
    (hstep : ledger.world.advance ktav roster pid ok = some world) :
    Serial ktav roster target
      ⟨world, ledger.locked ++ (ledger.world.locks (.advance pid ok)).toList,
        ledger.landed ++ (ledger.world.lands (.advance pid ok)).toList⟩ := by
  have hstands := hserial.stands pid
  unfold World.advance at hstep
  simp only [hphase] at hstep hstands
  obtain ⟨hholder, hreport⟩ := hstands
  refine Serial.silent ?_ (locks_none (by simp [hphase])) (lands_none (by simp [hphase]))
  obtain rfl := Option.some.inj hstep
  exact hserial.quiet rfl rfl (.inr ⟨hholder, .inr rfl⟩) nofun ⟨nofun, hreport⟩

theorem publishing_serial (hserial : Serial ktav roster target ledger) {ok : Bool} {report : Report}
    {world : World Pid Server} (hphase : ledger.world.phase pid = .publishing report)
    (hstep : ledger.world.advance ktav roster pid ok = some world) :
    Serial ktav roster target
      ⟨world, ledger.locked ++ (ledger.world.locks (.advance pid ok)).toList,
        ledger.landed ++ (ledger.world.lands (.advance pid ok)).toList⟩ := by
  have hstands := hserial.stands pid
  unfold World.advance at hstep
  simp only [hphase] at hstep hstands
  obtain ⟨hholder, hreport⟩ := hstands
  refine Serial.silent ?_ (locks_none (by simp [hphase])) (lands_none (by simp [hphase]))
  obtain rfl := Option.some.inj hstep
  cases hwork : roster pid with
  | initialise => exact hserial.quiet rfl rfl (.inl ⟨rfl, rfl⟩) nofun ⟨hholder, hreport⟩
  | command action => exact hserial.quiet rfl rfl (.inl ⟨rfl, rfl⟩) nofun ⟨hholder, hreport⟩
  | claim server name newHash =>
      exact hserial.quiet rfl rfl (.inl ⟨rfl, rfl⟩) nofun ⟨hholder, hreport⟩

theorem advance_serial (hserial : Serial ktav roster target ledger) {ok : Bool}
    {world : World Pid Server} (hstep : ledger.world.advance ktav roster pid ok = some world) :
    Serial ktav roster target
      ⟨world, ledger.locked ++ (ledger.world.locks (.advance pid ok)).toList,
        ledger.landed ++ (ledger.world.lands (.advance pid ok)).toList⟩ := by
  cases hphase : ledger.world.phase pid with
  | start => exact start_serial hserial hphase hstep
  | waiting job => exact waiting_serial hserial hphase hstep
  | locked job => exact locked_serial hserial hphase hstep
  | creating job text => exact creating_serial hserial hphase hstep
  | writing job text => exact writing_serial hserial hphase hstep
  | flushed job text => exact flushed_serial hserial hphase hstep
  | discarding reason => exact discarding_serial hserial hphase hstep
  | renamed => exact renamed_serial hserial hphase hstep
  | leaving report => exact leaving_serial hserial hphase hstep
  | publishing report => exact publishing_serial hserial hphase hstep
  | done report =>
      unfold World.advance at hstep
      simp only [hphase] at hstep
      cases hstep
  | dead =>
      unfold World.advance at hstep
      simp only [hphase] at hstep
      cases hstep

theorem step_serial (hserial : Serial ktav roster target ledger) {event : Event Pid Server}
    (hstep : ledger.step ktav roster event = some after) :
    Serial ktav roster target after := by
  obtain ⟨world, hworld, rfl⟩ := Option.map_eq_some_iff.mp hstep
  cases event with
  | boot server =>
      refine Serial.silent ?_ rfl rfl
      rw [World.step] at hworld
      split at hworld
      · cases hworld
      · obtain ⟨users, _, rfl⟩ := Option.map_eq_some_iff.mp hworld
        refine ⟨hserial.serial, hserial.ordered, hserial.once, hserial.jobs, hserial.waiting, ?_⟩
        exact fun other => (hserial.stands other).frame
          (fun hheld => ⟨hheld, rfl, rfl, rfl, rfl⟩) id Iff.rfl Iff.rfl
  | advance pid ok => exact advance_serial hserial hworld
  | wrote pid n =>
      refine Serial.silent ?_ rfl rfl
      rw [World.step] at hworld
      split at hworld
      · rename_i job text hphase
        obtain rfl := Option.some.inj hworld
        have hstands := hserial.stands pid
        rw [hphase] at hstands
        exact hserial.quiet (Function.update_eq_self_iff.mpr hphase.symm).symm rfl
          (.inr ⟨hstands.1, .inl hstands.1⟩) nofun hstands
      · cases hworld
  | crash pid =>
      refine Serial.silent ?_ rfl rfl
      obtain rfl := Option.some.inj hworld
      by_cases hheld : ledger.world.holder = some pid
      · have hnone : ledger.world.holder.filter (· ≠ pid) = none := by
          rw [hheld]
          simp
        exact hserial.quiet rfl rfl (.inr ⟨hheld, .inr hnone⟩) nofun (by
          change ledger.world.holder.filter (· ≠ pid) ≠ some pid
          rw [hnone]
          nofun)
      · have hkept : ledger.world.holder.filter (· ≠ pid) = ledger.world.holder := by
          cases hholder : ledger.world.holder with
          | none => rfl
          | some other =>
              have hother : other ≠ pid := fun h => hheld (hholder.trans (congrArg some h))
              simp [hother]
        exact hserial.quiet rfl rfl (.inl ⟨hkept, rfl⟩) nofun (by
          change ledger.world.holder.filter (· ≠ pid) ≠ some pid
          rw [hkept]
          exact hheld)

end

/-! Names stay apart. -/

def FileDistinct (ktav : Ktav) (file : Option Bytes) : Prop :=
  ∀ text users, file = some text → ktav.fromText text = some users → Distinct users

def Job.Tidy : Job → Prop
  | .claim _ _ (some fallbackUsers) => Distinct fallbackUsers
  | _ => True

def Phase.job? : Phase → Option Job
  | .waiting job | .locked job | .creating job _ | .writing job _ | .flushed job _ => some job
  | _ => none

structure Tidy (ktav : Ktav) (world : World Pid Server) : Prop where
  file : FileDistinct ktav world.target
  memory : ∀ server users, world.memory server = some users → Distinct users
  jobs : ∀ pid job, (world.phase pid).job? = some job → job.Tidy

section

variable {ktav : Ktav} {roster : Pid → Work Server} {target : Option Bytes}
  {ledger after : Ledger Pid Server} {world next : World Pid Server} {pid : Pid}

omit [DecidableEq Pid] [DecidableEq Server] in
theorem writable_distinct (hktav : ktav.Faithful) {users : List User} {text : Bytes}
    (hwritable : writable ktav users = .ok text) (hdistinct : Distinct users) :
    FileDistinct ktav (some text) := by
  rw [writable] at hwritable
  split at hwritable
  · cases hwritable
  · rename_i written hwritten
    cases hwritable
    intro same read hsame hread
    obtain rfl := Option.some.inj hsame
    obtain rfl := Option.some.inj ((hktav _ _ hwritten).symm.trans hread)
    exact hdistinct

omit [DecidableEq Pid] [DecidableEq Server] in
theorem decide_distinct (hktav : ktav.Faithful) {job : Job} (hjob : job.Tidy)
    {file : Option Bytes} (hfile : FileDistinct ktav file) {text : Bytes}
    (hdecide : job.decide ktav file = .ok text) : FileDistinct ktav (some text) := by
  unfold Job.decide at hdecide
  split at hdecide
  · cases hdecide
  · exact writable_distinct hktav hdecide List.nodup_nil
  · cases hdecide
  · split at hdecide
    · cases hdecide
    · rename_i fresh hfresh
      split at hdecide
      · cases hdecide
      · rename_i users hop
        exact writable_distinct hktav hdecide (applyOp_distinct (hfile _ _ rfl hfresh) hop)
  · cases hdecide
  · exact writable_distinct hktav hdecide hjob
  · split at hdecide
    · cases hdecide
    · rename_i disk hdisk
      split at hdecide
      · cases hdecide
      · rename_i user hfind
        split at hdecide
        · cases hdecide
        · exact writable_distinct hktav hdecide (setHash_distinct hfind (hfile _ _ rfl hdisk))

omit [DecidableEq Server] in
theorem Tidy.move (htidy : Tidy ktav world) {phase : Phase}
    (hphase : next.phase = Function.update world.phase pid phase)
    (hfile : FileDistinct ktav next.target)
    (hmemory : ∀ server users, next.memory server = some users → Distinct users)
    (hjob : ∀ job, phase.job? = some job → job.Tidy) : Tidy ktav next := by
  refine ⟨hfile, hmemory, fun other job hother => ?_⟩
  rw [hphase, Function.update_apply] at hother
  split at hother
  · exact hjob job hother
  · exact htidy.jobs other job hother

theorem publishHash_distinct {users : List User} (hdistinct : Distinct users) (index : Nat)
    (hash : String) : Distinct (publishHash users index hash) := by
  rw [Distinct, names_publishHash]
  exact hdistinct

omit [DecidableEq Pid] [DecidableEq Server] in
theorem prepare_tidy (htidy : Tidy ktav world) {work : Work Server} {phase : Phase}
    (hprepare : world.prepare ktav work = some phase) {job : Job} (hjob : phase.job? = some job) :
    job.Tidy := by
  cases work with
  | initialise =>
      rw [World.prepare] at hprepare
      split at hprepare
      · cases hprepare
        cases hjob
      · cases hprepare
        cases hjob
        trivial
  | command action =>
      obtain ⟨text, _, hphase⟩ := Option.map_eq_some_iff.mp hprepare
      split at hphase
      · cases hphase
        cases hjob
      · split at hphase
        · cases hphase
          cases hjob
        · cases hphase
          cases hjob
          trivial
  | claim server name newHash =>
      obtain ⟨users, husers, hphase⟩ := Option.map_eq_some_iff.mp hprepare
      split at hphase
      · cases hphase
        cases hjob
      · split at hphase
        · cases hphase
          cases hjob
        · cases hphase
          cases hjob
          split
          · trivial
          · exact publishHash_distinct (htidy.memory server users husers) _ _

omit [DecidableEq Pid] in
theorem publish_distinct (htidy : Tidy ktav world) (work : Work Server) (report : Report)
    (server : Server) (users : List User)
    (husers : (world.publish work report).memory server = some users) : Distinct users := by
  cases work with
  | initialise => exact htidy.memory server users husers
  | command action => exact htidy.memory server users husers
  | claim claimed name newHash =>
      rw [World.publish] at husers
      dsimp only at husers
      rw [Function.update_apply] at husers
      split at husers
      · obtain ⟨before, hbefore, rfl⟩ := Option.map_eq_some_iff.mp husers
        have hdistinct := htidy.memory claimed before hbefore
        split
        · exact hdistinct
        · exact publishHash_distinct hdistinct _ _
      · exact htidy.memory server users husers

theorem advance_tidy (hktav : ktav.Faithful) (htidy : Tidy ktav ledger.world)
    (hserial : Serial ktav roster target ledger) {ok : Bool}
    (hstep : ledger.world.advance ktav roster pid ok = some next) : Tidy ktav next := by
  have hstands := hserial.stands pid
  have hkept := htidy.jobs pid
  unfold World.advance at hstep
  cases hphase : ledger.world.phase pid with
  | start =>
      simp only [hphase] at hstep
      split at hstep
      · obtain ⟨phase, hprepare, rfl⟩ := Option.map_eq_some_iff.mp hstep
        exact htidy.move rfl htidy.file htidy.memory fun job => prepare_tidy htidy hprepare
      · obtain rfl := Option.some.inj hstep
        exact htidy.move rfl htidy.file htidy.memory nofun
  | waiting job =>
      simp only [hphase] at hstep hkept
      split at hstep
      · obtain rfl := Option.some.inj hstep
        exact htidy.move rfl htidy.file htidy.memory nofun
      · split at hstep
        · cases hstep
        · obtain rfl := Option.some.inj hstep
          exact htidy.move rfl htidy.file htidy.memory hkept
  | locked job =>
      simp only [hphase] at hstep hkept
      split at hstep
      · obtain rfl := Option.some.inj hstep
        exact htidy.move rfl htidy.file htidy.memory nofun
      · split at hstep
        · obtain rfl := Option.some.inj hstep
          exact htidy.move rfl htidy.file htidy.memory nofun
        · obtain rfl := Option.some.inj hstep
          exact htidy.move rfl htidy.file htidy.memory hkept
  | creating job text =>
      simp only [hphase] at hstep hkept
      split at hstep
      · obtain rfl := Option.some.inj hstep
        exact htidy.move rfl htidy.file htidy.memory nofun
      · obtain rfl := Option.some.inj hstep
        exact htidy.move rfl htidy.file htidy.memory hkept
  | writing job text =>
      simp only [hphase] at hstep hkept
      split at hstep
      · obtain rfl := Option.some.inj hstep
        exact htidy.move rfl htidy.file htidy.memory nofun
      · obtain rfl := Option.some.inj hstep
        exact htidy.move rfl htidy.file htidy.memory hkept
  | flushed job text =>
      simp only [hphase] at hstep hkept hstands
      obtain ⟨_, _, hdecide, htmp⟩ := hstands
      split at hstep
      · obtain rfl := Option.some.inj hstep
        exact htidy.move rfl htidy.file htidy.memory nofun
      · obtain rfl := Option.some.inj hstep
        refine htidy.move rfl ?_ htidy.memory nofun
        change FileDistinct ktav ledger.world.tmp
        rw [htmp]
        exact decide_distinct hktav (hkept job rfl) htidy.file hdecide
  | discarding reason =>
      simp only [hphase] at hstep
      obtain rfl := Option.some.inj hstep
      exact htidy.move rfl htidy.file htidy.memory nofun
  | renamed =>
      simp only [hphase] at hstep
      obtain rfl := Option.some.inj hstep
      exact htidy.move rfl htidy.file htidy.memory nofun
  | leaving report =>
      simp only [hphase] at hstep
      obtain rfl := Option.some.inj hstep
      exact htidy.move rfl htidy.file htidy.memory nofun
  | publishing report =>
      simp only [hphase] at hstep
      obtain rfl := Option.some.inj hstep
      refine @Tidy.move _ _ _ ktav _ _ pid htidy (.done report) ?_ ?_
        (publish_distinct htidy (roster pid) report) nofun
      · cases hwork : roster pid with
        | initialise => rfl
        | command action => rfl
        | claim server name newHash => rfl
      · cases hwork : roster pid with
        | initialise => exact htidy.file
        | command action => exact htidy.file
        | claim server name newHash => exact htidy.file
  | done report =>
      simp only [hphase] at hstep
      cases hstep
  | dead =>
      simp only [hphase] at hstep
      cases hstep

theorem step_tidy (hktav : ktav.Faithful) (htidy : Tidy ktav ledger.world)
    (hserial : Serial ktav roster target ledger) {event : Event Pid Server}
    (hstep : ledger.step ktav roster event = some after) : Tidy ktav after.world := by
  obtain ⟨world, hworld, rfl⟩ := Option.map_eq_some_iff.mp hstep
  cases event with
  | boot server =>
      rw [World.step] at hworld
      split at hworld
      · cases hworld
      · obtain ⟨users, hload, rfl⟩ := Option.map_eq_some_iff.mp hworld
        obtain ⟨text, htext, hread⟩ := Option.bind_eq_some_iff.mp hload
        refine ⟨htidy.file, fun other loaded hloaded => ?_, htidy.jobs⟩
        dsimp only at hloaded
        rw [Function.update_apply] at hloaded
        split at hloaded
        · obtain rfl := Option.some.inj hloaded
          exact htidy.file text users htext hread
        · exact htidy.memory other loaded hloaded
  | advance pid ok => exact advance_tidy hktav htidy hserial hworld
  | wrote pid n =>
      rw [World.step] at hworld
      split at hworld
      · obtain rfl := Option.some.inj hworld
        exact ⟨htidy.file, htidy.memory, htidy.jobs⟩
      · cases hworld
  | crash pid =>
      obtain rfl := Option.some.inj hworld
      exact htidy.move rfl htidy.file htidy.memory nofun

end

/-! Every update is in the file, in the order of the locks. -/

/-- A claim on a file that is there: it stays as it is, or one user has another hash, who was
still unclaimed. -/
def ClaimsOne (ktav : Ktav) (name newHash : String) (text : Bytes) (after : Option Bytes) : Prop :=
  after = some text ∨ ∃ before user behind text',
    ktav.fromText text = some (before ++ user :: behind) ∧
      (∀ other ∈ before, other.name ≠ name) ∧ user.name = name ∧ user.hash = initHash ∧
      after = some text' ∧
      ktav.fromText text' = some (before ++ { user with hash := newHash } :: behind)

/-- `target` is the file before anybody ran. -/
structure NoLostUpdate (ktav : Ktav) (roster : Pid → Work Server) (target : Option Bytes)
    (ledger : Ledger Pid Server) : Prop where
  serial : ledger.world.target =
    ledger.landed.foldl (fun target txn => txn.job.perform ktav target) target
  ordered : ledger.landed.Sublist ledger.locked
  once : (pids ledger.locked).Nodup
  jobs : ∀ txn ∈ ledger.locked, Serves (roster txn.pid) txn.job
  reported : ∀ pid report, ledger.world.phase pid = .done report →
    (pid ∈ pids ledger.landed ↔ report.landed = true)
  distinct : FileDistinct ktav target → FileDistinct ktav ledger.world.target
  claims : ∀ front txn behind, ledger.landed = front ++ txn :: behind →
    ∀ server name newHash, roster txn.pid = .claim server name newHash → ∀ text,
      front.foldl (fun target txn => txn.job.perform ktav target) target = some text →
      ClaimsOne ktav name newHash text (txn.job.perform ktav (some text))

theorem decide_claim (ktav : Ktav) (name newHash : String) (fallbackUsers : Option (List User))
    (text : Bytes) : (Job.claim name newHash fallbackUsers).decide ktav (some text) =
      match ktav.fromText text with
      | none => .error (.failed .read)
      | some disk =>
        match findUser name disk with
        | none => .error (.failed .userRemoved)
        | some user =>
          if user.hash ≠ initHash then .error (.hashChanged user.hash)
          else writable ktav (setHash name newHash disk) := by
  cases fallbackUsers with
  | none => rfl
  | some users => rfl

theorem perform_claim {ktav : Ktav} (hktav : ktav.Faithful) (name newHash : String)
    (fallbackUsers : Option (List User)) (text : Bytes) :
    ClaimsOne ktav name newHash text
      ((Job.claim name newHash fallbackUsers).perform ktav (some text)) := by
  rw [Job.perform]
  split
  · rename_i written hdecide
    rw [decide_claim] at hdecide
    split at hdecide
    · cases hdecide
    · rename_i disk hdisk
      split at hdecide
      · cases hdecide
      · rename_i user hfind
        split at hdecide
        · cases hdecide
        · rename_i hinit
          obtain ⟨before, behind, hsplit, hname, hbefore, hset⟩ := setHash_split newHash hfind
          rw [writable] at hdecide
          split at hdecide
          · cases hdecide
          · rename_i text' htext
            cases hdecide
            refine .inr ⟨before, user, behind, written, ?_, hbefore, hname, not_not.mp hinit, rfl, ?_⟩
            · rw [hdisk, hsplit]
            · rw [← hset]
              exact hktav _ _ htext
  · exact .inl rfl

/-- A claim under the lock is the `persist_claim` of the concurrent verifications. -/
theorem claim_persists {ktav : Ktav} (hktav : ktav.Faithful) {name newHash : String}
    {fallbackUsers : Option (List User)} {text written : Bytes} {disk : List User}
    (hdisk : ktav.fromText text = some disk)
    (hdecide : (Job.claim name newHash fallbackUsers).decide ktav (some text) = .ok written) :
    ∃ after, ktav.fromText written = some after ∧
      persistClaim {} (some disk) name newHash fallbackUsers = (.written, some after) := by
  rw [decide_claim, hdisk] at hdecide
  dsimp only at hdecide
  split at hdecide
  · cases hdecide
  · rename_i user hfind
    split at hdecide
    · cases hdecide
    · rename_i hinit
      rw [writable] at hdecide
      split at hdecide
      · cases hdecide
      · rename_i text' htext
        cases hdecide
        refine ⟨setHash name newHash disk, hktav _ _ htext, ?_⟩
        simp [persistClaim, hfind, hinit, commitClaim, WriteOutcome.reported, writeAtomic]

/-- Whatever runs, in whatever order, and wherever it fails or is killed. -/
theorem users_file_serial (ktav : Ktav) (hktav : ktav.Faithful) (roster : Pid → Work Server)
    (target tmp : Option Bytes) {events : List (Event Pid Server)} {ledger : Ledger Pid Server}
    (hrun : run (Ledger.step ktav roster) ⟨World.fresh target tmp, [], []⟩ events = some ledger) :
    NoLostUpdate ktav roster target ledger := by
  have hstart : Serial ktav roster target
      (⟨World.fresh target tmp, [], []⟩ : Ledger Pid Server) :=
    ⟨rfl, List.Sublist.refl _, List.nodup_nil, nofun, nofun, fun _ => ⟨nofun, List.not_mem_nil⟩⟩
  have hserial := run_preserves (fun _ _ _ hstep hbefore => step_serial hbefore hstep) hrun hstart
  refine ⟨hserial.serial, hserial.ordered, hserial.once, hserial.jobs, ?_, fun hfile => ?_, ?_⟩
  · intro pid report hphase
    have hstands := hserial.stands pid
    rw [hphase] at hstands
    exact hstands.2
  · have htidy : Tidy ktav (World.fresh target tmp : World Pid Server) :=
      ⟨hfile, nofun, nofun⟩
    have hboth := run_preserves
      (fun _ _ _ hstep (hbefore : Serial ktav roster target _ ∧ Tidy ktav _) =>
        ⟨step_serial hbefore.1 hstep, step_tidy hktav hbefore.2 hbefore.1 hstep⟩)
      hrun ⟨hstart, htidy⟩
    exact hboth.2.file
  · intro front txn behind hlanded server name newHash hwork text _
    have hmem : txn ∈ ledger.locked := hserial.ordered.subset (by rw [hlanded]; simp)
    have hserves := hserial.jobs txn hmem
    rw [hwork] at hserves
    obtain ⟨fallbackUsers, hjob⟩ := hserves
    rw [hjob]
    exact perform_claim hktav name newHash fallbackUsers text

/-- Three contents of a file: a new user, beside whom another is added, and who then logs in. -/
def sampleUsers : List (List User) :=
  let alice : User := ⟨"alice", initHash, true, false, none⟩
  let bob : User := ⟨"bob", initHash, true, false, none⟩
  [[alice], [alice, bob], [{ alice with hash := "$argon2id$1" }, bob]]

def sampleText (users : List User) : Bytes :=
  lit "users: [\n" ++
    users.flatMap (fun user => lit "    \x7b\n        name: " ++ utf8 user.name ++
      lit "\n        hash: " ++ utf8 user.hash ++ lit "\n        is_enabled: true\n" ++
      lit "        direct: false\n    \x7d\n") ++
    lit "]\n"

def sampleKtav : Ktav where
  toText users := if users ∈ sampleUsers then some (sampleText users) else none
  fromText text := sampleUsers.find? fun users => sampleText users = text

theorem sampleKtav_faithful : sampleKtav.Faithful := by
  intro users text htext
  simp only [sampleKtav] at htext
  split at htext
  · rename_i hmem
    obtain rfl := Option.some.inj htext
    revert users
    decide +kernel
  · cases htext

def sampleRoster (pid : Nat) : Work Unit :=
  if pid = 0 then .claim () "alice" "$argon2id$1" else .command (.addInit "bob")

def sampleEvents : List (Event Nat Unit) :=
  [.boot (), .advance 0 true] ++ List.replicate 9 (.advance 1 true) ++
    List.replicate 8 (.advance 0 true)

theorem users_file_serial_claim :
    ∃ ledger, run (Ledger.step sampleKtav sampleRoster)
        ⟨World.fresh (some (sampleText (sampleUsers.getD 0 []))) none, [], []⟩ sampleEvents =
          some ledger ∧
      ledger.world.target = some (sampleText (sampleUsers.getD 2 [])) ∧
      NoLostUpdate sampleKtav sampleRoster (some (sampleText (sampleUsers.getD 0 []))) ledger := by
  have hends : (run (Ledger.step sampleKtav sampleRoster)
      ⟨World.fresh (some (sampleText (sampleUsers.getD 0 []))) none, [], []⟩ sampleEvents).map
        (·.world.target) = some (some (sampleText (sampleUsers.getD 2 []))) := by
    decide +kernel
  obtain ⟨ledger, hrun, htarget⟩ := Option.map_eq_some_iff.mp hends
  exact ⟨ledger, hrun, htarget,
    users_file_serial sampleKtav sampleKtav_faithful sampleRoster _ none hrun⟩

end Resocks5.Users
