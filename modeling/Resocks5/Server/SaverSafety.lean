import Resocks5.Foundation.Permits
import Resocks5.Server.HealthSaver

namespace Resocks5.Server

open Resocks5.Foundation

/-! The health file is whole as long as nobody leaves a save behind. -/

def Saver.holds : Saver → Bool
  | .cleaning _ | .waiting _ _ | .saving _ _ _ | .savingFinal => true
  | _ => false

def Saver.saves : Saver → Bool
  | .saving _ _ _ | .savingFinal => true
  | _ => false

theorem Saver.holds_of_saves {saver : Saver} (hsaves : saver.saves = true) :
    saver.holds = true := by
  cases saver <;> first | rfl | cases hsaves

def Writer.busy : Writer → Bool
  | .idle | .ended _ => false
  | _ => true

def Writer.opens : Writer → Bool
  | .writing _ _ | .flushed _ _ => true
  | _ => false

theorem Writer.busy_of_opens {writer : Writer} (hopens : writer.opens = true) :
    writer.busy = true := by
  cases writer <;> first | rfl | cases hopens

variable {Pid : Type} [DecidableEq Pid]

namespace HealthWorld

/-- One process has the lock, and only a process that has it saves. -/
structure Locked (world : HealthWorld Pid) : Prop where
  owned : Owned (fun pid => (world.saver pid).holds) world.holder
  busy : ∀ pid, (world.writer pid).busy = true → (world.saver pid).saves = true

/-- The file is what landed last, and the temporary belongs to the open save. -/
structure Stored (initial : Option Bytes) (world : HealthWorld Pid) (landed : List Bytes) :
    Prop where
  target : ∀ node, world.target = some node → node < world.unused ∧ world.tmp ≠ some node
  tmp : ∀ node, world.tmp = some node → node < world.unused
  writing : ∀ pid node text, world.writer pid = .writing node text → world.tmp = some node
  flushed : ∀ pid node text, world.writer pid = .flushed node text →
    world.tmp = some node ∧ world.content node = text
  kept : world.file = landed.getLast?.or initial

variable {world next : HealthWorld Pid} {pid other : Pid}

omit [DecidableEq Pid] in
theorem Locked.holds (hlocked : world.Locked) (hbusy : (world.writer pid).busy = true) :
    (world.saver pid).holds = true :=
  Saver.holds_of_saves (hlocked.busy pid hbusy)

omit [DecidableEq Pid] in
theorem Locked.alone (hlocked : world.Locked) (hholds : (world.saver pid).holds = true)
    (hbusy : (world.writer other).busy = true) : other = pid :=
  hlocked.owned.unique (hlocked.holds hbusy) hholds

omit [DecidableEq Pid] in
theorem Locked.unopened (hlocked : world.Locked) (hholds : (world.saver pid).holds = true)
    (hclosed : (world.writer pid).opens = false) (other : Pid) :
    (world.writer other).opens = false := by
  by_contra hopens
  rw [Bool.not_eq_false] at hopens
  obtain rfl := hlocked.alone hholds (Writer.busy_of_opens hopens)
  rw [hclosed] at hopens
  cases hopens

theorem Locked.setSaver (hlocked : world.Locked) {saver : Saver}
    (hholds : saver.holds = (world.saver pid).holds)
    (hsaves : (world.writer pid).busy = true → saver.saves = true) :
    (world.setSaver pid saver).Locked where
  owned := by
    have hsame : (fun other => ((world.setSaver pid saver).saver other).holds) =
        fun other => (world.saver other).holds := by
      funext other
      obtain rfl | hother := eq_or_ne other pid
      · dsimp only [HealthWorld.setSaver]
        rw [Function.update_self, hholds]
      · dsimp only [HealthWorld.setSaver]
        rw [Function.update_of_ne hother]
    rw [hsame]
    exact hlocked.owned
  busy := by
    intro other hbusy
    obtain rfl | hother := eq_or_ne other pid
    · dsimp only [HealthWorld.setSaver]
      rw [Function.update_self]
      exact hsaves hbusy
    · dsimp only [HealthWorld.setSaver]
      rw [Function.update_of_ne hother]
      exact hlocked.busy other hbusy

theorem Locked.setWriter (hlocked : world.Locked) {writer : Writer}
    (hbusy : writer.busy = true → (world.saver pid).saves = true) :
    (world.setWriter pid writer).Locked where
  owned := hlocked.owned
  busy := by
    intro other hother
    dsimp only [HealthWorld.setWriter] at hother ⊢
    obtain rfl | hne := eq_or_ne other pid
    · rw [Function.update_self] at hother
      exact hbusy hother
    · rw [Function.update_of_ne hne] at hother
      exact hlocked.busy other hother

theorem Locked.unlock (hlocked : world.Locked) {saver : Saver} (hgone : saver.holds = false)
    (hidle : (world.writer pid).busy = false) : (world.unlock pid saver).Locked where
  owned := by
    refine hlocked.owned.release (t := pid) ?_ fun other hother => ?_
    · dsimp only [HealthWorld.unlock, HealthWorld.setSaver]
      rw [Function.update_self, hgone]
    · dsimp only [HealthWorld.unlock, HealthWorld.setSaver]
      rw [Function.update_of_ne hother]
  busy := by
    intro other hbusy
    dsimp only [HealthWorld.unlock, HealthWorld.setSaver] at hbusy ⊢
    obtain rfl | hother := eq_or_ne other pid
    · rw [hidle] at hbusy
      cases hbusy
    · rw [Function.update_of_ne hother]
      exact hlocked.busy other hbusy

theorem Stored.setSaver {initial : Option Bytes} {landed : List Bytes}
    (hstored : world.Stored initial landed) (saver : Saver) :
    (world.setSaver pid saver).Stored initial landed :=
  ⟨hstored.target, hstored.tmp, hstored.writing, hstored.flushed, hstored.kept⟩

theorem Stored.unlock {initial : Option Bytes} {landed : List Bytes}
    (hstored : world.Stored initial landed) (saver : Saver) :
    (world.unlock pid saver).Stored initial landed :=
  ⟨hstored.target, hstored.tmp, hstored.writing, hstored.flushed, hstored.kept⟩

theorem Stored.setWriter {initial : Option Bytes} {landed : List Bytes}
    (hstored : world.Stored initial landed) {writer : Writer} (hclosed : writer.opens = false) :
    (world.setWriter pid writer).Stored initial landed where
  target := hstored.target
  tmp := hstored.tmp
  writing := by
    intro other node text hopen
    dsimp only [HealthWorld.setWriter] at hopen
    obtain rfl | hother := eq_or_ne other pid
    · rw [Function.update_self] at hopen
      rw [hopen] at hclosed
      cases hclosed
    · rw [Function.update_of_ne hother] at hopen
      exact hstored.writing other node text hopen
  flushed := by
    intro other node text hopen
    dsimp only [HealthWorld.setWriter] at hopen
    obtain rfl | hother := eq_or_ne other pid
    · rw [Function.update_self] at hopen
      rw [hopen] at hclosed
      cases hclosed
    · rw [Function.update_of_ne hother] at hopen
      exact hstored.flushed other node text hopen
  kept := hstored.kept

omit [DecidableEq Pid] in
theorem Stored.replace {initial : Option Bytes} {landed : List Bytes}
    (hstored : world.Stored initial landed)
    (hunopened : ∀ other, (world.writer other).opens = false) {tmp : Option Nat}
    (hfresh : ∀ node, tmp = some node → node < world.unused ∧ world.target ≠ some node) :
    ({ world with tmp } : HealthWorld Pid).Stored initial landed where
  target := fun node htarget =>
    ⟨(hstored.target node htarget).1, fun htmp => (hfresh node htmp).2 htarget⟩
  tmp := fun node htmp => (hfresh node htmp).1
  writing := by
    intro other node text hopen
    have hclosed := hunopened other
    dsimp only at hopen
    rw [hopen] at hclosed
    cases hclosed
  flushed := by
    intro other node text hopen
    have hclosed := hunopened other
    dsimp only at hopen
    rw [hopen] at hclosed
    cases hclosed
  kept := hstored.kept

omit [DecidableEq Pid] in
theorem file_update {node : Nat} {text : Bytes} (hother : world.target ≠ some node)
    {after : HealthWorld Pid} (htarget : after.target = world.target)
    (hcontent : after.content = Function.update world.content node text) :
    after.file = world.file := by
  rw [HealthWorld.file, HealthWorld.file, htarget, hcontent]
  cases hsome : world.target with
  | none => rfl
  | some other =>
      rw [Option.map_some, Option.map_some, Function.update_of_ne]
      rintro rfl
      exact hother hsome

omit [DecidableEq Pid] in
theorem Stored.write {initial : Option Bytes} {landed : List Bytes}
    (hstored : world.Stored initial landed) {node : Nat} (hopen : world.tmp = some node)
    (halone : ∀ other text, world.writer other ≠ .flushed node text) (part : Bytes) :
    ({ world with content := Function.update world.content node part } :
      HealthWorld Pid).Stored initial landed where
  target := hstored.target
  tmp := hstored.tmp
  writing := hstored.writing
  flushed := by
    intro other flushed whole hwhole
    obtain ⟨htmp, _⟩ := hstored.flushed other flushed whole hwhole
    obtain rfl : flushed = node := Option.some.inj (htmp.symm.trans hopen)
    exact absurd hwhole (halone other whole)
  kept := by
    have hother : world.target ≠ some node := fun htarget => (hstored.target node htarget).2 hopen
    have hsame : ({ world with content := Function.update world.content node part } :
        HealthWorld Pid).file = world.file := file_update hother rfl rfl
    exact hsame.trans hstored.kept

theorem Stored.open {initial : Option Bytes} {landed : List Bytes}
    (hstored : world.Stored initial landed)
    (hothers : ∀ other, other ≠ pid → (world.writer other).opens = false) {writer : Writer}
    (hwriting : ∀ node text, writer = .writing node text → world.tmp = some node)
    (hflushed : ∀ node text, writer = .flushed node text →
      world.tmp = some node ∧ world.content node = text) :
    (world.setWriter pid writer).Stored initial landed where
  target := hstored.target
  tmp := hstored.tmp
  writing := by
    intro other node text hopen
    dsimp only [HealthWorld.setWriter] at hopen
    obtain rfl | hother := eq_or_ne other pid
    · rw [Function.update_self] at hopen
      exact hwriting node text hopen
    · rw [Function.update_of_ne hother] at hopen
      exact hstored.writing other node text hopen
  flushed := by
    intro other node text hopen
    dsimp only [HealthWorld.setWriter] at hopen
    obtain rfl | hother := eq_or_ne other pid
    · rw [Function.update_self] at hopen
      exact hflushed node text hopen
    · rw [Function.update_of_ne hother] at hopen
      exact hstored.flushed other node text hopen
  kept := hstored.kept

omit [DecidableEq Pid] in
theorem Stored.create {initial : Option Bytes} {landed : List Bytes}
    (hstored : world.Stored initial landed)
    (hunopened : ∀ other, (world.writer other).opens = false) :
    ({ world with
      content := Function.update world.content world.unused []
      unused := world.unused + 1
      tmp := some world.unused } : HealthWorld Pid).Stored initial landed where
  target := by
    intro node htarget
    have hlt := (hstored.target node htarget).1
    exact ⟨Nat.lt_succ_of_lt hlt, fun heq => Nat.ne_of_lt hlt (Option.some.inj heq).symm⟩
  tmp := fun node heq => Option.some.inj heq ▸ Nat.lt_succ_self _
  writing := by
    intro other node text hopen
    have hclosed := hunopened other
    dsimp only at hopen
    rw [hopen] at hclosed
    cases hclosed
  flushed := by
    intro other node text hopen
    have hclosed := hunopened other
    dsimp only at hopen
    rw [hopen] at hclosed
    cases hclosed
  kept := by
    have hother : world.target ≠ some world.unused := fun htarget =>
      Nat.lt_irrefl _ (hstored.target _ htarget).1
    have hsame : ({ world with
        content := Function.update world.content world.unused []
        unused := world.unused + 1
        tmp := some world.unused } : HealthWorld Pid).file = world.file :=
      file_update hother rfl rfl
    exact hsame.trans hstored.kept

theorem Stored.rename {initial : Option Bytes} {landed : List Bytes}
    (hstored : world.Stored initial landed)
    (hothers : ∀ other, other ≠ pid → (world.writer other).opens = false) {node : Nat}
    {text : Bytes} (hflushed : world.writer pid = .flushed node text) :
    ({ world with target := world.tmp, tmp := none }.setWriter pid .renamed).Stored initial
      (landed ++ [text]) := by
  obtain ⟨htmp, hcontent⟩ := hstored.flushed pid node text hflushed
  have hclosed : ∀ other, ((world.setWriter pid .renamed).writer other).opens = false := by
    intro other
    dsimp only [HealthWorld.setWriter]
    obtain rfl | hother := eq_or_ne other pid
    · rw [Function.update_self]
      rfl
    · rw [Function.update_of_ne hother]
      exact hothers other hother
  refine ⟨fun n hn => ⟨hstored.tmp n hn, Option.some_ne_none n ∘ Eq.symm⟩,
    fun n hnone => absurd hnone.symm (Option.some_ne_none n), fun other n whole hopen => ?_,
    fun other n whole hopen => ?_, ?_⟩
  · have hno := hclosed other
    change (world.setWriter pid .renamed).writer other = _ at hopen
    rw [hopen] at hno
    cases hno
  · have hno := hclosed other
    change (world.setWriter pid .renamed).writer other = _ at hopen
    rw [hopen] at hno
    cases hno
  · change world.tmp.map world.content = _
    rw [htmp, Option.map_some, hcontent, List.getLast?_concat, Option.some_or]

theorem Stored.work {initial : Option Bytes} {landed : List Bytes}
    (hstored : world.Stored initial landed) (hlocked : world.Locked) {ok : Bool}
    (hstep : world.work pid ok = some next) :
    next.Stored initial (landed ++ (world.lands (.work pid ok)).toList) := by
  have hunlanded : (∀ node text, world.writer pid ≠ .flushed node text) →
      landed ++ (world.lands (.work pid ok)).toList = landed := by
    intro hother
    rw [HealthWorld.lands.eq_def]
    cases ok with
    | false => exact List.append_nil _
    | true =>
        dsimp only
        split
        · rename_i node text hflushed
          exact absurd hflushed (hother node text)
        · exact List.append_nil _
  have hothers : (world.writer pid).busy = true →
      ∀ other, other ≠ pid → (world.writer other).opens = false := by
    intro hbusy other hother
    by_contra hopens
    rw [Bool.not_eq_false] at hopens
    exact hother (hlocked.alone (hlocked.holds hbusy) (Writer.busy_of_opens hopens))
  have hunopened : (world.writer pid).busy = true → (world.writer pid).opens = false →
      ∀ other, (world.writer other).opens = false :=
    fun hbusy hclosed => hlocked.unopened (hlocked.holds hbusy) hclosed
  rw [HealthWorld.work.eq_def] at hstep
  split at hstep
  · rename_i text hwriter
    rw [hunlanded fun node text hflushed => by rw [hwriter] at hflushed; cases hflushed]
    split at hstep
    · obtain rfl := Option.some.inj hstep
      exact hstored.setWriter rfl
    · obtain rfl := Option.some.inj hstep
      refine (hstored.replace (hunopened (by rw [hwriter]; rfl) (by rw [hwriter]; rfl))
        fun node hnone => by cases hnone).setWriter rfl
  · rename_i hwriter
    rw [hunlanded fun node text hflushed => by rw [hwriter] at hflushed; cases hflushed]
    obtain rfl := Option.some.inj hstep
    exact hstored.setWriter rfl
  · rename_i text hwriter
    rw [hunlanded fun node text hflushed => by rw [hwriter] at hflushed; cases hflushed]
    split at hstep
    · obtain rfl := Option.some.inj hstep
      exact hstored.setWriter rfl
    · obtain rfl := Option.some.inj hstep
      have hclosed := hunopened (by rw [hwriter]; rfl) (by rw [hwriter]; rfl)
      refine (hstored.create hclosed).open (fun other _ => hclosed other) ?_ ?_
      · intro node whole heq
        rw [(Writer.writing.inj heq).1]
      · exact fun node whole heq => by cases heq
  · rename_i node text hwriter
    rw [hunlanded fun node text hflushed => by rw [hwriter] at hflushed; cases hflushed]
    split at hstep
    · obtain rfl := Option.some.inj hstep
      have hbusy : (world.writer pid).busy = true := by rw [hwriter]; rfl
      have hopen := hstored.writing pid node text hwriter
      have halone : ∀ other whole, world.writer other ≠ .flushed node whole := by
        intro other whole hflushed
        obtain rfl | hother := eq_or_ne other pid
        · rw [hwriter] at hflushed
          cases hflushed
        · have hclosed := hothers hbusy other hother
          rw [hflushed] at hclosed
          cases hclosed
      refine (hstored.write hopen halone text).open (hothers hbusy) ?_ ?_
      · exact fun other whole heq => by cases heq
      · intro other whole heq
        obtain ⟨rfl, rfl⟩ := Writer.flushed.inj heq
        exact ⟨hopen, Function.update_self _ _ _⟩
    · obtain rfl := Option.some.inj hstep
      exact hstored.setWriter rfl
  · rename_i node text hwriter
    have hbusy : (world.writer pid).busy = true := by rw [hwriter]; rfl
    obtain ⟨htmp, _⟩ := hstored.flushed pid node text hwriter
    rw [HealthWorld.lands.eq_def]
    cases ok with
    | false =>
        obtain rfl := Option.some.inj hstep
        dsimp only
        rw [Option.toList_none, List.append_nil]
        exact hstored.setWriter rfl
    | true =>
        dsimp only
        rw [hwriter]
        dsimp only
        have hsome : world.tmp.isSome = true := by rw [htmp]; rfl
        rw [if_pos hsome, Option.toList_some]
        rw [if_neg (by simp [htmp])] at hstep
        obtain rfl := Option.some.inj hstep
        exact hstored.rename (hothers hbusy) hwriter
  · rename_i hwriter
    rw [hunlanded fun node text hflushed => by rw [hwriter] at hflushed; cases hflushed]
    obtain rfl := Option.some.inj hstep
    refine (hstored.replace (hunopened (by rw [hwriter]; rfl) (by rw [hwriter]; rfl))
      fun node hsome => ?_).setWriter rfl
    split at hsome
    · cases hsome
    · exact ⟨hstored.tmp node hsome, fun htarget => (hstored.target node htarget).2 hsome⟩
  · rename_i hwriter
    rw [hunlanded fun node text hflushed => by rw [hwriter] at hflushed; cases hflushed]
    obtain rfl := Option.some.inj hstep
    exact hstored.setWriter rfl
  · cases hstep
  · cases hstep

theorem work_moves {ok : Bool} (hstep : world.work pid ok = some next) :
    (world.writer pid).busy = true ∧ next.saver = world.saver ∧ next.holder = world.holder ∧
      ∃ writer, next.writer = Function.update world.writer pid writer := by
  rw [HealthWorld.work.eq_def] at hstep
  cases hwriter : world.writer pid with
  | reclaiming text =>
      rw [hwriter] at hstep
      dsimp only at hstep
      split at hstep <;> cases hstep <;> exact ⟨rfl, rfl, rfl, _, rfl⟩
  | creating text =>
      rw [hwriter] at hstep
      cases text with
      | none => cases hstep; exact ⟨rfl, rfl, rfl, _, rfl⟩
      | some text =>
          dsimp only at hstep
          split at hstep <;> cases hstep <;> exact ⟨rfl, rfl, rfl, _, rfl⟩
  | writing node text =>
      rw [hwriter] at hstep
      dsimp only at hstep
      split at hstep <;> cases hstep <;> exact ⟨rfl, rfl, rfl, _, rfl⟩
  | flushed node text =>
      rw [hwriter] at hstep
      dsimp only at hstep
      split at hstep <;> cases hstep <;> exact ⟨rfl, rfl, rfl, _, rfl⟩
  | discarding =>
      rw [hwriter] at hstep
      cases hstep
      exact ⟨rfl, rfl, rfl, _, rfl⟩
  | renamed =>
      rw [hwriter] at hstep
      cases hstep
      exact ⟨rfl, rfl, rfl, _, rfl⟩
  | idle =>
      rw [hwriter] at hstep
      cases hstep
  | ended ok =>
      rw [hwriter] at hstep
      cases hstep

theorem Locked.work (hlocked : world.Locked) {ok : Bool}
    (hstep : world.work pid ok = some next) : next.Locked := by
  obtain ⟨hbusy, hsaver, hholder, writer, hwriter⟩ := work_moves hstep
  refine ⟨?_, fun other hother => ?_⟩
  · rw [hsaver, hholder]
    exact hlocked.owned
  · rw [hsaver]
    rw [hwriter] at hother
    obtain rfl | hne := eq_or_ne other pid
    · exact hlocked.busy other hbusy
    · rw [Function.update_of_ne hne] at hother
      exact hlocked.busy other hother

omit [DecidableEq Pid] in
theorem Locked.rests (hlocked : world.Locked) {saver : Saver} (hsaver : world.saver pid = saver)
    (hsaves : saver.saves = false) : (world.writer pid).busy = false := by
  by_contra hbusy
  rw [Bool.not_eq_false] at hbusy
  have hwaits := hlocked.busy pid hbusy
  rw [hsaver, hsaves] at hwaits
  cases hwaits

theorem Locked.lock (hlocked : world.Locked) (hfree : world.holder = none)
    (hsaver : (world.saver pid).holds = false) {saver : Saver} (hholds : saver.holds = true)
    (hrests : (world.writer pid).busy = false) :
    ({ world.setSaver pid saver with holder := some pid } : HealthWorld Pid).Locked where
  owned := by
    have hover : Handover pid (world.saver pid).holds
        ((world.setSaver pid saver).saver pid).holds world.holder (some pid) := by
      dsimp only [HealthWorld.setSaver]
      rw [Function.update_self, hsaver, hholds, hfree]
      exact .lock
    refine hlocked.owned.handover hover fun other hother => ?_
    dsimp only [HealthWorld.setSaver]
    rw [Function.update_of_ne hother]
  busy := by
    intro other hbusy
    dsimp only [HealthWorld.setSaver] at hbusy ⊢
    obtain rfl | hother := eq_or_ne other pid
    · rw [hrests] at hbusy
      cases hbusy
    · rw [Function.update_of_ne hother]
      exact hlocked.busy other hbusy

theorem Locked.spawnSave (hlocked : world.Locked) {health : HealthText} {current : HealthFile}
    {saver : Saver} (hholds : (world.saver pid).holds = true) (hsaves : saver.saves = true) :
    (world.spawnSave pid health current saver).Locked := by
  refine (hlocked.setSaver ?_ fun _ => hsaves).setWriter fun _ => ?_
  · rw [hholds, Saver.holds_of_saves hsaves]
  · dsimp only [HealthWorld.setSaver]
    rw [Function.update_self, hsaves]

end HealthWorld

/-- What holds as long as nobody gives up over a save. -/
structure HealthLedger.Sound (initial : Option Bytes) (ledger : HealthLedger Pid) : Prop where
  locked : ledger.world.Locked
  stored : ledger.world.Stored initial ledger.landed

namespace HealthLedger

variable {initial : Option Bytes} {ledger after : HealthLedger Pid}

section

variable {health : HealthText} {next : HealthWorld Pid} {pid : Pid} {ok : Bool} {n : Nat}
  {baseline current : HealthFile}

/-! Nothing but the work of a save lands. -/

theorem Sound.boot (hsound : ledger.Sound initial)
    (hnext : ledger.world.step health (.boot pid baseline) = some next) :
    next.Locked ∧ next.Stored initial ledger.landed := by
  obtain ⟨hlocked, hstored⟩ := hsound
  rw [HealthWorld.step] at hnext
  split at hnext
  · rename_i hsaver
    obtain rfl := Option.some.inj hnext
    have hrests := hlocked.rests hsaver rfl
    refine ⟨hlocked.setSaver ?_ fun hbusy => ?_, hstored.setSaver _⟩
    · rw [hsaver]
      rfl
    · rw [hrests] at hbusy
      cases hbusy
  · cases hnext

theorem Sound.lock (hsound : ledger.Sound initial)
    (hnext : ledger.world.step health (.lock pid ok) = some next) :
    next.Locked ∧ next.Stored initial ledger.landed := by
  obtain ⟨hlocked, hstored⟩ := hsound
  rw [HealthWorld.step] at hnext
  split at hnext
  · rename_i last hsaver
    have hrests := hlocked.rests hsaver rfl
    split at hnext
    · obtain rfl := Option.some.inj hnext
      refine ⟨hlocked.setSaver ?_ fun hbusy => ?_, hstored.setSaver _⟩
      · rw [hsaver]
        rfl
      · rw [hrests] at hbusy
        cases hbusy
    · split at hnext
      · cases hnext
      · rename_i hfree
        obtain rfl := Option.some.inj hnext
        have hnone : ledger.world.holder = none := by simpa using hfree
        refine ⟨hlocked.lock hnone (by rw [hsaver]; rfl) rfl hrests, ?_⟩
        exact ⟨hstored.target, hstored.tmp, hstored.writing, hstored.flushed, hstored.kept⟩
  · cases hnext

theorem Sound.clean (hsound : ledger.Sound initial)
    (hnext : ledger.world.step health (.clean pid ok) = some next) :
    next.Locked ∧ next.Stored initial ledger.landed := by
  obtain ⟨hlocked, hstored⟩ := hsound
  rw [HealthWorld.step] at hnext
  split at hnext
  · rename_i last hsaver
    obtain rfl := Option.some.inj hnext
    have hrests := hlocked.rests hsaver rfl
    have hclosed : (ledger.world.writer pid).opens = false := by
      by_contra hopens
      rw [Bool.not_eq_false] at hopens
      rw [Writer.busy_of_opens hopens] at hrests
      cases hrests
    have hmoved : (ledger.world.setSaver pid (.waiting last false)).Locked := by
      refine hlocked.setSaver ?_ fun hbusy => ?_
      · rw [hsaver]
        rfl
      · rw [hrests] at hbusy
        cases hbusy
    refine ⟨⟨hmoved.owned, hmoved.busy⟩, ?_⟩
    refine (hstored.replace (hlocked.unopened (by rw [hsaver]; rfl) hclosed)
      fun node hsome => ?_).setSaver _
    cases ok with
    | true => cases hsome
    | false =>
        exact ⟨hstored.tmp node hsome, fun htarget => (hstored.target node htarget).2 hsome⟩
  · cases hnext

theorem Sound.tick (hsound : ledger.Sound initial)
    (hnext : ledger.world.step health (.tick pid current) = some next) :
    next.Locked ∧ next.Stored initial ledger.landed := by
  obtain ⟨hlocked, hstored⟩ := hsound
  rw [HealthWorld.step] at hnext
  split at hnext
  · rename_i last hsaver
    split at hnext
    · obtain rfl := Option.some.inj hnext
      exact ⟨hlocked, hstored⟩
    · obtain rfl := Option.some.inj hnext
      exact ⟨hlocked.spawnSave (by rw [hsaver]; rfl) rfl,
        (hstored.setSaver _).setWriter rfl⟩
  · cases hnext

theorem Sound.stop (hsound : ledger.Sound initial)
    (hnext : ledger.world.step health (.stop pid) = some next) :
    next.Locked ∧ next.Stored initial ledger.landed := by
  obtain ⟨hlocked, hstored⟩ := hsound
  rw [HealthWorld.step] at hnext
  split at hnext
  · rename_i last hsaver
    obtain rfl := Option.some.inj hnext
    have hrests := hlocked.rests hsaver rfl
    refine ⟨hlocked.setSaver ?_ fun hbusy => ?_, hstored.setSaver _⟩
    · rw [hsaver]
      rfl
    · rw [hrests] at hbusy
      cases hbusy
  · rename_i last current hsaver
    obtain rfl := Option.some.inj hnext
    refine ⟨hlocked.setSaver ?_ fun _ => rfl, hstored.setSaver _⟩
    rw [hsaver]
    rfl
  · cases hnext

theorem Sound.saveFinal (hsound : ledger.Sound initial)
    (hnext : ledger.world.step health (.saveFinal pid current) = some next) :
    next.Locked ∧ next.Stored initial ledger.landed := by
  obtain ⟨hlocked, hstored⟩ := hsound
  rw [HealthWorld.step] at hnext
  split at hnext
  · rename_i last hsaver
    obtain rfl := Option.some.inj hnext
    exact ⟨hlocked.spawnSave (by rw [hsaver]; rfl) rfl,
      (hstored.setSaver _).setWriter rfl⟩
  · cases hnext

theorem Sound.giveUp (hsound : ledger.Sound initial)
    (hpatient : ledger.patient (.giveUp pid) = true)
    (hnext : ledger.world.step health (.giveUp pid) = some next) :
    next.Locked ∧ next.Stored initial ledger.landed := by
  obtain ⟨hlocked, hstored⟩ := hsound
  have hrests : (ledger.world.writer pid).busy = false := by
    rw [HealthLedger.patient] at hpatient
    cases hwriter : ledger.world.writer pid with
    | idle => rfl
    | ended ok => rfl
    | _ =>
        rw [hwriter] at hpatient
        cases hpatient
  rw [HealthWorld.step] at hnext
  split at hnext
  · obtain rfl := Option.some.inj hnext
    exact ⟨hlocked.unlock rfl hrests, hstored.unlock _⟩
  · obtain rfl := Option.some.inj hnext
    exact ⟨hlocked.unlock rfl hrests, hstored.unlock _⟩
  · obtain rfl := Option.some.inj hnext
    exact ⟨hlocked.unlock rfl hrests, hstored.unlock _⟩
  · cases hnext

theorem Sound.wrote (hsound : ledger.Sound initial)
    (hnext : ledger.world.step health (.wrote pid n) = some next) :
    next.Locked ∧ next.Stored initial ledger.landed := by
  obtain ⟨hlocked, hstored⟩ := hsound
  rw [HealthWorld.step] at hnext
  split at hnext
  · rename_i node text hwriter
    obtain rfl := Option.some.inj hnext
    have hbusy : (ledger.world.writer pid).busy = true := by rw [hwriter]; rfl
    refine ⟨⟨hlocked.owned, hlocked.busy⟩,
      hstored.write (hstored.writing pid node text hwriter) ?_ _⟩
    intro other whole hflushed
    obtain rfl := hlocked.alone (hlocked.holds hbusy) 
      (by rw [hflushed]; rfl)
    rw [hwriter] at hflushed
    cases hflushed
  · cases hnext

theorem Sound.collect (hsound : ledger.Sound initial)
    (hnext : ledger.world.step health (.collect pid) = some next) :
    next.Locked ∧ next.Stored initial ledger.landed := by
  obtain ⟨hlocked, hstored⟩ := hsound
  rw [HealthWorld.step] at hnext
  split at hnext
  · rename_i ok last current stop hwriter hsaver
    obtain rfl := Option.some.inj hnext
    refine ⟨(hlocked.setSaver ?_ fun hbusy => ?_).setWriter fun hbusy => (by cases hbusy),
      (hstored.setSaver _).setWriter rfl⟩
    · rw [hsaver]
      rfl
    · rw [hwriter] at hbusy
      cases hbusy
  · rename_i ok hwriter hsaver
    obtain rfl := Option.some.inj hnext
    refine ⟨?_, (hstored.unlock _).setWriter rfl⟩
    exact (hlocked.unlock rfl (by rw [hwriter]; rfl)).setWriter fun hbusy => by cases hbusy
  · cases hnext

theorem Sound.crash (hsound : ledger.Sound initial)
    (hnext : ledger.world.step health (.crash pid) = some next) :
    next.Locked ∧ next.Stored initial ledger.landed := by
  obtain ⟨hlocked, hstored⟩ := hsound
  rw [HealthWorld.step] at hnext
  obtain rfl := Option.some.inj hnext
  have hidle : ((ledger.world.setWriter pid .idle).writer pid).busy = false := by
    dsimp only [HealthWorld.setWriter]
    rw [Function.update_self]
    rfl
  have hgone : ((ledger.world.setWriter pid .idle).unlock pid .dead).Locked :=
    (hlocked.setWriter fun hbusy => by cases hbusy).unlock rfl hidle
  exact ⟨⟨hgone.owned, hgone.busy⟩, (hstored.unlock _).setWriter rfl⟩

end

omit [DecidableEq Pid] in
theorem Sound.same {next : HealthWorld Pid}
    (hkept : next.Locked ∧ next.Stored initial ledger.landed) :
    Sound initial ⟨next, ledger.landed ++ (none : Option Bytes).toList⟩ := by
  rw [Option.toList_none, List.append_nil]
  exact ⟨hkept.1, hkept.2⟩

theorem Sound.step {health : HealthText} (hsound : ledger.Sound initial)
    {event : HealthEvent Pid} (hpatient : ledger.patient event = true)
    (hstep : ledger.step health event = some after) : after.Sound initial := by
  obtain ⟨next, hnext, rfl⟩ := Option.map_eq_some_iff.mp hstep
  cases event with
  | boot pid baseline => exact .same (hsound.boot hnext)
  | lock pid ok => exact .same (hsound.lock hnext)
  | clean pid ok => exact .same (hsound.clean hnext)
  | tick pid current => exact .same (hsound.tick hnext)
  | stop pid => exact .same (hsound.stop hnext)
  | saveFinal pid current => exact .same (hsound.saveFinal hnext)
  | giveUp pid => exact .same (hsound.giveUp hpatient hnext)
  | work pid ok => exact ⟨hsound.locked.work hnext, hsound.stored.work hsound.locked hnext⟩
  | wrote pid n => exact .same (hsound.wrote hnext)
  | collect pid => exact .same (hsound.collect hnext)
  | crash pid => exact .same (hsound.crash hnext)

omit [DecidableEq Pid] in
theorem fresh_sound (text tmp : Option Bytes) :
    (⟨HealthWorld.fresh text tmp, []⟩ : HealthLedger Pid).Sound text where
  locked := ⟨.none_held fun _ => rfl, fun _ hbusy => by cases hbusy⟩
  stored := by
    have htarget : ∀ node, (HealthWorld.fresh text tmp : HealthWorld Pid).target = some node →
        node = 0 := by
      intro node hnode
      obtain ⟨_, _, rfl⟩ := Option.map_eq_some_iff.mp hnode
      rfl
    have htmp : ∀ node, (HealthWorld.fresh text tmp : HealthWorld Pid).tmp = some node →
        node = 1 := by
      intro node hnode
      obtain ⟨_, _, rfl⟩ := Option.map_eq_some_iff.mp hnode
      rfl
    refine ⟨fun node hnode => ?_, fun node hnode => ?_, fun _ _ _ hopen => ?_,
      fun _ _ _ hopen => ?_, ?_⟩
    · rw [htarget node hnode]
      exact ⟨Nat.zero_lt_two, fun hzero => absurd (htmp 0 hzero) Nat.zero_ne_one⟩
    · rw [htmp node hnode]
      exact Nat.one_lt_two
    · cases hopen
    · cases hopen
    · cases text <;> rfl

end HealthLedger

/-! What is saved comes from the pictures. -/

def Writer.text : Writer → Option Bytes
  | .reclaiming text | .creating text => text
  | .writing _ text | .flushed _ text => some text
  | _ => none

def Pictured (health : HealthText) (events : List (HealthEvent Pid)) (text : Bytes) : Prop :=
  ∃ pid current, health.toText current = some text ∧
    (.tick pid current ∈ events ∨ .saveFinal pid current ∈ events)

/-- Every text on its way, or landed, was offered. -/
structure Sourced (health : HealthText) (events : List (HealthEvent Pid))
    (ledger : HealthLedger Pid) : Prop where
  writers : ∀ pid text, (ledger.world.writer pid).text = some text → Pictured health events text
  landed : ∀ text ∈ ledger.landed, Pictured health events text

section

variable {health : HealthText} {world next : HealthWorld Pid} {pid : Pid}

omit [DecidableEq Pid] in
theorem Pictured.more {events : List (HealthEvent Pid)} {text : Bytes}
    (hpictured : Pictured health events text) (event : HealthEvent Pid) :
    Pictured health (events ++ [event]) text := by
  obtain ⟨pid, current, htext, hmem⟩ := hpictured
  exact ⟨pid, current, htext, hmem.imp (List.mem_append_left _) (List.mem_append_left _)⟩

theorem HealthWorld.work_text {ok : Bool} (hstep : world.work pid ok = some next) {other : Pid}
    {text : Bytes} (htext : (next.writer other).text = some text) :
    (world.writer other).text = some text := by
  obtain hother | rfl := ne_or_eq other pid
  · obtain ⟨_, _, _, writer, hwriter⟩ := HealthWorld.work_moves hstep
    rwa [hwriter, Function.update_of_ne hother] at htext
  · have hset : ∀ (after : HealthWorld Pid) (writer : Writer),
        (after.setWriter other writer).writer other = writer :=
      fun _ _ => Function.update_self _ _ _
    rw [HealthWorld.work.eq_def] at hstep
    split at hstep
    · rename_i given hwriter
      rw [hwriter]
      split at hstep
      · cases hstep
        rw [hset] at htext
        cases htext
      · cases hstep
        rwa [hset] at htext
    · cases hstep
      rw [hset] at htext
      cases htext
    · rename_i given hwriter
      rw [hwriter]
      split at hstep
      · cases hstep
        rw [hset] at htext
        cases htext
      · cases hstep
        rwa [hset] at htext
    · rename_i node given hwriter
      rw [hwriter]
      split at hstep
      · cases hstep
        rwa [hset] at htext
      · cases hstep
        rw [hset] at htext
        cases htext
    · split at hstep
      · cases hstep
        rw [hset] at htext
        cases htext
      · cases hstep
        rw [hset] at htext
        cases htext
    · cases hstep
      rw [hset] at htext
      cases htext
    · cases hstep
      rw [hset] at htext
      cases htext
    · cases hstep
    · cases hstep

theorem HealthWorld.setWriter_text {writer : Writer} {other : Pid} {text : Bytes}
    (htext : ((world.setWriter pid writer).writer other).text = some text) :
    (world.writer other).text = some text ∨ writer.text = some text := by
  dsimp only [HealthWorld.setWriter] at htext
  obtain rfl | hother := eq_or_ne other pid
  · rw [Function.update_self] at htext
    exact .inr htext
  · rw [Function.update_of_ne hother] at htext
    exact .inl htext

theorem HealthWorld.step_text {event : HealthEvent Pid}
    (hstep : world.step health event = some next)
    {other : Pid} {text : Bytes} (htext : (next.writer other).text = some text) :
    (world.writer other).text = some text ∨ Pictured health [event] text := by
  cases event with
  | boot pid baseline =>
      rw [HealthWorld.step] at hstep
      split at hstep <;> cases hstep
      exact .inl htext
  | lock pid ok =>
      rw [HealthWorld.step] at hstep
      split at hstep
      · split at hstep
        · cases hstep
          exact .inl htext
        · split at hstep <;> cases hstep
          exact .inl htext
      · cases hstep
  | clean pid ok =>
      rw [HealthWorld.step] at hstep
      split at hstep <;> cases hstep
      exact .inl htext
  | tick pid current =>
      rw [HealthWorld.step] at hstep
      split at hstep
      · split at hstep
        · cases hstep
          exact .inl htext
        · cases hstep
          refine (setWriter_text htext).imp_right fun hnew => ?_
          exact ⟨pid, current, hnew, .inl (List.mem_singleton_self _)⟩
      · cases hstep
  | stop pid =>
      rw [HealthWorld.step] at hstep
      split at hstep <;> cases hstep
      · exact .inl htext
      · exact .inl htext
  | saveFinal pid current =>
      rw [HealthWorld.step] at hstep
      split at hstep <;> cases hstep
      refine (setWriter_text htext).imp_right fun hnew => ?_
      exact ⟨pid, current, hnew, .inr (List.mem_singleton_self _)⟩
  | giveUp pid =>
      rw [HealthWorld.step] at hstep
      split at hstep <;> cases hstep
      · exact .inl htext
      · exact .inl htext
      · exact .inl htext
  | work pid ok => exact .inl (work_text hstep htext)
  | wrote pid n =>
      rw [HealthWorld.step] at hstep
      split at hstep <;> cases hstep
      exact .inl htext
  | collect pid =>
      rw [HealthWorld.step] at hstep
      split at hstep <;> cases hstep
      · exact (setWriter_text htext).imp_right fun hidle => by cases hidle
      · exact (setWriter_text htext).imp_right fun hidle => by cases hidle
  | crash pid =>
      cases hstep
      exact (setWriter_text htext).imp_right fun hidle => by cases hidle

omit [DecidableEq Pid] in
theorem HealthWorld.lands_text {event : HealthEvent Pid} {text : Bytes}
    (hlands : world.lands event = some text) : ∃ pid, (world.writer pid).text = some text := by
  rw [HealthWorld.lands.eq_def] at hlands
  split at hlands
  · rename_i pid
    split at hlands
    · rename_i node given hwriter
      split at hlands <;> cases hlands
      exact ⟨pid, by rw [hwriter]; rfl⟩
    · cases hlands
  · cases hlands

theorem Sourced.step {events : List (HealthEvent Pid)} {ledger after : HealthLedger Pid}
    (hsourced : Sourced health events ledger) {event : HealthEvent Pid}
    (hstep : ledger.step health event = some after) :
    Sourced health (events ++ [event]) after := by
  obtain ⟨next, hnext, rfl⟩ := Option.map_eq_some_iff.mp hstep
  refine ⟨fun pid text htext => ?_, fun text htext => ?_⟩
  · obtain hbefore | ⟨source, current, hcurrent, hmem⟩ := HealthWorld.step_text hnext htext
    · exact (hsourced.writers pid text hbefore).more event
    · exact ⟨source, current, hcurrent,
        hmem.imp (List.mem_append_right _) (List.mem_append_right _)⟩
  · obtain hbefore | hnew := List.mem_append.mp htext
    · exact (hsourced.landed text hbefore).more event
    · obtain ⟨pid, hwriter⟩ := HealthWorld.lands_text (Option.mem_toList.mp hnew)
      exact (hsourced.writers pid text hwriter).more event

end

/-- In every run of any number of processes, crashed or not, in which nobody gives up over a save:
the health file is the last picture that landed, or what was there before; only one process saves
at a time, and only pictures of the savers land. -/
theorem health_file_whole (health : HealthText) (text tmp : Option Bytes)
    {events : List (HealthEvent Pid)} {ledger : HealthLedger Pid}
    (hrun : run (guarded (HealthLedger.step health) HealthLedger.patient)
      ⟨HealthWorld.fresh text tmp, []⟩ events = some ledger) :
    ledger.world.file = ledger.landed.getLast?.or text ∧
    (∀ one other, (ledger.world.writer one).busy = true →
      (ledger.world.writer other).busy = true → one = other) ∧
    ∀ saved ∈ ledger.landed, Pictured health events saved := by
  have hsound : ledger.Sound text := by
    refine run_preserves (fun ledger event after hstep hsound => ?_) hrun
      (HealthLedger.fresh_sound text tmp)
    obtain ⟨hpatient, hstep⟩ := guarded_eq_some.mp hstep
    exact hsound.step hpatient hstep
  have hsourced : Sourced health events ledger := by
    refine run_history (fun events ledger event after hsourced hstep => ?_) hrun
      ⟨(fun _ _ htext => by cases htext), (fun _ htext => by cases htext)⟩
    exact hsourced.step (guarded_eq_some.mp hstep).2
  refine ⟨hsound.stored.kept, fun one other hone hother => ?_, hsourced.landed⟩
  exact hsound.locked.alone (hsound.locked.holds hother) hone

def stampText : HealthText where
  toText := fun file => some (lit "saved_at: " ++ render 10 file.savedAt)
  fromText := fun _ => none

def firstSave (pid : Bool) (current : HealthFile) : List (HealthEvent Bool) :=
  [.boot pid current, .lock pid true, .clean pid true, .tick pid current, .work pid true,
    .work pid true, .work pid true]

/-- A leftover of a crash goes, and the picture lands. -/
theorem health_file_whole_leftover :
    ∃ events : List (HealthEvent Bool), ∃ ledger,
      run (guarded (HealthLedger.step stampText) HealthLedger.patient)
        ⟨HealthWorld.fresh none (some (lit "saved_")), []⟩ events = some ledger ∧
      ledger.landed = [lit "saved_at: 7"] ∧ ledger.world.file = ledger.landed.getLast?.or none := by
  obtain ⟨ledger, hrun, hlanded⟩ :
      ∃ ledger, run (guarded (HealthLedger.step stampText) HealthLedger.patient)
        ⟨HealthWorld.fresh none (some (lit "saved_")), []⟩
        (firstSave true ⟨7, []⟩ ++ [.work true true]) = some ledger ∧
      ledger.landed = [lit "saved_at: 7"] := ⟨_, rfl, rfl⟩
  exact ⟨_, ledger, hrun, hlanded, (health_file_whole stampText none (some (lit "saved_")) hrun).1⟩

/-- With a save left behind, its rename takes the temporary of the next process, which is empty
still. -/
theorem impatient_tears :
    ∃ ledger, run (HealthLedger.step stampText) ⟨HealthWorld.fresh none none, []⟩
        (firstSave true ⟨7, []⟩ ++ [.stop true, .giveUp true] ++
          (firstSave false ⟨8, []⟩).take 6 ++ [.work true true]) = some ledger ∧
      ledger.world.file = some [] :=
  ⟨_, rfl, rfl⟩

end Resocks5.Server
