import Resocks5.Foundation.Run
import Resocks5.Foundation.Text
import Resocks5.Server.Startup

namespace Resocks5.Server

open Resocks5.Foundation

/-! Several processes that find no configuration yet. -/

/-- The serializer for one of the configuration files, and what its first content is made of; `Old`
is what the files of the old layout hold. -/
structure ConfigFile (Config Old : Type) where
  toText : Config → Option Bytes
  fromText : Bytes → Option Config
  initial : Old → Option Config

/-- What was written is read back. -/
def ConfigFile.Faithful {Config Old : Type} (file : ConfigFile Config Old) : Prop :=
  ∀ config text, file.toText config = some text → file.fromText text = some config

inductive LoadError where
  | lock
  | read
  | migrate
  | serialize
  | create
  | write
  | rename
  | sync
  deriving DecidableEq, Repr

/-- Where a `load_or_init` stands; from `locked` to `leaving` it has the lock. -/
inductive LoadPhase (Config : Type) where
  | start
  | waiting
  | locked
  | creating (config : Config) (text : Bytes)
  | writing (config : Config) (text : Bytes)
  | flushed (config : Config) (text : Bytes)
  | discarding (reason : LoadError)
  | renamed (config : Config)
  | leaving (result : Except LoadError Config)
  | done (result : Except LoadError Config)
  | dead

structure ConfigWorld (Pid Config : Type) where
  target : Option Bytes
  tmp : Option Bytes
  holder : Option Pid
  phase : Pid → LoadPhase Config

/-- A process goes on, its call well or not, and reads `old` if it looks there. -/
inductive LoadEvent (Pid Old : Type) where
  | advance (pid : Pid) (ok : Bool) (old : Old)
  | wrote (pid : Pid) (n : Nat)
  | crash (pid : Pid)

namespace ConfigWorld

variable {Pid Config Old : Type} [DecidableEq Pid]

def goto (world : ConfigWorld Pid Config) (pid : Pid) (phase : LoadPhase Config) :
    ConfigWorld Pid Config :=
  { world with phase := Function.update world.phase pid phase }

def fresh (target tmp : Option Bytes) : ConfigWorld Pid Config :=
  ⟨target, tmp, none, fun _ => .start⟩

end ConfigWorld

section

variable {Pid Config Old : Type} [DecidableEq Pid] (file : ConfigFile Config Old)

def ConfigFile.load (text : Bytes) (ok : Bool) : Except LoadError Config :=
  match file.fromText text with
  | some config => if ok then .ok config else .error .read
  | none => .error .read

def ConfigFile.decide (target : Option Bytes) (ok : Bool) (old : Old) : LoadPhase Config :=
  match target with
  | some text => .leaving (file.load text ok)
  | none =>
    match if ok then file.initial old else none with
    | none => .leaving (.error .migrate)
    | some config =>
      match file.toText config with
      | none => .leaving (.error .serialize)
      | some text => .creating config text

def ConfigWorld.advance (world : ConfigWorld Pid Config) (pid : Pid) (ok : Bool) (old : Old) :
    Option (ConfigWorld Pid Config) :=
  match world.phase pid with
  | .start =>
    match world.target with
    | some text => some (world.goto pid (.done (file.load text ok)))
    | none => some (world.goto pid .waiting)
  | .waiting =>
    if !ok then some (world.goto pid (.done (.error .lock)))
    else if world.holder.isSome then none
    else some ({ world with holder := some pid }.goto pid .locked)
  | .locked => some (world.goto pid (file.decide world.target ok old))
  | .creating config text =>
    -- `create_new`
    if !ok || world.tmp.isSome then some (world.goto pid (.leaving (.error .create)))
    else some ({ world with tmp := some [] }.goto pid (.writing config text))
  | .writing config text =>
    if !ok then some (world.goto pid (.discarding .write))
    else some ({ world with tmp := some text }.goto pid (.flushed config text))
  | .flushed config _ =>
    if !ok then some (world.goto pid (.discarding .rename))
    else some ({ world with target := world.tmp, tmp := none }.goto pid (.renamed config))
  | .discarding reason =>
    some ({ world with tmp := if ok then none else world.tmp }.goto pid (.leaving (.error reason)))
  | .renamed config =>
    some (world.goto pid (.leaving (if ok then .ok config else .error .sync)))
  | .leaving result => some ({ world with holder := none }.goto pid (.done result))
  | .done _ | .dead => none

def ConfigWorld.step (world : ConfigWorld Pid Config) :
    LoadEvent Pid Old → Option (ConfigWorld Pid Config)
  | .advance pid ok old => world.advance file pid ok old
  | .wrote pid n =>
    match world.phase pid with
    | .writing _ text => some { world with tmp := some (text.take n) }
    | _ => none
  | .crash pid =>
    some ({ world with holder := world.holder.filter (· ≠ pid) }.goto pid .dead)

end

/-! The first content of the two files. -/

/-- `old` is the old configuration file, if there is one. -/
def initialMain (fromOld : Bytes → Option (UInt16 × List Bytes)) (old : Option Bytes) :
    Option MainConfig :=
  match old with
  | some text => (fromOld text).map fun (port, bannedPatterns) => defaultMain port bannedPatterns
  | none => some (defaultMain 20082 [])

/-- `str::lines`; behind the last line end there is a line only if there is text. -/
def textLines (text : Bytes) : List Bytes :=
  let pieces := text.splitOn 0x0A
  (pieces.dropLast.map fun line => if line.getLast? = some 0x0D then line.dropLast else line) ++
    pieces.getLast?.toList.filter (!·.isEmpty)

def readProxyLines (text : Bytes) : Option (List Bytes) :=
  if isUtf8 text then
    some (((textLines text).map trim).filter fun line => !line.isEmpty && line.head? ≠ some 0x23)
  else none

def initialProxyList (old : Option Bytes × Option Bytes) : Option ProxyListConfig := do
  let socks5V4 ← match old.1 with
    | some text => readProxyLines text
    | none => some []
  let socks5V6 ← match old.2 with
    | some text => readProxyLines text
    | none => some []
  return { socks5V6, httpV6 := [], httpsV6 := [], socks5V4, httpV4 := [], httpsV4 := [] }

def mainFile (toText : MainConfig → Option Bytes) (fromText : Bytes → Option MainConfig)
    (fromOld : Bytes → Option (UInt16 × List Bytes)) : ConfigFile MainConfig (Option Bytes) where
  toText := toText
  fromText := fromText
  initial := initialMain fromOld

def proxyListFile (toText : ProxyListConfig → Option Bytes)
    (fromText : Bytes → Option ProxyListConfig) :
    ConfigFile ProxyListConfig (Option Bytes × Option Bytes) where
  toText := toText
  fromText := fromText
  initial := initialProxyList

/-- Every default passes its own check. -/
theorem initialMain_checked {fromOld : Bytes → Option (UInt16 × List Bytes)} {old : Option Bytes}
    {main : MainConfig} (hinitial : initialMain fromOld old = some main) :
    ClientsValid main [] ∧ main.network.QuarantineValid := by
  have hstar : Config.compileAllowedClients (lit "*") = .ok ⟨true, []⟩ := rfl
  have hnetwork : NetworkConfig.default.QuarantineValid := .inr ⟨by decide, by decide⟩
  have hdefault (port : UInt16) (patterns : List Bytes) :
      ClientsValid (defaultMain port patterns) [] ∧
        (defaultMain port patterns).network.QuarantineValid :=
    ⟨⟨⟨_, hstar⟩, fun user huser => by cases huser⟩, hnetwork⟩
  cases old with
  | none =>
      obtain rfl := Option.some.inj hinitial
      exact hdefault _ _
  | some text =>
      obtain ⟨⟨port, patterns⟩, _, rfl⟩ := Option.map_eq_some_iff.mp hinitial
      exact hdefault _ _

example : textLines (lit "a\r\n\n# b\nc") = [lit "a", [], lit "# b", lit "c"] := by decide

/-! Who has the lock is alone with the two files. -/

def LoadPhase.underLock {Config : Type} : LoadPhase Config → Bool
  | .locked | .creating _ _ | .writing _ _ | .flushed _ _ | .discarding _ | .renamed _
  | .leaving _ => true
  | _ => false

def LoadPhase.pending {Config : Type} : LoadPhase Config → Bool
  | .creating _ _ | .writing _ _ | .flushed _ _ => true
  | _ => false

section

variable {Pid Config Old : Type} (file : ConfigFile Config Old)

def ConfigWorld.Says (world : ConfigWorld Pid Config) (config : Config) : Prop :=
  ∃ text, world.target = some text ∧ file.fromText text = some config

/-- A text that somebody has made, while there is none in place. -/
structure Prepared (built : Config → Prop) (world : ConfigWorld Pid Config) (config : Config)
    (text : Bytes) : Prop where
  missing : world.target = none
  text : file.toText config = some text
  built : built config

/-- What a process has done and seen; `built` are the contents that were made up so far. -/
def LoadPhase.Stands (built : Config → Prop) (world : ConfigWorld Pid Config) :
    LoadPhase Config → Prop
  | .creating config text | .writing config text => Prepared file built world config text
  | .flushed config text => Prepared file built world config text ∧ world.tmp = some text
  | .renamed config | .leaving (.ok config) | .done (.ok config) => world.Says file config
  | _ => True

/-- `target` is the file before anybody ran. -/
structure Settling (target : Option Bytes) (built : Config → Prop)
    (world : ConfigWorld Pid Config) : Prop where
  alone : ∀ pid, (world.phase pid).underLock = true → world.holder = some pid
  stands : ∀ pid, (world.phase pid).Stands file built world
  origin : world.target = target ∨ target = none ∧ ∃ config text,
    world.target = some text ∧ file.toText config = some text ∧ built config

end

section

variable {Pid Config Old : Type} {file : ConfigFile Config Old} {target : Option Bytes}
  {built : Config → Prop} {world base : ConfigWorld Pid Config} {pid : Pid}
  {phase : LoadPhase Config}

theorem LoadPhase.Stands.frame (hstands : phase.Stands file built world)
    (hgrows : ∀ text, world.target = some text → base.target = some text)
    (hpending : phase.pending = true → base.target = world.target ∧ base.tmp = world.tmp) :
    phase.Stands file built base := by
  have hprepared {config : Config} {text : Bytes} (hsame : base.target = world.target)
      (h : Prepared file built world config text) : Prepared file built base config text :=
    ⟨hsame.trans h.missing, h.text, h.built⟩
  have hstored {config : Config} (h : world.Says file config) : base.Says file config := by
    obtain ⟨text, htext, hread⟩ := h
    exact ⟨text, hgrows text htext, hread⟩
  cases phase with
  | creating config text => exact hprepared (hpending rfl).1 hstands
  | writing config text => exact hprepared (hpending rfl).1 hstands
  | flushed config text =>
      exact ⟨hprepared (hpending rfl).1 hstands.1, (hpending rfl).2.trans hstands.2⟩
  | renamed config => exact hstored hstands
  | leaving result =>
      cases result with
      | ok config => exact hstored hstands
      | error reason => trivial
  | done result =>
      cases result with
      | ok config => exact hstored hstands
      | error reason => trivial
  | _ => trivial

theorem LoadPhase.underLock_of_pending (hpending : phase.pending = true) :
    phase.underLock = true := by
  cases phase <;> first | rfl | cases hpending

theorem LoadPhase.Stands.more {more : Config → Prop} (hmore : ∀ config, built config → more config)
    (hstands : phase.Stands file built world) : phase.Stands file more world := by
  cases phase with
  | creating config text => exact ⟨hstands.missing, hstands.text, hmore _ hstands.built⟩
  | writing config text => exact ⟨hstands.missing, hstands.text, hmore _ hstands.built⟩
  | flushed config text =>
      exact ⟨⟨hstands.1.missing, hstands.1.text, hmore _ hstands.1.built⟩, hstands.2⟩
  | renamed config => exact hstands
  | leaving result => cases result <;> exact hstands
  | done result => cases result <;> exact hstands
  | _ => trivial

theorem Settling.more {more : Config → Prop} (hmore : ∀ config, built config → more config)
    (hsettling : Settling file target built world) : Settling file target more world where
  alone := hsettling.alone
  stands pid := (hsettling.stands pid).more hmore
  origin := hsettling.origin.imp_right fun ⟨hnone, config, text, htext, hwritten, hbuilt⟩ =>
    ⟨hnone, config, text, htext, hwritten, hmore config hbuilt⟩

variable [DecidableEq Pid]

/-- A step of `pid`: the files change under the lock only, and what is in place stays. -/
theorem Settling.move (hsettling : Settling file target built world)
    (hphase : base.phase = world.phase)
    (hfiles : world.holder = some pid ∨
      base.target = world.target ∧ base.tmp = world.tmp)
    (hgrows : ∀ text, world.target = some text → base.target = some text)
    (horigin : base.target = target ∨ target = none ∧ ∃ config text,
      base.target = some text ∧ file.toText config = some text ∧ built config)
    (hothers : ∀ other, other ≠ pid → world.holder = some other → base.holder = some other)
    (hheld : phase.underLock = true → base.holder = some pid)
    (hstands : phase.Stands file built base) :
    Settling file target built (base.goto pid phase) where
  alone other hlocked := by
    dsimp only [ConfigWorld.goto] at hlocked ⊢
    rw [Function.update_apply] at hlocked
    split at hlocked
    · rename_i hsame
      exact hsame ▸ hheld hlocked
    · rename_i hother
      rw [hphase] at hlocked
      exact hothers other hother (hsettling.alone other hlocked)
  stands other := by
    have hgoto {standing : LoadPhase Config} (h : standing.Stands file built base) :
        standing.Stands file built (base.goto pid phase) :=
      h.frame (fun _ htext => htext) fun _ => ⟨rfl, rfl⟩
    refine hgoto ?_
    dsimp only [ConfigWorld.goto]
    rw [Function.update_apply]
    split
    · exact hstands
    · rename_i hother
      rw [hphase]
      refine (hsettling.stands other).frame hgrows fun hpending => ?_
      obtain hmine | hsame := hfiles
      · have hholder := hsettling.alone other (LoadPhase.underLock_of_pending hpending)
        exact absurd (Option.some.inj (hholder.symm.trans hmine)) hother
      · exact hsame
  origin := horigin

theorem Settling.quiet (hsettling : Settling file target built world)
    (hholder : base.holder = world.holder ∨ world.holder = some pid ∨ world.holder = none)
    (hbase : base.phase = world.phase ∧ base.target = world.target ∧
      (base.tmp = world.tmp ∨ world.holder = some pid))
    (hheld : phase.underLock = true → base.holder = some pid)
    (hstands : phase.Stands file built base) :
    Settling file target built (base.goto pid phase) := by
  obtain ⟨hphase, htarget, htmp⟩ := hbase
  refine hsettling.move hphase ?_ (fun text htext => htarget.trans htext) ?_ ?_ hheld hstands
  · exact htmp.symm.imp_right fun htmp => ⟨htarget, htmp⟩
  · rw [htarget]
    exact hsettling.origin
  · intro other hother hheld
    obtain hsame | hmine | hnone := hholder
    · exact hsame.trans hheld
    · exact absurd (Option.some.inj (hheld.symm.trans hmine)) hother
    · rw [hnone] at hheld
      cases hheld

theorem load_ok {text : Bytes} {ok : Bool} {config : Config}
    (hload : file.load text ok = .ok config) : file.fromText text = some config := by
  unfold ConfigFile.load at hload
  split at hload
  · rename_i read hread
    split at hload
    · cases hload
      exact hread
    · cases hload
  · cases hload

omit [DecidableEq Pid] in
theorem result_stands {text : Bytes} {ok : Bool} (htarget : world.target = some text) :
    (LoadPhase.done (file.load text ok)).Stands file built world ∧
      (LoadPhase.leaving (file.load text ok)).Stands file built world := by
  cases hload : file.load text ok with
  | error reason => exact ⟨trivial, trivial⟩
  | ok config => exact ⟨⟨text, htarget, load_ok hload⟩, ⟨text, htarget, load_ok hload⟩⟩

omit [DecidableEq Pid] in
theorem decide_stands {ok : Bool} {old : Old}
    (hbuilt : ∀ config, ok = true → file.initial old = some config → built config) :
    (file.decide world.target ok old).Stands file built world := by
  unfold ConfigFile.decide
  split
  · rename_i text htext
    exact (result_stands htext).2
  · rename_i hmissing
    split
    · trivial
    · rename_i config hinitial
      split
      · trivial
      · rename_i text htext
        refine ⟨hmissing, htext, hbuilt config ?_ ?_⟩
        · cases ok with
          | true => rfl
          | false => cases hinitial
        · cases ok with
          | true => exact hinitial
          | false => cases hinitial

theorem Settling.advance (hfaithful : file.Faithful)
    (hsettling : Settling file target built world) {ok : Bool} {old : Old}
    {next : ConfigWorld Pid Config}
    (hbuilt : ∀ config, ok = true → file.initial old = some config → built config)
    (hstep : world.advance file pid ok old = some next) :
    Settling file target built next := by
  have hstands := hsettling.stands pid
  have halone := hsettling.alone pid
  unfold ConfigWorld.advance at hstep
  cases hphase : world.phase pid with
  | start =>
      simp only [hphase] at hstep
      split at hstep
      · rename_i text htext
        obtain rfl := Option.some.inj hstep
        exact hsettling.quiet (.inl rfl) ⟨rfl, rfl, .inl rfl⟩ (fun hlocked => by cases hlocked)
          (result_stands htext).1
      · obtain rfl := Option.some.inj hstep
        exact hsettling.quiet (.inl rfl) ⟨rfl, rfl, .inl rfl⟩ (fun hlocked => by cases hlocked)
          trivial
  | waiting =>
      simp only [hphase] at hstep
      split at hstep
      · obtain rfl := Option.some.inj hstep
        exact hsettling.quiet (.inl rfl) ⟨rfl, rfl, .inl rfl⟩ (fun hlocked => by cases hlocked)
          trivial
      · split at hstep
        · cases hstep
        · rename_i hfree
          obtain rfl := Option.some.inj hstep
          have hnone : world.holder = none := by simpa using hfree
          exact hsettling.quiet (.inr (.inr hnone)) ⟨rfl, rfl, .inl rfl⟩ (fun _ => rfl) trivial
  | locked =>
      simp only [hphase] at hstep
      obtain rfl := Option.some.inj hstep
      have hholder := halone (by rw [hphase]; rfl)
      exact hsettling.quiet (.inl rfl) ⟨rfl, rfl, .inl rfl⟩ (fun _ => hholder)
        (decide_stands hbuilt)
  | creating config text =>
      simp only [hphase] at hstep hstands
      have hholder := halone (by rw [hphase]; rfl)
      split at hstep
      · obtain rfl := Option.some.inj hstep
        exact hsettling.quiet (.inl rfl) ⟨rfl, rfl, .inl rfl⟩ (fun _ => hholder) trivial
      · obtain rfl := Option.some.inj hstep
        exact hsettling.quiet (.inl rfl) ⟨rfl, rfl, .inr hholder⟩ (fun _ => hholder)
          ⟨hstands.missing, hstands.text, hstands.built⟩
  | writing config text =>
      simp only [hphase] at hstep hstands
      have hholder := halone (by rw [hphase]; rfl)
      split at hstep
      · obtain rfl := Option.some.inj hstep
        exact hsettling.quiet (.inl rfl) ⟨rfl, rfl, .inl rfl⟩ (fun _ => hholder) trivial
      · obtain rfl := Option.some.inj hstep
        exact hsettling.quiet (.inl rfl) ⟨rfl, rfl, .inr hholder⟩ (fun _ => hholder)
          ⟨⟨hstands.missing, hstands.text, hstands.built⟩, rfl⟩
  | flushed config text =>
      simp only [hphase] at hstep hstands
      have hholder := halone (by rw [hphase]; rfl)
      obtain ⟨⟨hmissing, htext, hmade⟩, htmp⟩ := hstands
      split at hstep
      · obtain rfl := Option.some.inj hstep
        exact hsettling.quiet (.inl rfl) ⟨rfl, rfl, .inl rfl⟩ (fun _ => hholder) trivial
      · obtain rfl := Option.some.inj hstep
        refine hsettling.move rfl (.inl hholder) ?_ (.inr ⟨?_, config, text, htmp, htext, hmade⟩)
          (fun other _ hother => hother) (fun _ => hholder)
          ⟨text, htmp, hfaithful config text htext⟩
        · intro before hbefore
          rw [hmissing] at hbefore
          cases hbefore
        · obtain hsame | ⟨hnone, -⟩ := hsettling.origin
          · exact hsame.symm.trans hmissing
          · exact hnone
  | discarding reason =>
      simp only [hphase] at hstep
      have hholder := halone (by rw [hphase]; rfl)
      obtain rfl := Option.some.inj hstep
      exact hsettling.quiet (.inl rfl) ⟨rfl, rfl, .inr hholder⟩ (fun _ => hholder) trivial
  | renamed config =>
      simp only [hphase] at hstep hstands
      have hholder := halone (by rw [hphase]; rfl)
      obtain rfl := Option.some.inj hstep
      refine hsettling.quiet (.inl rfl) ⟨rfl, rfl, .inl rfl⟩ (fun _ => hholder) ?_
      cases ok with
      | true => exact hstands
      | false => trivial
  | leaving result =>
      simp only [hphase] at hstep hstands
      have hholder := halone (by rw [hphase]; rfl)
      obtain rfl := Option.some.inj hstep
      refine hsettling.quiet (.inr (.inl hholder)) ⟨rfl, rfl, .inl rfl⟩
        (fun hlocked => by cases hlocked) ?_
      cases result with
      | ok config => exact hstands
      | error reason => trivial
  | done result =>
      simp only [hphase] at hstep
      cases hstep
  | dead =>
      simp only [hphase] at hstep
      cases hstep

theorem Settling.step (hfaithful : file.Faithful)
    (hsettling : Settling file target built world) {event : LoadEvent Pid Old}
    {next : ConfigWorld Pid Config}
    (hbuilt : ∀ pid old config, event = .advance pid true old →
      file.initial old = some config → built config)
    (hstep : world.step file event = some next) : Settling file target built next := by
  cases event with
  | advance pid ok old =>
      refine hsettling.advance hfaithful (fun config hok hinitial => ?_) hstep
      exact hbuilt pid old config (hok ▸ rfl) hinitial
  | wrote pid n =>
      rw [ConfigWorld.step] at hstep
      split at hstep
      · rename_i config text hphase
        obtain rfl := Option.some.inj hstep
        have hholder := hsettling.alone pid (by rw [hphase]; rfl)
        have hstands := hsettling.stands pid
        rw [hphase] at hstands
        have hquiet : Settling file target built
            ({ world with tmp := some (text.take n) }.goto pid (.writing config text)) :=
          hsettling.quiet (.inl rfl) ⟨rfl, rfl, .inr hholder⟩ (fun _ => hholder)
            ⟨hstands.missing, hstands.text, hstands.built⟩
        rwa [ConfigWorld.goto, Function.update_eq_self_iff.mpr hphase.symm] at hquiet
      · cases hstep
  | crash pid =>
      obtain rfl := Option.some.inj hstep
      refine hsettling.move rfl (.inr ⟨rfl, rfl⟩) (fun _ htext => htext) hsettling.origin ?_
        (fun hlocked => by cases hlocked) trivial
      intro other hother hholder
      dsimp only
      rw [hholder, Option.filter_some, if_pos (by simpa using hother)]

omit [DecidableEq Pid] in
theorem fresh_settling (present tmp : Option Bytes) :
    Settling file present built (ConfigWorld.fresh present tmp : ConfigWorld Pid Config) where
  alone _ hlocked := by cases hlocked
  stands _ := trivial
  origin := .inl rfl

theorem step_keeps_target (hfaithful : file.Faithful)
    (hsettling : Settling file target built world) {event : LoadEvent Pid Old}
    {next : ConfigWorld Pid Config} (hstep : world.step file event = some next) {text : Bytes}
    (htext : world.target = some text) : next.target = some text := by
  have hhere : Settling file world.target (fun _ => True) world :=
    ⟨hsettling.alone, fun pid => (hsettling.stands pid).more fun _ _ => trivial, .inl rfl⟩
  have hthere := hhere.step hfaithful (fun _ _ _ _ _ => trivial) hstep
  obtain hsame | ⟨hnone, -⟩ := hthere.origin
  · exact hsame.trans htext
  · rw [hnone] at htext
    cases htext

/-- What some process could have made up so far. -/
def BuiltBy (file : ConfigFile Config Old) (events : List (LoadEvent Pid Old)) (config : Config) :
    Prop :=
  ∃ pid old, .advance pid true old ∈ events ∧ file.initial old = some config

theorem run_settling (hfaithful : file.Faithful) {tmp : Option Bytes}
    {events : List (LoadEvent Pid Old)}
    (hrun : run (ConfigWorld.step file) (ConfigWorld.fresh target tmp) events = some world) :
    Settling file target (BuiltBy file events) world := by
  let Inv (events : List (LoadEvent Pid Old)) (world : ConfigWorld Pid Config) : Prop :=
    Settling file target (BuiltBy file events) world
  have hkeeps : ∀ events world event next, Inv events world →
      world.step file event = some next → Inv (events ++ [event]) next := by
    intro events world event next hsettling hstep
    have hmore : Settling file target (BuiltBy file (events ++ [event])) world := by
      refine Settling.more (fun config hbuilt => ?_) hsettling
      obtain ⟨pid, old, hmem, hinitial⟩ := hbuilt
      exact ⟨pid, old, List.mem_append_left _ hmem, hinitial⟩
    refine hmore.step hfaithful (fun pid old config hevent hinitial => ?_) hstep
    exact ⟨pid, old, List.mem_append_right _ (hevent ▸ List.mem_singleton_self _), hinitial⟩
  exact run_history hkeeps hrun (fresh_settling _ _)

omit [DecidableEq Pid] in
theorem Settling.says {pid : Pid} {config : Config} (hsettling : Settling file target built world)
    (hdone : world.phase pid = .done (.ok config)) : world.Says file config := by
  have hstands := hsettling.stands pid
  rw [hdone] at hstands
  exact hstands

/-- Of all processes that start at once, wherever they fail or are killed, those that come up have
the same configuration. It is the one in place, which is whole, was there before or was made up by
one of them, and stays. -/
theorem first_start_agrees (hfaithful : file.Faithful) {tmp : Option Bytes}
    {events : List (LoadEvent Pid Old)}
    (hrun : run (ConfigWorld.step file) (ConfigWorld.fresh target tmp) events = some world) :
    (∀ one config, world.phase one = .done (.ok config) →
      world.Says file config ∧ ∀ other config', world.phase other = .done (.ok config') →
        config' = config) ∧
    (world.target = target ∨ target = none ∧ ∃ config text, world.target = some text ∧
      file.toText config = some text ∧ BuiltBy file events config) ∧
    ∀ more later, run (ConfigWorld.step file) world more = some later →
      ∀ text, world.target = some text → later.target = some text := by
  have hsettling := run_settling hfaithful hrun
  have hstored {one : Pid} {config : Config} (hdone : world.phase one = .done (.ok config)) :
      world.Says file config := hsettling.says hdone
  refine ⟨fun one config hone => ⟨hstored hone, fun other config' hother => ?_⟩,
    hsettling.origin, fun more later hmore => ?_⟩
  · obtain ⟨text, htext, hread⟩ := hstored hone
    obtain ⟨text', htext', hread'⟩ := hstored hother
    obtain rfl := Option.some.inj (htext.symm.trans htext')
    exact Option.some.inj (hread'.symm.trans hread)
  · intro text htext
    let Kept (world : ConfigWorld Pid Config) : Prop :=
      Settling file target (fun _ => True) world ∧ world.target = some text
    have hhere : Kept world := ⟨hsettling.more fun _ _ => trivial, htext⟩
    have hthere : Kept later := run_preserves (fun state event after hstep hkept =>
      ⟨Settling.step hfaithful hkept.1 (fun _ _ _ _ _ => trivial) hstep,
        step_keeps_target hfaithful hkept.1 hstep hkept.2⟩) hmore hhere
    exact hthere.2

/-- Where no main file was, every process that comes up has one that passes its checks. -/
theorem first_main_checked {toText : MainConfig → Option Bytes}
    {fromText : Bytes → Option MainConfig} {fromOld : Bytes → Option (UInt16 × List Bytes)}
    (hfaithful : (mainFile toText fromText fromOld).Faithful) {tmp : Option Bytes}
    {events : List (LoadEvent Pid (Option Bytes))} {world : ConfigWorld Pid MainConfig}
    (hrun : run (ConfigWorld.step (mainFile toText fromText fromOld))
      (ConfigWorld.fresh none tmp) events = some world) {main : MainConfig}
    (hdone : world.phase pid = .done (.ok main)) :
    ClientsValid main [] ∧ main.network.QuarantineValid := by
  have hsettling := run_settling hfaithful hrun
  obtain ⟨text, htext, hread⟩ := hsettling.says hdone
  obtain hsame | ⟨-, config, made, hmade, hconfig, _, _, _, hinitial⟩ := hsettling.origin
  · rw [hsame] at htext
    cases htext
  · obtain rfl := Option.some.inj (htext.symm.trans hmade)
    obtain rfl := Option.some.inj (hread.symm.trans (hfaithful config text hconfig))
    exact initialMain_checked hinitial

end

def migratedLists : ProxyListConfig :=
  { socks5V6 := [], httpV6 := [], httpsV6 := [], socks5V4 := [lit "198.51.100.7:1080"],
    httpV4 := [], httpsV4 := [] }

def migratedText : Bytes :=
  lit "socks5_v4: [\n    198.51.100.7:1080\n]\nsocks5_v6: []\nhttp_v4: []\nhttp_v6: []\n" ++
    lit "https_v4: []\nhttps_v6: []\n"

def migratedFile : ConfigFile ProxyListConfig (Option Bytes × Option Bytes) :=
  proxyListFile (fun config => if config = migratedLists then some migratedText else none)
    fun text => if text = migratedText then some migratedLists else none

theorem migratedFile_faithful : migratedFile.Faithful := by
  intro config text htext
  dsimp only [migratedFile, proxyListFile] at htext ⊢
  split at htext
  · rename_i hconfig
    cases htext
    rw [if_pos rfl, hconfig]
  · cases htext

def lateStart : List (LoadEvent Bool (Option Bytes × Option Bytes)) :=
  let old := (some (lit "# spare\n198.51.100.7:1080\r\n"), none)
  [.advance true true (none, none), .advance false true (none, none),
    .advance true true (none, none), .advance true true old, .advance true true (none, none),
    .wrote true 9] ++
  List.replicate 4 (.advance true true (none, none)) ++
  List.replicate 3 (.advance false true (none, none))

theorem first_start_agrees_late :
    ∃ world, run (ConfigWorld.step migratedFile) (ConfigWorld.fresh none none) lateStart =
        some world ∧
      world.phase false = .done (.ok migratedLists) ∧
      ∀ other config, world.phase other = .done (.ok config) → config = migratedLists := by
  obtain ⟨world, hrun, hdone⟩ :
      ∃ world, run (ConfigWorld.step migratedFile) (ConfigWorld.fresh none none) lateStart =
          some world ∧ world.phase false = .done (.ok migratedLists) := ⟨_, rfl, rfl⟩
  exact ⟨world, hrun, hdone,
    ((first_start_agrees migratedFile_faithful hrun).1 false migratedLists hdone).2⟩

end Resocks5.Server
