import Mathlib.Logic.Function.Basic
import Resocks5.Foundation.Run
import Resocks5.Server.Health

namespace Resocks5.Server

open Resocks5.Foundation

/-! The health file, and the processes that keep it. -/

structure HealthText where
  toText : HealthFile → Option Bytes
  fromText : Bytes → Option HealthFile

/-- Everything but the countdown and the timestamp. -/
def signature (file : HealthFile) : List (Bytes × Bytes × UInt8 × Bytes × Nat × Nat) :=
  file.upstreams.map fun e => (e.upstream, e.group, e.gate, e.state, e.trips, e.failures)

/-- The blocking task of one save, from `reclaim_own_temp` to the end of `write_atomic`. A file
that is open is known by its node, not by its name. -/
inductive Writer where
  | idle
  | reclaiming (text : Option Bytes)
  | creating (text : Option Bytes)
  | writing (node : Nat) (text : Bytes)
  | flushed (node : Nat) (text : Bytes)
  | discarding
  | renamed
  | ended (ok : Bool)
  deriving DecidableEq, Repr

/-- A process and its saver. `last` is what the loop compares with, `stop` that `finish` has been
called. -/
inductive Saver where
  | off
  | locking (last : Option HealthFile)
  | cleaning (last : Option HealthFile)
  | waiting (last : Option HealthFile) (stop : Bool)
  | saving (last : Option HealthFile) (current : HealthFile) (stop : Bool)
  | savingFinal
  | readOnly
  | finished
  | dead
  deriving DecidableEq, Repr

/-- The file system holds contents by node, and the nodes of the file and its temporary. -/
structure HealthWorld (Pid : Type) where
  content : Nat → Bytes
  unused : Nat
  target : Option Nat
  tmp : Option Nat
  holder : Option Pid
  saver : Pid → Saver
  writer : Pid → Writer

/-- `giveUp` is the end of `FINISH_BUDGET`; `wrote` is a part of the text in the temporary; a
`crash` ends a process anywhere. -/
inductive HealthEvent (Pid : Type) where
  | boot (pid : Pid) (baseline : HealthFile)
  | lock (pid : Pid) (ok : Bool)
  | clean (pid : Pid) (ok : Bool)
  | tick (pid : Pid) (current : HealthFile)
  | stop (pid : Pid)
  | saveFinal (pid : Pid) (current : HealthFile)
  | giveUp (pid : Pid)
  | work (pid : Pid) (ok : Bool)
  | wrote (pid : Pid) (n : Nat)
  | collect (pid : Pid)
  | crash (pid : Pid)

namespace HealthWorld

variable {Pid : Type} [DecidableEq Pid] (world : HealthWorld Pid) (pid : Pid)

def setSaver (saver : Saver) : HealthWorld Pid :=
  { world with saver := Function.update world.saver pid saver }

def setWriter (writer : Writer) : HealthWorld Pid :=
  { world with writer := Function.update world.writer pid writer }

def file : Option Bytes := world.target.map world.content

def spawnSave (health : HealthText) (current : HealthFile) (saver : Saver) : HealthWorld Pid :=
  (world.setSaver pid saver).setWriter pid (.reclaiming (health.toText current))

def unlock (saver : Saver) : HealthWorld Pid :=
  { world.setSaver pid saver with holder := world.holder.filter (· ≠ pid) }

def work (ok : Bool) : Option (HealthWorld Pid) :=
  match world.writer pid with
  | .reclaiming text =>
    if world.tmp.isSome && !ok then some (world.setWriter pid (.ended false))
    else some ({ world with tmp := none }.setWriter pid (.creating text))
  | .creating none => some (world.setWriter pid (.ended false))
  | .creating (some text) =>
    -- `create_new`
    if !ok || world.tmp.isSome then some (world.setWriter pid (.ended false))
    else
      some ({ world with
        content := Function.update world.content world.unused []
        unused := world.unused + 1
        tmp := some world.unused }.setWriter pid (.writing world.unused text))
  | .writing node text =>
    if ok then
      some ({ world with content := Function.update world.content node text }.setWriter pid
        (.flushed node text))
    else some (world.setWriter pid .discarding)
  | .flushed _ _ =>
    -- by name: whatever is there now
    if !ok || world.tmp.isNone then some (world.setWriter pid .discarding)
    else some ({ world with target := world.tmp, tmp := none }.setWriter pid .renamed)
  | .discarding =>
    some ({ world with tmp := if ok then none else world.tmp }.setWriter pid (.ended false))
  | .renamed => some (world.setWriter pid (.ended ok))
  | .idle | .ended _ => none

def step (health : HealthText) (world : HealthWorld Pid) :
    HealthEvent Pid → Option (HealthWorld Pid)
  | .boot pid baseline =>
    match world.saver pid with
    | .off =>
      let found := (world.file.bind health.fromText).isSome
      some (world.setSaver pid (.locking (if found then some baseline else none)))
    | _ => none
  | .lock pid ok =>
    match world.saver pid with
    | .locking last =>
      if !ok then some (world.setSaver pid .readOnly)
      else if world.holder.isSome then none
      else some { world.setSaver pid (.cleaning last) with holder := some pid }
    | _ => none
  | .clean pid ok =>
    match world.saver pid with
    | .cleaning last =>
      some { world.setSaver pid (.waiting last false) with
        tmp := if ok then none else world.tmp }
    | _ => none
  | .tick pid current =>
    match world.saver pid with
    | .waiting last false =>
      if last.any fun file => signature file == signature current then some world
      else some (world.spawnSave pid health current (.saving last current false))
    | _ => none
  | .stop pid =>
    match world.saver pid with
    | .waiting last false => some (world.setSaver pid (.waiting last true))
    | .saving last current false => some (world.setSaver pid (.saving last current true))
    | _ => none
  | .saveFinal pid current =>
    match world.saver pid with
    | .waiting _ true => some (world.spawnSave pid health current .savingFinal)
    | _ => none
  | .giveUp pid =>
    match world.saver pid with
    | .waiting _ true | .saving _ _ true | .savingFinal => some (world.unlock pid .finished)
    | _ => none
  | .work pid ok => world.work pid ok
  | .wrote pid n =>
    match world.writer pid with
    | .writing node text =>
      some { world with content := Function.update world.content node (text.take n) }
    | _ => none
  | .collect pid =>
    match world.writer pid, world.saver pid with
    | .ended ok, .saving last current stop =>
      some ((world.setSaver pid (.waiting (if ok then some current else last) stop)).setWriter pid
        .idle)
    | .ended _, .savingFinal => some ((world.unlock pid .finished).setWriter pid .idle)
    | _, _ => none
  | .crash pid => some ((world.unlock pid .dead).setWriter pid .idle)

def fresh (text tmp : Option Bytes) : HealthWorld Pid where
  content := fun node => if node = 0 then text.getD [] else tmp.getD []
  unused := 2
  target := text.map fun _ => 0
  tmp := tmp.map fun _ => 1
  holder := none
  saver := fun _ => .off
  writer := fun _ => .idle

end HealthWorld

/-- The texts whose rename has taken place, in order. -/
structure HealthLedger (Pid : Type) where
  world : HealthWorld Pid
  landed : List Bytes

section

variable {Pid : Type} [DecidableEq Pid]

def HealthWorld.lands (world : HealthWorld Pid) : HealthEvent Pid → Option Bytes
  | .work pid true =>
    match world.writer pid with
    | .flushed _ text => if world.tmp.isSome then some text else none
    | _ => none
  | _ => none

def HealthLedger.step (health : HealthText) (ledger : HealthLedger Pid)
    (event : HealthEvent Pid) : Option (HealthLedger Pid) :=
  (ledger.world.step health event).map fun world =>
    ⟨world, ledger.landed ++ (ledger.world.lands event).toList⟩

/-- The end of `FINISH_BUDGET` does not come over a save that is under way. -/
def HealthLedger.patient (ledger : HealthLedger Pid) : HealthEvent Pid → Bool
  | .giveUp pid =>
    match ledger.world.writer pid with
    | .idle | .ended _ => true
    | _ => false
  | _ => true

end

end Resocks5.Server
