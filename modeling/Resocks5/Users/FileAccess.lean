import Resocks5.Foundation.Bytes
import Resocks5.Users.UserCommand

namespace Resocks5.Users

open Resocks5.Auth
open Resocks5.Foundation

/-! What is done to the users file under its lock. -/

structure Ktav where
  toText : List User → Option Bytes
  fromText : Bytes → Option (List User)

/-- What was written is read back. -/
def Ktav.Faithful (ktav : Ktav) : Prop :=
  ∀ users text, ktav.toText users = some text → ktav.fromText text = some users

inductive Failure where
  | lock
  | read
  | refused (message : String)
  | disappeared
  | userRemoved
  | serialize
  | create
  | write
  | rename
  | sync
  deriving DecidableEq, Repr

inductive Report where
  | written
  | found
  | hashChanged (hash : String)
  | rejected
  | failed (reason : Failure)
  deriving DecidableEq, Repr

/-- The rename has taken place. -/
def Report.landed : Report → Bool
  | written | failed .sync => true
  | _ => false

/-- The first run, a subcommand, or a first login with the users it would put into a file that
is not there. -/
inductive Job where
  | initialise
  | commit (op : UserOp)
  | claim (name newHash : String) (fallbackUsers : Option (List User))
  deriving DecidableEq, Repr

section

variable (ktav : Ktav)

def writable (users : List User) : Except Report Bytes :=
  match ktav.toText users with
  | none => .error (.failed .serialize)
  | some text => .ok text

/-- The text that a job writes over the file it finds, or what it reports otherwise. -/
def Job.decide : Job → Option Bytes → Except Report Bytes
  | .initialise, some text =>
    .error (if (ktav.fromText text).isSome then .found else .failed .read)
  | .initialise, none => writable ktav []
  | .commit _, none => .error (.failed .read)
  | .commit op, some text =>
    match ktav.fromText text with
    | none => .error (.failed .read)
    | some fresh =>
      match applyOp op fresh with
      | .error message => .error (.failed (.refused message))
      | .ok users => writable ktav users
  | .claim _ _ none, none => .error (.failed .disappeared)
  | .claim _ _ (some fallbackUsers), none => writable ktav fallbackUsers
  | .claim name newHash _, some text =>
    match ktav.fromText text with
    | none => .error (.failed .read)
    | some disk =>
      match findUser name disk with
      | none => .error (.failed .userRemoved)
      | some user =>
        if user.hash ≠ initHash then .error (.hashChanged user.hash)
        else writable ktav (setHash name newHash disk)

def Job.perform (job : Job) (target : Option Bytes) : Option Bytes :=
  match job.decide ktav target with
  | .ok text => some text
  | .error _ => target

end

/-! Any number of processes at once. -/

/-- What a process is for. A claim is made by a running server. -/
inductive Work (Server : Type) where
  | initialise
  | command (action : UserAction)
  | claim (server : Server) (name newHash : String)
  deriving DecidableEq, Repr

/-- Where a process stands; from `locked` to `leaving` it has the lock. -/
inductive Phase where
  | start
  | waiting (job : Job)
  | locked (job : Job)
  | creating (job : Job) (text : Bytes)
  | writing (job : Job) (text : Bytes)
  | flushed (job : Job) (text : Bytes)
  | discarding (reason : Failure)
  | renamed
  | leaving (report : Report)
  | publishing (report : Report)
  | done (report : Report)
  | dead
  deriving DecidableEq, Repr

/-- `tmp` is the file beside the target, `memory` the users that a server has loaded. -/
structure World (Pid Server : Type) where
  target : Option Bytes
  tmp : Option Bytes
  holder : Option Pid
  memory : Server → Option (List User)
  phase : Pid → Phase

/-- `boot` is a server that loads the file; in `advance` a process goes on, its call well or not;
`wrote` is a part of the text in the temporary file; a `crash` ends a process anywhere. -/
inductive Event (Pid Server : Type) where
  | boot (server : Server)
  | advance (pid : Pid) (ok : Bool)
  | wrote (pid : Pid) (n : Nat)
  | crash (pid : Pid)
  deriving DecidableEq, Repr

namespace World

variable {Pid Server : Type} [DecidableEq Pid] [DecidableEq Server]

def goto (world : World Pid Server) (pid : Pid) (phase : Phase) : World Pid Server :=
  { world with phase := Function.update world.phase pid phase }

/-- Up to the lock: what is known before, for a claim also whether the file is there. A subcommand
that finds no file makes one first, by an `initialise` of its own. -/
def prepare (ktav : Ktav) (world : World Pid Server) (work : Work Server) : Option Phase :=
  match work with
  | .initialise =>
    match world.target with
    | some text => some (.done (if (ktav.fromText text).isSome then .found else .failed .read))
    | none => some (.waiting .initialise)
  | .command action =>
    world.target.map fun text =>
      match ktav.fromText text with
      | none => .done (.failed .read)
      | some users =>
        match buildOp users action with
        | .error message => .done (.failed (.refused message))
        | .ok op => .waiting (.commit op)
  | .claim server name newHash =>
    (world.memory server).map fun users =>
      match (buildEntries users name).filter UserEntry.enabled with
      | none => .done .rejected
      | some entry =>
        match claimedHashIfAny users entry.index with
        | some _ => .done .rejected
        | none =>
          .waiting (.claim name newHash
            (if world.target.isSome then none
            else some (publishHash users entry.index newHash)))

def publishedHash (newHash : String) : Report → String
  | .written => newHash
  | .hashChanged hash => hash
  | _ => initHash

def publish (world : World Pid Server) (work : Work Server) (report : Report) :
    World Pid Server :=
  match work with
  | .claim server name newHash =>
    { world with
      memory := Function.update world.memory server <| (world.memory server).map fun users =>
        match buildEntries users name with
        | none => users
        | some entry => publishHash users entry.index (publishedHash newHash report) }
  | _ => world

def advance (ktav : Ktav) (roster : Pid → Work Server) (world : World Pid Server) (pid : Pid)
    (ok : Bool) : Option (World Pid Server) :=
  match world.phase pid with
  | .start =>
    if ok then (world.prepare ktav (roster pid)).map (world.goto pid)
    else some (world.goto pid (.done (.failed .read)))
  | .waiting job =>
    if !ok then some (world.goto pid (.done (.failed .lock)))
    else if world.holder.isSome then none
    else some ({ world with holder := some pid }.goto pid (.locked job))
  | .locked job =>
    if !ok then some (world.goto pid (.leaving (.failed .read)))
    else
      match job.decide ktav world.target with
      | .error report => some (world.goto pid (.leaving report))
      | .ok text => some (world.goto pid (.creating job text))
  | .creating job text =>
    -- `create_new`
    if !ok || world.tmp.isSome then some (world.goto pid (.leaving (.failed .create)))
    else some ({ world with tmp := some [] }.goto pid (.writing job text))
  | .writing job text =>
    if !ok then some (world.goto pid (.discarding .write))
    else some ({ world with tmp := some text }.goto pid (.flushed job text))
  | .flushed _ _ =>
    if !ok then some (world.goto pid (.discarding .rename))
    else some ({ world with target := world.tmp, tmp := none }.goto pid .renamed)
  | .discarding reason =>
    some ({ world with tmp := if ok then none else world.tmp }.goto pid
      (.leaving (.failed reason)))
  | .renamed => some (world.goto pid (.leaving (if ok then .written else .failed .sync)))
  | .leaving report => some ({ world with holder := none }.goto pid (.publishing report))
  | .publishing report => some ((world.publish (roster pid) report).goto pid (.done report))
  | .done _ | .dead => none

def step (ktav : Ktav) (roster : Pid → Work Server) (world : World Pid Server) :
    Event Pid Server → Option (World Pid Server)
  | .boot server =>
    if (world.memory server).isSome then none
    else
      (world.target.bind ktav.fromText).map fun users =>
        { world with memory := Function.update world.memory server (some users) }
  | .advance pid ok => world.advance ktav roster pid ok
  | .wrote pid n =>
    match world.phase pid with
    | .writing _ text => some { world with tmp := some (text.take n) }
    | _ => none
  | .crash pid =>
    some ({ world with holder := world.holder.filter (· ≠ pid) }.goto pid .dead)

def fresh (target tmp : Option Bytes) : World Pid Server :=
  ⟨target, tmp, none, fun _ => none, fun _ => .start⟩

end World

/-! Who took the lock and whose write landed, in order. -/

structure Txn (Pid : Type) where
  pid : Pid
  job : Job
  deriving DecidableEq, Repr

structure Ledger (Pid Server : Type) where
  world : World Pid Server
  locked : List (Txn Pid)
  landed : List (Txn Pid)

section

variable {Pid Server : Type} [DecidableEq Pid] [DecidableEq Server]

def World.locks (world : World Pid Server) : Event Pid Server → Option (Txn Pid)
  | .advance pid true =>
    match world.phase pid with
    | .waiting job => some ⟨pid, job⟩
    | _ => none
  | _ => none

def World.lands (world : World Pid Server) : Event Pid Server → Option (Txn Pid)
  | .advance pid true =>
    match world.phase pid with
    | .flushed job _ => some ⟨pid, job⟩
    | _ => none
  | _ => none

def Ledger.step (ktav : Ktav) (roster : Pid → Work Server) (ledger : Ledger Pid Server)
    (event : Event Pid Server) : Option (Ledger Pid Server) :=
  (ledger.world.step ktav roster event).map fun world =>
    ⟨world, ledger.locked ++ (ledger.world.locks event).toList,
      ledger.landed ++ (ledger.world.lands event).toList⟩

end

end Resocks5.Users
