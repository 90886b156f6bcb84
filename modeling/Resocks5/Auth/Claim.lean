import Mathlib.Logic.Function.Basic
import Resocks5.Auth.UsersFile
import Resocks5.Foundation.Run

namespace Resocks5.Auth

/-! Concurrent password verification.  Every scope in which the source holds a
lock, and every wait between two of them, is one phase of a call; calls advance
one phase at a time in any order. -/

/-- The cryptographic crates: `phc` is Argon2id hashing under a salt, `verify`
is `argon2_verify`, `mac` is HMAC-SHA256 under the process-local secret. -/
structure Crypto (Digest : Type) where
  phc : List UInt8 → String → Option String
  verify : String → String → Bool
  mac : List UInt8 → Digest

def Crypto.computeHash (crypto : Crypto Digest) (salt : Option (List UInt8))
    (password : String) : Option String :=
  salt.bind fun bytes => crypto.phc bytes password

def utf8 (text : String) : List UInt8 := text.toUTF8.data.toList

def cacheMessage (name password : String) : List UInt8 :=
  utf8 name ++ 0 :: utf8 password

def computeCacheHmac (crypto : Crypto Digest) (name password : String) :
    Digest :=
  crypto.mac (cacheMessage name password)

structure UserEntry where
  index : Nat
  enabled : Bool
  deriving DecidableEq, Repr

/-- `entries.entry(name).or_insert(..)` over the startup list: first wins. -/
def buildEntries (users : List User) (name : String) : Option UserEntry := do
  let index ← users.findIdx? fun user => user.name = name
  let user ← users[index]?
  pure ⟨index, user.isEnabled⟩

inductive Mode where
  | verify
  | verifyAsync
  deriving DecidableEq, Repr

structure Request where
  mode : Mode
  name : String
  password : String
  deriving DecidableEq, Repr

structure ClaimWork where
  index : Nat
  newHash : String
  deriving DecidableEq, Repr

inductive Phase where
  | start
  | waitVerifySlot
  | prepare
  | readHash (index : Nat)
  | prepareClaim
  | fastPath (newHash : String)
  | waitGate (work : ClaimWork)
  | recheckGate (work : ClaimWork)
  | waitClaimSlot (work : ClaimWork)
  | waitClaimLock (work : ClaimWork)
  | recheckLocked (work : ClaimWork)
  | fallback (work : ClaimWork)
  | persist (work : ClaimWork) (fallbackUsers : Option (List User))
  | publish (work : ClaimWork) (outcome : ClaimPersist)
  | cacheClaim (work : ClaimWork)
  | waitReverify (storedHash : String)
  | verifyStored (storedHash : String)
  | done (accepted : Bool)
  deriving DecidableEq, Repr

structure World (Tid Digest : Type) where
  users : List User
  cache : String → Option Digest
  disk : Option (List User)
  claimLock : Option Tid
  gates : String → Option Tid
  verifySlots : Nat
  claimSlots : Nat
  phase : Tid → Phase

/-- What a call may draw from outside while it advances. -/
structure Surroundings where
  salt : Option (List UInt8) := none
  io : PersistIo := {}

inductive Action (Tid : Type) where
  | advance (call : Tid) (surroundings : Surroundings)
  | editDisk (content : Option (List User))

def storedHash (users : List User) (index : Nat) : Option String :=
  users[index]?.map User.hash

def claimedHashIfAny (users : List User) (index : Nat) : Option String :=
  (storedHash users index).filter fun hash => hash ≠ initHash

def publishHash (users : List User) (index : Nat) (hash : String) : List User :=
  users.modify index fun user => { user with hash := hash }

section

variable {Tid Digest : Type} [DecidableEq Tid] [DecidableEq Digest]
  (crypto : Crypto Digest) (entries : String → Option UserEntry)
  (roster : Tid → Request)

def cacheMatches (cache : String → Option Digest) (name : String)
    (candidate : Digest) : Bool :=
  decide (cache name = some candidate)

def candidate (call : Tid) : Digest :=
  computeCacheHmac crypto (roster call).name (roster call).password

namespace World

def goto (world : World Tid Digest) (call : Tid) (phase : Phase) :
    World Tid Digest :=
  { world with phase := Function.update world.phase call phase }

/-- The hashing permit of the asynchronous path goes back when its closure
returns; the synchronous path never held one. -/
def dropVerifySlot (world : World Tid Digest) (mode : Mode) :
    World Tid Digest :=
  match mode with
  | .verify => world
  | .verifyAsync => { world with verifySlots := world.verifySlots + 1 }

/-- Leaving `claim_commit` drops the claim mutex, and on the asynchronous path
also the account gate and the claim permit moved into its closure. -/
def leaveCommit (world : World Tid Digest) (request : Request) :
    World Tid Digest :=
  match request.mode with
  | .verify => { world with claimLock := none }
  | .verifyAsync =>
      { world with
        claimLock := none
        gates := Function.update world.gates request.name none
        claimSlots := world.claimSlots + 1 }

def afterCommit (request : Request) (storedHash : String) : Phase :=
  match request.mode with
  | .verify => .verifyStored storedHash
  | .verifyAsync => .waitReverify storedHash

end World

open World

def begin (world : World Tid Digest) (call : Tid) : World Tid Digest :=
  let request := roster call
  match request.mode with
  | .verify => world.goto call .prepare
  | .verifyAsync =>
      if !(entries request.name).any UserEntry.enabled then
        world.goto call (.done false)
      else if cacheMatches world.cache request.name
          (candidate crypto roster call) then
        world.goto call (.done true)
      else world.goto call .waitVerifySlot

def verifyPrepare (world : World Tid Digest) (call : Tid) :
    World Tid Digest :=
  let request := roster call
  match (entries request.name).filter UserEntry.enabled with
  | none => (world.dropVerifySlot request.mode).goto call (.done false)
  | some entry =>
      if cacheMatches world.cache request.name
          (candidate crypto roster call) then
        (world.dropVerifySlot request.mode).goto call (.done true)
      else world.goto call (.readHash entry.index)

def prepareClaim (world : World Tid Digest) (call : Tid)
    (salt : Option (List UInt8)) : World Tid Digest :=
  let request := roster call
  let reject := (world.dropVerifySlot request.mode).goto call (.done false)
  if request.password.isEmpty then reject
  else if 255 < request.password.utf8ByteSize then reject
  else
    match crypto.computeHash salt request.password with
    | none => reject
    | some newHash => world.goto call (.fastPath newHash)

def claimFastPath (world : World Tid Digest) (call : Tid) (newHash : String) :
    World Tid Digest :=
  let request := roster call
  match entries request.name with
  | none => (world.dropVerifySlot request.mode).goto call (.done false)
  | some entry =>
      match claimedHashIfAny world.users entry.index with
      | some claimedHash => world.goto call (.verifyStored claimedHash)
      | none =>
          (world.dropVerifySlot request.mode).goto call
            (match request.mode with
            | .verify => .waitClaimLock ⟨entry.index, newHash⟩
            | .verifyAsync => .waitGate ⟨entry.index, newHash⟩)

def recheckGate (world : World Tid Digest) (call : Tid) (work : ClaimWork) :
    World Tid Digest :=
  match claimedHashIfAny world.users work.index with
  | some claimedHash =>
      { world with
        gates := Function.update world.gates (roster call).name none }.goto
          call (.waitReverify claimedHash)
  | none => world.goto call (.waitClaimSlot work)

def recheckLocked (world : World Tid Digest) (call : Tid) (work : ClaimWork) :
    World Tid Digest :=
  match claimedHashIfAny world.users work.index with
  | some claimedHash =>
      (world.leaveCommit (roster call)).goto call
        (afterCommit (roster call) claimedHash)
  | none => world.goto call (.fallback work)

def claimFallback (world : World Tid Digest) (call : Tid) (work : ClaimWork) :
    World Tid Digest :=
  world.goto call (.persist work
    (if world.disk.isSome then none
    else some (publishHash world.users work.index work.newHash)))

def claimPersist (world : World Tid Digest) (call : Tid) (work : ClaimWork)
    (fallbackUsers : Option (List User)) (io : PersistIo) : World Tid Digest :=
  let result := persistClaim io world.disk (roster call).name work.newHash
    fallbackUsers
  { world with disk := result.2 }.goto call (.publish work result.1)

def claimPublish (world : World Tid Digest) (call : Tid) (work : ClaimWork) :
    ClaimPersist → World Tid Digest
  | .written =>
      { world with
        users := publishHash world.users work.index work.newHash }.goto
          call (.cacheClaim work)
  | .diskHashChanged diskHash =>
      ({ world with
        users := publishHash world.users work.index diskHash }.leaveCommit
          (roster call)).goto call (afterCommit (roster call) diskHash)
  | .failed _ =>
      ({ world with
        users := publishHash world.users work.index initHash }.leaveCommit
          (roster call)).goto call (.done false)

def cacheClaim (world : World Tid Digest) (call : Tid) : World Tid Digest :=
  let request := roster call
  ({ world with
    cache := Function.update world.cache request.name
      (some (candidate crypto roster call)) }.leaveCommit request).goto
        call (.done true)

def verifyAgainstCommitted (world : World Tid Digest) (call : Tid)
    (storedHash : String) : World Tid Digest :=
  let request := roster call
  let released := world.dropVerifySlot request.mode
  if crypto.verify storedHash request.password then
    { released with
      cache := Function.update world.cache request.name
        (some (candidate crypto roster call)) }.goto call (.done true)
  else released.goto call (.done false)

/-- One phase of one call; `none` while it has to wait, and once it is done. -/
def advance (world : World Tid Digest) (call : Tid)
    (surroundings : Surroundings) : Option (World Tid Digest) :=
  match world.phase call with
  | .start => some (begin crypto entries roster world call)
  | .waitVerifySlot =>
      if world.verifySlots = 0 then none
      else some ({ world with
        verifySlots := world.verifySlots - 1 }.goto call .prepare)
  | .prepare => some (verifyPrepare crypto entries roster world call)
  | .readHash index =>
      (storedHash world.users index).map fun hash =>
        world.goto call
          (if hash ≠ initHash then .verifyStored hash else .prepareClaim)
  | .prepareClaim =>
      some (prepareClaim crypto roster world call surroundings.salt)
  | .fastPath newHash =>
      some (claimFastPath entries roster world call newHash)
  | .waitGate work =>
      if (world.gates (roster call).name).isSome then none
      else some ({ world with
        gates := Function.update world.gates (roster call).name (some call)
        }.goto call (.recheckGate work))
  | .recheckGate work => some (recheckGate roster world call work)
  | .waitClaimSlot work =>
      if world.claimSlots = 0 then none
      else some ({ world with
        claimSlots := world.claimSlots - 1 }.goto call (.waitClaimLock work))
  | .waitClaimLock work =>
      if world.claimLock.isSome then none
      else some ({ world with claimLock := some call }.goto call
        (.recheckLocked work))
  | .recheckLocked work => some (recheckLocked roster world call work)
  | .fallback work => some (claimFallback world call work)
  | .persist work fallbackUsers =>
      some (claimPersist roster world call work fallbackUsers surroundings.io)
  | .publish work outcome =>
      some (claimPublish roster world call work outcome)
  | .cacheClaim _ => some (cacheClaim crypto roster world call)
  | .waitReverify hash =>
      if world.verifySlots = 0 then none
      else some ({ world with
        verifySlots := world.verifySlots - 1 }.goto call (.verifyStored hash))
  | .verifyStored hash =>
      some (verifyAgainstCommitted crypto roster world call hash)
  | .done _ => none

/-- Other processes may rewrite the users file between any two phases. -/
def step (world : World Tid Digest) : Action Tid → Option (World Tid Digest)
  | .advance call surroundings =>
      advance crypto entries roster world call surroundings
  | .editDisk content => some { world with disk := content }

def initialWorld (users : List User) (disk : Option (List User))
    (workers : Nat) : World Tid Digest where
  users := users
  cache := fun _ => none
  disk := disk
  claimLock := none
  gates := fun _ => none
  verifySlots := workers
  claimSlots := 2
  phase := fun _ => .start

end

end Resocks5.Auth
