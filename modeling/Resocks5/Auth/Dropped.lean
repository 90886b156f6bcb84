import Resocks5.Auth.Claim
import Resocks5.Foundation.Permits

namespace Resocks5.Auth

open Resocks5.Foundation

/-! Verifications that nobody may wait for any more. A future can be dropped wherever it awaits;
a closure on the blocking pool runs on to its end. -/

def Phase.inClosure : Phase → Bool
  | .prepare | .readHash _ | .prepareClaim | .fastPath _ | .waitClaimLock _ | .recheckLocked _
  | .fallback _ | .persist _ _ | .publish _ _ | .cacheClaim _ | .verifyStored _ => true
  | _ => false

def Phase.awaits : Phase → Bool
  | .start | .waitVerifySlot | .waitGate _ | .waitClaimSlot _ | .waitReverify _ => true
  | _ => false

/-- `dropped` are the calls whose future is gone. -/
structure Server (Tid Digest : Type) where
  world : World Tid Digest
  dropped : Tid → Bool

inductive ServerAction (Tid : Type) where
  | advance (call : Tid) (surroundings : Surroundings)
  | drop (call : Tid)
  | editDisk (content : Option (List User))

section

variable {Tid Digest : Type} [DecidableEq Tid] [DecidableEq Digest]
  (crypto : Crypto Digest) (entries : String → Option UserEntry)
  (roster : Tid → Request)

/-- What the frame of the future holds goes with it: the guard of the gate. -/
def World.dropFrame (world : World Tid Digest) (call : Tid) : World Tid Digest :=
  match world.phase call with
  | .waitClaimSlot _ =>
      { world with gates := Function.update world.gates (roster call).name none }.goto call
        (.done false)
  | _ => world.goto call (.done false)

/-- Nobody takes up what the closure of a dropped call has returned. -/
def Server.returned (server : Server Tid Digest) (call : Tid) (next : World Tid Digest) :
    World Tid Digest :=
  if server.dropped call && !(next.phase call).inClosure then next.goto call (.done false)
  else next

def Server.step (server : Server Tid Digest) :
    ServerAction Tid → Option (Server Tid Digest)
  | .advance call surroundings =>
      (advance crypto entries roster server.world call surroundings).map fun next =>
        { server with world := server.returned call next }
  | .drop call =>
      if (roster call).mode = .verify ∨ server.dropped call then none
      else if (server.world.phase call).awaits then
        some { server with world := server.world.dropFrame roster call }
      else if (server.world.phase call).inClosure then
        some { server with dropped := Function.update server.dropped call true }
      else none
  | .editDisk content => some { server with world := { server.world with disk := content } }

def initialServer (users : List User) (disk : Option (List User)) (workers : Nat) :
    Server Tid Digest :=
  ⟨initialWorld users disk workers, fun _ => false⟩

end

/-! What a call has in hand. -/

structure Grip where
  verifySlot : Bool
  claimSlot : Bool
  gate : Bool
  lock : Bool
  deriving DecidableEq, Repr

/-- The synchronous path takes the claim mutex only. -/
def Phase.grip : Mode → Phase → Grip
  | .verify, .recheckLocked _ | .verify, .fallback _ | .verify, .persist _ _
  | .verify, .publish _ _ | .verify, .cacheClaim _ => ⟨false, false, false, true⟩
  | .verify, _ => ⟨false, false, false, false⟩
  | .verifyAsync, .prepare | .verifyAsync, .readHash _ | .verifyAsync, .prepareClaim
  | .verifyAsync, .fastPath _ | .verifyAsync, .verifyStored _ => ⟨true, false, false, false⟩
  | .verifyAsync, .recheckGate _ | .verifyAsync, .waitClaimSlot _ => ⟨false, false, true, false⟩
  | .verifyAsync, .waitClaimLock _ => ⟨false, true, true, false⟩
  | .verifyAsync, .recheckLocked _ | .verifyAsync, .fallback _ | .verifyAsync, .persist _ _
  | .verifyAsync, .publish _ _ | .verifyAsync, .cacheClaim _ => ⟨false, true, true, true⟩
  | .verifyAsync, _ => ⟨false, false, false, false⟩

section

variable {Tid Digest : Type} (roster : Tid → Request)

def World.grip (world : World Tid Digest) (call : Tid) : Grip :=
  (world.phase call).grip (roster call).mode

structure Accounted (workers : Nat) (world : World Tid Digest) : Prop where
  hashing : Balanced (fun call => (world.grip roster call).verifySlot) world.verifySlots workers
  claiming : Balanced (fun call => (world.grip roster call).claimSlot) world.claimSlots 2
  gates : ∀ name, Owned
    (fun call => decide ((roster call).name = name) && (world.grip roster call).gate)
    (world.gates name)
  lock : Owned (fun call => (world.grip roster call).lock) world.claimLock

end

end Resocks5.Auth
