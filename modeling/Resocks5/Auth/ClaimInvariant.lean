import Resocks5.Auth.Claim

namespace Resocks5.Auth

open Resocks5.Foundation

/-! What every reachable world of concurrent verifications satisfies. -/

section Stored

variable {users : List User} {index : Nat} {hash : String}

theorem claimedHashIfAny_some (h : claimedHashIfAny users index = some hash) :
    storedHash users index = some hash ∧ hash ≠ initHash := by
  unfold claimedHashIfAny at h
  rw [Option.filter_eq_some_iff] at h
  exact ⟨h.1, by simpa using h.2⟩

theorem claimedHashIfAny_none (h : claimedHashIfAny users index = none)
    (hstored : storedHash users index = some hash) : hash = initHash := by
  unfold claimedHashIfAny at h
  rw [hstored] at h
  by_contra hne
  simp [Option.filter, hne] at h

theorem storedHash_publishHash_self {previous : String}
    (h : storedHash users index = some previous) (hash : String) :
    storedHash (publishHash users index hash) index = some hash := by
  unfold storedHash at h ⊢
  obtain ⟨user, huser, -⟩ := Option.map_eq_some_iff.mp h
  simp [publishHash, huser]

theorem storedHash_publishHash_other {other : Nat} (hne : other ≠ index)
    (hash : String) :
    storedHash (publishHash users index hash) other = storedHash users other := by
  unfold storedHash publishHash
  rw [List.getElem?_modify]
  simp [Ne.symm hne]

theorem names_publishHash (users : List User) (index : Nat) (hash : String) :
    (publishHash users index hash).map User.name = users.map User.name := by
  apply List.ext_getElem?
  intro position
  simp only [publishHash, List.getElem?_map, List.getElem?_modify]
  cases users[position]? with
  | none => rfl
  | some user => by_cases heq : index = position <;> simp [heq]

theorem publishHash_keeps (hinit : storedHash users index = some initHash)
    (hash : String) {other : Nat} {kept : String} (hkept : kept ≠ initHash)
    (hstored : storedHash users other = some kept) :
    storedHash (publishHash users index hash) other = some kept := by
  by_cases heq : other = index
  · subst heq
    rw [hinit] at hstored
    exact absurd (Option.some.inj hstored).symm hkept
  · rw [storedHash_publishHash_other heq]
    exact hstored

end Stored

section Entries

def indexOf (users : List User) (name : String) : Option Nat :=
  (buildEntries users name).map UserEntry.index

theorem indexOf_eq_findIdx? (users : List User) (name : String) :
    indexOf users name = users.findIdx? fun user => user.name = name := by
  unfold indexOf buildEntries
  cases hfind : users.findIdx? fun user => user.name = name with
  | none => rfl
  | some index =>
      have hlt := (List.findIdx?_eq_some_iff_getElem.mp hfind).1
      simp [List.getElem?_eq_getElem hlt]

theorem indexOf_name {users : List User} {name : String} {index : Nat}
    (h : indexOf users name = some index) :
    (users.map User.name)[index]? = some name := by
  rw [indexOf_eq_findIdx?] at h
  obtain ⟨hlt, hname, -⟩ := List.findIdx?_eq_some_iff_getElem.mp h
  simpa [List.getElem?_eq_getElem hlt] using hname

theorem indexOf_injective {users : List User} {first second : String}
    {index : Nat} (hfirst : indexOf users first = some index)
    (hsecond : indexOf users second = some index) : first = second := by
  have heq := (indexOf_name hfirst).symm.trans (indexOf_name hsecond)
  exact Option.some.inj heq

theorem indexOf_congr {users others : List User}
    (h : others.map User.name = users.map User.name) (name : String) :
    indexOf others name = indexOf users name := by
  have hmap : ∀ list : List User,
      (list.findIdx? fun user => user.name = name) =
        (list.map User.name).findIdx? fun candidate => candidate = name := by
    intro list
    rw [List.findIdx?_map]
    rfl
  rw [indexOf_eq_findIdx?, indexOf_eq_findIdx?, hmap, hmap, h]

theorem findUser_of_indexOf {users : List User} {name : String} {index : Nat}
    (h : indexOf users name = some index) :
    (findUser name users).map User.hash = storedHash users index := by
  rw [indexOf_eq_findIdx?] at h
  obtain ⟨hlt, hname, hbefore⟩ := List.findIdx?_eq_some_iff_getElem.mp h
  have hfind : findUser name users = some users[index] := by
    unfold findUser
    rw [List.find?_eq_some_iff_getElem]
    exact ⟨hname, index, hlt, rfl, fun earlier hearlier => by
      simpa using hbefore earlier hearlier⟩
  simp [hfind, storedHash, List.getElem?_eq_getElem hlt]

end Entries

section Invariant

variable {Tid Digest : Type} [DecidableEq Tid] [DecidableEq Digest]
  (crypto : Crypto Digest) (users : List User) (roster : Tid → Request)
  (disk : Option (List User)) (workers : Nat)

def ReachableWorld (world : World Tid Digest) : Prop :=
  Reaches (step crypto (buildEntries users) roster)
    (initialWorld users disk workers) world

/-- The hash an outcome of the persistence step tells the server to publish. -/
def ClaimPersist.settled (newHash : String) : ClaimPersist → Option String
  | .written => some newHash
  | .diskHashChanged hash => some hash
  | .failed _ => none

/-- At some point of the run a claim of the account left its persistence step
having written `hash`, or having found it, and the users file held it. -/
def OnDisk (world : World Tid Digest) (name hash : String) : Prop :=
  ∃ earlier owner work outcome,
    ReachableWorld crypto users roster disk workers earlier ∧
    Reaches (step crypto (buildEntries users) roster) earlier world ∧
    (roster owner).name = name ∧
    earlier.phase owner = .publish work outcome ∧
    outcome.settled work.newHash = some hash ∧
    diskHash earlier.disk name = some hash

def Published (world : World Tid Digest) (name hash : String) : Prop :=
  ∃ index, indexOf users name = some index ∧
    storedHash world.users index = some hash ∧ hash ≠ initHash

def Phase.locked : Phase → Bool
  | .recheckLocked _ | .fallback _ | .persist _ _ | .publish _ _
  | .cacheClaim _ => true
  | _ => false

def Fresh (request : Request) (newHash : String) : Prop :=
  newHash ≠ initHash ∧ crypto.verify newHash request.password = true

def Claims (request : Request) (work : ClaimWork) : Prop :=
  indexOf users request.name = some work.index ∧
    Fresh crypto request work.newHash

def Unclaimed (world : World Tid Digest) (work : ClaimWork) : Prop :=
  storedHash world.users work.index = some initHash

/-- What the current phase of a call implies about the shared state. -/
def CallInv (world : World Tid Digest) (call : Tid) : Prop :=
  let request := roster call
  match world.phase call with
  | .readHash index => indexOf users request.name = some index
  | .fastPath newHash => Fresh crypto request newHash
  | .waitGate work | .recheckGate work | .waitClaimSlot work
  | .waitClaimLock work | .recheckLocked work =>
      Claims crypto users request work
  | .fallback work =>
      Claims crypto users request work ∧ Unclaimed world work
  | .persist work fallbackUsers =>
      Claims crypto users request work ∧ Unclaimed world work ∧
        ∀ snapshot, fallbackUsers = some snapshot →
          (findUser request.name snapshot).map User.hash = some work.newHash
  | .publish work outcome =>
      Claims crypto users request work ∧ Unclaimed world work ∧
        match outcome with
        | .written => OnDisk crypto users roster disk workers world
            request.name work.newHash
        | .diskHashChanged hash => hash ≠ initHash ∧
            OnDisk crypto users roster disk workers world request.name hash
        | .failed _ => True
  | .cacheClaim work =>
      Claims crypto users request work ∧
        storedHash world.users work.index = some work.newHash
  | .waitReverify hash | .verifyStored hash =>
      Published users world request.name hash
  | .done true => ∃ hash, Published users world request.name hash ∧
      crypto.verify hash request.password = true
  | .start | .waitVerifySlot | .prepare | .prepareClaim | .done false => True

/-- A cache entry is the digest of a submitted password that verifies against
the account's current hash. -/
def CacheInv (world : World Tid Digest) : Prop :=
  ∀ name digest, world.cache name = some digest →
    ∃ call hash, (roster call).name = name ∧
      candidate crypto roster call = digest ∧
      Published users world name hash ∧
      crypto.verify hash (roster call).password = true

structure Safe (world : World Tid Digest) : Prop where
  reachable : ReachableWorld crypto users roster disk workers world
  names : world.users.map User.name = users.map User.name
  locked : ∀ call, (world.phase call).locked = true →
    world.claimLock = some call
  cached : CacheInv crypto users roster world
  origin : ∀ name index hash, indexOf users name = some index →
    storedHash users index = some initHash →
    storedHash world.users index = some hash → hash ≠ initHash →
    OnDisk crypto users roster disk workers world name hash
  calls : ∀ call, CallInv crypto users roster disk workers world call

end Invariant

end Resocks5.Auth
