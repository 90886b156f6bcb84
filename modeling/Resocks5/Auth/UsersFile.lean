import Mathlib.Data.List.Basic

namespace Resocks5.Auth

/-! The users file and the server-side merge of one first-login claim into it.
The file's content is the parsed user list; a missing file is `none`. -/

structure User where
  name : String
  hash : String
  isEnabled : Bool := true
  direct : Bool := false
  allowedClients : Option String := none
  deriving DecidableEq, Repr

/-- Sentinel of an account whose password has not been chosen yet. -/
def initHash : String := "init"

/-- What a call of `write_atomic` did: the commit rename is a single step, and
a failure is reported either before it or after it has already landed. -/
inductive WriteOutcome where
  | landed
  | failedBeforeCommit
  | failedAfterCommit
  deriving DecidableEq, Repr

def WriteOutcome.reported : WriteOutcome → Bool
  | .landed => true
  | .failedBeforeCommit => false
  | .failedAfterCommit => false

def writeAtomic (outcome : WriteOutcome) (content : List User)
    (disk : Option (List User)) : Option (List User) :=
  match outcome with
  | .landed => some content
  | .failedBeforeCommit => disk
  | .failedAfterCommit => some content

/-- `disk.users.iter_mut().find(|u| u.name == name)`, then the new hash. -/
def setHash (name hash : String) : List User → List User
  | [] => []
  | user :: users =>
      if user.name = name then { user with hash := hash } :: users
      else user :: setHash name hash users

def findUser (name : String) (users : List User) : Option User :=
  users.find? fun user => user.name = name

inductive ClaimFailure where
  | lock
  | disappeared
  | unreadable
  | userRemoved
  | write
  deriving DecidableEq, Repr

inductive ClaimPersist where
  | written
  | diskHashChanged (hash : String)
  | failed (reason : ClaimFailure)
  deriving DecidableEq, Repr

/-- The operating system's answers to one `persist_claim`. -/
structure PersistIo where
  lockAcquired : Bool := true
  readable : Bool := true
  write : WriteOutcome := .landed
  deriving DecidableEq, Repr

def commitClaim (io : PersistIo) (content : List User)
    (disk : Option (List User)) : ClaimPersist × Option (List User) :=
  (if io.write.reported then .written else .failed .write,
    writeAtomic io.write content disk)

def persistClaim (io : PersistIo) (disk : Option (List User))
    (name newHash : String) (fallbackUsers : Option (List User)) :
    ClaimPersist × Option (List User) :=
  if !io.lockAcquired then (.failed .lock, disk)
  else
    match disk with
    | none =>
        match fallbackUsers with
        | none => (.failed .disappeared, none)
        | some users => commitClaim io users none
    | some users =>
        if !io.readable then (.failed .unreadable, disk)
        else
          match findUser name users with
          | none => (.failed .userRemoved, disk)
          | some user =>
              if user.hash ≠ initHash then
                (.diskHashChanged user.hash, disk)
              else commitClaim io (setHash name newHash users) disk

def diskHash (disk : Option (List User)) (name : String) : Option String :=
  (disk.bind (findUser name)).map User.hash

theorem findUser_setHash (name hash : String) {users : List User} {user : User}
    (h : findUser name users = some user) :
    findUser name (setHash name hash users) =
      some { user with hash := hash } := by
  induction users with
  | nil => simp [findUser] at h
  | cons head users ih =>
      by_cases hname : head.name = name
      · have heq : head = user := by simpa [findUser, hname] using h
        subst user
        simp [findUser, setHash, hname]
      · have htail : findUser name users = some user := by
          simpa [findUser, hname] using h
        simpa [findUser, setHash, hname] using ih htail

theorem commitClaim_written {io : PersistIo} {content : List User}
    {disk after : Option (List User)}
    (h : commitClaim io content disk = (.written, after)) :
    after = some content := by
  unfold commitClaim at h
  cases hwrite : io.write with
  | landed => simp [hwrite, WriteOutcome.reported, writeAtomic] at h; exact h.symm
  | failedBeforeCommit => simp [hwrite, WriteOutcome.reported] at h
  | failedAfterCommit => simp [hwrite, WriteOutcome.reported] at h

theorem commitClaim_not_changed {io : PersistIo} {content : List User}
    {disk after : Option (List User)} {hash : String} :
    commitClaim io content disk ≠ (.diskHashChanged hash, after) := by
  unfold commitClaim
  cases hwrite : io.write <;> simp [WriteOutcome.reported]

theorem persistClaim_cases {io : PersistIo} {disk after : Option (List User)}
    {name newHash : String} {fallbackUsers : Option (List User)} {outcome : ClaimPersist}
    (h : persistClaim io disk name newHash fallbackUsers = (outcome, after)) :
    (∃ reason, outcome = .failed reason ∧ after = disk) ∨
    (∃ users, disk = none ∧ fallbackUsers = some users ∧
      commitClaim io users none = (outcome, after)) ∨
    ∃ user, disk.bind (findUser name) = some user ∧
      (user.hash ≠ initHash ∧ outcome = .diskHashChanged user.hash ∧ after = disk ∨
        ∃ users, disk = some users ∧
          commitClaim io (setHash name newHash users) disk = (outcome, after)) := by
  unfold persistClaim at h
  split at h
  · obtain ⟨rfl, rfl⟩ := Prod.mk.inj h
    exact .inl ⟨.lock, rfl, rfl⟩
  · cases disk with
    | none =>
        cases fallbackUsers with
        | none =>
            obtain ⟨rfl, rfl⟩ := Prod.mk.inj h
            exact .inl ⟨.disappeared, rfl, rfl⟩
        | some users => exact .inr (.inl ⟨users, rfl, rfl, h⟩)
    | some users =>
        dsimp only at h
        split at h
        · obtain ⟨rfl, rfl⟩ := Prod.mk.inj h
          exact .inl ⟨.unreadable, rfl, rfl⟩
        · cases hfind : findUser name users with
          | none =>
              rw [hfind] at h
              obtain ⟨rfl, rfl⟩ := Prod.mk.inj h
              exact .inl ⟨.userRemoved, rfl, rfl⟩
          | some user =>
              rw [hfind] at h
              dsimp only at h
              split at h
              · rename_i hclaimed
                obtain ⟨rfl, rfl⟩ := Prod.mk.inj h
                exact .inr (.inr ⟨user, hfind, .inl ⟨hclaimed, rfl, rfl⟩⟩)
              · exact .inr (.inr ⟨user, hfind, .inr ⟨users, rfl, h⟩⟩)

theorem persistClaim_written {io : PersistIo} {disk after : Option (List User)}
    {name newHash : String} {fallbackUsers : Option (List User)}
    (hfallback : ∀ users, fallbackUsers = some users →
      (findUser name users).map User.hash = some newHash)
    (h : persistClaim io disk name newHash fallbackUsers = (.written, after)) :
    diskHash after name = some newHash := by
  obtain ⟨_, hfailed, _⟩ | ⟨users, _, husers, hcommit⟩ |
    ⟨user, hfind, ⟨_, hchanged, _⟩ | ⟨users, rfl, hcommit⟩⟩ := persistClaim_cases h
  · cases hfailed
  · rw [commitClaim_written hcommit]
    exact hfallback users husers
  · cases hchanged
  · rw [commitClaim_written hcommit]
    simp [diskHash, findUser_setHash name newHash hfind]

theorem persistClaim_diskHashChanged {io : PersistIo}
    {disk after : Option (List User)} {name newHash hash : String}
    {fallbackUsers : Option (List User)}
    (h : persistClaim io disk name newHash fallbackUsers =
      (.diskHashChanged hash, after)) :
    hash ≠ initHash ∧ after = disk ∧ diskHash disk name = some hash := by
  obtain ⟨_, hfailed, _⟩ | ⟨users, _, _, hcommit⟩ |
    ⟨user, hfind, ⟨hclaimed, hchanged, hafter⟩ | ⟨users, _, hcommit⟩⟩ := persistClaim_cases h
  · cases hfailed
  · exact absurd hcommit commitClaim_not_changed
  · obtain rfl := ClaimPersist.diskHashChanged.inj hchanged
    exact ⟨hclaimed, hafter, by rw [diskHash, hfind]; rfl⟩
  · exact absurd hcommit commitClaim_not_changed

end Resocks5.Auth
