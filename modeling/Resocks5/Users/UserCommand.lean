import Resocks5.Auth.ClaimInvariant

namespace Resocks5.Users

open Resocks5.Auth

/-! The changes that the command line makes to a list of users. -/

/-- What a subcommand asks for; the hash is that of the password that was entered. -/
inductive UserAction where
  | add (name hash : String)
  | addInit (name : String)
  | setPassword (name hash : String)
  | remove (name : String)
  | enable (name : String)
  | disable (name : String)
  | direct (name : String)
  | pool (name : String)
  deriving DecidableEq, Repr

inductive UserOp where
  | add (user : User)
  | addInit (user : User)
  | setPassword (name hash : String)
  | remove (name : String)
  | setEnabled (name : String) (enabled : Bool)
  | setDirect (name : String) (direct : Bool)
  deriving DecidableEq, Repr

def alreadyExists (name : String) : String := "user '" ++ name ++ "' already exists"

def notFound (name : String) : String := "user '" ++ name ++ "' not found"

def validateName (name : String) : Except String Unit :=
  if name.isEmpty then .error "username is empty"
  else if 255 < name.utf8ByteSize then
    .error "username too long (max 255 bytes per RFC 1929)"
  else if name.toList.contains ':' then
    .error "username contains ':' — would collide with the SOCKS5 user/pass parser"
  else .ok ()

def buildAddedUser (name hash : String) : User := ⟨name, hash, true, false, none⟩

def buildOp (users : List User) : UserAction → Except String UserOp
  | .add name hash => do
    validateName name
    if users.any (·.name = name) then throw (alreadyExists name)
    return .add (buildAddedUser name hash)
  | .addInit name => do
    validateName name
    if users.any (·.name = name) then throw (alreadyExists name)
    return .addInit (buildAddedUser name initHash)
  | .setPassword name hash => found name (.setPassword name hash)
  | .remove name => found name (.remove name)
  | .enable name => found name (.setEnabled name true)
  | .disable name => found name (.setEnabled name false)
  | .direct name => found name (.setDirect name true)
  | .pool name => found name (.setDirect name false)
where
  found (name : String) (op : UserOp) : Except String UserOp :=
    if (findUser name users).isSome then .ok op else .error (notFound name)

def modifyUser (name : String) (f : User → User) : List User → Except String (List User)
  | [] => .error (notFound name)
  | user :: users =>
    if user.name = name then .ok (f user :: users)
    else (modifyUser name f users).map (user :: ·)

def removeUser (name : String) (users : List User) : Except String (List User) :=
  match users.findIdx? (·.name = name) with
  | none => .error (notFound name)
  | some pos => .ok (users.eraseIdx pos)

def pushUser (user : User) (users : List User) : Except String (List User) :=
  if users.any (·.name = user.name) then .error (alreadyExists user.name)
  else .ok (users ++ [user])

def applyOp : UserOp → List User → Except String (List User)
  | .add user, users => pushUser user users
  | .addInit user, users => pushUser user users
  | .setPassword name hash, users => modifyUser name ({ · with hash }) users
  | .remove name, users => removeUser name users
  | .setEnabled name enabled, users => modifyUser name ({ · with isEnabled := enabled }) users
  | .setDirect name direct, users => modifyUser name ({ · with direct }) users

/-! Names stay apart. -/

def Distinct (users : List User) : Prop := (users.map User.name).Nodup

theorem modifyUser_names {name : String} {f : User → User} (hname : ∀ user, (f user).name = user.name)
    {users after : List User} (hmodify : modifyUser name f users = .ok after) :
    after.map User.name = users.map User.name := by
  induction users generalizing after with
  | nil => cases hmodify
  | cons user users ih =>
      rw [modifyUser] at hmodify
      split at hmodify
      · cases hmodify
        rw [List.map_cons, List.map_cons, hname]
      · cases hrest : modifyUser name f users with
        | error message =>
            rw [hrest] at hmodify
            cases hmodify
        | ok rest =>
            rw [hrest] at hmodify
            cases hmodify
            rw [List.map_cons, List.map_cons, ih hrest]

theorem pushUser_distinct {user : User} {users after : List User} (hdistinct : Distinct users)
    (hpush : pushUser user users = .ok after) : Distinct after := by
  rw [pushUser] at hpush
  split at hpush
  · cases hpush
  · rename_i hnew
    cases hpush
    rw [Distinct, List.map_append, List.map_singleton]
    refine List.nodup_append.mpr ⟨hdistinct, List.pairwise_singleton _ _, ?_⟩
    intro name hname other hother
    obtain rfl := List.mem_singleton.mp hother
    obtain ⟨known, hknown, rfl⟩ := List.mem_map.mp hname
    intro hsame
    exact hnew (List.any_eq_true.mpr ⟨known, hknown, decide_eq_true hsame⟩)

theorem removeUser_distinct {name : String} {users after : List User}
    (hdistinct : Distinct users) (hremove : removeUser name users = .ok after) :
    Distinct after := by
  rw [removeUser] at hremove
  split at hremove
  · cases hremove
  · cases hremove
    exact hdistinct.sublist ((List.eraseIdx_sublist _ _).map _)

theorem applyOp_distinct {op : UserOp} {users after : List User} (hdistinct : Distinct users)
    (hop : applyOp op users = .ok after) : Distinct after := by
  have hmodified {name : String} {f : User → User} (hname : ∀ user, (f user).name = user.name)
      (hmodify : modifyUser name f users = .ok after) : Distinct after := by
    rw [Distinct, modifyUser_names hname hmodify]
    exact hdistinct
  cases op with
  | add user => exact pushUser_distinct hdistinct hop
  | addInit user => exact pushUser_distinct hdistinct hop
  | setPassword name hash => exact hmodified (f := ({ · with hash })) (fun _ => rfl) hop
  | remove name => exact removeUser_distinct hdistinct hop
  | setEnabled name enabled =>
      exact hmodified (f := ({ · with isEnabled := enabled })) (fun _ => rfl) hop
  | setDirect name direct => exact hmodified (f := ({ · with direct })) (fun _ => rfl) hop

theorem setHash_split {name : String} (hash : String) {users : List User} {user : User}
    (hfind : findUser name users = some user) :
    ∃ before behind, users = before ++ user :: behind ∧ user.name = name ∧
      (∀ other ∈ before, other.name ≠ name) ∧
      setHash name hash users = before ++ { user with hash } :: behind := by
  induction users with
  | nil => cases hfind
  | cons head users ih =>
      by_cases hname : head.name = name
      · have hhead : head = user := by simpa [findUser, hname] using hfind
        subst hhead
        exact ⟨[], users, rfl, hname, by simp, if_pos hname⟩
      · have htail : findUser name users = some user := by
          simpa [findUser, hname] using hfind
        obtain ⟨before, behind, husers, huser, hbefore, hset⟩ := ih htail
        refine ⟨head :: before, behind, congrArg (head :: ·) husers, huser, ?_, ?_⟩
        · intro other hother
          obtain rfl | hother := List.mem_cons.mp hother
          · exact hname
          · exact hbefore other hother
        · rw [setHash, if_neg hname, hset, List.cons_append]

theorem setHash_distinct {name hash : String} {users : List User} {user : User}
    (hfind : findUser name users = some user) (hdistinct : Distinct users) :
    Distinct (setHash name hash users) := by
  obtain ⟨before, behind, husers, _, _, hset⟩ := setHash_split hash hfind
  rw [Distinct, hset]
  rw [Distinct, husers] at hdistinct
  simpa using hdistinct

end Resocks5.Users
