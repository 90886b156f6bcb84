import Resocks5.Auth.UsersFile
import Resocks5.Config.AllowedClients

namespace Resocks5.Server

open Resocks5.Auth
open Resocks5.Config
open Resocks5.Foundation

/-! What the server knows of its users when it starts. -/

structure UserEntry where
  index : Nat
  enabled : Bool
  direct : Bool
  allowed : Option AllowedClients

/-- The start-up snapshot; what changes later (hashes, the cache) is the verification's. -/
structure AuthState where
  entries : List (Bytes × UserEntry)
  allowAnonymous : Bool

structure RuleError where
  name : Bytes
  fault : Config.Fault SpecError

def lookupEntry (name : Bytes) (entries : List (Bytes × UserEntry)) : Option UserEntry :=
  (entries.find? fun entry => entry.1 == name).map (·.2)

/-- `entry(name).or_insert(..)`. -/
def insertEntry (name : Bytes) (entry : UserEntry) (entries : List (Bytes × UserEntry)) :
    List (Bytes × UserEntry) :=
  if (lookupEntry name entries).isSome then entries else entries ++ [(name, entry)]

def compileRule (user : User) : Except RuleError (Option AllowedClients) :=
  match user.allowedClients with
  | none => .ok none
  | some spec =>
    match compileAllowedClients (lit spec) with
    | .ok rule => .ok (some rule)
    | .error fault => .error ⟨lit user.name, fault⟩

/-- Every rule is compiled, also that of a user who is disabled or named twice. -/
def buildEntries : Nat → List User → List (Bytes × UserEntry) →
    Except RuleError (List (Bytes × UserEntry))
  | _, [], entries => .ok entries
  | index, user :: users, entries =>
    match compileRule user with
    | .error error => .error error
    | .ok allowed =>
      buildEntries (index + 1) users
        (insertEntry (lit user.name) ⟨index, user.isEnabled, user.direct, allowed⟩ entries)

namespace AuthState

def build (allowAnonymous : Bool) (users : List User) : Except RuleError AuthState :=
  match buildEntries 0 users [] with
  | .ok entries => .ok ⟨entries, allowAnonymous⟩
  | .error error => .error error

variable (auth : AuthState) (name : Bytes)

def isEmpty : Bool := auth.entries.isEmpty

/-- Without an address nobody is allowed. -/
def clientIpAllowed (ip : Option IpAddr) : Bool :=
  match ip with
  | none => false
  | some ip =>
    (lookupEntry name auth.entries).any fun user =>
      user.enabled && user.allowed.all (·.matchesIp ip)

def isDirect : Bool :=
  (lookupEntry name auth.entries).any fun user => user.enabled && user.direct

end AuthState

def globalAllowed (rule : Option AllowedClients) (peer : Option IpAddr) : Bool :=
  match rule with
  | none => true
  | some rule => peer.any rule.matchesIp

/-! The first record of a name counts. -/

/-- The first record of `name` in the list, with its place counted from `index`. -/
def firstRecord (name : Bytes) : Nat → List User → Option (Nat × User)
  | _, [] => none
  | index, user :: users =>
    if lit user.name = name then some (index, user) else firstRecord name (index + 1) users

theorem lookupEntry_append_singleton (name other : Bytes) (entry : UserEntry)
    (entries : List (Bytes × UserEntry)) :
    lookupEntry name (entries ++ [(other, entry)]) =
      (lookupEntry name entries).or (if other = name then some entry else none) := by
  rw [lookupEntry, lookupEntry, List.find?_append, Option.map_or]
  by_cases hname : other = name
  · simp [hname]
  · simp [hname]

theorem lookupEntry_insertEntry (name other : Bytes) (entry : UserEntry)
    (entries : List (Bytes × UserEntry)) :
    lookupEntry name (insertEntry other entry entries) =
      (lookupEntry name entries).or (if other = name then some entry else none) := by
  rw [insertEntry]
  split
  · rename_i hsome
    split
    · rename_i hname
      subst hname
      obtain ⟨found, hfound⟩ := Option.isSome_iff_exists.mp hsome
      rw [hfound, Option.some_or]
    · rw [Option.or_none]
  · exact lookupEntry_append_singleton name other entry entries

theorem buildEntries_lookup {index : Nat} {users : List User}
    {entries built : List (Bytes × UserEntry)}
    (hbuild : buildEntries index users entries = .ok built) (name : Bytes) :
    (∀ entry, lookupEntry name entries = some entry → lookupEntry name built = some entry) ∧
    (lookupEntry name entries = none →
      (firstRecord name index users = none ∧ lookupEntry name built = none) ∨
      ∃ place user allowed, firstRecord name index users = some (place, user) ∧
        compileRule user = .ok allowed ∧
        lookupEntry name built = some ⟨place, user.isEnabled, user.direct, allowed⟩) := by
  induction users generalizing index entries with
  | nil =>
      obtain rfl := Except.ok.inj hbuild
      exact ⟨fun _ hentry => hentry, fun hnone => .inl ⟨rfl, hnone⟩⟩
  | cons user users ih =>
      rw [buildEntries] at hbuild
      cases hrule : compileRule user with
      | error error =>
          rw [hrule] at hbuild
          cases hbuild
      | ok allowed =>
          rw [hrule] at hbuild
          obtain ⟨hkept, hnew⟩ := ih hbuild
          rw [lookupEntry_insertEntry] at hkept hnew
          refine ⟨fun entry hentry => hkept entry (by rw [hentry, Option.some_or]), fun hnone => ?_⟩
          rw [hnone, Option.none_or] at hkept hnew
          rw [firstRecord]
          by_cases hname : lit user.name = name
          · rw [if_pos hname] at hkept ⊢
            exact .inr ⟨index, user, allowed, rfl, hrule, hkept _ rfl⟩
          · rw [if_neg hname] at hnew ⊢
            exact hnew rfl

theorem buildEntries_compiled {index : Nat} {users : List User}
    {entries built : List (Bytes × UserEntry)}
    (hbuild : buildEntries index users entries = .ok built) :
    ∀ user ∈ users, ∃ allowed, compileRule user = .ok allowed := by
  induction users generalizing index entries with
  | nil => exact fun user huser => by cases huser
  | cons head users ih =>
      rw [buildEntries] at hbuild
      cases hrule : compileRule head with
      | error error =>
          rw [hrule] at hbuild
          cases hbuild
      | ok allowed =>
          rw [hrule] at hbuild
          intro user huser
          obtain rfl | hmem := List.mem_cons.mp huser
          · exact ⟨allowed, hrule⟩
          · exact ih hbuild user hmem

namespace AuthState

variable {allowAnonymous : Bool} {users : List User} {auth : AuthState}

theorem build_lookup (hbuild : AuthState.build allowAnonymous users = .ok auth) (name : Bytes) :
    (firstRecord name 0 users = none ∧ lookupEntry name auth.entries = none) ∨
    ∃ place user allowed, firstRecord name 0 users = some (place, user) ∧
      compileRule user = .ok allowed ∧
      lookupEntry name auth.entries = some ⟨place, user.isEnabled, user.direct, allowed⟩ := by
  rw [build] at hbuild
  cases hentries : buildEntries 0 users [] with
  | error error =>
      rw [hentries] at hbuild
      cases hbuild
  | ok entries =>
      rw [hentries] at hbuild
      obtain rfl := Except.ok.inj hbuild
      exact (buildEntries_lookup hentries name).2 rfl

theorem build_compiled (hbuild : AuthState.build allowAnonymous users = .ok auth) :
    ∀ user ∈ users, ∃ allowed, compileRule user = .ok allowed := by
  rw [build] at hbuild
  cases hentries : buildEntries 0 users [] with
  | error error =>
      rw [hentries] at hbuild
      cases hbuild
  | ok entries => exact buildEntries_compiled hentries

end AuthState

end Resocks5.Server
