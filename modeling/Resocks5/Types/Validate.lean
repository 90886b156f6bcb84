import Resocks5.Foundation.Text
import Resocks5.Types.ProxyConfig
import Mathlib.Data.List.Infix

namespace Resocks5.Types

open Resocks5.Foundation

/-! What is checked of a configured chain, without any I/O. -/

inductive CredentialField where
  | username
  | password
  deriving DecidableEq, Repr

inductive ProxyConfigError where
  | emptyHost
  | invalidHost
  | zeroPort
  | incompleteCredentials
  | emptyCredential (field : CredentialField)
  | credentialTooLong (field : CredentialField) (len : Nat)
  | usernameContainsColon
  | controlCharacter (field : CredentialField)
  | inconsistentGateFlag
  deriving DecidableEq, Repr

/-- The index of the first failing node, outermost first. -/
structure ChainConfigError where
  node : Nat
  kind : ProxyConfigError
  deriving DecidableEq, Repr

abbrev Text := { bytes : Bytes // isUtf8 bytes = true }

/-- A node as it is configured: its public gate flag is written apart from its level. -/
structure Entry where
  node : ProxyNode
  isGate : Bool
  host : isUtf8 node.host = true
  user : ∀ user ∈ node.user, isUtf8 user = true
  password : ∀ password ∈ node.password, isUtf8 password = true

/-- SOCKS5 counts a field in one byte, and takes no empty one. -/
def checkLength (field : CredentialField) (value : Bytes) : Except ProxyConfigError Unit :=
  if value.length = 0 then .error (.emptyCredential field)
  else if 255 < value.length then .error (.credentialTooLong field value.length)
  else .ok ()

def checkControl (field : CredentialField) (value : Bytes) : Except ProxyConfigError Unit :=
  if value.any isAsciiControl then .error (.controlCharacter field) else .ok ()

def validatePair (protocol : ProxyProtocol) (user password : Bytes) :
    Except ProxyConfigError Unit :=
  match protocol with
  | .socks5 => do
    checkLength .username user
    checkLength .password password
  | .http | .https =>
    if user.contains 0x3A then .error .usernameContainsColon
    else do
      checkControl .username user
      checkControl .password password

/-- Control, whitespace, `/` or `@`. -/
def hostForbidden (host : Bytes) : Bool :=
  host.any (fun b => isAsciiControl b || b == 0x2F || b == 0x40) ||
    whitespaces.any fun mark => decide (mark <:+: host)

/-- This entry only; the first failing check counts. -/
def validateNode (entry : Entry) : Except ProxyConfigError Unit :=
  if entry.node.host.isEmpty then .error .emptyHost
  else if hostForbidden entry.node.host then .error .invalidHost
  else if entry.node.port = 0 then .error .zeroPort
  else if entry.isGate ≠ decide (0 < entry.node.gateLevel) then .error .inconsistentGateFlag
  else
    match entry.node.user, entry.node.password with
    | none, none => .ok ()
    | some user, some password => validatePair entry.node.protocol user password
    | _, _ => .error .incompleteCredentials

def validateFrom : Nat → List Entry → Except ChainConfigError Unit
  | _, [] => .ok ()
  | i, entry :: rest =>
    match validateNode entry with
    | .error kind => .error ⟨i, kind⟩
    | .ok () => validateFrom (i + 1) rest

def validate (nodes : List Entry) : Except ChainConfigError Unit := validateFrom 0 nodes

def withAuth (entry : Entry) (user password : Text) : Entry where
  node := { entry.node with user := some user.1, password := some password.1 }
  isGate := entry.isGate
  host := entry.host
  user := by
    intro text htext
    obtain rfl := Option.mem_some_iff.mp htext
    exact user.2
  password := by
    intro text htext
    obtain rfl := Option.mem_some_iff.mp htext
    exact password.2

/-- Neither host nor port nor gate fields are looked at. -/
def tryWithAuth (entry : Entry) (user password : Text) : Except ProxyConfigError Entry := do
  validatePair entry.node.protocol user.1 password.1
  return withAuth entry user password

theorem checkLength_ok {field : CredentialField} {value : Bytes} :
    checkLength field value = .ok () ↔ 1 ≤ value.length ∧ value.length ≤ 255 := by
  unfold checkLength
  split
  · rename_i hempty
    simp [hempty]
  · rename_i hpos
    split
    · rename_i hlong
      simp only [reduceCtorEq, false_iff]
      omega
    · simp only [true_iff]
      omega

theorem checkControl_ok {field : CredentialField} {value : Bytes} :
    checkControl field value = .ok () ↔ ∀ b ∈ value, isAsciiControl b = false := by
  unfold checkControl
  split
  · rename_i hany
    simp only [reduceCtorEq, false_iff]
    intro hclean
    obtain ⟨b, hb, hcontrol⟩ := List.any_eq_true.mp hany
    rw [hclean b hb] at hcontrol
    cases hcontrol
  · rename_i hany
    simpa using hany

theorem except_bind_ok {first second : Except ε Unit} :
    (first >>= fun _ => second) = .ok () ↔ first = .ok () ∧ second = .ok () := by
  cases first with
  | error error => simp [bind, Except.bind]
  | ok value => simp [bind, Except.bind]

structure PairOk (protocol : ProxyProtocol) (user password : Bytes) : Prop where
  counted : protocol = .socks5 → (1 ≤ user.length ∧ user.length ≤ 255) ∧
    1 ≤ password.length ∧ password.length ≤ 255
  basic : protocol ≠ .socks5 → (0x3A : UInt8) ∉ user ∧
    (∀ b ∈ user, isAsciiControl b = false) ∧ ∀ b ∈ password, isAsciiControl b = false

theorem validatePair_ok {protocol : ProxyProtocol} {user password : Bytes} :
    validatePair protocol user password = .ok () ↔ PairOk protocol user password := by
  have hbasic : (if user.contains 0x3A then .error .usernameContainsColon
      else checkControl .username user >>= fun _ => checkControl .password password :
        Except ProxyConfigError Unit) = .ok () ↔
      (0x3A : UInt8) ∉ user ∧ (∀ b ∈ user, isAsciiControl b = false) ∧
        ∀ b ∈ password, isAsciiControl b = false := by
    split
    · rename_i hcolon
      simpa using fun habsent => absurd (List.contains_iff_mem.mp hcolon) habsent
    · rename_i hcolon
      rw [except_bind_ok, checkControl_ok, checkControl_ok]
      simpa using fun _ _ => hcolon
  cases protocol with
  | socks5 =>
      refine except_bind_ok.trans ?_
      rw [checkLength_ok, checkLength_ok]
      exact ⟨fun hpair => ⟨fun _ => hpair, fun hother => absurd rfl hother⟩,
        fun hpair => hpair.counted rfl⟩
  | http =>
      exact hbasic.trans ⟨fun hpair => ⟨nofun, fun _ => hpair⟩, fun hpair => hpair.basic nofun⟩
  | https =>
      exact hbasic.trans ⟨fun hpair => ⟨nofun, fun _ => hpair⟩, fun hpair => hpair.basic nofun⟩

structure EntryOk (entry : Entry) : Prop where
  host : entry.node.host ≠ []
  allowed : hostForbidden entry.node.host = false
  port : entry.node.port ≠ 0
  gate : entry.isGate = decide (0 < entry.node.gateLevel)
  paired : entry.node.user.isSome = entry.node.password.isSome
  credentials : ∀ user password, entry.node.user = some user →
    entry.node.password = some password → PairOk entry.node.protocol user password

theorem validateNode_ok {entry : Entry} : validateNode entry = .ok () ↔ EntryOk entry := by
  unfold validateNode
  split
  · rename_i hempty
    simp only [reduceCtorEq, false_iff]
    exact fun hok => hok.host (List.isEmpty_iff.mp hempty)
  split
  · rename_i hforbidden
    simp only [reduceCtorEq, false_iff]
    intro hok
    rw [hok.allowed] at hforbidden
    cases hforbidden
  split
  · rename_i hzero
    simp only [reduceCtorEq, false_iff]
    exact fun hok => hok.port hzero
  split
  · rename_i hflag
    simp only [reduceCtorEq, false_iff]
    exact fun hok => hflag hok.gate
  rename_i hhost hallowed hport hgate
  have hrest : ∀ {p : Prop}, (p ↔ (entry.node.user.isSome = entry.node.password.isSome ∧
      ∀ user password, entry.node.user = some user → entry.node.password = some password →
        PairOk entry.node.protocol user password)) → (p ↔ EntryOk entry) := by
    intro p hp
    refine hp.trans ⟨fun ⟨hpaired, hcredentials⟩ => ?_, fun hok => ⟨hok.paired, hok.credentials⟩⟩
    exact ⟨by simpa using hhost, by simpa using hallowed, hport, by simpa using hgate, hpaired,
      hcredentials⟩
  refine hrest ?_
  cases entry.node.user with
  | none =>
      cases entry.node.password with
      | none => simp
      | some password => simp
  | some user =>
      cases entry.node.password with
      | none => simp
      | some password => simp [validatePair_ok]

theorem validateFrom_ok {i : Nat} {entries : List Entry} :
    validateFrom i entries = .ok () ↔ ∀ entry ∈ entries, EntryOk entry := by
  induction entries generalizing i with
  | nil => simp [validateFrom]
  | cons entry rest ih =>
      rw [validateFrom, List.forall_mem_cons, ← validateNode_ok, ← ih (i := i + 1)]
      cases validateNode entry with
      | error kind => simp
      | ok value => simp

theorem validate_ok {entries : List Entry} :
    validate entries = .ok () ↔ ∀ entry ∈ entries, EntryOk entry := validateFrom_ok

theorem validateFrom_error {i : Nat} {entries : List Entry} {error : ChainConfigError}
    (hfailed : validateFrom i entries = .error error) :
    ∃ front entry back, entries = front ++ entry :: back ∧ error.node = i + front.length ∧
      validateNode entry = .error error.kind ∧ ∀ earlier ∈ front, EntryOk earlier := by
  induction entries generalizing i with
  | nil => cases hfailed
  | cons entry rest ih =>
      rw [validateFrom] at hfailed
      split at hfailed
      · rename_i kind hkind
        cases hfailed
        exact ⟨[], entry, rest, rfl, rfl, hkind, by simp⟩
      · rename_i hok
        obtain ⟨front, other, back, rfl, hindex, hkind, hfront⟩ := ih hfailed
        refine ⟨entry :: front, other, back, rfl, ?_, hkind, ?_⟩
        · rw [hindex, List.length_cons]
          omega
        · exact List.forall_mem_cons.mpr ⟨validateNode_ok.mp hok, hfront⟩

theorem validate_error {entries : List Entry} {error : ChainConfigError}
    (hfailed : validate entries = .error error) :
    ∃ front entry back, entries = front ++ entry :: back ∧ error.node = front.length ∧
      validateNode entry = .error error.kind ∧ ∀ earlier ∈ front, EntryOk earlier := by
  simpa using validateFrom_error hfailed

theorem tryWithAuth_ok {entry changed : Entry} {user password : Text} (hentry : EntryOk entry)
    (hset : tryWithAuth entry user password = .ok changed) : EntryOk changed := by
  rw [tryWithAuth] at hset
  cases hpair : validatePair entry.node.protocol user.1 password.1 with
  | error kind =>
      rw [hpair] at hset
      cases hset
  | ok value =>
      rw [hpair] at hset
      cases hset
      refine ⟨hentry.host, hentry.allowed, hentry.port, hentry.gate, rfl, ?_⟩
      rintro _ _ ⟨⟩ ⟨⟩
      exact validatePair_ok.mp hpair

theorem hostForbidden_clean {host : Bytes} (hallowed : hostForbidden host = false) :
    ∀ b ∈ host, isUnprintable b = false := by
  have hbytes : ∀ b : UInt8, isUnprintable b = true → isAsciiControl b = true ∨ b = 0x20 := by
    grind [isUnprintable, isAsciiControl, isAsciiWhitespace]
  rw [hostForbidden, Bool.or_eq_false_iff] at hallowed
  obtain ⟨hsingle, hspace⟩ := hallowed
  intro b hb
  cases hprint : isUnprintable b with
  | false => rfl
  | true =>
      exfalso
      obtain hcontrol | rfl := hbytes b hprint
      · have hnot := List.any_eq_false.mp hsingle b hb
        simp [hcontrol] at hnot
      · obtain ⟨front, back, rfl⟩ := List.append_of_mem hb
        have hmark := List.any_eq_false.mp hspace [0x20] (by decide)
        refine hmark (decide_eq_true ⟨front, back, ?_⟩)
        simp

end Resocks5.Types
