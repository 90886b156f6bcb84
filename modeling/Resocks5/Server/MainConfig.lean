import Resocks5.Probe.ChainProbes
import Resocks5.Server.Access

namespace Resocks5.Server

open Resocks5.Auth
open Resocks5.Config
open Resocks5.Foundation
open Resocks5.Probe
open Resocks5.Rating

/-! What a start reads in the main configuration, and how that is checked. -/

structure NetworkConfig where
  connectTimeoutSec : Nat
  handshakeTimeoutSec : Nat
  sandHalfLifeSec : F64
  sandFailPenalty : F64
  sandMax : F64
  sandMinWeight : F64
  sandSuccessFactor : F64
  quarantineThreshold : Nat
  quarantineInitialSec : Nat
  quarantineMaxSec : Nat
  bounded : quarantineThreshold ≤ u32Max

namespace NetworkConfig

/-- The fraction is the `f64` next to `0.05`. -/
def default : NetworkConfig where
  connectTimeoutSec := 10
  handshakeTimeoutSec := 10
  sandHalfLifeSec := .finite 30
  sandFailPenalty := .finite 1
  sandMax := .finite 8
  sandMinWeight := .finite (3602879701896397 / 2 ^ 56)
  sandSuccessFactor := .finite (1 / 2)
  quarantineThreshold := 3
  quarantineInitialSec := 30
  quarantineMaxSec := 600
  bounded := three_le_u32Max

variable (network : NetworkConfig)

def ratingPolicy : RatingPolicy where
  halfLifeSec := network.sandHalfLifeSec
  failPenalty := network.sandFailPenalty
  sandMax := network.sandMax
  minWeight := network.sandMinWeight
  successFactor := network.sandSuccessFactor

/-- A lease lasts for a probe through all gate levels. -/
def quarantinePolicy (gateGroups : Nat) : QuarantinePolicy where
  threshold := network.quarantineThreshold
  initial := Duration.ofSecs network.quarantineInitialSec
  max := Duration.ofSecs network.quarantineMaxSec
  probeLease := probeLease (Duration.ofSecs network.connectTimeoutSec)
    (Duration.ofSecs network.handshakeTimeoutSec) gateGroups
  bounded := network.bounded

/-- A quarantine that is used has a length, and its cap is no shorter. -/
def QuarantineValid : Prop :=
  network.quarantineThreshold = 0 ∨
    0 < network.quarantineInitialSec ∧ network.quarantineInitialSec ≤ network.quarantineMaxSec

structure Valid (arith : FloatArith) : Prop where
  rating : network.ratingPolicy.validate arith = .ok ()
  quarantine : network.QuarantineValid

theorem probeLease_pos (connectTimeout handshakeTimeout : Duration) (depth : Nat) :
    0 < probeLease connectTimeout handshakeTimeout depth := by
  have hmargin : 0 < probeLeaseMargin := by decide
  exact Nat.lt_min.mpr ⟨Nat.lt_of_lt_of_le hmargin (Nat.le_add_left _ _), by decide⟩

theorem ofSecs_le_ofSecs {a b : Nat} : Duration.ofSecs a ≤ Duration.ofSecs b ↔ a ≤ b :=
  Nat.mul_le_mul_right_iff (by decide)

theorem ofSecs_pos {secs : Nat} : 0 < Duration.ofSecs secs ↔ 0 < secs :=
  Nat.mul_pos_iff_of_pos_right (by decide)

theorem quarantine_validate (gateGroups : Nat) :
    (network.quarantinePolicy gateGroups).validate = true ↔ network.QuarantineValid := by
  rw [QuarantinePolicy.validate, QuarantinePolicy.enabled, QuarantineValid]
  simp only [quarantinePolicy, probeLease_pos, ofSecs_pos, ofSecs_le_ofSecs, decide_true,
    Bool.and_true, Bool.or_eq_true, Bool.not_eq_true', Bool.and_eq_true, decide_eq_true_eq]
  exact or_congr (decide_eq_false_iff_not.trans (Nat.not_lt.trans Nat.le_zero)) Iff.rfl

theorem accepted_iff (arith : FloatArith) (gateGroups : Nat) :
    Accepted arith network.ratingPolicy (network.quarantinePolicy gateGroups) ↔
      network.Valid arith := by
  constructor
  · exact fun haccepted =>
      ⟨haccepted.rating, (network.quarantine_validate gateGroups).mp haccepted.quarantine⟩
  · exact fun hvalid =>
      ⟨hvalid.rating, (network.quarantine_validate gateGroups).mpr hvalid.quarantine⟩

def Rejects (arith : FloatArith) (error : RatingError) : Prop :=
  network.ratingPolicy.validate arith = .error error ∨
    network.ratingPolicy.validate arith = .ok () ∧ ¬ network.QuarantineValid ∧
      error = .quarantine

theorem rejected_iff (arith : FloatArith) (gateGroups : Nat) (error : RatingError) :
    Rejected arith network.ratingPolicy (network.quarantinePolicy gateGroups) error ↔
      network.Rejects arith error := by
  rw [Rejected, Rejects, ← network.quarantine_validate gateGroups, Bool.not_eq_true]

theorem Rejects.invalid {arith : FloatArith} {error : RatingError}
    (hrejects : network.Rejects arith error) : ¬ network.Valid arith := by
  rintro ⟨hrating, hquarantine⟩
  obtain herror | ⟨-, hno, -⟩ := hrejects
  · rw [hrating] at herror
    cases herror
  · exact hno hquarantine

end NetworkConfig

structure MainConfig where
  port : UInt16
  listenHost : Bytes
  bannedPatterns : List Bytes
  allowAnonymous : Bool
  network : NetworkConfig
  allowedClients : Bytes

def defaultMain (port : UInt16) (bannedPatterns : List Bytes) : MainConfig where
  port := port
  listenHost := lit "127.0.0.1"
  bannedPatterns := bannedPatterns
  allowAnonymous := true
  network := NetworkConfig.default
  allowedClients := lit "*"

inductive ClientsError where
  | main (fault : Config.Fault SpecError)
  | user (error : RuleError)

def validateAllowedClients (main : MainConfig) (users : List User) :
    Except ClientsError (AllowedClients × AuthState) :=
  match compileAllowedClients main.allowedClients with
  | .error fault => .error (.main fault)
  | .ok allowed =>
    match AuthState.build main.allowAnonymous users with
    | .error error => .error (.user error)
    | .ok auth => .ok (allowed, auth)

/-- Every rule compiles, also those of users who are disabled or named twice. -/
structure ClientsValid (main : MainConfig) (users : List User) : Prop where
  main : ∃ rule, compileAllowedClients main.allowedClients = .ok rule
  users : ∀ user ∈ users, ∀ spec, user.allowedClients = some spec →
    ∃ rule, compileAllowedClients (lit spec) = .ok rule

/-- The error tells whose rule it is, and what is wrong with it. -/
def ClientsError.Names (main : MainConfig) (users : List User) : ClientsError → Prop
  | .main fault => compileAllowedClients main.allowedClients = .error fault
  | .user error => (∃ rule, compileAllowedClients main.allowedClients = .ok rule) ∧
      ∃ user ∈ users, error.name = lit user.name ∧ ∃ spec, user.allowedClients = some spec ∧
        compileAllowedClients (lit spec) = .error error.fault

theorem compileRule_ok {user : User} {allowed : Option AllowedClients}
    (hrule : compileRule user = .ok allowed) {spec : String}
    (hspec : user.allowedClients = some spec) :
    ∃ rule, compileAllowedClients (lit spec) = .ok rule := by
  rw [compileRule, hspec] at hrule
  dsimp only at hrule
  cases hcompiled : compileAllowedClients (lit spec) with
  | ok rule => exact ⟨rule, rfl⟩
  | error fault =>
    rw [hcompiled] at hrule
    cases hrule

theorem compileRule_error {user : User} {error : RuleError}
    (hrule : compileRule user = .error error) :
    error.name = lit user.name ∧ ∃ spec, user.allowedClients = some spec ∧
      compileAllowedClients (lit spec) = .error error.fault := by
  unfold compileRule at hrule
  split at hrule
  · cases hrule
  · rename_i spec hspec
    split at hrule
    · cases hrule
    · rename_i fault hfault
      cases hrule
      exact ⟨rfl, spec, hspec, hfault⟩

theorem buildEntries_error {index : Nat} {users : List User} {entries : List (Bytes × UserEntry)}
    {error : RuleError} (hbuild : buildEntries index users entries = .error error) :
    ∃ user ∈ users, compileRule user = .error error := by
  induction users generalizing index entries with
  | nil => cases hbuild
  | cons user users ih =>
    rw [buildEntries] at hbuild
    cases hrule : compileRule user with
    | error reason =>
      rw [hrule] at hbuild
      cases hbuild
      exact ⟨user, List.mem_cons_self, hrule⟩
    | ok allowed =>
      rw [hrule] at hbuild
      obtain ⟨other, hother, herror⟩ := ih hbuild
      exact ⟨other, List.mem_cons_of_mem _ hother, herror⟩

theorem AuthState.build_error {allowAnonymous : Bool} {users : List User} {error : RuleError}
    (hbuild : AuthState.build allowAnonymous users = .error error) :
    ∃ user ∈ users, compileRule user = .error error := by
  rw [AuthState.build] at hbuild
  cases hentries : buildEntries 0 users [] with
  | ok entries =>
    rw [hentries] at hbuild
    cases hbuild
  | error reason =>
    rw [hentries] at hbuild
    cases hbuild
    exact buildEntries_error hentries

section

variable {main : MainConfig} {users : List User}

theorem validateAllowedClients_ok {checked : AllowedClients × AuthState}
    (hvalidate : validateAllowedClients main users = .ok checked) : ClientsValid main users := by
  unfold validateAllowedClients at hvalidate
  split at hvalidate
  · cases hvalidate
  · rename_i rule hrule
    split at hvalidate
    · cases hvalidate
    · rename_i auth hauth
      refine ⟨⟨rule, hrule⟩, fun user huser spec hspec => ?_⟩
      obtain ⟨allowed, hallowed⟩ := AuthState.build_compiled hauth user huser
      exact compileRule_ok hallowed hspec

theorem validateAllowedClients_error {error : ClientsError}
    (hvalidate : validateAllowedClients main users = .error error) : error.Names main users := by
  unfold validateAllowedClients at hvalidate
  split at hvalidate
  · rename_i fault hfault
    cases hvalidate
    exact hfault
  · rename_i rule hrule
    split at hvalidate
    · rename_i reason hreason
      cases hvalidate
      obtain ⟨user, huser, herror⟩ := AuthState.build_error hreason
      exact ⟨⟨rule, hrule⟩, user, huser, compileRule_error herror⟩
    · cases hvalidate

theorem ClientsError.Names.invalid {error : ClientsError} (hnames : error.Names main users) :
    ¬ ClientsValid main users := by
  rintro ⟨⟨rule, hrule⟩, hrules⟩
  cases error with
  | main fault =>
    rw [ClientsError.Names, hrule] at hnames
    cases hnames
  | user error =>
    obtain ⟨-, user, huser, -, spec, hspec, hfault⟩ := hnames
    obtain ⟨other, hother⟩ := hrules user huser spec hspec
    rw [hother] at hfault
    cases hfault

end

end Resocks5.Server
