import Resocks5.Chain.Resolve
import Resocks5.Connect.ConnectChain
import Resocks5.Foundation.Grouping
import Resocks5.Net.ProxyLine
import Resocks5.Server.MainConfig

namespace Resocks5.Server

open Resocks5.Chain
open Resocks5.Connect
open Resocks5.Foundation
open Resocks5.Net
open Resocks5.Rating
open Resocks5.Session
open Resocks5.Types

/-! What becomes of the proxy lists when the server starts. -/

structure ProxyListConfig where
  socks5V6 : List Bytes
  httpV6 : List Bytes
  httpsV6 : List Bytes
  socks5V4 : List Bytes
  httpV4 : List Bytes
  httpsV4 : List Bytes
  deriving DecidableEq

/-- One line; what is dropped is reported by its number, from 1. -/
def parseLine (proto : ProxyProtocol) (read : List Listed × List Nat) (line : Bytes × Nat) :
    List Listed × List Nat :=
  if line.1.head? = some 0x23 then read
  else
    match parseProxyStr line.1 proto with
    | .ok config => (read.1 ++ [config], read.2)
    | .error _ => (read.1, read.2 ++ [line.2 + 1])

def parseProxyListChecked (list : List Bytes) (proto : ProxyProtocol) :
    List Listed × List Nat :=
  list.zipIdx.foldl (parseLine proto) ([], [])

def parseProxyList (list : List Bytes) (proto : ProxyProtocol) : List Listed :=
  (parseProxyListChecked list proto).1

class GateSplit (P : Type) where
  isGate : P → Bool
  gateLevel : P → UInt8

instance : GateSplit Listed where
  isGate listed := listed.isGate
  gateLevel listed := listed.config.node.gateLevel

theorem uint8_lt_iff (a b : UInt8) : a < b ↔ a ≤ b ∧ ¬ b ≤ a := by
  rw [UInt8.lt_iff_toNat_lt, UInt8.le_iff_toNat_le, UInt8.le_iff_toNat_le]
  omega

section

/-- The order of the keys of a `BTreeMap` of levels. -/
local instance levelOrder : LinearOrder UInt8 where
  le_refl := UInt8.le_refl
  le_trans _ _ _ := UInt8.le_trans
  le_antisymm _ _ := UInt8.le_antisymm
  le_total := UInt8.le_total
  lt_iff_le_not_ge := uint8_lt_iff
  toDecidableLE := UInt8.decLe
  toDecidableEq := instDecidableEqUInt8
  toDecidableLT := UInt8.decLt

variable {P : Type} [GateSplit P]

def splitGroup (groups : List P × List P) (proxy : P) : List P × List P :=
  if GateSplit.isGate proxy then (groups.1, groups.2 ++ [proxy])
  else (groups.1 ++ [proxy], groups.2)

/-- Plain v6, plain v4, and the gates of both lists. -/
def partitionProxyGroups (allV6 allV4 : List P) : List P × List P × List P :=
  let (v6, gates) := allV6.foldl splitGroup ([], [])
  let (v4, gates) := allV4.foldl splitGroup ([], gates)
  (v6, v4, gates)

def groupGateLevels (gates : List P) : List (UInt8 × List P) :=
  groupUnder GateSplit.gateLevel gates

theorem foldl_splitGroup (proxies : List P) (groups : List P × List P) :
    proxies.foldl splitGroup groups =
      (groups.1 ++ proxies.filter (!GateSplit.isGate ·),
        groups.2 ++ proxies.filter GateSplit.isGate) := by
  induction proxies generalizing groups with
  | nil => simp
  | cons proxy rest ih =>
    rw [List.foldl_cons, ih, splitGroup]
    cases hgate : GateSplit.isGate proxy <;> simp [hgate]

theorem partitionProxyGroups_eq (allV6 allV4 : List P) :
    partitionProxyGroups allV6 allV4 =
      (allV6.filter (!GateSplit.isGate ·), allV4.filter (!GateSplit.isGate ·),
        (allV6 ++ allV4).filter GateSplit.isGate) := by
  simp [partitionProxyGroups, foldl_splitGroup]

theorem groupGateLevels_groups (gates : List P) :
    Groups GateSplit.gateLevel gates (groupGateLevels gates) :=
  groupUnder_groups GateSplit.gateLevel gates

end

/-! The lines of a list. -/

theorem parseProxyStr_comment {line : Bytes} (hcomment : line.head? = some 0x23)
    (proto : ProxyProtocol) : ∃ error, parseProxyStr line proto = .error error := by
  rw [parseProxyStr]
  split
  · exact ⟨_, rfl⟩
  · exact ⟨_, rfl⟩

theorem parseProxyStr_ok {line : Bytes} {proto : ProxyProtocol} {listed : Listed}
    (hparse : parseProxyStr line proto = .ok listed) :
    listed.config.node.protocol = proto ∧
      listed.isGate = decide (0 < listed.config.node.gateLevel) := by
  unfold parseProxyStr at hparse
  dsimp only at hparse
  split at hparse
  · cases hparse
  · split at hparse
    · cases hparse
    · split at hparse
      · cases hparse
      · split at hparse
        · cases hparse
        · unfold parseMarked at hparse
          cases hcreds : splitCreds (line.drop (line.takeWhile (· == 0x2A)).length) with
          | error error => simp [hcreds, bind, Except.bind] at hparse
          | ok parts =>
            cases huser : splitUser parts.1 with
            | error error => simp [hcreds, huser, bind, Except.bind] at hparse
            | ok names =>
              simp only [hcreds, huser, bind, Except.bind] at hparse
              split at hparse
              · cases hparse
              · cases hparse
                exact ⟨rfl, rfl⟩

theorem foldl_parseLine (proto : ProxyProtocol) (list : List Bytes) (first : Nat)
    (read : List Listed × List Nat) :
    (list.zipIdx first).foldl (parseLine proto) read =
      (read.1 ++ list.filterMap fun line => (parseProxyStr line proto).toOption,
        read.2 ++ (list.zipIdx first).filterMap fun (line, i) =>
          if line.head? = some 0x23 ∨ (parseProxyStr line proto).toOption.isSome then none
          else some (i + 1)) := by
  induction list generalizing first read with
  | nil => simp
  | cons line rest ih =>
    rw [List.zipIdx_cons, List.foldl_cons, ih, parseLine]
    by_cases hcomment : line.head? = some 0x23
    · obtain ⟨error, herror⟩ := parseProxyStr_comment hcomment proto
      simp [hcomment, herror, Except.toOption]
    · cases hparse : parseProxyStr line proto with
      | ok config => simp [hcomment, hparse, Except.toOption]
      | error error => simp [hcomment, hparse, Except.toOption]

theorem mem_parseProxyList {list : List Bytes} {proto : ProxyProtocol} {listed : Listed} :
    listed ∈ parseProxyList list proto ↔ ∃ line ∈ list, parseProxyStr line proto = .ok listed := by
  rw [parseProxyList, parseProxyListChecked, foldl_parseLine, List.nil_append, List.mem_filterMap]
  refine exists_congr fun line => and_congr_right fun _ => ?_
  cases parseProxyStr line proto <;> simp [Except.toOption]

namespace ProxyListConfig

def allV6 (lists : ProxyListConfig) : List Listed :=
  parseProxyList lists.socks5V6 .socks5 ++ parseProxyList lists.httpV6 .http ++
    parseProxyList lists.httpsV6 .https

def allV4 (lists : ProxyListConfig) : List Listed :=
  parseProxyList lists.socks5V4 .socks5 ++ parseProxyList lists.httpV4 .http ++
    parseProxyList lists.httpsV4 .https

def hasHttps (lists : ProxyListConfig) : Bool :=
  !lists.httpsV4.isEmpty || !lists.httpsV6.isEmpty

end ProxyListConfig

structure RotatorSettings (ρ : Type u) where
  policy : RatingPolicy
  quarantine : QuarantinePolicy
  now : Instant
  seed : RotatorId → ρ

structure Routing (ρ : Type u) where
  gates : GateLevels
  v6 : Option RotatorId
  v4 : Option RotatorId
  rotators : Rotators ρ
  tlsConnector : Bool

def v6Id : RotatorId := 256

def v4Id : RotatorId := 257

section

variable {ρ : Type u} (arith : FloatArith) (settings : RotatorSettings ρ)

def noRotators : Rotators ρ := fun id =>
  ⟨[], Ratings.fresh 0 settings.policy settings.quarantine settings.now (settings.seed id)⟩

def newRotator (id : RotatorId) (proxies : List Listed) : Except RotatorError (Rotator ρ) :=
  Rotator.tryWithQuarantine arith (proxies.map (·.config)) settings.policy settings.quarantine
    settings.now (settings.seed id)

def newExits (id : RotatorId) (proxies : List Listed) (rotators : Rotators ρ) :
    Except RotatorError (Option RotatorId × Rotators ρ) :=
  if proxies.isEmpty then .ok (none, rotators)
  else do
    let rotator ← newRotator arith settings id proxies
    return (some id, Function.update rotators id rotator)

def newGates : List (UInt8 × List Listed) → Rotators ρ →
    Except RotatorError (List GateLevel × Rotators ρ)
  | [], rotators => .ok ([], rotators)
  | (rank, proxies) :: rest, rotators => do
    let rotator ← newRotator arith settings rank.toNat proxies
    let (levels, rotators) ← newGates rest (Function.update rotators rank.toNat rotator)
    return (⟨rank, rank.toNat⟩ :: levels, rotators)

def NetworkConfig.rotatorSettings (network : NetworkConfig) (now : Instant) (seed : RotatorId → ρ)
    (gateGroups : Nat) : RotatorSettings ρ where
  policy := network.ratingPolicy
  quarantine := network.quarantinePolicy gateGroups
  now := now
  seed := seed

/-- `settings` are those for a number of gate groups. -/
def buildRouting (settings : Nat → RotatorSettings ρ) (lists : ProxyListConfig) :
    Except RotatorError (Routing ρ) := do
  let (v6Proxies, v4Proxies, gateProxies) := partitionProxyGroups lists.allV6 lists.allV4
  let gateGroups := groupGateLevels gateProxies
  let settings := settings gateGroups.length
  let (v6, rotators) ← newExits arith settings v6Id v6Proxies (noRotators settings)
  let (levels, rotators) ← newGates arith settings gateGroups rotators
  let (v4, rotators) ← newExits arith settings v4Id v4Proxies rotators
  return ⟨GateLevels.new levels, v6, v4, rotators, lists.hasHttps⟩

def hasUsableRoute (hasV4Rotator hasV6Rotator : Bool) : Bool := hasV4Rotator || hasV6Rotator

def shouldBailNoUpstreams (noUsableRoute : Bool) (users : List Auth.User) : Bool :=
  if !noUsableRoute then false
  else !users.any fun user => user.isEnabled && user.direct

/-- Why a start ends; a banned pattern that is no regular expression panics. -/
inductive StartError where
  | allowedClients (error : ClientsError)
  | panicked
  | network (error : RotatorError)
  | noUpstreams

/-- `run_server_inner` up to the log drain; `patternsCompile` is whether `RegexSet::new` succeeds. -/
def startRouting (patternsCompile : List Bytes → Bool) (now : Instant) (seed : RotatorId → ρ)
    (main : MainConfig) (lists : ProxyListConfig) (users : List Auth.User) :
    Except StartError (Routing ρ) :=
  match validateAllowedClients main users with
  | .error error => .error (.allowedClients error)
  | .ok _ =>
    if !patternsCompile main.bannedPatterns then .error .panicked
    else
      match buildRouting arith (main.network.rotatorSettings now seed) lists with
      | .error error => .error (.network error)
      | .ok routing =>
        let noUsableRoute := !hasUsableRoute routing.v4.isSome routing.v6.isSome
        if shouldBailNoUpstreams noUsableRoute users then .error .noUpstreams else .ok routing

end

namespace Routing

variable {ρ : Type u} (routing : Routing ρ)

/-- v6 before v4. -/
def exits : List RotatorId := [routing.v6, routing.v4].filterMap id

/-- The outermost gates, then the exits. -/
def directlyDialed : List RotatorId :=
  (routing.gates.levels.take 1).map (·.rotator) ++ routing.exits

def gateName (rank : UInt8) : Bytes := lit "gate" ++ render 10 rank.toNat

def healthNames : List (Bytes × RotatorId) :=
  routing.gates.levels.map (fun level => (gateName level.rank, level.rotator)) ++
    (routing.v6.map fun v6 => (lit "v6", v6)).toList ++
    (routing.v4.map fun v4 => (lit "v4", v4)).toList

end Routing

theorem mem_reported {list : List Bytes} {proto : ProxyProtocol} {n : Nat} :
    n ∈ (parseProxyListChecked list proto).2 ↔ ∃ i line, list[i]? = some line ∧ i + 1 = n ∧
      line.head? ≠ some 0x23 ∧ ∀ listed, parseProxyStr line proto ≠ .ok listed := by
  rw [parseProxyListChecked, foldl_parseLine]
  dsimp only
  rw [List.nil_append, List.mem_filterMap]
  constructor
  · rintro ⟨⟨line, i⟩, hmem, hnumber⟩
    dsimp only at hnumber
    split at hnumber
    · cases hnumber
    · rename_i hdropped
      obtain ⟨hcomment, hparse⟩ := not_or.mp hdropped
      refine ⟨i, line, List.mem_zipIdx_iff_getElem?.mp hmem, Option.some.inj hnumber, hcomment,
        fun listed hok => hparse ?_⟩
      rw [hok]
      rfl
  · rintro ⟨i, line, hline, rfl, hcomment, hparse⟩
    refine ⟨(line, i), List.mem_zipIdx_iff_getElem?.mpr hline, if_neg (not_or.mpr ⟨hcomment, ?_⟩)⟩
    intro hsome
    obtain ⟨listed, hlisted⟩ := Option.isSome_iff_exists.mp hsome
    cases hresult : parseProxyStr line proto with
    | ok config => exact hparse config hresult
    | error error =>
      rw [hresult] at hlisted
      cases hlisted

/-! What the rotators hold. -/

/-- A line that is read with the protocol of its list. -/
abbrev ListedLine := Bytes × ProxyProtocol

namespace ProxyListConfig

variable (lists : ProxyListConfig)

def v6Lines : List ListedLine :=
  lists.socks5V6.map (·, .socks5) ++ lists.httpV6.map (·, .http) ++ lists.httpsV6.map (·, .https)

def v4Lines : List ListedLine :=
  lists.socks5V4.map (·, .socks5) ++ lists.httpV4.map (·, .http) ++ lists.httpsV4.map (·, .https)

end ProxyListConfig

def Lists (lines : List ListedLine) (node : ProxyNode) : Prop :=
  ∃ line ∈ lines, ∃ listed, parseProxyStr line.1 line.2 = .ok listed ∧ listed.config.node = node

theorem lists_append {before after : List ListedLine} {node : ProxyNode} :
    Lists (before ++ after) node ↔ Lists before node ∨ Lists after node := by
  simp only [Lists, List.mem_append, or_and_right, exists_or]

theorem lists_of_list {list : List Bytes} {proto : ProxyProtocol} {node : ProxyNode} :
    Lists (list.map (·, proto)) node ↔
      ∃ listed ∈ parseProxyList list proto, listed.config.node = node := by
  simp only [Lists, mem_parseProxyList, List.mem_map]
  constructor
  · rintro ⟨_, ⟨line, hline, rfl⟩, listed, hparse, hnode⟩
    exact ⟨listed, ⟨line, hline, hparse⟩, hnode⟩
  · rintro ⟨listed, ⟨line, hline, hparse⟩, hnode⟩
    exact ⟨_, ⟨line, hline, rfl⟩, listed, hparse, hnode⟩

/-- Entries that the lists of some lines were parsed to. -/
def ParsedFrom (lines : List ListedLine) (entries : List Listed) : Prop :=
  (∀ node, Lists lines node ↔ ∃ listed ∈ entries, listed.config.node = node) ∧
    ∀ listed ∈ entries, listed.isGate = decide (0 < listed.config.node.gateLevel)

theorem parsedFrom_list (list : List Bytes) (proto : ProxyProtocol) :
    ParsedFrom (list.map (·, proto)) (parseProxyList list proto) := by
  refine ⟨fun node => lists_of_list, fun listed hlisted => ?_⟩
  obtain ⟨line, -, hparse⟩ := mem_parseProxyList.mp hlisted
  exact (parseProxyStr_ok hparse).2

theorem ParsedFrom.append {before after : List ListedLine} {first second : List Listed}
    (hbefore : ParsedFrom before first) (hafter : ParsedFrom after second) :
    ParsedFrom (before ++ after) (first ++ second) := by
  refine ⟨fun node => ?_, fun listed hlisted => ?_⟩
  · rw [lists_append, hbefore.1, hafter.1]
    simp only [List.mem_append, or_and_right, exists_or]
  · exact (List.mem_append.mp hlisted).elim (hbefore.2 listed) (hafter.2 listed)

theorem parsedFrom_v6 (lists : ProxyListConfig) : ParsedFrom lists.v6Lines lists.allV6 :=
  ((parsedFrom_list _ _).append (parsedFrom_list _ _)).append (parsedFrom_list _ _)

theorem parsedFrom_v4 (lists : ProxyListConfig) : ParsedFrom lists.v4Lines lists.allV4 :=
  ((parsedFrom_list _ _).append (parsedFrom_list _ _)).append (parsedFrom_list _ _)

theorem ParsedFrom.plain {lines : List ListedLine} {entries : List Listed}
    (hparsed : ParsedFrom lines entries) {node : ProxyNode} :
    (∃ listed ∈ entries.filter (!GateSplit.isGate ·), listed.config.node = node) ↔
      Lists lines node ∧ node.gateLevel = 0 := by
  rw [hparsed.1]
  constructor
  · rintro ⟨listed, hlisted, rfl⟩
    obtain ⟨hmem, hplain⟩ := List.mem_filter.mp hlisted
    have hgate : listed.isGate = false := by simpa [GateSplit.isGate] using hplain
    rw [hparsed.2 listed hmem, decide_eq_false_iff_not, UInt8.not_lt, UInt8.le_zero_iff] at hgate
    exact ⟨⟨listed, hmem, rfl⟩, hgate⟩
  · rintro ⟨⟨listed, hmem, rfl⟩, hlevel⟩
    refine ⟨listed, List.mem_filter.mpr ⟨hmem, ?_⟩, rfl⟩
    simp [GateSplit.isGate, hparsed.2 listed hmem, hlevel]

theorem ParsedFrom.gates {lines : List ListedLine} {entries : List Listed}
    (hparsed : ParsedFrom lines entries) {node : ProxyNode} :
    (∃ listed ∈ entries.filter GateSplit.isGate, listed.config.node = node) ↔
      Lists lines node ∧ 0 < node.gateLevel := by
  rw [hparsed.1]
  constructor
  · rintro ⟨listed, hlisted, rfl⟩
    obtain ⟨hmem, hgate⟩ := List.mem_filter.mp hlisted
    rw [GateSplit.isGate, instGateSplitListed] at hgate
    dsimp only at hgate
    rw [hparsed.2 listed hmem, decide_eq_true_iff] at hgate
    exact ⟨⟨listed, hmem, rfl⟩, hgate⟩
  · rintro ⟨⟨listed, hmem, rfl⟩, hlevel⟩
    refine ⟨listed, List.mem_filter.mpr ⟨hmem, ?_⟩, rfl⟩
    simp [GateSplit.isGate, hparsed.2 listed hmem, hlevel]

section

attribute [local instance] levelOrder

variable {ρ : Type u} {arith : FloatArith} {settings : RotatorSettings ρ}

theorem mem_unique {kept proxies : List ProxyConfig} {node : ProxyNode} :
    (∃ proxy ∈ Rotator.unique kept proxies, proxy.node = node) ↔
      (∃ proxy ∈ kept, proxy.node = node) ∨ ∃ proxy ∈ proxies, proxy.node = node := by
  induction proxies generalizing kept with
  | nil => simp [Rotator.unique]
  | cons proxy rest ih =>
    rw [Rotator.unique]
    split
    · rename_i hseen
      obtain ⟨slot, hslot, hsame⟩ := List.any_eq_true.mp hseen
      rw [ih, List.exists_mem_cons_iff]
      refine ⟨Or.imp_right .inr, ?_⟩
      rintro (hkept | rfl | hrest)
      · exact .inl hkept
      · exact .inl ⟨slot, hslot, (sameNode_iff.mp hsame).symm⟩
      · exact .inr hrest
    · rw [ih]
      simp only [List.mem_append, List.mem_singleton, or_and_right, exists_or, exists_eq_left,
        List.exists_mem_cons_iff, or_assoc]

def MadeOf (rotator : Rotator ρ) (proxies : List Listed) : Prop :=
  rotator.proxies = Rotator.unique [] (proxies.map (·.config))

theorem MadeOf.knows {rotator : Rotator ρ} {proxies : List Listed}
    (hmade : MadeOf rotator proxies) {node : ProxyNode} :
    Knows rotator node ↔ ∃ listed ∈ proxies, listed.config.node = node := by
  rw [Knows, hmade, mem_unique]
  simp

theorem MadeOf.constructed {rotator : Rotator ρ} {proxies : List Listed}
    (hmade : MadeOf rotator proxies) : Constructed rotator := ⟨_, hmade⟩

theorem newRotator_made (haccepted : Accepted arith settings.policy settings.quarantine)
    (id : RotatorId) {proxies : List Listed} (hne : proxies ≠ []) :
    ∃ rotator, newRotator arith settings id proxies = .ok rotator ∧ MadeOf rotator proxies := by
  rw [newRotator, Rotator.tryWithQuarantine_accepted haccepted (by simpa using hne)]
  exact ⟨_, rfl, rfl⟩

theorem newExits_made (id : RotatorId) (proxies : List Listed) (rotators : Rotators ρ)
    (haccepted : proxies ≠ [] → Accepted arith settings.policy settings.quarantine) :
    ∃ exits after, newExits arith settings id proxies rotators = .ok (exits, after) ∧
      (∀ other, other ≠ id → after other = rotators other) ∧
      (exits = none ∧ proxies = [] ∧ after = rotators ∨
        exits = some id ∧ proxies ≠ [] ∧ MadeOf (after id) proxies) := by
  rw [newExits]
  split
  · rename_i hempty
    exact ⟨none, rotators, rfl, fun _ _ => rfl, .inl ⟨rfl, List.isEmpty_iff.mp hempty, rfl⟩⟩
  · rename_i hne
    rw [List.isEmpty_iff] at hne
    obtain ⟨rotator, hrotator, hmade⟩ := newRotator_made (haccepted hne) id hne
    rw [hrotator]
    refine ⟨some id, Function.update rotators id rotator, rfl,
      fun other hother => Function.update_of_ne hother _ _, .inr ⟨rfl, hne, ?_⟩⟩
    rw [Function.update_self]
    exact hmade

theorem constructed_exits {id : RotatorId} {proxies : List Listed} {exits : Option RotatorId}
    {before after : Rotators ρ} (hkept : ∀ other, other ≠ id → after other = before other)
    (hmade : exits = none ∧ proxies = [] ∧ after = before ∨
      exits = some id ∧ proxies ≠ [] ∧ MadeOf (after id) proxies)
    (hbefore : ∀ other, Constructed (before other)) (other : RotatorId) :
    Constructed (after other) := by
  obtain ⟨-, -, rfl⟩ | ⟨-, -, hmade⟩ := hmade
  · exact hbefore other
  · by_cases heq : other = id
    · exact heq ▸ hmade.constructed
    · exact hkept other heq ▸ hbefore other

theorem newGates_made (groups : List (UInt8 × List Listed)) (rotators : Rotators ρ)
    (hkeys : (groups.map Prod.fst).Nodup) (hne : ∀ entry ∈ groups, entry.2 ≠ [])
    (haccepted : groups ≠ [] → Accepted arith settings.policy settings.quarantine) :
    ∃ after, newGates arith settings groups rotators =
        .ok (groups.map (fun entry => ⟨entry.1, entry.1.toNat⟩), after) ∧
      (∀ entry ∈ groups, MadeOf (after entry.1.toNat) entry.2) ∧
      ∀ id, (∀ entry ∈ groups, entry.1.toNat ≠ id) → after id = rotators id := by
  induction groups generalizing rotators with
  | nil => exact ⟨rotators, rfl, fun _ hentry => (by cases hentry), fun _ _ => rfl⟩
  | cons head rest ih =>
    obtain ⟨rank, proxies⟩ := head
    obtain ⟨hfresh, hrest⟩ := List.nodup_cons.mp hkeys
    have hvalid := haccepted (List.cons_ne_nil _ _)
    obtain ⟨rotator, hrotator, hmade⟩ :=
      newRotator_made hvalid rank.toNat (hne _ List.mem_cons_self)
    obtain ⟨after, hgates, hafter, hothers⟩ := ih (Function.update rotators rank.toNat rotator)
      hrest (fun entry hentry => hne entry (List.mem_cons_of_mem _ hentry)) fun _ => hvalid
    have hapart : ∀ entry ∈ rest, entry.1.toNat ≠ rank.toNat := by
      intro entry hentry heq
      exact hfresh (List.mem_map.mpr ⟨entry, hentry, UInt8.toNat_inj.mp heq⟩)
    refine ⟨after, ?_, fun entry hentry => ?_, fun id hid => ?_⟩
    · rw [newGates, hrotator]
      dsimp only [bind, Except.bind]
      rw [hgates]
      rfl
    · obtain rfl | hlater := List.mem_cons.mp hentry
      · rw [hothers rank.toNat hapart, Function.update_self]
        exact hmade
      · exact hafter entry hlater
    · rw [hothers id fun entry hentry => hid entry (List.mem_cons_of_mem _ hentry)]
      exact Function.update_of_ne (hid _ List.mem_cons_self).symm _ _

/-- The exits that some lines list, in one rotator; none if there are none. -/
def ExitsOf (rotators : Rotators ρ) (lines : List ListedLine) : Option RotatorId → Prop
  | none => ∀ node, Lists lines node → node.gateLevel ≠ 0
  | some id => (∃ node, Lists lines node ∧ node.gateLevel = 0) ∧
    ∀ node, Knows (rotators id) node ↔ Lists lines node ∧ node.gateLevel = 0

/-- The rotators hold what the lists say, each upstream once, gates by rank with the outermost
first, and health is saved for each under a name of its own. -/
structure Routing.Serves (routing : Routing ρ) (lists : ProxyListConfig) : Prop where
  outermostFirst : routing.gates.levels.Pairwise fun outer inner => inner.rank < outer.rank
  ranks : ∀ rank, (∃ level ∈ routing.gates.levels, level.rank = rank) ↔
    0 < rank ∧ ∃ node, Lists (lists.v6Lines ++ lists.v4Lines) node ∧ node.gateLevel = rank
  gates : ∀ level ∈ routing.gates.levels, ∀ node, Knows (routing.rotators level.rotator) node ↔
    Lists (lists.v6Lines ++ lists.v4Lines) node ∧ node.gateLevel = level.rank
  v6 : ExitsOf routing.rotators lists.v6Lines routing.v6
  v4 : ExitsOf routing.rotators lists.v4Lines routing.v4
  constructed : ∀ id, Constructed (routing.rotators id)
  names : (routing.healthNames.map Prod.fst).Nodup
  once : (routing.healthNames.map Prod.snd).Nodup
  tls : routing.tlsConnector = lists.hasHttps

theorem new_levels {groups : List (UInt8 × List Listed)}
    (hkeys : (groups.map Prod.fst).Nodup) :
    let levels := (GateLevels.new (groups.map fun entry => ⟨entry.1, entry.1.toNat⟩)).levels
    (∀ level, level ∈ levels ↔ ∃ entry ∈ groups, level = ⟨entry.1, entry.1.toNat⟩) ∧
      (levels.map (·.rank)).Nodup ∧
      levels.Pairwise fun outer inner => inner.rank < outer.rank := by
  intro levels
  have hperm : levels.Perm (groups.map fun entry => ⟨entry.1, entry.1.toNat⟩) :=
    List.perm_insertionSort _ _
  have hranks : (levels.map (·.rank)).Nodup := by
    rw [(hperm.map GateLevel.rank).nodup_iff, List.map_map]
    exact hkeys
  refine ⟨fun level => ?_, hranks, ?_⟩
  · rw [hperm.mem_iff, List.mem_map]
    exact exists_congr fun entry => and_congr_right fun _ => eq_comm
  · have hsorted : levels.Pairwise fun outer inner => inner.rank ≤ outer.rank :=
      (GateLevels.new _).sorted
    refine (hsorted.and (List.pairwise_map.mp hranks)).imp ?_
    rintro outer inner ⟨hle, hne⟩
    exact UInt8.lt_of_le_of_ne hle (Ne.symm hne)

theorem gateName_injective : Function.Injective Routing.gateName := by
  intro left right heq
  have hdigits := List.append_cancel_left heq
  have hvalue := congrArg (numeralValue 10) hdigits
  rw [numeralValue_render (by decide) (by decide), numeralValue_render (by decide) (by decide)]
    at hvalue
  exact UInt8.toNat_inj.mp hvalue

theorem gateName_ne {name : Bytes} (hhead : name.head? = some 0x76) (rank : UInt8) :
    Routing.gateName rank ≠ name := by
  rintro rfl
  rw [Routing.gateName, lit] at hhead
  exact absurd (Option.some.inj hhead) (by decide)

theorem labels_nodup {α : Type} {ranks : List UInt8} (hranks : ranks.Nodup) {label : UInt8 → α}
    (hlabel : Function.Injective label) {v6 v4 : α} (hv6 : ∀ rank, label rank ≠ v6)
    (hv4 : ∀ rank, label rank ≠ v4) (hapart : v6 ≠ v4) {first second : Option α}
    (hfirst : ∀ found ∈ first, found = v6) (hsecond : ∀ found ∈ second, found = v4) :
    (ranks.map label ++ first.toList ++ second.toList).Nodup := by
  refine List.nodup_append.mpr ⟨List.nodup_append.mpr ⟨hranks.map hlabel, ?_, ?_⟩, ?_, ?_⟩
  · cases first <;> simp
  · intro name hname other hother
    obtain ⟨rank, -, rfl⟩ := List.mem_map.mp hname
    rw [hfirst other (Option.mem_toList.mp hother)]
    exact hv6 rank
  · cases second <;> simp
  · intro name hname other hother
    rw [hsecond other (Option.mem_toList.mp hother)]
    obtain hgate | hexit := List.mem_append.mp hname
    · obtain ⟨rank, -, rfl⟩ := List.mem_map.mp hgate
      exact hv4 rank
    · rw [hfirst name (Option.mem_toList.mp hexit)]
      exact hapart

theorem healthNames_nodup {routing : Routing ρ}
    (hranks : (routing.gates.levels.map (·.rank)).Nodup)
    (hlevels : ∀ level ∈ routing.gates.levels, level.rotator = level.rank.toNat)
    (hv6 : ∀ id ∈ routing.v6, id = v6Id) (hv4 : ∀ id ∈ routing.v4, id = v4Id) :
    (routing.healthNames.map Prod.fst).Nodup ∧ (routing.healthNames.map Prod.snd).Nodup := by
  have hids : routing.gates.levels.map (·.rotator) =
      (routing.gates.levels.map (·.rank)).map UInt8.toNat := by
    rw [List.map_map]
    exact List.map_congr_left hlevels
  have hapart (rank : UInt8) : rank.toNat ≠ v6Id ∧ rank.toNat ≠ v4Id := by
    have hlt := rank.toNat_lt
    unfold v6Id v4Id
    omega
  have hexits : v6Id ≠ v4Id := by decide
  have hnames : routing.healthNames.map Prod.fst =
      (routing.gates.levels.map (·.rank)).map Routing.gateName ++
        (routing.v6.map fun _ => lit "v6").toList ++ (routing.v4.map fun _ => lit "v4").toList := by
    unfold Routing.healthNames
    cases routing.v6 <;> cases routing.v4 <;> simp
  have hrotators : routing.healthNames.map Prod.snd =
      (routing.gates.levels.map (·.rank)).map UInt8.toNat ++ routing.v6.toList ++
        routing.v4.toList := by
    rw [← hids]
    unfold Routing.healthNames
    cases routing.v6 <;> cases routing.v4 <;> simp
  constructor
  · have hv6Name : ∀ rank, Routing.gateName rank ≠ lit "v6" := gateName_ne (by decide)
    have hv4Name : ∀ rank, Routing.gateName rank ≠ lit "v4" := gateName_ne (by decide)
    have hdiffer : lit "v6" ≠ lit "v4" := by decide
    rw [hnames]
    refine labels_nodup hranks gateName_injective hv6Name hv4Name hdiffer (fun name hname => ?_)
      fun name hname => ?_
    · obtain ⟨_, -, rfl⟩ := Option.mem_map.mp hname
      rfl
    · obtain ⟨_, -, rfl⟩ := Option.mem_map.mp hname
      rfl
  · rw [hrotators]
    exact labels_nodup hranks (fun _ _ => UInt8.toNat_inj.mp) (fun rank => (hapart rank).1)
      (fun rank => (hapart rank).2) hexits hv6 hv4

theorem exitsOf_made {lines : List ListedLine} {entries : List Listed}
    (hparsed : ParsedFrom lines entries) {exits : Option RotatorId} {rotators : Rotators ρ}
    (hnone : exits = none → entries.filter (!GateSplit.isGate ·) = [])
    (hsome : ∀ found ∈ exits, entries.filter (!GateSplit.isGate ·) ≠ [] ∧
      MadeOf (rotators found) (entries.filter (!GateSplit.isGate ·))) :
    ExitsOf rotators lines exits := by
  cases exits with
  | none =>
    intro node hlists hlevel
    obtain ⟨listed, hlisted, -⟩ := hparsed.plain.mpr ⟨hlists, hlevel⟩
    rw [hnone rfl] at hlisted
    cases hlisted
  | some found =>
    obtain ⟨hne, hmade⟩ := hsome found rfl
    obtain ⟨listed, hlisted⟩ := List.exists_mem_of_ne_nil _ hne
    exact ⟨⟨_, hparsed.plain.mp ⟨listed, hlisted, rfl⟩⟩,
      fun node => hmade.knows.trans hparsed.plain⟩

theorem buildRouting_made (settings : Nat → RotatorSettings ρ) (lists : ProxyListConfig)
    (haccepted : lists.allV6 ++ lists.allV4 ≠ [] →
      ∀ n, Accepted arith (settings n).policy (settings n).quarantine) :
    ∃ routing, buildRouting arith settings lists = .ok routing ∧
      (let groups := groupGateLevels ((lists.allV6 ++ lists.allV4).filter GateSplit.isGate)
       routing.gates = GateLevels.new (groups.map fun entry => ⟨entry.1, entry.1.toNat⟩) ∧
        ∀ entry ∈ groups, MadeOf (routing.rotators entry.1.toNat) entry.2) ∧
      (let v6 := lists.allV6.filter (!GateSplit.isGate ·)
       (routing.v6 = none → v6 = []) ∧
        ∀ found ∈ routing.v6, found = v6Id ∧ v6 ≠ [] ∧ MadeOf (routing.rotators found) v6) ∧
      (let v4 := lists.allV4.filter (!GateSplit.isGate ·)
       (routing.v4 = none → v4 = []) ∧
        ∀ found ∈ routing.v4, found = v4Id ∧ v4 ≠ [] ∧ MadeOf (routing.rotators found) v4) ∧
      (∀ id, Constructed (routing.rotators id)) ∧ routing.tlsConnector = lists.hasHttps := by
  have hgroups := groupGateLevels_groups ((lists.allV6 ++ lists.allV4).filter GateSplit.isGate)
  let gateGroups := groupGateLevels ((lists.allV6 ++ lists.allV4).filter GateSplit.isGate)
  have hlisted {entry : Listed} (hentry : entry ∈ lists.allV6 ++ lists.allV4) :
      Accepted arith (settings gateGroups.length).policy (settings gateGroups.length).quarantine :=
    haccepted (List.ne_nil_of_mem hentry) _
  obtain ⟨v6, first, hbuilt6, hkept6, hmade6⟩ := newExits_made v6Id
    (lists.allV6.filter (!GateSplit.isGate ·)) (noRotators (settings gateGroups.length))
    fun hne => by
      obtain ⟨entry, hentry⟩ := List.exists_mem_of_ne_nil _ hne
      exact hlisted (List.mem_append_left _ (List.mem_filter.mp hentry).1)
  obtain ⟨second, hbuiltGates, hmadeGates, hkeptGates⟩ := newGates_made gateGroups first
    hgroups.keys_nodup (fun entry hentry => (hgroups.group entry hentry).2) fun hne => by
      obtain ⟨group, hgroup⟩ := List.exists_mem_of_ne_nil _ hne
      obtain ⟨entry, hentry⟩ := List.exists_mem_of_ne_nil _ (hgroups.group group hgroup).2
      exact hlisted (List.mem_filter.mp ((hgroups.mem_group hgroup).mp hentry).1).1
  obtain ⟨v4, third, hbuilt4, hkept4, hmade4⟩ := newExits_made v4Id
    (lists.allV4.filter (!GateSplit.isGate ·)) second fun hne => by
      obtain ⟨entry, hentry⟩ := List.exists_mem_of_ne_nil _ hne
      exact hlisted (List.mem_append_right _ (List.mem_filter.mp hentry).1)
  have hgate (rank : UInt8) : third rank.toNat = second rank.toNat := by
    refine hkept4 _ fun heq => ?_
    have hlt := rank.toNat_lt
    rw [heq, v4Id] at hlt
    omega
  have hv6 : third v6Id = first v6Id := by
    rw [hkept4 v6Id (by decide), hkeptGates v6Id fun entry _ heq => ?_]
    have hlt := entry.1.toNat_lt
    rw [heq, v6Id] at hlt
    omega
  refine ⟨⟨_, v6, v4, third, lists.hasHttps⟩, ?_, ⟨rfl, fun entry hentry => ?_⟩, ⟨?_, ?_⟩,
    ⟨?_, ?_⟩, fun id => ?_, rfl⟩
  · rw [buildRouting, partitionProxyGroups_eq]
    dsimp only [bind, Except.bind]
    rw [hbuilt6]
    dsimp only
    rw [hbuiltGates]
    dsimp only
    rw [hbuilt4]
    rfl
  · change MadeOf (third entry.1.toNat) entry.2
    rw [hgate]
    exact hmadeGates entry hentry
  · rintro rfl
    obtain ⟨-, hempty, -⟩ | ⟨hsome, -⟩ := hmade6
    · exact hempty
    · cases hsome
  · intro found hfound
    obtain ⟨hnone, -⟩ | ⟨hsome, hne, hmade⟩ := hmade6
    · rw [hnone] at hfound
      cases hfound
    · rw [hsome] at hfound
      obtain rfl := Option.some.inj hfound
      refine ⟨rfl, hne, ?_⟩
      change MadeOf (third v6Id) _
      rw [hv6]
      exact hmade
  · rintro rfl
    obtain ⟨-, hempty, -⟩ | ⟨hsome, -⟩ := hmade4
    · exact hempty
    · cases hsome
  · intro found hfound
    obtain ⟨hnone, -⟩ | ⟨hsome, hne, hmade⟩ := hmade4
    · rw [hnone] at hfound
      cases hfound
    · rw [hsome] at hfound
      obtain rfl := Option.some.inj hfound
      exact ⟨rfl, hne, hmade⟩
  · change Constructed (third id)
    have hfirst : ∀ other, Constructed (first other) := constructed_exits hkept6 hmade6
      fun _ => ⟨[], rfl⟩
    refine constructed_exits hkept4 hmade4 (fun other => ?_) id
    by_cases hlevel : ∃ entry ∈ groupGateLevels ((lists.allV6 ++ lists.allV4).filter
        GateSplit.isGate), entry.1.toNat = other
    · obtain ⟨entry, hentry, rfl⟩ := hlevel
      exact (hmadeGates entry hentry).constructed
    · rw [hkeptGates other fun entry hentry heq => hlevel ⟨entry, hentry, heq⟩]
      exact hfirst other

theorem ExitsOf.isSome {rotators : Rotators ρ} {lines : List ListedLine}
    {exits : Option RotatorId} (hexits : ExitsOf rotators lines exits) :
    exits.isSome = true ↔ ∃ node, Lists lines node ∧ node.gateLevel = 0 := by
  cases exits with
  | none => exact iff_of_false Bool.false_ne_true fun ⟨node, hlists, hlevel⟩ =>
      hexits node hlists hlevel
  | some id => exact iff_of_true rfl hexits.1

theorem exists_plain {rotators : Rotators ρ} {before after : List ListedLine}
    {v6 v4 : Option RotatorId} (hv6 : ExitsOf rotators before v6)
    (hv4 : ExitsOf rotators after v4) :
    (∃ node, Lists (before ++ after) node ∧ node.gateLevel = 0) ↔
      v6.isSome = true ∨ v4.isSome = true := by
  rw [hv6.isSome, hv4.isSome]
  simp only [lists_append, or_and_right, exists_or]

theorem ParsedFrom.empty_iff {lines : List ListedLine} {entries : List Listed}
    (hparsed : ParsedFrom lines entries) : entries = [] ↔ ¬ ∃ node, Lists lines node := by
  simp only [hparsed.1, List.eq_nil_iff_forall_not_mem]
  constructor
  · rintro hempty ⟨_, listed, hlisted, -⟩
    exact hempty listed hlisted
  · exact fun hnone listed hlisted => hnone ⟨_, listed, hlisted, rfl⟩

/-- Whatever the lines say, the rotators of the lists are made. -/
theorem buildRouting_serves {settings : Nat → RotatorSettings ρ} (lists : ProxyListConfig)
    (haccepted : (∃ node, Lists (lists.v6Lines ++ lists.v4Lines) node) →
      ∀ n, Accepted arith (settings n).policy (settings n).quarantine) :
    ∃ routing, buildRouting arith settings lists = .ok routing ∧ routing.Serves lists := by
  have hparsed := (parsedFrom_v6 lists).append (parsedFrom_v4 lists)
  have hgroups := groupGateLevels_groups ((lists.allV6 ++ lists.allV4).filter GateSplit.isGate)
  obtain ⟨routing, hbuilt, ⟨hgates, hmade⟩, ⟨hnone6, hmade6⟩, ⟨hnone4, hmade4⟩, hconstructed,
    htls⟩ := buildRouting_made settings lists fun hne =>
      haccepted (not_not.mp fun hnone => hne (hparsed.empty_iff.mpr hnone))
  have hlevels := new_levels hgroups.keys_nodup
  rw [← hgates] at hlevels
  obtain ⟨hmem, hranks, hdescending⟩ := hlevels
  have hv6 : ExitsOf routing.rotators lists.v6Lines routing.v6 :=
    exitsOf_made (parsedFrom_v6 lists) hnone6 fun found hfound => (hmade6 found hfound).2
  have hv4 : ExitsOf routing.rotators lists.v4Lines routing.v4 :=
    exitsOf_made (parsedFrom_v4 lists) hnone4 fun found hfound => (hmade4 found hfound).2
  have hnames := healthNames_nodup hranks
    (fun level hlevel => by
      obtain ⟨entry, -, rfl⟩ := (hmem level).mp hlevel
      rfl)
    (fun found hfound => (hmade6 found hfound).1) fun found hfound => (hmade4 found hfound).1
  refine ⟨routing, hbuilt,
    { outermostFirst := hdescending
      ranks := fun rank => ?_
      gates := fun level hlevel node => ?_
      v6 := hv6
      v4 := hv4
      constructed := hconstructed
      names := hnames.1
      once := hnames.2
      tls := htls }⟩
  · constructor
    · rintro ⟨level, hlevel, rfl⟩
      obtain ⟨entry, hentry, rfl⟩ := (hmem level).mp hlevel
      obtain ⟨listed, hlisted⟩ := List.exists_mem_of_ne_nil _ (hgroups.group entry hentry).2
      obtain ⟨hgate, hkey⟩ := (hgroups.mem_group hentry).mp hlisted
      obtain ⟨hlists, hpos⟩ := hparsed.gates.mp ⟨listed, hgate, rfl⟩
      exact ⟨hkey ▸ hpos, _, hlists, hkey⟩
    · rintro ⟨hpos, node, hlists, rfl⟩
      obtain ⟨listed, hlisted, rfl⟩ := hparsed.gates.mpr ⟨hlists, hpos⟩
      obtain ⟨entry, hentry, hkey⟩ := hgroups.covers listed hlisted
      exact ⟨_, (hmem _).mpr ⟨entry, hentry, rfl⟩, hkey⟩
  · obtain ⟨entry, hentry, rfl⟩ := (hmem level).mp hlevel
    obtain ⟨some, hsome⟩ := List.exists_mem_of_ne_nil _ (hgroups.group entry hentry).2
    obtain ⟨hgate, hkey⟩ := (hgroups.mem_group hentry).mp hsome
    have hpos : 0 < entry.1 := hkey ▸ (hparsed.gates.mp ⟨some, hgate, rfl⟩).2
    refine (hmade entry hentry).knows.trans ⟨?_, ?_⟩
    · rintro ⟨listed, hlisted, rfl⟩
      obtain ⟨hgate, hkey⟩ := (hgroups.mem_group hentry).mp hlisted
      exact ⟨(hparsed.gates.mp ⟨listed, hgate, rfl⟩).1, hkey⟩
    · rintro ⟨hlists, hlevel⟩
      obtain ⟨listed, hgate, rfl⟩ := hparsed.gates.mpr ⟨hlists, hlevel ▸ hpos⟩
      exact ⟨listed, (hgroups.mem_group hentry).mpr ⟨hgate, hlevel⟩, rfl⟩

section

variable {error : RatingError}
  (hrejected : Rejected arith settings.policy settings.quarantine error)

include hrejected

theorem newRotator_rejected (id : RotatorId) {proxies : List Listed} (hne : proxies ≠ []) :
    newRotator arith settings id proxies = .error (.invalidPolicy error) := by
  rw [newRotator, Rotator.tryWithQuarantine, if_neg (by simpa using hne)]
  dsimp only
  rw [hrejected.tryWithQuarantine]

theorem newExits_rejected (id : RotatorId) (proxies : List Listed) (rotators : Rotators ρ) :
    newExits arith settings id proxies rotators =
      if proxies = [] then .ok (none, rotators) else .error (.invalidPolicy error) := by
  rw [newExits]
  by_cases hempty : proxies = []
  · rw [if_pos (by simpa using hempty), if_pos hempty]
  · rw [if_neg (by simpa using hempty), if_neg hempty, newRotator_rejected hrejected id hempty]
    rfl

theorem newGates_rejected (groups : List (UInt8 × List Listed)) (rotators : Rotators ρ)
    (hne : ∀ entry ∈ groups, entry.2 ≠ []) :
    newGates arith settings groups rotators =
      if groups = [] then .ok ([], rotators) else .error (.invalidPolicy error) := by
  cases groups with
  | nil => rfl
  | cons head rest =>
    rw [newGates, newRotator_rejected hrejected _ (hne head List.mem_cons_self), if_neg (by simp)]
    rfl

end

/-- The first rotator that has anything to hold ends the start. -/
theorem buildRouting_rejected {settings : Nat → RotatorSettings ρ} {error : RatingError}
    (hrejected : ∀ n, Rejected arith (settings n).policy (settings n).quarantine error)
    {lists : ProxyListConfig}
    (hlisted : ∃ node, Lists (lists.v6Lines ++ lists.v4Lines) node) :
    buildRouting arith settings lists = .error (.invalidPolicy error) := by
  have hparsed := (parsedFrom_v6 lists).append (parsedFrom_v4 lists)
  have hgroups := groupGateLevels_groups ((lists.allV6 ++ lists.allV4).filter GateSplit.isGate)
  have hne : lists.allV6 ++ lists.allV4 ≠ [] := fun hempty => hparsed.empty_iff.mp hempty hlisted
  rw [buildRouting, partitionProxyGroups_eq]
  dsimp only [bind, Except.bind]
  rw [newExits_rejected (hrejected _)]
  by_cases hv6 : lists.allV6.filter (!GateSplit.isGate ·) = []
  · rw [if_pos hv6]
    dsimp only
    rw [newGates_rejected (hrejected _) _ _ fun entry hentry => (hgroups.group entry hentry).2]
    by_cases hgates : groupGateLevels ((lists.allV6 ++ lists.allV4).filter GateSplit.isGate) = []
    · rw [if_pos hgates]
      dsimp only
      rw [newExits_rejected (hrejected _), if_neg fun hv4 => hne ?_]
      have hgate : ∀ entry ∈ lists.allV6 ++ lists.allV4, GateSplit.isGate entry = false := by
        intro entry hentry
        by_contra htrue
        obtain ⟨group, hgroup, -⟩ := hgroups.covers entry
          (List.mem_filter.mpr ⟨hentry, by simpa using htrue⟩)
        rw [hgates] at hgroup
        cases hgroup
      refine List.eq_nil_iff_forall_not_mem.mpr fun entry hentry => ?_
      have hplain : (!GateSplit.isGate entry) = true := by rw [hgate entry hentry]; rfl
      obtain hmem | hmem := List.mem_append.mp hentry
      · exact List.eq_nil_iff_forall_not_mem.mp hv6 entry (List.mem_filter.mpr ⟨hmem, hplain⟩)
      · exact List.eq_nil_iff_forall_not_mem.mp hv4 entry (List.mem_filter.mpr ⟨hmem, hplain⟩)
    · rw [if_neg hgates]
  · rw [if_neg hv6]

end

/-! Whether a start goes on. -/

def ProxyListConfig.ListsAny (lists : ProxyListConfig) : Prop :=
  ∃ node, Lists (lists.v6Lines ++ lists.v4Lines) node

/-- An upstream or a direct user could serve somebody. -/
def Servable (lists : ProxyListConfig) (users : List Auth.User) : Prop :=
  (∃ node, Lists (lists.v6Lines ++ lists.v4Lines) node ∧ node.gateLevel = 0) ∨
    ∃ user ∈ users, user.isEnabled = true ∧ user.direct = true

section

variable {ρ : Type u} (arith : FloatArith) (patternsCompile : List Bytes → Bool) (main : MainConfig)
  (lists : ProxyListConfig) (users : List Auth.User)

/-- The configuration passes its checks; without upstreams the network section is not read. -/
structure Startable : Prop where
  clients : ClientsValid main users
  patterns : patternsCompile main.bannedPatterns = true
  network : lists.ListsAny → main.network.Valid arith

/-- Why a start ends as it does. The rules of the clients come first, so that no other error hides
theirs, and the lack of upstreams last. -/
def Justified : Except StartError (Routing ρ) → Prop
  | .error (.allowedClients error) => error.Names main users
  | .error .panicked => ClientsValid main users ∧ patternsCompile main.bannedPatterns = false
  | .error (.network error) => ClientsValid main users ∧
      patternsCompile main.bannedPatterns = true ∧ lists.ListsAny ∧
      ∃ reason, error = .invalidPolicy reason ∧ main.network.Rejects arith reason
  | .error .noUpstreams => Startable arith patternsCompile main lists users ∧
      ¬ Servable lists users
  | .ok routing => Startable arith patternsCompile main lists users ∧ Servable lists users ∧
      routing.Serves lists

variable {arith patternsCompile main lists users}

theorem buildRouting_network (arith : FloatArith) (main : MainConfig) (lists : ProxyListConfig)
    (now : Instant) (seed : RotatorId → ρ) :
    ((lists.ListsAny → main.network.Valid arith) ∧ ∃ routing,
      buildRouting arith (main.network.rotatorSettings now seed) lists = .ok routing ∧
        routing.Serves lists) ∨
    lists.ListsAny ∧ ∃ reason, main.network.Rejects arith reason ∧
      buildRouting arith (main.network.rotatorSettings now seed) lists =
        .error (.invalidPolicy reason) := by
  by_cases hvalid : lists.ListsAny → main.network.Valid arith
  · refine .inl ⟨hvalid, buildRouting_serves lists fun hlisted n => ?_⟩
    exact (main.network.accepted_iff arith n).mpr (hvalid hlisted)
  · obtain ⟨hlisted, hinvalid⟩ := not_forall.mp hvalid
    obtain haccepted | ⟨reason, hrejected⟩ := accepted_or_rejected arith main.network.ratingPolicy
      (main.network.quarantinePolicy 0)
    · exact absurd ((main.network.accepted_iff arith 0).mp haccepted) hinvalid
    · have hrejects := (main.network.rejected_iff arith 0 reason).mp hrejected
      refine .inr ⟨hlisted, reason, hrejects, buildRouting_rejected (fun n => ?_) hlisted⟩
      exact (main.network.rejected_iff arith n reason).mpr hrejects

theorem Routing.Serves.servable {routing : Routing ρ} (hserves : routing.Serves lists) :
    shouldBailNoUpstreams (!hasUsableRoute routing.v4.isSome routing.v6.isSome) users = false ↔
      Servable lists users := by
  rw [Servable, exists_plain hserves.v6 hserves.v4]
  unfold shouldBailNoUpstreams hasUsableRoute
  cases routing.v4 <;> cases routing.v6 <;> simp

theorem startRouting_justified (now : Instant) (seed : RotatorId → ρ) :
    Justified arith patternsCompile main lists users
      (startRouting arith patternsCompile now seed main lists users) := by
  unfold startRouting
  split
  · rename_i error herror
    exact validateAllowedClients_error herror
  · rename_i checked hchecked
    have hclients := validateAllowedClients_ok hchecked
    cases hpatterns : patternsCompile main.bannedPatterns with
    | false => exact ⟨hclients, hpatterns⟩
    | true =>
      rw [if_neg (by decide)]
      obtain ⟨hvalid, routing, hbuilt, hserves⟩ | ⟨hlisted, reason, hrejects, hbuilt⟩ :=
        buildRouting_network arith main lists now seed
      · rw [hbuilt]
        dsimp only
        have hstartable : Startable arith patternsCompile main lists users :=
          ⟨hclients, hpatterns, hvalid⟩
        split
        · rename_i hbail
          refine ⟨hstartable, fun hservable => ?_⟩
          rw [hserves.servable.mpr hservable] at hbail
          cases hbail
        · rename_i hgoes
          exact ⟨hstartable, hserves.servable.mp (Bool.eq_false_iff.mpr hgoes), hserves⟩
      · rw [hbuilt]
        exact ⟨hclients, hpatterns, hlisted, reason, rfl, hrejects⟩

/-- Whatever the configuration says, a start ends for a reason of its own, which it tells. It goes on
exactly if the checks pass and an upstream or a direct user could serve anybody, and then with the
rotators of the lists. -/
theorem configured_upstreams (arith : FloatArith) (patternsCompile : List Bytes → Bool)
    (now : Instant) (seed : RotatorId → ρ) (main : MainConfig) (lists : ProxyListConfig)
    (users : List Auth.User) :
    Justified arith patternsCompile main lists users
      (startRouting arith patternsCompile now seed main lists users) ∧
    ((∃ routing, startRouting arith patternsCompile now seed main lists users = .ok routing) ↔
      Startable arith patternsCompile main lists users ∧ Servable lists users) := by
  have hjustified : Justified arith patternsCompile main lists users
      (startRouting arith patternsCompile now seed main lists users) :=
    startRouting_justified now seed
  refine ⟨hjustified, ?_⟩
  constructor
  · rintro ⟨routing, hstart⟩
    rw [hstart] at hjustified
    exact ⟨hjustified.1, hjustified.2.1⟩
  · rintro ⟨hstartable, hservable⟩
    cases hstart : startRouting arith patternsCompile now seed main lists users with
    | ok routing => exact ⟨routing, rfl⟩
    | error error =>
      exfalso
      rw [hstart] at hjustified
      cases error with
      | allowedClients error => exact hjustified.invalid hstartable.clients
      | panicked => exact Bool.false_ne_true (hjustified.2.symm.trans hstartable.patterns)
      | network error =>
        obtain ⟨-, -, hlisted, reason, -, hrejects⟩ := hjustified
        exact hrejects.invalid _ (hstartable.network hlisted)
      | noUpstreams => exact hjustified.2 hservable

end

/-! The chains that a started server dials. -/

theorem checkTls_ok {nodes : List ProxyNode} {tlsConnector : Bool}
    (hhttps : ∀ node ∈ nodes, node.protocol = .https → tlsConnector = true) :
    checkTls nodes tlsConnector = .ok () := by
  unfold checkTls
  split
  · rename_i node hfound
    have hconnector := hhttps node (List.mem_of_find?_eq_some hfound)
      (by simpa using List.find?_some hfound)
    cases hconnector
  · rfl

theorem lists_https {lists : ProxyListConfig} {node : ProxyNode}
    (hlists : Lists (lists.v6Lines ++ lists.v4Lines) node) (hhttps : node.protocol = .https) :
    lists.hasHttps = true := by
  obtain ⟨⟨line, proto⟩, hline, listed, hparse, rfl⟩ := hlists
  have hproto : proto = .https := (parseProxyStr_ok hparse).1.symm.trans hhttps
  subst hproto
  have hmem : line ∈ lists.httpsV6 ∨ line ∈ lists.httpsV4 := by
    simpa [ProxyListConfig.v6Lines, ProxyListConfig.v4Lines] using hline
  rw [ProxyListConfig.hasHttps]
  obtain hv6 | hv4 := hmem
  · cases hlist : lists.httpsV6 with
    | nil => simp [hlist] at hv6
    | cons => simp
  · cases hlist : lists.httpsV4 with
    | nil => simp [hlist] at hv4
    | cons => simp

section

variable {ρ : Type u} {lists : ProxyListConfig} {routing : Routing ρ} {rotators : Rotators ρ}

theorem Hop.Owned.knows {arith : FloatArith} {rng : Rng ρ} {hop : Hop}
    (hused : RotatorsUse arith rng routing.rotators rotators) (howned : hop.Owned rotators) :
    Knows (routing.rotators hop.rotator) hop.proxy.node := by
  rw [Hop.Owned, (hused hop.rotator).proxies] at howned
  exact ⟨hop.proxy, howned, rfl⟩

theorem Routing.Serves.exit (hserves : routing.Serves lists) {id : RotatorId}
    (hexit : id ∈ routing.exits) {node : ProxyNode} (hknows : Knows (routing.rotators id) node) :
    Lists (lists.v6Lines ++ lists.v4Lines) node ∧ node.gateLevel = 0 := by
  have hfound : routing.v6 = some id ∨ routing.v4 = some id := by
    simpa [Routing.exits, eq_comm] using hexit
  rw [lists_append]
  obtain hv6 | hv4 := hfound
  · have hexits := hserves.v6
    rw [hv6] at hexits
    exact ((hexits.2 node).mp hknows).imp_left .inl
  · have hexits := hserves.v4
    rw [hv4] at hexits
    exact ((hexits.2 node).mp hknows).imp_left .inr

theorem Routing.Serves.ranked (hserves : routing.Serves lists) {arith : FloatArith}
    {rng : Rng ρ} (hused : RotatorsUse arith rng routing.rotators rotators) :
    routing.gates.Ranked rotators := by
  intro level hlevel proxy hproxy
  rw [(hused level.rotator).proxies] at hproxy
  exact ((hserves.gates level hlevel proxy.node).mp ⟨proxy, hproxy, rfl⟩).2

theorem forall_right {α β : Type} {related : α → β → Prop} {holds : β → Prop} {left : List α}
    {right : List β} (hpairs : List.Forall₂ related left right)
    (hholds : ∀ a b, related a b → holds b) : ∀ b ∈ right, holds b := by
  induction hpairs with
  | nil => exact fun _ hnil => by cases hnil
  | cons hpair _ ih => exact List.forall_mem_cons.mpr ⟨hholds _ _ hpair, ih⟩

theorem first_hop {levels : List GateLevel} {front : List Hop}
    (hfront : List.Forall₂ (fun level hop => hop.rotator = level.rotator ∧ hop.Owned rotators)
      levels front) (last : Hop) :
    ∃ first, (front ++ [last]).head? = some first ∧
      (first = last ∨ first.rotator ∈ (levels.take 1).map (·.rotator)) := by
  cases hfront with
  | nil => exact ⟨last, rfl, .inl rfl⟩
  | cons hfirst _ =>
    refine ⟨_, rfl, .inr ?_⟩
    rw [hfirst.1]
    exact List.mem_singleton_self _

/-- A chain from the outermost gate to a plain exit: one gate of every rank that is listed, each
node read off a line. -/
structure Walks (lists : ProxyListConfig) (gates : List ProxyNode) (exit : ProxyNode) : Prop where
  descending : gates.Pairwise fun outer inner => inner.gateLevel < outer.gateLevel
  ranks : ∀ rank, (∃ gate ∈ gates, gate.gateLevel = rank) ↔
    0 < rank ∧ ∃ node, Lists (lists.v6Lines ++ lists.v4Lines) node ∧ node.gateLevel = rank
  plain : exit.gateLevel = 0
  listed : ∀ node ∈ gates ++ [exit], Lists (lists.v6Lines ++ lists.v4Lines) node

theorem Routing.Serves.walks (hserves : routing.Serves lists) {arith : FloatArith} {rng : Rng ρ}
    (hused : RotatorsUse arith rng routing.rotators rotators) {front : List Hop} {last : Hop}
    (hfront : List.Forall₂ (fun level hop => hop.rotator = level.rotator ∧ hop.Owned rotators)
      routing.gates.levels front)
    (hexit : last.rotator ∈ routing.exits) (hlast : last.Owned rotators) :
    Walks lists (front.map (·.proxy.node)) last.proxy.node := by
  have hgates : List.Forall₂ (fun level hop =>
      Lists (lists.v6Lines ++ lists.v4Lines) hop.proxy.node ∧
        hop.proxy.node.gateLevel = level.rank) routing.gates.levels front := by
    have hpairs := (List.forall₂_and_left routing.gates.levels front).mpr
      ⟨fun level hlevel => hlevel, hfront⟩
    refine hpairs.imp fun level hop hpair => ?_
    obtain ⟨hlevel, hrotator, howned⟩ := hpair
    exact (hserves.gates level hlevel _).mp (hrotator ▸ Hop.Owned.knows hused howned)
  have hlevels : front.map (·.proxy.node.gateLevel) = routing.gates.levels.map (·.rank) := by
    refine List.forall₂_eq_eq_eq ▸ List.forall₂_map_left_iff.mpr (List.forall₂_map_right_iff.mpr ?_)
    exact hgates.flip.imp fun hop level hpair => hpair.2
  have hlisted : ∀ hop ∈ front, Lists (lists.v6Lines ++ lists.v4Lines) hop.proxy.node :=
    forall_right hgates fun level hop hpair => hpair.1
  obtain ⟨hexitListed, hplain⟩ := hserves.exit hexit (Hop.Owned.knows hused hlast)
  refine ⟨?_, fun rank => ?_, hplain, fun node hnode => ?_⟩
  · have hdescending : (routing.gates.levels.map (·.rank)).Pairwise fun outer inner =>
        inner < outer := List.pairwise_map.mpr hserves.outermostFirst
    rw [← hlevels, List.pairwise_map] at hdescending
    exact List.pairwise_map.mpr hdescending
  · rw [← hserves.ranks rank]
    have hmem : rank ∈ front.map (·.proxy.node.gateLevel) ↔
        rank ∈ routing.gates.levels.map (·.rank) := by rw [hlevels]
    simpa [List.mem_map] using hmem
  · obtain hgate | hlast := List.mem_append.mp hnode
    · obtain ⟨hop, hhop, rfl⟩ := List.mem_map.mp hgate
      exact hlisted hop hhop
    · rw [List.mem_singleton.mp hlast]
      exact hexitListed

/-- Whatever the rotators have been through, and whatever has become of other chains, a chain that
is offered walks the configured gates, has the TLS it needs, begins at a rotator that is dialed
directly, and is found again. -/
theorem configured_routes {arith : FloatArith} {patternsCompile : List Bytes → Bool} {now : Instant}
    {seed : RotatorId → ρ} {main : MainConfig} {users : List Auth.User}
    (hstart : startRouting arith patternsCompile now seed main lists users = .ok routing)
    {rng : Rng ρ}
    (hused : RotatorsUse arith rng routing.rotators rotators) {exits : List RotatorId}
    (hexits : exits ⊆ routing.exits) {clock : Nat → Instant} {plan plan' : ChainPlan}
    {after : Rotators ρ}
    (hplan : planFor arith rng clock routing.gates exits rotators = some (plan, after))
    {fuel : Nat} {calls : List PlanCall} {events : List PlanEvent}
    (hsession : plan.session fuel calls = some (events, plan')) {pick : ChainPick}
    (hyield : .yielded pick ∈ events) :
    ∃ gates exit, pick.config.nodes = gates ++ [exit] ∧ Walks lists gates exit ∧
      checkTls pick.config.nodes routing.tlsConnector = .ok () ∧
      (∃ first, pick.hops.head? = some first ∧ first.rotator ∈ routing.directlyDialed) ∧
      ∃ last, pick.exit? = some last ∧ last.rotator ∈ exits ∧ last.proxy.node = exit ∧
        ∀ later, RotatorsUse arith rng routing.rotators later →
          routing.gates.resolve later [last.rotator] pick.config = some pick := by
  have hserves : routing.Serves lists := by
    have hjustified : Justified arith patternsCompile main lists users
        (startRouting arith patternsCompile now seed main lists users) :=
      startRouting_justified now seed
    rw [hstart] at hjustified
    exact hjustified.2.2
  have hoffered := planFor_offered hplan (plan.session_combination hsession hyield)
  obtain ⟨front, last, hhops, hfront, hlastExit, hlast⟩ := hoffered
  have hwalks := hserves.walks hused hfront (hexits hlastExit) hlast
  have hnodes : pick.config.nodes = front.map (·.proxy.node) ++ [last.proxy.node] := by
    rw [pick.config_nodes, hhops, List.map_append, List.map_singleton]
  refine ⟨_, _, hnodes, hwalks, ?_, ?_, last, ?_, hlastExit, rfl, fun later hlater => ?_⟩
  · rw [hnodes, hserves.tls]
    exact checkTls_ok fun node hnode hhttps => lists_https (hwalks.listed node hnode) hhttps
  · rw [hhops, Routing.directlyDialed]
    obtain ⟨first, hfirst, rfl | houtermost⟩ := first_hop hfront last
    · exact ⟨first, hfirst, List.mem_append_right _ (hexits hlastExit)⟩
    · exact ⟨first, hfirst, List.mem_append_left _ houtermost⟩
  · rw [ChainPick.exit?, hhops, List.getLast?_concat]
  · have hproxies : ∀ id, (later id).proxies = (rotators id).proxies := fun id => by
      rw [(hlater id).proxies, (hused id).proxies]
    have hkept : Offered routing.gates later exits pick.hops :=
      Offered.of_proxies hproxies ⟨front, last, hhops, hfront, hlastExit, hlast⟩
    have hnodup : ∀ id, ((later id).proxies.map (·.node)).Nodup := fun id => by
      rw [(hlater id).proxies]
      exact (hserves.constructed id).nodup
    obtain ⟨exit, hexit, -, hresolve⟩ :=
      GateLevels.resolve_offered (hserves.ranked hlater) hnodup hkept
    rw [ChainPick.exit?, hhops, List.getLast?_concat] at hexit
    obtain rfl := Option.some.inj hexit
    exact hresolve

end

def gatedLists : ProxyListConfig where
  socks5V6 := []
  httpV6 := []
  httpsV6 := []
  socks5V4 := [lit "*10.0.0.1:1080", lit "# spare", lit "10.0.0.3", lit "10.0.0.2:1081"]
  httpV4 := []
  httpsV4 := []

def smallMain : MainConfig where
  port := 1080
  listenHost := lit "127.0.0.1"
  bannedPatterns := []
  allowAnonymous := true
  network :=
    { NetworkConfig.default with
      sandFailPenalty := .finite 0
      sandMinWeight := .finite 1
      sandSuccessFactor := .finite 1 }
  allowedClients := lit "*"

def smallStart : Except StartError (Routing UInt64) :=
  startRouting Ratings.exactArith (fun _ => true) 0 (fun _ => 7) smallMain gatedLists []

theorem configured_routes_gated :
    ∃ pick : ChainPick, pick.hops.map (·.proxy.node.port) = [1080, 1081] ∧
      ∃ gates exit, pick.config.nodes = gates ++ [exit] ∧ Walks gatedLists gates exit := by
  have hyields : (smallStart.toOption.bind fun routing =>
      (planFor Ratings.exactArith smallRng (fun _ => 0) routing.gates routing.exits
        routing.rotators).bind fun planned => (planned.1.session 2 [.nextPick]).bind fun ended =>
          (yields ended.1)[0]?.map fun pick => pick.hops.map (·.proxy.node.port)) =
            some [1080, 1081] := by
    decide +kernel
  obtain ⟨routing, hstart, hyields⟩ := Option.bind_eq_some_iff.mp hyields
  obtain ⟨⟨plan, after⟩, hplan, hyields⟩ := Option.bind_eq_some_iff.mp hyields
  obtain ⟨⟨events, plan'⟩, hsession, hyields⟩ := Option.bind_eq_some_iff.mp hyields
  obtain ⟨pick, hpick, hports⟩ := Option.map_eq_some_iff.mp hyields
  have hyield : .yielded pick ∈ events := by
    obtain ⟨event, hevent, hsome⟩ := List.mem_filterMap.mp (List.mem_of_getElem? hpick)
    cases event with
    | yielded other =>
      cases hsome
      exact hevent
    | _ => cases hsome
  have hstarted : smallStart = .ok routing := by
    cases hsmall : smallStart with
    | ok other =>
      rw [hsmall] at hstart
      rw [Option.some.inj hstart]
    | error error =>
      rw [hsmall] at hstart
      cases hstart
  obtain ⟨gates, exit, hnodes, hwalks, -⟩ := configured_routes hstarted
    (RotatorsUse.refl routing.rotators) (List.Subset.refl _) hplan hsession hyield
  exact ⟨pick, hports, gates, exit, hnodes, hwalks⟩

end Resocks5.Server
