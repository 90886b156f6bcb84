import Resocks5.Inbound.AuthSound
import Resocks5.Server.Handler

namespace Resocks5.Server

open Resocks5.Config
open Resocks5.Foundation
open Resocks5.Inbound
open Resocks5.Recovery
open Prog

/-! No open relay: what has to come before a dial. -/

/-- What the host of a connection sees of a program of the server: denied credentials are not
shown to the verification. -/
structure Mirrors (allowed : Credentials → Bool) (host : Log HostCall) (log : Log Credentials) :
    Prop where
  taken : host.taken = log.taken
  written : host.written = log.written
  asked : host.asked = (log.asked.filter fun asked => allowed asked.1).map fun asked =>
    (.verify asked.1, asked.2)
  denied : ∀ asked ∈ log.asked, allowed asked.1 = false → asked.2 = false

namespace Mirrors

variable {allowed : Credentials → Bool} {host : Log HostCall} {log : Log Credentials}
  (hmirrors : Mirrors allowed host log)

include hmirrors

theorem put (bytes : Bytes) : Mirrors allowed (host.put bytes) (log.put bytes) where
  taken := hmirrors.taken
  written := by rw [Log.put_written, Log.put_written, hmirrors.written]
  asked := hmirrors.asked
  denied := hmirrors.denied

theorem take (bytes : Bytes) : Mirrors allowed (host.take bytes) (log.take bytes) where
  taken := by rw [Log.take_taken, Log.take_taken, hmirrors.taken]
  written := hmirrors.written
  asked := hmirrors.asked
  denied := hmirrors.denied

theorem ask {credentials : Credentials} (hallowed : allowed credentials = true) (answer : Bool) :
    Mirrors allowed (host.ask (.verify credentials) answer) (log.ask credentials answer) where
  taken := hmirrors.taken
  written := hmirrors.written
  asked := by
    rw [Log.ask_asked, Log.ask_asked, List.filter_append, List.map_append, hmirrors.asked,
      List.filter_cons, if_pos hallowed]
    rfl
  denied := by
    intro asked hasked hdenied
    obtain hasked | hasked := List.mem_append.mp hasked
    · exact hmirrors.denied asked hasked hdenied
    · obtain rfl := List.mem_singleton.mp hasked
      exact absurd hallowed (by rw [hdenied]; exact Bool.false_ne_true)

theorem deny {credentials : Credentials} (hdenied : allowed credentials = false) :
    Mirrors allowed host (log.ask credentials false) where
  taken := hmirrors.taken
  written := hmirrors.written
  asked := by
    rw [Log.ask_asked, List.filter_append, List.filter_cons, if_neg (Bool.eq_false_iff.mp hdenied),
      List.filter_nil, List.append_nil, hmirrors.asked]
  denied := by
    intro asked hasked hno
    obtain hasked | hasked := List.mem_append.mp hasked
    · exact hmirrors.denied asked hasked hno
    · obtain rfl := List.mem_singleton.mp hasked
      rfl

/-- Only allowed credentials are asked about. -/
theorem verifies {call : HostCall} {answer : Bool} (hmem : (call, answer) ∈ host.asked) :
    ∃ credentials, call = .verify credentials ∧ allowed credentials = true := by
  rw [hmirrors.asked] at hmem
  obtain ⟨asked, hfiltered, hcall⟩ := List.mem_map.mp hmem
  exact ⟨asked.1, (Prod.mk.inj hcall).1.symm, (List.mem_filter.mp hfiltered).2⟩

end Mirrors

theorem overHost_safe {α : Type} {allowed : Credentials → Bool} {inv : Log Credentials → Prop}
    {post : α → Log Credentials → Prop} {prog : ServerProg α} {log : Log Credentials}
    {host : Log HostCall} (hsafe : prog.Safe inv post log) (hmirrors : Mirrors allowed host log) :
    (overHost allowed prog).Safe (fun host => ∃ log, Mirrors allowed host log ∧ inv log)
      (fun value host => ∃ log, Mirrors allowed host log ∧ inv log ∧ post value log) host := by
  induction prog generalizing log host with
  | ok value => exact ⟨⟨log, hmirrors, hsafe.1⟩, log, hmirrors, hsafe⟩
  | fail error => exact ⟨log, hmirrors, hsafe⟩
  | broken fault => exact ⟨log, hmirrors, hsafe⟩
  | write bytes next ih =>
      exact ⟨fun sent hsent => ⟨_, hmirrors.put sent, hsafe.1 sent hsent⟩,
        ih hsafe.2 (hmirrors.put bytes)⟩
  | exact n next ih =>
      exact ⟨fun chunk hchunk => ⟨_, hmirrors.take chunk, hsafe.1 chunk hchunk⟩,
        fun chunk hchunk => ih chunk (hsafe.2 chunk hchunk) (hmirrors.take chunk)⟩
  | read max next ih =>
      exact ⟨⟨log, hmirrors, hsafe.1⟩,
        fun chunk hchunk => ih chunk (hsafe.2 chunk hchunk) (hmirrors.take chunk)⟩
  | ask credentials next ih =>
      rw [overHost]
      split
      · rename_i hallowed
        exact ⟨⟨log, hmirrors, hsafe.1⟩,
          fun answer => ih answer (hsafe.2 answer) (hmirrors.ask hallowed answer)⟩
      · rename_i hdenied
        exact ih false (hsafe.2 false) (hmirrors.deny (Bool.eq_false_iff.mpr hdenied))

theorem Carries.grow {base64 : Base64} {protocol : Protocol} {taken more user password : Bytes}
    (hcarries : Carries base64 protocol taken user password) (hmore : taken <+: more) :
    Carries base64 protocol more user password := by
  cases protocol with
  | socks5 => exact SocksCarries.grow hcarries hmore
  | http =>
      obtain ⟨requestLine, before, line, after, rest, scheme, token, rfl, hhead⟩ := hcarries
      obtain ⟨tail, rfl⟩ := hmore
      exact ⟨requestLine, before, line, after, rest ++ tail, scheme, token,
        by rw [List.append_assoc], hhead⟩

namespace Connection

variable (conn : Connection)

/-- The client has proved to be `name`, from an address that `name` may come from. -/
def Verified (taken : Bytes) (asked : List (HostCall × Bool)) (name : Bytes) : Prop :=
  ∃ protocol password, (.verify (Credentials.new name password), true) ∈ asked ∧
    Carries conn.base64 protocol taken name password ∧
    conn.auth.clientIpAllowed name conn.peer = true

/-- Nobody is verified, and nobody has to be. -/
def Anonymous (asked : List (HostCall × Bool)) : Prop :=
  conn.auth.allowAnonymous = true ∧ ∀ credentials answer, (.verify credentials, answer) ∉ asked

/-- Who may be served on a path. -/
def Cleared (taken : Bytes) (asked : List (HostCall × Bool)) : Path → Prop
  | .local => ∃ name, conn.Verified taken asked name ∧ conn.auth.isDirect name = true ∧
      (.directPermit, true) ∈ asked
  | .pool => (∃ name, conn.Verified taken asked name ∧ conn.auth.isDirect name = false) ∨
      conn.Anonymous asked

/-- Whom a request comes from. -/
def Known (request : IncomingRequest) (log : Log HostCall) : Prop :=
  (∃ name, request.username = some name ∧ conn.Verified log.taken log.asked name) ∨
    (request.username = none ∧ conn.Anonymous log.asked)

/-- What has to come before a question of the handler. -/
def Permitted (taken : Bytes) (before : List (HostCall × Bool)) : HostCall → Prop
  | .verify credentials => conn.auth.clientIpAllowed credentials.username conn.peer = true
  | .directPermit => (∃ name, conn.Verified taken before name ∧ conn.auth.isDirect name = true) ∧
      ∀ answer, (.directPermit, answer) ∉ before
  | .dial path target => conn.banned target = false ∧ conn.Cleared taken before path
  | .tunnel path target _ => (.dial path target, true) ∈ before ∧ conn.Cleared taken before path
  | .silent | .interrupted | .greets => conn.Cleared taken before .pool

/-- Nothing is asked without what has to come before it. -/
def Lawful (log : Log HostCall) : Prop :=
  ∀ before call answer after, log.asked = before ++ (call, answer) :: after →
    conn.Permitted log.taken before call

variable {conn} {log : Log HostCall}

section

variable {taken more : Bytes} {asked later : List (HostCall × Bool)}

theorem Verified.grow {name : Bytes} (hverified : conn.Verified taken asked name)
    (htaken : taken <+: more) (hasked : asked ⊆ later) : conn.Verified more later name := by
  obtain ⟨protocol, password, hmem, hcarries, hallowed⟩ := hverified
  exact ⟨protocol, password, hasked hmem, Carries.grow hcarries htaken, hallowed⟩

theorem Cleared.grow {path : Path} (hcleared : conn.Cleared taken asked path)
    (htaken : taken <+: more) : conn.Cleared more asked path := by
  cases path with
  | «local» =>
      obtain ⟨name, hverified, hdirect⟩ := hcleared
      exact ⟨name, hverified.grow htaken (List.Subset.refl _), hdirect⟩
  | pool =>
      obtain ⟨name, hverified, hdirect⟩ | hanonymous := hcleared
      · exact .inl ⟨name, hverified.grow htaken (List.Subset.refl _), hdirect⟩
      · exact .inr hanonymous

theorem Permitted.grow {call : HostCall} (hpermitted : conn.Permitted taken asked call)
    (htaken : taken <+: more) : conn.Permitted more asked call := by
  have hpool : conn.Cleared taken asked .pool → conn.Cleared more asked .pool :=
    fun hcleared => hcleared.grow htaken
  cases call with
  | verify credentials => exact hpermitted
  | directPermit =>
      obtain ⟨⟨name, hverified, hdirect⟩, honce⟩ := hpermitted
      exact ⟨⟨name, hverified.grow htaken (List.Subset.refl _), hdirect⟩, honce⟩
  | dial path target => exact ⟨hpermitted.1, Cleared.grow hpermitted.2 htaken⟩
  | tunnel path target held => exact ⟨hpermitted.1, Cleared.grow hpermitted.2 htaken⟩
  | silent => exact hpool hpermitted
  | interrupted => exact hpool hpermitted
  | greets => exact hpool hpermitted

end

theorem Lawful.put (hlawful : conn.Lawful log) (bytes : Bytes) : conn.Lawful (log.put bytes) :=
  hlawful

theorem Lawful.take (hlawful : conn.Lawful log) (bytes : Bytes) : conn.Lawful (log.take bytes) :=
  fun before call answer after hasked =>
    Permitted.grow (hlawful before call answer after hasked) (List.prefix_append _ _)

theorem Lawful.ask (hlawful : conn.Lawful log) {call : HostCall}
    (hpermitted : conn.Permitted log.taken log.asked call) (answer : Bool) :
    conn.Lawful (log.ask call answer) := by
  intro before other given after hasked
  rw [Log.ask_asked] at hasked
  obtain hlast | ⟨more, hmore⟩ := List.eq_nil_or_concat after
  · subst hlast
    obtain ⟨rfl, hcall⟩ := List.append_inj_left' hasked rfl, (List.append_inj_right' hasked rfl)
    cases hcall
    exact hpermitted
  · obtain ⟨last, rfl⟩ := hmore
    rw [List.concat_eq_append, ← List.cons_append, ← List.append_assoc] at hasked
    exact hlawful before other given more (List.append_inj_left' hasked rfl)

/-! From the accepted request on. -/

/-- A client that is cleared for a path stays so until the handler ends. -/
structure Ready (conn : Connection) (path : Path) (log : Log HostCall) : Prop where
  lawful : conn.Lawful log
  cleared : conn.Cleared log.taken log.asked path

def Overheard (conn : Connection) (path : Path) (peeked : RecoveryPeek) (log : Log HostCall) :
    Prop :=
  conn.Ready path log ∧ ∀ banner, peeked ≠ .serverFirst banner

namespace Ready

variable {path : Path} (hready : conn.Ready path log)

include hready

theorem put (bytes : Bytes) : conn.Ready path (log.put bytes) :=
  ⟨hready.lawful.put bytes, hready.cleared⟩

theorem take (bytes : Bytes) : conn.Ready path (log.take bytes) :=
  ⟨Lawful.take hready.lawful bytes, Cleared.grow hready.cleared (List.prefix_append _ _)⟩

theorem ask {call : HostCall} (hpermitted : conn.Permitted log.taken log.asked call)
    (hcall : ∀ credentials, call ≠ .verify credentials) (answer : Bool) :
    conn.Ready path (log.ask call answer) := by
  refine ⟨Lawful.ask hready.lawful hpermitted answer, ?_⟩
  have hsubset : log.asked ⊆ (log.ask call answer).asked := List.subset_append_left _ _
  have hcleared := hready.cleared
  cases path with
  | «local» =>
      obtain ⟨name, hverified, hdirect, hpermit⟩ := hcleared
      exact ⟨name, hverified.grow (List.prefix_refl _) hsubset, hdirect, hsubset hpermit⟩
  | pool =>
      obtain ⟨name, hverified, hdirect⟩ | ⟨hanonymous, hnobody⟩ := hcleared
      · exact .inl ⟨name, hverified.grow (List.prefix_refl _) hsubset, hdirect⟩
      · refine .inr ⟨hanonymous, fun credentials given hmem => ?_⟩
        obtain hmem | hmem := List.mem_append.mp hmem
        · exact hnobody credentials given hmem
        · exact hcall credentials (Prod.mk.inj (List.mem_singleton.mp hmem)).1.symm

theorem call {question : HostCall} {post : Bool → Log HostCall → Prop}
    (hpermitted : conn.Permitted log.taken log.asked question)
    (hquestion : ∀ credentials, question ≠ .verify credentials)
    (hpost : ∀ answer, conn.Ready path (log.ask question answer) →
      post answer (log.ask question answer)) :
    (Prog.call question : HandlerProg Bool).Safe conn.Lawful post log :=
  ⟨hready.lawful, fun answer =>
    have hafter := hready.ask hpermitted hquestion answer
    ⟨hafter.lawful, hpost answer hafter⟩⟩

theorem readSome (max : Nat) :
    (Prog.readSome max : HandlerProg Bytes).Safe conn.Lawful
      (fun _ after => conn.Ready path after) log :=
  ⟨hready.lawful, fun chunk _ => ⟨(hready.take chunk).lawful, hready.take chunk⟩⟩

theorem writeAll (bytes : Bytes) :
    (Prog.writeAll bytes : HandlerProg Unit).Safe conn.Lawful
      (fun _ after => conn.Ready path after ∧ after.asked = log.asked) log :=
  ⟨fun sent _ => (hready.put sent).lawful, (hready.put bytes).lawful, hready.put bytes, rfl⟩

theorem overPeek {α : Type} (prog : PeekProg α) :
    (Server.overPeek prog).Safe conn.Lawful (fun _ after => conn.Ready path after) log := by
  induction prog generalizing log with
  | ok value => exact ⟨hready.lawful, hready⟩
  | fail error => exact hready.lawful
  | broken fault => exact hready.lawful
  | write bytes next ih =>
      exact ⟨fun sent _ => (hready.put sent).lawful, ih (hready.put bytes)⟩
  | exact n next ih =>
      exact ⟨fun chunk _ => (hready.take chunk).lawful, fun chunk _ => ih chunk (hready.take chunk)⟩
  | read max next ih => exact ⟨hready.lawful, fun chunk _ => ih chunk (hready.take chunk)⟩
  | ask question next ih => exact question.elim

theorem readPrefix (buf : Bytes) :
    (Connection.readPrefix buf).Safe conn.Lawful (Overheard conn path) log := by
  refine Safe.bind ((hready.overPeek _).mono fun bytes _ hlawful hafter => ⟨hlawful, hafter, ?_⟩)
  cases bytes with
  | none => exact fun banner hbanner => by cases hbanner
  | some bytes => exact fun banner hbanner => by cases hbanner

theorem clientPrefix (seed : Bytes) :
    (Connection.clientPrefix seed).Safe conn.Lawful (Overheard conn path) log := by
  rw [Connection.clientPrefix]
  split
  · exact ⟨hready.lawful, hready, fun banner hbanner => by cases hbanner⟩
  · exact hready.readPrefix seed

theorem readClient :
    (do let seed ← Prog.readSome tmpLen; Connection.clientPrefix seed :
      HandlerProg RecoveryPeek).Safe conn.Lawful (Overheard conn path) log :=
  Safe.bind ((hready.readSome _).mono fun seed _ _ hafter => hafter.clientPrefix seed)

theorem establish (target : Bytes) :
    (conn.establish path target).Safe conn.Lawful
      (fun connected after => conn.Ready path after ∧
        (connected = true → (.dial path target, true) ∈ after.asked)) log := by
  rw [Connection.establish]
  split
  · exact ⟨hready.lawful, hready, fun hno => by cases hno⟩
  · rename_i hbanned
    refine hready.call ⟨Bool.eq_false_iff.mpr hbanned, hready.cleared⟩
      (fun _ hcall => by cases hcall) fun answer hafter => ⟨hafter, ?_⟩
    rintro rfl
    exact List.mem_append_right _ (List.mem_singleton_self _)

theorem forwardTunnel {target : Bytes} (hdialed : (.dial path target, true) ∈ log.asked)
    (held : Bytes) :
    (Connection.forwardTunnel path target held).Safe conn.Lawful
      (fun _ after => conn.Ready path after) log :=
  Safe.bind (hready.call ⟨hdialed, hready.cleared⟩ (fun _ hcall => by cases hcall)
    fun _ hafter => ⟨hafter.lawful, hafter⟩)

theorem connectAndTunnel (request : IncomingRequest) :
    (conn.connectAndTunnel request path).Safe conn.Lawful (fun _ _ => True) log := by
  rw [Connection.connectAndTunnel]
  refine Safe.bind ((hready.establish _).mono ?_)
  rintro connected after _ ⟨hafter, hdialed⟩
  split
  · rename_i hconnected
    refine Safe.bind ((hafter.writeAll _).mono ?_)
    rintro _ replied _ ⟨hreplied, hsame⟩
    exact (hreplied.forwardTunnel (hsame ▸ hdialed hconnected) _).mono fun _ _ _ _ => trivial
  · refine Safe.bind ((hafter.writeAll _).mono ?_)
    exact fun _ _ hlawful _ => hlawful

end Ready

namespace Ready

variable (hready : conn.Ready .pool log)

include hready

theorem peekRecovery (initial target : Bytes) :
    (conn.peekRecovery initial target).Safe conn.Lawful
      (fun peeked after => conn.Ready .pool after ∧
        ∀ banner, peeked = .serverFirst banner → (.dial .pool target, true) ∈ after.asked) log := by
  have hclient : ∀ {prog : HandlerProg RecoveryPeek} {log : Log HostCall},
      prog.Safe conn.Lawful (Overheard conn .pool) log → prog.Safe conn.Lawful
        (fun peeked after => conn.Ready .pool after ∧
          ∀ banner, peeked = .serverFirst banner → (.dial .pool target, true) ∈ after.asked) log :=
    fun hsafe => hsafe.mono fun peeked _ _ hafter =>
      ⟨hafter.1, fun banner hbanner => absurd hbanner (hafter.2 banner)⟩
  rw [Connection.peekRecovery]
  split
  · exact hclient (hready.readPrefix initial)
  · refine Safe.bind (hready.call hready.cleared (fun _ hcall => by cases hcall) fun silent hsilent => ?_)
    split
    · exact hclient hsilent.readClient
    · refine Safe.bind ((hsilent.establish target).mono ?_)
      rintro connected dialed _ ⟨hready, hdialed⟩
      split
      · refine Safe.bind (hready.call hready.cleared (fun _ hcall => by cases hcall) fun _ hready => ?_)
        split
        · exact hclient hready.readClient
        · exact hclient (hready.readPrefix [])
      · rename_i hconnected
        have hup : connected = true := by simpa using hconnected
        refine Safe.bind (hready.call hready.cleared (fun _ hcall => by cases hcall) fun _ hready => ?_)
        split
        · exact hclient hready.readClient
        · split
          · exact hclient (hready.readPrefix [])
          · exact ⟨hready.lawful, hready, fun _ _ => List.mem_append_left _ (hdialed hup)⟩

theorem recoverAndTunnel (request : IncomingRequest) (port initial : Bytes) :
    (conn.recoverAndTunnel request port initial).Safe conn.Lawful (fun _ _ => True) log := by
  rw [Connection.recoverAndTunnel]
  refine Safe.bind ((hready.writeAll _).mono ?_)
  rintro _ replied _ ⟨hready, _⟩
  refine Safe.bind ((hready.peekRecovery initial request.target).mono ?_)
  rintro peeked after _ ⟨hready, hfirst⟩
  cases peeked with
  | clientClosed => exact ⟨hready.lawful, trivial⟩
  | serverFirst banner =>
      refine Safe.bind ((hready.writeAll banner).mono ?_)
      rintro _ greeted _ ⟨hready, hsame⟩
      exact (hready.forwardTunnel (hsame ▸ hfirst banner rfl) []).mono fun _ _ _ _ => trivial
  | client buf =>
      refine Safe.bind ((hready.establish _).mono ?_)
      rintro connected dialed _ ⟨hready, hdialed⟩
      split
      · rename_i hconnected
        exact (hready.forwardTunnel (hdialed hconnected) buf).mono fun _ _ _ _ => trivial
      · exact hready.lawful

end Ready

structure Entered (conn : Connection) (request : IncomingRequest) (log : Log HostCall) : Prop where
  lawful : conn.Lawful log
  only : ∀ call answer, (call, answer) ∈ log.asked → ∃ credentials, call = .verify credentials
  known : conn.Known request log

theorem lawful_of_mirrors {cred : Log Credentials} (hmirrors : Mirrors conn.userAllowed log cred) :
    conn.Lawful log := by
  intro before call answer after hasked
  have hmem : (call, answer) ∈ log.asked := by
    rw [hasked]
    exact List.mem_append_right _ List.mem_cons_self
  obtain ⟨credentials, rfl, hallowed⟩ := hmirrors.verifies hmem
  exact hallowed

theorem Heard.plain {field text : Bytes} {kept : Option Bytes}
    (hheard : Heard false field text kept) : text = field ∧ kept = none := by
  obtain ⟨_, htext, hkept⟩ | ⟨hraw, _⟩ := hheard
  · exact ⟨htext, hkept⟩
  · cases hraw

theorem accept_entered :
    (overHost conn.userAllowed (accept conn.base64 conn.options)).Safe conn.Lawful
      conn.Entered Log.empty := by
  have hempty : Mirrors conn.userAllowed Log.empty Log.empty :=
    ⟨rfl, rfl, rfl, fun _ hasked _ => by cases hasked⟩
  have hsafe := (overHost_safe (accept_safe conn.base64 conn.options) hempty).weaken
    fun _ hlog => lawful_of_mirrors hlog.choose_spec.1
  refine hsafe.mono fun request host hlawful hpost => ?_
  obtain ⟨cred, hmirrors, _, hauthentic, _⟩ := hpost
  refine ⟨hlawful, fun call answer hmem => ?_, ?_⟩
  · obtain ⟨credentials, hcall, _⟩ := hmirrors.verifies hmem
    exact ⟨credentials, hcall⟩
  obtain ⟨credentials, user, password, hname, _, hone, hcarries, huser, hpassword⟩ |
    ⟨hname, hanonymous, hnone⟩ := hauthentic
  · obtain ⟨htext, hraw⟩ := Heard.plain huser
    obtain ⟨hsecret, hrawSecret⟩ := Heard.plain hpassword
    have hnew : credentials = Credentials.new user password := by
      cases credentials
      simp_all [Credentials.new]
    subst hnew
    have hallowed : conn.userAllowed (Credentials.new user password) = true := by
      by_contra hdenied
      have hfalse := hmirrors.denied _ (hone ▸ List.mem_singleton_self _)
        (Bool.eq_false_iff.mpr hdenied)
      cases hfalse
    refine .inl ⟨user, hname, request.protocol, password, ?_, hmirrors.taken ▸ hcarries, hallowed⟩
    rw [hmirrors.asked, hone, List.filter_cons, if_pos hallowed]
    exact List.mem_singleton_self _
  · refine .inr ⟨hname, hanonymous, fun _ _ hmem => ?_⟩
    rw [hmirrors.asked, hnone] at hmem
    cases hmem

theorem Entered.dispatch {request : IncomingRequest} (hentered : conn.Entered request log) :
    (conn.dispatch request).Safe conn.Lawful (fun _ _ => True) log := by
  have hserve : ∀ seed,
      (conn.serveRequest request seed).Safe conn.Lawful (fun _ _ => True) log := by
    intro seed
    rw [serveRequest]
    split
    · rename_i hdirect
      obtain ⟨name, hname, hverified⟩ | ⟨hname, _⟩ := hentered.known
      · rw [isDirect, hname, Option.any_some] at hdirect
        have hpermitted : conn.Permitted log.taken log.asked .directPermit := by
          refine ⟨⟨name, hverified, hdirect⟩, fun answer hmem => ?_⟩
          obtain ⟨_, hcall⟩ := hentered.only _ _ hmem
          cases hcall
        refine Safe.bind ⟨hentered.lawful, fun permitted => ?_⟩
        have hlawful := Lawful.ask hentered.lawful hpermitted permitted
        have hready (hgranted : permitted = true) :
            conn.Ready .local (log.ask .directPermit permitted) := by
          subst hgranted
          exact ⟨hlawful, name, hverified.grow (List.prefix_refl _)
            (List.subset_append_left _ _), hdirect, List.mem_append_right _ List.mem_cons_self⟩
        refine ⟨hlawful, ?_⟩
        cases permitted with
        | true => exact (hready rfl).connectAndTunnel request
        | false => exact ⟨fun sent _ => Lawful.put hlawful sent, Lawful.put hlawful _, trivial⟩
      · rw [isDirect, hname] at hdirect
        cases hdirect
    · rename_i hpool
      have hready : conn.Ready .pool log := by
        refine ⟨hentered.lawful, ?_⟩
        obtain ⟨name, hname, hverified⟩ | ⟨_, hanonymous⟩ := hentered.known
        · rw [isDirect, hname, Option.any_some] at hpool
          exact .inl ⟨name, hverified, Bool.eq_false_iff.mpr hpool⟩
        · exact .inr hanonymous
      split
      · exact hready.recoverAndTunnel request _ seed
      · exact hready.connectAndTunnel request
  rw [Connection.dispatch]
  split
  · exact hserve []
  · exact hserve request.pipeline

theorem handleClient_safe : conn.handleClient.Safe conn.Lawful (fun _ _ => True) Log.empty := by
  have hnothing : conn.Lawful Log.empty := by
    intro before call answer after hasked
    exact absurd hasked.symm (List.append_ne_nil_of_right_ne_nil _ (List.cons_ne_nil _ _))
  rw [handleClient]
  split
  · exact Safe.bind (accept_entered.mono fun request after _ hentered => hentered.dispatch)
  · exact hnothing

theorem handleClient_denied {events : List (Event HostCall)} {prog : HandlerProg Unit}
    (hruns : Runs conn.handleClient events prog)
    (hdenied : ¬ globalAllowed conn.allowedClients conn.peer = true) : events = [] := by
  rw [handleClient, if_neg hdenied] at hruns
  cases hruns with
  | nil => rfl
  | cons hstep _ => exact absurd hstep.live id

/-- Whatever a client sends and however its connection goes: nothing is dialed, recovered or
tunnelled but for a client from an allowed address that proved to be a user of this path, or that
may stay anonymous; a direct dial has a permit, and no banned target is dialed. What goes on behind
the handshake, an early success reply included, goes on for such a client. -/
theorem no_open_relay (conn : Connection) {events : List (Event HostCall)}
    {prog : HandlerProg Unit} (hruns : Runs conn.handleClient events prog) :
    (events ≠ [] → globalAllowed conn.allowedClients conn.peer = true) ∧
    (∀ before call answer after, (Log.of events).asked = before ++ (call, answer) :: after →
      conn.Permitted (Log.of events).taken before call) ∧
    (events = [] ∨
      (∃ inside, Runs (overHost conn.userAllowed (accept conn.base64 conn.options)) events inside) ∨
      ∃ before request after, events = before ++ after ∧
        Runs (overHost conn.userAllowed (accept conn.base64 conn.options)) before (ok request) ∧
        Runs (conn.dispatch request) after prog ∧ conn.Known request (Log.of before)) := by
  refine ⟨fun hevents => ?_, (handleClient_safe.runs hruns).now, ?_⟩
  · by_contra hdenied
    exact hevents (handleClient_denied hruns hdenied)
  by_cases hallowed : globalAllowed conn.allowedClients conn.peer = true
  · rw [handleClient, if_pos hallowed] at hruns
    obtain ⟨inside, hinside, _⟩ | ⟨before, request, after, hevents, hbefore, hafter⟩ :=
      hruns.of_bind
    · exact .inr (.inl ⟨inside, hinside⟩)
    · have hentered := accept_entered.runs hbefore
      exact .inr (.inr ⟨before, request, after, hevents, hbefore, hafter, hentered.2.known⟩)
  · exact .inl (handleClient_denied hruns hallowed)

def directConnection : Connection where
  base64 := Base64.standard
  auth := ⟨[([0x75], ⟨0, true, true, none⟩)], false⟩
  allowedClients := none
  peer := some (.v4 ⟨127, 0, 0, 1⟩)
  banned := fun _ => false
  recoverHostFromPayload := true
  greeting := []

def pooledConnection : Connection :=
  { directConnection with
    auth := ⟨[([0x75], ⟨0, true, false, none⟩)], false⟩
    greeting := lit "SSH" }

/-- All the way to the tunnel, directly and through a recovery. -/
theorem no_open_relay_direct :
    (∃ events : List (Event HostCall), Runs directConnection.handleClient events (ok ()) ∧
      (.tunnel .local (lit "1.2.3.4:80") [], true) ∈ (Log.of events).asked ∧
      ∀ before call answer after, (Log.of events).asked = before ++ (call, answer) :: after →
        directConnection.Permitted (Log.of events).taken before call) ∧
    ∃ events : List (Event HostCall), Runs pooledConnection.handleClient events (ok ()) ∧
      (.greets, true) ∈ (Log.of events).asked ∧
      ∀ before call answer after, (Log.of events).asked = before ++ (call, answer) :: after →
        pooledConnection.Permitted (Log.of events).taken before call := by
  have hdirect : Runs directConnection.handleClient
      [.take [5], .take [1], .take [2], .put [5, 2], .take [1, 1], .take [0x75], .take [1],
        .take [0x70], .asked (.verify ⟨[0x75], [0x70], none, none⟩) true, .put [1, 0],
        .take [5, 1, 0, 1], .take [1, 2, 3, 4], .take [0, 80], .asked .directPermit true,
        .asked (.dial .local (lit "1.2.3.4:80")) true, .put (socksReply 0),
        .asked (.tunnel .local (lit "1.2.3.4:80") []) true] (ok ()) :=
    .cons (.read (by decide) (by decide)) <| .cons (.fill (by decide) (by decide)) <|
      .cons (.fill (by decide) (by decide)) <| .cons (.putAll _ _) <|
      .cons (.fill (by decide) (by decide)) <| .cons (.fill (by decide) (by decide)) <|
      .cons (.fill (by decide) (by decide)) <| .cons (.fill (by decide) (by decide)) <|
      .cons (.ask true) <| .cons (.putAll _ _) <|
      .cons (.fill (by decide) (by decide)) <| .cons (.fill (by decide) (by decide)) <|
      .cons (.fill (by decide) (by decide)) <| .cons (.ask true) <| .cons (.ask true) <|
      .cons (.putAll _ _) <| .cons (.ask true) <| .nil _
  have hpooled : Runs pooledConnection.handleClient
      [.take [5], .take [1], .take [2], .put [5, 2], .take [1, 1], .take [0x75], .take [1],
        .take [0x70], .asked (.verify ⟨[0x75], [0x70], none, none⟩) true, .put [1, 0],
        .take [5, 1, 0, 1], .take [1, 2, 3, 4], .take [0, 80], .put (socksReply 0),
        .asked .silent true, .asked (.dial .pool (lit "1.2.3.4:80")) true, .asked .greets true,
        .put (lit "SSH"), .asked (.tunnel .pool (lit "1.2.3.4:80") []) true] (ok ()) :=
    .cons (.read (by decide) (by decide)) <| .cons (.fill (by decide) (by decide)) <|
      .cons (.fill (by decide) (by decide)) <| .cons (.putAll _ _) <|
      .cons (.fill (by decide) (by decide)) <| .cons (.fill (by decide) (by decide)) <|
      .cons (.fill (by decide) (by decide)) <| .cons (.fill (by decide) (by decide)) <|
      .cons (.ask true) <| .cons (.putAll _ _) <|
      .cons (.fill (by decide) (by decide)) <| .cons (.fill (by decide) (by decide)) <|
      .cons (.fill (by decide) (by decide)) <| .cons (.putAll _ _) <| .cons (.ask true) <|
      .cons (.ask true) <| .cons (.ask true) <| .cons (.putAll _ _) <| .cons (.ask true) <| .nil _
  refine ⟨⟨_, hdirect, List.mem_of_getLast? rfl, (no_open_relay directConnection hdirect).2.1⟩,
    _, hpooled, ?_, (no_open_relay pooledConnection hpooled).2.1⟩
  decide

end Connection

end Resocks5.Server
