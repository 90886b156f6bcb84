import Resocks5.Foundation.Permits
import Resocks5.Server.HandlerSafe

namespace Resocks5.Server

open Resocks5.Config
open Resocks5.Foundation
open Resocks5.Inbound
open Prog

/-! The accept loop, and all the connections that it has let in. -/

structure Service where
  base64 : Base64
  auth : AuthState
  allowedClients : Option AllowedClients
  banned : Bytes → Bool
  recoverHostFromPayload : Bool
  maxConcurrentClients : Nat
  maxConcurrentDirect : Nat

def Service.connection (service : Service) (peer : Option IpAddr) (greeting : Bytes) :
    Connection where
  base64 := service.base64
  auth := service.auth
  allowedClients := service.allowedClients
  peer
  banned := service.banned
  recoverHostFromPayload := service.recoverHostFromPayload
  greeting

structure Session where
  conn : Connection
  prog : HandlerProg Unit
  log : Log HostCall

namespace Session

def spawn (conn : Connection) : Session := ⟨conn, conn.handleClient, Log.empty⟩

def permitted (session : Session) : Bool := session.log.asked.contains (.directPermit, true)

/-- It has begun to dial or to tunnel past the upstreams. -/
def Bypasses (session : Session) : Prop :=
  ∃ call answer, (call, answer) ∈ session.log.asked ∧
    ((∃ target, call = .dial .local target) ∨ ∃ target held, call = .tunnel .local target held)

end Session

structure Listener (ι : Type) where
  sessions : ι → Option Session
  limiter : Nat
  directLimiter : Nat
  listening : Bool

namespace Listener

variable {ι : Type}

def start (service : Service) : Listener ι where
  sessions := fun _ => none
  limiter := service.maxConcurrentClients
  directLimiter := service.maxConcurrentDirect
  listening := true

def permitted (listener : Listener ι) (client : ι) : Bool :=
  (listener.sessions client).any Session.permitted

variable [DecidableEq ι]

/-- What `accept` yields is dropped, or served by a task of its own. -/
def serve (service : Service) (listener : Listener ι) (client : ι) (peer : Option IpAddr)
    (greeting : Bytes) : Listener ι :=
  if !globalAllowed service.allowedClients peer then listener
  else if listener.limiter = 0 then listener
  else
    { listener with
      sessions := Function.update listener.sessions client
        (some (.spawn (service.connection peer greeting)))
      limiter := listener.limiter - 1 }

/-- `try_acquire_owned` of the direct limiter, if that is what the handler does. -/
def afterEvent (free : Nat) : Event HostCall → Nat
  | .asked .directPermit true => free - 1
  | _ => free

def advance (listener : Listener ι) (client : ι) (session : Session) (event : Event HostCall)
    (next : HandlerProg Unit) : Listener ι :=
  { listener with
    sessions := Function.update listener.sessions client
      (some { session with prog := next, log := session.log.after event })
    directLimiter := afterEvent listener.directLimiter event }

def leave (listener : Listener ι) (client : ι) (session : Session) : Listener ι :=
  { listener with
    sessions := Function.update listener.sessions client none
    limiter := listener.limiter + 1
    directLimiter :=
      if session.permitted then listener.directLimiter + 1 else listener.directLimiter }

end Listener

variable {ι : Type} [DecidableEq ι]

/-- One step of the server. A handler may end at any time, by itself, by a panic or since the
server shuts down. -/
inductive Moves (service : Service) : Listener ι → Listener ι → Prop
  | connect {listener : Listener ι} {client : ι} (hlistening : listener.listening = true)
      (hnew : listener.sessions client = none) (peer : Option IpAddr) (greeting : Bytes) :
      Moves service listener (listener.serve service client peer greeting)
  | advance {listener : Listener ι} {client : ι} {session : Session} {event : Event HostCall}
      {next : HandlerProg Unit} (hsession : listener.sessions client = some session)
      (hstep : session.prog.Step event next)
      (hpermit : ∀ answer, event = .asked .directPermit answer →
        answer = decide (listener.directLimiter ≠ 0)) :
      Moves service listener (listener.advance client session event next)
  | leave {listener : Listener ι} {client : ι} {session : Session}
      (hsession : listener.sessions client = some session) :
      Moves service listener (listener.leave client session)
  | shutDown (listener : Listener ι) : Moves service listener { listener with listening := false }

/-- A handler that began with its connection, and has come to where it is. -/
structure Session.Genuine (service : Service) (session : Session) : Prop where
  shared : ∃ peer greeting, session.conn = service.connection peer greeting
  allowed : globalAllowed service.allowedClients session.conn.peer = true
  ran : session.prog.Safe session.conn.Lawful (fun _ _ => True) session.log

structure Listener.Sound (service : Service) (listener : Listener ι) : Prop where
  clients : Balanced (fun client => (listener.sessions client).isSome) listener.limiter
    service.maxConcurrentClients
  direct : Balanced listener.permitted listener.directLimiter service.maxConcurrentDirect
  genuine : ∀ client session, listener.sessions client = some session → session.Genuine service

namespace Session

variable {service : Service} {session : Session}

theorem Genuine.lawful (hgenuine : session.Genuine service) : session.conn.Lawful session.log :=
  hgenuine.ran.now

theorem permitted_iff : session.permitted = true ↔ (.directPermit, true) ∈ session.log.asked := by
  rw [permitted, List.contains_iff_mem]

theorem Genuine.bypasses (hgenuine : session.Genuine service) (hbypasses : session.Bypasses) :
    session.permitted = true := by
  obtain ⟨call, answer, hmem, hcall⟩ := hbypasses
  obtain ⟨before, after, hasked⟩ := List.append_of_mem hmem
  have hpermitted := hgenuine.lawful before call answer after hasked
  have hcleared : session.conn.Cleared session.log.taken before .local := by
    obtain ⟨target, rfl⟩ | ⟨target, held, rfl⟩ := hcall
    · exact hpermitted.2
    · exact hpermitted.2
  obtain ⟨_, _, _, hpermit⟩ := hcleared
  rw [permitted_iff, hasked]
  exact List.mem_append_left _ hpermit

theorem permitted_after {event : Event HostCall} (hevent : event ≠ .asked .directPermit true)
    (next : HandlerProg Unit) :
    ({ session with prog := next, log := session.log.after event } : Session).permitted =
      session.permitted := by
  rw [Bool.eq_iff_iff, permitted_iff, permitted_iff]
  cases event with
  | asked call answer =>
      rw [Log.after, Log.ask_asked, List.mem_append, or_iff_left]
      intro hmem
      obtain ⟨rfl, rfl⟩ := Prod.mk.inj (List.mem_singleton.mp hmem)
      exact hevent rfl
  | _ => exact Iff.rfl

theorem afterEvent_other {event : Event HostCall} (hevent : event ≠ .asked .directPermit true)
    (free : Nat) : Listener.afterEvent free event = free := by
  unfold Listener.afterEvent
  split
  · exact absurd rfl hevent
  · rfl

theorem Genuine.trade (hgenuine : session.Genuine service) {event : Event HostCall}
    {next : HandlerProg Unit} (hstep : session.prog.Step event next) {free : Nat}
    (hpermit : ∀ answer, event = .asked .directPermit answer → answer = decide (free ≠ 0)) :
    Trade session.permitted
      ({ session with prog := next, log := session.log.after event } : Session).permitted free
      (Listener.afterEvent free event) := by
  by_cases hevent : event = .asked .directPermit true
  · subst hevent
    have hlater := (hgenuine.ran.step hstep).now
    have honce := (hlater session.log.asked .directPermit true [] rfl).2
    have hnone : session.permitted = false := by
      rw [← Bool.not_eq_true, permitted_iff]
      exact honce true
    have hsome : ({ session with
        prog := next, log := session.log.after (.asked .directPermit true) } :
          Session).permitted = true := by
      rw [permitted_iff]
      exact List.mem_append_right _ (List.mem_singleton_self _)
    rw [hnone, hsome]
    exact .take (of_decide_eq_true (hpermit true rfl).symm)
  · rw [permitted_after hevent, afterEvent_other hevent]
    exact .keep _ _

theorem Genuine.step (hgenuine : session.Genuine service) {event : Event HostCall}
    {next : HandlerProg Unit} (hstep : session.prog.Step event next) :
    ({ session with prog := next, log := session.log.after event } : Session).Genuine service :=
  ⟨hgenuine.shared, hgenuine.allowed, hgenuine.ran.step hstep⟩

theorem spawn_genuine {peer : Option IpAddr}
    (hallowed : globalAllowed service.allowedClients peer = true) (greeting : Bytes) :
    (spawn (service.connection peer greeting)).Genuine service :=
  ⟨⟨peer, greeting, rfl⟩, hallowed, Connection.handleClient_safe⟩

end Session

namespace Listener

variable {service : Service} {listener next : Listener ι}

omit [DecidableEq ι] in
theorem start_sound (service : Service) : (start service : Listener ι).Sound service where
  clients := .none_held fun _ => rfl
  direct := .none_held fun _ => rfl
  genuine := fun _ _ hsession => by cases hsession

theorem Sound.update (hsound : listener.Sound service) {client : ι} {session : Option Session}
    {limiter directLimiter : Nat} {listening : Bool}
    (hclients : Trade (listener.sessions client).isSome session.isSome listener.limiter limiter)
    (hdirect : Trade ((listener.sessions client).any Session.permitted)
      (session.any Session.permitted) listener.directLimiter directLimiter)
    (hgenuine : ∀ s, session = some s → s.Genuine service) :
    Sound service ⟨Function.update listener.sessions client session, limiter, directLimiter,
      listening⟩ where
  clients := by
    refine hsound.clients.trade (t := client) ?_ fun other hother => ?_
    · dsimp only
      rw [Function.update_self]
      exact hclients
    · dsimp only
      rw [Function.update_of_ne hother]
  direct := by
    refine hsound.direct.trade (t := client) ?_ fun other hother => ?_
    · rw [permitted, permitted]
      dsimp only
      rw [Function.update_self]
      exact hdirect
    · rw [permitted, permitted]
      dsimp only
      rw [Function.update_of_ne hother]
  genuine := by
    intro other s hs
    by_cases hother : other = client
    · subst hother
      dsimp only at hs
      rw [Function.update_self] at hs
      exact hgenuine s hs
    · dsimp only at hs
      rw [Function.update_of_ne hother] at hs
      exact hsound.genuine other s hs

theorem Sound.moves (hsound : listener.Sound service) (hmoves : Moves service listener next) :
    next.Sound service := by
  cases hmoves with
  | @connect client _ hnew peer greeting =>
      rw [serve]
      split
      · exact hsound
      · rename_i hallowed
        split
        · exact hsound
        · rename_i hfree
          refine hsound.update ?_ ?_ fun session hsession => ?_
          · rw [hnew]
            exact .take hfree
          · rw [hnew]
            exact .keep _ _
          · obtain rfl := Option.some.inj hsession
            exact Session.spawn_genuine (by simpa using hallowed) greeting
  | @advance client session event next hsession hstep hpermit =>
      have hgenuine := hsound.genuine client session hsession
      refine hsound.update ?_ ?_ fun later hlater => ?_
      · rw [hsession]
        exact .keep _ _
      · rw [hsession]
        exact hgenuine.trade hstep hpermit
      · obtain rfl := Option.some.inj hlater
        exact hgenuine.step hstep
  | @leave client session hsession =>
      refine hsound.update ?_ ?_ fun later hlater => by cases hlater
      · rw [hsession]
        exact .give _
      · rw [hsession, Option.any_some, Option.any_none]
        split
        · rename_i hpermitted
          rw [hpermitted]
          exact .give _
        · rename_i hnone
          rw [Bool.eq_false_iff.mpr hnone]
          exact .keep _ _
  | shutDown => exact ⟨hsound.clients, hsound.direct, hsound.genuine⟩

theorem Sound.reaches (hsound : listener.Sound service)
    (hreach : Relation.ReflTransGen (Moves service) listener next) : next.Sound service := by
  induction hreach with
  | refl => exact hsound
  | tail _ hmoves ih => exact ih.moves hmoves

theorem moves_closed (hclosed : listener.listening = false)
    (hmoves : Moves service listener next) :
    next.listening = false ∧ ∀ client, next.sessions client ≠ none →
      listener.sessions client ≠ none := by
  cases hmoves with
  | connect hlistening _ peer greeting =>
      rw [hclosed] at hlistening
      cases hlistening
  | @advance client session event prog hsession _ _ =>
      refine ⟨hclosed, fun other hother => ?_⟩
      by_cases heq : other = client
      · subst heq
        rw [hsession]
        exact fun hnone => by cases hnone
      · rw [Listener.advance] at hother
        dsimp only at hother
        rwa [Function.update_of_ne heq] at hother
  | @leave client session hsession =>
      refine ⟨hclosed, fun other hother => ?_⟩
      by_cases heq : other = client
      · subst heq
        rw [hsession]
        exact fun hnone => by cases hnone
      · rw [Listener.leave] at hother
        dsimp only at hother
        rwa [Function.update_of_ne heq] at hother
  | shutDown => exact ⟨rfl, fun _ hother => hother⟩

theorem reaches_closed (hclosed : listener.listening = false)
    (hreach : Relation.ReflTransGen (Moves service) listener next) :
    next.listening = false ∧ ∀ client, next.sessions client ≠ none →
      listener.sessions client ≠ none := by
  induction hreach with
  | refl => exact ⟨hclosed, fun _ hother => hother⟩
  | tail _ hmoves ih =>
      obtain ⟨hstill, hfewer⟩ := moves_closed ih.1 hmoves
      exact ⟨hstill, fun client hclient => ih.2 client (hfewer client hclient)⟩

end Listener

/-- Whatever the clients do and in whatever order: with `max_concurrent_clients` and
`max_concurrent_direct` set, no more clients are served than the one, no more go past the
upstreams than the other, every handler keeps the law of its connection, what has left has given
its permits back, and after a shutdown nobody new is served. -/
theorem server_admission (service : Service) {listener : Listener ι}
    (hreach : Relation.ReflTransGen (Moves service) (Listener.start service) listener) :
    {client | (listener.sessions client).isSome = true}.encard + listener.limiter =
      service.maxConcurrentClients ∧
    {client | ∃ session, listener.sessions client = some session ∧ session.Bypasses}.encard ≤
      service.maxConcurrentDirect ∧
    (∀ client session, listener.sessions client = some session →
      globalAllowed service.allowedClients session.conn.peer = true ∧
      session.conn.Lawful session.log) ∧
    ((∀ client, listener.sessions client = none) →
      listener.limiter = service.maxConcurrentClients ∧
      listener.directLimiter = service.maxConcurrentDirect) ∧
    (listener.listening = false → ∀ later,
      Relation.ReflTransGen (Moves service) listener later →
      ∀ client, later.sessions client ≠ none → listener.sessions client ≠ none) := by
  have hsound := (Listener.start_sound service).reaches hreach
  refine ⟨hsound.clients, (Set.encard_le_encard ?_).trans hsound.direct.le,
    fun client session hsession => ?_, fun hnobody => ⟨hsound.clients.all_free fun client => ?_,
      hsound.direct.all_free fun client => ?_⟩, fun hclosed later hlater => ?_⟩
  · rintro client ⟨session, hsession, hbypasses⟩
    rw [Set.mem_ofPred_eq, Listener.permitted, hsession, Option.any_some]
    exact (hsound.genuine client session hsession).bypasses hbypasses
  · have hgenuine := hsound.genuine client session hsession
    exact ⟨hgenuine.allowed, hgenuine.lawful⟩
  · rw [hnobody]
    rfl
  · rw [Listener.permitted, hnobody]
    rfl
  · exact (Listener.reaches_closed hclosed hlater).2

def narrowService : Service where
  base64 := Base64.standard
  auth := ⟨[], true⟩
  allowedClients := none
  banned := fun _ => false
  recoverHostFromPayload := false
  maxConcurrentClients := 1
  maxConcurrentDirect := 0

/-- The second of two clients is turned away. -/
theorem server_admission_full :
    ∃ listener : Listener Bool,
      Relation.ReflTransGen (Moves narrowService) (Listener.start narrowService) listener ∧
      (listener.sessions true).isSome = true ∧ listener.sessions false = none ∧
      {client | (listener.sessions client).isSome = true}.encard + listener.limiter =
        narrowService.maxConcurrentClients := by
  have hfirst : Moves narrowService (Listener.start narrowService)
      ((Listener.start narrowService).serve narrowService true none []) :=
    .connect rfl rfl none []
  have hsecond : Moves narrowService
      ((Listener.start narrowService).serve narrowService true none [])
      (((Listener.start narrowService).serve narrowService true none []).serve narrowService false
        none []) :=
    .connect rfl rfl none []
  have hreach := (Relation.ReflTransGen.single hfirst).tail hsecond
  exact ⟨_, hreach, rfl, rfl, (server_admission narrowService hreach).1⟩

end Resocks5.Server
