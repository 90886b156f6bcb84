import Resocks5.Server.HandlerSafe
import Resocks5.Tunnel.Conservation

namespace Resocks5.Server

open Resocks5.Foundation
open Resocks5.Inbound
open Resocks5.Recovery
open Prog

/-! From an accepted request to its tunnel: what the client is told, what is dialed, and what the
tunnel begins with. -/

namespace Connection

variable (conn : Connection) (request : IncomingRequest)

def pathOf : Path := if conn.isDirect request then .local else .pool

def recoveryPort : Option Bytes :=
  if conn.isDirect request || !conn.recoverHostFromPayload then none
  else ipv4LiteralPort request.target

/-- What a client may be told, after what has been asked. -/
inductive Answer (asked : List (HostCall × Bool)) : Bytes → Prop
  | dialed (hport : conn.recoveryPort request = none)
      (hdial : (.dial (conn.pathOf request) request.target, true) ∈ asked) :
      Answer asked (replyBytes request.protocol .established)
  | early {port : Bytes} (hport : conn.recoveryPort request = some port) :
      Answer asked (replyBytes request.protocol .established)
  | greeted {port : Bytes} (hport : conn.recoveryPort request = some port)
      (hdial : (.dial .pool request.target, true) ∈ asked) (hgreets : (.greets, true) ∈ asked) :
      Answer asked (replyBytes request.protocol .established ++ conn.greeting)
  | forbidden (hport : conn.recoveryPort request = none)
      (hbanned : conn.banned request.target = true) :
      Answer asked (replyBytes request.protocol .forbidden)
  | unavailable (hport : conn.recoveryPort request = none)
      (hdial : (.dial (conn.pathOf request) request.target, false) ∈ asked) :
      Answer asked (replyBytes request.protocol .upstreamUnavailable)
  | overloaded (hpermit : (.directPermit, false) ∈ asked) :
      Answer asked (replyBytes request.protocol .overloaded)

/-- One answer at most. -/
def Answered (log : Log HostCall) : Prop :=
  log.written = [] ∨ ∃ answer, conn.Answer request log.asked answer ∧ log.written <+: answer

/-- What the client asked for is dialed, or what was recovered from its first bytes. -/
def Aimed (log : Log HostCall) : Prop :=
  ∀ path target answer, (.dial path target, answer) ∈ log.asked → path = conn.pathOf request ∧
    (target = request.target ∨ ∃ port buf, conn.recoveryPort request = some port ∧
      buf <+: request.pipeline ++ log.taken ∧ target = effectiveTarget buf request.target port)

/-- A tunnel begins with all that came behind the request, and goes where this says. -/
structure Handed (log : Log HostCall) (path : Path) (target held : Bytes) : Prop where
  dialed : (.dial path target, true) ∈ log.asked
  begun : held = request.pipeline ++ log.taken
  plain : conn.recoveryPort request = none → target = request.target
  recovered : ∀ port, conn.recoveryPort request = some port →
    target = effectiveTarget held request.target port
  answered : conn.Answer request log.asked log.written
  established : replyBytes request.protocol .established <+: log.written

structure Served (log : Log HostCall) : Prop where
  answered : conn.Answered request log
  aimed : conn.Aimed request log
  handed : ∀ path target held answer, (.tunnel path target held, answer) ∈ log.asked →
    conn.Handed request log path target held

structure Onward (log : Log HostCall) : Prop where
  answered : conn.Answered request log
  aimed : conn.Aimed request log
  waiting : ∀ path target held answer, (.tunnel path target held, answer) ∉ log.asked

variable {conn request}

theorem Answer.grow {asked later : List (HostCall × Bool)} {answer : Bytes}
    (hanswer : conn.Answer request asked answer) (hlater : asked ⊆ later) :
    conn.Answer request later answer := by
  cases hanswer with
  | dialed hport hdial => exact .dialed hport (hlater hdial)
  | early hport => exact .early hport
  | greeted hport hdial hgreets => exact .greeted hport (hlater hdial) (hlater hgreets)
  | forbidden hport hbanned => exact .forbidden hport hbanned
  | unavailable hport hdial => exact .unavailable hport (hlater hdial)
  | overloaded hpermit => exact .overloaded (hlater hpermit)

section

variable {log : Log HostCall}

theorem Onward.served (honward : conn.Onward request log) : conn.Served request log :=
  ⟨honward.answered, honward.aimed,
    fun path target held answer hasked => absurd hasked (honward.waiting path target held answer)⟩

theorem Onward.empty : conn.Onward request Log.empty :=
  ⟨.inl rfl, fun _ _ _ hasked => absurd hasked (List.not_mem_nil),
    fun _ _ _ _ => List.not_mem_nil⟩

theorem Aimed.take (haimed : conn.Aimed request log) (bytes : Bytes) :
    conn.Aimed request (log.take bytes) := by
  intro path target answer hasked
  obtain ⟨hpath, htarget⟩ := haimed path target answer hasked
  refine ⟨hpath, htarget.imp_right ?_⟩
  rintro ⟨port, buf, hport, hbuf, heffective⟩
  refine ⟨port, buf, hport, hbuf.trans ?_, heffective⟩
  rw [Log.take_taken, ← List.append_assoc]
  exact List.prefix_append _ _

theorem Answered.ask (hanswered : conn.Answered request log) (call : HostCall) (answer : Bool) :
    conn.Answered request (log.ask call answer) :=
  hanswered.imp_right fun ⟨bytes, hbytes, hwritten⟩ =>
    ⟨bytes, hbytes.grow (List.subset_append_left _ _), hwritten⟩

theorem Onward.take (honward : conn.Onward request log) (bytes : Bytes) :
    conn.Onward request (log.take bytes) :=
  ⟨honward.answered, honward.aimed.take bytes, honward.waiting⟩

theorem Onward.put (honward : conn.Onward request log) {answer bytes : Bytes}
    (hanswer : conn.Answer request log.asked answer) (hbytes : log.written ++ bytes <+: answer) :
    conn.Onward request (log.put bytes) :=
  ⟨.inr ⟨answer, hanswer, hbytes⟩, honward.aimed, honward.waiting⟩

theorem Onward.ask (honward : conn.Onward request log) {call : HostCall} (answer : Bool)
    (hdial : ∀ path target, call = .dial path target → path = conn.pathOf request ∧
      (target = request.target ∨ ∃ port buf, conn.recoveryPort request = some port ∧
        buf <+: request.pipeline ++ log.taken ∧ target = effectiveTarget buf request.target port))
    (htunnel : ∀ path target held, call ≠ .tunnel path target held) :
    conn.Onward request (log.ask call answer) := by
  refine ⟨honward.answered.ask call answer, fun path target given hasked => ?_,
    fun path target held given hasked => ?_⟩
  · obtain hasked | hasked := List.mem_append.mp hasked
    · exact honward.aimed path target given hasked
    · exact hdial path target (Prod.mk.inj (List.mem_singleton.mp hasked)).1.symm
  · obtain hasked | hasked := List.mem_append.mp hasked
    · exact honward.waiting path target held given hasked
    · exact htunnel path target held (Prod.mk.inj (List.mem_singleton.mp hasked)).1.symm

/-! The parts of a handler. -/

theorem Onward.call (honward : conn.Onward request log) {question : HostCall}
    {post : Bool → Log HostCall → Prop}
    (hdial : ∀ path target, question ≠ .dial path target)
    (htunnel : ∀ path target held, question ≠ .tunnel path target held)
    (hpost : ∀ answer, conn.Onward request (log.ask question answer) →
      post answer (log.ask question answer)) :
    (Prog.call question : HandlerProg Bool).Safe (conn.Served request) post log :=
  ⟨honward.served, fun answer =>
    have hafter := honward.ask answer
      (fun path target heq => absurd heq (hdial path target)) htunnel
    ⟨hafter.served, hpost answer hafter⟩⟩

theorem Onward.writeAll (honward : conn.Onward request log) {bytes : Bytes}
    (hanswer : conn.Answer request log.asked (log.written ++ bytes)) :
    (Prog.writeAll bytes : HandlerProg Unit).Safe (conn.Served request)
      (fun _ after => conn.Onward request after ∧ after = log.put bytes) log := by
  have hput := honward.put hanswer (List.prefix_refl _)
  refine ⟨fun sent hsent => ?_, hput.served, hput, rfl⟩
  exact (honward.put hanswer ((List.prefix_append_right_inj _).mpr hsent)).served

theorem Onward.establish (honward : conn.Onward request log) {target : Bytes}
    (haim : target = request.target ∨ ∃ port buf, conn.recoveryPort request = some port ∧
      buf <+: request.pipeline ++ log.taken ∧ target = effectiveTarget buf request.target port) :
    (conn.establish (conn.pathOf request) target).Safe (conn.Served request)
      (fun connected after => conn.Onward request after ∧ after.taken = log.taken ∧
        after.written = log.written ∧ (conn.banned target = true ∨
          (.dial (conn.pathOf request) target, connected) ∈ after.asked) ∧
        (connected = true → (.dial (conn.pathOf request) target, true) ∈ after.asked)) log := by
  rw [Connection.establish]
  split
  · rename_i hbanned
    exact ⟨honward.served, honward, rfl, rfl, .inl hbanned, fun hno => by cases hno⟩
  · refine ⟨honward.served, fun connected => ?_⟩
    have hafter : conn.Onward request (log.ask (.dial (conn.pathOf request) target) connected) := by
      refine honward.ask connected (fun path other heq => ?_) (fun _ _ _ heq => by cases heq)
      obtain ⟨rfl, rfl⟩ := HostCall.dial.inj heq
      exact ⟨rfl, haim⟩
    have hmem : (.dial (conn.pathOf request) target, connected) ∈
        (log.ask (.dial (conn.pathOf request) target) connected).asked :=
      List.mem_append_right _ (List.mem_singleton_self _)
    exact ⟨hafter.served, hafter, rfl, rfl, .inr hmem, fun hup => hup ▸ hmem⟩

theorem Onward.forwardTunnel (honward : conn.Onward request log) {path : Path}
    {target held : Bytes} (hhanded : conn.Handed request log path target held) :
    (Connection.forwardTunnel path target held).Safe (conn.Served request) (fun _ _ => True)
      log := by
  refine ⟨honward.served, fun answer => ?_⟩
  have hserved : conn.Served request (log.ask (.tunnel path target held) answer) := by
    refine ⟨honward.answered.ask _ _, fun path target given hasked => ?_,
      fun other aim begun given hasked => ?_⟩
    · obtain hasked | hasked := List.mem_append.mp hasked
      · exact honward.aimed path target given hasked
      · cases (Prod.mk.inj (List.mem_singleton.mp hasked)).1
    · obtain hasked | hasked := List.mem_append.mp hasked
      · exact absurd hasked (honward.waiting other aim begun given)
      · obtain ⟨rfl, rfl, rfl⟩ := HostCall.tunnel.inj (Prod.mk.inj (List.mem_singleton.mp hasked)).1
        exact { hhanded with
          dialed := List.mem_append_left _ hhanded.dialed
          answered := hhanded.answered.grow (List.subset_append_left _ _) }
  exact ⟨hserved, trivial⟩

/-! Without recovery. -/

theorem established_first {protocol : Protocol} {reply : Reply}
    (hreply : replyBytes protocol .established <+: replyBytes protocol reply) :
    reply = .established := by
  revert hreply
  cases protocol <;> cases reply <;> decide +kernel

theorem replyBytes_ne_nil (protocol : Protocol) (reply : Reply) :
    replyBytes protocol reply ≠ [] := by
  cases protocol <;> cases reply <;> decide +kernel

theorem Onward.connectAndTunnel (honward : conn.Onward request log)
    (hport : conn.recoveryPort request = none) (htaken : log.taken = [])
    (hwritten : log.written = []) :
    (conn.connectAndTunnel request (conn.pathOf request)).Safe (conn.Served request)
      (fun _ _ => True) log := by
  rw [Connection.connectAndTunnel]
  refine Safe.bind ((honward.establish (.inl rfl)).mono ?_)
  rintro connected after _ ⟨hafter, hnothing, hunwritten, hdial, hup⟩
  rw [hwritten] at hunwritten
  rw [htaken] at hnothing
  split
  · rename_i hconnected
    have hanswer := Answer.dialed hport (hup hconnected)
    refine Safe.bind ((hafter.writeAll (by rwa [hunwritten, List.nil_append])).mono ?_)
    rintro _ _ _ ⟨hput, rfl⟩
    have hreplied : (after.put (replyBytes request.protocol .established)).written =
        replyBytes request.protocol .established := by
      rw [Log.put_written, hunwritten, List.nil_append]
    refine hput.forwardTunnel ⟨hup hconnected, ?_, fun _ => rfl, fun port hsome => ?_, ?_, ?_⟩
    · rw [Log.put_taken, hnothing, List.append_nil]
    · rw [hport] at hsome
      cases hsome
    · rwa [hreplied]
    · rw [hreplied]
  · rename_i hfailed
    have hanswer : conn.Answer request after.asked (replyBytes request.protocol
        (if conn.banned request.target then .forbidden else .upstreamUnavailable)) := by
      split
      · rename_i hbanned
        exact .forbidden hport hbanned
      · rename_i hclear
        obtain hbanned | hasked := hdial
        · exact absurd hbanned hclear
        · exact .unavailable hport ((Bool.eq_false_iff.mpr hfailed) ▸ hasked)
    refine Safe.bind ((hafter.writeAll (by rwa [hunwritten, List.nil_append])).mono ?_)
    rintro _ _ _ ⟨hput, _⟩
    exact hput.served

/-! With recovery. -/

/-- After the early reply: what the client has said so far is `buf`. -/
structure Early (conn : Connection) (request : IncomingRequest) (port buf : Bytes)
    (log : Log HostCall) : Prop extends conn.Onward request log where
  port : conn.recoveryPort request = some port
  said : buf = request.pipeline ++ log.taken
  replied : log.written = replyBytes request.protocol .established

def Peeked (conn : Connection) (request : IncomingRequest) (port : Bytes) (peeked : RecoveryPeek)
    (log : Log HostCall) : Prop :=
  match peeked with
  | .client bytes => conn.Early request port bytes log
  | .clientClosed => True
  | .serverFirst banner => banner = conn.greeting ∧ conn.Early request port [] log ∧
      (.dial .pool request.target, true) ∈ log.asked ∧ (.greets, true) ∈ log.asked

namespace Early

variable {port buf : Bytes}

theorem take (hearly : conn.Early request port buf log) (bytes : Bytes) :
    conn.Early request port (buf ++ bytes) (log.take bytes) where
  toOnward := hearly.toOnward.take bytes
  port := hearly.port
  said := by rw [hearly.said, Log.take_taken, List.append_assoc]
  replied := hearly.replied

theorem call (hearly : conn.Early request port buf log) {question : HostCall}
    {post : Bool → Log HostCall → Prop}
    (hdial : ∀ path target, question ≠ .dial path target)
    (htunnel : ∀ path target held, question ≠ .tunnel path target held)
    (hpost : ∀ answer, conn.Early request port buf (log.ask question answer) →
      post answer (log.ask question answer)) :
    (Prog.call question : HandlerProg Bool).Safe (conn.Served request) post log :=
  hearly.toOnward.call hdial htunnel fun answer hafter =>
    hpost answer ⟨hafter, hearly.port, hearly.said, hearly.replied⟩

theorem read (hearly : conn.Early request port buf log) {α : Type} (max : Nat)
    {next : Bytes → HandlerProg α} {post : α → Log HostCall → Prop}
    (hnext : ∀ chunk, conn.Early request port (buf ++ chunk) (log.take chunk) →
      (next chunk).Safe (conn.Served request) post (log.take chunk)) :
    (Prog.read max next).Safe (conn.Served request) post log :=
  ⟨hearly.toOnward.served, fun chunk _ => hnext chunk (hearly.take chunk)⟩

theorem nonEmpty (hearly : conn.Early request port buf log) :
    conn.Peeked request port (.ofPrefix (Recovery.nonEmpty buf)) log := by
  rw [Recovery.nonEmpty]
  split
  · trivial
  · exact hearly

theorem readRecoveryPrefix (hearly : conn.Early request port buf log) :
    (overPeek (Recovery.readRecoveryPrefix buf)).Safe (conn.Served request)
      (fun bytes after => conn.Peeked request port (.ofPrefix bytes) after) log := by
  induction hroom : peekMax - buf.length using Nat.strong_induction_on generalizing buf log with
  | _ room ih =>
      cases hdecided : isDecided buf with
      | true =>
          rw [readRecoveryPrefix_decided hdecided]
          exact ⟨hearly.toOnward.served, hearly.nonEmpty⟩
      | false =>
          rw [readRecoveryPrefix_open hdecided]
          refine hearly.read _ fun chunk htaken => ?_
          dsimp only
          by_cases hchunk : chunk = []
          · rw [if_pos hchunk]
            rw [hchunk, List.append_nil] at htaken
            rw [hchunk]
            exact ⟨htaken.toOnward.served, htaken.nonEmpty⟩
          · rw [if_neg hchunk, sliceTo]
            split
            · have hlength : (buf ++ chunk).length = buf.length + chunk.length :=
                List.length_append
              have hpos := List.length_pos_iff.mpr hchunk
              have hshort := isDecided_short hdecided
              exact ih _ (by omega) htaken rfl
            · exact htaken.toOnward.served

theorem readPrefix (hearly : conn.Early request port buf log) :
    (Connection.readPrefix buf).Safe (conn.Served request) (conn.Peeked request port) log :=
  Safe.bind (hearly.readRecoveryPrefix.mono fun _ _ hserved hpeeked => ⟨hserved, hpeeked⟩)

theorem readClient (hearly : conn.Early request port [] log) :
    (do let seed ← Prog.readSome tmpLen; Connection.clientPrefix seed :
      HandlerProg RecoveryPeek).Safe (conn.Served request) (conn.Peeked request port) log := by
  refine hearly.read _ fun chunk htaken => ?_
  rw [List.nil_append] at htaken
  change (Connection.clientPrefix chunk).Safe _ _ _
  rw [Connection.clientPrefix]
  split
  · exact ⟨htaken.toOnward.served, trivial⟩
  · exact htaken.readPrefix

theorem peekRecovery (hearly : conn.Early request port buf log)
    (hpool : conn.pathOf request = .pool) :
    (conn.peekRecovery buf request.target).Safe (conn.Served request)
      (conn.Peeked request port) log := by
  rw [Connection.peekRecovery]
  split
  · exact hearly.readPrefix
  · rename_i hseed
    obtain rfl : buf = [] := by simpa using hseed
    refine Safe.bind (hearly.call (fun _ _ heq => by cases heq) (fun _ _ _ heq => by cases heq)
      fun silent hearly => ?_)
    split
    · exact hearly.readClient
    · refine Safe.bind ((hpool ▸ hearly.toOnward.establish (.inl rfl)).mono ?_)
      rintro connected dialed _ ⟨honward, hnothing, hunwritten, _, hup⟩
      have hlater : conn.Early request port [] dialed :=
        ⟨honward, hearly.port, hnothing ▸ hearly.said, hunwritten ▸ hearly.replied⟩
      split
      · refine Safe.bind (hlater.call (fun _ _ heq => by cases heq)
          (fun _ _ _ heq => by cases heq) fun interrupted hlater => ?_)
        split
        · exact hlater.readClient
        · exact hlater.readPrefix
      · rename_i hconnected
        have hdial := hup (by simpa using hconnected)
        refine Safe.bind (hlater.call (fun _ _ heq => by cases heq)
          (fun _ _ _ heq => by cases heq) fun greets hlater => ?_)
        cases greets with
        | false => exact hlater.readClient
        | true =>
            rw [if_neg (by decide)]
            split
            · exact hlater.readPrefix
            · exact ⟨hlater.toOnward.served, rfl, hlater, List.mem_append_left _ hdial,
                List.mem_append_right _ (List.mem_singleton_self _)⟩

end Early

theorem Onward.recoverAndTunnel (honward : conn.Onward request log) {port : Bytes}
    (hport : conn.recoveryPort request = some port) (htaken : log.taken = [])
    (hwritten : log.written = []) :
    (conn.recoverAndTunnel request port request.pipeline).Safe (conn.Served request)
      (fun _ _ => True) log := by
  have hpool : conn.pathOf request = .pool := by
    rw [pathOf, if_neg]
    intro hdirect
    rw [recoveryPort, if_pos (by rw [hdirect, Bool.true_or])] at hport
    cases hport
  rw [Connection.recoverAndTunnel]
  have hanswer : conn.Answer request log.asked _ := .early hport
  refine Safe.bind ((honward.writeAll (by rwa [hwritten, List.nil_append])).mono ?_)
  rintro _ _ _ ⟨hput, rfl⟩
  have hearly : conn.Early request port request.pipeline
      (log.put (replyBytes request.protocol .established)) :=
    ⟨hput, hport, by rw [Log.put_taken, htaken, List.append_nil],
      by rw [Log.put_written, hwritten, List.nil_append]⟩
  refine Safe.bind ((hearly.peekRecovery hpool).mono ?_)
  intro peeked after hserved hpeeked
  cases peeked with
  | clientClosed => exact ⟨hserved, trivial⟩
  | serverFirst banner =>
      obtain ⟨rfl, hearly, hdial, hgreets⟩ := hpeeked
      have hgreeted := Answer.greeted hport hdial hgreets
      rw [← hearly.replied] at hgreeted
      refine Safe.bind ((hearly.toOnward.writeAll hgreeted).mono ?_)
      rintro _ _ _ ⟨hput, rfl⟩
      refine hput.forwardTunnel
        ⟨hdial, hearly.said, fun _ => rfl, fun _ _ => rfl, hgreeted, ?_⟩
      rw [Log.put_written, hearly.replied]
      exact List.prefix_append _ _
  | client buf =>
      have hearly : conn.Early request port buf after := hpeeked
      have haim : effectiveTarget buf request.target port = request.target ∨
          ∃ other buf', conn.recoveryPort request = some other ∧
            buf' <+: request.pipeline ++ after.taken ∧
            effectiveTarget buf request.target port = effectiveTarget buf' request.target other :=
        .inr ⟨port, buf, hport, hearly.said ▸ List.prefix_refl _, rfl⟩
      refine Safe.bind ((hpool ▸ hearly.toOnward.establish haim).mono ?_)
      rintro connected dialed _ ⟨honward, hnothing, hunwritten, _, hup⟩
      split
      · rename_i hconnected
        refine honward.forwardTunnel ⟨hup hconnected, hnothing ▸ hearly.said, fun hnone => ?_,
          fun other hother => ?_, ?_, ?_⟩
        · rw [hport] at hnone
          cases hnone
        · rw [hport] at hother
          obtain rfl := Option.some.inj hother
          rfl
        · rw [hunwritten, hearly.replied]
          exact .early hport
        · rw [hunwritten, hearly.replied]
      · exact honward.served

theorem Onward.serveRequest (hnothing : log = Log.empty) :
    (conn.serveRequest request request.pipeline).Safe (conn.Served request) (fun _ _ => True)
      log := by
  subst hnothing
  have honward : conn.Onward request Log.empty := .empty
  rw [Connection.serveRequest]
  split
  · rename_i hdirect
    have hpath : conn.pathOf request = .local := by rw [pathOf, if_pos hdirect]
    have hport : conn.recoveryPort request = none := by
      rw [recoveryPort, if_pos (by rw [hdirect, Bool.true_or])]
    refine Safe.bind (honward.call (fun _ _ heq => by cases heq) (fun _ _ _ heq => by cases heq)
      fun permitted hafter => ?_)
    cases permitted with
    | true => exact hpath ▸ hafter.connectAndTunnel hport rfl rfl
    | false =>
        have hmem : (HostCall.directPermit, false) ∈
            (Log.empty.ask HostCall.directPermit false).asked :=
          List.mem_append_right _ (List.mem_singleton_self _)
        have hanswer : conn.Answer request _ _ := .overloaded hmem
        exact (hafter.writeAll hanswer).mono fun _ _ _ _ => trivial
  · rename_i hpool
    have hpath : conn.pathOf request = .pool := by rw [pathOf, if_neg hpool]
    have hport : conn.recoveryPort request =
        if conn.recoverHostFromPayload then ipv4LiteralPort request.target else none := by
      rw [recoveryPort, Bool.eq_false_iff.mpr hpool, Bool.false_or]
      cases conn.recoverHostFromPayload <;> rfl
    split
    · rename_i hrecover htarget
      rw [hrecover, if_pos rfl, htarget] at hport
      exact honward.recoverAndTunnel hport rfl rfl
    · rename_i hplain
      have hnone : conn.recoveryPort request = none := by
        rw [hport]
        split
        · rename_i hrecover
          cases htarget : ipv4LiteralPort request.target with
          | none => rfl
          | some port => exact absurd htarget (hplain port hrecover)
        · rfl
      exact hpath ▸ honward.connectAndTunnel hnone rfl rfl

theorem serveHead_http (base64 : Base64) (options : ServerOptions) (head pipeline : Bytes)
    (log : Log Credentials) :
    (serveHead base64 options head pipeline).Safe (fun _ => True)
      (fun request _ => request.protocol = .http) log := by
  unfold serveHead
  dsimp only
  split
  · exact ⟨fun _ _ => trivial, trivial⟩
  · refine Safe.bind ((Safe.unbound _ _).mono fun _ _ _ _ => ?_)
    refine Safe.bind ((Safe.unbound _ _).mono fun _ _ _ _ => ?_)
    refine Safe.bind ((Safe.unbound _ _).mono fun _ _ _ _ => ?_)
    refine Safe.bind ((Safe.unbound _ _).mono fun _ _ _ _ => ?_)
    exact ⟨trivial, rfl⟩

theorem accept_behind (base64 : Base64) (options : ServerOptions) :
    (accept base64 options).Safe (fun _ => True)
      (fun request _ => request.protocol = .socks5 → request.pipeline = []) Log.empty := by
  simp only [accept, readSome, read_bind, ok_bind]
  refine ⟨trivial, fun chunk _ => ?_⟩
  dsimp only
  split
  · trivial
  · split
    · exact (Tunnel.socks_pipeline options _).mono fun _ _ _ hnone _ => hnone
    · split
      · rw [http]
        refine Safe.bind ((Safe.unbound _ _).mono fun parts after _ _ => ?_)
        refine (serveHead_http base64 options parts.1 parts.2 after).mono ?_
        intro request _ _ hhttp hsocks
        rw [hhttp] at hsocks
        cases hsocks
      · trivial

/-- Once a request has been accepted, its client gets one answer at most, a success without a dial
only where the host is to be recovered; nothing is dialed but the target it asked for or what was
recovered, and the tunnel begins with exactly what the client sent behind its request. -/
theorem answered_and_handed (conn : Connection) {before : List (Event Credentials)}
    {request : IncomingRequest}
    (haccept : Runs (accept conn.base64 conn.options) before (ok request))
    {events : List (Event HostCall)} {prog : HandlerProg Unit}
    (hruns : Runs (conn.dispatch request) events prog) :
    conn.Served request (Log.of events) ∧
    (conn.recoveryPort request = none →
      replyBytes request.protocol .established <+: (Log.of events).written →
      (.dial (conn.pathOf request) request.target, true) ∈ (Log.of events).asked) := by
  have hdispatch : conn.dispatch request = conn.serveRequest request request.pipeline := by
    rw [Connection.dispatch]
    split
    · rename_i hsocks
      rw [handleSocks5Client, ((accept_behind _ _).runs haccept).2 hsocks]
    · rfl
  rw [hdispatch] at hruns
  have hserved := ((Onward.serveRequest rfl).runs hruns).now
  refine ⟨hserved, fun hport hestablished => ?_⟩
  obtain hnothing | ⟨answer, hanswer, hwritten⟩ := hserved.answered
  · have hempty := List.prefix_nil.mp (hnothing ▸ hestablished)
    exact absurd hempty (replyBytes_ne_nil _ _)
  · have hwhole := hestablished.trans hwritten
    cases hanswer with
    | dialed _ hdial => exact hdial
    | early hsome =>
        rw [hport] at hsome
        cases hsome
    | greeted hsome _ _ =>
        rw [hport] at hsome
        cases hsome
    | forbidden _ _ => cases established_first hwhole
    | unavailable _ _ => cases established_first hwhole
    | overloaded _ => cases established_first hwhole

def greetingConnection : Connection where
  base64 := Base64.standard
  auth := ⟨[], true⟩
  allowedClients := none
  peer := none
  banned := fun _ => false
  recoverHostFromPayload := true
  greeting := lit "SSH"

/-- The greeting follows the early reply. -/
theorem answered_and_handed_greeting :
    ∃ events : List (Event HostCall),
      Runs (greetingConnection.dispatch addressRequest) events (ok ()) ∧
      (Log.of events).written = socksReply 0 ++ lit "SSH" ∧
      greetingConnection.Served addressRequest (Log.of events) := by
  have hruns : Runs (greetingConnection.dispatch addressRequest)
      [.put (socksReply 0), .asked .silent true, .asked (.dial .pool (lit "1.2.3.4:80")) true,
        .asked .greets true, .put (lit "SSH"),
        .asked (.tunnel .pool (lit "1.2.3.4:80") []) true] (ok ()) :=
    .cons (.putAll _ _) <| .cons (.ask true) <| .cons (.ask true) <| .cons (.ask true) <|
      .cons (.putAll _ _) <| .cons (.ask true) <| .nil _
  exact ⟨_, hruns, rfl, (answered_and_handed greetingConnection address_runs hruns).1⟩

end

end Connection

end Resocks5.Server
