import Resocks5.Inbound.HttpHead
import Resocks5.Inbound.Prefixed

namespace Resocks5.Inbound

open Resocks5.Foundation
open Resocks5.Net
open Prog

/-! How an HTTP request is cut into reads makes no difference. -/

theorem httpFail_offline {α : Type} (status : HttpStatus) (error : ServerError) :
    (httpFail status error : ServerProg α).Offline := trivial

theorem checkStrict_offline (options : ServerOptions) (lines : HeadLines) :
    (checkStrict options lines).Offline := by
  unfold checkStrict
  split
  · split
    · trivial
    · exact httpFail_offline _ _
    · exact httpFail_offline _ _
  · trivial

theorem checkRequestLine_offline (line : Bytes) : (checkRequestLine line).Offline := by
  unfold checkRequestLine
  dsimp only
  split
  · exact httpFail_offline _ _
  · split
    · exact httpFail_offline _ _
    · split
      · exact httpFail_offline _ _
      · split
        · exact httpFail_offline _ _
        · trivial

theorem authValue_offline (lines : List Bytes) : (authValue lines).Offline := by
  induction lines with
  | nil => trivial
  | cons line rest ih =>
      rw [authValue]
      split
      · exact ih
      · split
        · trivial
        · exact httpFail_offline _ _

theorem basicCredentials_offline (base64 : Base64) (value : Bytes) :
    (basicCredentials base64 value).Offline := by
  unfold basicCredentials
  split
  · exact httpFail_offline _ _
  · split
    · exact httpFail_offline _ _
    · split
      · exact httpFail_offline _ _
      · split
        · exact httpFail_offline _ _
        · split
          · exact httpFail_offline _ _
          · trivial

theorem verifyBasic_offline (options : ServerOptions) (user password : Bytes) :
    (verifyBasic options user password).Offline := by
  unfold verifyBasic
  split
  · exact httpFail_offline _ _
  · intro answer
    cases answer with
    | true => trivial
    | false => exact httpFail_offline _ _

theorem identify_offline (base64 : Base64) (options : ServerOptions) (value : Option Bytes) :
    (identify base64 options value).Offline := by
  cases value with
  | none =>
      unfold identify
      dsimp only
      split
      · trivial
      · exact httpFail_offline _ _
  | some value =>
      exact (basicCredentials_offline base64 value).bind fun pair =>
        verifyBasic_offline options pair.1 pair.2

theorem serveHead_offline (base64 : Base64) (options : ServerOptions) (head pipeline : Bytes) :
    (serveHead base64 options head pipeline).Offline := by
  unfold serveHead
  dsimp only
  split
  · exact httpFail_offline _ _
  · refine (checkStrict_offline options _).bind fun _ => ?_
    refine (checkRequestLine_offline _).bind fun target => ?_
    refine (authValue_offline _).bind fun value => ?_
    exact (identify_offline base64 options value).bind fun identity => trivial

theorem serveHead_pipeline (base64 : Base64) (options : ServerOptions) (head pipeline : Bytes) :
    serveHead base64 options head pipeline =
      serveHead base64 options head [] >>= fun request => ok { request with pipeline } := by
  unfold serveHead
  dsimp only
  split
  · rfl
  · simp only [bind_assoc, pure_eq, ok_bind]

/-- One verdict on a stream; a request that is accepted leaves everything behind its head. -/
def Verdict (stream : Bytes) (verdict : Except ServerError IncomingRequest)
    (state : ServerProg IncomingRequest × Bytes) : Prop :=
  match verdict with
  | .error error => state.1 = fail error
  | .ok request => ∃ i pipeline, position headerEnd stream = some i ∧ i + 4 ≤ maxHeaderBytes ∧
      state.1 = ok { request with pipeline } ∧ pipeline ++ state.2 = stream.drop (i + 4)

theorem http_verdict (base64 : Base64) (options : ServerOptions) (granted : Credentials → Bool)
    (first : UInt8) (rest : Bytes) :
    ∃ verdict, (headVerdict (first :: rest) = .tooLarge → verdict = .error .headerTooLarge) ∧
      Inevitably (Feed granted) (Verdict (first :: rest) verdict)
        (http base64 options first, rest) := by
  have hnone : position headerEnd [first] = none := by
    simp [position, headerEnd, crlf, List.isPrefixOf]
  have hbuf : [first].length ≤ maxHeaderBytes := by simp [maxHeaderBytes]
  have hinput : [first] ++ rest = first :: rest := rfl
  rw [http]
  cases hverdict : headVerdict (first :: rest) with
  | tooLarge =>
      refine ⟨.error .headerTooLarge, fun _ => rfl, ?_⟩
      refine readHead_verdict _ ?_ ?_ ?_ hinput hnone hbuf
      · intro stop hstop
        rw [hverdict] at hstop
        cases hstop
      · exact fun _ left => rfl
      · intro hclosed
        rw [hverdict] at hclosed
        cases hclosed
  | closed =>
      refine ⟨.error .closed, fun hlarge => (by cases hlarge), ?_⟩
      refine readHead_verdict _ ?_ ?_ ?_ hinput hnone hbuf
      · intro stop hstop
        rw [hverdict] at hstop
        cases hstop
      · intro hlarge
        rw [hverdict] at hlarge
        cases hlarge
      · exact fun _ => rfl
  | found stop =>
      obtain ⟨result, hresult⟩ := Feed.offline granted
        (serveHead_offline base64 options ((first :: rest).take stop) [])
      obtain ⟨i, hposition, hsize, rfl⟩ : ∃ i, position headerEnd (first :: rest) = some i ∧
          i + 4 ≤ maxHeaderBytes ∧ stop = i + 4 := by
        unfold headVerdict at hverdict
        split at hverdict
        · rename_i i hposition
          split at hverdict
          · cases hverdict
          · rename_i hsmall
            exact ⟨i, hposition, Nat.le_of_not_lt hsmall, (HeadVerdict.found.inj hverdict).symm⟩
        · split at hverdict
          · cases hverdict
          · cases hverdict
      refine ⟨result, fun hlarge => (by cases hlarge), ?_⟩
      refine readHead_verdict _ ?_ ?_ ?_ hinput hnone hbuf
      · intro other hother pipeline left hleft
        rw [hverdict] at hother
        obtain rfl := HeadVerdict.found.inj hother
        dsimp only
        rw [serveHead_pipeline]
        refine hresult _ _ left ?_ ?_
        · rintro error rfl
          rfl
        · rintro request rfl
          exact .now ⟨i, pipeline, hposition, hsize, rfl, hleft⟩
      · intro hlarge
        rw [hverdict] at hlarge
        cases hlarge
      · intro hclosed
        rw [hverdict] at hclosed
        cases hclosed

theorem accept_verdict (base64 : Base64) (options : ServerOptions) (granted : Credentials → Bool)
    {stream : Bytes} (hhttp : stream.head? ≠ some 5) :
    ∃ verdict, ((∃ first ∈ stream.head?, isAsciiAlphabetic first = true) →
        headVerdict stream = .tooLarge → verdict = .error .headerTooLarge) ∧
      Inevitably (Feed granted) (Verdict stream verdict) (accept base64 options, stream) := by
  simp only [accept, readSome, read_bind, ok_bind]
  cases stream with
  | nil =>
      refine ⟨.error .closed, fun hfirst => ?_, Feed.ended (.now rfl)⟩
      obtain ⟨first, hfirst, _⟩ := hfirst
      cases hfirst
  | cons first rest =>
      have hfive : first ≠ 5 := fun hfive => hhttp (congrArg some hfive)
      by_cases hletter : isAsciiAlphabetic first = true
      · obtain ⟨verdict, hlarge, hverdict⟩ := http_verdict base64 options granted first rest
        refine ⟨verdict, fun _ => hlarge, Feed.read Nat.one_pos (List.cons_ne_nil _ _) ?_⟩
        intro chunk left hcut hchunk hone
        obtain ⟨b, rfl⟩ := List.length_eq_one_iff.mp
          (Nat.le_antisymm hone (List.length_pos_iff.mpr hchunk))
        obtain ⟨rfl, rfl⟩ := List.cons.inj hcut
        dsimp only
        rw [if_neg hfive, if_pos hletter]
        exact hverdict
      · refine ⟨.error (.protocol (.text (lit "unrecognised first byte 0x" ++ hexByte first ++
          lit " " ++ [0xE2, 0x80, 0x94] ++ lit " neither SOCKS5 (0x05) nor an HTTP method"))),
          fun hfirst => ?_, Feed.read Nat.one_pos (List.cons_ne_nil _ _) ?_⟩
        · obtain ⟨b, hb, hbletter⟩ := hfirst
          obtain rfl : first = b := Option.some.inj hb
          exact absurd hbletter hletter
        · intro chunk left hcut hchunk hone
          obtain ⟨b, rfl⟩ := List.length_eq_one_iff.mp
            (Nat.le_antisymm hone (List.length_pos_iff.mpr hchunk))
          obtain ⟨rfl, rfl⟩ := List.cons.inj hcut
          dsimp only
          rw [if_neg hfive, if_neg hletter]
          exact .now rfl

theorem Verdict.ended {stream : Bytes} {verdict : Except ServerError IncomingRequest}
    {state : ServerProg IncomingRequest × Bytes} (hverdict : Verdict stream verdict state) :
    ¬ state.1.Live := by
  cases verdict with
  | error error =>
      rw [show state.1 = fail error from hverdict]
      exact id
  | ok request =>
      obtain ⟨_, _, _, _, hended, _⟩ := hverdict
      rw [hended]
      exact id

/-- The same error, or requests that differ in their pipelines. -/
def Agree (one other : ServerProg IncomingRequest) : Prop :=
  (∃ error, one = fail error ∧ other = fail error) ∨
    ∃ (request : IncomingRequest) (pipeline pipeline' : Bytes), one = ok { request with pipeline } ∧
      other = ok { request with pipeline := pipeline' }

theorem Verdict.agree {stream : Bytes} {verdict : Except ServerError IncomingRequest}
    {one other : ServerProg IncomingRequest × Bytes} (hone : Verdict stream verdict one)
    (hother : Verdict stream verdict other) : Agree one.1 other.1 := by
  cases verdict with
  | error error => exact .inl ⟨error, hone, hother⟩
  | ok request =>
      obtain ⟨_, pipeline, _, _, hone, _⟩ := hone
      obtain ⟨_, pipeline', _, _, hother, _⟩ := hother
      exact .inr ⟨request, pipeline, pipeline', hone, hother⟩

/-- Every way of cutting a stream that is not SOCKS5 comes to an end, any two of them to the same
one, and what an accepted request and the stream still hold is read behind the head once and in
order, over any buffers: the next bytes of the pipeline as far as there is room, then whatever the
stream yields. -/
theorem http_segmentation (base64 : Base64) (options : ServerOptions)
    (granted : Credentials → Bool) (stream : Bytes) (hhttp : stream.head? ≠ some 5) :
    Inevitably (Feed granted) (fun state => ¬ state.1.Live) (accept base64 options, stream) ∧
    ∀ one other, Relation.ReflTransGen (Feed granted) (accept base64 options, stream) one →
      Relation.ReflTransGen (Feed granted) (accept base64 options, stream) other →
      ¬ one.1.Live → ¬ other.1.Live →
      Agree one.1 other.1 ∧
      ((∃ first ∈ stream.head?, isAsciiAlphabetic first = true) →
        ∀ i, position headerEnd stream = some i → maxHeaderBytes < i + 4 →
          one.1 = fail .headerTooLarge) ∧
      ∀ request, one.1 = ok request → ∃ i, position headerEnd stream = some i ∧
        i + 4 ≤ maxHeaderBytes ∧ request.pipeline ++ one.2 = stream.drop (i + 4) ∧
        ∀ requests : List (Prefixed.Request Bytes),
          (∀ request ∈ requests, Faithful request.poll) →
          ∀ bytes prefixed, (request.intoPrefixed one.2).readAll requests = (bytes, prefixed) →
            bytes ++ (prefixed.intoParts.1 ++ prefixed.intoParts.2) = stream.drop (i + 4) ∧
            (∀ capacity poll, prefixed.prefixRemaining ≠ [] →
              (prefixed.pollRead capacity poll).1 =
                .ready (prefixed.prefixRemaining.take capacity) ∧
              (prefixed.pollRead capacity poll).2.intoParts =
                (prefixed.prefixRemaining.drop capacity, prefixed.inner)) ∧
            (∀ capacity poll, prefixed.prefixRemaining = [] →
              (prefixed.pollRead capacity poll).1 = (poll capacity prefixed.inner).1 ∧
              (prefixed.pollRead capacity poll).2.intoParts =
                ([], (poll capacity prefixed.inner).2)) ∧
            (∀ capacity poll, 0 < capacity → Faithful poll →
              (prefixed.pollRead capacity poll).1 = .ready [] → bytes = stream.drop (i + 4)) ∧
            ((∀ request ∈ requests, Eager request.poll) →
              (stream.drop (i + 4)).length ≤ requests.countP (0 < ·.capacity) →
              bytes = stream.drop (i + 4)) := by
  obtain ⟨verdict, hlarge, hverdict⟩ := accept_verdict base64 options granted hhttp
  have hended : ∀ {last}, Relation.ReflTransGen (Feed granted) (accept base64 options, stream)
      last → ¬ last.1.Live → Verdict stream verdict last := fun hreach hlast =>
    hverdict.ended (fun state next hnow hfeed => hnow.ended hfeed.live) hreach
      fun next hfeed => hlast hfeed.live
  refine ⟨hverdict.mono fun state => Verdict.ended, ?_⟩
  intro one other hone hother honeEnd hotherEnd
  have hone := hended hone honeEnd
  refine ⟨hone.agree (hended hother hotherEnd), fun hfirst i hposition hpast => ?_,
    fun request hrequest => ?_⟩
  · have htoo : headVerdict stream = .tooLarge := by
      rw [headVerdict, hposition]
      exact if_pos hpast
    rw [hlarge hfirst htoo] at hone
    exact hone
  · cases verdict with
    | error error =>
        have hfailed : one.1 = fail error := hone
        rw [hrequest] at hfailed
        cases hfailed
    | ok accepted =>
        obtain ⟨i, pipeline, hposition, hsize, haccepted, hrest⟩ := hone
        rw [hrequest] at haccepted
        obtain rfl := Prog.ok.inj haccepted
        refine ⟨i, hposition, hsize, hrest, fun requests hfaithful bytes prefixed hread => ?_⟩
        let wrapped := IncomingRequest.intoPrefixed { accepted with pipeline } one.2
        have hwrapped : wrapped.unread = stream.drop (i + 4) := hrest
        have hall := wrapped.readAll_unread hfaithful
        rw [hread] at hall
        have hbytes : bytes ++ prefixed.unread = stream.drop (i + 4) := hall.trans hwrapped
        refine ⟨hbytes, fun capacity poll => prefixed.pollRead_buffered capacity poll,
          fun capacity poll => prefixed.pollRead_inner capacity poll,
          fun capacity poll hcapacity hpoll hnothing => ?_, fun heager hmany => ?_⟩
        · rw [Prefixed.pollRead_end hcapacity hpoll hnothing, List.append_nil] at hbytes
          exact hbytes
        · have hwhole := wrapped.readAll_whole hfaithful heager (by rwa [hwrapped])
          rw [hread] at hwhole
          exact hwhole.trans hwrapped

def greedyPoll (capacity : Nat) (left : Bytes) : Poll × Bytes :=
  (.ready (left.take capacity), left.drop capacity)

theorem greedyPoll_faithful : Faithful greedyPoll := by
  refine fun capacity left => ⟨(List.take_append_drop capacity left).symm, fun hcapacity hend => ?_⟩
  exact (List.take_eq_nil_iff.mp (Poll.ready.inj hend)).resolve_left (Nat.ne_of_gt hcapacity)

theorem greedyPoll_eager : Eager greedyPoll := fun _ _ hcapacity hleft hnone =>
  (List.take_eq_nil_iff.mp hnone).elim (Nat.ne_of_gt hcapacity) hleft

def sampleConnect : Bytes := lit "CONNECT h:1 HTTP/1.1" ++ headerEnd

def sampleRequest : IncomingRequest :=
  ⟨.http, lit "h:1", none, none, none, lit "A"⟩

theorem sampleConnect_accepted :
    Relation.ReflTransGen (Feed fun _ => false)
      (accept Base64.standard ⟨true, false, false, false, false⟩, sampleConnect ++ lit "AB")
      (ok sampleRequest, lit "B") := by
  have hletter : Feed (fun _ => false)
      (accept Base64.standard ⟨true, false, false, false, false⟩, sampleConnect ++ lit "AB")
      (http Base64.standard ⟨true, false, false, false, false⟩ 0x43,
        sampleConnect.tail ++ lit "AB") :=
    .take (.read (show [(0x43 : UInt8)].length ≤ 1 by decide) (List.cons_ne_nil _ _))
  have hhead : Step (http Base64.standard ⟨true, false, false, false, false⟩ 0x43)
      (.take (sampleConnect.tail ++ lit "A")) (ok sampleRequest) := by
    rw [http, readHead, read_bind]
    exact .read (by decide +kernel) (by decide)
  exact .tail (.single hletter) (.take hhead)

/-- An accepted request whose pipeline is one of the two bytes behind its head: three reads, one of
them without room, get both. -/
theorem http_segmentation_pipelined :
    ∃ request rest, Relation.ReflTransGen (Feed fun _ => false)
        (accept Base64.standard ⟨true, false, false, false, false⟩, sampleConnect ++ lit "AB")
        (ok request, rest) ∧
      request.pipeline = lit "A" ∧ request.pipeline ++ rest = lit "AB" ∧
      ((request.intoPrefixed rest).readAll
        [⟨7, greedyPoll⟩, ⟨0, greedyPoll⟩, ⟨7, greedyPoll⟩]).1 = lit "AB" := by
  have hposition : position headerEnd (sampleConnect ++ lit "AB") = some 20 := by decide +kernel
  obtain ⟨_, hall⟩ := http_segmentation Base64.standard ⟨true, false, false, false, false⟩
    (fun _ => false) (sampleConnect ++ lit "AB") (by decide)
  obtain ⟨_, _, haccepted⟩ := hall _ _ sampleConnect_accepted sampleConnect_accepted id id
  obtain ⟨i, hi, _, hrest, hreads⟩ := haccepted sampleRequest rfl
  obtain rfl : 20 = i := Option.some.inj (hposition.symm.trans hi)
  have hpayload : (sampleConnect ++ lit "AB").drop (20 + 4) = lit "AB" := by decide +kernel
  rw [hpayload] at hrest hreads
  let requests : List (Prefixed.Request Bytes) :=
    [⟨7, greedyPoll⟩, ⟨0, greedyPoll⟩, ⟨7, greedyPoll⟩]
  obtain ⟨_, _, _, _, hwhole⟩ := hreads requests (by simp [requests, greedyPoll_faithful]) _ _ rfl
  exact ⟨sampleRequest, lit "B", sampleConnect_accepted, rfl, hrest,
    hwhole (by simp [requests, greedyPoll_eager]) (by decide)⟩

end Resocks5.Inbound
