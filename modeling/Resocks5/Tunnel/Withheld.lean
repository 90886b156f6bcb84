import Resocks5.Tunnel.Gathering

namespace Resocks5.Tunnel

open Resocks5.Foundation
open Resocks5.Recovery

/-! A hello that nothing can complete any more. -/

/-- The signature is there, and the records that follow are not those of one ClientHello. -/
def isInterrupted (data : Bytes) : Bool :=
  classifyClientHello data == .clientHello && !clientHelloIsComplete data &&
    !clientHelloMightContinue data

theorem isInterrupted_iff {data : Bytes} :
    isInterrupted data = true ↔ classifyClientHello data = .clientHello ∧ ¬ Completable data := by
  simp only [isInterrupted, Bool.and_eq_true, beq_iff_eq, Bool.not_eq_true', and_assoc]
  refine and_congr_right fun hsignature => ?_
  obtain ⟨a, b, c, rest, heq⟩ := classifyClientHello_iff.mp hsignature
  have hmajor : data[1]?.any (· != 0x03) = false := by
    rw [heq]
    rfl
  rw [completable_iff hmajor, not_or, Bool.not_eq_true, Bool.not_eq_true]

theorem indeterminate_completable {data : Bytes}
    (hopen : classifyClientHello data = .indeterminate) : Completable data := by
  have hheader : data.length ≤ 5 ∧ isForeign data = false := by
    cases data with
    | nil => exact ⟨Nat.zero_le _, rfl⟩
    | cons kind rest =>
        simp only [classifyClientHello] at hopen
        split at hopen
        · cases hopen
        · rename_i hkind
          have hsame : kind = handshake := not_not.mp hkind
          refine ⟨?_, by simpa [isForeign] using hsame⟩
          cases rest with
          | nil => simp
          | cons major rest =>
              dsimp only at hopen
              split at hopen
              · cases hopen
              · obtain hshort | hlong := Nat.lt_or_ge rest.length 4
                · exact Nat.succ_le_succ (Nat.succ_le_succ (Nat.le_of_lt_succ hshort))
                · obtain ⟨_, _, _, kind, rest, rfl⟩ := exists_cons_four hlong
                  dsimp only at hopen
                  split at hopen
                  · cases hopen
                  · cases hopen
  exact completable_header hheader.1 hheader.2

theorem hopeless_cases {data : Bytes} (hhopeless : ¬ Completable data) :
    classifyClientHello data = .other ∨ isInterrupted data = true := by
  cases hclassify : classifyClientHello data with
  | clientHello => exact .inr (isInterrupted_iff.mpr ⟨hclassify, hhopeless⟩)
  | other => exact .inl rfl
  | indeterminate => exact absurd (indeterminate_completable hclassify) hhopeless

section

variable {σ : Type}

/-- A read after which nothing can complete the gathered bytes ends the gathering, and they are
sent. -/
def Forwards (loop : CopyLoop σ) (spec : FragmentSpec) (relay : Relay σ) (event : Event)
    (next : Relay σ) : Prop :=
  ∀ first len n, relay.phase = .gathering first len → event = .readClient n →
    ¬ Completable (first.take len ++ relay.client.take n) →
    next.phase = .sendPossiblyFragmented loop spec (first.take len ++ relay.client.take n)

/-- What a read adds to the gathered bytes does not interrupt the hello, or the buffer is full. -/
def keepsHope (relay : Relay σ) (event : Event) : Bool :=
  match relay.phase, event with
  | .gathering first len, .readClient n =>
    let data := first.take len ++ relay.client.take n
    gatherMax ≤ data.length || !isInterrupted data
  | _, _ => true

/-- The gathered bytes are no interrupted hello, or they have been handed on. -/
def Hopeful : Phase σ → Prop
  | .gathering first len | .answering first len _ =>
    Gathers (first.take len) first len ∧ isInterrupted (first.take len) = false
  | .sending _ _ _ | .pausing _ | .copying _ | .ended _ | .panicked => True
  | _ => False

variable {loop : CopyLoop σ} {spec : FragmentSpec} {relay next : Relay σ}

theorem sendChunks_hopeful (parts : List Bytes) : Hopeful (.sendChunks loop parts) := by
  cases parts with
  | nil => exact trivial
  | cons chunk behind => exact trivial

theorem sent_hopeful (behind : Option (List Bytes)) : Hopeful (.sent loop spec behind) := by
  cases behind with
  | none => exact trivial
  | some behind =>
      rw [Phase.sent]
      split
      · exact trivial
      · exact sendChunks_hopeful behind

theorem sendPossiblyFragmented_sends (data : Bytes) :
    Hopeful (.sendPossiblyFragmented loop spec data) ∧
      ∀ first len, Phase.sendPossiblyFragmented loop spec data ≠ .gathering first len := by
  rw [Phase.sendPossiblyFragmented]
  split
  · exact ⟨trivial, fun first len hsame => by cases hsame⟩
  · rename_i parts _
    cases parts with
    | nil => exact ⟨trivial, fun first len hsame => by cases hsame⟩
    | cons chunk behind => exact ⟨trivial, fun first len hsame => by cases hsame⟩

theorem gathered_hopeful {taken first : Bytes} {len : Nat} (hgathers : Gathers taken first len) :
    Hopeful (.gathered loop spec first len) := by
  by_cases hsome : taken = []
  · have hlen : len = 0 := by
      rw [← hgathers.length, hsome]
      rfl
    rw [Phase.gathered, if_neg (not_not.mpr hlen)]
    exact trivial
  · rw [gathered_eq hgathers hsome]
    exact (sendPossiblyFragmented_sends taken).1

theorem gatherClient_hope {first : Bytes} {len n : Nat}
    (hgathers : Gathers (first.take len) first len)
    (hopen : isInterrupted (first.take len) = false)
    (hread : relay.gatherClient loop spec first len n = some next) :
    let data := first.take len ++ relay.client.take n
    let keeps := (decide (gatherMax ≤ data.length) || !isInterrupted data) = true
    ((¬ Completable data → next.phase = .sendPossiblyFragmented loop spec data) ↔ keeps) ∧
      (keeps → Hopeful next.phase) := by
  dsimp only
  obtain ⟨_, first', len', hgathers', rfl⟩ := gatherClient_cases hgathers hread
  have hfull := hgathers'.fits
  have hlength := hgathers'.length
  have hdecides := isGathered_eq hgathers' n
  simp only [Bool.or_eq_true, decide_eq_true_eq, Bool.not_eq_true']
  -- a full buffer ends the gathering of a hello
  have hcap : classifyClientHello (first.take len ++ relay.client.take n) = .clientHello →
      gatherMax ≤ (first.take len ++ relay.client.take n).length →
      isGathered n first' len' = true := by
    intro hsignature hle
    rw [hdecides, hsignature]
    simp only [Bool.or_eq_true, beq_iff_eq]
    omega
  have hsends : classifyClientHello (first.take len ++ relay.client.take n) ≠ .indeterminate →
      isGathered n first' len' = true →
      (if isGathered n first' len' = true then Phase.gathered loop spec first' len'
        else .gathering first' len') =
        .sendPossiblyFragmented loop spec (first.take len ++ relay.client.take n) := by
    intro hdetermined hgathered
    rw [if_pos hgathered]
    refine gathered_eq hgathers' fun hnil => hdetermined ?_
    rw [hnil]
    rfl
  refine ⟨⟨?_, ?_⟩, ?_⟩
  · intro hforwards
    by_contra hlost
    rw [not_or, Bool.not_eq_false] at hlost
    obtain ⟨hroom, hinterrupted⟩ := hlost
    obtain ⟨hsignature, hhopeless⟩ := isInterrupted_iff.mp hinterrupted
    have hphase := hforwards hhopeless
    by_cases hgathered : isGathered n first' len' = true
    · -- only the end of the stream can have ended it, and that adds nothing
      rw [hdecides, hsignature] at hgathered
      have hincomplete : clientHelloIsComplete (first.take len ++ relay.client.take n) = false := by
        rw [Bool.eq_false_iff]
        intro hcomplete
        exact hhopeless ⟨[], by rwa [List.append_nil]⟩
      simp only [hincomplete, Bool.or_false, Bool.or_eq_true, beq_iff_eq] at hgathered
      obtain rfl := hgathered.resolve_right (by omega)
      rw [List.take_zero, List.append_nil, hopen] at hinterrupted
      cases hinterrupted
    · rw [if_neg hgathered] at hphase
      exact (sendPossiblyFragmented_sends _).2 first' len' hphase.symm
  · intro hkeeps hhopeless
    obtain hother | hinterrupted := hopeless_cases hhopeless
    · refine hsends (hother ▸ nofun) ?_
      rw [hdecides, hother]
    · have hsignature := (isInterrupted_iff.mp hinterrupted).1
      have hle := hkeeps.resolve_right (by rw [hinterrupted]; exact Bool.noConfusion)
      exact hsends (hsignature ▸ nofun) (hcap hsignature hle)
  · intro hkeeps
    by_cases hgathered : isGathered n first' len' = true
    · rw [if_pos hgathered]
      exact gathered_hopeful hgathers'
    · rw [if_neg hgathered]
      refine ⟨hgathers'.content.symm ▸ hgathers', ?_⟩
      rw [hgathers'.content, Bool.eq_false_iff]
      intro hinterrupted
      have hle := hkeeps.resolve_right (by rw [hinterrupted]; exact Bool.noConfusion)
      exact hgathered (hcap (isInterrupted_iff.mp hinterrupted).1 hle)

theorem copyStep_hopeful {copy : σ} {event : Event}
    (hstep : relay.copyStep loop copy event = some next) : Hopeful next.phase := by
  cases event with
  | readClient n =>
      obtain ⟨copy', _, hread⟩ := Option.bind_eq_some_iff.mp hstep
      rw [Relay.readClient] at hread
      split at hread
      · exact (Option.some.inj hread) ▸ trivial
      · cases hread
  | readUpstream n =>
      obtain ⟨copy', _, hread⟩ := Option.bind_eq_some_iff.mp hstep
      rw [Relay.readUpstream] at hread
      split at hread
      · exact (Option.some.inj hread) ▸ trivial
      · cases hread
  | wroteClient n =>
      obtain ⟨⟨bytes, copy'⟩, _, rfl⟩ := Option.map_eq_some_iff.mp hstep
      exact trivial
  | wroteUpstream n =>
      obtain ⟨⟨bytes, copy'⟩, _, rfl⟩ := Option.map_eq_some_iff.mp hstep
      exact trivial
  | finished =>
      rw [Relay.copyStep] at hstep
      split at hstep
      · exact (Option.some.inj hstep) ▸ trivial
      · cases hstep
  | flushed => cases hstep
  | elapsed => cases hstep
  | dialed spoken => cases hstep
  | lostUpstream => cases hstep
  | stopped how => cases hstep

theorem answer_hopeful {first rest : Bytes} {len : Nat}
    (hgathers : Gathers (first.take len) first len)
    (hopen : isInterrupted (first.take len) = false) :
    Hopeful (.answer first len rest : Phase σ) := by
  rw [Phase.answer]
  split
  · exact ⟨hgathers, hopen⟩
  · exact ⟨hgathers, hopen⟩

theorem proceed_hopeful {event : Event} (hhopeful : Hopeful relay.phase)
    (hstep : relay.proceed loop spec event = some next)
    (hkeeps : keepsHope relay event = true) : Hopeful next.phase := by
  unfold Relay.proceed at hstep
  cases hphase : relay.phase with
  | gathering first len =>
      rw [hphase] at hhopeful
      obtain ⟨hgathers, hopen⟩ := hhopeful
      simp only [hphase] at hstep
      split at hstep
      · simp only [keepsHope, hphase] at hkeeps
        exact (gatherClient_hope hgathers hopen hstep).2 hkeeps
      · obtain ⟨_, rfl⟩ := gatherUpstream_cases hstep
        dsimp only
        split
        · exact gathered_hopeful hgathers
        · exact ⟨hgathers, hopen⟩
      · cases hstep
  | answering first len rest =>
      rw [hphase] at hhopeful
      simp only [hphase] at hstep
      split at hstep
      · rw [Relay.writeClient] at hstep
        split at hstep
        · exact (Option.some.inj hstep) ▸ answer_hopeful hhopeful.1 hhopeful.2
        · cases hstep
      · cases hstep
  | sending chunk written behind =>
      simp only [hphase] at hstep
      split at hstep
      · rw [Relay.sendChunk] at hstep
        split at hstep
        · rw [Relay.writeUpstream] at hstep
          split at hstep
          · exact (Option.some.inj hstep) ▸ trivial
          · cases hstep
        · exact (Option.some.inj hstep) ▸ trivial
      · split at hstep
        · exact (Option.some.inj hstep) ▸ sent_hopeful behind
        · cases hstep
      · cases hstep
  | pausing behind =>
      simp only [hphase] at hstep
      split at hstep
      · exact (Option.some.inj hstep) ▸ sendChunks_hopeful behind
      · cases hstep
  | copying copy =>
      simp only [hphase] at hstep
      exact copyStep_hopeful hstep
  | ended how =>
      simp only [hphase] at hstep
      cases hstep
  | panicked =>
      simp only [hphase] at hstep
      cases hstep
  | peeking prog => exact (hphase ▸ hhopeful).elim
  | grace => exact (hphase ▸ hhopeful).elim
  | dialing => exact (hphase ▸ hhopeful).elim
  | greeting => exact (hphase ▸ hhopeful).elim
  | connecting held => exact (hphase ▸ hhopeful).elim
  | replaying rest => exact (hphase ▸ hhopeful).elim

theorem step_hopeful {event : Event} (hhopeful : Hopeful relay.phase)
    (hstep : relay.step loop spec event = some next)
    (hkeeps : keepsHope relay event = true) : Hopeful next.phase := by
  cases event with
  | stopped how =>
      rw [Relay.step] at hstep
      split at hstep
      · exact (Option.some.inj hstep) ▸ trivial
      · cases hstep
  | _ =>
      have hproceed : relay.proceed loop spec _ = some next := hstep
      exact proceed_hopeful hhopeful hproceed hkeeps

theorem step_forwards {event : Event} (hhopeful : Hopeful relay.phase)
    (hstep : relay.step loop spec event = some next) :
    Forwards loop spec relay event next ↔ keepsHope relay event = true := by
  by_cases hreads : ∃ first len n, relay.phase = .gathering first len ∧ event = .readClient n
  · obtain ⟨first, len, n, hphase, rfl⟩ := hreads
    rw [hphase] at hhopeful
    have hproceed : relay.proceed loop spec (.readClient n) = some next := hstep
    unfold Relay.proceed at hproceed
    simp only [hphase] at hproceed
    have hiff := (gatherClient_hope hhopeful.1 hhopeful.2 hproceed).1
    have hkeeps : keepsHope relay (.readClient n) =
        (decide (gatherMax ≤ (first.take len ++ relay.client.take n).length) ||
          !isInterrupted (first.take len ++ relay.client.take n)) := by
      simp only [keepsHope, hphase]
    rw [hkeeps, ← hiff]
    constructor
    · intro hforwards
      exact hforwards first len n hphase rfl
    · intro hforwards first' len' n' hphase' hevent
      cases hphase.symm.trans hphase'
      cases hevent
      exact hforwards
  · refine iff_of_true ?_ ?_
    · intro first len n hphase hevent
      exact absurd ⟨first, len, n, hphase, hevent⟩ hreads
    · rw [keepsHope]
      intro first len n hphase hevent
      exact hreads ⟨first, len, n, hphase, hevent⟩

theorem preparePayload_gathers (hspec : spec.enabled = true) {initial : Bytes}
    (hhold : initial = [] ∨ unfinishedHello spec initial = true) :
    Phase.preparePayload loop spec initial = .gathering (resize initial) initial.length := by
  rw [Phase.preparePayload, hspec, Bool.not_true, if_neg Bool.false_ne_true, if_neg]
  obtain rfl | hunfinished := hhold
  · simp
  · simp [hunfinished]

theorem preparePayload_sends {initial : Bytes} (hsome : initial ≠ [])
    (hdecided : unfinishedHello spec initial = false) :
    Phase.preparePayload loop spec initial = .sendPossiblyFragmented loop spec initial := by
  rw [Phase.preparePayload, if_pos]
  simp [hsome, hdecided]

theorem preparePayload_hopeful (hspec : spec.enabled = true) {initial : Bytes}
    (hsize : initial.length ≤ gatherMax) (hopen : isInterrupted initial = false) :
    Hopeful (.preparePayload loop spec initial) := by
  by_cases hhold : initial = [] ∨ unfinishedHello spec initial = true
  · have hgathers := gathers_resize hsize
    rw [preparePayload_gathers hspec hhold]
    refine ⟨?_, ?_⟩
    · rw [hgathers.content]
      exact hgathers
    · rw [hgathers.content]
      exact hopen
  · rw [not_or, Bool.not_eq_true] at hhold
    rw [preparePayload_sends hhold.1 hhold.2]
    exact (sendPossiblyFragmented_sends initial).1

theorem preparePayload_forwards (hspec : spec.enabled = true) {initial : Bytes} :
    (¬ Completable initial →
      Phase.preparePayload loop spec initial = .sendPossiblyFragmented loop spec initial) ↔
      isInterrupted initial = false := by
  rw [Bool.eq_false_iff]
  constructor
  · intro hforwards hinterrupted
    obtain ⟨hsignature, hhopeless⟩ := isInterrupted_iff.mp hinterrupted
    have hunfinished : unfinishedHello spec initial = true := by
      rw [unfinishedHello, hspec, hsignature]
      simp only [isInterrupted, Bool.and_eq_true] at hinterrupted
      exact hinterrupted.1.2
    have hsends := hforwards hhopeless
    rw [preparePayload_gathers hspec (.inr hunfinished)] at hsends
    exact (sendPossiblyFragmented_sends initial).2 _ _ hsends.symm
  · intro hopen hhopeless
    have hother := (hopeless_cases hhopeless).resolve_right hopen
    refine preparePayload_sends ?_ ?_
    · rintro rfl
      cases hother
    · rw [unfinishedHello, hother, Bool.and_false]

end

/-- Bytes that nothing can complete are handed on at once in exactly those runs in which no hello
is interrupted before the buffer is full. -/
theorem hopeless_withheld {σ : Type} (loop : CopyLoop σ) {spec : FragmentSpec}
    (hspec : spec.enabled = true) {initial : Bytes} (hsize : initial.length ≤ gatherMax)
    {relay last : Relay σ} (hphase : relay.phase = .preparePayload loop spec initial)
    {events : List Event} (hrun : run (Relay.step loop spec) relay events = some last) :
    ((¬ Completable initial → relay.phase = .sendPossiblyFragmented loop spec initial) ∧
      Along (Relay.step loop spec) (Forwards loop spec) relay events) ↔
    isInterrupted initial = false ∧
      run (guarded (Relay.step loop spec) keepsHope) relay events = some last := by
  rw [hphase, preparePayload_forwards hspec]
  refine and_congr_right fun hopen => ?_
  have hstart : Hopeful relay.phase := by
    rw [hphase]
    exact preparePayload_hopeful hspec hsize hopen
  exact @along_iff_guarded _ _ _ _ _ (fun state => Hopeful state.phase)
    (fun _ _ _ => step_forwards) (fun _ _ _ => step_hopeful) _ _ _ hrun hstart

def otherRelay : Relay CopyBuffers where
  phase := .preparePayload copyBidirectional ⟨true, 4, 0⟩ []
  client := [0x16, 0x05, 0x01, 0x02]
  spoken := []
  upstream := []
  fromClient := []
  fromUpstream := []
  toClient := []
  toUpstream := []

theorem empty_gathers :
    Phase.preparePayload copyBidirectional ⟨true, 4, 0⟩ [] = .gathering (resize []) 0 :=
  preparePayload_gathers rfl (.inl rfl)

def otherGathering (first : Bytes) : Relay CopyBuffers :=
  { otherRelay with
    phase := .gathering first 1
    client := [0x05, 0x01, 0x02]
    fromClient := [0x16] }

def otherSending : Relay CopyBuffers :=
  { otherRelay with
    phase := .sending [0x16, 0x05] 0 none
    client := [0x01, 0x02]
    fromClient := [0x16, 0x05] }

theorem other_gathered : ∃ first, Gathers [0x16] first 1 ∧
    otherRelay.step copyBidirectional ⟨true, 4, 0⟩ (.readClient 1) = some (otherGathering first) ∧
    (otherGathering first).step copyBidirectional ⟨true, 4, 0⟩ (.readClient 1) =
      some otherSending := by
  obtain ⟨first, len, hgathers, hstep⟩ := @step_gathers _ copyBidirectional ⟨true, 4, 0⟩ otherRelay
    _ _ _ 1 empty_gathers (gathers_resize (Nat.zero_le _)) (by decide)
  obtain rfl : 1 = len := hgathers.length
  have hwaits : isGathered 1 first 1 = false := by
    rw [isGathered_eq hgathers]
    decide
  rw [hwaits, if_neg Bool.false_ne_true] at hstep
  refine ⟨first, hgathers, hstep, ?_⟩
  have hreadable : readable (gatherMax - 1) 1 [0x05, 0x01, 0x02] = true := by decide
  obtain ⟨second, len, hboth, hnext⟩ := @step_gathers _ copyBidirectional ⟨true, 4, 0⟩
    (otherGathering first) _ _ _ 1 rfl hgathers hreadable
  have hends : isGathered 1 second len = true := by
    rw [isGathered_eq hboth]
    rfl
  rw [hends, if_pos rfl, gathered_eq hboth (List.cons_ne_nil _ _)] at hnext
  exact hnext

def otherEvents : List Event :=
  [.readClient 1, .readClient 1, .wroteUpstream 2, .flushed, .readClient 2]

/-- What is gathered goes on with the byte that decides it, and the rest is copied. -/
theorem hopeless_withheld_other :
    ∃ last, run (Relay.step copyBidirectional ⟨true, 4, 0⟩) otherRelay otherEvents = some last ∧
      last.toUpstream = [0x16, 0x05] ∧
      Along (Relay.step copyBidirectional ⟨true, 4, 0⟩) (Forwards copyBidirectional ⟨true, 4, 0⟩)
        otherRelay otherEvents := by
  obtain ⟨first, hgathers, hfirst, hsecond⟩ := other_gathered
  have hspec : (⟨true, 4, 0⟩ : FragmentSpec).enabled = true := rfl
  have hphase : otherRelay.phase = .preparePayload copyBidirectional ⟨true, 4, 0⟩ [] := rfl
  have hrun : run (Relay.step copyBidirectional ⟨true, 4, 0⟩) otherRelay otherEvents =
      some { otherSending with
        phase := .copying ⟨⟨[0x01, 0x02], false⟩, ⟨[], false⟩⟩
        client := []
        fromClient := [0x16, 0x05, 0x01, 0x02]
        toUpstream := [0x16, 0x05] } := by
    rw [otherEvents, run_cons, hfirst, Option.bind_some, run_cons, hsecond]
    rfl
  have hkept : keepsHope (otherGathering first) (.readClient 1) = true := by
    have hdata : first.take 1 ++ (otherGathering first).client.take 1 = [0x16, 0x05] := by
      rw [hgathers.content]
      rfl
    change (decide (gatherMax ≤ (first.take 1 ++ (otherGathering first).client.take 1).length) ||
      !isInterrupted (first.take 1 ++ (otherGathering first).client.take 1)) = true
    rw [hdata]
    decide
  refine ⟨_, hrun, rfl, ((hopeless_withheld copyBidirectional hspec (by decide) hphase hrun).mpr
    ⟨by decide, ?_⟩).2⟩
  rw [otherEvents, run_cons, guarded_eq_some.mpr ⟨by decide, hfirst⟩, Option.bind_some, run_cons,
    guarded_eq_some.mpr ⟨hkept, hsecond⟩]
  rfl

def alertedHello : Bytes :=
  [0x16, 0x03, 0x01, 0x00, 0x05, 0x01, 0x00, 0x00, 0x10, 0x00, 0x15, 0x03, 0x03, 0x00, 0x02, 0x01, 0x00]

def alertedRelay : Relay CopyBuffers where
  phase := .preparePayload copyBidirectional ⟨true, 4, 0⟩ []
  client := alertedHello
  spoken := []
  upstream := []
  fromClient := []
  fromUpstream := []
  toClient := []
  toUpstream := []

theorem alerted_gathered : ∃ first last,
    alertedRelay.step copyBidirectional ⟨true, 4, 0⟩ (.readClient 17) = some last ∧
      last.phase = .gathering first 17 ∧ first.take 17 = alertedHello := by
  obtain ⟨first, len, hgathers, hstep⟩ := @step_gathers _ copyBidirectional ⟨true, 4, 0⟩
    alertedRelay _ _ _ 17 empty_gathers (gathers_resize (Nat.zero_le _)) (by decide)
  obtain rfl : 17 = len := hgathers.length
  have hwaits : isGathered 17 first 17 = false := by
    rw [isGathered_eq hgathers]
    decide
  rw [hwaits, if_neg Bool.false_ne_true] at hstep
  exact ⟨first, _, hstep, rfl, hgathers.content⟩

/-- The client is waited for, though nothing it sends can complete what it has sent. -/
theorem alerted_withheld :
    ¬ Completable alertedHello ∧
    (∃ first last, alertedRelay.step copyBidirectional ⟨true, 4, 0⟩ (.readClient 17) = some last ∧
      last.phase = .gathering first 17 ∧ first.take 17 = alertedHello) ∧
    ¬ Along (Relay.step copyBidirectional ⟨true, 4, 0⟩) (Forwards copyBidirectional ⟨true, 4, 0⟩)
      alertedRelay [.readClient 17] := by
  have hhopeless : ¬ Completable alertedHello := (isInterrupted_iff.mp (by decide)).2
  refine ⟨hhopeless, alerted_gathered, fun halong => ?_⟩
  obtain ⟨first, last, hstep, hphase, _⟩ := alerted_gathered
  have hsends := (halong last hstep).1 (resize []) 0 17 empty_gathers rfl hhopeless
  exact (sendPossiblyFragmented_sends _).2 first 17 (hsends.symm.trans hphase)

end Resocks5.Tunnel
