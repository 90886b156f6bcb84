import Resocks5.Inbound.AuthSound
import Resocks5.Recovery.EffectiveTarget
import Resocks5.Recovery.Reassembly
import Resocks5.Tunnel.ForwardTunnel

namespace Resocks5.Tunnel

open Resocks5.Foundation
open Resocks5.Recovery
open Resocks5.Inbound

variable {σ : Type}

/-! What a copy loop promises, and what holds of a flow in each phase. -/

/-- `held` is what was read from a side and not yet written to the other, `closed` that the end
of a side was read. -/
structure Documented (loop : CopyLoop σ) (held : σ → Side → Bytes) (closed : σ → Side → Prop) :
    Prop where
  start : ∀ side, held loop.start side = [] ∧ ¬ closed loop.start side
  read : ∀ {copy after : σ} {side : Side} {chunk : Bytes}, loop.read copy side chunk = some after →
    held after side = held copy side ++ chunk ∧ held after side.other = held copy side.other ∧
      (closed after side → closed copy side ∨ chunk = []) ∧
      (closed after side.other → closed copy side.other)
  write : ∀ {copy after : σ} {side : Side} {n : Nat} {bytes : Bytes},
    loop.write copy side n = some (bytes, after) →
      held copy side.other = bytes ++ held after side.other ∧ held after side = held copy side ∧
      ∀ s, closed after s → closed copy s
  finished : ∀ {copy : σ}, loop.finished copy = true → ∀ side, held copy side = [] ∧
    closed copy side

structure Fresh (flow : Flow) : Prop where
  unsent : flow.toUpstream = []
  undelivered : flow.toClient = []
  unheard : flow.fromUpstream = []

structure Gathers (taken first : Bytes) (len : Nat) : Prop where
  capacity : first.length = gatherMax
  fits : len ≤ gatherMax
  content : first.take len = taken

theorem Gathers.length {taken first : Bytes} {len : Nat} (hgathers : Gathers taken first len) :
    taken.length = len := by
  obtain ⟨hcapacity, hfits, rfl⟩ := hgathers
  rw [List.length_take]
  omega

theorem Gathers.extend {taken first : Bytes} {len : Nat} (hgathers : Gathers taken first len)
    {chunk : Bytes} (hroom : len + chunk.length ≤ gatherMax) :
    Gathers (taken ++ chunk) (first.take len ++ chunk ++ first.drop (len + chunk.length))
      (len + chunk.length) := by
  have hlength := hgathers.length
  obtain ⟨hcapacity, hfits, rfl⟩ := hgathers
  refine ⟨?_, hroom, ?_⟩
  · rw [List.length_append, List.length_append, hlength, List.length_drop]
    omega
  · exact List.take_left' (by rw [List.length_append, hlength])

/-- Between phases every byte is sent, delivered or at hand. -/
def Sound (held : σ → Side → Bytes) (closed : σ → Side → Prop) (taken : Bytes)
    (flow : Flow) : Phase σ → Prop
  | .peeking prog => Fresh flow ∧ isDecided taken = false ∧ prog = readRecoveryPrefix taken
  | .grace | .dialing | .greeting => Fresh flow ∧ taken = []
  | .connecting kept => Fresh flow ∧ kept = taken ∧ taken.length ≤ gatherMax
  | .replaying rest =>
    flow.toUpstream = [] ∧ taken = [] ∧ flow.toClient ++ rest = flow.fromUpstream
  | .gathering first len =>
    Gathers taken first len ∧ flow.toUpstream = [] ∧ flow.toClient = flow.fromUpstream
  | .answering first len rest =>
    Gathers taken first len ∧ flow.toUpstream = [] ∧ flow.toClient ++ rest = flow.fromUpstream
  | .sending chunk written behind =>
    written ≤ chunk.length ∧
      flow.toUpstream ++ (chunk.drop written ++ (behind.getD []).flatten) = taken ∧
      flow.toClient = flow.fromUpstream
  | .pausing behind =>
    flow.toUpstream ++ behind.flatten = taken ∧ flow.toClient = flow.fromUpstream
  | .copying copy =>
    flow.toUpstream ++ held copy .client = taken ∧
      flow.toClient ++ held copy .upstream = flow.fromUpstream ∧
      (closed copy .client → flow.client = []) ∧ (closed copy .upstream → flow.upstream = [])
  | .ended how =>
    flow.toUpstream <+: taken ∧ flow.toClient <+: flow.fromUpstream ∧
      (how = .eof → flow.toUpstream = taken ∧ flow.toClient = flow.fromUpstream ∧
        flow.client = [] ∧ flow.upstream = [])
  | .panicked => False

section

variable {held : σ → Side → Bytes} {closed : σ → Side → Prop} {taken : Bytes} {flow : Flow}
  {loop : CopyLoop σ} {spec : FragmentSpec}

theorem Fresh.answered (hfresh : Fresh flow) : flow.toClient = flow.fromUpstream :=
  hfresh.undelivered.trans hfresh.unheard.symm

theorem Sound.prefixes {phase : Phase σ} (hsound : Sound held closed taken flow phase) :
    flow.toUpstream <+: taken ∧ flow.toClient <+: flow.fromUpstream := by
  have hfresh (h : Fresh flow) :
      flow.toUpstream <+: taken ∧ flow.toClient <+: flow.fromUpstream := by
    rw [h.unsent, h.undelivered]
    exact ⟨List.nil_prefix, List.nil_prefix⟩
  cases phase with
  | peeking prog => exact hfresh hsound.1
  | grace => exact hfresh hsound.1
  | dialing => exact hfresh hsound.1
  | greeting => exact hfresh hsound.1
  | connecting kept => exact hfresh hsound.1
  | replaying rest =>
      obtain ⟨hunsent, _, hback⟩ := hsound
      exact ⟨hunsent ▸ List.nil_prefix, ⟨_, hback⟩⟩
  | gathering first len =>
      obtain ⟨_, hunsent, hback⟩ := hsound
      exact ⟨hunsent ▸ List.nil_prefix, hback ▸ List.prefix_rfl⟩
  | answering first len rest =>
      obtain ⟨_, hunsent, hback⟩ := hsound
      exact ⟨hunsent ▸ List.nil_prefix, ⟨_, hback⟩⟩
  | sending chunk written behind =>
      obtain ⟨_, hforward, hback⟩ := hsound
      exact ⟨⟨_, hforward⟩, hback ▸ List.prefix_rfl⟩
  | pausing behind =>
      obtain ⟨hforward, hback⟩ := hsound
      exact ⟨⟨_, hforward⟩, hback ▸ List.prefix_rfl⟩
  | copying copy =>
      obtain ⟨hforward, hback, _⟩ := hsound
      exact ⟨⟨_, hforward⟩, ⟨_, hback⟩⟩
  | ended how => exact ⟨hsound.1, hsound.2.1⟩
  | panicked => exact hsound.elim

/-! Where the functions of the source lead. -/

theorem sliceTo_of_le {len n : Nat} (hle : n ≤ len) (next : Phase σ) :
    Phase.sliceTo len n next = next := if_pos hle

theorem nonEmpty_sound (hfresh : Fresh flow) (hsize : taken.length ≤ peekMax) :
    Sound held closed taken flow (.peek (.ok (nonEmpty taken))) := by
  unfold nonEmpty
  split
  · refine ⟨hfresh.unsent ▸ List.nil_prefix, hfresh.undelivered ▸ List.nil_prefix, nofun⟩
  · exact ⟨hfresh, rfl, hsize⟩

theorem peek_sound (hfresh : Fresh flow) (hsize : taken.length ≤ peekMax) :
    Sound held closed taken flow (.peek (readRecoveryPrefix taken)) := by
  cases hdecided : isDecided taken with
  | true =>
      rw [readRecoveryPrefix_decided hdecided]
      exact nonEmpty_sound hfresh hsize
  | false =>
      have hprog := readRecoveryPrefix_open hdecided
      rw [hprog]
      exact ⟨hfresh, hdecided, hprog.symm⟩

theorem clientPrefix_sound (hfresh : Fresh flow) (hsize : taken.length ≤ tmpLen) :
    Sound held closed taken flow (.clientPrefix taken) := by
  rw [Phase.clientPrefix, sliceTo_of_le hsize]
  split
  · exact ⟨hfresh.unsent ▸ List.nil_prefix, hfresh.undelivered ▸ List.nil_prefix, nofun⟩
  · exact peek_sound hfresh (hsize.trans (by decide))

theorem copying_sound (hloop : Documented loop held closed) (hforward : flow.toUpstream = taken)
    (hback : flow.toClient = flow.fromUpstream) :
    Sound held closed taken flow (.copying loop.start) := by
  obtain ⟨hclient, hreading⟩ := hloop.start .client
  obtain ⟨hupstream, hlistening⟩ := hloop.start .upstream
  refine ⟨?_, ?_, fun h => absurd h hreading, fun h => absurd h hlistening⟩
  · rw [hclient, List.append_nil, hforward]
  · rw [hupstream, List.append_nil, hback]

theorem sendChunks_sound (hloop : Documented loop held closed) {parts : List Bytes}
    (hforward : flow.toUpstream ++ parts.flatten = taken)
    (hback : flow.toClient = flow.fromUpstream) :
    Sound held closed taken flow (.sendChunks loop parts) := by
  cases parts with
  | nil =>
      rw [List.flatten_nil, List.append_nil] at hforward
      exact copying_sound hloop hforward hback
  | cons chunk behind =>
      refine ⟨Nat.zero_le _, ?_, hback⟩
      rw [List.drop_zero, Option.getD_some, ← List.flatten_cons]
      exact hforward

theorem sent_sound (hloop : Documented loop held closed) {behind : Option (List Bytes)}
    (hforward : flow.toUpstream ++ (behind.getD []).flatten = taken)
    (hback : flow.toClient = flow.fromUpstream) :
    Sound held closed taken flow (.sent loop spec behind) := by
  cases behind with
  | none =>
      rw [Option.getD_none, List.flatten_nil, List.append_nil] at hforward
      exact copying_sound hloop hforward hback
  | some behind =>
      rw [Phase.sent]
      split
      · exact ⟨hforward, hback⟩
      · exact sendChunks_sound hloop hforward hback

theorem sendPossiblyFragmented_sound (hloop : Documented loop held closed)
    (hunsent : flow.toUpstream = []) (hback : flow.toClient = flow.fromUpstream) :
    Sound held closed taken flow (.sendPossiblyFragmented loop spec taken) := by
  rw [Phase.sendPossiblyFragmented, FragmentSpec.parts]
  split
  · rename_i hparts
    refine ⟨Nat.zero_le _, ?_, hback⟩
    rw [hunsent, List.nil_append, List.drop_zero]
    exact List.append_nil taken
  · rename_i parts hparts
    split at hparts
    · obtain rfl := Option.some.inj hparts
      refine sendChunks_sound hloop ?_ hback
      rw [hunsent, List.nil_append]
      exact chunks_flatten (by omega) (Nat.le_refl _)
    · cases hparts

theorem gathers_resize (hsize : taken.length ≤ gatherMax) :
    Gathers taken (resize taken) taken.length := by
  have hall : taken.take gatherMax = taken := List.take_of_length_le hsize
  refine ⟨?_, hsize, ?_⟩
  · rw [resize, hall, List.length_append, List.length_replicate]
    omega
  · rw [resize, hall, List.take_left]

theorem preparePayload_sound (hloop : Documented loop held closed)
    (hsize : taken.length ≤ gatherMax) (hunsent : flow.toUpstream = [])
    (hback : flow.toClient = flow.fromUpstream) :
    Sound held closed taken flow (.preparePayload loop spec taken) := by
  rw [Phase.preparePayload]
  split
  · exact sendPossiblyFragmented_sound hloop hunsent hback
  · rename_i hhold
    split
    · rename_i hdisabled
      refine copying_sound hloop ?_ hback
      rw [Bool.not_eq_true'] at hdisabled
      simp only [unfinishedHello, hdisabled, Bool.false_and, Bool.not_false, Bool.and_true,
        Bool.not_eq_true', Bool.not_eq_false, List.isEmpty_iff] at hhold
      rw [hunsent, hhold]
    · exact ⟨gathers_resize hsize, hunsent, hback⟩

theorem gathered_sound (hloop : Documented loop held closed) {first : Bytes} {len : Nat}
    (hgathers : Gathers taken first len) (hunsent : flow.toUpstream = [])
    (hback : flow.toClient = flow.fromUpstream) :
    Sound held closed taken flow (.gathered loop spec first len) := by
  obtain ⟨hcapacity, hfits, hcontent⟩ := hgathers
  rw [Phase.gathered]
  split
  · rw [sliceTo_of_le (hfits.trans (Nat.le_of_eq hcapacity.symm)), hcontent]
    exact sendPossiblyFragmented_sound hloop hunsent hback
  · rename_i hzero
    rw [not_not.mp hzero, List.take_zero] at hcontent
    exact copying_sound hloop (hunsent.trans hcontent) hback

theorem replay_sound (hloop : Documented loop held closed) {rest : Bytes} (htaken : taken = [])
    (hunsent : flow.toUpstream = []) (hback : flow.toClient ++ rest = flow.fromUpstream) :
    Sound held closed taken flow (.replay loop spec rest) := by
  rw [Phase.replay]
  split
  · rename_i hempty
    rw [List.isEmpty_iff.mp hempty, List.append_nil] at hback
    subst htaken
    exact preparePayload_sound hloop (Nat.zero_le _) hunsent hback
  · exact ⟨hunsent, htaken, hback⟩

theorem answer_sound {first rest : Bytes} {len : Nat} (hgathers : Gathers taken first len)
    (hunsent : flow.toUpstream = []) (hback : flow.toClient ++ rest = flow.fromUpstream) :
    Sound held closed taken flow (.answer first len rest) := by
  rw [Phase.answer]
  split
  · rename_i hempty
    rw [List.isEmpty_iff.mp hempty, List.append_nil] at hback
    exact ⟨hgathers, hunsent, hback⟩
  · exact ⟨hgathers, hunsent, hback⟩

end

/-! One step. -/

/-- What was read from either side, in order, with what is still to come. -/
structure Fits (held : σ → Side → Bytes) (closed : σ → Side → Prop) (initial client : Bytes)
    (relay : Relay σ) : Prop where
  consumed : relay.fromClient ++ relay.client = client
  heard : relay.fromUpstream ++ relay.upstream = relay.spoken
  sound : Sound held closed (initial ++ relay.fromClient) relay.toFlow relay.phase

section

variable {held : σ → Side → Bytes} {closed : σ → Side → Prop} {initial client : Bytes}
  {relay after : Relay σ} {loop : CopyLoop σ} {spec : FragmentSpec} {max n : Nat}
  {bytes : Bytes}

theorem readable_split {stream : Bytes} (hread : readable max n stream = true) :
    (stream.take n).length ≤ max ∧ (stream.take n = [] → stream = [] ∨ max = 0) := by
  simp only [readable, Bool.and_eq_true, decide_eq_true_eq, Bool.or_eq_true, bne_iff_ne,
    List.isEmpty_iff, beq_iff_eq] at hread
  obtain ⟨⟨hmax, hlength⟩, hsome⟩ := hread
  refine ⟨(List.length_take_le _ _).trans hmax, fun hnil => ?_⟩
  obtain (hn | hend) | hroom := hsome
  · obtain hzero | hend := List.take_eq_nil_iff.mp hnil
    · exact absurd hzero hn
    · exact .inl hend
  · exact .inl hend
  · exact .inr hroom

theorem readClient_fits {next : Bytes → Phase σ} (hfits : Fits held closed initial client relay)
    (hread : relay.readClient max n next = some after)
    (hnext : ∀ chunk rest : Bytes, chunk.length ≤ max → (chunk = [] → rest = [] ∨ max = 0) →
      chunk = relay.client.take n →
      Sound held closed (initial ++ relay.fromClient ++ chunk)
        { relay.toFlow with client := rest, fromClient := relay.fromClient ++ chunk } (next chunk)) :
    Fits held closed initial client after := by
  rw [Relay.readClient] at hread
  split at hread
  · rename_i hreadable
    obtain rfl := Option.some.inj hread
    obtain ⟨hmax, hsome⟩ := readable_split hreadable
    have hsound := hnext _ (relay.client.drop n) hmax (fun hnil => ?_) rfl
    · refine ⟨?_, hfits.heard, ?_⟩
      · rw [List.append_assoc, List.take_append_drop]
        exact hfits.consumed
      · dsimp only
        rw [← List.append_assoc]
        exact hsound
    · refine (hsome hnil).imp_left fun hend => ?_
      rw [hend, List.drop_nil]
  · cases hread

theorem readUpstream_fits {next : Bytes → Phase σ} (hfits : Fits held closed initial client relay)
    (hread : relay.readUpstream max n next = some after)
    (hnext : ∀ chunk rest : Bytes, chunk.length ≤ max → (chunk = [] → rest = [] ∨ max = 0) →
      chunk = relay.upstream.take n →
      Sound held closed (initial ++ relay.fromClient)
        { relay.toFlow with upstream := rest, fromUpstream := relay.fromUpstream ++ chunk }
        (next chunk)) :
    Fits held closed initial client after := by
  rw [Relay.readUpstream] at hread
  split at hread
  · rename_i hreadable
    obtain rfl := Option.some.inj hread
    obtain ⟨hmax, hsome⟩ := readable_split hreadable
    have hsound := hnext _ (relay.upstream.drop n) hmax (fun hnil => ?_) rfl
    · refine ⟨hfits.consumed, ?_, hsound⟩
      rw [List.append_assoc, List.take_append_drop]
      exact hfits.heard
    · refine (hsome hnil).imp_left fun hend => ?_
      rw [hend, List.drop_nil]
  · cases hread

theorem writeClient_fits {next : Phase σ} (hfits : Fits held closed initial client relay)
    (hwrite : relay.writeClient n bytes next = some after)
    (hnext : Sound held closed (initial ++ relay.fromClient)
      { relay.toFlow with toClient := relay.toClient ++ bytes.take n } next) :
    Fits held closed initial client after := by
  rw [Relay.writeClient] at hwrite
  split at hwrite
  · obtain rfl := Option.some.inj hwrite
    exact ⟨hfits.consumed, hfits.heard, hnext⟩
  · cases hwrite

theorem writeUpstream_fits {next : Phase σ} (hfits : Fits held closed initial client relay)
    (hwrite : relay.writeUpstream n bytes next = some after)
    (hnext : n ≤ bytes.length → Sound held closed (initial ++ relay.fromClient)
      { relay.toFlow with toUpstream := relay.toUpstream ++ bytes.take n } next) :
    Fits held closed initial client after := by
  rw [Relay.writeUpstream] at hwrite
  split at hwrite
  · rename_i hwritable
    obtain rfl := Option.some.inj hwrite
    simp only [writable, Bool.and_eq_true, decide_eq_true_eq] at hwritable
    exact ⟨hfits.consumed, hfits.heard, hnext hwritable.2⟩
  · cases hwrite

theorem goOn_fits {next : Phase σ} (hfits : Fits held closed initial client relay)
    (hnext : Sound held closed (initial ++ relay.fromClient) relay.toFlow next) :
    Fits held closed initial client (relay.goOn next) :=
  ⟨hfits.consumed, hfits.heard, hnext⟩

theorem connect_fits {next : Phase σ} (hfits : Fits held closed initial client relay)
    (spoken : Bytes)
    (hnext : Sound held closed (initial ++ relay.fromClient)
      { relay.toFlow with spoken := spoken, upstream := spoken, fromUpstream := [] } next) :
    Fits held closed initial client (relay.connect spoken next) :=
  ⟨hfits.consumed, rfl, hnext⟩

theorem first_fits (hfits : Fits held closed initial client relay)
    (hfresh : Fresh relay.toFlow) (htaken : initial ++ relay.fromClient = [])
    (hread : relay.readClient tmpLen n .clientPrefix = some after) :
    Fits held closed initial client after := by
  refine readClient_fits hfits hread fun chunk rest hchunk _ _ => ?_
  rw [htaken, List.nil_append]
  exact clientPrefix_sound ⟨hfresh.unsent, hfresh.undelivered, hfresh.unheard⟩ hchunk

theorem hangUp_fits (hfits : Fits held closed initial client relay) (hfresh : Fresh relay.toFlow)
    (htaken : initial ++ relay.fromClient = []) (hphase : relay.phase = .greeting) :
    Fits held closed initial client relay.hangUp ∧ Fresh relay.hangUp.toFlow := by
  have hagain : Fresh relay.hangUp.toFlow := ⟨hfresh.unsent, hfresh.undelivered, rfl⟩
  refine ⟨⟨hfits.consumed, rfl, ?_⟩, hagain⟩
  change Sound held closed (initial ++ relay.fromClient) relay.hangUp.toFlow relay.phase
  rw [hphase]
  exact ⟨hagain, htaken⟩

theorem peekAgain_fits (hfits : Fits held closed initial client relay) (hfresh : Fresh relay.toFlow)
    (htaken : initial ++ relay.fromClient = []) :
    Fits held closed initial client (relay.goOn (.peek (readRecoveryPrefix []))) := by
  refine goOn_fits hfits ?_
  rw [htaken]
  exact peek_sound hfresh (Nat.zero_le _)

theorem peeking_fits {bound : Nat} {next : Bytes → PeekProg (Option Bytes)}
    (hfits : Fits held closed initial client relay)
    (hphase : relay.phase = .peeking (.read bound next))
    (hread : relay.readClient bound n (fun chunk => .peek (next chunk)) = some after) :
    Fits held closed initial client after := by
  have hsound := hfits.sound
  rw [hphase] at hsound
  obtain ⟨hfresh, hopen, hprog⟩ := hsound
  have hshort := isDecided_short hopen
  rw [readRecoveryPrefix_open hopen] at hprog
  injection hprog with hbound hnext
  have hroom : 0 < bound ∧ bound ≤ tmpLen ∧
      (initial ++ relay.fromClient).length + bound ≤ peekMax := by
    have htmp : 0 < tmpLen := by decide
    rw [hbound, readWindow]
    omega
  refine readClient_fits hfits hread fun chunk rest hchunk _ _ => ?_
  rw [hnext]
  dsimp only
  split
  · rename_i hnil
    rw [hnil, List.append_nil]
    exact nonEmpty_sound ⟨hfresh.unsent, hfresh.undelivered, hfresh.unheard⟩ (Nat.le_of_lt hshort)
  · rw [Recovery.sliceTo, if_pos (hchunk.trans hroom.2.1)]
    refine peek_sound ⟨hfresh.unsent, hfresh.undelivered, hfresh.unheard⟩ ?_
    rw [List.length_append]
    omega

theorem gatherClient_fits (hloop : Documented loop held closed) {first : Bytes} {len : Nat}
    (hfits : Fits held closed initial client relay) (hphase : relay.phase = .gathering first len)
    (hread : relay.gatherClient loop spec first len n = some after) :
    Fits held closed initial client after := by
  have hsound := hfits.sound
  rw [hphase] at hsound
  obtain ⟨hfull, hunsent, hback⟩ := hsound
  have hlen : len ≤ first.length := hfull.fits.trans (Nat.le_of_eq hfull.capacity.symm)
  rw [Relay.gatherClient, if_pos hlen] at hread
  refine readClient_fits hfits hread fun chunk rest hchunk _ _ => ?_
  dsimp only
  have hroom : len + chunk.length ≤ gatherMax := by
    have hcapacity := hfull.capacity
    omega
  have hgathers := hfull.extend hroom
  rw [sliceTo_of_le (hgathers.fits.trans (Nat.le_of_eq hgathers.capacity.symm))]
  split
  · exact gathered_sound hloop hgathers hunsent hback
  · exact ⟨hgathers, hunsent, hback⟩

theorem gatherUpstream_fits (hloop : Documented loop held closed) {first : Bytes} {len : Nat}
    (hfits : Fits held closed initial client relay) (hphase : relay.phase = .gathering first len)
    (hread : relay.gatherUpstream loop spec first len n = some after) :
    Fits held closed initial client after := by
  have hsound := hfits.sound
  rw [hphase] at hsound
  obtain ⟨hgathers, hunsent, hback⟩ := hsound
  refine readUpstream_fits hfits hread fun chunk rest hchunk _ _ => ?_
  dsimp only
  split
  · rename_i hempty
    refine gathered_sound hloop hgathers hunsent ?_
    dsimp only
    rw [List.isEmpty_iff.mp hempty, List.append_nil]
    exact hback
  · rw [sliceTo_of_le hchunk]
    refine answer_sound hgathers hunsent ?_
    dsimp only
    rw [hback]

theorem sendChunk_fits {chunk : Bytes} {written : Nat} {behind : Option (List Bytes)}
    (hfits : Fits held closed initial client relay)
    (hphase : relay.phase = .sending chunk written behind)
    (hwrite : relay.sendChunk chunk written n behind = some after) :
    Fits held closed initial client after := by
  have hsound := hfits.sound
  rw [hphase] at hsound
  obtain ⟨hwritten, hforward, hback⟩ := hsound
  rw [Relay.sendChunk, if_pos hwritten] at hwrite
  refine writeUpstream_fits hfits hwrite fun hn => ?_
  rw [List.length_drop] at hn
  refine ⟨by omega, ?_, hback⟩
  dsimp only
  rw [← hforward, List.append_assoc, ← List.append_assoc (List.take _ _), ← List.drop_drop,
    List.take_append_drop]

theorem copyStep_fits (hloop : Documented loop held closed) {copy : σ} {event : Event}
    (hfits : Fits held closed initial client relay) (hphase : relay.phase = .copying copy)
    (hstep : relay.copyStep loop copy event = some after) :
    Fits held closed initial client after := by
  have hsound := hfits.sound
  rw [hphase] at hsound
  obtain ⟨hforward, hback, hclient, hupstream⟩ := hsound
  have hroom : ¬ copyLen = 0 := by decide
  cases event with
  | readClient n =>
      obtain ⟨next, hread, hflow⟩ := Option.bind_eq_some_iff.mp hstep
      obtain ⟨hheld, hother, hclosed, hlistens⟩ := hloop.read hread
      rw [Side.other_client] at hother hlistens
      refine readClient_fits hfits hflow fun chunk rest _ hend hchunk => ?_
      rw [← hchunk] at hheld hclosed
      refine ⟨?_, ?_, fun h => ?_, fun h => hupstream (hlistens h)⟩
      · dsimp only
        rw [hheld, ← List.append_assoc, hforward]
      · dsimp only
        rw [hother, hback]
      · obtain hbefore | hnil := hclosed h
        · rw [hclient hbefore, List.take_nil] at hchunk
          exact (hend hchunk).resolve_right hroom
        · exact (hend hnil).resolve_right hroom
  | readUpstream n =>
      obtain ⟨next, hread, hflow⟩ := Option.bind_eq_some_iff.mp hstep
      obtain ⟨hheld, hother, hclosed, hlistens⟩ := hloop.read hread
      rw [Side.other_upstream] at hother hlistens
      refine readUpstream_fits hfits hflow fun chunk rest _ hend hchunk => ?_
      rw [← hchunk] at hheld hclosed
      refine ⟨?_, ?_, fun h => hclient (hlistens h), fun h => ?_⟩
      · dsimp only
        rw [hother, hforward]
      · dsimp only
        rw [hheld, ← List.append_assoc, hback]
      · obtain hbefore | hnil := hclosed h
        · rw [hupstream hbefore, List.take_nil] at hchunk
          exact (hend hchunk).resolve_right hroom
        · exact (hend hnil).resolve_right hroom
  | wroteClient n =>
      obtain ⟨⟨bytes, next⟩, hwrite, hflow⟩ := Option.map_eq_some_iff.mp hstep
      obtain ⟨hheld, hother, hclosed⟩ := hloop.write hwrite
      rw [Side.other_client] at hheld
      obtain rfl := hflow
      refine ⟨hfits.consumed, hfits.heard, ?_, ?_, fun h => hclient (hclosed _ h),
        fun h => hupstream (hclosed _ h)⟩
      · dsimp only
        rw [hother]
        exact hforward
      · dsimp only
        rw [List.append_assoc, ← hheld]
        exact hback
  | wroteUpstream n =>
      obtain ⟨⟨bytes, next⟩, hwrite, hflow⟩ := Option.map_eq_some_iff.mp hstep
      obtain ⟨hheld, hother, hclosed⟩ := hloop.write hwrite
      rw [Side.other_upstream] at hheld
      obtain rfl := hflow
      refine ⟨hfits.consumed, hfits.heard, ?_, ?_, fun h => hclient (hclosed _ h),
        fun h => hupstream (hclosed _ h)⟩
      · dsimp only
        rw [List.append_assoc, ← hheld]
        exact hforward
      · dsimp only
        rw [hother]
        exact hback
  | finished =>
      rw [Relay.copyStep] at hstep
      split at hstep
      · rename_i hfinished
        obtain rfl := Option.some.inj hstep
        obtain ⟨hnone, hread⟩ := hloop.finished hfinished .client
        obtain ⟨hempty, hheard⟩ := hloop.finished hfinished .upstream
        rw [hnone, List.append_nil] at hforward
        rw [hempty, List.append_nil] at hback
        exact goOn_fits hfits ⟨hforward ▸ List.prefix_rfl, hback ▸ List.prefix_rfl,
          fun _ => ⟨hforward, hback, hclient hread, hupstream hheard⟩⟩
      · cases hstep
  | flushed => cases hstep
  | elapsed => cases hstep
  | dialed spoken => cases hstep
  | lostUpstream => cases hstep
  | stopped how => cases hstep

theorem greet_fits (hloop : Documented loop held closed)
    (hfits : Fits held closed initial client relay) (hphase : relay.phase = .greeting)
    (hread : relay.readUpstream tmpLen n (fun banner =>
      if banner.isEmpty then .peek (readRecoveryPrefix [])
      else .sliceTo tmpLen banner.length (.replay loop spec banner)) = some after) :
    Fits held closed initial client after := by
  have hsound := hfits.sound
  rw [hphase] at hsound
  obtain ⟨⟨hunsent, hundelivered, hunheard⟩, htaken⟩ := hsound
  refine readUpstream_fits hfits hread fun banner rest hbanner _ _ => ?_
  split
  · rename_i hempty
    rw [htaken]
    refine peek_sound ⟨hunsent, hundelivered, ?_⟩ (Nat.zero_le _)
    dsimp only
    rw [hunheard, List.isEmpty_iff.mp hempty, List.append_nil]
  · rw [sliceTo_of_le hbanner]
    refine replay_sound hloop htaken hunsent ?_
    dsimp only
    rw [hundelivered, hunheard]

theorem proceed_fits (hloop : Documented loop held closed) {event : Event}
    (hfits : Fits held closed initial client relay)
    (hstep : relay.proceed loop spec event = some after) :
    Fits held closed initial client after := by
  have hsound := hfits.sound
  unfold Relay.proceed at hstep
  cases hphase : relay.phase with
  | peeking prog =>
      simp only [hphase] at hstep
      split at hstep
      · exact peeking_fits hfits hphase hstep
      · cases hstep
  | grace =>
      simp only [hphase] at hstep hsound
      split at hstep
      · exact first_fits hfits hsound.1 hsound.2 hstep
      · obtain rfl := Option.some.inj hstep
        exact goOn_fits hfits hsound
      · cases hstep
  | dialing =>
      simp only [hphase] at hstep hsound
      obtain ⟨hfresh, htaken⟩ := hsound
      split at hstep
      · exact first_fits hfits hfresh htaken hstep
      · obtain rfl := Option.some.inj hstep
        exact peekAgain_fits hfits hfresh htaken
      · obtain rfl := Option.some.inj hstep
        exact connect_fits hfits _ ⟨⟨hfresh.unsent, hfresh.undelivered, rfl⟩, htaken⟩
      · cases hstep
  | greeting =>
      simp only [hphase] at hstep hsound
      obtain ⟨hagain, hfresh⟩ := hangUp_fits hfits hsound.1 hsound.2 hphase
      split at hstep
      · exact first_fits hagain hfresh hsound.2 hstep
      · exact greet_fits hloop hfits hphase hstep
      · obtain rfl := Option.some.inj hstep
        exact peekAgain_fits hagain hfresh hsound.2
      · cases hstep
  | connecting kept =>
      simp only [hphase] at hstep hsound
      obtain ⟨hfresh, rfl, hsize⟩ := hsound
      split at hstep
      · obtain rfl := Option.some.inj hstep
        refine goOn_fits hfits ⟨?_, ?_, nofun⟩
        · exact hfresh.unsent ▸ List.nil_prefix
        · exact hfresh.undelivered ▸ List.nil_prefix
      · obtain rfl := Option.some.inj hstep
        exact connect_fits hfits _
          (preparePayload_sound hloop hsize hfresh.unsent hfresh.undelivered)
      · cases hstep
  | replaying rest =>
      simp only [hphase] at hstep hsound
      obtain ⟨hunsent, htaken, hback⟩ := hsound
      split at hstep
      · refine writeClient_fits hfits hstep (replay_sound hloop htaken hunsent ?_)
        dsimp only
        rw [List.append_assoc, List.take_append_drop, hback]
      · cases hstep
  | gathering first len =>
      simp only [hphase] at hstep
      split at hstep
      · exact gatherClient_fits hloop hfits hphase hstep
      · exact gatherUpstream_fits hloop hfits hphase hstep
      · cases hstep
  | answering first len rest =>
      simp only [hphase] at hstep hsound
      obtain ⟨hgathers, hunsent, hback⟩ := hsound
      split at hstep
      · refine writeClient_fits hfits hstep (answer_sound hgathers hunsent ?_)
        dsimp only
        rw [List.append_assoc, List.take_append_drop, hback]
      · cases hstep
  | sending chunk written behind =>
      simp only [hphase] at hstep hsound
      obtain ⟨hwritten, hforward, hback⟩ := hsound
      split at hstep
      · exact sendChunk_fits hfits hphase hstep
      · split at hstep
        · rename_i hall
          obtain rfl := Option.some.inj hstep
          rw [List.drop_eq_nil_of_le hall, List.nil_append] at hforward
          exact goOn_fits hfits (sent_sound hloop hforward hback)
        · cases hstep
      · cases hstep
  | pausing behind =>
      simp only [hphase] at hstep hsound
      split at hstep
      · obtain rfl := Option.some.inj hstep
        exact goOn_fits hfits (sendChunks_sound hloop hsound.1 hsound.2)
      · cases hstep
  | copying copy =>
      simp only [hphase] at hstep
      exact copyStep_fits hloop hfits hphase hstep
  | ended how =>
      simp only [hphase] at hstep
      cases hstep
  | panicked =>
      simp only [hphase] at hstep
      cases hstep

theorem step_fits (hloop : Documented loop held closed) {event : Event}
    (hfits : Fits held closed initial client relay)
    (hstep : relay.step loop spec event = some after) :
    Fits held closed initial client after := by
  cases event with
  | stopped how =>
      rw [Relay.step] at hstep
      split at hstep
      · rename_i hlive
        obtain rfl := Option.some.inj hstep
        obtain ⟨hforward, hback⟩ := hfits.sound.prefixes
        rw [Bool.and_eq_true, bne_iff_ne] at hlive
        exact goOn_fits hfits ⟨hforward, hback, fun heof => absurd heof hlive.2⟩
      · cases hstep
  | _ =>
      have hproceed : relay.proceed loop spec _ = some after := hstep
      exact proceed_fits hloop hfits hproceed

theorem play_fits (hloop : Documented loop held closed) (events : List Event)
    (hfits : Fits held closed initial client relay) :
    Fits held closed initial client (relay.play loop spec events) := by
  induction events generalizing relay with
  | nil => exact hfits
  | cons event events ih =>
      rw [Relay.play, List.foldl_cons]
      refine ih ?_
      cases hstep : relay.step loop spec event with
      | none => exact hfits
      | some after => exact step_fits hloop hfits hstep

end

/-! What the accept step hands over. -/

theorem readHead_pipeline (buf : Bytes) (log : Log Credentials) :
    (readHead buf).Safe (fun _ => True) (fun parts _ => parts.2.length ≤ 1024) log := by
  induction hwork : maxHeaderBytes + 1 - buf.length using Nat.strongRecOn generalizing buf log with
  | ind work ih =>
      rw [readHead]
      refine ⟨trivial, fun chunk hchunk => ?_⟩
      dsimp only
      split
      · trivial
      · rename_i hsome
        have hpos := List.length_pos_iff.mpr hsome
        split
        · split
          · exact ⟨fun _ _ => trivial, trivial⟩
          · refine ⟨trivial, ?_⟩
            dsimp only
            rw [List.length_drop, List.length_append]
            omega
        · split
          · exact ⟨fun _ _ => trivial, trivial⟩
          · rename_i hlarge
            refine ih _ ?_ _ _ rfl
            rw [List.length_append] at hlarge ⊢
            omega

theorem serveHead_keeps (base64 : Base64) (options : ServerOptions) (head pipeline : Bytes)
    (log : Log Credentials) :
    (serveHead base64 options head pipeline).Safe (fun _ => True)
      (fun request _ => request.pipeline = pipeline) log := by
  unfold serveHead
  dsimp only
  split
  · exact ⟨fun _ _ => trivial, trivial⟩
  · refine Prog.Safe.bind ((Prog.Safe.unbound _ _).mono fun _ _ _ _ => ?_)
    refine Prog.Safe.bind ((Prog.Safe.unbound _ _).mono fun _ _ _ _ => ?_)
    refine Prog.Safe.bind ((Prog.Safe.unbound _ _).mono fun _ _ _ _ => ?_)
    refine Prog.Safe.bind ((Prog.Safe.unbound _ _).mono fun _ _ _ _ => ?_)
    exact ⟨trivial, rfl⟩

theorem socks_pipeline (options : ServerOptions) (log : Log Credentials) :
    (socks options).Safe (fun _ => True) (fun request _ => request.pipeline = []) log := by
  rw [socks]
  refine Prog.Safe.bind ((Prog.Safe.unbound _ _).mono fun _ _ _ _ => ?_)
  refine Prog.Safe.bind ((Prog.Safe.unbound _ _).mono fun _ _ _ _ => ?_)
  split
  · exact ⟨fun _ _ => trivial, trivial⟩
  · refine Prog.Safe.bind ((Prog.Safe.unbound _ _).mono fun _ _ _ _ => ?_)
    rw [serveMethod]
    split
    · refine Prog.Safe.bind ((Prog.Safe.unbound _ _).mono fun _ _ _ _ => ?_)
      exact Prog.Safe.bind ((Prog.Safe.unbound _ _).mono fun _ _ _ _ => ⟨trivial, rfl⟩)
    · rw [Prog.ok_bind]
      exact Prog.Safe.bind ((Prog.Safe.unbound _ _).mono fun _ _ _ _ => ⟨trivial, rfl⟩)

theorem accept_pipeline (base64 : Base64) (options : ServerOptions) :
    (accept base64 options).Safe (fun _ => True)
      (fun request _ => request.pipeline.length ≤ 1024) Log.empty := by
  simp only [accept, Prog.readSome, Prog.read_bind, Prog.ok_bind]
  refine ⟨trivial, fun chunk _ => ?_⟩
  dsimp only
  split
  · trivial
  · split
    · refine (socks_pipeline options _).mono fun request _ _ hnone => ?_
      rw [hnone]
      exact Nat.zero_le _
    · split
      · rw [http]
        refine Prog.Safe.bind ((readHead_pipeline _ _).mono ?_)
        intro parts after _ hpipeline
        refine (serveHead_keeps base64 options parts.1 parts.2 after).mono ?_
        intro request _ _ hsame
        rw [hsame]
        exact hpipeline
      · trivial

/-! Every byte is accounted for, wherever the relay stands. -/

/-- `initial` came with the request, `client` is all that the client says afterwards. -/
structure Conserved (initial client : Bytes) (relay : Relay σ) : Prop where
  consumed : relay.fromClient ++ relay.client = client
  heard : relay.fromUpstream ++ relay.upstream = relay.spoken
  peeked : ∀ held, relay.phase = .connecting held → held = initial ++ relay.fromClient
  greeted : ∀ banner, relay.phase = .replaying banner → initial ++ relay.fromClient = []
  sent : relay.toUpstream <+: initial ++ relay.fromClient
  sentAll : relay.phase = .ended .eof → relay.toUpstream = initial ++ client
  delivered : relay.toClient <+: relay.fromUpstream
  deliveredAll : relay.phase = .ended .eof → relay.toClient = relay.spoken
  inRange : relay.phase ≠ .panicked

theorem Fits.conserved {held : σ → Side → Bytes} {closed : σ → Side → Prop}
    {initial client : Bytes} {relay : Relay σ} (hfits : Fits held closed initial client relay) :
    Conserved initial client relay := by
  obtain ⟨hconsumed, hheard, hsound⟩ := hfits
  obtain ⟨hsent, hdelivered⟩ := hsound.prefixes
  refine ⟨hconsumed, hheard, ?_, ?_, hsent, ?_, hdelivered, ?_, ?_⟩
  · intro kept hphase
    rw [hphase] at hsound
    exact hsound.2.1
  · intro banner hphase
    rw [hphase] at hsound
    exact hsound.2.1
  · intro hphase
    rw [hphase] at hsound
    obtain ⟨hall, _, hend, _⟩ := hsound.2.2 rfl
    rw [hall, ← hconsumed, hend, List.append_nil]
  · intro hphase
    rw [hphase] at hsound
    obtain ⟨_, hall, _, hend⟩ := hsound.2.2 rfl
    rw [hall, ← hheard, hend, List.append_nil]
  · intro hphase
    rw [hphase] at hsound
    exact hsound

theorem start_fits {held : σ → Side → Bytes} {closed : σ → Side → Prop} {initial : Bytes}
    (hsize : initial.length ≤ 1024) (recover : Bool) (client : Bytes) :
    Fits held closed initial client (Relay.start recover initial client : Relay σ) := by
  refine ⟨rfl, rfl, ?_⟩
  have hcap : initial.length ≤ peekMax := hsize.trans (by decide)
  have hfresh : Fresh (Relay.start recover initial client : Relay σ).toFlow := ⟨rfl, rfl, rfl⟩
  rw [show (Relay.start recover initial client : Relay σ).fromClient = [] from rfl,
    List.append_nil]
  cases recover with
  | false => exact ⟨hfresh, rfl, hcap⟩
  | true =>
      change Sound held closed initial _ (Phase.peekRecovery initial)
      rw [Phase.peekRecovery]
      split
      · rename_i hempty
        exact ⟨hfresh, List.isEmpty_iff.mp hempty⟩
      · exact peek_sound hfresh hcap

/-- No byte is lost, doubled or moved between an accepted client and its upstream. -/
theorem tunnel_conserves (base64 : Base64) (options : ServerOptions)
    {accepted : List (Foundation.Event Credentials)} {request : IncomingRequest}
    (hruns : Prog.Runs (accept base64 options) accepted (.ok request)) (loop : CopyLoop σ)
    {held : σ → Side → Bytes} {closed : σ → Side → Prop} (hloop : Documented loop held closed)
    (spec : FragmentSpec) (recover : Bool) (client : Bytes) (events : List Event) :
    Conserved request.pipeline client
      ((Relay.start recover request.pipeline client).play loop spec events) := by
  obtain ⟨_, hsize⟩ := (accept_pipeline base64 options).runs hruns
  exact (play_fits hloop events (start_fits hsize recover client)).conserved

theorem copyBidirectional_documented :
    Documented copyBidirectional (fun copy side => (copy.of side).buffer)
      (fun copy side => (copy.of side).readDone = true) where
  start := by
    intro side
    cases side with
    | client => exact ⟨rfl, Bool.false_ne_true⟩
    | upstream => exact ⟨rfl, Bool.false_ne_true⟩
  read := by
    intro copy after side chunk hread
    simp only [copyBidirectional] at hread
    split at hread
    · cases hread
    · obtain rfl := Option.some.inj hread
      rw [CopyBuffers.of_set, CopyBuffers.of_set_other]
      exact ⟨rfl, rfl, fun hempty => .inr (List.isEmpty_iff.mp hempty), id⟩
  write := by
    intro copy after side n bytes hwrite
    simp only [copyBidirectional] at hwrite
    split at hwrite
    · obtain ⟨rfl, rfl⟩ := Prod.mk.inj (Option.some.inj hwrite)
      rw [CopyBuffers.of_set, CopyBuffers.of_other_set]
      refine ⟨(List.take_append_drop _ _).symm, rfl, fun s hclosed => ?_⟩
      cases side <;> cases s <;> exact hclosed
    · cases hwrite
  finished := by
    intro copy hfinished side
    simp only [copyBidirectional, Bool.and_eq_true, List.isEmpty_iff] at hfinished
    obtain ⟨⟨⟨hclient, hnone⟩, hupstream⟩, hempty⟩ := hfinished
    cases side with
    | client => exact ⟨hnone, hclient⟩
    | upstream => exact ⟨hempty, hupstream⟩

theorem play_peeked {loop : CopyLoop σ} {spec : FragmentSpec} {initial chunk : Bytes}
    (hsome : initial ≠ []) (hopen : isDecided initial = false)
    (hdecided : isDecided (initial ++ chunk) = true) (hchunk : chunk ≠ [])
    (hwindow : chunk.length ≤ readWindow initial) (rest : Bytes) (events : List Event) :
    (Relay.start true initial (chunk ++ rest)).play loop spec
        (.readClient chunk.length :: events) =
      Relay.play loop spec { Relay.start false (initial ++ chunk) rest with fromClient := chunk }
        events := by
  have hphase : (Phase.peekRecovery initial : Phase σ) = .peek (readRecoveryPrefix initial) :=
    if_neg (by simpa using hsome)
  have hreadable : readable (readWindow initial) chunk.length (chunk ++ rest) = true := by
    simp [readable, hwindow, hchunk]
  have hwhole : initial ++ chunk ≠ [] := by simp [hchunk]
  have hend : sliceTo tmpLen chunk.length (readRecoveryPrefix (initial ++ chunk)) =
      .ok (some (initial ++ chunk)) := by
    rw [sliceTo, if_pos (hwindow.trans (Nat.min_le_right _ _)), readRecoveryPrefix_decided hdecided,
      nonEmpty, if_neg (by simpa using hwhole)]
  rw [Relay.play, List.foldl_cons, Relay.play]
  congr 1
  rw [Relay.start, if_pos rfl, hphase, readRecoveryPrefix_open hopen]
  simp only [Relay.step, Relay.proceed, Phase.peek, Relay.readClient, hreadable, if_true,
    List.take_left, List.drop_left, if_neg hchunk, hend, Option.getD_some]
  rfl

def namedRecord : Bytes := framing [⟨3, 1, namedHello, by decide⟩]

def connectHead : Bytes := lit "CONNECT 1.2.3.4:443 HTTP/1.1" ++ headerEnd

def namedRequest : IncomingRequest :=
  ⟨.http, lit "1.2.3.4:443", none, none, none, namedRecord.take 9⟩

theorem named_accepted :
    Prog.Runs (accept Base64.standard addressOptions)
      [.take [0x43], .take (connectHead.tail ++ namedRecord.take 9)] (.ok namedRequest) := by
  have hhead : Prog.Step (http Base64.standard addressOptions 0x43)
      (.take (connectHead.tail ++ namedRecord.take 9)) (.ok namedRequest) := by
    rw [http, readHead, Prog.read_bind]
    exact .read (by decide +kernel) (by decide)
  exact .cons (.read (show [(0x43 : UInt8)].length ≤ 1 by decide) (List.cons_ne_nil _ _))
    (.cons hhead (.nil _))

def namedEvents : List Event :=
  [.dialed (some (lit "ok")), .wroteUpstream 30, .wroteUpstream 10, .flushed, .elapsed,
    .wroteUpstream 26, .flushed, .elapsed, .readUpstream 2, .readClient 2, .wroteUpstream 1,
    .wroteClient 2, .readClient 0, .wroteUpstream 1, .readUpstream 0, .finished]

def namedRelay : Relay CopyBuffers :=
  (Relay.start true namedRequest.pipeline (namedRecord.drop 9 ++ lit "hi")).play copyBidirectional
    ⟨true, 40, 1⟩ (.readClient 57 :: namedEvents)

/-- The name is recovered from a hello that is then sent in fragments. -/
theorem tunnel_conserves_named :
    Conserved namedRequest.pipeline (namedRecord.drop 9 ++ lit "hi") namedRelay ∧
      namedRelay.phase.live = false ∧ namedRelay.toUpstream = namedRecord ++ lit "hi" ∧
      namedRelay.toClient = lit "ok" := by
  refine ⟨tunnel_conserves Base64.standard addressOptions named_accepted copyBidirectional
    copyBidirectional_documented ⟨true, 40, 1⟩ true _ _, ?_⟩
  have hpipeline : namedRequest.pipeline = namedRecord.take 9 := rfl
  have hrest : 57 = (namedRecord.drop 9).length := by decide
  have hplay := @play_peeked _ copyBidirectional ⟨true, 40, 1⟩ (namedRecord.take 9)
    (namedRecord.drop 9) (by decide) (by decide +kernel) (by decide +kernel) (by decide)
    (by decide +kernel) (lit "hi") namedEvents
  rw [namedRelay, hpipeline, hrest, hplay]
  decide +kernel

end Resocks5.Tunnel
