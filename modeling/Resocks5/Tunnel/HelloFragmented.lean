import Resocks5.Tunnel.CompleteHello
import Resocks5.Tunnel.SendProgress

namespace Resocks5.Tunnel

open Resocks5.Foundation
open Resocks5.Recovery

/-! However a ClientHello arrives, all of it goes out in fragments. -/

/-- The upstream does not close, and nothing is stopped. -/
def Event.calm : Event → Bool
  | stopped _ => false
  | readUpstream n => n != 0
  | _ => true

def Relay.calmStep {σ : Type} (loop : CopyLoop σ) (spec : FragmentSpec) :
    Relay σ → Event → Option (Relay σ) :=
  guarded (Relay.step loop spec) fun _ event => event.calm

def Phase.offers {σ : Type} : Phase σ → Option Bytes
  | sending chunk written _ => some (chunk.drop written)
  | _ => none

def FragmentSpec.Cut (spec : FragmentSpec) (parts : List Bytes) : Prop :=
  ∀ part ∈ parts, part.length ≤ spec.bound

def cost : List Bytes → Nat
  | [] => 0
  | part :: rest => part.length + 2 + cost rest

/-- The front of the stream is gathered, and some of the hello is still to come. -/
structure Held (hello stream : Bytes) (flow : Flow) (first : Bytes) (len : Nat) : Prop where
  gathers : Gathers (stream.take len) first len
  rest : flow.client = stream.drop len
  early : len < hello.length
  unsent : flow.toUpstream = []

def Underway {σ : Type} (spec : FragmentSpec) (hello stream : Bytes) (flow : Flow) :
    Phase σ → Prop
  | .gathering first len => Held hello stream flow first len
  | .answering first len rest => Held hello stream flow first len ∧ rest ≠ []
  | .sending chunk written (some behind) =>
    spec.Cut (chunk :: behind) ∧ written ≤ chunk.length ∧
      hello <+: flow.toUpstream ++ (chunk.drop written ++ behind.flatten)
  | .pausing behind => spec.Cut behind ∧ hello <+: flow.toUpstream ++ behind.flatten
  | _ => False

def workLeft {σ : Type} (flow : Flow) : Phase σ → Nat
  | .gathering _ _ => 3 * gatherMax + 1 + flow.client.length + 2 * flow.upstream.length
  | .answering _ _ rest =>
    3 * gatherMax + 1 + flow.client.length + 2 * flow.upstream.length + rest.length
  | .sending chunk written behind => chunk.length - written + 2 + cost (behind.getD [])
  | .pausing behind => 1 + cost behind
  | _ => 0

/-- The hello is sent, or it will be with that much work. -/
def Onward {σ : Type} (spec : FragmentSpec) (hello stream : Bytes) (flow : Flow)
    (phase : Phase σ) (work : Nat) : Prop :=
  hello <+: flow.toUpstream ∨
    Underway spec hello stream flow phase ∧ workLeft flow phase ≤ work

def Relay.Sends {σ : Type} (spec : FragmentSpec) (hello stream : Bytes) (relay : Relay σ) : Prop :=
  hello <+: relay.toUpstream ∨ Underway spec hello stream relay.toFlow relay.phase

theorem chunks_bound {size fuel : Nat} {data : Bytes} :
    ∀ part ∈ chunks size fuel data, part.length ≤ size := by
  induction fuel generalizing data with
  | zero => exact nofun
  | succ fuel ih =>
      by_cases hne : data = []
      · subst hne
        exact nofun
      · rw [chunks_cons fuel hne]
        intro part hpart
        cases hpart with
        | head => exact List.length_take_le _ _
        | tail _ hpart => exact ih part hpart

theorem chunks_cost {size fuel : Nat} (hsize : 0 < size) (data : Bytes) :
    cost (chunks size fuel data) ≤ 3 * data.length := by
  induction fuel generalizing data with
  | zero => exact Nat.zero_le _
  | succ fuel ih =>
      by_cases hne : data = []
      · subst hne
        exact Nat.zero_le _
      · have hpos := List.length_pos_iff.mpr hne
        have hrest := ih (data.drop size)
        rw [chunks_cons fuel hne, cost, List.length_take]
        rw [List.length_drop] at hrest
        omega

section

variable {σ : Type} {loop : CopyLoop σ} {spec : FragmentSpec} {hello stream : Bytes}
  {flow : Flow}

theorem Onward.mono {phase : Phase σ} {work more : Nat}
    (honward : Onward spec hello stream flow phase work) (hle : work ≤ more) :
    Onward spec hello stream flow phase more :=
  honward.imp_right fun hunderway => ⟨hunderway.1, hunderway.2.trans hle⟩

theorem sendChunks_onward {parts : List Bytes} (hcut : spec.Cut parts)
    (hsends : hello <+: flow.toUpstream ++ parts.flatten) :
    Onward spec hello stream flow (.sendChunks loop parts) (cost parts) := by
  cases parts with
  | nil =>
      left
      rwa [List.flatten_nil, List.append_nil] at hsends
  | cons chunk behind => exact .inr ⟨⟨hcut, Nat.zero_le _, hsends⟩, Nat.le_refl _⟩

theorem sent_onward {behind : List Bytes} (hcut : spec.Cut behind)
    (hsends : hello <+: flow.toUpstream ++ behind.flatten) :
    Onward spec hello stream flow (.sent loop spec (some behind)) (1 + cost behind) := by
  rw [Phase.sent]
  split
  · exact .inr ⟨⟨hcut, hsends⟩, Nat.le_refl _⟩
  · exact (sendChunks_onward hcut hsends).mono (Nat.le_add_left _ _)

theorem sendPossiblyFragmented_onward (hspec : spec.enabled = true) {data : Bytes}
    (hhello : classifyClientHello data = .clientHello) (hsends : hello <+: data)
    (hunsent : flow.toUpstream = []) :
    Onward spec hello stream flow (.sendPossiblyFragmented loop spec data)
      (3 * data.length) := by
  have hpos : 0 < max spec.fragmentSize 1 := by omega
  rw [Phase.sendPossiblyFragmented, FragmentSpec.parts, hspec, isTlsClientHello, hhello]
  simp only [beq_self_eq_true, Bool.and_self, if_true]
  have hparts : Onward spec hello stream flow
      (.sendChunks loop (chunks (max spec.fragmentSize 1) data.length data))
      (cost (chunks (max spec.fragmentSize 1) data.length data)) := by
    refine sendChunks_onward ?_ ?_
    · rw [FragmentSpec.Cut, FragmentSpec.bound, Nat.max_comm]
      exact chunks_bound
    · rwa [hunsent, List.nil_append, chunks_flatten hpos (Nat.le_refl _)]
  exact hparts.mono (chunks_cost hpos data)

end

/-! One step. -/

section

variable {σ : Type} {loop : CopyLoop σ} {spec : FragmentSpec} {relay after : Relay σ}

/-- A step writes what it offers, or nothing; the copy loop writes what it likes. -/
inductive Writes (relay after : Relay σ) : Prop
  | none (hsame : after.toUpstream = relay.toUpstream)
  | offered {offered : Bytes} (n : Nat) (hoffers : relay.phase.offers = some offered)
      (hwrites : after.toUpstream = relay.toUpstream ++ offered.take n)
  | copied {copy : σ} (bytes : Bytes) (hphase : relay.phase = .copying copy)
      (hwrites : after.toUpstream = relay.toUpstream ++ bytes)

theorem Writes.grows (hwrites : Writes relay after) : relay.toUpstream <+: after.toUpstream := by
  cases hwrites with
  | none hsame => rw [hsame]
  | offered n _ hwrites => exact ⟨_, hwrites.symm⟩
  | copied bytes _ hwrites => exact ⟨_, hwrites.symm⟩

theorem readClient_unsent {max n : Nat} {next : Bytes → Phase σ}
    (hread : relay.readClient max n next = some after) :
    after.toUpstream = relay.toUpstream := by
  rw [Relay.readClient] at hread
  split at hread
  · exact (Option.some.inj hread) ▸ rfl
  · cases hread

theorem readUpstream_unsent {max n : Nat} {next : Bytes → Phase σ}
    (hread : relay.readUpstream max n next = some after) :
    after.toUpstream = relay.toUpstream := by
  rw [Relay.readUpstream] at hread
  split at hread
  · exact (Option.some.inj hread) ▸ rfl
  · cases hread

theorem writeClient_unsent {n : Nat} {bytes : Bytes} {next : Phase σ}
    (hwrite : relay.writeClient n bytes next = some after) :
    after.toUpstream = relay.toUpstream := by
  rw [Relay.writeClient] at hwrite
  split at hwrite
  · exact (Option.some.inj hwrite) ▸ rfl
  · cases hwrite

theorem goOn_unsent {next : Phase σ} (hstep : some (relay.goOn next) = some after) :
    after.toUpstream = relay.toUpstream :=
  (Option.some.inj hstep) ▸ rfl

theorem copyStep_writes {copy : σ} {event : Event} (hphase : relay.phase = .copying copy)
    (hstep : relay.copyStep loop copy event = some after) : Writes relay after := by
  cases event with
  | readClient n =>
      obtain ⟨copy', _, hread⟩ := Option.bind_eq_some_iff.mp hstep
      exact .none (readClient_unsent hread)
  | readUpstream n =>
      obtain ⟨copy', _, hread⟩ := Option.bind_eq_some_iff.mp hstep
      exact .none (readUpstream_unsent hread)
  | wroteClient n =>
      obtain ⟨⟨bytes, copy'⟩, _, rfl⟩ := Option.map_eq_some_iff.mp hstep
      exact .none rfl
  | wroteUpstream n =>
      obtain ⟨⟨bytes, copy'⟩, _, rfl⟩ := Option.map_eq_some_iff.mp hstep
      exact .copied bytes hphase rfl
  | finished =>
      rw [Relay.copyStep] at hstep
      split at hstep
      · exact .none (goOn_unsent hstep)
      · cases hstep
  | flushed => cases hstep
  | elapsed => cases hstep
  | dialed spoken => cases hstep
  | lostUpstream => cases hstep
  | stopped how => cases hstep

theorem proceed_writes {event : Event} (hstep : relay.proceed loop spec event = some after) :
    Writes relay after := by
  unfold Relay.proceed at hstep
  cases hphase : relay.phase with
  | peeking prog =>
      simp only [hphase] at hstep
      split at hstep
      · exact .none (readClient_unsent hstep)
      · cases hstep
  | grace =>
      simp only [hphase] at hstep
      split at hstep
      · exact .none (readClient_unsent hstep)
      · exact .none (goOn_unsent hstep)
      · cases hstep
  | dialing =>
      simp only [hphase] at hstep
      split at hstep
      · exact .none (readClient_unsent hstep)
      · exact .none (goOn_unsent hstep)
      · exact .none ((Option.some.inj hstep) ▸ rfl)
      · cases hstep
  | greeting =>
      simp only [hphase] at hstep
      split at hstep
      · have hsame := readClient_unsent hstep
        exact .none hsame
      · exact .none (readUpstream_unsent hstep)
      · exact .none ((Option.some.inj hstep) ▸ rfl)
      · cases hstep
  | connecting held =>
      simp only [hphase] at hstep
      split at hstep
      · exact .none (goOn_unsent hstep)
      · exact .none ((Option.some.inj hstep) ▸ rfl)
      · cases hstep
  | replaying rest =>
      simp only [hphase] at hstep
      split at hstep
      · exact .none (writeClient_unsent hstep)
      · cases hstep
  | gathering first len =>
      simp only [hphase] at hstep
      split at hstep
      · rw [Relay.gatherClient] at hstep
        split at hstep
        · exact .none (readClient_unsent hstep)
        · exact .none (goOn_unsent hstep)
      · exact .none (readUpstream_unsent hstep)
      · cases hstep
  | answering first len rest =>
      simp only [hphase] at hstep
      split at hstep
      · exact .none (writeClient_unsent hstep)
      · cases hstep
  | sending chunk written behind =>
      simp only [hphase] at hstep
      split at hstep
      · rename_i n
        rw [Relay.sendChunk] at hstep
        split at hstep
        · rw [Relay.writeUpstream] at hstep
          split at hstep
          · refine .offered n (congrArg Phase.offers hphase) ?_
            exact (Option.some.inj hstep) ▸ rfl
          · cases hstep
        · exact .none (goOn_unsent hstep)
      · split at hstep
        · exact .none (goOn_unsent hstep)
        · cases hstep
      · cases hstep
  | pausing behind =>
      simp only [hphase] at hstep
      split at hstep
      · exact .none (goOn_unsent hstep)
      · cases hstep
  | copying copy =>
      simp only [hphase] at hstep
      exact copyStep_writes hphase hstep
  | ended how =>
      simp only [hphase] at hstep
      cases hstep
  | panicked =>
      simp only [hphase] at hstep
      cases hstep

theorem step_writes {event : Event} (hstep : relay.step loop spec event = some after) :
    Writes relay after := by
  cases event with
  | stopped how =>
      rw [Relay.step] at hstep
      split at hstep
      · exact .none (goOn_unsent hstep)
      · cases hstep
  | _ =>
      have hproceed : relay.proceed loop spec _ = some after := hstep
      exact proceed_writes hproceed

end

section

variable {σ : Type} {loop : CopyLoop σ} {spec : FragmentSpec} {hello more : Bytes}
  {relay after : Relay σ} {n : Nat}

theorem gatherClient_onward (hspec : spec.enabled = true) (hhello : CompleteHello hello)
    (hsize : hello.length ≤ gatherMax) {first : Bytes} {len : Nat}
    (hheld : Held hello (hello ++ more) relay.toFlow first len)
    (hread : relay.gatherClient loop spec first len n = some after) :
    ∃ work < workLeft relay.toFlow (Phase.gathering first len : Phase σ),
      Onward spec hello (hello ++ more) after.toFlow after.phase work := by
  obtain ⟨hgathers, hrest, hearly, hunsent⟩ := hheld
  obtain ⟨hreadable, first', len', hgathers', rfl⟩ := gatherClient_cases hgathers hread
  obtain ⟨_, hlength, hsome⟩ := readable_iff.mp hreadable
  have hn : n ≠ 0 := by
    refine hsome.resolve_right ?_
    rintro (hend | hroom)
    · rw [hrest, List.drop_eq_nil_iff, List.length_append] at hend
      omega
    · omega
  have hstream : (hello ++ more).take len ++ relay.client.take n =
      (hello ++ more).take (len + n) := by
    rw [hrest, List.take_add]
  have hlen' : len' = len + n := by
    have hgathered := hgathers'.length
    have hbefore := hgathers.length
    rw [List.length_append, hbefore, List.length_take, Nat.min_eq_left hlength] at hgathered
    exact hgathered.symm
  subst hlen'
  rw [hstream] at hgathers'
  simp only [hhello.isGathered hsize more hgathers' hn, decide_eq_true_eq]
  split
  · rename_i hall
    have hdata := hgathers'.length
    have hsignature := hhello.classify more (len + n)
    have hlong := hhello.length
    rw [if_neg (by omega)] at hsignature
    refine ⟨3 * (len + n), ?_, ?_⟩
    · have hfits := hgathers'.fits
      simp only [workLeft]
      omega
    · have hnonempty : (hello ++ more).take (len + n) ≠ [] := by
        rw [ne_eq, ← List.length_eq_zero_iff, hdata]
        omega
      have hfront : hello <+: (hello ++ more).take (len + n) := by
        rw [List.take_append, List.take_of_length_le hall]
        exact List.prefix_append _ _
      rw [gathered_eq hgathers' hnonempty]
      have hcost : 3 * ((hello ++ more).take (len + n)).length ≤ 3 * (len + n) := by rw [hdata]
      refine (sendPossiblyFragmented_onward hspec hsignature hfront ?_).mono hcost
      exact hunsent
  · rename_i hpart
    refine ⟨_, ?_, .inr ⟨⟨hgathers', ?_, Nat.lt_of_not_le hpart, hunsent⟩, Nat.le_refl _⟩⟩
    · simp only [workLeft, List.length_drop]
      omega
    · dsimp only
      rw [hrest, List.drop_drop]

theorem gatherUpstream_onward {first : Bytes} {len : Nat}
    (hheld : Held hello (hello ++ more) relay.toFlow first len) (hn : n ≠ 0)
    (hread : relay.gatherUpstream loop spec first len n = some after) :
    ∃ work < workLeft relay.toFlow (Phase.gathering first len : Phase σ),
      Onward spec hello (hello ++ more) after.toFlow after.phase work := by
  obtain ⟨hreadable, rfl⟩ := gatherUpstream_cases hread
  obtain ⟨_, hlength, _⟩ := readable_iff.mp hreadable
  have htake : (relay.upstream.take n).length = n := by
    rw [List.length_take, Nat.min_eq_left hlength]
  have hsome : relay.upstream.take n ≠ [] := by
    rw [ne_eq, ← List.length_eq_zero_iff, htake]
    exact hn
  dsimp only
  rw [if_neg (by rwa [List.isEmpty_iff])]
  refine ⟨_, ?_, .inr ⟨⟨⟨hheld.gathers, hheld.rest, hheld.early, hheld.unsent⟩, hsome⟩,
    Nat.le_refl _⟩⟩
  simp only [workLeft, List.length_drop, htake]
  omega

theorem answer_onward {first rest : Bytes} {len : Nat}
    (hheld : Held hello (hello ++ more) relay.toFlow first len)
    (hwrite : relay.writeClient n rest (.answer first len (rest.drop n)) = some after) :
    ∃ work < workLeft relay.toFlow (Phase.answering first len rest : Phase σ),
      Onward spec hello (hello ++ more) after.toFlow after.phase work := by
  rw [Relay.writeClient] at hwrite
  split at hwrite
  · rename_i hwritable
    simp only [writable, Bool.and_eq_true, decide_eq_true_eq] at hwritable
    obtain rfl := Option.some.inj hwrite
    obtain ⟨hgathers, hclient, hearly, hunsent⟩ := hheld
    dsimp only
    rw [Phase.answer]
    split
    · refine ⟨_, ?_, .inr ⟨⟨hgathers, hclient, hearly, hunsent⟩, Nat.le_refl _⟩⟩
      simp only [workLeft]
      omega
    · rename_i hsome
      refine ⟨_, ?_, .inr ⟨⟨⟨hgathers, hclient, hearly, hunsent⟩, ?_⟩, Nat.le_refl _⟩⟩
      · simp only [workLeft, List.length_drop]
        omega
      · rwa [List.isEmpty_iff] at hsome
  · cases hwrite

theorem sendChunk_onward {chunk : Bytes} {written : Nat} {behind : List Bytes}
    {stream : Bytes} (hcut : spec.Cut (chunk :: behind)) (hwritten : written ≤ chunk.length)
    (hsends : hello <+: relay.toUpstream ++ (chunk.drop written ++ behind.flatten))
    (hwrite : relay.sendChunk chunk written n (some behind) = some after) :
    ∃ work < workLeft relay.toFlow (Phase.sending chunk written (some behind) : Phase σ),
      Onward spec hello stream after.toFlow after.phase work := by
  rw [Relay.sendChunk, if_pos hwritten, Relay.writeUpstream] at hwrite
  split at hwrite
  · rename_i hwritable
    simp only [writable, Bool.and_eq_true, decide_eq_true_eq, List.length_drop] at hwritable
    obtain rfl := Option.some.inj hwrite
    refine ⟨_, ?_, .inr ⟨⟨hcut, ?_, ?_⟩, Nat.le_refl _⟩⟩
    · simp only [workLeft]
      omega
    · omega
    · dsimp only
      rwa [← List.drop_drop, List.append_assoc, ← List.append_assoc (List.take _ _),
        List.take_append_drop]
  · cases hwrite

/-- A calm step comes nearer to the end of the hello. -/
theorem underway_step (hspec : spec.enabled = true) (hhello : CompleteHello hello)
    (hsize : hello.length ≤ gatherMax)
    (hunderway : Underway spec hello (hello ++ more) relay.toFlow relay.phase) {event : Event}
    (hcalm : event.calm = true) (hstep : relay.step loop spec event = some after) :
    ∃ work < workLeft relay.toFlow relay.phase,
      Onward spec hello (hello ++ more) after.toFlow after.phase work := by
  have hproceed : relay.proceed loop spec event = some after := by
    cases event with
    | stopped how => cases hcalm
    | _ => exact hstep
  unfold Relay.proceed at hproceed
  cases hphase : relay.phase with
  | gathering first len =>
      rw [hphase] at hunderway
      simp only [hphase] at hproceed
      split at hproceed
      · exact gatherClient_onward hspec hhello hsize hunderway hproceed
      · have hn := bne_iff_ne.mp hcalm
        exact gatherUpstream_onward hunderway hn hproceed
      · cases hproceed
  | answering first len rest =>
      rw [hphase] at hunderway
      simp only [hphase] at hproceed
      split at hproceed
      · exact answer_onward hunderway.1 hproceed
      · cases hproceed
  | sending chunk written behind =>
      rw [hphase] at hunderway
      cases behind with
      | none => exact hunderway.elim
      | some behind =>
          obtain ⟨hcut, hwritten, hsends⟩ := hunderway
          simp only [hphase] at hproceed
          split at hproceed
          · exact sendChunk_onward hcut hwritten hsends hproceed
          · split at hproceed
            · rename_i hall
              obtain rfl := Option.some.inj hproceed
              rw [List.drop_eq_nil_of_le hall, List.nil_append] at hsends
              refine ⟨1 + cost behind, ?_, sent_onward ?_ hsends⟩
              · simp only [workLeft, Option.getD_some]
                omega
              · exact fun part hpart => hcut part (List.mem_cons_of_mem _ hpart)
            · cases hproceed
          · cases hproceed
  | pausing behind =>
      rw [hphase] at hunderway
      obtain ⟨hcut, hsends⟩ := hunderway
      simp only [hphase] at hproceed
      split at hproceed
      · obtain rfl := Option.some.inj hproceed
        refine ⟨cost behind, ?_, sendChunks_onward hcut hsends⟩
        simp only [workLeft]
        omega
      · cases hproceed
  | peeking prog => exact (hphase ▸ hunderway).elim
  | grace => exact (hphase ▸ hunderway).elim
  | dialing => exact (hphase ▸ hunderway).elim
  | greeting => exact (hphase ▸ hunderway).elim
  | connecting held => exact (hphase ▸ hunderway).elim
  | replaying rest => exact (hphase ▸ hunderway).elim
  | copying copy => exact (hphase ▸ hunderway).elim
  | ended how => exact (hphase ▸ hunderway).elim
  | panicked => exact (hphase ▸ hunderway).elim

theorem underway_live (hsize : hello.length ≤ gatherMax)
    (hunderway : Underway spec hello (hello ++ more) relay.toFlow relay.phase) :
    ∃ next event, relay.calmStep loop spec event = some next := by
  have hcalm (event : Event) (hcalm : event.calm = true)
      (hstep : (relay.proceed loop spec event).isSome = true)
      (hgoes : ∀ how, event ≠ .stopped how) :
      ∃ next event, relay.calmStep loop spec event = some next := by
    obtain ⟨next, hstep⟩ := Option.isSome_iff_exists.mp hstep
    refine ⟨next, event, guarded_eq_some.mpr ⟨hcalm, ?_⟩⟩
    cases event with
    | stopped how => exact absurd rfl (hgoes how)
    | _ => exact hstep
  have hsend {stream : Bytes} (hsome : stream ≠ []) : writable 1 stream = true := by
    rw [writable, Bool.and_eq_true]
    exact ⟨rfl, decide_eq_true (List.length_pos_iff.mpr hsome)⟩
  cases hphase : relay.phase with
  | gathering first len =>
      rw [hphase] at hunderway
      obtain ⟨hgathers, hrest, hearly, _⟩ := hunderway
      have hfits : len ≤ first.length := hgathers.fits.trans (Nat.le_of_eq hgathers.capacity.symm)
      have hreadable : readable (first.length - len) 1 relay.client = true := by
        refine readable_iff.mpr ⟨?_, ?_, .inl Nat.one_ne_zero⟩
        · rw [hgathers.capacity]
          omega
        · rw [hrest, List.length_drop, List.length_append]
          omega
      refine hcalm (.readClient 1) rfl ?_ fun how hsame => by cases hsame
      unfold Relay.proceed
      simp only [hphase]
      rw [Relay.gatherClient, if_pos hfits, Relay.readClient, if_pos hreadable]
      rfl
  | answering first len rest =>
      rw [hphase] at hunderway
      refine hcalm (.wroteClient 1) rfl ?_ fun how hsame => by cases hsame
      unfold Relay.proceed
      simp only [hphase]
      rw [Relay.writeClient, if_pos (hsend hunderway.2)]
      rfl
  | sending chunk written behind =>
      rw [hphase] at hunderway
      cases behind with
      | none => exact hunderway.elim
      | some behind =>
          obtain ⟨_, hwritten, _⟩ := hunderway
          obtain hall | hpart := Nat.eq_or_lt_of_le hwritten
          · refine hcalm .flushed rfl ?_ fun how hsame => by cases hsame
            unfold Relay.proceed
            simp only [hphase]
            rw [if_pos (Nat.le_of_eq hall.symm)]
            rfl
          · refine hcalm (.wroteUpstream 1) rfl ?_ fun how hsame => by cases hsame
            unfold Relay.proceed
            simp only [hphase]
            have hrest : chunk.drop written ≠ [] := by
              rw [ne_eq, List.drop_eq_nil_iff]
              omega
            rw [Relay.sendChunk, if_pos hwritten, Relay.writeUpstream, if_pos (hsend hrest)]
            rfl
  | pausing behind =>
      refine hcalm .elapsed rfl ?_ fun how hsame => by cases hsame
      unfold Relay.proceed
      simp only [hphase]
      rfl
  | peeking prog => exact (hphase ▸ hunderway).elim
  | grace => exact (hphase ▸ hunderway).elim
  | dialing => exact (hphase ▸ hunderway).elim
  | greeting => exact (hphase ▸ hunderway).elim
  | connecting held => exact (hphase ▸ hunderway).elim
  | replaying rest => exact (hphase ▸ hunderway).elim
  | copying copy => exact (hphase ▸ hunderway).elim
  | ended how => exact (hphase ▸ hunderway).elim
  | panicked => exact (hphase ▸ hunderway).elim

theorem calmStep_keeps (hspec : spec.enabled = true) (hhello : CompleteHello hello)
    (hsize : hello.length ≤ gatherMax) {event : Event}
    (hstep : relay.calmStep loop spec event = some after)
    (hsends : relay.Sends spec hello (hello ++ more)) :
    after.Sends spec hello (hello ++ more) := by
  obtain ⟨hcalm, hstep⟩ := guarded_eq_some.mp hstep
  obtain hdone | hunderway := hsends
  · exact .inl (hdone.trans (step_writes hstep).grows)
  · obtain ⟨_, _, honward⟩ := underway_step hspec hhello hsize hunderway hcalm hstep
    exact honward.imp_right And.left

theorem preparePayload_onward (hspec : spec.enabled = true) (hhello : CompleteHello hello)
    (hsize : hello.length ≤ gatherMax) {initial : Bytes} {flow : Flow}
    (hstream : initial ++ flow.client = hello ++ more) (hunsent : flow.toUpstream = []) :
    ∃ work, Onward spec hello (hello ++ more) flow (.preparePayload loop spec initial) work := by
  have hlong := hhello.length
  have hinitial : initial = (hello ++ more).take initial.length := by
    rw [← hstream, List.take_left' rfl]
  have hunfinished := hhello.unfinished hspec more initial.length
  rw [← hinitial] at hunfinished
  rw [Phase.preparePayload, hunfinished, hspec]
  obtain hpart | hall := Nat.lt_or_ge initial.length hello.length
  · rw [decide_eq_true hpart, Bool.not_true, Bool.and_false, if_neg Bool.false_ne_true,
      if_neg Bool.false_ne_true]
    refine ⟨_, .inr ⟨⟨?_, ?_, hpart, hunsent⟩, Nat.le_refl _⟩⟩
    · rw [← hinitial]
      exact gathers_resize (Nat.le_of_lt (Nat.lt_of_lt_of_le hpart hsize))
    · rw [← hstream, List.drop_left' rfl]
  · have hsome : initial.isEmpty = false := by
      rw [List.isEmpty_eq_false_iff, ne_eq, ← List.length_eq_zero_iff]
      omega
    have hsignature := hhello.classify more initial.length
    rw [← hinitial, if_neg (by omega)] at hsignature
    rw [hsome, decide_eq_false (Nat.not_lt.mpr hall), Bool.not_false, Bool.and_self, if_pos rfl]
    refine ⟨_, sendPossiblyFragmented_onward hspec hsignature ?_ hunsent⟩
    rw [hinitial, List.take_append, List.take_of_length_le hall]
    exact List.prefix_append _ _

/-- The whole hello goes out in writes of the fragment size at most, unless the upstream closes or
the tunnel is stopped. -/
theorem hello_fragmented (loop : CopyLoop σ) {spec : FragmentSpec} (hspec : spec.enabled = true)
    {hello more initial : Bytes} (hhello : CompleteHello hello)
    (hsize : hello.length ≤ gatherMax) {relay : Relay σ}
    (hphase : relay.phase = .preparePayload loop spec initial)
    (hstream : initial ++ relay.client = hello ++ more) (hunsent : relay.toUpstream = []) :
    (∀ events last, run (Relay.calmStep loop spec) relay events = some last →
      last.toUpstream.length < hello.length →
      ∀ event after, last.step loop spec event = some after →
        after.toUpstream = last.toUpstream ∨
          ∃ offered n, last.phase.offers = some offered ∧
            offered.length ≤ max 1 spec.fragmentSize ∧
            after.toUpstream = last.toUpstream ++ offered.take n) ∧
    Inevitably (fun before after => ∃ event, Relay.calmStep loop spec before event = some after)
      (fun state => hello <+: state.toUpstream) relay := by
  obtain ⟨work, hstart⟩ : ∃ work,
      Onward spec hello (hello ++ more) relay.toFlow relay.phase work := by
    rw [hphase]
    exact preparePayload_onward hspec hhello hsize hstream hunsent
  constructor
  · intro events last hrun hpart event after hstep
    have hsends : last.Sends spec hello (hello ++ more) :=
      run_preserves (fun _ _ _ => calmStep_keeps hspec hhello hsize) hrun
        (hstart.imp_right And.left)
    have hunderway := hsends.resolve_left fun hdone =>
      Nat.not_lt.mpr hdone.length_le hpart
    cases step_writes hstep with
    | none hsame => exact .inl hsame
    | @offered offered n hoffers hwrites =>
        refine .inr ⟨offered, n, hoffers, ?_, hwrites⟩
        cases hphase : last.phase with
        | sending chunk written behind =>
            rw [hphase] at hunderway hoffers
            cases behind with
            | none => exact hunderway.elim
            | some behind =>
                obtain rfl := Option.some.inj hoffers
                have hbound := hunderway.1 chunk List.mem_cons_self
                rw [FragmentSpec.bound] at hbound
                rw [List.length_drop]
                omega
        | _ =>
            rw [hphase] at hoffers
            cases hoffers
    | copied bytes hphase _ =>
        rw [hphase] at hunderway
        exact hunderway.elim
  · obtain hdone | ⟨hunderway, _⟩ := hstart
    · exact .now hdone
    · refine Inevitably.of_measure (fun state => workLeft state.toFlow state.phase)
        (fun state hunderway => underway_live hsize hunderway) ?_ hunderway
      rintro state next hunderway ⟨event, hnext⟩
      obtain ⟨hcalm, hnext⟩ := guarded_eq_some.mp hnext
      obtain ⟨work, hless, honward⟩ := underway_step hspec hhello hsize hunderway hcalm hnext
      exact honward.imp_right fun hunderway => ⟨hunderway.1, Nat.lt_of_le_of_lt hunderway.2 hless⟩

end

theorem front_fits : [(0x01 : UInt8), 0x00].length ≤ 65535 := by decide

theorem behind_fits : [(0x00 : UInt8), 0x00].length ≤ 65535 := by decide

def splitHello : Bytes :=
  framing ([⟨0x03, 0x01, [0x01, 0x00], front_fits⟩] ++ [⟨0x03, 0x01, [0x00, 0x00], behind_fits⟩])

def splitRelay : Relay CopyBuffers where
  phase := .preparePayload copyBidirectional ⟨true, 4, 0⟩ (splitHello.take 2)
  client := splitHello.drop 2 ++ [0x17]
  spoken := []
  upstream := []
  fromClient := []
  fromUpstream := []
  toClient := []
  toUpstream := []

theorem hello_fragmented_split :
    splitRelay.toUpstream = [] ∧
    Inevitably (fun before after => ∃ event,
        Relay.calmStep copyBidirectional ⟨true, 4, 0⟩ before event = some after)
      (fun state => splitHello <+: state.toUpstream) splitRelay := by
  have hcomplete : CompleteHello splitHello :=
    framing_complete rfl rfl rfl rfl rfl (List.cons_ne_nil _ _) (List.cons_ne_nil _ _)
  have hstream : splitHello.take 2 ++ splitRelay.client = splitHello ++ [0x17] := rfl
  exact ⟨rfl, (hello_fragmented copyBidirectional rfl hcomplete (by decide) rfl hstream rfl).2⟩

end Resocks5.Tunnel
