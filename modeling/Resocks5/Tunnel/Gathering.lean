import Resocks5.Recovery.Completable
import Resocks5.Tunnel.Conservation

namespace Resocks5.Tunnel

open Resocks5.Foundation
open Resocks5.Recovery

/-! The collection of a ClientHello before anything is sent. -/

theorem classifyClientHello_iff {data : Bytes} :
    classifyClientHello data = .clientHello ↔
      ∃ a b c rest, data = 0x16 :: 0x03 :: a :: b :: c :: 0x01 :: rest := by
  constructor
  · intro hhello
    match data with
    | [] => cases hhello
    | first :: rest =>
        simp only [classifyClientHello] at hhello
        split at hhello
        · cases hhello
        · rename_i hfirst
          match rest with
          | [] => cases hhello
          | second :: rest =>
              dsimp only at hhello
              split at hhello
              · cases hhello
              · rename_i hsecond
                match rest with
                | [] => cases hhello
                | [_] => cases hhello
                | [_, _] => cases hhello
                | [_, _, _] => cases hhello
                | a :: b :: c :: kind :: rest =>
                    dsimp only at hhello
                    split at hhello
                    · rename_i hkind
                      obtain rfl := not_not.mp hfirst
                      obtain rfl := not_not.mp hsecond
                      subst hkind
                      exact ⟨a, b, c, rest, rfl⟩
                    · cases hhello
  · rintro ⟨a, b, c, rest, rfl⟩
    rfl

theorem classifyClientHello_take {whole : Bytes}
    (hhello : classifyClientHello whole = .clientHello) (n : Nat) :
    classifyClientHello (whole.take n) = if n < 6 then .indeterminate else .clientHello := by
  obtain ⟨a, b, c, rest, rfl⟩ := classifyClientHello_iff.mp hhello
  match n with
  | 0 => rfl
  | 1 => rfl
  | 2 => rfl
  | 3 => rfl
  | 4 => rfl
  | 5 => rfl
  | n + 6 => exact (if_neg (by omega)).symm

theorem classifyClientHello_append {data : Bytes}
    (hhello : classifyClientHello data = .clientHello) (more : Bytes) :
    classifyClientHello (data ++ more) = .clientHello := by
  obtain ⟨a, b, c, rest, rfl⟩ := classifyClientHello_iff.mp hhello
  rfl

theorem readable_iff {max n : Nat} {stream : Bytes} :
    readable max n stream = true ↔
      n ≤ max ∧ n ≤ stream.length ∧ (n ≠ 0 ∨ stream = [] ∨ max = 0) := by
  simp only [readable, Bool.and_eq_true, decide_eq_true_eq, Bool.or_eq_true, bne_iff_ne,
    List.isEmpty_iff, beq_iff_eq, and_assoc, or_assoc, ne_eq]

section

variable {σ : Type} {loop : CopyLoop σ} {spec : FragmentSpec} {relay after : Relay σ}
  {taken first : Bytes} {len n : Nat}

theorem gathered_eq (hgathers : Gathers taken first len) (hsome : taken ≠ []) :
    Phase.gathered loop spec first len = .sendPossiblyFragmented loop spec taken := by
  have hlen : len ≠ 0 := by
    rw [← hgathers.length]
    exact (List.length_pos_iff.mpr hsome).ne'
  rw [Phase.gathered, if_pos hlen, sliceTo_of_le, hgathers.content]
  exact hgathers.fits.trans (Nat.le_of_eq hgathers.capacity.symm)

theorem gatherClient_cases (hgathers : Gathers taken first len)
    (hread : relay.gatherClient loop spec first len n = some after) :
    readable (gatherMax - len) n relay.client = true ∧
      ∃ first' len', Gathers (taken ++ relay.client.take n) first' len' ∧
        after = { relay with
          phase := if isGathered n first' len' then .gathered loop spec first' len'
            else .gathering first' len'
          client := relay.client.drop n
          fromClient := relay.fromClient ++ relay.client.take n } := by
  have hfits : len ≤ first.length := hgathers.fits.trans (Nat.le_of_eq hgathers.capacity.symm)
  rw [Relay.gatherClient, if_pos hfits, Relay.readClient, hgathers.capacity] at hread
  split at hread
  · rename_i hreadable
    obtain ⟨hmax, hlength, _⟩ := readable_iff.mp hreadable
    have htake : (relay.client.take n).length = n := by
      rw [List.length_take]
      omega
    have hroom : len + (relay.client.take n).length ≤ gatherMax := by
      have hfull := hgathers.fits
      omega
    have hnext := hgathers.extend hroom
    refine ⟨hreadable, _, _, hnext, ?_⟩
    rw [← Option.some.inj hread]
    dsimp only
    rw [sliceTo_of_le (hnext.fits.trans (Nat.le_of_eq hnext.capacity.symm)), htake]
  · cases hread

theorem step_gathers (hphase : relay.phase = .gathering first len)
    (hgathers : Gathers taken first len)
    (hreadable : readable (gatherMax - len) n relay.client = true) :
    ∃ first' len', Gathers (taken ++ relay.client.take n) first' len' ∧
      relay.step loop spec (.readClient n) = some { relay with
        phase := if isGathered n first' len' then .gathered loop spec first' len'
          else .gathering first' len'
        client := relay.client.drop n
        fromClient := relay.fromClient ++ relay.client.take n } := by
  have hfits : len ≤ first.length := hgathers.fits.trans (Nat.le_of_eq hgathers.capacity.symm)
  obtain ⟨after, hread⟩ :
      ∃ after, relay.gatherClient loop spec first len n = some after := by
    rw [Relay.gatherClient, if_pos hfits, Relay.readClient, hgathers.capacity, if_pos hreadable]
    exact ⟨_, rfl⟩
  obtain ⟨_, first', len', hnext, rfl⟩ := gatherClient_cases hgathers hread
  refine ⟨first', len', hnext, ?_⟩
  change relay.proceed loop spec (.readClient n) = _
  unfold Relay.proceed
  simp only [hphase]
  exact hread

theorem gatherUpstream_cases
    (hread : relay.gatherUpstream loop spec first len n = some after) :
    readable replyLen n relay.upstream = true ∧
      after = { relay with
        phase := if (relay.upstream.take n).isEmpty then .gathered loop spec first len
          else .answering first len (relay.upstream.take n)
        upstream := relay.upstream.drop n
        fromUpstream := relay.fromUpstream ++ relay.upstream.take n } := by
  rw [Relay.gatherUpstream, Relay.readUpstream] at hread
  split at hread
  · rename_i hreadable
    refine ⟨hreadable, ?_⟩
    rw [← Option.some.inj hread]
    congr 1
    split
    · rfl
    · rename_i hsome
      rw [sliceTo_of_le (readable_split hreadable).1, Phase.answer, if_neg hsome]
  · cases hread

theorem isGathered_eq (hgathers : Gathers taken first len) (n : Nat) :
    isGathered n first len =
      match classifyClientHello taken with
      | .other => true
      | .indeterminate => n == 0 || taken.length == gatherMax
      | .clientHello => n == 0 || taken.length == gatherMax || clientHelloIsComplete taken := by
  have hlength := hgathers.length
  obtain ⟨hcapacity, _, rfl⟩ := hgathers
  rw [hlength, ← hcapacity]
  rfl

end

end Resocks5.Tunnel
