import Resocks5.Tunnel.Gathering

namespace Resocks5.Tunnel

open Resocks5.Foundation
open Resocks5.Recovery

/-! Streams that begin with a whole ClientHello. -/

/-- The records of a ClientHello up to its last byte. -/
structure CompleteHello (hello : Bytes) : Prop where
  major : hello[1]? = some 0x03
  first : ∃ record, nextRecord hello = some record ∧ record.payload ≠ []
  kind : (carried hello).head? = some 0x01
  whole : isWhole (carried hello) = true
  least : ∀ n < hello.length, isWhole (carried (hello.take n)) = false

theorem present_length (front : List Fragment) (last : Fragment) (hlast : last.payload ≠ [])
    {n : Nat} (hn : n < (framing (front ++ [last])).length) :
    (present n (front ++ [last])).length <
      ((front ++ [last]).flatMap Fragment.payload).length := by
  induction front generalizing n with
  | nil =>
      have hpos := List.length_pos_iff.mpr hlast
      rw [List.nil_append, framing_cons, List.length_append, Fragment.bytes_length] at hn
      simp only [framing, List.flatMap_nil, List.length_nil] at hn
      simp only [List.nil_append, present, List.flatMap_cons, List.flatMap_nil, List.append_nil,
        List.length_take]
      omega
  | cons fragment front ih =>
      rw [List.cons_append] at hn ⊢
      rw [framing_cons, List.length_append, Fragment.bytes_length] at hn
      rw [present, List.flatMap_cons, List.length_append, List.length_append, List.length_take]
      have hrest := @ih (n - (5 + fragment.payload.length))
      obtain hinside | hbehind := Nat.lt_or_ge n (5 + fragment.payload.length)
      · have hpos : 0 < (framing (front ++ [last])).length := by
          rw [framing, List.flatMap_append, List.length_append, List.flatMap_cons,
            List.length_append, Fragment.bytes_length]
          omega
        have hless := hrest (by omega)
        omega
      · have hless := hrest (by omega)
        omega

/-- However a ClientHello is split into records, of which the first and the last are not empty. -/
theorem framing_complete {message : Bytes} {first last : Fragment} {front rest : List Fragment}
    (hmessage : announced message = some message.length) (hkind : message.head? = some 0x01)
    (hfirst : front ++ [last] = first :: rest)
    (hsplit : (front ++ [last]).flatMap Fragment.payload = message)
    (hmajor : first.major = 0x03) (hsome : first.payload ≠ []) (hlast : last.payload ≠ []) :
    CompleteHello (framing (front ++ [last])) := by
  have hcarried := carried_framing (front ++ [last]) []
  have hnil : carried [] = [] := rfl
  rw [hnil, List.append_nil, List.append_nil, hsplit] at hcarried
  refine ⟨?_, ?_, ?_, ?_, fun n hn => ?_⟩
  · rw [hfirst, ← hmajor]
    rfl
  · rw [hfirst, framing_cons]
    refine ⟨_, rfl, ?_⟩
    dsimp only
    rw [beU16_be16 first.fits]
    have htake : (first.payload ++ framing rest).take first.payload.length = first.payload :=
      List.take_left' rfl
    exact fun hnil => hsome (htake.symm.trans hnil)
  · rw [hcarried, hkind]
  · rw [hcarried]
    exact isWhole_iff.mpr ⟨_, hmessage, Nat.le_refl _⟩
  · rw [carried_take]
    exact present_open hmessage hsplit (hsplit ▸ present_length front last hlast hn)

namespace CompleteHello

variable {hello : Bytes}

theorem signature (hhello : CompleteHello hello) :
    classifyClientHello hello = .clientHello := by
  obtain ⟨record, hnext, hsome⟩ := hhello.first
  have hkind := hhello.kind
  have hmajor := hhello.major
  have htype : isForeign hello = false := by
    rw [Bool.eq_false_iff]
    intro hforeign
    rw [carried_foreign hforeign] at hkind
    cases hkind
  unfold nextRecord at hnext
  split at hnext
  · rename_i type major minor high low rest
    obtain rfl := Option.some.inj hnext
    obtain rfl : type = handshake := by simpa [isForeign] using htype
    obtain rfl : major = 0x03 := Option.some.inj hmajor
    rw [carried_record, List.head?_append_of_ne_nil _ hsome] at hkind
    cases rest with
    | nil => exact absurd List.take_nil hsome
    | cons kind rest =>
        rw [List.head?_take] at hkind
        split at hkind
        · cases hkind
        · obtain rfl : kind = 0x01 := Option.some.inj hkind
          exact classifyClientHello_iff.mpr ⟨_, _, _, _, rfl⟩
  · cases hnext

theorem length (hhello : CompleteHello hello) : 6 ≤ hello.length := by
  obtain ⟨a, b, c, rest, heq⟩ := classifyClientHello_iff.mp hhello.signature
  rw [heq]
  simp

/-- The stream up to some place is a whole ClientHello if the place is behind it. -/
theorem complete_iff (hhello : CompleteHello hello) (more : Bytes) (n : Nat) :
    clientHelloIsComplete ((hello ++ more).take n) = decide (hello.length ≤ n) := by
  rw [clientHelloIsComplete_eq]
  by_cases hall : hello.length ≤ n
  · obtain ⟨tail, htail⟩ := carried_grows hello (more.take (n - hello.length))
    rw [List.take_append, List.take_of_length_le hall, ← htail, decide_eq_true hall,
      isWhole_append hhello.whole, head_of_isWhole hhello.whole, hhello.kind]
    rfl
  · have hpart := Nat.lt_of_not_le hall
    rw [List.take_append_of_le_length (Nat.le_of_lt hpart), hhello.least n hpart,
      decide_eq_false hall, Bool.false_and]

theorem classify (hhello : CompleteHello hello) (more : Bytes) (n : Nat) :
    classifyClientHello ((hello ++ more).take n) =
      if n < 6 then .indeterminate else .clientHello :=
  classifyClientHello_take (classifyClientHello_append hhello.signature more) n

theorem unfinished (hhello : CompleteHello hello) {spec : FragmentSpec} (hspec : spec.enabled = true)
    (more : Bytes) (n : Nat) :
    unfinishedHello spec ((hello ++ more).take n) = decide (n < hello.length) := by
  have hlength := hhello.length
  rw [unfinishedHello, hspec, Bool.true_and, hhello.classify, hhello.complete_iff]
  split
  · rename_i heq
    split at heq
    · exact (decide_eq_true (by omega)).symm
    · cases heq
  · rw [← decide_not]
    exact decide_eq_decide.mpr Nat.not_le
  · rename_i heq
    split at heq
    · cases heq
    · cases heq

theorem isGathered (hhello : CompleteHello hello) (hsize : hello.length ≤ gatherMax)
    (more : Bytes) {first : Bytes} {len n : Nat}
    (hgathers : Gathers ((hello ++ more).take len) first len) (hn : n ≠ 0) :
    Tunnel.isGathered n first len = decide (hello.length ≤ len) := by
  have hlength := hhello.length
  have hbelow := hgathers.length
  rw [isGathered_eq hgathers, hhello.classify, hhello.complete_iff, hbelow,
    beq_eq_false_iff_ne.mpr hn]
  split
  · rename_i heq
    split at heq
    · cases heq
    · cases heq
  · rename_i heq
    split at heq
    · rename_i hsix
      rw [decide_eq_false (by omega), Bool.false_or, beq_eq_false_iff_ne]
      omega
    · cases heq
  · rw [Bool.false_or]
    by_cases hfull : len = gatherMax
    · rw [hfull, decide_eq_true hsize, Bool.or_true]
    · rw [beq_eq_false_iff_ne.mpr hfull, Bool.false_or]

end CompleteHello

end Resocks5.Tunnel
