import Resocks5.Foundation.Bytes
import Resocks5.Foundation.Run

namespace Resocks5.Foundation

/-! Programs that look at a byte stream before they read from it. -/

/-- `exact` is `read_exact`; `short` is where it finds the end of the stream. -/
inductive PeekProg (ε α : Type) where
  | ok (value : α)
  | fail (error : ε)
  | short
  | peek (max : Nat) (next : Bytes → PeekProg ε α)
  | exact (n : Nat) (next : Bytes → PeekProg ε α)

namespace PeekProg

variable {ε α : Type}

inductive Feed : PeekProg ε α × Bytes → PeekProg ε α × Bytes → Prop
  | peek {max : Nat} {next : Bytes → PeekProg ε α} {chunk rest : Bytes} (hle : chunk.length ≤ max)
      (hchunk : chunk = [] → max = 0 ∨ rest = []) :
      Feed (.peek max next, chunk ++ rest) (next chunk, chunk ++ rest)
  | fill {n : Nat} {next : Bytes → PeekProg ε α} {chunk rest : Bytes} (hle : chunk.length ≤ n)
      (hchunk : chunk = [] → n = 0) :
      Feed (.exact n next, chunk ++ rest)
        (if chunk.length = n then next chunk
        else .exact (n - chunk.length) fun more => next (chunk ++ more), rest)
  | ended {n : Nat} {next : Bytes → PeekProg ε α} (hn : 0 < n) :
      Feed (.exact n next, []) (.short, [])

variable {goal : PeekProg ε α × Bytes → Prop}

theorem Feed.look {max : Nat} {next : Bytes → PeekProg ε α} {input : Bytes} (hmax : 0 < max)
    (hnext : ∀ chunk rest, input = chunk ++ rest → (chunk = [] → rest = []) →
      chunk.length ≤ max → Inevitably Feed goal (next chunk, input)) :
    Inevitably Feed goal (.peek max next, input) := by
  refine .later ?_ fun after hstep => ?_
  · cases input with
    | nil =>
        have hfeed : Feed (.peek max next, [] ++ []) (next [], [] ++ []) :=
          .peek (Nat.zero_le max) fun _ => .inr rfl
        exact ⟨_, hfeed⟩
    | cons b rest =>
        have hfeed : Feed (.peek max next, [b] ++ rest) (next [b], [b] ++ rest) :=
          .peek hmax fun hnil => by cases hnil
        exact ⟨_, hfeed⟩
  · cases hstep with
    | peek hle hchunk =>
        refine hnext _ _ rfl (fun hnil => ?_) hle
        exact (hchunk hnil).resolve_left (Nat.ne_of_gt hmax)

theorem Feed.readExact {next : Bytes → PeekProg ε α} (chunk : Bytes) {rest : Bytes}
    (hnext : Inevitably Feed goal (next chunk, rest)) :
    Inevitably Feed goal (.exact chunk.length next, chunk ++ rest) := by
  induction hlength : chunk.length using Nat.strongRecOn generalizing chunk next with
  | ind length ih =>
      subst hlength
      refine .later ?_ fun after hstep => ?_
      · have hfeed : Feed (.exact chunk.length next, chunk ++ rest) _ :=
          .fill (Nat.le_refl _) List.length_eq_zero_iff.mpr
        exact ⟨_, hfeed⟩
      · generalize hinput : chunk ++ rest = input at hstep
        cases hstep with
        | @fill n _ part rest' hle hpart =>
            have hprefix : part <+: chunk :=
              List.prefix_of_prefix_length_le ⟨rest', hinput.symm⟩ ⟨rest, rfl⟩ hle
            obtain ⟨more, rfl⟩ := hprefix
            rw [List.append_assoc] at hinput
            obtain rfl : more ++ rest = rest' := List.append_cancel_left hinput
            split
            · rename_i hfull
              have hnone : more = [] := by simpa using hfull
              rw [hnone, List.append_nil] at hnext
              rwa [hnone, List.nil_append]
            · rename_i hopen
              have hsome : part ≠ [] := by
                rintro rfl
                exact hopen (hpart rfl).symm
              have hpos := List.length_pos_iff.mpr hsome
              rw [List.length_append, Nat.add_sub_cancel_left]
              refine ih more.length ?_ more hnext rfl
              rw [List.length_append]
              omega
        | ended hn =>
            have hnone : chunk = [] := (List.append_eq_nil_iff.mp hinput).1
            rw [hnone] at hn
            exact absurd hn (Nat.lt_irrefl 0)

end PeekProg

end Resocks5.Foundation
