import Resocks5.Foundation.Duplex
import Resocks5.Recovery.Stability

namespace Resocks5.Recovery

open Resocks5.Foundation
open Prog

/-! Reading the first bytes of a client for the host they name. -/

def peekMax : Nat := 16 * 1024

def tmpLen : Nat := 4096

/-- A slice or a difference out of range. -/
inductive Panic where
  | outOfRange
  deriving DecidableEq, Repr

/-- A program of the recovery: it talks to the client only, and fails by a panic. -/
abbrev PeekProg := Prog Empty Panic

def isDecided (buf : Bytes) : Bool :=
  (parseSni buf).isSome || (parseHttpHost buf).isSome ||
    (!sniMightStillAppear buf && !httpHostMightStillAppear buf) || peekMax ≤ buf.length

def nonEmpty (buf : Bytes) : Option Bytes := if buf.isEmpty then none else some buf

/-- `slice[..n]` of a slice of the given length. -/
def sliceTo {α : Type} (len n : Nat) (next : PeekProg α) : PeekProg α :=
  if n ≤ len then next else fail .outOfRange

def readRecoveryPrefix (buf : Bytes) : PeekProg (Option Bytes) :=
  if hdecided : isDecided buf = true then ok (nonEmpty buf)
  else if peekMax < buf.length then fail .outOfRange
  else
    let remaining := min (peekMax - buf.length) tmpLen
    sliceTo tmpLen remaining <| .read remaining fun chunk =>
      if hchunk : chunk = [] then ok (nonEmpty buf)
      else sliceTo tmpLen chunk.length (readRecoveryPrefix (buf ++ chunk))
termination_by peekMax - buf.length
decreasing_by
  have hpos := List.length_pos_iff.mpr hchunk
  have hlt : buf.length < peekMax := by
    simp only [isDecided, Bool.not_eq_true, Bool.or_eq_false_iff, decide_eq_false_iff_not,
      Nat.not_le] at hdecided
    exact hdecided.2
  rw [List.length_append]
  omega

theorem isDecided_short {buf : Bytes} (hopen : isDecided buf = false) : buf.length < peekMax := by
  simp only [isDecided, Bool.or_eq_false_iff, decide_eq_false_iff_not, Nat.not_le] at hopen
  exact hopen.2

theorem isDecided_nil : isDecided [] = false := by decide

def readWindow (buf : Bytes) : Nat := min (peekMax - buf.length) tmpLen

theorem readRecoveryPrefix_decided {buf : Bytes} (hdecided : isDecided buf = true) :
    readRecoveryPrefix buf = ok (nonEmpty buf) := by
  rw [readRecoveryPrefix, dif_pos hdecided]

theorem readRecoveryPrefix_open {buf : Bytes} (hopen : isDecided buf = false) :
    readRecoveryPrefix buf = .read (readWindow buf) fun chunk =>
      if chunk = [] then ok (nonEmpty buf)
      else sliceTo tmpLen chunk.length (readRecoveryPrefix (buf ++ chunk)) := by
  have hlt := isDecided_short hopen
  rw [readRecoveryPrefix, dif_neg (Bool.eq_false_iff.mp hopen), if_neg (by omega)]
  dsimp only
  rw [sliceTo, if_pos (Nat.min_le_right _ _)]
  rfl

theorem isDecided_grows {buf : Bytes} (hdecided : isDecided buf = true) (more : Bytes) :
    isDecided (buf ++ more) = true := by
  simp only [isDecided, Bool.or_eq_true, Bool.and_eq_true, Bool.not_eq_true',
    Option.isSome_iff_exists, decide_eq_true_eq] at hdecided ⊢
  obtain ((⟨host, hsni⟩ | ⟨host, hhttp⟩) | ⟨hsni, hhttp⟩) | hlarge := hdecided
  · exact .inl (.inl (.inl ⟨host, parseSni_grows hsni more⟩))
  · exact .inl (.inl (.inr ⟨host, parseHttpHost_grows hhttp more⟩))
  · exact .inl (.inr ⟨((sniMightStillAppear_settled hsni).grows more).might,
      httpHostMightStillAppear_grows hhttp more⟩)
  · refine .inr ?_
    rw [List.length_append]
    omega

end Resocks5.Recovery
