import Resocks5.Recovery.HostDecided
import Resocks5.Recovery.Prefix
import Mathlib.Data.List.Induction

namespace Resocks5.Recovery

open Resocks5.Foundation
open Prog

/-! Where the reading stops, over every way of cutting the stream. -/

def mute : Empty → Bool := nofun

/-- A run that collects the prefix; the rest of the stream is left. -/
def Collects (stream : Bytes) (collected : Option Bytes) (rest : Bytes) : Prop :=
  Relation.ReflTransGen (Feed mute) (readRecoveryPrefix [], stream) (ok collected, rest)

/-- One read leads from an open prefix to this one. -/
def Stretch (buf : Bytes) : Prop :=
  buf = [] ∨ ∃ before chunk, buf = before ++ chunk ∧ isDecided before = false ∧ chunk ≠ [] ∧
    chunk.length ≤ readWindow before

theorem readWindow_pos {buf : Bytes} (hopen : isDecided buf = false) : 0 < readWindow buf := by
  have hlt := isDecided_short hopen
  simp only [readWindow, tmpLen]
  omega

theorem open_front {front back : Bytes} (hopen : isDecided (front ++ back) = false) :
    isDecided front = false := by
  cases hfront : isDecided front with
  | false => rfl
  | true => exact (isDecided_grows hfront back).symm.trans hopen

theorem after_chunk {buf chunk : Bytes} (hle : chunk.length ≤ readWindow buf)
    (hchunk : chunk ≠ []) :
    (if chunk = [] then ok (nonEmpty buf)
      else sliceTo tmpLen chunk.length (readRecoveryPrefix (buf ++ chunk))) =
      readRecoveryPrefix (buf ++ chunk) := by
  have htmp : readWindow buf ≤ tmpLen := Nat.min_le_right _ _
  rw [if_neg hchunk, sliceTo, if_pos (Nat.le_trans hle htmp)]

theorem reads_chunk {buf chunk : Bytes} (hopen : isDecided buf = false)
    (hle : chunk.length ≤ readWindow buf) (hchunk : chunk ≠ []) :
    (readRecoveryPrefix buf).Step (.take chunk) (readRecoveryPrefix (buf ++ chunk)) := by
  have hstep := @Step.read Empty Panic _ _ chunk (fun chunk =>
    if chunk = [] then ok (nonEmpty buf)
    else sliceTo tmpLen chunk.length (readRecoveryPrefix (buf ++ chunk))) hle hchunk
  rw [readRecoveryPrefix_open hopen, ← after_chunk hle hchunk]
  exact hstep

/-- A state of the reading: a prefix is read, and perhaps the stream has ended. -/
def Peeking (stream : Bytes) (state : PeekProg (Option Bytes) × Bytes) : Prop :=
  ∃ buf, buf ++ state.2 = stream ∧ Stretch buf ∧
    (state.1 = readRecoveryPrefix buf ∨
      isDecided buf = false ∧ state.2 = [] ∧ state.1 = ok (nonEmpty buf))

theorem Peeking.step {stream : Bytes} {state next : PeekProg (Option Bytes) × Bytes}
    (hpeeking : Peeking stream state) (hfeed : Feed mute state next) : Peeking stream next := by
  obtain ⟨prog, input⟩ := state
  obtain ⟨buf, hstream, hstretch, hprog | ⟨_, _, hprog⟩⟩ := hpeeking
  · dsimp only at hstream hprog
    cases hopen : isDecided buf with
    | true =>
        rw [readRecoveryPrefix_decided hopen] at hprog
        exact absurd hfeed.live (by rw [hprog]; exact id)
    | false =>
        rw [readRecoveryPrefix_open hopen] at hprog
        subst hprog
        cases hfeed with
        | put hstep => cases hstep
        | take hstep =>
            cases hstep with
            | read hle hchunk =>
                dsimp only
                rw [after_chunk hle hchunk]
                refine ⟨buf ++ _, ?_, .inr ⟨buf, _, rfl, hopen, hchunk, hle⟩, .inl rfl⟩
                rw [List.append_assoc]
                exact hstream
        | closed hstep =>
            cases hstep
            exact ⟨buf, hstream, hstretch, .inr ⟨hopen, rfl, rfl⟩⟩
        | ask hstep => cases hstep
  · dsimp only at hprog
    exact absurd hfeed.live (by rw [hprog]; exact id)

theorem Collects.ends {stream rest : Bytes} {collected : Option Bytes}
    (hcollects : Collects stream collected rest) :
    ∃ buf, buf ++ rest = stream ∧ Stretch buf ∧ collected = nonEmpty buf ∧
      (isDecided buf = true ∨ rest = []) := by
  have hpeeking : Peeking stream (ok collected, rest) := by
    unfold Collects at hcollects
    generalize (ok collected, rest) = last at hcollects
    induction hcollects with
    | refl => exact ⟨[], rfl, .inl rfl, .inl rfl⟩
    | tail _ hfeed ih => exact ih.step hfeed
  obtain ⟨buf, hstream, hstretch, hprog | ⟨_, hrest, hprog⟩⟩ := hpeeking
  · cases hopen : isDecided buf with
    | true =>
        rw [readRecoveryPrefix_decided hopen] at hprog
        exact ⟨buf, hstream, hstretch, ok.inj hprog, .inl hopen⟩
    | false =>
        rw [readRecoveryPrefix_open hopen] at hprog
        cases hprog
  · exact ⟨buf, hstream, hstretch, ok.inj hprog, .inr hrest⟩

theorem reads_open {buf rest : Bytes} (hopen : isDecided buf = false) :
    Relation.ReflTransGen (Feed mute) (readRecoveryPrefix [], buf ++ rest)
      (readRecoveryPrefix buf, rest) := by
  induction buf using List.reverseRecOn generalizing rest with
  | nil => exact .refl
  | append_singleton front b ih =>
      have hfront := open_front hopen
      have hpos : [b].length ≤ readWindow front := readWindow_pos hfront
      have hstep := reads_chunk hfront hpos (List.cons_ne_nil b [])
      rw [List.append_assoc]
      exact (ih hfront).tail (.take hstep)

theorem collects_stop {before chunk rest : Bytes} (hopen : isDecided before = false)
    (hchunk : chunk ≠ []) (hle : chunk.length ≤ readWindow before)
    (hdecided : isDecided (before ++ chunk) = true) :
    Collects (before ++ chunk ++ rest) (nonEmpty (before ++ chunk)) rest := by
  have hstep := reads_chunk hopen hle hchunk
  rw [readRecoveryPrefix_decided hdecided] at hstep
  rw [List.append_assoc]
  exact (reads_open hopen).tail (.take hstep)

/-! Which host comes out. -/

theorem nonEmpty_host (buf : Bytes) : (nonEmpty buf).bind recoverHost = recoverHost buf := by
  cases buf with
  | nil => rfl
  | cons b buf => rfl

/-- The shortest part of the stream on which the loop stops. -/
structure FirstStop (stream stop : Bytes) : Prop where
  front : stop <+: stream
  decided : isDecided stop = true
  first : ∀ before, before <+: stop → before ≠ stop → isDecided before = false

/-- A longer part, where the same read could have ended. -/
structure Beyond (stream stop longer : Bytes) : Prop where
  grown : stop <+: longer
  front : longer <+: stream
  read : longer.length < stop.length + tmpLen
  peek : longer.length ≤ peekMax

/-- Where the loop stops on a prefix that is no well begun request and that settles no host, no
`Host` line comes within the read; and a `Host` line that ends the loop inside an unfinished
ClientHello names no other host than its SNI. -/
structure Steady (stream : Bytes) : Prop where
  late : ∀ stop longer, FirstStop stream stop → Beyond stream stop longer →
    parseSni stop = none → ¬ WellBegun stop → ¬ HostDecided stop → ∀ host, ¬ NamesHost host longer
  mixed : ∀ stop longer, FirstStop stream stop → Beyond stream stop longer →
    parseSni stop = none → ∀ host, NamesHost host stop →
      ∀ name, parseSni longer = some name → name = host

theorem exists_firstStop {stream buf : Bytes} (hbuf : buf <+: stream)
    (hdecided : isDecided buf = true) : ∃ stop, FirstStop stream stop ∧ stop <+: buf := by
  induction hlength : buf.length using Nat.strongRecOn generalizing buf with
  | ind length ih =>
      by_cases hfirst : ∀ before, before <+: buf → before ≠ buf → isDecided before = false
      · exact ⟨buf, ⟨hbuf, hdecided, hfirst⟩, List.prefix_refl buf⟩
      · push Not at hfirst
        obtain ⟨before, hbefore, hne, hstop⟩ := hfirst
        have hshort : before.length < length := by
          refine hlength ▸ Nat.lt_of_le_of_ne hbefore.length_le fun heq => hne ?_
          exact hbefore.eq_of_length heq
        obtain ⟨stop, hfirst, hle⟩ := ih before.length hshort (hbefore.trans hbuf)
          ((Bool.not_eq_false _).mp hstop) rfl
        exact ⟨stop, hfirst, hle.trans hbefore⟩

theorem FirstStop.reached {stream stop buf : Bytes} (hfirst : FirstStop stream stop)
    (hbuf : buf <+: stream) (hdecided : isDecided buf = true) (hstretch : Stretch buf) :
    Beyond stream stop buf := by
  have hlonger : stop <+: buf := by
    obtain hle | hle := List.prefix_or_prefix_of_prefix hfirst.front hbuf
    · exact hle
    · by_cases heq : buf = stop
      · exact heq ▸ List.prefix_refl buf
      · rw [hfirst.first buf hle heq] at hdecided
        cases hdecided
  obtain rfl | ⟨before, chunk, rfl, hopen, _, hle⟩ := hstretch
  · rw [isDecided_nil] at hdecided
    cases hdecided
  · have hshort : before.length < stop.length := by
      by_contra hlong
      have hpart : stop <+: before := List.prefix_of_prefix_length_le hlonger
        (List.prefix_append before chunk) (Nat.le_of_not_lt hlong)
      obtain ⟨more, rfl⟩ := hpart
      rw [isDecided_grows hfirst.decided more] at hopen
      cases hopen
    have hbefore := isDecided_short hopen
    simp only [readWindow] at hle
    exact ⟨hlonger, hbuf, by rw [List.length_append]; omega, by rw [List.length_append]; omega⟩

theorem FirstStop.collects {stream stop longer : Bytes} (hfirst : FirstStop stream stop)
    (hbeyond : Beyond stream stop longer) :
    ∃ rest, Collects stream (nonEmpty longer) rest := by
  obtain ⟨rest, rfl⟩ := hbeyond.front
  obtain ⟨more, rfl⟩ := hbeyond.grown
  obtain rfl | ⟨before, b, rfl⟩ := List.eq_nil_or_concat stop
  · have hnil := hfirst.decided
    rw [isDecided_nil] at hnil
    cases hnil
  · have hopen : isDecided before = false := by
      refine hfirst.first before (List.concat_eq_append ▸ List.prefix_append before [b]) ?_
      simp
    have hread := hbeyond.read
    have hpeek := hbeyond.peek
    have hdecided := isDecided_grows hfirst.decided more
    rw [List.concat_eq_append, List.append_assoc before] at hdecided hread hpeek ⊢
    refine ⟨rest, collects_stop hopen (by simp) ?_ hdecided⟩
    simp only [readWindow, List.length_append, List.length_singleton] at hread hpeek ⊢
    omega

/-- A `Host` line that comes late comes behind a prefix that is neither well begun nor settled. -/
theorem FirstStop.late_iff {stream stop longer : Bytes} (hfirst : FirstStop stream stop)
    (hbeyond : Beyond stream stop longer) (hsni : parseSni stop = none) :
    (¬ WellBegun stop → ¬ HostDecided stop → ∀ host, ¬ NamesHost host longer) ↔
      (parseHttpHost stop = none → parseHttpHost longer = none) := by
  simp only [← parseHttpHost_names, ← Option.eq_none_iff_forall_ne_some]
  constructor
  · intro hlate hnone
    by_cases hdecided : HostDecided stop
    · obtain ⟨more, rfl⟩ := hbeyond.grown
      rw [hdecided.final, hnone]
    · by_cases hbegun : WellBegun stop
      · have hstop := hfirst.decided
        simp only [isDecided, hsni, hnone, Option.isSome_none, Bool.false_or, Bool.or_eq_true,
          Bool.and_eq_true, Bool.not_eq_true', decide_eq_true_eq] at hstop
        obtain ⟨_, hnever⟩ | hlarge := hstop
        · exact absurd (hbegun.decided hnever) hdecided
        · -- the cap is reached, and nothing more is read
          have hsame : stop = longer := hbeyond.grown.eq_of_length
            (Nat.le_antisymm hbeyond.grown.length_le (Nat.le_trans hbeyond.peek hlarge))
          rw [← hsame, hnone]
      · exact hlate hbegun hdecided
  · intro hlate _ hdecided
    exact hlate ((hostDecided_or stop).resolve_left hdecided).1

theorem FirstStop.host_iff {stream stop longer : Bytes} (hfirst : FirstStop stream stop)
    (hbeyond : Beyond stream stop longer) :
    recoverHost longer = recoverHost stop ↔
      (parseSni stop = none → ¬ WellBegun stop → ¬ HostDecided stop →
        ∀ host, ¬ NamesHost host longer) ∧
      (parseSni stop = none → ∀ host, NamesHost host stop →
        ∀ name, parseSni longer = some name → name = host) := by
  rw [imp_congr_right (hfirst.late_iff hbeyond)]
  simp only [← parseHttpHost_names]
  obtain ⟨more, rfl⟩ := hbeyond.grown
  simp only [recoverHost]
  cases hsni : parseSni stop with
  | some name =>
      rw [parseSni_grows hsni more]
      exact ⟨fun _ => ⟨nofun, nofun⟩, fun _ => rfl⟩
  | none =>
      cases hhttp : parseHttpHost stop with
      | some host =>
          rw [parseHttpHost_grows hhttp more]
          cases hlater : parseSni (stop ++ more) with
          | none => simp
          | some name => simp
      | none =>
          have hlater : parseSni (stop ++ more) = none := by
            have hdecided := hfirst.decided
            simp only [isDecided, hsni, hhttp, Option.isSome_none, Bool.false_or, Bool.or_eq_true,
              Bool.and_eq_true, Bool.not_eq_true', decide_eq_true_eq] at hdecided
            obtain ⟨hnever, _⟩ | hlarge := hdecided
            · rw [(sniMightStillAppear_settled hnever).final more, hsni]
            · have hpeek := hbeyond.peek
              rw [List.length_append] at hpeek
              obtain rfl : more = [] := List.length_eq_zero_iff.mp (by omega)
              rw [List.append_nil, hsni]
          rw [hlater]
          simp

/-- How a stream is cut into reads decides nothing exactly if the stream is steady. -/
theorem recovery_segmentation (stream : Bytes) :
    (∀ one other rest rest', Collects stream one rest → Collects stream other rest' →
      one.bind recoverHost = other.bind recoverHost) ↔ Steady stream := by
  constructor
  · intro hsame
    have hhost : ∀ stop longer, FirstStop stream stop → Beyond stream stop longer →
        recoverHost longer = recoverHost stop := by
      intro stop longer hfirst hbeyond
      have hstop : Beyond stream stop stop := ⟨List.prefix_refl stop, hfirst.front,
        by simp [tmpLen], Nat.le_trans hbeyond.grown.length_le hbeyond.peek⟩
      obtain ⟨rest, hone⟩ := hfirst.collects hbeyond
      obtain ⟨rest', hother⟩ := hfirst.collects hstop
      have hequal := hsame _ _ _ _ hone hother
      rwa [nonEmpty_host, nonEmpty_host] at hequal
    exact ⟨fun stop longer hfirst hbeyond =>
        ((hfirst.host_iff hbeyond).mp (hhost stop longer hfirst hbeyond)).1,
      fun stop longer hfirst hbeyond =>
        ((hfirst.host_iff hbeyond).mp (hhost stop longer hfirst hbeyond)).2⟩
  · intro hsteady one other rest rest' hone hother
    have hhost : ∀ stop buf, FirstStop stream stop → Stretch buf → buf <+: stream →
        isDecided buf = true → recoverHost buf = recoverHost stop := by
      intro stop buf hfirst hstretch hbuf hdecided
      have hbeyond := hfirst.reached hbuf hdecided hstretch
      exact (hfirst.host_iff hbeyond).mpr
        ⟨hsteady.late stop buf hfirst hbeyond, hsteady.mixed stop buf hfirst hbeyond⟩
    obtain ⟨buf, hbuf, hstretch, rfl, hend⟩ := hone.ends
    obtain ⟨buf', hbuf', hstretch', rfl, hend'⟩ := hother.ends
    have hfront : buf <+: stream := ⟨rest, hbuf⟩
    have hfront' : buf' <+: stream := ⟨rest', hbuf'⟩
    rw [nonEmpty_host, nonEmpty_host]
    cases hopen : isDecided stream with
    | true =>
        obtain ⟨stop, hfirst, _⟩ := exists_firstStop (List.prefix_refl stream) hopen
        -- the whole stream is a stop as well
        have hdecided : ∀ {buf rest : Bytes}, buf ++ rest = stream →
            isDecided buf = true ∨ rest = [] → isDecided buf = true := by
          intro buf rest hbuf hend
          refine hend.elim id fun hrest => ?_
          rw [hrest, List.append_nil] at hbuf
          rw [hbuf, hopen]
        rw [hhost stop buf hfirst hstretch hfront (hdecided hbuf hend),
          hhost stop buf' hfirst hstretch' hfront' (hdecided hbuf' hend')]
    | false =>
        have hwhole : ∀ {buf rest : Bytes}, buf ++ rest = stream →
            isDecided buf = true ∨ rest = [] → buf = stream := by
          intro buf rest hbuf hend
          obtain hdecided | hrest := hend
          · have hgrown := isDecided_grows hdecided rest
            rw [hbuf, hopen] at hgrown
            cases hgrown
          · rw [← hbuf, hrest, List.append_nil]
        rw [hwhole hbuf hend, hwhole hbuf' hend']

/-- A request behind a blank: read at once it has a host, cut behind the blank it has none. -/
theorem recovery_segmentation_blank :
    ¬ ∀ one other rest rest', Collects (lit " GET / HTTP/1.1\r\nHost: a\r\n\r\n") one rest →
      Collects (lit " GET / HTTP/1.1\r\nHost: a\r\n\r\n") other rest' →
      one.bind recoverHost = other.bind recoverHost := by
  intro hsame
  have hwhole := @collects_stop [] (lit " GET / HTTP/1.1\r\nHost: a\r\n\r\n") [] (by decide)
    (by decide) (by decide) (by decide +kernel)
  have hblank := @collects_stop [] (lit " ") (lit "GET / HTTP/1.1\r\nHost: a\r\n\r\n") (by decide)
    (by decide) (by decide) (by decide +kernel)
  have hequal := hsame _ _ _ _ hwhole hblank
  rw [nonEmpty_host, nonEmpty_host] at hequal
  revert hequal
  decide +kernel

end Resocks5.Recovery
