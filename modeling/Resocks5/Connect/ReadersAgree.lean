import Resocks5.Connect.ConnectResponse
import Resocks5.Inbound.HttpHead

namespace Resocks5.Connect

open Resocks5.Foundation
open Resocks5.Inbound
open Resocks5.Types
open Prog

/-! Both readers come to the verdict that the stream itself determines. -/

/-- What the next heads say, within what is left of the limit, and what is left after them. -/
def answerDue (budget : Nat) (stream : Bytes) : Except ConnectError Unit × Bytes :=
  match _hposition : position responseEnd (stream.take budget) with
  | some i =>
    match judgeHead (stream.take (i + 4)) with
    | .error error => (.error error, stream.drop (i + 4))
    | .ok true => (.ok (), stream.drop (i + 4))
    | .ok false => answerDue (budget - (i + 4)) (stream.drop (i + 4))
  | none =>
    if budget ≤ stream.length then
      (.error (.protocol .httpResponseTooLarge), stream.drop budget)
    else (.error (.protocol .httpClosedEarly), [])
termination_by budget
decreasing_by
  have hinside := position_lt headerEnd_ne_nil _hposition
  have hlength : headerEnd.length = 4 := rfl
  rw [hlength, List.length_take] at hinside
  omega

section

variable {budget : Nat} {stream : Bytes}

theorem position_head {head rest : Bytes} (hhead : IsHead head)
    (hfits : head.length ≤ budget) :
    position responseEnd ((head ++ rest).take budget) = some (head.length - 4) := by
  rw [List.take_append, List.take_of_length_le hfits]
  exact position_front headerEnd_ne_nil hhead.1 _

theorem answerDue_head {head rest : Bytes} (hhead : IsHead head) (hfits : head.length ≤ budget) :
    answerDue budget (head ++ rest) =
      match judgeHead head with
      | .error error => (.error error, rest)
      | .ok true => (.ok (), rest)
      | .ok false => answerDue (budget - head.length) rest := by
  have hposition : position responseEnd ((head ++ rest).take budget) = some (head.length - 4) :=
    position_head hhead hfits
  have hfour : head.length - 4 + 4 = head.length := Nat.sub_add_cancel hhead.2
  rw [answerDue]
  split
  · rename_i i hsome
    obtain rfl : i = head.length - 4 := Option.some.inj (hsome.symm.trans hposition)
    rw [hfour, List.take_left, List.drop_left]
  · rename_i hnone
    cases hnone.symm.trans hposition

theorem answerDue_none (hnone : position responseEnd (stream.take budget) = none) :
    answerDue budget stream =
      if budget ≤ stream.length then
        (.error (.protocol .httpResponseTooLarge), stream.drop budget)
      else (.error (.protocol .httpClosedEarly), []) := by
  rw [answerDue]
  split
  · rename_i i hsome
    cases hsome.symm.trans hnone
  · rfl

end

/-! One turn of a reading loop. -/

namespace ResponseHead

structure Open (head : ResponseHead) : Prop where
  fresh : position responseEnd head.filled = none
  filled : head.filled.length ≤ head.total
  total : head.total ≤ responseLimit

def due (head : ResponseHead) (input : Bytes) : Except ConnectError Unit × Bytes :=
  answerDue (responseLimit - head.total + head.filled.length) (head.filled ++ input)

theorem new_open : new.Open := ⟨rfl, Nat.le_refl 0, Nat.zero_le _⟩

theorem Open.due_full {head : ResponseHead} (hopen : head.Open) (hfull : head.total = responseLimit)
    (input : Bytes) : head.due input = (.error (.protocol .httpResponseTooLarge), input) := by
  have hbudget : responseLimit - head.total + head.filled.length = head.filled.length := by omega
  have hnone : position responseEnd ((head.filled ++ input).take head.filled.length) = none := by
    rw [List.take_left]
    exact hopen.fresh
  rw [due, hbudget, answerDue_none hnone, if_pos (by simp), List.drop_left]

theorem Open.due_ended {head : ResponseHead} (hopen : head.Open)
    (hroom : head.total < responseLimit) :
    head.due [] = (.error (.protocol .httpClosedEarly), []) := by
  have htake : (head.filled ++ []).take (responseLimit - head.total + head.filled.length) =
      head.filled := by
    rw [List.append_nil]
    exact List.take_of_length_le (by omega)
  rw [due, answerDue_none (by rw [htake]; exact hopen.fresh), if_neg]
  rw [List.append_nil]
  omega

theorem advance_due {head : ResponseHead} (hopen : head.Open) {chunk : Bytes} (hchunk : chunk ≠ [])
    (hfits : head.total + chunk.length ≤ responseLimit)
    (hcut : position responseEnd (head.filled ++ chunk) = none ∨ IsHead (head.filled ++ chunk))
    (rest : Bytes) :
    match head.advance chunk with
    | .error error => head.due (chunk ++ rest) = (.error error, rest)
    | .ok (true, _) => head.due (chunk ++ rest) = (.ok (), rest)
    | .ok (false, after) => after.Open ∧ after.total = head.total + chunk.length ∧
        head.due (chunk ++ rest) = after.due rest := by
  have hstream : head.filled ++ (chunk ++ rest) = (head.filled ++ chunk) ++ rest :=
    (List.append_assoc ..).symm
  have hlength : (head.filled ++ chunk).length = head.filled.length + chunk.length :=
    List.length_append
  unfold advance
  rw [if_neg hchunk]
  dsimp only
  obtain hnone | hhead := hcut
  · have hgoes : responseEnd.isSuffixOf (head.filled ++ chunk) = false := by
      by_contra hends
      rw [Bool.not_eq_false, List.isSuffixOf_iff_suffix] at hends
      obtain ⟨front, hfront⟩ := hends
      refine (position_eq_none headerEnd_ne_nil).mp hnone front.length ?_
      rw [← hfront, List.drop_left]
      exact List.prefix_refl _
    rw [hgoes]
    refine ⟨⟨hnone, ?_, hfits⟩, rfl, ?_⟩
    · rw [hlength]
      exact Nat.add_le_add_right hopen.filled _
    · rw [due, due, hstream, hlength]
      congr 1
      dsimp only
      omega
  · have hends : responseEnd.isSuffixOf (head.filled ++ chunk) = true := by
      obtain ⟨hat, _⟩ := (position_eq_some headerEnd_ne_nil).mp hhead.1
      rw [List.isSuffixOf_iff_suffix]
      have hdrop := List.drop_suffix ((head.filled ++ chunk).length - 4) (head.filled ++ chunk)
      have hlast : headerEnd.length = ((head.filled ++ chunk).drop
          ((head.filled ++ chunk).length - 4)).length := by
        have hfour : headerEnd.length = 4 := rfl
        have hle := hhead.2
        rw [List.length_drop, hfour]
        omega
      rwa [← hat.eq_of_length hlast] at hdrop
    have hbudget : (head.filled ++ chunk).length ≤ responseLimit - head.total + head.filled.length := by
      omega
    have hdue : answerDue _ (head.filled ++ chunk ++ rest) = _ := answerDue_head hhead hbudget
    rw [hends, due, hstream, hdue]
    cases hjudge : judgeHead (head.filled ++ chunk) with
    | error error => rfl
    | ok last =>
        cases last with
        | true => rfl
        | false =>
            refine ⟨⟨rfl, Nat.zero_le _, hfits⟩, rfl, ?_⟩
            show _ = answerDue (responseLimit - (head.total + chunk.length) + 0) ([] ++ rest)
            have hbudget : responseLimit - head.total + head.filled.length -
                (head.filled ++ chunk).length = responseLimit - (head.total + chunk.length) + 0 := by
              omega
            rw [List.nil_append, hbudget]

theorem remaining_full {head : ResponseHead} (hfull : head.total = responseLimit) :
    head.remaining = .error (.protocol .httpResponseTooLarge) := by
  rw [remaining, hfull, Nat.sub_self, if_pos rfl]

theorem remaining_room {head : ResponseHead} (hroom : head.total < responseLimit) :
    head.remaining = .ok (responseLimit - head.total) :=
  if_neg (by omega)

end ResponseHead

def afterChunk {γ : Type} (head : ResponseHead) (chunk : Bytes) (failed : ConnectError → γ)
    (done : γ) (more : ResponseHead → γ) : γ :=
  match head.advance chunk with
  | .error error => failed error
  | .ok (true, _) => done
  | .ok (false, after) => more after

theorem readConnectResponse_full {head : ResponseHead} (hfull : head.total = responseLimit) :
    readConnectResponse head = fail (.protocol .httpResponseTooLarge) := by
  have hremaining := ResponseHead.remaining_full hfull
  rw [readConnectResponse]
  split
  · rename_i error herror
    cases herror.symm.trans hremaining
    rfl
  · rename_i remaining hsome
    cases hsome.symm.trans hremaining

theorem readConnectResponse_read {head : ResponseHead} (hroom : head.total < responseLimit) :
    readConnectResponse head =
      .read (min (missingEnd head.filled) (responseLimit - head.total)) fun chunk =>
        afterChunk head chunk fail (ok ()) readConnectResponse := by
  have hremaining := ResponseHead.remaining_room hroom
  rw [readConnectResponse]
  split
  · rename_i error herror
    cases herror.symm.trans hremaining
  · rename_i remaining hsome
    cases hsome.symm.trans hremaining
    congr 1
    funext chunk
    unfold afterChunk
    split <;> rename_i hadvance <;> rw [hadvance]

theorem readConnectResponseTcp_full {head : ResponseHead} (hfull : head.total = responseLimit) :
    readConnectResponseTcp head = .fail (.protocol .httpResponseTooLarge) := by
  have hremaining := ResponseHead.remaining_full hfull
  rw [readConnectResponseTcp]
  split
  · rename_i error herror
    cases herror.symm.trans hremaining
    rfl
  · rename_i remaining hsome
    cases hsome.symm.trans hremaining

theorem readConnectResponseTcp_peek {head : ResponseHead} (hroom : head.total < responseLimit) :
    readConnectResponseTcp head =
      .peek (responseLimit - head.total) fun peeked =>
        .exact (consumeTo head.filled peeked - head.filled.length) fun chunk =>
          afterChunk head chunk .fail (.ok ()) readConnectResponseTcp := by
  have hremaining := ResponseHead.remaining_room hroom
  rw [readConnectResponseTcp]
  split
  · rename_i error herror
    cases herror.symm.trans hremaining
  · rename_i remaining hsome
    cases hsome.symm.trans hremaining
    congr 1
    funext peeked
    congr 1
    funext chunk
    unfold afterChunk
    split <;> rename_i hadvance <;> rw [hadvance]

/-! What is read does not go beyond a head. -/

theorem position_beyond {filled more : Bytes} {i : Nat} (hfresh : position responseEnd filled = none)
    (hposition : position responseEnd (filled ++ more) = some i) : filled.length < i + 4 := by
  by_contra hinside
  obtain ⟨hat, _⟩ := (position_eq_some headerEnd_ne_nil).mp hposition
  have hfour : headerEnd.length = 4 := rfl
  refine (position_eq_none headerEnd_ne_nil).mp hfresh i ?_
  rw [List.drop_append_of_le_length (by omega)] at hat
  exact List.prefix_of_prefix_length_le hat (List.prefix_append _ _)
    (by rw [List.length_drop]; omega)

theorem missingEnd_le {filled : Bytes} {k : Nat} (hpos : 1 ≤ k) (hle : k ≤ 3)
    (hsuffix : (responseEnd.take (4 - k)).isSuffixOf filled = true) : missingEnd filled ≤ k := by
  unfold missingEnd
  obtain rfl | rfl | rfl : k = 1 ∨ k = 2 ∨ k = 3 := by omega
  · have hthree : responseEnd.take 3 = [0x0D, 0x0A, 0x0D] := rfl
    rw [hthree] at hsuffix
    rw [if_pos hsuffix]
  · have htwo : responseEnd.take 2 = [0x0D, 0x0A] := rfl
    rw [htwo] at hsuffix
    rw [if_pos hsuffix]
    split <;> omega
  · have hone : responseEnd.take 1 = [0x0D] := rfl
    rw [hone] at hsuffix
    rw [if_pos hsuffix]
    split
    · omega
    · split <;> omega

theorem missingEnd_cut {filled chunk : Bytes} (hfresh : position responseEnd filled = none)
    (hchunk : chunk.length ≤ missingEnd filled) :
    position responseEnd (filled ++ chunk) = none ∨ IsHead (filled ++ chunk) := by
  cases hposition : position responseEnd (filled ++ chunk) with
  | none => exact .inl rfl
  | some i =>
      have hbeyond := position_beyond hfresh hposition
      have hinside : i + 4 ≤ (filled ++ chunk).length := position_lt headerEnd_ne_nil hposition
      have hlength : (filled ++ chunk).length = filled.length + chunk.length := List.length_append
      have hlast : i + 4 = (filled ++ chunk).length := by
        by_contra hearly
        have hsmall : missingEnd filled ≤ 4 := by
          unfold missingEnd
          split
          · omega
          · split
            · omega
            · split <;> omega
        -- the end of a head stands across the end of what was there before
        obtain ⟨hat, _⟩ := (position_eq_some headerEnd_ne_nil).mp hposition
        rw [List.drop_append_of_le_length (by omega)] at hat
        have hpart : headerEnd.take (4 - (i + 4 - filled.length)) = filled.drop i := by
          obtain ⟨rest, hrest⟩ := hat
          have htake := congrArg (List.take (4 - (i + 4 - filled.length))) hrest
          rw [List.take_append_of_le_length (by
            have hfour : headerEnd.length = 4 := rfl
            omega), List.take_append_of_le_length (by rw [List.length_drop]; omega),
            List.take_of_length_le (l := filled.drop i) (by rw [List.length_drop]; omega)] at htake
          exact htake
        have hsuffix : (responseEnd.take (4 - (i + 4 - filled.length))).isSuffixOf filled = true := by
          rw [List.isSuffixOf_iff_suffix]
          exact hpart ▸ List.drop_suffix i filled
        have hmissing := missingEnd_le (by omega) (by omega) hsuffix
        omega
      refine .inr ⟨?_, by omega⟩
      rw [← hlast, Nat.add_sub_cancel]
      exact hposition

theorem consumeTo_cut {filled : Bytes} (hfresh : position responseEnd filled = none)
    (peeked : Bytes) :
    filled.length ≤ consumeTo filled peeked ∧
      consumeTo filled peeked ≤ (filled ++ peeked).length ∧
      (peeked ≠ [] → filled.length < consumeTo filled peeked) ∧
      (position responseEnd ((filled ++ peeked).take (consumeTo filled peeked)) = none ∨
        IsHead ((filled ++ peeked).take (consumeTo filled peeked))) := by
  have hresume : position responseEnd (filled ++ peeked) = (position responseEnd
      ((filled ++ peeked).drop (filled.length - 3))).map (filled.length - 3 + ·) :=
    position_resume headerEnd_ne_nil hfresh
  have hlength : (filled ++ peeked).length = filled.length + peeked.length := List.length_append
  unfold consumeTo
  dsimp only
  cases hscan : position responseEnd ((filled ++ peeked).drop (filled.length - 3)) with
  | none =>
      rw [hscan] at hresume
      dsimp only
      rw [← hlength, List.take_length]
      refine ⟨by omega, Nat.le_refl _, fun hsome => ?_, .inl hresume⟩
      have hpos := List.length_pos_iff.mpr hsome
      omega
  | some i =>
      rw [hscan, Option.map_some] at hresume
      have hbeyond := position_beyond hfresh hresume
      have hinside : filled.length - 3 + i + 4 ≤ (filled ++ peeked).length :=
        position_lt headerEnd_ne_nil hresume
      exact ⟨Nat.le_of_lt hbeyond, hinside, fun _ => hbeyond, .inr (isHead_take hresume)⟩

/-! Whole runs. -/

def ended : Except ConnectError Unit → ClientProg Unit
  | .ok _ => ok ()
  | .error error => fail error

def endedTcp : Except ConnectError Unit → PeekProg ConnectError Unit
  | .ok _ => .ok ()
  | .error error => .fail error

section

variable {γ : Type} {step : γ × Bytes → γ × Bytes → Prop} {ends : Except ConnectError Unit → γ}
  {head : ResponseHead}

/-- The program ends with what is due, and leaves what is then left. -/
def Comes (step : γ × Bytes → γ × Bytes → Prop) (ends : Except ConnectError Unit → γ)
    (head : ResponseHead) (input : Bytes) (state : γ × Bytes) : Prop :=
  Inevitably step (· = (ends (head.due input).1, (head.due input).2)) state

theorem Comes.of_due {input : Bytes} {verdict : Except ConnectError Unit} {left : Bytes}
    (hdue : head.due input = (verdict, left)) : Comes step ends head input (ends verdict, left) := by
  refine .now ?_
  rw [hdue]

theorem afterChunk_comes (hopen : head.Open) {chunk : Bytes} (hchunk : chunk ≠ [])
    (hfits : head.total + chunk.length ≤ responseLimit)
    (hcut : position responseEnd (head.filled ++ chunk) = none ∨ IsHead (head.filled ++ chunk))
    {rest : Bytes} {loop : ResponseHead → γ}
    (hloop : ∀ after : ResponseHead, after.Open → after.total = head.total + chunk.length →
      Comes step ends after rest (loop after, rest)) :
    Comes step ends head (chunk ++ rest)
      (afterChunk head chunk (fun error => ends (.error error)) (ends (.ok ())) loop, rest) := by
  have hdue := ResponseHead.advance_due hopen hchunk hfits hcut rest
  unfold afterChunk
  cases hadvance : head.advance chunk with
  | error error =>
      rw [hadvance] at hdue
      exact .of_due hdue
  | ok result =>
      rw [hadvance] at hdue
      obtain ⟨last, after⟩ := result
      cases last with
      | true => exact .of_due hdue
      | false =>
          obtain ⟨hafter, htotal, hsame⟩ := hdue
          unfold Comes
          rw [hsame]
          exact hloop after hafter htotal

end

theorem readConnectResponse_comes (answer : Empty → Bool) {head : ResponseHead} (hopen : head.Open)
    (input : Bytes) :
    Comes (Feed answer) ended head input (readConnectResponse head, input) := by
  induction hwork : responseLimit - head.total using Nat.strongRecOn generalizing head input with
  | ind work ih =>
      obtain hfull | hroom := Nat.eq_or_lt_of_le hopen.total
      · rw [readConnectResponse_full hfull]
        exact .of_due (hopen.due_full hfull input)
      · rw [readConnectResponse_read hroom]
        by_cases hend : input = []
        · subst hend
          have hclosed : Comes (Feed answer) ended head [] (ended (.error (.protocol .httpClosedEarly)), []) :=
            .of_due (hopen.due_ended hroom)
          exact Feed.ended hclosed
        · have hpos : 0 < min (missingEnd head.filled) (responseLimit - head.total) := by
            have hmissing : 0 < missingEnd head.filled := by
              unfold missingEnd
              split
              · omega
              · split
                · omega
                · split <;> omega
            omega
          refine Feed.read hpos hend fun chunk rest hcut hchunk hle => ?_
          subst hcut
          have hlength := List.length_pos_iff.mpr hchunk
          exact afterChunk_comes hopen hchunk (by omega)
            (missingEnd_cut hopen.fresh (by omega)) fun after hafter htotal =>
              ih (responseLimit - after.total) (by omega) hafter rest rfl

theorem readConnectResponseTcp_comes {head : ResponseHead} (hopen : head.Open) (input : Bytes) :
    Comes PeekProg.Feed endedTcp head input (readConnectResponseTcp head, input) := by
  induction hwork : responseLimit - head.total using Nat.strongRecOn generalizing head input with
  | ind work ih =>
      obtain hfull | hroom := Nat.eq_or_lt_of_le hopen.total
      · rw [readConnectResponseTcp_full hfull]
        exact .of_due (hopen.due_full hfull input)
      · rw [readConnectResponseTcp_peek hroom]
        refine PeekProg.Feed.look (by omega) fun peeked rest hinput hend hle => ?_
        obtain ⟨hfrom, hto, hsome, hcut⟩ := consumeTo_cut hopen.fresh peeked
        rw [List.length_append] at hto
        have htake : (head.filled ++ peeked).take (consumeTo head.filled peeked) =
            head.filled ++ peeked.take (consumeTo head.filled peeked - head.filled.length) := by
          rw [List.take_append, List.take_of_length_le hfrom]
        generalize hchunk : peeked.take (consumeTo head.filled peeked - head.filled.length) = chunk
          at htake
        have hlength : chunk.length = consumeTo head.filled peeked - head.filled.length := by
          rw [← hchunk, List.length_take]
          omega
        obtain ⟨beyond, hpeeked⟩ : chunk <+: peeked := hchunk ▸ List.take_prefix _ _
        have hsplit : peeked ++ rest = chunk ++ (beyond ++ rest) := by
          rw [← hpeeked, List.append_assoc]
        rw [hinput, hsplit, ← hlength]
        refine PeekProg.Feed.readExact chunk ?_
        by_cases hnone : peeked = []
        · subst hnone
          obtain ⟨rfl, rfl⟩ := List.append_eq_nil_iff.mp hpeeked
          obtain rfl := hend rfl
          have hclosed : Comes PeekProg.Feed endedTcp head []
              (endedTcp (.error (.protocol .httpClosedEarly)), []) := .of_due (hopen.due_ended hroom)
          exact hclosed
        · have hnonempty : chunk ≠ [] := by
            have hmore := hsome hnone
            exact List.length_pos_iff.mp (by omega)
          exact afterChunk_comes hopen hnonempty (by omega) (htake ▸ hcut) fun after hafter htotal =>
            ih (responseLimit - after.total) (by
              have hpos := List.length_pos_iff.mpr hnonempty
              omega) hafter (beyond ++ rest) rfl

/-! What the verdict is on the stream. -/

def HasStatus (head code : Bytes) : Prop :=
  code.length = 3 ∧ code.all isAsciiDigit = true ∧
    ∃ version ∈ [lit "HTTP/1.0 ", lit "HTTP/1.1 "], version ++ code ++ [0x20] <+: firstLine head

def Interim (head : Bytes) : Prop :=
  ∃ code, HasStatus head code ∧ code.head? = some 0x31 ∧ code ≠ lit "101"

def Final (head : Bytes) : Prop := ∃ code, HasStatus head code ∧ code.head? = some 0x32

/-- Some interim heads and then a final one, within the budget, before the rest. -/
def AnsweredWithin (budget : Nat) (stream rest : Bytes) : Prop :=
  ∃ (heads : List Bytes) (last : Bytes), stream = heads.flatten ++ last ++ rest ∧
    (∀ head ∈ heads, IsHead head ∧ Interim head) ∧ (IsHead last ∧ Final last) ∧
    (heads.flatten ++ last).length ≤ budget

theorem hasStatus_iff {head code : Bytes} :
    HasStatus head code ↔
      validStatusLine (firstLine head) = true ∧ code = statusCode (firstLine head) := by
  generalize hline : firstLine head = line
  unfold HasStatus validStatusLine
  rw [hline]
  simp only [Bool.and_eq_true, Bool.or_eq_true, decide_eq_true_eq, beq_iff_eq,
    List.isPrefixOf_iff_prefix]
  constructor
  · rintro ⟨hcode, hdigits, version, hversion, rest, rfl⟩
    have hnine : version.length = 9 := by
      obtain rfl | rfl : version = lit "HTTP/1.0 " ∨ version = lit "HTTP/1.1 " := by
        simpa using hversion
      · rfl
      · rfl
    have hstatus : statusCode (version ++ code ++ [0x20] ++ rest) = code := by
      rw [statusCode, List.append_assoc, List.append_assoc, ← hnine, List.drop_left, ← hcode,
        List.take_left]
    have hblank : (version ++ code ++ [0x20] ++ rest).getD 12 0 = 0x20 := by
      have hlength : (version ++ code).length = 12 := by
        rw [List.length_append, hnine, hcode]
      rw [List.append_assoc, List.getD_eq_getElem?_getD,
        List.getElem?_append_right (Nat.le_of_eq hlength), hlength]
      rfl
    refine ⟨⟨⟨⟨?_, ?_⟩, ?_⟩, hblank⟩, hstatus.symm⟩
    · simp only [List.length_append, List.length_singleton, hnine, hcode]
      omega
    · have hfront : version <+: version ++ code ++ [0x20] ++ rest := by
        rw [List.append_assoc, List.append_assoc]
        exact List.prefix_append _ _
      obtain rfl | rfl : version = lit "HTTP/1.0 " ∨ version = lit "HTTP/1.1 " := by
        simpa using hversion
      · exact .inr hfront
      · exact .inl hfront
    · rw [hstatus]
      exact hdigits
  · rintro ⟨⟨⟨⟨hlong, hversion⟩, hdigits⟩, hblank⟩, rfl⟩
    obtain ⟨version, hmem, hnine, rest, rfl⟩ : ∃ version ∈ [lit "HTTP/1.0 ", lit "HTTP/1.1 "],
        version.length = 9 ∧ version <+: line := by
      obtain hversion | hversion := hversion
      · exact ⟨_, by simp, rfl, hversion⟩
      · exact ⟨_, by simp, rfl, hversion⟩
    have hstatus : statusCode (version ++ rest) = rest.take 3 := by
      rw [statusCode, ← hnine, List.drop_left]
    rw [List.length_append, hnine] at hlong
    rw [hstatus] at hdigits ⊢
    refine ⟨by rw [List.length_take]; omega, hdigits, version, hmem, rest.drop 4, ?_⟩
    have hfour : rest[3]? = some 0x20 := by
      rw [List.getD_eq_getElem?_getD, List.getElem?_append_right (by omega), hnine,
        List.getElem?_eq_getElem (by omega)] at hblank
      rw [List.getElem?_eq_getElem (by omega)]
      exact congrArg some hblank
    have hrest : rest = rest.take 3 ++ ([0x20] ++ rest.drop 4) := by
      obtain ⟨hlt, hget⟩ := List.getElem?_eq_some_iff.mp hfour
      have hdrop := List.drop_eq_getElem_cons hlt
      rw [hget] at hdrop
      calc
        rest = rest.take 3 ++ rest.drop 3 := (List.take_append_drop 3 rest).symm
        _ = rest.take 3 ++ ([0x20] ++ rest.drop 4) := by rw [hdrop]; rfl
    rw [List.append_assoc, List.append_assoc, ← hrest]

theorem statusCode_head {line : Bytes} (hvalid : validStatusLine line = true) :
    (statusCode line).head? = some (line.getD 9 0) := by
  have hlong : 13 ≤ line.length := by
    simp only [validStatusLine, Bool.and_eq_true, decide_eq_true_eq] at hvalid
    exact hvalid.1.1.1
  rw [statusCode, List.head?_take, if_neg (by decide), List.head?_drop,
    List.getD_eq_getElem?_getD, List.getElem?_eq_getElem (by omega)]
  rfl

theorem judgeHead_final {head : Bytes} : judgeHead head = .ok true ↔ Final head := by
  have hfinal : Final head ↔ validStatusLine (firstLine head) = true ∧
      (firstLine head).getD 9 0 = 0x32 := by
    unfold Final
    simp only [hasStatus_iff]
    constructor
    · rintro ⟨code, ⟨hvalid, rfl⟩, hhead⟩
      rw [statusCode_head hvalid] at hhead
      exact ⟨hvalid, Option.some.inj hhead⟩
    · rintro ⟨hvalid, hdigit⟩
      exact ⟨_, ⟨hvalid, rfl⟩, by rw [statusCode_head hvalid, hdigit]⟩
  rw [hfinal]
  unfold judgeHead
  dsimp only
  split
  · rename_i hguard
    simpa using hguard
  · rename_i hguard
    refine iff_of_false ?_ (by simpa using hguard)
    split
    · simp
    · simp

theorem judgeHead_interim {head : Bytes} : judgeHead head = .ok false ↔ Interim head := by
  have hinterim : Interim head ↔ validStatusLine (firstLine head) = true ∧
      (firstLine head).getD 9 0 = 0x31 ∧ statusCode (firstLine head) ≠ lit "101" := by
    unfold Interim
    simp only [hasStatus_iff]
    constructor
    · rintro ⟨code, ⟨hvalid, rfl⟩, hhead, hother⟩
      rw [statusCode_head hvalid] at hhead
      exact ⟨hvalid, Option.some.inj hhead, hother⟩
    · rintro ⟨hvalid, hdigit, hother⟩
      exact ⟨_, ⟨hvalid, rfl⟩, by rw [statusCode_head hvalid, hdigit], hother⟩
  rw [hinterim]
  unfold judgeHead
  dsimp only
  split
  · rename_i hguard
    simp only [Bool.and_eq_true, beq_iff_eq] at hguard
    refine iff_of_false (by simp) ?_
    rintro ⟨_, hdigit, _⟩
    rw [hguard.2] at hdigit
    revert hdigit
    decide
  · split
    · rename_i hguard
      simpa [and_assoc] using hguard
    · rename_i hguard
      refine iff_of_false (by simp) ?_
      simpa [and_assoc] using hguard

theorem answered_of_due {budget : Nat} {stream left : Bytes}
    (hdue : answerDue budget stream = (.ok (), left)) : AnsweredWithin budget stream left := by
  induction budget using Nat.strongRecOn generalizing stream with
  | ind budget ih =>
      cases hposition : position responseEnd (stream.take budget) with
      | none =>
          rw [answerDue_none hposition] at hdue
          split at hdue <;> cases hdue
      | some i =>
          have hinside := position_lt headerEnd_ne_nil hposition
          have hfour : headerEnd.length = 4 := rfl
          rw [hfour, List.length_take] at hinside
          have hhead : IsHead (stream.take (i + 4)) := by
            have hfound := isHead_take hposition
            rwa [List.take_take, Nat.min_eq_left (by omega)] at hfound
          have hlength : (stream.take (i + 4)).length = i + 4 := by
            rw [List.length_take]
            omega
          have hstream := List.take_append_drop (i + 4) stream
          generalize stream.take (i + 4) = head at hhead hlength hstream
          generalize stream.drop (i + 4) = rest at hstream
          subst hstream
          rw [answerDue_head hhead (by omega)] at hdue
          cases hjudge : judgeHead head with
          | error error =>
              rw [hjudge] at hdue
              cases hdue
          | ok last =>
              rw [hjudge] at hdue
              cases last with
              | true =>
                  cases hdue
                  refine ⟨[], head, rfl, ?_, ⟨hhead, judgeHead_final.mp hjudge⟩, ?_⟩
                  · intro other hnone
                    cases hnone
                  · rw [List.flatten_nil, List.nil_append, hlength]
                    omega
              | false =>
                  obtain ⟨heads, last, rfl, hheads, hlast, hfits⟩ := ih _ (by omega) hdue
                  refine ⟨head :: heads, last, by simp [List.append_assoc], ?_, hlast, ?_⟩
                  · intro other hother
                    cases hother with
                    | head => exact ⟨hhead, judgeHead_interim.mp hjudge⟩
                    | tail _ hmem => exact hheads other hmem
                  · rw [List.flatten_cons, List.append_assoc, List.length_append]
                    omega

theorem due_of_answered {budget : Nat} {stream rest : Bytes}
    (hanswered : AnsweredWithin budget stream rest) : answerDue budget stream = (.ok (), rest) := by
  obtain ⟨heads, last, rfl, hheads, ⟨hlast, hfinal⟩, hfits⟩ := hanswered
  induction heads generalizing budget with
  | nil =>
      rw [List.flatten_nil, List.nil_append] at hfits ⊢
      rw [answerDue_head hlast hfits, judgeHead_final.mpr hfinal]
  | cons head heads ih =>
      obtain ⟨hhead, hinterim⟩ := hheads head List.mem_cons_self
      rw [List.flatten_cons, List.append_assoc, List.length_append] at hfits
      rw [List.flatten_cons, List.append_assoc, List.append_assoc,
        answerDue_head hhead (by omega), judgeHead_interim.mpr hinterim]
      dsimp only
      rw [← List.append_assoc]
      exact ih (fun other hother => hheads other (List.mem_cons_of_mem _ hother)) (by omega)

/-- However the stream is cut for them, both readers end with one verdict and leave the same
rest: what stands behind the final head, if there is one. -/
theorem connect_readers_agree (stream : Bytes) : ∃ verdict left,
    Inevitably (Feed Empty.elim) (· = (ended verdict, left))
      (readConnectResponse ResponseHead.new, stream) ∧
    Inevitably PeekProg.Feed (· = (endedTcp verdict, left))
      (readConnectResponseTcp ResponseHead.new, stream) ∧
    (verdict = .ok () ↔ ∃ rest, AnsweredWithin responseLimit stream rest) ∧
    (verdict = .ok () → AnsweredWithin responseLimit stream left) := by
  have hdue : ResponseHead.new.due stream = answerDue responseLimit stream := rfl
  have hokay : (answerDue responseLimit stream).1 = .ok () →
      AnsweredWithin responseLimit stream (answerDue responseLimit stream).2 := fun hverdict =>
    answered_of_due (Prod.ext hverdict rfl)
  refine ⟨(answerDue responseLimit stream).1, (answerDue responseLimit stream).2, ?_, ?_, ?_, hokay⟩
  · rw [← hdue]
    exact readConnectResponse_comes Empty.elim ResponseHead.new_open stream
  · rw [← hdue]
    exact readConnectResponseTcp_comes ResponseHead.new_open stream
  · exact ⟨fun hverdict => ⟨_, hokay hverdict⟩,
      fun ⟨rest, hanswered⟩ => by rw [due_of_answered hanswered]⟩

end Resocks5.Connect
