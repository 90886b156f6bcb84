import Resocks5.Foundation.Duplex
import Resocks5.Inbound.Http

namespace Resocks5.Inbound

open Resocks5.Foundation
open Prog

/-! Reading the head of an HTTP request. -/

/-- A head ends where a header first does. -/
def IsHead (head : Bytes) : Prop :=
  position headerEnd head = some (head.length - 4) ∧ 4 ≤ head.length

theorem headerEnd_ne_nil : headerEnd ≠ [] := by decide

theorem IsHead.not_before {head text : Bytes} (hhead : IsHead head) (htext : text <+: head)
    (hlt : text.length < head.length) (j : Nat) : ¬ headerEnd <+: text.drop j := by
  intro hat
  obtain ⟨rest, rfl⟩ := htext
  have hlength := hat.length_le
  rw [List.length_drop] at hlength
  have hj : j + 4 ≤ text.length := by
    have : headerEnd.length = 4 := rfl
    omega
  refine ((position_eq_some headerEnd_ne_nil).mp hhead.1).2 j (by omega) ?_
  rw [List.drop_append_of_le_length (by omega)]
  exact hat.trans (List.prefix_append _ _)

theorem isHead_take {text : Bytes} {i : Nat} (hposition : position headerEnd text = some i) :
    IsHead (text.take (i + 4)) := by
  obtain ⟨hat, hbefore⟩ := (position_eq_some headerEnd_ne_nil).mp hposition
  have hlength := hat.length_le
  rw [List.length_drop] at hlength
  have hfour : headerEnd.length = 4 := rfl
  have htake : (text.take (i + 4)).length = i + 4 := by
    rw [List.length_take]
    omega
  refine ⟨(position_eq_some headerEnd_ne_nil).mpr ⟨?_, fun j hj hearly => ?_⟩, by omega⟩
  · rw [htake, Nat.add_sub_cancel, List.drop_take, Nat.add_sub_cancel_left]
    exact List.prefix_take_iff.mpr ⟨hat, by omega⟩
  · refine hbefore j (by omega) ?_
    rw [List.drop_take] at hearly
    exact hearly.trans (List.take_prefix _ _)

inductive HeadVerdict where
  | found (stop : Nat)
  | tooLarge
  | closed
  deriving DecidableEq, Repr

def headVerdict (stream : Bytes) : HeadVerdict :=
  match position headerEnd stream with
  | some i => if maxHeaderBytes < i + 4 then .tooLarge else .found (i + 4)
  | none => if maxHeaderBytes < stream.length then .tooLarge else .closed

theorem headVerdict_large {front back : Bytes} (hnone : position headerEnd front = none)
    (hlarge : maxHeaderBytes < front.length) : headVerdict (front ++ back) = .tooLarge := by
  have hlength : (front ++ back).length = front.length + back.length := List.length_append
  rw [headVerdict]
  cases hposition : position headerEnd (front ++ back) with
  | none =>
      dsimp only
      rw [if_pos (by omega)]
  | some i =>
      dsimp only
      rw [if_pos]
      by_contra hsmall
      obtain ⟨hat, _⟩ := (position_eq_some headerEnd_ne_nil).mp hposition
      have hfour : headerEnd.length = 4 := rfl
      refine (position_eq_none headerEnd_ne_nil).mp hnone i ?_
      rw [List.drop_append_of_le_length (by omega)] at hat
      exact List.prefix_of_prefix_length_le hat (List.prefix_append _ _)
        (by rw [List.length_drop]; omega)

section

variable {α β : Type} {granted : Credentials → Bool} {goal : ServerProg α × Bytes → Prop}

theorem httpFail_feed {status : HttpStatus} {error : ServerError} {input : Bytes}
    (f : β → ServerProg α) (hgoal : goal (fail error, input)) :
    Inevitably (Feed granted) goal (httpFail status error >>= f, input) :=
  Feed.write (.now hgoal)

/-- However the stream is cut, it comes to the same verdict, and nothing behind a head is lost. -/
theorem readHead_verdict (f : Bytes × Bytes → ServerProg α) {stream : Bytes}
    (hfound : ∀ stop, headVerdict stream = .found stop → ∀ pipeline left,
      pipeline ++ left = stream.drop stop →
      Inevitably (Feed granted) goal (f (stream.take stop, pipeline), left))
    (hlarge : headVerdict stream = .tooLarge → ∀ left, goal (fail .headerTooLarge, left))
    (hclosed : headVerdict stream = .closed → goal (fail .closed, []))
    {buf input : Bytes} (hinput : buf ++ input = stream) (hnone : position headerEnd buf = none)
    (hbuf : buf.length ≤ maxHeaderBytes) :
    Inevitably (Feed granted) goal (readHead buf >>= f, input) := by
  induction hwork : maxHeaderBytes - buf.length using Nat.strongRecOn generalizing buf input with
  | ind work ih =>
      rw [readHead, read_bind]
      by_cases hend : input = []
      · subst hend
        rw [List.append_nil] at hinput
        refine Feed.ended ?_
        rw [dif_pos rfl]
        refine .now (hclosed ?_)
        rw [← hinput, headVerdict, hnone]
        exact if_neg (Nat.not_lt.mpr hbuf)
      refine Feed.read (by omega) hend fun chunk rest hcut hchunk _ => ?_
      rw [dif_neg hchunk]
      dsimp only
      have hresume : position headerEnd (buf ++ chunk) = (position headerEnd
          ((buf ++ chunk).drop (buf.length - 3))).map (buf.length - 3 + ·) :=
        position_resume headerEnd_ne_nil hnone
      have hgrown : (buf ++ chunk) ++ rest = stream := by
        rw [← hinput, hcut, List.append_assoc]
      have hlength : (buf ++ chunk).length = buf.length + chunk.length := List.length_append
      have hpos := List.length_pos_iff.mpr hchunk
      cases hscan : position headerEnd ((buf ++ chunk).drop (buf.length - 3)) with
      | some i =>
          rw [hscan, Option.map_some] at hresume
          have hposition := position_front headerEnd_ne_nil hresume rest
          have hinside := position_lt headerEnd_ne_nil hresume
          have hfour : headerEnd.length = 4 := rfl
          rw [hgrown] at hposition
          have hverdict : headVerdict stream = if maxHeaderBytes < buf.length - 3 + i + 4 then
              .tooLarge else .found (buf.length - 3 + i + 4) := by
            rw [headVerdict, hposition]
          dsimp only
          split
          · rename_i hpast
            rw [if_pos hpast] at hverdict
            exact httpFail_feed f (hlarge hverdict rest)
          · rename_i hpast
            rw [if_neg hpast] at hverdict
            have hstop : buf.length - 3 + i + 4 ≤ (buf ++ chunk).length := by omega
            have htake : (buf ++ chunk).take (buf.length - 3 + i + 4) =
                stream.take (buf.length - 3 + i + 4) := by
              rw [← hgrown, List.take_append_of_le_length hstop]
            rw [htake]
            refine hfound _ hverdict _ rest ?_
            rw [← hgrown, List.drop_append_of_le_length hstop]
      | none =>
          rw [hscan, Option.map_none] at hresume
          dsimp only
          split
          · rename_i hpast
            exact httpFail_feed f (hlarge (hgrown ▸ headVerdict_large hresume hpast) rest)
          · rename_i hpast
            exact ih _ (by omega) hgrown hresume (Nat.le_of_not_lt hpast) rfl

theorem readHead_feed {head following : Bytes} (hhead : IsHead head)
    (hsize : head.length ≤ maxHeaderBytes) (f : Bytes × Bytes → ServerProg α)
    (hnext : ∀ pipeline left, pipeline ++ left = following →
      Inevitably (Feed granted) goal (f (head, pipeline), left))
    {buf input : Bytes} (hinput : buf ++ input = head ++ following)
    (hbuf : buf.length < head.length) :
    Inevitably (Feed granted) goal (readHead buf >>= f, input) := by
  have hpart : buf <+: head := List.prefix_of_prefix_length_le
    (hinput ▸ List.prefix_append buf input) (List.prefix_append head following) hbuf.le
  have hnone : position headerEnd buf = none := (position_eq_none headerEnd_ne_nil).mpr
    (hhead.not_before hpart hbuf)
  obtain ⟨hposition, hfour⟩ := hhead
  have hverdict : headVerdict (head ++ following) = .found head.length := by
    rw [headVerdict, position_front headerEnd_ne_nil hposition]
    dsimp only
    rw [Nat.sub_add_cancel hfour, if_neg (Nat.not_lt.mpr hsize)]
  refine readHead_verdict f ?_ (fun hlarge => ?_) (fun hclosed => ?_) hinput hnone
    (hbuf.le.trans hsize)
  · intro stop hstop pipeline left hrest
    rw [hverdict] at hstop
    obtain rfl := HeadVerdict.found.inj hstop
    rw [List.drop_left] at hrest
    rw [List.take_left]
    exact hnext pipeline left hrest
  · rw [hverdict] at hlarge
    cases hlarge
  · rw [hverdict] at hclosed
    cases hclosed

end

/-! Lines without a carriage return. -/

theorem nextLine_append {line : Bytes} (hline : (0x0D : UInt8) ∉ line) (rest : Bytes) :
    nextLine (line ++ crlf ++ rest) = some (line, rest) := by
  have hposition : position crlf (line ++ crlf ++ rest) = some line.length := by
    rw [List.append_assoc]
    exact (position_append hline).trans (by simp [crlf, position])
  have hne : (line ++ crlf ++ rest).isEmpty = false := by simp [crlf]
  rw [nextLine, hne, hposition]
  simp [crlf]

theorem nextLine_last {line : Bytes} (hline : (0x0D : UInt8) ∉ line) (hne : line ≠ []) :
    nextLine line = some (line, []) := by
  have hposition : position crlf line = none := by
    have happend : position crlf (line ++ []) = _ := position_append hline
    rw [List.append_nil] at happend
    exact happend.trans rfl
  have hne' : line.isEmpty = false := by simpa using hne
  rw [nextLine, hne', hposition]
  rfl

def joined : List Bytes → Bytes
  | [] => []
  | line :: lines => line ++ lines.flatMap (crlf ++ ·)

def IsLine (line : Bytes) : Prop := line ≠ [] ∧ (0x0D : UInt8) ∉ line

theorem joined_singleton (line : Bytes) : joined [line] = line := List.append_nil line

theorem joined_cons_cons (line next : Bytes) (lines : List Bytes) :
    joined (line :: next :: lines) = line ++ crlf ++ joined (next :: lines) := by
  simp [joined]

theorem nextLine_joined {line : Bytes} (hline : IsLine line) (lines : List Bytes) :
    nextLine (joined (line :: lines)) = some (line, joined lines) := by
  cases lines with
  | nil =>
      rw [joined_singleton]
      exact nextLine_last hline.2 hline.1
  | cons next lines =>
      rw [joined_cons_cons]
      exact nextLine_append hline.2 _

theorem length_le_joined {lines : List Bytes} (hlines : ∀ line ∈ lines, IsLine line) :
    lines.length ≤ (joined lines).length := by
  induction lines with
  | nil => exact Nat.zero_le _
  | cons line lines ih =>
      have hpos := List.length_pos_iff.mpr (hlines line List.mem_cons_self).1
      have hrest := ih fun other hother => hlines other (List.mem_cons_of_mem line hother)
      cases lines with
      | nil =>
          rw [joined_singleton]
          exact hpos
      | cons next lines =>
          rw [joined_cons_cons, List.length_append, List.length_append]
          rw [List.length_cons]
          omega

theorem collectLines_joined {lines : List Bytes} (hlines : ∀ line ∈ lines, IsLine line)
    {fuel : Nat} (hfuel : lines.length ≤ fuel) : collectLines fuel (joined lines) = lines := by
  induction lines generalizing fuel with
  | nil =>
      cases fuel with
      | zero => rfl
      | succ fuel => rfl
  | cons line lines ih =>
      cases fuel with
      | zero => cases hfuel
      | succ fuel =>
          rw [collectLines, nextLine_joined (hlines line List.mem_cons_self)]
          dsimp only
          rw [ih (fun other hother => hlines other (List.mem_cons_of_mem line hother))
            (Nat.le_of_succ_le_succ hfuel)]

theorem headLines_joined {line : Bytes} {lines : List Bytes}
    (hlines : ∀ other ∈ line :: lines, IsLine other) :
    headLines (joined (line :: lines) ++ headerEnd) = ⟨line, lines⟩ := by
  have htake : (joined (line :: lines) ++ headerEnd).take
      ((joined (line :: lines) ++ headerEnd).length - 4) = joined (line :: lines) := by
    rw [List.length_append]
    exact List.take_left
  have hrest : ∀ other ∈ lines, IsLine other := fun other hother =>
    hlines other (List.mem_cons_of_mem line hother)
  rw [headLines, htake, nextLine_joined (hlines line List.mem_cons_self)]
  dsimp only
  rw [collectLines_joined hrest (length_le_joined hrest)]

theorem position_crlf {b : UInt8} (hb : b ≠ 0x0D) (rest : Bytes) :
    position headerEnd (crlf ++ b :: rest) = (position headerEnd (b :: rest)).map (· + 2) := by
  have hfirst : headerEnd.isPrefixOf (0x0D :: 0x0A :: b :: rest) = false := by
    simp [headerEnd, crlf, List.isPrefixOf, Ne.symm hb]
  have hsecond : headerEnd.isPrefixOf (0x0A :: b :: rest) = false := by
    simp [headerEnd, crlf, List.isPrefixOf]
  show position headerEnd (0x0D :: 0x0A :: b :: rest) = _
  rw [position, hfirst, if_neg Bool.false_ne_true, position, hsecond,
    if_neg Bool.false_ne_true, Option.map_map]
  rfl

theorem isHead_joined {line : Bytes} {lines : List Bytes}
    (hlines : ∀ other ∈ line :: lines, IsLine other) :
    IsHead (joined (line :: lines) ++ headerEnd) := by
  suffices hposition : position headerEnd (joined (line :: lines) ++ headerEnd) =
      some (joined (line :: lines)).length by
    refine ⟨?_, ?_⟩
    · rw [hposition, List.length_append]
      rfl
    · rw [List.length_append]
      exact Nat.le_add_left 4 _
  induction lines generalizing line with
  | nil =>
      rw [joined_singleton]
      have happend : position headerEnd (line ++ headerEnd) = _ :=
        position_append (hlines line List.mem_cons_self).2
      rw [happend]
      exact congrArg some (Nat.zero_add _)
  | cons next lines ih =>
      have hrest := ih fun other hother => hlines other (List.mem_cons_of_mem line hother)
      obtain ⟨hne, hnext⟩ := hlines next (List.mem_cons_of_mem line List.mem_cons_self)
      obtain ⟨b, tail, htail⟩ : ∃ b tail, joined (next :: lines) ++ headerEnd = b :: tail ∧
          b ≠ 0x0D := by
        cases next with
        | nil => exact absurd rfl hne
        | cons b next =>
            refine ⟨b, _, rfl, ?_⟩
            rintro rfl
            exact hnext List.mem_cons_self
      rw [joined_cons_cons, List.append_assoc, List.append_assoc]
      have happend : position headerEnd (line ++ (crlf ++ (joined (next :: lines) ++ headerEnd))) =
          (position headerEnd (crlf ++ (joined (next :: lines) ++ headerEnd))).map
            (· + line.length) := position_append (hlines line List.mem_cons_self).2
      rw [happend, htail.1, position_crlf htail.2, ← htail.1, hrest, Option.map_map]
      simp only [Option.map_some, Function.comp_apply, List.length_append, Option.some.injEq]
      have hcrlf : crlf.length = 2 := rfl
      omega

/-! The lines of a head. -/

theorem nextLine_suffix {text line rest : Bytes} (hnext : nextLine text = some (line, rest)) :
    rest <:+ text := by
  rw [nextLine] at hnext
  split at hnext
  · cases hnext
  · split at hnext
    · rename_i pos _
      obtain ⟨_, rfl⟩ := Prod.mk.inj (Option.some.inj hnext)
      exact List.drop_suffix (pos + 2) text
    · obtain ⟨_, rfl⟩ := Prod.mk.inj (Option.some.inj hnext)
      exact List.nil_suffix

theorem no_crlf {line : Bytes} (hnone : position crlf line = none) : ¬ crlf <:+: line := by
  rintro ⟨front, back, rfl⟩
  refine (position_eq_none crlf_ne_nil).mp hnone front.length ?_
  rw [List.append_assoc, List.drop_left]
  exact List.prefix_append _ _

theorem collectLines_text (text : Bytes) (hopen : ¬ crlf <:+ text) :
    ∃ lines, joined lines = text ∧ (∀ line ∈ lines, ¬ crlf <:+: line) ∧
      ∀ fuel, text.length ≤ fuel → collectLines fuel text = lines := by
  have hnothing : ∀ fuel, collectLines fuel [] = [] := by
    intro fuel
    cases fuel with
    | zero => rfl
    | succ fuel => rfl
  induction text using byLines with
  | hopen text hnone =>
      by_cases hnil : text = []
      · subst hnil
        exact ⟨[], rfl, List.forall_mem_nil _, fun fuel _ => hnothing fuel⟩
      · refine ⟨[text], joined_singleton text, ?_, fun fuel hfuel => ?_⟩
        · exact List.forall_mem_singleton.mpr (no_crlf hnone)
        have hpos := List.length_pos_iff.mpr hnil
        obtain ⟨fuel, rfl⟩ := Nat.exists_eq_add_of_lt (Nat.lt_of_lt_of_le hpos hfuel)
        have hsome : text.isEmpty = false := by simpa using hnil
        have hnext : nextLine text = some (text, []) := by
          rw [nextLine, hsome, hnone]
          rfl
        rw [Nat.zero_add, collectLines, hnext]
        dsimp only
        rw [hnothing]
  | hline line rest hnone ih =>
      have hbehind : ¬ crlf <:+ rest := fun hends => hopen (hends.trans (List.suffix_append _ _))
      obtain ⟨lines, hjoined, hopens, hlines⟩ := ih hbehind
      refine ⟨line :: lines, ?_, List.forall_mem_cons.mpr ⟨no_crlf hnone, hopens⟩,
        fun fuel hfuel => ?_⟩
      · cases lines with
        | nil =>
            obtain rfl : rest = [] := hjoined.symm
            exact absurd ⟨line, (List.append_nil _).symm⟩ hopen
        | cons next lines => rw [joined_cons_cons, hjoined]
      · have hnext : nextLine (line ++ crlf ++ rest) = some (line, rest) := by
          have hsome : (line ++ crlf ++ rest).isEmpty = false := by simp [crlf]
          rw [nextLine, hsome, position_crlf_line hnone]
          simp [crlf]
        have hcrlf : crlf.length = 2 := rfl
        rw [List.length_append, List.length_append, hcrlf] at hfuel
        obtain ⟨fuel, rfl⟩ : ∃ less, fuel = less + 1 := ⟨fuel - 1, by omega⟩
        rw [collectLines, hnext]
        dsimp only
        rw [hlines fuel (by omega)]

theorem head_joined {head : Bytes} (hhead : IsHead head) (hsome : headLines head ≠ ⟨[], []⟩) :
    head = joined ((headLines head).requestLine :: (headLines head).headers) ++ headerEnd ∧
      ∀ line ∈ (headLines head).requestLine :: (headLines head).headers, ¬ crlf <:+: line := by
  obtain ⟨hposition, hlength⟩ := hhead
  obtain ⟨hat, hbefore⟩ := (position_eq_some headerEnd_ne_nil).mp hposition
  have htail : head.drop (head.length - 4) = headerEnd := by
    refine (hat.eq_of_length ?_).symm
    rw [List.length_drop, Nat.sub_sub_self hlength]
    rfl
  have hcut : head = head.take (head.length - 4) ++ headerEnd := by
    rw [← htail, List.take_append_drop]
  have hopen : ¬ crlf <:+ head.take (head.length - 4) := by
    rintro ⟨front, hfront⟩
    have hless : front.length < head.length - 4 := by
      have hsum := congrArg List.length hfront
      have hcrlf : crlf.length = 2 := rfl
      rw [List.length_append, List.length_take, hcrlf] at hsum
      omega
    refine hbefore front.length hless ?_
    rw [hcut, ← hfront, List.append_assoc, List.drop_left' rfl]
    exact ⟨crlf, rfl⟩
  rw [headLines] at hsome ⊢
  generalize head.take (head.length - 4) = text at hcut hopen hsome ⊢
  rw [hcut, List.append_left_inj]
  cases hnext : nextLine text with
  | none =>
      rw [hnext] at hsome
      exact absurd rfl hsome
  | some pair =>
      obtain ⟨line, rest⟩ := pair
      have hsuffix := nextLine_suffix hnext
      obtain ⟨lines, hjoined, hopens, hlines⟩ := collectLines_text text hopen
      obtain ⟨behind, _, _, hbehind⟩ :=
        collectLines_text rest fun hends => hopen (hends.trans hsuffix)
      have hall := hlines (text.length + 1) (Nat.le_succ _)
      rw [collectLines, hnext] at hall
      dsimp only at hall ⊢
      rw [hbehind _ hsuffix.length_le] at hall
      rw [hbehind _ (Nat.le_refl _), ← hjoined, hall]
      exact ⟨rfl, hopens⟩

end Resocks5.Inbound
