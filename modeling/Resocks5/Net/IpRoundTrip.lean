import Resocks5.Net.IpAddr

namespace Resocks5.Net

open Resocks5.Foundation

/-! Reading back what was written, with more text behind it. -/

/-- The text does not go on with a byte of the class. -/
def Stops (p : UInt8 → Bool) (text : Bytes) : Prop :=
  ∀ b, text.head? = some b → p b = false

theorem Stops.nil (p : UInt8 → Bool) : Stops p [] := by
  intro b hb
  cases hb

theorem Stops.cons {p : UInt8 → Bool} {b : UInt8} (hb : p b = false) (rest : Bytes) :
    Stops p (b :: rest) := by
  intro c hc
  obtain rfl := Option.some.inj hc
  exact hb

theorem takeWhile_stops {p : UInt8 → Bool} {run rest : Bytes} (hrun : ∀ b ∈ run, p b = true)
    (hstops : Stops p rest) :
    (run ++ rest).takeWhile p = run ∧ (run ++ rest).dropWhile p = rest := by
  induction run with
  | nil =>
      cases rest with
      | nil => exact ⟨rfl, rfl⟩
      | cons b rest =>
          have hb := hstops b rfl
          simp [hb]
  | cons b run ih =>
      have hb := hrun b List.mem_cons_self
      obtain ⟨htake, hdrop⟩ := ih fun c hc => hrun c (List.mem_cons_of_mem _ hc)
      simp [hb, htake, hdrop]

theorem readNumber_render {radix maxDigits n : Nat} {allowZeroPrefix : Bool} {rest : Bytes}
    (hlow : 2 ≤ radix) (hhigh : radix ≤ 16) (hmax : 0 < maxDigits) (hn : n < radix ^ maxDigits)
    (hstops : Stops (isDigit radix) rest) :
    readNumber radix maxDigits allowZeroPrefix (render radix n ++ rest) = some (n, rest) := by
  obtain ⟨htake, hdrop⟩ := takeWhile_stops (render_digits hlow hhigh n) hstops
  have hpos := List.length_pos_iff.mpr (render_ne_nil radix n)
  have hlength := render_length hlow hmax hn
  have hzero : ¬ ((render radix n).head? = some 0x30 ∧ 1 < (render radix n).length) := by
    rintro ⟨hhead, hlong⟩
    by_cases hn0 : n = 0
    · rw [render, if_pos hn0] at hlong
      simp at hlong
    · exact render_no_leading_zero hlow hhigh hn0 hhead
  unfold readNumber
  dsimp only
  rw [htake, hdrop, numeralValue_render hlow hhigh, if_neg (by omega), if_neg]
  intro hfront
  simp only [Bool.and_eq_true, beq_iff_eq, decide_eq_true_eq] at hfront
  exact hzero ⟨hfront.1.2, hfront.2⟩

theorem readOctet_render (octet : UInt8) {rest : Bytes} (hstops : Stops (isDigit 10) rest) :
    readOctet (render 10 octet.toNat ++ rest) = some (octet, rest) := by
  have hlt := octet.toNat_lt
  rw [readOctet, readNumber_render (by omega) (by omega) (by omega) (by omega) hstops,
    Option.bind_some]
  dsimp only
  rw [if_pos (by omega)]
  simp

structure IsGroup (text : Bytes) : Prop where
  nonempty : text ≠ []
  short : text.length ≤ 4
  digits : ∀ b ∈ text, isDigit 16 b = true

def groupValue (text : Bytes) : UInt16 := (numeralValue 16 text).toUInt16

theorem isGroup_render (group : UInt16) : IsGroup (render 16 group.toNat) where
  nonempty := render_ne_nil 16 _
  short := render_length (by omega) (by omega) (by have := group.toNat_lt; omega)
  digits := render_digits (by omega) (by omega) _

theorem groupValue_render (group : UInt16) : groupValue (render 16 group.toNat) = group := by
  rw [groupValue, numeralValue_render (by omega) (by omega)]
  simp

theorem readGroup_text {text : Bytes} (htext : IsGroup text) {rest : Bytes}
    (hstops : Stops (isDigit 16) rest) :
    readGroup (text ++ rest) = some (groupValue text, rest) := by
  obtain ⟨htake, hdrop⟩ := takeWhile_stops htext.digits hstops
  have hpos := List.length_pos_iff.mpr htext.nonempty
  have hshort := htext.short
  unfold readGroup readNumber
  dsimp only
  rw [htake, hdrop, if_neg (by omega), if_neg (by simp)]
  rfl

theorem readSeparator_pos {α : Type} {sep : UInt8} {index : Nat}
    {inner : Bytes → Option (α × Bytes)} (hindex : 0 < index) (text : Bytes) :
    readSeparator sep index inner (sep :: text) = inner text := by
  simp [readSeparator, hindex, readGivenChar]

theorem readIpv4_display (addr : Ipv4) {rest : Bytes} (hstops : Stops (isDigit 10) rest) :
    readIpv4 (addr.display ++ rest) = some (addr, rest) := by
  have hdot : ∀ text, Stops (isDigit 10) (0x2E :: text) := fun text =>
    Stops.cons (by decide) text
  unfold readIpv4 Ipv4.display
  rw [readSeparator, if_neg (by omega)]
  simp only [List.append_assoc, List.cons_append]
  rw [readOctet_render addr.a (hdot _), Option.bind_some, readSeparator_pos (by omega),
    readOctet_render addr.b (hdot _), Option.bind_some, readSeparator_pos (by omega),
    readOctet_render addr.c (hdot _), Option.bind_some, readSeparator_pos (by omega),
    readOctet_render addr.d hstops, Option.bind_some]

theorem parseIpv4_display (addr : Ipv4) : parseIpv4 addr.display = some addr := by
  have hread := readIpv4_display addr (Stops.nil (isDigit 10))
  rw [List.append_nil] at hread
  have hlength : ∀ octet : UInt8, (render 10 octet.toNat).length ≤ 3 := fun octet =>
    render_length (by omega) (by omega) (by have := octet.toNat_lt; omega)
  have ha := hlength addr.a
  have hb := hlength addr.b
  have hc := hlength addr.c
  have hd := hlength addr.d
  unfold parseIpv4
  rw [if_neg, hread]
  simp only [Ipv4.display, List.length_append, List.length_cons]
  omega

theorem readIpv4_none {text : Bytes}
    (hdot : (text.dropWhile (isDigit 10)).head? ≠ some 0x2E) : readIpv4 text = none := by
  unfold readIpv4
  rw [readSeparator, if_neg (by omega)]
  cases hoctet : readOctet text with
  | none => rfl
  | some read =>
      obtain ⟨a, rest⟩ := read
      obtain ⟨⟨value, rest'⟩, hnumber, hvalue⟩ := Option.bind_eq_some_iff.mp hoctet
      have hrest : rest' = rest := by
        dsimp only at hvalue
        split at hvalue
        · cases hvalue
          rfl
        · cases hvalue
      have hdrop : text.dropWhile (isDigit 10) = rest := by
        rw [← hrest]
        unfold readNumber at hnumber
        dsimp only at hnumber
        split at hnumber
        · cases hnumber
        · split at hnumber
          · cases hnumber
          · cases hnumber
            rfl
      have hchar : readGivenChar 0x2E rest = none := by
        rw [hdrop] at hdot
        cases rest with
        | nil => rfl
        | cons b rest =>
            rw [readGivenChar, if_neg]
            rintro rfl
            exact hdot rfl
      have hsep : readSeparator 0x2E 1 readOctet rest = none := by
        rw [readSeparator, if_pos (by omega), hchar]
        rfl
      simp only [Option.bind_some, hsep, Option.bind_none]

theorem readIpv4_group {digits rest : Bytes} (hdigits : ∀ b ∈ digits, isDigit 16 b = true)
    (hstops : Stops (isDigit 10) rest) (hdot : rest.head? ≠ some 0x2E) :
    readIpv4 (digits ++ rest) = none := by
  refine readIpv4_none ?_
  induction digits with
  | nil =>
      have hnil : ∀ b ∈ ([] : Bytes), isDigit 10 b = true := by simp
      rw [(takeWhile_stops hnil hstops).2]
      exact hdot
  | cons b digits ih =>
      rw [List.cons_append, List.dropWhile_cons]
      split
      · exact ih fun c hc => hdigits c (List.mem_cons_of_mem _ hc)
      · intro hhead
        obtain rfl := Option.some.inj hhead
        have hb := hdigits _ List.mem_cons_self
        exact absurd hb (by decide)

/-! Groups with their separators. -/

def spellSep (index : Nat) : Bytes := if 0 < index then [0x3A] else []

def spellGroups : Nat → List UInt16 → Bytes
  | _, [] => []
  | index, group :: rest =>
    spellSep index ++ render 16 group.toNat ++ spellGroups (index + 1) rest

def spellTexts : Nat → List Bytes → Bytes
  | _, [] => []
  | index, text :: rest => spellSep index ++ text ++ spellTexts (index + 1) rest

theorem spellGroups_eq (index : Nat) (groups : List UInt16) :
    spellGroups index groups = spellTexts index (groups.map fun group => render 16 group.toNat) := by
  induction groups generalizing index with
  | nil => rfl
  | cons group rest ih => rw [spellGroups, List.map_cons, spellTexts, ih]

theorem fmtSubslice_cons (group next : UInt16) (rest : List UInt16) :
    fmtSubslice (group :: next :: rest) =
      render 16 group.toNat ++ 0x3A :: fmtSubslice (next :: rest) := by
  rw [fmtSubslice]
  simp

theorem fmtSubslice_eq (groups : List UInt16) : fmtSubslice groups = spellGroups 0 groups := by
  have hcons : ∀ (group : UInt16) (rest : List UInt16) (index : Nat), 0 < index →
      spellGroups index (group :: rest) = 0x3A :: fmtSubslice (group :: rest) := by
    intro group rest
    induction rest generalizing group with
    | nil =>
        intro index hindex
        simp [spellGroups, spellSep, hindex, fmtSubslice]
    | cons next rest ih =>
        intro index hindex
        rw [spellGroups, ih next (index + 1) (by omega), fmtSubslice_cons]
        simp [spellSep, hindex]
  cases groups with
  | nil => rfl
  | cons group rest =>
      cases rest with
      | nil => simp [spellGroups, spellSep, fmtSubslice]
      | cons next rest =>
          rw [spellGroups, hcons next rest 1 (by omega), fmtSubslice_cons]
          simp [spellSep]

theorem readSeparator_spell {α : Type} (index : Nat) (inner : Bytes → Option (α × Bytes))
    (text : Bytes) : readSeparator 0x3A index inner (spellSep index ++ text) = inner text := by
  unfold spellSep
  split
  · rename_i hindex
    exact readSeparator_pos hindex text
  · rename_i hindex
    rw [readSeparator, if_neg hindex, List.nil_append]

/-- No group follows: the end of the text, or the elision. -/
def Ending (rest : Bytes) : Prop :=
  rest = [] ∨ ∃ text, rest = 0x3A :: 0x3A :: text

theorem Ending.nil : Ending [] := .inl rfl

theorem Ending.elided (text : Bytes) : Ending (0x3A :: 0x3A :: text) := .inr ⟨text, rfl⟩

theorem Ending.blocks {α : Type} {rest : Bytes} (hending : Ending rest) (index : Nat)
    (inner : Bytes → Option (α × Bytes)) (hnil : inner [] = none)
    (hcolon : ∀ text, inner (0x3A :: text) = none) :
    readSeparator 0x3A index inner rest = none := by
  obtain rfl | ⟨text, rfl⟩ := hending
  · rw [readSeparator]
    split
    · rfl
    · exact hnil
  · rw [readSeparator]
    split
    · simp [readGivenChar, hcolon]
    · exact hcolon _

theorem readIpv4_colon (text : Bytes) : readIpv4 (0x3A :: text) = none := by
  refine readIpv4_none ?_
  rw [List.dropWhile_cons_of_neg (by decide)]
  simp

theorem readGroup_colon (text : Bytes) : readGroup (0x3A :: text) = none := by
  have htake : (0x3A :: text).takeWhile (isDigit 16) = [] :=
    List.takeWhile_cons_of_neg (by decide)
  simp [readGroup, readNumber, htake]

theorem readGroups_texts {texts : List Bytes} (htexts : ∀ text ∈ texts, IsGroup text)
    {slots : Nat} (index : Nat) {rest : Bytes} (hlength : texts.length ≤ slots)
    (hending : Ending rest) :
    readGroups slots index (spellTexts index texts ++ rest) =
      ⟨texts.map groupValue, false, rest⟩ := by
  induction texts generalizing slots index with
  | nil =>
      cases slots with
      | zero => rfl
      | succ slots =>
          have hipv4 := hending.blocks index readIpv4 rfl readIpv4_colon
          have hgroup := hending.blocks index readGroup rfl readGroup_colon
          rw [spellTexts, List.nil_append, readGroups]
          simp only [hipv4, hgroup, ite_self]
          rfl
  | cons text texts ih =>
      cases slots with
      | zero => cases hlength
      | succ slots =>
          have htext := htexts text List.mem_cons_self
          have hnext := ih (fun other hother => htexts other (List.mem_cons_of_mem _ hother))
            (index + 1) (Nat.le_of_succ_le_succ hlength)
          generalize htail : spellTexts (index + 1) texts ++ rest = tail at hnext
          -- what follows a group is an end, an elision or one separator
          have hcolon : tail = [] ∨ ∃ text, tail = 0x3A :: text := by
            cases texts with
            | nil =>
                obtain rfl | ⟨text, rfl⟩ := hending
                · exact .inl htail.symm
                · exact .inr ⟨_, htail.symm⟩
            | cons next texts =>
                refine .inr ⟨next ++ spellTexts (index + 2) texts ++ rest, ?_⟩
                rw [← htail, spellTexts, spellSep, if_pos (Nat.succ_pos _)]
                simp
          have hstops : ∀ radix, isDigit radix 0x3A = false → Stops (isDigit radix) tail := by
            intro radix hradix
            obtain rfl | ⟨text, rfl⟩ := hcolon
            · exact Stops.nil _
            · exact Stops.cons hradix _
          have hdot : tail.head? ≠ some 0x2E := by
            obtain rfl | ⟨text, rfl⟩ := hcolon <;> simp
          have hipv4 := readIpv4_group htext.digits (hstops 10 (by decide)) hdot
          have hgroup := readGroup_text htext (hstops 16 (by decide))
          rw [spellTexts, List.append_assoc, List.append_assoc, htail, readGroups]
          simp only [readSeparator_spell, hipv4, hgroup, ite_self, hnext]
          rfl

theorem readGroups_spell (groups : List UInt16) (slots index : Nat) {rest : Bytes}
    (hlength : groups.length ≤ slots) (hending : Ending rest) :
    readGroups slots index (spellGroups index groups ++ rest) = ⟨groups, false, rest⟩ := by
  have htexts : ∀ text ∈ groups.map (fun group => render 16 group.toNat), IsGroup text := by
    intro text htext
    obtain ⟨group, _, rfl⟩ := List.mem_map.mp htext
    exact isGroup_render group
  rw [spellGroups_eq, readGroups_texts htexts index (by simpa using hlength) hending,
    List.map_map]
  simp [Function.comp_def, groupValue_render]

/-! The elided run. -/

def Span.Zero (segments : List UInt16) (span : Span) : Prop :=
  ∀ j, span.start ≤ j → j < span.start + span.len → segments[j]? = some 0

theorem longestZeroes_zero (front back : List UInt16) {current longest : Span}
    (hcurrent : current.Zero (front ++ back))
    (hends : current.len ≠ 0 → current.start + current.len = front.length)
    (hlongest : longest.Zero (front ++ back)) :
    (longestZeroes front.length current longest back).Zero (front ++ back) := by
  induction back generalizing front current longest with
  | nil => exact hlongest
  | cons segment back ih =>
      have hsplit : front ++ segment :: back = (front ++ [segment]) ++ back := by simp
      have hlen : front.length + 1 = (front ++ [segment]).length := by simp
      rw [longestZeroes]
      split
      · rename_i hzero
        dsimp only
        have hgrown : Span.Zero (front ++ segment :: back)
            ⟨if current.len = 0 then front.length else current.start, current.len + 1⟩ := by
          intro j hlow hhigh
          dsimp only at hlow hhigh
          by_cases hj : j = front.length
          · subst hj
            simp [hzero]
          · have hne : current.len ≠ 0 := by
              intro hnil
              rw [if_pos hnil] at hlow hhigh
              omega
            rw [if_neg hne] at hlow hhigh
            have hend := hends hne
            exact hcurrent j hlow (by omega)
        rw [hlen, hsplit]
        rw [hsplit] at hgrown hlongest
        refine ih (front ++ [segment]) hgrown ?_ ?_
        · intro _
          dsimp only
          rw [List.length_append, List.length_singleton]
          split
          · rename_i hnil
            omega
          · rename_i hne
            have hend := hends hne
            omega
        · split
          · exact hgrown
          · exact hlongest
      · rw [hlen, hsplit]
        rw [hsplit] at hlongest
        refine ih (front ++ [segment]) ?_ (fun hne => absurd rfl hne) hlongest
        intro j _ hhigh
        simp at hhigh

theorem Span.Zero.split {segments : List UInt16} {span : Span} (hzero : span.Zero segments)
    (hlen : 0 < span.len) :
    span.start + span.len ≤ segments.length ∧
      segments.take span.start ++ List.replicate span.len 0 ++
        segments.drop (span.start + span.len) = segments := by
  have hlast := hzero (span.start + span.len - 1) (by omega) (by omega)
  have hbound := (List.getElem?_eq_some_iff.mp hlast).1
  refine ⟨by omega, List.ext_getElem? fun j => ?_⟩
  by_cases hlow : j < span.start
  · rw [List.append_assoc, List.getElem?_append_left (by simp; omega),
      List.getElem?_take_of_lt hlow]
  · by_cases hhigh : j < span.start + span.len
    · rw [hzero j (by omega) hhigh, List.append_assoc,
        List.getElem?_append_right (by simp; omega),
        List.getElem?_append_left (by simp; omega)]
      rw [List.getElem?_replicate, if_pos (by simp; omega)]
    · rw [List.getElem?_append_right (by simp; omega), List.getElem?_drop]
      congr 1
      simp
      omega

theorem parseIpv6_eq {text : Bytes} {addr : Ipv6}
    (hread : readIpv6Groups text = some (addr.segments, [])) : parseIpv6 text = some addr := by
  unfold parseIpv6
  split
  · rename_i segments hsegments
    rw [hread] at hsegments
    cases hsegments
    rfl
  · rename_i hnone
    exact absurd hread (hnone addr.segments)

theorem readIpv6_elided {segments : List UInt16} {span : Span} (height : segments.length = 8)
    (hzero : span.Zero segments) (hlen : 1 < span.len) :
    readIpv6Groups (fmtSubslice (segments.take span.start) ++ 0x3A :: 0x3A ::
      fmtSubslice (segments.drop (span.start + span.len))) = some (segments, []) := by
  obtain ⟨hbound, hsplit⟩ := hzero.split (by omega)
  have hstart : (segments.take span.start).length = span.start := by
    rw [List.length_take]
    omega
  have htail : (segments.drop (span.start + span.len)).length = 8 - span.start - span.len := by
    rw [List.length_drop]
    omega
  have hhead := readGroups_spell (segments.take span.start) 8 0
    (by omega) (Ending.elided (fmtSubslice (segments.drop (span.start + span.len))))
  have hback := readGroups_spell (segments.drop (span.start + span.len))
    (7 - span.start) 0 (by omega) Ending.nil
  rw [← fmtSubslice_eq] at hhead hback
  rw [List.append_nil] at hback
  unfold readIpv6Groups
  dsimp only
  rw [hhead]
  simp only [hstart, Bool.false_eq_true, if_false, readGivenChar, if_true, Option.bind_some,
    Option.map_some, hback, htail]
  rw [if_neg (by omega)]
  simp only [Option.some.injEq, Prod.mk.injEq, and_true]
  rw [show 8 - span.start - (8 - span.start - span.len) = span.len by omega]
  exact hsplit

theorem readIpv6_mapped (v4 : Ipv4) :
    readIpv6Groups (lit "::ffff:" ++ v4.display) =
      some ([0, 0, 0, 0, 0, 0xFFFF, joinBytes v4.a v4.b, joinBytes v4.c v4.d], []) := by
  have htext : lit "::ffff:" ++ v4.display =
      0x3A :: 0x3A :: (render 16 (0xFFFF : UInt16).toNat ++ 0x3A :: v4.display) := by
    have hlit : lit "::ffff:" = 0x3A :: 0x3A :: (render 16 (0xFFFF : UInt16).toNat ++ [0x3A]) := by
      decide
    rw [hlit]
    simp
  have hhead := readGroups_spell [] 8 0 (by simp)
    (Ending.elided (render 16 (0xFFFF : UInt16).toNat ++ 0x3A :: v4.display))
  rw [spellGroups, List.nil_append] at hhead
  have hv4 := readIpv4_display v4 (Stops.nil (isDigit 10))
  rw [List.append_nil] at hv4
  have hcolon : ∀ radix, isDigit radix 0x3A = false →
      Stops (isDigit radix) (0x3A :: v4.display) := fun _ hradix => Stops.cons hradix _
  have hgroup := readGroup_text (isGroup_render 0xFFFF) (hcolon 16 (by decide))
  rw [groupValue_render] at hgroup
  have hnone := readIpv4_group (isGroup_render 0xFFFF).digits (hcolon 10 (by decide)) (by simp)
  have htail : readGroups 7 0 (render 16 (0xFFFF : UInt16).toNat ++ 0x3A :: v4.display) =
      ⟨[0xFFFF, joinBytes v4.a v4.b, joinBytes v4.c v4.d], true, []⟩ := by
    have hsep : ∀ {α : Type} (inner : Bytes → Option (α × Bytes)) (text : Bytes),
        readSeparator 0x3A 0 inner text = inner text := fun _ _ => rfl
    rw [readGroups]
    simp only [hsep, hnone, ite_self, hgroup]
    rw [readGroups]
    simp [readSeparator_pos, hv4, Groups.cons]
  rw [htext]
  unfold readIpv6Groups
  dsimp only
  rw [hhead]
  simp only [List.length_nil, readGivenChar, if_true, Option.bind_some, Option.map_some,
    Nat.sub_zero, htail, Bool.false_eq_true, if_false]
  rfl

theorem joinBytes_split (pair : UInt16) : joinBytes (pair >>> 8).toUInt8 pair.toUInt8 = pair := by
  apply UInt16.toNat_inj.mp
  have hlt := pair.toNat_lt
  simp [joinBytes, Nat.shiftRight_eq_div_pow]
  omega

theorem parseIpv6_display (addr : Ipv6) : parseIpv6 addr.display = some addr := by
  refine parseIpv6_eq ?_
  unfold Ipv6.display
  cases hmapped : addr.toIpv4Mapped with
  | some v4 =>
      unfold Ipv6.toIpv4Mapped at hmapped
      split at hmapped
      · rename_i ab cd hsegments
        obtain rfl := Option.some.inj hmapped
        simp only [readIpv6_mapped, joinBytes_split, hsegments]
      · cases hmapped
  | none =>
      dsimp only
      split
      · rename_i hlen
        refine readIpv6_elided addr.eight ?_ hlen
        exact longestZeroes_zero [] addr.segments (fun j _ hj => by simp at hj)
          (fun hne => absurd rfl hne) (fun j _ hj => by simp at hj)
      · have hread := readGroups_spell addr.segments 8 0
          (le_of_eq addr.eight) Ending.nil
        rw [← fmtSubslice_eq, List.append_nil] at hread
        unfold readIpv6Groups
        simp [hread, addr.eight]

/-! Every byte written is a hexadecimal digit or a separator. -/

theorem isDigit_mono {b : UInt8} (hdigit : isDigit 10 b = true) : isDigit 16 b = true := by
  obtain ⟨digit, hsome⟩ := Option.isSome_iff_exists.mp hdigit
  have hlt := toDigit_lt hsome
  rw [toDigit, Option.filter_eq_some_iff] at hsome
  have hwide : toDigit 16 b = some digit := by
    rw [toDigit, Option.filter_eq_some_iff]
    exact ⟨hsome.1, by simp; omega⟩
  rw [isDigit, hwide]
  rfl

theorem Ipv4.display_bytes (addr : Ipv4) :
    ∀ b ∈ addr.display, isDigit 10 b = true ∨ b = 0x2E := by
  intro b hb
  have hdigits : ∀ octet : UInt8, ∀ b ∈ render 10 octet.toNat, isDigit 10 b = true :=
    fun octet => render_digits (by omega) (by omega) octet.toNat
  simp only [Ipv4.display, List.mem_append, List.mem_cons, or_assoc] at hb
  obtain hb | hb | hb | hb | hb | hb | hb := hb
  · exact .inl (hdigits _ b hb)
  · exact .inr hb
  · exact .inl (hdigits _ b hb)
  · exact .inr hb
  · exact .inl (hdigits _ b hb)
  · exact .inr hb
  · exact .inl (hdigits _ b hb)

theorem fmtSubslice_bytes (groups : List UInt16) :
    ∀ b ∈ fmtSubslice groups, isDigit 16 b = true ∨ b = 0x3A := by
  have hspell : ∀ (index : Nat), ∀ b ∈ spellGroups index groups,
      isDigit 16 b = true ∨ b = 0x3A := by
    induction groups with
    | nil =>
        intro index b hb
        cases hb
    | cons group rest ih =>
        intro index b hb
        rw [spellGroups, List.mem_append, List.mem_append] at hb
        obtain (hb | hb) | hb := hb
        · unfold spellSep at hb
          split at hb
          · exact .inr (List.mem_singleton.mp hb)
          · cases hb
        · exact .inl (render_digits (by omega) (by omega) _ b hb)
        · exact ih (index + 1) b hb
  rw [fmtSubslice_eq]
  exact hspell 0

theorem Ipv6.display_bytes (addr : Ipv6) :
    ∀ b ∈ addr.display, isDigit 16 b = true ∨ b = 0x3A ∨ b = 0x2E := by
  intro b hb
  unfold Ipv6.display at hb
  split at hb
  · rename_i v4 _
    rw [List.mem_append] at hb
    obtain hb | hb := hb
    · have hlit : ∀ b ∈ lit "::ffff:", isDigit 16 b = true ∨ b = 0x3A ∨ b = 0x2E := by
        decide +kernel
      exact hlit b hb
    · exact (v4.display_bytes b hb).imp isDigit_mono .inr
  · dsimp only at hb
    split at hb
    · simp only [List.mem_append, List.mem_cons] at hb
      obtain hb | rfl | rfl | hb := hb
      · exact (fmtSubslice_bytes _ b hb).imp_right .inl
      · exact .inr (.inl rfl)
      · exact .inr (.inl rfl)
      · exact (fmtSubslice_bytes _ b hb).imp_right .inl
    · exact (fmtSubslice_bytes _ b hb).imp_right .inl

end Resocks5.Net
