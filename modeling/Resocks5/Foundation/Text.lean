import Resocks5.Foundation.Bytes

namespace Resocks5.Foundation

/-! UTF-8. -/

/-- How many bytes a first byte announces; nothing for one that begins no character. -/
def charWidth (b : UInt8) : Nat :=
  if b < 0x80 then 1
  else if 0xC2 ≤ b ∧ b ≤ 0xDF then 2
  else if 0xE0 ≤ b ∧ b ≤ 0xEF then 3
  else if 0xF0 ≤ b ∧ b ≤ 0xF4 then 4
  else 0

def isTail (b : UInt8) : Bool := 0x80 ≤ b && b ≤ 0xBF

/-- The second byte of three or four: no overlong form, no surrogate, no end beyond the last. -/
def isSecond (first b : UInt8) : Bool :=
  if first = 0xE0 then 0xA0 ≤ b && b ≤ 0xBF
  else if first = 0xED then 0x80 ≤ b && b ≤ 0x9F
  else if first = 0xF0 then 0x90 ≤ b && b ≤ 0xBF
  else if first = 0xF4 then 0x80 ≤ b && b ≤ 0x8F
  else isTail b

/-- What `from_utf8` takes. -/
def isUtf8 : Bytes → Bool
  | [] => true
  | a :: rest =>
    match charWidth a, rest with
    | 1, rest => isUtf8 rest
    | 2, b :: rest => isTail b && isUtf8 rest
    | 3, b :: c :: rest => isSecond a b && isTail c && isUtf8 rest
    | 4, b :: c :: d :: rest => isSecond a b && isTail c && isTail d && isUtf8 rest
    | _, _ => false

/-- How far the decoder comes from the front of a text, and whether that is a character. -/
def scanChar : Bytes → Bool × Nat
  | [] => (false, 1)
  | a :: rest =>
    let b := rest.getD 0 0
    let c := rest.getD 1 0
    let d := rest.getD 2 0
    match charWidth a with
    | 1 => (true, 1)
    | 2 => if isTail b then (true, 2) else (false, 1)
    | 3 =>
      if !isSecond a b then (false, 1)
      else if isTail c then (true, 3) else (false, 2)
    | 4 =>
      if !isSecond a b then (false, 1)
      else if !isTail c then (false, 2)
      else if isTail d then (true, 4) else (false, 3)
    | _ => (false, 1)

def replacement : Bytes := [0xEF, 0xBF, 0xBD]

def lossy : Nat → Bytes → Bytes
  | 0, _ => []
  | _, [] => []
  | fuel + 1, text =>
    let (valid, width) := scanChar text
    (if valid then text.take width else replacement) ++ lossy fuel (text.drop width)

/-- One replacement character for every part that cannot begin a character. -/
def fromUtf8Lossy (text : Bytes) : Bytes := lossy text.length text

theorem isUtf8_append {front back : Bytes} (hfront : isUtf8 front = true)
    (hback : isUtf8 back = true) : isUtf8 (front ++ back) = true := by
  fun_induction isUtf8 front with
  | case1 => exact hback
  | case2 a rest hwidth ih => simp [isUtf8, hwidth, ih hfront]
  | case3 a b rest hwidth ih =>
      rw [Bool.and_eq_true] at hfront
      simp [isUtf8, hwidth, hfront.1, ih hfront.2]
  | case4 a b c rest hwidth ih =>
      simp only [Bool.and_eq_true] at hfront
      simp [isUtf8, hwidth, hfront.1, ih hfront.2]
  | case5 a b c d rest hwidth ih =>
      simp only [Bool.and_eq_true] at hfront
      simp [isUtf8, hwidth, hfront.1, ih hfront.2]
  | case6 => cases hfront

theorem isUtf8_ascii {text : Bytes} (hascii : ∀ b ∈ text, b < 0x80) : isUtf8 text = true := by
  induction text with
  | nil => rfl
  | cons b rest ih =>
      have hwidth : charWidth b = 1 := if_pos (hascii b List.mem_cons_self)
      simp only [isUtf8, hwidth]
      exact ih fun c hc => hascii c (List.mem_cons_of_mem b hc)

theorem isTail_ascii {b : UInt8} (hb : b < 0x80) : isTail b = false := by
  rw [isTail, decide_eq_false (UInt8.not_le.mpr hb), Bool.false_and]

theorem isSecond_ascii {b : UInt8} (hb : b < 0x80) (first : UInt8) : isSecond first b = false := by
  have htail : isTail b = false := isTail_ascii hb
  grind [isSecond]

theorem isUtf8_split {front back : Bytes} {b : UInt8} (hb : b < 0x80)
    (htext : isUtf8 (front ++ b :: back) = true) : isUtf8 front = true ∧ isUtf8 back = true := by
  fun_induction isUtf8 front with
  | case1 =>
      have hwidth : charWidth b = 1 := if_pos hb
      simp only [List.nil_append, isUtf8, hwidth] at htext
      exact ⟨rfl, htext⟩
  | case2 a rest hwidth ih =>
      simp only [List.cons_append, isUtf8, hwidth] at htext
      exact ih htext
  | case3 a c rest hwidth ih =>
      simp only [List.cons_append, isUtf8, hwidth, Bool.and_eq_true] at htext
      obtain ⟨hrest, hback⟩ := ih htext.2
      exact ⟨by simp [htext.1, hrest], hback⟩
  | case4 a c d rest hwidth ih =>
      simp only [List.cons_append, isUtf8, hwidth, Bool.and_eq_true] at htext
      obtain ⟨hrest, hback⟩ := ih htext.2
      exact ⟨by simp [htext.1, hrest], hback⟩
  | case5 a c d e rest hwidth ih =>
      simp only [List.cons_append, isUtf8, hwidth, Bool.and_eq_true] at htext
      obtain ⟨hrest, hback⟩ := ih htext.2
      exact ⟨by simp [htext.1, hrest], hback⟩
  | case6 a rest h1 h2 h3 h4 =>
      exfalso
      have htail := isTail_ascii hb
      have hsecond := isSecond_ascii hb a
      rw [List.cons_append] at htext
      unfold isUtf8 at htext
      split at htext
      · rename_i hwidth
        exact h1 hwidth
      · rename_i c tail hwidth heq
        cases rest with
        | nil =>
            obtain ⟨rfl, rfl⟩ := List.cons.inj heq
            simp [htail] at htext
        | cons x rest => exact h2 x rest hwidth rfl
      · rename_i c d tail hwidth heq
        match rest, heq with
        | [], heq =>
            obtain ⟨rfl, _⟩ := List.cons.inj heq
            simp [hsecond] at htext
        | [x], heq =>
            obtain ⟨rfl, _⟩ := List.cons.inj (List.cons.inj heq).2
            simp [htail] at htext
        | x :: y :: rest, _ => exact h3 x y rest hwidth rfl
      · rename_i c d e tail hwidth heq
        match rest, heq with
        | [], heq =>
            obtain ⟨rfl, _⟩ := List.cons.inj heq
            simp [hsecond] at htext
        | [x], heq =>
            obtain ⟨rfl, _⟩ := List.cons.inj (List.cons.inj heq).2
            simp [htail] at htext
        | [x, y], heq =>
            obtain ⟨rfl, _⟩ := List.cons.inj (List.cons.inj (List.cons.inj heq).2).2
            simp [htail] at htext
        | x :: y :: z :: rest, _ => exact h4 x y z rest hwidth rfl
      · cases htext

def isHigh (b : UInt8) : Bool := 0x80 ≤ b

theorem isTail_high {b : UInt8} (hb : isTail b = true) : isHigh b = true := by
  rw [isTail, Bool.and_eq_true] at hb
  exact hb.1

theorem isSecond_high {first b : UInt8} (hb : isSecond first b = true) : isHigh b = true := by
  have hnot : ¬ b < 0x80 := fun hlow => by
    rw [isSecond_ascii hlow] at hb
    cases hb
  exact decide_eq_true (UInt8.not_lt.mp hnot)

theorem isUtf8_completion {front more : Bytes} (htext : isUtf8 (front ++ more) = true) :
    ∃ tail, (∀ b ∈ tail, isHigh b = true) ∧ isUtf8 (front ++ tail) = true := by
  fun_induction isUtf8 front with
  | case1 => exact ⟨[], nofun, rfl⟩
  | case2 a rest hwidth ih =>
      simp only [List.cons_append, isUtf8, hwidth] at htext ⊢
      exact ih htext
  | case3 a b rest hwidth ih =>
      simp only [List.cons_append, isUtf8, hwidth, Bool.and_eq_true] at htext ⊢
      obtain ⟨tail, htail, hutf8⟩ := ih htext.2
      exact ⟨tail, htail, htext.1, hutf8⟩
  | case4 a b c rest hwidth ih =>
      simp only [List.cons_append, isUtf8, hwidth, Bool.and_eq_true] at htext ⊢
      obtain ⟨tail, htail, hutf8⟩ := ih htext.2
      exact ⟨tail, htail, htext.1, hutf8⟩
  | case5 a b c d rest hwidth ih =>
      simp only [List.cons_append, isUtf8, hwidth, Bool.and_eq_true] at htext ⊢
      obtain ⟨tail, htail, hutf8⟩ := ih htext.2
      exact ⟨tail, htail, htext.1, hutf8⟩
  | case6 a rest h1 h2 h3 h4 =>
      -- the last character lacks some of its bytes
      rw [List.cons_append] at htext
      unfold isUtf8 at htext
      split at htext
      · rename_i hwidth
        exact absurd hwidth h1
      · rename_i b tail hwidth heq
        rw [Bool.and_eq_true] at htext
        cases rest with
        | nil =>
            refine ⟨[b], by simpa using isTail_high htext.1, ?_⟩
            simp [isUtf8, hwidth, htext.1]
        | cons x rest => exact absurd rfl (h2 x rest hwidth)
      · rename_i b c tail hwidth heq
        simp only [Bool.and_eq_true] at htext
        obtain ⟨⟨hb, hc⟩, -⟩ := htext
        match rest, heq with
        | [], _ =>
            refine ⟨[b, c], by simpa using ⟨isSecond_high hb, isTail_high hc⟩, ?_⟩
            simp [isUtf8, hwidth, hb, hc]
        | [x], heq =>
            obtain ⟨rfl, -⟩ := List.cons.inj heq
            refine ⟨[c], by simpa using isTail_high hc, ?_⟩
            simp [isUtf8, hwidth, hb, hc]
        | x :: y :: rest, _ => exact absurd rfl (h3 x y rest hwidth)
      · rename_i b c d tail hwidth heq
        simp only [Bool.and_eq_true] at htext
        obtain ⟨⟨⟨hb, hc⟩, hd⟩, -⟩ := htext
        match rest, heq with
        | [], _ =>
            refine ⟨[b, c, d], by simpa using ⟨isSecond_high hb, isTail_high hc, isTail_high hd⟩, ?_⟩
            simp [isUtf8, hwidth, hb, hc, hd]
        | [x], heq =>
            obtain ⟨rfl, -⟩ := List.cons.inj heq
            refine ⟨[c, d], by simpa using ⟨isTail_high hc, isTail_high hd⟩, ?_⟩
            simp [isUtf8, hwidth, hb, hc, hd]
        | [x, y], heq =>
            obtain ⟨rfl, hrest⟩ := List.cons.inj heq
            obtain ⟨rfl, -⟩ := List.cons.inj hrest
            refine ⟨[d], by simpa using isTail_high hd, ?_⟩
            simp [isUtf8, hwidth, hb, hc, hd]
        | x :: y :: z :: rest, _ => exact absurd rfl (h4 x y z rest hwidth)
      · cases htext

/-! Trimming. -/

def trimAscii (text : Bytes) : Bytes :=
  ((text.dropWhile isAsciiWhitespace).reverse.dropWhile isAsciiWhitespace).reverse

/-- The characters with the property `White_Space`. -/
def whitespaces : List Bytes :=
  [[0x09], [0x0A], [0x0B], [0x0C], [0x0D], [0x20], [0xC2, 0x85], [0xC2, 0xA0],
    [0xE1, 0x9A, 0x80], [0xE2, 0x80, 0x80], [0xE2, 0x80, 0x81], [0xE2, 0x80, 0x82],
    [0xE2, 0x80, 0x83], [0xE2, 0x80, 0x84], [0xE2, 0x80, 0x85], [0xE2, 0x80, 0x86],
    [0xE2, 0x80, 0x87], [0xE2, 0x80, 0x88], [0xE2, 0x80, 0x89], [0xE2, 0x80, 0x8A],
    [0xE2, 0x80, 0xA8], [0xE2, 0x80, 0xA9], [0xE2, 0x80, 0xAF], [0xE2, 0x81, 0x9F],
    [0xE3, 0x80, 0x80]]

def stripMarks (marks : List Bytes) : Nat → Bytes → Bytes
  | 0, text => text
  | fuel + 1, text =>
    match marks.find? (·.isPrefixOf text) with
    | none => text
    | some mark => stripMarks marks fuel (text.drop mark.length)

def trim (text : Bytes) : Bytes :=
  let front := stripMarks whitespaces text.length text
  (stripMarks (whitespaces.map List.reverse) front.length front.reverse).reverse

def isGraphic (b : UInt8) : Bool := 0x21 ≤ b && b ≤ 0x7E

theorem graphic_clean {b : UInt8} (hb : isGraphic b = true) : isUnprintable b = false := by
  grind [isGraphic, isUnprintable, isAsciiControl, isAsciiWhitespace]

theorem graphic_ascii {b : UInt8} (hb : isGraphic b = true) : b < 0x80 := by
  grind [isGraphic]

theorem clean_not_whitespace {b : UInt8} (hb : isUnprintable b = false) :
    isAsciiWhitespace b = false := by
  rw [isUnprintable, Bool.or_eq_false_iff] at hb
  exact hb.2

theorem trimAscii_id {text : Bytes} (hhead : ∀ b ∈ text.head?, isAsciiWhitespace b = false)
    (hlast : ∀ b ∈ text.getLast?, isAsciiWhitespace b = false) : trimAscii text = text := by
  have hdrop : ∀ text : Bytes, (∀ b ∈ text.head?, isAsciiWhitespace b = false) →
      text.dropWhile isAsciiWhitespace = text := by
    intro text hhead
    cases text with
    | nil => rfl
    | cons b text => exact List.dropWhile_cons_of_neg (by simp [hhead b rfl])
  rw [trimAscii, hdrop text hhead, hdrop _ (by simpa using hlast), List.reverse_reverse]

theorem trimAscii_space (text : Bytes) : trimAscii (0x20 :: text) = trimAscii text := by
  rw [trimAscii, List.dropWhile_cons_of_pos (by decide), trimAscii]

theorem stripMarks_id {marks : List Bytes} {fuel : Nat} {text : Bytes}
    (hmarks : ∀ mark ∈ marks, mark.isPrefixOf text = false) :
    stripMarks marks fuel text = text := by
  cases fuel with
  | zero => rfl
  | succ fuel =>
      rw [stripMarks, List.find?_eq_none.mpr fun mark hmark => by simp [hmarks mark hmark]]

theorem whitespaces_not_graphic {mark : Bytes} (hmark : mark ∈ whitespaces) :
    mark ≠ [] ∧ ∀ b ∈ mark, isGraphic b = false := by
  have hall : ∀ mark ∈ whitespaces, mark ≠ [] ∧ ∀ b ∈ mark, isGraphic b = false := by
    decide +kernel
  exact hall mark hmark

theorem not_mark {mark text : Bytes} (hmark : mark ≠ [] ∧ ∀ b ∈ mark, isGraphic b = false)
    (htext : ∀ b ∈ text, isGraphic b = true) : mark.isPrefixOf text = false := by
  obtain ⟨hne, hmark⟩ := hmark
  cases mark with
  | nil => exact absurd rfl hne
  | cons a mark =>
      cases text with
      | nil => rfl
      | cons b text =>
          have ha := hmark a List.mem_cons_self
          have hb := htext b List.mem_cons_self
          have hab : a ≠ b := by
            rintro rfl
            rw [ha] at hb
            cases hb
          simp [List.isPrefixOf, hab]

theorem trim_graphic {text : Bytes} (htext : ∀ b ∈ text, isGraphic b = true) :
    trim text = text := by
  have hback : ∀ mark ∈ whitespaces.map List.reverse,
      mark ≠ [] ∧ ∀ b ∈ mark, isGraphic b = false := by
    intro mark hmark
    obtain ⟨mark', hmark', rfl⟩ := List.mem_map.mp hmark
    simpa using whitespaces_not_graphic hmark'
  rw [trim, stripMarks_id fun mark hmark => not_mark (whitespaces_not_graphic hmark) htext]
  rw [stripMarks_id fun mark hmark => not_mark (hback mark hmark) (by simpa using htext)]
  exact List.reverse_reverse text

theorem mem_stripMarks {marks : List Bytes} {b : UInt8} (hmarks : ∀ mark ∈ marks, b ∉ mark)
    {fuel : Nat} {text : Bytes} (hb : b ∈ text) : b ∈ stripMarks marks fuel text := by
  induction fuel generalizing text with
  | zero => exact hb
  | succ fuel ih =>
      rw [stripMarks]
      split
      · exact hb
      · rename_i mark hfind
        refine ih ?_
        have hfront := List.find?_some hfind
        obtain ⟨rest, rfl⟩ := List.isPrefixOf_iff_prefix.mp hfront
        rw [List.drop_left]
        exact (List.mem_append.mp hb).resolve_left (hmarks mark (List.mem_of_find?_eq_some hfind))

theorem mem_trim {text : Bytes} {b : UInt8} (hgraphic : isGraphic b = true) (hb : b ∈ text) :
    b ∈ trim text := by
  have hnot {mark : Bytes} (hmark : mark ∈ whitespaces) : b ∉ mark := fun hin => by
    rw [(whitespaces_not_graphic hmark).2 b hin] at hgraphic
    cases hgraphic
  rw [trim, List.mem_reverse]
  refine mem_stripMarks ?_ (List.mem_reverse.mpr (mem_stripMarks (fun mark => hnot) hb))
  intro mark hmark
  obtain ⟨mark', hmark', rfl⟩ := List.mem_map.mp hmark
  rw [List.mem_reverse]
  exact hnot hmark'

/-! Searching. -/

def crlf : Bytes := [0x0D, 0x0A]

def position (pattern : Bytes) : Bytes → Option Nat
  | [] => none
  | b :: rest =>
    if pattern.isPrefixOf (b :: rest) then some 0
    else (position pattern rest).map (· + 1)

theorem position_eq_some {pattern text : Bytes} (hne : pattern ≠ []) {i : Nat} :
    position pattern text = some i ↔
      pattern <+: text.drop i ∧ ∀ j < i, ¬ pattern <+: text.drop j := by
  induction text generalizing i with
  | nil => simp [position, hne]
  | cons b rest ih =>
      rw [position]
      by_cases hfront : pattern <+: b :: rest
      · rw [if_pos (List.isPrefixOf_iff_prefix.mpr hfront)]
        cases i with
        | zero => simpa using hfront
        | succ i =>
            refine iff_of_false (by simp) fun hfirst => ?_
            exact hfirst.2 0 (Nat.succ_pos i) hfront
      · rw [if_neg fun hprefix => hfront (List.isPrefixOf_iff_prefix.mp hprefix)]
        cases i with
        | zero => simp [hfront]
        | succ i =>
            rw [Option.map_eq_some_iff]
            constructor
            · rintro ⟨k, hk, hki⟩
              obtain rfl := Nat.succ.inj hki
              obtain ⟨hat, hbefore⟩ := ih.mp hk
              refine ⟨hat, fun j hj => ?_⟩
              cases j with
              | zero => exact hfront
              | succ j => exact hbefore j (Nat.lt_of_succ_lt_succ hj)
            · rintro ⟨hat, hbefore⟩
              exact ⟨i, ih.mpr ⟨hat, fun j hj => hbefore (j + 1) (Nat.succ_lt_succ hj)⟩, rfl⟩

theorem position_eq_none {pattern text : Bytes} (hne : pattern ≠ []) :
    position pattern text = none ↔ ∀ j, ¬ pattern <+: text.drop j := by
  constructor
  · intro hnone j
    induction j using Nat.strongRecOn with
    | ind j ih =>
        intro hat
        rw [(position_eq_some hne).mpr ⟨hat, fun k hk => ih k hk⟩] at hnone
        cases hnone
  · intro hnever
    cases hposition : position pattern text with
    | none => rfl
    | some i => exact absurd ((position_eq_some hne).mp hposition).1 (hnever i)

theorem position_append {first : UInt8} {pattern front back : Bytes} (hfirst : first ∉ front) :
    position (first :: pattern) (front ++ back) =
      (position (first :: pattern) back).map (· + front.length) := by
  induction front with
  | nil => simp
  | cons b front ih =>
      obtain ⟨hne, hrest⟩ := not_or.mp (List.mem_cons.not.mp hfirst)
      rw [List.cons_append, position, if_neg (by simp [List.isPrefixOf, hne]), ih hrest,
        Option.map_map]
      rfl

theorem position_front {pattern front : Bytes} (hne : pattern ≠ []) {i : Nat}
    (hposition : position pattern front = some i) (back : Bytes) :
    position pattern (front ++ back) = some i := by
  obtain ⟨hat, hbefore⟩ := (position_eq_some hne).mp hposition
  have hlength := hat.length_le
  have hpos := List.length_pos_iff.mpr hne
  rw [List.length_drop] at hlength
  refine (position_eq_some hne).mpr ⟨?_, fun j hj hearly => hbefore j hj ?_⟩
  · rw [List.drop_append_of_le_length (by omega)]
    exact hat.trans (List.prefix_append _ _)
  · rw [List.drop_append_of_le_length (by omega)] at hearly
    exact List.prefix_of_prefix_length_le hearly (List.prefix_append _ _)
      (by rw [List.length_drop]; omega)

theorem position_lt {pattern text : Bytes} (hne : pattern ≠ []) {i : Nat}
    (hposition : position pattern text = some i) : i + pattern.length ≤ text.length := by
  obtain ⟨hat, _⟩ := (position_eq_some hne).mp hposition
  have hlength := hat.length_le
  have hpos := List.length_pos_iff.mpr hne
  rw [List.length_drop] at hlength
  omega

/-- After a part without the pattern the search resumes just before the end of that part. -/
theorem position_resume {pattern front back : Bytes} (hne : pattern ≠ [])
    (hnone : position pattern front = none) :
    position pattern (front ++ back) =
      (position pattern ((front ++ back).drop (front.length + 1 - pattern.length))).map
        (front.length + 1 - pattern.length + ·) := by
  have hpos := List.length_pos_iff.mpr hne
  have hbefore : ∀ j < front.length + 1 - pattern.length,
      ¬ pattern <+: (front ++ back).drop j := by
    intro j hj hat
    rw [List.drop_append_of_le_length (by omega)] at hat
    refine (position_eq_none hne).mp hnone j ?_
    exact List.prefix_of_prefix_length_le hat (List.prefix_append _ _)
      (by rw [List.length_drop]; omega)
  generalize front.length + 1 - pattern.length = skip at hbefore ⊢
  cases hrest : position pattern ((front ++ back).drop skip) with
  | none =>
      refine (position_eq_none hne).mpr fun j hat => ?_
      obtain hj | hj := Nat.lt_or_ge j skip
      · exact hbefore j hj hat
      · refine (position_eq_none hne).mp hrest (j - skip) ?_
        rwa [List.drop_drop, Nat.add_sub_cancel' hj]
  | some i =>
      obtain ⟨hat, hearlier⟩ := (position_eq_some hne).mp hrest
      rw [List.drop_drop] at hat
      refine (position_eq_some hne).mpr ⟨hat, fun j hj hearly => ?_⟩
      obtain hlt | hge := Nat.lt_or_ge j skip
      · exact hbefore j hlt hearly
      · have hj' : j < skip + i := hj
        refine hearlier (j - skip) (by omega) ?_
        rwa [List.drop_drop, Nat.add_sub_cancel' hge]

/-! Lines that end with CR and LF. -/

theorem crlf_ne_nil : crlf ≠ [] := List.cons_ne_nil _ _

theorem position_crlf_line {line : Bytes} (hline : position crlf line = none) (rest : Bytes) :
    position crlf (line ++ crlf ++ rest) = some line.length := by
  rw [List.append_assoc, position_resume crlf_ne_nil hline]
  obtain rfl | ⟨front, last, rfl⟩ := List.eq_nil_or_concat line
  · rfl
  · have hdrop : (front.concat last ++ (crlf ++ rest)).drop
        ((front.concat last).length + 1 - crlf.length) = last :: (crlf ++ rest) := by
      rw [List.concat_eq_append, List.append_assoc, List.length_append]
      exact List.drop_left' rfl
    have hlast : position crlf (last :: (crlf ++ rest)) = some 1 := by
      simp [position, crlf, List.isPrefixOf]
    rw [hdrop, hlast, Option.map_some, List.concat_eq_append, List.length_append]
    rfl

theorem position_crlf_split {text : Bytes} {i : Nat} (hposition : position crlf text = some i) :
    text = text.take i ++ crlf ++ text.drop (i + 2) ∧ position crlf (text.take i) = none := by
  obtain ⟨⟨rest, hat⟩, hbefore⟩ := (position_eq_some crlf_ne_nil).mp hposition
  have hrest : text.drop (i + 2) = rest := by
    rw [← List.drop_drop, ← hat]
    rfl
  refine ⟨?_, (position_eq_none crlf_ne_nil).mpr fun j hat => ?_⟩
  · rw [hrest, List.append_assoc, hat, List.take_append_drop]
  · have hlength := hat.length_le
    rw [List.length_drop, List.length_take] at hlength
    have htwo : crlf.length = 2 := rfl
    refine hbefore j (by omega) (hat.trans ?_)
    rw [List.drop_take]
    exact List.take_prefix _ _

theorem byLines {p : Bytes → Prop} (hopen : ∀ text, position crlf text = none → p text)
    (hline : ∀ line rest, position crlf line = none → p rest → p (line ++ crlf ++ rest))
    (text : Bytes) : p text := by
  induction hlength : text.length using Nat.strongRecOn generalizing text with
  | ind n ih =>
      cases hposition : position crlf text with
      | none => exact hopen text hposition
      | some i =>
          obtain ⟨htext, hnone⟩ := position_crlf_split hposition
          have hinside := position_lt crlf_ne_nil hposition
          have htwo : crlf.length = 2 := rfl
          rw [htext]
          refine hline _ _ hnone (ih _ ?_ _ rfl)
          rw [List.length_drop]
          omega

theorem position_crlf_append (front back : Bytes) :
    position crlf (front ++ crlf ++ back) ≠ none := fun hnone =>
  (position_eq_none crlf_ne_nil).mp hnone front.length (by
    rw [List.append_assoc, List.drop_left' rfl]
    exact List.prefix_append _ _)

theorem position_crlf_cut {text more line rest : Bytes} (hopen : position crlf text = none)
    (hcut : text ++ more = line ++ crlf ++ rest) :
    (∃ extra, line = text ++ extra ∧ more = extra ++ crlf ++ rest) ∨
      (text = line ++ [0x0D] ∧ more = 0x0A :: rest) := by
  rw [List.append_assoc] at hcut
  obtain ⟨extra, rfl, hmore⟩ | ⟨tail, rfl, hrest⟩ := List.append_eq_append_iff.mp hcut
  · exact .inl ⟨extra, rfl, by rw [hmore, List.append_assoc]⟩
  · match tail, hrest with
    | [], hrest => exact .inl ⟨[], by simp, by simpa using hrest.symm⟩
    | [b], hrest =>
        obtain ⟨rfl, hrest'⟩ := List.cons.inj hrest
        exact .inr ⟨rfl, hrest'.symm⟩
    | b :: c :: tail, hrest =>
        obtain ⟨rfl, hrest'⟩ := List.cons.inj hrest
        obtain ⟨rfl, -⟩ := List.cons.inj hrest'
        refine absurd hopen ?_
        have hline := position_crlf_append line tail
        rw [List.append_assoc] at hline
        exact hline

theorem position_crlf_more {text more : Bytes} (hopen : position crlf text = none)
    (hmore : 0x0A ∉ more) : position crlf (text ++ more) = none := by
  cases hposition : position crlf (text ++ more) with
  | none => rfl
  | some i =>
      obtain ⟨hcut, -⟩ := position_crlf_split hposition
      obtain ⟨extra, -, hcut⟩ | ⟨-, hcut⟩ := position_crlf_cut hopen hcut
      · rw [hcut] at hmore
        exact absurd (by simp [crlf]) hmore
      · rw [hcut] at hmore
        exact absurd List.mem_cons_self hmore

end Resocks5.Foundation
