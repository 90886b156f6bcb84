import Resocks5.Recovery.Stability

namespace Resocks5.Recovery

open Resocks5.Foundation

/-! Which prefixes of a request settle the host that it names. -/

def hostValue (line : Bytes) : Option Bytes :=
  (splitOnce 0x3A line).bind fun (name, value) =>
    if eqIgnoreAsciiCase (trimAscii name) (lit "host") then some value else none

/-- Header lines that name the host for good: they come to an end, or to a whole `Host` line, or to
the front of one that no more bytes make UTF-8. -/
inductive HeadersDecided : Bytes → Prop
  | blank (rest : Bytes) : HeadersDecided (crlf ++ rest)
  | host {line value : Bytes} (hline : position crlf line = none)
      (hvalue : hostValue line = some value) (rest : Bytes) : HeadersDecided (line ++ crlf ++ rest)
  | garbled {line value : Bytes} (hline : position crlf line = none)
      (hvalue : hostValue line = some value)
      (hgarbled : ∀ more, isUtf8 (value ++ more) = false) : HeadersDecided line
  | other {line rest : Bytes} (hline : position crlf line = none) (hne : line ≠ [])
      (hother : hostValue line = none) (hrest : HeadersDecided rest) :
      HeadersDecided (line ++ crlf ++ rest)

/-- The first line is no request, or the headers are settled. -/
inductive HostDecided : Bytes → Prop
  | foreign {line : Bytes} (hline : position crlf line = none)
      (hother : isHttp1RequestLine line = false) (rest : Bytes) : HostDecided (line ++ crlf ++ rest)
  | headers {line rest : Bytes} (hline : position crlf line = none)
      (hrest : HeadersDecided rest) : HostDecided (line ++ crlf ++ rest)

/-- A whole `Host` line, the first of the header lines, that says `host`. -/
inductive HeadersName (host : Bytes) : Bytes → Prop
  | host {line value : Bytes} (hline : position crlf line = none) (hne : line ≠ [])
      (hvalue : hostValue line = some value) (hhost : hostOf value = some host) (rest : Bytes) :
      HeadersName host (line ++ crlf ++ rest)
  | other {line rest : Bytes} (hline : position crlf line = none) (hne : line ≠ [])
      (hother : hostValue line = none) (hrest : HeadersName host rest) :
      HeadersName host (line ++ crlf ++ rest)

/-- A request line, and header lines that name the host. -/
inductive NamesHost (host : Bytes) : Bytes → Prop
  | headers {line rest : Bytes} (hline : position crlf line = none)
      (hrequest : isHttp1RequestLine line = true) (hrest : HeadersName host rest) :
      NamesHost host (line ++ crlf ++ rest)

/-- A request so far: it begins with a letter, its first line feed follows a carriage return, and
no line feed follows another one. -/
structure WellBegun (data : Bytes) : Prop where
  letter : ∀ first ∈ data.head?, isAsciiAlphabetic first = true
  firstLine : ∀ line rest, splitOnce 0x0A data = some (line, rest) → line.getLast? = some 0x0D
  noBlank : position [0x0A, 0x0A] data = none

theorem crlfLine_line {line : Bytes} (hline : position crlf line = none) (rest : Bytes) :
    crlfLine (line ++ crlf ++ rest) = some (line, rest) := by
  rw [crlfLine, position_crlf_line hline, Option.map_some, List.append_assoc,
    List.take_left' rfl, ← List.drop_drop, List.drop_left' rfl]
  rfl

theorem crlfLine_open {text : Bytes} (hopen : position crlf text = none) :
    crlfLine text = none := by
  rw [crlfLine, hopen, Option.map_none]

theorem hostHeader_line {line : Bytes} (hline : position crlf line = none) (fuel : Nat)
    (rest : Bytes) : hostHeader (fuel + 1) (line ++ crlf ++ rest) =
      if line.isEmpty then none
      else
        match hostValue line with
        | none => hostHeader fuel rest
        | some value => hostOf value := by
  rw [hostHeader, crlfLine_line hline, hostValue]
  dsimp only
  cases splitOnce 0x3A line with
  | none => rfl
  | some pair =>
      obtain ⟨name, value⟩ := pair
      rw [Option.bind_some]
      dsimp only
      cases eqIgnoreAsciiCase (trimAscii name) (lit "host") with
      | false => rfl
      | true => rfl

theorem hostHeader_fuel {headers : Bytes} {fuel : Nat} (hfuel : headers.length ≤ fuel) :
    hostHeader fuel headers = hostHeader headers.length headers := by
  induction headers using byLines generalizing fuel with
  | hopen text hopen =>
      have hnone (fuel : Nat) : hostHeader fuel text = none := by
        cases fuel with
        | zero => rfl
        | succ fuel => rw [hostHeader, crlfLine_open hopen]
      rw [hnone, hnone]
  | hline line rest hline ih =>
      have hlength : (line ++ crlf ++ rest).length = (line.length + rest.length + 1) + 1 := by
        have htwo : crlf.length = 2 := rfl
        rw [List.length_append, List.length_append]
        omega
      rw [hlength] at hfuel
      obtain ⟨fuel, rfl⟩ := Nat.exists_eq_add_of_le' hfuel
      rw [hlength, ← Nat.add_assoc, hostHeader_line hline, hostHeader_line hline,
        ih (show rest.length ≤ fuel + (line.length + rest.length + 1) by omega),
        ih (show rest.length ≤ line.length + rest.length + 1 by omega)]

def headersHost (headers : Bytes) : Option Bytes := hostHeader headers.length headers

theorem headersHost_open {headers : Bytes} (hopen : position crlf headers = none) :
    headersHost headers = none := by
  rw [headersHost]
  cases headers.length with
  | zero => rfl
  | succ fuel => rw [hostHeader, crlfLine_open hopen]

theorem headersHost_line {line : Bytes} (hline : position crlf line = none) (rest : Bytes) :
    headersHost (line ++ crlf ++ rest) =
      if line.isEmpty then none
      else
        match hostValue line with
        | none => headersHost rest
        | some value => hostOf value := by
  have hlength : (line ++ crlf ++ rest).length = (line.length + rest.length + 1) + 1 := by
    have htwo : crlf.length = 2 := rfl
    rw [List.length_append, List.length_append]
    omega
  rw [headersHost, hlength, hostHeader_line hline, hostHeader_fuel (by omega), headersHost]

theorem parseHttpHost_line {line : Bytes} (hline : position crlf line = none) (rest : Bytes) :
    parseHttpHost (line ++ crlf ++ rest) =
      if isHttp1RequestLine line then headersHost rest else none := by
  rw [parseHttpHost, crlfLine_line hline, Option.bind_some]
  rfl

theorem parseHttpHost_open {data : Bytes} (hopen : position crlf data = none) :
    parseHttpHost data = none := by
  rw [parseHttpHost, crlfLine_open hopen, Option.bind_none]

theorem headersHost_names {headers host : Bytes} :
    headersHost headers = some host ↔ HeadersName host headers := by
  constructor
  · intro hhost
    induction headers using byLines with
    | hopen text hopen =>
        rw [headersHost_open hopen] at hhost
        cases hhost
    | hline line rest hline ih =>
        rw [headersHost_line hline] at hhost
        split at hhost
        · cases hhost
        · rename_i hempty
          have hne : line ≠ [] := by simpa using hempty
          cases hvalue : hostValue line with
          | none =>
              rw [hvalue] at hhost
              exact .other hline hne hvalue (ih hhost)
          | some value =>
              rw [hvalue] at hhost
              exact .host hline hne hvalue hhost rest
  · intro hnames
    induction hnames with
    | host hline hne hvalue hhost rest =>
        rw [headersHost_line hline, if_neg (by simpa using hne), hvalue]
        exact hhost
    | other hline hne hother hrest ih =>
        rw [headersHost_line hline, if_neg (by simpa using hne), hother]
        exact ih

theorem parseHttpHost_names {data host : Bytes} :
    parseHttpHost data = some host ↔ NamesHost host data := by
  constructor
  · intro hhost
    cases hposition : position crlf data with
    | none =>
        rw [parseHttpHost_open hposition] at hhost
        cases hhost
    | some i =>
        obtain ⟨hdata, hline⟩ := position_crlf_split hposition
        rw [hdata] at hhost ⊢
        rw [parseHttpHost_line hline] at hhost
        split at hhost
        · rename_i hrequest
          exact .headers hline hrequest (headersHost_names.mp hhost)
        · cases hhost
  · rintro ⟨hline, hrequest, hrest⟩
    rw [parseHttpHost_line hline, if_pos hrequest, headersHost_names.mpr hrest]

/-! What is settled is final. -/

theorem hostValue_append {line value : Bytes} (hvalue : hostValue line = some value)
    (more : Bytes) : hostValue (line ++ more) = some (value ++ more) := by
  obtain ⟨⟨name, value'⟩, hsplit, hname⟩ := Option.bind_eq_some_iff.mp hvalue
  rw [hostValue, splitOnce_grows hsplit more, Option.bind_some]
  dsimp only at hname ⊢
  split at hname
  · rename_i hhost
    rw [if_pos hhost, ← Option.some.inj hname]
  · cases hname

theorem hostValue_cr {line value : Bytes} (hvalue : hostValue (line ++ [0x0D]) = some value) :
    ∃ value', value = value' ++ [0x0D] ∧ hostValue line = some value' := by
  obtain ⟨⟨name, back⟩, hsplit, hname⟩ := Option.bind_eq_some_iff.mp hvalue
  dsimp only at hname
  split at hname
  · rename_i hhost
    obtain rfl := Option.some.inj hname
    obtain ⟨htext, hnot⟩ := splitOnce_eq_some.mp hsplit
    obtain rfl | ⟨front, last, rfl⟩ := List.eq_nil_or_concat back
    · obtain ⟨-, hlast⟩ := List.append_inj' htext rfl
      cases hlast
    · rw [List.concat_eq_append, ← List.cons_append, ← List.append_assoc] at htext
      obtain ⟨rfl, hlast⟩ := List.append_inj' htext rfl
      obtain ⟨rfl, -⟩ := List.cons.inj hlast
      refine ⟨front, List.concat_eq_append, ?_⟩
      rw [hostValue, splitOnce_append hnot, Option.bind_some]
      exact if_pos hhost
  · cases hname

theorem hostOf_garbled {value : Bytes} (hgarbled : isUtf8 value = false) :
    hostOf value = none := by
  rw [hostOf, hgarbled]
  rfl

theorem HeadersDecided.final {headers : Bytes} (hdecided : HeadersDecided headers) (more : Bytes) :
    headersHost (headers ++ more) = headersHost headers := by
  induction hdecided with
  | blank rest =>
      have hblank (rest : Bytes) : headersHost (crlf ++ rest) = none :=
        headersHost_line (show position crlf [] = none from rfl) rest
      rw [List.append_assoc, hblank, hblank]
  | @host line value hline hvalue rest =>
      rw [List.append_assoc, headersHost_line hline, headersHost_line hline, hvalue]
  | @garbled line value hline hvalue hgarbled =>
      rw [headersHost_open hline]
      cases hposition : position crlf (line ++ more) with
      | none => exact headersHost_open hposition
      | some i =>
          obtain ⟨hcut, hline'⟩ := position_crlf_split hposition
          generalize (line ++ more).take i = line' at hcut hline'
          rw [hcut, headersHost_line hline']
          have hnone : ∀ value', hostValue line' = some value' → isUtf8 value' = false := by
            intro value' hvalue'
            obtain ⟨extra, rfl, -⟩ | ⟨rfl, -⟩ := position_crlf_cut hline hcut
            · rw [hostValue_append hvalue extra] at hvalue'
              obtain rfl := Option.some.inj hvalue'
              exact hgarbled extra
            · obtain ⟨front, rfl, hfront⟩ := hostValue_cr hvalue
              obtain rfl := Option.some.inj (hfront.symm.trans hvalue')
              rw [Bool.eq_false_iff]
              intro hutf8
              have hwhole := hgarbled []
              rw [List.append_nil, isUtf8_append hutf8 (by decide)] at hwhole
              cases hwhole
          have hhost : (hostValue line').isSome = true := by
            obtain ⟨extra, rfl, -⟩ | ⟨rfl, -⟩ := position_crlf_cut hline hcut
            · rw [hostValue_append hvalue extra]
              rfl
            · obtain ⟨front, -, hfront⟩ := hostValue_cr hvalue
              rw [hfront]
              rfl
          obtain ⟨value', hvalue'⟩ := Option.isSome_iff_exists.mp hhost
          rw [hvalue']
          dsimp only
          rw [hostOf_garbled (hnone value' hvalue'), ite_self]
  | @other line rest hline hne hother hrest ih =>
      rw [List.append_assoc, headersHost_line hline, headersHost_line hline, hother]
      dsimp only
      rw [ih]

theorem HostDecided.final {data : Bytes} (hdecided : HostDecided data) (more : Bytes) :
    parseHttpHost (data ++ more) = parseHttpHost data := by
  cases hdecided with
  | @foreign line hline hother rest =>
      rw [List.append_assoc, parseHttpHost_line hline, parseHttpHost_line hline, hother]
      rfl
  | @headers line rest hline hrest =>
      rw [List.append_assoc, parseHttpHost_line hline, parseHttpHost_line hline, hrest.final]

/-! What is not settled can still name a host. -/

theorem hostOf_some {value : Bytes} (hutf8 : isUtf8 value = true) {b : UInt8}
    (hgraphic : isGraphic b = true) (hb : b ∈ value) : (hostOf value).isSome = true := by
  have hne : (trim value).isEmpty = false := by
    rw [List.isEmpty_eq_false_iff]
    exact List.ne_nil_of_mem (mem_trim hgraphic hb)
  rw [hostOf, hutf8]
  simp [hne]

theorem headersDecided_or (headers : Bytes) : HeadersDecided headers ∨
    (headersHost headers = none ∧ ∃ more, (headersHost (headers ++ more)).isSome = true) := by
  induction headers using byLines with
  | hopen text hopen =>
      cases hvalue : hostValue text with
      | none =>
          refine .inr ⟨headersHost_open hopen, ?_⟩
          have hhost : (headersHost (lit "Host: x\r\n")).isSome = true := by decide +kernel
          cases text with
          | nil => exact ⟨_, hhost⟩
          | cons b text =>
              refine ⟨crlf ++ lit "Host: x\r\n", ?_⟩
              rw [← List.append_assoc, headersHost_line hopen, hvalue]
              exact hhost
      | some value =>
          by_cases hgarbled : ∀ more, isUtf8 (value ++ more) = false
          · exact .inl (.garbled hopen hvalue hgarbled)
          · refine .inr ⟨headersHost_open hopen, ?_⟩
            push Not at hgarbled
            obtain ⟨more, hmore⟩ := hgarbled
            obtain ⟨tail, hhigh, htail⟩ := isUtf8_completion (by simpa using hmore)
            have hfeed : 0x0A ∉ tail ++ [0x78] := by
              rw [List.mem_append, not_or]
              exact ⟨fun hfeed => absurd (hhigh _ hfeed) (by decide), by decide⟩
            refine ⟨tail ++ [0x78] ++ crlf, ?_⟩
            have hline := headersHost_line (position_crlf_more hopen hfeed) []
            rw [List.append_nil, List.append_assoc] at hline
            rw [hline, hostValue_append hvalue, if_neg (by simp)]
            refine hostOf_some ?_ (b := 0x78) (by decide) (by simp)
            rw [← List.append_assoc]
            exact isUtf8_append htail (by decide)
  | hline line rest hline ih =>
      cases hvalue : hostValue line with
      | some value => exact .inl (.host hline hvalue rest)
      | none =>
          by_cases hne : line = []
          · rw [hne]
            exact .inl (.blank rest)
          · obtain hrest | ⟨hnone, more, hmore⟩ := ih
            · exact .inl (.other hline hne hvalue hrest)
            · have hnonempty : ¬ line.isEmpty = true := by simpa using hne
              refine .inr ⟨?_, more, ?_⟩
              · rw [headersHost_line hline, hvalue, if_neg hnonempty]
                exact hnone
              · rw [List.append_assoc, headersHost_line hline, hvalue, if_neg hnonempty]
                exact hmore

theorem hostDecided_or (data : Bytes) : HostDecided data ∨
    (parseHttpHost data = none ∧ ∃ more, (parseHttpHost (data ++ more)).isSome = true) := by
  cases hposition : position crlf data with
  | none =>
      refine .inr ⟨parseHttpHost_open hposition, lit " HTTP/1.1" ++ crlf ++ lit "Host: x\r\n", ?_⟩
      have hline : position crlf (data ++ lit " HTTP/1.1") = none :=
        position_crlf_more hposition (by decide +kernel)
      have hrequest : isHttp1RequestLine (data ++ lit " HTTP/1.1") = true := by
        rw [isHttp1RequestLine, Bool.or_eq_true]
        exact .inr (List.isSuffixOf_iff_suffix.mpr (List.suffix_append _ _))
      rw [← List.append_assoc, ← List.append_assoc, parseHttpHost_line hline, if_pos hrequest]
      decide +kernel
  | some i =>
      obtain ⟨hdata, hline⟩ := position_crlf_split hposition
      generalize data.take i = line at hdata hline
      generalize data.drop (i + 2) = rest at hdata
      rw [hdata]
      cases hrequest : isHttp1RequestLine line with
      | false => exact .inl (.foreign hline hrequest rest)
      | true =>
          obtain hrest | ⟨hnone, more, hmore⟩ := headersDecided_or rest
          · exact .inl (.headers hline hrest)
          · refine .inr ⟨?_, more, ?_⟩
            · rw [parseHttpHost_line hline, if_pos hrequest, hnone]
            · rw [List.append_assoc, parseHttpHost_line hline, if_pos hrequest]
              exact hmore

/-! What the other function goes by. -/

theorem blank_behind {line rest front back : Bytes} (hline : position crlf line = none)
    (hblank : line ++ crlf ++ rest = front ++ (crlf ++ crlf) ++ back) :
    ∃ front', crlf ++ rest = front' ++ (crlf ++ crlf) ++ back := by
  rw [List.append_assoc, List.append_assoc front] at hblank
  obtain ⟨front', -, hrest⟩ | ⟨tail, rfl, hrest⟩ := List.append_eq_append_iff.mp hblank
  · exact ⟨front', hrest.trans (List.append_assoc _ _ _).symm⟩
  · match tail, hrest with
    | [], hrest => exact ⟨[], by simpa using hrest.symm⟩
    | [b], hrest =>
        obtain ⟨-, hrest⟩ := List.cons.inj hrest
        cases hrest
    | b :: c :: tail, hrest =>
        obtain ⟨rfl, hrest'⟩ := List.cons.inj hrest
        obtain ⟨rfl, -⟩ := List.cons.inj hrest'
        refine absurd hline ?_
        have hinside := position_crlf_append front tail
        rw [List.append_assoc] at hinside
        exact hinside

theorem headersDecided_blank {headers front back : Bytes}
    (hblank : crlf ++ headers = front ++ (crlf ++ crlf) ++ back) : HeadersDecided headers := by
  induction headers using byLines generalizing front with
  | hopen text hopen =>
      -- the second end of a line lies in the text
      refine absurd hopen ?_
      match front, hblank with
      | [], hblank =>
          have htext : text = crlf ++ back := List.append_cancel_left hblank
          rw [htext]
          exact position_crlf_append [] back
      | [b], hblank =>
          obtain ⟨-, hblank⟩ := List.cons.inj hblank
          cases hblank
      | b :: c :: front, hblank =>
          obtain ⟨-, hblank⟩ := List.cons.inj hblank
          obtain ⟨-, htext⟩ := List.cons.inj hblank
          have hinside := position_crlf_append front (crlf ++ back)
          rw [← List.append_assoc, List.append_assoc front] at hinside
          exact (congrArg (position crlf) htext).trans_ne hinside
  | hline line rest hline ih =>
      cases hvalue : hostValue line with
      | some value => exact .host hline hvalue rest
      | none =>
          by_cases hne : line = []
          · rw [hne]
            exact .blank rest
          · have hbehind : ∃ front', line ++ crlf ++ rest = front' ++ (crlf ++ crlf) ++ back := by
              match front, hblank with
              | [], hblank =>
                  have hfirst : line ++ crlf ++ rest = [] ++ crlf ++ back :=
                    List.append_cancel_left hblank
                  have hempty : position crlf [] = none := rfl
                  have hposition := position_crlf_line hline rest
                  rw [hfirst, position_crlf_line hempty] at hposition
                  exact absurd (List.length_eq_zero_iff.mp (Option.some.inj hposition).symm) hne
              | [b], hblank =>
                  obtain ⟨-, hblank⟩ := List.cons.inj hblank
                  cases hblank
              | b :: c :: front, hblank =>
                  obtain ⟨-, hblank⟩ := List.cons.inj hblank
                  exact ⟨front, (List.cons.inj hblank).2⟩
            obtain ⟨front', hfront⟩ := hbehind
            obtain ⟨front'', hrest⟩ := blank_behind hline hfront
            exact .other hline hne hvalue (ih hrest)

theorem wellBegun_might {data : Bytes} (hmight : httpHostMightStillAppear data = true) :
    WellBegun data := by
  cases data with
  | nil => exact ⟨nofun, nofun, rfl⟩
  | cons first data =>
      rw [httpHostMightStillAppear] at hmight
      split at hmight
      · cases hmight
      · rename_i hletter
        split at hmight
        · cases hmight
        · rename_i hforeign
          rw [Bool.not_eq_true', Bool.or_eq_false_iff, Option.isSome_eq_false_iff,
            Option.isSome_eq_false_iff, Option.isNone_iff_eq_none, Option.isNone_iff_eq_none]
            at hmight
          refine ⟨?_, fun line rest hsplit => ?_, hmight.2⟩
          · intro first' hfirst
            obtain rfl := Option.some.inj hfirst
            simpa using hletter
          · rw [hsplit, Option.any_some] at hforeign
            dsimp only at hforeign
            rw [isForeignLine, Bool.or_eq_true, not_or] at hforeign
            simpa using hforeign.1

theorem WellBegun.decided {data : Bytes} (hbegun : WellBegun data)
    (hnever : httpHostMightStillAppear data = false) : HostDecided data := by
  cases data with
  | nil => cases hnever
  | cons first data =>
      rw [httpHostMightStillAppear, if_neg (by simp [hbegun.letter first rfl])] at hnever
      split at hnever
      · rename_i hforeign
        obtain ⟨⟨line, rest⟩, hsplit, hforeign⟩ := Option.any_eq_true _ _ |>.mp hforeign
        have hlast := hbegun.firstLine line rest hsplit
        obtain ⟨front, rfl⟩ := List.getLast?_eq_some_iff.mp hlast
        obtain ⟨hdata, hfeed⟩ := splitOnce_eq_some.mp hsplit
        rw [hdata, List.append_assoc]
        dsimp only at hforeign
        rw [isForeignLine, hlast, List.dropLast_concat] at hforeign
        have hline : position crlf front = none :=
          position_crlf_more (show position crlf [] = none from rfl) fun hin => hfeed (List.mem_append_left _ hin)
        have hcut : front ++ ([0x0D] ++ 0x0A :: rest) = front ++ crlf ++ rest := by
          rw [List.append_assoc]
          rfl
        rw [hcut]
        exact .foreign hline (by simpa using hforeign) rest
      · rw [hbegun.noBlank, Option.isSome_none, Bool.or_false, Bool.not_eq_false',
          Option.isSome_iff_exists] at hnever
        obtain ⟨i, hi⟩ := hnever
        obtain ⟨⟨back, hback⟩, -⟩ := (position_eq_some (List.cons_ne_nil _ _)).mp hi
        have hblank : first :: data = (first :: data).take i ++ (crlf ++ crlf) ++ back := by
          rw [List.append_assoc]
          exact ((congrArg (List.take i (first :: data) ++ ·) hback).trans
            (List.take_append_drop i _)).symm
        cases hposition : position crlf (first :: data) with
        | none =>
            have hinside := position_crlf_append ((first :: data).take i) (crlf ++ back)
            rw [← List.append_assoc, List.append_assoc _ crlf crlf, ← hblank] at hinside
            exact absurd hposition hinside
        | some j =>
            obtain ⟨hdata, hline⟩ := position_crlf_split hposition
            rw [hdata]
            obtain ⟨front, hfront⟩ := blank_behind hline (hdata.symm.trans hblank)
            exact .headers hline (headersDecided_blank hfront)

/-- Both functions together decide for good exactly on requests that are well begun or settled. -/
theorem http_host_decided (data : Bytes) :
    (∀ more,
      (∀ host, parseHttpHost data = some host → parseHttpHost (data ++ more) = some host) ∧
        (parseHttpHost data = none → httpHostMightStillAppear data = false →
          parseHttpHost (data ++ more) = none)) ↔
      WellBegun data ∨ HostDecided data := by
  constructor
  · intro hfinal
    obtain hdecided | ⟨hnone, more, hmore⟩ := hostDecided_or data
    · exact .inr hdecided
    · refine .inl (wellBegun_might ?_)
      by_contra hnever
      rw [(hfinal more).2 hnone (Bool.eq_false_iff.mpr hnever)] at hmore
      cases hmore
  · intro hcondition more
    refine ⟨fun host hfound => parseHttpHost_grows hfound more, fun hnone hnever => ?_⟩
    have hdecided : HostDecided data :=
      hcondition.elim (fun hbegun => hbegun.decided hnever) id
    rw [hdecided.final, hnone]

/-- Two line feeds are taken for the end of the headers, and a `Host` line follows. -/
theorem http_host_blank : ¬ ∀ data more,
    (∀ host, parseHttpHost data = some host → parseHttpHost (data ++ more) = some host) ∧
      (parseHttpHost data = none → httpHostMightStillAppear data = false →
        parseHttpHost (data ++ more) = none) := by
  intro hfinal
  have hnone := (hfinal (lit "GET / HTTP/1.1\r\nA: b\n\n") (lit "\r\nHost: x\r\n")).2
    (by decide +kernel) (by decide +kernel)
  revert hnone
  decide +kernel

end Resocks5.Recovery
