import Resocks5.Recovery.Handshake
import Resocks5.Recovery.RecoverHost

namespace Resocks5.Recovery

open Resocks5.Foundation

/-! A host that has been found stays, and where none can come any more none comes. -/

theorem skip_append {rest left : Bytes} {n : Nat} (hskip : skip rest n = some left)
    (more : Bytes) : skip (rest ++ more) n = some (left ++ more) := by
  unfold skip at hskip ⊢
  split at hskip
  · rename_i hle
    cases hskip
    rw [if_pos (by rw [List.length_append]; omega), List.drop_append_of_le_length hle]
  · cases hskip

theorem skipVec8_append {rest left : Bytes} (hskip : skipVec8 rest = some left) (more : Bytes) :
    skipVec8 (rest ++ more) = some (left ++ more) := by
  cases rest with
  | nil => cases hskip
  | cons len rest => exact skip_append hskip more

theorem skipVec16_append {rest left : Bytes} (hskip : skipVec16 rest = some left)
    (more : Bytes) : skipVec16 (rest ++ more) = some (left ++ more) := by
  match rest with
  | [] => cases hskip
  | [_] => cases hskip
  | _ :: _ :: _ => exact skip_append hskip more

theorem take_grows {short long : Bytes} (hgrows : short <+: long) (n : Nat) :
    short.take n <+: long.take n := by
  obtain ⟨more, rfl⟩ := hgrows
  rw [List.take_append]
  exact List.prefix_append _ _

theorem clientHelloExtensions_grows {hello extensions : Bytes}
    (hfound : clientHelloExtensions hello = some extensions) (more : Bytes) :
    ∃ extensions', clientHelloExtensions (hello ++ more) = some extensions' ∧
      extensions <+: extensions' := by
  simp only [clientHelloExtensions, Option.bind_eq_bind, Option.bind_eq_some_iff] at hfound
  obtain ⟨version, hversion, random, hrandom, session, hsession, suites, hsuites, methods,
    hmethods, hfound⟩ := hfound
  simp only [clientHelloExtensions, Option.bind_eq_bind, skip_append hversion more,
    skip_append hrandom more, skipVec8_append hsession more, skipVec16_append hsuites more,
    skipVec8_append hmethods more, Option.bind_some]
  match methods with
  | [] => cases hfound
  | [_] => cases hfound
  | high :: low :: rest =>
      cases hfound
      exact ⟨_, rfl, take_grows (List.prefix_append rest more) _⟩

theorem sniExtension_grows {fuel fuel' : Nat} {extensions more host : Bytes}
    (hfound : sniExtension fuel extensions = some host) (hfuel : fuel ≤ fuel') :
    sniExtension fuel' (extensions ++ more) = some host := by
  induction fuel generalizing fuel' extensions with
  | zero => cases hfound
  | succ fuel ih =>
      match extensions, fuel', hfound with
      | [], _, hfound => cases hfound
      | [_], _, hfound => cases hfound
      | [_, _], _, hfound => cases hfound
      | [_, _, _], _, hfound => cases hfound
      | typeHigh :: typeLow :: high :: low :: rest, fuel' + 1, hfound =>
          rw [sniExtension] at hfound
          simp only [List.cons_append]
          rw [sniExtension]
          split at hfound
          · cases hfound
          · rename_i hle
            rw [if_neg (by rw [List.length_append]; omega),
              List.take_append_of_le_length (by omega), List.drop_append_of_le_length (by omega)]
            split at hfound
            · rename_i hname
              rw [if_pos hname]
              exact hfound
            · rename_i hname
              rw [if_neg hname]
              exact ih hfound (Nat.le_of_succ_le_succ hfuel)

theorem parseHandshake_grows {message host : Bytes} (hfound : parseHandshake message = some host)
    (more : Bytes) : parseHandshake (message ++ more) = some host := by
  match message with
  | [] => cases hfound
  | [_] => cases hfound
  | [_, _] => cases hfound
  | [_, _, _] => cases hfound
  | kind :: high :: middle :: low :: body =>
      simp only [List.cons_append]
      rw [parseHandshake] at hfound ⊢
      split at hfound
      · cases hfound
      · rename_i hkind
        rw [if_neg hkind]
        obtain ⟨extensions, hextensions, hsni⟩ := Option.bind_eq_some_iff.mp hfound
        obtain ⟨tail, htail⟩ := take_grows (List.prefix_append body more) (beU24 high middle low)
        rw [← htail]
        obtain ⟨extensions', hextensions', more', rfl⟩ :=
          clientHelloExtensions_grows hextensions tail
        rw [hextensions', Option.bind_some]
        exact sniExtension_grows hsni (by rw [List.length_append]; omega)

theorem parseHandshake_take (message : Bytes) :
    parseHandshake (message.take ((announced message).getD message.length)) =
      parseHandshake message := by
  match message with
  | [] => rfl
  | [_] => rfl
  | [_, _] => rfl
  | [_, _, _] => rfl
  | kind :: high :: middle :: low :: body =>
      simp only [announced, Option.getD_some, Nat.add_comm 4, List.take_succ_cons, parseHandshake,
        List.take_take, Nat.min_self]

theorem parseHandshake_whole {message : Bytes} (hwhole : isWhole message = true) (more : Bytes) :
    parseHandshake (message ++ more) = parseHandshake message := by
  obtain ⟨len, hannounced, hle⟩ := isWhole_iff.mp hwhole
  rw [← parseHandshake_take (message ++ more), announced_append hannounced more,
    Option.getD_some, List.take_append_of_le_length hle, ← parseHandshake_take message,
    hannounced, Option.getD_some]

theorem parseHandshake_kind {message : Bytes} {kind : UInt8} (hkind : message.head? = some kind)
    (hother : kind ≠ 0x01) : parseHandshake message = none := by
  match message with
  | [] => rfl
  | [_] => rfl
  | [_, _] => rfl
  | [_, _, _] => rfl
  | first :: high :: middle :: low :: body =>
      cases hkind
      rw [parseHandshake, if_pos hother]

/-! Server names. -/

structure Hello (data : Bytes) : Prop where
  length : 5 ≤ data.length
  type : data.head? = some handshake
  major : data[1]? = some 0x03

theorem parseSni_hello {data : Bytes} (hhello : Hello data) :
    parseSni data = parseHandshake (carried data) := by
  rw [parseSni, if_neg, handshakeMessage_spec hhello.length hhello.type, Option.bind_some,
    parseHandshake_take]
  rw [hhello.type, hhello.major]
  simpa using hhello.length

theorem parseSni_other {data : Bytes} (hother : ¬ Hello data) : parseSni data = none := by
  rw [parseSni, if_pos]
  by_contra hhello
  refine hother ?_
  simp only [Bool.or_eq_true, decide_eq_true_eq, bne_iff_ne, ne_eq, not_or, not_not,
    Nat.not_lt] at hhello
  exact ⟨hhello.1.1, hhello.1.2, hhello.2⟩

theorem Hello.grows {data : Bytes} (hhello : Hello data) (more : Bytes) : Hello (data ++ more) := by
  obtain ⟨hlength, htype, hmajor⟩ := hhello
  refine ⟨by rw [List.length_append]; omega, ?_, ?_⟩
  · rw [List.head?_append, htype]
    rfl
  · rw [List.getElem?_append_left (by omega)]
    exact hmajor

theorem parseSni_grows {data host : Bytes} (hfound : parseSni data = some host) (more : Bytes) :
    parseSni (data ++ more) = some host := by
  by_cases hhello : Hello data
  · rw [parseSni_hello hhello] at hfound
    obtain ⟨tail, htail⟩ := carried_grows data more
    rw [parseSni_hello (hhello.grows more), ← htail]
    exact parseHandshake_grows hfound tail
  · rw [parseSni_other hhello] at hfound
    cases hfound

/-- Why no more bytes help: the stream is no handshake, or its first message is another one, or it
is whole, or something else has come. -/
inductive SniSettled (data : Bytes) : Prop
  | type {kind : UInt8} (hkind : data.head? = some kind) (hother : kind ≠ handshake)
  | major {major : UInt8} (hmajor : data[1]? = some major) (hother : major ≠ 0x03)
  | message {kind : UInt8} (hhello : Hello data) (hkind : (carried data).head? = some kind)
      (hother : kind ≠ 0x01)
  | whole (hhello : Hello data) (hwhole : isWhole (carried data) = true)
  | expired (hhello : Hello data) (hsealed : isSealed data.length data = true)

theorem sniMightStillAppear_settled {data : Bytes} (hnever : sniMightStillAppear data = false) :
    SniSettled data := by
  rw [sniMightStillAppear, clientHelloMightContinue] at hnever
  split at hnever
  · rename_i hother
    rw [Bool.or_eq_true, Option.any_eq_true, Option.any_eq_true] at hother
    obtain ⟨kind, hkind, hother⟩ | ⟨major, hmajor, hother⟩ := hother
    · exact .type hkind (by simpa using hother)
    · exact .major hmajor (by simpa using hother)
  · rename_i hsame
    simp only [Bool.or_eq_true, not_or, Bool.not_eq_true, Option.any_eq_false, bne_eq_false_iff_eq]
      at hsame
    by_cases hlength : 5 ≤ data.length
    · have hhello : Hello data := by
        obtain ⟨kind, major, _, _, _, _, rfl⟩ := exists_cons_five hlength
        exact ⟨hlength, congrArg some (hsame.1 kind rfl), congrArg some (hsame.2 major rfl)⟩
      obtain ⟨known, hknown, hkind, hcomplete, _, hopen⟩ :=
        handshakePrefix_spec hhello.length hhello.type
      rw [hknown] at hnever
      dsimp only at hnever
      rw [Bool.and_eq_false_iff, Bool.and_eq_false_iff] at hnever
      obtain (hother | hdone) | hover := hnever
      · cases hsome : known.kind with
        | none =>
            rw [hsome] at hother
            cases hother
        | some kind =>
            rw [hsome] at hother
            exact .message hhello (hkind.symm.trans hsome) (by simpa using hother)
      · refine .whole hhello ?_
        rw [← hcomplete]
        simpa using hdone
      · cases hdone : known.complete with
        | true => exact .whole hhello (hcomplete.symm.trans hdone)
        | false =>
            rw [(hopen hdone).2] at hover
            exact .expired hhello (by simpa using hover)
    · cases hknown : handshakePrefix data with
      | none =>
          rw [hknown] at hnever
          exact absurd hnever (by simpa using hlength)
      | some known =>
          rw [handshakePrefix] at hknown
          have hwalk : walkRecords data = [] := by
            obtain rfl | ⟨_, rfl⟩ | ⟨_, _, rfl⟩ | ⟨_, _, _, rfl⟩ | ⟨_, _, _, _, rfl⟩ :=
              short_cases (Nat.lt_of_not_le hlength)
            · rfl
            · rfl
            · rfl
            · rfl
            · rfl
          rw [hwalk] at hknown
          cases hknown

theorem SniSettled.might {data : Bytes} (hsettled : SniSettled data) :
    sniMightStillAppear data = false := by
  rw [sniMightStillAppear, clientHelloMightContinue]
  split
  · rfl
  · rename_i hsame
    simp only [Bool.or_eq_true, not_or, Bool.not_eq_true, Option.any_eq_false, bne_eq_false_iff_eq]
      at hsame
    have hspec := fun hhello : Hello data => handshakePrefix_spec hhello.length hhello.type
    cases hsettled with
    | type hkind hother => exact absurd (hsame.1 _ hkind) hother
    | major hmajor hother => exact absurd (hsame.2 _ hmajor) hother
    | message hhello hkind hother =>
        obtain ⟨known, hknown, hkind', _⟩ := hspec hhello
        rw [hknown]
        simp [hkind', hkind, hother]
    | whole hhello hwhole =>
        obtain ⟨known, hknown, _, hcomplete, _⟩ := hspec hhello
        rw [hknown]
        simp [hcomplete, hwhole]
    | expired hhello hsealed =>
        obtain ⟨known, hknown, _, _, _, hopen⟩ := hspec hhello
        rw [hknown]
        cases hdone : known.complete with
        | true => simp [hdone]
        | false => simp [(hopen hdone).2, hsealed]

theorem carried_sealed {data : Bytes} (hsealed : isSealed data.length data = true)
    (more : Bytes) : carried (data ++ more) = carried data :=
  (records_sealed (Nat.le_refl _) (Nat.le_refl _) hsealed).2

theorem SniSettled.grows {data : Bytes} (hsettled : SniSettled data) (more : Bytes) :
    SniSettled (data ++ more) := by
  cases hsettled with
  | type hkind hother =>
      exact .type (by rw [List.head?_append, hkind]; rfl) hother
  | major hmajor hother =>
      refine .major ?_ hother
      rw [List.getElem?_append_left (List.getElem?_eq_some_iff.mp hmajor).1]
      exact hmajor
  | message hhello hkind hother =>
      obtain ⟨tail, htail⟩ := carried_grows data more
      refine .message (hhello.grows more) ?_ hother
      rw [← htail, List.head?_append, hkind]
      rfl
  | whole hhello hwhole =>
      obtain ⟨tail, htail⟩ := carried_grows data more
      refine .whole (hhello.grows more) ?_
      rw [← htail]
      exact isWhole_append hwhole tail
  | expired hhello hsealed =>
      exact .expired (hhello.grows more) (records_sealed (Nat.le_refl _) (Nat.le_refl _) hsealed).1

theorem SniSettled.final {data : Bytes} (hsettled : SniSettled data) (more : Bytes) :
    parseSni (data ++ more) = parseSni data := by
  cases hsettled with
  | type hkind hother =>
      have hnot {data : Bytes} {kind : UInt8} (hkind : data.head? = some kind)
          (hother : kind ≠ handshake) : ¬ Hello data := fun hhello =>
        hother (Option.some.inj (hkind.symm.trans hhello.type))
      rw [parseSni_other (hnot hkind hother), parseSni_other (hnot ?_ hother)]
      rw [List.head?_append, hkind]
      rfl
  | major hmajor hother =>
      have hnot {data : Bytes} {major : UInt8} (hmajor : data[1]? = some major)
          (hother : major ≠ 0x03) : ¬ Hello data := fun hhello =>
        hother (Option.some.inj (hmajor.symm.trans hhello.major))
      rw [parseSni_other (hnot hmajor hother), parseSni_other (hnot ?_ hother)]
      rw [List.getElem?_append_left (List.getElem?_eq_some_iff.mp hmajor).1]
      exact hmajor
  | message hhello hkind hother =>
      obtain ⟨tail, htail⟩ := carried_grows data more
      rw [parseSni_hello hhello, parseSni_hello (hhello.grows more), ← htail,
        parseHandshake_kind hkind hother, parseHandshake_kind ?_ hother]
      rw [List.head?_append, hkind]
      rfl
  | whole hhello hwhole =>
      obtain ⟨tail, htail⟩ := carried_grows data more
      rw [parseSni_hello hhello, parseSni_hello (hhello.grows more), ← htail]
      exact parseHandshake_whole hwhole tail
  | expired hhello hsealed =>
      rw [parseSni_hello hhello, parseSni_hello (hhello.grows more), carried_sealed hsealed]

/-! `Host` headers. -/

theorem crlfLine_append {data line rest : Bytes} (hline : crlfLine data = some (line, rest))
    (more : Bytes) : crlfLine (data ++ more) = some (line, rest ++ more) := by
  obtain ⟨stop, hstop, hcut⟩ := Option.map_eq_some_iff.mp hline
  obtain ⟨rfl, rfl⟩ := Prod.mk.inj hcut
  have hinside := position_lt crlf_ne_nil hstop
  have htwo : crlf.length = 2 := rfl
  rw [crlfLine, position_front crlf_ne_nil hstop, Option.map_some,
    List.take_append_of_le_length (by omega), List.drop_append_of_le_length (by omega)]

theorem hostHeader_grows {fuel fuel' : Nat} {headers host : Bytes}
    (hfound : hostHeader fuel headers = some host) (hfuel : fuel ≤ fuel') (more : Bytes) :
    hostHeader fuel' (headers ++ more) = some host := by
  induction fuel generalizing fuel' headers with
  | zero => cases hfound
  | succ fuel ih =>
      cases fuel' with
      | zero => cases hfuel
      | succ fuel' =>
          rw [hostHeader] at hfound ⊢
          cases hline : crlfLine headers with
          | none =>
              rw [hline] at hfound
              cases hfound
          | some pair =>
              obtain ⟨line, rest⟩ := pair
              have hrest : hostHeader fuel rest = some host →
                  hostHeader fuel' (rest ++ more) = some host :=
                fun hfound => ih hfound (Nat.le_of_succ_le_succ hfuel)
              rw [hline] at hfound
              rw [crlfLine_append hline more]
              dsimp only at hfound ⊢
              split at hfound
              · cases hfound
              · rename_i hempty
                rw [if_neg hempty]
                cases hcolon : splitOnce 0x3A line with
                | none =>
                    rw [hcolon] at hfound
                    exact hrest hfound
                | some pair =>
                    obtain ⟨name, value⟩ := pair
                    rw [hcolon] at hfound
                    dsimp only at hfound ⊢
                    split at hfound
                    · rename_i hhost
                      rw [if_pos hhost]
                      exact hfound
                    · rename_i hhost
                      rw [if_neg hhost]
                      exact hrest hfound

theorem parseHttpHost_grows {data host : Bytes} (hfound : parseHttpHost data = some host)
    (more : Bytes) : parseHttpHost (data ++ more) = some host := by
  obtain ⟨⟨request, headers⟩, hline, hfound⟩ := Option.bind_eq_some_iff.mp hfound
  rw [parseHttpHost, crlfLine_append hline more, Option.bind_some]
  dsimp only at hfound ⊢
  split at hfound
  · rename_i hrequest
    rw [if_pos hrequest]
    exact hostHeader_grows hfound (by rw [List.length_append]; omega) more
  · cases hfound

theorem splitOnce_grows {sep : UInt8} {data front back : Bytes}
    (hsplit : splitOnce sep data = some (front, back)) (more : Bytes) :
    splitOnce sep (data ++ more) = some (front, back ++ more) := by
  obtain ⟨rfl, hfront⟩ := splitOnce_eq_some.mp hsplit
  rw [List.append_assoc, List.cons_append]
  exact splitOnce_append hfront (back ++ more)

theorem httpHostMightStillAppear_grows {data : Bytes}
    (hnever : httpHostMightStillAppear data = false) (more : Bytes) :
    httpHostMightStillAppear (data ++ more) = false := by
  cases data with
  | nil => cases hnever
  | cons first data =>
      rw [httpHostMightStillAppear] at hnever
      rw [List.cons_append, httpHostMightStillAppear, ← List.cons_append]
      split at hnever
      · rename_i hletter
        rw [if_pos hletter]
      · rename_i hletter
        rw [if_neg hletter]
        split at hnever
        · rename_i hforeign
          obtain ⟨⟨line, rest⟩, hline, hforeign⟩ := Option.any_eq_true _ _ |>.mp hforeign
          rw [splitOnce_grows hline more, Option.any_some, if_pos hforeign]
        · split
          · rfl
          · rw [Bool.not_eq_false', Bool.or_eq_true, Option.isSome_iff_exists,
              Option.isSome_iff_exists] at hnever ⊢
            refine hnever.imp ?_ ?_
            · rintro ⟨i, hi⟩
              exact ⟨i, position_front (List.cons_ne_nil _ _) hi more⟩
            · rintro ⟨i, hi⟩
              exact ⟨i, position_front (List.cons_ne_nil _ _) hi more⟩

end Resocks5.Recovery
