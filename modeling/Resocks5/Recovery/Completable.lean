import Resocks5.Recovery.Reassembly

namespace Resocks5.Recovery

open Resocks5.Foundation

/-! Which streams can still become those of a whole ClientHello. -/

/-- What no message announces. -/
def announcedMax : Nat := 4 + 2 ^ 24

/-- Some continuation of the stream is a whole ClientHello. -/
def Completable (data : Bytes) : Prop := ∃ more, clientHelloIsComplete (data ++ more) = true

theorem carried_foreign {data : Bytes} (hforeign : isForeign data = true) : carried data = [] :=
  carriedBy_foreign hforeign data.length

theorem handshakePrefix_none {data : Bytes}
    (hnone : ¬ (5 ≤ data.length ∧ data.head? = some handshake)) :
    handshakePrefix data = none ∧ carried data = [] := by
  obtain hshort | hlength := Nat.lt_or_ge data.length 5
  · refine ⟨?_, carried_short hshort⟩
    match data, hshort with
    | [], _ => rfl
    | [_], _ => rfl
    | [_, _], _ => rfl
    | [_, _, _], _ => rfl
    | [_, _, _, _], _ => rfl
    | _ :: _ :: _ :: _ :: _ :: rest, hshort => exact absurd hshort (Nat.not_lt.mpr (by simp))
  · match data, hlength with
    | kind :: a :: b :: high :: low :: rest, hlength =>
        have hkind : kind ≠ handshake := fun heq => hnone ⟨hlength, congrArg some heq⟩
        refine ⟨?_, carried_foreign (by simpa [isForeign] using hkind)⟩
        rw [handshakePrefix, walkRecords, List.length_cons, records, nextRecord]
        dsimp only
        rw [if_pos hkind]

theorem clientHelloIsComplete_eq (data : Bytes) :
    clientHelloIsComplete data =
      (isWhole (carried data) && (carried data).head? == some 0x01) := by
  by_cases hheader : 5 ≤ data.length ∧ data.head? = some handshake
  · obtain ⟨known, hknown, hkind, hcomplete, _⟩ := handshakePrefix_spec hheader.1 hheader.2
    rw [clientHelloIsComplete, hknown, Option.any_some, hkind, hcomplete]
  · obtain ⟨hnone, hnothing⟩ := handshakePrefix_none hheader
    rw [clientHelloIsComplete, hnone, hnothing]
    rfl

theorem isSealed_short {data : Bytes} (hshort : data.length < 5) :
    isSealed data.length data = isForeign data := by
  match data, hshort with
  | [], _ => rfl
  | [_], _ => exact Bool.or_false _
  | [_, _], _ => exact Bool.or_false _
  | [_, _, _], _ => exact Bool.or_false _
  | [_, _, _, _], _ => exact Bool.or_false _
  | _ :: _ :: _ :: _ :: _ :: rest, hshort => exact absurd hshort (Nat.not_lt.mpr (by simp))

theorem isSealed_foreign {data : Bytes} (hforeign : isForeign data = true) (fuel : Nat) :
    isSealed fuel data = true := by
  cases fuel with
  | zero => exact hforeign
  | succ fuel => rw [isSealed, hforeign, Bool.true_or]

theorem clientHelloMightContinue_eq {data : Bytes} (hmajor : data[1]?.any (· != 0x03) = false) :
    clientHelloMightContinue data =
      ((carried data).head?.all (· == 0x01) && !isWhole (carried data) &&
        !isSealed data.length data) := by
  rw [clientHelloMightContinue, hmajor, Bool.or_false]
  by_cases hforeign : isForeign data = true
  · rw [isSealed_foreign hforeign, Bool.not_true, Bool.and_false]
    exact if_pos hforeign
  · refine (if_neg hforeign).trans ?_
    by_cases hheader : 5 ≤ data.length ∧ data.head? = some handshake
    · obtain ⟨known, hknown, hkind, hcomplete, _, hopen⟩ :=
        handshakePrefix_spec hheader.1 hheader.2
      rw [hknown]
      dsimp only
      rw [hkind, ← hcomplete]
      cases hdone : known.complete with
      | true => simp
      | false => rw [(hopen hdone).2]
    · obtain ⟨hnone, hnothing⟩ := handshakePrefix_none hheader
      have hshort : data.length < 5 := by
        by_contra hlength
        refine hheader ⟨Nat.not_lt.mp hlength, ?_⟩
        cases data with
        | nil => exact absurd (Nat.zero_lt_succ 4) hlength
        | cons kind data => simpa [isForeign] using hforeign
      rw [hnone, hnothing, isSealed_short hshort, Bool.eq_false_iff.mpr hforeign]
      simpa [isWhole, announced] using hshort

/-! Every message that continues the present one can come. -/

theorem exists_carried (message : Bytes) : ∃ data, carried data = message := by
  have hone : ∀ b : UInt8, [b].length ≤ 65535 := fun b => by simp
  refine ⟨framing (message.map fun b => ⟨0x03, 0x01, [b], hone b⟩) ++ [], ?_⟩
  rw [carried_framing, List.flatMap_map]
  exact (List.append_nil _).trans (List.flatMap_singleton' message)

theorem carried_open (major minor high low : UInt8) {rest : Bytes}
    (hopen : rest.length ≤ beU16 high low) :
    carried (handshake :: major :: minor :: high :: low :: rest) = rest := by
  rw [carried_record, List.take_of_length_le hopen, List.drop_eq_nil_of_le hopen]
  exact List.append_nil rest

theorem carried_open_extends (major minor high low : UInt8) {rest : Bytes}
    (hopen : rest.length ≤ beU16 high low) (message : Bytes) :
    ∃ more, carried (handshake :: major :: minor :: high :: low :: (rest ++ more)) =
      rest ++ message := by
  obtain ⟨room, hroom⟩ := Nat.exists_eq_add_of_le hopen
  obtain hfits | hbeyond := Nat.le_total message.length room
  · refine ⟨message, carried_open major minor high low ?_⟩
    rw [List.length_append]
    omega
  · obtain ⟨behind, hbehind⟩ := exists_carried (message.drop room)
    refine ⟨message.take room ++ behind, ?_⟩
    have hfull : (rest ++ message.take room).length = beU16 high low := by
      rw [List.length_append, List.length_take, Nat.min_eq_left hbeyond, hroom]
    rw [carried_record, ← List.append_assoc, List.take_left' hfull, List.drop_left' hfull, hbehind,
      List.append_assoc, List.take_append_drop]

theorem header_extends {data : Bytes} (hshort : data.length < 5)
    (hforeign : isForeign data = false) :
    ∃ major minor high low tail, data ++ tail = [handshake, major, minor, high, low] := by
  have hkind {kind : UInt8} {rest : Bytes} (hforeign : isForeign (kind :: rest) = false) :
      kind = handshake := by
    simpa [isForeign] using hforeign
  obtain rfl | ⟨_, rfl⟩ | ⟨_, major, rfl⟩ | ⟨_, major, minor, rfl⟩ | ⟨_, major, minor, high, rfl⟩ :=
    short_cases hshort
  · exact ⟨0x03, 0x01, 0, 1, _, rfl⟩
  · exact hkind hforeign ▸ ⟨0x03, 0x01, 0, 1, _, rfl⟩
  · exact hkind hforeign ▸ ⟨major, 0x01, 0, 1, _, rfl⟩
  · exact hkind hforeign ▸ ⟨major, minor, 0, 1, _, rfl⟩
  · exact hkind hforeign ▸ ⟨major, minor, high, 1, _, rfl⟩

theorem carried_extends {fuel : Nat} {data : Bytes} (hfuel : data.length ≤ fuel)
    (hopen : isSealed fuel data = false) (message : Bytes) :
    ∃ more, carried (data ++ more) = carried data ++ message := by
  induction fuel generalizing data with
  | zero =>
      obtain rfl := List.length_eq_zero_iff.mp (Nat.le_zero.mp hfuel)
      exact exists_carried message
  | succ fuel ih =>
      rw [isSealed, Bool.or_eq_false_iff] at hopen
      obtain ⟨hforeign, hbehind⟩ := hopen
      obtain hshort | hlength := Nat.lt_or_ge data.length 5
      · obtain ⟨major, minor, high, low, tail, hheader⟩ := header_extends hshort hforeign
        have hnone : ([] : Bytes).length ≤ beU16 high low := Nat.zero_le _
        obtain ⟨more, hmore⟩ := carried_open_extends major minor high low hnone message
        refine ⟨tail ++ more, ?_⟩
        rw [← List.append_assoc, hheader, carried_short hshort]
        exact hmore
      · obtain ⟨kind, major, minor, high, low, rest, rfl⟩ := exists_cons_five hlength
        obtain rfl : kind = handshake := by simpa [isForeign] using hforeign
        simp only [List.cons_append]
        obtain hpart | hwhole := Nat.le_total rest.length (beU16 high low)
        · rw [carried_open major minor high low hpart]
          exact carried_open_extends major minor high low hpart message
        · simp only [List.length_cons] at hfuel
          have hless : (rest.drop (beU16 high low)).length ≤ fuel := by
            rw [List.length_drop]
            omega
          obtain ⟨more, hmore⟩ := ih hless hbehind
          refine ⟨more, ?_⟩
          rw [carried_record, carried_record, List.take_append_of_le_length hwhole,
            List.drop_append_of_le_length hwhole, hmore, List.append_assoc]

theorem isWhole_long {message : Bytes} (hlong : announcedMax ≤ message.length) :
    isWhole message = true := by
  rw [announcedMax] at hlong
  have hheader : 4 ≤ message.length := Nat.le_trans (Nat.le_add_right 4 _) hlong
  obtain ⟨_, high, middle, low, body, rfl⟩ := exists_cons_four hheader
  refine isWhole_iff.mpr ⟨_, rfl, Nat.le_trans ?_ hlong⟩
  have hhigh := high.toNat_lt
  have hmiddle := middle.toNat_lt
  have hlow := low.toNat_lt
  rw [beU24]
  omega

theorem exists_whole {message : Bytes} (hkind : message.head?.all (· == 0x01) = true) :
    ∃ more, isWhole (message ++ more) = true ∧ (message ++ more).head? = some 0x01 := by
  obtain ⟨body, hbody⟩ : ∃ body : Bytes, body.length = announcedMax :=
    ⟨List.replicate announcedMax 0, List.length_replicate⟩
  refine ⟨0x01 :: body, isWhole_long ?_, ?_⟩
  · rw [List.length_append, List.length_cons]
    omega
  · cases message with
    | nil => rfl
    | cons kind message => simpa using hkind

theorem head_of_isWhole {message more : Bytes} (hwhole : isWhole message = true) :
    (message ++ more).head? = message.head? := by
  cases message with
  | nil => cases hwhole
  | cons kind message => rfl

theorem completable_of_open {data : Bytes} (hopen : isSealed data.length data = false)
    (hkind : (carried data).head?.all (· == 0x01) = true) : Completable data := by
  obtain ⟨message, hwhole, hkind⟩ := exists_whole hkind
  obtain ⟨more, hmore⟩ := carried_extends (Nat.le_refl _) hopen message
  refine ⟨more, ?_⟩
  rw [clientHelloIsComplete_eq, hmore, hwhole, hkind]
  rfl

theorem completable_header {data : Bytes} (hlength : data.length ≤ 5)
    (hforeign : isForeign data = false) : Completable data := by
  obtain hshort | hheader := Nat.lt_or_eq_of_le hlength
  · refine completable_of_open ((isSealed_short hshort).trans hforeign) ?_
    rw [carried_short hshort]
    rfl
  · match data, hheader with
    | kind :: major :: minor :: high :: low :: [], _ =>
        obtain rfl : kind = handshake := by simpa [isForeign] using hforeign
        refine completable_of_open ?_ ?_
        · have hsealed : isSealed 5 [handshake, major, minor, high, low] =
              (isForeign [handshake, major, minor, high, low] ||
                isSealed 4 (([] : Bytes).drop (beU16 high low))) := rfl
          rw [List.drop_nil, isSealed_nil, hforeign] at hsealed
          exact hsealed
        · rw [carried_open major minor high low (Nat.zero_le _)]
          rfl

/-- `client_hello_might_continue` finds out whether a stream that is not whole can become so. -/
theorem completable_iff {data : Bytes} (hmajor : data[1]?.any (· != 0x03) = false) :
    Completable data ↔
      clientHelloIsComplete data = true ∨ clientHelloMightContinue data = true := by
  rw [clientHelloIsComplete_eq, clientHelloMightContinue_eq hmajor]
  simp only [Bool.and_eq_true, beq_iff_eq, Bool.not_eq_true']
  constructor
  · rintro ⟨more, hcomplete⟩
    rw [clientHelloIsComplete_eq, Bool.and_eq_true, beq_iff_eq] at hcomplete
    obtain ⟨hwhole, hkind⟩ := hcomplete
    obtain ⟨tail, htail⟩ := carried_grows data more
    rw [← htail] at hwhole hkind
    cases hpart : isWhole (carried data) with
    | true => exact .inl ⟨rfl, (head_of_isWhole hpart).symm.trans hkind⟩
    | false =>
        refine .inr ⟨⟨?_, rfl⟩, ?_⟩
        · cases hmessage : carried data with
          | nil => rfl
          | cons kind message =>
              rw [hmessage] at hkind
              simpa using hkind
        · rw [Bool.eq_false_iff]
          intro hsealed
          rw [htail, carried_sealed hsealed, hpart] at hwhole
          cases hwhole
  · rintro (⟨hwhole, hkind⟩ | ⟨⟨hkind, _⟩, hopen⟩)
    · refine ⟨[], ?_⟩
      rw [List.append_nil, clientHelloIsComplete_eq, hwhole, hkind]
      rfl
    · exact completable_of_open hopen hkind

end Resocks5.Recovery
