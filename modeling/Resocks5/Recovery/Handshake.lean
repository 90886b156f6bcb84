import Resocks5.Recovery.TlsRecords

namespace Resocks5.Recovery

open Resocks5.Foundation

/-! The handshake message in a stream that grows. -/

def carriedBy : List TlsRecord → Bytes
  | [] => []
  | record :: rest =>
    if record.contentType ≠ handshake then [] else record.payload ++ carriedBy rest

def carried (data : Bytes) : Bytes := carriedBy (walkRecords data)

def announced : Bytes → Option Nat
  | _ :: high :: middle :: low :: _ => some (4 + beU24 high middle low)
  | _ => none

def isWhole (message : Bytes) : Bool := (announced message).any (· ≤ message.length)

def isForeign (behind : Bytes) : Bool := behind.head?.any (· != handshake)

def isSealed : Nat → Bytes → Bool
  | 0, data => isForeign data
  | fuel + 1, data =>
    isForeign data ||
      match nextRecord data with
      | none => false
      | some record => isSealed fuel record.behind

theorem announced_append {message : Bytes} {len : Nat} (hannounced : announced message = some len)
    (more : Bytes) : announced (message ++ more) = some len := by
  unfold announced at hannounced
  split at hannounced
  · exact hannounced
  · cases hannounced

theorem announced_take (message : Bytes) : announced (message.take 4) = announced message := by
  match message with
  | [] => rfl
  | [_] => rfl
  | [_, _] => rfl
  | [_, _, _] => rfl
  | _ :: _ :: _ :: _ :: _ => rfl

theorem isWhole_iff {message : Bytes} :
    isWhole message = true ↔ ∃ len, announced message = some len ∧ len ≤ message.length := by
  unfold isWhole
  cases announced message with
  | none => simp
  | some len => simp

theorem isWhole_append {message : Bytes} (hwhole : isWhole message = true) (more : Bytes) :
    isWhole (message ++ more) = true := by
  obtain ⟨len, hlen, hle⟩ := isWhole_iff.mp hwhole
  refine isWhole_iff.mpr ⟨len, announced_append hlen more, ?_⟩
  rw [List.length_append]
  omega

theorem messageBytes_take (records : List TlsRecord) {len : Nat}
    (hlen : len ≤ (carriedBy records).length) :
    messageBytes records len = (carriedBy records).take len := by
  induction records generalizing len with
  | nil => rw [messageBytes, carriedBy, List.take_nil]
  | cons record rest ih =>
      rw [carriedBy] at hlen ⊢
      split
      · rename_i hother
        rw [if_pos hother] at hlen
        obtain rfl := Nat.le_zero.mp hlen
        rw [messageBytes, List.take_zero, Nat.zero_sub, ih (Nat.zero_le _)]
        simp
      · rename_i hhandshake
        rw [if_neg hhandshake, List.length_append] at hlen
        rw [messageBytes, ih (by omega), List.take_append]

theorem assemble_spec (before : Bytes) (hopen : isWhole before = false) (behind : Bytes)
    (records : List TlsRecord) :
    let known := (assemble (before.take 4) before.length behind records).1
    let message := before ++ carriedBy records
    known.kind = message.head? ∧ known.complete = isWhole message ∧
      (known.complete = true → announced message = some known.len) ∧
      (known.complete = false → known.len = message.length) := by
  induction records generalizing before behind with
  | nil =>
      rw [assemble, carriedBy, List.append_nil]
      refine ⟨?_, hopen.symm, nofun, fun _ => rfl⟩
      cases before with
      | nil => rfl
      | cons b before => rfl
  | cons record rest ih =>
      rw [assemble, carriedBy]
      split
      · rw [List.append_nil]
        refine ⟨?_, hopen.symm, nofun, fun _ => rfl⟩
        cases before with
        | nil => rfl
        | cons b before => rfl
      · have hheader : before.take 4 ++ record.payload.take (4 - (before.take 4).length) =
            (before ++ record.payload).take 4 := by
          rw [List.take_append, List.length_take]
          congr 2
          omega
        have hannounced := announced_take (before ++ record.payload)
        rw [hheader, ← List.length_append, ← List.append_assoc]
        dsimp only
        split
        · rename_i kind high middle low hfour
          rw [hfour] at hannounced
          split
          · rename_i hdeclared
            have hlen := announced_append hannounced.symm (carriedBy rest)
            refine ⟨?_, ?_, fun _ => hlen, nofun⟩
            · cases hcase : before ++ record.payload with
              | nil => rw [hcase] at hfour; cases hfour
              | cons b tail =>
                  rw [hcase] at hfour
                  obtain ⟨rfl, _⟩ := List.cons.inj hfour
                  rfl
            · exact (isWhole_append (isWhole_iff.mpr ⟨_, hannounced.symm, hdeclared⟩) _).symm
          · rename_i hdeclared
            refine ih _ ?_ record.behind
            refine Bool.eq_false_iff.mpr fun hwhole => ?_
            obtain ⟨len, hlen, hle⟩ := isWhole_iff.mp hwhole
            have hsame : some (4 + beU24 high middle low) = some len := hannounced.trans hlen
            cases hsame
            exact hdeclared hle
        · rename_i hshort
          refine ih _ ?_ record.behind
          refine Bool.eq_false_iff.mpr fun hwhole => ?_
          obtain ⟨len, hlen, _⟩ := isWhole_iff.mp hwhole
          rw [← hannounced] at hlen
          unfold announced at hlen
          split at hlen
          · rename_i kind high middle low tail heq
            have hlength : ((before ++ record.payload).take 4).length ≤ 4 := by
              rw [List.length_take]
              omega
            rw [heq] at hlength
            simp only [List.length_cons] at hlength
            have htail : tail = [] := List.length_eq_zero_iff.mp (by omega)
            exact hshort kind high middle low (htail ▸ heq)
          · cases hlen

theorem nextRecord_behind {data : Bytes} {record : TlsRecord}
    (hnext : nextRecord data = some record) : record.behind.length < data.length := by
  unfold nextRecord at hnext
  split at hnext
  · cases hnext
    simp only [List.length_drop, List.length_cons]
    omega
  · cases hnext

theorem nextRecord_type {data : Bytes} {record : TlsRecord}
    (hnext : nextRecord data = some record) : data.head? = some record.contentType := by
  unfold nextRecord at hnext
  split at hnext
  · cases hnext
    rfl
  · cases hnext

theorem isForeign_record {data : Bytes} {record : TlsRecord}
    (hnext : nextRecord data = some record) :
    isForeign data = (record.contentType != handshake) := by
  rw [isForeign, nextRecord_type hnext]
  rfl

theorem assemble_extendable (before : Bytes) (len fuel : Nat) (behind : Bytes)
    (hopen : (assemble before len behind (records fuel behind)).1.complete = false) :
    ((assemble before len behind (records fuel behind)).1.extendable &&
      (assemble before len behind (records fuel behind)).2.head?.all (· == handshake)) =
        !isSealed fuel behind := by
  have hnow (behind : Bytes) : behind.head?.all (· == handshake) = !isForeign behind := by
    unfold isForeign
    cases behind with
    | nil => rfl
    | cons b behind => simp [bne]
  induction fuel generalizing before len behind with
  | zero =>
      rw [records, assemble, isSealed]
      exact hnow behind
  | succ fuel ih =>
      rw [records, isSealed] at *
      cases hnext : nextRecord behind with
      | none =>
          simp only [assemble, Bool.or_false]
          exact hnow behind
      | some record =>
          have hforeign := isForeign_record hnext
          simp only [hnext, assemble] at hopen ⊢
          by_cases htype : record.contentType = handshake
          · have hforeign' : isForeign behind = false := by simp [hforeign, htype]
            rw [if_neg (not_not.mpr htype)] at hopen ⊢
            rw [hforeign', Bool.false_or]
            revert hopen
            split
            · split
              · nofun
              · exact fun hopen => ih _ _ _ hopen
            · exact fun hopen => ih _ _ _ hopen
          · have hforeign' : isForeign behind = true := by simp [hforeign, htype]
            rw [if_pos htype, hforeign']
            rfl

theorem carriedBy_grows {fuel fuel' : Nat} {data more : Bytes} (hfuel : data.length ≤ fuel)
    (hfuel' : (data ++ more).length ≤ fuel') :
    carriedBy (records fuel data) <+: carriedBy (records fuel' (data ++ more)) := by
  induction fuel generalizing fuel' data more with
  | zero => exact List.nil_prefix
  | succ fuel ih =>
      rw [records]
      cases hnext : nextRecord data with
      | none => exact List.nil_prefix
      | some record =>
          have hbehind := nextRecord_behind hnext
          unfold nextRecord at hnext
          split at hnext
          · rename_i contentType a b high low rest
            cases hnext
            cases fuel' with
            | zero => simp at hfuel'
            | succ fuel' =>
                simp only [records, List.cons_append, nextRecord, carriedBy]
                by_cases htype : contentType = handshake
                · rw [if_neg (not_not.mpr htype), if_neg (not_not.mpr htype)]
                  obtain hwhole | hpart := Nat.le_total (beU16 high low) rest.length
                  · rw [List.take_append_of_le_length hwhole, List.drop_append_of_le_length hwhole]
                    refine (List.prefix_append_right_inj _).mpr (ih ?_ ?_)
                    · simp only [List.length_cons] at hfuel hbehind
                      omega
                    · simp only [List.length_append, List.length_cons, List.length_drop] at hfuel' ⊢
                      omega
                  · rw [List.drop_eq_nil_of_le hpart]
                    have hnone : carriedBy (records fuel []) = [] := by
                      cases fuel with
                      | zero => rfl
                      | succ fuel => rfl
                    rw [hnone, List.append_nil, List.take_of_length_le hpart, List.take_append,
                      List.take_of_length_le hpart, List.append_assoc]
                    exact List.prefix_append _ _
                · rw [if_pos htype]
                  exact List.nil_prefix
          · cases hnext

theorem isForeign_append {data : Bytes} (hforeign : isForeign data = true) (more : Bytes) :
    isForeign (data ++ more) = true := by
  cases data with
  | nil => cases hforeign
  | cons b data => exact hforeign

theorem carriedBy_foreign {data : Bytes} (hforeign : isForeign data = true) (fuel : Nat) :
    carriedBy (records fuel data) = [] := by
  cases fuel with
  | zero => rfl
  | succ fuel =>
      rw [records]
      cases hnext : nextRecord data with
      | none => rfl
      | some record =>
          have htype := isForeign_record hnext
          rw [hforeign] at htype
          simp only [carriedBy]
          rw [if_pos (by simpa using htype.symm)]

theorem isSealed_nil (fuel : Nat) : isSealed fuel [] = false := by
  cases fuel with
  | zero => rfl
  | succ fuel => rfl

theorem records_sealed {fuel fuel' : Nat} {data more : Bytes} (hfuel : data.length ≤ fuel)
    (hfuel' : (data ++ more).length ≤ fuel') (hsealed : isSealed fuel data = true) :
    isSealed fuel' (data ++ more) = true ∧
      carriedBy (records fuel' (data ++ more)) = carriedBy (records fuel data) := by
  have hover {fuel : Nat} {data : Bytes} (hforeign : isForeign data = true) :
      isSealed fuel data = true := by
    cases fuel with
    | zero => exact hforeign
    | succ fuel => rw [isSealed, hforeign, Bool.true_or]
  induction fuel generalizing fuel' data more with
  | zero =>
      have hforeign := isForeign_append hsealed more
      exact ⟨hover hforeign, by rw [carriedBy_foreign hforeign, carriedBy_foreign hsealed]⟩
  | succ fuel ih =>
      by_cases hforeign : isForeign data = true
      · have hforeign' := isForeign_append hforeign more
        exact ⟨hover hforeign', by rw [carriedBy_foreign hforeign', carriedBy_foreign hforeign]⟩
      · rw [isSealed, Bool.eq_false_iff.mpr hforeign, Bool.false_or] at hsealed
        cases hnext : nextRecord data with
        | none =>
            rw [hnext] at hsealed
            cases hsealed
        | some record =>
            rw [hnext] at hsealed
            have htype := isForeign_record hnext
            have hbehind := nextRecord_behind hnext
            rw [Bool.eq_false_iff.mpr hforeign] at htype
            have htype' : record.contentType = handshake := by simpa using htype.symm
            unfold nextRecord at hnext
            split at hnext
            · rename_i contentType a b high low rest
              cases hnext
              obtain hwhole | hpart := Nat.le_total (beU16 high low) rest.length
              · cases fuel' with
                | zero => simp at hfuel'
                | succ fuel' =>
                    simp only [isSealed, records, List.cons_append, nextRecord, carriedBy]
                    rw [if_neg (not_not.mpr htype'), if_neg (not_not.mpr htype'),
                      List.take_append_of_le_length hwhole, List.drop_append_of_le_length hwhole]
                    simp only [List.length_cons, List.length_append] at hfuel hfuel' hbehind
                    have hrest : isSealed fuel' (rest.drop (beU16 high low) ++ more) = true ∧
                        carriedBy (records fuel' (rest.drop (beU16 high low) ++ more)) =
                          carriedBy (records fuel (rest.drop (beU16 high low))) :=
                      ih (by omega) (by simp only [List.length_append, List.length_drop]; omega)
                        hsealed
                    exact ⟨by rw [hrest.1, Bool.or_true], by rw [hrest.2]⟩
              · -- an open payload is no end
                rw [List.drop_eq_nil_of_le hpart] at hsealed
                dsimp only at hsealed
                rw [isSealed_nil] at hsealed
                cases hsealed
            · cases hnext

theorem carried_grows (data more : Bytes) : carried data <+: carried (data ++ more) :=
  carriedBy_grows (Nat.le_refl _) (Nat.le_refl _)

theorem assemble_first {record : TlsRecord} (htype : record.contentType = handshake)
    (header : Bytes) (len : Nat) (behind behind' : Bytes) (rest : List TlsRecord) :
    assemble header len behind (record :: rest) = assemble header len behind' (record :: rest) := by
  rw [assemble, if_neg (not_not.mpr htype), assemble, if_neg (not_not.mpr htype)]

theorem handshakePrefix_spec {data : Bytes} (hlength : 5 ≤ data.length)
    (htype : data.head? = some handshake) :
    ∃ known, handshakePrefix data = some known ∧ known.kind = (carried data).head? ∧
      known.complete = isWhole (carried data) ∧
      (known.complete = true → announced (carried data) = some known.len) ∧
      (known.complete = false → known.len = (carried data).length ∧
        known.extendable = !isSealed data.length data) := by
  obtain ⟨record, hnext⟩ : ∃ record, nextRecord data = some record := by
    match data, hlength with
    | _ :: _ :: _ :: _ :: _ :: _, _ => exact ⟨_, rfl⟩
  have hfirst : record.contentType = handshake :=
    Option.some.inj ((nextRecord_type hnext).symm.trans htype)
  obtain ⟨fuel, hfuel⟩ := Nat.exists_eq_add_of_lt (Nat.lt_of_lt_of_le (Nat.zero_lt_succ 4) hlength)
  rw [Nat.zero_add] at hfuel
  have hwalk : walkRecords data = record :: records fuel record.behind := by
    rw [walkRecords, hfuel, records, hnext]
  have hrecords : walkRecords data = records (fuel + 1) data := by rw [walkRecords, hfuel]
  obtain ⟨hkind, hcomplete, hwhole, hopen⟩ :=
    assemble_spec [] rfl data (walkRecords data)
  have hextendable := assemble_extendable [] 0 (fuel + 1) data
  rw [← hrecords, hwalk] at hextendable
  rw [hwalk] at hkind hcomplete hwhole hopen
  have hbehind := assemble_first hfirst [] 0 record.behind data (records fuel record.behind)
  rw [handshakePrefix, hwalk]
  dsimp only
  rw [if_neg (not_not.mpr hfirst), hbehind]
  refine ⟨_, rfl, ?_, ?_, ?_, fun hnot => ⟨?_, ?_⟩⟩
  · exact hkind.trans (by rw [carried, hwalk]; rfl)
  · exact hcomplete.trans (by rw [carried, hwalk]; rfl)
  · intro hdone
    rw [carried, hwalk]
    exact hwhole hdone
  · rw [carried, hwalk]
    exact hopen hnot
  · rw [hfuel]
    exact hextendable hnot

theorem handshakeMessage_spec {data : Bytes} (hlength : 5 ≤ data.length)
    (htype : data.head? = some handshake) :
    handshakeMessage data = some ((carried data).take
      ((announced (carried data)).getD (carried data).length)) := by
  obtain ⟨known, hknown, _, hcomplete, hwhole, hopen⟩ := handshakePrefix_spec hlength htype
  rw [handshakeMessage, hknown, Option.map_some]
  cases hdone : known.complete with
  | true =>
      have hlen := hwhole hdone
      obtain ⟨len, hannounced, hle⟩ := isWhole_iff.mp (hcomplete.symm.trans hdone)
      rw [hlen, Option.getD_some]
      obtain rfl := Option.some.inj (hannounced.symm.trans hlen)
      rw [messageBytes_take _ hle]
      rfl
  | false =>
      have hlen := (hopen hdone).1
      rw [messageBytes_take _ (Nat.le_of_eq hlen), hlen]
      congr 1
      rw [carried, List.take_length]
      refine (List.take_of_length_le ?_).symm
      cases hannounced : announced (carried data) with
      | none =>
          rw [carried] at hannounced
          rw [hannounced]
          exact Nat.le_refl _
      | some len =>
          rw [carried] at hannounced
          rw [hannounced, Option.getD_some]
          by_contra hlt
          have hdone' := isWhole_iff.mpr ⟨len, hannounced, by omega⟩
          rw [carried] at hcomplete
          rw [hdone, hdone'] at hcomplete
          cases hcomplete

end Resocks5.Recovery
