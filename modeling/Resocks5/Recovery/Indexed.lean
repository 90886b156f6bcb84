import Resocks5.Foundation.Indexing
import Resocks5.Recovery.Stability

namespace Resocks5.Recovery.Indexed

open Resocks5.Foundation
open Reader

/-! The same readers with the positions that the code computes. -/

def beU16 (b : Bytes) : Reader Nat := do
  return Recovery.beU16 (← byteAt b 0) (← byteAt b 1)

def beU24 (b : Bytes) : Reader Nat := do
  return Recovery.beU24 (← byteAt b 0) (← byteAt b 1) (← byteAt b 2)

/-- `TlsRecord`: the payload is a range. -/
structure Span where
  contentType : UInt8
  start : Nat
  stop : Nat
  deriving DecidableEq, Repr

/-- The records from a position on. The source walks them lazily. -/
def walkFrom : Nat → Bytes → Nat → Reader (List Span)
  | 0, _, _ => return []
  | fuel + 1, data, pos =>
    match getRange data pos (pos + 5) with
    | none => return []
    | some header => do
      let len := Recovery.beU16 (← byteAt header 3) (← byteAt header 4)
      let contentType ← byteAt header 0
      let stop := min (pos + 5 + len) data.length
      let rest ← walkFrom fuel data stop
      return ⟨contentType, pos + 5, stop⟩ :: rest

def walkRecords (data : Bytes) : Reader (List Span) := walkFrom data.length data 0

/-- What the loop of `handshake_prefix` carries along. -/
structure Scan where
  known : HandshakePrefix
  header : Bytes
  headerLen : Nat
  nextHeader : Nat

def kindOf (header : Bytes) (headerLen : Nat) (kind : Option UInt8) : Reader (Option UInt8) :=
  if headerLen ≠ 0 then do return some (← byteAt header 0) else return kind

def scan (data : Bytes) (state : Scan) : List Span → Reader Scan
  | [] => return state
  | record :: rest =>
    if record.contentType ≠ handshake then
      return { state with known := { state.known with extendable := false } }
    else do
      let payload ← slice data record.start record.stop
      let n := min payload.length (← minus state.header.length state.headerLen)
      let front ← slice payload 0 n
      let header ← overwrite state.header state.headerLen (state.headerLen + n) front
      let headerLen := state.headerLen + n
      let len := state.known.len + payload.length
      let kind ← kindOf header headerLen state.known.kind
      let known := { state.known with len := len, kind := kind }
      if headerLen = header.length then do
        let declared := 4 + (← beU24 (← slice header 1 header.length))
        if declared ≤ len then
          return ⟨{ known with len := declared, complete := true }, header, headerLen, record.stop⟩
        else scan data ⟨known, header, headerLen, record.stop⟩ rest
      else scan data ⟨known, header, headerLen, record.stop⟩ rest

def handshakePrefix (data : Bytes) : Reader HandshakePrefix := do
  match ← walkRecords data with
  | [] => .error .absent
  | first :: rest =>
    if first.contentType ≠ handshake then .error .absent
    else do
      let state ← scan data ⟨⟨0, none, false, true⟩, [0, 0, 0, 0], 0, first.stop⟩ (first :: rest)
      if data[state.nextHeader]?.any (· != handshake) then
        return { state.known with extendable := false }
      else return state.known

def gather (data : Bytes) (len : Nat) (message : Bytes) : List Span → Reader Bytes
  | [] => return message
  | record :: rest => do
    let n := min (record.stop - record.start) (← minus len message.length)
    let message := message ++ (← slice data record.start (record.start + n))
    if message.length = len then return message else gather data len message rest

def messageBytes (data : Bytes) (len : Nat) : Reader Bytes := do
  match ← walkRecords data with
  | [] => .error .panicked
  | first :: rest =>
    if len ≤ first.stop - first.start then slice data first.start (first.start + len)
    else gather data len [] (first :: rest)

def handshakeMessage (data : Bytes) : Reader Bytes := do
  let known ← handshakePrefix data
  messageBytes data known.len

def clientHelloMightContinue (data : Bytes) : Reader Bool :=
  if data[0]?.any (· != handshake) || data[1]?.any (· != 0x03) then return false
  else
    match handshakePrefix data with
    | .ok known => return known.kind.all (· == 0x01) && !known.complete && known.extendable
    | .error .absent => return data.length < 5
    | .error .panicked => .error .panicked

def sniMightStillAppear (data : Bytes) : Reader Bool := clientHelloMightContinue data

def skip (buf : Bytes) (p n : Nat) : Reader Nat :=
  if p + n ≤ buf.length then return p + n else .error .absent

def skipVec8 (buf : Bytes) (p : Nat) : Reader Nat := do
  let len ← ofOption buf[p]?
  skip buf (p + 1) len.toNat

def skipVec16 (buf : Bytes) (p : Nat) : Reader Nat := do
  let len ← beU16 (← ofOption (getRange buf p (p + 2)))
  skip buf (p + 2) len

def serverNames (list : Bytes) (p : Nat) : Reader Bytes :=
  if hmore : p + 3 ≤ list.length then do
    let nameType ← byteAt list p
    let nameLen ← beU16 (← slice list (p + 1) (p + 3))
    let name ← ofOption (getRange list (p + 3) (p + 3 + nameLen))
    if nameType = 0x00 then do
      demand (isUtf8 name)
      demand !name.isEmpty
      return name.map toAsciiLower
    else serverNames list (p + (3 + nameLen))
  else .error .absent
termination_by list.length - p

def parseServerNameExt (data : Bytes) : Reader Bytes := do
  let listLen ← beU16 (← ofOption (getRange data 0 2))
  let list ← ofOption (getRange data 2 (2 + listLen))
  serverNames list 0

def sniExtension (extensions : Bytes) (e : Nat) : Reader Bytes :=
  if hmore : e + 4 ≤ extensions.length then do
    let extType ← beU16 (← slice extensions e (e + 2))
    let extLen ← beU16 (← slice extensions (e + 2) (e + 4))
    let extData ← ofOption (getRange extensions (e + 4) (e + 4 + extLen))
    if extType = 0x0000 then parseServerNameExt extData
    else sniExtension extensions (e + (4 + extLen))
  else .error .absent
termination_by extensions.length - e

def clientHelloExtensions (hs : Bytes) : Reader Bytes := do
  let p ← skip hs 0 2
  let p ← skip hs p 32
  let p ← skipVec8 hs p
  let p ← skipVec16 hs p
  let p ← skipVec8 hs p
  let extTotal ← beU16 (← ofOption (getRange hs p (p + 2)))
  ofOption (getRange hs (p + 2) (min (p + 2 + extTotal) hs.length))

def helloBody (message : Bytes) (hsLen : Nat) : Reader Bytes :=
  match getRange message 4 (4 + hsLen) with
  | some hs => return hs
  | none => slice message 4 message.length

def parseHandshake (message : Bytes) : Reader Bytes := do
  if message.length < 4 then .error .absent
  else if (← byteAt message 0) ≠ 0x01 then .error .absent
  else do
    let hsLen ← beU24 (← slice message 1 4)
    let hs ← helloBody message hsLen
    let extensions ← clientHelloExtensions hs
    sniExtension extensions 0

def parseSni (data : Bytes) : Reader Bytes := do
  if data.length < 5 then .error .absent
  else if (← byteAt data 0) ≠ handshake then .error .absent
  else if (← byteAt data 1) ≠ 0x03 then .error .absent
  else do
    let message ← handshakeMessage data
    parseHandshake message

theorem beU16_cons (high low : UInt8) (rest : Bytes) :
    beU16 (high :: low :: rest) = .ok (Recovery.beU16 high low) := rfl

theorem beU24_cons (high middle low : UInt8) (rest : Bytes) :
    beU24 (high :: middle :: low :: rest) = .ok (Recovery.beU24 high middle low) := rfl

/-! The records. -/

/-- A range in the data and the record that lies there. -/
structure Span.Covers (data : Bytes) (span : Span) (record : TlsRecord) : Prop where
  type : span.contentType = record.contentType
  start : span.start ≤ span.stop
  stop : span.stop ≤ data.length
  payload : record.payload = (data.drop span.start).take (span.stop - span.start)
  behind : record.behind = data.drop span.stop

theorem Span.Covers.length {data : Bytes} {span : Span} {record : TlsRecord}
    (hcovers : span.Covers data record) : record.payload.length = span.stop - span.start := by
  have hstop := hcovers.stop
  rw [hcovers.payload, List.length_take, List.length_drop]
  omega

theorem Span.Covers.slice {data : Bytes} {span : Span} {record : TlsRecord}
    (hcovers : span.Covers data record) :
    Reader.slice data span.start span.stop = .ok record.payload := by
  rw [slice_eq hcovers.start hcovers.stop, hcovers.payload]

theorem Span.Covers.sliceFront {data : Bytes} {span : Span} {record : TlsRecord}
    (hcovers : span.Covers data record) {n : Nat} (hn : n ≤ span.stop - span.start) :
    Reader.slice data span.start (span.start + n) = .ok (record.payload.take n) := by
  have hstart := hcovers.start
  have hstop := hcovers.stop
  rw [slice_eq (by omega) (by omega), hcovers.payload, List.take_take, Nat.add_sub_cancel_left,
    Nat.min_eq_left hn]

theorem nextRecord_drop {data : Bytes} {pos : Nat} (hpos : pos ≤ data.length) :
    (∃ contentType a b high low, getRange data pos (pos + 5) = some [contentType, a, b, high, low] ∧
        nextRecord (data.drop pos) = some ⟨contentType,
          (data.drop (pos + 5)).take (Recovery.beU16 high low),
          (data.drop (pos + 5)).drop (Recovery.beU16 high low)⟩) ∨
      (getRange data pos (pos + 5) = none ∧ nextRecord (data.drop pos) = none) := by
  rw [getRange_drop hpos, ← List.drop_drop]
  match data.drop pos with
  | contentType :: a :: b :: high :: low :: rest =>
      exact .inl ⟨contentType, a, b, high, low, if_pos (by simp), rfl⟩
  | [] => exact .inr ⟨rfl, rfl⟩
  | [_] => exact .inr ⟨rfl, rfl⟩
  | [_, _] => exact .inr ⟨rfl, rfl⟩
  | [_, _, _] => exact .inr ⟨rfl, rfl⟩
  | [_, _, _, _] => exact .inr ⟨rfl, rfl⟩

theorem covers_clipped {data : Bytes} {start : Nat} (hstart : start ≤ data.length)
    (contentType : UInt8) (len : Nat) :
    Span.Covers data ⟨contentType, start, min (start + len) data.length⟩
      ⟨contentType, (data.drop start).take len, (data.drop start).drop len⟩ := by
  refine ⟨rfl, Nat.le_min.mpr ⟨Nat.le_add_right _ _, hstart⟩, Nat.min_le_right _ _, ?_, ?_⟩
  all_goals
    dsimp only
    obtain hle | hle := Nat.le_total (start + len) data.length
  · rw [Nat.min_eq_left hle, Nat.add_sub_cancel_left]
  · rw [Nat.min_eq_right hle, List.take_of_length_le, List.take_of_length_le]
    · exact Nat.le_of_eq List.length_drop
    · rw [List.length_drop]
      omega
  · rw [Nat.min_eq_left hle, List.drop_drop]
  · rw [Nat.min_eq_right hle, List.drop_length, List.drop_drop, List.drop_eq_nil_of_le hle]

theorem walkFrom_covers (fuel : Nat) {data : Bytes} {pos : Nat} (hpos : pos ≤ data.length) :
    ∃ spans, walkFrom fuel data pos = .ok spans ∧
      List.Forall₂ (Span.Covers data) spans (records fuel (data.drop pos)) := by
  induction fuel generalizing pos with
  | zero => exact ⟨[], rfl, .nil⟩
  | succ fuel ih =>
      rw [walkFrom, records]
      obtain ⟨contentType, a, b, high, low, hrange, hnext⟩ | ⟨hrange, hnext⟩ := nextRecord_drop hpos
      · have hheader : pos + 5 ≤ data.length := by
          rw [getRange] at hrange
          split at hrange
          · rename_i hin
            exact hin.2
          · cases hrange
        rw [hrange, hnext]
        dsimp only
        have hcovers := covers_clipped hheader contentType (Recovery.beU16 high low)
        obtain ⟨spans, hspans, hrest⟩ := ih hcovers.stop
        have hbytes {i : Nat} {byte : UInt8}
            (hbyte : [contentType, a, b, high, low][i]? = some byte) := byteAt_eq hbyte
        rw [hbytes (i := 3) rfl, hbytes (i := 4) rfl, hbytes (i := 0) rfl]
        simp only [ok_bind, hspans]
        refine ⟨_, rfl, .cons hcovers ?_⟩
        rw [← hcovers.behind] at hrest
        exact hrest
      · rw [hrange, hnext]
        exact ⟨[], rfl, .nil⟩

theorem walkRecords_covers (data : Bytes) : ∃ spans, walkRecords data = .ok spans ∧
    List.Forall₂ (Span.Covers data) spans (Recovery.walkRecords data) :=
  walkFrom_covers data.length (Nat.zero_le _)

/-! The message. -/

/-- The state of the loop against what `assemble` carries along. -/
structure Scan.Tracks (data : Bytes) (state : Scan) (header : Bytes) (len : Nat)
    (behind : Bytes) : Prop where
  known : state.known = ⟨len, header.head?, false, true⟩
  width : state.header.length = 4
  headerLen : state.headerLen = header.length
  fits : header.length ≤ 4
  front : state.header.take header.length = header
  behind : data.drop state.nextHeader = behind

theorem overwrite_header {array header front : Bytes} (hwidth : array.length = 4)
    (hheader : array.take header.length = header) (hfits : (header ++ front).length ≤ 4) :
    ∃ array', overwrite array header.length (header.length + front.length) front = .ok array' ∧
      array'.length = 4 ∧ array'.take (header ++ front).length = header ++ front := by
  rw [List.length_append] at hfits
  refine ⟨_, if_pos ⟨Nat.le_add_right _ _, by omega, by omega⟩, ?_, ?_⟩
  · rw [hheader]
    simp only [List.length_append, List.length_drop]
    omega
  · rw [hheader, List.take_left']
    rfl

theorem kindOf_head {array header : Bytes} (hheader : array.take header.length = header) :
    kindOf array header.length none = .ok header.head? := by
  cases header with
  | nil => rfl
  | cons kind rest =>
      cases array with
      | nil => cases hheader
      | cons kind' rest' =>
          obtain ⟨rfl, _⟩ := List.cons.inj hheader
          rfl

theorem kindOf_append {array header front : Bytes}
    (hheader : array.take (header ++ front).length = header ++ front) :
    kindOf array (header.length + front.length) header.head? = .ok (header ++ front).head? := by
  rw [← kindOf_head hheader, List.length_append]
  cases header with
  | nil => rfl
  | cons kind rest =>
      have hne : (kind :: rest).length + front.length ≠ 0 := by
        rw [List.length_cons]
        omega
      rw [kindOf, kindOf, if_pos hne, if_pos hne]

theorem scan_tracks {data : Bytes} {state : Scan} {header : Bytes} {len : Nat} {behind : Bytes}
    (htracks : state.Tracks data header len behind) {spans : List Span} {rs : List TlsRecord}
    (hcovers : List.Forall₂ (Span.Covers data) spans rs) :
    ∃ state', scan data state spans = .ok state' ∧
      state'.known = (assemble header len behind rs).1 ∧
      data.drop state'.nextHeader = (assemble header len behind rs).2 := by
  induction hcovers generalizing state header len behind with
  | nil => exact ⟨state, rfl, htracks.known, htracks.behind⟩
  | @cons span record spans rs hspan _ ih =>
      rw [scan, assemble, hspan.type]
      by_cases htype : record.contentType = handshake
      · rw [if_neg (not_not.mpr htype), if_neg (not_not.mpr htype)]
        have hwidth := htracks.width
        have hfits := htracks.fits
        have hn : (record.payload.take (4 - header.length)).length =
            min record.payload.length (4 - header.length) := by
          rw [List.length_take, Nat.min_comm]
        have hfits' : (header ++ record.payload.take (4 - header.length)).length ≤ 4 := by
          rw [List.length_append, hn]
          omega
        obtain ⟨array, harray, hwidth', hfront⟩ :=
          overwrite_header hwidth htracks.front hfits'
        have hslice : Reader.slice record.payload 0
            (record.payload.take (4 - header.length)).length =
              .ok (record.payload.take (4 - header.length)) := by
          rw [slice_eq (Nat.zero_le _) (by omega), List.drop_zero, Nat.sub_zero, hn]
          congr 1
          obtain hle | hle := Nat.le_total record.payload.length (4 - header.length)
          · rw [Nat.min_eq_left hle, List.take_of_length_le (Nat.le_refl _),
              List.take_of_length_le hle]
          · rw [Nat.min_eq_right hle]
        simp only [hspan.slice, ok_bind, htracks.headerLen, hwidth, htracks.known,
          minus_eq hfits, ← hn, hslice, harray, kindOf_append hfront, hwidth']
        rw [← List.length_append]
        generalize header ++ record.payload.take (4 - header.length) = header' at *
        have hnext : Scan.Tracks data ⟨⟨len + record.payload.length, header'.head?, false, true⟩,
            array, header'.length, span.stop⟩ header' (len + record.payload.length) record.behind :=
          ⟨rfl, hwidth', rfl, hfits', hfront, hspan.behind.symm⟩
        by_cases hfour : header'.length = 4
        · rw [hfour, List.take_of_length_le (Nat.le_of_eq hwidth')] at hfront
          rw [if_pos hfour]
          obtain rfl := hfront
          obtain ⟨kind, high, middle, low, rest, rfl⟩ := exists_cons_four (Nat.le_of_eq hfour.symm)
          obtain rfl : rest = [] := List.length_eq_zero_iff.mp (by simpa using hfour)
          have hdeclared : Reader.slice [kind, high, middle, low] 1 4 =
              .ok [high, middle, low] := rfl
          simp only [hdeclared, ok_bind, beU24_cons]
          split
          · exact ⟨_, rfl, rfl, hspan.behind.symm⟩
          · exact ih hnext
        · rw [if_neg hfour]
          split
          · exact absurd rfl hfour
          · exact ih hnext
      · rw [if_pos htype, if_pos htype]
        exact ⟨_, rfl, by rw [htracks.known], htracks.behind⟩

theorem handshakePrefix_eq (data : Bytes) :
    handshakePrefix data = ofOption (Recovery.handshakePrefix data) := by
  obtain ⟨spans, hspans, hcovers⟩ := walkRecords_covers data
  rw [handshakePrefix, Recovery.handshakePrefix, hspans]
  generalize Recovery.walkRecords data = rs at hcovers
  cases hcovers with
  | nil => rfl
  | @cons first record spans rest hfirst hrest =>
      rw [ok_bind]
      dsimp only
      rw [hfirst.type]
      by_cases htype : record.contentType = handshake
      · rw [if_neg (not_not.mpr htype), if_neg (not_not.mpr htype)]
        have hstart : Scan.Tracks data ⟨⟨0, none, false, true⟩, [0, 0, 0, 0], 0, first.stop⟩ [] 0
            record.behind := ⟨rfl, rfl, rfl, Nat.zero_le _, rfl, hfirst.behind.symm⟩
        obtain ⟨state, hstate, hknown, hbehind⟩ := scan_tracks hstart (.cons hfirst hrest)
        have hlooked : data[state.nextHeader]? =
            (assemble [] 0 record.behind (record :: rest)).2.head? := by
          rw [← hbehind, List.head?_drop]
        rw [hstate, ok_bind, hlooked, hknown]
        generalize assemble [] 0 record.behind (record :: rest) = found
        obtain ⟨known, behind⟩ := found
        cases behind with
        | nil => simp
        | cons kind behind =>
            simp only [List.head?_cons, Option.any_some, Option.all_some, bne]
            by_cases hkind : kind = handshake
            · simp [hkind]
            · simp [hkind]
      · rw [if_pos htype, if_pos htype]
        rfl

theorem messageBytes_zero (rs : List TlsRecord) : Recovery.messageBytes rs 0 = [] := by
  induction rs with
  | nil => rfl
  | cons record rest ih => rw [Recovery.messageBytes, List.take_zero, Nat.zero_sub, ih]; rfl

theorem gather_covers {data : Bytes} {spans : List Span} {rs : List TlsRecord}
    (hcovers : List.Forall₂ (Span.Covers data) spans rs) {len : Nat} {message : Bytes}
    (hmessage : message.length ≤ len) :
    gather data len message spans =
      .ok (message ++ Recovery.messageBytes rs (len - message.length)) := by
  induction hcovers generalizing message with
  | nil => rw [gather, Recovery.messageBytes, List.append_nil, pure_eq]
  | @cons span record spans rs hspan _ ih =>
      have hfront := hspan.sliceFront (n := min (span.stop - span.start) (len - message.length))
        (Nat.min_le_left _ _)
      have htake : record.payload.take (min (span.stop - span.start) (len - message.length)) =
          record.payload.take (len - message.length) := by
        rw [← hspan.length, Nat.min_comm, ← List.take_take, List.take_length]
      rw [htake] at hfront
      rw [gather, minus_eq hmessage, ok_bind]
      dsimp only
      rw [hfront, ok_bind, Recovery.messageBytes, ← List.append_assoc]
      have hlength : (record.payload.take (len - message.length)).length =
          min (len - message.length) record.payload.length := List.length_take
      have hleft : len - message.length - record.payload.length =
          len - (message ++ record.payload.take (len - message.length)).length := by
        rw [List.length_append, hlength]
        omega
      rw [hleft]
      split
      · rename_i hdone
        rw [hdone, Nat.sub_self, messageBytes_zero, List.append_nil, pure_eq]
      · exact ih (by rw [List.length_append, hlength]; omega)

theorem messageBytes_eq {data : Bytes} {record : TlsRecord} {rest : List TlsRecord}
    (hrecords : Recovery.walkRecords data = record :: rest) (len : Nat) :
    messageBytes data len = .ok (Recovery.messageBytes (record :: rest) len) := by
  obtain ⟨spans, hspans, hcovers⟩ := walkRecords_covers data
  rw [hrecords] at hcovers
  rw [messageBytes, hspans, ok_bind]
  cases hcovers with
  | @cons first _ spans _ hfirst hrest =>
      dsimp only
      split
      · rename_i hle
        rw [hfirst.sliceFront hle, Recovery.messageBytes, hfirst.length,
          Nat.sub_eq_zero_of_le hle, messageBytes_zero, List.append_nil]
      · exact gather_covers (.cons hfirst hrest) (Nat.zero_le _)

theorem handshakeMessage_eq (data : Bytes) :
    handshakeMessage data = ofOption (Recovery.handshakeMessage data) := by
  rw [handshakeMessage, handshakePrefix_eq, Recovery.handshakeMessage]
  cases hknown : Recovery.handshakePrefix data with
  | none => rfl
  | some known =>
      rw [ofOption_some, ok_bind, Option.map_some, ofOption_some]
      cases hrecords : Recovery.walkRecords data with
      | nil =>
          rw [Recovery.handshakePrefix, hrecords] at hknown
          cases hknown
      | cons record rest => exact messageBytes_eq hrecords known.len

theorem clientHelloMightContinue_eq (data : Bytes) :
    clientHelloMightContinue data = .ok (Recovery.clientHelloMightContinue data) := by
  rw [clientHelloMightContinue, Recovery.clientHelloMightContinue, List.head?_eq_getElem?]
  split
  · rfl
  · rw [handshakePrefix_eq]
    cases Recovery.handshakePrefix data with
    | none => rfl
    | some known => rfl

/-! Inside the message. -/

theorem skip_follows {buf : Bytes} {p : Nat} (hp : p ≤ buf.length) (n : Nat) :
    Follows buf (skip buf p n) (Recovery.skip (buf.drop p) n) := by
  rw [skip, Recovery.skip, List.length_drop, List.drop_drop]
  by_cases hn : p + n ≤ buf.length
  · rw [if_pos hn, if_pos (by omega)]
    exact .inl ⟨p + n, hn, rfl, rfl⟩
  · rw [if_neg hn, if_neg (by omega)]
    exact .inr ⟨rfl, rfl⟩

theorem drop_cons {data rest : Bytes} {pos : Nat} {b : UInt8} (hdrop : data.drop pos = b :: rest) :
    pos + 1 ≤ data.length ∧ data[pos]? = some b ∧ data.drop (pos + 1) = rest := by
  have hlength := congrArg List.length hdrop
  rw [List.length_drop, List.length_cons] at hlength
  refine ⟨by omega, ?_, ?_⟩
  · rw [← List.head?_drop, hdrop, List.head?_cons]
  · rw [← List.drop_drop, hdrop, List.drop_succ_cons, List.drop_zero]

theorem skipVec8_follows (buf : Bytes) (p : Nat) :
    Follows buf (skipVec8 buf p) (Recovery.skipVec8 (buf.drop p)) := by
  rw [skipVec8]
  cases hdrop : buf.drop p with
  | nil =>
      rw [List.getElem?_eq_none (List.drop_eq_nil_iff.mp hdrop)]
      exact .inr ⟨rfl, rfl⟩
  | cons len rest =>
      obtain ⟨hp', hlen, hrest⟩ := drop_cons hdrop
      rw [hlen, ofOption_some, ok_bind, Recovery.skipVec8, ← hrest]
      exact skip_follows hp' len.toNat

theorem beU16_drop {data : Bytes} {pos : Nat} (hpos : pos ≤ data.length) :
    (∃ high low rest, data.drop pos = high :: low :: rest ∧ pos + 2 ≤ data.length ∧
        data.drop (pos + 2) = rest ∧
        getRange data pos (pos + 2) = some [high, low]) ∨
      ((data.drop pos).length < 2 ∧ getRange data pos (pos + 2) = none) := by
  rw [getRange_drop hpos]
  cases hdrop : data.drop pos with
  | nil => exact .inr ⟨Nat.zero_lt_two, rfl⟩
  | cons high rest =>
      obtain ⟨hhigh, _, hrest⟩ := drop_cons hdrop
      cases rest with
      | nil => exact .inr ⟨Nat.one_lt_two, rfl⟩
      | cons low rest =>
          obtain ⟨hlow, _, hrest'⟩ := drop_cons hrest
          exact .inl ⟨high, low, rest, rfl, hlow, hrest', rfl⟩

theorem skipVec16_follows {buf : Bytes} {p : Nat} (hp : p ≤ buf.length) :
    Follows buf (skipVec16 buf p) (Recovery.skipVec16 (buf.drop p)) := by
  rw [skipVec16]
  obtain ⟨high, low, rest, hdrop, hp', hrest, hrange⟩ | ⟨hshort, hrange⟩ := beU16_drop hp
  · rw [hrange, hdrop, ofOption_some, ok_bind, beU16_cons, ok_bind, Recovery.skipVec16, ← hrest]
    exact skip_follows hp' _
  · rw [hrange]
    match buf.drop p, hshort with
    | [], _ => exact .inr ⟨rfl, rfl⟩
    | [_], _ => exact .inr ⟨rfl, rfl⟩

theorem clientHelloExtensions_eq (hs : Bytes) :
    clientHelloExtensions hs = ofOption (Recovery.clientHelloExtensions hs) := by
  refine (skip_follows (Nat.zero_le _) 2).bind fun p hp => ?_
  refine (skip_follows hp 32).bind fun p hp => ?_
  refine (skipVec8_follows hs p).bind fun p hp => ?_
  refine (skipVec16_follows hp).bind fun p hp => ?_
  refine (skipVec8_follows hs p).bind fun p hp => ?_
  obtain ⟨high, low, rest, hdrop, hp', hrest, hrange⟩ | ⟨hshort, hrange⟩ := beU16_drop hp
  · rw [hrange, hdrop, ofOption_some, ok_bind, beU16_cons, ok_bind]
    dsimp only
    obtain hle | hle := Nat.le_total (p + 2 + Recovery.beU16 high low) hs.length
    · rw [Nat.min_eq_left hle, getRange_some hle, hrest]
    · rw [Nat.min_eq_right hle, getRange, if_pos ⟨hp', Nat.le_refl _⟩, hrest,
        List.take_of_length_le, List.take_of_length_le]
      · rw [← hrest, List.length_drop]
        omega
      · exact Nat.le_of_eq (by rw [← hrest, List.length_drop])
  · rw [hrange]
    cases hdrop : hs.drop p with
    | nil => rfl
    | cons b rest =>
        cases rest with
        | nil => rfl
        | cons c rest =>
            rw [hdrop, List.length_cons, List.length_cons] at hshort
            omega

theorem serverNames_eq (fuel : Nat) {list : Bytes} {p : Nat}
    (hfuel : list.length - p ≤ fuel) :
    serverNames list p = ofOption (Recovery.serverNames fuel (list.drop p)) := by
  induction fuel generalizing p with
  | zero =>
      rw [serverNames, dif_neg (by omega)]
      rfl
  | succ fuel ih =>
      rw [serverNames]
      by_cases hmore : p + 3 ≤ list.length
      · rw [dif_pos hmore]
        obtain ⟨nameType, high, low, rest, hdrop⟩ :
            ∃ nameType high low rest, list.drop p = nameType :: high :: low :: rest := by
          have hlength : 3 ≤ (list.drop p).length := by
            rw [List.length_drop]
            omega
          match list.drop p, hlength with
          | nameType :: high :: low :: rest, _ => exact ⟨nameType, high, low, rest, rfl⟩
        obtain ⟨_, htype, hdrop'⟩ := drop_cons hdrop
        obtain ⟨hp, _, hdrop''⟩ := drop_cons hdrop'
        obtain ⟨_, _, hrest⟩ := drop_cons hdrop''
        have hslice : Reader.slice list (p + 1) (p + 3) = .ok [high, low] := by
          rw [slice_eq (by omega) hmore, hdrop', Nat.add_sub_add_left]
          rfl
        rw [byteAt_eq htype, ok_bind, hslice, ok_bind, beU16_cons, ok_bind,
          getRange_drop hmore, hrest, hdrop, Recovery.serverNames]
        by_cases hlen : Recovery.beU16 high low ≤ rest.length
        · rw [if_pos hlen, if_neg (Nat.not_lt.mpr hlen), ofOption_some, ok_bind]
          split
          · dsimp only
            cases hutf8 : isUtf8 (rest.take (Recovery.beU16 high low)) with
            | false => rfl
            | true =>
                cases hempty : (rest.take (Recovery.beU16 high low)).isEmpty with
                | false => rfl
                | true => rfl
          · rw [ih (by omega), ← Nat.add_assoc, ← List.drop_drop, hrest]
        · rw [if_neg hlen, if_pos (Nat.not_le.mp hlen)]
          rfl
      · rw [dif_neg hmore]
        have hlength : (list.drop p).length < 3 := by
          rw [List.length_drop]
          omega
        match list.drop p, hlength with
        | [], _ => rfl
        | [_], _ => rfl
        | [_, _], _ => rfl

theorem parseServerNameExt_eq (data : Bytes) :
    parseServerNameExt data = ofOption (Recovery.parseServerNameExt data) := by
  rw [parseServerNameExt]
  obtain ⟨high, low, rest, hdrop, hlength, hrest, hrange⟩ | ⟨hshort, hrange⟩ :=
    beU16_drop (Nat.zero_le data.length)
  · rw [Nat.zero_add] at hrange hrest hlength
    rw [hrange, ofOption_some, ok_bind, beU16_cons, ok_bind, getRange_drop hlength, hrest]
    rw [List.drop_zero] at hdrop
    rw [hdrop, Recovery.parseServerNameExt]
    by_cases hlen : Recovery.beU16 high low ≤ rest.length
    · rw [if_pos hlen, if_neg (Nat.not_lt.mpr hlen), ofOption_some, ok_bind,
        serverNames_eq rest.length, List.drop_zero]
      rw [List.length_take]
      omega
    · rw [if_neg hlen, if_pos (Nat.not_le.mp hlen)]
      rfl
  · rw [Nat.zero_add] at hrange
    rw [hrange]
    rw [List.drop_zero] at hshort
    match data, hshort with
    | [], _ => rfl
    | [_], _ => rfl

theorem sniExtension_eq (fuel : Nat) {extensions : Bytes} {e : Nat}
    (hfuel : extensions.length - e ≤ fuel) :
    sniExtension extensions e = ofOption (Recovery.sniExtension fuel (extensions.drop e)) := by
  induction fuel generalizing e with
  | zero =>
      rw [sniExtension, dif_neg (by omega)]
      rfl
  | succ fuel ih =>
      rw [sniExtension]
      by_cases hmore : e + 4 ≤ extensions.length
      · rw [dif_pos hmore]
        obtain ⟨typeHigh, typeLow, high, low, rest, hdrop⟩ : ∃ typeHigh typeLow high low rest,
            extensions.drop e = typeHigh :: typeLow :: high :: low :: rest := by
          have hlength : 4 ≤ (extensions.drop e).length := by
            rw [List.length_drop]
            omega
          exact exists_cons_four hlength
        obtain ⟨_, _, hdrop₁⟩ := drop_cons hdrop
        obtain ⟨_, _, hdrop₂⟩ := drop_cons hdrop₁
        obtain ⟨_, _, hdrop₃⟩ := drop_cons hdrop₂
        obtain ⟨_, _, hrest⟩ := drop_cons hdrop₃
        have htype : Reader.slice extensions e (e + 2) = .ok [typeHigh, typeLow] := by
          rw [slice_eq (by omega) (by omega), hdrop, Nat.add_sub_cancel_left]
          rfl
        have hlen : Reader.slice extensions (e + 2) (e + 4) = .ok [high, low] := by
          rw [slice_eq (by omega) hmore, hdrop₂, Nat.add_sub_add_left]
          rfl
        rw [htype, ok_bind, beU16_cons, ok_bind, hlen, ok_bind, beU16_cons, ok_bind,
          getRange_drop hmore, hrest, hdrop, Recovery.sniExtension]
        by_cases hlen : Recovery.beU16 high low ≤ rest.length
        · rw [if_pos hlen, if_neg (Nat.not_lt.mpr hlen), ofOption_some, ok_bind]
          split
          · exact parseServerNameExt_eq _
          · rw [ih (by omega), ← Nat.add_assoc, ← List.drop_drop, hrest]
        · rw [if_neg hlen, if_pos (Nat.not_le.mp hlen)]
          rfl
      · rw [dif_neg hmore]
        have hlength : (extensions.drop e).length < 4 := by
          rw [List.length_drop]
          omega
        obtain hdrop | ⟨_, hdrop⟩ | ⟨_, _, hdrop⟩ | ⟨_, _, _, hdrop⟩ | ⟨_, _, _, _, hdrop⟩ :=
          short_cases (Nat.lt_succ_of_lt hlength)
        · rw [hdrop]; rfl
        · rw [hdrop]; rfl
        · rw [hdrop]; rfl
        · rw [hdrop]; rfl
        · simp [hdrop] at hlength

theorem helloBody_eq (kind high middle low : UInt8) (body : Bytes) (hsLen : Nat) :
    helloBody (kind :: high :: middle :: low :: body) hsLen = .ok (body.take hsLen) := by
  have hfour : 4 ≤ (kind :: high :: middle :: low :: body).length := Nat.le_add_left 4 body.length
  rw [helloBody, getRange_drop hfour]
  simp only [List.drop_succ_cons, List.drop_zero]
  by_cases hlen : hsLen ≤ body.length
  · rw [if_pos hlen]
    rfl
  · rw [if_neg hlen]
    dsimp only
    rw [slice_eq hfour (Nat.le_refl _), List.take_of_length_le (Nat.le_of_lt (Nat.not_le.mp hlen))]
    simp

theorem parseHandshake_eq (message : Bytes) :
    parseHandshake message = ofOption (Recovery.parseHandshake message) := by
  rw [parseHandshake]
  match message with
  | [] => rfl
  | [_] => rfl
  | [_, _] => rfl
  | [_, _, _] => rfl
  | kind :: high :: middle :: low :: body =>
      have hlength : ¬ (kind :: high :: middle :: low :: body).length < 4 :=
        Nat.not_lt.mpr (Nat.le_add_left 4 body.length)
      have hkind : byteAt (kind :: high :: middle :: low :: body) 0 = .ok kind := rfl
      rw [if_neg hlength, hkind, ok_bind, Recovery.parseHandshake]
      split
      · rfl
      · have hslice : Reader.slice (kind :: high :: middle :: low :: body) 1 4 =
            .ok [high, middle, low] := by
          rw [slice_eq (by decide) (Nat.le_add_left 4 body.length)]
          rfl
        rw [hslice, ok_bind, beU24_cons, ok_bind, helloBody_eq, ok_bind,
          clientHelloExtensions_eq, ofOption_bind]
        cases Recovery.clientHelloExtensions (body.take (Recovery.beU24 high middle low)) with
        | none => rfl
        | some extensions =>
            rw [ofOption_some, ok_bind, ok_bind,
              sniExtension_eq extensions.length (Nat.sub_le _ _), List.drop_zero]

/-- The positions are in range on every input. -/
theorem parseSni_eq (data : Bytes) : parseSni data = ofOption (Recovery.parseSni data) := by
  rw [parseSni]
  match data with
  | [] => rfl
  | [_] => rfl
  | [_, _] => rfl
  | [_, _, _] => rfl
  | [_, _, _, _] => rfl
  | type :: major :: minor :: high :: low :: rest =>
      generalize hdata : type :: major :: minor :: high :: low :: rest = data
      have hlength : ¬ data.length < 5 := by
        rw [← hdata]
        simp
      have htype : data[0]? = some type := by rw [← hdata]; rfl
      have hmajor : data[1]? = some major := by rw [← hdata]; rfl
      rw [if_neg hlength, byteAt_eq htype, ok_bind, byteAt_eq hmajor, ok_bind, Recovery.parseSni,
        List.head?_eq_getElem?, htype, hmajor, handshakeMessage_eq]
      by_cases hhandshake : type = handshake
      · by_cases hthree : major = 0x03
        · rw [if_neg (not_not.mpr hhandshake), if_neg (not_not.mpr hthree), if_neg]
          · cases Recovery.handshakeMessage data with
            | none => rfl
            | some message => exact parseHandshake_eq message
          · simp [hlength, hhandshake, hthree]
        · rw [if_neg (not_not.mpr hhandshake), if_pos hthree, if_pos]
          · rfl
          · simp [hthree]
      · rw [if_pos hhandshake, if_pos]
        · rfl
        · simp [hhandshake]

theorem ofOption_ok {o : Option Bytes} {host : Bytes} : ofOption o = .ok host ↔ o = some host := by
  cases o with
  | none => simp
  | some host' => simp

theorem ofOption_absent {o : Option Bytes} : ofOption o = .error .absent ↔ o = none := by
  cases o with
  | none => simp
  | some host' => simp

/-- A server name that has been found stays, one that can no longer appear never does, and no
position is out of range. -/
theorem sni_decided (data more : Bytes) :
    (∀ host, parseSni data = .ok host → parseSni (data ++ more) = .ok host) ∧
      (parseSni data = .error .absent → sniMightStillAppear data = .ok false →
        parseSni (data ++ more) = .error .absent) ∧
      parseSni data ≠ .error .panicked ∧ sniMightStillAppear data ≠ .error .panicked := by
  rw [parseSni_eq, parseSni_eq, sniMightStillAppear, clientHelloMightContinue_eq]
  refine ⟨fun host hfound => ?_, fun hnone hnever => ?_, ?_, nofun⟩
  · exact ofOption_ok.mpr (parseSni_grows (ofOption_ok.mp hfound) more)
  · rw [ofOption_absent] at hnone ⊢
    have hsettled := sniMightStillAppear_settled (Except.ok.inj hnever)
    exact (hsettled.final more).trans hnone
  · cases Recovery.parseSni data with
    | none => nofun
    | some host => nofun

end Resocks5.Recovery.Indexed
