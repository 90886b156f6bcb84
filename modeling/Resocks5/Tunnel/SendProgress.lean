import Resocks5.Foundation.Driven
import Resocks5.Tunnel.Fragment

namespace Resocks5.Tunnel

open Resocks5.Foundation

/-! Sending a payload to a writer that takes what it likes. -/

/-- An answer of the writer. `expired` is the end of an idle window, with the bytes confirmed in it
below the writer; `elapsed` is the end of a pause. -/
inductive Reply where
  | accepted (n : Nat)
  | flushed
  | failed
  | expired (confirmed : Nat)
  | elapsed
  deriving DecidableEq, Repr

inductive SendError where
  | io
  | writeZero
  deriving DecidableEq, Repr

inductive SendProgress where
  | completed
  | stalled
  deriving DecidableEq, Repr

/-- What the writer has accepted, the bytes each write offered, and how far it was at each
flush. -/
structure Wire where
  sent : Bytes
  offers : List Bytes
  flushes : List Nat
  deriving DecidableEq, Repr

namespace Wire

def empty : Wire := ⟨[], [], []⟩

def offer (buf : Bytes) (wire : Wire) : Wire := { wire with offers := wire.offers ++ [buf] }

def accept (bytes : Bytes) (wire : Wire) : Wire := { wire with sent := wire.sent ++ bytes }

def beginFlush (wire : Wire) : Wire := { wire with flushes := wire.flushes ++ [wire.sent.length] }

end Wire

abbrev Send := Driven Reply Wire SendError

/-- A write in flight; what is no answer to it is passed over. -/
def awaitWrite (buf : Bytes) : Send Nat
  | [], wire => .pending wire
  | .accepted n :: script, wire =>
    if n ≤ buf.length then .ok n script (wire.accept (buf.take n)) else awaitWrite buf script wire
  | .failed :: _, wire => .error .io wire
  | _ :: script, wire => awaitWrite buf script wire

def awaitFlush : Send Unit
  | [], wire => .pending wire
  | .flushed :: script, wire => .ok () script wire
  | .failed :: _, wire => .error .io wire
  | _ :: script, wire => awaitFlush script wire

/-- The same write is waited for through every window in which something was confirmed. -/
def boundedWrite (buf : Bytes) : Send (Option Nat)
  | [], wire => .pending wire
  | .accepted n :: script, wire =>
    if n ≤ buf.length then .ok (some n) script (wire.accept (buf.take n))
    else boundedWrite buf script wire
  | .failed :: _, wire => .error .io wire
  | .expired confirmed :: script, wire =>
    if 0 < confirmed then boundedWrite buf script wire else .ok none script wire
  | _ :: script, wire => boundedWrite buf script wire

def boundedFlush : Send SendProgress
  | [], wire => .pending wire
  | .flushed :: script, wire => .ok .completed script wire
  | .failed :: _, wire => .error .io wire
  | .expired confirmed :: script, wire =>
    if 0 < confirmed then boundedFlush script wire else .ok .stalled script wire
  | _ :: script, wire => boundedFlush script wire

def pause : Send Unit
  | [], wire => .pending wire
  | .elapsed :: script, wire => .ok () script wire
  | _ :: script, wire => pause script wire

def writeBoundedByConfirmedProgress (buf : Bytes) : Send (Option Nat) := do
  Driven.note (.offer buf)
  boundedWrite buf

def flushBoundedByConfirmedProgress : Send SendProgress := do
  Driven.note .beginFlush
  boundedFlush

/-- `write_all`; every write takes a byte, so `fuel` is the length of the buffer. -/
def writeAll : Nat → Bytes → Send Unit
  | 0, _ => pure ()
  | fuel + 1, buf =>
    if buf.isEmpty then pure ()
    else do
      Driven.note (.offer buf)
      let n ← awaitWrite buf
      if n = 0 then Driven.throw .writeZero else writeAll fuel (buf.drop n)

def writeLoop : Nat → Bytes → Send SendProgress
  | 0, _ => pure .completed
  | fuel + 1, buf =>
    if buf.isEmpty then pure .completed
    else do
      match ← writeBoundedByConfirmedProgress buf with
      | none => pure .stalled
      | some n => if n = 0 then Driven.throw .writeZero else writeLoop fuel (buf.drop n)

/-- `idle` is the length of a window; there are none when it is zero. -/
def writeProgressBounded (buf : Bytes) (idle : Nat) : Send SendProgress :=
  if idle = 0 then do
    writeAll buf.length buf
    Driven.note .beginFlush
    awaitFlush
    pure .completed
  else do
    match ← writeLoop buf.length buf with
    | .stalled => pure .stalled
    | .completed => flushBoundedByConfirmedProgress

def sendParts (delayMs idle : Nat) : List Bytes → Send SendProgress
  | [] => pure .completed
  | chunk :: behind => do
    match ← writeProgressBounded chunk idle with
    | .stalled => pure .stalled
    | .completed => do
      if 0 < delayMs then pause
      sendParts delayMs idle behind

def sendPossiblyFragmented (data : Bytes) (spec : FragmentSpec) (idle : Nat) : Send SendProgress :=
  match spec.parts data with
  | none => writeProgressBounded data idle
  | some parts => sendParts spec.delayMs idle parts

/-- Nothing but the payload is on the wire, in order; no write offers more than `size` bytes. -/
structure Wire.Sound (data : Bytes) (size : Nat) (wire : Wire) : Prop where
  sent : wire.sent <+: data
  offers : ∀ buf ∈ wire.offers, buf.length ≤ size
  flushes : ∀ place ∈ wire.flushes, size ∣ place ∨ place = data.length

def Wire.Progressed (data : Bytes) (size : Nat) (goal : Bytes) : SendProgress → Wire → Prop
  | .completed, wire => wire.Sound data size ∧ wire.sent = goal
  | .stalled, wire => wire.Sound data size

section

variable {data buf : Bytes} {size : Nat} {wire : Wire}

theorem Wire.Progressed.sound {goal : Bytes} {progress : SendProgress}
    (hprogressed : wire.Progressed data size goal progress) : wire.Sound data size := by
  cases progress with
  | completed => exact hprogressed.1
  | stalled => exact hprogressed

namespace Wire.Sound

theorem empty (data : Bytes) (size : Nat) : Wire.empty.Sound data size where
  sent := List.nil_prefix
  offers := nofun
  flushes := nofun

theorem offer (hsound : wire.Sound data size) (hsize : buf.length ≤ size) :
    (wire.offer buf).Sound data size where
  sent := hsound.sent
  offers := by
    intro offered hoffered
    obtain hoffered | hoffered := List.mem_append.mp hoffered
    · exact hsound.offers offered hoffered
    · rwa [List.mem_singleton.mp hoffered]
  flushes := hsound.flushes

theorem accept (hsound : wire.Sound data size) (hbuf : wire.sent ++ buf <+: data) (n : Nat) :
    (wire.accept (buf.take n)).Sound data size where
  sent := by
    refine List.IsPrefix.trans ?_ hbuf
    exact (List.prefix_append_right_inj _).mpr (List.take_prefix n buf)
  offers := hsound.offers
  flushes := hsound.flushes

theorem beginFlush (hsound : wire.Sound data size)
    (hplace : size ∣ wire.sent.length ∨ wire.sent.length = data.length) :
    wire.beginFlush.Sound data size where
  sent := hsound.sent
  offers := hsound.offers
  flushes := by
    intro place hmem
    obtain hmem | hmem := List.mem_append.mp hmem
    · exact hsound.flushes place hmem
    · rwa [List.mem_singleton.mp hmem]

end Wire.Sound

/-- A write that was accepted took the front of its buffer. -/
def Wire.Took (data : Bytes) (size : Nat) (before : Wire) (buf : Bytes) (n : Nat)
    (after : Wire) : Prop :=
  after.Sound data size ∧ after.sent = before.sent ++ buf.take n

theorem Wire.Sound.took (hsound : wire.Sound data size) (hbuf : wire.sent ++ buf <+: data)
    (n : Nat) : Wire.Took data size wire buf n (wire.accept (buf.take n)) :=
  ⟨hsound.accept hbuf n, rfl⟩

theorem awaitWrite_spec (hsound : wire.Sound data size) (hbuf : wire.sent ++ buf <+: data) :
    (awaitWrite buf).Spec wire (Wire.Sound data size) (Wire.Took data size wire buf) := by
  intro script
  induction script with
  | nil => exact hsound
  | cons reply script ih =>
      cases reply with
      | accepted n =>
          rw [awaitWrite]
          split
          · exact hsound.took hbuf n
          · exact ih
      | failed => exact hsound
      | flushed => exact ih
      | expired confirmed => exact ih
      | elapsed => exact ih

theorem boundedWrite_spec (hsound : wire.Sound data size) (hbuf : wire.sent ++ buf <+: data) :
    (boundedWrite buf).Spec wire (Wire.Sound data size) fun attempt after =>
      attempt.elim (after.Sound data size) fun n => Wire.Took data size wire buf n after := by
  intro script
  induction script with
  | nil => exact hsound
  | cons reply script ih =>
      cases reply with
      | accepted n =>
          rw [boundedWrite]
          split
          · exact hsound.took hbuf n
          · exact ih
      | failed => exact hsound
      | flushed => exact ih
      | expired confirmed =>
          rw [boundedWrite]
          split
          · exact ih
          · exact hsound
      | elapsed => exact ih

theorem awaitFlush_spec (hsound : wire.Sound data size) :
    awaitFlush.Spec wire (Wire.Sound data size) fun _ after => after = wire := by
  intro script
  induction script with
  | nil => exact hsound
  | cons reply script ih =>
      cases reply with
      | accepted n => exact ih
      | failed => exact hsound
      | flushed => rfl
      | expired confirmed => exact ih
      | elapsed => exact ih

theorem boundedFlush_spec (hsound : wire.Sound data size) :
    boundedFlush.Spec wire (Wire.Sound data size) fun _ after => after = wire := by
  intro script
  induction script with
  | nil => exact hsound
  | cons reply script ih =>
      cases reply with
      | accepted n => exact ih
      | failed => exact hsound
      | flushed => rfl
      | expired confirmed =>
          rw [boundedFlush]
          split
          · exact ih
          · rfl
      | elapsed => exact ih

theorem pause_spec (hsound : wire.Sound data size) :
    pause.Spec wire (Wire.Sound data size) fun _ after => after = wire := by
  intro script
  induction script with
  | nil => exact hsound
  | cons reply script ih =>
      cases reply with
      | accepted n => exact ih
      | failed => exact ih
      | flushed => exact ih
      | expired confirmed => exact ih
      | elapsed => rfl

theorem Wire.Took.rest {n : Nat} {after : Wire} (htook : Wire.Took data size wire buf n after)
    (hbuf : wire.sent ++ buf <+: data) :
    after.sent ++ buf.drop n = wire.sent ++ buf ∧ after.sent ++ buf.drop n <+: data := by
  have hsame : after.sent ++ buf.drop n = wire.sent ++ buf := by
    rw [htook.2, List.append_assoc, List.take_append_drop]
  exact ⟨hsame, hsame ▸ hbuf⟩

theorem writeAll_spec {fuel : Nat} (hfuel : buf.length ≤ fuel) (hsize : buf.length ≤ size)
    (hsound : wire.Sound data size) (hbuf : wire.sent ++ buf <+: data) :
    (writeAll fuel buf).Spec wire (Wire.Sound data size) fun _ after =>
      after.Sound data size ∧ after.sent = wire.sent ++ buf := by
  induction fuel generalizing buf wire with
  | zero =>
      obtain rfl := List.length_eq_zero_iff.mp (Nat.le_zero.mp hfuel)
      exact .pure ⟨hsound, by simp⟩
  | succ fuel ih =>
      rw [writeAll]
      split
      · rename_i hempty
        refine .pure ⟨hsound, ?_⟩
        rw [List.isEmpty_iff.mp hempty, List.append_nil]
      · refine .note (.bind (awaitWrite_spec (hsound.offer hsize) hbuf) fun n after htook => ?_)
        obtain ⟨hsame, hrest⟩ := htook.rest hbuf
        split
        · exact .throw htook.1
        · rename_i hn
          have hdrop : (buf.drop n).length ≤ fuel := by
            rw [List.length_drop]
            omega
          have hless : (buf.drop n).length ≤ size := by
            rw [List.length_drop]
            omega
          refine .mono (ih hdrop hless htook.1 hrest) fun _ last hlast => ?_
          exact ⟨hlast.1, hlast.2.trans hsame⟩

theorem writeLoop_spec {fuel : Nat} (hfuel : buf.length ≤ fuel) (hsize : buf.length ≤ size)
    (hsound : wire.Sound data size) (hbuf : wire.sent ++ buf <+: data) :
    (writeLoop fuel buf).Spec wire (Wire.Sound data size)
      (Wire.Progressed data size (wire.sent ++ buf)) := by
  induction fuel generalizing buf wire with
  | zero =>
      obtain rfl := List.length_eq_zero_iff.mp (Nat.le_zero.mp hfuel)
      exact .pure ⟨hsound, by simp⟩
  | succ fuel ih =>
      rw [writeLoop]
      split
      · rename_i hempty
        refine .pure ⟨hsound, ?_⟩
        rw [List.isEmpty_iff.mp hempty, List.append_nil]
      · have hwrite : (writeBoundedByConfirmedProgress buf).Spec wire (Wire.Sound data size)
            fun attempt after => attempt.elim (after.Sound data size) fun n =>
              Wire.Took data size wire buf n after :=
          .note (boundedWrite_spec (hsound.offer hsize) hbuf)
        refine .bind hwrite fun attempt after hattempt => ?_
        cases attempt with
        | none => exact .pure hattempt
        | some n =>
            obtain ⟨hsame, hrest⟩ := Wire.Took.rest hattempt hbuf
            dsimp only
            split
            · exact .throw hattempt.1
            · rename_i hn
              have hdrop : (buf.drop n).length ≤ fuel := by
                rw [List.length_drop]
                omega
              have hless : (buf.drop n).length ≤ size := by
                rw [List.length_drop]
                omega
              have hloop := ih hdrop hless hattempt.1 hrest
              rwa [hsame] at hloop

theorem writeProgressBounded_spec (idle : Nat) (hsize : buf.length ≤ size)
    (hplace : size ∣ (wire.sent ++ buf).length ∨ (wire.sent ++ buf).length = data.length)
    (hsound : wire.Sound data size) (hbuf : wire.sent ++ buf <+: data) :
    (writeProgressBounded buf idle).Spec wire (Wire.Sound data size)
      (Wire.Progressed data size (wire.sent ++ buf)) := by
  rw [writeProgressBounded]
  split
  · refine .bind (writeAll_spec (Nat.le_refl _) hsize hsound hbuf) fun _ after hafter => ?_
    have hflush := hafter.1.beginFlush (hafter.2.symm ▸ hplace)
    refine .note (.bind (awaitFlush_spec hflush) fun _ last hlast => ?_)
    subst hlast
    exact .pure ⟨hflush, hafter.2⟩
  · refine .bind (writeLoop_spec (Nat.le_refl _) hsize hsound hbuf) fun progress after hafter => ?_
    cases progress with
    | stalled => exact .pure hafter
    | completed =>
        have hflush := hafter.1.beginFlush (hafter.2.symm ▸ hplace)
        refine .note (.mono (boundedFlush_spec hflush) fun progress last hlast => ?_)
        subst hlast
        cases progress with
        | completed => exact ⟨hflush, hafter.2⟩
        | stalled => exact hflush

theorem chunk_place {total : Nat} {rest : Bytes} (hplace : size ∣ total) :
    size ∣ total + (rest.take size).length ∨ rest.drop size = [] := by
  by_cases hfull : size ≤ rest.length
  · left
    rw [List.length_take, Nat.min_eq_left hfull]
    exact Nat.dvd_add hplace (Nat.dvd_refl size)
  · right
    rw [List.drop_eq_nil_iff]
    omega

theorem chunks_cons (fuel : Nat) {rest : Bytes} (hne : rest ≠ []) :
    chunks size (fuel + 1) rest = rest.take size :: chunks size fuel (rest.drop size) := by
  cases rest with
  | nil => exact absurd rfl hne
  | cons b rest => rfl

theorem sendParts_spec {delayMs idle fuel : Nat} {rest : Bytes} (hsize : 0 < size)
    (hfuel : rest.length ≤ fuel) (hplace : size ∣ wire.sent.length ∨ rest = [])
    (hsound : wire.Sound data size) (hrest : wire.sent ++ rest = data) :
    (sendParts delayMs idle (chunks size fuel rest)).Spec wire (Wire.Sound data size)
      (Wire.Progressed data size data) := by
  have hdone : rest = [] → (sendParts delayMs idle []).Spec wire (Wire.Sound data size)
      (Wire.Progressed data size data) := by
    rintro rfl
    exact .pure ⟨hsound, by simpa using hrest⟩
  induction fuel generalizing rest wire with
  | zero => exact hdone (List.length_eq_zero_iff.mp (Nat.le_zero.mp hfuel))
  | succ fuel ih =>
      by_cases hne : rest = []
      · have hnil := hdone hne
        rwa [hne]
      · have hchunk : wire.sent ++ rest.take size <+: data := by
          rw [← hrest]
          exact (List.prefix_append_right_inj _).mpr (List.take_prefix size rest)
        have hnext : size ∣ wire.sent.length + (rest.take size).length ∨ rest.drop size = [] :=
          chunk_place (hplace.resolve_right hne)
        have hflush : size ∣ (wire.sent ++ rest.take size).length ∨
            (wire.sent ++ rest.take size).length = data.length := by
          rw [List.length_append]
          refine hnext.imp_right fun hlast => ?_
          rw [← hrest, List.length_append, List.take_of_length_le (List.drop_eq_nil_iff.mp hlast)]
        rw [chunks_cons fuel hne, sendParts]
        refine .bind (writeProgressBounded_spec idle (List.length_take_le size rest) hflush hsound
          hchunk) fun progress after hafter => ?_
        cases progress with
        | stalled => exact .pure hafter
        | completed =>
            obtain ⟨hsound', hsent⟩ := hafter
            have hplace' : size ∣ after.sent.length ∨ rest.drop size = [] := by
              rw [hsent, List.length_append]
              exact hnext
            have hrest' : after.sent ++ rest.drop size = data := by
              rw [hsent, List.append_assoc, List.take_append_drop, hrest]
            have hless : (rest.drop size).length ≤ fuel := by
              have hpos := List.length_pos_iff.mpr hne
              rw [List.length_drop]
              omega
            have hbehind := ih hless hplace' hsound' hrest' (fun hnil => by
              rw [hnil, List.append_nil] at hrest'
              exact .pure ⟨hsound', hrest'⟩)
            dsimp only
            split
            · refine .bind (pause_spec hsound') fun _ last hlast => ?_
              subst hlast
              exact hbehind
            · exact hbehind

end

def FragmentSpec.bound (spec : FragmentSpec) : Nat := max 1 spec.fragmentSize

theorem send_unfragmented (data : Bytes) (idle : Nat) :
    (writeProgressBounded data idle).Spec .empty (Wire.Sound data data.length)
      (Wire.Progressed data data.length data) :=
  writeProgressBounded_spec idle (Nat.le_refl _) (.inr rfl) (.empty data data.length)
    (List.prefix_refl data)

theorem send_fragmented {data : Bytes} {spec : FragmentSpec} (hspec : spec.enabled = true)
    (hhello : isTlsClientHello data = true) (idle : Nat) :
    (sendPossiblyFragmented data spec idle).Spec .empty (Wire.Sound data spec.bound)
      (Wire.Progressed data spec.bound data) := by
  have hbound : max spec.fragmentSize 1 = spec.bound := Nat.max_comm _ _
  rw [sendPossiblyFragmented, FragmentSpec.parts, hspec, hhello]
  simp only [Bool.and_self, if_true, hbound]
  exact sendParts_spec (by rw [FragmentSpec.bound]; omega) (Nat.le_refl _) (.inl ⟨0, rfl⟩)
    (.empty data spec.bound) rfl

theorem send_progress (data : Bytes) (spec : FragmentSpec) (idle : Nat) :
    ∃ size, (sendPossiblyFragmented data spec idle).Spec .empty (Wire.Sound data size)
      (Wire.Progressed data size data) := by
  by_cases hparts : spec.enabled = true ∧ isTlsClientHello data = true
  · exact ⟨_, send_fragmented hparts.1 hparts.2 idle⟩
  · refine ⟨data.length, ?_⟩
    rw [sendPossiblyFragmented, FragmentSpec.parts, if_neg (by simpa using hparts)]
    exact send_unfragmented data idle

/-- Whatever the writer answers, the wire holds the front of the payload. -/
theorem fragmented_exact (data : Bytes) (spec : FragmentSpec) (idle : Nat) :
    (∀ script, (sendPossiblyFragmented data spec idle script .empty).trace.sent <+: data) ∧
    (∀ script rest wire, sendPossiblyFragmented data spec idle script .empty =
      .ok .completed rest wire → wire.sent = data) ∧
    (spec.enabled = true → isTlsClientHello data = true → ∀ script,
      (∀ buf ∈ (sendPossiblyFragmented data spec idle script .empty).trace.offers,
        buf.length ≤ max 1 spec.fragmentSize) ∧
      ∀ place ∈ (sendPossiblyFragmented data spec idle script .empty).trace.flushes,
        max 1 spec.fragmentSize ∣ place ∨ place = data.length) ∧
    ∀ script rest wire script' rest' wire',
      sendPossiblyFragmented data spec idle script .empty = .ok .completed rest wire →
      writeProgressBounded data idle script' .empty = .ok .completed rest' wire' →
      wire.sent = wire'.sent := by
  obtain ⟨size, hspec⟩ := send_progress data spec idle
  have hcomplete : ∀ script rest wire, sendPossiblyFragmented data spec idle script .empty =
      .ok .completed rest wire → wire.sent = data := by
    intro script rest wire hrun
    have hend := hspec script
    rw [hrun] at hend
    exact hend.2
  refine ⟨fun script => ?_, hcomplete, fun henabled hhello script => ?_, ?_⟩
  · exact (hspec.stopped (fun _ _ => Wire.Progressed.sound) script).sent
  · have hsound := (send_fragmented henabled hhello idle).stopped
      (fun _ _ => Wire.Progressed.sound) script
    exact ⟨hsound.offers, hsound.flushes⟩
  · intro script rest wire script' rest' wire' hrun hrun'
    have hend := send_unfragmented data idle script'
    rw [hrun'] at hend
    rw [hcomplete script rest wire hrun]
    exact hend.2.symm

def slowScript : List Reply :=
  [.accepted 2, .expired 1, .accepted 2, .flushed, .elapsed, .accepted 3, .flushed, .elapsed]

theorem fragmented_exact_slow :
    (⟨[0x16, 3, 1, 0, 4, 1, 0], [[0x16, 3, 1, 0], [1, 0], [4, 1, 0]], [4, 7]⟩ : Wire).sent =
      [0x16, 3, 1, 0, 4, 1, 0] ∧
    ∀ buf ∈ (sendPossiblyFragmented [0x16, 3, 1, 0, 4, 1, 0] ⟨true, 4, 1⟩ 5 slowScript
      .empty).trace.offers, buf.length ≤ 4 :=
  ⟨(fragmented_exact [0x16, 3, 1, 0, 4, 1, 0] ⟨true, 4, 1⟩ 5).2.1 slowScript [] _ (by rfl),
    ((fragmented_exact [0x16, 3, 1, 0, 4, 1, 0] ⟨true, 4, 1⟩ 5).2.2.1 rfl (by decide)
      slowScript).1⟩

end Resocks5.Tunnel
