import NorbitDriver.Connection.Frame

/-!
# Frames the driver does not read

A header that `headerValid` rejects leaves its payload in the stream: the next
24 bytes, whatever they are, are taken for a header. The loop finds its way back
to the frames only where the bytes in between can be cut into pieces that it
passes over, which are windows of 24 bytes without a valid header and frames
with a wrong CRC.

`Passed` and `Ending` describe such stretches of bytes, and `Skippable` cuts the
stream at the frames that are to be dispatched. It is the exact condition under
which the loop dispatches these frames and nothing else.
-/

namespace NorbitDriver

open Bytes Transition

/-- Bytes that the loop passes over in whole turns. -/
inductive Passed : List UInt8 → Prop
  | nil : Passed []
  | rejected {hdr rest : List UInt8} (length : hdr.length = 24)
      (invalid : Message.headerValid (Message.fromBoostArray hdr) = false)
      (passed : Passed rest) : Passed (hdr ++ rest)
  | corrupt {hdr payload rest : List UInt8} (length : hdr.length = 24)
      (valid : Message.headerValid (Message.fromBoostArray hdr) = true)
      (size : payload.length = (dataSize (Message.fromBoostArray hdr)).toNat)
      (crc : Message.msgValid (Message.fromBoostArray hdr) payload =
        some false)
      (passed : Passed rest) : Passed (hdr ++ (payload ++ rest))

/-- Bytes that are passed over are none or at least a header. -/
theorem Passed.length_le {bytes : List UInt8} (h : Passed bytes) :
    bytes = [] ∨ 24 ≤ bytes.length := by
  cases h with
  | nil => exact Or.inl rfl
  | rejected length =>
      rw [List.length_append, length]
      exact Or.inr (Nat.le_add_right _ _)
  | corrupt length =>
      rw [List.length_append, length]
      exact Or.inr (Nat.le_add_right _ _)

/-- Behind a rejected header the loop goes on with the next byte. -/
theorem passed_rejected_iff {hdr rest : List UInt8} (hlen : hdr.length = 24)
    (hinvalid : Message.headerValid (Message.fromBoostArray hdr) = false) :
    Passed (hdr ++ rest) ↔ Passed rest := by
  constructor
  · intro h
    generalize hbytes : hdr ++ rest = bytes at h
    cases h with
    | nil =>
        have hnil := List.append_eq_nil_iff.mp hbytes
        rw [hnil.1] at hlen
        exact absurd hlen (by decide)
    | rejected length invalid passed =>
        have hrest := List.append_inj_right hbytes (hlen.trans length.symm)
        rwa [hrest]
    | corrupt length valid =>
        have hhdr := List.append_inj_left hbytes (hlen.trans length.symm)
        rw [hhdr, valid] at hinvalid
        exact absurd hinvalid (by decide)
  · exact Passed.rejected hlen hinvalid

/-- Bytes in which the loop comes to wait for more: they end inside a header or
inside the payload of a valid one. -/
inductive Waiting (unread : List UInt8) : Prop
  | header (short : unread.length < 24)
  | payload (whole : 24 ≤ unread.length)
      (valid : Message.headerValid
        (Message.fromBoostArray (unread.take 24)) = true)
      (short : (unread.drop 24).length <
        (dataSize (Message.fromBoostArray (unread.take 24))).toNat)

/-- Bytes at the end of a stream of which none is dispatched. -/
def Ending (bytes : List UInt8) : Prop :=
  ∃ front rest, bytes = front ++ rest ∧ Passed front ∧ Waiting rest

namespace Frame

/-- The frames that are to be dispatched. -/
def Dispatchable (f : Frame) : Prop :=
  f.Supported ∧ f.Intact

instance (f : Frame) : Decidable f.Dispatchable := by
  unfold Dispatchable
  infer_instance

/-- The messages a sequence of frames is to be dispatched as. -/
def dispatches : ℕ → List Frame → List (ℕ × Message)
  | _, [] => []
  | offset, f :: fs =>
      if f.Dispatchable then
        (offset, f.message) :: dispatches (offset + f.bytes.length) fs
      else dispatches (offset + f.bytes.length) fs

/-- Behind the bytes `gap` that are not to be dispatched, a sequence of frames
whose remaining gaps the loop passes over. -/
def Skippable : List UInt8 → List Frame → Prop
  | gap, [] => Ending gap
  | gap, f :: fs =>
      if f.Dispatchable then Passed gap ∧ f.Headed ∧ Skippable [] fs
      else Skippable (gap ++ f.bytes) fs

end Frame

namespace DataSocket

variable {β ω : Type*}

/-- Reading whole headers from `s` on, the loop dispatches `ms` and then waits
for more bytes. -/
def Drains (cbs : Callbacks β ω) (s : DataSocket) (ms : List (ℕ × Message)) :
    Prop :=
  ∃ n s' os, (machine cbs).run s (List.replicate n Receive.full) =
      some (s', os) ∧ Waiting s'.unread ∧ dispatched os = ms

/-- From the stream of the frames `fs` the loop dispatches every supported
frame with a matching CRC and nothing else. -/
def SkipsUnsupported (cbs : Callbacks β ω) (fs : List Frame) : Prop :=
  Drains cbs ⟨0, Frame.stream fs⟩ (Frame.dispatches 0 fs)

/-- The pieces of the stream that one turn with a whole header can take. -/
theorem step_full_eq_some_iff (cbs : Callbacks β ω) {p : ℕ}
    {unread : List UInt8} {s' : DataSocket} {os : List (DataAction β ω)} :
    (machine cbs).step ⟨p, unread⟩ Receive.full = some (s', os) ↔
      24 ≤ unread.length ∧ ∃ msg rest,
        processHdrMsg (unread.take 24) (unread.drop 24) = .ok (msg, rest) ∧
        s' = ⟨p + (unread.length - rest.length), rest⟩ ∧
        os = cbs.processed p msg ++ [.receiveStarted] := by
  rw [machine_step_eq_some_iff, full_possible_iff]
  refine and_congr_right fun hle => ?_
  have hlen : (unread.take 24).length = 24 :=
    List.length_take_of_le hle
  change (∃ msg rest, processHdrMsg (headerBuffer (unread.take 24))
    (unread.drop (unread.take 24).length) = _ ∧ _) ↔ _
  rw [headerBuffer_of_length hlen, hlen]

/-- A turn that dispatches nothing takes a piece that can be passed over. -/
theorem passed_of_step (cbs : Callbacks β ω) {p : ℕ} {unread : List UInt8}
    {s' : DataSocket} {os : List (DataAction β ω)}
    (hstep : (machine cbs).step ⟨p, unread⟩ Receive.full = some (s', os))
    (hnone : dispatched os = []) :
    ∃ piece, unread = piece ++ s'.unread ∧
      s'.position = p + piece.length ∧
      ∀ rest, Passed rest → Passed (piece ++ rest) := by
  obtain ⟨hle, msg, rest, hproc, rfl, rfl⟩ :=
    (step_full_eq_some_iff cbs).mp hstep
  have hlen : (unread.take 24).length = 24 :=
    List.length_take_of_le hle
  simp only [dispatched_append, dispatched_processed,
    dispatched_receiveStarted, List.append_nil] at hnone
  cases msg with
  | some m => exact absurd hnone (List.cons_ne_nil _ _)
  | none =>
      rcases processHdrMsg_eq_ok_iff.mp hproc with
        ⟨hinvalid, -, hrest⟩ | ⟨hvalid, hsize, hrest, valid, m, hset, hmsg⟩
      · subst hrest
        refine ⟨unread.take 24, (List.take_append_drop 24 unread).symm, ?_, ?_⟩
        · change p + (unread.length - (unread.drop 24).length) = _
          rw [hlen, List.length_drop, Nat.sub_sub_self hle]
        · intro rest hpassed
          exact Passed.rejected hlen hinvalid hpassed
      · subst hrest
        have hpayload : ((unread.drop 24).take (dataSize
            (Message.fromBoostArray (unread.take 24))).toNat).length =
            (dataSize (Message.fromBoostArray (unread.take 24))).toNat :=
          List.length_take_of_le hsize
        have hcrc : Message.msgValid (Message.fromBoostArray (unread.take 24))
            ((unread.drop 24).take (dataSize
              (Message.fromBoostArray (unread.take 24))).toNat) =
              some false := by
          cases valid with
          | true => exact absurd hmsg.symm (Option.some_ne_none m)
          | false => exact Message.msgValid_of_setBits hset
        refine ⟨unread.take 24 ++ (unread.drop 24).take (dataSize
          (Message.fromBoostArray (unread.take 24))).toNat, ?_, ?_, ?_⟩
        · rw [List.append_assoc, List.take_append_drop,
            List.take_append_drop]
        · rw [List.length_append, hlen, hpayload, List.length_drop,
            List.length_drop]
          rw [List.length_drop] at hsize
          change p + (unread.length - (unread.length - 24 - _)) = _
          omega
        · intro rest hpassed
          rw [List.append_assoc]
          exact Passed.corrupt hlen hvalid hpayload hcrc hpassed

/-- Turns that dispatch nothing take bytes that can be passed over. -/
theorem passed_of_run (cbs : Callbacks β ω) {n p : ℕ} {unread : List UInt8}
    {s' : DataSocket} {os : List (DataAction β ω)}
    (hrun : (machine cbs).run ⟨p, unread⟩ (List.replicate n Receive.full) =
      some (s', os)) (hnone : dispatched os = []) :
    ∃ front, unread = front ++ s'.unread ∧
      s'.position = p + front.length ∧ Passed front := by
  induction n generalizing p unread os with
  | zero =>
      rw [List.replicate_zero, Machine.run_nil_eq_some_iff] at hrun
      rw [← hrun.1]
      exact ⟨[], rfl, rfl, Passed.nil⟩
  | succ n ih =>
      rw [List.replicate_succ, Machine.run_cons_eq_some_iff] at hrun
      obtain ⟨t, o, o', hstep, hrest, rfl⟩ := hrun
      rw [dispatched_append, List.append_eq_nil_iff] at hnone
      obtain ⟨piece, hpiece, hposition, hpassed⟩ :=
        passed_of_step cbs hstep hnone.1
      obtain ⟨front, hfront, hposition', hpassed'⟩ := ih hrest hnone.2
      refine ⟨piece ++ front, ?_, ?_, hpassed front hpassed'⟩
      · rw [List.append_assoc, ← hfront, hpiece]
      · rw [hposition', hposition, List.length_append, Nat.add_assoc]

/-- A turn that takes a header and what follows it without dispatching
anything, in front of a run that dispatches nothing. -/
theorem run_of_none (cbs : Callbacks β ω) {hdr taken rest : List UInt8}
    (hlen : hdr.length = 24)
    (hprocess : processHdrMsg hdr (taken ++ rest) = .ok (none, rest)) {p n : ℕ}
    {s : DataSocket} {os : List (DataAction β ω)}
    (hrun : (machine cbs).run ⟨p + (hdr ++ taken).length, rest⟩
      (List.replicate n Receive.full) = some (s, os))
    (hnone : dispatched os = []) :
    ∃ os', (machine cbs).run ⟨p, hdr ++ (taken ++ rest)⟩
        (List.replicate (n + 1) Receive.full) = some (s, os') ∧
      dispatched os' = [] := by
  have hstep : (machine cbs).step ⟨p, hdr ++ (taken ++ rest)⟩ Receive.full =
      some (⟨p + (hdr ++ taken).length, rest⟩, [.receiveStarted]) := by
    apply (step_full_eq_some_iff cbs).mpr
    refine ⟨?_, none, rest, ?_, ?_, rfl⟩
    · rw [List.length_append, hlen]
      exact Nat.le_add_right _ _
    · rw [← hlen, List.take_left, List.drop_left]
      exact hprocess
    · rw [← List.append_assoc, @List.length_append _ (hdr ++ taken),
        Nat.add_sub_cancel]
  refine ⟨[.receiveStarted] ++ os, ?_, ?_⟩
  · exact (machine cbs).run_cons_eq_some_iff.mpr ⟨_, _, _, hstep, hrun, rfl⟩
  · rw [dispatched_append, hnone]
    rfl

/-- The loop passes over what can be passed over. -/
theorem run_of_passed (cbs : Callbacks β ω) {front : List UInt8}
    (h : Passed front) (p : ℕ) (rest : List UInt8) :
    ∃ n os, (machine cbs).run ⟨p, front ++ rest⟩
        (List.replicate n Receive.full) =
          some (⟨p + front.length, rest⟩, os) ∧ dispatched os = [] := by
  induction h generalizing p with
  | nil => exact ⟨0, [], rfl, rfl⟩
  | @rejected hdr tail hlen hinvalid hpassed ih =>
      have hprocess : processHdrMsg hdr ([] ++ (tail ++ rest)) =
          .ok (none, tail ++ rest) :=
        processHdrMsg_of_not_headerValid hinvalid _
      obtain ⟨n, os, hrun, hnone⟩ := ih (p + (hdr ++ []).length)
      obtain ⟨os', hrun', hnone'⟩ := run_of_none cbs hlen hprocess hrun hnone
      refine ⟨n + 1, os', ?_, hnone'⟩
      rw [List.append_nil, Nat.add_assoc, ← List.length_append] at hrun'
      rw [List.append_assoc]
      exact hrun'
  | @corrupt hdr payload tail hlen hvalid hsize hcrc hpassed ih =>
      have hprocess : processHdrMsg hdr (payload ++ (tail ++ rest)) =
          .ok (none, tail ++ rest) := by
        apply processHdrMsg_eq_ok_iff.mpr
        refine Or.inr ⟨hvalid, ?_, ?_, ?_⟩
        · rw [← hsize, List.length_append]
          exact Nat.le_add_right _ _
        · rw [← hsize, List.drop_left]
        · rw [← hsize, List.take_left]
          exact ⟨false, _, Message.setBits_of_not_msgValid hcrc, rfl⟩
      obtain ⟨n, os, hrun, hnone⟩ := ih (p + (hdr ++ payload).length)
      obtain ⟨os', hrun', hnone'⟩ := run_of_none cbs hlen hprocess hrun hnone
      refine ⟨n + 1, os', ?_, hnone'⟩
      rw [Nat.add_assoc, ← List.length_append, List.append_assoc] at hrun'
      rw [List.append_assoc, List.append_assoc]
      exact hrun'

/-- The loop drains a stream without dispatching anything exactly when its
bytes can be passed over up to the point where it waits. -/
theorem drains_nil_iff (cbs : Callbacks β ω) (p : ℕ) (unread : List UInt8) :
    Drains cbs ⟨p, unread⟩ [] ↔ Ending unread := by
  constructor
  · intro h
    obtain ⟨n, s', os, hrun, hwaiting, hnone⟩ := h
    obtain ⟨front, hfront, -, hpassed⟩ := passed_of_run cbs hrun hnone
    exact ⟨front, s'.unread, hfront, hpassed, hwaiting⟩
  · intro h
    obtain ⟨front, rest, rfl, hpassed, hwaiting⟩ := h
    obtain ⟨n, os, hrun, hnone⟩ := run_of_passed cbs hpassed p rest
    exact ⟨n, _, os, hrun, hwaiting, hnone⟩

/-- Draining a stream with a first message: the bytes in front of its frame
are passed over, and the rest is drained behind it. -/
theorem drains_cons_iff (cbs : Callbacks β ω) {p offset : ℕ}
    {unread : List UInt8} {m : Message} {ms : List (ℕ × Message)} :
    Drains cbs ⟨p, unread⟩ ((offset, m) :: ms) ↔
      ∃ front rest s' os, unread = front ++ rest ∧ Passed front ∧
        offset = p + front.length ∧
        (machine cbs).step ⟨offset, rest⟩ Receive.full = some (s', os) ∧
        dispatched os = [(offset, m)] ∧ Drains cbs s' ms := by
  constructor
  · intro h
    obtain ⟨n, s', os, hrun, hwaiting, hdisp⟩ := h
    induction n generalizing p unread os with
    | zero =>
        rw [List.replicate_zero, Machine.run_nil_eq_some_iff] at hrun
        rw [← hrun.2] at hdisp
        exact absurd hdisp.symm (List.cons_ne_nil _ _)
    | succ n ih =>
        rw [List.replicate_succ, Machine.run_cons_eq_some_iff] at hrun
        obtain ⟨t, o, o', hstep, hrest, rfl⟩ := hrun
        have hstep' := hstep
        obtain ⟨-, msg, tail, -, -, ho⟩ :=
          (step_full_eq_some_iff cbs).mp hstep'
        have hturn : dispatched o = msg.toList.map fun m => (p, m) := by
          rw [ho, dispatched_append, dispatched_processed,
            dispatched_receiveStarted, List.append_nil]
        rw [dispatched_append, hturn] at hdisp
        cases msg with
        | none =>
            obtain ⟨piece, hpiece, hposition, hpassed⟩ :=
              passed_of_step cbs hstep hturn
            obtain ⟨front, rest, u, os', hfront, hpassed', hoffset, hfirst⟩ :=
              ih o' hrest hdisp
            refine ⟨piece ++ front, rest, u, os', ?_,
              hpassed front hpassed', ?_, hfirst⟩
            · rw [hpiece, hfront, List.append_assoc]
            · rw [hoffset, hposition, List.length_append, Nat.add_assoc]
        | some m' =>
            have hcons : (p, m') :: dispatched o' = (offset, m) :: ms := hdisp
            have hhead := (List.cons.inj hcons).1
            have htail := (List.cons.inj hcons).2
            rw [Prod.mk.injEq] at hhead
            rw [← hhead.1, ← hhead.2]
            exact ⟨[], unread, t, o, rfl, Passed.nil, rfl, hstep, hturn,
              n, s', o', hrest, hwaiting, htail⟩
  · intro h
    obtain ⟨front, rest, t, os, rfl, hpassed, rfl, hstep, hdisp, hdrains⟩ := h
    obtain ⟨n, ps, hrun, hnone⟩ := run_of_passed cbs hpassed p rest
    obtain ⟨k, s', qs, hrest, hwaiting, hms⟩ := hdrains
    refine ⟨n + (k + 1), s', ps ++ (os ++ qs), ?_, hwaiting, ?_⟩
    · rw [← List.replicate_append_replicate, List.replicate_succ]
      exact (machine cbs).run_append_of_eq_some hrun
        ((machine cbs).run_cons_eq_some_iff.mpr ⟨_, _, _, hstep, hrest, rfl⟩)
    · rw [dispatched_append, dispatched_append, hnone, hdisp, hms]
      rfl

/-- The driver survives the turn on an intact supported frame only when the
payload has room for its header. -/
theorem headed_of_step (cbs : Callbacks β ω) {f : Frame}
    (hf : f.Dispatchable) {p : ℕ} {rest : List UInt8} {s' : DataSocket}
    {os : List (DataAction β ω)}
    (hstep : (machine cbs).step ⟨p, f.bytes ++ rest⟩ Receive.full =
      some (s', os)) : f.Headed := by
  obtain ⟨-, msg, tail, hproc, -, -⟩ := (step_full_eq_some_iff cbs).mp hstep
  have hvalid := f.headerValid_iff.mpr hf.1
  have hsize := f.dataSize_eq
  have hcrc := f.msgValid_eq
  rw [Frame.commonHeader] at hvalid hsize
  rw [decide_eq_true hf.2] at hcrc
  rw [f.take_bytes_append, f.drop_bytes_append] at hproc
  rcases processHdrMsg_eq_ok_iff.mp hproc with
    ⟨hinvalid, -, -⟩ | ⟨-, -, -, valid, m, hset, -⟩
  · rw [hvalid] at hinvalid
    exact absurd hinvalid (by decide)
  · rw [hsize, List.take_left] at hset
    have htrue := Message.msgValid_of_setBits hset
    rw [Frame.commonHeader] at hcrc
    rw [hcrc, Option.some.injEq] at htrue
    rw [← htrue] at hset
    exact ((Message.setBits_eq_some_true_iff hvalid f.payload).mp
      ⟨m, hset⟩).2

/-- Behind a gap, the loop dispatches what is to be dispatched of a sequence
of frames exactly when the gaps can be passed over. -/
theorem drains_frames_iff (cbs : Callbacks β ω) (gap : List UInt8)
    (fs : List Frame) (p : ℕ) :
    Drains cbs ⟨p, gap ++ Frame.stream fs⟩
        (Frame.dispatches (p + gap.length) fs) ↔
      Frame.Skippable gap fs := by
  induction fs generalizing gap p with
  | nil =>
      rw [Frame.stream_nil, List.append_nil]
      exact drains_nil_iff cbs p gap
  | cons f fs ih =>
      rw [Frame.stream_cons, Frame.dispatches, Frame.Skippable]
      by_cases hf : f.Dispatchable
      · have hrest := ih [] (p + gap.length + f.bytes.length)
        rw [if_pos hf, if_pos hf, drains_cons_iff]
        constructor
        · intro h
          obtain ⟨front, rest, s', os, hsplit, hpassed, hoffset, hstep, -,
            hdrains⟩ := h
          have hlen : gap.length = front.length := Nat.add_left_cancel hoffset
          obtain ⟨hgap, htail⟩ := List.append_inj hsplit hlen
          subst hgap
          subst htail
          have hheaded := headed_of_step cbs hf hstep
          have hframe := step_frame cbs hf.1 (fun _ => hheaded)
            (p + gap.length) (Frame.stream fs)
          rw [hframe, Option.some.injEq, Prod.mk.injEq] at hstep
          rw [← hstep.1] at hdrains
          exact ⟨hpassed, hheaded, hrest.mp hdrains⟩
        · intro h
          obtain ⟨hpassed, hheaded, hskip⟩ := h
          refine ⟨gap, f.bytes ++ Frame.stream fs, _, _, rfl, hpassed, rfl,
            step_frame cbs hf.1 (fun _ => hheaded) _ _, ?_, hrest.mpr hskip⟩
          rw [Frame.actions, if_pos hf.2, dispatched_append,
            dispatched_processed]
          rfl
      · have hrest := ih (gap ++ f.bytes) p
        rw [List.append_assoc, List.length_append, ← Nat.add_assoc] at hrest
        rw [if_neg hf, if_neg hf]
        exact hrest

/-- The loop dispatches every supported frame with a matching CRC, and nothing
from inside another frame, exactly when the bytes between these frames can be
passed over. -/
theorem skipsUnsupported_iff_skippable (cbs : Callbacks β ω)
    (fs : List Frame) :
    SkipsUnsupported cbs fs ↔ Frame.Skippable [] fs :=
  drains_frames_iff cbs [] fs 0

end DataSocket

namespace Frame

/-- A snippet frame with a payload of twelve bytes. -/
def snippet : Frame where
  header := [0xEF, 0xBE, 0xAD, 0xDE, 4, 0, 0, 0, 36, 0, 0, 0, 1, 0, 0, 0,
    0, 0, 0, 0, 0, 0, 0, 0]
  payload := List.replicate 12 0
  header_length := rfl
  preable := by decide
  size := by decide

end Frame

namespace DataSocket

/-- Behind a snippet frame of 36 bytes the next frame is not found. -/
theorem snippet_not_skipsUnsupported :
    ¬ SkipsUnsupported (⟨[()], [()]⟩ : Callbacks Unit Unit)
      [Frame.snippet, Frame.ping] := by
  have hping : Frame.ping.Dispatchable :=
    ⟨Frame.ping_supported, Frame.ping_intact⟩
  have hsnippet : ¬ Frame.snippet.Dispatchable :=
    fun h => absurd h.1 (by decide)
  intro h
  have hiff := drains_frames_iff (⟨[()], [()]⟩ : Callbacks Unit Unit) []
    [Frame.snippet, Frame.ping] 0
  rw [List.nil_append, List.length_nil, Nat.add_zero, Frame.Skippable,
    if_neg hsnippet, Frame.Skippable, if_pos hping] at hiff
  unfold SkipsUnsupported at h
  rw [hiff] at h
  have hpassed := h.1
  rw [List.nil_append, Frame.bytes] at hpassed
  rw [passed_rejected_iff Frame.snippet.header_length (by decide)] at hpassed
  rcases hpassed.length_le with hnil | hle
  · exact absurd hnil (by decide)
  · exact absurd hle (by decide)

end DataSocket

end NorbitDriver
