import NorbitDriver.Connection.Connection
import NorbitDriver.Connection.Segmentation

/-!
# What is dispatched is in the stream

Whatever bytes a sonar or anything else sends, and however TCP hands them over,
a dispatched message is a stretch of the stream: a window that was accepted as a
header and the payload behind it, with a matching CRC. The stretches lie one
behind the other, so no byte is dispatched twice, and the callbacks are invoked
for these messages and no others, in the order of the stream.
-/

namespace NorbitDriver

open Bytes Transition

/-- The stretch of the stream from `offset` to `next` is dispatched as `m`. -/
structure Stands (stream : List UInt8) (offset next : ℕ) (m : Message) :
    Prop where
  header : ∃ n ≤ 24, m.commonHeader = window stream offset n ∧
    m.bits =
      (stream.drop (offset + n)).take (dataSize m.commonHeader).toNat ∧
    next = offset + n + (dataSize m.commonHeader).toNat
  inside : next ≤ stream.length
  headerValid : Message.headerValid m.commonHeader = true
  msgValid : Message.msgValid m.commonHeader m.bits = some true
  setBits : Message.setBits m.commonHeader m.bits = some (true, m)

theorem Stands.le {stream : List UInt8} {offset next : ℕ} {m : Message}
    (h : Stands stream offset next m) : offset ≤ next := by
  obtain ⟨n, -, -, -, hnext⟩ := h.header
  omega

/-- The messages stand in the stream one behind the other, and end before
`position`. -/
inductive InStream (stream : List UInt8) : ℕ → List (ℕ × Message) → Prop
  | nil (position : ℕ) : InStream stream position []
  | concat {position offset next position' : ℕ} {ms : List (ℕ × Message)}
      {m : Message} (before : InStream stream position ms)
      (behind : position ≤ offset) (stands : Stands stream offset next m)
      (within : next ≤ position') :
      InStream stream position' (ms ++ [(offset, m)])

theorem InStream.mono {stream : List UInt8} {position position' : ℕ}
    {ms : List (ℕ × Message)} (h : InStream stream position ms)
    (hle : position ≤ position') : InStream stream position' ms := by
  cases h with
  | nil => exact InStream.nil position'
  | concat before behind stands within =>
      exact InStream.concat before behind stands (within.trans hle)

/-- Every message stands in the stream. -/
theorem InStream.stands {stream : List UInt8} {position : ℕ}
    {ms : List (ℕ × Message)} (h : InStream stream position ms) :
    ∀ p ∈ ms, ∃ next ≤ position, Stands stream p.1 next p.2 := by
  induction h with
  | nil => exact fun _ hp => absurd hp List.not_mem_nil
  | concat before behind stands within ih =>
      intro p hp
      rcases List.mem_append.mp hp with hbefore | hlast
      · obtain ⟨next, hnext, hstands⟩ := ih p hbefore
        have hend := stands.le
        exact ⟨next, by omega, hstands⟩
      · rw [List.mem_singleton.mp hlast]
        exact ⟨_, within, stands⟩

namespace Message

/-- `setBits` keeps its arguments in the message. -/
theorem fields_of_setBits {header : CommonHeader} {bits : List UInt8}
    {valid : Bool} {m : Message} (h : setBits header bits = some (valid, m)) :
    m.commonHeader = header ∧ m.bits = bits := by
  have hvalid := msgValid_of_setBits h
  cases valid with
  | false =>
      rw [setBits_of_not_msgValid hvalid, Option.some.injEq,
        Prod.mk.injEq] at h
      rw [← h.2]
      exact ⟨rfl, rfl⟩
  | true =>
      simp only [setBits, hvalid, Option.bind_eq_bind, Option.bind_some,
        if_true, Option.pure_def] at h
      split_ifs at h
      · cases h
        exact ⟨rfl, rfl⟩
      · obtain ⟨_, -, hm⟩ := Option.bind_eq_some_iff.mp h
        cases hm
        exact ⟨rfl, rfl⟩
      · cases h
        exact ⟨rfl, rfl⟩

end Message

namespace DataSocket

variable {β ω : Type*}

/-- One turn dispatches nothing, or the message that stands at the position of
the socket. -/
theorem step_stands (cbs : Callbacks β ω) {stream : List UInt8}
    {s s' : DataSocket} {r : Receive} {os : List (DataAction β ω)}
    (hs : s.Within stream) (h : (machine cbs).step s r = some (s', os)) :
    s.position ≤ s'.position ∧
      (dispatched os = [] ∨
        ∃ m, dispatched os = [(s.position, m)] ∧
          Stands stream s.position s'.position m) := by
  obtain ⟨hle, hunread⟩ := hs
  obtain ⟨hposs, msg, rest, hproc, rfl, rfl⟩ :=
    (machine_step_eq_some_iff cbs).mp h
  rw [dispatched_append, dispatched_processed, dispatched_receiveStarted,
    List.append_nil]
  refine ⟨Nat.le_add_right _ _, ?_⟩
  have hbytes : r.bytes_transferred ≤ 24 ∧
      r.bytes_transferred ≤ s.unread.length := by
    rw [Receive.Possible] at hposs
    split_ifs at hposs
    · rw [hposs]
      exact ⟨Nat.zero_le 24, Nat.zero_le _⟩
    · exact hposs.2
  rw [List.length_take_of_le hbytes.2, hunread] at hproc
  cases msg with
  | none => exact Or.inl rfl
  | some m =>
      refine Or.inr ⟨m, rfl, ?_⟩
      rcases processHdrMsg_eq_ok_iff.mp hproc with
        ⟨-, hnone, -⟩ | ⟨hvalid, hsize, hrest, valid, m', hset, hm⟩
      · exact absurd hnone (Option.some_ne_none m)
      · cases valid with
        | false => exact absurd hm (Option.some_ne_none m)
        | true =>
            obtain rfl : m = m' := Option.some.inj hm
            obtain ⟨hheader, hbits⟩ := Message.fields_of_setBits hset
            rw [← hheader] at hvalid hsize hrest hset hbits
            rw [← hbits] at hset
            have hlength := hbytes.2
            rw [hunread, List.length_drop] at hlength
            rw [List.drop_drop] at hsize hrest hbits
            rw [List.length_drop] at hsize
            have hnext : s.position + (s.unread.length - rest.length) =
                s.position + r.bytes_transferred +
                  (dataSize m.commonHeader).toNat := by
              rw [hunread, hrest, List.length_drop, List.length_drop,
                List.length_drop]
              omega
            constructor
            · exact ⟨r.bytes_transferred, hbytes.1, hheader, hbits, hnext⟩
            · change s.position + (s.unread.length - rest.length) ≤ _
              omega
            · exact hvalid
            · exact Message.msgValid_of_setBits hset
            · exact hset

/-- Every run dispatches what stands in the stream, and invokes the callbacks
for it in order. -/
theorem run_inStream (cbs : Callbacks β ω) {stream : List UInt8}
    {s : DataSocket} {rs : List Receive} {os : List (DataAction β ω)}
    (h : (machine cbs).run ⟨0, stream⟩ rs = some (s, os)) :
    s.Within stream ∧ InStream stream s.position (dispatched os) ∧
      invoked os = (dispatched os).flatMap fun p => cbs.dispatch p.2 := by
  refine (machine cbs).run_history
    (I := fun s os => s.Within stream ∧
      InStream stream s.position (dispatched os) ∧
      invoked os = (dispatched os).flatMap fun p => cbs.dispatch p.2)
    ?_ ?_ h
  · intro s os r t o hkept hstep
    obtain ⟨hwithin, hstream, hinvoked⟩ := hkept
    obtain ⟨hmove, hturn⟩ := step_stands cbs hwithin hstep
    have hinvoke : invoked o =
        (dispatched o).flatMap fun p => cbs.dispatch p.2 := by
      obtain ⟨-, msg, rest, -, -, rfl⟩ :=
        (machine_step_eq_some_iff cbs).mp hstep
      cases msg with
      | none => rfl
      | some m => simp
    refine ⟨step_within cbs hwithin hstep, ?_, ?_⟩
    · rw [dispatched_append]
      rcases hturn with hnone | ⟨m, hone, hstands⟩
      · rw [hnone, List.append_nil]
        exact hstream.mono hmove
      · rw [hone]
        exact InStream.concat hstream (Nat.le_refl _) hstands (Nat.le_refl _)
    · rw [invoked_append, dispatched_append, hinvoked, hinvoke,
        List.flatMap_append]
  · exact ⟨⟨Nat.zero_le _, rfl⟩, InStream.nil 0, rfl⟩

end DataSocket

namespace NorbitConnection

variable {β ω : Type}

/-- In every schedule of a connection, whatever its streams hold and however
they are delivered, each data socket dispatches what stands in its own stream,
one message behind the other, and invokes the callbacks for exactly these. -/
theorem dispatched_inStream (cbs : Callbacks β ω) (cmd_timeout : ℤ)
    (streams : DataSock → List UInt8) (cmd : CmdSocket) {es : List Event}
    {s' : State} {os : List (Action β ω)}
    (hrun : (machine cbs cmd_timeout).run (start streams cmd) es =
      some (s', os)) (k : DataSock) :
    DataSocket.Within (streams k) (s' (.data k)) ∧
      InStream (streams k) (s' (.data k)).position
        (DataSocket.dispatched (dataActions k os)) ∧
      DataSocket.invoked (dataActions k os) =
        (DataSocket.dispatched (dataActions k os)).flatMap fun p =>
          cbs.dispatch p.2 :=
  DataSocket.run_inStream cbs (run_data hrun k)

/-- A bathymetric stream of two frames, the first with a wrong CRC, and a
water-column stream. -/
theorem dispatched_inStream_pings :
    ∃ s' os, (machine (⟨[()], [()]⟩ : Callbacks Unit Unit) 5).run
        (start (fun k => Frame.stream (pings k)) CmdSocket.closed)
        (frameEvents pings) = some (s', os) ∧
      ∀ k, DataSocket.Within (Frame.stream (pings k)) (s' (.data k)) ∧
        InStream (Frame.stream (pings k)) (s' (.data k)).position
          (DataSocket.dispatched (dataActions k os)) ∧
        DataSocket.invoked (dataActions k os) =
          (DataSocket.dispatched (dataActions k os)).flatMap fun p =>
            (⟨[()], [()]⟩ : Callbacks Unit Unit).dispatch p.2 := by
  obtain ⟨s', os, hrun⟩ := exists_run_frameEvents
    (⟨[()], [()]⟩ : Callbacks Unit Unit) 5 pings CmdSocket.closed
    pings_supported (fun k f hf hi => (pings_declared k f hf hi).headed)
  exact ⟨s', os, hrun, dispatched_inStream _ 5 _ CmdSocket.closed hrun⟩

end NorbitConnection

end NorbitDriver
