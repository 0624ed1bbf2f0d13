import NorbitDriver.Transition.Machine
import NorbitDriver.Types.Message

/-!
# The receive loop of a data socket

A data socket is the part of the TCP stream the driver has not read yet. A
receive operation fills a zeroed buffer of 24 bytes with whatever number of
bytes the socket has, and its handler passes the buffer to `processHdrMsg`
without looking at the error or at the number of bytes; then it starts the next
receive operation. The bathymetric and the water-column socket run the same
loop on their own socket and buffer.

`processHdrMsg` takes the payload with a blocking read of the exact length. It
does not come back while bytes of the payload are missing, nor when the stream
ends before them and the read throws (`Fault.blocked`), and a length that makes
the driver read behind the payload has no defined outcome (`Fault.overrun`).
-/

namespace NorbitDriver

open Bytes Transition

/-- The registered callbacks, in registration order. -/
structure Callbacks (β ω : Type*) where
  bathymetry_callbacks : List β
  watercolumn_callbacks : List ω

/-- One call of a registered callback. -/
inductive Invocation (β ω : Type*)
  | bathymetry (cb : β) (data : BathymetricData)
  | watercolumn (cb : ω) (data : WaterColumnData)
deriving DecidableEq

/-- What is observed of the receive loop of a data socket. The offset of a
dispatched message is the position of its header in the stream. -/
inductive DataAction (β ω : Type*)
  | dispatched (offset : ℕ) (msg : Message)
  | invoked (inv : Invocation β ω)
  | receiveStarted
deriving DecidableEq

inductive Fault
  | blocked
  | overrun
deriving DecidableEq

/-- How a receive operation completes. -/
structure Receive where
  error : Bool
  bytes_transferred : ℕ
deriving DecidableEq

/-- The stream of a data socket: the number of bytes taken from it, and the
bytes that are still to be read. -/
structure DataSocket where
  position : ℕ
  unread : List UInt8
deriving DecidableEq

namespace Callbacks

variable {β ω : Type*}

def bathyCallback (cbs : Callbacks β ω) (data : BathymetricData) :
    List (Invocation β ω) :=
  cbs.bathymetry_callbacks.map fun cb => .bathymetry cb data

def wcCallback (cbs : Callbacks β ω) (data : WaterColumnData) :
    List (Invocation β ω) :=
  cbs.watercolumn_callbacks.map fun cb => .watercolumn cb data

/-- The calls that `processHdrMsg` makes for a valid message. -/
def dispatch (cbs : Callbacks β ω) (msg : Message) : List (Invocation β ω) :=
  (if msg.commonHeader.type = TypeId.bathymetric.value then
    msg.bathy.toList.flatMap cbs.bathyCallback else []) ++
  (if msg.commonHeader.type = TypeId.watercolum.value then
    msg.water_column.toList.flatMap cbs.wcCallback else [])

/-- What is observed of `processHdrMsg` for a header at `offset`. -/
def processed (cbs : Callbacks β ω) (offset : ℕ) :
    Option Message → List (DataAction β ω)
  | none => []
  | some msg => .dispatched offset msg :: (cbs.dispatch msg).map .invoked

end Callbacks

namespace Receive

/-- The socket can complete a receive operation in this way: an error transfers
nothing, and otherwise some of the available bytes fill the buffer. -/
def Possible (r : Receive) (s : DataSocket) : Prop :=
  if r.error then r.bytes_transferred = 0
  else 0 < r.bytes_transferred ∧ r.bytes_transferred ≤ 24 ∧
    r.bytes_transferred ≤ s.unread.length

instance (r : Receive) (s : DataSocket) : Decidable (r.Possible s) := by
  unfold Possible
  infer_instance

/-- A receive operation that completes with a whole header. -/
def full : Receive := { error := false, bytes_transferred := 24 }

end Receive

/-- A buffer of 24 zeros whose front has been overwritten. -/
def headerBuffer (received : List UInt8) : List UInt8 :=
  received ++ List.replicate (24 - received.length) 0

/-- `size - sizeof(CommonHeader)`, narrowed to `unsigned int`. -/
def dataSize (header : CommonHeader) : UInt32 :=
  (header.size.toUInt64 - 24).toUInt32

/-- `processHdrMsg` returns the message it dispatches, and the stream behind
the bytes it has read. -/
def processHdrMsg (hdr unread : List UInt8) :
    Except Fault (Option Message × List UInt8) :=
  let header := Message.fromBoostArray hdr
  if Message.headerValid header then
    let dataSize := (dataSize header).toNat
    if dataSize ≤ unread.length then
      match Message.setBits header (unread.take dataSize) with
      | none => .error .overrun
      | some (true, msg) => .ok (some msg, unread.drop dataSize)
      | some (false, _) => .ok (none, unread.drop dataSize)
    else .error .blocked
  else .ok (none, unread)

namespace DataSocket

variable {β ω : Type*}

/-- The body that `bathyHandler` and `wcHandler` share. The arguments `error`
and `bytes_transferred` are not used; what the operation has transferred is in
the buffer. -/
def handler (cbs : Callbacks β ω) (s : DataSocket) (received : List UInt8) :
    Except Fault (DataSocket × List (DataAction β ω)) :=
  match processHdrMsg (headerBuffer received)
      (s.unread.drop received.length) with
  | .error fault => .error fault
  | .ok (msg, rest) =>
      .ok
        ({ position := s.position + (s.unread.length - rest.length)
           unread := rest },
          cbs.processed s.position msg ++ [.receiveStarted])

/-- The receive loop: a receive operation completes and its handler runs. -/
def machine (cbs : Callbacks β ω) :
    Machine DataSocket Receive (DataAction β ω) where
  step s r :=
    if r.Possible s then
      (handler cbs s (s.unread.take r.bytes_transferred)).toOption
    else none

/-- The messages dispatched in a list of observations, with their offsets. -/
def dispatched (os : List (DataAction β ω)) : List (ℕ × Message) :=
  os.filterMap fun
    | .dispatched offset msg => some (offset, msg)
    | _ => none

/-- The callbacks invoked in a list of observations. -/
def invoked (os : List (DataAction β ω)) : List (Invocation β ω) :=
  os.filterMap fun
    | .invoked inv => some inv
    | _ => none

end DataSocket

theorem headerBuffer_of_length {received : List UInt8}
    (h : received.length = 24) : headerBuffer received = received := by
  rw [headerBuffer, h, Nat.sub_self, List.replicate_zero, List.append_nil]

/-- With a size of at least the header neither subtraction wraps, and the
length that is read is the length the CRC runs over. -/
theorem dataSize_toNat {header : CommonHeader} (h : 24 ≤ header.size.toNat) :
    (dataSize header).toNat = header.size.toNat - 24 := by
  have hcrc := Message.crcSize_toNat h
  have hlt := header.size.toNat_lt
  rw [Message.crcSize] at hcrc
  rw [dataSize, UInt64.toNat_toUInt32, hcrc]
  exact Nat.mod_eq_of_lt (by omega)

/-- A buffer without a valid header takes nothing further from the stream. -/
theorem processHdrMsg_of_not_headerValid {hdr : List UInt8}
    (h : Message.headerValid (Message.fromBoostArray hdr) = false)
    (unread : List UInt8) : processHdrMsg hdr unread = .ok (none, unread) := by
  simp [processHdrMsg, h]

/-- What `processHdrMsg` can do: pass over a buffer without a valid header, or
read a payload and dispatch the message if its CRC matches. -/
theorem processHdrMsg_eq_ok_iff {hdr unread rest : List UInt8}
    {msg : Option Message} :
    processHdrMsg hdr unread = .ok (msg, rest) ↔
      (Message.headerValid (Message.fromBoostArray hdr) = false ∧
        msg = none ∧ rest = unread) ∨
      (Message.headerValid (Message.fromBoostArray hdr) = true ∧
        (dataSize (Message.fromBoostArray hdr)).toNat ≤ unread.length ∧
        rest = unread.drop (dataSize (Message.fromBoostArray hdr)).toNat ∧
        ∃ valid m, Message.setBits (Message.fromBoostArray hdr)
            (unread.take (dataSize (Message.fromBoostArray hdr)).toNat) =
              some (valid, m) ∧
          msg = if valid then some m else none) := by
  cases hvalid : Message.headerValid (Message.fromBoostArray hdr) with
  | false =>
      rw [processHdrMsg_of_not_headerValid hvalid]
      simp [eq_comm]
  | true =>
      simp only [processHdrMsg, hvalid, if_true]
      by_cases hle :
          (dataSize (Message.fromBoostArray hdr)).toNat ≤ unread.length
      · rw [if_pos hle]
        cases hset : Message.setBits (Message.fromBoostArray hdr)
            (unread.take (dataSize (Message.fromBoostArray hdr)).toNat) with
        | none => simp
        | some p =>
            obtain ⟨valid, m⟩ := p
            cases valid with
            | true => simp [hle, eq_comm, and_comm]
            | false => simp [hle, eq_comm, and_comm]
      · rw [if_neg hle]
        simp [hle]

namespace DataSocket

variable {β ω : Type*}

@[simp] theorem dispatched_append (os os' : List (DataAction β ω)) :
    dispatched (os ++ os') = dispatched os ++ dispatched os' :=
  List.filterMap_append

@[simp] theorem invoked_append (os os' : List (DataAction β ω)) :
    invoked (os ++ os') = invoked os ++ invoked os' :=
  List.filterMap_append

theorem dispatched_eq_nil_iff {os : List (DataAction β ω)} :
    dispatched os = [] ↔
      ∀ a ∈ os, ∀ offset msg, a ≠ .dispatched offset msg := by
  rw [dispatched, List.filterMap_eq_nil_iff]
  constructor
  · rintro h a ha offset msg rfl
    exact absurd (h _ ha) (by simp)
  · intro h a ha
    cases a with
    | dispatched offset msg => exact absurd rfl (h _ ha offset msg)
    | invoked inv => rfl
    | receiveStarted => rfl

@[simp] theorem dispatched_map_invoked (l : List (Invocation β ω)) :
    dispatched (l.map DataAction.invoked) = [] := by
  simp [dispatched]

@[simp] theorem invoked_map_invoked (l : List (Invocation β ω)) :
    invoked (l.map DataAction.invoked) = l := by
  simp [invoked]

@[simp] theorem dispatched_processed (cbs : Callbacks β ω) (offset : ℕ)
    (msg : Option Message) :
    dispatched (cbs.processed offset msg) =
      msg.toList.map fun m => (offset, m) := by
  cases msg with
  | none => rfl
  | some m => simp [Callbacks.processed, dispatched]

@[simp] theorem invoked_processed (cbs : Callbacks β ω) (offset : ℕ)
    (msg : Option Message) :
    invoked (cbs.processed offset msg) = msg.toList.flatMap cbs.dispatch := by
  cases msg with
  | none => rfl
  | some m => simp [Callbacks.processed, invoked]

@[simp] theorem dispatched_receiveStarted :
    dispatched ([.receiveStarted] : List (DataAction β ω)) = [] := rfl

@[simp] theorem invoked_receiveStarted :
    invoked ([.receiveStarted] : List (DataAction β ω)) = [] := rfl

/-- One turn of the receive loop: the operation was possible, `processHdrMsg`
came back, and the next operation was started. -/
theorem machine_step_eq_some_iff (cbs : Callbacks β ω) {s s' : DataSocket}
    {r : Receive} {os : List (DataAction β ω)} :
    (machine cbs).step s r = some (s', os) ↔
      r.Possible s ∧ ∃ msg rest,
        processHdrMsg (headerBuffer (s.unread.take r.bytes_transferred))
          (s.unread.drop (s.unread.take r.bytes_transferred).length) =
            .ok (msg, rest) ∧
        s' =
          { position := s.position + (s.unread.length - rest.length)
            unread := rest } ∧
        os = cbs.processed s.position msg ++ [.receiveStarted] := by
  by_cases hr : r.Possible s
  · simp only [machine, hr, if_true, handler, true_and]
    cases processHdrMsg (headerBuffer (s.unread.take r.bytes_transferred))
        (s.unread.drop (s.unread.take r.bytes_transferred).length) with
    | error fault => simp [Except.toOption]
    | ok p =>
        obtain ⟨msg, rest⟩ := p
        simp [Except.toOption, eq_comm]
  · simp [machine, hr]

end DataSocket

end NorbitDriver
