import NorbitDriver.Connection.CommandSocket
import NorbitDriver.Connection.Frame
import NorbitDriver.Transition.Interleave

/-!
# The connection

A `NorbitConnection` has a bathymetric, a water-column and a command socket,
whose handlers all run on one `io_service`, one at a time and in any order. No
handler of one socket touches the buffers of another, so the connection is the
interleaving of the three machines.

A stream of supported frames on a data socket is decoded frame by frame in every
schedule of the handlers.
-/

namespace NorbitDriver

open Transition

/-- The sockets that frames are received on. -/
inductive DataSock
  | bathymetric
  | water_column
deriving DecidableEq

/-- The three sockets of a connection. -/
inductive Sock
  | data (sock : DataSock)
  | cmd
deriving DecidableEq

namespace Sock

def State : Sock → Type
  | data _ => DataSocket
  | cmd => CmdSocket

def Event : Sock → Type
  | data _ => Receive
  | cmd => CmdEvent

def Action (β ω : Type) : Sock → Type
  | data _ => DataAction β ω
  | cmd => CmdAction

variable {β ω : Type}

/-- The machine of each socket. -/
def machine (cbs : Callbacks β ω) (cmd_timeout : ℤ) :
    ∀ i, Machine (State i) (Event i) (Action β ω i)
  | data _ => DataSocket.machine cbs
  | cmd => CmdSocket.machine cmd_timeout

end Sock

namespace NorbitConnection

variable {β ω : Type}

abbrev State := ∀ i, Sock.State i

abbrev Event := Σ i, Sock.Event i

abbrev Action (β ω : Type) := Σ i, Sock.Action β ω i

/-- The connection under every order of the handlers of its sockets. -/
def machine (cbs : Callbacks β ω) (cmd_timeout : ℤ) :
    Machine State Event (Action β ω) :=
  Machine.interleave (Sock.machine cbs cmd_timeout)

/-- A connection that has read nothing of the streams of its data sockets. -/
def start (streams : DataSock → List UInt8) (cmd : CmdSocket) : State
  | .data k => (⟨0, streams k⟩ : DataSocket)
  | .cmd => cmd

/-- The receive operations of a data socket. -/
def receives (k : DataSock) (es : List Event) : List Receive :=
  restrict (A := Sock.Event) (.data k) es

/-- The events of the command socket. -/
def cmdEvents (es : List Event) : List CmdEvent :=
  restrict (A := Sock.Event) .cmd es

/-- What is observed of a data socket. -/
def dataActions (k : DataSock) (os : List (Action β ω)) :
    List (DataAction β ω) :=
  restrict (A := Sock.Action β ω) (.data k) os

/-- What is observed of the command socket. -/
def cmdActions (os : List (Action β ω)) : List CmdAction :=
  restrict (A := Sock.Action β ω) .cmd os

/-- A data socket of a connection makes the run over its own events. -/
theorem run_data {cbs : Callbacks β ω} {cmd_timeout : ℤ} {s s' : State}
    {es : List Event} {os : List (Action β ω)}
    (hrun : (machine cbs cmd_timeout).run s es = some (s', os))
    (k : DataSock) :
    (DataSocket.machine cbs).run (s (.data k)) (receives k es) =
      some (s' (.data k), dataActions k os) :=
  Machine.run_restrict (Sock.machine cbs cmd_timeout) hrun (.data k)

/-- So does the command socket. -/
theorem run_command {cbs : Callbacks β ω} {cmd_timeout : ℤ} {s s' : State}
    {es : List Event} {os : List (Action β ω)}
    (hrun : (machine cbs cmd_timeout).run s es = some (s', os)) :
    (CmdSocket.machine cmd_timeout).run (s .cmd) (cmdEvents es) =
      some (s' .cmd, cmdActions os) :=
  Machine.run_restrict (Sock.machine cbs cmd_timeout) hrun .cmd

end NorbitConnection

namespace DataSocket

variable {β ω : Type}

/-- A stream of supported frames takes no more turns than it has frames. -/
theorem length_le_of_run (cbs : Callbacks β ω) {fs : List Frame}
    (hs : ∀ f ∈ fs, f.Supported) (hh : ∀ f ∈ fs, f.Intact → f.Headed) {n : ℕ}
    {s' : DataSocket} {os : List (DataAction β ω)}
    (hrun : (machine cbs).run ⟨0, Frame.stream fs⟩
      (List.replicate n Receive.full) = some (s', os)) : n ≤ fs.length := by
  by_contra hlt
  obtain ⟨k, rfl⟩ := Nat.exists_eq_add_of_lt (Nat.lt_of_not_le hlt)
  obtain ⟨ps, hframes, -⟩ := run_frames cbs hs hh 0 []
  rw [List.append_nil] at hframes
  rw [Nat.add_assoc, ← List.replicate_append_replicate,
    Machine.run_append_eq_some_iff] at hrun
  obtain ⟨t, o, o', hfront, hback, -⟩ := hrun
  rw [hframes, Option.some.injEq, Prod.mk.injEq] at hfront
  rw [← hfront.1, List.replicate_succ, Machine.run_cons_eq_some_iff] at hback
  obtain ⟨u, p, p', hstep, -, -⟩ := hback
  have hposs := ((machine_step_eq_some_iff cbs).mp hstep).1
  rw [full_possible_iff] at hposs
  exact absurd hposs (Nat.not_succ_le_zero 23)

/-- `n` turns with whole headers on a stream of supported frames read its
first `n` frames. -/
theorem run_frames_take (cbs : Callbacks β ω) {fs : List Frame}
    (hs : ∀ f ∈ fs, f.Supported) (hh : ∀ f ∈ fs, f.Intact → f.Headed) {n : ℕ}
    {s' : DataSocket} {os : List (DataAction β ω)}
    (hrun : (machine cbs).run ⟨0, Frame.stream fs⟩
      (List.replicate n Receive.full) = some (s', os)) :
    n ≤ fs.length ∧
      s' = ⟨(Frame.stream (fs.take n)).length, Frame.stream (fs.drop n)⟩ ∧
      invoked os = (fs.take n).flatMap (Frame.invocations cbs) := by
  have hle := length_le_of_run cbs hs hh hrun
  have hlen : (fs.take n).length = n :=
    List.length_take_of_le hle
  obtain ⟨ps, hframes, hinvoked⟩ := run_frames cbs
    (fun f hf => hs f (List.mem_of_mem_take hf))
    (fun f hf => hh f (List.mem_of_mem_take hf)) 0
    (Frame.stream (fs.drop n))
  rw [← Frame.stream_append, List.take_append_drop, hlen, hrun,
    Option.some.injEq, Prod.mk.injEq, Nat.zero_add] at hframes
  rw [hframes.2]
  exact ⟨hle, hframes.1, hinvoked⟩

/-- While frames are left, a whole header can be received and its handler comes
back. -/
theorem step_isSome_of_lt (cbs : Callbacks β ω) {fs : List Frame}
    (hs : ∀ f ∈ fs, f.Supported) (hh : ∀ f ∈ fs, f.Intact → f.Headed) {n : ℕ}
    (hlt : n < fs.length) (position : ℕ) :
    ((machine cbs).step ⟨position, Frame.stream (fs.drop n)⟩
      Receive.full).isSome := by
  have hmem := List.getElem_mem hlt
  rw [List.drop_eq_getElem_cons hlt, Frame.stream_cons,
    step_frame cbs (hs _ hmem) (hh _ hmem)]
  rfl

end DataSocket

namespace NorbitConnection

variable {β ω : Type}

/-- A data socket after its first `n` frames: the position is the end of the
last of them, the callbacks of the intact ones have been invoked, and the next
frame, if there is one, will be read. -/
structure Decoded (cbs : Callbacks β ω) (fs : List Frame) (n : ℕ)
    (s : DataSocket) (os : List (DataAction β ω)) : Prop where
  le : n ≤ fs.length
  position : s.position = (Frame.stream (fs.take n)).length
  unread : s.unread = Frame.stream (fs.drop n)
  invoked : DataSocket.invoked os =
    (fs.take n).flatMap (Frame.invocations cbs)
  progress : n < fs.length →
    ((DataSocket.machine cbs).step s Receive.full).isSome

/-- `n` receive operations with whole headers on a data socket. -/
def fullReceives (k : DataSock) (n : ℕ) : List (Sock.Event (.data k)) :=
  List.replicate n Receive.full

/-- The events that read the frames of both data sockets, one socket after the
other. -/
def frameEvents (frames : DataSock → List Frame) : List Event :=
  (fullReceives .bathymetric (frames .bathymetric).length).map
      (Sigma.mk (.data .bathymetric)) ++
    (fullReceives .water_column (frames .water_column).length).map
      (Sigma.mk (.data .water_column))

theorem receives_frameEvents (frames : DataSock → List Frame) (k : DataSock) :
    receives k (frameEvents frames) =
      List.replicate (frames k).length Receive.full := by
  rw [receives, frameEvents, restrict_append]
  cases k with
  | bathymetric =>
      rw [restrict_map_self, restrict_map_of_ne (by decide), List.append_nil]
      rfl
  | water_column =>
      rw [restrict_map_self, restrict_map_of_ne (by decide), List.nil_append]
      rfl

theorem cmdEvents_frameEvents (frames : DataSock → List Frame) :
    cmdEvents (frameEvents frames) = [] := by
  rw [cmdEvents, frameEvents, restrict_append,
    restrict_map_of_ne (fun h => Sock.noConfusion h),
    restrict_map_of_ne (fun h => Sock.noConfusion h)]
  rfl

/-- Supported frames can be read in this order. -/
theorem exists_run_frameEvents (cbs : Callbacks β ω) (cmd_timeout : ℤ)
    (frames : DataSock → List Frame) (cmd : CmdSocket)
    (hs : ∀ k, ∀ f ∈ frames k, f.Supported)
    (hh : ∀ k, ∀ f ∈ frames k, f.Intact → f.Headed) :
    ∃ s' os, (machine cbs cmd_timeout).run
      (start (fun k => Frame.stream (frames k)) cmd) (frameEvents frames) =
        some (s', os) := by
  have hsome : ((machine cbs cmd_timeout).run
      (start (fun k => Frame.stream (frames k)) cmd)
      (frameEvents frames)).isSome := by
    apply Machine.interleave_run_isSome
    intro i
    cases i with
    | data k =>
        obtain ⟨os, hrun, -⟩ :=
          DataSocket.run_frames cbs (hs k) (hh k) 0 []
        rw [List.append_nil] at hrun
        have hevents := receives_frameEvents frames k
        rw [receives] at hevents
        rw [hevents]
        exact Option.isSome_iff_exists.mpr ⟨_, hrun⟩
    | cmd =>
        have hevents := cmdEvents_frameEvents frames
        rw [cmdEvents] at hevents
        rw [hevents]
        rfl
  obtain ⟨⟨s', os⟩, hrun⟩ := Option.isSome_iff_exists.mp hsome
  exact ⟨s', os, hrun⟩

/-- In every schedule of a connection in which headers are received whole, each
data socket decodes its own frames one by one. -/
theorem frames_decoded (cbs : Callbacks β ω) (cmd_timeout : ℤ)
    (frames : DataSock → List Frame) (cmd : CmdSocket)
    (hs : ∀ k, ∀ f ∈ frames k, f.Supported)
    (hd : ∀ k, ∀ f ∈ frames k, f.Intact → f.Declared)
    {es : List Event} {s' : State} {os : List (Action β ω)}
    (hrun : (machine cbs cmd_timeout).run
      (start (fun k => Frame.stream (frames k)) cmd) es = some (s', os))
    (hfull : ∀ k, ∀ r ∈ receives k es, r = Receive.full) (k : DataSock) :
    Decoded cbs (frames k) (receives k es).length (s' (.data k))
      (dataActions k os) := by
  have hk := run_data hrun k
  have hreplicate : receives k es =
      List.replicate (receives k es).length Receive.full :=
    List.eq_replicate_of_mem (hfull k)
  have hh : ∀ f ∈ frames k, f.Intact → f.Headed :=
    fun f hf hi => (hd k f hf hi).headed
  rw [hreplicate] at hk
  obtain ⟨hle, hstate, hinvoked⟩ :=
    DataSocket.run_frames_take cbs (hs k) hh hk
  refine ⟨hle, ?_, ?_, hinvoked, fun hlt => ?_⟩
  · rw [hstate]
  · rw [hstate]
  · rw [hstate]
    exact DataSocket.step_isSome_of_lt cbs (hs k) hh hlt _

/-- A frame with a wrong CRC in front of an intact one on the bathymetric
socket, and a frame on the other. -/
def pings : DataSock → List Frame
  | .bathymetric => [Frame.garbled, Frame.sounding]
  | .water_column => [Frame.image]

theorem pings_supported (k : DataSock) : ∀ f ∈ pings k, f.Supported := by
  cases k with
  | bathymetric =>
      exact List.forall_mem_cons.mpr ⟨Frame.garbled_supported,
        List.forall_mem_singleton.mpr Frame.sounding_supported⟩
  | water_column => exact List.forall_mem_singleton.mpr Frame.image_supported

theorem pings_declared (k : DataSock) :
    ∀ f ∈ pings k, f.Intact → f.Declared := by
  cases k with
  | bathymetric =>
      refine List.forall_mem_cons.mpr ⟨fun hi => ?_, ?_⟩
      · exact absurd hi Frame.garbled_not_intact
      · exact List.forall_mem_singleton.mpr fun _ => Frame.sounding_declared
  | water_column =>
      exact List.forall_mem_singleton.mpr fun _ => Frame.image_declared

/-- The frame with the wrong CRC is consumed without a call, and the one behind
it is decoded. -/
theorem frames_decoded_garbled :
    ∃ s' os, (machine (⟨[()], [()]⟩ : Callbacks Unit Unit) 5).run
        (start (fun k => Frame.stream (pings k)) CmdSocket.closed)
        (frameEvents pings) = some (s', os) ∧
      ∀ k, Decoded (⟨[()], [()]⟩ : Callbacks Unit Unit) (pings k)
        (pings k).length (s' (.data k)) (dataActions k os) := by
  obtain ⟨s', os, hrun⟩ := exists_run_frameEvents
    (⟨[()], [()]⟩ : Callbacks Unit Unit) 5 pings CmdSocket.closed
    pings_supported (fun k f hf hi => (pings_declared k f hf hi).headed)
  have hfull : ∀ k, ∀ r ∈ receives k (frameEvents pings),
      r = Receive.full := by
    intro k r hr
    rw [receives_frameEvents] at hr
    exact List.eq_of_mem_replicate hr
  refine ⟨s', os, hrun, fun k => ?_⟩
  have hdecoded := frames_decoded _ 5 pings CmdSocket.closed pings_supported
    pings_declared hrun hfull k
  rwa [receives_frameEvents, List.length_replicate] at hdecoded

end NorbitConnection

end NorbitDriver
